import Vellum.Lib.Infix
import Vellum.Spec.Constraints
import Vellum.Spec.PythonModule

/-!
# How the generated sources are read

The renderers return text, and the model gives their syntax trees. Here the text is read back, each in
the grammar of its language: the right-hand side of a Circom statement by the precedence of `*` over
`+` and `-`, the decision of the Python module by the precedence of `or`, `and`, `not` and comparisons,
with its subscripts and generator expressions.
-/

namespace Vellum

open PySource

/-! ## Circom -/

/-- What stands alone in a right-hand side. -/
inductive CircomAtom where
  | signal (signal : Signal) (subscript : Subscript)
  | int (i : ℤ)
  | loopVar
deriving DecidableEq, Repr

namespace CircomAtom

def text (loopVar : String) : CircomAtom → List Char
  | signal s j => (s.text loopVar j).toList
  | int i => i.repr.toList
  | .loopVar => loopVar.toList

def value (N : ℕ) (w : Assignment) (i : ℕ) : CircomAtom → F
  | signal s j => w s (j.cell N i)
  | int c => (c : F)
  | .loopVar => (i : F)

end CircomAtom

/-- The tree of an expression. -/
def CircomExpr.tree : CircomExpr → Infix.Expr CircomAtom
  | .signal s j => .atom (.signal s j)
  | .int i => .atom (.int i)
  | .loopVar => .atom .loopVar
  | .add a b => .add a.tree b.tree
  | .sub a b => .sub a.tree b.tree
  | .mul a b => .mul a.tree b.tree
  | .paren a => .paren a.tree

/-- A signal with its subscript and its port is read in one piece. -/
def circomWordChar (c : Char) : Bool := wordChar c || c ∈ ['[', ']', '.']

/-- The tree of a right-hand side. -/
def readCircom (text : String) : Option (Infix.Expr (List Char)) := Infix.readText circomWordChar text.toList

/-! ## Python -/

namespace PyReader

/-- What was read since the last operator. -/
inductive Operand where
  | name (w : List Char)
  /-- A name and an opening bracket, then what stands in it. -/
  | opened (w : List Char)
  | indexed (w : List Char) (index : Token)
  | value (v : PyValue)
  | bool (b : PyBool)
  /-- The element of a generator expression, and what stands behind its `for`. -/
  | clause (element : PyBool) (read : List Token)
deriving Inhabited

/-- What is under way between two brackets: the parts of an `or`, those of an `and`, how often `not`
stands before what follows, the left side of a comparison, a minus sign and the operand. The brackets
are those of a quantifier, or plain ones. -/
structure Frame where
  quantifier : Option AggregateKind
  ors : List PyBool
  ands : List PyBool
  nots : ℕ
  compared : Option (PyValue × ComparisonOp)
  minus : Bool
  operand : Option Operand

def Frame.opened (quantifier : Option AggregateKind) : Frame := ⟨quantifier, [], [], 0, none, false, none⟩

/-- A frame, and those outside of its brackets. -/
structure Reader where
  frame : Frame
  outer : List Frame

/-! ### Names and numbers -/

def digits? (w : List Char) : Option ℕ :=
  if w ≠ [] ∧ w.all Char.isDigit then some (Nat.ofDigitChars 10 w 0) else none

/-- `idx_k`. -/
def idx? (w : List Char) : Option ℕ :=
  if "idx_".toList.isPrefixOf w then digits? (w.drop "idx_".length) else none

def quantifier? (w : List Char) : Option AggregateKind :=
  [AggregateKind.all, .any].find? fun kind => kind.text.toList = w

def op? (p : List Char) : Option ComparisonOp :=
  [ComparisonOp.lt, .gt, .le, .ge, .eq].find? fun op => op.text.toList = p

/-- `name[index]`. -/
def subscript? (w : List Char) : Token → Option PyValue
  | .word i =>
    if w = "balances".toList then (idx? i).map .balances
    else if w = "limits".toList then (idx? i).map .limits
    else none
  | .str _ key => if w = "policy_params".toList then some (.param (String.ofList (key.map Char.ofNat))) else none
  | _ => none

/-- The variable of `for variable in range(active_count)`. -/
def clause? : List Token → Option ℕ
  | [.word w, .word inWord, .word range, .punct opening, .word count, .punct closing] =>
    if inWord = "in".toList ∧ range = "range".toList ∧ opening = ['('] ∧ count = "active_count".toList ∧
      closing = [')'] then idx? w else none
  | _ => none

/-! ### What the operators make -/

namespace Frame

/-- The comparison or the operand, under the `not`s before it. A value is no condition. -/
def inversion (f : Frame) : Option PyBool :=
  match f.operand, f.compared with
  | some (.value right), some (left, op) => some (PyBool.not^[f.nots] (.compare op left right))
  | some (.bool b), none => some (PyBool.not^[f.nots] b)
  | _, _ => none

def conjunction (f : Frame) : Option PyBool :=
  f.inversion.map fun b => match f.ands with
    | [] => b
    | ands => .and (ands ++ [b])

def disjunction (f : Frame) : Option PyBool :=
  f.conjunction.map fun b => match f.ors with
    | [] => b
    | ors => .or (ors ++ [b])

end Frame

/-! ### The reader -/

/-- A token where an operand is expected. -/
def stepOperand (f : Frame) (outer : List Frame) : Token → Option Reader
  | .punct ['('] => if f.minus then none else some ⟨.opened none, f :: outer⟩
  | .punct ['-'] => if f.minus then none else some ⟨{ f with minus := true }, outer⟩
  | .word w =>
    match digits? w with
    | some n => some ⟨{ f with minus := false, operand := some (.value (.int (if f.minus then -n else n))) }, outer⟩
    | none =>
      if f.minus then none
      else if w = "not".toList then
        -- `not` binds less tightly than a comparison
        if f.compared.isSome then none else some ⟨{ f with nots := f.nots + 1 }, outer⟩
      else if w = "active_count".toList then some ⟨{ f with operand := some (.value .activeCount) }, outer⟩
      else some ⟨{ f with operand := some (.name w) }, outer⟩
  | _ => none

/-- A token behind an operand: an operator, the `for` of a generator expression, or a closing bracket. -/
def stepOperator (f : Frame) (outer : List Frame) : Token → Option Reader
  | .punct [')'] =>
    match f.quantifier, outer with
    | none, g :: outer => f.disjunction.map fun b => ⟨{ g with operand := some (.bool b) }, outer⟩
    | _, _ => none
  | .punct p =>
    match f.operand, f.compared, op? p with
    | some (.value v), none, some op => some ⟨{ f with compared := some (v, op), operand := none }, outer⟩
    | _, _, _ => none
  | .word w =>
    if w = "and".toList then f.inversion.map fun b =>
      ⟨{ f with ands := f.ands ++ [b], nots := 0, compared := none, operand := none }, outer⟩
    else if w = "or".toList then f.conjunction.map fun b =>
      ⟨{ f with ors := f.ors ++ [b], ands := [], nots := 0, compared := none, operand := none }, outer⟩
    else if w = "for".toList ∧ f.quantifier.isSome then f.disjunction.map fun b =>
      ⟨{ f with operand := some (.clause b []) }, outer⟩
    else none
  | _ => none

/-- One token. -/
def step (s : Reader) (t : Token) : Option Reader :=
  if t = mark ' ' then some s
  else match s.frame.operand with
    | none => stepOperand s.frame s.outer t
    | some (.name w) =>
      if t = mark '[' then some ⟨{ s.frame with operand := some (.opened w) }, s.outer⟩
      else if t = mark '(' then (quantifier? w).map fun kind =>
        ⟨.opened (some kind), { s.frame with operand := none } :: s.outer⟩
      else none
    | some (.opened w) => some ⟨{ s.frame with operand := some (.indexed w t) }, s.outer⟩
    | some (.indexed w index) =>
      if t = mark ']' then (subscript? w index).map fun v =>
        ⟨{ s.frame with operand := some (.value v) }, s.outer⟩
      else none
    | some (.clause element read) =>
      match s.frame.quantifier, clause? read, s.outer with
      | some kind, some k, g :: outer =>
        if t = mark ')' then some ⟨{ g with operand := some (.bool (.aggregate kind element k)) }, outer⟩ else none
      | _, _, _ => some ⟨{ s.frame with operand := some (.clause element (read ++ [t])) }, s.outer⟩
    | some (.value _) | some (.bool _) => stepOperator s.frame s.outer t

def run (s : Reader) (ts : List Token) : Option Reader := ts.foldlM step s

/-- The condition, once all brackets are closed. -/
def Reader.result (s : Reader) : Option PyBool :=
  match s.outer with
  | [] => s.frame.disjunction
  | _ => none

end PyReader

/-- The condition that tokens make. -/
def readDecision (ts : List Token) : Option PyBool :=
  (PyReader.run ⟨.opened none, []⟩ ts).bind PyReader.Reader.result

/-- The condition that a text makes. -/
def readPython (text : String) : Option PyBool := (lex noNames text.toList).bind readDecision

end Vellum
