import Vellum.Spec.BankingLibrary

/-!
# The Circom the renderer emits

Just enough of Circom for the generated aggregate blocks: signals and component
ports, arithmetic expressions with their parentheses, `<==` assignments, component
instantiations and one `for` loop. `text` writes a construct as the renderer does;
`eval` and `Holds` give the constraint it denotes for an assignment of field
elements.
-/

namespace Vellum

/-! ## Names -/

/-- The component arrays of a generated circuit. -/
inductive Component where
  | activeFlag (aggregateId : ℕ)
  | cmp (nodeId : ℕ)
  | rootBalancePadding
  | rootLimitPadding
deriving DecidableEq, Repr

inductive Port where
  | activeCount | index | isActive | lhs | rhs | out | value | valid
deriving DecidableEq, Repr

inductive Template where
  | activeIndexFlag16
  | primitiveLessThan32 | primitiveGreaterThan32 | primitiveLessEqThan32 | primitiveGreaterEqThan32
  | primitiveEqual
  | zeroPaddingInvariant
deriving DecidableEq, Repr

/-- The signals of a generated circuit, each an array (scalars use cell 0). -/
inductive Signal where
  | limits | activeCount | balances | policyParams
  | isActive (aggregateId : ℕ)
  | decisionValid (aggregateId : ℕ)
  | chain (aggregateId : ℕ)
  | value (aggregateId : ℕ)
  | port (component : Component) (port : Port)
deriving DecidableEq, Repr

/-- The subscripts that occur: none, a literal, the loop variable, its successor, `N`. -/
inductive Subscript where
  | none | lit (n : ℕ) | loop | loopSucc | size
deriving DecidableEq, Repr

def Component.text : Component → String
  | .activeFlag a => "agg_" ++ a.repr ++ "_active_flag"
  | .cmp k => "cmp_" ++ k.repr
  | .rootBalancePadding => "root_balance_padding"
  | .rootLimitPadding => "root_limit_padding"

def Port.text : Port → String
  | .activeCount => "active_count"
  | .index => "index"
  | .isActive => "is_active"
  | .lhs => "lhs"
  | .rhs => "rhs"
  | .out => "out"
  | .value => "value"
  | .valid => "valid"

def Template.text : Template → String
  | .activeIndexFlag16 => "ActiveIndexFlag16()"
  | .primitiveLessThan32 => "PrimitiveLessThan32()"
  | .primitiveGreaterThan32 => "PrimitiveGreaterThan32()"
  | .primitiveLessEqThan32 => "PrimitiveLessEqThan32()"
  | .primitiveGreaterEqThan32 => "PrimitiveGreaterEqThan32()"
  | .primitiveEqual => "PrimitiveEqual()"
  | .zeroPaddingInvariant => "ZeroPaddingInvariant()"

def Subscript.text (loopVar : String) : Subscript → String
  | .none => ""
  | .lit n => "[" ++ n.repr ++ "]"
  | .loop => "[" ++ loopVar ++ "]"
  | .loopSucc => "[" ++ loopVar ++ " + 1]"
  | .size => "[N]"

def Signal.text (loopVar : String) (i : Subscript) : Signal → String
  | .limits => "limits" ++ i.text loopVar
  | .activeCount => "active_count" ++ i.text loopVar
  | .balances => "balances" ++ i.text loopVar
  | .policyParams => "policy_params" ++ i.text loopVar
  | .isActive a => "agg_" ++ a.repr ++ "_is_active" ++ i.text loopVar
  | .decisionValid a => "agg_" ++ a.repr ++ "_decision_valid" ++ i.text loopVar
  | .chain a => "agg_" ++ a.repr ++ "_chain" ++ i.text loopVar
  | .value a => "agg_" ++ a.repr ++ "_value" ++ i.text loopVar
  | .port c p => c.text ++ i.text loopVar ++ "." ++ p.text

/-- The cell a subscript selects, at loop index `i` in a template of size `N`. -/
def Subscript.cell (N i : ℕ) : Subscript → ℕ
  | .none => 0
  | .lit n => n
  | .loop => i
  | .loopSucc => i + 1
  | .size => N

/-! ## Expressions -/

inductive CircomExpr where
  | signal (signal : Signal) (subscript : Subscript)
  | int (i : ℤ)
  | loopVar
  | add (a b : CircomExpr)
  | sub (a b : CircomExpr)
  | mul (a b : CircomExpr)
  | paren (a : CircomExpr)
deriving DecidableEq, Repr

/-- An assignment of field elements to the cells of the signals. -/
abbrev Assignment := Signal → ℕ → F

namespace CircomExpr

def text (loopVar : String) : CircomExpr → String
  | signal s i => s.text loopVar i
  | int i => i.repr
  | .loopVar => loopVar
  | add a b => a.text loopVar ++ " + " ++ b.text loopVar
  | sub a b => a.text loopVar ++ " - " ++ b.text loopVar
  | mul a b => a.text loopVar ++ " * " ++ b.text loopVar
  | paren a => "(" ++ a.text loopVar ++ ")"

def eval (N : ℕ) (w : Assignment) (i : ℕ) : CircomExpr → F
  | signal s j => w s (j.cell N i)
  | int i => (i : F)
  | .loopVar => (i : F)
  | add a b => a.eval N w i + b.eval N w i
  | sub a b => a.eval N w i - b.eval N w i
  | mul a b => a.eval N w i * b.eval N w i
  | paren a => a.eval N w i

end CircomExpr

/-! ## Statements -/

inductive CircomStmt where
  /-- `signal <== rhs;` -/
  | assign (signal : Signal) (subscript : Subscript) (rhs : CircomExpr)
  /-- `component[i] = template;` -/
  | instantiate (component : Component) (template : Template)
deriving DecidableEq, Repr

/-- The constraints of a template between the values at its ports. -/
def Template.Holds (port : Port → F) : Template → Prop
  | .activeIndexFlag16 => ActiveIndexFlag16 (port .activeCount) (port .index) (port .isActive)
  | .primitiveLessThan32 => PrimitiveLessThan32 (port .lhs) (port .rhs) (port .out)
  | .primitiveGreaterThan32 => PrimitiveGreaterThan32 (port .lhs) (port .rhs) (port .out)
  | .primitiveLessEqThan32 => PrimitiveLessEqThan32 (port .lhs) (port .rhs) (port .out)
  | .primitiveGreaterEqThan32 => PrimitiveGreaterEqThan32 (port .lhs) (port .rhs) (port .out)
  | .primitiveEqual => PrimitiveEqual (port .lhs) (port .rhs) (port .out)
  | .zeroPaddingInvariant => ZeroPaddingInvariant (port .value) (port .isActive) (port .valid)

namespace CircomStmt

def text (loopVar : String) : CircomStmt → String
  | assign s i rhs => s.text loopVar i ++ " <== " ++ rhs.text loopVar ++ ";"
  | instantiate c t => c.text ++ "[" ++ loopVar ++ "] = " ++ t.text ++ ";"

/-- The constraint of a statement at loop index `i`. -/
def Holds (N : ℕ) (w : Assignment) (i : ℕ) : CircomStmt → Prop
  | assign s j rhs => w s (j.cell N i) = rhs.eval N w i
  | instantiate c t => t.Holds fun p => w (.port c p) i

end CircomStmt

/-- An aggregate block: one statement, a loop over `0..N-1`, one statement. -/
structure CircomBlock where
  loopVar : String
  head : CircomStmt
  body : List CircomStmt
  tail : CircomStmt
deriving DecidableEq, Repr

namespace CircomBlock

def lines (b : CircomBlock) : List String :=
  ["    " ++ b.head.text b.loopVar,
    "    for (var " ++ b.loopVar ++ " = 0; " ++ b.loopVar ++ " < N; " ++ b.loopVar ++ "++) \x7b"] ++
  b.body.map (fun s => "        " ++ s.text b.loopVar) ++
  ["    \x7d", "    " ++ b.tail.text b.loopVar]

def text (b : CircomBlock) : String := String.intercalate "\n" b.lines

/-- The constraints of a block. -/
structure Holds (N : ℕ) (w : Assignment) (b : CircomBlock) : Prop where
  head : b.head.Holds N w 0
  body : ∀ i < N, ∀ s ∈ b.body, s.Holds N w i
  tail : b.tail.Holds N w 0

end CircomBlock

end Vellum
