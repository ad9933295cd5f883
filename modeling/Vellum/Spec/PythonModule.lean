import Vellum.Lib.PythonLexer
import Vellum.Spec.ReferencePolicy

/-!
# The generated module

What the text that `render_python_source` writes is to Python. The renderer copies strings
of the spec between quotes as they stand and writes absent bounds as JSON's `null`, so a
string can end its literal, spoil the module or denote another text, and a module can be
imported and still look a parameter up under another name. Strings that no method reads
only have to leave the module readable.

* `PolicyDSLSpec.contained`: no copied string breaks its literal.
* `PolicyDSLSpec.imports`: when the module can be imported.
* `loadDecision`, `loadPolicy`: its decision and its class.
* `PyBool.tokens`: the tokens that the renderer means to write for a decision.
-/

namespace Vellum

open PySource

/-! ## What a copied string denotes -/

/-- What the model leaves open of the interpreter: its table of character names, how deep the
brackets of an expression may nest, and what class it makes of a module in which a copied string
breaks out of its literal. -/
structure Interpreter where
  named : List Char → Option ℕ
  maxNesting : ℕ
  broken : PolicyDSLSpec → Option GeneratedReferencePolicy

/-- The text of code points; a lone surrogate, which an escape can denote, is in no text. -/
def textOf (codes : List ℕ) : Option String :=
  if codes.all fun n => decide n.isValidChar then some (String.ofList (codes.map Char.ofNat)) else none

namespace Interpreter

variable (I : Interpreter)

/-- The code points of a string copied between double quotes; none where a quote or a line end
breaks the literal off, or an escape is malformed. -/
def literal (s : String) : Option (List ℕ) :=
  let body := universalNewlines s.toList
  if shortOk body then decode I.named body else none

/-- The text a copied string denotes. -/
def denotes (s : String) : Option String := (I.literal s).bind textOf

/-- Whether a string that `json.dumps` wrote is a literal for itself. -/
def readsWritten (s : String) : Bool := decode I.named (Json.escape s.toList) = some (codes s.toList)

/-- Whether a text between triple quotes is a literal. -/
def docstring (body : List Char) : Bool :=
  let body := universalNewlines body
  longOk body && (decode I.named body).isSome

end Interpreter

/-! ## Importing the module -/

/-- The body of the module's docstring. -/
def moduleDoc (compilerVersion : String) : List Char :=
  "Generated by vellum-compiler ".toList ++ compilerVersion.toList ++ "; do not edit manually.".toList

/-- The body of the class docstring. -/
def classDoc (policyId : String) : List Char :=
  "Generated reference policy for `".toList ++ policyId.toList ++ "`.".toList

/-- How deep the brackets of a value nest. -/
def PyValue.nesting : PyValue → ℕ
  | .int _ => 0
  | .activeCount => 0
  | _ => 1

mutual

/-- How deep the brackets of an expression nest. -/
def PyBool.nesting : PyBool → ℕ
  | .compare _ l r => 1 + max l.nesting r.nesting
  | .and args => 1 + PyBool.nestingArgs args
  | .or args => 1 + PyBool.nestingArgs args
  | .not inner => 2 + inner.nesting
  | .aggregate _ inner _ => 2 + inner.nesting

def PyBool.nestingArgs : List PyBool → ℕ
  | [] => 0
  | e :: es => max e.nesting (PyBool.nestingArgs es)

end

/-- The decision expression that is rendered for a spec. -/
def PolicyDSLSpec.rendered (spec : PolicyDSLSpec) : Option PyBool :=
  match spec.decision with
  | .aggregate kind inner => (renderDecision kind inner).toOption
  | _ => none

/-- The strings that the renderer copies between double quotes. -/
def PolicyDSLSpec.copied (spec : PolicyDSLSpec) : List String :=
  [spec.referencePolicy, spec.policyId] ++ spec.outputs.keys ++ spec.decision.paramNames

/-- Whether every copied string stays within its literal: no quote closes it early, no line end
breaks it, no backslash runs on over its end. Else the text may be any Python. -/
def PolicyDSLSpec.contained (spec : PolicyDSLSpec) : Bool :=
  longOk (universalNewlines (moduleDoc spec.compilerVersion)) && longOk (universalNewlines (classDoc spec.policyId)) &&
  spec.copied.all fun s => shortOk (universalNewlines s.toList)

/-- Whether the generated module can be imported: its docstrings and its copied strings are
literals, no bound is `null`, a name Python does not know, and the decision does not nest too
deep. -/
def PolicyDSLSpec.imports (I : Interpreter) (spec : PolicyDSLSpec) : Bool :=
  I.docstring (moduleDoc spec.compilerVersion) && I.docstring (classDoc spec.policyId) &&
  spec.copied.all (fun s => (I.literal s).isSome) &&
  spec.policyParameters.items.all (fun p => p.2.minimum.isSome && p.2.maximum.isSome && p.2.default.isSome) &&
  spec.rendered.any (fun decision => decision.nesting ≤ I.maxNesting)

/-! ## What the imported module defines -/

def PyValue.rename (key : String → String) : PyValue → PyValue
  | .param name => .param (key name)
  | v => v

mutual

/-- An expression with its parameters under other names. -/
def PyBool.rename (key : String → String) : PyBool → PyBool
  | .compare op l r => .compare op (l.rename key) (r.rename key)
  | .and args => .and (PyBool.renameArgs key args)
  | .or args => .or (PyBool.renameArgs key args)
  | .not inner => .not (inner.rename key)
  | .aggregate kind inner k => .aggregate kind (inner.rename key) k

def PyBool.renameArgs (key : String → String) : List PyBool → List PyBool
  | [] => []
  | e :: es => e.rename key :: PyBool.renameArgs key es

end

/-- The name of no parameter: it is longer than all of them together. -/
def PolicyDSLSpec.noParameter (spec : PolicyDSLSpec) : String := String.join spec.policyParameters.keys ++ "?"

/-- The key under which the module looks a parameter up. A literal with a lone surrogate is the
name of no parameter. -/
def PolicyDSLSpec.key (I : Interpreter) (spec : PolicyDSLSpec) (name : String) : String :=
  (I.denotes name).getD spec.noParameter

/-- The decision that the module evaluates, each parameter under its key; none where the module
cannot be imported. -/
def loadDecision (I : Interpreter) (spec : PolicyDSLSpec) : Option PyBool :=
  if spec.contained then
    if spec.imports I then spec.rendered.map (·.rename (spec.key I)) else none
  else (I.broken spec).map GeneratedReferencePolicy.decision

/-- The class that the module defines; none also where a name of the two tables is not that of its
parameter: `json.dumps` escapes a character beyond the basic plane as a surrogate pair, which a
Python literal does not join. -/
def loadPolicy (I : Interpreter) (spec : PolicyDSLSpec) : Option GeneratedReferencePolicy :=
  if spec.contained then
    if spec.policyParameters.keys.all I.readsWritten then
      (loadDecision I spec).map fun decision => ⟨spec.batchSize, spec.policyParameters, decision⟩
    else none
  else I.broken spec

/-- The outputs that `project_public_outputs` returns, under the names their literals denote: of two
lines with one name the later counts. -/
def PolicyDSLSpec.projected (I : Interpreter) (spec : PolicyDSLSpec) : Dict OutputSpec :=
  Dict.empty.update (spec.outputs.items.filterMap fun o => (I.denotes o.1).map fun name => (name, o.2))

/-- Whether each parameter literal of the decision is the name of a parameter with the value of the
one that is meant. -/
def PolicyDSLSpec.ReadsParameters (I : Interpreter) (spec : PolicyDSLSpec) (params : String → ℤ) : Prop :=
  ∀ name ∈ spec.decision.paramNames,
    spec.key I name ∈ spec.policyParameters.keys ∧ params (spec.key I name) = params name

/-! ## Strings that denote themselves -/

/-- Where a backslash does not stand for itself in a Python string literal: the next character
makes an escape, a line break, or a NUL, which no source has. -/
def escapeStart (c : Char) : Bool :=
  c ∈ ['\\', '\'', '"', 'a', 'b', 'f', 'n', 'r', 't', 'v', 'x', 'N', 'u', 'U', '\n', '\r'] ||
    ('0' ≤ c && c ≤ '7') || c.toNat = 0

/-- What a double-quoted literal with body `s` denotes, where it denotes `s` itself. A quote
ends the literal early, a line break or a NUL ends the line or the file, and an escape is
replaced; these have no meaning here. -/
def literalBody : List Char → Option (List Char)
  | [] => some []
  | '\\' :: [] => none
  | '\\' :: c :: cs => if escapeStart c then none else (literalBody cs).map ('\\' :: c :: ·)
  | c :: cs => if c = '"' ∨ c = '\n' ∨ c = '\r' ∨ c.toNat = 0 then none else (literalBody cs).map (c :: ·)

def strLiteral (s : String) : Option String := (literalBody s.toList).map String.ofList

/-- A string of the spec that its double-quoted copy denotes. -/
def plainLiteral (s : String) : Bool := strLiteral s = some s

/-! ## Tokens -/

/-- A string of the spec, copied between the quotes. -/
def literal (s : String) : Token := .str s.toList (codes s.toList)

def word (s : String) : Token := .word s.toList

def mark (c : Char) : Token := .punct [c]

def intTokens (i : ℤ) : List Token :=
  if i < 0 then [mark '-', .word (Nat.toDigits 10 i.natAbs)] else [.word (Nat.toDigits 10 i.natAbs)]

/-! ## The decision -/

def PyValue.tokens : PyValue → List Token
  | .int i => intTokens i
  | .param name => [word "policy_params", mark '[', literal name, mark ']']
  | .balances k => [word "balances", mark '[', word (idxVar k), mark ']']
  | .limits k => [word "limits", mark '[', word (idxVar k), mark ']']
  | .activeCount => [word "active_count"]

/-- The parts of an `and` or an `or`, with the operator between them. -/
def joined (op : String) (parts : List (List Token)) : List Token :=
  [mark ' ', word op, mark ' '].intercalate parts

mutual

def PyBool.tokens : PyBool → List Token
  | .compare op l r =>
    [mark '('] ++ l.tokens ++ [mark ' ', .punct op.text.toList, mark ' '] ++ r.tokens ++ [mark ')']
  | .and args => [mark '('] ++ joined "and" (PyBool.tokensArgs args) ++ [mark ')']
  | .or args => [mark '('] ++ joined "or" (PyBool.tokensArgs args) ++ [mark ')']
  | .not inner => [mark '(', word "not", mark ' ', mark '('] ++ inner.tokens ++ [mark ')', mark ')']
  | .aggregate kind inner k =>
    [word kind.text, mark '(', mark '('] ++ inner.tokens ++
      [mark ')', mark ' ', word "for", mark ' ', word (idxVar k), mark ' ', word "in", mark ' ', word "range",
        mark '(', word "active_count", mark ')', mark ')']

def PyBool.tokensArgs : List PyBool → List (List Token)
  | [] => []
  | e :: es => e.tokens :: PyBool.tokensArgs es

end

end Vellum
