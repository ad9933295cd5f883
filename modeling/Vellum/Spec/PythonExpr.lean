import Vellum.Spec.Dsl

/-!
# The Python decision expression

`render_python_boolean_expr` and `render_python_value` of `python_renderer.py`. They
return text; here they return the syntax tree of that text, with `text` writing it
out and `eval` giving it Python's meaning (`none` is an exception). A parameter name
is copied between double quotes as it stands; what such a literal denotes, and so under
which key the parameter is looked up, is settled where the module is imported.
-/

namespace Vellum

/-! ## Syntax -/

/-- A value in the rendered expression; index variables are numbered, `idx_k` is `k`. -/
inductive PyValue where
  | int (i : ℤ)
  | param (name : String)
  | balances (idx : ℕ)
  | limits (idx : ℕ)
  | activeCount
deriving DecidableEq, Repr

inductive PyBool where
  | compare (op : ComparisonOp) (left right : PyValue)
  | and (args : List PyBool)
  | or (args : List PyBool)
  | not (inner : PyBool)
  | aggregate (kind : AggregateKind) (inner : PyBool) (idx : ℕ)

def idxVar (k : ℕ) : String := "idx_" ++ k.repr

def PyValue.text : PyValue → String
  | .int i => i.repr
  | .param name => "policy_params[\"" ++ name ++ "\"]"
  | .balances k => "balances[" ++ idxVar k ++ "]"
  | .limits k => "limits[" ++ idxVar k ++ "]"
  | .activeCount => "active_count"

namespace PyBool

mutual

def text : PyBool → String
  | compare op l r => "(" ++ l.text ++ " " ++ op.text ++ " " ++ r.text ++ ")"
  | and args => "(" ++ String.intercalate " and " (textArgs args) ++ ")"
  | or args => "(" ++ String.intercalate " or " (textArgs args) ++ ")"
  | not inner => "(not (" ++ inner.text ++ "))"
  | aggregate kind inner k =>
    kind.text ++ "((" ++ inner.text ++ ") for " ++ idxVar k ++ " in range(active_count))"

def textArgs : List PyBool → List String
  | [] => []
  | e :: es => e.text :: textArgs es

end

end PyBool

/-! ## Rendering -/

/-- `render_python_value`. -/
def renderPythonValue (idx : ℕ) : ValueRef → Except FrameworkError PyValue
  | .constInt i => .ok (.int i)
  | .param p => .ok (.param p)
  | .ref s =>
    if s = "balances" then .ok (.balances idx)
    else if s = "limits" then .ok (.limits idx)
    else if s = "active_count" then .ok .activeCount
    else if "policy_params.".toList.isPrefixOf s.toList then
      .ok (.param (String.ofList (s.toList.drop "policy_params.".length)))
    else .error (unsupported "Unsupported value reference in Python renderer" [("ref", .str s)])

mutual

/-- `render_python_boolean_expr`: the expression, the index variable in scope, and the
counter of index variables, which is threaded through. -/
def renderPythonBooleanExpr (idx counter : ℕ) : DecisionExpr → Except FrameworkError (PyBool × ℕ)
  | .comparison c => do
    let left ← renderPythonValue idx c.left
    let right ← renderPythonValue idx c.right
    return (.compare c.op left right, counter)
  | .and args => do
    let (parts, counter) ← renderPythonArgs idx counter args
    return (.and parts, counter)
  | .or args => do
    let (parts, counter) ← renderPythonArgs idx counter args
    return (.or parts, counter)
  | .not inner => do
    let (part, counter) ← renderPythonBooleanExpr idx counter inner
    return (.not part, counter)
  -- the new index variable is in scope in the inner expression only
  | .aggregate kind inner => do
    let (part, counter') ← renderPythonBooleanExpr counter (counter + 1) inner
    return (.aggregate kind part counter, counter')

def renderPythonArgs (idx counter : ℕ) : List DecisionExpr → Except FrameworkError (List PyBool × ℕ)
  | [] => return ([], counter)
  | e :: es => do
    let (part, counter) ← renderPythonBooleanExpr idx counter e
    let (parts, counter) ← renderPythonArgs idx counter es
    return (part :: parts, counter)

end

/-- The decision expression of the generated module, `idx_0` bound by the root. -/
def renderDecision (kind : AggregateKind) (inner : DecisionExpr) : Except FrameworkError PyBool := do
  let (part, _) ← renderPythonBooleanExpr 0 1 inner
  return .aggregate kind part 0

/-! ## Meaning -/

/-- The names an evaluation of the decision reads. -/
structure PyEnv where
  activeCount : ℤ
  balances : List ℤ
  limits : List ℤ
  policyParams : List (String × ℤ)
  idx : ℕ → Option ℕ

/-- Bind an index variable, as a generator expression does. -/
def PyEnv.bind (env : PyEnv) (k i : ℕ) : PyEnv :=
  { env with idx := fun j => if j = k then some i else env.idx j }

/-- A value, or an exception (`NameError`, `IndexError`, `KeyError`). -/
def PyValue.eval (env : PyEnv) : PyValue → Option ℤ
  | .int i => some i
  | .param name => env.policyParams.lookup name
  | .balances k => (env.idx k).bind fun i => env.balances[i]?
  | .limits k => (env.idx k).bind fun i => env.limits[i]?
  | .activeCount => some env.activeCount

namespace PyBool

mutual

/-- Python's evaluation: `and`, `or`, `all` and `any` stop at the first operand that decides. -/
def eval (env : PyEnv) : PyBool → Option Bool
  | compare op l r => do
    let a ← l.eval env
    let b ← r.eval env
    return op.holds a b
  | and args => evalAnd env args
  | or args => evalOr env args
  | not inner => (inner.eval env).map (!·)
  | aggregate .all inner k => (List.range env.activeCount.toNat).allM fun i => inner.eval (env.bind k i)
  | aggregate .any inner k => (List.range env.activeCount.toNat).anyM fun i => inner.eval (env.bind k i)

def evalAnd (env : PyEnv) : List PyBool → Option Bool
  | [] => some true
  | e :: es => do if ← e.eval env then evalAnd env es else return false

def evalOr (env : PyEnv) : List PyBool → Option Bool
  | [] => some false
  | e :: es => do if ← e.eval env then return true else evalOr env es

end

end PyBool

end Vellum
