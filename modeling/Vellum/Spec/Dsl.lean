import Vellum.Lib.Dict
import Vellum.Lib.Json

/-!
# The policy DSL and its validation

`vellum_core/policy_compiler/models.py` and `validation.py`. The pydantic models
accept only values of the shape their validators demand, so the types here carry
those demands: a value node is exactly one of `ref`, `param` and `const_int`, an
output names one of the three supported expressions, and a `PolicyDSLSpec` holds
the proof that its decision tree and names are well formed.
-/

namespace Vellum

/-- `FrameworkError`: code, message and details. -/
structure FrameworkError where
  code : String
  message : String
  details : List (String × Json)

/-- `framework_error(code, message, **details)`. -/
def frameworkError (code message : String) (details : List (String × Json)) : FrameworkError :=
  ⟨code, message, details⟩

inductive ComparisonOp where
  | lt | gt | le | ge | eq
deriving DecidableEq, Repr

def ComparisonOp.text : ComparisonOp → String
  | .lt => "<"
  | .gt => ">"
  | .le => "<="
  | .ge => ">="
  | .eq => "=="

/-- What a comparison says of two integers. -/
def ComparisonOp.holds : ComparisonOp → ℤ → ℤ → Bool
  | .lt, a, b => a < b
  | .gt, a, b => b < a
  | .le, a, b => a ≤ b
  | .ge, a, b => b ≤ a
  | .eq, a, b => a = b

/-- A value node: exactly one of `ref`, `param`, `const_int`. -/
inductive ValueRef where
  | ref (ref : String)
  | param (param : String)
  | constInt (constInt : ℤ)
deriving DecidableEq, Repr

structure ComparisonExpr where
  op : ComparisonOp
  left : ValueRef
  right : ValueRef
deriving DecidableEq, Repr

/-- The two quantifiers over active rows. -/
inductive AggregateKind where
  | all | any
deriving DecidableEq, Repr

def AggregateKind.text : AggregateKind → String
  | .all => "all"
  | .any => "any"

/-- `DecisionExpr`; `kind in {"all", "any"}` is one constructor. -/
inductive DecisionExpr where
  | comparison (comparison : ComparisonExpr)
  | and (args : List DecisionExpr)
  | or (args : List DecisionExpr)
  | not (inner : DecisionExpr)
  | aggregate (kind : AggregateKind) (inner : DecisionExpr)

/-- The strings of a value node have at least one character. -/
def ValueRef.wellFormed : ValueRef → Bool
  | .ref s => s ≠ ""
  | .param s => s ≠ ""
  | .constInt _ => true

/-- The parameter a value node names, in a `param` node or as `policy_params.*`. -/
def ValueRef.paramNames : ValueRef → List String
  | .param p => [p]
  | .ref s =>
    if "policy_params.".toList.isPrefixOf s.toList then
      [String.ofList (s.toList.drop "policy_params.".length)] else []
  | .constInt _ => []

namespace DecisionExpr

/-- **Induction on a decision expression**, with the hypothesis for every argument. -/
@[elab_as_elim, induction_eliminator]
theorem ind {motive : DecisionExpr → Prop} (comparison : ∀ c, motive (comparison c))
    (and : ∀ args, (∀ e ∈ args, motive e) → motive (and args))
    (or : ∀ args, (∀ e ∈ args, motive e) → motive (or args))
    (not : ∀ inner, motive inner → motive (not inner))
    (aggregate : ∀ kind inner, motive inner → motive (aggregate kind inner)) (e : DecisionExpr) :
    motive e :=
  @DecisionExpr.rec motive (fun l => ∀ e ∈ l, motive e) comparison and or not
    aggregate (by simp) (fun _ _ h hs => List.forall_mem_cons.2 ⟨h, hs⟩) e

mutual

/-- `DecisionExpr.validate_shape` at every node: `and`/`or` have at least two arguments. -/
def wellFormed : DecisionExpr → Bool
  | comparison c => c.left.wellFormed && c.right.wellFormed
  | and args => 2 ≤ args.length && wellFormedArgs args
  | or args => 2 ≤ args.length && wellFormedArgs args
  | not inner => inner.wellFormed
  | aggregate _ inner => inner.wellFormed

def wellFormedArgs : List DecisionExpr → Bool
  | [] => true
  | e :: es => e.wellFormed && wellFormedArgs es

end

mutual

/-- The value nodes of an expression, from left to right. -/
def values : DecisionExpr → List ValueRef
  | comparison c => [c.left, c.right]
  | and args => valuesArgs args
  | or args => valuesArgs args
  | not inner => inner.values
  | aggregate _ inner => inner.values

def valuesArgs : List DecisionExpr → List ValueRef
  | [] => []
  | e :: es => e.values ++ valuesArgs es

end

mutual

/-- The comparisons of an expression, from left to right. -/
def comparisons : DecisionExpr → List ComparisonExpr
  | comparison c => [c]
  | and args => comparisonsArgs args
  | or args => comparisonsArgs args
  | not inner => inner.comparisons
  | aggregate _ inner => inner.comparisons

def comparisonsArgs : List DecisionExpr → List ComparisonExpr
  | [] => []
  | e :: es => e.comparisons ++ comparisonsArgs es

end

/-- The parameter names an expression mentions. -/
def paramNames (e : DecisionExpr) : List String := e.values.flatMap ValueRef.paramNames

theorem valuesArgs_eq (l : List DecisionExpr) : valuesArgs l = l.flatMap values := by
  induction l with
  | nil => rfl
  | cons e es ih => simp [valuesArgs, ih]

end DecisionExpr

/-- `PolicyParameterSpec` with `validate_bounds`. -/
structure PolicyParameterSpec where
  minimum : Option ℤ
  maximum : Option ℤ
  default : Option ℤ
  bounds : ∀ a ∈ minimum, ∀ b ∈ maximum, a ≤ b
  defaultMin : ∀ d ∈ default, ∀ a ∈ minimum, a ≤ d
  defaultMax : ∀ d ∈ default, ∀ b ∈ maximum, d ≤ b

/-- The output expressions `validate_references` admits. -/
inductive OutputExpr where
  | decision | activeCount | policyParamsHash
deriving DecidableEq, Repr

def OutputExpr.text : OutputExpr → String
  | .decision => "decision"
  | .activeCount => "active_count"
  | .policyParamsHash => "policy_params_hash"

inductive ValueType where
  | int | bool | string
deriving DecidableEq, Repr

def ValueType.text : ValueType → String
  | .int => "int"
  | .bool => "bool"
  | .string => "string"

structure OutputSpec where
  expr : OutputExpr
  valueType : ValueType
  signalIndex : ℕ
deriving DecidableEq, Repr

/-- `InputSpec`: the only kind is `uint32_array`. -/
structure InputSpec where
deriving DecidableEq, Repr

/-- `PolicyDSLSpec` after validation, `generated_debug_trace_path` filled in. -/
structure PolicyDSLSpec where
  policyId : String
  policyVersion : String
  referencePolicy : String
  specVersion : String
  compilerVersion : String
  description : Option String
  batchSize : ℕ
  inputs : Dict InputSpec
  policyParameters : Dict PolicyParameterSpec
  decision : DecisionExpr
  outputs : Dict OutputSpec
  primitives : List String
  expectedAttestation : Dict (String ⊕ ℤ)
  generatedPythonPath : String
  generatedCircomPath : String
  generatedDebugTracePath : String
  circuitId : String
  nonempty : ∀ s ∈ [policyId, policyVersion, referencePolicy, specVersion, compilerVersion,
    generatedPythonPath, generatedCircomPath, generatedDebugTracePath, circuitId], s ≠ ""
  batchPos : 1 ≤ batchSize
  inputsPos : inputs.items ≠ []
  outputsPos : outputs.items ≠ []
  primitivesPos : primitives ≠ []
  decisionWf : decision.wellFormed = true

/-! ## `validation.py` -/

def unsupported (message : String) (details : List (String × Json)) : FrameworkError :=
  frameworkError "policy_spec_unsupported" message details

/-- `validate_value`. The reference is stripped before it is compared. -/
def validateValue (policyId : String) (indexedContext : Bool) (parameterNames : List String) :
    ValueRef → Except FrameworkError Unit
  | .constInt i =>
    if i < 0 then
      .error (unsupported "Negative constants are not supported in compiler v1" [("policy_id", .str policyId)])
    else .ok ()
  | .param p =>
    if p ∈ parameterNames then .ok ()
    else .error (unsupported "Unknown policy parameter reference in compiler v1"
      [("policy_id", .str policyId), ("param", .str p)])
  | .ref s =>
    let ref := strip s
    if ref = "balances" ∨ ref = "limits" then
      if indexedContext then .ok ()
      else .error (unsupported "Array references require indexed context (inside all/any aggregation)"
        [("policy_id", .str policyId), ("ref", .str ref)])
    else if ref = "active_count" then .ok ()
    else .error (unsupported "Unsupported value reference in compiler v1"
      [("policy_id", .str policyId), ("ref", .str ref)])

mutual

/-- `validate_boolean_expr`. -/
def validateBooleanExpr (policyId : String) (indexedContext : Bool) (parameterNames : List String) :
    DecisionExpr → Except FrameworkError Unit
  | .comparison c => do
    validateValue policyId indexedContext parameterNames c.left
    validateValue policyId indexedContext parameterNames c.right
  | .and args => validateArgs policyId indexedContext parameterNames args
  | .or args => validateArgs policyId indexedContext parameterNames args
  | .not inner => validateBooleanExpr policyId indexedContext parameterNames inner
  | .aggregate _ inner => validateBooleanExpr policyId true parameterNames inner

def validateArgs (policyId : String) (indexedContext : Bool) (parameterNames : List String) :
    List DecisionExpr → Except FrameworkError Unit
  | [] => .ok ()
  | e :: es => do
    validateBooleanExpr policyId indexedContext parameterNames e
    validateArgs policyId indexedContext parameterNames es

end

/-- `ensure_supported_decision`: the root is `all` or `any`; its kind and inner expression. -/
def ensureSupportedDecision (spec : PolicyDSLSpec) :
    Except FrameworkError (AggregateKind × DecisionExpr) :=
  match spec.decision with
  | .aggregate kind inner => do
    validateBooleanExpr spec.policyId true spec.policyParameters.keys inner
    return (kind, inner)
  | _ => .error (unsupported "Compiler currently supports `all`/`any` as top-level decision"
      [("policy_id", .str spec.policyId)])

end Vellum
