import Vellum.Spec.Batcher
import Vellum.Spec.PythonExpr

/-!
# The generated reference policy

The class `GeneratedReferencePolicy` that `render_python_source` writes, and
`vellum_core/policies/normalization.py`, which it calls.
-/

namespace Vellum

inductive PolicyDecision where
  | pass | fail
deriving DecidableEq, Repr

/-- What the class body binds: `batch_size`, `POLICY_PARAMETER_ORDER` with
`POLICY_PARAMETER_SPECS`, and the decision expression. -/
structure GeneratedReferencePolicy where
  batchSize : ℕ
  parameters : Dict PolicyParameterSpec
  decision : PyBool

/-- The committed `lending_risk_reference_v1`. -/
def lendingRiskReference : GeneratedReferencePolicy where
  batchSize := 250
  parameters := .empty
  decision := .aggregate .all (.compare .gt (.balances 0) (.limits 0)) 0

/-! ## Normalization -/

def invalidEvidence (message : String) (details : List (String × Json)) : FrameworkError :=
  frameworkError "invalid_evidence_payload" message details

/-- `require_integer`. -/
def requireInteger (field : String) (value : Json) (minimum maximum : Option ℤ) : Except FrameworkError ℤ :=
  match value with
  | .int i =>
    if minimum.any (i < ·) then
      .error (invalidEvidence "Field is below minimum"
        [("field", .str field), ("minimum", .int (minimum.getD 0)), ("value", .int i)])
    else if maximum.any (· < i) then
      .error (invalidEvidence "Field exceeds maximum"
        [("field", .str field), ("maximum", .int (maximum.getD 0)), ("value", .int i)])
    else .ok i
  | _ => .error (invalidEvidence "Field must be an integer" [("field", .str field)])

/-- The list comprehension of `require_integer_list`, from index `idx` on. -/
def requireIntegers (field : String) (minimum maximum : Option ℤ) (idx : ℕ) :
    List Json → Except FrameworkError (List ℤ)
  | [] => .ok []
  | v :: vs => do
    let i ← requireInteger (itemName field idx) v minimum maximum
    let is ← requireIntegers field minimum maximum (idx + 1) vs
    return i :: is

/-- `require_integer_list`. -/
def requireIntegerList (field : String) (value : Option Json) (minimum maximum : Option ℤ) :
    Except FrameworkError (List ℤ) :=
  match value with
  | some (.arr items) => requireIntegers field minimum maximum 0 items
  | _ => .error (invalidEvidence "Field must be an array" [("field", .str field)])

/-- One turn of the loop of `_resolve_policy_parameters`. -/
def resolveParameter (fields : List (String × Json)) (name : String) (spec : PolicyParameterSpec) :
    Except FrameworkError ℤ :=
  -- an explicit `null` does not fall back on the default
  match (fields.lookup name).getD (match spec.default with | some d => .int d | none => .null) with
  | .null => .error (invalidEvidence "policy_parameters missing required key" [("key", .str name)])
  | .int value =>
    if spec.minimum.any (value < ·) then
      .error (invalidEvidence "policy_parameters value below minimum"
        [("key", .str name), ("minimum", .int (spec.minimum.getD 0)), ("value", .int value)])
    else if spec.maximum.any (· < value) then
      .error (invalidEvidence "policy_parameters value above maximum"
        [("key", .str name), ("maximum", .int (spec.maximum.getD 0)), ("value", .int value)])
    else .ok value
  | value => .error (invalidEvidence "policy_parameters values must be integers"
      [("key", .str name), ("value", value)])

/-- The loop of `_resolve_policy_parameters`: `resolved` as its items, in order. -/
def resolveParameters (fields : List (String × Json)) :
    List (String × PolicyParameterSpec) → Except FrameworkError (List (String × ℤ))
  | [] => .ok []
  | p :: ps => do
    let value ← resolveParameter fields p.1 p.2
    let resolved ← resolveParameters fields ps
    return (p.1, value) :: resolved

/-- `_resolve_policy_parameters` on an object. -/
def resolveFields (parameters : Dict PolicyParameterSpec) (fields : List (String × Json)) :
    Except FrameworkError (List (String × ℤ)) :=
  let unknown := ((fields.map Prod.fst).filter (· ∉ parameters.keys)).dedup.mergeSort (· ≤ ·)
  if unknown ≠ [] then
    .error (invalidEvidence "policy_parameters contains unknown keys"
      [("unknown", .arr (unknown.map .str))])
  else resolveParameters fields parameters.items

/-- `_resolve_policy_parameters`. -/
def resolvePolicyParameters (parameters : Dict PolicyParameterSpec) (payload : Option Json) :
    Except FrameworkError (List (String × ℤ)) :=
  -- a policy without parameters does not look at the payload
  if parameters.items = [] then .ok []
  else match payload with
    | none => resolveFields parameters []
    | some .null => resolveFields parameters []
    | some (.obj fields) => resolveFields parameters fields
    | some _ => .error (invalidEvidence "policy_parameters must be an object" [])

/-- The normalized evidence. -/
structure NormalizedEvidence where
  balances : List ℤ
  limits : List ℤ
  activeCount : PyInt
  policyParameters : List (String × ℤ)
deriving DecidableEq, Repr

/-- A `ValueError` of the batcher becomes an `invalid_evidence_payload`. -/
def batchResult (prepared : Except String PreparedBatchInput) (policyParams : List (String × ℤ)) :
    Except FrameworkError NormalizedEvidence :=
  match prepared with
  | .ok p => .ok ⟨p.balances, p.limits, p.activeCount, policyParams⟩
  | .error reason => .error (invalidEvidence "Evidence payload failed batch validation" [("reason", .str reason)])

/-- The names `evaluate_reference` binds, before any index variable is bound. -/
def NormalizedEvidence.env (n : NormalizedEvidence) : PyEnv where
  activeCount := n.activeCount.toInt
  balances := n.balances
  limits := n.limits
  policyParams := n.policyParameters
  idx := fun _ => none

namespace GeneratedReferencePolicy

/-- `normalize`. -/
def normalize (policy : GeneratedReferencePolicy) (evidence : Json) :
    Except FrameworkError NormalizedEvidence := do
  let policyParams ← resolvePolicyParameters policy.parameters (evidence.get? "policy_parameters")
  match evidence.get? "private_input" with
  -- padded to 250 whatever the batch size of the policy
  | some (.obj fields) => batchResult (batchPrepareFromPrivateInput (.obj fields)) policyParams
  | _ =>
    let balances ← requireIntegerList "balances" (evidence.get? "balances") (some 0) (some maxUint32)
    let limits ← requireIntegerList "limits" (evidence.get? "limits") (some 0) (some maxUint32)
    batchResult (batchPrepareInput (balances.map .int) (limits.map .int) policy.batchSize) policyParams

/-- `evaluate_reference`; none is an exception. -/
def evaluateReference (policy : GeneratedReferencePolicy) (n : NormalizedEvidence) : Option PolicyDecision :=
  (policy.decision.eval n.env).map fun decision => if decision then .pass else .fail

end GeneratedReferencePolicy

/-- Evidence in `balances`/`limits` form. -/
def evidenceOf (balances limits : List ℤ) (policyParameters : List (String × ℤ)) : Json :=
  .obj [("balances", .arr (balances.map .int)), ("limits", .arr (limits.map .int)),
    ("policy_parameters", .obj (policyParameters.map fun p => (p.1, .int p.2)))]

end Vellum
