import Vellum.Spec.Errors
import Vellum.Spec.ReferencePolicy

/-!
# Dual-track execution

`vellum_core/policies/dual_track.py`: the outputs of the reference track, the projection of
the circuit's public signals, and the check that the two agree. A reference policy is any
object with the methods of the protocol in `policies/base.py`.
-/

namespace Vellum

/-- `ReferencePolicy`, the protocol every reference track implements. -/
structure ReferencePolicy where
  validate : Json → Except PyExn Unit
  normalize : Json → Except PyExn Json
  evaluateReference : Json → Except PyExn PolicyDecision
  projectPublicOutputs : Json → Except PyExn (List (String × Json))
  toPrivateInput : Json → Except PyExn Json

def PolicyDecision.text : PolicyDecision → String
  | .pass => "pass"
  | .fail => "fail"

/-- `DifferentialOutputSpec`. -/
structure DifferentialOutputSpec where
  signalIndex : ℕ
  valueType : ValueType
deriving DecidableEq, Repr

/-- `PolicyPackManifest`, the fields a run reads. -/
structure PolicyPackManifest where
  policyId : String
  policyVersion : String
  circuitId : String
  referencePolicy : String
  differentialOutputs : Dict DifferentialOutputSpec
  expectedAttestation : Dict Json

/-- `DualTrackReferenceResult`. -/
structure DualTrackReferenceResult where
  privateInput : Json
  decision : PolicyDecision
  outputs : List (String × Json)

/-- `DualTrackCircuitResult`. -/
structure DualTrackCircuitResult where
  decision : PolicyDecision
  outputs : List (String × Json)

/-! ## The reference track -/

/-- `_normalize_reference_value`; the three checks differ in the type they ask for. -/
def normalizeReferenceValue (outputName : String) (value : Json) (valueType : ValueType) : Except PyExn Json :=
  match valueType, value with
  | .int, .int i => .ok (.int i)
  | .bool, .bool b => .ok (.bool b)
  | .string, .str s => .ok (.str s)
  | t, v => raiseFramework "policy_manifest_invalid" ("Reference output type mismatch, expected " ++ t.text)
      [("output_name", .str outputName), ("value_type", .str t.text), ("reference_value", v)]

/-- One turn of the loop over `differential_outputs`. -/
def referenceOutput (referencePolicy : String) (projected : List (String × Json))
    (output : String × DifferentialOutputSpec) : Except PyExn (String × Json) :=
  match projected.lookup output.1 with
  | none => raiseFramework "policy_manifest_invalid" "Differential output missing in reference policy projection"
      [("reference_policy", .str referencePolicy), ("output_name", .str output.1)]
  | some value => do
    let normalized ← normalizeReferenceValue output.1 value output.2.valueType
    return (output.1, normalized)

/-- `prepare_reference_track`; `policies` is the registry of reference policies. -/
def prepareReferenceTrack (policies : String → Option ReferencePolicy) (referencePolicy : String)
    (differentialOutputs : Dict DifferentialOutputSpec) (evidencePayload : Json) :
    Except PyExn DualTrackReferenceResult :=
  match policies referencePolicy with
  | none => raiseFramework "reference_policy_missing" "No Python reference policy implementation found"
      [("reference_policy", .str referencePolicy)]
  | some policy => do
    policy.validate evidencePayload
    let normalized ← policy.normalize evidencePayload
    let decision ← policy.evaluateReference normalized
    let projected ← policy.projectPublicOutputs normalized
    -- only the declared outputs are kept, each of its declared type
    let outputs ← differentialOutputs.items.mapM (referenceOutput referencePolicy projected)
    let privateInput ← policy.toPrivateInput normalized
    return ⟨privateInput, decision, outputs⟩

/-! ## The circuit track -/

/-- `_signal_at`. -/
def signalAt (policyId outputName : String) (signalIndex : ℤ) (publicSignals : List Json) : Except PyExn Json :=
  match (if 0 ≤ signalIndex then publicSignals[signalIndex.toNat]? else none) with
  | some signal => .ok signal
  | none => raiseFramework "dual_track_mismatch" "Circuit output signal index out of range"
      [("policy_id", .str policyId), ("output_name", .str outputName), ("signal_index", .int signalIndex),
        ("available_signals", .int publicSignals.length)]

/-- The error of a signal that does not have the declared type. -/
def signalMismatch (message outputName : String) (valueType : ValueType) (signalValue : Json) : Except PyExn Json :=
  raiseFramework "dual_track_mismatch" message
    [("output_name", .str outputName), ("value_type", .str valueType.text), ("signal_value", signalValue)]

/-- `_normalize_signal_value`. -/
def normalizeSignalValue (repr : Json → String) (outputName : String) (signalValue : Json) :
    ValueType → Except PyExn Json
  | .int =>
    match signalValue with
    -- `True` would pass `int()`, so it is refused first
    | .bool _ => signalMismatch "Signal type mismatch, expected int" outputName .int signalValue
    | _ => match pyInt? (signalValue.pyStr repr) with
      | some i => .ok (.int i)
      | none => signalMismatch "Signal value cannot be parsed as int" outputName .int signalValue
  | .bool =>
    let normalized := strip (signalValue.pyStr repr)
    if normalized ∈ ["1", "true", "True"] then .ok (.bool true)
    else if normalized ∈ ["0", "false", "False"] then .ok (.bool false)
    else signalMismatch "Signal value cannot be parsed as bool" outputName .bool signalValue
  | .string => .ok (.str (signalValue.pyStr repr))

/-- One turn of the loop over `differential_outputs`. -/
def circuitOutput (repr : Json → String) (policyId : String) (publicSignals : List Json)
    (output : String × DifferentialOutputSpec) : Except PyExn (String × Json) := do
  let rawValue ← signalAt policyId output.1 output.2.signalIndex publicSignals
  let value ← normalizeSignalValue repr output.1 rawValue output.2.valueType
  return (output.1, value)

/-- The declared outputs, read from the public signals. -/
def circuitOutputs (repr : Json → String) (policyId : String) (differentialOutputs : Dict DifferentialOutputSpec)
    (publicSignals : List Json) : Except PyExn (List (String × Json)) :=
  differentialOutputs.items.mapM (circuitOutput repr policyId publicSignals)

/-- The decision of the circuit: an unverified proof fails. -/
def circuitDecision (repr : Json → String) (policyId : String) (expectedAttestation : Dict Json)
    (publicSignals : List Json) (verified : Bool) : Except PyExn PolicyDecision :=
  -- the signals of a rejected proof are not looked at
  if ¬ verified then .ok .fail
  else do
    let signalIndex ← pyIntOf repr ((expectedAttestation.get? "decision_signal_index").getD (.int 0))
    let passSignalValue := ((expectedAttestation.get? "pass_signal_value").getD (.str "1")).pyStr repr
    let decisionSignal ← signalAt policyId "decision" signalIndex publicSignals
    return if decisionSignal.pyStr repr = passSignalValue then .pass else .fail

/-- `evaluate_circuit_track`. -/
def evaluateCircuitTrack (repr : Json → String) (policyId : String) (expectedAttestation : Dict Json)
    (differentialOutputs : Dict DifferentialOutputSpec) (publicSignals : List Json) (verified : Bool) :
    Except PyExn DualTrackCircuitResult := do
  let decision ← circuitDecision repr policyId expectedAttestation publicSignals verified
  let outputs ← circuitOutputs repr policyId differentialOutputs publicSignals
  return ⟨decision, outputs⟩

/-- `assert_dual_track_consistency`, on the reference's decision and outputs. -/
def assertDualTrackConsistency (policyId : String) (decision : PolicyDecision) (outputs : List (String × Json))
    (circuit : DualTrackCircuitResult) : Except PyExn Unit :=
  -- the outputs are compared as Python compares dictionaries
  if decision ≠ circuit.decision ∨ ¬ Json.pyEq (.obj outputs) (.obj circuit.outputs) then
    raiseFramework "dual_track_mismatch" "Reference-track and circuit-track results diverged"
      [("policy_id", .str policyId), ("reference_decision", .str decision.text),
        ("circuit_decision", .str circuit.decision.text), ("reference_outputs", .obj outputs),
        ("circuit_outputs", .obj circuit.outputs)]
  else .ok ()

end Vellum
