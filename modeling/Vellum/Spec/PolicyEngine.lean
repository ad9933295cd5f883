import Vellum.Spec.Service

/-!
# The policy engine

`PolicyEngine.run` of `vellum_core/api/policy_engine.py`. The parameter store and the
reference policies are parameters, and the uuid of the run is an argument; timings are left
out.
-/

namespace Vellum

/-- `EvidenceInlineV6` and `EvidenceRefV6`. -/
inductive Evidence where
  | inline (payload : Json)
  | ref (reference : String)

/-- `PolicyRunRequest`. -/
structure PolicyRunRequest where
  policyId : String
  policyParamsRef : Option String
  evidence : Evidence
  context : Json

/-- `PolicyRunResult`. -/
structure PolicyRunResult where
  runId : String
  policyId : String
  decision : PolicyDecision
  attestationId : String

/-- What the engine is built from. -/
structure PolicyEngine where
  policies : String → Option PolicyPackManifest
  referencePolicies : String → Option ReferencePolicy
  /-- `PolicyParameterStore.resolve`. -/
  resolveParameters : String → Option String → Except PyExn (List (String × ℤ))
  sha256 : String → String
  repr : Json → String

/-- A parameter map as a decoded value. -/
def parametersJson (parameters : List (String × ℤ)) : Json := .obj (parameters.map fun p => (p.1, .int p.2))

/-- `compute_policy_params_hash`. -/
def computePolicyParamsHash (sha256 : String → String) (parameters : List (String × ℤ)) : String :=
  sha256 (parametersJson parameters).canonical

/-- `payload[key] = value` on a copy of a decoded object. -/
def setField (payload : Json) (key : String) (value : Json) : Json :=
  match payload with
  | .obj fields =>
    if key ∈ fields.map Prod.fst then .obj (fields.map fun f => if f.1 = key then (key, value) else f)
    else .obj (fields ++ [(key, value)])
  | j => j

/-- The evidence with the resolved parameters, if there are any. -/
def effectivePayload (payload : Json) (parameters : List (String × ℤ)) : Json :=
  if parameters ≠ [] then setField payload "policy_parameters" (parametersJson parameters) else payload

namespace PolicyEngine

variable (E : PolicyEngine)

def getManifest (policyId : String) : Except PyExn PolicyPackManifest :=
  match E.policies policyId with
  | some manifest => .ok manifest
  | none => raiseFramework "unknown_policy" "Policy id not found" [("policy_id", .str policyId)]

/-- `_resolve_evidence`. -/
def resolveEvidence (runId : String) (request : PolicyRunRequest) : Service (Json × String) :=
  match request.evidence with
  | .inline payload => do
    -- inline evidence is stored first, under the id of the run
    let reference ← await (.putEvidence runId payload)
    return (payload, reference)
  | .ref reference => do
    let payload ← await (.getEvidence reference)
    return (payload, reference)

/-- The parameters and the reference track of a run. -/
def referenceRun (request : PolicyRunRequest) (manifest : PolicyPackManifest) (payload : Json) :
    Except PyExn (List (String × ℤ) × DualTrackReferenceResult) := do
  let parameters ← E.resolveParameters request.policyId request.policyParamsRef
  let reference ← prepareReferenceTrack E.referencePolicies manifest.referencePolicy manifest.differentialOutputs
    (effectivePayload payload parameters)
  return (parameters, reference)

/-- The circuit track of a run, checked against the reference track. -/
def circuitRun (request : PolicyRunRequest) (manifest : PolicyPackManifest) (reference : DualTrackReferenceResult)
    (publicSignals : List Json) (verified : Bool) : Except PyExn DualTrackCircuitResult := do
  let circuit ← evaluateCircuitTrack E.repr request.policyId manifest.expectedAttestation
    manifest.differentialOutputs publicSignals verified
  assertDualTrackConsistency request.policyId reference.decision reference.outputs circuit
  return circuit

/-- The attestation a run stores. -/
def attestation (request : PolicyRunRequest) (runId evidenceRef : String) (manifest : PolicyPackManifest)
    (parameters : List (String × ℤ)) (reference : DualTrackReferenceResult) (generated : ProofResult)
    (circuit : DualTrackCircuitResult) : AttestationInput where
  attestationId := "att-" ++ runId
  runId := runId
  policyId := request.policyId
  policyVersion := manifest.policyVersion
  circuitId := manifest.circuitId
  decision := circuit.decision
  proof := generated.proof
  publicSignals := generated.publicSignals
  metadata :=
    [("context", request.context), ("evidence_ref", .str evidenceRef),
      ("policy_params_ref", .ofOptStr request.policyParamsRef),
      ("policy_params_hash",
        if parameters ≠ [] then .str (computePolicyParamsHash E.sha256 parameters) else .null),
      ("dual_track", .obj [("reference_outputs", .obj reference.outputs),
        ("circuit_outputs", .obj circuit.outputs)])]

/-- A run from its evidence on. -/
def proveRun (request : PolicyRunRequest) (runId : String) (manifest : PolicyPackManifest) (payload : Json)
    (evidenceRef : String) : Service PolicyRunResult := do
  let (parameters, reference) ← check (E.referenceRun request manifest payload)
  let generated ← await (.generate manifest.circuitId reference.privateInput)
  let verified ← await (.verify manifest.circuitId generated.proof generated.publicSignals)
  -- a rejected proof is a decision here, not an error
  let circuit ← check (E.circuitRun request manifest reference generated.publicSignals verified)
  await (.createAttestation (E.attestation request runId evidenceRef manifest parameters reference generated circuit))
  return ⟨runId, request.policyId, circuit.decision, "att-" ++ runId⟩

/-- `PolicyEngine.run`. -/
def run (request : PolicyRunRequest) (runId : String) : Service PolicyRunResult := do
  let manifest ← check (E.getManifest request.policyId)
  let (payload, evidenceRef) ← resolveEvidence runId request
  E.proveRun request runId manifest payload evidenceRef

end PolicyEngine

end Vellum
