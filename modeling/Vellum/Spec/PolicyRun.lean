import Vellum.Spec.PolicyEngine
import Vellum.Spec.Prover

/-!
# Policy runs of the service

`create_policy_run` of `prover_service.py`: the second copy of the pipeline of the policy
engine, up to the sealed payload that the worker takes over. The engine's registries,
parameter store and hash are the service's too. A fresh uuid and what Vault makes of the
payload are arguments; the request is authenticated and validated already.
-/

namespace Vellum

/-- `RunCreateRequestV6`, with the subject and the key its authentication has found. -/
structure RunCreateRequest extends PolicyRunRequest where
  clientRequestId : Option String
  sub : Json
  bankKeyId : String
  /-- `Field(min_length=1)`. -/
  policyId_ne : policyId ≠ ""

/-- `payload.model_dump()`. -/
def RunCreateRequest.payload (request : RunCreateRequest) : Json :=
  .obj [("policy_id", .str request.policyId),
    ("evidence", match request.evidence with
      | .inline payload => .obj [("type", .str "inline"), ("payload", payload)]
      | .ref reference => .obj [("type", .str "ref"), ("ref", .str reference)]),
    ("policy_params_ref", .ofOptStr request.policyParamsRef), ("context", request.context),
    ("client_request_id", .ofOptStr request.clientRequestId)]

/-- What the service is built from. -/
structure RunService extends PolicyEngine where
  /-- The `input_schema` of a circuit's manifest. -/
  circuits : String → Option Json
  /-- `validate_private_input_schema`; a failure is the message of its `ValueError`. -/
  validateSchema : Json → Json → Except String Unit

/-- `except FrameworkError` of the route. -/
def unprocessable : PyExn → PyExn
  | .framework e => .api ⟨422, e.code, e.message, e.details⟩
  | e => e

namespace RunService

variable (R : RunService)

/-- `_load_policy_manifest`; a manifest that is in the registry is valid. -/
def loadPolicyManifest (policyId : String) : Except PyExn PolicyPackManifest :=
  match R.policies policyId with
  | some manifest => .ok manifest
  | none => .error (.api ⟨404, "unknown_policy", "Policy id not found", [("policy_id", .str policyId)]⟩)

/-- `_resolve_policy_evidence`. -/
def resolvePolicyEvidence (runId : String) (request : RunCreateRequest) : Service (Json × String) :=
  match request.evidence with
  | .inline payload => do
    let reference ← await (.putEvidence runId payload)
    return (payload, reference)
  | .ref reference => do
    let payload ← exceptException (await (.getEvidence reference)) fun exc => throw (.api ⟨422, "invalid_evidence_ref",
      "Unable to resolve evidence_ref", [("evidence_ref", .str reference), ("reason", .str (exc.str R.repr))]⟩)
    return (payload, reference)

/-- `_policy_run_metadata`. -/
def policyRunMetadata (request : RunCreateRequest) (policyVersion attestationId evidenceRef : String)
    (policyParamsHash : Option String) : Dict Json :=
  ⟨[("mode", .str "policy_run"), ("api_version", .str "v6"), ("client_request_id", .ofOptStr request.clientRequestId),
    ("auth_subject", request.sub), ("bank_key_id", .str request.bankKeyId), ("policy_id", .str request.policyId),
    ("policy_version", .str policyVersion), ("attestation_id", .str attestationId), ("evidence_ref", .str evidenceRef),
    ("policy_params_ref", .ofOptStr request.policyParamsRef), ("policy_params_hash", .ofOptStr policyParamsHash),
    ("decision", .null), ("context", request.context)], by simp⟩

/-- `_validate_private_input_schema_or_raise`. -/
def validatePrivateInputSchema (circuitId : String) (privateInput : Json) : Except PyExn Unit :=
  match R.circuits circuitId with
  | none => .error (.api ⟨404, "unknown_circuit", "Circuit id not found", [("circuit_id", .str circuitId)]⟩)
  | some inputSchema => (R.validateSchema inputSchema privateInput).mapError fun reason =>
      .api ⟨422, "invalid_private_input_schema", "private_input does not satisfy circuit input_schema",
        [("circuit_id", .str circuitId), ("reason", .str reason)]⟩

/-- The plaintext of `seal_job_payload`. -/
def sealedFields (request : RunCreateRequest) (parameters : List (String × ℤ))
    (reference : DualTrackReferenceResult) : Json :=
  .obj [("request_payload", request.payload), ("private_input", reference.privateInput),
    ("dual_track_reference", .obj [("decision", .str reference.decision.text), ("outputs", .obj reference.outputs)]),
    -- `policy_parameters or None`
    ("policy_parameters", if parameters ≠ [] then parametersJson parameters else .null)]

/-- A run ready to be stored. -/
structure Draft where
  circuitId : String
  metadata : Dict Json
  plaintext : Json

/-- `create_policy_run` from the evidence to the plaintext. -/
def draft (request : RunCreateRequest) (runId : String) (manifest : PolicyPackManifest) (payload : Json)
    (evidenceRef : String) : Except PyExn Draft := do
  let parameters ← (R.resolveParameters request.policyId request.policyParamsRef).mapError unprocessable
  -- only the parameters of the reference are hashed; the policy may use others
  let policyParamsHash := if parameters ≠ [] then some (computePolicyParamsHash R.sha256 parameters) else none
  let reference ← (prepareReferenceTrack R.referencePolicies manifest.referencePolicy manifest.differentialOutputs
    (effectivePayload payload parameters)).mapError unprocessable
  R.validatePrivateInputSchema manifest.circuitId reference.privateInput
  return {
    circuitId := manifest.circuitId
    metadata := policyRunMetadata request manifest.policyVersion ("att-" ++ runId) evidenceRef policyParamsHash
    plaintext := sealedFields request parameters reference }

/-- `create_policy_run`, to the id of the run; `encrypt` is Vault's answer to a plaintext. -/
def createPolicyRun (encrypt : Json → Except PyExn String) (request : RunCreateRequest) (runId : String) :
    Service String := do
  let manifest ← check (R.loadPolicyManifest request.policyId)
  let (payload, evidenceRef) ← R.resolvePolicyEvidence runId request
  let draft ← check (R.draft request runId manifest payload evidenceRef)
  let sealedPayload ← check (encrypt draft.plaintext)
  persistAndEnqueueJob R.sha256 runId draft.circuitId request.payload "policy_run" sealedPayload draft.metadata
  return runId

end RunService

/-! ## The status of a run -/

/-- `RunErrorV6`. -/
structure RunError where
  code : String
  message : String
  details : List (String × Json)

/-- `RunStatusResponseV6`. -/
structure RunStatus where
  runId : String
  policyId : String
  lifecycleState : JobStatus
  circuitId : String
  decision : Option PolicyDecision
  attestationId : String
  evidenceRef : Option String
  clientRequestId : Option String
  context : List (String × Json)
  policyParamsRef : Option String
  policyParamsHash : Option String
  error : Option RunError
  submittedAt : ℚ
  updatedAt : ℚ

/-- `value if isinstance(value, str) else None`. -/
def strOrNone : Option Json → Option String
  | some (.str text) => some text
  | _ => none

/-- `value if isinstance(value, dict) else {}`. -/
def dictOrEmpty : Option Json → List (String × Json)
  | some (.obj fields) => fields
  | _ => []

/-- `value or default`, as a text. -/
def truthyStr (repr : Json → String) (value : Option Json) (default : String) : String :=
  match value with
  | some value => if value.truthy then value.pyStr repr else default
  | none => default

/-- `decision_value if decision_value in {"pass", "fail"} else None`; a list or a dictionary cannot
be looked up in a set. -/
def reportedDecision : Option Json → Except PyExn (Option PolicyDecision)
  | some (.str "pass") => .ok (some .pass)
  | some (.str "fail") => .ok (some .fail)
  | some (.arr _) => .error (.other "unhashable type: 'list'")
  | some (.obj _) => .error (.other "unhashable type: 'dict'")
  | _ => .ok none

/-- `policy_id` of a run; a job without one is no run. -/
def runPolicyId (runId : String) (metadata : Dict Json) : Except PyExn String :=
  match metadata.get? "policy_id" with
  | some (.str policyId) => if policyId = "" then .error (unknownRunIdError runId) else .ok policyId
  | _ => .error (unknownRunIdError runId)

/-- The response on the row that was read. -/
def runStatus (repr : Json → String) (runId : String) : Option ProofJob → Except PyExn RunStatus
  | none => .error (unknownRunIdError runId)
  | some job => do
    let policyId ← runPolicyId runId job.metadata
    let decision ← reportedDecision (job.metadata.get? "decision")
    return {
      runId := runId
      policyId := policyId
      lifecycleState := job.status
      circuitId := job.circuitId
      decision := decision
      attestationId := truthyStr repr (job.metadata.get? "attestation_id") ("att-" ++ runId)
      evidenceRef := (job.metadata.get? "evidence_ref").bind fun reference =>
        if reference.truthy then some (reference.pyStr repr) else none
      clientRequestId := (strOrNone (job.metadata.get? "client_request_id")).filter (· ≠ "")
      context := dictOrEmpty (job.metadata.get? "context")
      policyParamsRef := strOrNone (job.metadata.get? "policy_params_ref")
      policyParamsHash := strOrNone (job.metadata.get? "policy_params_hash")
      error := (job.error.filter (· ≠ "")).map fun message =>
        { code := truthyStr repr (job.metadata.get? "failure_reason") "run_failed"
          message := message
          details := dictOrEmpty (job.metadata.get? "error_details") }
      submittedAt := job.createdAt
      updatedAt := job.updatedAt }

/-- `get_policy_run_status`. -/
def getPolicyRunStatus (repr : Json → String) (runId : String) : Service RunStatus := do
  let job ← await (.getProofJob runId)
  check (runStatus repr runId job)

end Vellum
