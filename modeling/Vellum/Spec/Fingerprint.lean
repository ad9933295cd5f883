import Vellum.Lib.JsonContent
import Vellum.Spec.Batcher
import Vellum.Spec.PolicyRun
import Vellum.Spec.Worker

/-!
# Submissions and their fingerprints

`BatchProveRequest` and `create_batch_proof` of `prover_service.py`, and the fingerprint that a new
job row gets from each of the routes that create one: `create_batch_proof` in its two modes,
`create_policy_run`, and `requeue_dead_letter_job` where the row of the source job is gone.
-/

namespace Vellum

/-! ## Batch submissions -/

/-- `BatchProveRequest.validate_input_mode`. -/
def validateInputMode (circuitId : String) (balances limits : Option (List ℤ))
    (privateInput : Option (List (String × Json))) : Except String Unit := do
  let usingBalancesLimits := balances.isSome || limits.isSome
  raiseIf (usingBalancesLimits.toNat + privateInput.isSome.toNat ≠ 1)
    "Provide exactly one input mode: balances/limits or private_input"
  if usingBalancesLimits then
    match balances, limits with
    | some balances, some limits =>
      raiseIf (balances.length ≠ limits.length) "balances and limits length mismatch"
      raiseIf (circuitId ≠ defaultBatchCircuitId)
        "balances/limits mode is only supported for circuit_id=batch_credit_check"
    | _, _ => throw "balances and limits must both be provided for direct mode"

/-- `Field(min_length=1, max_length=MAX_BATCH_SIZE)` on an optional list. -/
def BatchLength (values : Option (List ℤ)) : Prop := ∀ l ∈ values, 1 ≤ l.length ∧ l.length ≤ maxBatchSize

/-- `BatchProveRequest`, with the subject and the key its authentication has found. -/
structure BatchProveRequest where
  circuitId : String
  balances : Option (List ℤ)
  limits : Option (List ℤ)
  privateInput : Option (List (String × Json))
  requestId : Option String
  sub : Json
  bankKeyId : String
  circuitId_length : 1 ≤ circuitId.length ∧ circuitId.length ≤ 128
  balances_length : BatchLength balances
  limits_length : BatchLength limits
  input_mode : validateInputMode circuitId balances limits privateInput = .ok ()
  /-- A dictionary names every key once. -/
  decoded : ∀ fields ∈ privateInput, (Json.obj fields).Distinct

/-- A list of integers or `None`. -/
def ofOptInts : Option (List ℤ) → Json
  | some l => .arr (l.map .int)
  | none => .null

namespace BatchProveRequest

variable (request : BatchProveRequest)

/-- `payload.private_input` as a decoded value. -/
def privateInputJson : Json :=
  match request.privateInput with
  | some fields => .obj fields
  | none => .null

/-- `payload.model_dump()`. -/
def payload : Json :=
  .obj [("circuit_id", .str request.circuitId), ("balances", ofOptInts request.balances),
    ("limits", ofOptInts request.limits), ("private_input", request.privateInputJson),
    ("request_id", .ofOptStr request.requestId)]

/-- `metadata["source_mode"]`. -/
def sourceMode : String := if request.privateInput.isSome then "private_input" else "direct"

/-- The input of the circuit. -/
def circuitInput : Except PyExn Json :=
  match request.privateInput with
  | some fields => .ok (.obj fields)
  | none =>
    -- the mode check has made sure that both are there
    match batchPrepareInput ((request.balances.getD []).map .int) ((request.limits.getD []).map .int) maxBatchSize with
    | .ok prepared => .ok prepared.toCircuitInput
    | .error reason => .error (.api ⟨422, "invalid_batch_input", "Batch payload invalid", [("reason", .str reason)]⟩)

/-- The metadata of the job. -/
def metadata : Dict Json :=
  Dict.empty.update ([("mode", .str "batch"), ("request_id", .ofOptStr request.requestId),
    ("auth_subject", request.sub), ("bank_key_id", .str request.bankKeyId), ("source_mode", .str request.sourceMode)] ++
    if request.circuitId = defaultBatchCircuitId then
      [("batch_size", .int (match request.balances with | some l => l.length | none => maxBatchSize))]
    else [])

end BatchProveRequest

/-- `create_batch_proof`, to the id of the job; `encrypt` is Vault's answer to a plaintext. -/
def RunService.createBatchProof (R : RunService) (encrypt : Json → Except PyExn String) (request : BatchProveRequest)
    (proofId : String) : Service String := do
  let privateInput ← check request.circuitInput
  check (R.validatePrivateInputSchema request.circuitId privateInput)
  let sealedPayload ← check (encrypt (.obj [("request_payload", request.payload), ("private_input", privateInput),
    ("dual_track_reference", .null), ("policy_parameters", .null)]))
  persistAndEnqueueJob R.sha256 proofId request.circuitId request.payload request.sourceMode sealedPayload
    request.metadata
  return proofId

/-! ## The jobs that are created -/

/-- `payload.get("evidence")` of a policy run. -/
def RunCreateRequest.evidenceJson (request : RunCreateRequest) : Json := getOrNull request.payload "evidence"

/-- What a job is created from: a batch, a policy run with the manifest of its policy, or the rerun of
a dead letter whose source job is gone. -/
inductive Submission where
  | batch (request : BatchProveRequest)
  | policyRun (manifest : PolicyPackManifest) (request : RunCreateRequest) (decoded : request.evidenceJson.Distinct)
  | rerun (request : RequeueRequest) (row : DeadLetterJob) (sealedPayload : String)

/-- The fingerprint in the row of the new job. -/
def Submission.inputFingerprint (sha256 : String → String) (repr : Json → String) : Submission → String
  | .batch request => computeInputFingerprint sha256 request.sourceMode request.payload
  | .policyRun _ request _ => computeInputFingerprint sha256 "policy_run" request.payload
  | .rerun request row sealedPayload => (rerunJob sha256 repr request row sealedPayload none).inputFingerprint

end Vellum
