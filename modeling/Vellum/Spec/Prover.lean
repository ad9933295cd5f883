import Vellum.Spec.Service

/-!
# Submission and requeue

`_persist_and_enqueue_job` and `requeue_dead_letter_job` of `prover_service.py`, with the
fingerprint and the summary of an input from `vellum_core/security.py`, and the part of
`run_maintenance_cycle` that writes the database. A fresh uuid is an argument of the request
that draws it.
-/

namespace Vellum

/-! ## Fingerprint and summary -/

/-- `payload.get(key)`, with `None` for an absent key. -/
def getOrNull (payload : Json) (key : String) : Json := (payload.get? key).getD .null

/-- What of the payload is hashed. -/
def fingerprintMaterial (sourceMode : String) (payload : Json) : Json :=
  if sourceMode = "private_input" then getOrNull payload "private_input"
  else if sourceMode = "policy_run" then
    .obj [("policy_id", getOrNull payload "policy_id"), ("policy_params_ref", getOrNull payload "policy_params_ref"),
      ("evidence", getOrNull payload "evidence")]
  else
    -- `direct`, and every mode without a branch of its own
    .obj [("balances", getOrNull payload "balances"), ("limits", getOrNull payload "limits"),
      ("circuit_id", getOrNull payload "circuit_id")]

/-- `compute_input_fingerprint`. -/
def computeInputFingerprint (sha256 : String → String) (sourceMode : String) (payload : Json) : String :=
  sha256 (fingerprintMaterial sourceMode payload).canonical

/-- `sorted(str(k) for k in value.keys())[:25]`. -/
def firstKeys (fields : List (String × Json)) : Json :=
  .arr ((((fields.map Prod.fst).mergeSort (· ≤ ·)).take 25).map .str)

/-- The entries of the summary about the evidence of a policy run. -/
def evidenceSummary (evidence : Json) : List (String × Json) :=
  match evidence with
  | .obj _ =>
    [("evidence_type", getOrNull evidence "type")] ++
    (match evidence.get? "payload" with
      | some (.obj fields) => [("evidence_keys", firstKeys fields)]
      | _ => []) ++
    [("has_evidence_ref", .bool (match evidence.get? "ref" with | some (.str _) => true | _ => false))]
  | _ => []

/-- `build_input_summary`. -/
def buildInputSummary (sourceMode : String) (payload : Json) (circuitId : String) : Json :=
  .obj ([("source_mode", .str sourceMode), ("circuit_id", .str circuitId)] ++
    (if sourceMode = "direct" then
      [("batch_size", match payload.get? "balances" with | some (.arr items) => .int items.length | _ => .null)]
    else if sourceMode = "private_input" then
      (match payload.get? "private_input" with
        | some (.obj fields) => [("private_input_keys", firstKeys fields)]
        | _ => [])
    else if sourceMode = "policy_run" then
      [("policy_id", getOrNull payload "policy_id"), ("policy_params_ref", getOrNull payload "policy_params_ref")] ++
        evidenceSummary (getOrNull payload "evidence")
    else []))

/-! ## Submission -/

/-- The audit event of a queued job. -/
def queuedEvent (proofId circuitId : String) (metadata : Dict Json) : EventArgs where
  proofId := some proofId
  circuitId := circuitId
  status := "queued"
  publicSignals := []
  proofPayload := none
  metadata := some metadata.items
  error := none

/-- `_persist_and_enqueue_job`. -/
def persistAndEnqueueJob (sha256 : String → String) (proofId circuitId : String) (requestPayload : Json)
    (sourceMode sealedPayload : String) (metadata : Dict Json) : Service Unit := do
  await (.createProofJob
    { proofId := proofId
      circuitId := circuitId
      status := .queued
      sealedJobPayload := sealedPayload
      inputFingerprint := computeInputFingerprint sha256 sourceMode requestPayload
      inputSummary := buildInputSummary sourceMode requestPayload circuitId
      metadata := metadata })
  await (.appendEvent (queuedEvent proofId circuitId metadata))
  -- a failure before this line leaves a queued row that no message names
  await (.enqueue proofId)

/-! ## Requeue -/

/-- What one request brings: the actor of the token, the reason, and the fresh uuid. -/
structure RequeueRequest where
  dlqId : ℕ
  sub : Option String
  reason : Option String
  rerunProofId : String

/-- `str(claims.get("sub") or "ops")`. -/
def RequeueRequest.actor (request : RequeueRequest) : String :=
  match request.sub with
  | some sub => if sub = "" then "ops" else sub
  | none => "ops"

inductive RequeueStatus where
  | queued | alreadyRequeued
deriving DecidableEq, Repr

/-- `DeadLetterRequeueResponse`. -/
structure RequeueResponse where
  dlqId : ℕ
  sourceProofId : String
  rerunProofId : String
  status : RequeueStatus
deriving DecidableEq, Repr

/-- The truth value of a decoded value. -/
def Json.truthy : Json → Bool
  | .null => false
  | .bool b => b
  | .int i => i ≠ 0
  | .float f => match f.value with | .fin q => q ≠ 0 | _ => true
  | .str s => s ≠ ""
  | .arr items => items ≠ []
  | .obj fields => fields ≠ []

/-- The job a requeue creates: the metadata of the source job, if there is one, under the
entries of the rerun. -/
def rerunJob (sha256 : String → String) (repr : Json → String) (request : RequeueRequest) (row : DeadLetterJob)
    (sealedPayload : String) (sourceJob : Option ProofJob) : NewJob :=
  let rerunOf : List (String × Json) := [("rerun_of", .str row.proofId), ("dlq_entry_id", .int request.dlqId)]
  let metadata := Dict.empty.update (("source_mode", .str "rerun") :: rerunOf)
  let metadata := match sourceJob with
    | none => metadata
    | some job =>
      -- the source's entries go over the defaults, `source_mode` included
      let merged := metadata.update job.metadata.items
      let sourceMode := (merged.get? "source_mode").getD .null
      merged.set "source_mode" (if sourceMode.truthy then .str (sourceMode.pyStr repr) else .str "rerun")
  let fingerprint := computeInputFingerprint sha256 "rerun" (.obj rerunOf)
  let summary := buildInputSummary "rerun" (.obj [("rerun_of", .str row.proofId)]) row.circuitId
  { proofId := request.rerunProofId
    circuitId := row.circuitId
    status := .queued
    sealedJobPayload := sealedPayload
    inputFingerprint := match sourceJob with
      | some job => if job.inputFingerprint ≠ "" then job.inputFingerprint else fingerprint
      | none => fingerprint
    inputSummary := match sourceJob with
      | some job => if job.inputSummary.truthy then job.inputSummary else summary
      | none => summary
    metadata := metadata.update (rerunOf ++
      [("rerun_requested_by", .str request.actor), ("rerun_reason", .ofOptStr request.reason)]) }

/-- The audit event on the source of a rerun. -/
def rerunTriggeredEvent (request : RequeueRequest) (row : DeadLetterJob) : EventArgs where
  proofId := some row.proofId
  circuitId := row.circuitId
  status := "rerun_triggered"
  publicSignals := []
  proofPayload := none
  metadata := some [("dlq_entry_id", .int request.dlqId), ("rerun_proof_id", .str request.rerunProofId),
    ("rerun_requested_by", .str request.actor), ("rerun_reason", .ofOptStr request.reason)]
  error := none

/-- The part of a requeue that creates the rerun, enqueues it and marks the dead letter. -/
def triggerRerun (request : RequeueRequest) (row : DeadLetterJob) (job : NewJob) : Service RequeueResponse := do
  await (.createProofJob job)
  await (.appendEvent (queuedEvent request.rerunProofId row.circuitId job.metadata))
  await (.appendEvent (rerunTriggeredEvent request row))
  await (.enqueue request.rerunProofId)
  -- the row names its rerun only now, when the rerun is in the queue
  await (.markDeadLetterJobRequeued request.dlqId request.rerunProofId request.actor request.reason)
  return ⟨request.dlqId, row.proofId, request.rerunProofId, .queued⟩

/-- The rerun a dead letter names already. -/
def DeadLetterJob.rerun? (row : DeadLetterJob) : Option String := row.rerunProofId.filter (· ≠ "")

/-- What a request does with the row it has read. -/
def requeueRow (sha256 : String → String) (repr : Json → String) (request : RequeueRequest) :
    Option DeadLetterJob → Service RequeueResponse
  | none => throw (.api ⟨404, "unknown_dlq_entry", "No dead-letter entry found for id",
      [("dlq_id", .int request.dlqId)]⟩)
  | some row => match row.rerun? with
    | some rerunProofId => return ⟨request.dlqId, row.proofId, rerunProofId, .alreadyRequeued⟩
    -- neither `retryable` nor the status of the row is looked at
    | none => match row.sealedRerunPayload.filter (· ≠ "") with
      | none => throw (.api ⟨409, "rerun_payload_unavailable",
          "Dead-letter entry cannot be requeued without sealed payload", [("dlq_id", .int request.dlqId)]⟩)
      | some sealedPayload => do
        let sourceJob ← await (.getProofJob row.proofId)
        triggerRerun request row (rerunJob sha256 repr request row sealedPayload sourceJob)

/-- `requeue_dead_letter_job`. -/
def requeueDeadLetterJob (sha256 : String → String) (repr : Json → String) (request : RequeueRequest) :
    Service RequeueResponse := do
  let row ← await (.getDeadLetterJob request.dlqId)
  requeueRow sha256 repr request row

/-! ## Maintenance -/

/-- The writes of `run_maintenance_cycle` to the database. -/
def runMaintenanceCycle (pruneCutoff : ℚ) : Service Unit := do
  await .initModels
  await (.pruneTerminalJobRuntimeData pruneCutoff)

end Vellum
