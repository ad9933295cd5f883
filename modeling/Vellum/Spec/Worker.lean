import Vellum.Spec.Service

/-!
# The worker

`_process_proof_job_async` of `worker.py`, one delivery of a proof job, and
`next_attempt_metadata` of `logic/job_attempts.py`. The schema validator, the triage of a
failure and the explanation of a failed policy are parameters; logging and metrics are left
out.
-/

namespace Vellum

/-- `FailureTriage`. -/
structure FailureTriage where
  errorClass : String
  retryable : Bool
  detail : String

/-- What a delivery reads of its settings, of the registries and of the helpers. -/
structure WorkerSettings where
  maxAttempts : ℤ
  softTimeLimitSeconds : ℤ
  proofOutputDir : String
  /-- The `input_schema` of a circuit's manifest. -/
  circuits : String → Option Json
  policies : String → Option PolicyPackManifest
  /-- `validate_private_input_schema`; a failure is the message of its `ValueError`. -/
  validateSchema : Json → Json → Except String Unit
  /-- `_build_failure_explainability`, on the job's metadata, the decrypted payload and the error. -/
  explain : Dict Json → Option Json → String → Json
  /-- `classify_failure`, on the failure reason and the error message. -/
  classify : String → String → FailureTriage
  repr : Json → String

/-! ## Attempts -/

/-- The attempts the metadata records. -/
def previousAttempts (metadata : Dict Json) : ℤ :=
  match metadata.get? "attempt_count" with
  | some (.int i) => if 0 ≤ i then i else 0
  -- a `bool` does not count as an integer here
  | _ => 0

/-- The attempt counters of a delivery. -/
structure AttemptMetadata where
  attemptCount : ℤ
  maxAttempts : ℤ

/-- The counters as a patch of the metadata. -/
def AttemptMetadata.patch (a : AttemptMetadata) : List (String × Json) :=
  [("attempt_count", .int a.attemptCount), ("max_attempts", .int a.maxAttempts)]

/-- `next_attempt_metadata`. -/
def nextAttemptMetadata (metadata : Dict Json) (maxAttempts : ℤ) : AttemptMetadata × Bool :=
  let attemptCount := previousAttempts metadata + 1
  (⟨attemptCount, maxAttempts⟩, decide (maxAttempts < attemptCount))

/-! ## Recording a failure -/

variable (S : WorkerSettings)

/-- `_record_dead_letter_job`. -/
def recordDeadLetterJob (job : ProofJob) (failureReason errorMessage : String) (attempts : AttemptMetadata)
    (explainability : Json) : Service Unit :=
  let triage := S.classify failureReason errorMessage
  await (.upsertDeadLetterJob
    { proofId := job.proofId
      circuitId := job.circuitId
      errorClass := triage.errorClass
      retryable := triage.retryable
      failureReason := failureReason
      errorMessage := errorMessage
      attemptCount := attempts.attemptCount
      maxAttempts := attempts.maxAttempts
      triageDetails := .obj [("detail", .str triage.detail), ("explainability", explainability)]
      jobMetadata := job.metadata
      sealedRerunPayload := job.sealedJobPayload })

/-- The audit event of a failure: the metadata of the failed row with the reason on top. -/
def failedEvent (proofId : String) (job : ProofJob) (failedJob : Option ProofJob) (patch : List (String × Json))
    (error : String) : EventArgs where
  proofId := some proofId
  circuitId := job.circuitId
  status := "failed"
  publicSignals := []
  proofPayload := none
  metadata := some ((failedJob.getD job).metadata.update patch).items
  error := some error

def maxAttemptsExplainability : Json := .obj [("version", .str "v1"), ("reason", .str "max_attempts_exceeded")]

/-- The path of a delivery whose attempts are used up. -/
def maxAttemptsExceeded (proofId : String) (job : ProofJob) (attempts : AttemptMetadata) : Service Unit := do
  let failureReason := "proof job exceeded max attempts (" ++ S.maxAttempts.repr ++ ")"
  let failedJob ← await (.updateProofJob proofId
    { status := .failed
      error := some failureReason
      metadataPatch := some (attempts.patch ++ [("failure_reason", .str "max_attempts_exceeded"),
        ("error_details", .obj [("explainability", maxAttemptsExplainability)])]) })
  await (.appendEvent (failedEvent proofId job failedJob
    (attempts.patch ++ [("failure_reason", .str "max_attempts_exceeded")]) failureReason))
  recordDeadLetterJob S job "max_attempts_exceeded" failureReason attempts maxAttemptsExplainability
  -- only this path purges after the dead letter is stored
  await (.purgeSealedJobPayload proofId .maxAttempts)

/-- What both handlers do before they raise again: the payload is purged before the event is
appended and the dead letter is recorded. -/
def recordFailure (proofId : String) (job : ProofJob) (attempts : AttemptMetadata) (decrypted : Option Json)
    (site : Site) (failureReason error : String) : Service Unit := do
  let explainability := S.explain job.metadata decrypted error
  -- the attempt counters stand last in the patch, so they win
  let failedJob ← await (.updateProofJob proofId
    { status := .failed
      error := some error
      metadataPatch := some ([("failure_reason", .str failureReason),
        ("error_details", .obj [("explainability", explainability)])] ++ attempts.patch) })
  await (.purgeSealedJobPayload proofId site)
  await (.appendEvent (failedEvent proofId job failedJob (("failure_reason", .str failureReason) :: attempts.patch)
    error))
  recordDeadLetterJob S job failureReason error attempts explainability

/-- `except SoftTimeLimitExceeded` and `except Exception`. The time limit comes to the first of them only
where it strikes while the coroutine runs; a coroutine that waits is cancelled, and neither of them is for
that. -/
def handleException (proofId : String) (job : ProofJob) (attempts : AttemptMetadata) (decrypted : Option Json) :
    PyExn → Service Unit
  | .cancelled => throw .cancelled
  | .softTimeLimitExceeded => do
    recordFailure S proofId job attempts decrypted .softTimeLimit "soft_time_limit_exceeded"
      ("proof job exceeded celery soft time limit (" ++ S.softTimeLimitSeconds.repr ++ "s)")
    throw .softTimeLimitExceeded
  | exc => do
    recordFailure S proofId job attempts decrypted .runtimeException "runtime_exception" (exc.str S.repr)
    throw exc

/-! ## Proving -/

def raiseOther {α : Type} (text : String) : Except PyExn α := .error (.other text)

/-- `type(value).__name__`. -/
def pyTypeName : Json → String
  | .null => "NoneType"
  | .bool _ => "bool"
  | .int _ => "int"
  | .float _ => "float"
  | .str _ => "str"
  | .arr _ => "list"
  | .obj _ => "dict"

/-- `DEFAULT_BATCH_CIRCUIT_ID`. -/
def defaultBatchCircuitId : String := "batch_credit_check"

/-- The inner `try` around `unseal_job_payload`. -/
def unsealPayload (proofId sealedPayload : String) : Service Json :=
  exceptException (await (.unsealJobPayload sealedPayload)) fun exc => do
    -- the event is best effort; the cause of the failure is not shown outside
    recordSecurityEvent ⟨"payload_decrypt_failed", "error", some proofId, [("reason", .str (exc.str S.repr))]⟩
    throw (.other "Unable to decrypt sealed job payload")

/-- The private input of the decrypted payload, checked against the circuit. -/
def proverInput (job : ProofJob) (decrypted : Json) : Except PyExn Json := do
  let fields ← match decrypted with
    | .obj fields => .ok fields
    | j => raiseOther ("'" ++ pyTypeName j ++ "' object has no attribute 'get'")
  let privateInput ← match fields.lookup "private_input" with
    | some (.obj input) => .ok (Json.obj input)
    | _ => raiseOther "Missing private_input for proof job"
  -- only the batch circuit has its arrays checked again
  let privateInput ← if job.circuitId = defaultBatchCircuitId then
      ((batchPrepareFromPrivateInput privateInput).map PreparedBatchInput.toCircuitInput).mapError .other
    else .ok privateInput
  let inputSchema ← match S.circuits job.circuitId with
    | some inputSchema => .ok inputSchema
    | none => raiseOther job.circuitId
  (S.validateSchema inputSchema privateInput).mapError .other
  return privateInput

/-- `policy_id` of the metadata, if it is a non-empty string. -/
def policyIdOf (job : ProofJob) : Option String :=
  match job.metadata.get? "policy_id" with
  | some (.str policyId) => if policyId = "" then none else some policyId
  | _ => none

/-- The decision and the outputs of the reference track in the decrypted payload. -/
def sealedReference (decrypted : Json) : Except PyExn (PolicyDecision × List (String × Json)) := do
  let reference ← match decrypted.get? "dual_track_reference" with
    | some (.obj reference) => .ok reference
    | _ => raiseOther "Missing dual_track_reference for policy run"
  let decision ← match reference.lookup "decision" with
    | some (.str "pass") => .ok PolicyDecision.pass
    | some (.str "fail") => .ok .fail
    -- membership in a set hashes the value first
    | some (.arr _) => raiseOther "unhashable type: 'list'"
    | some (.obj _) => raiseOther "unhashable type: 'dict'"
    | _ => raiseOther "dual_track_reference.decision must be pass|fail"
  match reference.lookup "outputs" with
  | some (.obj outputs) => return (decision, outputs)
  | _ => raiseOther "dual_track_reference.outputs must be an object"

/-- The dual-track check of a policy run. -/
def dualTrackPatch (policyId : String) (decrypted : Json) (publicSignals : List Json) (verified : Bool) :
    Except PyExn (List (String × Json)) := do
  let manifest ← match S.policies policyId with
    | some manifest => .ok manifest
    | none => raiseOther policyId
  let (decision, outputs) ← sealedReference decrypted
  let circuit ← evaluateCircuitTrack S.repr policyId manifest.expectedAttestation manifest.differentialOutputs
    publicSignals verified
  assertDualTrackConsistency policyId decision outputs circuit
  return [("policy_version", .str manifest.policyVersion), ("decision", .str circuit.decision.text)]

/-- The metadata a finished job gets: a policy run is checked, any other job is not. -/
def completionPatch (job : ProofJob) (decrypted : Json) (publicSignals : List Json) (verified : Bool) :
    Except PyExn (Option (List (String × Json))) :=
  match policyIdOf job with
  | some policyId => (dualTrackPatch S policyId decrypted publicSignals verified).map some
  | none => .ok none

/-- The end of the `try` body, once the provider has answered. -/
def completeJob (proofId : String) (job : ProofJob) (result : ProofResult)
    (metadataPatch : Option (List (String × Json))) : Service Unit := do
  let proofPath := S.proofOutputDir ++ "/" ++ proofId ++ ".json"
  await (.writeProofFile proofPath result.proof result.publicSignals)
  -- from here on the row says `completed`, but the handlers are still in force
  let _ ← await (.updateProofJob proofId
    { status := .completed
      publicSignals := some result.publicSignals
      proof := some result.proof
      proofPath := some proofPath
      metadataPatch := metadataPatch })
  await (.purgeSealedJobPayload proofId .completed)
  await (.appendEvent
    { proofId := some proofId
      circuitId := job.circuitId
      status := "completed"
      publicSignals := result.publicSignals
      proofPayload := some result.proof
      metadata := some (job.metadata.update (metadataPatch.getD [])).items
      error := none })

/-- The `try` body from the decrypted payload on. -/
def proveJob (proofId : String) (job : ProofJob) (decrypted : Json) : Service Unit := do
  let privateInput ← check (proverInput S job decrypted)
  let result ← await (.generate job.circuitId privateInput)
  let verified ← await (.verify job.circuitId result.proof result.publicSignals)
  -- the verdict goes nowhere else
  let metadataPatch ← check (completionPatch S job decrypted result.publicSignals verified)
  completeJob S proofId job result metadataPatch

/-- The `try` statement. The handlers see the decrypted payload if there is one. -/
def executeJob (proofId : String) (job : ProofJob) (attempts : AttemptMetadata) : Service Unit :=
  let unsealed : Service Json :=
    match job.sealedJobPayload with
    | none => throw (.other "Missing sealed_job_payload for proof job")
    | some sealedPayload => unsealPayload S proofId sealedPayload
  unsealed.andThen fun
    | .error exc => handleException S proofId job attempts none exc
    | .ok decrypted => (proveJob S proofId job decrypted).tryCatch
      (handleException S proofId job attempts (some decrypted))

/-- The part of a delivery after the status gate. -/
def deliverJob (proofId : String) (job : ProofJob) : Service Unit := do
  let (attempts, attemptsExceeded) := nextAttemptMetadata job.metadata S.maxAttempts
  if attemptsExceeded then maxAttemptsExceeded S proofId job attempts
  else
    let updatedJob ← await (.updateProofJob proofId { status := .running, metadataPatch := some attempts.patch })
    -- the row may be gone: then the delivery goes on with the one it has read
    let job := updatedJob.getD job
    await (.appendEvent
      { proofId := some proofId
        circuitId := job.circuitId
        status := "running"
        publicSignals := []
        proofPayload := none
        metadata := some job.metadata.items
        error := none })
    executeJob S proofId job attempts

/-- `_process_proof_job_async`. -/
def processProofJob (proofId : String) : Service Unit := do
  await .initModels
  -- the status gate, the only read of the status
  match ← await (.getProofJob proofId) with
  | none => return ()
  | some job => if job.status.terminal then return () else deliverJob S proofId job

end Vellum
