import Mathlib.Algebra.Order.Field.Rat
import Vellum.Lib.Dict
import Vellum.Spec.Audit

/-!
# Jobs, dead letters and the database

The rows of `proof_jobs`, `dead_letter_jobs` and `security_events` in
`vellum_core/database.py` and what its methods write. Each method is one transaction. Times
are rational seconds; of the times of a dead letter nothing is read.
-/

namespace Vellum

inductive JobStatus where
  | queued | running | completed | failed
deriving DecidableEq, Repr

namespace JobStatus

def text : JobStatus → String
  | .queued => "queued"
  | .running => "running"
  | .completed => "completed"
  | .failed => "failed"

/-- `completed` and `failed`. -/
def terminal : JobStatus → Bool
  | .completed | .failed => true
  | _ => false

end JobStatus

/-! ## `proof_jobs` -/

/-- A row of `proof_jobs`; a JSON column that is present may hold `null`. -/
structure ProofJob where
  proofId : String
  circuitId : String
  status : JobStatus
  sealedJobPayload : Option String
  inputFingerprint : String
  inputSummary : Json
  sealedPurgedAt : Option ℚ
  publicSignals : Option Json
  proof : Option Json
  proofPath : Option String
  error : Option String
  metadata : Dict Json
  createdAt : ℚ
  updatedAt : ℚ

/-- The arguments of `create_proof_job`. -/
structure NewJob where
  proofId : String
  circuitId : String
  status : JobStatus
  sealedJobPayload : String
  inputFingerprint : String
  inputSummary : Json
  metadata : Dict Json

/-- The row `create_proof_job` inserts. -/
def NewJob.row (new : NewJob) (now : ℚ) : ProofJob where
  proofId := new.proofId
  circuitId := new.circuitId
  status := new.status
  sealedJobPayload := some new.sealedJobPayload
  inputFingerprint := new.inputFingerprint
  inputSummary := new.inputSummary
  sealedPurgedAt := none
  publicSignals := none
  proof := none
  proofPath := none
  error := none
  metadata := new.metadata
  createdAt := now
  updatedAt := now

/-- The arguments of `update_proof_job`. -/
structure JobUpdate where
  status : JobStatus
  publicSignals : Option (List Json) := none
  proof : Option Json := none
  proofPath : Option String := none
  error : Option String := none
  metadataPatch : Option (List (String × Json)) := none

namespace ProofJob

/-- What `update_proof_job` makes of a row. -/
def update (job : ProofJob) (u : JobUpdate) (now : ℚ) : ProofJob :=
  { job with
    status := u.status
    updatedAt := now
    publicSignals := (u.publicSignals.map Json.arr).or job.publicSignals
    proof := u.proof.or job.proof
    proofPath := u.proofPath.or job.proofPath
    error := u.error.or job.error
    metadata := job.metadata.update (u.metadataPatch.getD []) }

/-- What `purge_sealed_job_payload` makes of a row. -/
def purge (job : ProofJob) (now : ℚ) : ProofJob :=
  { job with sealedJobPayload := none, sealedPurgedAt := some now, updatedAt := now }

/-- The rows that `prune_terminal_job_runtime_data` selects. -/
def prunable (job : ProofJob) (olderThan : ℚ) : Bool :=
  job.status.terminal && job.updatedAt < olderThan &&
    (job.proof.isSome || job.publicSignals.isSome || job.error.isSome)

/-- What it makes of a selected row: `None` in a JSON column is stored as `null`. The ORM writes what has
changed, and a column that was the SQL `NULL` has not. -/
def prune (job : ProofJob) (olderThan now : ℚ) : ProofJob :=
  if job.prunable olderThan then
    { job with
      proof := job.proof.map fun _ => .null
      publicSignals := job.publicSignals.map fun _ => .null
      error := none
      updatedAt := now }
  else job

@[simp] theorem prune_status (job : ProofJob) (olderThan now : ℚ) : (job.prune olderThan now).status = job.status := by
  unfold prune
  split_ifs <;> rfl

end ProofJob

/-! ## `dead_letter_jobs` -/

inductive DeadLetterStatus where
  | opened | requeued
deriving DecidableEq, Repr

/-- The arguments of `upsert_dead_letter_job`. -/
structure DeadLetterInput where
  proofId : String
  circuitId : String
  errorClass : String
  retryable : Bool
  failureReason : String
  errorMessage : String
  attemptCount : ℤ
  maxAttempts : ℤ
  triageDetails : Json
  jobMetadata : Dict Json
  sealedRerunPayload : Option String

/-- A row of `dead_letter_jobs`. -/
structure DeadLetterJob extends DeadLetterInput where
  id : ℕ
  status : DeadLetterStatus
  rerunProofId : Option String
  rerunRequestedBy : Option String
  rerunReason : Option String

namespace DeadLetterJob

/-- The row a first `upsert_dead_letter_job` inserts. -/
def fresh (id : ℕ) (input : DeadLetterInput) : DeadLetterJob where
  toDeadLetterInput := input
  id := id
  status := .opened
  rerunProofId := none
  rerunRequestedBy := none
  rerunReason := none

/-- What a further one makes of the row: an absent or empty payload does not replace the old. -/
def upsert (row : DeadLetterJob) (input : DeadLetterInput) : DeadLetterJob :=
  { row with
    toDeadLetterInput := { input with
      proofId := row.proofId
      -- `if input.sealed_rerun_payload:`
      sealedRerunPayload :=
        if (input.sealedRerunPayload.getD "") ≠ "" then input.sealedRerunPayload else row.sealedRerunPayload }
    status := .opened }

/-- What `mark_dead_letter_job_requeued` makes of a row. -/
def requeue (row : DeadLetterJob) (rerunProofId requestedBy : String) (reason : Option String) : DeadLetterJob :=
  { row with
    status := .requeued
    rerunProofId := some rerunProofId
    rerunRequestedBy := some requestedBy
    rerunReason := reason }

end DeadLetterJob

/-- A row of `security_events`. -/
structure SecurityEvent where
  eventType : String
  outcome : String
  proofId : Option String
  details : List (String × Json)

/-! ## The database and the queue -/

/-- The tables, the events of the audit log in order, and the task messages. `history` lists
every status written, which nothing in the program reads. -/
structure World where
  proofJobs : String → Option ProofJob
  deadLetterJobs : List DeadLetterJob
  auditEvents : List EventArgs
  securityEvents : List SecurityEvent
  queue : List String
  history : List (String × JobStatus)

namespace World

def empty : World := ⟨fun _ => none, [], [], [], [], []⟩

def setJob (w : World) (proofId : String) (job : ProofJob) : World :=
  { w with proofJobs := Function.update w.proofJobs proofId (some job) }

/-- `create_proof_job`. -/
def createProofJob (w : World) (new : NewJob) (now : ℚ) : World :=
  { w.setJob new.proofId (new.row now) with history := w.history ++ [(new.proofId, new.status)] }

/-- `update_proof_job`. -/
def updateProofJob (w : World) (proofId : String) (u : JobUpdate) (now : ℚ) : World :=
  match w.proofJobs proofId with
  | none => w
  -- an unconditional overwrite: the old status is not compared
  | some job => { w.setJob proofId (job.update u now) with history := w.history ++ [(proofId, u.status)] }

/-- `purge_sealed_job_payload`. -/
def purgeSealedJobPayload (w : World) (proofId : String) (now : ℚ) : World :=
  match w.proofJobs proofId with
  | none => w
  | some job => w.setJob proofId (job.purge now)

/-- `prune_terminal_job_runtime_data`. -/
def pruneTerminalJobRuntimeData (w : World) (olderThan now : ℚ) : World :=
  { w with proofJobs := fun id => (w.proofJobs id).map fun job => job.prune olderThan now }

/-- `upsert_dead_letter_job`. -/
def upsertDeadLetterJob (w : World) (input : DeadLetterInput) : World :=
  { w with deadLetterJobs :=
      -- one row for each job
      if w.deadLetterJobs.any (fun row => row.proofId = input.proofId) then
        w.deadLetterJobs.map fun row => if row.proofId = input.proofId then row.upsert input else row
      else w.deadLetterJobs ++ [.fresh (w.deadLetterJobs.length + 1) input] }

/-- `get_dead_letter_job`. -/
def getDeadLetterJob (w : World) (dlqId : ℕ) : Option DeadLetterJob := w.deadLetterJobs.find? fun row => row.id = dlqId

/-- `mark_dead_letter_job_requeued`. -/
def markDeadLetterJobRequeued (w : World) (dlqId : ℕ) (rerunProofId requestedBy : String) (reason : Option String) :
    World :=
  { w with deadLetterJobs := w.deadLetterJobs.map fun row =>
      if row.id = dlqId then row.requeue rerunProofId requestedBy reason else row }

/-- The statuses that were written to one job. -/
def historyOf (w : World) (proofId : String) : List JobStatus :=
  (w.history.filter fun p => p.1 = proofId).map Prod.snd

end World

end Vellum
