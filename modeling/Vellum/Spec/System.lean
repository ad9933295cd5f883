import Vellum.Spec.Prover
import Vellum.Spec.Worker

/-!
# The system of services

Submissions, requeues, deliveries and maintenance cycles, in any number and overlapping, over
one database and queue.
-/

namespace Vellum

/-- What may be started at any time. A message of the queue may be delivered again while an
earlier delivery is in progress, so a delivery does not ask for one. -/
inductive Task where
  | submit (proofId circuitId : String) (requestPayload : Json) (sourceMode sealedPayload : String)
      (metadata : Dict Json)
  | requeue (request : RequeueRequest)
  | deliver (proofId : String)
  | maintain (pruneCutoff : ℚ)

/-- The program of a task; a response goes to the client. -/
def Task.prog (S : WorkerSettings) (sha256 : String → String) : Task → Service Unit
  | .submit proofId circuitId requestPayload sourceMode sealedPayload metadata =>
    persistAndEnqueueJob sha256 proofId circuitId requestPayload sourceMode sealedPayload metadata
  | .requeue request => do let _ ← requeueDeadLetterJob sha256 S.repr request
  | .deliver proofId => processProofJob S proofId
  | .maintain pruneCutoff => runMaintenanceCycle pruneCutoff

/-- The state of the system. -/
abbrev System := Pool World Call.Resp PyExn Unit

/-- Nothing stored, nothing in progress. -/
def System.init : System := ⟨.empty, fun _ => none⟩

/-- **A step of the system** that meets a condition. -/
def SystemStep (S : WorkerSettings) (sha256 : String → String)
    (Cond : System → Act Call.Resp PyExn Unit → System → Prop) (s s' : System) : Prop :=
  ∃ act, Pool.Step Call.Sem (Set.range (Task.prog S sha256)) s act s' ∧ Cond s act s'

end Vellum
