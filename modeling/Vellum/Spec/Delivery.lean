import Vellum.Lib.Broker
import Vellum.Spec.System

/-!
# Deliveries of task messages

The services with their queue as `celery_app.py` configures it (`task_acks_late`,
`task_reject_on_worker_lost`): a task message is removed when its delivery returns or raises,
and delivered again when the worker is lost. The settings of the worker, with its circuit and
policy registries, may differ from one delivery to the next.
-/

namespace Vellum

/-- Everything that is not a delivery. -/
def Task.isRequest : Task → Bool
  | .deliver _ => false
  | _ => true

/-- The queue without the message of a job. -/
def World.ackTask (proofId : String) (w : World) : World := { w with queue := w.queue.filter (· ≠ proofId) }

/-- **The broker of the services.** A message is the id of its job. -/
def serviceBroker (settings : Set WorkerSettings) (sha256 : String → String) :
    BrokerConfig World Call.Resp PyExn Unit String where
  sem := Call.Sem
  requests := {p | ∃ S ∈ settings, ∃ task, Task.isRequest task = true ∧ p = task.prog S sha256}
  handlers := fun proofId => {p | ∃ S ∈ settings, p = processProofJob S proofId}
  pending := fun w proofId => proofId ∈ w.queue
  remove := World.ackTask

/-- The state of the services. -/
abbrev Services := Broker World Call.Resp PyExn Unit String

end Vellum
