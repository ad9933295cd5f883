import Vellum.Lib.Prog
import Vellum.Spec.Database
import Vellum.Spec.DualTrack

/-!
# The calls of the services

Every call that the prover, the worker and the policy engine await, what it answers, and what
it does to the database and the queue. A call that raises may have done its work before: the
methods of the database commit, and then refresh the row. What Vault, the provider and the
evidence store answer is left open.
-/

namespace Vellum

/-- `ProviderProofResult`. -/
structure ProofResult where
  proof : Json
  publicSignals : List Json

/-- Where in a delivery a purge stands; nothing in the program reads it. -/
inductive Site where
  | maxAttempts | completed | softTimeLimit | runtimeException
deriving DecidableEq, Repr

/-- The arguments of `AttestationService.create`. -/
structure AttestationInput where
  attestationId : String
  runId : String
  policyId : String
  policyVersion : String
  circuitId : String
  decision : PolicyDecision
  proof : Json
  publicSignals : List Json
  metadata : List (String × Json)

/-- The awaited calls. -/
inductive Call where
  | initModels
  | getProofJob (proofId : String)
  | createProofJob (new : NewJob)
  | updateProofJob (proofId : String) (u : JobUpdate)
  | purgeSealedJobPayload (proofId : String) (site : Site)
  | pruneTerminalJobRuntimeData (olderThan : ℚ)
  | getDeadLetterJob (dlqId : ℕ)
  | upsertDeadLetterJob (input : DeadLetterInput)
  | markDeadLetterJobRequeued (dlqId : ℕ) (rerunProofId requestedBy : String) (reason : Option String)
  | appendEvent (args : EventArgs)
  | appendSecurityEvent (event : SecurityEvent)
  | enqueue (proofId : String)
  | unsealJobPayload (sealedPayload : String)
  | generate (circuitId : String) (privateInput : Json)
  | verify (circuitId : String) (proof : Json) (publicSignals : List Json)
  | writeProofFile (path : String) (proof : Json) (publicSignals : List Json)
  | putEvidence (runId : String) (payload : Json)
  | getEvidence (reference : String)
  | createAttestation (input : AttestationInput)

namespace Call

/-- What a call answers; the results nobody uses are left out. -/
def Resp : Call → Type
  | .getProofJob _ | .updateProofJob .. => Option ProofJob
  | .getDeadLetterJob _ => Option DeadLetterJob
  | .unsealJobPayload _ | .getEvidence _ => Json
  | .generate .. => ProofResult
  | .verify .. => Bool
  | .putEvidence .. => String
  | _ => Unit

/-- What a call does. -/
def effect (now : ℚ) : Call → World → World
  | .createProofJob new, w => w.createProofJob new now
  | .updateProofJob proofId u, w => w.updateProofJob proofId u now
  | .purgeSealedJobPayload proofId _, w => w.purgeSealedJobPayload proofId now
  | .pruneTerminalJobRuntimeData olderThan, w => w.pruneTerminalJobRuntimeData olderThan now
  | .upsertDeadLetterJob input, w => w.upsertDeadLetterJob input
  | .markDeadLetterJobRequeued dlqId rerunProofId requestedBy reason, w =>
    w.markDeadLetterJobRequeued dlqId rerunProofId requestedBy reason
  | .appendEvent args, w => { w with auditEvents := w.auditEvents ++ [args] }
  | .appendSecurityEvent event, w => { w with securityEvents := w.securityEvents ++ [event] }
  | .enqueue proofId, w => { w with queue := w.queue ++ [proofId] }
  | _, w => w

/-- What a call may answer: rows as they are in the database before (a read) or after it (an
update), and the primary key of a new job must be free. -/
def Replies (w w' : World) : (c : Call) → c.Resp → Prop
  -- a read answers the row before it, an update the row it has written
  | .getProofJob proofId, r => r = w.proofJobs proofId
  | .updateProofJob proofId _, r => r = w'.proofJobs proofId
  | .createProofJob new, _ => w.proofJobs new.proofId = none
  | .getDeadLetterJob dlqId, r => r = w.getDeadLetterJob dlqId
  | _, _ => True

/-- The call does its work at some time, with an answer. -/
def Done (c : Call) (w : World) (r : c.Resp) (w' : World) : Prop := ∃ now, w' = c.effect now w ∧ c.Replies w w' r

/-- **The semantics of a call.** What it raises, it raises before its work or after it. -/
def Sem (c : Call) (w : World) (a : Except PyExn c.Resp) (w' : World) : Prop :=
  match a with
  | .ok r => c.Done w r w'
  | .error _ => w' = w ∨ ∃ r, c.Done w r w'

end Call

/-- A program of the services. -/
abbrev Service (α : Type) := Prog Call.Resp PyExn α

/-- Await a call. -/
def await (c : Call) : Service c.Resp := Prog.call c

/-- A computation that may raise. -/
def check {α : Type} (r : Except PyExn α) : Service α := Prog.lift r

/-- `try: ... except Exception as exc: ...`. -/
def exceptException {α : Type} (p : Service α) (handler : PyExn → Service α) : Service α :=
  p.tryCatch fun exc => if exc.isException then handler exc else throw exc

/-- `SecurityEventLogger.record`: a failure to persist does not break the caller. -/
def recordSecurityEvent (event : SecurityEvent) : Service Unit :=
  exceptException (await (.appendSecurityEvent event)) fun _ => pure ()

end Vellum
