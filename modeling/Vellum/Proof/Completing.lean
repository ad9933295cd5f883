import Vellum.Proof.RunCalls
import Vellum.Proof.TaskCalls

/-!
# Deliveries that complete their job

A delivery completes its job in one write, behind every check. What it has been answered on the way
is told by the calls it makes.

* `mem_completeJob_iff`, `mem_proveJob_iff`, `mem_executeJob_iff`, `mem_deliverJob_iff`: the parts.
* `completing_iff`: what a delivery has done when it completes its job.
-/

namespace Vellum

open Prog

variable {S : WorkerSettings} {answer : Answers} {id : String} {u : JobUpdate}

/-- The call does not complete a job. -/
def NotCompleting (c : Call) : Prop := ∀ id u, c = .updateProofJob id u → u.status ≠ .completed

theorem mem_exec_await_bind {α : Type} {c d : Call} {f : d.Resp → Service α} (hcd : c ≠ d) :
    c ∈ ((await d >>= f).exec answer).1 ↔ ∃ r, answer d = .ok r ∧ c ∈ ((f r).exec answer).1 := by
  have hbind : c ∈ ((await d >>= f).exec answer).1 ↔ c ∈ [d] ∨ ∃ r, answer d = .ok r ∧ c ∈ ((f r).exec answer).1 :=
    mem_exec_bind
  rw [hbind, List.mem_singleton, or_iff_right hcd]

theorem mem_exec_check_bind {α β : Type} {c : Call} {r : Except PyExn α} {f : α → Service β} :
    c ∈ ((check r >>= f).exec answer).1 ↔ ∃ a, r = .ok a ∧ c ∈ ((f a).exec answer).1 := by
  have hbind : c ∈ ((check r >>= f).exec answer).1 ↔ c ∈ ([] : List Call) ∨ ∃ a, r = .ok a ∧
    c ∈ ((f a).exec answer).1 :=
    mem_exec_bind
  rw [hbind, or_iff_right List.not_mem_nil]

/-- The write of a completed job. -/
def completion (S : WorkerSettings) (id : String) (result : ProofResult)
    (patch : Option (List (String × Json))) : JobUpdate where
  status := .completed
  publicSignals := some result.publicSignals
  proof := some result.proof
  proofPath := some (S.proofOutputDir ++ "/" ++ id ++ ".json")
  metadataPatch := patch

variable {job : ProofJob} {attempts : AttemptMetadata}

/-- A handler completes nothing. -/
theorem FailureCall.notCompleting {proofId : String} {c : Call} (h : FailureCall proofId c) : NotCompleting c := by
  intro id u heq
  subst heq
  rw [h.2.1]
  decide

/-- A program of such calls does not complete the job. -/
theorem notMem_of_calls {α : Type} {p : Service α} (hp : p.Calls NotCompleting) (hu : u.status = .completed) :
    Call.updateProofJob id u ∉ (p.exec answer).1 :=
  fun hmem => exec_calls hp _ hmem id u rfl hu

theorem notMem_of_failure {α : Type} {p : Service α} (hp : p.Calls (FailureCall id)) (hu : u.status = .completed) :
    Call.updateProofJob id u ∉ (p.exec answer).1 :=
  notMem_of_calls (calls_mono (fun _ => FailureCall.notCompleting) hp) hu

theorem mem_completeJob_iff {result : ProofResult} {patch : Option (List (String × Json))}
    (hu : u.status = .completed) :
    Call.updateProofJob id u ∈ ((completeJob S id job result patch).exec answer).1 ↔
      (∃ r, answer (.writeProofFile (S.proofOutputDir ++ "/" ++ id ++ ".json") result.proof
        result.publicSignals) = .ok r) ∧
        u = completion S id result patch := by
  unfold completeJob
  refine (mem_exec_await_bind ?_).trans ?_
  · exact nofun
  rw [← exists_and_right]
  refine exists_congr fun r => and_congr_right fun _ => mem_exec_bind.trans ?_
  constructor
  · rintro (hmem | ⟨row, -, hmem⟩)
    · have heq := List.mem_singleton.1 hmem
      injection heq
    · -- the purge and the event complete nothing
      have hrest : (do
          await (.purgeSealedJobPayload id .completed)
          await (.appendEvent
            { proofId := some id
              circuitId := job.circuitId
              status := "completed"
              publicSignals := result.publicSignals
              proofPayload := some result.proof
              metadata := some (job.metadata.update (patch.getD [])).items
              error := none }) : Service Unit).Calls NotCompleting :=
        calls_bind (calls_await nofun) fun _ => calls_await nofun
      exact absurd hmem (notMem_of_calls hrest hu)
  · rintro rfl
    exact .inl (List.mem_singleton.2 rfl)

/-- The `try` body. -/
theorem mem_proveJob_iff {decrypted : Json} (hu : u.status = .completed) :
    Call.updateProofJob id u ∈ ((proveJob S id job decrypted).exec answer).1 ↔
      ∃ input, proverInput S job decrypted = .ok input ∧
      ∃ result, answer (.generate job.circuitId input) = .ok result ∧
      ∃ verified, answer (.verify job.circuitId result.proof result.publicSignals) = .ok verified ∧
      ∃ patch, completionPatch S job decrypted result.publicSignals verified = .ok patch ∧
      (∃ r, answer (.writeProofFile (S.proofOutputDir ++ "/" ++ id ++ ".json") result.proof
        result.publicSignals) = .ok r) ∧
        u = completion S id result patch := by
  unfold proveJob
  refine mem_exec_check_bind.trans (exists_congr fun input => and_congr_right fun _ => ?_)
  refine (mem_exec_await_bind ?_).trans (exists_congr fun result => and_congr_right fun _ => ?_)
  · exact nofun
  refine (mem_exec_await_bind ?_).trans (exists_congr fun verified => and_congr_right fun _ => ?_)
  · exact nofun
  exact mem_exec_check_bind.trans (exists_congr fun patch => and_congr_right fun _ => mem_completeJob_iff hu)

/-- A payload that cannot be decrypted raises, whether the security event is stored or not. -/
theorem unsealPayload_raises {sealedPayload : String} {e : PyExn}
    (h : answer (.unsealJobPayload sealedPayload) = .error e) :
    ∃ e', ((unsealPayload S id sealedPayload).exec answer).2 = .error e' := by
  cases hresult : ((unsealPayload S id sealedPayload).exec answer).2 with
  | error e' => exact ⟨e', rfl⟩
  | ok decrypted =>
    have hhandler : ((if e.isException = true then do
          recordSecurityEvent ⟨"payload_decrypt_failed", "error", some id, [("reason", .str (e.str S.repr))]⟩
          throw (.other "Unable to decrypt sealed job payload")
        else throw e : Service Json).exec answer).2 = .ok decrypted :=
      (exec_exceptException_of_error (exec_await_eq h)).symm.trans hresult
    by_cases he : e.isException = true
    · rw [if_pos he] at hhandler
      obtain ⟨_, -, hraise⟩ := exec_bind_ok.1 hhandler
      cases hraise
    · rw [if_neg he] at hhandler
      cases hhandler

/-- The `try` statement: a handler completes nothing. -/
theorem mem_executeJob_iff (hu : u.status = .completed) :
    Call.updateProofJob id u ∈ ((executeJob S id job attempts).exec answer).1 ↔
      ∃ sealedPayload decrypted, job.sealedJobPayload = some sealedPayload ∧
        answer (.unsealJobPayload sealedPayload) = .ok decrypted ∧
        Call.updateProofJob id u ∈ ((proveJob S id job decrypted).exec answer).1 := by
  unfold executeJob
  rw [mem_exec_andThen]
  cases hsealed : job.sealedJobPayload with
  | none =>
    constructor
    · rintro (hmem | hmem)
      · cases hmem
      · exact absurd hmem (notMem_of_failure (handleException_calls _) hu)
    · rintro ⟨_, _, h, -⟩
      cases h
  | some sealedPayload =>
    have hbody : ∀ decrypted, Call.updateProofJob id u ∈ (((proveJob S id job decrypted).tryCatch
        (handleException S id job attempts (some decrypted))).exec answer).1 ↔
          Call.updateProofJob id u ∈ ((proveJob S id job decrypted).exec answer).1 := by
      intro decrypted
      unfold Prog.tryCatch
      rw [mem_exec_andThen]
      refine or_iff_left ?_
      cases ((proveJob S id job decrypted).exec answer).2 with
      | error e => exact notMem_of_failure (handleException_calls e) hu
      | ok r => exact List.not_mem_nil
    have hunsealed : ∀ {decrypted}, answer (.unsealJobPayload sealedPayload) = .ok decrypted →
        ((unsealPayload S id sealedPayload).exec answer).2 = .ok decrypted := fun h =>
      exec_exceptException_of_ok (exec_await_eq h)
    constructor
    · rintro (hmem | hmem)
      · exact absurd hmem (notMem_of_failure unsealPayload_calls hu)
      · dsimp only at hmem
        cases hanswer : answer (.unsealJobPayload sealedPayload) with
        | error e =>
          obtain ⟨e', hraises⟩ := @unsealPayload_raises S answer id _ _ hanswer
          rw [hraises] at hmem
          exact absurd hmem (notMem_of_failure (handleException_calls _) hu)
        | ok decrypted =>
          rw [hunsealed hanswer] at hmem
          exact ⟨sealedPayload, decrypted, rfl, hanswer, (hbody decrypted).1 hmem⟩
    · rintro ⟨_, decrypted, hsame, hanswer, hmem⟩
      obtain rfl := Option.some.inj hsame
      right
      dsimp only
      rw [hunsealed hanswer]
      exact (hbody decrypted).2 hmem

/-- The write of a delivery that begins. -/
def starting (attempts : AttemptMetadata) : JobUpdate := { status := .running, metadataPatch := some attempts.patch }

/-- Its audit event. -/
def startedEvent (id : String) (job : ProofJob) : EventArgs where
  proofId := some id
  circuitId := job.circuitId
  status := "running"
  publicSignals := []
  proofPayload := none
  metadata := some job.metadata.items
  error := none

theorem mem_deliverJob_iff (hu : u.status = .completed) :
    Call.updateProofJob id u ∈ ((deliverJob S id job).exec answer).1 ↔
      (nextAttemptMetadata job.metadata S.maxAttempts).2 = false ∧
      ∃ row, answer (.updateProofJob id (starting (nextAttemptMetadata job.metadata S.maxAttempts).1)) = .ok row ∧
      (∃ r, answer (.appendEvent (startedEvent id (row.getD job))) = .ok r) ∧
      Call.updateProofJob id u ∈
        ((executeJob S id (row.getD job) (nextAttemptMetadata job.metadata S.maxAttempts).1).exec answer).1 := by
  unfold deliverJob
  generalize nextAttemptMetadata job.metadata S.maxAttempts = next
  obtain ⟨attempts, exceeded⟩ := next
  cases exceeded with
  | true =>
    constructor
    · exact fun hmem => absurd hmem (notMem_of_failure maxAttemptsExceeded_calls hu)
    · rintro ⟨h, -⟩
      cases h
  | false =>
    have hne : Call.updateProofJob id u ≠ .updateProofJob id (starting attempts) := by
      intro heq
      injection heq with _ heq
      rw [heq] at hu
      cases hu
    have hstep : Call.updateProofJob id u ∈ ((do
        let row ← await (.updateProofJob id (starting attempts))
        await (.appendEvent (startedEvent id (row.getD job)))
        executeJob S id (row.getD job) attempts : Service Unit).exec answer).1 ↔
          ∃ row, answer (.updateProofJob id (starting attempts)) = .ok row ∧
            (∃ r, answer (.appendEvent (startedEvent id (row.getD job))) = .ok r) ∧
            Call.updateProofJob id u ∈ ((executeJob S id (row.getD job) attempts).exec answer).1 := by
      refine (mem_exec_await_bind hne).trans (exists_congr fun row => and_congr_right fun _ => ?_)
      refine (mem_exec_await_bind ?_).trans ?_
      · exact nofun
      · exact exists_and_right
    exact hstep.trans ⟨fun h => ⟨rfl, h⟩, fun h => h.2⟩

/-- A delivery writes the job as completed. -/
def Completing (S : WorkerSettings) (id : String) (answer : Answers) (u : JobUpdate) : Prop :=
  Call.updateProofJob id u ∈ ((processProofJob S id).exec answer).1 ∧ u.status = .completed

/-- **What a delivery that completes its job has done.** -/
theorem completing_iff : Completing S id answer u ↔ u.status = .completed ∧ (∃ r, answer .initModels = .ok r) ∧
    ∃ job, answer (.getProofJob id) = .ok (some job) ∧ job.status.terminal = false ∧
      Call.updateProofJob id u ∈ ((deliverJob S id job).exec answer).1 := by
  unfold Completing processProofJob
  rw [and_comm]
  refine and_congr_right fun hu => ?_
  refine (mem_exec_await_bind ?_).trans ?_
  · exact nofun
  rw [← exists_and_right]
  refine exists_congr fun r => and_congr_right fun _ => ?_
  refine (mem_exec_await_bind ?_).trans ?_
  · exact nofun
  constructor
  · rintro ⟨row, hrow, hmem⟩
    cases row with
    | none => cases hmem
    | some job =>
      cases hterm : job.status.terminal with
      | true =>
        simp only [hterm, if_true] at hmem
        cases hmem
      | false =>
        simp only [hterm, Bool.false_eq_true, if_false] at hmem
        exact ⟨job, hrow, hterm, hmem⟩
  · rintro ⟨job, hjob, hterm, hmem⟩
    refine ⟨some job, hjob, ?_⟩
    simp only [hterm, Bool.false_eq_true, if_false]
    exact hmem

end Vellum
