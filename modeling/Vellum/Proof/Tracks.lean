import Vellum.Proof.TaskCalls

/-!
# What a program has written of one job

Seen from one job, a program has read its policy or not, and has completed it or not. What it
writes to the row keeps the policy, and the completed event it appends is of its own completion.

* `Track`: what a program knows and has written of one job.
* `task_tracked`: all tasks of the services.
-/

namespace Vellum

open Prog

variable {S : WorkerSettings} {sha256 : String → String} {id : String}

/-! ## A program as seen from one job -/

/-- What a program knows of the job: the policy of the row, once it has read it, and the proof
and the signals it has completed it with. -/
structure Track where
  seen : Option (Option String)
  wrote : Option (Json × List Json)

/-- At the start. -/
def Track.blind : Track := ⟨none, none⟩

/-- The track after a write of the job. -/
def Track.write (u : JobUpdate) (t : Track) : Track :=
  match u.status, u.proof, u.publicSignals with
  | .completed, some proof, some signals => { t with wrote := some (proof, signals) }
  | _, _, _ => t

/-- A call of the program: a row it gets is of the policy it has seen. -/
def TrackSem (id : String) (c : Call) (t : Track) (a : Except PyExn c.Resp) (t' : Track) : Prop :=
  match c, a with
  | .getProofJob proofId, .ok (some job) => t' = if proofId = id then { t with seen := some (policyIdOf job) } else t
  | .updateProofJob proofId u, .ok row => if proofId = id
      then t' = t.write u ∧ ∃ job, row = some job ∧ t.seen = some (policyIdOf job)
      else t' = t
  | _, _ => t' = t

/-- A write of a job leaves its policy alone, and its completion has a proof and signals. -/
structure WritesJob (u : JobUpdate) (policy : Option String) : Prop where
  key : "policy_id" ∉ (u.metadataPatch.getD []).map Prod.fst
  result : u.status = .completed → ∃ proof signals, u.proof = some proof ∧ u.publicSignals = some signals
  patch : u.status = .completed → CompletionPatch policy u.metadataPatch

/-- The completed event of the job comes from the program that has completed it. -/
def TrackOk (id : String) (c : Call) (t : Track) : Prop :=
  match c with
  | .updateProofJob proofId u => proofId = id → ∃ policy, t.seen = some policy ∧ WritesJob u policy
  | .appendEvent args => args.proofId = some id → args.status = "completed" →
      ∃ proof, args.proofPayload = some proof ∧ t.wrote = some (proof, args.publicSignals)
  | .createProofJob new => new.status = .queued
  | _ => True

/-- The program has read the row, and its policy. -/
def Track.Knows (policy : Option String) (t : Track) : Prop := t.seen = some policy

/-- A program that keeps to this, with what holds of its track at the end. -/
abbrev Tracked {α : Type} (id : String) (Q : Track → Prop) (p : Service α) (t : Track) : Prop :=
  p.Safe (TrackSem id) (TrackOk id) (fun _ t' => Q t') t

theorem Track.Knows.write {policy : Option String} {t : Track} (h : t.Knows policy) (u : JobUpdate) :
    (t.write u).Knows policy := by
  unfold Track.write
  split <;> exact h

section

variable {α : Type} {Q : Track → Prop} {t : Track} {policy : Option String}

/-- A call that is neither a read nor a write of the job. -/
theorem tracked_await_bind {c : Call} {f : c.Resp → Service α} (hok : TrackOk id c t)
    (hsem : ∀ {a t'}, TrackSem id c t a t' → t' = t) (hQ : Q t) (hf : ∀ r, Tracked id Q (f r) t) :
    Tracked id Q (await c >>= f) t := by
  refine safe_await_bind hok (fun r t' hs => ?_) fun e t' hs => ?_
  · rw [hsem hs]
    exact hf r
  · rw [hsem hs]
    exact hQ

/-- A write of the job. -/
theorem tracked_update_bind {u : JobUpdate} {f : Option ProofJob → Service α} (ht : t.Knows policy)
    (hu : WritesJob u policy) (hQ : Q t) (hf : ∀ job, policyIdOf job = policy → Tracked id Q (f (some job))
      (t.write u)) :
    Tracked id Q (await (.updateProofJob id u) >>= f) t := by
  refine safe_await_bind (fun _ => ⟨policy, ht, hu⟩) (fun row t' hs => ?_) fun e t' hs => ?_
  · have hs' : if id = id then t' = t.write u ∧ ∃ job, row = some job ∧ t.seen = some (policyIdOf job) else t' = t := hs
    rw [if_pos rfl] at hs'
    obtain ⟨rfl, job, rfl, hseen⟩ := hs'
    exact hf job (Option.some.inj (hseen.symm.trans ht))
  · have hsame : t' = t := hs
    rwa [hsame]

/-! ## Each task -/

/-- Writes of a status other than `completed`. -/
theorem writesJob_of_ne {u : JobUpdate} (hu : u.status ≠ .completed)
    (hkey : "policy_id" ∉ (u.metadataPatch.getD []).map Prod.fst) : WritesJob u policy :=
  ⟨hkey, fun h => absurd h hu, fun h => absurd h hu⟩

theorem trackOk_event {args : EventArgs} (h : args.status ≠ "completed") : TrackOk id (.appendEvent args) t :=
  fun _ hstatus => absurd hstatus h

theorem recordFailure_tracked {job : ProofJob} {attempts : AttemptMetadata} {decrypted : Option Json} {site : Site}
    {reason error : String} (ht : t.Knows policy) :
    Tracked id (Track.Knows policy) (recordFailure S id job attempts decrypted site reason error) t := by
  unfold recordFailure
  refine tracked_update_bind ht (writesJob_of_ne nofun (by simp [AttemptMetadata.patch])) ht fun failedJob _ => ?_
  refine tracked_await_bind trivial (fun h => h) (ht.write _) fun _ => ?_
  refine tracked_await_bind (trackOk_event (by simp [failedEvent])) (fun h => h) (ht.write _) fun _ => ?_
  refine safe_await (.upsertDeadLetterJob _) trivial fun a t' hs => ?_
  have hsame : t' = t.write _ := hs
  rw [hsame]
  exact ht.write _

theorem handleException_tracked {job : ProofJob} {attempts : AttemptMetadata} {decrypted : Option Json} (exc : PyExn)
    (ht : t.Knows policy) : Tracked id (Track.Knows policy) (handleException S id job attempts decrypted exc) t :=
  safe_handler (P := Track.Knows policy) exc (fun _ => ht) fun _ => recordFailure_tracked ht

theorem completeJob_tracked {job : ProofJob} {result : ProofResult} {patch : Option (List (String × Json))}
    (ht : t.Knows policy) (hpatch : CompletionPatch policy patch) (hkey : "policy_id" ∉ (patch.getD []).map Prod.fst) :
    Tracked id (Track.Knows policy) (completeJob S id job result patch) t := by
  unfold completeJob
  refine tracked_await_bind trivial (fun h => h) ht fun _ => ?_
  refine tracked_update_bind ht ⟨hkey, fun _ => ⟨_, _, rfl, rfl⟩, fun _ => hpatch⟩ ht fun _ _ => ?_
  refine tracked_await_bind trivial (fun h => h) (ht.write _) fun _ => ?_
  refine safe_await (.appendEvent _) (fun _ _ => ⟨result.proof, rfl, rfl⟩) fun a t' hs => ?_
  have hsame : t' = t.write _ := hs
  rw [hsame]
  exact ht.write _

theorem proveJob_tracked {job : ProofJob} {decrypted : Json} (ht : t.Knows (policyIdOf job)) :
    Tracked id (Track.Knows (policyIdOf job)) (proveJob S id job decrypted) t := by
  unfold proveJob
  refine safe_check_bind (fun privateInput _ => ?_) fun _ _ => ht
  refine tracked_await_bind trivial (fun h => h) ht fun result => ?_
  refine tracked_await_bind trivial (fun h => h) ht fun verified => ?_
  refine safe_check_bind (fun patch hpatch => ?_) fun _ _ => ht
  obtain ⟨hpolicy, hkey⟩ := completionPatch_ok hpatch
  exact completeJob_tracked ht hpolicy hkey

theorem unsealPayload_tracked {sealedPayload : String} (ht : t.Knows policy) :
    Tracked id (Track.Knows policy) (unsealPayload S id sealedPayload) t := by
  refine safe_unsealPayload trivial (fun a t' hs => ?_) (fun _ _ _ _ => trivial) fun e event a t' t'' ht' hs => ?_
  · have hsame : t' = t := hs
    rwa [hsame]
  · have hsame : t'' = t' := hs
    rw [hsame]
    exact ⟨fun _ _ => ht', ht'⟩

theorem executeJob_tracked {job : ProofJob} {attempts : AttemptMetadata} (ht : t.Knows (policyIdOf job)) :
    Tracked id (Track.Knows (policyIdOf job)) (executeJob S id job attempts) t := by
  have hproved : ∀ {t : Track} (decrypted : Json), t.Knows (policyIdOf job) →
      (proveJob S id job decrypted).Safe (TrackSem id) (TrackOk id) (fun _ t => t.Knows (policyIdOf job)) t :=
    fun _ ht' => proveJob_tracked ht'
  exact safe_try ht (fun _ => unsealPayload_tracked ht) (fun ht' => ht') hproved (fun ht' => ht') (fun ht' => ht')
    fun _ exc ht' => handleException_tracked exc ht'

theorem deliverJob_tracked {job : ProofJob} (ht : t.Knows (policyIdOf job)) :
    Tracked id (fun _ => True) (deliverJob S id job) t := by
  unfold deliverJob
  generalize nextAttemptMetadata job.metadata S.maxAttempts = next
  obtain ⟨attempts, exceeded⟩ := next
  cases exceeded with
  | true =>
    unfold maxAttemptsExceeded
    refine tracked_update_bind ht (writesJob_of_ne (by simp) (by simp [AttemptMetadata.patch])) trivial
      fun failedJob _ => ?_
    refine tracked_await_bind (trackOk_event (by simp [failedEvent])) (fun h => h) trivial fun _ => ?_
    refine tracked_await_bind (c := .upsertDeadLetterJob _) trivial (fun h => h) trivial fun _ => ?_
    exact safe_await (.purgeSealedJobPayload id .maxAttempts) trivial fun _ _ _ => trivial
  | false =>
    refine tracked_update_bind ht (writesJob_of_ne (by simp) (by simp [AttemptMetadata.patch])) trivial
      fun job' hjob' => ?_
    refine tracked_await_bind (trackOk_event (by simp)) (fun h => h) trivial fun _ => ?_
    -- the row the write has answered is the one of the rest
    have ht' : (t.write { status := .running, metadataPatch := some attempts.patch }).Knows (policyIdOf job') := by
      rw [hjob']
      exact ht.write _
    exact safe_mono (fun _ _ _ => trivial) (executeJob_tracked ht')

theorem processProofJob_tracked : Tracked id (fun _ => True) (processProofJob S id) .blind := by
  rw [processProofJob_eq]
  refine tracked_await_bind trivial (fun h => h) trivial fun _ => ?_
  refine safe_await_bind trivial (fun row t' hs => ?_) fun _ _ _ => trivial
  refine safe_gate (fun _ => trivial) fun job hjob _ => ?_
  rw [hjob] at hs
  have hseen : t' = if id = id then { Track.blind with seen := some (policyIdOf job) } else .blind := hs
  rw [if_pos rfl] at hseen
  rw [hseen]
  exact deliverJob_tracked rfl

/-- **Every program of the services is tracked.** -/
theorem task_tracked (task : Task) : Tracked id (fun _ => True) (task.prog S sha256) .blind := by
  have hrequest : task.isRequest = true → Tracked id (fun _ => True) (task.prog S sha256) .blind := by
    intro h
    refine safe_of_calls_everywhere (request_calls h) (fun c t hc => ?_) (fun _ _ => trivial) _
    cases c with
    | updateProofJob => exact False.elim hc
    | createProofJob new => exact hc
    | appendEvent args =>
      apply trackOk_event
      intro hstatus
      have hc' : args.status ∈ ["queued", "rerun_triggered"] := hc
      rw [hstatus] at hc'
      simp at hc'
    | _ => trivial
  cases task with
  | submit => exact hrequest rfl
  | requeue => exact hrequest rfl
  | maintain => exact hrequest rfl
  | deliver proofId =>
    by_cases hid : proofId = id
    · subst hid
      exact processProofJob_tracked
    · -- it writes another job
      refine safe_of_calls_everywhere processProofJob_calls (fun c t hc => ?_) (fun _ _ => trivial) _
      cases c with
      | updateProofJob proofId' u => exact fun h => absurd (hc.1.symm.trans h) hid
      | appendEvent args => exact fun h => absurd (Option.some.inj (hc.1.symm.trans h)) hid
      | createProofJob => exact False.elim hc
      | _ => trivial

end

end Vellum
