import Vellum.Proof.JobLifecycle
import Vellum.Spec.Delivery

/-!
# The calls of each task

* `processProofJob_calls`: a delivery writes its own job only.
* `request_calls`: a request creates queued jobs and enqueues, and writes no status.
* `DemoSetup.ended_run`: the submission of a job, then its delivery.
-/

namespace Vellum

open Prog Broker

/-! ## Deliveries -/

/-- The update leaves the policy of a job alone. -/
def KeepsPolicyId (u : JobUpdate) : Prop := "policy_id" ∉ (u.metadataPatch.getD []).map Prod.fst

/-- The calls of a delivery. -/
def DeliveryCall (proofId : String) : Call → Prop
  | .initModels | .unsealJobPayload _ | .generate .. | .verify .. | .writeProofFile .. | .appendSecurityEvent _
  | .upsertDeadLetterJob _ => True
  | .getProofJob id | .purgeSealedJobPayload id _ => id = proofId
  | .updateProofJob id u => id = proofId ∧ u.status ≠ .queued ∧ KeepsPolicyId u
  | .appendEvent args => args.proofId = some proofId ∧ args.status ∈ ["running", "completed", "failed"]
  | _ => False

/-- Those that fail the job. -/
def FailureCall (proofId : String) : Call → Prop
  | .unsealJobPayload _ | .appendSecurityEvent _ | .upsertDeadLetterJob _ => True
  | .purgeSealedJobPayload id _ => id = proofId
  | .updateProofJob id u => id = proofId ∧ u.status = .failed ∧ KeepsPolicyId u
  | .appendEvent args => args.proofId = some proofId ∧ args.status = "failed"
  | _ => False

variable {S : WorkerSettings} {proofId : String} {job : ProofJob} {attempts : AttemptMetadata}

theorem FailureCall.delivery {c : Call} (h : FailureCall proofId c) : DeliveryCall proofId c := by
  cases c with
  | updateProofJob id u =>
    refine ⟨h.1, ?_, h.2.2⟩
    rw [h.2.1]
    decide
  | appendEvent args =>
    refine ⟨h.1, ?_⟩
    rw [h.2]
    decide
  | purgeSealedJobPayload id site => exact h
  | unsealJobPayload | appendSecurityEvent | upsertDeadLetterJob => trivial
  | _ => exact False.elim h

theorem calls_await {P : Call → Prop} {c : Call} (h : P c) : (await c).Calls P := ⟨h, fun _ => trivial⟩

theorem calls_check {α : Type} {P : Call → Prop} (r : Except PyExn α) : (check r).Calls P := trivial

theorem calls_check_bind {α β : Type} {P : Call → Prop} {r : Except PyExn α} {f : α → Service β}
    (h : ∀ a, r = .ok a → (f a).Calls P) : (check r >>= f).Calls P := by
  cases r with
  | error e => trivial
  | ok a => exact h a rfl

/-- `except Exception`: what the body and the handler do. -/
theorem calls_exceptException {α : Type} {P : Call → Prop} {p : Service α} {handler : PyExn → Service α}
    (hp : p.Calls P) (hhandler : ∀ exc, (handler exc).Calls P) : (exceptException p handler).Calls P := by
  refine calls_tryCatch hp fun exc => ?_
  split_ifs
  · exact hhandler exc
  · trivial

theorem recordFailure_calls {decrypted : Option Json} {site : Site} {reason error : String} :
    (recordFailure S proofId job attempts decrypted site reason error).Calls (FailureCall proofId) := by
  unfold recordFailure
  refine calls_bind (calls_await ⟨rfl, rfl, by simp [KeepsPolicyId, AttemptMetadata.patch]⟩) fun failedJob => ?_
  refine calls_bind (calls_await rfl) fun _ => ?_
  refine calls_bind (calls_await ⟨rfl, rfl⟩) fun _ => ?_
  exact calls_await trivial

theorem handleException_calls {decrypted : Option Json} (exc : PyExn) :
    (handleException S proofId job attempts decrypted exc).Calls (FailureCall proofId) := by
  cases exc with
  | cancelled => trivial
  | softTimeLimitExceeded => exact calls_bind recordFailure_calls fun _ => trivial
  | framework _ | api _ | other _ => exact calls_bind recordFailure_calls fun _ => trivial

/-- The metadata that the completion of a run of a policy writes. -/
def CompletionPatch (policy : Option String) (patch : Option (List (String × Json))) : Prop :=
  policy.isSome = true → ∃ version, ∃ decision : PolicyDecision,
    patch = some [("policy_version", .str version), ("decision", .str decision.text)]

/-- The patch of a completed job is the one of its policy. -/
theorem completionPatch_ok {decrypted : Json} {signals : List Json} {verified : Bool}
    {patch : Option (List (String × Json))} (h : completionPatch S job decrypted signals verified = .ok patch) :
    CompletionPatch (policyIdOf job) patch ∧ "policy_id" ∉ (patch.getD []).map Prod.fst := by
  unfold completionPatch at h
  cases hpolicy : policyIdOf job with
  | none =>
    rw [hpolicy] at h
    obtain rfl := Except.ok.inj h
    exact ⟨nofun, nofun⟩
  | some policyId =>
    rw [hpolicy] at h
    obtain ⟨entries, hentries, rfl⟩ := map_ok.1 h
    unfold dualTrackPatch at hentries
    cases hm : S.policies policyId with
    | none =>
      rw [hm] at hentries
      cases hentries
    | some manifest =>
      simp only [hm, bind_ok, pure_ok] at hentries
      obtain ⟨manifest, -, ⟨decision, outputs⟩, -, circuit, -, -, -, rfl⟩ := hentries
      exact ⟨fun _ => ⟨_, _, rfl⟩, by simp⟩

/-! What a delivery computes raises no cancellation. -/

abbrev RaisesException {α : Type} (x : Except PyExn α) : Prop := Raises (fun e => e.isException = true) x

theorem raises_ok_bind {α β : Type} {P : PyExn → Prop} {a : α} {f : α → Except PyExn β} (h : Raises P (f a)) :
    Raises P (Except.ok a >>= f) := h

theorem proverInput_raises (decrypted : Json) : RaisesException (proverInput S job decrypted) := by
  unfold proverInput
  dsimp only
  split
  · refine raises_ok_bind ?_
    split
    · refine raises_ok_bind ?_
      split_ifs
      · refine raises_bind (raises_mapError fun _ => rfl) fun privateInput => ?_
        split
        · exact raises_ok_bind (raises_bind (raises_mapError fun _ => rfl) fun _ => raises_ok)
        · exact raises_error rfl
      · refine raises_ok_bind ?_
        split
        · exact raises_ok_bind (raises_bind (raises_mapError fun _ => rfl) fun _ => raises_ok)
        · exact raises_error rfl
    · exact raises_error rfl
  · exact raises_error rfl

theorem signalAt_raises {policyId outputName : String} {signalIndex : ℤ} {signals : List Json} :
    RaisesException (signalAt policyId outputName signalIndex signals) := by
  unfold signalAt
  split
  · exact raises_ok
  · exact raises_error rfl

theorem normalizeSignalValue_raises {repr : Json → String} {outputName : String} {value : Json} {t : ValueType} :
    RaisesException (normalizeSignalValue repr outputName value t) := by
  cases t with
  | int =>
    unfold normalizeSignalValue
    cases value with
    | bool b => exact raises_error rfl
    | _ =>
      dsimp only
      split
      · exact raises_ok
      · exact raises_error rfl
  | bool =>
    unfold normalizeSignalValue
    dsimp only
    split_ifs
    · exact raises_ok
    · exact raises_ok
    · exact raises_error rfl
  | string => exact raises_ok

theorem pyIntOf_raises {repr : Json → String} {value : Json} : RaisesException (pyIntOf repr value) := by
  unfold pyIntOf
  split
  · exact raises_ok
  · exact raises_ok
  · split
    · exact raises_ok
    · exact raises_error rfl
    · exact raises_error rfl
  · split
    · exact raises_ok
    · exact raises_error rfl
  · exact raises_error rfl
  · exact raises_error rfl
  · exact raises_error rfl

theorem evaluateCircuitTrack_raises {repr : Json → String} {policyId : String} {attestation : Dict Json}
    {outputs : Dict DifferentialOutputSpec} {signals : List Json} {verified : Bool} :
    RaisesException (evaluateCircuitTrack repr policyId attestation outputs signals verified) := by
  unfold evaluateCircuitTrack circuitDecision circuitOutputs
  refine raises_bind ?_ fun decision => raises_bind (raises_mapM (fun output => ?_) _) fun outputs => raises_ok
  · split_ifs
    · exact raises_bind pyIntOf_raises fun index => raises_bind signalAt_raises fun signal => raises_ok
    · exact raises_ok
  · exact raises_bind signalAt_raises fun raw => raises_bind normalizeSignalValue_raises fun value => raises_ok

theorem sealedReference_raises (decrypted : Json) : RaisesException (sealedReference decrypted) := by
  unfold sealedReference
  dsimp only
  split
  · refine raises_ok_bind ?_
    split
    case h_1 | h_2 =>
      refine raises_ok_bind ?_
      split
      · exact raises_ok
      · exact raises_error rfl
    all_goals exact raises_error rfl
  · exact raises_error rfl

theorem completionPatch_raises (decrypted : Json) (signals : List Json) (verified : Bool) :
    RaisesException (completionPatch S job decrypted signals verified) := by
  unfold completionPatch
  split
  · refine raises_map ?_
    unfold dualTrackPatch
    dsimp only
    split
    · refine raises_ok_bind (raises_bind (sealedReference_raises decrypted) ?_)
      rintro ⟨decision, outputs⟩
      refine raises_bind evaluateCircuitTrack_raises fun circuit => raises_bind ?_ fun _ => raises_ok
      unfold assertDualTrackConsistency
      split_ifs
      · exact raises_error rfl
      · exact raises_ok
    · exact raises_error rfl
  · exact raises_ok

theorem completionPatch_keys {decrypted : Json} {signals : List Json} {verified : Bool}
    {patch : Option (List (String × Json))} (h : completionPatch S job decrypted signals verified = .ok patch) :
    ∀ key ∈ (patch.getD []).map Prod.fst, key = "policy_version" ∨ key = "decision" := by
  cases hpolicy : policyIdOf job with
  | none =>
    unfold completionPatch at h
    rw [hpolicy] at h
    obtain rfl := Except.ok.inj h
    exact fun _ hkey => nomatch hkey
  | some policyId =>
    obtain ⟨version, decision, rfl⟩ := (completionPatch_ok h).1 (by rw [hpolicy]; rfl)
    intro key hkey
    simpa using hkey

theorem completeJob_calls {result : ProofResult} {patch : Option (List (String × Json))}
    (hpatch : "policy_id" ∉ (patch.getD []).map Prod.fst) :
    (completeJob S proofId job result patch).Calls (DeliveryCall proofId) := by
  unfold completeJob
  refine calls_bind (calls_await trivial) fun _ => ?_
  refine calls_bind (calls_await ⟨rfl, nofun, hpatch⟩) fun _ => ?_
  refine calls_bind (calls_await rfl) fun _ => ?_
  exact calls_await ⟨rfl, by simp⟩

theorem proveJob_calls {decrypted : Json} : (proveJob S proofId job decrypted).Calls (DeliveryCall proofId) := by
  unfold proveJob
  refine calls_bind (calls_check _) fun privateInput => ?_
  refine calls_bind (calls_await trivial) fun result => ?_
  refine calls_bind (calls_await trivial) fun verified => ?_
  exact calls_check_bind fun patch hpatch => completeJob_calls (completionPatch_ok hpatch).2

theorem unsealPayload_calls {sealedPayload : String} :
    (unsealPayload S proofId sealedPayload).Calls (FailureCall proofId) := by
  unfold unsealPayload
  refine calls_exceptException (calls_await trivial) fun exc => ?_
  exact calls_bind (calls_exceptException (calls_await trivial) fun _ => trivial) fun _ => trivial

theorem executeJob_calls : (executeJob S proofId job attempts).Calls (DeliveryCall proofId) := by
  unfold executeJob
  refine calls_andThen ?_ ?_
  · cases job.sealedJobPayload with
    | none => trivial
    | some sealedPayload => exact calls_mono (fun _ => FailureCall.delivery) unsealPayload_calls
  · have hhandler : ∀ decrypted exc,
        (handleException S proofId job attempts decrypted exc).Calls (DeliveryCall proofId) := fun _ exc =>
      calls_mono (fun _ => FailureCall.delivery) (handleException_calls exc)
    rintro (exc | decrypted)
    · exact hhandler none exc
    · exact calls_tryCatch proveJob_calls fun exc => hhandler (some decrypted) exc

theorem maxAttemptsExceeded_calls : (maxAttemptsExceeded S proofId job attempts).Calls (FailureCall proofId) := by
  unfold maxAttemptsExceeded
  refine calls_bind (calls_await ⟨rfl, rfl, by simp [KeepsPolicyId, AttemptMetadata.patch]⟩) fun failedJob => ?_
  refine calls_bind (calls_await ⟨rfl, rfl⟩) fun _ => ?_
  refine calls_bind (calls_await trivial) fun _ => ?_
  exact calls_await rfl

theorem deliverJob_calls : (deliverJob S proofId job).Calls (DeliveryCall proofId) := by
  unfold deliverJob
  generalize nextAttemptMetadata job.metadata S.maxAttempts = next
  obtain ⟨attempts, exceeded⟩ := next
  cases exceeded with
  | true => exact calls_mono (fun _ => FailureCall.delivery) maxAttemptsExceeded_calls
  | false =>
    refine calls_bind (calls_await ⟨rfl, nofun, by simp [KeepsPolicyId, AttemptMetadata.patch]⟩) fun updatedJob => ?_
    refine calls_bind (calls_await ⟨rfl, by simp⟩) fun _ => ?_
    exact executeJob_calls

/-- **The calls of a delivery.** -/
theorem processProofJob_calls : (processProofJob S proofId).Calls (DeliveryCall proofId) := by
  unfold processProofJob
  refine calls_bind (calls_await trivial) fun _ => ?_
  refine calls_bind (calls_await rfl) fun row => ?_
  cases row with
  | none => trivial
  | some job =>
    cases hterm : job.status.terminal with
    | true =>
      simp only [hterm, if_true]
      trivial
    | false =>
      simp only [hterm, Bool.false_eq_true, if_false]
      exact deliverJob_calls

/-! ## Requests -/

/-- The calls of a request. -/
def RequestCall : Call → Prop
  | .initModels | .getProofJob _ | .getDeadLetterJob _ | .markDeadLetterJobRequeued .. | .enqueue _
  | .pruneTerminalJobRuntimeData _ => True
  | .createProofJob new => new.status = .queued
  | .appendEvent args => args.status ∈ ["queued", "rerun_triggered"]
  | _ => False

variable {sha256 : String → String}

theorem persistAndEnqueueJob_calls {circuitId sourceMode sealedPayload : String} {payload : Json}
    {metadata : Dict Json} :
    (persistAndEnqueueJob sha256 proofId circuitId payload sourceMode sealedPayload metadata).Calls RequestCall := by
  unfold persistAndEnqueueJob
  refine calls_bind (calls_await rfl) fun _ => ?_
  refine calls_bind (calls_await (by simp [RequestCall, queuedEvent])) fun _ => ?_
  exact calls_await trivial

theorem triggerRerun_calls {request : RequeueRequest} {row : DeadLetterJob} {new : NewJob} (h : new.status = .queued) :
    (triggerRerun request row new).Calls RequestCall := by
  unfold triggerRerun
  refine calls_bind (calls_await h) fun _ => ?_
  refine calls_bind (calls_await (by simp [RequestCall, queuedEvent])) fun _ => ?_
  refine calls_bind (calls_await (by simp [RequestCall, rerunTriggeredEvent])) fun _ => ?_
  refine calls_bind (calls_await trivial) fun _ => ?_
  exact calls_bind (calls_await trivial) fun _ => trivial

theorem requeueDeadLetterJob_calls {repr : Json → String} {request : RequeueRequest} :
    (requeueDeadLetterJob sha256 repr request).Calls RequestCall := by
  unfold requeueDeadLetterJob
  refine calls_bind (calls_await trivial) fun row => ?_
  unfold requeueRow
  cases row with
  | none => trivial
  | some row =>
    cases hr : row.rerun? with
    | some rerun =>
      simp only [hr]
      trivial
    | none =>
      cases hp : row.sealedRerunPayload.filter (· ≠ "") with
      | none =>
        simp only [hr, hp]
        trivial
      | some sealedPayload =>
        simp only [hr, hp]
        exact calls_bind (calls_await trivial) fun sourceJob => triggerRerun_calls rfl

/-- **The calls of a request.** -/
theorem request_calls {task : Task} (h : task.isRequest = true) : (task.prog S sha256).Calls RequestCall := by
  cases task with
  | submit => exact persistAndEnqueueJob_calls
  | requeue request => exact calls_bind requeueDeadLetterJob_calls fun _ => trivial
  | deliver proofId => cases h
  | maintain cutoff =>
    refine calls_bind (calls_await trivial) fun _ => ?_
    exact calls_await trivial

/-! ## Runs of one job -/

/-- The services, with any settings. -/
abbrev demoBroker : BrokerConfig World Call.Resp PyExn Unit String := serviceBroker Set.univ demoSha

/-- What a demo run is about: the worker, the metadata of the job and its decrypted payload. -/
structure DemoSetup where
  worker : WorkerSettings
  metadata : Dict Json
  payload : Json

/-- A job that is no policy run. -/
def demoPlain : DemoSetup := ⟨demoWorker, .empty, demoPayload⟩

namespace DemoSetup

variable (D : DemoSetup)

/-- The submission of the job. -/
def submit : Task :=
  .submit demoJob.proofId demoJob.circuitId (.obj []) "private_input" demoJob.sealedJobPayload D.metadata

/-- The calls of `fails` raise, any other answers as in a world where all goes well. -/
abbrev oracle (fails : Call → Bool) := demoAnswer D.payload true fails

/-- The job is submitted, for three calls. -/
def submitting (fails : Call → Bool) : Services :=
  ((init .empty).put 0 .empty (some (D.submit.prog D.worker demoSha)) none).drive (D.oracle fails) 0 3

/-- The submission ends. -/
def queued (fails : Call → Bool) : Services :=
  (D.submitting fails).put 0 (D.submitting fails).world none none

/-- Then the job is delivered, for `n` calls. -/
def delivering (fails : Call → Bool) (n : ℕ) : Services :=
  ((D.queued fails).put 1 (D.queued fails).world (some (processProofJob D.worker demoJob.proofId))
    (some demoJob.proofId)).drive (D.oracle fails) 1 n

/-- The delivery ends, and its message is removed. -/
def ended (fails : Call → Bool) (n : ℕ) : Services :=
  (D.delivering fails n).put 1 ((D.delivering fails n).world.ackTask demoJob.proofId) none none

variable {Cond : Services → BrokerAct Call.Resp PyExn Unit String → Services → Prop} {fails : Call → Bool} {D}

/-- A condition that the starts and ends of programs meet, and every answer of the oracle. -/
structure Meets (D : DemoSetup) (Cond : Services → BrokerAct Call.Resp PyExn Unit String → Services → Prop)
    (fails : Call → Bool) : Prop where
  request : ∀ s i p s', Cond s (.request i p) s'
  deliver : ∀ s i m p s', Cond s (.deliver i m p) s'
  finish : ∀ s i s', Cond s (.finish i) s'
  call : ∀ s i c s', s'.world = (D.oracle fails c s.world).2 → Cond s (.call i c (D.oracle fails c s.world).1) s'

theorem queued_run (h : D.Meets Cond fails) {r : Except PyExn Unit}
    (hdone : (D.submitting fails).pool.procs 0 = some (.done r)) :
    Run demoBroker Cond (init .empty) (D.queued fails) := by
  have hstart : Run demoBroker Cond (init .empty)
      ((init .empty).put 0 .empty (some (D.submit.prog D.worker demoSha)) none) :=
    .single ⟨.request 0 _, .request rfl ⟨D.worker, trivial, D.submit, rfl, rfl⟩, h.request _ _ _ _⟩
  have hdrive := drive_run (K := demoBroker) (fun c w => demoAnswer_sem _ _ fails c w)
    (fun s s' c hw => h.call s 0 c s' hw) 3
    ((init .empty).put 0 .empty (some (D.submit.prog D.worker demoSha)) none)
  exact (hstart.trans hdrive).tail ⟨.finish 0, .finish hdone, h.finish _ _ _⟩

theorem queued_holds (j : ℕ) : (D.queued fails).holds j = none := by
  unfold queued
  by_cases hj : j = 0
  · rw [hj, holds_put_self]
  · rw [holds_put_of_ne hj]
    unfold submitting drive
    rw [holds_put_of_ne hj]
    rfl

theorem delivering_run (h : D.Meets Cond fails) {r : Except PyExn Unit}
    (hdone : (D.submitting fails).pool.procs 0 = some (.done r))
    (hmem : demoJob.proofId ∈ (D.queued fails).world.queue) (n : ℕ) :
    Run demoBroker Cond (init .empty) (D.delivering fails n) := by
  have hholds : ∀ j, (D.queued fails).holds j ≠ some demoJob.proofId := by
    intro j
    rw [queued_holds]
    exact nofun
  have hfree : (D.queued fails).pool.procs 1 = none := by
    unfold queued
    rw [procs_put_of_ne (by decide)]
    unfold submitting drive
    dsimp only
    rw [Pool.driveAt_procs_of_ne (by decide), procs_put_of_ne (by decide)]
    rfl
  have hdrive := drive_run (K := demoBroker) (fun c w => demoAnswer_sem _ _ fails c w)
    (fun s s' c hw => h.call s 1 c s' hw) n
    ((D.queued fails).put 1 (D.queued fails).world (some (processProofJob D.worker demoJob.proofId))
      (some demoJob.proofId))
  have hstep : Step demoBroker (D.queued fails) (.deliver 1 demoJob.proofId
    (processProofJob D.worker demoJob.proofId)) _ :=
    .deliver hfree hmem hholds ⟨D.worker, trivial, rfl⟩
  exact ((queued_run h hdone).tail ⟨_, hstep, h.deliver _ _ _ _ _⟩).trans hdrive

/-- **The submission and the delivery of a job are a run.** -/
theorem ended_run (h : D.Meets Cond fails) {r r' : Except PyExn Unit}
    (hdone : (D.submitting fails).pool.procs 0 = some (.done r))
    (hmem : demoJob.proofId ∈ (D.queued fails).world.queue) {n : ℕ}
    (hended : (D.delivering fails n).pool.procs 1 = some (.done r')) :
    Run demoBroker Cond (init .empty) (D.ended fails n) := by
  have hholds : (D.delivering fails n).holds 1 = some demoJob.proofId := by
    unfold delivering drive
    dsimp only
    rw [holds_put_self]
  have hstep := @Step.finish _ _ _ _ _ _ demoBroker (D.delivering fails n) 1 r' hended
  rw [hholds] at hstep
  exact (delivering_run h hdone hmem n).tail ⟨.finish 1, hstep, h.finish _ _ _⟩

theorem queued_idle : (D.queued fails).Idle := by
  intro j
  unfold queued
  by_cases h0 : j = 0
  · rw [h0, procs_put_self]
  · rw [procs_put_of_ne h0]
    unfold submitting drive
    dsimp only
    rw [Pool.driveAt_procs_of_ne h0, procs_put_of_ne h0]
    rfl

/-- Nothing is in progress then. -/
theorem ended_idle (n : ℕ) : (D.ended fails n).Idle := by
  intro j
  unfold ended
  by_cases h1 : j = 1
  · rw [h1, procs_put_self]
  · rw [procs_put_of_ne h1]
    unfold delivering drive
    dsimp only
    rw [Pool.driveAt_procs_of_ne h1, procs_put_of_ne h1]
    exact queued_idle j

theorem ended_notDelivering (n : ℕ) (id : String) : (D.ended fails n).NotDelivering id := by
  intro j
  have hnone : (D.ended fails n).holds j = none := by
    unfold ended
    by_cases h1 : j = 1
    · rw [h1, holds_put_self]
    · rw [holds_put_of_ne h1]
      unfold delivering drive
      rw [holds_put_of_ne h1]
      exact queued_holds j
  rw [hnone]
  exact nofun

end DemoSetup

end Vellum
