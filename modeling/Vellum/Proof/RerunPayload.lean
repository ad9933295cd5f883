import Vellum.Proof.Calls

/-!
# The rerun payload of a failed job

A delivery that fails writes `failed`, and only its dead letter makes the job's payload
available for a rerun once the payload is purged. The path of the used-up attempts records
the dead letter before it purges; the two handlers purge first.

* `PayloadInv`: what holds between deliveries.
* `maxAttemptsExceeded_safe`, `recordFailure_safe`, `completeJob_safe`: one lemma for each
  part of a delivery, and `processProofJob_safe` for the whole.
* `failed_job_keeps_payload`: no payload is lost in runs where no purge of a handler comes about and
  no handler is reached behind the purge of a completed job.
* `failed_job_loses_payload`: a run that loses it.
-/

namespace Vellum

open Prog Relation

variable {S : WorkerSettings} {id payload : String} {w w' : World}

/-! ## What is kept -/

/-- A dead letter of the job that holds the payload. -/
def HasLetter (id payload : String) (w : World) : Prop :=
  ∃ row ∈ w.deadLetterJobs, row.proofId = id ∧ row.sealedRerunPayload = some payload

/-- **No failed job has lost its payload.** -/
def PayloadKept (id payload : String) (w : World) : Prop :=
  ∀ job, w.proofJobs id = some job → job.status = .failed →
    job.sealedJobPayload = some payload ∨ HasLetter id payload w

/-- The row of the job still holds the payload, and no dead letter is recorded. -/
structure Holding (id payload : String) (w : World) (job : ProofJob) : Prop where
  row : w.proofJobs id = some job
  proofId : job.proofId = id
  sealed : job.sealedJobPayload = some payload
  noLetter : ∀ row ∈ w.deadLetterJobs, row.proofId ≠ id

/-- The invariant: a job that may still be delivered holds its payload, and a failed one holds
it or has its dead letter. -/
def PayloadInv (id payload : String) (w : World) : Prop :=
  ∃ job, w.proofJobs id = some job ∧ (job.status.terminal = false → Holding id payload w job) ∧
    (job.status = .failed → job.sealedJobPayload = some payload ∨ HasLetter id payload w)

/-- The steps of the run: the purge of a handler does not come about, and no handler is reached once
that of a completed job has, neither from the purge itself nor from the audit event behind it. -/
def PayloadSafeCall : (c : Call) → World → Except PyExn c.Resp → World → Prop
  | .purgeSealedJobPayload _ .softTimeLimit, w, _, w' => w' = w
  | .purgeSealedJobPayload _ .runtimeException, w, _, w' => w' = w
  | .purgeSealedJobPayload _ .completed, w, .error e, w' => w' = w ∨ e = .cancelled
  | .appendEvent args, _, .error e, _ => args.status = "completed" → e = .cancelled
  | _, _, _, _ => True

/-- The calls under that condition. -/
def PayloadSem (c : Call) (w : World) (a : Except PyExn c.Resp) (w' : World) : Prop :=
  c.Sem w a w' ∧ PayloadSafeCall c w a w'

/-- Safe for the invariant, with what is known at the end. -/
abbrev KeepsPayload {α : Type} (id payload : String) (Q : Except PyExn α → World → Prop) (p : Service α) (w : World) :
    Prop :=
  p.Safe PayloadSem (fun _ w => PayloadInv id payload w) Q w

theorem payloadKept_of_inv (h : PayloadInv id payload w) : PayloadKept id payload w := by
  obtain ⟨job, hrow, -, hfailed⟩ := h
  intro job' hrow' hstatus
  obtain rfl := Option.some.inj (hrow.symm.trans hrow')
  exact hfailed hstatus

namespace Holding

variable {job : ProofJob}

theorem inv (h : Holding id payload w job) : PayloadInv id payload w :=
  ⟨job, h.row, fun _ => h, fun _ => .inl h.sealed⟩

/-- A call that writes no job and no dead letter. -/
theorem quiet (h : Holding id payload w job) {c : Call} {a : Except PyExn c.Resp} (hc : c.quiet = true)
    (hs : PayloadSem c w a w') : Holding id payload w' job := by
  obtain ⟨hjobs, hletters, -⟩ := sem_quiet hc hs.1
  refine ⟨?_, h.proofId, h.sealed, ?_⟩
  · rw [hjobs]
    exact h.row
  · rw [hletters]
    exact h.noLetter

/-- A status write keeps the payload; the call answers the new row. -/
theorem update (h : Holding id payload w job) {u : JobUpdate} {r : Option ProofJob}
    (hs : (Call.updateProofJob id u).Done w r w') :
    ∃ job', r = some job' ∧ job'.status = u.status ∧ Holding id payload w' job' := by
  obtain ⟨now, hw, hr⟩ := hs
  subst hw
  have hrow := proofJobs_updateProofJob h.row u now
  refine ⟨job.update u now, hr.trans hrow, rfl, hrow, h.proofId, h.sealed, ?_⟩
  change ∀ row ∈ (w.updateProofJob id u now).deadLetterJobs, row.proofId ≠ id
  rw [deadLetterJobs_updateProofJob]
  exact h.noLetter

/-- A status write that raises has written the row or not. -/
theorem update_raised (h : Holding id payload w job) {u : JobUpdate} {e : PyExn}
    (hs : PayloadSem (.updateProofJob id u) w (.error e) w') : ∃ job', Holding id payload w' job' := by
  rcases hs.1 with hw | ⟨r, hdone⟩
  · rw [hw]
    exact ⟨job, h⟩
  · obtain ⟨job', -, -, h'⟩ := h.update hdone
    exact ⟨job', h'⟩

end Holding

/-- The dead letter of a job that has none yet. -/
theorem hasLetter_upsert {input : DeadLetterInput} (hnone : ∀ row ∈ w.deadLetterJobs, row.proofId ≠ id)
    (hid : input.proofId = id) (hp : input.sealedRerunPayload = some payload) :
    HasLetter id payload (w.upsertDeadLetterJob input) := by
  refine ⟨.fresh (w.deadLetterJobs.length + 1) input, ?_, hid, hp⟩
  rw [← hid] at hnone
  exact mem_upsert.2 (.inr (.inr ⟨hnone, rfl⟩))

/-- The job is failed and its dead letter holds the payload, whatever its row does. -/
def HoldsRerun (id payload : String) (w : World) : Prop :=
  (∃ row, w.proofJobs id = some row ∧ row.status = .failed) ∧ HasLetter id payload w

theorem HoldsRerun.inv (h : HoldsRerun id payload w) : PayloadInv id payload w := by
  obtain ⟨⟨row, hrow, hfailed⟩, hletter⟩ := h
  refine ⟨row, hrow, ?_, fun _ => .inr hletter⟩
  rw [hfailed]
  intro hterm
  cases hterm

theorem HoldsRerun.purge {site : Site} {r : Unit} (h : HoldsRerun id payload w)
    (hs : (Call.purgeSealedJobPayload id site).Done w r w') : HoldsRerun id payload w' := by
  obtain ⟨⟨row, hrow, hfailed⟩, hletter⟩ := h
  obtain ⟨now, rfl, -⟩ := hs
  refine ⟨⟨row.purge now, proofJobs_purge hrow now, hfailed⟩, ?_⟩
  have hletters := deadLetterJobs_purge w id now
  unfold HasLetter at hletter ⊢
  rw [← hletters] at hletter
  exact hletter

/-- The dead letter of a failed job is recorded. -/
theorem Holding.record {job : ProofJob} (h : Holding id payload w job) (hfailed : job.status = .failed)
    {input : DeadLetterInput} (hid : input.proofId = id) (hp : input.sealedRerunPayload = some payload) {r : Unit}
    (hs : (Call.upsertDeadLetterJob input).Done w r w') : HoldsRerun id payload w' := by
  obtain ⟨now, rfl, -⟩ := hs
  exact ⟨⟨job, h.row, hfailed⟩, hasLetter_upsert h.noLetter hid hp⟩

theorem PayloadInv.quiet (h : PayloadInv id payload w) {c : Call} {a : Except PyExn c.Resp} (hc : c.quiet = true)
    (hs : PayloadSem c w a w') : PayloadInv id payload w' := by
  obtain ⟨job, hrow, hlive, hfailed⟩ := h
  obtain ⟨hjobs, hletters, -⟩ := sem_quiet hc hs.1
  refine ⟨job, ?_, fun ht => (hlive ht).quiet hc hs, fun hf => ?_⟩
  · rw [hjobs]
    exact hrow
  · have hkept := hfailed hf
    unfold HasLetter at hkept ⊢
    rw [hletters]
    exact hkept

/-! ## The parts of a delivery -/

/-- **The handlers**: without the purge they only mark the job failed. -/
theorem recordFailure_safe {job row : ProofJob} {attempts : AttemptMetadata} {decrypted : Option Json} {site : Site}
    {reason error : String} (hsite : site = .softTimeLimit ∨ site = .runtimeException)
    (h : Holding id payload w row) :
    KeepsPayload id payload (fun _ w => PayloadInv id payload w)
      (recordFailure S id job attempts decrypted site reason error) w := by
  have hsame : ∀ {w a w'}, PayloadSem (.purgeSealedJobPayload id site) w a w' → w' = w := by
    intro w a w' hs
    rcases hsite with rfl | rfl
    · exact hs.2
    · exact hs.2
  unfold recordFailure
  refine safe_await_bind h.inv ?_ fun e w' hs => ?_
  · intro r w₁ hs
    obtain ⟨row₁, -, -, h₁⟩ := h.update hs.1
    refine safe_await_bind h₁.inv ?_ fun e w' hs => ?_
    · -- the row would have lost the payload
      intro _ w₂ hs
      have hw := hsame hs
      obtain ⟨⟨now, heffect, -⟩, -⟩ := hs
      have hrow : w₂.proofJobs id = some (row₁.purge now) := by
        rw [heffect]
        exact proofJobs_purge h₁.row now
      rw [hw, h₁.row] at hrow
      have hsealed := h₁.sealed
      rw [Option.some.inj hrow] at hsealed
      cases hsealed
    · rw [hsame hs]
      exact h₁.inv
  · obtain ⟨row', h'⟩ := h.update_raised hs
    exact h'.inv

/-- What a handler starts from: the payload is there, or no handler runs. -/
def HandlerStart (id payload : String) (e : PyExn) (w : World) : Prop :=
  (∃ row, Holding id payload w row) ∨ (e = .cancelled ∧ PayloadInv id payload w)

theorem handleException_safe {job : ProofJob} {attempts : AttemptMetadata} {decrypted : Option Json} {exc : PyExn}
    (h : HandlerStart id payload exc w) :
    KeepsPayload id payload (fun _ w => PayloadInv id payload w)
      (handleException S id job attempts decrypted exc) w := by
  rcases h with ⟨row, h⟩ | ⟨rfl, h⟩
  · exact safe_handler exc (fun _ => h.inv) fun hsite => recordFailure_safe hsite h
  · exact h

/-- What the `try` body leaves. -/
def BodyEnd (id payload : String) (r : Except PyExn Unit) (w : World) : Prop :=
  match r with
  | .ok _ => PayloadInv id payload w
  | .error e => HandlerStart id payload e w

/-- **The end of the `try` body.** What reaches a handler is raised before the payload is gone. -/
theorem completeJob_safe {job row : ProofJob} {result : ProofResult} {patch : Option (List (String × Json))}
    (h : Holding id payload w row) :
    KeepsPayload id payload (BodyEnd id payload) (completeJob S id job result patch) w := by
  unfold completeJob
  refine safe_await_bind h.inv ?_ fun e w' hs => .inl ⟨row, h.quiet rfl hs⟩
  intro _ w₁ hs
  have h₁ := h.quiet rfl hs
  refine safe_await_bind h₁.inv ?_ fun e w' hs => .inl (h₁.update_raised hs)
  intro r w₂ hs
  obtain ⟨row₂, -, hstatus, h₂⟩ := h₁.update hs.1
  -- once the payload is gone, the job is completed
  have hpurged : ∀ {r w'}, (Call.purgeSealedJobPayload id .completed).Done w₂ r w' → PayloadInv id payload w' := by
    rintro r w' ⟨now, rfl, -⟩
    have hcompleted : (row₂.purge now).status = .completed := hstatus
    refine ⟨row₂.purge now, proofJobs_purge h₂.row now, ?_, ?_⟩
    · rw [hcompleted]
      intro hterm
      cases hterm
    · rw [hcompleted]
      intro hfailed
      cases hfailed
  refine safe_await_bind h₂.inv ?_ fun e w' hs => ?_
  · intro _ w₃ hs
    have hdone := hpurged hs.1
    refine safe_await (.appendEvent _) hdone fun a w₄ hs => ?_
    cases a with
    | ok r => exact hdone.quiet rfl hs
    | error e => exact .inr ⟨hs.2 rfl, hdone.quiet rfl hs⟩
  · rcases hs.2 with hw | he
    · rw [hw]
      exact .inl ⟨row₂, h₂⟩
    · rcases hs.1 with hw | ⟨r, hdone⟩
      · rw [hw]
        exact .inl ⟨row₂, h₂⟩
      · exact .inr ⟨he, hpurged hdone⟩

theorem proveJob_safe {job row : ProofJob} {decrypted : Json} (h : Holding id payload w row) :
    KeepsPayload id payload (BodyEnd id payload) (proveJob S id job decrypted) w := by
  unfold proveJob
  refine safe_check_bind (fun privateInput _ => ?_) fun e _ => .inl ⟨row, h⟩
  refine safe_await_bind h.inv ?_ fun e w' hs => .inl ⟨row, h.quiet rfl hs⟩
  intro result w₁ hs
  have h₁ := h.quiet rfl hs
  refine safe_await_bind h₁.inv ?_ fun e w' hs => .inl ⟨row, h₁.quiet rfl hs⟩
  intro verified w₂ hs
  have h₂ := h₁.quiet rfl hs
  exact safe_check_bind (fun patch _ => completeJob_safe h₂) fun e _ => .inl ⟨row, h₂⟩

theorem executeJob_safe {job row : ProofJob} {attempts : AttemptMetadata} (h : Holding id payload w row) :
    KeepsPayload id payload (fun _ w => PayloadInv id payload w) (executeJob S id job attempts) w := by
  refine safe_try (J := fun _ w => ∃ row, Holding id payload w row) (H := HandlerStart id payload)
    (R := BodyEnd id payload) ⟨row, h⟩ (fun sealedPayload => ?_) (fun hw => .inl hw) (fun decrypted hw => ?_)
    (fun hw => hw) (fun hw => hw) fun _ _ hw => handleException_safe hw
  · refine safe_unsealPayload h.inv (fun a w' hs => ⟨row, h.quiet rfl hs⟩) ?_ ?_
    · rintro e event w' ⟨row', h'⟩
      exact h'.inv
    · rintro e event a w' w'' ⟨row', h'⟩ hs
      have h'' := h'.quiet rfl hs
      exact ⟨fun _ _ => ⟨row', h''⟩, row', h''⟩
  · obtain ⟨row₁, h₁⟩ := hw
    exact proveJob_safe h₁

/-- **The used-up attempts**: the dead letter is recorded before the purge. -/
theorem maxAttemptsExceeded_safe {job : ProofJob} {attempts : AttemptMetadata} (h : Holding id payload w job) :
    KeepsPayload id payload (fun _ w => PayloadInv id payload w) (maxAttemptsExceeded S id job attempts) w := by
  unfold maxAttemptsExceeded
  refine safe_await_bind h.inv ?_ fun e w' hs => ?_
  · intro r w₁ hs
    obtain ⟨row₁, -, hstatus, h₁⟩ := h.update hs.1
    refine safe_await_bind h₁.inv ?_ fun e w' hs => (h₁.quiet rfl hs).inv
    intro _ w₂ hs
    have h₂ := h₁.quiet rfl hs
    unfold recordDeadLetterJob
    refine safe_await_bind h₂.inv ?_ fun e w' hs => ?_
    · intro _ w₃ hs
      have h₃ := h₂.record hstatus h.proofId h.sealed hs.1
      refine safe_await (.purgeSealedJobPayload id .maxAttempts) h₃.inv fun a w₄ hs => ?_
      rcases sem_cases hs.1 with hw | ⟨r, hdone⟩
      · rw [hw]
        exact h₃.inv
      · exact (h₃.purge hdone).inv
    · rcases hs.1 with hw | ⟨r, hdone⟩
      · rw [hw]
        exact h₂.inv
      · exact (h₂.record hstatus h.proofId h.sealed hdone).inv
  · obtain ⟨row', h'⟩ := h.update_raised hs
    exact h'.inv

/-- **A delivery keeps the invariant.** -/
theorem processProofJob_safe (h : PayloadInv id payload w) :
    KeepsPayload id payload (fun _ w => PayloadInv id payload w) (processProofJob S id) w := by
  rw [processProofJob_eq]
  refine safe_await_bind h ?_ fun e w' hs => h.quiet rfl hs
  intro _ w₁ hs
  have h₁ := h.quiet rfl hs
  refine safe_await_bind h₁ ?_ fun e w' hs => h₁.quiet rfl hs
  intro r w₂ hs
  have h₂ := h₁.quiet rfl hs
  obtain ⟨⟨now, hw, hr⟩, -⟩ := hs
  have hsame : w₂ = w₁ := hw
  subst hsame
  have hr' : r = w₂.proofJobs id := hr
  obtain ⟨row, hrow, hlive, -⟩ := h₁
  refine safe_gate (fun _ => h₂) fun job hjob hterm => ?_
  obtain rfl : row = job := Option.some.inj (hrow.symm.trans (hr'.symm.trans hjob))
  -- past the status gate the row holds the payload
  have hholding := hlive hterm
  unfold deliverJob
  generalize nextAttemptMetadata row.metadata S.maxAttempts = next
  obtain ⟨attempts, exceeded⟩ := next
  cases exceeded with
  | true => exact maxAttemptsExceeded_safe hholding
  | false =>
    refine safe_await_bind hholding.inv ?_ fun e w' hs => ?_
    · intro r w₃ hs
      obtain ⟨row₃, -, -, h₃⟩ := hholding.update hs.1
      refine safe_await_bind h₃.inv ?_ fun e w' hs => (h₃.quiet rfl hs).inv
      intro _ w₄ hs
      exact executeJob_safe (h₃.quiet rfl hs)
    · obtain ⟨row', h'⟩ := hholding.update_raised hs
      exact h'.inv

/-! ## Runs -/

/-- The condition on a step of a run. -/
def PayloadSafeAct (w : World) (act : Act Call.Resp PyExn Unit) (w' : World) : Prop :=
  match act with
  | .call _ c a => PayloadSafeCall c w a w'
  | _ => True

/-- A step of the deliveries of one job, one delivery at a time. -/
def DeliveryStep (S : WorkerSettings) (id : String) (Cond : World → Act Call.Resp PyExn Unit → World → Prop)
    (s s' : Pool World Call.Resp PyExn Unit) : Prop :=
  ∃ act, Pool.Step Call.Sem {processProofJob S id} s act s' ∧ s.Sequential act ∧ Cond s.world act s'.world

/-- The state right after a job is created. -/
def createdPool (w₀ : World) (new : NewJob) (now : ℚ) : Pool World Call.Resp PyExn Unit :=
  ⟨w₀.createProofJob new now, fun _ => none⟩

/-- **When a failed job keeps its rerun payload.** In every state of every run of deliveries
that may raise or crash anywhere, if no purge of a handler comes about and no handler is reached
behind the purge of a completed job: a failed job holds its payload, or its dead letter does. -/
theorem failed_job_keeps_payload {w₀ : World} {new : NewJob} {now : ℚ}
    (hnew : ∀ row ∈ w₀.deadLetterJobs, row.proofId ≠ new.proofId) {s : Pool World Call.Resp PyExn Unit}
    (hrun : ReflTransGen (DeliveryStep S new.proofId PayloadSafeAct) (createdPool w₀ new now) s) :
    PayloadKept new.proofId new.sealedJobPayload s.world := by
  have hcreated : Holding new.proofId new.sealedJobPayload (w₀.createProofJob new now) (new.row now) :=
    ⟨Function.update_self .., rfl, rfl, hnew⟩
  -- the condition on the answers is part of the semantics from here on
  have hrun' : ReflTransGen (fun s s' => ∃ act, Pool.Step PayloadSem {processProofJob S new.proofId} s act s' ∧
      s.Sequential act) (createdPool w₀ new now) s := by
    refine ReflTransGen.mono ?_ _ _ hrun
    rintro s s' ⟨act, hstep, hseq, hcond⟩
    refine ⟨act, Pool.step_restrict hstep ?_, hseq⟩
    intro i c a hact
    rw [hact] at hcond
    exact hcond
  refine payloadKept_of_inv (Pool.sequential_invariant ?_ hcreated.inv ?_ hrun')
  · rintro p rfl w hw
    exact processProofJob_safe hw
  · intro j p hp
    cases hp

/-- A run of one delivery, with the oracle's answers. -/
theorem demo_deliveryRun {Cond : World → Act Call.Resp PyExn Unit → World → Prop} (fails : Call → Bool)
    (hstart : ∀ w, Cond w (.start 0 (processProofJob demoWorker demoJob.proofId)) w)
    (hcond : ∀ c w, Cond w (.call 0 c (demoAnswer demoPayload true fails c w).1)
      (demoAnswer demoPayload true fails c w).2)
    (n : ℕ) :
    ReflTransGen (DeliveryStep demoWorker demoJob.proofId Cond) (createdPool .empty demoJob 0)
      (Pool.driveAt (demoAnswer demoPayload true fails) 0 n (demoPool demoWorker)) := by
  have hdrive : ∀ s : Pool World Call.Resp PyExn Unit, ReflTransGen (DeliveryStep demoWorker demoJob.proofId Cond) s
      (Pool.driveAt (demoAnswer demoPayload true fails) 0 n s) := by
    intro s
    refine Pool.driveAt_run (fun _ => True) (fun _ => trivial) ?_ n trivial
    intro s c k _ hk
    exact ⟨_, .call hk (demoAnswer_sem _ _ _ c s.world), trivial, hcond c s.world⟩
  refine .head ⟨_, .start rfl rfl, ?_, hstart _⟩ (hdrive _)
  intro j p hp
  cases hp

/-- Vault is down: the payload cannot be decrypted and no audit event can be signed. -/
def vaultDown : Call → Bool
  | .unsealJobPayload _ => true
  | .appendEvent args => args.status = "failed"
  | _ => false

/-- Then the handler marks the job failed, purges its payload, and fails to append its event:
the payload is in no row any more. -/
theorem failed_job_loses_payload : ∃ s, ReflTransGen (DeliveryStep demoWorker demoJob.proofId fun _ _ _ => True)
    (createdPool .empty demoJob 0) s ∧ ¬ PayloadKept demoJob.proofId demoJob.sealedJobPayload s.world := by
  refine ⟨_, demo_deliveryRun vaultDown (fun _ => trivial) (fun _ _ => trivial) 9, ?_⟩
  intro hkept
  have hjob := hkept _ rfl rfl
  rcases hjob with hsealed | ⟨row, hrow, -⟩
  · cases hsealed
  · cases hrow

/-- The database is down when the handler is to purge. -/
def purgeDown : Call → Bool
  | .unsealJobPayload _ => true
  | .purgeSealedJobPayload .. => true
  | _ => false

/-- Then the failed job keeps its payload. -/
theorem failed_job_keeps_payload_demo : ∃ s : Pool World Call.Resp PyExn Unit,
    PayloadKept demoJob.proofId demoJob.sealedJobPayload s.world ∧
    (s.world.proofJobs demoJob.proofId).map (fun job => job.status) = some .failed := by
  have hcond : ∀ c w, PayloadSafeAct w (.call 0 c (demoAnswer demoPayload true purgeDown c w).1)
      (demoAnswer demoPayload true purgeDown c w).2 := by
    intro c w
    cases c with
    | purgeSealedJobPayload proofId site => cases site <;> first | rfl | trivial | exact .inl rfl
    | _ => trivial
  refine ⟨_, failed_job_keeps_payload ?_ (demo_deliveryRun purgeDown (fun _ => trivial) hcond 9), rfl⟩
  intro row hrow
  cases hrow

end Vellum
