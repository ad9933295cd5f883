import Vellum.Proof.TaskCalls

/-!
# The job table and the audit log

A delivery writes the terminal status of its job first and appends the audit event later, with
the purge of the payload in between. Once the status is terminal, a redelivery is skipped at
the gate and nobody appends the event. So table and log agree as long as nothing stops a
delivery between the two writes: no crash there, no exception in a handler, and no exception
where a handler is to overwrite `completed`.

* `Recording`: where a delivery stands between the two writes.
* `processProofJob_records`: a delivery ends with both writes made, under the condition.
* `audit_agrees`: then table and log agree whenever the job has no delivery.
* `failed_without_event`: a run that fails a job without an audit event.
-/

namespace Vellum

open Prog Relation Broker

variable {S : WorkerSettings} {sha256 : String → String} {id : String} {w w' : World}

/-! ## What agrees -/

/-- An audit event of the job. -/
def Logged (id status : String) (w : World) (P : EventArgs → Prop) : Prop :=
  ∃ e ∈ w.auditEvents, e.proofId = some id ∧ e.status = status ∧ P e

/-- **Table and log agree**: a completed job has a completed row in the log, with the hash of
its proof, and a failed job a failed one. -/
def AuditAgrees (sha256 : String → String) (id : String) (w : World) : Prop :=
  ∀ job, w.proofJobs id = some job →
    (job.status = .completed →
      Logged id "completed" w fun e => computeProofHash sha256 e.proofPayload = computeProofHash sha256 job.proof) ∧
    (job.status = .failed → Logged id "failed" w fun _ => True)

/-- The same, with the proof itself. -/
def Recorded (id : String) (w : World) : Prop :=
  ∀ job, w.proofJobs id = some job →
    (job.status = .completed → Logged id "completed" w fun e => e.proofPayload = job.proof) ∧
    (job.status = .failed → Logged id "failed" w fun _ => True)

theorem auditAgrees_of_recorded (h : Recorded id w) : AuditAgrees sha256 id w := by
  intro job hjob
  refine ⟨fun hst => ?_, (h job hjob).2⟩
  obtain ⟨e, he, hid, hstatus, hproof⟩ := (h job hjob).1 hst
  exact ⟨e, he, hid, hstatus, congrArg _ hproof⟩

/-! ## The condition -/

/-- The row says `completed` and the log has no event for its proof. -/
def Unlogged (id : String) (w : World) : Prop :=
  ∃ job, w.proofJobs id = some job ∧ job.status = .completed ∧
    ¬ Logged id "completed" w fun e => e.proofPayload = job.proof

/-- The awaits of a delivery between the status and the event: a crash here leaves a terminal
job without its event. -/
def Call.unrecorded (id : String) (w : World) : Call → Prop
  | .purgeSealedJobPayload proofId site => proofId = id ∧ site ≠ .maxAttempts
  | .appendEvent args => args.proofId = some id ∧ args.status ∈ ["completed", "failed"]
  -- a handler that is about to overwrite `completed`
  | .updateProofJob proofId u => proofId = id ∧ u.status = .failed ∧ Unlogged id w
  | _ => False

/-- What an exception of a call does not do: a write of `failed` is not made, and does not leave a
`completed` without its event; an event of a failure is appended, and a handler has purged. The end of
the `try` body has the handlers above it, but not for a cancellation. -/
def Call.handled (id : String) (e : PyExn) (w w' : World) : Call → Prop
  | .updateProofJob proofId u => proofId = id →
      (u.status = .failed → w' = w ∧ ¬ Unlogged id w) ∧ (u.status = .completed → e = .cancelled → w' = w)
  | .purgeSealedJobPayload proofId site => proofId = id →
      site = .maxAttempts ∨ site = .completed ∧ e ≠ .cancelled
  | .appendEvent args => args.proofId = some id → args.status = "failed" ∨ args.status = "completed" ∧ e = .cancelled →
      ∃ r, (Call.appendEvent args).Done w r w'
  | _ => True

/-- The call strips the proof of the completed job. -/
def Call.prunes (id : String) (w : World) : Call → Prop
  | .pruneTerminalJobRuntimeData olderThan =>
    ∃ job, w.proofJobs id = some job ∧ job.status = .completed ∧ job.prunable olderThan = true
  | _ => False

/-- **The condition on a step.** -/
def recordCond (id : String) : StepCond World Call.Resp PyExn where
  call := fun _ c w a w' => (c.prunes id w → w' = w) ∧ ∀ e, a = .error e → c.handled id e w w'
  crash := fun _ c w => ¬ c.unrecorded id w

/-! ## Other programs -/

/-- The calls of a program that is no delivery of the job. -/
def ElsewhereCall (id : String) : Call → Prop
  | .updateProofJob proofId _ | .purgeSealedJobPayload proofId _ => proofId ≠ id
  | .createProofJob new => new.status = .queued
  | _ => True

theorem request_elsewhere {task : Task} (h : task.isRequest = true) :
    (task.prog S sha256).Calls (ElsewhereCall id) := by
  refine calls_mono (fun c hc => ?_) (request_calls h)
  cases c <;> trivial

theorem delivery_elsewhere {proofId : String} (h : proofId ≠ id) :
    (processProofJob S proofId).Calls (ElsewhereCall id) := by
  refine calls_mono (fun c hc => ?_) processProofJob_calls
  cases c with
  | updateProofJob proofId' u => exact fun hid => h (hc.1.symm.trans hid)
  | purgeSealedJobPayload proofId' site => exact fun hid => h (Eq.symm hc |>.trans hid)
  | createProofJob new => exact False.elim hc
  | _ => trivial

/-! ## A delivery -/

/-- Where a delivery stands: nothing to record, or a status whose event is still to come. -/
inductive Recording where
  | settled
  | completing (proof : Json)
  | failing

namespace Recording

/-- What holds of the world there. -/
def Holds (id : String) (w : World) : Recording → Prop
  | settled => Recorded id w
  | completing proof => ∀ job, w.proofJobs id = some job →
      job.status ≠ .failed ∧ (job.status = .completed → job.proof = some proof)
  | failing => ∀ job, w.proofJobs id = some job → job.status ≠ .completed

/-- The delivery has written a status. -/
def write (u : JobUpdate) (l : Recording) : Recording :=
  match u.status, u.proof with
  | .completed, some proof => completing proof
  | .completed, none => l
  | .failed, _ => failing
  | _, _ => settled

/-- The event that is to come. -/
def awaits (id : String) (args : EventArgs) : Recording → Prop
  | settled => False
  | completing proof => args.proofId = some id ∧ args.status = "completed" ∧ args.proofPayload = some proof
  | failing => args.proofId = some id ∧ args.status = "failed"

end Recording

/-- A call of the delivery. -/
def RecordingSem (id : String) (c : Call) (l : Recording) (a : Except PyExn c.Resp) (l' : Recording) : Prop :=
  match c, a with
  | .updateProofJob _ u, .ok _ => l' = l.write u
  -- a status that could not be written while there was nothing to record, or one that a handler overwrites
  | .updateProofJob _ u, .error e =>
    if u.status = .failed then l' = .settled else l' = l ∨ (l' = l.write u ∧ (u.status = .completed → e ≠ .cancelled))
  | .appendEvent args, .ok _ => (l.awaits id args → l' = .settled) ∧ (¬ l.awaits id args → l' = l)
  | .appendEvent args, .error e => (l.awaits id args ∧ l' = .settled) ∨
      (l' = l ∧ (l.awaits id args → args.status = "completed" ∧ e ≠ .cancelled))
  | .purgeSealedJobPayload _ site, .error e => l' = l ∧ (site = .maxAttempts ∨ site = .completed ∧ e ≠ .cancelled)
  | _, _ => l' = l

/-- What it may await: between the two writes only what leads to the second. -/
def RecordingOk (id : String) (c : Call) (l : Recording) : Prop :=
  (match c with
    | .updateProofJob _ u => u.status = .completed → u.proof.isSome = true
    | _ => True) ∧
  match l with
  | .settled => True
  | .completing _ => c = .purgeSealedJobPayload id .completed ∨
      (∃ args, c = .appendEvent args ∧ args.proofId = some id ∧ args.status = "completed") ∨
      ∃ u, c = .updateProofJob id u ∧ u.status = .failed
  | .failing => (∃ site, c = .purgeSealedJobPayload id site ∧ site ≠ .maxAttempts) ∨
      ∃ args, c = .appendEvent args ∧ args.proofId = some id ∧ args.status = "failed"

/-- A delivery at whose end `Q` holds of its ledger. -/
abbrev Keeps {α : Type} (id : String) (Q : Except PyExn α → Recording → Prop) (p : Service α) (l : Recording) : Prop :=
  p.Safe (RecordingSem id) (RecordingOk id) Q l

/-- A call that is no write of a status and no purge of a handler, with nothing to record. -/
theorem keeps_settled_bind {α : Type} {Q : Except PyExn α → Recording → Prop} {c : Call} {f : c.Resp → Service α}
    (hok : RecordingOk id c .settled) (hsem : ∀ {a l}, RecordingSem id c .settled a l → l = .settled)
    (hf : ∀ r, Keeps id Q (f r) .settled) (hQ : ∀ e, Q (.error e) .settled) : Keeps id Q (await c >>= f) .settled := by
  refine safe_await_bind hok (fun r l hs => ?_) fun e l hs => ?_
  · rw [hsem hs]
    exact hf r
  · rw [hsem hs]
    exact hQ e

/-- An event when nothing is to be recorded. -/
theorem recordingSem_event {args : EventArgs} {a : Except PyExn Unit} {l : Recording}
    (h : RecordingSem id (.appendEvent args) .settled a l) : l = .settled := by
  cases a with
  | error e =>
    rcases h with ⟨hawaits, -⟩ | ⟨hsame, -⟩
    · exact False.elim hawaits
    · exact hsame
  | ok r => exact h.2 fun hf => hf

/-- A status that is not terminal, when nothing is to be recorded. -/
theorem recordingSem_open {u : JobUpdate} {a : Except PyExn (Option ProofJob)} {l : Recording}
    (hu : u.status.terminal = false) (h : RecordingSem id (.updateProofJob id u) .settled a l) : l = .settled := by
  have hwrite : Recording.settled.write u = .settled := by
    unfold Recording.write
    cases hst : u.status with
    | completed | failed =>
      rw [hst] at hu
      cases hu
    | queued | running => rfl
  cases a with
  | ok r => exact Eq.trans h hwrite
  | error e =>
    have h' : if u.status = .failed then l = .settled
        else l = .settled ∨ (l = Recording.settled.write u ∧ (u.status = .completed → e ≠ .cancelled)) := h
    split_ifs at h'
    · exact h'
    · rcases h' with hsame | ⟨hwritten, -⟩
      · exact hsame
      · exact hwritten.trans hwrite

/-- The event of a failure that is to come. -/
theorem recordingSem_failed {args : EventArgs} {a : Except PyExn Unit} {l : Recording}
    (hid : args.proofId = some id) (hstatus : args.status = "failed")
    (h : RecordingSem id (.appendEvent args) .failing a l) : l = .settled := by
  cases a with
  | error e =>
    rcases h with ⟨-, hsettled⟩ | ⟨-, hallowed⟩
    · exact hsettled
    · obtain ⟨hcompleted, -⟩ := hallowed ⟨hid, hstatus⟩
      rw [hstatus] at hcompleted
      exact absurd hcompleted (by decide)
  | ok r => exact h.1 ⟨hid, hstatus⟩

/-- **The handlers** record the failure: the status, and behind the purge the event. -/
theorem recordFailure_records {job : ProofJob} {attempts : AttemptMetadata} {decrypted : Option Json} {site : Site}
    {reason error : String} (hsite : site = .softTimeLimit ∨ site = .runtimeException) {l : Recording}
      (hl : l ≠ .failing) :
    Keeps id (fun _ l => l = .settled) (recordFailure S id job attempts decrypted site reason error) l := by
  unfold recordFailure
  have hupdate : ∀ u : JobUpdate, u.status = .failed → RecordingOk id (.updateProofJob id u) l := by
    intro u hu
    refine ⟨?_, ?_⟩
    · intro hst
      rw [hu] at hst
      cases hst
    · cases l with
      | settled => trivial
      | completing proof => exact .inr (.inr ⟨u, rfl, hu⟩)
      | failing => exact absurd rfl hl
  refine safe_await_bind (hupdate _ rfl) (fun r l' hs => ?_) fun e l' hs => hs
  have hfailing : l' = .failing := hs
  subst hfailing
  have hmax : site ≠ .maxAttempts ∧ site ≠ .completed := by
    rcases hsite with rfl | rfl <;> exact ⟨nofun, nofun⟩
  refine safe_await_bind ⟨trivial, .inl ⟨site, rfl, hmax.1⟩⟩ (fun r l' hs => ?_) fun e l' hs => ?_
  · have hsame : l' = .failing := hs
    subst hsame
    refine safe_await_bind ⟨trivial, .inr ⟨_, rfl, rfl, rfl⟩⟩ (fun r l' hs => ?_)
      fun e l' hs => recordingSem_failed rfl rfl hs
    rw [recordingSem_failed rfl rfl hs]
    exact safe_await (.upsertDeadLetterJob _) ⟨trivial, trivial⟩ fun a l hs => hs
  · rcases hs.2 with hm | ⟨hc, -⟩
    · exact absurd hm hmax.1
    · exact absurd hc hmax.2

theorem handleException_records {job : ProofJob} {attempts : AttemptMetadata} {decrypted : Option Json} (exc : PyExn)
    {l : Recording} (hl : l ≠ .failing) (hcancelled : exc = .cancelled → l = .settled) :
    Keeps id (fun _ l => l = .settled) (handleException S id job attempts decrypted exc) l :=
  safe_handler (P := fun l : Recording => l = .settled) exc hcancelled fun hsite => recordFailure_records hsite hl

/-- Behind the `try` body: it returns with its event appended, it raises with no failure to record, and
a cancellation leaves nothing to record. -/
def BodyRecords (r : Except PyExn Unit) (l : Recording) : Prop :=
  (r = .ok () → l = .settled) ∧ l ≠ .failing ∧ (r = .error .cancelled → l = .settled)

theorem bodyRecords_settled {r : Except PyExn Unit} : BodyRecords r .settled := ⟨fun _ => rfl, nofun, fun _ => rfl⟩

/-- The handler will overwrite `completed`. -/
theorem bodyRecords_completing {e : PyExn} {proof : Json} (he : e ≠ .cancelled) :
    BodyRecords (.error e) (.completing proof) := by
  refine ⟨nofun, nofun, fun heq => ?_⟩
  cases heq
  exact absurd rfl he

/-- The end of the `try` body. -/
theorem completeJob_records {job : ProofJob} {result : ProofResult} {patch : Option (List (String × Json))} :
    Keeps id BodyRecords (completeJob S id job result patch) .settled := by
  unfold completeJob
  refine keeps_settled_bind ⟨trivial, trivial⟩ (fun h => h) (fun _ => ?_) fun e => bodyRecords_settled
  refine safe_await_bind ⟨fun _ => rfl, trivial⟩ (fun r l hs => ?_) fun e l hs => ?_
  · have hcompleting : l = .completing result.proof := hs
    subst hcompleting
    refine safe_await_bind ⟨trivial, .inl rfl⟩ (fun r l hs => ?_) fun e l hs => ?_
    · have hsame : l = .completing result.proof := hs
      subst hsame
      refine safe_await (.appendEvent _) ⟨trivial, .inr (.inl ⟨_, rfl, rfl, rfl⟩)⟩ ?_
      rintro (e | r) l hs
      · rcases hs with ⟨-, hsettled⟩ | ⟨hsame, hallowed⟩
        · rw [hsettled]
          exact bodyRecords_settled
        · rw [hsame]
          exact bodyRecords_completing (hallowed ⟨rfl, rfl, rfl⟩).2
      · rw [hs.1 ⟨rfl, rfl, rfl⟩]
        exact bodyRecords_settled
    · rw [hs.1]
      rcases hs.2 with hmax | ⟨-, he⟩
      · cases hmax
      · exact bodyRecords_completing he
  · -- the write of `completed` may have been made before it raised
    rcases hs with hsame | ⟨hwritten, hallowed⟩
    · rw [hsame]
      exact bodyRecords_settled
    · rw [hwritten]
      exact bodyRecords_completing (hallowed rfl)

theorem proveJob_records {job : ProofJob} {decrypted : Json} :
    Keeps id BodyRecords (proveJob S id job decrypted) .settled := by
  unfold proveJob
  refine safe_check_bind (fun privateInput _ => ?_) fun e _ => bodyRecords_settled
  refine keeps_settled_bind ⟨trivial, trivial⟩ (fun h => h) (fun result => ?_) fun e => bodyRecords_settled
  refine keeps_settled_bind ⟨trivial, trivial⟩ (fun h => h) (fun verified => ?_) fun e => bodyRecords_settled
  exact safe_check_bind (fun patch _ => completeJob_records) fun e _ => bodyRecords_settled

theorem unsealPayload_records {sealedPayload : String} :
    Keeps id (fun _ l => l = .settled) (unsealPayload S id sealedPayload) .settled := by
  refine safe_unsealPayload ⟨trivial, trivial⟩ (fun a l hs => hs) (fun _ _ l _ => ⟨trivial, ?_⟩) ?_
  · cases l <;> trivial
  · intro e event a l l' hl hs
    have hsame : l' = l := hs
    rw [hsame, hl]
    exact ⟨fun _ _ => rfl, rfl⟩

theorem executeJob_records {job : ProofJob} {attempts : AttemptMetadata} :
    Keeps id (fun _ l => l = .settled) (executeJob S id job attempts) .settled := by
  refine safe_try (J := fun _ l => l = .settled) (H := fun e l => l ≠ .failing ∧ (e = .cancelled → l = .settled))
    (P := fun l => l = .settled) (R := BodyRecords) rfl (fun _ => unsealPayload_records) ?_ ?_
    (fun hs => hs.1 rfl) ?_ ?_
  · intro e l hl
    have hl' : l = .settled := hl
    rw [hl']
    exact ⟨nofun, fun _ => rfl⟩
  · intro l decrypted hl
    have hl' : l = .settled := hl
    rw [hl']
    exact proveJob_records
  · rintro e l ⟨-, hl, hcancelled⟩
    refine ⟨hl, ?_⟩
    rintro rfl
    exact hcancelled rfl
  · rintro l decrypted exc ⟨hl, hcancelled⟩
    exact handleException_records exc hl hcancelled

/-- The path of the used-up attempts appends its event right behind the status. -/
theorem maxAttemptsExceeded_records {job : ProofJob} {attempts : AttemptMetadata} :
    Keeps id (fun _ l => l = .settled) (maxAttemptsExceeded S id job attempts) .settled := by
  unfold maxAttemptsExceeded
  refine safe_await_bind ⟨nofun, trivial⟩ (fun r l hs => ?_) fun e l hs => hs
  have hfailing : l = .failing := hs
  subst hfailing
  refine safe_await_bind ⟨trivial, .inr ⟨_, rfl, rfl, rfl⟩⟩ (fun r l hs => ?_)
    fun e l hs => recordingSem_failed rfl rfl hs
  rw [recordingSem_failed rfl rfl hs]
  refine keeps_settled_bind (c := .upsertDeadLetterJob _) ⟨trivial, trivial⟩ (fun h => h) (fun _ => ?_) fun _ => rfl
  refine safe_await (.purgeSealedJobPayload id .maxAttempts) ⟨trivial, trivial⟩ ?_
  rintro (e | r) l hs
  · exact hs.1
  · exact hs

theorem deliverJob_records {job : ProofJob} : Keeps id (fun _ l => l = .settled) (deliverJob S id job) .settled := by
  unfold deliverJob
  generalize nextAttemptMetadata job.metadata S.maxAttempts = next
  obtain ⟨attempts, exceeded⟩ := next
  cases exceeded with
  | true => exact maxAttemptsExceeded_records
  | false =>
    refine keeps_settled_bind ⟨nofun, trivial⟩ (recordingSem_open rfl) (fun updatedJob => ?_) fun _ => rfl
    exact keeps_settled_bind ⟨trivial, trivial⟩ recordingSem_event (fun _ => executeJob_records) fun _ => rfl

/-- **A delivery ends with nothing to record.** -/
theorem processProofJob_records : Keeps id (fun _ l => l = .settled) (processProofJob S id) .settled := by
  rw [processProofJob_eq]
  refine keeps_settled_bind ⟨trivial, trivial⟩ (fun h => h) (fun _ => ?_) fun _ => rfl
  refine keeps_settled_bind ⟨trivial, trivial⟩ (fun h => h) (fun row => ?_) fun _ => rfl
  exact safe_gate (fun _ => rfl) fun _ _ _ => deliverJob_records

/-! ## The database -/

/-- A step that keeps the status of a terminal job, and the proof of a completed one. -/
theorem Recording.Holds.mono {l : Recording} (h : l.Holds id w)
    (hrow : ∀ job', w'.proofJobs id = some job' → job'.status.terminal = false ∨
      ∃ job, w.proofJobs id = some job ∧ job.status = job'.status ∧ (job'.status = .completed → job.proof = job'.proof))
    (hev : ∀ e ∈ w.auditEvents, e ∈ w'.auditEvents) : l.Holds id w' := by
  have hlogged : ∀ {status P}, Logged id status w P → Logged id status w' P := by
    rintro status P ⟨e, he, hP⟩
    exact ⟨e, hev e he, hP⟩
  have hopen : ∀ {job' : ProofJob} {status : JobStatus}, status.terminal = true → job'.status.terminal = false →
      job'.status ≠ status := by
    rintro job' status hterm hopen rfl
    rw [hterm] at hopen
    cases hopen
  cases l with
  | settled =>
    intro job' hjob'
    rcases hrow job' hjob' with hterm | ⟨job, hjob, hst, hproof⟩
    · exact ⟨fun h => absurd h (hopen rfl hterm), fun h => absurd h (hopen rfl hterm)⟩
    · refine ⟨fun hc => ?_, fun hf => hlogged ((h job hjob).2 (hst.trans hf))⟩
      have hold := (h job hjob).1 (hst.trans hc)
      rw [hproof hc] at hold
      exact hlogged hold
  | completing proof =>
    intro job' hjob'
    rcases hrow job' hjob' with hterm | ⟨job, hjob, hst, hproof⟩
    · exact ⟨hopen rfl hterm, fun h => absurd h (hopen rfl hterm)⟩
    · refine ⟨fun hf => (h job hjob).1 (hst.trans hf), fun hc => ?_⟩
      rw [← hproof hc]
      exact (h job hjob).2 (hst.trans hc)
  | failing =>
    intro job' hjob'
    rcases hrow job' hjob' with hterm | ⟨job, hjob, hst, -⟩
    · exact hopen rfl hterm
    · exact fun hc => h job hjob (hst.trans hc)

/-- **A call of another program** leaves the ledger. -/
theorem sem_elsewhere {c : Call} {a : Except PyExn c.Resp} {l : Recording} (h : c.Sem w a w') (hc : ElsewhereCall id c)
    (hprune : c.prunes id w → w' = w) (hl : l.Holds id w) : l.Holds id w' := by
  refine hl.mono ?_ fun e he => mem_events h he
  intro job' hjob'
  rcases row_cases h id with hrow | ⟨u, job, now, rfl, -⟩ | ⟨new, now, rfl, -, -, hrow⟩ |
    ⟨site, job, now, rfl, -⟩ | ⟨olderThan, job, now, rfl, hjob, hrow⟩
  · exact .inr ⟨job', hrow ▸ hjob', rfl, fun _ => rfl⟩
  · exact absurd rfl hc
  · obtain rfl := Option.some.inj (hrow.symm.trans hjob')
    left
    have hq : new.status = .queued := hc
    show new.status.terminal = false
    rw [hq]
    rfl
  · exact absurd rfl hc
  · by_cases hpruned : (Call.pruneTerminalJobRuntimeData olderThan).prunes id w
    · rw [hprune hpruned] at hjob'
      exact .inr ⟨job', hjob', rfl, fun _ => rfl⟩
    · obtain rfl := Option.some.inj (hrow.symm.trans hjob')
      refine .inr ⟨job, hjob, (ProofJob.prune_status ..).symm, fun hst => ?_⟩
      rw [ProofJob.prune_status] at hst
      have hnot : job.prunable olderThan = false := by
        by_contra hne
        exact hpruned ⟨job, hjob, hst, Bool.eq_true_of_not_eq_false hne⟩
      unfold ProofJob.prune
      rw [hnot]
      rfl

/-- The delivery has written a status. -/
theorem holds_write {l : Recording} {u : JobUpdate} {now : ℚ} {job : ProofJob}
    (hproof : u.status = .completed → u.proof.isSome = true)
    (hrow : w'.proofJobs id = some (job.update u now)) : (l.write u).Holds id w' := by
  have hjob : ∀ job', w'.proofJobs id = some job' → job'.status = u.status ∧ job'.proof = u.proof.or job.proof := by
    intro job' hjob'
    obtain rfl := Option.some.inj (hrow.symm.trans hjob')
    exact ⟨rfl, rfl⟩
  unfold Recording.write
  cases hst : u.status with
  | completed =>
    obtain ⟨proof, hp⟩ := Option.isSome_iff_exists.1 (hproof hst)
    rw [hp]
    intro job' hjob'
    obtain ⟨h1, h2⟩ := hjob job' hjob'
    rw [h1, h2, hst, hp]
    exact ⟨nofun, fun _ => rfl⟩
  | failed =>
    intro job' hjob'
    rw [(hjob job' hjob').1, hst]
    exact nofun
  | queued | running =>
    intro job' hjob'
    rw [(hjob job' hjob').1, hst]
    exact ⟨nofun, nofun⟩

/-- The event that was to come. -/
theorem holds_event {l : Recording} {args : EventArgs} (hl : l.Holds id w') (hargs : l.awaits id args)
    (hmem : args ∈ w'.auditEvents) : Recorded id w' := by
  cases l with
  | settled => exact False.elim hargs
  | completing proof =>
    intro job hjob
    obtain ⟨hid, hstatus, hproof⟩ := hargs
    refine ⟨fun hc => ⟨args, hmem, hid, hstatus, hproof.trans ((hl job hjob).2 hc).symm⟩, fun hf => ?_⟩
    exact absurd hf (hl job hjob).1
  | failing =>
    intro job hjob
    exact ⟨fun hc => absurd hc (hl job hjob), fun _ => ⟨args, hmem, hargs.1, hargs.2, trivial⟩⟩

/-- The delivery has made its write, if the row is there. -/
theorem holds_updated {l : Recording} {u : JobUpdate} (hproof : u.status = .completed → u.proof.isSome = true)
    (hdone : ∃ r, (Call.updateProofJob id u).Done w r w') : (l.write u).Holds id w' := by
  obtain ⟨r, now, rfl, -⟩ := hdone
  cases hjob : w.proofJobs id with
  | none =>
    have hnone : ((Call.updateProofJob id u).effect now w).proofJobs id = none := by
      simp only [Call.effect, World.updateProofJob, hjob]
    have hall : ∀ P : ProofJob → Prop, ∀ job, ((Call.updateProofJob id u).effect now w).proofJobs id = some job →
        P job := by
      intro P job hj
      rw [hnone] at hj
      cases hj
    cases l.write u with
    | settled => exact hall _
    | completing proof => exact hall _
    | failing => exact hall _
  | some job => exact holds_write hproof (proofJobs_updateProofJob hjob u now)

/-- A write of the delivery. -/
theorem sem_update {u : JobUpdate} {a : Except PyExn (Option ProofJob)} {l : Recording}
    (h : (Call.updateProofJob id u).Sem w a w') (hok : RecordingOk id (.updateProofJob id u) l)
    (hcond : ∀ e, a = .error e → (Call.updateProofJob id u).handled id e w w') (hl : l.Holds id w) :
    ∃ l', RecordingSem id (.updateProofJob id u) l a l' ∧ l'.Holds id w' := by
  cases a with
  | ok r => exact ⟨l.write u, rfl, holds_updated hok.1 ⟨r, h⟩⟩
  | error e =>
    obtain ⟨hfailed, hcompleted⟩ := hcond e rfl rfl
    by_cases hu : u.status = .failed
    · obtain ⟨rfl, hlogged⟩ := hfailed hu
      have hsem : RecordingSem id (.updateProofJob id u) l (.error e) .settled := by
        show if u.status = .failed then _ else _
        rw [if_pos hu]
      refine ⟨.settled, hsem, ?_⟩
      cases l with
      | settled => exact hl
      | completing proof =>
        intro job hjob
        refine ⟨fun hst => ?_, fun hf => absurd hf (hl job hjob).1⟩
        by_contra hnone
        exact hlogged ⟨job, hjob, hst, hnone⟩
      | failing => obtain ⟨-, ⟨site, hf, -⟩ | ⟨args, hf, -⟩⟩ := hok <;> cases hf
    · have hsem : ∀ l', l' = l ∨ (l' = l.write u ∧ (u.status = .completed → e ≠ .cancelled)) →
          RecordingSem id (.updateProofJob id u) l (.error e) l' := by
        intro l' hl'
        show if u.status = .failed then _ else _
        rw [if_neg hu]
        exact hl'
      by_cases hcancelled : u.status = .completed ∧ e = .cancelled
      · rw [hcompleted hcancelled.1 hcancelled.2]
        exact ⟨l, hsem l (.inl rfl), hl⟩
      · rcases sem_cases h with rfl | hdone
        · exact ⟨l, hsem l (.inl rfl), hl⟩
        · refine ⟨l.write u, hsem _ (.inr ⟨rfl, fun hst he => hcancelled ⟨hst, he⟩⟩), holds_updated hok.1 hdone⟩

/-- An event of the delivery. -/
theorem sem_event {args : EventArgs} {a : Except PyExn Unit} {l : Recording} (h : (Call.appendEvent args).Sem w a w')
    (hcond : ∀ e, a = .error e → (Call.appendEvent args).handled id e w w') (hl : l.Holds id w) :
    ∃ l', RecordingSem id (.appendEvent args) l a l' ∧ l'.Holds id w' := by
  have hrow : w'.proofJobs = w.proofJobs := (sem_quiet (c := .appendEvent args) rfl h).1
  have hl' : l.Holds id w' := hl.mono (fun job' hjob' => .inr ⟨job', hrow ▸ hjob', rfl, fun _ => rfl⟩)
    fun e he => mem_events h he
  by_cases hdone : ∃ r, (Call.appendEvent args).Done w r w'
  · by_cases hargs : l.awaits id args
    · have hsettled : Recording.settled.Holds id w' := by
        obtain ⟨r, now, rfl, -⟩ := hdone
        exact holds_event hl' hargs (List.mem_append_right _ (List.mem_singleton.2 rfl))
      refine ⟨.settled, ?_, hsettled⟩
      cases a with
      | error e => exact .inl ⟨hargs, rfl⟩
      | ok r => exact ⟨fun _ => rfl, fun hn => absurd hargs hn⟩
    · refine ⟨l, ?_, hl'⟩
      cases a with
      | error e => exact .inr ⟨rfl, fun hy => absurd hy hargs⟩
      | ok r => exact ⟨fun hy => absurd hy hargs, fun _ => rfl⟩
  · cases a with
    | ok r => exact absurd ⟨r, h⟩ hdone
    | error e =>
      refine ⟨l, .inr ⟨rfl, fun hargs => ?_⟩, hl'⟩
      cases l with
      | settled => exact False.elim hargs
      | completing proof =>
        obtain ⟨hid, hstatus, -⟩ := hargs
        exact ⟨hstatus, fun he => hdone (hcond e rfl hid (.inr ⟨hstatus, he⟩))⟩
      | failing => exact absurd (hcond e rfl hargs.1 (.inl hargs.2)) hdone

/-- **A call of the delivery.** -/
theorem sem_recording {c : Call} {a : Except PyExn c.Resp} {l : Recording} (h : c.Sem w a w') (hc : DeliveryCall id c)
    (hok : RecordingOk id c l) (hcond : ∀ e, a = .error e → c.handled id e w w') (hl : l.Holds id w) :
    ∃ l', RecordingSem id c l a l' ∧ l'.Holds id w' := by
  have hev : ∀ e ∈ w.auditEvents, e ∈ w'.auditEvents := fun e he => mem_events h he
  have hsame : w'.proofJobs id = w.proofJobs id → l.Holds id w' := fun hrow =>
    hl.mono (fun job' hjob' => .inr ⟨job', hrow ▸ hjob', rfl, fun _ => rfl⟩) hev
  cases c with
  | updateProofJob proofId u =>
    obtain ⟨rfl, -⟩ := hc
    exact sem_update h hok hcond hl
  | appendEvent args => exact sem_event h hcond hl
  | purgeSealedJobPayload proofId site =>
    have hid : proofId = id := hc
    subst hid
    refine ⟨l, ?_, hl.mono ?_ hev⟩
    · cases a with
      | error e => exact ⟨rfl, hcond e rfl rfl⟩
      | ok r => exact (rfl : l = l)
    · intro job' hjob'
      rcases row_cases h proofId with hrow | ⟨u, job, now, hf, -⟩ | ⟨new, now, hf, -⟩ |
        ⟨site', job, now, -, hjob, hrow⟩ | ⟨olderThan, job, now, hf, -⟩
      · exact .inr ⟨job', hrow ▸ hjob', rfl, fun _ => rfl⟩
      · cases hf
      · cases hf
      · obtain rfl := Option.some.inj (hrow.symm.trans hjob')
        exact .inr ⟨job, hjob, rfl, fun _ => rfl⟩
      · cases hf
  | _ =>
    -- the calls that write no row, or that a delivery does not make
    first
    | exact False.elim hc
    | refine ⟨l, by cases a <;> rfl, hsame ?_⟩
      rcases row_cases h id with hrow | ⟨_, _, _, hf, -⟩ | ⟨_, _, hf, -⟩ | ⟨_, _, _, hf, -⟩ | ⟨_, _, _, hf, -⟩ <;>
        first | exact hrow | cases hf

/-! ## Runs -/

/-- In a delivery. -/
def KeepsRecords (id : String) (p : Service Unit) (w : World) : Prop :=
  p.Calls (DeliveryCall id) ∧ ∃ l, Recording.Holds id w l ∧ Keeps id (fun _ l => l = .settled) p l

variable {settings : Set WorkerSettings} {s : Services}

/-- The rule of the broker, for one job; no program owes anything here. -/
theorem record_protects : Protects (serviceBroker settings sha256) id (recordCond id)
    (fun owes p => owes = false ∧ p.Calls (ElsewhereCall id)) (KeepsRecords id) (fun _ w => Recorded id w) where
  request := by
    rintro p ⟨S, -, task, htask, rfl⟩
    exact ⟨rfl, request_elsewhere htask⟩
  deliverOther := by
    rintro proofId hid p ⟨S, -, rfl⟩
    exact ⟨rfl, delivery_elsewhere hid⟩
  deliver := by
    rintro p ⟨S, -, rfl⟩ owed w hrest -
    exact ⟨processProofJob_calls, .settled, hrest, processProofJob_records⟩
  otherCall := by
    rintro owes c k w a w' ⟨howes, hcall, hk⟩ hs hcond
    refine ⟨false, ⟨rfl, hk a⟩, ?_, ?_⟩
    · exact fun _ hr => sem_elsewhere (l := .settled) hs hcall hcond.1 hr
    · rintro q ⟨hq, l, hl, hkeeps⟩
      exact ⟨hq, l, sem_elsewhere hs hcall hcond.1 hl, hkeeps⟩
  otherCrash := fun hp _ => hp.1
  otherFinish := fun hp => hp.1
  removeOther := fun _ _ _ => ⟨fun _ hr => hr, fun _ hq => hq⟩
  busyCall := by
    rintro c k w a w' ⟨⟨hcall, hk⟩, l, hl, hok, hkeeps⟩ hs hcond
    obtain ⟨l', hsem, hl'⟩ := sem_recording hs hcall hok hcond.2 hl
    exact ⟨hk a, l', hl', hkeeps a l' hsem⟩
  busyCrash := by
    rintro c k w ⟨-, l, hl, hok, -⟩ hcrash owed
    cases l with
    | settled => exact hl
    | completing proof =>
      rcases hok.2 with rfl | ⟨args, rfl, hid, hst⟩ | ⟨u, rfl, hu⟩
      · exact absurd ⟨rfl, nofun⟩ hcrash
      · exact absurd ⟨hid, by simp [hst]⟩ hcrash
      · -- a handler about to write `failed`, while the row is not `completed` without its event
        intro job hjob
        refine ⟨fun hst => ?_, fun hf => absurd hf (hl job hjob).1⟩
        by_contra hnone
        exact hcrash ⟨rfl, hu, job, hjob, hst, hnone⟩
    | failing =>
      rcases hok.2 with ⟨site, rfl, hsite⟩ | ⟨args, rfl, hid, hst⟩
      · exact absurd ⟨rfl, hsite⟩ hcrash
      · exact absurd ⟨hid, by simp [hst]⟩ hcrash
  busyFinish := by
    rintro r w ⟨-, l, hl, hkeeps⟩ owed
    have hsettled : l = .settled := hkeeps
    subst hsettled
    exact hl

/-- **When table and log agree.** In every run of submissions, requeues, deliveries and
maintenance cycles whose steps meet the condition for a job, and every state of it in which
the job has no delivery: a completed job has its completed event with the hash of its proof,
and a failed one its failed event. -/
theorem audit_agrees (hrun : Run (serviceBroker settings sha256) (Meets (recordCond id) id) (init .empty) s)
    (hno : s.NotDelivering id) : AuditAgrees sha256 id s.world := by
  have hempty : Recorded id World.empty := by
    intro job hjob
    cases hjob
  obtain ⟨-, hrest⟩ := (protects_run record_protects hempty hrun).1 hno
  exact auditAgrees_of_recorded hrest

/-- Vault is down: the payload cannot be decrypted and the event of the failure not be signed. -/
def vaultFails : Call → Bool
  | .unsealJobPayload _ => true
  | .appendEvent args => args.status = "failed"
  | _ => false

/-- **A failed job without an audit event.** The handler has written `failed` when its event
raises; the delivery is over, nothing is pending, and the log has no failed row. -/
theorem failed_without_event : ∃ s, Run demoBroker (fun _ _ _ => True) (init .empty) s ∧
    s.NotDelivering demoJob.proofId ∧ demoJob.proofId ∉ s.world.queue ∧ ¬ AuditAgrees demoSha demoJob.proofId
      s.world := by
  refine ⟨demoPlain.ended vaultFails 9, DemoSetup.ended_run
    ⟨fun _ _ _ _ => trivial, fun _ _ _ _ _ => trivial, fun _ _ _ => trivial,
    fun _ _ _ _ _ => trivial⟩ rfl (by decide) rfl, DemoSetup.ended_notDelivering 9 _, by decide, ?_⟩
  intro h
  have hnone : ∀ e ∈ (demoPlain.ended vaultFails 9).world.auditEvents, e.status ≠ "failed" := by decide
  obtain ⟨e, he, -, hst, -⟩ := (h _ rfl).2 rfl
  exact hnone e he hst

/-- Nothing is pruned. -/
def pruneFails : Call → Bool
  | .pruneTerminalJobRuntimeData _ => true
  | _ => false

/-- A delivery that goes well leaves a completed job with its event. -/
theorem audit_agrees_completed : AuditAgrees demoSha demoJob.proofId (demoPlain.ended pruneFails 11).world ∧
    statusOf demoJob.proofId (demoPlain.ended pruneFails 11).world = some .completed := by
  have hcall : ∀ (s : Services) i c s', s'.world = (demoPlain.oracle pruneFails c s.world).2 →
      Meets (recordCond demoJob.proofId) demoJob.proofId s
        (.call i c (demoPlain.oracle pruneFails c s.world).1) s' := by
    intro s i c s' hw
    refine ⟨?_, ?_⟩
    · intro hprune
      cases c with
      | pruneTerminalJobRuntimeData olderThan => exact hw
      | _ => exact False.elim hprune
    · intro e he
      cases c with
      | pruneTerminalJobRuntimeData olderThan => trivial
      | createProofJob new => trivial
      | _ => cases he
  refine ⟨audit_agrees (DemoSetup.ended_run ⟨fun _ _ _ _ => trivial, fun _ _ _ _ _ => trivial, fun _ _ _ => trivial,
    hcall⟩ rfl (by decide) rfl) (DemoSetup.ended_notDelivering 11 _), rfl⟩

end Vellum
