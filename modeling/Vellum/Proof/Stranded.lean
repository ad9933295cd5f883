import Vellum.Proof.TaskCalls

/-!
# Jobs without a message

A submission writes the row of a job, its audit event and its task message one after the
other, and a requeue does the same for a rerun. A delivery that raises takes the message with
it. So a job stays queued or running for ever if a call raises once the row is written and
before the message is, or a call that a delivery makes outside its `try` block, or if a
delivery is cancelled anywhere before it has ended the job.

* `OwesSem`: a request as seen from one job; it owes a message from the row on.
* `request_pays`: no request ends owing, if no call behind the row raises.
* `StatusRunSem`, `processProofJob_ends`: a delivery ends with a terminal job, if no call
  outside its `try` block raises.
* `no_job_stranded`: under these conditions no queued or running job is without a message.
* `job_stranded`: a run that strands a job.
-/

namespace Vellum

open Prog Relation Broker

variable {S : WorkerSettings} {sha256 : String → String} {id : String}

/-! ## The condition -/

/-- Queued or running. -/
def OpenJob (id : String) (w : World) : Prop := ∃ status, statusOf id w = some status ∧ status.terminal = false

/-- The audit events of a submission or requeue between the row of the job and its message. -/
def EventArgs.afterCreation (id : String) (args : EventArgs) : Prop :=
  (args.status = "queued" ∧ args.proofId = some id) ∨
    (args.status = "rerun_triggered" ∧ args.metadataPayload.lookup "rerun_proof_id" = some (.str id))

/-- The calls of a submission or requeue between the row of the job and its message. -/
def Call.afterCreation (id : String) : Call → Prop
  | .appendEvent args => args.afterCreation id
  | .enqueue proofId => proofId = id
  | _ => False

/-- A call that raises leaves no row of the job without its message: the row is not written, or the
message is. -/
def Call.leavesNone (id : String) (w w' : World) : Call → Prop
  | .createProofJob new => new.proofId = id → ¬ ∃ r, (Call.createProofJob new).Done w r w'
  | .appendEvent args => ¬ args.afterCreation id
  | .enqueue proofId => proofId = id → ∃ r, (Call.enqueue proofId).Done w r w'
  | _ => True

/-- The calls of a delivery that stand outside its `try` block, those of the handlers included. -/
def Call.outsideTry : Call → Bool
  | .initModels | .getProofJob _ => true
  | .updateProofJob _ u => u.status ≠ .completed
  | .appendEvent args => args.status = "running"
  | _ => false

/-- **The condition on a step**: nothing raises or is interrupted between the row of the job and its
message, and no delivery ends on an exception that reaches no handler while the job is open. -/
def strandCond (id : String) : StepCond World Call.Resp PyExn where
  call := fun delivering c w a w' => ∀ e, a = .error e →
    c.leavesNone id w w' ∧ (delivering → c.outsideTry = true ∨ e = .cancelled → ¬ OpenJob id w')
  crash := fun _ c _ => ¬ c.afterCreation id

/-! ## Requests -/

/-- Whether a program owes the message of the job, after a call. -/
def OwesSem (id : String) (c : Call) (owes : Bool) (a : Except PyExn c.Resp) (owes' : Bool) : Prop :=
  match c, a with
  | .createProofJob new, .ok _ => owes' = if new.proofId = id then true else owes
  | .appendEvent args, .error _ => owes' = owes ∧ ¬ args.afterCreation id
  -- a message that was not sent would be missing
  | .enqueue proofId, _ => owes' = if proofId = id then false else owes
  | _, _ => owes' = owes

/-- The calls of a program that is no delivery of the job. -/
def OwesOk (id : String) (c : Call) (owes : Bool) : Prop :=
  (owes = true → c.afterCreation id) ∧
  match c with
  | .updateProofJob proofId _ => proofId ≠ id
  | .createProofJob new => new.status = .queued
  | .enqueue proofId => proofId = id → owes = true
  | _ => True

/-- A program that pays what it owes. -/
abbrev Pays {α : Type} (id : String) (owes : Bool) (p : Service α) : Prop :=
  p.Safe (OwesSem id) (OwesOk id) (fun _ owes => owes = false) owes

/-- The calls that change what is owed, and the writes of a status. -/
def Call.orders : Call → Bool
  | .createProofJob _ | .enqueue _ | .updateProofJob .. => true
  | _ => false

theorem owesOk_of_orders {c : Call} (hc : c.orders = false) : OwesOk id c false := by
  refine ⟨fun hf => absurd hf Bool.false_ne_true, ?_⟩
  cases c <;> trivial

theorem owesSem_of_orders {c : Call} (hc : c.orders = false) {owes owes' : Bool} {a : Except PyExn c.Resp}
    (h : OwesSem id c owes a owes') : owes' = owes := by
  cases c <;> first | exact h | (cases a <;> first | exact h | exact h.1) | cases hc

/-- Any other call, by a program that owes nothing. -/
theorem pays_await_bind {α : Type} {c : Call} {f : c.Resp → Service α} (hc : c.orders = false)
    (hf : ∀ r, Pays id false (f r)) : Pays id false (await c >>= f) := by
  refine safe_await_bind (owesOk_of_orders hc) (fun r owes hs => ?_) fun e owes hs => owesSem_of_orders hc hs
  rw [owesSem_of_orders hc hs]
  exact hf r

/-- The row of a job is created: from here on a message is owed if it is the job. -/
theorem pays_create_bind {α : Type} {new : NewJob} {f : Unit → Service α} (hq : new.status = .queued)
    (hf : Pays id (decide (new.proofId = id)) (f ())) : Pays id false (await (.createProofJob new) >>= f) := by
  refine safe_await_bind ⟨fun hf => absurd hf Bool.false_ne_true, hq⟩ (fun r owes hs => ?_) fun e owes hs => hs
  have howes : owes = if new.proofId = id then true else false := hs
  rw [howes]
  by_cases hid : new.proofId = id
  · rw [decide_eq_true hid] at hf
    rw [if_pos hid]
    exact hf
  · rw [decide_eq_false hid] at hf
    rw [if_neg hid]
    exact hf

/-- An audit event between row and message. -/
theorem pays_event_bind {α : Type} {proofId : String} {args : EventArgs} {f : Unit → Service α}
    (hafter : (Call.appendEvent args).afterCreation proofId) (hf : Pays id (decide (proofId = id)) (f ())) :
    Pays id (decide (proofId = id)) (await (.appendEvent args) >>= f) := by
  by_cases hid : proofId = id
  · -- the message is owed, so the event does not raise
    subst hid
    refine safe_await_bind ⟨fun _ => hafter, trivial⟩ (fun r owes hs => ?_) fun e owes hs => absurd hafter hs.2
    have howes : owes = decide (proofId = proofId) := hs
    rw [howes]
    exact hf
  · rw [decide_eq_false hid] at hf ⊢
    refine safe_await_bind ⟨fun hf => absurd hf Bool.false_ne_true, trivial⟩ (fun r owes hs => ?_) fun e owes hs => hs.1
    have howes : owes = false := hs
    rw [howes]
    exact hf

/-- The message pays. -/
theorem pays_enqueue {proofId : String} : Pays id (decide (proofId = id)) (await (.enqueue proofId)) := by
  by_cases hid : proofId = id
  · subst hid
    refine safe_await (.enqueue proofId) ⟨fun _ => rfl, fun _ => decide_eq_true rfl⟩ ?_
    intro a owes hs
    have howes : owes = if proofId = proofId then false else decide (proofId = proofId) := hs
    rwa [if_pos rfl] at howes
  · rw [decide_eq_false hid]
    refine safe_await (.enqueue proofId) ⟨fun hf => absurd hf Bool.false_ne_true, fun h => absurd h hid⟩ ?_
    intro a owes hs
    have howes : owes = if proofId = id then false else false := hs
    rwa [if_neg hid] at howes

/-- The deliveries of other jobs owe nothing. -/
theorem delivery_pays {proofId : String} (h : proofId ≠ id) : Pays id false (processProofJob S proofId) := by
  refine safe_of_calls processProofJob_calls ?_ ?_ fun _ => rfl
  · intro c hc
    cases c with
    | updateProofJob proofId' u =>
      exact ⟨fun hf => absurd hf Bool.false_ne_true, fun hid => h (hc.1.symm.trans hid)⟩
    | createProofJob new => exact False.elim hc
    | enqueue proofId' => exact False.elim hc
    | _ => exact owesOk_of_orders rfl
  · intro c a owes hc hs
    cases c with
    | updateProofJob proofId' u => exact hs
    | createProofJob new => exact False.elim hc
    | enqueue proofId' => exact False.elim hc
    | _ => exact owesSem_of_orders rfl hs

/-- A submission pays. -/
theorem persistAndEnqueueJob_pays {proofId circuitId sourceMode sealedPayload : String} {payload : Json}
    {metadata : Dict Json} :
    Pays id false (persistAndEnqueueJob sha256 proofId circuitId payload sourceMode sealedPayload metadata) := by
  unfold persistAndEnqueueJob
  refine pays_create_bind rfl ?_
  refine pays_event_bind (.inl ⟨rfl, rfl⟩) ?_
  exact pays_enqueue

/-- So does the part of a requeue that creates the rerun. -/
theorem triggerRerun_pays {request : RequeueRequest} {row : DeadLetterJob} {new : NewJob}
    (hid : new.proofId = request.rerunProofId) (hq : new.status = .queued) :
      Pays id false (triggerRerun request row new) := by
  unfold triggerRerun
  refine pays_create_bind hq ?_
  rw [hid]
  refine pays_event_bind (.inl ⟨rfl, rfl⟩) ?_
  refine pays_event_bind (.inr ⟨rfl, rfl⟩) ?_
  refine safe_bind (safe_mono ?_ pays_enqueue)
  rintro (e | r) owes rfl
  · rfl
  · exact pays_await_bind rfl fun _ => rfl

theorem requeueDeadLetterJob_pays {repr : Json → String} {request : RequeueRequest} :
    Pays id false (requeueDeadLetterJob sha256 repr request) := by
  unfold requeueDeadLetterJob
  refine pays_await_bind rfl fun row => ?_
  unfold requeueRow
  cases row with
  | none => exact (rfl : false = false)
  | some row =>
    cases hr : row.rerun? with
    | some rerun =>
      simp only [hr]
      exact (rfl : false = false)
    | none =>
      cases hp : row.sealedRerunPayload.filter (· ≠ "") with
      | none =>
        simp only [hr, hp]
        exact (rfl : false = false)
      | some sealedPayload =>
        simp only [hr, hp]
        exact pays_await_bind rfl fun sourceJob => triggerRerun_pays rfl rfl

/-- **No request ends owing.** -/
theorem request_pays {task : Task} (h : task.isRequest = true) : Pays id false (task.prog S sha256) := by
  cases task with
  | submit => exact persistAndEnqueueJob_pays
  | requeue request =>
    refine safe_bind (safe_mono ?_ requeueDeadLetterJob_pays)
    rintro (e | r) owes rfl <;> rfl
  | deliver proofId => cases h
  | maintain cutoff =>
    refine pays_await_bind rfl fun _ => ?_
    exact safe_await (.pruneTerminalJobRuntimeData cutoff) (owesOk_of_orders rfl) fun _ _ hs => owesSem_of_orders rfl hs

/-! ## Deliveries -/

/-- A call raises: where no handler is for it, the job has ended. -/
def RaisedEnded (c : Call) (e : PyExn) (status : JobStatus) : Prop :=
  c.outsideTry = true ∨ e = .cancelled → status.terminal = true

/-- A delivery as seen from the status of its job, which exists. -/
def StatusRunSem (id : String) (c : Call) (status : JobStatus) (a : Except PyExn c.Resp) (status' : JobStatus) : Prop :=
  match c, a with
  | .updateProofJob proofId u, .ok _ => status' = if proofId = id then u.status else status
  -- a write that raises may have been made
  | .updateProofJob proofId u, .error e => RaisedEnded (.updateProofJob proofId u) e status'
  | .getProofJob proofId, .ok r => status' = status ∧ (proofId = id → ∃ job, r = some job ∧ job.status = status)
  | c, .error e => status' = status ∧ RaisedEnded c e status'
  | _, .ok _ => status' = status

/-- A program at whose end `Q` holds of the status. -/
abbrev Ends {α : Type} (id : String) (Q : Except PyExn α → JobStatus → Prop) (p : Service α)
    (status : JobStatus) : Prop :=
  p.Safe (StatusRunSem id) (fun _ _ => True) Q status

/-- The calls that neither read nor write a row. -/
def Call.statusless : Call → Bool
  | .updateProofJob .. | .getProofJob _ => false
  | _ => true

theorem statusRunSem_same {c : Call} (hc : c.statusless = true) {status status' : JobStatus} {a : Except PyExn c.Resp}
    (h : StatusRunSem id c status a status') : status' = status := by
  cases c <;> first | (cases a <;> first | exact h | exact h.1) | cases hc

theorem statusRunSem_raised {c : Call} {status status' : JobStatus} {e : PyExn}
    (h : StatusRunSem id c status (.error e) status') : RaisedEnded c e status' := by
  cases c <;> first | exact h | exact h.2

/-- What holds of the status at the end of a part of the `try` body: a result, or a cancellation, is
the end of the delivery. -/
def StopsEnded {α : Type} (r : Except PyExn α) (status : JobStatus) : Prop :=
  ∀ e, r = .error e → e = .cancelled → status.terminal = true

theorem stopsEnded_raised {α : Type} {c : Call} {status status' : JobStatus} {e : PyExn}
    (h : StatusRunSem id c status (.error e) status') : StopsEnded (.error e : Except PyExn α) status' := by
  intro e' he hcancelled
  cases he
  exact statusRunSem_raised h (.inr hcancelled)

theorem stopsEnded_exception {α : Type} {e : PyExn} (h : e.isException = true) (status : JobStatus) :
    StopsEnded (.error e : Except PyExn α) status := by
  intro e' he hcancelled
  cases he
  rw [hcancelled] at h
  cases h

/-- A call that leaves a terminal status. -/
theorem ends_terminal_bind {α : Type} {c : Call} {f : c.Resp → Service α} {status : JobStatus}
    (hc : c.statusless = true) (hterm : status.terminal = true)
    (hf : ∀ r, Ends id (fun _ status => status.terminal = true) (f r) status) :
    Ends id (fun _ status => status.terminal = true) (await c >>= f) status := by
  refine safe_await_bind trivial (fun r status' hs => ?_) fun e status' hs => ?_
  · rw [statusRunSem_same hc hs]
    exact hf r
  · rw [statusRunSem_same hc hs]
    exact hterm

/-- The handlers write `failed`, or raise at a terminal status. -/
theorem recordFailure_ends {job : ProofJob} {attempts : AttemptMetadata} {decrypted : Option Json} {site : Site}
    {reason error : String} (status : JobStatus) :
    Ends id (fun _ status => status.terminal = true)
      (recordFailure S id job attempts decrypted site reason error) status := by
  unfold recordFailure
  refine safe_await_bind trivial (fun r status' hs => ?_) fun e status' hs => ?_
  · have hfailed : status' = if id = id then .failed else status := hs
    rw [if_pos rfl] at hfailed
    subst hfailed
    refine ends_terminal_bind rfl rfl fun _ => ?_
    refine ends_terminal_bind rfl rfl fun _ => ?_
    refine safe_await (.upsertDeadLetterJob _) trivial fun a status' hs => ?_
    rw [statusRunSem_same rfl hs]
    rfl
  · exact statusRunSem_raised hs (.inl rfl)

theorem handleException_ends {job : ProofJob} {attempts : AttemptMetadata} {decrypted : Option Json} (exc : PyExn)
    {status : JobStatus} (hcancelled : exc = .cancelled → status.terminal = true) :
    Ends id (fun _ status => status.terminal = true) (handleException S id job attempts decrypted exc) status :=
  safe_handler (P := fun status : JobStatus => status.terminal = true) exc hcancelled fun _ => recordFailure_ends status

/-- The status behind the `try` body: terminal if it returns or is cancelled. -/
def BodyEnds (r : Except PyExn Unit) (status : JobStatus) : Prop :=
  (r = .ok () → status.terminal = true) ∧ StopsEnded r status

theorem bodyEnds_raised {c : Call} {status status' : JobStatus} {e : PyExn}
    (h : StatusRunSem id c status (.error e) status') : BodyEnds (.error e) status' :=
  ⟨nofun, stopsEnded_raised h⟩

theorem bodyEnds_terminal {r : Except PyExn Unit} {status : JobStatus} (h : status.terminal = true) :
    BodyEnds r status :=
  ⟨fun _ => h, fun _ _ _ => h⟩

/-- The `try` body writes `completed`, or raises. -/
theorem completeJob_ends {job : ProofJob} {result : ProofResult} {patch : Option (List (String × Json))}
    (status : JobStatus) :
    Ends id BodyEnds (completeJob S id job result patch) status := by
  unfold completeJob
  refine safe_await_bind trivial (fun r status' hs => ?_) fun e status' hs => bodyEnds_raised hs
  refine safe_await_bind trivial (fun r status'' hs => ?_) fun e status' hs => bodyEnds_raised hs
  have hcompleted : status'' = if id = id then .completed else status' := hs
  rw [if_pos rfl] at hcompleted
  subst hcompleted
  have hrest : Ends id (fun _ status => status.terminal = true) (do
      await (.purgeSealedJobPayload id .completed)
      await (.appendEvent
        { proofId := some id
          circuitId := job.circuitId
          status := "completed"
          publicSignals := result.publicSignals
          proofPayload := some result.proof
          metadata := some (job.metadata.update (patch.getD [])).items
          error := none })) .completed := by
    refine ends_terminal_bind rfl rfl fun _ => ?_
    refine safe_await (.appendEvent _) trivial fun a status' hs => ?_
    rw [statusRunSem_same rfl hs]
    rfl
  exact safe_mono (fun _ _ => bodyEnds_terminal) hrest

theorem proveJob_ends {job : ProofJob} {decrypted : Json} (status : JobStatus) :
    Ends id BodyEnds (proveJob S id job decrypted) status := by
  unfold proveJob
  refine safe_check_bind (fun privateInput _ => ?_) fun e he => ⟨nofun, ?_⟩
  · refine safe_await_bind trivial (fun result status' hs => ?_) fun e status' hs => bodyEnds_raised hs
    refine safe_await_bind trivial (fun verified status'' hs => ?_) fun e status' hs => bodyEnds_raised hs
    refine safe_check_bind (fun patch _ => completeJob_ends status'') fun e he => ⟨nofun, ?_⟩
    exact stopsEnded_exception (completionPatch_raises _ _ _ e he) _
  · exact stopsEnded_exception (proverInput_raises _ e he) _

/-- The `try` statement ends at a terminal status, whatever it starts from. -/
theorem executeJob_ends {job : ProofJob} {attempts : AttemptMetadata} (status : JobStatus) :
    Ends id (fun _ status => status.terminal = true) (executeJob S id job attempts) status := by
  refine safe_try (J := StopsEnded) (H := fun e status => e = .cancelled → status.terminal = true)
    (P := fun status : JobStatus => status.terminal = true) (R := BodyEnds) (stopsEnded_exception rfl status)
    (fun sealedPayload => ?_) (fun hJ => hJ _ rfl) ?_ (fun hR => hR.1 rfl) (fun hR => hR.2 _ rfl) ?_
  · refine safe_unsealPayload trivial ?_ (fun _ _ _ _ => trivial) ?_
    · rintro (e | r) status' hs
      · exact stopsEnded_raised hs
      · exact fun _ he => nomatch he
    · intro e event a status' status'' hJ hs
      refine ⟨?_, stopsEnded_exception rfl _⟩
      rintro e' rfl
      exact stopsEnded_raised hs
  · intro status' decrypted _
    exact proveJob_ends status'
  · intro status' decrypted exc hcancelled
    exact handleException_ends exc hcancelled

theorem maxAttemptsExceeded_ends {job : ProofJob} {attempts : AttemptMetadata} (status : JobStatus) :
    Ends id (fun _ status => status.terminal = true) (maxAttemptsExceeded S id job attempts) status := by
  unfold maxAttemptsExceeded
  refine safe_await_bind trivial (fun r status' hs => ?_) fun e status' hs => ?_
  · have hfailed : status' = if id = id then .failed else status := hs
    rw [if_pos rfl] at hfailed
    subst hfailed
    refine ends_terminal_bind rfl rfl fun _ => ?_
    refine ends_terminal_bind (c := .upsertDeadLetterJob _) rfl rfl fun _ => ?_
    refine safe_await (.purgeSealedJobPayload id .maxAttempts) trivial fun a status' hs => ?_
    rw [statusRunSem_same rfl hs]
    rfl
  · exact statusRunSem_raised hs (.inl rfl)

theorem deliverJob_ends {job : ProofJob} (status : JobStatus) :
    Ends id (fun _ status => status.terminal = true) (deliverJob S id job) status := by
  unfold deliverJob
  generalize nextAttemptMetadata job.metadata S.maxAttempts = next
  obtain ⟨attempts, exceeded⟩ := next
  cases exceeded with
  | true => exact maxAttemptsExceeded_ends status
  | false =>
    refine safe_await_bind trivial (fun r status' hs => ?_) fun e status' hs => ?_
    · refine safe_await_bind trivial (fun _ status'' hs => executeJob_ends status'') fun e status'' hs => ?_
      -- the audit event of the running job stands outside the `try`
      exact statusRunSem_raised hs (.inl rfl)
    · exact statusRunSem_raised hs (.inl rfl)

/-- **A delivery ends with a terminal job.** -/
theorem processProofJob_ends (status : JobStatus) :
    Ends id (fun _ status => status.terminal = true) (processProofJob S id) status := by
  rw [processProofJob_eq]
  refine safe_await_bind trivial (fun _ status' hs => ?_) fun e status' hs => ?_
  · refine safe_await_bind trivial (fun row status'' hs => ?_) fun e status'' hs => ?_
    · obtain ⟨hsame, hrow⟩ := hs
      obtain ⟨job, rfl, hstatus⟩ := hrow rfl
      refine safe_gate (fun hterm => ?_) fun _ _ _ => deliverJob_ends status''
      rw [hsame, ← hstatus]
      exact hterm job rfl
    · exact statusRunSem_raised hs (.inl rfl)
  · exact statusRunSem_raised hs (.inl rfl)

/-! ## The queue -/

variable {w w' : World}

theorem sem_queue {c : Call} {a : Except PyExn c.Resp} (h : c.Sem w a w') :
    w'.queue = w.queue ∨ ∃ proofId, c = .enqueue proofId ∧ w'.queue = w.queue ++ [proofId] := by
  rcases sem_cases h with rfl | ⟨r, now, rfl, -⟩
  · exact .inl rfl
  · cases c with
    | enqueue proofId => exact .inr ⟨proofId, rfl, rfl⟩
    | updateProofJob proofId u =>
      simp only [Call.effect, World.updateProofJob]
      cases w.proofJobs proofId <;> exact .inl rfl
    | purgeSealedJobPayload proofId site =>
      simp only [Call.effect, World.purgeSealedJobPayload]
      cases w.proofJobs proofId <;> exact .inl rfl
    | _ => exact .inl rfl

theorem mem_queue_mono {c : Call} {a : Except PyExn c.Resp} (h : c.Sem w a w') (hmem : id ∈ w.queue) :
    id ∈ w'.queue := by
  rcases sem_queue h with hq | ⟨proofId, -, hq⟩
  · rwa [hq]
  · rw [hq]
    exact List.mem_append_left _ hmem

/-- **At rest**: a job with a message, or with one owed, exists, and an open job has one. -/
structure Accounted (id : String) (owed : Prop) (w : World) : Prop where
  present : id ∈ w.queue ∨ owed → (statusOf id w).isSome = true
  message : OpenJob id w → id ∈ w.queue ∨ owed

theorem Accounted.same {owed : Prop} (h : Accounted id owed w) (hst : statusOf id w' = statusOf id w)
    (hq : id ∈ w'.queue ↔ id ∈ w.queue) : Accounted id owed w' where
  present := by
    rw [hst, hq]
    exact h.present
  message := by
    unfold OpenJob
    rw [hst, hq]
    exact h.message

/-- In a delivery: the message is there, and the delivery will end the job. -/
def EndsJob (id : String) (p : Service Unit) (w : World) : Prop :=
  id ∈ w.queue ∧ ∃ status, statusOf id w = some status ∧ Ends id (fun _ status => status.terminal = true) p status

/-- A call that leaves status and queue as they are leaves what is owed. -/
theorem owesSem_still {c : Call} {a : Except PyExn c.Resp} {owes : Bool} (h : c.Sem w a w')
    (hcond : ∀ e, a = .error e → c.leavesNone id w w') (hst : statusOf id w' = statusOf id w)
    (hq : w'.queue = w.queue) : OwesSem id c owes a owes := by
  cases c with
  | createProofJob new =>
    cases a with
    | error e => exact (rfl : owes = owes)
    | ok r =>
      -- the status did not change, so it is not this job
      have hid : new.proofId ≠ id := by
        intro hid
        obtain ⟨now, rfl, hfree⟩ := h
        have hfree' : w.proofJobs new.proofId = none := hfree
        have hold : statusOf id w = none := by rw [statusOf, ← hid, hfree']; rfl
        have hnew : statusOf id ((Call.createProofJob new).effect now w) = some (new.row now).status :=
          (statusOf_setJob w new.proofId (new.row now)).trans (if_pos hid)
        rw [hnew, hold] at hst
        cases hst
      exact (if_neg hid).symm
  | appendEvent args =>
    cases a with
    | error e => exact ⟨rfl, hcond e rfl⟩
    | ok r => exact (rfl : owes = owes)
  | enqueue proofId =>
    have hid : proofId ≠ id := by
      intro hid
      have hdone : ∃ r, (Call.enqueue proofId).Done w r w' := by
        cases a with
        | error e => exact hcond e rfl hid
        | ok r => exact ⟨r, h⟩
      obtain ⟨r, now, rfl, -⟩ := hdone
      have hlen := congrArg List.length hq
      simp [Call.effect] at hlen
    exact (if_neg hid).symm
  | _ => cases a <;> exact (rfl : owes = owes)

/-- **A call of a program that is no delivery of the job.** -/
theorem sem_owes {c : Call} {a : Except PyExn c.Resp} {owes : Bool} (h : c.Sem w a w') (hok : OwesOk id c owes)
    (hcond : ∀ e, a = .error e → c.leavesNone id w w') :
    ∃ owes', OwesSem id c owes a owes' ∧
      (∀ owed, Accounted id (owes = true ∨ owed) w → Accounted id (owes' = true ∨ owed) w') ∧
      ∀ p, EndsJob id p w → EndsJob id p w' := by
  have hsame : (statusOf id w' = statusOf id w) → ∀ p, EndsJob id p w → EndsJob id p w' := by
    rintro hst p ⟨hmem, status, hstatus, hends⟩
    exact ⟨mem_queue_mono h hmem, status, hst.trans hstatus, hends⟩
  obtain ⟨hst, -⟩ | ⟨u, rfl, -⟩ | ⟨new, rfl, hnone, hst, -, hid⟩ := @status_cases id _ _ _ _ h
  · rcases sem_queue h with hq | ⟨proofId, rfl, hq⟩
    · exact ⟨owes, owesSem_still h hcond hst hq, fun _ hr => hr.same hst (by rw [hq]), hsame hst⟩
    · by_cases hid : proofId = id
      · subst hid
        refine ⟨false, (if_pos rfl).symm, fun owed hr => ?_, hsame hst⟩
        have howes : owes = true := hok.2 rfl
        constructor
        · intro _
          rw [hst]
          exact hr.present (.inr (.inl howes))
        · intro _
          rw [hq]
          exact .inl (List.mem_append_right _ (List.mem_singleton.2 rfl))
      · refine ⟨owes, (if_neg hid).symm, fun owed hr => hr.same hst ?_, hsame hst⟩
        rw [hq, List.mem_append, List.mem_singleton]
        exact ⟨fun hm => hm.resolve_right fun he => hid he.symm, .inl⟩
  · exact absurd rfl hok.2
  · cases a with
    | error e =>
      -- a creation that raises has written no row
      rcases sem_cases h with rfl | hdone
      · rw [hnone] at hst
        cases hst
      · exact absurd hdone (hcond e rfl hid)
    | ok r =>
      -- the row is new, so nobody had or owed a message
      refine ⟨true, (if_pos hid).symm, fun owed hr => ?_, ?_⟩
      · exact ⟨fun _ => by rw [hst]; rfl, fun _ => .inr (.inl rfl)⟩
      · rintro p ⟨hmem, status, hstatus, -⟩
        rw [hnone] at hstatus
        cases hstatus

/-- What a delivery sees of a call that leaves the status. -/
theorem statusRunSem_still {c : Call} {a : Except PyExn c.Resp} {status : JobStatus} (h : c.Sem w a w')
    (hstatus : statusOf id w = some status) (hst : statusOf id w' = some status)
    (hraised : ∀ e, a = .error e → RaisedEnded c e status) : StatusRunSem id c status a status := by
  have hrow : ∃ job, w.proofJobs id = some job ∧ job.status = status := Option.map_eq_some_iff.1 hstatus
  obtain ⟨job, hjob, hjobstatus⟩ := hrow
  cases c with
  | updateProofJob proofId u =>
    cases a with
    | error e => exact hraised e rfl
    | ok r =>
      by_cases hid : proofId = id
      · -- written, but the same
        subst hid
        obtain ⟨now, rfl, -⟩ := h
        have hnew : statusOf proofId ((Call.updateProofJob proofId u).effect now w) = some u.status := by
          rw [statusOf, Call.effect, proofJobs_updateProofJob hjob]
          rfl
        rw [hnew] at hst
        exact (Option.some.inj hst).symm.trans (if_pos rfl).symm
      · exact (if_neg hid).symm
  | getProofJob proofId =>
    cases a with
    | error e => exact ⟨rfl, hraised e rfl⟩
    | ok r =>
      refine ⟨rfl, ?_⟩
      rintro rfl
      obtain ⟨now, -, hr⟩ := h
      have hread : r = w.proofJobs proofId := hr
      exact ⟨job, hread.trans hjob, hjobstatus⟩
  | _ =>
    cases a with
    | error e => exact ⟨rfl, hraised e rfl⟩
    | ok r => exact (rfl : status = status)

/-- **A call of the delivery.** -/
theorem sem_endsJob {c : Call} {k : Except PyExn c.Resp → Service Unit} {a : Except PyExn c.Resp}
    (hbusy : EndsJob id (.await c k) w) (h : c.Sem w a w')
    (hcond : ∀ e, a = .error e → c.outsideTry = true ∨ e = .cancelled → ¬ OpenJob id w') : EndsJob id (k a) w' := by
  obtain ⟨hmem, status, hstatus, -, hk⟩ := hbusy
  have hraised : ∀ status', statusOf id w' = some status' → ∀ e, a = .error e → RaisedEnded c e status' := by
    intro status' hst e he hunhandled
    by_contra hne
    exact hcond e he hunhandled ⟨status', hst, Bool.eq_false_of_not_eq_true hne⟩
  refine ⟨mem_queue_mono h hmem, ?_⟩
  obtain ⟨hst, -⟩ | ⟨u, rfl, -, hst, -⟩ | ⟨new, rfl, hnone, -⟩ := @status_cases id _ _ _ _ h
  · have hst' := hst.trans hstatus
    exact ⟨status, hst', hk _ _ (statusRunSem_still h hstatus hst' (hraised status hst'))⟩
  · refine ⟨u.status, hst, hk _ _ ?_⟩
    cases a with
    | error e => exact hraised _ hst e rfl
    | ok r => exact (if_pos rfl).symm
  · rw [hnone] at hstatus
    cases hstatus

/-! ## Runs -/

variable {settings : Set WorkerSettings} {s : Services}

theorem mem_ackTask {proofId : String} (h : proofId ≠ id) : id ∈ (w.ackTask proofId).queue ↔ id ∈ w.queue := by
  simp only [World.ackTask, List.mem_filter, decide_eq_true_eq]
  exact ⟨fun hm => hm.1, fun hm => ⟨hm, fun he => h he.symm⟩⟩

/-- The rule of the broker, for one job. -/
theorem strand_protects : Protects (serviceBroker settings sha256) id (strandCond id) (fun owes p => Pays id owes p)
    (EndsJob id) (Accounted id) where
  request := by
    rintro p ⟨S, -, task, htask, rfl⟩
    exact request_pays htask
  deliverOther := by
    rintro proofId hid p ⟨S, -, rfl⟩
    exact delivery_pays hid
  deliver := by
    rintro p ⟨S, -, rfl⟩ owed w hrest hpend
    obtain ⟨status, hstatus⟩ := Option.isSome_iff_exists.1 (hrest.present (.inl hpend))
    exact ⟨hpend, status, hstatus, processProofJob_ends status⟩
  otherCall := by
    intro owes c k w a w' hp hs hcond
    obtain ⟨owes', hsem, hrest, hbusy⟩ := sem_owes hs hp.1 fun e he => (hcond e he).1
    exact ⟨owes', hp.2 a owes' hsem, hrest, hbusy⟩
  otherCrash := by
    intro owes c k w hp hcond
    by_contra hne
    exact hcond (hp.1.1 (Bool.eq_true_of_not_eq_false hne))
  otherFinish := fun hp => hp
  removeOther := by
    intro proofId hid w
    refine ⟨fun owed hr => hr.same rfl (mem_ackTask hid), ?_⟩
    rintro p ⟨hmem, hends⟩
    exact ⟨(mem_ackTask hid).2 hmem, hends⟩
  busyCall := fun hbusy hs hcond => sem_endsJob hbusy hs fun e he => (hcond e he).2 trivial
  busyCrash := by
    rintro c k w ⟨hmem, status, hstatus, -⟩ - owed
    exact ⟨fun _ => by rw [hstatus]; rfl, fun _ => .inl hmem⟩
  busyFinish := by
    rintro r w ⟨-, status, hstatus, hterm⟩ owed
    have hstatus' : statusOf id (w.ackTask id) = some status := hstatus
    refine ⟨fun _ => ?_, ?_⟩
    · rw [show (serviceBroker settings sha256).remove id w = w.ackTask id from rfl, hstatus']
      rfl
    -- the job is terminal, so it needs no message
    rintro ⟨status', hst, hopen⟩
    obtain rfl : status = status' := Option.some.inj (hstatus'.symm.trans hst)
    have hterm' : status.terminal = true := hterm
    rw [hterm'] at hopen
    cases hopen

/-- **No job is stranded**: every queued or running job has a message. -/
def NoneStranded (w : World) : Prop := ∀ id, OpenJob id w → id ∈ w.queue

/-- **When no job is stranded.** In every run of submissions, requeues, deliveries and
maintenance cycles whose steps meet the condition for every job, and every state of it in
which nothing is in progress, each queued or running job has a task message. -/
theorem no_job_stranded (hrun : Run (serviceBroker settings sha256)
    (fun s act s' => ∀ id, Meets (strandCond id) id s act s') (init .empty) s) (hidle : s.Idle) :
    NoneStranded s.world := by
  intro id hopen
  have hrun' : Run (serviceBroker settings sha256) (Meets (strandCond id) id) (init .empty) s := by
    refine ReflTransGen.mono ?_ _ _ hrun
    rintro s s' ⟨act, hstep, hcond⟩
    exact ⟨act, hstep, hcond id⟩
  have hempty : Accounted id False World.empty := by
    refine ⟨?_, ?_⟩
    · rintro (hmem | hf)
      · cases hmem
      · exact False.elim hf
    · rintro ⟨status, hst, -⟩
      cases hst
  rcases ((protects_run strand_protects hempty hrun').2 hidle).message hopen with hmem | hf
  · exact hmem
  · exact False.elim hf

/-- The audit log is down when a delivery begins. -/
def runningEventFails : Call → Bool
  | .appendEvent args => args.status = "running"
  | _ => false

/-- **A stranded job.** The audit event of the running job raises outside the `try` block, the
delivery takes its message along, and the job is running for ever. -/
theorem job_stranded : ∃ s, Run demoBroker (fun _ _ _ => True) (init .empty) s ∧ s.Idle ∧ ¬ NoneStranded s.world := by
  refine ⟨demoPlain.ended runningEventFails 4, DemoSetup.ended_run
    ⟨fun _ _ _ _ => trivial, fun _ _ _ _ _ => trivial, fun _ _ _ => trivial,
    fun _ _ _ _ _ => trivial⟩ rfl (by decide) rfl, DemoSetup.ended_idle 4, ?_⟩
  intro h
  have hmem := h demoJob.proofId ⟨.running, rfl, rfl⟩
  revert hmem
  decide

/-- A submitted job has its message. -/
theorem no_job_stranded_queued : (demoPlain.queued fun _ => false).Idle ∧
    OpenJob demoJob.proofId (demoPlain.queued fun _ => false).world ∧
      NoneStranded (demoPlain.queued fun _ => false).world := by
  have hidle : (demoPlain.queued fun _ => false).Idle := DemoSetup.queued_idle
  have hcall : ∀ (s : Services) i c s', s'.world = (demoPlain.oracle (fun _ => false) c s.world).2 →
      ∀ id, Meets (strandCond id) id s (.call i c (demoPlain.oracle (fun _ => false) c s.world).1) s' := by
    intro s i c s' hw id e he
    -- only a row that exists already is refused
    obtain ⟨new, rfl, htaken, hcancelled⟩ := demoAnswer_refused he
    refine ⟨?_, ?_⟩
    · rintro - ⟨r, now, -, hfree⟩
      exact htaken hfree
    · rintro - (hout | rfl)
      · cases hout
      · exact absurd rfl hcancelled
  have hrun : Run demoBroker (fun s act s' => ∀ id, Meets (strandCond id) id s act s') (init .empty)
      (demoPlain.queued fun _ => false) :=
    DemoSetup.queued_run ⟨fun _ _ _ _ _ => trivial, fun _ _ _ _ _ _ => trivial, fun _ _ _ _ => trivial, hcall⟩ rfl
  exact ⟨hidle, ⟨.queued, rfl, rfl⟩, no_job_stranded hrun hidle⟩

end Vellum
