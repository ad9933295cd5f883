import Vellum.Proof.Calls
import Vellum.Spec.System

/-!
# The lifecycle of a job

A job is queued, then running, any number of times, then completed or failed. The status of a
job is read once, at the gate of a delivery, and overwritten without a look at it later. So
the terminal states are absorbing as long as no delivery writes one while another delivery
has passed its gate and has a write of its own before it, and no exception comes to a handler
once `completed` is written.

* `StatusSem`: a delivery as seen from the status of one job, which is terminal or not.
* `task_writesOpen`: no program of the system writes a status of a terminal job.
* `status_cases`: what a call can do to the status of a job.
* `sem_statusSem`: the database behaves as `StatusSem` says.
* `terminal_absorbing`: under the condition above the statuses of every job follow its
  lifecycle in every run, and a terminal status stays.
* `completed_then_failed`: a run that writes `failed` after `completed`.
-/

namespace Vellum

open Prog Relation

variable {S : WorkerSettings} {sha256 : String → String} {id : String}

/-! ## The lifecycle -/

/-- Running, any number of times, then at most one terminal status. -/
def finishing : List JobStatus → Bool
  | [] => true
  | [x] => x ≠ .queued
  | x :: rest => x = .running && finishing rest

/-- A prefix of `queued, running, ..., running, completed | failed`. -/
def lifecycle : List JobStatus → Bool
  | [] => true
  | x :: rest => x = .queued && finishing rest

/-- The statuses of a job that is not finished. -/
def Unfinished (h : List JobStatus) : Prop := ∃ n, h = .queued :: List.replicate n .running

theorem finishing_running (n : ℕ) : finishing (List.replicate n .running) = true := by
  induction n with
  | zero => rfl
  | succ n ih =>
    cases n with
    | zero => rfl
    | succ n => simpa [List.replicate_succ, finishing] using ih

theorem finishing_running_concat {x : JobStatus} (hx : x ≠ .queued) (n : ℕ) :
    finishing (List.replicate n .running ++ [x]) = true := by
  induction n with
  | zero => simpa [finishing] using hx
  | succ n ih =>
    cases n with
    | zero => simpa [List.replicate_succ, finishing] using hx
    | succ n => simpa [List.replicate_succ, finishing] using ih

theorem lifecycle_of_unfinished {h : List JobStatus} (hu : Unfinished h) : lifecycle h = true := by
  obtain ⟨n, rfl⟩ := hu
  simpa [lifecycle] using finishing_running n

theorem lifecycle_concat {h : List JobStatus} {x : JobStatus} (hu : Unfinished h) (hx : x.terminal = true) :
    lifecycle (h ++ [x]) = true := by
  obtain ⟨n, rfl⟩ := hu
  have hq : x ≠ .queued := fun hq => by
    rw [hq] at hx
    cases hx
  simpa [lifecycle] using finishing_running_concat hq n

theorem Unfinished.running {h : List JobStatus} (hu : Unfinished h) : Unfinished (h ++ [.running]) := by
  obtain ⟨n, rfl⟩ := hu
  exact ⟨n + 1, by rw [List.replicate_succ', List.cons_append]⟩

/-! ## A program as seen from one job -/

/-- The status of the job, if it exists. -/
def statusOf (id : String) (w : World) : Option JobStatus := (w.proofJobs id).map fun job => job.status

/-- Whether the job has a terminal status. -/
def terminalNow (id : String) (w : World) : Bool := (statusOf id w).any JobStatus.terminal

/-- Once `completed` is written, no exception comes to a handler: not from the write itself, which may
raise behind its commit, nor from the purge or the audit event. -/
def FinishAnswer (id : String) : (c : Call) → Except PyExn c.Resp → Bool → Prop
  | .updateProofJob proofId u, .error e, terminal' =>
    proofId = id → u.status = .completed → terminal' = true → e = .cancelled
  | .purgeSealedJobPayload proofId .completed, .error e, _ => proofId = id → e = .cancelled
  | .appendEvent args, .error e, _ => args.proofId = some id → args.status = "completed" → e = .cancelled
  | _, _, _ => True

/-- The row of a terminal job is terminal. -/
def GateAnswer (id : String) (terminal : Bool) : (c : Call) → Except PyExn c.Resp → Prop
  | .getProofJob proofId, .ok (some job) => proofId = id → terminal = true → job.status.terminal = true
  | _, _ => True

/-- What a call makes of the status of the job. -/
def StatusAfter (id : String) (terminal : Bool) : Call → Bool → Prop
  | .updateProofJob proofId u, terminal' => terminal' = terminal ∨ (proofId = id ∧ terminal' = u.status.terminal)
  | .createProofJob new, terminal' => terminal' = terminal ∨ (terminal = false ∧ terminal' = new.status.terminal)
  | _, terminal' => terminal' = terminal

/-- **The semantics of a call for one job**, on whether its status is terminal. -/
def StatusSem (id : String) (c : Call) (terminal : Bool) (a : Except PyExn c.Resp) (terminal' : Bool) : Prop :=
  FinishAnswer id c a terminal' ∧ GateAnswer id terminal c a ∧ StatusAfter id terminal c terminal'

/-- The calls of the services: no status is written to a terminal job, a job is created as
`queued`, and is never `queued` again. -/
def StatusOk (id : String) (c : Call) (terminal : Bool) : Prop :=
  match c with
  | .updateProofJob proofId u => u.status ≠ .queued ∧ (proofId = id → terminal = false)
  | .createProofJob new => new.status = .queued
  | _ => True

/-- A program that writes no status of the job once that is terminal. -/
abbrev WritesOpen {α : Type} (id : String) (p : Service α) (terminal : Bool) : Prop :=
  p.Safe (StatusSem id) (StatusOk id) (fun _ _ => True) terminal

/-- A call other than a write of the status leaves it as it is. -/
theorem writesOpen_await_bind {α : Type} {c : Call} {f : c.Resp → Service α} {terminal : Bool}
    (hc : StatusOk id c terminal) (hafter : ∀ {t}, StatusAfter id terminal c t → t = terminal)
    (hf : ∀ r, GateAnswer id terminal c (.ok r) → WritesOpen id (f r) terminal) :
    WritesOpen id (await c >>= f) terminal := by
  refine safe_await_bind hc ?_ fun e t hs => trivial
  intro r t hs
  obtain rfl := hafter hs.2.2
  exact hf r hs.2.1

/-- The handlers write `failed` once. -/
theorem recordFailure_writesOpen {proofId : String} {job : ProofJob} {attempts : AttemptMetadata}
    {decrypted : Option Json} {site : Site} {reason error : String} {terminal : Bool}
    (h : proofId = id → terminal = false) :
    WritesOpen id (recordFailure S proofId job attempts decrypted site reason error) terminal := by
  unfold recordFailure
  refine safe_await_bind ⟨by simp, h⟩ (fun r t _ => ?_) fun _ _ _ => trivial
  refine writesOpen_await_bind trivial (fun ht => ht) fun _ _ => ?_
  refine writesOpen_await_bind trivial (fun ht => ht) fun _ _ => ?_
  exact safe_await (.upsertDeadLetterJob _) trivial fun _ _ _ => trivial

theorem handleException_writesOpen {proofId : String} {job : ProofJob} {attempts : AttemptMetadata}
    {decrypted : Option Json} {terminal : Bool} (exc : PyExn)
    (h : exc ≠ .cancelled → proofId = id → terminal = false) :
    WritesOpen id (handleException S proofId job attempts decrypted exc) terminal := by
  by_cases hexc : exc = .cancelled
  · rw [hexc]
    trivial
  · exact safe_handler (P := fun _ => True) exc (fun _ => trivial) fun _ => recordFailure_writesOpen (h hexc)

/-- What a handler needs: the job is not terminal when an exception comes to it. -/
def RaisedOpen (id proofId : String) (r : Except PyExn Unit) (terminal : Bool) : Prop :=
  ∀ e, r = .error e → e ≠ .cancelled → proofId = id → terminal = false

/-- The end of the `try` body raises to a handler only before it has written `completed`. -/
theorem completeJob_writesOpen {proofId : String} {job : ProofJob} {result : ProofResult}
    {patch : Option (List (String × Json))} {terminal : Bool} (h : proofId = id → terminal = false) :
    (completeJob S proofId job result patch).Safe (StatusSem id) (StatusOk id) (RaisedOpen id proofId) terminal := by
  unfold completeJob
  refine safe_await_bind trivial ?_ ?_
  · rintro r t ⟨-, -, rfl⟩
    refine safe_await_bind ⟨by simp, h⟩ ?_ ?_
    · intro r t hs
      -- of the two calls left only a cancellation is raised
      refine safe_await_bind trivial ?_ ?_
      · intro r t hs
        refine safe_await (.appendEvent _) trivial fun a t hs e he hexc hid => ?_
        rw [he] at hs
        exact absurd (hs.1 (by rw [hid]) rfl) hexc
      · intro e t hs e' he hexc hid
        obtain rfl := Except.error.inj he
        exact absurd (hs.1 hid) hexc
    · intro e t hs e' he hexc hid
      obtain rfl := Except.error.inj he
      by_contra hterm
      exact hexc (hs.1 hid rfl (Bool.eq_true_of_not_eq_false hterm))
  · rintro e t ⟨-, -, rfl⟩ e' he hexc
    exact h

theorem proveJob_writesOpen {proofId : String} {job : ProofJob} {decrypted : Json} {terminal : Bool}
    (h : proofId = id → terminal = false) :
    (proveJob S proofId job decrypted).Safe (StatusSem id) (StatusOk id) (RaisedOpen id proofId) terminal := by
  unfold proveJob
  refine safe_check_bind (fun privateInput _ => ?_) fun e _ e' _ _ => h
  refine safe_await_bind trivial ?_ ?_
  · rintro result t ⟨-, -, rfl⟩
    refine safe_await_bind trivial ?_ ?_
    · rintro verified t ⟨-, -, rfl⟩
      exact safe_check_bind (fun patch _ => completeJob_writesOpen h) fun e _ e' _ _ => h
    · rintro e t ⟨-, -, rfl⟩ e' he hexc
      exact h
  · rintro e t ⟨-, -, rfl⟩ e' he hexc
    exact h

theorem executeJob_writesOpen {proofId : String} {job : ProofJob} {attempts : AttemptMetadata} {terminal : Bool}
    (h : proofId = id → terminal = false) : WritesOpen id (executeJob S proofId job attempts) terminal := by
  refine safe_try (J := fun _ t => t = terminal) (H := fun e t => e ≠ .cancelled → proofId = id → t = false)
    (P := fun _ => True) (R := RaisedOpen id proofId) rfl (fun sealedPayload => ?_) ?_ ?_
    (fun _ => trivial) (fun hR => hR _ rfl) ?_
  · refine safe_unsealPayload trivial ?_ (fun _ _ _ _ => trivial) ?_
    · rintro a t ⟨-, -, ht⟩
      exact ht
    · rintro e event a t t' rfl ⟨-, -, ht⟩
      exact ⟨fun _ _ => ht, ht⟩
  · intro e t ht _
    rw [ht]
    exact h
  · intro t decrypted ht
    rw [ht]
    exact proveJob_writesOpen h
  · intro t decrypted exc ht
    exact handleException_writesOpen exc ht

/-- The path of a delivery whose attempts are used up writes `failed` once. -/
theorem maxAttemptsExceeded_writesOpen {proofId : String} {job : ProofJob} {attempts : AttemptMetadata}
    {terminal : Bool} (h : proofId = id → terminal = false) :
    WritesOpen id (maxAttemptsExceeded S proofId job attempts) terminal := by
  unfold maxAttemptsExceeded
  refine safe_await_bind ⟨by simp, h⟩ (fun r t _ => ?_) fun _ _ _ => trivial
  refine writesOpen_await_bind trivial (fun ht => ht) fun _ _ => ?_
  refine writesOpen_await_bind trivial (fun ht => ht) fun _ _ => ?_
  exact safe_await (.purgeSealedJobPayload _ .maxAttempts) trivial fun _ _ _ => trivial

/-- What comes after the status gate. -/
theorem deliverJob_writesOpen {proofId : String} {job : ProofJob} {terminal : Bool}
    (h : proofId = id → terminal = false) : WritesOpen id (deliverJob S proofId job) terminal := by
  unfold deliverJob
  generalize nextAttemptMetadata job.metadata S.maxAttempts = next
  obtain ⟨attempts, exceeded⟩ := next
  cases exceeded with
  | true => exact maxAttemptsExceeded_writesOpen h
  | false =>
    refine safe_await_bind ⟨by simp, h⟩ (fun r t hs => ?_) fun _ _ _ => trivial
    -- `running` is not terminal, whether the row was there or not
    have hopen : proofId = id → t = false := by
      intro hid
      rcases hs.2.2 with rfl | ⟨-, rfl⟩
      · exact h hid
      · rfl
    refine writesOpen_await_bind trivial (fun ht => ht) fun _ _ => ?_
    exact executeJob_writesOpen hopen

/-- **A delivery writes no status of a terminal job**: it passes the gate only when the job is
not terminal. -/
theorem processProofJob_writesOpen (proofId : String) (terminal : Bool) :
    WritesOpen id (processProofJob S proofId) terminal := by
  rw [processProofJob_eq]
  refine writesOpen_await_bind trivial (fun ht => ht) fun _ _ => ?_
  refine writesOpen_await_bind trivial (fun ht => ht) fun row hrow => ?_
  refine safe_gate (fun _ => trivial) fun job hjob hterm => ?_
  have hopen : proofId = id → terminal = false := by
    intro hid
    by_contra hne
    rw [hjob] at hrow
    have hgate := hrow hid (Bool.eq_true_of_not_eq_false hne)
    rw [hterm] at hgate
    cases hgate
  exact deliverJob_writesOpen hopen

/-- Creating and enqueueing a job writes no status but `queued`. -/
theorem persistAndEnqueueJob_writesOpen {proofId circuitId sourceMode sealedPayload : String} {payload : Json}
    {metadata : Dict Json} {terminal : Bool} :
    WritesOpen id (persistAndEnqueueJob sha256 proofId circuitId payload sourceMode sealedPayload metadata)
      terminal := by
  unfold persistAndEnqueueJob
  refine safe_await_bind rfl (fun r t _ => ?_) fun _ _ _ => trivial
  refine writesOpen_await_bind trivial (fun ht => ht) fun _ _ => ?_
  exact safe_await (.enqueue _) trivial fun _ _ _ => trivial

theorem requeueDeadLetterJob_writesOpen {repr : Json → String} {request : RequeueRequest} {terminal : Bool} :
    WritesOpen id (requeueDeadLetterJob sha256 repr request) terminal := by
  unfold requeueDeadLetterJob
  refine writesOpen_await_bind trivial (fun ht => ht) fun row _ => ?_
  unfold requeueRow
  cases row with
  | none => trivial
  | some row =>
    cases hr : row.rerun? with
    | some rerun =>
      simp only [hr]
      trivial
    | none =>
      cases hp : row.sealedRerunPayload.filter (· ≠ "") with
      | none =>
        simp only [hr, hp]
        trivial
      | some sealedPayload =>
        simp only [hr, hp]
        refine writesOpen_await_bind trivial (fun ht => ht) fun sourceJob _ => ?_
        unfold triggerRerun
        refine safe_await_bind rfl (fun r t _ => ?_) fun _ _ _ => trivial
        refine writesOpen_await_bind trivial (fun ht => ht) fun _ _ => ?_
        refine writesOpen_await_bind trivial (fun ht => ht) fun _ _ => ?_
        refine writesOpen_await_bind trivial (fun ht => ht) fun _ _ => ?_
        exact writesOpen_await_bind trivial (fun ht => ht) fun _ _ => trivial

/-- **No program of the system writes a status of a terminal job.** -/
theorem task_writesOpen (task : Task) (terminal : Bool) : WritesOpen id (task.prog S sha256) terminal := by
  cases task with
  | submit => exact persistAndEnqueueJob_writesOpen
  | requeue request =>
    refine safe_bind (safe_mono ?_ requeueDeadLetterJob_writesOpen)
    rintro (e | r) t _ <;> trivial
  | deliver proofId => exact processProofJob_writesOpen proofId terminal
  | maintain cutoff =>
    refine writesOpen_await_bind trivial (fun ht => ht) fun _ _ => ?_
    exact safe_await (.pruneTerminalJobRuntimeData _) trivial fun _ _ _ => trivial

/-! ## The database -/

/-- One entry more in the history is one more of its job. -/
theorem historyOf_append {w w' : World} {proofId : String} {status : JobStatus}
    (h : w'.history = w.history ++ [(proofId, status)]) :
    w'.historyOf id = w.historyOf id ++ (if proofId = id then [status] else []) := by
  unfold World.historyOf
  rw [h, List.filter_append, List.map_append]
  by_cases hp : proofId = id <;> simp [hp]

theorem statusOf_setJob (w : World) (proofId : String) (job : ProofJob) :
    statusOf id (w.setJob proofId job) = if proofId = id then some job.status else statusOf id w := by
  unfold statusOf World.setJob
  by_cases h : proofId = id
  · subst h
    simp
  · simp [h, Function.update_of_ne (Ne.symm h)]

/-- **What a call can do to the status of a job**: nothing, or write it and note it down. -/
theorem status_cases {c : Call} {w w' : World} {a : Except PyExn c.Resp} (h : c.Sem w a w') :
    (statusOf id w' = statusOf id w ∧ w'.historyOf id = w.historyOf id) ∨
    (∃ u, c = .updateProofJob id u ∧ (statusOf id w).isSome = true ∧
      statusOf id w' = some u.status ∧ w'.historyOf id = w.historyOf id ++ [u.status]) ∨
    (∃ new, c = .createProofJob new ∧ statusOf id w = none ∧
      statusOf id w' = some new.status ∧ w'.historyOf id = w.historyOf id ++ [new.status] ∧ new.proofId = id) := by
  rcases sem_cases h with rfl | ⟨r, now, rfl, hr⟩
  · exact .inl ⟨rfl, rfl⟩
  · cases c with
    | updateProofJob proofId u =>
      simp only [Call.effect, World.updateProofJob]
      cases hjob : w.proofJobs proofId with
      | none => exact .inl ⟨rfl, rfl⟩
      | some job =>
        have hst := @statusOf_setJob id w proofId (job.update u now)
        have hh := @historyOf_append id w { w.setJob proofId (job.update u now) with
          history := w.history ++ [(proofId, u.status)] } proofId u.status rfl
        by_cases hid : proofId = id
        · rw [if_pos hid] at hst hh
          subst hid
          have hsome : (statusOf proofId w).isSome = true := by simp [statusOf, hjob]
          exact .inr (.inl ⟨u, rfl, hsome, hst, hh⟩)
        · rw [if_neg hid] at hst hh
          exact .inl ⟨hst, hh.trans (List.append_nil _)⟩
    | createProofJob new =>
      have hst := @statusOf_setJob id w new.proofId (new.row now)
      have hh := @historyOf_append id w (w.createProofJob new now) new.proofId new.status rfl
      by_cases hid : new.proofId = id
      · rw [if_pos hid] at hst hh
        subst hid
        -- the primary key of the new row was free
        have hfree : w.proofJobs new.proofId = none := hr
        have hnone : statusOf new.proofId w = none := by simp [statusOf, hfree]
        exact .inr (.inr ⟨new, rfl, hnone, hst, hh, rfl⟩)
      · rw [if_neg hid] at hst hh
        exact .inl ⟨hst, hh.trans (List.append_nil _)⟩
    | purgeSealedJobPayload proofId site =>
      simp only [Call.effect, World.purgeSealedJobPayload]
      cases hjob : w.proofJobs proofId with
      | none => exact .inl ⟨rfl, rfl⟩
      | some job =>
        refine .inl ⟨?_, rfl⟩
        rw [statusOf_setJob]
        split_ifs with hid
        · subst hid
          rw [statusOf, hjob]
          rfl
        · rfl
    | pruneTerminalJobRuntimeData olderThan =>
      refine .inl ⟨?_, rfl⟩
      simp only [statusOf, Call.effect, World.pruneTerminalJobRuntimeData]
      cases w.proofJobs id <;> simp
    | _ => exact .inl ⟨rfl, rfl⟩

theorem statusAfter_refl (c : Call) (terminal : Bool) : StatusAfter id terminal c terminal := by
  cases c <;> first | rfl | exact .inl rfl

/-- **The database behaves as a program sees it.** -/
theorem sem_statusSem {c : Call} {w w' : World} {a : Except PyExn c.Resp} (h : c.Sem w a w')
    (hfinish : FinishAnswer id c a (terminalNow id w')) : StatusSem id c (terminalNow id w) a (terminalNow id w') := by
  refine ⟨hfinish, ?_, ?_⟩
  · -- only a read of the row says something about its status
    cases c with
    | getProofJob proofId =>
      rcases a with e | _ | job
      · trivial
      · trivial
      · intro hid hterm
        obtain ⟨now, -, hr⟩ := h
        have hrow : some job = w.proofJobs proofId := hr
        rw [terminalNow, statusOf, ← hid, ← hrow] at hterm
        exact hterm
    | _ => trivial
  · obtain ⟨hst, -⟩ | ⟨u, rfl, -, hst, -⟩ | ⟨new, rfl, hnone, hst, -⟩ := @status_cases id _ _ _ _ h
    · have hsame : terminalNow id w' = terminalNow id w := by rw [terminalNow, hst, terminalNow]
      rw [hsame]
      exact statusAfter_refl c _
    · have hnew : terminalNow id w' = u.status.terminal := by rw [terminalNow, hst]; rfl
      exact .inr ⟨rfl, hnew⟩
    · have hold : terminalNow id w = false := by rw [terminalNow, hnone]; rfl
      have hnew : terminalNow id w' = new.status.terminal := by rw [terminalNow, hst]; rfl
      exact .inr ⟨hold, hnew⟩

/-- The statuses written to the job: none if it does not exist, and else the last is the one
of its row, behind those of an unfinished job if it is terminal. -/
def LifeInv (id : String) (w : World) : Prop :=
  match statusOf id w with
  | none => w.historyOf id = []
  | some status => if status.terminal then ∃ h, Unfinished h ∧ w.historyOf id = h ++ [status]
    else Unfinished (w.historyOf id)

theorem lifecycle_of_inv {w : World} (h : LifeInv id w) : lifecycle (w.historyOf id) = true := by
  unfold LifeInv at h
  cases hst : statusOf id w with
  | none =>
    simp only [hst] at h
    rw [h]
    rfl
  | some status =>
    simp only [hst] at h
    split_ifs at h with hterm
    · obtain ⟨h', hu, heq⟩ := h
      rw [heq]
      exact lifecycle_concat hu hterm
    · exact lifecycle_of_unfinished h

/-- **A call of the services keeps the lifecycle.** -/
theorem sem_lifeInv {c : Call} {w w' : World} {a : Except PyExn c.Resp} (h : c.Sem w a w')
    (hok : StatusOk id c (terminalNow id w)) (hinv : LifeInv id w) : LifeInv id w' := by
  obtain ⟨hst, hh⟩ | ⟨u, rfl, hsome, hst, hh⟩ | ⟨new, rfl, hnone, hst, hh, -⟩ := @status_cases id _ _ _ _ h
  · unfold LifeInv
    rw [hst, hh]
    exact hinv
  · obtain ⟨hq, hopen⟩ := hok
    obtain ⟨status, hstatus⟩ := Option.isSome_iff_exists.1 hsome
    -- the row was not terminal, so its history is that of an unfinished job
    have hu : Unfinished (w.historyOf id) := by
      have hterm : status.terminal = false := by
        have := hopen rfl
        rw [terminalNow, hstatus] at this
        exact this
      unfold LifeInv at hinv
      rw [hstatus] at hinv
      simpa [hterm] using hinv
    unfold LifeInv
    rw [hst, hh]
    cases hu' : u.status with
    | queued => exact absurd hu' hq
    | running => exact hu.running
    | completed => exact ⟨_, hu, rfl⟩
    | failed => exact ⟨_, hu, rfl⟩
  · have hq : new.status = .queued := hok
    unfold LifeInv at hinv
    rw [hnone] at hinv
    have hempty : w.historyOf id = [] := hinv
    unfold LifeInv
    rw [hst, hh, hempty, hq]
    exact ⟨0, rfl⟩

/-- A call of the services leaves a terminal status as it is. -/
theorem sem_status_terminal {c : Call} {w w' : World} {a : Except PyExn c.Resp} (h : c.Sem w a w')
    (hok : StatusOk id c (terminalNow id w)) (hterm : terminalNow id w = true) :
    statusOf id w' = statusOf id w := by
  obtain ⟨hst, -⟩ | ⟨u, rfl, -, -, -⟩ | ⟨new, -, hnone, -, -⟩ := @status_cases id _ _ _ _ h
  · exact hst
  · have := hok.2 rfl
    rw [hterm] at this
    cases this
  · rw [terminalNow, hnone] at hterm
    cases hterm

/-! ## Runs -/

/-- No other program in progress would still write a status, were the job terminal: none has
passed the gate of its delivery with a write before it. -/
def OthersSettled (id : String) (s : System) (i : ℕ) : Prop :=
  ∀ j p, j ≠ i → s.procs j = some p → WritesOpen id p true

/-- The condition on a step: no exception comes to a handler behind the write of `completed`, and a
terminal status is written only when no other delivery still has a status to write. -/
def LifecycleSafe (id : String) (s : System) (act : Act Call.Resp PyExn Unit) (s' : System) : Prop :=
  match act with
  | .call i c a => FinishAnswer id c a (terminalNow id s'.world) ∧
      (terminalNow id s.world = false → terminalNow id s'.world = true → OthersSettled id s i)
  | _ => True

/-- The invariant of a run. -/
structure LifecycleInv (id : String) (s : System) : Prop where
  life : LifeInv id s.world
  procs : ∀ j p, s.procs j = some p → WritesOpen id p (terminalNow id s.world)

variable {s s' : System}

/-- **One step keeps the invariant**, and a terminal status. -/
theorem systemStep_inv (hinv : LifecycleInv id s) (hstep : SystemStep S sha256 (LifecycleSafe id) s s') :
    LifecycleInv id s' ∧ (terminalNow id s.world = true → statusOf id s'.world = statusOf id s.world) := by
  obtain ⟨act, hstep, hcond⟩ := hstep
  cases hstep with
  | @start i p hi hp =>
    obtain ⟨task, rfl⟩ := hp
    refine ⟨⟨hinv.life, ?_⟩, fun _ => rfl⟩
    intro j q hq
    rcases Pool.procs_put hq with ⟨-, hq⟩ | ⟨-, hq⟩
    · obtain rfl := Option.some.inj hq
      exact task_writesOpen task _
    · exact hinv.procs j q hq
  | @call i c k a w' hi hs =>
    obtain ⟨hfinish, hothers⟩ := hcond
    obtain ⟨hok, hk⟩ := hinv.procs i _ hi
    have hsem := sem_statusSem hs hfinish
    refine ⟨⟨sem_lifeInv hs hok hinv.life, ?_⟩, sem_status_terminal hs hok⟩
    intro j q hq
    rcases Pool.procs_put hq with ⟨-, hself⟩ | ⟨hj, hother⟩
    · obtain rfl := Option.some.inj hself
      exact hk a _ hsem
    · have hopen := hinv.procs j q hother
      -- the others see a change only when a terminal status is written
      obtain ⟨hst, -⟩ | ⟨u, rfl, -, hst, -⟩ | ⟨new, rfl, hnone, hst, -⟩ := @status_cases id _ _ _ _ hs
      · have hsame : terminalNow id w' = terminalNow id s.world := by rw [terminalNow, hst, terminalNow]
        rw [Pool.put_world, hsame]
        exact hopen
      · have hold := hok.2 rfl
        cases hterm : terminalNow id w' with
        | true =>
          rw [Pool.put_world, hterm]
          exact hothers hold hterm j q hj hother
        | false =>
          rw [Pool.put_world, hterm]
          rw [hold] at hopen
          exact hopen
      · have hold : terminalNow id s.world = false := by rw [terminalNow, hnone]; rfl
        have hq' : new.status = .queued := hok
        have hnew : terminalNow id w' = false := by rw [terminalNow, hst, hq']; rfl
        rw [Pool.put_world, hnew]
        rw [hold] at hopen
        exact hopen
  | @crash i p hi =>
    refine ⟨⟨hinv.life, ?_⟩, fun _ => rfl⟩
    intro j q hq
    rcases Pool.procs_put hq with ⟨-, hq⟩ | ⟨-, hq⟩
    · cases hq
    · exact hinv.procs j q hq

theorem lifecycleInv_init : LifecycleInv id System.init where
  life := rfl
  procs := by
    intro j p hp
    cases hp

theorem lifecycleInv_run (hrun : ReflTransGen (SystemStep S sha256 (LifecycleSafe id)) .init s) :
    LifecycleInv id s :=
  run_invariant lifecycleInv_init (fun hi hs => (systemStep_inv hi hs).1) hrun

/-- **When terminal job states are absorbing.** In every run of the system whose steps meet
the condition, the statuses written to a job are a prefix of `queued, running, ..., running`
and one of `completed`, `failed`, and a terminal status is the status in every later state. -/
theorem terminal_absorbing (hrun : ReflTransGen (SystemStep S sha256 (LifecycleSafe id)) .init s) :
    lifecycle (s.world.historyOf id) = true ∧
    ∀ s', ReflTransGen (SystemStep S sha256 (LifecycleSafe id)) s s' → ∀ status, statusOf id s.world = some status →
      status.terminal = true → statusOf id s'.world = some status := by
  refine ⟨lifecycle_of_inv (lifecycleInv_run hrun).life, ?_⟩
  intro s' hlater status hst hterm
  induction hlater with
  | refl => exact hst
  | @tail s₁ s₂ hprev hstep ih =>
    have hinv := lifecycleInv_run (hrun.trans hprev)
    have hnow : terminalNow id s₁.world = true := by
      rw [terminalNow, ih]
      exact hterm
    rw [(systemStep_inv hinv hstep).2 hnow]
    exact ih

/-! ## Runs of one job -/

/-- The submission of the job. -/
def demoSubmit : Task :=
  .submit demoJob.proofId demoJob.circuitId (.obj []) "private_input" demoJob.sealedJobPayload .empty

/-- The job is submitted. -/
def demoSubmitted (fails : Call → Bool) : System :=
  Pool.driveAt (demoAnswer demoPayload true fails) 0 3
    (System.init.put 0 .empty (some (demoSubmit.prog demoWorker demoSha)))

/-- Then it is delivered once, for `n` calls. -/
def demoDelivered (fails : Call → Bool) (n : ℕ) : System :=
  Pool.driveAt (demoAnswer demoPayload true fails) 1 n ((demoSubmitted fails).put 1 (demoSubmitted fails).world
    (some ((Task.deliver demoJob.proofId).prog demoWorker demoSha)))

/-- Both are runs, under a condition that the oracle's answers meet when nothing else is in
progress. -/
theorem demo_systemRun {Cond : System → Act Call.Resp PyExn Unit → System → Prop} {fails : Call → Bool}
    (hstart : ∀ s i p s', Cond s (.start i p) s')
    (hcall : ∀ {s : System} {i}, (∀ j, j ≠ i → s.IdleAt j) →
      ∀ c p, Cond s (.call i c (demoAnswer demoPayload true fails c s.world).1)
        (s.put i (demoAnswer demoPayload true fails c s.world).2 p))
    (hdone : (demoSubmitted fails).IdleAt 0) (n : ℕ) :
    ReflTransGen (SystemStep demoWorker demoSha Cond) .init (demoDelivered fails n) := by
  have hdrive : ∀ i m {s : System}, (∀ j, j ≠ i → s.IdleAt j) →
      ReflTransGen (SystemStep demoWorker demoSha Cond) s
        (Pool.driveAt (demoAnswer demoPayload true fails) i m s) := by
    intro i m s hidle
    refine Pool.driveAt_run (fun s => ∀ j, j ≠ i → s.IdleAt j) (fun h j hj => Pool.idleAt_put hj (h j hj)) ?_ m hidle
    intro s c k hothers hk
    exact ⟨_, .call hk (demoAnswer_sem _ _ _ c s.world), hcall hothers c _⟩
  have hothers : ∀ j, j ≠ 0 → (demoSubmitted fails).procs j = none := by
    intro j hj
    unfold demoSubmitted
    rw [Pool.driveAt_procs_of_ne hj]
    exact Pool.procs_put_of_ne hj
  have hsubmit : SystemStep demoWorker demoSha Cond .init
      (System.init.put 0 .empty (some (demoSubmit.prog demoWorker demoSha))) :=
    ⟨.start 0 _, .start rfl ⟨demoSubmit, rfl⟩, hstart _ _ _ _⟩
  have hdeliver : SystemStep demoWorker demoSha Cond (demoSubmitted fails)
      ((demoSubmitted fails).put 1 (demoSubmitted fails).world
        (some ((Task.deliver demoJob.proofId).prog demoWorker demoSha))) :=
    ⟨.start 1 _, .start (hothers 1 (by decide)) ⟨.deliver demoJob.proofId, rfl⟩, hstart _ _ _ _⟩
  have hsubmitted : ReflTransGen (SystemStep demoWorker demoSha Cond) .init (demoSubmitted fails) := by
    refine .head hsubmit (hdrive 0 3 ?_)
    intro j hj
    exact Pool.idleAt_put hj (fun p hp => by cases hp)
  refine (hsubmitted.tail hdeliver).trans (hdrive 1 n ?_)
  intro j hj
  refine Pool.idleAt_put hj ?_
  by_cases hj0 : j = 0
  · rw [hj0]
    exact hdone
  · intro p hp
    rw [hothers j hj0] at hp
    cases hp

/-- The database is down when the completed job is to be purged. -/
def purgeFails : Call → Bool
  | .purgeSealedJobPayload _ site => site = .completed
  | _ => false

/-- Then the handler writes `failed` over `completed`. -/
theorem completed_then_failed : ∃ s, ReflTransGen (SystemStep demoWorker demoSha fun _ _ _ => True) .init s ∧
    s.world.historyOf demoJob.proofId = [.queued, .running, .completed, .failed] ∧
    lifecycle (s.world.historyOf demoJob.proofId) = false := by
  refine ⟨demoDelivered purgeFails 11, demo_systemRun (fun _ _ _ _ => trivial) (fun _ _ _ => trivial) ?_ 11, rfl, rfl⟩
  intro p hp
  obtain rfl := Option.some.inj hp
  rfl

/-- Without it the job is completed. -/
theorem terminal_absorbing_completed :
    lifecycle ((demoDelivered (fun _ => false) 11).world.historyOf demoJob.proofId) = true ∧
    (demoDelivered (fun _ => false) 11).world.historyOf demoJob.proofId = [.queued, .running, .completed] := by
  refine ⟨(terminal_absorbing (demo_systemRun (fun _ _ _ _ => trivial) ?_ ?_ 11)).1, rfl⟩
  · intro s i hidle c q
    have hanswer (t : Bool) : FinishAnswer demoJob.proofId c (demoAnswer demoPayload true (fun _ => false) c s.world).1
        t := by
      cases c with
      | purgeSealedJobPayload proofId site => cases site <;> trivial
      | _ => trivial
    refine ⟨hanswer _, ?_⟩
    intro _ _ j p hj hp
    have hdone := hidle j hj p hp
    cases p with
    | done r => trivial
    | await c k => cases hdone
  · intro p hp
    obtain rfl := Option.some.inj hp
    rfl

end Vellum
