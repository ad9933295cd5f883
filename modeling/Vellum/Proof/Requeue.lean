import Vellum.Proof.Calls
import Vellum.Spec.Prover

/-!
# Requeueing a dead letter

A request reads the row, creates a rerun, and names it in the row as its last step. As long
as no request reads the row while another one is in between, and none stops between its
creation and its mark, there is one rerun.

* `RowMode`: no rerun yet, one created by a request in progress, or one named by the row.
* `requeueRow_safe`: what a request does from the row it has read.
* `requeueStep_inv`, `requeue_idempotent`: one rerun in every run of such requests.
* `requeue_twice`: two requests that read the row one after the other.
-/

namespace Vellum

open Prog Relation

variable {sha256 : String → String} {repr : Json → String} {dlqId : ℕ} {w₀ w w' : World}

/-! ## The row -/

/-- What has become of the dead letter. -/
inductive RowMode where
  | free
  | claimed (rerun : String) (enqueued : Bool)
  | named (rerun : String)

/-- The row names no rerun, or this one. -/
def RowNames (dlqId : ℕ) (rerun : Option String) (w : World) : Prop :=
  ∃ row, w.getDeadLetterJob dlqId = some row ∧ row.rerun? = rerun

/-- What the mode says of the database, compared with the one at the start. -/
def RowMode.Holds (dlqId : ℕ) (w₀ w : World) : RowMode → Prop
  | .free => RowNames dlqId none w ∧ w.history = w₀.history ∧ w.queue = w₀.queue
  | .claimed rerun enqueued => RowNames dlqId none w ∧ w.history = w₀.history ++ [(rerun, .queued)] ∧
      w.queue = w₀.queue ++ (if enqueued then [rerun] else [])
  | .named rerun => RowNames dlqId (some rerun) w ∧ ((w.history = w₀.history ∧ w.queue = w₀.queue) ∨
      (w.history = w₀.history ++ [(rerun, .queued)] ∧ w.queue = w₀.queue ++ [rerun]))

/-- A rerun was created and is not named yet. -/
def RowMode.isClaimed : RowMode → Bool
  | .claimed .. => true
  | _ => false

/-- The calls of a request that has read the row: it creates its rerun on a free row, enqueues
it, and marks the row. -/
def RequeueOk (dlqId : ℕ) (c : Call) (m : RowMode) : Prop :=
  match c with
  | .getProofJob _ => m.isClaimed = false
  | .createProofJob new => m = .free ∧ new.status = .queued
  | .appendEvent _ => True
  | .enqueue rerun => m = .claimed rerun false
  | .markDeadLetterJobRequeued dlqId' rerun _ _ => dlqId' = dlqId ∧ rerun ≠ "" ∧ m = .claimed rerun true
  | _ => False

/-- The calls of a request from its creation to its mark. -/
def Call.behindCreation : Call → Bool
  | .appendEvent _ | .enqueue _ | .markDeadLetterJobRequeued .. => true
  | _ => false

/-- A creation that raises has written no row, nothing raises behind it, and a mark takes effect
even if it raises. -/
def RequeueAnswer (w w' : World) : (c : Call) → Except PyExn c.Resp → Prop
  | .createProofJob _, .error _ => w' = w
  | .appendEvent _, a => a.isOk = true
  | .enqueue _, a => a.isOk = true
  | .markDeadLetterJobRequeued dlqId rerun requestedBy reason, _ =>
    ∃ r, (Call.markDeadLetterJobRequeued dlqId rerun requestedBy reason).Done w r w'
  | _, _ => True

/-- What a call makes of the row. -/
def RequeueAfter (m : RowMode) : (c : Call) → Except PyExn c.Resp → RowMode → Prop
  | .createProofJob new, .ok _, m' => m' = .claimed new.proofId false
  | .appendEvent _, a, m' => a.isOk = true ∧ m' = m
  | .enqueue rerun, a, m' => a.isOk = true ∧ m' = .claimed rerun true
  | .markDeadLetterJobRequeued _ rerun _ _, _, m' => m' = .named rerun
  | _, _, m' => m' = m

def RequeueSem (c : Call) (m : RowMode) (a : Except PyExn c.Resp) (m' : RowMode) : Prop := RequeueAfter m c a m'

/-- A request ends with its rerun named by the row, and its response names that one. -/
def Responds (r : Except PyExn RequeueResponse) (m : RowMode) : Prop :=
  m.isClaimed = false ∧ ∀ response, r = .ok response → m = .named response.rerunProofId

/-- A request behind its read. -/
abbrev RequeueSafe (dlqId : ℕ) (p : Service RequeueResponse) (m : RowMode) : Prop :=
  p.Safe RequeueSem (RequeueOk dlqId) Responds m

theorem responds_error {e : PyExn} {m : RowMode} (h : m.isClaimed = false) : Responds (.error e) m := by
  refine ⟨h, ?_⟩
  intro response hr
  cases hr

/-- The part that creates the rerun. -/
theorem triggerRerun_safe {request : RequeueRequest} {row : DeadLetterJob} {job : NewJob}
    (hdlq : request.dlqId = dlqId) (hid : request.rerunProofId ≠ "") (hjob : job.proofId = request.rerunProofId)
    (hstatus : job.status = .queued) : RequeueSafe dlqId (triggerRerun request row job) .free := by
  unfold triggerRerun
  refine safe_await_bind ⟨rfl, hstatus⟩ ?_ ?_
  · rintro r m rfl
    rw [hjob]
    refine safe_await_bind trivial ?_ fun e m hs => nomatch hs.1
    rintro r m ⟨-, rfl⟩
    refine safe_await_bind trivial ?_ fun e m hs => nomatch hs.1
    rintro r m ⟨-, rfl⟩
    refine safe_await_bind rfl ?_ fun e m hs => nomatch hs.1
    rintro r m ⟨-, rfl⟩
    refine safe_await_bind ⟨hdlq, hid, rfl⟩ ?_ ?_
    · rintro r m rfl
      refine ⟨rfl, ?_⟩
      rintro response hr
      obtain rfl := Except.ok.inj hr
      rfl
    · -- the mark has taken effect, so the row names the rerun
      rintro e m rfl
      exact responds_error rfl
  · rintro e m rfl
    exact responds_error rfl

/-- **A request from the row it has read**: it names the rerun of the row, or creates one. -/
theorem requeueRow_safe {request : RequeueRequest} {row : DeadLetterJob} (hdlq : request.dlqId = dlqId)
    (hid : request.rerunProofId ≠ "") :
    RequeueSafe dlqId (requeueRow sha256 repr request (some row))
      (match row.rerun? with | none => .free | some rerun => .named rerun) := by
  unfold requeueRow
  cases hrerun : row.rerun? with
  | some rerun =>
    simp only [hrerun]
    refine ⟨rfl, ?_⟩
    intro response hr
    obtain rfl := Except.ok.inj hr
    rfl
  | none =>
    cases hpayload : row.sealedRerunPayload.filter (· ≠ "") with
    | none =>
      simp only [hrerun, hpayload]
      exact responds_error rfl
    | some sealedPayload =>
      simp only [hrerun, hpayload]
      refine safe_await_bind rfl ?_ ?_
      · rintro sourceJob m rfl
        exact triggerRerun_safe hdlq hid rfl rfl
      · rintro e m rfl
        exact responds_error rfl

/-! ## The database -/

/-- The row after the mark. -/
theorem rowNames_mark {rerun requestedBy : String} {reason : Option String} (hid : rerun ≠ "")
    (h : RowNames dlqId none w) :
    RowNames dlqId (some rerun) (w.markDeadLetterJobRequeued dlqId rerun requestedBy reason) := by
  obtain ⟨row, hrow, -⟩ := h
  have hrowId : row.id = dlqId := by simpa using List.find?_some hrow
  refine ⟨row.requeue rerun requestedBy reason, ?_, ?_⟩
  · unfold World.getDeadLetterJob World.markDeadLetterJobRequeued at *
    rw [List.find?_map]
    have hcomp : ((fun row : DeadLetterJob => decide (row.id = dlqId)) ∘ fun row =>
        if row.id = dlqId then row.requeue rerun requestedBy reason else row) = fun row => decide (row.id = dlqId) := by
      funext r
      by_cases hr : r.id = dlqId <;> simp [hr, DeadLetterJob.requeue]
    rw [hcomp, hrow]
    simp [hrowId]
  · simp [DeadLetterJob.rerun?, DeadLetterJob.requeue, Option.filter, hid]

/-- **The database behaves as a request sees it.** -/
theorem sem_requeueSem {c : Call} {a : Except PyExn c.Resp} {m : RowMode} (hm : m.Holds dlqId w₀ w)
    (hok : RequeueOk dlqId c m) (h : c.Sem w a w') (hanswer : RequeueAnswer w w' c a) :
    ∃ m', RequeueSem c m a m' ∧ m'.Holds dlqId w₀ w' := by
  cases c with
  | getProofJob proofId =>
    obtain rfl := sem_idle (fun _ => rfl) h
    exact ⟨m, rfl, hm⟩
  | createProofJob new =>
    obtain ⟨rfl, hstatus⟩ := hok
    cases a with
    | error e =>
      obtain rfl : w' = w := hanswer
      exact ⟨.free, rfl, hm⟩
    | ok r =>
      obtain ⟨now, rfl, -⟩ := h
      obtain ⟨hrow, hhist, hqueue⟩ := hm
      refine ⟨.claimed new.proofId false, rfl, hrow, ?_, ?_⟩
      · change w.history ++ [(new.proofId, new.status)] = _
        rw [hhist, hstatus]
      · change w.queue = _
        rw [hqueue]
        simp
  | appendEvent args =>
    have hevents : ∃ events, w' = { w with auditEvents := events } := by
      rcases sem_cases h with hw | ⟨r, now, hw, -⟩
      · exact ⟨w.auditEvents, hw⟩
      · exact ⟨_, hw⟩
    obtain ⟨events, rfl⟩ := hevents
    refine ⟨m, ⟨hanswer, rfl⟩, ?_⟩
    cases m <;> exact hm
  | enqueue rerun =>
    obtain rfl := hok
    obtain ⟨hrow, hhist, hqueue⟩ := hm
    cases a with
    | error e => cases hanswer
    | ok r =>
      obtain ⟨now, rfl, -⟩ := h
      refine ⟨.claimed rerun true, ⟨rfl, rfl⟩, hrow, hhist, ?_⟩
      change w.queue ++ [rerun] = _
      rw [hqueue]
      simp
  | markDeadLetterJobRequeued dlqId' rerun requestedBy reason =>
    obtain ⟨rfl, hid, rfl⟩ := hok
    obtain ⟨hrow, hhist, hqueue⟩ := hm
    obtain ⟨r, now, rfl, -⟩ := hanswer
    exact ⟨.named rerun, rfl, rowNames_mark hid hrow, .inr ⟨hhist, hqueue⟩⟩
  | _ => exact hok.elim

/-! ## Runs -/

/-- The requests for one dead letter, each with a fresh uuid. -/
def requeueTasks (sha256 : String → String) (repr : Json → String) (dlqId : ℕ) : Set (Service RequeueResponse) :=
  { p | ∃ request, request.dlqId = dlqId ∧ request.rerunProofId ≠ "" ∧ p = requeueDeadLetterJob sha256 repr request }

/-- A request that has ended, or has not read the row yet. -/
def Unread (dlqId : ℕ) (p : Service RequeueResponse) : Prop :=
  p.isDone = true ∨ ∃ k, p = .await (.getDeadLetterJob dlqId) k

/-- The condition on a step: the row is read only when no other request has read it and has
not ended, and no request that has written its rerun raises or crashes before its mark. -/
def RequeueCond (dlqId : ℕ) (s : Pool World Call.Resp PyExn RequeueResponse) (act : Act Call.Resp PyExn RequeueResponse)
    (s' : Pool World Call.Resp PyExn RequeueResponse) : Prop :=
  match act with
  | .start .. => True
  | .call i c a => RequeueAnswer s.world s'.world c a ∧
      (c = .getDeadLetterJob dlqId → ∀ j p, j ≠ i → s.procs j = some p → Unread dlqId p)
  | .crash i => ∀ c k, s.procs i = some (.await c k) → c.behindCreation = false

/-- A step of the requests for one dead letter that meets a condition. -/
def RequeueStep (sha256 : String → String) (repr : Json → String) (dlqId : ℕ)
    (Cond : Pool World Call.Resp PyExn RequeueResponse → Act Call.Resp PyExn RequeueResponse →
      Pool World Call.Resp PyExn RequeueResponse → Prop)
    (s s' : Pool World Call.Resp PyExn RequeueResponse) : Prop :=
  ∃ act, Pool.Step Call.Sem (requeueTasks sha256 repr dlqId) s act s' ∧ Cond s act s'

/-- A request that is not between its read and its end. -/
def Outside (tasks : Set (Service RequeueResponse)) (m : RowMode) (p : Service RequeueResponse) : Prop :=
  p ∈ tasks ∨ ∃ r, p = .done r ∧ ∀ response, r = .ok response → m = .named response.rerunProofId

/-- What holds of the requests in mode `m`: all but request `i` are outside, and a rerun that
was created and is not named yet is that of request `i`. -/
structure RequeueInv (tasks : Set (Service RequeueResponse)) (dlqId : ℕ) (w₀ : World)
    (s : Pool World Call.Resp PyExn RequeueResponse) (m : RowMode) (i : ℕ) : Prop where
  row : m.Holds dlqId w₀ s.world
  others : ∀ j p, j ≠ i → s.procs j = some p → Outside tasks m p
  self : ∀ p, s.procs i = some p → p ∈ tasks ∨ RequeueSafe dlqId p m
  claimed : m.isClaimed = true → ∃ p, s.procs i = some p ∧ RequeueSafe dlqId p m

variable {s s' : Pool World Call.Resp PyExn RequeueResponse} {m : RowMode} {i : ℕ}

/-- Only a request that has a rerun in hand changes the mode, and none has ended well before. -/
theorem outside_after {tasks : Set (Service RequeueResponse)} {c : Call} {a : Except PyExn c.Resp} {m' : RowMode}
    {p : Service RequeueResponse} (hok : RequeueOk dlqId c m) (hs : RequeueSem c m a m') (h : Outside tasks m p) :
    Outside tasks m' p := by
  rcases h with hp | ⟨r, rfl, hr⟩
  · exact .inl hp
  · refine .inr ⟨r, rfl, ?_⟩
    intro response hresponse
    have hm := hr response hresponse
    subst hm
    have hafter : m' = .named response.rerunProofId := by
      cases c with
      | createProofJob new => cases hok.1
      | enqueue rerun => cases hok
      | markDeadLetterJobRequeued dlqId' rerun requestedBy reason => cases hok.2.2
      | appendEvent args => exact hs.2
      | _ => exact hs
    exact hafter

/-- A request at its read, when the row is not claimed. -/
theorem read_inv {j : ℕ} {k : Except PyExn (Option DeadLetterJob) → Service RequeueResponse}
    {a : Except PyExn (Option DeadLetterJob)} {w' : World} (hrow : m.Holds dlqId w₀ s.world)
    (hclaim : m.isClaimed = false)
    (hothers : ∀ l p, l ≠ j → s.procs l = some p → Outside (requeueTasks sha256 repr dlqId) m p)
    (htask : Prog.await (.getDeadLetterJob dlqId) k ∈ requeueTasks sha256 repr dlqId)
    (hs : (Call.getDeadLetterJob dlqId).Sem s.world a w') :
    RequeueInv (requeueTasks sha256 repr dlqId) dlqId w₀ (s.put j w' (some (k a))) m j := by
  obtain ⟨request, hdlq, hid, hp⟩ := htask
  subst hdlq
  have hk : ∀ r, k (.ok r) = requeueRow sha256 repr request r := by
    cases hp
    exact fun r => rfl
  have hk' : ∀ e, k (.error e) = .done (.error e) := by
    cases hp
    exact fun e => rfl
  have hw : w' = s.world := sem_idle (fun _ => rfl) hs
  subst hw
  have hsafe : RequeueSafe request.dlqId (k a) m := by
    cases a with
    | error e =>
      rw [hk']
      exact responds_error hclaim
    | ok r =>
      rw [hk]
      obtain ⟨now, -, hr⟩ := hs
      have hread : r = s.world.getDeadLetterJob request.dlqId := hr
      cases m with
      | free =>
        obtain ⟨⟨row, hget, hrerun⟩, -⟩ := hrow
        have := @requeueRow_safe sha256 repr request.dlqId request row rfl hid
        rw [hrerun, ← hget, ← hread] at this
        exact this
      | named rerun =>
        obtain ⟨⟨row, hget, hrerun⟩, -⟩ := hrow
        have := @requeueRow_safe sha256 repr request.dlqId request row rfl hid
        rw [hrerun, ← hget, ← hread] at this
        exact this
      | claimed rerun enqueued => cases hclaim
  refine ⟨hrow, ?_, ?_, ?_⟩
  · intro l p hl hp
    rcases Pool.procs_put hp with ⟨hlj, -⟩ | ⟨-, hp⟩
    · exact absurd hlj hl
    · exact hothers l p hl hp
  · intro p hp
    rw [Pool.procs_put_self] at hp
    rw [← Option.some.inj hp]
    exact .inr hsafe
  · intro hc
    rw [hclaim] at hc
    cases hc

/-- A request behind its creation is at one of the calls there. -/
theorem behindCreation_of_claimed {c : Call} (hok : RequeueOk dlqId c m) (hm : m.isClaimed = true) :
    c.behindCreation = true := by
  cases c with
  | getProofJob proofId =>
    have hfree : m.isClaimed = false := hok
    rw [hm] at hfree
    cases hfree
  | createProofJob new =>
    rw [hok.1] at hm
    cases hm
  | appendEvent _ | enqueue _ | markDeadLetterJobRequeued _ _ _ _ => rfl
  | _ => exact hok.elim

/-- A request of `tasks` awaits its read. -/
theorem task_read {c : Call} {k : Except PyExn c.Resp → Service RequeueResponse}
    (h : Prog.await c k ∈ requeueTasks sha256 repr dlqId) : c = .getDeadLetterJob dlqId := by
  obtain ⟨request, rfl, -, hp⟩ := h
  cases hp
  rfl

/-- A request with a rerun in hand has read the row and has not ended. -/
theorem unclaimed_of_unread {tasks : Set (Service RequeueResponse)} (hinv : RequeueInv tasks dlqId w₀ s m i)
    (hunread : ∀ p, s.procs i = some p → Unread dlqId p) : m.isClaimed = false := by
  by_contra hne
  obtain ⟨p, hp, hsafe⟩ := hinv.claimed (Bool.eq_true_of_not_eq_false hne)
  rcases hunread p hp with hdone | ⟨k, rfl⟩
  · cases p with
    | done r => exact hne hsafe.1
    | await c k => cases hdone
  · exact hsafe.1

/-- A request that has ended, or has not read the row yet, is outside. -/
theorem outside_of_unread {tasks : Set (Service RequeueResponse)} {p : Service RequeueResponse}
    (hp : p ∈ tasks ∨ RequeueSafe dlqId p m) (hunread : Unread dlqId p) : Outside tasks m p := by
  rcases hp with htask | hsafe
  · exact .inl htask
  · rcases hunread with hdone | ⟨k, rfl⟩
    · cases p with
      | done r => exact .inr ⟨r, rfl, hsafe.2⟩
      | await c k => cases hdone
    · exact hsafe.1.elim

/-- A new request is outside. -/
theorem start_inv {tasks : Set (Service RequeueResponse)} {j : ℕ} {p : Service RequeueResponse}
    (hinv : RequeueInv tasks dlqId w₀ s m i) (hj : s.procs j = none) (hp : p ∈ tasks) :
    RequeueInv tasks dlqId w₀ (s.put j s.world (some p)) m i := by
  have hnew : ∀ q, some p = some q → q ∈ tasks := by
    rintro q hq
    rw [← Option.some.inj hq]
    exact hp
  refine ⟨hinv.row, ?_, ?_, ?_⟩
  · intro l q hl hq
    rcases Pool.procs_put hq with ⟨-, hself⟩ | ⟨-, hq⟩
    · exact .inl (hnew q hself)
    · exact hinv.others l q hl hq
  · intro q hq
    rcases Pool.procs_put hq with ⟨-, hself⟩ | ⟨-, hq⟩
    · exact .inl (hnew q hself)
    · exact hinv.self q hq
  · intro hm
    obtain ⟨q, hq, hsafe⟩ := hinv.claimed hm
    have hij : i ≠ j := by
      rintro rfl
      rw [hj] at hq
      cases hq
    exact ⟨q, (Pool.procs_put_of_ne hij).trans hq, hsafe⟩

/-- A request behind its read makes a call. -/
theorem own_call_inv {tasks : Set (Service RequeueResponse)} {c : Call}
    {k : Except PyExn c.Resp → Service RequeueResponse} {a : Except PyExn c.Resp} {w' : World}
    (hinv : RequeueInv tasks dlqId w₀ s m i) (hsafe : RequeueSafe dlqId (.await c k) m)
    (hs : c.Sem s.world a w') (hanswer : RequeueAnswer s.world w' c a) :
    ∃ m', RequeueInv tasks dlqId w₀ (s.put i w' (some (k a))) m' i := by
  obtain ⟨hok, hk⟩ := hsafe
  obtain ⟨m', hsem, hrow⟩ := sem_requeueSem hinv.row hok hs hanswer
  have hnext := hk a m' hsem
  refine ⟨m', hrow, ?_, ?_, ?_⟩
  · intro l q hl hq
    rcases Pool.procs_put hq with ⟨hli, -⟩ | ⟨-, hq⟩
    · exact absurd hli hl
    · exact outside_after hok hsem (hinv.others l q hl hq)
  · intro q hq
    rw [Pool.procs_put_self] at hq
    rw [← Option.some.inj hq]
    exact .inr hnext
  · intro _
    exact ⟨k a, Pool.procs_put_self, hnext⟩

/-- A request crashes, but not one with a rerun in hand. -/
theorem crash_inv {tasks : Set (Service RequeueResponse)} {j : ℕ} (hinv : RequeueInv tasks dlqId w₀ s m i)
    (hcond : ∀ c k, s.procs j = some (.await c k) → c.behindCreation = false) :
    RequeueInv tasks dlqId w₀ (s.put j s.world none) m i := by
  have hclaimed : m.isClaimed = true → i ≠ j := by
    rintro hm rfl
    obtain ⟨q, hq, hsafe⟩ := hinv.claimed hm
    cases q with
    | done r =>
      have hfree := hsafe.1
      rw [hm] at hfree
      cases hfree
    | await c k =>
      have hbehind := hcond c k hq
      rw [behindCreation_of_claimed hsafe.1 hm] at hbehind
      cases hbehind
  refine ⟨hinv.row, ?_, ?_, ?_⟩
  · intro l q hl hq
    rcases Pool.procs_put hq with ⟨-, hself⟩ | ⟨-, hq⟩
    · cases hself
    · exact hinv.others l q hl hq
  · intro q hq
    rcases Pool.procs_put hq with ⟨-, hself⟩ | ⟨-, hq⟩
    · cases hself
    · exact hinv.self q hq
  · intro hm
    obtain ⟨q, hq, hsafe⟩ := hinv.claimed hm
    exact ⟨q, (Pool.procs_put_of_ne (hclaimed hm)).trans hq, hsafe⟩

/-- **One step keeps the invariant.** Only a read passes the row on to another request. -/
theorem requeueStep_inv (h : ∃ m i, RequeueInv (requeueTasks sha256 repr dlqId) dlqId w₀ s m i)
    (hstep : RequeueStep sha256 repr dlqId (RequeueCond dlqId) s s') :
    ∃ m i, RequeueInv (requeueTasks sha256 repr dlqId) dlqId w₀ s' m i := by
  obtain ⟨m, i, hinv⟩ := h
  obtain ⟨act, hstep, hcond⟩ := hstep
  cases hstep with
  | @start j p hj hp => exact ⟨m, i, start_inv hinv hj hp⟩
  | @call j c k a w' hj hs =>
    obtain ⟨hanswer, hread⟩ := hcond
    by_cases hji : j = i
    · subst hji
      rcases hinv.self _ hj with htask | hsafe
      · -- its read, so it has created nothing yet
        obtain rfl := task_read htask
        have hunread : ∀ p, s.procs j = some p → Unread dlqId p := by
          intro p hp
          rw [hj] at hp
          exact .inr ⟨k, (Option.some.inj hp).symm⟩
        exact ⟨m, j, read_inv hinv.row (unclaimed_of_unread hinv hunread) hinv.others htask hs⟩
      · obtain ⟨m', hinv'⟩ := own_call_inv hinv hsafe hs hanswer
        exact ⟨m', j, hinv'⟩
    · rcases hinv.others j _ hji hj with htask | ⟨r, hr, -⟩
      · -- another request reads: request `i` is not in between
        obtain rfl := task_read htask
        have hunread := fun p => hread rfl i p (Ne.symm hji)
        refine ⟨m, j, read_inv hinv.row (unclaimed_of_unread hinv hunread) ?_ htask hs⟩
        intro l q hl hq
        by_cases hli : l = i
        · subst hli
          exact outside_of_unread (hinv.self q hq) (hunread q hq)
        · exact hinv.others l q hli hq
      · cases hr
  | @crash j p hj => exact ⟨m, i, crash_inv hinv hcond⟩

/-- At most one rerun was created and enqueued since `w₀`, and it is `rerun`. -/
def OneRerun (w₀ w : World) (rerun : String) : Prop :=
  ∃ created enqueued, w.history = w₀.history ++ created ∧ w.queue = w₀.queue ++ enqueued ∧
    (created = [] ∨ created = [(rerun, .queued)]) ∧ (enqueued = [] ∨ enqueued = [rerun])

theorem oneRerun_of_holds (h : m.Holds dlqId w₀ w) :
    ∃ rerun, OneRerun w₀ w rerun ∧ ∀ X, m = .named X → X = rerun := by
  cases m with
  | free => exact ⟨"", ⟨[], [], by simpa using h.2.1, by simpa using h.2.2, .inl rfl, .inl rfl⟩, nofun⟩
  | claimed rerun enqueued =>
    refine ⟨rerun, ⟨_, _, h.2.1, h.2.2, .inr rfl, ?_⟩, nofun⟩
    cases enqueued
    · exact .inl rfl
    · exact .inr rfl
  | named rerun =>
    refine ⟨rerun, ?_, ?_⟩
    · rcases h.2 with ⟨hh, hq⟩ | ⟨hh, hq⟩
      · exact ⟨[], [], by simpa using hh, by simpa using hq, .inl rfl, .inl rfl⟩
      · exact ⟨_, _, hh, hq, .inr rfl, .inr rfl⟩
    · rintro X hX
      cases hX
      rfl

/-- **When requeue is idempotent.** In every run of any number of requests for a dead letter
whose steps meet the condition, at most one rerun is created and enqueued, and every response
names it. -/
theorem requeue_idempotent {row : DeadLetterJob} (hrow : w₀.getDeadLetterJob dlqId = some row)
    (hrun : ReflTransGen (RequeueStep sha256 repr dlqId (RequeueCond dlqId)) ⟨w₀, fun _ => none⟩ s) :
    ∃ rerun, OneRerun w₀ s.world rerun ∧
      ∀ i response, s.procs i = some (.done (.ok response)) → response.rerunProofId = rerun := by
  have hinit : ∃ m i, RequeueInv (requeueTasks sha256 repr dlqId) dlqId w₀ ⟨w₀, fun _ => none⟩ m i := by
    cases hrerun : row.rerun? with
    | none => exact ⟨.free, 0, ⟨⟨row, hrow, hrerun⟩, rfl, rfl⟩, nofun, nofun, nofun⟩
    | some rerun => exact ⟨.named rerun, 0, ⟨⟨row, hrow, hrerun⟩, .inl ⟨rfl, rfl⟩⟩, nofun, nofun, nofun⟩
  obtain ⟨m, i, hinv⟩ :=
    run_invariant (I := fun s => ∃ m i, RequeueInv (requeueTasks sha256 repr dlqId) dlqId w₀ s m i) hinit
      requeueStep_inv hrun
  obtain ⟨rerun, hone, hnamed⟩ := oneRerun_of_holds hinv.row
  refine ⟨rerun, hone, ?_⟩
  intro j response hj
  have hnottask : (Prog.done (.ok response) : Service RequeueResponse) ∉ requeueTasks sha256 repr dlqId := by
    rintro ⟨request, -, -, hp⟩
    cases hp
  by_cases hji : j = i
  · subst hji
    rcases hinv.self _ hj with htask | hsafe
    · exact absurd htask hnottask
    · exact hnamed _ (hsafe.2 response rfl)
  · rcases hinv.others j _ hji hj with htask | ⟨r, hr, hm⟩
    · exact absurd htask hnottask
    · cases hr
      exact hnamed _ (hm response rfl)

/-! ## Two requests -/

/-- A dead letter with its payload. -/
def demoLetter : DeadLetterInput where
  proofId := "p1"
  circuitId := "credit_check"
  errorClass := "timeout"
  retryable := true
  failureReason := "soft_time_limit_exceeded"
  errorMessage := "proof job exceeded celery soft time limit (240s)"
  attemptCount := 1
  maxAttempts := 3
  triageDetails := .obj []
  jobMetadata := .empty
  sealedRerunPayload := some "vault:v1:c2VhbGVk"

def demoLetterWorld : World := World.empty.upsertDeadLetterJob demoLetter

def demoRequest (rerunProofId : String) : RequeueRequest := ⟨1, some "ops-1", none, rerunProofId⟩

/-- `n` calls of request `i`, none of which raises. -/
def demoDrive (i n : ℕ) (s : Pool World Call.Resp PyExn RequeueResponse) : Pool World Call.Resp PyExn RequeueResponse :=
  Pool.driveAt (demoAnswer .null true fun _ => false) i n s

/-- Two requests begin. -/
def demoRequests : Pool World Call.Resp PyExn RequeueResponse :=
  (Pool.put ⟨demoLetterWorld, fun _ => none⟩ 0 demoLetterWorld
    (some (requeueDeadLetterJob demoSha demoWorker.repr (demoRequest "r1")))).put 1 demoLetterWorld
      (some (requeueDeadLetterJob demoSha demoWorker.repr (demoRequest "r2")))

theorem demoRequests_run {Cond : Pool World Call.Resp PyExn RequeueResponse →
    Act Call.Resp PyExn RequeueResponse → Pool World Call.Resp PyExn RequeueResponse → Prop}
    (hstart : ∀ s i p s', Cond s (.start i p) s') :
    ReflTransGen (RequeueStep demoSha demoWorker.repr 1 Cond) ⟨demoLetterWorld, fun _ => none⟩ demoRequests := by
  have h1 : RequeueStep demoSha demoWorker.repr 1 Cond ⟨demoLetterWorld, fun _ => none⟩ (Pool.put _ 0 demoLetterWorld
      (some (requeueDeadLetterJob demoSha demoWorker.repr (demoRequest "r1")))) :=
    ⟨.start 0 _, .start rfl ⟨demoRequest "r1", rfl, by decide, rfl⟩, hstart _ _ _ _⟩
  have h2 : RequeueStep demoSha demoWorker.repr 1 Cond _ demoRequests :=
    ⟨.start 1 _, .start rfl ⟨demoRequest "r2", rfl, by decide, rfl⟩, hstart _ _ _ _⟩
  exact .tail (.single h1) h2

/-- Both read the row before either marks it: two reruns are created and enqueued, and the
responses name both. -/
theorem requeue_twice : ∃ s, ReflTransGen (RequeueStep demoSha demoWorker.repr 1 fun _ _ _ => True)
    ⟨demoLetterWorld, fun _ => none⟩ s ∧ s.world.queue = ["r1", "r2"] ∧
    s.procs 0 = some (.done (.ok ⟨1, "p1", "r1", .queued⟩)) ∧ s.procs 1 =
      some (.done (.ok ⟨1, "p1", "r2", .queued⟩)) := by
  have hdrive : ∀ i n s, ReflTransGen (RequeueStep demoSha demoWorker.repr 1 fun _ _ _ => True) s
      (demoDrive i n s) := by
    intro i n s
    refine Pool.driveAt_run (fun _ => True) (fun _ => trivial) ?_ n trivial
    intro s c k _ hk
    exact ⟨_, .call hk (demoAnswer_sem _ _ _ c s.world), trivial⟩
  have hrun : ReflTransGen (RequeueStep demoSha demoWorker.repr 1 fun _ _ _ => True) ⟨demoLetterWorld, fun _ => none⟩
      demoRequests := demoRequests_run (fun _ _ _ _ => trivial)
  have hread := (hrun.trans (hdrive 0 2 _)).trans (hdrive 1 2 _)
  exact ⟨_, (hread.trans (hdrive 0 5 _)).trans (hdrive 1 5 _), rfl, rfl, rfl⟩

/-- In a world in which no call raises, a creation that raises has found its uuid taken. -/
theorem requeueAnswer_demo (c : Call) (w : World) :
    RequeueAnswer w (demoAnswer .null true (fun _ => false) c w).2 c
      (demoAnswer .null true (fun _ => false) c w).1 := by
  unfold demoAnswer
  split_ifs with h
  · cases c with
    | createProofJob new => rfl
    | _ => trivial
  · cases c with
    | markDeadLetterJobRequeued dlqId rerun requestedBy reason => exact ⟨(), 0, rfl, trivial⟩
    | _ => first | rfl | trivial

/-- A request that runs to its end has its rerun, and the other one has not read yet. -/
theorem requeue_idempotent_one : ∃ rerun, OneRerun demoLetterWorld (demoDrive 0 7 demoRequests).world rerun ∧
    ∀ i response, (demoDrive 0 7 demoRequests).procs i = some (.done (.ok response)) →
      response.rerunProofId = rerun := by
  have hdrive : ReflTransGen (RequeueStep demoSha demoWorker.repr 1 (RequeueCond 1)) demoRequests
      (demoDrive 0 7 demoRequests) := by
    refine Pool.driveAt_run (fun s => ∀ j p, j ≠ 0 → s.procs j = some p → Unread 1 p) ?_ ?_ 7 ?_
    · intro s w p h j q hj hq
      rcases Pool.procs_put hq with ⟨hj0, -⟩ | ⟨-, hq⟩
      · exact absurd hj0 hj
      · exact h j q hj hq
    · intro s c k hothers hk
      refine ⟨_, .call hk (demoAnswer_sem _ _ _ c s.world), ?_, fun _ => hothers⟩
      exact requeueAnswer_demo c s.world
    · intro j p hj hp
      rcases Pool.procs_put hp with ⟨-, hself⟩ | ⟨-, hp⟩
      · obtain rfl := Option.some.inj hself
        exact .inr ⟨_, rfl⟩
      · rcases Pool.procs_put hp with ⟨hj0, -⟩ | ⟨-, hp⟩
        · exact absurd hj0 hj
        · cases hp
  exact requeue_idempotent rfl ((demoRequests_run fun _ _ _ _ => trivial).trans hdrive)

end Vellum
