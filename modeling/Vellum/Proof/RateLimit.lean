import Vellum.Lib.Joined
import Vellum.Lib.JsonText
import Vellum.Lib.Run
import Vellum.Spec.RateLimit

/-!
# When the rate limit is exact

A counter is given 61 seconds when it is new or later, so it outlives the window it belongs to,
whenever in it the first call arrives. Until the window ends the counter in Redis is the number of
the increments so far.

* `redisKey_iff`: when two calls count on one counter.
* `step_inv`: what a step keeps.
* `rate_limit_exact`: where no counter is shared, the first increments of a submitter in a window pass
  the comparison and the others do not.
* `rate_limit_shared`: a colon in a key id puts two submitters on one counter.
-/

namespace Vellum

namespace RateLimit

open Relation

variable {L : Limiter} {s s' : State} {c c' : SubmitCall} {i count : ℕ} {w w' : ℤ}

/-! ## Windows -/

theorem windowOf_le (now : ℚ) : 60 * (windowOf now : ℚ) ≤ now := by
  have h := Int.floor_le (now / 60)
  unfold windowOf
  linarith

theorem windowOf_eq {now : ℚ} : windowOf now = w ↔ 60 * (w : ℚ) ≤ now ∧ now < 60 * w + 60 := by
  unfold windowOf
  rw [Int.floor_eq_iff, le_div_iff₀ (by norm_num), div_lt_iff₀ (by norm_num)]
  constructor
  · rintro ⟨h1, h2⟩
    constructor <;> linarith
  · rintro ⟨h1, h2⟩
    constructor <;> linarith

theorem colon_notMem_repr (w : ℤ) : ':' ∉ w.repr.toList := by
  intro h
  have hall := List.all_eq_true.1 (Json.int_chars w) _ h
  revert hall
  decide

/-- The name that the counters of a submitter have in every window. -/
def counterName (p : String × Option String) : String := p.1 ++ ":" ++ p.2.getD "unknown"

theorem clientMarker_eq (c : SubmitCall) : c.clientMarker = c.submitter.2.getD "unknown" := by
  unfold SubmitCall.clientMarker SubmitCall.submitter
  cases c.sourceIp with
  | none => rfl
  | some ip => by_cases h : ip = "" <;> simp [h, Option.filter]

theorem redisKey_toList (c : SubmitCall) (w : ℤ) : (c.redisKey w).toList =
    "vellum:ratelimit:submit:".toList ++ ((counterName c.submitter).toList ++ ':' :: w.repr.toList) := by
  have hid : c.keyId = c.submitter.1 := rfl
  have hcolon : ':' :: w.repr.toList = ":".toList ++ w.repr.toList := rfl
  unfold SubmitCall.redisKey counterName
  simp only [clientMarker_eq, hid, hcolon, String.toList_append, List.append_assoc]

/-- **When two calls count on one counter**: in one window, by submitters whose counters have one name. -/
theorem redisKey_iff : c.redisKey w = c'.redisKey w' ↔
    counterName c.submitter = counterName c'.submitter ∧ w = w' := by
  constructor
  · intro h
    have hlist := congrArg String.toList h
    rw [redisKey_toList, redisKey_toList, List.append_cancel_left_eq] at hlist
    obtain ⟨hname, hw⟩ := split_last hlist (colon_notMem_repr w) (colon_notMem_repr w')
    exact ⟨String.toList_inj.1 hname, Json.int_repr_inj hw⟩
  · rintro ⟨hname, rfl⟩
    rw [← String.toList_inj, redisKey_toList, redisKey_toList, hname]

/-! ## What a run keeps -/

/-- The increments of a counter, in their order. -/
def onCounter (L : Limiter) (key : String) (xs : List Increment) : List Increment :=
  xs.filter fun x => (L.call x.call).redisKey x.window = key

/-- Where a call may stand once its increment was the `count`-th. -/
inductive Counted (L : Limiter) (count : ℕ) : CallPhase → Prop where
  -- only the call that made the counter sets its deadline
  | expiring {window : ℤ} : count = 1 → Counted L count (.expiring window count)
  | comparing {window : ℤ} : Counted L count (.comparing window count)
  | returned : Counted L count (.returned (compare L.maxPerMinute count))
  | crashed : Counted L count .crashed

/-- The counter in Redis until its window ends. -/
def CounterOk (L : Limiter) (s : State) (key : String) (w : ℤ) : Prop :=
  (onCounter L key s.increments = [] ∧ s.redis.entry key = none) ∨
    onCounter L key s.increments ≠ [] ∧ ∃ deadline,
      s.redis.entry key = some ((onCounter L key s.increments).length, deadline) ∧
      ∀ d ∈ deadline, 60 * (w : ℚ) + counterSeconds ≤ d

/-- The call has not made its increment. -/
def CallPhase.early : CallPhase → Bool
  | .idle | .incrementing _ => true
  | _ => false

/-- **The invariant.** -/
structure Inv (L : Limiter) (s : State) : Prop where
  incrementing : ∀ i w, s.calls i = .incrementing w → 60 * (w : ℚ) ≤ s.now
  expiring : ∀ i w n, s.calls i = .expiring w n → 60 * (w : ℚ) ≤ s.now
  early : ∀ x ∈ s.increments, (s.calls x.call).early = false
  counters : ∀ (c : SubmitCall) (w : ℤ), s.now < 60 * w + 60 → CounterOk L s (c.redisKey w) w
  phases : ∀ (c : SubmitCall) (w : ℤ) (n : ℕ) (x : Increment),
    (onCounter L (c.redisKey w) s.increments)[n]? = some x → x.time < 60 * w + 60 → Counted L (n + 1) (s.calls x.call)

theorem inv_init (now : ℚ) : Inv L (.init now) := by
  constructor
  · intro i w h
    cases h
  · intro i w n h
    cases h
  · intro x hx
    cases hx
  · intro c w _
    exact .inl ⟨rfl, rfl⟩
  · intro c w n x hx
    cases hx

/-- **A step of a call** that makes no increment: what it has been counted as stays. -/
theorem inv_setCall (h : Inv L s) {redis : CounterStore} {p : CallPhase}
    (hincr : ∀ w, p = .incrementing w → 60 * (w : ℚ) ≤ s.now) (hexp : ∀ w n, p = .expiring w n → 60 * (w : ℚ) ≤ s.now)
    (hearly : p.early = true → (s.calls i).early = true) (hcounted : ∀ n, Counted L n (s.calls i) → Counted L n p)
    (hredis : ∀ (c : SubmitCall) (w : ℤ), s.now < 60 * w + 60 →
      CounterOk L { s with redis := redis } (c.redisKey w) w) :
    Inv L { s with redis := redis, calls := Function.update s.calls i p } := by
  have hcases (j : ℕ) : Function.update s.calls i p j = p ∧ j = i ∨ Function.update s.calls i p j = s.calls j := by
    by_cases hj : j = i
    · subst hj
      exact .inl ⟨Function.update_self .., rfl⟩
    · exact .inr (Function.update_of_ne hj ..)
  constructor
  · intro j w hj
    rcases hcases j with ⟨heq, -⟩ | heq
    · exact hincr w (heq.symm.trans hj)
    · exact h.incrementing j w (heq.symm.trans hj)
  · intro j w n hj
    rcases hcases j with ⟨heq, -⟩ | heq
    · exact hexp w n (heq.symm.trans hj)
    · exact h.expiring j w n (heq.symm.trans hj)
  · intro x hx
    have hold := h.early x hx
    dsimp only
    rcases hcases x.call with ⟨heq, hxi⟩ | heq
    · rw [heq]
      rw [hxi] at hold
      by_contra hp
      rw [hearly (by simpa using hp)] at hold
      cases hold
    · rw [heq]
      exact hold
  · exact hredis
  · intro c w n x hx hlt
    have hold := h.phases c w n x hx hlt
    dsimp only
    rcases hcases x.call with ⟨heq, hxi⟩ | heq
    · rw [heq]
      rw [hxi] at hold
      exact hcounted _ hold
    · rw [heq]
      exact hold

/-- `INCR` on a counter whose window has not ended counts the increments. -/
theorem incr_count (h : CounterOk L s (c.redisKey w) w) (hlt : s.now < 60 * w + 60) :
    (s.redis.incr s.now (c.redisKey w)).2 = (onCounter L (c.redisKey w) s.increments).length + 1 ∧
      ∃ deadline, (s.redis.incr s.now (c.redisKey w)).1.entry (c.redisKey w) =
          some ((onCounter L (c.redisKey w) s.increments).length + 1, deadline) ∧
        ∀ d ∈ deadline, 60 * (w : ℚ) + counterSeconds ≤ d := by
  rcases h with ⟨hnil, hnone⟩ | ⟨-, deadline, hentry, hd⟩
  · obtain ⟨h1, h2⟩ := CounterStore.incr_new hnone
    rw [hnil]
    refine ⟨h1, none, h2, fun d hd => ?_⟩
    cases hd
  · -- the deadline lies behind the end of the window
    have hbefore : CounterStore.Before s.now deadline := by
      intro d hmem
      have := hd d hmem
      unfold counterSeconds at this
      linarith
    obtain ⟨h1, h2⟩ := CounterStore.incr_alive hentry hbefore
    exact ⟨h1, deadline, h2, hd⟩

theorem onCounter_append (key : String) (xs : List Increment) (x : Increment) :
    onCounter L key (xs ++ [x]) =
      onCounter L key xs ++ if (L.call x.call).redisKey x.window = key then [x] else [] := by
  unfold onCounter
  rw [List.filter_append, List.filter_singleton]
  by_cases h : (L.call x.call).redisKey x.window = key
  · simp [h]
  · simp [h]

/-- What an increment keeps. The counter of another key, and the calls that are counted, are as
they were; the new increment is the last of its counter. -/
theorem inv_incr {window : ℤ} (h : Inv L s) (hi : s.calls i = .incrementing window) :
    Inv L { s with
      redis := (s.redis.incr s.now ((L.call i).redisKey window)).1
      increments := s.increments ++ [⟨i, window, s.now⟩]
      calls := Function.update s.calls i
        (if (s.redis.incr s.now ((L.call i).redisKey window)).2 = 1 then .expiring window 1
          else .comparing window (s.redis.incr s.now ((L.call i).redisKey window)).2) } := by
  have hstart := h.incrementing i window hi
  -- the call has made no increment before
  have hnew : ∀ x ∈ s.increments, x.call ≠ i := by
    intro x hx hxi
    have hearly := h.early x hx
    rw [hxi, hi] at hearly
    cases hearly
  set answer := s.redis.incr s.now ((L.call i).redisKey window) with hanswer
  set p : CallPhase := if answer.2 = 1 then .expiring window 1 else .comparing window answer.2 with hp
  have hpearly : p.early = false := by
    rw [hp]
    split_ifs
    · rfl
    · rfl
  have hcases (j : ℕ) : Function.update s.calls i p j = p ∧ j = i ∨
      Function.update s.calls i p j = s.calls j ∧ j ≠ i := by
    by_cases hj : j = i
    · subst hj
      exact .inl ⟨Function.update_self .., rfl⟩
    · exact .inr ⟨Function.update_of_ne hj .., hj⟩
  constructor
  · intro j w hj
    rcases hcases j with ⟨heq, -⟩ | ⟨heq, -⟩
    · rw [heq.symm.trans hj] at hpearly
      cases hpearly
    · exact h.incrementing j w (heq.symm.trans hj)
  · intro j w n hj
    rcases hcases j with ⟨heq, -⟩ | ⟨heq, -⟩
    · have hpw : p = .expiring w n := heq.symm.trans hj
      rw [hp] at hpw
      split_ifs at hpw
      obtain ⟨rfl, -⟩ := CallPhase.expiring.inj hpw
      exact hstart
    · exact h.expiring j w n (heq.symm.trans hj)
  · intro x hx
    dsimp only
    rcases hcases x.call with ⟨heq, -⟩ | ⟨heq, hne⟩
    · rw [heq]
      exact hpearly
    · rw [heq]
      rcases List.mem_append.1 hx with hx | hx
      · exact h.early x hx
      · exact absurd (congrArg Increment.call (List.mem_singleton.1 hx)) hne
  · intro c w hlt
    have hold := h.counters c w hlt
    by_cases hkey : (L.call i).redisKey window = c.redisKey w
    · obtain ⟨-, deadline, hentry, hd⟩ := incr_count hold hlt
      refine .inr ⟨?_, deadline, ?_, hd⟩
      · rw [onCounter_append, if_pos hkey]
        simp
      · rw [onCounter_append, if_pos hkey, List.length_append, hanswer, hkey]
        exact hentry
    · have hlist : onCounter L (c.redisKey w) (s.increments ++ [⟨i, window, s.now⟩]) =
          onCounter L (c.redisKey w) s.increments := by
        rw [onCounter_append, if_neg hkey, List.append_nil]
      have hentry : answer.1.entry (c.redisKey w) = s.redis.entry (c.redisKey w) :=
        CounterStore.incr_other (fun heq => hkey heq.symm)
      unfold CounterOk
      rw [hlist, hentry]
      exact hold
  · intro c w n x hx hlt
    dsimp only at hx ⊢
    rw [onCounter_append] at hx
    by_cases hn : n < (onCounter L (c.redisKey w) s.increments).length
    · -- an increment from before
      rw [List.getElem?_append_left hn] at hx
      have hmem : x ∈ s.increments := List.mem_of_mem_filter (List.mem_of_getElem? hx)
      rcases hcases x.call with ⟨-, hxi⟩ | ⟨heq, -⟩
      · exact absurd hxi (hnew x hmem)
      · rw [heq]
        exact h.phases c w n x hx hlt
    · rw [List.getElem?_append_right (Nat.le_of_not_lt hn)] at hx
      split_ifs at hx with hkey
      · have hn0 : n - (onCounter L (c.redisKey w) s.increments).length = 0 := by
          by_contra hne
          rw [List.getElem?_eq_none (by simp; omega)] at hx
          cases hx
        rw [hn0] at hx
        obtain rfl := Option.some.inj hx
        have hlt' : s.now < 60 * w + 60 := hlt
        obtain ⟨hcount, -⟩ := incr_count (h.counters c w hlt') hlt'
        have hlen : n = (onCounter L (c.redisKey w) s.increments).length := by omega
        rw [← hkey, ← hanswer, hkey, ← hlen] at hcount
        rw [Function.update_self, hp]
        split_ifs with hone
        · have : n + 1 = 1 := hcount.symm.trans hone
          rw [this]
          exact .expiring rfl
        · rw [hcount]
          exact .comparing
      · cases hx

/-- What a deadline keeps: it is 61 seconds after a moment of the window or later. -/
theorem inv_expire {window : ℤ} (h : Inv L s) (hi : s.calls i = .expiring window count) :
    Inv L { s with
      redis := s.redis.expire s.now ((L.call i).redisKey window) counterSeconds
      calls := Function.update s.calls i (.comparing window count) } := by
  have hstart := h.expiring i window count hi
  refine inv_setCall h (by simp) (by simp) (by simp [CallPhase.early]) ?_ ?_
  · intro n hn
    rw [hi] at hn
    cases hn
    exact .comparing
  · intro c w hlt
    have hold := h.counters c w hlt
    rcases CounterStore.expire_cases s.redis s.now ((L.call i).redisKey window) counterSeconds (c.redisKey w) with
      heq | ⟨hkey, n, deadline, hentry, heq⟩
    · unfold CounterOk
      dsimp only
      rw [heq]
      exact hold
    · obtain ⟨-, rfl⟩ := redisKey_iff.1 hkey
      rcases hold with ⟨-, hnone⟩ | ⟨hne, deadline', hentry', -⟩
      · rw [hnone] at hentry
        cases hentry
      · rw [hentry'] at hentry
        obtain ⟨rfl, -⟩ := Prod.mk.inj (Option.some.inj hentry)
        refine .inr ⟨hne, some (s.now + counterSeconds), heq, ?_⟩
        intro d hd
        obtain rfl := Option.some.inj hd
        linarith

/-- **What a step keeps.** -/
theorem step_inv (h : Inv L s) (hstep : Step L s s') : Inv L s' := by
  cases hstep with
  | @tick now hnow =>
    refine ⟨?_, ?_, h.early, ?_, h.phases⟩
    · intro i w hi
      exact (h.incrementing i w hi).trans hnow
    · intro i w n hi
      exact (h.expiring i w n hi).trans hnow
    · intro c w hlt
      exact h.counters c w (lt_of_le_of_lt hnow hlt)
  | unlimited hidle _ =>
    refine inv_setCall h (by simp) (by simp) (by simp [CallPhase.early]) ?_ h.counters
    intro n hn
    rw [hidle] at hn
    cases hn
  | start hidle _ =>
    refine inv_setCall h ?_ (by simp) (by simp [hidle, CallPhase.early]) ?_ h.counters
    · intro w hw
      obtain rfl := CallPhase.incrementing.inj hw
      exact windowOf_le s.now
    · intro n hn
      rw [hidle] at hn
      cases hn
  | incr hi => exact inv_incr h hi
  | expire hi => exact inv_expire h hi
  | compare hi =>
    refine inv_setCall h (by simp) (by simp) (by simp [CallPhase.early]) ?_ h.counters
    intro n hn
    rw [hi] at hn
    cases hn
    exact .returned
  | crash hi =>
    refine inv_setCall h (by simp) (by simp) (by simp [CallPhase.early]) ?_ h.counters
    intro n _
    exact .crashed

/-! ## The limit -/

theorem compare_of_le (h : (count : ℤ) ≤ L.maxPerMinute) : compare L.maxPerMinute count = .ok () := by
  unfold compare
  rw [if_neg (by omega)]

theorem compare_of_gt (h : L.maxPerMinute < count) :
    compare L.maxPerMinute count = .error (rateLimited L.maxPerMinute) := by
  unfold compare
  rw [if_pos h]

/-- **What a call comes to** once its increment was the `count`-th: over the limit it has not
passed, and the comparison ahead of it does not let it pass. -/
theorem counted_limited (hm : 1 ≤ L.maxPerMinute) (h : Counted L count (s.calls i)) (hgt : L.maxPerMinute < count) :
    s.calls i = .crashed ∨ s.calls i = .returned (.error (rateLimited L.maxPerMinute)) ∨
      Step L s (s.setCall i (.returned (.error (rateLimited L.maxPerMinute)))) := by
  rw [← compare_of_gt hgt]
  cases hp : s.calls i with
  | idle | incrementing _ =>
    rw [hp] at h
    cases h
  | expiring window count' =>
    rw [hp] at h
    cases h with
    | expiring hone => omega
  | comparing window count' =>
    rw [hp] at h
    cases h
    exact .inr (.inr (.compare hp))
  | returned answer =>
    rw [hp] at h
    cases h
    exact .inr (.inl rfl)
  | crashed => exact .inl rfl

/-- The increments of a submitter that read the clock in a window, in their order. -/
def bySubmitter (L : Limiter) (p : String × Option String) (w : ℤ) (xs : List Increment) : List Increment :=
  xs.filter fun x => (L.call x.call).submitter = p ∧ x.window = w

/-- **The limit is exact**: of the calls of one submitter that read the clock and increment their
counter in one window the first `max_per_minute` are not rejected; every later one is rejected, or
will be unless it crashes first. -/
structure LimitExact (L : Limiter) (s : State) : Prop where
  admitted : ∀ (p : String × Option String) (w : ℤ) (n : ℕ) (x : Increment),
    (bySubmitter L p w s.increments)[n]? = some x → windowOf x.time = w →
    (n : ℤ) < L.maxPerMinute → ∀ e, s.calls x.call ≠ .returned (.error e)
  rejected : ∀ (p : String × Option String) (w : ℤ) (n : ℕ) (x : Increment),
    (bySubmitter L p w s.increments)[n]? = some x → windowOf x.time = w →
    L.maxPerMinute ≤ n → s.calls x.call = .crashed ∨
      s.calls x.call = .returned (.error (rateLimited L.maxPerMinute)) ∨
      Step L s (s.setCall x.call (.returned (.error (rateLimited L.maxPerMinute))))

/-- No two submitters of a window whose counters have one name. -/
def Unshared (L : Limiter) (s : State) : Prop :=
  ∀ x ∈ s.increments, ∀ y ∈ s.increments, x.window = y.window →
    counterName (L.call x.call).submitter = counterName (L.call y.call).submitter →
      (L.call x.call).submitter = (L.call y.call).submitter

/-- Where no counter is shared, the increments of a counter are those of its submitter. -/
theorem onCounter_bySubmitter (h : Unshared L s) {x : Increment} (hx : x ∈ s.increments) :
    onCounter L ((L.call x.call).redisKey x.window) s.increments =
      bySubmitter L (L.call x.call).submitter x.window s.increments := by
  unfold onCounter bySubmitter
  refine List.filter_congr fun y hy => ?_
  rw [decide_eq_decide, redisKey_iff]
  constructor
  · rintro ⟨hname, hw⟩
    exact ⟨h y hy x hx hw hname, hw⟩
  · rintro ⟨hsubmitter, hw⟩
    exact ⟨by rw [hsubmitter], hw⟩

/-- A counted call within the limit is not rejected. -/
theorem counted_admitted (h : Counted L count (s.calls i)) (hle : (count : ℤ) ≤ L.maxPerMinute) (e : APIError) :
    s.calls i ≠ .returned (.error e) := by
  intro he
  rw [he] at h
  have hok := compare_of_le hle
  generalize hr : CallPhase.returned (.error e) = p at h
  cases h with
  | returned =>
    rw [hok] at hr
    cases CallPhase.returned.inj hr
  | expiring _ | comparing | crashed => cases hr

/-- **Where no counter is shared the limit is exact.** -/
theorem limitExact_of_unshared (hinv : Inv L s) (hm : 1 ≤ L.maxPerMinute) (h : Unshared L s) : LimitExact L s := by
  have hcounted : ∀ (p : String × Option String) (w : ℤ) (n : ℕ) (x : Increment),
      (bySubmitter L p w s.increments)[n]? = some x → windowOf x.time = w →
      Counted L (n + 1) (s.calls x.call) := by
    intro p w n x hx hw
    obtain ⟨hmem, hof⟩ := List.mem_filter.1 (List.mem_of_getElem? hx)
    obtain ⟨rfl, rfl⟩ := of_decide_eq_true hof
    rw [← onCounter_bySubmitter h hmem] at hx
    exact hinv.phases _ _ n x hx (windowOf_eq.1 hw).2
  constructor
  · intro p w n x hx hw hlt
    exact counted_admitted (hcounted p w n x hx hw) (by push_cast; omega)
  · intro p w n x hx hw hle
    exact counted_limited hm (hcounted p w n x hx hw) (by push_cast; omega)

theorem setCall_self (s : State) (i : ℕ) (p : CallPhase) : (s.setCall i p).calls i = p := Function.update_self ..

/-- Two calls count on one counter at one moment. -/
theorem two_increments (hm : 1 ≤ L.maxPerMinute) {now : ℚ}
    (hkey : (L.call 1).redisKey (windowOf now) = (L.call 0).redisKey (windowOf now)) :
    ∃ redis calls, ReflTransGen (Step L) (.init now)
        ⟨now, redis, calls, [⟨0, windowOf now, now⟩, ⟨1, windowOf now, now⟩]⟩ ∧
      calls 1 = .comparing (windowOf now) 2 ∧ calls 2 = .idle := by
  obtain ⟨-, hentry⟩ := @CounterStore.incr_new .empty ((L.call 0).redisKey (windowOf now)) now rfl
  have hbefore : CounterStore.Before now none := fun _ hd => by cases hd
  obtain ⟨htwo, -⟩ := CounterStore.incr_alive hentry hbefore
  have hrun := ((((ReflTransGen.refl (r := Step L) (a := .init now)).tail (.start (i := 0) rfl hm)).tail
    (.incr (i := 0) rfl)).tail (.start (i := 1) rfl hm)).tail (.incr (i := 1) rfl)
  refine ⟨_, _, hrun, ?_, rfl⟩
  -- the answer of the second `INCR`
  show (fun count : ℕ => if count = 1 then CallPhase.expiring (windowOf now) 1 else .comparing (windowOf now) count)
    ((CounterStore.empty.incr now ((L.call 0).redisKey (windowOf now))).1.incr now
      ((L.call 1).redisKey (windowOf now))).2 = _
  rw [hkey, htwo]
  rfl

/-- A limit of one for two calls. -/
def twoCalls (c c' : SubmitCall) : Limiter := ⟨1, fun i => if i = 0 then c else c'⟩

/-- **A shared counter.** One call each of two submitters whose counters have one name: the second call
is rejected, and it is the first of its submitter. -/
theorem shared_not_exact (hname : counterName c.submitter = counterName c'.submitter)
    (hne : c.submitter ≠ c'.submitter) (now : ℚ) :
    ∃ s, ReflTransGen (Step (twoCalls c c')) (.init now) s ∧ ¬ LimitExact (twoCalls c c') s := by
  have hkey : c'.redisKey (windowOf now) = c.redisKey (windowOf now) := redisKey_iff.2 ⟨hname.symm, rfl⟩
  obtain ⟨redis, calls, hrun, hcalls, -⟩ := @two_increments (twoCalls c c') le_rfl now hkey
  refine ⟨_, hrun.tail (.compare (i := 1) hcalls), fun hexact => ?_⟩
  refine hexact.admitted c'.submitter (windowOf now) 0 ⟨1, windowOf now, now⟩ ?_ rfl zero_lt_one (rateLimited 1) ?_
  · have hother : ¬ ((twoCalls c c').call 0).submitter = c'.submitter := hne
    have hown : ((twoCalls c c').call 1).submitter = c'.submitter := rfl
    simp [bySubmitter, State.setCall, hother, hown]
  · have hover : (twoCalls c c').maxPerMinute < (2 : ℕ) := by norm_num [twoCalls]
    rw [setCall_self, compare_of_gt hover]
    rfl

/-- **When the rate limit is exact in every window.** In every run in which no two submitters share
the name of a counter, whatever other calls run in between, the limit is exact for every submitter; any
two submitters that share one have a run in which it is not. No counter belongs to two windows. -/
theorem rate_limit_exact (L : Limiter) (hm : 1 ≤ L.maxPerMinute) (now : ℚ) :
    (∀ s, ReflTransGen (Step L) (.init now) s → Unshared L s → LimitExact L s) ∧
    (∀ c c' : SubmitCall, counterName c.submitter = counterName c'.submitter → c.submitter ≠ c'.submitter →
      ∃ s, ReflTransGen (Step (twoCalls c c')) (.init now) s ∧ ¬ LimitExact (twoCalls c c') s) ∧
    ∀ (c c' : SubmitCall) (w w' : ℤ), c.redisKey w = c'.redisKey w' → w = w' := by
  refine ⟨fun s h hunshared => ?_, fun c c' hname hne => shared_not_exact hname hne now, ?_⟩
  · exact limitExact_of_unshared (run_invariant (inv_init now) step_inv h) hm hunshared
  · exact fun c c' w w' h => (redisKey_iff.1 h).2

/-- A limit of one for two submitters: all calls but the third are the first one's. -/
def demoLimiter : Limiter := ⟨1, fun i => if i = 2 then ⟨"bank-key-2", none⟩ else ⟨"bank-key-1", some "127.0.0.1"⟩⟩

/-- Three calls in one window: the second of the first submitter is over the limit, the call of the other
is not. -/
theorem rate_limit_exact_demo : ∃ s x y, ReflTransGen (Step demoLimiter) (.init 59) s ∧
    (bySubmitter demoLimiter ("bank-key-1", some "127.0.0.1") 0 s.increments)[1]? = some x ∧
    (bySubmitter demoLimiter ("bank-key-2", none) 0 s.increments)[0]? = some y ∧
    (s.calls x.call = .crashed ∨ s.calls x.call = .returned (.error (rateLimited 1)) ∨
      Step demoLimiter s (s.setCall x.call (.returned (.error (rateLimited 1))))) ∧
    ∀ e, s.calls y.call ≠ .returned (.error e) := by
  obtain ⟨redis, calls, hrun, -, hidle⟩ := @two_increments demoLimiter le_rfl 59 rfl
  have hrun := (hrun.tail (.start (i := 2) hidle le_rfl)).tail
    (.incr (i := 2) (setCall_self ..))
  have hw : windowOf 59 = 0 := windowOf_eq.2 ⟨by norm_num, by norm_num⟩
  have hsecond : (bySubmitter demoLimiter ("bank-key-1", some "127.0.0.1") 0
      [⟨0, windowOf 59, 59⟩, ⟨1, windowOf 59, 59⟩, ⟨2, windowOf 59, 59⟩])[1]? = some ⟨1, windowOf 59, 59⟩ := by
    rw [hw]
    rfl
  have hother : (bySubmitter demoLimiter ("bank-key-2", none) 0
      [⟨0, windowOf 59, 59⟩, ⟨1, windowOf 59, 59⟩, ⟨2, windowOf 59, 59⟩])[0]? = some ⟨2, windowOf 59, 59⟩ := by
    rw [hw]
    rfl
  have hunshared : ∀ i < 3, ∀ j < 3,
      counterName (demoLimiter.call i).submitter = counterName (demoLimiter.call j).submitter →
        (demoLimiter.call i).submitter = (demoLimiter.call j).submitter := by decide +kernel
  have hexact := (rate_limit_exact demoLimiter le_rfl 59).1 _ hrun ?_
  · exact ⟨_, _, _, hrun, hsecond, hother, hexact.rejected _ 0 1 _ hsecond hw le_rfl,
      hexact.admitted _ 0 0 _ hother hw zero_lt_one⟩
  · have hcalls : ∀ x ∈ [(⟨0, windowOf 59, 59⟩ : Increment), ⟨1, windowOf 59, 59⟩, ⟨2, windowOf 59, 59⟩],
        x.call < 3 := by
      simp
    exact fun x hx y hy _ => hunshared _ (hcalls x hx) _ (hcalls y hy)

/-- **Two submitters on one counter.** With a limit of one, the key `bank` with the source `eu:1.2.3.4`
uses up the limit of the key `bank:eu` with the source `1.2.3.4`. -/
theorem rate_limit_shared : ∃ s,
    ReflTransGen (Step (twoCalls ⟨"bank", some "eu:1.2.3.4"⟩ ⟨"bank:eu", some "1.2.3.4"⟩)) (.init 0) s ∧
      ¬ LimitExact (twoCalls ⟨"bank", some "eu:1.2.3.4"⟩ ⟨"bank:eu", some "1.2.3.4"⟩) s :=
  shared_not_exact (by decide +kernel) (by decide) 0

end RateLimit

end Vellum
