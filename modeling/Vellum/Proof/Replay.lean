import Vellum.Spec.Auth

/-!
# What the nonce guard accepts

A request is fresh for a window on either side of its signed timestamp, but its nonce is kept
for one window from its arrival only. A request signed for the future is still fresh when its
nonce has expired.

* `checkAndStore_ok`: when a call is accepted.
* `not_mem_acceptedCalls`: while its nonce is kept, a triple is not accepted again.
* `accepted_once_iff`: the calls under which no triple is accepted twice.
-/

namespace Vellum

variable {window : ℤ} {redis : KeyStore ℚ} {c c' : NonceCall} {calls : List NonceCall}

/-! ## One call -/

/-- **What a call does**: it is stale, or its nonce is taken, or it takes its nonce. -/
theorem checkAndStore_cases (window : ℤ) (redis : KeyStore ℚ) (c : NonceCall) :
    (c.fresh window = false ∧ ∃ e, checkAndStore window redis c = (.error e, redis)) ∨
    (c.fresh window = true ∧ redis.get c.now c.redisKey ≠ none ∧
      ∃ e, checkAndStore window redis c = (.error e, redis)) ∨
    (c.fresh window = true ∧ redis.get c.now c.redisKey = none ∧
      checkAndStore window redis c =
        (.ok (), ⟨Function.update redis.entry c.redisKey (some (c.timestamp, c.now + window))⟩)) := by
  unfold checkAndStore KeyStore.setNx
  by_cases hf : c.fresh window = true
  · rw [if_neg (not_not.2 hf)]
    cases hget : redis.get c.now c.redisKey with
    | none => exact .inr (.inr ⟨hf, rfl, rfl⟩)
    | some v => exact .inr (.inl ⟨hf, Option.some_ne_none v, _, rfl⟩)
  · rw [if_pos hf]
    exact .inl ⟨Bool.eq_false_iff.2 hf, _, rfl⟩

/-- **A call is accepted** iff it is fresh and its nonce is free. -/
theorem checkAndStore_ok : (checkAndStore window redis c).1.isOk = true ↔
    c.fresh window = true ∧ redis.get c.now c.redisKey = none := by
  obtain ⟨hf, e, h⟩ | ⟨hf, hget, e, h⟩ | ⟨hf, hget, h⟩ := checkAndStore_cases window redis c
  · rw [h, hf]
    simp [Except.isOk, Except.toBool]
  · rw [h]
    simp [Except.isOk, Except.toBool, hget]
  · rw [h]
    simp [Except.isOk, Except.toBool, hf, hget]

/-- An accepted call takes its nonce for one window. -/
theorem checkAndStore_reserved (h : (checkAndStore window redis c).1.isOk = true) :
    (checkAndStore window redis c).2.Reserved c.redisKey (c.now + window) := by
  obtain ⟨hf, hget⟩ := checkAndStore_ok.1 h
  obtain ⟨hf', -⟩ | ⟨-, hget', -⟩ | ⟨-, -, heq⟩ := checkAndStore_cases window redis c
  · rw [hf] at hf'
    cases hf'
  · exact absurd hget hget'
  · rw [heq]
    exact ⟨_, _, Function.update_self .., le_rfl⟩

/-- No call frees a nonce. -/
theorem reserved_checkAndStore {key : String} {t : ℚ} (h : redis.Reserved key t) (hle : t ≤ c.now + window) :
    (checkAndStore window redis c).2.Reserved key t := by
  unfold checkAndStore
  by_cases hf : c.fresh window = true
  · rw [if_neg (not_not.2 hf)]
    have hset := @KeyStore.reserved_setNx ℚ redis key c.redisKey c.now window t c.timestamp h hle
    dsimp only
    split_ifs
    · exact hset
    · exact hset
  · rw [if_pos hf]
    exact h

/-- The calls accepted of a sequence, by what happens to the first. -/
theorem acceptedCalls_cons : acceptedCalls window redis (c :: calls) =
    (if (checkAndStore window redis c).1.isOk = true then [c] else []) ++
      acceptedCalls window (checkAndStore window redis c).2 calls := by
  rw [acceptedCalls]
  rcases checkAndStore window redis c with ⟨_ | ⟨⟩, r⟩
  · rfl
  · rfl

/-! ## A sequence of calls -/

/-- A later call with the same triple arrives before the nonce of the earlier one expires. -/
def CoveredBy (window : ℤ) (c c' : NonceCall) : Prop :=
  c.triple = c'.triple → c.fresh window = true → c'.fresh window = true → c'.now < c.now + window

/-- **While its nonce is kept a triple is not accepted again.** By induction on the calls; what
is kept is that the nonce stays taken until one window after the first acceptance. -/
theorem not_mem_acceptedCalls (hfresh : c.fresh window = true) (hres : redis.Reserved c.redisKey (c.now + window))
    (hnow : ∀ d ∈ calls, c.now ≤ d.now) (hcov : ∀ d ∈ calls, CoveredBy window c d) :
    c.triple ∉ (acceptedCalls window redis calls).map NonceCall.triple := by
  induction calls generalizing redis with
  | nil => simp [acceptedCalls]
  | cons d calls ih =>
    have hd : c.now ≤ d.now := hnow d (List.mem_cons_self ..)
    have hrest := @ih (checkAndStore window redis d).2 (reserved_checkAndStore hres (by linarith))
      (fun e he => hnow e (List.mem_cons_of_mem _ he)) (fun e he => hcov e (List.mem_cons_of_mem _ he))
    rw [acceptedCalls_cons, List.map_append, List.mem_append]
    rintro (hmem | hmem)
    · split_ifs at hmem with hok
      · -- the call at hand would be the second acceptance, but it finds the nonce taken
        have htriple : c.triple = d.triple := by simpa using hmem
        obtain ⟨hfd, hget⟩ := checkAndStore_ok.1 hok
        have hlt := hcov d (List.mem_cons_self ..) htriple hfresh hfd
        have hkey : d.redisKey = c.redisKey := by
          simp only [NonceCall.triple, Prod.mk.injEq] at htriple
          simp only [NonceCall.redisKey, htriple.1, htriple.2.1]
        rw [hkey] at hget
        exact KeyStore.get_ne_none_of_reserved hres hlt hget
      · simp at hmem
    · exact hrest hmem

/-- Covered calls are accepted once each, from any store. -/
theorem acceptedCalls_nodup (htime : calls.Pairwise fun c d => c.now ≤ d.now)
    (hcov : calls.Pairwise (CoveredBy window)) :
    ((acceptedCalls window redis calls).map NonceCall.triple).Nodup := by
  induction calls generalizing redis with
  | nil => simp [acceptedCalls]
  | cons c calls ih =>
    obtain ⟨hnow, htime⟩ := List.pairwise_cons.1 htime
    obtain ⟨hc, hcov⟩ := List.pairwise_cons.1 hcov
    have hrest := @ih (checkAndStore window redis c).2 htime hcov
    rw [acceptedCalls_cons, List.map_append]
    split_ifs with hok
    · rw [List.map_singleton, List.singleton_append, List.nodup_cons]
      refine ⟨?_, hrest⟩
      exact not_mem_acceptedCalls (checkAndStore_ok.1 hok).1 (checkAndStore_reserved hok) hnow hc
    · exact hrest

/-- Two fresh calls with the same triple are both accepted if the second comes a window later. -/
theorem acceptedCalls_pair (htriple : c.triple = c'.triple) (hf : c.fresh window = true)
    (hf' : c'.fresh window = true) (hlate : c.now + window ≤ c'.now) :
    acceptedCalls window .empty [c, c'] = [c, c'] := by
  have hok : (checkAndStore window .empty c).1.isOk = true := checkAndStore_ok.2 ⟨hf, KeyStore.get_empty⟩
  have hkey : c'.redisKey = c.redisKey := by
    simp only [NonceCall.triple, Prod.mk.injEq] at htriple
    simp only [NonceCall.redisKey, htriple.1, htriple.2.1]
  have hexpired : (checkAndStore window .empty c).2.get c'.now c'.redisKey = none := by
    unfold checkAndStore KeyStore.setNx
    rw [if_neg (not_not.2 hf), KeyStore.get_empty, hkey]
    simp only [KeyStore.get, not_true_eq_false, if_false, Function.update_self, if_neg (not_lt.2 hlate)]
  have hok' := checkAndStore_ok.2 ⟨hf', hexpired⟩
  rw [acceptedCalls_cons, if_pos hok, acceptedCalls_cons, if_pos hok']
  rfl

/-- **When a signed request is accepted at most once.** Whichever of the calls reach the guard,
no triple is accepted twice, iff no triple arrives again a window or more after an earlier
arrival with both within the window of its timestamp. -/
theorem accepted_once_iff (htime : calls.Pairwise fun c d => c.now ≤ d.now) :
    (∀ calls', calls'.Sublist calls → AcceptedOnce window calls') ↔ calls.Pairwise (CoveredBy window) := by
  constructor
  · intro h
    rw [List.pairwise_iff_forall_sublist]
    intro c c' hsub htriple hf hf'
    by_contra hlate
    have honce := h _ hsub
    unfold AcceptedOnce at honce
    rw [acceptedCalls_pair htriple hf hf' (not_lt.1 hlate)] at honce
    simp [htriple] at honce
  · intro h calls' hsub
    exact acceptedCalls_nodup (htime.sublist hsub) (h.sublist hsub)

/-- A request signed 200 seconds ahead, under a window of 300 seconds, that arrives again 400
seconds later. -/
def aheadCalls : List NonceCall := [⟨"bank-key-1", "n-1", 1200, 1000⟩, ⟨"bank-key-1", "n-1", 1200, 1400⟩]

/-- The guard accepts it both times. -/
theorem ahead_accepted_twice : acceptedCalls 300 .empty aheadCalls = aheadCalls ∧ ¬ AcceptedOnce 300 aheadCalls := by
  have h : acceptedCalls 300 .empty aheadCalls = aheadCalls :=
    acceptedCalls_pair rfl (by decide +kernel) (by decide +kernel) (by norm_num)
  refine ⟨h, ?_⟩
  unfold AcceptedOnce
  rw [h]
  decide +kernel

/-- The same request a hundred seconds later is a replay. -/
theorem accepted_once_iff_prompt :
    AcceptedOnce 300 [⟨"bank-key-1", "n-1", 1200, 1000⟩, ⟨"bank-key-1", "n-1", 1200, 1100⟩] := by
  have htime : [(⟨"bank-key-1", "n-1", 1200, 1000⟩ : NonceCall), ⟨"bank-key-1", "n-1", 1200, 1100⟩].Pairwise
      fun c d => c.now ≤ d.now := by simp; norm_num
  refine (accepted_once_iff htime).2 ?_ _ (List.Sublist.refl _)
  simp [CoveredBy]
  norm_num

end Vellum
