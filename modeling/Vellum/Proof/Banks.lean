import Vellum.Proof.Replay

/-!
# Banks that share the guards

The guards keep their state under Redis keys that start with the key id of the bank and a colon,
and a key id may hold colons itself. Two banks share keys iff one key id is the other with a colon
and more behind it.

* `joined_eq`: when two texts joined by a colon can be the same.
* `disjoint_redisKeys`: requests of banks of which neither extends the other share no key.
* `submitGuards_local`: a request reads and writes its own two keys only.
* `not_independent_of_extends`: a bank uses up a nonce of a bank that extends it.
* `banksIndependent_iff`: the mappings whose banks do not interfere.
-/

namespace Vellum

open KeyStore

variable {window maxPerMinute : ℤ} {r : SubmitRequest} {redis : KeyStore ℚ}

/-! ## The keys -/

/-- A key id that goes on after another one and a colon. -/
def Extends (a b : String) : Prop := ∃ rest, b = a ++ ":" ++ rest

/-- Two joined texts are the same only if their first parts are, or one extends the other. -/
theorem joined_eq {a b rest rest' : String} (h : a ++ ":" ++ rest = b ++ ":" ++ rest') :
    a = b ∨ Extends a b ∨ Extends b a := by
  have hl : a.toList ++ ':' :: rest.toList = b.toList ++ ':' :: rest'.toList := by
    simpa using congrArg String.toList h
  have hext : ∀ {c d : String} {l : List Char}, d.toList = c.toList ++ ':' :: l → Extends c d := by
    intro c d l hd
    exact ⟨String.ofList l, String.toList_inj.1 (by simpa using hd)⟩
  rcases List.append_eq_append_iff.1 hl with ⟨l, hb, hrest⟩ | ⟨l, ha, hrest⟩
  · cases l with
    | nil => exact .inl (String.toList_inj.1 (by simpa using hb.symm))
    | cons c l =>
      obtain ⟨rfl, -⟩ := List.cons.inj hrest
      exact .inr (.inl (hext hb))
  · cases l with
    | nil => exact .inl (String.toList_inj.1 (by simpa using ha))
    | cons c l =>
      obtain ⟨rfl, -⟩ := List.cons.inj hrest
      exact .inr (.inr (hext ha))

/-- The keys a request reads and writes. -/
def SubmitRequest.redisKeys (r : SubmitRequest) : Set String := {r.call.redisKey, r.rateKey}

theorem redisKey_ne_rateKey (c : NonceCall) (r : SubmitRequest) : c.redisKey ≠ r.rateKey := by
  intro h
  -- neither of the two constant beginnings is a beginning of the other
  have hnonce : "vellum:nonce:".toList <+: c.redisKey.toList := by
    unfold NonceCall.redisKey
    simp only [String.toList_append, List.append_assoc]
    exact List.prefix_append _ _
  have hrate : "vellum:ratelimit:submit:".toList <+: c.redisKey.toList := by
    rw [h]
    unfold SubmitRequest.rateKey
    simp only [String.toList_append, List.append_assoc]
    exact List.prefix_append _ _
  have hor := List.prefix_or_prefix_of_prefix hnonce hrate
  exact absurd hor (by decide)

/-- **Banks share no key** unless one key id extends the other. -/
theorem disjoint_redisKeys {r r' : SubmitRequest} (hne : r.call.keyId ≠ r'.call.keyId)
    (hext : ¬ Extends r.call.keyId r'.call.keyId) (hext' : ¬ Extends r'.call.keyId r.call.keyId) :
    Disjoint r.redisKeys r'.redisKeys := by
  have hjoin : ∀ {rest rest' : String}, r.call.keyId ++ ":" ++ rest ≠ r'.call.keyId ++ ":" ++ rest' := by
    intro rest rest' h
    rcases joined_eq h with h | h | h
    · exact hne h
    · exact hext h
    · exact hext' h
  rw [Set.disjoint_left]
  rintro key (hr | hr) (hr' | hr')
  · have h : r.call.redisKey = r'.call.redisKey := hr.symm.trans hr'
    unfold NonceCall.redisKey at h
    simp only [String.append_assoc, String.append_right_inj] at h hjoin
    exact hjoin h
  · exact redisKey_ne_rateKey _ _ (hr.symm.trans hr')
  · exact redisKey_ne_rateKey _ _ (hr'.symm.trans hr)
  · have h : r.rateKey = r'.rateKey := hr.symm.trans hr'
    unfold SubmitRequest.rateKey at h
    simp only [String.append_assoc, String.append_right_inj] at h hjoin
    exact hjoin h

/-! ## A request touches its own keys only -/

theorem checkAndStore_local (window : ℤ) (c : NonceCall) :
    LocalTo {c.redisKey} fun redis => checkAndStore window redis c := by
  -- what follows the `SET`, by its answer
  let f : Bool → KeyStore ℚ → Except APIError Unit × KeyStore ℚ := fun stored redis =>
    if ¬ stored = true then
      (.error ⟨409, "nonce_replay", "Replay detected for nonce", [("nonce", .str c.nonce)]⟩, redis)
    else (.ok (), redis)
  have hf : ∀ stored, LocalTo {c.redisKey} (f stored) := by
    intro stored
    cases stored with
    | true => exact .const _
    | false => exact .const _
  unfold checkAndStore
  by_cases hfresh : c.fresh window = true
  · simp only [hfresh, not_true_eq_false, if_false]
    exact (setNx_local c.now c.redisKey c.timestamp window).bind hf
  · simp only [hfresh]
    exact .const _

theorem rateLimiter_local (maxPerMinute : ℤ) (r : SubmitRequest) :
    LocalTo {r.rateKey} fun redis => RedisSubmitRateLimiter.checkAndStore maxPerMinute redis r := by
  -- what follows the `INCR`, by the count
  let f : ℚ → KeyStore ℚ → Except APIError Unit × KeyStore ℚ := fun count redis =>
    if count > maxPerMinute then
      (.error ⟨429, "rate_limited", "Submit rate limit exceeded", [("limit_per_minute", .int maxPerMinute)]⟩, redis)
    else (.ok (), redis)
  have hf : ∀ count, LocalTo {r.rateKey} (f count) := by
    intro count
    by_cases hcount : count > maxPerMinute
    · simp only [f, hcount, if_true]
      exact .const _
    · simp only [f, hcount, if_false]
      exact .const _
  unfold RedisSubmitRateLimiter.checkAndStore
  by_cases hmax : maxPerMinute < 1
  · simp only [hmax, if_true]
    exact .const _
  · simp only [hmax, if_false]
    exact (incrEx_local r.call.now r.rateKey 61).bind hf

theorem rateAfterNonce_local (maxPerMinute : ℤ) (r : SubmitRequest) (answer : Except APIError Unit) :
    LocalTo r.redisKeys (rateAfterNonce maxPerMinute r answer) := by
  cases answer with
  | error e => exact .const _
  | ok u =>
    have hrate := (rateLimiter_local maxPerMinute r).mono (P := r.redisKeys) (by simp [SubmitRequest.redisKeys])
    exact hrate.bind (f := fun answer redis => (answer.mapError GuardError.api, redis)) fun _ => .const _

/-- **A request reads and writes its own two keys only.** -/
theorem submitGuards_local (window maxPerMinute : ℤ) (r : SubmitRequest) :
    LocalTo r.redisKeys (submitGuards window maxPerMinute r) := by
  have hnonce := (checkAndStore_local window r.call).mono (P := r.redisKeys) (by simp [SubmitRequest.redisKeys])
  have hboth := hnonce.bind (rateAfterNonce_local maxPerMinute r)
  by_cases hredis : r.call.fresh window = true ∧ window < 1
  · have heq : submitGuards window maxPerMinute r =
        fun redis => (.error (.redis "invalid expire time in 'set' command"), redis) :=
      funext fun _ => if_pos hredis
    rw [heq]
    exact .const _
  · have heq : submitGuards window maxPerMinute r = fun redis =>
        rateAfterNonce maxPerMinute r (checkAndStore window redis r.call).1 (checkAndStore window redis r.call).2 :=
      funext fun _ => if_neg hredis
    rw [heq]
    exact hboth

/-! ## When a request passes -/

theorem submitGuards_eq (hwindow : 1 ≤ window) : submitGuards window maxPerMinute r redis =
    rateAfterNonce maxPerMinute r (checkAndStore window redis r.call).1 (checkAndStore window redis r.call).2 :=
  if_neg fun h => absurd h.2 (by omega)

/-- A request passes both guards or is stopped by one. -/
theorem submitGuards_ok (hwindow : 1 ≤ window) : (submitGuards window maxPerMinute r redis).1.isOk = true ↔
    (checkAndStore window redis r.call).1.isOk = true ∧
      (RedisSubmitRateLimiter.checkAndStore maxPerMinute (checkAndStore window redis r.call).2 r).1.isOk = true := by
  rw [submitGuards_eq hwindow]
  rcases checkAndStore window redis r.call with ⟨_ | ⟨⟩, redis'⟩
  · simp [rateAfterNonce, Except.isOk, Except.toBool]
  · change ((RedisSubmitRateLimiter.checkAndStore maxPerMinute redis' r).1.mapError GuardError.api).isOk = true ↔ _
    rcases (RedisSubmitRateLimiter.checkAndStore maxPerMinute redis' r).1 with _ | ⟨⟩
    · simp [Except.isOk, Except.toBool, Except.mapError]
    · simp [Except.isOk, Except.toBool, Except.mapError]

/-- The first request of a minute is within the rate. -/
theorem rateLimiter_first (h : redis.get r.call.now r.rateKey = none) :
    (RedisSubmitRateLimiter.checkAndStore maxPerMinute redis r).1.isOk = true := by
  unfold RedisSubmitRateLimiter.checkAndStore
  by_cases hmax : maxPerMinute < 1
  · rw [if_pos hmax]
    rfl
  · have hcount : ¬ (1 : ℚ) > maxPerMinute := by
      have hle : (1 : ℤ) ≤ maxPerMinute := by omega
      exact not_lt.2 (by exact_mod_cast hle)
    rw [if_neg hmax]
    simp only [incrEx, h, if_neg hcount]
    rfl

/-- With a window of less than a second no request passes. -/
theorem not_passesGuards (hwindow : window < 1) (history : List SubmitRequest) (r : SubmitRequest) :
    passesGuards window maxPerMinute history r = false := by
  unfold passesGuards submitGuards
  by_cases hf : r.call.fresh window = true
  · rw [if_pos ⟨hf, hwindow⟩]
    rfl
  · rw [if_neg fun h => hf h.1]
    unfold checkAndStore
    simp only [hf]
    rfl

/-- A request with the clock and the timestamp at zero, from no known address. -/
def requestAtZero (keyId nonce : String) : SubmitRequest := ⟨⟨keyId, nonce, 0, 0⟩, none, none⟩

theorem fresh_requestAtZero (hwindow : 1 ≤ window) (keyId nonce : String) :
    (requestAtZero keyId nonce).call.fresh window = true := by
  have hpos : 0 ≤ window := by omega
  simp [requestAtZero, NonceCall.fresh, hpos]

/-- A first request passes. -/
theorem passesGuards_first (hwindow : 1 ≤ window) (keyId nonce : String) :
    passesGuards window maxPerMinute [] (requestAtZero keyId nonce) = true := by
  have hnonce : (checkAndStore window .empty (requestAtZero keyId nonce).call).1.isOk = true :=
    checkAndStore_ok.2 ⟨fresh_requestAtZero hwindow keyId nonce, get_empty⟩
  refine (submitGuards_ok hwindow).2 ⟨hnonce, rateLimiter_first ?_⟩
  -- the nonce is kept under another key than the count
  have hframe := (checkAndStore_local window (requestAtZero keyId nonce).call).frame .empty
    (requestAtZero keyId nonce).rateKey fun h => redisKey_ne_rateKey _ _ (Set.mem_singleton_iff.1 h).symm
  unfold KeyStore.get
  rw [show (after _ empty []) = (empty : KeyStore ℚ) from rfl, hframe]
  rfl

/-- A request does not pass after one with the same nonce key. -/
theorem not_passesGuards_taken (hwindow : 1 ≤ window) {x r : SubmitRequest} (hfresh : x.call.fresh window = true)
    (hkey : r.call.redisKey = x.call.redisKey) (hnow : r.call.now = x.call.now) :
    passesGuards window maxPerMinute [x] r = false := by
  have hok : (checkAndStore window .empty x.call).1.isOk = true := checkAndStore_ok.2 ⟨hfresh, get_empty⟩
  have hres := checkAndStore_reserved hok
  -- the count of the first request is kept under another key than its nonce
  have hentry : (submitGuards window maxPerMinute x .empty).2.entry x.call.redisKey =
      (checkAndStore window .empty x.call).2.entry x.call.redisKey := by
    rw [submitGuards_eq hwindow]
    rcases (checkAndStore window .empty x.call).1 with _ | ⟨⟩
    · rfl
    · exact (rateLimiter_local maxPerMinute x).frame _ _ fun h =>
        redisKey_ne_rateKey _ _ (Set.mem_singleton_iff.1 h)
  have htaken : (submitGuards window maxPerMinute x .empty).2.Reserved r.call.redisKey (x.call.now + window) := by
    unfold Reserved at hres ⊢
    rw [hkey, hentry]
    exact hres
  have hlt : r.call.now < x.call.now + window := by
    have hpos : (1 : ℚ) ≤ window := by exact_mod_cast hwindow
    linarith
  rw [Bool.eq_false_iff]
  intro hpass
  have hfree := (checkAndStore_ok.1 ((submitGuards_ok hwindow).1 hpass).1).2
  exact get_ne_none_of_reserved htaken hlt hfree

/-! ## Which banks interfere -/

/-- No key id of the mapping extends another one that is not empty. -/
def NoExtension (bankKeyMapping : List (String × String)) : Prop :=
  ∀ a ∈ bankKeyMapping.map Prod.fst, a ≠ "" → ∀ b ∈ bankKeyMapping.map Prod.fst, ¬ Extends a b

/-- Banks that do not extend each other do not interfere. -/
theorem independent_of_noExtension {bankKeyMapping : List (String × String)} (h : NoExtension bankKeyMapping) :
    BanksIndependent window maxPerMinute bankKeyMapping := by
  intro a ha b hb hab history hhistory r hr hrb
  unfold passesGuards
  rw [answer_filter (submitGuards_local window maxPerMinute) r]
  intro x hx hxa y hy
  have hxa' : x.call.keyId = a := by simpa using hxa
  have hy' : y.HasHeaders ∧ y.call.keyId ∈ bankKeyMapping.map Prod.fst ∧ y.call.keyId ≠ a := by
    rcases List.mem_cons.1 hy with rfl | hy
    · exact ⟨hr, hrb ▸ hb, hrb ▸ hab.symm⟩
    · obtain ⟨hmem, hne⟩ := List.mem_filter.1 hy
      exact ⟨(hhistory y hmem).1, (hhistory y hmem).2, by simpa using hne⟩
  obtain ⟨hheaders, hmem, hne⟩ := hy'
  obtain ⟨hxheaders, hxmem⟩ := hhistory x hx
  refine disjoint_redisKeys (hxa' ▸ hne.symm) ?_ ?_
  · exact h _ hxmem hxheaders.1 _ hmem
  · exact h _ hmem hheaders.1 _ hxmem

/-- **A bank uses up a nonce of a bank that extends it.** -/
theorem not_independent_of_extends (hwindow : 1 ≤ window) {bankKeyMapping : List (String × String)} {a b : String}
    (ha : a ∈ bankKeyMapping.map Prod.fst) (hb : b ∈ bankKeyMapping.map Prod.fst) (hne : a ≠ "")
    (hext : Extends a b) : ¬ BanksIndependent window maxPerMinute bankKeyMapping := by
  obtain ⟨rest, hb'⟩ := hext
  intro hind
  have hab : a ≠ b := by
    intro h
    have hlen := congrArg (fun s => s.toList.length) (h.trans hb')
    simp at hlen
  have hbne : b ≠ "" := by
    intro h
    have hlen := congrArg (fun s => s.toList.length) (h.symm.trans hb')
    simp at hlen
  -- the nonce `rest:0` of the one is the nonce `0` of the other
  have hpair := hind a ha b hb hab [requestAtZero a (rest ++ ":" ++ "0")]
    (by
      intro r hr
      rw [List.mem_singleton.1 hr]
      exact ⟨⟨hne, by simp [requestAtZero]⟩, ha⟩)
    (requestAtZero b "0") ⟨hbne, by simp [requestAtZero]⟩ rfl
  have hkey : (requestAtZero b "0").call.redisKey = (requestAtZero a (rest ++ ":" ++ "0")).call.redisKey := by
    simp only [requestAtZero, NonceCall.redisKey, hb', String.append_assoc]
  rw [not_passesGuards_taken hwindow (fresh_requestAtZero hwindow _ _) hkey rfl] at hpair
  have hfilter : [requestAtZero a (rest ++ ":" ++ "0")].filter (fun h => h.call.keyId ≠ a) = [] := by
    simp [requestAtZero]
  rw [hfilter, passesGuards_first hwindow] at hpair
  cases hpair

/-- **When the banks of a mapping do not interfere**: no request passes at all, or no key id is
another one with a colon and more behind it. -/
theorem banksIndependent_iff (window maxPerMinute : ℤ) (bankKeyMapping : List (String × String)) :
    BanksIndependent window maxPerMinute bankKeyMapping ↔ window < 1 ∨ NoExtension bankKeyMapping := by
  constructor
  · intro hind
    by_cases hwindow : window < 1
    · exact .inl hwindow
    · refine .inr fun a ha hne b hb hext => ?_
      exact not_independent_of_extends (by omega) ha hb hne hext hind
  · rintro (hwindow | hno)
    · intro a _ b _ _ history _ r _ _
      rw [not_passesGuards hwindow, not_passesGuards hwindow]
    · exact independent_of_noExtension hno

/-- The bank `bank` with the nonce `eu:0` takes the nonce `0` of the bank `bank:eu`. -/
theorem banks_interfere : ¬ BanksIndependent 300 30 [("bank", "vellum-bank"), ("bank:eu", "vellum-bank-eu")] :=
  not_independent_of_extends (by decide) (List.mem_cons_self ..) (List.mem_cons_of_mem _ (List.mem_cons_self ..))
    (by decide) ⟨"eu", rfl⟩

end Vellum
