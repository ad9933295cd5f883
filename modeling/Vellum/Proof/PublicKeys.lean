import Vellum.Lib.JsonText
import Vellum.Lib.Run
import Vellum.Spec.PublicKeys

/-!
# The cache of public keys shows Vault's keys

Every map in the cache is one that Vault listed at some moment, and it expires within the time to
live of that moment. A version that the map lacks is looked for in Vault itself, but an empty map
is taken at its word: until it expires, no key of the name is found.

* `latestKey_ok`: the greatest version has a key.
* `step_inv`: what a step keeps.
* `lookups_correct`: where no call begins on an empty map that Vault has outgrown, nor for a name
  that Vault does not have, every call answers as Vault would.
-/

namespace Vellum

namespace PublicKeys

open Relation

variable {L : KeyLookups} {s s' : State} {i : ℕ} {versions : Dict String} {start finish m : Moment} {round : Round}

/-! ## What is to hold of a call -/

/-- The key of the greatest version. -/
def Latest (versions : Dict String) (publicKey : String) : Prop :=
  ∃ n : ℕ, versions.get? n.repr = some publicKey ∧ ∀ n' : ℕ, n'.repr ∈ versions.keys → n' ≤ n

def IsValueError (e : LookupError) : Prop := ∃ text, e = .value text

/-- **The answer of a call**: for a version, Vault's key for it, and a `ValueError` only if Vault did
not have it; without one, the key of the greatest version at a moment within the time to live. -/
def Correct (ttlSeconds : ℚ) (past : List Moment) (l : Lookup) (start finish : Moment) :
    Except LookupError String → Prop
  | .ok publicKey => match l.keyVersion with
    | some keyVersion => (finish.vault.listed l.keyName).get? keyVersion = some publicKey
    | none => ∃ m ∈ past, start.time - max ttlSeconds 0 ≤ m.time ∧ m.time ≤ finish.time ∧
        Latest (m.vault.listed l.keyName) publicKey
  | .error e => IsValueError e ∧ match l.keyVersion with
    | some keyVersion => (start.vault.listed l.keyName).get? keyVersion = none
    | none => (start.vault.listed l.keyName).items = []

/-- Vault has the name, and the cache holds no empty map for it that Vault has outgrown. -/
structure StartFine (s : State) (keyName : String) : Prop where
  known : s.vault keyName ≠ none
  fresh : ∀ versions, s.cached keyName = some versions → versions.items = [] → (s.vault.listed keyName).items = []

/-- The condition on a step: on the state in which a call begins, and on the numerals in Vault,
which `int` reads up to a length. -/
structure Fine (L : KeyLookups) (s s' : State) : Prop where
  start : ∀ i, s.calls i = .idle → s'.calls i ≠ .idle → StartFine s (L.call i).keyName
  digits : ∀ keyName, ∀ version ∈ (s'.vault.listed keyName).keys, version.toList.length ≤ maxStrDigits

/-! ## The greatest version -/

/-- Numerals that `int` reads. -/
def Readable (versions : Dict String) : Prop :=
  ∀ version ∈ versions.keys, Canonical version ∧ version.toList.length ≤ maxStrDigits

theorem mapM_pyInt {keys : List String}
    (h : ∀ version ∈ keys, Canonical version ∧ version.toList.length ≤ maxStrDigits) :
    ∃ ns : List ℕ, keys = ns.map Nat.repr ∧ keys.mapM pyInt? = some (ns.map Int.ofNat) := by
  induction keys with
  | nil => exact ⟨[], rfl, rfl⟩
  | cons key keys ih =>
    obtain ⟨ns, hns, hmap⟩ := ih fun version hmem => h version (List.mem_cons_of_mem _ hmem)
    obtain ⟨⟨n, hn⟩, hlen⟩ := h key (List.mem_cons_self ..)
    have hlt : n < 10 ^ maxStrDigits := by
      rw [hn, Nat.toList_repr, Nat.length_toDigits_le_iff (by decide) (by decide)] at hlen
      exact hlen
    have hread : pyInt? key = some (n : ℤ) := by
      rw [hn]
      exact pyInt?_repr hlt
    refine ⟨n :: ns, by rw [List.map_cons, hns, hn], ?_⟩
    rw [List.mapM_cons, hread, hmap]
    rfl

/-- **The greatest version has a key.** -/
theorem latestKey_ok (h : Readable versions) (hne : versions.items ≠ []) :
    ∃ publicKey, latestKey versions = .ok publicKey ∧ Latest versions publicKey := by
  obtain ⟨ns, hns, hmap⟩ := mapM_pyInt h
  have hne' : ns.map Int.ofNat ≠ [] := by
    intro hnil
    rw [List.map_eq_nil_iff] at hnil
    rw [hnil] at hns
    exact hne (List.map_eq_nil_iff.1 hns)
  obtain ⟨z, hz⟩ : ∃ z, (ns.map Int.ofNat).max? = some z := by
    cases hmax : (ns.map Int.ofNat).max? with
    | none => exact absurd (List.max?_eq_none_iff.1 hmax) hne'
    | some z => exact ⟨z, rfl⟩
  obtain ⟨hmem, hle⟩ := List.max?_eq_some_iff.1 hz
  obtain ⟨n, hn, rfl⟩ := List.mem_map.1 hmem
  have hrepr : (Int.ofNat n).repr = n.repr := rfl
  have hkey : n.repr ∈ versions.keys := by
    rw [hns]
    exact List.mem_map_of_mem hn
  obtain ⟨p, hp, hpn⟩ := List.mem_map.1 hkey
  have hget : versions.get? n.repr = some p.2 := by
    rw [← hpn]
    exact Dict.get?_of_mem hp
  refine ⟨p.2, ?_, n, hget, ?_⟩
  · unfold latestKey
    simp only [hmap, hz, hrepr, hget]
  · intro n' hn'
    rw [hns] at hn'
    obtain ⟨n'', hmem', heq⟩ := List.mem_map.1 hn'
    have hint : (n'' : ℤ) = (n' : ℤ) := Json.int_repr_inj (congrArg String.toList heq)
    rw [Int.ofNat_inj.1 hint] at hmem'
    exact Int.ofNat_le.1 (hle _ (List.mem_map_of_mem hmem'))

/-! ## What a run keeps -/

/-- One moment is no later than another, and what Vault had it still has. -/
structure Before (m m' : Moment) : Prop where
  time : m.time ≤ m'.time
  names : ∀ keyName, m.vault keyName ≠ none → m'.vault keyName ≠ none
  keeps : ∀ keyName version publicKey, (m.vault.listed keyName).get? version = some publicKey →
    (m'.vault.listed keyName).get? version = some publicKey

theorem Before.refl (m : Moment) : Before m m := ⟨le_rfl, fun _ h => h, fun _ _ _ h => h⟩

theorem Before.trans {m₁ m₂ m₃ : Moment} (h₁ : Before m₁ m₂) (h₂ : Before m₂ m₃) : Before m₁ m₃ :=
  ⟨h₁.time.trans h₂.time, fun k h => h₂.names k (h₁.names k h), fun k v p h => h₂.keeps k v p (h₁.keeps k v p h)⟩

/-- What Vault does not list later it did not list earlier. -/
theorem Before.empty {m m' : Moment} (h : Before m m') {keyName : String}
    (hempty : (m'.vault.listed keyName).items = []) : (m.vault.listed keyName).items = [] := by
  rw [List.eq_nil_iff_forall_not_mem]
  intro p hp
  have hget := h.keeps keyName p.1 p.2 (Dict.get?_of_mem hp)
  rw [Dict.get?, hempty] at hget
  cases hget

/-- A call in its second round asked for that version. -/
def RoundOk (l : Lookup) : Round → Prop
  | .first => True
  | .again keyVersion => l.keyVersion = some keyVersion

/-- What is known of a call. -/
def CallOk (ttlSeconds : ℚ) (s : State) (l : Lookup) : LookupPhase → Prop
  | .idle => True
  | .loading round now start => RoundOk l round ∧ start ∈ s.past ∧ start.vault l.keyName ≠ none ∧
      start.time ≤ now ∧ now ≤ s.now
  | .loaded round now versions start => RoundOk l round ∧ start ∈ s.past ∧ start.vault l.keyName ≠ none ∧
      start.time ≤ now ∧ ∃ m ∈ s.past, Before start m ∧ now ≤ m.time ∧ m.vault.listed l.keyName = versions
  | .returned answer start finish => Correct ttlSeconds s.past l start finish answer

/-- **The invariant.** -/
structure Inv (L : KeyLookups) (s : State) : Prop where
  present : s.moment ∈ s.past
  past : ∀ m ∈ s.past, Before m s.moment
  readable : ∀ m ∈ s.past, ∀ keyName, Readable (m.vault.listed keyName)
  cache : ∀ keyName expiresAt versions, s.cache keyName = some (expiresAt, versions) →
    ∃ m ∈ s.past, m.vault.listed keyName = versions ∧ expiresAt ≤ m.time + L.ttlSeconds
  calls : ∀ i, CallOk L.ttlSeconds s (L.call i) (s.calls i)

theorem inv_init (now : ℚ) : Inv L (.init now) := by
  have hlisted (keyName : String) : Vault.listed (fun _ => none) keyName = .empty := rfl
  constructor
  · exact List.mem_singleton_self _
  · intro m hm
    rw [List.mem_singleton.1 hm]
    exact .refl _
  · intro m hm keyName version hversion
    rw [List.mem_singleton.1 hm, hlisted] at hversion
    cases hversion
  · intro keyName expiresAt versions h
    cases h
  · intro i
    trivial

theorem Correct.mono {ttlSeconds : ℚ} {past past' : List Moment} {l : Lookup} {answer : Except LookupError String}
    (h : Correct ttlSeconds past l start finish answer) (hsub : past ⊆ past') :
    Correct ttlSeconds past' l start finish answer := by
  cases answer with
  | error e => exact h
  | ok publicKey =>
    unfold Correct at h ⊢
    cases hversion : l.keyVersion with
    | some keyVersion =>
      rw [hversion] at h
      exact h
    | none =>
      rw [hversion] at h
      obtain ⟨m, hm, hrest⟩ := h
      exact ⟨m, hsub hm, hrest⟩

theorem CallOk.mono {ttlSeconds : ℚ} {l : Lookup} {p : LookupPhase} (h : CallOk ttlSeconds s l p)
    (hsub : s.past ⊆ s'.past) (hnow : s.now ≤ s'.now) : CallOk ttlSeconds s' l p := by
  cases p with
  | idle => trivial
  | loading round now start =>
    obtain ⟨hround, hstart, hknown, hle, hle'⟩ := h
    exact ⟨hround, hsub hstart, hknown, hle, hle'.trans hnow⟩
  | loaded round now versions start =>
    obtain ⟨hround, hstart, hknown, hle, m, hm, hrest⟩ := h
    exact ⟨hround, hsub hstart, hknown, hle, m, hsub hm, hrest⟩
  | returned answer start finish => exact Correct.mono h hsub

/-- **Time passes or Vault rotates**: a moment is added to the past. -/
theorem inv_moment (h : Inv L s) {now : ℚ} {vault : Vault} (hbefore : Before s.moment ⟨now, vault⟩)
    (hread : ∀ keyName, Readable (vault.listed keyName)) :
    Inv L { s with now := now, vault := vault, past := s.past ++ [⟨now, vault⟩] } := by
  have hsub : s.past ⊆ s.past ++ [⟨now, vault⟩] := List.subset_append_left ..
  constructor
  · exact List.mem_append_right _ (List.mem_singleton_self _)
  · intro m hm
    rcases List.mem_append.1 hm with hold | hnew
    · exact (h.past m hold).trans hbefore
    · rw [List.mem_singleton.1 hnew]
      exact .refl _
  · intro m hm
    rcases List.mem_append.1 hm with hold | hnew
    · exact h.readable m hold
    · rw [List.mem_singleton.1 hnew]
      exact hread
  · intro keyName expiresAt versions hcache
    obtain ⟨m, hm, hrest⟩ := h.cache keyName expiresAt versions hcache
    exact ⟨m, hsub hm, hrest⟩
  · intro i
    exact (h.calls i).mono hsub hbefore.time

/-- **A step of a call** that leaves the clock and Vault. -/
theorem inv_setCall (h : Inv L s) {p : LookupPhase} (hp : CallOk L.ttlSeconds s (L.call i) p) :
    Inv L (s.setCall i p) := by
  have hsame (l : Lookup) (q : LookupPhase) (hq : CallOk L.ttlSeconds s l q) :
      CallOk L.ttlSeconds (s.setCall i p) l q := hq.mono (List.Subset.refl _) le_rfl
  refine ⟨h.present, h.past, h.readable, h.cache, ?_⟩
  intro j
  have hcall : (s.setCall i p).calls j = Function.update s.calls i p j := rfl
  rw [hcall]
  by_cases hj : j = i
  · subst hj
    rw [Function.update_self]
    exact hsame _ _ hp
  · rw [Function.update_of_ne hj]
    exact hsame _ _ (h.calls j)

/-- An entry is dropped, or one that Vault gave is stored. -/
theorem inv_cache (h : Inv L s) {keyName : String} {entry : Option (ℚ × Dict String)}
    (hentry : ∀ expiresAt versions, entry = some (expiresAt, versions) →
      ∃ m ∈ s.past, m.vault.listed keyName = versions ∧ expiresAt ≤ m.time + L.ttlSeconds) :
    Inv L { s with cache := Function.update s.cache keyName entry } := by
  refine ⟨h.present, h.past, h.readable, ?_, ?_⟩
  · intro name expiresAt versions hcache
    have hcache' : Function.update s.cache keyName entry name = some (expiresAt, versions) := hcache
    by_cases hname : name = keyName
    · subst hname
      rw [Function.update_self] at hcache'
      exact hentry expiresAt versions hcache'
    · rw [Function.update_of_ne hname] at hcache'
      exact h.cache name expiresAt versions hcache'
  · intro i
    exact (h.calls i).mono (List.Subset.refl _) le_rfl

/-- **A call goes on with versions that Vault listed** at a moment within the time to live. -/
theorem inv_proceed (h : Inv L s) (hround : RoundOk (L.call i) round) (hstart : start ∈ s.past)
    (hknown : start.vault (L.call i).keyName ≠ none) (hm : m ∈ s.past)
    (hlisted : m.vault.listed (L.call i).keyName = versions) (hage : start.time - max L.ttlSeconds 0 ≤ m.time)
    (hempty : versions.items = [] → (start.vault.listed (L.call i).keyName).items = [])
    (hagain : round ≠ .first → Before start m) :
    Inv L (s.proceed i (L.call i).keyName start ((L.call i).outcome round versions)) := by
  have hread : Readable versions := hlisted ▸ h.readable m hm _
  have hfound {keyVersion publicKey : String} (hget : versions.get? keyVersion = some publicKey) :
      (s.moment.vault.listed (L.call i).keyName).get? keyVersion = some publicKey :=
    (h.past m hm).keeps _ _ _ (hlisted ▸ hget)
  have hreturn {answer : Except LookupError String}
      (hok : Correct L.ttlSeconds s.past (L.call i) start s.moment answer) :
      Inv L (s.proceed i (L.call i).keyName start (.returns answer)) := inv_setCall h hok
  cases round with
  | first =>
    change Inv L (s.proceed i _ start ((L.call i).afterFirst versions))
    unfold Lookup.afterFirst
    by_cases hnil : versions.items = []
    · rw [if_pos hnil]
      apply hreturn
      refine ⟨⟨_, rfl⟩, ?_⟩
      cases (L.call i).keyVersion with
      | some keyVersion =>
        dsimp only
        rw [Dict.get?, hempty hnil]
        rfl
      | none => exact hempty hnil
    · rw [if_neg hnil]
      cases hversion : (L.call i).keyVersion with
      | none =>
        obtain ⟨publicKey, heq, hlatest⟩ := latestKey_ok hread hnil
        apply hreturn
        rw [heq]
        unfold Correct
        rw [hversion]
        exact ⟨m, hm, hage, (h.past m hm).time, hlisted ▸ hlatest⟩
      | some keyVersion =>
        dsimp only
        cases hget : versions.get? keyVersion with
        | some publicKey =>
          apply hreturn
          unfold Correct
          rw [hversion]
          exact hfound hget
        | none =>
          -- the entry is dropped, and the call waits for Vault once more
          have hdropped := @inv_cache _ _ h (L.call i).keyName none (by simp)
          exact inv_setCall hdropped ⟨hversion, hstart, hknown, (h.past start hstart).time, le_rfl⟩
  | again keyVersion =>
    have hversion : (L.call i).keyVersion = some keyVersion := hround
    apply hreturn
    unfold Lookup.afterSecond
    cases hget : versions.get? keyVersion with
    | some publicKey =>
      unfold Correct
      rw [hversion]
      exact hfound hget
    | none =>
      unfold Correct
      rw [hversion]
      refine ⟨⟨_, rfl⟩, ?_⟩
      -- what Vault had when the call began it would have listed
      cases hold : (start.vault.listed (L.call i).keyName).get? keyVersion with
      | none => exact hold
      | some publicKey =>
        have hthere := (hagain (by simp)).keeps _ _ _ hold
        rw [hlisted, hget] at hthere
        cases hthere

/-- An entry that has not expired is from a moment within the time to live. -/
theorem cached_from (h : Inv L s) {keyName : String} (hcached : s.cached keyName = some versions) :
    ∃ m ∈ s.past, m.vault.listed keyName = versions ∧ s.now - max L.ttlSeconds 0 ≤ m.time := by
  unfold State.cached at hcached
  cases hentry : s.cache keyName with
  | none =>
    rw [hentry] at hcached
    cases hcached
  | some entry =>
    obtain ⟨expiresAt, vs⟩ := entry
    rw [hentry] at hcached
    dsimp only at hcached
    by_cases hlt : s.now < expiresAt
    · rw [if_pos hlt] at hcached
      obtain ⟨m, hm, hlisted, hle⟩ := h.cache keyName expiresAt vs hentry
      refine ⟨m, hm, hlisted.trans (Option.some.inj hcached), ?_⟩
      have hmax := le_max_left L.ttlSeconds 0
      linarith
    · rw [if_neg hlt] at hcached
      cases hcached

/-- The call that a step begins has left its first place. -/
theorem begins {p : LookupPhase} (hp : p ≠ .idle) : (s.setCall i p).calls i ≠ .idle := by
  have hcall : (s.setCall i p).calls i = Function.update s.calls i p i := rfl
  rw [hcall, Function.update_self]
  exact hp

theorem proceed_begins (keyName : String) (start : Moment) (o : Outcome) :
    (s.proceed i keyName start o).calls i ≠ .idle := by
  cases o with
  | returns answer => exact begins nofun
  | refreshes keyVersion =>
    have hcall : (s.proceed i keyName start (.refreshes keyVersion)).calls i =
        Function.update s.calls i (.loading (.again keyVersion) s.now start) i := rfl
    rw [hcall, Function.update_self]
    nofun

/-- **What a step keeps.** -/
theorem step_inv (h : Inv L s) (hs : Step L s s') (hf : Fine L s s') : Inv L s' := by
  have hnow := h.present
  cases hs with
  | tick hle => exact inv_moment h ⟨hle, fun _ hk => hk, fun _ _ _ hk => hk⟩ (h.readable _ hnow)
  | @rotate vault hrot =>
    have hbefore : Before s.moment ⟨s.now, vault⟩ := ⟨le_rfl, hrot.names, hrot.keeps⟩
    apply inv_moment h hbefore
    intro keyName version hversion
    exact ⟨hrot.canonical keyName version hversion, hf.digits keyName version hversion⟩
  | @hit i versions hidle hcached =>
    have hfine := hf.start i hidle (proceed_begins _ _ _)
    obtain ⟨m, hm, hlisted, hage⟩ := cached_from h hcached
    exact inv_proceed h trivial hnow hfine.known hm hlisted hage (hfine.fresh versions hcached) (absurd rfl)
  | @miss i hidle hcached =>
    have hfine := hf.start i hidle (begins nofun)
    exact inv_setCall h ⟨trivial, hnow, hfine.known, le_rfl, le_rfl⟩
  | @answer i round now start keys hcall hkeys =>
    have hok := h.calls i
    rw [hcall] at hok
    obtain ⟨hround, hstart, hknown, hle, hle'⟩ := hok
    have hlisted : s.moment.vault.listed (L.call i).keyName = readPublicKeys keys := by
      change s.vault.listed _ = _
      unfold Vault.listed
      rw [hkeys]
    exact inv_setCall h ⟨hround, hstart, hknown, hle, s.moment, hnow, h.past start hstart, hle', hlisted⟩
  | @refuse i round now start hcall hnone =>
    have hok := h.calls i
    rw [hcall] at hok
    obtain ⟨-, hstart, hknown, -⟩ := hok
    -- Vault has had the name since the call began
    exact absurd hnone ((h.past start hstart).names _ hknown)
  | @store i round now start versions hcall =>
    have hok := h.calls i
    rw [hcall] at hok
    obtain ⟨hround, hstart, hknown, hle, m, hm, hbefore, hnowm, hlisted⟩ := hok
    have hstored : Inv L (s.store (L.call i).keyName (now + L.ttlSeconds) versions) := by
      apply inv_cache h
      intro expiresAt vs heq
      obtain ⟨rfl, rfl⟩ := Prod.mk.inj (Option.some.inj heq)
      exact ⟨m, hm, hlisted, by linarith⟩
    have hage : start.time - max L.ttlSeconds 0 ≤ m.time := by
      have hmax := le_max_right L.ttlSeconds 0
      have htime := hbefore.time
      linarith
    refine inv_proceed hstored hround hstart hknown hm hlisted hage ?_ fun _ => hbefore
    intro hnil
    rw [← hlisted] at hnil
    exact hbefore.empty hnil

/-- **Every call answers as Vault would**, in every run in which no call begins on an empty map that
Vault has outgrown or for a name that Vault does not have. -/
theorem lookups_correct {now : ℚ} (h : ReflTransGen (fun s s' => Step L s s' ∧ Fine L s s') (.init now) s)
    {answer : Except LookupError String} (hi : s.calls i = .returned answer start finish) :
    Correct L.ttlSeconds s.past (L.call i) start finish answer := by
  have hinv : Inv L s := run_invariant (inv_init now) (fun hI hs => step_inv hI hs.1 hs.2) h
  have hok := hinv.calls i
  rw [hi] at hok
  exact hok

/-! ## Two runs -/

/-- A time to live of five minutes, and calls for version 1. -/
def auditLookups : KeyLookups := ⟨300, fun _ => ⟨"audit", some "1"⟩⟩

/-- Vault with the key name and what it lists for it. -/
def vaultOf (keys : Dict Json) : Vault := fun keyName => if keyName = "audit" then some keys else none

def noVersions : Dict Json := .empty

def firstVersion : Dict Json := ⟨[("1", .obj [("public_key", .str "PUB1")])], List.nodup_singleton _⟩

theorem listed_noVersions (keyName : String) : ((vaultOf noVersions).listed keyName).items = [] := by
  unfold Vault.listed vaultOf
  split_ifs
  · rfl
  · rfl

theorem listed_firstVersion (keyName : String) : ((vaultOf firstVersion).listed keyName).keys ⊆ ["1"] := by
  unfold Vault.listed vaultOf
  split_ifs
  · exact List.Subset.refl _
  · exact List.nil_subset _

theorem rotates_noVersions : Rotates (fun _ => none) (vaultOf noVersions) := by
  refine ⟨fun keyName h => absurd rfl h, nofun, ?_⟩
  intro keyName version hversion
  rw [Dict.keys, listed_noVersions] at hversion
  cases hversion

/-- The first version is added, to nothing or to the key name without one. -/
theorem rotates_firstVersion {vault : Vault} (hempty : ∀ keyName, (vault.listed keyName).items = [])
    (hnames : ∀ keyName, vault keyName ≠ none → keyName = "audit") : Rotates vault (vaultOf firstVersion) := by
  refine ⟨?_, ?_, ?_⟩
  · intro keyName h
    rw [hnames keyName h]
    nofun
  · intro keyName version publicKey h
    rw [Dict.get?, hempty] at h
    cases h
  · intro keyName version hversion
    have hmem := listed_firstVersion keyName hversion
    rw [List.mem_singleton.1 hmem]
    exact ⟨1, rfl⟩

theorem digits_firstVersion (keyName : String) :
    ∀ version ∈ ((vaultOf firstVersion).listed keyName).keys, version.toList.length ≤ maxStrDigits := by
  intro version hversion
  rw [List.mem_singleton.1 (listed_firstVersion keyName hversion)]
  decide

/-- Vault lists a version, and nothing is in the cache. -/
def State.listing : State :=
  { State.init 0 with vault := vaultOf firstVersion, past := (State.init 0).past ++ [⟨0, vaultOf firstVersion⟩] }

def State.asking : State := State.listing.setCall 0 (.loading .first 0 State.listing.moment)

def State.answered : State :=
  State.asking.setCall 0 (.loaded .first 0 (readPublicKeys firstVersion) State.listing.moment)

def State.served : State :=
  (State.answered.store "audit" (0 + 300) (readPublicKeys firstVersion)).proceed 0 "audit" State.listing.moment
    (Lookup.outcome ⟨"audit", some "1"⟩ .first (readPublicKeys firstVersion))

/-- As long as the cache is empty a call may begin. -/
theorem fine_demo (hvault : s.vault = vaultOf firstVersion) (hcache : s.cache "audit" = none)
    (hvault' : s'.vault = vaultOf firstVersion) : Fine auditLookups s s' := by
  constructor
  · intro i _ _
    constructor
    · rw [hvault]
      nofun
    · intro versions hcached
      have hkey : (auditLookups.call i).keyName = "audit" := rfl
      unfold State.cached at hcached
      rw [hkey, hcache] at hcached
      cases hcached
  · rw [hvault']
    exact digits_firstVersion

theorem run_served :
    ReflTransGen (fun s s' => Step auditLookups s s' ∧ Fine auditLookups s s') (.init 0) State.served := by
  have hrotate : Step auditLookups (.init 0) State.listing :=
    .rotate (rotates_firstVersion (fun _ => rfl) fun keyName h => absurd rfl h)
  have hfine : Fine auditLookups (.init 0) State.listing := ⟨fun i h h' => absurd h h', digits_firstVersion⟩
  have hmiss : Step auditLookups State.listing State.asking := .miss rfl rfl
  have hanswer : Step auditLookups State.asking State.answered := .answer rfl rfl
  have hstore : Step auditLookups State.answered State.served := .store rfl
  exact (((ReflTransGen.single ⟨hrotate, hfine⟩).tail ⟨hmiss, fine_demo rfl rfl rfl⟩).tail
    ⟨hanswer, fine_demo rfl rfl rfl⟩).tail ⟨hstore, fine_demo rfl rfl rfl⟩

theorem lookups_correct_demo : Correct auditLookups.ttlSeconds State.served.past (auditLookups.call 0)
    State.listing.moment State.served.moment (.ok "PUB1") :=
  lookups_correct run_served rfl

/-- Vault has the key name without a version, and the first call stores that. -/
def State.barren : State :=
  { State.init 0 with vault := vaultOf noVersions, past := (State.init 0).past ++ [⟨0, vaultOf noVersions⟩] }

def State.disappointed : State :=
  (((State.barren.setCall 0 (.loading .first 0 State.barren.moment)).setCall 0
      (.loaded .first 0 (readPublicKeys noVersions) State.barren.moment)).store "audit" (0 + 300)
        (readPublicKeys noVersions)).proceed 0 "audit" State.barren.moment
    (Lookup.outcome ⟨"audit", some "1"⟩ .first (readPublicKeys noVersions))

/-- Then the first version is added. -/
def State.outgrown : State :=
  { State.disappointed with
    vault := vaultOf firstVersion
    past := State.disappointed.past ++ [⟨0, vaultOf firstVersion⟩] }

def State.refused : State :=
  State.outgrown.proceed 1 "audit" State.outgrown.moment
    (Lookup.outcome ⟨"audit", some "1"⟩ .first (readPublicKeys noVersions))

theorem run_refused : ReflTransGen (Step auditLookups) (.init 0) State.refused := by
  have hnone : Step auditLookups (.init 0) State.barren := .rotate rotates_noVersions
  have hmiss : Step auditLookups State.barren (State.barren.setCall 0 (.loading .first 0 State.barren.moment)) :=
    .miss rfl rfl
  have hanswer := Step.answer (L := auditLookups) (s := State.barren.setCall 0 (.loading .first 0 State.barren.moment))
    (i := 0) rfl rfl
  have hstore : Step auditLookups _ State.disappointed := .store (i := 0) rfl
  have hrotate : Step auditLookups State.disappointed State.outgrown := by
    apply Step.rotate
    apply rotates_firstVersion listed_noVersions
    intro keyName hknown
    by_contra hne
    exact hknown (if_neg hne)
  have hlive : State.outgrown.cached "audit" = some (readPublicKeys noVersions) := by
    have hentry : State.outgrown.cache "audit" = some (0 + 300, readPublicKeys noVersions) := rfl
    have hlt : State.outgrown.now < 0 + 300 := by
      have hzero : State.outgrown.now = 0 := rfl
      rw [hzero]
      norm_num
    unfold State.cached
    rw [hentry]
    exact if_pos hlt
  have hhit : Step auditLookups State.outgrown State.refused := .hit rfl hlive
  exact (((((ReflTransGen.single hnone).tail hmiss).tail hanswer).tail hstore).tail hrotate).tail hhit

/-- **An empty map is taken at its word**: version 1 is in Vault when the second call begins, and the
call ends in a `ValueError` without asking Vault. -/
theorem outgrown_map_refused : ¬ ∀ (L : KeyLookups) (now : ℚ) (s : State) (i : ℕ) (start finish : Moment)
    (answer : Except LookupError String), ReflTransGen (Step L) (.init now) s →
    s.calls i = .returned answer start finish → Correct L.ttlSeconds s.past (L.call i) start finish answer := by
  intro h
  have hbad := h auditLookups 0 State.refused 1 State.outgrown.moment State.outgrown.moment
    (.error (.value "No public keys found in Vault for key 'audit'")) run_refused rfl
  obtain ⟨-, hnone⟩ := hbad
  have hsome : (State.outgrown.moment.vault.listed "audit").get? "1" = some "PUB1" := rfl
  change (State.outgrown.moment.vault.listed "audit").get? "1" = none at hnone
  rw [hsome] at hnone
  cases hnone

end PublicKeys

end Vellum
