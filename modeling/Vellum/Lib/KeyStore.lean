import Mathlib.Data.Rat.Defs
import Mathlib.Algebra.Order.Field.Rat
import Mathlib.Data.Set.Disjoint
import Mathlib.Logic.Function.Basic
import Mathlib.Order.CompletePartialOrder
import Mathlib.Tactic.Linarith

/-!
# A key store with expiring keys

`SET key value NX EX seconds`, and `INCR key` with `EXPIRE key seconds` on a new key, on a store
whose keys live up to a deadline. A key is there strictly before its deadline.

* `get_ne_none_of_reserved`: a key that is taken until a time is there before it.
* `reserved_setNx`: a key that is taken until a time stays taken until then.
* `answer_filter`: requests that touch other keys may be left out of a history.
-/

namespace Vellum

/-- A value and the deadline of its key, for every key ever set. -/
structure KeyStore (V : Type) where
  entry : String → Option (V × ℚ)

namespace KeyStore

variable {V : Type} {s : KeyStore V} {key key' : String} {now seconds t : ℚ} {v : V}

def empty : KeyStore V := ⟨fun _ => none⟩

/-- The value of a key at a time. -/
def get (s : KeyStore V) (now : ℚ) (key : String) : Option V :=
  match s.entry key with
  | some (v, deadline) => if now < deadline then some v else none
  | none => none

/-- `SET key value NX EX seconds`, with the answer whether it was stored. -/
def setNx (s : KeyStore V) (now : ℚ) (key : String) (v : V) (seconds : ℚ) : KeyStore V × Bool :=
  match s.get now key with
  | some _ => (s, false)
  | none => (⟨Function.update s.entry key (some (v, now + seconds))⟩, true)

/-- `INCR key`, with `EXPIRE key seconds` for a key that was not there, and the new count. -/
def incrEx (s : KeyStore ℚ) (now : ℚ) (key : String) (seconds : ℚ) : KeyStore ℚ × ℚ :=
  match s.get now key, s.entry key with
  | some count, some (_, deadline) =>
    (⟨Function.update s.entry key (some (count + 1, deadline))⟩, count + 1)
  | _, _ => (⟨Function.update s.entry key (some (1, now + seconds))⟩, 1)

/-- The key is taken until `t` at least. -/
def Reserved (s : KeyStore V) (key : String) (t : ℚ) : Prop := ∃ v d, s.entry key = some (v, d) ∧ t ≤ d

@[simp] theorem get_empty : (empty : KeyStore V).get now key = none := rfl

theorem get_ne_none_of_reserved (h : s.Reserved key t) (hnow : now < t) : s.get now key ≠ none := by
  obtain ⟨v, d, hentry, hd⟩ := h
  unfold get
  rw [hentry]
  simp [lt_of_lt_of_le hnow hd]

/-- **A taken key stays taken**: a later write to it only moves its deadline on. -/
theorem reserved_setNx (h : s.Reserved key t) (hle : t ≤ now + seconds) :
    (s.setNx now key' v seconds).1.Reserved key t := by
  unfold setNx
  cases s.get now key' with
  | some w => exact h
  | none =>
    by_cases hk : key = key'
    · subst hk
      exact ⟨v, now + seconds, Function.update_self .., hle⟩
    · obtain ⟨w, d, hentry, hd⟩ := h
      exact ⟨w, d, (Function.update_of_ne hk ..).trans hentry, hd⟩

/-! ## Operations on a set of keys

Two stores agree on a set of keys; an operation that reads and writes keys of the set only cannot
tell them apart. -/

def AgreeOn (K : Set String) (s s' : KeyStore V) : Prop := ∀ key ∈ K, s.entry key = s'.entry key

variable {A R : Type} {K P : Set String} {s' : KeyStore V}

theorem AgreeOn.refl : AgreeOn K s s := fun _ _ => rfl

theorem AgreeOn.mono (h : AgreeOn P s s') (hK : K ⊆ P) : AgreeOn K s s' := fun key hkey => h key (hK hkey)

theorem AgreeOn.get (h : AgreeOn K s s') (hkey : key ∈ K) : s.get now key = s'.get now key := by
  unfold KeyStore.get
  rw [h key hkey]

/-- Writing the same under one key keeps two stores as close as they were. -/
theorem AgreeOn.update (h : AgreeOn K s s') (e : Option (V × ℚ)) :
    AgreeOn K ⟨Function.update s.entry key e⟩ ⟨Function.update s'.entry key e⟩ := by
  intro key' hkey'
  by_cases hk : key' = key
  · subst hk
    simp only [Function.update_self]
  · simp only [Function.update_of_ne hk]
    exact h key' hkey'

/-- An operation that reads and writes keys of `K` only. -/
structure LocalTo (K : Set String) (op : KeyStore V → A × KeyStore V) : Prop where
  frame : ∀ s key, key ∉ K → (op s).2.entry key = s.entry key
  answer : ∀ {s s'}, AgreeOn K s s' → (op s).1 = (op s').1
  agree : ∀ {s s'}, AgreeOn K s s' → AgreeOn K (op s).2 (op s').2

namespace LocalTo

variable {op : KeyStore V → A × KeyStore V}

/-- An operation keeps what two stores agree on, on more keys than its own too. -/
theorem agreeOn (h : LocalTo K op) (hK : K ⊆ P) (hs : AgreeOn P s s') : AgreeOn P (op s).2 (op s').2 := by
  intro key hkey
  by_cases hmem : key ∈ K
  · exact h.agree (hs.mono hK) key hmem
  · rw [h.frame s key hmem, h.frame s' key hmem]
    exact hs key hkey

/-- An operation on other keys keeps it on one side alone. -/
theorem agreeOn_left (h : LocalTo K op) (hK : ∀ key ∈ P, key ∉ K) (hs : AgreeOn P s s') :
    AgreeOn P (op s).2 s' := by
  intro key hkey
  rw [h.frame s key (hK key hkey)]
  exact hs key hkey

theorem mono (h : LocalTo K op) (hK : K ⊆ P) : LocalTo P op where
  frame s key hkey := h.frame s key fun hmem => hkey (hK hmem)
  answer hs := h.answer (hs.mono hK)
  agree hs := h.agreeOn hK hs

theorem const (a : A) : LocalTo K fun s : KeyStore V => (a, s) := ⟨fun _ _ _ => rfl, fun _ => rfl, fun hs => hs⟩

/-- One operation after another. -/
theorem bind {B : Type} {f : A → KeyStore V → B × KeyStore V} (h : LocalTo K op) (hf : ∀ a, LocalTo K (f a)) :
    LocalTo K fun s => f (op s).1 (op s).2 where
  frame s key hkey := ((hf _).frame _ key hkey).trans (h.frame s key hkey)
  answer hs := by
    rw [h.answer hs]
    exact (hf _).answer (h.agree hs)
  agree hs := by
    rw [h.answer hs]
    exact (hf _).agree (h.agree hs)

end LocalTo

theorem setNx_local (now : ℚ) (key : String) (v seconds : ℚ) :
    LocalTo {key} fun s : KeyStore ℚ => ((s.setNx now key v seconds).2, (s.setNx now key v seconds).1) := by
  constructor
  · intro s key' hkey'
    unfold setNx
    cases s.get now key with
    | some w => exact Eq.refl _
    | none => exact Function.update_of_ne hkey' ..
  · intro s s' h
    unfold setNx
    rw [h.get rfl]
    cases s'.get now key with
    | some w => exact Eq.refl _
    | none => exact Eq.refl _
  · intro s s' h
    unfold setNx
    rw [h.get rfl]
    cases s'.get now key with
    | some w => exact h
    | none => exact h.update _

theorem incrEx_local (now : ℚ) (key : String) (seconds : ℚ) :
    LocalTo {key} fun s : KeyStore ℚ => ((s.incrEx now key seconds).2, (s.incrEx now key seconds).1) := by
  constructor
  · intro s key' hkey'
    unfold incrEx
    split
    · exact Function.update_of_ne hkey' ..
    · exact Function.update_of_ne hkey' ..
  · intro s s' h
    unfold incrEx
    rw [h.get rfl, h key rfl]
    split
    · exact Eq.refl _
    · exact Eq.refl _
  · intro s s' h
    unfold incrEx
    rw [h.get rfl, h key rfl]
    split
    · exact h.update _
    · exact h.update _

/-- The store after a history of requests. -/
def after (op : R → KeyStore V → A × KeyStore V) (s : KeyStore V) (history : List R) : KeyStore V :=
  history.foldl (fun s r => (op r s).2) s

variable {op : R → KeyStore V → A × KeyStore V} {keys : R → Set String} {keep : R → Bool} {history : List R}

/-- What requests on other keys are left out of the history does not show on the keys of the rest. -/
theorem agreeOn_after_filter (hop : ∀ r, LocalTo (keys r) (op r))
    (hout : ∀ a ∈ history, keep a = false → ∀ key ∈ P, key ∉ keys a)
    (hin : ∀ b ∈ history, keep b = true → keys b ⊆ P) (hs : AgreeOn P s s') :
    AgreeOn P (after op s history) (after op s' (history.filter keep)) := by
  induction history generalizing s s' with
  | nil => exact hs
  | cons r history ih =>
    have hout' := fun a ha => hout a (List.mem_cons_of_mem _ ha)
    have hin' := fun b hb => hin b (List.mem_cons_of_mem _ hb)
    by_cases hr : keep r = true
    · rw [List.filter_cons_of_pos hr]
      exact ih hout' hin' ((hop r).agreeOn (hin r (List.mem_cons_self ..) hr) hs)
    · rw [List.filter_cons_of_neg hr]
      have hr' : keep r = false := Bool.eq_false_iff.2 hr
      exact ih hout' hin' ((hop r).agreeOn_left (hout r (List.mem_cons_self ..) hr') hs)

/-- **Requests on other keys do not interfere**: the answer to a request is the same when those
that share no key with it, nor with the rest of the history, are left out. -/
theorem answer_filter (hop : ∀ r, LocalTo (keys r) (op r)) (r : R)
    (hsep : ∀ a ∈ history, keep a = false → ∀ b ∈ r :: history.filter keep, Disjoint (keys a) (keys b)) :
    (op r (after op s history)).1 = (op r (after op s (history.filter keep))).1 := by
  -- the keys that no request left out touches
  have hagree := @agreeOn_after_filter V s A R {key | ∀ a ∈ history, keep a = false → key ∉ keys a} s op keys
    keep history hop (fun a ha hk key hkey => hkey a ha hk)
    (by
      intro b hb hk key hkey a ha hka hmem
      have hb' : b ∈ r :: history.filter keep := List.mem_cons_of_mem _ (List.mem_filter.2 ⟨hb, hk⟩)
      exact Set.disjoint_left.1 (hsep a ha hka b hb') hmem hkey)
    AgreeOn.refl
  refine (hop r).answer (hagree.mono ?_)
  intro key hkey a ha hka hmem
  exact Set.disjoint_left.1 (hsep a ha hka r (List.mem_cons_self ..)) hmem hkey

end KeyStore

end Vellum
