import Mathlib.Data.List.Nodup
import Mathlib.Data.String.Basic
import Mathlib.Tactic.Common

/-!
# Python dictionaries and strings

`Dict α` is a dictionary with string keys in insertion order, no key twice.
`strip` is `str.strip` with Python's notion of white space.
-/

namespace Vellum

/-- A `dict` with string keys: items in insertion order, every key once. -/
structure Dict (α : Type) where
  items : List (String × α)
  nodup : (items.map Prod.fst).Nodup

namespace Dict

variable {α : Type}

def empty : Dict α := ⟨[], List.nodup_nil⟩

def keys (d : Dict α) : List String := d.items.map Prod.fst

/-- `d.get(key)`. -/
def get? (d : Dict α) (key : String) : Option α := d.items.lookup key

/-- `d[key] = value`: in place, or at the end. -/
def set (d : Dict α) (key : String) (value : α) : Dict α :=
  if h : key ∈ d.keys then
    { items := d.items.map fun p => if p.1 = key then (key, value) else p
      nodup := by
        have hkeys : (d.items.map fun p => if p.1 = key then (key, value) else p).map Prod.fst = d.keys := by
          rw [List.map_map, keys]
          apply List.map_congr_left
          intro p _
          by_cases hp : p.1 = key <;> simp [hp]
        rw [hkeys]
        exact d.nodup }
  else
    { items := d.items ++ [(key, value)]
      nodup := by
        rw [List.map_append, List.map_singleton]
        exact List.nodup_append.2 ⟨d.nodup, List.nodup_singleton _, by
          rintro a ha b hb rfl
          rw [List.mem_singleton.1 hb] at ha
          exact h ha⟩ }

/-- `d.update(patch)`. -/
def update (d : Dict α) (patch : List (String × α)) : Dict α := patch.foldl (fun d p => d.set p.1 p.2) d

theorem ext {d d' : Dict α} (h : d.items = d'.items) : d = d' := by
  cases d; cases d'; simp only at h; subst h; rfl

theorem lookup_eq_none {κ : Type} [BEq κ] [LawfulBEq κ] {l : List (κ × α)} {k : κ} :
    l.lookup k = none ↔ k ∉ l.map Prod.fst := by
  induction l with
  | nil => simp
  | cons f fs ih =>
    rw [List.lookup_cons]
    by_cases h : k = f.1
    · simp [h]
    · have hb : (k == f.1) = false := by simpa using h
      simp [hb, ih, h]

/-- Two orders of the same entries are one if the keys stand in the same order. -/
theorem perm_eq_of_keys : ∀ {l l' : List (String × α)}, l.Perm l' → l.map Prod.fst = l'.map Prod.fst →
    (l.map Prod.fst).Nodup → l = l' := by
  intro l
  induction l with
  | nil => intro l' hp _ _; exact (List.nil_perm.1 hp).symm
  | cons a as ih =>
    intro l' hp hk hnd
    cases l' with
    | nil => simp at hk
    | cons b bs =>
      simp only [List.map_cons, List.cons.injEq] at hk
      rw [List.map_cons, List.nodup_cons] at hnd
      -- the head cannot stand further down: its key would occur twice
      have hab : a = b := by
        rcases List.mem_cons.1 (hp.subset (List.mem_cons_self ..)) with h | h
        · exact h
        · exact absurd (hk.2 ▸ List.mem_map_of_mem h) hnd.1
      subst hab
      rw [ih hp.cons_inv hk.2 hnd.2]

theorem lookup_map_self {f : String → α} : ∀ {names : List String} {n : String}, n ∈ names →
    (names.map fun m => (m, f m)).lookup n = some (f n) := by
  intro names n hn
  induction names with
  | nil => simp at hn
  | cons m ms ih =>
    rw [List.map_cons, List.lookup_cons]
    by_cases h : n = m
    · subst h; simp
    · have hb : (n == m) = false := by simpa using h
      simp only [hb]
      exact ih (by simpa [h] using hn)

/-- An entry is what its key looks up: no key occurs twice. -/
theorem get?_of_mem {d : Dict α} {p : String × α} (h : p ∈ d.items) : d.get? p.1 = some p.2 := by
  obtain ⟨items, hnd⟩ := d
  rw [get?]
  dsimp only at h ⊢
  induction items with
  | nil => simp at h
  | cons q qs ih =>
    rw [List.map_cons, List.nodup_cons] at hnd
    rw [List.lookup_cons]
    rcases List.mem_cons.1 h with rfl | h
    · simp
    · have hne : p.1 ≠ q.1 := by
        intro heq
        exact hnd.1 (heq ▸ List.mem_map_of_mem h)
      have hb : (p.1 == q.1) = false := by simpa using hne
      rw [hb]
      exact ih hnd.2 h

theorem lookup_map_set_of_ne {κ : Type} [BEq κ] [LawfulBEq κ] [DecidableEq κ] {l : List (κ × α)} {key k : κ} {value : α}
    (hk : k ≠ key) :
    (l.map fun p => if p.1 = key then (key, value) else p).lookup k = l.lookup k := by
  induction l with
  | nil => rfl
  | cons p ps ih =>
    rw [List.map_cons, List.lookup_cons, List.lookup_cons, ih]
    by_cases hp : p.1 = key
    · have hb : (k == key) = false := by simpa using hk
      rw [if_pos hp, hp, hb]
    · rw [if_neg hp]

theorem lookup_map_set_self {κ : Type} [BEq κ] [LawfulBEq κ] [DecidableEq κ] {l : List (κ × α)} {key : κ} {value : α}
    (h : key ∈ l.map Prod.fst) :
    (l.map fun p => if p.1 = key then (key, value) else p).lookup key = some value := by
  induction l with
  | nil => cases h
  | cons p ps ih =>
    rw [List.map_cons, List.lookup_cons]
    by_cases hp : p.1 = key
    · rw [if_pos hp]
      simp
    · have hb : (key == p.1) = false := by simpa using fun heq : key = p.1 => hp heq.symm
      rw [if_neg hp, hb]
      exact ih ((List.mem_cons.1 h).resolve_left fun heq => hp heq.symm)

/-- What an assignment leaves to be read. -/
theorem get?_set (d : Dict α) (key k : String) (value : α) :
    (d.set key value).get? k = if k = key then some value else d.get? k := by
  unfold set get?
  split_ifs with h hk hk
  · rw [hk, lookup_map_set_self h]
  · rw [lookup_map_set_of_ne hk]
  · rw [List.lookup_append, lookup_eq_none.2 (hk ▸ h), hk]
    simp
  · have hb : (k == key) = false := by simpa using hk
    rw [List.lookup_append, List.lookup_cons, hb]
    simp

/-- An update leaves the keys it does not name. -/
theorem get?_update_of_notMem {patch : List (String × α)} {k : String} (h : k ∉ patch.map Prod.fst) (d : Dict α) :
    (d.update patch).get? k = d.get? k := by
  induction patch generalizing d with
  | nil => rfl
  | cons p ps ih =>
    rw [List.map_cons, List.mem_cons, not_or] at h
    have hstep : d.update (p :: ps) = (d.set p.1 p.2).update ps := rfl
    rw [hstep, ih h.2, get?_set, if_neg h.1]

/-- Distinct new keys go to the end. -/
theorem update_new : ∀ (patch : List (String × α)) (d : Dict α), (patch.map Prod.fst).Nodup →
    (∀ p ∈ patch, p.1 ∉ d.keys) → (d.update patch).items = d.items ++ patch := by
  intro patch
  induction patch with
  | nil => intro d _ _; rw [update, List.foldl_nil, List.append_nil]
  | cons p ps ih =>
    intro d hnodup hnew
    rw [List.map_cons, List.nodup_cons] at hnodup
    have hp : p.1 ∉ d.keys := hnew p List.mem_cons_self
    have hset : (d.set p.1 p.2).items = d.items ++ [p] := by
      unfold set
      rw [dif_neg hp]
    have hrest : ∀ q ∈ ps, q.1 ∉ (d.set p.1 p.2).keys := by
      intro q hq
      rw [keys, hset, List.map_append, List.mem_append, List.map_singleton, List.mem_singleton, not_or]
      refine ⟨hnew q (List.mem_cons_of_mem p hq), fun heq => hnodup.1 ?_⟩
      rw [← heq]
      exact List.mem_map_of_mem hq
    have htail := ih (d.set p.1 p.2) hnodup.2 hrest
    rw [hset, List.append_assoc, List.singleton_append] at htail
    exact htail

/-- An update with another dictionary: its entries go first. -/
theorem get?_update_items (d d' : Dict α) (k : String) : (d.update d'.items).get? k = (d'.get? k).or (d.get? k) := by
  obtain ⟨items, hnd⟩ := d'
  change (d.update items).get? k = (items.lookup k).or (d.get? k)
  induction items generalizing d with
  | nil => rfl
  | cons p ps ih =>
    rw [List.map_cons, List.nodup_cons] at hnd
    have hstep : d.update (p :: ps) = (d.set p.1 p.2).update ps := rfl
    rw [hstep, List.lookup_cons]
    by_cases hk : k = p.1
    · -- the key does not occur again
      subst hk
      rw [get?_update_of_notMem hnd.1, get?_set, if_pos rfl, beq_self_eq_true]
      rfl
    · have hb : (k == p.1) = false := by simpa using hk
      rw [ih (d.set p.1 p.2) hnd.2, get?_set, if_neg hk, hb]

end Dict

/-- The characters `str.isspace` accepts. -/
def isSpace (c : Char) : Bool :=
  let n := c.toNat
  (9 ≤ n && n ≤ 13) || (28 ≤ n && n ≤ 32) || n = 0x85 || n = 0xa0 || n = 0x1680 ||
    (0x2000 ≤ n && n ≤ 0x200a) || n = 0x2028 || n = 0x2029 || n = 0x202f || n = 0x205f || n = 0x3000

/-- `str.strip()`. -/
def strip (s : String) : String :=
  String.ofList ((s.toList.dropWhile isSpace).reverse.dropWhile isSpace).reverse

end Vellum
