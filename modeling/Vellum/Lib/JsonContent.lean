import Mathlib.Data.List.Perm.Subperm
import Vellum.Lib.JsonText

/-!
# The content of a JSON value

Two decoded values have the same content if they differ in the order of fields only, at any depth.
For values in which no object names a key twice that is what the canonical form shows.

* `canonical_eq_iff`: the canonical forms are one iff the contents are.
-/

namespace Vellum.Json

mutual

/-- The same value up to the order of fields. -/
def SameContent : Json → Json → Prop
  | arr l, j' => match j' with
    | arr l' => SameItems l l'
    | _ => False
  | obj l, j' => match j' with
    | obj l' => l.length = l'.length ∧ SameFields l l'
    | _ => False
  | j, j' => j = j'

def SameItems : List Json → List Json → Prop
  | [], l' => l' = []
  | j :: js, l' => match l' with
    | j' :: js' => SameContent j j' ∧ SameItems js js'
    | [] => False

/-- Every field of the one stands in the other. -/
def SameFields : List (String × Json) → List (String × Json) → Prop
  | [], _ => True
  | (k, v) :: fs, l' => (∃ v', l'.lookup k = some v' ∧ SameContent v v') ∧ SameFields fs l'

end

mutual

/-- No object names a key twice. -/
def Distinct : Json → Prop
  | arr l => DistinctItems l
  | obj l => (l.map Prod.fst).Nodup ∧ DistinctFields l
  | _ => True

def DistinctItems : List Json → Prop
  | [] => True
  | j :: js => Distinct j ∧ DistinctItems js

def DistinctFields : List (String × Json) → Prop
  | [] => True
  | (_, v) :: fs => Distinct v ∧ DistinctFields fs

end

theorem distinctItems_iff {l : List Json} : DistinctItems l ↔ ∀ j ∈ l, j.Distinct := by
  induction l with
  | nil => simp [DistinctItems]
  | cons j js ih => rw [DistinctItems, ih, List.forall_mem_cons]

theorem distinctFields_iff {l : List (String × Json)} : DistinctFields l ↔ ∀ f ∈ l, f.2.Distinct := by
  induction l with
  | nil => simp [DistinctFields]
  | cons f fs ih => rw [DistinctFields, ih, List.forall_mem_cons]

theorem sameFields_iff {l l' : List (String × Json)} :
    SameFields l l' ↔ ∀ f ∈ l, ∃ v', l'.lookup f.1 = some v' ∧ SameContent f.2 v' := by
  induction l with
  | nil => simp [SameFields]
  | cons f fs ih => rw [SameFields, ih, List.forall_mem_cons]

/-- A field by its key, in a list that names no key twice. -/
theorem lookup_eq_some {l : List (String × Json)} (hnd : (l.map Prod.fst).Nodup) {k : String} {v : Json} :
    l.lookup k = some v ↔ (k, v) ∈ l := by
  constructor
  · intro h
    obtain ⟨l₁, l₂, rfl, -⟩ := List.lookup_eq_some_iff.1 h
    exact List.mem_append_right _ (List.mem_cons_self ..)
  · intro hmem
    exact Dict.get?_of_mem (d := ⟨l, hnd⟩) hmem

/-- The fields of an object in the canonical form. -/
def sortedField (f : String × Json) : String × Json := (f.1, sortKeys f.2)

theorem map_sortedField_fst (l : List (String × Json)) : (l.map sortedField).map Prod.fst = l.map Prod.fst := by
  rw [List.map_map]
  rfl

/-- **Objects with the same content**: their fields, sorted below, are the same up to order. -/
theorem perm_of_sameFields {l l' : List (String × Json)} (hnd : (l.map Prod.fst).Nodup)
    (hlen : l.length = l'.length)
    (hsub : ∀ f ∈ l, ∃ v', (f.1, v') ∈ l' ∧ sortKeys f.2 = sortKeys v') :
    (l.map sortedField).Perm (l'.map sortedField) := by
  have hnd' : (l.map sortedField).Nodup := by
    apply List.Nodup.of_map Prod.fst
    rwa [map_sortedField_fst]
  have hsubset : l.map sortedField ⊆ l'.map sortedField := by
    intro p hp
    obtain ⟨f, hf, rfl⟩ := List.mem_map.1 hp
    obtain ⟨v', hv', heq⟩ := hsub f hf
    refine List.mem_map.2 ⟨(f.1, v'), hv', ?_⟩
    unfold sortedField
    rw [heq]
  apply (List.subperm_of_subset hnd' hsubset).perm_of_length_le
  rw [List.length_map, List.length_map, hlen]

theorem sortKeys_obj_eq_iff {l l' : List (String × Json)} (hnd : (l.map Prod.fst).Nodup) :
    sortKeys (obj l) = sortKeys (obj l') ↔ (l.map sortedField).Perm (l'.map sortedField) := by
  constructor
  · exact sortKeys_obj_perm
  · intro hp
    simp only [sortKeys, sortFields_eq]
    exact congrArg obj (sortByKey_eq_of_perm hp ((map_sortedField_fst l).symm ▸ hnd))

/-- **The canonical form shows the content**, and nothing else. -/
theorem sortKeys_eq_iff {j j' : Json} (h : j.Distinct) (h' : j'.Distinct) :
    sortKeys j = sortKeys j' ↔ SameContent j j' := by
  induction j generalizing j' with
  | null => cases j' <;> simp [sortKeys, SameContent]
  | bool b => cases j' <;> simp [sortKeys, SameContent]
  | int i => cases j' <;> simp [sortKeys, SameContent]
  | float f => cases j' <;> simp [sortKeys, SameContent]
  | str s => cases j' <;> simp [sortKeys, SameContent]
  | arr l ih =>
    cases j' with
    | arr l' =>
      rw [Distinct, distinctItems_iff] at h h'
      simp only [sortKeys, arr.injEq, SameContent, sortItems_eq]
      induction l generalizing l' with
      | nil => cases l' <;> simp [SameItems]
      | cons j js ihl =>
        cases l' with
        | nil => simp [SameItems]
        | cons j' js' =>
          rw [List.forall_mem_cons] at h h' ih
          rw [List.map_cons, List.map_cons, List.cons.injEq, SameItems, ih.1 h.1 h'.1, ihl ih.2 h.2 _ h'.2]
    | _ => simp [sortKeys, SameContent]
  | obj l ih =>
    cases j' with
    | obj l' =>
      rw [Distinct, distinctFields_iff] at h h'
      obtain ⟨hnd, hfields⟩ := h
      obtain ⟨hnd', hfields'⟩ := h'
      rw [sortKeys_obj_eq_iff hnd, SameContent, sameFields_iff]
      constructor
      · intro hp
        refine ⟨by simpa using hp.length_eq, ?_⟩
        intro f hf
        obtain ⟨g, hg, heq⟩ := List.mem_map.1 (hp.subset (List.mem_map_of_mem hf))
        obtain ⟨hkey, hvalue⟩ : g.1 = f.1 ∧ sortKeys g.2 = sortKeys f.2 := Prod.mk.inj heq
        refine ⟨g.2, ?_, (ih f hf (hfields f hf) (hfields' g hg)).1 hvalue.symm⟩
        rw [lookup_eq_some hnd', ← hkey]
        exact hg
      · rintro ⟨hlen, hsame⟩
        apply perm_of_sameFields hnd hlen
        intro f hf
        obtain ⟨v', hlookup, hcontent⟩ := hsame f hf
        have hmem := (lookup_eq_some hnd').1 hlookup
        exact ⟨v', hmem, (ih f hf (hfields f hf) (hfields' _ hmem)).2 hcontent⟩
    | _ => simp [sortKeys, SameContent]

theorem canonical_eq_iff {j j' : Json} (h : j.Distinct) (h' : j'.Distinct) :
    j.canonical = j'.canonical ↔ SameContent j j' := by
  rw [← sortKeys_eq_iff h h']
  constructor
  · exact canonical_inj
  · intro heq
    unfold canonical
    rw [heq]

end Vellum.Json
