import Mathlib.Data.List.Perm.Basic
import Vellum.Lib.Dict

/-!
# Loading a map entry by entry

A map is filled from a collection of candidates in the order in which they are listed. A candidate
is passed over, or gives an entry, or fails, and with that the loading ends.

* `loadEach_fails`: loading fails iff a candidate fails, in whichever order.
* `loadEach_lookup`: the last candidate with a key gives its entry.
* `reliable_iff`: when loading into an emptied map does not depend on the order and keeps the map
  that was there if it fails.
-/

namespace Vellum

variable {C E M : Type} {load : C → Except E (Option (String × M))} {held : Dict M} {c : C} {cs : List C}
  {id : String} {m : M}

/-- The candidates in their order, up to the first that fails; with the map as it is then. -/
def loadEach (load : C → Except E (Option (String × M))) (held : Dict M) : List C → Except E Unit × Dict M
  | [] => (.ok (), held)
  | c :: cs => match load c with
    | .error e => (.error e, held)
    | .ok none => loadEach load held cs
    | .ok (some (id, m)) => loadEach load (held.set id m) cs

theorem loadEach_error {e : E} (h : load c = .error e) : loadEach load held (c :: cs) = (.error e, held) := by
  unfold loadEach
  rw [h]

theorem loadEach_none (h : load c = .ok none) : loadEach load held (c :: cs) = loadEach load held cs := by
  rw [loadEach.eq_2, h]

theorem loadEach_some (h : load c = .ok (some (id, m))) :
    loadEach load held (c :: cs) = loadEach load (held.set id m) cs := by
  rw [loadEach.eq_2, h]

/-- The two maps have the same entries. -/
def SameMap (d d' : Dict M) : Prop := ∀ id, d.get? id = d'.get? id

/-- The candidate fails. -/
def Fails (load : C → Except E (Option (String × M))) (c : C) : Prop := ∃ e, load c = .error e

/-- The candidate gives an entry. -/
def Gives (load : C → Except E (Option (String × M))) (c : C) (id : String) (m : M) : Prop :=
  load c = .ok (some (id, m))

theorem loadEach_fails : (∃ e, (loadEach load held cs).1 = .error e) ↔ ∃ c ∈ cs, Fails load c := by
  induction cs generalizing held with
  | nil =>
    constructor
    · rintro ⟨e, he⟩
      cases he
    · rintro ⟨c, hc, -⟩
      cases hc
  | cons c cs ih =>
    have hskip {r : Option (String × M)} (hc : load c = .ok r) :
        (∃ c' ∈ c :: cs, Fails load c') ↔ ∃ c' ∈ cs, Fails load c' := by
      have hnot : ¬ Fails load c := by
        rintro ⟨e, he⟩
        rw [hc] at he
        cases he
      rw [List.exists_mem_cons_iff, or_iff_right hnot]
    cases hc : load c with
    | error e =>
      rw [loadEach_error hc]
      exact ⟨fun _ => ⟨c, List.mem_cons_self .., e, hc⟩, fun _ => ⟨e, rfl⟩⟩
    | ok r =>
      rw [hskip hc]
      cases r with
      | none =>
        rw [loadEach_none hc]
        exact ih
      | some p =>
        rw [loadEach_some hc]
        exact ih

/-- **What is in the map at the end** was given by a candidate or is from before. -/
theorem loadEach_from (h : (loadEach load held cs).2.get? id = some m) :
    (∃ c ∈ cs, Gives load c id m) ∨ held.get? id = some m := by
  induction cs generalizing held with
  | nil => exact .inr h
  | cons c cs ih =>
    cases hc : load c with
    | error e =>
      rw [loadEach_error hc] at h
      exact .inr h
    | ok r =>
      cases r with
      | none =>
        rw [loadEach_none hc] at h
        rcases ih h with ⟨c', hmem, hgives⟩ | hheld
        · exact .inl ⟨c', List.mem_cons_of_mem _ hmem, hgives⟩
        · exact .inr hheld
      | some p =>
        rw [loadEach_some hc] at h
        rcases ih h with ⟨c', hmem, hgives⟩ | hheld
        · exact .inl ⟨c', List.mem_cons_of_mem _ hmem, hgives⟩
        · rw [Dict.get?_set] at hheld
          by_cases hid : id = p.1
          · rw [if_pos hid, Option.some.injEq] at hheld
            subst hid hheld
            exact .inl ⟨c, List.mem_cons_self .., hc⟩
          · rw [if_neg hid] at hheld
            exact .inr hheld

/-- Loading goes on with what is there already. -/
theorem loadEach_append {cs' : List C} (hok : ∀ c ∈ cs, ¬ Fails load c) :
    loadEach load held (cs ++ cs') = loadEach load (loadEach load held cs).2 cs' := by
  induction cs generalizing held with
  | nil => rfl
  | cons c cs ih =>
    have hok' : ∀ c' ∈ cs, ¬ Fails load c' := fun c' hmem => hok c' (List.mem_cons_of_mem _ hmem)
    rw [List.cons_append]
    cases hc : load c with
    | error e => exact absurd ⟨e, hc⟩ (hok c (List.mem_cons_self ..))
    | ok r =>
      cases r with
      | none =>
        rw [loadEach_none hc, loadEach_none hc]
        exact ih hok'
      | some p =>
        rw [loadEach_some hc, loadEach_some hc]
        exact ih hok'

/-- **The last candidate with a key gives its entry.** -/
theorem loadEach_lookup (hok : ∀ c' ∈ cs, ¬ Fails load c') (hgives : Gives load c id m) :
    (loadEach load held (cs ++ [c])).2.get? id = some m := by
  rw [loadEach_append hok, loadEach_some hgives]
  exact (Dict.get?_set ..).trans (if_pos rfl)

/-- A key that has an entry keeps one. -/
theorem loadEach_keeps (h : held.get? id ≠ none) : (loadEach load held cs).2.get? id ≠ none := by
  induction cs generalizing held with
  | nil => exact h
  | cons c cs ih =>
    cases hc : load c with
    | error e =>
      rw [loadEach_error hc]
      exact h
    | ok r =>
      cases r with
      | none =>
        rw [loadEach_none hc]
        exact ih h
      | some p =>
        rw [loadEach_some hc]
        apply ih
        rw [Dict.get?_set]
        by_cases hid : id = p.1
        · rw [if_pos hid]
          nofun
        · rw [if_neg hid]
          exact h

theorem loadEach_complete (hok : ∀ c' ∈ cs, ¬ Fails load c') (hc : c ∈ cs) (hgives : Gives load c id m) :
    (loadEach load held cs).2.get? id ≠ none := by
  obtain ⟨cs₁, cs₂, rfl⟩ := List.append_of_mem hc
  have hsplit : cs₁ ++ c :: cs₂ = (cs₁ ++ [c]) ++ cs₂ := by rw [List.append_assoc, List.singleton_append]
  have hok' : ∀ c' ∈ cs₁ ++ [c], ¬ Fails load c' := by
    intro c' hmem
    apply hok
    rw [hsplit]
    exact List.mem_append_left _ hmem
  rw [hsplit, loadEach_append hok']
  apply loadEach_keeps
  rw [loadEach_lookup (fun c' hmem => hok' c' (List.mem_append_left _ hmem)) hgives]
  nofun

/-! ## Independence of the order -/

/-- **A reload may be relied on**: in any two of the possible orders it fails in both or gives one map,
and where it fails the map that was held is there as before. -/
structure Reliable (orders : List C → Prop) (reload : List C → Except E Unit × Dict M) (held : Dict M) : Prop where
  order : ∀ cs₁ cs₂, orders cs₁ → orders cs₂ →
    (∃ e e', (reload cs₁).1 = .error e ∧ (reload cs₂).1 = .error e') ∨
    (reload cs₁).1 = .ok () ∧ (reload cs₂).1 = .ok () ∧ SameMap (reload cs₁).2 (reload cs₂).2
  atomic : ∀ cs₁ e, orders cs₁ → (reload cs₁).1 = .error e → SameMap (reload cs₁).2 held

/-- No two candidates give one key different entries. -/
def Agreeing (load : C → Except E (Option (String × M))) (cs : List C) : Prop :=
  ∀ c ∈ cs, ∀ c' ∈ cs, ∀ id m m', Gives load c id m → Gives load c' id m' → m = m'

theorem ok_of_not_error {x : Except E Unit} (h : ¬ ∃ e, x = .error e) : x = .ok () := by
  cases x with
  | error e => exact absurd ⟨e, rfl⟩ h
  | ok u => rfl

/-- Where no candidate fails and none contradicts another, the order does not show. -/
theorem reliable_of_agreeing (hok : ∀ c ∈ cs, ¬ Fails load c) (hagree : Agreeing load cs) :
    Reliable (·.Perm cs) (loadEach load .empty) held := by
  have hok' {cs' : List C} (hp : cs'.Perm cs) : ∀ c ∈ cs', ¬ Fails load c := fun c hc => hok c (hp.subset hc)
  have hret {cs' : List C} (hp : cs'.Perm cs) : ¬ ∃ e, (loadEach load .empty cs').1 = .error e := by
    rw [loadEach_fails]
    rintro ⟨c, hc, hfails⟩
    exact hok' hp c hc hfails
  have hsub {cs₁ cs₂ : List C} (h₁ : cs₁.Perm cs) (h₂ : cs₂.Perm cs) (id : String) (m : M)
      (h : (loadEach load .empty cs₁).2.get? id = some m) : (loadEach load .empty cs₂).2.get? id = some m := by
    rcases loadEach_from h with ⟨c, hc, hgives⟩ | hnone
    · cases hget : (loadEach load .empty cs₂).2.get? id with
      | none => exact absurd hget (loadEach_complete (hok' h₂) (h₂.symm.subset (h₁.subset hc)) hgives)
      | some m' =>
        rcases loadEach_from hget with ⟨c', hc', hgives'⟩ | hnone
        · rw [hagree c (h₁.subset hc) c' (h₂.subset hc') id m m' hgives hgives']
        · cases hnone
    · cases hnone
  constructor
  · intro cs₁ cs₂ h₁ h₂
    refine .inr ⟨ok_of_not_error (hret h₁), ok_of_not_error (hret h₂), ?_⟩
    intro id
    exact Option.ext fun m => ⟨hsub h₁ h₂ id m, hsub h₂ h₁ id m⟩
  · intro cs₁ e h₁ he
    exact absurd ⟨e, he⟩ (hret h₁)

/-- Where a candidate fails, nothing was held and no candidate gives an entry, nothing is lost. -/
theorem reliable_of_nothing (hfails : ∃ c ∈ cs, Fails load c) (hheld : held.items = [])
    (hnone : ∀ c ∈ cs, ∀ id m, ¬ Gives load c id m) : Reliable (·.Perm cs) (loadEach load .empty) held := by
  have hraise {cs' : List C} (hp : cs'.Perm cs) : ∃ e, (loadEach load .empty cs').1 = .error e := by
    obtain ⟨c, hc, hcfails⟩ := hfails
    exact loadEach_fails.2 ⟨c, hp.symm.subset hc, hcfails⟩
  constructor
  · intro cs₁ cs₂ h₁ h₂
    obtain ⟨e, he⟩ := hraise h₁
    obtain ⟨e', he'⟩ := hraise h₂
    exact .inl ⟨e, e', he, he'⟩
  · intro cs₁ e h₁ _ id
    have hnil : held.get? id = none := by
      rw [Dict.get?, hheld]
      rfl
    rw [hnil]
    cases hget : (loadEach load .empty cs₁).2.get? id with
    | none => rfl
    | some m =>
      rcases loadEach_from hget with ⟨c, hc, hgives⟩ | hold
      · exact absurd hgives (hnone c (h₁.subset hc) id m)
      · cases hold

/-- In a reliable reload that fails nothing was held and no candidate gives an entry: the one that
fails may come first, and second. -/
theorem nothing_of_reliable (h : Reliable (·.Perm cs) (loadEach load .empty) held) (hfails : ∃ c ∈ cs, Fails load c) :
    held.items = [] ∧ ∀ c ∈ cs, ∀ id m, ¬ Gives load c id m := by
  obtain ⟨c, hc, e, he⟩ := hfails
  obtain ⟨cs₁, cs₂, rfl⟩ := List.append_of_mem hc
  have hfirst : (c :: (cs₁ ++ cs₂)).Perm (cs₁ ++ c :: cs₂) := List.perm_middle.symm
  have hrun (cs' : List C) : loadEach load .empty (c :: cs') = (.error e, .empty) := loadEach_error he
  have hempty : SameMap .empty held := by
    have hatomic := h.atomic _ e hfirst (by rw [hrun])
    rwa [hrun] at hatomic
  have hheld : held.items = [] := by
    rw [List.eq_nil_iff_forall_not_mem]
    intro p hp
    have hget := (hempty p.1).trans (Dict.get?_of_mem hp)
    cases hget
  refine ⟨hheld, ?_⟩
  intro c' hc' id m hgives
  -- the order in which `c'` comes first and `c` second
  have hne : c' ∈ cs₁ ++ cs₂ := by
    rcases List.mem_cons.1 (hfirst.symm.subset hc') with heq | hmem
    · rw [heq, Gives, he] at hgives
      cases hgives
    · exact hmem
  obtain ⟨cs₃, cs₄, heq⟩ := List.append_of_mem hne
  have hsecond : (c' :: c :: (cs₃ ++ cs₄)).Perm (cs₁ ++ c :: cs₂) := by
    refine List.Perm.trans (List.Perm.swap ..) (List.Perm.trans ?_ hfirst)
    rw [heq]
    exact List.Perm.cons _ List.perm_middle.symm
  have hrun' : loadEach load .empty (c' :: c :: (cs₃ ++ cs₄)) = (.error e, Dict.empty.set id m) := by
    rw [loadEach_some hgives, loadEach_error he]
  have hatomic := h.atomic _ e hsecond (by rw [hrun'])
  rw [hrun'] at hatomic
  have hget := hatomic id
  rw [Dict.get?_set, if_pos rfl, ← hempty id] at hget
  cases hget

/-- **When a reload may be relied on**: no candidate fails and none contradicts another, or there is
nothing to lose. -/
theorem reliable_iff : Reliable (·.Perm cs) (loadEach load .empty) held ↔
    (∀ c ∈ cs, ¬ Fails load c) ∧ Agreeing load cs ∨
      (∃ c ∈ cs, Fails load c) ∧ held.items = [] ∧ ∀ c ∈ cs, ∀ id m, ¬ Gives load c id m := by
  constructor
  · intro h
    by_cases hfails : ∃ c ∈ cs, Fails load c
    · exact .inr ⟨hfails, nothing_of_reliable h hfails⟩
    · have hok : ∀ c ∈ cs, ¬ Fails load c := fun c hc hf => hfails ⟨c, hc, hf⟩
      refine .inl ⟨hok, ?_⟩
      -- two orders, each with one of the two candidates at its end
      have hlast {c : C} {id : String} {m : M} (hc : c ∈ cs) (hgives : Gives load c id m) :
          ∃ cs', cs'.Perm cs ∧ (loadEach load .empty cs').2.get? id = some m := by
        obtain ⟨cs₁, cs₂, rfl⟩ := List.append_of_mem hc
        have hp : ((cs₁ ++ cs₂) ++ [c]).Perm (cs₁ ++ c :: cs₂) :=
          (List.perm_append_singleton c (cs₁ ++ cs₂)).trans List.perm_middle.symm
        refine ⟨_, hp, loadEach_lookup ?_ hgives⟩
        intro c' hc'
        exact hok c' (hp.subset (List.mem_append_left _ hc'))
      intro c hc c' hc' id m m' hgives hgives'
      obtain ⟨cs₁, hp₁, hget₁⟩ := hlast hc hgives
      obtain ⟨cs₂, hp₂, hget₂⟩ := hlast hc' hgives'
      rcases h.order cs₁ cs₂ hp₁ hp₂ with ⟨e, -, he, -⟩ | ⟨-, -, hsame⟩
      · obtain ⟨c'', hc'', hf⟩ := loadEach_fails.1 ⟨e, he⟩
        exact absurd hf (hok c'' (hp₁.subset hc''))
      · have heq := hsame id
        rw [hget₁, hget₂] at heq
        exact Option.some.inj heq
  · rintro (⟨hok, hagree⟩ | ⟨hfails, hheld, hnone⟩)
    · exact reliable_of_agreeing hok hagree
    · exact reliable_of_nothing hfails hheld hnone

end Vellum
