import Mathlib.Tactic.Common

/-!
# Joined texts

Texts that are joined by a separator come apart where the separator cannot occur: at the first one
or at the last one.

* `split_first`, `split_last`: how a joined text comes apart.
-/

namespace Vellum

variable {α : Type} {sep : α} {a b a' b' : List α}

/-- A text up to its first separator. -/
theorem split_first (h : a ++ sep :: b = a' ++ sep :: b') (ha : sep ∉ a) (ha' : sep ∉ a') : a = a' ∧ b = b' := by
  induction a generalizing a' with
  | nil =>
    cases a' with
    | nil => exact ⟨rfl, (List.cons.inj h).2⟩
    | cons c a' =>
      obtain ⟨rfl, -⟩ := List.cons.inj h
      exact absurd (List.mem_cons_self ..) ha'
  | cons c a ih =>
    cases a' with
    | nil =>
      obtain ⟨rfl, -⟩ := List.cons.inj h
      exact absurd (List.mem_cons_self ..) ha
    | cons c' a' =>
      obtain ⟨rfl, htail⟩ := List.cons.inj h
      have hmem : sep ∉ a := fun hm => ha (List.mem_cons_of_mem _ hm)
      have hmem' : sep ∉ a' := fun hm => ha' (List.mem_cons_of_mem _ hm)
      obtain ⟨rfl, rfl⟩ := ih htail hmem hmem'
      exact ⟨rfl, rfl⟩

/-- A text from its last separator on: the first one of the text read backwards. -/
theorem split_last (h : a ++ sep :: b = a' ++ sep :: b') (hb : sep ∉ b) (hb' : sep ∉ b') : a = a' ∧ b = b' := by
  have hrev : b.reverse ++ sep :: a.reverse = b'.reverse ++ sep :: a'.reverse := by
    have := congrArg List.reverse h
    simpa using this
  have hmem : sep ∉ b.reverse := by rwa [List.mem_reverse]
  have hmem' : sep ∉ b'.reverse := by rwa [List.mem_reverse]
  obtain ⟨h1, h2⟩ := split_first hrev hmem hmem'
  exact ⟨List.reverse_inj.1 h2, List.reverse_inj.1 h1⟩

end Vellum
