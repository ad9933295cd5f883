import Mathlib.Data.List.Forall2
import Mathlib.Data.List.Induction
import Mathlib.Tactic.Common

/-!
# Hash-linked lists

Entries that name the hash of the entry before them, the first one a start value. If the
hash of an entry determines what it names, the hash of the last entry determines the list.

* `linked_concat`: what it takes to append an entry.
* `linked_unique`: the last hash commits to everything before it.
-/

namespace Vellum

variable {α H : Type} {prev hash : α → H}

/-- Every entry names the hash of the one before it, the first `start`. -/
def Linked (prev hash : α → H) : H → List α → Prop
  | _, [] => True
  | start, a :: l => prev a = start ∧ Linked prev hash (hash a) l

/-- The hash the next entry has to name. -/
def lastHash (hash : α → H) (start : H) (l : List α) : H := (l.getLast?.map hash).getD start

@[simp] theorem lastHash_nil (start : H) : lastHash hash start [] = start := rfl

@[simp] theorem lastHash_concat (start : H) (l : List α) (a : α) : lastHash hash start (l ++ [a]) = hash a := by
  simp [lastHash]

theorem lastHash_cons (start : H) (a : α) (l : List α) :
    lastHash hash start (a :: l) = lastHash hash (hash a) l := by
  cases l with
  | nil => rfl
  | cons b l => simp [lastHash, List.getLast?_cons]

/-- **Appending** keeps the links iff the new entry names the last hash. -/
theorem linked_concat {start : H} {l : List α} {a : α} :
    Linked prev hash start (l ++ [a]) ↔ Linked prev hash start l ∧ prev a = lastHash hash start l := by
  induction l generalizing start with
  | nil => simp [Linked]
  | cons b l ih =>
    rw [List.cons_append, Linked, Linked, ih, lastHash_cons]
    exact and_assoc.symm

/-- **The last hash commits to the list.** By induction from the end: equal hashes name equal
predecessors, and no entry has the start value as its hash, so the lists end together. -/
theorem linked_unique {start : H} {Ok : α → Prop} {R : α → α → Prop}
    (hR : ∀ {a b}, Ok a → Ok b → hash a = hash b → prev a = prev b ∧ R a b)
    (hne : ∀ {a}, Ok a → hash a ≠ start) :
    ∀ {l l' : List α}, (∀ a ∈ l, Ok a) → (∀ a ∈ l', Ok a) → Linked prev hash start l →
      Linked prev hash start l' → lastHash hash start l = lastHash hash start l' → List.Forall₂ R l l' := by
  intro l
  induction l using List.reverseRecOn with
  | nil =>
    intro l' _ hok' _ _ hlast
    rcases List.eq_nil_or_concat l' with rfl | ⟨l₁, b, rfl⟩
    · exact .nil
    · rw [lastHash_nil, List.concat_eq_append, lastHash_concat] at hlast
      exact absurd hlast.symm (hne (hok' b (by simp)))
  | append_singleton l a ih =>
    intro l' hok hok' hl hl' hlast
    rcases List.eq_nil_or_concat l' with rfl | ⟨l₁, b, rfl⟩
    · rw [lastHash_nil, lastHash_concat] at hlast
      exact absurd hlast (hne (hok a (by simp)))
    · rw [List.concat_eq_append] at *
      rw [lastHash_concat, lastHash_concat] at hlast
      obtain ⟨hla, hpa⟩ := linked_concat.1 hl
      obtain ⟨hlb, hpb⟩ := linked_concat.1 hl'
      obtain ⟨hprev, hr⟩ := hR (hok a (by simp)) (hok' b (by simp)) hlast
      have hrest := ih (fun x hx => hok x (by simp [hx])) (fun x hx => hok' x (by simp [hx])) hla hlb
        (by rw [← hpa, ← hpb, hprev])
      exact List.rel_append hrest (.cons hr .nil)

end Vellum
