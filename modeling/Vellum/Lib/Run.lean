import Mathlib.Data.Nat.Init
import Mathlib.Logic.Relation

/-!
# Runs of a step system

A run is `Relation.ReflTransGen` of the step relation. What one step keeps, a run keeps. Where
several moments of one run are compared, it is a `Trace`: the states by their time.
-/

namespace Vellum

open Relation

variable {σ : Type} {step : σ → σ → Prop} {s₀ s : σ}

/-- **The invariant rule.** -/
theorem run_invariant {I : σ → Prop} (h0 : I s₀) (hstep : ∀ {s s'}, I s → step s s' → I s')
    (h : ReflTransGen step s₀ s) : I s := by
  induction h with
  | refl => exact h0
  | tail _ hs ih => exact hstep ih hs

/-! ## Traces -/

/-- A run by its times; nothing may happen for a while. -/
structure Trace (step : σ → σ → Prop) (s₀ : σ) where
  run : ℕ → σ
  start : run 0 = s₀
  next : ∀ n, run (n + 1) = run n ∨ step (run n) (run (n + 1))

namespace Trace

/-- What one step keeps, a trace keeps from then on. -/
theorem invariant_from (T : Trace step s₀) {I : σ → Prop} (hstep : ∀ {s s'}, I s → step s s' → I s') {n m : ℕ}
    (hnm : n ≤ m) (h : I (T.run n)) : I (T.run m) := by
  induction m, hnm using Nat.le_induction with
  | base => exact h
  | succ m _ ih =>
    rcases T.next m with heq | hs
    · rwa [heq]
    · exact hstep ih hs

/-- A trace that has come to `s` and stays there goes on along a run. -/
theorem extend {T : Trace step s₀} {n : ℕ} (hT : ∀ m, n ≤ m → T.run m = s) {s' : σ} (h : ReflTransGen step s s') :
    ∃ T' : Trace step s₀, ∃ n', n ≤ n' ∧ (∀ m, m ≤ n → T'.run m = T.run m) ∧ ∀ m, n' ≤ m → T'.run m = s' := by
  induction h with
  | refl => exact ⟨T, n, Nat.le_refl n, fun _ _ => rfl, hT⟩
  | @tail b c _ hs ih =>
    obtain ⟨T', n', hn, hold, hnew⟩ := ih
    -- the state `c` from one moment after `n'` on
    let after : Trace step s₀ :=
      { run := fun m => if m ≤ n' then T'.run m else c
        start := by rw [if_pos (Nat.zero_le _)]; exact T'.start
        next := by
          intro m
          by_cases hm : m + 1 ≤ n'
          · rw [if_pos hm, if_pos (by omega)]
            exact T'.next m
          · rw [if_neg hm]
            by_cases hm' : m ≤ n'
            · rw [if_pos hm', hnew m (by omega)]
              exact .inr hs
            · rw [if_neg hm']
              exact .inl rfl }
    refine ⟨after, n' + 1, by omega, fun m hm => ?_, fun m hm => ?_⟩
    · exact (if_pos (by omega)).trans (hold m hm)
    · exact if_neg (by omega)

/-- A trace through two states of a run. -/
theorem exists_through {s₁ s₂ : σ} (h₁ : ReflTransGen step s₀ s₁) (h₂ : ReflTransGen step s₁ s₂) :
    ∃ T : Trace step s₀, ∃ i j, i ≤ j ∧ T.run i = s₁ ∧ T.run j = s₂ := by
  let rest : Trace step s₀ := ⟨fun _ => s₀, rfl, fun _ => .inl rfl⟩
  obtain ⟨T, i, -, -, hT⟩ := extend (T := rest) (n := 0) (fun _ _ => rfl) h₁
  obtain ⟨T', j, hij, hold, hnew⟩ := extend hT h₂
  exact ⟨T', i, j, hij, (hold i (Nat.le_refl i)).trans (hT i (Nat.le_refl i)), hnew j (Nat.le_refl j)⟩

end Trace

end Vellum
