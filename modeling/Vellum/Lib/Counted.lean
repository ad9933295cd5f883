import Vellum.Lib.Prog

/-!
# Runs that are counted

Programs of a pool that run one at a time, with the number of times one of them has come to a call
that counts. A program counts when it comes to the call, whether the call is answered or the
program crashes there.

* `counted_invariant`: what every program keeps alone, together with its count, a run keeps.
* `Returns`: the outcomes of a program that runs alone and does not crash.
-/

namespace Vellum

variable {C : Type} {Resp : C → Type} {E α W : Type} {sem : (c : C) → W → Except E (Resp c) → W → Prop}

namespace Prog

/-! ## Outcomes -/

/-- The program may end in `r` and leave `w'`. -/
inductive Returns (sem : (c : C) → W → Except E (Resp c) → W → Prop) :
    Prog Resp E α → W → Except E α → W → Prop where
  | done {r : Except E α} {w : W} : Returns sem (.done r) w r w
  | await {c : C} {k : Except E (Resp c) → Prog Resp E α} {w w' w'' : W} {a : Except E (Resp c)} {r : Except E α} :
      sem c w a w' → Returns sem (k a) w' r w'' → Returns sem (.await c k) w r w''

/-- **A safe program ends as it should.** -/
theorem safe_returns {I : C → W → Prop} {Q : Except E α → W → Prop} {p : Prog Resp E α} {w w' : W} {r : Except E α}
    (h : p.Safe sem I Q w) (hr : p.Returns sem w r w') : Q r w' := by
  induction hr with
  | done => exact h
  | await hs _ ih => exact ih (h.2 _ _ hs)

/-- A run alone whose answers are given by a function. -/
theorem returns_runOn {respond : (c : C) → W → Except E (Resp c) × W}
    (hrespond : ∀ c w, sem c w (respond c w).1 (respond c w).2) (p : Prog Resp E α) (w : W) :
    p.Returns sem w (p.runOn respond w).1 (p.runOn respond w).2 := by
  induction p generalizing w with
  | done r => exact .done
  | await c k ih => exact .await (hrespond c w) (ih _ _)

/-! ## Counts -/

variable (cost : C → ℕ)

/-- What the call counts at which the program stands. -/
def awaited : Prog Resp E α → ℕ
  | .done _ => 0
  | .await c _ => cost c

/-- The calls with the count of those that have been answered. -/
def counting (sem : (c : C) → W → Except E (Resp c) → W → Prop) (c : C) (x : W × ℕ) (a : Except E (Resp c))
    (x' : W × ℕ) : Prop :=
  sem c x.1 a x'.1 ∧ x'.2 = x.2 + cost c

/-- A program that keeps `J` of the world and the count, and makes its calls where `K` allows them. -/
def KeepsCount (sem : (c : C) → W → Except E (Resp c) → W → Prop) (J : W → ℕ → Prop) (K : C → W → Prop)
    (p : Prog Resp E α) (x : W × ℕ) : Prop :=
  p.Safe (counting cost sem) (fun c x => J x.1 (x.2 + cost c) ∧ K c x.1) (fun _ x => J x.1 x.2) x

variable {cost} {J : W → ℕ → Prop} {K : C → W → Prop}

theorem KeepsCount.inv {p : Prog Resp E α} {w : W} {m : ℕ} (h : p.KeepsCount cost sem J K (w, m)) :
    J w (m + p.awaited cost) := by
  cases p with
  | done r => exact h
  | await c k => exact h.1.1

theorem KeepsCount.answered {c : C} {k : Except E (Resp c) → Prog Resp E α} {w w' : W} {m : ℕ} {a : Except E (Resp c)}
    (h : (Prog.await c k).KeepsCount cost sem J K (w, m)) (hs : sem c w a w') :
    (k a).KeepsCount cost sem J K (w', m + cost c) :=
  h.2 a (w', m + cost c) ⟨hs, rfl⟩

end Prog

namespace Pool

open Prog

variable (cost : C → ℕ) {tasks : Set (Prog Resp E α)}

/-- What the program counts that has moved in a step. -/
def arrived (s : Pool W Resp E α) : Act Resp E α → ℕ
  | .start i _ | .call i _ _ => ((s.procs i).map (Prog.awaited cost)).getD 0
  | .crash _ => 0

/-- **A run with its count**, one program at a time. -/
inductive CountedRun (sem : (c : C) → W → Except E (Resp c) → W → Prop) (tasks : Set (Prog Resp E α))
    (s₀ : Pool W Resp E α) : ℕ → Pool W Resp E α → Prop where
  | refl : CountedRun sem tasks s₀ 0 s₀
  | tail {n : ℕ} {s s' : Pool W Resp E α} {act : Act Resp E α} : CountedRun sem tasks s₀ n s →
      Step sem tasks s act s' → s.Sequential act → CountedRun sem tasks s₀ (n + s'.arrived cost act) s'

/-- What a counted run keeps: at most one program is in progress, and from here it keeps its count. -/
def CountInv (sem : (c : C) → W → Except E (Resp c) → W → Prop) (J : W → ℕ → Prop) (K : C → W → Prop) (n : ℕ)
    (s : Pool W Resp E α) : Prop :=
  J s.world n ∧ ∃ i, (∀ j, j ≠ i → s.IdleAt j) ∧
    ∀ p, s.procs i = some p → ∃ m, n = m + p.awaited cost ∧ p.KeepsCount cost sem J K (s.world, m)

variable {cost} {J : W → ℕ → Prop} {K : C → W → Prop} {s₀ s s' : Pool W Resp E α} {n : ℕ}

/-- Putting a program that keeps its count where all others are idle. -/
theorem countInv_put {i m : ℕ} {w : W} {p : Prog Resp E α} (hidle : ∀ j, j ≠ i → s.IdleAt j)
    (hp : p.KeepsCount cost sem J K (w, m)) : CountInv cost sem J K (m + p.awaited cost) (s.put i w (some p)) := by
  refine ⟨hp.inv, i, fun j hj => idleAt_put hj (hidle j hj), fun q hq => ?_⟩
  rw [procs_put_self] at hq
  obtain rfl := Option.some.inj hq
  exact ⟨m, rfl, hp⟩

theorem step_countInv (htask : ∀ p ∈ tasks, ∀ w m, J w m → p.KeepsCount cost sem J K (w, m)) {act : Act Resp E α}
    (hinv : CountInv cost sem J K n s) (hseq : s.Sequential act) (hstep : Step sem tasks s act s') :
    CountInv cost sem J K (n + s'.arrived cost act) s' := by
  obtain ⟨hJ, i, hidle, hsafe⟩ := hinv
  cases hstep with
  | @start j p hj hp =>
    have harrived : (s.put j s.world (some p)).arrived cost (.start j p) = p.awaited cost := by
      simp [arrived]
    rw [harrived]
    exact countInv_put (fun l _ => hseq l) (htask p hp _ _ hJ)
  | @call j c k a w' hj hs =>
    have hji : j = i := by
      by_contra hne
      have := hidle j hne _ hj
      cases this
    subst hji
    obtain ⟨m, rfl, hk⟩ := hsafe _ hj
    have harrived : (s.put j w' (some (k a))).arrived cost (.call j c a) = (k a).awaited cost := by
      simp [arrived]
    rw [harrived]
    exact countInv_put hidle (hk.answered hs)
  | @crash j p hj =>
    -- what the program has counted stays counted
    refine ⟨hJ, i, fun l hl q hq => ?_, fun q hq => ?_⟩
    · rcases procs_put hq with ⟨-, hq⟩ | ⟨-, hq⟩
      · cases hq
      · exact hidle l hl q hq
    · rcases procs_put hq with ⟨-, hq⟩ | ⟨-, hq⟩
      · cases hq
      · exact hsafe q hq

/-- **What every program keeps alone, every counted run keeps**, and every call of it is made where
it is allowed. -/
theorem counted_invariant (htask : ∀ p ∈ tasks, ∀ w m, J w m → p.KeepsCount cost sem J K (w, m))
    (h0 : J s₀.world 0) (hidle : ∀ i, s₀.procs i = none) (h : CountedRun cost sem tasks s₀ n s) :
    J s.world n ∧ ∀ i c k, s.procs i = some (.await c k) → K c s.world := by
  have hinv : CountInv cost sem J K n s := by
    induction h with
    | refl =>
      refine ⟨h0, 0, fun j _ p hp => ?_, fun p hp => ?_⟩
      · rw [hidle j] at hp
        cases hp
      · rw [hidle 0] at hp
        cases hp
    | tail _ hstep hseq ih => exact step_countInv htask ih hseq hstep
  obtain ⟨hJ, i, hothers, hsafe⟩ := hinv
  refine ⟨hJ, fun j c k hj => ?_⟩
  by_cases hji : j = i
  · subst hji
    obtain ⟨m, -, hk⟩ := hsafe _ hj
    exact hk.1.2
  · have := hothers j hji _ hj
    cases this

/-- What program `i` counts in `k` steps with answers from an oracle. -/
def driveCount (cost : C → ℕ) (answer : (c : C) → W → Except E (Resp c) × W) (i : ℕ) : ℕ → Pool W Resp E α → ℕ
  | 0, _ => 0
  | k + 1, s => match s.procs i with
    | some (.await c next) =>
      (next (answer c s.world).1).awaited cost +
        driveCount cost answer i k (s.put i (answer c s.world).2 (some (next (answer c s.world).1)))
    | _ => 0

/-- Such steps are a counted run. -/
theorem countedRun_driveAt {answer : (c : C) → W → Except E (Resp c) × W}
    (hanswer : ∀ c w, sem c w (answer c w).1 (answer c w).2) {i : ℕ} (k : ℕ) {s : Pool W Resp E α} {n : ℕ}
    (h : CountedRun cost sem tasks s₀ n s) :
    CountedRun cost sem tasks s₀ (n + driveCount cost answer i k s) (driveAt answer i k s) := by
  induction k generalizing s n with
  | zero => exact h
  | succ k ih =>
    cases hproc : s.procs i with
    | none =>
      simp only [driveCount, driveAt, hproc]
      exact h
    | some p =>
      cases p with
      | done r =>
        simp only [driveCount, driveAt, hproc]
        exact h
      | await c next =>
        have hstep := h.tail (.call hproc (hanswer c s.world)) trivial
        have harrived : (s.put i (answer c s.world).2 (some (next (answer c s.world).1))).arrived cost
            (.call i c (answer c s.world).1) = (next (answer c s.world).1).awaited cost := by
          simp [arrived]
        rw [harrived] at hstep
        simp only [driveCount, driveAt, hproc]
        rw [← Nat.add_assoc]
        exact ih hstep

end Pool

end Vellum
