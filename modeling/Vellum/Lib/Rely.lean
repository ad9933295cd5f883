import Vellum.Lib.Broker

/-!
# Programs that rely on a shared invariant

The calls of a program depend on what earlier calls have answered, and what they have answered may be out
of date. If every call keeps an invariant of the world and changes it along a relation `R` only, each
program can be looked at alone: between its calls the world changes along `R`, and at its calls it
satisfies the invariant.

* `kept`: a call in a world that satisfies the invariant.
* `Keeps`: what is to be shown of the programs and of the calls.
* `keeps_run`: then the invariant holds in every run, and what is required at a call holds whenever a
  program awaits it. What is required may depend on the message that the program is a delivery of.
-/

namespace Vellum

open Relation Prog

variable {C : Type} {Resp : C → Type} {E α W M : Type}

namespace Prog

/-- A call in a world that satisfies the invariant before and after it, and changes along `R`. -/
def kept (R : W → W → Prop) (Inv : W → Prop) (sem : (c : C) → W → Except E (Resp c) → W → Prop) (c : C) (w : W)
    (a : Except E (Resp c)) (w' : W) : Prop :=
  Inv w ∧ sem c w a w' ∧ R w w' ∧ Inv w'

/-- Safe with the invariant, while the others change the world along `R`. -/
def SafeWithin (R : W → W → Prop) (Inv : W → Prop) (sem : (c : C) → W → Except E (Resp c) → W → Prop)
    (I : C → W → Prop) (Q : Except E α → W → Prop) (p : Prog Resp E α) (w : W) : Prop :=
  p.Safe (rely R (kept R Inv sem)) I Q w

variable {R : W → W → Prop} {Inv : W → Prop} {sem : (c : C) → W → Except E (Resp c) → W → Prop} {I : C → W → Prop}
  {β : Type} {w : W}

/-- One call, by what it answers in a world that has changed along `R`. -/
theorem within_call_bind {Q : Except E β → W → Prop} {c : C} {f : Resp c → Prog Resp E β} (hI : I c w)
    (hok : ∀ r w₁ w', R w w₁ → kept R Inv sem c w₁ (.ok r) w' → (f r).SafeWithin R Inv sem I Q w')
    (herr : ∀ e w₁ w', R w w₁ → R w₁ w' → Q (.error e) w') : (call c >>= f).SafeWithin R Inv sem I Q w := by
  refine safe_call_bind hI ?_ ?_
  · rintro r w' ⟨w₁, hR, hkept⟩
    exact hok r w₁ w' hR hkept
  · rintro e w' ⟨w₁, hR, -, -, hR', -⟩
    exact herr e w₁ w' hR hR'

end Prog

namespace Broker

variable {K : BrokerConfig W Resp E α M} {R : W → W → Prop} {I : Option M → C → W → Prop} {Inv : W → Prop}
  {Cond : Broker W Resp E α M → BrokerAct Resp E α M → Broker W Resp E α M → Prop} {s s' : Broker W Resp E α M}

/-- **What is to be shown**: of each program by itself, and of one call. -/
structure Keeps (K : BrokerConfig W Resp E α M) (R : W → W → Prop) (I : Option M → C → W → Prop) (Inv : W → Prop) :
    Prop where
  refl : ∀ w, R w w
  trans : ∀ u v w, R u v → R v w → R u w
  stable : ∀ held c w w', I held c w → R w w' → I held c w'
  request : ∀ p ∈ K.requests, ∀ w, p.SafeWithin R Inv K.sem (I none) (fun _ _ => True) w
  deliver : ∀ m, ∀ p ∈ K.handlers m, ∀ w, p.SafeWithin R Inv K.sem (I (some m)) (fun _ _ => True) w
  call : ∀ {held c w a w'}, Inv w → I held c w → K.sem c w a w' → R w w' ∧ Inv w'
  remove : ∀ m {w}, Inv w → R w (K.remove m w) ∧ Inv (K.remove m w)

/-- The invariant of the rule. -/
structure KeptInv (K : BrokerConfig W Resp E α M) (R : W → W → Prop) (I : Option M → C → W → Prop) (Inv : W → Prop)
    (s : Broker W Resp E α M) : Prop where
  world : Inv s.world
  safe : ∀ i p, s.pool.procs i = some p → p.SafeWithin R Inv K.sem (I (s.holds i)) (fun _ _ => True) s.world

theorem keptInv_put (hK : Keeps K R I Inv) (h : KeptInv K R I Inv s) {i : ℕ} {w : W} {p : Option (Prog Resp E α)}
    {m : Option M} (hR : R s.world w) (hw : Inv w)
    (hp : ∀ q, p = some q → q.SafeWithin R Inv K.sem (I m) (fun _ _ => True) w) :
    KeptInv K R I Inv (s.put i w p m) := by
  refine ⟨hw, fun j q hq => ?_⟩
  by_cases hji : j = i
  · subst hji
    rw [procs_put_self] at hq
    rw [holds_put_self]
    exact hp q hq
  · rw [procs_put_of_ne hji] at hq
    rw [holds_put_of_ne hji]
    exact safe_rely hK.trans (hK.stable _) (fun _ _ _ _ _ => trivial) (h.safe j q hq) hR

theorem step_keptInv (hK : Keeps K R I Inv) {act : BrokerAct Resp E α M} (h : KeptInv K R I Inv s)
    (hstep : Step K s act s') : KeptInv K R I Inv s' := by
  have hgone : ∀ {m w} (q : Prog Resp E α), none = some q → q.SafeWithin R Inv K.sem (I m) (fun _ _ => True) w := by
    intro m w q hq
    cases hq
  cases hstep with
  | @request i p hfree hp =>
    refine keptInv_put hK h (hK.refl _) h.world fun q hq => ?_
    rw [← Option.some.inj hq]
    exact hK.request p hp _
  | @deliver i m p hfree hpending hone hp =>
    refine keptInv_put hK h (hK.refl _) h.world fun q hq => ?_
    rw [← Option.some.inj hq]
    exact hK.deliver m p hp _
  | @call i c k a w' hproc hsem =>
    have hsafe := h.safe i _ hproc
    obtain ⟨hR, hworld⟩ := hK.call h.world hsafe.1 hsem
    refine keptInv_put hK h hR hworld fun q hq => ?_
    rw [← Option.some.inj hq]
    exact hsafe.2 a w' ⟨s.world, hK.refl _, h.world, hsem, hR, hworld⟩
  | crash hproc => exact keptInv_put hK h (hK.refl _) h.world hgone
  | @finish i r hproc =>
    cases hm : s.holds i with
    | none => exact keptInv_put hK h (hK.refl _) h.world hgone
    | some m =>
      obtain ⟨hR, hworld⟩ := hK.remove m h.world
      exact keptInv_put hK h hR hworld hgone

/-- **In every run** the invariant holds, and so does what is required at a call that a program awaits. -/
theorem keeps_run (hK : Keeps K R I Inv) {w₀ : W} (h0 : Inv w₀) (hrun : Run K Cond (init w₀) s) :
    Inv s.world ∧ ∀ i c k, s.pool.procs i = some (.await c k) → I (s.holds i) c s.world := by
  have hinit : KeptInv K R I Inv (init w₀) := by
    refine ⟨h0, fun i p hp => ?_⟩
    cases hp
  have hlast : KeptInv K R I Inv s := by
    refine run_invariant hinit ?_ hrun
    rintro s s' h ⟨act, hstep, -⟩
    exact step_keptInv hK h hstep
  exact ⟨hlast.world, fun i c k hproc => (hlast.safe i _ hproc).1⟩

end Broker

end Vellum
