import Mathlib.Data.List.Forall2
import Mathlib.Tactic.Common

/-!
# Computations that return

What it says that a computation in `Except` returned: every step of it did, and no guard
raised.
-/

namespace Vellum

variable {ε α β : Type}

/-- A sequence returns iff both steps do. -/
theorem bind_ok {x : Except ε α} {f : α → Except ε β} {b : β} :
    (x >>= f) = .ok b ↔ ∃ a, x = .ok a ∧ f a = .ok b := by
  cases x with
  | error e => simp [bind, Except.bind]
  | ok a => simp [bind, Except.bind]

theorem pure_ok {a b : α} : (pure a : Except ε α) = .ok b ↔ a = b := by
  simp [pure, Except.pure]

theorem map_ok {x : Except ε α} {f : α → β} {b : β} :
    f <$> x = .ok b ↔ ∃ a, x = .ok a ∧ f a = b := by
  cases x <;> simp [Functor.map, Except.map]

/-- An exception that is turned into another. -/
theorem mapError_ok {ε' : Type} {x : Except ε α} {f : ε → ε'} {a : α} : x.mapError f = .ok a ↔ x = .ok a := by
  cases x <;> simp [Except.mapError]

/-- `if c: raise e`. -/
def raiseIf (c : Prop) [Decidable c] (e : ε) : Except ε Unit := if c then .error e else .ok ()

theorem raiseIf_ok {c : Prop} [Decidable c] {e : ε} {u : Unit} : raiseIf c e = .ok u ↔ ¬ c := by
  unfold raiseIf
  split_ifs with h <;> simp [h]

/-- What a computation raises, if it raises. -/
def Raises (P : ε → Prop) (x : Except ε α) : Prop := ∀ e, x = .error e → P e

theorem raises_ok {P : ε → Prop} {a : α} : Raises P (.ok a : Except ε α) := by
  intro e h
  cases h

theorem raises_error {P : ε → Prop} {e : ε} (h : P e) : Raises P (.error e : Except ε α) := by
  intro e' he
  cases he
  exact h

theorem raises_bind {P : ε → Prop} {x : Except ε α} {f : α → Except ε β} (hx : Raises P x) (hf : ∀ a, Raises P (f a)) :
    Raises P (x >>= f) := by
  intro e h
  cases x with
  | error e' =>
    cases h
    exact hx e rfl
  | ok a => exact hf a e h

theorem raises_map {P : ε → Prop} {x : Except ε α} {f : α → β} (hx : Raises P x) : Raises P (x.map f) := by
  intro e h
  cases x with
  | error e' =>
    cases h
    exact hx e rfl
  | ok a => cases h

theorem raises_mapError {ε' : Type} {P : ε' → Prop} {x : Except ε α} {f : ε → ε'} (h : ∀ e, P (f e)) :
    Raises P (x.mapError f) := by
  intro e he
  cases x with
  | error e' =>
    cases he
    exact h e'
  | ok a => cases he

theorem raises_mapM {P : ε → Prop} {f : α → Except ε β} (h : ∀ a, Raises P (f a)) (l : List α) :
    Raises P (l.mapM f) := by
  induction l with
  | nil => exact raises_ok
  | cons a l ih =>
    rw [List.mapM_cons]
    exact raises_bind (h a) fun b => raises_bind ih fun bs => raises_ok

theorem isOk_iff {x : Except ε α} : x.isOk = true ↔ ∃ a, x = .ok a := by
  cases x <;> simp [Except.isOk, Except.toBool]

theorem toOption_eq_some {x : Except ε α} {a : α} : x.toOption = some a ↔ x = .ok a := by
  cases x <;> simp [Except.toOption]

/-- A mapped list returns item by item. -/
theorem mapM_ok {f : α → Except ε β} : ∀ {l : List α} {l' : List β},
    l.mapM f = .ok l' ↔ List.Forall₂ (fun a b => f a = .ok b) l l' := by
  intro l
  induction l with
  | nil => intro l'; rw [List.mapM_nil, pure_ok, List.forall₂_nil_left_iff, eq_comm]
  | cons a as ih =>
    intro l'
    rw [List.mapM_cons, bind_ok]
    simp only [bind_ok, pure_ok]
    constructor
    · rintro ⟨b, hb, bs, hbs, rfl⟩
      exact .cons hb (ih.1 hbs)
    · rintro (_ | ⟨hb, hbs⟩)
      exact ⟨_, hb, _, ih.2 hbs, rfl⟩

theorem mapM_exists_ok {f : α → Except ε β} {l : List α} (h : ∀ a ∈ l, ∃ b, f a = .ok b) :
    ∃ l', l.mapM f = .ok l' := by
  induction l with
  | nil => exact ⟨[], rfl⟩
  | cons a as ih =>
    obtain ⟨b, hb⟩ := h a (by simp)
    obtain ⟨bs, hbs⟩ := ih fun x hx => h x (by simp [hx])
    refine ⟨b :: bs, ?_⟩
    rw [List.mapM_cons, hb, hbs]
    rfl

/-- A mapped list of optional values, all of them there. -/
theorem mapM_some {f : α → Option β} {g : α → β} {l : List α} (h : ∀ a ∈ l, f a = some (g a)) :
    l.mapM f = some (l.map g) := by
  induction l with
  | nil => rfl
  | cons a as ih =>
    rw [List.mapM_cons, h a (by simp), ih fun x hx => h x (by simp [hx])]
    rfl

theorem mapM_eq_some {f : α → Option β} : ∀ {l : List α} {l' : List β}, l.mapM f = some l' →
    List.Forall₂ (fun a b => f a = some b) l l' := by
  intro l
  induction l with
  | nil =>
    intro l' h
    cases h
    exact .nil
  | cons a as ih =>
    intro l' h
    rw [List.mapM_cons, Option.bind_eq_bind, Option.bind_eq_some_iff] at h
    obtain ⟨b, hb, h⟩ := h
    rw [Option.bind_eq_bind, Option.bind_eq_some_iff] at h
    obtain ⟨bs, hbs, h⟩ := h
    cases h
    exact .cons hb (ih hbs)

/-- The same, each value only related to its item. -/
theorem mapM_exists {R : α → β → Prop} {f : α → Option β} {l : List α} (h : ∀ a ∈ l, ∃ b, f a = some b ∧ R a b) :
    ∃ l', l.mapM f = some l' ∧ List.Forall₂ R l l' := by
  induction l with
  | nil => exact ⟨[], rfl, .nil⟩
  | cons a as ih =>
    obtain ⟨b, hb, hab⟩ := h a (by simp)
    obtain ⟨bs, hbs, hall⟩ := ih fun x hx => h x (by simp [hx])
    refine ⟨b :: bs, ?_, .cons hab hall⟩
    rw [List.mapM_cons, hb, hbs]
    rfl

/-- Two lists with the same truth values, item by item. -/
theorem forall₂_all_any {p : α → Bool} {q : β → Bool} {l : List α} {l' : List β}
    (h : List.Forall₂ (fun a b => q b = p a) l l') : l'.all q = l.all p ∧ l'.any q = l.any p := by
  induction h with
  | nil => exact ⟨rfl, rfl⟩
  | cons hab _ ih =>
    rw [List.all_cons, List.all_cons, List.any_cons, List.any_cons, hab, ih.1, ih.2]
    exact ⟨rfl, rfl⟩

theorem forall₂_imp_mem {R S : α → β → Prop} {l : List α} {l' : List β} (h : List.Forall₂ R l l')
    (himp : ∀ a ∈ l, ∀ b, R a b → S a b) : List.Forall₂ S l l' := by
  induction h with
  | nil => exact .nil
  | cons hab _ ih => exact .cons (himp _ (by simp) _ hab) (ih fun a ha => himp a (by simp [ha]))

/-- A loop with an index that decides nothing. -/
theorem mapM_zipIdx_ok {S : α → β → Prop} {f : α × ℕ → Except ε β} (h : ∀ a i b, f (a, i) = .ok b ↔ S a b)
    {l : List α} {k : ℕ} {l' : List β} : (l.zipIdx k).mapM f = .ok l' ↔ List.Forall₂ S l l' := by
  rw [mapM_ok]
  induction l generalizing k l' with
  | nil => simp
  | cons a l ih =>
    cases l' with
    | nil => simp
    | cons b l' => rw [List.zipIdx_cons, List.forall₂_cons, List.forall₂_cons, ih, h]

theorem forall₂_mem_left {R : α → β → Prop} {l : List α} {l' : List β} (h : List.Forall₂ R l l') {a : α}
    (ha : a ∈ l) : ∃ b ∈ l', R a b := by
  induction h with
  | nil => simp at ha
  | cons hab _ ih =>
    rcases List.mem_cons.1 ha with rfl | ha
    · exact ⟨_, by simp, hab⟩
    · obtain ⟨b, hb, hr⟩ := ih ha
      exact ⟨b, by simp [hb], hr⟩

theorem forall₂_mem_right {R : α → β → Prop} {l : List α} {l' : List β} (h : List.Forall₂ R l l') {b : β}
    (hb : b ∈ l') : ∃ a ∈ l, R a b :=
  forall₂_mem_left h.flip hb

end Vellum
