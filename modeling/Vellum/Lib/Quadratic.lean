import Mathlib.Algebra.MvPolynomial.CommRing
import Mathlib.Algebra.MvPolynomial.NoZeroDivisors
import Mathlib.Tactic.Ring

/-!
# Quadratic polynomials

A rank-one constraint system admits constraints of the form `A * B + C = 0` with affine `A`,
`B` and `C`, and no others.

* `totalDegree_le_two`: such a polynomial has degree at most two.
* `totalDegree_mul_pos`, `totalDegree_join`, `totalDegree_one_sub`: over a domain the
  arithmetic forms of `and`, `or` and `not` add, add and keep degrees.
-/

namespace Vellum

open MvPolynomial

section

variable {σ R : Type} [CommRing R] {p q : MvPolynomial σ R}

/-- A linear combination of variables and a constant. -/
def IsAffine (p : MvPolynomial σ R) : Prop := p.totalDegree ≤ 1

/-- **The shape of a rank-one constraint.** -/
def IsQuadratic (p : MvPolynomial σ R) : Prop :=
  ∃ a b c : MvPolynomial σ R, IsAffine a ∧ IsAffine b ∧ IsAffine c ∧ p = a * b + c

theorem totalDegree_le_two (h : IsQuadratic p) : p.totalDegree ≤ 2 := by
  obtain ⟨a, b, c, ha, hb, hc, rfl⟩ := h
  unfold IsAffine at ha hb hc
  have hab : (a * b).totalDegree ≤ a.totalDegree + b.totalDegree := totalDegree_mul a b
  have hsum : (a * b + c).totalDegree ≤ max (a * b).totalDegree c.totalDegree := totalDegree_add _ _
  omega

theorem isAffine_C (r : R) : IsAffine (C r : MvPolynomial σ R) := by
  unfold IsAffine
  rw [totalDegree_C]
  omega

theorem isAffine_X [Nontrivial R] (s : σ) : IsAffine (X s : MvPolynomial σ R) := by
  unfold IsAffine
  rw [totalDegree_X]

theorem isAffine_add (hp : IsAffine p) (hq : IsAffine q) : IsAffine (p + q) :=
  (totalDegree_add p q).trans (max_le hp hq)

theorem isAffine_sub (hp : IsAffine p) (hq : IsAffine q) : IsAffine (p - q) :=
  (totalDegree_sub p q).trans (max_le hp hq)

/-- An affine polynomial is quadratic: the product is zero. -/
theorem isQuadratic_of_isAffine (h : IsAffine p) : IsQuadratic p := by
  have h0 : IsAffine (0 : MvPolynomial σ R) := by
    rw [← C_0]
    exact isAffine_C 0
  exact ⟨0, 0, p, h0, h0, h, by ring⟩

theorem ne_zero_of_totalDegree_pos (h : 1 ≤ p.totalDegree) : p ≠ 0 := by
  rintro rfl
  rw [totalDegree_zero] at h
  omega

/-- A term of lower degree does not show. -/
theorem totalDegree_sub_of_lt (h : q.totalDegree < p.totalDegree) : (p - q).totalDegree = p.totalDegree := by
  rw [sub_eq_add_neg]
  apply totalDegree_add_eq_left_of_totalDegree_lt
  rwa [totalDegree_neg]

/-- **The arithmetic `not`** keeps the degree. -/
theorem totalDegree_one_sub (hp : 1 ≤ p.totalDegree) : (1 - p).totalDegree = p.totalDegree := by
  have hone : (1 : MvPolynomial σ R).totalDegree < p.totalDegree := by
    rw [totalDegree_one]
    omega
  rw [← neg_sub, totalDegree_neg, totalDegree_sub_of_lt hone]

end

section Domain

variable {σ R : Type} [CommRing R] [IsDomain R] {p q : MvPolynomial σ R}

/-- **A product of two nonconstant polynomials** has the sum of their degrees. -/
theorem totalDegree_mul_pos (hp : 1 ≤ p.totalDegree) (hq : 1 ≤ q.totalDegree) :
    (p * q).totalDegree = p.totalDegree + q.totalDegree :=
  totalDegree_mul_of_isDomain (ne_zero_of_totalDegree_pos hp) (ne_zero_of_totalDegree_pos hq)

/-- **The arithmetic `or`** has the sum of the degrees: the product outweighs the sum. -/
theorem totalDegree_join (hp : 1 ≤ p.totalDegree) (hq : 1 ≤ q.totalDegree) :
    (p + q - p * q).totalDegree = p.totalDegree + q.totalDegree := by
  have hmul := totalDegree_mul_pos hp hq
  have hadd := totalDegree_add p q
  have hlt : (p + q).totalDegree < (p * q).totalDegree := by
    rw [hmul]
    omega
  rw [← neg_sub, totalDegree_neg, totalDegree_sub_of_lt hlt, hmul]

end Domain

end Vellum
