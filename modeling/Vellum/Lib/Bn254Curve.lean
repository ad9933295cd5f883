import Mathlib.Algebra.QuadraticAlgebra.Basic
import Mathlib.FieldTheory.Finite.Basic
import Vellum.Lib.Bn254

/-!
# The BN254 curves

The equations of the curve over the base field and of its sextic twist over the quadratic
extension. Both have odd order prime to 3, which shows in their affine points: no coordinate of one
is zero. So scaling a point by a third coordinate changes it, unless that coordinate is 1.

* `pow_residue`: a `k`-th power times a constant, raised to `(q - 1) / k`.
* `OnCurve.ne_zero`, `OnTwist.ne_zero`: no coordinate is zero.
* `eq_one_of_scaled`: the third coordinate of a point that it leaves alone.
-/

namespace Vellum

/-- `Fq[u] / (u^2 + 1)`. -/
abbrev ExtField := QuadraticAlgebra BaseField (-1) 0

/-- `y^2 = x^3 + 3`. -/
def OnCurve (x y : BaseField) : Prop := y ^ 2 = x ^ 3 + 3

/-- `9 + u`. -/
def twistFactor : ExtField := ⟨(9 : ℕ), 1⟩

/-- `y^2 = x^3 + 3 / (9 + u)`, multiplied out. -/
def OnTwist (x y : ExtField) : Prop := twistFactor * y ^ 2 = twistFactor * x ^ 3 + 3

/-! ## Residues -/

theorem pow_residue {c d a : BaseField} {k : ℕ} (hk : k ∣ bn254Base - 1) (ha : a ≠ 0) (h : c * a ^ k = d) :
    c ^ ((bn254Base - 1) / k) = d ^ ((bn254Base - 1) / k) := by
  have hfermat : a ^ (bn254Base - 1) = 1 := ZMod.pow_card_sub_one_eq_one ha
  rw [← h, mul_pow, ← pow_mul, Nat.mul_div_cancel' hk, hfermat, mul_one]

/-- An equation that a `k`-th power cannot satisfy. -/
theorem no_residue {c d : BaseField} {k : ℕ} (hk : k ∣ bn254Base - 1) (hk0 : k ≠ 0) (hd : d ≠ 0)
    (hne : c ^ ((bn254Base - 1) / k) ≠ d ^ ((bn254Base - 1) / k)) (a : BaseField) : c * a ^ k ≠ d := by
  intro h
  by_cases ha : a = 0
  · rw [ha, zero_pow hk0, mul_zero] at h
    exact hd h.symm
  · exact hne (pow_residue hk ha h)

theorem two_dvd_base : 2 ∣ bn254Base - 1 := by unfold bn254Base; norm_num

theorem three_dvd_base : 3 ∣ bn254Base - 1 := by unfold bn254Base; norm_num

theorem natCast_ne_zero {n : ℕ} (h0 : n ≠ 0) (h : n < 1000) : (n : BaseField) ≠ 0 := by
  have hq : 1000 < bn254Base := by unfold bn254Base; norm_num
  intro hn
  have hdvd := (ZMod.natCast_eq_zero_iff n bn254Base).1 hn
  have hle := Nat.le_of_dvd (by omega) hdvd
  omega

theorem three_ne_zero_base : (3 : BaseField) ≠ 0 := natCast_ne_zero (by norm_num) (by norm_num)

theorem sq_ne_neg_one (a : BaseField) : a ^ 2 ≠ -1 := by
  have h := @no_residue 1 (-1) 2 two_dvd_base (by norm_num) (neg_ne_zero.2 one_ne_zero)
    (by unfold BaseField bn254Base; norm_num only; reduce_mod_char; decide) a
  rwa [one_mul] at h

/-- The extension is a field. -/
instance : Fact (∀ a : BaseField, a ^ 2 ≠ -1 + 0 * a) :=
  ⟨fun a => by rw [zero_mul, add_zero]; exact sq_ne_neg_one a⟩

/-! ## No coordinate is zero -/

theorem OnCurve.ne_zero {x y : BaseField} (h : OnCurve x y) : x ≠ 0 ∧ y ≠ 0 := by
  have hsquare := @no_residue 1 3 2 two_dvd_base (by norm_num) three_ne_zero_base
    (by unfold BaseField bn254Base; norm_num only; reduce_mod_char; decide) y
  have hcube := @no_residue 1 (-3) 3 three_dvd_base (by norm_num) (neg_ne_zero.2 three_ne_zero_base)
    (by unfold BaseField bn254Base; norm_num only; reduce_mod_char; decide) x
  unfold OnCurve at h
  constructor
  · rintro rfl
    exact hsquare (by rw [one_mul, h]; ring)
  · rintro rfl
    exact hcube (by linear_combination -h)

theorem norm_twistFactor : QuadraticAlgebra.norm twistFactor = 82 := by
  rw [QuadraticAlgebra.norm_def, twistFactor]
  ring

theorem norm_three : QuadraticAlgebra.norm (3 : ExtField) = 9 := by
  have h := QuadraticAlgebra.norm_natCast (R := BaseField) (a := -1) (b := 0) 3
  rw [Nat.cast_ofNat] at h
  rw [h]
  norm_num

theorem OnTwist.ne_zero {x y : ExtField} (h : OnTwist x y) : x ≠ 0 ∧ y ≠ 0 := by
  have hnine : (9 : BaseField) ≠ 0 := natCast_ne_zero (by norm_num) (by norm_num)
  have hsquare := @no_residue 82 9 2 two_dvd_base (by norm_num) hnine
    (by unfold BaseField bn254Base; norm_num only; reduce_mod_char; decide) (QuadraticAlgebra.norm y)
  have hcube := @no_residue 82 9 3 three_dvd_base (by norm_num) hnine
    (by unfold BaseField bn254Base; norm_num only; reduce_mod_char; decide) (QuadraticAlgebra.norm x)
  unfold OnTwist at h
  -- the norm of an equation between a power and a constant is one in the base field
  constructor
  · rintro rfl
    have heq : twistFactor * y ^ 2 = 3 := by rw [h]; ring
    have hnorm := congrArg QuadraticAlgebra.norm heq
    rw [map_mul, map_pow, norm_twistFactor, norm_three] at hnorm
    exact hsquare hnorm
  · rintro rfl
    have heq : twistFactor * x ^ 3 = -3 := by linear_combination -h
    have hnorm := congrArg QuadraticAlgebra.norm heq
    rw [map_mul, map_pow, QuadraticAlgebra.norm_neg, norm_twistFactor, norm_three] at hnorm
    exact hcube hnorm

/-! ## Third coordinates -/

/-- How a third coordinate scales the first two: `(x / z, y / z)` or `(x / z^2, y / z^3)`. -/
inductive Projective where
  | homogeneous
  | jacobian
deriving DecidableEq, Repr

def Projective.weights : Projective → ℕ × ℕ
  | homogeneous => (1, 1)
  | jacobian => (2, 3)

/-- **Only 1 leaves a point without zeros alone.** -/
theorem eq_one_of_scaled {K : Type} [Field K] (c : Projective) {x y z : K} (hx : x ≠ 0) (hy : y ≠ 0)
    (h1 : x * z ^ c.weights.1 = x) (h2 : y * z ^ c.weights.2 = y) : z = 1 := by
  have hz1 : z ^ c.weights.1 = 1 := (mul_eq_left₀ hx).1 h1
  have hz2 : z ^ c.weights.2 = 1 := (mul_eq_left₀ hy).1 h2
  cases c with
  | homogeneous => simpa [Projective.weights] using hz1
  | jacobian =>
    dsimp only [Projective.weights] at hz1 hz2
    calc z = z ^ 2 * z := by rw [hz1, one_mul]
      _ = z ^ 3 := by ring
      _ = 1 := hz2

end Vellum
