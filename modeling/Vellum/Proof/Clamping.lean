import Vellum.Proof.CircomMeaning

/-!
# Comparators of balances out of range

No constraint keeps a balance below `2^32`, and a comparator bounds differences only. A balance
beyond the range, or below zero at the top of the field, still compares with most values as the
unsigned 32-bit balance next to it does.

* `lessThan_high`, `lessThan_of_high`: the top of the field is below zero.
* `comparator_clamp`: a comparator of such a balance, on either side.
-/

namespace Vellum

open Circomlib

/-- An element from the top of the field is the negative of a small natural. -/
theorem high_eq {x : F} (hx : fieldBound ≤ x.val) : ∃ d : ℕ, 1 ≤ d ∧ d ≤ 2 ^ 32 ∧ x = -(d : F) := by
  have hlt : x.val < bn254 := ZMod.val_lt x
  refine ⟨bn254 - x.val, by omega, ?_, ?_⟩
  · unfold fieldBound at hx
    omega
  · rw [Nat.cast_sub hlt.le, ZMod.natCast_self, ZMod.natCast_zmod_val, zero_sub, neg_neg]

theorem two_pow_40_le : 2 ^ 40 ≤ bn254 := by unfold bn254; norm_num

/-- It is below every unsigned 32-bit value, -/
theorem lessThan_high {x out : F} (hx : fieldBound ≤ x.val) {y : ℕ} (hy : y ≤ 2 ^ 32)
    (h : LessThan 32 x (y : F) out) : out = 1 := by
  obtain ⟨d, hpos, hd, rfl⟩ := high_eq hx
  have hp := two_pow_40_le
  obtain ⟨hrange, hout⟩ := (lessThan_iff two_pow_33_le).1 h
  by_cases hle : y + d ≤ 2 ^ 32
  · have hval : (-(d : F) + 2 ^ 32 - y).val = 2 ^ 32 - (y + d) := by
      rw [← ZMod.val_natCast_of_lt (n := bn254) (a := 2 ^ 32 - (y + d)) (by omega), Nat.cast_sub hle]
      push_cast
      ring_nf
    rw [hout, hval, if_pos (by omega)]
  · -- a difference below zero wraps above the range of the comparator
    have hval : (-(d : F) + 2 ^ 32 - y).val = bn254 - (y + d - 2 ^ 32) := by
      rw [← ZMod.val_natCast_of_lt (n := bn254) (a := bn254 - (y + d - 2 ^ 32)) (by omega),
        Nat.cast_sub (by omega), Nat.cast_sub (by omega), ZMod.natCast_self]
      push_cast
      ring_nf
    omega

/-- and no unsigned 32-bit value is below it or the next one. -/
theorem lessThan_of_high {x out : F} (hx : fieldBound ≤ x.val) {y k : ℕ} (hy : y < 2 ^ 32) (hk : k ≤ 1)
    (h : LessThan 32 (y : F) (x + k) out) : out = 0 := by
  obtain ⟨d, hpos, hd, rfl⟩ := high_eq hx
  have hp := two_pow_40_le
  have hval : ((y : F) + 2 ^ 32 - (-(d : F) + k)).val = y + 2 ^ 32 + d - k := by
    rw [← ZMod.val_natCast_of_lt (n := bn254) (a := y + 2 ^ 32 + d - k) (by omega), Nat.cast_sub (by omega)]
    push_cast
    ring_nf
  rw [((lessThan_iff two_pow_33_le).1 h).2, hval, if_neg (by omega)]

/-- A comparator with one operand twice. -/
theorem comparator_self {op : ComparisonOp} {x : F} (a : ℤ) {port : Port → F} (hl : port .lhs = x)
    (hr : port .rhs = x) (h : (primitiveComparatorTemplate op).Holds port) : port .out = bit (op.holds a a) := by
  have hp := two_pow_40_le
  have hval : ∀ n : ℕ, n < 2 ^ 40 → ((n : ℕ) : F).val = n := fun n hn => ZMod.val_natCast_of_lt (by omega)
  have hstrict : ∀ {out : F}, LessThan 32 x x out → out = 0 := by
    intro out hlt
    have hdiff : x + 2 ^ 32 - x = ((2 ^ 32 : ℕ) : F) := by
      push_cast
      ring
    rw [((lessThan_iff two_pow_33_le).1 hlt).2, hdiff, hval _ (by norm_num), if_neg (by omega)]
  have hweak : ∀ {out : F}, LessThan 32 x (x + 1) out → out = 1 := by
    intro out hlt
    have hdiff : x + 2 ^ 32 - (x + 1) = ((2 ^ 32 - 1 : ℕ) : F) := by
      rw [Nat.cast_sub (by norm_num)]
      push_cast
      ring
    rw [((lessThan_iff two_pow_33_le).1 hlt).2, hdiff, hval _ (by norm_num), if_pos (by omega)]
  cases op <;> simp only [primitiveComparatorTemplate, Template.Holds, hl, hr] at h <;>
    simp only [ComparisonOp.holds, bit_eq_ite, lt_irrefl, le_refl, if_true, if_false]
  case lt => exact hstrict h
  case gt => exact hstrict h
  case le => exact hweak h
  case ge => exact hweak h
  case eq => rw [isEqual_iff.1 h, if_pos rfl]

/-- The unsigned 32-bit balance next to a field element, which is negative at the top of the field. -/
def clampU32 (x : F) : ℤ := if x.val < 2 ^ 32 then x.val else if x.val < fieldBound then 2 ^ 32 - 1 else 0

theorem clampU32_u32 (x : F) : 0 ≤ clampU32 x ∧ clampU32 x < 2 ^ 32 := by
  unfold clampU32
  split_ifs <;> omega

/-- A balance that compares with `y` as an unsigned 32-bit one does: it is one, or what it is compared
with is not at the end of the range beyond which it lies. -/
def Compares (x : F) (y : ℤ) : Prop :=
  x.val < 2 ^ 32 ∨ (x.val < fieldBound ∧ y < 2 ^ 32 - 1) ∨ (fieldBound ≤ x.val ∧ 0 < y ∧ y < 2 ^ 32)

/-- **A comparator of such a balance** outputs the comparison with the balance next to it. -/
theorem comparator_clamp {op : ComparisonOp} {x : F} {y : ℤ} (hy : 0 ≤ y ∧ y < fieldBound) (hx : Compares x y)
    {port : Port → F} (hl : port .lhs = x) (hr : port .rhs = (y : F))
    (h : (primitiveComparatorTemplate op).Holds port) : port .out = bit (op.holds (clampU32 x) y) := by
  have hle := two_pow_32_le_fieldBound
  by_cases hlow : x.val < fieldBound
  · -- read as a natural, the element is on the same side of `y` as the balance next to it
    have hcast : port .lhs = ((x.val : ℤ) : F) := by rw [hl, Int.cast_natCast, ZMod.natCast_zmod_val]
    have hsound := comparator_sound ⟨Int.natCast_nonneg x.val, by exact_mod_cast hlow⟩ hy hcast hr h
    rw [hsound]
    by_cases hsmall : x.val < 2 ^ 32
    · rw [clampU32, if_pos hsmall]
    · have hside : y < 2 ^ 32 - 1 := by
        rcases hx with hx | hx | hx
        · exact absurd hx hsmall
        · exact hx.2
        · omega
      rw [clampU32, if_neg hsmall, if_pos hlow]
      congr 1
      have hbig : (2 ^ 32 : ℤ) ≤ x.val := by exact_mod_cast Nat.not_lt.1 hsmall
      cases op <;> simp only [ComparisonOp.holds, decide_eq_decide] <;> omega
  · have hhigh : fieldBound ≤ x.val := Nat.not_lt.1 hlow
    have hside : 0 < y ∧ y < 2 ^ 32 := by
      rcases hx with hx | hx | hx
      · omega
      · omega
      · exact hx.2
    obtain ⟨m, rfl⟩ := Int.eq_ofNat_of_zero_le hy.1
    have hm : m < 2 ^ 32 := by exact_mod_cast hside.2
    have hpos : 0 < m := by exact_mod_cast hside.1
    have hclamp : clampU32 x = 0 := by
      unfold clampU32
      rw [if_neg (by omega), if_neg hlow]
    push_cast at hr
    rw [hclamp]
    cases op <;> simp only [primitiveComparatorTemplate, Template.Holds, hl, hr] at h <;>
      simp only [ComparisonOp.holds, bit_eq_ite]
    case lt => rw [lessThan_high hhigh hm.le h, if_pos (by omega)]
    case gt =>
      have hsame : LessThan 32 (m : F) (x + (0 : ℕ)) (port .out) := by
        rw [Nat.cast_zero, add_zero]
        exact h
      rw [lessThan_of_high hhigh hm (by omega) hsame, if_neg (by omega)]
    case le =>
      have hnext : LessThan 32 x ((m + 1 : ℕ) : F) (port .out) := by
        rw [Nat.cast_succ]
        exact h
      rw [lessThan_high hhigh hm hnext, if_pos (by omega)]
    case ge =>
      have hnext : LessThan 32 (m : F) (x + (1 : ℕ)) (port .out) := by
        rw [Nat.cast_one]
        exact h
      rw [lessThan_of_high hhigh hm le_rfl hnext, if_neg (by omega)]
    case eq =>
      have hne : x ≠ (m : F) := by
        rintro rfl
        rw [ZMod.val_natCast_of_lt (by have := two_pow_40_le; omega)] at hhigh
        omega
      rw [isEqual_iff.1 h, if_neg hne, if_neg (by omega)]

/-- The comparison with its operands exchanged. -/
def ComparisonOp.flip : ComparisonOp → ComparisonOp
  | .lt => .gt
  | .gt => .lt
  | .le => .ge
  | .ge => .le
  | .eq => .eq

theorem comparator_clamp_right {op : ComparisonOp} {x : F} {y : ℤ} (hy : 0 ≤ y ∧ y < fieldBound) (hx : Compares x y)
    {port : Port → F} (hl : port .lhs = (y : F)) (hr : port .rhs = x)
    (h : (primitiveComparatorTemplate op).Holds port) : port .out = bit (op.holds y (clampU32 x)) := by
  set port' : Port → F := fun p => if p = .lhs then x else if p = .rhs then (y : F) else port p with hport
  have hholds : (primitiveComparatorTemplate op.flip).Holds port' := by
    cases op <;> simp only [primitiveComparatorTemplate, Template.Holds, hl, hr] at h
    case eq =>
      have hout := isEqual_iff.1 h
      simp only [eq_comm (b := x)] at hout
      exact isEqual_iff.2 hout
    all_goals exact h
  have hflip := @comparator_clamp op.flip x y hy hx port' rfl rfl hholds
  have hsame : op.flip.holds (clampU32 x) y = op.holds y (clampU32 x) := by
    cases op <;> simp only [ComparisonOp.flip, ComparisonOp.holds, eq_comm]
  rw [← hsame]
  exact hflip

end Vellum
