import Mathlib.Algebra.BigOperators.Intervals
import Mathlib.Algebra.Field.ZMod
import Mathlib.Tactic.Positivity
import Mathlib.Tactic.Ring

/-!
# circomlib's comparators as constraints

The templates of `circomlib/circuits/comparators.circom` (and the `Num2Bits` they
use), each as the relation its constraints define between inputs and output.
Witness hints (`<--`) constrain nothing and are not modelled: internal signals are
existential.

* `lessThan_iff`: what `LessThan(n)` says of arbitrary field elements. Only the
  shifted difference is range checked, never the operands.
* `lessThan_nat`: on operands whose difference is below `2^n`, it is `<`.
* `between_iff`: a lower and an upper bound together hold of the elements between them.
* `isEqual_iff`: `IsEqual` is equality of field elements.
-/

namespace Vellum.Circomlib

open Finset

variable {p : ℕ}

/-- `Num2Bits(n)`: `out` are bits whose weighted sum is `x`. -/
def Num2Bits (n : ℕ) (x : ZMod p) (out : ℕ → ZMod p) : Prop :=
  (∀ i < n, out i * (out i - 1) = 0) ∧ ∑ i ∈ range n, out i * 2 ^ i = x

/-- `LessThan(n)`: decompose `a + 2^n - b` into `n + 1` bits; the top bit is `a ≥ b`. -/
def LessThan (n : ℕ) (a b out : ZMod p) : Prop :=
  ∃ bits, Num2Bits (n + 1) (a + 2 ^ n - b) bits ∧ out = 1 - bits n

def LessEqThan (n : ℕ) (a b out : ZMod p) : Prop := LessThan n a (b + 1) out

def GreaterThan (n : ℕ) (a b out : ZMod p) : Prop := LessThan n b a out

def GreaterEqThan (n : ℕ) (a b out : ZMod p) : Prop := LessThan n b (a + 1) out

def IsZero (x out : ZMod p) : Prop := ∃ inv, out = -x * inv + 1 ∧ x * out = 0

def IsEqual (a b out : ZMod p) : Prop := IsZero (b - a) out

variable [Fact p.Prime]

theorem bit_cases {b : ZMod p} (h : b * (b - 1) = 0) : b = 0 ∨ b = 1 :=
  (mul_eq_zero.1 h).imp id sub_eq_zero.1

/-- Bits sum to a natural number below `2^n`. -/
theorem bits_nat {out : ℕ → ZMod p} : ∀ n, (∀ i < n, out i * (out i - 1) = 0) →
    ∃ m : ℕ, m < 2 ^ n ∧ ∑ i ∈ range n, out i * 2 ^ i = (m : ZMod p) := by
  intro n
  induction n with
  | zero => intro _; exact ⟨0, by simp, by simp⟩
  | succ n ih =>
    intro h
    obtain ⟨m, hm, hs⟩ := ih fun i hi => h i (by omega)
    rw [sum_range_succ, hs]
    rcases bit_cases (h n (by omega)) with hb | hb
    · exact ⟨m, by rw [pow_succ]; omega, by simp [hb]⟩
    · exact ⟨m + 2 ^ n, by rw [pow_succ]; omega, by push_cast [hb]; ring⟩

/-- The binary digits of `v` sum to `v mod 2^n`. -/
theorem digits_sum (v : ℕ) : ∀ n,
    ∑ i ∈ range n, ((v / 2 ^ i % 2 : ℕ) : ZMod p) * 2 ^ i = ((v % 2 ^ n : ℕ) : ZMod p) := by
  intro n
  induction n with
  | zero => simp [Nat.mod_one]
  | succ n ih => rw [sum_range_succ, ih, Nat.mod_pow_succ]; push_cast; ring

theorem digit_bit (v i : ℕ) :
    ((v / 2 ^ i % 2 : ℕ) : ZMod p) * (((v / 2 ^ i % 2 : ℕ) : ZMod p) - 1) = 0 := by
  rcases Nat.mod_two_eq_zero_or_one (v / 2 ^ i) with h | h <;> simp [h]

/-- **The comparator on arbitrary field elements.** Its constraints bound the shifted
difference and nothing else; the output tells whether that difference is below `2^n`. -/
theorem lessThan_iff {n : ℕ} (hn : 2 ^ (n + 1) ≤ p) {a b out : ZMod p} :
    LessThan n a b out ↔ (a + 2 ^ n - b).val < 2 ^ (n + 1) ∧
      out = if (a + 2 ^ n - b).val < 2 ^ n then 1 else 0 := by
  have hpow : (2 : ℕ) ^ (n + 1) = 2 ^ n + 2 ^ n := by rw [pow_succ]; omega
  constructor
  · rintro ⟨bits, ⟨hbits, hsum⟩, rfl⟩
    obtain ⟨m, hm, hs⟩ := bits_nat n fun i hi => hbits i (by omega)
    rw [sum_range_succ, hs] at hsum
    -- the lower bits sum to `m < 2^n`, and the top bit says whether `2^n` is added
    rcases bit_cases (hbits n (by omega)) with hb | hb
    · have hv : (a + 2 ^ n - b).val = m := by
        rw [← hsum, hb, zero_mul, add_zero, ZMod.val_natCast_of_lt (by omega)]
      exact ⟨by omega, by rw [hv, if_pos hm, hb, sub_zero]⟩
    · have hv : (a + 2 ^ n - b).val = m + 2 ^ n := by
        rw [← hsum, hb, one_mul, ← ZMod.val_natCast_of_lt (n := p) (a := m + 2 ^ n) (by omega)]
        push_cast; rfl
      exact ⟨by omega, by rw [hv, if_neg (by omega), hb, sub_self]⟩
  · rintro ⟨hlt, rfl⟩
    set v := (a + 2 ^ n - b).val with hv
    refine ⟨fun i => ((v / 2 ^ i % 2 : ℕ) : ZMod p), ⟨fun i _ => digit_bit v i, ?_⟩, ?_⟩
    · rw [digits_sum, Nat.mod_eq_of_lt hlt, hv, ZMod.natCast_zmod_val]
    · -- the top digit of a number below `2^(n+1)`
      by_cases h : v < 2 ^ n
      · simp [h, Nat.div_eq_of_lt h]
      · have : v / 2 ^ n = 1 := by
          rw [Nat.div_eq_iff (by positivity)]; constructor <;> omega
        simp [h, this]

/-- **A comparator has one output.** -/
theorem lessThan_unique {n : ℕ} (hn : 2 ^ (n + 1) ≤ p) {a b out out' : ZMod p} (h : LessThan n a b out)
    (h' : LessThan n a b out') : out = out' := by
  obtain ⟨-, hout⟩ := (lessThan_iff hn).1 h
  obtain ⟨-, hout'⟩ := (lessThan_iff hn).1 h'
  rw [hout, hout']

/-- A natural difference that does not wrap is read back by `val`. -/
theorem val_shift_sub {n a b : ℕ} (h1 : b ≤ a + 2 ^ n) (h2 : a + 2 ^ n - b < p) :
    ((a : ZMod p) + 2 ^ n - b).val = a + 2 ^ n - b := by
  rw [← ZMod.val_natCast_of_lt (n := p) (a := a + 2 ^ n - b) h2, Nat.cast_sub h1]
  push_cast; rfl

/-- **The comparator on nearby naturals** is `<`. -/
theorem lessThan_nat {n a b : ℕ} {out : ZMod p} (hn : 2 ^ (n + 1) ≤ p) (h1 : b ≤ a + 2 ^ n)
    (h2 : a < b + 2 ^ n) : LessThan n (a : ZMod p) b out ↔ out = if a < b then 1 else 0 := by
  have hpow : (2 : ℕ) ^ (n + 1) = 2 ^ n + 2 ^ n := by rw [pow_succ]; omega
  rw [lessThan_iff hn, val_shift_sub h1 (by omega), and_iff_right (by omega)]
  simp only [show a + 2 ^ n - b < 2 ^ n ↔ a < b by omega]

theorem greaterThan_nat {n a b : ℕ} {out : ZMod p} (hn : 2 ^ (n + 1) ≤ p) (h1 : a ≤ b + 2 ^ n)
    (h2 : b < a + 2 ^ n) : GreaterThan n (a : ZMod p) b out ↔ out = if b < a then 1 else 0 :=
  lessThan_nat hn h1 h2

theorem lessEqThan_nat {n a b : ℕ} {out : ZMod p} (hn : 2 ^ (n + 1) ≤ p) (h1 : b < a + 2 ^ n)
    (h2 : a ≤ b + 2 ^ n) : LessEqThan n (a : ZMod p) b out ↔ out = if a ≤ b then 1 else 0 := by
  have h : LessThan n (a : ZMod p) (b + 1 : ℕ) out ↔ _ := lessThan_nat hn (by omega) (by omega)
  simpa [LessEqThan, Nat.lt_succ_iff] using h

theorem greaterEqThan_nat {n a b : ℕ} {out : ZMod p} (hn : 2 ^ (n + 1) ≤ p) (h1 : a < b + 2 ^ n)
    (h2 : b ≤ a + 2 ^ n) : GreaterEqThan n (a : ZMod p) b out ↔ out = if b ≤ a then 1 else 0 :=
  lessEqThan_nat hn h1 h2

/-- **The comparator on naturals anywhere in the lower part of the field** is `<` wherever its
constraints can be met: a difference that wraps leaves the range of the decomposition. -/
theorem lessThan_sound {n a b : ℕ} {out : ZMod p} (hn : 2 ^ (n + 1) ≤ p) (ha : a + 2 ^ n < p)
    (hb : b + 2 ^ n ≤ p) (h : LessThan n (a : ZMod p) b out) : out = if a < b then 1 else 0 := by
  have hpow : (2 : ℕ) ^ (n + 1) = 2 ^ n + 2 ^ n := by rw [pow_succ]; omega
  obtain ⟨h1, h2⟩ := (lessThan_iff hn).1 h
  by_cases hab : b ≤ a + 2 ^ n
  · rw [h2, val_shift_sub hab (by omega)]
    simp only [show a + 2 ^ n - b < 2 ^ n ↔ a < b by omega]
  · -- the difference wraps to a value far above the range, against the constraint
    have hv : ((a : ZMod p) + 2 ^ n - b).val = a + 2 ^ n + p - b := by
      rw [← ZMod.val_natCast_of_lt (n := p) (a := a + 2 ^ n + p - b) (by omega), Nat.cast_sub (by omega)]
      push_cast; rw [ZMod.natCast_self]; simp
    omega

theorem lessEqThan_sound {n a b : ℕ} {out : ZMod p} (hn : 2 ^ (n + 1) ≤ p) (ha : a + 2 ^ n < p)
    (hb : b + 2 ^ n < p) (h : LessEqThan n (a : ZMod p) b out) : out = if a ≤ b then 1 else 0 := by
  have h' : LessThan n (a : ZMod p) ((b + 1 : ℕ) : ZMod p) out := by
    rw [Nat.cast_succ]
    exact h
  simpa [Nat.lt_succ_iff] using lessThan_sound hn ha (by omega) h'

/-- A comparator with the output one. -/
theorem lessThan_one {n : ℕ} (hn : 2 ^ (n + 1) ≤ p) {a b : ZMod p} :
    LessThan n a b 1 ↔ (a + 2 ^ n - b).val < 2 ^ n := by
  have hpow : (2 : ℕ) ^ (n + 1) = 2 ^ n + 2 ^ n := by rw [pow_succ]; omega
  rw [lessThan_iff hn]
  constructor
  · rintro ⟨-, h⟩
    by_contra hge
    rw [if_neg hge] at h
    exact one_ne_zero h
  · intro h
    exact ⟨by omega, (if_pos h).symm⟩

/-- A lower bound holds of the next `2^n` elements only: the field does not end there. -/
theorem greaterEqThan_one {n lo : ℕ} (hn : lo + 2 ^ (n + 1) ≤ p) {x : ZMod p} (h : GreaterEqThan n x lo 1) :
    lo ≤ x.val ∧ x.val < lo + 2 ^ n := by
  have hpow : (2 : ℕ) ^ (n + 1) = 2 ^ n + 2 ^ n := by rw [pow_succ]; omega
  have hv := (lessThan_one (by omega)).1 h
  set v := ((lo : ZMod p) + 2 ^ n - (x + 1)).val with hdef
  -- the element is what is left of the bound
  have hx : x = ((lo + 2 ^ n - 1 - v : ℕ) : ZMod p) := by
    have hcast : (v : ZMod p) = lo + 2 ^ n - (x + 1) := by rw [hdef, ZMod.natCast_zmod_val]
    rw [Nat.cast_sub (by omega), Nat.cast_sub (by omega), hcast]
    push_cast
    ring
  rw [hx, ZMod.val_natCast_of_lt (by omega)]
  omega

/-- **Two comparators bound an element**: with both outputs one, the canonical representative is
between the bounds, and every such element has them. -/
theorem between_iff {n lo hi : ℕ} (hn : lo + 2 ^ (n + 1) ≤ p) (hlo : lo < 2 ^ n) (hhi : hi < 2 ^ n) {x : ZMod p} :
    GreaterEqThan n x lo 1 ∧ LessEqThan n x hi 1 ↔ lo ≤ x.val ∧ x.val ≤ hi := by
  have hpow : (2 : ℕ) ^ (n + 1) = 2 ^ n + 2 ^ n := by rw [pow_succ]; omega
  have hx : ((x.val : ℕ) : ZMod p) = x := ZMod.natCast_zmod_val x
  constructor
  · rintro ⟨hge, hle⟩
    obtain ⟨h1, h2⟩ := greaterEqThan_one hn hge
    refine ⟨h1, ?_⟩
    rw [← hx] at hle
    by_contra hgt
    -- the lower bound keeps the element where the upper one is sound
    have hsound := lessEqThan_sound (by omega) (by omega) (by omega) hle
    rw [if_neg hgt] at hsound
    exact one_ne_zero hsound
  · rintro ⟨h1, h2⟩
    rw [← hx]
    refine ⟨(greaterEqThan_nat (by omega) (by omega) (by omega)).2 (if_pos h1).symm, ?_⟩
    exact (lessEqThan_nat (by omega) (by omega) (by omega)).2 (if_pos h2).symm

theorem isZero_iff {x out : ZMod p} : IsZero x out ↔ out = if x = 0 then 1 else 0 := by
  constructor
  · rintro ⟨inv, h1, h2⟩
    by_cases hx : x = 0
    · simp [h1, hx]
    · rw [if_neg hx]; exact (mul_eq_zero.1 h2).resolve_left hx
  · rintro rfl
    by_cases hx : x = 0
    · exact ⟨0, by simp [hx], by simp [hx]⟩
    · exact ⟨x⁻¹, by simp [hx], by simp [hx]⟩

/-- **`IsEqual` is equality in the field.** -/
theorem isEqual_iff {a b out : ZMod p} : IsEqual a b out ↔ out = if a = b then 1 else 0 := by
  rw [IsEqual, isZero_iff]
  simp only [sub_eq_zero, eq_comm (a := b)]

theorem isEqual_unique {a b out out' : ZMod p} (h : IsEqual a b out) (h' : IsEqual a b out') : out = out' := by
  rw [isEqual_iff.1 h, isEqual_iff.1 h']

/-- Naturals below the modulus are equal in the field only when they are equal. -/
theorem isEqual_nat {a b : ℕ} {out : ZMod p} (ha : a < p) (hb : b < p) :
    IsEqual (a : ZMod p) b out ↔ out = if a = b then 1 else 0 := by
  have hab : (a : ZMod p) = b ↔ a = b := by
    refine ⟨fun h => ?_, fun h => by rw [h]⟩
    have := congrArg ZMod.val h
    rwa [ZMod.val_natCast_of_lt ha, ZMod.val_natCast_of_lt hb] at this
  rw [isEqual_iff]
  simp only [hab]

end Vellum.Circomlib
