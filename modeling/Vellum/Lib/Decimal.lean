import Mathlib.Data.List.Induction
import Vellum.Lib.PyText

/-!
# Signed decimal integers

Texts of arbitrary-precision integers: a sign or none, then digits, which underscores may separate.
Many texts denote one integer; the plain ones are those without a sign, a separator and a
superfluous zero, and each natural number has one of them.

* `toDigits_ofDigitChars`: digits without a superfluous zero are those of their value.
* `plainNumeral_iff`: a text that is read is the numeral of its value iff it is plain.
-/

namespace Vellum

/-- Digits, which an underscore may follow. -/
def unsignedDecimal? : List Char → Option ℕ
  | [] => none
  | '_' :: _ => none
  | cs => if (cs.filter (· ≠ '_')).all Char.isDigit then some (Nat.ofDigitChars 10 (cs.filter (· ≠ '_')) 0) else none

def signedDecimal? : List Char → Option ℤ
  | '-' :: cs => (unsignedDecimal? cs).map fun n => -(n : ℤ)
  | '+' :: cs => (unsignedDecimal? cs).map Int.ofNat
  | cs => (unsignedDecimal? cs).map Int.ofNat

example : signedDecimal? "+1_000".toList = some 1000 ∧ signedDecimal? "-007".toList = some (-7) ∧
    signedDecimal? "-+7".toList = none ∧ signedDecimal? "_7".toList = none := by decide +kernel

/-- No sign, no separator, no superfluous zero. -/
def plainNumeral (cs : List Char) : Bool :=
  cs.head? ≠ some '-' ∧ cs.head? ≠ some '+' ∧ '_' ∉ cs ∧ (cs.head? = some '0' → cs = ['0'])

/-! ## Numerals of natural numbers -/

theorem digitChar_toNat {c : Char} (h : c.isDigit = true) : Nat.digitChar (c.toNat - 48) = c := by
  have hrange := digit_range h
  have hlt : c.toNat - 48 < 10 := by omega
  apply Char.toNat_inj.1
  rw [Nat.toNat_digitChar_of_lt_ten hlt]
  omega

/-- **A numeral without a superfluous zero is that of its value.** By induction from its end: only
a lone digit may be zero. -/
theorem toDigits_ofDigitChars {cs : List Char} (hne : cs ≠ []) (hd : cs.all Char.isDigit = true)
    (hz : cs.head? = some '0' → cs = ['0']) : Nat.toDigits 10 (Nat.ofDigitChars 10 cs 0) = cs := by
  induction cs using List.reverseRecOn with
  | nil => exact absurd rfl hne
  | append_singleton cs c ih =>
    rw [List.all_append, Bool.and_eq_true] at hd
    have hc : c.isDigit = true := by simpa using hd.2
    have hrange := digit_range hc
    have hlt : c.toNat - 48 < 10 := by omega
    have hval : Nat.ofDigitChars 10 (cs ++ [c]) 0 = 10 * Nat.ofDigitChars 10 cs 0 + (c.toNat - 48) := by
      rw [Nat.ofDigitChars_append, Nat.ofDigitChars_cons, Nat.ofDigitChars_nil]
      rfl
    have hlast : Nat.toDigits 10 (c.toNat - 48) = [c] := by
      rw [Nat.toDigits_of_lt_base hlt, digitChar_toNat hc]
    by_cases hnil : cs = []
    · subst hnil
      rw [hval, Nat.ofDigitChars_nil, Nat.mul_zero, Nat.zero_add, hlast]
      rfl
    · have hhead : (cs ++ [c]).head? = cs.head? := List.head?_append_of_ne_nil _ hnil
      -- the digits before the last start with no zero at all
      have hz' : cs.head? ≠ some '0' := by
        intro h0
        have hlen := congrArg List.length (hz (hhead.trans h0))
        rw [List.length_append, List.length_singleton, List.length_singleton] at hlen
        have hpos : 0 < cs.length := List.length_pos_iff.2 hnil
        omega
      have hrec := ih hnil hd.1 fun h0 => absurd h0 hz'
      have hpos : 0 < Nat.ofDigitChars 10 cs 0 := by
        rcases Nat.eq_zero_or_pos (Nat.ofDigitChars 10 cs 0) with h0 | hpos
        · rw [h0, Nat.toDigits_zero] at hrec
          rw [← hrec] at hz'
          exact absurd rfl hz'
        · exact hpos
      rw [hval, ← Nat.toDigits_append_toDigits (by norm_num) hpos hlt, hrec, hlast]

theorem toDigits_head_zero {n : ℕ} (h : (Nat.toDigits 10 n).head? = some '0') : n = 0 := by
  induction n using Nat.strong_induction_on with
  | _ n ih =>
    rw [Nat.toDigits_eq_if (by norm_num)] at h
    split_ifs at h with hlt
    · simpa using h
    · rw [List.head?_append_of_ne_nil _ Nat.toDigits_ne_nil] at h
      have := ih (n / 10) (by omega) h
      omega

theorem toDigits_plain (n : ℕ) : plainNumeral (Nat.toDigits 10 n) = true := by
  have hdigit : ∀ c, (Nat.toDigits 10 n).head? = some c → c.isDigit = true := fun c hc =>
    Nat.isDigit_of_mem_toDigits (by decide) (by decide) (List.mem_of_mem_head? hc)
  unfold plainNumeral
  rw [decide_eq_true_eq]
  refine ⟨?_, ?_, Nat.underscore_not_in_toDigits, ?_⟩
  · intro h
    exact absurd (hdigit _ h) (by decide)
  · intro h
    exact absurd (hdigit _ h) (by decide)
  · intro h
    rw [toDigits_head_zero h, Nat.toDigits_zero]

/-! ## Reading -/

theorem signedDecimal?_unsigned {cs : List Char} (h1 : cs.head? ≠ some '-') (h2 : cs.head? ≠ some '+') :
    signedDecimal? cs = (unsignedDecimal? cs).map Int.ofNat := by
  unfold signedDecimal?
  split
  · simp at h1
  · simp at h2
  · rfl

theorem unsignedDecimal?_digits {cs : List Char} (hne : cs ≠ []) (h : '_' ∉ cs) :
    unsignedDecimal? cs = if cs.all Char.isDigit then some (Nat.ofDigitChars 10 cs 0) else none := by
  have hfilter : cs.filter (· ≠ '_') = cs := by
    rw [List.filter_eq_self]
    intro c hc
    rw [decide_eq_true_eq]
    rintro rfl
    exact h hc
  unfold unsignedDecimal?
  split
  · exact absurd rfl hne
  · simp at h
  · rw [hfilter]

/-- A numeral reads as its number. -/
theorem signedDecimal?_toDigits (n : ℕ) : signedDecimal? (Nat.toDigits 10 n) = some (n : ℤ) := by
  have hplain := toDigits_plain n
  unfold plainNumeral at hplain
  rw [decide_eq_true_eq] at hplain
  obtain ⟨h1, h2, h3, -⟩ := hplain
  have hd : (Nat.toDigits 10 n).all Char.isDigit = true :=
    List.all_eq_true.2 fun c hc => Nat.isDigit_of_mem_toDigits (by decide) (by decide) hc
  rw [signedDecimal?_unsigned h1 h2, unsignedDecimal?_digits Nat.toDigits_ne_nil h3, if_pos hd,
    Nat.ofDigitChars_ten_toDigits]
  rfl

/-- **The plain texts are the numerals.** -/
theorem plainNumeral_iff {cs : List Char} {i : ℤ} (h : signedDecimal? cs = some i) :
    plainNumeral cs = true ↔ ∃ n : ℕ, i = n ∧ cs = Nat.toDigits 10 n := by
  constructor
  · intro hplain
    unfold plainNumeral at hplain
    rw [decide_eq_true_eq] at hplain
    obtain ⟨h1, h2, h3, h4⟩ := hplain
    have hne : cs ≠ [] := by
      rintro rfl
      cases h
    rw [signedDecimal?_unsigned h1 h2, unsignedDecimal?_digits hne h3] at h
    split_ifs at h with hd
    · refine ⟨_, (Option.some.inj h).symm, ?_⟩
      exact (toDigits_ofDigitChars hne hd h4).symm
    · cases h
  · rintro ⟨n, -, rfl⟩
    exact toDigits_plain n

end Vellum
