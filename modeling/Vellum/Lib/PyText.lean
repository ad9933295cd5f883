import Mathlib.Algebra.Order.Field.Rat
import Mathlib.Data.Int.Log
import Mathlib.Data.Rat.Floor
import Vellum.Lib.Dict
import Vellum.Lib.Json

/-!
# Python's numbers and texts of decoded values

`int(text)`, `int(value)`, `str(value)` and `==` on decoded JSON values. A float is the
binary64 number its text denotes. The text of a container, `repr`, is a parameter: it
depends on the Unicode tables of printable characters.
-/

namespace Vellum

/-! ## `int` of a text -/

/-- The zeros of the decimal digits of every script. -/
def decimalZeros : List ℕ :=
  [0x30, 0x660, 0x6f0, 0x7c0, 0x966, 0x9e6, 0xa66, 0xae6, 0xb66, 0xbe6, 0xc66, 0xce6, 0xd66, 0xde6, 0xe50, 0xed0,
    0xf20, 0x1040, 0x1090, 0x17e0, 0x1810, 0x1946, 0x19d0, 0x1a80, 0x1a90, 0x1b50, 0x1bb0, 0x1c40, 0x1c50, 0xa620,
    0xa8d0, 0xa900, 0xa9d0, 0xa9f0, 0xaa50, 0xabf0, 0xff10, 0x104a0, 0x10d30, 0x11066, 0x110f0, 0x11136, 0x111d0,
    0x112f0, 0x11450, 0x114d0, 0x11650, 0x116c0, 0x11730, 0x118e0, 0x11950, 0x11c50, 0x11d50, 0x11da0, 0x16a60,
    0x16b50, 0x1d7ce, 0x1d7d8, 0x1d7e2, 0x1d7ec, 0x1d7f6, 0x1e140, 0x1e2f0, 0x1e950, 0x1fbf0]

/-- The value of a decimal digit. -/
def decimalDigit? (c : Char) : Option ℕ :=
  (decimalZeros.find? fun z => z ≤ c.toNat ∧ c.toNat < z + 10).map fun z => c.toNat - z

/-- Digits, a single underscore allowed between two of them, after `acc`. -/
def decimalDigits? (acc : List ℕ) : List Char → Option (List ℕ)
  | [] => some acc
  | '_' :: c :: cs => (decimalDigit? c).bind fun d => decimalDigits? (acc ++ [d]) cs
  | c :: cs => (decimalDigit? c).bind fun d => decimalDigits? (acc ++ [d]) cs

def ofDigits (ds : List ℕ) : ℕ := ds.foldl (fun n d => 10 * n + d) 0

/-- The longest numeral `int` reads. -/
def maxStrDigits : ℕ := 4300

/-- A numeral without its sign. -/
def natText? : List Char → Option ℕ
  | [] => none
  | '_' :: _ => none
  | cs => (decimalDigits? [] cs).bind fun ds => if maxStrDigits < ds.length then none else some (ofDigits ds)

/-- `int(text)`; none is a `ValueError`. -/
def pyInt? (text : String) : Option ℤ :=
  match (strip text).toList with
  | '-' :: cs => (natText? cs).map fun n => -(n : ℤ)
  | '+' :: cs => (natText? cs).map Int.ofNat
  | cs => (natText? cs).map Int.ofNat

example : pyInt? " +1_000 " = some 1000 ∧ pyInt? "1__0" = none ∧ pyInt? "" = none := by decide +kernel

/-! ### The text of a natural number -/

theorem digit_range {c : Char} (h : c.isDigit = true) : 48 ≤ c.toNat ∧ c.toNat < 58 := by
  simp only [Char.isDigit, Bool.and_eq_true, decide_eq_true_eq, ge_iff_le] at h
  have h1 := UInt32.le_iff_toNat_le.1 h.1
  have h2 := UInt32.le_iff_toNat_le.1 h.2
  exact ⟨h1, Nat.lt_succ_of_le h2⟩

theorem decimalDigit?_digit {c : Char} (h : c.isDigit = true) : decimalDigit? c = some (c.toNat - 48) := by
  have hrange := digit_range h
  have hfind : (decimalZeros.find? fun z => z ≤ c.toNat ∧ c.toNat < z + 10) = some 0x30 := by
    unfold decimalZeros
    rw [List.find?_cons_of_pos]
    simpa using hrange
  rw [decimalDigit?, hfind]
  rfl

theorem decimalDigits?_digits : ∀ {cs : List Char} (acc : List ℕ), cs.all Char.isDigit = true →
    decimalDigits? acc cs = some (acc ++ cs.map fun c => c.toNat - 48) := by
  intro cs
  induction cs with
  | nil => intro acc _; simp [decimalDigits?]
  | cons c cs ih =>
    intro acc h
    rw [List.all_cons, Bool.and_eq_true] at h
    have hc : c ≠ '_' := by
      rintro rfl
      exact absurd h.1 (by decide)
    rw [decimalDigits?.eq_3 _ _ _ (by intro _ _ h' _; exact hc h'), decimalDigit?_digit h.1, Option.bind_some, ih _ h.2]
    simp

theorem ofDigits_map (cs : List Char) : ofDigits (cs.map fun c => c.toNat - 48) = Nat.ofDigitChars 10 cs 0 := by
  rw [ofDigits, List.foldl_map, Nat.ofDigitChars]
  rfl

/-- A digit is no white space. -/
theorem isSpace_digit {c : Char} (h : c.isDigit = true) : isSpace c = false := by
  have hrange := digit_range h
  simp only [isSpace, Bool.or_eq_false_iff, Bool.and_eq_false_imp, decide_eq_true_eq, decide_eq_false_iff_not]
  omega

theorem strip_digits {s : String} (h : s.toList.all Char.isDigit = true) : strip s = s := by
  have hdrop : ∀ l : List Char, l.all Char.isDigit = true → l.dropWhile isSpace = l := by
    intro l hl
    cases l with
    | nil => rfl
    | cons c cs =>
      rw [List.all_cons, Bool.and_eq_true] at hl
      rw [List.dropWhile_cons_of_neg]
      rw [isSpace_digit hl.1]
      exact Bool.false_ne_true
  rw [strip, hdrop _ h, hdrop _ (by rwa [List.all_reverse]), List.reverse_reverse, String.ofList_toList]

/-- **`int` reads back the text of a natural number.** -/
theorem pyInt?_repr {n : ℕ} (h : n < 10 ^ maxStrDigits) : pyInt? n.repr = some (n : ℤ) := by
  have hdigits : n.repr.toList.all Char.isDigit = true := by
    rw [Nat.toList_repr, List.all_eq_true]
    intro c hc
    exact Nat.isDigit_of_mem_toDigits (by decide) (by decide) hc
  have hlen : n.repr.toList.length ≤ maxStrDigits := by
    rw [Nat.toList_repr, Nat.length_toDigits_le_iff (by decide) (by decide)]
    exact h
  have hne : n.repr.toList ≠ [] := by
    rw [Nat.toList_repr]
    exact Nat.toDigits_ne_nil
  have hval : Nat.ofDigitChars 10 n.repr.toList 0 = n := by
    rw [Nat.toList_repr, Nat.ofDigitChars_ten_toDigits]
  rw [pyInt?, strip_digits hdigits]
  generalize n.repr.toList = cs at hdigits hlen hne hval
  cases cs with
  | nil => exact absurd rfl hne
  | cons c cs =>
    have hc := (Bool.and_eq_true _ _ ▸ List.all_cons ▸ hdigits : c.isDigit = true ∧ _).1
    have h1 : c ≠ '-' := by rintro rfl; exact absurd hc (by decide)
    have h2 : c ≠ '+' := by rintro rfl; exact absurd hc (by decide)
    have h3 : c ≠ '_' := by rintro rfl; exact absurd hc (by decide)
    have hnat : natText? (c :: cs) = some n := by
      rw [natText?.eq_3 _ (by simp) (by intro _ h'; exact h3 (List.cons.inj h').1), decimalDigits?_digits _ hdigits,
        Option.bind_some, List.nil_append, List.length_map, if_neg (by omega), ofDigits_map, hval]
    split
    · next h' => exact absurd (List.cons.inj h').1 h1
    · next h' => exact absurd (List.cons.inj h').1 h2
    · rw [hnat]
      rfl

/-! ## Floats -/

/-- The value of a float. -/
inductive FloatValue where
  | nan
  | inf (negative : Bool)
  | fin (q : ℚ)

/-- The nearest integer, ties to even. -/
def roundHalfEven (q : ℚ) : ℤ :=
  if q - ⌊q⌋ < 1 / 2 ∨ (q - ⌊q⌋ = 1 / 2 ∧ ⌊q⌋ % 2 = 0) then ⌊q⌋ else ⌊q⌋ + 1

/-- The binary64 number nearest to a decimal one. -/
def toBinary64 (q : ℚ) : ℚ :=
  if q = 0 then 0
  else
    let e : ℤ := max (Int.log 2 q - 52) (-1074)
    roundHalfEven (q / 2 ^ e) * 2 ^ e

/-- The decimal number of a text without its sign. -/
def decimalOf (text : List Char) : ℚ :=
  let mantissa := text.takeWhile (· ≠ 'e')
  let exponent := (text.dropWhile (· ≠ 'e')).drop 1
  let whole := mantissa.takeWhile (· ≠ '.')
  let fraction := (mantissa.dropWhile (· ≠ '.')).drop 1
  let digits := ofDigits ((whole ++ fraction).filterMap decimalDigit?)
  digits * 10 ^ ((pyInt? (String.ofList exponent)).getD 0 - fraction.length)

/-- The number a float's text denotes. -/
def PyFloat.value (f : PyFloat) : FloatValue :=
  let (negative, text) := match f.text with | '-' :: cs => (true, cs) | cs => (false, cs)
  if text = "NaN".toList then .nan
  else if text = "Infinity".toList then .inf negative
  else .fin (if negative then -toBinary64 (decimalOf text) else toBinary64 (decimalOf text))

/-! ## Decoded values -/

namespace Json

/-- The number a value is, booleans included. -/
def number? : Json → Option FloatValue
  | bool b => some (.fin (if b then 1 else 0))
  | int i => some (.fin i)
  | float f => some f.value
  | _ => none

/-- `==` on numbers. -/
def numberEq (a b : Json) : Bool :=
  match a.number?, b.number? with
  | some (.fin x), some (.fin y) => x = y
  | some (.inf x), some (.inf y) => x = y
  | _, _ => false

mutual

/-- `a == b`. -/
def pyEq : Json → Json → Bool
  | null, null => true
  | str a, str b => a = b
  | arr items, arr items' => pyEqItems items items'
  | obj fields, obj fields' => fields.length = fields'.length && pyEqFields fields fields'
  | a, b => numberEq a b

def pyEqItems : List Json → List Json → Bool
  | [], [] => true
  | a :: as, b :: bs => pyEq a b && pyEqItems as bs
  | _, _ => false

/-- Every field has an equal one under its key. -/
def pyEqFields : List (String × Json) → List (String × Json) → Bool
  | [], _ => true
  | (k, v) :: fields, fields' =>
    (match fields'.lookup k with
      | some v' => pyEq v v'
      | none => false) && pyEqFields fields fields'

end

/-- `str(value)`. -/
def pyStr (repr : Json → String) : Json → String
  | null => "None"
  | bool b => if b then "True" else "False"
  | int i => i.repr
  | float f => match f.value with
    | .nan => "nan"
    | .inf negative => if negative then "-inf" else "inf"
    | .fin _ => String.ofList f.text
  | str s => s
  | j => repr j

end Json

end Vellum
