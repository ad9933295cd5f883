import Mathlib.Tactic.Common

/-!
# UTC timestamps

`datetime` values in UTC by their fields, with the text `isoformat` gives them.
`isoformat_inj`: the text of a timestamp without microseconds determines it.
-/

namespace Vellum

/-- A `datetime` in UTC. -/
structure DateTime where
  year : ℕ
  month : ℕ
  day : ℕ
  hour : ℕ
  minute : ℕ
  second : ℕ
  microsecond : ℕ
  yearLe : year ≤ 9999
  monthLe : month ≤ 12
  dayLe : day ≤ 31
  hourLt : hour < 24
  minuteLt : minute < 60
  secondLt : second < 60
  microsecondLt : microsecond < 1000000
deriving DecidableEq

namespace DateTime

/-- `replace(microsecond=0)`. -/
def truncate (t : DateTime) : DateTime := { t with microsecond := 0, microsecondLt := Nat.zero_lt_of_lt t.microsecondLt }

@[simp] theorem truncate_truncate (t : DateTime) : t.truncate.truncate = t.truncate := rfl

def digit (n : ℕ) : Char := Nat.digitChar (n % 10)

def pad2 (n : ℕ) : List Char := [digit (n / 10), digit n]

def pad4 (n : ℕ) : List Char := [digit (n / 1000), digit (n / 100), digit (n / 10), digit n]

def pad6 (n : ℕ) : List Char :=
  [digit (n / 100000), digit (n / 10000), digit (n / 1000), digit (n / 100), digit (n / 10), digit n]

/-- `isoformat()` of a UTC timestamp. -/
def isoformat (t : DateTime) : String :=
  String.ofList (pad4 t.year ++ '-' :: pad2 t.month ++ '-' :: pad2 t.day ++ 'T' :: pad2 t.hour ++
    ':' :: pad2 t.minute ++ ':' :: pad2 t.second ++
    (if t.microsecond = 0 then [] else '.' :: pad6 t.microsecond) ++ "+00:00".toList)

theorem digit_inj {n m : ℕ} (h : digit n = digit m) : n % 10 = m % 10 := by
  have hlt : ∀ k, k % 10 < 10 := fun k => Nat.mod_lt _ (by decide)
  have hinj : ∀ a < 10, ∀ b < 10, Nat.digitChar a = Nat.digitChar b → a = b := by decide
  exact hinj _ (hlt n) _ (hlt m) h

theorem pad2_inj {n m : ℕ} (hn : n < 100) (hm : m < 100) (h1 : digit (n / 10) = digit (m / 10))
    (h2 : digit n = digit m) : n = m := by
  have := digit_inj h1
  have := digit_inj h2
  omega

/-- **The text determines the timestamp** to the second. -/
theorem isoformat_inj {t u : DateTime} (h : t.truncate.isoformat = u.truncate.isoformat) :
    t.truncate = u.truncate := by
  have hl := String.ofList_injective h
  simp only [truncate, pad4, pad2, if_true, List.cons_append, List.nil_append, List.append_nil, List.cons.injEq,
    true_and] at hl
  obtain ⟨y1, y2, y3, y4, mo1, mo2, d1, d2, h1, h2, mi1, mi2, s1, s2, -⟩ := hl
  have hy : t.year = u.year := by
    have := digit_inj y1
    have := digit_inj y2
    have := digit_inj y3
    have := digit_inj y4
    have := t.yearLe
    have := u.yearLe
    omega
  have hb := t.monthLe
  have hb' := u.monthLe
  have hd := t.dayLe
  have hd' := u.dayLe
  have hh := t.hourLt
  have hh' := u.hourLt
  have hmi := t.minuteLt
  have hmi' := u.minuteLt
  have hs := t.secondLt
  have hs' := u.secondLt
  simp only [truncate, mk.injEq, and_true]
  exact ⟨hy, pad2_inj (by omega) (by omega) mo1 mo2, pad2_inj (by omega) (by omega) d1 d2,
    pad2_inj (by omega) (by omega) h1 h2, pad2_inj (by omega) (by omega) mi1 mi2,
    pad2_inj (by omega) (by omega) s1 s2⟩

end DateTime

end Vellum
