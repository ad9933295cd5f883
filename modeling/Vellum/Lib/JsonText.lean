import Vellum.Lib.Dict
import Vellum.Lib.Json

/-!
# The text of a JSON value determines the value

`json.dumps` is injective: `render_inj` for values in field order, and
`canonical_inj` for the canonical form, which forgets the order of fields and
nothing else. The proof is unique readability: a rendered value followed by the
end of an item reads back in one way only (`render_unique`).

* `readChar_escape`: an escaped character can be read back, surrogate pairs included.
* `sortKeys_obj_perm`, `sortKeys_obj_fields`: what equal canonical forms say about the
  fields of two objects.
-/

namespace Vellum.Json

/-! ## Strings -/

def hexVal (c : Char) : ℕ := if c.isDigit then c.toNat - 48 else c.toNat - 87

theorem hexVal_digitChar : ∀ n < 16, hexVal (Nat.digitChar n) = n := by decide

/-- Read one `\uXXXX` escape. -/
def readUnit : List Char → Option (ℕ × List Char)
  | '\\' :: 'u' :: a :: b :: c :: d :: r =>
    some (hexVal a * 4096 + hexVal b * 256 + hexVal c * 16 + hexVal d, r)
  | _ => none

theorem readUnit_escapeUnit {u : ℕ} (hu : u < 65536) (r : List Char) :
    readUnit (escapeUnit u ++ r) = some (u, r) := by
  have h (m : ℕ) : hexVal (Nat.digitChar (m % 16)) = m % 16 :=
    hexVal_digitChar _ (Nat.mod_lt _ (by decide))
  simp only [escapeUnit, hex4, List.cons_append, List.nil_append, readUnit, h, Option.some.injEq,
    Prod.mk.injEq, and_true]
  omega

/-- The code point of a surrogate pair. -/
def joinSurrogates (u v : ℕ) : ℕ := 0x10000 + (u - 0xd800) * 0x400 + (v - 0xdc00)

theorem joinSurrogates_eq {n : ℕ} (h : 0x10000 ≤ n) :
    joinSurrogates (highSurrogate n) (lowSurrogate n) = n := by
  unfold joinSurrogates highSurrogate lowSurrogate; omega

theorem highSurrogate_range {n : ℕ} (h : n < 0x110000) :
    0xd800 ≤ highSurrogate n ∧ highSurrogate n < 0xdc00 := by
  unfold highSurrogate; omega

theorem lowSurrogate_lt (n : ℕ) : lowSurrogate n < 65536 := by unfold lowSurrogate; omega

/-- Read one character of a string literal's body. -/
def readChar : List Char → Option (Char × List Char)
  | '\\' :: 'u' :: r =>
    (readUnit ('\\' :: 'u' :: r)).bind fun (u, r') =>
      if 0xd800 ≤ u ∧ u < 0xdc00 then
        (readUnit r').map fun (v, r'') => (Char.ofNat (joinSurrogates u v), r'')
      else some (Char.ofNat u, r')
  | '\\' :: 'n' :: r => some ('\n', r)
  | '\\' :: 'r' :: r => some ('\r', r)
  | '\\' :: 't' :: r => some ('\t', r)
  | '\\' :: 'f' :: r => some ('\x0c', r)
  | '\\' :: 'b' :: r => some ('\x08', r)
  | '\\' :: c :: r => some (c, r)
  | c :: r => some (c, r)
  | [] => none

theorem readChar_unit (u : ℕ) (r : List Char) :
    readChar (escapeUnit u ++ r) = (readUnit (escapeUnit u ++ r)).bind fun (u, r') =>
      if 0xd800 ≤ u ∧ u < 0xdc00 then
        (readUnit r').map fun (v, r'') => (Char.ofNat (joinSurrogates u v), r'')
      else some (Char.ofNat u, r') := rfl

/-- A surrogate pair reads back as one character. -/
theorem readChar_pair {u v : ℕ} (hu : 0xd800 ≤ u ∧ u < 0xdc00) (hu' : u < 65536) (hv : v < 65536)
    (r : List Char) : readChar (escapeUnit u ++ escapeUnit v ++ r) =
      some (Char.ofNat (joinSurrogates u v), r) := by
  rw [List.append_assoc, readChar_unit, readUnit_escapeUnit hu']
  simp only [Option.bind_some, if_pos hu, readUnit_escapeUnit hv, Option.map_some]

/-- Code points are not surrogates. -/
theorem char_range (c : Char) : c.toNat < 0xd800 ∨ (0xdfff < c.toNat ∧ c.toNat < 0x110000) := by
  have h := c.valid
  simp only [UInt32.isValidChar, Nat.isValidChar] at h
  exact h

/-- A character other than the backslash stands for itself. -/
theorem readChar_plain {c : Char} (hc : c ≠ '\\') (r : List Char) : readChar (c :: r) = some (c, r) := by
  apply readChar.eq_8
  all_goals
    intros
    contradiction

/-- **The forms of an escaped character**: a letter behind a backslash, the character itself, one unit
or two. -/
theorem escapeChar_cases (c : Char) :
    (∃ d, escapeChar c = ['\\', d] ∧ ∀ r, readChar ('\\' :: d :: r) = some (c, r)) ∨
    (c ≠ '"' ∧ c ≠ '\\' ∧ escapeChar c = [c]) ∨
    (c.toNat < 0x10000 ∧ escapeChar c = escapeUnit c.toNat) ∨
    (0x10000 ≤ c.toNat ∧ escapeChar c = escapeUnit (highSurrogate c.toNat) ++ escapeUnit (lowSurrogate c.toNat)) := by
  unfold escapeChar
  by_cases h1 : c = '"'
  · rw [if_pos h1, h1]
    exact .inl ⟨_, rfl, fun _ => rfl⟩
  rw [if_neg h1]
  by_cases h2 : c = '\\'
  · rw [if_pos h2, h2]
    exact .inl ⟨_, rfl, fun _ => rfl⟩
  rw [if_neg h2]
  by_cases h3 : c = '\n'
  · rw [if_pos h3, h3]
    exact .inl ⟨_, rfl, fun _ => rfl⟩
  rw [if_neg h3]
  by_cases h4 : c = '\r'
  · rw [if_pos h4, h4]
    exact .inl ⟨_, rfl, fun _ => rfl⟩
  rw [if_neg h4]
  by_cases h5 : c = '\t'
  · rw [if_pos h5, h5]
    exact .inl ⟨_, rfl, fun _ => rfl⟩
  rw [if_neg h5]
  by_cases h6 : c = '\x0c'
  · rw [if_pos h6, h6]
    exact .inl ⟨_, rfl, fun _ => rfl⟩
  rw [if_neg h6]
  by_cases h7 : c = '\x08'
  · rw [if_pos h7, h7]
    exact .inl ⟨_, rfl, fun _ => rfl⟩
  rw [if_neg h7]
  by_cases h8 : 32 ≤ c.toNat ∧ c.toNat ≤ 126
  · rw [if_pos h8]
    exact .inr (.inl ⟨h1, h2, rfl⟩)
  rw [if_neg h8]
  by_cases h9 : c.toNat < 0x10000
  · rw [if_pos h9]
    exact .inr (.inr (.inl ⟨h9, rfl⟩))
  rw [if_neg h9]
  exact .inr (.inr (.inr ⟨by omega, rfl⟩))

/-- **An escaped character reads back.** -/
theorem readChar_escape (c : Char) (r : List Char) : readChar (escapeChar c ++ r) = some (c, r) := by
  have hc := char_range c
  rcases escapeChar_cases c with ⟨d, heq, hread⟩ | ⟨-, hne, heq⟩ | ⟨h9, heq⟩ | ⟨h9, heq⟩
  · rw [heq]
    exact hread r
  · rw [heq]
    exact readChar_plain hne r
  · rw [heq, readChar_unit, readUnit_escapeUnit h9]
    have hn : ¬(0xd800 ≤ c.toNat ∧ c.toNat < 0xdc00) := by omega
    simp only [Option.bind_some, if_neg hn, Char.ofNat_toNat]
  · rw [heq]
    have hs := highSurrogate_range (n := c.toNat) (by omega)
    rw [readChar_pair hs (by omega) (lowSurrogate_lt _), joinSurrogates_eq (by omega), Char.ofNat_toNat]

/-- No escaped character starts with the closing quote. -/
theorem escapeChar_head (c : Char) : ∃ d t, escapeChar c = d :: t ∧ d ≠ '"' := by
  have hback : '\\' ≠ '"' := by decide
  rcases escapeChar_cases c with ⟨d, heq, -⟩ | ⟨hne, -, heq⟩ | ⟨-, heq⟩ | ⟨-, heq⟩
  · exact ⟨_, _, heq, hback⟩
  · exact ⟨_, _, heq, hne⟩
  · exact ⟨_, _, heq, hback⟩
  · exact ⟨_, _, heq, hback⟩

theorem escape_unique : ∀ s s' r r', escape s ++ '"' :: r = escape s' ++ '"' :: r' → s = s' ∧ r = r' := by
  intro s
  induction s with
  | nil =>
    intro s' r r' h
    cases s' with
    | nil => simpa [escape] using h
    | cons c cs =>
      obtain ⟨d, t, hd, hne⟩ := escapeChar_head c
      simp only [escape, List.flatMap_nil, List.nil_append, List.flatMap_cons, hd, List.cons_append,
        List.cons.injEq] at h
      exact absurd h.1.symm hne
  | cons c cs ih =>
    intro s' r r' h
    cases s' with
    | nil =>
      obtain ⟨d, t, hd, hne⟩ := escapeChar_head c
      simp only [escape, List.flatMap_nil, List.nil_append, List.flatMap_cons, hd, List.cons_append,
        List.cons.injEq] at h
      exact absurd h.1 hne
    | cons c' cs' =>
      simp only [escape, List.flatMap_cons, List.append_assoc] at h
      have hr := congrArg readChar h
      rw [readChar_escape, readChar_escape] at hr
      simp only [Option.some.injEq, Prod.mk.injEq] at hr
      obtain ⟨rfl, hr⟩ := hr
      obtain ⟨rfl, rfl⟩ := ih cs' r r' hr
      exact ⟨rfl, rfl⟩

theorem renderStr_unique {s s' : String} {r r' : List Char}
    (h : renderStr s ++ r = renderStr s' ++ r') : s = s' ∧ r = r' := by
  simp only [renderStr, List.cons_append, List.append_assoc, List.nil_append, List.cons.injEq,
    true_and] at h
  obtain ⟨h1, h2⟩ := escape_unique _ _ _ _ h
  exact ⟨String.toList_inj.1 h1, h2⟩

/-! ## Number tokens -/

/-- What may follow a value: the end of the text, or of an item. -/
def ItemEnd (r : List Char) : Prop := ∀ c ∈ r.head?, c = ',' ∨ c = ']' ∨ c = '\x7d'

theorem itemEnd_cons {c : Char} {r : List Char} (h : c = ',' ∨ c = ']' ∨ c = '\x7d') :
    ItemEnd (c :: r) := by
  intro d hd
  rw [List.head?_cons, Option.mem_some] at hd
  rwa [← hd]

theorem takeWhile_num {l r : List Char} (hl : l.all numChar) (hr : ItemEnd r) :
    (l ++ r).takeWhile numChar = l := by
  rw [List.takeWhile_append_of_pos (by simpa using hl)]
  cases r with
  | nil => simp
  | cons c r =>
    have hc : numChar c = false := by
      rcases hr c (by simp) with rfl | rfl | rfl <;> decide
    simp [hc]

theorem num_unique {l l' r r' : List Char} (hl : l.all numChar) (hl' : l'.all numChar)
    (hr : ItemEnd r) (hr' : ItemEnd r') (h : l ++ r = l' ++ r') : l = l' ∧ r = r' := by
  have h1 : l = l' := by rw [← takeWhile_num hl hr, h, takeWhile_num hl' hr']
  subst h1
  exact ⟨rfl, List.append_cancel_left h⟩

/-- The characters of an integer's text. -/
def intChar (c : Char) : Bool := c.isDigit || c = '-'

theorem toDigits_chars (n : ℕ) : (Nat.toDigits 10 n).all intChar := by
  rw [List.all_eq_true]
  intro c hc
  simp [intChar, Nat.isDigit_of_mem_toDigits (by decide) (by decide) hc]

theorem int_chars (i : ℤ) : i.repr.toList.all intChar := by
  cases i with
  | ofNat n => simpa [Int.repr] using toDigits_chars n
  | negSucc n =>
    simp only [Int.repr, String.toList_append, Nat.toList_repr, List.all_append, toDigits_chars, Bool.and_true]
    decide

theorem numChar_of_intChar {l : List Char} (h : l.all intChar) : l.all numChar := by
  rw [List.all_eq_true] at *
  intro c hc
  have := h c hc
  simp only [intChar, Bool.or_eq_true, decide_eq_true_eq] at this
  rcases this with hd | rfl
  · simp [numChar, hd]
  · decide

theorem int_ne_nil (i : ℤ) : i.repr.toList ≠ [] := by
  cases i with
  | ofNat n => simp [Int.repr]
  | negSucc n => simp [Int.repr]

theorem toDigits_inj {n m : ℕ} (h : Nat.toDigits 10 n = Nat.toDigits 10 m) : n = m := by
  have h' := congrArg (Nat.ofDigitChars 10 · 0) h
  simpa only [Nat.ofDigitChars_ten_toDigits] using h'

theorem minus_not_mem_toDigits (n : ℕ) : '-' ∉ Nat.toDigits 10 n := by
  intro h
  have := Nat.isDigit_of_mem_toDigits (by decide) (by decide) h
  revert this; decide

theorem int_repr_inj {i j : ℤ} (h : i.repr.toList = j.repr.toList) : i = j := by
  cases i with
  | ofNat n =>
    cases j with
    | ofNat m =>
      simp only [Int.repr, Nat.toList_repr] at h
      rw [toDigits_inj h]
    | negSucc m =>
      simp only [Int.repr, Nat.toList_repr, String.toList_append] at h
      exact absurd (by rw [h]; simp) (minus_not_mem_toDigits n)
  | negSucc n =>
    cases j with
    | ofNat m =>
      simp only [Int.repr, Nat.toList_repr, String.toList_append] at h
      exact absurd (by rw [← h]; simp) (minus_not_mem_toDigits m)
    | negSucc m =>
      simp only [Int.repr, Nat.toList_repr, String.toList_append] at h
      have := toDigits_inj (List.append_cancel_left h)
      rw [Nat.succ.inj this]

/-! ## The first character tells the kind of value -/

/-- The kinds of value that start alike. -/
inductive Kind where
  | null | bool | num | str | arr | obj
deriving DecidableEq

def kind : Json → Kind
  | null => .null
  | bool _ => .bool
  | int _ => .num
  | float _ => .num
  | str _ => .str
  | arr _ => .arr
  | obj _ => .obj

def kindOf (c : Char) : Kind :=
  if c = 'n' then .null
  else if c = 't' ∨ c = 'f' then .bool
  else if c = '"' then .str
  else if c = '[' then .arr
  else if c = '\x7b' then .obj
  else .num

theorem kindOf_num {c : Char} (h : c.isDigit ∨ c = '-' ∨ c = 'I' ∨ c = 'N') : kindOf c = .num := by
  rcases h with h | rfl | rfl | rfl
  · have hne : ∀ d : Char, d.isDigit = false → c ≠ d := by
      rintro d hd rfl; rw [h] at hd; cases hd
    simp [kindOf, hne 'n' (by decide), hne 't' (by decide), hne 'f' (by decide), hne '"' (by decide),
      hne '[' (by decide), hne '\x7b' (by decide)]
  all_goals decide

theorem render_head (p : Separators) (j : Json) : ∃ c t, render p j = c :: t ∧ kindOf c = kind j := by
  cases j with
  | null => exact ⟨_, _, rfl, rfl⟩
  | bool b => cases b <;> exact ⟨_, _, rfl, rfl⟩
  | int i =>
    obtain ⟨c, t, hct⟩ := List.exists_cons_of_ne_nil (int_ne_nil i)
    have hc : intChar c := List.all_eq_true.1 (int_chars i) c (by rw [hct]; simp)
    refine ⟨c, t, by rw [render, hct], kindOf_num ?_⟩
    simp only [intChar, Bool.or_eq_true, decide_eq_true_eq] at hc
    tauto
  | float f =>
    have hw := f.wf
    simp only [floatText, Bool.and_eq_true] at hw
    cases hf : f.text with
    | nil => rw [hf] at hw; simp at hw
    | cons c t =>
      rw [hf] at hw
      refine ⟨c, t, by rw [render, hf], kindOf_num ?_⟩
      have h3 := hw.2
      simp only [List.head?_cons, Option.any_some, Bool.or_eq_true, decide_eq_true_eq] at h3
      tauto
  | str s => exact ⟨_, _, rfl, rfl⟩
  | arr l =>
    cases l with
    | nil => exact ⟨_, _, by rw [render], rfl⟩
    | cons j js => exact ⟨_, _, by rw [render], rfl⟩
  | obj l =>
    cases l with
    | nil => exact ⟨_, _, by rw [render], rfl⟩
    | cons f fs =>
      obtain ⟨k, v⟩ := f
      exact ⟨'\x7b', _, by rw [render], rfl⟩

theorem kind_eq {p : Separators} {j j' : Json} {r r' : List Char}
    (h : render p j ++ r = render p j' ++ r') : kind j = kind j' := by
  obtain ⟨c, t, hc, hk⟩ := render_head p j
  obtain ⟨c', t', hc', hk'⟩ := render_head p j'
  rw [hc, hc', List.cons_append, List.cons_append, List.cons.injEq] at h
  rw [← hk, ← hk', h.1]

/-- A rendered value does not start like the end of an item. -/
theorem render_ne_end {p : Separators} {j : Json} {c : Char} {r r' : List Char}
    (hc : c = ',' ∨ c = ']' ∨ c = '\x7d') (h : render p j ++ r = c :: r') : False := by
  obtain ⟨d, t, hd, hk⟩ := render_head p j
  rw [hd, List.cons_append, List.cons.injEq] at h
  rw [h.1] at hk hd
  -- no number, and no other value, starts with one of these characters
  cases j with
  | int i =>
    have : intChar c := List.all_eq_true.1 (int_chars i) c (by rw [render] at hd; rw [hd]; simp)
    rcases hc with rfl | rfl | rfl <;> revert this <;> decide
  | float f =>
    have hw := f.wf
    rw [render] at hd
    simp only [floatText, Bool.and_eq_true, hd, List.all_cons] at hw
    have := hw.1.1.1
    rcases hc with rfl | rfl | rfl <;> revert this <;> decide
  | _ => rcases hc with rfl | rfl | rfl <;> revert hk <;> simp [kindOf, kind]

/-! ## Unique readability -/

theorem number_unique {p : Separators} {j j' : Json} {r r' : List Char} (hk : kind j = .num)
    (hk' : kind j' = .num) (hr : ItemEnd r) (hr' : ItemEnd r')
    (h : render p j ++ r = render p j' ++ r') : j = j' ∧ r = r' := by
  have hfl (f : PyFloat) : f.text.all numChar := by
    have hw := f.wf
    simp only [floatText, Bool.and_eq_true] at hw
    exact hw.1.1
  -- a float's text has a character that no integer's text has
  have hmix (i : ℤ) (f : PyFloat) : i.repr.toList ≠ f.text := by
    intro heq
    have hw := f.wf
    simp only [floatText, Bool.and_eq_true, List.any_eq_true, ← heq] at hw
    obtain ⟨c, hc, hn⟩ := hw.1.2
    have := List.all_eq_true.1 (int_chars i) c hc
    simp only [intChar] at this
    simp [this] at hn
  cases j <;> simp only [kind, reduceCtorEq] at hk <;> cases j' <;> simp only [kind, reduceCtorEq] at hk' <;>
    simp only [render] at h
  case int.int i i' =>
    obtain ⟨h1, h2⟩ := num_unique (numChar_of_intChar (int_chars i)) (numChar_of_intChar (int_chars i')) hr hr' h
    exact ⟨by rw [int_repr_inj h1], h2⟩
  case int.float i f =>
    exact absurd (num_unique (numChar_of_intChar (int_chars i)) (hfl f) hr hr' h).1 (hmix i f)
  case float.int f i =>
    exact absurd (num_unique (hfl f) (numChar_of_intChar (int_chars i)) hr hr' h).1.symm (hmix i f)
  case float.float f f' =>
    obtain ⟨h1, h2⟩ := num_unique (hfl f) (hfl f') hr hr' h
    refine ⟨?_, h2⟩
    cases f; cases f'; simp only at h1; subst h1; rfl

/-- Reads back in one way when the end of an item follows. -/
def Readable (p : Separators) (j : Json) : Prop := ∀ j' r r', ItemEnd r → ItemEnd r' →
  render p j ++ r = render p j' ++ r' → j = j' ∧ r = r'

theorem renderItems_end (p : Separators) (l : List Json) (r : List Char) :
    ItemEnd (renderItems p l ++ ']' :: r) := by
  cases l with
  | nil => exact itemEnd_cons (by simp)
  | cons j js => rw [renderItems]; exact itemEnd_cons (by simp)

theorem renderFields_end (p : Separators) (l : List (String × Json)) (r : List Char) :
    ItemEnd (renderFields p l ++ '\x7d' :: r) := by
  cases l with
  | nil => exact itemEnd_cons (by simp)
  | cons f fs => obtain ⟨k, v⟩ := f; rw [renderFields]; exact itemEnd_cons (by simp)

theorem renderItems_unique {p : Separators} : ∀ l l' r r', (∀ j ∈ l, Readable p j) →
    renderItems p l ++ ']' :: r = renderItems p l' ++ ']' :: r' → l = l' ∧ r = r' := by
  intro l
  induction l with
  | nil =>
    intro l' r r' _ h
    cases l' with
    | nil => simpa [renderItems] using h
    | cons j js => simp [renderItems] at h
  | cons j js ih =>
    intro l' r r' hl h
    cases l' with
    | nil => simp [renderItems] at h
    | cons j' js' =>
      simp only [renderItems, List.cons_append, List.append_assoc, List.cons.injEq, true_and] at h
      obtain ⟨rfl, h2⟩ := hl j (by simp) j' _ _ (renderItems_end p js r) (renderItems_end p js' r')
        (List.append_cancel_left h)
      obtain ⟨rfl, rfl⟩ := ih js' r r' (fun x hx => hl x (by simp [hx])) h2
      exact ⟨rfl, rfl⟩

/-- One `key: value` pair and what follows it. -/
theorem field_unique {p : Separators} {k k' : String} {v v' : Json} {r r' : List Char}
    (hv : Readable p v) (hr : ItemEnd r) (hr' : ItemEnd r')
    (h : renderStr k ++ ':' :: (p.afterColon ++ (render p v ++ r)) =
      renderStr k' ++ ':' :: (p.afterColon ++ (render p v' ++ r'))) :
    (k, v) = (k', v') ∧ r = r' := by
  obtain ⟨rfl, h1⟩ := renderStr_unique h
  obtain ⟨rfl, h2⟩ := hv v' _ _ hr hr' (List.append_cancel_left (List.cons.inj h1).2)
  exact ⟨rfl, h2⟩

theorem renderFields_unique {p : Separators} : ∀ l l' r r', (∀ f ∈ l, Readable p f.2) →
    renderFields p l ++ '\x7d' :: r = renderFields p l' ++ '\x7d' :: r' → l = l' ∧ r = r' := by
  intro l
  induction l with
  | nil =>
    intro l' r r' _ h
    cases l' with
    | nil => simpa [renderFields] using h
    | cons f fs => simp [renderFields] at h
  | cons f fs ih =>
    intro l' r r' hl h
    cases l' with
    | nil => simp [renderFields] at h
    | cons f' fs' =>
      simp only [renderFields, List.cons_append, List.append_assoc, List.cons.injEq, true_and] at h
      obtain ⟨hf, h2⟩ := field_unique (hl f (by simp)) (renderFields_end p fs r)
        (renderFields_end p fs' r') (List.append_cancel_left h)
      obtain ⟨rfl, rfl⟩ := ih fs' r r' (fun x hx => hl x (by simp [hx])) h2
      exact ⟨by rw [show f = f' from hf], rfl⟩

/-- An array ends itself, so anything may follow it. -/
theorem arr_unique_of {p : Separators} {l l' : List Json} {r r' : List Char} (hl : ∀ j ∈ l, Readable p j)
    (h : render p (arr l) ++ r = render p (arr l') ++ r') : l = l' ∧ r = r' := by
  cases l with
  | nil =>
    cases l' with
    | nil => simpa [render] using h
    | cons j' js' =>
      simp only [render, List.cons_append, List.append_assoc, List.cons.injEq, true_and] at h
      exact (render_ne_end (by simp) h.symm).elim
  | cons j js =>
    cases l' with
    | nil =>
      simp only [render, List.cons_append, List.append_assoc, List.cons.injEq, true_and] at h
      exact (render_ne_end (by simp) h).elim
    | cons j' js' =>
      simp only [render, List.cons_append, List.append_assoc, List.nil_append, List.cons.injEq,
        true_and] at h
      obtain ⟨rfl, h2⟩ := hl j (by simp) j' _ _ (renderItems_end p js r) (renderItems_end p js' r') h
      obtain ⟨rfl, rfl⟩ := renderItems_unique js js' r r' (fun x hx => hl x (by simp [hx])) h2
      exact ⟨rfl, rfl⟩

/-- **Unique readability.** A rendered value followed by the end of an item reads back in
one way only. -/
theorem render_unique (p : Separators) (j : Json) : Readable p j := by
  induction j with
  | null =>
    intro j' r r' _ _ h
    have hk := kind_eq h
    cases j' <;> simp only [kind, reduceCtorEq] at hk
    exact ⟨rfl, List.append_cancel_left h⟩
  | bool b =>
    intro j' r r' _ _ h
    have hk := kind_eq h
    cases j' <;> simp only [kind, reduceCtorEq] at hk
    case bool b' => cases b <;> cases b' <;> simp_all [render]
  | int i =>
    intro j' r r' hr hr' h
    exact number_unique rfl (kind_eq h).symm hr hr' h
  | float f =>
    intro j' r r' hr hr' h
    exact number_unique rfl (kind_eq h).symm hr hr' h
  | str s =>
    intro j' r r' _ _ h
    have hk := kind_eq h
    cases j' <;> simp only [kind, reduceCtorEq] at hk
    case str s' =>
      simp only [render] at h
      obtain ⟨rfl, h2⟩ := renderStr_unique h
      exact ⟨rfl, h2⟩
  | arr l ih =>
    intro j' r r' _ _ h
    have hk := kind_eq h
    cases j' <;> simp only [kind, reduceCtorEq] at hk
    case arr l' =>
      obtain ⟨rfl, hr⟩ := arr_unique_of ih h
      exact ⟨rfl, hr⟩
  | obj l ih =>
    intro j' r r' _ _ h
    have hk := kind_eq h
    cases j' <;> simp only [kind, reduceCtorEq] at hk
    case obj l' =>
      cases l with
      | nil =>
        cases l' with
        | nil => simpa [render] using h
        | cons f' fs' => simp [render, renderStr] at h
      | cons f fs =>
        cases l' with
        | nil => simp [render, renderStr] at h
        | cons f' fs' =>
          simp only [render, List.cons_append, List.append_assoc, List.nil_append, List.cons.injEq,
            true_and] at h
          obtain ⟨hf, h2⟩ := field_unique (ih f (by simp)) (renderFields_end p fs r)
            (renderFields_end p fs' r') h
          obtain ⟨rfl, rfl⟩ := renderFields_unique fs fs' r r' (fun x hx => ih x (by simp [hx])) h2
          exact ⟨by rw [show f = f' from hf], rfl⟩

theorem render_inj {p : Separators} {j j' : Json} (h : render p j = render p j') : j = j' :=
  (render_unique p j j' [] [] (by simp [ItemEnd]) (by simp [ItemEnd]) (by simpa using h)).1

theorem arr_unique {p : Separators} {l l' : List Json} {r r' : List Char}
    (h : render p (arr l) ++ r = render p (arr l') ++ r') : l = l' ∧ r = r' :=
  arr_unique_of (fun j _ => render_unique p j) h

/-- **The canonical form determines the value** up to the order of its fields. -/
theorem canonical_inj {j j' : Json} (h : canonical j = canonical j') : sortKeys j = sortKeys j' :=
  render_inj (String.ofList_injective h)

/-! ## Fields of equal objects -/

theorem sortItems_eq (l : List Json) : sortItems l = l.map sortKeys := by
  induction l with
  | nil => rfl
  | cons j js ih => rw [sortItems, ih, List.map_cons]

theorem sortFields_eq (l : List (String × Json)) :
    sortFields l = l.map fun f => (f.1, sortKeys f.2) := by
  induction l with
  | nil => rfl
  | cons f fs ih => rw [sortFields, ih, List.map_cons]

/-- Equal canonical forms hold the same fields. -/
theorem sortKeys_obj_perm {l l' : List (String × Json)} (h : sortKeys (obj l) = sortKeys (obj l')) :
    (l.map fun f => (f.1, sortKeys f.2)).Perm (l'.map fun f => (f.1, sortKeys f.2)) := by
  simp only [sortKeys, obj.injEq, sortByKey, sortFields_eq] at h
  have h1 := List.perm_insertionSort (fun a b : String × Json => a.1 ≤ b.1) (l.map fun f => (f.1, sortKeys f.2))
  rw [h] at h1
  exact h1.symm.trans (List.perm_insertionSort _ _)

/-- Fields with different keys are sorted in one way only. -/
theorem sortByKey_eq_of_perm {l l' : List (String × Json)} (h : l.Perm l') (hnd : (l.map Prod.fst).Nodup) :
    sortByKey l = sortByKey l' := by
  unfold sortByKey
  have hnd' : ((l.insertionSort fun a b => a.1 ≤ b.1).map Prod.fst).Nodup :=
    ((List.perm_insertionSort _ _).map Prod.fst).nodup_iff.2 hnd
  have hp : (l.insertionSort fun a b => a.1 ≤ b.1).Perm (l'.insertionSort fun a b => a.1 ≤ b.1) :=
    (List.perm_insertionSort _ _).trans (h.trans (List.perm_insertionSort _ _).symm)
  -- both are sorted by key, and no key occurs twice
  have : Std.Total fun a b : String × Json => a.1 ≤ b.1 := ⟨fun a b => le_total a.1 b.1⟩
  have : IsTrans (String × Json) fun a b => a.1 ≤ b.1 := ⟨fun _ _ _ => le_trans⟩
  refine List.Perm.eq_of_pairwise (fun a b ha hb hab hba => ?_) (List.pairwise_insertionSort _ _)
    (List.pairwise_insertionSort _ _) hp
  exact List.inj_on_of_nodup_map hnd' ha (hp.mem_iff.2 hb) (le_antisymm hab hba)

/-- The order in which an object's fields are written does not show in its canonical form. -/
theorem sortKeys_obj_of_perm {l l' : List (String × Json)} (h : l.Perm l') (hnd : (l.map Prod.fst).Nodup) :
    sortKeys (obj l) = sortKeys (obj l') := by
  simp only [sortKeys, sortFields_eq]
  apply congrArg obj
  apply sortByKey_eq_of_perm (h.map _)
  simpa [List.map_map, Function.comp_def] using hnd

/-- **Equal objects with the same keys in the same order** agree field by field. -/
theorem sortKeys_obj_fields (keys : List String) (hnd : keys.Nodup) {l l' : List (String × Json)}
    (hk : l.map Prod.fst = keys) (hk' : l'.map Prod.fst = keys) (h : sortKeys (obj l) = sortKeys (obj l')) :
    l.map (fun f => sortKeys f.2) = l'.map fun f => sortKeys f.2 := by
  have heq : l.map (fun f => (f.1, sortKeys f.2)) = l'.map fun f => (f.1, sortKeys f.2) := by
    apply Dict.perm_eq_of_keys (sortKeys_obj_perm h)
    · simpa [List.map_map, Function.comp_def] using hk.trans hk'.symm
    · simpa [List.map_map, Function.comp_def, hk] using hnd
  simpa [List.map_map, Function.comp_def] using congrArg (List.map Prod.snd) heq

end Vellum.Json
