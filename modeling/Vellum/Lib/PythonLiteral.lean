import Vellum.Lib.JsonText

/-!
# String literals of Python

Where a literal between double or triple quotes ends, and the code points it denotes,
with every escape of the language. A value is a list of code points, since an escape can
denote a lone surrogate.

* `decode_self_iff`: when the text between the quotes denotes itself.
* `decode_escape_iff`: when a body that `json.dumps` wrote denotes the text it was
  written for.
-/

namespace Vellum

/-- The line ends of a text file as Python reads them: `\r\n` and `\r` end a line as `\n` does. -/
def universalNewlines : List Char → List Char
  | '\r' :: '\n' :: rest => '\n' :: universalNewlines rest
  | '\r' :: rest => '\n' :: universalNewlines rest
  | c :: rest => c :: universalNewlines rest
  | [] => []

/-- Reading in text mode changes nothing where no carriage return stands. -/
theorem universalNewlines_eq {cs : List Char} (h : '\r' ∉ cs) : universalNewlines cs = cs := by
  induction cs with
  | nil => rfl
  | cons c cs ih =>
    have hc : c ≠ '\r' := fun hc => h (hc ▸ List.mem_cons_self)
    have hrest := ih fun hmem => h (List.mem_cons_of_mem c hmem)
    rw [universalNewlines.eq_3 c cs (by rintro cs' rfl; exact absurd rfl hc) (by rintro rfl; exact absurd rfl hc),
      hrest]

namespace PySource

/-! ## Escapes -/

def hexDigit? (c : Char) : Option ℕ :=
  if '0' ≤ c ∧ c ≤ '9' then some (c.toNat - 48)
  else if 'a' ≤ c ∧ c ≤ 'f' then some (c.toNat - 87)
  else if 'A' ≤ c ∧ c ≤ 'F' then some (c.toNat - 55)
  else none

def octalDigit (c : Char) : Bool := '0' ≤ c && c ≤ '7'

/-- `\x`, `\u` and `\U`: exactly `k` hexadecimal digits, of a code point. -/
def readHex (k : ℕ) (cs : List Char) : Option (List ℕ × List Char) :=
  if k ≤ cs.length then
    ((cs.take k).mapM hexDigit?).bind fun ds =>
      let n := ds.foldl (fun n d => 16 * n + d) 0
      if n < 0x110000 then some ([n], cs.drop k) else none
  else none

/-- One to three octal digits. -/
def readOctal (cs : List Char) : List ℕ × List Char :=
  let ds := (cs.take 3).takeWhile octalDigit
  ([ds.foldl (fun n d => 8 * n + (d.toNat - 48)) 0], cs.drop ds.length)

/-- `\N` with a name in braces; `named` is the table of character names. -/
def readNamed (named : List Char → Option ℕ) : List Char → Option (List ℕ × List Char)
  | '\x7b' :: cs =>
    match cs.dropWhile (· ≠ '\x7d') with
    | _ :: rest => (named (cs.takeWhile (· ≠ '\x7d'))).map fun n => ([n], rest)
    | [] => none
  | _ => none

/-- The escapes of one letter. -/
def letterEscapes : List (Char × ℕ) :=
  [('\\', 92), ('\'', 39), ('"', 34), ('a', 7), ('b', 8), ('f', 12), ('n', 10), ('r', 13), ('t', 9), ('v', 11)]

/-- What a backslash and the text behind it denote, with the text after the escape. -/
def readEscape (named : List Char → Option ℕ) : List Char → Option (List ℕ × List Char)
  | [] => none
  | c :: cs =>
    -- a line that ends in a backslash is continued
    if c = '\n' ∨ c = '\r' then some ([], cs)
    else if c = 'x' then readHex 2 cs
    else if c = 'u' then readHex 4 cs
    else if c = 'U' then readHex 8 cs
    else if c = 'N' then readNamed named cs
    else if octalDigit c then some (readOctal (c :: cs))
    else match letterEscapes.lookup c with
      | some n => some ([n], cs)
      -- any other backslash stays
      | none => some (['\\'.toNat, c.toNat], cs)

/-- The code points of the body of a literal, with fuel for the characters. -/
def decodeFrom (named : List Char → Option ℕ) : ℕ → List Char → Option (List ℕ)
  | _, [] => some []
  | 0, _ :: _ => none
  | k + 1, c :: cs =>
    if c = '\\' then
      (readEscape named cs).bind fun (v, rest) => (decodeFrom named k rest).map (v ++ ·)
    else (decodeFrom named k cs).map (c.toNat :: ·)

/-- What the body of a literal denotes; a surrogate is a code point of its own. -/
def decode (named : List Char → Option ℕ) (body : List Char) : Option (List ℕ) :=
  decodeFrom named body.length body

/-- The code points of a text. -/
def codes (cs : List Char) : List ℕ := cs.map Char.toNat

/-! ## Bodies -/

/-- The body of a literal between double quotes, and the text after it. A backslash takes
the next character with it; lines end in a line feed here. -/
def shortBody : List Char → Option (List Char × List Char)
  | [] => none
  | c :: cs =>
    if c = '\\' then
      match cs with
      | [] => none
      | d :: ds =>
        if d = '\r' ∨ d.toNat = 0 then none else (shortBody ds).map fun (b, r) => (c :: d :: b, r)
    else if c = '"' then some ([], cs)
    else if c = '\n' ∨ c = '\r' ∨ c.toNat = 0 then none
    else (shortBody cs).map fun (b, r) => (c :: b, r)

/-- The body of a literal between triple quotes, and the text after it. -/
def longBody : List Char → Option (List Char × List Char)
  | [] => none
  | c :: cs =>
    if c = '\\' then
      match cs with
      | [] => none
      | d :: ds => if d.toNat = 0 then none else (longBody ds).map fun (b, r) => (c :: d :: b, r)
    else if c = '"' ∧ cs.take 2 = ['"', '"'] then some ([], cs.drop 2)
    else if c.toNat = 0 then none
    else (longBody cs).map fun (b, r) => (c :: b, r)

/-! ## What a body denotes -/

variable {named : List Char → Option ℕ}

/-- The characters behind a backslash that make an escape. -/
def escapes (c : Char) : Bool :=
  c ∈ ['\n', '\r', 'x', 'u', 'U', 'N'] || octalDigit c || (letterEscapes.lookup c).isSome

theorem readHex_length {k : ℕ} {cs : List Char} {v : List ℕ} {rest : List Char}
    (h : readHex k cs = some (v, rest)) : v.length = 1 ∧ rest.length ≤ cs.length - k := by
  unfold readHex at h
  split at h
  · obtain ⟨ds, -, h⟩ := Option.bind_eq_some_iff.1 h
    dsimp only at h
    split at h
    · obtain ⟨rfl, rfl⟩ := Prod.mk.inj (Option.some.inj h)
      simp
    · cases h
  · cases h

theorem readNamed_length {cs : List Char} {v : List ℕ} {rest : List Char}
    (h : readNamed named cs = some (v, rest)) : v.length = 1 ∧ rest.length < cs.length := by
  unfold readNamed at h
  split at h
  · next cs =>
    split at h
    · next heq =>
      obtain ⟨n, -, h⟩ := Option.map_eq_some_iff.1 h
      obtain ⟨rfl, rfl⟩ := Prod.mk.inj h
      have hle := (List.dropWhile_suffix (l := cs) (· ≠ '\x7d')).length_le
      rw [heq] at hle
      rw [List.length_cons] at hle
      exact ⟨rfl, by rw [List.length_cons]; omega⟩
    · cases h
  · cases h

/-- **What an escape denotes**: at most one code point for two characters or more, or
both characters where it is no escape. -/
theorem readEscape_cases {cs : List Char} {v : List ℕ} {rest : List Char}
    (h : readEscape named cs = some (v, rest)) :
    (v.length ≤ 1 ∧ rest.length < cs.length ∧ ∃ c ∈ cs.head?, escapes c = true) ∨
      ∃ c, cs = c :: rest ∧ v = ['\\'.toNat, c.toNat] ∧ escapes c = false := by
  cases cs with
  | nil => cases h
  | cons c cs =>
    unfold readEscape at h
    dsimp only at h
    split_ifs at h with h1 h2 h3 h4 h5 h6
    · obtain ⟨rfl, rfl⟩ := Prod.mk.inj (Option.some.inj h)
      refine .inl ⟨by simp, by simp, c, rfl, ?_⟩
      rcases h1 with rfl | rfl <;> rfl
    · obtain ⟨hv, hr⟩ := readHex_length h
      exact .inl ⟨hv.le, by simp only [List.length_cons]; omega, c, rfl, by rw [h2]; rfl⟩
    · obtain ⟨hv, hr⟩ := readHex_length h
      exact .inl ⟨hv.le, by simp only [List.length_cons]; omega, c, rfl, by rw [h3]; rfl⟩
    · obtain ⟨hv, hr⟩ := readHex_length h
      exact .inl ⟨hv.le, by simp only [List.length_cons]; omega, c, rfl, by rw [h4]; rfl⟩
    · obtain ⟨hv, hr⟩ := readNamed_length h
      exact .inl ⟨hv.le, by simp only [List.length_cons]; omega, c, rfl, by rw [h5]; rfl⟩
    · obtain ⟨rfl, rfl⟩ := Prod.mk.inj (Option.some.inj h)
      refine .inl ⟨le_rfl, ?_, c, rfl, by simp [escapes, h6]⟩
      -- the first digit is among those that are dropped
      have hpos : 0 < (List.takeWhile octalDigit (List.take 3 (c :: cs))).length := by
        rw [List.take_succ_cons, List.takeWhile_cons_of_pos h6, List.length_cons]
        omega
      rw [List.length_drop, List.length_cons]
      omega
    · split at h
      · next heq =>
        obtain ⟨rfl, rfl⟩ := Prod.mk.inj (Option.some.inj h)
        exact .inl ⟨le_rfl, by simp, c, rfl, by simp [escapes, heq]⟩
      · next heq =>
        obtain ⟨rfl, rfl⟩ := Prod.mk.inj (Option.some.inj h)
        refine .inr ⟨c, rfl, rfl, ?_⟩
        rw [not_or] at h1
        simp [escapes, heq, h1, h2, h3, h4, h5, h6]

theorem readEscape_length {cs : List Char} {v : List ℕ} {rest : List Char}
    (h : readEscape named cs = some (v, rest)) : rest.length < cs.length := by
  rcases readEscape_cases h with ⟨-, hr, -⟩ | ⟨c, rfl, -, -⟩
  · exact hr
  · simp

/-- Fuel for every character is enough. -/
theorem decodeFrom_fuel : ∀ (k : ℕ) (cs : List Char), cs.length ≤ k → decodeFrom named k cs = decode named cs := by
  intro k
  induction k using Nat.strong_induction_on with
  | _ k ih =>
    intro cs hk
    cases cs with
    | nil => rw [decode, decodeFrom, decodeFrom]
    | cons c cs =>
      obtain ⟨k, rfl⟩ : ∃ j, k = j + 1 := ⟨k - 1, by simp at hk; omega⟩
      simp only [List.length_cons, Nat.add_le_add_iff_right] at hk
      rw [decode, List.length_cons, decodeFrom, decodeFrom]
      split
      · cases hr : readEscape named cs with
        | none => rfl
        | some p =>
          have hlt := readEscape_length hr
          simp only [Option.bind_some]
          rw [ih k (by omega) _ (by omega)]
          by_cases hk' : cs.length = k
          · rw [hk', ih k (by omega) _ (by omega)]
          · rw [ih cs.length (by omega) _ hlt.le]
      · rw [ih k (by omega) _ hk]
        rfl

@[simp] theorem decode_nil : decode named [] = some [] := rfl

theorem decode_cons {c : Char} (hc : c ≠ '\\') (cs : List Char) :
    decode named (c :: cs) = (decode named cs).map (c.toNat :: ·) := by
  rw [decode, List.length_cons, decodeFrom, if_neg hc]
  rfl

theorem decode_backslash (cs : List Char) :
    decode named ('\\' :: cs) =
      (readEscape named cs).bind fun (v, rest) => (decode named rest).map (v ++ ·) := by
  rw [decode, List.length_cons, decodeFrom, if_pos rfl]
  cases hr : readEscape named cs with
  | none => rfl
  | some p =>
    simp only [Option.bind_some]
    rw [decodeFrom_fuel _ _ (readEscape_length hr).le]

/-- A body that denotes as many code points as it has characters denotes itself, and has no
escape in it. -/
def noEscape : List Char → Bool
  | [] => true
  | c :: cs =>
    if c = '\\' then
      match cs with
      | [] => false
      | d :: ds => !escapes d && noEscape ds
    else noEscape cs

theorem noEscape_cons {c : Char} (hc : c ≠ '\\') (cs : List Char) : noEscape (c :: cs) = noEscape cs := by
  cases cs <;> simp [noEscape, hc]

theorem decode_length (k : ℕ) : ∀ cs v, cs.length ≤ k → decode named cs = some v → v.length ≤ cs.length ∧
    (v.length = cs.length → noEscape cs = true) := by
  induction k with
  | zero =>
    intro cs v hk hv
    obtain rfl := List.length_eq_zero_iff.1 (by omega : cs.length = 0)
    rw [decode_nil] at hv
    cases hv
    simp [noEscape]
  | succ k ih =>
    intro cs v hk hv
    cases cs with
    | nil => rw [decode_nil] at hv; cases hv; simp [noEscape]
    | cons c cs =>
      rw [List.length_cons] at hk
      by_cases hc : c = '\\'
      · subst hc
        rw [decode_backslash] at hv
        obtain ⟨⟨u, rest⟩, hr, hv⟩ := Option.bind_eq_some_iff.1 hv
        obtain ⟨w, hw, rfl⟩ := Option.map_eq_some_iff.1 hv
        have hlt := readEscape_length hr
        obtain ⟨h1, h2⟩ := ih rest w (by omega) hw
        simp only [List.length_append, List.length_cons]
        rcases readEscape_cases hr with ⟨hu, -, -⟩ | ⟨d, rfl, rfl, hd⟩
        · -- an escape loses a character
          exact ⟨by omega, fun heq => by omega⟩
        · simp only [List.length_cons, List.length_nil, noEscape, if_true, hd, Bool.not_false, Bool.true_and]
          exact ⟨by omega, fun heq => h2 (by omega)⟩
      · rw [decode_cons hc] at hv
        obtain ⟨w, hw, rfl⟩ := Option.map_eq_some_iff.1 hv
        obtain ⟨h1, h2⟩ := ih cs w (by omega) hw
        rw [noEscape_cons hc]
        simp only [List.length_cons]
        exact ⟨by omega, fun heq => h2 (by omega)⟩

/-- A backslash that makes no escape stays. -/
theorem readEscape_stays {d : Char} (hd : escapes d = false) (ds : List Char) :
    readEscape named (d :: ds) = some (['\\'.toNat, d.toNat], ds) := by
  simp only [escapes, Bool.or_eq_false_iff, decide_eq_false_iff_not, List.mem_cons, List.not_mem_nil, or_false,
    not_or, Option.isSome_eq_false_iff, Option.isNone_iff_eq_none] at hd
  obtain ⟨⟨⟨h1, h2, h3, h4, h5, h6⟩, h7⟩, h8⟩ := hd
  simp [readEscape, h1, h2, h3, h4, h5, h6, h7, h8]

theorem decode_noEscape (cs : List Char) (h : noEscape cs = true) : decode named cs = some (codes cs) := by
  fun_induction noEscape cs with
  | case1 => rfl
  | case2 => cases h
  | case3 d ds ih =>
    rw [Bool.and_eq_true, Bool.not_eq_true'] at h
    rw [decode_backslash, readEscape_stays h.1, Option.bind_some]
    dsimp only
    rw [ih h.2]
    rfl
  | case4 c cs hc ih =>
    rw [decode_cons hc, ih h]
    rfl

/-- **A body denotes itself exactly when it has no escape in it.** -/
theorem decode_self_iff (cs : List Char) : decode named cs = some (codes cs) ↔ noEscape cs = true := by
  refine ⟨fun h => ?_, decode_noEscape cs⟩
  exact (decode_length _ cs _ le_rfl h).2 (List.length_map _)

/-- No character has a name. -/
def noNames : List Char → Option ℕ := fun _ => none

/-! ## Where a body ends -/

/-- What can stand between double quotes. -/
def shortOk : List Char → Bool
  | [] => true
  | c :: cs =>
    if c = '\\' then
      match cs with
      | [] => false
      | d :: ds => d ≠ '\r' && d.toNat ≠ 0 && shortOk ds
    else c ≠ '"' && c ≠ '\n' && c ≠ '\r' && c.toNat ≠ 0 && shortOk cs

theorem shortOk_cons {c : Char} (hc : c ≠ '\\') (cs : List Char) :
    shortOk (c :: cs) = (c ≠ '"' && c ≠ '\n' && c ≠ '\r' && c.toNat ≠ 0 && shortOk cs) := by
  cases cs <;> simp [shortOk, hc]

theorem shortBody_spec {cs b r : List Char} (h : shortBody cs = some (b, r)) :
    cs = b ++ '"' :: r ∧ shortOk b = true := by
  fun_induction shortBody cs generalizing b with
  | case1 => cases h
  | case2 => cases h
  | case3 => cases h
  | case4 d ds hd ih =>
    obtain ⟨⟨b', r'⟩, hb, h⟩ := Option.map_eq_some_iff.1 h
    obtain ⟨rfl, rfl⟩ := Prod.mk.inj h
    obtain ⟨rfl, hok⟩ := ih hb
    rw [not_or] at hd
    exact ⟨rfl, by simp [shortOk, hd, hok]⟩
  | case5 cs hc =>
    obtain ⟨rfl, rfl⟩ := Prod.mk.inj (Option.some.inj h)
    exact ⟨rfl, rfl⟩
  | case6 => cases h
  | case7 c cs hc hq hn ih =>
    obtain ⟨⟨b', r'⟩, hb, h⟩ := Option.map_eq_some_iff.1 h
    obtain ⟨rfl, rfl⟩ := Prod.mk.inj h
    obtain ⟨rfl, hok⟩ := ih hb
    rw [not_or, not_or] at hn
    exact ⟨rfl, by rw [shortOk_cons hc]; simp [hq, hn, hok]⟩

theorem shortBody_append {b : List Char} (h : shortOk b = true) (r : List Char) :
    shortBody (b ++ '"' :: r) = some (b, r) := by
  fun_induction shortOk b with
  | case1 => rw [List.nil_append, shortBody.eq_def]; rfl
  | case2 => cases h
  | case3 d ds ih =>
    simp only [Bool.and_eq_true, decide_eq_true_eq] at h
    simp [shortBody, h, ih h.2]
  | case4 c cs hc ih =>
    simp only [Bool.and_eq_true, decide_eq_true_eq] at h
    simp only [List.cons_append]
    rw [shortBody.eq_def]
    simp [hc, h, ih h.2]

/-- What can stand between triple quotes: read from the quotes that follow, it ends there. -/
def longOk (b : List Char) : Bool := longBody (b ++ ['"', '"', '"']) = some (b, [])

theorem take_two_quotes (b r r' : List Char) :
    (b ++ '"' :: '"' :: '"' :: r).take 2 = (b ++ '"' :: '"' :: '"' :: r').take 2 := by
  match b with
  | [] => rfl
  | [_] => rfl
  | _ :: _ :: _ => rfl

theorem longBody_spec {cs b r : List Char} (h : longBody cs = some (b, r)) :
    cs = b ++ '"' :: '"' :: '"' :: r ∧
      ∀ r', longBody (b ++ '"' :: '"' :: '"' :: r') = some (b, r') := by
  fun_induction longBody cs generalizing b with
  | case1 => cases h
  | case2 => cases h
  | case3 => cases h
  | case4 d ds hd ih =>
    obtain ⟨⟨b', r'⟩, hb, h⟩ := Option.map_eq_some_iff.1 h
    obtain ⟨rfl, rfl⟩ := Prod.mk.inj h
    obtain ⟨rfl, hok⟩ := ih hb
    refine ⟨rfl, fun r' => ?_⟩
    simp [longBody, hd, hok r']
  | case5 c cs hc hq =>
    obtain ⟨rfl, rfl⟩ := Prod.mk.inj (Option.some.inj h)
    obtain ⟨rfl, hq⟩ := hq
    refine ⟨?_, fun r' => by rw [List.nil_append, longBody.eq_def]; rfl⟩
    rw [List.nil_append, List.cons_inj_right, ← List.take_append_drop 2 cs, hq]
    rfl
  | case6 => cases h
  | case7 c cs hc hq hn ih =>
    obtain ⟨⟨b', r'⟩, hb, h⟩ := Option.map_eq_some_iff.1 h
    obtain ⟨rfl, rfl⟩ := Prod.mk.inj h
    obtain ⟨rfl, hok⟩ := ih hb
    refine ⟨rfl, fun r'' => ?_⟩
    -- whether the quotes close does not depend on what follows them
    rw [take_two_quotes b' r' r''] at hq
    rw [List.cons_append, longBody.eq_def]
    simp only [if_neg hc, if_neg hq, if_neg hn, hok r'', Option.map_some]

theorem longOk_of_longBody {cs b r : List Char} (h : longBody cs = some (b, r)) : longOk b = true :=
  decide_eq_true ((longBody_spec h).2 [])

theorem longBody_append {b : List Char} (h : longOk b = true) (r : List Char) :
    longBody (b ++ '"' :: '"' :: '"' :: r) = some (b, r) :=
  (longBody_spec (of_decide_eq_true h)).2 r

theorem shortOk_head {b : List Char} (h : shortOk b = true) : b.head? ≠ some '"' := by
  cases b with
  | nil => simp
  | cons c cs =>
    rw [List.head?_cons]
    rintro ⟨⟩
    rw [shortOk_cons (by decide)] at h
    simp at h

/-! ## Bodies that `json.dumps` writes -/

/-- What an escaped character denotes to Python, which does not join surrogates. -/
def units (c : Char) : List ℕ :=
  if c.toNat < 0x10000 then [c.toNat] else [Json.highSurrogate c.toNat, Json.lowSurrogate c.toNat]

theorem hexDigit?_digitChar : ∀ n < 16, hexDigit? (Nat.digitChar n) = some n := by decide

theorem readHex_hex4 {u : ℕ} (hu : u < 65536) (rest : List Char) :
    readHex 4 (Json.hex4 u ++ rest) = some ([u], rest) := by
  have h (m : ℕ) : hexDigit? (Nat.digitChar (m % 16)) = some (m % 16) :=
    hexDigit?_digitChar _ (Nat.mod_lt _ (by decide))
  have hn : 16 * (16 * (16 * (16 * 0 + u / 4096 % 16) + u / 256 % 16) + u / 16 % 16) + u % 16 = u := by omega
  simp only [readHex, Json.hex4, List.cons_append, List.nil_append, List.length_cons, List.take_succ_cons,
    List.take_zero, List.mapM_cons, List.mapM_nil, h, Option.pure_def, Option.bind_eq_bind, Option.bind_some,
    List.foldl_cons, List.foldl_nil, hn, List.drop_succ_cons, List.drop_zero]
  rw [if_pos (by omega), if_pos (by omega)]

theorem decode_unit {u : ℕ} (hu : u < 65536) (rest : List Char) :
    decode named (Json.escapeUnit u ++ rest) = (decode named rest).map (u :: ·) := by
  have hread : readEscape named ('u' :: (Json.hex4 u ++ rest)) = some ([u], rest) := readHex_hex4 hu rest
  rw [Json.escapeUnit, List.cons_append, List.cons_append, decode_backslash, hread]
  rfl

/-- **An escaped character denotes its UTF-16 units.** -/
theorem decode_escapeChar (c : Char) (rest : List Char) :
    decode named (Json.escapeChar c ++ rest) = (decode named rest).map (units c ++ ·) := by
  have hletter (d : Char) (n : ℕ) (h : readEscape named (d :: rest) = some ([n], rest)) (hc : units c = [n]) :
      decode named (['\\', d] ++ rest) = (decode named rest).map (units c ++ ·) := by
    rw [List.cons_append, List.singleton_append, decode_backslash, h, hc]
    rfl
  unfold Json.escapeChar
  split_ifs with h1 h2 h3 h4 h5 h6 h7 h8 h9
  · exact hletter _ 34 rfl (by rw [h1]; rfl)
  · exact hletter _ 92 rfl (by rw [h2]; rfl)
  · exact hletter _ 10 rfl (by rw [h3]; rfl)
  · exact hletter _ 13 rfl (by rw [h4]; rfl)
  · exact hletter _ 9 rfl (by rw [h5]; rfl)
  · exact hletter _ 12 rfl (by rw [h6]; rfl)
  · exact hletter _ 8 rfl (by rw [h7]; rfl)
  · rw [List.singleton_append, decode_cons h2, units, if_pos (by omega)]
    rfl
  · rw [decode_unit h9, units, if_pos h9]
    rfl
  · have hc := Json.char_range c
    have hs := Json.highSurrogate_range (n := c.toNat) (by omega)
    rw [List.append_assoc, decode_unit (by omega), decode_unit (Json.lowSurrogate_lt _), units, if_neg h9,
      Option.map_map]
    rfl

theorem decode_escape (s : List Char) : decode named (Json.escape s) = some (s.flatMap units) := by
  induction s with
  | nil => rfl
  | cons c cs ih =>
    have heq : Json.escape (c :: cs) = Json.escapeChar c ++ Json.escape cs := rfl
    rw [heq, decode_escapeChar, ih]
    rfl

/-- A body that `json.dumps` wrote denotes the text exactly where no character is outside
the basic plane. -/
theorem decode_escape_iff (s : List Char) :
    decode named (Json.escape s) = some (codes s) ↔ s.all (fun c => c.toNat < 0x10000) = true := by
  rw [decode_escape, Option.some.injEq]
  induction s with
  | nil => simp [codes]
  | cons c cs ih =>
    have hcodes : codes (c :: cs) = c.toNat :: codes cs := rfl
    rw [List.flatMap_cons, hcodes, List.all_cons, Bool.and_eq_true, decide_eq_true_eq, ← ih, units]
    split
    · next hc => simp [hc]
    · next hc =>
      -- the first of two surrogates is no character
      have hr := Json.char_range c
      have hs := Json.highSurrogate_range (n := c.toNat) (by omega)
      simp only [List.cons_append, List.cons.injEq, hc, false_and, iff_false, not_and]
      intro he
      omega

end PySource

end Vellum
