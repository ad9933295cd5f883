import Vellum.Lib.PythonLiteral

/-!
# Reading Python source

The lexical analysis of Python, as far as text without comments, single quotes and
string prefixes needs it: words, operators, and string literals with the value they
denote. A token keeps the text it was read from, so that where a literal ends can be
told apart from what it denotes.

* `lex_iff`: a text is read as a list of tokens exactly when it is their texts one after
  the other, each token is well formed, and none runs into the next.
* `lexes_append`: two texts can be put together where the last token of the first does
  not run into the second.
-/

namespace Vellum.PySource

/-! ## Tokens -/

inductive Token where
  /-- A name, a keyword or a number. -/
  | word (w : List Char)
  /-- An operator or a bracket, a blank or a line break. -/
  | punct (p : List Char)
  /-- A literal between double quotes, with its value. -/
  | str (body : List Char) (value : List ℕ)
  /-- A literal between triple quotes; here these are docstrings, and nothing reads them. -/
  | doc (body : List Char)
deriving DecidableEq

/-- The text of a token. -/
def Token.raw : Token → List Char
  | word w => w
  | punct p => p
  | str body _ => '"' :: (body ++ ['"'])
  | doc body => '"' :: '"' :: '"' :: (body ++ ['"', '"', '"'])

def raws (ts : List Token) : List Char := ts.flatMap Token.raw

def wordChar (c : Char) : Bool :=
  let n := c.toNat
  (97 ≤ n && n ≤ 122) || (65 ≤ n && n ≤ 90) || (48 ≤ n && n ≤ 57) || n = 95

/-- The other characters of code: a comment, a quote, a continued line or a character
outside printable ASCII is not read. -/
def punctChar (c : Char) : Bool :=
  (c = '\n' || (32 ≤ c.toNat && c.toNat ≤ 126)) && !wordChar c && c ∉ ['"', '\'', '#', '\\']

/-- The operators that an equals sign makes another operator of. -/
def comparisonChar (c : Char) : Bool := c ∈ ['=', '<', '>', '!']

/-- A literal, its opening quote read. -/
def readLiteral (named : List Char → Option ℕ) (cs : List Char) : Option (Token × List Char) :=
  if cs.take 2 = ['"', '"'] then
    (longBody (cs.drop 2)).bind fun (b, r) => (decode named b).map fun _ => (.doc b, r)
  else (shortBody cs).bind fun (b, r) => (decode named b).map fun v => (.str b v, r)

/-- The first token of a text. -/
def readToken (named : List Char → Option ℕ) : List Char → Option (Token × List Char)
  | [] => none
  | c :: cs =>
    if c = '"' then readLiteral named cs
    else if wordChar c then
      let rest := cs.dropWhile wordChar
      -- a word before a quote would be a prefix of the literal
      if rest.head? = some '"' then none else some (.word (c :: cs.takeWhile wordChar), rest)
    else if comparisonChar c ∧ cs.head? = some '=' then some (.punct [c, '='], cs.tail)
    else if punctChar c then some (.punct [c], cs)
    else none

/-- The tokens of a text, with fuel for the characters. -/
def lexFrom (named : List Char → Option ℕ) : ℕ → List Char → Option (List Token)
  | _, [] => some []
  | 0, _ :: _ => none
  | k + 1, c :: cs =>
    (readToken named (c :: cs)).bind fun (t, rest) => (lexFrom named k rest).map (t :: ·)

/-- The tokens of a text. -/
def lex (named : List Char → Option ℕ) (cs : List Char) : Option (List Token) :=
  lexFrom named cs.length cs

variable {named : List Char → Option ℕ}

/-! ## Tokens and their texts -/

namespace Token

/-- A token that can be read from its text. -/
def WellFormed (named : List Char → Option ℕ) : Token → Prop
  | word w => w ≠ [] ∧ w.all wordChar = true
  | punct p => (∃ c, p = [c] ∧ punctChar c = true) ∨ ∃ c, p = [c, '='] ∧ comparisonChar c = true
  | str b v => shortOk b = true ∧ decode named b = some v
  | doc b => longOk b = true ∧ (decode named b).isSome = true

/-- A token that does not run into the character after it. -/
def Before (next : Option Char) : Token → Prop
  | word _ => ∀ c ∈ next, wordChar c = false ∧ c ≠ '"'
  | punct p => ∀ c, p = [c] → comparisonChar c = true → next ≠ some '='
  | str b _ => b = [] → next ≠ some '"'
  | doc _ => True

end Token

theorem punctChar_spec {c : Char} (h : punctChar c = true) : c ≠ '"' ∧ wordChar c = false := by
  simp only [punctChar, Bool.and_eq_true, Bool.not_eq_true', decide_eq_true_eq, List.mem_cons, not_or] at h
  exact ⟨h.2.1, h.1.2⟩

theorem comparisonChar_spec {c : Char} (h : comparisonChar c = true) : punctChar c = true := by
  simp only [comparisonChar, decide_eq_true_eq, List.mem_cons, List.not_mem_nil, or_false] at h
  rcases h with rfl | rfl | rfl | rfl <;> decide +kernel

theorem readLiteral_spec {cs rest : List Char} {t : Token} (h : readLiteral named cs = some (t, rest)) :
    '"' :: cs = t.raw ++ rest ∧ t.WellFormed named ∧ t.Before rest.head? := by
  unfold readLiteral at h
  split at h
  · next hq =>
    obtain ⟨⟨b, r⟩, hb, h⟩ := Option.bind_eq_some_iff.1 h
    obtain ⟨v, hv, h⟩ := Option.map_eq_some_iff.1 h
    obtain ⟨rfl, rfl⟩ := Prod.mk.inj h
    refine ⟨?_, ⟨longOk_of_longBody hb, by rw [hv]; rfl⟩, trivial⟩
    rw [← List.take_append_drop 2 cs, hq, (longBody_spec hb).1]
    simp [Token.raw]
  · next hq =>
    obtain ⟨⟨b, r⟩, hb, h⟩ := Option.bind_eq_some_iff.1 h
    obtain ⟨v, hv, h⟩ := Option.map_eq_some_iff.1 h
    obtain ⟨rfl, rfl⟩ := Prod.mk.inj h
    obtain ⟨rfl, hok⟩ := shortBody_spec hb
    refine ⟨by simp [Token.raw], ⟨hok, hv⟩, ?_⟩
    -- two quotes and a third would have opened a long literal
    rintro rfl hr
    obtain ⟨r', rfl⟩ := List.head?_eq_some_iff.1 hr
    exact hq rfl

/-- **What was read** is the text of the token, and no more of the text belongs to it. -/
theorem readToken_spec {cs rest : List Char} {t : Token} (h : readToken named cs = some (t, rest)) :
    cs = t.raw ++ rest ∧ t.WellFormed named ∧ t.Before rest.head? := by
  cases cs with
  | nil => cases h
  | cons c cs =>
    unfold readToken at h
    dsimp only at h
    split_ifs at h with h1 h2 h3 h4 h5
    · rw [h1]
      exact readLiteral_spec h
    · obtain ⟨rfl, rfl⟩ := Prod.mk.inj (Option.some.inj h)
      refine ⟨?_, ⟨by simp, ?_⟩, ?_⟩
      · rw [Token.raw, List.cons_append, List.takeWhile_append_dropWhile]
      · rw [List.all_cons, h2, Bool.true_and]
        exact List.all_takeWhile
      · intro d hd
        refine ⟨?_, fun he => h3 (by rw [← he]; exact hd)⟩
        have hnot := List.head?_dropWhile_not wordChar cs
        rw [hd] at hnot
        simpa using hnot
    · obtain ⟨rfl, rfl⟩ := Prod.mk.inj (Option.some.inj h)
      obtain ⟨cs', rfl⟩ := List.head?_eq_some_iff.1 h4.2
      refine ⟨rfl, .inr ⟨c, rfl, h4.1⟩, ?_⟩
      intro d hd
      cases hd
    · obtain ⟨rfl, rfl⟩ := Prod.mk.inj (Option.some.inj h)
      refine ⟨rfl, .inl ⟨c, rfl, h5⟩, ?_⟩
      intro d hd hcmp heq
      obtain rfl := (List.cons.inj hd).1
      exact h4 ⟨hcmp, heq⟩

/-- A well-formed token is read back from its text. -/
theorem readToken_raw {t : Token} {rest : List Char} (hwf : t.WellFormed named) (hb : t.Before rest.head?) :
    readToken named (t.raw ++ rest) = some (t, rest) := by
  cases t with
  | word w =>
    obtain ⟨hne, hall⟩ := hwf
    cases w with
    | nil => exact absurd rfl hne
    | cons c w =>
      rw [List.all_cons, Bool.and_eq_true, List.all_eq_true] at hall
      have hq : c ≠ '"' := by
        rintro rfl
        exact absurd hall.1 (by decide)
      have hstop : ∀ d ∈ rest.head?, ¬ wordChar d = true := fun d hd => by rw [(hb d hd).1]; simp
      have hdrop : rest.dropWhile wordChar = rest := by
        cases rest with
        | nil => rfl
        | cons d ds => rw [List.dropWhile_cons_of_neg (hstop d rfl)]
      have htake : rest.takeWhile wordChar = [] := by
        cases rest with
        | nil => rfl
        | cons d ds => rw [List.takeWhile_cons_of_neg (hstop d rfl)]
      have hhead : rest.head? ≠ some '"' := fun he => (hb '"' he).2 rfl
      rw [Token.raw, List.cons_append, readToken, if_neg hq, if_pos hall.1,
        List.dropWhile_append_of_pos hall.2, List.takeWhile_append_of_pos hall.2, hdrop, htake,
        if_neg hhead, List.append_nil]
  | punct p =>
    rcases hwf with ⟨c, rfl, hc⟩ | ⟨c, rfl, hc⟩
    · obtain ⟨hq, hw⟩ := punctChar_spec hc
      have hcmp : ¬ (comparisonChar c = true ∧ rest.head? = some '=') := fun h => hb c rfl h.1 h.2
      simp [Token.raw, readToken, hq, hw, hcmp, hc]
    · obtain ⟨hq, hw⟩ := punctChar_spec (comparisonChar_spec hc)
      simp [Token.raw, readToken, hq, hw, hc]
  | str b v =>
    have hq : ¬ (b ++ '"' :: rest).take 2 = ['"', '"'] := by
      cases b with
      | nil =>
        cases rest with
        | nil => simp
        | cons d ds =>
          intro he
          simp only [List.nil_append, List.take_succ_cons, List.take_zero, List.cons.injEq, true_and, and_true] at he
          exact hb rfl (by rw [he]; rfl)
      | cons c cs =>
        intro he
        have hc : c = '"' := (List.cons.inj he).1
        exact shortOk_head hwf.1 (by rw [hc]; rfl)
    rw [Token.raw, List.cons_append, List.append_assoc, List.singleton_append, readToken, if_pos rfl, readLiteral,
      if_neg hq, shortBody_append hwf.1, Option.bind_some]
    dsimp only
    rw [hwf.2, Option.map_some]
  | doc b =>
    obtain ⟨v, hv⟩ := Option.isSome_iff_exists.1 hwf.2
    have hraw : (Token.doc b).raw ++ rest = '"' :: '"' :: '"' :: (b ++ '"' :: '"' :: '"' :: rest) := by
      simp [Token.raw]
    have hlong := longBody_append hwf.1 rest
    have hq : ('"' :: '"' :: (b ++ '"' :: '"' :: '"' :: rest)).take 2 = ['"', '"'] := rfl
    rw [hraw, readToken, if_pos rfl, readLiteral, if_pos hq]
    simp only [List.drop_succ_cons, List.drop_zero]
    rw [hlong, Option.bind_some]
    dsimp only
    rw [hv, Option.map_some]

theorem raw_ne_nil {t : Token} (h : t.WellFormed named) : t.raw ≠ [] := by
  cases t with
  | word w => exact h.1
  | punct p => rcases h with ⟨c, rfl, -⟩ | ⟨c, rfl, -⟩ <;> simp [Token.raw]
  | str b v => simp [Token.raw]
  | doc b => simp [Token.raw]

theorem readToken_length {cs rest : List Char} {t : Token} (h : readToken named cs = some (t, rest)) :
    rest.length < cs.length := by
  obtain ⟨rfl, hwf, -⟩ := readToken_spec h
  have hpos := List.length_pos_iff.2 (raw_ne_nil hwf)
  rw [List.length_append]
  omega

/-- Fuel for every character is enough. -/
theorem lexFrom_fuel : ∀ (k : ℕ) (cs : List Char), cs.length ≤ k → lexFrom named k cs = lex named cs := by
  intro k
  induction k using Nat.strong_induction_on with
  | _ k ih =>
    intro cs hk
    cases cs with
    | nil => rw [lex, lexFrom, lexFrom]
    | cons c cs =>
      rw [List.length_cons] at hk
      obtain ⟨k, rfl⟩ : ∃ j, k = j + 1 := ⟨k - 1, by omega⟩
      rw [lex, List.length_cons, lexFrom, lexFrom]
      cases hr : readToken named (c :: cs) with
      | none => rfl
      | some p =>
        have hlt := readToken_length hr
        rw [List.length_cons] at hlt
        simp only [Option.bind_some]
        rw [ih k (by omega) _ (by omega)]
        by_cases hk' : cs.length = k
        · rw [hk', ih k (by omega) _ (by omega)]
        · rw [ih cs.length (by omega) _ (by omega)]

theorem lex_cons (c : Char) (cs : List Char) : lex named (c :: cs) =
    (readToken named (c :: cs)).bind fun (t, rest) => (lex named rest).map (t :: ·) := by
  rw [lex, List.length_cons, lexFrom]
  cases hr : readToken named (c :: cs) with
  | none => rfl
  | some p =>
    have hlt := readToken_length hr
    rw [List.length_cons] at hlt
    simp only [Option.bind_some]
    rw [lexFrom_fuel _ _ (by omega)]

/-- Tokens that can be read one after the other. -/
inductive Lexes (named : List Char → Option ℕ) : List Token → Prop
  | nil : Lexes named []
  | cons {t : Token} {ts : List Token} : t.WellFormed named → t.Before (raws ts).head? → Lexes named ts →
      Lexes named (t :: ts)

theorem lex_ok (cs : List Char) : ∀ ts, lex named cs = some ts → cs = raws ts ∧ Lexes named ts := by
  induction hn : cs.length using Nat.strong_induction_on generalizing cs with
  | _ n ih =>
    intro ts h
    cases cs with
    | nil =>
      cases h
      exact ⟨rfl, .nil⟩
    | cons c cs =>
      rw [lex_cons] at h
      obtain ⟨⟨t, rest⟩, ht, h⟩ := Option.bind_eq_some_iff.1 h
      obtain ⟨us, hus, rfl⟩ := Option.map_eq_some_iff.1 h
      obtain ⟨hcs, hwf, hb⟩ := readToken_spec ht
      obtain ⟨rfl, hok⟩ := ih rest.length (hn ▸ readToken_length ht) rest rfl us hus
      exact ⟨hcs, .cons hwf hb hok⟩

theorem lex_raws {ts : List Token} (h : Lexes named ts) : lex named (raws ts) = some ts := by
  induction h with
  | nil => rfl
  | @cons t ts hwf hb hok ih =>
    have hread := readToken_raw hwf hb
    have hraw : raws (t :: ts) = t.raw ++ raws ts := rfl
    obtain ⟨c, cs, hc⟩ := List.exists_cons_of_ne_nil (show t.raw ++ raws ts ≠ [] by simp [raw_ne_nil hwf])
    rw [hraw, hc, lex_cons, ← hc, hread, Option.bind_some]
    dsimp only
    rw [ih, Option.map_some]

/-- **What a text is read as.** -/
theorem lex_iff {cs : List Char} {ts : List Token} :
    lex named cs = some ts ↔ cs = raws ts ∧ Lexes named ts := by
  refine ⟨lex_ok cs ts, ?_⟩
  rintro ⟨rfl, h⟩
  exact lex_raws h

/-! ## Putting texts together -/

/-- A token that runs into nothing. -/
def Token.closes : Token → Bool
  | word _ => false
  | punct [c] => !comparisonChar c
  | punct _ => true
  | str b _ => b ≠ []
  | doc _ => true

/-- A character that no token runs into. -/
def openChar (c : Char) : Bool := !wordChar c && c ≠ '"' && c ≠ '='

theorem before_of_closes {t : Token} (h : t.closes = true) (next : Option Char) : t.Before next := by
  cases t with
  | word w => cases h
  | punct p =>
    rintro c rfl hc
    simp [Token.closes, hc] at h
  | str b v =>
    intro hb
    simp [Token.closes, hb] at h
  | doc b => trivial

theorem before_of_open {next : Option Char} (h : ∀ c ∈ next, openChar c = true) (t : Token) : t.Before next := by
  have hq : next ≠ some '"' := fun he => absurd (h _ he) (by decide)
  have he : next ≠ some '=' := fun he => absurd (h _ he) (by decide)
  cases t with
  | word w =>
    intro c hc
    have hopen := h c hc
    simp only [openChar, Bool.and_eq_true, Bool.not_eq_true', decide_eq_true_eq] at hopen
    exact ⟨hopen.1.1, hopen.1.2⟩
  | punct p => exact fun c _ _ => he
  | str b v => exact fun _ => hq
  | doc b => trivial

/-- The last token of the first text and the first character of the second stay apart. -/
def Joins (a b : List Token) : Prop :=
  (∀ t ∈ a.getLast?, t.closes = true) ∨ ∀ c ∈ (raws b).head?, openChar c = true

theorem raws_cons (t : Token) (ts : List Token) : raws (t :: ts) = t.raw ++ raws ts := rfl

@[simp] theorem raws_append (a b : List Token) : raws (a ++ b) = raws a ++ raws b := List.flatMap_append

theorem lexes_append {a b : List Token} (ha : Lexes named a) (hb : Lexes named b) (hj : Joins a b) :
    Lexes named (a ++ b) := by
  induction ha with
  | nil => exact hb
  | @cons t a hwf hbef hok ih =>
    cases hok with
    | nil =>
      refine .cons hwf ?_ hb
      rcases hj with hj | hj
      · exact before_of_closes (hj t rfl) _
      · exact before_of_open hj t
    | @cons u us hu hubef hus =>
      refine .cons hwf ?_ (ih (by simpa [Joins] using hj))
      rw [raws_cons, List.head?_append_of_ne_nil _ (raw_ne_nil hu)] at hbef
      change Token.Before (raws (u :: (us ++ b))).head? t
      rw [raws_cons, List.head?_append_of_ne_nil _ (raw_ne_nil hu)]
      exact hbef

theorem Lexes.wellFormed {ts : List Token} (h : Lexes named ts) {t : Token} (ht : t ∈ ts) :
    t.WellFormed named := by
  induction h with
  | nil => cases ht
  | cons hwf _ _ ih =>
    rcases List.mem_cons.1 ht with rfl | ht
    · exact hwf
    · exact ih ht

end Vellum.PySource
