import Vellum.Spec.PythonModule

/-!
# The tokens of the decision

The decision of the generated module token by token, with its text and with the condition
for reading it back.

* `PyBool.raws_tokens`: the text is the one the renderer writes.
* `PyBool.lexes_tokens`: it can be read, if each literal can.
* `literal_wellFormed_iff`: when a literal denotes the string it was written for.
-/

namespace Vellum

open PySource

variable {named : List Char → Option ℕ}

/-! ## Tokens one after the other -/

/-- The last token runs into nothing. -/
def ClosesAtEnd (ts : List Token) : Prop := ∀ t ∈ ts.getLast?, t.closes = true

/-- Nothing runs into the first character. -/
def Opens (ts : List Token) : Prop := ∀ c ∈ (raws ts).head?, openChar c = true

theorem lexes_single {t : Token} (h : t.WellFormed named) : Lexes named [t] :=
  .cons h (before_of_open (by simp [raws]) t) .nil

theorem lexes_ends {a b : List Token} (ha : Lexes named a) (he : ClosesAtEnd a) (hb : Lexes named b) :
    Lexes named (a ++ b) := lexes_append ha hb (.inl he)

theorem lexes_opens {a b : List Token} (ha : Lexes named a) (hb : Lexes named b) (ho : Opens b) :
    Lexes named (a ++ b) := lexes_append ha hb (.inr ho)

/-- Brackets, blanks and commas run into nothing, and nothing runs into them. -/
def separator (c : Char) : Bool := punctChar c && !comparisonChar c

theorem mark_wellFormed {c : Char} (h : separator c = true) : (mark c).WellFormed named := by
  rw [separator, Bool.and_eq_true] at h
  exact .inl ⟨c, rfl, h.1⟩

theorem mark_closes {c : Char} (h : separator c = true) : (mark c).closes = true := by
  rw [separator, Bool.and_eq_true] at h
  exact h.2

theorem opens_mark {c : Char} (h : separator c = true) (ts : List Token) : Opens (mark c :: ts) := by
  intro d hd
  obtain rfl : c = d := Option.some.inj hd
  rw [separator, Bool.and_eq_true, Bool.not_eq_true'] at h
  have hne : c ≠ '=' := by
    rintro rfl
    exact absurd h.2 (by decide)
  obtain ⟨hq, hw⟩ := punctChar_spec h.1
  simp [openChar, hw, hq, hne]

theorem lexes_mark {c : Char} (h : separator c = true) {ts : List Token} (hts : Lexes named ts) :
    Lexes named (mark c :: ts) :=
  lexes_ends (lexes_single (mark_wellFormed h)) (by rintro t ⟨⟩; exact mark_closes h) hts

/-- Tokens before a separator. -/
theorem lexes_before_mark {a ts : List Token} (ha : Lexes named a) {c : Char} (h : separator c = true)
    (hts : Lexes named ts) : Lexes named (a ++ mark c :: ts) :=
  lexes_opens ha (lexes_mark h hts) (opens_mark h ts)

/-- A single token before a separator. -/
theorem lexes_token_mark {t : Token} (ht : t.WellFormed named) {c : Char} (h : separator c = true)
    {ts : List Token} (hts : Lexes named ts) : Lexes named (t :: mark c :: ts) :=
  lexes_before_mark (lexes_single ht) h hts

theorem ends_mark {c : Char} (h : separator c = true) (ts : List Token) : ClosesAtEnd (ts ++ [mark c]) := by
  intro t ht
  rw [List.getLast?_append_of_ne_nil _ (by simp)] at ht
  obtain rfl : mark c = t := Option.some.inj ht
  exact mark_closes h

theorem word_wellFormed {s : String} (h : s.toList ≠ []) (hall : s.toList.all wordChar = true) :
    (word s).WellFormed named := ⟨h, hall⟩

theorem digits_wordChar (n : ℕ) : (Nat.toDigits 10 n).all wordChar = true := by
  rw [List.all_eq_true]
  intro c hc
  have hd := Nat.isDigit_of_mem_toDigits (by decide) (by decide) hc
  simp only [Char.isDigit, Bool.and_eq_true, decide_eq_true_eq] at hd
  have h1 : 48 ≤ c.toNat := hd.1
  have h2 : c.toNat ≤ 57 := hd.2
  simp [wordChar, h1, h2]

theorem digits_wellFormed (n : ℕ) : (Token.word (Nat.toDigits 10 n)).WellFormed named :=
  ⟨Nat.toDigits_ne_nil, digits_wordChar n⟩

/-! ## Numbers -/

theorem lexes_int (i : ℤ) : Lexes named (intTokens i) := by
  unfold intTokens
  split
  · exact lexes_mark (by decide) (lexes_single (digits_wellFormed _))
  · exact lexes_single (digits_wellFormed _)

theorem raws_int (i : ℤ) : raws (intTokens i) = i.repr.toList := by
  cases i with
  | ofNat n =>
    have hn : ¬ Int.ofNat n < 0 := Int.not_lt.2 (Int.natCast_nonneg n)
    rw [intTokens, if_neg hn]
    simp [raws, Token.raw, Int.repr]
  | negSucc n => simp [intTokens, raws, Token.raw, Int.repr, mark, Int.negSucc_lt_zero]

/-! ## The decision -/

/-- **Induction on a rendered decision**, with the hypothesis for every argument. -/
@[elab_as_elim]
theorem PyBool.ind {motive : PyBool → Prop} (compare : ∀ op l r, motive (.compare op l r))
    (and : ∀ args, (∀ e ∈ args, motive e) → motive (.and args))
    (or : ∀ args, (∀ e ∈ args, motive e) → motive (.or args))
    (not : ∀ inner, motive inner → motive (.not inner))
    (aggregate : ∀ kind inner k, motive inner → motive (.aggregate kind inner k)) (e : PyBool) : motive e :=
  @PyBool.rec motive (fun l => ∀ e ∈ l, motive e) compare and or not aggregate (by simp)
    (fun _ _ h hs => List.forall_mem_cons.2 ⟨h, hs⟩) e

/-- The parameters that a rendered value reads. -/
def PyValue.params : PyValue → List String
  | .param name => [name]
  | _ => []

mutual

def PyBool.params : PyBool → List String
  | .compare _ l r => l.params ++ r.params
  | .and args => PyBool.paramsArgs args
  | .or args => PyBool.paramsArgs args
  | .not inner => inner.params
  | .aggregate _ inner _ => inner.params

def PyBool.paramsArgs : List PyBool → List String
  | [] => []
  | e :: es => e.params ++ PyBool.paramsArgs es

end

theorem PyBool.textArgs_eq (l : List PyBool) : PyBool.textArgs l = l.map PyBool.text := by
  induction l with
  | nil => rfl
  | cons e es ih => rw [PyBool.textArgs, ih, List.map_cons]

theorem PyBool.tokensArgs_eq (l : List PyBool) : PyBool.tokensArgs l = l.map PyBool.tokens := by
  induction l with
  | nil => rfl
  | cons e es ih => rw [PyBool.tokensArgs, ih, List.map_cons]

theorem PyBool.paramsArgs_eq (l : List PyBool) : PyBool.paramsArgs l = l.flatMap PyBool.params := by
  induction l with
  | nil => rfl
  | cons e es ih => rw [PyBool.paramsArgs, ih, List.flatMap_cons]

theorem raws_cons_mark (c : Char) (ts : List Token) : raws (mark c :: ts) = c :: raws ts := rfl

theorem raws_cons_word (s : String) (ts : List Token) : raws (word s :: ts) = s.toList ++ raws ts := rfl

theorem raws_cons_literal (s : String) (ts : List Token) :
    raws (literal s :: ts) = '"' :: (s.toList ++ '"' :: raws ts) := by
  simp [raws_cons, literal, Token.raw]

theorem raws_nil : raws [] = [] := rfl

theorem raws_intercalate (sep : List Token) (l : List (List Token)) :
    raws (sep.intercalate l) = (raws sep).intercalate (l.map raws) := by
  induction l with
  | nil => rfl
  | cons a t ih =>
    cases t with
    | nil => simp
    | cons b t => simp [ih]

theorem PyValue.raws_tokens (v : PyValue) : raws v.tokens = v.text.toList := by
  cases v with
  | int i => exact raws_int i
  | param name =>
    have htext : (PyValue.param name).text = "policy_params[\"" ++ name ++ "\"]" := rfl
    rw [htext, PyValue.tokens, raws_cons_word, raws_cons_mark, raws_cons_literal, raws_cons_mark, raws_nil,
      String.toList_append, String.toList_append]
    repeat rw [String.toList_ofList]
    simp
  | balances k =>
    have htext : (PyValue.balances k).text = "balances[" ++ idxVar k ++ "]" := rfl
    rw [htext, PyValue.tokens, raws_cons_word, raws_cons_mark, raws_cons_word, raws_cons_mark, raws_nil,
      String.toList_append, String.toList_append]
    repeat rw [String.toList_ofList]
    simp
  | limits k =>
    have htext : (PyValue.limits k).text = "limits[" ++ idxVar k ++ "]" := rfl
    rw [htext, PyValue.tokens, raws_cons_word, raws_cons_mark, raws_cons_word, raws_cons_mark, raws_nil,
      String.toList_append, String.toList_append]
    repeat rw [String.toList_ofList]
    simp
  | activeCount =>
    rw [PyValue.tokens, raws_cons_word, raws_nil, List.append_nil]
    rfl

theorem raws_joined (op : String) (l : List PyBool) (h : ∀ e ∈ l, raws e.tokens = e.text.toList) :
    raws (joined op (PyBool.tokensArgs l)) =
      (String.intercalate (" " ++ op ++ " ") (PyBool.textArgs l)).toList := by
  rw [joined, raws_intercalate, String.toList_intercalate, PyBool.tokensArgs_eq, PyBool.textArgs_eq, List.map_map,
    List.map_map]
  congr 1
  · simp only [raws_cons_mark, raws_cons_word, raws_nil, String.toList_append, List.append_assoc]
    rfl
  · exact List.map_congr_left h

theorem PyBool.raws_tokens (e : PyBool) : raws e.tokens = e.text.toList := by
  induction e using PyBool.ind with
  | compare op l r =>
    have hop (ts : List Token) : raws (.punct op.text.toList :: ts) = op.text.toList ++ raws ts := rfl
    simp only [PyBool.tokens, PyBool.text, raws_append, raws_cons_mark, hop, raws_nil, PyValue.raws_tokens,
      String.toList_append]
    repeat rw [String.toList_ofList]
    simp
  | and args ih =>
    simp only [PyBool.tokens, PyBool.text, raws_append, raws_cons_mark, raws_nil, raws_joined _ args ih,
      String.toList_append]
    rfl
  | or args ih =>
    simp only [PyBool.tokens, PyBool.text, raws_append, raws_cons_mark, raws_nil, raws_joined _ args ih,
      String.toList_append]
    rfl
  | not inner ih =>
    simp only [PyBool.tokens, PyBool.text, raws_append, raws_cons_mark, raws_cons_word, raws_nil, ih,
      String.toList_append]
    repeat rw [String.toList_ofList]
    simp
  | aggregate kind inner k ih =>
    simp only [PyBool.tokens, PyBool.text, raws_append, raws_cons_mark, raws_cons_word, raws_nil, ih,
      String.toList_append]
    repeat rw [String.toList_ofList]
    simp

theorem idxVar_wellFormed (k : ℕ) : (word (idxVar k)).WellFormed named := by
  have hall : (idxVar k).toList.all wordChar = true := by
    rw [idxVar, String.toList_append, List.all_append, Nat.toList_repr, digits_wordChar, Bool.and_true]
    decide
  exact word_wellFormed (by simp [idxVar]) hall

theorem PyValue.lexes_tokens (v : PyValue) (h : ∀ n ∈ v.params, (literal n).WellFormed named) :
    Lexes named v.tokens := by
  cases v with
  | int i => exact lexes_int i
  | param name =>
    have hname := h name (by simp [PyValue.params])
    exact lexes_token_mark (word_wellFormed (by decide) (by decide)) (by decide)
      (lexes_token_mark hname (by decide) .nil)
  | balances k =>
    exact lexes_token_mark (word_wellFormed (by decide) (by decide)) (by decide)
      (lexes_token_mark (idxVar_wellFormed k) (by decide) .nil)
  | limits k =>
    exact lexes_token_mark (word_wellFormed (by decide) (by decide)) (by decide)
      (lexes_token_mark (idxVar_wellFormed k) (by decide) .nil)
  | activeCount => exact lexes_single (word_wellFormed (by decide) (by decide))

theorem op_wellFormed (op : ComparisonOp) : (Token.punct op.text.toList).WellFormed named := by
  cases op with
  | lt => exact .inl ⟨'<', rfl, by decide⟩
  | gt => exact .inl ⟨'>', rfl, by decide⟩
  | le => exact .inr ⟨'<', rfl, by decide⟩
  | ge => exact .inr ⟨'>', rfl, by decide⟩
  | eq => exact .inr ⟨'=', rfl, by decide⟩

/-- Items with a separator between them. -/
theorem lexes_intercalate {sep : List Token} (hsep : Lexes named sep) (he : ClosesAtEnd sep)
    (ho : ∀ ts, Opens (sep ++ ts)) {l : List (List Token)} (h : ∀ ts ∈ l, Lexes named ts) :
    Lexes named (sep.intercalate l) := by
  induction l with
  | nil => exact .nil
  | cons a t ih =>
    cases t with
    | nil =>
      rw [List.intercalate_singleton]
      exact h a (by simp)
    | cons b t =>
      rw [List.intercalate_cons_cons, List.append_assoc]
      have hrest := ih fun ts hts => h ts (List.mem_cons_of_mem _ hts)
      exact lexes_opens (h a (by simp)) (lexes_ends hsep he hrest) (ho _)

/-- The parts of an `and` or an `or`, in their brackets. -/
theorem lexes_joined {op : String} (hop : (word op).WellFormed named) {args : List PyBool}
    (h : ∀ e ∈ args, Lexes named e.tokens) :
    Lexes named ([mark '('] ++ joined op (PyBool.tokensArgs args) ++ [mark ')']) := by
  have hsep : Lexes named [mark ' ', word op, mark ' '] :=
    lexes_mark (by decide) (lexes_token_mark hop (by decide) .nil)
  have hparts : Lexes named (joined op (PyBool.tokensArgs args)) := by
    refine lexes_intercalate hsep (ends_mark (by decide) [mark ' ', word op]) (fun ts => opens_mark (by decide) _) ?_
    intro ts hts
    rw [PyBool.tokensArgs_eq] at hts
    obtain ⟨e, he, rfl⟩ := List.mem_map.1 hts
    exact h e he
  exact lexes_mark (by decide) (lexes_before_mark hparts (by decide) .nil)

theorem kind_wellFormed (kind : AggregateKind) : (word kind.text).WellFormed named := by
  cases kind with
  | all => exact word_wellFormed (by decide) (by decide)
  | any => exact word_wellFormed (by decide) (by decide)

/-- **The tokens of a decision** can be read one after the other, if each name in it can. -/
theorem PyBool.lexes_tokens (e : PyBool) (h : ∀ n ∈ e.params, (literal n).WellFormed named) :
    Lexes named e.tokens := by
  induction e using PyBool.ind with
  | compare op l r =>
    have hl := l.lexes_tokens fun n hn => h n (List.mem_append_left _ hn)
    have hr := r.lexes_tokens fun n hn => h n (List.mem_append_right _ hn)
    simp only [PyBool.tokens, List.append_assoc, List.cons_append, List.nil_append]
    refine lexes_mark (by decide) (lexes_before_mark hl (by decide) ?_)
    exact lexes_token_mark (op_wellFormed op) (by decide) (lexes_before_mark hr (by decide) .nil)
  | and args ih =>
    refine lexes_joined (word_wellFormed (by decide) (by decide)) fun e he => ih e he fun n hn => h n ?_
    rw [PyBool.params, PyBool.paramsArgs_eq]
    exact List.mem_flatMap.2 ⟨e, he, hn⟩
  | or args ih =>
    refine lexes_joined (word_wellFormed (by decide) (by decide)) fun e he => ih e he fun n hn => h n ?_
    rw [PyBool.params, PyBool.paramsArgs_eq]
    exact List.mem_flatMap.2 ⟨e, he, hn⟩
  | not inner ih =>
    simp only [PyBool.tokens, List.cons_append, List.nil_append]
    refine lexes_mark (by decide) (lexes_token_mark (word_wellFormed (by decide) (by decide)) (by decide) ?_)
    exact lexes_mark (by decide) (lexes_before_mark (ih h) (by decide) (lexes_mark (by decide) .nil))
  | aggregate kind inner k ih =>
    simp only [PyBool.tokens, List.cons_append, List.nil_append]
    refine lexes_token_mark (kind_wellFormed kind) (by decide) (lexes_mark (by decide) ?_)
    refine lexes_before_mark (ih h) (by decide) (lexes_mark (by decide) ?_)
    refine lexes_token_mark (word_wellFormed (by decide) (by decide)) (by decide) ?_
    refine lexes_token_mark (idxVar_wellFormed k) (by decide) ?_
    refine lexes_token_mark (word_wellFormed (by decide) (by decide)) (by decide) ?_
    refine lexes_token_mark (word_wellFormed (by decide) (by decide)) (by decide) ?_
    exact lexes_token_mark (word_wellFormed (by decide) (by decide)) (by decide) (lexes_mark (by decide) .nil)

/-! ## Literals -/

theorem letterEscapes_lookup (c : Char) : (letterEscapes.lookup c).isSome = true ↔
    c ∈ ['\\', '\'', '"', 'a', 'b', 'f', 'n', 'r', 't', 'v'] := by
  constructor
  · intro h
    by_contra hc
    have hnone : letterEscapes.lookup c = none := by
      rw [List.lookup_eq_none_iff]
      intro p hp
      rw [bne_iff_ne]
      rintro rfl
      exact hc (List.mem_map_of_mem (f := Prod.fst) hp)
    rw [hnone] at h
    cases h
  · intro h
    simp only [List.mem_cons, List.not_mem_nil, or_false] at h
    rcases h with rfl | rfl | rfl | rfl | rfl | rfl | rfl | rfl | rfl | rfl <;> rfl

theorem escapeStart_eq (c : Char) : escapeStart c = (escapes c || c.toNat = 0) := by
  have hperm : ['\\', '\'', '"', 'a', 'b', 'f', 'n', 'r', 't', 'v', 'x', 'N', 'u', 'U', '\n', '\r'].Perm
      (['\n', '\r', 'x', 'u', 'U', 'N'] ++ ['\\', '\'', '"', 'a', 'b', 'f', 'n', 'r', 't', 'v']) := by decide
  rw [Bool.eq_iff_iff]
  simp only [escapeStart, escapes, Bool.or_eq_true, decide_eq_true_eq, hperm.mem_iff, List.mem_append,
    letterEscapes_lookup c]
  change ((_ ∨ _) ∨ octalDigit c = true) ∨ _ ↔ _
  rw [or_right_comm (a := c ∈ _)]

/-- A copied string is read back exactly where nothing in it ends the literal or makes an escape. -/
theorem literalBody_eq (cs : List Char) :
    literalBody cs = if shortOk cs && noEscape cs then some cs else none := by
  fun_induction literalBody cs with
  | case1 => rfl
  | case2 => rfl
  | case3 c cs hc =>
    rw [escapeStart_eq, Bool.or_eq_true, decide_eq_true_eq] at hc
    have hbad : (shortOk ('\\' :: c :: cs) && noEscape ('\\' :: c :: cs)) = false := by
      rcases hc with hc | hc <;> simp [shortOk, noEscape, hc]
    rw [hbad]
    rfl
  | case4 c cs hc ih =>
    rw [escapeStart_eq, Bool.or_eq_true, decide_eq_true_eq, not_or, Bool.not_eq_true] at hc
    have hr : c ≠ '\r' := by
      rintro rfl
      exact absurd hc.1 (by decide)
    have heq : (shortOk ('\\' :: c :: cs) && noEscape ('\\' :: c :: cs)) = (shortOk cs && noEscape cs) := by
      simp [shortOk, noEscape, hc, hr]
    rw [ih, heq]
    split <;> rfl
  | case5 c cs h1 h2 hc =>
    have hback : c ≠ '\\' := by
      rintro rfl
      cases cs with
      | nil => exact h1 rfl rfl
      | cons d ds => exact h2 d ds rfl rfl
    have hbad : shortOk (c :: cs) = false := by
      rw [shortOk_cons hback]
      rcases hc with hc | hc | hc | hc <;> simp [hc]
    rw [hbad]
    rfl
  | case6 c cs h1 h2 hc ih =>
    have hback : c ≠ '\\' := by
      rintro rfl
      cases cs with
      | nil => exact h1 rfl rfl
      | cons d ds => exact h2 d ds rfl rfl
    simp only [not_or] at hc
    have heq : (shortOk (c :: cs) && noEscape (c :: cs)) = (shortOk cs && noEscape cs) := by
      rw [shortOk_cons hback, noEscape_cons hback]
      simp [hc]
    rw [ih, heq]
    split <;> rfl

/-- **A copied string** is a literal for itself exactly where it is plain. -/
theorem literal_wellFormed_iff (s : String) : (literal s).WellFormed named ↔ plainLiteral s = true := by
  have hplain : plainLiteral s = true ↔ literalBody s.toList = some s.toList := by
    rw [plainLiteral, decide_eq_true_eq, strLiteral, Option.map_eq_some_iff]
    constructor
    · rintro ⟨b, hb, rfl⟩
      rw [String.toList_ofList]
      rwa [String.toList_ofList] at hb
    · intro h
      exact ⟨_, h, String.ofList_toList⟩
  rw [hplain, literalBody_eq, literal, Token.WellFormed, decode_self_iff, ← Bool.and_eq_true]
  split
  · next h => simp [h]
  · next h => simp [h]

end Vellum
