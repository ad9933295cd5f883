import Vellum.Proof.Quadratic
import Vellum.Proof.SourceLines
import Vellum.Spec.Reading

/-!
# The generated decision means what it is taken to mean

The decision of the Python module is evaluated as a syntax tree; what is imported is text. Read in the
grammar of Python, the text is the tree, exactly where every parameter name ends its literal.

* `run_value`, `run_bool`: the reader on the tokens of a value and of a condition.
* `readDecision_tokens`: a condition is read back from its tokens.
* `python_read_back`: the decision of an accepted policy is read back from its text.
-/

namespace Vellum

open PySource

namespace PyReader

/-! ## Names and numbers -/

theorem digits?_toDigits (n : ℕ) : digits? (Nat.toDigits 10 n) = some n := by
  have hall : (Nat.toDigits 10 n).all Char.isDigit = true :=
    List.all_eq_true.2 fun c hc => Nat.isDigit_of_mem_toDigits (by decide) (by decide) hc
  unfold digits?
  rw [if_pos ⟨Nat.toDigits_ne_nil, hall⟩, Nat.ofDigitChars_ten_toDigits]

theorem idx?_idxVar (k : ℕ) : idx? (idxVar k).toList = some k := by
  have htext : (idxVar k).toList = "idx_".toList ++ Nat.toDigits 10 k := by
    rw [idxVar, String.toList_append, Nat.toList_repr]
  have hprefix : "idx_".toList.isPrefixOf ("idx_".toList ++ Nat.toDigits 10 k) = true :=
    List.isPrefixOf_iff_prefix.2 (List.prefix_append _ _)
  unfold idx?
  rw [htext, if_pos hprefix]
  exact digits?_toDigits k

theorem quantifier?_text (kind : AggregateKind) : quantifier? kind.text.toList = some kind := by
  cases kind <;> decide

theorem op?_text (op : ComparisonOp) : op? op.text.toList = some op := by
  cases op <;> decide

theorem clause?_idxVar (k : ℕ) : clause? [word (idxVar k), word "in", word "range", mark '(', word "active_count",
    mark ')'] = some k := by
  simp only [clause?, word, mark, and_self, if_true, idx?_idxVar]

theorem ofCodes (cs : List Char) : (codes cs).map Char.ofNat = cs := by
  rw [codes, List.map_map]
  exact (List.map_congr_left fun c _ => Char.ofNat_toNat c).trans (List.map_id _)

/-! ## Runs -/

theorem run_append (s : Reader) (ts us : List Token) : run s (ts ++ us) = (run s ts).bind fun s => run s us :=
  List.foldlM_append

theorem run_cons (s : Reader) (t : Token) (ts : List Token) : run s (t :: ts) = (step s t).bind fun s => run s ts := rfl

theorem run_nil (s : Reader) : run s [] = some s := rfl

/-- A blank between tokens. -/
theorem run_blank (s : Reader) (ts : List Token) : run s (mark ' ' :: ts) = run s ts := by
  have hstep : step s (mark ' ') = some s := if_pos rfl
  rw [run_cons, hstep, Option.bind_some]

variable {quantifier : Option AggregateKind} {ors ands : List PyBool} {nots : ℕ}
  {compared : Option (PyValue × ComparisonOp)} {outer : List Frame}

/-- A number. -/
theorem step_digits (minus : Bool) (n : ℕ) :
    step ⟨⟨quantifier, ors, ands, nots, compared, minus, none⟩, outer⟩ (.word (Nat.toDigits 10 n)) =
      some ⟨⟨quantifier, ors, ands, nots, compared, false, some (.value (.int (if minus then -n else n)))⟩, outer⟩ := by
  simp only [step, mark, reduceCtorEq, if_false, stepOperand, digits?_toDigits]

/-- A name that is no keyword, before a bracket. -/
theorem step_word {w : String} (hw : digits? w.toList = none) (hnot : w.toList ≠ "not".toList)
    (hcount : w.toList ≠ "active_count".toList) :
    step ⟨⟨quantifier, ors, ands, nots, compared, false, none⟩, outer⟩ (word w) =
      some ⟨⟨quantifier, ors, ands, nots, compared, false, some (.name w.toList)⟩, outer⟩ := by
  simp only [step, mark, word, reduceCtorEq, if_false, stepOperand, hw, hnot, hcount, Bool.false_eq_true]

/-- A name with its index. -/
theorem run_subscript {w : String} (hw : digits? w.toList = none) (hnot : w.toList ≠ "not".toList)
    (hcount : w.toList ≠ "active_count".toList) {index : Token} (hindex : index ≠ mark ' ') {v : PyValue}
    (hv : subscript? w.toList index = some v) :
    run ⟨⟨quantifier, ors, ands, nots, compared, false, none⟩, outer⟩ [word w, mark '[', index, mark ']'] =
      some ⟨⟨quantifier, ors, ands, nots, compared, false, some (.value v)⟩, outer⟩ := by
  rw [run_cons, step_word hw hnot hcount, Option.bind_some, run_cons]
  have hopen : step ⟨⟨quantifier, ors, ands, nots, compared, false, some (.name w.toList)⟩, outer⟩ (mark '[') =
      some ⟨⟨quantifier, ors, ands, nots, compared, false, some (.opened w.toList)⟩, outer⟩ := rfl
  have hinside : step ⟨⟨quantifier, ors, ands, nots, compared, false, some (.opened w.toList)⟩, outer⟩ index =
      some ⟨⟨quantifier, ors, ands, nots, compared, false, some (.indexed w.toList index)⟩, outer⟩ := if_neg hindex
  have hclose : step ⟨⟨quantifier, ors, ands, nots, compared, false, some (.indexed w.toList index)⟩, outer⟩ (mark ']') =
      (subscript? w.toList index).map fun v =>
        ⟨⟨quantifier, ors, ands, nots, compared, false, some (.value v)⟩, outer⟩ := rfl
  rw [hopen, Option.bind_some, run_cons, hinside, Option.bind_some, run_cons, hclose, hv]
  rfl

/-- **A value is read**, whatever stands before it. -/
theorem run_value (v : PyValue) :
    run ⟨⟨quantifier, ors, ands, nots, compared, false, none⟩, outer⟩ v.tokens =
      some ⟨⟨quantifier, ors, ands, nots, compared, false, some (.value v)⟩, outer⟩ := by
  cases v with
  | int i =>
    rw [PyValue.tokens, intTokens]
    split_ifs with hi
    · have hminus : step ⟨⟨quantifier, ors, ands, nots, compared, false, none⟩, outer⟩ (mark '-') =
          some ⟨⟨quantifier, ors, ands, nots, compared, true, none⟩, outer⟩ := rfl
      have habs : -(i.natAbs : ℤ) = i := by omega
      rw [run_cons, hminus, Option.bind_some, run_cons, step_digits, if_pos rfl, habs]
      rfl
    · have habs : (i.natAbs : ℤ) = i := by omega
      rw [run_cons, step_digits, if_neg (by decide), habs]
      rfl
  | param name =>
    refine run_subscript (by decide) (by decide) (by decide) (by simp [literal, mark]) ?_
    rw [literal, subscript?, if_pos rfl, ofCodes, String.ofList_toList]
  | balances k =>
    refine run_subscript (by decide) (by decide) (by decide) (by simp [word, mark]) ?_
    rw [word, subscript?, if_pos rfl, idx?_idxVar]
    rfl
  | limits k =>
    refine run_subscript (by decide) (by decide) (by decide) (by simp [word, mark]) ?_
    rw [word, subscript?, if_neg (by decide), if_pos rfl, idx?_idxVar]
    rfl
  | activeCount => rfl

/-! ## Conditions -/

/-- The parts of an `and` or an `or` that are read, and the operand behind them. -/
def partsFrame (isAnd : Bool) (parts : List PyBool) (operand : Option Operand) : Frame :=
  if isAnd then ⟨none, [], parts, 0, none, false, operand⟩ else ⟨none, parts, [], 0, none, false, operand⟩

def connective (isAnd : Bool) : String := if isAnd then "and" else "or"

def connect (isAnd : Bool) (parts : List PyBool) : PyBool := if isAnd then .and parts else .or parts

/-- The operator takes the operand before it. -/
theorem step_connective (isAnd : Bool) (parts : List PyBool) (e : PyBool) :
    step ⟨partsFrame isAnd parts (some (.bool e)), outer⟩ (word (connective isAnd)) =
      some ⟨partsFrame isAnd (parts ++ [e]) none, outer⟩ := by
  cases isAnd <;> rfl

/-- The bracket closes behind at least two parts. -/
theorem step_close_parts (isAnd : Bool) {parts : List PyBool} (hparts : parts ≠ []) (e : PyBool) :
    step ⟨partsFrame isAnd parts (some (.bool e)), ⟨quantifier, ors, ands, nots, compared, false, none⟩ :: outer⟩
        (mark ')') =
      some ⟨⟨quantifier, ors, ands, nots, compared, false, some (.bool (connect isAnd (parts ++ [e])))⟩, outer⟩ := by
  obtain ⟨p, ps, rfl⟩ := List.exists_cons_of_ne_nil hparts
  cases isAnd <;> rfl

/-- A plain bracket opens. -/
theorem step_open : step ⟨⟨quantifier, ors, ands, nots, compared, false, none⟩, outer⟩ (mark '(') =
    some ⟨.opened none, ⟨quantifier, ors, ands, nots, compared, false, none⟩ :: outer⟩ := rfl

/-- What the reader does on the tokens of a condition. -/
def Reads (e : PyBool) : Prop :=
  ∀ (quantifier : Option AggregateKind) (ors ands : List PyBool) (nots : ℕ)
    (compared : Option (PyValue × ComparisonOp)) (outer : List Frame),
    run ⟨⟨quantifier, ors, ands, nots, compared, false, none⟩, outer⟩ e.tokens =
      some ⟨⟨quantifier, ors, ands, nots, compared, false, some (.bool e)⟩, outer⟩

/-- The parts of an `and` or an `or`, one after the other. -/
theorem run_parts (outer : List Frame) (isAnd : Bool) {e : PyBool} {es : List PyBool} (h : ∀ x ∈ e :: es, Reads x)
    (parts : List PyBool) :
    ∃ before last, parts ++ e :: es = before ++ [last] ∧ before.length = parts.length + es.length ∧
      run ⟨partsFrame isAnd parts none, outer⟩ (joined (connective isAnd) ((e :: es).map PyBool.tokens)) =
        some ⟨partsFrame isAnd before (some (.bool last)), outer⟩ := by
  have hread : ∀ {x} parts, Reads x → run ⟨partsFrame isAnd parts none, outer⟩ x.tokens =
      some ⟨partsFrame isAnd parts (some (.bool x)), outer⟩ := by
    intro x parts hx
    cases isAnd with
    | true => exact hx _ _ _ _ _ _
    | false => exact hx _ _ _ _ _ _
  induction es generalizing e parts with
  | nil =>
    refine ⟨parts, e, rfl, rfl, ?_⟩
    rw [joined, List.map_singleton, List.intercalate_singleton]
    exact hread parts (h e (by simp))
  | cons d es ih =>
    obtain ⟨before, last, heq, hlen, hrun⟩ := ih (e := d) (fun x hx => h x (List.mem_cons_of_mem _ hx)) (parts ++ [e])
    refine ⟨before, last, ?_, ?_, ?_⟩
    · rw [← heq, List.append_assoc]
      rfl
    · simp only [List.length_append, List.length_cons, List.length_nil] at hlen ⊢
      omega
    · rw [joined, List.map_cons, List.map_cons, List.intercalate_cons_cons, List.append_assoc, run_append,
        hread parts (h e (by simp)), Option.bind_some]
      rw [List.cons_append, List.cons_append, List.cons_append, List.nil_append, run_blank, run_cons, step_connective,
        Option.bind_some, run_blank]
      exact hrun

/-- An `and` or an `or` of at least two parts. -/
theorem reads_connect (isAnd : Bool) {args : List PyBool} (hlen : 2 ≤ args.length) (h : ∀ e ∈ args, Reads e) :
    ∀ (quantifier : Option AggregateKind) (ors ands : List PyBool) (nots : ℕ)
      (compared : Option (PyValue × ComparisonOp)) (outer : List Frame),
      run ⟨⟨quantifier, ors, ands, nots, compared, false, none⟩, outer⟩
          ([mark '('] ++ joined (connective isAnd) (PyBool.tokensArgs args) ++ [mark ')']) =
        some ⟨⟨quantifier, ors, ands, nots, compared, false, some (.bool (connect isAnd args))⟩, outer⟩ := by
  intro quantifier ors ands nots compared outer
  obtain ⟨e, es, rfl⟩ := List.exists_cons_of_length_pos (show 0 < args.length by omega)
  obtain ⟨before, last, heq, hbefore, hrun⟩ := run_parts
    (⟨quantifier, ors, ands, nots, compared, false, none⟩ :: outer) isAnd h []
  have hne : before ≠ [] := by
    rintro rfl
    simp only [List.length_cons, List.length_nil] at hlen hbefore
    omega
  have hopened : Frame.opened none = partsFrame isAnd [] none := by cases isAnd <;> rfl
  rw [PyBool.tokensArgs_eq, List.append_assoc, List.singleton_append, run_cons, step_open, Option.bind_some, hopened,
    run_append, hrun, Option.bind_some, run_cons, step_close_parts isAnd hne, ← heq]
  rfl

/-- Conditions that the compiler can make: `and` and `or` have at least two parts. -/
inductive Shaped : PyBool → Prop
  | compare (op : ComparisonOp) (l r : PyValue) : Shaped (.compare op l r)
  | and {args : List PyBool} : 2 ≤ args.length → (∀ e ∈ args, Shaped e) → Shaped (.and args)
  | or {args : List PyBool} : 2 ≤ args.length → (∀ e ∈ args, Shaped e) → Shaped (.or args)
  | not {inner : PyBool} : Shaped inner → Shaped (.not inner)
  | aggregate (kind : AggregateKind) {inner : PyBool} (k : ℕ) : Shaped inner → Shaped (.aggregate kind inner k)

/-- Behind a `for`, tokens are collected until they are a clause. -/
theorem step_collect {kind : AggregateKind} {element : PyBool} {read : List Token} (h : clause? read = none) {t : Token}
    (ht : t ≠ mark ' ') :
    step ⟨⟨some kind, [], [], 0, none, false, some (.clause element read)⟩, outer⟩ t =
      some ⟨⟨some kind, [], [], 0, none, false, some (.clause element (read ++ [t]))⟩, outer⟩ := by
  simp only [step, if_neg ht, h]

/-- The clause of a generator expression, and the bracket behind it. -/
theorem run_clause (kind : AggregateKind) (element : PyBool) (k : ℕ) (g : Frame) :
    run ⟨⟨some kind, [], [], 0, none, false, some (.clause element [])⟩, g :: outer⟩
        [word (idxVar k), mark ' ', word "in", mark ' ', word "range", mark '(', word "active_count", mark ')', mark ')'] =
      some ⟨{ g with operand := some (.bool (.aggregate kind element k)) }, outer⟩ := by
  have hclose : step ⟨⟨some kind, [], [], 0, none, false, some (.clause element [word (idxVar k), word "in",
      word "range", mark '(', word "active_count", mark ')'])⟩, g :: outer⟩ (mark ')') =
        some ⟨{ g with operand := some (.bool (.aggregate kind element k)) }, outer⟩ := by
    have hne : mark ')' ≠ mark ' ' := by simp [mark]
    simp only [step, if_neg hne, clause?_idxVar, if_true]
  rw [run_cons, step_collect rfl (by simp [word, mark]), Option.bind_some, run_blank, run_cons,
    step_collect rfl (by simp [word, mark]), Option.bind_some, run_blank, run_cons,
    step_collect rfl (by simp [word, mark]), Option.bind_some, run_cons,
    step_collect rfl (by simp [mark]), Option.bind_some, run_cons,
    step_collect rfl (by simp [word, mark]), Option.bind_some, run_cons,
    step_collect rfl (by simp [mark]), Option.bind_some, run_cons]
  exact congrArg (Option.bind · _) hclose

/-- **A condition is read**, by induction on it: it stands in brackets, so what is outside of them does
not matter. -/
theorem run_bool {e : PyBool} (h : Shaped e) : Reads e := by
  induction h with
  | compare op l r =>
    intro quantifier ors ands nots compared outer
    have hop : ∀ {g : Frame} {outer : List Frame}, step ⟨⟨none, [], [], 0, none, false, some (.value l)⟩, g :: outer⟩
        (.punct op.text.toList) = some ⟨⟨none, [], [], 0, some (l, op), false, none⟩, g :: outer⟩ := by
      intro g outer
      cases op <;> rfl
    simp only [PyBool.tokens, List.append_assoc, List.cons_append, List.nil_append]
    rw [run_cons, step_open, Option.bind_some, run_append, Frame.opened, run_value, Option.bind_some, run_blank,
      run_cons, hop, Option.bind_some, run_blank, run_append, run_value, Option.bind_some]
    rfl
  | and hlen _ ih => exact reads_connect true hlen ih
  | or hlen _ ih => exact reads_connect false hlen ih
  | not _ ih =>
    intro quantifier ors ands nots compared outer
    have hnot : ∀ {outer : List Frame}, step ⟨.opened none, outer⟩ (word "not") =
        some ⟨⟨none, [], [], 1, none, false, none⟩, outer⟩ := rfl
    simp only [PyBool.tokens, List.cons_append, List.nil_append]
    rw [run_cons, step_open, Option.bind_some, run_cons, hnot, Option.bind_some, run_blank, run_cons, step_open,
      Option.bind_some, run_append, Frame.opened, ih, Option.bind_some]
    rfl
  | @aggregate kind inner k _ ih =>
    intro quantifier ors ands nots compared outer
    have hname : step ⟨⟨quantifier, ors, ands, nots, compared, false, none⟩, outer⟩ (word kind.text) =
        some ⟨⟨quantifier, ors, ands, nots, compared, false, some (.name kind.text.toList)⟩, outer⟩ :=
      step_word (by cases kind <;> decide) (by cases kind <;> decide) (by cases kind <;> decide)
    have hcall : step ⟨⟨quantifier, ors, ands, nots, compared, false, some (.name kind.text.toList)⟩, outer⟩ (mark '(') =
        some ⟨.opened (some kind), ⟨quantifier, ors, ands, nots, compared, false, none⟩ :: outer⟩ := by
      cases kind <;> rfl
    have hclose : ∀ {g : Frame} {outer : List Frame}, step ⟨⟨none, [], [], 0, none, false, some (.bool inner)⟩,
        ⟨some kind, [], [], 0, none, false, none⟩ :: g :: outer⟩ (mark ')') =
          some ⟨⟨some kind, [], [], 0, none, false, some (.bool inner)⟩, g :: outer⟩ := rfl
    have hfor : ∀ {g : Frame} {outer : List Frame}, step ⟨⟨some kind, [], [], 0, none, false, some (.bool inner)⟩,
        g :: outer⟩ (word "for") = some ⟨⟨some kind, [], [], 0, none, false, some (.clause inner [])⟩, g :: outer⟩ := rfl
    simp only [PyBool.tokens, List.cons_append, List.nil_append]
    rw [run_cons, hname, Option.bind_some, run_cons, hcall, Option.bind_some, run_cons, Frame.opened, step_open,
      Option.bind_some, run_append, Frame.opened, ih, Option.bind_some, run_cons, hclose, Option.bind_some, run_blank,
      run_cons, hfor, Option.bind_some, run_blank]
    exact run_clause kind inner k _

end PyReader

open PyReader

/-- **A condition is read back from its tokens.** -/
theorem readDecision_tokens {e : PyBool} (h : Shaped e) : readDecision e.tokens = some e := by
  have hrun : run ⟨.opened none, []⟩ e.tokens = some ⟨⟨none, [], [], 0, none, false, some (.bool e)⟩, []⟩ :=
    run_bool h none [] [] 0 none []
  rw [readDecision, hrun]
  rfl

/-! ## The renderer -/

/-- Arguments are rendered one by one. -/
theorem renderPythonArgs_shaped {args : List DecisionExpr} (hargs : ∀ e ∈ args, ∀ {idx counter p counter'},
      renderPythonBooleanExpr idx counter e = .ok (p, counter') → Shaped p) :
    ∀ {idx counter ps counter'}, renderPythonArgs idx counter args = .ok (ps, counter') →
      ps.length = args.length ∧ ∀ p ∈ ps, Shaped p := by
  induction args with
  | nil =>
    intro idx counter ps counter' h
    obtain ⟨rfl, -⟩ := Prod.mk.inj (Except.ok.inj h)
    exact ⟨rfl, by simp⟩
  | cons e es ih =>
    intro idx counter ps counter' h
    simp only [renderPythonArgs, bind_ok, pure_ok, Prod.exists, Prod.mk.injEq] at h
    obtain ⟨p, c1, h1, ps', c2, h2, rfl, rfl⟩ := h
    obtain ⟨hlen, hshaped⟩ := ih (fun x hx => hargs x (List.mem_cons_of_mem e hx)) h2
    refine ⟨by rw [List.length_cons, List.length_cons, hlen], ?_⟩
    exact List.forall_mem_cons.2 ⟨hargs e List.mem_cons_self h1, hshaped⟩

/-- What is rendered can be read: the brackets of an `and` or an `or` hold at least two parts. -/
theorem renderPythonBooleanExpr_shaped (e : DecisionExpr) : e.wellFormed = true → ∀ {idx counter p counter'},
    renderPythonBooleanExpr idx counter e = .ok (p, counter') → Shaped p := by
  induction e with
  | comparison c =>
    intro _ idx counter p counter' h
    simp only [renderPythonBooleanExpr, bind_ok, pure_ok, Prod.mk.injEq] at h
    obtain ⟨a, -, b, -, rfl, rfl⟩ := h
    exact .compare c.op a b
  | and args ih =>
    intro hwf idx counter p counter' h
    simp only [renderPythonBooleanExpr, bind_ok, pure_ok, Prod.exists, Prod.mk.injEq] at h
    obtain ⟨ps, c, hps, rfl, rfl⟩ := h
    obtain ⟨htwo, hall⟩ := DecisionExpr.wellFormed_connective hwf
    obtain ⟨hlen, hshaped⟩ := renderPythonArgs_shaped (fun e he => ih e he (hall e he)) hps
    exact .and (hlen ▸ htwo) hshaped
  | or args ih =>
    intro hwf idx counter p counter' h
    simp only [renderPythonBooleanExpr, bind_ok, pure_ok, Prod.exists, Prod.mk.injEq] at h
    obtain ⟨ps, c, hps, rfl, rfl⟩ := h
    obtain ⟨htwo, hall⟩ := DecisionExpr.wellFormed_connective hwf
    obtain ⟨hlen, hshaped⟩ := renderPythonArgs_shaped (fun e he => ih e he (hall e he)) hps
    exact .or (hlen ▸ htwo) hshaped
  | not inner ih =>
    intro hwf idx counter p counter' h
    simp only [renderPythonBooleanExpr, bind_ok, pure_ok, Prod.exists, Prod.mk.injEq] at h
    obtain ⟨q, c, hq, rfl, rfl⟩ := h
    exact .not (ih hwf hq)
  | aggregate kind inner ih =>
    intro hwf idx counter p counter' h
    simp only [renderPythonBooleanExpr, bind_ok, pure_ok, Prod.exists, Prod.mk.injEq] at h
    obtain ⟨q, c, hq, rfl, rfl⟩ := h
    exact .aggregate kind counter (ih hwf hq)

/-! ## The text -/

/-- A parameter that is read stands between quotes. -/
theorem literal_mem_value {v : PyValue} {n : String} (h : n ∈ v.params) : literal n ∈ v.tokens := by
  cases v with
  | param name =>
    obtain rfl := List.mem_singleton.1 h
    simp [PyValue.tokens]
  | _ => cases h

theorem mem_intercalate {α : Type} {sep l : List α} {ls : List (List α)} (hl : l ∈ ls) {a : α} (ha : a ∈ l) :
    a ∈ sep.intercalate ls := by
  induction ls with
  | nil => cases hl
  | cons b t ih =>
    cases t with
    | nil =>
      rw [List.mem_singleton.1 hl] at ha
      rwa [List.intercalate_singleton]
    | cons c t =>
      rw [List.intercalate_cons_cons]
      rcases List.mem_cons.1 hl with rfl | hl
      · exact List.mem_append_left _ (List.mem_append_left _ ha)
      · exact List.mem_append_right _ (ih hl)

theorem mem_joined {op : String} {args : List PyBool} {e : PyBool} (he : e ∈ args) {t : Token} (ht : t ∈ e.tokens) :
    t ∈ [mark '('] ++ joined op (PyBool.tokensArgs args) ++ [mark ')'] := by
  have hjoined : t ∈ joined op (PyBool.tokensArgs args) := by
    rw [joined, PyBool.tokensArgs_eq]
    exact mem_intercalate (List.mem_map_of_mem he) ht
  exact List.mem_append_left _ (List.mem_append_right _ hjoined)

theorem literal_mem_tokens (e : PyBool) {n : String} (h : n ∈ e.params) : literal n ∈ e.tokens := by
  induction e using PyBool.ind with
  | compare op l r =>
    rcases List.mem_append.1 h with hl | hr
    · simp only [PyBool.tokens, List.mem_append, literal_mem_value hl, or_true, true_or]
    · simp only [PyBool.tokens, List.mem_append, literal_mem_value hr, or_true, true_or]
  | and args ih =>
    rw [PyBool.params, PyBool.paramsArgs_eq] at h
    obtain ⟨e, he, hn⟩ := List.mem_flatMap.1 h
    exact mem_joined he (ih e he hn)
  | or args ih =>
    rw [PyBool.params, PyBool.paramsArgs_eq] at h
    obtain ⟨e, he, hn⟩ := List.mem_flatMap.1 h
    exact mem_joined he (ih e he hn)
  | not inner ih => simp only [PyBool.tokens, List.mem_append, ih h, or_true, true_or]
  | aggregate kind inner k ih => simp only [PyBool.tokens, List.mem_append, ih h, or_true, true_or]

/-- **The text of a condition has its tokens** exactly where every parameter name in it ends its literal
and stands for itself. -/
theorem lex_condition_iff (named : List Char → Option ℕ) (e : PyBool) :
    lex named e.text.toList = some e.tokens ↔ ∀ n ∈ e.params, plainLiteral n = true := by
  rw [lex_iff]
  constructor
  · rintro ⟨-, hlexes⟩ n hn
    exact (literal_wellFormed_iff n).1 (hlexes.wellFormed (literal_mem_tokens e hn))
  · intro hplain
    exact ⟨e.raws_tokens.symm, e.lexes_tokens fun n hn => (literal_wellFormed_iff n).2 (hplain n hn)⟩

/-- **The decision of an accepted policy is read back.** The tokens that the renderer means to write are
those of the decision that is evaluated, for every way to nest `and`, `or`, `not`, comparisons and
quantifiers. The text has these tokens exactly where every parameter name in the decision ends its
literal and stands for itself, and there the decision is read back from it. -/
theorem python_read_back {sha256 : String → String} {spec : PolicyDSLSpec} {art : CompilerArtifacts}
    (hgen : generatePolicyArtifacts sha256 spec = .ok art) : ∃ kind inner py,
    spec.decision = .aggregate kind inner ∧ renderDecision kind inner = .ok py ∧ readDecision py.tokens = some py ∧
      (∀ named, lex named py.text.toList = some py.tokens ↔ ∀ n ∈ inner.paramNames, plainLiteral n = true) ∧
      ((∀ n ∈ inner.paramNames, plainLiteral n = true) → readPython py.text = some py) := by
  obtain ⟨kind, inner, py, blocks, h⟩ := generatePolicyArtifacts_ok hgen
  have hpy := h.python
  simp only [renderDecision, bind_ok, pure_ok, Prod.exists] at hpy
  obtain ⟨part, counter, hpart, rfl⟩ := hpy
  have hwf : inner.wellFormed = true := by
    have hspec := spec.decisionWf
    rw [h.decision] at hspec
    exact hspec
  have hshaped : Shaped (.aggregate kind part 0) := .aggregate kind 0 (renderPythonBooleanExpr_shaped inner hwf hpart)
  have hparams : (PyBool.aggregate kind part 0).params = inner.paramNames := by
    rw [PyBool.params]
    exact renderPythonBooleanExpr_params inner hpart
  have hlex : ∀ named, lex named (PyBool.aggregate kind part 0).text.toList = some (PyBool.aggregate kind part 0).tokens ↔
      ∀ n ∈ inner.paramNames, plainLiteral n = true := by
    intro named
    rw [lex_condition_iff, hparams]
  refine ⟨kind, inner, _, h.decision, h.python, readDecision_tokens hshaped, hlex, fun hplain => ?_⟩
  rw [readPython, (hlex noNames).2 hplain, Option.bind_some]
  exact readDecision_tokens hshaped

/-- A decision with a parameter, all connectives and a quantifier in a quantifier. -/
theorem python_read_back_row : ∃ py, renderDecision .all nestedInner = .ok py ∧ readPython py.text = some py := by
  obtain ⟨art, hgen⟩ := isOk_iff.1 (show (generatePolicyArtifacts id nestedSpec).isOk = true by decide +kernel)
  obtain ⟨kind, inner, py, hdecision, hpy, -, -, hread⟩ := python_read_back hgen
  obtain ⟨rfl, rfl⟩ : AggregateKind.all = kind ∧ nestedInner = inner := by
    injection hdecision with hkind hinner
    exact ⟨hkind, hinner⟩
  exact ⟨py, hpy, hread (by decide)⟩

end Vellum
