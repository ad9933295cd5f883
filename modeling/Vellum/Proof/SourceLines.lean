import Vellum.Lib.JsonLines
import Vellum.Proof.Accepted
import Vellum.Proof.ModuleTokens

/-!
# Carriage returns in the generated sources

The renderers write no carriage return of their own (`sources_noCr`): one can stand in a source only if
it stands in a text of the spec that the source quotes.
-/

namespace Vellum

/-- No carriage return stands in a text. -/
def NoCr (s : String) : Prop := '\r' ∉ s.toList

/-- No carriage return stands in a text of the spec that a source quotes as it is. -/
structure PolicyDSLSpec.NoCr (spec : PolicyDSLSpec) : Prop where
  compilerVersion : Vellum.NoCr spec.compilerVersion
  policyId : Vellum.NoCr spec.policyId
  referencePolicy : Vellum.NoCr spec.referencePolicy
  parameters : ∀ name ∈ spec.decision.paramNames, Vellum.NoCr name
  outputs : ∀ name ∈ spec.outputs.keys, Vellum.NoCr name

/-! ## Texts that are put together -/

theorem noCr_append {a b : String} : NoCr (a ++ b) ↔ NoCr a ∧ NoCr b := by
  unfold NoCr
  rw [String.toList_append, List.mem_append, not_or]

theorem noCr_lit {l : List Char} (h : '\r' ∉ l) : NoCr (String.ofList l) := by
  unfold NoCr
  rwa [String.toList_ofList]

/-- Fixed text of the renderer, piece by piece. -/
theorem toList_append_lit {s : String} {l r m : List Char} (h : s.toList ++ (l ++ r) = m) :
    (s ++ String.ofList l).toList ++ r = m := by
  rw [← h, String.toList_append, String.toList_ofList, List.append_assoc]

theorem toList_lit {l r : List Char} : (String.ofList l).toList ++ r = l ++ r := by
  rw [String.toList_ofList]

theorem noCr_of_chars {s : String} {cs : List Char} (h : s.toList ++ [] = cs) (hcs : '\r' ∉ cs) : NoCr s := by
  rw [List.append_nil] at h
  unfold NoCr
  rwa [h]

theorem noCr_repr (n : ℕ) : NoCr n.repr := by
  unfold NoCr
  rw [Nat.toList_repr]
  intro h
  have := Nat.isDigit_of_mem_toDigits (by decide) (by decide) h
  revert this
  decide

theorem noCr_int_repr (i : ℤ) : NoCr i.repr := Json.cr_not_mem_int i

theorem noCr_intercalate {sep : String} (hsep : NoCr sep) {l : List String} (h : ∀ s ∈ l, NoCr s) :
    NoCr (String.intercalate sep l) := by
  have hchars : ∀ {parts : List (List Char)}, (∀ part ∈ parts, '\r' ∉ part) →
      '\r' ∉ sep.toList.intercalate parts := by
    intro parts
    induction parts with
    | nil => exact fun _ => List.not_mem_nil
    | cons part rest ih =>
      intro hparts
      cases rest with
      | nil =>
        rw [List.intercalate_singleton]
        exact hparts part List.mem_cons_self
      | cons next rest =>
        rw [List.intercalate_cons_cons, List.mem_append, List.mem_append, not_or, not_or]
        exact ⟨⟨hparts part List.mem_cons_self, hsep⟩, ih fun x hx => hparts x (List.mem_cons_of_mem part hx)⟩
  unfold NoCr
  rw [String.toList_intercalate]
  apply hchars
  intro part hpart
  obtain ⟨s, hs, rfl⟩ := List.mem_map.1 hpart
  exact h s hs

/-! ## The Python source -/

theorem idxVar_noCr (k : ℕ) : NoCr (idxVar k) := noCr_append.2 ⟨noCr_lit (by decide), noCr_repr k⟩

theorem PyValue.noCr_text (v : PyValue) (h : ∀ n ∈ v.params, NoCr n) : NoCr v.text := by
  cases v with
  | int i => exact noCr_int_repr i
  | param name =>
    have hname := h name (by simp [PyValue.params])
    show NoCr ("policy_params[\"" ++ name ++ "\"]")
    simp only [noCr_append, hname, and_true]
    and_intros <;> exact noCr_lit (by decide)
  | balances k =>
    show NoCr ("balances[" ++ idxVar k ++ "]")
    simp only [noCr_append, idxVar_noCr, and_true]
    and_intros <;> exact noCr_lit (by decide)
  | limits k =>
    show NoCr ("limits[" ++ idxVar k ++ "]")
    simp only [noCr_append, idxVar_noCr, and_true]
    and_intros <;> exact noCr_lit (by decide)
  | activeCount => exact noCr_lit (by decide)

theorem PyBool.noCr_text (e : PyBool) (h : ∀ n ∈ e.params, NoCr n) : NoCr e.text := by
  have hargs : ∀ {sep : String} {args : List PyBool}, NoCr sep →
      (∀ e ∈ args, (∀ n ∈ e.params, NoCr n) → NoCr e.text) → (∀ n ∈ PyBool.paramsArgs args, NoCr n) →
      NoCr (String.intercalate sep (args.map PyBool.text)) := by
    intro sep args hsep ih h
    apply noCr_intercalate hsep
    intro s hs
    obtain ⟨e, he, rfl⟩ := List.mem_map.1 hs
    apply ih e he
    intro n hn
    rw [PyBool.paramsArgs_eq] at h
    exact h n (List.mem_flatMap.2 ⟨e, he, hn⟩)
  induction e using PyBool.ind with
  | compare op l r =>
    rw [PyBool.params] at h
    have hl := l.noCr_text fun n hn => h n (List.mem_append_left _ hn)
    have hr := r.noCr_text fun n hn => h n (List.mem_append_right _ hn)
    have hop : NoCr op.text := by cases op <;> exact noCr_lit (by decide)
    rw [PyBool.text]
    simp only [noCr_append, hl, hr, hop, and_true]
    and_intros <;> exact noCr_lit (by decide)
  | and args ih =>
    have hsep : NoCr " and " := noCr_lit (by decide)
    have hjoined := hargs hsep ih h
    rw [PyBool.text, PyBool.textArgs_eq]
    simp only [noCr_append, hjoined, and_true]
    and_intros <;> exact noCr_lit (by decide)
  | or args ih =>
    have hsep : NoCr " or " := noCr_lit (by decide)
    have hjoined := hargs hsep ih h
    rw [PyBool.text, PyBool.textArgs_eq]
    simp only [noCr_append, hjoined, and_true]
    and_intros <;> exact noCr_lit (by decide)
  | not inner ih =>
    rw [PyBool.params] at h
    rw [PyBool.text]
    simp only [noCr_append, ih h, and_true]
    and_intros <;> exact noCr_lit (by decide)
  | aggregate kind inner k ih =>
    rw [PyBool.params] at h
    have hkind : NoCr kind.text := by cases kind <;> exact noCr_lit (by decide)
    rw [PyBool.text]
    simp only [noCr_append, ih h, hkind, idxVar_noCr, true_and, and_true]
    and_intros <;> exact noCr_lit (by decide)

/-- **A rendered decision reads the parameters that the decision names.** -/
theorem renderPythonBooleanExpr_params (e : DecisionExpr) : ∀ {idx counter p counter'},
    renderPythonBooleanExpr idx counter e = .ok (p, counter') → p.params = e.paramNames := by
  have hvalue : ∀ {idx : ℕ} {v : ValueRef} {pv : PyValue}, renderPythonValue idx v = .ok pv →
      pv.params = v.paramNames := by
    intro idx v pv h
    cases v with
    | constInt i =>
      obtain rfl := Except.ok.inj h
      rfl
    | param p =>
      obtain rfl := Except.ok.inj h
      rfl
    | ref s =>
      simp only [renderPythonValue] at h
      rw [ValueRef.paramNames]
      split_ifs at h with h1 h2 h3 h4
      · obtain rfl := Except.ok.inj h
        subst h1
        rw [if_neg (by decide)]
        rfl
      · obtain rfl := Except.ok.inj h
        subst h2
        rw [if_neg (by decide)]
        rfl
      · obtain rfl := Except.ok.inj h
        subst h3
        rw [if_neg (by decide)]
        rfl
      · obtain rfl := Except.ok.inj h
        rw [if_pos h4]
        rfl
  have hargs : ∀ {es : List DecisionExpr}, (∀ e ∈ es, ∀ {idx counter p counter'},
      renderPythonBooleanExpr idx counter e = .ok (p, counter') → p.params = e.paramNames) →
      ∀ {idx counter ps counter'}, renderPythonArgs idx counter es = .ok (ps, counter') →
        PyBool.paramsArgs ps = (DecisionExpr.valuesArgs es).flatMap ValueRef.paramNames := by
    intro es
    induction es with
    | nil =>
      intro _ idx counter ps counter' h
      obtain ⟨rfl, -⟩ := Prod.mk.inj (Except.ok.inj h)
      rfl
    | cons e es ih =>
      intro hes idx counter ps counter' h
      simp only [renderPythonArgs, bind_ok, pure_ok, Prod.exists, Prod.mk.injEq] at h
      obtain ⟨p, c1, h1, ps', c2, h2, rfl, rfl⟩ := h
      rw [PyBool.paramsArgs, hes e List.mem_cons_self h1, ih (fun x hx => hes x (List.mem_cons_of_mem e hx)) h2,
        DecisionExpr.valuesArgs, List.flatMap_append]
      rfl
  induction e with
  | comparison c =>
    intro idx counter p counter' h
    simp only [renderPythonBooleanExpr, bind_ok, pure_ok, Prod.mk.injEq] at h
    obtain ⟨a, ha, b, hb, rfl, rfl⟩ := h
    rw [PyBool.params, hvalue ha, hvalue hb]
    simp [DecisionExpr.paramNames, DecisionExpr.values]
  | and args ih =>
    intro idx counter p counter' h
    simp only [renderPythonBooleanExpr, bind_ok, pure_ok, Prod.exists, Prod.mk.injEq] at h
    obtain ⟨ps, c, hps, rfl, rfl⟩ := h
    exact hargs ih hps
  | or args ih =>
    intro idx counter p counter' h
    simp only [renderPythonBooleanExpr, bind_ok, pure_ok, Prod.exists, Prod.mk.injEq] at h
    obtain ⟨ps, c, hps, rfl, rfl⟩ := h
    exact hargs ih hps
  | not inner ih =>
    intro idx counter p counter' h
    simp only [renderPythonBooleanExpr, bind_ok, pure_ok, Prod.exists, Prod.mk.injEq] at h
    obtain ⟨q, c, hq, rfl, rfl⟩ := h
    rw [PyBool.params]
    exact ih hq
  | aggregate kind inner ih =>
    intro idx counter p counter' h
    simp only [renderPythonBooleanExpr, bind_ok, pure_ok, Prod.exists, Prod.mk.injEq] at h
    obtain ⟨q, c, hq, rfl, rfl⟩ := h
    rw [PyBool.params]
    exact ih hq

theorem outputLines_noCr {outputs : Dict OutputSpec} (h : ∀ name ∈ outputs.keys, NoCr name) :
    NoCr (renderOutputLines outputs) := by
  apply noCr_intercalate (noCr_lit (by decide))
  intro s hs
  obtain ⟨o, ho, rfl⟩ := List.mem_map.1 hs
  have hname := h o.1 (List.mem_map_of_mem ho)
  have hvalue : NoCr (outputValue o.2.expr) := by
    cases o.2.expr with
    | decision => exact noCr_lit (by decide)
    | activeCount => exact noCr_lit (by decide)
    | policyParamsHash => exact noCr_lit (by decide)
  simp only [noCr_append, hname, hvalue, and_true]
  and_intros <;> exact noCr_lit (by decide)

theorem policyParamsLine_noCr (used : Bool) : NoCr (policyParamsLine used) := by
  cases used with
  | false => exact noCr_lit (by decide)
  | true => exact noCr_lit (by decide)

theorem policyInputLines_noCr (hasParameters : Bool) :
    NoCr (String.intercalate "\n" (policyInputLines hasParameters)) := by
  apply noCr_intercalate (noCr_lit (by decide))
  cases hasParameters with
  | false =>
    unfold policyInputLines
    simp only [Bool.false_eq_true, if_false, List.append_nil, List.forall_mem_cons, List.not_mem_nil, false_implies,
      implies_true, and_true]
    and_intros <;> exact noCr_lit (by decide)
  | true =>
    unfold policyInputLines
    simp only [if_true, List.cons_append, List.nil_append, List.forall_mem_cons, List.not_mem_nil, false_implies,
      implies_true, and_true]
    and_intros <;> exact noCr_lit (by decide)

theorem normalize_noCr : NoCr normalizeText := by
  apply noCr_of_chars
  · unfold normalizeText
    iterate 42 apply toList_append_lit
    exact toList_lit
  · decide +kernel

theorem evaluateReference_noCr : NoCr evaluateReferenceText := by
  apply noCr_of_chars
  · unfold evaluateReferenceText
    iterate 5 apply toList_append_lit
    exact toList_lit
  · decide +kernel

theorem projectPublicOutputs_noCr : NoCr projectPublicOutputsText := by
  apply noCr_of_chars
  · unfold projectPublicOutputsText
    iterate 5 apply toList_append_lit
    exact toList_lit
  · decide +kernel

theorem resolvePolicyParameters_noCr : NoCr resolvePolicyParametersText := by
  apply noCr_of_chars
  · unfold resolvePolicyParametersText
    iterate 55 apply toList_append_lit
    exact toList_lit
  · decide +kernel

theorem moduleHead_noCr {spec : PolicyDSLSpec} (h : spec.NoCr) {specHash : String} (hhash : NoCr specHash)
    (needsPolicyParamsHash : Bool) : NoCr (moduleHead spec specHash needsPolicyParamsHash) := by
  unfold moduleHead
  simp only [noCr_append, h.compilerVersion, h.policyId, h.referencePolicy, hhash, noCr_repr, and_true]
  cases needsPolicyParamsHash with
  | false =>
    simp only [Bool.false_eq_true, if_false]
    and_intros <;> exact noCr_lit (by decide)
  | true =>
    simp only [if_true]
    and_intros <;> exact noCr_lit (by decide)

theorem moduleBody_noCr {spec : PolicyDSLSpec} (h : spec.NoCr) {decisionExpr : String} (hdecision : NoCr decisionExpr) :
    NoCr (moduleBody spec decisionExpr) := by
  have hspecs : NoCr (parameterSpecs spec.policyParameters).dumpsSorted := by
    unfold NoCr Json.dumpsSorted
    rw [String.toList_ofList]
    exact Json.cr_not_mem_render (by decide) (by decide) _
  unfold moduleBody
  simp only [noCr_append, hspecs, hdecision, normalize_noCr, policyParamsLine_noCr, policyInputLines_noCr,
    evaluateReference_noCr, projectPublicOutputs_noCr, outputLines_noCr h.outputs, resolvePolicyParameters_noCr, and_true]
  and_intros <;> exact noCr_lit (by decide)

/-! ## The Circom source -/

theorem Subscript.noCr_text {loopVar : String} (h : NoCr loopVar) (i : Subscript) : NoCr (i.text loopVar) := by
  cases i with
  | none => exact noCr_lit (by decide)
  | lit n =>
    show NoCr ("[" ++ n.repr ++ "]")
    simp only [noCr_append, noCr_repr, and_true]
    and_intros <;> exact noCr_lit (by decide)
  | loop =>
    show NoCr ("[" ++ loopVar ++ "]")
    simp only [noCr_append, h, and_true]
    and_intros <;> exact noCr_lit (by decide)
  | loopSucc =>
    show NoCr ("[" ++ loopVar ++ " + 1]")
    simp only [noCr_append, h, and_true]
    and_intros <;> exact noCr_lit (by decide)
  | size => exact noCr_lit (by decide)

theorem Component.noCr_text (c : Component) : NoCr c.text := by
  cases c with
  | activeFlag a =>
    show NoCr ("agg_" ++ a.repr ++ "_active_flag")
    simp only [noCr_append, noCr_repr, and_true]
    and_intros <;> exact noCr_lit (by decide)
  | cmp k =>
    show NoCr ("cmp_" ++ k.repr)
    simp only [noCr_append, noCr_repr, and_true]
    exact noCr_lit (by decide)
  | rootBalancePadding => exact noCr_lit (by decide)
  | rootLimitPadding => exact noCr_lit (by decide)

theorem Signal.noCr_text {loopVar : String} (h : NoCr loopVar) (i : Subscript) (s : Signal) :
    NoCr (s.text loopVar i) := by
  have hi := i.noCr_text h
  cases s
  case port c p =>
    have hp : NoCr p.text := by cases p <;> exact noCr_lit (by decide)
    unfold Signal.text
    simp only [noCr_append, c.noCr_text, hi, hp, true_and, and_true]
    exact noCr_lit (by decide)
  all_goals
    unfold Signal.text
    simp only [noCr_append, noCr_repr, hi, and_true]
    and_intros <;> exact noCr_lit (by decide)

theorem CircomExpr.noCr_text {loopVar : String} (h : NoCr loopVar) (e : CircomExpr) : NoCr (e.text loopVar) := by
  induction e with
  | signal s i => exact s.noCr_text h i
  | int i => exact noCr_int_repr i
  | loopVar => exact h
  | add a b iha ihb =>
    rw [CircomExpr.text]
    simp only [noCr_append, iha, ihb, true_and, and_true]
    exact noCr_lit (by decide)
  | sub a b iha ihb =>
    rw [CircomExpr.text]
    simp only [noCr_append, iha, ihb, true_and, and_true]
    exact noCr_lit (by decide)
  | mul a b iha ihb =>
    rw [CircomExpr.text]
    simp only [noCr_append, iha, ihb, true_and, and_true]
    exact noCr_lit (by decide)
  | paren a iha =>
    rw [CircomExpr.text]
    simp only [noCr_append, iha, and_true]
    and_intros <;> exact noCr_lit (by decide)

theorem CircomStmt.noCr_text {loopVar : String} (h : NoCr loopVar) (s : CircomStmt) : NoCr (s.text loopVar) := by
  cases s with
  | assign s i rhs =>
    unfold CircomStmt.text
    simp only [noCr_append, s.noCr_text h i, rhs.noCr_text h, true_and, and_true]
    and_intros <;> exact noCr_lit (by decide)
  | instantiate c t =>
    have ht : NoCr t.text := by cases t <;> exact noCr_lit (by decide)
    unfold CircomStmt.text
    simp only [noCr_append, c.noCr_text, h, ht, true_and, and_true]
    and_intros <;> exact noCr_lit (by decide)

theorem CircomBlock.noCr_text {b : CircomBlock} (h : NoCr b.loopVar) : NoCr b.text := by
  have hsep : NoCr "\n" := noCr_lit (by decide)
  apply noCr_intercalate hsep
  unfold CircomBlock.lines
  intro s hs
  simp only [List.mem_append, List.mem_cons, List.not_mem_nil, or_false, List.mem_map] at hs
  rcases hs with ((rfl | rfl) | ⟨stmt, -, rfl⟩) | rfl | rfl
  · simp only [noCr_append, b.head.noCr_text h, and_true]
    exact noCr_lit (by decide)
  · simp only [noCr_append, h, and_true]
    and_intros <;> exact noCr_lit (by decide)
  · simp only [noCr_append, stmt.noCr_text h, and_true]
    exact noCr_lit (by decide)
  · exact noCr_lit (by decide)
  · simp only [noCr_append, b.tail.noCr_text h, and_true]
    exact noCr_lit (by decide)

/-- The loop variable of a block is numbered. -/
theorem renderBlocks_noCr {order : List String} {kind : AggregateKind} {inner : DecisionExpr}
    {blocks : List CircomBlock} (h : renderBlocks order kind inner = .ok blocks) : ∀ b ∈ blocks, NoCr b.text := by
  have hall : List.Forall₂ (fun aggregate b => renderCircomAggregateBlock aggregate
      (aggregate.aggregateId = (buildRoot kind inner).1) order = .ok b) (buildRoot kind inner).2 blocks := mapM_ok.1 h
  clear h
  generalize (buildRoot kind inner).2 = aggregates at hall
  induction hall with
  | nil => exact fun b hb => absurd hb List.not_mem_nil
  | @cons aggregate block aggregates blocks hblock _ ih =>
    intro b hb
    rcases List.mem_cons.1 hb with rfl | hb
    · unfold renderCircomAggregateBlock at hblock
      simp only [bind_ok, pure_ok] at hblock
      obtain ⟨cmp, -, rfl⟩ := hblock
      apply CircomBlock.noCr_text
      show NoCr ("i_" ++ aggregate.aggregateId.repr)
      simp only [noCr_append, noCr_repr, and_true]
      exact noCr_lit (by decide)
    · exact ih b hb

theorem aggregateDeclarations_noCr (rootId : ℕ) (aggregate : CircomAggregateNode) :
    ∀ s ∈ aggregateDeclarations rootId aggregate, NoCr s := by
  intro s hs
  unfold aggregateDeclarations at hs
  simp only [List.mem_append, List.mem_cons, List.not_mem_nil, or_false, List.mem_map] at hs
  rcases hs with ((rfl | rfl | rfl | rfl | rfl) | ⟨node, -, rfl⟩) | hroot
  iterate 6
    · simp only [noCr_append, noCr_repr, and_true]
      and_intros <;> exact noCr_lit (by decide)
  · split_ifs at hroot
    · simp only [List.mem_cons, List.not_mem_nil, or_false] at hroot
      rcases hroot with rfl | rfl
      · exact noCr_lit (by decide)
      · exact noCr_lit (by decide)
    · cases hroot

theorem parameterDeclarations_noCr (order : List String) : ∀ s ∈ parameterDeclarations order, NoCr s := by
  intro s hs
  unfold parameterDeclarations at hs
  split_ifs at hs
  · cases hs
  · simp only [List.mem_cons, List.not_mem_nil, or_false] at hs
    rcases hs with rfl | rfl
    · exact noCr_lit (by decide)
    · simp only [noCr_append, noCr_repr, and_true]
      and_intros <;> exact noCr_lit (by decide)

theorem circomHead_noCr {compilerVersion policyId specHash : String} (hversion : NoCr compilerVersion)
    (hpolicy : NoCr policyId) (hhash : NoCr specHash) (parameters : ℕ) :
    NoCr (circomHead compilerVersion policyId specHash parameters) := by
  have hinputs : NoCr (parameterInputs parameters) := by
    unfold parameterInputs
    split_ifs
    · exact noCr_lit (by decide)
    · simp only [noCr_append, noCr_repr, and_true]
      and_intros <;> exact noCr_lit (by decide)
  unfold circomHead
  simp only [noCr_append, hversion, hpolicy, hhash, hinputs, and_true]
  and_intros <;> exact noCr_lit (by decide)

theorem circomBody_noCr {order : List String} {rootId : ℕ} {aggregates : List CircomAggregateNode}
    {blocks : List CircomBlock} (hblocks : ∀ b ∈ blocks, NoCr b.text) :
    NoCr (circomBody order rootId aggregates blocks) := by
  have hdeclarations : NoCr (String.intercalate "\n"
      (aggregates.flatMap (aggregateDeclarations rootId) ++ parameterDeclarations order)) := by
    apply noCr_intercalate (noCr_lit (by decide))
    intro s hs
    rcases List.mem_append.1 hs with hs | hs
    · obtain ⟨aggregate, -, hs⟩ := List.mem_flatMap.1 hs
      exact aggregateDeclarations_noCr rootId aggregate s hs
    · exact parameterDeclarations_noCr order s hs
  have hconstraints : NoCr (parameterConstraints order.length) := by
    unfold parameterConstraints
    split_ifs
    · exact noCr_lit (by decide)
    · simp only [noCr_append, noCr_repr, and_true]
      and_intros <;> exact noCr_lit (by decide)
  have htexts : NoCr (String.intercalate "\n\n" (blocks.map CircomBlock.text)) := by
    apply noCr_intercalate (noCr_lit (by decide))
    intro s hs
    obtain ⟨b, hb, rfl⟩ := List.mem_map.1 hs
    exact hblocks b hb
  unfold circomBody
  simp only [noCr_append, hdeclarations, hconstraints, htexts, and_true]
  and_intros <;> exact noCr_lit (by decide)

theorem outputDeclarations_noCr {outputs : Dict OutputSpec} (h : ∀ name ∈ outputs.keys, NoCr name) :
    NoCr (renderOutputDeclarations outputs) := by
  apply noCr_intercalate (noCr_lit (by decide))
  intro s hs
  obtain ⟨o, ho, rfl⟩ := List.mem_map.1 hs
  have hname := h o.1 (List.mem_map_of_mem ho)
  simp only [noCr_append, hname, and_true]
  and_intros <;> exact noCr_lit (by decide)

theorem outputAssignments_noCr {outputs : Dict OutputSpec} (h : ∀ name ∈ outputs.keys, NoCr name) (rootId : ℕ)
    (hasParameters : Bool) : NoCr (renderOutputAssignments outputs rootId hasParameters) := by
  apply noCr_intercalate (noCr_lit (by decide))
  intro s hs
  obtain ⟨o, ho, rfl⟩ := List.mem_map.1 hs
  have hname := h o.1 (List.mem_map_of_mem ho)
  have hsource : NoCr (outputSource rootId hasParameters o.2.expr) := by
    cases o.2.expr with
    | decision =>
      unfold outputSource
      simp only [noCr_append, noCr_repr, and_true]
      and_intros <;> exact noCr_lit (by decide)
    | activeCount => exact noCr_lit (by decide)
    | policyParamsHash =>
      unfold outputSource
      split_ifs
      · exact noCr_lit (by decide)
      · exact noCr_lit (by decide)
  simp only [noCr_append, hname, hsource, and_true]
  and_intros <;> exact noCr_lit (by decide)

theorem circomTail_noCr (parameters batchSize : ℕ) : NoCr (circomTail parameters batchSize) := by
  have htail : NoCr (mainPublicTail parameters) := by
    unfold mainPublicTail
    split_ifs
    · exact noCr_lit (by decide)
    · exact noCr_lit (by decide)
  unfold circomTail
  simp only [noCr_append, htail, noCr_repr, and_true]
  and_intros <;> exact noCr_lit (by decide)

/-! ## All sources -/

variable {sha256 : String → String} {spec : PolicyDSLSpec} {art : CompilerArtifacts}

/-- **No carriage return stands in a generated source** unless a text of the spec, or the digest, has
one. The debug trace is JSON and has none in any case. -/
theorem sources_noCr (hgen : generatePolicyArtifacts sha256 spec = .ok art) (h : spec.NoCr)
    (hhash : NoCr (sha256 spec.toJson.canonical)) :
    NoCr art.pythonSource ∧ NoCr art.circomSource ∧ NoCr art.debugTraceSource := by
  simp only [generatePolicyArtifacts, bind_ok, pure_ok, Prod.exists] at hgen
  obtain ⟨kind, inner, hdecision, python, hpython, circom, hcircom, rfl⟩ := hgen
  obtain ⟨hroot, -⟩ := ensureSupportedDecision_ok hdecision
  refine ⟨?_, ?_, ?_⟩
  · simp only [renderPythonSource, bind_ok, pure_ok, map_ok] at hpython
    obtain ⟨-, ⟨py', hpy, rfl⟩, rfl⟩ := hpython
    have hparams : ∀ n ∈ py'.params, NoCr n := by
      intro n hn
      simp only [renderDecision, bind_ok, pure_ok, Prod.exists] at hpy
      obtain ⟨p, c, hp, rfl⟩ := hpy
      rw [PyBool.params, renderPythonBooleanExpr_params inner hp] at hn
      have hroot' := h.parameters n
      rw [hroot] at hroot'
      exact hroot' hn
    have horder : NoCr (Json.arr (spec.policyParameters.keys.map .str)).dumps := by
      unfold NoCr Json.dumps
      rw [String.toList_ofList]
      exact Json.cr_not_mem_render (by decide) (by decide) _
    simp only [noCr_append]
    exact ⟨⟨moduleHead_noCr h hhash _, horder⟩, moduleBody_noCr h (py'.noCr_text hparams)⟩
  · simp only [renderCircomSource, bind_ok, pure_ok] at hcircom
    obtain ⟨blocks', hblocks, rfl⟩ := hcircom
    simp only [noCr_append]
    exact ⟨⟨⟨⟨circomHead_noCr h.compilerVersion h.policyId hhash _, outputDeclarations_noCr h.outputs⟩,
      circomBody_noCr (renderBlocks_noCr hblocks)⟩, outputAssignments_noCr h.outputs _ _⟩, circomTail_noCr _ _⟩
  · show NoCr (renderDebugTrace spec kind inner _)
    unfold renderDebugTrace Json.dumpsIndented
    rw [noCr_append]
    refine ⟨?_, noCr_lit (by decide)⟩
    unfold NoCr
    rw [String.toList_ofList]
    exact Json.cr_not_mem_renderIndent _ 0

end Vellum
