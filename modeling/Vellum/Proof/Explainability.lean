import Vellum.Proof.Outputs
import Vellum.Spec.Explainability

/-!
# The explainability replay computes the decision

The replay evaluates the decision on the private input, row by row, and agrees with its meaning on
the batch the input holds. So does the generated policy, as long as its parameter literals find the
parameters.

* `evalExpr_value`: the evaluator of the replay, by induction on the decision.
* `foldlM_replayRow`: the loop over the rows.
* `replayDecision_report`: the report.
* `replay_agrees`: the replay and the reference policy on normalized evidence.
* `replay_passes_where_policy_raises`: a backslash in a parameter name separates them.
-/

namespace Vellum

variable {B : Batch} {R : ReplayInput}

/-! ## Rules -/

/-- Every comparison has its rule, and a rule's number is a place in the list. -/
structure RulesOf (cs : List ComparisonExpr) (rules : List ComparisonRule) : Prop where
  covers : ∀ c ∈ cs, ∃ rule ∈ rules, rule.isOf c = true
  numbers : ∀ rule ∈ rules, rule.number < rules.length

/-- What `_collect_rules` does with the list: it adds to it, and the comparisons have their rules. -/
def Collects (cs : List ComparisonExpr) (collect : List ComparisonRule → List ComparisonRule) : Prop :=
  ∀ rules, (∀ rule ∈ rules, rule.number < rules.length) → rules <+: collect rules ∧ RulesOf cs (collect rules)

theorem collects_comparison (c : ComparisonExpr) (path : String) :
    Collects [c] (ComparisonRule.collectRules path (.comparison c)) := by
  intro rules hnumbers
  refine ⟨List.prefix_append _ _, ?_, ?_⟩
  · intro c' hc
    obtain rfl := List.mem_singleton.1 hc
    refine ⟨_, List.mem_append_right _ (List.mem_singleton_self _), ?_⟩
    simp [ComparisonRule.isOf]
  · intro rule hrule
    simp only [ComparisonRule.collectRules, List.mem_append, List.mem_singleton, List.length_append,
      List.length_singleton] at hrule ⊢
    rcases hrule with hrule | rfl
    · exact Nat.lt_succ_of_lt (hnumbers rule hrule)
    · exact Nat.lt_succ_self _

/-- One after the other. -/
theorem collects_append {cs cs' : List ComparisonExpr} {f g : List ComparisonRule → List ComparisonRule}
    (hf : Collects cs f) (hg : Collects cs' g) : Collects (cs ++ cs') (g ∘ f) := by
  intro rules hnumbers
  obtain ⟨hpre, hrules⟩ := hf rules hnumbers
  obtain ⟨hpre', hrules'⟩ := hg (f rules) hrules.numbers
  refine ⟨hpre.trans hpre', ?_, hrules'.numbers⟩
  intro c hc
  rcases List.mem_append.1 hc with hc | hc
  · obtain ⟨rule, hrule, hof⟩ := hrules.covers c hc
    exact ⟨rule, hpre'.subset hrule, hof⟩
  · exact hrules'.covers c hc

theorem collects_args {args : List DecisionExpr}
    (h : ∀ e ∈ args, ∀ path, Collects e.comparisons (ComparisonRule.collectRules path e)) (path : String) (idx : ℕ) :
    Collects (DecisionExpr.comparisonsArgs args) (ComparisonRule.collectArgs path idx args) := by
  induction args generalizing idx with
  | nil =>
    intro rules hnumbers
    refine ⟨List.prefix_rfl, ?_, hnumbers⟩
    intro c hc
    cases hc
  | cons e es ih =>
    exact collects_append (h e (by simp) _) (ih (fun x hx => h x (by simp [hx])) (idx + 1))

/-- **The rules of a decision**, by induction on it. -/
theorem collects_rules (e : DecisionExpr) : ∀ path, Collects e.comparisons (ComparisonRule.collectRules path e) := by
  induction e with
  | comparison c => exact collects_comparison c
  | and args ih => exact fun path => collects_args ih path 0
  | or args ih => exact fun path => collects_args ih path 0
  | not inner ih => exact fun path => ih _
  | aggregate kind inner ih => exact fun path => ih _

theorem rulesOf_collectRules (e : DecisionExpr) (path : String) :
    RulesOf e.comparisons (ComparisonRule.collectRules path e []) :=
  (collects_rules e path [] (by intro rule hrule; cases hrule)).2

/-- The rule that the index names is there. -/
theorem RulesOf.getElem? {cs : List ComparisonExpr} {rules : List ComparisonRule} (h : RulesOf cs rules)
    {c : ComparisonExpr} (hc : c ∈ cs) : ∃ rule, rules[comparisonIndex rules c]? = some rule := by
  obtain ⟨rule, hrule, hof⟩ := h.covers c hc
  obtain ⟨first, hfirst⟩ := Option.isSome_iff_exists.1 (List.find?_isSome.2 ⟨rule, hrule, hof⟩)
  have hindex : comparisonIndex rules c = first.number := by
    unfold comparisonIndex
    rw [hfirst]
    rfl
  rw [hindex]
  exact ⟨_, List.getElem?_eq_getElem (h.numbers first (List.mem_of_find?_eq_some hfirst))⟩

/-! ## Values -/

/-- The input holds the batch. -/
structure ReplayInput.HasBatch (R : ReplayInput) (B : Batch) : Prop where
  activeCount : R.activeCount = some (B.activeCount : ℤ)
  balances : R.privateInput.get? "balances" = some (.arr (B.balances.map .int))
  limits : R.privateInput.get? "limits" = some (.arr (B.limits.map .int))
  params : ∀ name, R.parameter name = B.params name

/-- Where there is no item the replay reads zero, as the batch does. -/
theorem itemAt_ints {privateInput : Json} {key : String} {l : List ℤ}
    (h : privateInput.get? key = some (.arr (l.map .int)))
    (idx : ℕ) : itemAt privateInput key idx = some (l.getD idx 0) := by
  unfold itemAt
  rw [h, List.getD_eq_getElem?_getD]
  dsimp only
  rw [List.getElem?_map]
  cases l[idx]? with
  | none => rfl
  | some x => rfl

/-- **Value nodes.** -/
theorem resolveValue_eq (h : R.HasBatch B) {names : List String} {v : ValueRef} (hacc : v.Accepted names)
    (hwf : v.wellFormed = true) (idx : ℕ) : R.resolveValue idx v = some (B.valueAt idx v) := by
  cases v with
  | constInt c => rfl
  | param p =>
    have hp : p ≠ "" := by simpa [ValueRef.wellFormed] using hwf
    have hparam : R.resolveValue idx (.param p) = some (R.parameter p) := congrArg some (if_pos hp)
    rw [hparam, h.params p]
    rfl
  | ref s =>
    rcases hacc with rfl | rfl | rfl
    · exact itemAt_ints h.balances idx
    · exact itemAt_ints h.limits idx
    · exact h.activeCount

/-- The strings of a well-formed decision are not empty. -/
theorem wellFormed_values (e : DecisionExpr) : e.wellFormed = true → ∀ v ∈ e.values, v.wellFormed = true := by
  have hargs : ∀ args : List DecisionExpr, (∀ e ∈ args, e.wellFormed = true → ∀ v ∈ e.values, v.wellFormed = true) →
      DecisionExpr.wellFormedArgs args = true → ∀ v ∈ DecisionExpr.valuesArgs args, v.wellFormed = true := by
    intro args
    induction args with
    | nil =>
      intro _ _ v hv
      cases hv
    | cons e es ih =>
      intro hall hwf v hv
      rw [DecisionExpr.wellFormedArgs, Bool.and_eq_true] at hwf
      rcases List.mem_append.1 hv with hv | hv
      · exact hall e (by simp) hwf.1 v hv
      · exact ih (fun x hx => hall x (by simp [hx])) hwf.2 v hv
  induction e with
  | comparison c =>
    intro hwf v hv
    rw [DecisionExpr.wellFormed, Bool.and_eq_true] at hwf
    simp only [DecisionExpr.values, List.mem_cons, List.not_mem_nil, or_false] at hv
    rcases hv with rfl | rfl
    · exact hwf.1
    · exact hwf.2
  | and args ih =>
    intro hwf
    rw [DecisionExpr.wellFormed, Bool.and_eq_true] at hwf
    exact hargs args ih hwf.2
  | or args ih =>
    intro hwf
    rw [DecisionExpr.wellFormed, Bool.and_eq_true] at hwf
    exact hargs args ih hwf.2
  | not inner ih => exact ih
  | aggregate kind inner ih => exact ih

/-! ## Expressions -/

theorem evalArgs_eq (args : List DecisionExpr) (idx : ℕ) :
    R.evalArgs args idx = args.mapM fun e => R.evalExpr e idx := by
  induction args with
  | nil => rfl
  | cons e es ih =>
    rw [List.mapM_cons, ReplayInput.evalArgs, ih]

theorem mem_comparisonsArgs {args : List DecisionExpr} {e : DecisionExpr} (he : e ∈ args) {c : ComparisonExpr}
    (hc : c ∈ e.comparisons) : c ∈ DecisionExpr.comparisonsArgs args := by
  induction args with
  | nil => cases he
  | cons x xs ih =>
    rw [DecisionExpr.comparisonsArgs, List.mem_append]
    rcases List.mem_cons.1 he with rfl | he
    · exact .inl hc
    · exact .inr (ih he)

theorem rules_arg {args : List DecisionExpr} {rules : List ComparisonRule}
    (h : RulesOf (DecisionExpr.comparisonsArgs args) rules) {e : DecisionExpr} (he : e ∈ args) :
    RulesOf e.comparisons rules :=
  ⟨fun c hc => h.covers c (mem_comparisonsArgs he hc), h.numbers⟩

theorem holdsAll_eq (i : ℕ) (args : List DecisionExpr) :
    DecisionExpr.holdsAll B i args = args.all (·.holdsAt B i) := by
  induction args with
  | nil => rfl
  | cons e es ih => rw [DecisionExpr.holdsAll, ih, List.all_cons]

theorem holdsAny_eq (i : ℕ) (args : List DecisionExpr) :
    DecisionExpr.holdsAny B i args = args.any (·.holdsAt B i) := by
  induction args with
  | nil => rfl
  | cons e es ih => rw [DecisionExpr.holdsAny, ih, List.any_cons]

theorem disj_value (outcomes : List EvalOutcome) : (EvalOutcome.disj outcomes).value = outcomes.any (·.value) := by
  unfold EvalOutcome.disj
  split_ifs with h
  · exact h.symm
  · exact (Bool.eq_false_of_not_eq_true h).symm

/-- The evaluation returns, with this value. -/
def Evaluates (R : ReplayInput) (e : DecisionExpr) (idx : ℕ) (value : Bool) : Prop :=
  ∃ outcome, R.evalExpr e idx = some outcome ∧ outcome.value = value

/-- The children of `and` and `or`. -/
theorem evalArgs_values {args : List DecisionExpr} {idx : ℕ}
    (h : ∀ e ∈ args, Evaluates R e idx (e.holdsAt B idx)) : ∃ outcomes, R.evalArgs args idx = some outcomes ∧
      outcomes.all (·.value) = DecisionExpr.holdsAll B idx args ∧
      outcomes.any (·.value) = DecisionExpr.holdsAny B idx args := by
  obtain ⟨outcomes, houtcomes, hvalues⟩ := mapM_exists h
  rw [evalArgs_eq, holdsAll_eq, holdsAny_eq]
  exact ⟨outcomes, houtcomes, forall₂_all_any hvalues⟩

/-- **The evaluator of the replay** says what the decision says, by induction on it. It never stops
early, so every child has to return. -/
theorem evalExpr_value (h : R.HasBatch B) {names : List String} (e : DecisionExpr) :
    (∀ v ∈ e.values, v.Accepted names ∧ v.wellFormed = true) → RulesOf e.comparisons R.rules →
      ∀ idx, Evaluates R e idx (e.holdsAt B idx) := by
  induction e with
  | comparison c =>
    intro hvalues hrules idx
    obtain ⟨rule, hrule⟩ := hrules.getElem? (c := c) (List.mem_singleton_self c)
    have hleft := hvalues c.left (by simp [DecisionExpr.values])
    have hright := hvalues c.right (by simp [DecisionExpr.values])
    unfold Evaluates ReplayInput.evalExpr
    rw [hrule, resolveValue_eq h hleft.1 hleft.2, resolveValue_eq h hright.1 hright.2]
    exact ⟨_, rfl, rfl⟩
  | and args ih =>
    intro hvalues hrules idx
    obtain ⟨outcomes, houtcomes, hall, -⟩ := evalArgs_values fun e he =>
      ih e he (values_arg hvalues he) (rules_arg hrules he) idx
    unfold Evaluates ReplayInput.evalExpr
    rw [houtcomes]
    exact ⟨_, rfl, hall⟩
  | or args ih =>
    intro hvalues hrules idx
    obtain ⟨outcomes, houtcomes, -, hany⟩ := evalArgs_values fun e he =>
      ih e he (values_arg hvalues he) (rules_arg hrules he) idx
    unfold Evaluates ReplayInput.evalExpr
    rw [houtcomes]
    exact ⟨_, rfl, (disj_value outcomes).trans hany⟩
  | not inner ih =>
    intro hvalues hrules idx
    obtain ⟨outcome, houtcome, hvalue⟩ := ih hvalues hrules idx
    unfold Evaluates ReplayInput.evalExpr
    rw [houtcome]
    exact ⟨_, rfl, congrArg (!·) hvalue⟩
  | aggregate kind inner ih =>
    intro hvalues hrules idx
    obtain ⟨outcomes, houtcomes, hrows⟩ := mapM_exists (l := List.range B.activeCount) fun j _ => ih hvalues hrules j
    obtain ⟨hall, hany⟩ := forall₂_all_any hrows
    -- the row of the enclosing quantifier plays no part
    have heval : R.evalExpr (.aggregate kind inner) idx = some (.quantify kind outcomes) := by
      unfold ReplayInput.evalExpr
      rw [h.activeCount]
      simp only [Option.bind_eq_bind, Option.bind_some, Int.toNat_natCast]
      rw [houtcomes]
      rfl
    refine ⟨_, heval, ?_⟩
    cases kind with
    | all => exact hall
    | any => exact (disj_value outcomes).trans hany

/-! ## Rows -/

/-- **The loop over the rows** collects those where the inner expression is false. By induction on
the rows. -/
theorem foldlM_replayRow {inner : DecisionExpr} (h : ∀ idx, Evaluates R inner idx (inner.holdsAt B idx)) :
    ∀ (rows : List ℕ) (failed : List ℕ × List ℕ), ∃ failedRuleIds,
      rows.foldlM (R.replayRow inner) failed =
        some (failed.1 ++ rows.filter (fun i => !inner.holdsAt B i), failedRuleIds) := by
  intro rows
  induction rows with
  | nil =>
    intro failed
    exact ⟨failed.2, by rw [List.filter_nil, List.append_nil]; rfl⟩
  | cons i is ih =>
    intro failed
    obtain ⟨outcome, houtcome, hvalue⟩ := h i
    have hrow : R.replayRow inner failed i =
        some (if outcome.value then failed else (failed.1 ++ [i], failed.2 ++ outcome.failedRuleIds)) := by
      unfold ReplayInput.replayRow
      rw [houtcome]
      rfl
    rw [List.foldlM_cons, hrow]
    by_cases hi : inner.holdsAt B i = true
    · rw [hvalue, if_pos hi, List.filter_cons_of_neg (by simp [hi])]
      exact ih failed
    · rw [hvalue, if_neg hi, List.filter_cons_of_pos (by simp [hi])]
      obtain ⟨failedRuleIds, hrest⟩ := ih (failed.1 ++ [i], failed.2 ++ outcome.failedRuleIds)
      refine ⟨failedRuleIds, ?_⟩
      rw [List.append_assoc] at hrest
      exact hrest

/-- The decision fails where the replay says so. -/
theorem decisionFailed_iff (kind : AggregateKind) (inner : DecisionExpr) (B : Batch) :
    (if decide (kind = .all) = true then decide (0 < (inner.falseRows B).length) else
      decide ((inner.falseRows B).length = B.activeCount)) = !(DecisionExpr.aggregate kind inner).holdsAt B 0 := by
  cases kind with
  | all =>
    rw [if_pos (by decide), DecisionExpr.holdsAt, Bool.eq_iff_iff, decide_eq_true_eq, List.length_pos_iff_exists_mem]
    simp [DecisionExpr.falseRows]
  | any =>
    rw [if_neg (by decide), DecisionExpr.holdsAt, Bool.eq_iff_iff, decide_eq_true_eq]
    have hlen : (List.range B.activeCount).length = B.activeCount := List.length_range
    nth_rewrite 1 [← hlen]
    unfold DecisionExpr.falseRows
    rw [List.length_filter_eq_length_iff]
    simp

/-! ## The report -/

/-- **The report of the replay.** -/
theorem replayDecision_report (kind : AggregateKind) {inner : DecisionExpr} {privateInput : Json}
    {policyParameters : List (String × ℤ)} {names : List String}
    (h : ReplayInput.HasBatch ⟨privateInput, policyParameters, ComparisonRule.collectRules "decision.inner" inner []⟩ B)
    (hpos : 1 ≤ B.activeCount) (hvalues : ∀ v ∈ inner.values, v.Accepted names ∧ v.wellFormed = true) :
    ∃ rules failedRuleIds, replayDecision (decide (kind = .all)) inner privateInput policyParameters =
      some (if (DecisionExpr.aggregate kind inner).holdsAt B 0 then passedEntries
        else failureEntries rules (inner.falseRows B) failedRuleIds) := by
  obtain ⟨failedRuleIds, hrows⟩ := foldlM_replayRow
    (evalExpr_value h inner hvalues (rulesOf_collectRules inner _)) (List.range B.activeCount) ([], [])
  refine ⟨ComparisonRule.collectRules "decision.inner" inner [], failedRuleIds, ?_⟩
  have hnot : ¬ ((B.activeCount : ℤ) ≤ 0) := by omega
  unfold replayDecision
  dsimp only
  rw [h.activeCount]
  simp only [Option.bind_eq_bind, Option.bind_some, if_neg hnot, Int.toNat_natCast]
  rw [hrows, Option.bind_some]
  have hfailed := decisionFailed_iff kind inner B
  unfold DecisionExpr.falseRows at hfailed ⊢
  simp only [List.nil_append]
  rw [hfailed]
  cases (DecisionExpr.aggregate kind inner).holdsAt B 0 with
  | true => rfl
  | false => rfl

variable {I : Interpreter} {spec : PolicyDSLSpec} {kind : AggregateKind} {inner : DecisionExpr} {py decision : PyBool}
  {blocks : List CircomBlock} {policy : GeneratedReferencePolicy} {evidence : Json} {n : NormalizedEvidence}

/-- Normalized evidence has active rows. -/
theorem activeCount_normalized (hn : policy.normalize evidence = .ok n) :
    1 ≤ n.batch.activeCount ∧ (n.batch.activeCount : ℤ) = n.activeCount.toInt := by
  obtain ⟨⟨size, -, hprep⟩, -⟩ := GeneratedReferencePolicy.normalize_prepared hn
  have hpos := hprep.activePos
  have hac : (n.batch.activeCount : ℤ) = n.activeCount.toInt := Int.toNat_of_nonneg (by omega)
  exact ⟨by omega, hac⟩

/-- The private input of normalized evidence holds its batch. -/
theorem privateInput_normalized (sha256 : String → String) (hn : policy.normalize evidence = .ok n) :
    ∃ privateInput, policy.toPrivateInput sha256 n = some privateInput ∧
      ∀ rules, ReplayInput.HasBatch ⟨privateInput, n.policyParameters, rules⟩ n.batch := by
  obtain ⟨entries, hprivate⟩ := exists_privateInput hn
  refine ⟨_, hprivate, fun rules => ⟨?_, rfl, rfl, fun _ => rfl⟩⟩
  rw [(activeCount_normalized hn).2]
  rfl

/-- The replay of normalized evidence passes where the decision holds. -/
theorem replay_report (sha256 : String → String) (h : Accepted spec kind inner py blocks)
    (hn : (⟨spec.batchSize, spec.policyParameters, decision⟩ : GeneratedReferencePolicy).normalize evidence = .ok n) :
    ∃ privateInput entries,
      (⟨spec.batchSize, spec.policyParameters, decision⟩ : GeneratedReferencePolicy).toPrivateInput sha256 n =
        some privateInput ∧
      evaluatePolicyTrace (some spec) privateInput n.policyParameters = some (some entries) ∧
      (entries.lookup "reason" = some (.str "policy_trace_passed") ↔ spec.decision.holdsAt n.batch 0 = true) ∧
      (entries.lookup "reason" ≠ some (.str "policy_trace_passed") →
        entries.lookup "failed_indices" = some (.arr (((inner.falseRows n.batch).take 25).map fun i => .int i))) := by
  obtain ⟨privateInput, hprivate, hbatch⟩ := privateInput_normalized sha256 hn
  -- what the loader guarantees of the strings, and the compiler of the references
  have hwf : inner.wellFormed = true := by
    have hspec := spec.decisionWf
    rw [h.decision] at hspec
    exact hspec
  have hvalues : ∀ v ∈ inner.values, v.Accepted spec.policyParameters.keys ∧ v.wellFormed = true := fun v hv =>
    ⟨accepted_values h v hv, wellFormed_values inner hwf v hv⟩
  obtain ⟨rules, failedRuleIds, hreport⟩ :=
    replayDecision_report kind (hbatch _) (activeCount_normalized hn).1 hvalues
  have htrace : evaluatePolicyTrace (some spec) privateInput n.policyParameters =
      (replayDecision (decide (kind = .all)) inner privateInput n.policyParameters).map some := by
    unfold evaluatePolicyTrace
    rw [Option.bind_some, h.decision]
    rfl
  rw [hreport, ← h.decision] at htrace
  refine ⟨privateInput, _, hprivate, htrace, ?_⟩
  cases spec.decision.holdsAt n.batch 0 with
  | true => exact ⟨iff_of_true rfl rfl, fun hne => absurd rfl hne⟩
  | false =>
    have hreason : (failureEntries rules (inner.falseRows n.batch) failedRuleIds).lookup "reason" =
        some (.str "policy_rule_failed") := rfl
    refine ⟨iff_of_false ?_ (by decide), fun _ => rfl⟩
    rw [if_neg Bool.false_ne_true, hreason]
    simp

/-- `evaluate_reference` passes where the module finds parameters with which the decision holds. -/
theorem evaluateReference_pass_iff (h : Accepted spec kind inner py blocks)
    (hn : (⟨spec.batchSize, spec.policyParameters, decision⟩ : GeneratedReferencePolicy).normalize evidence = .ok n) :
    (⟨spec.batchSize, spec.policyParameters, py.rename (spec.key I)⟩ : GeneratedReferencePolicy).evaluateReference n =
      some .pass ↔ spec.finds I n.batch = true ∧ spec.decision.holdsAt (spec.found I n.batch) 0 = true := by
  rw [GeneratedReferencePolicy.evaluateReference, module_reading h hn]
  cases spec.finds I n.batch <;> simp

/-- **When the replay computes the decision.** For every spec the compiler accepts, without a copied
string that breaks its literal, and every evidence that the class of its module normalizes: the replay
on the private input passes iff `evaluate_reference` does, and reports the first 25 rows at which the
inner expression is false otherwise, iff the decision holds of the evidence exactly where the module
finds parameters with which it holds. -/
theorem replay_agrees {sha256 : String → String} {art : CompilerArtifacts}
    (hgen : generatePolicyArtifacts sha256 spec = .ok art) (hcontained : spec.contained = true)
    (hclass : loadPolicy I spec = some policy) (hn : policy.normalize evidence = .ok n) :
    ReplayAgrees sha256 spec policy n ↔ (spec.decision.holdsAt n.batch 0 = true ↔
      spec.finds I n.batch = true ∧ spec.decision.holdsAt (spec.found I n.batch) 0 = true) := by
  obtain ⟨kind, inner, py, blocks, h⟩ := generatePolicyArtifacts_ok hgen
  obtain rfl := loadPolicy_accepted h hcontained hclass
  obtain ⟨privateInput, entries, hprivate, htrace, hpassed, hfailed⟩ := replay_report sha256 h hn
  rw [← evaluateReference_pass_iff h hn, ← hpassed]
  constructor
  · rintro ⟨kind', inner', privateInput', entries', -, hprivate', htrace', hiff, -⟩
    obtain rfl := Option.some.inj (hprivate.symm.trans hprivate')
    obtain rfl : entries = entries' := by simpa using htrace.symm.trans htrace'
    exact hiff
  · intro hiff
    exact ⟨kind, inner, privateInput, entries, h.decision, hprivate, htrace, hiff, hfailed⟩

/-- The class of one parameter, asked for under the key its literal denotes. -/
theorem oneParam_loads {name key : String} {hne : name ≠ ""} (hkey : plainPython.denotes name = some key)
    (hcontained : (oneParamSpec name hne).contained = true)
    (himports : (oneParamSpec name hne).imports plainPython = true)
    (hwritten : (oneParamSpec name hne).policyParameters.keys.all plainPython.readsWritten = true) :
    loadPolicy plainPython (oneParamSpec name hne) =
      some { oneParamPolicy name with decision := (oneParamPolicy key).decision } := by
  have hpy : (oneParamSpec name hne).rendered = some (oneParamPolicy name).decision := rfl
  have hrename : (oneParamPolicy name).decision.rename ((oneParamSpec name hne).key plainPython) =
      (oneParamPolicy key).decision := by
    rw [← @key_denotes plainPython (oneParamSpec name hne) name key hkey]
    rfl
  rw [loadPolicy_some hcontained himports hwritten hpy, hrename]
  rfl

/-- The replay at a plain name. -/
theorem replay_agrees_threshold : ReplayAgrees id (oneParamSpec "threshold" (by decide)) (oneParamPolicy "threshold")
    (oneParamEvidence "threshold") := by
  obtain ⟨art, hgen⟩ := isOk_iff.1 (show (generatePolicyArtifacts id
    (oneParamSpec "threshold" (by decide))).isOk = true by decide +kernel)
  have hclass : loadPolicy plainPython (oneParamSpec "threshold" (by decide)) = some (oneParamPolicy "threshold") :=
    oneParam_loads (denotes_plain _ (by decide +kernel)) (by decide +kernel) (by decide +kernel) (by decide +kernel)
  exact (replay_agrees hgen (by decide +kernel) hclass (oneParam_normalize "threshold")).2
    (iff_of_true (by decide +kernel) (by decide +kernel))

/-- The policy of a parameter `a\\tb`: its decision asks for a name with a tab. -/
def tabPolicy : GeneratedReferencePolicy :=
  { oneParamPolicy "a\\tb" with decision := (oneParamPolicy "a\tb").decision }

/-- **A backslash in a parameter name separates them.** The literal `"a\tb"` of the rendered decision
has a tab in it, and the table of the parameters has not: `evaluate_reference` raises a `KeyError`, and
the replay, which asks for the name itself, passes. -/
theorem replay_passes_where_policy_raises :
    (generatePolicyArtifacts id (oneParamSpec "a\\tb" (by decide))).isOk = true ∧
    loadPolicy plainPython (oneParamSpec "a\\tb" (by decide)) = some tabPolicy ∧
    tabPolicy.normalize (evidenceOf [5] [0] [("a\\tb", 0)]) = .ok (oneParamEvidence "a\\tb") ∧
    ((tabPolicy.toPrivateInput id (oneParamEvidence "a\\tb")).bind fun privateInput =>
      evaluatePolicyTrace (some (oneParamSpec "a\\tb" (by decide))) privateInput
        (oneParamEvidence "a\\tb").policyParameters) = some (some passedEntries) ∧
    tabPolicy.evaluateReference (oneParamEvidence "a\\tb") = none ∧
    ¬ ReplayAgrees id (oneParamSpec "a\\tb" (by decide)) tabPolicy (oneParamEvidence "a\\tb") := by
  have hload : loadPolicy plainPython (oneParamSpec "a\\tb" (by decide)) = some tabPolicy :=
    oneParam_loads (by decide +kernel) (by decide +kernel) (by decide +kernel) (by decide +kernel)
  have heval : tabPolicy.evaluateReference (oneParamEvidence "a\\tb") = none := by decide +kernel
  have hpassed : ((tabPolicy.toPrivateInput id (oneParamEvidence "a\\tb")).bind fun privateInput =>
      evaluatePolicyTrace (some (oneParamSpec "a\\tb" (by decide))) privateInput
        (oneParamEvidence "a\\tb").policyParameters) = some (some passedEntries) := rfl
  refine ⟨by decide +kernel, hload, oneParam_normalize _, hpassed, heval, ?_⟩
  rintro ⟨kind, inner, privateInput, entries, -, hprivate, htrace, hiff, -⟩
  rw [hprivate, Option.bind_some, htrace] at hpassed
  obtain rfl : entries = passedEntries := by simpa using hpassed
  rw [hiff.1 rfl] at heval
  cases heval

end Vellum
