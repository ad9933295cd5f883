import Vellum.Proof.Accepted
import Vellum.Proof.Builder

/-!
# What is validated is rendered

The validator strips a reference before it looks at it, the renderers do not. A decision that the
validator accepts is rendered by all of them iff no reference in it has white space around it.

* `renderPythonBooleanExpr_accepted`: the Python renderer returns, by induction on the decision.
* `renderBlocks_accepted`: the Circom renderer returns.
* `stripped_iff_accepted`: what a validated decision lacks to be accepted.
* `renders_all_iff`: when all renderers return.
-/

namespace Vellum

variable {names : List String}

/-! ## The Python renderer -/

theorem renderPythonValue_accepted {v : ValueRef} (h : v.Accepted names) (idx : ℕ) :
    ∃ pv, renderPythonValue idx v = .ok pv := by
  cases v with
  | constInt i => exact ⟨_, rfl⟩
  | param p => exact ⟨_, rfl⟩
  | ref s =>
    rcases h with rfl | rfl | rfl
    · exact ⟨_, rfl⟩
    · exact ⟨_, rfl⟩
    · exact ⟨_, rfl⟩

theorem renderPythonArgs_accepted {args : List DecisionExpr}
    (h : ∀ e ∈ args, ∀ idx counter, ∃ out, renderPythonBooleanExpr idx counter e = .ok out) :
    ∀ idx counter, ∃ out, renderPythonArgs idx counter args = .ok out := by
  induction args with
  | nil => exact fun idx counter => ⟨_, rfl⟩
  | cons e es ih =>
    intro idx counter
    obtain ⟨⟨part, counter₁⟩, hpart⟩ := h e (by simp) idx counter
    obtain ⟨⟨parts, counter₂⟩, hparts⟩ := ih (fun x hx => h x (by simp [hx])) idx counter₁
    refine ⟨(part :: parts, counter₂), ?_⟩
    simp only [renderPythonArgs, bind_ok, pure_ok, Prod.exists]
    exact ⟨part, counter₁, hpart, parts, counter₂, hparts, rfl⟩

/-- **The Python renderer returns** on accepted values, by induction on the decision. -/
theorem renderPythonBooleanExpr_accepted (e : DecisionExpr) : (∀ v ∈ e.values, v.Accepted names) →
    ∀ idx counter, ∃ out, renderPythonBooleanExpr idx counter e = .ok out := by
  induction e with
  | comparison c =>
    intro h idx counter
    obtain ⟨left, hleft⟩ := renderPythonValue_accepted (h c.left (by simp [DecisionExpr.values])) idx
    obtain ⟨right, hright⟩ := renderPythonValue_accepted (h c.right (by simp [DecisionExpr.values])) idx
    refine ⟨(.compare c.op left right, counter), ?_⟩
    simp only [renderPythonBooleanExpr, bind_ok, pure_ok]
    exact ⟨left, hleft, right, hright, rfl⟩
  | and args ih =>
    intro h idx counter
    obtain ⟨⟨parts, counter'⟩, hparts⟩ :=
      renderPythonArgs_accepted (fun e he => ih e he (values_arg h he)) idx counter
    refine ⟨(.and parts, counter'), ?_⟩
    simp only [renderPythonBooleanExpr, bind_ok, pure_ok, Prod.exists]
    exact ⟨parts, counter', hparts, rfl⟩
  | or args ih =>
    intro h idx counter
    obtain ⟨⟨parts, counter'⟩, hparts⟩ :=
      renderPythonArgs_accepted (fun e he => ih e he (values_arg h he)) idx counter
    refine ⟨(.or parts, counter'), ?_⟩
    simp only [renderPythonBooleanExpr, bind_ok, pure_ok, Prod.exists]
    exact ⟨parts, counter', hparts, rfl⟩
  | not inner ih =>
    intro h idx counter
    obtain ⟨⟨part, counter'⟩, hpart⟩ := ih h idx counter
    refine ⟨(.not part, counter'), ?_⟩
    simp only [renderPythonBooleanExpr, bind_ok, pure_ok, Prod.exists]
    exact ⟨part, counter', hpart, rfl⟩
  | aggregate kind inner ih =>
    intro h idx counter
    obtain ⟨⟨part, counter'⟩, hpart⟩ := ih h counter (counter + 1)
    refine ⟨(.aggregate kind part counter, counter'), ?_⟩
    simp only [renderPythonBooleanExpr, bind_ok, pure_ok, Prod.exists]
    exact ⟨part, counter', hpart, rfl⟩

theorem renderDecision_accepted (kind : AggregateKind) {inner : DecisionExpr}
    (h : ∀ v ∈ inner.values, v.Accepted names) : ∃ py, renderDecision kind inner = .ok py := by
  obtain ⟨⟨part, counter⟩, hpart⟩ := renderPythonBooleanExpr_accepted inner h 0 1
  refine ⟨.aggregate kind part 0, ?_⟩
  simp only [renderDecision, bind_ok, pure_ok, Prod.exists]
  exact ⟨part, counter, hpart, rfl⟩

/-! ## The Circom renderer -/

theorem renderCircomValue_accepted {v : ValueRef} (h : v.Accepted names) : ∃ e, renderCircomValue names v = .ok e := by
  cases v with
  | constInt i => exact ⟨_, rfl⟩
  | param p =>
    have hsome : (names.idxOf? p).isSome = true := by
      rw [List.isSome_idxOf?]
      exact h
    obtain ⟨j, hj⟩ := Option.isSome_iff_exists.1 hsome
    refine ⟨.signal .policyParams (.lit j), ?_⟩
    simp only [renderCircomValue, renderCircomParam, hj]
  | ref s =>
    rcases h with rfl | rfl | rfl
    · exact ⟨_, rfl⟩
    · exact ⟨_, rfl⟩
    · exact ⟨_, rfl⟩

/-- **The Circom renderer returns** on accepted values: a comparator is that of a comparison. -/
theorem renderBlocks_accepted (kind : AggregateKind) {inner : DecisionExpr}
    (h : ∀ v ∈ inner.values, v.Accepted names) : ∃ blocks, renderBlocks names kind inner = .ok blocks := by
  unfold renderBlocks
  apply mapM_exists_ok
  intro agg hagg
  have hlines : ∃ lines, agg.comparisonNodes.mapM (cmpLines names) = .ok lines := by
    apply mapM_exists_ok
    intro node hnode
    have hmem := List.mem_of_getElem? (buildRoot_nodeAt hagg hnode)
    have hvalues : ∀ v ∈ [node.left, node.right], v.Accepted names := by
      intro v hv
      apply h
      rw [values_eq]
      exact List.mem_flatMap.2 ⟨_, hmem, hv⟩
    obtain ⟨left, hleft⟩ := renderCircomValue_accepted (hvalues node.left (by simp))
    obtain ⟨right, hright⟩ := renderCircomValue_accepted (hvalues node.right (by simp))
    unfold cmpLines
    rw [hleft, hright]
    exact ⟨_, rfl⟩
  obtain ⟨lines, hlines⟩ := hlines
  unfold renderCircomAggregateBlock
  rw [hlines]
  exact ⟨_, rfl⟩

/-! ## All renderers -/

variable {spec : PolicyDSLSpec} {kind : AggregateKind} {inner : DecisionExpr}

/-- `render_python_source`, `render_circom_source` and `render_debug_trace` return. -/
def RendersAll (spec : PolicyDSLSpec) (kind : AggregateKind) (inner : DecisionExpr) : Prop :=
  ∀ specHash, ∃ pythonSource circomSource debugTraceSource,
    renderPythonSource spec kind inner specHash = .ok pythonSource ∧
    renderCircomSource spec kind inner specHash = .ok circomSource ∧
    renderDebugTrace spec kind inner specHash = debugTraceSource

theorem rendersAll_of_accepted (h : ∀ v ∈ inner.values, v.Accepted spec.policyParameters.keys) :
    RendersAll spec kind inner := by
  intro specHash
  obtain ⟨py, hpy⟩ := renderDecision_accepted kind h
  obtain ⟨blocks, hblocks⟩ := renderBlocks_accepted kind h
  have hpython : ∃ pythonSource, renderPythonSource spec kind inner specHash = .ok pythonSource := by
    unfold renderPythonSource
    rw [hpy]
    exact ⟨_, rfl⟩
  have hcircom : ∃ circomSource, renderCircomSource spec kind inner specHash = .ok circomSource := by
    unfold renderCircomSource
    dsimp only
    rw [hblocks]
    exact ⟨_, rfl⟩
  obtain ⟨pythonSource, hpython⟩ := hpython
  obtain ⟨circomSource, hcircom⟩ := hcircom
  exact ⟨pythonSource, circomSource, _, hpython, hcircom, rfl⟩

/-- A validated decision is accepted iff its references are stripped. -/
theorem stripped_iff_accepted
    (h : validateBooleanExpr spec.policyId true spec.policyParameters.keys inner = .ok ()) :
    (∀ s, .ref s ∈ inner.values → strip s = s) ↔ ∀ v ∈ inner.values, v.Accepted spec.policyParameters.keys := by
  constructor
  · intro hstrip v hv
    obtain ⟨ctx, hvalid⟩ := validate_values inner true h v hv
    apply accepted_of_known hvalid
    rintro s rfl
    have href := validateValue_ref hvalid
    rw [hstrip s hv] at href
    rcases href with hs | hs | hs
    · exact .inl hs
    · exact .inr (.inl hs)
    · exact .inr (.inr (.inl hs))
  · intro hacc s hs
    rcases hacc _ hs with rfl | rfl | rfl
    · decide
    · decide
    · decide

/-- **When every renderer returns.** For every decision the validator accepts: iff no reference in it
has white space around it. -/
theorem renders_all_iff (h : ensureSupportedDecision spec = .ok (kind, inner)) :
    RendersAll spec kind inner ↔ ∀ s, .ref s ∈ inner.values → strip s = s := by
  obtain ⟨-, hvalid⟩ := ensureSupportedDecision_ok h
  rw [stripped_iff_accepted hvalid]
  constructor
  · intro hall v hv
    obtain ⟨python, -, -, hpython, -, -⟩ := hall ""
    simp only [renderPythonSource, renderDecision, bind_ok, pure_ok, map_ok, Prod.exists] at hpython
    obtain ⟨-, ⟨-, ⟨part, counter, hpart, -⟩, -⟩, -⟩ := hpython
    obtain ⟨ctx, hvalue⟩ := validate_values inner true hvalid v hv
    obtain ⟨k, pv, hpv⟩ := render_values inner _ _ _ _ hpart v hv
    exact accepted_value hvalue hpv
  · exact rendersAll_of_accepted

/-- `balances > 100` is rendered. -/
theorem renders_all_balance : RendersAll (rowSpec balanceAbove (by decide)) .any balanceAbove := by
  apply (renders_all_iff (rowSpec_supported (by decide +kernel))).2
  intro s hs
  simp only [balanceAbove, DecisionExpr.values, List.mem_cons, List.not_mem_nil, or_false] at hs
  rcases hs with hs | hs
  · cases hs
    decide
  · cases hs

/-- `" balances " > 100`. -/
def spacedAbove : DecisionExpr := .comparison ⟨.gt, .ref " balances ", .constInt 100⟩

/-- **A space passes the validator and stops both renderers.** -/
theorem spaced_reference_not_rendered :
    ensureSupportedDecision (rowSpec spacedAbove (by decide)) = .ok (.any, spacedAbove) ∧
    (∀ specHash, ∃ e, renderPythonSource (rowSpec spacedAbove (by decide)) .any spacedAbove specHash = .error e) ∧
    (∀ specHash, ∃ e, renderCircomSource (rowSpec spacedAbove (by decide)) .any spacedAbove specHash = .error e) ∧
    ¬ RendersAll (rowSpec spacedAbove (by decide)) .any spacedAbove := by
  refine ⟨rowSpec_supported (by decide +kernel), fun specHash => ⟨_, rfl⟩, fun specHash => ⟨_, rfl⟩, ?_⟩
  intro hall
  obtain ⟨python, -, -, hpython, -, -⟩ := hall ""
  cases hpython

end Vellum
