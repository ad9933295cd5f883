import Vellum.Lib.Except
import Vellum.Spec.Compiler
import Vellum.Spec.Meaning

/-!
# What acceptance by the compiler gives

`generate_policy_artifacts` succeeds only on a decision whose root is a quantifier and
whose value nodes both the validator and the renderers know.

* `generatePolicyArtifacts_ok`: the parts of a successful run.
* `accepted_values`: the value nodes of an accepted decision.
-/

namespace Vellum

/-- The value nodes that validation and both renderers admit. -/
def ValueRef.Accepted (names : List String) : ValueRef → Prop
  | .constInt c => 0 ≤ c
  | .param p => p ∈ names
  | .ref s => s = "balances" ∨ s = "limits" ∨ s = "active_count"

/-- What a run of the compiler that succeeds computes. -/
structure Accepted (spec : PolicyDSLSpec) (kind : AggregateKind) (inner : DecisionExpr) (py : PyBool)
    (blocks : List CircomBlock) : Prop where
  decision : spec.decision = .aggregate kind inner
  validated : validateBooleanExpr spec.policyId true spec.policyParameters.keys inner = .ok ()
  python : renderDecision kind inner = .ok py
  circom : renderBlocks spec.policyParameters.keys kind inner = .ok blocks

/-- What the validator accepts: a quantifier over a validated expression. -/
theorem ensureSupportedDecision_ok {spec : PolicyDSLSpec} {kind : AggregateKind} {inner : DecisionExpr}
    (h : ensureSupportedDecision spec = .ok (kind, inner)) : spec.decision = .aggregate kind inner ∧
      validateBooleanExpr spec.policyId true spec.policyParameters.keys inner = .ok () := by
  unfold ensureSupportedDecision at h
  split at h
  · next k e heq =>
    simp only [bind_ok, pure_ok, Prod.mk.injEq] at h
    obtain ⟨⟨⟩, hv, rfl, rfl⟩ := h
    exact ⟨heq, hv⟩
  · cases h

/-- **The parts of a successful run.** -/
theorem generatePolicyArtifacts_ok {sha256 : String → String} {spec : PolicyDSLSpec} {art : CompilerArtifacts}
    (h : generatePolicyArtifacts sha256 spec = .ok art) :
    ∃ kind inner py blocks, Accepted spec kind inner py blocks := by
  simp only [generatePolicyArtifacts, bind_ok, pure_ok, Prod.exists] at h
  obtain ⟨kind, inner, hd, python, hp, circom, hc, -⟩ := h
  obtain ⟨hdec, hv⟩ := ensureSupportedDecision_ok hd
  simp only [renderPythonSource, bind_ok, pure_ok, map_ok] at hp
  obtain ⟨-, ⟨py, hpy, -⟩, -⟩ := hp
  simp only [renderCircomSource, bind_ok, pure_ok] at hc
  obtain ⟨blocks, hb, -⟩ := hc
  exact ⟨kind, inner, py, blocks, hdec, hv, hpy, hb⟩

/-! ## Value nodes -/

theorem values_arg {P : ValueRef → Prop} {args : List DecisionExpr} (h : ∀ v ∈ DecisionExpr.valuesArgs args, P v)
    {e : DecisionExpr} (he : e ∈ args) : ∀ v ∈ e.values, P v := by
  intro v hv
  apply h
  rw [DecisionExpr.valuesArgs_eq]
  exact List.mem_flatMap.2 ⟨e, he, hv⟩

/-- Validation of a list of arguments validates every value node in them, if that of each does. -/
theorem validateArgs_values {policyId : String} {names : List String} {l : List DecisionExpr}
    (hl : ∀ e ∈ l, ∀ ctx, validateBooleanExpr policyId ctx names e = .ok () →
      ∀ v ∈ e.values, ∃ ctx', validateValue policyId ctx' names v = .ok ()) :
    ∀ ctx, validateArgs policyId ctx names l = .ok () →
      ∀ v ∈ DecisionExpr.valuesArgs l, ∃ ctx', validateValue policyId ctx' names v = .ok () := by
  induction l with
  | nil => intro ctx _ v hv; simp [DecisionExpr.valuesArgs] at hv
  | cons e es ih =>
    intro ctx h v hv
    simp only [validateArgs, bind_ok] at h
    obtain ⟨_, h1, h2⟩ := h
    rw [DecisionExpr.valuesArgs, List.mem_append] at hv
    rcases hv with hv | hv
    · exact hl e (by simp) ctx h1 v hv
    · exact ih (fun x hx => hl x (by simp [hx])) ctx h2 v hv

/-- Validation of an expression validates every value node in it. -/
theorem validate_values {policyId : String} {names : List String} (e : DecisionExpr) :
    ∀ ctx, validateBooleanExpr policyId ctx names e = .ok () →
      ∀ v ∈ e.values, ∃ ctx', validateValue policyId ctx' names v = .ok () := by
  induction e with
  | comparison c =>
    intro ctx h v hv
    simp only [validateBooleanExpr, bind_ok] at h
    obtain ⟨_, h1, h2⟩ := h
    simp only [DecisionExpr.values, List.mem_cons, List.not_mem_nil, or_false] at hv
    rcases hv with rfl | rfl
    · exact ⟨ctx, h1⟩
    · exact ⟨ctx, h2⟩
  | and args ih => intro ctx h; exact validateArgs_values ih ctx h
  | or args ih => intro ctx h; exact validateArgs_values ih ctx h
  | not inner ih => intro ctx h; exact ih ctx h
  -- inside a quantifier the arrays are in scope
  | aggregate kind inner ih => intro ctx h; exact ih true h

/-- The Python renderer renders a value node, under some index variable. -/
def Renders (v : ValueRef) : Prop := ∃ idx pv, renderPythonValue idx v = .ok pv

/-- Rendering a list of arguments renders every value node in them, if that of each does. -/
theorem renderArgs_values {l : List DecisionExpr}
    (hl : ∀ e ∈ l, ∀ idx counter p counter', renderPythonBooleanExpr idx counter e = .ok (p, counter') →
      ∀ v ∈ e.values, Renders v) :
    ∀ idx counter ps counter', renderPythonArgs idx counter l = .ok (ps, counter') →
      ∀ v ∈ DecisionExpr.valuesArgs l, Renders v := by
  induction l with
  | nil => intro idx counter ps counter' _ v hv; simp [DecisionExpr.valuesArgs] at hv
  | cons e es ih =>
    intro idx counter ps counter' h v hv
    simp only [renderPythonArgs, bind_ok, pure_ok, Prod.exists, Prod.mk.injEq] at h
    obtain ⟨p, c1, h1, ps', c2, h2, -⟩ := h
    rw [DecisionExpr.valuesArgs, List.mem_append] at hv
    rcases hv with hv | hv
    · exact hl e (by simp) _ _ _ _ h1 v hv
    · exact ih (fun x hx => hl x (by simp [hx])) _ _ _ _ h2 v hv

/-- Rendering an expression renders every value node in it. -/
theorem render_values (e : DecisionExpr) : ∀ idx counter p counter',
    renderPythonBooleanExpr idx counter e = .ok (p, counter') → ∀ v ∈ e.values, Renders v := by
  induction e with
  | comparison c =>
    intro idx counter p counter' h v hv
    simp only [renderPythonBooleanExpr, bind_ok, pure_ok, Prod.mk.injEq] at h
    obtain ⟨a, ha, b, hb, -⟩ := h
    simp only [DecisionExpr.values, List.mem_cons, List.not_mem_nil, or_false] at hv
    rcases hv with rfl | rfl
    · exact ⟨idx, a, ha⟩
    · exact ⟨idx, b, hb⟩
  | and args ih =>
    intro idx counter p counter' h
    simp only [renderPythonBooleanExpr, bind_ok, pure_ok, Prod.exists, Prod.mk.injEq] at h
    obtain ⟨ps, c, h1, -⟩ := h
    exact renderArgs_values ih _ _ _ _ h1
  | or args ih =>
    intro idx counter p counter' h
    simp only [renderPythonBooleanExpr, bind_ok, pure_ok, Prod.exists, Prod.mk.injEq] at h
    obtain ⟨ps, c, h1, -⟩ := h
    exact renderArgs_values ih _ _ _ _ h1
  | not inner ih =>
    intro idx counter p counter' h
    simp only [renderPythonBooleanExpr, bind_ok, pure_ok, Prod.exists, Prod.mk.injEq] at h
    obtain ⟨p', c, h1, -⟩ := h
    exact ih _ _ _ _ h1
  | aggregate kind inner ih =>
    intro idx counter p counter' h
    simp only [renderPythonBooleanExpr, bind_ok, pure_ok, Prod.exists, Prod.mk.injEq] at h
    obtain ⟨p', c, h1, -⟩ := h
    exact ih _ _ _ _ h1

/-- A reference the validator admits starts, once stripped, like one of the three arrays. -/
theorem validateValue_ref {policyId s : String} {ctx : Bool} {names : List String}
    (h : validateValue policyId ctx names (.ref s) = .ok ()) :
    strip s = "balances" ∨ strip s = "limits" ∨ strip s = "active_count" := by
  simp only [validateValue] at h
  split_ifs at h with h1 h2 h3
  · exact h1.imp_right Or.inl
  · exact Or.inr (Or.inr h3)

/-- A parameter reference is not stripped to anything else. -/
theorem strip_policyParams {s : String} (h : "policy_params.".toList.isPrefixOf s.toList = true) :
    (strip s).toList.head? = some 'p' := by
  obtain ⟨t, ht⟩ := List.isPrefixOf_iff_prefix.1 h
  have hcons : s.toList = 'p' :: ("olicy_params.".toList ++ t) := by rw [← ht]; rfl
  have hp : isSpace 'p' = false := by decide
  rw [strip, hcons, String.toList_ofList, List.dropWhile_cons_of_neg (by simp [hp]), List.reverse_cons,
    List.dropWhile_append]
  split
  · simp [hp]
  · simp

/-- A value node that the validator admits and whose reference a renderer knows is an accepted one. -/
theorem accepted_of_known {policyId : String} {ctx : Bool} {names : List String} {v : ValueRef}
    (hv : validateValue policyId ctx names v = .ok ()) (hknown : ∀ s, v = .ref s → s = "balances" ∨ s = "limits" ∨
      s = "active_count" ∨ "policy_params.".toList.isPrefixOf s.toList = true) : v.Accepted names := by
  cases v with
  | constInt c =>
    simp only [validateValue] at hv
    split_ifs at hv with h
    exact Int.not_lt.1 h
  | param p =>
    simp only [validateValue] at hv
    split_ifs at hv with h
    exact h
  | ref s =>
    rcases hknown s rfl with h1 | h2 | h3 | h4
    · exact Or.inl h1
    · exact Or.inr (Or.inl h2)
    · exact Or.inr (Or.inr h3)
    · -- the renderers know `policy_params.*`, the validator does not
      have hp := strip_policyParams h4
      rcases validateValue_ref hv with h | h | h <;> rw [h] at hp <;> exact absurd hp (by decide)

theorem accepted_value {policyId : String} {ctx : Bool} {names : List String} {v : ValueRef} {k : ℕ}
    {pv : PyValue} (hv : validateValue policyId ctx names v = .ok ()) (hr : renderPythonValue k v = .ok pv) :
    v.Accepted names := by
  apply accepted_of_known hv
  rintro s rfl
  simp only [renderPythonValue] at hr
  split_ifs at hr with h1 h2 h3 h4
  · exact Or.inl h1
  · exact Or.inr (Or.inl h2)
  · exact Or.inr (Or.inr (Or.inl h3))
  · exact Or.inr (Or.inr (Or.inr h4))

section

variable {spec : PolicyDSLSpec} {kind : AggregateKind} {inner : DecisionExpr} {py : PyBool}
  {blocks : List CircomBlock}

/-- **The value nodes of an accepted decision.** -/
theorem accepted_values (h : Accepted spec kind inner py blocks) :
    ∀ v ∈ inner.values, v.Accepted spec.policyParameters.keys := by
  intro v hv
  have hpy := h.python
  simp only [renderDecision, bind_ok, pure_ok, Prod.exists] at hpy
  obtain ⟨p, c, hp, -⟩ := hpy
  obtain ⟨ctx, h1⟩ := validate_values inner true h.validated v hv
  obtain ⟨k, pv, h2⟩ := render_values inner _ _ _ _ hp v hv
  exact accepted_value h1 h2

end

/-! ## Small specs -/

/-- `balances > 100`. -/
def balanceAbove : DecisionExpr := .comparison ⟨.gt, .ref "balances", .constInt 100⟩

theorem rowSpec_inputs : ([("balances", InputSpec.mk)].map Prod.fst).Nodup := by simp

theorem rowSpec_outputs : ([("all_valid", OutputSpec.mk .decision .bool 0)].map Prod.fst).Nodup := by simp

theorem rowSpec_inputsPos : [("balances", InputSpec.mk)] ≠ [] := by simp

theorem rowSpec_outputsPos : [("all_valid", OutputSpec.mk .decision .bool 0)] ≠ [] := by simp

theorem rowSpec_primitivesPos : ["GreaterThan"] ≠ [] := by simp

theorem rowSpec_batchPos : 1 ≤ 1 := le_rfl

theorem rowSpec_nonempty : ∀ s ∈ ["p", "1", "r", "1", "1", "p.py", "p.circom", "p.debug.json", "c"], s ≠ "" := by
  decide

/-- A spec of one row without parameters, whose rows pass on `inner`. -/
def rowSpec (inner : DecisionExpr) (h : inner.wellFormed = true) : PolicyDSLSpec where
  policyId := "p"
  policyVersion := "1"
  referencePolicy := "r"
  specVersion := "1"
  compilerVersion := "1"
  description := none
  batchSize := 1
  inputs := ⟨[("balances", ⟨⟩)], rowSpec_inputs⟩
  policyParameters := .empty
  decision := .aggregate .any inner
  outputs := ⟨[("all_valid", ⟨.decision, .bool, 0⟩)], rowSpec_outputs⟩
  primitives := ["GreaterThan"]
  expectedAttestation := .empty
  generatedPythonPath := "p.py"
  generatedCircomPath := "p.circom"
  generatedDebugTracePath := "p.debug.json"
  circuitId := "c"
  nonempty := rowSpec_nonempty
  batchPos := rowSpec_batchPos
  inputsPos := rowSpec_inputsPos
  outputsPos := rowSpec_outputsPos
  primitivesPos := rowSpec_primitivesPos
  decisionWf := h

/-- `balances > threshold and (limits <= 50 or not all(balances >= limits))`. -/
def nestedInner : DecisionExpr :=
  .and [.comparison ⟨.gt, .ref "balances", .param "threshold"⟩, .or [.comparison ⟨.le, .ref "limits", .constInt 50⟩,
    .not (.aggregate .all (.comparison ⟨.ge, .ref "balances", .ref "limits"⟩))]]

theorem balanceAbove_wellFormed : balanceAbove.wellFormed = true := by decide

theorem nestedSpec_batchPos : 1 ≤ 2 := by decide

theorem nestedSpec_bounds : ∀ a ∈ some (0 : ℤ), ∀ b ∈ some (9 : ℤ), a ≤ b := by simp

theorem nestedSpec_defaultMin : ∀ d ∈ some (0 : ℤ), ∀ a ∈ some (0 : ℤ), a ≤ d := by simp

theorem nestedSpec_defaultMax : ∀ d ∈ some (0 : ℤ), ∀ b ∈ some (9 : ℤ), d ≤ b := by simp

/-- A spec of two rows with a parameter, all of which pass on that. -/
def nestedSpec : PolicyDSLSpec :=
  { rowSpec balanceAbove balanceAbove_wellFormed with
    batchSize := 2
    policyParameters := ⟨[("threshold", ⟨some 0, some 9, some 0, nestedSpec_bounds, nestedSpec_defaultMin,
      nestedSpec_defaultMax⟩)], List.nodup_singleton "threshold"⟩
    decision := .aggregate .all nestedInner
    batchPos := nestedSpec_batchPos
    decisionWf := by decide }

theorem rowSpec_supported {inner : DecisionExpr} {h : inner.wellFormed = true}
    (hok : (validateBooleanExpr "p" true [] inner).isOk = true) :
    ensureSupportedDecision (rowSpec inner h) = .ok (.any, inner) := by
  obtain ⟨u, hu⟩ := isOk_iff.1 hok
  simp only [ensureSupportedDecision, rowSpec, bind_ok, pure_ok]
  exact ⟨u, hu, trivial⟩

end Vellum
