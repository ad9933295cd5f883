import Vellum.Proof.CircomComplete
import Vellum.Proof.ModuleImport
import Vellum.Proof.Normalize

/-!
# The two backends agree

The circuit and the reference policy that the compiler generates from one spec compute
the same decision on every zero-padded batch, as long as the generated Python module can be
imported and its parameter literals find the values of their parameters.

* `blocks_sound`: every satisfying assignment has the decision at its root.
* `blocks_satisfiable`: there is one.
* `backends_agree`: with `loaded_true_iff`, the agreement.
* `backends_disagree_on_backslash`: a backslash in a parameter name breaks it.
-/

namespace Vellum

open Circomlib

variable {I : Interpreter} {spec : PolicyDSLSpec} {kind : AggregateKind} {inner : DecisionExpr} {py : PyBool}
  {blocks : List CircomBlock} {B : Batch} {w : Assignment}

/-- The constants of a decision are below `m`. -/
def ConstantsBelow (m : ℕ) (e : DecisionExpr) : Prop := ∀ c, ValueRef.constInt c ∈ e.values → c < m

/-- On a padded batch every value node is an unsigned 32-bit integer. -/
theorem padded_values (h : Accepted spec kind inner py blocks) (hc : ConstantsBelow (2 ^ 32) inner)
    (hN : spec.batchSize ≤ 2 ^ 16) (hp : B.Padded spec.batchSize spec.policyParameters.keys) :
    ValuesBelow (2 ^ 32) B spec.batchSize inner.values := by
  intro v hv i _
  have hacc := accepted_values h v hv
  cases v with
  | constInt c => exact ⟨hacc, hc c hv⟩
  | param p => exact_mod_cast hp.paramsU32 p hacc
  | ref s =>
    rcases hacc with rfl | rfl | rfl
    · exact_mod_cast getD_u32 hp.balancesU32 i
    · exact_mod_cast getD_u32 hp.limitsU32 i
    · have := hp.activeLe
      exact ⟨Int.natCast_nonneg _, by simp only [Batch.valueAt, reduceIte, String.reduceEq]; omega⟩

/-- The blocks that were rendered are those of the builder's aggregates. -/
theorem renderBlocks_agg {names : List String} (h : renderBlocks names kind inner = .ok blocks)
    {agg : CircomAggregateNode} (hagg : agg ∈ (buildRoot kind inner).2) :
    ∃ block ∈ blocks, ∃ zeroTail, renderCircomAggregateBlock agg zeroTail names = .ok block := by
  obtain ⟨block, hb, hr⟩ := forall₂_mem_left (mapM_ok.1 h) hagg
  exact ⟨block, hb, _, hr⟩

theorem generatedHolds_agg {names : List String} {N : ℕ} (h : renderBlocks names kind inner = .ok blocks)
    (hw : GeneratedHolds N blocks w) :
    ∀ agg ∈ (buildRoot kind inner).2, AggHolds N names w agg := by
  intro agg hagg
  obtain ⟨block, hb, z, hr⟩ := renderBlocks_agg h hagg
  exact ⟨z, block, hr, hw.blocks block hb⟩

/-- The value of the root in an assignment that satisfies all aggregates. -/
theorem root_value {names : List String} {N : ℕ} (hac : B.activeCount ≤ N)
    (hflag : ∀ agg, AggHolds N names w agg → ∀ i < N,
      w (.isActive agg.aggregateId) i = bit (decide (i < B.activeCount)))
    (hc : ∀ c ∈ inner.comparisons, ComparisonMeans B N names w c)
    (hagg : ∀ agg ∈ (buildRoot kind inner).2, AggHolds N names w agg)
    (hN : 0 < N) :
    w (.value (buildRoot kind inner).1) 0 = bit ((DecisionExpr.aggregate kind inner).holdsAt B 0) :=
  -- the root is an aggregate like any other, registered in an empty builder
  renderBooleanExpr_eval hac hflag (.aggregate kind inner) hc 0 .init hagg (by
    intro node hn
    rw [show (renderBooleanExpr 0 (.aggregate kind inner) .init).2.comparisonsByAggregate 0 =
      (renderBooleanExpr 0 inner Builder.init.openAggregate).2.comparisonsByAggregate 0 from rfl] at hn
    exact aggHolds_node (hagg ⟨0, kind, _, _⟩ (List.mem_append_right _ (List.mem_singleton.2 rfl))) hn) 0 hN

/-- **Soundness of rendered blocks.** In every satisfying assignment the root is the decision. -/
theorem blocks_sound {names : List String} {N : ℕ} (h : renderBlocks names kind inner = .ok blocks)
    (hv : ValuesBelow (2 ^ 32) B N inner.values) (hN : N ≤ 2 ^ 16) (hp : B.Padded N names) (hin : B.Inputs N names w)
    (hw : GeneratedHolds N blocks w) :
    w (.value (buildRoot kind inner).1) 0 = bit ((DecisionExpr.aggregate kind inner).holdsAt B 0) := by
  have hpos := hp.activePos
  have hle := hp.activeLe
  refine root_value hle ?_ (comparisonMeans_below hin (hv.mono two_pow_32_le_fieldBound)) (generatedHolds_agg h hw)
    (by omega)
  intro agg hagg i hi
  have hflag := aggHolds_flag hagg hi
  rw [hin.activeCount] at hflag
  exact (flag_sound (by omega) (by omega) hflag).2

theorem generated_sound (h : Accepted spec kind inner py blocks) (hc : ConstantsBelow (2 ^ 32) inner)
    (hN : spec.batchSize ≤ 2 ^ 16) (hp : B.Padded spec.batchSize spec.policyParameters.keys)
    (hin : B.Inputs spec.batchSize spec.policyParameters.keys w)
    (hw : GeneratedHolds spec.batchSize blocks w) :
    w (.value (buildRoot kind inner).1) 0 = bit ((DecisionExpr.aggregate kind inner).holdsAt B 0) :=
  blocks_sound h.circom (padded_values h hc hN hp) hN hp hin hw

/-- **Completeness of rendered blocks.** The honest assignment satisfies the constraints. -/
theorem blocks_satisfiable {names : List String} {N : ℕ} (h : renderBlocks names kind inner = .ok blocks)
    (hv : ValuesBelow (2 ^ 32) B N inner.values) (hN : N ≤ 2 ^ 16) (hp : B.Padded N names) :
    ∃ w, B.Inputs N names w ∧ GeneratedHolds N blocks w := by
  have hpos := hp.activePos
  have hle := hp.activeLe
  refine ⟨honest B N names inner.comparisons ((kind, inner) :: inner.quantifiers),
    honest_inputs, ⟨1, 1, 1, ?_, ?_, by simp, rfl⟩, ?_⟩
  · have := (greaterThan_nat (n := 16) (a := B.activeCount) (b := 0) two_pow_17_le (by omega) (by omega)).2
      (if_pos (by omega)).symm
    rw [Nat.cast_zero] at this
    exact this
  · exact (lessThan_nat two_pow_17_le (by omega) (by omega)).2 (if_pos (by omega)).symm
  · intro block hb
    obtain ⟨agg, hagg, hr⟩ := forall₂_mem_right (mapM_ok.1 h) hb
    -- the root is rendered from an empty builder, with both tables from their start
    have hat : AggAt B N names inner.comparisons ((kind, inner) :: inner.quantifiers) agg :=
      (renderBooleanExpr_tables hle (.aggregate kind inner) 0 .init builderAt_init
        List.prefix_rfl List.prefix_rfl).1.aggregates agg hagg
    refine honest_block hat hp hN (fun node hn v hmem => ?_) hr
    refine hv v ?_
    rw [values_eq]
    exact List.mem_flatMap.2 ⟨_, List.mem_of_getElem? (hat.1 node hn), hmem⟩

theorem generated_satisfiable (h : Accepted spec kind inner py blocks) (hc : ConstantsBelow (2 ^ 32) inner)
    (hN : spec.batchSize ≤ 2 ^ 16) (hp : B.Padded spec.batchSize spec.policyParameters.keys) :
    ∃ w, B.Inputs spec.batchSize spec.policyParameters.keys w ∧ GeneratedHolds spec.batchSize blocks w :=
  blocks_satisfiable h.circom (padded_values h hc hN hp) hN hp

/-- The root is 1 exactly where the decision holds, whatever the module says. -/
theorem backendsAgree_iff (h : Accepted spec kind inner py blocks) (hc : ConstantsBelow (2 ^ 32) inner)
    (hN : spec.batchSize ≤ 2 ^ 16) (hp : B.Padded spec.batchSize spec.policyParameters.keys) :
    BackendsAgree I spec B ↔ (spec.decision.holdsAt B 0 = true ↔
      (loadDecision I spec).bind (·.eval (B.normalized spec.policyParameters.keys).env) = some true) := by
  rw [h.decision]
  constructor
  · rintro ⟨kind', inner', blocks', hd, hblocks, ⟨w, hin, hw⟩, hall⟩
    obtain ⟨rfl, rfl⟩ : kind = kind' ∧ inner = inner' := by simpa [h.decision] using hd
    obtain rfl : blocks = blocks' := Except.ok.inj (h.circom.symm.trans hblocks)
    have hroot := hall w hin hw
    rw [generated_sound h hc hN hp hin hw, bit] at hroot
    split_ifs at hroot with hholds hpass hpass
    · exact iff_of_true hholds hpass
    · exact absurd hroot one_ne_zero
    · exact absurd hroot zero_ne_one
    · exact iff_of_false hholds hpass
  · intro hiff
    refine ⟨kind, inner, blocks, h.decision, h.circom, generated_satisfiable h hc hN hp, ?_⟩
    intro w hin hw
    rw [generated_sound h hc hN hp hin hw]
    exact if_congr hiff rfl rfl

/-- **When the backends agree.** For every spec the compiler accepts, with a batch size of at most
`2^16`, constants below `2^32` and no copied string that breaks its literal, and every padded batch:
the emitted constraints are satisfiable with a root aggregate that is 1 in every satisfying assignment
if `evaluate_reference` passes the batch, and 0 otherwise, iff the decision holds of the batch exactly
where the module can be imported and finds parameters with which it holds. -/
theorem backends_agree {sha256 : String → String} {art : CompilerArtifacts}
    (hgen : generatePolicyArtifacts sha256 spec = .ok art) (hN : spec.batchSize ≤ 2 ^ 16)
    (hc : ConstantsBelow (2 ^ 32) spec.decision) (hcontained : spec.contained = true)
    (hp : B.Padded spec.batchSize spec.policyParameters.keys) :
    BackendsAgree I spec B ↔ (spec.decision.holdsAt B 0 = true ↔
      spec.imports I = true ∧ spec.finds I B = true ∧ spec.decision.holdsAt (spec.found I B) 0 = true) := by
  obtain ⟨kind, inner, py, blocks, h⟩ := generatePolicyArtifacts_ok hgen
  rw [h.decision] at hc
  have hle := hp.activeLe
  rw [backendsAgree_iff h hc hN hp, loaded_true_iff h hcontained (by rw [hp.lenBalances]; exact hle)
    (by rw [hp.lenLimits]; exact hle)]

/-! ## A module that agrees, and one that cannot be imported -/

/-- A spec with one parameter, one row and the decision `all(balances[i] >= name)`. -/
def oneParamSpec (name : String) (h : name ≠ "") : PolicyDSLSpec where
  policyId := "p"
  policyVersion := "1"
  referencePolicy := "r"
  specVersion := "1"
  compilerVersion := "1"
  description := none
  batchSize := 1
  inputs := ⟨[("balances", ⟨⟩)], by simp⟩
  policyParameters := ⟨[(name, ⟨some 0, some 9, some 0, by simp, by simp, by simp⟩)], by simp⟩
  decision := .aggregate .all (.comparison ⟨.ge, .ref "balances", .param name⟩)
  outputs := ⟨[("all_valid", ⟨.decision, .bool, 0⟩)], by simp⟩
  primitives := ["GreaterEqThan"]
  expectedAttestation := .empty
  generatedPythonPath := "p.py"
  generatedCircomPath := "p.circom"
  generatedDebugTracePath := "p.debug.json"
  circuitId := "c"
  nonempty := by decide
  batchPos := le_rfl
  inputsPos := by simp
  outputsPos := by simp
  primitivesPos := by simp
  decisionWf := by simp [DecisionExpr.wellFormed, ValueRef.wellFormed, h]

/-- One active row with a balance of 5, all parameters zero. -/
def oneRow : Batch := ⟨1, [5], [0], fun _ => 0⟩

theorem oneRow_padded (name : String) (h : name ≠ "") :
    oneRow.Padded (oneParamSpec name h).batchSize (oneParamSpec name h).policyParameters.keys where
  lenBalances := rfl
  lenLimits := rfl
  activePos := le_rfl
  activeLe := le_rfl
  balancesU32 := by simp [oneRow]
  limitsU32 := by simp [oneRow]
  balancesZero := by
    intro i hi
    rw [List.getD_eq_getElem?_getD, List.getElem?_eq_none (show oneRow.balances.length ≤ i from hi)]
    rfl
  limitsZero := by
    intro i hi
    rw [List.getD_eq_getElem?_getD, List.getElem?_eq_none (show oneRow.limits.length ≤ i from hi)]
    rfl
  paramsU32 := by simp [oneRow]

theorem oneParamSpec_constants (name : String) (h : name ≠ "") :
    ConstantsBelow (2 ^ 32) (oneParamSpec name h).decision := by
  simp [ConstantsBelow, oneParamSpec, DecisionExpr.values]

/-- The agreement at a name, in a spec whose other strings have quotes and backslashes. -/
theorem backends_agree_threshold : BackendsAgree plainPython
    { oneParamSpec "threshold" (by decide) with
      compilerVersion := "1 \"beta\""
      policyId := "p\\d"
      nonempty := by decide } oneRow := by
  set spec : PolicyDSLSpec :=
    { oneParamSpec "threshold" (by decide) with
      compilerVersion := "1 \"beta\""
      policyId := "p\\d"
      nonempty := by decide } with hspec
  obtain ⟨art, h⟩ := isOk_iff.1 (show (generatePolicyArtifacts id spec).isOk = true by decide +kernel)
  refine (backends_agree h (by decide) (oneParamSpec_constants "threshold" (by decide)) (by decide +kernel)
    (oneRow_padded "threshold" (by decide))).2 (iff_of_true (by decide +kernel) ?_)
  decide +kernel

/-- **A backslash in a parameter name separates the backends.** The compiler accepts the spec, the
circuit's root is 1, and `policy_params["a\tb"]` asks for a name with a tab, which raises. -/
theorem backends_disagree_on_backslash :
    (generatePolicyArtifacts id (oneParamSpec "a\\tb" (by decide))).isOk = true ∧
    (oneParamSpec "a\\tb" (by decide)).batchSize ≤ 2 ^ 16 ∧
    ConstantsBelow (2 ^ 32) (oneParamSpec "a\\tb" (by decide)).decision ∧
    (oneParamSpec "a\\tb" (by decide)).contained = true ∧
    oneRow.Padded (oneParamSpec "a\\tb" (by decide)).batchSize
      (oneParamSpec "a\\tb" (by decide)).policyParameters.keys ∧
    ¬ BackendsAgree plainPython (oneParamSpec "a\\tb" (by decide)) oneRow := by
  have hok : (generatePolicyArtifacts id (oneParamSpec "a\\tb" (by decide))).isOk = true := by decide +kernel
  have hc := oneParamSpec_constants "a\\tb" (by decide)
  have hp := oneRow_padded "a\\tb" (by decide)
  have hcontained : (oneParamSpec "a\\tb" (by decide)).contained = true := by decide +kernel
  refine ⟨hok, by decide, hc, hcontained, hp, ?_⟩
  obtain ⟨art, hgen⟩ := isOk_iff.1 hok
  obtain ⟨kind, inner, py, blocks, h⟩ := generatePolicyArtifacts_ok hgen
  rw [h.decision] at hc
  rw [backendsAgree_iff h hc (by decide) hp, loaded_true_iff h hcontained le_rfl le_rfl]
  intro hiff
  -- the decision holds, and the one literal finds nothing
  have hholds : (oneParamSpec "a\\tb" (by decide)).decision.holdsAt oneRow 0 = true := by decide +kernel
  have hfinds : (oneParamSpec "a\\tb" (by decide)).finds plainPython oneRow = false := by decide +kernel
  have hfound := (hiff.1 hholds).2.1
  rw [hfinds] at hfound
  cases hfound

end Vellum
