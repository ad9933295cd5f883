import Vellum.Proof.Accepted
import Vellum.Proof.Builder
import Vellum.Proof.Normalize

/-!
# Operands of the comparators

The comparators of the library are right for operands in a fixed range, which they do not
check. Balances, limits and the active count are bounded by the batcher. The constants of a
decision, the values of its parameters and the batch size are not.

* `OperandsInRange`: every operand that a line of the circuit hands to a bounded comparator.
* `comparators_iff`: the operands of a comparator are the value nodes of its comparison.
* `operands_in_range_iff`: when all of them are in range.
-/

namespace Vellum

/-- The operands of the comparisons that become a `Primitive*32`; `==` becomes `PrimitiveEqual`. -/
def DecisionExpr.rangedValues (e : DecisionExpr) : List ValueRef :=
  (e.comparisons.filter fun c => c.op ≠ .eq).flatMap fun c => [c.left, c.right]

/-- The templates with 32-bit comparators. -/
def Template.ranged : Template → Bool
  | .primitiveLessThan32 | .primitiveGreaterThan32 | .primitiveLessEqThan32 | .primitiveGreaterEqThan32 => true
  | _ => false

/-- A bound on the operands a component gets, at every row. -/
def PortsBelow (N : ℕ) (w : Assignment) (blocks : List CircomBlock) (component : Component) (bound : ℕ) : Prop :=
  ∀ block ∈ blocks, ∀ port subscript rhs, CircomStmt.assign (.port component port) subscript rhs ∈ block.body →
    ∀ i < N, (rhs.eval N w i).val < bound

/-- **Every operand is in range**: those of the 32-bit comparators below `2^32`, those of the
16-bit comparators at most `2^16`. -/
structure OperandsInRange (N : ℕ) (blocks : List CircomBlock) (w : Assignment) : Prop where
  comparators : ∀ block ∈ blocks, ∀ k template, CircomStmt.instantiate (.cmp k) template ∈ block.body →
    template.ranged = true → PortsBelow N w blocks (.cmp k) (2 ^ 32)
  flags : ∀ a, PortsBelow N w blocks (.activeFlag a) (2 ^ 16 + 1)
  activeCount : (w .activeCount 0).val ≤ 2 ^ 16
  bound : ((N + 1 : ℕ) : F).val ≤ 2 ^ 16

/-- What the inputs have to satisfy for that. -/
structure WithinRange (spec : PolicyDSLSpec) (evidence : Json) : Prop where
  constants : ∀ c : ℤ, .constInt c ∈ spec.decision.rangedValues → (c : F).val < 2 ^ 32
  parameters : ∀ name, .param name ∈ spec.decision.rangedValues →
    (parameterValue spec.policyParameters (evidence.get? "policy_parameters") name : F).val < 2 ^ 32
  batch : spec.batchSize + 1 ≤ 2 ^ 16

/-! ## Field elements -/

theorem two_pow_33_lt : 2 ^ 33 < bn254 := by unfold bn254; norm_num

theorem val_nat {n : ℕ} (h : n ≤ 2 ^ 32) : (n : F).val = n := by
  have hp := two_pow_33_lt
  exact ZMod.val_natCast_of_lt (by omega)

theorem val_u32 {x : ℤ} (h : 0 ≤ x ∧ x < 2 ^ 32) : (x : F).val < 2 ^ 32 := by
  obtain ⟨m, rfl⟩ := Int.eq_ofNat_of_zero_le h.1
  have hm : m < 2 ^ 32 := by exact_mod_cast h.2
  have hv : ((m : ℤ) : F).val = m := by
    rw [Int.cast_natCast]
    exact val_nat hm.le
  omega

/-! ## Operands -/

variable {kind : AggregateKind} {inner : DecisionExpr} {names : List String} {blocks : List CircomBlock}

/-- The lines of a comparator. -/
theorem cmpLines_cases {node : CircomComparisonNode} {stmts : List CircomStmt} (h : cmpLines names node = .ok stmts) :
    ∃ left right, renderCircomValue names node.left = .ok left ∧ renderCircomValue names node.right = .ok right ∧
      stmts = [.instantiate (.cmp node.nodeId) (primitiveComparatorTemplate node.op),
        .assign (.port (.cmp node.nodeId) .lhs) .loop left, .assign (.port (.cmp node.nodeId) .rhs) .loop right] := by
  simp only [cmpLines, bind_ok, pure_ok] at h
  obtain ⟨l, hl, r, hr, rfl⟩ := h
  exact ⟨l, r, hl, hr, rfl⟩

/-- A statement of a block that is about comparator `k` is a line of a node with that id. -/
theorem comparator_line (hb : renderBlocks names kind inner = .ok blocks) {block : CircomBlock}
    (hblock : block ∈ blocks) {k : ℕ} {s : CircomStmt} (hs : s ∈ block.body)
    (hk : (∃ t, s = .instantiate (.cmp k) t) ∨ ∃ p j rhs, s = .assign (.port (.cmp k) p) j rhs) :
    ∃ node, NodeAt inner.comparisons node ∧ node.nodeId = k ∧ ∃ stmts, cmpLines names node = .ok stmts ∧ s ∈ stmts := by
  obtain ⟨agg, hagg, hr⟩ := forall₂_mem_right (mapM_ok.1 hb) hblock
  rcases mem_body hr hs with hs | ⟨node, hnode, stmts, hline, hs⟩ | rfl | hs | rfl
  · exfalso
    simp only [activeFlagLines, List.mem_cons, List.not_mem_nil, or_false] at hs
    rcases hk with ⟨t, rfl⟩ | ⟨p, j, rhs, rfl⟩ <;> simp at hs
  · refine ⟨node, buildRoot_nodeAt hagg hnode, ?_, stmts, hline, hs⟩
    obtain ⟨l, r, -, -, rfl⟩ := cmpLines_cases hline
    rcases hk with ⟨t, rfl⟩ | ⟨p, j, rhs, rfl⟩
    · simp only [List.mem_cons, CircomStmt.instantiate.injEq, Component.cmp.injEq, reduceCtorEq, List.not_mem_nil,
        or_false] at hs
      exact hs.1.symm
    · simp only [List.mem_cons, CircomStmt.assign.injEq, Signal.port.injEq, Component.cmp.injEq, reduceCtorEq,
        List.not_mem_nil, or_false, false_or] at hs
      rcases hs with hs | hs <;> exact hs.1.1.symm
  · rcases hk with ⟨t, h⟩ | ⟨p, j, rhs, h⟩ <;> cases h
  · exfalso
    simp only [zeroTailLines, List.mem_cons, List.not_mem_nil, or_false] at hs
    rcases hk with ⟨t, rfl⟩ | ⟨p, j, rhs, rfl⟩ <;> simp at hs
  · rcases hk with ⟨t, h⟩ | ⟨p, j, rhs, h⟩ <;> cases h

theorem mem_rangedValues {v : ValueRef} : v ∈ inner.rangedValues ↔
    ∃ c ∈ inner.comparisons, c.op ≠ .eq ∧ (v = c.left ∨ v = c.right) := by
  simp only [DecisionExpr.rangedValues, List.mem_flatMap, List.mem_filter, decide_eq_true_eq, List.mem_cons,
    List.not_mem_nil, or_false, and_assoc]

theorem ranged_iff (op : ComparisonOp) : (primitiveComparatorTemplate op).ranged = true ↔ op ≠ .eq := by
  cases op <;> simp [primitiveComparatorTemplate, Template.ranged]

/-- **The operands of the bounded comparators are the ranged value nodes.** Ids are unique, so
the lines of a comparator are those of one comparison. -/
theorem comparators_iff (hb : renderBlocks names kind inner = .ok blocks) {N : ℕ} {w : Assignment} :
    (∀ block ∈ blocks, ∀ k template, CircomStmt.instantiate (.cmp k) template ∈ block.body →
      template.ranged = true → PortsBelow N w blocks (.cmp k) (2 ^ 32)) ↔
    ∀ v ∈ inner.rangedValues, ∀ ce, renderCircomValue names v = .ok ce → ∀ i < N, (ce.eval N w i).val < 2 ^ 32 := by
  constructor
  · intro h v hv ce hce i hi
    obtain ⟨c, hc, hop, hside⟩ := mem_rangedValues.1 hv
    obtain ⟨agg, hagg, node, hnode, hn1, hn2, hn3⟩ := @buildRoot_comparison kind inner c hc
    obtain ⟨block, hblock, hr⟩ := forall₂_mem_left (mapM_ok.1 hb) hagg
    obtain ⟨cmp, hcmp, -, -, hbody⟩ := block_body hr
    obtain ⟨stmts, hstmts, hline⟩ := forall₂_mem_left hcmp hnode
    obtain ⟨l, r, hl, hr', rfl⟩ := cmpLines_cases hline
    have hmem : ∀ s ∈ _, s ∈ block.body := fun s (hs : s ∈ [_, _, _]) => by
      rw [hbody]
      simp only [List.mem_append, List.mem_flatten]
      exact Or.inl (Or.inl (Or.inl (Or.inr ⟨_, hstmts, hs⟩)))
    have hports := h block hblock node.nodeId _ (hmem _ (List.mem_cons_self ..))
      ((ranged_iff _).2 (hn1 ▸ hop))
    rcases hside with rfl | rfl
    · rw [hn2, hce] at hl
      obtain rfl := Except.ok.inj hl
      exact hports block hblock .lhs .loop _ (hmem _ (by simp)) i hi
    · rw [hn3, hce] at hr'
      obtain rfl := Except.ok.inj hr'
      exact hports block hblock .rhs .loop _ (hmem _ (by simp)) i hi
  · intro h block hblock k template hinst hranged block' hblock' port sub rhs hassign i hi
    obtain ⟨node, hat, hid, stmts, hline, hs⟩ := comparator_line hb hblock hinst (Or.inl ⟨template, rfl⟩)
    obtain ⟨node', hat', hid', stmts', hline', hs'⟩ :=
      comparator_line hb hblock' hassign (Or.inr ⟨port, sub, rhs, rfl⟩)
    -- both stand for the comparison at position `k`
    have heq : (⟨node.op, node.left, node.right⟩ : ComparisonExpr) = ⟨node'.op, node'.left, node'.right⟩ := by
      unfold NodeAt at hat hat'
      rw [hid] at hat
      rw [hid', hat] at hat'
      exact Option.some.inj hat'
    obtain ⟨l, r, -, -, rfl⟩ := cmpLines_cases hline
    obtain ⟨l', r', hl', hr', rfl⟩ := cmpLines_cases hline'
    have hop : node'.op ≠ .eq := by
      simp only [List.mem_cons, CircomStmt.instantiate.injEq, reduceCtorEq, List.not_mem_nil, or_false] at hs
      rw [hs.2, ranged_iff] at hranged
      have := congrArg ComparisonExpr.op heq
      dsimp only at this
      rwa [← this]
    have hmem := List.mem_of_getElem? hat'
    simp only [List.mem_cons, CircomStmt.assign.injEq, reduceCtorEq, List.not_mem_nil, or_false, false_or] at hs'
    rcases hs' with ⟨-, -, rfl⟩ | ⟨-, -, rfl⟩
    · exact h node'.left (mem_rangedValues.2 ⟨_, hmem, hop, Or.inl rfl⟩) _ hl' i hi
    · exact h node'.right (mem_rangedValues.2 ⟨_, hmem, hop, Or.inr rfl⟩) _ hr' i hi

/-- The operands of a rendered circuit render. -/
theorem ranged_renders (hb : renderBlocks names kind inner = .ok blocks) {v : ValueRef} (hv : v ∈ inner.rangedValues) :
    ∃ ce, renderCircomValue names v = .ok ce := by
  obtain ⟨c, hc, -, hside⟩ := mem_rangedValues.1 hv
  obtain ⟨agg, hagg, node, hnode, -, hn2, hn3⟩ := @buildRoot_comparison kind inner c hc
  obtain ⟨block, -, hr⟩ := forall₂_mem_left (mapM_ok.1 hb) hagg
  obtain ⟨cmp, hcmp, -⟩ := block_body hr
  obtain ⟨stmts, -, hline⟩ := forall₂_mem_left hcmp hnode
  obtain ⟨l, r, hl, hr', -⟩ := cmpLines_cases hline
  rcases hside with rfl | rfl
  · exact ⟨l, hn2 ▸ hl⟩
  · exact ⟨r, hn3 ▸ hr'⟩

/-! ## Activity flags -/

/-- What a line hands to an activity flag is the active count or the row. -/
theorem flag_line (hb : renderBlocks names kind inner = .ok blocks) {block : CircomBlock} (hblock : block ∈ blocks)
    {a : ℕ} {port : Port} {sub : Subscript} {rhs : CircomExpr}
    (hs : CircomStmt.assign (.port (.activeFlag a) port) sub rhs ∈ block.body) :
    rhs = .signal .activeCount .none ∨ rhs = .loopVar := by
  obtain ⟨agg, hagg, hr⟩ := forall₂_mem_right (mapM_ok.1 hb) hblock
  rcases mem_body hr hs with hs | ⟨node, hnode, stmts, hline, hs⟩ | h | hs | h
  · simp only [activeFlagLines, List.mem_cons, CircomStmt.assign.injEq, reduceCtorEq, List.not_mem_nil, or_false,
      false_or, false_and] at hs
    rcases hs with ⟨-, -, h⟩ | ⟨-, -, h⟩
    · exact Or.inl h
    · exact Or.inr h
  · obtain ⟨l, r, -, -, rfl⟩ := cmpLines_cases hline
    simp at hs
  · cases h
  · simp [zeroTailLines] at hs
  · cases h

theorem flags_of_index (hb : renderBlocks names kind inner = .ok blocks) {N : ℕ} {w : Assignment}
    (hac : (w .activeCount 0).val ≤ 2 ^ 16) (hi : ∀ i < N, (i : F).val ≤ 2 ^ 16) (a : ℕ) :
    PortsBelow N w blocks (.activeFlag a) (2 ^ 16 + 1) := by
  intro block hblock port sub rhs hs i hiN
  rcases flag_line hb hblock hs with rfl | rfl
  · exact Nat.lt_succ_of_le hac
  · exact Nat.lt_succ_of_le (hi i hiN)

/-- The root's flags get every row. -/
theorem index_of_flags (hb : renderBlocks names kind inner = .ok blocks) {N : ℕ} {w : Assignment}
    (h : ∀ a, PortsBelow N w blocks (.activeFlag a) (2 ^ 16 + 1)) : ∀ i < N, (i : F).val ≤ 2 ^ 16 := by
  intro i hi
  obtain ⟨agg, hagg, -⟩ := quantifier_aggregate (.aggregate kind inner) 0 .init (kind, inner) (by
    simp [DecisionExpr.quantifiers])
  obtain ⟨block, hblock, hr⟩ := forall₂_mem_left (mapM_ok.1 hb) hagg
  obtain ⟨cmp, -, -, -, hbody⟩ := block_body hr
  have hmem : CircomStmt.assign (.port (.activeFlag agg.aggregateId) .index) .loop .loopVar ∈ block.body := by
    rw [hbody]
    simp [activeFlagLines]
  exact Nat.le_of_lt_succ (h _ block hblock .index .loop .loopVar hmem i hi)

/-! ## The inputs -/

/-- The value of a declared parameter in normalized evidence. -/
theorem normalized_param {parameters : Dict PolicyParameterSpec} {payload : Option Json} {n : NormalizedEvidence}
    (h : resolvePolicyParameters parameters payload = .ok n.policyParameters) {name : String}
    (hname : name ∈ parameters.keys) : n.batch.params name = parameterValue parameters payload name := by
  have hmap := resolvePolicyParameters_value h
  simp only [NormalizedEvidence.batch, hmap, Dict.lookup_map_self hname, Option.getD_some]

/-- A batch size whose bound and rows the 16-bit comparators can take. -/
theorem batch_range {N : ℕ} (hi : ∀ i < N, (i : F).val ≤ 2 ^ 16) (hb : ((N + 1 : ℕ) : F).val ≤ 2 ^ 16) :
    N + 1 ≤ 2 ^ 16 := by
  have hN : N ≤ 2 ^ 16 + 1 := by
    by_contra hlt
    have h := hi (2 ^ 16 + 1) (by omega)
    rw [val_nat (by norm_num)] at h
    omega
  rw [val_nat (by omega)] at hb
  exact hb

/-- A value node of a validated decision that the circuit renders. -/
theorem rendered_accepted {policyId : String} {ctx : Bool} {v : ValueRef}
    (hv : validateValue policyId ctx names v = .ok ()) {ce : CircomExpr} (hr : renderCircomValue names v = .ok ce) :
    v.Accepted names := by
  apply accepted_of_known hv
  rintro s rfl
  simp only [renderCircomValue] at hr
  split_ifs at hr with h1 h2 h3 h4
  · exact Or.inl h1
  · exact Or.inr (Or.inl h2)
  · exact Or.inr (Or.inr (Or.inl h3))
  · exact Or.inr (Or.inr (Or.inr h4))

/-- **When every operand is in range.** For every supported spec whose circuit is rendered and
every evidence its generated policy normalizes: all operands of the comparators are in range
exactly when the constants and the parameters that reach a 32-bit comparator are, modulo the
field, below `2^32` and the batch size is below `2^16`. -/
theorem operands_in_range_iff {spec : PolicyDSLSpec} {py : PyBool} {evidence : Json} {n : NormalizedEvidence}
    (hs : ensureSupportedDecision spec = .ok (kind, inner))
    (hb : renderBlocks spec.policyParameters.keys kind inner = .ok blocks)
    (hn : (⟨spec.batchSize, spec.policyParameters, py⟩ : GeneratedReferencePolicy).normalize evidence = .ok n) :
    (∀ w, n.batch.Inputs spec.batchSize spec.policyParameters.keys w → OperandsInRange spec.batchSize blocks w) ↔
      WithinRange spec evidence := by
  obtain ⟨⟨size, hsize, hprep⟩, hparams⟩ := GeneratedReferencePolicy.normalize_prepared hn
  obtain ⟨hdec, hval⟩ := ensureSupportedDecision_ok hs
  have hranged : spec.decision.rangedValues = inner.rangedValues := by rw [hdec]; rfl
  have hacc : ∀ v ∈ inner.rangedValues, ∀ ce, renderCircomValue spec.policyParameters.keys v = .ok ce →
      v.Accepted spec.policyParameters.keys := by
    intro v hv ce hce
    obtain ⟨c, hc, -, hside⟩ := mem_rangedValues.1 hv
    have hmem : v ∈ inner.values := by
      rw [values_eq]
      exact List.mem_flatMap.2 ⟨c, hc, by rcases hside with rfl | rfl <;> simp⟩
    obtain ⟨ctx, hctx⟩ := validate_values inner true hval v hmem
    exact rendered_accepted hctx hce
  constructor
  · intro h
    have hw := h (honest n.batch spec.batchSize spec.policyParameters.keys [] []) honest_inputs
    have hops := (comparators_iff hb).1 hw.comparators
    have hvalue : ∀ v ∈ inner.rangedValues, ∀ ce, renderCircomValue spec.policyParameters.keys v = .ok ce →
        ((n.batch.valueAt 0 v : ℤ) : F).val < 2 ^ 32 := by
      intro v hv ce hce
      have hlt := hops v hv ce hce 0 spec.batchPos
      rwa [renderCircomValue_eval honest_inputs spec.batchPos hce] at hlt
    refine ⟨?_, ?_, batch_range (index_of_flags hb hw.flags) hw.bound⟩
    · intro c hc
      rw [hranged] at hc
      exact hvalue (.constInt c) hc _ rfl
    · intro name hname
      rw [hranged] at hname
      obtain ⟨ce, hce⟩ := ranged_renders hb hname
      have hkey := hacc _ hname ce hce
      have hlt := hvalue (.param name) hname ce hce
      rwa [Batch.valueAt, normalized_param hparams hkey] at hlt
  · intro h w hin
    have hN := h.batch
    have hactive : n.batch.activeCount ≤ 2 ^ 16 := by
      have hle := hprep.activeLe
      have hmax : maxBatchSize = 250 := rfl
      dsimp only at hsize
      simp only [NormalizedEvidence.batch]
      omega
    have hac : (w .activeCount 0).val ≤ 2 ^ 16 := by
      rw [hin.activeCount, val_nat (by omega)]
      exact hactive
    have hidx : ∀ i < spec.batchSize, (i : F).val ≤ 2 ^ 16 := by
      intro i hi
      rw [val_nat (by omega)]
      omega
    refine ⟨(comparators_iff hb).2 ?_, flags_of_index hb hac hidx, hac, ?_⟩
    · intro v hv ce hce i hi
      rw [renderCircomValue_eval hin hi hce]
      have ha := hacc v hv ce hce
      cases v with
      | constInt c => exact h.constants c (hranged ▸ hv)
      | param p =>
        rw [Batch.valueAt, normalized_param hparams ha]
        exact h.parameters p (hranged ▸ hv)
      | ref s =>
        rcases ha with rfl | rfl | rfl
        · exact val_u32 (getD_u32 hprep.balancesU32 i)
        · exact val_u32 (getD_u32 hprep.limitsU32 i)
        · have hlt : (n.batch.activeCount : ℤ) < 2 ^ 32 := by exact_mod_cast hactive.trans_lt (by norm_num)
          exact val_u32 ⟨Int.natCast_nonneg _, hlt⟩
    · rw [val_nat (by omega)]
      exact hN

/-! ## A constant in range, and one out of range -/

/-- One row of evidence. -/
def oneRowEvidence : Json := .obj [("balances", .arr [.int 5]), ("limits", .arr [.int 0])]

/-- The policy of one row generated from `any(balances > c)`. -/
def rowPolicy (c : ℤ) : GeneratedReferencePolicy :=
  ⟨1, .empty, .aggregate .any (.compare .gt (.balances 0) (.int c)) 0⟩

/-- The operands of `balances > 100` are in range. -/
theorem operands_in_range_constant : ∃ blocks n,
    renderBlocks [] .any balanceAbove = .ok blocks ∧
    (rowPolicy 100).normalize oneRowEvidence = .ok n ∧
    ∀ w, n.batch.Inputs 1 [] w → OperandsInRange 1 blocks w := by
  obtain ⟨blocks, hb⟩ := isOk_iff.1 (show (renderBlocks [] .any balanceAbove).isOk = true by decide +kernel)
  obtain ⟨n, hn⟩ := isOk_iff.1 (show ((rowPolicy 100).normalize oneRowEvidence).isOk = true by decide +kernel)
  refine ⟨blocks, n, hb, hn, ?_⟩
  have hsupported : ensureSupportedDecision (rowSpec balanceAbove (by decide)) = .ok (.any, balanceAbove) :=
    rowSpec_supported (by decide +kernel)
  refine (operands_in_range_iff hsupported hb hn).2 ⟨?_, ?_, by decide⟩
  · intro c hc
    have hmem : ValueRef.constInt c ∈ [ValueRef.ref "balances", ValueRef.constInt 100] := hc
    simp only [List.mem_cons, reduceCtorEq, ValueRef.constInt.injEq, List.not_mem_nil, or_false, false_or] at hmem
    subst hmem
    exact val_u32 ⟨by norm_num, by norm_num⟩
  · intro name hname
    have hmem : ValueRef.param name ∈ [ValueRef.ref "balances", ValueRef.constInt 100] := hname
    simp at hmem

/-- `balances > 2^32`. -/
def balanceAboveRange : DecisionExpr := .comparison ⟨.gt, .ref "balances", .constInt (2 ^ 32)⟩

/-- **A constant beyond the comparator.** The spec is supported and its policy normalizes the
evidence, and the comparator gets `2^32`. -/
theorem constant_out_of_range :
    ensureSupportedDecision (rowSpec balanceAboveRange (by decide)) = .ok (.any, balanceAboveRange) ∧
    ∃ blocks n, renderBlocks [] .any balanceAboveRange = .ok blocks ∧
      (rowPolicy (2 ^ 32)).normalize
        oneRowEvidence = .ok n ∧
      ∃ w, n.batch.Inputs 1 [] w ∧ ¬ OperandsInRange 1 blocks w := by
  obtain ⟨blocks, hb⟩ := isOk_iff.1 (show (renderBlocks [] .any balanceAboveRange).isOk = true by decide +kernel)
  obtain ⟨n, hn⟩ := isOk_iff.1 (show ((rowPolicy (2 ^ 32)).normalize oneRowEvidence).isOk = true by decide +kernel)
  refine ⟨rowSpec_supported (by decide +kernel), blocks, n, hb, hn, honest n.batch 1 [] [] [], honest_inputs, ?_⟩
  intro h
  have hlt := (comparators_iff hb).1 h.comparators (.constInt (2 ^ 32)) (by decide) _ rfl 0 Nat.one_pos
  have hval : (((2 ^ 32 : ℤ)) : F).val = 2 ^ 32 := by
    have := val_nat (n := 2 ^ 32) le_rfl
    exact_mod_cast this
  simp only [CircomExpr.eval] at hlt
  omega

end Vellum
