import Vellum.Proof.Circuits
import Vellum.Proof.Layout
import Vellum.Proof.LendingRisk
import Vellum.Proof.Outputs
import Vellum.Spec.Circuits
import Mathlib.Data.Set.Function

/-!
# No signal is free

A signal that the constraints leave open is a signal the prover chooses. Here none is: the inputs of
a generated circuit fix every cell that a statement assigns or a component drives, over the whole
field and without a range on any input.

* `Template.output_unique`: a component drives its output from its inputs, on operands of any size.
* `block_determined`: a block fixes its cells once the aggregates it reads are fixed.
* `generated_determined`: the generated template.
* `shipped_determined`: the templates under `circuits/`.
-/

namespace Vellum

open Circomlib

/-! ## Statements -/

/-- The port that a template drives. -/
def Template.output : Template → Port
  | .activeIndexFlag16 => .isActive
  | .zeroPaddingInvariant => .valid
  | .primitiveLessThan32 | .primitiveGreaterThan32 | .primitiveLessEqThan32 | .primitiveGreaterEqThan32
  | .primitiveEqual => .out

/-- The ports that decide it. -/
def Template.inputs : Template → List Port
  | .activeIndexFlag16 => [.activeCount, .index]
  | .zeroPaddingInvariant => []
  | .primitiveLessThan32 | .primitiveGreaterThan32 | .primitiveLessEqThan32 | .primitiveGreaterEqThan32
  | .primitiveEqual => [.lhs, .rhs]

/-- The cell that a statement gives its value, at loop index `i`. -/
def CircomStmt.cell (N i : ℕ) : CircomStmt → Signal × ℕ
  | .assign s j _ => (s, j.cell N i)
  | .instantiate c t => (.port c t.output, i)

/-- The cells of a block. -/
def CircomBlock.cells (N : ℕ) (b : CircomBlock) : Set (Signal × ℕ) :=
  {c | c = b.head.cell N 0 ∨ (∃ i < N, ∃ s ∈ b.body, c = s.cell N i) ∨ c = b.tail.cell N 0}

/-- The cells that a template assigns: those of its blocks, of the parameter hash and of the outputs. -/
def PolicyDSLSpec.assignedCells (spec : PolicyDSLSpec) : Set Cell :=
  {c | c = .boundsActiveCount ∨
    (spec.policyParameters.keys ≠ [] ∧ ((∃ p < spec.policyParameters.keys.length, c = .hasherInput p) ∨
      c = .hasherOut ∨ c = .computedPolicyParamsHash)) ∨
    (∃ o ∈ spec.outputs.items, c = .output o.1) ∨
    ∃ kind inner blocks, spec.decision = .aggregate kind inner ∧
      renderBlocks spec.policyParameters.keys kind inner = .ok blocks ∧
      ∃ b ∈ blocks, ∃ s ∈ b.cells spec.batchSize, c = .signal s.1 s.2}

variable {N i : ℕ} {w w' : Assignment} {names : List String}

/-- **A component drives its output from its inputs.** -/
theorem Template.output_unique {t : Template} {port port' : Port → F} (h : t.Holds port) (h' : t.Holds port')
    (hin : ∀ p ∈ t.inputs, port p = port' p) : port t.output = port' t.output := by
  cases t with
  | activeIndexFlag16 =>
    have hcount : port .activeCount = port' .activeCount := hin _ (by decide)
    have hindex : port .index = port' .index := hin _ (by decide)
    have hflag := h'.1
    rw [← hcount, ← hindex] at hflag
    exact lessThan_unique two_pow_17_le h.1 hflag
  | zeroPaddingInvariant => exact h.2.2.trans h'.2.2.symm
  | primitiveEqual =>
    have hl : port .lhs = port' .lhs := hin _ (by decide)
    have hr : port .rhs = port' .rhs := hin _ (by decide)
    refine isEqual_unique h ?_
    rw [hl, hr]
    exact h'
  | primitiveLessThan32 | primitiveGreaterThan32 | primitiveLessEqThan32 | primitiveGreaterEqThan32 =>
    have hl : port .lhs = port' .lhs := hin _ (by decide)
    have hr : port .rhs = port' .rhs := hin _ (by decide)
    refine lessThan_unique two_pow_33_le h ?_
    rw [hl, hr]
    exact h'

/-- Both assignments have one value in a cell. -/
def Same (w w' : Assignment) (c : Signal × ℕ) : Prop := w c.1 c.2 = w' c.1 c.2

/-- An expression has one value where the cells it reads have one. -/
theorem CircomExpr.eval_same {e : CircomExpr} (h : ∀ s ∈ e.signals, Same w w' (s.1, s.2.cell N i)) :
    e.eval N w i = e.eval N w' i := by
  induction e with
  | signal s j => exact h (s, j) (List.mem_singleton.2 rfl)
  | int c => rfl
  | loopVar => rfl
  | add a b iha ihb | sub a b iha ihb | mul a b iha ihb =>
    have ha := iha fun s hs => h s (List.mem_append_left _ hs)
    have hb := ihb fun s hs => h s (List.mem_append_right _ hs)
    simp only [CircomExpr.eval, ha, hb]
  | paren a ih => exact ih h

/-- An assignment passes on what its right-hand side has. -/
theorem assign_same {s : Signal} {j : Subscript} {rhs : CircomExpr} (h : (CircomStmt.assign s j rhs).Holds N w i)
    (h' : (CircomStmt.assign s j rhs).Holds N w' i) (hin : ∀ t ∈ rhs.signals, Same w w' (t.1, t.2.cell N i)) :
    Same w w' (s, j.cell N i) :=
  h.trans ((CircomExpr.eval_same hin).trans h'.symm)

/-- A component passes on what its inputs have. -/
theorem instantiate_same {c : Component} {t : Template} (h : (CircomStmt.instantiate c t).Holds N w i)
    (h' : (CircomStmt.instantiate c t).Holds N w' i) (hin : ∀ p ∈ t.inputs, Same w w' (.port c p, i)) :
    Same w w' (.port c t.output, i) := by
  have houtput := @Template.output_unique t (fun p => w (.port c p) i) (fun p => w' (.port c p) i) h h' hin
  exact houtput

/-! ## Blocks -/

/-- The assignments give the inputs of a template of size `N` the same values. -/
structure SameInputs (N parameters : ℕ) (w w' : Assignment) : Prop where
  activeCount : Same w w' (.activeCount, 0)
  limits : ∀ i < N, Same w w' (.limits, i)
  balances : ∀ i < N, Same w w' (.balances, i)
  policyParams : ∀ p < parameters, Same w w' (.policyParams, p)

/-- The value of a reference is among the inputs. -/
theorem value_same {v : ValueRef} {e : CircomExpr} (h : renderCircomValue names v = .ok e)
    (hin : SameInputs N names.length w w') (hi : i < N) : ∀ s ∈ e.signals, Same w w' (s.1, s.2.cell N i) := by
  have hparam : ∀ {name e}, renderCircomParam names name = .ok e →
      ∀ s ∈ e.signals, Same w w' (s.1, s.2.cell N i) := by
    intro name e h s hs
    unfold renderCircomParam at h
    split at h
    · next j hj =>
      obtain rfl := Except.ok.inj h
      rw [List.mem_singleton.1 hs]
      obtain ⟨hlt, -⟩ := List.idxOf?_eq_some_iff.1 hj
      exact hin.policyParams j hlt
    · cases h
  intro s hs
  cases v with
  | constInt c =>
    obtain rfl := Except.ok.inj h
    cases hs
  | param name => exact hparam h s hs
  | ref name =>
    rw [renderCircomValue] at h
    split_ifs at h
    · obtain rfl := Except.ok.inj h
      rw [List.mem_singleton.1 hs]
      exact hin.balances i hi
    · obtain rfl := Except.ok.inj h
      rw [List.mem_singleton.1 hs]
      exact hin.limits i hi
    · obtain rfl := Except.ok.inj h
      rw [List.mem_singleton.1 hs]
      exact hin.activeCount
    · exact hparam h s hs

/-- The activity flag of a row. -/
theorem activeFlag_same {a : ℕ} (h : ∀ s ∈ activeFlagLines a, s.Holds N w i) (h' : ∀ s ∈ activeFlagLines a, s.Holds N w' i)
    (hcount : Same w w' (.activeCount, 0)) : ∀ s ∈ activeFlagLines a, Same w w' (s.cell N i) := by
  unfold activeFlagLines at h h' ⊢
  simp only [List.forall_mem_cons, List.not_mem_nil, false_implies, implies_true, and_true] at h h' ⊢
  obtain ⟨hinst, hact, hidx, hflag⟩ := h
  obtain ⟨hinst', hact', hidx', hflag'⟩ := h'
  have hports : Same w w' (.port (.activeFlag a) .activeCount, i) ∧ Same w w' (.port (.activeFlag a) .index, i) := by
    refine ⟨assign_same hact hact' ?_, assign_same hidx hidx' ?_⟩
    · simpa [CircomExpr.signals, Subscript.cell] using hcount
    · simp [CircomExpr.signals]
  have hout : Same w w' (.port (.activeFlag a) .isActive, i) :=
    instantiate_same hinst hinst' (by simpa [Template.inputs] using hports)
  refine ⟨hout, hports.1, hports.2, assign_same hflag hflag' ?_⟩
  simpa [CircomExpr.signals, Subscript.cell] using hout

/-- A comparator, from its operands. -/
theorem comparator_same {node : CircomComparisonNode} {stmts : List CircomStmt} (hline : cmpLines names node = .ok stmts)
    (h : ∀ s ∈ stmts, s.Holds N w i) (h' : ∀ s ∈ stmts, s.Holds N w' i) (hin : SameInputs N names.length w w')
    (hi : i < N) : Same w w' (.port (.cmp node.nodeId) .out, i) ∧ ∀ s ∈ stmts, Same w w' (s.cell N i) := by
  simp only [cmpLines, bind_ok, pure_ok] at hline
  obtain ⟨left, hleft, right, hright, rfl⟩ := hline
  simp only [List.forall_mem_cons, List.not_mem_nil, false_implies, implies_true, and_true] at h h' ⊢
  obtain ⟨hinst, hl, hr⟩ := h
  obtain ⟨hinst', hl', hr'⟩ := h'
  have hlhs : Same w w' (.port (.cmp node.nodeId) .lhs, i) := assign_same hl hl' (value_same hleft hin hi)
  have hrhs : Same w w' (.port (.cmp node.nodeId) .rhs, i) := assign_same hr hr' (value_same hright hin hi)
  have hout : Same w w' (.port (.cmp node.nodeId) (primitiveComparatorTemplate node.op).output, i) := by
    refine instantiate_same hinst hinst' ?_
    cases node.op <;> simpa [primitiveComparatorTemplate, Template.inputs] using ⟨hlhs, hrhs⟩
  have hport : (primitiveComparatorTemplate node.op).output = .out := by cases node.op <;> rfl
  exact ⟨hport ▸ hout, hout, hlhs, hrhs⟩

/-- The lines that keep the inactive rows zero. -/
theorem zeroTail_same {a : ℕ} (h : ∀ s ∈ zeroTailLines a, s.Holds N w i) (h' : ∀ s ∈ zeroTailLines a, s.Holds N w' i)
    (hbalance : Same w w' (.balances, i)) (hlimit : Same w w' (.limits, i)) (hflag : Same w w' (.isActive a, i)) :
    ∀ s ∈ zeroTailLines a, Same w w' (s.cell N i) := by
  unfold zeroTailLines at h h' ⊢
  simp only [List.forall_mem_cons, List.not_mem_nil, false_implies, implies_true, and_true] at h h' ⊢
  obtain ⟨hb, hbv, hba, hl, hlv, hla⟩ := h
  obtain ⟨hb', hbv', hba', hl', hlv', hla'⟩ := h'
  refine ⟨instantiate_same hb hb' (by simp [Template.inputs]), assign_same hbv hbv' ?_, assign_same hba hba' ?_,
    instantiate_same hl hl' (by simp [Template.inputs]), assign_same hlv hlv' ?_, assign_same hla hla' ?_⟩
  · simpa [CircomExpr.signals, Subscript.cell] using hbalance
  · simpa [CircomExpr.signals, Subscript.cell] using hflag
  · simpa [CircomExpr.signals, Subscript.cell] using hlimit
  · simpa [CircomExpr.signals, Subscript.cell] using hflag

section

variable {agg : CircomAggregateNode} {zeroTail : Bool} {block : CircomBlock} {ids : List ℕ}

/-- The comparators of a row. -/
theorem row_comparators (hr : renderCircomAggregateBlock agg zeroTail names = .ok block) (h : block.Holds N w)
    (h' : block.Holds N w') (hin : SameInputs N names.length w w') (hi : i < N) :
    ∀ node ∈ agg.comparisonNodes, ∀ stmts, cmpLines names node = .ok stmts →
      Same w w' (.port (.cmp node.nodeId) .out, i) ∧ ∀ s ∈ stmts, Same w w' (s.cell N i) := by
  obtain ⟨cmp, hcmp, -, -, hbody⟩ := block_body hr
  intro node hnode stmts hline
  obtain ⟨stmts', hstmts, hline'⟩ := forall₂_mem_left hcmp hnode
  obtain rfl : stmts = stmts' := Except.ok.inj (hline.symm.trans hline')
  have hsub : ∀ s ∈ stmts, s ∈ block.body := by
    intro s hs
    have hflat : s ∈ cmp.flatten := List.mem_flatten.2 ⟨_, hstmts, hs⟩
    rw [hbody]
    simp [hflat]
  exact comparator_same hline (fun s hs => h.body i hi s (hsub s hs)) (fun s hs => h'.body i hi s (hsub s hs)) hin hi

/-- What a row contributes, if the aggregates that the expression reads are fixed. -/
theorem row_decision (hr : renderCircomAggregateBlock agg zeroTail names = .ok block)
    (hscoped : ∀ s ∈ agg.expression.signals, Scoped agg.comparisonNodes ids s) (h : block.Holds N w)
    (h' : block.Holds N w') (hin : SameInputs N names.length w w') (hids : ∀ j ∈ ids, Same w w' (.value j, 0))
    (hi : i < N) (hflag : Same w w' (.isActive agg.aggregateId, i)) :
    Same w w' (.decisionValid agg.aggregateId, i) := by
  obtain ⟨cmp, hcmp, -, -, hbody⟩ := block_body hr
  have hexpr : ∀ s ∈ agg.expression.signals, Same w w' (s.1, s.2.cell N i) := by
    intro s hs
    rcases hscoped s hs with ⟨node, hnode, rfl⟩ | ⟨j, hj, rfl⟩
    · obtain ⟨stmts, -, hline⟩ := forall₂_mem_left hcmp hnode
      exact (row_comparators hr h h' hin hi node hnode stmts hline).1
    · exact hids j hj
  have hline : CircomStmt.assign (.decisionValid agg.aggregateId) .loop
      (decisionAssignment agg.aggregateId agg.expression agg.kind) ∈ block.body := by
    rw [hbody]
    simp
  refine assign_same (h.body i hi _ hline) (h'.body i hi _ hline) fun t ht => ?_
  have hcases : t ∈ agg.expression.signals ∨ t = (.isActive agg.aggregateId, .loop) := by
    cases hkind : agg.kind <;> simp [hkind, decisionAssignment, CircomExpr.signals] at ht <;> tauto
  rcases hcases with ht | rfl
  · exact hexpr t ht
  · exact hflag

/-- **The chain is fixed**, by induction from the first row on. -/
theorem chain_same (hr : renderCircomAggregateBlock agg zeroTail names = .ok block) (h : block.Holds N w)
    (h' : block.Holds N w') (hdecision : ∀ i < N, Same w w' (.decisionValid agg.aggregateId, i)) :
    ∀ i ≤ N, Same w w' (.chain agg.aggregateId, i) := by
  obtain ⟨cmp, -, hhead, -, hbody⟩ := block_body hr
  have hupdate : CircomStmt.assign (.chain agg.aggregateId) .loopSucc (chainUpdate agg.aggregateId agg.kind) ∈
      block.body := by
    rw [hbody]
    simp
  intro i
  induction i with
  | zero =>
    intro _
    have hw := h.head
    have hw' := h'.head
    rw [hhead] at hw hw'
    refine assign_same hw hw' fun t ht => ?_
    cases hkind : agg.kind <;> simp [hkind, chainInit, CircomExpr.signals] at ht
  | succ i ih =>
    intro hi
    have hprevious := ih (by omega)
    refine assign_same (h.body i (by omega) _ hupdate) (h'.body i (by omega) _ hupdate) fun t ht => ?_
    have hcases : t = (.chain agg.aggregateId, .loop) ∨ t = (.decisionValid agg.aggregateId, .loop) := by
      cases hkind : agg.kind <;> simp [hkind, chainUpdate, CircomExpr.signals] at ht <;> tauto
    rcases hcases with rfl | rfl
    · exact hprevious
    · exact hdecision i (by omega)

/-- **A block fixes its cells** if its inputs have one value, and the aggregates that its expression
reads. -/
theorem block_determined (hr : renderCircomAggregateBlock agg zeroTail names = .ok block)
    (hscoped : ∀ s ∈ agg.expression.signals, Scoped agg.comparisonNodes ids s) (h : block.Holds N w)
    (h' : block.Holds N w') (hin : SameInputs N names.length w w') (hids : ∀ j ∈ ids, Same w w' (.value j, 0)) :
    ∀ c ∈ block.cells N, Same w w' c := by
  obtain ⟨cmp, hcmp, hhead, htail, hbody⟩ := block_body hr
  have hflags : ∀ i < N, ∀ s ∈ activeFlagLines agg.aggregateId, Same w w' (s.cell N i) := by
    intro i hi
    have hsub : ∀ s ∈ activeFlagLines agg.aggregateId, s ∈ block.body := by
      intro s hs
      rw [hbody]
      simp [hs]
    exact activeFlag_same (fun s hs => h.body i hi s (hsub s hs)) (fun s hs => h'.body i hi s (hsub s hs)) hin.activeCount
  have hflag : ∀ i < N, Same w w' (.isActive agg.aggregateId, i) := by
    intro i hi
    exact hflags i hi (.assign (.isActive agg.aggregateId) .loop
      (.signal (.port (.activeFlag agg.aggregateId) .isActive) .loop)) (by simp [activeFlagLines])
  have hdecision : ∀ i < N, Same w w' (.decisionValid agg.aggregateId, i) := fun i hi =>
    row_decision hr hscoped h h' hin hids hi (hflag i hi)
  have hchain := chain_same hr h h' hdecision
  rintro c (rfl | ⟨i, hi, s, hs, rfl⟩ | rfl)
  · rw [hhead]
    exact hchain 0 (by omega)
  · have hrow := hs
    rw [hbody] at hrow
    simp only [List.mem_append, List.mem_flatten, List.mem_singleton] at hrow
    rcases hrow with (((hs' | ⟨stmts, hstmts, hs'⟩) | rfl) | hs') | rfl
    · exact hflags i hi s hs'
    · obtain ⟨node, hnode, hline⟩ := forall₂_mem_right hcmp hstmts
      exact (row_comparators hr h h' hin hi node hnode stmts hline).2 s hs'
    · exact hdecision i hi
    · -- these lines are in the block of the root only
      cases zeroTail with
      | false => simp at hs'
      | true =>
        have hsub : ∀ s ∈ zeroTailLines agg.aggregateId, s ∈ block.body := by
          intro s hs
          rw [hbody]
          simp [hs]
        exact zeroTail_same (fun s hs => h.body i hi s (hsub s hs)) (fun s hs => h'.body i hi s (hsub s hs))
          (hin.balances i hi) (hin.limits i hi) (hflag i hi) s hs'
    · exact hchain (i + 1) (by omega)
  · have hw := h.tail
    have hw' := h'.tail
    rw [htail] at hw hw' ⊢
    refine assign_same hw hw' fun t ht => ?_
    rw [List.mem_singleton.1 ht]
    exact hchain N le_rfl

end

/-- The value of an aggregate is the last cell of its block. -/
theorem value_of_cells {agg : CircomAggregateNode} {zeroTail : Bool} {block : CircomBlock}
    (hr : renderCircomAggregateBlock agg zeroTail names = .ok block) (h : ∀ c ∈ block.cells N, Same w w' c) :
    Same w w' (.value agg.aggregateId, 0) := by
  obtain ⟨_, _, _, htail, _⟩ := block_body hr
  refine h _ (.inr (.inr ?_))
  rw [htail]
  rfl

/-- **The blocks of a list that reads only what stands before** fix all of their cells. -/
theorem blocks_determined {rootId : ℕ} {aggs : List CircomAggregateNode} {blocks : List CircomBlock}
    (hr : List.Forall₂ (fun agg block =>
      renderCircomAggregateBlock agg (decide (agg.aggregateId = rootId)) names = .ok block) aggs blocks)
    {ids : List ℕ} (hscoped : ScopedFrom ids aggs) (h : ∀ b ∈ blocks, b.Holds N w) (h' : ∀ b ∈ blocks, b.Holds N w')
    (hin : SameInputs N names.length w w') (hids : ∀ j ∈ ids, Same w w' (.value j, 0)) :
    ∀ b ∈ blocks, ∀ c ∈ b.cells N, Same w w' c := by
  induction hr generalizing ids with
  | nil =>
    intro b hb
    cases hb
  | @cons agg block aggs blocks hblock _ ih =>
    obtain ⟨hexpr, hrest⟩ := hscoped
    rw [List.forall_mem_cons] at h h' ⊢
    have hcells := block_determined hblock hexpr h.1 h'.1 hin hids
    refine ⟨hcells, ih hrest h.2 h'.2 fun j hj => ?_⟩
    rcases List.mem_append.1 hj with hj | hj
    · exact hids j hj
    · rw [List.mem_singleton.1 hj]
      exact value_of_cells hblock hcells

/-! ## The template -/

variable {poseidon : List F → F} {spec : PolicyDSLSpec} {u u' : Cell → F}

/-- Two equal lists over a range have equal items. -/
theorem range_map_inj {α : Type} {n : ℕ} {f g : ℕ → α} (h : (List.range n).map f = (List.range n).map g) :
    ∀ i < n, f i = g i := fun i hi => List.map_inj_left.1 h i (List.mem_range.2 hi)

/-- The public inputs and the balances are all inputs. -/
theorem sameInputs_of_public (hpublic : publicInputs spec u = publicInputs spec u')
    (hprivate : ∀ i < spec.batchSize, u (.signal .balances i) = u' (.signal .balances i)) :
    SameInputs spec.batchSize spec.policyParameters.keys.length (blockCells u) (blockCells u') := by
  unfold publicInputs at hpublic
  obtain ⟨hfirst, hparams⟩ := List.append_inj hpublic (by simp)
  obtain ⟨hlimits, hcount⟩ := List.append_inj hfirst (by simp)
  refine ⟨List.singleton_inj.1 hcount, range_map_inj hlimits, hprivate, ?_⟩
  intro p hp
  have hsome : spec.policyParameters.keys ≠ [] := by
    intro hnil
    rw [hnil] at hp
    exact absurd hp (Nat.not_lt_zero p)
  rw [if_neg hsome, if_neg hsome] at hparams
  exact range_map_inj (List.append_inj hparams (by simp)).1 p hp

/-- The cells of the parameter hash. -/
theorem parameters_determined {n : ℕ} (h : ParametersHold poseidon n u) (h' : ParametersHold poseidon n u')
    (hparams : ∀ p < n, u (.signal .policyParams p) = u' (.signal .policyParams p)) :
    (∀ p < n, u (.hasherInput p) = u' (.hasherInput p)) ∧ u .hasherOut = u' .hasherOut ∧
      u .computedPolicyParamsHash = u' .computedPolicyParamsHash := by
  have hinputs : ∀ p < n, u (.hasherInput p) = u' (.hasherInput p) := fun p hp =>
    (h.inputs p hp).trans ((hparams p hp).trans (h'.inputs p hp).symm)
  have hout : u .hasherOut = u' .hasherOut := by
    rw [h.hasher, h'.hasher]
    congr 1
    exact List.map_congr_left fun p hp => hinputs p (List.mem_range.1 hp)
  exact ⟨hinputs, hout, h.computed.trans (hout.trans h'.computed.symm)⟩

/-- **No signal of a generated circuit is free.** Two assignments that satisfy its constraints, with
the same public inputs and the same balances, agree on every cell that the template assigns: on the
flags, comparators and chains of all aggregates, on the parameter hash and on the outputs. -/
theorem generated_determined (h : GeneratedTemplate poseidon spec u) (h' : GeneratedTemplate poseidon spec u')
    (hpublic : publicInputs spec u = publicInputs spec u')
    (hprivate : ∀ i < spec.batchSize, u (.signal .balances i) = u' (.signal .balances i)) :
    ∀ c ∈ spec.assignedCells, u c = u' c := by
  obtain ⟨kind, inner, blocks, hdecision, hblocks, ht⟩ := h
  obtain ⟨kind', inner', blocks', hdecision', hblocks', ht'⟩ := h'
  obtain ⟨rfl, rfl⟩ : kind = kind' ∧ inner = inner' := by simpa [hdecision] using hdecision'
  obtain rfl : blocks = blocks' := Except.ok.inj (hblocks.symm.trans hblocks')
  have hin := sameInputs_of_public hpublic hprivate
  have hcells := blocks_determined (mapM_ok.1 hblocks) (buildRoot_scoped kind inner) ht.generated.blocks
    ht'.generated.blocks hin nofun
  have hparameters : spec.policyParameters.keys ≠ [] → _ := fun hne =>
    parameters_determined (ht.parameters hne) (ht'.parameters hne) hin.policyParams
  have hroot : u (.signal (.value (buildRoot kind inner).1) 0) = u' (.signal (.value (buildRoot kind inner).1) 0) := by
    -- the root's block is the last one
    have hmem : (⟨0, kind, inner.rowExpr 1 0, inner.ownNodes 0⟩ : CircomAggregateNode) ∈ (buildRoot kind inner).2 := by
      rw [buildRoot_layout]
      simp
    obtain ⟨block, hblock, hr⟩ := forall₂_mem_left (mapM_ok.1 hblocks) hmem
    have hvalue := value_of_cells hr (hcells block hblock)
    rw [buildRoot_layout]
    exact hvalue
  rintro c (rfl | ⟨hne, hc⟩ | ⟨o, ho, rfl⟩ | ⟨kind', inner', blocks', hdecision', hblocks', b, hb, s, hs, rfl⟩)
  · exact ht.bounds.trans (hin.activeCount.trans ht'.bounds.symm)
  · obtain ⟨hinputs, hout, hcomputed⟩ := hparameters hne
    rcases hc with ⟨p, hp, rfl⟩ | rfl | rfl
    · exact hinputs p hp
    · exact hout
    · exact hcomputed
  · refine (ht.outputs o ho).trans (Eq.trans ?_ (ht'.outputs o ho).symm)
    unfold outputLine Wire.read
    cases o.2.expr with
    | decision => exact hroot
    | activeCount => exact hin.activeCount
    | policyParamsHash =>
      by_cases hne : spec.policyParameters.keys ≠ []
      · simpa [outputWire, hne, Wire.cell?] using (hparameters hne).2.2
      · simp [outputWire, hne, Wire.cell?]
  · obtain ⟨rfl, rfl⟩ : kind = kind' ∧ inner = inner' := by simpa [hdecision] using hdecision'
    obtain rfl : blocks = blocks' := Except.ok.inj (hblocks.symm.trans hblocks')
    exact hcells b hb s hs

/-- Two rows, the parameter at 3. -/
def nestedBatch : Batch := ⟨2, [5, 7], [0, 9], fun _ => 3⟩

theorem nestedBatch_padded : nestedBatch.Padded 2 ["threshold"] where
  lenBalances := rfl
  lenLimits := rfl
  activePos := by decide
  activeLe := le_rfl
  balancesU32 := by decide
  limitsU32 := by decide
  balancesZero := by
    intro i hi
    have hlen : nestedBatch.balances.length ≤ i := hi
    rw [List.getD_eq_getElem?_getD, List.getElem?_eq_none hlen, Option.getD_none]
  limitsZero := by
    intro i hi
    have hlen : nestedBatch.limits.length ≤ i := hi
    rw [List.getD_eq_getElem?_getD, List.getElem?_eq_none hlen, Option.getD_none]
  paramsU32 := by decide

/-- The circuit of two rows and a parameter can be solved on them. -/
theorem nested_template : ∃ w, nestedBatch.Inputs 2 ["threshold"] (blockCells w) ∧
    GeneratedTemplate List.sum nestedSpec w := by
  obtain ⟨art, hgen⟩ := isOk_iff.1 (show (generatePolicyArtifacts id nestedSpec).isOk = true by decide +kernel)
  obtain ⟨kind, inner, py, blocks, h⟩ := generatePolicyArtifacts_ok hgen
  obtain rfl : nestedInner = inner := (DecisionExpr.aggregate.inj h.decision).2
  have hc : ConstantsBelow (2 ^ 32) nestedInner := by
    intro c hc
    have hmem : ValueRef.constInt c ∈ [ValueRef.ref "balances", .param "threshold", .ref "limits", .constInt 50,
      .ref "balances", .ref "limits"] := hc
    obtain rfl : c = 50 := by simpa using hmem
    norm_num
  obtain ⟨v, hin, hv⟩ := generated_satisfiable h hc (by decide) nestedBatch_padded
  exact ⟨extendCells List.sum nestedSpec (buildRoot kind nestedInner).1 v, hin, kind, nestedInner, blocks, h.decision,
    h.circom, template_satisfiable List.sum hv⟩

/-- A solution and another that differs from it in a cell of an output that is not declared agree on
all cells of the template. -/
theorem generated_determined_oneRow : ∃ w w' : Cell → F, w ≠ w' ∧ GeneratedTemplate List.sum nestedSpec w ∧
    GeneratedTemplate List.sum nestedSpec w' ∧ ∀ c ∈ nestedSpec.assignedCells, w c = w' c := by
  obtain ⟨w, -, hw⟩ := nested_template
  set w' := Function.update w (.output "unused") (w (.output "unused") + 1) with hdef
  have hother : ∀ c, c ≠ .output "unused" → w' c = w c := fun c hc => Function.update_of_ne hc _ _
  have hsignal : ∀ s i, w' (.signal s i) = w (.signal s i) := fun s i => hother _ (by simp)
  have hw' : GeneratedTemplate List.sum nestedSpec w' := by
    obtain ⟨kind, inner, blocks, hdecision, hblocks, ht⟩ := hw
    have hcells : blockCells w' = blockCells w := by
      funext s i
      exact hsignal s i
    refine ⟨kind, inner, blocks, hdecision, hblocks, ?_, ?_, ?_, ?_⟩
    · exact (hother .boundsActiveCount (by simp)).trans (Eq.trans ht.bounds (hsignal .activeCount 0).symm)
    · rw [hcells]
      exact ht.generated
    · intro hne
      have hp := ht.parameters hne
      refine ⟨fun p hle => ?_, ?_, ?_, ?_⟩
      · exact (hother (.hasherInput p) (by simp)).trans ((hp.inputs p hle).trans (hsignal .policyParams p).symm)
      · have hinputs : (fun p => w' (.hasherInput p)) = fun p => w (.hasherInput p) :=
          funext fun p => hother (.hasherInput p) (by simp)
        rw [hother .hasherOut (by simp), hinputs]
        exact hp.hasher
      · exact (hother .computedPolicyParamsHash (by simp)).trans (hp.computed.trans (hother .hasherOut (by simp)).symm)
      · exact (hother .computedPolicyParamsHash (by simp)).trans
          (hp.expected.trans (hother .expectedPolicyParamsHash (by simp)).symm)
    · intro o ho
      have hline := ht.outputs o ho
      obtain rfl : o = ("all_valid", ⟨.decision, .bool, 0⟩) := List.mem_singleton.1 ho
      exact (hother (.output "all_valid") (by simp)).trans (Eq.trans hline (hsignal (.value _) 0).symm)
  refine ⟨w, w', ?_, hw, hw', ?_⟩
  · intro heq
    have hcell : w (.output "unused") = w (.output "unused") + 1 := (congrFun heq _).trans (Function.update_self _ _ _)
    exact one_ne_zero (left_eq_add.1 hcell)
  · refine generated_determined hw hw' ?_ fun i _ => (hsignal .balances i).symm
    unfold publicInputs
    simp only [hsignal]
    rw [hother .expectedPolicyParamsHash (by simp)]

/-! ## The templates under `circuits/` -/

/-- The batch circuit, row by row and then along its chain. -/
theorem batchCredit_determined {s s' : BatchCreditSignals} (h : BatchCreditCheck N s) (h' : BatchCreditCheck N s')
    (hcount : s.activeCount = s'.activeCount) (hrows : ∀ i < N, s.limits i = s'.limits i ∧ s.balances i = s'.balances i) :
    (∀ i < N, s.isActive i = s'.isActive i ∧ s.decisionValid i = s'.decisionValid i) ∧
    (∀ i ≤ N, s.allValidChain i = s'.allValidChain i) ∧ s.allValid = s'.allValid ∧
      s.activeCountOut = s'.activeCountOut := by
  have hrow : ∀ i < N, s.isActive i = s'.isActive i ∧ s.decisionValid i = s'.decisionValid i := by
    intro i hi
    obtain ⟨hlimit, hbalance⟩ := hrows i hi
    have hcmp := h'.activityCmp i hi
    rw [← hcount] at hcmp
    have hactive : s.isActive i = s'.isActive i := lessThan_unique two_pow_17_le (h.activityCmp i hi) hcmp
    obtain ⟨out, hgt, hvalid⟩ := h.balanceGtLimit i hi
    obtain ⟨out', hgt', hvalid'⟩ := h'.balanceGtLimit i hi
    rw [← hlimit, ← hbalance] at hgt'
    obtain rfl : out = out' := lessThan_unique two_pow_33_le hgt hgt'
    exact ⟨hactive, by rw [hvalid, hvalid', hactive]⟩
  have hchain : ∀ i ≤ N, s.allValidChain i = s'.allValidChain i := by
    intro i
    induction i with
    | zero => exact fun _ => h.chainInit.trans h'.chainInit.symm
    | succ i ih =>
      intro hi
      rw [h.chainStep i (by omega), h'.chainStep i (by omega), ih (by omega), (hrow i (by omega)).2]
  refine ⟨hrow, hchain, ?_, ?_⟩
  · rw [h.allValid, h'.allValid, hchain N le_rfl]
  · rw [h.activeCountOut, h'.activeCountOut, hcount]

/-- **No signal of the hand-written circuits is free**: on all field elements that satisfy the
constraints, the inputs fix the outputs and what stands between. -/
theorem shipped_determined :
    Set.InjOn (fun s : ZkKycSignals => (s.age, s.countryCode, s.minAge, s.allowedCountryCode)) {s | ZkKycV1 s} ∧
    Set.InjOn (fun s : ProofOfReservesSignals => (s.liabilities, s.assets)) {s | ProofOfReservesV1 s} ∧
    Set.InjOn (fun s : DTISignals => (s.monthlyIncome, s.monthlyDebtPayment, s.maxDtiBps)) {s | DTICheck s} ∧
    Set.InjOn (fun s : ReserveRatioSignals => (s.liquidAssets, s.shortTermLiabilities, s.minReserveRatioBps))
      {s | ReserveRatioCheck s} ∧
    Set.InjOn (fun s : CreditSignals => (s.creditScore, s.debtRatio)) {s | CreditCheck s} ∧
    Set.InjOn (fun s : AMLSignals => (s.amount, s.riskWeight)) {s | AMLCheck s} ∧
    ∀ N s s', BatchCreditCheck N s → BatchCreditCheck N s' → s.activeCount = s'.activeCount →
      (∀ i < N, s.limits i = s'.limits i ∧ s.balances i = s'.balances i) →
      (∀ i < N, s.isActive i = s'.isActive i ∧ s.decisionValid i = s'.decisionValid i) ∧
      (∀ i ≤ N, s.allValidChain i = s'.allValidChain i) ∧ s.allValid = s'.allValid ∧
      s.activeCountOut = s'.activeCountOut := by
  have h32 := two_pow_33_le
  have h64 : 2 ^ (64 + 1) ≤ bn254 := by unfold bn254; norm_num
  refine ⟨?_, ?_, ?_, ?_, ?_, ?_, ?_⟩
  · rintro ⟨age, country, minAge, allowed, out⟩ h ⟨age', country', minAge', allowed', out'⟩ h' heq
    obtain ⟨rfl, rfl, rfl, rfl⟩ : age = age' ∧ country = country' ∧ minAge = minAge' ∧ allowed = allowed' := by
      simpa using heq
    obtain ⟨cmp, eq, hcmp, heq, hout⟩ := h.kycOk
    obtain ⟨cmp', eq', hcmp', heq', hout'⟩ := h'.kycOk
    obtain rfl := lessThan_unique h32 hcmp hcmp'
    obtain rfl := isEqual_unique heq heq'
    obtain rfl : out = out' := hout.trans hout'.symm
    rfl
  · rintro ⟨liabilities, assets, out⟩ h ⟨liabilities', assets', out'⟩ h' heq
    obtain ⟨rfl, rfl⟩ : liabilities = liabilities' ∧ assets = assets' := by simpa using heq
    obtain rfl : out = out' := lessThan_unique h64 h.solvencyOk h'.solvencyOk
    rfl
  · rintro ⟨income, debt, bps, out, scaled, limit⟩ h ⟨income', debt', bps', out', scaled', limit'⟩ h' heq
    obtain ⟨rfl, rfl, rfl⟩ : income = income' ∧ debt = debt' ∧ bps = bps' := by simpa using heq
    obtain rfl : scaled = scaled' := h.scaledDebt.trans h'.scaledDebt.symm
    obtain rfl : limit = limit' := h.scaledIncomeLimit.trans h'.scaledIncomeLimit.symm
    obtain rfl : out = out' := lessThan_unique h64 h.dtiCmp h'.dtiCmp
    rfl
  · rintro ⟨assets, debts, bps, out, scaled, required⟩ h ⟨assets', debts', bps', out', scaled', required'⟩ h' heq
    obtain ⟨rfl, rfl, rfl⟩ : assets = assets' ∧ debts = debts' ∧ bps = bps' := by simpa using heq
    obtain rfl : scaled = scaled' := h.scaledAssets.trans h'.scaledAssets.symm
    obtain rfl : required = required' := h.scaledRequired.trans h'.scaledRequired.symm
    obtain rfl : out = out' := lessThan_unique h64 h.reserveCmp h'.reserveCmp
    rfl
  · rintro ⟨score, ratio, out⟩ h ⟨score', ratio', out'⟩ h' heq
    obtain ⟨rfl, rfl⟩ : score = score' ∧ ratio = ratio' := by simpa using heq
    obtain rfl : out = out' := h.riskScore.trans h'.riskScore.symm
    rfl
  · rintro ⟨amount, weight, out⟩ h ⟨amount', weight', out'⟩ h' heq
    obtain ⟨rfl, rfl⟩ : amount = amount' ∧ weight = weight' := by simpa using heq
    obtain rfl : out = out' := h.amlScore.trans h'.amlScore.symm
    rfl
  · exact fun N s s' h h' hcount hrows => batchCredit_determined h h' hcount hrows

/-- Every template has solutions; those of the batch circuit on two rows and padding say that all are
valid. -/
theorem shipped_determined_solved :
    (∃ s, ZkKycV1 s ∧ s.kycOk = 1) ∧ (∃ s, ProofOfReservesV1 s ∧ s.solvencyOk = 1) ∧
    (∃ s, DTICheck s ∧ s.dtiOk = 1) ∧ (∃ s, ReserveRatioCheck s ∧ s.reserveOk = 1) ∧ (∃ s, CreditCheck s) ∧
    (∃ s, AMLCheck s) ∧ BatchCreditCheck 3 twoValidRows ∧
    ∀ s, BatchCreditCheck 3 s → s.activeCount = 2 → (∀ i < 3, s.limits i = twoValidRows.limits i ∧
      s.balances i = twoValidRows.balances i) → s.allValid = 1 := by
  refine ⟨⟨⟨(30 : ℕ), (276 : ℕ), (18 : ℕ), (276 : ℕ), 1⟩, ?_, rfl⟩, ⟨⟨(3 : ℕ), (5 : ℕ), 1⟩, ?_, rfl⟩,
    ⟨⟨(3000 : ℕ), (1000 : ℕ), (5000 : ℕ), 1, (1000 : ℕ) * (10000 : ℕ), (3000 : ℕ) * (5000 : ℕ)⟩, ?_, rfl⟩,
    ⟨⟨(2000 : ℕ), (1000 : ℕ), (10000 : ℕ), 1, (2000 : ℕ) * (10000 : ℕ), (1000 : ℕ) * (10000 : ℕ)⟩, ?_, rfl⟩,
    ⟨⟨(700 : ℕ), (250000 : ℕ), (700 : ℕ) * (1000 : ℕ) - (250000 : ℕ)⟩, ?_⟩,
    ⟨⟨(1000 : ℕ), (25 : ℕ), (1000 : ℕ) * (25 : ℕ)⟩, ?_⟩, twoValidRows_holds, ?_⟩
  · rw [zkKyc_iff]
    simp (disch := norm_num) only [val_natCast]
    norm_num
  · rw [proofOfReserves_iff]
    simp (disch := norm_num) only [val_natCast]
    norm_num
  · rw [dti_iff]
    simp (disch := norm_num) only [val_natCast]
    norm_num
  · rw [reserveRatio_iff]
    simp (disch := norm_num) only [val_natCast]
    norm_num
  · rw [credit_iff]
    simp (disch := norm_num) only [val_natCast]
    norm_num
  · rw [aml_iff]
    simp (disch := norm_num) only [val_natCast]
    norm_num
  · intro s hs hcount hrows
    exact (shipped_determined.2.2.2.2.2.2 3 s twoValidRows hs twoValidRows_holds hcount hrows).2.2.1

end Vellum
