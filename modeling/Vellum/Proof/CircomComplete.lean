import Vellum.Proof.CircomMeaning

/-!
# The generated constraints are satisfiable

Every zero-padded batch has a satisfying assignment. The builder numbers comparisons and
quantifiers in the order in which it meets them, so the honest assignment reads what a
comparator or an aggregate stands for off two lists: the comparisons and the quantifiers
of the decision in that order.

* `honest`: the assignment the witness generator computes.
* `renderBooleanExpr_tables`: ids are positions in the two lists, by induction on the
  decision; counters advance by the lengths.
* `honest_block`: the honest assignment satisfies every emitted block.
-/

namespace Vellum

open Circomlib

/-! ## The order in which the builder meets nodes -/

namespace DecisionExpr

mutual

/-- The quantifiers of an expression, each before those inside it. -/
def quantifiers : DecisionExpr → List (AggregateKind × DecisionExpr)
  | comparison _ => []
  | and args => quantifiersArgs args
  | or args => quantifiersArgs args
  | not inner => inner.quantifiers
  | aggregate kind inner => (kind, inner) :: inner.quantifiers

def quantifiersArgs : List DecisionExpr → List (AggregateKind × DecisionExpr)
  | [] => []
  | e :: es => e.quantifiers ++ quantifiersArgs es

end

end DecisionExpr

/-- `l` stands in `table` from position `n` on. -/
def StandsAt {α : Type} (l table : List α) (n : ℕ) : Prop := l <+: table.drop n

section StandsAt

variable {α : Type} {l l₁ l₂ table : List α} {n : ℕ}

theorem StandsAt.left (h : StandsAt (l₁ ++ l₂) table n) : StandsAt l₁ table n :=
  (List.prefix_append l₁ l₂).trans h

theorem StandsAt.right (h : StandsAt (l₁ ++ l₂) table n) : StandsAt l₂ table (n + l₁.length) := by
  obtain ⟨t, ht⟩ := h
  refine ⟨t, ?_⟩
  rw [← List.drop_drop, ← ht, List.append_assoc, List.drop_left]

theorem StandsAt.head {a : α} (h : StandsAt (a :: l) table n) : table[n]? = some a := by
  obtain ⟨t, ht⟩ := h
  have : (table.drop n)[0]? = some a := by rw [← ht]; rfl
  simpa [List.getElem?_drop] using this

theorem StandsAt.tail {a : α} (h : StandsAt (a :: l) table n) : StandsAt l table (n + 1) :=
  @StandsAt.right _ [a] _ _ _ h

end StandsAt

/-! ## The honest assignment -/

/-- What an aggregate quantifies over: its kind and each row's contribution. -/
def rowsOf (B : Batch) (qs : List (AggregateKind × DecisionExpr)) (a : ℕ) : AggregateKind × (ℕ → Bool) :=
  match qs[a]? with
  | some (kind, e) => (kind, fun i => contribution kind (decide (i < B.activeCount)) (e.holdsAt B i))
  | none => (.all, fun _ => true)

/-- The comparison a comparator makes in a row. -/
def comparatorPort (B : Batch) (i : ℕ) (c : Option ComparisonExpr) : Port → F
  | .lhs => ((c.elim 0 fun c => B.valueAt i c.left : ℤ) : F)
  | .rhs => ((c.elim 0 fun c => B.valueAt i c.right : ℤ) : F)
  | _ => bit (c.elim true fun c => c.op.holds (B.valueAt i c.left) (B.valueAt i c.right))

/-- The assignment an honest prover computes from the batch. -/
def honest (B : Batch) (N : ℕ) (names : List String) (cs : List ComparisonExpr)
    (qs : List (AggregateKind × DecisionExpr)) : Assignment
  | .limits, i => ((B.limits.getD i 0 : ℤ) : F)
  | .balances, i => ((B.balances.getD i 0 : ℤ) : F)
  | .activeCount, _ => (B.activeCount : F)
  | .policyParams, j => ((names[j]?.elim 0 B.params : ℤ) : F)
  | .isActive _, i => bit (decide (i < B.activeCount))
  | .decisionValid a, i => bit ((rowsOf B qs a).2 i)
  | .chain a, i => bit (aggregateOf (rowsOf B qs a).1 i (rowsOf B qs a).2)
  | .value a, _ => bit (aggregateOf (rowsOf B qs a).1 N (rowsOf B qs a).2)
  | .port (.cmp k) p, i => comparatorPort B i cs[k]? p
  | .port (.activeFlag _) .activeCount, _ => (B.activeCount : F)
  | .port (.activeFlag _) .index, i => (i : F)
  | .port (.activeFlag _) _, i => bit (decide (i < B.activeCount))
  | .port .rootBalancePadding .value, i => ((B.balances.getD i 0 : ℤ) : F)
  | .port .rootLimitPadding .value, i => ((B.limits.getD i 0 : ℤ) : F)
  | .port _ .isActive, i => bit (decide (i < B.activeCount))
  | .port _ _, _ => 1

variable {B : Batch} {N : ℕ} {names : List String} {cs : List ComparisonExpr}
  {qs : List (AggregateKind × DecisionExpr)}

theorem honest_inputs : B.Inputs N names (honest B N names cs qs) where
  activeCount := rfl
  balances := fun _ _ => rfl
  limits := fun _ _ => rfl
  params := by intro j n hj; simp only [honest, hj]; rfl

theorem honest_value {a : ℕ} {kind : AggregateKind} {e : DecisionExpr} (hac : B.activeCount ≤ N)
    (ha : qs[a]? = some (kind, e)) (i : ℕ) :
    honest B N names cs qs (.value a) i = bit ((DecisionExpr.aggregate kind e).holdsAt B 0) := by
  simp only [honest, rowsOf, ha]
  rw [aggregateOf_contribution hac, holdsAt_aggregate]

/-! ## Ids are positions -/

/-- A comparator stands for the comparison at its id. -/
def NodeAt (cs : List ComparisonExpr) (node : CircomComparisonNode) : Prop :=
  cs[node.nodeId]? = some ⟨node.op, node.left, node.right⟩

/-- An aggregate stands for the quantifier at its id, its row expression for the inner
expression, and its comparators for theirs. -/
def AggAt (B : Batch) (N : ℕ) (names : List String) (cs : List ComparisonExpr)
    (qs : List (AggregateKind × DecisionExpr)) (agg : CircomAggregateNode) : Prop :=
  (∀ node ∈ agg.comparisonNodes, NodeAt cs node) ∧
    ∃ e, qs[agg.aggregateId]? = some (agg.kind, e) ∧
      ∀ i < N, agg.expression.eval N (honest B N names cs qs) i = bit (e.holdsAt B i)

/-- Everything a builder holds stands for what the lists have at its id. -/
structure BuilderAt (B : Batch) (N : ℕ) (names : List String) (cs : List ComparisonExpr)
    (qs : List (AggregateKind × DecisionExpr)) (b : Builder) : Prop where
  aggregates : ∀ agg ∈ b.aggregates, AggAt B N names cs qs agg
  comparisons : ∀ a, ∀ node ∈ b.comparisonsByAggregate a, NodeAt cs node

theorem builderAt_init : BuilderAt B N names cs qs .init :=
  ⟨by simp [Builder.init], by simp [Builder.init]⟩

/-- Rendering `e` from a builder whose counters are where `e`'s nodes stand. -/
def Tables (B : Batch) (N : ℕ) (names : List String) (cs : List ComparisonExpr)
    (qs : List (AggregateKind × DecisionExpr)) (e : DecisionExpr) : Prop :=
  ∀ (a : ℕ) (b : Builder), BuilderAt B N names cs qs b → StandsAt e.comparisons cs b.nextComparisonId →
    StandsAt e.quantifiers qs b.nextAggregateId →
    BuilderAt B N names cs qs (renderBooleanExpr a e b).2 ∧
    (renderBooleanExpr a e b).2.nextComparisonId = b.nextComparisonId + e.comparisons.length ∧
    (renderBooleanExpr a e b).2.nextAggregateId = b.nextAggregateId + e.quantifiers.length ∧
    ∀ i < N, (renderBooleanExpr a e b).1.eval N (honest B N names cs qs) i = bit (e.holdsAt B i)

theorem renderBooleanArgs_tables {l : List DecisionExpr} (hl : ∀ e ∈ l, Tables B N names cs qs e) :
    ∀ (a : ℕ) (b : Builder), BuilderAt B N names cs qs b →
      StandsAt (DecisionExpr.comparisonsArgs l) cs b.nextComparisonId →
      StandsAt (DecisionExpr.quantifiersArgs l) qs b.nextAggregateId →
      BuilderAt B N names cs qs (renderBooleanArgs a l b).2 ∧
      (renderBooleanArgs a l b).2.nextComparisonId =
        b.nextComparisonId + (DecisionExpr.comparisonsArgs l).length ∧
      (renderBooleanArgs a l b).2.nextAggregateId =
        b.nextAggregateId + (DecisionExpr.quantifiersArgs l).length ∧
      ∀ i < N, PartsMean B N (honest B N names cs qs) i (renderBooleanArgs a l b).1 l := by
  induction l with
  | nil => intro a b hb _ _; exact ⟨hb, rfl, rfl, fun i _ => .nil⟩
  | cons e es ih =>
    intro a b hb hc hq
    rw [DecisionExpr.comparisonsArgs] at hc
    rw [DecisionExpr.quantifiersArgs] at hq
    obtain ⟨hb1, hn1, hm1, he1⟩ := hl e (by simp) a b hb hc.left hq.left
    obtain ⟨hb2, hn2, hm2, he2⟩ := ih (fun x hx => hl x (by simp [hx])) a (renderBooleanExpr a e b).2 hb1
      (by rw [hn1]; exact hc.right) (by rw [hm1]; exact hq.right)
    refine ⟨hb2, ?_, ?_, fun i hi => .cons (he1 i hi) (he2 i hi)⟩
    · rw [DecisionExpr.comparisonsArgs, List.length_append]
      exact hn2.trans (by rw [hn1]; omega)
    · rw [DecisionExpr.quantifiersArgs, List.length_append]
      exact hm2.trans (by rw [hm1]; omega)

/-- **Ids are positions.** -/
theorem renderBooleanExpr_tables (hac : B.activeCount ≤ N) (e : DecisionExpr) : Tables B N names cs qs e := by
  induction e with
  | comparison c =>
    intro a b hb hc _
    have hhead : cs[b.nextComparisonId]? = some c := StandsAt.head hc
    refine ⟨⟨hb.aggregates, ?_⟩, rfl, rfl, fun i _ => ?_⟩
    · intro x node hn
      simp only [renderBooleanExpr, Builder.addComparison] at hn
      split at hn
      · rcases List.mem_append.1 hn with hn | hn
        · exact hb.comparisons x node hn
        · rw [List.mem_singleton.1 hn]
          exact hhead
      · exact hb.comparisons x node hn
    · simp only [renderBooleanExpr, CircomExpr.eval, Subscript.cell, honest, comparatorPort, hhead]
      rfl
  | and args ih =>
    intro a b hb hc hq
    obtain ⟨h1, h2, h3, h4⟩ := renderBooleanArgs_tables ih a b hb hc hq
    exact ⟨h1, h2, h3, fun i hi => conjunction_eval (h4 i hi)⟩
  | or args ih =>
    intro a b hb hc hq
    obtain ⟨h1, h2, h3, h4⟩ := renderBooleanArgs_tables ih a b hb hc hq
    exact ⟨h1, h2, h3, fun i hi => disjunction_eval (h4 i hi)⟩
  | not inner ih =>
    intro a b hb hc hq
    obtain ⟨h1, h2, h3, h4⟩ := ih a b hb hc hq
    refine ⟨h1, h2, h3, fun i hi => ?_⟩
    simp only [renderBooleanExpr, CircomExpr.eval, Int.cast_one, h4 i hi, DecisionExpr.holdsAt, bit_not]
  | aggregate kind inner ih =>
    intro a b hb hc hq
    -- the quantifier stands at the id the builder hands out before it goes inside
    have hhead : qs[b.nextAggregateId]? = some (kind, inner) := StandsAt.head hq
    obtain ⟨h1, h2, h3, h4⟩ := ih b.nextAggregateId b.openAggregate ⟨hb.aggregates, hb.comparisons⟩ hc
      (StandsAt.tail hq)
    refine ⟨⟨?_, h1.comparisons⟩, h2, ?_, fun i _ => ?_⟩
    · intro agg hagg
      rcases List.mem_append.1 hagg with hagg | hagg
      · exact h1.aggregates agg hagg
      · rw [List.mem_singleton.1 hagg]
        exact ⟨h1.comparisons _, inner, hhead, h4⟩
    · refine h3.trans ?_
      simp only [Builder.openAggregate, DecisionExpr.quantifiers, List.length_cons]
      omega
    · simp only [renderBooleanExpr, CircomExpr.eval, honest_value hac hhead, holdsAt_aggregate]

/-! ## The blocks hold -/

/-- The lines of a comparator hold of the honest assignment. -/
theorem honest_node {node : CircomComparisonNode} (h : NodeAt cs node)
    (hv : ValuesBelow (2 ^ 32) B N [node.left, node.right])
    {stmts : List CircomStmt} (hs : cmpLines names node = .ok stmts) {i : ℕ} (hi : i < N) :
    ∀ s ∈ stmts, s.Holds N (honest B N names cs qs) i := by
  simp only [cmpLines, bind_ok, pure_ok] at hs
  obtain ⟨l, hl, r, hr, rfl⟩ := hs
  have hport : ∀ p, honest B N names cs qs (.port (.cmp node.nodeId) p) i =
      comparatorPort B i (some ⟨node.op, node.left, node.right⟩) p := by
    intro p
    simp only [honest]
    rw [show cs[node.nodeId]? = _ from h]
  simp only [List.forall_mem_cons, CircomStmt.Holds, Subscript.cell, List.not_mem_nil, false_imp_iff,
    implies_true, and_true, renderCircomValue_eval honest_inputs hi hl,
    renderCircomValue_eval honest_inputs hi hr, hport]
  refine ⟨?_, rfl, rfl⟩
  exact (comparator_iff (by simpa using hv _ (by simp) i hi) (by simpa using hv _ (by simp) i hi) rfl rfl).2 rfl

theorem honest_activeFlag (a : ℕ) (hac : B.activeCount ≤ 2 ^ 16) {i : ℕ} (hi : i < 2 ^ 16) :
    ∀ s ∈ activeFlagLines a, s.Holds N (honest B N names cs qs) i := by
  simp only [activeFlagLines, List.forall_mem_cons, CircomStmt.Holds, Subscript.cell, CircomExpr.eval,
    Template.Holds, honest, List.not_mem_nil, false_imp_iff, implies_true, and_true]
  exact ⟨flag_complete hac (by omega), trivial, trivial, rfl⟩

theorem honest_zeroTail (a : ℕ) (hb : ∀ i, B.activeCount ≤ i → B.balances.getD i 0 = 0)
    (hl : ∀ i, B.activeCount ≤ i → B.limits.getD i 0 = 0) (i : ℕ) :
    ∀ s ∈ zeroTailLines a, s.Holds N (honest B N names cs qs) i := by
  have hpad : ∀ {x : ℤ}, (B.activeCount ≤ i → x = 0) →
      ZeroPaddingInvariant (x : F) (bit (decide (i < B.activeCount))) 1 := by
    intro x hx
    refine ⟨bit_mul_sub _, ?_, rfl⟩
    by_cases h : i < B.activeCount
    · simp [h]
    · simp [hx (by omega)]
  simp only [zeroTailLines, List.forall_mem_cons, CircomStmt.Holds, Subscript.cell, CircomExpr.eval,
    Template.Holds, honest, List.not_mem_nil, false_imp_iff, implies_true, and_true, true_and]
  exact ⟨hpad (hb i), rfl, hpad (hl i), rfl⟩

/-- **The honest assignment satisfies a block** whose aggregate stands at its id. -/
theorem honest_block {agg : CircomAggregateNode} (hagg : AggAt B N names cs qs agg)
    (hp : B.Padded N names) (hN : N ≤ 2 ^ 16)
    (hv : ∀ node ∈ agg.comparisonNodes, ValuesBelow (2 ^ 32) B N [node.left, node.right]) {zeroTail : Bool}
    {block : CircomBlock} (h : renderCircomAggregateBlock agg zeroTail names = .ok block) :
    block.Holds N (honest B N names cs qs) := by
  obtain ⟨hnodes, e, ha, he⟩ := hagg
  obtain ⟨cmp, hcmp, hhead, htail, hbody⟩ := block_body h
  have hrows : rowsOf B qs agg.aggregateId = (agg.kind, fun i =>
      contribution agg.kind (decide (i < B.activeCount)) (e.holdsAt B i)) := by
    simp only [rowsOf, ha]
  refine ⟨?_, ?_, ?_⟩
  · rw [hhead, CircomStmt.Holds, chainInit_eval]
    simp only [honest, hrows, Subscript.cell]
    exact (chainStart_bit _ _).symm
  · intro i hi s hs
    rw [hbody] at hs
    simp only [List.mem_append, List.mem_singleton] at hs
    rcases hs with (((hs | hs) | rfl) | hs) | rfl
    · exact honest_activeFlag _ (by have := hp.activeLe; omega) (by omega) s hs
    · obtain ⟨stmts, hst, hs⟩ := List.mem_flatten.1 hs
      obtain ⟨node, hn, hline⟩ := forall₂_mem_right hcmp hst
      exact honest_node (hnodes node hn) (hv node hn) hline hi s hs
    · rw [CircomStmt.Holds, decisionAssignment_eval rfl (he i hi)]
      simp only [honest, hrows, Subscript.cell]
    · cases zeroTail with
      | false => simp at hs
      | true => exact honest_zeroTail _ hp.balancesZero hp.limitsZero i s hs
    · rw [CircomStmt.Holds, chainUpdate_eval]
      simp only [honest, hrows, Subscript.cell]
      exact (chainNext_bit agg.kind i _).symm
  · rw [htail]
    simp only [CircomStmt.Holds, CircomExpr.eval, honest, Subscript.cell]

end Vellum
