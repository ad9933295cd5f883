import Vellum.Proof.CircomComplete

/-!
# What the expression builder collects

The builder appends an aggregate for every quantifier and a comparator for every comparison
of a decision, and nothing else.

* `mem_aggregates`, `quantifier_aggregate`: the aggregates are those of the quantifiers.
* `buildRoot_nodeAt`, `buildRoot_comparison`: the comparators are those of the comparisons.
* `mem_body`: the statements in the loop of an aggregate's block.
-/

namespace Vellum

/-- The statements of a block's loop. -/
theorem mem_body {agg : CircomAggregateNode} {zeroTail : Bool} {names : List String} {block : CircomBlock}
    (h : renderCircomAggregateBlock agg zeroTail names = .ok block) {s : CircomStmt} (hs : s ∈ block.body) :
    s ∈ activeFlagLines agg.aggregateId ∨
      (∃ node ∈ agg.comparisonNodes, ∃ stmts, cmpLines names node = .ok stmts ∧ s ∈ stmts) ∨
      s = .assign (.decisionValid agg.aggregateId) .loop (decisionAssignment agg.aggregateId agg.expression agg.kind) ∨
      s ∈ zeroTailLines agg.aggregateId ∨
      s = .assign (.chain agg.aggregateId) .loopSucc (chainUpdate agg.aggregateId agg.kind) := by
  obtain ⟨cmp, hcmp, -, -, hbody⟩ := block_body h
  rw [hbody] at hs
  simp only [List.mem_append, List.mem_flatten, List.mem_singleton] at hs
  rcases hs with (((hs | ⟨stmts, hstmts, hs⟩) | hs) | hs) | hs
  · exact Or.inl hs
  · obtain ⟨node, hnode, hline⟩ := forall₂_mem_right hcmp hstmts
    exact Or.inr (Or.inl ⟨node, hnode, stmts, hline, hs⟩)
  · exact Or.inr (Or.inr (Or.inl hs))
  · cases zeroTail with
    | false => simp at hs
    | true => exact Or.inr (Or.inr (Or.inr (Or.inl hs)))
  · exact Or.inr (Or.inr (Or.inr (Or.inr hs)))

/-- An aggregate was registered for a quantifier: its row expression is that of the inner
expression, rendered under its id. -/
def Registers (q : AggregateKind × DecisionExpr) (agg : CircomAggregateNode) : Prop :=
  agg.kind = q.1 ∧ ∃ b, agg.expression = (renderBooleanExpr agg.aggregateId q.2 b).1

/-- A comparator was registered for a comparison. -/
def IsNodeOf (c : ComparisonExpr) (node : CircomComparisonNode) : Prop :=
  node.op = c.op ∧ node.left = c.left ∧ node.right = c.right

/-! ## Aggregates -/

theorem mem_aggregatesArgs {l : List DecisionExpr}
    (hl : ∀ e ∈ l, ∀ a b, ∀ agg ∈ (renderBooleanExpr a e b).2.aggregates,
      agg ∈ b.aggregates ∨ ∃ q ∈ e.quantifiers, Registers q agg) :
    ∀ a b, ∀ agg ∈ (renderBooleanArgs a l b).2.aggregates,
      agg ∈ b.aggregates ∨ ∃ q ∈ DecisionExpr.quantifiersArgs l, Registers q agg := by
  induction l with
  | nil => intro a b agg hagg; exact Or.inl hagg
  | cons e es ih =>
    intro a b agg hagg
    rcases ih (fun x hx => hl x (by simp [hx])) a _ agg hagg with h | ⟨q, hq, hr⟩
    · rcases hl e (by simp) a b agg h with h | ⟨q, hq, hr⟩
      · exact Or.inl h
      · exact Or.inr ⟨q, List.mem_append_left _ hq, hr⟩
    · exact Or.inr ⟨q, List.mem_append_right _ hq, hr⟩

/-- **Every aggregate is that of a quantifier.** -/
theorem mem_aggregates (e : DecisionExpr) : ∀ a b, ∀ agg ∈ (renderBooleanExpr a e b).2.aggregates,
    agg ∈ b.aggregates ∨ ∃ q ∈ e.quantifiers, Registers q agg := by
  induction e with
  | comparison c => intro a b agg hagg; exact Or.inl hagg
  | and args ih => exact mem_aggregatesArgs ih
  | or args ih => exact mem_aggregatesArgs ih
  | not inner ih => exact ih
  | aggregate kind inner ih =>
    intro a b agg hagg
    simp only [renderBooleanExpr, Builder.closeAggregate, List.mem_append, List.mem_singleton] at hagg
    rcases hagg with hagg | rfl
    · rcases ih _ _ agg hagg with h | ⟨q, hq, hr⟩
      · exact Or.inl h
      · exact Or.inr ⟨q, List.mem_cons_of_mem _ hq, hr⟩
    · exact Or.inr ⟨(kind, inner), List.mem_cons_self .., rfl, b.openAggregate, rfl⟩

theorem quantifier_aggregateArgs {l : List DecisionExpr}
    (hl : ∀ e ∈ l, ∀ a b, ∀ q ∈ e.quantifiers, ∃ agg ∈ (renderBooleanExpr a e b).2.aggregates, Registers q agg) :
    ∀ a b, ∀ q ∈ DecisionExpr.quantifiersArgs l,
      ∃ agg ∈ (renderBooleanArgs a l b).2.aggregates, Registers q agg := by
  induction l with
  | nil => intro a b q hq; simp [DecisionExpr.quantifiersArgs] at hq
  | cons e es ih =>
    intro a b q hq
    rw [DecisionExpr.quantifiersArgs, List.mem_append] at hq
    rcases hq with hq | hq
    · obtain ⟨agg, hagg, hr⟩ := hl e (by simp) a b q hq
      exact ⟨agg, (renderBooleanArgs_le es a _).aggregates hagg, hr⟩
    · exact ih (fun x hx => hl x (by simp [hx])) a _ q hq

/-- **Every quantifier has its aggregate.** -/
theorem quantifier_aggregate (e : DecisionExpr) : ∀ a b, ∀ q ∈ e.quantifiers,
    ∃ agg ∈ (renderBooleanExpr a e b).2.aggregates, Registers q agg := by
  induction e with
  | comparison c => intro a b q hq; simp [DecisionExpr.quantifiers] at hq
  | and args ih => exact quantifier_aggregateArgs ih
  | or args ih => exact quantifier_aggregateArgs ih
  | not inner ih => exact ih
  | aggregate kind inner ih =>
    intro a b q hq
    rw [DecisionExpr.quantifiers, List.mem_cons] at hq
    rcases hq with rfl | hq
    · refine ⟨_, List.mem_append_right _ (List.mem_singleton.2 rfl), rfl, b.openAggregate, rfl⟩
    · obtain ⟨agg, hagg, hr⟩ := ih b.nextAggregateId b.openAggregate q hq
      exact ⟨agg, List.mem_append_left _ hagg, hr⟩

/-! ## Comparators -/

/-- A comparison's comparator stands in the open list of aggregate `a`, or in a closed aggregate. -/
def Collected (c : ComparisonExpr) (a : ℕ) (b : Builder) : Prop :=
  (∃ node ∈ b.comparisonsByAggregate a, IsNodeOf c node) ∨
    ∃ agg ∈ b.aggregates, ∃ node ∈ agg.comparisonNodes, IsNodeOf c node

theorem Collected.mono {c : ComparisonExpr} {a : ℕ} {b b' : Builder} (h : Collected c a b) (hle : b.Le b') :
    Collected c a b' := by
  rcases h with ⟨node, hnode, hc⟩ | ⟨agg, hagg, h⟩
  · exact Or.inl ⟨node, hle.comparisons a hnode, hc⟩
  · exact Or.inr ⟨agg, hle.aggregates hagg, h⟩

theorem comparison_nodeArgs {l : List DecisionExpr}
    (hl : ∀ e ∈ l, ∀ a b, ∀ c ∈ e.comparisons, Collected c a (renderBooleanExpr a e b).2) :
    ∀ a b, ∀ c ∈ DecisionExpr.comparisonsArgs l, Collected c a (renderBooleanArgs a l b).2 := by
  induction l with
  | nil => intro a b c hc; simp [DecisionExpr.comparisonsArgs] at hc
  | cons e es ih =>
    intro a b c hc
    rw [DecisionExpr.comparisonsArgs, List.mem_append] at hc
    rcases hc with hc | hc
    · exact (hl e (by simp) a b c hc).mono (renderBooleanArgs_le es a _)
    · exact ih (fun x hx => hl x (by simp [hx])) a _ c hc

/-- **Every comparison has its comparator.** -/
theorem comparison_node (e : DecisionExpr) : ∀ a b, ∀ c ∈ e.comparisons, Collected c a (renderBooleanExpr a e b).2 := by
  induction e with
  | comparison c =>
    intro a b c' hc
    rw [DecisionExpr.comparisons, List.mem_singleton] at hc
    subst hc
    refine Or.inl ⟨⟨b.nextComparisonId, c'.op, c'.left, c'.right⟩, ?_, rfl, rfl, rfl⟩
    simp [renderBooleanExpr, Builder.addComparison]
  | and args ih => exact comparison_nodeArgs ih
  | or args ih => exact comparison_nodeArgs ih
  | not inner ih => exact ih
  | aggregate kind inner ih =>
    intro a b c hc
    -- what is open under the aggregate's own id is closed with it
    rcases ih b.nextAggregateId b.openAggregate c hc with ⟨node, hnode, hn⟩ | ⟨agg, hagg, h⟩
    · exact Or.inr ⟨_, List.mem_append_right _ (List.mem_singleton.2 rfl), node, hnode, hn⟩
    · exact Or.inr ⟨agg, List.mem_append_left _ hagg, h⟩

/-! ## The root -/

variable {kind : AggregateKind} {inner : DecisionExpr}

/-- **A comparator stands for the comparison at its id.** -/
theorem buildRoot_nodeAt {agg : CircomAggregateNode} (hagg : agg ∈ (buildRoot kind inner).2)
    {node : CircomComparisonNode} (hnode : node ∈ agg.comparisonNodes) : NodeAt inner.comparisons node := by
  have hstands : StandsAt inner.comparisons inner.comparisons 0 := List.prefix_rfl
  -- the ids do not depend on a batch, so an empty one will do
  have htables : Tables ⟨0, [], [], fun _ => 0⟩ 0 [] inner.comparisons ((kind, inner) :: inner.quantifiers)
      (.aggregate kind inner) := renderBooleanExpr_tables le_rfl _
  obtain ⟨hb, -⟩ := htables 0 .init builderAt_init hstands List.prefix_rfl
  exact (hb.aggregates agg hagg).1 node hnode

/-- Every comparison of a decision has a comparator in its circuit. -/
theorem buildRoot_comparison {c : ComparisonExpr} (hc : c ∈ inner.comparisons) :
    ∃ agg ∈ (buildRoot kind inner).2, ∃ node ∈ agg.comparisonNodes, IsNodeOf c node := by
  rcases comparison_node (.aggregate kind inner) 0 .init c hc with ⟨node, hnode, hn⟩ | h
  · -- nothing stays open under the id outside the root except what the root closed with
    exact ⟨_, List.mem_append_right _ (List.mem_singleton.2 rfl), node, hnode, hn⟩
  · exact h

end Vellum
