import Vellum.Proof.Builder

/-!
# Where the builder puts what it collects

The ids of aggregates and comparators are given on the way down, and aggregates are appended on
the way up. So the nodes of an expression are known from the two counters alone: its comparators
stand in the aggregate around it, and the aggregates it adds stand in one stretch of the list.

* `renderBooleanExpr_layout`: what the builder holds after an expression.
* `laid_ids`, `laid_nodes`: the ids are those from the counters on, each once.
* `laid_scoped`: an expression reads comparators of its own aggregate and earlier aggregates.
* `aggregates_wellScoped`: the list of aggregates of a decision.
* `blocks_defined`: no generated signal is read before it is assigned.
-/

namespace Vellum

/-! ## The nodes of an expression -/

namespace DecisionExpr

mutual

/-- The comparators an expression adds to the aggregate around it; the first comparison has id `m`. -/
def ownNodes : DecisionExpr → ℕ → List CircomComparisonNode
  | comparison c, m => [⟨m, c.op, c.left, c.right⟩]
  | and args, m => ownNodesArgs args m
  | or args, m => ownNodesArgs args m
  | not inner, m => inner.ownNodes m
  | aggregate _ _, _ => []

def ownNodesArgs : List DecisionExpr → ℕ → List CircomComparisonNode
  | [], _ => []
  | e :: es, m => e.ownNodes m ++ ownNodesArgs es (m + e.comparisons.length)

end

mutual

/-- The text of an expression, the next aggregate with id `n`. -/
def rowExpr : DecisionExpr → ℕ → ℕ → CircomExpr
  | comparison _, _, m => .signal (.port (.cmp m) .out) .loop
  | and args, n, m => conjunction (rowExprs args n m)
  | or args, n, m => disjunction (rowExprs args n m)
  | not inner, n, m => .paren (.sub (.int 1) (.paren (inner.rowExpr n m)))
  | aggregate _ _, n, _ => .signal (.value n) .none

def rowExprs : List DecisionExpr → ℕ → ℕ → List CircomExpr
  | [], _, _ => []
  | e :: es, n, m => e.rowExpr n m :: rowExprs es (n + e.quantifiers.length) (m + e.comparisons.length)

end

mutual

/-- The aggregates an expression adds to the list. -/
def laid : DecisionExpr → ℕ → ℕ → List CircomAggregateNode
  | comparison _, _, _ => []
  | and args, n, m => laidArgs args n m
  | or args, n, m => laidArgs args n m
  | not inner, n, m => inner.laid n m
  | aggregate kind inner, n, m => inner.laid (n + 1) m ++ [⟨n, kind, inner.rowExpr (n + 1) m, inner.ownNodes m⟩]

def laidArgs : List DecisionExpr → ℕ → ℕ → List CircomAggregateNode
  | [], _, _ => []
  | e :: es, n, m => e.laid n m ++ laidArgs es (n + e.quantifiers.length) (m + e.comparisons.length)

end

end DecisionExpr

/-! ## What the builder holds -/

/-- No comparator stands under an id that is not given yet. -/
def Builder.Fresh (b : Builder) : Prop := ∀ x, b.nextAggregateId ≤ x → b.comparisonsByAggregate x = []

/-- **What rendering does to the builder**, under the aggregate `a`: the counters go up by the
number of nodes, the comparators go to `a`, the aggregates to the end of the list. -/
structure Lays (a : ℕ) (b b' : Builder) (quantifiers comparisons : ℕ) (own : List CircomComparisonNode)
    (aggregates : List CircomAggregateNode) : Prop where
  nextAggregate : b'.nextAggregateId = b.nextAggregateId + quantifiers
  nextComparison : b'.nextComparisonId = b.nextComparisonId + comparisons
  here : b'.comparisonsByAggregate a = b.comparisonsByAggregate a ++ own
  others : ∀ x < b.nextAggregateId, x ≠ a → b'.comparisonsByAggregate x = b.comparisonsByAggregate x
  fresh : b'.Fresh
  aggregates : b'.aggregates = b.aggregates ++ aggregates

/-- Rendering an expression does what its nodes say, under any aggregate that has its id. -/
def LaidOut (e : DecisionExpr) : Prop :=
  ∀ (a : ℕ) (b : Builder), a < b.nextAggregateId → b.Fresh →
    (renderBooleanExpr a e b).1 = e.rowExpr b.nextAggregateId b.nextComparisonId ∧
    Lays a b (renderBooleanExpr a e b).2 e.quantifiers.length e.comparisons.length (e.ownNodes b.nextComparisonId)
      (e.laid b.nextAggregateId b.nextComparisonId)

theorem renderBooleanArgs_layout {l : List DecisionExpr} (hl : ∀ e ∈ l, LaidOut e) (a : ℕ) (b : Builder)
    (ha : a < b.nextAggregateId) (hfresh : b.Fresh) :
    (renderBooleanArgs a l b).1 = DecisionExpr.rowExprs l b.nextAggregateId b.nextComparisonId ∧
    Lays a b (renderBooleanArgs a l b).2 (DecisionExpr.quantifiersArgs l).length (DecisionExpr.comparisonsArgs l).length
      (DecisionExpr.ownNodesArgs l b.nextComparisonId)
      (DecisionExpr.laidArgs l b.nextAggregateId b.nextComparisonId) := by
  induction l generalizing b with
  | nil =>
    refine ⟨rfl, rfl, rfl, ?_, fun _ _ _ => rfl, hfresh, ?_⟩
    · exact (List.append_nil _).symm
    · exact (List.append_nil _).symm
  | cons e es ih =>
    obtain ⟨hexpr, he⟩ := hl e (by simp) a b ha hfresh
    have ha' : a < (renderBooleanExpr a e b).2.nextAggregateId := by
      rw [he.nextAggregate]
      omega
    obtain ⟨hexprs, hes⟩ := ih (fun x hx => hl x (by simp [hx])) (renderBooleanExpr a e b).2 ha' he.fresh
    rw [he.nextAggregate, he.nextComparison] at hexprs hes
    refine ⟨?_, ?_, ?_, ?_, ?_, hes.fresh, ?_⟩
    · rw [DecisionExpr.rowExprs, ← hexpr, ← hexprs]
      rfl
    · rw [DecisionExpr.quantifiersArgs, List.length_append]
      exact hes.nextAggregate.trans (by rw [he.nextAggregate, Nat.add_assoc])
    · rw [DecisionExpr.comparisonsArgs, List.length_append]
      exact hes.nextComparison.trans (by rw [he.nextComparison, Nat.add_assoc])
    · rw [DecisionExpr.ownNodesArgs, ← List.append_assoc, ← he.here]
      exact hes.here
    · intro x hx hne
      have hx' : x < (renderBooleanExpr a e b).2.nextAggregateId := by
        rw [he.nextAggregate]
        omega
      exact (hes.others x hx' hne).trans (he.others x hx hne)
    · rw [DecisionExpr.laidArgs, ← List.append_assoc, ← he.aggregates]
      exact hes.aggregates

/-- **What the builder holds after an expression.** By induction on the expression; an aggregate
finds the list under its new id empty, and nothing else is written there. -/
theorem renderBooleanExpr_layout (e : DecisionExpr) : LaidOut e := by
  induction e with
  | comparison c =>
    intro a b ha hfresh
    refine ⟨rfl, rfl, rfl, ?_, ?_, ?_, (List.append_nil _).symm⟩
    · exact if_pos rfl
    · intro x _ hne
      exact if_neg hne
    · intro x hx
      have hne : x ≠ a := by
        have : b.nextAggregateId ≤ x := hx
        omega
      exact (if_neg hne).trans (hfresh x hx)
  | and args ih =>
    intro a b ha hfresh
    obtain ⟨hexprs, h⟩ := renderBooleanArgs_layout ih a b ha hfresh
    exact ⟨congrArg conjunction hexprs, h⟩
  | or args ih =>
    intro a b ha hfresh
    obtain ⟨hexprs, h⟩ := renderBooleanArgs_layout ih a b ha hfresh
    exact ⟨congrArg disjunction hexprs, h⟩
  | not inner ih =>
    intro a b ha hfresh
    obtain ⟨hexpr, h⟩ := ih a b ha hfresh
    refine ⟨?_, h⟩
    rw [DecisionExpr.rowExpr, ← hexpr]
    rfl
  | aggregate kind inner ih =>
    intro a b ha hfresh
    have hopen : b.openAggregate.Fresh := by
      intro x hx
      have : b.nextAggregateId + 1 ≤ x := hx
      exact hfresh x (by omega)
    obtain ⟨hexpr, h⟩ := ih b.nextAggregateId b.openAggregate (Nat.lt_succ_self _) hopen
    have hnodes : (renderBooleanExpr b.nextAggregateId inner b.openAggregate).2.comparisonsByAggregate
        b.nextAggregateId = inner.ownNodes b.nextComparisonId := by
      rw [h.here]
      have : b.openAggregate.comparisonsByAggregate b.nextAggregateId = [] := hfresh _ le_rfl
      rw [this, List.nil_append]
      rfl
    refine ⟨rfl, ?_, h.nextComparison, ?_, ?_, h.fresh, ?_⟩
    · refine h.nextAggregate.trans ?_
      simp only [Builder.openAggregate, DecisionExpr.quantifiers, List.length_cons]
      omega
    · rw [DecisionExpr.ownNodes, List.append_nil]
      exact h.others a (Nat.lt_succ_of_lt ha) (Nat.ne_of_lt ha)
    · intro x hx _
      exact h.others x (Nat.lt_succ_of_lt hx) (Nat.ne_of_lt hx)
    · have hlist : (renderBooleanExpr a (.aggregate kind inner) b).2.aggregates =
          (renderBooleanExpr b.nextAggregateId inner b.openAggregate).2.aggregates ++
            [⟨b.nextAggregateId, kind, (renderBooleanExpr b.nextAggregateId inner b.openAggregate).1,
              (renderBooleanExpr b.nextAggregateId inner b.openAggregate).2.comparisonsByAggregate
                b.nextAggregateId⟩] := rfl
      rw [hlist, h.aggregates, hexpr, hnodes, DecisionExpr.laid, List.append_assoc]
      rfl

/-- The list of `build_root`. -/
theorem buildRoot_layout (kind : AggregateKind) (inner : DecisionExpr) :
    buildRoot kind inner = (0, inner.laid 1 0 ++ [⟨0, kind, inner.rowExpr 1 0, inner.ownNodes 0⟩]) := by
  have hfresh : Builder.init.openAggregate.Fresh := fun _ _ => rfl
  obtain ⟨hexpr, h⟩ := renderBooleanExpr_layout inner 0 Builder.init.openAggregate Nat.zero_lt_one hfresh
  have hroot : buildRoot kind inner = (0, (renderBooleanExpr 0 inner Builder.init.openAggregate).2.aggregates ++
      [⟨0, kind, (renderBooleanExpr 0 inner Builder.init.openAggregate).1,
        (renderBooleanExpr 0 inner Builder.init.openAggregate).2.comparisonsByAggregate 0⟩]) := rfl
  rw [hroot, h.aggregates, h.here, hexpr]
  rfl

/-! ## Ids -/

theorem laidArgs_ids {l : List DecisionExpr}
    (hl : ∀ e ∈ l, ∀ n m, ((e.laid n m).map CircomAggregateNode.aggregateId).Perm
      (List.range' n e.quantifiers.length)) (n m : ℕ) :
    ((DecisionExpr.laidArgs l n m).map CircomAggregateNode.aggregateId).Perm
      (List.range' n (DecisionExpr.quantifiersArgs l).length) := by
  induction l generalizing n m with
  | nil => exact List.Perm.refl _
  | cons e es ih =>
    have hes := ih (fun x hx => hl x (by simp [hx])) (n + e.quantifiers.length) (m + e.comparisons.length)
    rw [DecisionExpr.laidArgs, DecisionExpr.quantifiersArgs, List.map_append, List.length_append,
      ← List.range'_append_1]
    exact (hl e (by simp) n m).append hes

/-- **The aggregate ids** are those from the counter on, each once. -/
theorem laid_ids (e : DecisionExpr) : ∀ n m, ((e.laid n m).map CircomAggregateNode.aggregateId).Perm
    (List.range' n e.quantifiers.length) := by
  induction e with
  | comparison c => exact fun n m => List.Perm.refl _
  | and args ih => exact laidArgs_ids ih
  | or args ih => exact laidArgs_ids ih
  | not inner ih => exact ih
  | aggregate kind inner ih =>
    intro n m
    have hrange : List.range' n (DecisionExpr.aggregate kind inner).quantifiers.length =
        n :: List.range' (n + 1) inner.quantifiers.length := rfl
    rw [DecisionExpr.laid, List.map_append, hrange]
    exact (List.perm_append_singleton _ _).trans ((ih (n + 1) m).cons n)

/-- The comparator of a numbered comparison. -/
def nodeOf (c : ComparisonExpr × ℕ) : CircomComparisonNode := ⟨c.2, c.1.op, c.1.left, c.1.right⟩

/-- All comparators that an expression adds. -/
def DecisionExpr.allNodes (e : DecisionExpr) (n m : ℕ) : List CircomComparisonNode :=
  e.ownNodes m ++ (e.laid n m).flatMap CircomAggregateNode.comparisonNodes

theorem laidArgs_nodes {l : List DecisionExpr}
    (hl : ∀ e ∈ l, ∀ n m, (e.allNodes n m).Perm ((e.comparisons.zipIdx m).map nodeOf)) (n m : ℕ) :
    (DecisionExpr.ownNodesArgs l m ++ (DecisionExpr.laidArgs l n m).flatMap CircomAggregateNode.comparisonNodes).Perm
      (((DecisionExpr.comparisonsArgs l).zipIdx m).map nodeOf) := by
  induction l generalizing n m with
  | nil => exact List.Perm.refl _
  | cons e es ih =>
    have hes := ih (fun x hx => hl x (by simp [hx])) (n + e.quantifiers.length) (m + e.comparisons.length)
    have he := hl e (by simp) n m
    rw [DecisionExpr.ownNodesArgs, DecisionExpr.laidArgs, DecisionExpr.comparisonsArgs, List.flatMap_append,
      List.zipIdx_append, List.map_append]
    refine List.Perm.trans ?_ (he.append hes)
    rw [DecisionExpr.allNodes, List.append_assoc, List.append_assoc]
    refine List.Perm.append_left _ ?_
    rw [← List.append_assoc, ← List.append_assoc]
    exact List.perm_append_comm.append_right _

/-- **The comparators** are those of the comparisons, numbered from the counter on. -/
theorem laid_nodes (e : DecisionExpr) : ∀ n m, (e.allNodes n m).Perm ((e.comparisons.zipIdx m).map nodeOf) := by
  induction e with
  | comparison c => exact fun n m => List.Perm.refl _
  | and args ih => exact laidArgs_nodes ih
  | or args ih => exact laidArgs_nodes ih
  | not inner ih => exact ih
  | aggregate kind inner ih =>
    intro n m
    refine List.Perm.trans ?_ (ih (n + 1) m)
    rw [DecisionExpr.allNodes, DecisionExpr.allNodes, DecisionExpr.ownNodes, DecisionExpr.laid, List.flatMap_append]
    simpa using List.perm_append_comm

/-! ## What an expression reads -/

/-- The signals an expression mentions, with their subscripts. -/
def CircomExpr.signals : CircomExpr → List (Signal × Subscript)
  | .signal s i => [(s, i)]
  | .int _ => []
  | .loopVar => []
  | .add a b => a.signals ++ b.signals
  | .sub a b => a.signals ++ b.signals
  | .mul a b => a.signals ++ b.signals
  | .paren a => a.signals

/-- The output of one of the comparators at the row of the loop, or the value of one of the
aggregates. -/
def Scoped (nodes : List CircomComparisonNode) (aggregateIds : List ℕ) (s : Signal × Subscript) : Prop :=
  (∃ node ∈ nodes, s = (.port (.cmp node.nodeId) .out, .loop)) ∨ ∃ j ∈ aggregateIds, s = (.value j, .none)

theorem Scoped.mono {nodes nodes' : List CircomComparisonNode} {ids ids' : List ℕ} {s : Signal × Subscript}
    (h : Scoped nodes ids s) (hnodes : nodes ⊆ nodes') (hids : ids ⊆ ids') : Scoped nodes' ids' s := by
  rcases h with ⟨node, hnode, rfl⟩ | ⟨j, hj, rfl⟩
  · exact .inl ⟨node, hnodes hnode, rfl⟩
  · exact .inr ⟨j, hids hj, rfl⟩

theorem foldl_signals (f : CircomExpr → CircomExpr → CircomExpr)
    (hf : ∀ a b, ∀ s ∈ (f a b).signals, s ∈ a.signals ∨ s ∈ b.signals) (parts : List CircomExpr) (acc : CircomExpr) :
    ∀ s ∈ (parts.foldl f acc).signals, s ∈ acc.signals ∨ ∃ part ∈ parts, s ∈ part.signals := by
  induction parts generalizing acc with
  | nil => exact fun s hs => .inl hs
  | cons part parts ih =>
    intro s hs
    rcases ih (f acc part) s hs with h | ⟨part', hpart, h⟩
    · rcases hf acc part s h with h | h
      · exact .inl h
      · exact .inr ⟨part, List.mem_cons_self .., h⟩
    · exact .inr ⟨part', List.mem_cons_of_mem _ hpart, h⟩

/-- A connective mentions what its parts mention. -/
theorem connective_signals {parts : List CircomExpr} {s : Signal × Subscript}
    (h : s ∈ (conjunction parts).signals ∨ s ∈ (disjunction parts).signals) : ∃ part ∈ parts, s ∈ part.signals := by
  cases parts with
  | nil => rcases h with h | h <;> cases h
  | cons part parts =>
    have hmul : ∀ a b, ∀ s ∈ (CircomExpr.mul a b).signals, s ∈ a.signals ∨ s ∈ b.signals :=
      fun a b s hs => List.mem_append.1 hs
    have hor : ∀ a b, ∀ s ∈ (disjoin a b).signals, s ∈ a.signals ∨ s ∈ b.signals := by
      intro a b s hs
      simp only [disjoin, CircomExpr.signals, List.mem_append] at hs
      tauto
    have hsplit : s ∈ part.signals ∨ ∃ part' ∈ parts, s ∈ part'.signals := by
      rcases h with h | h
      · exact foldl_signals .mul hmul parts part s h
      · exact foldl_signals disjoin hor parts part s h
    rcases hsplit with h | ⟨part', hpart, h⟩
    · exact ⟨part, List.mem_cons_self .., h⟩
    · exact ⟨part', List.mem_cons_of_mem _ hpart, h⟩

theorem rowExprs_scoped {l : List DecisionExpr}
    (hl : ∀ e ∈ l, ∀ n m, ∀ s ∈ (e.rowExpr n m).signals,
      Scoped (e.ownNodes m) ((e.laid n m).map CircomAggregateNode.aggregateId) s) (n m : ℕ) :
    ∀ part ∈ DecisionExpr.rowExprs l n m, ∀ s ∈ part.signals,
      Scoped (DecisionExpr.ownNodesArgs l m)
        ((DecisionExpr.laidArgs l n m).map CircomAggregateNode.aggregateId) s := by
  induction l generalizing n m with
  | nil =>
    intro part hpart
    cases hpart
  | cons e es ih =>
    intro part hpart s hs
    rw [DecisionExpr.ownNodesArgs, DecisionExpr.laidArgs, List.map_append]
    rcases List.mem_cons.1 hpart with rfl | hpart
    · have hscoped := hl e (by simp) n m s hs
      exact hscoped.mono (List.subset_append_left _ _) (List.subset_append_left _ _)
    · have hscoped := ih (fun x hx => hl x (by simp [hx])) _ _ part hpart s hs
      exact hscoped.mono (List.subset_append_right _ _) (List.subset_append_right _ _)

/-- **An expression reads** the comparators it adds to its own aggregate and the values of the
aggregates it adds to the list. -/
theorem rowExpr_scoped (e : DecisionExpr) : ∀ n m, ∀ s ∈ (e.rowExpr n m).signals,
    Scoped (e.ownNodes m) ((e.laid n m).map CircomAggregateNode.aggregateId) s := by
  induction e with
  | comparison c =>
    intro n m s hs
    rw [List.mem_singleton.1 hs]
    exact .inl ⟨_, List.mem_singleton.2 rfl, rfl⟩
  | and args ih =>
    intro n m s hs
    obtain ⟨part, hpart, hs⟩ := connective_signals (.inl hs)
    exact rowExprs_scoped ih n m part hpart s hs
  | or args ih =>
    intro n m s hs
    obtain ⟨part, hpart, hs⟩ := connective_signals (.inr hs)
    exact rowExprs_scoped ih n m part hpart s hs
  | not inner ih => exact fun n m s hs => ih n m s hs
  | aggregate kind inner ih =>
    intro n m s hs
    rw [List.mem_singleton.1 hs]
    refine .inr ⟨n, ?_, rfl⟩
    rw [DecisionExpr.laid, List.map_append]
    exact List.mem_append_right _ (List.mem_singleton.2 rfl)

/-- Every aggregate of a list reads its own comparators and aggregates before it, or those that
are there already. -/
def ScopedFrom (done : List ℕ) : List CircomAggregateNode → Prop
  | [] => True
  | agg :: rest => (∀ s ∈ agg.expression.signals, Scoped agg.comparisonNodes done s) ∧
      ScopedFrom (done ++ [agg.aggregateId]) rest

theorem scopedFrom_append {l l' : List CircomAggregateNode} (done : List ℕ) : ScopedFrom done (l ++ l') ↔
    ScopedFrom done l ∧ ScopedFrom (done ++ l.map CircomAggregateNode.aggregateId) l' := by
  induction l generalizing done with
  | nil => simp [ScopedFrom]
  | cons agg l ih =>
    rw [List.cons_append, ScopedFrom, ScopedFrom, ih, and_assoc, List.map_cons, List.append_assoc]
    rfl

theorem laidArgs_scoped {l : List DecisionExpr} (hl : ∀ e ∈ l, ∀ n m done, ScopedFrom done (e.laid n m)) (n m : ℕ)
    (done : List ℕ) : ScopedFrom done (DecisionExpr.laidArgs l n m) := by
  induction l generalizing n m done with
  | nil => trivial
  | cons e es ih =>
    rw [DecisionExpr.laidArgs, scopedFrom_append]
    exact ⟨hl e (by simp) n m done, ih (fun x hx => hl x (by simp [hx])) _ _ _⟩

/-- **The aggregates of an expression** read no aggregate behind them. -/
theorem laid_scoped (e : DecisionExpr) : ∀ n m done, ScopedFrom done (e.laid n m) := by
  induction e with
  | comparison c => exact fun n m done => trivial
  | and args ih => exact laidArgs_scoped ih
  | or args ih => exact laidArgs_scoped ih
  | not inner ih => exact ih
  | aggregate kind inner ih =>
    intro n m done
    rw [DecisionExpr.laid, scopedFrom_append]
    refine ⟨ih (n + 1) m done, fun s hs => ?_, trivial⟩
    exact (rowExpr_scoped inner (n + 1) m s hs).mono (List.Subset.refl _) (List.subset_append_right _ _)

theorem buildRoot_scoped (kind : AggregateKind) (inner : DecisionExpr) : ScopedFrom [] (buildRoot kind inner).2 := by
  have hall := laid_scoped (.aggregate kind inner) 0 0 []
  rw [buildRoot_layout]
  exact hall

/-- What stands before an aggregate of a scoped list is what it may read. -/
theorem scopedFrom_at {done : List ℕ} {before after : List CircomAggregateNode} {agg : CircomAggregateNode}
    (h : ScopedFrom done (before ++ agg :: after)) : ∀ s ∈ agg.expression.signals,
      Scoped agg.comparisonNodes (done ++ before.map CircomAggregateNode.aggregateId) s :=
  ((scopedFrom_append done).1 h).2.1

/-! ## The order of the statements -/

def CircomStmt.reads : CircomStmt → List Signal
  | .assign _ _ rhs => rhs.signals.map Prod.fst
  | .instantiate _ _ => []

def CircomStmt.writes : CircomStmt → List Signal
  | .assign s _ _ => [s]
  | .instantiate _ _ => []

/-- The statements of a block in their order, the loop once. -/
def CircomBlock.stmts (b : CircomBlock) : List CircomStmt := b.head :: (b.body ++ [b.tail])

/-- An input of the template. -/
def Signal.isInput : Signal → Bool
  | .limits | .activeCount | .balances | .policyParams => true
  | _ => false

/-- What has to be assigned for a signal to have its value: an output of a component has it from
the component's inputs. -/
def Signal.sources : Signal → List Signal
  | .port (.cmp k) .out => [.port (.cmp k) .lhs, .port (.cmp k) .rhs]
  | .port (.activeFlag a) .isActive => [.port (.activeFlag a) .activeCount, .port (.activeFlag a) .index]
  | s => [s]

def Defined (done : List Signal) (s : Signal) : Prop := s.isInput = true ∨ s.sources ⊆ done

/-- Every signal is assigned before it is read. -/
def DefinedFrom (done : List Signal) : List CircomStmt → Prop
  | [] => True
  | stmt :: rest => (∀ s ∈ stmt.reads, Defined done s) ∧ DefinedFrom (done ++ stmt.writes) rest

theorem Defined.mono {done done' : List Signal} {s : Signal} (h : Defined done s) (hsub : done ⊆ done') :
    Defined done' s := by
  rcases h with h | h
  · exact .inl h
  · exact .inr (List.Subset.trans h hsub)

theorem definedFrom_append {l l' : List CircomStmt} (done : List Signal) : DefinedFrom done (l ++ l') ↔
    DefinedFrom done l ∧ DefinedFrom (done ++ l.flatMap CircomStmt.writes) l' := by
  induction l generalizing done with
  | nil => simp [DefinedFrom]
  | cons stmt l ih =>
    rw [List.cons_append, DefinedFrom, DefinedFrom, ih, and_assoc, List.flatMap_cons, List.append_assoc]

/-- Statements that read what is assigned before all of them. -/
theorem definedFrom_of_reads {l : List CircomStmt} {done : List Signal}
    (h : ∀ stmt ∈ l, ∀ s ∈ stmt.reads, Defined done s) : DefinedFrom done l := by
  induction l generalizing done with
  | nil => trivial
  | cons stmt l ih =>
    refine ⟨h stmt (List.mem_cons_self ..), ih fun stmt' hstmt s hs => ?_⟩
    exact (h stmt' (List.mem_cons_of_mem _ hstmt) s hs).mono (List.subset_append_left _ _)

/-- A value is an input or a number. -/
theorem renderCircomValue_reads {names : List String} {v : ValueRef} {e : CircomExpr}
    (h : renderCircomValue names v = .ok e) : ∀ s ∈ e.signals, s.1.isInput = true := by
  have hparam : ∀ {name e}, renderCircomParam names name = .ok e → ∀ s ∈ e.signals, s.1.isInput = true := by
    intro name e h s hs
    unfold renderCircomParam at h
    split at h
    · obtain rfl := Except.ok.inj h
      rw [List.mem_singleton.1 hs]
      rfl
    · cases h
  intro s hs
  cases v with
  | constInt i =>
    obtain rfl := Except.ok.inj h
    cases hs
  | param p => exact hparam h s hs
  | ref r =>
    rw [renderCircomValue] at h
    split_ifs at h
    · obtain rfl := Except.ok.inj h
      rw [List.mem_singleton.1 hs]
      rfl
    · obtain rfl := Except.ok.inj h
      rw [List.mem_singleton.1 hs]
      rfl
    · obtain rfl := Except.ok.inj h
      rw [List.mem_singleton.1 hs]
      rfl
    · exact hparam h s hs

/-- The lines of a comparator read inputs, and assign both of its sides. -/
theorem cmpLines_defined {names : List String} {node : CircomComparisonNode} {stmts : List CircomStmt}
    (h : cmpLines names node = .ok stmts) : (∀ stmt ∈ stmts, ∀ s ∈ stmt.reads, s.isInput = true) ∧
      stmts.flatMap CircomStmt.writes = [.port (.cmp node.nodeId) .lhs, .port (.cmp node.nodeId) .rhs] := by
  simp only [cmpLines, bind_ok, pure_ok] at h
  obtain ⟨left, hleft, right, hright, rfl⟩ := h
  refine ⟨?_, rfl⟩
  intro stmt hstmt s hs
  simp only [List.mem_cons, List.not_mem_nil, or_false] at hstmt
  rcases hstmt with rfl | rfl | rfl
  · cases hs
  · obtain ⟨t, ht, rfl⟩ := List.mem_map.1 hs
    exact renderCircomValue_reads hleft t ht
  · obtain ⟨t, ht, rfl⟩ := List.mem_map.1 hs
    exact renderCircomValue_reads hright t ht

theorem comparators_defined {names : List String} {nodes : List CircomComparisonNode} {cmp : List (List CircomStmt)}
    (h : List.Forall₂ (fun node stmts => cmpLines names node = .ok stmts) nodes cmp) :
    (∀ stmt ∈ cmp.flatten, ∀ s ∈ stmt.reads, s.isInput = true) ∧ ∀ node ∈ nodes,
      [.port (.cmp node.nodeId) .lhs, .port (.cmp node.nodeId) .rhs] ⊆ cmp.flatten.flatMap CircomStmt.writes := by
  induction h with
  | nil => simp
  | cons hline _ ih =>
    obtain ⟨hreads, hwrites⟩ := cmpLines_defined hline
    refine ⟨?_, ?_⟩
    · intro stmt hstmt
      rw [List.flatten_cons, List.mem_append] at hstmt
      rcases hstmt with hstmt | hstmt
      · exact hreads stmt hstmt
      · exact ih.1 stmt hstmt
    · intro node hnode
      rw [List.flatten_cons, List.flatMap_append, hwrites]
      rcases List.mem_cons.1 hnode with rfl | hnode
      · exact List.subset_append_left _ _
      · exact List.Subset.trans (ih.2 node hnode) (List.subset_append_right _ _)

/-- **A block assigns every signal before it reads it** if its expression reads its own comparators
and values that are assigned before the block. -/
theorem block_defined {names : List String} {agg : CircomAggregateNode} {zeroTail : Bool} {block : CircomBlock}
    {ids : List ℕ} {done : List Signal} (h : renderCircomAggregateBlock agg zeroTail names = .ok block)
    (hscoped : ∀ s ∈ agg.expression.signals, Scoped agg.comparisonNodes ids s)
    (hdone : ∀ j ∈ ids, Signal.value j ∈ done) :
    DefinedFrom done block.stmts ∧ Signal.value agg.aggregateId ∈ block.stmts.flatMap CircomStmt.writes := by
  obtain ⟨cmp, hcmp, hhead, htail, hbody⟩ := block_body h
  obtain ⟨hreads, hwrites⟩ := comparators_defined hcmp
  have hstmts : block.stmts = [.assign (.chain agg.aggregateId) (.lit 0) (chainInit agg.kind)] ++
      (activeFlagLines agg.aggregateId ++ (cmp.flatten ++
        ([.assign (.decisionValid agg.aggregateId) .loop (decisionAssignment agg.aggregateId agg.expression agg.kind)] ++
          ((if zeroTail then zeroTailLines agg.aggregateId else []) ++
            [.assign (.chain agg.aggregateId) .loopSucc (chainUpdate agg.aggregateId agg.kind),
              .assign (.value agg.aggregateId) .none (.signal (.chain agg.aggregateId) .size)])))) := by
    simp only [CircomBlock.stmts, hhead, htail, hbody, List.append_assoc, List.cons_append, List.nil_append]
  refine ⟨?_, ?_⟩
  · rw [hstmts]
    simp only [definedFrom_append]
    have hinput : ∀ {done s}, Signal.isInput s = true → Defined done s := fun hs => .inl hs
    refine ⟨?_, ?_, ?_, ?_, ?_, ?_⟩
    · -- the head is a number
      refine definedFrom_of_reads fun stmt hstmt s hs => ?_
      rw [List.mem_singleton.1 hstmt] at hs
      cases hkind : agg.kind <;> simp [CircomStmt.reads, hkind, chainInit, CircomExpr.signals] at hs
    · -- the flag of a row rests on the count and the row
      simp [activeFlagLines, DefinedFrom, CircomStmt.reads, CircomStmt.writes, CircomExpr.signals, Defined,
        Signal.isInput, Signal.sources]
    · exact definedFrom_of_reads fun stmt hstmt s hs => hinput (hreads stmt hstmt s hs)
    · refine definedFrom_of_reads fun stmt hstmt s hs => ?_
      rw [List.mem_singleton.1 hstmt] at hs
      have hcases : s ∈ agg.expression.signals.map Prod.fst ∨ s = .isActive agg.aggregateId := by
        cases hkind : agg.kind <;>
          simp only [CircomStmt.reads, hkind, decisionAssignment, CircomExpr.signals, List.map_append, List.mem_append,
            List.map_cons, List.map_nil, List.mem_singleton, List.nil_append] at hs
        · tauto
        · tauto
      rcases hcases with hs | rfl
      · obtain ⟨t, ht, rfl⟩ := List.mem_map.1 hs
        rcases hscoped t ht with ⟨node, hnode, rfl⟩ | ⟨j, hj, rfl⟩
        · refine .inr (List.Subset.trans (hwrites node hnode) ?_)
          exact List.subset_append_right _ _
        · refine .inr (List.cons_subset.2 ⟨?_, List.nil_subset _⟩)
          simp [hdone j hj]
      · right
        simp [Signal.sources, activeFlagLines, CircomStmt.writes]
    · refine definedFrom_of_reads fun stmt hstmt s hs => ?_
      have hcases : s = .balances ∨ s = .limits ∨ s = .isActive agg.aggregateId := by
        cases zeroTail with
        | false => simp at hstmt
        | true =>
          simp only [if_true, zeroTailLines, List.mem_cons, List.not_mem_nil, or_false] at hstmt
          rcases hstmt with rfl | rfl | rfl | rfl | rfl | rfl <;>
            simp [CircomStmt.reads, CircomExpr.signals] at hs <;> simp [hs]
      rcases hcases with rfl | rfl | rfl
      · exact hinput rfl
      · exact hinput rfl
      · right
        simp [Signal.sources, activeFlagLines, CircomStmt.writes]
    · refine definedFrom_of_reads fun stmt hstmt s hs => ?_
      have hcases : s = .chain agg.aggregateId ∨ s = .decisionValid agg.aggregateId := by
        simp only [List.mem_cons, List.not_mem_nil, or_false] at hstmt
        rcases hstmt with rfl | rfl
        · cases hkind : agg.kind <;> simp [CircomStmt.reads, hkind, chainUpdate, CircomExpr.signals] at hs <;> tauto
        · left
          simpa [CircomStmt.reads, CircomExpr.signals] using hs
      rcases hcases with rfl | rfl
      · right
        simp [Signal.sources, CircomStmt.writes]
      · right
        simp [Signal.sources, CircomStmt.writes]
  · rw [hstmts]
    simp [CircomStmt.writes]

theorem blocks_defined_from {names : List String} {rootId : ℕ} {aggs : List CircomAggregateNode}
    {blocks : List CircomBlock}
    (h : List.Forall₂ (fun agg block =>
      renderCircomAggregateBlock agg (decide (agg.aggregateId = rootId)) names = .ok block) aggs blocks)
    {ids : List ℕ} (hscoped : ScopedFrom ids aggs) {done : List Signal} (hdone : ∀ j ∈ ids, Signal.value j ∈ done) :
    DefinedFrom done (blocks.flatMap CircomBlock.stmts) := by
  induction h generalizing ids done with
  | nil => trivial
  | @cons agg block aggs blocks hblock _ ih =>
    obtain ⟨hexpr, hrest⟩ := hscoped
    obtain ⟨hdefined, hvalue⟩ := block_defined hblock hexpr hdone
    rw [List.flatMap_cons, definedFrom_append]
    refine ⟨hdefined, ih hrest fun j hj => ?_⟩
    rcases List.mem_append.1 hj with hj | hj
    · exact List.mem_append_left _ (hdone j hj)
    · rw [List.mem_singleton.1 hj]
      exact List.mem_append_right _ hvalue

/-- **No generated signal is read before it is assigned.** -/
theorem blocks_defined {names : List String} {kind : AggregateKind} {inner : DecisionExpr} {blocks : List CircomBlock}
    (h : renderBlocks names kind inner = .ok blocks) : DefinedFrom [] (blocks.flatMap CircomBlock.stmts) := by
  have hblocks := mapM_ok.1 h
  exact blocks_defined_from hblocks (buildRoot_scoped kind inner) nofun

/-! ## The list of a decision -/

/-- The comparators that a block wires are those of its aggregate, at the row of its own loop. -/
def WiresOwn (agg : CircomAggregateNode) (block : CircomBlock) : Prop :=
  block.loopVar = "i_" ++ agg.aggregateId.repr ∧
    (∀ k p i rhs, .assign (.port (.cmp k) p) i rhs ∈ block.body →
      i = .loop ∧ ∃ node ∈ agg.comparisonNodes, node.nodeId = k) ∧
    ∀ node ∈ agg.comparisonNodes, ∃ left right, .assign (.port (.cmp node.nodeId) .lhs) .loop left ∈ block.body ∧
      .assign (.port (.cmp node.nodeId) .rhs) .loop right ∈ block.body

theorem block_wiresOwn {names : List String} {agg : CircomAggregateNode} {zeroTail : Bool} {block : CircomBlock}
    (h : renderCircomAggregateBlock agg zeroTail names = .ok block) : WiresOwn agg block := by
  refine ⟨?_, ?_, ?_⟩
  · simp only [renderCircomAggregateBlock, bind_ok, pure_ok] at h
    obtain ⟨cmp, -, rfl⟩ := h
    rfl
  · intro k p i rhs hmem
    rcases mem_body h hmem with hs | ⟨node, hnode, stmts, hline, hs⟩ | hs | hs | hs
    · simp [activeFlagLines] at hs
    · simp only [cmpLines, bind_ok, pure_ok] at hline
      obtain ⟨left, -, right, -, rfl⟩ := hline
      simp only [List.mem_cons, List.not_mem_nil, or_false, reduceCtorEq, false_or, CircomStmt.assign.injEq,
        Signal.port.injEq, Component.cmp.injEq] at hs
      rcases hs with ⟨⟨rfl, -⟩, rfl, -⟩ | ⟨⟨rfl, -⟩, rfl, -⟩
      · exact ⟨rfl, node, hnode, rfl⟩
      · exact ⟨rfl, node, hnode, rfl⟩
    · cases hs
    · simp [zeroTailLines] at hs
    · cases hs
  · intro node hnode
    obtain ⟨cmp, hcmp, -, -, hbody⟩ := block_body h
    obtain ⟨stmts, hstmts, hline⟩ := forall₂_mem_left hcmp hnode
    simp only [cmpLines, bind_ok, pure_ok] at hline
    obtain ⟨left, -, right, -, rfl⟩ := hline
    have hsub : ∀ s ∈ [CircomStmt.instantiate (.cmp node.nodeId) (primitiveComparatorTemplate node.op),
        .assign (.port (.cmp node.nodeId) .lhs) .loop left, .assign (.port (.cmp node.nodeId) .rhs) .loop right],
        s ∈ block.body := by
      intro s hs
      rw [hbody]
      have hflat : s ∈ cmp.flatten := List.mem_flatten.2 ⟨_, hstmts, hs⟩
      simp [hflat]
    exact ⟨left, right, hsub _ (by simp), hsub _ (by simp)⟩

/-- **The aggregates of a decision are well scoped.** -/
structure WellScoped (kind : AggregateKind) (inner : DecisionExpr) (aggs : List CircomAggregateNode) : Prop where
  ids : (aggs.map CircomAggregateNode.aggregateId).Perm (List.range aggs.length)
  rootLast : ∃ before root, aggs = before ++ [root] ∧ root.aggregateId = 0 ∧ root.kind = kind
  /-- Every id of a comparison occurs once in all of the aggregates together. -/
  comparisonIds : ((aggs.flatMap CircomAggregateNode.comparisonNodes).map CircomComparisonNode.nodeId).Perm
    (List.range inner.comparisons.length)
  wires : ∀ agg ∈ aggs, ∀ names zeroTail block,
    renderCircomAggregateBlock agg zeroTail names = .ok block → WiresOwn agg block
  /-- The output of a comparator of its own at the row of the loop, or the value of an aggregate
  before it. -/
  reads : ∀ before agg after, aggs = before ++ agg :: after → ∀ s ∈ agg.expression.signals,
    Scoped agg.comparisonNodes (before.map CircomAggregateNode.aggregateId) s
  defined : ∀ names blocks, renderBlocks names kind inner = .ok blocks →
    DefinedFrom [] (blocks.flatMap CircomBlock.stmts)

/-- **The emitted aggregates are well scoped**, for every decision. -/
theorem aggregates_wellScoped (kind : AggregateKind) (inner : DecisionExpr) :
    (buildRoot kind inner).1 = 0 ∧ WellScoped kind inner (buildRoot kind inner).2 := by
  have hroot : (buildRoot kind inner).2 = (DecisionExpr.aggregate kind inner).laid 0 0 := by
    rw [buildRoot_layout]
    rfl
  have hids := laid_ids (.aggregate kind inner) 0 0
  rw [← hroot] at hids
  have hlen := hids.length_eq
  rw [List.length_map, List.length_range'] at hlen
  rw [← hlen, ← List.range_eq_range'] at hids
  have hnodes := (laid_nodes (.aggregate kind inner) 0 0).map CircomComparisonNode.nodeId
  have hall : (DecisionExpr.aggregate kind inner).allNodes 0 0 =
      (buildRoot kind inner).2.flatMap CircomAggregateNode.comparisonNodes := by
    rw [hroot]
    rfl
  have hzip : (((DecisionExpr.aggregate kind inner).comparisons.zipIdx 0).map nodeOf).map CircomComparisonNode.nodeId =
      List.range inner.comparisons.length := by
    rw [List.map_map, List.range_eq_range']
    exact List.zipIdx_map_snd 0 inner.comparisons
  rw [hall, hzip] at hnodes
  refine ⟨by rw [buildRoot_layout], hids, ?_, hnodes, ?_, ?_, ?_⟩
  · exact ⟨inner.laid 1 0, _, by rw [buildRoot_layout], rfl, rfl⟩
  · exact fun agg _ names zeroTail block h => block_wiresOwn h
  · intro before agg after hsplit
    have hscoped := buildRoot_scoped kind inner
    rw [hsplit] at hscoped
    exact scopedFrom_at hscoped
  · exact fun names blocks h => blocks_defined h

end Vellum
