import Vellum.Lib.Except
import Vellum.Spec.Meaning

/-!
# The generated constraints say what the decision says

Every satisfying assignment of the emitted aggregates carries the meaning of the
decision, for arbitrary nesting.

* `comparator_iff`: a comparator of two unsigned 32-bit values outputs the comparison.
* `block_value`: what the block of one aggregate forces, given what its row
  expression evaluates to.
* `renderBooleanExpr_eval`: the row expression, by induction on the decision. Only
  membership of the nodes in the builder's final lists is used, so no freshness
  argument is needed here.
* `flag_sound`: the activity flag is right for every index that its comparator admits.
-/

namespace Vellum

open Circomlib

/-- Truth values in the field. -/
def bit (b : Bool) : F := if b then 1 else 0

@[simp] theorem bit_true : bit true = 1 := rfl

@[simp] theorem bit_false : bit false = 0 := rfl

theorem bit_and (a b : Bool) : bit (a && b) = bit a * bit b := by cases a <;> cases b <;> simp

theorem bit_or (a b : Bool) : bit (a || b) = bit a + bit b - bit a * bit b := by
  cases a <;> cases b <;> simp

theorem bit_not (a : Bool) : bit (!a) = 1 - bit a := by cases a <;> simp

theorem bit_mul_sub (a : Bool) : bit a * (bit a - 1) = 0 := by cases a <;> simp

theorem bit_eq_ite {P : Prop} [Decidable P] : bit (decide P) = if P then 1 else 0 := by
  by_cases h : P <;> simp [h]

theorem bit_inj {a b : Bool} (h : bit a = bit b) : a = b := by
  cases a <;> cases b <;> simp_all

theorem two_pow_33_le : 2 ^ (32 + 1) ≤ bn254 := by unfold bn254; norm_num

theorem two_pow_17_le : 2 ^ (16 + 1) ≤ bn254 := by unfold bn254; norm_num

/-! ## Comparators -/

/-- **A comparator of unsigned 32-bit values** outputs the comparison. -/
theorem comparator_iff {op : ComparisonOp} {a b : ℤ} (ha : 0 ≤ a ∧ a < 2 ^ 32) (hb : 0 ≤ b ∧ b < 2 ^ 32)
    {port : Port → F} (hl : port .lhs = (a : F)) (hr : port .rhs = (b : F)) :
    (primitiveComparatorTemplate op).Holds port ↔ port .out = bit (op.holds a b) := by
  obtain ⟨m, rfl⟩ := Int.eq_ofNat_of_zero_le ha.1
  obtain ⟨n, rfl⟩ := Int.eq_ofNat_of_zero_le hb.1
  have hm : m < 2 ^ 32 := by exact_mod_cast ha.2
  have hn : n < 2 ^ 32 := by exact_mod_cast hb.2
  have hp := two_pow_33_le
  have hmp : m < bn254 := by omega
  have hnp : n < bn254 := by omega
  push_cast at hl hr
  -- one comparator of the library for each operator
  cases op <;> simp only [primitiveComparatorTemplate, Template.Holds, hl, hr, ComparisonOp.holds,
    bit_eq_ite, Nat.cast_lt, Nat.cast_le, Nat.cast_inj]
  case lt => exact lessThan_nat hp (by omega) (by omega)
  case gt => exact greaterThan_nat hp (by omega) (by omega)
  case le => exact lessEqThan_nat hp (by omega) (by omega)
  case ge => exact greaterEqThan_nat hp (by omega) (by omega)
  case eq => exact isEqual_nat hmp hnp

/-- Where a natural and its shift by a comparator's range stay below the modulus. -/
def fieldBound : ℕ := bn254 - 2 ^ 32

theorem two_pow_32_le_fieldBound : 2 ^ 32 ≤ fieldBound := by unfold fieldBound bn254; norm_num

/-- **A comparator that holds** outputs the comparison, of any values below `fieldBound`. -/
theorem comparator_sound {op : ComparisonOp} {a b : ℤ} (ha : 0 ≤ a ∧ a < fieldBound)
    (hb : 0 ≤ b ∧ b < fieldBound) {port : Port → F} (hl : port .lhs = (a : F)) (hr : port .rhs = (b : F))
    (h : (primitiveComparatorTemplate op).Holds port) : port .out = bit (op.holds a b) := by
  obtain ⟨m, rfl⟩ := Int.eq_ofNat_of_zero_le ha.1
  obtain ⟨n, rfl⟩ := Int.eq_ofNat_of_zero_le hb.1
  have hp := two_pow_33_le
  have hle := two_pow_32_le_fieldBound
  have hm : m + 2 ^ 32 < bn254 := by
    have : m < fieldBound := by exact_mod_cast ha.2
    unfold fieldBound at this hle
    omega
  have hn : n + 2 ^ 32 < bn254 := by
    have : n < fieldBound := by exact_mod_cast hb.2
    unfold fieldBound at this hle
    omega
  push_cast at hl hr
  cases op <;> simp only [primitiveComparatorTemplate, Template.Holds, hl, hr] at h <;>
    simp only [ComparisonOp.holds, bit_eq_ite, Nat.cast_lt, Nat.cast_le, Nat.cast_inj]
  case lt => exact lessThan_sound hp hm (by omega) h
  case gt => exact lessThan_sound hp hn (by omega) h
  case le => exact lessEqThan_sound hp hm hn h
  case ge => exact lessEqThan_sound hp hn hm h
  case eq => exact (isEqual_nat (by omega) (by omega)).1 h

variable {B : Batch} {N : ℕ} {names : List String} {w : Assignment}

/-- A rendered value node has the value of the node. -/
theorem renderCircomValue_eval (hin : B.Inputs N names w) {i : ℕ} (hi : i < N) {v : ValueRef}
    {ce : CircomExpr} (h : renderCircomValue names v = .ok ce) :
    ce.eval N w i = ((B.valueAt i v : ℤ) : F) := by
  have hparam : ∀ {name : String} {ce : CircomExpr}, renderCircomParam names name = .ok ce →
      ce.eval N w i = ((B.params name : ℤ) : F) := by
    intro name ce h
    unfold renderCircomParam at h
    split at h
    · rename_i j hj
      cases h
      obtain ⟨hj1, hj2, -⟩ := List.idxOf?_eq_some_iff.1 hj
      exact hin.params j name (by rw [List.getElem?_eq_getElem hj1, hj2])
    · cases h
  cases v with
  | constInt c => cases h; rfl
  | param p => exact hparam h
  | ref s =>
    simp only [renderCircomValue] at h
    simp only [Batch.valueAt]
    split_ifs at h ⊢ with h1 h2 h3 h4
    · cases h; exact hin.balances i hi
    · cases h; exact hin.limits i hi
    · cases h; push_cast; exact hin.activeCount
    · exact hparam h

/-- The value nodes of an expression are naturals below `m` in every row. -/
def ValuesBelow (m : ℕ) (B : Batch) (N : ℕ) (l : List ValueRef) : Prop :=
  ∀ v ∈ l, ∀ i < N, 0 ≤ B.valueAt i v ∧ B.valueAt i v < m

theorem ValuesBelow.mono {m m' : ℕ} {l : List ValueRef} (h : ValuesBelow m B N l) (hm : m ≤ m') :
    ValuesBelow m' B N l :=
  fun v hv i hi => ⟨(h v hv i hi).1, (h v hv i hi).2.trans_le (by exact_mod_cast hm)⟩

/-- The constraints of one comparator hold in every row. -/
def NodeHolds (N : ℕ) (names : List String) (w : Assignment) (node : CircomComparisonNode) : Prop :=
  ∃ stmts, cmpLines names node = .ok stmts ∧ ∀ i < N, ∀ s ∈ stmts, s.Holds N w i

/-- The ports of a comparator that holds have the values of its comparison. -/
theorem node_ports (hin : B.Inputs N names w) {node : CircomComparisonNode} (h : NodeHolds N names w node)
    {i : ℕ} (hi : i < N) :
    (primitiveComparatorTemplate node.op).Holds (fun p => w (.port (.cmp node.nodeId) p) i) ∧
      w (.port (.cmp node.nodeId) .lhs) i = ((B.valueAt i node.left : ℤ) : F) ∧
      w (.port (.cmp node.nodeId) .rhs) i = ((B.valueAt i node.right : ℤ) : F) := by
  obtain ⟨stmts, hs, hall⟩ := h
  simp only [cmpLines, bind_ok, pure_ok] at hs
  obtain ⟨l, hl, r, hr, rfl⟩ := hs
  have h1 := hall i hi _ (List.mem_cons_self ..)
  have h2 := hall i hi (.assign (.port (.cmp node.nodeId) .lhs) .loop l) (by simp)
  have h3 := hall i hi (.assign (.port (.cmp node.nodeId) .rhs) .loop r) (by simp)
  simp only [CircomStmt.Holds, Subscript.cell] at h1 h2 h3
  rw [renderCircomValue_eval hin hi hl] at h2
  rw [renderCircomValue_eval hin hi hr] at h3
  exact ⟨h1, h2, h3⟩

/-- A comparator that holds outputs its comparison. -/
theorem node_out (hin : B.Inputs N names w) {node : CircomComparisonNode} (h : NodeHolds N names w node)
    (hv : ValuesBelow fieldBound B N [node.left, node.right]) {i : ℕ} (hi : i < N) :
    w (.port (.cmp node.nodeId) .out) i =
      bit (node.op.holds (B.valueAt i node.left) (B.valueAt i node.right)) := by
  obtain ⟨hholds, hl, hr⟩ := node_ports hin h hi
  exact comparator_sound (hv _ (by simp) i hi) (hv _ (by simp) i hi) hl hr hholds

/-! ## Activity flags -/

/-- **The activity flag is right** wherever its comparator is satisfiable. -/
theorem flag_sound {ac i : ℕ} (hac : ac ≤ 2 ^ 16) (hi : i ≤ 2 ^ 18) {out : F}
    (h : ActiveIndexFlag16 (ac : F) (i : F) out) :
    i + 2 ^ 16 - ac < 2 ^ (16 + 1) ∧ out = bit (decide (i < ac)) := by
  have hp : 2 ^ 20 ≤ bn254 := by unfold bn254; norm_num
  obtain ⟨h1, h2⟩ := (lessThan_iff two_pow_17_le).1 h.1
  -- the index may lie above the range of the comparator, but never wraps
  have hv : ((i : F) + 2 ^ 16 - (ac : F)).val = i + 2 ^ 16 - ac := val_shift_sub (by omega) (by omega)
  rw [hv] at h1 h2
  refine ⟨h1, ?_⟩
  rw [h2, bit_eq_ite]
  simp only [show i + 2 ^ 16 - ac < 2 ^ 16 ↔ i < ac by omega]

/-- The flag's constraints are met by the right flag. -/
theorem flag_complete {ac i : ℕ} (hac : ac ≤ 2 ^ 16) (hi : i < ac + 2 ^ 16) :
    ActiveIndexFlag16 (ac : F) (i : F) (bit (decide (i < ac))) := by
  refine ⟨(greaterThan_nat two_pow_17_le (by omega) hi).2 ?_, bit_mul_sub _⟩
  rw [bit_eq_ite]

theorem greaterThan16_bit {a b out : F} (h : GreaterThan 16 a b out) : out = 0 ∨ out = 1 := by
  obtain ⟨-, hout⟩ := (lessThan_iff two_pow_17_le).1 h
  split_ifs at hout
  · exact Or.inr hout
  · exact Or.inl hout

/-- `ActiveCountBounds` multiplies the two comparators, the hand-written circuit asks for each:
bits with product one are both one. -/
theorem activeCountBounds_iff {N : ℕ} {activeCount : F} : (∃ valid, ActiveCountBounds N activeCount valid) ↔
    GreaterThan 16 activeCount 0 1 ∧ LessThan 16 activeCount (N + 1 : ℕ) 1 := by
  constructor
  · rintro ⟨valid, gt, lt, hgt, hlt, hmul, hone⟩
    rw [hone] at hmul
    rcases greaterThan16_bit hgt with rfl | rfl
    · rw [zero_mul] at hmul
      exact absurd hmul one_ne_zero
    · rw [one_mul] at hmul
      rw [← hmul] at hlt
      exact ⟨hgt, hlt⟩
  · rintro ⟨hgt, hlt⟩
    exact ⟨1, 1, 1, hgt, hlt, (one_mul 1).symm, rfl⟩

/-! ## Aggregates -/

/-- What an aggregate of kind `kind` makes of its rows. -/
def aggregateOf (kind : AggregateKind) (n : ℕ) (f : ℕ → Bool) : Bool :=
  match kind with
  | .all => (List.range n).all f
  | .any => (List.range n).any f

theorem holdsAt_aggregate (kind : AggregateKind) (inner : DecisionExpr) (i : ℕ) :
    (DecisionExpr.aggregate kind inner).holdsAt B i =
      aggregateOf kind B.activeCount fun j => inner.holdsAt B j := by
  cases kind <;> rfl

/-- A row's contribution to its aggregate: neutral where the row is inactive. -/
def contribution (kind : AggregateKind) (active holds : Bool) : Bool :=
  match kind with
  | .all => !active || holds
  | .any => active && holds

/-- Neutral rows do not count. -/
theorem aggregateOf_contribution {ac : ℕ} (h : ac ≤ N) (kind : AggregateKind) (f : ℕ → Bool) :
    aggregateOf kind N (fun j => contribution kind (decide (j < ac)) (f j)) = aggregateOf kind ac f := by
  rw [Bool.eq_iff_iff]
  cases kind with
  | all =>
    simp only [aggregateOf, contribution, List.all_eq_true, List.mem_range, Bool.or_eq_true,
      Bool.not_eq_true', decide_eq_false_iff_not]
    exact ⟨fun hall j hj => (hall j (by omega)).resolve_left (by omega),
      fun hall j _ => (Nat.lt_or_ge j ac).symm.imp Nat.not_lt.2 (hall j)⟩
  | any =>
    simp only [aggregateOf, contribution, List.any_eq_true, List.mem_range, Bool.and_eq_true,
      decide_eq_true_eq]
    exact ⟨fun ⟨j, _, hj, hf⟩ => ⟨j, hj, hf⟩, fun ⟨j, hj, hf⟩ => ⟨j, by omega, hj, hf⟩⟩

/-- The field element an aggregate's chain starts from. -/
def chainStart : AggregateKind → F
  | .all => 1
  | .any => 0

/-- The next link of an aggregate's chain. -/
def chainNext (kind : AggregateKind) (c d : F) : F :=
  match kind with
  | .all => c * d
  | .any => c + d - c * d

theorem chainStart_bit (kind : AggregateKind) (f : ℕ → Bool) :
    chainStart kind = bit (aggregateOf kind 0 f) := by
  cases kind <;> rfl

theorem chainNext_bit (kind : AggregateKind) (n : ℕ) (f : ℕ → Bool) :
    chainNext kind (bit (aggregateOf kind n f)) (bit (f n)) = bit (aggregateOf kind (n + 1) f) := by
  cases kind with
  | all => simp [chainNext, aggregateOf, List.range_succ, bit_and]
  | any => simp [chainNext, aggregateOf, List.range_succ, bit_or]

/-- The chain recurrence computes the aggregate. -/
theorem chain_value {kind : AggregateKind} {chain : ℕ → F} {g : ℕ → Bool} (h0 : chain 0 = chainStart kind)
    (hs : ∀ i < N, chain (i + 1) = chainNext kind (chain i) (bit (g i))) :
    ∀ n ≤ N, chain n = bit (aggregateOf kind n g) := by
  intro n
  induction n with
  | zero => intro _; rw [h0, chainStart_bit]
  | succ n ih => intro hn; rw [hs n (by omega), ih (by omega), chainNext_bit]

/-- A row's contribution as the emitted expression computes it. -/
theorem decisionAssignment_eval {aggId i : ℕ} {e : CircomExpr} {kind : AggregateKind} {active holds : Bool}
    (ha : w (.isActive aggId) i = bit active) (he : e.eval N w i = bit holds) :
    (decisionAssignment aggId e kind).eval N w i = bit (contribution kind active holds) := by
  cases kind with
  | all =>
    simp only [decisionAssignment, CircomExpr.eval, Subscript.cell, ha, he, Int.cast_one, contribution]
    cases active <;> cases holds <;> simp
  | any =>
    simp only [decisionAssignment, CircomExpr.eval, Subscript.cell, ha, he, contribution, bit_and]
    ring

theorem chainInit_eval (kind : AggregateKind) (i : ℕ) :
    (chainInit kind).eval N w i = chainStart kind := by
  cases kind <;> simp [chainInit, chainStart, CircomExpr.eval]

theorem chainUpdate_eval (aggId i : ℕ) (kind : AggregateKind) :
    (chainUpdate aggId kind).eval N w i = chainNext kind (w (.chain aggId) i) (w (.decisionValid aggId) i) := by
  cases kind <;> rfl

/-- The constraints of an aggregate's block hold, with or without the zero tail. -/
def AggHolds (N : ℕ) (names : List String) (w : Assignment) (agg : CircomAggregateNode) : Prop :=
  ∃ zeroTail block, renderCircomAggregateBlock agg zeroTail names = .ok block ∧ block.Holds N w

/-- The statements of a block's loop body. -/
theorem block_body {agg : CircomAggregateNode} {zeroTail : Bool} {block : CircomBlock}
    (h : renderCircomAggregateBlock agg zeroTail names = .ok block) :
    ∃ cmp, List.Forall₂ (fun node stmts => cmpLines names node = .ok stmts) agg.comparisonNodes cmp ∧
      block.head = .assign (.chain agg.aggregateId) (.lit 0) (chainInit agg.kind) ∧
      block.tail = .assign (.value agg.aggregateId) .none (.signal (.chain agg.aggregateId) .size) ∧
      block.body = activeFlagLines agg.aggregateId ++ cmp.flatten ++
        [.assign (.decisionValid agg.aggregateId) .loop
          (decisionAssignment agg.aggregateId agg.expression agg.kind)] ++
        (if zeroTail then zeroTailLines agg.aggregateId else []) ++
        [.assign (.chain agg.aggregateId) .loopSucc (chainUpdate agg.aggregateId agg.kind)] := by
  simp only [renderCircomAggregateBlock, bind_ok, pure_ok] at h
  obtain ⟨cmp, hcmp, rfl⟩ := h
  exact ⟨cmp, mapM_ok.1 hcmp, rfl, rfl, rfl⟩

/-- The comparators of an aggregate that holds. -/
theorem aggHolds_node {agg : CircomAggregateNode} (h : AggHolds N names w agg)
    {node : CircomComparisonNode} (hn : node ∈ agg.comparisonNodes) : NodeHolds N names w node := by
  obtain ⟨z, block, hr, hb⟩ := h
  obtain ⟨cmp, hcmp, -, -, hbody⟩ := block_body hr
  obtain ⟨stmts, hs, hline⟩ := forall₂_mem_left hcmp hn
  refine ⟨stmts, hline, fun i hi s hs' => hb.body i hi s ?_⟩
  rw [hbody]
  simp only [List.mem_append, List.mem_flatten]
  exact Or.inl (Or.inl (Or.inl (Or.inr ⟨stmts, hs, hs'⟩)))

/-- The activity flags of an aggregate that holds. -/
theorem aggHolds_flag {agg : CircomAggregateNode} (h : AggHolds N names w agg) {i : ℕ} (hi : i < N) :
    ActiveIndexFlag16 (w .activeCount 0) (i : F) (w (.isActive agg.aggregateId) i) := by
  obtain ⟨z, block, hr, hb⟩ := h
  obtain ⟨cmp, -, -, -, hbody⟩ := block_body hr
  have hmem : ∀ s ∈ activeFlagLines agg.aggregateId, s.Holds N w i := fun s hs =>
    hb.body i hi s (by rw [hbody]; simp [hs])
  simp only [activeFlagLines, List.forall_mem_cons, CircomStmt.Holds, Subscript.cell, CircomExpr.eval,
    Template.Holds] at hmem
  obtain ⟨h1, h2, h3, h4, -⟩ := hmem
  rwa [h2, h3, ← h4] at h1

/-- **What a block forces.** Where its row expression has truth values and its flags mark
the active rows, the value of an aggregate is the quantifier over the active rows. -/
theorem block_value {agg : CircomAggregateNode} (h : AggHolds N names w agg) {ac : ℕ} (hac : ac ≤ N)
    (hflag : ∀ i < N, w (.isActive agg.aggregateId) i = bit (decide (i < ac))) {f : ℕ → Bool}
    (hf : ∀ i < N, agg.expression.eval N w i = bit (f i)) :
    w (.value agg.aggregateId) 0 = bit (aggregateOf agg.kind ac f) := by
  obtain ⟨z, block, hr, hb⟩ := h
  obtain ⟨cmp, -, hhead, htail, hbody⟩ := block_body hr
  have h0 := hb.head
  rw [hhead, CircomStmt.Holds, chainInit_eval] at h0
  have ht := hb.tail
  rw [htail] at ht
  simp only [CircomStmt.Holds, Subscript.cell, CircomExpr.eval] at ht
  -- the row's contribution, then the recurrence of the chain
  have hdv : ∀ i < N, w (.decisionValid agg.aggregateId) i =
      bit (contribution agg.kind (decide (i < ac)) (f i)) := by
    intro i hi
    have hrow := hb.body i hi (.assign (.decisionValid agg.aggregateId) .loop
      (decisionAssignment agg.aggregateId agg.expression agg.kind)) (by rw [hbody]; simp)
    rw [CircomStmt.Holds, decisionAssignment_eval (hflag i hi) (hf i hi)] at hrow
    exact hrow
  have hstep : ∀ i < N, w (.chain agg.aggregateId) (i + 1) = chainNext agg.kind
      (w (.chain agg.aggregateId) i) (bit (contribution agg.kind (decide (i < ac)) (f i))) := by
    intro i hi
    have hlink := hb.body i hi (.assign (.chain agg.aggregateId) .loopSucc (chainUpdate agg.aggregateId agg.kind))
      (by rw [hbody]; simp)
    rw [CircomStmt.Holds, chainUpdate_eval, hdv i hi] at hlink
    exact hlink
  rw [ht, chain_value h0 hstep N le_rfl, aggregateOf_contribution hac]

/-! ## The builder only appends -/

/-- Everything collected so far stays collected. -/
structure Builder.Le (b b' : Builder) : Prop where
  aggregates : b.aggregates ⊆ b'.aggregates
  comparisons : ∀ a, b.comparisonsByAggregate a ⊆ b'.comparisonsByAggregate a

theorem Builder.Le.refl (b : Builder) : b.Le b := ⟨List.Subset.refl _, fun _ => List.Subset.refl _⟩

theorem Builder.Le.trans {a b c : Builder} (h1 : a.Le b) (h2 : b.Le c) : a.Le c :=
  ⟨List.Subset.trans h1.aggregates h2.aggregates,
    fun i => List.Subset.trans (h1.comparisons i) (h2.comparisons i)⟩

theorem addComparison_le (b : Builder) (a : ℕ) (c : ComparisonExpr) : b.Le (b.addComparison a c) := by
  refine ⟨List.Subset.refl _, fun i => ?_⟩
  simp only [Builder.addComparison]
  split
  · exact List.subset_append_left _ _
  · exact List.Subset.refl _

theorem openAggregate_le (b : Builder) : b.Le b.openAggregate :=
  ⟨List.Subset.refl _, fun _ => List.Subset.refl _⟩

theorem closeAggregate_le (b : Builder) (a : ℕ) (kind : AggregateKind) (e : CircomExpr) :
    b.Le (b.closeAggregate a kind e) :=
  ⟨List.subset_append_left _ _, fun _ => List.Subset.refl _⟩

theorem renderBooleanArgs_le_of {l : List DecisionExpr}
    (hl : ∀ e ∈ l, ∀ (a : ℕ) (b : Builder), b.Le (renderBooleanExpr a e b).2) :
    ∀ (a : ℕ) (b : Builder), b.Le (renderBooleanArgs a l b).2 := by
  induction l with
  | nil => intro a b; exact .refl b
  | cons e es ih =>
    intro a b
    exact (hl e (by simp) a b).trans (ih (fun x hx => hl x (by simp [hx])) a _)

theorem renderBooleanExpr_le (e : DecisionExpr) :
    ∀ (a : ℕ) (b : Builder), b.Le (renderBooleanExpr a e b).2 := by
  induction e with
  | comparison c => intro a b; exact addComparison_le b a c
  | and args ih => intro a b; exact renderBooleanArgs_le_of ih a b
  | or args ih => intro a b; exact renderBooleanArgs_le_of ih a b
  | not inner ih => intro a b; exact ih a b
  | aggregate kind inner ih =>
    intro a b
    exact ((openAggregate_le b).trans (ih b.nextAggregateId b.openAggregate)).trans
      (closeAggregate_le _ _ _ _)

theorem renderBooleanArgs_le (l : List DecisionExpr) (a : ℕ) (b : Builder) :
    b.Le (renderBooleanArgs a l b).2 :=
  renderBooleanArgs_le_of (fun e _ => renderBooleanExpr_le e) a b

/-! ## Boolean connectives as polynomials -/

theorem foldl_mul_eval (i : ℕ) : ∀ (parts : List CircomExpr) (p : CircomExpr),
    (parts.foldl .mul p).eval N w i = p.eval N w i * (parts.map fun q => q.eval N w i).prod := by
  intro parts
  induction parts with
  | nil => intro p; simp
  | cons q qs ih => intro p; rw [List.foldl_cons, ih, List.map_cons, List.prod_cons, CircomExpr.eval, mul_assoc]

/-- The parts of a connective evaluate to the truth values of its arguments. -/
def PartsMean (B : Batch) (N : ℕ) (w : Assignment) (i : ℕ) (parts : List CircomExpr) (l : List DecisionExpr) :
    Prop :=
  List.Forall₂ (fun p e => p.eval N w i = bit (e.holdsAt B i)) parts l

theorem parts_prod {i : ℕ} {parts : List CircomExpr} {l : List DecisionExpr} (h : PartsMean B N w i parts l) :
    (parts.map fun q => q.eval N w i).prod = bit (DecisionExpr.holdsAll B i l) := by
  induction h with
  | nil => rfl
  | cons hp _ ih => rw [List.map_cons, List.prod_cons, ih, hp, DecisionExpr.holdsAll, bit_and]

/-- **Products are conjunctions.** -/
theorem conjunction_eval {i : ℕ} {parts : List CircomExpr} {l : List DecisionExpr}
    (h : PartsMean B N w i parts l) : (conjunction parts).eval N w i = bit (DecisionExpr.holdsAll B i l) := by
  rw [← parts_prod h]
  cases parts with
  | nil => simp [conjunction, CircomExpr.eval]
  | cons p ps => rw [conjunction, CircomExpr.eval, foldl_mul_eval, List.map_cons, List.prod_cons]

/-- **The running `a + b - ab` is the disjunction.** -/
theorem foldl_disjoin_eval {i : ℕ} : ∀ {parts : List CircomExpr} {l : List DecisionExpr},
    PartsMean B N w i parts l → ∀ {acc : CircomExpr} {t : Bool}, acc.eval N w i = bit t →
      (parts.foldl disjoin acc).eval N w i = bit (t || DecisionExpr.holdsAny B i l) := by
  intro parts l h
  induction h with
  | nil => intro acc t hacc; simpa [DecisionExpr.holdsAny] using hacc
  | @cons p e ps es hp _ ih =>
    intro acc t hacc
    have hstep : (disjoin acc p).eval N w i = bit (t || e.holdsAt B i) := by
      simp only [disjoin, CircomExpr.eval, hacc, hp, bit_or]
    rw [List.foldl_cons, ih hstep, DecisionExpr.holdsAny, Bool.or_assoc]

theorem disjunction_eval {i : ℕ} {parts : List CircomExpr} {l : List DecisionExpr}
    (h : PartsMean B N w i parts l) : (disjunction parts).eval N w i = bit (DecisionExpr.holdsAny B i l) := by
  cases h with
  | nil => simp [disjunction, CircomExpr.eval, DecisionExpr.holdsAny]
  | cons hp hps => rw [disjunction, foldl_disjoin_eval hps hp, DecisionExpr.holdsAny]

/-! ## Soundness of the row expression -/

/-- The value nodes are the operands of the comparisons. -/
theorem values_eq (e : DecisionExpr) : e.values = e.comparisons.flatMap fun c => [c.left, c.right] := by
  have hargs : ∀ l : List DecisionExpr,
      (∀ e ∈ l, e.values = e.comparisons.flatMap fun c => [c.left, c.right]) →
      DecisionExpr.valuesArgs l = (DecisionExpr.comparisonsArgs l).flatMap fun c => [c.left, c.right] := by
    intro l
    induction l with
    | nil => intro _; rfl
    | cons e es ih =>
      intro hl
      rw [DecisionExpr.valuesArgs, DecisionExpr.comparisonsArgs, List.flatMap_append, hl e (by simp),
        ih fun x hx => hl x (by simp [hx])]
  induction e with
  | comparison c => rfl
  | and args ih => exact hargs args ih
  | or args ih => exact hargs args ih
  | not inner ih => exact ih
  | aggregate kind inner ih => exact ih

theorem comparisons_arg {l : List DecisionExpr} {P : ComparisonExpr → Prop}
    (h : ∀ c ∈ DecisionExpr.comparisonsArgs l, P c) {e : DecisionExpr} (he : e ∈ l) : ∀ c ∈ e.comparisons, P c := by
  induction l with
  | nil => cases he
  | cons e' es ih =>
    rw [DecisionExpr.comparisonsArgs, List.forall_mem_append] at h
    rcases List.mem_cons.1 he with rfl | he
    · exact h.1
    · exact ih h.2 he

/-- Every comparator of a comparison outputs what the comparison says of the batch. -/
def ComparisonMeans (B : Batch) (N : ℕ) (names : List String) (w : Assignment) (c : ComparisonExpr) : Prop :=
  ∀ id, NodeHolds N names w ⟨id, c.op, c.left, c.right⟩ → ∀ i < N,
    w (.port (.cmp id) .out) i = bit (c.op.holds (B.valueAt i c.left) (B.valueAt i c.right))

/-- So it does where the operands are in the lower part of the field. -/
theorem comparisonMeans_below (hin : B.Inputs N names w) {e : DecisionExpr}
    (hv : ValuesBelow fieldBound B N e.values) : ∀ c ∈ e.comparisons, ComparisonMeans B N names w c := by
  intro c hc id hnode i hi
  refine node_out hin hnode (fun v hmem => hv v ?_) hi
  rw [values_eq]
  exact List.mem_flatMap.2 ⟨c, hc, hmem⟩

/-- The row expression of `e` carries its meaning in every assignment that satisfies the
aggregates and comparators collected when it is done. -/
def CircomMeans (B : Batch) (N : ℕ) (names : List String) (w : Assignment) (e : DecisionExpr) : Prop :=
  ∀ a b, (∀ agg ∈ (renderBooleanExpr a e b).2.aggregates, AggHolds N names w agg) →
    (∀ node ∈ (renderBooleanExpr a e b).2.comparisonsByAggregate a, NodeHolds N names w node) →
    ∀ i < N, (renderBooleanExpr a e b).1.eval N w i = bit (e.holdsAt B i)

theorem args_mean {l : List DecisionExpr} (hl : ∀ e ∈ l, CircomMeans B N names w e) :
    ∀ a b, (∀ agg ∈ (renderBooleanArgs a l b).2.aggregates, AggHolds N names w agg) →
      (∀ node ∈ (renderBooleanArgs a l b).2.comparisonsByAggregate a, NodeHolds N names w node) →
      ∀ i < N, PartsMean B N w i (renderBooleanArgs a l b).1 l := by
  induction l with
  | nil => intro a b _ _ i _; exact .nil
  | cons e es ih =>
    intro a b hagg hnode i hi
    -- what holds of the final builder holds of the one after the first argument
    have hle := renderBooleanArgs_le es a (renderBooleanExpr a e b).2
    refine .cons (hl e (by simp) a b (fun agg h => hagg agg (hle.aggregates h))
      (fun node h => hnode node (hle.comparisons a h)) i hi) ?_
    exact ih (fun x hx => hl x (by simp [hx])) a _ hagg hnode i hi

/-- **The row expression carries the meaning of the decision**, if its comparators do. By induction
on the decision; a quantifier closes with all comparators of its own rows, so its block gives its
value. -/
theorem renderBooleanExpr_eval (hac : B.activeCount ≤ N)
    (hflag : ∀ agg, AggHolds N names w agg → ∀ i < N,
      w (.isActive agg.aggregateId) i = bit (decide (i < B.activeCount)))
    (e : DecisionExpr) : (∀ c ∈ e.comparisons, ComparisonMeans B N names w c) → CircomMeans B N names w e := by
  induction e with
  | comparison c =>
    intro hc a b _ hnode i hi
    have hmem : (⟨b.nextComparisonId, c.op, c.left, c.right⟩ : CircomComparisonNode) ∈
        (b.addComparison a c).comparisonsByAggregate a := by simp [Builder.addComparison]
    exact hc c (List.mem_singleton.2 rfl) _ (hnode _ hmem) i hi
  | and args ih =>
    intro hc a b hagg hnode i hi
    exact conjunction_eval (args_mean (fun e he => ih e he (comparisons_arg hc he)) a b hagg hnode i hi)
  | or args ih =>
    intro hc a b hagg hnode i hi
    exact disjunction_eval (args_mean (fun e he => ih e he (comparisons_arg hc he)) a b hagg hnode i hi)
  | not inner ih =>
    intro hc a b hagg hnode i hi
    have hinner := ih hc a b hagg hnode i hi
    simp only [renderBooleanExpr, CircomExpr.eval, Int.cast_one, hinner, DecisionExpr.holdsAt, bit_not]
  | aggregate kind inner ih =>
    intro hc a b hagg _ i _
    set r := renderBooleanExpr b.nextAggregateId inner b.openAggregate with hr
    -- the node the aggregate closes with
    set agg : CircomAggregateNode :=
      ⟨b.nextAggregateId, kind, r.1, r.2.comparisonsByAggregate b.nextAggregateId⟩ with hdef
    have hself : AggHolds N names w agg := hagg agg (by
      simp only [renderBooleanExpr, Builder.closeAggregate]
      exact List.mem_append_right _ (List.mem_singleton.2 rfl))
    -- its own comparators hold because its block does
    have hrow : ∀ j < N, agg.expression.eval N w j = bit (inner.holdsAt B j) :=
      ih hc b.nextAggregateId b.openAggregate
        (fun x hx => hagg x (List.mem_append_left _ hx)) (fun node hn => aggHolds_node hself hn)
    rw [holdsAt_aggregate]
    exact block_value hself hac (hflag agg hself) hrow

end Vellum
