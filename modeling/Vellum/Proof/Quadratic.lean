import Vellum.Proof.Accepted
import Vellum.Proof.Builder
import Vellum.Spec.Constraints

/-!
# Which decisions compile

Circom admits constraints `A * B + C = 0` with affine `A`, `B`, `C`. The builder writes a
row's whole expression into one assignment and multiplies it by the activity flag, so the
degree of that line is one more than the number of leaves of the row expression.

* `render_degree`: the degree of a row expression, by induction on the decision.
* `connectiveFree_iff`: all row expressions are affine exactly when no `and` or `or` occurs.
* `decisionAssignment_quadratic`: the one line whose degree grows.
* `emitted_quadratic_iff`: the emitted constraints are all quadratic exactly then.
-/

namespace Vellum

open MvPolynomial

namespace DecisionExpr

mutual

/-- The leaves of a row expression: comparators and values of inner quantifiers. -/
def rowDegree : DecisionExpr → ℕ
  | comparison _ => 1
  | and args => rowDegreeArgs args
  | or args => rowDegreeArgs args
  | not inner => inner.rowDegree
  | aggregate _ _ => 1

def rowDegreeArgs : List DecisionExpr → ℕ
  | [] => 0
  | e :: es => e.rowDegree + rowDegreeArgs es

end

/-- The decision has no `and` and no `or`. -/
def connectiveFree : DecisionExpr → Bool
  | comparison _ => true
  | and _ => false
  | or _ => false
  | not inner => inner.connectiveFree
  | aggregate _ inner => inner.connectiveFree

theorem wellFormedArgs_iff {l : List DecisionExpr} : wellFormedArgs l = true ↔ ∀ e ∈ l, e.wellFormed = true := by
  induction l with
  | nil => simp [wellFormedArgs]
  | cons e es ih => rw [wellFormedArgs, Bool.and_eq_true, ih, List.forall_mem_cons]

/-- The arguments of a well-formed connective. -/
theorem wellFormed_connective {args : List DecisionExpr}
    (h : (decide (2 ≤ args.length) && wellFormedArgs args) = true) :
    2 ≤ args.length ∧ ∀ e ∈ args, e.wellFormed = true := by
  rw [Bool.and_eq_true, decide_eq_true_eq, wellFormedArgs_iff] at h
  exact h

theorem length_le_rowDegreeArgs {l : List DecisionExpr} (h : ∀ e ∈ l, 1 ≤ e.rowDegree) :
    l.length ≤ rowDegreeArgs l := by
  induction l with
  | nil => exact le_rfl
  | cons e es ih =>
    have he := h e (by simp)
    have hes := ih fun x hx => h x (by simp [hx])
    rw [rowDegreeArgs, List.length_cons]
    omega

/-- Every row expression has a leaf. -/
theorem rowDegree_pos (e : DecisionExpr) : e.wellFormed = true → 1 ≤ e.rowDegree := by
  have hargs : ∀ args : List DecisionExpr, (∀ e ∈ args, e.wellFormed = true → 1 ≤ e.rowDegree) →
      (decide (2 ≤ args.length) && wellFormedArgs args) = true → 1 ≤ rowDegreeArgs args := by
    intro args ih h
    obtain ⟨hlen, hwf⟩ := wellFormed_connective h
    have hle := length_le_rowDegreeArgs fun e he => ih e he (hwf e he)
    omega
  induction e with
  | comparison c => intro _; exact le_rfl
  | and args ih => exact hargs args ih
  | or args ih => exact hargs args ih
  | not inner ih => exact ih
  | aggregate kind inner ih => intro _; exact le_rfl

theorem two_le_rowDegreeArgs {args : List DecisionExpr}
    (h : (decide (2 ≤ args.length) && wellFormedArgs args) = true) : 2 ≤ rowDegreeArgs args := by
  obtain ⟨hlen, hwf⟩ := wellFormed_connective h
  exact hlen.trans (length_le_rowDegreeArgs fun e he => rowDegree_pos e (hwf e he))

/-- **No connective, no growth.** -/
theorem connectiveFree_iff (e : DecisionExpr) : e.wellFormed = true →
    (e.connectiveFree = true ↔ e.rowDegree ≤ 1 ∧ ∀ q ∈ e.quantifiers, q.2.rowDegree ≤ 1) := by
  induction e with
  | comparison c => intro _; simp [connectiveFree, rowDegree, quantifiers]
  | and args ih =>
    intro h
    have h2 := two_le_rowDegreeArgs h
    simp only [connectiveFree, rowDegree, Bool.false_eq_true, false_iff, not_and]
    omega
  | or args ih =>
    intro h
    have h2 := two_le_rowDegreeArgs h
    simp only [connectiveFree, rowDegree, Bool.false_eq_true, false_iff, not_and]
    omega
  | not inner ih => exact ih
  | aggregate kind inner ih =>
    intro h
    rw [connectiveFree, ih h, rowDegree, quantifiers, List.forall_mem_cons, and_iff_right le_rfl]

theorem quantifiersArgs_wellFormed {l : List DecisionExpr}
    (hl : ∀ e ∈ l, e.wellFormed = true → ∀ q ∈ e.quantifiers, q.2.wellFormed = true)
    (h : ∀ e ∈ l, e.wellFormed = true) : ∀ q ∈ quantifiersArgs l, q.2.wellFormed = true := by
  induction l with
  | nil => intro q hq; simp [quantifiersArgs] at hq
  | cons e es ih =>
    intro q hq
    rw [quantifiersArgs, List.mem_append] at hq
    rcases hq with hq | hq
    · exact hl e (by simp) (h e (by simp)) q hq
    · exact ih (fun x hx => hl x (by simp [hx])) (fun x hx => h x (by simp [hx])) q hq

theorem quantifiers_wellFormed (e : DecisionExpr) :
    e.wellFormed = true → ∀ q ∈ e.quantifiers, q.2.wellFormed = true := by
  induction e with
  | comparison c => intro _ q hq; simp [quantifiers] at hq
  | and args ih => intro h; exact quantifiersArgs_wellFormed ih (wellFormed_connective h).2
  | or args ih => intro h; exact quantifiersArgs_wellFormed ih (wellFormed_connective h).2
  | not inner ih => exact ih
  | aggregate kind inner ih =>
    intro h
    rw [quantifiers, List.forall_mem_cons]
    exact ⟨h, ih h⟩

end DecisionExpr

/-! ## The degree of a row expression -/

variable {N i : ℕ}

/-- The degree of an expression at loop index `i`. -/
noncomputable def CircomExpr.degree (N i : ℕ) (e : CircomExpr) : ℕ := (e.poly N i).totalDegree

theorem degree_mul {a b : CircomExpr} (ha : 1 ≤ a.degree N i) (hb : 1 ≤ b.degree N i) :
    (CircomExpr.mul a b).degree N i = a.degree N i + b.degree N i :=
  totalDegree_mul_pos ha hb

theorem degree_disjoin {a b : CircomExpr} (ha : 1 ≤ a.degree N i) (hb : 1 ≤ b.degree N i) :
    (disjoin a b).degree N i = a.degree N i + b.degree N i :=
  totalDegree_join ha hb

/-- The parts of a connective have the degrees of its arguments. -/
def PartsDegree (N i : ℕ) (parts : List CircomExpr) (l : List DecisionExpr) : Prop :=
  List.Forall₂ (fun p e => p.degree N i = e.rowDegree ∧ 1 ≤ e.rowDegree) parts l

/-- Both loops add the degrees up. -/
theorem foldl_degree {f : CircomExpr → CircomExpr → CircomExpr}
    (hf : ∀ {a b}, 1 ≤ a.degree N i → 1 ≤ b.degree N i → (f a b).degree N i = a.degree N i + b.degree N i)
    {parts : List CircomExpr} {l : List DecisionExpr} (h : PartsDegree N i parts l) :
    ∀ acc : CircomExpr, 1 ≤ acc.degree N i →
      (parts.foldl f acc).degree N i = acc.degree N i + DecisionExpr.rowDegreeArgs l := by
  induction h with
  | nil => intro acc _; rfl
  | @cons p e ps es hp _ ih =>
    intro acc hacc
    have hstep := hf hacc (hp.1 ▸ hp.2)
    rw [List.foldl_cons, ih _ (by omega), hstep, hp.1, DecisionExpr.rowDegreeArgs, Nat.add_assoc]

theorem conjunction_degree {parts : List CircomExpr} {l : List DecisionExpr} (h : PartsDegree N i parts l) :
    (conjunction parts).degree N i = DecisionExpr.rowDegreeArgs l := by
  cases h with
  | nil =>
    have h0 : ((CircomExpr.int 1).poly N i).totalDegree = 0 := totalDegree_C _
    exact h0
  | @cons p e ps es hp hps =>
    have hfold := foldl_degree degree_mul hps p (hp.1 ▸ hp.2)
    rw [DecisionExpr.rowDegreeArgs, ← hp.1, ← hfold]
    rfl

theorem disjunction_degree {parts : List CircomExpr} {l : List DecisionExpr} (h : PartsDegree N i parts l) :
    (disjunction parts).degree N i = DecisionExpr.rowDegreeArgs l := by
  cases h with
  | nil =>
    have h0 : ((CircomExpr.int 0).poly N i).totalDegree = 0 := totalDegree_C _
    exact h0
  | @cons p e ps es hp hps =>
    rw [DecisionExpr.rowDegreeArgs, ← hp.1]
    exact foldl_degree degree_disjoin hps p (hp.1 ▸ hp.2)

theorem renderArgs_degree {l : List DecisionExpr} (hwf : ∀ e ∈ l, e.wellFormed = true)
    (hl : ∀ e ∈ l, e.wellFormed = true → ∀ a b, (renderBooleanExpr a e b).1.degree N i = e.rowDegree) :
    ∀ a b, PartsDegree N i (renderBooleanArgs a l b).1 l := by
  induction l with
  | nil => intro a b; exact .nil
  | cons e es ih =>
    intro a b
    have he := hwf e (by simp)
    refine .cons ⟨hl e (by simp) he a b, e.rowDegree_pos he⟩ ?_
    exact ih (fun x hx => hwf x (by simp [hx])) (fun x hx => hl x (by simp [hx])) a _

/-- **The degree of a row expression** is the number of its leaves. -/
theorem render_degree (e : DecisionExpr) : e.wellFormed = true →
    ∀ a b, (renderBooleanExpr a e b).1.degree N i = e.rowDegree := by
  induction e with
  | comparison c => intro _ a b; exact totalDegree_X _
  | and args ih =>
    intro h a b
    exact conjunction_degree (renderArgs_degree (DecisionExpr.wellFormed_connective h).2 ih a b)
  | or args ih =>
    intro h a b
    exact disjunction_degree (renderArgs_degree (DecisionExpr.wellFormed_connective h).2 ih a b)
  | not inner ih =>
    intro h a b
    have hin := ih h a b
    have hpos := inner.rowDegree_pos h
    have hone : (CircomExpr.int 1).poly N i = 1 := by simp [CircomExpr.poly]
    rw [DecisionExpr.rowDegree, ← hin]
    unfold CircomExpr.degree at hin ⊢
    simp only [renderBooleanExpr, CircomExpr.poly] at hone ⊢
    rw [hone]
    exact totalDegree_one_sub (by omega)
  | aggregate kind inner ih => intro _ a b; exact totalDegree_X _

/-! ## The statements of a block -/

theorem quadratic_affine {c : Constraint} (hl : IsAffine c.lhs) (hr : IsAffine c.rhs) : c.Quadratic :=
  isQuadratic_of_isAffine (isAffine_sub hr hl)

/-- The constraint of a row's contribution. -/
noncomputable def rowConstraint (N i aggId : ℕ) (e : CircomExpr) (kind : AggregateKind) : Constraint :=
  ⟨X (.signal (.decisionValid aggId) i), (decisionAssignment aggId e kind).poly N i⟩

/-- **The line whose degree grows.** It is quadratic exactly when the row expression is affine. -/
theorem decisionAssignment_quadratic {aggId : ℕ} {e : CircomExpr} {kind : AggregateKind} (he : 1 ≤ e.degree N i) :
    (rowConstraint N i aggId e kind).Quadratic ↔ e.degree N i ≤ 1 := by
  have hflag : (X (Cell.signal (.isActive aggId) i) : MvPolynomial Cell F).totalDegree = 1 := totalDegree_X _
  have hprod : (e.poly N i * X (Cell.signal (.isActive aggId) i)).totalDegree = e.degree N i + 1 := by
    rw [totalDegree_mul_pos he hflag.ge, hflag]
    rfl
  have hdv : IsAffine (X (Cell.signal (.decisionValid aggId) i) : MvPolynomial Cell F) := isAffine_X _
  have hneutral : IsAffine (C ((1 : ℤ) : F) - X (Cell.signal (.isActive aggId) i) : MvPolynomial Cell F) :=
    isAffine_sub (isAffine_C _) (isAffine_X _)
  -- the constraint is a product and an affine rest, for both kinds
  obtain ⟨rest, hrest, heq⟩ : ∃ rest, IsAffine rest ∧
      (rowConstraint N i aggId e kind).rhs - (rowConstraint N i aggId e kind).lhs =
        e.poly N i * X (.signal (.isActive aggId) i) + rest := by
    cases kind with
    | all =>
      refine ⟨_, isAffine_sub hneutral hdv, ?_⟩
      simp only [rowConstraint, decisionAssignment, CircomExpr.poly, Subscript.cell]
      ring
    | any =>
      refine ⟨_, isAffine_sub (isAffine_C 0) hdv, ?_⟩
      simp only [rowConstraint, decisionAssignment, CircomExpr.poly, Subscript.cell, C_0]
      ring
  unfold Constraint.Quadratic
  rw [heq]
  constructor
  · intro h
    have hdeg := totalDegree_le_two h
    unfold IsAffine at hrest
    rw [totalDegree_add_eq_left_of_totalDegree_lt (by omega), hprod] at hdeg
    omega
  · intro h
    exact ⟨_, _, rest, h, hflag.le, hrest, rfl⟩

/-- The link of a chain is quadratic. -/
theorem chainUpdate_quadratic (aggId : ℕ) (kind : AggregateKind) :
    (⟨X (.signal (.chain aggId) (i + 1)), (chainUpdate aggId kind).poly N i⟩ : Constraint).Quadratic := by
  have hx : ∀ c : Cell, IsAffine (X c : MvPolynomial Cell F) := fun c => isAffine_X c
  cases kind with
  | all =>
    refine ⟨X (.signal (.chain aggId) i), X (.signal (.decisionValid aggId) i),
      C 0 - X (.signal (.chain aggId) (i + 1)),
      hx _, hx _, isAffine_sub (isAffine_C 0) (hx _), ?_⟩
    simp only [chainUpdate, CircomExpr.poly, Subscript.cell, C_0]
    ring
  | any =>
    refine ⟨C 0 - X (.signal (.chain aggId) i), X (.signal (.decisionValid aggId) i),
      X (.signal (.chain aggId) i) + X (.signal (.decisionValid aggId) i) - X (.signal (.chain aggId) (i + 1)),
      isAffine_sub (isAffine_C 0) (hx _), hx _, isAffine_sub (isAffine_add (hx _) (hx _)) (hx _), ?_⟩
    simp only [chainUpdate, CircomExpr.poly, Subscript.cell, C_0]
    ring

/-- An expression that is a signal, a constant or the loop variable. -/
def CircomExpr.isLeaf : CircomExpr → Bool
  | .signal .. | .int _ | .loopVar => true
  | _ => false

theorem isLeaf_affine {e : CircomExpr} (h : e.isLeaf = true) : IsAffine (e.poly N i) := by
  cases e with
  | signal s j => exact isAffine_X _
  | int c => exact isAffine_C _
  | loopVar => exact isAffine_C _
  | _ => cases h

/-- A statement that assigns a leaf, or instantiates. -/
def CircomStmt.isWire : CircomStmt → Bool
  | .assign _ _ rhs => rhs.isLeaf
  | .instantiate .. => true

theorem isWire_quadratic {s : CircomStmt} (h : s.isWire = true) {c : Constraint} (hc : s.constraint? N i = some c) :
    c.Quadratic := by
  cases s with
  | assign s j rhs =>
    rw [CircomStmt.constraint?, Option.some.injEq] at hc
    subst hc
    exact quadratic_affine (isAffine_X _) (isLeaf_affine h)
  | instantiate c t => cases hc

theorem renderCircomParam_leaf {names : List String} {name : String} {e : CircomExpr}
    (h : renderCircomParam names name = .ok e) : e.isLeaf = true := by
  unfold renderCircomParam at h
  split at h
  · cases h; rfl
  · cases h

theorem renderCircomValue_leaf {names : List String} {v : ValueRef} {e : CircomExpr}
    (h : renderCircomValue names v = .ok e) : e.isLeaf = true := by
  cases v with
  | constInt c => cases h; rfl
  | param p => exact renderCircomParam_leaf h
  | ref s =>
    simp only [renderCircomValue] at h
    split_ifs at h
    · cases h; rfl
    · cases h; rfl
    · cases h; rfl
    · exact renderCircomParam_leaf h

theorem cmpLines_wire {names : List String} {node : CircomComparisonNode} {stmts : List CircomStmt}
    (h : cmpLines names node = .ok stmts) : ∀ s ∈ stmts, s.isWire = true := by
  simp only [cmpLines, bind_ok, pure_ok] at h
  obtain ⟨l, hl, r, hr, rfl⟩ := h
  simp only [List.forall_mem_cons, CircomStmt.isWire, renderCircomValue_leaf hl, renderCircomValue_leaf hr, true_and]
  simp

/-- The statements of a block's loop: wires, the row's contribution, the link of the chain. -/
theorem block_body_cases {agg : CircomAggregateNode} {zeroTail : Bool} {names : List String} {block : CircomBlock}
    (h : renderCircomAggregateBlock agg zeroTail names = .ok block) : ∀ s ∈ block.body, s.isWire = true ∨
      s = .assign (.decisionValid agg.aggregateId) .loop (decisionAssignment agg.aggregateId agg.expression agg.kind) ∨
      s = .assign (.chain agg.aggregateId) .loopSucc (chainUpdate agg.aggregateId agg.kind) := by
  intro s hs
  rcases mem_body h hs with hs | ⟨node, -, stmts, hline, hs⟩ | hs | hs | hs
  · left
    simp only [activeFlagLines, List.mem_cons, List.not_mem_nil, or_false] at hs
    rcases hs with rfl | rfl | rfl | rfl <;> rfl
  · exact Or.inl (cmpLines_wire hline s hs)
  · exact Or.inr (Or.inl hs)
  · left
    simp only [zeroTailLines, List.mem_cons, List.not_mem_nil, or_false] at hs
    rcases hs with rfl | rfl | rfl | rfl | rfl | rfl <;> rfl
  · exact Or.inr (Or.inr hs)

theorem mem_constraints {block : CircomBlock} {c : Constraint} : c ∈ block.constraints N ↔
    block.head.constraint? N 0 = some c ∨ (∃ i < N, ∃ s ∈ block.body, s.constraint? N i = some c) ∨
      block.tail.constraint? N 0 = some c := by
  simp only [CircomBlock.constraints, List.mem_append, Option.mem_toList, List.mem_flatMap, List.mem_range,
    List.mem_filterMap, or_assoc]

/-- **The constraints of a block** are quadratic exactly when its row expression is affine. -/
theorem block_quadratic {agg : CircomAggregateNode} {zeroTail : Bool} {names : List String} {block : CircomBlock}
    (h : renderCircomAggregateBlock agg zeroTail names = .ok block) (hN : 0 < N) {d : ℕ} (hpos : 1 ≤ d)
    (hd : ∀ i, agg.expression.degree N i = d) : (∀ c ∈ block.constraints N, c.Quadratic) ↔ d ≤ 1 := by
  obtain ⟨cmp, -, hhead, htail, hbody⟩ := block_body h
  constructor
  · intro hall
    have hmem : CircomStmt.assign (.decisionValid agg.aggregateId) .loop
        (decisionAssignment agg.aggregateId agg.expression agg.kind) ∈ block.body := by
      rw [hbody]
      simp
    have hrow := hall (rowConstraint N 0 agg.aggregateId agg.expression agg.kind)
      (mem_constraints.2 (Or.inr (Or.inl ⟨0, hN, _, hmem, rfl⟩)))
    rw [decisionAssignment_quadratic (by rw [hd]; exact hpos), hd] at hrow
    exact hrow
  · intro hle c hc
    rcases mem_constraints.1 hc with hc | ⟨i, -, s, hs, hc⟩ | hc
    · have hwire : block.head.isWire = true := by
        rw [hhead]
        cases agg.kind <;> rfl
      exact isWire_quadratic hwire hc
    · rcases block_body_cases h s hs with hwire | rfl | rfl
      · exact isWire_quadratic hwire hc
      · obtain rfl := Option.some.inj hc
        exact (decisionAssignment_quadratic (by rw [hd]; exact hpos)).2 (by rw [hd]; exact hle)
      · obtain rfl := Option.some.inj hc
        exact chainUpdate_quadratic agg.aggregateId agg.kind
    · have hwire : block.tail.isWire = true := by
        rw [htail]
        rfl
      exact isWire_quadratic hwire hc

/-! ## The circuit -/

theorem wire_affine (p : ℕ) (wire : Wire) : IsAffine (wire.poly p) := by
  unfold Wire.poly
  cases wire.cell? p with
  | none =>
    rw [Option.elim_none, ← C_0]
    exact isAffine_C 0
  | some c => exact isAffine_X c

/-- The lines around the blocks are affine. -/
theorem wireConstraints_quadratic {outputs : Dict OutputSpec} {rootId parameters : ℕ} :
    ∀ c ∈ wireConstraints outputs rootId parameters, c.Quadratic := by
  have hline : ∀ (p : ℕ) (line : WireLine), (line.constraint p).Quadratic := fun p line =>
    quadratic_affine (wire_affine p line.lhs) (wire_affine p line.rhs)
  intro c hc
  unfold wireConstraints at hc
  simp only [List.mem_append, List.mem_singleton, List.mem_map] at hc
  rcases hc with (rfl | hc) | ⟨o, -, rfl⟩
  · exact hline _ _
  · split_ifs at hc
    · simp at hc
    · simp only [List.mem_append, List.mem_map, List.mem_cons, List.not_mem_nil, or_false] at hc
      rcases hc with ⟨p, -, rfl⟩ | rfl | rfl <;> exact hline _ _
  · exact hline _ _

/-- **The blocks of a decision** are quadratic exactly when it has no `and` and no `or`. -/
theorem renderBlocks_quadratic {names : List String} {kind : AggregateKind} {inner : DecisionExpr}
    {blocks : List CircomBlock} (hblocks : renderBlocks names kind inner = .ok blocks)
    (hwf : (DecisionExpr.aggregate kind inner).wellFormed = true) (hN : 0 < N) :
    (∀ block ∈ blocks, ∀ c ∈ block.constraints N, c.Quadratic) ↔
      (DecisionExpr.aggregate kind inner).connectiveFree = true := by
  rw [DecisionExpr.connectiveFree_iff _ hwf, DecisionExpr.rowDegree, and_iff_right le_rfl]
  -- an aggregate has the degree of the quantifier it was registered for
  have hdeg : ∀ q ∈ (DecisionExpr.aggregate kind inner).quantifiers, ∀ agg, Registers q agg →
      1 ≤ q.2.rowDegree ∧ ∀ i, agg.expression.degree N i = q.2.rowDegree := by
    rintro q hq agg ⟨-, b, hb⟩
    have hq' := DecisionExpr.quantifiers_wellFormed _ hwf q hq
    refine ⟨q.2.rowDegree_pos hq', fun i => ?_⟩
    rw [hb]
    exact render_degree q.2 hq' _ b
  have hforall := mapM_ok.1 hblocks
  constructor
  · intro hall q hq
    obtain ⟨agg, hagg, hreg⟩ := quantifier_aggregate _ 0 .init q hq
    obtain ⟨block, hblock, hr⟩ := forall₂_mem_left hforall hagg
    obtain ⟨hpos, hd⟩ := hdeg q hq agg hreg
    exact (block_quadratic hr hN hpos hd).1 (hall block hblock)
  · intro hle block hblock
    obtain ⟨agg, hagg, hr⟩ := forall₂_mem_right hforall hblock
    obtain ⟨q, hq, hreg⟩ := (mem_aggregates (.aggregate kind inner) 0 .init agg hagg).resolve_left
      (by simp [Builder.init])
    obtain ⟨hpos, hd⟩ := hdeg q hq agg hreg
    exact (block_quadratic hr hN hpos hd).2 (hle q hq)

/-- **Which decisions compile.** For every supported spec whose Circom source is rendered, the
emitted constraints are all of the form `A * B + C` with affine `A`, `B`, `C` exactly when the
decision has no `and` and no `or`. -/
theorem emitted_quadratic_iff {spec : PolicyDSLSpec} {kind : AggregateKind} {inner : DecisionExpr}
    {constraints : List Constraint} (hs : ensureSupportedDecision spec = .ok (kind, inner))
    (he : emittedConstraints spec kind inner = .ok constraints) :
    (∀ c ∈ constraints, c.Quadratic) ↔ spec.decision.connectiveFree = true := by
  have hwf := spec.decisionWf
  rw [(ensureSupportedDecision_ok hs).1] at hwf ⊢
  simp only [emittedConstraints, bind_ok, pure_ok] at he
  obtain ⟨blocks, hblocks, rfl⟩ := he
  rw [← renderBlocks_quadratic hblocks hwf spec.batchPos]
  constructor
  · intro hall block hblock c hc
    exact hall c (List.mem_append_right _ (List.mem_flatMap.2 ⟨block, hblock, hc⟩))
  · intro hall c hc
    rw [List.mem_append, List.mem_flatMap] at hc
    rcases hc with hc | ⟨block, hblock, hc⟩
    · exact wireConstraints_quadratic c hc
    · exact hall block hblock c hc

/-! ## A decision that does, and one that does not -/

/-- The constraints of a row spec, once its blocks are rendered. -/
theorem rowSpec_emitted {inner : DecisionExpr} {h : inner.wellFormed = true}
    (hok : (renderBlocks [] .any inner).isOk = true) : ∃ blocks, renderBlocks [] .any inner = .ok blocks ∧
      emittedConstraints (rowSpec inner h) .any inner = .ok (wireConstraints (rowSpec inner h).outputs
        (buildRoot .any inner).1 0 ++ blocks.flatMap fun b => b.constraints 1) := by
  obtain ⟨blocks, hb⟩ := isOk_iff.1 hok
  refine ⟨blocks, hb, ?_⟩
  simp only [emittedConstraints, bind_ok, pure_ok]
  exact ⟨blocks, hb, rfl⟩

/-- A single comparison compiles. -/
theorem emitted_quadratic_comparison : ∃ constraints,
    emittedConstraints (rowSpec balanceAbove (by decide)) .any balanceAbove = .ok constraints ∧
      ∀ c ∈ constraints, c.Quadratic := by
  obtain ⟨blocks, -, he⟩ := rowSpec_emitted (h := by decide)
    (show (renderBlocks [] .any balanceAbove).isOk = true by decide +kernel)
  exact ⟨_, he, (emitted_quadratic_iff (rowSpec_supported (by decide +kernel)) he).2 (by decide)⟩

/-- `balances > 100 and not (limits <= 50)`. -/
def composedRow : DecisionExpr :=
  .and [balanceAbove, .not (.comparison ⟨.le, .ref "limits", .constInt 50⟩)]

/-- **A conjunction does not compile.** The spec is supported and rendered, and the line of its
row's contribution is cubic. -/
theorem composed_not_quadratic :
    ensureSupportedDecision (rowSpec composedRow (by decide)) = .ok (.any, composedRow) ∧
    ∃ constraints, emittedConstraints (rowSpec composedRow (by decide)) .any composedRow = .ok constraints ∧
      ∃ c ∈ constraints, ¬ c.Quadratic := by
  obtain ⟨blocks, hb, he⟩ := rowSpec_emitted (h := by decide)
    (show (renderBlocks [] .any composedRow).isOk = true by decide +kernel)
  refine ⟨rowSpec_supported (by decide +kernel), _, he, ?_⟩
  have hnot : ¬ ∀ block ∈ blocks, ∀ c ∈ block.constraints 1, c.Quadratic := by
    rw [renderBlocks_quadratic hb (by decide) Nat.one_pos]
    decide
  push Not at hnot
  obtain ⟨block, hblock, c, hc, hq⟩ := hnot
  exact ⟨c, List.mem_append_right _ (List.mem_flatMap.2 ⟨block, hblock, hc⟩), hq⟩

end Vellum
