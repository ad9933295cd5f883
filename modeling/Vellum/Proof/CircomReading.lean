import Vellum.Proof.Accepted
import Vellum.Proof.CircomComplete
import Vellum.Proof.Layout
import Vellum.Proof.ModuleTokens
import Vellum.Spec.Reading

/-!
# The emitted constraints mean what they are taken to mean

What a circuit means is stated of syntax trees; what is compiled is text. Read with the precedence of
Circom, the text of every right-hand side is its tree: the renderer writes all the brackets it needs.

* `emitted_read`: an expression with its brackets is read back.
* `rowExpr_operand`: the expression of a row has them.
* `block_emitted`: so have the statements of a block.
* `circom_read_back`: all right-hand sides of an accepted policy.
-/

namespace Vellum

open PySource

/-! ## Circom -/

/-- An atom that a right-hand side may hold: a number has no sign, and no subscript is a sum. -/
def CircomAtom.Emitted : CircomAtom → Prop
  | .signal _ j => j ≠ .loopSucc
  | .int i => 0 ≤ i
  | .loopVar => True

/-- An expression with its brackets. -/
structure CircomExpr.Emitted (e : CircomExpr) : Prop where
  bracketed : e.tree.Bracketed
  atoms : ∀ a ∈ e.tree.atoms, a.Emitted

/-- **An expression means what its tree means.** -/
theorem tree_eval (N : ℕ) (w : Assignment) (i : ℕ) (e : CircomExpr) :
    e.tree.eval (CircomAtom.value N w i) = e.eval N w i := by
  induction e with
  | signal s j => rfl
  | int c => rfl
  | loopVar => rfl
  | add a b iha ihb | sub a b iha ihb | mul a b iha ihb =>
    simp only [CircomExpr.tree, Infix.Expr.eval, CircomExpr.eval, iha, ihb]
  | paren a ih => exact ih

/-- The text of an expression is the text of its tree. -/
theorem tree_text (loopVar : String) (e : CircomExpr) :
    (e.tree.map (CircomAtom.text loopVar)).text = (e.text loopVar).toList := by
  induction e with
  | signal s j => rfl
  | int c => rfl
  | loopVar => rfl
  | add a b iha ihb | sub a b iha ihb | mul a b iha ihb =>
    simp only [CircomExpr.tree, Infix.Expr.map, Infix.Expr.text, CircomExpr.text, iha, ihb, String.toList_append]
  | paren a ih =>
    simp only [CircomExpr.tree, Infix.Expr.map, Infix.Expr.text, CircomExpr.text, ih, String.toList_append]
    rfl

theorem atoms_map {α β : Type} (f : α → β) (e : Infix.Expr α) : (e.map f).atoms = e.atoms.map f := by
  induction e with
  | atom a => rfl
  | add a b iha ihb | sub a b iha ihb | mul a b iha ihb =>
    simp only [Infix.Expr.map, Infix.Expr.atoms, iha, ihb, List.map_append]
  | paren a ih => exact ih

theorem circomWordChar_reserved : Infix.Reserved circomWordChar := by
  have hall : [' ', '+', '-', '*', '(', ')'].all (fun c => !circomWordChar c) = true := rfl
  intro c hc
  simpa using List.all_eq_true.1 hall c hc

/-! ### The texts of atoms -/

/-- Text that is read in one piece. -/
def Piece (cs : List Char) : Prop := cs ≠ [] ∧ cs.all circomWordChar = true

theorem Piece.append {a b : List Char} (ha : Piece a) (hb : b.all circomWordChar = true) : Piece (a ++ b) :=
  ⟨by simp [ha.1], by rw [List.all_append, ha.2, hb, Bool.and_self]⟩

theorem digits_circom (n : ℕ) : n.repr.toList.all circomWordChar = true := by
  rw [Nat.toList_repr, List.all_eq_true]
  intro c hc
  have hword := List.all_eq_true.1 (digits_wordChar n) c hc
  rw [circomWordChar, hword, Bool.true_or]

theorem digits_piece (n : ℕ) : Piece n.repr.toList :=
  ⟨by rw [Nat.toList_repr]; exact Nat.toDigits_ne_nil, digits_circom n⟩

theorem subscript_circom {loopVar : String} (hloop : Piece loopVar.toList) {j : Subscript} (hj : j ≠ .loopSucc) :
    (j.text loopVar).toList.all circomWordChar = true := by
  cases j with
  | none => rfl
  | lit n =>
    rw [Subscript.text, String.toList_append, String.toList_append, List.all_append, List.all_append, digits_circom]
    decide
  | loop =>
    rw [Subscript.text, String.toList_append, String.toList_append, List.all_append, List.all_append, hloop.2]
    decide
  | loopSucc => exact absurd rfl hj
  | size =>
    have hsize : "[N]".toList.all circomWordChar = true := by decide
    exact hsize

theorem aggregate_piece (a : ℕ) {suffix : String} (hs : suffix.toList.all circomWordChar = true) :
    Piece ("agg_" ++ a.repr ++ suffix).toList := by
  rw [String.toList_append, String.toList_append]
  exact Piece.append (Piece.append ⟨by decide, by decide⟩ (digits_circom a)) hs

theorem component_piece (c : Component) : Piece c.text.toList := by
  cases c with
  | activeFlag a => exact aggregate_piece a (by decide)
  | cmp k =>
    rw [Component.text, String.toList_append]
    exact Piece.append ⟨by decide, by decide⟩ (digits_circom k)
  | rootBalancePadding => exact ⟨by decide, by decide⟩
  | rootLimitPadding => exact ⟨by decide, by decide⟩

theorem port_circom (p : Port) : p.text.toList.all circomWordChar = true := by
  cases p <;> decide

theorem signal_piece {loopVar : String} (hloop : Piece loopVar.toList) (s : Signal) {j : Subscript}
    (hj : j ≠ .loopSucc) : Piece (s.text loopVar j).toList := by
  have hsub := subscript_circom hloop hj
  cases s with
  | limits | activeCount | balances | policyParams =>
    rw [Signal.text, String.toList_append]
    exact Piece.append ⟨by decide, by decide⟩ hsub
  | isActive a | decisionValid a | chain a | value a =>
    rw [Signal.text, String.toList_append]
    exact Piece.append (aggregate_piece a (by decide)) hsub
  | port c p =>
    rw [Signal.text, String.toList_append, String.toList_append, String.toList_append]
    exact Piece.append (Piece.append (Piece.append (component_piece c) hsub) (by decide)) (port_circom p)

theorem atom_piece {loopVar : String} (hloop : Piece loopVar.toList) {a : CircomAtom} (h : a.Emitted) :
    Piece (a.text loopVar) := by
  cases a with
  | signal s j => exact signal_piece hloop s h
  | int i =>
    obtain ⟨n, rfl⟩ := Int.eq_ofNat_of_zero_le h
    exact digits_piece n
  | loopVar => exact hloop

/-- **A bracketed expression is read back.** -/
theorem emitted_read {loopVar : String} (hloop : Piece loopVar.toList) {e : CircomExpr} (h : e.Emitted) :
    readCircom (e.text loopVar) = some (e.tree.map (CircomAtom.text loopVar)) := by
  unfold readCircom
  rw [← tree_text]
  refine Infix.readText_text circomWordChar_reserved (Infix.Expr.bracketed_map _ h.bracketed) ?_
  intro w hw
  rw [atoms_map] at hw
  obtain ⟨a, ha, rfl⟩ := List.mem_map.1 hw
  exact atom_piece hloop (h.atoms a ha)

/-! ### What the builder writes -/

/-- An expression that any operator may stand next to. -/
def CircomExpr.Operand (e : CircomExpr) : Prop := e.Emitted ∧ e.tree.level = 2

theorem signal_operand {s : Signal} {j : Subscript} (hj : j ≠ .loopSucc) : (CircomExpr.signal s j).Operand := by
  refine ⟨⟨trivial, fun a ha => ?_⟩, rfl⟩
  rw [List.mem_singleton.1 ha]
  exact hj

theorem int_operand {i : ℤ} (hi : 0 ≤ i) : (CircomExpr.int i).Operand := by
  refine ⟨⟨trivial, fun a ha => ?_⟩, rfl⟩
  rw [List.mem_singleton.1 ha]
  exact hi

theorem loopVar_operand : CircomExpr.loopVar.Operand := by
  refine ⟨⟨trivial, fun a ha => ?_⟩, rfl⟩
  rw [List.mem_singleton.1 ha]
  trivial

theorem paren_operand {e : CircomExpr} (h : e.Emitted) : (CircomExpr.paren e).Operand := ⟨⟨h.bracketed, h.atoms⟩, rfl⟩

theorem forall_atoms_append {a b : CircomExpr} (ha : a.Emitted) (hb : b.Emitted) :
    ∀ x ∈ a.tree.atoms ++ b.tree.atoms, x.Emitted := by
  intro x hx
  rcases List.mem_append.1 hx with hx | hx
  · exact ha.atoms x hx
  · exact hb.atoms x hx

theorem mul_emitted {a b : CircomExpr} (ha : a.Emitted) (hl : 1 ≤ a.tree.level) (hb : b.Operand) :
    (CircomExpr.mul a b).Emitted :=
  ⟨⟨ha.bracketed, hb.1.bracketed, hl, hb.2⟩, forall_atoms_append ha hb.1⟩

theorem add_emitted {a b : CircomExpr} (ha : a.Emitted) (hb : b.Emitted) (hl : 1 ≤ b.tree.level) :
    (CircomExpr.add a b).Emitted :=
  ⟨⟨ha.bracketed, hb.bracketed, hl⟩, forall_atoms_append ha hb⟩

theorem sub_emitted {a b : CircomExpr} (ha : a.Emitted) (hb : b.Operand) : (CircomExpr.sub a b).Emitted := by
  have hl := hb.2
  exact ⟨⟨ha.bracketed, hb.1.bracketed, by omega⟩, forall_atoms_append ha hb.1⟩

/-- A product of operands, as far as the loop has come. -/
theorem foldl_mul_emitted {parts : List CircomExpr} (h : ∀ e ∈ parts, e.Operand) {acc : CircomExpr}
    (hacc : acc.Emitted) (hl : 1 ≤ acc.tree.level) : (parts.foldl .mul acc).Emitted := by
  induction parts generalizing acc with
  | nil => exact hacc
  | cons part parts ih =>
    rw [List.forall_mem_cons] at h
    exact ih h.2 (mul_emitted hacc hl h.1) le_rfl

theorem conjunction_operand {parts : List CircomExpr} (h : ∀ e ∈ parts, e.Operand) : (conjunction parts).Operand := by
  cases parts with
  | nil => exact paren_operand (int_operand (by decide)).1
  | cons part parts =>
    rw [List.forall_mem_cons] at h
    have hl := h.1.2
    exact paren_operand (foldl_mul_emitted h.2 h.1.1 (by omega))

theorem disjoin_operand {acc part : CircomExpr} (ha : acc.Operand) (hp : part.Operand) : (disjoin acc part).Operand := by
  have hla := ha.2
  have hlp := hp.2
  have hproduct := mul_emitted ha.1 (by omega) hp
  exact paren_operand (sub_emitted (add_emitted ha.1 hp.1 (by omega)) (paren_operand hproduct))

theorem foldl_disjoin_operand {parts : List CircomExpr} (h : ∀ e ∈ parts, e.Operand) {acc : CircomExpr}
    (hacc : acc.Operand) : (parts.foldl disjoin acc).Operand := by
  induction parts generalizing acc with
  | nil => exact hacc
  | cons part parts ih =>
    rw [List.forall_mem_cons] at h
    exact ih h.2 (disjoin_operand hacc h.1)

theorem disjunction_operand {parts : List CircomExpr} (h : ∀ e ∈ parts, e.Operand) : (disjunction parts).Operand := by
  cases parts with
  | nil => exact int_operand (by decide)
  | cons part parts =>
    rw [List.forall_mem_cons] at h
    exact foldl_disjoin_operand h.2 h.1

theorem rowExprs_operand {l : List DecisionExpr} (hl : ∀ e ∈ l, ∀ n m, (e.rowExpr n m).Operand) (n m : ℕ) :
    ∀ part ∈ DecisionExpr.rowExprs l n m, part.Operand := by
  induction l generalizing n m with
  | nil =>
    intro part hpart
    cases hpart
  | cons e es ih =>
    rw [DecisionExpr.rowExprs, List.forall_mem_cons]
    exact ⟨hl e (by simp) n m, ih (fun x hx => hl x (by simp [hx])) _ _⟩

/-- **The expression of a row has all its brackets**, by induction on the decision. -/
theorem rowExpr_operand (e : DecisionExpr) : ∀ n m, (e.rowExpr n m).Operand := by
  induction e with
  | comparison c => exact fun n m => signal_operand (by decide)
  | and args ih => exact fun n m => conjunction_operand (rowExprs_operand ih n m)
  | or args ih => exact fun n m => disjunction_operand (rowExprs_operand ih n m)
  | not inner ih =>
    exact fun n m => paren_operand (sub_emitted (int_operand (by decide)).1 (paren_operand (ih n m).1))
  | aggregate kind inner => exact fun n m => signal_operand (by decide)

theorem laidArgs_operand {l : List DecisionExpr} (hl : ∀ e ∈ l, ∀ n m, ∀ agg ∈ e.laid n m, agg.expression.Operand)
    (n m : ℕ) : ∀ agg ∈ DecisionExpr.laidArgs l n m, agg.expression.Operand := by
  induction l generalizing n m with
  | nil =>
    intro agg hagg
    cases hagg
  | cons e es ih =>
    rw [DecisionExpr.laidArgs, List.forall_mem_append]
    exact ⟨hl e (by simp) n m, ih (fun x hx => hl x (by simp [hx])) _ _⟩

theorem laid_operand (e : DecisionExpr) : ∀ n m, ∀ agg ∈ e.laid n m, agg.expression.Operand := by
  induction e with
  | comparison c =>
    intro n m agg hagg
    cases hagg
  | and args ih => exact laidArgs_operand ih
  | or args ih => exact laidArgs_operand ih
  | not inner ih => exact ih
  | aggregate kind inner ih =>
    intro n m
    rw [DecisionExpr.laid, List.forall_mem_append]
    refine ⟨ih (n + 1) m, fun agg hagg => ?_⟩
    rw [List.mem_singleton.1 hagg]
    exact rowExpr_operand inner (n + 1) m

theorem buildRoot_operand (kind : AggregateKind) (inner : DecisionExpr) :
    ∀ agg ∈ (buildRoot kind inner).2, agg.expression.Operand := by
  rw [buildRoot_layout, List.forall_mem_append]
  refine ⟨laid_operand inner 1 0, fun agg hagg => ?_⟩
  rw [List.mem_singleton.1 hagg]
  exact rowExpr_operand inner 1 0

/-! ### Statements -/

/-- The right-hand side of a statement has all its brackets. -/
def CircomStmt.Emitted : CircomStmt → Prop
  | .assign _ _ rhs => rhs.Emitted
  | .instantiate _ _ => True

/-- A value of an accepted decision. -/
theorem renderCircomValue_operand {names : List String} {v : ValueRef} {e : CircomExpr} (hv : v.Accepted names)
    (h : renderCircomValue names v = .ok e) : e.Operand := by
  have hparam : ∀ {name e}, renderCircomParam names name = .ok e → e.Operand := by
    intro name e h
    unfold renderCircomParam at h
    split at h
    · obtain rfl := Except.ok.inj h
      exact signal_operand (by simp)
    · cases h
  cases v with
  | constInt i =>
    obtain rfl := Except.ok.inj h
    exact int_operand hv
  | param p => exact hparam h
  | ref r =>
    rw [renderCircomValue] at h
    split_ifs at h
    · obtain rfl := Except.ok.inj h
      exact signal_operand (by decide)
    · obtain rfl := Except.ok.inj h
      exact signal_operand (by decide)
    · obtain rfl := Except.ok.inj h
      exact signal_operand (by decide)
    · exact hparam h

theorem cmpLines_emitted {names : List String} {node : CircomComparisonNode} {stmts : List CircomStmt}
    (hl : node.left.Accepted names) (hr : node.right.Accepted names) (h : cmpLines names node = .ok stmts) :
    ∀ stmt ∈ stmts, stmt.Emitted := by
  simp only [cmpLines, bind_ok, pure_ok] at h
  obtain ⟨left, hleft, right, hright, rfl⟩ := h
  simp only [List.forall_mem_cons, List.not_mem_nil, false_implies, implies_true, and_true]
  exact ⟨trivial, (renderCircomValue_operand hl hleft).1, (renderCircomValue_operand hr hright).1⟩

/-- **The statements of a block have all their brackets.** -/
theorem block_emitted {agg : CircomAggregateNode} {zeroTail : Bool} {names : List String} {block : CircomBlock}
    (h : renderCircomAggregateBlock agg zeroTail names = .ok block) (hexpr : agg.expression.Operand)
    (hnodes : ∀ node ∈ agg.comparisonNodes, node.left.Accepted names ∧ node.right.Accepted names) :
    ∀ stmt ∈ block.stmts, stmt.Emitted := by
  obtain ⟨cmp, hcmp, hhead, htail, hbody⟩ := block_body h
  have hsignal : ∀ {s : Signal} {j : Subscript}, j ≠ .loopSucc → (CircomExpr.signal s j).Emitted :=
    fun hj => (signal_operand hj).1
  have hone : (CircomExpr.int 1).Emitted := (int_operand (by decide)).1
  have hrest : (CircomExpr.paren (.sub (.int 1) (.signal (.isActive agg.aggregateId) .loop))).Operand :=
    paren_operand (sub_emitted hone (signal_operand (by decide)))
  have hchain : (CircomExpr.mul (.signal (.chain agg.aggregateId) .loop)
      (.signal (.decisionValid agg.aggregateId) .loop)).Emitted :=
    mul_emitted (hsignal (by decide)) Nat.one_le_ofNat (signal_operand (by decide))
  unfold CircomBlock.stmts
  rw [hhead, htail, hbody]
  simp only [List.forall_mem_cons, List.forall_mem_append, List.not_mem_nil, false_implies, implies_true, and_true]
  refine ⟨?_, ⟨⟨⟨⟨?_, ?_⟩, ?_⟩, ?_⟩, ?_⟩, hsignal (by decide)⟩
  · cases agg.kind with
    | all => exact hone
    | any => exact (int_operand (by decide)).1
  · simp only [activeFlagLines, List.forall_mem_cons, List.not_mem_nil, false_implies, implies_true, and_true]
    exact ⟨trivial, hsignal (by decide), loopVar_operand.1, hsignal (by decide)⟩
  · intro stmt hstmt
    obtain ⟨stmts, hstmts, hmem⟩ := List.mem_flatten.1 hstmt
    obtain ⟨node, hnode, hline⟩ := forall₂_mem_right hcmp hstmts
    exact cmpLines_emitted (hnodes node hnode).1 (hnodes node hnode).2 hline stmt hmem
  · have hproduct : (CircomExpr.mul (.paren agg.expression) (.signal (.isActive agg.aggregateId) .loop)).Emitted :=
      mul_emitted (paren_operand hexpr.1).1 Nat.one_le_ofNat (signal_operand (by decide))
    cases agg.kind with
    | all => exact add_emitted hproduct hrest.1 Nat.one_le_ofNat
    | any => exact hproduct
  · cases zeroTail with
    | false => simp
    | true =>
      simp only [if_true, zeroTailLines, List.forall_mem_cons, List.not_mem_nil, false_implies, implies_true, and_true]
      exact ⟨trivial, hsignal (by decide), hsignal (by decide), trivial, hsignal (by decide), hsignal (by decide)⟩
  · cases agg.kind with
    | all => exact hchain
    | any =>
      have hsum : (CircomExpr.add (.signal (.chain agg.aggregateId) .loop)
          (.signal (.decisionValid agg.aggregateId) .loop)).Emitted :=
        add_emitted (hsignal (by decide)) (hsignal (by decide)) Nat.one_le_ofNat
      exact sub_emitted hsum (paren_operand hchain)

/-! ## An accepted policy -/

/-- The comparators of an aggregate are those of comparisons of the decision. -/
theorem aggregate_values {kind : AggregateKind} {inner : DecisionExpr} {agg : CircomAggregateNode}
    (hagg : agg ∈ (buildRoot kind inner).2) {node : CircomComparisonNode} (hnode : node ∈ agg.comparisonNodes) :
    node.left ∈ inner.values ∧ node.right ∈ inner.values := by
  have hmem : node ∈ (DecisionExpr.aggregate kind inner).allNodes 0 0 := by
    rw [buildRoot_layout] at hagg
    exact List.mem_append_right _ (List.mem_flatMap.2 ⟨agg, hagg, hnode⟩)
  obtain ⟨⟨c, k⟩, hc, rfl⟩ := List.mem_map.1 ((laid_nodes (.aggregate kind inner) 0 0).mem_iff.1 hmem)
  have hcomparison : c ∈ inner.comparisons := (List.mem_zipIdx' hc).2 ▸ List.getElem_mem _
  rw [values_eq]
  exact ⟨List.mem_flatMap.2 ⟨c, hcomparison, by simp [nodeOf]⟩, List.mem_flatMap.2 ⟨c, hcomparison, by simp [nodeOf]⟩⟩

theorem loopVar_piece (a : ℕ) : Piece ("i_" ++ a.repr).toList := by
  rw [String.toList_append]
  exact Piece.append ⟨by decide, by decide⟩ (digits_circom a)

/-- **The text of every emitted right-hand side is read as the expression that it is taken for.** For
every spec the compiler accepts and every assignment `s[j] <== rhs` in the blocks of its aggregates, the
text of `rhs`, read with `*` before `+` and `-`, groups as the syntax tree does, and that tree has the
value which the constraint gives to `rhs`. -/
theorem circom_read_back {sha256 : String → String} {spec : PolicyDSLSpec} {art : CompilerArtifacts}
    (hgen : generatePolicyArtifacts sha256 spec = .ok art) : ∃ kind inner blocks,
    spec.decision = .aggregate kind inner ∧ renderBlocks spec.policyParameters.keys kind inner = .ok blocks ∧
      ∀ block ∈ blocks, ∀ s j rhs, CircomStmt.assign s j rhs ∈ block.stmts →
        readCircom (rhs.text block.loopVar) = some (rhs.tree.map (CircomAtom.text block.loopVar)) ∧
          ∀ N w i, rhs.tree.eval (CircomAtom.value N w i) = rhs.eval N w i := by
  obtain ⟨kind, inner, py, blocks, h⟩ := generatePolicyArtifacts_ok hgen
  refine ⟨kind, inner, blocks, h.decision, h.circom, ?_⟩
  intro block hblock s j rhs hstmt
  obtain ⟨agg, hagg, hr⟩ := forall₂_mem_right (mapM_ok.1 h.circom) hblock
  have hloop : Piece block.loopVar.toList := by
    have hvar : block.loopVar = "i_" ++ agg.aggregateId.repr := by
      simp only [renderCircomAggregateBlock, bind_ok, pure_ok] at hr
      obtain ⟨cmp, -, rfl⟩ := hr
      rfl
    rw [hvar]
    exact loopVar_piece agg.aggregateId
  have hemitted := block_emitted hr (buildRoot_operand kind inner agg hagg) (fun node hnode =>
    ⟨accepted_values h _ (aggregate_values hagg hnode).1, accepted_values h _ (aggregate_values hagg hnode).2⟩) _ hstmt
  exact ⟨emitted_read hloop hemitted, fun N w i => tree_eval N w i rhs⟩

/-- A decision with a parameter, all connectives and a quantifier in a quantifier. -/
theorem circom_read_back_row : ∃ blocks, renderBlocks ["threshold"] .all nestedInner = .ok blocks ∧
    ∀ block ∈ blocks, ∀ s j rhs, CircomStmt.assign s j rhs ∈ block.stmts →
      readCircom (rhs.text block.loopVar) = some (rhs.tree.map (CircomAtom.text block.loopVar)) := by
  obtain ⟨art, hgen⟩ := isOk_iff.1 (show (generatePolicyArtifacts id nestedSpec).isOk = true by decide +kernel)
  obtain ⟨kind, inner, blocks, hdecision, hblocks, hread⟩ := circom_read_back hgen
  obtain ⟨rfl, rfl⟩ : AggregateKind.all = kind ∧ nestedInner = inner := by
    injection hdecision with hkind hinner
    exact ⟨hkind, hinner⟩
  exact ⟨blocks, hblocks, fun block hblock s j rhs hstmt => (hread block hblock s j rhs hstmt).1⟩

end Vellum
