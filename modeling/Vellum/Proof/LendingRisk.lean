import Vellum.Proof.CircomMeaning

/-!
# The two circuits of `lending_risk_v1`

The manifest runs the hand-written `BatchCreditCheck`; the drift checks look at the committed
`lending_risk_v1.generated.circom`. Both are compared here on arbitrary field elements, for
every `N`: no range is assumed of any input.

* `generated_of_batchCredit`, `batchCredit_of_generated`: an extension of one is one of the other.
* `batchCredit_unique`: the inputs determine the outputs, row by row along the chain.
* `circuits_same_relation`: the two together.
-/

namespace Vellum

open Circomlib

/-- The block of the committed circuit. -/
def lendingRiskBlock : CircomBlock where
  loopVar := "i_0"
  head := .assign (.chain 0) (.lit 0) (.int 1)
  body :=
    [.instantiate (.activeFlag 0) .activeIndexFlag16,
      .assign (.port (.activeFlag 0) .activeCount) .loop (.signal .activeCount .none),
      .assign (.port (.activeFlag 0) .index) .loop .loopVar,
      .assign (.isActive 0) .loop (.signal (.port (.activeFlag 0) .isActive) .loop),
      .instantiate (.cmp 0) .primitiveGreaterThan32,
      .assign (.port (.cmp 0) .lhs) .loop (.signal .balances .loop),
      .assign (.port (.cmp 0) .rhs) .loop (.signal .limits .loop),
      .assign (.decisionValid 0) .loop (.add
        (.mul (.paren (.signal (.port (.cmp 0) .out) .loop)) (.signal (.isActive 0) .loop))
        (.paren (.sub (.int 1) (.signal (.isActive 0) .loop)))),
      .instantiate .rootBalancePadding .zeroPaddingInvariant,
      .assign (.port .rootBalancePadding .value) .loop (.signal .balances .loop),
      .assign (.port .rootBalancePadding .isActive) .loop (.signal (.isActive 0) .loop),
      .instantiate .rootLimitPadding .zeroPaddingInvariant,
      .assign (.port .rootLimitPadding .value) .loop (.signal .limits .loop),
      .assign (.port .rootLimitPadding .isActive) .loop (.signal (.isActive 0) .loop),
      .assign (.chain 0) .loopSucc (.mul (.signal (.chain 0) .loop) (.signal (.decisionValid 0) .loop))]
  tail := .assign (.value 0) .none (.signal (.chain 0) .size)

/-- The committed block is what the renderer makes of `all(balances > limits)`. -/
theorem lendingRiskBlock_rendered :
    renderBlocks [] .all (.comparison ⟨.gt, .ref "balances", .ref "limits"⟩) = .ok [lendingRiskBlock] := rfl

example : lendingRiskBlock.lines =
    ["    agg_0_chain[0] <== 1;",
      "    for (var i_0 = 0; i_0 < N; i_0++) \x7b",
      "        agg_0_active_flag[i_0] = ActiveIndexFlag16();",
      "        agg_0_active_flag[i_0].active_count <== active_count;",
      "        agg_0_active_flag[i_0].index <== i_0;",
      "        agg_0_is_active[i_0] <== agg_0_active_flag[i_0].is_active;",
      "        cmp_0[i_0] = PrimitiveGreaterThan32();",
      "        cmp_0[i_0].lhs <== balances[i_0];",
      "        cmp_0[i_0].rhs <== limits[i_0];",
      "        agg_0_decision_valid[i_0] <== (cmp_0[i_0].out) * agg_0_is_active[i_0] + (1 - agg_0_is_active[i_0]);",
      "        root_balance_padding[i_0] = ZeroPaddingInvariant();",
      "        root_balance_padding[i_0].value <== balances[i_0];",
      "        root_balance_padding[i_0].is_active <== agg_0_is_active[i_0];",
      "        root_limit_padding[i_0] = ZeroPaddingInvariant();",
      "        root_limit_padding[i_0].value <== limits[i_0];",
      "        root_limit_padding[i_0].is_active <== agg_0_is_active[i_0];",
      "        agg_0_chain[i_0 + 1] <== agg_0_chain[i_0] * agg_0_decision_valid[i_0];",
      "    \x7d",
      "    agg_0_value <== agg_0_chain[N];"] := by decide +kernel

/-- `GeneratedLendingRisk(N)` with its two outputs. -/
structure GeneratedLendingRisk (N : ℕ) (w : Assignment) (allValid activeCountOut : F) : Prop where
  holds : GeneratedHolds N [lendingRiskBlock] w
  allValid : allValid = w (.value 0) 0
  activeCountOut : activeCountOut = w .activeCount 0

/-- The constraints of `BatchCreditCheck(N)` can be met with these inputs and outputs. -/
def BatchCreditExtends (N : ℕ) (limits : ℕ → F) (activeCount : F) (balances : ℕ → F) (out : F × F) : Prop :=
  ∃ s : BatchCreditSignals, (∀ i < N, s.limits i = limits i) ∧ s.activeCount = activeCount ∧
    (∀ i < N, s.balances i = balances i) ∧ BatchCreditCheck N s ∧ out = (s.allValid, s.activeCountOut)

/-- Those of `GeneratedLendingRisk(N)`. -/
def GeneratedExtends (N : ℕ) (limits : ℕ → F) (activeCount : F) (balances : ℕ → F) (out : F × F) : Prop :=
  ∃ w : Assignment, (∀ i < N, w .limits i = limits i) ∧ w .activeCount 0 = activeCount ∧
    (∀ i < N, w .balances i = balances i) ∧ GeneratedLendingRisk N w out.1 out.2

/-! ## Comparators on arbitrary field elements -/

theorem bit_of_cases {b : F} (h : b = 0 ∨ b = 1) : b * (b - 1) = 0 := by
  rcases h with rfl | rfl <;> ring

/-- The operands determine the output of a comparator. -/
theorem greaterThan_unique {n : ℕ} (hn : 2 ^ (n + 1) ≤ bn254) {a b out out' : F} (h : GreaterThan n a b out)
    (h' : GreaterThan n a b out') : out = out' := by
  obtain ⟨-, h1⟩ := (lessThan_iff hn).1 h
  obtain ⟨-, h2⟩ := (lessThan_iff hn).1 h'
  rw [h1, h2]

/-! ## The rows of the generated circuit -/

/-- What the loop body of the committed circuit says of a row. -/
theorem lendingRisk_row {N i : ℕ} {w : Assignment} : (∀ s ∈ lendingRiskBlock.body, s.Holds N w i) ↔
    ActiveIndexFlag16 (w .activeCount 0) (i : F) (w (.isActive 0) i) ∧
    w (.port (.activeFlag 0) .activeCount) i = w .activeCount 0 ∧ w (.port (.activeFlag 0) .index) i = (i : F) ∧
    w (.port (.activeFlag 0) .isActive) i = w (.isActive 0) i ∧
    GreaterThan 32 (w .balances i) (w .limits i) (w (.port (.cmp 0) .out) i) ∧
    w (.port (.cmp 0) .lhs) i = w .balances i ∧ w (.port (.cmp 0) .rhs) i = w .limits i ∧
    w (.decisionValid 0) i = w (.port (.cmp 0) .out) i * w (.isActive 0) i + (1 - w (.isActive 0) i) ∧
    ZeroPaddingInvariant (w .balances i) (w (.isActive 0) i) (w (.port .rootBalancePadding .valid) i) ∧
    w (.port .rootBalancePadding .value) i = w .balances i ∧
    w (.port .rootBalancePadding .isActive) i = w (.isActive 0) i ∧
    ZeroPaddingInvariant (w .limits i) (w (.isActive 0) i) (w (.port .rootLimitPadding .valid) i) ∧
    w (.port .rootLimitPadding .value) i = w .limits i ∧
    w (.port .rootLimitPadding .isActive) i = w (.isActive 0) i ∧
    w (.chain 0) (i + 1) = w (.chain 0) i * w (.decisionValid 0) i := by
  simp only [lendingRiskBlock, List.forall_mem_cons, CircomStmt.Holds, Template.Holds, CircomExpr.eval, Subscript.cell,
    PrimitiveGreaterThan32, Int.cast_one, List.not_mem_nil, false_imp_iff, implies_true, and_true]
  constructor
  · rintro ⟨h1, h2, h3, h4, h5, h6, h7, h8, h9, h10, h11, h12, h13, h14, h15⟩
    rw [h2, h3, ← h4] at h1
    rw [h6, h7] at h5
    rw [h10, h11] at h9
    rw [h13, h14] at h12
    exact ⟨h1, h2, h3, h4.symm, h5, h6, h7, h8, h9, h10, h11, h12, h13, h14, h15⟩
  · rintro ⟨h1, h2, h3, h4, h5, h6, h7, h8, h9, h10, h11, h12, h13, h14, h15⟩
    refine ⟨?_, h2, h3, h4.symm, ?_, h6, h7, h8, ?_, h10, h11, ?_, h13, h14, h15⟩
    · rwa [h2, h3, h4]
    · rwa [h6, h7]
    · rwa [h10, h11]
    · rwa [h13, h14]

variable {N : ℕ} {limits balances : ℕ → F} {activeCount : F} {out : F × F}

/-- The signals of the hand-written circuit, read off an assignment of the generated one. -/
def batchCreditOf (w : Assignment) : BatchCreditSignals where
  limits := w .limits
  activeCount := w .activeCount 0
  balances := w .balances
  allValid := w (.value 0) 0
  activeCountOut := w .activeCount 0
  isActive := w (.isActive 0)
  decisionValid := w (.decisionValid 0)
  allValidChain := w (.chain 0)

/-- **Generated to hand-written.** -/
theorem batchCredit_of_generated (h : GeneratedExtends N limits activeCount balances out) :
    BatchCreditExtends N limits activeCount balances out := by
  obtain ⟨w, hl, hac, hb, hholds, hall, hout⟩ := h
  obtain ⟨hhead, hbody, htail⟩ := hholds.blocks lendingRiskBlock (List.mem_singleton.2 rfl)
  obtain ⟨hgt, hlt⟩ := activeCountBounds_iff.1 hholds.bounds
  have hrow : ∀ i < N, _ := fun i hi => lendingRisk_row.1 (hbody i hi)
  refine ⟨batchCreditOf w, hl, hac, hb, ?_, Prod.ext hall hout⟩
  exact {
    activeCountGtZero := hgt
    activeCountLtEqN := hlt
    chainInit := by
      have h0 : w (.chain 0) 0 = ((1 : ℤ) : F) := hhead
      rw [Int.cast_one] at h0
      exact h0
    activityCmp := fun i hi => (hrow i hi).1.1
    balanceGtLimit := fun i hi => by
      obtain ⟨-, -, -, -, hcmp, -, -, hdv, -⟩ := hrow i hi
      exact ⟨_, hcmp, hdv⟩
    balancePadding := fun i hi => by
      obtain ⟨-, -, -, -, -, -, -, -, hpad, -⟩ := hrow i hi
      exact hpad.2.1
    limitPadding := fun i hi => by
      obtain ⟨-, -, -, -, -, -, -, -, -, -, -, hpad, -⟩ := hrow i hi
      exact hpad.2.1
    chainStep := fun i hi => by
      obtain ⟨-, -, -, -, -, -, -, -, -, -, -, -, -, -, hchain⟩ := hrow i hi
      exact hchain
    allValid := htail
    activeCountOut := rfl }

/-- An assignment of the generated circuit, from the signals of the hand-written one and the
outputs of its balance comparators. -/
def generatedOf (s : BatchCreditSignals) (cmp : ℕ → F) : Assignment
  | .limits, i => s.limits i
  | .activeCount, _ => s.activeCount
  | .balances, i => s.balances i
  | .policyParams, _ => 0
  | .isActive _, i => s.isActive i
  | .decisionValid _, i => s.decisionValid i
  | .chain _, i => s.allValidChain i
  | .value _, _ => s.allValid
  | .port (.activeFlag _) .activeCount, _ => s.activeCount
  | .port (.activeFlag _) .index, i => (i : F)
  | .port (.cmp _) .lhs, i => s.balances i
  | .port (.cmp _) .rhs, i => s.limits i
  | .port (.cmp _) .out, i => cmp i
  | .port .rootBalancePadding .value, i => s.balances i
  | .port .rootLimitPadding .value, i => s.limits i
  | .port _ .isActive, i => s.isActive i
  | .port _ _, _ => 1

/-- **Hand-written to generated.** The flags are bits because their comparators say so. -/
theorem generated_of_batchCredit (h : BatchCreditExtends N limits activeCount balances out) :
    GeneratedExtends N limits activeCount balances out := by
  obtain ⟨s, hl, hac, hb, hs, rfl⟩ := h
  choose! cmp hcmp using hs.balanceGtLimit
  refine ⟨generatedOf s cmp, hl, hac, hb, ⟨?_, ?_⟩, rfl, hs.activeCountOut⟩
  · exact activeCountBounds_iff.2 ⟨hs.activeCountGtZero, hs.activeCountLtEqN⟩
  · intro block hblock
    obtain rfl := List.mem_singleton.1 hblock
    refine ⟨?_, fun i hi => lendingRisk_row.2 ?_, hs.allValid⟩
    · have h0 : s.allValidChain 0 = ((1 : ℤ) : F) := by
        rw [Int.cast_one]
        exact hs.chainInit
      exact h0
    · have hbit : s.isActive i * (s.isActive i - 1) = 0 := bit_of_cases (greaterThan16_bit (hs.activityCmp i hi))
      exact ⟨⟨hs.activityCmp i hi, hbit⟩, rfl, rfl, rfl, (hcmp i hi).1, rfl, rfl, (hcmp i hi).2,
        ⟨hbit, hs.balancePadding i hi, rfl⟩, rfl, rfl, ⟨hbit, hs.limitPadding i hi, rfl⟩, rfl, rfl, hs.chainStep i hi⟩

/-! ## The inputs determine the outputs -/

/-- **The outputs are unique.** The chains agree by induction on the row. -/
theorem batchCredit_unique {out' : F × F} (h : BatchCreditExtends N limits activeCount balances out)
    (h' : BatchCreditExtends N limits activeCount balances out') : out = out' := by
  obtain ⟨s, hl, hac, hb, hs, rfl⟩ := h
  obtain ⟨s', hl', hac', hb', hs', rfl⟩ := h'
  have hactive : ∀ i < N, s.isActive i = s'.isActive i := by
    intro i hi
    have h1 := hs.activityCmp i hi
    have h2 := hs'.activityCmp i hi
    rw [hac] at h1
    rw [hac'] at h2
    exact greaterThan_unique two_pow_17_le h1 h2
  have hvalid : ∀ i < N, s.decisionValid i = s'.decisionValid i := by
    intro i hi
    obtain ⟨o, h1, hd⟩ := hs.balanceGtLimit i hi
    obtain ⟨o', h2, hd'⟩ := hs'.balanceGtLimit i hi
    rw [hb i hi, hl i hi] at h1
    rw [hb' i hi, hl' i hi] at h2
    rw [hd, hd', greaterThan_unique two_pow_33_le h1 h2, hactive i hi]
  have hchain : ∀ n ≤ N, s.allValidChain n = s'.allValidChain n := by
    intro n
    induction n with
    | zero => intro _; rw [hs.chainInit, hs'.chainInit]
    | succ n ih =>
      intro hn
      rw [hs.chainStep n (by omega), hs'.chainStep n (by omega), ih (by omega), hvalid n (by omega)]
  refine Prod.ext ?_ ?_
  · dsimp only
    rw [hs.allValid, hs'.allValid, hchain N le_rfl]
  · dsimp only
    rw [hs.activeCountOut, hs'.activeCountOut, hac, hac']

/-- **The two circuits are the same relation.** For every `N` and all field elements at the
inputs: one has a satisfying extension exactly when the other has, and any two satisfying
extensions, of either circuit, have the same outputs. -/
theorem circuits_same_relation (N : ℕ) (limits : ℕ → F) (activeCount : F) (balances : ℕ → F) :
    ((∃ out, BatchCreditExtends N limits activeCount balances out) ↔
      ∃ out, GeneratedExtends N limits activeCount balances out) ∧
    ∀ out out', BatchCreditExtends N limits activeCount balances out ∨ GeneratedExtends N limits activeCount
      balances out →
      BatchCreditExtends N limits activeCount balances out' ∨ GeneratedExtends N limits activeCount balances out' →
      out = out' := by
  refine ⟨⟨?_, ?_⟩, ?_⟩
  · rintro ⟨out, h⟩
    exact ⟨out, generated_of_batchCredit h⟩
  · rintro ⟨out, h⟩
    exact ⟨out, batchCredit_of_generated h⟩
  · intro out out' h h'
    exact batchCredit_unique (h.elim id batchCredit_of_generated) (h'.elim id batchCredit_of_generated)

/-- Two active rows with a balance of 9 and a limit of 5, and one of padding. -/
def twoValidRows : BatchCreditSignals where
  limits i := if i < 2 then (5 : ℕ) else 0
  activeCount := (2 : ℕ)
  balances i := if i < 2 then (9 : ℕ) else 0
  allValid := 1
  activeCountOut := (2 : ℕ)
  isActive i := if i < 2 then 1 else 0
  decisionValid _ := 1
  allValidChain _ := 1

theorem twoValidRows_holds : BatchCreditCheck 3 twoValidRows where
  activeCountGtZero := by
    have hgt : GreaterThan 16 ((2 : ℕ) : F) ((0 : ℕ) : F) 1 :=
      (greaterThan_nat two_pow_17_le (by norm_num) (by norm_num)).2 (by simp)
    simpa [twoValidRows] using hgt
  activeCountLtEqN := by
    have hlt : LessThan 16 ((2 : ℕ) : F) ((3 + 1 : ℕ) : F) 1 :=
      (lessThan_nat two_pow_17_le (by norm_num) (by norm_num)).2 (by simp)
    simpa [twoValidRows] using hlt
  chainInit := rfl
  activityCmp := by
    intro i hi
    have hcmp : GreaterThan 16 ((2 : ℕ) : F) (i : F) (if i < 2 then 1 else 0) :=
      (greaterThan_nat two_pow_17_le (by norm_num) (by omega)).2 rfl
    simpa [twoValidRows] using hcmp
  balanceGtLimit := by
    intro i _
    by_cases hi : i < 2
    · have hbal : GreaterThan 32 ((9 : ℕ) : F) ((5 : ℕ) : F) 1 :=
        (greaterThan_nat two_pow_33_le (by norm_num) (by norm_num)).2 (by simp)
      refine ⟨1, by simpa only [twoValidRows, if_pos hi, Nat.cast_ofNat] using hbal, ?_⟩
      simp only [twoValidRows, if_pos hi, mul_one, sub_self, add_zero]
    · have hbal : GreaterThan 32 ((0 : ℕ) : F) ((0 : ℕ) : F) 0 :=
        (greaterThan_nat two_pow_33_le (by norm_num) (by norm_num)).2 (by simp)
      refine ⟨0, by simpa only [twoValidRows, if_neg hi, Nat.cast_zero] using hbal, ?_⟩
      simp only [twoValidRows, if_neg hi, mul_zero, sub_zero, zero_add]
  balancePadding := by
    intro i _
    by_cases hi : i < 2
    · simp only [twoValidRows, if_pos hi, sub_self, mul_zero]
    · simp only [twoValidRows, if_neg hi, zero_mul]
  limitPadding := by
    intro i _
    by_cases hi : i < 2
    · simp only [twoValidRows, if_pos hi, sub_self, mul_zero]
    · simp only [twoValidRows, if_neg hi, zero_mul]
  chainStep := by intro i _; simp [twoValidRows]
  allValid := rfl
  activeCountOut := rfl

/-- On those rows both circuits are satisfiable, and every extension says that all are valid. -/
theorem circuits_same_relation_row :
    (∃ out, GeneratedExtends 3 twoValidRows.limits 2 twoValidRows.balances out) ∧
      ∀ out, GeneratedExtends 3 twoValidRows.limits 2 twoValidRows.balances out → out = (1, 2) := by
  have hrow : BatchCreditExtends 3 twoValidRows.limits 2 twoValidRows.balances (1, 2) :=
    ⟨twoValidRows, fun _ _ => rfl, rfl, fun _ _ => rfl, twoValidRows_holds, rfl⟩
  obtain ⟨hsat, heq⟩ := circuits_same_relation 3 twoValidRows.limits 2 twoValidRows.balances
  exact ⟨hsat.1 ⟨_, hrow⟩, fun out h => heq out (1, 2) (Or.inr h) (Or.inl hrow)⟩

end Vellum
