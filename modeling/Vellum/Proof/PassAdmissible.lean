import Vellum.Proof.Agreement
import Vellum.Proof.Clamping

/-!
# What a proof of `pass` is worth

A malicious prover chooses every private signal. The comparators bound differences only,
and no constraint keeps a balance below `2^32`.

* `activeCount_nat`, `activeCount_le`: the active count is a natural number in range.
* `comparisonMeans_clamped`: the comparators of a generated circuit say what the comparisons say of
  the unsigned 32-bit balances next to those of the prover, unless one is compared with the end of
  the range beyond which it lies.
* `generated_pass_admissible`: so only such a comparison separates a proof of `pass` from
  admissible evidence.
* `batchCredit_pass_admissible`: in the deployed circuit, exactly an active limit of
  `2^32 - 1` has proofs of `pass` without admissible evidence.
* `pass_admissible`: both.
-/

namespace Vellum

open Circomlib

/-! ## The active count -/

/-- An active count that exceeds zero in 16 bits is a natural number from 1 to `2^16`. -/
theorem activeCount_nat {a : F} (h : GreaterThan 16 a 0 1) : 1 ≤ a.val ∧ a.val ≤ 2 ^ 16 := by
  obtain ⟨-, h2⟩ := (lessThan_iff two_pow_17_le).1 h
  have hp := two_pow_17_le
  have hv : ((0 : F) + 2 ^ 16 - a).val < 2 ^ 16 := by
    by_contra hcon
    rw [if_neg hcon] at h2
    exact one_ne_zero h2
  generalize hd : ((0 : F) + 2 ^ 16 - a).val = d at hv
  have ha : a = ((2 ^ 16 - d : ℕ) : F) := by
    rw [Nat.cast_sub (by omega), ← hd, ZMod.natCast_zmod_val]
    push_cast
    ring
  rw [ha, ZMod.val_natCast_of_lt (by omega)]
  omega

/-- It is at most `N` if it is below `N + 1` in 16 bits, for every size of moderate range. -/
theorem activeCount_le {a : F} {N : ℕ} (ha : a.val ≤ 2 ^ 16) (hN : N ≤ 2 ^ 18)
    (h : LessThan 16 a (N + 1 : ℕ) 1) : a.val ≤ N := by
  have hp : 2 ^ 20 ≤ bn254 := by unfold bn254; norm_num
  rw [← ZMod.natCast_zmod_val a] at h
  have := lessThan_sound two_pow_17_le (by omega) (by omega) h
  by_contra hcon
  rw [if_neg (by omega)] at this
  exact one_ne_zero this

/-- `ActiveCountBounds` outputs 1, so both of its comparators do. -/
theorem activeCountBounds_ones {N : ℕ} {a valid : F} (h : ActiveCountBounds N a valid) :
    GreaterThan 16 a 0 1 ∧ LessThan 16 a (N + 1 : ℕ) 1 := by
  obtain ⟨gt, lt, hgt, hlt, hv, h1⟩ := h
  have hone : gt * lt = 1 := hv.symm.trans h1
  -- an output is a bit, and a product of bits is 1 only when both are
  have hbit : ∀ {x y out : F}, LessThan 16 x y out → out = 1 ∨ out = 0 := by
    intro x y out hout
    rw [((lessThan_iff two_pow_17_le).1 hout).2]
    split_ifs
    · exact Or.inl rfl
    · exact Or.inr rfl
  have hg : gt = 1 := (hbit hgt).resolve_right fun h0 => by simp [h0] at hone
  have hl : lt = 1 := (hbit hlt).resolve_right fun h0 => by simp [h0] at hone
  rw [hg] at hgt
  rw [hl] at hlt
  exact ⟨hgt, hlt⟩

/-! ## Generated circuits -/

variable {I : Interpreter} {spec : PolicyDSLSpec} {kind : AggregateKind} {inner : DecisionExpr} {py : PyBool}
  {blocks : List CircomBlock} {w : Assignment} {params : String → ℤ}

/-- The rows a prover assigned to the active part of an array. -/
def activeRows (w : Assignment) (s : Signal) : List ℤ :=
  (List.range (w .activeCount 0).val).map fun i => ((w s i).val : ℤ)

theorem activeRows_getD {s : Signal} {i : ℕ} (h : i < (w .activeCount 0).val) :
    (activeRows w s).getD i 0 = ((w s i).val : ℤ) := by
  simp [activeRows, List.getD_eq_getElem?_getD, h]

theorem activeRows_getD_ge {s : Signal} {i : ℕ} (h : (w .activeCount 0).val ≤ i) :
    (activeRows w s).getD i 0 = 0 := by
  simp [activeRows, List.getD_eq_getElem?_getD, h]

/-- The batch a prover assigned, padded. -/
def witnessBatch (N : ℕ) (w : Assignment) (params : String → ℤ) : Batch where
  activeCount := (w .activeCount 0).val
  balances := padTo N (activeRows w .balances)
  limits := padTo N (activeRows w .limits)
  params := params

/-- The root block keeps inactive rows zero. -/
theorem root_zeroTail {names : List String} {N : ℕ} (h : renderBlocks names kind inner = .ok blocks)
    (hw : GeneratedHolds N blocks w) {i : ℕ} (hi : i < N) :
    w .balances i * (1 - w (.isActive 0) i) = 0 ∧ w .limits i * (1 - w (.isActive 0) i) = 0 := by
  obtain ⟨block, hb, hr⟩ := forall₂_mem_left (mapM_ok.1 h)
    (List.mem_append_right _ (List.mem_singleton.2 rfl) : _ ∈ (buildRoot kind inner).2)
  obtain ⟨cmp, -, -, -, hbody⟩ := block_body hr
  have hmem : ∀ s ∈ zeroTailLines 0, s.Holds N w i := by
    intro s hs
    refine (hw.blocks block hb).body i hi s ?_
    rw [hbody]
    simp only [List.mem_append]
    exact Or.inl (Or.inr hs)
  simp only [zeroTailLines, List.forall_mem_cons, CircomStmt.Holds, Subscript.cell, CircomExpr.eval,
    Template.Holds, ZeroPaddingInvariant] at hmem
  obtain ⟨⟨-, h1, -⟩, h2, h3, ⟨-, h4, -⟩, h5, h6, -⟩ := hmem
  rw [h2, h3] at h1
  rw [h5, h6] at h4
  exact ⟨h1, h4⟩

/-- The root aggregate, the last one the builder closes. -/
def rootAggregate (kind : AggregateKind) (inner : DecisionExpr) : CircomAggregateNode :=
  let r := renderBooleanExpr 0 inner Builder.init.openAggregate
  ⟨0, kind, r.1, r.2.comparisonsByAggregate 0⟩

theorem rootAggregate_mem : rootAggregate kind inner ∈ (buildRoot kind inner).2 :=
  List.mem_append_right _ (List.mem_singleton.2 rfl)

/-- The flags of the root bound the size of a satisfiable circuit. -/
theorem size_le {names : List String} {N : ℕ} (hac : (w .activeCount 0).val ≤ 2 ^ 16)
    (h : AggHolds N names w (rootAggregate kind inner)) : N ≤ 2 ^ 18 := by
  by_contra hcon
  have hflag := aggHolds_flag h (i := 2 ^ 18) (by omega)
  rw [← ZMod.natCast_zmod_val (w .activeCount 0)] at hflag
  have := (flag_sound hac le_rfl hflag).1
  omega

/-- **What a satisfying assignment makes of the active count.** -/
theorem witness_activeCount {names : List String} {N : ℕ} (h : renderBlocks names kind inner = .ok blocks)
    (hw : GeneratedHolds N blocks w) : 1 ≤ (w .activeCount 0).val ∧ (w .activeCount 0).val ≤ 2 ^ 16 ∧
      (w .activeCount 0).val ≤ N ∧ ∀ agg, AggHolds N names w agg → ∀ i < N,
        w (.isActive agg.aggregateId) i = bit (decide (i < (w .activeCount 0).val)) := by
  obtain ⟨valid, hbounds⟩ := hw.bounds
  obtain ⟨hgt, hlt⟩ := activeCountBounds_ones hbounds
  obtain ⟨h1, h2⟩ := activeCount_nat hgt
  have hN := size_le h2 (generatedHolds_agg h hw _ rootAggregate_mem)
  refine ⟨h1, h2, activeCount_le h2 hN hlt, fun agg hagg i hi => ?_⟩
  have hflag := aggHolds_flag hagg hi
  rw [← ZMod.natCast_zmod_val (w .activeCount 0)] at hflag
  exact (flag_sound h2 (by omega) hflag).2

/-- The prover's inputs are those of the batch read off the active rows. -/
theorem witness_inputs {N : ℕ} {params : String → ℤ}
    (h : renderBlocks spec.policyParameters.keys kind inner = .ok blocks) (hw : GeneratedHolds N blocks w)
    (hparams : ∀ j n, spec.policyParameters.keys[j]? = some n → w .policyParams j = ((params n : ℤ) : F)) :
    (witnessBatch N w params).Inputs N spec.policyParameters.keys w := by
  obtain ⟨-, -, -, hflag⟩ := witness_activeCount h hw
  have hrow : ∀ {s : Signal} {i : ℕ}, i < N → w s i * (1 - w (.isActive 0) i) = 0 →
      w s i = (((padTo N (activeRows w s)).getD i 0 : ℤ) : F) := by
    intro s i hi hz
    rw [padTo_getD]
    by_cases hact : i < (w .activeCount 0).val
    · rw [activeRows_getD hact, Int.cast_natCast, ZMod.natCast_zmod_val]
    · have hf := hflag _ (generatedHolds_agg h hw _ rootAggregate_mem) i hi
      rw [show (rootAggregate kind inner).aggregateId = 0 from rfl] at hf
      rw [activeRows_getD_ge (by omega), Int.cast_zero]
      simpa [hf, hact] using hz
  exact ⟨(ZMod.natCast_zmod_val _).symm, fun i hi => hrow hi (root_zeroTail h hw hi).1,
    fun i hi => hrow hi (root_zeroTail h hw hi).2, hparams⟩

theorem activeRows_u32 {s : Signal} (h : ∀ i < (w .activeCount 0).val, (w s i).val < 2 ^ 32) :
    U32 (activeRows w s) := by
  intro x hx
  simp only [activeRows, List.mem_map, List.mem_range] at hx
  obtain ⟨i, hi, rfl⟩ := hx
  exact ⟨Int.natCast_nonneg _, by exact_mod_cast h i hi⟩

/-! ## Balances out of range -/

/-- The values that a decision compares with a balance. -/
def DecisionExpr.againstBalances (e : DecisionExpr) : List ValueRef :=
  e.comparisons.flatMap fun c =>
    (if c.left = .ref "balances" then [c.right] else []) ++ (if c.right = .ref "balances" then [c.left] else [])

theorem mem_againstBalances {e : DecisionExpr} {c : ComparisonExpr} (hc : c ∈ e.comparisons) :
    (c.left = .ref "balances" → c.right ∈ e.againstBalances) ∧
    (c.right = .ref "balances" → c.left ∈ e.againstBalances) :=
  ⟨fun h => List.mem_flatMap.2 ⟨c, hc, by simp [h]⟩, fun h => List.mem_flatMap.2 ⟨c, hc, by simp [h]⟩⟩

/-- What a decision reads of an assignment beside the balances. -/
def publicBatch (w : Assignment) (params : String → ℤ) : Batch where
  activeCount := (w .activeCount 0).val
  balances := []
  limits := publicLimits (w .limits) (w .activeCount 0)
  params := params

/-- **The active balances compare as unsigned 32-bit ones**, with every other value that the decision
compares them with. -/
def BalancesCompare (w : Assignment) (params : String → ℤ) (e : DecisionExpr) : Prop :=
  ∀ i < (w .activeCount 0).val, ∀ v ∈ e.againstBalances, v ≠ .ref "balances" →
    Compares (w .balances i) ((publicBatch w params).valueAt i v)

/-- The balances next to those of the prover. -/
def clampedRows (w : Assignment) : List ℤ :=
  (List.range (w .activeCount 0).val).map fun i => clampU32 (w .balances i)

/-- The prover's batch with these balances. -/
def clampedBatch (N : ℕ) (w : Assignment) (params : String → ℤ) : Batch :=
  { witnessBatch N w params with balances := padTo N (clampedRows w) }

theorem clampedRows_u32 : U32 (clampedRows w) := by
  intro x hx
  obtain ⟨i, -, rfl⟩ := List.mem_map.1 hx
  exact clampU32_u32 _

theorem clampedRows_getD (w : Assignment) (N i : ℕ) : (padTo N (clampedRows w)).getD i 0 =
    if i < (w .activeCount 0).val then clampU32 (w .balances i) else 0 := by
  rw [padTo_getD]
  by_cases h : i < (w .activeCount 0).val <;> simp [clampedRows, List.getD_eq_getElem?_getD, h]

/-- The active rows stand in it. -/
theorem clampedBatch_active {N : ℕ} (params : String → ℤ) (hle : (w .activeCount 0).val ≤ N) :
    (clampedBatch N w params).activeCount ≤ (clampedBatch N w params).balances.length ∧
    (clampedBatch N w params).activeCount ≤ (clampedBatch N w params).limits.length := by
  have hlen : (clampedRows w).length = (w .activeCount 0).val := by simp [clampedRows]
  have hlen' : (activeRows w .limits).length = (w .activeCount 0).val := by simp [activeRows]
  constructor
  · exact hle.trans_eq (padTo_length (hlen.trans_le hle)).symm
  · exact hle.trans_eq (padTo_length (hlen'.trans_le hle)).symm

/-- A value that is no balance does not depend on the balances. -/
theorem valueAt_congr {B B' : Batch} (hac : B.activeCount = B'.activeCount)
    (hl : ∀ i, B.limits.getD i 0 = B'.limits.getD i 0) (hp : B.params = B'.params) {v : ValueRef}
    (hv : v ≠ .ref "balances") (i : ℕ) : B.valueAt i v = B'.valueAt i v := by
  cases v with
  | constInt c => rfl
  | param p => exact congrFun hp p
  | ref s =>
    have hs : s ≠ "balances" := fun heq => hv (congrArg ValueRef.ref heq)
    simp only [Batch.valueAt, if_neg hs, hl, hac, hp]

theorem valueAt_balances (B : Batch) (i : ℕ) : B.valueAt i (.ref "balances") = B.balances.getD i 0 := rfl

/-- The values beside the balances stay in the lower part of the field. -/
theorem public_value {params : String → ℤ} (h : Accepted spec kind inner py blocks)
    (hw : GeneratedHolds spec.batchSize blocks w) (hc : ConstantsBelow fieldBound inner)
    (hparams : ∀ name, .param name ∈ inner.values → 0 ≤ params name ∧ params name < fieldBound)
    (hl : U32 (activeRows w .limits)) {v : ValueRef} (hv : v ∈ inner.values) (hne : v ≠ .ref "balances") (i : ℕ) :
    0 ≤ (publicBatch w params).valueAt i v ∧ (publicBatch w params).valueAt i v < fieldBound := by
  obtain ⟨-, hac, -, -⟩ := witness_activeCount h.circom hw
  have hbound : (2 ^ 32 : ℤ) ≤ (fieldBound : ℤ) := by exact_mod_cast two_pow_32_le_fieldBound
  have hacc := accepted_values h v hv
  cases v with
  | constInt c => exact ⟨hacc, hc c hv⟩
  | param p => exact hparams p hv
  | ref s =>
    rcases hacc with rfl | rfl | rfl
    · exact absurd rfl hne
    · have hlimit := getD_u32 hl i
      exact ⟨hlimit.1, hlimit.2.trans_le hbound⟩
    · refine ⟨Int.natCast_nonneg _, ?_⟩
      simp only [Batch.valueAt, reduceIte, String.reduceEq, publicBatch]
      omega

/-- **The comparators say what the comparisons say of the balances next to those of the prover.** -/
theorem comparisonMeans_clamped {params : String → ℤ} (h : Accepted spec kind inner py blocks)
    (hw : GeneratedHolds spec.batchSize blocks w) (hc : ConstantsBelow fieldBound inner)
    (hin : ∀ j n, spec.policyParameters.keys[j]? = some n → w .policyParams j = ((params n : ℤ) : F))
    (hparams : ∀ name, .param name ∈ inner.values → 0 ≤ params name ∧ params name < fieldBound)
    (hl : U32 (activeRows w .limits)) (hb : BalancesCompare w params inner) :
    ∀ c ∈ inner.comparisons, ComparisonMeans (clampedBatch spec.batchSize w params) spec.batchSize
      spec.policyParameters.keys w c := by
  intro c hmem id hnode i hi
  set B := clampedBatch spec.batchSize w params with hB
  have hinputs := witness_inputs h.circom hw hin
  obtain ⟨hholds, hleft, hright⟩ := node_ports hinputs hnode hi
  have hvalues : c.left ∈ inner.values ∧ c.right ∈ inner.values := by
    rw [values_eq]
    exact ⟨List.mem_flatMap.2 ⟨c, hmem, by simp⟩, List.mem_flatMap.2 ⟨c, hmem, by simp⟩⟩
  have hlimits : ∀ i, (padTo spec.batchSize (activeRows w .limits)).getD i 0 = (activeRows w .limits).getD i 0 :=
    padTo_getD _ _
  -- the three batches differ in the balances
  have hwitness : ∀ v, v ≠ .ref "balances" →
      (witnessBatch spec.batchSize w params).valueAt i v = B.valueAt i v := fun v hv =>
    @valueAt_congr (witnessBatch spec.batchSize w params) B rfl (fun _ => rfl) rfl v hv i
  have hpublic : ∀ v, v ≠ .ref "balances" → (publicBatch w params).valueAt i v = B.valueAt i v := fun v hv =>
    @valueAt_congr (publicBatch w params) B rfl (fun i => (hlimits i).symm) rfl v hv i
  have hrange : ∀ v ∈ inner.values, v ≠ .ref "balances" → 0 ≤ B.valueAt i v ∧ B.valueAt i v < fieldBound :=
    fun v hv hne => hpublic v hne ▸ public_value h hw hc hparams hl hv hne i
  have hbalance : (((witnessBatch spec.batchSize w params).valueAt i (.ref "balances") : ℤ) : F) = w .balances i :=
    (hinputs.balances i hi).symm
  have hinactive : ¬ i < (w .activeCount 0).val → w .balances i = 0 := by
    intro hact
    rw [← hbalance, valueAt_balances, witnessBatch, padTo_getD, activeRows_getD_ge (Nat.not_lt.1 hact),
      Int.cast_zero]
  have hclamp : B.valueAt i (.ref "balances") = clampU32 (w .balances i) := by
    rw [valueAt_balances, hB, clampedBatch, clampedRows_getD]
    split_ifs with hact
    · rfl
    · rw [hinactive hact, clampU32, if_pos (by rw [ZMod.val_zero]; norm_num), ZMod.val_zero, Nat.cast_zero]
  have hcompares : ∀ v ∈ inner.againstBalances, v ≠ .ref "balances" → Compares (w .balances i) (B.valueAt i v) := by
    intro v hv hne
    by_cases hact : i < (w .activeCount 0).val
    · exact hpublic v hne ▸ hb i hact v hv hne
    · exact Or.inl (by rw [hinactive hact, ZMod.val_zero]; norm_num)
  by_cases hl' : c.left = .ref "balances"
  · by_cases hr' : c.right = .ref "balances"
    · rw [hl', hbalance] at hleft
      rw [hr', hbalance] at hright
      rw [hl', hr']
      exact comparator_self _ hleft hright hholds
    · rw [hl', hbalance] at hleft
      rw [hwitness _ hr'] at hright
      rw [hl', hclamp]
      exact comparator_clamp (hrange _ hvalues.2 hr') (hcompares _ ((mem_againstBalances hmem).1 hl') hr') hleft hright
        hholds
  · rw [hwitness _ hl'] at hleft
    by_cases hr' : c.right = .ref "balances"
    · rw [hr', hbalance] at hright
      rw [hr', hclamp]
      exact comparator_clamp_right (hrange _ hvalues.1 hl') (hcompares _ ((mem_againstBalances hmem).2 hr') hl') hleft
        hright hholds
    · rw [hwitness _ hr'] at hright
      exact comparator_sound (hrange _ hvalues.1 hl') (hrange _ hvalues.2 hr') hleft hright hholds

/-- **The missing range check is all that is missing.** In a circuit generated from an accepted
spec, an assignment with root value 1 whose active balances compare as unsigned 32-bit ones yields
admissible evidence that passes: the balances next to them. -/
theorem generated_pass_admissible {params : String → ℤ} (h : Accepted spec kind inner py blocks)
    (hfinds : spec.FindsParameters I (clampedBatch spec.batchSize w params))
    (hw : GeneratedHolds spec.batchSize blocks w)
    (hroot : w (.value (buildRoot kind inner).1) 0 = 1) (hc : ConstantsBelow fieldBound inner)
    (hin : ∀ j n, spec.policyParameters.keys[j]? = some n → w .policyParams j = ((params n : ℤ) : F))
    (hparams : ∀ name, .param name ∈ inner.values → 0 ≤ params name ∧ params name < fieldBound)
    (hadm : ∀ p ∈ spec.policyParameters.items, p.2.admits (params p.1))
    (hl : U32 (activeRows w .limits)) (hb : BalancesCompare w params inner) :
    AdmissiblePass ⟨spec.batchSize, spec.policyParameters, py.rename (spec.key I)⟩ (activeRows w .limits)
      (spec.policyParameters.keys.map fun n => (n, params n)) := by
  obtain ⟨h1, -, hle, hflag⟩ := witness_activeCount h.circom hw
  set B := clampedBatch spec.batchSize w params with hB
  have hlen : (activeRows w .limits).length = (w .activeCount 0).val := by simp [activeRows]
  have hlen' : (clampedRows w).length = (w .activeCount 0).val := by simp [clampedRows]
  have hholds : (DecisionExpr.aggregate kind inner).holdsAt B 0 = true := by
    have hvalue := root_value (B := B) hle hflag (comparisonMeans_clamped h hw hc hin hparams hl hb)
      (generatedHolds_agg h.circom hw) spec.batchPos
    rw [hroot] at hvalue
    exact bit_inj hvalue.symm
  obtain ⟨hpad, hpad'⟩ := clampedBatch_active params hle
  have heval := @loaded_reading I spec kind inner py blocks B h hpad hpad'
  rw [if_pos hfinds.finds, hfinds.decision, h.decision, hholds] at heval
  refine ⟨clampedRows w, clampedRows_u32, B.normalized spec.policyParameters.keys, ?_, ?_⟩
  · refine (GeneratedReferencePolicy.normalize_ok hadm).2 ⟨by rw [hlen']; exact h1, by rw [hlen, hlen'],
      by rw [hlen']; exact hle, clampedRows_u32, hl, ?_⟩
    rw [Batch.normalized, hlen']
    rfl
  · rw [GeneratedReferencePolicy.evaluateReference, heval]
    rfl

/-! ## The deployed circuit -/

theorem lendingRisk_normalize {bs ls : List ℤ} {n : NormalizedEvidence} :
    lendingRiskReference.normalize (evidenceOf bs ls []) = .ok n ↔
      1 ≤ bs.length ∧ bs.length = ls.length ∧ bs.length ≤ 250 ∧ U32 bs ∧ U32 ls ∧
        n = ⟨padTo 250 bs, padTo 250 ls, .int bs.length, []⟩ :=
  @GeneratedReferencePolicy.normalize_ok lendingRiskReference bs ls (fun _ => 0)
    (fun _ hp => absurd hp List.not_mem_nil) n

/-- `lending_risk_reference_v1` passes a batch iff every active balance exceeds its limit. -/
theorem lendingRisk_pass {bs ls : List ℤ} (hb : bs.length ≤ 250) (hl : bs.length = ls.length) :
    lendingRiskReference.evaluateReference ⟨padTo 250 bs, padTo 250 ls, .int bs.length, []⟩ = some .pass ↔
      ∀ i < bs.length, ls.getD i 0 < bs.getD i 0 := by
  set B : Batch := ⟨bs.length, padTo 250 bs, padTo 250 ls, fun _ => 0⟩ with hB
  have hrender : renderDecision .all (.comparison ⟨.gt, .ref "balances", .ref "limits"⟩) =
      .ok lendingRiskReference.decision := rfl
  have heval : (lendingRiskReference.decision.rename id).eval (B.normalized []).env = _ := renderDecision_eval
    (by rw [padTo_length hb]; exact hb) (by rw [padTo_length (by omega)]; exact hb)
    (by intro n hn
        rw [show DecisionExpr.paramNames _ = [] by decide +kernel] at hn
        exact absurd hn List.not_mem_nil) hrender (envOf_normalized [])
  rw [show lendingRiskReference.decision.rename id = lendingRiskReference.decision from rfl] at heval
  rw [GeneratedReferencePolicy.evaluateReference, show (NormalizedEvidence.mk (padTo 250 bs) (padTo 250 ls)
    (.int bs.length) []) = B.normalized [] from rfl, heval]
  simp only [DecisionExpr.holdsAt, Batch.valueAt, ComparisonOp.holds, if_true, if_neg (show
    ("limits" : String) ≠ "balances" by decide), hB, padTo_getD, Option.map_some, Option.some.injEq]
  split_ifs with h
  · simpa using h
  · simpa using h

/-- The active count of a satisfied `BatchCreditCheck`. -/
theorem batchCredit_activeCount {N : ℕ} {s : BatchCreditSignals} (hN : N ≤ 2 ^ 18) (h : BatchCreditCheck N s) :
    1 ≤ s.activeCount.val ∧ s.activeCount.val ≤ N := by
  obtain ⟨h1, h2⟩ := activeCount_nat h.activeCountGtZero
  exact ⟨h1, activeCount_le h2 hN h.activeCountLtEqN⟩

theorem publicLimits_getD {limits : ℕ → F} {a : F} {i : ℕ} (h : i < a.val) :
    (publicLimits limits a).getD i 0 = ((limits i).val : ℤ) := by
  simp [publicLimits, List.getD_eq_getElem?_getD, h]

/-- **The deployed circuit.** Public limits admit evidence that passes iff no active limit is
`2^32 - 1`, whatever the prover proves about them. -/
theorem batchCredit_pass_admissible {s : BatchCreditSignals} (h : BatchCreditCheck 250 s)
    (hl : ∀ i < 250, (s.limits i).val < 2 ^ 32) :
    AdmissiblePass lendingRiskReference (publicLimits s.limits s.activeCount) [] ↔
      ∀ i < s.activeCount.val, (s.limits i).val ≠ 2 ^ 32 - 1 := by
  obtain ⟨h1, h2⟩ := batchCredit_activeCount (by norm_num) h
  have hlen : (publicLimits s.limits s.activeCount).length = s.activeCount.val := by simp [publicLimits]
  have hu : U32 (publicLimits s.limits s.activeCount) := by
    intro x hx
    simp only [publicLimits, List.mem_map, List.mem_range] at hx
    obtain ⟨i, hi, rfl⟩ := hx
    exact ⟨Int.natCast_nonneg _, by exact_mod_cast hl i (by omega)⟩
  constructor
  · rintro ⟨bs, hbs, n, hok, hpass⟩ i hi heq
    obtain ⟨-, hbl, hb250, -, -, rfl⟩ := lendingRisk_normalize.1 hok
    have hlt := (lendingRisk_pass hb250 hbl).1 hpass i (by omega)
    rw [publicLimits_getD hi, heq] at hlt
    have := (getD_u32 hbs i).2
    rw [Nat.cast_sub (by norm_num)] at hlt
    push_cast at hlt
    omega
  · intro hne
    set ls := publicLimits s.limits s.activeCount with hls
    have hbs : U32 (ls.map (· + 1)) := by
      intro x hx
      simp only [hls, publicLimits, List.mem_map, List.mem_range] at hx
      obtain ⟨_, ⟨i, hi, rfl⟩, rfl⟩ := hx
      have h3 := hl i (by omega)
      have h4 := hne i hi
      constructor <;> omega
    refine ⟨ls.map (· + 1), hbs, _, lendingRisk_normalize.2 ⟨?_, ?_, ?_, hbs, hu, rfl⟩, ?_⟩
    · rw [List.length_map, hlen]; exact h1
    · rw [List.length_map]
    · rw [List.length_map, hlen]; exact h2
    · refine (lendingRisk_pass (by rw [List.length_map, hlen]; exact h2) (by rw [List.length_map])).2 ?_
      intro i hi
      rw [List.length_map] at hi
      simp [List.getD_eq_getElem?_getD, List.getElem?_map, List.getElem?_eq_getElem hi]

/-- An assignment to `BatchCreditCheck` with one active row. -/
def oneRowSignals (balance limit : ℕ) : BatchCreditSignals where
  limits := fun i => if i = 0 then limit else 0
  activeCount := 1
  balances := fun i => if i = 0 then balance else 0
  allValid := 1
  activeCountOut := 1
  isActive := fun i => if i = 0 then 1 else 0
  decisionValid := fun _ => 1
  allValidChain := fun _ => 1

/-- It satisfies the circuit whenever the balance exceeds the limit by at most `2^32`. -/
theorem oneRowSignals_holds {balance limit : ℕ} (h1 : limit < balance) (h2 : balance ≤ limit + 2 ^ 32) :
    BatchCreditCheck 250 (oneRowSignals balance limit) where
  activeCountGtZero := by
    have : GreaterThan 16 ((1 : ℕ) : F) (0 : ℕ) 1 :=
      (greaterThan_nat two_pow_17_le (by norm_num) (by norm_num)).2 (by norm_num)
    simpa [oneRowSignals] using this
  activeCountLtEqN := by
    have : LessThan 16 ((1 : ℕ) : F) (250 + 1 : ℕ) 1 :=
      (lessThan_nat two_pow_17_le (by norm_num) (by norm_num)).2 (by norm_num)
    simpa [oneRowSignals] using this
  chainInit := rfl
  activityCmp := by
    intro i hi
    have : GreaterThan 16 ((1 : ℕ) : F) i (if i = 0 then 1 else 0) :=
      (greaterThan_nat two_pow_17_le (by omega) (by omega)).2 (by simp only [Nat.lt_one_iff])
    simpa [oneRowSignals] using this
  balanceGtLimit := by
    intro i _
    by_cases hi : i = 0
    · refine ⟨1, ?_, by simp [oneRowSignals, hi]⟩
      have : GreaterThan 32 (balance : F) limit 1 :=
        (greaterThan_nat two_pow_33_le h2 (by omega)).2 (by simp [h1])
      simpa [oneRowSignals, hi] using this
    · refine ⟨0, ?_, by simp [oneRowSignals, hi]⟩
      have : GreaterThan 32 ((0 : ℕ) : F) (0 : ℕ) 0 :=
        (greaterThan_nat two_pow_33_le (by norm_num) (by norm_num)).2 (by norm_num)
      simpa [oneRowSignals, hi] using this
  balancePadding := by intro i _; by_cases hi : i = 0 <;> simp [oneRowSignals, hi]
  limitPadding := by intro i _; by_cases hi : i = 0 <;> simp [oneRowSignals, hi]
  chainStep := by intro i _; simp [oneRowSignals]
  allValid := rfl
  activeCountOut := rfl

theorem oneRowSignals_activeCount (balance limit : ℕ) : (oneRowSignals balance limit).activeCount.val = 1 :=
  ZMod.val_one _

theorem oneRowSignals_limits {balance limit : ℕ} (h : limit < 2 ^ 32) :
    ∀ i < 250, ((oneRowSignals balance limit).limits i).val < 2 ^ 32 := by
  intro i _
  have hp := two_pow_33_le
  by_cases hi : i = 0
  · simp only [oneRowSignals, hi, if_true]
    rw [ZMod.val_natCast_of_lt (by omega)]
    exact h
  · simp [oneRowSignals, hi]

theorem oneRowSignals_limit {balance limit : ℕ} (h : limit < 2 ^ 32) :
    ((oneRowSignals balance limit).limits 0).val = limit := by
  have hp := two_pow_33_le
  simp only [oneRowSignals, if_true]
  exact ZMod.val_natCast_of_lt (by omega)

end Vellum
