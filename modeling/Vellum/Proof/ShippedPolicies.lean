import Vellum.Proof.Circuits
import Vellum.Proof.LendingRisk
import Vellum.Proof.Outputs
import Vellum.Spec.ShippedPolicies

/-!
# Evidence of the shipped policies

What `normalize` accepts is what the circuit can be solved with, with one decision on both tracks:
for the lending policies because a prepared batch is padded, and for `zk_kyc_v1` because both write
the same bounds. `proof_of_reserves_v1` bounds its amounts in the circuit only.

* `batchCredit_decision`, `batchCredit_satisfiable`: the deployed lending circuit on a padded batch.
* `lending_provable`, `zkKyc_provable`, `reserves_provable_iff`: the policies one by one.
* `provable_iff`: all of them.
-/

namespace Vellum

/-! ## Decisions on the two tracks -/

theorem ite_one_iff {P : Prop} [Decidable P] : (if P then (1 : F) else 0) = 1 ↔ P := by
  by_cases h : P <;> simp [h]

theorem ite_pass_iff {b : Bool} : (if b then PolicyDecision.pass else .fail) = .pass ↔ b = true := by
  cases b <;> simp

/-! ## The lending policies -/

/-- The row condition of both lending policies. -/
def balanceAboveLimit : DecisionExpr := .comparison ⟨.gt, .ref "balances", .ref "limits"⟩

variable {n : NormalizedEvidence} {B : Batch}

theorem getD_of_drop {l : List ℤ} {k i : ℕ} (h : ∀ x ∈ l.drop k, x = 0) (hi : k ≤ i) : l.getD i 0 = 0 := by
  rw [List.getD_eq_getElem?_getD]
  by_cases hlt : i < l.length
  · have hmem : l[i] ∈ l.drop k := List.mem_iff_getElem?.2 ⟨i - k, by
      rw [List.getElem?_drop, Nat.add_sub_cancel' hi, List.getElem?_eq_getElem hlt]⟩
    rw [List.getElem?_eq_getElem hlt]
    exact h _ hmem
  · rw [List.getElem?_eq_none (by omega)]
    rfl

/-- A prepared batch is padded. -/
theorem prepared_padded {size : ℕ} (h : PreparedAt size n.balances n.limits n.activeCount) : n.batch.Padded size [] := by
  have hpos := h.activePos
  have hle := h.activeLe
  exact {
    lenBalances := h.lenBalances
    lenLimits := h.lenLimits
    activePos := by simp only [NormalizedEvidence.batch]; omega
    activeLe := by simp only [NormalizedEvidence.batch]; omega
    balancesU32 := h.balancesU32
    limitsU32 := h.limitsU32
    balancesZero := fun _ hi => getD_of_drop h.balancesZero hi
    limitsZero := fun _ hi => getD_of_drop h.limitsZero hi
    paramsU32 := by simp }

theorem padded_rows {N : ℕ} (hp : B.Padded N []) : ValuesBelow (2 ^ 32) B N balanceAboveLimit.values := by
  intro v hv i _
  simp only [balanceAboveLimit, DecisionExpr.values, List.mem_cons, List.not_mem_nil, or_false] at hv
  rcases hv with rfl | rfl
  · exact_mod_cast getD_u32 hp.balancesU32 i
  · exact_mod_cast getD_u32 hp.limitsU32 i

/-- The inputs of the deployed circuit are those of a batch. -/
structure BatchCreditInputs (B : Batch) (s : BatchCreditSignals) : Prop where
  limits : ∀ i < 250, s.limits i = ((B.limits.getD i 0 : ℤ) : F)
  activeCount : s.activeCount = (B.activeCount : F)
  balances : ∀ i < 250, s.balances i = ((B.balances.getD i 0 : ℤ) : F)

/-- **The deployed circuit decides.** -/
theorem batchCredit_decision (hp : B.Padded 250 []) {s : BatchCreditSignals} (hin : BatchCreditInputs B s)
    (hs : BatchCreditCheck 250 s) : s.allValid = bit ((DecisionExpr.aggregate .all balanceAboveLimit).holdsAt B 0) := by
  -- through the committed circuit, whose blocks were rendered from the decision
  obtain ⟨w, hl, hac, hb, hw, hall, -⟩ := generated_of_batchCredit
    (⟨s, fun _ _ => rfl, rfl, fun _ _ => rfl, hs, rfl⟩ : BatchCreditExtends 250 s.limits s.activeCount s.balances _)
  have hinputs : B.Inputs 250 [] w := {
    activeCount := hac.trans hin.activeCount
    balances := fun i hi => (hb i hi).trans (hin.balances i hi)
    limits := fun i hi => (hl i hi).trans (hin.limits i hi)
    params := by simp }
  have hroot := blocks_sound lendingRiskBlock_rendered (padded_rows hp) (by norm_num) hp hinputs hw
  exact hall.trans hroot

/-- **The deployed circuit can be solved.** -/
theorem batchCredit_satisfiable (hp : B.Padded 250 []) : ∃ s, BatchCreditInputs B s ∧ BatchCreditCheck 250 s := by
  obtain ⟨w, hin, hw⟩ := blocks_satisfiable lendingRiskBlock_rendered (padded_rows hp) (by norm_num) hp
  obtain ⟨s, hl, hac, hb, hs, -⟩ := batchCredit_of_generated
    (⟨w, hin.limits, hin.activeCount, hin.balances, hw, rfl, rfl⟩ : GeneratedExtends 250 _ _ _ (_, _))
  exact ⟨s, ⟨hl, hac, hb⟩, hs⟩

/-- The reference policy decides. -/
theorem lending_evaluate (h : PreparedAt 250 n.balances n.limits n.activeCount) (hparams : n.policyParameters = []) :
    lendingRiskReference.evaluateReference n = some
      (if (DecisionExpr.aggregate .all balanceAboveLimit).holdsAt n.batch 0 then .pass else .fail) := by
  have hp := prepared_padded h
  have hle := hp.activeLe
  have hrender : renderDecision .all balanceAboveLimit = .ok lendingRiskReference.decision := rfl
  have hnames : (DecisionExpr.aggregate .all balanceAboveLimit).paramNames = [] := by decide +kernel
  have henv : n.env = (n.batch.normalized []).env := by
    have hpos := h.activePos
    have hac : ((n.activeCount.toInt.toNat : ℕ) : ℤ) = n.activeCount.toInt := Int.toNat_of_nonneg (by omega)
    unfold NormalizedEvidence.env Batch.normalized
    rw [hparams]
    simp only [NormalizedEvidence.batch, hac]
    rfl
  have heval : (lendingRiskReference.decision.rename id).eval (n.batch.normalized []).env = _ := renderDecision_eval
    (by rw [hp.lenBalances]; exact hle) (by rw [hp.lenLimits]; exact hle)
    (by rw [hnames]; exact fun _ hname => absurd hname List.not_mem_nil) hrender (envOf_normalized [])
  have hrename : lendingRiskReference.decision.rename id = lendingRiskReference.decision := rfl
  rw [hrename] at heval
  rw [GeneratedReferencePolicy.evaluateReference, henv, heval]
  rfl

/-- The private input of normalized evidence. -/
def lendingInput (n : NormalizedEvidence) : Json :=
  .obj [("balances", .arr (n.balances.map .int)), ("limits", .arr (n.limits.map .int)),
    ("active_count", .int n.activeCount.toInt)]

theorem inputCell_map {input : Json} {name : String} {l : List ℤ} (h : input.get? name = some (.arr (l.map .int)))
    {i : ℕ} (hi : i < l.length) : inputCell? input name i = some ((l.getD i 0 : ℤ) : F) := by
  unfold inputCell?
  rw [h]
  simp [List.getD_eq_getElem?_getD, List.getElem?_eq_getElem hi, Json.asInt?]

/-- Assignments at that private input are those at the batch. -/
theorem batchCreditAt_iff (h : PreparedAt 250 n.balances n.limits n.activeCount) {s : BatchCreditSignals} :
    BatchCreditAt (lendingInput n) s ↔ BatchCreditInputs n.batch s ∧ BatchCreditCheck 250 s := by
  have hb : ∀ i < 250, inputCell? (lendingInput n) "balances" i = some ((n.balances.getD i 0 : ℤ) : F) :=
    fun i hi => inputCell_map rfl (by rw [h.lenBalances]; exact hi)
  have hl : ∀ i < 250, inputCell? (lendingInput n) "limits" i = some ((n.limits.getD i 0 : ℤ) : F) :=
    fun i hi => inputCell_map rfl (by rw [h.lenLimits]; exact hi)
  have hac : inputSignal? (lendingInput n) "active_count" = some (n.batch.activeCount : F) := by
    have hpos := h.activePos
    have hcast : ((n.activeCount.toInt.toNat : ℕ) : ℤ) = n.activeCount.toInt := Int.toNat_of_nonneg (by omega)
    have hF : ((n.activeCount.toInt.toNat : ℕ) : F) = ((n.activeCount.toInt : ℤ) : F) := by
      rw [← hcast, Int.cast_natCast, Int.toNat_natCast]
    exact congrArg some hF.symm
  constructor
  · intro hs
    refine ⟨⟨fun i hi => ?_, ?_, fun i hi => ?_⟩, hs.holds⟩
    · have := hs.limits i hi
      rw [hl i hi] at this
      exact (Option.some.inj this).symm
    · have := hs.activeCount
      rw [hac] at this
      exact (Option.some.inj this).symm
    · have := hs.balances i hi
      rw [hb i hi] at this
      exact (Option.some.inj this).symm
  · rintro ⟨hin, hs⟩
    refine ⟨fun i hi => ?_, ?_, fun i hi => ?_, hs⟩
    · rw [hl i hi, hin.limits i hi]
      rfl
    · rw [hac, hin.activeCount]
    · rw [hb i hi, hin.balances i hi]
      rfl

/-- **The lending policies.** -/
theorem lending_provable {sha256 : String → String} {evidence normalized : Json}
    (h : (lendingRiskReference.reference sha256 lendingRiskOutputs).normalize evidence = .ok normalized) :
    ShippedPolicy.lendingRiskV1.Provable sha256 evidence := by
  obtain ⟨m, hm, rfl⟩ := map_ok.1 (mapError_ok.1 h)
  obtain ⟨⟨size, hsize, hprep⟩, hparams⟩ := GeneratedReferencePolicy.normalize_prepared hm
  -- the batch size of the class is that of the batcher
  obtain rfl : size = 250 := hsize.elim id id
  have hnil : m.policyParameters = [] := (Except.ok.inj hparams).symm
  have hinput : lendingRiskReference.toPrivateInput sha256 m = some (lendingInput m) := rfl
  refine ⟨m.json, lendingInput m, _, h, onNormalized_json hinput, onNormalized_json (lending_evaluate hprep hnil),
    ?_, ?_⟩
  · obtain ⟨s, hin, hs⟩ := batchCredit_satisfiable (prepared_padded hprep)
    exact ⟨s.allValid, s, (batchCreditAt_iff hprep).2 ⟨hin, hs⟩, rfl⟩
  · rintro out ⟨s, hat, rfl⟩
    obtain ⟨hin, hs⟩ := (batchCreditAt_iff hprep).1 hat
    rw [batchCredit_decision (prepared_padded hprep) hin hs, bit, ite_one_iff, ite_pass_iff]

/-! ## `zk_kyc_v1` -/

theorem integerField_ok {payload : Json} {field : String} {i : ℤ} :
    integerField payload field = .ok i ↔ payload.get? field = some (.int i) := by
  unfold integerField
  split
  · next j hj => rw [hj]; simp
  · next hne =>
    constructor
    · intro h
      cases h
    · intro h
      exact absurd h (hne i)

theorem boundedField_ok {field : String} {maximum value : ℤ} {u : Unit} :
    boundedField field maximum value = .ok u ↔ 0 ≤ value ∧ value ≤ maximum := by
  rw [boundedField, raiseIf_ok, not_not]

/-- What is accepted is within the bounds of the circuit. -/
theorem kyc_normalized {evidence : Json} {m : KycEvidence} (h : KycEvidence.normalize evidence = .ok m) :
    (0 ≤ m.age ∧ m.age ≤ 130) ∧ (0 ≤ m.minAge ∧ m.minAge ≤ 130) ∧ (0 ≤ m.countryCode ∧ m.countryCode ≤ 999) ∧
      (0 ≤ m.allowedCountryCode ∧ m.allowedCountryCode ≤ 999) := by
  simp only [KycEvidence.normalize, bind_ok, pure_ok, boundedField_ok] at h
  obtain ⟨a, -, c, -, ma, -, ac, -, -, h1, -, h2, -, h3, -, h4, rfl⟩ := h
  exact ⟨h1, h2, h3, h4⟩

/-- The residue of a small non-negative integer. -/
theorem val_intCast_small {i : ℤ} (h0 : 0 ≤ i) (h : i < 2 ^ 67) : ((i : F).val : ℤ) = i := by
  obtain ⟨m, rfl⟩ := Int.eq_ofNat_of_zero_le h0
  rw [Int.cast_natCast, val_natCast (by exact_mod_cast h)]

/-- The signals at the private input of normalized evidence. -/
theorem zkKycAt_iff {m : KycEvidence} {s : ZkKycSignals} : ZkKycAt m.json s ↔
    s.age = m.age ∧ s.countryCode = m.countryCode ∧ s.minAge = m.minAge ∧
      s.allowedCountryCode = m.allowedCountryCode ∧ ZkKycV1 s := by
  have h1 : inputSignal? m.json "age" = some (m.age : F) := rfl
  have h2 : inputSignal? m.json "country_code" = some (m.countryCode : F) := rfl
  have h3 : inputSignal? m.json "min_age" = some (m.minAge : F) := rfl
  have h4 : inputSignal? m.json "allowed_country_code" = some (m.allowedCountryCode : F) := rfl
  constructor
  · intro h
    refine ⟨?_, ?_, ?_, ?_, h.holds⟩
    · exact Option.some.inj (h.age.symm.trans h1)
    · exact Option.some.inj (h.countryCode.symm.trans h2)
    · exact Option.some.inj (h.minAge.symm.trans h3)
    · exact Option.some.inj (h.allowedCountryCode.symm.trans h4)
  · rintro ⟨e1, e2, e3, e4, hs⟩
    exact ⟨by rw [h1, e1], by rw [h2, e2], by rw [h3, e3], by rw [h4, e4], hs⟩

/-- **`zk_kyc_v1`.** -/
theorem zkKyc_provable {sha256 : String → String} {evidence normalized : Json}
    (h : zkKycReference.normalize evidence = .ok normalized) : ShippedPolicy.zkKycV1.Provable sha256 evidence := by
  obtain ⟨m, hm, rfl⟩ := map_ok.1 (mapError_ok.1 h)
  obtain ⟨h1, h2, h3, h4⟩ := kyc_normalized hm
  have v1 := val_intCast_small h1.1 (by omega)
  have v2 := val_intCast_small h2.1 (by omega)
  have v3 := val_intCast_small h3.1 (by omega)
  have v4 := val_intCast_small h4.1 (by omega)
  refine ⟨m.json, m.json, _, h, rfl, rfl, ?_, ?_⟩
  · let s : ZkKycSignals := ⟨m.age, m.countryCode, m.minAge, m.allowedCountryCode,
      if (m.minAge : F).val ≤ (m.age : F).val ∧ (m.countryCode : F).val = (m.allowedCountryCode : F).val
      then 1 else 0⟩
    have hs : ZkKycV1 s := zkKyc_iff.2 ⟨by dsimp only [s]; omega, by dsimp only [s]; omega,
      by dsimp only [s]; omega, rfl⟩
    exact ⟨s.kycOk, s, zkKycAt_iff.2 ⟨rfl, rfl, rfl, rfl, hs⟩, rfl⟩
  · rintro out ⟨s, hat, rfl⟩
    obtain ⟨e1, e2, e3, e4, hs⟩ := zkKycAt_iff.1 hat
    obtain ⟨-, -, -, hok⟩ := zkKyc_iff.1 hs
    have hiff : (s.minAge.val ≤ s.age.val ∧ s.countryCode.val = s.allowedCountryCode.val) ↔
        m.minAge ≤ m.age ∧ m.countryCode = m.allowedCountryCode := by
      rw [e1, e2, e3, e4]
      omega
    rw [hok, ite_one_iff, ite_pass_iff, hiff, KycEvidence.passed, decide_eq_true_eq]

/-! ## `proof_of_reserves_v1` -/

theorem reserves_normalized {evidence : Json} {m : ReservesEvidence} (h : ReservesEvidence.normalize evidence = .ok m) :
    (evidenceFields evidence).get? "liabilities" = some (.int m.liabilities) ∧
      (evidenceFields evidence).get? "assets" = some (.int m.assets) := by
  simp only [ReservesEvidence.normalize, bind_ok, pure_ok, integerField_ok] at h
  obtain ⟨l, hl, a, ha, -, -, rfl⟩ := h
  exact ⟨hl, ha⟩

theorem proofOfReservesAt_iff {m : ReservesEvidence} {s : ProofOfReservesSignals} : ProofOfReservesAt m.json s ↔
    s.liabilities = m.liabilities ∧ s.assets = m.assets ∧ ProofOfReservesV1 s := by
  have h1 : inputSignal? m.json "liabilities" = some (m.liabilities : F) := rfl
  have h2 : inputSignal? m.json "assets" = some (m.assets : F) := rfl
  constructor
  · intro h
    exact ⟨Option.some.inj (h.liabilities.symm.trans h1), Option.some.inj (h.assets.symm.trans h2), h.holds⟩
  · rintro ⟨e1, e2, hs⟩
    exact ⟨by rw [h1, e1], by rw [h2, e2], hs⟩

/-- **`proof_of_reserves_v1`.** -/
theorem reserves_provable_iff {sha256 : String → String} {evidence normalized : Json}
    (h : proofOfReservesReference.normalize evidence = .ok normalized) :
    ShippedPolicy.proofOfReservesV1.Provable sha256 evidence ↔
      ShippedPolicy.proofOfReservesV1.WithinCircuit evidence := by
  obtain ⟨m, hm, rfl⟩ := map_ok.1 (mapError_ok.1 h)
  obtain ⟨hl, ha⟩ := reserves_normalized hm
  have vl : ((m.liabilities : F).val : ℤ) = m.liabilities % bn254 := ZMod.val_intCast _
  have va : ((m.assets : F).val : ℤ) = m.assets % bn254 := ZMod.val_intCast _
  constructor
  · rintro ⟨_, input, decision, hnorm, hinput, hdec, ⟨out, hout⟩, hall⟩ l a hl' ha'
    obtain rfl := Except.ok.inj (h.symm.trans hnorm)
    obtain rfl : m.json = input := Except.ok.inj hinput
    obtain rfl : (if m.solvent then PolicyDecision.pass else .fail) = decision := Except.ok.inj hdec
    obtain rfl : m.liabilities = l := by
      rw [hl] at hl'
      simpa using hl'
    obtain rfl : m.assets = a := by
      rw [ha] at ha'
      simpa using ha'
    have hone := hall out hout
    obtain ⟨s, hat, rfl⟩ := hout
    obtain ⟨e1, e2, hs⟩ := proofOfReservesAt_iff.1 hat
    obtain ⟨b1, b2, hok⟩ := proofOfReserves_iff.1 hs
    rw [e1] at b1
    rw [e2] at b2
    refine ⟨by omega, by omega, ?_⟩
    rw [hok, e1, e2, ite_one_iff, ite_pass_iff, ReservesEvidence.solvent, decide_eq_true_eq] at hone
    rw [← vl, ← va, ← hone, Nat.cast_le]
  · intro hw
    obtain ⟨b1, b2, hcmp⟩ := hw _ _ hl ha
    refine ⟨m.json, m.json, _, h, rfl, rfl, ?_, ?_⟩
    · let s : ProofOfReservesSignals := ⟨m.liabilities, m.assets,
        if (m.liabilities : F).val ≤ (m.assets : F).val then 1 else 0⟩
      have hs : ProofOfReservesV1 s := proofOfReserves_iff.2 ⟨by dsimp only [s]; omega, by dsimp only [s]; omega, rfl⟩
      exact ⟨s.solvencyOk, s, proofOfReservesAt_iff.2 ⟨rfl, rfl, hs⟩, rfl⟩
    · rintro out ⟨s, hat, rfl⟩
      obtain ⟨e1, e2, hs⟩ := proofOfReservesAt_iff.1 hat
      obtain ⟨-, -, hok⟩ := proofOfReserves_iff.1 hs
      have hiff : s.liabilities.val ≤ s.assets.val ↔ m.liabilities ≤ m.assets := by
        rw [e1, e2, ← hcmp, ← vl, ← va]
        omega
      rw [hok, ite_one_iff, ite_pass_iff, hiff, ReservesEvidence.solvent, decide_eq_true_eq]

/-! ## All of them -/

/-- **When evidence that is accepted is provable with the same outcome**: always, but for amounts
of `proof_of_reserves_v1` beyond the bound of its circuit. -/
theorem provable_iff (sha256 : String → String) (policy : ShippedPolicy) {evidence normalized : Json}
    (h : (policy.reference sha256).normalize evidence = .ok normalized) :
    policy.Provable sha256 evidence ↔ policy.WithinCircuit evidence := by
  cases policy with
  | lendingRiskV1 => exact iff_of_true (lending_provable h) trivial
  | lendingRiskPortfolioV1 => exact iff_of_true (lending_provable h) trivial
  | zkKycV1 => exact iff_of_true (zkKyc_provable h) trivial
  | proofOfReservesV1 => exact reserves_provable_iff h

/-- Liabilities and assets as inline evidence. -/
def reservesEvidence (liabilities assets : ℤ) : Json :=
  .obj [("liabilities", .int liabilities), ("assets", .int assets)]

theorem reservesEvidence_normalized {sha256 : String → String} {liabilities assets : ℤ} (hl : 0 ≤ liabilities)
    (ha : 0 ≤ assets) : (ShippedPolicy.proofOfReservesV1.reference sha256).normalize
      (reservesEvidence liabilities assets) = .ok (ReservesEvidence.json ⟨liabilities, assets⟩) := by
  have hok : ReservesEvidence.normalize (reservesEvidence liabilities assets) = .ok ⟨liabilities, assets⟩ := by
    simp only [ReservesEvidence.normalize, bind_ok, pure_ok, integerField_ok, raiseIf_ok]
    exact ⟨liabilities, rfl, assets, rfl, (), by omega, rfl⟩
  exact mapError_ok.2 (map_ok.2 ⟨_, hok, rfl⟩)

theorem provable_at_bound : ShippedPolicy.proofOfReservesV1.Provable id (reservesEvidence 5 1000000000000) := by
  refine (provable_iff id .proofOfReservesV1 (reservesEvidence_normalized (by norm_num) (by norm_num))).2 ?_
  intro l a hl ha
  obtain rfl : (5 : ℤ) = l := Json.int.inj (Option.some.inj hl)
  obtain rfl : (1000000000000 : ℤ) = a := Json.int.inj (Option.some.inj ha)
  decide +kernel

/-- One unit of assets more than the circuit takes: the reference passes, and no proof exists. -/
theorem reserves_not_provable :
    ¬ ∀ (policy : ShippedPolicy) evidence normalized, (policy.reference id).normalize evidence = .ok normalized →
      policy.Provable id evidence := by
  intro hall
  have hnorm := @reservesEvidence_normalized id 0 1000000000001 (by norm_num) (by norm_num)
  have hbound := ((reserves_provable_iff hnorm).1 (hall .proofOfReservesV1 _ _ hnorm) 0 1000000000001 rfl rfl).2.1
  revert hbound
  decide +kernel

end Vellum
