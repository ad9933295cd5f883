import Mathlib.Algebra.Order.Field.Basic
import Mathlib.Data.Rat.Cast.Order
import Vellum.Proof.Ranges
import Vellum.Spec.Circuits

/-!
# The circuits with bounded inputs

Each input stands between two comparators, so its canonical representative is in the range the
template writes down, whatever field element a prover puts there. Products of such inputs stay below
the modulus, and the last comparator of a template compares integers. A difference may be negative,
and wraps.

* `zkKyc_iff`, `proofOfReserves_iff`, `dti_iff`, `reserveRatio_iff`, `credit_iff`, `aml_iff`: what
  satisfies a template.
* `kyc_and_solvency_sound`: the two policies' circuits.
* `ratios_exact`: the two ratio circuits, and their input schemas.
* `scores_exact_iff`: when the published scores are those of the integers.
-/

namespace Vellum

open Circomlib

/-! ## Elements below `2^64` -/

theorem two_pow_67_lt : 2 ^ 67 < bn254 := by unfold bn254; norm_num

theorem two_pow_succ_le {n : ℕ} (hn : n ≤ 64) : 2 ^ (n + 1) ≤ 2 ^ 65 :=
  Nat.pow_le_pow_right (by norm_num) (by omega)

theorem val_natCast {m : ℕ} (h : m < 2 ^ 67) : (m : F).val = m := by
  have hp := two_pow_67_lt
  exact ZMod.val_natCast_of_lt (by omega)

/-- The two comparators at an input. -/
theorem bounded_iff (n lo hi : ℕ) (hn : n ≤ 64) (hlo : lo < 2 ^ n) (hhi : hi < 2 ^ n) {x : F} :
    GreaterEqThan n x lo 1 ∧ LessEqThan n x hi 1 ↔ lo ≤ x.val ∧ x.val ≤ hi := by
  have hp := two_pow_67_lt
  have hpow := two_pow_succ_le hn
  have hle : (2 : ℕ) ^ n ≤ 2 ^ (n + 1) := Nat.pow_le_pow_right (by norm_num) (by omega)
  exact between_iff (by omega) hlo hhi

/-- A comparator between elements of its range. -/
theorem lessEqThan_val {n : ℕ} (hn : n ≤ 64) {a b out : F} (ha : a.val < 2 ^ n) (hb : b.val < 2 ^ n) :
    LessEqThan n a b out ↔ out = if a.val ≤ b.val then 1 else 0 := by
  have hp := two_pow_67_lt
  have hpow := two_pow_succ_le hn
  have h : LessEqThan n (a.val : F) b.val out ↔ _ := lessEqThan_nat (by omega) (by omega) (by omega)
  rw [ZMod.natCast_zmod_val, ZMod.natCast_zmod_val] at h
  exact h

theorem greaterEqThan_val {n : ℕ} (hn : n ≤ 64) {a b out : F} (ha : a.val < 2 ^ n) (hb : b.val < 2 ^ n) :
    GreaterEqThan n a b out ↔ out = if b.val ≤ a.val then 1 else 0 :=
  lessEqThan_val hn hb ha

/-- The last constraint of a template holds of every output of a comparator. -/
theorem bit_of_ite {P : Prop} [Decidable P] {out : F} (h : out = if P then 1 else 0) : out * (out - 1) = 0 := by
  by_cases hP : P
  · rw [h, if_pos hP]
    ring
  · rw [h, if_neg hP]
    ring

/-- A product that stays below the modulus. -/
theorem val_mul_of_lt {a b : F} (h : a.val * b.val < 2 ^ 67) : (a * b).val = a.val * b.val := by
  have hp := two_pow_67_lt
  rw [ZMod.val_mul, Nat.mod_eq_of_lt (by omega)]

theorem val_mul_natCast {a : F} {m : ℕ} (hm : m < 2 ^ 67) (h : a.val * m < 2 ^ 67) : (a * m).val = a.val * m := by
  have hv := val_natCast hm
  rw [val_mul_of_lt (by rw [hv]; exact h), hv]

/-! ## The templates -/

/-- **`ZkKycV1`.** -/
theorem zkKyc_iff {s : ZkKycSignals} : ZkKycV1 s ↔ s.age.val ≤ 130 ∧ s.minAge.val ≤ 130 ∧ s.countryCode.val ≤ 999 ∧
    s.kycOk = if s.minAge.val ≤ s.age.val ∧ s.countryCode.val = s.allowedCountryCode.val then 1 else 0 := by
  have hage := @bounded_iff 32 0 130 (by norm_num) (by norm_num) (by norm_num) s.age
  have hmin := @bounded_iff 32 0 130 (by norm_num) (by norm_num) (by norm_num) s.minAge
  have hcountry := @bounded_iff 32 0 999 (by norm_num) (by norm_num) (by norm_num) s.countryCode
  have heq : s.countryCode = s.allowedCountryCode ↔ s.countryCode.val = s.allowedCountryCode.val :=
    (ZMod.val_injective bn254).eq_iff.symm
  have hout : (if s.minAge.val ≤ s.age.val then (1 : F) else 0) *
      (if s.countryCode = s.allowedCountryCode then 1 else 0) =
        if s.minAge.val ≤ s.age.val ∧ s.countryCode.val = s.allowedCountryCode.val then 1 else 0 := by
    by_cases h1 : s.minAge.val ≤ s.age.val <;> by_cases h2 : s.countryCode = s.allowedCountryCode <;>
      simp [h1, h2, ← heq]
  constructor
  · intro h
    have h1 := (hage.1 ⟨h.ageGeZero, h.ageLeMax⟩).2
    have h2 := (hmin.1 ⟨h.minAgeGeZero, h.minAgeLeMax⟩).2
    have h3 := (hcountry.1 ⟨h.countryGeZero, h.countryLeMax⟩).2
    obtain ⟨ageCmp, countryEq, hcmp, heqOut, hkyc⟩ := h.kycOk
    rw [greaterEqThan_val (by norm_num) (by omega) (by omega)] at hcmp
    rw [isEqual_iff] at heqOut
    refine ⟨h1, h2, h3, ?_⟩
    rw [hkyc, hcmp, heqOut, hout]
  · rintro ⟨h1, h2, h3, hkyc⟩
    obtain ⟨a1, a2⟩ := hage.2 ⟨Nat.zero_le _, h1⟩
    obtain ⟨m1, m2⟩ := hmin.2 ⟨Nat.zero_le _, h2⟩
    obtain ⟨c1, c2⟩ := hcountry.2 ⟨Nat.zero_le _, h3⟩
    have hcmp : GreaterEqThan 32 s.age s.minAge _ :=
      (greaterEqThan_val (by norm_num) (by omega) (by omega)).2 rfl
    refine ⟨a1, a2, m1, m2, c1, c2, ⟨_, _, hcmp, isEqual_iff.2 rfl, ?_⟩, bit_of_ite hkyc⟩
    rw [hkyc, hout]

/-- **`ProofOfReservesV1`.** -/
theorem proofOfReserves_iff {s : ProofOfReservesSignals} :
    ProofOfReservesV1 s ↔ s.liabilities.val ≤ 1000000000000 ∧ s.assets.val ≤ 1000000000000 ∧
      s.solvencyOk = if s.liabilities.val ≤ s.assets.val then 1 else 0 := by
  have hlia := @bounded_iff 64 0 1000000000000 (by norm_num) (by norm_num) (by norm_num) s.liabilities
  have hass := @bounded_iff 64 0 1000000000000 (by norm_num) (by norm_num) (by norm_num) s.assets
  constructor
  · intro h
    have h1 := (hlia.1 ⟨h.liabilitiesGeZero, h.liabilitiesLeMax⟩).2
    have h2 := (hass.1 ⟨h.assetsGeZero, h.assetsLeMax⟩).2
    exact ⟨h1, h2, (greaterEqThan_val (by norm_num) (by omega) (by omega)).1 h.solvencyOk⟩
  · rintro ⟨h1, h2, hok⟩
    obtain ⟨l1, l2⟩ := hlia.2 ⟨Nat.zero_le _, h1⟩
    obtain ⟨a1, a2⟩ := hass.2 ⟨Nat.zero_le _, h2⟩
    exact ⟨l1, l2, a1, a2, (greaterEqThan_val (by norm_num) (by omega) (by omega)).2 hok, bit_of_ite hok⟩

/-- **The two policies' circuits are sound.** An assignment is any field elements. -/
theorem kyc_and_solvency_sound :
    (∀ s, ZkKycV1 s → s.age.val ≤ 130 ∧ s.minAge.val ≤ 130 ∧ s.countryCode.val ≤ 999 ∧
      s.kycOk = if s.minAge.val ≤ s.age.val ∧ s.countryCode.val = s.allowedCountryCode.val then 1 else 0) ∧
    ∀ s, ProofOfReservesV1 s → s.liabilities.val ≤ 1000000000000 ∧ s.assets.val ≤ 1000000000000 ∧
      s.solvencyOk = if s.liabilities.val ≤ s.assets.val then 1 else 0 :=
  ⟨fun _ h => zkKyc_iff.1 h, fun _ h => proofOfReserves_iff.1 h⟩

theorem kyc_and_solvency_sound_adult :
    ZkKycV1 ⟨(30 : ℕ), (276 : ℕ), (18 : ℕ), (276 : ℕ), 1⟩ ∧ ((30 : ℕ) : F).val ≤ 130 ∧
      ProofOfReservesV1 ⟨(5 : ℕ), (3 : ℕ), 0⟩ ∧ ((5 : ℕ) : F).val ≤ 1000000000000 := by
  have hkyc : ZkKycV1 ⟨(30 : ℕ), (276 : ℕ), (18 : ℕ), (276 : ℕ), 1⟩ := by
    rw [zkKyc_iff]
    simp (disch := norm_num) only [val_natCast]
    norm_num
  have hsolvency : ProofOfReservesV1 ⟨(5 : ℕ), (3 : ℕ), 0⟩ := by
    rw [proofOfReserves_iff]
    simp (disch := norm_num) only [val_natCast]
    norm_num
  exact ⟨hkyc, (kyc_and_solvency_sound.1 _ hkyc).1, hsolvency, (kyc_and_solvency_sound.2 _ hsolvency).1⟩

/-! ## Ratios -/

/-- The two sides of a scaled comparison, below the modulus and in the range of the comparator. -/
theorem scaled_val {a b c : F} (ha : a.val ≤ 1000000000) (hb : b.val ≤ 1000000000) (hc : c.val ≤ 20000) :
    (a * (10000 : ℕ)).val = a.val * 10000 ∧ (b * c).val = b.val * c.val ∧ a.val * 10000 < 2 ^ 64 ∧
      b.val * c.val < 2 ^ 64 := by
  have hbc : b.val * c.val ≤ 1000000000 * 20000 := Nat.mul_le_mul hb hc
  exact ⟨val_mul_natCast (by norm_num) (by omega), val_mul_of_lt (by omega), by omega, by omega⟩

/-- **`DTICheck`.** -/
theorem dti_iff {s : DTISignals} : DTICheck s ↔
    (1 ≤ s.monthlyIncome.val ∧ s.monthlyIncome.val ≤ 1000000000) ∧ s.monthlyDebtPayment.val ≤ 1000000000 ∧
      (1 ≤ s.maxDtiBps.val ∧ s.maxDtiBps.val ≤ 10000) ∧ s.scaledDebt = s.monthlyDebtPayment * (10000 : ℕ) ∧
      s.scaledIncomeLimit = s.monthlyIncome * s.maxDtiBps ∧
      s.dtiOk = if s.monthlyDebtPayment.val * 10000 ≤ s.monthlyIncome.val * s.maxDtiBps.val then 1 else 0 := by
  have hincome := @bounded_iff 64 1 1000000000 (by norm_num) (by norm_num) (by norm_num) s.monthlyIncome
  have hdebt := @bounded_iff 64 0 1000000000 (by norm_num) (by norm_num) (by norm_num) s.monthlyDebtPayment
  have hbps := @bounded_iff 32 1 10000 (by norm_num) (by norm_num) (by norm_num) s.maxDtiBps
  constructor
  · intro h
    have h1 := hincome.1 ⟨h.incomeGeMin, h.incomeLeMax⟩
    have h2 := (hdebt.1 ⟨h.debtGeZero, h.debtLeMax⟩).2
    have h3 := hbps.1 ⟨h.maxBpsGeMin, h.maxBpsLeMax⟩
    obtain ⟨e1, e2, l1, l2⟩ := scaled_val h2 h1.2 (h3.2.trans (by norm_num))
    have hcmp := h.dtiCmp
    rw [h.scaledDebt, h.scaledIncomeLimit, lessEqThan_val (by norm_num) (by rw [e1]; exact l1) (by rw [e2]; exact l2),
      e1, e2] at hcmp
    exact ⟨h1, h2, h3, h.scaledDebt, h.scaledIncomeLimit, hcmp⟩
  · rintro ⟨h1, h2, h3, hsd, hsi, hok⟩
    obtain ⟨i1, i2⟩ := hincome.2 h1
    obtain ⟨d1, d2⟩ := hdebt.2 ⟨Nat.zero_le _, h2⟩
    obtain ⟨b1, b2⟩ := hbps.2 h3
    obtain ⟨e1, e2, l1, l2⟩ := scaled_val h2 h1.2 (h3.2.trans (by norm_num))
    refine ⟨i1, i2, d1, d2, b1, b2, hsd, hsi, ?_, bit_of_ite hok⟩
    rw [hsd, hsi, lessEqThan_val (by norm_num) (by rw [e1]; exact l1) (by rw [e2]; exact l2), e1, e2]
    exact hok

theorem dti_satisfiable {income debt bps : F} (h1 : 1 ≤ income.val ∧ income.val ≤ 1000000000)
    (h2 : debt.val ≤ 1000000000) (h3 : 1 ≤ bps.val ∧ bps.val ≤ 10000) :
    ∃ s, DTICheck s ∧ s.monthlyIncome = income ∧ s.monthlyDebtPayment = debt ∧ s.maxDtiBps = bps := by
  let s : DTISignals := ⟨income, debt, bps, if debt.val * 10000 ≤ income.val * bps.val then 1 else 0,
    debt * (10000 : ℕ), income * bps⟩
  have hs : DTICheck s := dti_iff.2 ⟨h1, h2, h3, rfl, rfl, rfl⟩
  exact ⟨s, hs, rfl, rfl, rfl⟩

/-- **`ReserveRatioCheck`.** -/
theorem reserveRatio_iff {s : ReserveRatioSignals} : ReserveRatioCheck s ↔
    s.liquidAssets.val ≤ 1000000000 ∧ (1 ≤ s.shortTermLiabilities.val ∧ s.shortTermLiabilities.val ≤ 1000000000) ∧
      (1 ≤ s.minReserveRatioBps.val ∧ s.minReserveRatioBps.val ≤ 20000) ∧
      s.scaledAssets = s.liquidAssets * (10000 : ℕ) ∧
      s.scaledRequired = s.shortTermLiabilities * s.minReserveRatioBps ∧
      s.reserveOk =
        if s.shortTermLiabilities.val * s.minReserveRatioBps.val ≤ s.liquidAssets.val * 10000 then 1 else 0 := by
  have hassets := @bounded_iff 64 0 1000000000 (by norm_num) (by norm_num) (by norm_num) s.liquidAssets
  have hlia := @bounded_iff 64 1 1000000000 (by norm_num) (by norm_num) (by norm_num) s.shortTermLiabilities
  have hbps := @bounded_iff 32 1 20000 (by norm_num) (by norm_num) (by norm_num) s.minReserveRatioBps
  constructor
  · intro h
    have h1 := (hassets.1 ⟨h.assetsGeZero, h.assetsLeMax⟩).2
    have h2 := hlia.1 ⟨h.liabilitiesGeMin, h.liabilitiesLeMax⟩
    have h3 := hbps.1 ⟨h.minRatioGeMin, h.minRatioLeMax⟩
    obtain ⟨e1, e2, l1, l2⟩ := scaled_val h1 h2.2 h3.2
    have hcmp := h.reserveCmp
    rw [h.scaledAssets, h.scaledRequired,
      greaterEqThan_val (by norm_num) (by rw [e1]; exact l1) (by rw [e2]; exact l2), e1, e2] at hcmp
    exact ⟨h1, h2, h3, h.scaledAssets, h.scaledRequired, hcmp⟩
  · rintro ⟨h1, h2, h3, hsa, hsr, hok⟩
    obtain ⟨a1, a2⟩ := hassets.2 ⟨Nat.zero_le _, h1⟩
    obtain ⟨l1, l2⟩ := hlia.2 h2
    obtain ⟨b1, b2⟩ := hbps.2 h3
    obtain ⟨e1, e2, k1, k2⟩ := scaled_val h1 h2.2 h3.2
    refine ⟨a1, a2, l1, l2, b1, b2, hsa, hsr, ?_, bit_of_ite hok⟩
    rw [hsa, hsr, greaterEqThan_val (by norm_num) (by rw [e1]; exact k1) (by rw [e2]; exact k2), e1, e2]
    exact hok

theorem reserveRatio_satisfiable {assets liabilities bps : F} (h1 : assets.val ≤ 1000000000)
    (h2 : 1 ≤ liabilities.val ∧ liabilities.val ≤ 1000000000) (h3 : 1 ≤ bps.val ∧ bps.val ≤ 20000) :
    ∃ s, ReserveRatioCheck s ∧ s.liquidAssets = assets ∧ s.shortTermLiabilities = liabilities ∧
      s.minReserveRatioBps = bps := by
  let s : ReserveRatioSignals := ⟨assets, liabilities, bps,
    if liabilities.val * bps.val ≤ assets.val * 10000 then 1 else 0, assets * (10000 : ℕ), liabilities * bps⟩
  have hs : ReserveRatioCheck s := reserveRatio_iff.2 ⟨h1, h2, h3, rfl, rfl, rfl⟩
  exact ⟨s, hs, rfl, rfl, rfl⟩

/-- Cross-multiplication. -/
theorem ratio_le_iff {a b c : ℕ} (hb : 1 ≤ b) : (a : ℚ) / b ≤ (c : ℚ) / 10000 ↔ a * 10000 ≤ b * c := by
  have hb' : (0 : ℚ) < b := by exact_mod_cast hb
  rw [div_le_div_iff₀ hb' (by norm_num), mul_comm (c : ℚ)]
  exact_mod_cast Iff.rfl

theorem le_ratio_iff {a b c : ℕ} (hb : 1 ≤ b) : (c : ℚ) / 10000 ≤ (a : ℚ) / b ↔ b * c ≤ a * 10000 := by
  have hb' : (0 : ℚ) < b := by exact_mod_cast hb
  rw [div_le_div_iff₀ (by norm_num) hb', mul_comm (c : ℚ)]
  exact_mod_cast Iff.rfl

/-- A value the schema admits, in the field. -/
theorem admitted_val {schema : List IntegerProperty} {input : Json} {value : String → ℤ}
    (h : SchemaAdmits schema input value) {p : IntegerProperty} (hp : p ∈ schema) {lo hi : ℕ}
    (hlo : p.minimum = lo) (hhi : p.maximum = hi) (hsmall : hi < 2 ^ 67) :
    lo ≤ (value p.name : F).val ∧ (value p.name : F).val ≤ hi := by
  obtain ⟨fields, -, -, hall⟩ := h
  obtain ⟨-, h1, h2⟩ := hall p hp
  rw [hlo] at h1
  rw [hhi] at h2
  obtain ⟨m, hm⟩ := Int.eq_ofNat_of_zero_le (le_trans (Int.natCast_nonneg lo) h1)
  rw [hm] at h1 h2 ⊢
  have hv : ((m : ℤ) : F).val = m := by
    rw [Int.cast_natCast]
    exact val_natCast (by omega)
  omega

/-- **The ratio circuits compare exactly**, and are satisfiable at every input of their schemas. -/
theorem ratios_exact :
    (∀ s, DTICheck s →
      (s.dtiOk = if (s.monthlyDebtPayment.val : ℚ) / s.monthlyIncome.val ≤ (s.maxDtiBps.val : ℚ) / 10000
        then 1 else 0) ∧
      (s.scaledDebt.val = s.monthlyDebtPayment.val * 10000 ∧ s.scaledDebt.val < 2 ^ 64) ∧
      s.scaledIncomeLimit.val = s.monthlyIncome.val * s.maxDtiBps.val ∧ s.scaledIncomeLimit.val < 2 ^ 64) ∧
    (∀ s, ReserveRatioCheck s →
      (s.reserveOk =
        if (s.minReserveRatioBps.val : ℚ) / 10000 ≤ (s.liquidAssets.val : ℚ) / s.shortTermLiabilities.val
        then 1 else 0) ∧
      (s.scaledAssets.val = s.liquidAssets.val * 10000 ∧ s.scaledAssets.val < 2 ^ 64) ∧
      s.scaledRequired.val = s.shortTermLiabilities.val * s.minReserveRatioBps.val ∧
      s.scaledRequired.val < 2 ^ 64) ∧
    (∀ input value, SchemaAdmits dtiInputSchema input value → ∃ s, DTICheck s ∧
      s.monthlyIncome = value "monthly_income" ∧ s.monthlyDebtPayment = value "monthly_debt_payment" ∧
      s.maxDtiBps = value "max_dti_bps") ∧
    ∀ input value, SchemaAdmits reserveRatioInputSchema input value → ∃ s, ReserveRatioCheck s ∧
      s.liquidAssets = value "liquid_assets" ∧ s.shortTermLiabilities = value "short_term_liabilities" ∧
      s.minReserveRatioBps = value "min_reserve_ratio_bps" := by
  refine ⟨fun s h => ?_, fun s h => ?_, fun input value h => ?_, fun input value h => ?_⟩
  · obtain ⟨h1, h2, h3, hsd, hsi, hok⟩ := dti_iff.1 h
    obtain ⟨e1, e2, l1, l2⟩ := scaled_val h2 h1.2 (h3.2.trans (by norm_num))
    rw [hsd, hsi, e1, e2, hok]
    simp only [ratio_le_iff h1.1]
    exact ⟨trivial, ⟨trivial, l1⟩, trivial, l2⟩
  · obtain ⟨h1, h2, h3, hsa, hsr, hok⟩ := reserveRatio_iff.1 h
    obtain ⟨e1, e2, l1, l2⟩ := scaled_val h1 h2.2 h3.2
    rw [hsa, hsr, e1, e2, hok]
    simp only [le_ratio_iff h2.1]
    exact ⟨trivial, ⟨trivial, l1⟩, trivial, l2⟩
  · have h1 := @admitted_val _ _ _ h ⟨"monthly_income", 1, 1000000000⟩ (by simp [dtiInputSchema]) 1 1000000000
      rfl rfl (by norm_num)
    have h2 := @admitted_val _ _ _ h ⟨"monthly_debt_payment", 0, 1000000000⟩ (by simp [dtiInputSchema]) 0 1000000000
      rfl rfl (by norm_num)
    have h3 := @admitted_val _ _ _ h ⟨"max_dti_bps", 1, 10000⟩ (by simp [dtiInputSchema]) 1 10000
      rfl rfl (by norm_num)
    exact dti_satisfiable h1 h2.2 h3
  · have h1 := @admitted_val _ _ _ h ⟨"liquid_assets", 0, 1000000000⟩ (by simp [reserveRatioInputSchema]) 0
      1000000000 rfl rfl (by norm_num)
    have h2 := @admitted_val _ _ _ h ⟨"short_term_liabilities", 1, 1000000000⟩ (by simp [reserveRatioInputSchema]) 1
      1000000000 rfl rfl (by norm_num)
    have h3 := @admitted_val _ _ _ h ⟨"min_reserve_ratio_bps", 1, 20000⟩ (by simp [reserveRatioInputSchema]) 1
      20000 rfl rfl (by norm_num)
    exact reserveRatio_satisfiable h1.2 h2 h3

/-- A third of the income against half of it. -/
theorem ratios_exact_third :
    DTICheck ⟨(3000 : ℕ), (1000 : ℕ), (5000 : ℕ), 1, (10000000 : ℕ), (15000000 : ℕ)⟩ ∧
      ((10000000 : ℕ) : F).val < 2 ^ 64 ∧
      ∃ s, DTICheck s ∧ s.monthlyIncome = (3000 : ℤ) := by
  have h : DTICheck ⟨(3000 : ℕ), (1000 : ℕ), (5000 : ℕ), 1, (10000000 : ℕ), (15000000 : ℕ)⟩ := by
    rw [dti_iff]
    simp (disch := norm_num) only [val_natCast]
    norm_num
  have hadmits : SchemaAdmits dtiInputSchema
      (.obj [("monthly_income", .int 3000), ("monthly_debt_payment", .int 1000), ("max_dti_bps", .int 5000)])
      (fun name => if name = "monthly_income" then 3000 else if name = "max_dti_bps" then 5000 else 1000) := by
    refine ⟨_, rfl, ?_, ?_⟩
    · intro f hf
      have hnames : f.1 ∈ dtiInputSchema.map IntegerProperty.name := List.mem_map_of_mem hf
      obtain ⟨p, hp, hname⟩ := List.mem_map.1 hnames
      exact ⟨p, hp, hname⟩
    · intro p hp
      simp only [dtiInputSchema, List.mem_cons, List.not_mem_nil, or_false] at hp
      rcases hp with rfl | rfl | rfl <;> exact ⟨rfl, by decide, by decide⟩
  obtain ⟨s, hs, hincome, -⟩ := ratios_exact.2.2.1 _ _ hadmits
  exact ⟨h, (ratios_exact.1 _ h).2.1.2, s, hs, hincome⟩

/-! ## Scores -/

/-- **`CreditCheck`.** -/
theorem credit_iff {s : CreditSignals} : CreditCheck s ↔ s.creditScore.val ≤ 900 ∧ s.debtRatio.val ≤ 1000000 ∧
    s.riskScore = s.creditScore * (1000 : ℕ) - s.debtRatio := by
  have hcredit := @bounded_iff 32 0 900 (by norm_num) (by norm_num) (by norm_num) s.creditScore
  have hdebt := @bounded_iff 32 0 1000000 (by norm_num) (by norm_num) (by norm_num) s.debtRatio
  constructor
  · intro h
    exact ⟨(hcredit.1 ⟨h.creditGeZero, h.creditLeMax⟩).2, (hdebt.1 ⟨h.debtGeZero, h.debtLeMax⟩).2, h.riskScore⟩
  · rintro ⟨h1, h2, hrisk⟩
    obtain ⟨c1, c2⟩ := hcredit.2 ⟨Nat.zero_le _, h1⟩
    obtain ⟨d1, d2⟩ := hdebt.2 ⟨Nat.zero_le _, h2⟩
    exact ⟨c1, c2, d1, d2, hrisk⟩

/-- **`AMLCheck`.** -/
theorem aml_iff {s : AMLSignals} : AMLCheck s ↔ s.amount.val ≤ 1000000000 ∧ s.riskWeight.val ≤ 10000 ∧
    s.amlScore = s.amount * s.riskWeight := by
  have hamount := @bounded_iff 64 0 1000000000 (by norm_num) (by norm_num) (by norm_num) s.amount
  have hweight := @bounded_iff 32 0 10000 (by norm_num) (by norm_num) (by norm_num) s.riskWeight
  constructor
  · intro h
    exact ⟨(hamount.1 ⟨h.amountGeZero, h.amountLeMax⟩).2, (hweight.1 ⟨h.weightGeZero, h.weightLeMax⟩).2, h.amlScore⟩
  · rintro ⟨h1, h2, hscore⟩
    obtain ⟨a1, a2⟩ := hamount.2 ⟨Nat.zero_le _, h1⟩
    obtain ⟨w1, w2⟩ := hweight.2 ⟨Nat.zero_le _, h2⟩
    exact ⟨a1, a2, w1, w2, hscore⟩

/-- The product is at most `10^13`. -/
theorem aml_exact {s : AMLSignals} (h : AMLCheck s) : s.amlScore.val = s.amount.val * s.riskWeight.val := by
  obtain ⟨h1, h2, hscore⟩ := aml_iff.1 h
  have hle : s.amount.val * s.riskWeight.val ≤ 1000000000 * 10000 := Nat.mul_le_mul h1 h2
  rw [hscore, val_mul_of_lt (by omega)]

/-- A difference of field elements is that of their representatives, except below zero. -/
theorem credit_exact_iff {s : CreditSignals} (h : CreditCheck s) :
    (s.riskScore.val : ℤ) = s.creditScore.val * 1000 - s.debtRatio.val ↔
      s.debtRatio.val ≤ s.creditScore.val * 1000 := by
  obtain ⟨h1, h2, hrisk⟩ := credit_iff.1 h
  have hmul : (s.creditScore * (1000 : ℕ)).val = s.creditScore.val * 1000 :=
    val_mul_natCast (by norm_num) (by omega)
  constructor
  · intro heq
    have hnonneg : (0 : ℤ) ≤ s.riskScore.val := Int.natCast_nonneg _
    omega
  · intro hle
    rw [hrisk, ZMod.val_sub (by rw [hmul]; exact hle), hmul]
    omega

/-- **The published scores are exact** where the debt ratio is at most a thousand times the score. -/
theorem scores_exact_iff {s : CreditSignals} {t : AMLSignals} (hs : CreditCheck s) (ht : AMLCheck t) :
    ((s.riskScore.val : ℤ) = s.creditScore.val * 1000 - s.debtRatio.val ∧
      (t.amlScore.val : ℤ) = t.amount.val * t.riskWeight.val) ↔
      s.debtRatio.val ≤ s.creditScore.val * 1000 := by
  rw [credit_exact_iff hs, aml_exact ht]
  push_cast
  exact and_iff_left rfl

theorem scores_exact_prime :
    CreditCheck ⟨(700 : ℕ), (250000 : ℕ), (450000 : ℕ)⟩ ∧ AMLCheck ⟨(1000 : ℕ), (25 : ℕ), (25000 : ℕ)⟩ ∧
      (((450000 : ℕ) : F).val : ℤ) = ((700 : ℕ) : F).val * 1000 - ((250000 : ℕ) : F).val := by
  have hs : CreditCheck ⟨(700 : ℕ), (250000 : ℕ), (450000 : ℕ)⟩ := by
    rw [credit_iff]
    simp (disch := norm_num) only [val_natCast]
    norm_num
  have ht : AMLCheck ⟨(1000 : ℕ), (25 : ℕ), (25000 : ℕ)⟩ := by
    rw [aml_iff]
    simp (disch := norm_num) only [val_natCast]
    norm_num
  refine ⟨hs, ht, ((scores_exact_iff hs ht).2 ?_).1⟩
  simp (disch := norm_num) only [val_natCast]
  norm_num

/-- A score of zero with any debt is published as the modulus less that debt. -/
theorem negative_score_wraps :
    ¬ ((∀ s, CreditCheck s → (s.riskScore.val : ℤ) = s.creditScore.val * 1000 - s.debtRatio.val) ∧
      ∀ t, AMLCheck t → (t.amlScore.val : ℤ) = t.amount.val * t.riskWeight.val) := by
  rintro ⟨hall, -⟩
  let s : CreditSignals := ⟨(0 : ℕ), (1 : ℕ), ((0 : ℕ) : F) * (1000 : ℕ) - (1 : ℕ)⟩
  have h0 : s.creditScore.val = 0 := val_natCast (by norm_num)
  have h1 : s.debtRatio.val = 1 := val_natCast (by norm_num)
  have hs : CreditCheck s := credit_iff.2 ⟨by omega, by omega, rfl⟩
  have hle := (credit_exact_iff hs).1 (hall s hs)
  omega

end Vellum
