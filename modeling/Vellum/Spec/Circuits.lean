import Vellum.Lib.Bn254
import Vellum.Lib.Circomlib
import Vellum.Lib.PyText

/-!
# The circuits with bounded inputs

`zk_kyc_v1`, `proof_of_reserves_v1`, `dti_check`, `reserve_ratio_check`, `credit_check` and
`aml_check` under `circuits/`, each template as the relation its constraints define over the BN254
scalar field, with the input schemas of two of their manifests. A component whose output is compared
with one has that output here; other components are existential.
-/

namespace Vellum

open Circomlib

/-! ## `zk_kyc_v1` -/

structure ZkKycSignals where
  age : F
  countryCode : F
  minAge : F
  allowedCountryCode : F
  kycOk : F

/-- `ZkKycV1()`. The allowed country is not bounded. -/
structure ZkKycV1 (s : ZkKycSignals) : Prop where
  ageGeZero : GreaterEqThan 32 s.age (0 : ℕ) 1
  ageLeMax : LessEqThan 32 s.age (130 : ℕ) 1
  minAgeGeZero : GreaterEqThan 32 s.minAge (0 : ℕ) 1
  minAgeLeMax : LessEqThan 32 s.minAge (130 : ℕ) 1
  countryGeZero : GreaterEqThan 32 s.countryCode (0 : ℕ) 1
  countryLeMax : LessEqThan 32 s.countryCode (999 : ℕ) 1
  kycOk : ∃ ageCmp countryEq, GreaterEqThan 32 s.age s.minAge ageCmp ∧
    IsEqual s.countryCode s.allowedCountryCode countryEq ∧ s.kycOk = ageCmp * countryEq
  kycOkBit : s.kycOk * (s.kycOk - 1) = 0

/-! ## `proof_of_reserves_v1` -/

structure ProofOfReservesSignals where
  liabilities : F
  assets : F
  solvencyOk : F

/-- `ProofOfReservesV1()`. -/
structure ProofOfReservesV1 (s : ProofOfReservesSignals) : Prop where
  liabilitiesGeZero : GreaterEqThan 64 s.liabilities (0 : ℕ) 1
  liabilitiesLeMax : LessEqThan 64 s.liabilities (1000000000000 : ℕ) 1
  assetsGeZero : GreaterEqThan 64 s.assets (0 : ℕ) 1
  assetsLeMax : LessEqThan 64 s.assets (1000000000000 : ℕ) 1
  solvencyOk : GreaterEqThan 64 s.assets s.liabilities s.solvencyOk
  solvencyOkBit : s.solvencyOk * (s.solvencyOk - 1) = 0

/-! ## `dti_check` -/

structure DTISignals where
  monthlyIncome : F
  monthlyDebtPayment : F
  maxDtiBps : F
  dtiOk : F
  scaledDebt : F
  scaledIncomeLimit : F

/-- `DTICheck()`. -/
structure DTICheck (s : DTISignals) : Prop where
  incomeGeMin : GreaterEqThan 64 s.monthlyIncome (1 : ℕ) 1
  incomeLeMax : LessEqThan 64 s.monthlyIncome (1000000000 : ℕ) 1
  debtGeZero : GreaterEqThan 64 s.monthlyDebtPayment (0 : ℕ) 1
  debtLeMax : LessEqThan 64 s.monthlyDebtPayment (1000000000 : ℕ) 1
  maxBpsGeMin : GreaterEqThan 32 s.maxDtiBps (1 : ℕ) 1
  maxBpsLeMax : LessEqThan 32 s.maxDtiBps (10000 : ℕ) 1
  scaledDebt : s.scaledDebt = s.monthlyDebtPayment * (10000 : ℕ)
  scaledIncomeLimit : s.scaledIncomeLimit = s.monthlyIncome * s.maxDtiBps
  dtiCmp : LessEqThan 64 s.scaledDebt s.scaledIncomeLimit s.dtiOk
  dtiOkBit : s.dtiOk * (s.dtiOk - 1) = 0

/-! ## `reserve_ratio_check` -/

structure ReserveRatioSignals where
  liquidAssets : F
  shortTermLiabilities : F
  minReserveRatioBps : F
  reserveOk : F
  scaledAssets : F
  scaledRequired : F

/-- `ReserveRatioCheck()`. -/
structure ReserveRatioCheck (s : ReserveRatioSignals) : Prop where
  assetsGeZero : GreaterEqThan 64 s.liquidAssets (0 : ℕ) 1
  assetsLeMax : LessEqThan 64 s.liquidAssets (1000000000 : ℕ) 1
  liabilitiesGeMin : GreaterEqThan 64 s.shortTermLiabilities (1 : ℕ) 1
  liabilitiesLeMax : LessEqThan 64 s.shortTermLiabilities (1000000000 : ℕ) 1
  minRatioGeMin : GreaterEqThan 32 s.minReserveRatioBps (1 : ℕ) 1
  minRatioLeMax : LessEqThan 32 s.minReserveRatioBps (20000 : ℕ) 1
  scaledAssets : s.scaledAssets = s.liquidAssets * (10000 : ℕ)
  scaledRequired : s.scaledRequired = s.shortTermLiabilities * s.minReserveRatioBps
  reserveCmp : GreaterEqThan 64 s.scaledAssets s.scaledRequired s.reserveOk
  reserveOkBit : s.reserveOk * (s.reserveOk - 1) = 0

/-! ## `credit_check` and `aml_check` -/

structure CreditSignals where
  creditScore : F
  debtRatio : F
  riskScore : F

/-- `CreditCheck()`. The operands are bounded, their difference is not. -/
structure CreditCheck (s : CreditSignals) : Prop where
  creditGeZero : GreaterEqThan 32 s.creditScore (0 : ℕ) 1
  creditLeMax : LessEqThan 32 s.creditScore (900 : ℕ) 1
  debtGeZero : GreaterEqThan 32 s.debtRatio (0 : ℕ) 1
  debtLeMax : LessEqThan 32 s.debtRatio (1000000 : ℕ) 1
  riskScore : s.riskScore = s.creditScore * (1000 : ℕ) - s.debtRatio

structure AMLSignals where
  amount : F
  riskWeight : F
  amlScore : F

/-- `AMLCheck()`. -/
structure AMLCheck (s : AMLSignals) : Prop where
  amountGeZero : GreaterEqThan 64 s.amount (0 : ℕ) 1
  amountLeMax : LessEqThan 64 s.amount (1000000000 : ℕ) 1
  weightGeZero : GreaterEqThan 32 s.riskWeight (0 : ℕ) 1
  weightLeMax : LessEqThan 32 s.riskWeight (10000 : ℕ) 1
  amlScore : s.amlScore = s.amount * s.riskWeight

/-! ## Input schemas -/

/-- A property of type `integer`. -/
structure IntegerProperty where
  name : String
  minimum : ℤ
  maximum : ℤ

/-- A number that JSON Schema counts as an integer: `2.0` is one. -/
def Json.integer? : Json → Option ℤ
  | .int i => some i
  | .float f => match f.value with
    | .fin q => if q.den = 1 then some q.num else none
    | .nan | .inf _ => none
  | .null | .bool _ | .str _ | .arr _ | .obj _ => none

/-- An object the schema admits, with its values: all properties are required, and there are no
others. -/
def SchemaAdmits (schema : List IntegerProperty) (input : Json) (value : String → ℤ) : Prop :=
  ∃ fields, input = .obj fields ∧ (∀ f ∈ fields, ∃ p ∈ schema, p.name = f.1) ∧
    ∀ p ∈ schema, (fields.lookup p.name).bind Json.integer? = some (value p.name) ∧
      p.minimum ≤ value p.name ∧ value p.name ≤ p.maximum

/-- `input_schema` of `dti_check`. -/
def dtiInputSchema : List IntegerProperty :=
  [⟨"monthly_income", 1, 1000000000⟩, ⟨"monthly_debt_payment", 0, 1000000000⟩, ⟨"max_dti_bps", 1, 10000⟩]

/-- `input_schema` of `reserve_ratio_check`. -/
def reserveRatioInputSchema : List IntegerProperty :=
  [⟨"liquid_assets", 0, 1000000000⟩, ⟨"short_term_liabilities", 1, 1000000000⟩,
    ⟨"min_reserve_ratio_bps", 1, 20000⟩]

end Vellum
