import Vellum.Spec.BankingLibrary
import Vellum.Spec.Circuits
import Vellum.Spec.GeneratedPolicy

/-!
# The shipped policies

The reference policies under `vellum_core/policies/generated/`, each with the circuit that the
manifest of its policy pack names. The two lending policies differ in their names only; those for
`zk_kyc_v1` and `proof_of_reserves_v1` are written by hand.
-/

namespace Vellum

/-! ## Evidence of the two policies written by hand -/

/-- The object the fields are read from: `private_input` if it is one, else the payload. -/
def evidenceFields (evidence : Json) : Json :=
  match evidence.get? "private_input" with
  | some (.obj fields) => .obj fields
  | _ => evidence

/-- `isinstance(value, bool) or not isinstance(value, int)` is refused. -/
def integerField (payload : Json) (field : String) : Except FrameworkError ℤ :=
  match payload.get? field with
  | some (.int i) => .ok i
  | _ => .error (invalidEvidence (field ++ " must be integer") [("field", .str field)])

/-- `not 0 <= int(value) <= maximum` is refused. -/
def boundedField (field : String) (maximum value : ℤ) : Except FrameworkError Unit :=
  raiseIf (¬ (0 ≤ value ∧ value ≤ maximum)) (invalidEvidence (field ++ " out of bounds") [("field", .str field)])

/-- A method of such a class on a normalized dictionary; it is called with no other. -/
def onDictionary {ε α : Type} (of? : Json → Option ε) (f : ε → α) (normalized : Json) : Except PyExn α :=
  match of? normalized with
  | some n => .ok (f n)
  | none => .error (.other "KeyError")

/-! ## `zk_kyc_reference_v1` -/

structure KycEvidence where
  age : ℤ
  countryCode : ℤ
  minAge : ℤ
  allowedCountryCode : ℤ
deriving DecidableEq, Repr

namespace KycEvidence

/-- The dictionary `normalize` returns, and `to_private_input` again. -/
def json (n : KycEvidence) : Json :=
  .obj [("age", .int n.age), ("country_code", .int n.countryCode), ("min_age", .int n.minAge),
    ("allowed_country_code", .int n.allowedCountryCode)]

def of? : Json → Option KycEvidence
  | .obj [("age", .int age), ("country_code", .int countryCode), ("min_age", .int minAge),
      ("allowed_country_code", .int allowedCountryCode)] => some ⟨age, countryCode, minAge, allowedCountryCode⟩
  | _ => none

/-- `normalize`. -/
def normalize (evidence : Json) : Except FrameworkError KycEvidence := do
  let payload := evidenceFields evidence
  let age ← integerField payload "age"
  let countryCode ← integerField payload "country_code"
  let minAge ← integerField payload "min_age"
  let allowedCountryCode ← integerField payload "allowed_country_code"
  boundedField "age" 130 age
  boundedField "min_age" 130 minAge
  boundedField "country_code" 999 countryCode
  boundedField "allowed_country_code" 999 allowedCountryCode
  return ⟨age, countryCode, minAge, allowedCountryCode⟩

def passed (n : KycEvidence) : Bool := n.minAge ≤ n.age ∧ n.countryCode = n.allowedCountryCode

end KycEvidence

/-- The class of `zk_kyc_reference_v1`. -/
def zkKycReference : ReferencePolicy where
  validate evidence := ((KycEvidence.normalize evidence).map fun _ => ()).mapError .framework
  normalize evidence := ((KycEvidence.normalize evidence).map KycEvidence.json).mapError .framework
  evaluateReference := onDictionary KycEvidence.of? fun n => if n.passed then .pass else .fail
  projectPublicOutputs := onDictionary KycEvidence.of? fun n => [("kyc_ok", .bool n.passed)]
  toPrivateInput := onDictionary KycEvidence.of? KycEvidence.json

/-! ## `proof_of_reserves_reference_v1` -/

structure ReservesEvidence where
  liabilities : ℤ
  assets : ℤ
deriving DecidableEq, Repr

namespace ReservesEvidence

/-- The dictionary `normalize` returns, and `to_private_input` again. -/
def json (n : ReservesEvidence) : Json := .obj [("liabilities", .int n.liabilities), ("assets", .int n.assets)]

def of? : Json → Option ReservesEvidence
  | .obj [("liabilities", .int liabilities), ("assets", .int assets)] => some ⟨liabilities, assets⟩
  | _ => none

/-- `normalize`. There is no upper bound. -/
def normalize (evidence : Json) : Except FrameworkError ReservesEvidence := do
  let payload := evidenceFields evidence
  let liabilities ← integerField payload "liabilities"
  let assets ← integerField payload "assets"
  raiseIf (liabilities < 0 ∨ assets < 0) (invalidEvidence "liabilities/assets must be non-negative" [])
  return ⟨liabilities, assets⟩

def solvent (n : ReservesEvidence) : Bool := n.liabilities ≤ n.assets

end ReservesEvidence

/-- The class of `proof_of_reserves_reference_v1`. -/
def proofOfReservesReference : ReferencePolicy where
  validate evidence := ((ReservesEvidence.normalize evidence).map fun _ => ()).mapError .framework
  normalize evidence := ((ReservesEvidence.normalize evidence).map ReservesEvidence.json).mapError .framework
  evaluateReference := onDictionary ReservesEvidence.of? fun n => if n.solvent then .pass else .fail
  projectPublicOutputs := onDictionary ReservesEvidence.of? fun n => [("solvency_ok", .bool n.solvent)]
  toPrivateInput := onDictionary ReservesEvidence.of? ReservesEvidence.json

/-! ## The lending policies -/

/-- The committed `lending_risk_portfolio_reference_v1`. -/
def lendingRiskPortfolioReference : GeneratedReferencePolicy where
  batchSize := 250
  parameters := .empty
  decision := .aggregate .all (.compare .gt (.balances 0) (.limits 0)) 0

/-- The outputs of both lending policies. -/
def lendingRiskOutputs : Dict OutputSpec :=
  ⟨[("all_valid", ⟨.decision, .bool, 0⟩), ("active_count_out", ⟨.activeCount, .int, 1⟩)], by decide⟩

/-! ## Private inputs -/

/-- An input signal: an integer stands for its residue. -/
def inputSignal? (input : Json) (name : String) : Option F := ((input.get? name).bind Json.asInt?).map fun i => (i : F)

/-- An element of an array of input signals. -/
def inputCell? (input : Json) (name : String) (i : ℕ) : Option F :=
  match input.get? name with
  | some (.arr values) => (values[i]?.bind Json.asInt?).map fun i => (i : F)
  | _ => none

/-- Assignments that satisfy `BatchCreditCheck(250)` at a private input. -/
structure BatchCreditAt (input : Json) (s : BatchCreditSignals) : Prop where
  limits : ∀ i < 250, inputCell? input "limits" i = some (s.limits i)
  activeCount : inputSignal? input "active_count" = some s.activeCount
  balances : ∀ i < 250, inputCell? input "balances" i = some (s.balances i)
  holds : BatchCreditCheck 250 s

/-- Those of `ZkKycV1()`. -/
structure ZkKycAt (input : Json) (s : ZkKycSignals) : Prop where
  age : inputSignal? input "age" = some s.age
  countryCode : inputSignal? input "country_code" = some s.countryCode
  minAge : inputSignal? input "min_age" = some s.minAge
  allowedCountryCode : inputSignal? input "allowed_country_code" = some s.allowedCountryCode
  holds : ZkKycV1 s

/-- Those of `ProofOfReservesV1()`. -/
structure ProofOfReservesAt (input : Json) (s : ProofOfReservesSignals) : Prop where
  liabilities : inputSignal? input "liabilities" = some s.liabilities
  assets : inputSignal? input "assets" = some s.assets
  holds : ProofOfReservesV1 s

/-! ## The policy packs -/

inductive ShippedPolicy where
  | lendingRiskV1 | lendingRiskPortfolioV1 | zkKycV1 | proofOfReservesV1
deriving DecidableEq, Repr

namespace ShippedPolicy

variable (sha256 : String → String)

/-- `reference_policy` of the manifest. -/
def reference : ShippedPolicy → ReferencePolicy
  | lendingRiskV1 => lendingRiskReference.reference sha256 lendingRiskOutputs
  | lendingRiskPortfolioV1 => lendingRiskPortfolioReference.reference sha256 lendingRiskOutputs
  | zkKycV1 => zkKycReference
  | proofOfReservesV1 => proofOfReservesReference

/-- The decision output of an assignment that satisfies the circuit of `circuit_id` at a private
input: signal 0 of all four. -/
def Decides : ShippedPolicy → Json → F → Prop
  | lendingRiskV1, input, decision => ∃ s, BatchCreditAt input s ∧ decision = s.allValid
  | lendingRiskPortfolioV1, input, decision => ∃ s, BatchCreditAt input s ∧ decision = s.allValid
  | zkKycV1, input, decision => ∃ s, ZkKycAt input s ∧ decision = s.kycOk
  | proofOfReservesV1, input, decision => ∃ s, ProofOfReservesAt input s ∧ decision = s.solvencyOk

/-- **Evidence is provable with the outcome of the reference track**: the constraints can be met
with its private input, and every assignment that meets them has 1 at the decision output iff the
reference policy passes. -/
def Provable (policy : ShippedPolicy) (evidence : Json) : Prop :=
  ∃ normalized input decision, (policy.reference sha256).normalize evidence = .ok normalized ∧
    (policy.reference sha256).toPrivateInput normalized = .ok input ∧
    (policy.reference sha256).evaluateReference normalized = .ok decision ∧
    (∃ out, policy.Decides input out) ∧ ∀ out, policy.Decides input out → (out = 1 ↔ decision = .pass)

/-- Where the circuit follows: the residues of liabilities and assets are in its range, and compare
as the integers do. Nothing is asked of the other policies. -/
def WithinCircuit : ShippedPolicy → Json → Prop
  | proofOfReservesV1, evidence => ∀ liabilities assets : ℤ,
    (evidenceFields evidence).get? "liabilities" = some (.int liabilities) →
    (evidenceFields evidence).get? "assets" = some (.int assets) →
      liabilities % bn254 ≤ 1000000000000 ∧ assets % bn254 ≤ 1000000000000 ∧
        (liabilities % bn254 ≤ assets % bn254 ↔ liabilities ≤ assets)
  | _, _ => True

end ShippedPolicy

end Vellum
