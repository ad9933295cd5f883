import Vellum.Lib.Bn254
import Vellum.Lib.Circomlib

/-!
# The hand-written circuits

`circuits/library/banking_library.circom` and `circuits/batch_credit_check`, each
template as the relation its constraints define over the BN254 scalar field.
Internal signals are existential.
-/

namespace Vellum

open Circomlib

/-- `ActiveCountBounds(N)`: `0 < active_count <= N`. -/
def ActiveCountBounds (N : ℕ) (activeCount valid : F) : Prop :=
  ∃ gt lt : F, GreaterThan 16 activeCount 0 gt ∧ LessThan 16 activeCount (N + 1 : ℕ) lt ∧
    valid = gt * lt ∧ valid = 1

/-- `ActiveIndexFlag16()`: 1 iff `index < active_count`. -/
def ActiveIndexFlag16 (activeCount index isActive : F) : Prop :=
  GreaterThan 16 activeCount index isActive ∧ isActive * (isActive - 1) = 0

def PrimitiveLessThan32 (lhs rhs out : F) : Prop := LessThan 32 lhs rhs out

def PrimitiveGreaterThan32 (lhs rhs out : F) : Prop := GreaterThan 32 lhs rhs out

def PrimitiveLessEqThan32 (lhs rhs out : F) : Prop := LessEqThan 32 lhs rhs out

def PrimitiveGreaterEqThan32 (lhs rhs out : F) : Prop := GreaterEqThan 32 lhs rhs out

def PrimitiveEqual (lhs rhs out : F) : Prop := IsEqual lhs rhs out

/-- `ZeroPaddingInvariant()`: an inactive row is zero. -/
def ZeroPaddingInvariant (value isActive valid : F) : Prop :=
  isActive * (isActive - 1) = 0 ∧ value * (1 - isActive) = 0 ∧ valid = 1

/-- The signals of `BatchCreditCheck(N)`; arrays are read below their length only. -/
structure BatchCreditSignals where
  limits : ℕ → F
  activeCount : F
  balances : ℕ → F
  allValid : F
  activeCountOut : F
  isActive : ℕ → F
  decisionValid : ℕ → F
  allValidChain : ℕ → F

/-- `BatchCreditCheck(N)`. -/
structure BatchCreditCheck (N : ℕ) (s : BatchCreditSignals) : Prop where
  activeCountGtZero : GreaterThan 16 s.activeCount 0 1
  activeCountLtEqN : LessThan 16 s.activeCount (N + 1 : ℕ) 1
  chainInit : s.allValidChain 0 = 1
  activityCmp : ∀ i < N, GreaterThan 16 s.activeCount (i : ℕ) (s.isActive i)
  -- no range check on either operand
  balanceGtLimit : ∀ i < N, ∃ out, GreaterThan 32 (s.balances i) (s.limits i) out ∧
    s.decisionValid i = out * s.isActive i + (1 - s.isActive i)
  balancePadding : ∀ i < N, s.balances i * (1 - s.isActive i) = 0
  limitPadding : ∀ i < N, s.limits i * (1 - s.isActive i) = 0
  chainStep : ∀ i < N, s.allValidChain (i + 1) = s.allValidChain i * s.decisionValid i
  allValid : s.allValid = s.allValidChain N
  activeCountOut : s.activeCountOut = s.activeCount

end Vellum
