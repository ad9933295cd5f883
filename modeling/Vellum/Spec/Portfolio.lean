import Mathlib.Data.Multiset.MapFold
import Mathlib.Data.Multiset.Range
import Vellum.Spec.Meaning

/-!
# What a policy says of a portfolio

The purpose of a policy, without arrays, padding or positions: a portfolio is a multiset of rows, a
quantifier ranges over its rows, and a comparison reads the row it stands at. Below it, how a portfolio
of any size is cut into batches (`split_into_batches` of `systematic_study`).
-/

namespace Vellum

/-- The rows of a portfolio, each a balance and its limit, and the parameters of the policy. -/
structure Portfolio where
  rows : Multiset (ℤ × ℤ)
  params : String → ℤ

/-- The integer a value node denotes at a row. -/
def Portfolio.valueOf (P : Portfolio) (row : ℤ × ℤ) : ValueRef → ℤ
  | .constInt c => c
  | .param p => P.params p
  | .ref s =>
    if s = "balances" then row.1
    else if s = "limits" then row.2
    else if s = "active_count" then P.rows.card
    else P.params (String.ofList (s.toList.drop "policy_params.".length))

namespace DecisionExpr

mutual

/-- Whether a decision holds of a portfolio, at one of its rows. -/
def Holds (P : Portfolio) (row : ℤ × ℤ) : DecisionExpr → Prop
  | comparison c => c.op.holds (P.valueOf row c.left) (P.valueOf row c.right) = true
  | and args => HoldsEach P row args
  | or args => HoldsSome P row args
  | not inner => ¬ inner.Holds P row
  | aggregate .all inner => ∀ other ∈ P.rows, inner.Holds P other
  | aggregate .any inner => ∃ other ∈ P.rows, inner.Holds P other

def HoldsEach (P : Portfolio) (row : ℤ × ℤ) : List DecisionExpr → Prop
  | [] => True
  | e :: es => e.Holds P row ∧ HoldsEach P row es

def HoldsSome (P : Portfolio) (row : ℤ × ℤ) : List DecisionExpr → Prop
  | [] => False
  | e :: es => e.Holds P row ∨ HoldsSome P row es

end

mutual

/-- A decision that looks at its own row only: no quantifier in it, and no count of the rows. -/
def rowLocal : DecisionExpr → Bool
  | comparison c => c.left != .ref "active_count" && c.right != .ref "active_count"
  | and args => rowLocalArgs args
  | or args => rowLocalArgs args
  | not inner => inner.rowLocal
  | aggregate _ _ => false

def rowLocalArgs : List DecisionExpr → Bool
  | [] => true
  | e :: es => e.rowLocal && rowLocalArgs es

end

end DecisionExpr

/-! ## Batches of a portfolio -/

/-- A row of a batch. -/
def Batch.row (B : Batch) (i : ℕ) : ℤ × ℤ := (B.balances.getD i 0, B.limits.getD i 0)

/-- The portfolio of a batch: its active rows. -/
def Batch.portfolio (B : Batch) : Portfolio := ⟨(Multiset.range B.activeCount).map B.row, B.params⟩

/-- Evidence that lists rows. -/
def rowEvidence (rows : List (Json × Json)) (policyParameters : Json) : Json :=
  .obj [("balances", .arr (rows.map Prod.fst)), ("limits", .arr (rows.map Prod.snd)),
    ("policy_parameters", policyParameters)]

/-- A prepared batch, with parameters. -/
def PreparedBatchInput.batch (p : PreparedBatchInput) (params : String → ℤ) : Batch :=
  ⟨p.activeCount.toInt.toNat, p.balances, p.limits, params⟩

/-- `split_into_batches`: one prepared batch for every start `0, 250, 500, …` below the length. -/
def splitIntoBatches (balances limits : List ℤ) : Except String (List PreparedBatchInput) :=
  (List.range ((balances.length + (maxBatchSize - 1)) / maxBatchSize)).mapM fun k =>
    batchPrepareInput (((balances.drop (k * maxBatchSize)).take maxBatchSize).map .int)
      (((limits.drop (k * maxBatchSize)).take maxBatchSize).map .int) maxBatchSize

end Vellum
