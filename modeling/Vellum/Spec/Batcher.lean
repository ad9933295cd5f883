import Vellum.Lib.Except
import Vellum.Lib.Json

/-!
# Batch preparation

`vellum_core/logic/batcher.py`: both ways to a padded batch, from the arrays of a request
and from an object that is padded already. A `ValueError` is its message.
-/

namespace Vellum

def maxBatchSize : ℕ := 250

def maxUint32 : ℤ := 4294967295

/-- A Python value that `isinstance(_, int)` accepts. -/
inductive PyInt where
  | int (i : ℤ)
  | bool (b : Bool)
deriving DecidableEq, Repr

/-- `int(value)`. -/
def PyInt.toInt : PyInt → ℤ
  | .int i => i
  | .bool b => if b then 1 else 0

/-- `isinstance(value, int)`: the value, if it is one. -/
def Json.asPyInt? : Json → Option PyInt
  | .int i => some (.int i)
  | .bool b => some (.bool b)
  | _ => none

/-- `PreparedBatchInput`. -/
structure PreparedBatchInput where
  balances : List ℤ
  limits : List ℤ
  activeCount : PyInt
deriving DecidableEq, Repr

/-- The decoded value of such a Python value. -/
def PyInt.toJson : PyInt → Json
  | .int i => .int i
  | .bool b => .bool b

/-- `to_circuit_input`. -/
def PreparedBatchInput.toCircuitInput (p : PreparedBatchInput) : Json :=
  .obj [("balances", .arr (p.balances.map .int)), ("limits", .arr (p.limits.map .int)),
    ("active_count", p.activeCount.toJson)]

/-- `{field_name}[{idx}]`. -/
def itemName (fieldName : String) (idx : ℕ) : String := fieldName ++ "[" ++ idx.repr ++ "]"

/-- One step of `_validate_u32_list`: the value as an integer. -/
def validateU32 (fieldName : String) (idx : ℕ) : Json → Except String ℤ
  | .int i =>
    if i < 0 ∨ maxUint32 < i then
      .error (itemName fieldName idx ++ " must be between 0 and " ++ maxUint32.repr)
    else .ok i
  -- a `bool` is refused although `isinstance` takes it for an `int`
  | _ => .error (itemName fieldName idx ++ " must be an integer")

/-- `_validate_u32_list` from index `idx` on: the values as integers. -/
def validateU32List (fieldName : String) (idx : ℕ) : List Json → Except String (List ℤ)
  | [] => .ok []
  | v :: vs => do
    let i ← validateU32 fieldName idx v
    let is ← validateU32List fieldName (idx + 1) vs
    return i :: is

/-- `_assert_zero_tail`, from index `idx` on. -/
def assertZeroTail (idx : ℕ) : List ℤ → Except String Unit
  | [] => .ok ()
  | v :: vs =>
    if v ≠ 0 then .error ("anti-ghost invariant violated: padded index " ++ idx.repr ++ " must be zero")
    else assertZeroTail (idx + 1) vs

/-- `values + [0] * (batch_size - active_count)`. -/
def padTo (batchSize : ℕ) (values : List ℤ) : List ℤ := values ++ List.replicate (batchSize - values.length) 0

/-- `batch_prepare_input`. -/
def batchPrepareInput (balances limits : List Json) (batchSize : ℕ) : Except String PreparedBatchInput := do
  raiseIf (batchSize = 0) "batch_size must be positive"
  raiseIf (balances.length = 0 ∨ limits.length = 0) "balances and limits must contain at least one item"
  raiseIf (balances.length ≠ limits.length) "balances and limits length mismatch"
  raiseIf (batchSize < balances.length) ("batch size exceeds limit (" ++ batchSize.repr ++ ")")
  let bs ← validateU32List "balances" 0 balances
  let ls ← validateU32List "limits" 0 limits
  -- what follows cannot fail: the tails are the padding
  let paddedBalances := padTo batchSize bs
  let paddedLimits := padTo batchSize ls
  assertZeroTail balances.length (paddedBalances.drop balances.length)
  assertZeroTail balances.length (paddedLimits.drop balances.length)
  return ⟨paddedBalances, paddedLimits, .int balances.length⟩

/-- `batch_prepare_from_private_input`. -/
def batchPrepareFromPrivateInput (privateInput : Json) : Except String PreparedBatchInput :=
  match privateInput.get? "balances", privateInput.get? "limits" with
  | some (.arr balances), some (.arr limits) =>
    match (privateInput.get? "active_count").bind Json.asPyInt? with
    | none => .error "private_input must contain integer active_count"
    -- here a `bool` goes through: `active_count` may be `True`
    | some activeCount => do
      raiseIf (balances.length ≠ maxBatchSize ∨ limits.length ≠ maxBatchSize)
        ("private_input balances/limits must already be padded to " ++ maxBatchSize.repr)
      raiseIf (activeCount.toInt < 1 ∨ (maxBatchSize : ℤ) < activeCount.toInt)
        ("active_count must be between 1 and " ++ maxBatchSize.repr)
      let bs ← validateU32List "balances" 0 balances
      let ls ← validateU32List "limits" 0 limits
      assertZeroTail activeCount.toInt.toNat (bs.drop activeCount.toInt.toNat)
      assertZeroTail activeCount.toInt.toNat (ls.drop activeCount.toInt.toNat)
      return ⟨bs, ls, activeCount⟩
  | _, _ => .error "private_input must contain array balances and limits"

end Vellum
