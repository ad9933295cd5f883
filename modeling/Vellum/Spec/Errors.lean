import Vellum.Lib.PyText
import Vellum.Spec.Dsl

/-!
# Exceptions

What the services raise: the two typed errors of `vellum_core/errors.py` and
`vellum_core/api/errors.py`, the worker's soft time limit, a cancellation, and every other
exception by its text.
-/

namespace Vellum

/-- `APIError`. -/
structure APIError where
  statusCode : ℕ
  code : String
  message : String
  details : List (String × Json)

inductive PyExn where
  | framework (e : FrameworkError)
  | api (e : APIError)
  | softTimeLimitExceeded
  /-- `CancelledError`. A soft time limit that strikes while the event loop waits ends the loop, and the
  coroutine is cancelled where it awaits. -/
  | cancelled
  | other (text : String)

/-- Whether `except Exception` catches it; a `CancelledError` is a `BaseException` only. -/
def PyExn.isException : PyExn → Bool
  | .cancelled => false
  | _ => true

/-- `__str__` of the two typed errors. -/
def errorStr (repr : Json → String) (code message : String) (details : List (String × Json)) : String :=
  code ++ ": " ++ message ++ (if details = [] then "" else " (" ++ repr (.obj details) ++ ")")

/-- `str(exc)`. -/
def PyExn.str (repr : Json → String) : PyExn → String
  | .framework e => errorStr repr e.code e.message e.details
  | .api e => errorStr repr e.code e.message e.details
  | .softTimeLimitExceeded => "SoftTimeLimitExceeded()"
  | .cancelled => ""
  | .other text => text

/-- `raise framework_error(code, message, **details)`. -/
def raiseFramework {α : Type} (code message : String) (details : List (String × Json)) : Except PyExn α :=
  .error (.framework (frameworkError code message details))

/-- `_unknown_run_id_error` of the prover and of the verifier. -/
def unknownRunIdError (runId : String) : PyExn :=
  .api ⟨404, "unknown_run_id", "No policy run found for id", [("run_id", .str runId)]⟩

/-- `int(value)`. -/
def pyIntOf (repr : Json → String) : Json → Except PyExn ℤ
  | .int i => .ok i
  | .bool b => .ok (if b then 1 else 0)
  | .float f => match f.value with
    | .fin q => .ok (if 0 ≤ q then ⌊q⌋ else ⌈q⌉)
    | .nan => .error (.other "cannot convert float NaN to integer")
    | .inf _ => .error (.other "cannot convert float infinity to integer")
  | .str s => match pyInt? s with
    | some i => .ok i
    | none => .error (.other ("invalid literal for int() with base 10: " ++ repr (.str s)))
  | .null => .error (.other "int() argument must be a string, a bytes-like object or a real number, not 'NoneType'")
  | .arr _ => .error (.other "int() argument must be a string, a bytes-like object or a real number, not 'list'")
  | .obj _ => .error (.other "int() argument must be a string, a bytes-like object or a real number, not 'dict'")

end Vellum
