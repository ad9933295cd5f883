import Vellum.Lib.TextSearch
import Vellum.Spec.Worker

/-!
# Schema failures and the triage of a failure

`classify_failure` of `vellum_core/logic/failure_triage.py` and `validate_private_input_schema` of
`vellum_core/logic/private_input_schema.py`, and the worker that uses them. What jsonschema finds is
a parameter.
-/

namespace Vellum

/-! ## `classify_failure` -/

def timeoutMarkers : List String := ["time limit", "timeout"]

def dependencyMarkers : List String :=
  ["connection refused", "temporarily unavailable", "service unavailable", "grpc", "redis", "postgres", "database",
    "network"]

def artifactMarkers : List String :=
  ["missing_artifacts", "required circuit artifacts are missing", "no such file", "final.zkey", ".wasm"]

def schemaMarkers : List String :=
  ["invalid_private_input_schema", "private_input does not satisfy", "validation failed", "dual_track_reference"]

def cryptoMarkers : List String :=
  ["decrypt", "vault", "signature", "invalid proof", "proof verification failed", "dual_track_mismatch", "snarkjs",
    "rapidsnark"]

/-- `classify_failure`. -/
def classifyFailure (T : CaseTable) (failureReason errorMessage : String) : FailureTriage :=
  let reason := T.lowerText (strip failureReason)
  let message := T.lowerText (strip errorMessage)
  let combined := strip (reason ++ " " ++ message)
  if isIn "soft_time_limit_exceeded" reason || timeoutMarkers.any (isIn · combined) then
    ⟨"timeout", true, "Execution exceeded timeout budget."⟩
  else if dependencyMarkers.any (isIn · combined) then
    ⟨"dependency", true, "External dependency/network failure detected."⟩
  else if artifactMarkers.any (isIn · combined) then
    ⟨"artifact", true, "Required proving artifacts are missing or unreadable."⟩
  else if schemaMarkers.any (isIn · combined) then
    ⟨"schema", false, "Input/schema validation failure."⟩
  else if cryptoMarkers.any (isIn · combined) then
    ⟨"crypto", false, "Cryptographic/proving pipeline failure."⟩
  else if isIn "max_attempts_exceeded" reason then
    ⟨"retry_exhausted", false, "Maximum attempts exceeded."⟩
  else
    ⟨"unknown", false, "Unclassified runtime exception."⟩

/-! ## `validate_private_input_schema` -/

/-- An item of the path of a validation error. -/
inductive PathItem where
  | index (i : ℤ)
  | key (name : String)

/-- `_json_path`. -/
def jsonPath (path : List PathItem) : String :=
  path.foldl (fun rendered item => rendered ++ match item with
    | .index i => "[" ++ i.repr ++ "]"
    | .key name => "." ++ name) "$"

/-- What jsonschema says: why a schema is none, and the errors of a value by their paths and
messages. -/
structure SchemaLibrary where
  checkSchema : Json → Option String
  iterErrors : Json → Json → List (List PathItem × String)

/-- The order of `_validation_error_sort_key`. -/
def errorLe (a b : List PathItem × String) : Bool :=
  a.1.length < b.1.length || a.1.length = b.1.length && jsonPath a.1 ≤ jsonPath b.1

/-- `validate_private_input_schema`; a failure is the message of its `ValueError`. -/
def SchemaLibrary.validatePrivateInputSchema (J : SchemaLibrary) (inputSchema privateInput : Json) :
    Except String Unit :=
  match J.checkSchema inputSchema with
  | some message => .error ("invalid manifest input_schema: " ++ message)
  | none => match (J.iterErrors inputSchema privateInput).mergeSort errorLe with
    | [] => .ok ()
    | first :: _ => .error (jsonPath first.1 ++ ": " ++ first.2)

/-! ## The worker -/

/-- The worker with these two. -/
def WorkerSettings.deployed (S : WorkerSettings) (T : CaseTable) (J : SchemaLibrary) : WorkerSettings :=
  { S with classify := classifyFailure T, validateSchema := J.validatePrivateInputSchema }

/-- The private input of the decrypted payload, before it is checked against the circuit's schema. -/
def preparedInput (job : ProofJob) (decrypted : Json) : Except PyExn Json := do
  let fields ← match decrypted with
    | .obj fields => .ok fields
    | j => raiseOther ("'" ++ pyTypeName j ++ "' object has no attribute 'get'")
  let privateInput ← match fields.lookup "private_input" with
    | some (.obj input) => .ok (Json.obj input)
    | _ => raiseOther "Missing private_input for proof job"
  if job.circuitId = defaultBatchCircuitId then
    ((batchPrepareFromPrivateInput privateInput).map PreparedBatchInput.toCircuitInput).mapError .other
  else .ok privateInput

end Vellum
