import Vellum.Lib.FileSystem
import Vellum.Lib.Reload
import Vellum.Spec.DualTrack

/-!
# The registries of policy packs and of circuits

`refresh` of `vellum_core/policy_registry.py` and of `vellum_core/registry.py`: every directory below
a root that holds a `manifest.json` is read and checked, in the order in which the root is listed.
Reading and decoding a file, and what pydantic takes for an integer, are parameters.
-/

namespace Vellum

/-- Why a manifest is not loaded. -/
inductive LoadError where
  | jsonDecode (text : String)
  | validation (text : String)
  -- any other exception: the file is no UTF-8, it nests too deep, it is a directory
  | other (text : String)

/-- What `refresh` raises. -/
inductive RegistryError where
  | policyManifest (text : String)
  | missingCircuitFile (text : String)
  | load (e : LoadError)

/-- `json.loads(path.read_text(encoding="utf-8"))` on the content of a file, the integers that pydantic
reads from a value, the text of its errors, and `repr`. -/
structure ManifestLibrary (F : Type) where
  loads : F → Except LoadError Json
  laxInt : Json → Option ℤ
  validationText : Json → String
  repr : Json → String

/-! ## Fields of a manifest -/

namespace Json

def text? : Json → Option String
  | .str s => some s
  | _ => none

/-- `Field(min_length=1)` on a text. -/
def nonEmptyText? (j : Json) : Option String := j.text?.filter (· ≠ "")

/-- A dictionary whose values are read by `f`. -/
def dictOf? {α : Type} (f : Json → Option α) : Json → Option (Dict α)
  | .obj fields => (fields.mapM fun p => (f p.2).map fun a => (p.1, a)).map (Dict.empty.update ·)
  | _ => none

def listOf? {α : Type} (f : Json → Option α) : Json → Option (List α)
  | .arr items => items.mapM f
  | _ => none

end Json

/-- A field that has to be there. -/
def requiredField {α : Type} (fields : Dict Json) (name : String) (f : Json → Option α) : Option α :=
  (fields.get? name).bind f

/-- A field with a default. -/
def fieldOr {α : Type} (fields : Dict Json) (name : String) (default : α) (f : Json → Option α) : Option α :=
  match fields.get? name with
  | none => some default
  | some j => f j

/-- The fields of an object, none of them unknown: `extra="forbid"`. -/
def knownFields (names : List String) : Json → Option (Dict Json)
  | .obj fields => if fields.all fun p => p.1 ∈ names then some (Dict.empty.update fields) else none
  | _ => none

def ValueType.ofText? (text : String) : Option ValueType :=
  if text = "int" then some .int else if text = "bool" then some .bool
  else if text = "string" then some .string else none

section

variable (laxInt : Json → Option ℤ)

/-- `DifferentialOutputSpec.model_validate`. -/
def DifferentialOutputSpec.modelValidate (j : Json) : Option DifferentialOutputSpec := do
  let fields ← knownFields ["signal_index", "value_type"] j
  let signalIndex ← (← requiredField fields "signal_index" laxInt).toNat?
  let valueType ← (← requiredField fields "value_type" Json.text?) |> ValueType.ofText?
  return ⟨signalIndex, valueType⟩

/-- `PolicyPackManifest` with every field of the file. -/
structure PolicyPack extends PolicyPackManifest where
  description : Option String
  inputContract : Dict Json
  evidenceContract : Dict Json
  primitives : List String
  compilerMetadata : Dict String

/-- `PolicyPackManifest.model_validate`. -/
def PolicyPack.modelValidate (j : Json) : Option PolicyPack := do
  let fields ← knownFields ["policy_id", "policy_version", "circuit_id", "description", "input_contract",
    "evidence_contract", "reference_policy", "primitives", "differential_outputs", "compiler_metadata",
    "expected_attestation"] j
  let policyId ← requiredField fields "policy_id" Json.nonEmptyText?
  let policyVersion ← requiredField fields "policy_version" Json.nonEmptyText?
  let circuitId ← requiredField fields "circuit_id" Json.nonEmptyText?
  let description ← fieldOr fields "description" none fun
    | .null => some none
    | j => j.text?.map some
  let inputContract ← fieldOr fields "input_contract" .empty (Json.dictOf? some)
  let evidenceContract ← fieldOr fields "evidence_contract" .empty (Json.dictOf? some)
  let referencePolicy ← requiredField fields "reference_policy" Json.nonEmptyText?
  let primitives ← (← requiredField fields "primitives" (Json.listOf? Json.text?)) |> fun l =>
    if l = [] then none else some l
  let differentialOutputs ← (← requiredField fields "differential_outputs"
    (Json.dictOf? (DifferentialOutputSpec.modelValidate laxInt))) |> fun d => if d.items = [] then none else some d
  let compilerMetadata ← fieldOr fields "compiler_metadata" .empty (Json.dictOf? Json.text?)
  let expectedAttestation ← fieldOr fields "expected_attestation" .empty (Json.dictOf? some)
  return { policyId, policyVersion, circuitId, referencePolicy, differentialOutputs, expectedAttestation, description,
           inputContract, evidenceContract, primitives, compilerMetadata }

end

/-- `CircuitManifest`. -/
structure CircuitManifest where
  circuitId : String
  inputSchema : Dict Json
  publicSignals : List String
  version : String

/-- `CircuitManifest.model_validate`. -/
def CircuitManifest.modelValidate (j : Json) : Option CircuitManifest := do
  let fields ← knownFields ["circuit_id", "input_schema", "public_signals", "version"] j
  let circuitId ← requiredField fields "circuit_id" Json.nonEmptyText?
  let inputSchema ← requiredField fields "input_schema" (Json.dictOf? some)
  let publicSignals ← requiredField fields "public_signals" (Json.listOf? Json.text?)
  let version ← requiredField fields "version" Json.nonEmptyText?
  return { circuitId, inputSchema, publicSignals, version }

/-- `ALLOWED_PRIMITIVES`. -/
def allowedPrimitives : List String :=
  ["SafeSub", "InterestRateValidator", "MerkleProof", "BalanceGreaterThanLimit", "ActiveCountBounds",
    "ZeroPaddingInvariant"]

/-- `unknown_primitives`. -/
def unknownPrimitives (primitives : List String) : List String :=
  (primitives.filter (· ∉ allowedPrimitives)).dedup.mergeSort fun a b => a ≤ b

/-! ## Discovery -/

/-- The root that a registry reads from, in a file system. -/
structure RegistryRoot (F : Type) extends ManifestLibrary F where
  fs : FileSystem F
  cwd : Location
  root : Pathname

namespace RegistryRoot

variable {F : Type} (R : RegistryRoot F)

/-- `json.loads(manifest_path.read_text(...))` and `model_validate`, for a candidate that is a directory
with a manifest. -/
def manifest? {M : Type} (validate : Json → Option M) (candidate : String) : Except LoadError (Option M) :=
  match R.fs.stat R.cwd (R.root.child [candidate]) with
  | some .dir => match R.fs.stat R.cwd (R.root.child [candidate, "manifest.json"]) with
    | none => .ok none
    | some (.file data) => match R.loads data with
      | .error e => .error e
      | .ok raw => match validate raw with
        | some manifest => .ok (some manifest)
        | none => .error (.validation (R.validationText raw))
    | some _ => .error (.other "Is a directory")
  | _ => .ok none

/-- The beginning of the errors of a policy pack. -/
def manifestInvalid (candidate detail : String) : RegistryError :=
  .policyManifest ("policy_manifest_invalid: " ++ (R.root.child [candidate, "manifest.json"]).str ++ ": " ++ detail)

/-- One turn of the loop of `PolicyRegistry.refresh`. -/
def loadPolicy (candidate : String) : Except RegistryError (Option (String × PolicyPack)) :=
  match R.manifest? (PolicyPack.modelValidate R.laxInt) candidate with
  | .error (.jsonDecode text) | .error (.validation text) => .error (R.manifestInvalid candidate text)
  | .error e => .error (.load e)
  | .ok none => .ok none
  | .ok (some manifest) =>
    let unknown := unknownPrimitives manifest.primitives
    if unknown ≠ [] then
      .error (R.manifestInvalid candidate ("unknown primitives " ++ R.repr (.arr (unknown.map .str))))
    else .ok (some (manifest.policyId, manifest))

/-- One turn of the loop of `CircuitRegistry.refresh`. -/
def loadCircuit (candidate : String) : Except RegistryError (Option (String × CircuitManifest)) :=
  match R.manifest? CircuitManifest.modelValidate candidate with
  | .error e => .error (.load e)
  | .ok none => .ok none
  | .ok (some manifest) =>
    let circuitFile := (R.root.child [candidate]).join (manifest.circuitId ++ ".circom")
    if (R.fs.stat R.cwd circuitFile).isNone then
      .error (.missingCircuitFile ("Missing circuit file for " ++ manifest.circuitId ++ ": " ++ circuitFile.str))
    else .ok (some (manifest.circuitId, manifest))

/-- `refresh`, with the names in the order of `iterdir`: the map that was held is cleared, and filled
while the loop runs. -/
def refresh {M : Type} (load : String → Except RegistryError (Option (String × M))) (_held : Dict M)
    (iterdir : List String) : Except RegistryError Unit × Dict M :=
  match R.fs.stat R.cwd R.root with
  | none => (.ok (), .empty)
  | some .dir => loadEach load .empty iterdir
  | some _ => (.error (.load (.other "Not a directory")), .empty)

/-- `PolicyRegistry.refresh`. -/
def refreshPolicies : Dict PolicyPack → List String → Except RegistryError Unit × Dict PolicyPack :=
  R.refresh R.loadPolicy

/-- `CircuitRegistry.refresh`. -/
def refreshCircuits : Dict CircuitManifest → List String → Except RegistryError Unit × Dict CircuitManifest :=
  R.refresh R.loadCircuit

/-- An order in which the root may be listed. -/
structure Lists (names : List String) : Prop where
  dir : R.fs.stat R.cwd R.root = some .dir
  nodup : names.Nodup
  complete : ∃ loc, R.fs.resolve R.cwd R.root = some loc ∧ ∀ name, name ∈ names ↔ R.fs.node (loc ++ [name]) ≠ none

end RegistryRoot

end Vellum
