import Mathlib.Logic.Function.Basic
import Mathlib.Data.List.Infix
import Vellum.Lib.Except

/-!
# Verification in the native prover

The service of `native_prover/src`: `parsing.rs`, `verification.rs` and the `verify_proof` side of
`service.rs`. Outside the crate lie `serde_json`, the fields and the verifier of arkworks and the
`snarkjs` command: a `Backend`. A panic that `catch_unwind` catches is `none`.

The temporary files that hold the proof for `snarkjs` are left out.
-/

namespace Vellum

namespace NativeProver

/-- `tonic::Code`, as far as the service uses it. -/
inductive Code where
  | invalidArgument
  | internal
deriving DecidableEq

/-- `tonic::Status`. -/
structure Status where
  code : Code
  message : String
deriving DecidableEq

/-- A `serde_json` value; a number is the text `to_string` gives it. -/
inductive Value where
  | null
  | bool (b : Bool)
  | number (text : String)
  | string (s : String)
  | array (items : List Value)
  | object (fields : List (String × Value))

/-- `Value::get` at a field name. -/
def Value.get : Value → String → Option Value
  | .object fields, fieldName => fields.lookup fieldName
  | _, _ => none

/-- `G1Affine::new_unchecked`. -/
structure G1Affine (Fq : Type) where
  x : Fq
  y : Fq
deriving DecidableEq

structure Fq2 (Fq : Type) where
  c0 : Fq
  c1 : Fq
deriving DecidableEq

/-- `G2Affine::new_unchecked`. -/
structure G2Affine (Fq : Type) where
  x : Fq2 Fq
  y : Fq2 Fq
deriving DecidableEq

structure VerifyingKey (Fq : Type) where
  alphaG1 : G1Affine Fq
  betaG2 : G2Affine Fq
  gammaG2 : G2Affine Fq
  deltaG2 : G2Affine Fq
  gammaAbcG1 : List (G1Affine Fq)
deriving DecidableEq

structure Proof (Fq : Type) where
  a : G1Affine Fq
  b : G2Affine Fq
  c : G1Affine Fq
deriving DecidableEq

/-- What a finished command leaves: its exit status and `stderr_text`. -/
structure Output where
  success : Bool
  stderrText : String

/-- What the service takes from elsewhere. -/
structure Backend (Fq Fr Prepared : Type) where
  /-- `serde_json::from_str`, with the text of its error -/
  fromStr : String → Except String Value
  fqFromStr : String → Option Fq
  frFromStr : String → Option Fr
  /-- `none` where it panics -/
  prepareVerifyingKey : VerifyingKey Fq → Option Prepared
  /-- `Groth16::verify_proof`; `none` where it fails or panics -/
  verifyProof : Prepared → Proof Fq → List Fr → Option Bool
  /-- the text of the error of a file that cannot be read -/
  readError : String
  /-- `snarkjs groth16 verify` on what the key's path holds, the proof and the public signals;
  an error where the command does not start -/
  snarkjsVerify : Option String → String → String → Except String Output

/-- A candidate of a key: one reading of its `G2` coordinates. -/
structure PreparedVkCandidate (Prepared : Type) where
  swapCoeffs : Bool
  prepared : Prepared
deriving DecidableEq

structure CachedVerificationKey (Prepared : Type) where
  preparedCandidates : List (PreparedVkCandidate Prepared)
deriving DecidableEq

/-! ## `parsing.rs` -/

def asArray (value : Value) (fieldName : String) : Except Status (List Value) :=
  match value with
  | .array items => .ok items
  | _ => .error ⟨.invalidArgument, fieldName ++ " must be an array"⟩

def getField (value : Value) (fieldName : String) : Except Status Value :=
  match value.get fieldName with
  | some field => .ok field
  | none => .error ⟨.invalidArgument, "missing field: " ++ fieldName⟩

def asDecimalString (value : Value) (fieldName : String) : Except Status String :=
  match value with
  | .string s => .ok s
  | .number text => .ok text
  | _ => .error ⟨.invalidArgument, fieldName ++ " must be a decimal string/number"⟩

namespace Backend

variable {Fq Fr Prepared : Type} (B : Backend Fq Fr Prepared)

def ensureJson (raw fieldName : String) : Except Status Unit :=
  match B.fromStr raw with
  | .ok _ => .ok ()
  | .error err => .error ⟨.invalidArgument, fieldName ++ " is not valid JSON: " ++ err⟩

def parseFq (value : Value) (fieldName : String) : Except Status Fq := do
  let raw ← asDecimalString value fieldName
  match B.fqFromStr raw with
  | some x => .ok x
  | none => .error ⟨.invalidArgument, fieldName ++ " is not a valid Fq element"⟩

def parseFr (value : Value) (fieldName : String) : Except Status Fr := do
  let raw ← asDecimalString value fieldName
  match B.frFromStr raw with
  | some x => .ok x
  | none => .error ⟨.invalidArgument, fieldName ++ " is not a valid Fr element"⟩

/-- The third coordinate of a point is not read. -/
def parseG1 (value : Value) (fieldName : String) : Except Status (G1Affine Fq) := do
  let arr ← asArray value fieldName
  match arr with
  | x :: y :: _ =>
    let x ← B.parseFq x (fieldName ++ "[0]")
    let y ← B.parseFq y (fieldName ++ "[1]")
    return ⟨x, y⟩
  | _ => .error ⟨.invalidArgument, fieldName ++ " must contain at least two coordinates"⟩

/-- `Fq2::new` on the two coefficients in the order asked for. -/
def newFq2 (swapCoeffs : Bool) (c0 c1 : Fq) : Fq2 Fq := if swapCoeffs then ⟨c1, c0⟩ else ⟨c0, c1⟩

def parseG2 (value : Value) (fieldName : String) (swapCoeffs : Bool) : Except Status (G2Affine Fq) := do
  let outer ← asArray value fieldName
  match outer with
  | x :: y :: _ =>
    let xArr ← asArray x (fieldName ++ "[0]")
    let yArr ← asArray y (fieldName ++ "[1]")
    match xArr, yArr with
    | x0 :: x1 :: _, y0 :: y1 :: _ =>
      let x0 ← B.parseFq x0 (fieldName ++ "[0][0]")
      let x1 ← B.parseFq x1 (fieldName ++ "[0][1]")
      let y0 ← B.parseFq y0 (fieldName ++ "[1][0]")
      let y1 ← B.parseFq y1 (fieldName ++ "[1][1]")
      return ⟨newFq2 swapCoeffs x0 x1, newFq2 swapCoeffs y0 y1⟩
    | _, _ => .error ⟨.invalidArgument, fieldName ++ " coordinates must contain two Fq elements"⟩
  | _ => .error ⟨.invalidArgument, fieldName ++ " must contain x/y coordinates"⟩

/-- The name of an item of a list. -/
def indexed (fieldName : String) (index : ℕ) : String := fieldName ++ "[" ++ toString index ++ "]"

def parseVerificationKey (value : Value) (swapCoeffs : Bool) : Except Status (VerifyingKey Fq) := do
  let alpha ← B.parseG1 (← getField value "vk_alpha_1") "vk_alpha_1"
  let beta ← B.parseG2 (← getField value "vk_beta_2") "vk_beta_2" swapCoeffs
  let gamma ← B.parseG2 (← getField value "vk_gamma_2") "vk_gamma_2" swapCoeffs
  let delta ← B.parseG2 (← getField value "vk_delta_2") "vk_delta_2" swapCoeffs
  match (value.get "IC").or (value.get "ic") with
  | none => .error ⟨.invalidArgument, "verification key missing IC"⟩
  | some gammaAbcRaw =>
    let gammaAbcArr ← asArray gammaAbcRaw "IC"
    let gammaAbcG1 ← gammaAbcArr.zipIdx.mapM fun (point, index) => B.parseG1 point (indexed "IC" index)
    return ⟨alpha, beta, gamma, delta, gammaAbcG1⟩

def parseProof (value : Value) (swapCoeffs : Bool) : Except Status (Proof Fq) := do
  let a ← B.parseG1 (← getField value "pi_a") "pi_a"
  let b ← B.parseG2 (← getField value "pi_b") "pi_b" swapCoeffs
  let c ← B.parseG1 (← getField value "pi_c") "pi_c"
  return ⟨a, b, c⟩

def parsePublicInputs (value : Value) : Except Status (List Fr) := do
  let arr ← asArray value "public_signals"
  arr.zipIdx.mapM fun (entry, index) => B.parseFr entry (indexed "public_signals" index)

/-! ## `verification.rs` -/

/-- One turn of the loop: the candidate of a reading that parses and prepares. -/
def candidate (vkValue : Value) (swapCoeffs : Bool) : Option (PreparedVkCandidate Prepared) :=
  match B.parseVerificationKey vkValue swapCoeffs with
  | .ok vk => (B.prepareVerifyingKey vk).map (⟨swapCoeffs, ·⟩)
  | .error _ => none

def buildCachedVerificationKey (verificationKeyJson : String) :
    Except Status (CachedVerificationKey Prepared) :=
  match B.fromStr verificationKeyJson with
  | .error err => .error ⟨.invalidArgument, "verification_key JSON is invalid: " ++ err⟩
  | .ok vkValue =>
    let preparedCandidates := [false, true].filterMap (B.candidate vkValue)
    if preparedCandidates.isEmpty then
      .error ⟨.internal, "unable to parse verification_key into BN254 Groth16 structures"⟩
    else .ok ⟨preparedCandidates⟩

/-- The loop over the candidates; `parsedAny` says whether the proof parsed for one of them. -/
def tryCandidates (proofValue : Value) (publicInputs : List Fr) :
    List (PreparedVkCandidate Prepared) → Bool → Except Status Bool
  | [], true => .ok false
  | [], false => .error ⟨.internal, "unable to parse proof/verification_key into BN254 Groth16 structures"⟩
  | candidate :: rest, parsedAny =>
    match B.parseProof proofValue candidate.swapCoeffs with
    | .error _ => tryCandidates proofValue publicInputs rest parsedAny
    | .ok proof =>
      match B.verifyProof candidate.prepared proof publicInputs with
      | some true => .ok true
      | _ => tryCandidates proofValue publicInputs rest true

def verifyNativeProof (cachedKey : CachedVerificationKey Prepared) (proofJson publicSignalsJson : String) :
    Except Status Bool :=
  match B.fromStr proofJson with
  | .error err => .error ⟨.invalidArgument, "proof JSON is invalid: " ++ err⟩
  | .ok proofValue =>
    match B.fromStr publicSignalsJson with
    | .error err => .error ⟨.invalidArgument, "public_signals JSON is invalid: " ++ err⟩
    | .ok publicSignalsValue => do
      let publicInputs ← B.parsePublicInputs publicSignalsValue
      B.tryCandidates proofValue publicInputs cachedKey.preparedCandidates false

/-! ## `service.rs` -/

/-- `fs::read_to_string` and `build_cached_verification_key`, on what a path holds. -/
def loadVerificationKey (file : Option String) : Except Status (CachedVerificationKey Prepared) :=
  match file with
  | none => .error ⟨.internal, B.readError⟩
  | some raw => B.buildCachedVerificationKey raw

/-- `run_snarkjs_verify`. -/
def runSnarkjsVerify (file : Option String) (proofJson publicSignalsJson : String) : Except Status Bool :=
  match B.snarkjsVerify file proofJson publicSignalsJson with
  | .error err => .error ⟨.internal, "failed to execute command: " ++ err⟩
  | .ok output =>
    if output.success then .ok true
    else if "invalid proof".toList <:+: output.stderrText.toLower.toList then .ok false
    else .error ⟨.internal, "verify failed: " ++ output.stderrText⟩

end Backend

/-- The fields of `VerifyProofRequest` that `verify_proof` reads. -/
structure VerifyProofRequest where
  proofJson : String
  publicSignalsJson : String
  verificationKeyPath : String

/-- The files by their paths, and `verification_key_cache`. -/
structure ServiceState (Prepared : Type) where
  files : String → Option String
  cache : String → Option (CachedVerificationKey Prepared)

namespace ServiceState

variable {Fq Fr Prepared : Type} (B : Backend Fq Fr Prepared)

/-- `get_or_load_verification_key`: a key that is loaded is cached under its path. -/
def getOrLoadVerificationKey (s : ServiceState Prepared) (path : String) :
    Except Status (CachedVerificationKey Prepared) × ServiceState Prepared :=
  match s.cache path with
  | some cached => (.ok cached, s)
  | none =>
    match B.loadVerificationKey (s.files path) with
    | .error err => (.error err, s)
    | .ok parsed => (.ok parsed, { s with cache := Function.update s.cache path (some parsed) })

/-- The answer of `verify_proof` by the key at hand: the native verifier, and `snarkjs` on the file
where it does not accept. -/
def answer (s : ServiceState Prepared) (req : VerifyProofRequest)
    (key : Except Status (CachedVerificationKey Prepared)) : Except Status Bool :=
  let nativeValid := match key.bind fun k => B.verifyNativeProof k req.proofJson req.publicSignalsJson with
    | .ok valid => valid
    | .error _ => false
  if nativeValid then .ok true
  else B.runSnarkjsVerify (s.files req.verificationKeyPath) req.proofJson req.publicSignalsJson

/-- The texts of the request are JSON. -/
def checkRequest (req : VerifyProofRequest) : Except Status Unit := do
  B.ensureJson req.proofJson "proof_json"
  B.ensureJson req.publicSignalsJson "public_signals_json"

/-- `ProverService::verify_proof`. -/
def verifyProof (s : ServiceState Prepared) (req : VerifyProofRequest) :
    Except Status Bool × ServiceState Prepared :=
  match checkRequest B req with
  | .error err => (.error err, s)
  | .ok () =>
    let (key, s) := s.getOrLoadVerificationKey B req.verificationKeyPath
    (s.answer B req key, s)

end ServiceState

/-- A key file is written (or removed), or a proof is to be verified. -/
inductive Event where
  | write (path : String) (content : Option String)
  | verify (req : VerifyProofRequest)

variable {Fq Fr Prepared : Type} (B : Backend Fq Fr Prepared)

/-- What the service returns along a sequence of writes and requests. -/
def responses : ServiceState Prepared → List Event → List (Except Status Bool)
  | _, [] => []
  | s, .write path content :: events =>
    responses { s with files := Function.update s.files path content } events
  | s, .verify req :: events => (s.verifyProof B req).1 :: responses (s.verifyProof B req).2 events

/-- What a service that keeps no key returns: every request finds the cache empty. -/
def uncachedResponses : (String → Option String) → List Event → List (Except Status Bool)
  | _, [] => []
  | files, .write path content :: events => uncachedResponses (Function.update files path content) events
  | files, .verify req :: events =>
    (ServiceState.verifyProof B ⟨files, fun _ => none⟩ req).1 :: uncachedResponses files events

end NativeProver

end Vellum
