import Vellum.Lib.JsonCompact
import Vellum.Spec.Delivery
import Vellum.Spec.PolicyRun
import Vellum.Spec.Vault

/-!
# Sealed payloads

`seal_job_payload` and `unseal_job_payload` of `vellum_core/security.py` over `encrypt` and `decrypt` of
`vellum_core/vault.py`: canonical JSON, UTF-8 and base64 on the way to Vault's Transit engine, and back.
What Vault answers is a parameter. The broker of the services is that of `Delivery`, with payloads that
have been sealed and are unsealed this way, and with what the provider may answer as a parameter.
-/

namespace Vellum

/-! ## `base64.b64encode` -/

def base64Alphabet : List Char := "ABCDEFGHIJKLMNOPQRSTUVWXYZabcdefghijklmnopqrstuvwxyz0123456789+/".toList

/-- The character of six bits. -/
def base64Char (v : ℕ) : Char := base64Alphabet.getD v '='

/-- The characters of bytes, three by three. -/
def b2aBase64 : List ℕ → List Char
  | [] => []
  | [a] => [base64Char (a / 4), base64Char (a % 4 * 16), '=', '=']
  | [a, b] => [base64Char (a / 4), base64Char (a % 4 * 16 + b / 16), base64Char (b % 16 * 4), '=']
  | a :: b :: c :: rest =>
    base64Char (a / 4) :: base64Char (a % 4 * 16 + b / 16) :: base64Char (b % 16 * 4 + c / 64) ::
      base64Char (c % 64) :: b2aBase64 rest

/-- `base64.b64encode(payload).decode("utf-8")`. -/
def b64encode (payload : List ℕ) : String := String.ofList (b2aBase64 payload)

/-! ## Texts and bytes -/

/-- `text.encode("utf-8")`. -/
def encodeUtf8 (text : String) : List ℕ := text.toUTF8.data.toList.map UInt8.toNat

/-- `payload.decode("utf-8")`; of the exception only its kind is kept. -/
def decodeUtf8 (payload : List ℕ) : Except PyExn String :=
  match String.fromUTF8? ⟨(payload.map UInt8.ofNat).toArray⟩ with
  | some text => .ok text
  | none => raiseOther "UnicodeDecodeError"

/-- `canonical_json_bytes`. -/
def canonicalJsonBytes (value : Json) : List ℕ := encodeUtf8 value.canonical

/-! ## Vault -/

/-- What Vault's Transit engine answers: to a base64 text under a key a ciphertext, drawn anew each
time, and to a ciphertext a base64 text. -/
structure Transit where
  encrypt : String → String → ℕ → Except PyExn String
  decrypt : String → String → Except PyExn String
  /-- What has been encrypted under a key is decrypted under that key, if Vault decrypts it at all. -/
  faithful : ∀ {keyName text draw ciphertext text'}, encrypt keyName text draw = .ok ciphertext →
    decrypt keyName ciphertext = .ok text' → text' = text

namespace Transit

variable (V : Transit)

/-- `VaultTransitClient.encrypt`. -/
def encryptBytes (keyName : String) (plaintext : List ℕ) (draw : ℕ) : Except PyExn String :=
  V.encrypt keyName (b64encode plaintext) draw

/-- `VaultTransitClient.decrypt`. -/
def decryptBytes (keyName ciphertext : String) : Except PyExn (List ℕ) := do
  let plaintextB64 ← V.decrypt keyName ciphertext
  (b64decode plaintextB64).mapError .other

end Transit

/-! ## `security.py` -/

/-- The arguments of `seal_job_payload` that are sealed. -/
structure JobPayload where
  requestPayload : Json
  privateInput : Json
  dualTrackReference : Json
  policyParameters : Json

def JobPayload.toJson (payload : JobPayload) : Json :=
  .obj [("request_payload", payload.requestPayload), ("private_input", payload.privateInput),
    ("dual_track_reference", payload.dualTrackReference), ("policy_parameters", payload.policyParameters)]

variable (V : Transit)

/-- `seal_job_payload`. -/
def sealJobPayload (keyName : String) (payload : JobPayload) (draw : ℕ) : Except PyExn String :=
  V.encryptBytes keyName (canonicalJsonBytes payload.toJson) draw

/-- `unseal_job_payload`. -/
def unsealJobPayload (F : PyJson.FloatReader) (keyName sealedPayload : String) : Except PyExn PyJson := do
  let plaintext ← V.decryptBytes keyName sealedPayload
  let text ← decodeUtf8 plaintext
  (PyJson.loads F text.toList).mapError fun _ => .other "JSONDecodeError"

/-! ## The services on sealed payloads -/

/-- What a delivery goes by: the circuit of a job, and the policy in its metadata. -/
structure JobKind where
  circuitId : String
  policy : Option Json

def ProofJob.kind (job : ProofJob) : JobKind := ⟨job.circuitId, job.metadata.get? "policy_id"⟩

def NewJob.kind (new : NewJob) : JobKind := ⟨new.circuitId, new.metadata.get? "policy_id"⟩

/-- What a job is submitted with; the policy is that of a policy run. -/
structure JobSubmission where
  proofId : String
  circuitId : String
  policyId : Option String
  payload : JobPayload

def JobSubmission.kind (sub : JobSubmission) : JobKind := ⟨sub.circuitId, sub.policyId.map .str⟩

/-- Vault with the key of the payloads, the provider, and what jobs are submitted with. All of it can be
written as JSON and read again. -/
structure SealedServices where
  transit : Transit
  floats : PyJson.FloatReader
  keyName : String
  /-- What the provider may answer to a circuit and an input. -/
  generates : String → Json → ProofResult → Prop
  /-- The verdicts on a proof and its public signals. -/
  verifies : String → Json → List Json → Bool → Prop
  submissions : Set JobSubmission
  readable : ∀ sub ∈ submissions, PyJson.Readable floats sub.payload.toJson

namespace SealedServices

variable (V : SealedServices)

/-- A sealed payload of the submission of a job. -/
def Sealed (root : String) (kind : JobKind) (sealedPayload : String) : Prop :=
  ∃ sub ∈ V.submissions, sub.proofId = root ∧ sub.kind = kind ∧
    ∃ draw, sealJobPayload V.transit V.keyName sub.payload draw = .ok sealedPayload

/-- A job is submitted with a payload that has been sealed for it. Its metadata, which the service makes up,
names the policy of the submission and says nothing of a rerun. -/
def Admits : Task → Prop
  | .submit proofId circuitId _ _ sealedPayload metadata =>
    V.Sealed proofId ⟨circuitId, metadata.get? "policy_id"⟩ sealedPayload ∧ metadata.get? "rerun_of" = none
  | _ => True

/-- A payload is unsealed by `unseal_job_payload`, and the provider answers as it may. -/
def Unseals : (c : Call) → Except PyExn c.Resp → Prop
  | .unsealJobPayload sealedPayload, .ok decrypted =>
    unsealJobPayload V.transit V.floats V.keyName sealedPayload = .ok (Json.toPy decrypted)
  | .generate circuitId input, .ok result => V.generates circuitId input result
  | .verify circuitId proof publicSignals, .ok verified => V.verifies circuitId proof publicSignals verified
  | _, _ => True

/-- A call of the services. -/
def sem (c : Call) (w : World) (a : Except PyExn c.Resp) (w' : World) : Prop := c.Sem w a w' ∧ V.Unseals c a

/-- **The broker of the services on sealed payloads.** -/
def broker (settings : Set WorkerSettings) (sha256 : String → String) :
    BrokerConfig World Call.Resp PyExn Unit String where
  sem := V.sem
  requests := {p | ∃ S ∈ settings, ∃ task, Task.isRequest task = true ∧ V.Admits task ∧ p = task.prog S sha256}
  handlers := (serviceBroker settings sha256).handlers
  pending := (serviceBroker settings sha256).pending
  remove := (serviceBroker settings sha256).remove

/-- The submission of a policy run is what `create_policy_run` has computed from the request and the evidence. -/
structure DraftOf (R : RunService) (policyId : String) (sub : JobSubmission) (request : RunCreateRequest)
    (manifest : PolicyPackManifest) (evidence : Json) : Prop where
  policy : request.policyId = policyId
  loaded : R.loadPolicyManifest policyId = .ok manifest
  draft : ∃ evidenceRef draft, R.draft request sub.proofId manifest evidence evidenceRef = .ok draft ∧
    draft.circuitId = sub.circuitId ∧ draft.plaintext = sub.payload.toJson

/-- Policy runs are submitted by `create_policy_run` only. -/
def Drafted (services : Set RunService) : Prop := ∀ sub ∈ V.submissions, ∀ policyId, sub.policyId = some policyId →
  ∃ R ∈ services, ∃ request manifest evidence, DraftOf R policyId sub request manifest evidence

end SealedServices

end Vellum
