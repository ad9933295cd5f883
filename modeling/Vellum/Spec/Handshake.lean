import Vellum.Spec.Vault
import Vellum.Spec.Errors

/-!
# The signature of a bank's request

`build_canonical_request_string` of `vellum_core/auth.py`, and `verify_handshake` up to the check
of the signature. SHA-256 and Ed25519 are parameters, as are the key cache and the reading of the
timestamp header.
-/

namespace Vellum

/-- What a bank signs of a request: the headers as they are sent, the path as it is decoded. -/
structure SignedRequest where
  method : String
  path : String
  timestamp : String
  nonce : String
  rawBody : ByteArray

/-- `bytes.hex`. -/
def hexBytes (b : ByteArray) : List Char :=
  b.data.toList.flatMap fun u => [Nat.digitChar (u.toNat / 16), Nat.digitChar (u.toNat % 16)]

/-- `hashlib.sha256(raw).hexdigest()`. -/
def hexdigest (sha256 : ByteArray → ByteArray) (raw : ByteArray) : String := String.ofList (hexBytes (sha256 raw))

/-- `build_canonical_request_string`. -/
def buildCanonicalRequestString (sha256 : ByteArray → ByteArray) (r : SignedRequest) : String :=
  let bodyHash := hexdigest sha256 r.rawBody
  r.method ++ "\n" ++ r.path ++ "\n" ++ r.timestamp ++ "\n" ++ r.nonce ++ "\n" ++ bodyHash

/-- HTTP lets no line break into a method or a header. -/
structure SignedRequest.OneLine (r : SignedRequest) : Prop where
  method : '\n' ∉ r.method.toList
  timestamp : '\n' ∉ r.timestamp.toList
  nonce : '\n' ∉ r.nonce.toList

/-! ## `verify_handshake` -/

/-- What `verify_handshake` reads of a request. -/
structure BankRequest where
  method : String
  path : String
  keyId : Option String
  timestamp : Option String
  nonce : Option String
  signature : Option String
  rawBody : ByteArray

namespace BankRequest

/-- The headers without which a request is refused, by their names. -/
def handshakeHeaders (r : BankRequest) : List (String × Option String) :=
  [("X-Bank-Key-Id", r.keyId), ("X-Bank-Timestamp", r.timestamp), ("X-Bank-Nonce", r.nonce),
    ("X-Bank-Signature", r.signature)]

/-- The names of the headers that are absent or empty. -/
def missing (r : BankRequest) : List String :=
  (r.handshakeHeaders.filter fun h => h.2.getD "" = "").map Prod.fst

/-- What is signed of the request. -/
def signed (r : BankRequest) : SignedRequest :=
  ⟨r.method, r.path, r.timestamp.getD "", r.nonce.getD "", r.rawBody⟩

end BankRequest

/-- What `verify_handshake` asks: the timestamp of a header, the Vault keys of the banks, the key
cache, and Ed25519 with a public key as the cache returns it. -/
structure HandshakeService where
  sha256 : ByteArray → ByteArray
  parseTimestamp : String → Except PyExn ℚ
  bankKeyMapping : Dict String
  publicKey : String → String → Except PyExn String
  verify : String → ByteArray → List ℕ → Bool

/-- `verify_handshake` up to the replay guard: the key id, and the timestamp for the guard. -/
def verifySignature (A : HandshakeService) (r : BankRequest) : Except PyExn (String × ℚ) := do
  if r.missing ≠ [] then
    throw (.api ⟨401, "missing_handshake_headers", "Missing bank handshake headers",
      [("missing_headers", .arr (r.missing.map .str))]⟩)
  let keyId := r.keyId.getD ""
  let timestampEpoch ← A.parseTimestamp (r.timestamp.getD "")
  let canonical := buildCanonicalRequestString A.sha256 r.signed
  match A.bankKeyMapping.get? keyId with
  | none => throw (.api ⟨401, "unknown_bank_key", "Unknown bank key id", [("key_id", .str keyId)]⟩)
  | some bankVaultKey =>
    let (signatureRaw, signatureKeyVersion) ← (decodeSignature (r.signature.getD "")).mapError .other
    let publicKeyPem ← A.publicKey bankVaultKey signatureKeyVersion
    if A.verify publicKeyPem canonical.toUTF8 signatureRaw then return (keyId, timestampEpoch)
    else throw (.api ⟨401, "invalid_handshake_signature", "Bank request signature invalid", []⟩)

end Vellum
