import Vellum.Lib.PyText
import Vellum.Spec.Audit

/-!
# Vault's signatures and public keys

`decode_signature` and `VaultPublicKeyCache` of `vellum_core/vault.py`, and `verify_chain` with the
cache in between. `b64decode` is that of Python outside strict mode: it passes over characters that
are none of the alphabet and stops at the padding. Ed25519 is a parameter.

What Vault lists for the audit key is one dictionary, of which the cache may hold an earlier part.
-/

namespace Vellum

/-! ## `base64.b64decode` -/

def base64Value? (c : Char) : Option ℕ :=
  if c.isUpper then some (c.toNat - 65)
  else if c.isLower then some (c.toNat - 97 + 26)
  else if c.isDigit then some (c.toNat - 48 + 52)
  else if c = '+' then some 62
  else if c = '/' then some 63
  else none

/-- `binascii.a2b_base64`, by the place in the group of four, the bits left over, the padding seen
and the bytes so far. -/
def a2bBase64 (quadPos leftchar pads : ℕ) (out : List ℕ) : List Char → Except String (List ℕ)
  | [] =>
    if quadPos = 0 then .ok out
    else if quadPos = 1 then
      .error ("Invalid base64-encoded string: number of data characters (" ++ toString (out.length / 3 * 4 + 1) ++
        ") cannot be 1 more than a multiple of 4")
    else .error "Incorrect padding"
  | c :: cs =>
    if c = '=' then
      if quadPos < 2 then a2bBase64 quadPos leftchar pads out cs
      -- what follows the padding is not read
      else if 4 ≤ quadPos + (pads + 1) then .ok out
      else a2bBase64 quadPos leftchar (pads + 1) out cs
    else
      match base64Value? c with
      | none => a2bBase64 quadPos leftchar pads out cs
      | some v =>
        match quadPos with
        | 0 => a2bBase64 1 v 0 out cs
        | 1 => a2bBase64 2 (v % 16) 0 (out ++ [leftchar * 4 + v / 16]) cs
        | 2 => a2bBase64 3 (v % 4) 0 (out ++ [leftchar * 16 + v / 4]) cs
        | _ => a2bBase64 0 0 0 (out ++ [leftchar * 64 + v]) cs

def b64decode (text : String) : Except String (List ℕ) :=
  if text.toList.all fun c => c.toNat < 128 then a2bBase64 0 0 0 [] text.toList
  else .error "string argument should contain only ASCII characters"

/-! ## `decode_signature` -/

/-- `_VAULT_SIG_PATTERN.match`: the groups `version` and `sig`. -/
def matchVaultSignature (signature : String) : Option (String × String) :=
  if "vault:v".toList <+: signature.toList then
    let rest := signature.toList.drop 7
    let version := rest.takeWhile fun c => (decimalDigit? c).isSome
    match rest.dropWhile fun c => (decimalDigit? c).isSome with
    | ':' :: tail =>
      -- `$` also stands before a newline at the end
      let sig := if tail.getLast? = some '\n' then tail.dropLast else tail
      if version = [] ∨ sig = [] ∨ '\n' ∈ sig then none else some (String.ofList version, String.ofList sig)
    | _ => none
  else none

/-- `VaultTransitClient.decode_signature`. -/
def decodeSignature (signature : String) : Except String (List ℕ × String) :=
  match matchVaultSignature signature with
  | none => .error "Vault signature must use transit format vault:vN:<base64>"
  | some (keyVersion, sigBlob) =>
    match b64decode sigBlob with
    | .error e => .error e
    | .ok raw => .ok (raw, keyVersion)

example : (decodeSignature "vault:v1:YmFk\n").toOption = some ([98, 97, 100], "1") ∧
    (decodeSignature "vault:v1:YmF").toOption = none ∧ (decodeSignature "tampered").toOption = none := by
  decide +kernel

/-! ## `VaultPublicKeyCache` -/

/-- The entry of the audit key: when it expires, and the keys by their versions. -/
abbrev PublicKeyCache := Option (ℚ × Dict String)

/-- What `verify_chain` asks: the audit key with what Vault lists for it, the cache's time to live,
the clock at the two lookups for each row, and the check of a signature. -/
structure KeyService where
  keyName : String
  keys : Dict String
  ttl : ℚ
  clock : ℕ → ℚ × ℚ
  verify : String → String → List ℕ → Bool

namespace KeyService

variable (svc : KeyService)

/-- `_get_versions`. -/
def getVersions (now : ℚ) (cache : PublicKeyCache) : Dict String × PublicKeyCache :=
  match cache with
  | some (expiresAt, versions) =>
    if now < expiresAt then (versions, some (expiresAt, versions)) else (svc.keys, some (now + svc.ttl, svc.keys))
  | none => (svc.keys, some (now + svc.ttl, svc.keys))

/-- `get_public_key` for the version of row `idx`. -/
def getPublicKey (idx : ℕ) (keyVersion : String) (cache : PublicKeyCache) : Except String String × PublicKeyCache :=
  let (versions, cache) := svc.getVersions (svc.clock idx).1 cache
  if versions.items = [] then (.error ("No public keys found in Vault for key '" ++ svc.keyName ++ "'"), cache)
  else
    match versions.get? keyVersion with
    | some publicKey => (.ok publicKey, cache)
    | none =>
      -- `self._cache.pop(key_name, None)`
      let (versions, cache) := svc.getVersions (svc.clock idx).2 none
      match versions.get? keyVersion with
      | some publicKey => (.ok publicKey, cache)
      | none =>
        (.error ("Public key version '" ++ keyVersion ++ "' not found for '" ++ svc.keyName ++ "'"), cache)

/-! ## `verify_chain` -/

/-- The loop of `verify_chain` with the cache as it stands at row `idx`. -/
def verifyRows (sha256 : String → String) (idx : ℕ) (previousEntryHash : String) (cache : PublicKeyCache) :
    List AuditRow → Except String ChainReport × PublicKeyCache
  | [] => (.ok ⟨true, idx, none, none⟩, cache)
  | row :: rows =>
    if row.previousEntryHash ≠ previousEntryHash then
      (.ok (invalidChain (idx + 1) idx "Broken previous_entry_hash link"), cache)
    else if hashRecord sha256 row.payload ≠ row.entryHash then
      (.ok (invalidChain (idx + 1) idx "Entry hash mismatch"), cache)
    else
      match decodeSignature row.signature with
      | .error e => (.error e, cache)
      | .ok (raw, keyVersion) =>
        -- `row.key_version or key_version`
        match svc.getPublicKey idx (if row.keyVersion = "" then keyVersion else row.keyVersion) cache with
        | (.error e, cache) => (.error e, cache)
        | (.ok publicKey, cache) =>
          if svc.verify publicKey row.entryHash raw then verifyRows sha256 (idx + 1) row.entryHash cache rows
          else (.ok (invalidChain (idx + 1) idx "Invalid signature"), cache)

/-- `verify_chain`, on the rows in the order of their ids. -/
def verifyChain (sha256 : String → String) (cache : PublicKeyCache) (rows : List AuditRow) :
    Except String ChainReport :=
  (svc.verifyRows sha256 0 "" cache rows).1

end KeyService

end Vellum
