import Vellum.Lib.Chain
import Vellum.Lib.DateTime
import Vellum.Lib.Except
import Vellum.Lib.Json

/-!
# The audit log

`vellum_core/proof_store.py` and `append_audit_row` of `database.py`: the record that is
hashed, `append_event` as a step machine over a shared log, and `verify_chain`. SHA-256,
Vault's signatures and the key cache are parameters.
-/

namespace Vellum

/-- A row of `audit_log`. -/
structure AuditRow where
  id : ℕ
  timestamp : DateTime
  proofId : Option String
  circuitId : String
  status : String
  publicSignals : List Json
  proofHash : String
  previousEntryHash : String
  entryHash : String
  signature : String
  keyVersion : String
  metadata : List (String × Json)
  error : Option String

/-- `_hash_record`. -/
def hashRecord (sha256 : String → String) (record : Json) : String := sha256 record.canonical

/-- `_compute_proof_hash`. -/
def computeProofHash (sha256 : String → String) : Option Json → String
  | none => ""
  | some proof => sha256 proof.canonical

/-- The record an entry's hash is taken over; the timestamp is truncated already. -/
def linkPayload (timestamp : DateTime) (proofId : Option String) (circuitId status : String)
    (publicSignals : List Json) (proofHash previousEntryHash : String) (metadata : List (String × Json))
    (error : Option String) : Json :=
  .obj [("timestamp", .str timestamp.isoformat), ("proof_id", .ofOptStr proofId),
    ("circuit_id", .str circuitId), ("status", .str status), ("public_signals", .arr publicSignals),
    ("proof_hash", .str proofHash), ("previous_entry_hash", .str previousEntryHash),
    ("metadata", .obj metadata), ("error", .ofOptStr error)]

/-! ## `verify_chain` -/

/-- What `verify_chain` asks of Vault and of Ed25519: `decode_signature`, the public key of a
version, and the check itself. A failure is the text of the exception. -/
structure SignatureScheme where
  decodeSignature : String → Except String (String × String)
  getPublicKey : String → Except String String
  verify : String → String → String → Bool

/-- The report of `verify_chain`. -/
structure ChainReport where
  valid : Bool
  checkedEntries : ℕ
  firstBrokenIndex : Option ℕ
  reason : Option String
deriving DecidableEq, Repr

/-- `_invalid_chain`. -/
def invalidChain (checkedEntries firstBrokenIndex : ℕ) (reason : String) : ChainReport :=
  ⟨false, checkedEntries, some firstBrokenIndex, some reason⟩

/-- The record the verifier recomputes from a row. -/
def AuditRow.payload (row : AuditRow) : Json :=
  linkPayload row.timestamp.truncate row.proofId row.circuitId row.status row.publicSignals row.proofHash
    row.previousEntryHash row.metadata row.error

/-- The signature check of one row. -/
def checkSignature (scheme : SignatureScheme) (row : AuditRow) : Except String Bool := do
  let (raw, keyVersion) ← scheme.decodeSignature row.signature
  -- `row.key_version or key_version`
  let publicKey ← scheme.getPublicKey (if row.keyVersion = "" then keyVersion else row.keyVersion)
  return scheme.verify publicKey row.entryHash raw

/-- The loop of `verify_chain`, at row `idx` with the hash of the row before. -/
def verifyRows (sha256 : String → String) (scheme : SignatureScheme) (idx : ℕ) (previousEntryHash : String) :
    List AuditRow → Except String ChainReport
  | [] => .ok ⟨true, idx, none, none⟩
  | row :: rows =>
    if row.previousEntryHash ≠ previousEntryHash then
      .ok (invalidChain (idx + 1) idx "Broken previous_entry_hash link")
    else if hashRecord sha256 row.payload ≠ row.entryHash then
      .ok (invalidChain (idx + 1) idx "Entry hash mismatch")
    -- an unreadable signature or an unknown key raises, it is no report
    else do
      if ← checkSignature scheme row then
        verifyRows sha256 scheme (idx + 1) row.entryHash rows
      else return invalidChain (idx + 1) idx "Invalid signature"

/-- `verify_chain`, on the rows in the order of their ids. -/
def verifyChain (sha256 : String → String) (scheme : SignatureScheme) (rows : List AuditRow) :
    Except String ChainReport :=
  verifyRows sha256 scheme 0 "" rows

/-! ## `append_event` -/

/-- The arguments of one `append_event` call. -/
structure EventArgs where
  proofId : Option String
  circuitId : String
  status : String
  publicSignals : List Json
  proofPayload : Option Json
  metadata : Option (List (String × Json))
  error : Option String

/-- `metadata or {}`. -/
def EventArgs.metadataPayload (args : EventArgs) : List (String × Json) := args.metadata.getD []

/-- `VaultSignature`; the raw bytes are those that `decode_signature` finds again. -/
structure VaultSignature where
  encoded : String
  keyVersion : String
deriving DecidableEq, Repr

/-- The hash that is signed and stored. -/
def EventArgs.entryHash (sha256 : String → String) (args : EventArgs) (previousEntryHash : String)
    (timestamp : DateTime) : String :=
  hashRecord sha256 (linkPayload timestamp args.proofId args.circuitId args.status args.publicSignals
    (computeProofHash sha256 args.proofPayload) previousEntryHash args.metadataPayload args.error)

/-- The row that is inserted, with the next id. -/
def EventArgs.row (sha256 : String → String) (args : EventArgs) (id : ℕ) (previousEntryHash : String)
    (timestamp : DateTime) (signature : VaultSignature) : AuditRow where
  id := id
  timestamp := timestamp
  proofId := args.proofId
  circuitId := args.circuitId
  status := args.status
  publicSignals := args.publicSignals
  proofHash := computeProofHash sha256 args.proofPayload
  previousEntryHash := previousEntryHash
  entryHash := args.entryHash sha256 previousEntryHash timestamp
  signature := signature.encoded
  keyVersion := signature.keyVersion
  metadata := args.metadataPayload
  error := args.error

/-- Where a call stands: before its `attempt`-th read of the head, before the signature,
before the insert, or done. -/
inductive CallState where
  | idle
  | reading (attempt : ℕ)
  | signing (attempt : ℕ) (previousEntryHash : String) (timestamp : DateTime)
  | appending (attempt : ℕ) (previousEntryHash : String) (timestamp : DateTime) (signature : VaultSignature)
  | returned (row : AuditRow)
  | raised

/-- A call that waits for the database or for Vault. -/
def CallState.waiting : CallState → Bool
  | .reading _ | .signing .. | .appending .. => true
  | _ => false

/-- The shared log and every call. Each row is kept with the call that inserted it, which
nothing in the program reads. -/
structure AuditSystem where
  log : List (ℕ × AuditRow)
  calls : ℕ → CallState

namespace AuditSystem

/-- The empty log, no call begun. -/
def init : AuditSystem := ⟨[], fun _ => .idle⟩

def rows (s : AuditSystem) : List AuditRow := s.log.map Prod.snd

/-- The rows that call `i` inserted. -/
def rowsOf (s : AuditSystem) (i : ℕ) : List AuditRow := (s.log.filter fun p => p.1 = i).map Prod.snd

/-- `latest.entry_hash if latest is not None else ""`. -/
def head (s : AuditSystem) : String := lastHash AuditRow.entryHash "" s.rows

def setCall (s : AuditSystem) (i : ℕ) (c : CallState) : AuditSystem :=
  { s with calls := Function.update s.calls i c }

end AuditSystem

/-- The number of attempts of `append_event`. -/
def appendAttempts : ℕ := 8

/-- What the calls share: the arguments of each, SHA-256, and the signatures Vault may give
for a message. -/
structure AuditConfig where
  sha256 : String → String
  args : ℕ → EventArgs
  signs : String → VaultSignature → Prop

/-- **One step of one call.** `append_audit_row` compares and inserts under a lock, so it is a
single step; a call that waits may also see its awaited call raise. -/
inductive AuditStep (cfg : AuditConfig) : AuditSystem → AuditSystem → Prop where
  | start {s : AuditSystem} {i : ℕ} : s.calls i = .idle → AuditStep cfg s (s.setCall i (.reading 0))
  | read {s : AuditSystem} {i attempt : ℕ} (now : DateTime) : s.calls i = .reading attempt →
      AuditStep cfg s (s.setCall i (.signing attempt s.head now.truncate))
  | sign {s : AuditSystem} {i attempt : ℕ} {prev : String} {t : DateTime} {sig : VaultSignature} :
      s.calls i = .signing attempt prev t → cfg.signs ((cfg.args i).entryHash cfg.sha256 prev t) sig →
      AuditStep cfg s (s.setCall i (.appending attempt prev t sig))
  | append {s : AuditSystem} {i attempt : ℕ} {prev : String} {t : DateTime} {sig : VaultSignature} :
      s.calls i = .appending attempt prev t sig → prev = s.head →
      AuditStep cfg s { s with
        log := s.log ++ [(i, (cfg.args i).row cfg.sha256 (s.log.length + 1) prev t sig)]
        calls := Function.update s.calls i
          (.returned ((cfg.args i).row cfg.sha256 (s.log.length + 1) prev t sig)) }
  -- the last conflict raises
  | conflict {s : AuditSystem} {i attempt : ℕ} {prev : String} {t : DateTime} {sig : VaultSignature} :
      s.calls i = .appending attempt prev t sig → prev ≠ s.head →
      AuditStep cfg s (s.setCall i (if attempt + 1 < appendAttempts then .reading (attempt + 1) else .raised))
  | fail {s : AuditSystem} {i : ℕ} : (s.calls i).waiting = true → AuditStep cfg s (s.setCall i .raised)

end Vellum
