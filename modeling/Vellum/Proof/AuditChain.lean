import Vellum.Lib.JsonText
import Vellum.Lib.Run
import Vellum.Spec.Audit

/-!
# The audit log is one chain, and its head commits to it

* `verifyRows_valid`: what it says that `verify_chain` reports a valid chain.
* `payload_inj`: the hashed record determines what the row records.
* `chain_head_commits`: two valid chains with the same head record the same history.
* `append_inv`, `auditStep_inv`, `audit_log_single_chain`: under any interleaving of any number of
  `append_event` calls the log stays one valid chain, with exactly one row for every call
  that returned and none for every call that raised.
-/

namespace Vellum

open Json Relation

variable {sha256 : String → String} {scheme scheme' : SignatureScheme}

/-! ## What a valid report says -/

/-- A row that carries the hash of what it records. -/
def HashOk (sha256 : String → String) (row : AuditRow) : Prop := hashRecord sha256 row.payload = row.entryHash

/-- A row that carries its own hash and a signature of it. -/
structure RowOk (sha256 : String → String) (scheme : SignatureScheme) (row : AuditRow) : Prop where
  hash : HashOk sha256 row
  signature : checkSignature scheme row = .ok true

/-- The report of a valid chain of `n` rows. -/
def validReport (n : ℕ) : ChainReport := ⟨true, n, none, none⟩

/-- **Valid means linked and signed.** By induction on the rows, with the hash the next row
has to name. -/
theorem verifyRows_valid {rows : List AuditRow} {idx : ℕ} {prev : String} {r : ChainReport} :
    (verifyRows sha256 scheme idx prev rows = .ok r ∧ r.valid = true) ↔
      Linked AuditRow.previousEntryHash AuditRow.entryHash prev rows ∧
        (∀ row ∈ rows, RowOk sha256 scheme row) ∧ r = validReport (idx + rows.length) := by
  induction rows generalizing idx prev with
  | nil =>
    simp only [verifyRows, Except.ok.injEq, Linked, true_and, List.not_mem_nil, false_imp_iff, implies_true,
      List.length_nil, Nat.add_zero]
    constructor
    · rintro ⟨rfl, -⟩
      rfl
    · rintro rfl
      exact ⟨rfl, rfl⟩
  | cons row rows ih =>
    have hlen : idx + (row :: rows).length = idx + 1 + rows.length := by simp only [List.length_cons]; omega
    rw [Linked, List.forall_mem_cons, hlen]
    unfold verifyRows
    by_cases hlink : row.previousEntryHash = prev
    · by_cases hhash : hashRecord sha256 row.payload = row.entryHash
      · rw [if_neg (not_not.2 hlink), if_neg (not_not.2 hhash)]
        cases hsig : checkSignature scheme row with
        | error e =>
          -- an exception of the check is one of the verifier
          refine ⟨fun h => ?_, fun h => ?_⟩
          · cases h.1
          · rw [h.2.1.1.signature] at hsig
            cases hsig
        | ok b =>
          cases b with
          | false =>
            refine ⟨fun h => ?_, fun h => ?_⟩
            · obtain ⟨h1, h2⟩ := h
              obtain rfl := Except.ok.inj h1
              cases h2
            · rw [h.2.1.1.signature] at hsig
              cases hsig
          | true =>
            refine (@ih (idx + 1) row.entryHash).trans ⟨fun h => ?_, fun h => ?_⟩
            · exact ⟨⟨hlink, h.1⟩, ⟨⟨hhash, hsig⟩, h.2.1⟩, h.2.2⟩
            · exact ⟨h.1.2, h.2.1.2, h.2.2⟩
      · rw [if_neg (not_not.2 hlink), if_pos hhash]
        refine ⟨fun h => ?_, fun h => absurd h.2.1.1.hash hhash⟩
        obtain ⟨h1, h2⟩ := h
        obtain rfl := Except.ok.inj h1
        cases h2
    · rw [if_pos hlink]
      refine ⟨fun h => ?_, fun h => absurd h.1.1 hlink⟩
      obtain ⟨h1, h2⟩ := h
      obtain rfl := Except.ok.inj h1
      cases h2

/-! ## The head commits to the history -/

/-- Two rows record the same, the timestamp to the second and JSON up to the order of keys. -/
structure SameRecord (a b : AuditRow) : Prop where
  timestamp : a.timestamp.truncate = b.timestamp.truncate
  proofId : a.proofId = b.proofId
  circuitId : a.circuitId = b.circuitId
  status : a.status = b.status
  publicSignals : sortKeys (.arr a.publicSignals) = sortKeys (.arr b.publicSignals)
  proofHash : a.proofHash = b.proofHash
  previousEntryHash : a.previousEntryHash = b.previousEntryHash
  entryHash : a.entryHash = b.entryHash
  metadata : sortKeys (.obj a.metadata) = sortKeys (.obj b.metadata)
  error : a.error = b.error

theorem ofOptStr_inj {a b : Option String} (h : sortKeys (.ofOptStr a) = sortKeys (.ofOptStr b)) : a = b := by
  cases a <;> cases b <;> simp_all [Json.ofOptStr, sortKeys]

/-- The keys of the hashed record. -/
def linkKeys : List String :=
  ["timestamp", "proof_id", "circuit_id", "status", "public_signals", "proof_hash", "previous_entry_hash",
    "metadata", "error"]

/-- **The hashed record determines the row**, together with its hash. -/
theorem payload_inj {a b : AuditRow} (h : sortKeys a.payload = sortKeys b.payload)
    (hhash : a.entryHash = b.entryHash) : SameRecord a b := by
  have hf := sortKeys_obj_fields linkKeys (by decide) rfl rfl h
  simp only [List.map_cons, List.map_nil, List.cons.injEq, and_true] at hf
  obtain ⟨h1, h2, h3, h4, h5, h6, h7, h8, h9⟩ := hf
  have hstr : ∀ {x y : String}, sortKeys (.str x) = sortKeys (.str y) → x = y := fun h => by
    simpa [sortKeys] using h
  exact ⟨DateTime.isoformat_inj (hstr h1), ofOptStr_inj h2, hstr h3, hstr h4, h5, hstr h6, hstr h7, hhash, h8,
    ofOptStr_inj h9⟩

/-! A hash, a Vault and a clock to run the log with. -/

def demoSha256 (t : String) : String := "h" ++ t

theorem demoSha256_inj : Function.Injective demoSha256 := fun a b h => by
  have := congrArg String.toList h
  simp only [demoSha256, String.toList_append, List.append_cancel_left_eq] at this
  exact String.toList_inj.1 this

theorem demoSha256_ne (t : String) : demoSha256 t ≠ "" := fun h => by
  have := congrArg String.toList h
  simp [demoSha256] at this

/-- Signatures that carry the message itself, after the prefix `vault:v1:`. -/
def demoScheme : SignatureScheme where
  decodeSignature encoded := .ok (String.ofList (encoded.toList.drop 9), "1")
  getPublicKey keyVersion := if keyVersion = "1" then .ok "key" else .error "unknown version"
  verify _ message raw := message == raw

def demoTime : DateTime := ⟨2024, 5, 17, 12, 30, 1, 250000, by decide, by decide, by decide, by decide, by decide,
  by decide, by decide⟩

/-- Two writers, one event each. -/
def demoAudit : AuditConfig where
  sha256 := demoSha256
  args i := ⟨some "p1", "batch_credit_check", if i = 0 then "queued" else "running", [], none,
    some [("source", .str "worker"), ("attempt", .int 1)], none⟩
  signs m sig := sig = ⟨"vault:v1:" ++ m, "1"⟩

/-- The texts that are hashed for rows. -/
def hashedTexts (rows : List AuditRow) : Set String := {t | ∃ row ∈ rows, row.payload.canonical = t}

/-- **The head of the audit chain commits to the whole history.** Two lists that the verifier
finds valid and whose last rows have the same hash record the same, row by row; no two of the
hashed texts collide, and none has the empty hash. -/
theorem chain_head_commits {rows rows' : List AuditRow} {r r' : ChainReport}
    (hinj : Set.InjOn sha256 (hashedTexts (rows ++ rows'))) (hne : ∀ t ∈ hashedTexts (rows ++ rows'), sha256 t ≠ "")
    (h : verifyChain sha256 scheme rows = .ok r) (hv : r.valid = true)
    (h' : verifyChain sha256 scheme' rows' = .ok r') (hv' : r'.valid = true)
    (hlast : rows.getLast?.map AuditRow.entryHash = rows'.getLast?.map AuditRow.entryHash) :
    rows.length = rows'.length ∧ List.Forall₂ SameRecord rows rows' := by
  obtain ⟨hl, hok, -⟩ := verifyRows_valid.1 ⟨h, hv⟩
  obtain ⟨hl', hok', -⟩ := verifyRows_valid.1 ⟨h', hv'⟩
  -- equal hashes of two rows of these lists are hashes of equal texts
  have hR : ∀ {a b : AuditRow}, HashOk sha256 a ∧ a ∈ rows ++ rows' → HashOk sha256 b ∧ b ∈ rows ++ rows' →
      a.entryHash = b.entryHash → a.previousEntryHash = b.previousEntryHash ∧ SameRecord a b := by
    rintro a b ⟨ha, hma⟩ ⟨hb, hmb⟩ hab
    have htext := hinj ⟨a, hma, rfl⟩ ⟨b, hmb, rfl⟩ (ha.trans (hab.trans hb.symm))
    have hsame := payload_inj (canonical_inj htext) hab
    exact ⟨hsame.previousEntryHash, hsame⟩
  have hstart : ∀ {a : AuditRow}, HashOk sha256 a ∧ a ∈ rows ++ rows' → a.entryHash ≠ "" := by
    rintro a ⟨ha, hma⟩
    rw [← ha]
    exact hne _ ⟨a, hma, rfl⟩
  have hall : List.Forall₂ SameRecord rows rows' :=
    linked_unique hR hstart (fun a ha => ⟨(hok a ha).hash, List.mem_append_left _ ha⟩)
      (fun a ha => ⟨(hok' a ha).hash, List.mem_append_right _ ha⟩) hl hl' (by rw [lastHash, lastHash, hlast])
  exact ⟨hall.length_eq, hall⟩

/-- The row of event `i` behind a row with the given hash, with a timestamp and a key version of choice. -/
def demoRow (i : ℕ) (previousEntryHash : String) (timestamp : DateTime) (keyVersion : String) : AuditRow :=
  let args := demoAudit.args i
  let hash := args.entryHash demoSha256 previousEntryHash demoTime.truncate
  { args.row demoSha256 (i + 1) previousEntryHash demoTime.truncate ⟨"vault:v1:" ++ hash, "1"⟩ with
    timestamp := timestamp, keyVersion := keyVersion }

theorem demoRow_ok {i : ℕ} {prev : String} {t : DateTime} {v : String} (ht : t.truncate = demoTime.truncate)
    (hv : v = "1" ∨ v = "") : RowOk demoSha256 demoScheme (demoRow i prev t v) := by
  constructor
  · unfold HashOk AuditRow.payload
    rw [show (demoRow i prev t v).timestamp = t from rfl, ht]
    rfl
  · rcases hv with rfl | rfl <;> simp [checkSignature, demoScheme, demoRow, bind, Except.bind, pure, Except.pure,
      EventArgs.row]

/-- Three linked events: a job is queued, and then runs twice. -/
def demoLog (timestamp : DateTime) (keyVersion : String) : List AuditRow :=
  let first := demoRow 0 "" timestamp keyVersion
  let second := demoRow 1 first.entryHash timestamp keyVersion
  [first, second, demoRow 2 second.entryHash timestamp keyVersion]

theorem demoLog_valid {t : DateTime} {v : String} (ht : t.truncate = demoTime.truncate) (hv : v = "1" ∨ v = "") :
    verifyChain demoSha256 demoScheme (demoLog t v) = .ok (validReport 3) := by
  have hlinked : Linked AuditRow.previousEntryHash AuditRow.entryHash "" (demoLog t v) := ⟨rfl, rfl, rfl, trivial⟩
  have hrows : ∀ row ∈ demoLog t v, RowOk demoSha256 demoScheme row := by
    simp only [demoLog, List.forall_mem_cons]
    exact ⟨demoRow_ok ht hv, demoRow_ok ht hv, demoRow_ok ht hv, by simp⟩
  exact (verifyRows_valid.2 ⟨hlinked, hrows, rfl⟩).1

/-- Logs of rows with their microseconds kept, and with their key version only in the signature, are
the same records. -/
theorem chain_head_commits_demo : List.Forall₂ SameRecord (demoLog demoTime "1") (demoLog demoTime.truncate "") :=
  (chain_head_commits (demoSha256_inj.injOn) (fun t _ => demoSha256_ne t) (demoLog_valid rfl (.inl rfl)) rfl
    (demoLog_valid (DateTime.truncate_truncate demoTime) (.inr rfl)) rfl rfl).2

/-! ## Concurrent writers -/

/-- **Vault's signatures verify**: what it gives for a message decodes to the key version it
carries, and verifies under that version's public key. -/
def VaultSound (scheme : SignatureScheme) (signs : String → VaultSignature → Prop) : Prop :=
  ∀ m sig, signs m sig → ∃ raw publicKey, scheme.decodeSignature sig.encoded = .ok (raw, sig.keyVersion) ∧
    scheme.getPublicKey sig.keyVersion = .ok publicKey ∧ scheme.verify publicKey m raw = true

/-- A row that records the arguments of a call. -/
structure Records (sha256 : String → String) (args : EventArgs) (row : AuditRow) : Prop where
  proofId : row.proofId = args.proofId
  circuitId : row.circuitId = args.circuitId
  status : row.status = args.status
  publicSignals : row.publicSignals = args.publicSignals
  proofHash : row.proofHash = computeProofHash sha256 args.proofPayload
  metadata : row.metadata = args.metadataPayload
  error : row.error = args.error

/-- What holds of a call: a timestamp it holds is truncated, a signature it holds is one of the
hash it will insert, and it has inserted a row only if it returned that row. -/
def CallOk (cfg : AuditConfig) (s : AuditSystem) (i : ℕ) : Prop :=
  match s.calls i with
  | .returned row => s.rowsOf i = [row] ∧ Records cfg.sha256 (cfg.args i) row
  | .signing _ _ t => s.rowsOf i = [] ∧ t.truncate = t
  | .appending _ prev t sig => s.rowsOf i = [] ∧ t.truncate = t ∧
      cfg.signs ((cfg.args i).entryHash cfg.sha256 prev t) sig
  | _ => s.rowsOf i = []

/-- The invariant of the log. -/
structure AuditInv (cfg : AuditConfig) (scheme : SignatureScheme) (s : AuditSystem) : Prop where
  linked : Linked AuditRow.previousEntryHash AuditRow.entryHash "" s.rows
  rowsOk : ∀ row ∈ s.rows, RowOk cfg.sha256 scheme row
  callsOk : ∀ i, CallOk cfg s i

variable {cfg : AuditConfig} {s s' : AuditSystem}

/-- A call that has not returned has no row. -/
theorem rowsOf_of_waiting {i : ℕ} (h : CallOk cfg s i) (hw : (s.calls i).waiting = true) : s.rowsOf i = [] := by
  unfold CallOk at h
  cases hc : s.calls i <;> rw [hc] at h hw <;> simp only [CallState.waiting, Bool.false_eq_true] at hw
  · exact h
  · exact h.1
  · exact h.1

/-- A step of call `i` that leaves the log alone keeps every other call as it was. -/
theorem callOk_setCall {i : ℕ} {c : CallState} (h : ∀ j, CallOk cfg s j)
    (hi : CallOk cfg (s.setCall i c) i) : ∀ j, CallOk cfg (s.setCall i c) j := by
  intro j
  by_cases hj : j = i
  · subst hj
    exact hi
  · have hcall : (s.setCall i c).calls j = s.calls j := by simp [AuditSystem.setCall, hj]
    have := h j
    unfold CallOk at this ⊢
    rw [hcall]
    exact this

/-- The row a call inserts is in order. -/
theorem row_ok (hvault : VaultSound scheme cfg.signs) {args : EventArgs} {prev : String} {t : DateTime}
    {sig : VaultSignature} (ht : t.truncate = t) (hs : cfg.signs (args.entryHash cfg.sha256 prev t) sig) (n : ℕ) :
    RowOk cfg.sha256 scheme (args.row cfg.sha256 n prev t sig) := by
  obtain ⟨raw, pk, h1, h2, h3⟩ := hvault _ _ hs
  constructor
  · unfold HashOk AuditRow.payload EventArgs.row EventArgs.entryHash
    rw [ht]
  · unfold checkSignature
    have hversion : (if (args.row cfg.sha256 n prev t sig).keyVersion = "" then sig.keyVersion else
        (args.row cfg.sha256 n prev t sig).keyVersion) = sig.keyVersion := ite_self _
    rw [show (args.row cfg.sha256 n prev t sig).signature = sig.encoded from rfl, h1]
    simp only [bind, Except.bind, hversion, h2, pure, Except.pure]
    rw [show (args.row cfg.sha256 n prev t sig).entryHash = args.entryHash cfg.sha256 prev t from rfl, h3]

/-- **An insert keeps the invariant**: the row names the head it was signed for, and the head has
not moved since. -/
theorem append_inv (hvault : VaultSound scheme cfg.signs) (h : AuditInv cfg scheme s) {i attempt : ℕ}
    {prev : String} {t : DateTime} {sig : VaultSignature} {row : AuditRow}
    (hrow : row = (cfg.args i).row cfg.sha256 (s.log.length + 1) prev t sig)
    (hc : s.calls i = .appending attempt prev t sig) (hprev : prev = s.head) :
    AuditInv cfg scheme ⟨s.log ++ [(i, row)], Function.update s.calls i (.returned row)⟩ := by
  have hi := h.callsOk i
  simp only [CallOk, hc] at hi
  obtain ⟨hnone, ht, hs⟩ := hi
  have hrows : AuditSystem.rows ⟨s.log ++ [(i, row)], Function.update s.calls i (.returned row)⟩ =
      s.rows ++ [row] := by simp [AuditSystem.rows]
  refine ⟨?_, ?_, ?_⟩
  · have hlink : row.previousEntryHash = s.head := by
      rw [hrow]
      exact hprev
    rw [hrows, linked_concat]
    exact ⟨h.linked, hlink⟩
  · rw [hrows]
    intro r hr
    rcases List.mem_append.1 hr with hr | hr
    · exact h.rowsOk r hr
    · rw [List.mem_singleton.1 hr, hrow]
      exact row_ok hvault ht hs _
  · intro j
    by_cases hj : j = i
    · -- the first row of this call
      subst hj
      have hfirst : AuditSystem.rowsOf ⟨s.log ++ [(j, row)], Function.update s.calls j (.returned row)⟩ j = [row] := by
        unfold AuditSystem.rowsOf at hnone ⊢
        rw [List.filter_append, List.map_append, hnone]
        simp
      simp only [CallOk, Function.update_self]
      refine ⟨hfirst, ?_⟩
      rw [hrow]
      exact ⟨rfl, rfl, rfl, rfl, rfl, rfl, rfl⟩
    · have hold := h.callsOk j
      have hrowsj : AuditSystem.rowsOf ⟨s.log ++ [(i, row)], Function.update s.calls i (.returned row)⟩ j =
          s.rowsOf j := by
        simp [AuditSystem.rowsOf, List.filter_append, Ne.symm hj]
      simp only [CallOk, Function.update_of_ne hj, hrowsj]
      exact hold

/-- **One step keeps the invariant.** Only an insert touches the log. -/
theorem auditStep_inv (hvault : VaultSound scheme cfg.signs) (h : AuditInv cfg scheme s)
    (hstep : AuditStep cfg s s') : AuditInv cfg scheme s' := by
  -- any other step only moves one call on
  have hmove : ∀ {i : ℕ} {c : CallState}, CallOk cfg (s.setCall i c) i → AuditInv cfg scheme (s.setCall i c) :=
    fun hc => ⟨h.linked, h.rowsOk, callOk_setCall h.callsOk hc⟩
  cases hstep with
  | @start i hc =>
    have hnone := h.callsOk i
    simp only [CallOk, hc] at hnone
    apply hmove
    simp only [CallOk, AuditSystem.setCall, Function.update_self]
    exact hnone
  | @read i attempt now hc =>
    have hnone := rowsOf_of_waiting (h.callsOk i) (by rw [hc]; rfl)
    apply hmove
    simp only [CallOk, AuditSystem.setCall, Function.update_self]
    exact ⟨hnone, DateTime.truncate_truncate now⟩
  | @sign i attempt prev t sig hc hs =>
    have hold := h.callsOk i
    simp only [CallOk, hc] at hold
    apply hmove
    simp only [CallOk, AuditSystem.setCall, Function.update_self]
    exact ⟨hold.1, hold.2, hs⟩
  | @append i attempt prev t sig hc hprev => exact append_inv hvault h rfl hc hprev
  | @conflict i attempt prev t sig hc hne =>
    have hnone := rowsOf_of_waiting (h.callsOk i) (by rw [hc]; rfl)
    apply hmove
    simp only [CallOk, AuditSystem.setCall, Function.update_self]
    -- the call reads again, or raises after its last attempt
    split_ifs
    · exact hnone
    · exact hnone
  | @fail i hw =>
    have hnone := rowsOf_of_waiting (h.callsOk i) hw
    apply hmove
    simp only [CallOk, AuditSystem.setCall, Function.update_self]
    exact hnone

theorem auditInv_init : AuditInv cfg scheme .init where
  linked := trivial
  rowsOk := by simp [AuditSystem.rows, AuditSystem.init]
  callsOk := by intro i; rfl

theorem demo_vaultSound : VaultSound demoScheme demoAudit.signs := by
  rintro m sig rfl
  refine ⟨m, "key", ?_, rfl, ?_⟩
  · simp [demoScheme]
  · exact beq_self_eq_true m

/-- **The audit log is a single chain under any concurrency.** In every state that any number
of `append_event` calls reach under any interleaving of their reads, signatures and inserts:
every row names the hash of the row before it, and the first the empty string; a call that
returned has inserted exactly one row, with its arguments, and one that raised has inserted
none; and `verify_chain` finds the log valid, with all entries checked. -/
theorem audit_log_single_chain (hvault : VaultSound scheme cfg.signs)
    (h : ReflTransGen (AuditStep cfg) .init s) :
    Linked AuditRow.previousEntryHash AuditRow.entryHash "" s.rows ∧
    (∀ i row, s.calls i = .returned row → s.rowsOf i = [row] ∧ Records cfg.sha256 (cfg.args i) row) ∧
    (∀ i, s.calls i = .raised → s.rowsOf i = []) ∧
    verifyChain cfg.sha256 scheme s.rows = .ok (validReport s.rows.length) := by
  have hinv : AuditInv cfg scheme s := run_invariant auditInv_init (auditStep_inv hvault) h
  refine ⟨hinv.linked, ?_, ?_, ?_⟩
  · intro i row hc
    have := hinv.callsOk i
    simp only [CallOk, hc] at this
    exact this
  · intro i hc
    have := hinv.callsOk i
    simp only [CallOk, hc] at this
    exact this
  · have hreport : validReport s.rows.length = validReport (0 + s.rows.length) := by rw [Nat.zero_add]
    have hv := verifyRows_valid.2 ⟨hinv.linked, hinv.rowsOk, hreport⟩
    exact hv.1

/-- Two calls that read the same head: the second one's insert conflicts, and its next attempt
goes through. -/
theorem audit_log_single_chain_race : ∃ s, ReflTransGen (AuditStep demoAudit) .init s ∧
    (∃ row, s.calls 1 = .returned row ∧ s.rowsOf 1 = [row]) ∧
    Linked AuditRow.previousEntryHash AuditRow.entryHash "" s.rows ∧
    verifyChain demoSha256 demoScheme s.rows = .ok (validReport 2) := by
  have h1 : ReflTransGen (AuditStep demoAudit) .init _ := .single (.start (i := 0) rfl)
  have h2 := h1.tail (.start (i := 1) rfl)
  have h3 := h2.tail (.read (i := 0) demoTime rfl)
  have h4 := h3.tail (.read (i := 1) demoTime rfl)
  have h5 := h4.tail (.sign (i := 0) rfl rfl)
  have h6 := h5.tail (.sign (i := 1) rfl rfl)
  have h7 := h6.tail (.append (i := 0) rfl rfl)
  have h8 := h7.tail (.conflict (i := 1) rfl (demoSha256_ne _).symm)
  have h9 := h8.tail (.read (i := 1) demoTime rfl)
  have h10 := h9.tail (.sign (i := 1) rfl rfl)
  have h11 := h10.tail (.append (i := 1) rfl rfl)
  obtain ⟨hl, hret, -, hv⟩ := audit_log_single_chain demo_vaultSound h11
  exact ⟨_, h11, ⟨_, rfl, (hret 1 _ rfl).1⟩, hl, hv⟩

end Vellum
