import Mathlib.Order.Bounds.Defs
import Vellum.Proof.AuditChain
import Vellum.Spec.Vault

/-!
# When the report of `verify_chain` is precise

`verify_chain` goes through the rows and stops at the first that is not in order. A wrong link, a
wrong hash or a signature that does not verify gives a report; a signature that cannot be decoded or
a key version that Vault does not list raises.

* `verifyRows_first`: the rows before the first defect do not change the outcome.
* `verifyChain_eq`: the cache does not change the outcome.
* `verify_chain_precise_iff`: when the report names the first defect.
-/

namespace Vellum

variable {sha256 : String → String} {scheme : SignatureScheme} {rows : List AuditRow} {row : AuditRow} {i : ℕ}

/-! ## The first defect -/

/-- The hash that row `i` has to name. -/
def hashBefore (rows : List AuditRow) (i : ℕ) : String := lastHash AuditRow.entryHash "" (rows.take i)

/-- Row `i` has a wrong link, a wrong hash, or no signature that verifies. -/
def DefectAt (sha256 : String → String) (signed : AuditRow → Prop) (rows : List AuditRow) (i : ℕ) : Prop :=
  ∃ row, rows[i]? = some row ∧ (row.previousEntryHash ≠ hashBefore rows i ∨ ¬ HashOk sha256 row ∨ ¬ signed row)

/-- A report that is invalid exactly where there is a defect, and then names the first. -/
def PreciseReport (sha256 : String → String) (signed : AuditRow → Prop) (rows : List AuditRow)
    (result : Except String ChainReport) : Prop :=
  ∃ report, result = .ok report ∧ (report.valid = false ↔ ∃ i, DefectAt sha256 signed rows i) ∧
    ∀ i, IsLeast {i | DefectAt sha256 signed rows i} i → report.firstBrokenIndex = some i

/-- The signature of a row verifies. -/
def Signed (scheme : SignatureScheme) (row : AuditRow) : Prop := checkSignature scheme row = .ok true

theorem not_defectAt {signed : AuditRow → Prop} (h : ¬ DefectAt sha256 signed rows i) (hrow : rows[i]? = some row) :
    row.previousEntryHash = hashBefore rows i ∧ HashOk sha256 row ∧ signed row := by
  by_contra hno
  refine h ⟨row, hrow, ?_⟩
  by_cases hlink : row.previousEntryHash = hashBefore rows i
  · by_cases hhash : HashOk sha256 row
    · exact .inr (.inr fun hsigned => hno ⟨hlink, hhash, hsigned⟩)
    · exact .inr (.inl hhash)
  · exact .inl hlink

/-- **Before the first defect** the rows are linked and in order. By induction on their number. -/
theorem ordered_take (h : ∀ j < i, ¬ DefectAt sha256 (Signed scheme) rows j) :
    Linked AuditRow.previousEntryHash AuditRow.entryHash "" (rows.take i) ∧
      ∀ row ∈ rows.take i, RowOk sha256 scheme row := by
  induction i with
  | zero => exact ⟨trivial, fun _ hrow => nomatch hrow⟩
  | succ i ih =>
    obtain ⟨hlinked, hok⟩ := ih fun j hj => h j (Nat.lt_succ_of_lt hj)
    rw [List.take_add_one]
    cases hrow : rows[i]? with
    | none =>
      rw [Option.toList_none, List.append_nil]
      exact ⟨hlinked, hok⟩
    | some row =>
      obtain ⟨hlink, hhash, hsigned⟩ := not_defectAt (h i (Nat.lt_succ_self i)) hrow
      rw [Option.toList_some]
      refine ⟨linked_concat.2 ⟨hlinked, hlink⟩, fun r hr => ?_⟩
      rcases List.mem_append.1 hr with hr | hr
      · exact hok r hr
      · rw [List.mem_singleton.1 hr]
        exact ⟨hhash, hsigned⟩

/-- A row with its link and hash in order: the signature decides. -/
theorem verifyRows_cons {idx : ℕ} {prev : String} {rest : List AuditRow} (hlink : row.previousEntryHash = prev)
    (hhash : HashOk sha256 row) : verifyRows sha256 scheme idx prev (row :: rest) = (do
      if ← checkSignature scheme row then verifyRows sha256 scheme (idx + 1) row.entryHash rest
      else return invalidChain (idx + 1) idx "Invalid signature") := by
  unfold HashOk at hhash
  rw [verifyRows, if_neg (not_not.2 hlink), if_neg (not_not.2 hhash)]

/-- Rows that are in order are passed over. -/
theorem verifyRows_append {good rest : List AuditRow} {idx : ℕ} {prev : String}
    (hlinked : Linked AuditRow.previousEntryHash AuditRow.entryHash prev good)
    (hok : ∀ row ∈ good, RowOk sha256 scheme row) :
    verifyRows sha256 scheme idx prev (good ++ rest) =
      verifyRows sha256 scheme (idx + good.length) (lastHash AuditRow.entryHash prev good) rest := by
  induction good generalizing idx prev with
  | nil => rfl
  | cons row good ih =>
    obtain ⟨hlink, hlinked⟩ := hlinked
    obtain ⟨hhash, hsigned⟩ := hok row (List.mem_cons_self ..)
    rw [List.cons_append, verifyRows_cons hlink hhash, hsigned, lastHash_cons, List.length_cons, ← Nat.add_assoc,
      Nat.add_right_comm]
    exact ih hlinked fun r hr => hok r (List.mem_cons_of_mem _ hr)

/-- **The rows before the first defect do not change the outcome.** -/
theorem verifyRows_first (h : ∀ j < i, ¬ DefectAt sha256 (Signed scheme) rows j) (hrow : rows[i]? = some row) :
    verifyChain sha256 scheme rows =
      verifyRows sha256 scheme i (hashBefore rows i) (row :: rows.drop (i + 1)) := by
  obtain ⟨hlinked, hok⟩ := ordered_take h
  obtain ⟨hi, hget⟩ := List.getElem?_eq_some_iff.1 hrow
  have hsplit : rows = rows.take i ++ row :: rows.drop (i + 1) := by
    rw [← hget, List.getElem_cons_drop, List.take_append_drop]
  have hlength : 0 + (rows.take i).length = i := by
    rw [List.length_take, Nat.zero_add]
    exact Nat.min_eq_left hi.le
  have happend := @verifyRows_append sha256 scheme _ (row :: rows.drop (i + 1)) 0 "" hlinked hok
  rw [← hsplit, hlength] at happend
  exact happend

/-- Without a defect the chain is reported valid. -/
theorem verifyChain_of_no_defect (h : ∀ j, ¬ DefectAt sha256 (Signed scheme) rows j) :
    verifyChain sha256 scheme rows = .ok (validReport rows.length) := by
  obtain ⟨hlinked, hok⟩ := ordered_take (i := rows.length) fun j _ => h j
  rw [List.take_length] at hlinked hok
  have hvalid := (@verifyRows_valid sha256 scheme rows 0 "" (validReport (0 + rows.length))).2 ⟨hlinked, hok, rfl⟩
  rw [Nat.zero_add] at hvalid
  exact hvalid.1

/-- The outcome at the first row that is not in order. -/
theorem verifyRows_defect {idx : ℕ} {prev : String} {rest : List AuditRow}
    (hdefect : row.previousEntryHash ≠ prev ∨ ¬ HashOk sha256 row ∨ ¬ Signed scheme row) :
    (∃ reason, verifyRows sha256 scheme idx prev (row :: rest) = .ok (invalidChain (idx + 1) idx reason)) ∨
    (row.previousEntryHash = prev ∧ HashOk sha256 row ∧ ∃ e, checkSignature scheme row = .error e ∧
      verifyRows sha256 scheme idx prev (row :: rest) = .error e) := by
  by_cases hlink : row.previousEntryHash = prev
  · by_cases hhash : HashOk sha256 row
    · rw [verifyRows_cons hlink hhash]
      cases hsig : checkSignature scheme row with
      | error e => exact .inr ⟨hlink, hhash, e, rfl, rfl⟩
      | ok b =>
        cases b with
        | false => exact .inl ⟨_, rfl⟩
        | true =>
          rcases hdefect with hno | hno | hno
          · exact absurd hlink hno
          · exact absurd hhash hno
          · exact absurd hsig hno
    · unfold HashOk at hhash
      rw [verifyRows, if_neg (not_not.2 hlink), if_pos hhash]
      exact .inl ⟨_, rfl⟩
  · rw [verifyRows, if_pos hlink]
    exact .inl ⟨_, rfl⟩

/-- **When the report is precise**, for any signatures: the check of the first defective row does
not raise. -/
theorem precise_iff (sha256 : String → String) (scheme : SignatureScheme) (rows : List AuditRow) :
    PreciseReport sha256 (Signed scheme) rows (verifyChain sha256 scheme rows) ↔
      ∀ i row, IsLeast {i | DefectAt sha256 (Signed scheme) rows i} i → rows[i]? = some row →
        row.previousEntryHash = hashBefore rows i → HashOk sha256 row → ∃ b, checkSignature scheme row = .ok b := by
  constructor
  · rintro ⟨report, hreport, -, -⟩ i row hleast hrow hlink hhash
    have hbefore : ∀ j < i, ¬ DefectAt sha256 (Signed scheme) rows j := fun j hj hdefect =>
      absurd (hleast.2 hdefect) (not_le.2 hj)
    rw [verifyRows_first hbefore hrow, verifyRows_cons hlink hhash] at hreport
    cases hsig : checkSignature scheme row with
    | error e =>
      rw [hsig] at hreport
      cases hreport
    | ok b => exact ⟨b, rfl⟩
  · intro h
    by_cases hsome : ∃ i, DefectAt sha256 (Signed scheme) rows i
    · classical
      -- the first defect, and what is reported there
      have hleast : IsLeast {i | DefectAt sha256 (Signed scheme) rows i} (Nat.find hsome) :=
        ⟨Nat.find_spec hsome, fun j hj => Nat.find_min' hsome hj⟩
      obtain ⟨row, hrow, hdefect⟩ := Nat.find_spec hsome
      rcases @verifyRows_defect sha256 scheme row _ _ (rows.drop (Nat.find hsome + 1)) hdefect with
        ⟨reason, hreport⟩ | ⟨hlink, hhash, e, herr, -⟩
      · rw [← verifyRows_first (fun j hj => Nat.find_min hsome hj) hrow] at hreport
        refine ⟨_, hreport, ⟨fun _ => hsome, fun _ => rfl⟩, fun i hi => ?_⟩
        rw [hi.unique hleast]
        rfl
      · obtain ⟨b, hb⟩ := h _ row hleast hrow hlink hhash
        rw [herr] at hb
        cases hb
    · have hnone : ∀ j, ¬ DefectAt sha256 (Signed scheme) rows j := fun j hj => hsome ⟨j, hj⟩
      refine ⟨_, verifyChain_of_no_defect hnone, ⟨(nomatch ·), fun hj => absurd hj hsome⟩, ?_⟩
      exact fun i hi => absurd hi.1 (hnone i)

/-! ## Decoded bytes -/

theorem base64Value?_lt {c : Char} {v : ℕ} (h : base64Value? c = some v) : v < 64 := by
  unfold base64Value? at h
  split_ifs at h with hupper hlower hdigit
  · have hle : c.toNat ≤ 90 := by
      have hrange : c.val ≥ 'A'.val ∧ c.val ≤ 'Z'.val := of_decide_eq_true hupper
      exact hrange.2
    have hv := Option.some.inj h
    omega
  · have hle : c.toNat ≤ 122 := by
      have hrange : decide (c.val ≥ 'a'.val) = true ∧ decide (c.val ≤ 'z'.val) = true :=
        Bool.and_eq_true_iff.1 hlower
      exact of_decide_eq_true hrange.2
    have hv := Option.some.inj h
    omega
  · have hle := (digit_range hdigit).2
    have hv := Option.some.inj h
    omega
  · have hv := Option.some.inj h
    omega
  · have hv := Option.some.inj h
    omega

/-- The bits left over at a place in the group of four. -/
def leftLimit : ℕ → ℕ
  | 1 => 64
  | 2 => 16
  | 3 => 4
  | _ => 1

/-- What has been decoded is bytes. -/
theorem a2bBase64_bytes {quadPos leftchar pads : ℕ} {out : List ℕ} {cs : List Char} {raw : List ℕ}
    (hquad : quadPos < 4) (hleft : leftchar < leftLimit quadPos) (hout : ∀ b ∈ out, b < 256)
    (h : a2bBase64 quadPos leftchar pads out cs = .ok raw) : ∀ b ∈ raw, b < 256 := by
  induction cs generalizing quadPos leftchar pads out with
  | nil =>
    unfold a2bBase64 at h
    split_ifs at h
    obtain rfl := Except.ok.inj h
    exact hout
  | cons c cs ih =>
    unfold a2bBase64 at h
    split_ifs at h
    · exact ih hquad hleft hout h
    · obtain rfl := Except.ok.inj h
      exact hout
    · exact ih hquad hleft hout h
    · cases hv : base64Value? c with
      | none =>
        rw [hv] at h
        exact ih hquad hleft hout h
      | some v =>
        rw [hv] at h
        have hlt := base64Value?_lt hv
        have hbyte : ∀ n, n < 256 → ∀ b ∈ out ++ [n], b < 256 := by
          intro n hn b hb
          rcases List.mem_append.1 hb with hb | hb
          · exact hout b hb
          · rwa [List.mem_singleton.1 hb]
        match quadPos, hquad, hleft, h with
        | 0, _, _, h => exact ih (by decide) hlt hout h
        | 1, _, hleft, h =>
          have hleft : leftchar < 64 := hleft
          exact ih (by decide) (Nat.mod_lt _ (by decide)) (hbyte _ (by omega)) h
        | 2, _, hleft, h =>
          have hleft : leftchar < 16 := hleft
          exact ih (by decide) (Nat.mod_lt _ (by decide)) (hbyte _ (by omega)) h
        | 3, _, hleft, h =>
          have hleft : leftchar < 4 := hleft
          exact ih (by decide) (by decide) (hbyte _ (by omega)) h

theorem decodeSignature_bytes {signature keyVersion : String} {raw : List ℕ}
    (h : decodeSignature signature = .ok (raw, keyVersion)) : ∀ b ∈ raw, b < 256 := by
  unfold decodeSignature at h
  cases hm : matchVaultSignature signature with
  | none =>
    rw [hm] at h
    cases h
  | some groups =>
    rw [hm] at h
    cases hb : b64decode groups.2 with
    | error e =>
      simp only [hb] at h
      cases h
    | ok bytes =>
      simp only [hb, Except.ok.injEq, Prod.mk.injEq] at h
      obtain ⟨rfl, -⟩ := h
      unfold b64decode at hb
      split_ifs at hb
      exact a2bBase64_bytes (by decide) (by decide) (by simp) hb

/-! ## The service as a scheme -/

/-- Bytes as a text. -/
def bytesText (raw : List ℕ) : String := String.ofList (raw.map Char.ofNat)

def textBytes (text : String) : List ℕ := text.toList.map Char.toNat

theorem textBytes_bytesText {raw : List ℕ} (h : ∀ b ∈ raw, b < 256) : textBytes (bytesText raw) = raw := by
  unfold textBytes bytesText
  rw [String.toList_ofList, List.map_map]
  refine (List.map_congr_left fun b hb => ?_).trans (List.map_id raw)
  have hvalid : b.isValidChar := .inl (lt_trans (h b hb) (by decide))
  change (Char.ofNat b).toNat = b
  rw [Char.ofNat, dif_pos hvalid]
  rfl

namespace KeyService

variable {svc : KeyService} {cache : PublicKeyCache}

/-- The key of a version, without a cache. -/
def keyScheme (svc : KeyService) : SignatureScheme where
  decodeSignature signature := (decodeSignature signature).map fun p => (bytesText p.1, p.2)
  getPublicKey keyVersion :=
    match svc.keys.get? keyVersion with
    | some publicKey => .ok publicKey
    | none => .error ("Public key version '" ++ keyVersion ++ "' not found for '" ++ svc.keyName ++ "'")
  verify publicKey message raw := svc.verify publicKey message (textBytes raw)

/-- The version a row is checked with. -/
def versionOf (row : AuditRow) (keyVersion : String) : String :=
  if row.keyVersion = "" then keyVersion else row.keyVersion

/-- The signature of the row decodes, and Vault lists the key of its version. -/
def KeyFound (svc : KeyService) (row : AuditRow) : Prop :=
  ∃ raw keyVersion publicKey, decodeSignature row.signature = .ok (raw, keyVersion) ∧
    svc.keys.get? (versionOf row keyVersion) = some publicKey

/-- The signature of the row verifies under the key of its version. -/
def SignatureVerifies (svc : KeyService) (row : AuditRow) : Prop :=
  ∃ raw keyVersion publicKey, decodeSignature row.signature = .ok (raw, keyVersion) ∧
    svc.keys.get? (versionOf row keyVersion) = some publicKey ∧ svc.verify publicKey row.entryHash raw = true

/-- What the cache holds, Vault has listed: versions keep their keys, and there is one at least. -/
def CacheOk (svc : KeyService) (cache : PublicKeyCache) : Prop :=
  ∀ expiresAt versions, cache = some (expiresAt, versions) → versions.items ≠ [] ∧
    ∀ version publicKey, versions.get? version = some publicKey → svc.keys.get? version = some publicKey

/-- A signature that does not decode, a key that is not listed, and the check itself. -/
theorem checkSignature_eq (svc : KeyService) (row : AuditRow) : checkSignature svc.keyScheme row =
    match decodeSignature row.signature with
    | .error e => .error e
    | .ok (raw, keyVersion) =>
      match svc.keyScheme.getPublicKey (versionOf row keyVersion) with
      | .error e => .error e
      | .ok publicKey => .ok (svc.verify publicKey row.entryHash raw) := by
  unfold checkSignature
  cases hdecode : decodeSignature row.signature with
  | error e =>
    have hscheme : svc.keyScheme.decodeSignature row.signature = .error e := by
      simp only [keyScheme, hdecode]
      rfl
    rw [hscheme]
    rfl
  | ok p =>
    obtain ⟨raw, keyVersion⟩ := p
    have hscheme : svc.keyScheme.decodeSignature row.signature = .ok (bytesText raw, keyVersion) := by
      simp only [keyScheme, hdecode]
      rfl
    have hverify : ∀ publicKey, svc.keyScheme.verify publicKey row.entryHash (bytesText raw) =
        svc.verify publicKey row.entryHash raw := by
      intro publicKey
      simp only [keyScheme, textBytes_bytesText (decodeSignature_bytes hdecode)]
    rw [hscheme]
    change (svc.keyScheme.getPublicKey (versionOf row keyVersion) >>= fun publicKey =>
      pure (svc.keyScheme.verify publicKey row.entryHash (bytesText raw))) = _
    cases hkey : svc.keyScheme.getPublicKey (versionOf row keyVersion) with
    | error e => simp only [hkey]; rfl
    | ok publicKey =>
      simp only [hkey, hverify]
      rfl

theorem signed_iff : Signed svc.keyScheme row ↔ svc.SignatureVerifies row := by
  unfold Signed SignatureVerifies
  rw [checkSignature_eq]
  cases decodeSignature row.signature with
  | error e => simp
  | ok p =>
    obtain ⟨raw, keyVersion⟩ := p
    cases hkey : svc.keys.get? (versionOf row keyVersion) with
    | none => simp [keyScheme, hkey]
    | some publicKey => simp [keyScheme, hkey]

theorem checked_iff : (∃ b, checkSignature svc.keyScheme row = .ok b) ↔ svc.KeyFound row := by
  unfold KeyFound
  rw [checkSignature_eq]
  cases decodeSignature row.signature with
  | error e => simp
  | ok p =>
    obtain ⟨raw, keyVersion⟩ := p
    cases hkey : svc.keys.get? (versionOf row keyVersion) with
    | none => simp [keyScheme, hkey]
    | some publicKey => simp [keyScheme, hkey]

/-! ## The cache does not matter -/

/-- A lookup yields keys that Vault lists, and one at least. -/
theorem getVersions_ok (hkeys : svc.keys.items ≠ []) (hcache : svc.CacheOk cache) (now : ℚ) :
    (svc.getVersions now cache).1.items ≠ [] ∧
    (∀ version publicKey, (svc.getVersions now cache).1.get? version = some publicKey →
      svc.keys.get? version = some publicKey) ∧ svc.CacheOk (svc.getVersions now cache).2 := by
  have hread : ∀ expiresAt, svc.CacheOk (some (expiresAt, svc.keys)) := by
    intro expiresAt expiresAt' versions h
    obtain ⟨-, rfl⟩ := Prod.mk.inj (Option.some.inj h)
    exact ⟨hkeys, fun _ _ h => h⟩
  unfold getVersions
  cases cache with
  | none => exact ⟨hkeys, fun _ _ h => h, hread _⟩
  | some entry =>
    obtain ⟨expiresAt, versions⟩ := entry
    obtain ⟨hne, hsub⟩ := hcache expiresAt versions rfl
    by_cases hnow : now < expiresAt
    · simp only [if_pos hnow]
      exact ⟨hne, hsub, hcache⟩
    · simp only [if_neg hnow]
      exact ⟨hkeys, fun _ _ h => h, hread _⟩

/-- **The key of a version does not depend on the cache**: a version it does not hold is read
again. -/
theorem getPublicKey_eq (hkeys : svc.keys.items ≠ []) (hcache : svc.CacheOk cache) (idx : ℕ) (keyVersion : String) :
    (svc.getPublicKey idx keyVersion cache).1 = svc.keyScheme.getPublicKey keyVersion ∧
      svc.CacheOk (svc.getPublicKey idx keyVersion cache).2 := by
  obtain ⟨hne, hsub, hok⟩ := getVersions_ok hkeys hcache (svc.clock idx).1
  obtain ⟨-, -, hok'⟩ := @getVersions_ok svc none hkeys (fun _ _ h => nomatch h) (svc.clock idx).2
  unfold getPublicKey
  simp only [if_neg hne]
  cases hversion : (svc.getVersions (svc.clock idx).1 cache).1.get? keyVersion with
  | some publicKey =>
    refine ⟨?_, hok⟩
    simp only [keyScheme, hsub _ _ hversion]
  | none =>
    have hkeys' : (svc.getVersions (svc.clock idx).2 none).1 = svc.keys := rfl
    simp only [hkeys', keyScheme]
    cases svc.keys.get? keyVersion with
    | some publicKey => exact ⟨rfl, hok'⟩
    | none => exact ⟨rfl, hok'⟩

/-- **The loop with the cache is the loop without it.** By induction on the rows, with the cache
each row leaves. -/
theorem verifyRows_eq (hkeys : svc.keys.items ≠ []) (hcache : svc.CacheOk cache) (idx : ℕ) (prev : String)
    (rows : List AuditRow) :
    (svc.verifyRows sha256 idx prev cache rows).1 = Vellum.verifyRows sha256 svc.keyScheme idx prev rows := by
  induction rows generalizing idx prev cache with
  | nil => rfl
  | cons row rows ih =>
    rw [KeyService.verifyRows, Vellum.verifyRows, checkSignature_eq]
    by_cases hlink : row.previousEntryHash ≠ prev
    · rw [if_pos hlink, if_pos hlink]
    by_cases hhash : hashRecord sha256 row.payload ≠ row.entryHash
    · rw [if_neg hlink, if_neg hlink, if_pos hhash, if_pos hhash]
    rw [if_neg hlink, if_neg hlink, if_neg hhash, if_neg hhash]
    cases decodeSignature row.signature with
    | error e => rfl
    | ok p =>
      obtain ⟨raw, keyVersion⟩ := p
      obtain ⟨hkey, hok⟩ := getPublicKey_eq hkeys hcache idx (versionOf row keyVersion)
      rcases hrun : svc.getPublicKey idx (versionOf row keyVersion) cache with ⟨answer, cache'⟩
      rw [hrun] at hkey hok
      unfold versionOf at hrun
      simp only [hrun, ← hkey]
      cases answer with
      | error e => rfl
      | ok publicKey =>
        simp only
        cases hverify : svc.verify publicKey row.entryHash raw with
        | true => exact ih hok (idx + 1) row.entryHash
        | false => rfl

theorem verifyChain_eq (hkeys : svc.keys.items ≠ []) (hcache : svc.CacheOk cache) (rows : List AuditRow) :
    svc.verifyChain sha256 cache rows = Vellum.verifyChain sha256 svc.keyScheme rows :=
  verifyRows_eq hkeys hcache 0 "" rows

end KeyService

/-- **When `verify_chain` is total and precise**: iff the first defective row, where its link and
hash are right, has a signature that decodes and a key version that Vault lists. -/
theorem verify_chain_precise_iff (sha256 : String → String) (svc : KeyService) (cache : PublicKeyCache)
    (rows : List AuditRow) (hkeys : svc.keys.items ≠ []) (hcache : svc.CacheOk cache) :
    PreciseReport sha256 svc.SignatureVerifies rows (svc.verifyChain sha256 cache rows) ↔
      ∀ i row, IsLeast {i | DefectAt sha256 svc.SignatureVerifies rows i} i → rows[i]? = some row →
        row.previousEntryHash = hashBefore rows i → HashOk sha256 row → svc.KeyFound row := by
  have hsigned : svc.SignatureVerifies = Signed svc.keyScheme := by
    funext row
    exact propext KeyService.signed_iff.symm
  rw [KeyService.verifyChain_eq hkeys hcache, hsigned, precise_iff]
  simp only [KeyService.checked_iff]

/-! ### One row, edited -/

/-- A Vault with one version of the audit key, for which signatures have 64 bytes. -/
def auditKey : KeyService where
  keyName := "vellum-audit"
  keys := ⟨[("1", "key")], by decide⟩
  ttl := 300
  clock := fun _ => (0, 0)
  verify := fun _ _ raw => raw.length = 64

/-- The only row of a log, with another signature and key version. -/
def editedRow (signature keyVersion : String) : AuditRow :=
  { demoRow 0 "" demoTime keyVersion with signature := signature }

theorem editedRow_hashOk (signature keyVersion : String) : HashOk demoSha256 (editedRow signature keyVersion) := by
  unfold HashOk
  rfl

theorem auditKey_cacheOk : auditKey.CacheOk none := fun _ _ h => nomatch h

/-- A signature of thirteen bytes is reported. -/
theorem reports_bad_signature : PreciseReport demoSha256 auditKey.SignatureVerifies
    [editedRow "vault:v1:YmFkLXNpZ25hdHVyZQ==" "1"]
    (auditKey.verifyChain demoSha256 none [editedRow "vault:v1:YmFkLXNpZ25hdHVyZQ==" "1"]) := by
  refine (verify_chain_precise_iff demoSha256 auditKey none _ (by decide) auditKey_cacheOk).2 fun i row _ hrow _ _ => ?_
  rw [List.mem_singleton.1 (List.mem_of_getElem? hrow)]
  exact ⟨"bad-signature".toList.map Char.toNat, "1", "key", by decide +kernel, by decide +kernel⟩

/-- **An edited row makes `verify_chain` raise**: with a signature in another format, and with a
key version that Vault does not list. -/
theorem edited_row_raises :
    auditKey.verifyChain demoSha256 none [editedRow "tampered" "1"] =
      .error "Vault signature must use transit format vault:vN:<base64>" ∧
    auditKey.verifyChain demoSha256 none [editedRow "vault:v1:YmFkLXNpZ25hdHVyZQ==" "7"] =
      .error "Public key version '7' not found for 'vellum-audit'" ∧
    ¬ PreciseReport demoSha256 auditKey.SignatureVerifies [editedRow "tampered" "1"]
      (auditKey.verifyChain demoSha256 none [editedRow "tampered" "1"]) := by
  have hstep : ∀ signature keyVersion, auditKey.verifyChain demoSha256 none [editedRow signature keyVersion] =
      (do
        if ← checkSignature auditKey.keyScheme (editedRow signature keyVersion) then
          verifyRows demoSha256 auditKey.keyScheme 1 (editedRow signature keyVersion).entryHash []
        else return invalidChain 1 0 "Invalid signature") := fun signature keyVersion => by
    rw [KeyService.verifyChain_eq (by decide) auditKey_cacheOk]
    exact verifyRows_cons rfl (editedRow_hashOk signature keyVersion)
  have hformat : checkSignature auditKey.keyScheme (editedRow "tampered" "1") =
      .error "Vault signature must use transit format vault:vN:<base64>" := by decide +kernel
  have hversion : checkSignature auditKey.keyScheme (editedRow "vault:v1:YmFkLXNpZ25hdHVyZQ==" "7") =
      .error "Public key version '7' not found for 'vellum-audit'" := by decide +kernel
  refine ⟨?_, ?_, ?_⟩
  · rw [hstep, hformat]
    rfl
  · rw [hstep, hversion]
    rfl
  · rintro ⟨report, hreport, -⟩
    rw [hstep, hformat] at hreport
    cases hreport

end Vellum
