import Mathlib
import Vellum.Lib.Joined
import Vellum.Spec.Handshake

/-!
# A signed request cannot be read in two ways

The path of a request is decoded and may hold line breaks. The method is read from the left up
to the first line break, the other parts from the right, and so the path is what remains.

* `hexBytes_inj`: the digits of a digest.
* `canonical_inj`: the canonical string determines what is signed.
* `verifySignature_ok`: what a request has been checked for when it passes.
* `signature_not_transferable`: a signature made for one request passes no other.
-/

namespace Vellum

/-! ## The digest -/

theorem digitChar_lt16 : ∀ n < 16, Nat.digitChar n ≠ '\n' ∧ ∀ m < 16, Nat.digitChar n = Nat.digitChar m → n = m := by
  decide

/-- Two digits for a byte. -/
theorem hexByte_inj {u v : UInt8} (h1 : Nat.digitChar (u.toNat / 16) = Nat.digitChar (v.toNat / 16))
    (h2 : Nat.digitChar (u.toNat % 16) = Nat.digitChar (v.toNat % 16)) : u = v := by
  have hu := u.toNat_lt
  have hv := v.toNat_lt
  have hdiv := (digitChar_lt16 (u.toNat / 16) (by omega)).2 (v.toNat / 16) (by omega) h1
  have hmod := (digitChar_lt16 (u.toNat % 16) (by omega)).2 (v.toNat % 16) (by omega) h2
  apply UInt8.toNat_inj.1
  omega

theorem hexBytes_inj {b b' : ByteArray} (h : hexBytes b = hexBytes b') : b = b' := by
  have hlist : ∀ l l' : List UInt8, (l.flatMap fun u => [Nat.digitChar (u.toNat / 16), Nat.digitChar (u.toNat % 16)]) =
      (l'.flatMap fun u => [Nat.digitChar (u.toNat / 16), Nat.digitChar (u.toNat % 16)]) → l = l' := by
    intro l
    induction l with
    | nil =>
      intro l' h
      cases l' with
      | nil => rfl
      | cons v l' => simp at h
    | cons u l ih =>
      intro l' h
      cases l' with
      | nil => simp at h
      | cons v l' =>
        simp only [List.flatMap_cons, List.cons_append, List.nil_append, List.cons.injEq] at h
        obtain ⟨h1, h2, htail⟩ := h
        rw [hexByte_inj h1 h2, ih l' htail]
  apply ByteArray.ext
  exact Array.toList_inj.1 (hlist _ _ h)

theorem newline_notMem_hexBytes (b : ByteArray) : '\n' ∉ hexBytes b := by
  intro h
  obtain ⟨u, -, hu⟩ := List.mem_flatMap.1 h
  have hlt := u.toNat_lt
  have hdiv := (digitChar_lt16 (u.toNat / 16) (by omega)).1
  have hmod := (digitChar_lt16 (u.toNat % 16) (by omega)).1
  simp only [List.mem_cons, List.not_mem_nil, or_false] at hu
  rcases hu with hu | hu
  · exact hdiv hu.symm
  · exact hmod hu.symm

/-! ## The canonical string -/

variable {sha256 : ByteArray → ByteArray}

/-- The five parts, with a line break behind each but the last. -/
theorem canonical_toList (r : SignedRequest) : (buildCanonicalRequestString sha256 r).toList =
    r.method.toList ++ '\n' :: (((r.path.toList ++ '\n' :: r.timestamp.toList) ++ '\n' :: r.nonce.toList) ++
      '\n' :: hexBytes (sha256 r.rawBody)) := by
  unfold buildCanonicalRequestString hexdigest
  simp [String.toList_append]

/-- **The canonical string determines what is signed.** -/
theorem canonical_inj (hsha : Function.Injective sha256) {r r' : SignedRequest} (hr : r.OneLine) (hr' : r'.OneLine)
    (h : buildCanonicalRequestString sha256 r = buildCanonicalRequestString sha256 r') : r = r' := by
  have hlist := congrArg String.toList h
  rw [canonical_toList, canonical_toList] at hlist
  -- the method from the left, the rest from the right
  obtain ⟨hmethod, hrest⟩ := split_first hlist hr.method hr'.method
  obtain ⟨hrest, hdigest⟩ := split_last hrest (newline_notMem_hexBytes _) (newline_notMem_hexBytes _)
  obtain ⟨hrest, hnonce⟩ := split_last hrest hr.nonce hr'.nonce
  obtain ⟨hpath, htimestamp⟩ := split_last hrest hr.timestamp hr'.timestamp
  have hbody := hsha (hexBytes_inj hdigest)
  cases r
  cases r'
  simp only [String.toList_inj] at hmethod hpath htimestamp hnonce
  subst hmethod hpath htimestamp hnonce hbody
  rfl

/-! ## The handshake -/

/-- **What a request has been checked for** when it passes: the signature that its header holds
verifies for its canonical string. -/
theorem verifySignature_ok {A : HandshakeService} {r : BankRequest} {answer : String × ℚ}
    (h : verifySignature A r = .ok answer) : ∃ publicKeyPem raw version,
      decodeSignature (r.signature.getD "") = .ok (raw, version) ∧
      A.verify publicKeyPem (buildCanonicalRequestString A.sha256 r.signed).toUTF8 raw = true := by
  unfold verifySignature at h
  split at h
  · cases h
  rcases hts : A.parseTimestamp (r.timestamp.getD "") with e | t
  · rw [hts] at h
    cases h
  rw [hts] at h
  dsimp only [bind, Except.bind, pure, Except.pure] at h
  rcases hkey : A.bankKeyMapping.get? (r.keyId.getD "") with _ | bankVaultKey
  · rw [hkey] at h
    cases h
  rw [hkey] at h
  rcases hdec : decodeSignature (r.signature.getD "") with e | ⟨raw, version⟩
  · rw [hdec] at h
    cases h
  rw [hdec] at h
  dsimp only [Except.mapError] at h
  rcases hpem : A.publicKey bankVaultKey version with e | publicKeyPem
  · rw [hpem] at h
    cases h
  rw [hpem] at h
  dsimp only at h
  split at h
  · next hverify => exact ⟨publicKeyPem, raw, version, rfl, hverify⟩
  · cases h

/-- A signature that is made for one text verifies for no other. -/
def Unforgeable (verify : String → ByteArray → List ℕ → Bool) (sign : String → ByteArray → List ℕ) : Prop :=
  ∀ key text key' text', verify key text (sign key' text') = true → text = text'

/-- **A signature made for one request passes no other.** -/
theorem signature_not_transferable {A : HandshakeService} (hsha : Function.Injective A.sha256)
    {sign : String → ByteArray → List ℕ} (hsign : Unforgeable A.verify sign) {r : SignedRequest} {r' : BankRequest}
    (hr : r.OneLine) (hr' : r'.signed.OneLine) {key header version : String} (hheader : r'.signature = some header)
    (hsigned : decodeSignature header = .ok (sign key (buildCanonicalRequestString A.sha256 r).toUTF8, version))
    (hpass : (verifySignature A r').isOk = true) : r'.signed = r := by
  rcases hanswer : verifySignature A r' with e | answer
  · rw [hanswer] at hpass
    cases hpass
  obtain ⟨publicKeyPem, raw, version', hdec, hverify⟩ := verifySignature_ok hanswer
  rw [hheader, Option.getD_some, hsigned] at hdec
  obtain ⟨rfl, -⟩ := Prod.mk.inj (Except.ok.inj hdec)
  have htext := hsign _ _ _ _ hverify
  have hstring : buildCanonicalRequestString A.sha256 r'.signed = buildCanonicalRequestString A.sha256 r :=
    String.toByteArray_inj.1 htext
  exact canonical_inj hsha hr' hr hstring

/-- **The signed request string cannot be re-split**, and so no signature of a bank on one request
passes for another. -/
theorem canonical_request_separates (sha256 : ByteArray → ByteArray) (hsha : Function.Injective sha256) :
    (∀ r r' : SignedRequest, r.OneLine → r'.OneLine →
      buildCanonicalRequestString sha256 r = buildCanonicalRequestString sha256 r' → r = r') ∧
    ∀ (A : HandshakeService) (sign : String → ByteArray → List ℕ), A.sha256 = sha256 → Unforgeable A.verify sign →
      ∀ (r : SignedRequest) (r' : BankRequest) (key header version : String), r.OneLine → r'.signed.OneLine →
        r'.signature = some header →
        decodeSignature header = .ok (sign key (buildCanonicalRequestString sha256 r).toUTF8, version) →
        (verifySignature A r').isOk = true → r'.signed = r := by
  refine ⟨fun r r' hr hr' h => canonical_inj hsha hr hr' h, ?_⟩
  intro A sign hA hsign r r' key header version hr hr' hheader hsigned hpass
  subst hA
  exact signature_not_transferable hsha hsign hr hr' hheader hsigned hpass

/-! ## One request -/

/-- The SHA-256 digest of the empty body, and the bytes themselves behind a zero for any other. -/
def emptyBodySha256 (raw : ByteArray) : ByteArray :=
  if raw.data.toList = [] then
    ⟨#[227, 176, 196, 66, 152, 252, 28, 20, 154, 251, 244, 200, 153, 111, 185, 36, 39, 174, 65, 228, 100, 155, 147, 76,
      164, 149, 153, 27, 120, 82, 184, 85]⟩
  else ⟨(0 :: raw.data.toList).toArray⟩

theorem emptyBodySha256_injective : Function.Injective emptyBodySha256 := by
  intro raw raw' h
  have hlist := congrArg (fun b : ByteArray => b.data.toList) h
  unfold emptyBodySha256 at hlist
  have hdata : raw.data.toList = raw'.data.toList := by
    split_ifs at hlist with h1 h2 h2
    · rw [h1, h2]
    · simp at hlist
    · simp at hlist
    · simpa using hlist
  exact ByteArray.ext (Array.toList_inj.1 hdata)

def demoSigned : SignedRequest := ⟨"POST", "/v6/proofs/batch\n1700000000", "1700000000", "nonce-1", ⟨#[]⟩⟩

/-- A signature of one byte for the request, a longer one for any other text. -/
def demoSign (key : String) (text : ByteArray) : List ℕ :=
  if text = (buildCanonicalRequestString emptyBodySha256 demoSigned).toUTF8 then [1]
  else 0 :: text.data.toList.map UInt8.toNat ++ [key.length]

def demoHandshake : HandshakeService where
  sha256 := emptyBodySha256
  parseTimestamp _ := .ok 1700000000
  bankKeyMapping := ⟨[("bank-key-1", "bank-key")], by decide⟩
  publicKey _ _ := .ok "pem"
  verify key text raw := raw = demoSign key text

theorem demoSign_unforgeable : Unforgeable demoHandshake.verify demoSign := by
  intro key text key' text' h
  have heq : demoSign key' text' = demoSign key text := of_decide_eq_true h
  unfold demoSign at heq
  split_ifs at heq with h1 h2 h2
  · rw [h1, h2]
  · simp at heq
  · simp at heq
  · have hlist : text.data.toList = text'.data.toList := by
      simp only [List.cons_append, List.cons.injEq, true_and] at heq
      have hmap := (List.append_inj' heq rfl).1
      exact (List.map_injective_iff.2 (fun a b hab => UInt8.toNat_inj.1 hab) hmap).symm
    exact ByteArray.ext (Array.toList_inj.1 hlist)

def demoBankRequest : BankRequest :=
  ⟨demoSigned.method, demoSigned.path, some "bank-key-1", some demoSigned.timestamp, some demoSigned.nonce,
    some "vault:v1:AQ==", demoSigned.rawBody⟩

theorem demoSigned_oneLine : demoSigned.OneLine := ⟨by decide, by decide, by decide⟩

/-- A request whose path holds a line break passes with its own signature, and that signature was
made for it. -/
theorem canonical_request_separates_demo :
    (verifySignature demoHandshake demoBankRequest).isOk = true ∧ demoBankRequest.signed = demoSigned := by
  have hpass : (verifySignature demoHandshake demoBankRequest).isOk = true := by
    decide +kernel
  have hdec : decodeSignature "vault:v1:AQ==" =
      .ok (demoSign "" (buildCanonicalRequestString emptyBodySha256 demoSigned).toUTF8, "1") := by
    unfold demoSign
    rw [if_pos rfl]
    rfl
  exact ⟨hpass, (canonical_request_separates emptyBodySha256 emptyBodySha256_injective).2 demoHandshake demoSign rfl
    demoSign_unforgeable demoSigned demoBankRequest "" "vault:v1:AQ==" "1" demoSigned_oneLine demoSigned_oneLine rfl
    hdec hpass⟩

end Vellum
