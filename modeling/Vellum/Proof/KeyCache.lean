import Vellum.Spec.NativeProver

/-!
# The key cache of the native prover

A key is loaded once for its path and never again. A request is answered as without the cache
while the file at its path still builds the key that was loaded from it; after another key has
taken its place, what the old key accepts is still accepted.

* `verifyProof_eq_uncached`: a request that finds the key of the file, or none, in the cache.
* `verifyProof_stale`: what the cached key accepts is accepted, whatever the file holds now.
* `responses_eq_uncached`: the sequences of writes and requests that are answered as without it.
-/

namespace Vellum

namespace NativeProver

variable {Fq Fr Prepared : Type} {B : Backend Fq Fr Prepared} {s : ServiceState Prepared}
  {req : VerifyProofRequest} {events : List Event} {files : String → Option String}

/-! ## One request -/

/-- A request whose texts are JSON: only such a request looks into the cache. -/
def Reads (B : Backend Fq Fr Prepared) (req : VerifyProofRequest) : Prop :=
  ServiceState.checkRequest B req = .ok ()

instance (req : VerifyProofRequest) : Decidable (Reads B req) :=
  match h : ServiceState.checkRequest B req with
  | .ok () => .isTrue h
  | .error _ => .isFalse fun h' => nomatch h.symm.trans h'

/-- The answer of a service that keeps no key. -/
def uncachedAnswer (B : Backend Fq Fr Prepared) (files : String → Option String) (req : VerifyProofRequest) :
    Except Status Bool :=
  (ServiceState.verifyProof B ⟨files, fun _ => none⟩ req).1

theorem verifyProof_rejected (h : ¬ Reads B req) :
    (s.verifyProof B req).1 = uncachedAnswer B s.files req ∧ (s.verifyProof B req).2 = s := by
  unfold uncachedAnswer ServiceState.verifyProof
  cases hcheck : ServiceState.checkRequest B req with
  | error err => exact ⟨rfl, rfl⟩
  | ok u => exact absurd hcheck h

/-- **What a request does with the cache**: it finds a key, it finds none and no key can be loaded,
or it loads the key of the file. -/
theorem getOrLoad_cases (B : Backend Fq Fr Prepared) (s : ServiceState Prepared) (path : String) :
    (∃ key, s.cache path = some key ∧ s.getOrLoadVerificationKey B path = (.ok key, s)) ∨
    (∃ err, s.cache path = none ∧ B.loadVerificationKey (s.files path) = .error err ∧
      s.getOrLoadVerificationKey B path = (.error err, s)) ∨
    (∃ key, s.cache path = none ∧ B.loadVerificationKey (s.files path) = .ok key ∧
      s.getOrLoadVerificationKey B path =
        (.ok key, { s with cache := Function.update s.cache path (some key) })) := by
  unfold ServiceState.getOrLoadVerificationKey
  cases hcache : s.cache path with
  | some key => exact .inl ⟨key, rfl, rfl⟩
  | none =>
    cases hload : B.loadVerificationKey (s.files path) with
    | error err => exact .inr (.inl ⟨err, rfl, rfl, rfl⟩)
    | ok key => exact .inr (.inr ⟨key, rfl, rfl, rfl⟩)

/-- The answer depends on the files and the key at hand only. -/
theorem answer_congr {s s' : ServiceState Prepared} (h : s.files = s'.files)
    (key : Except Status (CachedVerificationKey Prepared)) : s.answer B req key = s'.answer B req key := by
  unfold ServiceState.answer
  rw [h]

theorem verifyProof_eq (h : Reads B req) : s.verifyProof B req =
    ((s.getOrLoadVerificationKey B req.verificationKeyPath).2.answer B req
        (s.getOrLoadVerificationKey B req.verificationKeyPath).1,
      (s.getOrLoadVerificationKey B req.verificationKeyPath).2) := by
  unfold ServiceState.verifyProof
  rw [show ServiceState.checkRequest B req = .ok () from h]

/-- Without a cache the key is that of the file. -/
theorem uncachedAnswer_eq (h : Reads B req) : uncachedAnswer B s.files req =
    s.answer B req (B.loadVerificationKey (s.files req.verificationKeyPath)) := by
  unfold uncachedAnswer
  rw [verifyProof_eq h]
  obtain ⟨key, hcache, -⟩ | ⟨err, -, hload, heq⟩ | ⟨key, -, hload, heq⟩ :=
    getOrLoad_cases B ⟨s.files, fun _ => none⟩ req.verificationKeyPath
  · cases hcache
  · rw [heq, show B.loadVerificationKey (s.files req.verificationKeyPath) = .error err from hload]
    exact answer_congr rfl (.error err)
  · rw [heq, show B.loadVerificationKey (s.files req.verificationKeyPath) = .ok key from hload]
    exact answer_congr rfl (.ok key)

/-- **A request is answered as without the cache** if the key cached for its path, if any, is the
key its file builds. -/
theorem verifyProof_eq_uncached (h : Reads B req)
    (hfile : ∀ key, s.cache req.verificationKeyPath = some key →
      B.loadVerificationKey (s.files req.verificationKeyPath) = .ok key) :
    (s.verifyProof B req).1 = uncachedAnswer B s.files req := by
  rw [verifyProof_eq h, uncachedAnswer_eq h]
  obtain ⟨key, hcache, heq⟩ | ⟨err, -, hload, heq⟩ | ⟨key, -, hload, heq⟩ :=
    getOrLoad_cases B s req.verificationKeyPath
  · rw [heq, hfile key hcache]
  · rw [heq, hload]
  · rw [heq, hload]
    exact answer_congr rfl _

/-- **A stale key still decides**: what the cached key accepts is accepted, whatever the file
holds. -/
theorem verifyProof_stale (h : Reads B req) {key : CachedVerificationKey Prepared}
    (hcache : s.cache req.verificationKeyPath = some key)
    (hvalid : B.verifyNativeProof key req.proofJson req.publicSignalsJson = .ok true) :
    (s.verifyProof B req).1 = .ok true := by
  have heq : s.getOrLoadVerificationKey B req.verificationKeyPath = (.ok key, s) := by
    unfold ServiceState.getOrLoadVerificationKey
    rw [hcache]
  rw [verifyProof_eq h, heq]
  unfold ServiceState.answer
  simp [Except.bind, hvalid]

/-- What the cache holds after a request: what it held, and the key of the request's file. -/
theorem cache_verifyProof (h : Reads B req) {path : String} {key : CachedVerificationKey Prepared}
    (hkey : (s.verifyProof B req).2.cache path = some key) :
    s.cache path = some key ∨
      path = req.verificationKeyPath ∧ B.loadVerificationKey (s.files path) = .ok key := by
  rw [verifyProof_eq h] at hkey
  obtain ⟨_, -, heq⟩ | ⟨err, -, -, heq⟩ | ⟨key', -, hload, heq⟩ :=
    getOrLoad_cases B s req.verificationKeyPath
  · rw [heq] at hkey
    exact .inl hkey
  · rw [heq] at hkey
    exact .inl hkey
  · rw [heq] at hkey
    by_cases hpath : path = req.verificationKeyPath
    · subst hpath
      have hkey' : some key' = some key := by simpa [Function.update_self] using hkey
      exact .inr ⟨rfl, hload.trans (congrArg Except.ok (Option.some.inj hkey'))⟩
    · exact .inl (by simpa [Function.update_of_ne hpath] using hkey)

theorem files_verifyProof (B : Backend Fq Fr Prepared) (s : ServiceState Prepared) (req : VerifyProofRequest) :
    (s.verifyProof B req).2.files = s.files := by
  by_cases h : Reads B req
  · rw [verifyProof_eq h]
    obtain ⟨_, -, heq⟩ | ⟨_, -, -, heq⟩ | ⟨_, -, -, heq⟩ := getOrLoad_cases B s req.verificationKeyPath
    · rw [heq]
    · rw [heq]
    · rw [heq]
  · rw [(verifyProof_rejected h).2]

/-! ## A sequence of writes and requests -/

/-- The paths the requests of a sequence look up, each with what the path holds then. -/
def lookups (B : Backend Fq Fr Prepared) :
    (String → Option String) → List Event → List (String × Option String)
  | _, [] => []
  | files, .write path content :: events => lookups B (Function.update files path content) events
  | files, .verify req :: events =>
    if Reads B req then (req.verificationKeyPath, files req.verificationKeyPath) :: lookups B files events
    else lookups B files events

/-- A path that built a key at one request builds the same key at every later request. -/
def KeysKept (B : Backend Fq Fr Prepared) (files : String → Option String) (events : List Event) : Prop :=
  (lookups B files events).Pairwise fun a b =>
    a.1 = b.1 → ∀ key, B.loadVerificationKey a.2 = .ok key → B.loadVerificationKey b.2 = .ok key

/-- The cached keys are those the files build whenever they are looked up. -/
def CacheFresh (B : Backend Fq Fr Prepared) (s : ServiceState Prepared) (events : List Event) : Prop :=
  ∀ path key, s.cache path = some key →
    ∀ l ∈ lookups B s.files events, l.1 = path → B.loadVerificationKey l.2 = .ok key

/-- **The sequence is answered as without the cache**, from a cache that is fresh for it. By
induction on the events: a request that loads a key keeps the cache fresh, since later requests of
its path find the same key in the file. -/
theorem responses_of_fresh (hfresh : CacheFresh B s events) (hkept : KeysKept B s.files events) :
    responses B s events = uncachedResponses B s.files events := by
  induction events generalizing s with
  | nil => rfl
  | cons e events ih =>
    cases e with
    | write path content => exact ih hfresh hkept
    | verify req =>
      have hfiles := files_verifyProof B s req
      change _ :: _ = _ :: _
      by_cases hreads : Reads B req
      · have hlook : lookups B s.files (.verify req :: events) =
            (req.verificationKeyPath, s.files req.verificationKeyPath) :: lookups B s.files events :=
          if_pos hreads
        rw [KeysKept, hlook, List.pairwise_cons] at hkept
        rw [CacheFresh, hlook] at hfresh
        have hhead := verifyProof_eq_uncached hreads
          (fun key hkey => hfresh _ key hkey _ (List.mem_cons_self ..) rfl)
        have hrest := @ih (s.verifyProof B req).2
          (by
            intro path key hkey l hl hpath
            rw [hfiles] at hl
            rcases cache_verifyProof hreads hkey with hold | ⟨rfl, hload⟩
            · exact hfresh path key hold l (List.mem_cons_of_mem _ hl) hpath
            · exact hkept.1 l hl hpath.symm key hload)
          (by rw [KeysKept, hfiles]; exact hkept.2)
        rw [hfiles] at hrest
        rw [hhead, hrest]
        rfl
      · have hlook : lookups B s.files (.verify req :: events) = lookups B s.files events := if_neg hreads
        obtain ⟨hhead, hstate⟩ := verifyProof_rejected (s := s) hreads
        rw [KeysKept, hlook] at hkept
        rw [CacheFresh, hlook] at hfresh
        rw [hhead, hstate, ih hfresh hkept]
        rfl

/-- **When the cache cannot be seen**: a service that starts with an empty cache answers a sequence
of writes and requests as a service without a cache does, if no path is looked up under two
different keys. -/
theorem responses_eq_uncached (B : Backend Fq Fr Prepared) (files : String → Option String)
    (events : List Event) (hkept : KeysKept B files events) :
    responses B ⟨files, fun _ => none⟩ events = uncachedResponses B files events :=
  @responses_of_fresh Fq Fr Prepared B ⟨files, fun _ => none⟩ events (fun _ _ h => by cases h) hkept

/-! ### A key that is replaced

The generators of the two groups make a key without public inputs. With `alpha` and `beta` as the
first two points of the proof and `gamma = delta`, a proof is valid iff its third point is the
negative of `IC[0]`. -/

/-- The generator of `G2`, as `snarkjs` writes it. -/
def g2Generator : List (List String) :=
  [["10857046999023057135944570762232829481370756359578518086990519993285655852781",
      "11559732032986387107991004021392285783925812861821192530917403151452391805634"],
    ["8495653923123431417604973247489272438418190587263600148770280649306958101930",
      "4082367875863433681332203403145435568316851327593401208105741076214120093531"],
    ["1", "0"]]

/-- The second coordinate of the negative of the generator `(1, 2)` of `G1`. -/
def negTwo : String := "21888242871839275222246405745257275088696311157297823662689037894645226208581"

def g1Value (y : String) : Value := .array [.string "1", .string y, .string "1"]

def g2Value : Value := .array (g2Generator.map fun c => .array (c.map .string))

/-- The key with `(1, y)` for `IC[0]`. -/
def keyValue (y : String) : Value :=
  .object [("IC", .array [g1Value y]), ("protocol", .string "groth16"), ("curve", .string "bn128"),
    ("nPublic", .number "0"), ("vk_alpha_1", g1Value "2"), ("vk_beta_2", g2Value),
    ("vk_gamma_2", g2Value), ("vk_delta_2", g2Value)]

/-- The proof with `(1, y)` for its third point. -/
def proofValue (y : String) : Value :=
  .object [("pi_a", g1Value "2"), ("pi_b", g2Value), ("pi_c", g1Value y), ("protocol", .string "groth16"),
    ("curve", .string "bn128")]

def g1Text (y : String) : String := "[\"1\",\"" ++ y ++ "\",\"1\"]"

def g2Text : String :=
  "[" ++ String.intercalate "," (g2Generator.map fun c => "[\"" ++ String.intercalate "\",\"" c ++ "\"]") ++ "]"

def keyText (y : String) : String :=
  "\x7b\"IC\":[" ++ g1Text y ++ "],\"protocol\":\"groth16\",\"curve\":\"bn128\",\"nPublic\":0,\"vk_alpha_1\":" ++
    g1Text "2" ++ ",\"vk_beta_2\":" ++ g2Text ++ ",\"vk_gamma_2\":" ++ g2Text ++ ",\"vk_delta_2\":" ++ g2Text ++ "\x7d"

def proofText (y : String) : String :=
  "\x7b\"pi_a\":" ++ g1Text "2" ++ ",\"pi_b\":" ++ g2Text ++ ",\"pi_c\":" ++ g1Text y ++
    ",\"protocol\":\"groth16\",\"curve\":\"bn128\"\x7d"

/-- `serde_json::from_str` on these texts. -/
def generatorFromStr (text : String) : Except String Value :=
  if text = keyText "2" then .ok (keyValue "2")
  else if text = keyText negTwo then .ok (keyValue negTwo)
  else if text = proofText negTwo then .ok (proofValue negTwo)
  else if text = "[]" then .ok (.array [])
  else .error "expected value at line 1 column 1"

/-- The backend on these texts. A field element is its decimal text, and two points with the same
first coordinate are negatives of each other iff their second ones differ. -/
def generatorBackend : Backend String String (VerifyingKey String) where
  fromStr := generatorFromStr
  fqFromStr text := some text
  frFromStr text := some text
  prepareVerifyingKey vk := some vk
  verifyProof vk proof inputs :=
    match vk.gammaAbcG1, inputs with
    | [ic], [] =>
      some (proof.a = vk.alphaG1 ∧ proof.b = vk.betaG2 ∧ vk.gammaG2 = vk.deltaG2 ∧
        proof.c.x = ic.x ∧ proof.c.y ≠ ic.y)
    | _, _ => none
  readError := "No such file or directory (os error 2)"
  snarkjsVerify file proofJson _ :=
    if file = some (keyText "2") ∧ proofJson = proofText negTwo then .ok ⟨true, ""⟩
    else .ok ⟨false, "[ERROR] snarkJS: Invalid proof"⟩

/-- The request with the proof that is valid under `IC[0] = (1, 2)`. -/
def generatorRequest : VerifyProofRequest where
  proofJson := proofText negTwo
  publicSignalsJson := "[]"
  verificationKeyPath := "/shared_assets/batch_credit_check/verification_key.json"

/-- A key is stored, a proof of it is verified, a key is stored in its place and the proof is
verified again. -/
def storeTwice (y y' : String) : List Event :=
  [.write generatorRequest.verificationKeyPath (some (keyText y)), .verify generatorRequest,
    .write generatorRequest.verificationKeyPath (some (keyText y')), .verify generatorRequest]

/-- The proof of the first key is accepted under the second, which a service without a cache
does not do. -/
theorem replaced_key_still_accepts :
    responses generatorBackend ⟨fun _ => none, fun _ => none⟩ (storeTwice "2" negTwo) = [.ok true, .ok true] ∧
    uncachedResponses generatorBackend (fun _ => none) (storeTwice "2" negTwo) = [.ok true, .ok false] := by
  constructor
  · decide +kernel
  · decide +kernel

theorem reads_generatorRequest : Reads generatorBackend generatorRequest := by
  unfold Reads
  decide +kernel

/-- The key is stored once more: nothing changes. -/
theorem responses_same_key :
    KeysKept generatorBackend (fun _ => none) (storeTwice "2" "2") ∧
    responses generatorBackend ⟨fun _ => none, fun _ => none⟩ (storeTwice "2" "2") =
      uncachedResponses generatorBackend (fun _ => none) (storeTwice "2" "2") := by
  have hkept : KeysKept generatorBackend (fun _ => none) (storeTwice "2" "2") := by
    have hlook : lookups generatorBackend (fun _ => none) (storeTwice "2" "2") =
        [(generatorRequest.verificationKeyPath, some (keyText "2")),
          (generatorRequest.verificationKeyPath, some (keyText "2"))] := by
      simp [lookups, storeTwice, reads_generatorRequest]
    rw [KeysKept, hlook]
    simp
  exact ⟨hkept, responses_eq_uncached _ _ _ hkept⟩

end NativeProver

end Vellum
