import Vellum.Proof.Outputs
import Vellum.Proof.RunCalls

/-!
# The recorded parameters of a policy run

A run hashes and seals the map of its parameter reference, if there is one. The policy decides
with that map, filled up with its defaults, or, without a reference, with the parameters of
the evidence or with its defaults alone. So the recorded parameters are those that decided
exactly when the reference names the declared parameters, all of them and no others.

* `used_perm`: the policy uses the map of a reference that names what is declared.
* `run_parameters_iff`: exactly when the recorded parameters are the ones used.
* `run_parameters_unrecorded`: parameters from the evidence decide, and none are recorded.
-/

namespace Vellum

open Prog

variable {policy : GeneratedReferencePolicy} {evidence : Json} {n : NormalizedEvidence} {ps : List (String × ℤ)}

/-! ## What is recorded -/

/-- A recorded hash stands for the parameters a policy used; it is absent only if the policy
has none. -/
def HashStandsFor (sha256 : String → String) (policy : GeneratedReferencePolicy) (used : List (String × ℤ))
    (hash : Json) :
    Prop :=
  hash = .str (computePolicyParamsHash sha256 used) ∨ (hash = .null ∧ policy.parameters.keys = [])

/-- So do sealed parameters; the order of the entries does not matter. -/
def MapStandsFor (policy : GeneratedReferencePolicy) (used : List (String × ℤ)) (sealedMap : Json) : Prop :=
  (∃ entries : List (String × ℤ), sealedMap = parametersJson entries ∧ entries.Perm used) ∨
    (sealedMap = .null ∧ policy.parameters.keys = [])

/-- The reference names the declared parameters, each once. -/
def NamesDeclared (policy : GeneratedReferencePolicy) (ps : List (String × ℤ)) : Prop :=
  (ps.map Prod.fst).Perm policy.parameters.keys

theorem namesDeclared_nil : NamesDeclared policy [] ↔ policy.parameters.keys = [] := by
  unfold NamesDeclared
  exact List.nil_perm

/-! ## What is used -/

/-- Only objects are evidence. -/
theorem normalize_obj (h : policy.normalize evidence = .ok n) : ∃ fields, evidence = .obj fields := by
  cases evidence with
  | obj fields => exact ⟨fields, rfl⟩
  | _ =>
    -- without fields there are no balances
    simp only [GeneratedReferencePolicy.normalize, Json.get?, bind_ok] at h
    obtain ⟨_, -, bs, hbs, -⟩ := h
    cases hbs

theorem get?_setField (fields : List (String × Json)) (key : String) (value : Json) :
    (setField (.obj fields) key value).get? key = some value := by
  unfold setField
  dsimp only
  split_ifs with h
  · exact Dict.lookup_map_set_self h
  · show (fields ++ [(key, value)]).lookup key = some value
    rw [List.lookup_append, Dict.lookup_eq_none.2 h]
    simp

theorem lookup_parameters (ps : List (String × ℤ)) (name : String) :
    (parametersJson ps).get? name = (ps.lookup name).map Json.int := by
  show (ps.map fun p => (p.1, Json.int p.2)).lookup name = _
  induction ps with
  | nil => rfl
  | cons p rest ih =>
    rw [List.map_cons, List.lookup_cons, List.lookup_cons]
    cases name == p.1 with
    | true => rfl
    | false => exact ih

/-- **The map of the reference is the one used**, if it names what is declared. -/
theorem used_perm (hn : policy.normalize (effectivePayload evidence ps) = .ok n) (hps : ps ≠ [])
    (hnames : NamesDeclared policy ps) : ps.Perm n.policyParameters := by
  have heffective : effectivePayload evidence ps = setField evidence "policy_parameters" (parametersJson ps) := by
    unfold effectivePayload
    rw [if_pos hps]
  rw [heffective] at hn
  obtain ⟨fields, rfl⟩ : ∃ fields, evidence = .obj fields := by
    obtain ⟨fields', hobj⟩ := normalize_obj hn
    cases evidence with
    | obj fields => exact ⟨fields, rfl⟩
    | _ => cases hobj
  have hused := resolvePolicyParameters_value (GeneratedReferencePolicy.normalize_prepared hn).2
  rw [get?_setField] at hused
  have hnodup : (ps.map Prod.fst).Nodup := hnames.nodup_iff.2 policy.parameters.nodup
  let map : Dict ℤ := ⟨ps, hnodup⟩
  -- a declared name has its value in the reference
  have hvalue : ∀ p ∈ ps, parameterValue policy.parameters (some (parametersJson ps)) p.1 = p.2 := by
    intro p hp
    have hlookup : ps.lookup p.1 = some p.2 := Dict.get?_of_mem (d := map) hp
    unfold parameterValue
    rw [Option.bind_some, lookup_parameters, hlookup]
    rfl
  refine (List.perm_ext_iff_of_nodup (List.Nodup.of_map _ hnodup) (List.Nodup.of_map _ (normalized_nodup hn))).2 ?_
  intro p
  rw [hused, List.mem_map]
  constructor
  · intro hp
    exact ⟨p.1, hnames.mem_iff.1 (List.mem_map_of_mem hp), by rw [hvalue p hp]⟩
  · rintro ⟨name, hname, rfl⟩
    obtain ⟨q, hq, rfl⟩ := List.mem_map.1 (hnames.mem_iff.2 hname)
    rw [hvalue q hq]
    exact hq

/-- What is used has the declared names. -/
theorem namesDeclared_of_perm {evidence' : Json} (hn : policy.normalize evidence' = .ok n)
    (h : ps.Perm n.policyParameters) :
    NamesDeclared policy ps := by
  unfold NamesDeclared
  rw [← normalized_keys hn]
  exact h.map _

/-! ## Both pipelines -/

variable {sha256 : String → String}

/-- **The hash stands for what is used**, under the condition. -/
theorem hash_of_names (hn : policy.normalize (effectivePayload evidence ps) = .ok n)
    (hnames : NamesDeclared policy ps) :
    HashStandsFor sha256 policy n.policyParameters
      (if ps ≠ [] then .str (computePolicyParamsHash sha256 ps) else .null) := by
  by_cases hps : ps = []
  · subst hps
    exact .inr ⟨rfl, namesDeclared_nil.1 hnames⟩
  · rw [if_pos hps]
    left
    have hperm := used_perm hn hps hnames
    unfold computePolicyParamsHash
    rw [(parameters_canonical (normalized_nodup hn)).2 hperm.symm]

/-- And only then, if the two texts that are hashed do not collide. -/
theorem names_of_hash (hn : policy.normalize (effectivePayload evidence ps) = .ok n)
    (hsha : Set.InjOn sha256 {(parametersJson ps).canonical, (parametersJson n.policyParameters).canonical})
    (h : HashStandsFor sha256 policy n.policyParameters
      (if ps ≠ [] then .str (computePolicyParamsHash sha256 ps) else .null)) : NamesDeclared policy ps := by
  by_cases hps : ps = []
  · subst hps
    rcases h with h | ⟨-, hk⟩
    · cases h
    · exact namesDeclared_nil.2 hk
  · rw [if_pos hps] at h
    rcases h with h | ⟨h, -⟩
    · have htext := hsha (by simp) (by simp) (Json.str.inj h)
      exact namesDeclared_of_perm hn (parametersJson_perm htext)
    · cases h

/-- **The sealed map stands for what is used** exactly under the condition. -/
theorem map_iff_names (hn : policy.normalize (effectivePayload evidence ps) = .ok n) :
    MapStandsFor policy n.policyParameters (if ps ≠ [] then parametersJson ps else .null) ↔
      NamesDeclared policy ps := by
  by_cases hps : ps = []
  · subst hps
    rw [namesDeclared_nil]
    constructor
    · rintro (⟨entries, h, -⟩ | ⟨-, hk⟩)
      · cases h
      · exact hk
    · exact fun hk => .inr ⟨rfl, hk⟩
  · rw [if_pos hps]
    constructor
    · rintro (⟨entries, h, hperm⟩ | ⟨h, -⟩)
      · rw [← parametersJson_inj h] at hperm
        exact namesDeclared_of_perm hn hperm
      · cases h
    · exact fun hnames => .inl ⟨ps, rfl, used_perm hn hps hnames⟩

/-- The reference policy that is registered for the runs of a policy. -/
def RegisteredPolicy (E : PolicyEngine) (policyId : String) (policy : GeneratedReferencePolicy) : Prop :=
  ∃ manifest outputs, E.policies policyId = some manifest ∧
    E.referencePolicies manifest.referencePolicy = some (policy.reference E.sha256 outputs)

/-- The policy has decided on evidence and parameters: `n` is what `evaluate_reference` gets. -/
def DecidedWith (policy : GeneratedReferencePolicy) (payload : Json) (ps : List (String × ℤ))
    (n : NormalizedEvidence) : Prop :=
  policy.normalize (effectivePayload payload ps) = .ok n ∧ ∃ decision, policy.evaluateReference n = some decision

/-- The reference track of a registered policy decides with normalized evidence, and makes its
private input of it. -/
theorem decided_of_reference {policies : String → Option ReferencePolicy} {referencePolicy : String}
    {outputs : Dict OutputSpec}
    {differentialOutputs : Dict DifferentialOutputSpec} {payload : Json} {reference : DualTrackReferenceResult}
    (hreg : policies referencePolicy = some (policy.reference sha256 outputs))
    (h : prepareReferenceTrack policies referencePolicy differentialOutputs (effectivePayload payload ps) =
      .ok reference) :
    ∃ n, DecidedWith policy payload ps n ∧ policy.evaluateReference n = some reference.decision ∧
      policy.toPrivateInput sha256 n = some reference.privateInput := by
  unfold prepareReferenceTrack at h
  rw [hreg] at h
  obtain ⟨⟨⟩, -, h⟩ := bind_ok.1 h
  obtain ⟨normalized, hnorm, h⟩ := bind_ok.1 h
  obtain ⟨decision, hdecision, h⟩ := bind_ok.1 h
  obtain ⟨projected, -, h⟩ := bind_ok.1 h
  obtain ⟨outs, -, h⟩ := bind_ok.1 h
  obtain ⟨privateInput, hprivate, h⟩ := bind_ok.1 h
  obtain rfl := pure_ok.1 h
  obtain ⟨n, hn, rfl⟩ := map_ok.1 (mapError_ok.1 hnorm)
  -- the dictionary stands for `n` and nothing else
  have hon : ∀ {α : Type} {f : NormalizedEvidence → Option α} {a : α},
      GeneratedReferencePolicy.onNormalized f n.json = .ok a → f n = some a := by
    intro α f a hf
    unfold GeneratedReferencePolicy.onNormalized at hf
    rw [normalizedOf?_json, Option.bind_some] at hf
    cases hfn : f n with
    | none =>
      rw [hfn] at hf
      cases hf
    | some b =>
      rw [hfn] at hf
      exact congrArg _ (Except.ok.inj hf)
  exact ⟨n, ⟨hn, decision, hon hdecision⟩, hon hdecision, hon hprivate⟩

variable {R : RunService} {answer : Answers} {encrypt : Json → Except PyExn String}
    {request : RunCreateRequest} {runId : String}

/-- **When the recorded parameters are the ones that decided.** For every run that the service
accepts, the hash in the metadata and the sealed map both stand for the parameters with which
the policy decided, exactly when the reference names the declared parameters; and so does the
hash in the attestation of every run of the engine. -/
theorem run_parameters_iff (hpolicy : RegisteredPolicy R.toPolicyEngine request.policyId policy)
    (hps : R.resolveParameters request.policyId request.policyParamsRef = .ok ps) :
    (∀ r, ((R.createPolicyRun encrypt request runId).exec answer).2 = .ok r →
      ∃ payload n new plaintext, EvidenceOf answer request.toPolicyRunRequest payload ∧
        DecidedWith policy payload ps n ∧
        Call.createProofJob new ∈ ((R.createPolicyRun encrypt request runId).exec answer).1 ∧
        encrypt plaintext = .ok new.sealedJobPayload ∧
        ((HashStandsFor R.sha256 policy n.policyParameters (getOrNull (.obj new.metadata.items) "policy_params_hash") ∧
          MapStandsFor policy n.policyParameters (getOrNull plaintext "policy_parameters")) ↔
            NamesDeclared policy ps)) ∧
    (∀ result, ((R.toPolicyEngine.run request.toPolicyRunRequest runId).exec answer).2 = .ok result →
      ∃ payload n input, EvidenceOf answer request.toPolicyRunRequest payload ∧ DecidedWith policy payload ps n ∧
        Call.createAttestation input ∈ ((R.toPolicyEngine.run request.toPolicyRunRequest runId).exec answer).1 ∧
        (Set.InjOn R.sha256 {(parametersJson ps).canonical, (parametersJson n.policyParameters).canonical} →
          (HashStandsFor R.sha256 policy n.policyParameters (getOrNull (.obj input.metadata) "policy_params_hash") ↔
            NamesDeclared policy ps))) := by
  obtain ⟨manifest, outputs, hmanifest, hreg⟩ := hpolicy
  constructor
  · intro r hr
    obtain ⟨manifest', payload, evidenceRef, d, sealedPayload, hmanifest', hevidence, hdraft, hseal, hmem⟩ :=
      createPolicyRun_ok hr
    obtain rfl := Option.some.inj (hmanifest.symm.trans hmanifest')
    obtain ⟨parameters, reference, hparams, href, -, rfl⟩ := draft_ok hdraft
    obtain rfl := Except.ok.inj (hps.symm.trans hparams)
    obtain ⟨n, hn, -⟩ := decided_of_reference hreg href
    refine ⟨payload, n, _, _, hevidence, hn, hmem, hseal, ?_⟩
    have hhash : getOrNull (.obj (R.job request runId sealedPayload
        { circuitId := manifest.circuitId
          metadata := RunService.policyRunMetadata request manifest.policyVersion ("att-" ++ runId) evidenceRef
            (if ps ≠ [] then some (computePolicyParamsHash R.sha256 ps) else none)
          plaintext := RunService.sealedFields request ps reference }).metadata.items) "policy_params_hash" =
        if ps ≠ [] then .str (computePolicyParamsHash R.sha256 ps) else .null := by
      by_cases hnil : ps = []
      · subst hnil
        rfl
      · rw [if_pos hnil, if_pos hnil]
        rfl
    have hmap : getOrNull (RunService.sealedFields request ps reference) "policy_parameters" =
        if ps ≠ [] then parametersJson ps else .null := rfl
    rw [hhash, hmap, map_iff_names hn.1]
    exact ⟨fun h => h.2, fun h => ⟨hash_of_names hn.1 h, h⟩⟩
  · intro result hresult
    obtain ⟨manifest', payload, evidenceRef, parameters, reference, generated, verified, circuit, hmanifest',
      hevidence, hrun, -,
      -, -, -, hmem⟩ := run_ok hresult
    obtain rfl := Option.some.inj (hmanifest.symm.trans hmanifest')
    unfold PolicyEngine.referenceRun at hrun
    obtain ⟨parameters', hparams, hrun⟩ := bind_ok.1 hrun
    obtain ⟨reference', href, hrun⟩ := bind_ok.1 hrun
    obtain ⟨rfl, rfl⟩ := Prod.mk.inj (pure_ok.1 hrun)
    obtain rfl := Except.ok.inj (hps.symm.trans hparams)
    obtain ⟨n, hn, -⟩ := decided_of_reference hreg href
    refine ⟨payload, n, _, hevidence, hn, hmem, fun hsha => ?_⟩
    have hhash : getOrNull (.obj (R.toPolicyEngine.attestation request.toPolicyRunRequest runId evidenceRef manifest ps
        reference' generated circuit).metadata) "policy_params_hash" =
        if ps ≠ [] then .str (computePolicyParamsHash R.sha256 ps) else .null := rfl
    rw [hhash]
    exact ⟨names_of_hash hn.1 hsha, hash_of_names hn.1⟩

/-! ## Runs of a policy with one parameter -/

/-- A service with one policy, whose parameter `a` is 3 in the reference `q2`. -/
def oneParamService : RunService where
  policies _ := some
    { policyId := "p"
      policyVersion := "1.0.0"
      circuitId := "credit_check"
      referencePolicy := "r"
      differentialOutputs := .empty
      expectedAttestation := .empty }
  referencePolicies _ := some ((oneParamPolicy "a").reference demoSha .empty)
  resolveParameters _ reference := .ok (if reference = some "q2" then [("a", 3)] else [])
  sha256 := demoSha
  repr _ := ""
  circuits _ := some (.obj [])
  validateSchema _ _ := .ok ()

/-- One row, with the parameter in the evidence itself. -/
def oneParamRequest (policyParamsRef : Option String) : RunCreateRequest where
  policyId := "p"
  policyParamsRef := policyParamsRef
  evidence := .inline (evidenceOf [5] [0] [("a", 4)])
  context := .obj []
  clientRequestId := none
  sub := .null
  bankKeyId := "bank-key-1"
  policyId_ne := by decide

/-- All goes well. -/
def oneParamAnswer : Answers := fun c => .ok (demoReply .null true .empty c)

def oneParamEncrypt (plaintext : Json) : Except PyExn String := .ok plaintext.canonical

/-- Both runs are accepted. -/
theorem oneParam_accepted (reference : Option String) (h : reference = none ∨ reference = some "q2") :
    ((oneParamService.createPolicyRun oneParamEncrypt (oneParamRequest reference) "r1").exec oneParamAnswer).2 =
      .ok "r1" := by
  rw [← toOption_eq_some]
  rcases h with rfl | rfl
  · decide +kernel
  · decide +kernel

/-- **Parameters of the evidence decide, and none are recorded.** -/
theorem run_parameters_unrecorded : ∃ n new,
    ((oneParamService.createPolicyRun oneParamEncrypt (oneParamRequest none) "r1").exec oneParamAnswer).2 = .ok "r1" ∧
    Call.createProofJob new ∈
      ((oneParamService.createPolicyRun oneParamEncrypt (oneParamRequest none) "r1").exec oneParamAnswer).1 ∧
    DecidedWith (oneParamPolicy "a") (evidenceOf [5] [0] [("a", 4)]) [] n ∧ n.policyParameters = [("a", 4)] ∧
    ¬ HashStandsFor demoSha (oneParamPolicy "a") n.policyParameters
      (getOrNull (.obj new.metadata.items) "policy_params_hash") := by
  have haccepted := oneParam_accepted none (.inl rfl)
  obtain ⟨manifest, payload, evidenceRef, d, sealedPayload, -, -, hdraft, -, hmem⟩ := createPolicyRun_ok haccepted
  obtain ⟨parameters, reference, hparams, -, -, rfl⟩ := draft_ok hdraft
  have hnone : parameters = [] := (Except.ok.inj hparams).symm
  subst hnone
  have hadmits : ∀ p ∈ (oneParamPolicy "a").parameters.items, p.2.admits ((fun _ => 4 : String → ℤ) p.1) := by
    simp [oneParamPolicy, PolicyParameterSpec.admits]
  have hn : (oneParamPolicy "a").normalize (evidenceOf [5] [0] [("a", 4)]) = .ok ⟨[5], [0], .int 1, [("a", 4)]⟩ :=
    (@GeneratedReferencePolicy.normalize_ok (oneParamPolicy "a") [5] [0] (fun _ => 4) hadmits _).2
      ⟨by decide, rfl, le_rfl, by simp [U32], by simp [U32], rfl⟩
  refine ⟨_, _, haccepted, hmem, ⟨hn, _, rfl⟩, rfl, ?_⟩
  rintro (h | ⟨-, h⟩)
  · cases h
  · cases h

/-- With the reference the run records what decided. -/
theorem run_parameters_recorded : ∃ n new plaintext,
    DecidedWith (oneParamPolicy "a") (evidenceOf [5] [0] [("a", 4)]) [("a", 3)] n ∧
    Call.createProofJob new ∈
      ((oneParamService.createPolicyRun oneParamEncrypt (oneParamRequest (some "q2")) "r1").exec oneParamAnswer).1 ∧
    HashStandsFor demoSha (oneParamPolicy "a") n.policyParameters
      (getOrNull (.obj new.metadata.items) "policy_params_hash") ∧
    MapStandsFor (oneParamPolicy "a") n.policyParameters (getOrNull plaintext "policy_parameters") := by
  have hpolicy : RegisteredPolicy oneParamService.toPolicyEngine "p" (oneParamPolicy "a") := ⟨_, _, rfl, rfl⟩
  have hps : oneParamService.resolveParameters "p" (some "q2") = .ok [("a", 3)] := rfl
  obtain ⟨payload, n, new, plaintext, hevidence, hn, hmem, -, hiff⟩ :=
    (@run_parameters_iff (oneParamPolicy "a") [("a", 3)] oneParamService oneParamAnswer oneParamEncrypt
      (oneParamRequest (some "q2")) "r1" hpolicy hps).1 "r1" (oneParam_accepted _ (.inr rfl))
  have hpayload : payload = evidenceOf [5] [0] [("a", 4)] := hevidence
  rw [hpayload] at hn
  obtain ⟨hhash, hmap⟩ := hiff.2 (List.Perm.refl _)
  exact ⟨n, new, plaintext, hn, hmem, hhash, hmap⟩

end Vellum
