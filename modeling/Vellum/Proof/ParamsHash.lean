import Vellum.Lib.JsonText
import Vellum.Proof.Agreement
import Vellum.Spec.GeneratedPolicy

/-!
# The parameter hash on the two sides

The circuit asks for a hash of the values in declaration order. The generated policy hands it
the SHA-256 digest of the sorted JSON of names and values. A function of the value list cannot
follow a digest that depends on the names.

* `parameters_canonical`: the hashed text determines the map up to order, and is determined by it.
* `meets_iff`: when a private input meets the parameter constraint.
* `params_hash_iff`: when one hash function serves two policies with the same values.
-/

namespace Vellum

/-! ## Reading a private input -/

/-- The cells of the parameter signals hold what the private input says. `fieldOf` is how the
witness generator reads a value. -/
structure ParameterCells (fieldOf : Json → Option F) (privateInput : Json) (w : Cell → F) : Prop where
  values : ∃ values, privateInput.get? "policy_params" = some (.arr values) ∧
    ∀ p v, values[p]? = some v → fieldOf v = some (w (.signal .policyParams p))
  expected : ∃ v, privateInput.get? "expected_policy_params_hash" = some v ∧
    fieldOf v = some (w .expectedPolicyParamsHash)

/-- **The private input of normalized evidence meets the parameter constraint** of the circuit. -/
def MeetsParameterConstraint (sha256 : String → String) (fieldOf : Json → Option F) (poseidon : List F → F)
    (policy : GeneratedReferencePolicy) (n : NormalizedEvidence) : Prop :=
  ∃ privateInput, policy.toPrivateInput sha256 n = some privateInput ∧
    ∃ w, ParameterCells fieldOf privateInput w ∧ ParametersHold poseidon policy.parameters.keys.length w

/-! ## The hashed text -/

/-- The entries can be read back from the object. -/
theorem parameters_read (ps : List (String × ℤ)) :
    (ps.map fun p => (p.1, Json.int p.2)).map (fun f => (f.1, f.2.asInt?.getD 0)) = ps := by
  rw [List.map_map]
  exact List.map_id' _ |>.symm ▸ List.map_congr_left fun p _ => rfl

theorem parametersJson_inj {ps ps' : List (String × ℤ)} (h : parametersJson ps = parametersJson ps') : ps = ps' := by
  rw [← parameters_read ps, ← parameters_read ps', Json.obj.inj h]

theorem parametersJson_perm {ps ps' : List (String × ℤ)}
    (h : (parametersJson ps).canonical = (parametersJson ps').canonical) :
    ps.Perm ps' := by
  have hperm := Json.sortKeys_obj_perm (Json.canonical_inj h)
  simp only [List.map_map, Function.comp_def, Json.sortKeys] at hperm
  rw [← parameters_read ps, ← parameters_read ps']
  exact hperm.map _

/-- **The hashed text is the map** up to the order of its entries. -/
theorem parameters_canonical {ps ps' : List (String × ℤ)} (hnd : (ps.map Prod.fst).Nodup) :
    (parametersJson ps).canonical = (parametersJson ps').canonical ↔ ps.Perm ps' := by
  constructor
  · exact parametersJson_perm
  · intro h
    have hsort : (parametersJson ps).sortKeys = (parametersJson ps').sortKeys := by
      apply Json.sortKeys_obj_of_perm (h.map _)
      simpa [List.map_map, Function.comp_def] using hnd
    unfold Json.canonical
    rw [hsort]

/-! ## The constraint -/

variable {policy : GeneratedReferencePolicy} {evidence : Json} {n : NormalizedEvidence} {sha256 : String → String}
  {fieldOf : Json → Option F} {poseidon : List F → F}

/-- The resolved parameters are the declared ones, in their order. -/
theorem normalized_keys (hn : policy.normalize evidence = .ok n) :
    n.policyParameters.map Prod.fst = policy.parameters.keys := by
  rw [resolvePolicyParameters_value (GeneratedReferencePolicy.normalize_prepared hn).2, List.map_map]
  exact List.map_id _

theorem normalized_nodup (hn : policy.normalize evidence = .ok n) : (n.policyParameters.map Prod.fst).Nodup := by
  rw [normalized_keys hn]
  exact policy.parameters.nodup

/-- The private input of a policy with parameters. -/
theorem toPrivateInput_parameters (hn : policy.normalize evidence = .ok n) (hk : policy.parameters.keys ≠ []) :
    policy.toPrivateInput sha256 n = some (.obj
      [("balances", .arr (n.balances.map .int)), ("limits", .arr (n.limits.map .int)),
        ("active_count", .int n.activeCount.toInt),
        ("policy_params", .arr ((n.policyParameters.map Prod.snd).map .int)),
        ("expected_policy_params_hash", .str (computePolicyParamsHash sha256 n.policyParameters))]) := by
  have hvalues := resolvePolicyParameters_value (GeneratedReferencePolicy.normalize_prepared hn).2
  have hlookup : (policy.parameters.keys.mapM fun name => n.policyParameters.lookup name) =
      some (n.policyParameters.map Prod.snd) := by
    rw [mapM_some (g := parameterValue policy.parameters (evidence.get? "policy_parameters"))]
    · rw [hvalues, List.map_map]
      rfl
    · intro name hname
      rw [hvalues]
      exact Dict.lookup_map_self hname
  unfold GeneratedReferencePolicy.toPrivateInput GeneratedReferencePolicy.parameterEntries
  rw [if_neg hk, hlookup]
  rfl

/-- Every normalized evidence has a private input: the batch, then the entries of the parameters. -/
theorem exists_privateInput (hn : policy.normalize evidence = .ok n) :
    ∃ entries, policy.toPrivateInput sha256 n = some (.obj
      ([("balances", .arr (n.balances.map .int)), ("limits", .arr (n.limits.map .int)),
        ("active_count", .int n.activeCount.toInt)] ++ entries)) := by
  by_cases hk : policy.parameters.keys = []
  · have hentries : policy.parameterEntries sha256 n = some [] := if_pos hk
    exact ⟨[], congrArg (Option.map _) hentries⟩
  · exact ⟨_, toPrivateInput_parameters hn hk⟩

/-- The cells at the hasher's inputs, in order. -/
theorem map_range_values {f : ℕ → F} {ps : List (String × ℤ)}
    (h : ∀ p (v : ℤ), (ps.map Prod.snd)[p]? = some v → f p = (v : F)) :
    (List.range ps.length).map f = ps.map fun p => (p.2 : F) := by
  apply List.ext_getElem
  · rw [List.length_map, List.length_range, List.length_map]
  · intro p h1 h2
    rw [List.length_map] at h2
    rw [List.getElem_map, List.getElem_range, List.getElem_map]
    apply h
    rw [List.getElem?_map, List.getElem?_eq_getElem h2]
    rfl

/-- **When the constraint is met**: the digest is read as the hash of the values. -/
theorem meets_iff (hint : ∀ i : ℤ, fieldOf (.int i) = some (i : F)) (hn : policy.normalize evidence = .ok n)
    (hk : policy.parameters.keys ≠ []) :
    MeetsParameterConstraint sha256 fieldOf poseidon policy n ↔
      fieldOf (.str (computePolicyParamsHash sha256 n.policyParameters)) =
        some (poseidon (n.policyParameters.map fun p => (p.2 : F))) := by
  have hlen : n.policyParameters.length = policy.parameters.keys.length := by
    rw [← normalized_keys hn, List.length_map]
  unfold MeetsParameterConstraint
  rw [toPrivateInput_parameters hn hk]
  constructor
  · rintro ⟨_, hin, w, ⟨⟨values, hv, hvalues⟩, ⟨v, hve, hexpected⟩⟩, hhold⟩
    obtain rfl := Option.some.inj hin
    have hv' := Option.some.inj hv
    obtain rfl := Json.arr.inj hv'
    obtain rfl := Option.some.inj hve
    have hinputs : ∀ p (v : ℤ), (n.policyParameters.map Prod.snd)[p]? = some v → w (.hasherInput p) = (v : F) := by
      intro p v hp
      have hlt : p < policy.parameters.keys.length := by
        have := (List.getElem?_eq_some_iff.1 hp).1
        rwa [List.length_map, hlen] at this
      have hcell := hvalues p (.int v) (by rw [List.getElem?_map, hp]; rfl)
      rw [hint] at hcell
      have hline : w (.hasherInput p) = w (.signal .policyParams p) := hhold.inputs p hlt
      rw [hline]
      exact (Option.some.inj hcell).symm
    -- digest, expected cell, computed cell and hasher are one value
    have hcomputed : w .computedPolicyParamsHash = w .hasherOut := hhold.computed
    have hexp : w .computedPolicyParamsHash = w .expectedPolicyParamsHash := hhold.expected
    rw [hexpected, ← hexp, hcomputed, hhold.hasher, ← hlen, map_range_values hinputs]
  · intro hread
    refine ⟨_, rfl, fun
      | .signal .policyParams p => ((n.policyParameters.map Prod.snd)[p]?.getD 0 : ℤ)
      | .hasherInput p => ((n.policyParameters.map Prod.snd)[p]?.getD 0 : ℤ)
      | _ => poseidon (n.policyParameters.map fun p => (p.2 : F)), ⟨⟨_, rfl, ?_⟩, ⟨_, rfl, hread⟩⟩, ?_⟩
    · intro p v hp
      rw [List.getElem?_map, Option.map_eq_some_iff] at hp
      obtain ⟨i, hi, rfl⟩ := hp
      rw [hint]
      simp [hi]
    · refine ⟨fun p _ => rfl, ?_, rfl, rfl⟩
      dsimp only
      rw [← hlen, map_range_values]
      intro p v hp
      rw [hp]
      rfl

/-- **When one hash serves two policies.** Take two policies with parameters and evidence that
each normalizes, to the same values in order. Some function of the value list makes both
private inputs meet the parameter constraint exactly when the two pair the same names with the
same values and the witness generator reads the digest as a field element. -/
theorem params_hash_iff {policy' : GeneratedReferencePolicy} {evidence' : Json} {n' : NormalizedEvidence}
    (hint : ∀ i : ℤ, fieldOf (.int i) = some (i : F)) (hn : policy.normalize evidence = .ok n)
    (hn' : policy'.normalize evidence' = .ok n') (hk : policy.parameters.keys ≠ [])
    (hk' : policy'.parameters.keys ≠ [])
    (hvalues : n.policyParameters.map Prod.snd = n'.policyParameters.map Prod.snd)
    (hsha : Set.InjOn sha256 {(parametersJson n.policyParameters).canonical,
      (parametersJson n'.policyParameters).canonical})
    (hread : ∀ x, fieldOf (.str (computePolicyParamsHash sha256 n.policyParameters)) = some x →
      fieldOf (.str (computePolicyParamsHash sha256 n'.policyParameters)) = some x →
      computePolicyParamsHash sha256 n.policyParameters = computePolicyParamsHash sha256 n'.policyParameters) :
    (∃ poseidon, MeetsParameterConstraint sha256 fieldOf poseidon policy n ∧
      MeetsParameterConstraint sha256 fieldOf poseidon policy' n') ↔
    n.policyParameters.Perm n'.policyParameters ∧
      (fieldOf (.str (computePolicyParamsHash sha256 n.policyParameters))).isSome = true := by
  have hfield : (n.policyParameters.map fun p => (p.2 : F)) = n'.policyParameters.map fun p => (p.2 : F) := by
    have h := congrArg (List.map fun i : ℤ => (i : F)) hvalues
    rwa [List.map_map, List.map_map] at h
  simp only [meets_iff hint hn hk, meets_iff hint hn' hk']
  rw [← hfield]
  constructor
  · rintro ⟨poseidon, h1, h2⟩
    refine ⟨(parameters_canonical (normalized_nodup hn)).1 ?_, by rw [h1]; rfl⟩
    exact hsha (by simp) (by simp) (hread _ h1 h2)
  · rintro ⟨hperm, hsome⟩
    obtain ⟨x, hx⟩ := Option.isSome_iff_exists.1 hsome
    have htext := (parameters_canonical (normalized_nodup hn)).2 hperm
    have hhash : computePolicyParamsHash sha256 n'.policyParameters = computePolicyParamsHash sha256
      n.policyParameters := by
      unfold computePolicyParamsHash
      rw [htext]
    exact ⟨fun _ => x, hx, by rw [hhash]; exact hx⟩

/-! ## One value under two names -/

theorem digit_bounds : ∀ a ∈ some (0 : ℤ), ∀ b ∈ some (9 : ℤ), a ≤ b := by simp

theorem digit_defaultMin : ∀ d ∈ some (0 : ℤ), ∀ a ∈ some (0 : ℤ), a ≤ d := by simp

theorem digit_defaultMax : ∀ d ∈ some (0 : ℤ), ∀ b ∈ some (9 : ℤ), d ≤ b := by simp

/-- The policy generated for `all(balances >= name)`, one row. -/
def oneParamPolicy (name : String) : GeneratedReferencePolicy where
  batchSize := 1
  parameters := ⟨[(name, ⟨some 0, some 9, some 0, digit_bounds, digit_defaultMin, digit_defaultMax⟩)],
    List.nodup_singleton name⟩
  decision := .aggregate .all (.compare .ge (.balances 0) (.param name)) 0

/-- What it normalizes one row to, with the parameter zero. -/
def oneParamEvidence (name : String) : NormalizedEvidence := ⟨[5], [0], .int 1, [(name, 0)]⟩

/-- SHA-256 on the two texts hashed here. -/
def twoDigests (text : String) : String :=
  if text = "\x7b\"a\":0\x7d" then "45b619e97b5d9b029af4522e9ffb02fa99ff2bf226c82ee22a7cc10269a557e8"
  else "f486a8f901c2a9d6ba36224ab510c6c78d6d26eb5f647254b7a1e98aeaaf9fb0"

/-- An integer, or a text of decimal digits. -/
def decimalField : Json → Option F
  | .int i => some (i : F)
  | .str s => if s ≠ "" ∧ s.toList.all Char.isDigit then some ((pyInt? s).getD 0 : ℤ) else none
  | _ => none

theorem oneParam_unread (name : String) (h : name = "a" ∨ name = "b") :
    decimalField (.str (computePolicyParamsHash twoDigests (oneParamEvidence name).policyParameters)) = none := by
  rcases h with rfl | rfl <;> decide +kernel

theorem oneParam_normalize (name : String) :
    (oneParamPolicy name).normalize (evidenceOf [5] [0] [(name, 0)]) = .ok (oneParamEvidence name) := by
  have hadmits : ∀ p ∈ (oneParamPolicy name).parameters.items, p.2.admits ((fun _ => 0 : String → ℤ) p.1) := by
    simp [oneParamPolicy, PolicyParameterSpec.admits]
  exact (@GeneratedReferencePolicy.normalize_ok (oneParamPolicy name) [5] [0] (fun _ => 0) hadmits _).2
    ⟨by decide, rfl, le_rfl, by simp [U32], by simp [U32], rfl⟩

/-- **One value under two names.** No function of the value list serves both policies. -/
theorem params_hash_two_names : ¬ ∃ poseidon,
    MeetsParameterConstraint twoDigests decimalField poseidon (oneParamPolicy "a") (oneParamEvidence "a") ∧
      MeetsParameterConstraint twoDigests decimalField poseidon (oneParamPolicy "b") (oneParamEvidence "b") := by
  rw [params_hash_iff (fun _ => rfl) (oneParam_normalize "a") (oneParam_normalize "b")
    (by decide) (by decide) rfl]
  · rintro ⟨-, h⟩
    rw [oneParam_unread "a" (Or.inl rfl)] at h
    cases h
  · have hne : twoDigests (parametersJson [("a", 0)]).canonical ≠ twoDigests (parametersJson [("b", 0)]).canonical := by
      decide +kernel
    rw [Set.injOn_pair]
    intro h
    exact absurd h hne
  · intro x hx
    rw [oneParam_unread "a" (Or.inl rfl)] at hx
    cases hx

/-- **A parametrised policy that cannot be proved.** The compiler accepts the spec, its policy
normalizes the evidence, and the private input carries a SHA-256 digest that no hash of the
value list equals. -/
theorem params_hash_not_met :
    (generatePolicyArtifacts id (oneParamSpec "a" (by decide))).isOk = true ∧
    (oneParamPolicy "a").normalize (evidenceOf [5] [0] [("a", 0)]) = .ok (oneParamEvidence "a") ∧
    ¬ ∃ poseidon,
      MeetsParameterConstraint twoDigests decimalField poseidon (oneParamPolicy "a") (oneParamEvidence "a") := by
  refine ⟨by decide +kernel, oneParam_normalize "a", ?_⟩
  rintro ⟨poseidon, h⟩
  rw [meets_iff (fun _ => rfl) (oneParam_normalize "a") (by decide), oneParam_unread "a" (Or.inl rfl)] at h
  cases h

end Vellum
