import Vellum.Proof.ModuleImport
import Vellum.Proof.ParamsHash
import Vellum.Spec.Explainability

/-!
# The two forms of evidence

A generated policy takes the arrays of a request, which it pads to its own batch size, or a private
input that is padded already, which it checks against the 250 rows of the batcher. The two forms are
interchangeable iff the batch size is 250.

* `normalize_privateInput`: what comes of a private input made from normalized evidence.
* `exists_privateEvidence`: every policy normalizes some private input, of 250 rows.
* `evidence_forms_iff`: when the forms are interchangeable.
-/

namespace Vellum

variable {sha256 : String → String} {policy : GeneratedReferencePolicy} {evidence : Json} {n : NormalizedEvidence}

/-- Evidence in `private_input` form. -/
def privateEvidence (privateInput : Json) (policyParameters : List (String × ℤ)) : Json :=
  .obj [("private_input", privateInput), ("policy_parameters", parametersJson policyParameters)]

/-- The evidence holds a private input. -/
def HasPrivateInput (evidence : Json) : Prop := ∃ fields, evidence.get? "private_input" = some (.obj fields)

/-- **The two forms are interchangeable**, in a policy whose circuit declares arrays of `size` entries:
normalized evidence comes back from its private input, and a private input has that many rows. -/
structure EvidenceForms (sha256 : String → String) (policy : GeneratedReferencePolicy) (size : ℕ) : Prop where
  again : ∀ evidence n, ¬ HasPrivateInput evidence → policy.normalize evidence = .ok n →
    ∃ privateInput, policy.toPrivateInput sha256 n = some privateInput ∧
      policy.normalize (privateEvidence privateInput n.policyParameters) = .ok n
  declared : ∀ evidence n, HasPrivateInput evidence → policy.normalize evidence = .ok n →
    n.balances.length = size ∧ n.limits.length = size

/-! ## A private input -/

theorem normalize_privateEvidence {fields : List (String × Json)} {policyParameters : List (String × ℤ)} :
    policy.normalize (privateEvidence (.obj fields) policyParameters) = (do
      let policyParams ← resolvePolicyParameters policy.parameters (some (parametersJson policyParameters))
      batchResult (batchPrepareFromPrivateInput (.obj fields)) policyParams) := rfl

/-- Resolved parameters resolve to themselves. -/
theorem resolvePolicyParameters_again {parameters : Dict PolicyParameterSpec} {payload : Option Json}
    {resolved : List (String × ℤ)} (h : resolvePolicyParameters parameters payload = .ok resolved) :
    resolvePolicyParameters parameters (some (parametersJson resolved)) = .ok resolved := by
  have hok := resolvePolicyParameters_ok (parameterValue_admits h)
  have hvalue := resolvePolicyParameters_value h
  have hjson : parametersJson resolved =
      .obj (parameters.keys.map fun name => (name, .int (parameterValue parameters payload name))) := by
    rw [hvalue]
    unfold parametersJson
    rw [List.map_map]
    rfl
  rw [hjson, hok, ← hvalue]

/-- The private input of normalized evidence begins with its batch. -/
theorem privateInput_batch (hn : policy.normalize evidence = .ok n) {privateInput : Json}
    (hprivate : policy.toPrivateInput sha256 n = some privateInput) :
    ∃ entries, privateInput = .obj ([("balances", .arr (n.balances.map .int)), ("limits", .arr (n.limits.map .int)),
      ("active_count", .int n.activeCount.toInt)] ++ entries) := by
  have hexists : ∃ entries, policy.toPrivateInput sha256 n = some (.obj
      ([("balances", .arr (n.balances.map .int)), ("limits", .arr (n.limits.map .int)),
        ("active_count", .int n.activeCount.toInt)] ++ entries)) := exists_privateInput hn
  obtain ⟨entries, hentries⟩ := hexists
  exact ⟨entries, Option.some.inj (hprivate.symm.trans hentries)⟩

/-- **Normalized evidence as a private input** comes back, if it is a batch of 250 rows. -/
theorem normalize_privateInput (hn : policy.normalize evidence = .ok n)
    (hprep : PreparedAt maxBatchSize n.balances n.limits n.activeCount) {privateInput : Json}
    (hprivate : policy.toPrivateInput sha256 n = some privateInput) :
    policy.normalize (privateEvidence privateInput n.policyParameters) =
      .ok { n with activeCount := .int n.activeCount.toInt } := by
  obtain ⟨entries, rfl⟩ := privateInput_batch hn hprivate
  rw [normalize_privateEvidence,
    resolvePolicyParameters_again (GeneratedReferencePolicy.normalize_prepared hn).2,
    batchPrepare_again.2 ⟨hprep, rfl⟩]
  rfl

/-- The arrays of a request give a batch of the policy's size, with a count that is a number. -/
theorem normalize_arrays (hform : ¬ HasPrivateInput evidence) (hn : policy.normalize evidence = .ok n) :
    PreparedAt policy.batchSize n.balances n.limits n.activeCount ∧ .int n.activeCount.toInt = n.activeCount := by
  simp only [GeneratedReferencePolicy.normalize, bind_ok] at hn
  obtain ⟨params, -, hn⟩ := hn
  split at hn
  · next fields hfields => exact absurd ⟨fields, hfields⟩ hform
  · simp only [bind_ok] at hn
    obtain ⟨bs, -, ls, -, hn⟩ := hn
    obtain ⟨prepared, hprep, rfl⟩ := batchResult_ok.1 hn
    obtain ⟨-, -, -, -, -, rfl⟩ := batchPrepareInput_ok.1 hprep
    exact ⟨batchPrepareInput_prepared hprep, rfl⟩

/-- A private input gives a batch of 250 rows. -/
theorem normalize_private (hform : HasPrivateInput evidence) (hn : policy.normalize evidence = .ok n) :
    PreparedAt maxBatchSize n.balances n.limits n.activeCount := by
  obtain ⟨fields, hfields⟩ := hform
  simp only [GeneratedReferencePolicy.normalize, bind_ok, hfields] at hn
  obtain ⟨params, -, hn⟩ := hn
  obtain ⟨prepared, hprep, rfl⟩ := batchResult_ok.1 hn
  exact batchPrepareFromPrivateInput_prepared hprep

/-! ## Every policy has a private input -/

/-- A value within the bounds of a parameter. -/
def PolicyParameterSpec.someValue (p : PolicyParameterSpec) : ℤ := p.minimum.getD (p.maximum.getD 0)

theorem PolicyParameterSpec.admits_someValue (p : PolicyParameterSpec) : p.admits p.someValue := by
  unfold admits someValue
  constructor
  · intro a ha
    rw [Option.mem_def.1 ha]
    exact le_rfl
  · intro b hb
    cases hmin : p.minimum with
    | none => rw [Option.mem_def.1 hb]; exact le_rfl
    | some a => exact p.bounds a hmin b hb

/-- One active row of zeros, padded to 250. -/
def zeroBatch : NormalizedEvidence :=
  ⟨List.replicate maxBatchSize 0, List.replicate maxBatchSize 0, .int 1, []⟩

theorem zeroBatch_prepared : PreparedAt maxBatchSize zeroBatch.balances zeroBatch.limits zeroBatch.activeCount := by
  have hzero : ∀ x ∈ List.replicate maxBatchSize (0 : ℤ), x = 0 := fun x hx => (List.mem_replicate.1 hx).2
  have hu32 : U32 (List.replicate maxBatchSize (0 : ℤ)) := by
    intro x hx
    rw [hzero x hx]
    omega
  exact ⟨List.length_replicate, List.length_replicate, by decide, by decide, hu32, hu32,
    fun x hx => hzero x (List.mem_of_mem_drop hx), fun x hx => hzero x (List.mem_of_mem_drop hx)⟩

/-- **Every policy normalizes some private input**, whatever its batch size. -/
theorem exists_privateEvidence (policy : GeneratedReferencePolicy) :
    ∃ evidence n, HasPrivateInput evidence ∧ policy.normalize evidence = .ok n := by
  let value := fun name => ((policy.parameters.get? name).map PolicyParameterSpec.someValue).getD 0
  have hadmits : ∀ p ∈ policy.parameters.items, p.2.admits (value p.1) := by
    intro p hp
    have hvalue : value p.1 = p.2.someValue := by
      unfold value
      rw [Dict.get?_of_mem hp]
      rfl
    rw [hvalue]
    exact p.2.admits_someValue
  let params := policy.parameters.keys.map fun name => (name, value name)
  have hresolve : resolvePolicyParameters policy.parameters (some (parametersJson params)) = .ok params := by
    rw [← resolvePolicyParameters_ok hadmits]
    unfold parametersJson
    rw [List.map_map]
    rfl
  let fields : List (String × Json) := [("balances", .arr (zeroBatch.balances.map .int)),
    ("limits", .arr (zeroBatch.limits.map .int)), ("active_count", .int zeroBatch.activeCount.toInt)] ++ []
  have hprep : batchPrepareFromPrivateInput (.obj fields) = .ok ⟨zeroBatch.balances, zeroBatch.limits, .int 1⟩ :=
    (@batchPrepare_again zeroBatch [] _).2 ⟨zeroBatch_prepared, rfl⟩
  refine ⟨privateEvidence (.obj fields) params, ⟨zeroBatch.balances, zeroBatch.limits, .int 1, params⟩,
    ⟨fields, rfl⟩, ?_⟩
  rw [normalize_privateEvidence, hresolve, hprep]
  rfl

/-! ## When the forms are interchangeable -/

theorem size_of_evidenceForms {size : ℕ} (h : EvidenceForms sha256 policy size) : size = maxBatchSize := by
  obtain ⟨evidence, n, hform, hn⟩ := exists_privateEvidence policy
  rw [← (h.declared evidence n hform hn).1]
  exact (normalize_private hform hn).lenBalances

/-- **When the two forms are interchangeable.** For the class generated from any spec, whatever its
tables denote and whatever it decides: iff the batch size of the spec is that of the batcher. -/
theorem evidence_forms_iff (spec : PolicyDSLSpec) (parameters : Dict PolicyParameterSpec) (decision : PyBool) :
    EvidenceForms sha256 ⟨spec.batchSize, parameters, decision⟩ spec.batchSize ↔ spec.batchSize = maxBatchSize := by
  constructor
  · exact size_of_evidenceForms
  · intro h
    constructor
    · intro evidence n hform hn
      obtain ⟨hprep, hcount⟩ := normalize_arrays hform hn
      dsimp only at hprep
      rw [h] at hprep
      have hexists : ∃ privateInput, (⟨spec.batchSize, parameters, decision⟩ : GeneratedReferencePolicy).toPrivateInput
          sha256 n = some privateInput := by
        obtain ⟨entries, hentries⟩ := exists_privateInput hn
        exact ⟨_, hentries⟩
      obtain ⟨privateInput, hprivate⟩ := hexists
      refine ⟨privateInput, hprivate, ?_⟩
      rw [normalize_privateInput hn hprep hprivate, hcount]
    · intro evidence n hform hn
      have hprep := normalize_private hform hn
      rw [h]
      exact ⟨hprep.lenBalances, hprep.lenLimits⟩

/-- The class generated from the spec of one row. -/
def sizedPolicy : GeneratedReferencePolicy :=
  ⟨1, .empty, .aggregate .any (.compare .gt (.balances 0) (.int 100)) 0⟩

/-- **A batch size of one separates the forms.** The evidence is normalized, and its private input is
refused. -/
theorem one_row_not_interchangeable :
    (generatePolicyArtifacts id (rowSpec balanceAbove (by decide))).isOk = true ∧
    loadPolicy plainPython (rowSpec balanceAbove (by decide)) = some sizedPolicy ∧
    sizedPolicy.normalize (evidenceOf [150] [0] []) = .ok ⟨[150], [0], .int 1, []⟩ ∧
    (sizedPolicy.toPrivateInput id ⟨[150], [0], .int 1, []⟩).map (fun privateInput =>
      (sizedPolicy.normalize (privateEvidence privateInput [])).isOk) = some false ∧
    ¬ EvidenceForms id sizedPolicy (rowSpec balanceAbove (by decide)).batchSize := by
  have hload : loadPolicy plainPython (rowSpec balanceAbove (by decide)) = some sizedPolicy :=
    @loadPolicy_some plainPython (rowSpec balanceAbove (by decide)) _ (by decide +kernel) (by decide +kernel) rfl rfl
  refine ⟨by decide +kernel, hload, rfl, by decide +kernel, ?_⟩
  intro h
  exact absurd (size_of_evidenceForms h) (by decide)

end Vellum
