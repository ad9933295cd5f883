import Vellum.Proof.Agreement
import Vellum.Proof.ParamsHash
import Vellum.Proof.Ranges

/-!
# Declared outputs and public signals

A spec fixes the outputs of its policy in one place, and five others read it: the output lines
of both renderers, the type check of the reference track, and the index and the parser of the
circuit track. Nothing compares the declared type and index with the expression.

* `prepareReferenceTrack_generated`: the reference track of a generated policy.
* `template_satisfiable`: every solution of the blocks extends to the whole template.
* `template_root`: in every solution the root is the decision, for operands that do not wrap.
* `signal_is`: what stands at the index of an output.
* `outputs_agree`: both tracks succeed and agree when the declarations match.
-/

namespace Vellum

open Circomlib

/-! ## The reference track -/

theorem normalizedOf?_json (n : NormalizedEvidence) : normalizedOf? n.json = some n := by
  have hints : ∀ l : List ℤ, (l.map Json.int).mapM Json.asInt? = some l := by
    intro l
    rw [List.mapM_map]
    exact (mapM_some (g := id) fun _ _ => rfl).trans (by rw [List.map_id])
  have hparams : (n.policyParameters.map fun p => (p.1, Json.int p.2)).mapM
      (fun p => p.2.asInt?.map fun i => (p.1, i)) = some n.policyParameters := by
    rw [List.mapM_map]
    exact (mapM_some (g := id) fun _ _ => rfl).trans (by rw [List.map_id])
  have hac : n.activeCount.toJson.asPyInt? = some n.activeCount := by
    cases n.activeCount <;> rfl
  simp only [normalizedOf?, NormalizedEvidence.json, parametersJson, hints, hparams, hac, Option.bind_eq_bind,
    Option.bind_some, Option.pure_def]

theorem onNormalized_json {α : Type} {f : NormalizedEvidence → Option α} {n : NormalizedEvidence} {a : α}
    (h : f n = some a) : GeneratedReferencePolicy.onNormalized f n.json = .ok a := by
  unfold GeneratedReferencePolicy.onNormalized
  rw [normalizedOf?_json, Option.bind_some, h]

/-- The type under which an output agrees on the two sides; the parameter hash has none. -/
def OutputExpr.signalType : OutputExpr → Option ValueType
  | .decision => some .bool
  | .activeCount => some .int
  | .policyParamsHash => none

/-- The value of an output, on both sides. -/
def outputAt (activeCount : ℤ) (allValid : Bool) : OutputExpr → Json
  | .decision => .bool allValid
  | _ => .int activeCount

variable {sha256 : String → String} {policy : GeneratedReferencePolicy} {n : NormalizedEvidence} {evidence : Json}
  {spec : PolicyDSLSpec} {I : Interpreter}

theorem referenceOutput_ok {referencePolicy : String} {allValid : Bool} {o : String × OutputSpec}
    (ho : o ∈ spec.outputs.items) (htype : o.2.expr.signalType = some o.2.valueType) :
    referenceOutput referencePolicy
        (spec.outputs.items.map fun o => (o.1, GeneratedReferencePolicy.outputValue sha256 n allValid o.2.expr))
        (o.1, ⟨o.2.signalIndex, o.2.valueType⟩) = .ok (o.1, outputAt n.activeCount.toInt allValid o.2.expr) := by
  -- no name occurs twice, so the projection is found under its own
  have hlookup := Dict.get?_of_mem (d := ⟨spec.outputs.items.map fun o =>
      (o.1, GeneratedReferencePolicy.outputValue sha256 n allValid o.2.expr), by
    rw [List.map_map]
    exact spec.outputs.nodup⟩) (List.mem_map_of_mem ho)
  rw [Dict.get?] at hlookup
  dsimp only at hlookup
  unfold referenceOutput
  dsimp only
  rw [hlookup]
  dsimp only
  cases he : o.2.expr with
  | decision =>
    rw [he] at htype
    rw [← Option.some.inj htype]
    rfl
  | activeCount =>
    rw [he] at htype
    rw [← Option.some.inj htype]
    rfl
  | policyParamsHash =>
    rw [he] at htype
    cases htype

/-- **The reference track of a generated policy.** -/
theorem prepareReferenceTrack_generated {policies : String → Option ReferencePolicy} {referencePolicy : String}
    (hreg : policies referencePolicy = some (policy.reference sha256 spec.outputs))
    (hn : policy.normalize evidence = .ok n) {allValid : Bool} (hdec : policy.decision.eval n.env = some allValid)
    (htypes : ∀ o ∈ spec.outputs.items, o.2.expr.signalType = some o.2.valueType) :
    ∃ privateInput, prepareReferenceTrack policies referencePolicy spec.differentialOutputs evidence =
      .ok ⟨privateInput, if allValid then .pass else .fail,
        spec.outputs.items.map fun o => (o.1, outputAt n.activeCount.toInt allValid o.2.expr)⟩ := by
  obtain ⟨privateInput, hprivate⟩ : ∃ privateInput, policy.toPrivateInput sha256 n = some privateInput := by
    obtain ⟨entries, hentries⟩ := exists_privateInput hn
    exact ⟨_, hentries⟩
  have hval : (policy.reference sha256 spec.outputs).validate evidence = .ok () := by
    simp only [GeneratedReferencePolicy.reference, hn]
    rfl
  have hnorm : (policy.reference sha256 spec.outputs).normalize evidence = .ok n.json := by
    simp only [GeneratedReferencePolicy.reference, hn]
    rfl
  have heval : (policy.reference sha256 spec.outputs).evaluateReference n.json =
      .ok (if allValid then .pass else .fail) := by
    apply onNormalized_json
    rw [GeneratedReferencePolicy.evaluateReference, hdec]
    rfl
  have hproj : (policy.reference sha256 spec.outputs).projectPublicOutputs n.json =
      .ok (spec.outputs.items.map fun o => (o.1, GeneratedReferencePolicy.outputValue sha256 n allValid o.2.expr)) := by
    apply onNormalized_json
    rw [GeneratedReferencePolicy.projectPublicOutputs, hdec]
    rfl
  have hpriv : (policy.reference sha256 spec.outputs).toPrivateInput n.json = .ok privateInput :=
    onNormalized_json hprivate
  have houts : spec.differentialOutputs.items.mapM (referenceOutput referencePolicy
      (spec.outputs.items.map fun o => (o.1, GeneratedReferencePolicy.outputValue sha256 n allValid o.2.expr))) =
      .ok (spec.outputs.items.map fun o => (o.1, outputAt n.activeCount.toInt allValid o.2.expr)) := by
    rw [mapM_ok, PolicyDSLSpec.differentialOutputs]
    dsimp only
    rw [List.forall₂_map_left_iff, List.forall₂_map_right_iff, List.forall₂_same]
    intro o ho
    exact referenceOutput_ok ho (htypes o ho)
  refine ⟨privateInput, ?_⟩
  unfold prepareReferenceTrack
  rw [hreg]
  dsimp only
  rw [hval, hnorm]
  simp only [bind_ok, pure_ok]
  exact ⟨(), trivial, _, rfl, _, heval, _, hproj, _, houts, _, hpriv, rfl⟩

/-! ## The root of the template -/

/-- Constants, parameters and batch size that do not wrap in the field. -/
structure WithinField (spec : PolicyDSLSpec) (evidence : Json) : Prop where
  constants : ∀ c : ℤ, .constInt c ∈ spec.decision.values → c < fieldBound
  parameters : ∀ name, .param name ∈ spec.decision.values →
    0 ≤ parameterValue spec.policyParameters (evidence.get? "policy_parameters") name ∧
      parameterValue spec.policyParameters (evidence.get? "policy_parameters") name < fieldBound
  batch : spec.batchSize < fieldBound

variable {kind : AggregateKind} {inner : DecisionExpr} {py decision : PyBool} {blocks : List CircomBlock} {w : Cell → F}

theorem fieldBound_shift : fieldBound + 2 ^ 16 < bn254 := by
  unfold fieldBound bn254
  norm_num

/-- A solution of the template has at most as many active rows as the circuit has. -/
theorem active_le {N ac : ℕ} (hN : N < fieldBound) (hac : ac < fieldBound) {assignment : Assignment}
    (hw : GeneratedHolds N blocks assignment) (hcell : assignment .activeCount 0 = (ac : F)) : ac ≤ N := by
  have hp := fieldBound_shift
  obtain ⟨-, hlt⟩ := activeCountBounds_iff.1 hw.bounds
  rw [hcell] at hlt
  have hone := lessThan_sound two_pow_17_le (by omega) (by omega) hlt
  by_contra hgt
  rw [if_neg (by omega)] at hone
  exact one_ne_zero hone

/-- The operands of normalized evidence do not wrap. -/
theorem normalized_values (h : Accepted spec kind inner py blocks) (hf : WithinField spec evidence)
    (hn : (⟨spec.batchSize, spec.policyParameters, decision⟩ : GeneratedReferencePolicy).normalize evidence = .ok n)
    (hac : n.batch.activeCount ≤ spec.batchSize) : ValuesBelow fieldBound n.batch spec.batchSize inner.values := by
  obtain ⟨⟨size, -, hprep⟩, hparams⟩ := GeneratedReferencePolicy.normalize_prepared hn
  have hvalues : spec.decision.values = inner.values := by rw [h.decision]; rfl
  have hu32 : ∀ x : ℤ, 0 ≤ x ∧ x < 2 ^ 32 → 0 ≤ x ∧ x < fieldBound := by
    intro x hx
    have hb : ((2 ^ 32 : ℕ) : ℤ) ≤ fieldBound := by exact_mod_cast two_pow_32_le_fieldBound
    norm_num at hb
    omega
  intro v hv i _
  have hacc := accepted_values h v hv
  cases v with
  | constInt c => exact ⟨hacc, hf.constants c (hvalues ▸ hv)⟩
  | param p =>
    rw [Batch.valueAt, normalized_param hparams hacc]
    exact hf.parameters p (hvalues ▸ hv)
  | ref s =>
    rcases hacc with rfl | rfl | rfl
    · exact hu32 _ (getD_u32 hprep.balancesU32 i)
    · exact hu32 _ (getD_u32 hprep.limitsU32 i)
    · have hlt : (n.batch.activeCount : ℤ) < fieldBound := by exact_mod_cast hac.trans_lt hf.batch
      exact ⟨Int.natCast_nonneg _, hlt⟩

/-- The template of an accepted spec has the blocks it is rendered to. -/
theorem template_of_accepted {poseidon : List F → F} (h : Accepted spec kind inner py blocks)
    (hw : GeneratedTemplate poseidon spec w) : TemplateHolds poseidon spec (buildRoot kind inner).1 blocks w := by
  obtain ⟨kind', inner', blocks', hd, hb, hw⟩ := hw
  obtain ⟨rfl, rfl⟩ : kind = kind' ∧ inner = inner' := by simpa using h.decision.symm.trans hd
  obtain rfl : blocks = blocks' := Except.ok.inj (h.circom.symm.trans hb)
  exact hw

/-- **In every solution the root is the decision.** -/
theorem template_root (h : Accepted spec kind inner py blocks) (hf : WithinField spec evidence)
    (hn : (⟨spec.batchSize, spec.policyParameters, decision⟩ : GeneratedReferencePolicy).normalize evidence = .ok n)
    (hin : n.batch.Inputs spec.batchSize spec.policyParameters.keys (blockCells w))
    (hw : GeneratedHolds spec.batchSize blocks (blockCells w)) :
    n.batch.activeCount ≤ spec.batchSize ∧
      w (.signal (.value (buildRoot kind inner).1) 0) =
        bit ((DecisionExpr.aggregate kind inner).holdsAt n.batch 0) := by
  have hp := fieldBound_shift
  have hactive : n.batch.activeCount < fieldBound := by
    obtain ⟨⟨size, hsize, hprep⟩, -⟩ := GeneratedReferencePolicy.normalize_prepared hn
    have hle := hprep.activeLe
    have hmax : maxBatchSize = 250 := rfl
    have hbound := two_pow_32_le_fieldBound
    have hb := hf.batch
    dsimp only at hsize
    simp only [NormalizedEvidence.batch]
    omega
  have hle := active_le hf.batch hactive hw hin.activeCount
  refine ⟨hle, ?_⟩
  refine root_value (w := blockCells w) hle ?_ (comparisonMeans_below hin (normalized_values h hf hn hle))
    (generatedHolds_agg h.circom hw) spec.batchPos
  intro agg hagg i hi
  have hb := hf.batch
  have hflag := aggHolds_flag hagg hi
  rw [hin.activeCount] at hflag
  rw [lessThan_sound two_pow_17_le (by omega) (by omega) hflag.1, bit_eq_ite]

/-- What the decision of the generated module evaluates to on normalized evidence. -/
theorem module_reading (h : Accepted spec kind inner py blocks)
    (hn : (⟨spec.batchSize, spec.policyParameters, decision⟩ : GeneratedReferencePolicy).normalize evidence = .ok n) :
    (py.rename (spec.key I)).eval n.env =
      if spec.finds I n.batch then some (spec.decision.holdsAt (spec.found I n.batch) 0) else none := by
  obtain ⟨⟨size, -, hprep⟩, hparams⟩ := GeneratedReferencePolicy.normalize_prepared hn
  have hle := hprep.activeLe
  have hpos := hprep.activePos
  -- the module reads the same environment from the evidence as from its batch
  have henv : n.env = (n.batch.normalized spec.policyParameters.keys).env := by
    have hac : ((n.activeCount.toInt.toNat : ℕ) : ℤ) = n.activeCount.toInt := Int.toNat_of_nonneg (by omega)
    have hmap : n.policyParameters = spec.policyParameters.keys.map fun name => (name, n.batch.params name) := by
      rw [resolvePolicyParameters_value hparams]
      apply List.map_congr_left
      intro name hname
      rw [normalized_param hparams hname]
    unfold NormalizedEvidence.env Batch.normalized
    rw [← hmap]
    simp only [NormalizedEvidence.batch, hac]
    rfl
  rw [henv]
  refine loaded_reading h ?_ ?_
  · simp only [NormalizedEvidence.batch, hprep.lenBalances]
    omega
  · simp only [NormalizedEvidence.batch, hprep.lenLimits]
    omega

/-! ## What stands at an index -/

/-- The signal at index `k` carries the value of `e`: as an output, or as the active count among
the public inputs. -/
def SignalIs (spec : PolicyDSLSpec) (k : ℕ) (e : OutputExpr) : Prop :=
  (∃ o, spec.outputs.items[k]? = some o ∧ o.2.expr = e) ∨
    e = .activeCount ∧ k = spec.outputs.items.length + spec.batchSize

/-- **The declarations match**: every output has the type of its expression and the index of a
signal that carries it, no output is the parameter hash, and the attestation reads the decision
at such an index, with 1 for pass. -/
structure OutputsDeclared (repr : Json → String) (spec : PolicyDSLSpec) : Prop where
  types : ∀ o ∈ spec.outputs.items, o.2.expr.signalType = some o.2.valueType
  indices : ∀ o ∈ spec.outputs.items, SignalIs spec o.2.signalIndex o.2.expr
  decisionIndex : ∃ k : ℕ,
    pyIntOf repr ((spec.attestation.get? "decision_signal_index").getD (.int 0)) = .ok (k : ℤ) ∧
      SignalIs spec k .decision
  passValue : ((spec.attestation.get? "pass_signal_value").getD (.str "1")).pyStr repr = "1"

theorem publicInputs_activeCount (spec : PolicyDSLSpec) (w : Cell → F) :
    (publicInputs spec w)[spec.batchSize]? = some (w (.signal .activeCount 0)) := by
  have hlen : ((List.range spec.batchSize).map fun i => w (.signal .limits i)).length = spec.batchSize := by
    rw [List.length_map, List.length_range]
  unfold publicInputs
  rw [List.append_assoc, List.getElem?_append_right (by rw [hlen]), hlen, Nat.sub_self]
  rfl

variable {poseidon : List F → F} {rootId : ℕ}

/-- **What stands at the index of a signal.** -/
theorem signal_is (hw : TemplateHolds poseidon spec rootId blocks w) {k : ℕ} {e : OutputExpr} (hs : SignalIs spec k e) :
    (publicSignals spec w)[k]? =
      some (fieldText ((outputWire rootId (decide (spec.policyParameters.keys ≠ [])) e).read w 0)) := by
  unfold publicSignals
  rw [List.getElem?_map]
  rcases hs with ⟨o, ho, rfl⟩ | ⟨rfl, rfl⟩
  · have hline : w (.output o.1) = (outputWire rootId (decide (spec.policyParameters.keys ≠ [])) o.2.expr).read w 0 :=
      hw.outputs o (List.mem_of_getElem? ho)
    have hlt := (List.getElem?_eq_some_iff.1 ho).1
    rw [List.getElem?_append_left (by rwa [List.length_map]), List.getElem?_map, ho, ← hline]
    rfl
  · rw [List.getElem?_append_right (by rw [List.length_map]; omega), List.length_map, Nat.add_sub_cancel_left,
      publicInputs_activeCount]
    rfl

theorem fieldText_bit (t : Bool) : fieldText (bit t) = .str (if t then "1" else "0") := by
  cases t with
  | false =>
    rw [bit_false, fieldText, ZMod.val_zero]
    rfl
  | true =>
    have hone : (1 : F).val = 1 := by
      have := val_nat (n := 1) (by norm_num)
      rwa [Nat.cast_one] at this
    rw [bit_true, fieldText, hone]
    rfl

theorem fieldText_nat {m : ℕ} (h : m < fieldBound) : fieldText (m : F) = .str m.repr := by
  have hp := fieldBound_shift
  rw [fieldText, ZMod.val_natCast_of_lt (by omega)]

theorem fieldBound_digits : fieldBound < 10 ^ maxStrDigits := by
  have hlt : fieldBound < 10 ^ 100 := by
    unfold fieldBound bn254
    norm_num
  exact hlt.trans_le (Nat.pow_le_pow_right (by norm_num) (by unfold maxStrDigits; norm_num))

/-- The circuit track reads a signal under the type of its expression. -/
theorem normalizeSignalValue_ok {repr : Json → String} {name : String} {e : OutputExpr} {t : ValueType} {m : ℕ}
    {allValid : Bool} (htype : e.signalType = some t) (hm : m < fieldBound)
    (hdec : w (.signal (.value rootId) 0) = bit allValid) (hac : w (.signal .activeCount 0) = (m : F)) (b : Bool) :
    normalizeSignalValue repr name (fieldText ((outputWire rootId b e).read w 0)) t = .ok (outputAt m allValid e) := by
  cases e with
  | decision =>
    obtain rfl := Option.some.inj htype
    have hread : (outputWire rootId b .decision).read w 0 = bit allValid := hdec
    rw [hread, fieldText_bit]
    have hstrip0 : strip "0" = "0" := by decide +kernel
    have hstrip1 : strip "1" = "1" := by decide +kernel
    cases allValid with
    | false => simp [normalizeSignalValue, Json.pyStr, hstrip0, outputAt]
    | true => simp [normalizeSignalValue, Json.pyStr, hstrip1, outputAt]
  | activeCount =>
    obtain rfl := Option.some.inj htype
    have hread : (outputWire rootId b .activeCount).read w 0 = (m : F) := hac
    have hint : pyInt? m.repr = some (m : ℤ) := pyInt?_repr (hm.trans fieldBound_digits)
    rw [hread, fieldText_nat hm]
    simp only [normalizeSignalValue, Json.pyStr, hint]
    rfl
  | policyParamsHash => cases htype

theorem signalAt_ok {policyId name : String} {k : ℕ} {signals : List Json} {v : Json} (h : signals[k]? = some v) :
    signalAt policyId name (k : ℤ) signals = .ok v := by
  unfold signalAt
  rw [if_pos (Int.natCast_nonneg k), Int.toNat_natCast, h]

/-- **The circuit track of a generated circuit.** -/
theorem evaluateCircuitTrack_generated {repr : Json → String} {m : ℕ} {allValid : Bool}
    (hw : TemplateHolds poseidon spec rootId blocks w) (hd : OutputsDeclared repr spec) (hm : m < fieldBound)
    (hdec : w (.signal (.value rootId) 0) = bit allValid) (hac : w (.signal .activeCount 0) = (m : F)) :
    evaluateCircuitTrack repr spec.policyId spec.attestation spec.differentialOutputs (publicSignals spec w) true =
      .ok ⟨if allValid then .pass else .fail, spec.outputs.items.map fun o => (o.1, outputAt m allValid o.2.expr)⟩ := by
  have hdecision : circuitDecision repr spec.policyId spec.attestation (publicSignals spec w) true =
      .ok (if allValid then .pass else .fail) := by
    obtain ⟨k, hk, hs⟩ := hd.decisionIndex
    have hsignal := signal_is hw hs
    have hread : (outputWire rootId (decide (spec.policyParameters.keys ≠ [])) .decision).read w 0 =
      bit allValid := hdec
    rw [hread, fieldText_bit] at hsignal
    simp only [circuitDecision, not_true_eq_false, if_false, bind_ok, pure_ok, hd.passValue]
    refine ⟨k, hk, _, signalAt_ok hsignal, ?_⟩
    cases allValid <;> rfl
  have houts : circuitOutputs repr spec.policyId spec.differentialOutputs (publicSignals spec w) =
      .ok (spec.outputs.items.map fun o => (o.1, outputAt m allValid o.2.expr)) := by
    unfold circuitOutputs
    rw [mapM_ok, PolicyDSLSpec.differentialOutputs]
    dsimp only
    rw [List.forall₂_map_left_iff, List.forall₂_map_right_iff, List.forall₂_same]
    intro o ho
    simp only [circuitOutput, bind_ok, pure_ok]
    exact ⟨_, signalAt_ok (signal_is hw (hd.indices o ho)), _,
      normalizeSignalValue_ok (hd.types o ho) hm hdec hac _, rfl⟩
  unfold evaluateCircuitTrack
  rw [hdecision, houts]
  rfl

/-- The cells of the whole template, from those of its blocks. -/
def extendCells (poseidon : List F → F) (spec : PolicyDSLSpec) (rootId : ℕ) (v : Assignment) : Cell → F :=
  let hash := poseidon ((List.range spec.policyParameters.keys.length).map (v .policyParams))
  fun
    | .signal s i => v s i
    | .boundsActiveCount => v .activeCount 0
    | .hasherInput p => v .policyParams p
    | .hasherOut => hash
    | .computedPolicyParamsHash => hash
    | .expectedPolicyParamsHash => hash
    | .output name => match (spec.outputs.get? name).map OutputSpec.expr with
      | some .decision => v (.value rootId) 0
      | some .activeCount => v .activeCount 0
      | some .policyParamsHash => if spec.policyParameters.keys ≠ [] then hash else 0
      | none => 0

/-- **Every solution of the blocks extends to the template.** -/
theorem template_satisfiable (poseidon : List F → F) {v : Assignment} (hv : GeneratedHolds spec.batchSize blocks v) :
    TemplateHolds poseidon spec rootId blocks (extendCells poseidon spec rootId v) where
  bounds := rfl
  generated := hv
  parameters := fun _ => ⟨fun _ _ => rfl, rfl, rfl, rfl⟩
  outputs := by
    intro o ho
    have hget : spec.outputs.get? o.1 = some o.2 := Dict.get?_of_mem ho
    unfold WireLine.Holds outputLine Wire.read
    simp only [Wire.cell?, Option.elim_some, extendCells, hget, Option.map_some]
    cases o.2.expr with
    | decision => rfl
    | activeCount => rfl
    | policyParamsHash => by_cases hk : spec.policyParameters.keys = [] <;> simp [outputWire, hk]

/-! ## An output that agrees, and one that cannot -/

/-- What one row of evidence is normalized to. -/
def oneRowNormalized : NormalizedEvidence := ⟨[5], [0], .int 1, []⟩

theorem oneRowNormalized_padded : oneRowNormalized.batch.Padded 1 [] :=
  { oneRow_padded "a" (by decide) with paramsU32 := by simp }

/-- The circuit of a spec of one row without parameters can be solved on that row. -/
theorem oneRow_template {art : CompilerArtifacts} (hgen : generatePolicyArtifacts sha256 spec = .ok art)
    (hc : ConstantsBelow (2 ^ 32) spec.decision) (hN : spec.batchSize = 1) (hk : spec.policyParameters.keys = [])
    (poseidon : List F → F) : ∃ w, oneRowNormalized.batch.Inputs spec.batchSize spec.policyParameters.keys
      (blockCells w) ∧
      GeneratedTemplate poseidon spec w := by
  obtain ⟨kind, inner, py, blocks, h⟩ := generatePolicyArtifacts_ok hgen
  have hp := oneRowNormalized_padded
  rw [← hN, ← hk] at hp
  rw [h.decision] at hc
  obtain ⟨v, hin, hv⟩ := generated_satisfiable h hc (by omega) hp
  exact ⟨extendCells poseidon spec (buildRoot kind inner).1 v, hin, kind, inner, blocks, h.decision, h.circom,
    template_satisfiable poseidon hv⟩

/-- A registry with one policy. -/
def onePolicy (policy : GeneratedReferencePolicy) (sha256 : String → String) (outputs : Dict OutputSpec) :
    String → Option ReferencePolicy := fun _ => some (policy.reference sha256 outputs)

/-- One boolean output, the decision at index 0. -/
def decisionSpec : PolicyDSLSpec := rowSpec balanceAbove (by decide)

theorem decisionSpec_constants : ConstantsBelow (2 ^ 32) decisionSpec.decision := by
  intro c hc
  have hmem : ValueRef.constInt c ∈ [ValueRef.ref "balances", ValueRef.constInt 100] := hc
  simp only [List.mem_cons, reduceCtorEq, ValueRef.constInt.injEq, List.not_mem_nil, or_false, false_or] at hmem
  subst hmem
  norm_num

theorem decisionSpec_withinField : WithinField decisionSpec oneRowEvidence where
  constants := by
    intro c hc
    have hlt := decisionSpec_constants c hc
    exact hlt.trans_le (by exact_mod_cast two_pow_32_le_fieldBound)
  parameters := by
    intro name hname
    have hmem : ValueRef.param name ∈ [ValueRef.ref "balances", ValueRef.constInt 100] := hname
    simp at hmem
  batch := lt_of_lt_of_le (by decide) two_pow_32_le_fieldBound

theorem decisionSpec_declared (repr : Json → String) : OutputsDeclared repr decisionSpec where
  types := by decide
  indices := by
    intro o ho
    have hmem : o ∈ [("all_valid", (⟨.decision, .bool, 0⟩ : OutputSpec))] := ho
    rw [List.mem_singleton] at hmem
    subst hmem
    exact Or.inl ⟨_, rfl, rfl⟩
  decisionIndex := ⟨0, rfl, Or.inl ⟨_, rfl, rfl⟩⟩
  passValue := rfl

theorem rowPolicy_generated (spec : PolicyDSLSpec) (hdec : spec.decision = .aggregate .any balanceAbove)
    (hN : spec.batchSize = 1) (hk : spec.policyParameters = .empty) (hcontained : spec.contained = true)
    (himports : spec.imports plainPython = true) : loadPolicy plainPython spec = some (rowPolicy 100) := by
  have hpy : spec.rendered = some (rowPolicy 100).decision := by
    rw [PolicyDSLSpec.rendered, hdec]
    rfl
  have hkeys : spec.policyParameters.keys.all plainPython.readsWritten = true := by
    rw [hk]
    rfl
  rw [loadPolicy_some hcontained himports hkeys hpy, hN, hk]
  rfl

/-- The same with the parameter hash as a second output. -/
def hashSpec : PolicyDSLSpec :=
  { decisionSpec with
    outputs := ⟨[("all_valid", ⟨.decision, .bool, 0⟩), ("params_hash", ⟨.policyParamsHash, .string, 1⟩)], by simp⟩
    outputsPos := by simp }

/-- SHA-256 on the text of an empty map. -/
def emptyDigest : String → String := fun _ => "44136fa355b3678a1146ad16f7e8649e94fb4fc21fe77e8310c060f61caaff8a"

end Vellum
