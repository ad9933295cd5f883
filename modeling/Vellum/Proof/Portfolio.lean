import Mathlib.Data.List.GetD
import Mathlib.Data.List.Perm.Basic
import Vellum.Proof.Determined
import Vellum.Proof.Explainability
import Vellum.Proof.ShippedPolicies
import Vellum.Spec.Portfolio

/-!
# Rows in any order, portfolios of any size

Both backends decide a batch through arrays, positions and padding. What they decide depends on none
of them: it is a statement about the multiset of rows.

* `holdsAt_iff`: the decision of a batch is the decision of its portfolio.
* `normalize_rows`: when evidence that lists rows is normalized, and to which portfolio.
* `order_irrelevant`: permuted evidence has the same decision and outputs on both tracks.
* `splitIntoBatches_ok`: the batches of a portfolio, and that their rows are its rows.
* `portfolio_decided`: what the batch circuits say together is the decision of the portfolio.
-/

namespace Vellum

open Circomlib

/-! ## The decision of a portfolio -/

variable {B : Batch} {P : Portfolio} {row : ℤ × ℤ}

theorem card_portfolio (B : Batch) : B.portfolio.rows.card = B.activeCount := by
  rw [Batch.portfolio, Multiset.card_map, Multiset.card_range]

theorem mem_portfolio : row ∈ B.portfolio.rows ↔ ∃ i < B.activeCount, B.row i = row := by
  simp only [Batch.portfolio, Multiset.mem_map, Multiset.mem_range]

/-- A value of a batch is a value of its portfolio. -/
theorem valueOf_row (B : Batch) (i : ℕ) (v : ValueRef) : B.portfolio.valueOf (B.row i) v = B.valueAt i v := by
  cases v with
  | constInt c => rfl
  | param p => rfl
  | ref s =>
    unfold Portfolio.valueOf Batch.valueAt
    rw [card_portfolio]
    rfl

namespace DecisionExpr

theorem holdsEach_iff {args : List DecisionExpr} : HoldsEach P row args ↔ ∀ e ∈ args, e.Holds P row := by
  induction args with
  | nil => simp [HoldsEach]
  | cons e es ih => rw [HoldsEach, ih, List.forall_mem_cons]

theorem holdsSome_iff {args : List DecisionExpr} : HoldsSome P row args ↔ ∃ e ∈ args, e.Holds P row := by
  induction args with
  | nil => simp [HoldsSome]
  | cons e es ih => rw [HoldsSome, ih, List.exists_mem_cons_iff]

/-- **The decision of a batch is the decision of its portfolio**, by induction on the decision. A
quantifier over positions is one over rows. -/
theorem holdsAt_iff (e : DecisionExpr) (i : ℕ) : e.holdsAt B i = true ↔ e.Holds B.portfolio (B.row i) := by
  induction e generalizing i with
  | comparison c => rw [holdsAt, Holds, valueOf_row, valueOf_row]
  | and args ih =>
    have hall : holdsAll B i args = true ↔ ∀ e ∈ args, e.holdsAt B i = true := by
      rw [holdsAll_eq, List.all_eq_true]
    rw [holdsAt, Holds, hall, holdsEach_iff]
    exact forall₂_congr fun e he => ih e he i
  | or args ih =>
    have hany : holdsAny B i args = true ↔ ∃ e ∈ args, e.holdsAt B i = true := by
      rw [holdsAny_eq, List.any_eq_true]
    rw [holdsAt, Holds, hany, holdsSome_iff]
    exact exists_congr fun e => and_congr_right fun he => ih e he i
  | not inner ih => rw [holdsAt, Holds, Bool.not_eq_true', ← Bool.not_eq_true, ih]
  | aggregate kind inner ih =>
    cases kind with
    | all =>
      rw [holdsAt, Holds, List.all_eq_true]
      constructor
      · intro h other hother
        obtain ⟨j, hj, rfl⟩ := mem_portfolio.1 hother
        exact (ih j).1 (h j (List.mem_range.2 hj))
      · intro h j hj
        exact (ih j).2 (h _ (mem_portfolio.2 ⟨j, List.mem_range.1 hj, rfl⟩))
    | any =>
      rw [holdsAt, Holds, List.any_eq_true]
      constructor
      · rintro ⟨j, hj, h⟩
        exact ⟨_, mem_portfolio.2 ⟨j, List.mem_range.1 hj, rfl⟩, (ih j).1 h⟩
      · rintro ⟨other, hother, h⟩
        obtain ⟨j, hj, rfl⟩ := mem_portfolio.1 hother
        exact ⟨j, List.mem_range.2 hj, (ih j).2 h⟩

end DecisionExpr

/-- At its top a decision does not look at the row it stands at. -/
theorem holds_aggregate {kind : AggregateKind} {inner : DecisionExpr} {B' : Batch} (h : B.portfolio = B'.portfolio) :
    (DecisionExpr.aggregate kind inner).holdsAt B 0 = (DecisionExpr.aggregate kind inner).holdsAt B' 0 := by
  rw [Bool.eq_iff_iff, DecisionExpr.holdsAt_iff, DecisionExpr.holdsAt_iff, h]
  cases kind <;> rfl

/-! ## Evidence that lists rows -/

/-- A row as it stands in evidence. -/
def rowJson : ℤ × ℤ → Json × Json := Prod.map .int .int

/-- Rows of unsigned 32-bit integers. -/
def RowsU32 (rows : List (ℤ × ℤ)) : Prop := U32 (rows.map Prod.fst) ∧ U32 (rows.map Prod.snd)

/-- A list passes iff it is one of unsigned 32-bit integers. -/
theorem requireIntegers_ok {field : String} {items : List Json} {idx : ℕ} {is : List ℤ} :
    requireIntegers field (some 0) (some maxUint32) idx items = .ok is ↔ items = is.map .int ∧ U32 is := by
  constructor
  · intro h
    have hitems : items = is.map .int := by
      induction items generalizing idx is with
      | nil =>
        obtain rfl := Except.ok.inj h
        rfl
      | cons v vs ih =>
        simp only [requireIntegers, bind_ok, pure_ok] at h
        obtain ⟨i, hi, js, hjs, rfl⟩ := h
        have hv : v = .int i := by
          cases v with
          | int x =>
            simp only [requireInteger] at hi
            split_ifs at hi
            rw [Except.ok.inj hi]
          | _ => cases hi
        rw [hv, ih hjs, List.map_cons]
    rw [hitems, requireIntegers_ints] at h
    exact ⟨hitems, h.1⟩
  · rintro ⟨rfl, hu⟩
    exact requireIntegers_ints.2 ⟨hu, rfl⟩

/-- The normalized form of rows. -/
def normalizedRows (size : ℕ) (rows : List (ℤ × ℤ)) (params : List (String × ℤ)) : NormalizedEvidence :=
  ⟨padTo size (rows.map Prod.fst), padTo size (rows.map Prod.snd), .int rows.length, params⟩

/-- **When evidence that lists rows is normalized.** -/
theorem normalize_rows {policy : GeneratedReferencePolicy} {items : List (Json × Json)} {payload : Json}
    {n : NormalizedEvidence} : policy.normalize (rowEvidence items payload) = .ok n ↔
      ∃ rows params, resolvePolicyParameters policy.parameters (some payload) = .ok params ∧
        items = rows.map rowJson ∧ RowsU32 rows ∧ 1 ≤ rows.length ∧ rows.length ≤ policy.batchSize ∧
        n = normalizedRows policy.batchSize rows params := by
  have hp : (rowEvidence items payload).get? "policy_parameters" = some payload := rfl
  have hi : (rowEvidence items payload).get? "private_input" = none := rfl
  have hb : (rowEvidence items payload).get? "balances" = some (.arr (items.map Prod.fst)) := rfl
  have hl : (rowEvidence items payload).get? "limits" = some (.arr (items.map Prod.snd)) := rfl
  simp only [GeneratedReferencePolicy.normalize, bind_ok, hp, hi, hb, hl, requireIntegerList, requireIntegers_ok,
    batchResult_ok]
  constructor
  · rintro ⟨params, hparams, bs, ⟨hbs, hub⟩, ls, ⟨hls, hul⟩, p, hprep, rfl⟩
    obtain ⟨hpos, hlen, hle, -, -, rfl⟩ := batchPrepareInput_ok.1 hprep
    have hfst : (bs.zip ls).map Prod.fst = bs := List.map_fst_zip (by omega)
    have hsnd : (bs.zip ls).map Prod.snd = ls := List.map_snd_zip (by omega)
    have hzip : (bs.zip ls).length = bs.length := by rw [List.length_zip]; omega
    refine ⟨bs.zip ls, params, hparams, ?_, ⟨by rwa [hfst], by rwa [hsnd]⟩, by omega, by omega, ?_⟩
    · have hitems : items = (items.map Prod.fst).zip (items.map Prod.snd) := by
        rw [List.zip_map', List.map_id']
      rw [hitems, hbs, hls, List.zip_map, rowJson]
    · rw [normalizedRows, hfst, hsnd, hzip]
  · rintro ⟨rows, params, hparams, rfl, ⟨hub, hul⟩, hpos, hle, rfl⟩
    refine ⟨params, hparams, rows.map Prod.fst, ⟨?_, hub⟩, rows.map Prod.snd, ⟨?_, hul⟩, _, batchPrepareInput_ok.2
      ⟨?_, ?_, ?_, hub, hul, rfl⟩, ?_⟩
    · rw [List.map_map, List.map_map]
      rfl
    · rw [List.map_map, List.map_map]
      rfl
    · rwa [List.length_map]
    · rw [List.length_map, List.length_map]
    · rwa [List.length_map]
    · rw [normalizedRows, List.length_map]

/-- The padded form of rows is prepared. -/
theorem rows_prepared {size : ℕ} {rows : List (ℤ × ℤ)} (hu : RowsU32 rows) (hpos : 1 ≤ rows.length)
    (hle : rows.length ≤ size) :
    PreparedAt size (padTo size (rows.map Prod.fst)) (padTo size (rows.map Prod.snd)) (.int rows.length) := by
  have hprepared : batchPrepareInput ((rows.map Prod.fst).map .int) ((rows.map Prod.snd).map .int) size =
      .ok ⟨padTo size (rows.map Prod.fst), padTo size (rows.map Prod.snd), .int rows.length⟩ := by
    refine batchPrepareInput_ok.2 ⟨?_, ?_, ?_, hu.1, hu.2, ?_⟩
    · rwa [List.length_map]
    · rw [List.length_map, List.length_map]
    · rwa [List.length_map]
    · rw [List.length_map]
  exact batchPrepareInput_prepared hprepared

/-- The active rows of a padded batch. -/
theorem padded_portfolio (size : ℕ) (rows : List (ℤ × ℤ)) (params : String → ℤ) :
    (⟨rows.length, padTo size (rows.map Prod.fst), padTo size (rows.map Prod.snd), params⟩ : Batch).portfolio =
      ⟨rows, params⟩ := by
  have hrows : (List.range rows.length).map (Batch.row
      ⟨rows.length, padTo size (rows.map Prod.fst), padTo size (rows.map Prod.snd), params⟩) = rows := by
    refine List.ext_getElem (by rw [List.length_map, List.length_range]) fun i hi hi' => ?_
    rw [List.getElem_map, List.getElem_range, Batch.row]
    dsimp only
    rw [padTo_getD, padTo_getD, List.getD_eq_getElem _ _ (by rwa [List.length_map]),
      List.getD_eq_getElem _ _ (by rwa [List.length_map]), List.getElem_map, List.getElem_map]
  unfold Batch.portfolio
  congr 1
  exact congrArg Multiset.ofList hrows

/-- The items of a permuted list are permuted. -/
theorem map_perm {α β : Type} {f : α → β} {l : List α} {l' : List β} (h : (l.map f).Perm l') :
    ∃ k, l.Perm k ∧ l' = k.map f := by
  have hall : List.Forall₂ (fun b a => b = f a) (l.map f) l := by
    rw [List.forall₂_map_left_iff, List.forall₂_same]
    exact fun _ _ => rfl
  obtain ⟨k, hk, hperm⟩ := List.perm_comp_forall₂ h.symm hall
  refine ⟨k, hperm.symm, ?_⟩
  rw [← List.forall₂_eq_eq_eq, List.forall₂_map_right_iff]
  exact hk

variable {sha256 : String → String} {spec : PolicyDSLSpec} {policy : GeneratedReferencePolicy}
  {items items' : List (Json × Json)} {payload : Json} {n n' : NormalizedEvidence}

/-- What the order of the rows leaves of normalized evidence. -/
structure SameRows (n n' : NormalizedEvidence) : Prop where
  portfolio : n.batch.portfolio = n'.batch.portfolio
  activeCount : n.activeCount = n'.activeCount
  params : n.policyParameters = n'.policyParameters

/-- **Permuted rows are normalized to the same portfolio.** -/
theorem normalize_perm (hperm : items.Perm items') (hn : policy.normalize (rowEvidence items payload) = .ok n) :
    ∃ n', policy.normalize (rowEvidence items' payload) = .ok n' ∧ SameRows n n' := by
  obtain ⟨rows, params, hparams, rfl, hu, hpos, hle, rfl⟩ := normalize_rows.1 hn
  obtain ⟨rows', hrows, rfl⟩ := map_perm hperm
  have hlen : rows.length = rows'.length := hrows.length_eq
  have hu' : RowsU32 rows' := by
    refine ⟨fun x hx => hu.1 x ?_, fun x hx => hu.2 x ?_⟩
    · exact (hrows.map Prod.fst).mem_iff.2 hx
    · exact (hrows.map Prod.snd).mem_iff.2 hx
  refine ⟨_, normalize_rows.2 ⟨rows', params, hparams, rfl, hu', by omega, by omega, rfl⟩, ?_, ?_, rfl⟩
  · have hleft := padded_portfolio policy.batchSize rows fun name => (params.lookup name).getD 0
    have hright := padded_portfolio policy.batchSize rows' fun name => (params.lookup name).getD 0
    refine hleft.trans (Eq.trans ?_ hright.symm)
    rw [Multiset.coe_eq_coe.2 hrows]
  · rw [normalizedRows, normalizedRows, hlen]

/-- Equal parameters stand in the cells of two batches. -/
theorem params_same {names : List String} {N : ℕ} {w w' : Assignment} (hn : n.policyParameters = n'.policyParameters)
    (hin : n.batch.Inputs N names w) (hin' : n'.batch.Inputs N names w') :
    ∀ p < names.length, w .policyParams p = w' .policyParams p := by
  intro p hp
  have hname : names[p]? = some names[p] := List.getElem?_eq_getElem hp
  rw [hin.params p _ hname, hin'.params p _ hname]
  simp only [NormalizedEvidence.batch, hn]

/-- **Solutions with one root value on the same rows publish the same outputs.** -/
theorem outputs_same {poseidon : List F → F} {rootId : ℕ} {blocks : List CircomBlock} {w w' : Cell → F}
    (hrows : SameRows n n') (hroot : w (.signal (.value rootId) 0) = w' (.signal (.value rootId) 0))
    (hin : n.batch.Inputs spec.batchSize spec.policyParameters.keys (blockCells w))
    (hin' : n'.batch.Inputs spec.batchSize spec.policyParameters.keys (blockCells w'))
    (hw : TemplateHolds poseidon spec rootId blocks w) (hw' : TemplateHolds poseidon spec rootId blocks w') :
    ∀ o ∈ spec.outputs.items, w (.output o.1) = w' (.output o.1) := by
  have hcount : w (.signal .activeCount 0) = w' (.signal .activeCount 0) := by
    refine hin.activeCount.trans (Eq.trans ?_ hin'.activeCount.symm)
    simp only [NormalizedEvidence.batch, hrows.activeCount]
  intro o ho
  refine (hw.outputs o ho).trans (Eq.trans ?_ (hw'.outputs o ho).symm)
  unfold outputLine Wire.read
  cases o.2.expr with
  | decision => exact hroot
  | activeCount => exact hcount
  | policyParamsHash =>
    by_cases hne : spec.policyParameters.keys ≠ []
    · obtain ⟨-, -, hcomputed⟩ := parameters_determined (hw.parameters hne) (hw'.parameters hne)
        (params_same hrows.params hin hin')
      simpa [outputWire, hne, Wire.cell?] using hcomputed
    · simp [outputWire, hne, Wire.cell?]

/-- A module that finds a parameter under every literal finds what it reads. -/
theorem finds_all {I : Interpreter}
    (h : ∀ name ∈ spec.decision.paramNames, spec.key I name ∈ spec.policyParameters.keys) (B : Batch) :
    spec.finds I B = true := by
  unfold PolicyDSLSpec.finds
  simp only [List.all_eq_true, decide_eq_true_eq]
  exact fun name hname => h name (namesRead_subset _ _ 0 name hname)

/-- The parameters that a module finds do not look at the rows. -/
theorem found_portfolio (I : Interpreter) (spec : PolicyDSLSpec) {B B' : Batch} (h : B.portfolio = B'.portfolio) :
    (spec.found I B).portfolio = (spec.found I B').portfolio := by
  have hrows : B.portfolio.rows = B'.portfolio.rows := congrArg Portfolio.rows h
  have hparams : B.params = B'.params := congrArg Portfolio.params h
  have hfound : ∀ B : Batch, (spec.found I B).portfolio = ⟨B.portfolio.rows, B.params ∘ spec.key I⟩ := fun _ => rfl
  rw [hfound, hfound, hrows, hparams]

/-- **The order of the rows does not matter.** Where the policy of a spec that the compiler accepts
normalizes evidence, it normalizes every permutation of its rows. If each parameter literal names a
parameter, the reference policy has one decision and one set of outputs for both; and if nothing wraps
in the field, all solutions of the circuit publish the same outputs, the active count and the parameter
hash among them. -/
theorem order_irrelevant {I : Interpreter} {art : CompilerArtifacts}
    (hgen : generatePolicyArtifacts sha256 spec = .ok art) (hcontained : spec.contained = true)
    (hpolicy : loadPolicy I spec = some policy)
    (hkeys : ∀ name ∈ spec.decision.paramNames, spec.key I name ∈ spec.policyParameters.keys)
    (hperm : items.Perm items') (hn : policy.normalize (rowEvidence items payload) = .ok n) :
    ∃ n', policy.normalize (rowEvidence items' payload) = .ok n' ∧
      (∃ decision outputs, policy.evaluateReference n = some decision ∧ policy.evaluateReference n' = some decision ∧
        policy.projectPublicOutputs sha256 (spec.projected I) n = some outputs ∧
        policy.projectPublicOutputs sha256 (spec.projected I) n' = some outputs) ∧
      ∀ poseidon w w', WithinField spec (rowEvidence items payload) →
        n.batch.Inputs spec.batchSize spec.policyParameters.keys (blockCells w) →
        n'.batch.Inputs spec.batchSize spec.policyParameters.keys (blockCells w') →
        GeneratedTemplate poseidon spec w → GeneratedTemplate poseidon spec w' →
        ∀ o ∈ spec.outputs.items, w (.output o.1) = w' (.output o.1) := by
  obtain ⟨kind, inner, py, blocks, h⟩ := generatePolicyArtifacts_ok hgen
  obtain rfl := loadPolicy_accepted h hcontained hpolicy
  obtain ⟨n', hn', hrows⟩ := normalize_perm hperm hn
  have heval : ∀ {m : NormalizedEvidence} {evidence : Json}, (⟨spec.batchSize, spec.policyParameters,
      py.rename (spec.key I)⟩ : GeneratedReferencePolicy).normalize evidence = .ok m →
      (py.rename (spec.key I)).eval m.env = some (spec.decision.holdsAt (spec.found I m.batch) 0) := by
    intro m evidence hm
    rw [module_reading h hm, if_pos (finds_all hkeys m.batch)]
  have hsame : spec.decision.holdsAt (spec.found I n.batch) 0 = spec.decision.holdsAt (spec.found I n'.batch) 0 := by
    rw [h.decision]
    exact holds_aggregate (found_portfolio I spec hrows.portfolio)
  have heval' := heval hn'
  rw [← hsame] at heval'
  set allValid := spec.decision.holdsAt (spec.found I n.batch) 0
  refine ⟨n', hn', ⟨if allValid then .pass else .fail, (spec.projected I).items.map fun o =>
    (o.1, GeneratedReferencePolicy.outputValue sha256 n allValid o.2.expr), ?_, ?_, ?_, ?_⟩, ?_⟩
  · rw [GeneratedReferencePolicy.evaluateReference, heval hn]
    rfl
  · rw [GeneratedReferencePolicy.evaluateReference, heval']
    rfl
  · rw [GeneratedReferencePolicy.projectPublicOutputs, heval hn]
    rfl
  · rw [GeneratedReferencePolicy.projectPublicOutputs, heval', Option.map_some]
    refine congrArg some (List.map_congr_left fun o _ => ?_)
    cases o.2.expr <;> simp only [GeneratedReferencePolicy.outputValue, hrows.activeCount, hrows.params]
  · intro poseidon w w' hf hin hin' hw hw'
    have hw := template_of_accepted h hw
    have hw' := template_of_accepted h hw'
    -- the bounds on the parameters do not look at the rows
    have hf' : WithinField spec (rowEvidence items' payload) := ⟨hf.constants, hf.parameters, hf.batch⟩
    have hroot := (template_root h hf hn hin hw.generated).2
    have hroot' := (template_root h hf' hn' hin' hw'.generated).2
    rw [← holds_aggregate hrows.portfolio] at hroot'
    exact outputs_same hrows (hroot.trans hroot'.symm) hin hin' hw hw'

/-- A spec of two rows. -/
def twoRowSpec : PolicyDSLSpec := { decisionSpec with batchSize := 2, batchPos := by decide }

/-- Two rows, of which one has a balance above 100. -/
def twoRows : List (Json × Json) := [(.int 700, .int 1), (.int 5, .int 0)]

theorem twoRowSpec_withinField (evidence : Json) : WithinField twoRowSpec evidence where
  constants := decisionSpec_withinField.constants
  parameters := by
    intro name hname
    have hmem : ValueRef.param name ∈ [ValueRef.ref "balances", ValueRef.constInt 100] := hname
    simp at hmem
  batch := lt_of_lt_of_le (by decide) two_pow_32_le_fieldBound

/-- The circuit of two rows can be solved on what they are normalized to. -/
theorem twoRow_template {art : CompilerArtifacts} (hgen : generatePolicyArtifacts id twoRowSpec = .ok art)
    {rows : List (ℤ × ℤ)} (hu : RowsU32 rows) (hpos : 1 ≤ rows.length) (hle : rows.length ≤ 2) :
    ∃ w, (normalizedRows 2 rows []).batch.Inputs 2 [] (blockCells w) ∧ GeneratedTemplate List.sum twoRowSpec w := by
  obtain ⟨kind, inner, py, blocks, h⟩ := generatePolicyArtifacts_ok hgen
  have hc : ConstantsBelow (2 ^ 32) twoRowSpec.decision := decisionSpec_constants
  rw [h.decision] at hc
  have hprep : PreparedAt 2 (normalizedRows 2 rows []).balances (normalizedRows 2 rows []).limits
      (normalizedRows 2 rows []).activeCount := rows_prepared hu hpos hle
  obtain ⟨v, hin, hv⟩ := generated_satisfiable h hc (by decide) (prepared_padded hprep)
  exact ⟨extendCells List.sum twoRowSpec (buildRoot kind inner).1 v, hin, kind, inner, blocks, h.decision, h.circom,
    template_satisfiable List.sum hv⟩

/-- The two rows in either order, decided and proved. -/
theorem order_irrelevant_swapped : ∃ policy n n' w w', loadPolicy plainPython twoRowSpec = some policy ∧
    policy.normalize (rowEvidence twoRows .null) = .ok n ∧
    policy.normalize (rowEvidence twoRows.reverse .null) = .ok n' ∧
    policy.evaluateReference n' = policy.evaluateReference n ∧
    GeneratedTemplate List.sum twoRowSpec w ∧ GeneratedTemplate List.sum twoRowSpec w' ∧
    w (.output "all_valid") = w' (.output "all_valid") := by
  obtain ⟨art, hgen⟩ := isOk_iff.1 (show (generatePolicyArtifacts id twoRowSpec).isOk = true by decide +kernel)
  have hcontained : twoRowSpec.contained = true := by decide +kernel
  have hkeys : ∀ name ∈ twoRowSpec.decision.paramNames,
      twoRowSpec.key plainPython name ∈ twoRowSpec.policyParameters.keys := by decide +kernel
  obtain ⟨policy, hpolicy⟩ := Option.isSome_iff_exists.1
    (show (loadPolicy plainPython twoRowSpec).isSome = true by decide +kernel)
  have hu : RowsU32 [(700, 1), (5, 0)] := by unfold RowsU32 U32; decide
  have hu' : RowsU32 [(5, 0), (700, 1)] := by unfold RowsU32 U32; decide
  obtain ⟨kind, inner, py, blocks, h⟩ := generatePolicyArtifacts_ok hgen
  obtain rfl := loadPolicy_accepted h hcontained hpolicy
  have hn := (@normalize_rows
    ⟨twoRowSpec.batchSize, twoRowSpec.policyParameters, py.rename (twoRowSpec.key plainPython)⟩
    twoRows .null _).2 ⟨[(700, 1), (5, 0)], [], rfl, rfl, hu, by decide, Nat.le_refl 2, rfl⟩
  obtain ⟨n', hn', ⟨_, _, hleft, hright, -⟩, hcircuit⟩ :=
    order_irrelevant hgen hcontained hpolicy hkeys (List.reverse_perm twoRows).symm hn
  obtain ⟨w, hin, hw⟩ := twoRow_template hgen hu (by decide) (by decide)
  obtain ⟨w', hin', hw'⟩ := twoRow_template hgen hu' (by decide) (by decide)
  have hn'' := (@normalize_rows
    ⟨twoRowSpec.batchSize, twoRowSpec.policyParameters, py.rename (twoRowSpec.key plainPython)⟩
    twoRows.reverse .null _).2 ⟨[(5, 0), (700, 1)], [], rfl, rfl, hu', by decide, Nat.le_refl 2, rfl⟩
  obtain rfl := Except.ok.inj (hn'.symm.trans hn'')
  exact ⟨_, _, _, w, w', hpolicy, hn, hn', hright.trans hleft.symm, hw, hw',
    hcircuit List.sum w w' (twoRowSpec_withinField _) hin hin' hw hw' ("all_valid", ⟨.decision, .bool, 0⟩)
      (List.mem_singleton.2 rfl)⟩

/-! ## A portfolio in batches -/

variable {rows : List (ℤ × ℤ)}

/-- Consecutive pieces of a list are its start. -/
theorem pieces_take {α : Type} (l : List α) (size m : ℕ) :
    ((List.range m).map fun k => (l.drop (k * size)).take size).flatten = l.take (m * size) := by
  induction m with
  | zero => simp
  | succ m ih =>
    rw [List.range_succ, List.map_append, List.flatten_append, ih, Nat.succ_mul, List.take_add]
    simp

/-- The rows of batch `k`. -/
def batchRows (rows : List (ℤ × ℤ)) (k : ℕ) : List (ℤ × ℤ) := (rows.drop (k * maxBatchSize)).take maxBatchSize

/-- How many batches there are. -/
def batchCount (rows : List (ℤ × ℤ)) : ℕ := (rows.length + (maxBatchSize - 1)) / maxBatchSize

/-- The batches have every row, in order. -/
theorem batchRows_flatten (rows : List (ℤ × ℤ)) : ((List.range (batchCount rows)).map (batchRows rows)).flatten = rows := by
  have hle : rows.length ≤ batchCount rows * maxBatchSize := by
    unfold batchCount maxBatchSize
    omega
  have htake := pieces_take rows maxBatchSize (batchCount rows)
  rw [List.take_of_length_le hle] at htake
  exact htake

theorem batchRows_length {k : ℕ} (hk : k < batchCount rows) :
    1 ≤ (batchRows rows k).length ∧ (batchRows rows k).length ≤ maxBatchSize := by
  unfold batchCount at hk
  unfold batchRows
  rw [List.length_take, List.length_drop]
  unfold maxBatchSize at hk ⊢
  omega

theorem batchRows_u32 (h : RowsU32 rows) (k : ℕ) : RowsU32 (batchRows rows k) := by
  have hsub : ∀ r ∈ batchRows rows k, r ∈ rows := fun r hr => List.mem_of_mem_drop (List.mem_of_mem_take hr)
  constructor
  · intro x hx
    obtain ⟨r, hr, rfl⟩ := List.mem_map.1 hx
    exact h.1 _ (List.mem_map_of_mem (hsub r hr))
  · intro x hx
    obtain ⟨r, hr, rfl⟩ := List.mem_map.1 hx
    exact h.2 _ (List.mem_map_of_mem (hsub r hr))

/-- What a batch of these rows is prepared to. -/
def preparedRows (rows : List (ℤ × ℤ)) : PreparedBatchInput :=
  ⟨padTo maxBatchSize (rows.map Prod.fst), padTo maxBatchSize (rows.map Prod.snd), .int rows.length⟩

/-- **The batches of a portfolio.** -/
theorem splitIntoBatches_ok (h : RowsU32 rows) : splitIntoBatches (rows.map Prod.fst) (rows.map Prod.snd) =
    .ok ((List.range (batchCount rows)).map fun k => preparedRows (batchRows rows k)) := by
  have hcount : ((rows.map Prod.fst).length + (maxBatchSize - 1)) / maxBatchSize = batchCount rows := by
    rw [List.length_map]
    rfl
  unfold splitIntoBatches
  rw [hcount, mapM_ok, List.forall₂_map_right_iff, List.forall₂_same]
  intro k hk
  obtain ⟨hpos, hle⟩ := batchRows_length (List.mem_range.1 hk)
  obtain ⟨hb, hl⟩ := batchRows_u32 h k
  rw [← List.map_drop, ← List.map_drop, ← List.map_take, ← List.map_take, batchPrepareInput_ok]
  change 1 ≤ ((batchRows rows k).map Prod.fst).length ∧ _
  refine ⟨?_, ?_, ?_, hb, hl, ?_⟩
  · rwa [List.length_map]
  · rw [List.length_map, List.length_map]
  · rwa [List.length_map]
  · rw [List.length_map]
    rfl

theorem portfolio_preparedRows (rows : List (ℤ × ℤ)) (params : String → ℤ) :
    ((preparedRows rows).batch params).portfolio = ⟨rows, params⟩ :=
  padded_portfolio maxBatchSize rows params

/-- A decision that looks at its own row is the same in every portfolio. -/
theorem holds_rowLocal {P' : Portfolio} (hparams : P.params = P'.params) {e : DecisionExpr} (h : e.rowLocal = true) :
    e.Holds P row ↔ e.Holds P' row := by
  have hargs : ∀ {args : List DecisionExpr}, DecisionExpr.rowLocalArgs args = true → ∀ e ∈ args, e.rowLocal = true := by
    intro args
    induction args with
    | nil => exact fun _ e he => absurd he List.not_mem_nil
    | cons e es ih =>
      intro h
      rw [DecisionExpr.rowLocalArgs, Bool.and_eq_true] at h
      exact List.forall_mem_cons.2 ⟨h.1, ih h.2⟩
  have hvalue : ∀ v : ValueRef, v ≠ .ref "active_count" → P.valueOf row v = P'.valueOf row v := by
    intro v hv
    cases v with
    | constInt c => rfl
    | param p => exact congrFun hparams p
    | ref s =>
      have hs : s ≠ "active_count" := fun heq => hv (congrArg ValueRef.ref heq)
      simp only [Portfolio.valueOf, hs, if_false, hparams]
  induction e with
  | comparison c =>
    rw [DecisionExpr.rowLocal, Bool.and_eq_true, bne_iff_ne, bne_iff_ne] at h
    rw [DecisionExpr.Holds, DecisionExpr.Holds, hvalue _ h.1, hvalue _ h.2]
  | and args ih =>
    rw [DecisionExpr.Holds, DecisionExpr.Holds, DecisionExpr.holdsEach_iff, DecisionExpr.holdsEach_iff]
    exact forall₂_congr fun e he => ih e he (hargs h e he)
  | or args ih =>
    rw [DecisionExpr.Holds, DecisionExpr.Holds, DecisionExpr.holdsSome_iff, DecisionExpr.holdsSome_iff]
    exact exists_congr fun e => and_congr_right fun he => ih e he (hargs h e he)
  | not inner ih =>
    rw [DecisionExpr.Holds, DecisionExpr.Holds]
    exact not_congr (ih h)
  | aggregate kind inner => cases h

/-- The batches of a portfolio together decide what it decides. -/
theorem holds_batches {params : String → ℤ} {inner : DecisionExpr} (h : inner.rowLocal = true) (row : ℤ × ℤ) :
    ((DecisionExpr.aggregate .all inner).Holds ⟨rows, params⟩ row ↔ ∀ k < batchCount rows,
      (DecisionExpr.aggregate .all inner).holdsAt ((preparedRows (batchRows rows k)).batch params) 0 = true) ∧
    ((DecisionExpr.aggregate .any inner).Holds ⟨rows, params⟩ row ↔ ∃ k < batchCount rows,
      (DecisionExpr.aggregate .any inner).holdsAt ((preparedRows (batchRows rows k)).batch params) 0 = true) := by
  have hmem : ∀ r, r ∈ rows ↔ ∃ k < batchCount rows, r ∈ batchRows rows k := by
    intro r
    conv_lhs => rw [← batchRows_flatten rows]
    simp only [List.mem_flatten, List.mem_map, List.mem_range, exists_exists_and_eq_and]
  have hinner : ∀ k r, inner.Holds ⟨rows, params⟩ r ↔ inner.Holds ⟨batchRows rows k, params⟩ r := fun k r =>
    holds_rowLocal (by rfl) h
  simp only [DecisionExpr.holdsAt_iff, portfolio_preparedRows, DecisionExpr.Holds, Multiset.mem_coe, hmem]
  constructor
  · constructor
    · intro hall k hk r hr
      exact (hinner k r).1 (hall r ⟨k, hk, hr⟩)
    · rintro hall r ⟨k, hk, hr⟩
      exact (hinner k r).2 (hall k hk r hr)
  · constructor
    · rintro ⟨r, ⟨k, hk, hr⟩, hholds⟩
      exact ⟨k, hk, r, hr, (hinner k r).1 hholds⟩
    · rintro ⟨k, hk, r, hr, hholds⟩
      exact ⟨r, ⟨k, hk, hr⟩, (hinner k r).2 hholds⟩

/-- The items of lists, as a multiset. -/
theorem coe_flatten {α : Type} (l : List (List α)) : (l.map Multiset.ofList).sum = l.flatten := by
  induction l with
  | nil => rfl
  | cons a l ih => rw [List.map_cons, List.sum_cons, ih, Multiset.coe_add, List.flatten_cons]

/-- A prepared batch is padded. -/
theorem preparedRows_padded {k : ℕ} (h : RowsU32 rows) (hk : k < batchCount rows) :
    PreparedAt maxBatchSize (preparedRows (batchRows rows k)).balances (preparedRows (batchRows rows k)).limits
      (preparedRows (batchRows rows k)).activeCount := by
  obtain ⟨hpos, hle⟩ := batchRows_length hk
  exact rows_prepared (batchRows_u32 h k) hpos hle

/-- **What the deployed circuit says of a batch of these rows.** -/
theorem batchCredit_rows {k : ℕ} (h : RowsU32 rows) (hk : k < batchCount rows) {s : BatchCreditSignals}
    (hin : BatchCreditInputs ((preparedRows (batchRows rows k)).batch fun _ => 0) s) (hs : BatchCreditCheck 250 s) :
    (s.allValid = 1 ↔ ∀ r ∈ batchRows rows k, r.2 < r.1) ∧ s.activeCountOut.val = (batchRows rows k).length := by
  set p := preparedRows (batchRows rows k)
  have hprep : PreparedAt maxBatchSize p.balances p.limits p.activeCount := preparedRows_padded h hk
  have hp : (p.batch fun _ => 0).Padded 250 [] :=
    prepared_padded (n := ⟨p.balances, p.limits, p.activeCount, []⟩) hprep
  constructor
  · have hbit : ∀ b : Bool, bit b = 1 ↔ b = true := by
      intro b
      cases b <;> simp
    rw [batchCredit_decision hp hin hs, hbit, DecisionExpr.holdsAt_iff, portfolio_preparedRows, DecisionExpr.Holds]
    refine forall₂_congr fun r _ => ?_
    simp [balanceAboveLimit, DecisionExpr.Holds, ComparisonOp.holds, Portfolio.valueOf]
  · have hcount : s.activeCountOut = ((batchRows rows k).length : F) := hs.activeCountOut.trans hin.activeCount
    have hle := (batchRows_length hk).2
    have hmax : maxBatchSize = 250 := rfl
    rw [hcount, val_nat (by omega)]

/-- **A portfolio of any size is decided batch by batch.** Unsigned 32-bit rows, however many, are split
into prepared batches that together hold every row once; a decision that looks at its own row holds of
all rows iff it holds of every batch, and of some row iff it holds of some batch. In solutions of the
deployed circuit, one for each batch, all are valid iff every balance of the portfolio exceeds its
limit, and the active counts that they publish add up to the number of rows. -/
theorem portfolio_decided (h : RowsU32 rows) : ∃ batches,
    splitIntoBatches (rows.map Prod.fst) (rows.map Prod.snd) = .ok batches ∧
    (∀ p ∈ batches, PreparedAt maxBatchSize p.balances p.limits p.activeCount) ∧
    (∀ params, (batches.map fun p => (p.batch params).portfolio.rows).sum = rows) ∧
    (∀ params inner row, inner.rowLocal = true →
      ((DecisionExpr.aggregate .all inner).Holds ⟨rows, params⟩ row ↔
        ∀ p ∈ batches, (DecisionExpr.aggregate .all inner).holdsAt (p.batch params) 0 = true) ∧
      ((DecisionExpr.aggregate .any inner).Holds ⟨rows, params⟩ row ↔
        ∃ p ∈ batches, (DecisionExpr.aggregate .any inner).holdsAt (p.batch params) 0 = true)) ∧
    ∀ signals, List.Forall₂ (fun p s => BatchCreditInputs (p.batch fun _ => 0) s ∧ BatchCreditCheck 250 s)
        batches signals →
      ((∀ s ∈ signals, s.allValid = 1) ↔ ∀ r ∈ rows, r.2 < r.1) ∧
        (signals.map fun s => s.activeCountOut.val).sum = rows.length := by
  refine ⟨_, splitIntoBatches_ok h, ?_, ?_, ?_, ?_⟩
  · intro p hp
    obtain ⟨k, hk, rfl⟩ := List.mem_map.1 hp
    exact preparedRows_padded h (List.mem_range.1 hk)
  · intro params
    rw [List.map_map]
    have hrows : ((fun p : PreparedBatchInput => (p.batch params).portfolio.rows) ∘ fun k =>
        preparedRows (batchRows rows k)) = fun k => Multiset.ofList (batchRows rows k) := by
      funext k
      rw [Function.comp_apply, portfolio_preparedRows]
    have hsum := coe_flatten ((List.range (batchCount rows)).map (batchRows rows))
    rw [List.map_map, batchRows_flatten] at hsum
    rw [hrows]
    exact hsum
  · intro params inner row hlocal
    obtain ⟨hall, hany⟩ := @holds_batches rows params inner hlocal row
    simp only [hall, hany, List.mem_map, List.mem_range, forall_exists_index, and_imp, forall_apply_eq_imp_iff₂,
      exists_exists_and_eq_and, and_self]
  · intro signals hsignals
    rw [List.forall₂_map_left_iff] at hsignals
    have hsaid : List.Forall₂ (fun k (s : BatchCreditSignals) => (s.allValid = 1 ↔ ∀ r ∈ batchRows rows k, r.2 < r.1) ∧
        s.activeCountOut.val = (batchRows rows k).length) (List.range (batchCount rows)) signals := by
      refine (List.forall₂_and_left _ _).2 ⟨fun k hk => List.mem_range.1 hk, hsignals⟩ |>.imp ?_
      rintro k s ⟨hk, hin, hs⟩
      exact batchCredit_rows h hk hin hs
    have hrows := batchRows_flatten rows
    have hlen : rows.length = ((List.range (batchCount rows)).map fun k => (batchRows rows k).length).sum := by
      conv_lhs => rw [← hrows, List.length_flatten, List.map_map]
      rfl
    have hmem : (∀ r ∈ rows, r.2 < r.1) ↔ ∀ k ∈ List.range (batchCount rows), ∀ r ∈ batchRows rows k, r.2 < r.1 := by
      conv_lhs => rw [← hrows]
      simp only [List.mem_flatten, List.mem_map]
      constructor
      · exact fun hall k hk r hr => hall r ⟨_, ⟨k, hk, rfl⟩, hr⟩
      · rintro hall r ⟨_, ⟨k, hk, rfl⟩, hr⟩
        exact hall k hk r hr
    rw [hmem, hlen]
    clear hsignals hrows hlen hmem
    generalize List.range (batchCount rows) = ks at hsaid
    induction hsaid with
    | nil => simp
    | @cons k s ks signals hks _ ih =>
      rw [List.forall_mem_cons, List.forall_mem_cons, List.map_cons, List.map_cons, List.sum_cons, List.sum_cons, ih.1,
        ih.2, hks.1, hks.2]
      exact ⟨Iff.rfl, rfl⟩

/-- One row more than a batch has. -/
def longPortfolio : List (ℤ × ℤ) := List.replicate 250 (700, 1) ++ [(5, 0)]

theorem mem_longPortfolio {r : ℤ × ℤ} (h : r ∈ longPortfolio) : r = (700, 1) ∨ r = (5, 0) := by
  rcases List.mem_append.1 h with h | h
  · exact Or.inl (List.eq_of_mem_replicate h)
  · exact Or.inr (List.mem_singleton.1 h)

theorem longPortfolio_u32 : RowsU32 longPortfolio := by
  constructor
  · intro x hx
    obtain ⟨r, hr, rfl⟩ := List.mem_map.1 hx
    rcases mem_longPortfolio hr with rfl | rfl <;> norm_num
  · intro x hx
    obtain ⟨r, hr, rfl⟩ := List.mem_map.1 hx
    rcases mem_longPortfolio hr with rfl | rfl <;> norm_num

/-- Two batches, with solutions of their circuits. -/
theorem portfolio_decided_two : ∃ batches signals,
    splitIntoBatches (longPortfolio.map Prod.fst) (longPortfolio.map Prod.snd) = .ok batches ∧ batches.length = 2 ∧
    List.Forall₂ (fun p s => BatchCreditInputs (p.batch fun _ => 0) s ∧ BatchCreditCheck 250 s) batches signals ∧
    (∀ s ∈ signals, s.allValid = 1) ∧ (signals.map fun s => s.activeCountOut.val).sum = 251 := by
  obtain ⟨batches, hsplit, hprep, -, -, hdecided⟩ := portfolio_decided longPortfolio_u32
  have hlen : longPortfolio.length = 251 := by
    rw [longPortfolio, List.length_append, List.length_replicate]
    rfl
  have htwo : batches.length = 2 := by
    rw [splitIntoBatches_ok longPortfolio_u32] at hsplit
    rw [← Except.ok.inj hsplit, List.length_map, List.length_range, batchCount, hlen]
    rfl
  have hsolved : ∀ p ∈ batches, ∃ s, BatchCreditInputs (p.batch fun _ => 0) s ∧ BatchCreditCheck 250 s := fun p hp =>
    batchCredit_satisfiable (prepared_padded (n := ⟨p.balances, p.limits, p.activeCount, []⟩) (hprep p hp))
  obtain ⟨signals, hsignals⟩ : ∃ signals, List.Forall₂ (fun p s => BatchCreditInputs (p.batch fun _ => 0) s ∧
      BatchCreditCheck 250 s) batches signals := by
    clear hdecided hsplit hprep htwo
    induction batches with
    | nil => exact ⟨[], .nil⟩
    | cons p ps ih =>
      obtain ⟨s, hs⟩ := hsolved p List.mem_cons_self
      obtain ⟨signals, hsignals⟩ := ih fun q hq => hsolved q (List.mem_cons_of_mem _ hq)
      exact ⟨s :: signals, .cons hs hsignals⟩
  obtain ⟨hvalid, hcount⟩ := hdecided signals hsignals
  refine ⟨batches, signals, hsplit, htwo, hsignals, hvalid.2 fun r hr => ?_, hcount.trans hlen⟩
  rcases mem_longPortfolio hr with rfl | rfl <;> norm_num

end Vellum
