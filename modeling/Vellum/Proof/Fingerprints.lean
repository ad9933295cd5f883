import Vellum.Proof.RunCalls
import Vellum.Spec.Fingerprint

/-!
# Which submissions share a fingerprint

The fingerprint hashes a part of the payload that depends on the source mode, without the mode. For
a rerun that part is empty: the payload holds none of the fields that are read, so every rerun whose
source job is gone has the fingerprint of three nulls. A private input is hashed by itself, so the
circuit does not show, and it may be the object that is hashed for another mode.

* `sameMaterial_iff`: what is hashed has the same content for one submission sent twice, or for two
  that collide.
* `fingerprints_separate_iff`: when the fingerprints of two submissions say whether they are one.
-/

namespace Vellum

open Prog Json

variable {sha256 : String → String} {repr : Json → String} {a b : Submission}

/-! ## What is hashed -/

namespace BatchProveRequest

variable {request request' : BatchProveRequest}

/-- The two modes of a request. -/
theorem modes (request : BatchProveRequest) :
    (∃ fields, request.privateInput = some fields ∧ request.balances = none ∧ request.limits = none) ∨
    request.privateInput = none ∧ ∃ balances limits, request.balances = some balances ∧
      request.limits = some limits ∧ request.circuitId = defaultBatchCircuitId := by
  have hmode := request.input_mode
  unfold validateInputMode at hmode
  obtain ⟨⟨⟩, hone, hmode⟩ := bind_ok.1 hmode
  rw [raiseIf_ok, not_not] at hone
  cases hprivate : request.privateInput with
  | some fields =>
    rw [hprivate] at hone
    cases hb : request.balances with
    | some balances => simp [hb] at hone
    | none =>
      cases hl : request.limits with
      | some limits => simp [hb, hl] at hone
      | none => exact .inl ⟨fields, rfl, rfl, rfl⟩
  | none =>
    rw [hprivate] at hone
    have husing : (request.balances.isSome || request.limits.isSome) = true := by
      cases husing : (request.balances.isSome || request.limits.isSome) with
      | true => rfl
      | false =>
        rw [husing] at hone
        cases hone
    rw [if_pos husing] at hmode
    cases hb : request.balances with
    | none =>
      rw [hb] at hmode
      cases hmode
    | some balances =>
      cases hl : request.limits with
      | none =>
        rw [hb, hl] at hmode
        cases hmode
      | some limits =>
        rw [hb, hl] at hmode
        obtain ⟨⟨⟩, -, hcircuit⟩ := bind_ok.1 hmode
        rw [raiseIf_ok, not_not] at hcircuit
        exact .inr ⟨rfl, balances, limits, rfl, rfl, hcircuit⟩

end BatchProveRequest

/-- The three entries that are hashed in direct mode. -/
def directMaterial (balances limits circuitId : Json) : Json :=
  .obj [("balances", balances), ("limits", limits), ("circuit_id", circuitId)]

/-- The three entries that are hashed for a policy run. -/
def policyMaterial (request : RunCreateRequest) : Json :=
  .obj [("policy_id", .str request.policyId), ("policy_params_ref", .ofOptStr request.policyParamsRef),
    ("evidence", request.evidenceJson)]

namespace Submission

/-- What is hashed. -/
def material : Submission → Json
  | .batch request => match request.privateInput with
    | some fields => .obj fields
    | none => directMaterial (ofOptInts request.balances) (ofOptInts request.limits) (.str request.circuitId)
  | .policyRun _ request _ => policyMaterial request
  -- the payload of a rerun has none of the entries that are read
  | .rerun .. => directMaterial .null .null .null

variable {request : BatchProveRequest}

theorem material_private {fields : List (String × Json)} (h : request.privateInput = some fields) :
    (batch request).material = .obj fields := by
  unfold material
  dsimp only
  rw [h]

theorem material_direct (h : request.privateInput = none) : (batch request).material =
    directMaterial (ofOptInts request.balances) (ofOptInts request.limits) (.str request.circuitId) := by
  unfold material
  dsimp only
  rw [h]

/-- The branch of a batch. -/
theorem fingerprintMaterial_batch :
    fingerprintMaterial request.sourceMode request.payload = (batch request).material := by
  cases hprivate : request.privateInput with
  | none =>
    have hmode : request.sourceMode = "direct" := by
      unfold BatchProveRequest.sourceMode
      rw [hprivate]
      rfl
    rw [material_direct hprivate, hmode]
    rfl
  | some fields =>
    have hmode : request.sourceMode = "private_input" := by
      unfold BatchProveRequest.sourceMode
      rw [hprivate]
      rfl
    have hinput : getOrNull request.payload "private_input" = request.privateInputJson := rfl
    have hjson : request.privateInputJson = .obj fields := by
      unfold BatchProveRequest.privateInputJson
      rw [hprivate]
    rw [material_private hprivate, hmode]
    exact (if_pos rfl).trans (hinput.trans hjson)

theorem inputFingerprint_eq (s : Submission) : s.inputFingerprint sha256 repr = sha256 s.material.canonical := by
  cases s with
  | policyRun manifest request decoded => rfl
  | rerun request row sealedPayload => rfl
  | batch request => exact congrArg (fun j => sha256 (canonical j)) fingerprintMaterial_batch

theorem distinct_ints (l : Option (List ℤ)) : (ofOptInts l).Distinct := by
  cases l with
  | none => trivial
  | some l =>
    unfold ofOptInts
    rw [Distinct, distinctItems_iff]
    intro j hj
    obtain ⟨i, -, rfl⟩ := List.mem_map.1 hj
    trivial

theorem distinct_optStr (s : Option String) : (ofOptStr s).Distinct := by
  cases s with
  | none => trivial
  | some s => trivial

/-- No key is hashed twice. -/
theorem material_distinct (s : Submission) : s.material.Distinct := by
  cases s with
  | policyRun manifest request decoded =>
    unfold material policyMaterial
    simp only [Distinct, DistinctFields, and_true]
    exact ⟨by simp, trivial, distinct_optStr _, decoded⟩
  | rerun request row sealedPayload =>
    unfold material directMaterial
    simp only [Distinct, DistinctFields, and_true]
    decide
  | batch request =>
    cases hprivate : request.privateInput with
    | some fields =>
      rw [material_private hprivate]
      exact request.decoded fields hprivate
    | none =>
      rw [material_direct hprivate]
      unfold directMaterial
      simp only [Distinct, DistinctFields, and_true]
      exact ⟨by simp, distinct_ints _, distinct_ints _⟩

/-! ## When two submissions are one, and when they collide -/

theorem sameContent_ints {l l' : Option (List ℤ)} : (ofOptInts l).SameContent (ofOptInts l') ↔ l = l' := by
  have hitems (xs ys : List ℤ) : SameItems (xs.map .int) (ys.map .int) ↔ xs = ys := by
    induction xs generalizing ys with
    | nil => cases ys <;> simp [SameItems]
    | cons x xs ih => cases ys <;> simp [SameItems, SameContent, ih]
  cases l with
  | none => cases l' <;> simp [ofOptInts, SameContent]
  | some xs => cases l' <;> simp [ofOptInts, SameContent, hitems]

theorem sameContent_optStr {s s' : Option String} : (ofOptStr s).SameContent (ofOptStr s') ↔ s = s' := by
  cases s <;> cases s' <;> simp [ofOptStr, SameContent]

theorem sameContent_direct {x y z x' y' z' : Json} : (directMaterial x y z).SameContent (directMaterial x' y' z') ↔
    x.SameContent x' ∧ y.SameContent y' ∧ z.SameContent z' := by
  simp [directMaterial, SameContent, SameFields, List.lookup_cons]

theorem sameContent_policy {r r' : RunCreateRequest} : (policyMaterial r).SameContent (policyMaterial r') ↔
    r.policyId = r'.policyId ∧ r.policyParamsRef = r'.policyParamsRef ∧
      r.evidenceJson.SameContent r'.evidenceJson := by
  simp [policyMaterial, SameContent, SameFields, List.lookup_cons, sameContent_optStr]

/-- The keys of the two shapes are not the same. -/
theorem not_sameContent_shapes {x y z : Json} {r : RunCreateRequest} :
    ¬ (directMaterial x y z).SameContent (policyMaterial r) ∧ ¬ (policyMaterial r).SameContent (directMaterial x y z) := by
  simp [directMaterial, policyMaterial, SameContent, SameFields, List.lookup_cons]

/-- **The same submission**, up to the order of the keys in what was submitted. -/
def Same : Submission → Submission → Prop
  | .batch r, .batch r' => r.sourceMode = r'.sourceMode ∧ r.circuitId = r'.circuitId ∧ r.balances = r'.balances ∧
      r.limits = r'.limits ∧ r.privateInputJson.SameContent r'.privateInputJson
  | .policyRun m r _, .policyRun m' r' _ => r.policyId = r'.policyId ∧ m.circuitId = m'.circuitId ∧
      r.policyParamsRef = r'.policyParamsRef ∧ r.evidenceJson.SameContent r'.evidenceJson
  | .rerun q row _, .rerun q' row' _ => row.proofId = row'.proofId ∧ q.dlqId = q'.dlqId
  | _, _ => False

/-- The private input of a submission, if it is a batch with one. -/
def privateInput? : Submission → Option (List (String × Json))
  | .batch r => r.privateInput
  | _ => none

/-- A private input that is the object hashed for a submission of another mode. -/
def Mimics (a b : Submission) : Prop :=
  ∃ fields, a.privateInput? = some fields ∧ b.privateInput? = none ∧ (Json.obj fields).SameContent b.material

/-- Two submissions of one mode with something between them that is not hashed: the circuit of a
private input or of a policy, and whatever tells two reruns apart. -/
def Unhashed : Submission → Submission → Prop
  | .batch r, .batch r' => ∃ fields fields', r.privateInput = some fields ∧ r'.privateInput = some fields' ∧
      (Json.obj fields).SameContent (.obj fields') ∧ r.circuitId ≠ r'.circuitId
  | .policyRun m r _, .policyRun m' r' _ => r.policyId = r'.policyId ∧ r.policyParamsRef = r'.policyParamsRef ∧
      r.evidenceJson.SameContent r'.evidenceJson ∧ m.circuitId ≠ m'.circuitId
  | .rerun q row _, .rerun q' row' _ => row.proofId ≠ row'.proofId ∨ q.dlqId ≠ q'.dlqId
  | _, _ => False

/-- **Different submissions with one fingerprint.** -/
def Collides (a b : Submission) : Prop := Mimics a b ∨ Mimics b a ∨ Unhashed a b

theorem privateInput?_some {fields : List (String × Json)} (h : a.privateInput? = some fields) :
    ∃ r, a = .batch r ∧ r.privateInput = some fields ∧ r.balances = none ∧ r.limits = none := by
  cases a with
  | policyRun manifest request decoded => cases h
  | rerun request row sealedPayload => cases h
  | batch r =>
    rcases r.modes with ⟨fields', hprivate, hb, hl⟩ | ⟨hnone, -⟩
    · exact ⟨r, rfl, h, hb, hl⟩
    · have h' : r.privateInput = some fields := h
      rw [hnone] at h'
      cases h'

/-- The source mode is part of a submission. -/
theorem Same.privateInput? (h : Same a b) : a.privateInput? = none ↔ b.privateInput? = none := by
  cases a with
  | policyRun manifest request decoded =>
    cases b with
    | policyRun manifest' request' decoded' => exact Iff.rfl
    | _ => cases h
  | rerun request row sealedPayload =>
    cases b with
    | rerun request' row' sealedPayload' => exact Iff.rfl
    | _ => cases h
  | batch r =>
    cases b with
    | batch r' =>
      have hmode := h.1
      unfold BatchProveRequest.sourceMode at hmode
      change r.privateInput = none ↔ r'.privateInput = none
      cases hr : r.privateInput with
      | none =>
        cases hr' : r'.privateInput with
        | none => simp
        | some fields' =>
          rw [hr, hr'] at hmode
          simp at hmode
      | some fields =>
        cases hr' : r'.privateInput with
        | some fields' => simp
        | none =>
          rw [hr, hr'] at hmode
          simp at hmode
    | _ => cases h

theorem unhashed_privateInput? (h : Unhashed a b) : a.privateInput? = none ↔ b.privateInput? = none := by
  cases a with
  | policyRun manifest request decoded =>
    cases b with
    | policyRun manifest' request' decoded' => exact Iff.rfl
    | _ => cases h
  | rerun request row sealedPayload =>
    cases b with
    | rerun request' row' sealedPayload' => exact Iff.rfl
    | _ => cases h
  | batch r =>
    cases b with
    | batch r' =>
      obtain ⟨fields, fields', hr, hr', -⟩ := h
      change r.privateInput = none ↔ r'.privateInput = none
      rw [hr, hr']
      simp
    | _ => cases h

/-- A private input and a submission of another mode. -/
theorem sameMaterial_cross {fields : List (String × Json)} (ha : a.privateInput? = some fields)
    (hb : b.privateInput? = none) : a.material.SameContent b.material ↔ Same a b ∨ Collides a b := by
  obtain ⟨r, rfl, hr, -⟩ := privateInput?_some ha
  have hsame : ¬ Same (.batch r) b := by
    intro h
    have hnone := h.privateInput?.2 hb
    rw [ha] at hnone
    cases hnone
  have hunhashed : ¬ Unhashed (.batch r) b := by
    intro h
    have hnone := (unhashed_privateInput? h).2 hb
    rw [ha] at hnone
    cases hnone
  rw [material_private hr, or_iff_right hsame]
  constructor
  · intro h
    exact .inl ⟨fields, ha, hb, h⟩
  · rintro (⟨fields', ha', -, h⟩ | ⟨fields', hb', -⟩ | h)
    · rw [ha, Option.some.injEq] at ha'
      exact ha' ▸ h
    · rw [hb] at hb'
      cases hb'
    · exact absurd h hunhashed

/-- No private input, no mimicry. -/
theorem collides_plain (ha : a.privateInput? = none) (hb : b.privateInput? = none) : Collides a b ↔ Unhashed a b := by
  have hmimics {x y : Submission} (hx : x.privateInput? = none) : ¬ Mimics x y := by
    rintro ⟨fields, hsome, -⟩
    rw [hx] at hsome
    cases hsome
  unfold Collides
  rw [or_iff_right (hmimics ha), or_iff_right (hmimics hb)]

/-- Two submissions without a private input: the shapes keep them apart, but for two reruns. -/
theorem sameMaterial_plain (ha : a.privateInput? = none) (hb : b.privateInput? = none) :
    a.material.SameContent b.material ↔ Same a b ∨ Collides a b := by
  rw [collides_plain ha hb]
  cases a with
  | batch r =>
    rcases r.modes with ⟨fields, hprivate, -⟩ | ⟨-, balances, limits, hbalances, hlimits, hcircuit⟩
    · exact absurd (hprivate.symm.trans ha) nofun
    · rw [material_direct ha]
      cases b with
      | policyRun manifest request decoded =>
        exact iff_of_false not_sameContent_shapes.1 (by rintro (h | h) <;> exact h)
      | rerun request row sealedPayload =>
        refine iff_of_false ?_ (by rintro (h | h) <;> exact h)
        change ¬ (directMaterial _ _ _).SameContent (directMaterial _ _ _)
        rw [sameContent_direct, hbalances]
        rintro ⟨h, -⟩
        exact h
      | batch r' =>
        rcases r'.modes with ⟨fields, hprivate, -⟩ | ⟨-, balances', limits', hbalances', hlimits', hcircuit'⟩
        · exact absurd (hprivate.symm.trans hb) nofun
        · have hinput (r : BatchProveRequest) (h : r.privateInput = none) :
              r.privateInputJson = .null ∧ r.sourceMode = "direct" := by
            unfold BatchProveRequest.privateInputJson BatchProveRequest.sourceMode
            rw [h]
            exact ⟨rfl, rfl⟩
          have hnull : SameContent .null .null := rfl
          have hname : SameContent (.str defaultBatchCircuitId) (.str defaultBatchCircuitId) := rfl
          rw [material_direct hb, sameContent_direct, sameContent_ints, sameContent_ints, hcircuit, hcircuit']
          unfold Same Unhashed
          dsimp only
          rw [(hinput r ha).1, (hinput r ha).2, (hinput r' hb).1, (hinput r' hb).2, hcircuit, hcircuit']
          constructor
          · rintro ⟨h₁, h₂, -⟩
            exact .inl ⟨rfl, rfl, h₁, h₂, hnull⟩
          · rintro (⟨-, -, h₁, h₂, -⟩ | ⟨fields, -, hsome, -⟩)
            · exact ⟨h₁, h₂, hname⟩
            · exact absurd (hsome.symm.trans ha) nofun
  | policyRun manifest request decoded =>
    cases b with
    | batch r' =>
      rw [material_direct hb]
      exact iff_of_false not_sameContent_shapes.2 (by rintro (h | h) <;> exact h)
    | rerun request' row sealedPayload =>
      exact iff_of_false not_sameContent_shapes.2 (by rintro (h | h) <;> exact h)
    | policyRun manifest' request' decoded' =>
      change (policyMaterial request).SameContent (policyMaterial request') ↔ _
      rw [sameContent_policy]
      unfold Same Unhashed
      dsimp only
      by_cases hcircuit : manifest.circuitId = manifest'.circuitId
      · constructor
        · rintro ⟨h₁, h₂, h₃⟩
          exact .inl ⟨h₁, hcircuit, h₂, h₃⟩
        · rintro (⟨h₁, -, h₂, h₃⟩ | ⟨h₁, h₂, h₃, -⟩)
          · exact ⟨h₁, h₂, h₃⟩
          · exact ⟨h₁, h₂, h₃⟩
      · constructor
        · rintro ⟨h₁, h₂, h₃⟩
          exact .inr ⟨h₁, h₂, h₃, hcircuit⟩
        · rintro (⟨h₁, -, h₂, h₃⟩ | ⟨h₁, h₂, h₃, -⟩)
          · exact ⟨h₁, h₂, h₃⟩
          · exact ⟨h₁, h₂, h₃⟩
  | rerun request row sealedPayload =>
    cases b with
    | policyRun manifest request' decoded =>
      exact iff_of_false not_sameContent_shapes.1 (by rintro (h | h) <;> exact h)
    | batch r' =>
      rcases r'.modes with ⟨fields, hprivate, -⟩ | ⟨-, balances, limits, hbalances, hlimits, hcircuit⟩
      · exact absurd (hprivate.symm.trans hb) nofun
      · refine iff_of_false ?_ (by rintro (h | h) <;> exact h)
        rw [material_direct hb]
        change ¬ (directMaterial _ _ _).SameContent (directMaterial _ _ _)
        rw [sameContent_direct, hbalances]
        rintro ⟨h, -⟩
        cases h
    | rerun request' row' sealedPayload' =>
      change (directMaterial .null .null .null).SameContent (directMaterial .null .null .null) ↔ _
      have hnull : SameContent .null .null := rfl
      rw [sameContent_direct]
      unfold Same Unhashed
      dsimp only
      -- nothing of a rerun is hashed
      refine iff_of_true ⟨hnull, hnull, hnull⟩ ?_
      by_cases hproof : row.proofId = row'.proofId
      · by_cases hid : request.dlqId = request'.dlqId
        · exact .inl ⟨hproof, hid⟩
        · exact .inr (.inr hid)
      · exact .inr (.inl hproof)

/-- Two private inputs: the circuit does not show. -/
theorem sameMaterial_private {fields fields' : List (String × Json)} (ha : a.privateInput? = some fields)
    (hb : b.privateInput? = some fields') : a.material.SameContent b.material ↔ Same a b ∨ Collides a b := by
  obtain ⟨r, rfl, hr, hb₁, hl₁⟩ := privateInput?_some ha
  obtain ⟨r', rfl, hr', hb₂, hl₂⟩ := privateInput?_some hb
  have hmode : r.sourceMode = r'.sourceMode := by
    unfold BatchProveRequest.sourceMode
    rw [hr, hr']
    rfl
  have hinput : r.privateInputJson = .obj fields ∧ r'.privateInputJson = .obj fields' := by
    unfold BatchProveRequest.privateInputJson
    rw [hr, hr']
    exact ⟨rfl, rfl⟩
  have hmimics {x y : Submission} {f : List (String × Json)} (hy : y.privateInput? = some f) : ¬ Mimics x y := by
    rintro ⟨-, -, hnone, -⟩
    rw [hy] at hnone
    cases hnone
  rw [material_private hr, material_private hr']
  unfold Collides
  rw [or_iff_right (hmimics hb), or_iff_right (hmimics ha)]
  unfold Same Unhashed
  dsimp only
  rw [hinput.1, hinput.2]
  constructor
  · intro h
    by_cases hcircuit : r.circuitId = r'.circuitId
    · exact .inl ⟨hmode, hcircuit, hb₁.trans hb₂.symm, hl₁.trans hl₂.symm, h⟩
    · exact .inr ⟨fields, fields', hr, hr', h, hcircuit⟩
  · rintro (⟨-, -, -, -, h⟩ | ⟨f, f', hf, hf', h, -⟩)
    · exact h
    · rw [hr, Option.some.injEq] at hf
      rw [hr', Option.some.injEq] at hf'
      exact hf ▸ hf' ▸ h

theorem sameContent_comm {j j' : Json} (h : j.Distinct) (h' : j'.Distinct) :
    j.SameContent j' ↔ j'.SameContent j := by
  rw [← canonical_eq_iff h h', ← canonical_eq_iff h' h, eq_comm]

/-- **What is hashed has one content** for one submission sent twice, and for two that collide. -/
theorem sameMaterial_iff : a.material.SameContent b.material ↔ Same a b ∨ Collides a b := by
  cases ha : a.privateInput? with
  | some fields =>
    cases hb : b.privateInput? with
    | some fields' => exact sameMaterial_private ha hb
    | none => exact sameMaterial_cross ha hb
  | none =>
    cases hb : b.privateInput? with
    | none => exact sameMaterial_plain ha hb
    | some fields' =>
      have hcross := sameMaterial_cross hb ha
      have hsame {x y : Submission} (hx : x.privateInput? = none) {f : List (String × Json)}
          (hy : y.privateInput? = some f) : ¬ Same x y ∧ ¬ Same y x ∧ ¬ Unhashed x y ∧ ¬ Unhashed y x := by
        have hne : y.privateInput? ≠ none := by
          rw [hy]
          nofun
        exact ⟨fun h => hne (h.privateInput?.1 hx), fun h => hne (h.privateInput?.2 hx),
          fun h => hne ((unhashed_privateInput? h).1 hx), fun h => hne ((unhashed_privateInput? h).2 hx)⟩
      obtain ⟨h₁, h₂, h₃, h₄⟩ := hsame ha hb
      rw [sameContent_comm a.material_distinct b.material_distinct, hcross, or_iff_right h₂, or_iff_right h₁]
      unfold Collides
      rw [or_iff_left h₃, or_iff_left h₄, or_comm]

/-- One submission does not collide with itself. -/
theorem not_collides_of_same (h : Same a b) : ¬ Collides a b := by
  rintro (⟨fields, hsome, hnone, -⟩ | ⟨fields, hsome, hnone, -⟩ | hun)
  · rw [h.privateInput?.2 hnone] at hsome
    cases hsome
  · rw [h.privateInput?.1 hnone] at hsome
    cases hsome
  · cases a with
    | batch r =>
      cases b with
      | batch r' =>
        obtain ⟨-, -, -, -, -, hne⟩ := hun
        exact hne h.2.1
      | _ => exact hun
    | policyRun manifest request decoded =>
      cases b with
      | policyRun manifest' request' decoded' => exact hun.2.2.2 h.2.1
      | _ => exact hun
    | rerun request row sealedPayload =>
      cases b with
      | rerun request' row' sealedPayload' =>
        rcases hun with hne | hne
        · exact hne h.1
        · exact hne h.2
      | _ => exact hun

/-- **When the fingerprints of two submissions say whether they are one**, with a hash that is
injective on canonical JSON: if they do not collide. -/
theorem fingerprints_separate_iff (hinj : ∀ j j' : Json, sha256 j.canonical = sha256 j'.canonical →
      j.canonical = j'.canonical) (a b : Submission) :
    (a.inputFingerprint sha256 repr = b.inputFingerprint sha256 repr ↔ Same a b) ↔ ¬ Collides a b := by
  have heq : a.inputFingerprint sha256 repr = b.inputFingerprint sha256 repr ↔ Same a b ∨ Collides a b := by
    rw [inputFingerprint_eq, inputFingerprint_eq, ← sameMaterial_iff,
      ← canonical_eq_iff a.material_distinct b.material_distinct]
    exact ⟨hinj _ _, congrArg sha256⟩
  rw [heq]
  constructor
  · intro h hcollides
    exact not_collides_of_same (h.1 (.inr hcollides)) hcollides
  · intro h
    rw [or_iff_left h]

/-- A dead letter whose source job is gone. -/
def lostRow (id : ℕ) (proofId : String) : DeadLetterJob :=
  .fresh id { proofId := proofId
              circuitId := "batch_credit_check"
              errorClass := "timeout"
              retryable := true
              failureReason := "worker_timeout"
              errorMessage := "timed out"
              attemptCount := 3
              maxAttempts := 3
              sealedRerunPayload := some "sealed"
              triageDetails := .null
              jobMetadata := .empty }

/-- Its rerun. -/
def lostRerun (id : ℕ) (proofId : String) : Submission := .rerun ⟨id, none, none, "rerun"⟩ (lostRow id proofId) "sealed"

/-- A direct batch of one item. -/
def oneItem (balance : ℤ) : BatchProveRequest where
  circuitId := defaultBatchCircuitId
  balances := some [balance]
  limits := some [0]
  privateInput := none
  requestId := none
  sub := .null
  bankKeyId := "bank"
  circuitId_length := by decide
  balances_length := by
    intro l hl
    cases hl
    have hsize : 1 ≤ maxBatchSize := by decide
    exact ⟨Nat.le_refl 1, hsize⟩
  limits_length := by
    intro l hl
    cases hl
    decide
  input_mode := rfl
  decoded := nofun

theorem fingerprints_separate_iff_demo :
    ((batch (oneItem 1)).inputFingerprint id canonical = (batch (oneItem 2)).inputFingerprint id canonical ↔
      Same (batch (oneItem 1)) (batch (oneItem 2))) ↔ ¬ Collides (batch (oneItem 1)) (batch (oneItem 2)) :=
  fingerprints_separate_iff (fun _ _ h => h) _ _

/-- **Every rerun has the fingerprint of three nulls**: two dead letters of different proofs. -/
theorem reruns_share_fingerprint : ¬ ∀ (sha256 : String → String) (repr : Json → String) (a b : Submission),
    (∀ j j' : Json, sha256 j.canonical = sha256 j'.canonical → j.canonical = j'.canonical) →
    (a.inputFingerprint sha256 repr = b.inputFingerprint sha256 repr ↔ Same a b) := by
  intro h
  have hone := (h id canonical (lostRerun 1 "proof-1") (lostRerun 2 "proof-2") fun _ _ heq => heq).1 rfl
  have hid : (1 : ℕ) = 2 := hone.2
  cases hid

end Submission

end Vellum
