import Vellum.Proof.Completing
import Vellum.Proof.RunParameters

/-!
# The two halves of a policy run

The service seals what the request has computed, and the worker goes on with it. The engine computes
both halves itself.

* `completionPatch_sealed`: the dual-track check of a delivery is the one of the engine.
* `proverInput_sealed`: what the worker proves.
* `run_returns`: a run of the engine that is told all it asks for.
-/

namespace Vellum

open Prog

variable {S : WorkerSettings} {answer : Answers} {job : ProofJob}

/-! ## The sealed half of a run -/

section Sealed

variable {E : PolicyEngine} {request : RunCreateRequest} {manifest : PolicyPackManifest}
    {parameters : List (String × ℤ)}
  {reference : DualTrackReferenceResult}

theorem sealedReference_sealed :
    sealedReference (RunService.sealedFields request parameters reference) =
      .ok (reference.decision, reference.outputs) := by
  have hdecision : ∀ decision : PolicyDecision, sealedReference (.obj [("request_payload", request.payload),
      ("private_input", reference.privateInput),
      ("dual_track_reference", .obj [("decision", .str decision.text), ("outputs", .obj reference.outputs)]),
      ("policy_parameters", if parameters ≠ [] then parametersJson parameters else .null)]) =
        .ok (decision, reference.outputs) := by
    intro decision
    cases decision <;> rfl
  exact hdecision reference.decision

/-- **The dual-track check of the worker is the one of the engine.** -/
theorem completionPatch_sealed (hpolicy : policyIdOf job = some request.policyId)
    (hmanifest : S.policies request.policyId = some manifest) (hrepr : S.repr = E.repr) (signals : List Json)
      (verified : Bool) :
    completionPatch S job (RunService.sealedFields request parameters reference) signals verified =
      (E.circuitRun request.toPolicyRunRequest manifest reference signals verified).map fun circuit =>
        some [("policy_version", .str manifest.policyVersion), ("decision", .str circuit.decision.text)] := by
  unfold completionPatch
  rw [hpolicy]
  dsimp only
  unfold dualTrackPatch PolicyEngine.circuitRun
  rw [hmanifest, hrepr, sealedReference_sealed]
  dsimp only [Bind.bind, Except.bind]
  cases evaluateCircuitTrack E.repr request.policyId manifest.expectedAttestation manifest.differentialOutputs signals
      verified with
  | error e => rfl
  | ok circuit =>
    dsimp only
    cases assertDualTrackConsistency request.policyId reference.decision reference.outputs circuit with
    | error e => rfl
    | ok r => rfl

/-- What the worker proves of a private input. -/
def workerInput (circuitId : String) (privateInput : Json) : Except String Json :=
  if circuitId = defaultBatchCircuitId then
    (batchPrepareFromPrivateInput privateInput).map PreparedBatchInput.toCircuitInput
  else .ok privateInput

/-- The worker's schema check. -/
def AcceptsInput (S : WorkerSettings) (circuitId : String) (input : Json) : Prop :=
  ∃ inputSchema, S.circuits circuitId = some inputSchema ∧ S.validateSchema inputSchema input = .ok ()

/-- What the sealed fields hold under `private_input`. -/
theorem proverInput_fields :
    proverInput S job (RunService.sealedFields request parameters reference) = do
      let privateInput ← match some reference.privateInput with
        | some (.obj input) => .ok (Json.obj input)
        | _ => raiseOther "Missing private_input for proof job"
      let privateInput ← if job.circuitId = defaultBatchCircuitId then
          ((batchPrepareFromPrivateInput privateInput).map PreparedBatchInput.toCircuitInput).mapError .other
        else .ok privateInput
      let inputSchema ← match S.circuits job.circuitId with
        | some inputSchema => .ok inputSchema
        | none => raiseOther job.circuitId
      (S.validateSchema inputSchema privateInput).mapError .other
      return privateInput := rfl

/-- What a delivery of the sealed payload proves. -/
theorem proverInput_sealed {input : Json} :
    proverInput S job (RunService.sealedFields request parameters reference) = .ok input ↔
      (∃ fields, reference.privateInput = .obj fields) ∧
        workerInput job.circuitId reference.privateInput = .ok input ∧ AcceptsInput S job.circuitId input := by
  rw [proverInput_fields]
  cases reference.privateInput with
  | obj fields =>
    unfold workerInput AcceptsInput
    have htrue : (∃ fs, Json.obj fields = .obj fs) ↔ True := iff_true_intro ⟨fields, rfl⟩
    rw [htrue, true_and]
    cases hcircuits : S.circuits job.circuitId with
    | none =>
      by_cases hbatch : job.circuitId = defaultBatchCircuitId
      · simp [hbatch, bind_ok, raiseOther]
      · simp [hbatch, bind_ok, raiseOther]
    | some inputSchema =>
      by_cases hbatch : job.circuitId = defaultBatchCircuitId
      · simp [hbatch, bind_ok, mapError_ok, map_ok, Unique.exists_iff]
      · have hsame : Json.obj fields = input →
            (S.validateSchema inputSchema (.obj fields) = .ok () ↔ S.validateSchema inputSchema input = .ok ()) := by
          intro heq
          rw [heq]
        simpa [hbatch, bind_ok, mapError_ok, map_ok, Unique.exists_iff, and_comm] using hsame
  | _ => simp [raiseOther, Bind.bind, Except.bind]

end Sealed

/-! ## The engine with the same answers -/

section Engine

variable {E : PolicyEngine} {request : PolicyRunRequest} {runId : String} {payload : Json}
    {manifest : PolicyPackManifest}
  {parameters : List (String × ℤ)} {reference : DualTrackReferenceResult} {generated : ProofResult} {verified : Bool}
  {circuit : DualTrackCircuitResult}

theorem resolveEvidence_returns (hevidence : EvidenceOf answer request payload)
    (hput : ∀ id own, ∃ r, answer (.putEvidence id own) = .ok r) :
    ∃ evidenceRef, ((PolicyEngine.resolveEvidence runId request).exec answer).2 = .ok (payload, evidenceRef) := by
  unfold EvidenceOf at hevidence
  unfold PolicyEngine.resolveEvidence
  cases hev : request.evidence with
  | inline own =>
    rw [hev] at hevidence
    obtain ⟨stored, hstored⟩ := hput runId own
    refine ⟨stored, exec_bind_ok.2 ⟨stored, exec_await_eq hstored, ?_⟩⟩
    rw [hevidence]
    rfl
  | ref stored =>
    rw [hev] at hevidence
    exact ⟨stored, exec_bind_ok.2 ⟨payload, exec_await_eq hevidence, rfl⟩⟩

theorem evidenceOf_unique {payload' : Json} (h : EvidenceOf answer request payload)
    (h' : EvidenceOf answer request payload') :
    payload = payload' := by
  unfold EvidenceOf at h h'
  cases hev : request.evidence with
  | inline own =>
    rw [hev] at h h'
    exact Eq.trans h h'.symm
  | ref stored =>
    rw [hev] at h h'
    exact Except.ok.inj (h.symm.trans h')

/-- **A run of the engine that is told all this returns**, and attests what it was told. -/
theorem run_returns (hmanifest : E.policies request.policyId = some manifest)
    (hevidence : EvidenceOf answer request payload)
    (hput : ∀ id own, ∃ r, answer (.putEvidence id own) = .ok r)
    (href : E.referenceRun request manifest payload = .ok (parameters, reference))
    (hgenerate : answer (.generate manifest.circuitId reference.privateInput) = .ok generated)
    (hverify : answer (.verify manifest.circuitId generated.proof generated.publicSignals) = .ok verified)
    (hcircuit : E.circuitRun request manifest reference generated.publicSignals verified = .ok circuit)
    (hattest : ∀ input, answer (.createAttestation input) = .ok ()) :
    ((E.run request runId).exec answer).2 = .ok ⟨runId, request.policyId, circuit.decision, "att-" ++ runId⟩ ∧
      ∃ evidenceRef,
        Call.createAttestation (E.attestation request runId evidenceRef manifest parameters reference
          generated circuit) ∈
          ((E.run request runId).exec answer).1 := by
  have hreturns :
      ((E.run request runId).exec answer).2 = .ok ⟨runId, request.policyId, circuit.decision, "att-" ++ runId⟩ := by
    obtain ⟨evidenceRef, hresolved⟩ := @resolveEvidence_returns answer request runId payload hevidence hput
    unfold PolicyEngine.run
    refine exec_bind_ok.2 ⟨manifest, getManifest_ok.2 hmanifest, exec_bind_ok.2 ⟨_, hresolved, ?_⟩⟩
    unfold PolicyEngine.proveRun
    refine exec_bind_ok.2 ⟨(parameters, reference), href, exec_bind_ok.2 ⟨generated, exec_await_eq hgenerate, ?_⟩⟩
    refine exec_bind_ok.2 ⟨verified, exec_await_eq hverify, exec_bind_ok.2 ⟨circuit, hcircuit, ?_⟩⟩
    exact exec_bind_ok.2 ⟨(), exec_await_eq (hattest _), rfl⟩
  refine ⟨hreturns, ?_⟩
  -- a run has one manifest, one payload and one answer to each call
  obtain ⟨manifest', payload', evidenceRef, parameters', reference', generated', verified', circuit',
    hmanifest', hevidence', href',
    hgenerate', hverify', hcircuit', -, hmem⟩ := run_ok hreturns
  obtain rfl := Option.some.inj (hmanifest.symm.trans hmanifest')
  obtain rfl := evidenceOf_unique hevidence hevidence'
  obtain ⟨rfl, rfl⟩ := Prod.mk.inj (Except.ok.inj (href.symm.trans href'))
  obtain rfl := Except.ok.inj (hgenerate.symm.trans hgenerate')
  obtain rfl := Except.ok.inj (hverify.symm.trans hverify')
  obtain rfl := Except.ok.inj (hcircuit.symm.trans hcircuit')
  exact ⟨evidenceRef, hmem⟩

end Engine

end Vellum
