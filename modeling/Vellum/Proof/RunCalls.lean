import Vellum.Proof.Verified
import Vellum.Spec.PolicyRun

/-!
# Runs of the two pipelines

What a run of `create_policy_run`, and one of the policy engine, has computed and called when
it returns, each call answered by a function of it.

* `createPolicyRun_ok`: the service.
* `run_ok`: the engine.
-/

namespace Vellum

open Prog

/-- The answers of the calls of a run. -/
abbrev Answers := (c : Call) → Except PyExn c.Resp

/-- The evidence of a run: its own, or what the store answers. -/
def EvidenceOf (answer : Answers) (request : PolicyRunRequest) (payload : Json) : Prop :=
  match request.evidence with
  | .inline own => payload = own
  | .ref reference => answer (.getEvidence reference) = .ok payload

variable {answer : Answers} {R : RunService} {E : PolicyEngine} {encrypt : Json → Except PyExn String} {runId : String}

theorem exec_await_eq {c : Call} {a : Except PyExn c.Resp} (h : answer c = a) : ((await c).exec answer).2 = a := h

/-! ## The service -/

section Service

variable {request : RunCreateRequest} {manifest : PolicyPackManifest} {payload : Json} {evidenceRef : String}

theorem loadPolicyManifest_ok {policyId : String} :
    R.loadPolicyManifest policyId = .ok manifest ↔ R.policies policyId = some manifest := by
  unfold RunService.loadPolicyManifest
  cases R.policies policyId <;> simp

theorem resolvePolicyEvidence_ok
    (h : ((R.resolvePolicyEvidence runId request).exec answer).2 = .ok (payload, evidenceRef)) :
    EvidenceOf answer request.toPolicyRunRequest payload := by
  unfold RunService.resolvePolicyEvidence at h
  unfold EvidenceOf
  cases hev : request.evidence with
  | inline own =>
    rw [hev] at h
    obtain ⟨reference, -, hret⟩ := exec_bind_ok.1 h
    exact (Prod.mk.inj (Except.ok.inj hret)).1.symm
  | ref reference =>
    rw [hev] at h
    obtain ⟨payload', hget, hret⟩ := exec_bind_ok.1 h
    have hsame := (Prod.mk.inj (Except.ok.inj hret)).1
    -- an answer that raises is raised again
    have hanswer : answer (.getEvidence reference) = .ok payload' := by
      cases ha : answer (.getEvidence reference) with
      | error e =>
        rw [exec_exceptException_of_error (exec_await_eq ha)] at hget
        split_ifs at hget <;> cases hget
      | ok p =>
        rw [exec_exceptException_of_ok (exec_await_eq ha)] at hget
        exact congrArg _ (Except.ok.inj hget)
    rw [← hsame]
    exact hanswer

/-- What `draft` has computed. -/
theorem draft_ok {d : RunService.Draft} (h : R.draft request runId manifest payload evidenceRef = .ok d) :
    ∃ parameters reference,
      R.resolveParameters request.policyId request.policyParamsRef = .ok parameters ∧
      prepareReferenceTrack R.referencePolicies manifest.referencePolicy manifest.differentialOutputs
        (effectivePayload payload parameters) = .ok reference ∧
      R.validatePrivateInputSchema manifest.circuitId reference.privateInput = .ok () ∧
      d = { circuitId := manifest.circuitId
            metadata := RunService.policyRunMetadata request manifest.policyVersion ("att-" ++ runId) evidenceRef
              (if parameters ≠ [] then some (computePolicyParamsHash R.sha256 parameters) else none)
            plaintext := RunService.sealedFields request parameters reference } := by
  unfold RunService.draft at h
  obtain ⟨parameters, hparams, h⟩ := bind_ok.1 h
  obtain ⟨reference, href, h⟩ := bind_ok.1 h
  obtain ⟨⟨⟩, hschema, h⟩ := bind_ok.1 h
  exact ⟨parameters, reference, mapError_ok.1 hparams, mapError_ok.1 href, hschema, (pure_ok.1 h).symm⟩

/-- The job a run creates. -/
def RunService.job (R : RunService) (request : RunCreateRequest) (runId sealedPayload : String)
    (d : RunService.Draft) : NewJob where
  proofId := runId
  circuitId := d.circuitId
  status := .queued
  sealedJobPayload := sealedPayload
  inputFingerprint := computeInputFingerprint R.sha256 "policy_run" request.payload
  inputSummary := buildInputSummary "policy_run" request.payload d.circuitId
  metadata := d.metadata

/-- **What an accepted run has done.** -/
theorem createPolicyRun_ok {r : String} (h : ((R.createPolicyRun encrypt request runId).exec answer).2 = .ok r) :
    ∃ manifest payload evidenceRef d sealedPayload, R.policies request.policyId = some manifest ∧
      EvidenceOf answer request.toPolicyRunRequest payload ∧
      R.draft request runId manifest payload evidenceRef = .ok d ∧ encrypt d.plaintext = .ok sealedPayload ∧
      Call.createProofJob (R.job request runId sealedPayload d)
        ∈ ((R.createPolicyRun encrypt request runId).exec answer).1 := by
  unfold RunService.createPolicyRun at h ⊢
  obtain ⟨manifest, hmanifest, h⟩ := exec_bind_ok.1 h
  rw [exec_bind_calls hmanifest]
  obtain ⟨⟨payload, evidenceRef⟩, hevidence, h⟩ := exec_bind_ok.1 h
  rw [exec_bind_calls hevidence]
  obtain ⟨d, hdraft, h⟩ := exec_bind_ok.1 h
  rw [exec_bind_calls hdraft]
  obtain ⟨sealedPayload, hseal, h⟩ := exec_bind_ok.1 h
  rw [exec_bind_calls hseal]
  obtain ⟨⟨⟩, hpersist, -⟩ := exec_bind_ok.1 h
  rw [exec_bind_calls hpersist]
  refine ⟨manifest, payload, evidenceRef, d, sealedPayload, loadPolicyManifest_ok.1 hmanifest,
    resolvePolicyEvidence_ok hevidence, hdraft, hseal, ?_⟩
  -- the row is the first thing that is written
  have hfirst : Call.createProofJob (R.job request runId sealedPayload d) ∈
      ((persistAndEnqueueJob R.sha256 runId d.circuitId request.payload "policy_run" sealedPayload
        d.metadata).exec answer).1 :=
    List.mem_cons_self
  simp only [List.mem_append]
  exact .inr (.inr (.inr (.inr (.inl hfirst))))

end Service

/-! ## The engine -/

section Engine

variable {request : PolicyRunRequest} {payload : Json} {evidenceRef : String}

theorem resolveEvidence_ok
    (h : ((PolicyEngine.resolveEvidence runId request).exec answer).2 = .ok (payload, evidenceRef)) :
    EvidenceOf answer request payload := by
  unfold PolicyEngine.resolveEvidence at h
  unfold EvidenceOf
  cases hev : request.evidence with
  | inline own =>
    rw [hev] at h
    obtain ⟨reference, -, hret⟩ := exec_bind_ok.1 h
    exact (Prod.mk.inj (Except.ok.inj hret)).1.symm
  | ref reference =>
    rw [hev] at h
    obtain ⟨payload', hget, hret⟩ := exec_bind_ok.1 h
    rw [← (Prod.mk.inj (Except.ok.inj hret)).1]
    exact hget

/-- **What a run of the engine that returns has done.** -/
theorem run_ok {result : PolicyRunResult} (h : ((E.run request runId).exec answer).2 = .ok result) :
    ∃ manifest payload evidenceRef parameters reference generated verified circuit,
      E.policies request.policyId = some manifest ∧ EvidenceOf answer request payload ∧
      E.referenceRun request manifest payload = .ok (parameters, reference) ∧
      answer (.generate manifest.circuitId reference.privateInput) = .ok generated ∧
      answer (.verify manifest.circuitId generated.proof generated.publicSignals) = .ok verified ∧
      E.circuitRun request manifest reference generated.publicSignals verified = .ok circuit ∧
      result = ⟨runId, request.policyId, circuit.decision, "att-" ++ runId⟩ ∧
      Call.createAttestation (E.attestation request runId evidenceRef manifest parameters reference generated circuit) ∈
        ((E.run request runId).exec answer).1 := by
  unfold PolicyEngine.run at h ⊢
  obtain ⟨manifest, hmanifest, h⟩ := exec_bind_ok.1 h
  rw [exec_bind_calls hmanifest]
  obtain ⟨⟨payload, evidenceRef⟩, hevidence, h⟩ := exec_bind_ok.1 h
  rw [exec_bind_calls hevidence]
  unfold PolicyEngine.proveRun at h ⊢
  obtain ⟨⟨parameters, reference⟩, href, h⟩ := exec_bind_ok.1 h
  rw [exec_bind_calls href]
  obtain ⟨generated, hgenerate, h⟩ := exec_bind_ok.1 h
  rw [exec_bind_calls hgenerate]
  obtain ⟨verified, hverify, h⟩ := exec_bind_ok.1 h
  rw [exec_bind_calls hverify]
  obtain ⟨circuit, hcircuit, h⟩ := exec_bind_ok.1 h
  rw [exec_bind_calls hcircuit]
  obtain ⟨⟨⟩, hattest, hret⟩ := exec_bind_ok.1 h
  rw [exec_bind_calls hattest]
  refine ⟨manifest, payload, evidenceRef, parameters, reference, generated, verified, circuit,
    getManifest_ok.1 hmanifest,
    resolveEvidence_ok hevidence, href, hgenerate, hverify, hcircuit, (Except.ok.inj hret).symm, ?_⟩
  have hlast : Call.createAttestation (E.attestation request runId evidenceRef manifest parameters reference
    generated circuit) ∈
      ((await (.createAttestation (E.attestation request runId evidenceRef manifest parameters reference generated
        circuit))).exec answer).1 := List.mem_cons_self
  simp only [List.mem_append]
  exact .inr (.inr (.inr (.inr (.inr (.inr (.inl hlast))))))

end Engine

end Vellum
