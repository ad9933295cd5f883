import Vellum.Proof.Provenance

/-!
# The decision of a completed run

A policy run goes through five hands: the service computes the reference track and seals it, the payload
is copied to the row of the job and to those of its reruns, a worker unseals it, the provider proves it,
and the worker compares the tracks and writes the row. What stands in the row at the end is what the
reference policy has decided on the evidence of the submission at the root, and what the public signals
of the stored proof say.

* `Completed`, of `Provenance`: what the row of a completed job stores.
* `sealed_of_draft`: the sealed payload of a policy run.
* `completed_run_decided`: both together.
-/

namespace Vellum

open Broker SealedServices

variable {V : SealedServices} {settings : Set WorkerSettings} {services : Set RunService} {sha256 : String → String}
  {id policyId : String} {job : ProofJob}

/-- The reference track of a policy run. -/
def ReferenceOf (R : RunService) (request : RunCreateRequest) (manifest : PolicyPackManifest) (evidence : Json)
    (reference : DualTrackReferenceResult) : Prop :=
  ∃ parameters, R.resolveParameters request.policyId request.policyParamsRef = .ok parameters ∧
    prepareReferenceTrack R.referencePolicies manifest.referencePolicy manifest.differentialOutputs
      (effectivePayload evidence parameters) = .ok reference

/-- **What is sealed for a policy run**: the private input and the results of the reference track. -/
theorem sealed_of_draft {R : RunService} {sub : JobSubmission} {request : RunCreateRequest}
    {manifest : PolicyPackManifest} {evidence : Json} (h : DraftOf R policyId sub request manifest evidence) :
    ∃ reference, ReferenceOf R request manifest evidence reference ∧
      sub.payload.privateInput = reference.privateInput ∧
      sealedReference sub.payload.toJson = .ok (reference.decision, reference.outputs) := by
  obtain ⟨evidenceRef, d, hdraft, -, hplain⟩ := h.draft
  obtain ⟨parameters, reference, hparams, href, -, rfl⟩ := draft_ok hdraft
  have hfields : RunService.sealedFields request parameters reference = sub.payload.toJson := hplain
  refine ⟨reference, ⟨parameters, hparams, href⟩, ?_, ?_⟩
  · have hinput := congrArg (fun j => j.get? "private_input") hfields
    exact (Option.some.inj hinput).symm
  · rw [← hfields]
    exact sealedReference_sealed

/-- The policy of a run is the one in its metadata. -/
theorem policy_entry (h : policyIdOf job = some policyId) :
    job.metadata.get? "policy_id" = some (.str policyId) ∧ policyId ≠ "" := by
  unfold policyIdOf at h
  cases hentry : job.metadata.get? "policy_id" with
  | none =>
    rw [hentry] at h
    cases h
  | some entry =>
    rw [hentry] at h
    cases entry with
    | str text =>
      dsimp only at h
      by_cases htext : text = ""
      · rw [if_pos htext] at h
        cases h
      · rw [if_neg htext] at h
        obtain rfl := Option.some.inj h
        exact ⟨rfl, htext⟩
    | _ => cases h

/-- **The decision of every completed policy run**, of a rerun too, is that of the reference policy on the evidence
of the submission at the root. Its proof is an answer of the provider to the private input of that evidence, and
the public signals of that proof, with the verdict on it, say the same in the terms of the policy's manifest. -/
theorem completed_run_decided (hdrafted : V.Drafted services) {s : Services}
    (hrun : Run (V.broker settings sha256) (fun _ _ _ => True) (init .empty) s) (hjob : s.world.proofJobs id = some job)
    (hdone : job.status = .completed) (hpolicy : policyIdOf job = some policyId) :
    ∃ root, Lineage s.world id root ∧ ∃ sub ∈ V.submissions, sub.proofId = root ∧ sub.circuitId = job.circuitId ∧
      ∃ R ∈ services, ∃ request manifest evidence reference, DraftOf R policyId sub request manifest evidence ∧
        ReferenceOf R request manifest evidence reference ∧
        job.metadata.get? "decision" = some (.str reference.decision.text) ∧
        ∃ S ∈ settings, ∃ prepared input result verified,
          workerInput job.circuitId reference.privateInput = .ok prepared ∧ input.SameContent prepared ∧
          V.generates job.circuitId input result ∧
          V.verifies job.circuitId result.proof result.publicSignals verified ∧ Stores job result ∧
          ∃ deployed circuit, S.policies policyId = some deployed ∧
            evaluateCircuitTrack S.repr policyId deployed.expectedAttestation deployed.differentialOutputs
              result.publicSignals verified = .ok circuit ∧
            circuit.decision = reference.decision ∧
            Json.pyEq (.obj reference.outputs) (.obj circuit.outputs) = true := by
  obtain ⟨root, hroot, -, hcompleted⟩ := (keeps_run provenance_keeps provenance_empty hrun).1.job hjob
  obtain ⟨sub, hsub, hid, hkind, result, hstores, S, hS, prepared, input, verified, hprepared, hinput, hgenerates,
    hverifies, hdecides⟩ := hcompleted hdone
  have hcircuit : sub.circuitId = job.circuitId := congrArg JobKind.circuitId hkind
  have hentry : sub.policyId.map Json.str = job.metadata.get? "policy_id" := congrArg JobKind.policy hkind
  obtain ⟨hname, hne⟩ := policy_entry hpolicy
  -- the submission is of that policy
  have hown : sub.policyId = some policyId := by
    rw [hname] at hentry
    obtain ⟨own, hsame, htext⟩ := Option.map_eq_some_iff.1 hentry
    rw [hsame, Json.str.inj htext]
  obtain ⟨R, hR, request, manifest, evidence, hdraft⟩ := hdrafted sub hsub policyId hown
  obtain ⟨reference, href, hprivate, hsealed⟩ := sealed_of_draft hdraft
  obtain ⟨decision, ⟨deployed, outputs, circuit, hdeployed, hown', htrack, hsame, houtputs⟩, hrecorded⟩ :=
    hdecides policyId hown hne
  obtain ⟨rfl, rfl⟩ := Prod.mk.inj (Except.ok.inj (hsealed.symm.trans hown'))
  rw [hcircuit] at hprepared hgenerates hverifies
  rw [hprivate] at hprepared
  exact ⟨root, hroot, sub, hsub, hid, hcircuit, R, hR, request, manifest, evidence, reference, hdraft, href, hrecorded,
    S, hS, prepared, input, result, verified, hprepared, hinput, hgenerates, hverifies, hstores, deployed, circuit,
    hdeployed, htrack, hsame, houtputs⟩

/-! ### A run that passes -/

/-- The manifest of the policy with one parameter. -/
def oneParamManifest : PolicyPackManifest := ⟨"p", "1.0.0", "credit_check", "r", .empty, .empty⟩

/-- Its reference track on one row. -/
def oneParamTrack : Except PyExn DualTrackReferenceResult :=
  prepareReferenceTrack oneParamService.referencePolicies "r" .empty (evidenceOf [5] [0] [("a", 4)])

def oneParamReference : DualTrackReferenceResult := oneParamTrack.toOption.getD ⟨.null, .fail, []⟩

theorem oneParamTrack_ok : oneParamTrack = .ok oneParamReference := by
  have hsome : oneParamTrack.toOption.isSome = true := by decide +kernel
  unfold oneParamReference
  cases htrack : oneParamTrack with
  | error e =>
    rw [htrack] at hsome
    cases hsome
  | ok reference => rfl

/-- What is sealed for the run. -/
def oneParamPayload : JobPayload :=
  ⟨(oneParamRequest none).payload, oneParamReference.privateInput,
    .obj [("decision", .str oneParamReference.decision.text), ("outputs", .obj oneParamReference.outputs)], .null⟩

/-- The run, sealed. -/
def runSealed : SealedDemo where
  setup := ⟨{ demoWorker with policies := oneParamService.policies }, Dict.empty.set "policy_id" (.str "p"),
    oneParamPayload.toJson.sortKeys⟩
  policyId := some "p"
  payload := oneParamPayload
  plain := by decide +kernel
  decrypted := rfl
  policy := rfl
  submitted := rfl

/-- The service has computed it. -/
theorem runSealed_drafted : runSealed.services.Drafted {oneParamService} := by
  rintro sub rfl policyId hpolicy
  obtain rfl := Option.some.inj hpolicy
  have hdraft : oneParamService.draft (oneParamRequest none) demoJob.proofId oneParamManifest
      (evidenceOf [5] [0] [("a", 4)]) "evidence" = .ok ⟨"credit_check", RunService.policyRunMetadata
        (oneParamRequest none) "1.0.0" ("att-" ++ demoJob.proofId) "evidence" none, oneParamPayload.toJson⟩ :=
    bind_ok.2 ⟨[], rfl, bind_ok.2 ⟨oneParamReference, mapError_ok.2 oneParamTrack_ok, rfl⟩⟩
  exact ⟨oneParamService, rfl, oneParamRequest none, oneParamManifest, _, rfl, rfl, "evidence", _, hdraft, rfl, rfl⟩

/-- The job is completed. -/
theorem runSealed_completed : ((runSealed.delivering 9).world.proofJobs demoJob.proofId).map (fun job =>
    (job.status, policyIdOf job)) = some (.completed, some "p") := by
  decide +kernel

/-- The run is completed with the decision of the policy. -/
theorem completed_run_decided_run : ∃ job, (runSealed.delivering 9).world.proofJobs demoJob.proofId = some job ∧
    ∃ root, Lineage (runSealed.delivering 9).world demoJob.proofId root ∧
      ∃ request manifest evidence reference, ReferenceOf oneParamService request manifest evidence reference ∧
        job.metadata.get? "decision" = some (.str reference.decision.text) := by
  obtain ⟨job, hjob, hrow⟩ := Option.map_eq_some_iff.1 runSealed_completed
  obtain ⟨hdone, hpolicy⟩ := Prod.mk.inj hrow
  obtain ⟨root, hroot, sub, -, -, -, R, rfl, request, manifest, evidence, reference, -, href, hdecision, -⟩ :=
    completed_run_decided runSealed_drafted (runSealed.delivering_run 9) hjob hdone hpolicy
  exact ⟨job, hjob, root, hroot, request, manifest, evidence, reference, href, hdecision⟩

end Vellum
