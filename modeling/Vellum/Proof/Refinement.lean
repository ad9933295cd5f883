import Vellum.Proof.SealedRun

/-!
# The service path refines the engine's

A policy run of the service is the pipeline of the engine, cut in two by a sealed payload: the
reference track runs in the request, the circuit track in a delivery. With the answers of one
provider both come to the same decision, proof and signals, but for one circuit: there the
worker prepares the batch again, and what is prepared has no parameters.

* `hasRow_kept`: the row of a run keeps what its deliveries read of it.
* `reprepared_iff`: when a batch that is prepared again is the same.
* `service_refines_iff`: exactly when the service refines the engine for every provider.
* `service_drops_parameters`: a run the worker completes and the engine does not.
-/

namespace Vellum

open Prog Relation

variable {S : WorkerSettings} {answer : Answers} {id : String} {u : JobUpdate} {job : ProofJob}

/-! ## One provider, two paths -/

/-- A provider as a function of what it is asked. -/
structure PureProvider where
  generate : String → Json → Except PyExn ProofResult
  verify : String → Json → List Json → Except PyExn Bool

/-- The answers are those of the provider where it is asked. -/
def PureProvider.Serves (P : PureProvider) (answer : Answers) : Prop :=
  (∀ circuitId input, answer (.generate circuitId input) = P.generate circuitId input) ∧
    ∀ circuitId proof signals, answer (.verify circuitId proof signals) = P.verify circuitId proof signals

/-- A row of the job of a policy run. What is sealed may be purged; nothing else takes its place. -/
structure RowOf (policyId : String) (new : NewJob) (job : ProofJob) : Prop where
  circuitId : job.circuitId = new.circuitId
  policyId : job.metadata.get? "policy_id" = some (.str policyId)
  sealedPayload : ∀ sealedPayload, job.sealedJobPayload = some sealedPayload → sealedPayload = new.sealedJobPayload

section Rows

variable {policyId : String} {new : NewJob}

theorem RowOf.update (h : RowOf policyId new job) {u : JobUpdate} (hu : KeepsPolicyId u) (now : ℚ) :
    RowOf policyId new (job.update u now) where
  circuitId := h.circuitId
  policyId := (Dict.get?_update_of_notMem hu job.metadata).trans h.policyId
  sealedPayload := h.sealedPayload

theorem RowOf.purge (h : RowOf policyId new job) (now : ℚ) : RowOf policyId new (job.purge now) where
  circuitId := h.circuitId
  policyId := h.policyId
  sealedPayload := nofun

theorem RowOf.prune (h : RowOf policyId new job) (olderThan now : ℚ) :
    RowOf policyId new (job.prune olderThan now) := by
  unfold ProofJob.prune
  split_ifs
  · exact ⟨h.circuitId, h.policyId, h.sealedPayload⟩
  · exact h

/-- The job of the run is stored, in a row of it. -/
def HasRow (policyId : String) (new : NewJob) (w : World) : Prop :=
  ∃ job, w.proofJobs new.proofId = some job ∧ RowOf policyId new job

/-- The call leaves the policy of a job alone. -/
def KeepsPolicy (c : Call) : Prop := ∀ id u, c = .updateProofJob id u → KeepsPolicyId u

theorem task_keepsPolicy {sha256 : String → String} (task : Task) : (task.prog S sha256).Calls KeepsPolicy := by
  have hrequest : task.isRequest = true → (task.prog S sha256).Calls KeepsPolicy := by
    intro htask
    refine calls_mono (fun c hc => ?_) (request_calls htask)
    rintro id u rfl
    exact False.elim hc
  cases task with
  | submit => exact hrequest rfl
  | requeue => exact hrequest rfl
  | maintain => exact hrequest rfl
  | deliver proofId =>
    refine calls_mono (fun c hc => ?_) processProofJob_calls
    rintro id u rfl
    exact hc.2.2

theorem sem_hasRow {c : Call} {w w' : World} {a : Except PyExn c.Resp} (hc : KeepsPolicy c)
    (hrow : HasRow policyId new w)
    (h : c.Sem w a w') : HasRow policyId new w' := by
  obtain ⟨job, hjob, hof⟩ := hrow
  rcases row_cases h new.proofId with hsame | ⟨u, job', now, heq, hjob', hrow'⟩ | ⟨_, _, _, _, hnone, _⟩ |
    ⟨site, job', now, -, hjob', hrow'⟩ | ⟨olderThan, job', now, -, hjob', hrow'⟩
  · exact ⟨job, hsame.trans hjob, hof⟩
  · obtain rfl := Option.some.inj (hjob.symm.trans hjob')
    exact ⟨_, hrow', hof.update (hc _ u heq) now⟩
  · -- the id is taken
    rw [hjob] at hnone
    cases hnone
  · obtain rfl := Option.some.inj (hjob.symm.trans hjob')
    exact ⟨_, hrow', hof.purge now⟩
  · obtain rfl := Option.some.inj (hjob.symm.trans hjob')
    exact ⟨_, hrow', hof.prune olderThan now⟩

/-- **The row of a run stays a row of it**, whatever the services do. So the rows a delivery is
told below are those it can be told. -/
theorem hasRow_kept {sha256 : String → String} {s s' : System}
    (hreach : ReflTransGen (SystemStep S sha256 fun _ _ _ => True) System.init s) (hrow : HasRow policyId new s.world)
    (h : ReflTransGen (SystemStep S sha256 fun _ _ _ => True) s s') : HasRow policyId new s'.world := by
  have htask : ∀ p ∈ Set.range (Task.prog S sha256), p.Calls KeepsPolicy := by
    rintro _ ⟨task, rfl⟩
    exact task_keepsPolicy task
  have hidle : System.init.CallsOnly KeepsPolicy := fun i p hp => nomatch hp
  have hcalls : True ∧ s.CallsOnly KeepsPolicy := by
    refine run_invariant (I := fun s : System => True ∧ s.CallsOnly KeepsPolicy) ⟨trivial, hidle⟩ ?_ hreach
    rintro s s' hinv ⟨act, hstep, -⟩
    exact Pool.step_calls (I := fun _ => True) htask (fun _ _ _ => trivial) hinv hstep
  have hkept : HasRow policyId new s'.world ∧ s'.CallsOnly KeepsPolicy := by
    refine run_invariant (I := fun s : System => HasRow policyId new s.world ∧ s.CallsOnly KeepsPolicy)
      ⟨hrow, hcalls.2⟩ ?_ h
    rintro s s' hinv ⟨act, hstep, -⟩
    exact Pool.step_calls htask (fun hc hw hsem => sem_hasRow hc hw hsem) hinv hstep
  exact hkept.1

end Rows

/-- What a delivery of the job is told: rows of the job, and of Vault what was encrypted. -/
structure DeliveryAnswers (P : PureProvider) (policyId : String) (new : NewJob) (plaintext : Json) (answer : Answers) :
    Prop where
  provider : P.Serves answer
  read : ∀ job, answer (.getProofJob new.proofId) = .ok (some job) → RowOf policyId new job
  written : ∀ attempts job, answer (.updateProofJob new.proofId (starting attempts)) = .ok (some job) →
    RowOf policyId new job
  unsealed : ∀ decrypted, answer (.unsealJobPayload new.sealedJobPayload) = .ok decrypted → decrypted = plaintext

/-- What a run of the engine is told: the same evidence, and its stores are there. -/
structure EngineAnswers (P : PureProvider) (request : PolicyRunRequest) (payload : Json) (answer : Answers) : Prop where
  provider : P.Serves answer
  evidence : EvidenceOf answer request payload
  evidenceStore : ∀ id own, ∃ r, answer (.putEvidence id own) = .ok r
  attestationStore : ∀ input, answer (.createAttestation input) = .ok ()

/-- **The service refines the engine** with a provider: a delivery that completes the job writes
the decision, the proof and the signals that the engine returns and attests, and none does when
the engine finds a mismatch. -/
structure RefinesRun (E : PolicyEngine) (S : WorkerSettings) (request : RunCreateRequest) (new : NewJob)
    (plaintext payload : Json) (P : PureProvider) : Prop where
  completed : ∀ delivery engine runId u, DeliveryAnswers P request.policyId new plaintext delivery →
    EngineAnswers P request.toPolicyRunRequest payload engine → Completing S new.proofId delivery u →
    ∃ result input, ((E.run request.toPolicyRunRequest runId).exec engine).2 = .ok result ∧
      (u.metadataPatch.getD []).lookup "decision" = some (.str result.decision.text) ∧
      Call.createAttestation input ∈ ((E.run request.toPolicyRunRequest runId).exec engine).1 ∧
      input.decision = result.decision ∧ u.proof = some input.proof ∧ u.publicSignals = some input.publicSignals
  mismatch : ∀ delivery engine runId e u, DeliveryAnswers P request.policyId new plaintext delivery →
    EngineAnswers P request.toPolicyRunRequest payload engine →
    ((E.run request.toPolicyRunRequest runId).exec engine).2 = .error (.framework e) → e.code = "dual_track_mismatch" →
    ¬ Completing S new.proofId delivery u

/-- Worker and service read the same manifests, and a worker tries a job at least once. -/
structure SameRegistries (R : RunService) (S : WorkerSettings) : Prop where
  policies : S.policies = R.policies
  circuits : S.circuits = R.circuits
  validateSchema : S.validateSchema = R.validateSchema
  repr : S.repr = R.repr
  maxAttempts : 1 ≤ S.maxAttempts

/-- What a run that is accepted has computed, and the job it has created. -/
structure AcceptedRun (R : RunService) (encrypt : Json → Except PyExn String) (request : RunCreateRequest)
    (runId : String)
    (answer : Answers) (manifest : PolicyPackManifest) (payload : Json) (parameters : List (String × ℤ))
    (reference : DualTrackReferenceResult) (new : NewJob) : Prop where
  registered : R.policies request.policyId = some manifest
  evidence : EvidenceOf answer request.toPolicyRunRequest payload
  decided : R.toPolicyEngine.referenceRun request.toPolicyRunRequest manifest payload = .ok (parameters, reference)
  checked : R.validatePrivateInputSchema manifest.circuitId reference.privateInput = .ok ()
  created : Call.createProofJob new ∈ ((R.createPolicyRun encrypt request runId).exec answer).1
  proofId : new.proofId = runId
  circuitId : new.circuitId = manifest.circuitId
  status : new.status = .queued
  policyId : new.metadata.get? "policy_id" = some (.str request.policyId)
  attempts : new.metadata.get? "attempt_count" = none
  sealedPayload : encrypt (RunService.sealedFields request parameters reference) = .ok new.sealedJobPayload

section Accepted

variable {R : RunService} {encrypt : Json → Except PyExn String} {request : RunCreateRequest} {runId : String}

theorem createPolicyRun_accepted {r : String} (h : ((R.createPolicyRun encrypt request runId).exec answer).2 = .ok r) :
    ∃ manifest payload parameters reference new,
      AcceptedRun R encrypt request runId answer manifest payload parameters reference new := by
  obtain ⟨manifest, payload, evidenceRef, d, sealedPayload, hmanifest, hevidence, hdraft, hseal, hmem⟩ :=
    createPolicyRun_ok h
  obtain ⟨parameters, reference, hparams, href, hschema, rfl⟩ := draft_ok hdraft
  exact ⟨manifest, payload, parameters, reference, _,
    { registered := hmanifest
      evidence := hevidence
      decided := bind_ok.2 ⟨parameters, hparams, bind_ok.2 ⟨reference, href, rfl⟩⟩
      checked := hschema
      created := hmem
      proofId := rfl
      circuitId := rfl
      status := rfl
      policyId := rfl
      attempts := rfl
      sealedPayload := hseal }⟩

/-- The worker proves something else than what the run has sealed, and signals may pass the
dual-track check. -/
def ProvesOther (E : PolicyEngine) (S : WorkerSettings) (request : PolicyRunRequest) (manifest : PolicyPackManifest)
    (reference : DualTrackReferenceResult) : Prop :=
  (∃ fields, reference.privateInput = .obj fields) ∧
  (∃ input, workerInput manifest.circuitId reference.privateInput = .ok input ∧
    AcceptsInput S manifest.circuitId input ∧
    input ≠ reference.privateInput) ∧
  ∃ signals verified circuit, E.circuitRun request manifest reference signals verified = .ok circuit

variable {manifest : PolicyPackManifest} {payload : Json} {parameters : List (String × ℤ)}
  {reference : DualTrackReferenceResult} {new : NewJob} {P : PureProvider} {delivery : Answers}

theorem RowOf.policyIdOf (h : RowOf request.policyId new job) : policyIdOf job = some request.policyId := by
  unfold Vellum.policyIdOf
  rw [h.policyId]
  exact if_neg request.policyId_ne

/-- **What a delivery that completes the job of a run has proved and checked.** -/
theorem completing_sealed (hsame : SameRegistries R S)
    (hrun : AcceptedRun R encrypt request runId answer manifest payload parameters reference new)
    (hanswers : DeliveryAnswers P request.policyId new (RunService.sealedFields request parameters reference) delivery)
    (h : Completing S new.proofId delivery u) :
    ∃ input generated verified circuit, (∃ fields, reference.privateInput = .obj fields) ∧
      workerInput manifest.circuitId reference.privateInput = .ok input ∧ AcceptsInput S manifest.circuitId input ∧
      P.generate manifest.circuitId input = .ok generated ∧
      P.verify manifest.circuitId generated.proof generated.publicSignals = .ok verified ∧
      R.toPolicyEngine.circuitRun request.toPolicyRunRequest manifest reference generated.publicSignals
        verified = .ok circuit ∧
      u = completion S new.proofId generated
        (some [("policy_version", .str manifest.policyVersion), ("decision", .str circuit.decision.text)]) := by
  obtain ⟨hu, -, job, hjob, -, hmem⟩ := completing_iff.1 h
  obtain ⟨-, row, hrow, -, hmem⟩ := (mem_deliverJob_iff hu).1 hmem
  -- the delivery goes on with a row of the job, whichever it is
  have hrowOf : RowOf request.policyId new (row.getD job) := by
    cases row with
    | none => exact hanswers.read job hjob
    | some updated => exact hanswers.written _ updated hrow
  obtain ⟨sealedPayload, decrypted, hsealed, hunsealed, hmem⟩ := (mem_executeJob_iff hu).1 hmem
  obtain rfl := hrowOf.sealedPayload sealedPayload hsealed
  obtain rfl := hanswers.unsealed decrypted hunsealed
  obtain ⟨input, hinput, generated, hgenerate, verified, hverify, patch, hpatch, -, rfl⟩ := (mem_proveJob_iff hu).1 hmem
  have hcircuitId : (row.getD job).circuitId = manifest.circuitId := hrowOf.circuitId.trans hrun.circuitId
  have hmanifest : S.policies request.policyId = some manifest := by
    rw [hsame.policies]
    exact hrun.registered
  rw [hcircuitId, hanswers.provider.1] at hgenerate
  rw [hcircuitId, hanswers.provider.2] at hverify
  obtain ⟨hobj, hworker, haccepts⟩ := proverInput_sealed.1 hinput
  rw [hcircuitId] at hworker haccepts
  have hchecked := (completionPatch_sealed (E := R.toPolicyEngine) hrowOf.policyIdOf hmanifest hsame.repr
    generated.publicSignals verified).symm.trans hpatch
  obtain ⟨circuit, hcircuit, rfl⟩ := map_ok.1 hchecked
  exact ⟨input, generated, verified, circuit, hobj, hworker, haccepts, hgenerate, hverify, hcircuit, rfl⟩

/-- **Where the worker proves what was sealed, the service refines the engine.** -/
theorem refinesRun_of_not (hsame : SameRegistries R S)
    (hrun : AcceptedRun R encrypt request runId answer manifest payload parameters reference new)
    (hno : ¬ ProvesOther R.toPolicyEngine S request.toPolicyRunRequest manifest reference) (P : PureProvider) :
    RefinesRun R.toPolicyEngine S request new (RunService.sealedFields request parameters reference) payload P := by
  have hcompleted : ∀ delivery engine runId u,
      DeliveryAnswers P request.policyId new (RunService.sealedFields request parameters reference) delivery →
      EngineAnswers P request.toPolicyRunRequest payload engine → Completing S new.proofId delivery u →
      ∃ result input, ((R.toPolicyEngine.run request.toPolicyRunRequest runId).exec engine).2 = .ok result ∧
        (u.metadataPatch.getD []).lookup "decision" = some (.str result.decision.text) ∧
        Call.createAttestation input ∈ ((R.toPolicyEngine.run request.toPolicyRunRequest runId).exec engine).1 ∧
        input.decision = result.decision ∧ u.proof = some input.proof ∧ u.publicSignals = some input.publicSignals := by
    intro delivery engine runId' u hdelivery hengine hcompleting
    obtain ⟨input, generated, verified, circuit, hobj, hworker, haccepts, hgenerate, hverify, hcircuit, rfl⟩ :=
      completing_sealed hsame hrun hdelivery hcompleting
    -- otherwise the worker has proved something else
    have hinput : input = reference.privateInput := by
      by_contra hne
      exact hno ⟨hobj, ⟨input, hworker, haccepts, hne⟩, _, _, circuit, hcircuit⟩
    subst hinput
    have hgenerate' := (hengine.provider.1 _ _).trans hgenerate
    have hverify' := (hengine.provider.2 _ _ _).trans hverify
    obtain ⟨hreturns, evidenceRef, hmem⟩ := @run_returns engine R.toPolicyEngine request.toPolicyRunRequest
      runId' _ _ _ _ _ _ _
      hrun.registered hengine.evidence hengine.evidenceStore hrun.decided hgenerate' hverify' hcircuit
        hengine.attestationStore
    exact ⟨_, _, hreturns, rfl, hmem, rfl, rfl, rfl⟩
  refine ⟨hcompleted, ?_⟩
  intro delivery engine runId' e u hdelivery hengine hraises _ hcompleting
  obtain ⟨result, -, hreturns, -⟩ := hcompleted delivery engine runId' u hdelivery hengine hcompleting
  rw [hraises] at hreturns
  cases hreturns

/-- The answers of the provider, the others as in a world where all goes well. -/
def PureProvider.answers (P : PureProvider) (decrypted : Json) (w : World) : Answers
  | .generate circuitId input => P.generate circuitId input
  | .verify circuitId proof signals => P.verify circuitId proof signals
  | c => .ok (demoReply decrypted true w c)

/-- A provider that knows one input. -/
noncomputable def onlyProves (input : Json) (result : ProofResult) (verified : Bool) : PureProvider where
  generate _ asked := open Classical in if asked = input then .ok result else .error (.other "unknown signal")
  verify _ _ _ := .ok verified

theorem AcceptedRun.row
    (hrun : AcceptedRun R encrypt request runId answer manifest payload parameters reference new) (now : ℚ) :
    RowOf request.policyId new (new.row now) where
  circuitId := rfl
  policyId := hrun.policyId
  sealedPayload := fun _ h => (Option.some.inj h).symm

/-- The world with the job of a run and nothing else. -/
def createdWorld (new : NewJob) : World := World.empty.createProofJob new 0

theorem createdWorld_row (new : NewJob) : (createdWorld new).proofJobs new.proofId = some (new.row 0) :=
  Function.update_self ..

theorem answers_delivery (hrun : AcceptedRun R encrypt request runId answer manifest payload parameters reference new)
    (P : PureProvider) (plaintext : Json) :
    DeliveryAnswers P request.policyId new plaintext (P.answers plaintext (createdWorld new)) where
  provider := ⟨fun _ _ => rfl, fun _ _ _ => rfl⟩
  read := by
    intro job hjob
    obtain rfl := Option.some.inj ((createdWorld_row new).symm.trans (Except.ok.inj hjob))
    exact hrun.row 0
  written := by
    intro attempts job hjob
    have hupdated := proofJobs_updateProofJob (createdWorld_row new) (starting attempts) 0
    obtain rfl := Option.some.inj (hupdated.symm.trans (Except.ok.inj hjob))
    exact (hrun.row 0).update (by simp [KeepsPolicyId, starting, AttemptMetadata.patch]) 0
  unsealed := fun _ h => (Except.ok.inj h).symm

theorem answers_engine (hrun : AcceptedRun R encrypt request runId answer manifest payload parameters reference new)
    (P : PureProvider) (w : World) : EngineAnswers P request.toPolicyRunRequest payload (P.answers payload w) where
  provider := ⟨fun _ _ => rfl, fun _ _ _ => rfl⟩
  evidence := by
    have hevidence := hrun.evidence
    unfold EvidenceOf at hevidence ⊢
    cases hev : request.evidence with
    | inline own =>
      rw [hev] at hevidence
      exact hevidence
    | ref stored => rfl
  evidenceStore := fun _ _ => ⟨_, rfl⟩
  attestationStore := fun _ => rfl

/-- **A first delivery completes the job** if the provider's answers pass. -/
theorem first_delivery_completes (hsame : SameRegistries R S)
    (hrun : AcceptedRun R encrypt request runId answer manifest payload parameters reference new) {input : Json}
    {generated : ProofResult} {verified : Bool} {circuit : DualTrackCircuitResult}
    (hobj : ∃ fields, reference.privateInput = .obj fields)
    (hworker : workerInput manifest.circuitId reference.privateInput = .ok input)
    (haccepts : AcceptsInput S manifest.circuitId input)
      (hgenerate : P.generate manifest.circuitId input = .ok generated)
    (hverify : P.verify manifest.circuitId generated.proof generated.publicSignals = .ok verified)
    (hcircuit : R.toPolicyEngine.circuitRun request.toPolicyRunRequest manifest reference
      generated.publicSignals verified =
      .ok circuit) :
    Completing S new.proofId (P.answers (RunService.sealedFields request parameters reference) (createdWorld new))
      (completion S new.proofId generated
        (some [("policy_version", .str manifest.policyVersion), ("decision", .str circuit.decision.text)])) := by
  have hmanifest : S.policies request.policyId = some manifest := by
    rw [hsame.policies]
    exact hrun.registered
  have hattempts : (nextAttemptMetadata (new.row 0).metadata S.maxAttempts).2 = false := by
    have hprevious : previousAttempts new.metadata = 0 := by
      unfold previousAttempts
      rw [hrun.attempts]
    show decide (S.maxAttempts < previousAttempts new.metadata + 1) = false
    rw [hprevious, decide_eq_false_iff_not]
    have := hsame.maxAttempts
    omega
  generalize hattempt : (nextAttemptMetadata (new.row 0).metadata S.maxAttempts).1 = attempts
  let row := (new.row 0).update (starting attempts) 0
  have hrow : RowOf request.policyId new row :=
    (hrun.row 0).update (by simp [KeepsPolicyId, starting, AttemptMetadata.patch]) 0
  have hcircuitId : row.circuitId = manifest.circuitId := hrun.circuitId
  refine completing_iff.2 ⟨rfl, ⟨(), rfl⟩, new.row 0, congrArg _ (createdWorld_row new), ?_, ?_⟩
  · show new.status.terminal = false
    rw [hrun.status]
    rfl
  refine (mem_deliverJob_iff rfl).2 ⟨hattempts, some row, ?_, ⟨(), rfl⟩, ?_⟩
  · rw [hattempt]
    exact congrArg _ (proofJobs_updateProofJob (createdWorld_row new) (starting attempts) 0)
  refine (mem_executeJob_iff rfl).2 ⟨new.sealedJobPayload, _, rfl, rfl, ?_⟩
  refine (mem_proveJob_iff rfl).2 ⟨input, proverInput_sealed.2 ⟨hobj, ?_, ?_⟩, generated, ?_, verified, ?_, _,
    ?_, ⟨(), rfl⟩, rfl⟩
  · show workerInput row.circuitId _ = _
    rw [hcircuitId]
    exact hworker
  · show AcceptsInput S row.circuitId _
    rw [hcircuitId]
    exact haccepts
  · show P.generate row.circuitId _ = _
    rw [hcircuitId]
    exact hgenerate
  · show P.verify row.circuitId _ _ = _
    rw [hcircuitId]
    exact hverify
  · refine (completionPatch_sealed (E := R.toPolicyEngine) hrow.policyIdOf hmanifest hsame.repr _ _).trans ?_
    rw [hcircuit]
    rfl

/-- The engine does not return with a provider that knows another input than the sealed one. -/
theorem engine_raises (hrun : AcceptedRun R encrypt request runId answer manifest payload parameters reference new)
    {input : Json} (hne : input ≠ reference.privateInput) {known : ProofResult} {verified : Bool} {engine : Answers}
    (hengine : EngineAnswers (onlyProves input known verified) request.toPolicyRunRequest payload engine)
    (result : PolicyRunResult) :
    ((R.toPolicyEngine.run request.toPolicyRunRequest runId).exec engine).2 ≠ .ok result := by
  intro hreturns
  obtain ⟨manifest', payload', evidenceRef, parameters', reference', generated, verified', circuit',
    hmanifest', hevidence', href',
    hgenerate, -⟩ := run_ok hreturns
  obtain rfl := Option.some.inj (hrun.registered.symm.trans hmanifest')
  obtain rfl := evidenceOf_unique hengine.evidence hevidence'
  obtain ⟨rfl, rfl⟩ := Prod.mk.inj (Except.ok.inj (hrun.decided.symm.trans href'))
  have hraises : (onlyProves input known verified).generate manifest.circuitId reference.privateInput =
      .error (.other "unknown signal") := if_neg hne.symm
  have hboth := hraises.symm.trans ((hengine.provider.1 _ _).symm.trans hgenerate)
  cases hboth

/-- **Where the worker proves something else, a provider may know that and nothing else.** -/
theorem not_refinesRun (hsame : SameRegistries R S)
    (hrun : AcceptedRun R encrypt request runId answer manifest payload parameters reference new)
    (hother : ProvesOther R.toPolicyEngine S request.toPolicyRunRequest manifest reference) :
    ∃ P, ¬ RefinesRun R.toPolicyEngine S request new (RunService.sealedFields request parameters reference)
      payload P := by
  obtain ⟨hobj, ⟨input, hworker, haccepts, hne⟩, signals, verified, circuit, hcircuit⟩ := hother
  let P := onlyProves input ⟨.null, signals⟩ verified
  refine ⟨P, fun hrefines => ?_⟩
  have hgenerate : P.generate manifest.circuitId input = .ok ⟨.null, signals⟩ := if_pos rfl
  have hcompleting := first_delivery_completes hsame hrun hobj hworker haccepts hgenerate rfl hcircuit
  have hengine := answers_engine hrun P .empty
  obtain ⟨result, -, hreturns, -⟩ := hrefines.completed _ _ runId _ (answers_delivery hrun P _) hengine hcompleting
  exact engine_raises hrun hne hengine result hreturns

/-! ### Generated policies -/

variable {policy : GeneratedReferencePolicy} {n : NormalizedEvidence} {sha256 : String → String}

/-- The private input of a generated policy: the batch, then the entries of the parameters. -/
theorem toPrivateInput_entries {privateInput : Json} (h : policy.toPrivateInput sha256 n = some privateInput) :
    ∃ entries, policy.parameterEntries sha256 n = some entries ∧
      privateInput = .obj ([("balances", .arr (n.balances.map .int)), ("limits", .arr (n.limits.map .int)),
        ("active_count", .int n.activeCount.toInt)] ++ entries) := by
  unfold GeneratedReferencePolicy.toPrivateInput at h
  obtain ⟨entries, hentries, heq⟩ := Option.map_eq_some_iff.1 h
  exact ⟨entries, hentries, heq.symm⟩

/-- **The batch that is prepared again has no parameters.** -/
theorem reprepared_iff {privateInput : Json} {prepared : PreparedBatchInput}
    (hprivate : policy.toPrivateInput sha256 n = some privateInput)
    (h : batchPrepareFromPrivateInput privateInput = .ok prepared) :
    prepared.toCircuitInput = privateInput ↔ policy.parameters.keys = [] := by
  obtain ⟨entries, hentries, rfl⟩ := toPrivateInput_entries hprivate
  obtain ⟨-, rfl⟩ := batchPrepare_again.1 h
  have hcount : PreparedBatchInput.toCircuitInput ⟨n.balances, n.limits, .int n.activeCount.toInt⟩ =
      .obj [("balances", .arr (n.balances.map .int)), ("limits", .arr (n.limits.map .int)),
        ("active_count", .int n.activeCount.toInt)] := rfl
  rw [hcount]
  have hempty : entries = [] ↔ policy.parameters.keys = [] := by
    unfold GeneratedReferencePolicy.parameterEntries at hentries
    by_cases hk : policy.parameters.keys = []
    · rw [if_pos hk] at hentries
      exact iff_of_true (Option.some.inj hentries).symm hk
    · rw [if_neg hk] at hentries
      obtain ⟨values, -, rfl⟩ := Option.map_eq_some_iff.1 hentries
      exact iff_of_false (List.cons_ne_nil _ _) hk
  rw [← hempty, Json.obj.injEq, eq_comm, List.append_right_eq_self]

/-- **The worker drops the parameters**: the circuit is the batch circuit, the policy declares
parameters, and the batch without them passes the worker's checks. -/
structure DropsParameters (E : PolicyEngine) (S : WorkerSettings) (request : PolicyRunRequest)
    (manifest : PolicyPackManifest)
    (policy : GeneratedReferencePolicy) (reference : DualTrackReferenceResult) : Prop where
  circuit : manifest.circuitId = defaultBatchCircuitId
  declared : policy.parameters.keys ≠ []
  prepared : ∃ prepared, batchPrepareFromPrivateInput reference.privateInput = .ok prepared ∧
    AcceptsInput S manifest.circuitId prepared.toCircuitInput
  passes : ∃ signals verified circuit, E.circuitRun request manifest reference signals verified = .ok circuit

theorem provesOther_iff {E : PolicyEngine} {request : PolicyRunRequest}
    (hprivate : policy.toPrivateInput sha256 n = some reference.privateInput) :
    ProvesOther E S request manifest reference ↔ DropsParameters E S request manifest policy reference := by
  constructor
  · rintro ⟨-, ⟨input, hworker, haccepts, hne⟩, hpasses⟩
    unfold workerInput at hworker
    by_cases hbatch : manifest.circuitId = defaultBatchCircuitId
    · rw [if_pos hbatch] at hworker
      obtain ⟨prepared, hprepared, rfl⟩ := map_ok.1 hworker
      exact ⟨hbatch, fun hk => hne ((reprepared_iff hprivate hprepared).2 hk), ⟨prepared, hprepared, haccepts⟩, hpasses⟩
    · rw [if_neg hbatch] at hworker
      exact absurd (Except.ok.inj hworker).symm hne
  · rintro ⟨hbatch, hk, ⟨prepared, hprepared, haccepts⟩, hpasses⟩
    obtain ⟨entries, -, hobj⟩ := toPrivateInput_entries hprivate
    refine ⟨⟨_, hobj⟩, ⟨prepared.toCircuitInput, ?_, haccepts, fun heq =>
      hk ((reprepared_iff hprivate hprepared).1 heq)⟩, hpasses⟩
    unfold workerInput
    rw [if_pos hbatch, hprepared]
    rfl

/-- **When the service refines the engine.** For every run that is accepted, the service refines
the engine with every provider exactly when the worker does not prove something else than what
was sealed; for a generated policy, when it does not drop the parameters of a batch. -/
theorem service_refines_iff {r : String} (hsame : SameRegistries R S)
    (haccepted : ((R.createPolicyRun encrypt request runId).exec answer).2 = .ok r) :
    ∃ manifest payload parameters reference new,
      AcceptedRun R encrypt request runId answer manifest payload parameters reference new ∧
      ((∀ P, RefinesRun R.toPolicyEngine S request new (RunService.sealedFields request parameters reference)
        payload P) ↔
        ¬ ProvesOther R.toPolicyEngine S request.toPolicyRunRequest manifest reference) ∧
      ∀ policy, RegisteredPolicy R.toPolicyEngine request.policyId policy →
        (ProvesOther R.toPolicyEngine S request.toPolicyRunRequest manifest reference ↔
          DropsParameters R.toPolicyEngine S request.toPolicyRunRequest manifest policy reference) := by
  obtain ⟨manifest, payload, parameters, reference, new, hrun⟩ := createPolicyRun_accepted haccepted
  refine ⟨manifest, payload, parameters, reference, new, hrun, ⟨?_, refinesRun_of_not hsame hrun⟩, ?_⟩
  · intro hrefines hother
    obtain ⟨P, hP⟩ := not_refinesRun hsame hrun hother
    exact hP (hrefines P)
  · rintro policy ⟨manifest', outputs, hmanifest, hreg⟩
    obtain rfl := Option.some.inj (hmanifest.symm.trans hrun.registered)
    have hdecided := hrun.decided
    unfold PolicyEngine.referenceRun at hdecided
    obtain ⟨parameters', -, hdecided⟩ := bind_ok.1 hdecided
    obtain ⟨reference', href, hdecided⟩ := bind_ok.1 hdecided
    obtain ⟨rfl, rfl⟩ := Prod.mk.inj (pure_ok.1 hdecided)
    obtain ⟨n, -, -, hprivate⟩ := decided_of_reference hreg href
    exact provesOther_iff hprivate

end Accepted

/-! ## A policy with a parameter, on two circuits -/

/-- The policy with one parameter, for 250 rows. -/
def batchParamPolicy : GeneratedReferencePolicy := { oneParamPolicy "a" with batchSize := 250 }

/-- A service with that policy. The schema of the circuit asks for an object. -/
def batchParamService (circuitId : String) : RunService where
  policies _ := some
    { policyId := "p"
      policyVersion := "1.0.0"
      circuitId := circuitId
      referencePolicy := "r"
      differentialOutputs := .empty
      expectedAttestation := .empty }
  referencePolicies _ := some (batchParamPolicy.reference demoSha .empty)
  resolveParameters _ _ := .ok [("a", 3)]
  sha256 := demoSha
  repr _ := ""
  circuits _ := some (.obj [("type", .str "object")])
  validateSchema _ _ := .ok ()

/-- Its worker. -/
def batchParamWorker (circuitId : String) : WorkerSettings :=
  { demoWorker with
    policies := (batchParamService circuitId).policies
    circuits := (batchParamService circuitId).circuits
    validateSchema := (batchParamService circuitId).validateSchema
    repr := (batchParamService circuitId).repr }

theorem batchParam_same (circuitId : String) :
    SameRegistries (batchParamService circuitId) (batchParamWorker circuitId) :=
  ⟨rfl, rfl, rfl, rfl, (by decide : (1 : ℤ) ≤ 3)⟩

/-- What it normalizes one row to. -/
def batchParamEvidence : NormalizedEvidence := ⟨padTo 250 [5], padTo 250 [0], .int 1, [("a", 3)]⟩

theorem batchParam_normalize :
    batchParamPolicy.normalize (effectivePayload (evidenceOf [5] [0] [("a", 4)]) [("a", 3)]) =
      .ok batchParamEvidence := by
  have hadmits : ∀ p ∈ batchParamPolicy.parameters.items, p.2.admits ((fun _ => 3 : String → ℤ) p.1) := by
    simp [batchParamPolicy, oneParamPolicy, PolicyParameterSpec.admits]
  exact (@GeneratedReferencePolicy.normalize_ok batchParamPolicy [5] [0] (fun _ => 3) hadmits _).2
    ⟨by decide, rfl, by decide, by simp [U32], by simp [U32], rfl⟩

/-- The run is accepted, on both circuits. -/
theorem batchParam_accepted (circuitId : String) (h : circuitId = "credit_check" ∨ circuitId = defaultBatchCircuitId) :
    (((batchParamService circuitId).createPolicyRun oneParamEncrypt (oneParamRequest (some "q2")) "r1").exec
      oneParamAnswer).2 = .ok "r1" := by
  rw [← toOption_eq_some]
  rcases h with rfl | rfl
  · decide +kernel
  · decide +kernel

/-- The accepted run of the demo: what the run is about, and what it has computed. -/
abbrev BatchParamRun (circuitId : String) (manifest : PolicyPackManifest) (payload : Json)
    (parameters : List (String × ℤ))
    (reference : DualTrackReferenceResult) (new : NewJob) : Prop :=
  AcceptedRun (batchParamService circuitId) oneParamEncrypt (oneParamRequest (some "q2")) "r1" oneParamAnswer
    manifest payload
    parameters reference new

/-- A manifest without differential outputs compares none. -/
theorem reference_outputs_nil {policies : String → Option ReferencePolicy} {referencePolicy : String} {evidence : Json}
    {reference : DualTrackReferenceResult} (h : prepareReferenceTrack policies referencePolicy .empty
      evidence = .ok reference) :
    reference.outputs = [] := by
  unfold prepareReferenceTrack at h
  cases hpolicy : policies referencePolicy with
  | none =>
    rw [hpolicy] at h
    cases h
  | some policy =>
    rw [hpolicy] at h
    obtain ⟨⟨⟩, -, h⟩ := bind_ok.1 h
    obtain ⟨normalized, -, h⟩ := bind_ok.1 h
    obtain ⟨decision, -, h⟩ := bind_ok.1 h
    obtain ⟨projected, -, h⟩ := bind_ok.1 h
    obtain ⟨outputs, houtputs, h⟩ := bind_ok.1 h
    obtain ⟨privateInput, -, h⟩ := bind_ok.1 h
    rw [← pure_ok.1 h]
    exact (Except.ok.inj houtputs).symm

section BatchParam

variable {circuitId : String} {manifest : PolicyPackManifest} {payload : Json} {parameters : List (String × ℤ)}
  {reference : DualTrackReferenceResult} {new : NewJob}

theorem batchParam_reference (hrun : BatchParamRun circuitId manifest payload parameters reference new) :
    manifest.circuitId = circuitId ∧ batchParamPolicy.toPrivateInput demoSha batchParamEvidence =
      some reference.privateInput ∧
      ((batchParamService circuitId).circuitRun (oneParamRequest (some "q2")).toPolicyRunRequest manifest
        reference [.str "1"]
        true) = .ok ⟨.pass, []⟩ := by
  obtain rfl := Option.some.inj hrun.registered
  have hpayload : payload = evidenceOf [5] [0] [("a", 4)] := hrun.evidence
  have hdecided := hrun.decided
  unfold PolicyEngine.referenceRun at hdecided
  obtain ⟨parameters', hparams, hdecided⟩ := bind_ok.1 hdecided
  obtain ⟨reference', href, hdecided⟩ := bind_ok.1 hdecided
  obtain ⟨rfl, rfl⟩ := Prod.mk.inj (pure_ok.1 hdecided)
  obtain rfl := Except.ok.inj hparams
  rw [hpayload] at href
  obtain ⟨n, ⟨hn, -⟩, hdecision, hprivate⟩ :=
    @decided_of_reference batchParamPolicy _ demoSha (batchParamService circuitId).referencePolicies _ .empty
      _ _ _ rfl href
  obtain rfl := Except.ok.inj (batchParam_normalize.symm.trans hn)
  have hpass : batchParamPolicy.evaluateReference batchParamEvidence = some .pass := by decide +kernel
  refine ⟨rfl, hprivate, bind_ok.2 ⟨⟨.pass, []⟩, rfl, bind_ok.2 ⟨(), ?_, rfl⟩⟩⟩
  rw [Option.some.inj (hdecision.symm.trans hpass), reference_outputs_nil href]
  rfl

end BatchParam

/-- A provider of a circuit without parameters: it knows the batch alone. -/
noncomputable def batchParamProvider : PureProvider :=
  onlyProves (PreparedBatchInput.toCircuitInput ⟨padTo 250 [5], padTo 250 [0], .int 1⟩) ⟨.null, [.str "1"]⟩ true

/-- **The worker completes a run with a proof that knows no parameters**, and the engine does not
return. -/
theorem service_drops_parameters : ∃ new plaintext delivery engine u,
    SameRegistries (batchParamService defaultBatchCircuitId) (batchParamWorker defaultBatchCircuitId) ∧
    (((batchParamService defaultBatchCircuitId).createPolicyRun oneParamEncrypt (oneParamRequest (some "q2")) "r1").exec
      oneParamAnswer).2 = .ok "r1" ∧
    Call.createProofJob new ∈
      (((batchParamService defaultBatchCircuitId).createPolicyRun oneParamEncrypt
        (oneParamRequest (some "q2")) "r1").exec
        oneParamAnswer).1 ∧
    oneParamEncrypt plaintext = .ok new.sealedJobPayload ∧
    DeliveryAnswers batchParamProvider "p" new plaintext delivery ∧
    EngineAnswers batchParamProvider (oneParamRequest (some "q2")).toPolicyRunRequest
      (evidenceOf [5] [0] [("a", 4)]) engine ∧
    Completing (batchParamWorker defaultBatchCircuitId) new.proofId delivery u ∧
    (u.metadataPatch.getD []).lookup "decision" = some (.str "pass") ∧
    ∀ result, (((batchParamService defaultBatchCircuitId).toPolicyEngine.run
      (oneParamRequest (some "q2")).toPolicyRunRequest
      "r1").exec engine).2 ≠ .ok result := by
  have hsame := batchParam_same defaultBatchCircuitId
  have haccepted := batchParam_accepted defaultBatchCircuitId (.inr rfl)
  obtain ⟨manifest, payload, parameters, reference, new, hrun⟩ := createPolicyRun_accepted haccepted
  have hpayload : payload = evidenceOf [5] [0] [("a", 4)] := hrun.evidence
  obtain ⟨hcircuitId, hprivate, hcircuit⟩ := batchParam_reference hrun
  obtain ⟨entries, -, hobj⟩ := toPrivateInput_entries hprivate
  have hbatch : batchPrepareFromPrivateInput reference.privateInput = .ok ⟨padTo 250 [5], padTo 250 [0], .int 1⟩ := by
    obtain ⟨size, hsize, hprepared⟩ := (GeneratedReferencePolicy.normalize_prepared batchParam_normalize).1
    have h250 : size = maxBatchSize := by
      rcases hsize with rfl | rfl
      · rfl
      · rfl
    rw [h250] at hprepared
    rw [hobj]
    exact batchPrepare_again.2 ⟨hprepared, rfl⟩
  have hdrops : (PreparedBatchInput.toCircuitInput ⟨padTo 250 [5], padTo 250 [0], .int 1⟩) ≠
    reference.privateInput := by
    intro heq
    have hnone := (reprepared_iff hprivate hbatch).1 heq
    cases hnone
  have hworker : workerInput manifest.circuitId reference.privateInput =
      .ok (PreparedBatchInput.toCircuitInput ⟨padTo 250 [5], padTo 250 [0], .int 1⟩) := by
    unfold workerInput
    rw [if_pos hcircuitId, hbatch]
    rfl
  have haccepts : AcceptsInput (batchParamWorker defaultBatchCircuitId) manifest.circuitId
      (PreparedBatchInput.toCircuitInput ⟨padTo 250 [5], padTo 250 [0], .int 1⟩) := ⟨_, rfl, rfl⟩
  have hcompleting := first_delivery_completes (P := batchParamProvider) hsame hrun ⟨_, hobj⟩ hworker haccepts
    (if_pos rfl) rfl
    hcircuit
  have hengine := answers_engine hrun batchParamProvider .empty
  have hraises := engine_raises hrun hdrops hengine
  rw [hpayload] at hengine hraises
  exact ⟨new, _, _, _, _, hsame, haccepted, hrun.created, hrun.sealedPayload, answers_delivery hrun
    batchParamProvider _, hengine,
    hcompleting, rfl, hraises⟩

/-- On another circuit the service refines the engine, and there are deliveries that complete. -/
theorem service_refines_elsewhere : ∃ manifest payload parameters reference new,
    BatchParamRun "credit_check" manifest payload parameters reference new ∧
    (∀ P, RefinesRun (batchParamService "credit_check").toPolicyEngine (batchParamWorker "credit_check")
      (oneParamRequest (some "q2")) new (RunService.sealedFields (oneParamRequest (some "q2")) parameters
        reference) payload P) ∧
    ∃ P delivery u,
      DeliveryAnswers P "p" new (RunService.sealedFields (oneParamRequest (some "q2")) parameters reference) delivery ∧
        Completing (batchParamWorker "credit_check") new.proofId delivery u := by
  have hsame := batchParam_same "credit_check"
  obtain ⟨manifest, payload, parameters, reference, new, hrun, hiff, hpolicy⟩ :=
    service_refines_iff hsame (batchParam_accepted "credit_check" (.inl rfl))
  obtain ⟨hcircuitId, hprivate, hcircuit⟩ := batchParam_reference hrun
  have hother : manifest.circuitId ≠ defaultBatchCircuitId := by
    rw [hcircuitId]
    decide
  refine ⟨manifest, payload, parameters, reference, new, hrun, hiff.2 ?_, ?_⟩
  · have hregistered : RegisteredPolicy (batchParamService "credit_check").toPolicyEngine "p" batchParamPolicy :=
      ⟨_, _, rfl, rfl⟩
    rw [hpolicy batchParamPolicy hregistered]
    exact fun hdrops => hother hdrops.circuit
  · obtain ⟨entries, -, hobj⟩ := toPrivateInput_entries hprivate
    let P : PureProvider := ⟨fun _ _ => .ok ⟨.null, [.str "1"]⟩, fun _ _ _ => .ok true⟩
    have hcompleting := first_delivery_completes (P := P) hsame hrun ⟨_, hobj⟩ (if_neg hother) ⟨_, rfl, rfl⟩
      rfl rfl hcircuit
    exact ⟨P, _, _, answers_delivery hrun P _, hcompleting⟩

end Vellum
