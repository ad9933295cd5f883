import Vellum.Lib.Rely
import Vellum.Proof.CompilerCli
import Vellum.Proof.RerunLifecycle
import Vellum.Proof.Sealing
import Vellum.Proof.SealedRun
import Vellum.Proof.TaskCalls

/-!
# Only what was submitted is proved

The sealed payload of a job is copied: from the request to the row of the job, from there to a dead
letter, from the dead letter to the row of a rerun, which may fail in its turn. A dead letter that is
written again keeps an old payload and takes the circuit id of the new failure. All the same every
payload stays with the job it was submitted for, which is found by following `rerun_of`, and a job is
completed with that submission only.

* `Lineage`: from a rerun to the job that was submitted.
* `Provenance`: every payload in the database was sealed for the submission at the end of its lineage,
  and every completed row was written for it.
* `sem_provenance`: every call keeps that.
* `deliver_proven`, `request_proven`: the programs, while the others change the database.
* `only_submitted_proved`: what the provider is asked to prove, in every run.
-/

namespace Vellum

open Prog Broker

variable {V : SealedServices} {S : WorkerSettings} {settings : Set WorkerSettings} {sha256 : String → String}
  {w w' : World} {proofId circuitId sealedPayload id root : String} {kind : JobKind} {job : ProofJob}
  {attempts : AttemptMetadata}

/-! ## Lineages -/

/-- The job that a rerun comes from. -/
def rerunOf? (metadata : Dict Json) : Option Json := metadata.get? "rerun_of"

/-- **The job at the root** of a chain of reruns, each of which names the one before it. -/
inductive Lineage (w : World) : String → String → Prop where
  | submitted {id : String} {job : ProofJob} (hjob : w.proofJobs id = some job) (hnone : rerunOf? job.metadata = none) :
      Lineage w id id
  | rerun {id parent root : String} {job : ProofJob} (hjob : w.proofJobs id = some job)
      (hparent : rerunOf? job.metadata = some (.str parent)) (hroot : Lineage w parent root) : Lineage w id root

/-- A chain has one root. -/
theorem Lineage.unique (h : Lineage w id root) {root' : String} (h' : Lineage w id root') : root = root' := by
  induction h with
  | submitted hjob hnone =>
    cases h' with
    | submitted => rfl
    | rerun hjob' hparent' hroot' =>
      rw [← Option.some.inj (hjob.symm.trans hjob'), hnone] at hparent'
      cases hparent'
  | rerun hjob hparent _ ih =>
    cases h' with
    | submitted hjob' hnone' =>
      rw [← Option.some.inj (hjob.symm.trans hjob'), hparent] at hnone'
      cases hnone'
    | rerun hjob' hparent' hroot' =>
      rw [← Option.some.inj (hjob.symm.trans hjob'), hparent] at hparent'
      obtain rfl := Json.str.inj (Option.some.inj hparent')
      exact ih hroot'

/-- No job is removed, given another circuit, another policy or another parent. -/
def SameOrigins (w w' : World) : Prop := ∀ {id job}, w.proofJobs id = some job →
  ∃ job', w'.proofJobs id = some job' ∧ job'.kind = job.kind ∧ rerunOf? job'.metadata = rerunOf? job.metadata

theorem SameOrigins.trans {w'' : World} (h : SameOrigins w w') (h' : SameOrigins w' w'') : SameOrigins w w'' := by
  intro id job hjob
  obtain ⟨job', hjob', hkind, hparent⟩ := h hjob
  obtain ⟨job'', hjob'', hkind', hparent'⟩ := h' hjob'
  exact ⟨job'', hjob'', hkind'.trans hkind, hparent'.trans hparent⟩

theorem Lineage.mono (h : Lineage w id root) (hR : SameOrigins w w') : Lineage w' id root := by
  induction h with
  | submitted hjob hnone =>
    obtain ⟨job', hjob', -, hsame⟩ := hR hjob
    exact .submitted hjob' (hsame.trans hnone)
  | rerun hjob hparent _ ih =>
    obtain ⟨job', hjob', -, hsame⟩ := hR hjob
    exact .rerun hjob' (hsame.trans hparent) ih

/-- The job is there, with that circuit, that policy and that root. -/
structure Origin (w : World) (id : String) (kind : JobKind) (root : String) : Prop where
  kind : ∃ job, w.proofJobs id = some job ∧ job.kind = kind
  lineage : Lineage w id root

theorem Origin.mono (h : Origin w id kind root) (hR : SameOrigins w w') : Origin w' id kind root := by
  obtain ⟨job, hjob, hkind⟩ := h.kind
  obtain ⟨job', hjob', hsame, -⟩ := hR hjob
  exact ⟨⟨job', hjob', hsame.trans hkind⟩, h.lineage.mono hR⟩

theorem Origin.unique (h : Origin w id kind root) {kind' : JobKind} {root' : String} (h' : Origin w id kind' root') :
    kind = kind' ∧ root = root' := by
  obtain ⟨job, hjob, rfl⟩ := h.kind
  obtain ⟨job', hjob', rfl⟩ := h'.kind
  rw [Option.some.inj (hjob.symm.trans hjob')]
  exact ⟨rfl, h.lineage.unique h'.lineage⟩

/-! ## The database -/

namespace SealedServices

/-- The input is the one the worker makes of the submission of a job to the circuit. -/
def Submitted (V : SealedServices) (root circuitId : String) (input : Json) : Prop :=
  ∃ sub ∈ V.submissions, sub.proofId = root ∧ sub.circuitId = circuitId ∧
    ∃ prepared, workerInput circuitId sub.payload.privateInput = .ok prepared ∧ input.SameContent prepared

/-- **The tracks of a run agree**: on the decision, and on the outputs as Python compares them. -/
def Agrees (S : WorkerSettings) (policyId : String) (payload : JobPayload) (publicSignals : List Json) (verified : Bool)
    (decision : PolicyDecision) : Prop :=
  ∃ manifest outputs circuit, S.policies policyId = some manifest ∧
    sealedReference payload.toJson = .ok (decision, outputs) ∧
    evaluateCircuitTrack S.repr policyId manifest.expectedAttestation manifest.differentialOutputs publicSignals
      verified = .ok circuit ∧
    circuit.decision = decision ∧ Json.pyEq (.obj outputs) (.obj circuit.outputs) = true

/-- What a job of the submission is completed with: an answer of the provider to the input of the submission,
and for a policy run the decision that both tracks agree on. -/
def Concludes (V : SealedServices) (settings : Set WorkerSettings) (sub : JobSubmission) (result : ProofResult)
    (recorded : PolicyDecision → Prop) : Prop :=
  ∃ S ∈ settings, ∃ prepared input verified, workerInput sub.circuitId sub.payload.privateInput = .ok prepared ∧
    input.SameContent prepared ∧ V.generates sub.circuitId input result ∧
    V.verifies sub.circuitId result.proof result.publicSignals verified ∧
    ∀ policyId, sub.policyId = some policyId → policyId ≠ "" → ∃ decision,
      Agrees S policyId sub.payload result.publicSignals verified decision ∧ recorded decision

/-- The columns of a result, before and after they are pruned. -/
def Stores (job : ProofJob) (result : ProofResult) : Prop :=
  job.proof = some result.proof ∧ job.publicSignals = some (.arr result.publicSignals) ∨
    job.proof = some .null ∧ job.publicSignals = some .null

/-- **A completed row** of a submission. -/
def Completed (V : SealedServices) (settings : Set WorkerSettings) (root : String) (job : ProofJob) : Prop :=
  ∃ sub ∈ V.submissions, sub.proofId = root ∧ sub.kind = job.kind ∧ ∃ result, Stores job result ∧
    V.Concludes settings sub result fun decision => job.metadata.get? "decision" = some (.str decision.text)

/-- What is required at a call of a program, by the message that it is a delivery of. -/
def Proven (V : SealedServices) (settings : Set WorkerSettings) (held : Option String) : Call → World → Prop
  | .createProofJob new, w =>
    new.status = .queued ∧ (rerunOf? new.metadata = none ∧ V.Sealed new.proofId new.kind new.sealedJobPayload ∨
      ∃ parent root, rerunOf? new.metadata = some (.str parent) ∧ Origin w parent new.kind root ∧
        V.Sealed root new.kind new.sealedJobPayload)
  | .updateProofJob id u, w =>
    "rerun_of" ∉ (u.metadataPatch.getD []).map Prod.fst ∧ "policy_id" ∉ (u.metadataPatch.getD []).map Prod.fst ∧
      (u.status = .completed → ∃ sub ∈ V.submissions, Origin w id sub.kind sub.proofId ∧ ∃ result,
        u.proof = some result.proof ∧ u.publicSignals = some result.publicSignals ∧
        V.Concludes settings sub result fun decision => ∀ metadata : Dict Json,
          (metadata.update (u.metadataPatch.getD [])).get? "decision" = some (.str decision.text))
  | .upsertDeadLetterJob input, w => ∃ root kind, kind.circuitId = input.circuitId ∧
      Origin w input.proofId kind root ∧ ∀ {s}, input.sealedRerunPayload = some s → V.Sealed root kind s
  | .generate circuitId input, w => ∃ id root kind, held = some id ∧ kind.circuitId = circuitId ∧
      Origin w id kind root ∧ V.Submitted root circuitId input
  | _, _ => True

end SealedServices

/-- **Every payload was sealed for the submission at the root of its job**, and every completed job was
completed with that submission. -/
structure Provenance (V : SealedServices) (settings : Set WorkerSettings) (w : World) : Prop where
  key : ∀ {id job}, w.proofJobs id = some job → job.proofId = id
  job : ∀ {id job}, w.proofJobs id = some job → ∃ root, Lineage w id root ∧
    (∀ {s}, job.sealedJobPayload = some s → V.Sealed root job.kind s) ∧
    (job.status = .completed → V.Completed settings root job)
  letter : ∀ {row}, row ∈ w.deadLetterJobs → ∃ root kind, kind.circuitId = row.circuitId ∧
    Origin w row.proofId kind root ∧ ∀ {s}, row.sealedRerunPayload = some s → V.Sealed root kind s

variable {held : Option String}

theorem proven_stable (held : Option String) (c : Call) (w w' : World) (h : V.Proven settings held c w)
    (hR : SameOrigins w w') : V.Proven settings held c w' := by
  cases c with
  | createProofJob new =>
    obtain ⟨hqueued, h⟩ := h
    refine ⟨hqueued, ?_⟩
    rcases h with h | ⟨parent, root, hparent, horigin, hsealed⟩
    · exact .inl h
    · exact .inr ⟨parent, root, hparent, horigin.mono hR, hsealed⟩
  | updateProofJob id u =>
    obtain ⟨hparent, hpolicy, hcompleted⟩ := h
    refine ⟨hparent, hpolicy, fun hstatus => ?_⟩
    obtain ⟨sub, hsub, horigin, hconcludes⟩ := hcompleted hstatus
    exact ⟨sub, hsub, horigin.mono hR, hconcludes⟩
  | upsertDeadLetterJob input =>
    obtain ⟨root, kind, hcircuit, horigin, hsealed⟩ := h
    exact ⟨root, kind, hcircuit, horigin.mono hR, hsealed⟩
  | generate circuitId input =>
    obtain ⟨id, root, kind, hheld, hcircuit, horigin, hsubmitted⟩ := h
    exact ⟨id, root, kind, hheld, hcircuit, horigin.mono hR, hsubmitted⟩
  | _ => trivial

/-- A job after a call: the one before it, perhaps without its payload, or a new one. -/
theorem job_after {c : Call} {a : Except PyExn c.Resp} (h : c.Sem w a w') {job' : ProofJob}
    (hjob : w'.proofJobs id = some job') :
    (∃ job, w.proofJobs id = some job ∧ job'.proofId = job.proofId ∧
      (job'.sealedJobPayload = job.sealedJobPayload ∨ job'.sealedJobPayload = none)) ∨
    ∃ new now, c = .createProofJob new ∧ new.proofId = id ∧ job' = new.row now := by
  rcases row_cases h id with heq | ⟨u, job, now, -, hold, hnew⟩ | ⟨new, now, rfl, hid, -, hnew⟩ |
    ⟨site, job, now, -, hold, hnew⟩ | ⟨olderThan, job, now, -, hold, hnew⟩
  · rw [heq] at hjob
    exact .inl ⟨job', hjob, rfl, .inl rfl⟩
  · obtain rfl := Option.some.inj (hnew.symm.trans hjob)
    exact .inl ⟨job, hold, rfl, .inl rfl⟩
  · exact .inr ⟨new, now, rfl, hid, Option.some.inj (hjob.symm.trans hnew)⟩
  · obtain rfl := Option.some.inj (hnew.symm.trans hjob)
    exact .inl ⟨job, hold, rfl, .inr rfl⟩
  · obtain rfl := Option.some.inj (hnew.symm.trans hjob)
    refine .inl ⟨job, hold, ?_⟩
    unfold ProofJob.prune
    split_ifs
    · exact ⟨rfl, .inl rfl⟩
    · exact ⟨rfl, .inl rfl⟩

/-- What an update makes of the circuit and the policy of a job. -/
theorem kind_update {u : JobUpdate} {now : ℚ} (h : "policy_id" ∉ (u.metadataPatch.getD []).map Prod.fst) :
    (job.update u now).kind = job.kind :=
  congrArg (JobKind.mk job.circuitId) (Dict.get?_update_of_notMem h _)

/-- **The circuit, the policy and the parent of a job never change.** -/
theorem sem_sameOrigins {c : Call} {a : Except PyExn c.Resp} (h : c.Sem w a w') (hc : V.Proven settings held c w) :
    SameOrigins w w' := by
  intro id job hjob
  rcases row_cases h id with heq | ⟨u, old, now, rfl, hold, hnew⟩ | ⟨new, now, -, -, hnone, -⟩ |
    ⟨site, old, now, -, hold, hnew⟩ | ⟨olderThan, old, now, -, hold, hnew⟩
  · exact ⟨job, heq.trans hjob, rfl, rfl⟩
  · obtain rfl := Option.some.inj (hold.symm.trans hjob)
    exact ⟨_, hnew, kind_update hc.2.1, Dict.get?_update_of_notMem hc.1 _⟩
  · rw [hnone] at hjob
    cases hjob
  · obtain rfl := Option.some.inj (hold.symm.trans hjob)
    exact ⟨_, hnew, rfl, rfl⟩
  · obtain rfl := Option.some.inj (hold.symm.trans hjob)
    refine ⟨_, hnew, ?_⟩
    unfold ProofJob.prune
    split_ifs
    · exact ⟨rfl, rfl⟩
    · exact ⟨rfl, rfl⟩

/-- The dead letters after a call. -/
theorem letters_after (hw : Provenance V settings w) {c : Call} {a : Except PyExn c.Resp} (h : c.Sem w a w')
    (hc : V.Proven settings held c w) {row : DeadLetterJob} (hrow : row ∈ w'.deadLetterJobs) :
    ∃ root kind, kind.circuitId = row.circuitId ∧ Origin w row.proofId kind root ∧
      ∀ {s}, row.sealedRerunPayload = some s → V.Sealed root kind s := by
  rcases letters_cases h with heq | ⟨input, rfl, heq⟩ | ⟨dlqId, rerun, requestedBy, reason, -, heq⟩
  · rw [heq] at hrow
    exact hw.letter hrow
  · rw [heq, mem_upsert] at hrow
    obtain ⟨root, kind, hcircuit, horigin, hsealed⟩ := hc
    rcases hrow with ⟨hrow, -⟩ | ⟨old, hold, hid, rfl⟩ | ⟨-, rfl⟩
    · exact hw.letter hrow
    · -- the old payload was sealed for the same job
      obtain ⟨root', kind', -, horigin', hsealed'⟩ := hw.letter hold
      rw [hid] at horigin'
      obtain ⟨rfl, rfl⟩ := horigin.unique horigin'
      have hproof : (old.upsert input).proofId = input.proofId := hid
      refine ⟨root, kind, hcircuit, by rw [hproof]; exact horigin, fun {s} hs => ?_⟩
      have hpayload : (if (input.sealedRerunPayload.getD "") ≠ "" then input.sealedRerunPayload
          else old.sealedRerunPayload) = some s := hs
      split_ifs at hpayload
      · exact hsealed hpayload
      · exact hsealed' hpayload
    · exact ⟨root, kind, hcircuit, horigin, hsealed⟩
  · rw [heq] at hrow
    obtain ⟨old, hold, rfl⟩ := List.mem_map.1 hrow
    obtain ⟨root, kind, hcircuit, horigin, hsealed⟩ := hw.letter hold
    refine ⟨root, kind, ?_⟩
    split_ifs
    · exact ⟨hcircuit, horigin, hsealed⟩
    · exact ⟨hcircuit, horigin, hsealed⟩

/-- The lineage of a job that was just created. -/
theorem lineage_new {new : NewJob} {now : ℚ} (hnew : w'.proofJobs new.proofId = some (new.row now))
    (hR : SameOrigins w w') (hc : V.Proven settings held (.createProofJob new) w) :
    ∃ root, Lineage w' new.proofId root ∧ V.Sealed root new.kind new.sealedJobPayload := by
  rcases hc.2 with ⟨hnone, hsealed⟩ | ⟨parent, root, hparent, horigin, hsealed⟩
  · exact ⟨new.proofId, .submitted hnew hnone, hsealed⟩
  · exact ⟨root, .rerun hnew hparent (horigin.lineage.mono hR), hsealed⟩

theorem completed_prune {olderThan now : ℚ} (h : V.Completed settings root job) :
    V.Completed settings root (job.prune olderThan now) := by
  unfold ProofJob.prune
  split_ifs
  · obtain ⟨sub, hsub, hid, hkind, result, hstored, hconcludes⟩ := h
    refine ⟨sub, hsub, hid, hkind, result, .inr ?_, hconcludes⟩
    rcases hstored with ⟨hproof, hsignals⟩ | ⟨hproof, hsignals⟩ <;>
      simp only [hproof, hsignals, Option.map_some, and_self]
  · exact h

/-- A job that an update completes. -/
theorem completed_update {u : JobUpdate} {now : ℚ} (hc : V.Proven settings held (.updateProofJob id u) w)
    (hjob : w.proofJobs id = some job) (hroot : Lineage w id root) (hstatus : u.status = .completed) :
    V.Completed settings root (job.update u now) := by
  obtain ⟨-, hpolicy, hcompleted⟩ := hc
  obtain ⟨sub, hsub, horigin, result, hproof, hsignals, S, hS, prepared, input, verified, hprepared, hinput, hgenerates,
    hverifies, hdecides⟩ := hcompleted hstatus
  obtain ⟨hkind, hid⟩ := horigin.unique ⟨⟨job, hjob, rfl⟩, hroot⟩
  refine ⟨sub, hsub, hid, hkind.trans (kind_update hpolicy).symm, result, .inl ⟨?_, ?_⟩, S, hS, prepared, input,
    verified, hprepared, hinput, hgenerates, hverifies, fun policyId hp hne => ?_⟩
  · unfold ProofJob.update
    rw [hproof]
    rfl
  · unfold ProofJob.update
    rw [hsignals]
    rfl
  · obtain ⟨decision, hagrees, hrecorded⟩ := hdecides policyId hp hne
    exact ⟨decision, hagrees, hrecorded job.metadata⟩

/-- **The completed jobs after a call.** -/
theorem completed_after (hw : Provenance V settings w) {c : Call} {a : Except PyExn c.Resp} (h : c.Sem w a w')
    (hc : V.Proven settings held c w) {job' : ProofJob} (hold : w.proofJobs id = some job) (hroot : Lineage w id root)
    (hnew : w'.proofJobs id = some job') (hstatus : job'.status = .completed) : V.Completed settings root job' := by
  have hbefore : job.status = .completed → V.Completed settings root job := by
    intro hdone
    obtain ⟨root', hroot', -, hcompleted⟩ := hw.job hold
    rw [hroot.unique hroot']
    exact hcompleted hdone
  rcases row_cases h id with heq | ⟨u, old, now, rfl, hold', hnew'⟩ | ⟨new, now, -, -, hnone, -⟩ |
    ⟨site, old, now, -, hold', hnew'⟩ | ⟨olderThan, old, now, -, hold', hnew'⟩
  · obtain rfl := Option.some.inj (hold.symm.trans (heq.symm.trans hnew))
    exact hbefore hstatus
  · obtain rfl := Option.some.inj (hnew'.symm.trans hnew)
    exact completed_update hc hold' hroot hstatus
  · rw [hnone] at hold
    cases hold
  · obtain rfl := Option.some.inj (hnew'.symm.trans hnew)
    obtain rfl := Option.some.inj (hold'.symm.trans hold)
    exact hbefore hstatus
  · obtain rfl := Option.some.inj (hnew'.symm.trans hnew)
    obtain rfl := Option.some.inj (hold'.symm.trans hold)
    rw [ProofJob.prune_status] at hstatus
    exact completed_prune (hbefore hstatus)

/-- **Every call keeps payloads, submissions and decisions together.** -/
theorem sem_provenance (hw : Provenance V settings w) {c : Call} {a : Except PyExn c.Resp}
    (hc : V.Proven settings held c w) (h : V.sem c w a w') : SameOrigins w w' ∧ Provenance V settings w' := by
  have hsame : SameOrigins w w' := sem_sameOrigins h.1 hc
  refine ⟨hsame, ?_, ?_, fun hrow => ?_⟩
  · intro id job' hjob'
    rcases job_after h.1 hjob' with ⟨job, hjob, hid, -⟩ | ⟨new, now, rfl, hid, rfl⟩
    · exact hid.trans (hw.key hjob)
    · exact hid
  · intro id job' hjob'
    rcases job_after h.1 hjob' with ⟨job, hjob, -, hpayload⟩ | ⟨new, now, rfl, rfl, rfl⟩
    · obtain ⟨root, hroot, hsealed, -⟩ := hw.job hjob
      obtain ⟨job'', hjob'', hkind, -⟩ := hsame hjob
      obtain rfl := Option.some.inj (hjob''.symm.trans hjob')
      refine ⟨root, hroot.mono hsame, fun {s} hs => ?_, completed_after hw h.1 hc hjob hroot hjob'⟩
      rw [hkind]
      rcases hpayload with hpayload | hnone
      · exact hsealed (hpayload.symm.trans hs)
      · rw [hnone] at hs
        cases hs
    · obtain ⟨root, hroot, hsealed⟩ := lineage_new hjob' hsame hc
      refine ⟨root, hroot, fun {s} hs => ?_, fun hstatus => ?_⟩
      · obtain rfl : new.sealedJobPayload = s := Option.some.inj hs
        exact hsealed
      · have hqueued : (JobStatus.queued : JobStatus) = .completed := hc.1.symm.trans hstatus
        cases hqueued
  · obtain ⟨root, kind, hcircuit, horigin, hsealed⟩ := letters_after hw h.1 hc hrow
    exact ⟨root, kind, hcircuit, horigin.mono hsame, hsealed⟩

/-! ## What a delivery knows -/

/-- A row that was read: its job is still there, and its payload was sealed for the root. -/
def KnownJob (V : SealedServices) (proofId root : String) (job : ProofJob) (w : World) : Prop :=
  job.proofId = proofId ∧ Origin w proofId job.kind root ∧
    ∀ {s}, job.sealedJobPayload = some s → V.Sealed root job.kind s

theorem KnownJob.mono (h : KnownJob V proofId root job w) (hR : SameOrigins w w') : KnownJob V proofId root job w' :=
  ⟨h.1, h.2.1.mono hR, h.2.2⟩

theorem known_of_row (hw : Provenance V settings w) (hjob : w.proofJobs proofId = some job) :
    ∃ root, KnownJob V proofId root job w := by
  obtain ⟨root, hroot, hsealed, -⟩ := hw.job hjob
  exact ⟨root, hw.key hjob, ⟨⟨job, hjob, rfl⟩, hroot⟩, hsealed⟩

/-- The programs of the services. -/
abbrev ProvenProg {α : Type} (V : SealedServices) (settings : Set WorkerSettings) (held : Option String)
    (Q : Except PyExn α → World → Prop) (p : Service α) (w : World) : Prop :=
  p.SafeWithin SameOrigins (Provenance V settings) V.sem (V.Proven settings held) Q w

/-- A call whose answer does not matter. -/
theorem proven_step {α : Type} {Q : Except PyExn α → World → Prop} {c : Call} {f : c.Resp → Service α}
    (hknown : KnownJob V proofId root job w) (hc : V.Proven settings held c w)
    (hok : ∀ r {w'}, KnownJob V proofId root job w' → ProvenProg V settings held Q (f r) w')
    (herr : ∀ e {w'}, KnownJob V proofId root job w' → Q (.error e) w') :
    ProvenProg V settings held Q (await c >>= f) w := by
  refine within_call_bind hc ?_ ?_
  · intro r w₁ w' hR hkept
    exact hok r ((hknown.mono hR).mono hkept.2.2.1)
  · intro e w₁ w' hR hR'
    exact herr e ((hknown.mono hR).mono hR')

/-- An update that does not complete the job. -/
theorem proven_update {u : JobUpdate} (hstatus : u.status = .failed ∨ u.status = .running)
    (hkeys : ∀ key ∈ (u.metadataPatch.getD []).map Prod.fst, key ≠ "rerun_of" ∧ key ≠ "policy_id") :
    V.Proven settings held (.updateProofJob id u) w := by
  refine ⟨fun hmem => (hkeys _ hmem).1 rfl, fun hmem => (hkeys _ hmem).2 rfl, fun hdone => ?_⟩
  rw [hdone] at hstatus
  simp at hstatus

/-! ## The programs -/

section Delivery

theorem recordDeadLetterJob_proven {reason message : String} {explainability : Json}
    (hknown : KnownJob V proofId root job w) :
    ProvenProg V settings (some proofId) (fun _ w => KnownJob V proofId root job w)
      (recordDeadLetterJob S job reason message attempts explainability) w := by
  refine ⟨⟨root, job.kind, rfl, by rw [hknown.1]; exact hknown.2.1, hknown.2.2⟩, ?_⟩
  rintro a w' ⟨w₁, hR, -, -, hR', -⟩
  exact (hknown.mono hR).mono hR'

theorem recordFailure_proven {decrypted : Option Json} {site : Site} {reason error : String}
    (hknown : KnownJob V proofId root job w) :
    ProvenProg V settings (some proofId) (fun _ w => KnownJob V proofId root job w)
      (recordFailure S proofId job attempts decrypted site reason error) w := by
  unfold recordFailure
  refine proven_step hknown (proven_update (.inl rfl) ?_) (fun failedJob {w} hknown => ?_) fun _ {w} hk => hk
  · simp [AttemptMetadata.patch]
  refine proven_step hknown trivial (fun _ {w} hknown => ?_) fun _ {w} hk => hk
  refine proven_step hknown trivial (fun _ {w} hknown => ?_) fun _ {w} hk => hk
  exact recordDeadLetterJob_proven hknown

theorem handleException_proven {decrypted : Option Json} (exc : PyExn) (hknown : KnownJob V proofId root job w) :
    ProvenProg V settings (some proofId) (fun _ _ => True) (handleException S proofId job attempts decrypted exc) w :=
  safe_mono (fun _ _ _ => trivial) (safe_handler (P := fun w => KnownJob V proofId root job w) exc (fun _ => hknown)
    fun _ => recordFailure_proven hknown)

/-- What is decrypted is the submission of the job, its keys sorted. -/
def Decrypts (V : SealedServices) (root : String) (kind : JobKind) (decrypted : Json) : Prop :=
  ∃ sub ∈ V.submissions, sub.proofId = root ∧ sub.kind = kind ∧ decrypted = sub.payload.toJson.sortKeys

theorem decrypts_of_unseal (hsealed : V.Sealed root kind sealedPayload) {decrypted : Json}
    (h : unsealJobPayload V.transit V.floats V.keyName sealedPayload = .ok decrypted.toPy) :
    Decrypts V root kind decrypted := by
  obtain ⟨sub, hsub, hid, hkind, draw, hseal⟩ := hsealed
  exact ⟨sub, hsub, hid, hkind, unseal_seal (V.readable sub hsub) hseal h⟩

theorem unsealPayload_proven (hsealed : V.Sealed root job.kind sealedPayload) (hknown : KnownJob V proofId root job w) :
    ProvenProg V settings (some proofId) (fun r w => KnownJob V proofId root job w ∧
      ∀ decrypted, r = .ok decrypted → Decrypts V root job.kind decrypted)
      (unsealPayload S proofId sealedPayload) w := by
  refine safe_unsealPayload trivial ?_ (fun _ _ _ _ => trivial) ?_
  · rintro a w' ⟨w₁, hR, -, hsem, hR', -⟩
    refine ⟨(hknown.mono hR).mono hR', fun decrypted hd => ?_⟩
    subst hd
    exact decrypts_of_unseal hsealed hsem.2
  · rintro e event a w' w'' ⟨hknown', -⟩ ⟨w₂, hR, -, -, hR', -⟩
    have hknown'' : KnownJob V proofId root job w'' := (hknown'.mono hR).mono hR'
    exact ⟨fun e' _ => ⟨hknown'', nofun⟩, hknown'', nofun⟩

/-! ### The input of the prover -/

theorem validateU32List_sortItems {fieldName : String} {idx : ℕ} {l : List Json} :
    validateU32List fieldName idx (Json.sortItems l) = validateU32List fieldName idx l := by
  have hitem : ∀ {idx} (j : Json), validateU32 fieldName idx j.sortKeys = validateU32 fieldName idx j := by
    intro idx j
    cases j with
    | int i => rfl
    | _ => rfl
  induction l generalizing idx with
  | nil => rfl
  | cons j js ih => rw [Json.sortItems, validateU32List, hitem, ih, validateU32List]

theorem length_sortItems (l : List Json) : (Json.sortItems l).length = l.length := by
  rw [Json.sortItems_eq, List.length_map]

/-- The batch circuit does not look at the order of the keys. -/
theorem batchPrepareFromPrivateInput_sortKeys {fields : List (String × Json)} (hnd : (fields.map Prod.fst).Nodup) :
    batchPrepareFromPrivateInput (Json.obj fields).sortKeys = batchPrepareFromPrivateInput (.obj fields) := by
  have hget : ∀ k, (Json.obj fields).sortKeys.get? k = ((Json.obj fields).get? k).map Json.sortKeys :=
    Json.lookup_sorted hnd
  have hint : ∀ j : Json, j.sortKeys.asPyInt? = j.asPyInt? := by
    intro j
    cases j with
    | int i => rfl
    | _ => rfl
  have hcount : (((Json.obj fields).get? "active_count").map Json.sortKeys).bind Json.asPyInt? =
      ((Json.obj fields).get? "active_count").bind Json.asPyInt? := by
    cases (Json.obj fields).get? "active_count" with
    | none => rfl
    | some j => exact hint j
  unfold batchPrepareFromPrivateInput
  rw [hget, hget, hget, hcount]
  cases (Json.obj fields).get? "balances" with
  | none => rfl
  | some balances =>
    cases balances with
    | arr balances =>
      cases (Json.obj fields).get? "limits" with
      | none => rfl
      | some limits =>
        cases limits with
        | arr limits =>
          simp only [Option.map_some, Json.sortKeys, length_sortItems, validateU32List_sortItems]
        | _ => rfl
    | _ => rfl

theorem distinct_toCircuitInput (p : PreparedBatchInput) : p.toCircuitInput.Distinct := by
  have hints : ∀ l : List ℤ, (Json.arr (l.map .int)).Distinct := by
    intro l
    rw [Json.Distinct, Json.distinctItems_iff]
    intro j hj
    obtain ⟨i, -, rfl⟩ := List.mem_map.1 hj
    exact trivial
  have hcount : p.activeCount.toJson.Distinct := by
    cases p.activeCount with
    | int i => exact trivial
    | bool b => exact trivial
  exact ⟨by simp, hints _, hints _, hcount, trivial⟩

/-- **The worker's input**, with the keys of the private input sorted or not. -/
theorem workerInput_sortKeys {F : PyJson.FloatReader} {privateInput input : Json}
    (hread : PyJson.Readable F privateInput) (h : workerInput circuitId privateInput.sortKeys = .ok input) :
    ∃ prepared, workerInput circuitId privateInput = .ok prepared ∧ input.SameContent prepared := by
  have hdistinct := PyJson.distinct_of_readable hread
  have hdistinct' := PyJson.distinct_of_readable (PyJson.readable_sortKeys hread)
  unfold workerInput at h ⊢
  by_cases hbatch : circuitId = defaultBatchCircuitId
  · rw [if_pos hbatch] at h ⊢
    cases hread with
    | obj fields hnd _ =>
      rw [batchPrepareFromPrivateInput_sortKeys hnd] at h
      obtain ⟨p, -, rfl⟩ := map_ok.1 h
      exact ⟨_, h, (Json.sortKeys_eq_iff (distinct_toCircuitInput p) (distinct_toCircuitInput p)).1 rfl⟩
    | _ => cases h
  · rw [if_neg hbatch] at h ⊢
    obtain rfl := Except.ok.inj h
    exact ⟨privateInput, rfl, Json.sameContent_sortKeys hdistinct hdistinct'⟩

/-- What is proved is the private input of the decrypted payload. -/
theorem proverInput_ok {decrypted input : Json} (h : proverInput S job decrypted = .ok input) :
    ∃ fields privateInput, decrypted = .obj fields ∧ fields.lookup "private_input" = some privateInput ∧
      workerInput job.circuitId privateInput = .ok input := by
  unfold proverInput at h
  cases decrypted with
  | obj fields =>
    dsimp only at h
    obtain ⟨fields', hfields, h⟩ := bind_ok.1 h
    obtain rfl := Except.ok.inj hfields
    refine ⟨fields, ?_⟩
    cases hlookup : fields.lookup "private_input" with
    | none =>
      rw [hlookup] at h
      cases h
    | some privateInput =>
      rw [hlookup] at h
      refine ⟨privateInput, rfl, rfl, ?_⟩
      cases privateInput with
      | obj pairs =>
        dsimp only at h
        obtain ⟨privateInput, hprivate, h⟩ := bind_ok.1 h
        obtain rfl := Except.ok.inj hprivate
        unfold workerInput
        cases hcircuits : S.circuits job.circuitId with
        | none =>
          rw [hcircuits] at h
          by_cases hbatch : job.circuitId = defaultBatchCircuitId
          · rw [if_pos hbatch] at h
            obtain ⟨checked, -, h⟩ := bind_ok.1 h
            cases h
          · rw [if_neg hbatch] at h
            cases h
        | some inputSchema =>
          rw [hcircuits] at h
          by_cases hbatch : job.circuitId = defaultBatchCircuitId
          · rw [if_pos hbatch] at h ⊢
            obtain ⟨checked, hchecked, h⟩ := bind_ok.1 h
            obtain ⟨schema, -, h⟩ := bind_ok.1 h
            obtain ⟨u, -, h⟩ := bind_ok.1 h
            obtain rfl : checked = input := pure_ok.1 h
            exact mapError_ok.1 hchecked
          · rw [if_neg hbatch] at h ⊢
            obtain ⟨checked, hchecked, h⟩ := bind_ok.1 h
            obtain ⟨schema, -, h⟩ := bind_ok.1 h
            obtain ⟨u, -, h⟩ := bind_ok.1 h
            obtain rfl : checked = input := pure_ok.1 h
            exact congrArg Except.ok (Except.ok.inj hchecked)
      | _ => cases h
  | _ => cases h

/-- The worker's input is that of the submission. -/
theorem input_of_submission {sub : JobSubmission} {input : Json} (hread : PyJson.Readable V.floats sub.payload.toJson)
    (hcircuit : sub.circuitId = job.circuitId) (h : proverInput S job sub.payload.toJson.sortKeys = .ok input) :
    ∃ prepared, workerInput sub.circuitId sub.payload.privateInput = .ok prepared ∧ input.SameContent prepared := by
  obtain ⟨fields, privateInput, hfields, hlookup, hinput⟩ := proverInput_ok h
  unfold JobPayload.toJson at hread hfields
  rw [Json.sortKeys, Json.obj.injEq] at hfields
  subst hfields
  cases hread with
  | obj _ hnd hvalues =>
    rw [Json.lookup_sorted hnd] at hlookup
    obtain rfl : sub.payload.privateInput.sortKeys = privateInput := Option.some.inj hlookup
    have hprivate : PyJson.Readable V.floats sub.payload.privateInput :=
      hvalues ("private_input", sub.payload.privateInput) (by simp)
    rw [← hcircuit] at hinput
    exact workerInput_sortKeys hprivate hinput

/-! ### The decision of a run -/

/-- What a sealed reference is. -/
theorem sealedReference_ok {decrypted : Json} {decision : PolicyDecision} {outputs : List (String × Json)} :
    sealedReference decrypted = .ok (decision, outputs) ↔ ∃ reference,
      decrypted.get? "dual_track_reference" = some (.obj reference) ∧
        reference.lookup "decision" = some (.str decision.text) ∧ reference.lookup "outputs" = some (.obj outputs) := by
  constructor
  · intro h
    unfold sealedReference at h
    dsimp only [Bind.bind, Except.bind] at h
    split at h
    · next reference href =>
      refine ⟨reference, href, ?_⟩
      split at h
      · next hdecision =>
        split at h
        · next houtputs =>
          obtain ⟨rfl, rfl⟩ := Prod.mk.inj (Except.ok.inj h)
          exact ⟨hdecision, houtputs⟩
        · cases h
      · next hdecision =>
        split at h
        · next houtputs =>
          obtain ⟨rfl, rfl⟩ := Prod.mk.inj (Except.ok.inj h)
          exact ⟨hdecision, houtputs⟩
        · cases h
      · cases h
      · cases h
      · cases h
    · cases h
  · rintro ⟨reference, href, hdecision, houtputs⟩
    unfold sealedReference
    rw [href]
    dsimp only [Bind.bind, Except.bind]
    rw [hdecision, houtputs]
    cases decision with
    | pass => rfl
    | fail => rfl

/-- The sealed reference does not depend on the order of the keys, but for that of the outputs. -/
theorem sealedReference_sorted {F : PyJson.FloatReader} {payload : JobPayload} {decision : PolicyDecision}
    {outputs : List (String × Json)} (hread : PyJson.Readable F payload.toJson)
    (h : sealedReference payload.toJson.sortKeys = .ok (decision, outputs)) :
    ∃ own, sealedReference payload.toJson = .ok (decision, own) ∧ Json.obj outputs = (Json.obj own).sortKeys := by
  obtain ⟨reference, href, hdecision, houtputs⟩ := sealedReference_ok.1 h
  unfold JobPayload.toJson at hread href
  cases hread with
  | obj _ hnd hvalues =>
    have href' : some payload.dualTrackReference.sortKeys = some (.obj reference) :=
      (Json.lookup_sorted hnd "dual_track_reference").symm.trans href
    have hread' : PyJson.Readable F payload.dualTrackReference :=
      hvalues ("dual_track_reference", payload.dualTrackReference) (by simp)
    generalize hown : payload.dualTrackReference = own at href' hread'
    cases hread' with
    | obj fields hnd' _ =>
      obtain rfl := Json.obj.inj (Option.some.inj href')
      rw [Json.lookup_sorted hnd'] at hdecision houtputs
      obtain ⟨d, hd, hdtext⟩ := Option.map_eq_some_iff.1 hdecision
      obtain ⟨o, ho, hosorted⟩ := Option.map_eq_some_iff.1 houtputs
      cases d with
      | str text =>
        rw [Json.sortKeys] at hdtext
        rw [hdtext] at hd
        cases o with
        | obj own =>
          refine ⟨own, sealedReference_ok.2 ⟨fields, ?_, hd, ho⟩, hosorted.symm⟩
          rw [JobPayload.toJson, hown]
          rfl
        | _ => cases hosorted
      | _ => cases hdtext
    | _ => cases href'

/-- What the dual-track check has compared. -/
theorem dualTrackPatch_ok {policyId : String} {decrypted : Json} {publicSignals : List Json} {verified : Bool}
    {patch : List (String × Json)} (h : dualTrackPatch S policyId decrypted publicSignals verified = .ok patch) :
    ∃ manifest decision outputs circuit, S.policies policyId = some manifest ∧
      sealedReference decrypted = .ok (decision, outputs) ∧
      evaluateCircuitTrack S.repr policyId manifest.expectedAttestation manifest.differentialOutputs publicSignals
        verified = .ok circuit ∧
      circuit.decision = decision ∧ Json.pyEq (.obj outputs) (.obj circuit.outputs) = true ∧
      patch = [("policy_version", .str manifest.policyVersion), ("decision", .str decision.text)] := by
  unfold dualTrackPatch at h
  cases hm : S.policies policyId with
  | none =>
    rw [hm] at h
    cases h
  | some manifest =>
    rw [hm] at h
    obtain ⟨manifest', hm', h⟩ := bind_ok.1 h
    obtain rfl := Except.ok.inj hm'
    obtain ⟨⟨decision, outputs⟩, href, h⟩ := bind_ok.1 h
    obtain ⟨circuit, hcircuit, h⟩ := bind_ok.1 h
    obtain ⟨u, hagree, h⟩ := bind_ok.1 h
    unfold assertDualTrackConsistency at hagree
    split_ifs at hagree with hdiffer
    · cases hagree
    · obtain ⟨hdecision, houtputs⟩ := not_or.1 hdiffer
      have hsame : decision = circuit.decision := not_not.1 hdecision
      refine ⟨manifest, decision, outputs, circuit, rfl, href, hcircuit, hsame.symm, not_not.1 houtputs, ?_⟩
      rw [hsame]
      exact (pure_ok.1 h).symm

/-- **The decision of a policy run** is that of the sealed reference. -/
theorem agrees_of_patch {sub : JobSubmission} {policyId : String} {publicSignals : List Json} {verified : Bool}
    {patch : List (String × Json)} (hread : PyJson.Readable V.floats sub.payload.toJson)
    (h : dualTrackPatch S policyId sub.payload.toJson.sortKeys publicSignals verified = .ok patch) :
    ∃ decision, SealedServices.Agrees S policyId sub.payload publicSignals verified decision ∧
      ∀ metadata : Dict Json, (metadata.update patch).get? "decision" = some (.str decision.text) := by
  obtain ⟨manifest, decision, outputs, circuit, hmanifest, href, hcircuit, hsame, houtputs, rfl⟩ := dualTrackPatch_ok h
  obtain ⟨own, hown, hsorted⟩ := sealedReference_sorted hread href
  rw [hsorted, Json.pyEq_sortKeys] at houtputs
  refine ⟨decision, ⟨manifest, own, circuit, hmanifest, hown, hcircuit, hsame, houtputs⟩, fun metadata => ?_⟩
  rw [Dict.update, List.foldl_cons, List.foldl_cons, List.foldl_nil, Dict.get?_set, if_pos rfl]

theorem completeJob_proven {result : ProofResult} {patch : Option (List (String × Json))} {sub : JobSubmission}
    (hsub : sub ∈ V.submissions) (hroot : sub.proofId = root) (hkind : sub.kind = job.kind)
    (hkeys : ∀ key ∈ (patch.getD []).map Prod.fst, key = "policy_version" ∨ key = "decision")
    (hconcludes : V.Concludes settings sub result fun decision => ∀ metadata : Dict Json,
      (metadata.update (patch.getD [])).get? "decision" = some (.str decision.text))
    (hknown : KnownJob V proofId root job w) :
    ProvenProg V settings (some proofId) (fun _ w => KnownJob V proofId root job w)
      (completeJob S proofId job result patch) w := by
  have hparent : "rerun_of" ∉ (patch.getD []).map Prod.fst := by
    intro hmem
    have hkey := hkeys "rerun_of" hmem
    simp at hkey
  have hpolicy : "policy_id" ∉ (patch.getD []).map Prod.fst := by
    intro hmem
    have hkey := hkeys "policy_id" hmem
    simp at hkey
  unfold completeJob
  refine proven_step hknown trivial (fun _ {w} hknown => ?_) fun _ {w} hk => hk
  have horigin : Origin w proofId sub.kind sub.proofId := by
    rw [hkind, hroot]
    exact hknown.2.1
  refine proven_step hknown ⟨hparent, hpolicy, fun _ => ⟨sub, hsub, horigin, result, rfl, rfl, hconcludes⟩⟩
    (fun _ {w} hknown => ?_) fun _ {w} hk => hk
  refine proven_step hknown trivial (fun _ {w} hknown => ?_) fun _ {w} hk => hk
  refine ⟨trivial, ?_⟩
  rintro a w' ⟨w₁, hR, -, -, hR', -⟩
  exact (hknown.mono hR).mono hR'

/-- **The provider is asked for a submission.** -/
theorem proveJob_proven (hS : S ∈ settings) {decrypted : Json} (hdecrypts : Decrypts V root job.kind decrypted)
    (hknown : KnownJob V proofId root job w) :
    ProvenProg V settings (some proofId) (fun _ w => KnownJob V proofId root job w)
      (proveJob S proofId job decrypted) w := by
  obtain ⟨sub, hsub, hroot, hkind, rfl⟩ := hdecrypts
  have hread := V.readable sub hsub
  have hcircuit : sub.circuitId = job.circuitId := congrArg JobKind.circuitId hkind
  have hpolicy : sub.policyId.map Json.str = job.metadata.get? "policy_id" := congrArg JobKind.policy hkind
  unfold proveJob
  refine safe_check_bind (fun privateInput hinput => ?_) fun _ _ => hknown
  obtain ⟨prepared, hprepared, hsame⟩ := input_of_submission hread hcircuit hinput
  have hsubmitted : V.Proven settings (some proofId) (.generate job.circuitId privateInput) w := by
    refine ⟨proofId, root, job.kind, rfl, rfl, hknown.2.1, sub, hsub, hroot, hcircuit, prepared, ?_, hsame⟩
    rw [← hcircuit]
    exact hprepared
  refine within_call_bind hsubmitted ?_ fun _ _ _ hR hR' => (hknown.mono hR).mono hR'
  rintro result w₁ w' hR ⟨-, hgenerates, hR', -⟩
  refine within_call_bind trivial ?_ fun _ _ _ hR₂ hR₂' => (((hknown.mono hR).mono hR').mono hR₂).mono hR₂'
  rintro verified w₂ w'' hR₂ ⟨-, hverifies, hR₂', -⟩
  have hknown' : KnownJob V proofId root job w'' := (((hknown.mono hR).mono hR').mono hR₂).mono hR₂'
  refine safe_check_bind (fun patch hpatch => ?_) fun _ _ => hknown'
  refine completeJob_proven hsub hroot hkind (completionPatch_keys hpatch) ⟨S, hS, prepared, privateInput, verified,
    hprepared, hsame, hcircuit ▸ hgenerates.2, hcircuit ▸ hverifies.2, fun policyId hp hne => ?_⟩ hknown'
  -- a policy run is checked
  have hpolicyId : policyIdOf job = some policyId := by
    unfold policyIdOf
    rw [← hpolicy, hp, Option.map_some]
    exact if_neg hne
  unfold completionPatch at hpatch
  rw [hpolicyId] at hpatch
  obtain ⟨entries, hentries, rfl⟩ := map_ok.1 hpatch
  exact agrees_of_patch hread hentries

theorem executeJob_proven (hS : S ∈ settings) (hknown : KnownJob V proofId root job w) :
    ProvenProg V settings (some proofId) (fun _ _ => True) (executeJob S proofId job attempts) w := by
  unfold executeJob
  refine safe_andThen (safe_mono (Q := fun r w =>
    KnownJob V proofId root job w ∧ ∀ decrypted, r = .ok decrypted → Decrypts V root job.kind decrypted) ?_ ?_)
  · rintro (exc | decrypted) w' ⟨hknown, hdecrypts⟩
    · exact handleException_proven exc hknown
    · refine safe_tryCatch (safe_mono ?_ (proveJob_proven hS (hdecrypts decrypted rfl) hknown))
      rintro (exc | u) w'' hknown
      · exact handleException_proven exc hknown
      · exact trivial
  · cases hsealed : job.sealedJobPayload with
    | none =>
      refine ⟨hknown, fun decrypted hd => ?_⟩
      cases hd
    | some sealedPayload => exact unsealPayload_proven (hknown.2.2 hsealed) hknown

theorem maxAttemptsExceeded_proven (hknown : KnownJob V proofId root job w) :
    ProvenProg V settings (some proofId) (fun _ _ => True) (maxAttemptsExceeded S proofId job attempts) w := by
  unfold maxAttemptsExceeded
  refine proven_step hknown (proven_update (.inl rfl) ?_) (fun failedJob {w} hknown => ?_) fun _ {w} _ => trivial
  · simp [AttemptMetadata.patch]
  refine proven_step hknown trivial (fun _ {w} hknown => ?_) fun _ {w} _ => trivial
  refine safe_bind (safe_mono ?_ (recordDeadLetterJob_proven hknown))
  rintro (e | u) w' hknown
  · exact trivial
  · exact ⟨trivial, fun _ _ _ => trivial⟩

theorem deliverJob_proven (hS : S ∈ settings) (hknown : KnownJob V proofId root job w) :
    ProvenProg V settings (some proofId) (fun _ _ => True) (deliverJob S proofId job) w := by
  unfold deliverJob
  generalize nextAttemptMetadata job.metadata S.maxAttempts = next
  obtain ⟨attempts, exceeded⟩ := next
  cases exceeded with
  | true => exact maxAttemptsExceeded_proven hknown
  | false =>
    have hpatch : V.Proven settings (some proofId)
        (.updateProofJob proofId { status := .running, metadataPatch := some attempts.patch }) w := by
      refine proven_update (.inr rfl) ?_
      simp [AttemptMetadata.patch]
    refine within_call_bind hpatch ?_ fun _ _ _ _ _ => trivial
    rintro updatedJob w₁ w' hR ⟨-, hsem, hR', hw'⟩
    -- the row that was written, or the one that was read
    have hjob : ∃ root, KnownJob V proofId root (updatedJob.getD job) w' := by
      obtain ⟨now, -, hreply⟩ := hsem.1
      have hread : updatedJob = w'.proofJobs proofId := hreply
      cases hrow : updatedJob with
      | none => exact ⟨root, (hknown.mono hR).mono hR'⟩
      | some job' =>
        rw [hrow] at hread
        exact known_of_row hw' hread.symm
    obtain ⟨root', hjob⟩ := hjob
    refine proven_step hjob trivial (fun _ {w} hknown => ?_) fun _ {w} _ => trivial
    exact executeJob_proven hS hknown

/-- **A delivery.** -/
theorem deliver_proven (hS : S ∈ settings) :
    ProvenProg V settings (some proofId) (fun _ _ => True) (processProofJob S proofId) w := by
  rw [processProofJob_eq]
  refine within_call_bind trivial (fun _ w₁ w' _ _ => ?_) fun _ _ _ _ _ => trivial
  refine within_call_bind trivial ?_ fun _ _ _ _ _ => trivial
  rintro row w₁ w' hR ⟨hw₁, hsem, hR', -⟩
  refine safe_gate (fun _ => trivial) fun job hrow _ => ?_
  obtain ⟨now, -, hreply⟩ := hsem.1
  have hread : row = w₁.proofJobs proofId := hreply
  rw [hrow] at hread
  obtain ⟨root, hknown⟩ := known_of_row hw₁ hread.symm
  exact deliverJob_proven hS (hknown.mono hR')

end Delivery

/-! ### Requests -/

theorem persistAndEnqueueJob_proven {requestPayload : Json} {sourceMode : String} {metadata : Dict Json}
    (hadmits : V.Admits (.submit proofId circuitId requestPayload sourceMode sealedPayload metadata)) :
    ProvenProg V settings none (fun _ _ => True)
      (persistAndEnqueueJob sha256 proofId circuitId requestPayload sourceMode sealedPayload metadata) w := by
  unfold persistAndEnqueueJob
  refine within_call_bind ⟨rfl, .inl ⟨hadmits.2, hadmits.1⟩⟩ (fun _ _ _ _ _ => ?_) fun _ _ _ _ _ => trivial
  refine within_call_bind trivial (fun _ _ _ _ _ => ?_) fun _ _ _ _ _ => trivial
  exact ⟨trivial, fun _ _ _ => trivial⟩

/-- A rerun names the job of its dead letter. -/
theorem rerunJob_rerunOf {repr : Json → String} {request : RequeueRequest} {row : DeadLetterJob}
    {sourceJob : Option ProofJob} :
    rerunOf? (rerunJob sha256 repr request row sealedPayload sourceJob).metadata = some (.str row.proofId) := by
  unfold rerunJob rerunOf?
  simp only [List.cons_append, List.nil_append, Dict.update, List.foldl_cons, List.foldl_nil, Dict.get?_set]
  simp

/-- A rerun goes by the policy of the job of its dead letter. -/
theorem rerunJob_kind (sha256 : String → String) (repr : Json → String) (request : RequeueRequest) (row : DeadLetterJob)
    (sealedPayload : String) (hcircuit : job.kind.circuitId = row.circuitId) :
    (rerunJob sha256 repr request row sealedPayload (some job)).kind = job.kind := by
  have hkey : "policy_id" ∉ rerunKeys := by decide
  exact congrArg₂ JobKind.mk hcircuit.symm (rerunJob_get? sha256 repr request row sealedPayload (some job) hkey)

/-- **A rerun** takes the payload and the circuit of the dead letter it has read, and the policy of its job. -/
theorem requeueDeadLetterJob_proven {repr : Json → String} {request : RequeueRequest} :
    ProvenProg V settings none (fun _ _ => True) (requeueDeadLetterJob sha256 repr request) w := by
  unfold requeueDeadLetterJob
  refine within_call_bind trivial ?_ fun _ _ _ _ _ => trivial
  rintro row w₁ w' hR ⟨hw₁, hsem, hR', -⟩
  obtain ⟨now, -, hreply⟩ := hsem.1
  have hread : row = w₁.getDeadLetterJob request.dlqId := hreply
  unfold requeueRow
  cases row with
  | none => exact trivial
  | some row =>
    obtain ⟨root, kind, hcircuit, horigin, hsealed⟩ := hw₁.letter (List.mem_of_find?_eq_some hread.symm)
    cases hrerun : row.rerun? with
    | some rerun =>
      simp only [hrerun]
      exact trivial
    | none =>
      cases hpayload : row.sealedRerunPayload.filter (· ≠ "") with
      | none =>
        simp only [hrerun, hpayload]
        exact trivial
      | some sealedPayload =>
        simp only [hrerun, hpayload]
        refine within_call_bind trivial ?_ fun _ _ _ _ _ => trivial
        rintro sourceJob w₂ w'' hR₂ ⟨-, hsource, hR₂', -⟩
        have hthen : Origin w₂ row.proofId kind root := (horigin.mono hR').mono hR₂
        -- the job of the dead letter is there
        obtain ⟨job, hjob, rfl⟩ := hthen.kind
        obtain ⟨now', -, hreply'⟩ := hsource.1
        obtain rfl : sourceJob = some job := Eq.trans hreply' hjob
        have hkind := rerunJob_kind sha256 repr request row sealedPayload hcircuit
        have hproven : V.Proven settings none
            (.createProofJob (rerunJob sha256 repr request row sealedPayload (some job))) w'' := by
          refine ⟨rfl, .inr ⟨row.proofId, root, rerunJob_rerunOf, ?_, ?_⟩⟩
          · rw [hkind]
            exact hthen.mono hR₂'
          · rw [hkind]
            exact hsealed (Option.filter_eq_some_iff.1 hpayload).1
        unfold triggerRerun
        refine within_call_bind hproven (fun _ _ _ _ _ => ?_) fun _ _ _ _ _ => trivial
        refine within_call_bind trivial (fun _ _ _ _ _ => ?_) fun _ _ _ _ _ => trivial
        refine within_call_bind trivial (fun _ _ _ _ _ => ?_) fun _ _ _ _ _ => trivial
        refine within_call_bind trivial (fun _ _ _ _ _ => ?_) fun _ _ _ _ _ => trivial
        exact within_call_bind trivial (fun _ _ _ _ _ => trivial) fun _ _ _ _ _ => trivial

theorem request_proven {task : Task} (h : task.isRequest = true) (hadmits : V.Admits task) :
    ProvenProg V settings none (fun _ _ => True) (task.prog S sha256) w := by
  cases task with
  | submit => exact persistAndEnqueueJob_proven hadmits
  | requeue request =>
    refine safe_bind (safe_mono ?_ requeueDeadLetterJob_proven)
    rintro (e | r) w' _
    · exact trivial
    · exact trivial
  | deliver proofId => cases h
  | maintain cutoff =>
    refine within_call_bind trivial (fun _ _ _ _ _ => ?_) fun _ _ _ _ _ => trivial
    exact ⟨trivial, fun _ _ _ => trivial⟩

/-! ## Runs -/

theorem provenance_keeps :
    Broker.Keeps (V.broker settings sha256) SameOrigins (V.Proven settings) (Provenance V settings) where
  refl := fun _ _ job hjob => ⟨job, hjob, rfl, rfl⟩
  trans := fun _ _ _ h h' => h.trans h'
  stable := proven_stable
  request := by
    rintro p ⟨S, -, task, htask, hadmits, rfl⟩ w
    exact request_proven htask hadmits
  deliver := by
    rintro proofId p ⟨S, hS, rfl⟩ w
    exact deliver_proven hS
  call := fun hw hc h => sem_provenance hw hc h
  remove := by
    intro proofId w hw
    have hsame : SameOrigins w ((V.broker settings sha256).remove proofId w) :=
      fun {_ job} hjob => ⟨job, hjob, rfl, rfl⟩
    refine ⟨hsame, hw.key, fun hjob => ?_, fun hrow => ?_⟩
    · obtain ⟨root, hroot, hsealed⟩ := hw.job hjob
      exact ⟨root, hroot.mono hsame, hsealed⟩
    · obtain ⟨root, kind, hcircuit, horigin, hsealed⟩ := hw.letter hrow
      exact ⟨root, kind, hcircuit, horigin.mono hsame, hsealed⟩

theorem provenance_empty : Provenance V settings .empty := by
  refine ⟨?_, ?_, ?_⟩
  · intro id job hjob
    cases hjob
  · intro id job hjob
    cases hjob
  · intro row hrow
    cases hrow

/-- **Only what was submitted is proved.** Whenever the provider is asked for a proof, that is in the delivery of
a job, and the input is the one the worker makes of the submission at the root of that job. -/
theorem only_submitted_proved {s : Services} (hrun : Run (V.broker settings sha256) (fun _ _ _ => True) (init .empty) s)
    {i : ℕ} {input : Json} {k : Except PyExn ProofResult → Service Unit}
    (hproc : s.pool.procs i = some (.await (.generate circuitId input) k)) :
    ∃ proofId root, s.holds i = some proofId ∧ Lineage s.world proofId root ∧
      ∃ sub ∈ V.submissions, sub.proofId = root ∧ sub.circuitId = circuitId ∧
        ∃ prepared, workerInput circuitId sub.payload.privateInput = .ok prepared ∧ input.SameContent prepared := by
  obtain ⟨proofId, root, kind, hheld, -, horigin, hsubmitted⟩ :=
    (keeps_run provenance_keeps provenance_empty hrun).2 i (.generate circuitId input) k hproc
  exact ⟨proofId, root, hheld, horigin.lineage, hsubmitted⟩

/-! ### A job that was submitted -/

/-- Vault with one ciphertext. -/
def oneCiphertext (name plaintext sealedText : String) : Transit where
  encrypt keyName text _ :=
    if keyName = name ∧ text = plaintext then .ok sealedText else raiseOther "permission denied"
  decrypt keyName ciphertext :=
    if keyName = name ∧ ciphertext = sealedText then .ok plaintext else raiseOther "invalid ciphertext"
  faithful := by
    intro keyName text draw ciphertext text' henc hdec
    split_ifs at henc with h
    · split_ifs at hdec with h'
      · rw [h.2]
        exact (Except.ok.inj hdec).symm
      · cases hdec
    · cases henc

theorem oneCiphertext_encrypt (name plaintext sealedText : String) (draw : ℕ) :
    (oneCiphertext name plaintext sealedText).encrypt name plaintext draw = .ok sealedText :=
  if_pos ⟨rfl, rfl⟩

theorem oneCiphertext_decrypt (name plaintext sealedText : String) :
    (oneCiphertext name plaintext sealedText).decrypt name sealedText = .ok plaintext :=
  if_pos ⟨rfl, rfl⟩

/-- A demo run whose payload is sealed. -/
structure SealedDemo where
  setup : DemoSetup
  policyId : Option String
  payload : JobPayload
  plain : PyJson.plain payload.toJson = true
  decrypted : payload.toJson.sortKeys = setup.payload
  policy : policyId.map .str = setup.metadata.get? "policy_id"
  submitted : setup.metadata.get? "rerun_of" = none

namespace SealedDemo

variable (D : SealedDemo)

def services : SealedServices where
  transit := oneCiphertext "vellum-data" (b64encode (canonicalJsonBytes D.payload.toJson)) demoJob.sealedJobPayload
  floats := plainFloats
  keyName := "vellum-data"
  generates := fun _ _ result => result = demoResult
  verifies := fun _ _ _ verified => verified = true
  submissions := {sub | sub = ⟨demoJob.proofId, "credit_check", D.policyId, D.payload⟩}
  readable := by
    rintro sub rfl
    exact PyJson.readable_of_plain D.plain

/-- Vault decrypts nothing else. -/
def otherCiphertext : Call → Bool
  | .unsealJobPayload sealedPayload => sealedPayload ≠ demoJob.sealedJobPayload
  | _ => false

/-- The job is submitted and delivered, for `n` calls. -/
def delivering (n : ℕ) : Services := D.setup.delivering otherCiphertext n

theorem unseals : unsealJobPayload D.services.transit D.services.floats D.services.keyName demoJob.sealedJobPayload =
    .ok D.setup.payload.toPy := by
  rw [← D.decrypted]
  exact unseal_of_decrypt (PyJson.readable_of_plain D.plain) (oneCiphertext_decrypt _ _ _)

theorem services_sem (c : Call) (w : World) :
    D.services.sem c w (D.setup.oracle otherCiphertext c w).1 (D.setup.oracle otherCiphertext c w).2 := by
  refine ⟨demoAnswer_sem _ _ _ c w, ?_⟩
  unfold DemoSetup.oracle demoAnswer
  split_ifs with h
  · cases c with
    | unsealJobPayload sealedPayload => exact trivial
    | _ => exact trivial
  · cases c with
    | unsealJobPayload sealedPayload =>
      have hsame : sealedPayload = demoJob.sealedJobPayload := by
        simp only [otherCiphertext, demoTakes, Bool.or_eq_true, decide_eq_true_eq, not_or, not_not] at h
        exact h.1
      rw [hsame]
      exact D.unseals
    | generate circuitId input => exact rfl
    | verify circuitId proof publicSignals => exact rfl
    | _ => exact trivial

/-- **The submission and the delivery are a run.** -/
theorem delivering_run (n : ℕ) :
    Run (D.services.broker {D.setup.worker} demoSha) (fun _ _ _ => True) (init .empty) (D.delivering n) := by
  have hadmits : D.services.Admits D.setup.submit :=
    ⟨⟨_, rfl, rfl, congrArg (JobKind.mk "credit_check") D.policy, 0, oneCiphertext_encrypt _ _ _ _⟩, D.submitted⟩
  have hdrive : ∀ i n s, Run (D.services.broker {D.setup.worker} demoSha) (fun _ _ _ => True) s
      (s.drive (D.setup.oracle otherCiphertext) i n) := fun i n s =>
    drive_run D.services_sem (fun _ _ _ _ => trivial) n s
  have hstart : Run (D.services.broker {D.setup.worker} demoSha) (fun _ _ _ => True) (init .empty)
      ((init .empty).put 0 .empty (some (D.setup.submit.prog D.setup.worker demoSha)) none) :=
    .single ⟨.request 0 _, .request rfl ⟨D.setup.worker, rfl, D.setup.submit, rfl, hadmits, rfl⟩, trivial⟩
  have hqueued : Run (D.services.broker {D.setup.worker} demoSha) (fun _ _ _ => True) (init .empty)
      (D.setup.queued otherCiphertext) :=
    (hstart.trans (hdrive 0 3 _)).tail ⟨.finish 0, .finish (r := .ok ()) rfl, trivial⟩
  have hholds : ∀ j, (D.setup.queued otherCiphertext).holds j ≠ some demoJob.proofId := by
    intro j
    rw [DemoSetup.queued_holds]
    simp
  refine (hqueued.tail ⟨_, Step.deliver ?_ ?_ hholds ⟨D.setup.worker, rfl, rfl⟩, trivial⟩).trans (hdrive 1 n _)
  · exact DemoSetup.queued_idle 1
  · exact List.mem_singleton.2 rfl

end SealedDemo

/-- A job that is no policy run. -/
def plainSealed : SealedDemo where
  setup := ⟨demoWorker, .empty, .obj [("dual_track_reference", .null), ("policy_parameters", .null),
    ("private_input", .obj [("credit_score", .int 700)]), ("request_payload", .obj [])]⟩
  policyId := none
  payload := ⟨.obj [], .obj [("credit_score", .int 700)], .null, .null⟩
  plain := rfl
  decrypted := rfl
  policy := rfl
  submitted := rfl

theorem plainSealed_asks : ∃ k, (plainSealed.delivering 5).pool.procs 1 =
    some (.await (.generate "credit_check" (.obj [("credit_score", .int 700)])) k) := ⟨_, rfl⟩

/-- The provider is asked for what was submitted there. -/
theorem only_submitted_proved_job : ∃ proofId root,
    (plainSealed.delivering 5).holds 1 = some proofId ∧ Lineage (plainSealed.delivering 5).world proofId root ∧
      ∃ sub ∈ plainSealed.services.submissions, sub.proofId = root ∧ sub.circuitId = "credit_check" ∧
        ∃ prepared, workerInput "credit_check" sub.payload.privateInput = .ok prepared ∧
          (Json.obj [("credit_score", .int 700)]).SameContent prepared := by
  obtain ⟨k, hproc⟩ := plainSealed_asks
  exact only_submitted_proved (plainSealed.delivering_run 5) hproc

end Vellum
