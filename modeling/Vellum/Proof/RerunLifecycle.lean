import Vellum.Proof.Attempts
import Vellum.Proof.Requeue
import Vellum.Spec.PolicyRun

/-!
# What a rerun takes over from its source

The metadata of a rerun is that of its source job under five entries of its own. What the failures
of the source have written there, the counter of its attempts and its attestation id included, is
the rerun's from the start.

* `rerunJob_get?`: the entries of the rerun are those of the source.
* `freshLifecycle_iff`: what that means for the first delivery and the status of the rerun.
* `rerun_fresh_iff`: when a requeue starts a fresh lifecycle.
-/

namespace Vellum

open Prog

variable {sha256 : String → String} {repr : Json → String} {request : RequeueRequest} {row : DeadLetterJob}
  {sealedPayload : String} {sourceJob : Option ProofJob} {job : ProofJob} {id : String} {w w' : World}

/-! ## The metadata of a rerun -/

/-- The entries that a requeue writes itself. -/
def rerunKeys : List String := ["source_mode", "rerun_of", "dlq_entry_id", "rerun_requested_by", "rerun_reason"]

/-- **All other entries are those of the source job.** -/
theorem rerunJob_get? (sha256 : String → String) (repr : Json → String) (request : RequeueRequest) (row : DeadLetterJob)
    (sealedPayload : String) (sourceJob : Option ProofJob) {key : String} (hkey : key ∉ rerunKeys) :
    (rerunJob sha256 repr request row sealedPayload sourceJob).metadata.get? key =
      sourceJob.bind fun job => job.metadata.get? key := by
  simp only [rerunKeys, List.mem_cons, List.not_mem_nil, or_false, not_or] at hkey
  obtain ⟨hmode, hof, hentry, hby, hreason⟩ := hkey
  have hdefaults : (Dict.empty.update [("source_mode", .str "rerun"), ("rerun_of", .str row.proofId),
      ("dlq_entry_id", .int request.dlqId)] : Dict Json).get? key = none := by
    rw [Dict.get?_update_of_notMem (by simp [hmode, hof, hentry])]
    rfl
  unfold rerunJob
  simp only
  rw [Dict.get?_update_of_notMem (by simp [hof, hentry, hby, hreason])]
  cases sourceJob with
  | none => exact hdefaults
  | some job =>
    simp only [Option.bind_some]
    rw [Dict.get?_set, if_neg hmode, Dict.get?_update_items, hdefaults]
    cases job.metadata.get? key with
    | none => rfl
    | some value => rfl

/-! ## A fresh lifecycle -/

/-- The first delivery is an attempt for every limit, nothing is left of a failure, and the status
names the attestation of the run itself. -/
structure FreshLifecycle (repr : Json → String) (id : String) (job : ProofJob) : Prop where
  executed : ∀ maxAttempts, 1 ≤ maxAttempts → (nextAttemptMetadata job.metadata maxAttempts).2 = false
  noReason : job.metadata.get? "failure_reason" = none
  noDetails : job.metadata.get? "error_details" = none
  attestation : ∀ status, runStatus repr id (some job) = .ok status → status.attestationId = "att-" ++ id

/-- `get_policy_run_status` answers for a job with this metadata. -/
def Reportable (metadata : Dict Json) : Prop :=
  (∃ policyId, metadata.get? "policy_id" = some (.str policyId) ∧ policyId ≠ "") ∧
    (reportedDecision (metadata.get? "decision")).isOk = true

/-- The metadata holds no attempts, nothing of a failure and no other attestation id. -/
structure CleanMetadata (repr : Json → String) (id : String) (metadata : Dict Json) : Prop where
  attempts : previousAttempts metadata = 0
  noReason : metadata.get? "failure_reason" = none
  noDetails : metadata.get? "error_details" = none
  attestation : Reportable metadata →
    truthyStr repr (metadata.get? "attestation_id") ("att-" ++ id) = "att-" ++ id

theorem runPolicyId_ok {metadata : Dict Json} {policyId : String} :
    runPolicyId id metadata = .ok policyId ↔ metadata.get? "policy_id" = some (.str policyId) ∧ policyId ≠ "" := by
  unfold runPolicyId
  split
  · next text htext =>
    rw [htext]
    by_cases hne : text = ""
    · rw [if_pos hne]
      constructor
      · exact nofun
      · rintro ⟨heq, hpolicy⟩
        exact absurd ((Json.str.inj (Option.some.inj heq)).symm.trans hne) hpolicy
    · rw [if_neg hne]
      constructor
      · intro h
        obtain rfl := Except.ok.inj h
        exact ⟨rfl, hne⟩
      · rintro ⟨heq, -⟩
        rw [Json.str.inj (Option.some.inj heq)]
  · next hno =>
    constructor
    · exact nofun
    · rintro ⟨heq, -⟩
      exact absurd heq (hno policyId)

/-- What the status says of the attestation. -/
theorem runStatus_attestation {status : RunStatus} (h : runStatus repr id (some job) = .ok status) :
    Reportable job.metadata ∧
      status.attestationId = truthyStr repr (job.metadata.get? "attestation_id") ("att-" ++ id) := by
  simp only [runStatus, bind_ok, pure_ok] at h
  obtain ⟨policyId, hpolicy, decision, hdecision, rfl⟩ := h
  refine ⟨⟨⟨policyId, runPolicyId_ok.1 hpolicy⟩, ?_⟩, rfl⟩
  rw [hdecision]
  rfl

theorem runStatus_of_reportable (repr : Json → String) (id : String) (h : Reportable job.metadata) :
    ∃ status, runStatus repr id (some job) = .ok status := by
  obtain ⟨⟨policyId, hpolicy⟩, hdecision⟩ := h
  obtain ⟨decision, hdecision⟩ := isOk_iff.1 hdecision
  simp only [runStatus, bind_ok, pure_ok]
  exact ⟨_, policyId, runPolicyId_ok.2 hpolicy, decision, hdecision, rfl⟩

/-- **A lifecycle is fresh iff the metadata is clean.** -/
theorem freshLifecycle_iff (repr : Json → String) (id : String) (job : ProofJob) :
    FreshLifecycle repr id job ↔ CleanMetadata repr id job.metadata := by
  have hnonneg := previousAttempts_nonneg job.metadata
  constructor
  · intro h
    refine ⟨?_, h.noReason, h.noDetails, fun hreportable => ?_⟩
    · -- with a limit of one, a single earlier attempt is too many
      have hone := h.executed 1 le_rfl
      simp only [nextAttemptMetadata, decide_eq_false_iff_not] at hone
      omega
    · obtain ⟨status, hstatus⟩ := runStatus_of_reportable repr id hreportable
      exact (runStatus_attestation hstatus).2.symm.trans (h.attestation status hstatus)
  · intro h
    refine ⟨fun maxAttempts hmax => ?_, h.noReason, h.noDetails, fun status hstatus => ?_⟩
    · simp only [nextAttemptMetadata, decide_eq_false_iff_not]
      have hzero := h.attempts
      omega
    · obtain ⟨hreportable, heq⟩ := runStatus_attestation hstatus
      exact heq.trans (h.attestation hreportable)

theorem freshLifecycle_row (repr : Json → String) (id : String) (new : NewJob) (now : ℚ) :
    FreshLifecycle repr id (new.row now) ↔ CleanMetadata repr id new.metadata :=
  freshLifecycle_iff repr id (new.row now)

/-! ## A requeue -/

theorem proofJobs_behindCreation {c : Call} {a : Except PyExn c.Resp} (hc : c.behindCreation = true)
    (h : c.Sem w a w') : w'.proofJobs = w.proofJobs := by
  rcases sem_cases h with rfl | ⟨r, now, rfl, -⟩
  · rfl
  · cases c <;> first | rfl | cases hc

/-- Behind the creation the rows of the jobs stay as they are. -/
theorem safe_behindCreation {α : Type} {p : Service α} {jobs : String → Option ProofJob}
    (hp : p.Calls fun c => c.behindCreation = true) (hjobs : w.proofJobs = jobs) :
    p.Safe Call.Sem (fun _ _ => True) (fun _ w' => w'.proofJobs = jobs) w := by
  induction p generalizing w with
  | done r => exact hjobs
  | await c k ih =>
    refine ⟨trivial, fun a w' hs => ih a (hp.2 a) ?_⟩
    rw [proofJobs_behindCreation hp.1 hs, hjobs]

/-- The rerun is the new job, or there is none and the requeue has raised. -/
def Created (new : NewJob) (r : Except PyExn RequeueResponse) (w : World) : Prop :=
  (∃ now, w.proofJobs new.proofId = some (new.row now)) ∨ (w.proofJobs new.proofId = none ∧ r.isOk = false)

theorem triggerRerun_creates {new : NewJob} (hfree : w.proofJobs new.proofId = none) :
    (triggerRerun request row new).Safe Call.Sem (fun _ _ => True) (Created new) w := by
  unfold triggerRerun
  refine safe_await_bind trivial ?_ ?_
  · rintro r w₁ ⟨now, hw₁, -⟩
    have hcreated : w₁.proofJobs new.proofId = some (new.row now) := by
      rw [hw₁]
      exact Function.update_self ..
    refine safe_mono ?_ (safe_behindCreation ?_ rfl)
    · intro r w' hjobs
      rw [← hjobs] at hcreated
      exact .inl ⟨now, hcreated⟩
    · refine calls_bind (calls_await rfl) fun _ => ?_
      refine calls_bind (calls_await rfl) fun _ => ?_
      refine calls_bind (calls_await rfl) fun _ => ?_
      exact calls_bind (calls_await rfl) fun _ => trivial
  · -- the row is there if it raised behind its commit
    rintro e w₁ (rfl | ⟨r, now, hw₁, -⟩)
    · exact .inr ⟨hfree, rfl⟩
    · rw [hw₁]
      exact .inl ⟨now, Function.update_self ..⟩

/-- **A requeue of a row with a payload creates the rerun** from the source job it finds. -/
theorem requeue_creates (hrow : w.getDeadLetterJob request.dlqId = some row) (hrerun : row.rerun? = none)
    (hsealed : row.sealedRerunPayload.filter (· ≠ "") = some sealedPayload)
    (hfree : w.proofJobs request.rerunProofId = none) :
    (requeueDeadLetterJob sha256 repr request).Safe Call.Sem (fun _ _ => True)
      (Created (rerunJob sha256 repr request row sealedPayload (w.proofJobs row.proofId))) w := by
  have hraised : ∀ {new : NewJob} {e w₁}, new.proofId = request.rerunProofId → w₁ = w → Created new (.error e) w₁ := by
    intro new e w₁ hnew hw₁
    rw [hw₁]
    refine .inr ⟨?_, rfl⟩
    rw [hnew]
    exact hfree
  unfold requeueDeadLetterJob
  refine safe_await_bind trivial ?_ fun e w₁ hs => hraised rfl (sem_idle (fun _ => rfl) hs)
  rintro read w₁ ⟨now, hw₁, hread⟩
  obtain rfl : w₁ = w := hw₁
  obtain rfl : read = some row := hread.trans hrow
  simp only [requeueRow, hrerun, hsealed]
  refine safe_await_bind trivial ?_ fun e w₂ hs => hraised rfl (sem_idle (fun _ => rfl) hs)
  rintro source w₂ ⟨now₂, hw₂, hsource⟩
  obtain rfl : w₂ = w₁ := hw₂
  obtain rfl : source = w₂.proofJobs row.proofId := hsource
  exact triggerRerun_creates hfree

/-- The metadata of the source job is clean; without a source there is nothing to take over. -/
def CleanSource (repr : Json → String) (id : String) (sourceJob : Option ProofJob) : Prop :=
  ∀ job, sourceJob = some job → CleanMetadata repr id job.metadata

theorem cleanMetadata_congr {d d' : Dict Json} (h : ∀ key ∉ rerunKeys, d.get? key = d'.get? key) :
    CleanMetadata repr id d ↔ CleanMetadata repr id d' := by
  have hreason := h "failure_reason" (by decide)
  have hdetails := h "error_details" (by decide)
  have hattempts := previousAttempts_congr (h "attempt_count" (by decide))
  have hattestation := h "attestation_id" (by decide)
  have hreportable : Reportable d ↔ Reportable d' := by
    unfold Reportable
    rw [h "policy_id" (by decide), h "decision" (by decide)]
  constructor
  · rintro ⟨h1, h2, h3, h4⟩
    exact ⟨hattempts ▸ h1, hreason ▸ h2, hdetails ▸ h3, fun hr => hattestation ▸ h4 (hreportable.2 hr)⟩
  · rintro ⟨h1, h2, h3, h4⟩
    exact ⟨hattempts.symm ▸ h1, hreason.symm ▸ h2, hdetails.symm ▸ h3,
      fun hr => hattestation.symm ▸ h4 (hreportable.1 hr)⟩

theorem cleanMetadata_empty (repr : Json → String) (id : String) : CleanMetadata repr id .empty :=
  ⟨rfl, rfl, rfl, fun hreportable => nomatch hreportable.1.choose_spec.1⟩

/-- The rerun is clean iff its source is. -/
theorem cleanMetadata_rerunJob (sha256 : String → String) (repr : Json → String) (id : String)
    (request : RequeueRequest) (row : DeadLetterJob) (sealedPayload : String) (sourceJob : Option ProofJob) :
    CleanMetadata repr id (rerunJob sha256 repr request row sealedPayload sourceJob).metadata ↔
      CleanSource repr id sourceJob := by
  cases sourceJob with
  | none =>
    refine iff_of_true ?_ (fun _ hjob => nomatch hjob)
    refine (cleanMetadata_congr fun key hkey => ?_).2 (cleanMetadata_empty repr id)
    exact rerunJob_get? sha256 repr request row sealedPayload none hkey
  | some job =>
    have hget : ∀ key ∉ rerunKeys, (rerunJob sha256 repr request row sealedPayload (some job)).metadata.get? key =
        job.metadata.get? key := fun key hkey => rerunJob_get? sha256 repr request row sealedPayload (some job) hkey
    refine (cleanMetadata_congr hget).trans ⟨fun h job' hjob' => ?_, fun h => h job rfl⟩
    rw [← Option.some.inj hjob']
    exact h

/-- **When a rerun starts a fresh lifecycle**: iff the source job is gone, or its metadata holds no
attempts, no failure and no attestation id of its own. A requeue that returns has created the
rerun. -/
theorem rerun_fresh_iff (sha256 : String → String) (repr : Json → String) (request : RequeueRequest) (w : World)
    (row : DeadLetterJob) (hrow : w.getDeadLetterJob request.dlqId = some row) (hrerun : row.rerun? = none)
    (hsealed : (row.sealedRerunPayload.filter (· ≠ "")).isSome = true)
    (hfree : w.proofJobs request.rerunProofId = none) {r : Except PyExn RequeueResponse} {w' : World}
    (hrun : (requeueDeadLetterJob sha256 repr request).Returns Call.Sem w r w') :
    (r.isOk = true → ∃ job, w'.proofJobs request.rerunProofId = some job) ∧
    ∀ job, w'.proofJobs request.rerunProofId = some job →
      (FreshLifecycle repr request.rerunProofId job ↔
        CleanSource repr request.rerunProofId (w.proofJobs row.proofId)) := by
  obtain ⟨sealedPayload, hsealed⟩ := Option.isSome_iff_exists.1 hsealed
  rcases safe_returns (requeue_creates hrow hrerun hsealed hfree) hrun with ⟨now, hcreated⟩ | ⟨hnone, hraised⟩
  · refine ⟨fun _ => ⟨_, hcreated⟩, fun job hjob => ?_⟩
    obtain rfl := Option.some.inj (hcreated.symm.trans hjob)
    rw [freshLifecycle_row]
    exact cleanMetadata_rerunJob sha256 repr request.rerunProofId request row sealedPayload (w.proofJobs row.proofId)
  · refine ⟨fun hok => ?_, fun job hjob => ?_⟩
    · rw [hraised] at hok
      cases hok
    · rw [show w'.proofJobs request.rerunProofId = none from hnone] at hjob
      cases hjob

/-! ### The rerun of a job whose attempts are used up -/

/-- The requeue of the demo letter, in which no call raises. -/
def demoRequeue (w : World) : Except PyExn RequeueResponse × World :=
  (requeueDeadLetterJob demoSha demoWorker.repr (demoRequest "r1")).runOn (demoAnswer .null true fun _ => false) w

theorem demoRequeue_returns (w : World) :
    (requeueDeadLetterJob demoSha demoWorker.repr (demoRequest "r1")).Returns Call.Sem w (demoRequeue w).1
      (demoRequeue w).2 :=
  returns_runOn (fun c w => demoAnswer_sem _ _ _ c w) _ w

/-- Without its source the rerun starts afresh. -/
theorem fresh_without_source : ∃ job,
    (demoRequeue demoLetterWorld).2.proofJobs (demoRequest "r1").rerunProofId = some job ∧
    FreshLifecycle demoWorker.repr (demoRequest "r1").rerunProofId job := by
  obtain ⟨hcreated, hfresh⟩ := rerun_fresh_iff demoSha demoWorker.repr (demoRequest "r1") demoLetterWorld
    (.fresh 1 demoLetter) rfl rfl rfl rfl (demoRequeue_returns demoLetterWorld)
  obtain ⟨job, hjob⟩ := hcreated rfl
  have hclean : CleanSource demoWorker.repr (demoRequest "r1").rerunProofId none := fun _ hsource => nomatch hsource
  exact ⟨job, hjob, (hfresh job hjob).2 hclean⟩

/-- The metadata of a policy run after its last delivery. -/
def usedUpMetadata : Dict Json :=
  ⟨[("policy_id", .str "lending_risk_v1"), ("attestation_id", .str "att-p1"), ("decision", .null),
    ("attempt_count", .int 4), ("max_attempts", .int 3), ("failure_reason", .str "max_attempts_exceeded"),
    ("error_details", .obj [("explainability", maxAttemptsExplainability)])], by decide⟩

/-- The run that has failed and its dead letter. -/
def usedUpWorld : World :=
  demoLetterWorld.setJob "p1"
    { NewJob.row { demoJob with status := .failed, metadata := usedUpMetadata } 0 with sealedJobPayload := none }

/-- **The rerun of a failed run**: its first delivery is past the limit of three attempts, the
failure of the source is its own, and its status names the attestation of the source. -/
theorem rerun_inherits_failure : ∃ job, (demoRequeue usedUpWorld).2.proofJobs "r1" = some job ∧
    (nextAttemptMetadata job.metadata 3).2 = true ∧
    job.metadata.get? "failure_reason" = some (.str "max_attempts_exceeded") ∧
    (∃ status, runStatus demoWorker.repr "r1" (some job) = .ok status ∧ status.attestationId = "att-p1") ∧
    ¬ FreshLifecycle demoWorker.repr "r1" job := by
  refine ⟨_, rfl, rfl, rfl, ⟨_, rfl, rfl⟩, fun hfresh => ?_⟩
  have hexecuted := hfresh.executed 3 (by decide)
  cases hexecuted

end Vellum
