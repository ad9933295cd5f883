import Vellum.Spec.Maintenance
import Mathlib.Tactic.NormNum

/-!
# Whether a job is pruned once

Pruning stores `None` in the two JSON columns, which is the JSON `null` and not the SQL one: a
pruned row with a proof or public signals still holds runtime data, and its time has just been set
anew. It is selected again as soon as a cutoff has passed that time. A row that had neither, as that
of a failed job, is not.

* `prunes_once_iff`: when a second run spares a row that a first one has pruned.
* `pruned_again`: a second pruning.
-/

namespace Vellum

variable {job row : ProofJob} {olderThan now cutoff : ℚ}

namespace ProofJob

/-- One of the three columns that pruning looks at is not the SQL `NULL`. -/
def holdsRuntimeData (job : ProofJob) : Bool := job.proof.isSome || job.publicSignals.isSome || job.error.isSome

theorem prunable_iff : job.prunable olderThan = true ↔
    job.status.terminal = true ∧ job.updatedAt < olderThan ∧ job.holdsRuntimeData = true := by
  simp only [prunable, holdsRuntimeData, Bool.and_eq_true, decide_eq_true_eq, and_assoc]

theorem prune_selected (h : job.prunable olderThan = true) : job.prune olderThan now =
    { job with
      proof := job.proof.map fun _ => .null
      publicSignals := job.publicSignals.map fun _ => .null
      error := none
      updatedAt := now } :=
  if_pos h

theorem prune_spared (h : ¬ job.prunable olderThan = true) : job.prune olderThan now = job :=
  if_neg h

/-- One of the two columns that keep a JSON `null` is not the SQL `NULL`. -/
def holdsResult (job : ProofJob) : Bool := job.proof.isSome || job.publicSignals.isSome

/-- **A pruned row with a result is selected again** at every cutoff after the time of its pruning. -/
theorem prunable_prune (h : job.prunable olderThan = true) :
    (job.prune olderThan now).prunable cutoff = true ↔ now < cutoff ∧ job.holdsResult = true := by
  have hterminal := (prunable_iff.1 h).1
  rw [prune_selected h, prunable_iff]
  simp only [holdsRuntimeData, holdsResult, Option.isSome_map, Option.isSome_none, Bool.or_false]
  constructor
  · exact fun hagain => hagain.2
  · exact fun hagain => ⟨hterminal, hagain⟩

theorem updatedAt_prune (h : job.prunable olderThan = true) : (job.prune olderThan now).updatedAt = now := by
  rw [prune_selected h]

end ProofJob

open ProofJob

/-! ## Two runs -/

namespace PruneRun

variable {r : PruneRun}

/-- A run, row by row. -/
theorem result_eq (r : PruneRun) (row : ProofJob) : r.result row =
    (r.before.map (·.prune r.olderThan r.now) ++ row.prune r.olderThan r.now :: r.after.map (·.prune r.olderThan r.now),
      (r.before.filter (·.prunable r.olderThan)).length + (if row.prunable r.olderThan then 1 else 0) +
        (r.after.filter (·.prunable r.olderThan)).length) := by
  unfold result pruneTerminalJobRuntimeData
  refine Prod.ext (by simp) ?_
  by_cases h : row.prunable r.olderThan = true
  · simp only [List.filter_append, List.filter_cons, List.length_append, List.length_cons, if_pos h]
    omega
  · simp only [List.filter_append, List.filter_cons, List.length_append, if_neg h]
    omega

theorem row_after (r : PruneRun) (row : ProofJob) :
    (r.result row).1[r.before.length]? = some (row.prune r.olderThan r.now) := by
  rw [result_eq, List.getElem?_append_right (by simp)]
  simp

/-- The run spares exactly the rows that it does not select. -/
theorem spares_iff (r : PruneRun) (row : ProofJob) : r.Spares row ↔ ¬ row.prunable r.olderThan = true := by
  unfold Spares
  rw [result_eq]
  constructor
  · intro h hselected
    -- the row would count
    have hcount := congrArg Prod.snd h
    simp only [pruneTerminalJobRuntimeData, if_pos hselected] at hcount
    omega
  · intro h
    rw [prune_spared h, if_neg h, Nat.add_zero]
    rfl

theorem not_postpones (h : r.Spares row) : ¬ r.Postpones row := by
  rintro ⟨cutoff, hbefore, row', hrow, hafter⟩
  rw [row_after, prune_spared ((spares_iff r row).1 h)] at hrow
  rw [← Option.some.inj hrow, hbefore] at hafter
  cases hafter

end PruneRun

/-- **When a job is pruned once**: a row that one run has pruned is spared by a later one, with its
time as the first has set it and its archival no further postponed, iff the cutoff of the later run
has not passed the time of the first or the job had no result. -/
theorem prunes_once_iff (r₁ r₂ : PruneRun) (job row : ProofJob) (hselected : job.prunable r₁.olderThan = true)
    (hrow : (r₁.result job).1[r₁.before.length]? = some row) :
    (r₂.Spares row ∧ row.updatedAt = r₁.now ∧ ¬ r₂.Postpones row) ↔
      r₂.olderThan ≤ r₁.now ∨ (job.proof = none ∧ job.publicSignals = none) := by
  rw [PruneRun.row_after] at hrow
  obtain rfl := Option.some.inj hrow
  have hresult : job.holdsResult = true ↔ ¬ (job.proof = none ∧ job.publicSignals = none) := by
    unfold holdsResult
    cases job.proof <;> cases job.publicSignals <;> simp
  have hspares : r₂.Spares (job.prune r₁.olderThan r₁.now) ↔
      r₂.olderThan ≤ r₁.now ∨ (job.proof = none ∧ job.publicSignals = none) := by
    rw [PruneRun.spares_iff, prunable_prune hselected, hresult, not_and_or, not_lt, not_not]
  constructor
  · exact fun h => hspares.1 h.1
  · intro h
    have hspared := hspares.2 h
    exact ⟨hspared, updatedAt_prune hselected, PruneRun.not_postpones hspared⟩

/-- A completed job of day 0 with its proof. -/
def provedJob : ProofJob :=
  { NewJob.row ⟨"proof-1", "batch_credit_check", .completed, "sealed", "fingerprint", .null, .empty⟩ 0 with
    proof := some (.obj [])
    proofPath := some "/proofs/proof-1.json" }

/-- The runs of two consecutive days spare it after the first. -/
theorem prunes_once_next_day :
    let r₂ : PruneRun := ⟨[], [], 2, 9⟩
    r₂.Spares (provedJob.prune 1 8) ∧ (provedJob.prune 1 8).updatedAt = 8 ∧ ¬ r₂.Postpones (provedJob.prune 1 8) :=
  (prunes_once_iff ⟨[], [], 1, 8⟩ ⟨[], [], 2, 9⟩ provedJob (provedJob.prune 1 8) (by decide +kernel)
    (PruneRun.row_after _ _)).2 (.inl (by norm_num))

/-- **A second pruning**: with a retention of seven days, a run of day 8 prunes the job and one of
day 16 prunes it again, counts it and sets its time anew; at the cutoff of day 9 its file is a
candidate for archival before the second run and none after it. -/
theorem pruned_again :
    let r₁ : PruneRun := ⟨[], [], 1, 8⟩
    let r₂ : PruneRun := ⟨[], [], 9, 16⟩
    (r₁.result provedJob).1[r₁.before.length]? = some (provedJob.prune 1 8) ∧
    (r₁.result provedJob).2 = 1 ∧ (r₂.result (provedJob.prune 1 8)).2 = 1 ∧
    ((provedJob.prune 1 8).prune 9 16).updatedAt = 16 ∧ ¬ r₂.Spares (provedJob.prune 1 8) ∧
    r₂.Postpones (provedJob.prune 1 8) := by
  have hfirst : provedJob.prunable 1 = true := by decide +kernel
  have hsecond : (provedJob.prune 1 8).prunable 9 = true := (prunable_prune hfirst).2 ⟨by norm_num, rfl⟩
  refine ⟨PruneRun.row_after _ _, by decide +kernel, by decide +kernel, updatedAt_prune hsecond, ?_, 9,
    by decide +kernel, _, PruneRun.row_after _ _, by decide +kernel⟩
  rw [PruneRun.spares_iff]
  exact fun hnot => hnot hsecond

end Vellum
