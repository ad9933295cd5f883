import Vellum.Spec.Archive
import Vellum.Spec.Database

/-!
# Maintenance cycles over the job table

`prune_terminal_job_runtime_data` and `list_jobs_for_file_archival` of `vellum_core/database.py` on
the whole table, and the proof-file part of `run_maintenance_cycle`. Where two rows have the same
`updated_at` the database may list either first.
-/

namespace Vellum

/-! ## Pruning -/

/-- `prune_terminal_job_runtime_data`: the table afterwards, and the number of rows it returns. -/
def pruneTerminalJobRuntimeData (table : List ProofJob) (olderThan now : ℚ) : List ProofJob × ℕ :=
  (table.map (·.prune olderThan now), (table.filter (·.prunable olderThan)).length)

/-- A run of it on a table in which one row is followed: the other rows, the cutoff and the clock. -/
structure PruneRun where
  before : List ProofJob
  after : List ProofJob
  olderThan : ℚ
  now : ℚ

namespace PruneRun

/-- What the run makes of the table with the row. -/
def result (r : PruneRun) (row : ProofJob) : List ProofJob × ℕ :=
  pruneTerminalJobRuntimeData (r.before ++ row :: r.after) r.olderThan r.now

/-- The run neither selects the row nor modifies it: only the others count. -/
def Spares (r : PruneRun) (row : ProofJob) : Prop :=
  let before := pruneTerminalJobRuntimeData r.before r.olderThan r.now
  let after := pruneTerminalJobRuntimeData r.after r.olderThan r.now
  r.result row = (before.1 ++ row :: after.1, before.2 + after.2)

end PruneRun

/-! ## The candidates for archival -/

namespace ProofJob

/-- The rows that `list_jobs_for_file_archival` selects. -/
def archivable (job : ProofJob) (olderThan : ℚ) : Bool :=
  job.status.terminal && job.proofPath.isSome && job.updatedAt < olderThan

end ProofJob

/-- `min(max(limit, 1), 2000)`. -/
def boundedLimit (limit : ℕ) : ℕ := min (max limit 1) 2000

/-- An answer of `list_jobs_for_file_archival`: the oldest of the selected rows, in order. -/
def ListsForArchival (table : List ProofJob) (olderThan : ℚ) (limit : ℕ) (answer : List ProofJob) : Prop :=
  ∃ ordered : List ProofJob, ordered.Perm (table.filter (·.archivable olderThan)) ∧
    ordered.Pairwise (fun a b => a.updatedAt ≤ b.updatedAt) ∧ answer = ordered.take (boundedLimit limit)

/-- The run takes the row out of the candidates at some cutoff. -/
def PruneRun.Postpones (r : PruneRun) (row : ProofJob) : Prop :=
  ∃ cutoff, row.archivable cutoff = true ∧ ∃ row', (r.result row).1[r.before.length]? = some row' ∧
    row'.archivable cutoff = false

/-- The settings of the proof-file part of a cycle; `expanduser` is that of `pathlib`. -/
structure MaintenanceSettings extends ArchiveSettings where
  expanduser : Pathname → Pathname
  fileScanLimit : ℕ

namespace MaintenanceSettings

variable (st : MaintenanceSettings)

/-- The source of a candidate; a blank path is passed over. -/
def source? (job : ProofJob) : Option Pathname :=
  match job.proofPath with
  | some text => if strip text = "" then none else some (st.expanduser (pathOf text))
  | none => none

/-- The loop of `run_maintenance_cycle` over the candidates, alone in the file system. -/
def proofCycle (fs : FileSystem StoredFile) (candidates : List ProofJob) : FileSystem StoredFile :=
  ((st.archiveProofs (candidates.filterMap st.source?) 0).runOn (answerFs st.cwd) fs).2

/-- Consecutive cycles, by what the database has listed for each. -/
def proofCycles (fs : FileSystem StoredFile) (answers : List (List ProofJob)) : FileSystem StoredFile :=
  answers.foldl st.proofCycle fs

/-- A proof file is archived: it is in the archive, and a link stands in its place. -/
def Archived (fs : FileSystem StoredFile) (source : Pathname) (file : StoredFile) : Prop :=
  (∃ target, fs.lstat st.cwd source = some (.link target)) ∧
    fs.read st.cwd (st.target "proofs" source file.mtime) = some file

end MaintenanceSettings

end Vellum
