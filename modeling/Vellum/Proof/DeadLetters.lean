import Vellum.Proof.JobLifecycle
import Vellum.Proof.Requeue

/-!
# The dead letters of the services

Failures record dead letters and requeues mark them. A failure that comes after the mark opens the
row again and leaves the rerun it names.

* `consistent_upsert`, `consistent_mark`: the two writers.
* `dead_letters_consistent_iff`: when the rows stay consistent, in all runs of the services.
-/

namespace Vellum

open Prog Relation

variable {S : WorkerSettings} {sha256 : String → String} {w w' : World} {row : DeadLetterJob}

/-! ## Consistent rows -/

/-- An open row names no rerun, and a requeued one does. -/
def RowConsistent (row : DeadLetterJob) : Prop :=
  (row.status = .opened → row.rerunProofId = none) ∧ (row.status = .requeued → row.rerunProofId.isSome = true)

/-- **The dead letters are consistent**, and each job has one at most. -/
structure LettersConsistent (w : World) : Prop where
  rows : ∀ row ∈ w.deadLetterJobs, RowConsistent row
  unique : (w.deadLetterJobs.map fun row => row.proofId).Nodup

/-- No row of the job names a rerun. -/
def NotRequeued (proofId : String) (w : World) : Prop :=
  ∀ row ∈ w.deadLetterJobs, row.proofId = proofId → row.rerunProofId = none

theorem proofIds_upsert_of_mem {input : DeadLetterInput}
    (h : ∃ row ∈ w.deadLetterJobs, row.proofId = input.proofId) :
    (w.upsertDeadLetterJob input).deadLetterJobs.map (fun row => row.proofId) =
      w.deadLetterJobs.map fun row => row.proofId := by
  obtain ⟨row, hrow, hid⟩ := h
  unfold World.upsertDeadLetterJob
  have hids : ∀ old : DeadLetterJob,
      (if old.proofId = input.proofId then old.upsert input else old).proofId = old.proofId := by
    intro old
    by_cases hold : old.proofId = input.proofId
    · rw [if_pos hold]
      rfl
    · rw [if_neg hold]
  rw [if_pos (List.any_eq_true.2 ⟨row, hrow, by simpa using hid⟩), List.map_map]
  exact List.map_congr_left fun old _ => hids old

theorem unique_upsert {input : DeadLetterInput} (h : (w.deadLetterJobs.map fun row => row.proofId).Nodup) :
    ((w.upsertDeadLetterJob input).deadLetterJobs.map fun row => row.proofId).Nodup := by
  by_cases hex : ∃ row ∈ w.deadLetterJobs, row.proofId = input.proofId
  · rw [proofIds_upsert_of_mem hex]
    exact h
  · have hany : ¬ w.deadLetterJobs.any (fun row => row.proofId = input.proofId) = true := by
      intro hany
      obtain ⟨row, hrow, heq⟩ := List.any_eq_true.1 hany
      exact hex ⟨row, hrow, by simpa using heq⟩
    unfold World.upsertDeadLetterJob
    rw [if_neg hany, List.map_append, List.map_singleton, List.nodup_append]
    refine ⟨h, List.nodup_singleton _, ?_⟩
    rintro proofId hmem _ hnew rfl
    obtain ⟨row, hrow, hid⟩ := List.mem_map.1 hmem
    exact hex ⟨row, hrow, hid.trans (List.mem_singleton.1 hnew)⟩

/-- **An upsert keeps the rows consistent iff it names no row with a rerun.** -/
theorem consistent_upsert {input : DeadLetterInput} (h : LettersConsistent w) :
    LettersConsistent (w.upsertDeadLetterJob input) ↔ NotRequeued input.proofId w := by
  constructor
  · intro hafter old hold hid
    -- the row is open now, with the rerun it had before
    have hrow := hafter.rows _ (mem_upsert.2 (.inr (.inl ⟨old, hold, hid, rfl⟩)))
    exact hrow.1 rfl
  · intro hnot
    refine ⟨fun row hrow => ?_, unique_upsert h.unique⟩
    rcases mem_upsert.1 hrow with ⟨hold, -⟩ | ⟨old, hold, hid, rfl⟩ | ⟨-, rfl⟩
    · exact h.rows row hold
    · exact ⟨fun _ => hnot old hold hid, nofun⟩
    · exact ⟨fun _ => rfl, nofun⟩

/-- A mark names the rerun and sets the status together. -/
theorem consistent_mark {dlqId : ℕ} {rerun requestedBy : String} {reason : Option String} (h : LettersConsistent w) :
    LettersConsistent (w.markDeadLetterJobRequeued dlqId rerun requestedBy reason) := by
  unfold World.markDeadLetterJobRequeued
  refine ⟨fun row hrow => ?_, ?_⟩
  · obtain ⟨old, hold, rfl⟩ := List.mem_map.1 hrow
    by_cases hid : old.id = dlqId
    · rw [if_pos hid]
      exact ⟨nofun, fun _ => rfl⟩
    · rw [if_neg hid]
      exact h.rows old hold
  · have hids : ∀ old : DeadLetterJob,
        (if old.id = dlqId then old.requeue rerun requestedBy reason else old).proofId = old.proofId := by
      intro old
      by_cases hid : old.id = dlqId
      · rw [if_pos hid]
        rfl
      · rw [if_neg hid]
    rw [List.map_map]
    exact (List.map_congr_left fun old _ => hids old) ▸ h.unique

theorem consistent_congr (h : w'.deadLetterJobs = w.deadLetterJobs) : LettersConsistent w' ↔ LettersConsistent w := by
  constructor
  · rintro ⟨hrows, hunique⟩
    rw [h] at hrows hunique
    exact ⟨hrows, hunique⟩
  · rintro ⟨hrows, hunique⟩
    rw [← h] at hrows hunique
    exact ⟨hrows, hunique⟩

theorem consistent_empty : LettersConsistent .empty where
  rows := by
    intro row hrow
    cases hrow
  unique := List.nodup_nil

/-! ## Steps -/

/-- **Payloads are kept**: the row of a job has afterwards the payload it had, or the one that the
step's upsert brings, which is not empty. -/
def PayloadsKept (act : Act Call.Resp PyExn Unit) (w w' : World) : Prop :=
  ∀ row ∈ w.deadLetterJobs, ∃ row' ∈ w'.deadLetterJobs, row'.proofId = row.proofId ∧
    (row'.sealedRerunPayload = row.sealedRerunPayload ∨
      ∃ i input a, act = .call i (.upsertDeadLetterJob input) a ∧ input.proofId = row.proofId ∧
        row'.sealedRerunPayload = input.sealedRerunPayload ∧ input.sealedRerunPayload.getD "" ≠ "")

/-- A failure is recorded only for a job whose dead letter, if it has one, names no rerun. An upsert
that raises behind its commit has recorded it. -/
def RerunUnset (s : System) (act : Act Call.Resp PyExn Unit) (s' : System) : Prop :=
  match act with
  | .call _ (.upsertDeadLetterJob input) _ =>
    (∃ r, (Call.upsertDeadLetterJob input).Done s.world r s'.world) → NotRequeued input.proofId s.world
  | _ => True

variable {s s' : System} {act : Act Call.Resp PyExn Unit}

theorem payloadsKept_of_eq (h : w'.deadLetterJobs = w.deadLetterJobs) : PayloadsKept act w w' := by
  intro row hrow
  rw [h]
  exact ⟨row, hrow, rfl, .inl rfl⟩

/-- Only the row that an upsert names can get another payload. -/
theorem payloadsKept_upsert {i : ℕ} {input : DeadLetterInput} {a : Except PyExn (Call.upsertDeadLetterJob input).Resp}
    (h : w'.deadLetterJobs = (w.upsertDeadLetterJob input).deadLetterJobs) :
    PayloadsKept (.call i (.upsertDeadLetterJob input) a) w w' := by
  intro row hrow
  rw [h]
  by_cases hid : row.proofId = input.proofId
  · refine ⟨row.upsert input, mem_upsert.2 (.inr (.inl ⟨row, hrow, hid, rfl⟩)), rfl, ?_⟩
    by_cases hnew : input.sealedRerunPayload.getD "" ≠ ""
    · exact .inr ⟨i, input, a, rfl, hid.symm, if_pos hnew, hnew⟩
    · exact .inl (if_neg hnew)
  · exact ⟨row, mem_upsert.2 (.inl ⟨hrow, hid⟩), rfl, .inl rfl⟩

theorem payloadsKept_mark {dlqId : ℕ} {rerun requestedBy : String} {reason : Option String}
    (h : w'.deadLetterJobs = (w.markDeadLetterJobRequeued dlqId rerun requestedBy reason).deadLetterJobs) :
    PayloadsKept act w w' := by
  intro row hrow
  refine ⟨if row.id = dlqId then row.requeue rerun requestedBy reason else row, ?_, ?_⟩
  · rw [h]
    exact List.mem_map_of_mem hrow
  · by_cases hid : row.id = dlqId
    · rw [if_pos hid]
      exact ⟨rfl, .inl rfl⟩
    · rw [if_neg hid]
      exact ⟨rfl, .inl rfl⟩

/-- **No step drops a payload.** -/
theorem step_payloadsKept (hstep : Pool.Step Call.Sem (Set.range (Task.prog S sha256)) s act s') :
    PayloadsKept act s.world s'.world := by
  cases hstep with
  | start _ _ | crash _ => exact payloadsKept_of_eq rfl
  | @call i c k a w' hi hs =>
    rcases letters_cases hs with hsame | ⟨input, rfl, hletters⟩ | ⟨dlqId, rerun, requestedBy, reason, rfl, hletters⟩
    · exact payloadsKept_of_eq hsame
    · exact payloadsKept_upsert hletters
    · exact payloadsKept_mark hletters

/-- Only an upsert can leave the rows inconsistent. -/
theorem consistent_call {c : Call} {a : Except PyExn c.Resp} (hc : ∀ input, c ≠ .upsertDeadLetterJob input)
    (h : LettersConsistent w) (hs : c.Sem w a w') : LettersConsistent w' := by
  rcases letters_cases hs with hsame | ⟨input, rfl, -⟩ | ⟨dlqId, rerun, requestedBy, reason, rfl, hletters⟩
  · exact (consistent_congr hsame).2 h
  · exact absurd rfl (hc input)
  · rw [consistent_congr hletters]
    exact consistent_mark h

/-- **A step keeps the rows consistent iff it does not record a failure over a rerun.** -/
theorem step_consistent (h : LettersConsistent s.world)
    (hstep : Pool.Step Call.Sem (Set.range (Task.prog S sha256)) s act s') :
    LettersConsistent s'.world ↔ RerunUnset s act s' := by
  cases hstep with
  | start _ _ | crash _ => exact iff_of_true h trivial
  | @call i c k a w' hi hs =>
    cases c with
    | upsertDeadLetterJob input =>
      constructor
      · rintro hafter ⟨r, now, hw, -⟩
        refine (consistent_upsert h).1 ?_
        rw [Pool.put_world] at hafter hw
        rw [hw] at hafter
        exact hafter
      · intro hcond
        rcases sem_cases hs with hw | hdone
        · rw [Pool.put_world, hw]
          exact h
        · obtain ⟨r, now, hw, -⟩ := id hdone
          rw [Pool.put_world, hw]
          exact (consistent_upsert h).2 (hcond hdone)
    | _ => exact iff_of_true (consistent_call (by rintro input ⟨⟩) h hs) trivial

/-! ## Runs -/

/-- **When the dead letters stay consistent.** In a run of the services every state has consistent
rows, and no step drops a payload, iff no step of it records a failure over a rerun. -/
theorem dead_letters_consistent_iff (T : Trace (SystemStep S sha256 fun _ _ _ => True) System.init) :
    ((∀ n, LettersConsistent (T.run n).world) ∧
      ∀ n act, Pool.Step Call.Sem (Set.range (Task.prog S sha256)) (T.run n) act (T.run (n + 1)) →
        PayloadsKept act (T.run n).world (T.run (n + 1)).world) ↔
    ∀ n act, Pool.Step Call.Sem (Set.range (Task.prog S sha256)) (T.run n) act (T.run (n + 1)) →
      RerunUnset (T.run n) act (T.run (n + 1)) := by
  constructor
  · rintro ⟨hall, -⟩ n act hstep
    exact (step_consistent (hall n) hstep).1 (hall (n + 1))
  · intro hcond
    refine ⟨fun n => ?_, fun n act hstep => step_payloadsKept hstep⟩
    induction n with
    | zero =>
      rw [T.start]
      exact consistent_empty
    | succ n ih =>
      rcases T.next n with hsame | ⟨act, hstep, -⟩
      · rw [hsame]
        exact ih
      · exact (step_consistent ih hstep).2 (hcond n act hstep)

/-! ## Two deliveries that fail -/

/-- The provider of proofs is down. -/
def proverDown : Call → Bool
  | .generate .. => true
  | _ => false

/-- `n` calls of program `i`, none of which raises but those of the provider. -/
def driveDown (i n : ℕ) (s : System) : System := Pool.driveAt (demoAnswer demoPayload true proverDown) i n s

def startAt (i : ℕ) (task : Task) (s : System) : System := s.put i s.world (some (task.prog demoWorker demoSha))

/-- The job is submitted, and one delivery has read it. -/
def readOnce : System :=
  driveDown 1 3 (startAt 1 (.deliver demoJob.proofId) (driveDown 0 3 (startAt 0 demoSubmit System.init)))

/-- A second delivery fails, and its dead letter is requeued. -/
def requeuedOnce : System :=
  driveDown 3 7 (startAt 3 (.requeue (demoRequest "r1"))
    (driveDown 2 10 (startAt 2 (.deliver demoJob.proofId) readOnce)))

/-- Then the first delivery fails too: the row is open and names a rerun. -/
theorem reopened_with_rerun : ∃ (T : Trace (SystemStep demoWorker demoSha fun _ _ _ => True) System.init) (n : ℕ),
    ∃ row ∈ (T.run n).world.deadLetterJobs, row.status = .opened ∧ row.rerunProofId = some "r1" := by
  have hdrive : ∀ i n s, ReflTransGen (SystemStep demoWorker demoSha fun _ _ _ => True) s (driveDown i n s) := by
    intro i n s
    refine Pool.driveAt_run (fun _ => True) (fun _ => trivial) ?_ n trivial
    intro s c k _ hk
    exact ⟨_, .call hk (demoAnswer_sem _ _ _ c s.world), trivial⟩
  have hstart : ∀ i task (s : System), s.procs i = none →
      SystemStep demoWorker demoSha (fun _ _ _ => True) s (startAt i task s) := fun i task s hi =>
    ⟨_, .start hi ⟨task, rfl⟩, trivial⟩
  have hread : ReflTransGen (SystemStep demoWorker demoSha fun _ _ _ => True) .init readOnce :=
    ((ReflTransGen.single (hstart 0 demoSubmit _ rfl)).trans (hdrive 0 3 _)).tail (hstart 1 _ _ rfl) |>.trans
      (hdrive 1 3 _)
  have hrequeued : ReflTransGen (SystemStep demoWorker demoSha fun _ _ _ => True) readOnce requeuedOnce :=
    ((ReflTransGen.single (hstart 2 _ _ rfl)).trans (hdrive 2 10 _)).tail (hstart 3 _ _ rfl) |>.trans (hdrive 3 7 _)
  obtain ⟨T, -, n, -, -, hT⟩ := Trace.exists_through (hread.trans hrequeued) (hdrive 1 7 _)
  have hrows : (driveDown 1 7 requeuedOnce).world.deadLetterJobs.map (fun row => (row.status, row.rerunProofId)) =
      [(.opened, some "r1")] := rfl
  have hmem : (DeadLetterStatus.opened, some "r1") ∈
      (driveDown 1 7 requeuedOnce).world.deadLetterJobs.map fun row => (row.status, row.rerunProofId) := by
    rw [hrows]
    exact List.mem_singleton_self _
  obtain ⟨row, hrow, heq⟩ := List.mem_map.1 hmem
  refine ⟨T, n, row, ?_, congrArg Prod.fst heq, congrArg Prod.snd heq⟩
  rw [hT]
  exact hrow

end Vellum
