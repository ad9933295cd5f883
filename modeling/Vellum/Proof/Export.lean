import Vellum.Proof.Tracks
import Vellum.Spec.Verifier

/-!
# The export of an attestation is stable, but for its version

A worker writes the proof, the public signals and the metadata of a job at once, with its
completion, and its completed audit event carries the same proof and signals. So all exports
of a run agree on decision and hashes, from the job or from the event, as long as no second
delivery writes the job behind its completion. The version is read from the live registry
first, and so follows its reloads.

* `step_agreed`: one completion, and rows and events agree with it from then on.
* `export_stable_iff`: exports agree with the recorded version exactly when the registry does.
* `export_unstable`: a reload between two exports.
-/

namespace Vellum

open Prog Relation

variable {S : WorkerSettings} {sha256 : String → String} {id : String} {w w' : World}

/-! ## The database -/

/-- What the completion of a job has written. -/
structure Completion where
  metadata : Dict Json
  proof : Json
  signals : List Json

/-- The row behind a completion: a handler may have overwritten the status, and the proof may
be pruned. -/
def Completion.Row (c : Completion) (job : ProofJob) : Prop :=
  job.status = .failed ∨ job.status = .completed ∧ job.metadata = c.metadata ∧
    ((job.proof = some c.proof ∧ job.publicSignals = some (.arr c.signals)) ∨
      (job.proof = some .null ∧ job.publicSignals = some .null))

theorem Completion.Row.terminal {c : Completion} {job : ProofJob} (h : c.Row job) : job.status.terminal = true := by
  rcases h with hst | ⟨hst, -⟩
  · rw [hst]
    rfl
  · rw [hst]
    rfl

/-- **Row and events agree** with the completion of the job, once there is one. -/
structure Agreed (id : String) (done : Option Completion) (w : World) : Prop where
  opened : done = none → ∀ job, w.proofJobs id = some job → job.status ≠ .completed
  row : ∀ c, done = some c → ∃ job, w.proofJobs id = some job ∧ c.Row job
  events : ∀ e ∈ w.auditEvents, e.proofId = some id → e.status = "completed" →
    ∃ c, done = some c ∧ e.proofPayload = some c.proof ∧ e.publicSignals = c.signals

/-- The track of a program agrees too. -/
structure Track.Fits (id : String) (done : Option Completion) (w : World) (t : Track) : Prop where
  seen : ∀ policy, t.seen = some policy → ∃ job, w.proofJobs id = some job ∧ policyIdOf job = policy
  wrote : ∀ result, t.wrote = some result → ∃ c, done = some c ∧ result = (c.proof, c.signals)

/-- The call writes the job again that is finished: only `failed` may be written over a
terminal status. -/
def Call.overwrites (id : String) (w : World) : Call → Prop
  | .updateProofJob proofId u => proofId = id ∧ u.status ≠ .failed ∧ terminalNow id w = true
  | _ => False

theorem terminalNow_of_row {job : ProofJob} (hjob : w.proofJobs id = some job) (h : job.status.terminal = true) :
    terminalNow id w = true := by
  unfold terminalNow statusOf
  rw [hjob]
  exact h

theorem policyIdOf_congr {job job' : ProofJob} (h : job'.metadata.get? "policy_id" = job.metadata.get? "policy_id") :
    policyIdOf job' = policyIdOf job := by
  unfold policyIdOf
  rw [h]

variable {c : Call} {a : Except PyExn c.Resp} {t : Track} {done : Option Completion}

/-- No call changes the policy of a job, or removes it. -/
theorem sem_policy (h : c.Sem w a w') (hok : TrackOk id c t) {job : ProofJob} (hjob : w.proofJobs id = some job) :
    ∃ job', w'.proofJobs id = some job' ∧ policyIdOf job' = policyIdOf job := by
  rcases row_cases h id with hrow | ⟨u, old, now, rfl, hold, hrow⟩ | ⟨new, now, -, -, hnone, -⟩ |
    ⟨site, old, now, -, hold, hrow⟩ | ⟨olderThan, old, now, -, hold, hrow⟩
  · exact ⟨job, hrow.trans hjob, rfl⟩
  · obtain rfl := Option.some.inj (hold.symm.trans hjob)
    obtain ⟨policy, -, hu⟩ := hok rfl
    exact ⟨_, hrow, policyIdOf_congr (Dict.get?_update_of_notMem hu.key _)⟩
  · rw [hnone] at hjob
    cases hjob
  · obtain rfl := Option.some.inj (hold.symm.trans hjob)
    exact ⟨_, hrow, rfl⟩
  · obtain rfl := Option.some.inj (hold.symm.trans hjob)
    refine ⟨_, hrow, policyIdOf_congr ?_⟩
    unfold ProofJob.prune
    split_ifs <;> rfl

theorem Track.Fits.step (ht : t.Fits id done w) (h : c.Sem w a w') {t₀ : Track} (hok : TrackOk id c t₀)
    {done' : Option Completion} (hdone : ∀ c, done = some c → done' = some c) : t.Fits id done' w' where
  seen := by
    intro policy hp
    obtain ⟨job, hjob, hpolicy⟩ := ht.seen policy hp
    obtain ⟨job', hjob', hsame⟩ := sem_policy h hok hjob
    exact ⟨job', hjob', hsame.trans hpolicy⟩
  wrote := by
    intro result hr
    obtain ⟨c, hc, heq⟩ := ht.wrote result hr
    exact ⟨c, hdone c hc, heq⟩

/-- The track after the call. -/
theorem sem_track (ht : t.Fits id done w) (h : c.Sem w a w') (hok : TrackOk id c t) {done' : Option Completion}
    (hdone : ∀ c, done = some c → done' = some c)
    (hwrite : ∀ u proof signals, c = .updateProofJob id u → a.isOk = true → u.status = .completed →
      u.proof = some proof → u.publicSignals = some signals → ∃ c, done' = some c ∧ (proof, signals) =
        (c.proof, c.signals)) :
    ∃ t', TrackSem id c t a t' ∧ t'.Fits id done' w' := by
  have hstay := ht.step h hok hdone
  cases c with
  | getProofJob proofId =>
    cases a with
    | error e => exact ⟨t, rfl, hstay⟩
    | ok row =>
      cases row with
      | none => exact ⟨t, rfl, hstay⟩
      | some job =>
        refine ⟨_, rfl, ?_⟩
        split_ifs with hid
        · subst hid
          obtain ⟨now, rfl, hreply⟩ := h
          refine ⟨fun policy hp => ⟨job, hreply.symm, Option.some.inj hp⟩, hstay.wrote⟩
        · exact hstay
  | updateProofJob proofId u =>
    cases a with
    | error e => exact ⟨t, rfl, hstay⟩
    | ok row =>
      by_cases hid : proofId = id
      · subst hid
        -- a program writes only after it has read the row
        obtain ⟨policy, hseen, hu⟩ := hok rfl
        obtain ⟨job, hjob, hpolicy⟩ := hstay.seen policy hseen
        obtain ⟨now, -, hreply⟩ := h
        have hsem : TrackSem proofId (.updateProofJob proofId u) t (.ok row) (t.write u) := by
          show if proofId = proofId then _ else _
          rw [if_pos rfl]
          exact ⟨rfl, job, hreply.trans hjob, by rw [hseen, hpolicy]⟩
        refine ⟨t.write u, hsem, ?_, ?_⟩
        · intro policy' hp
          have hknows : (t.write u).Knows policy := Track.Knows.write hseen u
          obtain rfl := Option.some.inj (hknows.symm.trans hp)
          exact ⟨job, hjob, hpolicy⟩
        · intro result hr
          unfold Track.write at hr
          split at hr
          · next proof signals hst hproof hsignals =>
            obtain rfl := Option.some.inj hr
            exact hwrite u proof signals rfl rfl hst hproof hsignals
          · exact hstay.wrote result hr
      · have hsem : TrackSem id (.updateProofJob proofId u) t (.ok row) t := by
          show if proofId = id then _ else _
          rw [if_neg hid]
        exact ⟨t, hsem, hstay⟩
  | _ => exact ⟨t, by cases a <;> rfl, hstay⟩

/-- What the step that completes a job writes, and of which policy. -/
structure Completes (id : String) (c : Call) (done : Completion) : Prop where
  write : ∃ u, c = .updateProofJob id u ∧ u.status = .completed ∧
    (∃ metadata : Dict Json, done.metadata = metadata.update (u.metadataPatch.getD [])) ∧
    ∀ job : ProofJob, job.metadata = done.metadata → CompletionPatch (policyIdOf job) u.metadataPatch

/-- **The completion of the job.** -/
theorem sem_completes {u : JobUpdate} (h : ∃ r, (Call.updateProofJob id u).Done w r w')
    (hu : u.status = .completed) (hok : TrackOk id (.updateProofJob id u) t) (ht : t.Fits id done w)
    (hcond : ¬ (Call.updateProofJob id u).overwrites id w) (hw : Agreed id done w) :
    ∃ new, done = none ∧ Agreed id (some new) w' ∧ Completes id (.updateProofJob id u) new ∧
      u.proof = some new.proof ∧ u.publicSignals = some new.signals := by
  obtain ⟨policy, hseen, hwrites⟩ := hok rfl
  obtain ⟨job, hjob, hpolicy⟩ := ht.seen policy hseen
  have hnone : done = none := by
    by_contra hne
    obtain ⟨c, hc⟩ := Option.ne_none_iff_exists'.1 hne
    obtain ⟨job', hjob', hrow⟩ := hw.row c hc
    exact hcond ⟨rfl, by rw [hu]; exact nofun, terminalNow_of_row hjob' hrow.terminal⟩
  obtain ⟨proof, signals, hproof, hsignals⟩ := hwrites.result hu
  obtain ⟨r, now, rfl, -⟩ := h
  have hnew := proofJobs_updateProofJob hjob u now
  refine ⟨⟨job.metadata.update (u.metadataPatch.getD []), proof, signals⟩, hnone, ⟨nofun, ?_, ?_⟩, ?_, hproof, hsignals⟩
  · intro c hc
    obtain rfl := Option.some.inj hc
    refine ⟨_, hnew, .inr ⟨hu, rfl, .inl ⟨?_, ?_⟩⟩⟩
    · show u.proof.or job.proof = _
      rw [hproof]
      rfl
    · show (u.publicSignals.map Json.arr).or job.publicSignals = _
      rw [hsignals]
      rfl
  · -- before it there is no completed event
    intro e he hid hst
    have hsame : ((Call.updateProofJob id u).effect now w).auditEvents = w.auditEvents := by
      simp only [Call.effect, World.updateProofJob, hjob]
      rfl
    rw [hsame] at he
    obtain ⟨c, hc, -⟩ := hw.events e he hid hst
    rw [hnone] at hc
    cases hc
  · refine ⟨u, rfl, hu, ⟨job.metadata, rfl⟩, fun job' hjob' => ?_⟩
    have hsame : policyIdOf job' = policy := by
      rw [← hpolicy]
      apply policyIdOf_congr
      rw [hjob']
      exact Dict.get?_update_of_notMem hwrites.key _
    rw [hsame]
    exact hwrites.patch hu

/-- **Any other call.** -/
theorem sem_agreed (h : c.Sem w a w') (hok : TrackOk id c t) (ht : t.Fits id done w) (hcond : ¬ c.overwrites id w)
    (hw : Agreed id done w) (hother : ∀ u, c = .updateProofJob id u → u.status ≠ .completed) : Agreed id done w' where
  opened := by
    intro hnone job' hjob'
    rcases row_cases h id with hrow | ⟨u, old, now, rfl, -, hrow⟩ | ⟨new, now, rfl, -, -, hrow⟩ |
      ⟨site, old, now, -, hold, hrow⟩ | ⟨olderThan, old, now, -, hold, hrow⟩
    · exact hw.opened hnone job' (hrow ▸ hjob')
    · obtain rfl := Option.some.inj (hrow.symm.trans hjob')
      exact hother u rfl
    · obtain rfl := Option.some.inj (hrow.symm.trans hjob')
      have hq : new.status = .queued := hok
      show new.status ≠ .completed
      rw [hq]
      exact nofun
    · obtain rfl := Option.some.inj (hrow.symm.trans hjob')
      exact hw.opened hnone old hold
    · obtain rfl := Option.some.inj (hrow.symm.trans hjob')
      rw [ProofJob.prune_status]
      exact hw.opened hnone old hold
  row := by
    intro new hnew
    obtain ⟨job, hjob, hr⟩ := hw.row new hnew
    rcases row_cases h id with hrow | ⟨u, old, now, rfl, hold, hrow⟩ | ⟨new', now, -, -, hnone, -⟩ |
      ⟨site, old, now, -, hold, hrow⟩ | ⟨olderThan, old, now, -, hold, hrow⟩
    · exact ⟨job, hrow.trans hjob, hr⟩
    · -- only a handler writes a finished job
      refine ⟨_, hrow, .inl ?_⟩
      by_contra hne
      exact hcond ⟨rfl, hne, terminalNow_of_row hjob hr.terminal⟩
    · rw [hnone] at hjob
      cases hjob
    · obtain rfl := Option.some.inj (hold.symm.trans hjob)
      exact ⟨_, hrow, hr⟩
    · obtain rfl := Option.some.inj (hold.symm.trans hjob)
      refine ⟨_, hrow, ?_⟩
      unfold ProofJob.prune
      split_ifs
      · rcases hr with hst | ⟨hst, hmeta, hresult⟩
        · exact .inl hst
        · refine .inr ⟨hst, hmeta, .inr ?_⟩
          rcases hresult with ⟨hproof, hsignals⟩ | ⟨hproof, hsignals⟩ <;>
            simp only [hproof, hsignals, Option.map_some, and_self]
      · exact hr
  events := by
    intro e he hid hst
    rcases events_cases h with heq | ⟨args, rfl, heq⟩
    · exact hw.events e (heq ▸ he) hid hst
    · rw [heq] at he
      rcases List.mem_append.1 he with hold | hnew
      · exact hw.events e hold hid hst
      · obtain rfl := List.mem_singleton.1 hnew
        obtain ⟨proof, hproof, hwrote⟩ := hok hid hst
        obtain ⟨c, hc, heq⟩ := ht.wrote _ hwrote
        obtain ⟨h1, h2⟩ := Prod.mk.inj heq
        exact ⟨c, hc, by rw [hproof, h1], h2⟩

/-! ## Runs -/

/-- What a run keeps: row, events and programs agree with the completion of the job. -/
structure Kept (id : String) (done : Option Completion) (s : System) : Prop where
  world : Agreed id done s.world
  procs : ∀ i p, s.procs i = some p → ∃ t, Tracked id (fun _ => True) p t ∧ t.Fits id done s.world

/-- **The condition on a step**: no delivery writes the finished job again. A write that would raises,
and has not been made. -/
def notOverwriting (id : String) (s : Platform) (act : PlatformAct) (s' : Platform) : Prop :=
  match act with
  | .service (.call _ c a) => c.overwrites id s.system.world → a.isOk = false ∧ s'.system.world = s.system.world
  | _ => True

/-- A call of program `i`, given what it makes of the completion. -/
theorem kept_call {s : System} {i : ℕ} {k : Except PyExn c.Resp → Service Unit} {done' : Option Completion}
    (hinv : Kept id done s) (htrack : Tracked id (fun _ => True) (.await c k) t) (ht : t.Fits id done s.world)
    (h : c.Sem s.world a w') (hw : Agreed id done' w') (hdone : ∀ c, done = some c → done' = some c)
    (hwrite : ∀ u proof signals, c = .updateProofJob id u → a.isOk = true → u.status = .completed →
      u.proof = some proof → u.publicSignals = some signals → ∃ c, done' = some c ∧ (proof, signals) =
        (c.proof, c.signals)) :
    Kept id done' (s.put i w' (some (k a))) where
  world := hw
  procs := by
    intro j p hp
    rcases Pool.procs_put hp with ⟨-, hp⟩ | ⟨-, hp⟩
    · obtain rfl := Option.some.inj hp
      obtain ⟨t', hsem, hfits⟩ := sem_track ht h htrack.1 hdone hwrite
      exact ⟨t', htrack.2 a t' hsem, hfits⟩
    · obtain ⟨t', htrack', hfits⟩ := hinv.procs j p hp
      exact ⟨t', htrack', hfits.step h htrack.1 hdone⟩

variable {settings : Set WorkerSettings} {repr : Json → String}

/-- **One step** keeps the agreement, or is the completion of the job. -/
theorem step_agreed {s s' : Platform} {act : PlatformAct} (hinv : Kept id done s.system)
    (hstep : Platform.Step settings sha256 s act s') (hcond : notOverwriting id s act s') :
    Kept id done s'.system ∨ (done = none ∧ ∃ i c a new, act = .service (.call i c a) ∧
      (∃ r, c.Done s.system.world r s'.system.world) ∧ Completes id c new ∧ Kept id (some new) s'.system) := by
  cases hstep with
  | reload registry => exact .inl hinv
  | service hs =>
    cases hs with
    | @start i p hi hp =>
      obtain ⟨S, -, task, rfl⟩ := hp
      refine .inl ⟨hinv.world, fun j q hq => ?_⟩
      rcases Pool.procs_put hq with ⟨-, hq⟩ | ⟨-, hq⟩
      · obtain rfl := Option.some.inj hq
        exact ⟨.blind, task_tracked task, nofun, nofun⟩
      · exact hinv.procs j q hq
    | @crash i p hi =>
      refine .inl ⟨hinv.world, fun j q hq => ?_⟩
      rcases Pool.procs_put hq with ⟨-, hq⟩ | ⟨-, hq⟩
      · cases hq
      · exact hinv.procs j q hq
    | @call i c k a w' hi hs =>
      obtain ⟨t, htrack, ht⟩ := hinv.procs i _ hi
      -- a write that raises without an effect changes nothing
      have hraised : a.isOk = false → w' = s.system.world → Kept id done (s.system.put i w' (some (k a))) := by
        intro ha hw
        refine kept_call hinv htrack ht hs (hw ▸ hinv.world) (fun _ hc => hc) fun u _ _ _ haok => ?_
        rw [ha] at haok
        cases haok
      by_cases hover : c.overwrites id s.system.world
      · exact .inl (hraised (hcond hover).1 (hcond hover).2)
      by_cases hcompletes : ∃ u, c = .updateProofJob id u ∧ u.status = .completed
      · obtain ⟨u, rfl, hu⟩ := hcompletes
        by_cases hdone : ∃ r, (Call.updateProofJob id u).Done s.system.world r w'
        swap
        · cases a with
          | error e => exact .inl (hraised rfl (Or.resolve_right hs hdone))
          | ok r => exact absurd ⟨r, hs⟩ hdone
        obtain ⟨new, hnone, hw, hnew, hproof, hsignals⟩ := sem_completes hdone hu htrack.1 ht hover hinv.world
        refine .inr ⟨hnone, i, _, a, new, rfl, hdone, hnew, kept_call hinv htrack ht hs hw ?_ ?_⟩
        · intro c hc
          rw [hnone] at hc
          cases hc
        · intro u' proof signals heq _ _ hproof' hsignals'
          injection heq with _ heq
          subst heq
          refine ⟨new, rfl, ?_⟩
          rw [Option.some.inj (hproof'.symm.trans hproof), Option.some.inj (hsignals'.symm.trans hsignals)]
      · have hother : ∀ u, c = .updateProofJob id u → u.status ≠ .completed := fun u hc hu => hcompletes ⟨u, hc, hu⟩
        have hw := sem_agreed hs htrack.1 ht hover hinv.world hother
        exact .inl (kept_call hinv htrack ht hs hw (fun _ hc => hc) fun u _ _ hc _ hu => absurd hu (hother u hc))

/-- The job is completed at time `m`. -/
def CompletedAt {step : Platform → Platform → Prop} {s₀ : Platform} (settings : Set WorkerSettings)
    (sha256 : String → String) (T : Trace step s₀) (id : String) (m : ℕ) (new : Completion) : Prop :=
  ∃ i c a, Platform.Step settings sha256 (T.run m) (.service (.call i c a)) (T.run (m + 1)) ∧
    (∃ r, c.Done (T.run m).system.world r (T.run (m + 1)).system.world) ∧ Completes id c new

variable {registry : String → Option PolicyPackManifest}
  {T : Trace (Platform.StepWhen settings sha256 (notOverwriting id)) (Platform.init registry)}

theorem kept_init : Kept id none (Platform.init registry).system where
  world := by
    refine ⟨fun _ job hjob => ?_, nofun, fun e he => ?_⟩
    · cases hjob
    · cases he
  procs := by
    intro i p hp
    cases hp

/-- At any time the job is not completed yet, or has been once. -/
theorem trace_kept (n : ℕ) : Kept id none (T.run n).system ∨
    ∃ m new, m < n ∧ CompletedAt settings sha256 T id m new ∧ Kept id (some new) (T.run n).system := by
  induction n with
  | zero =>
    left
    rw [T.start]
    exact kept_init
  | succ n ih =>
    rcases T.next n with heq | ⟨act, hstep, hcond⟩
    · rw [heq]
      rcases ih with h | ⟨m, new, hm, hat, h⟩
      · exact .inl h
      · exact .inr ⟨m, new, by omega, hat, h⟩
    · rcases ih with h | ⟨m, new, hm, hat, h⟩
      · rcases step_agreed h hstep hcond with h' | ⟨-, i, c, a, new, rfl, hdone, hnew, h'⟩
        · exact .inl h'
        · exact .inr ⟨n, new, by omega, ⟨i, c, a, hstep, hdone, hnew⟩, h'⟩
      · rcases step_agreed h hstep hcond with h' | ⟨hnone, -⟩
        · exact .inr ⟨m, new, by omega, hat, h'⟩
        · cases hnone

/-- From its completion on, row and events agree with it. -/
theorem kept_from {new : Completion} {n m : ℕ} (hnm : n ≤ m) (h : Kept id (some new) (T.run n).system) :
    Kept id (some new) (T.run m).system := by
  refine T.invariant_from (I := fun s => Kept id (some new) s.system) ?_ hnm h
  rintro s s' hs ⟨act, hstep, hcond⟩
  rcases step_agreed hs hstep hcond with h' | ⟨hnone, -⟩
  · exact h'
  · cases hnone

/-! ## Exports -/

/-- What a successful export has read. -/
theorem export_ok {row : Option ProofJob} {events : List EventArgs} {e : AttestationExport}
    (h : exportAttestation sha256 repr registry id row events = .ok e) :
    ∃ job, row = some job ∧ policyIdOf job = some e.policyId ∧ job.status = .completed ∧
      e.policyVersion = exportedVersion repr registry e.policyId job.metadata ∧
      e.decision = exportedDecision job.metadata ∧
      exportedHashes sha256 id job events = .ok (e.proofHash, e.publicSignalsHash) := by
  unfold exportAttestation at h
  cases row with
  | none => cases h
  | some job =>
    cases hpolicy : policyIdOf job with
    | none =>
      simp only [hpolicy] at h
      cases h
    | some policyId =>
      by_cases hst : job.status ≠ .completed
      · simp only [hpolicy, if_pos hst] at h
        cases h
      · simp only [hpolicy, if_neg hst] at h
        obtain ⟨⟨proofHash, signalsHash⟩, hhashes, rfl⟩ := map_ok.1 h
        exact ⟨_, rfl, hpolicy, not_not.1 hst, rfl, rfl, hhashes⟩

theorem orEmptyList_arr (signals : List Json) : orEmptyList (readColumn (some (.arr signals))) = .arr signals := by
  cases signals <;> rfl

/-- The last completed event carries the proof and the signals of the completion. -/
theorem exportedFallback_agreed {new : Completion} {proofHash signalsHash : String} (hw : Agreed id (some new) w)
    (h : (match (completedEvents id w.auditEvents).getLast? with
      | some row => .ok (computeProofHash sha256 row.proofPayload, sha256Json sha256 (.arr row.publicSignals))
      | none => .error (attestationNotReady
          "Attestation not available: proof payload was pruned and no audit fallback exists" [("run_id", .str id)])) =
      (.ok (proofHash, signalsHash) : Except PyExn (String × String))) :
    proofHash = sha256Json sha256 new.proof ∧ signalsHash = sha256Json sha256 (.arr new.signals) := by
  cases hlast : (completedEvents id w.auditEvents).getLast? with
  | none =>
    rw [hlast] at h
    cases h
  | some e =>
    rw [hlast] at h
    have hmem := List.mem_of_getLast? hlast
    unfold completedEvents at hmem
    simp only [List.mem_filter, decide_eq_true_eq] at hmem
    obtain ⟨c, hc, hproof, hsignals⟩ := hw.events e hmem.1.1 hmem.1.2 hmem.2
    obtain rfl := Option.some.inj hc
    obtain ⟨rfl, rfl⟩ := Prod.mk.inj (Except.ok.inj h)
    rw [hproof, hsignals]
    exact ⟨rfl, rfl⟩

/-- **The two sources of the hashes agree.** -/
theorem exportedHashes_agreed {new : Completion} {job : ProofJob} {proofHash signalsHash : String} (hrow : new.Row job)
    (hst : job.status = .completed) (hw : Agreed id (some new) w)
    (h : exportedHashes sha256 id job w.auditEvents = .ok (proofHash, signalsHash)) :
    proofHash = sha256Json sha256 new.proof ∧ signalsHash = sha256Json sha256 (.arr new.signals) := by
  unfold exportedHashes at h
  rcases hrow with hfailed | ⟨-, -, ⟨hproof, hsignals⟩ | ⟨hproof, -⟩⟩
  · rw [hst] at hfailed
    cases hfailed
  · rw [hproof, hsignals] at h
    cases hnull : readColumn (some new.proof) with
    | none =>
      rw [hnull] at h
      exact exportedFallback_agreed hw h
    | some proof =>
      rw [hnull, orEmptyList_arr] at h
      have hsame : proof = new.proof := by
        unfold readColumn at hnull
        split at hnull
        · cases hnull
        · exact (Option.some.inj hnull).symm
      obtain ⟨rfl, rfl⟩ := Prod.mk.inj (Except.ok.inj h)
      rw [hsame]
      exact ⟨rfl, rfl⟩
  · rw [hproof] at h
    exact exportedFallback_agreed hw h

/-- Before time `n` a worker has completed the job, with this version and decision: its write was made,
whether it raised afterwards or not. -/
def RecordedBefore {step : Platform → Platform → Prop} {s₀ : Platform} (settings : Set WorkerSettings)
    (sha256 : String → String) (T : Trace step s₀) (id : String) (n : ℕ) (version : String)
      (decision : PolicyDecision) :
    Prop :=
  ∃ m i u a, m < n ∧ Platform.Step settings sha256 (T.run m) (.service (.call i (.updateProofJob id u) a))
      (T.run (m + 1)) ∧
    (∃ r, (Call.updateProofJob id u).Done (T.run m).system.world r (T.run (m + 1)).system.world) ∧
    u.status = .completed ∧
    u.metadataPatch = some [("policy_version", .str version), ("decision", .str decision.text)]

/-- The manifest of the policy, if there is one, is of this version. -/
def Current (registry : String → Option PolicyPackManifest) (policyId version : String) : Prop :=
  ∀ manifest, registry policyId = some manifest → manifest.policyVersion = version

/-- **Two exports agree**, and show the version that was recorded. -/
structure StableExports (version : String) (e e' : AttestationExport) : Prop where
  decision : e.decision = e'.decision
  policyVersion : e.policyVersion = e'.policyVersion
  proofHash : e.proofHash = e'.proofHash
  publicSignalsHash : e.publicSignalsHash = e'.publicSignalsHash
  recorded : e.policyVersion = version

theorem exportedVersion_iff {version : String} {metadata : Dict Json}
    (h : metadata.get? "policy_version" = some (.str version)) (repr : Json → String)
    (registry : String → Option PolicyPackManifest) (policyId : String) :
    exportedVersion repr registry policyId metadata = version ↔ Current registry policyId version := by
  unfold exportedVersion Current
  cases registry policyId with
  | none =>
    have hrecorded : (if (Json.str version).truthy then (Json.str version).pyStr repr else "") = version := by
      unfold Json.truthy Json.pyStr
      by_cases hv : version = "" <;> simp [hv]
    simp only [h, Option.getD_some, hrecorded, reduceCtorEq, false_implies, implies_true]
  | some manifest => simp

/-- What an export shows of the completion of its run. -/
theorem export_shows {new : Completion} {i₁ i₂ i₃ n : ℕ} {e : AttestationExport}
    (he : Exports sha256 repr T id i₁ i₂ i₃ e)
    (hn : n ≤ i₁) (hkept : Kept id (some new) (T.run n).system) :
    (∃ job : ProofJob, job.metadata = new.metadata ∧ policyIdOf job = some e.policyId) ∧
      e.policyVersion = exportedVersion repr (T.run i₂).registry e.policyId new.metadata ∧
      e.decision = exportedDecision new.metadata ∧ e.proofHash = sha256Json sha256 new.proof ∧
      e.publicSignalsHash = sha256Json sha256 (.arr new.signals) := by
  obtain ⟨h12, h23, hok⟩ := he
  obtain ⟨job, hjob, hpolicy, hst, hversion, hdecision, hhashes⟩ := export_ok hok
  obtain ⟨job', hjob', hrow⟩ := (kept_from hn hkept).world.row new rfl
  obtain rfl := Option.some.inj (hjob'.symm.trans hjob)
  have hmetadata : job'.metadata = new.metadata := by
    rcases hrow with hfailed | ⟨-, hm, -⟩
    · rw [hst] at hfailed
      cases hfailed
    · exact hm
  obtain ⟨hproof, hsignals⟩ := exportedHashes_agreed hrow hst (kept_from (by omega) hkept).world hhashes
  rw [hmetadata] at hversion hdecision
  exact ⟨⟨job', hmetadata, hpolicy⟩, hversion, hdecision, hproof, hsignals⟩

/-- A successful export is of a completed run. -/
theorem kept_of_export {i₁ i₂ i₃ : ℕ} {e : AttestationExport} (he : Exports sha256 repr T id i₁ i₂ i₃ e) :
    ∃ m new, m < i₁ ∧ CompletedAt settings sha256 T id m new ∧ Kept id (some new) (T.run i₁).system := by
  rcases trace_kept (T := T) i₁ with hopen | hdone
  · obtain ⟨job, hjob, -, hst, -⟩ := export_ok he.2.2
    exact absurd hst (hopen.world.opened rfl job hjob)
  · exact hdone

/-- What the completion of a policy run has recorded. -/
theorem recorded_of_completed {m n : ℕ} {new : Completion} (hm : m < n) (h : CompletedAt settings sha256 T id m new)
    {job : ProofJob} (hjob : job.metadata = new.metadata) (hpolicy : (policyIdOf job).isSome = true) :
    ∃ version decision, RecordedBefore settings sha256 T id n version decision ∧
      new.metadata.get? "policy_version" = some (.str version) ∧ exportedDecision new.metadata = decision := by
  obtain ⟨i, c, a, hstep, hdone, ⟨u, rfl, hu, ⟨metadata, hmetadata⟩, hpatch⟩⟩ := h
  obtain ⟨version, decision, hp⟩ := hpatch job hjob hpolicy
  have hset : new.metadata = (metadata.set "policy_version" (.str version)).set "decision" (.str decision.text) := by
    rw [hmetadata, hp]
    rfl
  refine ⟨version, decision, ⟨m, i, u, a, hm, hstep, hdone, hu, hp⟩, ?_, ?_⟩
  · rw [hset, Dict.get?_set, if_neg (by decide), Dict.get?_set, if_pos rfl]
  · unfold exportedDecision
    rw [hset, Dict.get?_set, if_pos rfl]
    cases decision <;> rfl

/-- **When exports are stable.** In every run of the services, with any number of overlapping
requests and deliveries, prunes, exceptions, crashes and reloads, in which no delivery writes
the finished job again: two exports of a run, at any times, agree and show the version that
the worker recorded exactly when the registry they read has no other version of the policy. -/
theorem export_stable_iff {i₁ i₂ i₃ j₁ j₂ j₃ : ℕ} {e e' : AttestationExport} (he : Exports sha256 repr T id i₁ i₂ i₃ e)
    (he' : Exports sha256 repr T id j₁ j₂ j₃ e') :
    ∃ version decision, RecordedBefore settings sha256 T id (min i₁ j₁) version decision ∧ e.decision = decision ∧
      (StableExports version e e' ↔
        Current (T.run i₂).registry e.policyId version ∧ Current (T.run j₂).registry e'.policyId version) := by
  -- the completion the earlier of the two has seen
  obtain ⟨m, new, hm, hat, hkept⟩ : ∃ m new, m < min i₁ j₁ ∧ CompletedAt settings sha256 T id m new ∧
      Kept id (some new) (T.run (min i₁ j₁)).system := by
    rcases le_total i₁ j₁ with hle | hle
    · rw [min_eq_left hle]
      exact kept_of_export he
    · rw [min_eq_right hle]
      exact kept_of_export he'
  obtain ⟨⟨job, hjob, hpolicy⟩, hversion, hdecision, hproof, hsignals⟩ := export_shows he (min_le_left ..) hkept
  obtain ⟨-, hversion', hdecision', hproof', hsignals'⟩ := export_shows he' (min_le_right ..) hkept
  obtain ⟨version, decision, hrecorded, hget, hshown⟩ :=
    recorded_of_completed hm hat hjob (by rw [hpolicy]; rfl)
  refine ⟨version, decision, hrecorded, hdecision.trans hshown, ?_⟩
  have hiff := exportedVersion_iff hget repr (T.run i₂).registry e.policyId
  have hiff' := exportedVersion_iff hget repr (T.run j₂).registry e'.policyId
  rw [← hversion] at hiff
  rw [← hversion'] at hiff'
  constructor
  · intro h
    exact ⟨hiff.1 h.recorded, hiff'.1 (h.policyVersion.symm.trans h.recorded)⟩
  · rintro ⟨h, h'⟩
    exact ⟨hdecision.trans hdecision'.symm, (hiff.2 h).trans (hiff'.2 h').symm, hproof.trans hproof'.symm,
      hsignals.trans hsignals'.symm, hiff.2 h⟩

/-! ## Two exports of one run -/

/-- A version of the policy. -/
def lendingManifest (version : String) : PolicyPackManifest where
  policyId := "lending_risk_v1"
  policyVersion := version
  circuitId := "credit_check"
  referencePolicy := "lending_risk_reference_v1"
  differentialOutputs := .empty
  expectedAttestation := .empty

/-- A run of the policy, that passes. -/
def lendingRun : DemoSetup where
  worker := { demoWorker with policies := fun _ => some (lendingManifest "1.0.0") }
  metadata := Dict.empty.set "policy_id" (.str "lending_risk_v1")
  payload := .obj [("private_input", .obj [("credit_score", .int 700)]),
    ("dual_track_reference", .obj [("decision", .str "pass"), ("outputs", .obj [])])]

/-- All goes well, but a finished job is not written again. -/
def lendingAnswer (c : Call) (w : World) : Except PyExn c.Resp × World :=
  let finished := match c with
    | .updateProofJob .. => terminalNow demoJob.proofId w
    | _ => false
  if finished then (.error (.other "job is finished"), w) else lendingRun.oracle (fun _ => false) c w

/-- A task is started and runs for `n` calls. -/
def lendingTask (i n : ℕ) (task : Task) (s : System) : System :=
  Pool.driveAt lendingAnswer i n (s.put i s.world (some (task.prog lendingRun.worker demoSha)))

/-- The run is submitted and delivered. -/
def lendingCompleted : System :=
  lendingTask 1 11 (.deliver demoJob.proofId) (lendingTask 0 3 lendingRun.submit System.init)

/-- Then it is pruned. -/
def lendingPruned : System := lendingTask 2 2 (.maintain 1) lendingCompleted

theorem lendingTask_run {i n : ℕ} {task : Task} {s : System} (hfree : s.procs i = none)
    (registry : String → Option PolicyPackManifest) :
    ReflTransGen (Platform.StepWhen Set.univ demoSha (notOverwriting demoJob.proofId)) ⟨s, registry⟩
      ⟨lendingTask i n task s, registry⟩ := by
  have hstart : Platform.StepWhen Set.univ demoSha (notOverwriting demoJob.proofId) ⟨s, registry⟩
      ⟨s.put i s.world (some (task.prog lendingRun.worker demoSha)), registry⟩ :=
    ⟨_, .service (.start hfree ⟨lendingRun.worker, trivial, task, rfl⟩), trivial⟩
  refine .head hstart ?_
  refine ReflTransGen.lift (fun p : System => (⟨p, registry⟩ : Platform)) (fun _ _ h => h) _ _
    (Pool.driveAt_run (fun _ => True) (fun _ => trivial) ?_ n trivial)
  intro p c k _ hk
  refine ⟨.service (.call i c (lendingAnswer c p.world).1), .service (.call hk ?_), ?_⟩
  · unfold lendingAnswer
    dsimp only
    split_ifs
    · exact .inl rfl
    · exact demoAnswer_sem ..
  · -- what is answered does not write a finished job
    intro hover
    show (lendingAnswer c p.world).1.isOk = false ∧ (lendingAnswer c p.world).2 = p.world
    cases c with
    | updateProofJob proofId u =>
      have hfinished : terminalNow demoJob.proofId p.world = true := hover.2.2
      unfold lendingAnswer
      dsimp only
      rw [if_pos hfinished]
      exact ⟨rfl, rfl⟩
    | _ => exact False.elim hover

theorem lendingCompleted_run (registry : String → Option PolicyPackManifest) :
    ReflTransGen (Platform.StepWhen Set.univ demoSha (notOverwriting demoJob.proofId)) (Platform.init registry)
      ⟨lendingCompleted, registry⟩ :=
  (lendingTask_run rfl registry).trans (lendingTask_run rfl registry)

/-- **A reload between two exports**: they show different versions. -/
theorem export_unstable : ∃ (T : Trace (Platform.StepWhen Set.univ demoSha (notOverwriting demoJob.proofId))
      (Platform.init fun _ => some (lendingManifest "1.0.0"))) (i j : ℕ) (e e' : AttestationExport),
    Exports demoSha (fun _ => "") T demoJob.proofId i i i e ∧ Exports demoSha (fun _ => "") T demoJob.proofId j j j e' ∧
      e.policyVersion = "1.0.0" ∧ e'.policyVersion = "2.0.0" := by
  have hreload : Platform.StepWhen Set.univ demoSha (notOverwriting demoJob.proofId)
      ⟨lendingCompleted, fun _ => some (lendingManifest "1.0.0")⟩
      ⟨lendingCompleted, fun _ => some (lendingManifest "2.0.0")⟩ := ⟨_, .reload _, trivial⟩
  obtain ⟨T, i, j, -, hi, hj⟩ := Trace.exists_through (lendingCompleted_run _) (.single hreload)
  refine ⟨T, i, j, ?_⟩
  unfold Exports
  rw [hi, hj]
  exact ⟨_, _, ⟨le_rfl, le_rfl, rfl⟩, ⟨le_rfl, le_rfl, rfl⟩, rfl, rfl⟩

/-- Without it they agree, before and after the proof is pruned. -/
theorem export_stable_pruned : ∃ (T : Trace (Platform.StepWhen Set.univ demoSha (notOverwriting demoJob.proofId))
      (Platform.init fun _ => none)) (i j : ℕ) (e e' : AttestationExport) (version : String),
    Exports demoSha (fun _ => "") T demoJob.proofId i i i e ∧ Exports demoSha (fun _ => "") T demoJob.proofId j j j e' ∧
      StableExports version e e' := by
  have hpruned : ReflTransGen (Platform.StepWhen Set.univ demoSha (notOverwriting demoJob.proofId))
      ⟨lendingCompleted, fun _ => none⟩ ⟨lendingPruned, fun _ => none⟩ := lendingTask_run rfl _
  obtain ⟨T, i, j, -, hi, hj⟩ := Trace.exists_through (lendingCompleted_run _) hpruned
  have hexports : ∃ e e', Exports demoSha (fun _ => "") T demoJob.proofId i i i e ∧
      Exports demoSha (fun _ => "") T demoJob.proofId j j j e' := by
    unfold Exports
    rw [hi, hj]
    exact ⟨_, _, ⟨le_rfl, le_rfl, rfl⟩, le_rfl, le_rfl, rfl⟩
  obtain ⟨e, e', he, he'⟩ := hexports
  obtain ⟨version, -, -, -, hiff⟩ := export_stable_iff he he'
  refine ⟨T, i, j, e, e', version, he, he', hiff.2 ⟨?_, ?_⟩⟩
  · rw [hi]
    exact fun _ h => nomatch h
  · rw [hj]
    exact fun _ h => nomatch h

end Vellum
