import Vellum.Spec.Worker

/-!
# What the calls of the services do

* `safe_await_bind`, `safe_await`, `safe_exceptException`: the rules of an awaited call.
* `sem_cases`: a call has done its work, or nothing.
* `safe_handler`, `safe_try`, `safe_gate`: the rules of the parts of a delivery.
* `Call.quiet`: the calls that write no job and no dead letter.
* `row_cases`, `letters_cases`, `events_cases`: what a call can do to the row of a job, to the dead
  letters and to the audit log.
* `demoAnswer`: answers of a world in which the calls of one's choice raise.
-/

namespace Vellum

open Prog

variable {α W : Type} {sem : (c : Call) → W → Except PyExn c.Resp → W → Prop} {I : Call → W → Prop} {w : W}

/-! ## Rules -/

theorem safe_await_bind {Q : Except PyExn α → W → Prop} {c : Call} {f : c.Resp → Service α} (hI : I c w)
    (hok : ∀ r w', sem c w (.ok r) w' → (f r).Safe sem I Q w')
    (herr : ∀ e w', sem c w (.error e) w' → Q (.error e) w') : (await c >>= f).Safe sem I Q w :=
  safe_call_bind hI hok herr

theorem safe_await (c : Call) {Q : Except PyExn c.Resp → W → Prop} (hI : I c w)
    (hall : ∀ a w', sem c w a w' → Q a w') : (await c).Safe sem I Q w :=
  ⟨hI, fun a w' hs => hall a w' hs⟩

theorem safe_check_bind {β : Type} {Q : Except PyExn β → W → Prop} {r : Except PyExn α} {f : α → Service β}
    (hok : ∀ a, r = .ok a → (f a).Safe sem I Q w) (herr : ∀ e, r = .error e → Q (.error e) w) :
    (check r >>= f).Safe sem I Q w := by
  cases r with
  | error e => exact herr e rfl
  | ok a => exact hok a rfl

/-- `except Exception` handles what is an exception, and nothing else. -/
theorem safe_exceptException {Q : Except PyExn α → W → Prop} {p : Service α} {handler : PyExn → Service α}
    (hp : p.Safe sem I (fun r w => match r with
      | .ok a => Q (.ok a) w
      | .error e => (e.isException = true → (handler e).Safe sem I Q w) ∧ (e.isException = false → Q (.error e) w)) w) :
    (exceptException p handler).Safe sem I Q w := by
  refine safe_tryCatch (safe_mono ?_ hp)
  intro r w' hr
  cases r with
  | ok a => exact hr
  | error e =>
    show (if e.isException = true then handler e else throw e : Service α).Safe sem I Q w'
    split_ifs with he
    · exact hr.1 he
    · exact hr.2 (Bool.eq_false_iff.2 he)

theorem exec_exceptException_of_error {answer : (c : Call) → Except PyExn c.Resp} {p : Service α}
    {handler : PyExn → Service α} {e : PyExn} (h : (p.exec answer).2 = .error e) :
    ((exceptException p handler).exec answer).2 =
      ((if e.isException = true then handler e else throw e : Service α).exec answer).2 :=
  exec_tryCatch_of_error h

theorem exec_exceptException_of_ok {answer : (c : Call) → Except PyExn c.Resp} {p : Service α}
    {handler : PyExn → Service α} {a : α} (h : (p.exec answer).2 = .ok a) :
    ((exceptException p handler).exec answer).2 = .ok a :=
  exec_tryCatch_of_ok h

/-- A call that raises has done nothing, or its work. -/
theorem sem_cases {c : Call} {w w' : World} {a : Except PyExn c.Resp} (h : c.Sem w a w') :
    w' = w ∨ ∃ r, c.Done w r w' := by
  cases a with
  | error e => exact h
  | ok r => exact .inr ⟨r, h⟩

/-- A call without an effect leaves the world alone, raised or not. -/
theorem sem_idle {c : Call} {w w' : World} {a : Except PyExn c.Resp} (hc : ∀ now, c.effect now w = w)
    (h : c.Sem w a w') : w' = w := by
  rcases sem_cases h with hw | ⟨r, now, hw, -⟩
  · exact hw
  · rw [hw, hc]

section Delivery

variable {S : WorkerSettings} {proofId : String} {job : ProofJob} {attempts : AttemptMetadata} {P : W → Prop}

/-- **A handler** ends where the record of the failure ends; none runs for a cancellation. -/
theorem safe_handler {decrypted : Option Json} (exc : PyExn) (hcancelled : exc = .cancelled → P w)
    (h : ∀ {site reason error}, site = .softTimeLimit ∨ site = .runtimeException →
      (recordFailure S proofId job attempts decrypted site reason error).Safe sem I (fun _ w => P w) w) :
    (handleException S proofId job attempts decrypted exc).Safe sem I (fun _ w => P w) w := by
  have hraise : ∀ site reason error, site = .softTimeLimit ∨ site = .runtimeException →
      (recordFailure S proofId job attempts decrypted site reason error >>= fun _ => throw exc : Service Unit).Safe
        sem I (fun _ w => P w) w := by
    intro site reason error hsite
    refine safe_bind (safe_mono ?_ (h hsite))
    intro r w' hw
    cases r with
    | error e => exact hw
    | ok u => exact hw
  cases exc with
  | cancelled => exact hcancelled rfl
  | softTimeLimitExceeded => exact hraise _ _ _ (.inl rfl)
  | framework _ | api _ | other _ => exact hraise _ _ _ (.inr rfl)

/-- The inner `try`: `J` holds of what the decryption answers, and of what is raised behind its event. -/
theorem safe_unsealPayload {J : Except PyExn Json → W → Prop} {sealedPayload : String}
    (hI : I (.unsealJobPayload sealedPayload) w)
    (hunseal : ∀ a w', sem (.unsealJobPayload sealedPayload) w a w' → J a w')
    (hallowed : ∀ e event w', J (.error e) w' → I (.appendSecurityEvent event) w')
    (hevent : ∀ e event a w' w'', J (.error e) w' → sem (.appendSecurityEvent event) w' a w'' →
      (∀ e', a = .error e' → J (.error e') w'') ∧ J (.error (.other "Unable to decrypt sealed job payload")) w'') :
    (unsealPayload S proofId sealedPayload).Safe sem I J w := by
  refine safe_exceptException (safe_await _ hI fun a w' hs => ?_)
  have hJ := hunseal a w' hs
  cases a with
  | ok decrypted => exact hJ
  | error e =>
    refine ⟨fun _ => ?_, fun _ => hJ⟩
    refine safe_bind (safe_exceptException (safe_await _ (hallowed e _ w' hJ) fun b w'' hs' => ?_))
    obtain ⟨hraised, hunable⟩ := hevent e _ b w' w'' hJ hs'
    cases b with
    | ok _ => exact hunable
    | error e' => exact ⟨fun _ => hunable, fun _ => hraised e' rfl⟩

/-- **The `try` statement**: `J` holds once the payload is read or not, `R` behind its body, `H`
when a handler starts, and `P` at the end. -/
theorem safe_try {J : Except PyExn Json → W → Prop} {R : Except PyExn Unit → W → Prop} {H : PyExn → W → Prop}
    (hmissing : J (.error (.other "Missing sealed_job_payload for proof job")) w)
    (hunseal : ∀ sealedPayload, (unsealPayload S proofId sealedPayload).Safe sem I J w)
    (hread : ∀ {e w}, J (.error e) w → H e w)
    (hprove : ∀ {w} decrypted, J (.ok decrypted) w → (proveJob S proofId job decrypted).Safe sem I R w)
    (hdone : ∀ {w}, R (.ok ()) w → P w) (hraised : ∀ {e w}, R (.error e) w → H e w)
    (hhandle : ∀ {w} decrypted exc, H exc w →
      (handleException S proofId job attempts decrypted exc).Safe sem I (fun _ w => P w) w) :
    (executeJob S proofId job attempts).Safe sem I (fun _ w => P w) w := by
  unfold executeJob
  refine safe_andThen (safe_mono (Q := J) ?_ ?_)
  · intro r w' hJ
    cases r with
    | error exc => exact hhandle none exc (hread hJ)
    | ok decrypted =>
      refine safe_tryCatch (safe_mono ?_ (hprove decrypted hJ))
      intro r w'' hR
      cases r with
      | error exc => exact hhandle (some decrypted) exc (hraised hR)
      | ok u => exact hdone hR
  · cases job.sealedJobPayload with
    | none => exact hmissing
    | some sealedPayload => exact hunseal sealedPayload

/-- The status gate of a delivery, on the row it has read. -/
def gate (S : WorkerSettings) (proofId : String) (row : Option ProofJob) : Service Unit :=
  match row with
  | none => return ()
  | some job => if job.status.terminal then return () else deliverJob S proofId job

theorem processProofJob_eq (S : WorkerSettings) (proofId : String) :
    processProofJob S proofId = (do
      await .initModels
      let row ← await (.getProofJob proofId)
      gate S proofId row) := by
  unfold processProofJob gate
  refine congrArg _ (funext fun _ => congrArg _ (funext fun row => ?_))
  cases row with
  | none => rfl
  | some job => rfl

/-- **A job that is missing or terminal is left alone.** -/
theorem safe_gate {Q : Except PyExn Unit → W → Prop} {row : Option ProofJob}
    (hleft : (∀ job, row = some job → job.status.terminal = true) → Q (.ok ()) w)
    (hdeliver : ∀ job, row = some job → job.status.terminal = false → (deliverJob S proofId job).Safe sem I Q w) :
    (gate S proofId row).Safe sem I Q w := by
  unfold gate
  cases row with
  | none =>
    refine hleft fun job heq => ?_
    cases heq
  | some job =>
    cases hterm : job.status.terminal with
    | true =>
      simp only [hterm, if_true]
      refine hleft fun job' heq => ?_
      rw [← Option.some.inj heq]
      exact hterm
    | false =>
      simp only [hterm, Bool.false_eq_true, if_false]
      exact hdeliver job rfl hterm

end Delivery

/-! ## Effects -/

/-- The calls that write no row of `proof_jobs` or `dead_letter_jobs`. -/
def Call.quiet : Call → Bool
  | .createProofJob _ | .updateProofJob .. | .purgeSealedJobPayload .. | .pruneTerminalJobRuntimeData _
  | .upsertDeadLetterJob _ | .markDeadLetterJobRequeued .. => false
  | _ => true

theorem sem_quiet {c : Call} (hc : c.quiet = true) {w w' : World} {a : Except PyExn c.Resp} (h : c.Sem w a w') :
    w'.proofJobs = w.proofJobs ∧ w'.deadLetterJobs = w.deadLetterJobs ∧ w'.history = w.history := by
  rcases sem_cases h with rfl | ⟨r, now, rfl, -⟩
  · exact ⟨rfl, rfl, rfl⟩
  · cases c <;> first | exact ⟨rfl, rfl, rfl⟩ | cases hc

theorem proofJobs_updateProofJob {w : World} {proofId : String} {job : ProofJob} (h : w.proofJobs proofId = some job)
    (u : JobUpdate) (now : ℚ) :
    (w.updateProofJob proofId u now).proofJobs proofId = some (job.update u now) := by
  unfold World.updateProofJob
  rw [h]
  exact Function.update_self ..

theorem deadLetterJobs_updateProofJob (w : World) (proofId : String) (u : JobUpdate) (now : ℚ) :
    (w.updateProofJob proofId u now).deadLetterJobs = w.deadLetterJobs := by
  unfold World.updateProofJob
  cases w.proofJobs proofId <;> rfl

theorem proofJobs_purge {w : World} {proofId : String} {job : ProofJob} (h : w.proofJobs proofId = some job) (now : ℚ) :
    (w.purgeSealedJobPayload proofId now).proofJobs proofId = some (job.purge now) := by
  unfold World.purgeSealedJobPayload
  rw [h]
  exact Function.update_self ..

theorem deadLetterJobs_purge (w : World) (proofId : String) (now : ℚ) :
    (w.purgeSealedJobPayload proofId now).deadLetterJobs = w.deadLetterJobs := by
  unfold World.purgeSealedJobPayload
  cases w.proofJobs proofId <;> rfl

/-- **What a call can do to the row of a job.** -/
theorem row_cases {c : Call} {w w' : World} {a : Except PyExn c.Resp} (h : c.Sem w a w') (id : String) :
    w'.proofJobs id = w.proofJobs id ∨
    (∃ u job now, c = .updateProofJob id u ∧ w.proofJobs id = some job ∧ w'.proofJobs id = some (job.update u now)) ∨
    (∃ new now, c = .createProofJob new ∧ new.proofId = id ∧ w.proofJobs id = none ∧
      w'.proofJobs id = some (new.row now)) ∨
    (∃ site job now, c = .purgeSealedJobPayload id site ∧ w.proofJobs id = some job ∧
      w'.proofJobs id = some (job.purge now)) ∨
    (∃ olderThan job now, c = .pruneTerminalJobRuntimeData olderThan ∧ w.proofJobs id = some job ∧
      w'.proofJobs id = some (job.prune olderThan now)) := by
  rcases sem_cases h with rfl | ⟨r, now, rfl, hr⟩
  · exact .inl rfl
  · cases c with
    | updateProofJob proofId u =>
      by_cases hid : proofId = id
      · subst hid
        cases hjob : w.proofJobs proofId with
        | none =>
          left
          simp only [Call.effect, World.updateProofJob, hjob]
        | some job => exact .inr (.inl ⟨u, job, now, rfl, rfl, proofJobs_updateProofJob hjob u now⟩)
      · left
        simp only [Call.effect, World.updateProofJob]
        cases w.proofJobs proofId with
        | none => rfl
        | some job => exact Function.update_of_ne (Ne.symm hid) ..
    | createProofJob new =>
      by_cases hid : new.proofId = id
      · subst hid
        exact .inr (.inr (.inl ⟨new, now, rfl, rfl, hr, Function.update_self ..⟩))
      · exact .inl (Function.update_of_ne (Ne.symm hid) ..)
    | purgeSealedJobPayload proofId site =>
      by_cases hid : proofId = id
      · subst hid
        cases hjob : w.proofJobs proofId with
        | none =>
          left
          simp only [Call.effect, World.purgeSealedJobPayload, hjob]
        | some job => exact .inr (.inr (.inr (.inl ⟨site, job, now, rfl, rfl, proofJobs_purge hjob now⟩)))
      · left
        simp only [Call.effect, World.purgeSealedJobPayload]
        cases w.proofJobs proofId with
        | none => rfl
        | some job => exact Function.update_of_ne (Ne.symm hid) ..
    | pruneTerminalJobRuntimeData olderThan =>
      simp only [Call.effect, World.pruneTerminalJobRuntimeData]
      cases hjob : w.proofJobs id with
      | none => exact .inl rfl
      | some job => exact .inr (.inr (.inr (.inr ⟨olderThan, job, now, rfl, rfl, rfl⟩)))
    | _ => exact .inl rfl

/-- **What a call can do to the dead letters.** -/
theorem letters_cases {c : Call} {w w' : World} {a : Except PyExn c.Resp} (h : c.Sem w a w') :
    w'.deadLetterJobs = w.deadLetterJobs ∨
    (∃ input, c = .upsertDeadLetterJob input ∧
      w'.deadLetterJobs = (w.upsertDeadLetterJob input).deadLetterJobs) ∨
    (∃ dlqId rerun requestedBy reason, c = .markDeadLetterJobRequeued dlqId rerun requestedBy reason ∧
      w'.deadLetterJobs = (w.markDeadLetterJobRequeued dlqId rerun requestedBy reason).deadLetterJobs) := by
  rcases sem_cases h with rfl | ⟨r, now, rfl, -⟩
  · exact .inl rfl
  · cases c with
    | upsertDeadLetterJob input => exact .inr (.inl ⟨input, rfl, rfl⟩)
    | markDeadLetterJobRequeued dlqId rerun requestedBy reason =>
      exact .inr (.inr ⟨dlqId, rerun, requestedBy, reason, rfl, rfl⟩)
    | updateProofJob proofId u => exact .inl (deadLetterJobs_updateProofJob w proofId u now)
    | purgeSealedJobPayload proofId site => exact .inl (deadLetterJobs_purge w proofId now)
    | _ => exact .inl rfl

/-- A row that an upsert leaves: one it does not name, the one it names, or the new one. -/
theorem mem_upsert {w : World} {input : DeadLetterInput} {row : DeadLetterJob} :
    row ∈ (w.upsertDeadLetterJob input).deadLetterJobs ↔
      (row ∈ w.deadLetterJobs ∧ row.proofId ≠ input.proofId) ∨
      (∃ old ∈ w.deadLetterJobs, old.proofId = input.proofId ∧ row = old.upsert input) ∨
      ((∀ old ∈ w.deadLetterJobs, old.proofId ≠ input.proofId) ∧
        row = .fresh (w.deadLetterJobs.length + 1) input) := by
  unfold World.upsertDeadLetterJob
  by_cases hany : w.deadLetterJobs.any (fun row => row.proofId = input.proofId) = true
  · rw [if_pos hany]
    obtain ⟨named, hnamed, heq⟩ := List.any_eq_true.1 hany
    have hnot : ¬ ∀ old ∈ w.deadLetterJobs, old.proofId ≠ input.proofId := fun hall =>
      hall named hnamed (by simpa using heq)
    simp only [List.mem_map, hnot, false_and, or_false]
    constructor
    · rintro ⟨old, hold, rfl⟩
      by_cases hid : old.proofId = input.proofId
      · rw [if_pos hid]
        exact .inr ⟨old, hold, hid, rfl⟩
      · rw [if_neg hid]
        exact .inl ⟨hold, hid⟩
    · rintro (⟨hrow, hid⟩ | ⟨old, hold, hid, rfl⟩)
      · exact ⟨row, hrow, if_neg hid⟩
      · exact ⟨old, hold, if_pos hid⟩
  · rw [if_neg hany]
    have hall : ∀ old ∈ w.deadLetterJobs, old.proofId ≠ input.proofId := fun old hold hid =>
      hany (List.any_eq_true.2 ⟨old, hold, by simpa using hid⟩)
    simp only [List.mem_append, List.mem_singleton]
    constructor
    · rintro (hrow | rfl)
      · exact .inl ⟨hrow, hall row hrow⟩
      · exact .inr (.inr ⟨hall, rfl⟩)
    · rintro (⟨hrow, -⟩ | ⟨old, hold, hid, -⟩ | ⟨-, rfl⟩)
      · exact .inl hrow
      · exact absurd hid (hall old hold)
      · exact .inr rfl

/-- The audit log only grows, by the event of the call. -/
theorem events_cases {c : Call} {w w' : World} {a : Except PyExn c.Resp} (h : c.Sem w a w') :
    w'.auditEvents = w.auditEvents ∨ ∃ args, c = .appendEvent args ∧ w'.auditEvents = w.auditEvents ++ [args] := by
  rcases sem_cases h with rfl | ⟨r, now, rfl, -⟩
  · exact .inl rfl
  · cases c with
    | appendEvent args => exact .inr ⟨args, rfl, rfl⟩
    | updateProofJob proofId u =>
      simp only [Call.effect, World.updateProofJob]
      cases w.proofJobs proofId <;> exact .inl rfl
    | purgeSealedJobPayload proofId site =>
      simp only [Call.effect, World.purgeSealedJobPayload]
      cases w.proofJobs proofId <;> exact .inl rfl
    | _ => exact .inl rfl

theorem mem_events {c : Call} {w w' : World} {a : Except PyExn c.Resp} (h : c.Sem w a w') {e : EventArgs}
    (he : e ∈ w.auditEvents) : e ∈ w'.auditEvents := by
  rcases events_cases h with heq | ⟨args, -, heq⟩
  · rwa [heq]
  · rw [heq]
    exact List.mem_append_left _ he

/-! ## A world to exhibit runs in -/

/-- A proof that verifies, with one public signal. -/
def demoResult : ProofResult := ⟨.obj [("pi_a", .arr [.str "1"])], [.str "1"]⟩

/-- The answers of calls that do not raise: the sealed payload of every job holds `decrypted`,
every proof is `demoResult` and the provider's verdict is `verdict`. -/
def demoReply (decrypted : Json) (verdict : Bool) (w : World) : (c : Call) → c.Resp
  | .getProofJob proofId => w.proofJobs proofId
  | .updateProofJob proofId u => (w.updateProofJob proofId u 0).proofJobs proofId
  | .getDeadLetterJob dlqId => w.getDeadLetterJob dlqId
  | .unsealJobPayload _ | .getEvidence _ => decrypted
  | .generate .. => demoResult
  | .verify .. => verdict
  | .putEvidence .. => "evidence"
  | .initModels | .createProofJob _ | .purgeSealedJobPayload .. | .pruneTerminalJobRuntimeData _
  | .upsertDeadLetterJob _ | .markDeadLetterJobRequeued .. | .appendEvent _ | .appendSecurityEvent _ | .enqueue _
  | .writeProofFile .. | .createAttestation _ => ()

/-- Whether the database takes the call. -/
def demoTakes (w : World) : Call → Bool
  | .createProofJob new => (w.proofJobs new.proofId).isNone
  | _ => true

/-- The oracle: a call of `fails` raises, any other does what it does. -/
def demoAnswer (decrypted : Json) (verdict : Bool) (fails : Call → Bool) (c : Call) (w : World) :
    Except PyExn c.Resp × World :=
  if fails c || !demoTakes w c then (.error (.other "Service Unavailable"), w)
  else (.ok (demoReply decrypted verdict w c), c.effect 0 w)

theorem demoAnswer_sem (decrypted : Json) (verdict : Bool) (fails : Call → Bool) (c : Call) (w : World) :
    c.Sem w (demoAnswer decrypted verdict fails c w).1 (demoAnswer decrypted verdict fails c w).2 := by
  unfold demoAnswer
  split_ifs with h
  · exact .inl rfl
  · refine ⟨0, rfl, ?_⟩
    simp only [Bool.or_eq_true, Bool.not_eq_true', not_or, Bool.not_eq_false] at h
    cases c with
    | createProofJob new => exact Option.isNone_iff_eq_none.1 h.2
    | _ => first | rfl | trivial

/-- In a world in which no call of one's choice raises, only a job that exists already is refused. -/
theorem demoAnswer_refused {decrypted : Json} {verdict : Bool} {c : Call} {w : World} {e : PyExn}
    (h : (demoAnswer decrypted verdict (fun _ => false) c w).1 = .error e) :
    ∃ new, c = .createProofJob new ∧ w.proofJobs new.proofId ≠ none ∧ e ≠ .cancelled := by
  unfold demoAnswer at h
  split_ifs at h with hrefused
  cases h
  cases c with
  | createProofJob new =>
    refine ⟨new, rfl, fun hfree => ?_, nofun⟩
    simp [demoTakes, hfree] at hrefused
  | _ => cases hrefused

/-- A worker for the circuit `credit_check`, without policies. -/
def demoWorker : WorkerSettings where
  maxAttempts := 3
  softTimeLimitSeconds := 240
  proofOutputDir := "/data/proofs"
  circuits circuitId := if circuitId = "credit_check" then some (.obj []) else none
  policies _ := none
  validateSchema _ _ := .ok ()
  explain _ _ _ := .obj [("version", .str "v1"), ("reason", .str "policy_trace_unavailable")]
  classify _ _ := ⟨"unknown", false, "Unclassified runtime exception."⟩
  repr _ := ""

/-- A job of that circuit. -/
def demoJob : NewJob where
  proofId := "p1"
  circuitId := "credit_check"
  status := .queued
  sealedJobPayload := "vault:v1:c2VhbGVk"
  inputFingerprint := "f1"
  inputSummary := .obj []
  metadata := .empty

/-- What its payload decrypts to. -/
def demoPayload : Json := .obj [("private_input", .obj [("credit_score", .int 700)])]

def demoSha (text : String) : String := "h" ++ text

/-- The job is queued, and one delivery of it begins. -/
def demoPool (S : WorkerSettings) : Pool World Call.Resp PyExn Unit :=
  Pool.put ⟨World.empty.createProofJob demoJob 0, fun _ => none⟩ 0 (World.empty.createProofJob demoJob 0)
    (some (processProofJob S demoJob.proofId))

end Vellum
