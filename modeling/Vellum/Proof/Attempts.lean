import Vellum.Lib.Counted
import Vellum.Proof.RerunPayload
import Vellum.Proof.TaskCalls

/-!
# The attempts of a job are bounded

A delivery reads the attempts of its job from the metadata and writes one more before it proves
anything. A worker that is lost on the way, and a handler that fails, leave the counter as it was
written.

* `Moves`: what a call does to the counter.
* `executeJob_keeps`, `processProofJob_keeps`: a delivery comes to the provider at most once, after
  it has written its attempt.
* `exceeded_ends`: a delivery without attempts left, when no call raises.
* `attempts_bounded`: all runs of deliveries one after the other.
-/

namespace Vellum

open Prog Pool

/-- The attempts that the row of a job records. -/
def attemptsOf (id : String) (w : World) : ℤ := ((w.proofJobs id).map fun job => previousAttempts job.metadata).getD 0

/-- Coming to `proof_engine.generate` counts. -/
def countsGenerate : Call → ℕ
  | .generate .. => 1
  | _ => 0

variable {S : WorkerSettings} {id : String} {a a' b max : ℤ} {w w' : World} {c : Call}

/-! ## The counter -/

/-- The row of the job is there, with `a` attempts. -/
def RowAt (id : String) (a : ℤ) (w : World) : Prop :=
  ∃ job, w.proofJobs id = some job ∧ job.proofId = id ∧ previousAttempts job.metadata = a

theorem RowAt.attemptsOf_eq (h : RowAt id a w) : attemptsOf id w = a := by
  obtain ⟨job, hrow, -, hcount⟩ := h
  unfold attemptsOf
  rw [hrow]
  exact hcount

/-- What a call does to the counter, wherever it takes effect. -/
def Moves (id : String) (a a' : ℤ) (c : Call) : Prop := ∀ now w, RowAt id a w → RowAt id a' (c.effect now w)

theorem moves_quiet (hc : c.quiet = true) : Moves id a a c := by
  intro now w h
  have hjobs : (c.effect now w).proofJobs = w.proofJobs := by
    cases c <;> first | rfl | cases hc
  unfold RowAt
  rw [hjobs]
  exact h

theorem moves_upsert (input : DeadLetterInput) : Moves id a a (.upsertDeadLetterJob input) := fun _ _ h => h

theorem moves_purge (site : Site) : Moves id a a (.purgeSealedJobPayload id site) := by
  rintro now w ⟨job, hrow, hid, hcount⟩
  exact ⟨job.purge now, proofJobs_purge hrow now, hid, hcount⟩

theorem moves_update {u : JobUpdate}
    (h : ∀ d, previousAttempts d = a → previousAttempts (d.update (u.metadataPatch.getD [])) = a') :
    Moves id a a' (.updateProofJob id u) := by
  rintro now w ⟨job, hrow, hid, hcount⟩
  exact ⟨job.update u now, proofJobs_updateProofJob hrow u now, hid, h _ hcount⟩

theorem previousAttempts_congr {d d' : Dict Json} (h : d.get? "attempt_count" = d'.get? "attempt_count") :
    previousAttempts d = previousAttempts d' := by
  unfold previousAttempts
  rw [h]

/-- A patch that sets the counter, unless it sets it again later. -/
theorem previousAttempts_update (before after : List (String × Json)) (d : Dict Json) (ha : 0 ≤ a)
    (hafter : "attempt_count" ∉ after.map Prod.fst) :
    previousAttempts (d.update (before ++ ("attempt_count", .int a) :: after)) = a := by
  have hsplit : d.update (before ++ ("attempt_count", .int a) :: after) =
      ((d.update before).set "attempt_count" (.int a)).update after := by
    unfold Dict.update
    rw [List.foldl_append, List.foldl_cons]
  have hget : (d.update (before ++ ("attempt_count", .int a) :: after)).get? "attempt_count" = some (.int a) := by
    rw [hsplit, Dict.get?_update_of_notMem hafter, Dict.get?_set, if_pos rfl]
  unfold previousAttempts
  rw [hget]
  exact if_pos ha

theorem previousAttempts_nonneg (d : Dict Json) : 0 ≤ previousAttempts d := by
  unfold previousAttempts
  split
  · split_ifs with h
    · exact h
    · exact le_rfl
  · exact le_rfl

/-! ## Programs that keep the count -/

/-- **The invariant of the runs**: as many deliveries have come to the provider as the row has
attempts, at most, and no more than are allowed. -/
def AttemptsInv (max : ℤ) (id : String) (w : World) (n : ℕ) : Prop := ∃ a, RowAt id a w ∧ (n : ℤ) ≤ a ∧ (n : ℤ) ≤ max

/-- The call cannot make the counter smaller. -/
def NoDecrease (id : String) (c : Call) (w : World) : Prop :=
  ∀ a w', c.Sem w a w' → attemptsOf id w ≤ attemptsOf id w'

/-- Safe for the invariant, with what is known at the end. -/
abbrev KeepsAttempts {α : Type} (max : ℤ) (id : String) (Q : Except PyExn α → World × ℕ → Prop) (p : Service α)
    (x : World × ℕ) : Prop :=
  p.Safe (counting countsGenerate Call.Sem)
    (fun c x => AttemptsInv max id x.1 (x.2 + countsGenerate c) ∧ NoDecrease id c x.1) Q x

/-- The row has `a` attempts, and `b` deliveries have come to the provider, at most. -/
structure Stands (id : String) (a b : ℤ) (x : World × ℕ) : Prop where
  row : RowAt id a x.1
  count : (x.2 : ℤ) ≤ b

variable {x x' : World × ℕ}

theorem Stands.inv (h : Stands id a b x) (hba : b ≤ a) (hbm : b ≤ max) : AttemptsInv max id x.1 x.2 :=
  ⟨a, h.row, h.count.trans hba, h.count.trans hbm⟩

theorem Stands.mono {b' : ℤ} (h : Stands id a b x) (hb : b ≤ b') : Stands id a b' x := ⟨h.row, h.count.trans hb⟩

/-- A call that moves the counter up may be made. -/
theorem Stands.allowed (h : Stands id a b x) (hmoves : Moves id a a' c) (ha : a ≤ a')
    (hba : b + countsGenerate c ≤ a) (hbm : b + countsGenerate c ≤ max) :
    AttemptsInv max id x.1 (x.2 + countsGenerate c) ∧ NoDecrease id c x.1 := by
  have hcount := h.count
  refine ⟨⟨a, h.row, by push_cast; omega, by push_cast; omega⟩, fun ans w' hs => ?_⟩
  rcases sem_cases hs with rfl | ⟨r, now, rfl, -⟩
  · exact le_rfl
  · rw [h.row.attemptsOf_eq, (hmoves now x.1 h.row).attemptsOf_eq]
    exact ha

/-- After a call that keeps the counter, whatever it answers. -/
theorem Stands.after (h : Stands id a b x) (hmoves : Moves id a a c) {ans : Except PyExn c.Resp}
    (hs : counting countsGenerate Call.Sem c x ans x') : Stands id a (b + countsGenerate c) x' := by
  obtain ⟨hs, hcount⟩ := hs
  have hb := h.count
  refine ⟨?_, by rw [hcount]; push_cast; omega⟩
  rcases sem_cases hs with hw | ⟨r, now, hw, -⟩
  · rw [hw]
    exact h.row
  · rw [hw]
    exact hmoves now x.1 h.row

/-- After a call that moves the counter and is none of the provider's proofs: a call that raises may
not have taken effect. -/
theorem Stands.moved (h : Stands id a b x) (hmoves : Moves id a a' c) (hzero : countsGenerate c = 0)
    {ans : Except PyExn c.Resp} (hs : counting countsGenerate Call.Sem c x ans x') :
    Stands id a' b x' ∨ (Stands id a b x' ∧ ans.isOk = false) := by
  obtain ⟨hs, hcount⟩ := hs
  rw [hzero, Nat.add_zero] at hcount
  cases ans with
  | error e =>
    rcases hs with hw | ⟨r, now, hw, -⟩
    · exact .inr ⟨⟨by rw [hw]; exact h.row, by rw [hcount]; exact h.count⟩, rfl⟩
    · exact .inl ⟨by rw [hw]; exact hmoves now x.1 h.row, by rw [hcount]; exact h.count⟩
  | ok r =>
    obtain ⟨now, hw, -⟩ := hs
    exact .inl ⟨by rw [hw]; exact hmoves now x.1 h.row, by rw [hcount]; exact h.count⟩

/-- **A call that counts one attempt more**, then the rest. -/
theorem keeps_next_attempt {α : Type} {f : c.Resp → Service α} (h : Stands id a b x) (hmoves : Moves id a (a + 1) c)
    (hzero : countsGenerate c = 0) (hba : b ≤ a) (hbm : b ≤ max)
    (hok : ∀ r x', Stands id (a + 1) b x' → KeepsAttempts max id (fun _ x => AttemptsInv max id x.1 x.2) (f r) x') :
    KeepsAttempts max id (fun _ x => AttemptsInv max id x.1 x.2) (await c >>= f) x := by
  have hcost : b + countsGenerate c = b := by
    rw [hzero]
    exact Int.add_zero b
  refine safe_await_bind (h.allowed hmoves (by omega) (by omega) (by omega)) ?_ ?_
  · intro r x' hs
    rcases h.moved hmoves hzero hs with h' | ⟨-, hraised⟩
    · exact hok r x' h'
    · cases hraised
  · intro e x' hs
    rcases h.moved hmoves hzero hs with h' | ⟨h', -⟩
    · exact h'.inv (by omega) hbm
    · exact h'.inv hba hbm

/-- The calls that keep the counter and are none of the provider's proofs. -/
def KeepsRow (id : String) (a : ℤ) (c : Call) : Prop := Moves id a a c ∧ countsGenerate c = 0

/-- **A program of such calls only.** By induction on the program. -/
theorem keeps_of_calls {α : Type} {p : Service α} (hp : p.Calls (KeepsRow id a)) (h : Stands id a b x) (hba : b ≤ a)
    (hbm : b ≤ max) : KeepsAttempts max id (fun _ x => Stands id a b x) p x := by
  induction p generalizing x with
  | done r => exact h
  | await c k ih =>
    obtain ⟨⟨hmoves, hzero⟩, hk⟩ := hp
    have hcost : b + countsGenerate c = b := by
      rw [hzero]
      exact Int.add_zero b
    refine ⟨h.allowed hmoves le_rfl (by rw [hcost]; exact hba) (by rw [hcost]; exact hbm), fun ans x' hs => ?_⟩
    have hafter := h.after hmoves hs
    rw [hcost] at hafter
    exact ih ans (hk ans) hafter

/-! ## The parts of a delivery -/

section Parts

variable {proofId : String} {job : ProofJob} {attempts : AttemptMetadata}

/-- The patch of a failure sets the counter to that of the delivery. -/
theorem recordFailure_keepsRow {decrypted : Option Json} {site : Site} {reason error : String}
    (hattempts : attempts.attemptCount = a) (ha : 0 ≤ a) :
    (recordFailure S id job attempts decrypted site reason error).Calls (KeepsRow id a) := by
  unfold recordFailure
  refine calls_bind (calls_await ⟨moves_update fun d _ => ?_, rfl⟩) fun failedJob => ?_
  · unfold AttemptMetadata.patch
    rw [hattempts]
    exact previousAttempts_update [_, _] _ d ha (by simp)
  refine calls_bind (calls_await ⟨moves_purge site, rfl⟩) fun _ => ?_
  refine calls_bind (calls_await ⟨moves_quiet rfl, rfl⟩) fun _ => ?_
  exact calls_await ⟨moves_upsert _, rfl⟩

theorem handleException_keepsRow {decrypted : Option Json} (hattempts : attempts.attemptCount = a) (ha : 0 ≤ a)
    (exc : PyExn) : (handleException S id job attempts decrypted exc).Calls (KeepsRow id a) := by
  cases exc with
  | cancelled => trivial
  | softTimeLimitExceeded => exact calls_bind (recordFailure_keepsRow hattempts ha) fun _ => trivial
  | framework _ | api _ | other _ => exact calls_bind (recordFailure_keepsRow hattempts ha) fun _ => trivial

theorem unsealPayload_keepsRow {sealedPayload : String} :
    (unsealPayload S proofId sealedPayload).Calls (KeepsRow id a) := by
  unfold unsealPayload
  refine calls_exceptException (calls_await ⟨moves_quiet rfl, rfl⟩) fun exc => ?_
  exact calls_bind (calls_exceptException (calls_await ⟨moves_quiet rfl, rfl⟩) fun _ => trivial) fun _ => trivial

/-- The patch of a completed job does not name the counter. -/
theorem completeJob_keepsRow {result : ProofResult} {patch : Option (List (String × Json))}
    (hpatch : ∀ key ∈ (patch.getD []).map Prod.fst, key = "policy_version" ∨ key = "decision") :
    (completeJob S id job result patch).Calls (KeepsRow id a) := by
  have hcounter : "attempt_count" ∉ (patch.getD []).map Prod.fst := by
    intro hmem
    rcases hpatch _ hmem with h | h
    · exact absurd h (by decide)
    · exact absurd h (by decide)
  unfold completeJob
  refine calls_bind (calls_await ⟨moves_quiet rfl, rfl⟩) fun _ => ?_
  refine calls_bind (calls_await ⟨moves_update fun d hd => ?_, rfl⟩) fun _ => ?_
  · rw [← hd]
    exact previousAttempts_congr (Dict.get?_update_of_notMem hcounter d)
  refine calls_bind (calls_await ⟨moves_purge .completed, rfl⟩) fun _ => ?_
  exact calls_await ⟨moves_quiet rfl, rfl⟩

/-- **The body of the `try`** comes to the provider once, with an attempt to spare. -/
theorem proveJob_keeps {decrypted : Json} (h : Stands id a b x) (hba : b + 1 ≤ a) (hbm : b + 1 ≤ max) :
    KeepsAttempts max id (fun _ x => Stands id a (b + 1) x) (proveJob S id job decrypted) x := by
  unfold proveJob
  refine safe_check_bind (fun privateInput _ => ?_) fun e _ => h.mono (by omega)
  refine safe_await_bind (h.allowed (moves_quiet rfl) le_rfl hba hbm) ?_ ?_
  · intro result x₁ hs
    have h₁ : Stands id a (b + 1) x₁ := h.after (moves_quiet rfl) hs
    refine keeps_of_calls ?_ h₁ hba hbm
    refine calls_bind (calls_await ⟨moves_quiet rfl, rfl⟩) fun verified => ?_
    exact calls_check_bind fun patch hpatch => completeJob_keepsRow (completionPatch_keys hpatch)
  · exact fun e x₁ hs => h.after (moves_quiet rfl) hs

theorem executeJob_keeps (h : Stands id a b x) (hattempts : attempts.attemptCount = a) (ha : 0 ≤ a) (hba : b + 1 ≤ a)
    (hbm : b + 1 ≤ max) : KeepsAttempts max id (fun _ x => Stands id a (b + 1) x) (executeJob S id job attempts) x := by
  refine safe_try (J := fun _ => Stands id a b) (H := fun _ => Stands id a (b + 1))
    (R := fun _ x => Stands id a (b + 1) x) h ?_
    ?_ ?_ ?_ ?_ ?_
  · exact fun _ => keeps_of_calls unsealPayload_keepsRow h (by omega) (by omega)
  · exact fun hx => hx.mono (by omega)
  · exact fun decrypted hx => proveJob_keeps hx hba hbm
  · exact fun hx => hx
  · exact fun hx => hx
  · exact fun decrypted exc hx => keeps_of_calls (handleException_keepsRow hattempts ha exc) hx hba hbm

/-- **The used-up attempts** are written as well, and nothing is proved. -/
theorem maxAttemptsExceeded_keeps (h : Stands id a b x) (hattempts : attempts.attemptCount = a + 1) (ha : 0 ≤ a)
    (hba : b ≤ a) (hbm : b ≤ max) :
    KeepsAttempts max id (fun _ x => AttemptsInv max id x.1 x.2) (maxAttemptsExceeded S id job attempts) x := by
  unfold maxAttemptsExceeded
  refine keeps_next_attempt h (moves_update fun d _ => ?_) rfl hba hbm fun r x₁ h₁ => ?_
  · unfold AttemptMetadata.patch
    rw [hattempts]
    exact previousAttempts_update [] _ d (by omega) (by simp)
  refine safe_mono (fun _ x hx => hx.inv (by omega) hbm) (keeps_of_calls ?_ h₁ (by omega) hbm)
  refine calls_bind (calls_await ⟨moves_quiet rfl, rfl⟩) fun _ => ?_
  refine calls_bind (calls_await ⟨moves_upsert _, rfl⟩) fun _ => ?_
  exact calls_await ⟨moves_purge .maxAttempts, rfl⟩

theorem deliverJob_keeps (h : Stands id a b x) (hjob : previousAttempts job.metadata = a) (hba : b ≤ a)
    (hbm : b ≤ S.maxAttempts) :
    KeepsAttempts S.maxAttempts id (fun _ x => AttemptsInv S.maxAttempts id x.1 x.2) (deliverJob S id job) x := by
  have ha : 0 ≤ a := by
    rw [← hjob]
    exact previousAttempts_nonneg job.metadata
  unfold deliverJob nextAttemptMetadata
  rw [hjob]
  by_cases hexceeded : S.maxAttempts < a + 1
  · simp only [decide_eq_true hexceeded, if_true]
    exact maxAttemptsExceeded_keeps h rfl ha hba hbm
  · simp only [decide_eq_false hexceeded, Bool.false_eq_true, if_false]
    refine keeps_next_attempt h (moves_update fun d _ => ?_) rfl hba hbm fun updatedJob x₁ h₁ => ?_
    · have hnext : 0 ≤ a + 1 := by omega
      exact previousAttempts_update [] _ d hnext (by simp)
    -- the attempt is written: one delivery more may come to the provider
    refine safe_bind (safe_mono ?_ (keeps_of_calls (b := b) (calls_await ⟨moves_quiet rfl, rfl⟩) h₁ (by omega) hbm))
    rintro (e | _) x₂ h₂
    · exact h₂.inv (by omega) hbm
    · refine safe_mono (fun _ x hx => hx.inv ?_ ?_) (executeJob_keeps h₂ rfl (by omega) ?_ ?_)
      · omega
      · omega
      · omega
      · omega

/-- **A delivery keeps the invariant.** -/
theorem processProofJob_keeps (h : AttemptsInv S.maxAttempts id x.1 x.2) :
    KeepsAttempts S.maxAttempts id (fun _ x => AttemptsInv S.maxAttempts id x.1 x.2) (processProofJob S id) x := by
  obtain ⟨a, hrow, hna, hnm⟩ := h
  have h₀ : Stands id a x.2 x := ⟨hrow, le_rfl⟩
  rw [processProofJob_eq]
  refine safe_bind (safe_mono ?_ (keeps_of_calls (calls_await ⟨moves_quiet rfl, rfl⟩) h₀ hna hnm))
  rintro (e | _) x₁ h₁
  · exact h₁.inv hna hnm
  refine safe_await_bind (h₁.allowed (moves_quiet rfl) le_rfl (by simpa [countsGenerate] using hna)
    (by simpa [countsGenerate] using hnm)) ?_ ?_
  · intro row x₂ hs
    have h₂ : Stands id a x.2 x₂ := by simpa [countsGenerate] using h₁.after (moves_quiet rfl) hs
    obtain ⟨⟨now, hw, hread⟩, -⟩ := hs
    refine safe_gate (fun _ => h₂.inv hna hnm) fun job hjob _ => ?_
    -- the row that was read is the row of the invariant
    obtain ⟨job', hrow', -, hcount⟩ := h₁.row
    have hsame : row = x₁.1.proofJobs id := hread
    obtain rfl : job' = job := Option.some.inj (hrow'.symm.trans (hsame.symm.trans hjob))
    exact deliverJob_keeps h₂ hcount hna hnm
  · intro e x₂ hs
    have h₂ : Stands id a x.2 x₂ := by simpa [countsGenerate] using h₁.after (moves_quiet rfl) hs
    exact h₂.inv hna hnm

end Parts

/-! ## A delivery without attempts left -/

/-- The calls where none raises. -/
def Call.SemOk (c : Call) (w : World) (a : Except PyExn c.Resp) (w' : World) : Prop := c.Sem w a w' ∧ a.isOk = true

/-- The job has failed, its payload is purged, and a dead letter is recorded. -/
def DeadLettered (id : String) (w : World) : Prop :=
  (∃ job, w.proofJobs id = some job ∧ job.status = .failed ∧ job.sealedJobPayload = none) ∧
    ∃ row ∈ w.deadLetterJobs, row.proofId = id

theorem safe_ok_bind {α : Type} {Q : Except PyExn α → World → Prop} {f : c.Resp → Service α}
    (h : ∀ r w' now, w' = c.effect now w → c.Replies w w' r → (f r).Safe Call.SemOk (fun _ _ => True) Q w') :
    (await c >>= f).Safe Call.SemOk (fun _ _ => True) Q w := by
  refine safe_await_bind trivial ?_ ?_
  · rintro r w' ⟨⟨now, hw, hr⟩, -⟩
    exact h r w' now hw hr
  · rintro e w' ⟨-, hok⟩
    cases hok

/-- A dead letter is recorded, whether or not there was one. -/
theorem letter_upsert {input : DeadLetterInput} {now : ℚ} (hw : w' = Call.effect now (.upsertDeadLetterJob input) w) :
    ∃ row ∈ w'.deadLetterJobs, row.proofId = input.proofId := by
  rw [show w' = w.upsertDeadLetterJob input from hw]
  by_cases hold : ∃ row ∈ w.deadLetterJobs, row.proofId = input.proofId
  · obtain ⟨row, hrow, hid⟩ := hold
    exact ⟨row.upsert input, mem_upsert.2 (.inr (.inl ⟨row, hrow, hid, rfl⟩)), hid⟩
  · push Not at hold
    exact ⟨_, mem_upsert.2 (.inr (.inr ⟨hold, rfl⟩)), rfl⟩

/-- **Where no call raises, a delivery of a job without attempts left ends it.** -/
theorem exceeded_ends {job : ProofJob} (hrow : w.proofJobs id = some job) (hid : job.proofId = id)
    (hlive : job.status.terminal = false) (hcount : previousAttempts job.metadata = S.maxAttempts) :
    (processProofJob S id).Safe Call.SemOk (fun _ _ => True) (fun r w' => r = .ok () ∧ DeadLettered id w') w := by
  rw [processProofJob_eq]
  refine safe_ok_bind fun _ w₁ _ hw₁ _ => safe_ok_bind fun row w₂ _ hw₂ hread => ?_
  have hsame : row = w.proofJobs id := by
    rw [show w = w₁ from hw₁.symm]
    exact hread
  have hrow₂ : w₂.proofJobs id = some job := by
    rw [hw₂, hw₁]
    exact hrow
  refine safe_gate (fun hterminal => ?_) fun job' hjob' _ => ?_
  · rw [hterminal job (hsame.trans hrow)] at hlive
    cases hlive
  obtain rfl : job' = job := Option.some.inj (hjob'.symm.trans (hsame.trans hrow))
  have hexceeded : S.maxAttempts < S.maxAttempts + 1 := by omega
  unfold deliverJob nextAttemptMetadata
  rw [hcount]
  simp only [decide_eq_true hexceeded, if_true]
  unfold maxAttemptsExceeded recordDeadLetterJob
  refine safe_ok_bind fun failedJob w₃ now₃ hw₃ _ => ?_
  have hrow₃ : ∃ row, w₃.proofJobs id = some row ∧ row.status = .failed := by
    rw [hw₃]
    exact ⟨_, proofJobs_updateProofJob hrow₂ _ now₃, rfl⟩
  obtain ⟨failed, hrow₃, hfailed⟩ := hrow₃
  refine safe_ok_bind fun _ w₄ now₄ hw₄ _ => safe_ok_bind fun _ w₅ now₅ hw₅ _ => ?_
  obtain ⟨letter, hmem, hletter⟩ := letter_upsert hw₅
  have hrow₅ : w₅.proofJobs id = some failed := by
    rw [hw₅, hw₄]
    exact hrow₃
  -- only now is the payload purged
  refine safe_await (.purgeSealedJobPayload id .maxAttempts) trivial ?_
  rintro (e | r) w₆ ⟨hs, hok⟩
  · cases hok
  obtain ⟨now₆, hw₆, -⟩ := hs
  rw [show w₆ = w₅.purgeSealedJobPayload id now₆ from hw₆]
  refine ⟨rfl, ⟨_, proofJobs_purge hrow₅ now₆, hfailed, rfl⟩, letter, ?_, hletter.trans hid⟩
  rw [deadLetterJobs_purge]
  exact hmem

/-! ## Runs -/

/-- **The attempts of a job are bounded.** In every run of deliveries one after the other, each of
which may crash, raise or return anywhere: no more deliveries come to the provider than attempts are
allowed, no step makes the counter smaller, and a delivery that finds all attempts used and in which
no call raises ends the job. -/
theorem attempts_bounded (S : WorkerSettings) (hmax : 1 ≤ S.maxAttempts) (w₀ : World) (new : NewJob) (now : ℚ)
    (hnew : new.metadata.get? "attempt_count" = none) {n : ℕ} {s : Pool World Call.Resp PyExn Unit}
    (hrun : CountedRun countsGenerate Call.Sem {processProofJob S new.proofId} (createdPool w₀ new now) n s) :
    (n : ℤ) ≤ S.maxAttempts ∧
    (∀ act s', Step Call.Sem {processProofJob S new.proofId} s act s' →
      attemptsOf new.proofId s.world ≤ attemptsOf new.proofId s'.world) ∧
    (∀ job r w', s.world.proofJobs new.proofId = some job → job.status.terminal = false →
      previousAttempts job.metadata = S.maxAttempts →
      (processProofJob S new.proofId).Returns Call.SemOk s.world r w' → r = .ok () ∧ DeadLettered new.proofId w') := by
  have hcreated : AttemptsInv S.maxAttempts new.proofId (createdPool w₀ new now).world 0 := by
    have hzero : previousAttempts new.metadata = 0 := by
      unfold previousAttempts
      rw [hnew]
    exact ⟨0, ⟨new.row now, Function.update_self .., rfl, hzero⟩, le_rfl, by push_cast; omega⟩
  have htask : ∀ p ∈ ({processProofJob S new.proofId} : Set (Service Unit)), ∀ w m,
      AttemptsInv S.maxAttempts new.proofId w m →
      p.KeepsCount countsGenerate Call.Sem (AttemptsInv S.maxAttempts new.proofId)
        (NoDecrease new.proofId) (w, m) := by
    rintro p rfl w m hw
    exact processProofJob_keeps hw
  obtain ⟨⟨a, ⟨row, hrow, hid, -⟩, -, hbound⟩, hcalls⟩ := counted_invariant htask hcreated (fun _ => rfl) hrun
  refine ⟨hbound, fun act s' hstep => ?_, fun job r w' hjob hlive hcount hreturns => ?_⟩
  · cases hstep with
    | start => exact le_rfl
    | call hi hs => exact hcalls _ _ _ hi _ _ hs
    | crash => exact le_rfl
  · obtain rfl : row = job := Option.some.inj (hrow.symm.trans hjob)
    exact safe_returns (exceeded_ends hjob hid hlive hcount) hreturns

/-- A first delivery that has come to the provider. -/
theorem first_attempt_counts : ∃ s,
    CountedRun countsGenerate Call.Sem {processProofJob demoWorker demoJob.proofId}
      (createdPool .empty demoJob 0) 1 s ∧
    ((1 : ℕ) : ℤ) ≤ demoWorker.maxAttempts := by
  have hstart : CountedRun countsGenerate Call.Sem {processProofJob demoWorker demoJob.proofId}
      (createdPool .empty demoJob 0) 0 (demoPool demoWorker) := by
    have hstep : Step Call.Sem {processProofJob demoWorker demoJob.proofId} (createdPool .empty demoJob 0)
        (.start 0 (processProofJob demoWorker demoJob.proofId)) (demoPool demoWorker) := .start rfl rfl
    exact CountedRun.refl.tail hstep fun _ _ hp => nomatch hp
  have hrun := countedRun_driveAt (i := 0) (fun c w =>
    demoAnswer_sem demoPayload true (fun _ => false) c w) 5 hstart
  exact ⟨_, hrun, (attempts_bounded demoWorker (by decide) .empty demoJob 0 rfl hrun).1⟩

end Vellum
