import Vellum.Proof.RunCalls
import Vellum.Proof.TaskCalls
import Vellum.Spec.Triage

/-!
# The triage of a failure follows its text

The class of a failure is that of the first group of markers one of which occurs in the text of the
exception, retryable groups first. The text of a schema failure is a path and a message of
jsonschema and has no marker of its own; that of a dual-track mismatch has one, behind the policy id,
the names and the values that are printed with it.

* `isIn_combined`: the failure reason of a runtime exception adds no marker.
* `recorded_letter`: the dead letter of a delivery carries the triage of its exception.
* `triage_iff`: when the two kinds of failures get their class.
-/

namespace Vellum

open Prog

variable {T : CaseTable} {text : String}

/-! ## Markers -/

/-- The markers of the classes that may be retried. -/
def retryableMarkers : List String := timeoutMarkers ++ dependencyMarkers ++ artifactMarkers

def allMarkers : List String := retryableMarkers ++ schemaMarkers ++ cryptoMarkers

/-- A marker of the list occurs in the text, in either case. -/
def Marked (T : CaseTable) (markers : List String) (text : String) : Prop :=
  ∃ m ∈ markers, isIn m (T.lowerText (strip text)) = true

/-- A marker begins and ends with no white space and does not overlap the failure reason. -/
structure MarkerOk (m : String) : Prop where
  head : ∃ c ∈ m.toList.head?, isSpace c = false
  last : ∃ c ∈ m.toList.getLast?, isSpace c = false
  apart : Apart "runtime_exception ".toList m.toList

theorem markerOk {m : String} (h : m ∈ allMarkers) : MarkerOk m := by
  have hall : ∀ m ∈ allMarkers, m.toList.head?.any (fun c => !isSpace c) = true ∧
      m.toList.getLast?.any (fun c => !isSpace c) = true ∧ Apart "runtime_exception ".toList m.toList := by
    decide +kernel
  obtain ⟨hhead, hlast, hapart⟩ := hall m h
  refine ⟨?_, ?_, hapart⟩
  · simpa [Option.any_eq_true] using hhead
  · simpa [Option.any_eq_true] using hlast

theorem ascii_of_all {l : List Char} (h : l.all (fun c => c.toNat < 128) = true) : ∀ c ∈ l, c.toNat < 128 := by
  simpa using h

theorem lower_reason : T.lowerText (strip "runtime_exception") = "runtime_exception" := by
  have hstrip : strip "runtime_exception" = "runtime_exception" := by decide +kernel
  have hascii : ∀ c ∈ "runtime_exception".toList, c.toNat < 128 := ascii_of_all (by decide +kernel)
  rw [hstrip, CaseTable.lowerText_ascii hascii]
  decide +kernel

/-- **The failure reason adds no marker.** -/
theorem isIn_combined {m message : String} (h : m ∈ allMarkers) :
    isIn m (strip ("runtime_exception" ++ " " ++ message)) = isIn m message := by
  have hok := markerOk h
  have hsplit : ("runtime_exception" ++ " " ++ message).toList = "runtime_exception ".toList ++ message.toList := by
    rw [String.toList_append]
    rfl
  unfold isIn
  rw [decide_eq_decide, infix_strip_iff hok.head hok.last, hsplit, infix_append_of_apart hok.apart]

theorem any_combined {markers : List String} (h : markers ⊆ allMarkers) :
    markers.any (isIn · (strip ("runtime_exception" ++ " " ++ T.lowerText (strip text)))) = true ↔
      Marked T markers text := by
  rw [List.any_eq_true]
  unfold Marked
  constructor
  · rintro ⟨m, hm, hin⟩
    rw [isIn_combined (h hm)] at hin
    exact ⟨m, hm, hin⟩
  · rintro ⟨m, hm, hin⟩
    refine ⟨m, hm, ?_⟩
    rw [isIn_combined (h hm)]
    exact hin

theorem marked_append {l l' : List String} : Marked T (l ++ l') text ↔ Marked T l text ∨ Marked T l' text := by
  unfold Marked
  constructor
  · rintro ⟨m, hm, hin⟩
    rcases List.mem_append.1 hm with hl | hl'
    · exact .inl ⟨m, hl, hin⟩
    · exact .inr ⟨m, hl', hin⟩
  · rintro (⟨m, hm, hin⟩ | ⟨m, hm, hin⟩)
    · exact ⟨m, List.mem_append_left _ hm, hin⟩
    · exact ⟨m, List.mem_append_right _ hm, hin⟩

/-! ## The class of a runtime exception -/

open Classical in
theorem any_eq_decide {markers : List String} (h : markers ⊆ allMarkers) :
    markers.any (isIn · (strip ("runtime_exception" ++ " " ++ T.lowerText (strip text)))) =
      decide (Marked T markers text) := by
  rw [Bool.eq_iff_iff, any_combined h, decide_eq_true_iff]

/-- The class and the verdict of a triage. -/
def FailureTriage.verdict (t : FailureTriage) : String × Bool := (t.errorClass, t.retryable)

open Classical in
/-- **The triage of a runtime exception**, by the markers in its text. -/
theorem classify_runtime : (classifyFailure T "runtime_exception" text).verdict =
    if Marked T timeoutMarkers text then ("timeout", true)
    else if Marked T dependencyMarkers text then ("dependency", true)
    else if Marked T artifactMarkers text then ("artifact", true)
    else if Marked T schemaMarkers text then ("schema", false)
    else if Marked T cryptoMarkers text then ("crypto", false)
    else ("unknown", false) := by
  have hreason : isIn "soft_time_limit_exceeded" "runtime_exception" = false := by decide +kernel
  have hmax : isIn "max_attempts_exceeded" "runtime_exception" = false := by decide +kernel
  unfold classifyFailure
  simp only [lower_reason, hreason, hmax, any_eq_decide (by decide : timeoutMarkers ⊆ allMarkers),
    any_eq_decide (by decide : dependencyMarkers ⊆ allMarkers),
    any_eq_decide (by decide : artifactMarkers ⊆ allMarkers), any_eq_decide (by decide : schemaMarkers ⊆ allMarkers),
    any_eq_decide (by decide : cryptoMarkers ⊆ allMarkers), Bool.false_or, decide_eq_true_eq, Bool.false_eq_true,
    if_false]
  split_ifs <;> rfl

/-- When a runtime exception is a schema failure. -/
theorem verdict_schema : (classifyFailure T "runtime_exception" text).verdict = ("schema", false) ↔
    ¬ Marked T retryableMarkers text ∧ Marked T schemaMarkers text := by
  unfold retryableMarkers
  rw [classify_runtime, marked_append, marked_append]
  split_ifs with h₁ h₂ h₃ h₄ h₅ <;> simp_all

/-- When one whose text has a marker of the crypto class gets that class. -/
theorem verdict_crypto (h : Marked T cryptoMarkers text) :
    (classifyFailure T "runtime_exception" text).verdict = ("crypto", false) ↔
      ¬ Marked T retryableMarkers text ∧ ¬ Marked T schemaMarkers text := by
  unfold retryableMarkers
  rw [classify_runtime, marked_append, marked_append]
  split_ifs with h₁ h₂ h₃ h₄ <;> simp_all

/-- The text of an error with the code of a mismatch has its marker. -/
theorem marked_mismatch {repr : Json → String} {e : FrameworkError} (h : e.code = "dual_track_mismatch") :
    Marked T cryptoMarkers ((PyExn.framework e).str repr) := by
  refine ⟨"dual_track_mismatch", by decide, ?_⟩
  have hok : MarkerOk "dual_track_mismatch" := markerOk (by decide)
  have hin : "dual_track_mismatch".toList <:+: ((PyExn.framework e).str repr).toList := by
    unfold PyExn.str errorStr
    dsimp only
    rw [h, String.append_assoc, String.append_assoc, String.toList_append]
    exact (List.prefix_append _ _).isInfix
  have hascii : ∀ c ∈ "dual_track_mismatch".toList, c.toNat < 128 := ascii_of_all (by decide +kernel)
  have hlower := CaseTable.lower_infix (T := T) hascii ((infix_strip_iff hok.head hok.last).2 hin)
  have hmap : "dual_track_mismatch".toList.map Char.toLower = "dual_track_mismatch".toList := by decide +kernel
  rw [hmap] at hlower
  unfold isIn
  exact decide_eq_true hlower

/-! ## The dead letter of a delivery -/

section Worker

variable {S : WorkerSettings} {proofId sealedPayload : String} {job : ProofJob} {attempts : AttemptMetadata}
  {decrypted : Json} {answer : Answers} {exc : PyExn} {input : DeadLetterInput}

/-- A call that records a dead letter records it with the triage. -/
def LetterOf (triage : FailureTriage) (c : Call) : Prop :=
  ∀ input, c = .upsertDeadLetterJob input → (input.errorClass, input.retryable) = triage.verdict

/-- A call that records no dead letter. -/
def NoLetter (c : Call) : Prop := ∀ input, c ≠ .upsertDeadLetterJob input

theorem recordFailure_letter {seen : Option Json} {site : Site} {reason error : String} :
    (recordFailure S proofId job attempts seen site reason error).Calls (LetterOf (S.classify reason error)) := by
  unfold recordFailure
  refine calls_bind (calls_await nofun) fun failedJob => ?_
  refine calls_bind (calls_await nofun) fun _ => ?_
  refine calls_bind (calls_await nofun) fun _ => ?_
  apply calls_await
  intro input hinput
  cases hinput
  rfl

/-- The handler of a runtime exception. -/
theorem handleException_letter {seen : Option Json} (hexc : exc ≠ .softTimeLimitExceeded) :
    (handleException S proofId job attempts seen exc).Calls
      (LetterOf (S.classify "runtime_exception" (exc.str S.repr))) := by
  cases exc with
  | cancelled => trivial
  | softTimeLimitExceeded => exact absurd rfl hexc
  | framework e => exact calls_bind recordFailure_letter fun _ => trivial
  | api e => exact calls_bind recordFailure_letter fun _ => trivial
  | other text => exact calls_bind recordFailure_letter fun _ => trivial

theorem proveJob_noLetter : (proveJob S proofId job decrypted).Calls NoLetter := by
  unfold proveJob
  refine calls_bind (calls_check _) fun privateInput => ?_
  refine calls_bind (calls_await nofun) fun result => ?_
  refine calls_bind (calls_await nofun) fun verified => ?_
  refine calls_bind (calls_check _) fun patch => ?_
  unfold completeJob
  refine calls_bind (calls_await nofun) fun _ => ?_
  refine calls_bind (calls_await nofun) fun _ => ?_
  refine calls_bind (calls_await nofun) fun _ => ?_
  exact calls_await nofun

theorem unsealPayload_noLetter : (unsealPayload S proofId sealedPayload).Calls NoLetter := by
  unfold unsealPayload
  refine calls_exceptException (calls_await nofun) fun exc => ?_
  exact calls_bind (calls_exceptException (calls_await nofun) fun _ => trivial) fun _ => trivial

/-- **The dead letter of a delivery carries the triage of its exception.** -/
theorem recorded_letter (hsealed : job.sealedJobPayload = some sealedPayload)
    (hunseal : answer (.unsealJobPayload sealedPayload) = .ok decrypted)
    (hprove : ((proveJob S proofId job decrypted).exec answer).2 = .error exc) (hexc : exc ≠ .softTimeLimitExceeded)
    (hmem : Call.upsertDeadLetterJob input ∈ ((executeJob S proofId job attempts).exec answer).1) :
    (input.errorClass, input.retryable) = (S.classify "runtime_exception" (exc.str S.repr)).verdict := by
  have hunsealed : ((unsealPayload S proofId sealedPayload).exec answer).2 = .ok decrypted :=
    exec_exceptException_of_ok (exec_await_eq hunseal)
  unfold executeJob at hmem
  rw [hsealed] at hmem
  dsimp only at hmem
  rcases mem_exec_andThen.1 hmem with hbefore | hrest
  · exact absurd rfl (exec_calls unsealPayload_noLetter _ hbefore input)
  · rw [hunsealed] at hrest
    rcases mem_exec_andThen.1 hrest with hbefore | hhandler
    · exact absurd rfl (exec_calls proveJob_noLetter _ hbefore input)
    · rw [hprove] at hhandler
      exact exec_calls (handleException_letter hexc) _ hhandler input rfl

/-- The private input of a delivery is rejected by the schema of its circuit. -/
def SchemaRejects (S : WorkerSettings) (job : ProofJob) (decrypted : Json) (text : String) : Prop :=
  ∃ inputSchema privateInput, preparedInput job decrypted = .ok privateInput ∧
    S.circuits job.circuitId = some inputSchema ∧ S.validateSchema inputSchema privateInput = .error text

/-- What `preparedInput` has read. -/
theorem preparedInput_ok {privateInput : Json} (h : preparedInput job decrypted = .ok privateInput) :
    ∃ fields input, decrypted = .obj fields ∧ fields.lookup "private_input" = some (.obj input) ∧
      (if job.circuitId = defaultBatchCircuitId then
        ((batchPrepareFromPrivateInput (.obj input)).map PreparedBatchInput.toCircuitInput).mapError PyExn.other
      else .ok (.obj input)) = .ok privateInput := by
  unfold preparedInput at h
  cases decrypted with
  | obj fields =>
    refine ⟨fields, ?_⟩
    dsimp only at h
    obtain ⟨fields', hfields, h⟩ := bind_ok.1 h
    cases hfields
    cases hlookup : fields.lookup "private_input" with
    | none =>
      rw [hlookup] at h
      cases h
    | some value =>
      rw [hlookup] at h
      cases value with
      | obj input => exact ⟨input, rfl, rfl, h⟩
      | _ => cases h
  | _ => cases h

theorem proverInput_rejected (h : SchemaRejects S job decrypted text) :
    proverInput S job decrypted = .error (.other text) := by
  obtain ⟨inputSchema, privateInput, hprepared, hcircuit, hrejected⟩ := h
  obtain ⟨fields, input, rfl, hlookup, hinput⟩ := preparedInput_ok hprepared
  have hlast : (Except.mapError PyExn.other (S.validateSchema inputSchema privateInput) >>= fun _ =>
      (pure privateInput : Except PyExn Json)) = .error (.other text) := by
    rw [hrejected]
    rfl
  have hbind : ∀ {α β : Type} (a : α) (f : α → Except PyExn β), (Except.ok a >>= f) = f a := fun _ _ => rfl
  unfold proverInput
  dsimp only
  rw [hbind, hlookup]
  dsimp only
  by_cases hbatch : job.circuitId = defaultBatchCircuitId
  · rw [if_pos hbatch] at hinput
    change (if job.circuitId = defaultBatchCircuitId then _ else _) = _
    rw [if_pos hbatch, hinput, hcircuit]
    exact hlast
  · rw [if_neg hbatch] at hinput
    change (if job.circuitId = defaultBatchCircuitId then _ else _) = _
    rw [if_neg hbatch, hcircuit]
    cases hinput
    exact hlast

/-- What the handler calls the delivery calls. -/
theorem mem_executeJob (hsealed : job.sealedJobPayload = some sealedPayload)
    (hunseal : answer (.unsealJobPayload sealedPayload) = .ok decrypted)
    (hprove : ((proveJob S proofId job decrypted).exec answer).2 = .error exc) {c : Call}
    (hmem : c ∈ ((handleException S proofId job attempts (some decrypted) exc).exec answer).1) :
    c ∈ ((executeJob S proofId job attempts).exec answer).1 := by
  have hunsealed : ((unsealPayload S proofId sealedPayload).exec answer).2 = .ok decrypted :=
    exec_exceptException_of_ok (exec_await_eq hunseal)
  unfold executeJob
  rw [hsealed]
  apply mem_exec_andThen.2
  right
  dsimp only
  rw [hunsealed]
  apply mem_exec_andThen.2
  right
  rw [hprove]
  exact hmem

/-- A rejected private input ends the `try` body. -/
theorem proveJob_rejected (h : SchemaRejects S job decrypted text) :
    ((proveJob S proofId job decrypted).exec answer).2 = .error (.other text) := by
  unfold proveJob
  rw [proverInput_rejected h]
  rfl

/-- The triage of a rejected private input is that of the text alone. -/
theorem rejected_letter {J : SchemaLibrary} (hsealed : job.sealedJobPayload = some sealedPayload)
    (hunseal : answer (.unsealJobPayload sealedPayload) = .ok decrypted)
    (hrejects : SchemaRejects (S.deployed T J) job decrypted text)
    (hmem : Call.upsertDeadLetterJob input ∈ ((executeJob (S.deployed T J) proofId job attempts).exec answer).1) :
    (input.errorClass, input.retryable) = (classifyFailure T "runtime_exception" text).verdict :=
  recorded_letter hsealed hunseal (proveJob_rejected hrejects) nofun hmem

/-- **When the two kinds of failures get their class.** A rejected private input is triaged `schema` if
the text of its error happens to have a marker of that class and none of a retryable one; a dual-track
mismatch is triaged `crypto` if no marker of a class before occurs in what is printed with it. -/
theorem triage_iff {J : SchemaLibrary} (hsealed : job.sealedJobPayload = some sealedPayload)
    (hunseal : answer (.unsealJobPayload sealedPayload) = .ok decrypted)
    (hmem : Call.upsertDeadLetterJob input ∈ ((executeJob (S.deployed T J) proofId job attempts).exec answer).1) :
    (∀ text, SchemaRejects (S.deployed T J) job decrypted text →
      (input.errorClass = "schema" ∧ input.retryable = false ↔
        ¬ Marked T retryableMarkers text ∧ Marked T schemaMarkers text)) ∧
    ∀ e : FrameworkError, e.code = "dual_track_mismatch" →
      ((proveJob (S.deployed T J) proofId job decrypted).exec answer).2 = .error (.framework e) →
      (input.errorClass = "crypto" ∧ input.retryable = false ↔
        ¬ Marked T retryableMarkers ((PyExn.framework e).str S.repr) ∧
          ¬ Marked T schemaMarkers ((PyExn.framework e).str S.repr)) := by
  constructor
  · intro text hrejects
    rw [← verdict_schema, ← rejected_letter hsealed hunseal hrejects hmem, Prod.mk.injEq]
  · intro e hcode hprove
    have hverdict := recorded_letter hsealed hunseal hprove nofun hmem
    have hclass : (input.errorClass, input.retryable) =
        (classifyFailure T "runtime_exception" ((PyExn.framework e).str S.repr)).verdict := hverdict
    rw [← verdict_crypto (marked_mismatch hcode), ← hclass, Prod.mk.injEq]

end Worker

/-! ## A missing field -/

/-- The tables on ASCII. -/
def asciiTable : CaseTable where
  lower c := [c.toLower]
  cased c := c.isAlpha
  ignorable c := c ∈ [':', '.', '_']
  ascii _ _ := rfl

def balancesSchema : Json := .obj [("required", .arr [.str "balances"])]

/-- What jsonschema finds of an object without the required field. -/
def requiredLibrary : SchemaLibrary where
  checkSchema _ := none
  iterErrors _ privateInput :=
    if (privateInput.get? "balances").isSome then [] else [([], "'balances' is a required property")]

def balancesWorker : WorkerSettings := { demoWorker with circuits := fun _ => some balancesSchema }

/-- Every call returns. -/
def letterAnswers : Answers
  | .unsealJobPayload _ => .ok demoPayload
  | .updateProofJob .. => .ok none
  | .purgeSealedJobPayload .. => .ok ()
  | .appendEvent _ => .ok ()
  | .upsertDeadLetterJob _ => .ok ()
  | _ => .error (.other "not called")

theorem rejected_demo : SchemaRejects (balancesWorker.deployed asciiTable requiredLibrary) (demoJob.row 0) demoPayload
    "$: 'balances' is a required property" := by
  refine ⟨balancesSchema, .obj [("credit_score", .int 700)], rfl, rfl, ?_⟩
  have herrors : requiredLibrary.iterErrors balancesSchema (.obj [("credit_score", .int 700)]) =
      [([], "'balances' is a required property")] := rfl
  change requiredLibrary.validatePrivateInputSchema _ _ = _
  unfold SchemaLibrary.validatePrivateInputSchema
  rw [herrors, List.mergeSort_singleton]
  rfl

theorem letter_demo : ∃ input, Call.upsertDeadLetterJob input ∈
    ((executeJob (balancesWorker.deployed asciiTable requiredLibrary) "p1" (demoJob.row 0) ⟨1, 3⟩).exec
      letterAnswers).1 := by
  have hhandler : ∃ input, Call.upsertDeadLetterJob input ∈
      ((handleException (balancesWorker.deployed asciiTable requiredLibrary) "p1" (demoJob.row 0) ⟨1, 3⟩
        (some demoPayload) (.other "$: 'balances' is a required property")).exec letterAnswers).1 :=
    ⟨_, .tail _ (.tail _ (.tail _ (.head _)))⟩
  obtain ⟨input, hmem⟩ := hhandler
  exact ⟨input, mem_executeJob rfl rfl (proveJob_rejected rejected_demo) hmem⟩

/-! ## Tracks that differ -/

/-- The policy `p` declares no outputs. -/
def mismatchWorker : WorkerSettings :=
  { demoWorker with
    circuits := fun _ => some balancesSchema
    policies := fun _ => some ⟨"p", "1.0.0", "credit_check", "r", .empty, .empty⟩ }

/-- A job of a run of that policy. -/
def mismatchJob : ProofJob := { demoJob.row 0 with metadata := ⟨[("policy_id", .str "p")], by simp⟩ }

/-- The reference track has failed. -/
def mismatchPayload : Json :=
  .obj [("private_input", .obj [("balances", .arr [])]),
    ("dual_track_reference", .obj [("decision", .str "fail"), ("outputs", .obj [])])]

/-- The proof passes. -/
def mismatchAnswers : Answers
  | .unsealJobPayload _ => .ok mismatchPayload
  | .generate .. => .ok ⟨.null, [.str "1"]⟩
  | .verify .. => .ok true
  | .updateProofJob .. => .ok none
  | .purgeSealedJobPayload .. => .ok ()
  | .appendEvent _ => .ok ()
  | .upsertDeadLetterJob _ => .ok ()
  | _ => .error (.other "not called")

def mismatchError : FrameworkError :=
  frameworkError "dual_track_mismatch" "Reference-track and circuit-track results diverged"
    [("policy_id", .str "p"), ("reference_decision", .str "fail"), ("circuit_decision", .str "pass"),
      ("reference_outputs", .obj []), ("circuit_outputs", .obj [])]

theorem mismatch_raised : ((proveJob (mismatchWorker.deployed asciiTable requiredLibrary) "p1" mismatchJob
    mismatchPayload).exec mismatchAnswers).2 = .error (.framework mismatchError) := by
  have hvalid : requiredLibrary.validatePrivateInputSchema balancesSchema (.obj [("balances", .arr [])]) = .ok () := by
    have herrors : requiredLibrary.iterErrors balancesSchema (.obj [("balances", .arr [])]) = [] := rfl
    unfold SchemaLibrary.validatePrivateInputSchema
    rw [herrors, List.mergeSort_nil]
    rfl
  have hinput : proverInput (mismatchWorker.deployed asciiTable requiredLibrary) mismatchJob mismatchPayload =
      .ok (.obj [("balances", .arr [])]) := by
    change ((requiredLibrary.validatePrivateInputSchema balancesSchema (.obj [("balances", .arr [])])).mapError
      PyExn.other >>= fun _ => pure (Json.obj [("balances", .arr [])])) = _
    rw [hvalid]
    rfl
  unfold proveJob
  rw [hinput]
  rfl

theorem mismatch_letter : ∃ input, Call.upsertDeadLetterJob input ∈
    ((executeJob (mismatchWorker.deployed asciiTable requiredLibrary) "p1" mismatchJob ⟨1, 3⟩).exec
      mismatchAnswers).1 := by
  have hhandler : ∃ input, Call.upsertDeadLetterJob input ∈
      ((handleException (mismatchWorker.deployed asciiTable requiredLibrary) "p1" mismatchJob ⟨1, 3⟩
        (some mismatchPayload) (.framework mismatchError)).exec mismatchAnswers).1 :=
    ⟨_, .tail _ (.tail _ (.tail _ (.head _)))⟩
  obtain ⟨input, hmem⟩ := hhandler
  exact ⟨input, mem_executeJob rfl rfl mismatch_raised hmem⟩

/-- A rejected private input, and two tracks that differ. -/
theorem triage_iff_demo :
    (∃ input, Call.upsertDeadLetterJob input ∈
      ((executeJob (balancesWorker.deployed asciiTable requiredLibrary) "p1" (demoJob.row 0) ⟨1, 3⟩).exec
        letterAnswers).1 ∧
      (input.errorClass = "schema" ∧ input.retryable = false ↔
        ¬ Marked asciiTable retryableMarkers "$: 'balances' is a required property" ∧
          Marked asciiTable schemaMarkers "$: 'balances' is a required property")) ∧
    ∃ input, Call.upsertDeadLetterJob input ∈
      ((executeJob (mismatchWorker.deployed asciiTable requiredLibrary) "p1" mismatchJob ⟨1, 3⟩).exec
        mismatchAnswers).1 ∧
      (input.errorClass = "crypto" ∧ input.retryable = false ↔
        ¬ Marked asciiTable retryableMarkers ((PyExn.framework mismatchError).str demoWorker.repr) ∧
          ¬ Marked asciiTable schemaMarkers ((PyExn.framework mismatchError).str demoWorker.repr)) := by
  constructor
  · obtain ⟨input, hmem⟩ := letter_demo
    have hiff := triage_iff rfl rfl hmem
    exact ⟨input, hmem, hiff.1 _ rejected_demo⟩
  · obtain ⟨input, hmem⟩ := mismatch_letter
    have hiff := triage_iff rfl rfl hmem
    exact ⟨input, hmem, hiff.2 mismatchError rfl mismatch_raised⟩

/-- **A rejected private input is not triaged as one**: the text has no marker of the class. -/
theorem schema_failure_unknown : ¬ ∀ (T : CaseTable) (J : SchemaLibrary) (S : WorkerSettings) (answer : Answers)
    (proofId sealedPayload text : String) (job : ProofJob) (attempts : AttemptMetadata) (decrypted : Json)
    (input : DeadLetterInput), job.sealedJobPayload = some sealedPayload →
    answer (.unsealJobPayload sealedPayload) = .ok decrypted →
    Call.upsertDeadLetterJob input ∈ ((executeJob (S.deployed T J) proofId job attempts).exec answer).1 →
    SchemaRejects (S.deployed T J) job decrypted text → input.errorClass = "schema" ∧ input.retryable = false := by
  intro h
  obtain ⟨input, hmem⟩ := letter_demo
  obtain ⟨hclass, hretryable⟩ := h asciiTable requiredLibrary balancesWorker letterAnswers "p1" "vault:v1:c2VhbGVk"
    "$: 'balances' is a required property" (demoJob.row 0) ⟨1, 3⟩ demoPayload input rfl rfl hmem rejected_demo
  have hverdict := rejected_letter rfl rfl rejected_demo hmem
  rw [hclass, hretryable] at hverdict
  obtain ⟨-, m, hm, hin⟩ := verdict_schema.1 hverdict.symm
  revert m
  decide +kernel

end Vellum
