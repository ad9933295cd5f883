import Vellum.Proof.Calls
import Vellum.Spec.PolicyEngine

/-!
# Verified proofs

Whether a delivery completes a job, or a policy run stores an attestation, on a proof the
provider rejected. A rejected proof only turns the circuit's decision into `fail`, which the
dual-track check compares with the reference; a job without a policy has no such check.

* `completionPatch_false`: a rejected proof gets past the worker's check iff it is `Unchecked`.
* `delivery_verified_iff`, `run_verified_iff`: exactly when each of the two stores verified
  proofs only.
-/

namespace Vellum

open Prog

/-! ## What is answered, verified and stored -/

/-- What a delivery or a run is answered: the row at the status gate, the row after the update
to `running`, the decrypted payload, the stored evidence, the proof, and the verdict on it. -/
structure Inputs where
  gate : Option ProofJob
  running : Option ProofJob
  decrypted : Json
  evidence : Json
  generated : ProofResult
  verdict : Bool

/-- The circuits, proofs and public signals that were verified, and the attestations stored. -/
structure Ledger where
  verified : List (String × Json × List Json)
  attested : List AttestationInput

namespace Ledger

def empty : Ledger := ⟨[], []⟩

/-- What an answered call adds. -/
def record (w : Ledger) : (c : Call) → c.Resp → Ledger
  | .verify circuitId proof publicSignals, valid =>
    bif valid then { w with verified := (circuitId, proof, publicSignals) :: w.verified } else w
  | .createAttestation input, _ => { w with attested := input :: w.attested }
  | _, _ => w

end Ledger

namespace Inputs

variable (x : Inputs)

/-- The answers of these inputs; the others are free. -/
def Answers : (c : Call) → c.Resp → Prop
  | .getProofJob _, r => r = x.gate
  | .updateProofJob _ u, r => u.status = .running → r = x.running
  | .unsealJobPayload _, r => r = x.decrypted
  | .getEvidence _, r => r = x.evidence
  | .generate .., r => r = x.generated
  | .verify .., r => r = x.verdict
  | _, _ => True

/-- Any call may raise. -/
def Sem (c : Call) (w : Ledger) (a : Except PyExn c.Resp) (w' : Ledger) : Prop :=
  match a with
  | .ok r => x.Answers c r ∧ w' = w.record c r
  | .error _ => w' = w

/-- The row the worker proves; a row keeps its circuit. -/
def job : Option ProofJob := x.running <|> x.gate

end Inputs

/-- A call stores a proof only if it was verified, for the circuit it is stored under. -/
def Backed (job : Option ProofJob) : Call → Ledger → Prop
  | .updateProofJob _ u, w => u.status = .completed → ∃ row proof publicSignals,
      job = some row ∧ u.proof = some proof ∧ u.publicSignals = some publicSignals ∧
        (row.circuitId, proof, publicSignals) ∈ w.verified
  | .createAttestation a, w => (a.circuitId, a.proof, a.publicSignals) ∈ w.verified
  | _, _ => True

/-- A delivery completes its job on verified proofs only. -/
def DeliveryVerified (S : WorkerSettings) (proofId : String) (x : Inputs) : Prop :=
  (processProofJob S proofId).Safe x.Sem (Backed x.job) (fun _ _ => True) .empty

/-- What a run returns stands for an attestation of a verified proof. -/
def ResultVerified : Except PyExn PolicyRunResult → Ledger → Prop
  | .ok r, w => ∃ a ∈ w.attested, a.attestationId = r.attestationId ∧ a.runId = r.runId ∧
      (a.circuitId, a.proof, a.publicSignals) ∈ w.verified
  | .error _, _ => True

/-- A policy run attests verified proofs only. -/
def RunVerified (E : PolicyEngine) (request : PolicyRunRequest) (runId : String) (x : Inputs) : Prop :=
  (E.run request runId).Safe x.Sem (Backed none) ResultVerified .empty

/-! ## Where the verdict is not checked -/

/-- The declared outputs can be read from the signals, and they are the reference's. -/
def SameOutputs (repr : Json → String) (policyId : String) (manifest : PolicyPackManifest)
    (outputs : List (String × Json)) (publicSignals : List Json) : Prop :=
  ∃ circuit, circuitOutputs repr policyId manifest.differentialOutputs publicSignals = .ok circuit ∧
    Json.pyEq (.obj outputs) (.obj circuit) = true

/-- The worker lets a rejected proof of the job pass: the job is not a policy run, or its
reference fails with the outputs of the signals. -/
def Unchecked (S : WorkerSettings) (job : ProofJob) (decrypted : Json) (publicSignals : List Json) : Prop :=
  ∀ policyId, policyIdOf job = some policyId → ∃ manifest outputs, S.policies policyId = some manifest ∧
    sealedReference decrypted = .ok (.fail, outputs) ∧ SameOutputs S.repr policyId manifest outputs publicSignals

/-- The delivery gets as far as a proof, and its verdict is not checked. -/
def Inputs.DeliverySlips (x : Inputs) (S : WorkerSettings) : Prop :=
  ∃ gate job sealedPayload input, x.gate = some gate ∧ x.job = some job ∧ gate.status.terminal = false ∧
    (nextAttemptMetadata gate.metadata S.maxAttempts).2 = false ∧ job.sealedJobPayload = some sealedPayload ∧
    proverInput S job x.decrypted = .ok input ∧ Unchecked S job x.decrypted x.generated.publicSignals

/-- The evidence of a run. -/
def Inputs.payload (x : Inputs) (request : PolicyRunRequest) : Json :=
  match request.evidence with
  | .inline payload => payload
  | .ref _ => x.evidence

/-- The run gets as far as a proof, and its reference fails with the outputs of the signals. -/
def Inputs.RunSlips (x : Inputs) (E : PolicyEngine) (request : PolicyRunRequest) : Prop :=
  ∃ manifest parameters reference, E.policies request.policyId = some manifest ∧
    E.referenceRun request manifest (x.payload request) = .ok (parameters, reference) ∧
    reference.decision = .fail ∧
    SameOutputs E.repr request.policyId manifest reference.outputs x.generated.publicSignals

/-! ## The dual-track check of a rejected proof -/

theorem assertDualTrackConsistency_ok {policyId : String} {decision : PolicyDecision} {outputs : List (String × Json)}
    {circuit : DualTrackCircuitResult} {u : Unit} :
    assertDualTrackConsistency policyId decision outputs circuit = .ok u ↔
      decision = circuit.decision ∧ Json.pyEq (.obj outputs) (.obj circuit.outputs) = true := by
  unfold assertDualTrackConsistency
  split_ifs with h
  · constructor
    · intro hraise
      cases hraise
    · rintro ⟨hd, ho⟩
      rcases h with h | h
      · exact absurd hd h
      · exact absurd ho h
  · push Not at h
    exact ⟨fun _ => h, fun _ => rfl⟩

theorem evaluateCircuitTrack_false {repr : Json → String} {policyId : String} {expectedAttestation : Dict Json}
    {differentialOutputs : Dict DifferentialOutputSpec} {publicSignals : List Json} {circuit : DualTrackCircuitResult} :
    evaluateCircuitTrack repr policyId expectedAttestation differentialOutputs publicSignals false = .ok circuit ↔
      circuit.decision = .fail ∧
        circuitOutputs repr policyId differentialOutputs publicSignals = .ok circuit.outputs := by
  have hdecision : circuitDecision repr policyId expectedAttestation publicSignals false = .ok .fail := rfl
  unfold evaluateCircuitTrack
  simp only [hdecision, bind_ok, pure_ok, Except.ok.injEq]
  constructor
  · rintro ⟨_, rfl, outputs, houtputs, rfl⟩
    exact ⟨rfl, houtputs⟩
  · rintro ⟨hd, houtputs⟩
    exact ⟨.fail, rfl, circuit.outputs, houtputs, by rw [← hd]⟩

/-- Both tracks of a rejected proof agree iff the reference fails with the outputs of the signals. -/
theorem tracks_false {repr : Json → String} {policyId : String} {manifest : PolicyPackManifest}
    {decision : PolicyDecision} {outputs : List (String × Json)} {publicSignals : List Json} :
    (∃ circuit, evaluateCircuitTrack repr policyId manifest.expectedAttestation manifest.differentialOutputs
        publicSignals false = .ok circuit ∧ assertDualTrackConsistency policyId decision outputs circuit = .ok ()) ↔
      decision = .fail ∧ SameOutputs repr policyId manifest outputs publicSignals := by
  simp only [evaluateCircuitTrack_false, assertDualTrackConsistency_ok]
  constructor
  · rintro ⟨circuit, ⟨hfail, hcircuit⟩, hdecision, houtputs⟩
    exact ⟨hdecision.trans hfail, circuit.outputs, hcircuit, houtputs⟩
  · rintro ⟨hfail, circuit, hcircuit, houtputs⟩
    exact ⟨⟨.fail, circuit⟩, ⟨rfl, hcircuit⟩, hfail, houtputs⟩

variable {S : WorkerSettings} {E : PolicyEngine} {x : Inputs}

theorem dualTrackPatch_false {policyId : String} {decrypted : Json} {publicSignals : List Json} :
    (∃ patch, dualTrackPatch S policyId decrypted publicSignals false = .ok patch) ↔
      ∃ manifest outputs, S.policies policyId = some manifest ∧ sealedReference decrypted = .ok (.fail, outputs) ∧
        SameOutputs S.repr policyId manifest outputs publicSignals := by
  unfold dualTrackPatch
  cases hm : S.policies policyId with
  | none => simp [raiseOther, bind_ok]
  | some manifest =>
    simp only [bind_ok, pure_ok]
    constructor
    · rintro ⟨patch, _, hmanifest, ⟨decision, outputs⟩, href, circuit, hcircuit, _, hassert, -⟩
      obtain rfl := Except.ok.inj hmanifest
      obtain ⟨rfl, hsame⟩ := tracks_false.1 ⟨circuit, hcircuit, hassert⟩
      exact ⟨manifest, outputs, rfl, href, hsame⟩
    · rintro ⟨_, outputs, hmanifest, href, hsame⟩
      obtain rfl := Option.some.inj hmanifest
      obtain ⟨circuit, hcircuit, hassert⟩ := tracks_false.2 ⟨rfl, hsame⟩
      exact ⟨_, manifest, rfl, (.fail, outputs), href, circuit, hcircuit, (), hassert, rfl⟩

/-- **A rejected proof gets past the worker's check iff nothing checks it.** -/
theorem completionPatch_false {job : ProofJob} {decrypted : Json} {publicSignals : List Json} :
    (∃ patch, completionPatch S job decrypted publicSignals false = .ok patch) ↔
      Unchecked S job decrypted publicSignals := by
  unfold completionPatch Unchecked
  cases policyIdOf job with
  | none => simp
  | some policyId =>
    simp only [Option.some.injEq, forall_eq']
    rw [← dualTrackPatch_false]
    cases dualTrackPatch S policyId decrypted publicSignals false <;> simp [Except.map]

theorem circuitRun_false {request : PolicyRunRequest} {manifest : PolicyPackManifest}
    {reference : DualTrackReferenceResult} {publicSignals : List Json} :
    (∃ circuit, E.circuitRun request manifest reference publicSignals false = .ok circuit) ↔
      reference.decision = .fail ∧
        SameOutputs E.repr request.policyId manifest reference.outputs publicSignals := by
  rw [← tracks_false]
  unfold PolicyEngine.circuitRun
  simp only [bind_ok, pure_ok]
  constructor
  · rintro ⟨_, circuit, hcircuit, _, hassert, -⟩
    exact ⟨circuit, hcircuit, hassert⟩
  · rintro ⟨circuit, hcircuit, hassert⟩
    exact ⟨circuit, circuit, hcircuit, (), hassert, rfl⟩

/-! ## Rules -/

variable {α : Type} {job : Option ProofJob} {Q : Except PyExn α → Ledger → Prop} {w : Ledger}

/-- A call, when nothing is asked of an outcome that raises. -/
theorem safe_call_iff (hQ : ∀ e w, Q (.error e) w) {c : Call} {f : c.Resp → Service α} :
    (await c >>= f).Safe x.Sem (Backed job) Q w ↔
      Backed job c w ∧ ∀ r, x.Answers c r → (f r).Safe x.Sem (Backed job) Q (w.record c r) := by
  constructor
  · rintro ⟨hbacked, hnext⟩
    exact ⟨hbacked, fun r hr => hnext (.ok r) _ ⟨hr, rfl⟩⟩
  · rintro ⟨hbacked, hnext⟩
    refine safe_await_bind hbacked ?_ (fun e w' _ => hQ e w')
    rintro r w' ⟨hr, rfl⟩
    exact hnext r hr

theorem safe_check_iff (hQ : ∀ e w, Q (.error e) w) {β : Type} {r : Except PyExn β} {f : β → Service α} :
    (check r >>= f).Safe x.Sem (Backed job) Q w ↔ ∀ b, r = .ok b → (f b).Safe x.Sem (Backed job) Q w := by
  constructor
  · rintro h b rfl
    exact h
  · intro h
    exact safe_check_bind h (fun e _ => hQ e w)

/-! ## A delivery -/

section Delivery

variable {proofId : String} {row : ProofJob} {attempts : AttemptMetadata} {decrypted : Json}

/-- The handlers complete nothing. -/
theorem safe_handleException {seen : Option Json} {exc : PyExn} :
    (handleException S proofId row attempts seen exc).Safe x.Sem (Backed job) (fun _ _ => True) w := by
  have hrecord (site : Site) (failureReason error : String) (f : Unit → Service Unit)
      (hf : ∀ w, (f ()).Safe x.Sem (Backed job) (fun _ _ => True) w) :
      (recordFailure S proofId row attempts seen site failureReason error >>= f).Safe x.Sem (Backed job)
        (fun _ _ => True) w := by
    refine safe_bind ?_
    unfold recordFailure
    refine (safe_call_iff (fun _ _ => trivial)).2 ⟨(by rintro ⟨⟩), fun _ _ => ?_⟩
    refine (safe_call_iff (fun _ _ => trivial)).2 ⟨trivial, fun _ _ => ?_⟩
    refine (safe_call_iff (fun _ _ => trivial)).2 ⟨trivial, fun _ _ => ?_⟩
    refine safe_await _ trivial ?_
    rintro (e | _) w' _
    · trivial
    · exact hf w'
  unfold handleException
  split
  · trivial
  · exact hrecord _ _ _ _ (fun _ => trivial)
  · exact hrecord _ _ _ _ (fun _ => trivial)

theorem safe_maxAttemptsExceeded :
    (maxAttemptsExceeded S proofId row attempts).Safe x.Sem (Backed job) (fun _ _ => True) w := by
  unfold maxAttemptsExceeded recordDeadLetterJob
  refine (safe_call_iff (fun _ _ => trivial)).2 ⟨(by rintro ⟨⟩), fun _ _ => ?_⟩
  refine (safe_call_iff (fun _ _ => trivial)).2 ⟨trivial, fun _ _ => ?_⟩
  refine (safe_call_iff (fun _ _ => trivial)).2 ⟨trivial, fun _ _ => ?_⟩
  exact safe_await _ trivial (fun _ _ _ => trivial)

/-- The job is completed on a verified proof iff the proof was verified before. -/
theorem safe_completeJob_iff {result : ProofResult} {patch : Option (List (String × Json))} :
    (completeJob S proofId row result patch).Safe x.Sem (Backed (some row)) (fun _ _ => True) w ↔
      (row.circuitId, result.proof, result.publicSignals) ∈ w.verified := by
  constructor
  · intro h
    obtain ⟨-, h⟩ := (safe_call_iff (fun _ _ => trivial)).1 h
    obtain ⟨hbacked, -⟩ := (safe_call_iff (fun _ _ => trivial)).1 (h () trivial)
    obtain ⟨_, _, _, hrow, hproof, hsignals, hmem⟩ := hbacked rfl
    cases hrow
    cases hproof
    cases hsignals
    exact hmem
  · intro hmem
    refine (safe_call_iff (fun _ _ => trivial)).2 ⟨trivial, fun _ _ => ?_⟩
    refine (safe_call_iff (fun _ _ => trivial)).2 ⟨?_, fun _ _ => ?_⟩
    · exact fun _ => ⟨row, _, _, rfl, rfl, rfl, hmem⟩
    · refine (safe_call_iff (fun _ _ => trivial)).2 ⟨trivial, fun _ _ => ?_⟩
      exact safe_await _ trivial (fun _ _ _ => trivial)

/-- After one verdict the ledger holds the proof iff the verdict is true. -/
theorem mem_record_verify {circuitId : String} {proof : Json} {publicSignals : List Json} {valid : Bool} :
    (circuitId, proof, publicSignals) ∈
        (Ledger.empty.record (.verify circuitId proof publicSignals) valid).verified ↔ valid = true := by
  cases valid with
  | false => exact iff_of_false List.not_mem_nil Bool.false_ne_true
  | true => exact iff_of_true List.mem_cons_self rfl

/-- The body of the `try`: whatever gets past the check was verified. -/
theorem safe_proveJob_iff :
    (proveJob S proofId row x.decrypted).Safe x.Sem (Backed (some row)) (fun _ _ => True) .empty ↔
      ∀ input patch, proverInput S row x.decrypted = .ok input →
        completionPatch S row x.decrypted x.generated.publicSignals x.verdict = .ok patch → x.verdict = true := by
  constructor
  · intro h input patch hinput hpatch
    have hgenerate := (safe_check_iff (fun _ _ => trivial)).1 h input hinput
    have hverify := ((safe_call_iff (fun _ _ => trivial)).1 hgenerate).2 x.generated rfl
    have hcheck := ((safe_call_iff (fun _ _ => trivial)).1 hverify).2 x.verdict rfl
    have hcomplete := (safe_check_iff (fun _ _ => trivial)).1 hcheck patch hpatch
    exact mem_record_verify.1 (safe_completeJob_iff.1 hcomplete)
  · intro h
    refine (safe_check_iff (fun _ _ => trivial)).2 fun input hinput => ?_
    refine (safe_call_iff (fun _ _ => trivial)).2 ⟨trivial, ?_⟩
    rintro _ rfl
    refine (safe_call_iff (fun _ _ => trivial)).2 ⟨trivial, ?_⟩
    rintro _ rfl
    refine (safe_check_iff (fun _ _ => trivial)).2 fun patch hpatch => ?_
    exact safe_completeJob_iff.2 (mem_record_verify.2 (h input patch hinput hpatch))

/-- The `try` statement: the handlers need nothing, so only its body counts. -/
theorem safe_tryCatch_handle {p : Service Unit} {seen : Option Json} :
    (p.tryCatch (handleException S proofId row attempts seen)).Safe x.Sem (Backed job) (fun _ _ => True) w ↔
      p.Safe x.Sem (Backed job) (fun _ _ => True) w := by
  unfold Prog.tryCatch
  rw [safe_andThen_iff]
  constructor
  · exact safe_mono fun _ _ _ => trivial
  · refine safe_mono ?_
    rintro (e | _) w -
    · exact safe_handleException
    · trivial

/-- The payload is decrypted, or the delivery goes to its handler. -/
theorem safe_unsealPayload_iff {sealedPayload : String} {P : Except PyExn Json → Ledger → Prop}
    (hP : ∀ e w, P (.error e) w) :
    (unsealPayload S proofId sealedPayload).Safe x.Sem (Backed job) P w ↔ P (.ok x.decrypted) w := by
  constructor
  · rintro ⟨-, h⟩
    exact h (.ok x.decrypted) w ⟨rfl, rfl⟩
  · intro h
    refine safe_exceptException (safe_await _ trivial ?_)
    rintro (e | r) w' hs
    · refine ⟨fun _ => safe_bind (safe_exceptException (safe_await _ trivial ?_)), fun _ => hP _ _⟩
      rintro (e' | _) w'' _
      · exact ⟨fun _ => hP _ _, fun _ => hP _ _⟩
      · exact hP _ _
    · obtain ⟨hr, rfl⟩ := hs
      have hdecrypted : r = x.decrypted := hr
      rw [hdecrypted]
      exact h

theorem safe_executeJob_iff :
    (executeJob S proofId row attempts).Safe x.Sem (Backed (some row)) (fun _ _ => True) .empty ↔
      ∀ sealedPayload, row.sealedJobPayload = some sealedPayload →
        ∀ input patch, proverInput S row x.decrypted = .ok input →
          completionPatch S row x.decrypted x.generated.publicSignals x.verdict = .ok patch → x.verdict = true := by
  unfold executeJob
  rw [safe_andThen_iff]
  cases row.sealedJobPayload with
  | none => exact iff_of_true safe_handleException (fun _ h => by cases h)
  | some sealedPayload =>
    simp only [Option.some.injEq, forall_eq']
    rw [← @safe_proveJob_iff S x proofId row]
    exact (safe_unsealPayload_iff fun _ _ => safe_handleException).trans safe_tryCatch_handle

/-- What comes after the status gate. -/
theorem safe_deliverJob_iff {gate : ProofJob} (hgate : x.gate = some gate) (hrow : x.job = some row) :
    (deliverJob S proofId gate).Safe x.Sem (Backed x.job) (fun _ _ => True) .empty ↔
      ((nextAttemptMetadata gate.metadata S.maxAttempts).2 = false →
        ∀ sealedPayload, row.sealedJobPayload = some sealedPayload →
          ∀ input patch, proverInput S row x.decrypted = .ok input →
            completionPatch S row x.decrypted x.generated.publicSignals x.verdict = .ok patch → x.verdict = true) := by
  have hjob : x.running.getD gate = row := by
    unfold Inputs.job at hrow
    rw [hgate] at hrow
    cases hrun : x.running with
    | none =>
      rw [hrun] at hrow
      exact Option.some.inj hrow
    | some running =>
      rw [hrun] at hrow
      exact Option.some.inj hrow
  rw [hrow]
  unfold deliverJob
  cases hatt : (nextAttemptMetadata gate.metadata S.maxAttempts).2 with
  | true =>
    refine iff_of_true ?_ (fun h => by cases h)
    simp only [hatt, if_true]
    exact safe_maxAttemptsExceeded
  | false =>
    simp only [hatt, if_false, forall_const, Bool.false_eq_true]
    constructor
    · intro h
      have hevent := ((safe_call_iff (fun _ _ => trivial)).1 h).2 x.running (fun _ => rfl)
      have hexecute := ((safe_call_iff (fun _ _ => trivial)).1 hevent).2 () trivial
      rw [hjob] at hexecute
      exact safe_executeJob_iff.1 hexecute
    · intro h
      refine (safe_call_iff (fun _ _ => trivial)).2 ⟨(by rintro ⟨⟩), ?_⟩
      intro r hr
      have hrunning : r = x.running := hr rfl
      refine (safe_call_iff (fun _ _ => trivial)).2 ⟨trivial, fun _ _ => ?_⟩
      rw [hrunning, hjob]
      exact safe_executeJob_iff.2 h

/-- **A delivery completes its job on verified proofs only iff the verdict is true or the
delivery does not slip.** -/
theorem delivery_verified_iff : DeliveryVerified S proofId x ↔ x.verdict = true ∨ ¬ x.DeliverySlips S := by
  constructor
  · intro h
    refine or_iff_not_imp_left.2 ?_
    rintro hv ⟨gate, row, sealedPayload, input, hgate, hrow, hterminal, hattempts, hsealed, hinput, hunchecked⟩
    have hinit := ((safe_call_iff (fun _ _ => trivial)).1 h).2 () trivial
    have hread := ((safe_call_iff (fun _ _ => trivial)).1 hinit).2 x.gate rfl
    simp only [hgate, hterminal, Bool.false_eq_true, if_false] at hread
    -- the rejected proof gets past the check
    obtain ⟨patch, hpatch⟩ := completionPatch_false.2 hunchecked
    rw [← Bool.eq_false_iff.2 hv] at hpatch
    exact hv ((safe_deliverJob_iff hgate hrow).1 hread hattempts sealedPayload hsealed input patch hinput hpatch)
  · intro h
    refine (safe_call_iff (fun _ _ => trivial)).2 ⟨trivial, fun _ _ => ?_⟩
    refine (safe_call_iff (fun _ _ => trivial)).2 ⟨trivial, ?_⟩
    rintro _ rfl
    cases hgate : x.gate with
    | none => trivial
    | some gate =>
      obtain ⟨row, hrow⟩ : ∃ row, x.job = some row := by
        unfold Inputs.job
        rw [hgate]
        cases x.running <;> exact ⟨_, rfl⟩
      cases hterminal : gate.status.terminal with
      | true =>
        simp only [hterminal, if_true]
        trivial
      | false =>
        simp only [hterminal, Bool.false_eq_true, if_false]
        refine (safe_deliverJob_iff hgate hrow).2 fun hattempts sealedPayload hsealed input patch hinput hpatch => ?_
        by_contra hv
        rcases h with h | h
        · exact hv h
        rw [Bool.eq_false_iff.2 hv] at hpatch
        exact h ⟨gate, row, sealedPayload, input, hgate, hrow, hterminal, hattempts, hsealed, hinput,
          completionPatch_false.1 ⟨patch, hpatch⟩⟩

end Delivery

/-! ## A policy run -/

section Run

variable {request : PolicyRunRequest} {runId : String}

theorem resultVerified_error (e : PyExn) (w : Ledger) : ResultVerified (.error e) w := trivial

/-- Where the evidence is kept does not matter. -/
theorem safe_resolveEvidence_iff {f : Json × String → Service PolicyRunResult} {P : Prop}
    (hf : ∀ evidenceRef, (f (x.payload request, evidenceRef)).Safe x.Sem (Backed none) ResultVerified .empty ↔ P) :
    (PolicyEngine.resolveEvidence runId request >>= f).Safe x.Sem (Backed none) ResultVerified .empty ↔ P := by
  unfold PolicyEngine.resolveEvidence
  unfold Inputs.payload at hf
  cases hevidence : request.evidence with
  | inline payload =>
    rw [hevidence] at hf
    constructor
    · rintro ⟨-, h⟩
      exact (hf "").1 (h (.ok "") _ ⟨trivial, rfl⟩)
    · intro h
      refine ⟨trivial, ?_⟩
      rintro (e | evidenceRef) w' hs
      · trivial
      · obtain ⟨-, rfl⟩ := hs
        exact (hf evidenceRef).2 h
  | ref reference =>
    rw [hevidence] at hf
    constructor
    · rintro ⟨-, h⟩
      exact (hf reference).1 (h (.ok x.evidence) _ ⟨rfl, rfl⟩)
    · intro h
      refine ⟨trivial, ?_⟩
      rintro (e | payload) w' hs
      · trivial
      · obtain ⟨hpayload, rfl⟩ := hs
        have hevid : payload = x.evidence := hpayload
        rw [hevid]
        exact (hf reference).2 h

/-- The run from its evidence on: whatever gets past the check was verified. -/
theorem safe_proveRun_iff {manifest : PolicyPackManifest} {payload : Json} {evidenceRef : String} :
    (E.proveRun request runId manifest payload evidenceRef).Safe x.Sem (Backed none) ResultVerified .empty ↔
      ∀ parameters reference circuit, E.referenceRun request manifest payload = .ok (parameters, reference) →
        E.circuitRun request manifest reference x.generated.publicSignals x.verdict = .ok circuit →
          x.verdict = true := by
  constructor
  · intro h parameters reference circuit href hcircuit
    have hgenerate := (safe_check_iff resultVerified_error).1 h (parameters, reference) href
    have hverify := ((safe_call_iff resultVerified_error).1 hgenerate).2 x.generated rfl
    have hcheck := ((safe_call_iff resultVerified_error).1 hverify).2 x.verdict rfl
    have hattest := (safe_check_iff resultVerified_error).1 hcheck circuit hcircuit
    exact mem_record_verify.1 ((safe_call_iff resultVerified_error).1 hattest).1
  · intro h
    refine (safe_check_iff resultVerified_error).2 fun ⟨parameters, reference⟩ href => ?_
    refine (safe_call_iff resultVerified_error).2 ⟨trivial, ?_⟩
    rintro _ rfl
    refine (safe_call_iff resultVerified_error).2 ⟨trivial, ?_⟩
    rintro _ rfl
    refine (safe_check_iff resultVerified_error).2 fun circuit hcircuit => ?_
    have hverified := h parameters reference circuit href hcircuit
    refine (safe_call_iff resultVerified_error).2 ⟨mem_record_verify.2 hverified, fun _ _ => ?_⟩
    exact ⟨_, List.mem_cons_self, rfl, rfl, mem_record_verify.2 hverified⟩

theorem getManifest_ok {policyId : String} {manifest : PolicyPackManifest} :
    E.getManifest policyId = .ok manifest ↔ E.policies policyId = some manifest := by
  unfold PolicyEngine.getManifest
  cases E.policies policyId <;> simp [raiseFramework]

/-- **A policy run attests verified proofs only iff the verdict is true or the run does not slip.** -/
theorem run_verified_iff : RunVerified E request runId x ↔ x.verdict = true ∨ ¬ x.RunSlips E request := by
  constructor
  · intro h
    refine or_iff_not_imp_left.2 ?_
    rintro hv ⟨manifest, parameters, reference, hmanifest, href, hfail, hsame⟩
    have hresolve := (safe_check_iff resultVerified_error).1 h manifest (getManifest_ok.2 hmanifest)
    have hrun := (safe_resolveEvidence_iff fun _ => safe_proveRun_iff).1 hresolve
    obtain ⟨circuit, hcircuit⟩ := circuitRun_false.2 ⟨hfail, hsame⟩
    rw [← Bool.eq_false_iff.2 hv] at hcircuit
    exact hv (hrun parameters reference circuit href hcircuit)
  · intro h
    refine (safe_check_iff resultVerified_error).2 fun manifest hmanifest => ?_
    refine (safe_resolveEvidence_iff fun _ => safe_proveRun_iff).2 ?_
    intro parameters reference circuit href hcircuit
    by_contra hv
    rcases h with h | h
    · exact hv h
    rw [Bool.eq_false_iff.2 hv] at hcircuit
    obtain ⟨hfail, hsame⟩ := circuitRun_false.1 ⟨circuit, hcircuit⟩
    exact h ⟨manifest, parameters, reference, getManifest_ok.1 hmanifest, href, hfail, hsame⟩

end Run

/-! ## Both -/

/-- **Nothing is completed or attested on an unverified proof, iff no check is missing.** -/
theorem stored_verified_iff (S : WorkerSettings) (proofId : String) (E : PolicyEngine) (request : PolicyRunRequest)
    (runId : String) (x : Inputs) :
    (DeliveryVerified S proofId x ↔ x.verdict = true ∨ ¬ x.DeliverySlips S) ∧
    (RunVerified E request runId x ↔ x.verdict = true ∨ ¬ x.RunSlips E request) :=
  ⟨delivery_verified_iff, run_verified_iff⟩

/-- The provider rejects the proof of a job without a policy. -/
def demoRejected : Inputs where
  gate := some (demoJob.row 0)
  running := some ((demoJob.row 0).update { status := .running, metadataPatch := some (AttemptMetadata.patch ⟨1, 3⟩) } 0)
  decrypted := demoPayload
  evidence := .obj []
  generated := demoResult
  verdict := false

/-- An engine whose reference policy fails, with the one output of `demoResult`. -/
def demoEngine : PolicyEngine where
  policies _ := some
    { policyId := "lending_risk_v1"
      policyVersion := "1.0.0"
      circuitId := "batch_credit_check"
      referencePolicy := "lending_risk_reference_v1"
      differentialOutputs := ⟨[("active_count_out", ⟨0, .int⟩)], by decide⟩
      expectedAttestation := .empty }
  referencePolicies _ := some
    { validate _ := .ok ()
      normalize payload := .ok payload
      evaluateReference _ := .ok .fail
      projectPublicOutputs _ := .ok [("active_count_out", .int 1)]
      toPrivateInput payload := .ok payload }
  resolveParameters _ _ := .ok []
  sha256 := demoSha
  repr _ := ""

def demoRun : PolicyRunRequest where
  policyId := "lending_risk_v1"
  policyParamsRef := none
  evidence := .ref "evidence-1"
  context := .obj []

/-- **The job is completed, and the run attested, on a rejected proof.** -/
theorem rejected_completed :
    ¬ DeliveryVerified demoWorker demoJob.proofId demoRejected ∧
    ((Pool.driveAt (demoAnswer demoPayload false fun _ => false) 0 11 (demoPool demoWorker)).world.proofJobs
      demoJob.proofId).map (fun row => row.status) = some .completed ∧
    ¬ RunVerified demoEngine demoRun "r1" demoRejected := by
  have hjob : demoRejected.DeliverySlips demoWorker := by
    refine ⟨_, _, _, .obj [("credit_score", .int 700)], rfl, rfl, rfl, rfl, rfl, rfl, ?_⟩
    intro policyId hpolicy
    cases hpolicy
  have hrun : demoRejected.RunSlips demoEngine demoRun :=
    ⟨_, _, _, rfl, rfl, rfl, _, rfl, rfl⟩
  rw [delivery_verified_iff, run_verified_iff]
  refine ⟨?_, rfl, ?_⟩
  · rintro (h | h)
    · cases h
    · exact h hjob
  · rintro (h | h)
    · cases h
    · exact h hrun

end Vellum
