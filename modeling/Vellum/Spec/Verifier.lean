import Vellum.Spec.System

/-!
# The export of an attestation

`export_attestation` of `verifier_service.py` over the services with their database, and the
policy registry of the verifier, which may be reloaded at any time. An export reads the job
first, the registry then and the audit rows last, and other steps may come in between. The
digests of the artifact files, the signature chain and the time of the export are left out.
A delivery runs with the settings and registries of its worker, which may differ from one to
the next.
-/

namespace Vellum

/-- `sha256_json`. -/
def sha256Json (sha256 : String → String) (payload : Json) : String := sha256 payload.canonical

/-- What reading a JSON column gives: a stored `null` is `None`. -/
def readColumn : Option Json → Option Json
  | some .null => none
  | column => column

/-- `value or []`. -/
def orEmptyList : Option Json → Json
  | some value => if value.truthy then value else .arr []
  | none => .arr []

/-- `AttestationResponseV6`. -/
structure AttestationExport where
  attestationId : String
  runId : String
  policyId : String
  policyVersion : String
  circuitId : String
  decision : PolicyDecision
  proofHash : String
  publicSignalsHash : String
  policyParamsRef : Json
  policyParamsHash : Json

def attestationNotReady (message : String) (details : List (String × Json)) : PyExn :=
  .api ⟨409, "attestation_not_ready", message, details⟩

/-- The completed rows of `list_audit_rows_for_proof`. -/
def completedEvents (runId : String) (events : List EventArgs) : List EventArgs :=
  (events.filter fun e => e.proofId = some runId).filter fun e => e.status = "completed"

/-- The version of the policy: of the live manifest, if there is one, else of the metadata. -/
def exportedVersion (repr : Json → String) (registry : String → Option PolicyPackManifest) (policyId : String)
    (metadata : Dict Json) : String :=
  match registry policyId with
  | some manifest => manifest.policyVersion
  | none =>
    let recorded := (metadata.get? "policy_version").getD .null
    if recorded.truthy then recorded.pyStr repr else ""

/-- Whatever is not the text `pass` is a failure. -/
def exportedDecision (metadata : Dict Json) : PolicyDecision :=
  match metadata.get? "decision" with
  | some (.str "pass") => .pass
  | _ => .fail

/-- The hashes of the proof and of the public signals: of the job, or of its last completed
audit row once the job is pruned. -/
def exportedHashes (sha256 : String → String) (runId : String) (job : ProofJob) (events : List EventArgs) :
    Except PyExn (String × String) :=
  match readColumn job.proof with
  | some proof => .ok (sha256Json sha256 proof, sha256Json sha256 (orEmptyList (readColumn job.publicSignals)))
  | none => match (completedEvents runId events).getLast? with
    | some row => .ok (computeProofHash sha256 row.proofPayload, sha256Json sha256 (.arr row.publicSignals))
    | none => .error (attestationNotReady
        "Attestation not available: proof payload was pruned and no audit fallback exists" [("run_id", .str runId)])

/-- `export_attestation`, on the job, the registry and the audit events it reads. -/
def exportAttestation (sha256 : String → String) (repr : Json → String) (registry : String → Option PolicyPackManifest)
    (runId : String) (job : Option ProofJob) (events : List EventArgs) : Except PyExn AttestationExport :=
  match job with
  | none => .error (unknownRunIdError runId)
  | some job => match policyIdOf job with
    | none => .error (unknownRunIdError runId)
    | some policyId =>
      if job.status ≠ .completed then
        .error (attestationNotReady "Attestation not ready for incomplete run"
          [("run_id", .str runId), ("status", .str job.status.text)])
      else (exportedHashes sha256 runId job events).map fun (proofHash, publicSignalsHash) =>
        { attestationId := "att-" ++ runId
          runId := runId
          policyId := policyId
          policyVersion := exportedVersion repr registry policyId job.metadata
          circuitId := job.circuitId
          decision := exportedDecision job.metadata
          proofHash := proofHash
          publicSignalsHash := publicSignalsHash
          policyParamsRef := getOrNull (.obj job.metadata.items) "policy_params_ref"
          policyParamsHash := getOrNull (.obj job.metadata.items) "policy_params_hash" }

/-! ## The verifier beside the services -/

/-- The services and the policy registry of the verifier. -/
structure Platform where
  system : System
  registry : String → Option PolicyPackManifest

/-- What happens in a step: in the services, or the policy packs are reloaded. -/
inductive PlatformAct where
  | service (act : Act Call.Resp PyExn Unit)
  | reload (registry : String → Option PolicyPackManifest)

namespace Platform

/-- Nothing stored, nothing in progress. -/
def init (registry : String → Option PolicyPackManifest) : Platform := ⟨System.init, registry⟩

/-- **A step of the platform.** -/
inductive Step (settings : Set WorkerSettings) (sha256 : String → String) : Platform → PlatformAct →
    Platform → Prop where
  | service {s : Platform} {act : Act Call.Resp PyExn Unit} {system : System} :
      Pool.Step Call.Sem {p | ∃ S ∈ settings, ∃ task, p = Task.prog S sha256 task} s.system act system →
      Step settings sha256 s (.service act) ⟨system, s.registry⟩
  | reload {s : Platform} (registry : String → Option PolicyPackManifest) :
      Step settings sha256 s (.reload registry) ⟨s.system, registry⟩

/-- A step that meets a condition. -/
def StepWhen (settings : Set WorkerSettings) (sha256 : String → String)
    (Cond : Platform → PlatformAct → Platform → Prop) (s s' : Platform) : Prop :=
  ∃ act, Step settings sha256 s act s' ∧ Cond s act s'

end Platform

/-- **An export in a run**, with the times of its three reads. -/
def Exports {step : Platform → Platform → Prop} {s₀ : Platform} (sha256 : String → String) (repr : Json → String)
    (T : Trace step s₀) (runId : String) (i₁ i₂ i₃ : ℕ) (e : AttestationExport) : Prop :=
  i₁ ≤ i₂ ∧ i₂ ≤ i₃ ∧
    exportAttestation sha256 repr (T.run i₂).registry runId ((T.run i₁).system.world.proofJobs runId)
      (T.run i₃).system.world.auditEvents = .ok e

end Vellum
