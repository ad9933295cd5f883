import Vellum.Lib.Bn254
import Vellum.Lib.Bn254Curve
import Vellum.Lib.Circomlib
import Vellum.Lib.Quadratic
import Vellum.Lib.Dict
import Vellum.Lib.Except
import Vellum.Lib.Json
import Vellum.Lib.JsonContent
import Vellum.Lib.JsonText
import Vellum.Lib.JsonLoads
import Vellum.Lib.JsonLoadable
import Vellum.Lib.JsonRoundTrip
import Vellum.Lib.JsonCompact
import Vellum.Lib.JsonLines
import Vellum.Lib.PyText
import Vellum.Lib.Decimal
import Vellum.Lib.DateTime
import Vellum.Lib.Reload
import Vellum.Lib.Run
import Vellum.Lib.TextSearch
import Vellum.Lib.Chain
import Vellum.Lib.KeyStore
import Vellum.Lib.Prog
import Vellum.Lib.Counted
import Vellum.Lib.Broker
import Vellum.Lib.Rely
import Vellum.Lib.FileSystem
import Vellum.Lib.FileWrite
import Vellum.Lib.Joined
import Vellum.Lib.CounterStore
import Vellum.Lib.PythonLiteral
import Vellum.Lib.PythonLexer
import Vellum.Lib.Infix
import Vellum.Spec.Dsl
import Vellum.Spec.PythonExpr
import Vellum.Spec.PythonRenderer
import Vellum.Spec.BankingLibrary
import Vellum.Spec.Circom
import Vellum.Spec.CircomRenderer
import Vellum.Spec.Constraints
import Vellum.Spec.Compiler
import Vellum.Spec.Batcher
import Vellum.Spec.ReferencePolicy
import Vellum.Spec.Meaning
import Vellum.Spec.Errors
import Vellum.Spec.DualTrack
import Vellum.Spec.Fingerprint
import Vellum.Spec.GeneratedPolicy
import Vellum.Spec.Audit
import Vellum.Spec.Auth
import Vellum.Spec.Database
import Vellum.Spec.Registries
import Vellum.Spec.Service
import Vellum.Spec.Worker
import Vellum.Spec.Prover
import Vellum.Spec.PublicKeys
import Vellum.Spec.System
import Vellum.Spec.Delivery
import Vellum.Spec.Verifier
import Vellum.Spec.PolicyEngine
import Vellum.Spec.PolicyRun
import Vellum.Spec.Portfolio
import Vellum.Spec.NativeProver
import Vellum.Spec.Archive
import Vellum.Spec.Maintenance
import Vellum.Spec.Triage
import Vellum.Spec.Vault
import Vellum.Spec.Explainability
import Vellum.Spec.Circuits
import Vellum.Spec.ShippedPolicies
import Vellum.Spec.NativeFields
import Vellum.Spec.PythonModule
import Vellum.Spec.Reading
import Vellum.Spec.Handshake
import Vellum.Spec.RateLimit
import Vellum.Spec.CompilerCli
import Vellum.Spec.Sealing
import Vellum.Proof.PythonMeaning
import Vellum.Proof.ModuleImport
import Vellum.Proof.CircomMeaning
import Vellum.Proof.CircomComplete
import Vellum.Proof.Accepted
import Vellum.Proof.Agreement
import Vellum.Proof.Normalize
import Vellum.Proof.Clamping
import Vellum.Proof.PassAdmissible
import Vellum.Proof.Builder
import Vellum.Proof.Quadratic
import Vellum.Proof.Ranges
import Vellum.Proof.LendingRisk
import Vellum.Proof.ParamsHash
import Vellum.Proof.Outputs
import Vellum.Proof.SpecHash
import Vellum.Proof.AuditChain
import Vellum.Proof.Replay
import Vellum.Proof.Calls
import Vellum.Proof.RerunPayload
import Vellum.Proof.JobLifecycle
import Vellum.Proof.Requeue
import Vellum.Proof.TaskCalls
import Vellum.Proof.Stranded
import Vellum.Proof.Recorded
import Vellum.Proof.Triage
import Vellum.Proof.Verified
import Vellum.Proof.Tracks
import Vellum.Proof.Export
import Vellum.Proof.RunCalls
import Vellum.Proof.RunParameters
import Vellum.Proof.Completing
import Vellum.Proof.SealedRun
import Vellum.Proof.Refinement
import Vellum.Proof.KeyCache
import Vellum.Proof.Banks
import Vellum.Proof.Archive
import Vellum.Proof.ArchiveCalls
import Vellum.Proof.ArchiveProgress
import Vellum.Proof.Pruning
import Vellum.Proof.ChainReport
import Vellum.Proof.Attempts
import Vellum.Proof.RerunLifecycle
import Vellum.Proof.DeadLetters
import Vellum.Proof.Explainability
import Vellum.Proof.Attribution
import Vellum.Proof.Registries
import Vellum.Proof.Rendering
import Vellum.Proof.EvidenceForms
import Vellum.Proof.Circuits
import Vellum.Proof.ShippedPolicies
import Vellum.Proof.PublicKeys
import Vellum.Proof.PublicSignals
import Vellum.Proof.Points
import Vellum.Proof.Portfolio
import Vellum.Proof.ModuleTokens
import Vellum.Proof.Fingerprints
import Vellum.Proof.Handshake
import Vellum.Proof.RateLimit
import Vellum.Proof.Batches
import Vellum.Proof.Layout
import Vellum.Proof.Numbering
import Vellum.Proof.SourceLines
import Vellum.Proof.CompilerCli
import Vellum.Proof.Determined
import Vellum.Proof.CircomReading
import Vellum.Proof.PythonReading
import Vellum.Proof.Sealing
import Vellum.Proof.Decided
import Vellum.Proof.Provenance
