import Vellum.Spec.Compiler
import Vellum.Spec.Constraints
import Vellum.Spec.Meaning
import Vellum.Spec.PolicyEngine

/-!
# The generated policy as a reference policy, and the circuit it is for

The methods of the generated class beyond `normalize` and `evaluate_reference`: the outputs it
projects and the private input it makes. On the other side, the constraints of the whole
generated template, with its parameter hash and its outputs, and the public signals a proof of
it carries.
-/

namespace Vellum

/-! ## The class -/

/-- The dictionary `normalize` returns. -/
def NormalizedEvidence.json (n : NormalizedEvidence) : Json :=
  .obj [("balances", .arr (n.balances.map .int)), ("limits", .arr (n.limits.map .int)),
    ("active_count", n.activeCount.toJson), ("policy_parameters", parametersJson n.policyParameters)]

def Json.asInt? : Json → Option ℤ
  | .int i => some i
  | _ => none

/-- The evidence a dictionary made by `normalize` stands for; the other methods are called with
no other. -/
def normalizedOf? : Json → Option NormalizedEvidence
  | .obj [("balances", .arr balances), ("limits", .arr limits), ("active_count", activeCount),
      ("policy_parameters", .obj parameters)] => do
    let bs ← balances.mapM Json.asInt?
    let ls ← limits.mapM Json.asInt?
    let ac ← activeCount.asPyInt?
    let ps ← parameters.mapM fun p => p.2.asInt?.map fun i => (p.1, i)
    return ⟨bs, ls, ac, ps⟩
  | _ => none

namespace GeneratedReferencePolicy

variable (sha256 : String → String) (policy : GeneratedReferencePolicy) (outputs : Dict OutputSpec)

/-- A line of `_render_output_lines`. -/
def outputValue (n : NormalizedEvidence) (allValid : Bool) : OutputExpr → Json
  | .decision => .bool allValid
  | .activeCount => .int n.activeCount.toInt
  | .policyParamsHash => .str (computePolicyParamsHash sha256 n.policyParameters)

/-- `project_public_outputs`; none is an exception. -/
def projectPublicOutputs (n : NormalizedEvidence) : Option (List (String × Json)) :=
  (policy.decision.eval n.env).map fun allValid =>
    outputs.items.map fun o => (o.1, outputValue sha256 n allValid o.2.expr)

/-- The two entries a policy with parameters adds to its private input. -/
def parameterEntries (n : NormalizedEvidence) : Option (List (String × Json)) :=
  if policy.parameters.keys = [] then some []
  else
    -- the values in `POLICY_PARAMETER_ORDER`; an absent name is a `KeyError`
    (policy.parameters.keys.mapM fun name => n.policyParameters.lookup name).map fun values =>
      [("policy_params", .arr (values.map .int)),
        ("expected_policy_params_hash", .str (computePolicyParamsHash sha256 n.policyParameters))]

/-- `to_private_input`; none is an exception. -/
def toPrivateInput (n : NormalizedEvidence) : Option Json :=
  (policy.parameterEntries sha256 n).map fun entries =>
    .obj ([("balances", .arr (n.balances.map .int)), ("limits", .arr (n.limits.map .int)),
      ("active_count", .int n.activeCount.toInt)] ++ entries)

/-- A method of the class on a normalized dictionary. -/
def onNormalized {α : Type} (f : NormalizedEvidence → Option α) (normalized : Json) : Except PyExn α :=
  match (normalizedOf? normalized).bind f with
  | some a => .ok a
  | none => .error (.other "KeyError")

/-- The class as an implementation of the protocol. -/
def reference : ReferencePolicy where
  validate evidence := ((policy.normalize evidence).map fun _ => ()).mapError .framework
  normalize evidence := ((policy.normalize evidence).map NormalizedEvidence.json).mapError .framework
  evaluateReference := onNormalized policy.evaluateReference
  projectPublicOutputs := onNormalized (policy.projectPublicOutputs sha256 outputs)
  toPrivateInput := onNormalized (policy.toPrivateInput sha256)

end GeneratedReferencePolicy

/-- The registry of reference policies holds the class of the generated module: under the text that
the literal of `reference_policy` denotes, unless that is blank. -/
def Registered (I : Interpreter) (spec : PolicyDSLSpec) (policies : String → Option ReferencePolicy)
    (reference : ReferencePolicy) : Prop :=
  ∀ id, I.denotes spec.referencePolicy = some id → strip id ≠ "" → policies id = some reference

/-- **The module keeps the names of the spec** on a batch: it finds the parameters, its policy is
registered under its own name, and its outputs are those of the spec. -/
structure KeepsNames (I : Interpreter) (spec : PolicyDSLSpec) (B : Batch) : Prop extends spec.FindsParameters I B where
  contained : spec.contained = true
  referencePolicy : I.denotes spec.referencePolicy = some spec.referencePolicy
  notBlank : strip spec.referencePolicy ≠ ""
  outputs : ∀ name ∈ spec.outputs.keys, I.denotes name = some name

/-! ## The manifest of a spec -/

/-- `differential_outputs` with the outputs of a spec. -/
def PolicyDSLSpec.differentialOutputs (spec : PolicyDSLSpec) : Dict DifferentialOutputSpec :=
  ⟨spec.outputs.items.map fun o => (o.1, ⟨o.2.signalIndex, o.2.valueType⟩), by
    rw [List.map_map]
    exact spec.outputs.nodup⟩

/-- A value of `expected_attestation` as a decoded one. -/
def attestationJson : String ⊕ ℤ → Json
  | .inl s => .str s
  | .inr i => .int i

def PolicyDSLSpec.attestation (spec : PolicyDSLSpec) : Dict Json :=
  ⟨spec.expectedAttestation.items.map fun a => (a.1, attestationJson a.2), by
    rw [List.map_map]
    exact spec.expectedAttestation.nodup⟩

/-! ## The template -/

/-- The value at a wire. -/
def Wire.read (w : Cell → F) (p : ℕ) (wire : Wire) : F := (wire.cell? p).elim 0 w

/-- The constraint of a line. -/
def WireLine.Holds (w : Cell → F) (p : ℕ) (line : WireLine) : Prop := line.lhs.read w p = line.rhs.read w p

/-- The parameter lines, `Poseidon(n)` a function of the values at its inputs. -/
structure ParametersHold (poseidon : List F → F) (parameters : ℕ) (w : Cell → F) : Prop where
  inputs : ∀ p < parameters, hasherLine.Holds w p
  hasher : w .hasherOut = poseidon ((List.range parameters).map fun p => w (.hasherInput p))
  computed : computedHashLine.Holds w 0
  expected : expectedHashLine.Holds w 0

/-- **The constraints of a generated template.** -/
structure TemplateHolds (poseidon : List F → F) (spec : PolicyDSLSpec) (rootId : ℕ) (blocks : List CircomBlock)
    (w : Cell → F) : Prop where
  bounds : boundsLine.Holds w 0
  generated : GeneratedHolds spec.batchSize blocks (blockCells w)
  parameters : spec.policyParameters.keys ≠ [] → ParametersHold poseidon spec.policyParameters.keys.length w
  outputs : ∀ o ∈ spec.outputs.items, (outputLine rootId (decide (spec.policyParameters.keys ≠ [])) o).Holds w 0

/-- The template generated from a spec. -/
def GeneratedTemplate (poseidon : List F → F) (spec : PolicyDSLSpec) (w : Cell → F) : Prop :=
  ∃ kind inner blocks, spec.decision = .aggregate kind inner ∧
    renderBlocks spec.policyParameters.keys kind inner = .ok blocks ∧
    TemplateHolds poseidon spec (buildRoot kind inner).1 blocks w

/-- A field element as a proof carries it. -/
def fieldText (x : F) : Json := .str x.val.repr

/-- The public inputs, in the order in which the template declares them. -/
def publicInputs (spec : PolicyDSLSpec) (w : Cell → F) : List F :=
  (List.range spec.batchSize).map (fun i => w (.signal .limits i)) ++ [w (.signal .activeCount 0)] ++
    (if spec.policyParameters.keys = [] then [] else
      (List.range spec.policyParameters.keys.length).map (fun p => w (.signal .policyParams p)) ++
        [w .expectedPolicyParamsHash])

/-- **The public signals**: the outputs in declaration order, then the public inputs. -/
def publicSignals (spec : PolicyDSLSpec) (w : Cell → F) : List Json :=
  (spec.outputs.items.map (fun o => w (.output o.1)) ++ publicInputs spec w).map fieldText

/-- **The two tracks agree** on evidence and public signals: both succeed, with one decision and
the same outputs. -/
def TracksAgree (repr : Json → String) (policies : String → Option ReferencePolicy) (spec : PolicyDSLSpec)
    (evidence : Json) (signals : List Json) : Prop :=
  ∃ reference circuit,
    prepareReferenceTrack policies spec.referencePolicy spec.differentialOutputs evidence = .ok reference ∧
    evaluateCircuitTrack repr spec.policyId spec.attestation spec.differentialOutputs signals true = .ok circuit ∧
    reference.decision = circuit.decision ∧ reference.outputs = circuit.outputs

end Vellum
