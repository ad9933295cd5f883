import Vellum.Spec.CircomRenderer
import Vellum.Spec.PythonRenderer

/-!
# The policy compiler

`generate_policy_artifacts` of `vellum_core/policy_compiler/compiler.py`, with the
debug trace of `debug_renderer.py`. The spec hash is taken over the canonical JSON of
`spec.model_dump(mode="json")`; SHA-256 is a parameter.
-/

namespace Vellum

/-! ## `model_dump` -/

/-- `ValueRef.model_dump`: the two absent alternatives are `null`. -/
def ValueRef.toJson : ValueRef → Json
  | .ref s => .obj [("ref", .str s), ("param", .null), ("const_int", .null)]
  | .param s => .obj [("ref", .null), ("param", .str s), ("const_int", .null)]
  | .constInt i => .obj [("ref", .null), ("param", .null), ("const_int", .int i)]

def ComparisonExpr.toJson (c : ComparisonExpr) : Json :=
  .obj [("op", .str c.op.text), ("left", c.left.toJson), ("right", c.right.toJson)]

/-- The four fields every decision node dumps. -/
def decisionNode (kind : String) (comparison : Json) (args : List Json) (inner : Json) : Json :=
  .obj [("kind", .str kind), ("comparison", comparison), ("args", .arr args), ("inner", inner)]

namespace DecisionExpr

mutual

def toJson : DecisionExpr → Json
  | comparison c => decisionNode "comparison" c.toJson [] .null
  | and args => decisionNode "and" .null (toJsonArgs args) .null
  | or args => decisionNode "or" .null (toJsonArgs args) .null
  | not inner => decisionNode "not" .null [] inner.toJson
  | aggregate kind inner => decisionNode kind.text .null [] inner.toJson

def toJsonArgs : List DecisionExpr → List Json
  | [] => []
  | e :: es => e.toJson :: toJsonArgs es

end

end DecisionExpr

def PolicyParameterSpec.toJson (p : PolicyParameterSpec) : Json :=
  .obj [("value_type", .str "int"), ("minimum", .ofOptInt p.minimum), ("maximum", .ofOptInt p.maximum),
    ("default", .ofOptInt p.default)]

def OutputSpec.toJson (o : OutputSpec) : Json :=
  .obj [("expr", .str o.expr.text), ("value_type", .str o.valueType.text), ("signal_index", .int o.signalIndex)]

def attestationValue : String ⊕ ℤ → Json
  | .inl s => .str s
  | .inr i => .int i

/-- A dictionary as a JSON object. -/
def Dict.toJson {α : Type} (f : α → Json) (d : Dict α) : Json := .obj (d.items.map fun p => (p.1, f p.2))

/-- `spec.model_dump(mode="json")`. -/
def PolicyDSLSpec.toJson (s : PolicyDSLSpec) : Json :=
  .obj [("policy_id", .str s.policyId), ("policy_version", .str s.policyVersion),
    ("reference_policy", .str s.referencePolicy), ("spec_version", .str s.specVersion),
    ("compiler_version", .str s.compilerVersion), ("description", .ofOptStr s.description),
    ("batch", .obj [("batch_size", .int s.batchSize)]),
    ("inputs", s.inputs.toJson fun _ => .obj [("kind", .str "uint32_array")]),
    ("policy_parameters", s.policyParameters.toJson PolicyParameterSpec.toJson),
    ("decision", s.decision.toJson), ("outputs", s.outputs.toJson OutputSpec.toJson),
    ("primitives", .arr (s.primitives.map .str)),
    ("expected_attestation", s.expectedAttestation.toJson attestationValue),
    ("generated_python_path", .str s.generatedPythonPath),
    ("generated_circom_path", .str s.generatedCircomPath),
    ("generated_debug_trace_path", .str s.generatedDebugTracePath), ("circuit_id", .str s.circuitId)]

/-! ## The debug trace -/

/-- `_serialize_value`. -/
def serializeValue : ValueRef → Json
  | .constInt i => .obj [("const_int", .int i)]
  | .param p => .obj [("param", .str p)]
  | .ref s => .obj [("ref", .str s)]

/-- `_input_refs`. -/
def inputRefs (left right : ValueRef) : List String :=
  [left, right].filterMap fun
    | .ref s => some s
    | .param p => some ("param:" ++ p)
    | .constInt _ => none

/-- One rule of the debug trace; its id is its position. -/
structure DebugRule where
  ruleId : ℕ
  policyPath : String
  comparison : ComparisonExpr
deriving DecidableEq, Repr

def DebugRule.toJson (r : DebugRule) : Json :=
  .obj [("rule_id", .str ("rule_cmp_" ++ r.ruleId.repr)), ("policy_path", .str r.policyPath),
    ("operator", .str r.comparison.op.text), ("left", serializeValue r.comparison.left),
    ("right", serializeValue r.comparison.right),
    ("input_refs", .arr ((inputRefs r.comparison.left r.comparison.right).map .str))]

mutual

/-- `_collect_rules`. -/
def collectRules (path : String) : DecisionExpr → List DebugRule → List DebugRule
  | .comparison c, rules => rules ++ [⟨rules.length, path, c⟩]
  | .and args, rules => collectRulesArgs path 0 args rules
  | .or args, rules => collectRulesArgs path 0 args rules
  | .not inner, rules => collectRules (path ++ ".inner") inner rules
  | .aggregate _ inner, rules => collectRules (path ++ ".inner") inner rules

def collectRulesArgs (path : String) (idx : ℕ) : List DecisionExpr → List DebugRule → List DebugRule
  | [], rules => rules
  | e :: es, rules =>
    collectRulesArgs path (idx + 1) es (collectRules (path ++ ".args[" ++ idx.repr ++ "]") e rules)

end

/-- One entry of the parameter list. -/
def parameterEntry (idx : ℕ) (p : String × PolicyParameterSpec) : Json :=
  .obj [("name", .str p.1), ("index", .int idx), ("minimum", .ofOptInt p.2.minimum),
    ("maximum", .ofOptInt p.2.maximum), ("default", .ofOptInt p.2.default)]

/-- `render_debug_trace`. -/
def renderDebugTrace (spec : PolicyDSLSpec) (kind : AggregateKind) (inner : DecisionExpr)
    (specHash : String) : String :=
  (Json.obj [("policy_id", .str spec.policyId), ("reference_policy", .str spec.referencePolicy),
    ("spec_hash", .str specHash), ("decision_kind", .str kind.text),
    ("policy_parameters", .arr (spec.policyParameters.items.mapIdx parameterEntry)),
    ("rules", .arr ((collectRules "decision.inner" inner []).map DebugRule.toJson))]).dumpsIndented ++ "\n"

/-! ## `generate_policy_artifacts` -/

/-- `CompilerArtifacts`. -/
structure CompilerArtifacts where
  specHash : String
  pythonSource : String
  circomSource : String
  debugTraceSource : String
deriving DecidableEq, Repr

/-- `generate_policy_artifacts`. -/
def generatePolicyArtifacts (sha256 : String → String) (spec : PolicyDSLSpec) :
    Except FrameworkError CompilerArtifacts := do
  let (kind, inner) ← ensureSupportedDecision spec
  -- hashed with sorted keys, rendered in declaration order
  let specHash := sha256 spec.toJson.canonical
  let pythonSource ← renderPythonSource spec kind inner specHash
  let circomSource ← renderCircomSource spec kind inner specHash
  return ⟨specHash, pythonSource, circomSource, renderDebugTrace spec kind inner specHash⟩

end Vellum
