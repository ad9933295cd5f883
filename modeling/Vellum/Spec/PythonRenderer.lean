import Vellum.Spec.PythonExpr

/-!
# The Python renderer

`render_python_source` of `vellum_core/policy_compiler/python_renderer.py`: the text of
the generated reference policy. The fixed parts of the module are constants here; what
the module computes is in `Vellum.Spec.ReferencePolicy`.
-/

namespace Vellum

/-- `pattern in text`. -/
def containsText (pattern text : String) : Bool :=
  text.toList.tails.any (pattern.toList.isPrefixOf ·)

/-- `POLICY_PARAMETER_SPECS`. -/
def parameterSpecs (parameters : Dict PolicyParameterSpec) : Json :=
  .obj (parameters.items.map fun p => (p.1, .obj [("minimum", .ofOptInt p.2.minimum),
    ("maximum", .ofOptInt p.2.maximum), ("default", .ofOptInt p.2.default)]))

/-- The value an output line projects. -/
def outputValue : OutputExpr → String
  | .decision => "all_valid"
  | .activeCount => "active_count"
  | .policyParamsHash => "compute_policy_params_hash(policy_params)"

/-- `_render_output_lines`. -/
def renderOutputLines (outputs : Dict OutputSpec) : String :=
  String.intercalate "\n" (outputs.items.map fun o =>
    "            \"" ++ o.1 ++ "\": " ++ outputValue o.2.expr ++ ",")

/-- The line that reads the parameters, where they are used. -/
def policyParamsLine (used : Bool) : String :=
  if used then "        policy_params = dict(normalized_evidence.get(\"policy_parameters\", \x7b\x7d))" else ""

def policyInputLines (hasParameters : Bool) : List String :=
  ["            \"balances\": list(normalized_evidence[\"balances\"]),",
    "            \"limits\": list(normalized_evidence[\"limits\"]),",
    "            \"active_count\": int(normalized_evidence[\"active_count\"]),"] ++
  if hasParameters then
    ["            \"policy_params\": [int(policy_params[name]) for name in self.POLICY_PARAMETER_ORDER],",
      "            \"expected_policy_params_hash\": compute_policy_params_hash(policy_params),"]
  else []

/-- `validate`, `normalize` and the head of `to_private_input`. -/
def normalizeText : String :=
  "\n\n" ++
  "    def validate(self, evidence_payload: dict[str, Any]) -> None:\n" ++
  "        _ = self.normalize(evidence_payload)\n\n" ++
  "    def normalize(self, evidence_payload: dict[str, Any]) -> dict[str, Any]:\n" ++
  "        policy_params = self._resolve_policy_parameters(evidence_payload.get(\"policy_parameters\"))\n" ++
  "\n" ++
  "        private_input = evidence_payload.get(\"private_input\")\n" ++
  "        if isinstance(private_input, dict):\n" ++
  "            try:\n" ++
  "                prepared = batch_prepare_from_private_input(private_input)\n" ++
  "            except ValueError as exc:\n" ++
  "                raise framework_error(\n" ++
  "                    \"invalid_evidence_payload\",\n" ++
  "                    \"Evidence payload failed batch validation\",\n" ++
  "                    reason=str(exc),\n" ++
  "                ) from exc\n" ++
  "            normalized = prepared.to_circuit_input()\n" ++
  "            normalized[\"policy_parameters\"] = policy_params\n" ++
  "            return normalized\n\n" ++
  "        balances = require_integer_list(\n" ++
  "            field=\"balances\",\n" ++
  "            value=evidence_payload.get(\"balances\"),\n" ++
  "            minimum=0,\n" ++
  "            maximum=MAX_UINT32,\n" ++
  "        )\n" ++
  "        limits = require_integer_list(\n" ++
  "            field=\"limits\",\n" ++
  "            value=evidence_payload.get(\"limits\"),\n" ++
  "            minimum=0,\n" ++
  "            maximum=MAX_UINT32,\n" ++
  "        )\n" ++
  "        try:\n" ++
  "            prepared = batch_prepare_input(balances=balances, limits=limits, batch_size=self.batch_size)\n" ++
  "        except ValueError as exc:\n" ++
  "            raise framework_error(\n" ++
  "                \"invalid_evidence_payload\",\n" ++
  "                \"Evidence payload failed batch validation\",\n" ++
  "                reason=str(exc),\n" ++
  "            ) from exc\n" ++
  "        normalized = prepared.to_circuit_input()\n" ++
  "        normalized[\"policy_parameters\"] = policy_params\n" ++
  "        return normalized\n\n" ++
  "    def to_private_input(self, normalized_evidence: dict[str, Any]) -> dict[str, Any]:\n"

/-- The end of `to_private_input` and the head of `evaluate_reference`. -/
def evaluateReferenceText : String :=
  "\n" ++
  "        \x7d\n\n" ++
  "    def evaluate_reference(self, normalized_evidence: dict[str, Any]) -> PolicyDecision:\n" ++
  "        active_count = int(normalized_evidence[\"active_count\"])\n" ++
  "        balances = list(normalized_evidence[\"balances\"])\n" ++
  "        limits = list(normalized_evidence[\"limits\"])\n"

/-- The end of `evaluate_reference` and the head of `project_public_outputs`. -/
def projectPublicOutputsText : String :=
  "\n" ++
  "        return \"pass\" if decision else \"fail\"\n\n" ++
  "    def project_public_outputs(self, normalized_evidence: dict[str, Any]) -> dict[str, Any]:\n" ++
  "        active_count = int(normalized_evidence[\"active_count\"])\n" ++
  "        balances = list(normalized_evidence[\"balances\"])\n" ++
  "        limits = list(normalized_evidence[\"limits\"])\n"

/-- The end of `project_public_outputs` and `_resolve_policy_parameters`. -/
def resolvePolicyParametersText : String :=
  "\n" ++
  "        \x7d\n\n" ++
  "    def _resolve_policy_parameters(self, payload: Any) -> dict[str, int]:\n" ++
  "        if not self.POLICY_PARAMETER_ORDER:\n" ++
  "            return \x7b\x7d\n" ++
  "        if payload is None:\n" ++
  "            payload = \x7b\x7d\n" ++
  "        if not isinstance(payload, dict):\n" ++
  "            raise framework_error(\n" ++
  "                \"invalid_evidence_payload\",\n" ++
  "                \"policy_parameters must be an object\",\n" ++
  "            )\n" ++
  "        resolved: dict[str, int] = \x7b\x7d\n" ++
  "        unknown = sorted(set(str(key) for key in payload.keys()) - set(self.POLICY_PARAMETER_ORDER))\n" ++
  "        if unknown:\n" ++
  "            raise framework_error(\n" ++
  "                \"invalid_evidence_payload\",\n" ++
  "                \"policy_parameters contains unknown keys\",\n" ++
  "                unknown=unknown,\n" ++
  "            )\n" ++
  "        for name in self.POLICY_PARAMETER_ORDER:\n" ++
  "            spec = self.POLICY_PARAMETER_SPECS[name]\n" ++
  "            value = payload.get(name, spec.get(\"default\"))\n" ++
  "            if value is None:\n" ++
  "                raise framework_error(\n" ++
  "                    \"invalid_evidence_payload\",\n" ++
  "                    \"policy_parameters missing required key\",\n" ++
  "                    key=name,\n" ++
  "                )\n" ++
  "            if isinstance(value, bool) or not isinstance(value, int):\n" ++
  "                raise framework_error(\n" ++
  "                    \"invalid_evidence_payload\",\n" ++
  "                    \"policy_parameters values must be integers\",\n" ++
  "                    key=name,\n" ++
  "                    value=value,\n" ++
  "                )\n" ++
  "            minimum = spec.get(\"minimum\")\n" ++
  "            maximum = spec.get(\"maximum\")\n" ++
  "            if minimum is not None and value < int(minimum):\n" ++
  "                raise framework_error(\n" ++
  "                    \"invalid_evidence_payload\",\n" ++
  "                    \"policy_parameters value below minimum\",\n" ++
  "                    key=name,\n" ++
  "                    minimum=int(minimum),\n" ++
  "                    value=value,\n" ++
  "                )\n" ++
  "            if maximum is not None and value > int(maximum):\n" ++
  "                raise framework_error(\n" ++
  "                    \"invalid_evidence_payload\",\n" ++
  "                    \"policy_parameters value above maximum\",\n" ++
  "                    key=name,\n" ++
  "                    maximum=int(maximum),\n" ++
  "                    value=value,\n" ++
  "                )\n" ++
  "            resolved[name] = int(value)\n" ++
  "        return resolved\n"

/-- The module up to the parameter order. -/
def moduleHead (spec : PolicyDSLSpec) (specHash : String) (needsPolicyParamsHash : Bool) : String :=
  "\"\"\"Generated by vellum-compiler " ++
  spec.compilerVersion ++
  "; do not edit manually.\"\"\"\n\n" ++
  "from __future__ import annotations\n\n" ++
  "from typing import Any\n\n" ++
  "from vellum_core.api.errors import framework_error\n" ++
  "from vellum_core.logic.batcher import MAX_UINT32, batch_prepare_from_private_input, batch_prepare_input\n" ++
  (if needsPolicyParamsHash then
    "from vellum_core.policy_parameters import compute_policy_params_hash" else "") ++
  "\n" ++
  "from vellum_core.policies.base import PolicyDecision\n" ++
  "from vellum_core.policies.normalization import require_integer_list\n\n\n" ++
  "class GeneratedReferencePolicy:\n" ++
  "    \"\"\"Generated reference policy for `" ++
  spec.policyId ++
  "`.\"\"\"\n\n" ++
  "    reference_policy = \"" ++
  spec.referencePolicy ++
  "\"\n" ++
  "    policy_id = \"" ++
  spec.policyId ++
  "\"\n" ++
  "    spec_hash = \"" ++
  specHash ++
  "\"\n" ++
  "    batch_size = " ++
  spec.batchSize.repr ++
  "\n" ++
  "    POLICY_PARAMETER_ORDER = "

/-- Whether an output publishes the parameter hash. -/
def outputsUseHash (spec : PolicyDSLSpec) : Bool :=
  spec.outputs.items.any fun o => o.2.expr = .policyParamsHash

/-- The module after the parameter order. -/
def moduleBody (spec : PolicyDSLSpec) (decisionExpr : String) : String :=
  let order := spec.policyParameters.keys
  let decisionUsesPolicyParams := containsText "policy_params[" decisionExpr
  "\n    POLICY_PARAMETER_SPECS = " ++ (parameterSpecs spec.policyParameters).dumpsSorted ++
  normalizeText ++ policyParamsLine (order ≠ []) ++ "\n        return \x7b\n" ++
  String.intercalate "\n" (policyInputLines (order ≠ [])) ++
  evaluateReferenceText ++ policyParamsLine decisionUsesPolicyParams ++
  "\n        decision = " ++ decisionExpr ++
  projectPublicOutputsText ++ policyParamsLine (decisionUsesPolicyParams || outputsUseHash spec) ++
  "\n        all_valid = " ++ decisionExpr ++ "\n        return \x7b\n" ++
  renderOutputLines spec.outputs ++ resolvePolicyParametersText

/-- `render_python_source`. -/
def renderPythonSource (spec : PolicyDSLSpec) (kind : AggregateKind) (inner : DecisionExpr)
    (specHash : String) : Except FrameworkError String := do
  let decisionExpr ← PyBool.text <$> renderDecision kind inner
  return moduleHead spec specHash (spec.policyParameters.keys ≠ [] || outputsUseHash spec) ++
    (Json.arr (spec.policyParameters.keys.map .str)).dumps ++ moduleBody spec decisionExpr

end Vellum
