import Vellum.Spec.Circom
import Vellum.Spec.Dsl

/-!
# The Circom renderer

`vellum_core/policy_compiler/circom_renderer.py`: the expression builder, which
turns every quantifier into an aggregate and every comparison into a comparator, the
block of one aggregate, and the source text of the whole circuit.
-/

namespace Vellum

/-- `CircomComparisonNode`. -/
structure CircomComparisonNode where
  nodeId : ℕ
  op : ComparisonOp
  left : ValueRef
  right : ValueRef
deriving DecidableEq, Repr

/-- `CircomAggregateNode`. -/
structure CircomAggregateNode where
  aggregateId : ℕ
  kind : AggregateKind
  expression : CircomExpr
  comparisonNodes : List CircomComparisonNode
deriving DecidableEq, Repr

/-! ## `CircomExpressionBuilder` -/

/-- The builder's counters and collections. -/
structure Builder where
  nextAggregateId : ℕ
  nextComparisonId : ℕ
  comparisonsByAggregate : ℕ → List CircomComparisonNode
  aggregates : List CircomAggregateNode

namespace Builder

def init : Builder := ⟨0, 0, fun _ => [], []⟩

/-- Append a comparison to its aggregate's list. -/
def addComparison (b : Builder) (aggregateId : ℕ) (c : ComparisonExpr) : Builder :=
  { b with
    nextComparisonId := b.nextComparisonId + 1
    comparisonsByAggregate := fun a =>
      if a = aggregateId then
        b.comparisonsByAggregate a ++ [⟨b.nextComparisonId, c.op, c.left, c.right⟩]
      else b.comparisonsByAggregate a }

/-- `_register_aggregate` before the inner expression is rendered: take the next id. -/
def openAggregate (b : Builder) : Builder := { b with nextAggregateId := b.nextAggregateId + 1 }

/-- `_register_aggregate` after the inner expression is rendered: append the node. -/
def closeAggregate (b : Builder) (aggregateId : ℕ) (kind : AggregateKind) (expression : CircomExpr) :
    Builder :=
  { b with aggregates := b.aggregates ++
      [⟨aggregateId, kind, expression, b.comparisonsByAggregate aggregateId⟩] }

end Builder

/-- `"(" + " * ".join(parts) + ")"`; there are at least two parts. -/
def conjunction : List CircomExpr → CircomExpr
  | [] => .paren (.int 1)
  | part :: parts => .paren (parts.foldl .mul part)

/-- One step of the `or` loop: `({acc} + {part} - ({acc} * {part}))`. -/
def disjoin (acc part : CircomExpr) : CircomExpr :=
  .paren (.sub (.add acc part) (.paren (.mul acc part)))

/-- The `or` loop, from `parts[0]`; there are at least two parts. -/
def disjunction : List CircomExpr → CircomExpr
  | [] => .int 0
  | part :: parts => parts.foldl disjoin part

mutual

/-- `_render_boolean_expr`, the builder threaded through. -/
def renderBooleanExpr (aggregateId : ℕ) : DecisionExpr → Builder → CircomExpr × Builder
  | .comparison c, b =>
    (.signal (.port (.cmp b.nextComparisonId) .out) .loop, b.addComparison aggregateId c)
  | .and args, b =>
    let (parts, b) := renderBooleanArgs aggregateId args b
    (conjunction parts, b)
  | .or args, b =>
    let (parts, b) := renderBooleanArgs aggregateId args b
    (disjunction parts, b)
  | .not inner, b =>
    let (part, b) := renderBooleanExpr aggregateId inner b
    (.paren (.sub (.int 1) (.paren part)), b)
  -- the id is taken before the inner aggregates take theirs, the node appended after
  | .aggregate kind inner, b =>
    let (expression, b') := renderBooleanExpr b.nextAggregateId inner b.openAggregate
    (.signal (.value b.nextAggregateId) .none, b'.closeAggregate b.nextAggregateId kind expression)

def renderBooleanArgs (aggregateId : ℕ) : List DecisionExpr → Builder → List CircomExpr × Builder
  | [], b => ([], b)
  | e :: es, b =>
    let (part, b) := renderBooleanExpr aggregateId e b
    let (parts, b) := renderBooleanArgs aggregateId es b
    (part :: parts, b)

end

/-- `_register_aggregate`. -/
def registerAggregate (kind : AggregateKind) (inner : DecisionExpr) (b : Builder) : ℕ × Builder :=
  let (expression, b') := renderBooleanExpr b.nextAggregateId inner b.openAggregate
  (b.nextAggregateId, b'.closeAggregate b.nextAggregateId kind expression)

/-- `build_root`: the root's id and all aggregates, the root last. -/
def buildRoot (kind : AggregateKind) (inner : DecisionExpr) : ℕ × List CircomAggregateNode :=
  let (rootId, b) := registerAggregate kind inner .init
  (rootId, b.aggregates)

/-! ## Aggregate blocks -/

/-- `policy_params[{parameter_index[name]}]`. -/
def renderCircomParam (parameterOrder : List String) (name : String) : Except FrameworkError CircomExpr :=
  match parameterOrder.idxOf? name with
  | some j => .ok (.signal .policyParams (.lit j))
  | none => .error (unsupported "Unknown policy parameter in Circom renderer" [("param", .str name)])

/-- `render_circom_value`. -/
def renderCircomValue (parameterOrder : List String) : ValueRef → Except FrameworkError CircomExpr
  | .constInt i => .ok (.int i)
  | .param p => renderCircomParam parameterOrder p
  | .ref s =>
    if s = "balances" then .ok (.signal .balances .loop)
    else if s = "limits" then .ok (.signal .limits .loop)
    else if s = "active_count" then .ok (.signal .activeCount .none)
    else if "policy_params.".toList.isPrefixOf s.toList then
      renderCircomParam parameterOrder (String.ofList (s.toList.drop "policy_params.".length))
    else .error (unsupported "Unsupported value reference in Circom renderer" [("ref", .str s)])

/-- `primitive_comparator_template`. -/
def primitiveComparatorTemplate : ComparisonOp → Template
  | .lt => .primitiveLessThan32
  | .gt => .primitiveGreaterThan32
  | .le => .primitiveLessEqThan32
  | .ge => .primitiveGreaterEqThan32
  | .eq => .primitiveEqual

/-- The three lines of one comparator. -/
def cmpLines (parameterOrder : List String) (node : CircomComparisonNode) :
    Except FrameworkError (List CircomStmt) := do
  let left ← renderCircomValue parameterOrder node.left
  let right ← renderCircomValue parameterOrder node.right
  return [.instantiate (.cmp node.nodeId) (primitiveComparatorTemplate node.op),
    .assign (.port (.cmp node.nodeId) .lhs) .loop left,
    .assign (.port (.cmp node.nodeId) .rhs) .loop right]

/-- The lines that keep inactive rows zero, emitted for the root aggregate. -/
def zeroTailLines (aggId : ℕ) : List CircomStmt :=
  [.instantiate .rootBalancePadding .zeroPaddingInvariant,
    .assign (.port .rootBalancePadding .value) .loop (.signal .balances .loop),
    .assign (.port .rootBalancePadding .isActive) .loop (.signal (.isActive aggId) .loop),
    .instantiate .rootLimitPadding .zeroPaddingInvariant,
    .assign (.port .rootLimitPadding .value) .loop (.signal .limits .loop),
    .assign (.port .rootLimitPadding .isActive) .loop (.signal (.isActive aggId) .loop)]

def chainInit : AggregateKind → CircomExpr
  | .all => .int 1
  | .any => .int 0

/-- The row's contribution: neutral where the row is inactive. -/
def decisionAssignment (aggId : ℕ) (expression : CircomExpr) : AggregateKind → CircomExpr
  | .all => .add (.mul (.paren expression) (.signal (.isActive aggId) .loop))
      (.paren (.sub (.int 1) (.signal (.isActive aggId) .loop)))
  | .any => .mul (.paren expression) (.signal (.isActive aggId) .loop)

def chainUpdate (aggId : ℕ) : AggregateKind → CircomExpr
  | .all => .mul (.signal (.chain aggId) .loop) (.signal (.decisionValid aggId) .loop)
  | .any => .sub (.add (.signal (.chain aggId) .loop) (.signal (.decisionValid aggId) .loop))
      (.paren (.mul (.signal (.chain aggId) .loop) (.signal (.decisionValid aggId) .loop)))

/-- The four lines that compute a row's activity flag. -/
def activeFlagLines (aggId : ℕ) : List CircomStmt :=
  [.instantiate (.activeFlag aggId) .activeIndexFlag16,
    .assign (.port (.activeFlag aggId) .activeCount) .loop (.signal .activeCount .none),
    .assign (.port (.activeFlag aggId) .index) .loop .loopVar,
    .assign (.isActive aggId) .loop (.signal (.port (.activeFlag aggId) .isActive) .loop)]

/-- `render_circom_aggregate_block`. -/
def renderCircomAggregateBlock (aggregate : CircomAggregateNode) (includeZeroTailConstraints : Bool)
    (parameterOrder : List String) : Except FrameworkError CircomBlock := do
  let aggId := aggregate.aggregateId
  let cmp ← aggregate.comparisonNodes.mapM (cmpLines parameterOrder)
  return {
    loopVar := "i_" ++ aggId.repr
    head := .assign (.chain aggId) (.lit 0) (chainInit aggregate.kind)
    body := activeFlagLines aggId ++ cmp.flatten ++
      [.assign (.decisionValid aggId) .loop
        (decisionAssignment aggId aggregate.expression aggregate.kind)] ++
      -- the zero-tail lines use the flags of this aggregate
      (if includeZeroTailConstraints then zeroTailLines aggId else []) ++
      [.assign (.chain aggId) .loopSucc (chainUpdate aggId aggregate.kind)]
    tail := .assign (.value aggId) .none (.signal (.chain aggId) .size) }

/-- The blocks of all aggregates; the root carries the zero-tail constraints. -/
def renderBlocks (parameterOrder : List String) (kind : AggregateKind) (inner : DecisionExpr) :
    Except FrameworkError (List CircomBlock) :=
  let (rootId, aggregates) := buildRoot kind inner
  aggregates.mapM fun aggregate =>
    renderCircomAggregateBlock aggregate (aggregate.aggregateId = rootId) parameterOrder

/-- The constraints of a generated circuit without its parameter hash: the bounds on the
active count and the aggregate blocks. -/
structure GeneratedHolds (N : ℕ) (blocks : List CircomBlock) (w : Assignment) : Prop where
  bounds : ∃ valid, ActiveCountBounds N (w .activeCount 0) valid
  blocks : ∀ b ∈ blocks, b.Holds N w

/-! ## Source text -/

/-- The declarations of one aggregate. -/
def aggregateDeclarations (rootId : ℕ) (aggregate : CircomAggregateNode) : List String :=
  let agg := "agg_" ++ aggregate.aggregateId.repr
  ["    signal " ++ agg ++ "_is_active[N];",
    "    signal " ++ agg ++ "_decision_valid[N];",
    "    signal " ++ agg ++ "_chain[N + 1];",
    "    signal " ++ agg ++ "_value;",
    "    component " ++ agg ++ "_active_flag[N];"] ++
  aggregate.comparisonNodes.map (fun node => "    component cmp_" ++ node.nodeId.repr ++ "[N];") ++
  (if aggregate.aggregateId = rootId then
    ["    component root_balance_padding[N];", "    component root_limit_padding[N];"] else [])

def parameterDeclarations (parameterOrder : List String) : List String :=
  if parameterOrder = [] then []
  else ["    signal computed_policy_params_hash;",
    "    component policy_params_hasher = Poseidon(" ++ parameterOrder.length.repr ++ ");"]

/-- `_render_output_declarations`. -/
def renderOutputDeclarations (outputs : Dict OutputSpec) : String :=
  String.intercalate "\n" (outputs.items.map fun o => "    signal output " ++ o.1 ++ ";")

/-- The right-hand side of an output assignment. -/
def outputSource (rootId : ℕ) (hasParameters : Bool) : OutputExpr → String
  | .decision => "agg_" ++ rootId.repr ++ "_value"
  | .activeCount => "active_count"
  | .policyParamsHash => if hasParameters then "computed_policy_params_hash" else "0"

/-- `_render_output_assignments`. -/
def renderOutputAssignments (outputs : Dict OutputSpec) (rootId : ℕ) (hasParameters : Bool) : String :=
  String.intercalate "\n" (outputs.items.map fun o =>
    "    " ++ o.1 ++ " <== " ++ outputSource rootId hasParameters o.2.expr ++ ";")

def parameterInputs (n : ℕ) : String :=
  if n = 0 then ""
  else "    signal input policy_params[" ++ n.repr ++ "];\n" ++
    "    signal input expected_policy_params_hash;\n"

def parameterConstraints (n : ℕ) : String :=
  if n = 0 then ""
  else "    for (var p = 0; p < " ++ n.repr ++ "; p++) \x7b\n" ++
    "        policy_params_hasher.inputs[p] <== policy_params[p];\n" ++
    "    \x7d\n" ++
    "    computed_policy_params_hash <== policy_params_hasher.out;\n" ++
    "    computed_policy_params_hash === expected_policy_params_hash;\n"

def mainPublicTail (n : ℕ) : String :=
  if n = 0 then "" else ", policy_params, expected_policy_params_hash"

/-- The source up to the output declarations. -/
def circomHead (compilerVersion policyId specHash : String) (parameters : ℕ) : String :=
  "// Generated by vellum-compiler " ++ compilerVersion ++ "; do not edit manually.\n" ++
  "// policy_id=" ++ policyId ++ "\n" ++
  "// spec_hash=" ++ specHash ++ "\n" ++
  "pragma circom 2.1.8;\n\n" ++
  "include \"../../../circuits/library/banking_library.circom\";\n\n" ++
  "template GeneratedLendingRisk(N) \x7b\n" ++
  "    signal input limits[N];\n" ++
  "    signal input active_count;\n" ++
  "    signal input balances[N];\n" ++
  parameterInputs parameters ++ "\n"

/-- The source between the output declarations and the output assignments. -/
def circomBody (parameterOrder : List String) (rootId : ℕ) (aggregates : List CircomAggregateNode)
    (blocks : List CircomBlock) : String :=
  "\n\n" ++
  "    component active_count_bounds = ActiveCountBounds(N);\n" ++
  String.intercalate "\n"
    (aggregates.flatMap (aggregateDeclarations rootId) ++ parameterDeclarations parameterOrder) ++ "\n\n" ++
  "    active_count_bounds.active_count <== active_count;\n" ++
  parameterConstraints parameterOrder.length ++ "\n" ++
  String.intercalate "\n\n" (blocks.map CircomBlock.text) ++ "\n\n"

/-- The source after the output assignments. -/
def circomTail (parameters batchSize : ℕ) : String :=
  "\n" ++
  "\x7d\n\n" ++
  "component main \x7bpublic [limits, active_count" ++ mainPublicTail parameters ++
  "]\x7d = GeneratedLendingRisk(" ++ batchSize.repr ++ ");\n"

/-- `render_circom_source`. -/
def renderCircomSource (spec : PolicyDSLSpec) (kind : AggregateKind) (inner : DecisionExpr)
    (specHash : String) : Except FrameworkError String := do
  -- parameters and outputs in declaration order
  let order := spec.policyParameters.keys
  let (rootId, aggregates) := buildRoot kind inner
  let blocks ← renderBlocks order kind inner
  return circomHead spec.compilerVersion spec.policyId specHash order.length ++
    renderOutputDeclarations spec.outputs ++ circomBody order rootId aggregates blocks ++
    renderOutputAssignments spec.outputs rootId (order ≠ []) ++ circomTail order.length spec.batchSize

end Vellum
