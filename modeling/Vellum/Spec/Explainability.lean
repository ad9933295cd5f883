import Vellum.Spec.GeneratedPolicy
import Vellum.Spec.Meaning
import Vellum.Spec.Prover

/-!
# The explainability replay

`_evaluate_policy_trace` of `vellum_core/logic/explainability.py`: a third interpreter of the
decision language, which runs the decision of a loaded spec over a private input and reports the
rows and the comparisons that fail. It stops nowhere early, and reads what is missing as zero.

None of an `Option` around a value is an exception, as in the evaluation of the rendered Python.
-/

namespace Vellum

/-! ## Rules -/

/-- `_ComparisonRule`; `rule_id` is `rule_cmp_` and the number. -/
structure ComparisonRule where
  number : ℕ
  policyPath : String
  operator : ComparisonOp
  left : ValueRef
  right : ValueRef

def ruleId (number : ℕ) : String := "rule_cmp_" ++ number.repr

/-- What `input_refs` lists for one side. -/
def ValueRef.inputRefs : ValueRef → List String
  | .ref s => if s ≠ "" then [s] else []
  | .param p => if p ≠ "" then ["param:" ++ p] else []
  | .constInt _ => []

namespace ComparisonRule

def inputRefs (rule : ComparisonRule) : List String := rule.left.inputRefs ++ rule.right.inputRefs

mutual

/-- `_collect_rules`: the list it appends to, with what it appends. -/
def collectRules (path : String) : DecisionExpr → List ComparisonRule → List ComparisonRule
  | .comparison c, rules => rules ++ [⟨rules.length, path, c.op, c.left, c.right⟩]
  | .and args, rules => collectArgs path 0 args rules
  | .or args, rules => collectArgs path 0 args rules
  | .not inner, rules => collectRules (path ++ ".inner") inner rules
  | .aggregate _ inner, rules => collectRules (path ++ ".inner") inner rules

/-- The loop over `enumerate(expr.args)`, from index `idx` on. -/
def collectArgs (path : String) (idx : ℕ) : List DecisionExpr → List ComparisonRule → List ComparisonRule
  | [], rules => rules
  | arg :: args, rules =>
    collectArgs path (idx + 1) args (collectRules (path ++ ".args[" ++ idx.repr ++ "]") arg rules)

end

/-- The rule is one of the comparison. -/
def isOf (c : ComparisonExpr) (rule : ComparisonRule) : Bool :=
  rule.left = c.left ∧ rule.right = c.right ∧ rule.operator = c.op

end ComparisonRule

/-- `_comparison_index`: two equal comparisons have the first one's index, and one without a rule the
index 0. -/
def comparisonIndex (rules : List ComparisonRule) (c : ComparisonExpr) : ℕ :=
  ((rules.find? (·.isOf c)).map ComparisonRule.number).getD 0

/-! ## Evaluation -/

/-- `_as_int(value, default=0)`. -/
def asInt : Json → Option ℤ
  | .int i => some i
  | .float f => match f.value with
    | .fin q => some (if 0 ≤ q then ⌊q⌋ else ⌈q⌉)
    | .nan => some 0
    -- an `OverflowError` is not caught
    | .inf _ => none
  | .str s => some ((pyInt? s).getD 0)
  | .bool _ | .null | .arr _ | .obj _ => some 0

/-- The item of a list in the private input, if there is one. -/
def itemAt (privateInput : Json) (key : String) (idx : ℕ) : Option ℤ :=
  match privateInput.get? key with
  | some (.arr items) => (items[idx]?.map asInt).getD (some 0)
  | _ => some 0

/-- What an evaluation reads. -/
structure ReplayInput where
  privateInput : Json
  policyParameters : List (String × ℤ)
  rules : List ComparisonRule

namespace ReplayInput

variable (R : ReplayInput)

def activeCount : Option ℤ := asInt (getOrNull R.privateInput "active_count")

/-- `int(policy_parameters.get(name, 0))`. -/
def parameter (name : String) : ℤ := (R.policyParameters.lookup name).getD 0

/-- `_resolve_value`. -/
def resolveValue (idx : ℕ) : ValueRef → Option ℤ
  | .constInt i => some i
  -- an empty name falls through to the references, of which there is none
  | .param param => some (if param ≠ "" then R.parameter param else 0)
  | .ref ref =>
    if ref = "active_count" then R.activeCount
    else if ref = "balances" then itemAt R.privateInput "balances" idx
    else if ref = "limits" then itemAt R.privateInput "limits" idx
    else if "policy_params.".toList.isPrefixOf ref.toList then
      some (R.parameter (String.ofList (ref.toList.drop "policy_params.".length)))
    else some 0

end ReplayInput

/-- `_EvalOutcome`, the rule ids by their numbers. -/
structure EvalOutcome where
  value : Bool
  failedRuleIds : List ℕ

/-- `and` and `all`. -/
def EvalOutcome.conj (outcomes : List EvalOutcome) : EvalOutcome :=
  ⟨outcomes.all (·.value), outcomes.flatMap (·.failedRuleIds)⟩

/-- `or` and `any`: where one child holds, no rule has failed. -/
def EvalOutcome.disj (outcomes : List EvalOutcome) : EvalOutcome :=
  if outcomes.any (·.value) then ⟨true, []⟩ else ⟨false, outcomes.flatMap (·.failedRuleIds)⟩

def EvalOutcome.quantify : AggregateKind → List EvalOutcome → EvalOutcome
  | .all => conj
  | .any => disj

namespace ReplayInput

mutual

/-- `_eval_expr`: every child is evaluated, whatever the others say. -/
def evalExpr (R : ReplayInput) : DecisionExpr → ℕ → Option EvalOutcome
  | .comparison c, idx => do
    let rule ← R.rules[comparisonIndex R.rules c]?
    let left ← R.resolveValue idx c.left
    let right ← R.resolveValue idx c.right
    return ⟨c.op.holds left right, if c.op.holds left right then [] else [rule.number]⟩
  | .and args, idx => (R.evalArgs args idx).map .conj
  | .or args, idx => (R.evalArgs args idx).map .disj
  -- the rules that failed below a `not` are those that make it hold
  | .not inner, idx => (R.evalExpr inner idx).map fun child => ⟨!child.value, child.failedRuleIds⟩
  | .aggregate kind inner, _ => do
    let activeCount ← R.activeCount
    let childOutcomes ← (List.range activeCount.toNat).mapM fun nestedIdx => R.evalExpr inner nestedIdx
    return .quantify kind childOutcomes

/-- The list comprehension over `expr.args`. -/
def evalArgs (R : ReplayInput) : List DecisionExpr → ℕ → Option (List EvalOutcome)
  | [], _ => some []
  | arg :: args, idx => do
    let outcome ← R.evalExpr arg idx
    let outcomes ← R.evalArgs args idx
    return outcome :: outcomes

end

/-- A turn of the loop over the rows: `failed_indices` and `failed_rule_ids` after it. -/
def replayRow (R : ReplayInput) (inner : DecisionExpr) (failed : List ℕ × List ℕ) (idx : ℕ) :
    Option (List ℕ × List ℕ) :=
  (R.evalExpr inner idx).map fun outcome =>
    if outcome.value then failed else (failed.1 ++ [idx], failed.2 ++ outcome.failedRuleIds)

end ReplayInput

/-! ## The report -/

/-- `decision.inner`, and whether `decision.kind` is `all`; a root without an inner expression is not
replayed. -/
def DecisionExpr.root? : DecisionExpr → Option (Bool × DecisionExpr)
  | .aggregate kind inner => some (kind = .all, inner)
  | .not inner => some (false, inner)
  | .comparison _ | .and _ | .or _ => none

/-- The entries about the first rule that failed. -/
def firstRuleEntries (rules : List ComparisonRule) (failedRuleIds : List ℕ) : List (String × Json) :=
  match failedRuleIds.findSome? fun number => rules.find? (·.number = number) with
  | some rule => [("rule_id", .str (ruleId rule.number)), ("policy_path", .str rule.policyPath),
      ("operator", .str rule.operator.text), ("input_refs", .arr (rule.inputRefs.map .str))]
  | none => []

/-- The report on a decision that holds. -/
def passedEntries : List (String × Json) :=
  [("reason", .str "policy_trace_passed"), ("failed_indices", .arr []), ("failed_rule_ids", .arr [])]

/-- The report on a decision that fails. -/
def failureEntries (rules : List ComparisonRule) (failedIndices failedRuleIds : List ℕ) : List (String × Json) :=
  [("reason", .str "policy_rule_failed"),
    ("failed_indices", .arr ((failedIndices.take 25).map fun idx => .int idx)),
    ("failed_rule_ids", .arr (((failedRuleIds.map ruleId).dedup.mergeSort (· ≤ ·)).map .str))] ++
    firstRuleEntries rules failedRuleIds

/-- The replay of a decision with this root. -/
def replayDecision (isAll : Bool) (inner : DecisionExpr) (privateInput : Json) (policyParameters : List (String × ℤ)) :
    Option (List (String × Json)) := do
  let R : ReplayInput := ⟨privateInput, policyParameters, ComparisonRule.collectRules "decision.inner" inner []⟩
  let activeCount ← R.activeCount
  if activeCount ≤ 0 then
    return [("reason", .str "policy_trace_unavailable"), ("detail", .str "active_count missing or invalid")]
  let (failedIndices, failedRuleIds) ← (List.range activeCount.toNat).foldlM (R.replayRow inner) ([], [])
  let decisionFailed : Bool := if isAll then 0 < failedIndices.length else failedIndices.length = activeCount.toNat
  if decisionFailed then return failureEntries R.rules failedIndices failedRuleIds
  return passedEntries

/-- `_evaluate_policy_trace`: the entries of the report, or `None`. The spec is what the file of the
policy loads as, none where it is absent or does not load. -/
def evaluatePolicyTrace (spec : Option PolicyDSLSpec) (privateInput : Json) (policyParameters : List (String × ℤ)) :
    Option (Option (List (String × Json))) :=
  match spec.bind (·.decision.root?) with
  | some (isAll, inner) => (replayDecision isAll inner privateInput policyParameters).map some
  | none => some none

/-! ## The replay and the policy -/

/-- The rows at which the inner expression of a decision is false. -/
def DecisionExpr.falseRows (inner : DecisionExpr) (B : Batch) : List ℕ :=
  (List.range B.activeCount).filter fun i => !inner.holdsAt B i

/-- **The replay computes the decision** of normalized evidence: it passes iff the reference policy
does, and reports the first rows at which the inner expression is false otherwise. -/
def ReplayAgrees (sha256 : String → String) (spec : PolicyDSLSpec) (policy : GeneratedReferencePolicy)
    (n : NormalizedEvidence) : Prop :=
  ∃ kind inner privateInput entries, spec.decision = .aggregate kind inner ∧
    policy.toPrivateInput sha256 n = some privateInput ∧
    evaluatePolicyTrace (some spec) privateInput n.policyParameters = some (some entries) ∧
    (entries.lookup "reason" = some (.str "policy_trace_passed") ↔ policy.evaluateReference n = some .pass) ∧
    (entries.lookup "reason" ≠ some (.str "policy_trace_passed") →
      entries.lookup "failed_indices" = some (.arr (((inner.falseRows n.batch).take 25).map fun i => .int i)))

/-! ## Attribution -/

/-- A step from an expression to a part of it. -/
inductive PathStep where
  | arg (idx : ℕ)
  | inner
deriving DecidableEq

def PathStep.text : PathStep → String
  | .arg idx => ".args[" ++ idx.repr ++ "]"
  | .inner => ".inner"

/-- The `policy_path` of a place, from the path of the expression on. -/
def policyPath (path : String) : List PathStep → String
  | [] => path
  | step :: place => policyPath (path ++ step.text) place

namespace DecisionExpr

mutual

/-- The comparisons of an expression with their places, from left to right. -/
def occurrences : DecisionExpr → List (List PathStep × ComparisonExpr)
  | comparison c => [([], c)]
  | and args => occurrencesArgs 0 args
  | or args => occurrencesArgs 0 args
  | not inner => inner.occurrences.map fun o => (.inner :: o.1, o.2)
  | aggregate _ inner => inner.occurrences.map fun o => (.inner :: o.1, o.2)

def occurrencesArgs (idx : ℕ) : List DecisionExpr → List (List PathStep × ComparisonExpr)
  | [] => []
  | arg :: args => (arg.occurrences.map fun o => (.arg idx :: o.1, o.2)) ++ occurrencesArgs (idx + 1) args

end

mutual

/-- No `not` stands in the expression. -/
def positive : DecisionExpr → Bool
  | comparison _ => true
  | and args => positiveArgs args
  | or args => positiveArgs args
  | not _ => false
  | aggregate _ inner => inner.positive

def positiveArgs : List DecisionExpr → Bool
  | [] => true
  | e :: es => e.positive && positiveArgs es

end

end DecisionExpr

namespace ReplayInput

variable (R : ReplayInput)

/-- The number of rows the replay goes through. -/
def rows : ℕ := (R.activeCount.getD 0).toNat

/-- Whether a comparison holds at a row of the input. -/
def compares (c : ComparisonExpr) (idx : ℕ) : Bool :=
  c.op.holds ((R.resolveValue idx c.left).getD 0) ((R.resolveValue idx c.right).getD 0)

mutual

/-- Whether an expression holds at a row of the input. -/
def holds : DecisionExpr → ℕ → Bool
  | .comparison c, idx => R.compares c idx
  | .and args, idx => holdsAll args idx
  | .or args, idx => holdsAny args idx
  | .not inner, idx => !holds inner idx
  | .aggregate .all inner, _ => (List.range R.rows).all fun nestedIdx => holds inner nestedIdx
  | .aggregate .any inner, _ => (List.range R.rows).any fun nestedIdx => holds inner nestedIdx

def holdsAll : List DecisionExpr → ℕ → Bool
  | [], _ => true
  | e :: es, idx => holds e idx && holdsAll es idx

def holdsAny : List DecisionExpr → ℕ → Bool
  | [], _ => false
  | e :: es, idx => holds e idx || holdsAny es idx

end

/-- `R.Visits skips e idx place c row`: to evaluate `e` at the row `idx` is to evaluate the comparison
`c`, which stands at `place`, at `row`. The alternatives (`or` and `any`) that `skips` names are not
entered. -/
inductive Visits (skips : DecisionExpr → ℕ → Bool) :
    DecisionExpr → ℕ → List PathStep → ComparisonExpr → ℕ → Prop
  | comparison (c : ComparisonExpr) (idx : ℕ) : Visits skips (.comparison c) idx [] c idx
  | and {args : List DecisionExpr} {k : ℕ} {arg : DecisionExpr} {idx : ℕ} {place : List PathStep}
      {c : ComparisonExpr} {row : ℕ} (harg : args[k]? = some arg) (h : Visits skips arg idx place c row) :
      Visits skips (.and args) idx (.arg k :: place) c row
  | or {args : List DecisionExpr} {k : ℕ} {arg : DecisionExpr} {idx : ℕ} {place : List PathStep}
      {c : ComparisonExpr} {row : ℕ} (hskip : skips (.or args) idx = false) (harg : args[k]? = some arg)
      (h : Visits skips arg idx place c row) : Visits skips (.or args) idx (.arg k :: place) c row
  | not {inner : DecisionExpr} {idx : ℕ} {place : List PathStep} {c : ComparisonExpr} {row : ℕ}
      (h : Visits skips inner idx place c row) : Visits skips (.not inner) idx (.inner :: place) c row
  | all {inner : DecisionExpr} {idx nestedIdx : ℕ} {place : List PathStep} {c : ComparisonExpr} {row : ℕ}
      (hnested : nestedIdx < R.rows) (h : Visits skips inner nestedIdx place c row) :
      Visits skips (.aggregate .all inner) idx (.inner :: place) c row
  | any {inner : DecisionExpr} {idx nestedIdx : ℕ} {place : List PathStep} {c : ComparisonExpr} {row : ℕ}
      (hskip : skips (.aggregate .any inner) idx = false) (hnested : nestedIdx < R.rows)
      (h : Visits skips inner nestedIdx place c row) :
      Visits skips (.aggregate .any inner) idx (.inner :: place) c row

/-- The comparison at the place is false when the expression is evaluated at some row where it fails;
below a nested quantifier it is evaluated at every row. -/
def FalseAt (skips : DecisionExpr → ℕ → Bool) (inner : DecisionExpr) (place : List PathStep) (c : ComparisonExpr) :
    Prop :=
  ∃ idx < R.rows, R.holds inner idx = false ∧ ∃ row, R.Visits skips inner idx place c row ∧ R.compares c row = false

/-- The rule under whose id `_eval_expr` reports a comparison. -/
def reportedRule (c : ComparisonExpr) : Option ComparisonRule := R.rules[comparisonIndex R.rules c]?

end ReplayInput

/-- **The report names the right rules**: some rule; of every rule it lists, a comparison that stands
at the recorded path and was false where the inner expression failed; and no rule for the comparisons
of two paths. -/
structure AttributesFailure (R : ReplayInput) (inner : DecisionExpr) (entries : List (String × Json)) : Prop where
  nonempty : ∃ ids, entries.lookup "failed_rule_ids" = some (.arr ids) ∧ ids ≠ []
  false_at : ∀ ids, entries.lookup "failed_rule_ids" = some (.arr ids) → ∀ id ∈ ids,
    ∃ rule ∈ R.rules, id = .str (ruleId rule.number) ∧ ∃ place c,
      policyPath "decision.inner" place = rule.policyPath ∧ R.FalseAt (fun _ _ => false) inner place c
  apart : ∀ o ∈ inner.occurrences, ∀ o' ∈ inner.occurrences,
    policyPath "decision.inner" o.1 ≠ policyPath "decision.inner" o'.1 →
      (R.reportedRule o.2).map (ruleId ·.number) ≠ (R.reportedRule o'.2).map (ruleId ·.number)

end Vellum
