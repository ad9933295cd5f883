import Vellum.Spec.CircomRenderer
import Vellum.Spec.PythonModule

/-!
# What a decision says

The meaning of a decision expression on a batch, independent of both renderers: a
value node is an integer at a row, a comparison compares, and `all`/`any` range over
the active rows. Both backends are compared with this.
-/

namespace Vellum

/-- A batch with its parameters: what a decision is about. -/
structure Batch where
  activeCount : ℕ
  balances : List ℤ
  limits : List ℤ
  params : String → ℤ

/-- The integer a value node denotes at row `i`. -/
def Batch.valueAt (B : Batch) (i : ℕ) : ValueRef → ℤ
  | .constInt c => c
  | .param p => B.params p
  | .ref s =>
    if s = "balances" then B.balances.getD i 0
    else if s = "limits" then B.limits.getD i 0
    else if s = "active_count" then B.activeCount
    else B.params (String.ofList (s.toList.drop "policy_params.".length))

namespace DecisionExpr

mutual

/-- Whether the decision holds at row `i`. -/
def holdsAt (B : Batch) (i : ℕ) : DecisionExpr → Bool
  | comparison c => c.op.holds (B.valueAt i c.left) (B.valueAt i c.right)
  | and args => holdsAll B i args
  | or args => holdsAny B i args
  | not inner => !inner.holdsAt B i
  | aggregate .all inner => (List.range B.activeCount).all fun j => inner.holdsAt B j
  | aggregate .any inner => (List.range B.activeCount).any fun j => inner.holdsAt B j

def holdsAll (B : Batch) (i : ℕ) : List DecisionExpr → Bool
  | [] => true
  | e :: es => e.holdsAt B i && holdsAll B i es

def holdsAny (B : Batch) (i : ℕ) : List DecisionExpr → Bool
  | [] => false
  | e :: es => e.holdsAt B i || holdsAny B i es

end

/-! ## What its evaluation reads -/

/-- The rows that a loop over `l` comes to: it stops behind the first at which `p` fails. -/
def rowsUntil (p : ℕ → Bool) : List ℕ → List ℕ
  | [] => []
  | i :: is => i :: if p i then rowsUntil p is else []

mutual

/-- The parameters that Python's evaluation at row `i` reads: `and`, `or`, `all` and `any` stop at
the first operand that decides. -/
def namesRead (B : Batch) (i : ℕ) : DecisionExpr → List String
  | comparison c => c.left.paramNames ++ c.right.paramNames
  | and args => namesReadAll B i args
  | or args => namesReadAny B i args
  | not inner => inner.namesRead B i
  | aggregate .all inner =>
    (rowsUntil (fun j => inner.holdsAt B j) (List.range B.activeCount)).flatMap fun j => inner.namesRead B j
  | aggregate .any inner =>
    (rowsUntil (fun j => !inner.holdsAt B j) (List.range B.activeCount)).flatMap fun j => inner.namesRead B j

def namesReadAll (B : Batch) (i : ℕ) : List DecisionExpr → List String
  | [] => []
  | e :: es => e.namesRead B i ++ if e.holdsAt B i then namesReadAll B i es else []

def namesReadAny (B : Batch) (i : ℕ) : List DecisionExpr → List String
  | [] => []
  | e :: es => e.namesRead B i ++ if e.holdsAt B i then [] else namesReadAny B i es

end

end DecisionExpr

/-! ## What the module makes of it -/

namespace PolicyDSLSpec

/-- The batch with the parameters that the literals of the module find. -/
def found (I : Interpreter) (spec : PolicyDSLSpec) (B : Batch) : Batch := { B with params := B.params ∘ spec.key I }

/-- Whether the evaluation raises no `KeyError`: every literal it comes to is the name of a parameter. -/
def finds (I : Interpreter) (spec : PolicyDSLSpec) (B : Batch) : Bool :=
  (spec.decision.namesRead (spec.found I B) 0).all fun name => spec.key I name ∈ spec.policyParameters.keys

/-- **The module finds the parameters** on a batch: its evaluation raises nothing, and decides as with
the parameters that the spec names. -/
structure FindsParameters (I : Interpreter) (spec : PolicyDSLSpec) (B : Batch) : Prop where
  finds : spec.finds I B = true
  decision : spec.decision.holdsAt (spec.found I B) 0 = spec.decision.holdsAt B 0

end PolicyDSLSpec

/-! ## Batches -/

/-- A zero-padded batch of `N` rows of unsigned 32-bit values, at least one of them active,
with parameters of the same range. -/
structure Batch.Padded (B : Batch) (N : ℕ) (names : List String) : Prop where
  lenBalances : B.balances.length = N
  lenLimits : B.limits.length = N
  activePos : 1 ≤ B.activeCount
  activeLe : B.activeCount ≤ N
  balancesU32 : ∀ x ∈ B.balances, 0 ≤ x ∧ x < 2 ^ 32
  limitsU32 : ∀ x ∈ B.limits, 0 ≤ x ∧ x < 2 ^ 32
  balancesZero : ∀ i, B.activeCount ≤ i → B.balances.getD i 0 = 0
  limitsZero : ∀ i, B.activeCount ≤ i → B.limits.getD i 0 = 0
  paramsU32 : ∀ n ∈ names, 0 ≤ B.params n ∧ B.params n < 2 ^ 32

/-- The batch as normalized evidence. -/
def Batch.normalized (B : Batch) (names : List String) : NormalizedEvidence :=
  ⟨B.balances, B.limits, .int B.activeCount, names.map fun n => (n, B.params n)⟩

/-- Normalized evidence as a batch. -/
def NormalizedEvidence.batch (n : NormalizedEvidence) : Batch :=
  ⟨n.activeCount.toInt.toNat, n.balances, n.limits, fun name => (n.policyParameters.lookup name).getD 0⟩

/-- An assignment has the batch at the circuit's input signals. -/
structure Batch.Inputs (B : Batch) (N : ℕ) (names : List String) (w : Assignment) : Prop where
  activeCount : w .activeCount 0 = (B.activeCount : F)
  balances : ∀ i < N, w .balances i = ((B.balances.getD i 0 : ℤ) : F)
  limits : ∀ i < N, w .limits i = ((B.limits.getD i 0 : ℤ) : F)
  params : ∀ j n, names[j]? = some n → w .policyParams j = ((B.params n : ℤ) : F)

/-- **The two backends agree on a batch**: the constraints of the emitted aggregates are
satisfiable with these inputs, and in every satisfying assignment the root value is 1 if
the decision of the generated module evaluates to `True` and 0 otherwise. -/
def BackendsAgree (I : Interpreter) (spec : PolicyDSLSpec) (B : Batch) : Prop :=
  ∃ kind inner blocks, spec.decision = .aggregate kind inner ∧
    renderBlocks spec.policyParameters.keys kind inner = .ok blocks ∧
    (∃ w, B.Inputs spec.batchSize spec.policyParameters.keys w ∧ GeneratedHolds spec.batchSize blocks w) ∧
    ∀ w, B.Inputs spec.batchSize spec.policyParameters.keys w → GeneratedHolds spec.batchSize blocks w →
      w (.value (buildRoot kind inner).1) 0 =
        if (loadDecision I spec).bind (·.eval (B.normalized spec.policyParameters.keys).env) = some true
        then 1 else 0

/-! ## A proof of `pass` -/

/-- The constraints of the circuit generated from a spec, with the value of its decision. -/
def GeneratedCircuit (spec : PolicyDSLSpec) (w : Assignment) (decision : F) : Prop :=
  ∃ kind inner blocks, spec.decision = .aggregate kind inner ∧
    renderBlocks spec.policyParameters.keys kind inner = .ok blocks ∧
    GeneratedHolds spec.batchSize blocks w ∧ decision = w (.value (buildRoot kind inner).1) 0

/-- The public limits, truncated to the active count. -/
def publicLimits (limits : ℕ → F) (activeCount : F) : List ℤ :=
  (List.range activeCount.val).map fun i => ((limits i).val : ℤ)

/-- Some unsigned 32-bit balances that the reference policy accepts with these limits and
parameters, and passes. -/
def AdmissiblePass (policy : GeneratedReferencePolicy) (limits : List ℤ) (params : List (String × ℤ)) : Prop :=
  ∃ balances : List ℤ, (∀ x ∈ balances, 0 ≤ x ∧ x < 2 ^ 32) ∧
    ∃ n, policy.normalize (evidenceOf balances limits params) = .ok n ∧
      policy.evaluateReference n = some .pass

end Vellum
