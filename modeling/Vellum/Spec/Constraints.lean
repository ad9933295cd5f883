import Vellum.Lib.Quadratic
import Vellum.Spec.CircomRenderer

/-!
# The constraints of a generated circuit

Every `<==` and `===` line of `render_circom_source` as a polynomial equation between cells:
the statements of the aggregate blocks, unrolled over the rows, and the lines around them
(the bounds on the active count, the hash of the parameters, the outputs).

* `parameterConstraints_text`, `renderOutputAssignments_text`, `boundsLine_text`: the lines
  here are those of the source text.
* `holds_constraint?`: a statement holds exactly where its polynomials agree.
-/

namespace Vellum

open MvPolynomial

/-- The cells of a generated template. -/
inductive Cell where
  | signal (signal : Signal) (index : ℕ)
  | boundsActiveCount
  | hasherInput (index : ℕ)
  | hasherOut
  | computedPolicyParamsHash
  | expectedPolicyParamsHash
  | output (name : String)
deriving DecidableEq, Repr

/-- The assignment of a template's cells, read as one of the signals of its blocks. -/
def blockCells (w : Cell → F) : Assignment := fun s i => w (.signal s i)

/-! ## The lines around the blocks -/

/-- What such a line mentions; the loop variable of the parameter lines is `p`. -/
inductive Wire where
  | zero
  | activeCount
  | value (aggregateId : ℕ)
  | policyParam
  | boundsActiveCount
  | hasherInput
  | hasherOut
  | computedPolicyParamsHash
  | expectedPolicyParamsHash
  | output (name : String)
deriving DecidableEq, Repr

namespace Wire

def text : Wire → String
  | zero => "0"
  | activeCount => "active_count"
  | value a => "agg_" ++ a.repr ++ "_value"
  | policyParam => "policy_params[p]"
  | boundsActiveCount => "active_count_bounds.active_count"
  | hasherInput => "policy_params_hasher.inputs[p]"
  | hasherOut => "policy_params_hasher.out"
  | computedPolicyParamsHash => "computed_policy_params_hash"
  | expectedPolicyParamsHash => "expected_policy_params_hash"
  | output name => name

/-- The cell a wire is, at loop index `p`; the constant has none. -/
def cell? (p : ℕ) : Wire → Option Cell
  | zero => none
  | activeCount => some (.signal .activeCount 0)
  | value a => some (.signal (.value a) 0)
  | policyParam => some (.signal .policyParams p)
  | boundsActiveCount => some .boundsActiveCount
  | hasherInput => some (.hasherInput p)
  | hasherOut => some .hasherOut
  | computedPolicyParamsHash => some .computedPolicyParamsHash
  | expectedPolicyParamsHash => some .expectedPolicyParamsHash
  | output name => some (.output name)

end Wire

/-- `lhs <== rhs;`, or `lhs === rhs;` where nothing is assigned. -/
structure WireLine where
  lhs : Wire
  assigns : Bool
  rhs : Wire
deriving DecidableEq, Repr

def WireLine.text (line : WireLine) : String :=
  line.lhs.text ++ (if line.assigns then " <== " else " === ") ++ line.rhs.text ++ ";"

def boundsLine : WireLine := ⟨.boundsActiveCount, true, .activeCount⟩

/-- The body of the loop over the parameters. -/
def hasherLine : WireLine := ⟨.hasherInput, true, .policyParam⟩

def computedHashLine : WireLine := ⟨.computedPolicyParamsHash, true, .hasherOut⟩

def expectedHashLine : WireLine := ⟨.computedPolicyParamsHash, false, .expectedPolicyParamsHash⟩

/-- The right-hand side of an output. -/
def outputWire (rootId : ℕ) (hasParameters : Bool) : OutputExpr → Wire
  | .decision => .value rootId
  | .activeCount => .activeCount
  | .policyParamsHash => if hasParameters then .computedPolicyParamsHash else .zero

def outputLine (rootId : ℕ) (hasParameters : Bool) (output : String × OutputSpec) : WireLine :=
  ⟨.output output.1, true, outputWire rootId hasParameters output.2.expr⟩

theorem boundsLine_text :
    "    active_count_bounds.active_count <== active_count;\n" = "    " ++ boundsLine.text ++ "\n" := by
  decide +kernel

theorem parameterConstraints_text {n : ℕ} (h : n ≠ 0) : parameterConstraints n =
    "    for (var p = 0; p < " ++ n.repr ++ "; p++) \x7b\n" ++ ("        " ++ hasherLine.text ++ "\n") ++
      "    \x7d\n" ++
      ("    " ++ computedHashLine.text ++ "\n") ++ ("    " ++ expectedHashLine.text ++ "\n") := by
  have h1 : "        " ++ hasherLine.text ++ "\n" =
    "        policy_params_hasher.inputs[p] <== policy_params[p];\n" := by
    decide +kernel
  have h2 : "    " ++ computedHashLine.text ++ "\n" =
      "    computed_policy_params_hash <== policy_params_hasher.out;\n" := by decide +kernel
  have h3 : "    " ++ expectedHashLine.text ++ "\n" =
      "    computed_policy_params_hash === expected_policy_params_hash;\n" := by decide +kernel
  rw [parameterConstraints, if_neg h, h1, h2, h3]

theorem outputSource_text (rootId : ℕ) (hasParameters : Bool) (e : OutputExpr) :
    outputSource rootId hasParameters e = (outputWire rootId hasParameters e).text := by
  cases e with
  | decision => rfl
  | activeCount => rfl
  | policyParamsHash => cases hasParameters <;> rfl

theorem renderOutputAssignments_text (outputs : Dict OutputSpec) (rootId : ℕ) (hasParameters : Bool) :
    renderOutputAssignments outputs rootId hasParameters = String.intercalate "\n"
      (outputs.items.map fun o => "    " ++ (outputLine rootId hasParameters o).text) := by
  have hline : ∀ o : String × OutputSpec,
      "    " ++ o.1 ++ " <== " ++ outputSource rootId hasParameters o.2.expr ++ ";" =
        "    " ++ (outputLine rootId hasParameters o).text := by
    intro o
    rw [outputSource_text]
    simp only [WireLine.text, outputLine, Wire.text, if_true, String.append_assoc]
  unfold renderOutputAssignments
  simp only [hline]

/-! ## Polynomials -/

/-- `lhs = rhs` between polynomials in the cells. -/
structure Constraint where
  lhs : MvPolynomial Cell F
  rhs : MvPolynomial Cell F

namespace Constraint

/-- The assignment satisfies the constraint. -/
def Holds (w : Cell → F) (c : Constraint) : Prop := eval w c.lhs = eval w c.rhs

/-- **What Circom admits**: `A * B + C = 0` with affine `A`, `B`, `C`. -/
def Quadratic (c : Constraint) : Prop := IsQuadratic (c.rhs - c.lhs)

end Constraint

/-- The polynomial of an expression at loop index `i`. -/
noncomputable def CircomExpr.poly (N i : ℕ) : CircomExpr → MvPolynomial Cell F
  | signal s j => X (.signal s (j.cell N i))
  | int c => C (c : F)
  | loopVar => C (i : F)
  | add a b => a.poly N i + b.poly N i
  | sub a b => a.poly N i - b.poly N i
  | mul a b => a.poly N i * b.poly N i
  | paren a => a.poly N i

/-- The constraint of an assignment; an instantiation has none of its own. -/
noncomputable def CircomStmt.constraint? (N i : ℕ) : CircomStmt → Option Constraint
  | assign s j rhs => some ⟨X (.signal s (j.cell N i)), rhs.poly N i⟩
  | instantiate .. => none

/-- The constraints of a block, its loop unrolled. -/
noncomputable def CircomBlock.constraints (N : ℕ) (b : CircomBlock) : List Constraint :=
  (b.head.constraint? N 0).toList ++
    (List.range N).flatMap (fun i => b.body.filterMap fun s => s.constraint? N i) ++
    (b.tail.constraint? N 0).toList

noncomputable def Wire.poly (p : ℕ) (wire : Wire) : MvPolynomial Cell F := (wire.cell? p).elim 0 X

noncomputable def WireLine.constraint (p : ℕ) (line : WireLine) : Constraint := ⟨line.lhs.poly p, line.rhs.poly p⟩

/-- The constraints of the lines around the blocks: the parameter lines are emitted if there
are parameters. -/
noncomputable def wireConstraints (outputs : Dict OutputSpec) (rootId parameters : ℕ) : List Constraint :=
  [boundsLine.constraint 0] ++
    (if parameters = 0 then [] else
      (List.range parameters).map hasherLine.constraint ++
        [computedHashLine.constraint 0, expectedHashLine.constraint 0]) ++
    outputs.items.map fun o => (outputLine rootId (decide (parameters ≠ 0)) o).constraint 0

/-- **All constraints `render_circom_source` emits.** It fails where the source does. -/
noncomputable def emittedConstraints (spec : PolicyDSLSpec) (kind : AggregateKind) (inner : DecisionExpr) :
    Except FrameworkError (List Constraint) := do
  let order := spec.policyParameters.keys
  let blocks ← renderBlocks order kind inner
  return wireConstraints spec.outputs (buildRoot kind inner).1 order.length ++
    blocks.flatMap fun b => b.constraints spec.batchSize

/-! ## Agreement with the semantics of the blocks -/

theorem eval_poly (N i : ℕ) (w : Cell → F) (e : CircomExpr) : eval w (e.poly N i) = e.eval N (blockCells w) i := by
  induction e with
  | signal s j => exact eval_X _
  | int c => exact eval_C _
  | loopVar => exact eval_C _
  | add a b iha ihb => rw [CircomExpr.poly, map_add, iha, ihb, CircomExpr.eval]
  | sub a b iha ihb => rw [CircomExpr.poly, map_sub, iha, ihb, CircomExpr.eval]
  | mul a b iha ihb => rw [CircomExpr.poly, map_mul, iha, ihb, CircomExpr.eval]
  | paren a ih => rw [CircomExpr.poly, ih, CircomExpr.eval]

/-- **A statement holds where its polynomials agree.** -/
theorem holds_constraint? {N i : ℕ} {w : Cell → F} {s : CircomStmt} {c : Constraint} (h : s.constraint? N i = some c) :
    c.Holds w ↔ s.Holds N (blockCells w) i := by
  cases s with
  | assign s j rhs =>
    rw [CircomStmt.constraint?, Option.some.injEq] at h
    subst h
    rw [Constraint.Holds, eval_X, eval_poly, CircomStmt.Holds]
    rfl
  | instantiate c t => cases h

end Vellum
