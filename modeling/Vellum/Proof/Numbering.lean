import Vellum.Proof.Attribution
import Vellum.Proof.Layout
import Vellum.Spec.Compiler

/-!
# Rules have one number everywhere

The circuit builder, the debug trace and the explainability replay number the comparisons of a
decision in three traversals of their own. All three follow the list of the comparisons with their
places, from left to right.

* `mem_occurrences`: that list holds every comparison of the tree.
* `debugRules_eq`, `nodes_perm`: the debug trace and the builder follow it.
* `rule_numbering`: the k-th comparison is the same one everywhere.
-/

namespace Vellum

/-! ## Comparisons of the tree -/

/-- The expression at a place of the tree. -/
def DecisionExpr.at? (e : DecisionExpr) : List PathStep → Option DecisionExpr
  | [] => some e
  | .arg idx :: place =>
    match e with
    | .and args => args[idx]?.bind (·.at? place)
    | .or args => args[idx]?.bind (·.at? place)
    | _ => none
  | .inner :: place =>
    match e with
    | .not inner => inner.at? place
    | .aggregate _ inner => inner.at? place
    | _ => none

theorem mem_occurrencesArgs_iff {args : List DecisionExpr}
    (h : ∀ e ∈ args, ∀ place c, (place, c) ∈ e.occurrences ↔ e.at? place = some (.comparison c)) (start : ℕ)
    (place : List PathStep) (c : ComparisonExpr) : (place, c) ∈ DecisionExpr.occurrencesArgs start args ↔
      ∃ k place' arg, place = .arg (start + k) :: place' ∧ args[k]? = some arg ∧
        arg.at? place' = some (.comparison c) := by
  constructor
  · intro hmem
    induction args generalizing start with
    | nil => cases hmem
    | cons e es ih =>
      rw [DecisionExpr.occurrencesArgs, List.mem_append] at hmem
      rcases hmem with hmem | hmem
      · obtain ⟨⟨place', c'⟩, ho, heq⟩ := List.mem_map.1 hmem
        obtain ⟨rfl, rfl⟩ := Prod.mk.inj heq
        exact ⟨0, place', e, rfl, rfl, (h e (by simp) place' c').1 ho⟩
      · obtain ⟨k, place', arg, rfl, harg, hat⟩ := ih (fun x hx => h x (by simp [hx])) (start + 1) hmem
        exact ⟨k + 1, place', arg, by rw [Nat.add_assoc, Nat.add_comm 1], harg, hat⟩
  · rintro ⟨k, place', arg, rfl, harg, hat⟩
    have ho := (h arg (List.mem_of_getElem? harg) place' c).2 hat
    exact mem_occurrencesArgs start harg ho

/-- **The occurrences of a decision** are the comparisons of its tree, at their places. -/
theorem mem_occurrences (e : DecisionExpr) : ∀ place c,
    (place, c) ∈ e.occurrences ↔ e.at? place = some (.comparison c) := by
  -- a connective is left by the index of an argument
  have hargs : ∀ args : List DecisionExpr,
      (∀ e ∈ args, ∀ place c, (place, c) ∈ e.occurrences ↔ e.at? place = some (.comparison c)) →
      ∀ place c, (place, c) ∈ DecisionExpr.occurrencesArgs 0 args ↔
        ∃ k place', place = .arg k :: place' ∧ args[k]?.bind (·.at? place') = some (.comparison c) := by
    intro args h place c
    rw [mem_occurrencesArgs_iff h]
    constructor
    · rintro ⟨k, place', arg, rfl, harg, hat⟩
      exact ⟨0 + k, place', rfl, by rw [Nat.zero_add, harg]; exact hat⟩
    · rintro ⟨k, place', rfl, hbind⟩
      obtain ⟨arg, harg, hat⟩ := Option.bind_eq_some_iff.1 hbind
      exact ⟨k, place', arg, by rw [Nat.zero_add], harg, hat⟩
  -- a node with one expression inside is left by `inner`
  have hinner : ∀ inner : DecisionExpr,
      (∀ place c, (place, c) ∈ inner.occurrences ↔ inner.at? place = some (.comparison c)) →
      ∀ place c, (place, c) ∈ (inner.occurrences.map fun o => (PathStep.inner :: o.1, o.2)) ↔
        ∃ place', place = .inner :: place' ∧ inner.at? place' = some (.comparison c) := by
    intro inner h place c
    constructor
    · intro hmem
      obtain ⟨⟨place', c'⟩, ho, heq⟩ := List.mem_map.1 hmem
      obtain ⟨rfl, rfl⟩ := Prod.mk.inj heq
      exact ⟨place', rfl, (h place' c').1 ho⟩
    · rintro ⟨place', rfl, hat⟩
      exact List.mem_map.2 ⟨(place', c), (h place' c).2 hat, rfl⟩
  induction e with
  | comparison c =>
    intro place c'
    cases place with
    | nil => simp [DecisionExpr.occurrences, DecisionExpr.at?, eq_comm]
    | cons step place => cases step <;> simp [DecisionExpr.occurrences, DecisionExpr.at?]
  | and args ih | or args ih =>
    intro place c
    rw [DecisionExpr.occurrences, hargs args ih]
    cases place with
    | nil => simp [DecisionExpr.at?]
    | cons step place => cases step <;> simp [DecisionExpr.at?]
  | not inner ih | aggregate kind inner ih =>
    intro place c
    rw [DecisionExpr.occurrences, hinner inner ih]
    cases place with
    | nil => simp [DecisionExpr.at?]
    | cons step place => cases step <;> simp [DecisionExpr.at?]

/-! ## The three traversals -/

/-- The rule that the debug trace has for a numbered comparison. -/
def debugRuleOf (path : String) (o : (List PathStep × ComparisonExpr) × ℕ) : DebugRule :=
  ⟨o.2, policyPath path o.1.1, o.1.2⟩

theorem debugRuleOf_cons (path : String) (step : PathStep) (l : List (List PathStep × ComparisonExpr)) (n : ℕ) :
    ((l.map fun o => (step :: o.1, o.2)).zipIdx n).map (debugRuleOf path) =
      (l.zipIdx n).map (debugRuleOf (path ++ step.text)) := by
  rw [List.zipIdx_map, List.map_map]
  rfl

theorem debugRulesArgs_eq {args : List DecisionExpr}
    (h : ∀ e ∈ args, ∀ path rules, collectRules path e rules =
      rules ++ (e.occurrences.zipIdx rules.length).map (debugRuleOf path)) (path : String) (start : ℕ)
    (rules : List DebugRule) : collectRulesArgs path start args rules =
      rules ++ ((DecisionExpr.occurrencesArgs start args).zipIdx rules.length).map (debugRuleOf path) := by
  induction args generalizing start rules with
  | nil => simp [collectRulesArgs, DecisionExpr.occurrencesArgs]
  | cons e es ih =>
    have hpath : path ++ ".args[" ++ start.repr ++ "]" = path ++ (PathStep.arg start).text := by
      simp only [PathStep.text, String.append_assoc]
    rw [collectRulesArgs, h e (by simp), ih (fun x hx => h x (by simp [hx])), DecisionExpr.occurrencesArgs,
      List.zipIdx_append, List.map_append, List.append_assoc, hpath, debugRuleOf_cons]
    congr 3
    simp

/-- **The rules of the debug trace** are the comparisons in their order, each with its place. -/
theorem debugRules_eq (e : DecisionExpr) : ∀ path rules, collectRules path e rules =
    rules ++ (e.occurrences.zipIdx rules.length).map (debugRuleOf path) := by
  induction e with
  | comparison c => exact fun path rules => rfl
  | and args ih => exact fun path rules => debugRulesArgs_eq ih path 0 rules
  | or args ih => exact fun path rules => debugRulesArgs_eq ih path 0 rules
  | not inner ih =>
    intro path rules
    rw [collectRules, ih, DecisionExpr.occurrences, debugRuleOf_cons]
    rfl
  | aggregate kind inner ih =>
    intro path rules
    rw [collectRules, ih, DecisionExpr.occurrences, debugRuleOf_cons]
    rfl

/-- The comparators of a circuit. -/
def circuitNodes (kind : AggregateKind) (inner : DecisionExpr) : List CircomComparisonNode :=
  (buildRoot kind inner).2.flatMap CircomAggregateNode.comparisonNodes

/-- **The comparators of the circuit** are the comparisons with their numbers. -/
theorem nodes_perm (kind : AggregateKind) (inner : DecisionExpr) :
    (circuitNodes kind inner).Perm (inner.occurrences.zipIdx.map fun o => nodeOf (o.1.2, o.2)) := by
  have hnodes := laid_nodes (.aggregate kind inner) 0 0
  have hall : (DecisionExpr.aggregate kind inner).allNodes 0 0 = circuitNodes kind inner := by
    rw [circuitNodes, buildRoot_layout]
    rfl
  have hlist : (DecisionExpr.aggregate kind inner).comparisons = inner.occurrences.map Prod.snd :=
    (occurrences_map_snd inner).symm
  rw [hall, hlist, List.zipIdx_map, List.map_map] at hnodes
  exact hnodes

/-! ## One number -/

/-- The comparison at a place has the number `k` in the circuit, in the debug trace and in the
replay, with the same operator and operands, and the same path in the two lists of rules. -/
structure Numbered (kind : AggregateKind) (inner : DecisionExpr) (k : ℕ) (place : List PathStep) (c : ComparisonExpr) :
    Prop where
  node : (⟨k, c.op, c.left, c.right⟩ : CircomComparisonNode) ∈ circuitNodes kind inner
  debug : (collectRules "decision.inner" inner [])[k]? = some ⟨k, policyPath "decision.inner" place, c⟩
  replay : (ComparisonRule.collectRules "decision.inner" inner [])[k]? =
    some ⟨k, policyPath "decision.inner" place, c.op, c.left, c.right⟩

theorem numbered_iff {kind : AggregateKind} {inner : DecisionExpr} {k : ℕ} {place : List PathStep} {c : ComparisonExpr} :
    Numbered kind inner k place c ↔ inner.occurrences[k]? = some (place, c) := by
  have hdebug : (collectRules "decision.inner" inner [])[k]? =
      (inner.occurrences[k]?).map fun o => debugRuleOf "decision.inner" (o, k) := by
    rw [debugRules_eq, List.nil_append, List.getElem?_map, List.getElem?_zipIdx, Option.map_map]
    simp [Function.comp_def]
  have hreplay : (ComparisonRule.collectRules "decision.inner" inner [])[k]? =
      (inner.occurrences[k]?).map fun o => ruleOf "decision.inner" (o, k) := by
    rw [collectRules_eq, List.nil_append, List.getElem?_map, List.getElem?_zipIdx, Option.map_map]
    simp [Function.comp_def]
  constructor
  · intro h
    have hrule := h.debug
    rw [hdebug, Option.map_eq_some_iff] at hrule
    obtain ⟨⟨place', c'⟩, ho, heq⟩ := hrule
    obtain ⟨-, hpath, rfl⟩ := DebugRule.mk.inj heq
    obtain rfl := policyPath_inj hpath
    exact ho
  · intro h
    refine ⟨?_, ?_, ?_⟩
    · refine (nodes_perm kind inner).mem_iff.2 (List.mem_map.2 ⟨((place, c), k), ?_, rfl⟩)
      exact List.mem_zipIdx_iff_getElem?.2 h
    · rw [hdebug, h]
      rfl
    · rw [hreplay, h]
      rfl

/-- **Rules have one number everywhere.** The circuit, the debug trace and the replay have equally
many rules and no number twice; every comparison of the tree has exactly one number, and a number
is that of exactly one of them. -/
theorem rule_numbering (kind : AggregateKind) (inner : DecisionExpr) :
    ((circuitNodes kind inner).length = inner.occurrences.length ∧
      (collectRules "decision.inner" inner []).length = inner.occurrences.length ∧
      (ComparisonRule.collectRules "decision.inner" inner []).length = inner.occurrences.length) ∧
    ((circuitNodes kind inner).map CircomComparisonNode.nodeId).Perm (List.range inner.occurrences.length) ∧
    (∀ place c, inner.at? place = some (.comparison c) → ∃! k, Numbered kind inner k place c) ∧
    ∀ k < inner.occurrences.length, ∃ place c, inner.at? place = some (.comparison c) ∧
      Numbered kind inner k place c ∧ ∀ place' c', Numbered kind inner k place' c' → place' = place ∧ c' = c := by
  have hperm := nodes_perm kind inner
  refine ⟨⟨?_, ?_, ?_⟩, ?_, ?_, ?_⟩
  · simpa using hperm.length_eq
  · rw [debugRules_eq]
    simp
  · rw [collectRules_eq]
    simp
  · have hids := hperm.map CircomComparisonNode.nodeId
    have hzip : (inner.occurrences.zipIdx.map fun o => nodeOf (o.1.2, o.2)).map CircomComparisonNode.nodeId =
        List.range inner.occurrences.length := by
      rw [List.map_map, List.range_eq_range']
      exact List.zipIdx_map_snd 0 inner.occurrences
    rw [hzip] at hids
    exact hids
  · intro place c hat
    obtain ⟨k, hk⟩ := List.mem_iff_getElem?.1 ((mem_occurrences inner place c).2 hat)
    refine ⟨k, numbered_iff.2 hk, fun k' hk' => ?_⟩
    -- no place occurs twice
    have hk' := numbered_iff.1 hk'
    have hplace : (inner.occurrences.map Prod.fst)[k]? = some place := by
      rw [List.getElem?_map, hk]
      rfl
    have hplace' : (inner.occurrences.map Prod.fst)[k']? = some place := by
      rw [List.getElem?_map, hk']
      rfl
    obtain ⟨hlt, -⟩ := List.getElem?_eq_some_iff.1 hplace'
    exact (List.getElem?_inj hlt (nodup_occurrences inner)).1 (hplace'.trans hplace.symm)
  · intro k hk
    obtain ⟨⟨place, c⟩, ho⟩ : ∃ o, inner.occurrences[k]? = some o := ⟨_, List.getElem?_eq_getElem hk⟩
    refine ⟨place, c, (mem_occurrences inner place c).1 (List.mem_of_getElem? ho), numbered_iff.2 ho, ?_⟩
    intro place' c' h
    have ho' := numbered_iff.1 h
    rw [ho] at ho'
    obtain ⟨rfl, rfl⟩ := Prod.mk.inj (Option.some.inj ho')
    exact ⟨rfl, rfl⟩

end Vellum
