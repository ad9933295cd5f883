import Vellum.Lib.JsonText
import Vellum.Proof.Explainability

/-!
# Which rules a failed replay names

The replay lists the comparisons that are false at a failing row and stand below no alternative that
holds there. It does not turn the list around at a `not`, and it finds the id of a comparison by
looking for the first equal one. So a report names the right rules iff no comparison is written twice
and some comparison is left to be listed.

* `evalExpr_spec`: value and failed rules of an evaluation, by induction on the decision.
* `foldlM_replayRow_spec`: the loop over the rows.
* `collectRules_eq`: the rules are the comparisons in their order, with their places.
* `policyPath_inj`: a path is that of one place.
* `attributes_failure_iff`: when the report names the right rules.
* `attributes_of_positive`: always, without a `not` and without repetitions.
-/

namespace Vellum

open Json

variable {R : ReplayInput}

/-! ## Places -/

theorem mem_occurrencesArgs (start : ℕ) {args : List DecisionExpr} {k : ℕ} {arg : DecisionExpr}
    {o : List PathStep × ComparisonExpr} (harg : args[k]? = some arg) (ho : o ∈ arg.occurrences) :
    (.arg (start + k) :: o.1, o.2) ∈ DecisionExpr.occurrencesArgs start args := by
  induction args generalizing k start with
  | nil => simp at harg
  | cons e es ih =>
    rw [DecisionExpr.occurrencesArgs, List.mem_append]
    cases k with
    | zero =>
      cases harg
      exact .inl (List.mem_map.2 ⟨o, ho, rfl⟩)
    | succ k =>
      have hrest := @ih (start + 1) k (by simpa using harg)
      rw [Nat.add_right_comm] at hrest
      exact .inr hrest

/-- The places of arguments begin with their indices. -/
theorem occurrencesArgs_head {args : List DecisionExpr} {start : ℕ} {o : List PathStep × ComparisonExpr}
    (h : o ∈ DecisionExpr.occurrencesArgs start args) : ∃ k place, start ≤ k ∧ o.1 = .arg k :: place := by
  induction args generalizing start with
  | nil => cases h
  | cons e es ih =>
    rw [DecisionExpr.occurrencesArgs, List.mem_append] at h
    rcases h with h | h
    · obtain ⟨o', -, rfl⟩ := List.mem_map.1 h
      exact ⟨start, o'.1, le_rfl, rfl⟩
    · obtain ⟨k, place, hk, hplace⟩ := ih h
      exact ⟨k, place, by omega, hplace⟩

/-- A step put before distinct places. -/
theorem nodup_map_cons {l : List (List PathStep × ComparisonExpr)} (h : (l.map Prod.fst).Nodup) (step : PathStep) :
    ((l.map fun o => (step :: o.1, o.2)).map Prod.fst).Nodup := by
  have hmap : (l.map fun o => (step :: o.1, o.2)).map Prod.fst = (l.map Prod.fst).map (step :: ·) := by
    rw [List.map_map, List.map_map]
    rfl
  rw [hmap]
  exact h.map (List.cons_injective)

theorem nodup_occurrencesArgs {args : List DecisionExpr}
    (h : ∀ e ∈ args, (e.occurrences.map Prod.fst).Nodup) (start : ℕ) :
    ((DecisionExpr.occurrencesArgs start args).map Prod.fst).Nodup := by
  induction args generalizing start with
  | nil => exact List.nodup_nil
  | cons e es ih =>
    rw [DecisionExpr.occurrencesArgs, List.map_append, List.nodup_append']
    refine ⟨nodup_map_cons (h e (by simp)) _, ih (fun x hx => h x (by simp [hx])) _, ?_⟩
    -- the first argument has the smallest index
    intro place hfirst hrest
    simp only [List.map_map, List.mem_map] at hfirst hrest
    obtain ⟨o, -, rfl⟩ := hfirst
    obtain ⟨o', ho', heq⟩ := hrest
    obtain ⟨k, place', hk, hplace⟩ := occurrencesArgs_head ho'
    have hcons : PathStep.arg k :: place' = .arg start :: o.1 := hplace.symm.trans heq
    injection hcons with hhead
    injection hhead with hhead
    omega

/-- **No two comparisons stand at one place.** -/
theorem nodup_occurrences (e : DecisionExpr) : (e.occurrences.map Prod.fst).Nodup := by
  induction e with
  | comparison c => exact List.nodup_singleton _
  | and args ih => exact nodup_occurrencesArgs ih 0
  | or args ih => exact nodup_occurrencesArgs ih 0
  | not inner ih => exact nodup_map_cons ih _
  | aggregate kind inner ih => exact nodup_map_cons ih _

theorem occurrencesArgs_map_snd {args : List DecisionExpr}
    (h : ∀ e ∈ args, e.occurrences.map Prod.snd = e.comparisons) (start : ℕ) :
    (DecisionExpr.occurrencesArgs start args).map Prod.snd = DecisionExpr.comparisonsArgs args := by
  induction args generalizing start with
  | nil => rfl
  | cons e es ih =>
    have hfirst : (e.occurrences.map fun o => (PathStep.arg start :: o.1, o.2)).map Prod.snd =
        e.occurrences.map Prod.snd := List.map_map
    rw [DecisionExpr.occurrencesArgs, List.map_append, hfirst, h e (by simp), ih (fun x hx => h x (by simp [hx])),
      DecisionExpr.comparisonsArgs]

theorem occurrences_map_snd (e : DecisionExpr) : e.occurrences.map Prod.snd = e.comparisons := by
  induction e with
  | comparison c => rfl
  | and args ih => exact occurrencesArgs_map_snd ih 0
  | or args ih => exact occurrencesArgs_map_snd ih 0
  | not inner ih => exact List.map_map.trans ih
  | aggregate kind inner ih => exact List.map_map.trans ih

/-- No comparison is written twice iff the comparisons tell their places apart. -/
theorem nodup_comparisons_iff (e : DecisionExpr) :
    e.comparisons.Nodup ↔ ∀ o ∈ e.occurrences, ∀ o' ∈ e.occurrences, o.2 = o'.2 → o = o' := by
  rw [← occurrences_map_snd]
  exact List.nodup_map_iff_inj_on ((nodup_occurrences e).of_map _)

/-! ## Paths -/

theorem toList_policyPath (place : List PathStep) : ∀ path : String,
    (policyPath path place).toList = path.toList ++ place.flatMap (·.text.toList) := by
  induction place with
  | nil =>
    intro path
    simp [policyPath]
  | cons step place ih =>
    intro path
    rw [policyPath, ih, String.toList_append, List.append_assoc, List.flatMap_cons]

theorem toList_arg (idx : ℕ) : (PathStep.arg idx).text.toList = ".args[".toList ++ (Nat.toDigits 10 idx ++ [']']) := by
  unfold PathStep.text
  rw [String.toList_append, String.toList_append, Nat.toList_repr, List.append_assoc]
  rfl

/-- The texts of two places are equal only if they are one place. By induction on the places: the
second character of a step tells its kind, and a bracket ends its index. -/
theorem flatMap_text_inj : ∀ place place' : List PathStep,
    place.flatMap (·.text.toList) = place'.flatMap (·.text.toList) → place = place' := by
  intro place
  induction place with
  | nil =>
    intro place' h
    cases place' with
    | nil => rfl
    | cons step' place' =>
      cases step' with
      | arg idx' => simp [toList_arg] at h
      | inner => simp [PathStep.text] at h
  | cons step place ih =>
    intro place' h
    cases place' with
    | nil =>
      cases step with
      | arg idx => simp [toList_arg] at h
      | inner => simp [PathStep.text] at h
    | cons step' place' =>
      rw [List.flatMap_cons, List.flatMap_cons] at h
      cases step with
      | inner =>
        cases step' with
        | inner => rw [ih place' (List.append_cancel_left h)]
        | arg idx' =>
          rw [toList_arg] at h
          simp [PathStep.text] at h
      | arg idx =>
        cases step' with
        | inner =>
          rw [toList_arg] at h
          simp [PathStep.text] at h
        | arg idx' =>
          simp only [toList_arg, List.append_assoc] at h
          obtain ⟨hdigits, hrest⟩ := num_unique (numChar_of_intChar (toDigits_chars idx))
            (numChar_of_intChar (toDigits_chars idx')) (itemEnd_cons (.inr (.inl rfl))) (itemEnd_cons (.inr (.inl rfl)))
            (List.append_cancel_left h)
          rw [toDigits_inj hdigits, ih place' (List.cons.inj hrest).2]

/-- **A path is that of one place.** -/
theorem policyPath_inj {path : String} {place place' : List PathStep}
    (h : policyPath path place = policyPath path place') : place = place' := by
  have hlist := congrArg String.toList h
  rw [toList_policyPath, toList_policyPath] at hlist
  exact flatMap_text_inj _ _ (List.append_cancel_left hlist)

theorem ruleId_inj {k k' : ℕ} (h : ruleId k = ruleId k') : k = k' := by
  have hlist := congrArg String.toList h
  unfold ruleId at hlist
  rw [String.toList_append, String.toList_append] at hlist
  have hdigits := List.append_cancel_left hlist
  rw [Nat.toList_repr, Nat.toList_repr] at hdigits
  exact toDigits_inj hdigits

/-! ## Rules -/

/-- The rule of a comparison, with its number. -/
def ruleOf (path : String) (o : (List PathStep × ComparisonExpr) × ℕ) : ComparisonRule :=
  ⟨o.2, policyPath path o.1.1, o.1.2.op, o.1.2.left, o.1.2.right⟩

theorem ruleOf_cons (path : String) (step : PathStep) (l : List (List PathStep × ComparisonExpr)) (n : ℕ) :
    ((l.map fun o => (step :: o.1, o.2)).zipIdx n).map (ruleOf path) = (l.zipIdx n).map (ruleOf (path ++ step.text)) := by
  rw [List.zipIdx_map, List.map_map]
  rfl

theorem collectArgs_eq {args : List DecisionExpr}
    (h : ∀ e ∈ args, ∀ path rules, ComparisonRule.collectRules path e rules =
      rules ++ (e.occurrences.zipIdx rules.length).map (ruleOf path)) (path : String) (start : ℕ)
    (rules : List ComparisonRule) : ComparisonRule.collectArgs path start args rules =
      rules ++ ((DecisionExpr.occurrencesArgs start args).zipIdx rules.length).map (ruleOf path) := by
  induction args generalizing start rules with
  | nil => simp [ComparisonRule.collectArgs, DecisionExpr.occurrencesArgs]
  | cons e es ih =>
    have hpath : path ++ ".args[" ++ start.repr ++ "]" = path ++ (PathStep.arg start).text := by
      simp only [PathStep.text, String.append_assoc]
    rw [ComparisonRule.collectArgs, h e (by simp), ih (fun x hx => h x (by simp [hx])), DecisionExpr.occurrencesArgs,
      List.zipIdx_append, List.map_append, List.append_assoc, hpath, ruleOf_cons]
    congr 3
    simp

/-- **The rules are the comparisons in their order**, each with its place. By induction on the
decision. -/
theorem collectRules_eq (e : DecisionExpr) : ∀ path rules, ComparisonRule.collectRules path e rules =
    rules ++ (e.occurrences.zipIdx rules.length).map (ruleOf path) := by
  induction e with
  | comparison c => exact fun path rules => rfl
  | and args ih => exact fun path rules => collectArgs_eq ih path 0 rules
  | or args ih => exact fun path rules => collectArgs_eq ih path 0 rules
  | not inner ih =>
    intro path rules
    rw [ComparisonRule.collectRules, ih, DecisionExpr.occurrences, ruleOf_cons]
    rfl
  | aggregate kind inner ih =>
    intro path rules
    rw [ComparisonRule.collectRules, ih, DecisionExpr.occurrences, ruleOf_cons]
    rfl

/-! ## What an evaluation lists -/

namespace ReplayInput

theorem holdsAll_eq (args : List DecisionExpr) (idx : ℕ) : R.holdsAll args idx = args.all (R.holds · idx) := by
  induction args with
  | nil => rfl
  | cons e es ih => rw [holdsAll, ih, List.all_cons]

theorem holdsAny_eq (args : List DecisionExpr) (idx : ℕ) : R.holdsAny args idx = args.any (R.holds · idx) := by
  induction args with
  | nil => rfl
  | cons e es ih => rw [holdsAny, ih, List.any_cons]

/-- A false comparison that no satisfied alternative hides is reported under this number. -/
def Blames (R : ReplayInput) (e : DecisionExpr) (idx number : ℕ) : Prop :=
  ∃ place c row, R.Visits R.holds e idx place c row ∧ R.compares c row = false ∧
    (R.reportedRule c).map ComparisonRule.number = some number

theorem blames_comparison {c : ComparisonExpr} {idx number : ℕ} : R.Blames (.comparison c) idx number ↔
    R.compares c idx = false ∧ (R.reportedRule c).map ComparisonRule.number = some number := by
  constructor
  · rintro ⟨place, c', row, hvisits, hfalse, hnumber⟩
    cases hvisits
    exact ⟨hfalse, hnumber⟩
  · rintro ⟨hfalse, hnumber⟩
    exact ⟨[], c, idx, .comparison c idx, hfalse, hnumber⟩

theorem blames_and {args : List DecisionExpr} {idx number : ℕ} :
    R.Blames (.and args) idx number ↔ ∃ arg ∈ args, R.Blames arg idx number := by
  constructor
  · rintro ⟨place, c, row, hvisits, h⟩
    cases hvisits with
    | and harg hvisits => exact ⟨_, List.mem_of_getElem? harg, _, c, row, hvisits, h⟩
  · rintro ⟨arg, harg, place, c, row, hvisits, h⟩
    obtain ⟨k, hk⟩ := List.getElem?_of_mem harg
    exact ⟨.arg k :: place, c, row, .and hk hvisits, h⟩

theorem blames_or {args : List DecisionExpr} {idx number : ℕ} : R.Blames (.or args) idx number ↔
    R.holds (.or args) idx = false ∧ ∃ arg ∈ args, R.Blames arg idx number := by
  constructor
  · rintro ⟨place, c, row, hvisits, h⟩
    cases hvisits with
    | or hskip harg hvisits => exact ⟨hskip, _, List.mem_of_getElem? harg, _, c, row, hvisits, h⟩
  · rintro ⟨hskip, arg, harg, place, c, row, hvisits, h⟩
    obtain ⟨k, hk⟩ := List.getElem?_of_mem harg
    exact ⟨.arg k :: place, c, row, .or hskip hk hvisits, h⟩

theorem blames_not {inner : DecisionExpr} {idx number : ℕ} :
    R.Blames (.not inner) idx number ↔ R.Blames inner idx number := by
  constructor
  · rintro ⟨place, c, row, hvisits, h⟩
    cases hvisits with
    | not hvisits => exact ⟨_, c, row, hvisits, h⟩
  · rintro ⟨place, c, row, hvisits, h⟩
    exact ⟨.inner :: place, c, row, .not hvisits, h⟩

theorem blames_all {inner : DecisionExpr} {idx number : ℕ} : R.Blames (.aggregate .all inner) idx number ↔
    ∃ nestedIdx < R.rows, R.Blames inner nestedIdx number := by
  constructor
  · rintro ⟨place, c, row, hvisits, h⟩
    cases hvisits with
    | all hnested hvisits => exact ⟨_, hnested, _, c, row, hvisits, h⟩
  · rintro ⟨nestedIdx, hnested, place, c, row, hvisits, h⟩
    exact ⟨.inner :: place, c, row, .all hnested hvisits, h⟩

theorem blames_any {inner : DecisionExpr} {idx number : ℕ} : R.Blames (.aggregate .any inner) idx number ↔
    R.holds (.aggregate .any inner) idx = false ∧ ∃ nestedIdx < R.rows, R.Blames inner nestedIdx number := by
  constructor
  · rintro ⟨place, c, row, hvisits, h⟩
    cases hvisits with
    | any hskip hnested hvisits => exact ⟨hskip, _, hnested, _, c, row, hvisits, h⟩
  · rintro ⟨hskip, nestedIdx, hnested, place, c, row, hvisits, h⟩
    exact ⟨.inner :: place, c, row, .any hskip hnested hvisits, h⟩

/-- What an outcome says of an expression at a row. -/
structure Reports (R : ReplayInput) (e : DecisionExpr) (idx : ℕ) (outcome : EvalOutcome) : Prop where
  value : outcome.value = R.holds e idx
  mem : ∀ number, number ∈ outcome.failedRuleIds ↔ R.Blames e idx number

/-- The outcomes of some expressions at some rows, gathered. -/
theorem mem_flatMap_reports {α : Type} {e : α → DecisionExpr} {idx : α → ℕ} {l : List α} {outcomes : List EvalOutcome}
    (h : List.Forall₂ (fun a outcome => R.Reports (e a) (idx a) outcome) l outcomes) (number : ℕ) :
    number ∈ outcomes.flatMap (·.failedRuleIds) ↔ ∃ a ∈ l, R.Blames (e a) (idx a) number := by
  rw [List.mem_flatMap]
  constructor
  · rintro ⟨outcome, hmem, hnumber⟩
    obtain ⟨a, ha, hreports⟩ := forall₂_mem_right h hmem
    exact ⟨a, ha, (hreports.mem number).1 hnumber⟩
  · rintro ⟨a, ha, hblames⟩
    obtain ⟨outcome, hmem, hreports⟩ := forall₂_mem_left h ha
    exact ⟨outcome, hmem, (hreports.mem number).2 hblames⟩

/-- The connective over all of them. -/
theorem conj_reports {α : Type} {e : α → DecisionExpr} {idx : α → ℕ} {l : List α} {outcomes : List EvalOutcome}
    (h : List.Forall₂ (fun a outcome => R.Reports (e a) (idx a) outcome) l outcomes) :
    (EvalOutcome.conj outcomes).value = l.all (fun a => R.holds (e a) (idx a)) ∧
      ∀ number, number ∈ (EvalOutcome.conj outcomes).failedRuleIds ↔ ∃ a ∈ l, R.Blames (e a) (idx a) number :=
  ⟨(forall₂_all_any (h.imp fun _ _ hr => hr.value)).1, mem_flatMap_reports h⟩

/-- The connective over some of them: where it holds nothing is listed. -/
theorem disj_reports {α : Type} {e : α → DecisionExpr} {idx : α → ℕ} {l : List α} {outcomes : List EvalOutcome}
    (h : List.Forall₂ (fun a outcome => R.Reports (e a) (idx a) outcome) l outcomes) :
    (EvalOutcome.disj outcomes).value = l.any (fun a => R.holds (e a) (idx a)) ∧
      ∀ number, number ∈ (EvalOutcome.disj outcomes).failedRuleIds ↔
        l.any (fun a => R.holds (e a) (idx a)) = false ∧ ∃ a ∈ l, R.Blames (e a) (idx a) number := by
  have hany := (forall₂_all_any (h.imp fun _ _ hr => hr.value)).2
  refine ⟨(disj_value outcomes).trans hany, fun number => ?_⟩
  unfold EvalOutcome.disj
  rw [hany]
  by_cases hl : l.any (fun a => R.holds (e a) (idx a)) = true
  · rw [if_pos hl, hl]
    simp
  · rw [if_neg hl, Bool.eq_false_of_not_eq_true hl, mem_flatMap_reports h]
    simp

/-- **An evaluation that returns** has the value of the expression, and lists what it blames. By
induction on the decision. -/
theorem evalExpr_spec (e : DecisionExpr) :
    ∀ {idx : ℕ} {outcome : EvalOutcome}, R.evalExpr e idx = some outcome → R.Reports e idx outcome := by
  induction e with
  | comparison c =>
    intro idx outcome h
    unfold evalExpr at h
    obtain ⟨rule, hrule, h⟩ := Option.bind_eq_some_iff.1 h
    obtain ⟨left, hleft, h⟩ := Option.bind_eq_some_iff.1 h
    obtain ⟨right, hright, h⟩ := Option.bind_eq_some_iff.1 h
    cases h
    have hholds : R.compares c idx = c.op.holds left right := by
      unfold compares
      rw [hleft, hright]
      rfl
    have hreported : R.reportedRule c = some rule := hrule
    refine ⟨hholds.symm, fun number => ?_⟩
    rw [blames_comparison, hholds, hreported, Option.map_some, Option.some_inj]
    dsimp only
    split_ifs with hc
    · simp [hc]
    · simp [hc, eq_comm]
  | and args ih =>
    intro idx outcome h
    unfold evalExpr at h
    obtain ⟨outcomes, houtcomes, rfl⟩ := Option.map_eq_some_iff.1 h
    rw [evalArgs_eq] at houtcomes
    have hall := forall₂_imp_mem (mapM_eq_some houtcomes) fun arg harg _ heval => ih arg harg heval
    obtain ⟨hvalue, hmem⟩ := conj_reports hall
    refine ⟨hvalue.trans (holdsAll_eq args idx).symm, fun number => ?_⟩
    rw [hmem, blames_and]
  | or args ih =>
    intro idx outcome h
    unfold evalExpr at h
    obtain ⟨outcomes, houtcomes, rfl⟩ := Option.map_eq_some_iff.1 h
    rw [evalArgs_eq] at houtcomes
    have hall := forall₂_imp_mem (mapM_eq_some houtcomes) fun arg harg _ heval => ih arg harg heval
    obtain ⟨hvalue, hmem⟩ := disj_reports hall
    have hholds : R.holds (.or args) idx = args.any (R.holds · idx) := holdsAny_eq args idx
    refine ⟨hvalue.trans hholds.symm, fun number => ?_⟩
    rw [hmem, blames_or, hholds]
  | not inner ih =>
    intro idx outcome h
    unfold evalExpr at h
    obtain ⟨child, hchild, rfl⟩ := Option.map_eq_some_iff.1 h
    obtain ⟨hvalue, hmem⟩ := ih hchild
    refine ⟨congrArg (!·) hvalue, fun number => ?_⟩
    rw [blames_not]
    exact hmem number
  | aggregate kind inner ih =>
    intro idx outcome h
    unfold evalExpr at h
    obtain ⟨activeCount, hactive, h⟩ := Option.bind_eq_some_iff.1 h
    obtain ⟨outcomes, houtcomes, h⟩ := Option.bind_eq_some_iff.1 h
    cases h
    have hrows : R.rows = activeCount.toNat := by
      unfold rows
      rw [hactive]
      rfl
    rw [← hrows] at houtcomes
    have hall := forall₂_imp_mem (mapM_eq_some houtcomes) fun nestedIdx _ _ heval => ih heval
    cases kind with
    | all =>
      obtain ⟨hvalue, hmem⟩ := conj_reports hall
      refine ⟨hvalue, fun number => (hmem number).trans ?_⟩
      rw [blames_all]
      simp only [List.mem_range]
    | any =>
      obtain ⟨hvalue, hmem⟩ := disj_reports hall
      refine ⟨hvalue, fun number => (hmem number).trans ?_⟩
      rw [blames_any, holds]
      simp only [List.mem_range]

/-- **The loop over the rows**, by induction on them: what it adds to the failed rows and rules. -/
theorem foldlM_replayRow_spec {inner : DecisionExpr} (rows : List ℕ) :
    ∀ {failed result : List ℕ × List ℕ}, rows.foldlM (R.replayRow inner) failed = some result →
      (∀ idx, idx ∈ result.1 ↔ idx ∈ failed.1 ∨ idx ∈ rows ∧ R.holds inner idx = false) ∧
      ∀ number, number ∈ result.2 ↔
        number ∈ failed.2 ∨ ∃ idx ∈ rows, R.holds inner idx = false ∧ R.Blames inner idx number := by
  induction rows with
  | nil =>
    intro failed result h
    cases h
    simp
  | cons idx rows ih =>
    intro failed result h
    rw [List.foldlM_cons] at h
    obtain ⟨next, hnext, h⟩ := Option.bind_eq_some_iff.1 h
    obtain ⟨outcome, houtcome, rfl⟩ := Option.map_eq_some_iff.1 hnext
    obtain ⟨hvalue, hmem⟩ := evalExpr_spec inner houtcome
    obtain ⟨hrows, hrules⟩ := ih h
    rw [hvalue] at hrows hrules
    by_cases hidx : R.holds inner idx = true
    · rw [if_pos hidx] at hrows hrules
      refine ⟨fun i => (hrows i).trans (or_congr_right ?_), fun number => (hrules number).trans (or_congr_right ?_)⟩
      · rw [List.mem_cons, or_and_right]
        refine (or_iff_right ?_).symm
        rintro ⟨rfl, hfalse⟩
        rw [hidx] at hfalse
        cases hfalse
      · rw [List.exists_mem_cons_iff, hidx]
        simp
    · rw [if_neg hidx] at hrows hrules
      have hfalse := Bool.eq_false_of_not_eq_true hidx
      refine ⟨fun i => (hrows i).trans ?_, fun number => (hrules number).trans ?_⟩
      · rw [List.mem_append, List.mem_singleton, List.mem_cons, or_assoc, or_and_right]
        refine or_congr_right (or_congr_left ?_)
        exact ⟨fun hi => ⟨hi, by rw [hi]; exact hfalse⟩, fun hi => hi.1⟩
      · rw [List.exists_mem_cons_iff, hfalse, List.mem_append, hmem, or_assoc]
        simp

/-- A comparison that is visited stands at its place. -/
theorem Visits.mem_occurrences {skips : DecisionExpr → ℕ → Bool} {e : DecisionExpr} {idx : ℕ} {place : List PathStep}
    {c : ComparisonExpr} {row : ℕ} (h : R.Visits skips e idx place c row) : (place, c) ∈ e.occurrences := by
  induction h with
  | comparison c idx => exact List.mem_singleton_self _
  | and harg _ ih =>
    have hmem := mem_occurrencesArgs 0 harg ih
    rw [Nat.zero_add] at hmem
    exact hmem
  | or _ harg _ ih =>
    have hmem := mem_occurrencesArgs 0 harg ih
    rw [Nat.zero_add] at hmem
    exact hmem
  | not _ ih => exact List.mem_map.2 ⟨_, ih, rfl⟩
  | all _ _ ih => exact List.mem_map.2 ⟨_, ih, rfl⟩
  | any _ _ _ ih => exact List.mem_map.2 ⟨_, ih, rfl⟩

/-- What is visited with some alternatives left out is visited. -/
theorem Visits.mono {skips : DecisionExpr → ℕ → Bool} {e : DecisionExpr} {idx : ℕ} {place : List PathStep}
    {c : ComparisonExpr} {row : ℕ} (h : R.Visits skips e idx place c row) :
    R.Visits (fun _ _ => false) e idx place c row := by
  induction h with
  | comparison c idx => exact .comparison c idx
  | and harg _ ih => exact .and harg ih
  | or _ harg _ ih => exact .or rfl harg ih
  | not _ ih => exact .not ih
  | all hnested _ ih => exact .all hnested ih
  | any _ hnested _ ih => exact .any rfl hnested ih

end ReplayInput

/-! ## The rule of a comparison -/

/-- The input of the replay of a decision. -/
abbrev replayInput (inner : DecisionExpr) (privateInput : Json) (policyParameters : List (String × ℤ)) : ReplayInput :=
  ⟨privateInput, policyParameters, ComparisonRule.collectRules "decision.inner" inner []⟩

variable {inner : DecisionExpr} {privateInput : Json} {policyParameters : List (String × ℤ)}

theorem comparison_ext {c c' : ComparisonExpr} (hop : c.op = c'.op) (hleft : c.left = c'.left)
    (hright : c.right = c'.right) : c = c' := by
  cases c
  cases c'
  cases hop
  cases hleft
  cases hright
  rfl

/-- **The rule under which a comparison is reported** is that of an equal one. -/
theorem reportedRule_eq (privateInput : Json) (policyParameters : List (String × ℤ))
    {o : List PathStep × ComparisonExpr} (ho : o ∈ inner.occurrences) :
    ∃ o' k, inner.occurrences[k]? = some o' ∧ o'.2 = o.2 ∧
      (replayInput inner privateInput policyParameters).reportedRule o.2 = some (ruleOf "decision.inner" (o', k)) := by
  have hrules : (replayInput inner privateInput policyParameters).rules =
      (inner.occurrences.zipIdx 0).map (ruleOf "decision.inner") := collectRules_eq inner _ []
  obtain ⟨rule, hfind⟩ : ∃ rule, ((inner.occurrences.zipIdx 0).map (ruleOf "decision.inner")).find? (·.isOf o.2) =
      some rule := by
    rw [← Option.isSome_iff_exists, List.find?_isSome]
    obtain ⟨k, hk⟩ := List.getElem?_of_mem ho
    refine ⟨ruleOf "decision.inner" (o, k), List.mem_map.2 ⟨(o, k), ?_, rfl⟩, ?_⟩
    · exact List.mk_mem_zipIdx_iff_getElem?.2 hk
    · simp [ComparisonRule.isOf, ruleOf]
  obtain ⟨⟨o', k⟩, hmem, rfl⟩ := List.mem_map.1 (List.mem_of_find?_eq_some hfind)
  have hk := List.mk_mem_zipIdx_iff_getElem?.1 hmem
  refine ⟨o', k, hk, ?_, ?_⟩
  · have hof : ComparisonRule.isOf o.2 (ruleOf "decision.inner" (o', k)) = true := by
      have hsome := List.find?_some hfind
      exact hsome
    unfold ComparisonRule.isOf at hof
    obtain ⟨hleft, hright, hop⟩ := of_decide_eq_true hof
    exact comparison_ext hop hleft hright
  · have hindex : comparisonIndex (replayInput inner privateInput policyParameters).rules o.2 = k := by
      unfold comparisonIndex
      rw [hrules, hfind]
      rfl
    unfold ReplayInput.reportedRule
    rw [hindex, hrules, List.getElem?_map, List.getElem?_zipIdx, hk]
    simp

/-! ## The report -/

/-- **A report of a failure** is about failing rows, and lists the rules that are blamed at them. -/
theorem replayDecision_failed {isAll : Bool} {entries : List (String × Json)}
    (h : replayDecision isAll inner privateInput policyParameters = some entries)
    (hreason : entries.lookup "reason" = some (.str "policy_rule_failed")) :
    (∃ idx < (replayInput inner privateInput policyParameters).rows,
      (replayInput inner privateInput policyParameters).holds inner idx = false) ∧
    ∃ failedIndices failedRuleIds, entries =
        failureEntries (replayInput inner privateInput policyParameters).rules failedIndices failedRuleIds ∧
      ∀ number, number ∈ failedRuleIds ↔ ∃ idx < (replayInput inner privateInput policyParameters).rows,
        (replayInput inner privateInput policyParameters).holds inner idx = false ∧
        (replayInput inner privateInput policyParameters).Blames inner idx number := by
  unfold replayDecision at h
  obtain ⟨activeCount, hactive, h⟩ := Option.bind_eq_some_iff.1 h
  have hrows : (replayInput inner privateInput policyParameters).rows = activeCount.toNat := by
    unfold ReplayInput.rows
    rw [hactive]
    rfl
  by_cases hle : activeCount ≤ 0
  · rw [if_pos hle] at h
    cases h
    simp at hreason
  · rw [if_neg hle] at h
    obtain ⟨⟨failedIndices, failedRuleIds⟩, hfold, h⟩ := Option.bind_eq_some_iff.1 h
    obtain ⟨hindices, hrules⟩ := ReplayInput.foldlM_replayRow_spec _ hfold
    dsimp only at h hindices hrules
    by_cases hfailed : (if isAll = true then decide (0 < failedIndices.length)
        else decide (failedIndices.length = activeCount.toNat)) = true
    · rw [if_pos hfailed] at h
      cases h
      have hpos : 0 < failedIndices.length := by
        cases isAll with
        | true => exact of_decide_eq_true hfailed
        | false =>
          have hlen := of_decide_eq_true hfailed
          omega
      constructor
      · obtain ⟨idx, hidx⟩ := List.exists_mem_of_length_pos hpos
        have hrow := (hindices idx).1 hidx
        rw [or_iff_right List.not_mem_nil, List.mem_range] at hrow
        rw [hrows]
        exact ⟨idx, hrow⟩
      · refine ⟨failedIndices, failedRuleIds, rfl, fun number => ?_⟩
        rw [hrules, hrows, or_iff_right List.not_mem_nil]
        simp only [List.mem_range]
    · rw [if_neg hfailed] at h
      cases h
      simp [passedEntries] at hreason

/-- The ids of a report, by their numbers. -/
theorem failureEntries_ids (rules : List ComparisonRule) (failedIndices failedRuleIds : List ℕ) :
    ∃ ids, (failureEntries rules failedIndices failedRuleIds).lookup "failed_rule_ids" = some (.arr ids) ∧
      ∀ id, id ∈ ids ↔ ∃ number ∈ failedRuleIds, id = .str (ruleId number) := by
  refine ⟨_, rfl, fun id => ?_⟩
  simp only [List.mem_map, List.mem_mergeSort, List.mem_dedup]
  constructor
  · rintro ⟨text, ⟨number, hnumber, rfl⟩, rfl⟩
    exact ⟨number, hnumber, rfl⟩
  · rintro ⟨number, hnumber, rfl⟩
    exact ⟨_, ⟨number, hnumber, rfl⟩, rfl⟩

/-- Where no comparison is written twice, each is reported under its own rule. -/
theorem reportedRule_of_nodup (privateInput : Json) (policyParameters : List (String × ℤ))
    (hnodup : inner.comparisons.Nodup) {o : List PathStep × ComparisonExpr} (ho : o ∈ inner.occurrences) : ∃ k, inner.occurrences[k]? = some o ∧
      (replayInput inner privateInput policyParameters).reportedRule o.2 = some (ruleOf "decision.inner" (o, k)) := by
  obtain ⟨o', k, hk, hsame, hrule⟩ := reportedRule_eq privateInput policyParameters ho
  obtain rfl := (nodup_comparisons_iff inner).1 hnodup o' (List.mem_of_getElem? hk) o ho hsame
  exact ⟨k, hk, hrule⟩

theorem replayDecision_of_trace {spec : PolicyDSLSpec} {kind : AggregateKind} {entries : List (String × Json)}
    (hspec : spec.decision = .aggregate kind inner)
    (htrace : evaluatePolicyTrace (some spec) privateInput policyParameters = some (some entries)) :
    replayDecision (decide (kind = .all)) inner privateInput policyParameters = some entries := by
  unfold evaluatePolicyTrace at htrace
  rw [Option.bind_some, hspec] at htrace
  obtain ⟨entries', hentries, heq⟩ := Option.map_eq_some_iff.1 htrace
  rw [← Option.some.inj heq]
  exact hentries

section

variable {isAll : Bool} {entries : List (String × Json)}

/-- Two places of one comparison have two paths, and one rule. -/
theorem nodup_of_apart (h : AttributesFailure (replayInput inner privateInput policyParameters) inner entries) :
    inner.comparisons.Nodup := by
  rw [nodup_comparisons_iff]
  intro o ho o' ho' hsame
  by_contra hne
  have hplace : o.1 ≠ o'.1 := fun heq => hne (Prod.ext heq hsame)
  apply h.apart o ho o' ho' (fun hpath => hplace (policyPath_inj hpath))
  rw [hsame]

/-- The rules of two comparisons have two ids. -/
theorem apart_of_nodup (hnodup : inner.comparisons.Nodup) {o o' : List PathStep × ComparisonExpr}
    (ho : o ∈ inner.occurrences) (ho' : o' ∈ inner.occurrences)
    (hsame : ((replayInput inner privateInput policyParameters).reportedRule o.2).map (ruleId ·.number) =
      ((replayInput inner privateInput policyParameters).reportedRule o'.2).map (ruleId ·.number)) : o = o' := by
  obtain ⟨k, hk, hrule⟩ := reportedRule_of_nodup privateInput policyParameters hnodup ho
  obtain ⟨k', hk', hrule'⟩ := reportedRule_of_nodup privateInput policyParameters hnodup ho'
  rw [hrule, hrule'] at hsame
  obtain rfl : k = k' := ruleId_inj (Option.some.inj hsame)
  rw [hk] at hk'
  exact Option.some.inj hk'

/-- A report that lists a rule has a comparison to list. -/
theorem falseAt_of_nonempty (hreplay : replayDecision isAll inner privateInput policyParameters = some entries)
    (hreason : entries.lookup "reason" = some (.str "policy_rule_failed"))
    (h : AttributesFailure (replayInput inner privateInput policyParameters) inner entries) :
    ∃ place c, (replayInput inner privateInput policyParameters).FalseAt
      (replayInput inner privateInput policyParameters).holds inner place c := by
  obtain ⟨-, failedIndices, failedRuleIds, rfl, hmem⟩ := replayDecision_failed hreplay hreason
  obtain ⟨ids, hids, hmemIds⟩ := failureEntries_ids
    (replayInput inner privateInput policyParameters).rules failedIndices failedRuleIds
  obtain ⟨ids', hids', hne⟩ := h.nonempty
  obtain rfl : ids = ids' := Json.arr.inj (Option.some.inj (hids.symm.trans hids'))
  obtain ⟨id, hid⟩ := List.exists_mem_of_ne_nil ids hne
  obtain ⟨number, hnumber, -⟩ := (hmemIds id).1 hid
  obtain ⟨idx, hidx, hfail, place, c, row, hvisits, hfalse, -⟩ := (hmem number).1 hnumber
  exact ⟨place, c, idx, hidx, hfail, row, hvisits, hfalse⟩

/-- Where each comparison has its own rule, what is listed is what was false. -/
theorem attributes_of_nodup (hreplay : replayDecision isAll inner privateInput policyParameters = some entries)
    (hreason : entries.lookup "reason" = some (.str "policy_rule_failed")) (hnodup : inner.comparisons.Nodup)
    (h : ∃ place c, (replayInput inner privateInput policyParameters).FalseAt
      (replayInput inner privateInput policyParameters).holds inner place c) :
    AttributesFailure (replayInput inner privateInput policyParameters) inner entries := by
  obtain ⟨-, failedIndices, failedRuleIds, rfl, hmem⟩ := replayDecision_failed hreplay hreason
  obtain ⟨ids, hids, hmemIds⟩ := failureEntries_ids
    (replayInput inner privateInput policyParameters).rules failedIndices failedRuleIds
  refine ⟨⟨ids, hids, ?_⟩, ?_, ?_⟩
  · obtain ⟨place, c, idx, hidx, hfail, row, hvisits, hfalse⟩ := h
    obtain ⟨k, -, hrule⟩ := reportedRule_of_nodup privateInput policyParameters hnodup hvisits.mem_occurrences
    have hnumber := (hmem k).2 ⟨idx, hidx, hfail, place, c, row, hvisits, hfalse, by rw [hrule]; rfl⟩
    exact List.ne_nil_of_mem ((hmemIds _).2 ⟨k, hnumber, rfl⟩)
  · intro ids' hids' id hid
    obtain rfl : ids = ids' := Json.arr.inj (Option.some.inj (hids.symm.trans hids'))
    obtain ⟨number, hnumber, rfl⟩ := (hmemIds id).1 hid
    obtain ⟨idx, hidx, hfail, place, c, row, hvisits, hfalse, hreported⟩ := (hmem number).1 hnumber
    obtain ⟨k, -, hrule⟩ := reportedRule_of_nodup privateInput policyParameters hnodup hvisits.mem_occurrences
    rw [hrule] at hreported
    obtain rfl : k = number := Option.some.inj hreported
    exact ⟨_, List.mem_of_getElem? hrule, rfl, place, c, rfl, idx, hidx, hfail, row, hvisits.mono, hfalse⟩
  · intro o ho o' ho' hpath hsame
    rw [apart_of_nodup hnodup ho ho' hsame] at hpath
    exact hpath rfl

end

/-! ## Decisions without `not` -/

/-- An expression without a `not` fails for a comparison that is false, and hidden by nothing. By
induction on it. -/
theorem exists_visits_of_positive (hrows : 0 < R.rows) (e : DecisionExpr) : e.positive = true → e.wellFormed = true →
    ∀ idx, R.holds e idx = false → ∃ place c row, R.Visits R.holds e idx place c row ∧ R.compares c row = false := by
  have hargs : ∀ args : List DecisionExpr, DecisionExpr.positiveArgs args = true →
      DecisionExpr.wellFormedArgs args = true → ∀ e ∈ args, e.positive = true ∧ e.wellFormed = true := by
    intro args
    induction args with
    | nil =>
      intro _ _ e he
      cases he
    | cons x xs ih =>
      intro hpos hwf e he
      rw [DecisionExpr.positiveArgs, Bool.and_eq_true] at hpos
      rw [DecisionExpr.wellFormedArgs, Bool.and_eq_true] at hwf
      rcases List.mem_cons.1 he with rfl | he
      · exact ⟨hpos.1, hwf.1⟩
      · exact ih hpos.2 hwf.2 e he
  induction e with
  | comparison c =>
    intro _ _ idx hfalse
    exact ⟨[], c, idx, .comparison c idx, hfalse⟩
  | and args ih =>
    intro hpos hwf idx hfalse
    rw [DecisionExpr.wellFormed, Bool.and_eq_true] at hwf
    rw [ReplayInput.holds, ReplayInput.holdsAll_eq, List.all_eq_false] at hfalse
    obtain ⟨arg, harg, hnot⟩ := hfalse
    obtain ⟨hpos, hwf⟩ := hargs args hpos hwf.2 arg harg
    obtain ⟨place, c, row, hvisits, hc⟩ := ih arg harg hpos hwf idx (Bool.eq_false_of_not_eq_true hnot)
    obtain ⟨k, hk⟩ := List.getElem?_of_mem harg
    exact ⟨.arg k :: place, c, row, .and hk hvisits, hc⟩
  | or args ih =>
    intro hpos hwf idx hfalse
    rw [DecisionExpr.wellFormed, Bool.and_eq_true, decide_eq_true_eq] at hwf
    have hall := hfalse
    rw [ReplayInput.holds, ReplayInput.holdsAny_eq, List.any_eq_false] at hall
    -- every argument is false, and there is one
    obtain ⟨arg, harg⟩ : ∃ arg, args[0]? = some arg := ⟨_, List.getElem?_eq_getElem (by omega)⟩
    have hmem := List.mem_of_getElem? harg
    obtain ⟨hpos, hwf⟩ := hargs args hpos hwf.2 arg hmem
    obtain ⟨place, c, row, hvisits, hc⟩ := ih arg hmem hpos hwf idx (Bool.eq_false_of_not_eq_true (hall arg hmem))
    exact ⟨.arg 0 :: place, c, row, .or hfalse harg hvisits, hc⟩
  | not inner ih =>
    intro hpos
    cases hpos
  | aggregate kind inner ih =>
    intro hpos hwf idx hfalse
    cases kind with
    | all =>
      rw [ReplayInput.holds, List.all_eq_false] at hfalse
      obtain ⟨nestedIdx, hnested, hnot⟩ := hfalse
      obtain ⟨place, c, row, hvisits, hc⟩ := ih hpos hwf nestedIdx (Bool.eq_false_of_not_eq_true hnot)
      exact ⟨.inner :: place, c, row, .all (List.mem_range.1 hnested) hvisits, hc⟩
    | any =>
      have hall := hfalse
      rw [ReplayInput.holds, List.any_eq_false] at hall
      obtain ⟨place, c, row, hvisits, hc⟩ :=
        ih hpos hwf 0 (Bool.eq_false_of_not_eq_true (hall 0 (List.mem_range.2 hrows)))
      exact ⟨.inner :: place, c, row, .any hfalse hrows hvisits, hc⟩

variable {spec : PolicyDSLSpec} {kind : AggregateKind} {entries : List (String × Json)}

/-- **Without a `not`, and without a comparison written twice, every report names the right rules.** -/
theorem attributes_of_positive (hspec : spec.decision = .aggregate kind inner) (hpos : inner.positive = true)
    (hnodup : inner.comparisons.Nodup)
    (htrace : evaluatePolicyTrace (some spec) privateInput policyParameters = some (some entries))
    (hreason : entries.lookup "reason" = some (.str "policy_rule_failed")) :
    AttributesFailure (replayInput inner privateInput policyParameters) inner entries := by
  have hwf : inner.wellFormed = true := by
    have hdecision := spec.decisionWf
    rw [hspec] at hdecision
    exact hdecision
  have hreplay := replayDecision_of_trace hspec htrace
  obtain ⟨⟨idx, hidx, hfail⟩, -⟩ := replayDecision_failed hreplay hreason
  obtain ⟨place, c, row, hvisits, hc⟩ := exists_visits_of_positive (by omega) inner hpos hwf idx hfail
  exact attributes_of_nodup hreplay hreason hnodup ⟨place, c, idx, hidx, hfail, row, hvisits, hc⟩

/-! ## When a report names the right rules -/

/-- **When a report names the right rules.** For every decision and every private input on which the
replay reports a failure: iff no comparison is written twice, and at some failing row a comparison is
false that stands below no alternative that holds. -/
theorem attributes_failure_iff (hspec : spec.decision = .aggregate kind inner)
    (htrace : evaluatePolicyTrace (some spec) privateInput policyParameters = some (some entries))
    (hreason : entries.lookup "reason" = some (.str "policy_rule_failed")) :
    AttributesFailure (replayInput inner privateInput policyParameters) inner entries ↔
      inner.comparisons.Nodup ∧ ∃ place c, (replayInput inner privateInput policyParameters).FalseAt
        (replayInput inner privateInput policyParameters).holds inner place c := by
  have hreplay := replayDecision_of_trace hspec htrace
  constructor
  · intro h
    exact ⟨nodup_of_apart h, falseAt_of_nonempty hreplay hreason h⟩
  · rintro ⟨hnodup, hfalse⟩
    exact attributes_of_nodup hreplay hreason hnodup hfalse

/-- A private input of one row. -/
def rowInput (balance limit : ℤ) : Json :=
  .obj [("balances", .arr [.int balance]), ("limits", .arr [.int limit]), ("active_count", .int 1)]

/-- `balances > 100 and (balances >= limits or not limits > 50)`. -/
def nestedAbove : DecisionExpr :=
  .and [balanceAbove, .or [.comparison ⟨.ge, .ref "balances", .ref "limits"⟩,
    .not (.comparison ⟨.gt, .ref "limits", .constInt 50⟩)]]

/-- A private input of two rows: a balance of 150 with a limit of 200, and of 5 with 60. -/
def twoRowInput : Json :=
  .obj [("balances", .arr [.int 150, .int 5]), ("limits", .arr [.int 200, .int 60]), ("active_count", .int 2)]

/-- Both rows fail, the first for its limit and the second for both comparisons of balances. -/
theorem attributes_failure_balance :
    AttributesFailure (replayInput nestedAbove twoRowInput []) nestedAbove
      (failureEntries (ComparisonRule.collectRules "decision.inner" nestedAbove []) [0, 1] [1, 0, 1]) := by
  have htrace : evaluatePolicyTrace (some (rowSpec nestedAbove (by decide))) twoRowInput [] = some (some
      (failureEntries (ComparisonRule.collectRules "decision.inner" nestedAbove []) [0, 1] [1, 0, 1])) := rfl
  refine (attributes_failure_iff rfl htrace rfl).2 ⟨by decide, ?_⟩
  -- the second argument of the conjunction is false at the first row, and so its first argument counts
  exact ⟨[.arg 1, .arg 0], _, 0, by decide +kernel, by decide +kernel, 0,
    .and rfl (.or (by decide +kernel) rfl (.comparison _ 0)), by decide +kernel⟩

/-- `not balances > 100`. -/
def notAbove : DecisionExpr := .not balanceAbove

/-- `balances > 100`, and once more. -/
def twiceAbove : DecisionExpr := .and [balanceAbove, balanceAbove]

/-- **Neither a negation nor a repetition is attributed.** The comparison below a `not` that fails is
true, so the report lists no rule; and the two comparisons of a conjunction have one rule. -/
theorem negation_not_attributed :
    (ensureSupportedDecision (rowSpec notAbove (by decide))).isOk = true ∧
    (ensureSupportedDecision (rowSpec twiceAbove (by decide))).isOk = true ∧
    evaluatePolicyTrace (some (rowSpec notAbove (by decide))) (rowInput 150 0) [] =
      some (some [("reason", .str "policy_rule_failed"), ("failed_indices", .arr [.int 0]),
        ("failed_rule_ids", .arr [])]) ∧
    ¬ AttributesFailure (replayInput notAbove (rowInput 150 0) []) notAbove
      [("reason", .str "policy_rule_failed"), ("failed_indices", .arr [.int 0]), ("failed_rule_ids", .arr [])] ∧
    evaluatePolicyTrace (some (rowSpec twiceAbove (by decide))) (rowInput 5 0) [] =
      some (some (failureEntries (ComparisonRule.collectRules "decision.inner" twiceAbove []) [0] [0, 0])) ∧
    ¬ AttributesFailure (replayInput twiceAbove (rowInput 5 0) []) twiceAbove
      (failureEntries (ComparisonRule.collectRules "decision.inner" twiceAbove []) [0] [0, 0]) := by
  have hnot : evaluatePolicyTrace (some (rowSpec notAbove (by decide))) (rowInput 150 0) [] =
      some (some (failureEntries (ComparisonRule.collectRules "decision.inner" notAbove []) [0] [])) := rfl
  have hentries : failureEntries (ComparisonRule.collectRules "decision.inner" notAbove []) [0] [] =
      [("reason", .str "policy_rule_failed"), ("failed_indices", .arr [.int 0]), ("failed_rule_ids", .arr [])] := by
    simp [failureEntries, firstRuleEntries]
  rw [hentries] at hnot
  refine ⟨by decide +kernel, by decide +kernel, hnot, ?_, rfl, ?_⟩
  · rintro ⟨⟨ids, hids, hne⟩, -, -⟩
    exact hne (Json.arr.inj (Option.some.inj hids)).symm
  · intro h
    exact absurd (nodup_of_apart h) (by decide)

end Vellum
