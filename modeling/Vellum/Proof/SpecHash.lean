import Vellum.Lib.JsonText
import Vellum.Proof.Accepted

/-!
# What the spec hash identifies

The spec hash is taken over JSON with sorted keys; the renderers walk the dictionaries in
declaration order.

* `decision_inj`: the dump of a decision determines it.
* `sameUpToOrder`: equal hashes mean equal specs up to the order of dictionaries.
* `sources_eq`: with the same order of parameters and outputs, equal sources.
* `order_of_sources`: equal sources show the order of both.
* `hash_identifies_iff`: so the hash identifies the sources iff no order differs.
-/

namespace Vellum

open Json

/-! ## Dumps determine values -/

theorem str_inj {a b : String} (h : sortKeys (.str a) = sortKeys (.str b)) : a = b := by
  simpa [sortKeys] using h

theorem int_inj {a b : ℤ} (h : sortKeys (.int a) = sortKeys (.int b)) : a = b := by
  simpa [sortKeys] using h

theorem ofOptInt_inj {a b : Option ℤ} (h : sortKeys (.ofOptInt a) = sortKeys (.ofOptInt b)) : a = b := by
  cases a <;> cases b <;> simp_all [Json.ofOptInt, sortKeys]

theorem valueRef_inj {a b : ValueRef} (h : sortKeys a.toJson = sortKeys b.toJson) : a = b := by
  cases a <;> cases b <;> have hf := sortKeys_obj_fields ["ref", "param", "const_int"] (by decide) rfl rfl h <;>
    simp [sortKeys] at hf <;> rw [hf]

theorem comparisonOp_text_inj {a b : ComparisonOp} (h : a.text = b.text) : a = b := by
  cases a <;> cases b <;> first | rfl | exact absurd h (by decide)

theorem comparison_inj {a b : ComparisonExpr} (h : sortKeys a.toJson = sortKeys b.toJson) : a = b := by
  obtain ⟨op, l, r⟩ := a
  obtain ⟨op', l', r'⟩ := b
  have hf := sortKeys_obj_fields ["op", "left", "right"] (by decide) rfl rfl h
  simp only [List.map_cons, List.map_nil, List.cons.injEq, and_true] at hf
  obtain ⟨h1, h2, h3⟩ := hf
  rw [comparisonOp_text_inj (str_inj h1), valueRef_inj h2, valueRef_inj h3]

/-- Equal decision nodes have equal parts. -/
theorem decisionNode_inj {k k' : String} {c c' i i' : Json} {args args' : List Json}
    (h : sortKeys (decisionNode k c args i) = sortKeys (decisionNode k' c' args' i')) :
    k = k' ∧ sortKeys c = sortKeys c' ∧ args.map sortKeys = args'.map sortKeys ∧ sortKeys i = sortKeys i' := by
  have hf := sortKeys_obj_fields ["kind", "comparison", "args", "inner"] (by decide) rfl rfl h
  simp only [List.map_cons, List.map_nil, List.cons.injEq, and_true] at hf
  obtain ⟨h1, h2, h3, h4⟩ := hf
  simp only [sortKeys, arr.injEq, sortItems_eq] at h3
  exact ⟨str_inj h1, h2, h3, h4⟩

theorem aggregateKind_text_inj {a b : AggregateKind} (h : a.text = b.text) : a = b := by
  cases a <;> cases b <;> first | rfl | exact absurd h (by decide)

/-- The dumps of arguments determine them, if that of each does. -/
theorem args_inj {l : List DecisionExpr}
    (hl : ∀ e ∈ l, ∀ {e' : DecisionExpr}, sortKeys e.toJson = sortKeys e'.toJson → e = e') :
    ∀ {l' : List DecisionExpr},
      (DecisionExpr.toJsonArgs l).map sortKeys = (DecisionExpr.toJsonArgs l').map sortKeys → l = l' := by
  induction l with
  | nil =>
    intro l' h
    cases l' with
    | nil => rfl
    | cons e' es' => simp [DecisionExpr.toJsonArgs] at h
  | cons e es ih =>
    intro l' h
    cases l' with
    | nil => simp [DecisionExpr.toJsonArgs] at h
    | cons e' es' =>
      simp only [DecisionExpr.toJsonArgs, List.map_cons, List.cons.injEq] at h
      rw [hl e (by simp) h.1, ih (fun x hx => hl x (by simp [hx])) h.2]

/-- **The dump of a decision determines it.** -/
theorem decision_inj (e : DecisionExpr) :
    ∀ {e' : DecisionExpr}, sortKeys e.toJson = sortKeys e'.toJson → e = e' := by
  -- the kinds are pairwise distinct texts
  induction e with
  | comparison c =>
    intro e' h
    cases e' with
    | comparison c' => rw [comparison_inj (decisionNode_inj h).2.1]
    | aggregate k' i' => exact absurd (decisionNode_inj h).1 (by cases k' <;> decide)
    | _ => exact absurd (decisionNode_inj h).1 (by decide)
  | and args ih =>
    intro e' h
    cases e' with
    | and args' => rw [args_inj ih (decisionNode_inj h).2.2.1]
    | aggregate k' i' => exact absurd (decisionNode_inj h).1 (by cases k' <;> decide)
    | _ => exact absurd (decisionNode_inj h).1 (by decide)
  | or args ih =>
    intro e' h
    cases e' with
    | or args' => rw [args_inj ih (decisionNode_inj h).2.2.1]
    | aggregate k' i' => exact absurd (decisionNode_inj h).1 (by cases k' <;> decide)
    | _ => exact absurd (decisionNode_inj h).1 (by decide)
  | not inner ih =>
    intro e' h
    cases e' with
    | not inner' => rw [ih (decisionNode_inj h).2.2.2]
    | aggregate k' i' => exact absurd (decisionNode_inj h).1 (by cases k' <;> decide)
    | _ => exact absurd (decisionNode_inj h).1 (by decide)
  | aggregate kind inner ih =>
    intro e' h
    cases e' with
    | aggregate kind' inner' =>
      obtain ⟨h1, -, -, h2⟩ := decisionNode_inj h
      rw [aggregateKind_text_inj h1, ih h2]
    | _ => exact absurd (decisionNode_inj h).1 (by cases kind <;> decide)

theorem parameterSpec_inj {a b : PolicyParameterSpec} (h : sortKeys a.toJson = sortKeys b.toJson) : a = b := by
  obtain ⟨a1, a2, a3⟩ := a
  obtain ⟨b1, b2, b3⟩ := b
  have hf := sortKeys_obj_fields ["value_type", "minimum", "maximum", "default"] (by decide) rfl rfl h
  simp only [List.map_cons, List.map_nil, List.cons.injEq, true_and, and_true] at hf
  obtain ⟨h1, h2, h3⟩ := hf
  obtain rfl := ofOptInt_inj h1
  obtain rfl := ofOptInt_inj h2
  obtain rfl := ofOptInt_inj h3
  rfl

theorem outputExpr_text_inj {a b : OutputExpr} (h : a.text = b.text) : a = b := by
  cases a <;> cases b <;> first | rfl | exact absurd h (by decide)

theorem valueType_text_inj {a b : ValueType} (h : a.text = b.text) : a = b := by
  cases a <;> cases b <;> first | rfl | exact absurd h (by decide)

theorem outputSpec_inj {a b : OutputSpec} (h : sortKeys a.toJson = sortKeys b.toJson) : a = b := by
  obtain ⟨e, t, i⟩ := a
  obtain ⟨e', t', i'⟩ := b
  have hf := sortKeys_obj_fields ["expr", "value_type", "signal_index"] (by decide) rfl rfl h
  simp only [List.map_cons, List.map_nil, List.cons.injEq, and_true] at hf
  obtain ⟨h1, h2, h3⟩ := hf
  have hi : i = i' := by exact_mod_cast int_inj h3
  rw [outputExpr_text_inj (str_inj h1), valueType_text_inj (str_inj h2), hi]

/-- Equal dictionaries hold the same entries, in some order. -/
theorem dict_perm {α : Type} {f : α → Json} (hf : ∀ {a b}, sortKeys (f a) = sortKeys (f b) → a = b)
    {d d' : Dict α} (h : sortKeys (d.toJson f) = sortKeys (d'.toJson f)) : d.items.Perm d'.items := by
  have hp := sortKeys_obj_perm h
  simp only [List.map_map, Function.comp_def] at hp
  have hinj : Function.Injective fun p : String × α => (p.1, sortKeys (f p.2)) := by
    rintro ⟨k, v⟩ ⟨k', v'⟩ he
    simp only [Prod.mk.injEq] at he
    rw [he.1, hf he.2]
  exact (List.map_perm_map_iff hinj).1 hp

/-! ## Equal up to the order of dictionaries -/

/-- What the renderers read of two specs, up to the order in which entries are declared. -/
structure SameUpToOrder (s s' : PolicyDSLSpec) : Prop where
  policyId : s.policyId = s'.policyId
  referencePolicy : s.referencePolicy = s'.referencePolicy
  compilerVersion : s.compilerVersion = s'.compilerVersion
  batchSize : s.batchSize = s'.batchSize
  decision : s.decision = s'.decision
  policyParameters : s.policyParameters.items.Perm s'.policyParameters.items
  outputs : s.outputs.items.Perm s'.outputs.items

/-- The keys of `model_dump`. -/
def dumpKeys : List String :=
  ["policy_id", "policy_version", "reference_policy", "spec_version", "compiler_version", "description",
    "batch", "inputs", "policy_parameters", "decision", "outputs", "primitives", "expected_attestation",
    "generated_python_path", "generated_circom_path", "generated_debug_trace_path", "circuit_id"]

theorem sameUpToOrder {s s' : PolicyDSLSpec} (h : sortKeys s.toJson = sortKeys s'.toJson) :
    SameUpToOrder s s' := by
  have hf := sortKeys_obj_fields dumpKeys (by decide) rfl rfl h
  simp only [List.map_cons, List.map_nil, List.cons.injEq, and_true] at hf
  obtain ⟨h1, -, h2, -, h3, -, h4, -, h5, h6, h7, -⟩ := hf
  have hbatch := sortKeys_obj_fields ["batch_size"] (by decide) rfl rfl h4
  simp only [List.map_cons, List.map_nil, List.cons.injEq, and_true] at hbatch
  exact ⟨str_inj h1, str_inj h2, str_inj h3, by exact_mod_cast int_inj hbatch, decision_inj _ h6,
    dict_perm parameterSpec_inj h5, dict_perm outputSpec_inj h7⟩

/-- Two specs declare parameters and outputs in the same order. -/
def SameOrder (s s' : PolicyDSLSpec) : Prop :=
  s.policyParameters.keys = s'.policyParameters.keys ∧ s.outputs.keys = s'.outputs.keys

theorem items_eq {α : Type} {d d' : Dict α} (hp : d.items.Perm d'.items) (hk : d.keys = d'.keys) : d = d' :=
  Dict.ext (Dict.perm_eq_of_keys hp hk d.nodup)

/-- The three sources of two runs are the same. -/
def SameSources (a a' : CompilerArtifacts) : Prop :=
  a.circomSource = a'.circomSource ∧ a.pythonSource = a'.pythonSource ∧ a.debugTraceSource = a'.debugTraceSource

variable {sha256 : String → String} {s s' : PolicyDSLSpec} {a a' : CompilerArtifacts}

/-- What the sources of a run are, by name. -/
theorem sources_of_run (h : generatePolicyArtifacts sha256 s = .ok a) :
    ∃ kind inner, s.decision = .aggregate kind inner ∧ a.specHash = sha256 s.toJson.canonical ∧
      renderPythonSource s kind inner a.specHash = .ok a.pythonSource ∧
      renderCircomSource s kind inner a.specHash = .ok a.circomSource ∧
      a.debugTraceSource = renderDebugTrace s kind inner a.specHash := by
  simp only [generatePolicyArtifacts, bind_ok, pure_ok, Prod.exists] at h
  obtain ⟨kind, inner, hd, py, hp, cc, hc, rfl⟩ := h
  unfold ensureSupportedDecision at hd
  split at hd
  · rename_i k e heq
    simp only [bind_ok, pure_ok, Prod.mk.injEq] at hd
    obtain ⟨_, -, rfl, rfl⟩ := hd
    exact ⟨k, e, heq, rfl, hp, hc, rfl⟩
  · cases hd

/-- **Equal specs and orders give equal sources.** -/
theorem sources_eq (h : generatePolicyArtifacts sha256 s = .ok a) (h' : generatePolicyArtifacts sha256 s' = .ok a')
    (hhash : a.specHash = a'.specHash) (hs : SameUpToOrder s s') (ho : SameOrder s s') : SameSources a a' := by
  obtain ⟨kind, inner, hd, -, hpy, hcc, hdb⟩ := sources_of_run h
  obtain ⟨kind', inner', hd', -, hpy', hcc', hdb'⟩ := sources_of_run h'
  obtain ⟨rfl, rfl⟩ : kind = kind' ∧ inner = inner' := by
    simpa using hd.symm.trans (hs.decision.trans hd')
  have hparams := items_eq hs.policyParameters ho.1
  have houts := items_eq hs.outputs ho.2
  refine ⟨?_, ?_, ?_⟩
  · have hsource : renderCircomSource s kind inner a.specHash = renderCircomSource s' kind inner a'.specHash := by
      unfold renderCircomSource
      rw [hparams, houts, hs.compilerVersion, hs.policyId, hs.batchSize, hhash]
    rw [hcc, hcc'] at hsource
    exact Except.ok.inj hsource
  · have hsource : renderPythonSource s kind inner a.specHash = renderPythonSource s' kind inner a'.specHash := by
      unfold renderPythonSource moduleHead moduleBody outputsUseHash
      rw [hparams, houts, hs.compilerVersion, hs.policyId, hs.referencePolicy, hs.batchSize, hhash]
    rw [hpy, hpy'] at hsource
    exact Except.ok.inj hsource
  · rw [hdb, hdb', renderDebugTrace, renderDebugTrace, hparams, hs.policyId, hs.referencePolicy, hhash]

/-! ## The sources show the order -/

/-- Two names followed by `x` in one text and by `y` in another are the same. -/
theorem name_eq {n m r r' u u' : List Char} {x y : Char} (hxy : x ≠ y) (h1 : n ++ x :: r = m ++ x :: r')
    (h2 : n ++ y :: u = m ++ y :: u') : n = m := by
  -- where one name goes on, it goes on with `x` in the first text and with `y` in the second
  have hgo : ∀ {n m r r' u u' : List Char}, n ++ x :: r = m ++ x :: r' → n ++ y :: u = m ++ y :: u' →
      ∀ t, m = n ++ t → n = m := by
    intro n m r r' u u' h1 h2 t ht
    subst ht
    rw [List.append_assoc] at h1 h2
    have h1 := List.append_cancel_left h1
    have h2 := List.append_cancel_left h2
    cases t with
    | nil => simp
    | cons c cs =>
      simp only [List.cons_append, List.cons.injEq] at h1 h2
      exact absurd (h1.1.trans h2.1.symm) hxy
  rcases List.append_eq_append_iff.1 h1 with ⟨t, ht, -⟩ | ⟨t, ht, -⟩
  · exact hgo h1 h2 t ht
  · exact (hgo h1.symm h2.symm t ht).symm

/-- Lines joined by line breaks. -/
def joinLines {α : Type} (f : α → List Char) (l : List α) : List Char := ['\n'].intercalate (l.map f)

/-- What follows the first line. -/
def afterLine {α : Type} (f : α → List Char) : List α → List Char
  | [] => []
  | b :: t => '\n' :: joinLines f (b :: t)

theorem joinLines_cons {α : Type} (f : α → List Char) (a : α) (t : List α) :
    joinLines f (a :: t) = f a ++ afterLine f t := by
  cases t with
  | nil => simp [joinLines, afterLine]
  | cons b t => simp [joinLines, afterLine]

theorem joinLines_of_afterLine {α : Type} {f : α → List Char} {t t' : List α} (hl : t.length = t'.length)
    (h : afterLine f t = afterLine f t') : joinLines f t = joinLines f t' := by
  cases t <;> cases t' <;> simp_all [afterLine]

/-- **Two texts of the same entries show their order**: one has `x` behind every name, the
other `y`. By induction on the entries; the first names agree, so the first entries do. -/
theorem order_of_lines {α : Type} {x y : Char} (hxy : x ≠ y) {p q : List Char} {f g : String × α → List Char}
    (hf : ∀ a, ∃ r, f a = p ++ (a.1.toList ++ x :: r)) (hg : ∀ a, ∃ r, g a = q ++ (a.1.toList ++ y :: r)) :
    ∀ {l l' : List (String × α)}, l.Perm l' → (l.map Prod.fst).Nodup → joinLines f l = joinLines f l' →
      joinLines g l = joinLines g l' → l = l' := by
  intro l
  induction l with
  | nil => intro l' hp _ _ _; exact (List.nil_perm.1 hp).symm
  | cons a t ih =>
    intro l' hp hnd h1 h2
    cases l' with
    | nil => simpa using hp.length_eq
    | cons b t' =>
      rw [joinLines_cons, joinLines_cons] at h1 h2
      -- the first lines start with the two first names, behind the same text
      have hname : a.1 = b.1 := by
        obtain ⟨r, hr⟩ := hf a
        obtain ⟨r', hr'⟩ := hf b
        obtain ⟨u, hu⟩ := hg a
        obtain ⟨u', hu'⟩ := hg b
        rw [hr, hr', List.append_assoc, List.append_assoc, List.append_assoc, List.append_assoc] at h1
        rw [hu, hu', List.append_assoc, List.append_assoc, List.append_assoc, List.append_assoc] at h2
        exact String.toList_inj.1 (name_eq hxy (List.append_cancel_left h1) (List.append_cancel_left h2))
      have hnd' : ((b :: t').map Prod.fst).Nodup := (hp.map Prod.fst).nodup_iff.1 hnd
      have hab : a = b := List.inj_on_of_nodup_map hnd' (hp.subset List.mem_cons_self) List.mem_cons_self hname
      subst hab
      have ht := hp.cons_inv
      rw [List.map_cons, List.nodup_cons] at hnd
      rw [ih ht hnd.2 (joinLines_of_afterLine ht.length_eq (List.append_cancel_left h1))
        (joinLines_of_afterLine ht.length_eq (List.append_cancel_left h2))]

theorem afterLine_length {α : Type} (f : α → List Char) (t : List α) :
    (afterLine f t).length = (t.map fun a => (f a).length + 1).sum := by
  induction t with
  | nil => rfl
  | cons b t ih =>
    rw [afterLine, joinLines_cons, List.length_cons, List.length_append, ih, List.map_cons, List.sum_cons]
    omega

/-- The length of joined lines does not depend on their order. -/
theorem joinLines_length {α : Type} {f : α → List Char} {l l' : List α} (h : l.Perm l') :
    (joinLines f l).length = (joinLines f l').length := by
  have hsum := (h.map fun a => (f a).length + 1).sum_eq
  rw [← afterLine_length, ← afterLine_length] at hsum
  cases l with
  | nil => rw [List.nil_perm.1 h]
  | cons a t =>
    cases l' with
    | nil => simpa using h.length_eq
    | cons b t' =>
      rw [afterLine, afterLine, List.length_cons, List.length_cons] at hsum
      omega

/-- One output declaration. -/
def declLine (o : String × OutputSpec) : List Char :=
  "    signal output ".toList ++ (o.1.toList ++ [';'])

/-- One output assignment. -/
def assignLine (rootId : ℕ) (hasParameters : Bool) (o : String × OutputSpec) : List Char :=
  "    ".toList ++ (o.1.toList ++ (" <== ".toList ++ ((outputSource rootId hasParameters o.2.expr).toList ++ [';'])))

theorem declarations_toList (outputs : Dict OutputSpec) :
    (renderOutputDeclarations outputs).toList = joinLines declLine outputs.items := by
  rw [renderOutputDeclarations, String.toList_intercalate, joinLines, List.map_map]
  congr 1
  apply List.map_congr_left
  intro o _
  rw [Function.comp, String.toList_append, String.toList_append, List.append_assoc]
  rfl

theorem assignments_toList (outputs : Dict OutputSpec) (rootId : ℕ) (hasParameters : Bool) :
    (renderOutputAssignments outputs rootId hasParameters).toList =
      joinLines (assignLine rootId hasParameters) outputs.items := by
  rw [renderOutputAssignments, String.toList_intercalate, joinLines, List.map_map]
  congr 1
  apply List.map_congr_left
  intro o _
  rw [Function.comp, String.toList_append, String.toList_append, String.toList_append, String.toList_append,
    List.append_assoc, List.append_assoc, List.append_assoc]
  rfl

/-- Equal Circom sources show the order of the outputs. -/
theorem outputs_of_circom (hs : SameUpToOrder s s') (hk : s.policyParameters.keys = s'.policyParameters.keys)
    {kind : AggregateKind} {inner : DecisionExpr} {hash text : String}
    (h : renderCircomSource s kind inner hash = .ok text)
    (h' : renderCircomSource s' kind inner hash = .ok text) : s.outputs = s'.outputs := by
  simp only [renderCircomSource, bind_ok, pure_ok] at h h'
  obtain ⟨blocks, hb, rfl⟩ := h
  obtain ⟨blocks', hb', htext⟩ := h'
  rw [← hk, hb, Except.ok.injEq] at hb'
  subst hb'
  rw [← hk, ← hs.compilerVersion, ← hs.policyId, ← hs.batchSize] at htext
  have hl := congrArg String.toList htext
  simp only [String.toList_append, List.append_assoc, declarations_toList, assignments_toList] at hl
  -- the declarations are equally long, so everything behind them starts at the same place
  obtain ⟨h1, h2⟩ := List.append_inj (List.append_cancel_left hl) (joinLines_length hs.outputs.symm)
  have h3 := List.append_cancel_right (List.append_cancel_left h2)
  refine Dict.ext (order_of_lines (by decide : ';' ≠ ' ') (fun a => ⟨[], rfl⟩) (fun a => ⟨_, rfl⟩) hs.outputs
    s.outputs.nodup h1.symm h3.symm)

theorem python_head {kind : AggregateKind} {inner : DecisionExpr} {hash text : String}
    (h : renderPythonSource s kind inner hash = .ok text) :
    ∃ rest, text.toList =
      (moduleHead s hash (s.policyParameters.keys ≠ [] || outputsUseHash s)).toList ++
        (render .spaced (.arr (s.policyParameters.keys.map .str)) ++ rest) := by
  simp only [renderPythonSource, bind_ok, pure_ok] at h
  obtain ⟨d, -, rfl⟩ := h
  refine ⟨(moduleBody s d).toList, ?_⟩
  rw [String.toList_append, String.toList_append, Json.dumps, String.toList_ofList, List.append_assoc]

theorem moduleHead_eq (hs : SameUpToOrder s s') (hash : String) :
    moduleHead s hash (s.policyParameters.keys ≠ [] || outputsUseHash s) =
      moduleHead s' hash (s'.policyParameters.keys ≠ [] || outputsUseHash s') := by
  have hlen : s.policyParameters.keys.length = s'.policyParameters.keys.length := by
    simpa [Dict.keys] using hs.policyParameters.length_eq
  have hkeys : decide (s.policyParameters.keys ≠ []) = decide (s'.policyParameters.keys ≠ []) := by
    rw [decide_eq_decide, ← List.length_pos_iff_ne_nil, ← List.length_pos_iff_ne_nil, hlen]
  have houts : outputsUseHash s = outputsUseHash s' := hs.outputs.any_eq
  unfold moduleHead
  rw [hkeys, houts, hs.compilerVersion, hs.policyId, hs.referencePolicy, hs.batchSize]

/-- Equal Python sources show the order of the parameters. -/
theorem parameters_of_python (hs : SameUpToOrder s s') {kind : AggregateKind} {inner : DecisionExpr}
    {hash text : String} (h : renderPythonSource s kind inner hash = .ok text)
    (h' : renderPythonSource s' kind inner hash = .ok text) :
    s.policyParameters.keys = s'.policyParameters.keys := by
  obtain ⟨rest, hr⟩ := python_head h
  obtain ⟨rest', hr'⟩ := python_head h'
  rw [hr, moduleHead_eq hs] at hr'
  obtain ⟨hkeys, -⟩ := arr_unique (List.append_cancel_left hr')
  exact List.map_injective_iff.2 (fun _ _ h => Json.str.inj h) hkeys

/-- **Equal sources show the order** of parameters and outputs. -/
theorem order_of_sources (h : generatePolicyArtifacts sha256 s = .ok a)
    (h' : generatePolicyArtifacts sha256 s' = .ok a') (hhash : a.specHash = a'.specHash)
    (hs : SameUpToOrder s s') (hsrc : SameSources a a') : SameOrder s s' := by
  obtain ⟨kind, inner, hd, -, hpy, hcc, -⟩ := sources_of_run h
  obtain ⟨kind', inner', hd', -, hpy', hcc', -⟩ := sources_of_run h'
  obtain ⟨rfl, rfl⟩ : kind = kind' ∧ inner = inner' := by
    simpa using hd.symm.trans (hs.decision.trans hd')
  rw [← hhash, ← hsrc.2.1] at hpy'
  rw [← hhash, ← hsrc.1] at hcc'
  -- the order of the parameters first: the Circom text behind the outputs depends on it
  have hk := parameters_of_python hs hpy hpy'
  exact ⟨hk, by rw [outputs_of_circom hs hk hcc hcc']⟩

/-! ## The hash -/

/-- **Equal hashes mean equal specs up to the order of dictionaries.** -/
theorem hash_eq_iff (hinj : Function.Injective sha256) (h : generatePolicyArtifacts sha256 s = .ok a)
    (h' : generatePolicyArtifacts sha256 s' = .ok a') :
    a.specHash = a'.specHash ↔ sortKeys s.toJson = sortKeys s'.toJson := by
  obtain ⟨-, -, -, hh, -⟩ := sources_of_run h
  obtain ⟨-, -, -, hh', -⟩ := sources_of_run h'
  rw [hh, hh']
  refine ⟨fun he => canonical_inj (hinj he), fun he => ?_⟩
  rw [canonical, canonical, he]

/-- **When the spec hash identifies the sources.** For two accepted specs, equal hashes imply
identical sources iff the specs, where they are equal up to the order of dictionaries, declare
their parameters and their outputs in the same order. -/
theorem hash_identifies_iff (hinj : Function.Injective sha256)
    (h : generatePolicyArtifacts sha256 s = .ok a) (h' : generatePolicyArtifacts sha256 s' = .ok a') :
    (a.specHash = a'.specHash → SameSources a a') ↔
      (sortKeys s.toJson = sortKeys s'.toJson → SameOrder s s') := by
  have hiff := hash_eq_iff hinj h h'
  constructor
  · intro hid heq
    have hhash := hiff.2 heq
    exact order_of_sources h h' hhash (sameUpToOrder heq) (hid hhash)
  · intro hord hhash
    have heq := hiff.1 hhash
    exact sources_eq h h' hhash (sameUpToOrder heq) (hord heq)

/-! ## Orders that do and do not show -/

/-- The lending risk decision with given inputs and outputs. -/
def lendingSpec (inputs : Dict InputSpec) (outputs : Dict OutputSpec) (hin : inputs.items ≠ [])
    (hout : outputs.items ≠ []) : PolicyDSLSpec where
  policyId := "lending_risk_v1"
  policyVersion := "1.0.0"
  referencePolicy := "lending_risk_reference_v1"
  specVersion := "1.0.0"
  compilerVersion := "0.1.0"
  description := none
  batchSize := 250
  inputs := inputs
  policyParameters := .empty
  decision := .aggregate .all (.comparison ⟨.gt, .ref "balances", .ref "limits"⟩)
  outputs := outputs
  primitives := ["GreaterThan"]
  expectedAttestation := .empty
  generatedPythonPath := "p.py"
  generatedCircomPath := "p.circom"
  generatedDebugTracePath := "p.debug.json"
  circuitId := "batch_credit_check"
  nonempty := by decide
  batchPos := by norm_num
  inputsPos := hin
  outputsPos := hout
  primitivesPos := by simp
  decisionWf := by decide

def balancesFirst : Dict InputSpec := ⟨[("balances", ⟨⟩), ("limits", ⟨⟩)], by decide⟩

def limitsFirst : Dict InputSpec := ⟨[("limits", ⟨⟩), ("balances", ⟨⟩)], by decide⟩

theorem decisionFirst_nodup : ([("all_valid", OutputSpec.mk .decision .bool 0),
    ("active_count_out", ⟨.activeCount, .int, 1⟩)].map Prod.fst).Nodup := by decide

def decisionFirst : Dict OutputSpec :=
  ⟨[("all_valid", ⟨.decision, .bool, 0⟩), ("active_count_out", ⟨.activeCount, .int, 1⟩)], decisionFirst_nodup⟩

def countFirst : Dict OutputSpec :=
  ⟨[("active_count_out", ⟨.activeCount, .int, 1⟩), ("all_valid", ⟨.decision, .bool, 0⟩)], by decide⟩

/-- The order of the inputs does not show: equal hashes, identical sources. -/
theorem hash_identifies_inputs_order : ∃ a a',
    generatePolicyArtifacts id (lendingSpec balancesFirst decisionFirst (by decide) (by decide)) = .ok a ∧
    generatePolicyArtifacts id (lendingSpec limitsFirst decisionFirst (by decide) (by decide)) = .ok a' ∧
    (a.specHash = a'.specHash → SameSources a a') := by
  obtain ⟨a, h⟩ := isOk_iff.1 (show (generatePolicyArtifacts id
    (lendingSpec balancesFirst decisionFirst (by decide) (by decide))).isOk = true by decide +kernel)
  obtain ⟨a', h'⟩ := isOk_iff.1 (show (generatePolicyArtifacts id
    (lendingSpec limitsFirst decisionFirst (by decide) (by decide))).isOk = true by decide +kernel)
  exact ⟨a, a', h, h', (hash_identifies_iff Function.injective_id h h').2 fun _ => ⟨rfl, rfl⟩⟩

/-- **The order of the outputs shows in the circuit and not in the hash.** -/
theorem hash_misses_outputs_order : ∃ a a',
    generatePolicyArtifacts id (lendingSpec balancesFirst decisionFirst (by decide) (by decide)) = .ok a ∧
    generatePolicyArtifacts id (lendingSpec balancesFirst countFirst (by decide) (by decide)) = .ok a' ∧
    Function.Injective (id : String → String) ∧ a.specHash = a'.specHash ∧ ¬ SameSources a a' := by
  obtain ⟨a, h⟩ := isOk_iff.1 (show (generatePolicyArtifacts id
    (lendingSpec balancesFirst decisionFirst (by decide) (by decide))).isOk = true by decide +kernel)
  obtain ⟨a', h'⟩ := isOk_iff.1 (show (generatePolicyArtifacts id
    (lendingSpec balancesFirst countFirst (by decide) (by decide))).isOk = true by decide +kernel)
  have hout : sortKeys (decisionFirst.toJson OutputSpec.toJson) = sortKeys (countFirst.toJson OutputSpec.toJson) :=
    sortKeys_obj_of_perm (List.Perm.swap ..) (by decide)
  have hsame : sortKeys (lendingSpec balancesFirst decisionFirst (by decide) (by decide)).toJson =
      sortKeys (lendingSpec balancesFirst countFirst (by decide) (by decide)).toJson := by
    rw [PolicyDSLSpec.toJson, PolicyDSLSpec.toJson, sortKeys, sortKeys, sortFields_eq, sortFields_eq]
    simp only [List.map_cons, lendingSpec, hout]
  have hhash : a.specHash = a'.specHash := (hash_eq_iff Function.injective_id h h').2 hsame
  refine ⟨a, a', h, h', Function.injective_id, hhash, fun hsrc => ?_⟩
  have hord := (order_of_sources h h' hhash (sameUpToOrder hsame) hsrc).2
  exact absurd hord (by decide +kernel)

end Vellum
