import Vellum.Proof.Accepted
import Vellum.Proof.ModuleTokens
import Vellum.Proof.PythonMeaning

/-!
# What the imported module computes

* `denotes_plain`: a plain string denotes itself, for every interpreter.
* `readsWritten_iff`: the tables keep exactly the names of the basic plane.
* `loadPolicy_accepted`: the class that the module of an accepted spec defines.
* `loaded_reading`: what its decision evaluates to.
* `reads_found`: that is what the decision says, where each parameter literal finds the value of
  its parameter.
-/

namespace Vellum

open PySource

variable {I : Interpreter} {spec : PolicyDSLSpec} {kind : AggregateKind} {inner : DecisionExpr} {py : PyBool}
  {blocks : List CircomBlock} {policy : GeneratedReferencePolicy} {B : Batch}

/-- An interpreter without character names, which refuses what breaks out of a literal. -/
def plainPython : Interpreter := ⟨noNames, 200, fun _ => none⟩

/-! ## Strings -/

theorem shortOk_noCr (cs : List Char) (h : shortOk cs = true) : '\r' ∉ cs := by
  fun_induction shortOk cs with
  | case1 => exact List.not_mem_nil
  | case2 => cases h
  | case3 d ds ih =>
    simp only [Bool.and_eq_true, decide_eq_true_eq] at h
    simp only [List.mem_cons, not_or]
    exact ⟨by decide, Ne.symm h.1.1, ih h.2⟩
  | case4 c cs hc ih =>
    simp only [Bool.and_eq_true, decide_eq_true_eq] at h
    simp only [List.mem_cons, not_or]
    exact ⟨Ne.symm h.1.1.2, ih h.2⟩

theorem textOf_codes (s : String) : textOf (codes s.toList) = some s := by
  have hvalid : (codes s.toList).all (fun n => decide n.isValidChar) = true := by
    simp only [codes, List.all_map, List.all_eq_true, Function.comp, decide_eq_true_eq]
    exact fun c _ => c.valid
  have hchars : (codes s.toList).map Char.ofNat = s.toList := by
    rw [codes, List.map_map]
    exact (List.map_congr_left fun c _ => Char.ofNat_toNat c).trans (List.map_id _)
  rw [textOf, if_pos hvalid, hchars, String.ofList_toList]

/-- **A plain string denotes itself**, whatever names its interpreter knows. -/
theorem denotes_plain (I : Interpreter) {s : String} (h : plainLiteral s = true) : I.denotes s = some s := by
  obtain ⟨hshort, hdecode⟩ := (@literal_wellFormed_iff I.named s).2 h
  unfold Interpreter.denotes Interpreter.literal
  rw [universalNewlines_eq (shortOk_noCr _ hshort)]
  dsimp only
  rw [if_pos hshort, hdecode, Option.bind_some, textOf_codes]

/-- **The tables keep a name** exactly where no character of it is beyond the basic plane. -/
theorem readsWritten_iff (I : Interpreter) (s : String) :
    I.readsWritten s = true ↔ s.toList.all (fun c => c.toNat < 0x10000) = true := by
  rw [Interpreter.readsWritten, decide_eq_true_eq, decode_escape_iff]

/-! ## Keys -/

theorem key_denotes {name key : String} (h : I.denotes name = some key) : spec.key I name = key := by
  rw [PolicyDSLSpec.key, h, Option.getD_some]

/-- A literal finds a parameter iff it denotes the name of one. -/
theorem key_mem_iff (name : String) : spec.key I name ∈ spec.policyParameters.keys ↔
    ∃ key ∈ spec.policyParameters.keys, I.denotes name = some key := by
  cases hname : I.denotes name with
  | some key => simp [key_denotes hname]
  | none =>
    have hlong : ∀ names : List String, ∀ key ∈ names, key.length ≤ (String.join names).length := by
      intro names
      induction names with
      | nil => simp
      | cons n ns ih =>
        intro key hkey
        rw [String.join_cons, String.length_append]
        rcases List.mem_cons.1 hkey with rfl | hkey
        · omega
        · exact (ih key hkey).trans (by omega)
    have habsent : spec.key I name ∉ spec.policyParameters.keys := by
      intro hmem
      have hle := hlong _ _ hmem
      rw [PolicyDSLSpec.key, hname, Option.getD_none, PolicyDSLSpec.noParameter, String.length_append] at hle
      have hone : "?".length = 1 := by decide
      omega
    simp [habsent]

/-- Plain names are the names of their parameters. -/
theorem readsParameters_plain (I : Interpreter) (params : String → ℤ)
    (hplain : ∀ name ∈ spec.decision.paramNames, plainLiteral name = true)
    (hkeys : ∀ name ∈ spec.decision.paramNames, name ∈ spec.policyParameters.keys) :
    spec.ReadsParameters I params := by
  intro name hname
  rw [key_denotes (denotes_plain I (hplain name hname))]
  exact ⟨hkeys name hname, rfl⟩

/-! ## The class -/

theorem rendered_python (h : Accepted spec kind inner py blocks) : spec.rendered = some py := by
  rw [PolicyDSLSpec.rendered, h.decision]
  dsimp only
  rw [h.python]
  rfl

/-- The decision of a module that can be imported is the rendered one, under its keys. -/
theorem loadDecision_accepted (h : Accepted spec kind inner py blocks) (hcontained : spec.contained = true) :
    loadDecision I spec = if spec.imports I then some (py.rename (spec.key I)) else none := by
  rw [loadDecision, if_pos hcontained, rendered_python h]
  rfl

/-- **The class of an accepted spec** has the rendered decision. -/
theorem loadPolicy_accepted (h : Accepted spec kind inner py blocks) (hcontained : spec.contained = true)
    (hp : loadPolicy I spec = some policy) :
    policy = ⟨spec.batchSize, spec.policyParameters, py.rename (spec.key I)⟩ := by
  unfold loadPolicy at hp
  rw [if_pos hcontained, loadDecision_accepted h hcontained] at hp
  split_ifs at hp
  · exact (Option.some.inj hp).symm
  · cases hp

/-- The class of a module that can be imported. -/
theorem loadPolicy_some (hcontained : spec.contained = true) (himports : spec.imports I = true)
    (hkeys : spec.policyParameters.keys.all I.readsWritten = true) (hpy : spec.rendered = some py) :
    loadPolicy I spec = some ⟨spec.batchSize, spec.policyParameters, py.rename (spec.key I)⟩ := by
  rw [loadPolicy, if_pos hcontained, if_pos hkeys, loadDecision, if_pos hcontained, himports, hpy]
  rfl

/-! ## The decision -/

/-- What a lookup finds among the parameters. -/
theorem lookup_params (names : List String) (B : Batch) (key : String) :
    (names.map fun n => (n, B.params n)).lookup key = if key ∈ names then some (B.params key) else none := by
  split_ifs with hmem
  · exact Dict.lookup_map_self hmem
  · rw [List.lookup_eq_none_iff]
    intro p hp
    obtain ⟨n, hn, rfl⟩ := List.mem_map.1 hp
    have hne : key ≠ n := fun heq => hmem (heq ▸ hn)
    simpa using hne

/-- **What the decision of the module evaluates to**: what the decision says with the parameters it
finds, and nothing where it comes to a literal that finds none. -/
theorem loaded_reading (h : Accepted spec kind inner py blocks) (hac : B.activeCount ≤ B.balances.length)
    (hac' : B.activeCount ≤ B.limits.length) :
    (py.rename (spec.key I)).eval (B.normalized spec.policyParameters.keys).env =
      if spec.finds I B then some (spec.decision.holdsAt (spec.found I B) 0) else none := by
  have henv : EnvOf (spec.found I B) (spec.policyParameters.keys.map fun n => (n, B.params n))
      (B.normalized spec.policyParameters.keys).env := ⟨rfl, rfl, rfl, rfl⟩
  have hright : KeysRight (spec.policyParameters.keys.map fun n => (n, B.params n)) (spec.key I) (spec.found I B)
      (DecisionExpr.aggregate kind inner).paramNames := by
    intro name _ x hx
    rw [lookup_params] at hx
    split_ifs at hx
    exact Option.some.inj hx
  have hfinds : spec.finds I B = (spec.decision.namesRead (spec.found I B) 0).all
      (found (spec.policyParameters.keys.map fun n => (n, B.params n)) (spec.key I)) := by
    unfold PolicyDSLSpec.finds
    congr 1
    funext name
    rw [found, lookup_params]
    by_cases hmem : spec.key I name ∈ spec.policyParameters.keys <;> simp [hmem]
  have heval := renderDecision_reading (B := spec.found I B) hac hac' hright h.python henv
  rw [← h.decision] at heval
  rw [heval, reading, hfinds]

/-- A module decides `True` iff it can be imported and finds parameters with which the decision holds. -/
theorem loaded_true_iff (h : Accepted spec kind inner py blocks) (hcontained : spec.contained = true)
    (hac : B.activeCount ≤ B.balances.length) (hac' : B.activeCount ≤ B.limits.length) :
    ((loadDecision I spec).bind (·.eval (B.normalized spec.policyParameters.keys).env) = some true) ↔
      spec.imports I = true ∧ spec.finds I B = true ∧ spec.decision.holdsAt (spec.found I B) 0 = true := by
  rw [loadDecision_accepted h hcontained]
  cases spec.imports I with
  | false => simp
  | true =>
    rw [if_pos rfl, Option.bind_some, loaded_reading h hac hac']
    cases spec.finds I B <;> simp

/-- The keys of the decision find the values of its parameters. -/
theorem keysFind_names (h : spec.ReadsParameters I B.params) :
    KeysFind (spec.policyParameters.keys.map fun n => (n, B.params n)) (spec.key I) B spec.decision.paramNames := by
  intro name hname
  obtain ⟨hmem, hvalue⟩ := h name hname
  rw [Dict.lookup_map_self hmem, hvalue]

/-- **The decision of the module** evaluates to what the decision says, where each literal finds the
value of its parameter. -/
theorem loaded_eval (h : Accepted spec kind inner py blocks) (hreads : spec.ReadsParameters I B.params)
    (hac : B.activeCount ≤ B.balances.length) (hac' : B.activeCount ≤ B.limits.length) :
    (py.rename (spec.key I)).eval (B.normalized spec.policyParameters.keys).env =
      some ((DecisionExpr.aggregate kind inner).holdsAt B 0) := by
  have hfind := keysFind_names hreads
  rw [h.decision] at hfind
  exact renderDecision_eval hac hac' hfind h.python (envOf_normalized _)

/-- Where each literal finds the value of its parameter, the module finds the parameters. -/
theorem reads_found (h : Accepted spec kind inner py blocks) (hreads : spec.ReadsParameters I B.params)
    (hac : B.activeCount ≤ B.balances.length) (hac' : B.activeCount ≤ B.limits.length) :
    spec.FindsParameters I B := by
  have heval := loaded_eval h hreads hac hac'
  rw [loaded_reading h hac hac', ← h.decision] at heval
  split_ifs at heval with hfinds
  exact ⟨hfinds, Option.some.inj heval⟩

/-! ## The outputs -/

/-- Outputs whose names denote themselves are projected as they are declared. -/
theorem projected_self (h : ∀ name ∈ spec.outputs.keys, I.denotes name = some name) :
    spec.projected I = spec.outputs := by
  have hitems : (spec.outputs.items.filterMap fun o => (I.denotes o.1).map fun name => (name, o.2)) =
      spec.outputs.items := by
    rw [List.filterMap_congr (g := some) fun o ho => ?_, List.filterMap_some]
    rw [h o.1 (List.mem_map_of_mem ho)]
    rfl
  apply Dict.ext
  rw [PolicyDSLSpec.projected, hitems, Dict.update_new _ _ spec.outputs.nodup fun _ _ => List.not_mem_nil]
  rfl

end Vellum
