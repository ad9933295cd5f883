import Vellum.Lib.Except
import Vellum.Spec.Meaning

/-!
# What the Python expression evaluates to

* `renderPythonBooleanExpr_eval`: the rendered expression evaluates to what the decision says, as
  long as it finds every parameter that it reads, and raises otherwise.
* `namesRead_subset`: it reads parameters of the decision.
* `renderDecision_eval`: where all are found, it evaluates to what the decision says.
-/

namespace Vellum

variable {B : Batch} {params : List (String × ℤ)} {key : String → String}

/-- An environment that holds the batch, whatever its index variables. -/
structure EnvOf (B : Batch) (params : List (String × ℤ)) (env : PyEnv) : Prop where
  activeCount : env.activeCount = B.activeCount
  balances : env.balances = B.balances
  limits : env.limits = B.limits
  params : env.policyParams = params

theorem EnvOf.bind {env : PyEnv} (h : EnvOf B params env) (k i : ℕ) : EnvOf B params (env.bind k i) :=
  ⟨h.activeCount, h.balances, h.limits, h.params⟩

theorem bind_idx (env : PyEnv) (k i : ℕ) : (env.bind k i).idx k = some i := by simp [PyEnv.bind]

/-- The environment of `evaluate_reference` holds the batch. -/
theorem envOf_normalized (names : List String) :
    EnvOf B (names.map fun n => (n, B.params n)) (B.normalized names).env := ⟨rfl, rfl, rfl, rfl⟩

/-! ## Results that hang on names -/

/-- Something stands under the key of the name. -/
def found (params : List (String × ℤ)) (key : String → String) (n : String) : Bool := (params.lookup (key n)).isSome

/-- A result, unless a name is not found. -/
def reading {α : Type} (params : List (String × ℤ)) (key : String → String) (names : List String) (a : α) : Option α :=
  if names.all (found params key) then some a else none

theorem reading_nil {α : Type} (a : α) : reading params key [] a = some a := rfl

/-- One reading after another. -/
theorem reading_next {α β : Type} {l m : List String} {a : α} {b : β} {next : α → Option β}
    (h : next a = reading params key m b) :
    (reading params key l a).bind next = reading params key (l ++ m) b := by
  unfold reading at h ⊢
  rw [List.all_append]
  cases l.all (found params key) <;> simp [h]

theorem reading_last {α β : Type} {l : List String} {a : α} {b : β} {next : α → Option β} (h : next a = some b) :
    (reading params key l a).bind next = reading params key l b := by
  have hnext : (reading params key l a).bind next = reading params key (l ++ []) b := reading_next h
  rw [hnext, List.append_nil]

/-- What stands under the key of a name is the value of that parameter. -/
def KeysRight (params : List (String × ℤ)) (key : String → String) (B : Batch) (l : List String) : Prop :=
  ∀ n ∈ l, ∀ x, params.lookup (key n) = some x → B.params n = x

theorem keysRight_args {l : List DecisionExpr}
    (h : KeysRight params key B ((DecisionExpr.valuesArgs l).flatMap ValueRef.paramNames)) {e : DecisionExpr}
    (he : e ∈ l) : KeysRight params key B e.paramNames := by
  intro n hn
  apply h
  rw [DecisionExpr.valuesArgs_eq, List.flatMap_assoc]
  exact List.mem_flatMap.2 ⟨e, he, hn⟩

/-- A parameter is read. -/
theorem lookup_reading {n : String} (h : KeysRight params key B [n]) :
    params.lookup (key n) = reading params key [n] (B.params n) := by
  unfold reading found
  cases hx : params.lookup (key n) with
  | none => simp [hx]
  | some x => simp [hx, h n (List.mem_singleton.2 rfl) x hx]

/-! ## Values -/

theorem getElem?_getD {l : List ℤ} {i : ℕ} (h : i < l.length) : l[i]? = some (l.getD i 0) := by
  rw [List.getD_eq_getElem?_getD, List.getElem?_eq_getElem h, Option.getD_some]

/-- **Value nodes.** -/
theorem renderPythonValue_eval {env : PyEnv} (henv : EnvOf B params env) {idx i : ℕ}
    (hi : env.idx idx = some i) (hb : i < B.balances.length) (hl : i < B.limits.length) {v : ValueRef}
    (hn : KeysRight params key B v.paramNames) {pv : PyValue} (h : renderPythonValue idx v = .ok pv) :
    (pv.rename key).eval env = reading params key v.paramNames (B.valueAt i v) := by
  cases v with
  | constInt c => cases h; rfl
  | param p =>
    cases h
    rw [PyValue.rename, PyValue.eval, henv.params]
    exact lookup_reading hn
  | ref s =>
    simp only [renderPythonValue] at h
    simp only [Batch.valueAt]
    split_ifs at h ⊢ with h1 h2 h3 h4 <;> cases h
    · subst h1
      have hnames : (ValueRef.ref "balances").paramNames = [] := by decide +kernel
      rw [hnames, reading_nil]
      simp only [PyValue.rename, PyValue.eval, hi, Option.bind_some, henv.balances, getElem?_getD hb]
    · subst h2
      have hnames : (ValueRef.ref "limits").paramNames = [] := by decide +kernel
      rw [hnames, reading_nil]
      simp only [PyValue.rename, PyValue.eval, hi, Option.bind_some, henv.limits, getElem?_getD hl]
    · subst h3
      have hnames : (ValueRef.ref "active_count").paramNames = [] := by decide +kernel
      rw [hnames, reading_nil]
      simp only [PyValue.rename, PyValue.eval, henv.activeCount]
    · simp only [ValueRef.paramNames, h4, if_true] at hn ⊢
      rw [PyValue.rename, PyValue.eval, henv.params]
      exact lookup_reading hn

/-! ## Expressions -/

/-- A generator of `all` reads its rows up to the first that is false. -/
theorem allM_reading {f : ℕ → Option Bool} {r : ℕ → List String} {g : ℕ → Bool} (l : List ℕ)
    (h : ∀ i ∈ l, f i = reading params key (r i) (g i)) :
    l.allM f = reading params key ((DecisionExpr.rowsUntil g l).flatMap r) (l.all g) := by
  induction l with
  | nil => rfl
  | cons i is ih =>
    have hrest := ih fun j hj => h j (List.mem_cons_of_mem _ hj)
    rw [List.allM, h i List.mem_cons_self, DecisionExpr.rowsUntil, List.flatMap_cons, List.all_cons]
    cases g i with
    | true => exact reading_next hrest
    | false => exact reading_next rfl

/-- A generator of `any` reads them up to the first that is true. -/
theorem anyM_reading {f : ℕ → Option Bool} {r : ℕ → List String} {g : ℕ → Bool} (l : List ℕ)
    (h : ∀ i ∈ l, f i = reading params key (r i) (g i)) :
    l.anyM f = reading params key ((DecisionExpr.rowsUntil (fun i => !g i) l).flatMap r) (l.any g) := by
  induction l with
  | nil => rfl
  | cons i is ih =>
    have hrest := ih fun j hj => h j (List.mem_cons_of_mem _ hj)
    rw [List.anyM, h i List.mem_cons_self, DecisionExpr.rowsUntil, List.flatMap_cons, List.any_cons]
    cases g i with
    | true => exact reading_next rfl
    | false => exact reading_next hrest

/-- Evaluates to what the decision says, in every environment that holds the batch, if it finds what it
reads. -/
def PyMeans (B : Batch) (params : List (String × ℤ)) (key : String → String) (e : DecisionExpr) : Prop :=
  ∀ idx counter p counter', renderPythonBooleanExpr idx counter e = .ok (p, counter') →
    ∀ env i, EnvOf B params env → env.idx idx = some i → i < B.balances.length → i < B.limits.length →
      (p.rename key).eval env = reading params key (e.namesRead B i) (e.holdsAt B i)

theorem evalAnd_means {l : List DecisionExpr} (hl : ∀ e ∈ l, PyMeans B params key e) {env : PyEnv} {idx i : ℕ}
    (henv : EnvOf B params env) (hi : env.idx idx = some i) (hb : i < B.balances.length)
    (hlim : i < B.limits.length) : ∀ {counter ps counter'},
    renderPythonArgs idx counter l = .ok (ps, counter') →
      PyBool.evalAnd env (PyBool.renameArgs key ps) =
        reading params key (DecisionExpr.namesReadAll B i l) (DecisionExpr.holdsAll B i l) ∧
      PyBool.evalOr env (PyBool.renameArgs key ps) =
        reading params key (DecisionExpr.namesReadAny B i l) (DecisionExpr.holdsAny B i l) := by
  induction l with
  | nil => intro counter ps counter' h; cases h; exact ⟨rfl, rfl⟩
  | cons e es ih =>
    intro counter ps counter' h
    simp only [renderPythonArgs, bind_ok, pure_ok, Prod.exists, Prod.mk.injEq] at h
    obtain ⟨p, c1, h1, ps', c2, h2, rfl, rfl⟩ := h
    have he := hl e (by simp) _ _ _ _ h1 env i henv hi hb hlim
    obtain ⟨ih1, ih2⟩ := ih (fun x hx => hl x (by simp [hx])) h2
    constructor
    · rw [PyBool.renameArgs, PyBool.evalAnd, he, DecisionExpr.namesReadAll, DecisionExpr.holdsAll]
      cases e.holdsAt B i with
      | true => exact reading_next ih1
      | false => exact reading_next rfl
    · rw [PyBool.renameArgs, PyBool.evalOr, he, DecisionExpr.namesReadAny, DecisionExpr.holdsAny]
      cases e.holdsAt B i with
      | true => exact reading_next rfl
      | false => exact reading_next ih2

/-- **Boolean expressions**, by induction on the decision; a quantifier binds its own
variable, so the row of the enclosing one plays no part. -/
theorem renderPythonBooleanExpr_eval (hac : B.activeCount ≤ B.balances.length)
    (hac' : B.activeCount ≤ B.limits.length) (e : DecisionExpr) :
    KeysRight params key B e.paramNames → PyMeans B params key e := by
  induction e with
  | comparison c =>
    intro hn idx counter p counter' h env i henv hi hb hl
    simp only [renderPythonBooleanExpr, bind_ok, pure_ok, Prod.mk.injEq] at h
    obtain ⟨a, ha, b, hb', rfl, rfl⟩ := h
    have hna : KeysRight params key B c.left.paramNames := fun n hn' =>
      hn n (by simp [DecisionExpr.paramNames, DecisionExpr.values, hn'])
    have hnb : KeysRight params key B c.right.paramNames := fun n hn' =>
      hn n (by simp [DecisionExpr.paramNames, DecisionExpr.values, hn'])
    rw [PyBool.rename, PyBool.eval, renderPythonValue_eval henv hi hb hl hna ha,
      renderPythonValue_eval henv hi hb hl hnb hb', DecisionExpr.namesRead, DecisionExpr.holdsAt]
    exact reading_next (reading_last rfl)
  | and args ih =>
    intro hn idx counter p counter' h env i henv hi hb hl
    simp only [renderPythonBooleanExpr, bind_ok, pure_ok, Prod.exists, Prod.mk.injEq] at h
    obtain ⟨ps, c, h1, rfl, rfl⟩ := h
    rw [PyBool.rename, PyBool.eval]
    exact (evalAnd_means (fun e he => ih e he (keysRight_args hn he)) henv hi hb hl h1).1
  | or args ih =>
    intro hn idx counter p counter' h env i henv hi hb hl
    simp only [renderPythonBooleanExpr, bind_ok, pure_ok, Prod.exists, Prod.mk.injEq] at h
    obtain ⟨ps, c, h1, rfl, rfl⟩ := h
    rw [PyBool.rename, PyBool.eval]
    exact (evalAnd_means (fun e he => ih e he (keysRight_args hn he)) henv hi hb hl h1).2
  | not inner ih =>
    intro hn idx counter p counter' h env i henv hi hb hl
    simp only [renderPythonBooleanExpr, bind_ok, pure_ok, Prod.exists, Prod.mk.injEq] at h
    obtain ⟨p', c, h1, rfl, rfl⟩ := h
    rw [PyBool.rename, PyBool.eval, ih hn _ _ _ _ h1 env i henv hi hb hl, DecisionExpr.namesRead]
    unfold reading
    cases (inner.namesRead B i).all (found params key) <;> rfl
  | aggregate kind inner ih =>
    intro hn idx counter p counter' h env i henv hi hb hl
    simp only [renderPythonBooleanExpr, bind_ok, pure_ok, Prod.exists, Prod.mk.injEq] at h
    obtain ⟨p', c, h1, rfl, rfl⟩ := h
    have hrow : ∀ j ∈ List.range B.activeCount, (p'.rename key).eval (env.bind counter j) =
        reading params key (inner.namesRead B j) (inner.holdsAt B j) := by
      intro j hj
      have := List.mem_range.1 hj
      exact ih hn _ _ _ _ h1 _ j (henv.bind counter j) (bind_idx env counter j) (by omega) (by omega)
    cases kind with
    | all =>
      rw [PyBool.rename, PyBool.eval, henv.activeCount, Int.toNat_natCast, DecisionExpr.holdsAt,
        DecisionExpr.namesRead]
      exact allM_reading _ hrow
    | any =>
      rw [PyBool.rename, PyBool.eval, henv.activeCount, Int.toNat_natCast, DecisionExpr.holdsAt,
        DecisionExpr.namesRead]
      exact anyM_reading _ hrow

/-! ## The decision -/

/-- **The rendered decision** evaluates to what the decision says if it finds what it reads, and raises
otherwise. -/
theorem renderDecision_reading (hac : B.activeCount ≤ B.balances.length) (hac' : B.activeCount ≤ B.limits.length)
    {kind : AggregateKind} {inner : DecisionExpr}
    (hn : KeysRight params key B (DecisionExpr.aggregate kind inner).paramNames) {py : PyBool}
    (h : renderDecision kind inner = .ok py) {env : PyEnv} (henv : EnvOf B params env) :
    (py.rename key).eval env = reading params key ((DecisionExpr.aggregate kind inner).namesRead B 0)
      ((DecisionExpr.aggregate kind inner).holdsAt B 0) := by
  simp only [renderDecision, bind_ok, pure_ok, Prod.exists] at h
  obtain ⟨p, c, h1, rfl⟩ := h
  have hrow : ∀ j ∈ List.range B.activeCount, (p.rename key).eval (env.bind 0 j) =
      reading params key (inner.namesRead B j) (inner.holdsAt B j) := by
    intro j hj
    have := List.mem_range.1 hj
    exact renderPythonBooleanExpr_eval hac hac' inner hn _ _ _ _ h1 _ j (henv.bind 0 j)
      (bind_idx _ 0 j) (by omega) (by omega)
  cases kind with
  | all =>
    rw [PyBool.rename, PyBool.eval, henv.activeCount, Int.toNat_natCast, DecisionExpr.holdsAt, DecisionExpr.namesRead]
    exact allM_reading _ hrow
  | any =>
    rw [PyBool.rename, PyBool.eval, henv.activeCount, Int.toNat_natCast, DecisionExpr.holdsAt, DecisionExpr.namesRead]
    exact anyM_reading _ hrow

theorem namesRead_args {args : List DecisionExpr} {i : ℕ}
    (h : ∀ e ∈ args, ∀ i, ∀ n ∈ e.namesRead B i, n ∈ e.paramNames) :
    (∀ n ∈ DecisionExpr.namesReadAll B i args, n ∈ (DecisionExpr.valuesArgs args).flatMap ValueRef.paramNames) ∧
    ∀ n ∈ DecisionExpr.namesReadAny B i args, n ∈ (DecisionExpr.valuesArgs args).flatMap ValueRef.paramNames := by
  induction args with
  | nil => exact ⟨fun n hn => hn, fun n hn => hn⟩
  | cons e es ih =>
    obtain ⟨hall, hany⟩ := ih fun x hx => h x (List.mem_cons_of_mem _ hx)
    have he := h e List.mem_cons_self i
    rw [DecisionExpr.namesReadAll, DecisionExpr.namesReadAny, DecisionExpr.valuesArgs, List.flatMap_append]
    constructor
    · intro n hn
      refine List.mem_append.2 ((List.mem_append.1 hn).imp (he n) fun hrest => hall n ?_)
      split_ifs at hrest with hholds
      · exact hrest
      · cases hrest
    · intro n hn
      refine List.mem_append.2 ((List.mem_append.1 hn).imp (he n) fun hrest => hany n ?_)
      split_ifs at hrest with hholds
      · cases hrest
      · exact hrest

/-- An evaluation reads parameters of its decision. -/
theorem namesRead_subset (B : Batch) (e : DecisionExpr) : ∀ i, ∀ n ∈ e.namesRead B i, n ∈ e.paramNames := by
  induction e with
  | comparison c =>
    intro i n hn
    simpa [DecisionExpr.namesRead, DecisionExpr.paramNames, DecisionExpr.values] using hn
  | and args ih => exact fun i => (namesRead_args ih).1
  | or args ih => exact fun i => (namesRead_args ih).2
  | not inner ih => exact ih
  | aggregate kind inner ih =>
    intro i n hn
    cases kind with
    | all =>
      obtain ⟨j, -, hj⟩ := List.mem_flatMap.1 hn
      exact ih j n hj
    | any =>
      obtain ⟨j, -, hj⟩ := List.mem_flatMap.1 hn
      exact ih j n hj

/-- Under the key of each name stands the value of that parameter. -/
def KeysFind (params : List (String × ℤ)) (key : String → String) (B : Batch) (l : List String) : Prop :=
  ∀ n ∈ l, params.lookup (key n) = some (B.params n)

/-- **Where every parameter is found** the rendered decision evaluates to what the decision says. -/
theorem renderDecision_eval (hac : B.activeCount ≤ B.balances.length) (hac' : B.activeCount ≤ B.limits.length)
    {kind : AggregateKind} {inner : DecisionExpr}
    (hn : KeysFind params key B (DecisionExpr.aggregate kind inner).paramNames) {py : PyBool}
    (h : renderDecision kind inner = .ok py) {env : PyEnv} (henv : EnvOf B params env) :
    (py.rename key).eval env = some ((DecisionExpr.aggregate kind inner).holdsAt B 0) := by
  have hright : KeysRight params key B (DecisionExpr.aggregate kind inner).paramNames := by
    intro n hmem x hx
    exact Option.some.inj ((hn n hmem).symm.trans hx)
  have hfound : ((DecisionExpr.aggregate kind inner).namesRead B 0).all (found params key) = true := by
    rw [List.all_eq_true]
    intro n hmem
    rw [found, hn n (namesRead_subset B _ 0 n hmem)]
    rfl
  rw [renderDecision_reading hac hac' hright h henv, reading, if_pos hfound]

end Vellum
