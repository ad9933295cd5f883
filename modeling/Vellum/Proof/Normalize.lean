import Mathlib.Algebra.Group.Int.Defs
import Vellum.Lib.Except
import Vellum.Spec.ReferencePolicy

/-!
# What normalization accepts

On lists of integers the batcher and `normalize` are decided by lengths and ranges alone.

* `batchPrepareInput_ok`: when a batch is prepared, and what it is.
* `normalize_ok`: when evidence in `balances`/`limits` form is normalized, and to what.
* `normalize_prepared`: what holds of every normalized evidence, whatever its form.
* `resolvePolicyParameters_value`: the value each parameter resolves to.
-/

namespace Vellum

/-- Unsigned 32-bit integers. -/
def U32 (l : List ℤ) : Prop := ∀ x ∈ l, 0 ≤ x ∧ x < 2 ^ 32

theorem getD_u32 {l : List ℤ} (h : U32 l) (i : ℕ) : 0 ≤ l.getD i 0 ∧ l.getD i 0 < 2 ^ 32 := by
  rw [List.getD_eq_getElem?_getD]
  cases hi : l[i]? with
  | none => simp
  | some x => exact h x (List.mem_of_getElem? hi)

theorem validateU32List_ints {field : String} : ∀ {l : List ℤ} {idx : ℕ} {is : List ℤ},
    validateU32List field idx (l.map .int) = .ok is ↔ U32 l ∧ is = l := by
  intro l
  induction l with
  | nil => intro idx is; simp [validateU32List, U32, eq_comm]
  | cons x xs ih =>
    intro idx is
    have hx : validateU32 field idx (.int x) = .ok x ↔ 0 ≤ x ∧ x < 2 ^ 32 := by
      have hmax : maxUint32 = 4294967295 := rfl
      simp only [validateU32]
      by_cases h : x < 0 ∨ maxUint32 < x
      · rw [if_pos h]
        exact ⟨fun h' => (by cases h'), fun h' => (by omega)⟩
      · rw [if_neg h]
        exact ⟨fun _ => (by omega), fun _ => rfl⟩
    have hval : ∀ {i}, validateU32 field idx (.int x) = .ok i → i = x := by
      intro i h
      simp only [validateU32] at h
      split_ifs at h
      exact (Except.ok.inj h).symm
    rw [List.map_cons, validateU32List]
    simp only [bind_ok, pure_ok, ih, U32, List.forall_mem_cons]
    constructor
    · rintro ⟨i, hi, js, ⟨hu, rfl⟩, rfl⟩
      obtain rfl := hval hi
      exact ⟨⟨hx.1 hi, hu⟩, rfl⟩
    · rintro ⟨⟨h1, hu⟩, rfl⟩
      exact ⟨x, hx.2 h1, xs, ⟨hu, rfl⟩, rfl⟩

theorem assertZeroTail_ok {l : List ℤ} {idx : ℕ} : assertZeroTail idx l = .ok () ↔ ∀ x ∈ l, x = 0 := by
  induction l generalizing idx with
  | nil => simp [assertZeroTail]
  | cons x xs ih =>
    rw [assertZeroTail, List.forall_mem_cons]
    split_ifs with h
    · simp [h]
    · rw [ih]
      simp [not_not.1 h]

theorem padTo_drop (n : ℕ) (l : List ℤ) : (padTo n l).drop l.length = List.replicate (n - l.length) 0 := by
  rw [padTo, List.drop_left]

theorem padTo_length {n : ℕ} {l : List ℤ} (h : l.length ≤ n) : (padTo n l).length = n := by
  rw [padTo, List.length_append, List.length_replicate]
  omega

/-- Padding does not show when absent entries read as zero. -/
theorem padTo_getD (n : ℕ) (l : List ℤ) (i : ℕ) : (padTo n l).getD i 0 = l.getD i 0 := by
  rw [List.getD_eq_getElem?_getD, List.getD_eq_getElem?_getD, padTo, List.getElem?_append]
  split_ifs with h
  · rfl
  · rw [List.getElem?_eq_none (by omega : l.length ≤ i), List.getElem?_replicate]
    split_ifs <;> rfl

/-- **When a batch is prepared.** -/
theorem batchPrepareInput_ok {bs ls : List ℤ} {n : ℕ} {p : PreparedBatchInput} :
    batchPrepareInput (bs.map .int) (ls.map .int) n = .ok p ↔
      1 ≤ bs.length ∧ bs.length = ls.length ∧ bs.length ≤ n ∧ U32 bs ∧ U32 ls ∧
        p = ⟨padTo n bs, padTo n ls, .int bs.length⟩ := by
  have htail : ∀ l : List ℤ, assertZeroTail l.length ((padTo n l).drop l.length) = .ok () := by
    intro l
    rw [assertZeroTail_ok, padTo_drop]
    intro x hx
    exact (List.mem_replicate.1 hx).2
  simp only [batchPrepareInput, bind_ok, pure_ok, raiseIf_ok, List.length_map, validateU32List_ints]
  constructor
  · rintro ⟨-, h1, -, h2, -, h3, -, h4, _, ⟨hb, rfl⟩, _, ⟨hl, rfl⟩, -, -, -, -, rfl⟩
    exact ⟨by omega, by omega, by omega, hb, hl, rfl⟩
  · rintro ⟨h1, h2, h3, hb, hl, rfl⟩
    refine ⟨(), by omega, (), by omega, (), by omega, (), by omega, bs, ⟨hb, rfl⟩, ls, ⟨hl, rfl⟩,
      (), htail bs, (), ?_, rfl⟩
    rw [h2]
    exact htail ls

/-! ## `normalize` -/

theorem requireIntegers_ints {field : String} : ∀ {l : List ℤ} {idx : ℕ} {is : List ℤ},
    requireIntegers field (some 0) (some maxUint32) idx (l.map .int) = .ok is ↔ U32 l ∧ is = l := by
  intro l
  induction l with
  | nil => intro idx is; simp [requireIntegers, U32, eq_comm]
  | cons x xs ih =>
    intro idx is
    have hx : ∀ {i}, requireInteger (itemName field idx) (.int x) (some 0) (some maxUint32) = .ok i ↔
        (0 ≤ x ∧ x < 2 ^ 32) ∧ i = x := by
      intro i
      have hmax : maxUint32 = 4294967295 := rfl
      simp only [requireInteger, Option.any_some, decide_eq_true_eq]
      by_cases h1 : x < 0
      · rw [if_pos h1]
        exact ⟨fun h => (by cases h), fun h => (by omega)⟩
      · rw [if_neg h1]
        by_cases h2 : maxUint32 < x
        · rw [if_pos h2]
          exact ⟨fun h => (by cases h), fun h => (by omega)⟩
        · rw [if_neg h2]
          exact ⟨fun h => ⟨by omega, (Except.ok.inj h).symm⟩, fun h => (by rw [h.2])⟩
    rw [List.map_cons, requireIntegers]
    simp only [bind_ok, pure_ok, ih, hx, U32, List.forall_mem_cons]
    constructor
    · rintro ⟨i, ⟨h1, rfl⟩, js, ⟨hu, rfl⟩, rfl⟩
      exact ⟨⟨h1, hu⟩, rfl⟩
    · rintro ⟨⟨h1, hu⟩, rfl⟩
      exact ⟨x, ⟨h1, rfl⟩, xs, ⟨hu, rfl⟩, rfl⟩

/-- The values a parameter's declared bounds admit. -/
def PolicyParameterSpec.admits (p : PolicyParameterSpec) (value : ℤ) : Prop :=
  (∀ a ∈ p.minimum, a ≤ value) ∧ ∀ b ∈ p.maximum, value ≤ b

theorem resolveParameter_int {fields : List (String × Json)} {name : String} {spec : PolicyParameterSpec}
    {value : ℤ} (h : fields.lookup name = some (.int value)) (ha : spec.admits value) :
    resolveParameter fields name spec = .ok value := by
  have h1 : spec.minimum.any (value < ·) = false := by
    cases hm : spec.minimum with
    | none => rfl
    | some a => simpa using ha.1 a hm
  have h2 : spec.maximum.any (· < value) = false := by
    cases hm : spec.maximum with
    | none => rfl
    | some a => simpa using ha.2 a hm
  simp only [resolveParameter, h, Option.getD_some, h1, h2, Bool.false_eq_true, if_false]

theorem resolveParameters_ints {fields : List (String × Json)} {value : String → ℤ} :
    ∀ {items : List (String × PolicyParameterSpec)},
      (∀ p ∈ items, fields.lookup p.1 = some (.int (value p.1)) ∧ p.2.admits (value p.1)) →
      resolveParameters fields items = .ok (items.map fun p => (p.1, value p.1)) := by
  intro items
  induction items with
  | nil => intro _; rfl
  | cons p ps ih =>
    intro h
    obtain ⟨h1, h2⟩ := h p (by simp)
    rw [resolveParameters, resolveParameter_int h1 h2, ih fun q hq => h q (by simp [hq])]
    rfl

/-- **Admitted parameters resolve to themselves.** -/
theorem resolvePolicyParameters_ok {parameters : Dict PolicyParameterSpec} {value : String → ℤ}
    (h : ∀ p ∈ parameters.items, p.2.admits (value p.1)) :
    resolvePolicyParameters parameters (some (.obj (parameters.keys.map fun n => (n, .int (value n))))) =
      .ok (parameters.keys.map fun n => (n, value n)) := by
  unfold resolvePolicyParameters
  by_cases hnil : parameters.items = []
  · simp [hnil, Dict.keys]
  · rw [if_neg hnil]
    have hknown : ((parameters.keys.map fun n => (n, Json.int (value n))).map Prod.fst).filter
        (· ∉ parameters.keys) = [] := by
      rw [List.filter_eq_nil_iff]
      intro k hk
      simp only [List.map_map, List.mem_map, Function.comp] at hk
      obtain ⟨n, hn, rfl⟩ := hk
      simpa using hn
    have hsorted : ([] : List String).dedup.mergeSort (· ≤ ·) = [] := by
      rw [show ([] : List String).dedup = [] from rfl, List.mergeSort_nil]
    simp only [resolveFields, hknown]
    rw [if_neg (not_not.2 hsorted)]
    rw [resolveParameters_ints fun p hp => ⟨Dict.lookup_map_self (List.mem_map_of_mem hp), h p hp⟩]
    simp [Dict.keys, List.map_map, Function.comp_def]

theorem batchResult_ok {prepared : Except String PreparedBatchInput} {params : List (String × ℤ)}
    {n : NormalizedEvidence} : batchResult prepared params = .ok n ↔
      ∃ p, prepared = .ok p ∧ n = ⟨p.balances, p.limits, p.activeCount, params⟩ := by
  cases prepared <;> simp [batchResult, eq_comm]

namespace GeneratedReferencePolicy

/-- **When evidence in `balances`/`limits` form is normalized.** -/
theorem normalize_ok {policy : GeneratedReferencePolicy} {bs ls : List ℤ} {value : String → ℤ}
    (h : ∀ p ∈ policy.parameters.items, p.2.admits (value p.1)) {n : NormalizedEvidence} :
    policy.normalize (evidenceOf bs ls (policy.parameters.keys.map fun n => (n, value n))) = .ok n ↔
      1 ≤ bs.length ∧ bs.length = ls.length ∧ bs.length ≤ policy.batchSize ∧ U32 bs ∧ U32 ls ∧
        n = ⟨padTo policy.batchSize bs, padTo policy.batchSize ls, .int bs.length,
          policy.parameters.keys.map fun n => (n, value n)⟩ := by
  have hparams : (evidenceOf bs ls (policy.parameters.keys.map fun n => (n, value n))).get? "policy_parameters" =
      some (.obj (policy.parameters.keys.map fun n => (n, .int (value n)))) := by
    simp [evidenceOf, Json.get?, List.lookup_cons]
  have hb : (evidenceOf bs ls (policy.parameters.keys.map fun n => (n, value n))).get? "balances" =
      some (.arr (bs.map .int)) := by simp [evidenceOf, Json.get?]
  have hl : (evidenceOf bs ls (policy.parameters.keys.map fun n => (n, value n))).get? "limits" =
      some (.arr (ls.map .int)) := by simp [evidenceOf, Json.get?, List.lookup_cons]
  have hp : (evidenceOf bs ls (policy.parameters.keys.map fun n => (n, value n))).get? "private_input" =
      none := by simp [evidenceOf, Json.get?, List.lookup_cons]
  simp only [normalize, bind_ok, hparams, hb, hl, hp, resolvePolicyParameters_ok h, requireIntegerList,
    requireIntegers_ints, Except.ok.injEq, exists_eq_left']
  constructor
  · rintro ⟨_, ⟨hub, rfl⟩, _, ⟨hul, rfl⟩, hprep⟩
    obtain ⟨p, hp, rfl⟩ := batchResult_ok.1 hprep
    obtain ⟨h1, h2, h3, -, -, rfl⟩ := batchPrepareInput_ok.1 hp
    exact ⟨h1, h2, h3, hub, hul, rfl⟩
  · rintro ⟨h1, h2, h3, hub, hul, rfl⟩
    exact ⟨bs, ⟨hub, rfl⟩, ls, ⟨hul, rfl⟩,
      batchResult_ok.2 ⟨_, batchPrepareInput_ok.2 ⟨h1, h2, h3, hub, hul, rfl⟩, rfl⟩⟩

end GeneratedReferencePolicy

/-! ## Every form of evidence -/

theorem validateU32_u32 {field : String} {idx : ℕ} {v : Json} {i : ℤ} (h : validateU32 field idx v = .ok i) :
    0 ≤ i ∧ i < 2 ^ 32 := by
  have hmax : maxUint32 = 4294967295 := rfl
  cases v with
  | int x =>
    simp only [validateU32] at h
    split_ifs at h with hx
    obtain rfl := Except.ok.inj h
    omega
  | _ => cases h

theorem validateU32List_u32 {field : String} : ∀ {l : List Json} {idx : ℕ} {is : List ℤ},
    validateU32List field idx l = .ok is → U32 is ∧ is.length = l.length := by
  intro l
  induction l with
  | nil =>
    intro idx is h
    obtain rfl := Except.ok.inj h
    exact ⟨by simp [U32], rfl⟩
  | cons v vs ih =>
    intro idx is h
    simp only [validateU32List, bind_ok, pure_ok] at h
    obtain ⟨i, hi, js, hjs, rfl⟩ := h
    obtain ⟨hu, hlen⟩ := ih hjs
    refine ⟨?_, by rw [List.length_cons, List.length_cons, hlen]⟩
    exact List.forall_mem_cons.2 ⟨validateU32_u32 hi, hu⟩

theorem padTo_u32 {l : List ℤ} (n : ℕ) (h : U32 l) : U32 (padTo n l) := by
  intro x hx
  rw [padTo, List.mem_append] at hx
  rcases hx with hx | hx
  · exact h x hx
  · rw [(List.mem_replicate.1 hx).2]
    omega

/-- A prepared batch of `size` rows: unsigned 32-bit values, zero from the active count on. -/
structure PreparedAt (size : ℕ) (balances limits : List ℤ) (activeCount : PyInt) : Prop where
  lenBalances : balances.length = size
  lenLimits : limits.length = size
  activePos : 1 ≤ activeCount.toInt
  activeLe : activeCount.toInt ≤ size
  balancesU32 : U32 balances
  limitsU32 : U32 limits
  balancesZero : ∀ x ∈ balances.drop activeCount.toInt.toNat, x = 0
  limitsZero : ∀ x ∈ limits.drop activeCount.toInt.toNat, x = 0

theorem batchPrepareInput_prepared {bs ls : List Json} {n : ℕ} {p : PreparedBatchInput}
    (h : batchPrepareInput bs ls n = .ok p) : PreparedAt n p.balances p.limits p.activeCount := by
  simp only [batchPrepareInput, bind_ok, pure_ok, raiseIf_ok] at h
  obtain ⟨-, h1, -, h2, -, h3, -, h4, bs', hb, ls', hl, ⟨⟩, hzb, ⟨⟩, hzl, rfl⟩ := h
  obtain ⟨hub, hlb⟩ := validateU32List_u32 hb
  obtain ⟨hul, hll⟩ := validateU32List_u32 hl
  exact {
    lenBalances := padTo_length (by omega)
    lenLimits := padTo_length (by omega)
    activePos := by simp only [PyInt.toInt]; omega
    activeLe := by simp only [PyInt.toInt]; omega
    balancesU32 := padTo_u32 n hub
    limitsU32 := padTo_u32 n hul
    balancesZero := assertZeroTail_ok.1 hzb
    limitsZero := assertZeroTail_ok.1 hzl }

theorem batchPrepareFromPrivateInput_prepared {privateInput : Json} {p : PreparedBatchInput}
    (h : batchPrepareFromPrivateInput privateInput = .ok p) :
    PreparedAt maxBatchSize p.balances p.limits p.activeCount := by
  unfold batchPrepareFromPrivateInput at h
  split at h
  · split at h
    · cases h
    · simp only [bind_ok, pure_ok, raiseIf_ok] at h
      obtain ⟨-, h1, -, h2, bs, hb, ls, hl, ⟨⟩, hzb, ⟨⟩, hzl, rfl⟩ := h
      obtain ⟨hub, hlb⟩ := validateU32List_u32 hb
      obtain ⟨hul, hll⟩ := validateU32List_u32 hl
      exact {
        lenBalances := by rw [hlb]; omega
        lenLimits := by rw [hll]; omega
        activePos := by dsimp only; omega
        activeLe := by dsimp only; omega
        balancesU32 := hub
        limitsU32 := hul
        balancesZero := assertZeroTail_ok.1 hzb
        limitsZero := assertZeroTail_ok.1 hzl }
  · cases h

/-- The arrays and the count of a prepared batch come back as they are. -/
theorem batchPrepare_again {n : NormalizedEvidence} {entries : List (String × Json)} {prepared : PreparedBatchInput} :
    batchPrepareFromPrivateInput (.obj ([("balances", .arr (n.balances.map .int)), ("limits", .arr (n.limits.map .int)),
      ("active_count", .int n.activeCount.toInt)] ++ entries)) = .ok prepared ↔
    PreparedAt maxBatchSize n.balances n.limits n.activeCount ∧
      prepared = ⟨n.balances, n.limits, .int n.activeCount.toInt⟩ := by
  have hbody : batchPrepareFromPrivateInput (.obj ([("balances", .arr (n.balances.map .int)),
      ("limits", .arr (n.limits.map .int)), ("active_count", .int n.activeCount.toInt)] ++ entries)) = do
        raiseIf ((n.balances.map Json.int).length ≠ maxBatchSize ∨ (n.limits.map Json.int).length ≠ maxBatchSize)
          ("private_input balances/limits must already be padded to " ++ maxBatchSize.repr)
        raiseIf (n.activeCount.toInt < 1 ∨ (maxBatchSize : ℤ) < n.activeCount.toInt)
          ("active_count must be between 1 and " ++ maxBatchSize.repr)
        let bs ← validateU32List "balances" 0 (n.balances.map .int)
        let ls ← validateU32List "limits" 0 (n.limits.map .int)
        assertZeroTail n.activeCount.toInt.toNat (bs.drop n.activeCount.toInt.toNat)
        assertZeroTail n.activeCount.toInt.toNat (ls.drop n.activeCount.toInt.toNat)
        return ⟨bs, ls, .int n.activeCount.toInt⟩ := rfl
  rw [hbody]
  simp only [bind_ok, pure_ok, raiseIf_ok, validateU32List_ints, List.length_map]
  constructor
  · rintro ⟨-, hlen, -, hcount, bs, ⟨hbs, rfl⟩, ls, ⟨hls, rfl⟩, ⟨⟩, hzb, ⟨⟩, hzl, rfl⟩
    refine ⟨⟨?_, ?_, ?_, ?_, hbs, hls, assertZeroTail_ok.1 hzb, assertZeroTail_ok.1 hzl⟩, rfl⟩
    all_goals omega
  · rintro ⟨h, rfl⟩
    obtain ⟨h1, h2, h3, h4, hbs, hls, hzb, hzl⟩ := h
    exact ⟨(), by omega, (), by omega, _, ⟨hbs, rfl⟩, _, ⟨hls, rfl⟩, (), assertZeroTail_ok.2 hzb, (),
      assertZeroTail_ok.2 hzl, rfl⟩

namespace GeneratedReferencePolicy

/-- **Normalized evidence is a prepared batch**, of the policy's size or, where it came as a
private input, of 250 rows, and its parameters are the resolved ones. -/
theorem normalize_prepared {policy : GeneratedReferencePolicy} {evidence : Json} {n : NormalizedEvidence}
    (h : policy.normalize evidence = .ok n) :
    (∃ size, (size = policy.batchSize ∨ size = maxBatchSize) ∧ PreparedAt size n.balances n.limits n.activeCount) ∧
      resolvePolicyParameters policy.parameters (evidence.get? "policy_parameters") = .ok n.policyParameters := by
  simp only [normalize, bind_ok] at h
  obtain ⟨params, hp, h⟩ := h
  split at h
  · obtain ⟨p, hprep, rfl⟩ := batchResult_ok.1 h
    exact ⟨⟨maxBatchSize, Or.inr rfl, batchPrepareFromPrivateInput_prepared hprep⟩, hp⟩
  · simp only [bind_ok] at h
    obtain ⟨bs, -, ls, -, h⟩ := h
    obtain ⟨p, hprep, rfl⟩ := batchResult_ok.1 h
    exact ⟨⟨policy.batchSize, Or.inl rfl, batchPrepareInput_prepared hprep⟩, hp⟩

end GeneratedReferencePolicy

/-! ## Parameters -/

/-- The value the evidence gives for a parameter, or its default if it gives none. -/
def parameterValue (parameters : Dict PolicyParameterSpec) (payload : Option Json) (name : String) : ℤ :=
  match payload.bind (·.get? name) with
  | some (.int value) => value
  | some _ => 0
  | none => ((parameters.get? name).bind PolicyParameterSpec.default).getD 0

theorem resolveParameter_value {fields : List (String × Json)} {name : String} {spec : PolicyParameterSpec} {value : ℤ}
    (h : resolveParameter fields name spec = .ok value) :
    (match fields.lookup name with
      | some (.int v) => v
      | some _ => 0
      | none => spec.default.getD 0) = value := by
  unfold resolveParameter at h
  cases hl : fields.lookup name with
  | some v =>
    rw [hl, Option.getD_some] at h
    cases v with
    | int i =>
      dsimp only at h ⊢
      split_ifs at h
      exact Except.ok.inj h
    | _ => cases h
  | none =>
    rw [hl, Option.getD_none] at h
    cases hd : spec.default with
    | none => rw [hd] at h; cases h
    | some d =>
      rw [hd] at h
      dsimp only at h ⊢
      split_ifs at h
      exact Except.ok.inj h

/-- What is resolved keeps to the bounds. -/
theorem resolveParameter_admits {fields : List (String × Json)} {name : String} {spec : PolicyParameterSpec} {value : ℤ}
    (h : resolveParameter fields name spec = .ok value) : spec.admits value := by
  unfold resolveParameter at h
  split at h
  · cases h
  · split_ifs at h with hmin hmax
    obtain rfl := Except.ok.inj h
    constructor
    · intro a ha
      rw [Option.mem_def] at ha
      simpa [ha] using hmin
    · intro b hb
      rw [Option.mem_def] at hb
      simpa [hb] using hmax
  · cases h

theorem resolveParameters_keys {fields : List (String × Json)} :
    ∀ {items : List (String × PolicyParameterSpec)} {resolved : List (String × ℤ)},
      resolveParameters fields items = .ok resolved →
      List.Forall₂ (fun p r => r.1 = p.1 ∧ resolveParameter fields p.1 p.2 = .ok r.2) items resolved := by
  intro items
  induction items with
  | nil =>
    intro resolved h
    obtain rfl := Except.ok.inj h
    exact .nil
  | cons p ps ih =>
    intro resolved h
    simp only [resolveParameters, bind_ok, pure_ok] at h
    obtain ⟨v, hv, rest, hrest, rfl⟩ := h
    exact .cons ⟨rfl, hv⟩ (ih hrest)

/-- The object `_resolve_policy_parameters` works on. -/
def payloadFields : Option Json → List (String × Json)
  | some (.obj fields) => fields
  | _ => []

theorem resolveParameters_payload {parameters : Dict PolicyParameterSpec} {payload : Option Json}
    {resolved : List (String × ℤ)} (h : resolvePolicyParameters parameters payload = .ok resolved) :
    resolveParameters (payloadFields payload) parameters.items = .ok resolved := by
  unfold resolvePolicyParameters at h
  by_cases hnil : parameters.items = []
  · rw [if_pos hnil] at h
    obtain rfl := Except.ok.inj h
    rw [hnil]
    rfl
  · rw [if_neg hnil] at h
    have hobj : ∀ {fields : List (String × Json)}, resolveFields parameters fields = .ok resolved →
        resolveParameters fields parameters.items = .ok resolved := by
      intro fields h
      unfold resolveFields at h
      dsimp only at h
      split_ifs at h
      exact h
    split at h
    · exact hobj h
    · exact hobj h
    · exact hobj h
    · cases h

/-- The value of a parameter, as the loop finds it. -/
theorem resolveParameter_payload {parameters : Dict PolicyParameterSpec} {payload : Option Json}
    {p : String × PolicyParameterSpec} (hp : p ∈ parameters.items) {v : ℤ}
    (hv : resolveParameter (payloadFields payload) p.1 p.2 = .ok v) : v = parameterValue parameters payload p.1 := by
  have hget : (match (payloadFields payload).lookup p.1 with
      | some (.int v) => v
      | some _ => 0
      | none => ((parameters.get? p.1).bind PolicyParameterSpec.default).getD 0) =
        parameterValue parameters payload p.1 := by
    unfold parameterValue
    cases payload with
    | none => rfl
    | some j => cases j <;> rfl
  have hspec : parameters.get? p.1 = some p.2 := Dict.get?_of_mem hp
  rw [← hget, ← resolveParameter_value hv, hspec]
  rfl

/-- **What each parameter resolves to**: the map has the declared names in their order. -/
theorem resolvePolicyParameters_value {parameters : Dict PolicyParameterSpec} {payload : Option Json}
    {resolved : List (String × ℤ)} (h : resolvePolicyParameters parameters payload = .ok resolved) :
    resolved = parameters.keys.map fun name => (name, parameterValue parameters payload name) := by
  have hall := resolveParameters_keys (resolveParameters_payload h)
  have hval : ∀ p ∈ parameters.items, ∀ v, resolveParameter (payloadFields payload) p.1 p.2 = .ok v →
      v = parameterValue parameters payload p.1 := fun p hp v hv => resolveParameter_payload hp hv
  rw [Dict.keys, List.map_map]
  clear h
  generalize parameters.items = items at hall hval
  induction hall with
  | nil => rfl
  | @cons p r ps rs hpr _ ih =>
    rw [List.map_cons, ← ih fun q hq => hval q (List.mem_cons_of_mem _ hq)]
    have hr : r = (p.1, parameterValue parameters payload p.1) :=
      Prod.ext hpr.1 (hval p (List.mem_cons_self ..) r.2 hpr.2)
    rw [hr]
    rfl

/-- Resolved parameters keep to their bounds. -/
theorem parameterValue_admits {parameters : Dict PolicyParameterSpec} {payload : Option Json}
    {resolved : List (String × ℤ)} (h : resolvePolicyParameters parameters payload = .ok resolved) :
    ∀ p ∈ parameters.items, p.2.admits (parameterValue parameters payload p.1) := by
  intro p hp
  obtain ⟨r, -, -, hr⟩ := forall₂_mem_left (resolveParameters_keys (resolveParameters_payload h)) hp
  rw [← resolveParameter_payload hp hr]
  exact resolveParameter_admits hr

end Vellum
