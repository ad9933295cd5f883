import Vellum.Proof.Normalize

/-!
# The two ways to a batch

`batch_prepare_input` pads the arrays it is given and `batch_prepare_from_private_input` checks arrays
that are padded already. Both let through the same batches, but the second takes `True` for the
count one.

* `validateU32List_ok`: the lists that pass, and to what.
* `fromPrivateInput_ok`: the private inputs that pass, and to what.
* `prepared_circuit_input`: what the first prepares, the second accepts.
* `prepare_active_rows`: the active rows of what the second accepts, the first prepares.
* `batches_inverse_iff`: which private inputs come from the first.
-/

namespace Vellum

/-! ## What passes -/

/-- A list passes iff it is one of unsigned 32-bit integers, none of them a boolean. -/
theorem validateU32List_ok {field : String} {l : List Json} {idx : ℕ} {is : List ℤ} :
    validateU32List field idx l = .ok is ↔ l = is.map .int ∧ U32 is := by
  constructor
  · intro h
    have hl : l = is.map .int := by
      induction l generalizing idx is with
      | nil =>
        obtain rfl := Except.ok.inj h
        rfl
      | cons v vs ih =>
        simp only [validateU32List, bind_ok, pure_ok] at h
        obtain ⟨i, hi, js, hjs, rfl⟩ := h
        have hv : v = .int i := by
          cases v with
          | int x =>
            simp only [validateU32] at hi
            split_ifs at hi
            rw [Except.ok.inj hi]
          | _ => cases hi
        rw [hv, ih hjs, List.map_cons]
    exact ⟨hl, (validateU32List_u32 h).1⟩
  · rintro ⟨rfl, hu⟩
    exact validateU32List_ints.2 ⟨hu, rfl⟩

/-- **The private inputs that pass**: the arrays hold the batch as it is returned. -/
theorem fromPrivateInput_ok {privateInput : Json} {p : PreparedBatchInput} :
    batchPrepareFromPrivateInput privateInput = .ok p ↔
      privateInput.get? "balances" = some (.arr (p.balances.map .int)) ∧
        privateInput.get? "limits" = some (.arr (p.limits.map .int)) ∧
        (privateInput.get? "active_count").bind Json.asPyInt? = some p.activeCount ∧
        PreparedAt maxBatchSize p.balances p.limits p.activeCount := by
  constructor
  · intro h
    have hprep := batchPrepareFromPrivateInput_prepared h
    unfold batchPrepareFromPrivateInput at h
    split at h
    · next balances limits hb hl =>
      split at h
      · cases h
      · next activeCount hc =>
        simp only [bind_ok, pure_ok, raiseIf_ok, validateU32List_ok] at h
        obtain ⟨-, -, -, -, bs, ⟨rfl, -⟩, ls, ⟨rfl, -⟩, -, -, -, -, rfl⟩ := h
        exact ⟨hb, hl, hc, hprep⟩
    · cases h
  · rintro ⟨hb, hl, hc, hlenb, hlenl, h1, h2, hbs, hls, hzb, hzl⟩
    unfold batchPrepareFromPrivateInput
    rw [hb, hl, hc]
    simp only [bind_ok, pure_ok, raiseIf_ok, validateU32List_ints, List.length_map]
    exact ⟨(), by omega, (), by omega, _, ⟨hbs, rfl⟩, _, ⟨hls, rfl⟩, (), assertZeroTail_ok.2 hzb, (),
      assertZeroTail_ok.2 hzl, rfl⟩

/-! ## From the arrays to the padded object and back -/

theorem get?_toCircuitInput (p : PreparedBatchInput) :
    p.toCircuitInput.get? "balances" = some (.arr (p.balances.map .int)) ∧
      p.toCircuitInput.get? "limits" = some (.arr (p.limits.map .int)) ∧
      p.toCircuitInput.get? "active_count" = some p.activeCount.toJson := ⟨rfl, rfl, rfl⟩

/-- **What `batch_prepare_input` prepares, `batch_prepare_from_private_input` accepts**, and returns
as it is. -/
theorem prepared_circuit_input {balances limits : List Json} {p : PreparedBatchInput}
    (h : batchPrepareInput balances limits maxBatchSize = .ok p) :
    batchPrepareFromPrivateInput p.toCircuitInput = .ok p := by
  obtain ⟨hb, hl, hc⟩ := get?_toCircuitInput p
  refine fromPrivateInput_ok.2 ⟨hb, hl, ?_, batchPrepareInput_prepared h⟩
  rw [hc]
  cases p.activeCount with
  | int i => rfl
  | bool b => rfl

/-- Padding the active rows gives a list back whose other rows are zero. -/
theorem padTo_take {n : ℕ} {l : List ℤ} (hn : n ≤ l.length) (hzero : ∀ x ∈ l.drop n, x = 0) :
    padTo l.length (l.take n) = l := by
  have hlen : (l.take n).length = n := List.length_take_of_le hn
  have hrest : l.drop n = List.replicate (l.length - n) 0 :=
    List.eq_replicate_iff.2 ⟨List.length_drop, hzero⟩
  rw [padTo, hlen, ← hrest, List.take_append_drop]

/-- **The active rows of a padded batch are prepared to it.** -/
theorem prepare_active_rows {balances limits : List ℤ} {n : ℕ}
    (h : PreparedAt maxBatchSize balances limits (.int n)) :
    batchPrepareInput ((balances.map .int).take n) ((limits.map .int).take n) maxBatchSize =
      .ok ⟨balances, limits, .int n⟩ := by
  obtain ⟨hlenb, hlenl, h1, h2, hbs, hls, hzb, hzl⟩ := h
  simp only [PyInt.toInt, Int.toNat_natCast] at h1 h2 hzb hzl
  have hnb : n ≤ balances.length := by omega
  have hnl : n ≤ limits.length := by omega
  have htakeb : (balances.take n).length = n := List.length_take_of_le hnb
  have htakel : (limits.take n).length = n := List.length_take_of_le hnl
  have hpadb := padTo_take hnb hzb
  have hpadl := padTo_take hnl hzl
  rw [hlenb] at hpadb
  rw [hlenl] at hpadl
  rw [← List.map_take, ← List.map_take, batchPrepareInput_ok, hpadb, hpadl, htakeb, htakel]
  refine ⟨by omega, rfl, by omega, ?_, ?_, rfl⟩
  · exact fun x hx => hbs x (List.mem_of_mem_take hx)
  · exact fun x hx => hls x (List.mem_of_mem_take hx)

/-- A private input that holds a batch in its canonical form, and from which `batch_prepare_input`
prepares it again. -/
structure CanonicalBatch (privateInput : Json) (p : PreparedBatchInput) (bs ls : List Json) (n : ℤ) : Prop where
  balances : privateInput.get? "balances" = some (.arr bs)
  limits : privateInput.get? "limits" = some (.arr ls)
  activeCount : privateInput.get? "active_count" = some (.int n)
  pos : 1 ≤ n
  le : n ≤ 250
  balancesU32 : ∀ v ∈ bs, ∃ i, v = .int i ∧ 0 ≤ i ∧ i ≤ maxUint32
  limitsU32 : ∀ v ∈ ls, ∃ i, v = .int i ∧ 0 ≤ i ∧ i ≤ maxUint32
  balancesZero : ∀ v ∈ bs.drop n.toNat, v = .int 0
  limitsZero : ∀ v ∈ ls.drop n.toNat, v = .int 0
  again : batchPrepareInput (bs.take n.toNat) (ls.take n.toNat) maxBatchSize = .ok p

theorem u32_items {l : List ℤ} (h : U32 l) : ∀ v ∈ l.map Json.int, ∃ i, v = .int i ∧ 0 ≤ i ∧ i ≤ maxUint32 := by
  intro v hv
  obtain ⟨i, hi, rfl⟩ := List.mem_map.1 hv
  obtain ⟨h1, h2⟩ := h i hi
  have hmax : maxUint32 = 4294967295 := rfl
  exact ⟨i, rfl, h1, by omega⟩

theorem zero_items {l : List ℤ} {n : ℕ} (h : ∀ x ∈ l.drop n, x = 0) :
    ∀ v ∈ (l.map Json.int).drop n, v = .int 0 := by
  intro v hv
  rw [← List.map_drop] at hv
  obtain ⟨i, hi, rfl⟩ := List.mem_map.1 hv
  rw [h i hi]

/-- **A private input whose count is no boolean holds its batch in canonical form.** -/
theorem canonical_of_int {privateInput : Json} {p : PreparedBatchInput}
    (h : batchPrepareFromPrivateInput privateInput = .ok p)
    (hbool : privateInput.get? "active_count" ≠ some (.bool true)) :
    ∃ bs ls n, CanonicalBatch privateInput p bs ls n := by
  obtain ⟨hb, hl, hc, hprep⟩ := fromPrivateInput_ok.1 h
  obtain ⟨v, hv, hcount⟩ := Option.bind_eq_some_iff.1 hc
  cases v with
  | int n =>
    obtain ⟨bs, ls, count⟩ := p
    obtain rfl : PyInt.int n = count := Option.some.inj hcount
    have hpos : 1 ≤ n := hprep.activePos
    obtain ⟨k, rfl⟩ := Int.eq_ofNat_of_zero_le (show 0 ≤ n by omega)
    exact ⟨_, _, k, {
      balances := hb
      limits := hl
      activeCount := hv
      pos := hpos
      le := hprep.activeLe
      balancesU32 := u32_items hprep.balancesU32
      limitsU32 := u32_items hprep.limitsU32
      balancesZero := zero_items hprep.balancesZero
      limitsZero := zero_items hprep.limitsZero
      again := prepare_active_rows hprep }⟩
  | bool b =>
    cases b with
    | true => exact absurd hv hbool
    | false =>
      -- `False` counts as zero, which is out of range
      have hpos := hprep.activePos
      rw [← Option.some.inj hcount] at hpos
      exact absurd hpos (by decide)
  | null | float _ | str _ | arr _ | obj _ => cases hcount

/-- A canonical batch has a count that is no boolean. -/
theorem not_canonical_of_true {privateInput : Json} {p : PreparedBatchInput}
    (hbool : privateInput.get? "active_count" = some (.bool true)) :
    ¬ ∃ bs ls n, CanonicalBatch privateInput p bs ls n := by
  rintro ⟨bs, ls, n, h⟩
  have hcount := h.activeCount
  rw [hbool] at hcount
  cases hcount

/-- **The two ways are mutually inverse**, but for private inputs with `True` for their count: what
`batch_prepare_input` prepares comes back as it is, and what `batch_prepare_from_private_input`
accepts is canonical iff its count is not `True`. -/
theorem batches_inverse_iff (balances limits : List Json) (p : PreparedBatchInput) (privateInput : Json)
    (q : PreparedBatchInput) :
    (batchPrepareInput balances limits maxBatchSize = .ok p →
      batchPrepareFromPrivateInput p.toCircuitInput = .ok p) ∧
    (batchPrepareFromPrivateInput privateInput = .ok q →
      ((∃ bs ls n, CanonicalBatch privateInput q bs ls n) ↔
        privateInput.get? "active_count" ≠ some (.bool true))) := by
  refine ⟨prepared_circuit_input, fun h => ⟨fun hcanon hbool => ?_, ?_⟩⟩
  · exact not_canonical_of_true hbool hcanon
  · exact canonical_of_int h

/-! ## A boolean count -/

/-- 250 rows, the first of which holds the value. -/
def firstRow (i : ℤ) : List ℤ := padTo maxBatchSize [i]

/-- One row that is paid back, with the given count. -/
def oneRowInput (count : Json) : Json :=
  .obj [("balances", .arr ((firstRow 5).map .int)), ("limits", .arr ((firstRow 3).map .int)), ("active_count", count)]

theorem oneRow_prepared {count : PyInt} (h : count.toInt = 1) :
    PreparedAt maxBatchSize (firstRow 5) (firstRow 3) count := by
  have hu (i : ℤ) (hi : 0 ≤ i ∧ i < 2 ^ 32) : U32 (firstRow i) :=
    padTo_u32 maxBatchSize (by simpa [U32] using hi)
  have hzero (i : ℤ) : ∀ x ∈ (firstRow i).drop 1, x = 0 := fun x hx => (List.mem_replicate.1 hx).2
  refine ⟨padTo_length (by decide), padTo_length (by decide), by omega, ?_, hu 5 (by decide), hu 3 (by decide), ?_, ?_⟩
  · rw [h]
    decide
  · rw [h]
    exact hzero 5
  · rw [h]
    exact hzero 3

theorem oneRow_accepted {count : PyInt} (h : count.toInt = 1) :
    batchPrepareFromPrivateInput (oneRowInput count.toJson) = .ok ⟨firstRow 5, firstRow 3, count⟩ := by
  refine fromPrivateInput_ok.2 ⟨rfl, rfl, ?_, oneRow_prepared h⟩
  cases count with
  | int i => rfl
  | bool b => rfl

theorem batches_inverse_one :
    (∃ bs ls n, CanonicalBatch (oneRowInput (.int 1)) ⟨firstRow 5, firstRow 3, .int 1⟩ bs ls n) ∧
      batchPrepareFromPrivateInput (PreparedBatchInput.toCircuitInput ⟨firstRow 5, firstRow 3, .int 1⟩) =
        .ok ⟨firstRow 5, firstRow 3, .int 1⟩ := by
  have haccepted : batchPrepareFromPrivateInput (oneRowInput (.int 1)) = .ok ⟨firstRow 5, firstRow 3, .int 1⟩ :=
    @oneRow_accepted (.int 1) rfl
  have hcanon := ((batches_inverse_iff [] [] ⟨[], [], .int 0⟩ _ _).2 haccepted).2 (fun h => by cases h)
  obtain ⟨bs, ls, n, h⟩ := hcanon
  exact ⟨⟨bs, ls, n, h⟩, (batches_inverse_iff _ _ _ .null ⟨[], [], .int 0⟩).1 h.again⟩

/-- **`True` is accepted for the count**, which is not canonical. -/
theorem true_count_accepted : ¬ ∀ (privateInput : Json) (p : PreparedBatchInput),
    batchPrepareFromPrivateInput privateInput = .ok p → ∃ bs ls n, CanonicalBatch privateInput p bs ls n := by
  intro h
  have haccepted : batchPrepareFromPrivateInput (oneRowInput (.bool true)) =
      .ok ⟨firstRow 5, firstRow 3, .bool true⟩ := @oneRow_accepted (.bool true) rfl
  exact not_canonical_of_true rfl (h _ _ haccepted)

end Vellum
