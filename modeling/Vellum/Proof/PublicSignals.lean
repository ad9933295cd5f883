import Vellum.Spec.NativeFields

/-!
# Public signals in the native prover

`parse_public_inputs` takes every signed decimal integer and keeps its residue only, so many arrays
are read as one field vector. Among the plain numerals below `r` each element has one text.

* `signal_text_unique`: plain entries that are read as one element have one text.
* `signals_bind_iff`: which pairs of accepted arrays are bound to their vectors.
* `signals_not_bound`: `1` and `r + 1`.
-/

namespace Vellum

namespace NativeProver

variable {Fq Prepared : Type} {B : Backend Fq F Prepared}

/-- An entry that is read as an element. -/
def SignalReads (v : Value) (x : F) : Prop :=
  ∃ s i, v.text? = some s ∧ signedDecimal? s.toList = some i ∧ x = (i : F)

theorem asDecimalString_ok {v : Value} {fieldName s : String} :
    asDecimalString v fieldName = .ok s ↔ v.text? = some s := by
  cases v <;> simp [asDecimalString, Value.text?]

theorem parseFr_ok (hfr : ReducesDecimals B) {v : Value} {fieldName : String} {x : F} :
    B.parseFr v fieldName = .ok x ↔ SignalReads v x := by
  simp only [Backend.parseFr, bind_ok, asDecimalString_ok]
  constructor
  · rintro ⟨s, hs, h⟩
    rw [hfr s] at h
    cases hi : signedDecimal? s.toList with
    | none => rw [hi] at h; cases h
    | some i =>
      rw [hi] at h
      exact ⟨s, i, hs, hi, (Except.ok.inj h).symm⟩
  · rintro ⟨s, i, hs, hi, rfl⟩
    refine ⟨s, hs, ?_⟩
    rw [hfr s, hi]
    rfl

/-- **What is accepted**: every entry is read. -/
theorem parsePublicInputs_ok (hfr : ReducesDecimals B) {items : List Value} {inputs : List F} :
    B.parsePublicInputs (.array items) = .ok inputs ↔ List.Forall₂ SignalReads items inputs := by
  have hbody : B.parsePublicInputs (.array items) =
      items.zipIdx.mapM fun p => B.parseFr p.1 (Backend.indexed "public_signals" p.2) := rfl
  rw [hbody, mapM_zipIdx_ok fun _ _ _ => parseFr_ok hfr]

/-! ## Plain entries -/

/-- The plain entries are the canonical ones. -/
theorem plainSignal_iff {v : Value} : v.plainSignal = true ↔ CanonicalSignal v := by
  unfold Value.plainSignal
  constructor
  · intro h
    cases hs : v.text? with
    | none => rw [hs] at h; cases h
    | some s =>
      rw [hs] at h
      simp only [Bool.and_eq_true] at h
      obtain ⟨hplain, hany⟩ := h
      cases hi : signedDecimal? s.toList with
      | none => rw [hi] at hany; cases hany
      | some i =>
        obtain ⟨n, rfl, hn⟩ := (plainNumeral_iff hi).1 hplain
        rw [hi, Option.any_some, decide_eq_true_eq] at hany
        refine ⟨n, Int.ofNat_lt.1 hany, ?_⟩
        rw [← String.toList_inj.1 (hn.trans Nat.toList_repr.symm), hs]
  · rintro ⟨n, hn, hs⟩
    rw [hs]
    dsimp only
    rw [Nat.toList_repr, toDigits_plain, signedDecimal?_toDigits, Bool.true_and, Option.any_some, decide_eq_true_eq]
    exact Int.ofNat_lt.2 hn

/-- **One text for each element.** -/
theorem signal_text_unique {v v' : Value} {x : F} (hv : CanonicalSignal v) (hv' : CanonicalSignal v')
    (h : SignalReads v x) (h' : SignalReads v' x) : v.text? = v'.text? := by
  obtain ⟨n, hn, ht⟩ := hv
  obtain ⟨n', hn', ht'⟩ := hv'
  have hval : ∀ {v : Value} {n : ℕ}, v.text? = some n.repr → SignalReads v x → x = (n : F) := by
    rintro v n ht ⟨s, i, hs, hi, rfl⟩
    obtain rfl := Option.some.inj (ht.symm.trans hs)
    rw [Nat.toList_repr, signedDecimal?_toDigits] at hi
    rw [← Option.some.inj hi, Int.cast_natCast]
  have heq : (n : F) = n' := (hval ht h).symm.trans (hval ht' h')
  have hnat : n = n' := by
    have := congrArg ZMod.val heq
    rwa [ZMod.val_natCast_of_lt hn, ZMod.val_natCast_of_lt hn'] at this
  rw [ht, ht', hnat]

/-- A vector was published in one way, entry by entry. -/
theorem signals_texts_unique {items items' : List Value} {inputs : List F}
    (h : List.Forall₂ SignalReads items inputs) (h' : List.Forall₂ SignalReads items' inputs)
    (hc : ∀ v ∈ items ++ items', CanonicalSignal v) : items.map Value.text? = items'.map Value.text? := by
  induction h generalizing items' with
  | nil =>
    cases h'
    rfl
  | @cons v x items inputs hv h ih =>
    cases h' with
    | @cons v' _ items' _ hv' h' =>
      have hhead := signal_text_unique (hc v (by simp)) (hc v' (by simp)) hv hv'
      have htail := ih h' fun u hu => hc u (by
        simp only [List.cons_append, List.mem_cons, List.mem_append] at hu ⊢
        rcases hu with hu | hu
        · exact Or.inr (Or.inl hu)
        · exact Or.inr (Or.inr (Or.inr hu)))
      rw [List.map_cons, List.map_cons, hhead, htail]

theorem integers_texts {items items' : List Value} (h : items.map Value.text? = items'.map Value.text?) :
    integers items = integers items' := by
  have hint : ∀ items : List Value, integers items =
      (items.map Value.text?).mapM fun t => t.bind fun s => signedDecimal? s.toList := fun items => by
    rw [List.mapM_map]
    rfl
  rw [hint, hint, h]

/-- **When accepted arrays are bound to their vectors**: when no entry has a sign, a separator or a
superfluous zero, or is worth `r` or more. -/
theorem signals_bind_iff (hfr : ReducesDecimals B) {items items' : List Value} {inputs inputs' : List F}
    (h : B.parsePublicInputs (.array items) = .ok inputs) (h' : B.parsePublicInputs (.array items') = .ok inputs') :
    SignalsBind items items' inputs inputs' ↔ ∀ v ∈ items ++ items', v.plainSignal = true := by
  constructor
  · intro hbind v hv
    exact plainSignal_iff.2 (hbind.canonical v hv)
  · intro hplain
    have hc : ∀ v ∈ items ++ items', CanonicalSignal v := fun v hv => plainSignal_iff.1 (hplain v hv)
    have htexts : inputs = inputs' → items.map Value.text? = items'.map Value.text? := by
      rintro rfl
      exact signals_texts_unique ((parsePublicInputs_ok hfr).1 h) ((parsePublicInputs_ok hfr).1 h') hc
    exact ⟨hc, fun hne heq => hne (integers_texts (htexts heq)), htexts⟩

/-! ## An array that is bound, and one that is not -/

/-- A backend that reads scalars; nothing else is asked of it. -/
def scalarBackend : Backend Unit F Unit where
  fromStr _ := .error "EOF while parsing a value"
  fqFromStr _ := none
  frFromStr s := (signedDecimal? s.toList).map fun i => (i : F)
  prepareVerifyingKey _ := none
  verifyProof _ _ _ := none
  readError := "No such file or directory"
  snarkjsVerify _ _ _ := .error "No such file or directory"

theorem scalarBackend_reads {s : String} {i : ℤ} (h : signedDecimal? s.toList = some i) :
    scalarBackend.parsePublicInputs (.array [.string s]) = .ok [(i : F)] := by
  refine (parsePublicInputs_ok fun _ => rfl).2 (.cons ?_ .nil)
  exact ⟨s, i, rfl, h, rfl⟩

/-- A decision of 1 and one of 0. -/
theorem signals_bind_decisions : SignalsBind [.string "1"] [.string "0"] [((1 : ℤ) : F)] [((0 : ℤ) : F)] := by
  refine (signals_bind_iff (fun _ => rfl) (scalarBackend_reads (by decide +kernel))
    (scalarBackend_reads (by decide +kernel))).2 ?_
  intro v hv
  simp only [List.cons_append, List.nil_append, List.mem_cons, List.not_mem_nil, or_false] at hv
  rcases hv with rfl | rfl
  · decide +kernel
  · decide +kernel

/-- The decimal text of `r + 1`. -/
def orderSuccText : String := "21888242871839275222246405745257275088548364400416034343698204186575808495618"

/-- **One vector, published in two ways.** A proof for the decision `1` is one for `r + 1` as well. -/
theorem signals_not_bound : ∃ inputs, scalarBackend.parsePublicInputs (.array [.string "1"]) = .ok inputs ∧
    scalarBackend.parsePublicInputs (.array [.string orderSuccText]) = .ok inputs ∧
    ¬ SignalsBind [.string "1"] [.string orderSuccText] inputs inputs := by
  have hone := scalarBackend_reads (show signedDecimal? "1".toList = some 1 by decide +kernel)
  have hsucc := scalarBackend_reads (show signedDecimal? orderSuccText.toList = some ((bn254 : ℤ) + 1) by
    decide +kernel)
  have hcast : (((bn254 : ℤ) + 1 : ℤ) : F) = ((1 : ℤ) : F) := by
    rw [Int.cast_add, Int.cast_natCast, ZMod.natCast_self, zero_add]
  rw [hcast] at hsucc
  refine ⟨_, hone, hsucc, fun hbind => ?_⟩
  have hplain := plainSignal_iff.2 (hbind.canonical (.string orderSuccText) (by simp))
  revert hplain
  decide +kernel

end NativeProver

end Vellum
