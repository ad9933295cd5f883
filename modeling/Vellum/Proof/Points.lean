import Vellum.Proof.PublicSignals

/-!
# Points in the native prover

`parse_g1` and `parse_g2` build a point from the first two coordinates with the unchecked
constructor, and read no third one. So a point that is returned is valid exactly when its encoding
is affine already. No coordinate of a point of either curve is zero, which leaves 1 as the only
third coordinate that changes nothing.

* `parseG1_ok`, `parseG2_ok`: the coordinates of a returned point.
* `validPoint_iff`: when a returned point is valid.
* `points_valid_iff`: proofs and keys.
* `infinity_not_valid`: a proof whose points are decoded to pairs off the curves.
-/

namespace Vellum

namespace NativeProver

variable {Fr Prepared : Type} {B : Backend BaseField Fr Prepared}

/-! ## Coordinates -/

theorem parseFq_ok {v : Value} {fieldName : String} {x : BaseField} :
    B.parseFq v fieldName = .ok x ↔ B.coordinate? v = some x := by
  simp only [Backend.parseFq, bind_ok, asDecimalString_ok, Backend.coordinate?, Option.bind_eq_some_iff]
  refine exists_congr fun s => and_congr_right fun _ => ?_
  cases B.fqFromStr s <;> simp

theorem asArray_ok {v : Value} {fieldName : String} {items : List Value} :
    asArray v fieldName = .ok items ↔ v = .array items := by
  cases v <;> simp [asArray]

theorem getField_ok {value v : Value} {fieldName : String} :
    getField value fieldName = .ok v ↔ value.get fieldName = some v := by
  unfold getField
  cases value.get fieldName <;> simp

/-- An encoding whose first two coordinates are these. -/
def StartsWith {K : Type} (read : Value → Option K) (v : Value) (x y : K) : Prop :=
  ∃ a b rest, v = .array (a :: b :: rest) ∧ read a = some x ∧ read b = some y

/-- The first two coordinates are those of the point. -/
theorem parseG1_ok {v : Value} {fieldName : String} {p : G1Affine BaseField} :
    B.parseG1 v fieldName = .ok p ↔ StartsWith B.coordinate? v p.x p.y := by
  simp only [Backend.parseG1, bind_ok, asArray_ok]
  constructor
  · rintro ⟨items, rfl, h⟩
    split at h
    · next a b rest =>
      simp only [bind_ok, pure_ok, parseFq_ok] at h
      obtain ⟨x, hx, y, hy, rfl⟩ := h
      exact ⟨a, b, rest, rfl, hx, hy⟩
    · cases h
  · rintro ⟨a, b, rest, rfl, hx, hy⟩
    refine ⟨_, rfl, ?_⟩
    simp only [bind_ok, pure_ok, parseFq_ok]
    exact ⟨_, hx, _, hy, rfl⟩

theorem parseG2_ok {v : Value} {fieldName : String} {swapCoeffs : Bool} {p : G2Affine BaseField}
    (h : B.parseG2 v fieldName swapCoeffs = .ok p) :
    StartsWith (B.coordinate2? swapCoeffs) v p.x.element p.y.element := by
  simp only [Backend.parseG2, bind_ok, asArray_ok] at h
  obtain ⟨items, rfl, h⟩ := h
  split at h
  · next a b rest =>
    simp only [bind_ok, asArray_ok] at h
    obtain ⟨xs, rfl, ys, rfl, h⟩ := h
    split at h
    · next x0 x1 _ y0 y1 _ =>
      simp only [bind_ok, pure_ok, parseFq_ok] at h
      obtain ⟨c0, h0, c1, h1, d0, k0, d1, k1, rfl⟩ := h
      refine ⟨_, _, rest, rfl, ?_, ?_⟩
      · simp [Backend.coordinate2?, h0, h1]
      · simp [Backend.coordinate2?, k0, k1]
    · cases h
  · cases h

/-! ## Valid points -/

variable {K : Type} [Field K] {read : Value → Option K} {equation : K → K → Prop}

/-- **When a point is valid** that is made of the first two coordinates. -/
theorem validPoint_iff (c : Projective) (hne : ∀ x y, equation x y → x ≠ 0 ∧ y ≠ 0) {v : Value} {x y : K}
    (h : StartsWith read v x y) : ValidPoint read equation c v x y ↔ AffinePoint read equation v := by
  obtain ⟨a, b, rest, rfl, hx, hy⟩ := h
  constructor
  · rintro ⟨heq, coords, hcoords, hden⟩
    refine ⟨a, b, rest, x, y, rfl, hx, hy, heq, ?_⟩
    obtain rfl := Value.array.inj hcoords
    cases rest with
    | nil => simp
    | cons third rest =>
      obtain ⟨z, hz, -, hxz, hyz⟩ := hden
      rw [hx, Option.some.injEq] at hxz
      rw [hy, Option.some.injEq] at hyz
      have hone := eq_one_of_scaled c (hne x y heq).1 (hne x y heq).2 hxz.symm hyz.symm
      intro t ht
      obtain rfl : third = t := by simpa using ht
      rw [hz, hone]
  · rintro ⟨a', b', rest', x', y', harr, hx', hy', heq, hthird⟩
    obtain ⟨rfl, rfl, rfl⟩ : a = a' ∧ b = b' ∧ rest = rest' := by simpa using Value.array.inj harr
    obtain rfl := Option.some.inj (hx.symm.trans hx')
    obtain rfl := Option.some.inj (hy.symm.trans hy')
    refine ⟨heq, _, rfl, ?_⟩
    cases rest with
    | nil => exact ⟨hx, hy⟩
    | cons third rest =>
      refine ⟨1, hthird third (by simp), one_ne_zero, ?_, ?_⟩
      · rw [one_pow, mul_one, hx]
      · rw [one_pow, mul_one, hy]

theorem validG1_iff (c : Projective) {v : Value} {x y : BaseField} (h : StartsWith B.coordinate? v x y) :
    ValidPoint B.coordinate? OnCurve c v x y ↔ AffinePoint B.coordinate? OnCurve v :=
  validPoint_iff c (fun _ _ h => h.ne_zero) h

theorem validG2_iff (c : Projective) {v : Value} {fieldName : String} {swapCoeffs : Bool} {p : G2Affine BaseField}
    (h : B.parseG2 v fieldName swapCoeffs = .ok p) :
    ValidPoint (B.coordinate2? swapCoeffs) OnTwist c v p.x.element p.y.element ↔
      AffinePoint (B.coordinate2? swapCoeffs) OnTwist v :=
  validPoint_iff c (fun _ _ h => h.ne_zero) (parseG2_ok h)

/-! ## Proofs and keys -/

/-- A field of an object has one value. -/
theorem exists_field_iff {value v : Value} {fieldName : String} (h : value.get fieldName = some v) {P : Value → Prop} :
    (∃ w, value.get fieldName = some w ∧ P w) ↔ P v := by
  constructor
  · rintro ⟨w, hw, hP⟩
    obtain rfl := Option.some.inj (h.symm.trans hw)
    exact hP
  · intro hP
    exact ⟨v, h, hP⟩

theorem proofValid_iff (c : Projective) {value : Value} {swapCoeffs : Bool} {proof : Proof BaseField}
    (h : B.parseProof value swapCoeffs = .ok proof) :
    ProofValid B c swapCoeffs value proof ↔ ProofAffine B swapCoeffs value := by
  simp only [Backend.parseProof, bind_ok, pure_ok, getField_ok, parseG1_ok] at h
  obtain ⟨va, hva, a, ha, vb, hvb, b, hb, vc, hvc, c', hc, rfl⟩ := h
  constructor
  · rintro ⟨h1, h2, h3⟩
    rw [exists_field_iff hva, validG1_iff c ha] at h1
    rw [exists_field_iff hvb, validG2_iff c hb] at h2
    rw [exists_field_iff hvc, validG1_iff c hc] at h3
    exact ⟨⟨va, hva, h1⟩, ⟨vb, hvb, h2⟩, ⟨vc, hvc, h3⟩⟩
  · rintro ⟨h1, h2, h3⟩
    rw [exists_field_iff hva, ← validG1_iff c ha] at h1
    rw [exists_field_iff hvb, ← validG2_iff c hb] at h2
    rw [exists_field_iff hvc, ← validG1_iff c hc] at h3
    exact ⟨⟨va, hva, h1⟩, ⟨vb, hvb, h2⟩, ⟨vc, hvc, h3⟩⟩

/-- The points of `IC`, item by item. -/
theorem ic_valid_iff (c : Projective) {items : List Value} {points : List (G1Affine BaseField)}
    (h : List.Forall₂ (fun v p => StartsWith B.coordinate? v p.x p.y) items points) :
    List.Forall₂ (fun v p => ValidPoint B.coordinate? OnCurve c v p.x p.y) items points ↔
      ∀ v ∈ items, AffinePoint B.coordinate? OnCurve v := by
  induction h with
  | nil => simp
  | cons hv _ ih => rw [List.forall₂_cons, List.forall_mem_cons, ih, validG1_iff c hv]

theorem keyValid_iff (c : Projective) {value : Value} {swapCoeffs : Bool} {key : VerifyingKey BaseField}
    (h : B.parseVerificationKey value swapCoeffs = .ok key) :
    KeyValid B c swapCoeffs value key ↔ KeyAffine B swapCoeffs value := by
  simp only [Backend.parseVerificationKey, bind_ok, getField_ok, parseG1_ok] at h
  obtain ⟨va, hva, a, ha, vb, hvb, b, hb, vg, hvg, g, hg, vd, hvd, d, hd, h⟩ := h
  split at h
  · cases h
  · next raw hraw =>
    simp only [bind_ok, pure_ok, asArray_ok] at h
    obtain ⟨items, rfl, points, hmap, rfl⟩ := h
    have hpoints : List.Forall₂ (fun v p => StartsWith B.coordinate? v p.x p.y) items points :=
      (mapM_zipIdx_ok fun _ _ _ => parseG1_ok).1 hmap
    have hic : ∀ {P : List Value → Prop},
        (∃ l, (value.get "IC").or (value.get "ic") = some (.array l) ∧ P l) ↔ P items := by
      intro P
      constructor
      · rintro ⟨l, hl, hP⟩
        obtain rfl := Value.array.inj (Option.some.inj (hraw.symm.trans hl))
        exact hP
      · intro hP
        exact ⟨items, hraw, hP⟩
    constructor
    · rintro ⟨h1, h2, h3, h4, h5⟩
      rw [exists_field_iff hva, validG1_iff c ha] at h1
      rw [exists_field_iff hvb, validG2_iff c hb] at h2
      rw [exists_field_iff hvg, validG2_iff c hg] at h3
      rw [exists_field_iff hvd, validG2_iff c hd] at h4
      rw [hic, ic_valid_iff c hpoints] at h5
      exact ⟨⟨va, hva, h1⟩, ⟨vb, hvb, h2⟩, ⟨vg, hvg, h3⟩, ⟨vd, hvd, h4⟩, ⟨items, hraw, h5⟩⟩
    · rintro ⟨h1, h2, h3, h4, h5⟩
      rw [exists_field_iff hva, ← validG1_iff c ha] at h1
      rw [exists_field_iff hvb, ← validG2_iff c hb] at h2
      rw [exists_field_iff hvg, ← validG2_iff c hg] at h3
      rw [exists_field_iff hvd, ← validG2_iff c hd] at h4
      rw [hic, ← ic_valid_iff c hpoints] at h5
      exact ⟨⟨va, hva, h1⟩, ⟨vb, hvb, h2⟩, ⟨vg, hvg, h3⟩, ⟨vd, hvd, h4⟩, ⟨items, hraw, h5⟩⟩

/-- **When the points of a decoded proof or key are valid**: when they are encoded by the affine
coordinates of points of the curves, in either order of coefficients and under either reading of a
third coordinate. -/
theorem points_valid_iff (B : Backend BaseField Fr Prepared) (c : Projective) (swapCoeffs : Bool) (value : Value) :
    (∀ proof, B.parseProof value swapCoeffs = .ok proof →
      (ProofValid B c swapCoeffs value proof ↔ ProofAffine B swapCoeffs value)) ∧
    ∀ key, B.parseVerificationKey value swapCoeffs = .ok key →
      (KeyValid B c swapCoeffs value key ↔ KeyAffine B swapCoeffs value) :=
  ⟨fun _ h => proofValid_iff c h, fun _ h => keyValid_iff c h⟩

/-- A backend that reads coordinates; nothing else is asked of it. -/
def pointBackend : Backend BaseField Unit Unit where
  fromStr _ := .error "EOF while parsing a value"
  fqFromStr s := (signedDecimal? s.toList).map fun i => (i : BaseField)
  frFromStr _ := none
  prepareVerifyingKey _ := none
  verifyProof _ _ _ := none
  readError := "No such file or directory"
  snarkjsVerify _ _ _ := .error "No such file or directory"

/-- A proof of two points of `G1` and one of `G2`. -/
def proofOf (a b c : List Value) : Value :=
  .object [("pi_a", .array a), ("pi_b", .array b), ("pi_c", .array c)]

def pairOf (c0 c1 : String) : Value := .array [.string c0, .string c1]

/-- The generators of both groups. -/
def generatorProof : Value :=
  proofOf [.string "1", .string "2", .string "1"]
    [pairOf "10857046999023057135944570762232829481370756359578518086990519993285655852781"
        "11559732032986387107991004021392285783925812861821192530917403151452391805634",
      pairOf "8495653923123431417604973247489272438418190587263600148770280649306958101930"
        "4082367875863433681332203403145435568316851327593401208105741076214120093531",
      pairOf "1" "0"]
    [.string "1", .string "2", .string "1"]

theorem coordinate?_string {s : String} {i : ℤ} (h : signedDecimal? s.toList = some i) :
    pointBackend.coordinate? (.string s) = some (i : BaseField) := by
  show (signedDecimal? s.toList).map (fun i => (i : BaseField)) = _
  rw [h]
  rfl

theorem coordinate2?_pair {s t : String} {i j : ℤ} (hi : signedDecimal? s.toList = some i)
    (hj : signedDecimal? t.toList = some j) :
    pointBackend.coordinate2? false (pairOf s t) = some ⟨(i : BaseField), (j : BaseField)⟩ := by
  simp only [pairOf, Backend.coordinate2?, coordinate?_string hi, coordinate?_string hj]
  rfl

/-- The generators are valid. -/
theorem points_valid_generators : ∃ proof, pointBackend.parseProof generatorProof false = .ok proof ∧
    ProofValid pointBackend .jacobian false generatorProof proof := by
  obtain ⟨proof, hproof⟩ := isOk_iff.1 (show (pointBackend.parseProof generatorProof false).isOk = true by decide +kernel)
  have hcurve : AffinePoint pointBackend.coordinate? OnCurve (.array [.string "1", .string "2", .string "1"]) := by
    have hone := coordinate?_string (show signedDecimal? "1".toList = some 1 by decide +kernel)
    have htwo := coordinate?_string (show signedDecimal? "2".toList = some 2 by decide +kernel)
    refine ⟨_, _, _, _, _, rfl, hone, htwo, by unfold OnCurve; decide +kernel, ?_⟩
    intro third hthird
    obtain rfl : Value.string "1" = third := by simpa using hthird
    rw [hone, Int.cast_one]
  have htwist : AffinePoint (pointBackend.coordinate2? false) OnTwist
      (.array [pairOf "10857046999023057135944570762232829481370756359578518086990519993285655852781"
          "11559732032986387107991004021392285783925812861821192530917403151452391805634",
        pairOf "8495653923123431417604973247489272438418190587263600148770280649306958101930"
          "4082367875863433681332203403145435568316851327593401208105741076214120093531",
        pairOf "1" "0"]) := by
    have hx := coordinate2?_pair
      (show signedDecimal? "10857046999023057135944570762232829481370756359578518086990519993285655852781".toList =
        some 10857046999023057135944570762232829481370756359578518086990519993285655852781 by decide +kernel)
      (show signedDecimal? "11559732032986387107991004021392285783925812861821192530917403151452391805634".toList =
        some 11559732032986387107991004021392285783925812861821192530917403151452391805634 by decide +kernel)
    have hy := coordinate2?_pair
      (show signedDecimal? "8495653923123431417604973247489272438418190587263600148770280649306958101930".toList =
        some 8495653923123431417604973247489272438418190587263600148770280649306958101930 by decide +kernel)
      (show signedDecimal? "4082367875863433681332203403145435568316851327593401208105741076214120093531".toList =
        some 4082367875863433681332203403145435568316851327593401208105741076214120093531 by decide +kernel)
    have hz := coordinate2?_pair (show signedDecimal? "1".toList = some 1 by decide +kernel)
      (show signedDecimal? "0".toList = some 0 by decide +kernel)
    refine ⟨_, _, _, _, _, rfl, hx, hy, by unfold OnTwist; decide +kernel, ?_⟩
    intro third hthird
    obtain rfl : pairOf "1" "0" = third := by simpa using hthird
    rw [hz, Int.cast_one, Int.cast_zero]
    rfl
  refine ⟨proof, hproof, ((points_valid_iff pointBackend .jacobian false generatorProof).1 proof hproof).2 ?_⟩
  exact ⟨⟨_, rfl, hcurve⟩, ⟨_, rfl, htwist⟩, ⟨_, rfl, hcurve⟩⟩

/-- Three points at infinity, as they are written in such a proof. -/
def infinityProof : Value :=
  proofOf [.string "0", .string "1", .string "0"] [pairOf "0" "0", pairOf "1" "0", pairOf "0" "0"]
    [.string "0", .string "1", .string "0"]

/-- **A point at infinity becomes a pair off the curve.** -/
theorem infinity_not_valid : ∃ proof, pointBackend.parseProof infinityProof false = .ok proof ∧
    ∀ c, ¬ ProofValid pointBackend c false infinityProof proof := by
  obtain ⟨proof, hproof⟩ := isOk_iff.1 (show (pointBackend.parseProof infinityProof false).isOk = true by decide +kernel)
  refine ⟨proof, hproof, fun c hvalid => ?_⟩
  obtain ⟨v, hv, a, b, rest, x, y, harr, hx, -, heq, -⟩ := ((proofValid_iff c hproof).1 hvalid).a
  have hzero := coordinate?_string (show signedDecimal? "0".toList = some 0 by decide +kernel)
  obtain rfl : Value.array [.string "0", .string "1", .string "0"] = v := Option.some.inj hv
  obtain ⟨rfl, -⟩ := List.cons.inj (Value.array.inj harr)
  rw [hzero, Int.cast_zero] at hx
  exact heq.ne_zero.1 (Option.some.inj hx).symm

end NativeProver

end Vellum
