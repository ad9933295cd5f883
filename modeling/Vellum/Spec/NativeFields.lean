import Vellum.Lib.Bn254Curve
import Vellum.Lib.Decimal
import Vellum.Spec.NativeProver

/-!
# What the native prover decodes

The public signals of a request as integers and as elements of the scalar field. `Fr::from_str`
reads a signed decimal integer and reduces it, which is assumed of the backend here. And the points
of proofs and keys: what a list of coordinates denotes, and when it denotes what it is decoded to.
-/

namespace Vellum

namespace NativeProver

variable {Fq Fr Prepared : Type}

/-- The text an entry is read from. -/
def Value.text? : Value → Option String
  | .string s => some s
  | .number text => some text
  | _ => none

/-! ## Public signals -/

/-- `Fr::from_str`. -/
def ReducesDecimals (B : Backend Fq F Prepared) : Prop :=
  ∀ s, B.frFromStr s = (signedDecimal? s.toList).map fun i => (i : F)

/-- The integers that entries denote. -/
def integers (items : List Value) : Option (List ℤ) := items.mapM fun v => v.text?.bind fun s => signedDecimal? s.toList

/-- The decimal numeral of an integer in `[0, r)`. -/
def CanonicalSignal (v : Value) : Prop := ∃ n < bn254, v.text? = some n.repr

/-- **Two arrays of public signals and the field vectors they are read as**: the entries are
canonical, different integers have different vectors, and a vector was published in one way. -/
structure SignalsBind (items items' : List Value) (inputs inputs' : List F) : Prop where
  canonical : ∀ v ∈ items ++ items', CanonicalSignal v
  distinct : integers items ≠ integers items' → inputs ≠ inputs'
  published : inputs = inputs' → items.map Value.text? = items'.map Value.text?

/-- An entry without a sign, a separator and a superfluous zero, worth less than `r`. -/
def Value.plainSignal (v : Value) : Bool :=
  match v.text? with
  | some s => plainNumeral s.toList && (signedDecimal? s.toList).any fun i => i < (bn254 : ℤ)
  | none => false

/-! ## Points -/

/-- An element of `Fq2` in the extension field. -/
def Fq2.element (x : Fq2 BaseField) : ExtField := ⟨x.c0, x.c1⟩

namespace Backend

variable (B : Backend BaseField Fr Prepared)

/-- A coordinate of a point of `G1`. -/
def coordinate? (v : Value) : Option BaseField := v.text?.bind B.fqFromStr

/-- A coordinate of a point of `G2`, with its coefficients in either order. -/
def coordinate2? (swapCoeffs : Bool) : Value → Option ExtField
  | .array (c0 :: c1 :: _) => do
    let c0 ← B.coordinate? c0
    let c1 ← B.coordinate? c1
    return (newFq2 swapCoeffs c0 c1).element
  | _ => none

end Backend

section

variable {K : Type} [Field K] (read : Value → Option K) (equation : K → K → Prop)

/-- **The affine point that coordinates denote.** Two of them are affine already. Zero at the third
place is the point at infinity, which no pair is. -/
def Denotes (c : Projective) (coords : List Value) (x y : K) : Prop :=
  match coords with
  | [a, b] => read a = some x ∧ read b = some y
  | a :: b :: third :: _ => ∃ z, read third = some z ∧ z ≠ 0 ∧ read a = some (x * z ^ c.weights.1) ∧
      read b = some (y * z ^ c.weights.2)
  | _ => False

/-- **A valid point**: on its curve, and the one its encoding denotes. -/
def ValidPoint (c : Projective) (v : Value) (x y : K) : Prop :=
  equation x y ∧ ∃ coords, v = .array coords ∧ Denotes read c coords x y

/-- An encoding that starts with the affine coordinates of a point of the curve, and has 1 at the
third place or nothing. -/
def AffinePoint (v : Value) : Prop :=
  ∃ a b rest x y, v = .array (a :: b :: rest) ∧ read a = some x ∧ read b = some y ∧ equation x y ∧
    ∀ third ∈ rest.head?, read third = some 1

end

section

variable (B : Backend BaseField Fr Prepared)

/-- The points of a decoded proof are valid. -/
structure ProofValid (c : Projective) (swapCoeffs : Bool) (value : Value) (proof : Proof BaseField) : Prop where
  a : ∃ v, value.get "pi_a" = some v ∧ ValidPoint B.coordinate? OnCurve c v proof.a.x proof.a.y
  b : ∃ v, value.get "pi_b" = some v ∧
    ValidPoint (B.coordinate2? swapCoeffs) OnTwist c v proof.b.x.element proof.b.y.element
  c : ∃ v, value.get "pi_c" = some v ∧ ValidPoint B.coordinate? OnCurve c v proof.c.x proof.c.y

/-- The points of a proof are encoded by their affine coordinates. -/
structure ProofAffine (swapCoeffs : Bool) (value : Value) : Prop where
  a : ∃ v, value.get "pi_a" = some v ∧ AffinePoint B.coordinate? OnCurve v
  b : ∃ v, value.get "pi_b" = some v ∧ AffinePoint (B.coordinate2? swapCoeffs) OnTwist v
  c : ∃ v, value.get "pi_c" = some v ∧ AffinePoint B.coordinate? OnCurve v

/-- The points of a decoded verification key are valid. -/
structure KeyValid (c : Projective) (swapCoeffs : Bool) (value : Value) (key : VerifyingKey BaseField) : Prop where
  alpha : ∃ v, value.get "vk_alpha_1" = some v ∧ ValidPoint B.coordinate? OnCurve c v key.alphaG1.x key.alphaG1.y
  beta : ∃ v, value.get "vk_beta_2" = some v ∧
    ValidPoint (B.coordinate2? swapCoeffs) OnTwist c v key.betaG2.x.element key.betaG2.y.element
  gamma : ∃ v, value.get "vk_gamma_2" = some v ∧
    ValidPoint (B.coordinate2? swapCoeffs) OnTwist c v key.gammaG2.x.element key.gammaG2.y.element
  delta : ∃ v, value.get "vk_delta_2" = some v ∧
    ValidPoint (B.coordinate2? swapCoeffs) OnTwist c v key.deltaG2.x.element key.deltaG2.y.element
  ic : ∃ items, (value.get "IC").or (value.get "ic") = some (.array items) ∧
    List.Forall₂ (fun v p => ValidPoint B.coordinate? OnCurve c v p.x p.y) items key.gammaAbcG1

/-- The points of a verification key are encoded by their affine coordinates. -/
structure KeyAffine (swapCoeffs : Bool) (value : Value) : Prop where
  alpha : ∃ v, value.get "vk_alpha_1" = some v ∧ AffinePoint B.coordinate? OnCurve v
  beta : ∃ v, value.get "vk_beta_2" = some v ∧ AffinePoint (B.coordinate2? swapCoeffs) OnTwist v
  gamma : ∃ v, value.get "vk_gamma_2" = some v ∧ AffinePoint (B.coordinate2? swapCoeffs) OnTwist v
  delta : ∃ v, value.get "vk_delta_2" = some v ∧ AffinePoint (B.coordinate2? swapCoeffs) OnTwist v
  ic : ∃ items, (value.get "IC").or (value.get "ic") = some (.array items) ∧
    ∀ v ∈ items, AffinePoint B.coordinate? OnCurve v

end

end NativeProver

end Vellum
