import Mathlib.Data.List.Prime
import Mathlib.NumberTheory.LucasPrimality
import Mathlib.Tactic.NormNum.Prime
import Mathlib.Tactic.ReduceModChar

/-!
# The BN254 fields

Groth16 circuits over BN254 compute in `ZMod r`, and the points of its curves have coordinates in
`ZMod q`. That `r` and `q` are prime is what makes these fields (and an `IsZero` gadget
satisfiable), so it is proved here, by Lucas's test on the factors of `r - 1` and `q - 1`.
-/

namespace Vellum

/-- **Lucas's test** from a factor list of `p - 1`: it suffices to test the listed
primes, since every prime divisor of `p - 1` is one of them. -/
theorem prime_of_lucas {p : ℕ} (a : ZMod p) (fs : List ℕ) (hf : ∀ q ∈ fs, q.Prime)
    (hprod : p - 1 = fs.prod) (h1 : a ^ (p - 1) = 1)
    (h2 : ∀ q ∈ fs, a ^ ((p - 1) / q) ≠ 1) : p.Prime := by
  refine lucas_primality p a h1 fun q hq hdvd => h2 q ?_
  rw [hprod] at hdvd
  obtain ⟨r, hr, hqr⟩ := (Prime.dvd_prod_iff hq.prime).1 hdvd
  rwa [(Nat.prime_dvd_prime_iff_eq hq (hf r hr)).1 hqr]

theorem prime_405928799 : Nat.Prime 405928799 := by
  refine prime_of_lucas 22 [2, 11, 3691, 4999] (by norm_num) (by norm_num) ?_ ?_
  · reduce_mod_char
  · norm_num; reduce_mod_char; decide

theorem prime_639533339 : Nat.Prime 639533339 := by
  refine prime_of_lucas 2 [2, 229, 853, 1637] (by norm_num) (by norm_num) ?_ ?_
  · reduce_mod_char
  · norm_num; reduce_mod_char; decide

theorem prime_12048837557 : Nat.Prime 12048837557 := by
  refine prime_of_lucas 2 [2, 2, 7, 7, 661, 93001] (by norm_num) (by norm_num) ?_ ?_
  · reduce_mod_char
  · norm_num; reduce_mod_char; decide

theorem prime_5156902474397 : Nat.Prime 5156902474397 := by
  refine prime_of_lucas 2 [2, 2, 107, 12048837557] ?_ (by norm_num) ?_ ?_
  · simp only [List.forall_mem_cons]
    exact ⟨by norm_num, by norm_num, by norm_num, prime_12048837557, by simp⟩
  · reduce_mod_char
  · norm_num; reduce_mod_char; decide

theorem prime_1670836401704629 : Nat.Prime 1670836401704629 := by
  refine prime_of_lucas 2 [2, 2, 3, 3, 3, 3, 5156902474397] ?_ (by norm_num) ?_ ?_
  · simp only [List.forall_mem_cons]
    exact ⟨by norm_num, by norm_num, by norm_num, by norm_num, by norm_num, by norm_num,
      prime_5156902474397, by simp⟩
  · reduce_mod_char
  · norm_num; reduce_mod_char; decide

theorem prime_65865678001877903 : Nat.Prime 65865678001877903 := by
  refine prime_of_lucas 5 [2, 83, 379, 1637, 639533339] ?_ (by norm_num) ?_ ?_
  · simp only [List.forall_mem_cons]
    exact ⟨by norm_num, by norm_num, by norm_num, by norm_num, prime_639533339, by simp⟩
  · reduce_mod_char
  · norm_num; reduce_mod_char; decide

theorem prime_13818364434197438864469338081 : Nat.Prime 13818364434197438864469338081 := by
  refine prime_of_lucas 3 [2, 2, 2, 2, 2, 5, 823, 1593227, 65865678001877903] ?_ (by norm_num) ?_ ?_
  · simp only [List.forall_mem_cons]
    exact ⟨by norm_num, by norm_num, by norm_num, by norm_num, by norm_num, by norm_num,
      by norm_num, by norm_num, prime_65865678001877903, by simp⟩
  · reduce_mod_char
  · norm_num; reduce_mod_char; decide

/-- The order `r` of the BN254 scalar field. -/
def bn254 : ℕ := 21888242871839275222246405745257275088548364400416034343698204186575808495617

/-- **`r` is prime.** -/
theorem bn254_prime : bn254.Prime := by
  unfold bn254
  refine prime_of_lucas 5 (List.replicate 28 2 ++ [3, 3, 13, 29, 983, 11003, 237073, 405928799,
    1670836401704629, 13818364434197438864469338081]) ?_ (by norm_num) ?_ ?_
  · simp only [List.forall_mem_append, List.forall_mem_replicate, List.forall_mem_cons]
    exact ⟨Or.inr Nat.prime_two, by norm_num, by norm_num, by norm_num, by norm_num, by norm_num,
      by norm_num, by norm_num, prime_405928799, prime_1670836401704629,
      prime_13818364434197438864469338081, by simp⟩
  · norm_num only
    reduce_mod_char
  · simp only [List.forall_mem_append, List.forall_mem_replicate, List.forall_mem_cons]
    norm_num
    reduce_mod_char
    decide

instance : Fact bn254.Prime := ⟨bn254_prime⟩

/-- The BN254 scalar field. -/
abbrev F := ZMod bn254

/-! ## The base field -/

theorem prime_4562087 : Nat.Prime 4562087 := by norm_num

theorem prime_173171039 : Nat.Prime 173171039 := by
  refine prime_of_lucas 13 [2, 73, 89, 13327] (by norm_num) (by norm_num) ?_ ?_
  · reduce_mod_char
  · norm_num; reduce_mod_char; decide

theorem prime_1263766531 : Nat.Prime 1263766531 := by
  refine prime_of_lucas 10 [2, 3, 5, 13, 911, 3557] (by norm_num) (by norm_num) ?_ ?_
  · reduce_mod_char
  · norm_num; reduce_mod_char; decide

theorem prime_11465965001 : Nat.Prime 11465965001 := by
  refine prime_of_lucas 3 [2, 2, 2, 5, 5, 5, 5, 7, 327599] (by norm_num) (by norm_num) ?_ ?_
  · reduce_mod_char
  · norm_num; reduce_mod_char; decide

theorem prime_35385462869 : Nat.Prime 35385462869 := by
  refine prime_of_lucas 2 [2, 2, 7, 1263766531] ?_ (by norm_num) ?_ ?_
  · simp only [List.forall_mem_cons]
    exact ⟨by norm_num, by norm_num, by norm_num, prime_1263766531, by simp⟩
  · reduce_mod_char
  · norm_num; reduce_mod_char; decide

theorem prime_2480874801745591 : Nat.Prime 2480874801745591 := by
  refine prime_of_lucas 6 [2, 3, 3, 5, 19, 41, 35385462869] ?_ (by norm_num) ?_ ?_
  · simp only [List.forall_mem_cons]
    exact ⟨by norm_num, by norm_num, by norm_num, by norm_num, by norm_num, by norm_num,
      prime_35385462869, by simp⟩
  · reduce_mod_char
  · norm_num; reduce_mod_char; decide

theorem prime_13427688667394608761327070753331941386769 :
    Nat.Prime 13427688667394608761327070753331941386769 := by
  refine prime_of_lucas 17 [2, 2, 2, 2, 3, 7, 11, 1853641, 4562087, 173171039, 2480874801745591] ?_
    (by norm_num) ?_ ?_
  · simp only [List.forall_mem_cons]
    exact ⟨by norm_num, by norm_num, by norm_num, by norm_num, by norm_num, by norm_num, by norm_num,
      by norm_num, prime_4562087, prime_173171039, prime_2480874801745591, by simp⟩
  · reduce_mod_char
  · norm_num; reduce_mod_char; decide

/-- The order `q` of the BN254 base field. -/
def bn254Base : ℕ := 21888242871839275222246405745257275088696311157297823662689037894645226208583

/-- **`q` is prime.** -/
theorem bn254Base_prime : bn254Base.Prime := by
  unfold bn254Base
  refine prime_of_lucas 3 [2, 3, 3, 13, 29, 67, 229, 311, 983, 11003, 405928799, 11465965001,
    13427688667394608761327070753331941386769] ?_ (by norm_num) ?_ ?_
  · simp only [List.forall_mem_cons]
    exact ⟨by norm_num, by norm_num, by norm_num, by norm_num, by norm_num, by norm_num, by norm_num,
      by norm_num, by norm_num, by norm_num, prime_405928799, prime_11465965001,
      prime_13427688667394608761327070753331941386769, by simp⟩
  · norm_num only
    reduce_mod_char
  · norm_num
    reduce_mod_char
    decide

instance : Fact bn254Base.Prime := ⟨bn254Base_prime⟩

/-- The BN254 base field. -/
abbrev BaseField := ZMod bn254Base

end Vellum
