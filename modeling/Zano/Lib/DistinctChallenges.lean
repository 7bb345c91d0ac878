import Mathlib

/-! # Answers to distinct challenges

The highest coefficient of an answer that is a polynomial in the challenge is a sum of as many
answers to distinct challenges as the polynomial has coefficients. An affine answer is found from
two of them, and one whose product with what it lacks to the challenge is affine too belongs to a
bit.

The answers may be vectors. Where only their images under a linear map are known to be affine, what
an answer is off the line through two others is in the kernel of the map.
-/

namespace DistinctChallenges

open Polynomial

variable {F V : Type*} [Field F] [AddCommGroup V] [Module F V]

/-- Weights that pick the coefficient of the highest power. -/
theorem sum_nodalWeight {d : ℕ} {x : Fin (d + 1) → F} (distinct : Function.Injective x) {k : ℕ}
    (within : k ≤ d) :
    ∑ t, Lagrange.nodalWeight Finset.univ x t * x t ^ k = if k = d then 1 else 0 := by
  have degree : (X ^ k : F[X]).degree < (Finset.univ : Finset (Fin (d + 1))).card := by
    rw [degree_X_pow, Finset.card_univ, Fintype.card_fin]
    exact_mod_cast Nat.lt_succ_of_le within
  have leading := Lagrange.coeff_eq_sum distinct.injOn degree
  rw [Finset.card_univ, Fintype.card_fin, Nat.add_sub_cancel, coeff_X_pow] at leading
  rw [if_congr eq_comm rfl rfl, leading]
  refine Finset.sum_congr rfl fun t _ => ?_
  rw [Lagrange.nodalWeight, Finset.prod_inv_distrib, eval_pow, eval_X, div_eq_inv_mul]

/-- The highest coefficient from the values. -/
theorem sum_nodalWeight_smul {d : ℕ} {x : Fin (d + 1) → F} (distinct : Function.Injective x)
    (v : ℕ → V) :
    ∑ t, Lagrange.nodalWeight Finset.univ x t • ∑ k ∈ Finset.range (d + 1),
      x t ^ k • v k = v d := by
  simp only [Finset.smul_sum, smul_smul]
  rw [Finset.sum_comm]
  simp only [← Finset.sum_smul]
  rw [Finset.sum_eq_single_of_mem d (Finset.mem_range.mpr (Nat.lt_succ_self d)),
    sum_nodalWeight distinct le_rfl, if_pos rfl, one_smul]
  intro k inside other
  rw [sum_nodalWeight distinct (Nat.le_of_lt_succ (Finset.mem_range.mp inside)), if_neg other,
    zero_smul]

/-! ## Lines -/

section Lines

variable {W ι : Type*} [AddCommGroup W] [Module F W] (x : ι → F) (v : ι → W) (s s' t : ι)

def slope : W := (x s' - x s)⁻¹ • (v s' - v s)

/-- How far an answer is from the line through two others. -/
def offLine : W := v t - (v s + (x t - x s) • slope x v s s')

variable {x v s s' t}

/-- Where the images are on a line, what the answers are off it is mapped to zero. -/
theorem map_offLine (φ : W →ₗ[F] V) {A B : V} (line : ∀ t, φ (v t) = A + x t • B)
    (distinct : x s ≠ x s') :
    φ (offLine x v s s' t) = 0 := by
  have isSlope : φ (slope x v s s') = B := by
    have difference : φ (v s' - v s) = (x s' - x s) • B := by
      rw [map_sub, line, line]
      module
    rw [slope, map_smul, difference, smul_smul,
      inv_mul_cancel₀ (sub_ne_zero.mpr distinct.symm), one_smul]
  rw [offLine, map_sub, map_add, map_smul, isSlope, line, line]
  module

/-- Answers that are not off the line are affine. -/
theorem exists_line (on : ∀ t, offLine x v s s' t = 0) : ∃ A B, ∀ t, v t = A + x t • B := by
  refine ⟨v s - x s • slope x v s s', slope x v s s', fun t => ?_⟩
  rw [sub_eq_zero.mp (on t)]
  module

end Lines

/-- A product of affine answers is a polynomial, and its highest coefficient is the
product of the slopes. -/
theorem exists_coeffs (a b : ℕ → F) (m : ℕ) :
    ∃ c : ℕ → F, c m = ∏ j ∈ Finset.range m, b j ∧
      ∀ x, ∏ j ∈ Finset.range m, (a j + b j * x) = ∑ k ∈ Finset.range (m + 1), x ^ k * c k := by
  set product : F[X] := ∏ j ∈ Finset.range m, (C (b j) * X + C (a j))
  have degrees (j : ℕ) : (C (b j) * X + C (a j)).natDegree ≤ 1 := natDegree_linear_le
  have degree : product.natDegree < m + 1 := by
    have summed := (natDegree_prod_le (Finset.range m) fun j => C (b j) * X + C (a j)).trans
      (Finset.sum_le_card_nsmul _ _ 1 fun j _ => degrees j)
    simpa [Nat.lt_succ_iff] using summed
  refine ⟨product.coeff, ?_, fun x => ?_⟩
  · have leading :=
      coeff_prod_of_natDegree_le (Finset.range m) (fun j => C (b j) * X + C (a j)) 1 fun j _ =>
        degrees j
    simpa [product] using leading
  · have value := eval_eq_sum_range' degree x
    simp only [product, eval_prod, eval_add, eval_mul, eval_C, eval_X] at value
    simp only [add_comm (a _), value, mul_comm (x ^ _), product]

/-- An answer `a + b * x` such that its product with what it lacks to `x` is affine as well, at
three challenges. -/
theorem bit_of_affine {x : Fin 3 → F} (distinct : Function.Injective x) (a b c d : F)
    (products : ∀ t, (a + b * x t) * (x t - (a + b * x t)) = c + d * x t) : b = 0 ∨ b = 1 := by
  have leading := sum_nodalWeight_smul distinct
    fun k => if k = 0 then -a ^ 2 - c else if k = 1 then a - 2 * a * b - d else b * (1 - b)
  have values (t : Fin 3) : ∑ k ∈ Finset.range 3,
      x t ^ k • (if k = 0 then -a ^ 2 - c else if k = 1 then a - 2 * a * b - d
        else b * (1 - b)) = 0 := by
    simp only [Finset.sum_range_succ, Finset.sum_range_zero, smul_eq_mul]
    norm_num
    linear_combination products t
  simp only [values, smul_zero, Finset.sum_const_zero] at leading
  have product : b * (1 - b) = 0 := leading.symm
  rw [mul_eq_zero, sub_eq_zero] at product
  exact product.imp_right Eq.symm

/-- Of bits that sum to one, one is set. -/
theorem exists_bit {n : ℕ} {b : ℕ → F} (bits : ∀ i < n, b i = 0 ∨ b i = 1)
    (sum : ∑ i ∈ Finset.range n, b i = 1) (countable : ∀ c ≤ n, (c : F) = 1 → c = 1) :
    ∃ d < n, ∀ i < n, b i = if i = d then 1 else 0 := by
  classical
  set set := (Finset.range n).filter fun i => b i = 1
  have counted : ∑ i ∈ Finset.range n, b i = (set.card : F) := by
    rw [← Finset.sum_boole]
    refine Finset.sum_congr rfl fun i inside => ?_
    rcases bits i (Finset.mem_range.mp inside) with isZero | isOne
    · rw [isZero, if_neg zero_ne_one]
    · rw [isOne, if_pos rfl]
  have few : set.card ≤ n := (Finset.card_filter_le _ _).trans_eq (Finset.card_range n)
  obtain ⟨d, isSet⟩ := Finset.card_eq_one.mp (countable set.card few (counted ▸ sum))
  have mem {i : ℕ} : i ∈ set ↔ i < n ∧ b i = 1 := by simp [set]
  have dMem := mem.mp (isSet ▸ Finset.mem_singleton_self d)
  refine ⟨d, dMem.1, fun i inside => ?_⟩
  split
  · next isD => exact isD ▸ dMem.2
  · next other =>
      refine (bits i inside).resolve_right fun isOne => other ?_
      simpa [isSet] using mem.mpr ⟨inside, isOne⟩

end DistinctChallenges
