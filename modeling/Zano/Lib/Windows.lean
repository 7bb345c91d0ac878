import Mathlib.Algebra.BigOperators.Intervals
import Mathlib.Algebra.Module.BigOperators

/-! # Sums of multiples by windows

A number is the sum of its digits to a base, and a sum of multiples is had from the digits: for each
place the summands with one digit go into one bucket, the buckets of a place are summed from the
highest digit down, and so are these sums, and the sums of the places are put together from the
highest place down.
-/

namespace Windows

variable {P : Type*} [AddCommMonoid P]

def digit (base place n : ℕ) : ℕ := n / base ^ place % base

theorem digit_lt {base : ℕ} (positive : 0 < base) (place n : ℕ) : digit base place n < base :=
  Nat.mod_lt _ positive

theorem sum_digits {base places n : ℕ} (fits : n < base ^ places) :
    ∑ place ∈ Finset.range places, base ^ place * digit base place n = n := by
  have low (places : ℕ) :
      ∑ place ∈ Finset.range places, base ^ place * digit base place n = n % base ^ places := by
    induction places with
    | zero => simp [Nat.mod_one]
    | succ places inductionHypothesis =>
        rw [Finset.sum_range_succ, inductionHypothesis, pow_succ, Nat.mod_mul, digit]
  rw [low, Nat.mod_eq_of_lt fits]

/-- A sum is counted once for each digit down from its own. -/
theorem sum_suffixes (bucket : ℕ → P) (base : ℕ) :
    ∑ l ∈ Finset.Ico 1 base, ∑ j ∈ Finset.Ico l base, bucket j =
      ∑ j ∈ Finset.Ico 1 base, j • bucket j := by
  have exchanged : ∑ l ∈ Finset.Ico 1 base, ∑ j ∈ Finset.Ico l base, bucket j =
      ∑ j ∈ Finset.Ico 1 base, ∑ _l ∈ Finset.Ico 1 (j + 1), bucket j := by
    apply Finset.sum_comm'
    intro l j
    simp only [Finset.mem_Ico]
    omega
  rw [exchanged]
  exact Finset.sum_congr rfl fun j _ => by simp

theorem sum_buckets {ι : Type*} (terms : Finset ι) (digitOf : ι → ℕ) (g : ι → P) {base : ℕ}
    (small : ∀ n ∈ terms, digitOf n < base) :
    ∑ l ∈ Finset.Ico 1 base, l • ∑ n ∈ terms, (if digitOf n = l then g n else 0) =
      ∑ n ∈ terms, digitOf n • g n := by
  simp only [Finset.smul_sum]
  rw [Finset.sum_comm]
  apply Finset.sum_congr rfl
  intro n inside
  by_cases zero : digitOf n = 0
  · rw [zero, zero_smul]
    apply Finset.sum_eq_zero
    intro l between
    rw [Finset.mem_Ico] at between
    rw [if_neg (by omega), smul_zero]
  · rw [Finset.sum_eq_single_of_mem (digitOf n) (Finset.mem_Ico.mpr ⟨by omega, small n inside⟩),
      if_pos rfl]
    intro l _ other
    rw [if_neg (Ne.symm other), smul_zero]

/-- Horner's rule, from the place `places` down. -/
theorem foldr_horner (base : ℕ) (sum : ℕ → P) (places : ℕ) (result : P) :
    (List.range places).foldr (fun place result => base • result + sum place) result =
      ∑ place ∈ Finset.range places, base ^ place • sum place + base ^ places • result := by
  induction places generalizing result with
  | zero => simp
  | succ places inductionHypothesis =>
      rw [List.range_succ, List.foldr_append, List.foldr_cons, List.foldr_nil, inductionHypothesis,
        Finset.sum_range_succ, smul_add, ← mul_smul, ← pow_succ, add_assoc,
        add_comm (base ^ places • sum places)]

/-- The sums of the places make up the sum of the multiples. -/
theorem sum_places {ι : Type*} (terms : Finset ι) (s : ι → ℕ) (g : ι → P) {base places : ℕ}
    (fits : ∀ n ∈ terms, s n < base ^ places) :
    ∑ place ∈ Finset.range places, base ^ place • ∑ n ∈ terms, digit base place (s n) • g n =
      ∑ n ∈ terms, s n • g n := by
  simp only [Finset.smul_sum, ← mul_smul]
  rw [Finset.sum_comm]
  apply Finset.sum_congr rfl
  intro n inside
  rw [← Finset.sum_smul, sum_digits (fits n inside)]

end Windows
