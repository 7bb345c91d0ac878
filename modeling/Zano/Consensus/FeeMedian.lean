import Mathlib

/-! # The median of the fees of a block

The median is taken over all fees for a block of an alternative chain and over the fees that are not
zero for a block of the main chain. A zero fee moves the middle of the list towards the lower fees;
whether the median moves with it depends on the fees between the two middles only.
-/

namespace Zano.Consensus

/-- `epee::misc_utils::median`. -/
def median (v : List UInt64) : UInt64 :=
  match v with
  | [] => 0
  | [fee] => fee
  | v =>
      let sorted := v.insertionSort (· ≤ ·)
      let upper := sorted.getD (v.length / 2) 0
      if v.length % 2 = 0 then (upper + sorted.getD (v.length / 2 - 1) 0) / 2 else upper

/-- The fee at a place of the sorted list. -/
def feeAt (fees : List UInt64) (place : Nat) : Nat :=
  ((fees.insertionSort (· ≤ ·)).getD place 0).toNat

def paidFees (fees : List UInt64) : List UInt64 :=
  fees.filter (· ≠ 0)

/-- The zero fees do not change the median: there are none of them, or no others, or the fees
from the one middle to the other are the same, the upper one of an even number excepted,
which may be one more. -/
def FreeNotFelt (fees : List UInt64) : Prop :=
  fees.count 0 = 0 ∨ paidFees fees = [] ∨
    (fees.count 0 < (paidFees fees).length ∧
      feeAt (paidFees fees) (((paidFees fees).length - 1 - fees.count 0) / 2) =
        feeAt (paidFees fees) (((paidFees fees).length - 1) / 2) ∧
      feeAt (paidFees fees) ((paidFees fees).length / 2) ≤
        feeAt (paidFees fees) (((paidFees fees).length - 1) / 2) + 1 ∧
      feeAt (paidFees fees) ((paidFees fees).length / 2) < 2 ^ 63)

instance (fees : List UInt64) : Decidable (FreeNotFelt fees) := by
  unfold FreeNotFelt
  infer_instance

variable {fees : List UInt64}

theorem feeAt_mono {low high : Nat} (ordered : low ≤ high) (inside : high < fees.length) :
    feeAt fees low ≤ feeAt fees high := by
  have length : (fees.insertionSort (· ≤ ·)).length = fees.length :=
    List.length_insertionSort _ fees
  have sorted : (fees.insertionSort (· ≤ ·)).Pairwise (· ≤ ·) := List.pairwise_insertionSort _ fees
  rw [List.pairwise_iff_getElem] at sorted
  rw [feeAt, feeAt, List.getD_eq_getElem _ _ (by omega), List.getD_eq_getElem _ _ (by omega)]
  rcases Nat.lt_or_eq_of_le ordered with below | rfl
  · exact UInt64.le_iff_toNat_le.mp (sorted low high (by omega) (by omega) below)
  · exact Nat.le_refl _

/-- At most one fee and none at all are no cases of their own. -/
theorem median_eq (fees : List UInt64) :
    median fees =
      if fees.length % 2 = 0 then
        ((fees.insertionSort (· ≤ ·)).getD (fees.length / 2) 0 +
          (fees.insertionSort (· ≤ ·)).getD (fees.length / 2 - 1) 0) / 2
      else (fees.insertionSort (· ≤ ·)).getD (fees.length / 2) 0 := by
  unfold median
  split
  · rfl
  · simp
  · rfl

/-- The mean of the lower and the upper middle, which are one place in a list of odd length. The
upper one has to be small enough for the sum. -/
theorem median_toNat (small : feeAt fees (fees.length / 2) < 2 ^ 63) :
    (median fees).toNat =
      (feeAt fees ((fees.length - 1) / 2) + feeAt fees (fees.length / 2)) / 2 := by
  rw [median_eq]
  split
  · next even =>
      have below : feeAt fees (fees.length / 2 - 1) ≤ feeAt fees (fees.length / 2) := by
        rcases Nat.eq_zero_or_pos fees.length with empty | positive
        · rw [empty]
        · exact feeAt_mono (by omega) (by omega)
      have lower : (fees.length - 1) / 2 = fees.length / 2 - 1 := by omega
      rw [lower, UInt64.toNat_div, UInt64.toNat_add]
      change (feeAt fees _ + feeAt fees _) % 2 ^ 64 / 2 = _
      rw [Nat.mod_eq_of_lt (by omega), Nat.add_comm]
  · next odd =>
      have lower : (fees.length - 1) / 2 = fees.length / 2 := by omega
      rw [lower, ← Nat.two_mul, Nat.mul_div_cancel_left _ (by decide)]
      rfl

/-! ## Fees with zeros among them -/

theorem insertionSort_eq (fees : List UInt64) :
    fees.insertionSort (· ≤ ·) =
      List.replicate (fees.count 0) 0 ++ (paidFees fees).insertionSort (· ≤ ·) := by
  have split_ : (fees.insertionSort (· ≤ ·)).Perm
      (List.replicate (fees.count 0) 0 ++ (paidFees fees).insertionSort (· ≤ ·)) := by
    have apart : (fees.filter (· = 0) ++ fees.filter fun fee => !decide (fee = 0)).Perm fees :=
      List.filter_append_perm (· = 0) fees
    rw [List.filter_eq] at apart
    have paid : (fees.filter fun fee => !decide (fee = 0)) = paidFees fees := by
      simp only [paidFees, ne_eq, decide_not]
    rw [paid] at apart
    calc (fees.insertionSort (· ≤ ·)).Perm fees := List.perm_insertionSort _ fees
      _ |>.Perm _ := apart.symm
      _ |>.Perm _ := List.Perm.append_left _ (List.perm_insertionSort _ (paidFees fees)).symm
  refine split_.eq_of_pairwise ?_ (List.pairwise_insertionSort _ fees) ?_
  · intro a b _ _ le ge
    exact UInt64.le_antisymm le ge
  · rw [List.pairwise_append]
    refine ⟨List.pairwise_replicate.mpr (Or.inr (UInt64.le_refl 0)),
      List.pairwise_insertionSort _ _, ?_⟩
    intro free isFree fee _
    rw [List.eq_of_mem_replicate isFree]
    exact UInt64.zero_le

theorem length_eq (fees : List UInt64) : fees.length = fees.count 0 + (paidFees fees).length := by
  have lengths := congrArg List.length (insertionSort_eq fees)
  rwa [List.length_append, List.length_replicate, List.length_insertionSort,
    List.length_insertionSort] at lengths

theorem feeAt_eq (fees : List UInt64) (place : Nat) :
    feeAt fees place = if place < fees.count 0 then 0
      else feeAt (paidFees fees) (place - fees.count 0) := by
  rw [feeAt, insertionSort_eq]
  split
  · next free =>
      rw [List.getD_append _ _ _ _ (by rwa [List.length_replicate]), List.getD_replicate _ free]
      rfl
  · next paid => rw [List.getD_append_right _ _ _ _ (by rw [List.length_replicate]; omega),
      List.length_replicate, feeAt]

theorem feeAt_paidFees_pos {place : Nat} (inside : place < (paidFees fees).length) :
    0 < feeAt (paidFees fees) place := by
  have within : place < ((paidFees fees).insertionSort (· ≤ ·)).length := by
    rwa [List.length_insertionSort]
  have isPaid : ((paidFees fees).insertionSort (· ≤ ·))[place] ∈ paidFees fees :=
    (List.perm_insertionSort _ (paidFees fees)).mem_iff.mp (List.getElem_mem within)
  have nonzero := of_decide_eq_true (List.mem_filter.mp isPaid).2
  rw [feeAt, List.getD_eq_getElem _ _ within]
  apply Nat.pos_of_ne_zero
  intro zero
  exact nonzero (UInt64.toNat_inj.mp zero)

/-- With fewer zeros than other fees, both middles are among the others. -/
theorem median_toNat_free (fewer : fees.count 0 < (paidFees fees).length)
    (small : feeAt (paidFees fees) (((paidFees fees).length - fees.count 0) / 2) < 2 ^ 63) :
    (median fees).toNat =
      (feeAt (paidFees fees) (((paidFees fees).length - 1 - fees.count 0) / 2) +
        feeAt (paidFees fees) (((paidFees fees).length - fees.count 0) / 2)) / 2 := by
  have length := length_eq fees
  have lower : (fees.length - 1) / 2 - fees.count 0 =
      ((paidFees fees).length - 1 - fees.count 0) / 2 := by omega
  have upper : fees.length / 2 - fees.count 0 = ((paidFees fees).length - fees.count 0) / 2 := by
    omega
  have atUpper : feeAt fees (fees.length / 2) =
      feeAt (paidFees fees) (((paidFees fees).length - fees.count 0) / 2) := by
    rw [feeAt_eq, if_neg (by omega), upper]
  have atLower : feeAt fees ((fees.length - 1) / 2) =
      feeAt (paidFees fees) (((paidFees fees).length - 1 - fees.count 0) / 2) := by
    rw [feeAt_eq, if_neg (by omega), lower]
  rw [median_toNat (by rwa [atUpper]), atLower, atUpper]

theorem median_eq_of_freeNotFelt (notFelt : FreeNotFelt fees) :
    median fees = median (paidFees fees) := by
  by_cases noFree : fees.count 0 = 0
  · have all : paidFees fees = fees := by
      rw [paidFees, List.filter_eq_self]
      intro fee inside
      rw [decide_eq_true_eq]
      rintro rfl
      exact List.count_eq_zero.mp noFree inside
    rw [all]
  · rcases notFelt with noFree' | noPaid | ⟨fewer, low, high, small⟩
    · exact absurd noFree' noFree
    · have zeros : ∀ place, feeAt fees place = 0 := by
        intro place
        rw [feeAt_eq, noPaid]
        split <;> rfl
      apply UInt64.toNat_inj.mp
      rw [median_toNat (by rw [zeros]; decide), noPaid, zeros, zeros]
      rfl
    · have rise : feeAt (paidFees fees) (((paidFees fees).length - 1 - fees.count 0) / 2) ≤
          feeAt (paidFees fees) (((paidFees fees).length - fees.count 0) / 2) :=
            feeAt_mono (by omega) (by omega)
      have between : feeAt (paidFees fees) (((paidFees fees).length - fees.count 0) / 2) ≤
          feeAt (paidFees fees) (((paidFees fees).length - 1) / 2) :=
            feeAt_mono (by omega) (by omega)
      have top : feeAt (paidFees fees) (((paidFees fees).length - 1) / 2) ≤
          feeAt (paidFees fees) ((paidFees fees).length / 2) := feeAt_mono (by omega) (by omega)
      apply UInt64.toNat_inj.mp
      rw [median_toNat small, median_toNat_free fewer (by omega)]
      omega

theorem feeAt_lt {bound : Nat} (positive : 0 < bound) (small : ∀ fee ∈ fees, fee.toNat < bound)
    (place : Nat) :
    feeAt fees place < bound := by
  rw [feeAt, List.getD_eq_getElem?_getD]
  cases isThere : (fees.insertionSort (· ≤ ·))[place]? with
  | none => exact positive
  | some fee =>
      apply small fee
      exact (List.perm_insertionSort _ fees).mem_iff.mp (List.mem_of_getElem? isThere)

/-- The other direction, where no sum of two fees wraps around. -/
theorem freeNotFelt_of_median_eq (small : ∀ fee ∈ fees, fee.toNat < 2 ^ 63)
    (same : median fees = median (paidFees fees)) : FreeNotFelt fees := by
  by_cases noFree : fees.count 0 = 0
  · exact Or.inl noFree
  by_cases noPaid : paidFees fees = []
  · exact Or.inr (Or.inl noPaid)
  have somePaid := List.length_pos_iff.mpr noPaid
  have paidSmall : ∀ place, feeAt (paidFees fees) place < 2 ^ 63 :=
    feeAt_lt (by decide) fun fee inside => small fee (List.mem_filter.mp inside).1
  have medians := congrArg UInt64.toNat same
  rw [median_toNat (paidSmall _)] at medians
  have top : feeAt (paidFees fees) (((paidFees fees).length - 1) / 2) ≤
      feeAt (paidFees fees) ((paidFees fees).length / 2) := feeAt_mono (by omega) (by omega)
  by_cases fewer : fees.count 0 < (paidFees fees).length
  · rw [median_toNat_free fewer (paidSmall _)] at medians
    have rise : feeAt (paidFees fees) (((paidFees fees).length - 1 - fees.count 0) / 2) ≤
        feeAt (paidFees fees) (((paidFees fees).length - fees.count 0) / 2) :=
          feeAt_mono (by omega) (by omega)
    have between : feeAt (paidFees fees) (((paidFees fees).length - fees.count 0) / 2) ≤
        feeAt (paidFees fees) (((paidFees fees).length - 1) / 2) := feeAt_mono (by omega) (by omega)
    exact Or.inr (Or.inr ⟨fewer, by omega, by omega, paidSmall _⟩)
  · -- the lower middle is a zero and the upper one at most the least fee that is not
    exfalso
    have length := length_eq fees
    have lower : feeAt fees ((fees.length - 1) / 2) = 0 := by
      rw [feeAt_eq, if_pos (by omega)]
    have upper : feeAt fees (fees.length / 2) ≤ feeAt (paidFees fees) 0 := by
      rw [feeAt_eq]
      split
      · exact Nat.zero_le _
      · exact feeAt_mono (by omega) (by omega)
    have least :
        feeAt (paidFees fees) 0 ≤ feeAt (paidFees fees) (((paidFees fees).length - 1) / 2) :=
      feeAt_mono (by omega) (by omega)
    have positive := feeAt_paidFees_pos somePaid
    rw [median_toNat (feeAt_lt (by decide) small _), lower] at medians
    omega

end Zano.Consensus
