import Mathlib

/-! # Splitting an amount at random

An amount is split into a number of parts, each of which has few digits but for the last one. A part
is an equal share of what is left, cut to its first digits and then varied by half of it in either
direction. It never takes so much that nothing would be left for the parts after it, which is why
all of them are positive.
-/

namespace Zano.Wallet.AmountSplit

def currencyTxOutsRndSplitDigitsToKeep : ℕ := 3

/-- The loop multiplies by ten without looking for an overflow. -/
def boundary (numDigitsToKeep : ℕ) : UInt64 :=
  if numDigitsToKeep ≠ currencyTxOutsRndSplitDigitsToKeep then
    (· * 10)^[numDigitsToKeep] 1 else 1000

/-- The loop of `trim_digits_and_add_variance`, for as many rounds as a number can have digits, and
one. It has not ended after these only if it never ends. -/
def trimDigits (boundary : UInt64) : ℕ → UInt64 → UInt64 → Option (UInt64 × UInt64)
  | 0, _, _ => none
  | rounds + 1, v, multiplier =>
      if boundary ≤ v then trimDigits boundary rounds (v / 10) (multiplier * 10)
      else some (v, multiplier)

def trimDigitsAndAddVariance (numDigitsToKeep : ℕ) (rand v : UInt64) : Option UInt64 :=
  if numDigitsToKeep ≠ 0 ∧ 1 < v then
    (trimDigits (boundary numDigitsToKeep) 21 v 1).map fun (v, multiplier) =>
      (v / 2 + rand % (v + 1)) * multiplier
  else some v

/-- The loop of `decompose_amount_randomly`, with `left` rounds to go. -/
def splitLoop (numDigitsToKeep : ℕ) (rand : ℕ → UInt64) : ℕ → UInt64 → Option (List UInt64)
  | 0, amountRemaining => some [amountRemaining]
  | left + 1, amountRemaining =>
      if 1 < amountRemaining then do
        let chunkAmount ← trimDigitsAndAddVariance numDigitsToKeep (rand left)
            (amountRemaining / UInt64.ofNat (left + 2))
        let rest ← splitLoop numDigitsToKeep rand left (amountRemaining - chunkAmount)
        some (chunkAmount :: rest)
      else some [amountRemaining]

/-- What the callback is given. It is `none` if the call does not return. -/
def decomposeAmountRandomly (rand : ℕ → UInt64) (amount : UInt64)
    (numberOfOutputs numDigitsToKeep : ℕ) :
    Option (List UInt64) :=
  if amount.toNat < numberOfOutputs then some []
  else splitLoop numDigitsToKeep rand (numberOfOutputs - 1) amount

/-! ## Cutting digits -/

/-- Two digits are kept at least, so the first ones are at least 10. -/
theorem le_boundary {numDigitsToKeep : ℕ} (atLeastTwo : 2 ≤ numDigitsToKeep)
    (below : numDigitsToKeep < 64) :
    20 ≤ (boundary numDigitsToKeep).toNat := by
  interval_cases numDigitsToKeep <;> decide

/-- What is cut and what it is multiplied by. -/
theorem trimDigits_spec {boundary v multiplier : UInt64} {rounds bound : ℕ}
    (high : 20 ≤ boundary.toNat) (enough : v.toNat < 10 ^ rounds) (atLeastTwo : 2 ≤ v.toNat)
    (positive : 0 < multiplier.toNat) (fits : v.toNat * multiplier.toNat ≤ bound)
    (small : bound < 2 ^ 63) :
    ∃ cut factor, trimDigits boundary (rounds + 1) v multiplier = some (cut, factor) ∧
      2 ≤ cut.toNat ∧ 0 < factor.toNat ∧ cut.toNat * factor.toNat ≤ bound := by
  induction rounds generalizing v multiplier with
  | zero => omega
  | succ rounds inductionHypothesis =>
      rw [trimDigits]
      split
      · next isHigh =>
          rw [UInt64.le_iff_toNat_le] at isHigh
          have isTenth : (v / 10).toNat = v.toNat / 10 := UInt64.toNat_div _ _
          have room : v.toNat / 10 * (multiplier.toNat * 10) ≤ bound := by
            calc v.toNat / 10 * (multiplier.toNat * 10)
              _ = v.toNat / 10 * 10 * multiplier.toNat := by ring
              _ ≤ v.toNat * multiplier.toNat := Nat.mul_le_mul_right _ (Nat.div_mul_le_self _ _)
              _ ≤ bound := fits
          have tenth : 1 ≤ v.toNat / 10 := by omega
          have isTenfold : (multiplier * 10).toNat = multiplier.toNat * 10 := by
            rw [UInt64.toNat_mul]
            apply Nat.mod_eq_of_lt
            change multiplier.toNat * 10 < 2 ^ 64
            have atMost := (Nat.mul_le_mul_right (multiplier.toNat * 10) tenth).trans room
            omega
          apply inductionHypothesis
          · rw [isTenth]
            rw [pow_succ] at enough
            omega
          · rw [isTenth]
            omega
          · rw [isTenfold]
            omega
          · rwa [isTenth, isTenfold]
      · exact ⟨v, multiplier, rfl, atLeastTwo, positive, fits⟩

/-- A share that is varied is neither nothing nor more than half as much again. -/
theorem trimDigitsAndAddVariance_spec {numDigitsToKeep : ℕ} {v : UInt64} (rand : UInt64)
    (keeps : numDigitsToKeep = 0 ∨ 2 ≤ numDigitsToKeep ∧ numDigitsToKeep < 64)
    (positive : 0 < v.toNat) (small : v.toNat < 2 ^ 63) :
    ∃ chunk, trimDigitsAndAddVariance numDigitsToKeep rand v = some chunk ∧ 0 < chunk.toNat ∧
      chunk.toNat ≤ v.toNat + v.toNat / 2 ∧ (v.toNat = 1 → chunk.toNat = 1) := by
  rw [trimDigitsAndAddVariance]
  have isLarge : (1 : UInt64) < v ↔ 1 < v.toNat := UInt64.lt_iff_toNat_lt
  split
  · next isTrimmed =>
      have atLeastTwo := isLarge.mp isTrimmed.2
      obtain ⟨cut, factor, isCut, cutLarge, factorLarge, fits⟩ :=
        @trimDigits_spec (boundary numDigitsToKeep) v 1 20 v.toNat
          (le_boundary (by omega) (by omega)) (by omega) atLeastTwo Nat.one_pos
            (by rw [UInt64.toNat_one, mul_one]) small
      have cutSmall : cut.toNat ≤ v.toNat := (Nat.le_mul_of_pos_right _ factorLarge).trans fits
      have isNext : (cut + 1).toNat = cut.toNat + 1 := by
        rw [UInt64.toNat_add, UInt64.toNat_one]
        omega
      have isVariance : (rand % (cut + 1)).toNat ≤ cut.toNat := by
        rw [UInt64.toNat_mod, isNext]
        exact Nat.le_of_lt_succ (Nat.mod_lt _ (Nat.succ_pos _))
      have isVaried :
          (cut / 2 + rand % (cut + 1)).toNat = cut.toNat / 2 + (rand % (cut + 1)).toNat := by
        rw [UInt64.toNat_add, show (cut / 2).toNat = cut.toNat / 2 from UInt64.toNat_div _ _]
        omega
      have room :
          (cut.toNat / 2 + (rand % (cut + 1)).toNat) * factor.toNat ≤ v.toNat + v.toNat / 2 := by
        have half : cut.toNat / 2 * factor.toNat ≤ v.toNat / 2 := by
          rw [Nat.le_div_iff_mul_le Nat.two_pos]
          calc cut.toNat / 2 * factor.toNat * 2 = cut.toNat / 2 * 2 * factor.toNat := by ring
            _ ≤ cut.toNat * factor.toNat := Nat.mul_le_mul_right _ (Nat.div_mul_le_self _ _)
            _ ≤ v.toNat := fits
        have whole := (Nat.mul_le_mul_right factor.toNat isVariance).trans fits
        rw [Nat.add_mul]
        omega
      have isChunk : ((cut / 2 + rand % (cut + 1)) * factor).toNat =
          (cut.toNat / 2 + (rand % (cut + 1)).toNat) * factor.toNat := by
        rw [UInt64.toNat_mul, isVaried]
        apply Nat.mod_eq_of_lt
        omega
      refine ⟨_, by rw [isCut]; rfl, ?_, ?_, by omega⟩
      · rw [isChunk]
        exact Nat.mul_pos (by omega) factorLarge
      · rw [isChunk]
        exact room
  · next notTrimmed => exact ⟨v, rfl, positive, by omega, fun isOne => isOne⟩

/-! ## Parts -/

/-- What is left is at least one for each part to come, so every part gets something. -/
theorem splitLoop_spec {numDigitsToKeep : ℕ} (rand : ℕ → UInt64)
    (keeps : numDigitsToKeep = 0 ∨ 2 ≤ numDigitsToKeep ∧ numDigitsToKeep < 64) {left : ℕ}
    {amountRemaining : UInt64} (enough : left + 1 ≤ amountRemaining.toNat) :
    ∃ parts, splitLoop numDigitsToKeep rand left amountRemaining = some parts ∧
      parts.length = left + 1 ∧
      (∀ part ∈ parts, 0 < part) ∧ (parts.map UInt64.toNat).sum = amountRemaining.toNat := by
  induction left generalizing amountRemaining with
  | zero =>
      refine ⟨[amountRemaining], rfl, rfl, ?_, by simp⟩
      intro part isPart
      rw [List.mem_singleton.mp isPart]
      exact UInt64.lt_iff_toNat_lt.mpr enough
  | succ left inductionHypothesis =>
      have below := amountRemaining.toNat_lt
      have isLarge : 1 < amountRemaining :=
        UInt64.lt_iff_toNat_lt.mpr (by rw [UInt64.toNat_one]; omega)
      have isDivisor : (UInt64.ofNat (left + 2)).toNat = left + 2 := by
        rw [UInt64.toNat_ofNat']
        exact Nat.mod_eq_of_lt (by omega)
      have isShare : (amountRemaining / UInt64.ofNat (left + 2)).toNat =
          amountRemaining.toNat / (left + 2) := by
        rw [UInt64.toNat_div, isDivisor]
      have positive : 0 < amountRemaining.toNat / (left + 2) := Nat.div_pos (by omega) (by omega)
      have atMostHalf : amountRemaining.toNat / (left + 2) ≤ amountRemaining.toNat / 2 :=
        Nat.div_le_div_left (by omega) (by omega)
      obtain ⟨chunk, isChunk, chunkPositive, chunkFits, chunkOne⟩ :=
        @trimDigitsAndAddVariance_spec numDigitsToKeep
        (amountRemaining / UInt64.ofNat (left + 2)) (rand left) keeps (by rwa [isShare])
          (by rw [isShare]; omega)
      rw [isShare] at chunkFits chunkOne
      have laterEnough :
          left + 1 ≤ amountRemaining.toNat - chunk.toNat ∧ chunk.toNat ≤ amountRemaining.toNat := by
        have shares := Nat.div_mul_le_self amountRemaining.toNat (left + 2)
        have forOthers := Nat.le_mul_of_pos_left left positive
        rw [Nat.mul_add] at shares
        by_cases isOne : amountRemaining.toNat / (left + 2) = 1
        · have one := chunkOne isOne
          omega
        · omega
      have isRest : (amountRemaining - chunk).toNat = amountRemaining.toNat - chunk.toNat :=
        UInt64.toNat_sub_of_le _ _ (UInt64.le_iff_toNat_le.mpr laterEnough.2)
      obtain ⟨parts, areParts, length, allPositive, sum⟩ :=
        @inductionHypothesis (amountRemaining - chunk) (by rw [isRest]; exact laterEnough.1)
      refine ⟨chunk :: parts, ?_, by rw [List.length_cons, length], ?_, ?_⟩
      · rw [splitLoop, if_pos isLarge, isChunk]
        simp [areParts]
      · exact List.forall_mem_cons.mpr ⟨UInt64.lt_iff_toNat_lt.mpr chunkPositive, allPositive⟩
      · rw [List.map_cons, List.sum_cons, sum, isRest]
        omega

/-- Every amount that is enough for them is split into that many positive parts. -/
theorem decomposeAmountRandomly_spec (rand : ℕ → UInt64) {amount : UInt64}
    {numberOfOutputs numDigitsToKeep : ℕ}
    (keeps : numDigitsToKeep = 0 ∨ 2 ≤ numDigitsToKeep ∧ numDigitsToKeep < 64)
    (some_ : 0 < numberOfOutputs) (enough : numberOfOutputs ≤ amount.toNat) :
    ∃ parts, decomposeAmountRandomly rand amount numberOfOutputs numDigitsToKeep = some parts ∧
      parts.length = numberOfOutputs ∧ (∀ part ∈ parts, 0 < part) ∧
        (parts.map UInt64.toNat).sum = amount.toNat := by
  obtain ⟨parts, areParts, length, allPositive, sum⟩ :=
    @splitLoop_spec numDigitsToKeep rand keeps (numberOfOutputs - 1) amount (by omega)
  refine ⟨parts, ?_, by omega, allPositive, sum⟩
  rw [decomposeAmountRandomly, if_neg (by omega), areParts]

end Zano.Wallet.AmountSplit
