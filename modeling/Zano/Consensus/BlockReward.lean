import Mathlib
import Zano.Lib.Limbs

/-! # Block reward

A block that is larger than the median gets less than the base reward, and one that is more than
twice as large gets nothing. The product of the reward with the two sizes has more than 64 bits, so
it is computed in halves and divided twice, digit by digit in base 2³².
-/

namespace Zano.BlockReward

/-! ## Arithmetic of 128 bits -/

def hiDword (val : UInt64) : UInt64 := val >>> 32

def loDword (val : UInt64) : UInt64 := val &&& 0xFFFFFFFF

/-- The low half and the high half of the product, or nothing when the assertion
at the end fails. -/
def mul128Manually (multiplier multiplicand : UInt64) : Option (UInt64 × UInt64) :=
  let a := hiDword multiplier
  let b := loDword multiplier
  let c := hiDword multiplicand
  let d := loDword multiplicand
  let ac := a * c
  let ad := a * d
  let bc := b * c
  let bd := b * d
  let adbc := ad + bc
  let adbcCarry : UInt64 := if adbc < ad then 1 else 0
  let productLo := bd + (adbc <<< 32)
  let productLoCarry : UInt64 := if productLo < bd then 1 else 0
  let productHi := ac + (adbc >>> 32) + (adbcCarry <<< 32) + productLoCarry
  if ac ≤ productHi then some (productLo, productHi) else none

/-- The quotient and the new remainder. -/
def divWithReminder (dividend : UInt64) (divisor remainder : UInt32) : UInt64 × UInt32 :=
  let whole := dividend ||| (remainder.toUInt64 <<< 32)
  (whole / divisor.toUInt64, (whole % divisor.toUInt64).toUInt32)

/-- The remainder, the high half and the low half of the quotient. -/
def div128By32Manually (dividendHi dividendLo : UInt64) (divisor : UInt32) :
    UInt32 × UInt64 × UInt64 :=
  let digit3 := divWithReminder (hiDword dividendHi) divisor 0
  let digit2 := divWithReminder (loDword dividendHi) divisor digit3.2
  let digit1 := divWithReminder (hiDword dividendLo) divisor digit2.2
  let digit0 := divWithReminder (loDword dividendLo) divisor digit1.2
  (digit0.2, digit3.1 <<< 32 ||| digit2.1, digit1.1 <<< 32 ||| digit0.1)

/-! ## The reward -/

def grantedFullRewardZone : UInt64 := 125000

inductive RewardError where
  | tooBig
  | multiplication
  | rewardHi
  | notBelowBaseReward
  deriving DecidableEq, Repr

/-- The arguments that the function ignores are left out. -/
def getBlockReward (getBaseBlockReward : UInt64 → UInt64)
    (medianSize currentBlockSize height : UInt64) :
    Except RewardError UInt64 :=
  let baseReward := getBaseBlockReward height
  let medianSize := if medianSize < grantedFullRewardZone then grantedFullRewardZone else medianSize
  if currentBlockSize ≤ medianSize ∨ height = 0 then .ok baseReward
  else if currentBlockSize > 2 * medianSize then .error .tooBig
  else
    let multiplicand := (2 * medianSize - currentBlockSize) * currentBlockSize
    match mul128Manually baseReward multiplicand with
    | none => .error .multiplication
    | some (productLo, productHi) =>
        let (_, onceHi, onceLo) := div128By32Manually productHi productLo medianSize.toUInt32
        let (_, rewardHi, rewardLo) := div128By32Manually onceHi onceLo medianSize.toUInt32
        if 0 = rewardHi then
          if rewardLo < baseReward then .ok rewardLo else .error .notBelowBaseReward
        else .error .rewardHi

/-! ## Halves -/

theorem toNat_hiDword (val : UInt64) : (hiDword val).toNat = val.toNat / 2 ^ 32 := by
  simp [hiDword, Nat.shiftRight_eq_div_pow]

theorem toNat_loDword (val : UInt64) : (loDword val).toNat = val.toNat % 2 ^ 32 := by
  have mask : (0xFFFFFFFF : UInt64).toNat = 2 ^ 32 - 1 := rfl
  rw [loDword, UInt64.toNat_and, mask, Nat.and_two_pow_sub_one_eq_mod]

theorem toNat_shiftLeft (val : UInt64) : (val <<< 32).toNat = val.toNat * 2 ^ 32 % 2 ^ 64 := by
  simp [Nat.shiftLeft_eq]

theorem toNat_shiftRight (val : UInt64) : (val >>> 32).toNat = val.toNat / 2 ^ 32 :=
  toNat_hiDword val

/-- Two digits side by side. -/
theorem toNat_or_shiftLeft {low high : UInt64} (lowSmall : low.toNat < 2 ^ 32)
    (highSmall : high.toNat < 2 ^ 32) :
    (low ||| high <<< 32).toNat = high.toNat * 2 ^ 32 + low.toNat := by
  have fits : high.toNat * 2 ^ 32 % 2 ^ 64 = high.toNat <<< 32 := by
    rw [Nat.shiftLeft_eq]
    omega
  rw [UInt64.toNat_or, toNat_shiftLeft, fits, Nat.or_comm, ← Nat.shiftLeft_add_eq_or_of_lt lowSmall,
    Nat.shiftLeft_eq]

/-! ## Multiplication -/

theorem mul_lt {a b : Nat} (aSmall : a < 2 ^ 32) (bSmall : b < 2 ^ 32) :
    a * b ≤ 2 ^ 64 - 2 ^ 33 + 1 := by
  have most : a * b ≤ (2 ^ 32 - 1) * (2 ^ 32 - 1) := Nat.mul_le_mul (by omega) (by omega)
  omega

theorem toNat_mul_small {a b : UInt64} (aSmall : a.toNat < 2 ^ 32) (bSmall : b.toNat < 2 ^ 32) :
    (a * b).toNat = a.toNat * b.toNat := by
  rw [UInt64.toNat_mul, Nat.mod_eq_of_lt]
  have := mul_lt aSmall bSmall
  omega

/-- A sum that is below its first summand has wrapped around. -/
theorem add_carry (x y : UInt64) :
    x.toNat + y.toNat = (if x + y < x then 1 else 0 : UInt64).toNat * 2 ^ 64 + (x + y).toNat := by
  have xSmall := x.toNat_lt
  have ySmall := y.toNat_lt
  have sum := UInt64.toNat_add x y
  split
  · rename_i wrapped
    rw [UInt64.lt_iff_toNat_lt] at wrapped
    have one : (1 : UInt64).toNat = 1 := rfl
    omega
  · rename_i kept
    rw [UInt64.lt_iff_toNat_lt] at kept
    have zero : (0 : UInt64).toNat = 0 := rfl
    omega

theorem carry_le (x y : UInt64) : (if x + y < x then 1 else 0 : UInt64).toNat ≤ 1 := by
  split <;> decide

theorem mul128Manually_eq (multiplier multiplicand : UInt64) :
    ∃ lo hi, mul128Manually multiplier multiplicand = some (lo, hi) ∧
      hi.toNat * 2 ^ 64 + lo.toNat = multiplier.toNat * multiplicand.toNat := by
  have multiplierSmall := multiplier.toNat_lt
  have multiplicandSmall := multiplicand.toNat_lt
  have splitMultiplier :
      multiplier.toNat = (hiDword multiplier).toNat * 2 ^ 32 + (loDword multiplier).toNat := by
    rw [toNat_hiDword, toNat_loDword]
    omega
  have splitMultiplicand :
      multiplicand.toNat =
        (hiDword multiplicand).toNat * 2 ^ 32 + (loDword multiplicand).toNat := by
    rw [toNat_hiDword, toNat_loDword]
    omega
  have whole : multiplier.toNat * multiplicand.toNat < 2 ^ 64 * 2 ^ 64 := by
    exact Nat.mul_lt_mul'' multiplierSmall multiplicandSmall
  rw [mul128Manually]
  have aSmall : (hiDword multiplier).toNat < 2 ^ 32 := by omega
  have bSmall : (loDword multiplier).toNat < 2 ^ 32 := by rw [toNat_loDword]; omega
  have cSmall : (hiDword multiplicand).toNat < 2 ^ 32 := by omega
  have dSmall : (loDword multiplicand).toNat < 2 ^ 32 := by rw [toNat_loDword]; omega
  generalize hiDword multiplier = a at *
  generalize loDword multiplier = b at *
  generalize hiDword multiplicand = c at *
  generalize loDword multiplicand = d at *
  have product : multiplier.toNat * multiplicand.toNat =
      a.toNat * c.toNat * 2 ^ 64 + (a.toNat * d.toNat + b.toNat * c.toNat) * 2 ^ 32 +
        b.toNat * d.toNat := by
    rw [splitMultiplier, splitMultiplicand]
    ring
  have ac := toNat_mul_small aSmall cSmall
  have ad := toNat_mul_small aSmall dSmall
  have bc := toNat_mul_small bSmall cSmall
  have bd := toNat_mul_small bSmall dSmall
  have adMost := mul_lt aSmall dSmall
  have bcMost := mul_lt bSmall cSmall
  have bdMost := mul_lt bSmall dSmall
  have first := add_carry (a * d) (b * c)
  have second := add_carry (b * d) ((a * d + b * c) <<< 32)
  have shifted := toNat_shiftLeft (a * d + b * c)
  have shiftedBack := toNat_shiftRight (a * d + b * c)
  have firstCarry := carry_le (a * d) (b * c)
  have secondCarry := carry_le (b * d) ((a * d + b * c) <<< 32)
  generalize (if a * d + b * c < a * d then 1 else 0 : UInt64) = adbcCarry at *
  generalize (if b * d + (a * d + b * c) <<< 32 < b * d then 1 else 0 : UInt64) =
    productLoCarry at *
  rw [product] at whole ⊢
  rw [← ac, ← ad, ← bc, ← bd] at whole ⊢
  rw [← ad] at adMost
  rw [← bc] at bcMost
  rw [← bd] at bdMost
  have carryShifted := toNat_shiftLeft adbcCarry
  have high : (a * c + (a * d + b * c) >>> 32 + adbcCarry <<< 32 + productLoCarry).toNat =
      (a * c).toNat + ((a * d + b * c) >>> 32).toNat + adbcCarry.toNat * 2 ^ 32 +
        productLoCarry.toNat := by
    simp only [UInt64.toNat_add (_ + _), UInt64.toNat_add (a * c), carryShifted]
    omega
  refine ⟨b * d + (a * d + b * c) <<< 32, _, if_pos ?_, ?_⟩
  · rw [UInt64.le_iff_toNat_le, high]
    omega
  · rw [high]
    omega

/-! ## Division -/

variable {dividend dividendHi dividendLo : UInt64} {divisor remainder : UInt32}

theorem divWithReminder_eq (small : dividend.toNat < 2 ^ 32)
    (below : remainder.toNat < divisor.toNat) :
    ∃ quotient left, divWithReminder dividend divisor remainder = (quotient, left) ∧
      divisor.toNat * quotient.toNat + left.toNat = remainder.toNat * 2 ^ 32 + dividend.toNat ∧
      quotient.toNat < 2 ^ 32 ∧ left.toNat < divisor.toNat := by
  have divisorSmall := divisor.toNat_lt
  have whole : (dividend ||| remainder.toUInt64 <<< 32).toNat =
      remainder.toNat * 2 ^ 32 + dividend.toNat := by
    rw [toNat_or_shiftLeft small (by simpa using remainder.toNat_lt), UInt32.toNat_toUInt64]
  have rest : (remainder.toNat * 2 ^ 32 + dividend.toNat) % divisor.toNat < divisor.toNat :=
    Nat.mod_lt _ (by omega)
  have left : ((dividend ||| remainder.toUInt64 <<< 32) % divisor.toUInt64).toUInt32.toNat =
      (remainder.toNat * 2 ^ 32 + dividend.toNat) % divisor.toNat := by
    rw [UInt64.toNat_toUInt32, UInt64.toNat_mod, UInt32.toNat_toUInt64, whole]
    exact Nat.mod_eq_of_lt (by omega)
  refine ⟨_, _, rfl, ?_, ?_, by omega⟩
  · rw [left, UInt64.toNat_div, UInt32.toNat_toUInt64, whole, Nat.div_add_mod]
  · rw [UInt64.toNat_div, UInt32.toNat_toUInt64, whole]
    exact Limbs.quotient_lt small below

theorem div128By32Manually_eq (positive : 0 < divisor.toNat) :
    ∃ remainder hi lo, div128By32Manually dividendHi dividendLo divisor = (remainder, hi, lo) ∧
      hi.toNat * 2 ^ 64 + lo.toNat =
        (dividendHi.toNat * 2 ^ 64 + dividendLo.toNat) / divisor.toNat ∧
      remainder.toNat = (dividendHi.toNat * 2 ^ 64 + dividendLo.toNat) % divisor.toNat := by
  have hiSmall := dividendHi.toNat_lt
  have loSmall := dividendLo.toNat_lt
  have n3 := toNat_hiDword dividendHi
  have n2 := toNat_loDword dividendHi
  have n1 := toNat_hiDword dividendLo
  have n0 := toNat_loDword dividendLo
  have noRemainder : (0 : UInt32).toNat < divisor.toNat := positive
  obtain ⟨q3, r3, digit3, step3, q3Small, below3⟩ :=
    divWithReminder_eq (by omega : (hiDword dividendHi).toNat < 2 ^ 32) noRemainder
  obtain ⟨q2, r2, digit2, step2, q2Small, below2⟩ :=
    divWithReminder_eq (by omega : (loDword dividendHi).toNat < 2 ^ 32) below3
  obtain ⟨q1, r1, digit1, step1, q1Small, below1⟩ :=
    divWithReminder_eq (by omega : (hiDword dividendLo).toNat < 2 ^ 32) below2
  obtain ⟨q0, r0, digit0, step0, q0Small, below0⟩ :=
    divWithReminder_eq (by omega : (loDword dividendLo).toNat < 2 ^ 32) below1
  refine ⟨r0, q3 <<< 32 ||| q2, q1 <<< 32 ||| q0, ?_, ?_⟩
  · simp only [div128By32Manually, digit3, digit2, digit1, digit0]
  · have zero : (0 : UInt32).toNat = 0 := rfl
    rw [zero, Nat.zero_mul, Nat.zero_add] at step3
    have whole := Limbs.longDivision_step
      (Limbs.longDivision_step (Limbs.longDivision_step step3 step2) step1) step0
    have dividendDigits :
        (((hiDword dividendHi).toNat * 2 ^ 32 + (loDword dividendHi).toNat) * 2 ^ 32 +
        (hiDword dividendLo).toNat) * 2 ^ 32 + (loDword dividendLo).toNat =
          dividendHi.toNat * 2 ^ 64 + dividendLo.toNat := by omega
    have quotientDigits : ((q3.toNat * 2 ^ 32 + q2.toNat) * 2 ^ 32 + q1.toNat) * 2 ^ 32 + q0.toNat =
        (q3 <<< 32 ||| q2).toNat * 2 ^ 64 + (q1 <<< 32 ||| q0).toNat := by
      rw [UInt64.or_comm, toNat_or_shiftLeft q2Small q3Small, UInt64.or_comm,
        toNat_or_shiftLeft q0Small q1Small]
      ring
    rw [dividendDigits, quotientDigits, Nat.add_comm] at whole
    obtain ⟨quotient, left⟩ := (Nat.div_mod_unique positive).mpr ⟨whole, below0⟩
    exact ⟨quotient.symm, left.symm⟩

/-! ## The penalty -/

/-- The product of the two sizes is a difference of squares. -/
theorem sizes_eq {m c : Nat} (above : m ≤ c) (notTooBig : c ≤ 2 * m) :
    (2 * m - c) * c = m * m - (c - m) * (c - m) := by
  rw [Nat.mul_self_sub_mul_self_eq, Nat.mul_comm]
  congr 1 <;> omega

theorem sizes_lt {m c : Nat} (above : m < c) (notTooBig : c ≤ 2 * m) : (2 * m - c) * c < m * m := by
  have square : 0 < (c - m) * (c - m) := Nat.mul_pos (by omega) (by omega)
  have whole : 0 < m * m := Nat.mul_pos (by omega) (by omega)
  rw [sizes_eq above.le notTooBig]
  omega

theorem sizes_le {m c other : Nat} (above : m ≤ c) (larger : c ≤ other)
    (notTooBig : other ≤ 2 * m) :
    (2 * m - other) * other ≤ (2 * m - c) * c := by
  have squares : (c - m) * (c - m) ≤ (other - m) * (other - m) :=
    Nat.mul_le_mul (by omega) (by omega)
  rw [sizes_eq above (by omega), sizes_eq (by omega) notTooBig]
  omega

theorem penalized_lt {r m c : Nat} (positive : 0 < r) (above : m < c) (notTooBig : c ≤ 2 * m) :
    r * ((2 * m - c) * c) / m / m < r := by
  rw [Nat.div_div_eq_div_mul, Nat.div_lt_iff_lt_mul (Nat.mul_pos (by omega) (by omega))]
  exact (Nat.mul_lt_mul_left positive).mpr (sizes_lt above notTooBig)

section Reward

variable (getBaseBlockReward : UInt64 → UInt64) {medianSize height currentBlockSize : UInt64}

theorem reward_of_not_above (isAboveZone : grantedFullRewardZone ≤ medianSize)
    (notAbove : currentBlockSize ≤ medianSize) :
    getBlockReward getBaseBlockReward medianSize currentBlockSize height =
      .ok (getBaseBlockReward height) := by
  simp [getBlockReward, UInt64.not_lt.mpr isAboveZone, notAbove]

omit getBaseBlockReward in
theorem double_toNat (small : medianSize.toNat < 2 ^ 32) :
    (2 * medianSize).toNat = 2 * medianSize.toNat := by
  have two : (2 : UInt64).toNat = 2 := rfl
  rw [UInt64.toNat_mul, two]
  omega

theorem reward_of_tooBig (isAboveZone : grantedFullRewardZone ≤ medianSize)
    (small : medianSize.toNat < 2 ^ 32) (notFirst : height ≠ 0)
    (tooBig : 2 * medianSize.toNat < currentBlockSize.toNat) :
    getBlockReward getBaseBlockReward medianSize currentBlockSize height = .error .tooBig := by
  have double := double_toNat small
  have above : ¬currentBlockSize ≤ medianSize := by
    rw [UInt64.le_iff_toNat_le]
    omega
  have moreThanDouble : 2 * medianSize < currentBlockSize := by
    rw [UInt64.lt_iff_toNat_lt]
    omega
  simp [getBlockReward, UInt64.not_lt.mpr isAboveZone, above, notFirst, moreThanDouble]

theorem reward_of_above (isAboveZone : grantedFullRewardZone ≤ medianSize)
    (small : medianSize.toNat < 2 ^ 32) (notFirst : height ≠ 0)
    (positive : 0 < (getBaseBlockReward height).toNat)
    (above : medianSize.toNat < currentBlockSize.toNat)
    (notTooBig : currentBlockSize.toNat ≤ 2 * medianSize.toNat) :
    ∃ reward, getBlockReward getBaseBlockReward medianSize currentBlockSize height = .ok reward ∧
      reward.toNat = (getBaseBlockReward height).toNat *
        ((2 * medianSize.toNat - currentBlockSize.toNat) * currentBlockSize.toNat) /
          medianSize.toNat / medianSize.toNat := by
  have double := double_toNat small
  have isAbove : ¬currentBlockSize ≤ medianSize := by
    rw [UInt64.le_iff_toNat_le]
    omega
  have atMostDouble : ¬2 * medianSize < currentBlockSize := by
    rw [UInt64.lt_iff_toNat_lt]
    omega
  have sizes : ((2 * medianSize - currentBlockSize) * currentBlockSize).toNat =
      (2 * medianSize.toNat - currentBlockSize.toNat) * currentBlockSize.toNat := by
    have fits : medianSize.toNat * medianSize.toNat < 2 ^ 32 * 2 ^ 32 :=
      Nat.mul_lt_mul'' small small
    have less := sizes_lt above notTooBig
    rw [UInt64.toNat_mul, UInt64.toNat_sub_of_le _ _ (UInt64.not_lt.mp atMostDouble), double]
    exact Nat.mod_eq_of_lt (by omega)
  have divisor : medianSize.toUInt32.toNat = medianSize.toNat := by
    rw [UInt64.toNat_toUInt32]
    exact Nat.mod_eq_of_lt small
  obtain ⟨productLo, productHi, multiplied, product⟩ :=
    mul128Manually_eq (getBaseBlockReward height)
      ((2 * medianSize - currentBlockSize) * currentBlockSize)
  obtain ⟨onceRest, onceHi, onceLo, dividedOnce, once, -⟩ :=
    @div128By32Manually_eq productHi productLo medianSize.toUInt32 (by omega)
  obtain ⟨twiceRest, rewardHi, rewardLo, dividedTwice, twice, -⟩ :=
    @div128By32Manually_eq onceHi onceLo medianSize.toUInt32 (by omega)
  rw [once, product, sizes, divisor] at twice
  have less := penalized_lt positive above notTooBig
  have baseSmall := (getBaseBlockReward height).toNat_lt
  have noHi : 0 = rewardHi := by
    rw [← UInt64.toNat_inj]
    have zero : (0 : UInt64).toNat = 0 := rfl
    omega
  have isBelow : rewardLo < getBaseBlockReward height := by
    rw [UInt64.lt_iff_toNat_lt]
    omega
  refine ⟨rewardLo, ?_, ?_⟩
  · simp only [getBlockReward, if_neg (UInt64.not_lt.mpr isAboveZone), isAbove, notFirst,
      or_self, if_false, gt_iff_lt, atMostDouble, multiplied, dividedOnce, dividedTwice,
      if_pos noHi, if_pos isBelow]
  · have zero : rewardHi.toNat = 0 := by
      rw [← noHi]
      rfl
    omega

/-- What is expected of the reward for a block of any size. -/
structure ExactPenalty (base : UInt64) (median : Nat)
    (reward : UInt64 → Except RewardError UInt64) : Prop where
  full : ∀ size : UInt64, size.toNat ≤ median → reward size = .ok base
  fails : ∀ size : UInt64, (∃ error, reward size = .error error) ↔ 2 * median < size.toNat
  noAssertion : ∀ size error, reward size = .error error → error = .tooBig
  penalized : ∀ size : UInt64, median < size.toNat → size.toNat ≤ 2 * median →
    ∃ r, reward size = .ok r ∧
    r.toNat = base.toNat * (2 * median - size.toNat) * size.toNat / median / median ∧
    r.toNat = base.toNat * (2 * median - size.toNat) * size.toNat / median ^ 2 ∧ r < base
  antitone : ∀ (size other r s : UInt64), size ≤ other → reward size = .ok r →
    reward other = .ok s → s ≤ r

theorem exactPenalty (isAboveZone : grantedFullRewardZone ≤ medianSize)
    (small : medianSize.toNat < 2 ^ 32) (notFirst : height ≠ 0)
    (positive : 0 < (getBaseBlockReward height).toNat) :
    ExactPenalty (getBaseBlockReward height) medianSize.toNat fun size =>
      getBlockReward getBaseBlockReward medianSize size height := by
  have full (size : UInt64) (notAbove : size.toNat ≤ medianSize.toNat) :
      getBlockReward getBaseBlockReward medianSize size height = .ok (getBaseBlockReward height) :=
    reward_of_not_above getBaseBlockReward isAboveZone (UInt64.le_iff_toNat_le.mpr notAbove)
  have tooBig (size : UInt64) (isTooBig : 2 * medianSize.toNat < size.toNat) :
      getBlockReward getBaseBlockReward medianSize size height = .error .tooBig :=
    reward_of_tooBig getBaseBlockReward isAboveZone small notFirst isTooBig
  have above (size : UInt64) (isAbove : medianSize.toNat < size.toNat) (notTooBig : size.toNat ≤
      2 * medianSize.toNat) :=
    reward_of_above getBaseBlockReward isAboveZone small notFirst positive isAbove notTooBig
  refine ⟨full, fun size => ⟨?_, fun isTooBig => ⟨_, tooBig size isTooBig⟩⟩,
    fun size error failed => ?_, fun size isAbove notTooBig =>
      ?_, fun size other r s larger isR isS => ?_⟩
  · rintro ⟨error, failed⟩
    by_contra notTooBig
    by_cases isAbove : medianSize.toNat < size.toNat
    · obtain ⟨reward, ok, -⟩ := above size isAbove (by omega)
      cases failed.symm.trans ok
    · cases failed.symm.trans (full size (by omega))
  · by_cases isTooBig : 2 * medianSize.toNat < size.toNat
    · exact (Except.error.inj ((tooBig size isTooBig).symm.trans failed)).symm
    · by_cases isAbove : medianSize.toNat < size.toNat
      · obtain ⟨reward, ok, -⟩ := above size isAbove (by omega)
        cases failed.symm.trans ok
      · cases failed.symm.trans (full size (by omega))
  · obtain ⟨reward, ok, value⟩ := above size isAbove notTooBig
    have less := penalized_lt positive isAbove notTooBig
    refine ⟨reward, ok, ?_, ?_, ?_⟩
    · rw [value, Nat.mul_assoc]
    · rw [value, Nat.mul_assoc, Nat.div_div_eq_div_mul, Nat.pow_two]
    · rw [UInt64.lt_iff_toNat_lt]
      omega
  · rw [UInt64.le_iff_toNat_le] at larger ⊢
    have notTooBig : other.toNat ≤ 2 * medianSize.toNat := by
      by_contra isTooBig
      cases (tooBig other (by omega)).symm.trans isS
    by_cases otherAbove : medianSize.toNat < other.toNat
    · obtain ⟨penalized, ok, value⟩ := above other otherAbove notTooBig
      obtain rfl : penalized = s := Except.ok.inj (ok.symm.trans isS)
      have less := penalized_lt positive otherAbove notTooBig
      by_cases isAbove : medianSize.toNat < size.toNat
      · obtain ⟨larger', okSize, valueSize⟩ := above size isAbove (by omega)
        obtain rfl : larger' = r := Except.ok.inj (okSize.symm.trans isR)
        rw [value, valueSize]
        exact Nat.div_le_div_right
          (Nat.div_le_div_right (Nat.mul_le_mul_left _ (sizes_le isAbove.le larger notTooBig)))
      · obtain rfl : getBaseBlockReward height = r :=
          Except.ok.inj ((full size (by omega)).symm.trans isR)
        omega
    · obtain rfl : getBaseBlockReward height = r :=
        Except.ok.inj ((full size (by omega)).symm.trans isR)
      obtain rfl : getBaseBlockReward height = s :=
        Except.ok.inj ((full other (by omega)).symm.trans isS)
      exact Nat.le_refl _

/-- The penalty, and the arithmetic that it is computed with. -/
theorem getBlockReward_exact (isAboveZone : grantedFullRewardZone ≤ medianSize)
    (small : medianSize.toNat < 2 ^ 32) (notFirst : height ≠ 0)
    (positive : 0 < (getBaseBlockReward height).toNat) :
    (ExactPenalty (getBaseBlockReward height) medianSize.toNat fun size =>
      getBlockReward getBaseBlockReward medianSize size height) ∧
    (∀ multiplier multiplicand, ∃ lo hi, mul128Manually multiplier multiplicand = some (lo, hi) ∧
      hi.toNat * 2 ^ 64 + lo.toNat = multiplier.toNat * multiplicand.toNat) ∧
    ∀ (dividendHi dividendLo : UInt64) (divisor : UInt32), 0 < divisor.toNat →
      ∃ remainder hi lo, div128By32Manually dividendHi dividendLo divisor = (remainder, hi, lo) ∧
        hi.toNat * 2 ^ 64 + lo.toNat =
          (dividendHi.toNat * 2 ^ 64 + dividendLo.toNat) / divisor.toNat ∧
        remainder.toNat = (dividendHi.toNat * 2 ^ 64 + dividendLo.toNat) % divisor.toNat :=
  ⟨exactPenalty getBaseBlockReward isAboveZone small notFirst positive, mul128Manually_eq,
    fun _ _ _ positive => div128By32Manually_eq positive⟩

end Reward

/-- `get_base_block_reward`. -/
def getBaseBlockReward (height : UInt64) : UInt64 :=
  if height = 0 then 17517203000000000000 else 1000000000000

theorem getBlockReward_exact_zone :
    ExactPenalty 1000000000000 125000 fun size => getBlockReward getBaseBlockReward 125000 size 1 :=
  (@getBlockReward_exact getBaseBlockReward 125000 1 (by decide) (by decide) (by decide)
    (by decide)).1

end Zano.BlockReward
