import Mathlib
import Zano.Consensus.ForkChoice

/-! # The fork-choice formula of hardfork 6 orders branches

The formula weighs one branch against another with whole numbers of 1024 bits. A factor that does
not fit into 512 bits, and that the square of the scaled sum is divided into, stands for fractions.
What the divisions cut off is small against the quotients, so that a branch whose quotient is
greater by more than one part in `2 ^ 32` gets the greater weight.
-/

namespace Zano.Consensus

/-! ## The formula in 1024 bits -/

/-- `get_a_to_b_relative_cumulative_difficulty_hf6` with products that wrap around; `none` is a
division by zero. -/
def relativeHf6In1024 (posAtSplit powAtSplit : WideDifficulty)
    (a b : Difficulties) : Option (BitVec 1024) :=
  let aPos := BitVec.ofNat 1024 (orStarter a.posDiff)
  let bPos := BitVec.ofNat 1024 (orStarter b.posDiff)
  let aPow := BitVec.ofNat 1024 (orStarter a.powDiff)
  let bPow := BitVec.ofNat 1024 (orStarter b.powDiff)
  let dPos := posAtSplit.setWidth 1024
  let dPow := powAtSplit.setWidth 1024
  let basicSumScaled := aPow * dPos + aPos * dPow
  let dPosSq := dPos * dPos
  if basicSumScaled * basicSumScaled = 0 then none
  else
    let basicSumPowMinus2 :=
      BitVec.ofNat 1024 adjustingMultiplier * dPosSq / (basicSumScaled * basicSumScaled)
    if bPow * bPos = 0 then none else some (basicSumPowMinus2 * aPow * aPos / (bPow * bPos))

def scaledSum (posAtSplit powAtSplit : WideDifficulty) (a : Difficulties) : Nat :=
  orStarter a.powDiff * posAtSplit.toNat + orStarter a.posDiff * powAtSplit.toNat

/-- The quotient that the second product of the formula starts with. -/
def powMinus2 (posAtSplit powAtSplit : WideDifficulty) (a : Difficulties) : Nat :=
  adjustingMultiplier * (posAtSplit.toNat * posAtSplit.toNat) /
    (scaledSum posAtSplit powAtSplit a * scaledSum posAtSplit powAtSplit a)

/-- All products of the formula, and the sum, without wrapping. -/
def hf6Products (posAtSplit powAtSplit : WideDifficulty) (a b : Difficulties) : List Nat :=
  [adjustingMultiplier, orStarter a.powDiff * posAtSplit.toNat,
    orStarter a.posDiff * powAtSplit.toNat, scaledSum posAtSplit powAtSplit a,
    posAtSplit.toNat * posAtSplit.toNat,
    adjustingMultiplier * (posAtSplit.toNat * posAtSplit.toNat),
    scaledSum posAtSplit powAtSplit a * scaledSum posAtSplit powAtSplit a,
    powMinus2 posAtSplit powAtSplit a * orStarter a.powDiff,
    powMinus2 posAtSplit powAtSplit a * orStarter a.powDiff * orStarter a.posDiff,
    orStarter b.powDiff * orStarter b.posDiff]

/-! ## Truncated quotients -/

/-- What a division cuts off is at most one part in `m` of a quotient that is at least `m`. -/
theorem mul_le_of_le_div {dividend divisor m : Nat} (positive : 0 < divisor)
    (large : m ≤ dividend / divisor) :
    m * dividend ≤ (m + 1) * (dividend / divisor * divisor) := by
  have below : dividend ≤ (dividend / divisor + 1) * divisor := by
    have split := Nat.div_add_mod' dividend divisor
    have rest := Nat.mod_lt dividend positive
    rw [Nat.add_mul]
    omega
  have parts : m * (dividend / divisor + 1) ≤ (m + 1) * (dividend / divisor) := by
    rw [Nat.mul_add, Nat.add_mul]
    omega
  calc m * dividend ≤ m * ((dividend / divisor + 1) * divisor) := Nat.mul_le_mul_left m below
    _ = m * (dividend / divisor + 1) * divisor := (Nat.mul_assoc _ _ _).symm
    _ ≤ (m + 1) * (dividend / divisor) * divisor := Nat.mul_le_mul_right divisor parts
    _ = (m + 1) * (dividend / divisor * divisor) := Nat.mul_assoc _ _ _

theorem quotients_lt {u v na nb : Nat} (uPositive : 0 < u) (vPositive : 0 < v)
    (more : nb * v * v + u * v ≤ na * u * u) : nb * v / u < na * u / v := by
  by_contra notLess
  have below : na * u < (na * u / v + 1) * v := by
    have split := Nat.div_add_mod' (na * u) v
    have rest := Nat.mod_lt (na * u) vPositive
    rw [Nat.add_mul]
    omega
  have most : nb * v / u * u ≤ nb * v := Nat.div_mul_le_self _ _
  have contrary : na * u * u < nb * v * v + u * v := by
    calc na * u * u < (na * u / v + 1) * v * u := Nat.mul_lt_mul_of_pos_right below uPositive
      _ ≤ (nb * v / u + 1) * v * u :=
          Nat.mul_le_mul_right u
            (Nat.mul_le_mul_right v (Nat.succ_le_succ (Nat.le_of_not_lt notLess)))
      _ = nb * v / u * u * v + u * v := by ring
      _ ≤ nb * v * v + u * v := Nat.add_le_add_right (Nat.mul_le_mul_right v most) _
  omega

/-- The squares of the quotients `u / sa` and `v / sb`, times a factor, and truncated. -/
theorem truncated_squares {factor sa sb u v : Nat} (saPositive : 0 < sa) (sbPositive : 0 < sb)
    (large : 2 ^ 40 ≤ factor / (sa * sa)) (clear : (2 ^ 32 + 1) * (v * sa) < 2 ^ 32 * (u * sb)) :
    (2 ^ 33 + 1) * (factor / (sb * sb) * v * v) ≤ 2 ^ 33 * (factor / (sa * sa) * u * u) := by
  have cutOff := mul_le_of_le_div (Nat.mul_pos saPositive saPositive) large
  have most : factor / (sb * sb) * (sb * sb) ≤ factor := Nat.div_mul_le_self _ _
  generalize factor / (sa * sa) = na at *
  generalize factor / (sb * sb) = nb at *
  have squares : ((2 ^ 32 + 1) * (v * sa)) * ((2 ^ 32 + 1) * (v * sa)) ≤
      (2 ^ 32 * (u * sb)) * (2 ^ 32 * (u * sb)) :=
    Nat.mul_le_mul clear.le clear.le
  have scaled : (2 ^ 32 + 1) ^ 2 * 2 ^ 40 * (nb * v * v) * (sa * sa * (sb * sb)) ≤
      (2 ^ 32) ^ 2 * (2 ^ 40 + 1) * (na * u * u) * (sa * sa * (sb * sb)) := by
    calc (2 ^ 32 + 1) ^ 2 * 2 ^ 40 * (nb * v * v) * (sa * sa * (sb * sb))
        = ((2 ^ 32 + 1) * (v * sa)) * ((2 ^ 32 + 1) * (v * sa)) * (2 ^ 40 * (nb * (sb * sb))) := by
          ring
      _ ≤ (2 ^ 32 * (u * sb)) * (2 ^ 32 * (u * sb)) * (2 ^ 40 * factor) :=
          Nat.mul_le_mul squares (Nat.mul_le_mul_left _ most)
      _ ≤ (2 ^ 32 * (u * sb)) * (2 ^ 32 * (u * sb)) * ((2 ^ 40 + 1) * (na * (sa * sa))) :=
          Nat.mul_le_mul_left _ cutOff
      _ = (2 ^ 32) ^ 2 * (2 ^ 40 + 1) * (na * u * u) * (sa * sa * (sb * sb)) := by ring
  have positive : 0 < sa * sa * (sb * sb) :=
    Nat.mul_pos (Nat.mul_pos saPositive saPositive) (Nat.mul_pos sbPositive sbPositive)
  have unscaled := Nat.le_of_mul_le_mul_right scaled positive
  omega

/-- A preference by more than one part in `2 ^ 32` leaves room for both
truncations of the weights. -/
theorem weights_lt {factor sa sb u v : Nat} (saPositive : 0 < sa) (sbPositive : 0 < sb)
    (uPositive : 0 < u) (vPositive : 0 < v) (largeA : 2 ^ 40 ≤ factor / (sa * sa))
    (largeB : 2 ^ 40 ≤ factor / (sb * sb)) (clear : (2 ^ 32 + 1) * (v * sa) < 2 ^ 32 * (u * sb)) :
    factor / (sb * sb) * v / u < factor / (sa * sa) * u / v := by
  have squares := truncated_squares saPositive sbPositive largeA clear
  apply quotients_lt uPositive vPositive
  generalize factor / (sa * sa) = na at *
  generalize factor / (sb * sb) = nb at *
  -- the product of the two weights is the product of the truncated quotients
  have weight : 2 ^ 40 * v ≤ na * u := by
    rw [← Nat.mul_self_le_mul_self_iff]
    calc 2 ^ 40 * v * (2 ^ 40 * v) = 2 ^ 40 * (2 ^ 40 * v * v) := by ring
      _ ≤ na * (nb * v * v) :=
          Nat.mul_le_mul largeA (Nat.mul_le_mul_right v (Nat.mul_le_mul_right v largeB))
      _ ≤ na * (na * u * u) := Nat.mul_le_mul_left na (by omega)
      _ = na * u * (na * u) := by ring
  have room : 2 ^ 40 * (u * v) ≤ na * u * u := by
    calc 2 ^ 40 * (u * v) = 2 ^ 40 * v * u := by ring
      _ ≤ na * u * u := Nat.mul_le_mul_right u weight
  omega

/-! ## Bounds -/

theorem orStarter_pos (diff : WideDifficulty) : 0 < orStarter diff := by
  rw [orStarter]
  split
  · decide
  · rename_i notZero
    rw [Nat.pos_iff_ne_zero]
    exact fun zero => notZero (BitVec.eq_of_toNat_eq zero)

/-- The sums of a branch, against the difficulties at the split. -/
structure InRange (posAtSplit powAtSplit : WideDifficulty) (x : Difficulties) : Prop where
  pow : orStarter x.powDiff ≤ 2 ^ 40 * powAtSplit.toNat
  pos : orStarter x.posDiff ≤ 2 ^ 40 * posAtSplit.toNat

theorem adjustingMultiplier_bounds :
    2 ^ 250 ≤ adjustingMultiplier ∧ adjustingMultiplier ≤ 2 ^ 260 := by
  constructor
  · norm_num [adjustingMultiplier]
  · calc adjustingMultiplier ≤ 2 ^ 128 * 2 ^ 4 * 2 ^ 128 :=
          Nat.mul_le_mul (Nat.mul_le_mul (Nat.sub_le _ _) (by decide)) (Nat.sub_le _ _)
      _ = 2 ^ (128 + 4 + 128) := by rw [Nat.pow_add, Nat.pow_add]

section Bounds

variable {posAtSplit powAtSplit : WideDifficulty} {a b : Difficulties}

theorem split_positive (inRange : InRange posAtSplit powAtSplit a) :
    0 < posAtSplit.toNat ∧ 0 < powAtSplit.toNat := by
  have pow := inRange.pow
  have pos := inRange.pos
  have powPositive := orStarter_pos a.powDiff
  have posPositive := orStarter_pos a.posDiff
  omega

theorem scaledSum_positive (inRange : InRange posAtSplit powAtSplit a) :
    0 < scaledSum posAtSplit powAtSplit a :=
  Nat.add_pos_left (Nat.mul_pos (orStarter_pos a.powDiff) (split_positive inRange).1) _

theorem scaledSum_le (inRange : InRange posAtSplit powAtSplit a)
    (powBound : powAtSplit.toNat ≤ 2 ^ 64) :
    scaledSum posAtSplit powAtSplit a ≤ 2 ^ 105 * posAtSplit.toNat := by
  have first : orStarter a.powDiff * posAtSplit.toNat ≤ 2 ^ 104 * posAtSplit.toNat :=
    Nat.mul_le_mul_right _ (inRange.pow.trans (by omega))
  have second : orStarter a.posDiff * powAtSplit.toNat ≤ 2 ^ 40 * posAtSplit.toNat * 2 ^ 64 :=
    Nat.mul_le_mul inRange.pos powBound
  rw [scaledSum]
  omega

theorem le_scaledSum : posAtSplit.toNat ≤ scaledSum posAtSplit powAtSplit a :=
  (Nat.le_mul_of_pos_left _ (orStarter_pos a.powDiff)).trans (Nat.le_add_right _ _)

theorem powMinus2_large (inRange : InRange posAtSplit powAtSplit a)
    (powBound : powAtSplit.toNat ≤ 2 ^ 64) :
    2 ^ 40 ≤ powMinus2 posAtSplit powAtSplit a := by
  have sum := scaledSum_le inRange powBound
  have positive := scaledSum_positive inRange
  rw [powMinus2, Nat.le_div_iff_mul_le (Nat.mul_pos positive positive)]
  calc 2 ^ 40 * (scaledSum posAtSplit powAtSplit a * scaledSum posAtSplit powAtSplit a)
      ≤ 2 ^ 40 * (2 ^ 105 * posAtSplit.toNat * (2 ^ 105 * posAtSplit.toNat)) :=
        Nat.mul_le_mul_left _ (Nat.mul_le_mul sum sum)
    _ = 2 ^ 250 * (posAtSplit.toNat * posAtSplit.toNat) := by ring
    _ ≤ adjustingMultiplier * (posAtSplit.toNat * posAtSplit.toNat) :=
        Nat.mul_le_mul_right _ adjustingMultiplier_bounds.1

theorem powMinus2_le : powMinus2 posAtSplit powAtSplit a ≤ adjustingMultiplier := by
  apply Nat.div_le_of_le_mul
  rw [Nat.mul_comm]
  exact Nat.mul_le_mul_right _ (Nat.mul_le_mul le_scaledSum le_scaledSum)

/-- No product has more than 500 bits. -/
theorem hf6Products_lt (inRangeA : InRange posAtSplit powAtSplit a)
    (inRangeB : InRange posAtSplit powAtSplit b) (powBound : powAtSplit.toNat ≤ 2 ^ 64)
    (posBound : posAtSplit.toNat ≤ 2 ^ 96) :
    ∀ product ∈ hf6Products posAtSplit powAtSplit a b, product < 2 ^ 1024 := by
  have multiplier := adjustingMultiplier_bounds.2
  have aPow : orStarter a.powDiff ≤ 2 ^ 104 := inRangeA.pow.trans (by omega)
  have aPos : orStarter a.posDiff ≤ 2 ^ 136 := inRangeA.pos.trans (by omega)
  have bPow : orStarter b.powDiff ≤ 2 ^ 104 := inRangeB.pow.trans (by omega)
  have bPos : orStarter b.posDiff ≤ 2 ^ 136 := inRangeB.pos.trans (by omega)
  have sum : scaledSum posAtSplit powAtSplit a ≤ 2 ^ 201 :=
    (scaledSum_le inRangeA powBound).trans (by omega)
  have quotient : powMinus2 posAtSplit powAtSplit a ≤ 2 ^ 260 := powMinus2_le.trans multiplier
  have first := Nat.mul_le_mul aPow posBound
  have second := Nat.mul_le_mul aPos powBound
  have square := Nat.mul_le_mul posBound posBound
  have dividend := Nat.mul_le_mul multiplier square
  have divisor := Nat.mul_le_mul sum sum
  have once := Nat.mul_le_mul quotient aPow
  have twice := Nat.mul_le_mul once aPos
  have last := Nat.mul_le_mul bPow bPos
  have small {n bits : Nat} (bound : bits < 1024) (most : n ≤ 2 ^ bits) : n < 2 ^ 1024 :=
    Nat.lt_of_le_of_lt most (@Nat.pow_lt_pow_right 2 bits 1024 Nat.one_lt_two bound)
  simp only [← Nat.pow_add, Nat.reduceAdd] at first second square dividend divisor once twice last
  simp only [hf6Products, List.forall_mem_cons, List.not_mem_nil, false_imp_iff,
    implies_true, and_true]
  exact ⟨small (by decide) multiplier, small (by decide) first, small (by decide) second,
    small (by decide) sum, small (by decide) square, small (by decide) dividend,
    small (by decide) divisor, small (by decide) once, small (by decide) twice,
    small (by decide) last⟩

/-! ## The order of the weights -/

/-- `Q` of a branch. -/
def preference (posAtSplit powAtSplit : WideDifficulty) (x : Difficulties) : ℚ :=
  (orStarter x.powDiff * orStarter x.posDiff : ℚ) /
    (orStarter x.powDiff * posAtSplit.toNat + orStarter x.posDiff * powAtSplit.toNat)

theorem clear_of_preference (inRangeA : InRange posAtSplit powAtSplit a)
    (inRangeB : InRange posAtSplit powAtSplit b)
    (clear :
      preference posAtSplit powAtSplit b * (1 + 1 / 2 ^ 32) < preference posAtSplit powAtSplit a) :
    (2 ^ 32 + 1) * (orStarter b.powDiff * orStarter b.posDiff * scaledSum posAtSplit powAtSplit a) <
      2 ^ 32 * (orStarter a.powDiff * orStarter a.posDiff * scaledSum posAtSplit powAtSplit b) := by
  have sumA : (0 : ℚ) < scaledSum posAtSplit powAtSplit a :=
    Nat.cast_pos.mpr (scaledSum_positive inRangeA)
  have sumB : (0 : ℚ) < scaledSum posAtSplit powAtSplit b :=
    Nat.cast_pos.mpr (scaledSum_positive inRangeB)
  have asQuotient (x : Difficulties) : preference posAtSplit powAtSplit x =
      (orStarter x.powDiff * orStarter x.posDiff : ℚ) / scaledSum posAtSplit powAtSplit x := by
    rw [preference, scaledSum]
    push_cast
    rfl
  rw [asQuotient, asQuotient, div_mul_eq_mul_div, div_lt_div_iff₀ sumB sumA] at clear
  rw [← @Nat.cast_lt ℚ]
  push_cast
  linarith

/-- The value of the formula, without wrapping. -/
def exactWeight (posAtSplit powAtSplit : WideDifficulty) (a b : Difficulties) : Nat :=
  powMinus2 posAtSplit powAtSplit a * orStarter a.powDiff * orStarter a.posDiff /
    (orStarter b.powDiff * orStarter b.posDiff)

theorem exactWeight_lt (inRangeA : InRange posAtSplit powAtSplit a)
    (inRangeB : InRange posAtSplit powAtSplit b) (powBound : powAtSplit.toNat ≤ 2 ^ 64)
    (clear :
      preference posAtSplit powAtSplit b * (1 + 1 / 2 ^ 32) < preference posAtSplit powAtSplit a) :
    exactWeight posAtSplit powAtSplit b a < exactWeight posAtSplit powAtSplit a b := by
  rw [exactWeight, exactWeight, Nat.mul_assoc, Nat.mul_assoc]
  exact weights_lt (scaledSum_positive inRangeA) (scaledSum_positive inRangeB)
    (Nat.mul_pos (orStarter_pos _) (orStarter_pos _))
      (Nat.mul_pos (orStarter_pos _) (orStarter_pos _))
    (powMinus2_large inRangeA powBound) (powMinus2_large inRangeB powBound)
      (clear_of_preference inRangeA inRangeB clear)

theorem relativeHf6_eq (inRangeA : InRange posAtSplit powAtSplit a) :
    getAToBRelativeCumulativeDifficultyHf6 posAtSplit powAtSplit a b =
      some (exactWeight posAtSplit powAtSplit a b) := by
  have positive := (scaledSum_positive inRangeA).ne'
  rw [scaledSum] at positive
  rw [getAToBRelativeCumulativeDifficultyHf6]
  simp only [if_neg positive, exactWeight, powMinus2, scaledSum]

theorem toNat_orStarter (diff : WideDifficulty) :
    (BitVec.ofNat 1024 (orStarter diff)).toNat = orStarter diff := by
  have wide : orStarter diff < 2 ^ 128 := by
    rw [orStarter]
    split
    · decide
    · exact diff.isLt
  rw [BitVec.toNat_ofNat]
  exact Nat.mod_eq_of_lt (wide.trans (@Nat.pow_lt_pow_right 2 128 1024 Nat.one_lt_two (by decide)))

theorem ne_zero_of_toNat {x : BitVec 1024} {n : Nat} (value : x.toNat = n)
    (positive : 0 < n) : x ≠ 0 := by
  rintro rfl
  simp only [BitVec.ofNat_eq_ofNat, BitVec.toNat_zero] at value
  omega

theorem toNat_setWidth (diff : WideDifficulty) : (diff.setWidth 1024).toNat = diff.toNat :=
  BitVec.toNat_setWidth_of_le (by decide)

/-- What does not wrap around is computed as it should be. -/
theorem relativeHf6In1024_eq (inRangeA : InRange posAtSplit powAtSplit a)
    (inRangeB : InRange posAtSplit powAtSplit b) (powBound : powAtSplit.toNat ≤ 2 ^ 64)
    (posBound : posAtSplit.toNat ≤ 2 ^ 96) :
    ∃ weight, relativeHf6In1024 posAtSplit powAtSplit a b = some weight ∧
      weight.toNat = exactWeight posAtSplit powAtSplit a b := by
  have small := hf6Products_lt inRangeA inRangeB powBound posBound
  simp only [hf6Products, List.forall_mem_cons, List.not_mem_nil, false_imp_iff, implies_true,
    and_true] at small
  obtain ⟨multiplier, first, second, sum, square, dividend, divisor, once, twice, last⟩ := small
  rw [relativeHf6In1024]
  have aPow := toNat_orStarter a.powDiff
  have aPos := toNat_orStarter a.posDiff
  have bPow := toNat_orStarter b.powDiff
  have bPos := toNat_orStarter b.posDiff
  have dPos := toNat_setWidth posAtSplit
  have dPow := toNat_setWidth powAtSplit
  have isMultiplier : (BitVec.ofNat 1024 adjustingMultiplier).toNat = adjustingMultiplier := by
    rw [BitVec.toNat_ofNat]
    exact Nat.mod_eq_of_lt multiplier
  generalize BitVec.ofNat 1024 (orStarter a.powDiff) = aPow1024 at *
  generalize BitVec.ofNat 1024 (orStarter a.posDiff) = aPos1024 at *
  generalize BitVec.ofNat 1024 (orStarter b.powDiff) = bPow1024 at *
  generalize BitVec.ofNat 1024 (orStarter b.posDiff) = bPos1024 at *
  generalize posAtSplit.setWidth 1024 = dPos1024 at *
  generalize powAtSplit.setWidth 1024 = dPow1024 at *
  generalize BitVec.ofNat 1024 adjustingMultiplier = multiplier1024 at *
  have isFirst : (aPow1024 * dPos1024).toNat = orStarter a.powDiff * posAtSplit.toNat := by
    rw [BitVec.toNat_mul_of_lt (by rwa [aPow, dPos]), aPow, dPos]
  have isSecond : (aPos1024 * dPow1024).toNat = orStarter a.posDiff * powAtSplit.toNat := by
    rw [BitVec.toNat_mul_of_lt (by rwa [aPos, dPow]), aPos, dPow]
  have isSum :
      (aPow1024 * dPos1024 + aPos1024 * dPow1024).toNat = scaledSum posAtSplit powAtSplit a := by
    rw [BitVec.toNat_add_of_lt (by rwa [isFirst, isSecond]), isFirst, isSecond, scaledSum]
  generalize aPow1024 * dPos1024 + aPos1024 * dPow1024 = sum1024 at *
  have isDivisor : (sum1024 * sum1024).toNat =
      scaledSum posAtSplit powAtSplit a * scaledSum posAtSplit powAtSplit a := by
    rw [BitVec.toNat_mul_of_lt (by rwa [isSum]), isSum]
  have isSquare : (dPos1024 * dPos1024).toNat = posAtSplit.toNat * posAtSplit.toNat := by
    rw [BitVec.toNat_mul_of_lt (by rwa [dPos]), dPos]
  have isDividend : (multiplier1024 * (dPos1024 * dPos1024)).toNat =
      adjustingMultiplier * (posAtSplit.toNat * posAtSplit.toNat) := by
    rw [BitVec.toNat_mul_of_lt (by rwa [isMultiplier, isSquare]), isMultiplier, isSquare]
  have isQuotient : (multiplier1024 * (dPos1024 * dPos1024) / (sum1024 * sum1024)).toNat =
      powMinus2 posAtSplit powAtSplit a := by
    rw [BitVec.toNat_udiv, isDividend, isDivisor, powMinus2]
  have sumPositive := scaledSum_positive inRangeA
  have notZero : sum1024 * sum1024 ≠ 0 :=
    ne_zero_of_toNat isDivisor (Nat.mul_pos sumPositive sumPositive)
  generalize multiplier1024 * (dPos1024 * dPos1024) / (sum1024 * sum1024) = quotient1024 at *
  have isLast : (bPow1024 * bPos1024).toNat = orStarter b.powDiff * orStarter b.posDiff := by
    rw [BitVec.toNat_mul_of_lt (by rwa [bPow, bPos]), bPow, bPos]
  have lastNotZero : bPow1024 * bPos1024 ≠ 0 :=
    ne_zero_of_toNat isLast (Nat.mul_pos (orStarter_pos b.powDiff) (orStarter_pos b.posDiff))
  have isOnce : (quotient1024 * aPow1024).toNat =
      powMinus2 posAtSplit powAtSplit a * orStarter a.powDiff := by
    rw [BitVec.toNat_mul_of_lt (by rwa [isQuotient, aPow]), isQuotient, aPow]
  have isTwice : (quotient1024 * aPow1024 * aPos1024).toNat =
      powMinus2 posAtSplit powAtSplit a * orStarter a.powDiff * orStarter a.posDiff := by
    rw [BitVec.toNat_mul_of_lt (by rwa [isOnce, aPos]), isOnce, aPos]
  refine ⟨quotient1024 * aPow1024 * aPos1024 /
    (bPow1024 * bPos1024), by simp only [if_neg notZero, if_neg lastNotZero], ?_⟩
  rw [BitVec.toNat_udiv, isTwice, isLast, exactWeight]

/-- What the formula promises for two branches. -/
structure OrdersBranches (posAtSplit powAtSplit : WideDifficulty) (a b : Difficulties) : Prop where
  noWrap : ∀ product ∈ hf6Products posAtSplit powAtSplit a b, product < 2 ^ 1024
  divides : scaledSum posAtSplit powAtSplit a ≠ 0 ∧ orStarter b.powDiff * orStarter b.posDiff ≠ 0
  exact : ∃ weight, relativeHf6In1024 posAtSplit powAtSplit a b = some weight ∧
    getAToBRelativeCumulativeDifficultyHf6 posAtSplit powAtSplit a b = some weight.toNat
  orders :
    preference posAtSplit powAtSplit b * (1 + 1 / 2 ^ 32) < preference posAtSplit powAtSplit a →
    ∃ weightA weightB, relativeHf6In1024 posAtSplit powAtSplit a b = some weightA ∧
      relativeHf6In1024 posAtSplit powAtSplit b a = some weightB ∧ weightB < weightA

/-- A sum of zero counts as the starter difficulty, so that all sums are at least one. -/
theorem hf6_orders_branches (powBound : powAtSplit.toNat ≤ 2 ^ 64)
    (posBound : posAtSplit.toNat ≤ 2 ^ 96) (inRangeA : InRange posAtSplit powAtSplit a)
    (inRangeB : InRange posAtSplit powAtSplit b) :
    OrdersBranches posAtSplit powAtSplit a b := by
  obtain ⟨weightA, computedA, exactA⟩ := relativeHf6In1024_eq inRangeA inRangeB powBound posBound
  obtain ⟨weightB, computedB, exactB⟩ := relativeHf6In1024_eq inRangeB inRangeA powBound posBound
  refine ⟨hf6Products_lt inRangeA inRangeB powBound posBound,
    ⟨(scaledSum_positive inRangeA).ne', ?_⟩, ⟨weightA, computedA, ?_⟩, fun clear =>
      ⟨weightA, weightB, computedA, computedB, ?_⟩⟩
  · exact (Nat.mul_pos (orStarter_pos b.powDiff) (orStarter_pos b.posDiff)).ne'
  · rw [relativeHf6_eq inRangeA, exactA]
  · rw [BitVec.lt_def, exactA, exactB]
    exact exactWeight_lt inRangeA inRangeB powBound clear

/-- A branch with one block of either type more. -/
theorem hf6_orders_branches_more : OrdersBranches 1000 1000 ⟨2000, 2000⟩ ⟨1000, 1000⟩ :=
  hf6_orders_branches (by decide) (by decide) ⟨by decide, by decide⟩ ⟨by decide, by decide⟩

end Bounds

end Zano.Consensus
