import Mathlib.Data.Nat.Digits.Defs
import Mathlib.Tactic.Common
import Mathlib.Tactic.Ring

/-! # Numbers in limbs

A number is a list of limbs to a base, the lowest first. Two of them are added limb by limb with a
chain of carries, and the carry out of the last limb says whether the sum has more limbs than they
have. A product of a limb and a number is a sum of two such numbers, so that the same chain says
whether it fits.
-/

namespace Limbs

/-- The carry out of the sums of these pairs of limbs, lowest first, with a carry into the first. -/
def carryOut (base : ℕ) : List (ℕ × ℕ) → Bool → Bool
  | [], carry => carry
  | (a, b) :: limbs, carry => carryOut base limbs (decide (base ≤ a + b + carry.toNat))

variable {base : ℕ}

/-- By induction on the limbs: what is left of the lowest two is below the base and does not reach
the higher ones. -/
theorem carryOut_iff {limbs : List (ℕ × ℕ)} (inBase : ∀ limb ∈ limbs, limb.1 < base ∧ limb.2 < base)
    (carry : Bool) :
    carryOut base limbs carry = true ↔
      base ^ limbs.length ≤ Nat.ofDigits base (limbs.map (·.1)) +
        Nat.ofDigits base (limbs.map (·.2)) + carry.toNat := by
  induction limbs generalizing carry with
  | nil => cases carry <;> simp [carryOut]
  | cons limb limbs inductionHypothesis =>
      obtain ⟨a, b⟩ := limb
      obtain ⟨⟨smallA, smallB⟩, later⟩ := List.forall_mem_cons.mp inBase
      have oneCarry : carry.toNat ≤ 1 := Bool.toNat_le carry
      have whole : Nat.ofDigits base (((a, b) :: limbs).map (·.1)) +
          Nat.ofDigits base (((a, b) :: limbs).map (·.2)) +
          carry.toNat =
            (a + b + carry.toNat) + base *
              (Nat.ofDigits base (limbs.map (·.1)) + Nat.ofDigits base (limbs.map (·.2))) := by
        simp only [List.map_cons, Nat.ofDigits_cons]
        ring
      rw [carryOut, inductionHypothesis later, whole, List.length_cons, Nat.pow_succ]
      generalize Nat.ofDigits base (limbs.map (·.1)) + Nat.ofDigits base (limbs.map (·.2)) = higher
      have positive : 0 < base := by omega
      by_cases carries : base ≤ a + b + carry.toNat
      · have split : a + b + carry.toNat + base * higher =
            a + b + carry.toNat - base + base * (higher + 1) := by
          rw [Nat.mul_add]
          omega
        rw [decide_eq_true carries, Bool.toNat_true, split, Nat.mul_comm _ base]
        constructor
        · intro reaches
          exact (Nat.mul_le_mul_left base reaches).trans (Nat.le_add_left _ _)
        · intro reaches
          have below : base * base ^ limbs.length < base * (higher + 1 + 1) := by
            rw [Nat.mul_add base (higher + 1) 1]
            omega
          exact Nat.le_of_lt_succ (Nat.lt_of_mul_lt_mul_left below)
      · rw [decide_eq_false carries, Bool.toNat_false, Nat.mul_comm _ base, Nat.add_zero]
        constructor
        · intro reaches
          exact (Nat.mul_le_mul_left base reaches).trans (Nat.le_add_left _ _)
        · intro reaches
          have below : base * base ^ limbs.length < base * (higher + 1) := by
            rw [Nat.mul_add base higher 1]
            omega
          exact Nat.le_of_lt_succ (Nat.lt_of_mul_lt_mul_left below)

/-- A digit of a quotient, when what the digits before it have left is below the divisor. -/
theorem quotient_lt {digit rest divisor : ℕ} (digitSmall : digit < base) (below : rest < divisor) :
    (rest * base + digit) / divisor < base := by
  rw [Nat.div_lt_iff_lt_mul (Nat.zero_lt_of_lt below)]
  calc rest * base + digit < rest * base + base := Nat.add_lt_add_left digitSmall _
    _ = (rest + 1) * base := (Nat.succ_mul rest base).symm
    _ ≤ divisor * base := Nat.mul_le_mul_right base below
    _ = base * divisor := Nat.mul_comm _ _

/-- One step of a long division, after a part `number` that gave `quotient` and left `rest`. -/
theorem longDivision_step {number digit quotient next rest left divisor : ℕ}
    (before : divisor * quotient + rest = number)
    (step : divisor * next + left = rest * base + digit) :
    divisor * (quotient * base + next) + left = number * base + digit := by
  calc divisor * (quotient * base + next) + left
      = divisor * quotient * base + (divisor * next + left) := by ring
    _ = (divisor * quotient + rest) * base + digit := by rw [step]; ring
    _ = number * base + digit := by rw [before]

/-- The low digits of a number, and the high ones. -/
theorem ofDigits_take_drop {digits : List ℕ} {k : ℕ} (enough : k ≤ digits.length) :
    Nat.ofDigits base digits =
      Nat.ofDigits base (digits.take k) + base ^ k * Nat.ofDigits base (digits.drop k) := by
  have split := @Nat.ofDigits_append base (digits.take k) (digits.drop k)
  rwa [List.take_append_drop, List.length_take_of_le enough] at split

end Limbs
