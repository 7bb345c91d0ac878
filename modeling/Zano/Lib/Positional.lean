import Mathlib

/-! # Numerals of a fixed width

A number below a power of a base has exactly one list of that many numerals, the highest first.
`numerals` makes it and `value` takes it back. Neither leaves out zeros in front, so that the width
is part of what is written.
-/

namespace Positional

variable {base : ℕ}

def numerals (base : ℕ) : ℕ → ℕ → List ℕ
  | 0, _ => []
  | width + 1, v => numerals base width (v / base) ++ [v % base]

def value (base : ℕ) (digits : List ℕ) : ℕ := digits.foldl (fun v digit => v * base + digit) 0

@[simp]
theorem length_numerals (width v : ℕ) : (numerals base width v).length = width := by
  induction width generalizing v with
  | zero => rfl
  | succ width inductionHypothesis =>
      rw [numerals, List.length_append, inductionHypothesis, List.length_singleton]

theorem numerals_lt (positive : 0 < base) (width v : ℕ) :
    ∀ digit ∈ numerals base width v, digit < base := by
  induction width generalizing v with
  | zero => simp [numerals]
  | succ width inductionHypothesis =>
      intro digit inside
      rw [numerals, List.mem_append, List.mem_singleton] at inside
      cases inside with
      | inl above => exact inductionHypothesis _ digit above
      | inr last => exact last ▸ Nat.mod_lt v positive

@[simp]
theorem value_nil : value base [] = 0 := rfl

theorem value_snoc (digits : List ℕ) (digit : ℕ) :
    value base (digits ++ [digit]) = value base digits * base + digit := by
  rw [value, List.foldl_append]
  rfl

theorem value_cons (digit : ℕ) (digits : List ℕ) :
    value base (digit :: digits) = digit * base ^ digits.length + value base digits := by
  induction digits using List.reverseRecOn with
  | nil => simp [value]
  | append_singleton digits last inductionHypothesis =>
      rw [← List.cons_append, value_snoc, inductionHypothesis, value_snoc, List.length_append,
        List.length_singleton]
      ring

theorem value_lt {digits : List ℕ} (below : ∀ digit ∈ digits, digit < base) :
    value base digits < base ^ digits.length := by
  induction digits with
  | nil => simp
  | cons digit digits inductionHypothesis =>
      obtain ⟨here, later⟩ := List.forall_mem_cons.mp below
      have rest := inductionHypothesis later
      have first : (digit + 1) * base ^ digits.length ≤ base * base ^ digits.length :=
        Nat.mul_le_mul_right _ here
      rw [value_cons, List.length_cons, Nat.pow_succ']
      calc digit * base ^ digits.length + value base digits
          < digit * base ^ digits.length + base ^ digits.length := by omega
        _ = (digit + 1) * base ^ digits.length := by ring
        _ ≤ base * base ^ digits.length := first

theorem value_numerals {width v : ℕ} (fits : v < base ^ width) :
    value base (numerals base width v) = v := by
  induction width generalizing v with
  | zero =>
      rw [Nat.pow_zero, Nat.lt_one_iff] at fits
      rw [fits, numerals, value_nil]
  | succ width inductionHypothesis =>
      have above : v / base < base ^ width := by
        apply Nat.div_lt_of_lt_mul
        rwa [← Nat.pow_succ']
      rw [numerals, value_snoc, inductionHypothesis above, Nat.div_add_mod']

theorem numerals_value {digits : List ℕ} (below : ∀ digit ∈ digits, digit < base) :
    numerals base digits.length (value base digits) = digits := by
  induction digits using List.reverseRecOn with
  | nil => rfl
  | append_singleton digits last inductionHypothesis =>
      have isLast : last < base := below last (by simp)
      have above :=
        inductionHypothesis fun digit inside => below digit (List.mem_append_left _ inside)
      have quotient : (value base digits * base + last) / base = value base digits := by
        rw [Nat.mul_comm, Nat.mul_add_div (by omega), Nat.div_eq_of_lt isLast, Nat.add_zero]
      have remainder : (value base digits * base + last) % base = last := by
        rw [Nat.mul_comm, Nat.mul_add_mod, Nat.mod_eq_of_lt isLast]
      rw [List.length_append, List.length_singleton, numerals, value_snoc, quotient,
        remainder, above]

end Positional
