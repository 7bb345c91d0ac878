import Mathlib.Data.Nat.Digits.Defs
import Mathlib.Tactic.Ring

/-! # Numbers as bytes, the lowest one first

A number is written to a fixed number of bytes and is found again if it fits. Every list of bytes is
what its number is written as.
-/

namespace LittleEndian

def put : ℕ → ℕ → List UInt8
  | 0, _ => []
  | width + 1, v => UInt8.ofNat v :: put width (v / 256)

def get : List UInt8 → ℕ
  | [] => 0
  | byte :: bytes => byte.toNat + 256 * get bytes

@[simp]
theorem length_put (width v : ℕ) : (put width v).length = width := by
  induction width generalizing v with
  | zero => rfl
  | succ width inductionHypothesis => rw [put, List.length_cons, inductionHypothesis]

theorem get_lt (bytes : List UInt8) : get bytes < 256 ^ bytes.length := by
  induction bytes with
  | nil => simp [get]
  | cons byte bytes inductionHypothesis =>
      have small := byte.toNat_lt
      rw [get, List.length_cons, pow_succ]
      omega

theorem get_put (width v : ℕ) : get (put width v) = v % 256 ^ width := by
  induction width generalizing v with
  | zero => simp [put, get, Nat.mod_one]
  | succ width inductionHypothesis =>
      rw [put, get, inductionHypothesis, pow_succ', Nat.mod_mul, UInt8.toNat_ofNat']

theorem get_put_of_lt {width v : ℕ} (fits : v < 256 ^ width) : get (put width v) = v := by
  rw [get_put, Nat.mod_eq_of_lt fits]

theorem get_put_append_take (width v : ℕ) (rest : List UInt8) :
    get ((put width v ++ rest).take width) = v % 256 ^ width := by
  rw [List.take_left' (length_put width v), get_put]

end LittleEndian
