import Mathlib.NumberTheory.LucasPrimality
import Mathlib.Data.List.Prime

/-! # Large primes

A number is prime when some residue has the order that only a prime allows: its power to the number
less one is 1, and none of its powers to a prime part of that is. The primes that the number less
one is made of are known to be primes before, so that large primes are reached in a few steps.

Powers are taken by repeated squaring, in numbers that stay below the square of the modulus.
-/

namespace Primality

/-- The power of `a` by the low `bits` bits of the exponent. -/
def power (p : ℕ) : ℕ → ℕ → ℕ → ℕ
  | 0, _, _ => 1
  | bits + 1, a, n =>
      let rest := power p bits (a * a % p) (n / 2)
      if n % 2 = 1 then a * rest % p else rest

theorem power_lt {p : ℕ} (large : 1 < p) (bits a n : ℕ) : power p bits a n < p := by
  induction bits generalizing a n with
  | zero => exact large
  | succ bits inductionHypothesis =>
      simp only [power]
      split
      · exact Nat.mod_lt _ (by omega)
      · exact inductionHypothesis _ _

theorem cast_power (p : ℕ) {bits n : ℕ} (fits : n < 2 ^ bits) (a : ℕ) :
    (power p bits a n : ZMod p) = (a : ZMod p) ^ n := by
  induction bits generalizing a n with
  | zero =>
      obtain rfl : n = 0 := by simpa using fits
      simp [power]
  | succ bits inductionHypothesis =>
      have half : n / 2 < 2 ^ bits := by
        rw [pow_succ] at fits
        omega
      have square : ((a * a % p : ℕ) : ZMod p) ^ (n / 2) = (a : ZMod p) ^ (2 * (n / 2)) := by
        rw [ZMod.natCast_mod, Nat.cast_mul, ← sq, pow_mul]
      have isRest := (inductionHypothesis half (a * a % p)).trans square
      simp only [power]
      split
      · next odd =>
          rw [ZMod.natCast_mod, Nat.cast_mul, isRest, ← pow_succ']
          congr 1
          omega
      · next even =>
          rw [isRest]
          congr 1
          omega

/-- The order of `a` is `p - 1`. -/
theorem prime_of_order {p : ℕ} (a bits : ℕ) (factors : List ℕ) (large : 1 < p) (fits : p ≤ 2 ^ bits)
    (product : factors.prod = p - 1) (arePrime : ∀ q ∈ factors, q.Prime)
    (isOne : power p bits a (p - 1) = 1)
    (others : ∀ q ∈ factors, power p bits a ((p - 1) / q) ≠ 1) : p.Prime := by
  apply lucas_primality p (a : ZMod p)
  · rw [← cast_power p (show p - 1 < 2 ^ bits by omega), isOne, Nat.cast_one]
  · intro q isPrime divides same
    rw [← product] at divides
    obtain ⟨factor, inside, divides⟩ := isPrime.prime.dvd_prod_iff.mp divides
    obtain rfl := (Nat.prime_dvd_prime_iff_eq isPrime (arePrime factor inside)).mp divides
    have below : (p - 1) / q < 2 ^ bits := (Nat.div_le_self _ _).trans_lt (by omega)
    rw [← cast_power p below, ← Nat.cast_one (R := ZMod p), ZMod.natCast_eq_natCast_iff',
      Nat.mod_eq_of_lt (power_lt large _ _ _), Nat.mod_eq_of_lt large] at same
    exact others q inside same

end Primality
