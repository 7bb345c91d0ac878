import Mathlib
import Zano.Lib.Primality
import Zano.Transactions.BalanceProof

/-! # Scalars

A scalar is a number modulo the order of the main subgroup, which is prime. An inverse is the power
to that prime less two, by a chain of 251 squarings and 34 products, and a list of scalars is
inverted with one such chain. The bits of a scalar are those of four words of 64 bits.

A scalar is a residue here. Numbers are received with 256 bits, and what is not reduced is refused,
or reduced first, by some of the callers only. The others multiply with what they have received.
-/

namespace Zano.Crypto

open Transactions (Scalar groupOrder scalar1div8)
open Primality

/-! ## The order is prime -/

/-- From small primes on, each is shown to be prime by those before. -/
theorem groupOrder_prime : Nat.Prime groupOrder := by
  have prime_14741173 : Nat.Prime 14741173 :=
    prime_of_order 2 24 [2, 2, 3, 3, 409477]
      (by decide) (by decide) (by decide +kernel)
      (by norm_num) (by decide +kernel) (by decide +kernel)
  have prime_58964693 : Nat.Prime 58964693 :=
    prime_of_order 2 26 [2, 2, 14741173]
      (by decide) (by decide) (by decide +kernel)
      (by simp only [List.forall_mem_cons, prime_14741173]; norm_num) (by decide +kernel)
        (by decide +kernel)
  have prime_292386187 : Nat.Prime 292386187 :=
    prime_of_order 2 29 [2, 3, 3, 3, 3, 307, 5879]
      (by decide) (by decide) (by decide +kernel)
      (by norm_num) (by decide +kernel) (by decide +kernel)
  have prime_213441916511 : Nat.Prime 213441916511 :=
    prime_of_order 13 38 [2, 5, 73, 292386187]
      (by decide) (by decide) (by decide +kernel)
      (by simp only [List.forall_mem_cons, prime_292386187]; norm_num) (by decide +kernel)
        (by decide +kernel)
  have prime_125755973217 : Nat.Prime 1257559732178653 :=
    prime_of_order 2 51 [2, 2, 3, 7, 23, 1224481, 531581]
      (by decide) (by decide) (by decide +kernel)
      (by norm_num) (by decide +kernel) (by decide +kernel)
  have prime_443415561566 : Nat.Prime 4434155615661930479 :=
    prime_of_order 17 62 [2, 41, 43, 1257559732178653]
      (by decide) (by decide) (by decide +kernel)
      (by simp only [List.forall_mem_cons, prime_125755973217]; norm_num) (by decide +kernel)
        (by decide +kernel)
  have prime_304486165367 : Nat.Prime 3044861653679985063343 :=
    prime_of_order 5 72 [2, 3, 11, 30703, 82163, 137849, 132667]
      (by decide) (by decide) (by decide +kernel)
      (by norm_num) (by decide +kernel) (by decide +kernel)
  have prime_172054593956 : Nat.Prime 172054593956031949258510691 :=
    prime_of_order 2 88 [2, 5, 1361, 2851, 4434155615661930479]
      (by decide) (by decide) (by decide +kernel)
      (by simp only [List.forall_mem_cons, prime_443415561566]; norm_num) (by decide +kernel)
        (by decide +kernel)
  have prime_198211423230 : Nat.Prime 198211423230930754013084525763697 :=
    prime_of_order 5 108 [2, 2, 2, 2, 3, 23, 58964693, 3044861653679985063343]
      (by decide) (by decide) (by decide +kernel)
      (by simp only [List.forall_mem_cons, prime_58964693, prime_304486165367]; norm_num)
        (by decide +kernel) (by decide +kernel)
  have prime_197573303058 : Nat.Prime 19757330305831588566944191468367130476339 :=
    prime_of_order 2 134 [2, 269, 213441916511, 172054593956031949258510691]
      (by decide) (by decide) (by decide +kernel)
      (by simp only [List.forall_mem_cons, prime_213441916511, prime_172054593956]; norm_num)
        (by decide +kernel) (by decide +kernel)
  have prime_276602624281 : Nat.Prime 276602624281642239937218680557139826668747 :=
    prime_of_order 2 138 [2, 7, 19757330305831588566944191468367130476339]
      (by decide) (by decide) (by decide +kernel)
      (by simp only [List.forall_mem_cons, prime_197573303058]; norm_num) (by decide +kernel)
        (by decide +kernel)
  exact prime_of_order 2 253
    [2, 2, 3, 11, 198211423230930754013084525763697, 276602624281642239937218680557139826668747]
      (by decide) (by decide) (by decide +kernel)
      (by simp only [List.forall_mem_cons, prime_198211423230, prime_276602624281]; norm_num)
        (by decide +kernel) (by decide +kernel)

scoped instance groupOrder_fact : Fact groupOrder.Prime := ⟨groupOrder_prime⟩

/-! ## Inverses -/

/-- `sc_sqmul`, which overwrites its first argument. -/
def scSqmul (s : Scalar) : ℕ → Scalar → Scalar
  | 0, a => s * a
  | n + 1, a => scSqmul (s * s) n a

theorem scSqmul_eq (s : Scalar) (n : ℕ) (a : Scalar) : scSqmul s n a = s ^ 2 ^ n * a := by
  induction n generalizing s with
  | zero => rw [scSqmul, pow_zero, pow_one]
  | succ n inductionHypothesis => rw [scSqmul, inductionHypothesis, ← sq, ← pow_mul, ← pow_succ']

/-- The names are the exponents. -/
def scInvert (s : Scalar) : Scalar :=
  let s10 := s * s
  let s11 := s * s10
  let s100 := s * s11
  let s1000 := s100 * s100
  let s1010 := s10 * s1000
  let s1011 := s * s1010
  let s10000 := s1000 * s1000
  let s10110 := s1011 * s1011
  let s100000 := s1010 * s10110
  let s100110 := s10000 * s10110
  let s1000000 := s100000 * s100000
  let s1010000 := s10000 * s1000000
  let s1010011 := s11 * s1010000
  let s1100011 := s10000 * s1010011
  let s1100111 := s100 * s1100011
  let s1101011 := s100 * s1100111
  let s10010011 := s1000000 * s1010011
  let s10010111 := s100 * s10010011
  let s10111101 := s100110 * s10010111
  let s11010011 := s10110 * s10111101
  let s11100111 := s1010000 * s10010111
  let s11101011 := s100 * s11100111
  let s11110101 := s1010 * s11101011
  let recip := s1011 * s11110101
  let recip := scSqmul recip 126 s1010011
  let recip := scSqmul recip 9 s10
  let recip := recip * s11110101
  let recip := scSqmul recip 7 s1100111
  let recip := scSqmul recip 9 s11110101
  let recip := scSqmul recip 11 s10111101
  let recip := scSqmul recip 8 s11100111
  let recip := scSqmul recip 9 s1101011
  let recip := scSqmul recip 6 s1011
  let recip := scSqmul recip 14 s10010011
  let recip := scSqmul recip 10 s1100011
  let recip := scSqmul recip 9 s10010111
  let recip := scSqmul recip 10 s11110101
  let recip := scSqmul recip 8 s11010011
  scSqmul recip 8 s11101011

theorem scInvert_eq_pow (s : Scalar) : scInvert s = s ^ (groupOrder - 2) := by
  simp only [scInvert, scSqmul_eq, ← pow_succ', ← pow_mul, ← pow_add, ← sq]
  norm_num [groupOrder]

/-- The inverse of zero is zero. -/
theorem scInvert_eq (s : Scalar) : scInvert s = s⁻¹ := by
  have above : 2 < groupOrder := by norm_num [groupOrder]
  rw [scInvert_eq_pow]
  by_cases zero : s = 0
  · rw [zero, inv_zero, zero_pow (by omega)]
  · have whole := ZMod.pow_card_sub_one_eq_one zero
    have next : groupOrder - 1 = groupOrder - 2 + 1 := by omega
    rw [next, pow_succ] at whole
    exact eq_inv_of_mul_eq_one_left whole

/-- What `muls` holds at an index, which is less than the size. -/
def muls (v : List Scalar) : ℕ → Scalar
  | 0 => 1
  | i + 1 => v.getD i 0 * muls v i

/-- What `muls_rev` holds at a distance from the last index. -/
def mulsRev (v : List Scalar) : ℕ → Scalar
  | 0 => 1
  | k + 1 => v.getD (v.length - 1 - k) 0 * mulsRev v k

/-- `scalar_vec_t::invert` -/
def invert (v : List Scalar) : List Scalar :=
  if v.length < 2 then v.map scInvert
  else
    let inv := scInvert (muls v (v.length - 1) * v.getD (v.length - 1) 0)
    (List.range v.length).map fun i => muls v i * inv * mulsRev v (v.length - 1 - i)

theorem muls_eq {v : List Scalar} {i : ℕ} (within : i ≤ v.length) : muls v i = (v.take i).prod := by
  induction i with
  | zero => rfl
  | succ i inductionHypothesis =>
      rw [muls, inductionHypothesis (by omega), List.getD_eq_getElem v 0 within,
        List.take_succ_eq_append_getElem within, List.prod_append, List.prod_singleton, mul_comm]

theorem mulsRev_eq {v : List Scalar} {k : ℕ} (within : k ≤ v.length) :
    mulsRev v k = (v.drop (v.length - k)).prod := by
  induction k with
  | zero => simp [mulsRev]
  | succ k inductionHypothesis =>
      have place : v.length - 1 - k = v.length - (k + 1) := by omega
      have inside : v.length - (k + 1) < v.length := by omega
      have next : v.length - (k + 1) + 1 = v.length - k := by omega
      rw [mulsRev, inductionHypothesis (by omega), place, List.getD_eq_getElem v 0 inside, ← next,
        ← List.prod_cons, List.getElem_cons_drop]

/-- The whole product but for one factor. -/
theorem muls_mul_mulsRev {v : List Scalar} {i : ℕ} (inside : i < v.length) :
    muls v i * v[i] * mulsRev v (v.length - 1 - i) = v.prod := by
  have place : v.length - (v.length - 1 - i) = i + 1 := by omega
  rw [muls_eq inside.le, mulsRev_eq (by omega), place, ← List.prod_take_mul_prod_drop v (i + 1),
    List.take_succ_eq_append_getElem inside, List.prod_append, List.prod_singleton]

/-- One inverse gives all of them, or none if an element has none. -/
theorem invert_eq (v : List Scalar) :
    invert v = if (0 : Scalar) ∈ v then v.map fun _ => 0 else v.map fun s => s⁻¹ := by
  rw [invert]
  split
  · next short =>
      match v, short with
      | [], _ => simp
      | [s], _ =>
          by_cases zero : s = 0
          · simp [zero, scInvert_eq]
          · simp [scInvert_eq, Ne.symm zero]
  · next long =>
      have last : v.length - 1 < v.length := by omega
      have whole : muls v (v.length - 1) * v.getD (v.length - 1) 0 = v.prod := by
        have split := muls_mul_mulsRev last
        rwa [Nat.sub_self, mulsRev, mul_one, ← List.getD_eq_getElem v 0 last] at split
      rw [whole, scInvert_eq]
      split
      · next zero =>
          rw [List.prod_eq_zero zero]
          apply List.ext_getElem (by simp)
          simp
      · next nonzero =>
          apply List.ext_getElem (by simp)
          intro i inside _
          rw [List.length_map, List.length_range] at inside
          have split := muls_mul_mulsRev inside
          have prodNonzero : v.prod ≠ 0 := List.prod_ne_zero nonzero
          have elementNonzero : v[i] ≠ 0 := fun zero => nonzero (zero ▸ List.getElem_mem inside)
          simp only [List.getElem_map, List.getElem_range]
          field_simp
          linear_combination split

/-! ## Bits -/

/-- `m_u64` -/
def word (s : Scalar) (i : ℕ) : UInt64 := UInt64.ofNat (s.val / 2 ^ (64 * i))

def getBit (s : Scalar) (bitIndex : ℕ) : Bool :=
  word s (bitIndex / 64) &&& (1 <<< UInt64.ofNat (bitIndex % 64)) ≠ 0

def getBits (s : Scalar) (bitIndexFirst bitsCount : UInt8) : UInt64 :=
  if bitsCount = 0 ∨ 64 < bitsCount then 0
  else
    let bitsCountM1 := bitsCount.toNat - 1
    let bitIndexLast := min (bitIndexFirst.toNat + bitsCountM1) 255
    let low := word s (bitIndexFirst.toNat / 64) >>> UInt64.ofNat (bitIndexFirst.toNat % 64)
    let result :=
      if bitIndexLast % 64 < bitsCountM1 then
        low ||| word s (bitIndexLast / 64) <<< UInt64.ofNat (bitsCountM1 - bitIndexLast % 64)
      else low
    let resultMask := ((1 <<< UInt64.ofNat bitsCountM1) - 1) <<< 1 ||| 1
    result &&& resultMask

theorem testBit_word (s : Scalar) (i j : ℕ) :
    (word s i).toNat.testBit j = (decide (j < 64) && s.val.testBit (64 * i + j)) := by
  rw [word, UInt64.toNat_ofNat', Nat.testBit_mod_two_pow, Nat.testBit_div_two_pow, Nat.add_comm]

theorem toNat_ofNat_small {n : ℕ} (small : n < 64) : (UInt64.ofNat n).toNat = n := by
  rw [UInt64.toNat_ofNat', Nat.mod_eq_of_lt (by omega)]

theorem testBit_shiftLeft {x : UInt64} {n : ℕ} (small : n < 64) (j : ℕ) :
    (x <<< UInt64.ofNat n).toNat.testBit j =
      (decide (j < 64) && decide (n ≤ j) && x.toNat.testBit (j - n)) := by
  rw [UInt64.toNat_shiftLeft, toNat_ofNat_small small, Nat.mod_eq_of_lt small,
    Nat.testBit_mod_two_pow, Nat.testBit_shiftLeft, Bool.and_assoc]

theorem testBit_shiftRight {x : UInt64} {n : ℕ} (small : n < 64) (j : ℕ) :
    (x >>> UInt64.ofNat n).toNat.testBit j = x.toNat.testBit (n + j) := by
  rw [UInt64.toNat_shiftRight, toNat_ofNat_small small, Nat.mod_eq_of_lt small,
    Nat.testBit_shiftRight]

theorem toNat_one_shiftLeft {n : ℕ} (small : n < 64) :
    ((1 : UInt64) <<< UInt64.ofNat n).toNat = 2 ^ n := by
  rw [UInt64.toNat_shiftLeft, toNat_ofNat_small small, Nat.mod_eq_of_lt small, Nat.shiftLeft_eq,
    UInt64.toNat_one, one_mul, Nat.mod_eq_of_lt (Nat.pow_lt_pow_right (by decide) small)]

theorem getBit_eq (s : Scalar) (bitIndex : ℕ) : getBit s bitIndex = s.val.testBit bitIndex := by
  have small : bitIndex % 64 < 64 := Nat.mod_lt _ (by decide)
  have place : 64 * (bitIndex / 64) + bitIndex % 64 = bitIndex := Nat.div_add_mod _ _
  have isBit := testBit_word s (bitIndex / 64) (bitIndex % 64)
  rw [decide_eq_true small, Bool.true_and, place] at isBit
  have masked : (word s (bitIndex / 64) &&& 1 <<< UInt64.ofNat (bitIndex % 64)).toNat =
      (s.val.testBit bitIndex).toNat * 2 ^ (bitIndex % 64) := by
    rw [UInt64.toNat_and, toNat_one_shiftLeft small, Nat.and_two_pow, isBit]
  have isZero : word s (bitIndex / 64) &&& 1 <<< UInt64.ofNat (bitIndex % 64) = 0 ↔
      s.val.testBit bitIndex = false := by
    rw [← UInt64.toNat_inj, masked]
    cases s.val.testBit bitIndex <;> simp
  simp [getBit, isZero]

theorem testBit_resultMask {n : ℕ} (small : n < 64) (j : ℕ) :
    ((((1 : UInt64) <<< UInt64.ofNat n) - 1) <<< 1 ||| 1).toNat.testBit j = decide (j ≤ n) := by
  have ones : (((1 : UInt64) <<< UInt64.ofNat n) - 1).toNat = 2 ^ n - 1 := by
    rw [UInt64.toNat_sub_of_le, toNat_one_shiftLeft small, UInt64.toNat_one]
    rw [UInt64.le_iff_toNat_le, toNat_one_shiftLeft small]
    exact Nat.one_le_two_pow
  have shifted := testBit_shiftLeft (x := (1 <<< UInt64.ofNat n) - 1) (n := 1) (by decide) j
  rw [ones, Nat.testBit_two_pow_sub_one] at shifted
  rw [UInt64.toNat_or, Nat.testBit_or]
  change (((1 <<< UInt64.ofNat n - 1) <<< UInt64.ofNat 1 : UInt64).toNat.testBit j ||
    Nat.testBit 1 j) = decide (j ≤ n)
  rw [shifted, Bool.eq_iff_iff]
  simp only [Bool.or_eq_true, Bool.and_eq_true, decide_eq_true_eq,
    Nat.testBit_one_eq_true_iff_self_eq_zero]
  omega

/-- By the bits: those of the second word, if there are any, begin where those of
the first one end. -/
theorem getBits_eq (s : Scalar) (bitIndexFirst : UInt8) {bitsCount : UInt8} (few : bitsCount ≤ 64) :
    (getBits s bitIndexFirst bitsCount).toNat =
      s.val / 2 ^ bitIndexFirst.toNat % 2 ^ bitsCount.toNat := by
  rw [UInt8.le_iff_toNat_le] at few
  replace few : bitsCount.toNat ≤ 64 := few
  have byte := UInt8.toNat_lt bitIndexFirst
  have below : s.val < 2 ^ 256 := (ZMod.val_lt s).trans (by decide)
  rw [getBits]
  split
  · next none_ =>
      obtain rfl : bitsCount = 0 := by
        rcases none_ with zero | many
        · exact zero
        · rw [UInt8.lt_iff_toNat_lt] at many
          exact absurd few (Nat.not_le.mpr many)
      simp [Nat.mod_one]
  · next some_ =>
      have positive : 0 < bitsCount.toNat := by
        rw [Nat.pos_iff_ne_zero]
        intro zero
        exact some_ (Or.inl (UInt8.toNat_inj.mp zero))
      apply Nat.eq_of_testBit_eq
      intro j
      have highBits : ∀ i, 256 ≤ i → s.val.testBit i = false := fun i high =>
        Nat.testBit_lt_two_pow (below.trans_le (Nat.pow_le_pow_right (by decide) high))
      have low := testBit_shiftRight (x := word s (bitIndexFirst.toNat / 64))
        (Nat.mod_lt bitIndexFirst.toNat (show 0 < 64 by decide)) j
      rw [testBit_word] at low
      rw [Nat.testBit_mod_two_pow, Nat.testBit_div_two_pow, UInt64.toNat_and, Nat.testBit_and,
        testBit_resultMask (by omega)]
      split
      · next second =>
          rw [UInt64.toNat_or, Nat.testBit_or, low, testBit_shiftLeft (by omega), testBit_word]
          by_cases inFirst : bitIndexFirst.toNat % 64 + j < 64
          · have place : 64 * (bitIndexFirst.toNat / 64) + (bitIndexFirst.toNat % 64 + j) =
                j + bitIndexFirst.toNat := by omega
            grind
          · have place (within : j < bitsCount.toNat) :
                64 * (min (bitIndexFirst.toNat + (bitsCount.toNat - 1)) 255 / 64) +
                  (j - (bitsCount.toNat - 1 -
                    min (bitIndexFirst.toNat + (bitsCount.toNat - 1)) 255 % 64)) =
                  j + bitIndexFirst.toNat := by omega
            grind
      · next one =>
          rw [low]
          by_cases inFirst : bitIndexFirst.toNat % 64 + j < 64
          · have place : 64 * (bitIndexFirst.toNat / 64) + (bitIndexFirst.toNat % 64 + j) =
                j + bitIndexFirst.toNat := by omega
            grind
          · have isHigh (within : j < bitsCount.toNat) : 256 ≤ j + bitIndexFirst.toNat := by omega
            grind

/-! ## Powers and logarithms -/

def constexprFloorLogN (v n : ℕ) : ℕ :=
  if v < n ∨ n ≤ 1 then 0 else constexprFloorLogN (v / n) n + 1
termination_by v
decreasing_by
  next notDone =>
    have : n ≤ v ∧ 1 < n := by omega
    exact Nat.div_lt_self (by omega) this.2

def constexprCeilLogN (v n : ℕ) : ℕ :=
  if v ≤ 1 ∨ n ≤ 1 then 0 else constexprFloorLogN (v - 1) n + 1

def constexprCeilLog2 (v : ℕ) : ℕ := constexprCeilLogN v 2

def constexprPow : ℕ → ℕ → ℕ
  | 0, _ => 1
  | k + 1, base => base * constexprPow k base

theorem constexprFloorLogN_eq (v n : ℕ) : constexprFloorLogN v n = Nat.log n v := by
  fun_induction constexprFloorLogN with
  | case1 v done => exact (Nat.log_eq_zero_iff.mpr done).symm
  | case2 v notDone inductionHypothesis =>
      rw [inductionHypothesis, ← Nat.log_of_one_lt_of_le (by omega) (by omega)]

theorem constexprCeilLogN_eq (v n : ℕ) : constexprCeilLogN v n = Nat.clog n v := by
  rw [constexprCeilLogN]
  split
  · next done =>
      rcases done with small | small
      · exact (Nat.clog_of_right_le_one small n).symm
      · exact (Nat.clog_of_left_le_one small v).symm
  · next notDone =>
      have base : 1 < n := by omega
      rw [constexprFloorLogN_eq, eq_comm]
      apply le_antisymm
      · rw [Nat.clog_le_iff_le_pow base]
        have := Nat.lt_pow_succ_log_self base (v - 1)
        rw [Nat.succ_eq_add_one] at this
        omega
      · rw [Nat.succ_le_iff, Nat.lt_clog_iff_pow_lt base]
        have := Nat.pow_log_le_self n (show v - 1 ≠ 0 by omega)
        omega

theorem constexprPow_eq (k base : ℕ) : constexprPow k base = base ^ k := by
  induction k with
  | zero => rfl
  | succ k inductionHypothesis => rw [constexprPow, inductionHypothesis, pow_succ']

/-! ## Received numbers -/

/-- A number of 255 bits that is multiplied by as it is received. For larger ones the tables of
multiples are not made. -/
abbrev ReceivedScalar := {s : ℕ // s < 2 ^ 255}

namespace ReceivedScalar

def toScalar (s : ReceivedScalar) : Scalar := (s.1 : Scalar)

def ofScalar (s : Scalar) : ReceivedScalar := ⟨s.val, (ZMod.val_lt s).trans (by decide)⟩

/-- The reduced number that is the same residue. -/
def reduced (s : ReceivedScalar) : ReceivedScalar := ofScalar s.toScalar

@[simp]
theorem toScalar_ofScalar (s : Scalar) : (ofScalar s).toScalar = s := ZMod.natCast_zmod_val s

theorem ofScalar_injective : Function.Injective ofScalar :=
  Function.LeftInverse.injective toScalar_ofScalar

@[simp]
theorem reduced_ofScalar (s : Scalar) : (ofScalar s).reduced = ofScalar s := by
  rw [reduced, toScalar_ofScalar]

/-- The same residue, not reduced. -/
def enlarged (s : Scalar) : ReceivedScalar :=
  ⟨s.val + groupOrder, (Nat.add_lt_add_right (ZMod.val_lt s) _).trans (by decide)⟩

@[simp]
theorem reduced_enlarged (s : Scalar) : (enlarged s).reduced = ofScalar s := by
  have same : (enlarged s).toScalar = s := by simp [enlarged, toScalar]
  rw [reduced, same]

theorem enlarged_ne (s : Scalar) : enlarged s ≠ ofScalar s := by
  intro same
  have value : s.val + groupOrder = s.val := congrArg Subtype.val same
  exact absurd value (by simp [groupOrder])

theorem map_ofScalar_eq_map_reduced {scalars : List Scalar} {received : List ReceivedScalar} :
    scalars.map ofScalar = received.map reduced ↔ scalars = received.map toScalar := by
  rw [show received.map reduced = (received.map toScalar).map ofScalar by
    rw [List.map_map]
    rfl]
  exact (List.map_injective_iff.mpr ofScalar_injective).eq_iff

end ReceivedScalar

/-! ## Transcripts -/

/-- What `hs_t` gathers. Key images are points too. -/
inductive HsItem (P : Type*) where
  | scalar (s : Scalar)
  | point (p : P)
  | hash (h : List UInt8)
  | chars32 (label : String)
  deriving DecidableEq

/-- Points are kept premultiplied, and are multiplied back where they are used. -/
@[simp]
theorem eight_smul_scalar1div8_smul {P : Type*} [AddCommGroup P] [Module Scalar P] (p : P) :
    (8 : Scalar) • scalar1div8 • p = p := by
  have exact8 : 8 * ((groupOrder * 3 + 1) / 8) = groupOrder * 3 + 1 := by decide
  have one : (8 : Scalar) * scalar1div8 = 1 := by
    rw [scalar1div8, show (8 : Scalar) = ((8 : ℕ) : Scalar) by norm_num, ← Nat.cast_mul, exact8]
    simp
  rw [smul_smul, one, one_smul]

end Zano.Crypto
