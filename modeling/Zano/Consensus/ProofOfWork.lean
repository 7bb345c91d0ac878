import Mathlib
import Zano.Lib.Limbs
import Zano.Serialization.BinaryArchive

/-! # The proof of work check

`check_hash` multiplies the number that a hash spells by the difficulty and asks whether the product
has more than 256 bits. For difficulties of 64 bits it does so in words, with a chain of carries,
and for larger ones in 512 bits, once the highest word of the hash is zero. The largest difficulty
of 64 bits takes the second way, and for it the highest word may be one.
-/

namespace Zano.ProofOfWork

open Serialization (Blob)

/-- `wide_difficulty_type` -/
abbrev WideDifficulty := BitVec 128

abbrev Bytes := List UInt8

/-- The number that bytes spell, the lowest first. -/
def littleEndian (bytes : Bytes) : ℕ := Nat.ofDigits 256 (bytes.map UInt8.toNat)

/-- Word `k` of the bytes, which `swap64le` leaves as it is read. -/
def word (bytes : Bytes) (k : ℕ) : UInt64 :=
  UInt64.ofNat (littleEndian ((bytes.drop (8 * k)).take 8))

/-- The low and the high word of a product. -/
def mul (a b : UInt64) : UInt64 × UInt64 :=
  let res := a.toNat * b.toNat
  (UInt64.ofNat (res % 2 ^ 64), UInt64.ofNat (res / 2 ^ 64))

def cadd (a b : UInt64) : Bool := a + b < a

def cadc (a b : UInt64) (c : Bool) : Bool := a + b < a || (c && a + b = 0 - 1)

def max64bit : WideDifficulty := 0xffffffffffffffff

def max256bit : ℕ := 2 ^ 256 - 1

/-- The way in words. Of the lowest product only the high word matters. -/
def checkHashSmall (h : Bytes) (dl : UInt64) : Bool :=
  let (top, high) := mul (word h 3) dl
  if high ≠ 0 then false
  else
    let (_, cur) := mul (word h 0) dl
    let (low, high) := mul (word h 1) dl
    let carry := cadd cur low
    let cur := high
    let (low, high) := mul (word h 2) dl
    let carry := cadc cur low carry
    let carry := cadc high top carry
    !carry

/-- The words of the hash, put together from the highest on. -/
def hashVal (h : Bytes) : ℕ := [3, 2, 1, 0].foldl (fun val k => val <<< 64 ||| (word h k).toNat) 0

def checkHash (hash : Blob 32) (difficulty : WideDifficulty) : Bool :=
  let h := hash.bytes.reverse
  if difficulty < max64bit then checkHashSmall h (UInt64.ofNat difficulty.toNat)
  else if 0 < word h 3 then false
  else hashVal h * difficulty.toNat ≤ max256bit

/-- The four words of the largest number that passes, or a throw for the difficulty zero. -/
def difficultyToBoundaryLong (difficulty : WideDifficulty) : Option (List UInt64) :=
  if difficulty.toNat = 0 then none
  else
    let nominalHash := max256bit / difficulty.toNat
    some ((List.range 4).map fun i => UInt64.ofNat (nominalHash >>> (64 * i)))

/-- The number that the reversed hash spells. -/
def hashNumber (hash : Blob 32) : ℕ := littleEndian hash.bytes.reverse

def wordsNumber (words : List UInt64) : ℕ := Nat.ofDigits (2 ^ 64) (words.map UInt64.toNat)

/-! ## Words -/

theorem littleEndian_lt (bytes : Bytes) : littleEndian bytes < 256 ^ bytes.length := by
  have digits : ∀ digit ∈ bytes.map UInt8.toNat, digit < 256 := by
    intro digit inside
    obtain ⟨byte, -, rfl⟩ := List.mem_map.mp inside
    exact byte.toNat_lt
  simpa only [littleEndian, List.length_map] using Nat.ofDigits_lt_base_pow_length (by omega) digits

theorem word_toNat (bytes : Bytes) (k : ℕ) :
    (word bytes k).toNat = littleEndian ((bytes.drop (8 * k)).take 8) := by
  have below := littleEndian_lt ((bytes.drop (8 * k)).take 8)
  have short : ((bytes.drop (8 * k)).take 8).length ≤ 8 := List.length_take_le _ _
  have most : 256 ^ ((bytes.drop (8 * k)).take 8).length ≤ 256 ^ 8 :=
    Nat.pow_le_pow_right (by omega) short
  rw [word, UInt64.toNat_ofNat', Nat.mod_eq_of_lt]
  omega

theorem littleEndian_take_drop {bytes : Bytes} (enough : 8 ≤ bytes.length) :
    littleEndian bytes = littleEndian (bytes.take 8) + 2 ^ 64 * littleEndian (bytes.drop 8) := by
  have split := @Limbs.ofDigits_take_drop 256 (bytes.map UInt8.toNat) 8 (by rwa [List.length_map])
  simpa only [littleEndian, List.map_take, List.map_drop, show 256 ^ 8 = 2 ^ 64 by rfl] using split

theorem littleEndian_words {h : Bytes} (size : h.length = 32) :
    littleEndian h = (word h 0).toNat +
      2 ^ 64 * ((word h 1).toNat + 2 ^ 64 * ((word h 2).toNat + 2 ^ 64 * (word h 3).toNat)) := by
  have last : ((h.drop 24).take 8) = h.drop 24 := by
    rw [List.take_of_length_le]
    rw [List.length_drop]
    omega
  rw [word_toNat, word_toNat, word_toNat, word_toNat, littleEndian_take_drop (by omega),
    @littleEndian_take_drop (h.drop 8) (by rw [List.length_drop]; omega),
    @littleEndian_take_drop ((h.drop 8).drop 8) (by rw [List.length_drop, List.length_drop]; omega)]
  simp only [List.drop_drop, Nat.reduceMul, Nat.reduceAdd, List.drop_zero, last]

theorem mul_value (a b : UInt64) :
    (mul a b).1.toNat + 2 ^ 64 * (mul a b).2.toNat = a.toNat * b.toNat := by
  have product : a.toNat * b.toNat < 2 ^ 64 * 2 ^ 64 :=
    Nat.mul_lt_mul_of_lt_of_lt a.toNat_lt b.toNat_lt
  have high : a.toNat * b.toNat / 2 ^ 64 < 2 ^ 64 := Nat.div_lt_of_lt_mul product
  rw [mul, UInt64.toNat_ofNat', UInt64.toNat_ofNat', Nat.mod_mod, Nat.mod_eq_of_lt high]
  exact Nat.mod_add_div _ _

theorem cadd_eq (a b : UInt64) : cadd a b = decide (2 ^ 64 ≤ a.toNat + b.toNat) := by
  have smallA := a.toNat_lt
  have smallB := b.toNat_lt
  rw [Bool.eq_iff_iff]
  simp only [cadd, decide_eq_true_eq, UInt64.lt_iff_toNat_lt, UInt64.toNat_add]
  omega

theorem cadc_eq (a b : UInt64) (c : Bool) :
    cadc a b c = decide (2 ^ 64 ≤ a.toNat + b.toNat + c.toNat) := by
  have smallA := a.toNat_lt
  have smallB := b.toNat_lt
  have all : a + b = 0 - 1 ↔ (a.toNat + b.toNat) % 2 ^ 64 = 2 ^ 64 - 1 := by
    rw [← UInt64.toNat_inj, UInt64.toNat_add]
    rfl
  rw [Bool.eq_iff_iff]
  simp only [cadc, Bool.or_eq_true, Bool.and_eq_true, decide_eq_true_eq, UInt64.lt_iff_toNat_lt,
    UInt64.toNat_add, all]
  cases c with
  | false =>
      simp only [Bool.false_eq_true, false_and, or_false, Bool.toNat_false]
      omega
  | true =>
      simp only [true_and, Bool.toNat_true]
      omega

theorem hashVal_eq {h : Bytes} (size : h.length = 32) : hashVal h = littleEndian h := by
  have step : ∀ (val : ℕ) (w : UInt64), val <<< 64 ||| w.toNat = val * 2 ^ 64 + w.toNat := by
    intro val w
    rw [← Nat.shiftLeft_add_eq_or_of_lt w.toNat_lt, Nat.shiftLeft_eq]
  rw [hashVal, littleEndian_words size]
  simp only [List.foldl_cons, List.foldl_nil, step]
  ring

theorem wordsNumber_boundary {difficulty : WideDifficulty} {words : List UInt64}
    (isBoundary : difficultyToBoundaryLong difficulty = some words) :
    difficulty.toNat ≠ 0 ∧ wordsNumber words = max256bit / difficulty.toNat := by
  rw [difficultyToBoundaryLong] at isBoundary
  split at isBoundary
  · cases isBoundary
  next notZero =>
  cases isBoundary
  refine ⟨notZero, ?_⟩
  have below : max256bit / difficulty.toNat < 2 ^ 256 := (Nat.div_le_self _ _).trans_lt (by decide)
  generalize max256bit / difficulty.toNat = nominalHash at below
  simp only [wordsNumber, List.range, List.range.loop, List.map_cons, List.map_nil,
    Nat.ofDigits_cons, Nat.ofDigits_nil, UInt64.toNat_ofNat', Nat.shiftRight_eq_div_pow]
  omega

/-! ## The product -/

/-- The chain of carries decides whether the product fits, once its highest word is zero. -/
theorem checkHashSmall_iff {h : Bytes} (size : h.length = 32) (dl : UInt64) :
    checkHashSmall h dl = true ↔ littleEndian h * dl.toNat < 2 ^ 256 := by
  have lowest := mul_value (word h 0) dl
  have second := mul_value (word h 1) dl
  have third := mul_value (word h 2) dl
  have highest := mul_value (word h 3) dl
  have product : littleEndian h * dl.toNat =
      (word h 0).toNat * dl.toNat + 2 ^ 64 * ((word h 1).toNat * dl.toNat) +
        2 ^ 128 * ((word h 2).toNat * dl.toNat) + 2 ^ 192 * ((word h 3).toNat * dl.toNat) := by
    rw [littleEndian_words size]
    ring
  rw [product, ← lowest, ← second, ← third, ← highest, checkHashSmall]
  generalize mul (word h 0) dl = p0
  generalize mul (word h 1) dl = p1
  generalize mul (word h 2) dl = p2
  generalize mul (word h 3) dl = p3
  obtain ⟨low0, cur⟩ := p0
  obtain ⟨low1, high1⟩ := p1
  obtain ⟨low2, high2⟩ := p2
  obtain ⟨top, high⟩ := p3
  dsimp only
  have lowBelow := low0.toNat_lt
  split
  next overflows =>
    have positive : 0 < high.toNat :=
      Nat.pos_of_ne_zero fun isZero => overflows (UInt64.toNat_inj.mp isZero)
    simp only [Bool.false_eq_true, false_iff]
    omega
  next isZero =>
    obtain rfl : high = 0 := not_not.mp isZero
    have inBase :
        ∀ limb ∈ [(cur.toNat, low1.toNat), (high1.toNat, low2.toNat), (high2.toNat, top.toNat)],
        limb.1 < 2 ^ 64 ∧ limb.2 < 2 ^ 64 := by
      simp only [List.forall_mem_cons]
      exact ⟨⟨cur.toNat_lt, low1.toNat_lt⟩, ⟨high1.toNat_lt, low2.toNat_lt⟩,
        ⟨high2.toNat_lt, top.toNat_lt⟩, by simp⟩
    have chain := Limbs.carryOut_iff inBase false
    simp only [Limbs.carryOut, Bool.toNat_false, Nat.add_zero, List.map_cons, List.map_nil,
      Nat.ofDigits_cons, Nat.ofDigits_nil, List.length_cons, List.length_nil,
      decide_eq_true_eq] at chain
    rw [Bool.not_eq_true', ← Bool.not_eq_true, cadc_eq, cadc_eq, cadd_eq, decide_eq_true_eq, chain]
    simp only [UInt64.toNat_zero]
    omega

/-- What is not a fit is not passed, and one kind of fit is not passed either. -/
theorem checkHash_iff (hash : Blob 32) (difficulty : WideDifficulty) :
    checkHash hash difficulty = true ↔
      hashNumber hash * difficulty.toNat < 2 ^ 256 ∧
        ¬(difficulty = max64bit ∧ 2 ^ 192 ≤ hashNumber hash) := by
  have size : hash.bytes.reverse.length = 32 := by rw [List.length_reverse, hash.length_eq]
  have isMax : max64bit.toNat = 2 ^ 64 - 1 := rfl
  have words := littleEndian_words size
  have below0 := (word hash.bytes.reverse 0).toNat_lt
  have below1 := (word hash.bytes.reverse 1).toNat_lt
  have below2 := (word hash.bytes.reverse 2).toNat_lt
  rw [checkHash, hashNumber]
  split
  next small =>
    have dl : (UInt64.ofNat difficulty.toNat).toNat = difficulty.toNat := by
      rw [BitVec.lt_def, isMax] at small
      rw [UInt64.toNat_ofNat', Nat.mod_eq_of_lt (by omega)]
    have notMax : difficulty ≠ max64bit := BitVec.ne_of_lt small
    rw [checkHashSmall_iff size, dl]
    simp [notMax]
  next large =>
    have atLeast : 2 ^ 64 - 1 ≤ difficulty.toNat := by
      rw [BitVec.lt_def, isMax] at large
      omega
    split
    next topWord =>
      have high : 2 ^ 192 ≤ littleEndian hash.bytes.reverse := by
        rw [UInt64.lt_iff_toNat_lt, UInt64.toNat_zero] at topWord
        omega
      simp only [Bool.false_eq_true, false_iff]
      rintro ⟨fits, noGap⟩
      apply noGap
      refine ⟨?_, high⟩
      have most : 2 ^ 192 * difficulty.toNat < 2 ^ 256 :=
        (Nat.mul_le_mul_right _ high).trans_lt fits
      apply BitVec.eq_of_toNat_eq
      rw [isMax]
      omega
    next noTopWord =>
      have low : ¬2 ^ 192 ≤ littleEndian hash.bytes.reverse := by
        have isZero : (word hash.bytes.reverse 3).toNat = 0 := by
          rw [UInt64.lt_iff_toNat_lt, UInt64.toNat_zero] at noTopWord
          omega
        omega
      rw [decide_eq_true_eq, hashVal_eq size, max256bit, Nat.le_sub_one_iff_lt (by decide)]
      exact ⟨fun fits => ⟨fits, fun gap => low gap.2⟩, And.left⟩

/-- The check decides whether the product has more than 256 bits, a larger difficulty is not easier,
and the boundary that is computed for a difficulty is the largest number that passes, but for a few
numbers and the largest difficulty of 64 bits. -/
theorem proof_of_work_exact_iff (hash : Blob 32) (difficulty : WideDifficulty) :
    ((checkHash hash difficulty = true ↔ hashNumber hash * difficulty.toNat < 2 ^ 256) ∧
      (∀ larger, difficulty ≤ larger → checkHash hash larger = true →
        checkHash hash difficulty = true) ∧
      ∀ words, difficultyToBoundaryLong difficulty = some words →
        (checkHash hash difficulty = true ↔ hashNumber hash ≤ wordsNumber words)) ↔
      ¬(difficulty = max64bit ∧ 2 ^ 192 ≤ hashNumber hash ∧
        hashNumber hash ≤ 2 ^ 192 + 2 ^ 128 + 2 ^ 64 + 1) := by
  have isMax : max64bit.toNat = 2 ^ 64 - 1 := rfl
  constructor
  · intro ⟨exact_, _⟩ ⟨atMax, high, low⟩
    have fits : hashNumber hash * difficulty.toNat < 2 ^ 256 := by
      rw [atMax, isMax]
      omega
    exact ((checkHash_iff hash difficulty).mp (exact_.mpr fits)).2 ⟨atMax, high⟩
  · intro noGap
    have exact_ : checkHash hash difficulty = true ↔
        hashNumber hash * difficulty.toNat < 2 ^ 256 := by
      rw [checkHash_iff, and_iff_left_iff_imp]
      rintro fits ⟨atMax, high⟩
      apply noGap
      refine ⟨atMax, high, ?_⟩
      rw [atMax, isMax] at fits
      omega
    refine ⟨exact_, ?_, ?_⟩
    · intro larger more passed
      rw [exact_]
      have fits := ((checkHash_iff hash larger).mp passed).1
      exact (Nat.mul_le_mul_left _ (BitVec.le_def.mp more)).trans_lt fits
    · intro words isBoundary
      obtain ⟨notZero, isNumber⟩ := wordsNumber_boundary isBoundary
      rw [exact_, isNumber, Nat.le_div_iff_mul_le (Nat.pos_of_ne_zero notZero), max256bit,
        Nat.le_sub_one_iff_lt (by decide)]

/-- The number `2 ^ 192`, spelt backwards. -/
def highWordOne : Blob 32 := ⟨(List.replicate 32 0).set 7 1, rfl⟩

theorem high_word_refused :
    ¬∀ (hash : Blob 32) (difficulty : WideDifficulty),
      (checkHash hash difficulty = true ↔ hashNumber hash * difficulty.toNat < 2 ^ 256) := by
  intro same
  have wrong := same highWordOne max64bit
  revert wrong
  decide

end Zano.ProofOfWork
