import Mathlib
import Zano.Lib.DistinctChallenges
import Zano.Crypto.Scalars

/-! # One-out-of-many proofs

A proof that one member of a ring is a multiple of `X`. The ring is padded with its last member to a
power of 4, and the index of the member is committed to digit by digit: a row of four bits for each
digit, of which one is set. The answers to the challenge `x` are the bits times `x`, masked, so that
the product of the answers on the digits of an index is a polynomial in `x`. Its degree is the
number of digits for the index committed to and smaller for every other one, and `Pk` cancels the
lower powers.
-/

namespace Zano.Crypto

open Transactions (Scalar scalar1div8)

variable {P : Type*} [AddCommGroup P] [Module Scalar P]

structure BGEHelper (P : Type*) where
  hs : List (HsItem P) → Scalar
  X : P
  precalculatedGenerators : ℕ → P

/-- The points are premultiplied by 1/8. -/
structure BGEProof (P : Type*) where
  A : P
  B : P
  Pk : List P
  f : List Scalar
  y : Scalar
  z : Scalar
  deriving DecidableEq

namespace BGE

/-! ## Sizes and digits -/

def n : ℕ := 4

def NMax : ℕ := 256

def mnMax : ℕ := 16

def m (ringSize : ℕ) : ℕ := max 1 (constexprCeilLogN ringSize n)

def N (ringSize : ℕ) : ℕ := constexprPow (m ringSize) n

/-- The digit at `j`, after the number was divided `j` times. -/
def digit (i : ℕ) : ℕ → ℕ
  | 0 => i % n
  | j + 1 => digit (i / n) j

/-- The index that has these digits. -/
def ofDigits (digits : ℕ → ℕ) : ℕ → ℕ
  | 0 => 0
  | m + 1 => digits 0 + n * ofDigits (fun j => digits (j + 1)) m

theorem digit_lt (i j : ℕ) : digit i j < n := by
  induction j generalizing i with
  | zero => exact Nat.mod_lt _ (by decide)
  | succ j inductionHypothesis => exact inductionHypothesis _

theorem ofDigits_lt {digits : ℕ → ℕ} {m : ℕ} (small : ∀ j < m, digits j < n) :
    ofDigits digits m < n ^ m := by
  induction m generalizing digits with
  | zero => simp [ofDigits]
  | succ m inductionHypothesis =>
      have first := small 0 (by omega)
      have rest : ofDigits (fun j => digits (j + 1)) m < n ^ m :=
        inductionHypothesis fun j below => small (j + 1) (by omega)
      rw [ofDigits, pow_succ]
      nlinarith

theorem digit_ofDigits {digits : ℕ → ℕ} {m : ℕ} (small : ∀ j < m, digits j < n) {j : ℕ}
    (inside : j < m) :
    digit (ofDigits digits m) j = digits j := by
  induction m generalizing digits j with
  | zero => omega
  | succ m inductionHypothesis =>
      have first := small 0 (by omega)
      cases j with
      | zero => rw [ofDigits, digit, Nat.add_mul_mod_self_left, Nat.mod_eq_of_lt first]
      | succ j =>
          rw [ofDigits, digit, Nat.add_mul_div_left _ _ (by decide),
            Nat.div_eq_of_lt first, zero_add]
          exact inductionHypothesis (fun j below => small (j + 1) (by omega)) (by omega)

/-- An index that fits is found from its digits. -/
theorem ofDigits_digit {i m : ℕ} (fits : i < n ^ m) : ofDigits (digit i) m = i := by
  induction m generalizing i with
  | zero =>
      rw [pow_zero] at fits
      simp only [ofDigits]
      omega
  | succ m inductionHypothesis =>
      have rest :=
        inductionHypothesis (i := i / n) (Nat.div_lt_of_lt_mul (by rwa [pow_succ'] at fits))
      calc ofDigits (digit i) (m + 1) = i % n + n * ofDigits (digit (i / n)) m := rfl
        _ = i := by rw [rest, Nat.mod_add_div]

theorem ofDigits_congr {digits digits' : ℕ → ℕ} {m : ℕ} (same : ∀ j < m, digits j = digits' j) :
    ofDigits digits m = ofDigits digits' m := by
  induction m generalizing digits digits' with
  | zero => rfl
  | succ m inductionHypothesis =>
      rw [ofDigits, ofDigits, same 0 (by omega),
        inductionHypothesis fun j below => same (j + 1) (by omega)]

theorem N_eq (ringSize : ℕ) : N ringSize = n ^ m ringSize := constexprPow_eq _ _

theorem one_le_m (ringSize : ℕ) : 1 ≤ m ringSize := le_max_left _ _

theorem le_N (ringSize : ℕ) : ringSize ≤ N ringSize := by
  rw [N_eq]
  calc ringSize ≤ n ^ Nat.clog n ringSize := Nat.le_pow_clog (by decide) _
    _ ≤ n ^ m ringSize :=
      Nat.pow_le_pow_right (by decide) (by rw [m, constexprCeilLogN_eq]; exact le_max_right _ _)

theorem m_le_iff (ringSize : ℕ) : m ringSize ≤ 4 ↔ ringSize ≤ NMax := by
  rw [m, constexprCeilLogN_eq, max_le_iff, Nat.clog_le_iff_le_pow (by decide)]
  norm_num [n, NMax]

/-! ## Generation -/

/-- What is random. -/
structure Randomness where
  a : ℕ → ℕ → Scalar
  rA : Scalar
  rB : Scalar
  ro : ℕ → Scalar

/-- A row of masks. That of digit 0 takes away the others. -/
def aMat (a : ℕ → ℕ → Scalar) (j i : ℕ) : Scalar :=
  if i = 0 then [3, 2, 1].foldl (fun a0 i => a0 - a j i) 0 else a j i

/-- Multiplication of coefficients by `a + x`, with the old coefficient carried. -/
def mulLinear (a : Scalar) : Scalar → List Scalar → List Scalar × Scalar
  | carry, [] => ([], carry)
  | carry, old :: coeffs =>
      let (coeffs, last) := mulLinear a old coeffs
      ((old * a + carry) :: coeffs, last)

/-- A column of coefficients up to `m_bound`, from where they are zero, after `j` digits. There is
no place for the coefficient of `x ^ m`. -/
def coeffs (m : ℕ) (aMat : ℕ → ℕ → Scalar) (lDigits : ℕ → ℕ) (i : ℕ) : ℕ → List Scalar
  | 0 => [1]
  | j + 1 =>
      let column := coeffs m aMat lDigits i j
      if digit i j = lDigits j then
        let (column, carry) := mulLinear (aMat j (digit i j)) 0 column
        if column.length < m then column ++ [carry] else column
      else column.map (· * aMat j (digit i j))

def getGenerator (cx : BGEHelper P) (index : ℕ) : Option P :=
  if mnMax * 2 ≤ index then none else some (cx.precalculatedGenerators index)

def generatorsKnown (cx : BGEHelper P) (mn : ℕ) : Bool :=
  (List.range mn).all fun index =>
    (getGenerator cx (index * 2 + 0)).isSome && (getGenerator cx (index * 2 + 1)).isSome

def gen1 (cx : BGEHelper P) (j i : ℕ) : P := (getGenerator cx ((j * n + i) * 2 + 0)).getD 0

def gen2 (cx : BGEHelper P) (j i : ℕ) : P := (getGenerator cx ((j * n + i) * 2 + 1)).getD 0

def padded (ring : List P) (i : ℕ) : P :=
  if i < ring.length then ring.getD i 0 else ring.getD (ring.length - 1) 0

def commitA (cx : BGEHelper P) (m : ℕ) (aMat : ℕ → ℕ → Scalar) (rA : Scalar) : P :=
  (∑ j ∈ Finset.range m, ∑ i ∈ Finset.range n,
    (aMat j i • gen1 cx j i - (aMat j i * aMat j i) • gen2 cx j i)) + rA • cx.X

def commitB (cx : BGEHelper P) (m : ℕ) (aMat : ℕ → ℕ → Scalar) (lDigits : ℕ → ℕ)
    (rB : Scalar) : P :=
  (∑ j ∈ Finset.range m, ∑ i ∈ Finset.range n,
    if lDigits j = i then gen1 cx j i - aMat j i • gen2 cx j i
    else aMat j i • gen2 cx j i) + rB • cx.X

def commitPk (cx : BGEHelper P) (m N : ℕ) (aMat : ℕ → ℕ → Scalar) (lDigits : ℕ → ℕ) (ring : List P)
    (ro : Scalar) (k : ℕ) : P :=
  (∑ i ∈ Finset.range N, (coeffs m aMat lDigits i m).getD k 0 • padded ring i) + ro • cx.X

/-- The ring is premultiplied, as in a transaction. -/
def challenge (cx : BGEHelper P) (contextHash : List UInt8) (ring1div8 : List P) (A B : P)
    (Pk : List P) : Scalar :=
  cx.hs (.hash contextHash :: ring1div8.map .point ++ [.point A, .point B] ++ Pk.map .point)

end BGE

open BGE

/-- The errors are the codes of `p_err`. That the secret is the one of its member is checked in
debug builds only. -/
def generateBGEProof (cx : BGEHelper P) (contextHash : List UInt8) (ring : List P) (secret : Scalar)
    (secretIndex : ℕ) (random : Randomness) : Except ℕ (BGEProof P) :=
  let ringSize := ring.length
  if ringSize = 0 then .error 0
  else if ringSize ≤ secretIndex then .error 1
  else
    let m := BGE.m ringSize
    let N := BGE.N ringSize
    let mn := m * n
    if NMax < N then .error 3
    else if mnMax < mn then .error 4
    else
      let aMat := BGE.aMat random.a
      let lDigits := digit secretIndex
      if !generatorsKnown cx mn then .error 5
      else
        let A := scalar1div8 • commitA cx m aMat random.rA
        let B := scalar1div8 • commitB cx m aMat lDigits random.rB
        let Pk := (List.range m).map fun k =>
          scalar1div8 • commitPk cx m N aMat lDigits ring (random.ro k) k
        let x := challenge cx contextHash (ring.map (scalar1div8 • ·)) A B Pk
        .ok {
          A, B, Pk
          f := (List.range m).flatMap fun j => [1, 2, 3].map fun i =>
            aMat j i + if lDigits j = i then x else 0
          y := random.rA + x * random.rB
          z := secret * x ^ m - ∑ k ∈ Finset.range m, x ^ k * random.ro k }

/-! ## Verification -/

namespace BGE

/-- An answer. That of digit 0 is what the others lack to the challenge. -/
def answer (x : Scalar) (f : List Scalar) (j i : ℕ) : Scalar :=
  if i = 0 then [1, 2, 3].foldl (fun f0 i => f0 - f.getD (j * (n - 1) + i - 1) 0) x
  else f.getD (j * (n - 1) + i - 1) 0

def sumOfBits (cx : BGEHelper P) (m : ℕ) (x : Scalar) (proof : BGEProof P) : P :=
  (8 : Scalar) • proof.A + x • (8 : Scalar) • proof.B -
    (∑ j ∈ Finset.range m, ∑ i ∈ Finset.range n,
      (answer x proof.f j i • gen1 cx j i +
        (answer x proof.f j i * (x - answer x proof.f j i)) • gen2 cx j i)) -
    proof.y • cx.X

def pVec (m : ℕ) (x : Scalar) (f : List Scalar) (i : ℕ) : Scalar :=
  ∏ j ∈ Finset.range m, answer x f j (digit i j)

def sumOfRing (cx : BGEHelper P) (m N : ℕ) (x : Scalar) (ring1div8 : List P)
    (proof : BGEProof P) : P :=
  (∑ i ∈ Finset.range N, pVec m x proof.f i • padded (ring1div8.map ((8 : Scalar) • ·)) i) -
    (∑ k ∈ Finset.range m, x ^ k • (8 : Scalar) • proof.Pk.getD k 0) - proof.z • cx.X

end BGE

def verifyBGEProof [DecidableEq P] (cx : BGEHelper P) (contextHash : List UInt8)
    (ring1div8 : List P) (proof : BGEProof P) :
    Except ℕ Unit :=
  let ringSize := ring1div8.length
  if ringSize = 0 then .error 0
  else
    let m := BGE.m ringSize
    let N := BGE.N ringSize
    if proof.Pk.length ≠ m then .error 1
    else if proof.f.length ≠ m * (n - 1) then .error 2
    else
      let x := challenge cx contextHash ring1div8 proof.A proof.B proof.Pk
      if !generatorsKnown cx (m * n) then .error 5
      else
        let Z := sumOfBits cx m x proof
        if Z ≠ 0 then .error 100
        else
          let Z := Z + sumOfRing cx m N x ring1div8 proof
          if Z ≠ 0 then .error 101
          else .ok ()

namespace BGE

/-! ## The coefficients -/

def evalCoeffs (x : Scalar) (coeffs : List Scalar) : Scalar :=
  coeffs.foldr (fun c value => c + x * value) 0

theorem evalCoeffs_append (x c : Scalar) (coeffs : List Scalar) :
    evalCoeffs x (coeffs ++ [c]) = evalCoeffs x coeffs + x ^ coeffs.length * c := by
  induction coeffs with
  | nil => simp [evalCoeffs]
  | cons c' coeffs inductionHypothesis =>
      simp only [evalCoeffs, List.cons_append, List.foldr_cons,
        List.length_cons] at inductionHypothesis ⊢
      rw [inductionHypothesis]
      ring

theorem evalCoeffs_map (x a : Scalar) (coeffs : List Scalar) :
    evalCoeffs x (coeffs.map (· * a)) = evalCoeffs x coeffs * a := by
  induction coeffs with
  | nil => simp [evalCoeffs]
  | cons c coeffs inductionHypothesis =>
      simp only [evalCoeffs, List.map_cons, List.foldr_cons] at inductionHypothesis ⊢
      rw [inductionHypothesis]
      ring

theorem evalCoeffs_eq_sum (x : Scalar) {coeffs : List Scalar} {m : ℕ} (fits : coeffs.length ≤ m) :
    ∑ k ∈ Finset.range m, x ^ k * coeffs.getD k 0 = evalCoeffs x coeffs := by
  induction coeffs generalizing m with
  | nil => simp [evalCoeffs]
  | cons c coeffs inductionHypothesis =>
      obtain ⟨m, rfl⟩ : ∃ m', m = m' + 1 := ⟨m - 1, by simp at fits; omega⟩
      have rest := inductionHypothesis (m := m) (by simpa using fits)
      have shifted (k : ℕ) :
          x ^ (k + 1) * (c :: coeffs).getD (k + 1) 0 = x * (x ^ k * coeffs.getD k 0) := by
        rw [List.getD_cons_succ]
        ring
      rw [Finset.sum_range_succ']
      simp only [shifted, ← Finset.mul_sum, rest]
      simp only [evalCoeffs, List.foldr_cons, List.getD_cons_zero]
      ring

@[simp]
theorem length_mulLinear (a carry : Scalar) (coeffs : List Scalar) :
    (mulLinear a carry coeffs).1.length = coeffs.length := by
  induction coeffs generalizing carry with
  | nil => rfl
  | cons old coeffs inductionHypothesis => simp [mulLinear, inductionHypothesis]

/-- The last carry is the leading coefficient. -/
theorem mulLinear_snd (a carry : Scalar) (coeffs : List Scalar) :
    (mulLinear a carry coeffs).2 = coeffs.getLastD carry := by
  induction coeffs generalizing carry with
  | nil => rfl
  | cons old coeffs inductionHypothesis =>
      rw [List.getLastD_cons]
      exact inductionHypothesis old

theorem evalCoeffs_mulLinear (x a carry : Scalar) (coeffs : List Scalar) :
    evalCoeffs x (mulLinear a carry coeffs).1 + x ^ coeffs.length * (mulLinear a carry coeffs).2 =
      carry + (a + x) * evalCoeffs x coeffs := by
  induction coeffs generalizing carry with
  | nil => simp [evalCoeffs, mulLinear]
  | cons old coeffs inductionHypothesis =>
      have rest := inductionHypothesis old
      simp only [evalCoeffs, mulLinear, List.foldr_cons, List.length_cons] at rest ⊢
      linear_combination x * rest

/-- A column before the last digit. Its polynomial is the product so far, and it is as long as it
can be only if all digits were the ones committed to, and then its leading coefficient is 1. -/
structure Column (aMat : ℕ → ℕ → Scalar) (lDigits : ℕ → ℕ) (x : Scalar) (i j : ℕ)
    (column : List Scalar) : Prop where
  short : column.length ≤ j + 1
  matching : column.length = j + 1 ↔ ∀ j' < j, digit i j' = lDigits j'
  leading : column.length = j + 1 → column.getLastD 0 = 1
  value : evalCoeffs x column =
    ∏ j' ∈ Finset.range j, (aMat j' (digit i j') + if lDigits j' = digit i j' then x else 0)

theorem column_coeffs {m : ℕ} (aMat : ℕ → ℕ → Scalar) (lDigits : ℕ → ℕ) (x : Scalar) (i : ℕ) {j : ℕ}
    (before : j < m) :
    Column aMat lDigits x i j (coeffs m aMat lDigits i j) := by
  induction j with
  | zero =>
      exact ⟨by simp [coeffs], by simp [coeffs], by simp [coeffs], by simp [coeffs, evalCoeffs]⟩
  | succ j inductionHypothesis =>
      have column := inductionHypothesis (by omega)
      have matchingSucc : (∀ j' < j + 1, digit i j' = lDigits j') ↔
          (∀ j' < j, digit i j' = lDigits j') ∧ digit i j = lDigits j := by
        simp only [Nat.lt_succ_iff_lt_or_eq, or_imp, forall_and, forall_eq]
      by_cases same : digit i j = lDigits j
      · have room :
            (mulLinear (aMat j (digit i j)) 0 (coeffs m aMat lDigits i j)).1.length < m := by
          rw [length_mulLinear]
          exact column.short.trans_lt before
        have product := evalCoeffs_mulLinear x (aMat j (digit i j)) 0 (coeffs m aMat lDigits i j)
        simp only [coeffs, if_pos same, if_pos room]
        refine ⟨?_, ?_, ?_, ?_⟩
        · simpa using column.short
        · rw [List.length_append, length_mulLinear, List.length_singleton, Nat.add_right_cancel_iff,
            column.matching, matchingSucc]
          exact ⟨fun matching => ⟨matching, same⟩, And.left⟩
        · intro full
          rw [List.getLastD_concat, mulLinear_snd]
          exact column.leading (by simpa using full)
        · rw [evalCoeffs_append, length_mulLinear, product, column.value, Finset.prod_range_succ,
            if_pos same.symm]
          ring
      · simp only [coeffs, if_neg same]
        have short := column.short
        refine ⟨?_, ?_, ?_, ?_⟩
        · rw [List.length_map]
          omega
        · rw [matchingSucc, List.length_map]
          exact ⟨fun full => by omega, fun matching => absurd matching.2 same⟩
        · rw [List.length_map]
          omega
        · rw [evalCoeffs_map, column.value, Finset.prod_range_succ, if_neg (Ne.symm same), add_zero]

/-- After the last digit only the power that has no place is missing. -/
theorem evalCoeffs_coeffs {m : ℕ} (positive : 1 ≤ m) (aMat : ℕ → ℕ → Scalar) (lDigits : ℕ → ℕ)
    (x : Scalar) (i : ℕ) :
    (coeffs m aMat lDigits i m).length ≤ m ∧
      evalCoeffs x (coeffs m aMat lDigits i m) +
        (if ∀ j < m, digit i j = lDigits j then x ^ m else 0) =
        ∏ j ∈ Finset.range m, (aMat j (digit i j) + if lDigits j = digit i j then x else 0) := by
  obtain ⟨j, rfl⟩ : ∃ j, m = j + 1 := ⟨m - 1, by omega⟩
  have column := column_coeffs (m := j + 1) aMat lDigits x i (Nat.lt_succ_self j)
  have matchingSucc : (∀ j' < j + 1, digit i j' = lDigits j') ↔
      (∀ j' < j, digit i j' = lDigits j') ∧ digit i j = lDigits j := by
    simp only [Nat.lt_succ_iff_lt_or_eq, or_imp, forall_and, forall_eq]
  by_cases same : digit i j = lDigits j
  · have product := evalCoeffs_mulLinear x (aMat j (digit i j)) 0 (coeffs (j + 1) aMat lDigits i j)
    rw [mulLinear_snd] at product
    by_cases full : (coeffs (j + 1) aMat lDigits i j).length = j + 1
    · have noRoom :
          ¬ (mulLinear (aMat j (digit i j)) 0 (coeffs (j + 1) aMat lDigits i j)).1.length <
            j + 1 := by simp [full]
      rw [full, column.leading full] at product
      simp only [coeffs, if_pos same, if_neg noRoom]
      refine ⟨by simp [full], ?_⟩
      rw [if_pos (matchingSucc.mpr ⟨column.matching.mp full, same⟩), Finset.prod_range_succ,
        if_pos same.symm, ← column.value]
      linear_combination product
    · have short := column.short
      have room : (mulLinear (aMat j (digit i j)) 0 (coeffs (j + 1) aMat lDigits i j)).1.length <
          j + 1 := by
        rw [length_mulLinear]
        omega
      simp only [coeffs, if_pos same, if_pos room]
      refine ⟨by simp; omega, ?_⟩
      rw [if_neg fun matching => full (column.matching.mpr (matchingSucc.mp matching).1),
        evalCoeffs_append, length_mulLinear, mulLinear_snd, Finset.prod_range_succ,
        if_pos same.symm, ← column.value]
      linear_combination product
  · simp only [coeffs, if_neg same]
    refine ⟨by simpa using column.short, ?_⟩
    rw [if_neg fun matching => same (matchingSucc.mp matching).2, evalCoeffs_map, column.value,
      Finset.prod_range_succ, if_neg (Ne.symm same)]
    ring

/-! ## What is generated is accepted -/

omit [AddCommGroup P] [Module Scalar P] in
theorem generatorsKnown_iff (cx : BGEHelper P) (mn : ℕ) :
    generatorsKnown cx mn = true ↔ mn ≤ mnMax := by
  simp only [generatorsKnown, getGenerator, List.all_eq_true, List.mem_range, Bool.and_eq_true]
  constructor
  · intro known
    by_contra many
    have last := (known mnMax (by omega)).1
    simp at last
  · intro few index inside
    rw [if_neg (by simp only [mnMax] at few ⊢; omega),
      if_neg (by simp only [mnMax] at few ⊢; omega)]
    exact ⟨rfl, rfl⟩

theorem getD_flatMap_three (g : ℕ → ℕ → Scalar) {m j : ℕ} (row : j < m) {i : ℕ} (positive : 1 ≤ i)
    (small : i < n) :
    ((List.range m).flatMap fun j => [1, 2, 3].map (g j)).getD (j * (n - 1) + i - 1) 0 = g j i := by
  induction m with
  | zero => omega
  | succ m inductionHypothesis =>
      have rowsLength :
          ((List.range m).flatMap fun j => [1, 2, 3].map (g j)).length = m * (n - 1) := by simp [n]
      simp only [n] at small
      rw [List.range_succ, List.flatMap_append]
      by_cases earlier : j < m
      · rw [List.getD_append _ _ _ _ (by rw [rowsLength]; simp only [n]; omega)]
        exact inductionHypothesis earlier
      · obtain rfl : j = m := by omega
        rw [List.getD_append_right _ _ _ _ (by rw [rowsLength]; omega), rowsLength,
          show j * (n - 1) + i - 1 - j * (n - 1) = i - 1 by omega]
        obtain rfl | rfl | rfl : i = 1 ∨ i = 2 ∨ i = 3 := by omega
        all_goals rfl

/-- The answers, that of digit 0 too, are the masked bits times the challenge. -/
theorem answer_generated (a : ℕ → ℕ → Scalar) {lDigits : ℕ → ℕ} (x : Scalar) {m j : ℕ} (row : j < m)
    (isDigit : lDigits j < n) {i : ℕ} (small : i < n) :
    answer x ((List.range m).flatMap fun j => [1, 2, 3].map fun i =>
      aMat a j i + if lDigits j = i then x else 0) j i =
      aMat a j i + if lDigits j = i then x else 0 := by
  have entries {i : ℕ} :=
    getD_flatMap_three (fun j i => aMat a j i + if lDigits j = i then x else 0) row (i := i)
  rw [answer]
  split
  · next isZero =>
      subst isZero
      simp only [List.foldl_cons, List.foldl_nil, entries (i := 1) (by decide) (by decide),
        entries (i := 2) (by decide) (by decide), entries (i := 3) (by decide) (by decide)]
      simp only [aMat, List.foldl_cons, List.foldl_nil, if_pos, one_ne_zero, if_false,
        OfNat.ofNat_ne_zero]
      obtain isDigit | isDigit | isDigit | isDigit : lDigits j = 0 ∨ lDigits j = 1 ∨ lDigits j = 2 ∨
          lDigits j = 3 := by
        simp only [n] at isDigit
        omega
      all_goals
        simp [isDigit]
        try ring
  · next positive => exact entries (by omega) small

theorem sumOfBits_generated (cx : BGEHelper P) {m : ℕ} (a : ℕ → ℕ → Scalar) {lDigits : ℕ → ℕ}
    (areDigits : ∀ j, lDigits j < n) (rA rB x : Scalar) {proof : BGEProof P}
    (isA : proof.A = scalar1div8 • commitA cx m (aMat a) rA)
    (isB : proof.B = scalar1div8 • commitB cx m (aMat a) lDigits rB)
    (isF : proof.f = (List.range m).flatMap fun j => [1, 2, 3].map fun i =>
      aMat a j i + if lDigits j = i then x else 0)
    (isY : proof.y = rA + x * rB) : sumOfBits cx m x proof = 0 := by
  have entry {j i : ℕ} (row : j < m) (small : i < n) :
      answer x proof.f j i • gen1 cx j i +
        (answer x proof.f j i * (x - answer x proof.f j i)) • gen2 cx j i =
        (aMat a j i • gen1 cx j i - (aMat a j i * aMat a j i) • gen2 cx j i) +
          x • if lDigits j = i then gen1 cx j i - aMat a j i • gen2 cx j i
            else aMat a j i • gen2 cx j i := by
    rw [isF, answer_generated a x row (areDigits j) small]
    split <;> module
  have entries : ∑ j ∈ Finset.range m, ∑ i ∈ Finset.range n,
      (answer x proof.f j i • gen1 cx j i +
        (answer x proof.f j i * (x - answer x proof.f j i)) • gen2 cx j i) =
        ∑ j ∈ Finset.range m, ∑ i ∈ Finset.range n,
          (aMat a j i • gen1 cx j i - (aMat a j i * aMat a j i) • gen2 cx j i) +
          x • ∑ j ∈ Finset.range m, ∑ i ∈ Finset.range n,
            if lDigits j = i then gen1 cx j i - aMat a j i • gen2 cx j i
            else aMat a j i • gen2 cx j i := by
    simp only [Finset.smul_sum, ← Finset.sum_add_distrib]
    exact Finset.sum_congr rfl fun j row => Finset.sum_congr rfl fun i small =>
      entry (Finset.mem_range.mp row) (Finset.mem_range.mp small)
  rw [sumOfBits, isA, isB, isY, entries, eight_smul_scalar1div8_smul, eight_smul_scalar1div8_smul,
    commitA, commitB]
  module

theorem pVec_generated {m : ℕ} (positive : 1 ≤ m) (a : ℕ → ℕ → Scalar) {lDigits : ℕ → ℕ}
    (areDigits : ∀ j, lDigits j < n) (x : Scalar) (i : ℕ) :
    pVec m x ((List.range m).flatMap fun j => [1, 2, 3].map fun i =>
      aMat a j i + if lDigits j = i then x else 0) i =
      ∑ k ∈ Finset.range m, x ^ k * (coeffs m (aMat a) lDigits i m).getD k 0 + if ∀ j <
        m, digit i j = lDigits j then x ^ m else 0 := by
  obtain ⟨short, value⟩ := evalCoeffs_coeffs positive (aMat a) lDigits x i
  rw [evalCoeffs_eq_sum x short, value, pVec]
  exact Finset.prod_congr rfl fun j row =>
    answer_generated a x (Finset.mem_range.mp row) (areDigits j) (digit_lt i j)

theorem padded_map (ring : List P) (s t : Scalar) (inverse : ∀ p : P, s • t • p = p) (i : ℕ) :
    padded ((ring.map (t • ·)).map (s • ·)) i = padded ring i := by
  have same : (ring.map (t • ·)).map (s • ·) = ring := by simp [Function.comp_def, inverse]
  rw [same]

/-- All that is left is the member, less the multiple of `X` it should be. -/
theorem sumOfRing_generated (cx : BGEHelper P) {m : ℕ} (positive : 1 ≤ m) (a : ℕ → ℕ → Scalar)
    (ro : ℕ → Scalar) (ring : List P) (secret x : Scalar) {secretIndex : ℕ}
    (fits : secretIndex < n ^ m) {proof : BGEProof P} (isPk : proof.Pk = (List.range m).map fun k =>
      scalar1div8 • commitPk cx m (n ^ m) (aMat a) (digit secretIndex) ring (ro k) k)
    (isF : proof.f = (List.range m).flatMap fun j =>
      [1, 2, 3].map fun i => aMat a j i + if digit secretIndex j = i then x else 0)
    (isZ : proof.z = secret * x ^ m - ∑ k ∈ Finset.range m, x ^ k * ro k) :
    sumOfRing cx m (n ^ m) x (ring.map (scalar1div8 • ·)) proof =
      x ^ m • (padded ring secretIndex - secret • cx.X) := by
  have keys : ∑ k ∈ Finset.range m, x ^ k • (8 : Scalar) • proof.Pk.getD k 0 =
      ∑ i ∈ Finset.range (n ^ m), (∑ k ∈ Finset.range m,
        x ^ k * (coeffs m (aMat a) (digit secretIndex) i m).getD k 0) • padded ring i +
        (∑ k ∈ Finset.range m, x ^ k * ro k) • cx.X := by
    simp only [Finset.sum_smul]
    rw [Finset.sum_comm, ← Finset.sum_add_distrib]
    refine Finset.sum_congr rfl fun k inside => ?_
    rw [isPk, List.getD_eq_getElem _ _ (by simpa using inside), List.getElem_map,
      List.getElem_range, eight_smul_scalar1div8_smul, commitPk, smul_add, Finset.smul_sum,
      smul_smul]
    simp only [smul_smul]
  have isMember {i : ℕ} (inside : i < n ^ m) : (∀ j < m, digit i j = digit secretIndex j) ↔
      i = secretIndex := by
    constructor
    · intro same
      rw [← ofDigits_digit inside, ofDigits_congr same, ofDigits_digit fits]
    · rintro rfl j _
      rfl
  have members : ∑ i ∈ Finset.range (n ^ m), pVec m x proof.f i • padded ring i =
      ∑ i ∈ Finset.range (n ^ m), (∑ k ∈ Finset.range m,
        x ^ k * (coeffs m (aMat a) (digit secretIndex) i m).getD k 0) • padded ring i +
        x ^ m • padded ring secretIndex := by
    have single : ∑ i ∈ Finset.range (n ^ m),
        (if ∀ j < m, digit i j = digit secretIndex j then x ^ m else 0) • padded ring i =
        x ^ m • padded ring secretIndex := by
      rw [Finset.sum_eq_single_of_mem secretIndex (Finset.mem_range.mpr fits),
        if_pos fun _ _ => rfl]
      intro i inside other
      rw [if_neg fun same => other ((isMember (Finset.mem_range.mp inside)).mp same), zero_smul]
    rw [← single, ← Finset.sum_add_distrib]
    refine Finset.sum_congr rfl fun i _ => ?_
    rw [isF, pVec_generated positive a (digit_lt secretIndex), add_smul]
  simp only [sumOfRing, padded_map ring _ _ eight_smul_scalar1div8_smul]
  rw [members, keys, isZ]
  module

omit [AddCommGroup P] [Module Scalar P] in
theorem known_of_few (cx : BGEHelper P) {ringSize : ℕ} (few : ringSize ≤ NMax) :
    generatorsKnown cx (m ringSize * n) = true := by
  have fewDigits := (m_le_iff ringSize).mpr few
  rw [generatorsKnown_iff]
  simp only [n, mnMax]
  omega

/-- The fields of what is generated, and that there is no other error than for the size of the ring
and the index. -/
theorem generateBGEProof_eq (cx : BGEHelper P) (contextHash : List UInt8) {ring : List P}
    (few : ring.length ≤ NMax) (secret : Scalar) {secretIndex : ℕ}
    (inside : secretIndex < ring.length) (random : Randomness) :
    ∃ proof, generateBGEProof cx contextHash ring secret secretIndex random = .ok proof ∧
      proof.A = scalar1div8 • commitA cx (m ring.length) (aMat random.a) random.rA ∧
      proof.B = scalar1div8 •
        commitB cx (m ring.length) (aMat random.a) (digit secretIndex) random.rB ∧
      proof.Pk = (List.range (m ring.length)).map (fun k => scalar1div8 •
        commitPk cx (m ring.length) (N ring.length) (aMat random.a) (digit secretIndex) ring
          (random.ro k) k) ∧
      ∃ x, x = challenge cx contextHash (ring.map (scalar1div8 • ·)) proof.A proof.B proof.Pk ∧
        proof.f = ((List.range (m ring.length)).flatMap fun j =>
          [1, 2, 3].map fun i => aMat random.a j i + if digit secretIndex j = i then x else 0) ∧
        proof.y = random.rA + x * random.rB ∧
        proof.z = secret * x ^ m ring.length - ∑ k ∈ Finset.range (m ring.length),
          x ^ k * random.ro k := by
  have known := known_of_few cx few
  have fitsN : ¬ NMax < N ring.length := by
    rw [N_eq, not_lt]
    exact (Nat.pow_le_pow_right (by decide) ((m_le_iff ring.length).mpr few)).trans (by decide)
  have fitsMn : ¬ mnMax < m ring.length * n := by simpa [generatorsKnown_iff] using known
  have empty : ring.length ≠ 0 := by omega
  simp only [generateBGEProof, if_neg empty, if_neg (not_le.mpr inside), if_neg fitsN,
    if_neg fitsMn, known, Bool.not_true, Bool.false_eq_true, if_false, Except.ok.injEq,
    exists_eq_left', true_and]
  exact ⟨_, rfl, rfl, rfl, rfl⟩

end BGE

open BGE in
/-- A proof is generated for every member of a ring that is not too large, and it is accepted
exactly if the secret is the one of the member, or if the challenge happens to be zero. -/
theorem verifyBGEProof_generateBGEProof [DecidableEq P] (cx : BGEHelper P)
    (contextHash : List UInt8) {ring : List P} (few : ring.length ≤ NMax) (secret : Scalar)
    {secretIndex : ℕ} (inside : secretIndex < ring.length) (random : Randomness) :
    ∃ proof, generateBGEProof cx contextHash ring secret secretIndex random = .ok proof ∧
      verifyBGEProof cx contextHash (ring.map (scalar1div8 • ·)) proof =
        if secret • cx.X = ring.getD secretIndex 0 ∨
          challenge cx contextHash (ring.map (scalar1div8 • ·)) proof.A proof.B proof.Pk = 0 then
            .ok () else .error 101 := by
  obtain ⟨proof, generated, isA, isB, isPk, x, isX, isF, isY, isZ⟩ :=
    generateBGEProof_eq cx contextHash few secret inside random
  refine ⟨proof, generated, ?_⟩
  have empty : ring.length ≠ 0 := by omega
  have positive := one_le_m ring.length
  have fits : secretIndex < n ^ m ring.length := by
    rw [← N_eq]
    exact inside.trans_le (le_N _)
  have pkLength : proof.Pk.length = m ring.length := by simp [isPk]
  have fLength : proof.f.length = m ring.length * (n - 1) := by simp [isF, n]
  have bits :=
    sumOfBits_generated cx random.a (digit_lt secretIndex) random.rA random.rB x isA isB isF isY
  rw [N_eq] at isPk
  have members := sumOfRing_generated cx positive random.a random.ro ring secret x fits isPk isF isZ
  rw [padded, if_pos inside] at members
  have isZero : x ^ m ring.length • (ring.getD secretIndex 0 - secret • cx.X) = 0 ↔
      secret • cx.X = ring.getD secretIndex 0 ∨ x = 0 := by
    rw [smul_eq_zero, pow_eq_zero_iff (by omega), sub_eq_zero,
      eq_comm (a := ring.getD secretIndex 0), or_comm]
  simp only [verifyBGEProof, List.length_map, if_neg empty, ← isX, pkLength, fLength,
    known_of_few cx few, bits, N_eq, members, zero_add, ne_eq, not_true_eq_false, if_false,
    Bool.not_true, Bool.false_eq_true, isZero]
  split <;> simp_all

open BGE in
theorem verifyBGEProof_generateBGEProof_second :
    ∃ proof, generateBGEProof (P := Scalar) ⟨fun _ => 2, 1, fun _ => 0⟩ [] [5, 7] 7 1
      ⟨fun _ _ => 3, 4, 5, fun _ => 6⟩ = .ok proof ∧
      verifyBGEProof ⟨fun _ => 2, 1,
        fun _ => 0⟩ [] [scalar1div8 • 5, scalar1div8 • 7] proof = .ok () := by
  have few : ([5, 7] : List Scalar).length ≤ NMax := by decide
  have inside : 1 < ([5, 7] : List Scalar).length := by decide
  obtain ⟨proof, generated, verified⟩ :=
    verifyBGEProof_generateBGEProof ⟨fun _ => 2, 1, fun _ => 0⟩ [] few 7 inside
    ⟨fun _ _ => 3, 4, 5, fun _ => 6⟩
  exact ⟨proof, generated, verified.trans (if_pos (.inl (by simp)))⟩

/-! ## What accepted proofs give away -/

namespace BGE

/-- A factor for each generator of a digit and value, of both kinds, and for `X`. -/
abbrev Factors := (ℕ → ℕ → Scalar) × (ℕ → ℕ → Scalar) × Scalar

/-- The sum of the generators and `X` with these factors. -/
def generatorMap (cx : BGEHelper P) (m : ℕ) : Factors →ₗ[Scalar] P where
  toFun factors := (∑ j ∈ Finset.range m, ∑ i ∈ Finset.range n,
    (factors.1 j i • gen1 cx j i + factors.2.1 j i • gen2 cx j i)) + factors.2.2 • cx.X
  map_add' factors factors' := by
    have entry (j i : ℕ) :
        (factors + factors').1 j i • gen1 cx j i + (factors + factors').2.1 j i • gen2 cx j i =
        (factors.1 j i • gen1 cx j i + factors.2.1 j i • gen2 cx j i) +
          (factors'.1 j i • gen1 cx j i + factors'.2.1 j i • gen2 cx j i) := by
      simp only [Prod.fst_add, Prod.snd_add, Pi.add_apply]
      module
    rw [Finset.sum_congr rfl fun j _ => Finset.sum_congr rfl fun i _ => entry j i]
    simp only [Finset.sum_add_distrib, Prod.snd_add, add_smul]
    abel
  map_smul' s factors := by
    have entry (j i : ℕ) : (s • factors).1 j i • gen1 cx j i + (s • factors).2.1 j i • gen2 cx j i =
        s • (factors.1 j i • gen1 cx j i + factors.2.1 j i • gen2 cx j i) := by
      simp only [Prod.smul_fst, Prod.smul_snd, Pi.smul_apply, smul_eq_mul]
      module
    rw [Finset.sum_congr rfl fun j _ => Finset.sum_congr rfl fun i _ => entry j i]
    rw [RingHom.id_apply, smul_add, Finset.smul_sum,
      Finset.sum_congr rfl fun j _ => Finset.smul_sum, Prod.smul_snd, Prod.smul_snd, smul_assoc]

/-- Some generator is there. -/
def Factors.Nontrivial (m : ℕ) (factors : Factors) : Prop :=
  ∃ j < m, ∃ i < n, factors.1 j i ≠ 0 ∨ factors.2.1 j i ≠ 0

/-- What is subtracted in the first sum. -/
def bitFactors (x : Scalar) (proof : BGEProof P) : Factors :=
  (answer x proof.f, fun j i => answer x proof.f j i * (x - answer x proof.f j i), proof.y)

theorem sumOfBits_eq (cx : BGEHelper P) (m : ℕ) (x : Scalar) (proof : BGEProof P) :
    sumOfBits cx m x proof =
      (8 : Scalar) • proof.A + x • (8 : Scalar) • proof.B -
        generatorMap cx m (bitFactors x proof) := by
  simp only [sumOfBits, generatorMap, bitFactors, LinearMap.coe_mk, AddHom.coe_mk]
  abel

/-- How far the answers of a proof are from the line through those of the first
and of the last one. -/
def bitRelation {T : ℕ} (x : Fin (T + 1) → Scalar) (proofs : Fin (T + 1) → BGEProof P)
    (t : Fin (T + 1)) : Factors :=
  DistinctChallenges.offLine x (fun t => bitFactors (x t) (proofs t)) 0 (Fin.last T) t

theorem generatorMap_bitRelation {cx : BGEHelper P} {m T : ℕ} (positive : 0 < T)
    {x : Fin (T + 1) → Scalar} (distinct : Function.Injective x) {A B : P}
    (proofs : Fin (T + 1) → BGEProof P) (isA : ∀ t, (proofs t).A = A) (isB : ∀ t, (proofs t).B = B)
    (zero : ∀ t, sumOfBits cx m (x t) (proofs t) = 0) (t : Fin (T + 1)) :
    generatorMap cx m (bitRelation x proofs t) = 0 := by
  refine DistinctChallenges.map_offLine (A := (8 : Scalar) • A) (B := (8 : Scalar) • B)
    _ (fun t => ?_) fun same => ?_
  · have isZero := zero t
    rw [sumOfBits_eq, isA, isB, sub_eq_zero] at isZero
    exact isZero.symm
  · have ends := congrArg Fin.val (distinct same)
    rw [Fin.val_zero, Fin.val_last] at ends
    omega

/-- The answers of a row sum to the challenge. -/
theorem sum_answer (x : Scalar) (f : List Scalar) (j : ℕ) :
    ∑ i ∈ Finset.range n, answer x f j i = x := by
  simp only [n, Finset.sum_range_succ, Finset.sum_range_zero, answer, List.foldl_cons,
    List.foldl_nil, if_pos, one_ne_zero, if_false, OfNat.ofNat_ne_zero]
  ring

theorem row_of_answers {T : ℕ} (three : 2 ≤ T) {x : Fin (T + 1) → Scalar}
    (distinct : Function.Injective x) (f : Fin (T + 1) → List Scalar) (a b c d : ℕ → Scalar) (j : ℕ)
    (affine : ∀ t, ∀ i < n, answer (x t) (f t) j i = a i + b i * x t ∧
      answer (x t) (f t) j i * (x t - answer (x t) (f t) j i) = c i + d i * x t) :
    ∃ isSet < n, ∀ i < n, b i = if i = isSet then 1 else 0 := by
  have bits (i : ℕ) (small : i < n) : b i = 0 ∨ b i = 1 := by
    apply DistinctChallenges.bit_of_affine
      (distinct.comp (Fin.castLE_injective (by omega : 3 ≤ T + 1))) (a i) (b i) (c i) (d i)
    intro t
    obtain ⟨isAffine, product⟩ := affine (Fin.castLE (by omega) t) i small
    rwa [isAffine] at product
  have row (t : Fin (T + 1)) :
      ∑ i ∈ Finset.range n, a i + (∑ i ∈ Finset.range n, b i) * x t = x t := by
    rw [Finset.sum_mul, ← Finset.sum_add_distrib]
    conv_rhs => rw [← sum_answer (x t) (f t) j]
    exact Finset.sum_congr rfl fun i small => ((affine t i (Finset.mem_range.mp small)).1).symm
  have sum : ∑ i ∈ Finset.range n, b i = 1 := by
    have apart : x ⟨0, by omega⟩ - x ⟨1, by omega⟩ ≠ 0 := sub_ne_zero.mpr fun same => by
      simpa using distinct same
    have product : (∑ i ∈ Finset.range n, b i - 1) * (x ⟨0, by omega⟩ - x ⟨1, by omega⟩) = 0 := by
      linear_combination row ⟨0, by omega⟩ - row ⟨1, by omega⟩
    exact sub_eq_zero.mp ((mul_eq_zero.mp product).resolve_right apart)
  refine DistinctChallenges.exists_bit bits sum fun count few isOne => ?_
  simp only [n] at few
  interval_cases count
  · exact absurd isOne (by decide)
  · rfl
  · exact absurd isOne (by decide)
  · exact absurd isOne (by decide)
  · exact absurd isOne (by decide)

omit [Module Scalar P] in
theorem padded_mem {ring : List P} (nonempty : ring.length ≠ 0) (i : ℕ) : padded ring i ∈ ring := by
  rw [padded]
  split
  · next inside => exact List.getD_eq_getElem ring 0 inside ▸ List.getElem_mem inside
  · exact List.getD_eq_getElem ring 0
      (by omega : ring.length - 1 < ring.length) ▸ List.getElem_mem _

theorem ok_of_verifyBGEProof [DecidableEq P] {cx : BGEHelper P} {contextHash : List UInt8}
    {ring1div8 : List P} {proof : BGEProof P}
    (verified : verifyBGEProof cx contextHash ring1div8 proof = .ok ()) :
    ring1div8.length ≠ 0 ∧ m ring1div8.length * n ≤ mnMax ∧
      sumOfBits cx (m ring1div8.length)
        (challenge cx contextHash ring1div8 proof.A proof.B proof.Pk) proof = 0 ∧
      sumOfRing cx (m ring1div8.length) (N ring1div8.length)
        (challenge cx contextHash ring1div8 proof.A proof.B proof.Pk)
        ring1div8 proof = 0 := by
  simp only [verifyBGEProof] at verified
  split at verified
  · cases verified
  · next nonempty =>
      split at verified
      · cases verified
      · split at verified
        · cases verified
        · split at verified
          · cases verified
          · next known =>
              split at verified
              · cases verified
              · next isZero =>
                  rw [ne_eq, not_not] at isZero
                  rw [isZero, zero_add] at verified
                  split at verified
                  · cases verified
                  · next isZero' =>
                      exact ⟨nonempty, (generatorsKnown_iff cx _).mp (by simpa using known), isZero,
                        not_not.mp isZero'⟩

omit [AddCommGroup P] [Module Scalar P] in
theorem onLine_of_trivial {m T : ℕ} {x : Fin (T + 1) → Scalar} {proofs : Fin (T + 1) → BGEProof P}
    {t : Fin (T + 1)} (isTrivial : ¬ (bitRelation x proofs t).Nontrivial m) {j i : ℕ} (row : j < m)
    (small : i < n) :
    DistinctChallenges.offLine x (fun t => answer (x t) (proofs t).f j i) 0 (Fin.last T) t = 0 ∧
      DistinctChallenges.offLine x
        (fun t => answer (x t) (proofs t).f j i * (x t - answer (x t) (proofs t).f j i)) 0
          (Fin.last T) t = 0 := by
  simp only [Factors.Nontrivial, not_exists, not_and, not_or, not_not] at isTrivial
  obtain ⟨answers, products⟩ := isTrivial j row i small
  simp only [bitRelation, bitFactors, DistinctChallenges.offLine, DistinctChallenges.slope,
    Prod.fst_sub, Prod.fst_add, Prod.smul_fst, Prod.snd_sub, Prod.snd_add, Prod.smul_snd,
    Pi.sub_apply, Pi.add_apply, Pi.smul_apply] at answers products
  exact ⟨answers, products⟩

omit [AddCommGroup P] [Module Scalar P] in
/-- Without a relation, the bits committed to are the digits of an index, and the product of the
answers on the digits of any index is a polynomial in the challenge that has the highest power for
this one only. -/
theorem exists_index_of_trivial {m T : ℕ} (three : 2 ≤ T) {x : Fin (T + 1) → Scalar}
    (distinct : Function.Injective x) (proofs : Fin (T + 1) → BGEProof P)
    (noRelation : ∀ t, ¬ (bitRelation x proofs t).Nontrivial m) :
    ∃ index < n ^ m, ∃ coeff : ℕ → ℕ →
      Scalar, (∀ i < n ^ m, coeff i m = if i = index then 1 else 0) ∧
      ∀ t i, pVec m (x t) (proofs t).f i = ∑ k ∈ Finset.range (m + 1), x t ^ k * coeff i k := by
  have lines (j : ℕ) (row : j < m) (i : ℕ) (small : i < n) : ∃ a b c d, ∀ t,
      answer (x t) (proofs t).f j i = a + b * x t ∧
        answer (x t) (proofs t).f j i * (x t - answer (x t) (proofs t).f j i) = c + d * x t := by
    obtain ⟨a, b, isAnswer⟩ :=
      DistinctChallenges.exists_line fun t => (onLine_of_trivial (noRelation t) row small).1
    obtain ⟨c, d, isProduct⟩ :=
      DistinctChallenges.exists_line fun t => (onLine_of_trivial (noRelation t) row small).2
    refine ⟨a, b, c, d, fun t => ⟨?_, ?_⟩⟩
    · rw [isAnswer t, smul_eq_mul, mul_comm]
    · rw [isProduct t, smul_eq_mul, mul_comm]
  choose! a b c d affine using lines
  have rows (j : ℕ) (row : j < m) : ∃ isSet < n, ∀ i < n, b j i = if i = isSet then 1 else 0 :=
    row_of_answers three distinct (fun t => (proofs t).f) (a j) (b j) (c j) (d j) j
      fun t i small => affine j row i small t
  choose! digits digitsSmall isSet using rows
  have polynomials (i : ℕ) :=
    DistinctChallenges.exists_coeffs (fun j => a j (digit i j)) (fun j => b j (digit i j)) m
  choose coeff leading value using polynomials
  refine ⟨ofDigits digits m, ofDigits_lt digitsSmall, coeff, fun i inside => ?_, fun t i => ?_⟩
  · rw [leading,
      Finset.prod_congr rfl fun j row =>
        isSet j (Finset.mem_range.mp row) (digit i j) (digit_lt i j)]
    split
    · next isIndex =>
        refine Finset.prod_eq_one fun j row => if_pos ?_
        rw [isIndex, digit_ofDigits digitsSmall (Finset.mem_range.mp row)]
    · next other =>
        have differs : ∃ j < m, digit i j ≠ digits j := by
          by_contra same
          push Not at same
          exact other (by rw [← ofDigits_congr same, ofDigits_digit inside])
        obtain ⟨j, row, differs⟩ := differs
        exact Finset.prod_eq_zero (Finset.mem_range.mpr row) (if_neg differs)
  · rw [← value i (x t), pVec]
    exact Finset.prod_congr rfl fun j row =>
      (affine j (Finset.mem_range.mp row) (digit i j) (digit_lt i j) t).1

/-- The secret from as many proofs as the challenge has powers. -/
def extractedSecret {m : ℕ} (x : Fin (m + 1) → Scalar)
    (proofs : Fin (m + 1) → BGEProof P) : Scalar :=
  ∑ t, Lagrange.nodalWeight Finset.univ x t * (proofs t).z

/-- The second sum then leaves the member at this index. -/
theorem extractedSecret_smul (cx : BGEHelper P) {m : ℕ} {x : Fin (m + 1) → Scalar}
    (distinct : Function.Injective x) {ring1div8 : List P} {Pk : List P}
    (proofs : Fin (m + 1) → BGEProof P) (isPk : ∀ t, (proofs t).Pk = Pk)
    (zero : ∀ t, sumOfRing cx m (n ^ m) (x t) ring1div8 (proofs t) = 0) {index : ℕ}
    (inside : index < n ^ m) {coeff : ℕ → ℕ → Scalar}
    (leading : ∀ i < n ^ m, coeff i m = if i = index then 1 else 0)
    (value : ∀ t i, pVec m (x t) (proofs t).f i = ∑ k ∈ Finset.range (m + 1), x t ^ k * coeff i k) :
    extractedSecret x proofs • cx.X = padded (ring1div8.map ((8 : Scalar) • ·)) index := by
  set members := padded (ring1div8.map ((8 : Scalar) • ·))
  have values (t : Fin (m + 1)) : ∑ k ∈ Finset.range (m + 1), x t ^ k •
      (∑ i ∈ Finset.range (n ^ m), coeff i k • members i - if k < m then
        (8 : Scalar) • Pk.getD k 0 else 0) =
        (proofs t).z • cx.X := by
    have isZero := zero t
    rw [sumOfRing, isPk, sub_eq_zero] at isZero
    rw [← isZero]
    simp only [value, smul_sub, Finset.smul_sum, smul_smul, Finset.sum_sub_distrib, Finset.sum_smul]
    rw [Finset.sum_comm, sub_right_inj, Finset.sum_range_succ, if_neg (lt_irrefl _),
      smul_zero, add_zero]
    exact Finset.sum_congr rfl fun k inside => by
      rw [if_pos (Finset.mem_range.mp inside), smul_smul]
  have combination := DistinctChallenges.sum_nodalWeight_smul distinct fun k =>
    ∑ i ∈ Finset.range (n ^ m), coeff i k • members i - if k < m then
      (8 : Scalar) • Pk.getD k 0 else 0
  simp only [values, smul_smul, ← Finset.sum_smul, lt_irrefl, if_false, sub_zero] at combination
  rw [extractedSecret, combination, Finset.sum_eq_single_of_mem index (Finset.mem_range.mpr inside),
    leading index inside, if_pos rfl, one_smul]
  intro i fits other
  rw [leading i (Finset.mem_range.mp fits), if_neg other, zero_smul]

end BGE

open BGE in
/-- Proofs for one commitment that are accepted with distinct challenges, as many as the challenge
has powers and at least three: what is extracted from them is the secret of a member of the ring, or
the answers give a relation between the generators away. -/
theorem secret_of_verifyBGEProof [DecidableEq P] {cx : BGEHelper P} (contextHash : List UInt8)
    {ring1div8 : List P} {A B : P} {Pk : List P}
    (hs : Fin (max 2 (m ring1div8.length) + 1) → List (HsItem P) → Scalar)
    (proofs : Fin (max 2 (m ring1div8.length) + 1) → BGEProof P)
    (commitments : ∀ t, (proofs t).A = A ∧ (proofs t).B = B ∧ (proofs t).Pk = Pk)
    (distinct : Function.Injective fun t =>
      challenge { cx with hs := hs t } contextHash ring1div8 A B Pk)
    (verified : ∀ t,
      verifyBGEProof { cx with hs := hs t } contextHash ring1div8 (proofs t) = .ok ()) :
    let x := fun t => challenge { cx with hs := hs t } contextHash ring1div8 A B Pk
    let first : Fin (m ring1div8.length + 1) → Fin (max 2 (m ring1div8.length) + 1) :=
      Fin.castLE (Nat.succ_le_succ (le_max_right 2 (m ring1div8.length)))
    (∃ member ∈ ring1div8, extractedSecret (x ∘ first) (proofs ∘ first) • cx.X =
      (8 : Scalar) • member) ∨
      ∃ t, (bitRelation x proofs t).Nontrivial (m ring1div8.length) ∧
        generatorMap cx (m ring1div8.length) (bitRelation x proofs t) = 0 := by
  intro x first
  have accepted (t : Fin (max 2 (m ring1div8.length) + 1)) := ok_of_verifyBGEProof (verified t)
  simp only [(commitments _).1, (commitments _).2.1, (commitments _).2.2, N_eq] at accepted
  by_cases noRelation : ∀ t, ¬ (bitRelation x proofs t).Nontrivial (m ring1div8.length)
  · left
    obtain ⟨index, inside, coeff, leading, value⟩ :=
      exists_index_of_trivial (le_max_left _ _) distinct proofs noRelation
    have isSecret :=
      extractedSecret_smul cx (distinct.comp (Fin.castLE_injective _)) (proofs ∘ first)
      (fun t => (commitments _).2.2) (fun t => (accepted _).2.2.2) inside leading fun t i =>
        value _ i
    have nonempty : (ring1div8.map ((8 : Scalar) • ·)).length ≠ 0 := by simpa using (accepted 0).1
    obtain ⟨member, isMember, isMultiple⟩ := List.mem_map.mp (padded_mem nonempty index)
    exact ⟨member, isMember, isSecret.trans isMultiple.symm⟩
  · right
    push Not at noRelation
    obtain ⟨t, nontrivial⟩ := noRelation
    exact ⟨t, nontrivial,
      generatorMap_bitRelation (by omega) distinct proofs (fun t => (commitments t).1)
      (fun t => (commitments t).2.1) (fun t => (accepted t).2.2.1) t⟩

def smallBGEHelper : BGEHelper Scalar := ⟨fun _ => 0, 1, fun _ => ((2 : ℕ) : Scalar)⟩

/-- For a member that is 5. -/
def smallBGEProof (x : Scalar) : BGEProof Scalar := 
  ⟨0, scalar1div8 • ((2 : ℕ) : Scalar), [0], [0, 0, 0], 0, x * ((5 : ℕ) : Scalar)⟩

open BGE in
theorem secret_of_verifyBGEProof_single :
    (∃ member ∈ [scalar1div8 • (5 : Scalar)],
      extractedSecret (m := 1) (fun t => ((t : ℕ) : Scalar)) (fun t =>
        smallBGEProof ((t : ℕ) : Scalar)) •
        smallBGEHelper.X = (8 : Scalar) • member) ∨
      ∃ t : Fin 3,
        (bitRelation (T := 2) (fun t => ((t : ℕ) : Scalar))
          (fun t => smallBGEProof ((t : ℕ) : Scalar)) t).Nontrivial 1 ∧
          generatorMap smallBGEHelper 1
            (bitRelation (T := 2) (fun t => ((t : ℕ) : Scalar))
              (fun t => smallBGEProof ((t : ℕ) : Scalar)) t) = 0 := by
  refine secret_of_verifyBGEProof [] (fun t _ => ((t : ℕ) : Scalar))
    (fun t => smallBGEProof ((t : ℕ) : Scalar)) (fun t => ⟨rfl, rfl, rfl⟩) (fun s t same => ?_)
      fun t => ?_
  · have bound (t : Fin (max 2 (m 1) + 1)) : (t : ℕ) < Transactions.groupOrder :=
      t.isLt.trans (by decide)
    have residues := (ZMod.natCast_eq_natCast_iff' (s : ℕ) (t : ℕ) Transactions.groupOrder).mp same
    rw [Nat.mod_eq_of_lt (bound s), Nat.mod_eq_of_lt (bound t)] at residues
    exact Fin.ext residues
  · have isM : m 1 = 1 := by decide
    have isN : N 1 = 4 := by decide
    have inverse (a : Scalar) : 8 * (scalar1div8 * a) = a := eight_smul_scalar1div8_smul a
    simp [smallBGEHelper, smallBGEProof, verifyBGEProof, isM, isN, n, generatorsKnown, getGenerator,
      mnMax, sumOfBits, sumOfRing, answer, challenge, pVec, padded, gen1, Finset.sum_range_succ,
      digit, inverse]
    intro index small
    omega

end Zano.Crypto
