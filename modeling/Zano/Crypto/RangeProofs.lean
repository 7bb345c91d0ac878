import Mathlib
import Zano.Lib.WeightedInnerProduct
import Zano.Crypto.Msm

/-! # Range proofs

A Bulletproof+ shows for commitments to some values that each value is below `2 ^ N`. The proof with
one mask a commitment and that with two of them are the same but for the masks, so that both are
made by one function over any module of masks, to which the way a mask is blinded is given.

Vectors are functions of the index, and their size is the one that the code allocates. Keys are
points premultiplied by 1/8. The size of a bit vector is a power of two, as it is for both traits in
use.
-/

namespace Zano.Crypto

open Transactions (Scalar groupOrder scalar1div8)

variable {P M : Type*} [AddCommGroup P] [Module Scalar P] [AddCommGroup M] [Module Scalar M]

/-- `bpp_signature` and `bppe_signature`. `delta` is one scalar in the first and
two in the second. -/
structure BppSignature (P M : Type*) where
  L : List P
  R : List P
  A0 : P
  A : P
  B : P
  r : Scalar
  s : Scalar
  delta : M

/-- What is drawn at random, the masks of every round by its number. -/
structure BppRandom (M : Type*) where
  alpha : M
  dL : ℕ → M
  dR : ℕ → M
  r : Scalar
  s : Scalar
  delta : M
  eta : M

/-! ## Vectors -/

/-- A vector of powers of `x`. -/
def powers (x : Scalar) : ℕ → Scalar
  | 0 => 1
  | i + 1 => powers x i * x

/-- The first row of `d`. -/
def dRow (zSq : Scalar) : ℕ → Scalar
  | 0 => zSq
  | i + 1 => dRow zSq i * zSq

/-- `d(i, j)` -/
def dAt (zSq : Scalar) (i : ℕ) : ℕ → Scalar
  | 0 => dRow zSq i
  | j + 1 => dAt zSq i j + dAt zSq i j

/-- The matrix as the vector that it is stored in. -/
def dVec (N : ℕ) (zSq : Scalar) (x : ℕ) : Scalar := dAt zSq (x / N) (x % N)

def aLs (N : ℕ) (values : List Scalar) (x : ℕ) : Scalar :=
  match values[x / N]? with
  | some v => if getBit v (x % N) then 1 else 0
  | none => 0

/-- The elements of the padding area are those of a zero. -/
def aRs (N : ℕ) (values : List Scalar) (x : ℕ) : Scalar :=
  match values[x / N]? with
  | some v => if getBit v (x % N) then 0 else -1
  | none => -1

/-! ## The reduction rounds -/

structure WipState (P M : Type*) where
  g : ℕ → P
  h : ℕ → P
  a : ℕ → Scalar
  b : ℕ → Scalar
  alphaHat : M
  e : Scalar
  L : List P
  R : List P

/-- How a pedersen commitment is calculated and hashes are taken. -/
structure WipContext (P M : Type*) [AddCommGroup P] [Module Scalar P] [AddCommGroup M]
    [Module Scalar M] where
  bppG : P
  blind : M →ₗ[Scalar] P
  hs : List (HsItem P) → Scalar

def WipContext.calcPedersenCommitment (cx : WipContext P M) (value : Scalar) (mask : M) : P :=
  value • cx.bppG + cx.blind mask

/-- One iteration, with `n` half the size. -/
def wipRound (cx : WipContext P M) (y yInverse : Scalar) (dL dR : M) (n : ℕ)
    (st : WipState P M) : WipState P M :=
  let cL := ∑ i ∈ Finset.range n, st.a i * powers y (i + 1) * st.b (n + i)
  let cR := (∑ i ∈ Finset.range n, st.a (n + i) * powers y (i + 1) * st.b i) * powers y n
  let L :=
    scalar1div8 • (cx.calcPedersenCommitment cL dL + ∑ i ∈ Finset.range n, st.b (n + i) • st.h i +
    powers yInverse n • ∑ i ∈ Finset.range n, st.a i • st.g (n + i))
  let R :=
    scalar1div8 • (cx.calcPedersenCommitment cR dR + ∑ i ∈ Finset.range n, st.b i • st.h (n + i) +
    powers y n • ∑ i ∈ Finset.range n, st.a (n + i) • st.g i)
  let e := cx.hs [.scalar st.e, .point L, .point R]
  let eSquared := e * e
  let eInverse := scInvert e
  let eInverseSquared := eInverse * eInverse
  let eYInvN := e * powers yInverse n
  let eInvYN := eInverse * powers y n
  { g := fun i => eInverse • st.g i + eYInvN • st.g (n + i)
    h := fun i => e • st.h i + eInverse • st.h (n + i)
    a := fun i => e * st.a i + eInvYN * st.a (n + i)
    b := fun i => eInverse * st.b i + e * st.b (n + i)
    alphaHat := st.alphaHat + (eSquared • dL + eInverseSquared • dR)
    e
    L := st.L ++ [L]
    R := st.R ++ [R] }

def wipRounds (cx : WipContext P M) (y yInverse : Scalar) (dL dR : ℕ → M) (n ni : ℕ)
    (st : WipState P M) : WipState P M :=
  if 1 ≤ n then
    wipRounds cx y yInverse dL dR (n / 2) (ni + 1)
      (wipRound cx y yInverse (dL ni) (dR ni) n st)
  else st
termination_by n

/-! ## Generation -/

def updateTranscript (hs : List (HsItem P) → Scalar) (e : Scalar) (points : List P) : Scalar :=
  hs (.scalar e :: points.map .point)

/-- `bpp_gen` and `bppe_gen`, for one mask or two. -/
def genRangeProof (CT : BppCryptoTraitZano P) (cx : WipContext P M) (values : List Scalar)
    (masks : List M) (commitments1div8 : List P) (random : BppRandom M) :
    Except UInt8 (BppSignature P M) :=
  if ¬(0 < values.length ∧ values.length ≤ CT.bppValuesMax ∧ values.length = masks.length ∧
      values.length = commitments1div8.length) then
    .error 1
  else
    let log2M := constexprCeilLog2 values.length
    let m := 2 ^ log2M
    let mn := m * CT.bppN
    let aL := aLs CT.bppN values
    let aR := aRs CT.bppN values
    let e := updateTranscript cx.hs CT.initialTranscript commitments1div8
    let A0 := scalar1div8 • (cx.blind random.alpha +
      ∑ i ∈ Finset.range mn, (aL i • CT.getGenerator false i + aR i • CT.getGenerator true i))
    let y := cx.hs [.scalar e, .point A0]
    let z := cx.hs [.scalar y]
    let zSq := z * z
    let d := dVec CT.bppN zSq
    let yMnP1 := powers y (mn + 1)
    let alphaHat := ∑ i ∈ Finset.range masks.length, d (i * CT.bppN) • masks.getD i 0
    let yInverse := scInvert y
    let st := wipRounds cx y yInverse random.dL random.dR (mn / 2) 0
      { g := CT.getGenerator false
        h := CT.getGenerator true
        a := fun i => aL i - z
        b := fun i => aR i + z + d i * powers y (mn - i)
        alphaHat := random.alpha + yMnP1 • alphaHat
        e := z
        L := []
        R := [] }
    let A := scalar1div8 •
      (cx.calcPedersenCommitment (y * (random.r * st.b 0 + random.s * st.a 0)) random.delta +
      (random.r • st.g 0 + random.s • st.h 0))
    let B := scalar1div8 • cx.calcPedersenCommitment (random.r * y * random.s) random.eta
    let e := cx.hs [.scalar st.e, .point A, .point B]
    .ok
      { L := st.L
        R := st.R
        A0
        A
        B
        r := random.r + e * st.a 0
        s := random.s + e * st.b 0
        delta := random.eta + e • random.delta + (e * e) • st.alphaHat }

/-- `calc_pedersen_commitment` blinds by one mask and `calc_pedersen_commitment_2` by two. -/
def blind1 (CT : BppCryptoTraitZano P) : Scalar →ₗ[Scalar] P :=
  LinearMap.toSpanSingleton Scalar P CT.bppH

def blind2 (CT : BppCryptoTraitZano P) : Scalar × Scalar →ₗ[Scalar] P :=
  LinearMap.coprod (LinearMap.toSpanSingleton Scalar P CT.bppH)
    (LinearMap.toSpanSingleton Scalar P CT.bppH2)

def bppGen (CT : BppCryptoTraitZano P) (hs : List (HsItem P) → Scalar) (values masks : List Scalar)
    (commitments1div8 : List P) (random : BppRandom Scalar) :
    Except UInt8 (BppSignature P Scalar) :=
  genRangeProof CT ⟨CT.bppG, blind1 CT, hs⟩ values masks commitments1div8 random

/-- The second masks are paired with the first ones, once their number is known to be the same. -/
def bppeGen (CT : BppCryptoTraitZano P) (hs : List (HsItem P) → Scalar)
    (values masks masks2 : List Scalar) (commitments1div8 : List P)
    (random : BppRandom (Scalar × Scalar)) : Except UInt8 (BppSignature P (Scalar × Scalar)) :=
  if masks.length ≠ masks2.length then .error 1
  else genRangeProof CT ⟨CT.bppG, blind2 CT, hs⟩ values (masks.zip masks2) commitments1div8 random

/-! ## What is to be checked -/

/-- The commitments are premultiplied by 1/8. -/
structure BppSigCommitRef (P M : Type*) where
  sig : BppSignature P M
  commitments : List P

def roundChallenges (hs : List (HsItem P) → Scalar) (e : Scalar) : List (P × P) → List Scalar
  | [] => []
  | (L, R) :: rounds =>
      let e := hs [.scalar e, .point L, .point R]
      e :: roundChallenges hs e rounds

/-- The challenges of a proof: `y`, `z`, those of the rounds and the last one. -/
structure Challenges where
  y : Scalar
  z : Scalar
  es : List Scalar
  eFinal : Scalar

def challenges (CT : BppCryptoTraitZano P) (hs : List (HsItem P) → Scalar)
    (bsc : BppSigCommitRef P M) : Challenges :=
  let y :=
    hs [.scalar (updateTranscript hs CT.initialTranscript bsc.commitments), .point bsc.sig.A0]
  let z := hs [.scalar y]
  let es := roundChallenges hs z (bsc.sig.L.zip bsc.sig.R)
  ⟨y, z, es, hs [.scalar (es.getLastD z), .point bsc.sig.A, .point bsc.sig.B]⟩

def Challenges.Nonzero (ch : Challenges) : Prop := ch.y ≠ 0 ∧ ∀ e ∈ ch.es, e ≠ 0

/-- The commitment that the rounds start from, in place of the one to the bits: a commitment to the
bits less `z` and to their complements shifted by `d`. -/
def aHat (CT : BppCryptoTraitZano P) (G : P) (y z : Scalar) (log2M : ℕ) (A0 : P)
    (commitments : List P) : P :=
  let mn := 2 ^ log2M * CT.bppN
  A0 - z • ∑ i ∈ Finset.range mn, CT.getGenerator false i +
    ∑ i ∈ Finset.range mn, (dVec CT.bppN (z * z) i * y ^ (mn - i) + z) • CT.getGenerator true i +
      y ^ (mn + 1) • ∑ j ∈ Finset.range commitments.length,
        (z * z) ^ (j + 1) • commitments.getD j 0 +
        ((z - z * z) * ∑ i ∈ Finset.range mn, y ^ (i + 1) -
          z * y ^ (mn + 1) * ∑ i ∈ Finset.range mn, dVec CT.bppN (z * z) i) • G

/-- What the answer leaves, with the generators folded round by round. -/
def proofResidual (CT : BppCryptoTraitZano P) (cx : WipContext P M)
    (bsc : BppSigCommitRef P M) : P :=
  let ch := challenges CT cx.hs bsc
  WeightedInnerProduct.residual cx.blind cx.bppG ch.y (CT.getGenerator false) (CT.getGenerator true)
    (List.zip ch.es ((bsc.sig.L.zip bsc.sig.R).map fun (L, R) =>
      ((8 : Scalar) • L, (8 : Scalar) • R)))
    (aHat CT cx.bppG ch.y ch.z (constexprCeilLog2 bsc.commitments.length)
      ((8 : Scalar) • bsc.sig.A0)
      (bsc.commitments.map ((8 : Scalar) • ·)))
    ((8 : Scalar) • bsc.sig.A) ((8 : Scalar) • bsc.sig.B) ch.eFinal bsc.sig.r bsc.sig.s
      bsc.sig.delta

/-! ## Lemmas on the vectors -/

@[simp]
theorem powers_eq (x : Scalar) (i : ℕ) : powers x i = x ^ i := by
  induction i with
  | zero => rfl
  | succ i inductionHypothesis => rw [powers, inductionHypothesis, pow_succ]

theorem dAt_eq (zSq : Scalar) (i j : ℕ) : dAt zSq i j = zSq ^ (i + 1) * 2 ^ j := by
  have row : dRow zSq i = zSq ^ (i + 1) := by
    induction i with
    | zero => rw [dRow, zero_add, pow_one]
    | succ i inductionHypothesis => rw [dRow, inductionHypothesis, pow_succ zSq (i + 1)]
  induction j with
  | zero => rw [dAt, row, pow_zero, mul_one]
  | succ j inductionHypothesis => rw [dAt, inductionHypothesis, pow_succ 2, ← mul_assoc, mul_two]

/-- A sum over a matrix, row by row. -/
theorem sum_matrix {A : Type*} [AddCommMonoid A] (f : ℕ → A) (m N : ℕ) :
    ∑ x ∈ Finset.range (m * N), f x =
      ∑ i ∈ Finset.range m, ∑ j ∈ Finset.range N, f (i * N + j) := by
  induction m with
  | zero => simp
  | succ m inductionHypothesis =>
      rw [Nat.succ_mul, Finset.sum_range_add, inductionHypothesis, Finset.sum_range_succ]

theorem dVec_eq (zSq : Scalar) (i : ℕ) {N j : ℕ} (inside : j < N) :
    dVec N zSq (i * N + j) = zSq ^ (i + 1) * 2 ^ j := by
  have row : (i * N + j) / N = i := by
    rw [Nat.mul_comm, Nat.mul_add_div (by omega), Nat.div_eq_of_lt inside, Nat.add_zero]
  rw [dVec, row, Nat.mul_add_mod_of_lt inside, dAt_eq]

theorem sum_dVec (zSq : Scalar) (m N : ℕ) :
    ∑ x ∈ Finset.range (m * N), dVec N zSq x =
      (2 ^ N - 1) * ∑ i ∈ Finset.range m, zSq ^ (i + 1) := by
  have row (i : ℕ) :
      ∑ j ∈ Finset.range N, dVec N zSq (i * N + j) = zSq ^ (i + 1) * (2 ^ N - 1) := by
    have powersOfTwo : ∑ j ∈ Finset.range N, (2 : Scalar) ^ j = 2 ^ N - 1 := by
      rw [← geom_sum_mul]
      ring
    rw [Finset.sum_congr rfl fun j inside =>
      dVec_eq zSq i (Finset.mem_range.mp inside), ← Finset.mul_sum, powersOfTwo]
  rw [sum_matrix]
  simp only [row]
  rw [← Finset.sum_mul, mul_comm]

theorem sum_bits {v : Scalar} {N : ℕ} (fits : v.val < 2 ^ N) :
    ∑ j ∈ Finset.range N, (if getBit v j then (1 : Scalar) else 0) * 2 ^ j = v := by
  have digit (j : ℕ) : (if getBit v j then (1 : Scalar) else 0) * 2 ^ j =
      ((2 ^ j * Windows.digit 2 j v.val : ℕ) : Scalar) := by
    rw [getBit_eq, Nat.testBit_eq_decide_div_mod_eq, Windows.digit, Nat.cast_mul, Nat.cast_pow,
      Nat.cast_ofNat, mul_comm]
    rcases Nat.mod_two_eq_zero_or_one (v.val / 2 ^ j) with zero | one <;> simp [*]
  simp only [digit]
  rw [← Nat.cast_sum, Windows.sum_digits fits, ZMod.natCast_zmod_val]

/-- An element and its complement, which is its shadow below zero. -/
theorem aLs_sub_aRs (N : ℕ) (values : List Scalar) (x : ℕ) :
    aLs N values x - aRs N values x = 1 ∧ aLs N values x * aRs N values x = 0 := by
  rw [aLs, aRs]
  cases values[x / N]? with
  | none => simp
  | some v => by_cases bit : getBit v (x % N) <;> simp [bit]

/-- The values are weighted by the powers that the commitments to them are. -/
theorem sum_aLs_dVec (zSq : Scalar) {values : List Scalar} {m N : ℕ} (enough : values.length ≤ m)
    (fit : ∀ v ∈ values, v.val < 2 ^ N) :
    ∑ x ∈ Finset.range (m * N), aLs N values x * dVec N zSq x =
      ∑ i ∈ Finset.range values.length, zSq ^ (i + 1) * values.getD i 0 := by
  have row (i : ℕ) : ∑ j ∈ Finset.range N, aLs N values (i * N + j) * dVec N zSq (i * N + j) =
      if i < values.length then zSq ^ (i + 1) * values.getD i 0 else 0 := by
    have place {j : ℕ} (inside : j < N) : (i * N + j) / N = i := by
      rw [Nat.mul_comm, Nat.mul_add_div (by omega), Nat.div_eq_of_lt inside, Nat.add_zero]
    split
    · next within =>
        have element : ∀ j ∈ Finset.range N, aLs N values (i * N + j) * dVec N zSq (i * N + j) =
            zSq ^ (i + 1) * ((if getBit values[i] j then 1 else 0) * 2 ^ j) := by
          intro j inside
          rw [Finset.mem_range] at inside
          rw [aLs, dVec_eq zSq i inside, place inside, Nat.mul_add_mod_of_lt inside,
            List.getElem?_eq_getElem within]
          ring
        rw [Finset.sum_congr rfl element, ← Finset.mul_sum,
          sum_bits (fit _ (List.getElem_mem within)), List.getD_eq_getElem _ _ within]
    · next beyond =>
        apply Finset.sum_eq_zero
        intro j inside
        rw [aLs, place (Finset.mem_range.mp inside), List.getElem?_eq_none (by omega), zero_mul]
  rw [sum_matrix]
  simp only [row]
  rw [← Finset.sum_subset (Finset.range_subset_range.mpr enough)]
  · exact Finset.sum_congr rfl fun i inside => if_pos (Finset.mem_range.mp inside)
  · intro i _ beyond
    exact if_neg (by simpa using beyond)

/-- The two vectors that the rounds start from have the inner product that `aHat` has. -/
theorem sum_hats (y z : Scalar) {values : List Scalar} {m N : ℕ} (enough : values.length ≤ m)
    (fit : ∀ v ∈ values, v.val < 2 ^ N) :
    ∑ i ∈ Finset.range (m * N), (aLs N values i - z) * y ^ (i + 1) *
        (aRs N values i + z + dVec N (z * z) i * y ^ (m * N - i)) =
      (z - z * z) * ∑ i ∈ Finset.range (m * N), y ^ (i + 1) -
        z * y ^ (m * N + 1) * ∑ i ∈ Finset.range (m * N), dVec N (z * z) i +
          y ^ (m * N + 1) * ∑ i ∈ Finset.range values.length,
            (z * z) ^ (i + 1) * values.getD i 0 := by
  rw [← sum_aLs_dVec (z * z) enough fit, Finset.mul_sum, Finset.mul_sum,
    Finset.mul_sum, ← Finset.sum_sub_distrib, ← Finset.sum_add_distrib]
  refine Finset.sum_congr rfl fun i inside => ?_
  rw [Finset.mem_range] at inside
  obtain ⟨difference, product⟩ := aLs_sub_aRs N values i
  have whole : y ^ (m * N + 1) = y ^ (i + 1) * y ^ (m * N - i) := by
    rw [← pow_add]
    congr 1
    omega
  rw [whole]
  linear_combination (y ^ (i + 1)) * product + z * y ^ (i + 1) * difference

/-- From the commitment to the bits to that to the shifted bits, with the masks of
the values added up. -/
theorem aHat_eq (CT : BppCryptoTraitZano P) (cx : WipContext P M) (y z : Scalar)
    {values : List Scalar} {masks : List M} (sameSize : values.length = masks.length) {log2M : ℕ}
    (enough : values.length ≤ 2 ^ log2M) (fit : ∀ v ∈ values, v.val < 2 ^ CT.bppN) (alpha : M) :
    aHat CT cx.bppG y z log2M
        (cx.blind alpha + ∑ i ∈ Finset.range (2 ^ log2M * CT.bppN),
          (aLs CT.bppN values i • CT.getGenerator false i +
            aRs CT.bppN values i • CT.getGenerator true i))
        (List.zipWith cx.calcPedersenCommitment values masks) =
      WeightedInnerProduct.commit cx.blind cx.bppG y (2 ^ log2M * CT.bppN) (CT.getGenerator false)
        (CT.getGenerator true) (fun i => aLs CT.bppN values i - z)
        (fun i => aRs CT.bppN values i + z + dVec CT.bppN (z * z) i * y ^ (2 ^ log2M * CT.bppN - i))
        (alpha + y ^ (2 ^ log2M * CT.bppN + 1) • ∑ i ∈ Finset.range masks.length,
          (z * z) ^ (i + 1) • masks.getD i 0) := by
  have sizes : (List.zipWith cx.calcPedersenCommitment values masks).length = values.length := by
    simp [sameSize]
  have commitment : ∀ j ∈ Finset.range values.length,
      (z * z) ^ (j + 1) • (List.zipWith cx.calcPedersenCommitment values masks).getD j 0 =
        ((z * z) ^ (j + 1) * values.getD j 0) • cx.bppG +
          cx.blind ((z * z) ^ (j + 1) • masks.getD j 0) := by
    intro j inside
    rw [Finset.mem_range] at inside
    have ofMasks : j < masks.length := sameSize ▸ inside
    rw [List.getD_eq_getElem _ _ (sizes ▸ inside), List.getElem_zipWith,
      List.getD_eq_getElem _ _ inside, List.getD_eq_getElem _ _ ofMasks,
      WipContext.calcPedersenCommitment, map_smul]
    module
  have committed := Finset.sum_congr rfl commitment
  rw [Finset.sum_add_distrib, ← Finset.sum_smul, ← map_sum] at committed
  rw [aHat, sizes, committed, WeightedInnerProduct.commit, sum_hats y z enough fit, ← sameSize]
  simp only [sub_smul, add_smul, Finset.sum_add_distrib, Finset.sum_sub_distrib, ← Finset.smul_sum,
    map_add, map_smul]
  module

/-! ## The rounds -/

theorem wipRound_eq (cx : WipContext P M) (y : Scalar) (dL dR : M) (n : ℕ) (st : WipState P M) :
    ∃ L R, let e := cx.hs [.scalar st.e, .point L, .point R]
      wipRound cx y (scInvert y) dL dR n st =
      { g := WeightedInnerProduct.foldG y e n st.g
        h := WeightedInnerProduct.foldH e n st.h
        a := WeightedInnerProduct.foldA y e n st.a
        b := WeightedInnerProduct.foldB e n st.b
        alphaHat := st.alphaHat + (e ^ 2 • dL + e⁻¹ ^ 2 • dR)
        e
        L := st.L ++ [L]
        R := st.R ++ [R] } ∧
      (8 : Scalar) • L = WeightedInnerProduct.left cx.blind cx.bppG y n st.g st.h st.a st.b dL ∧
      (8 : Scalar) • R =
        WeightedInnerProduct.right cx.blind cx.bppG y n st.g st.h st.a st.b dR := by
  refine ⟨scalar1div8 • WeightedInnerProduct.left cx.blind cx.bppG y n st.g st.h st.a st.b dL,
    scalar1div8 • WeightedInnerProduct.right cx.blind cx.bppG y n st.g st.h st.a st.b dR, ?_,
    eight_smul_scalar1div8_smul _, eight_smul_scalar1div8_smul _⟩
  simp only [wipRound, WeightedInnerProduct.left, WeightedInnerProduct.right,
    WipContext.calcPedersenCommitment, powers_eq, scInvert_eq, sq]
  rfl

omit [AddCommGroup P] [Module Scalar P] in
@[simp]
theorem length_roundChallenges (hs : List (HsItem P) → Scalar) (e : Scalar)
    (rounds : List (P × P)) :
    (roundChallenges hs e rounds).length = rounds.length := by
  induction rounds generalizing e with
  | nil => rfl
  | cons round rounds inductionHypothesis =>
      rw [roundChallenges, List.length_cons, inductionHypothesis, List.length_cons]

/-- The answer to what the rounds leave satisfies the check of the first statement. -/
theorem wipRounds_spec (cx : WipContext P M) (y : Scalar) (dL dR : ℕ → M) (k ni : ℕ)
    (st : WipState P M) :
    ∃ rounds : List (P × P), rounds.length = k ∧
      let st' := wipRounds cx y (scInvert y) dL dR (2 ^ k / 2) ni st
      let es := roundChallenges cx.hs st.e rounds
      st'.L = st.L ++ rounds.map Prod.fst ∧ st'.R = st.R ++ rounds.map Prod.snd ∧
        st'.e = es.getLastD st.e ∧
        (y ≠ 0 → (∀ e ∈ es, e ≠ 0) → ∀ (r s eFinal : Scalar) (delta eta : M),
          WeightedInnerProduct.residual cx.blind cx.bppG y st.g st.h
            (es.zip (rounds.map fun (L, R) => ((8 : Scalar) • L, (8 : Scalar) • R)))
            (WeightedInnerProduct.commit cx.blind cx.bppG y (2 ^ k) st.g st.h st.a st.b st.alphaHat)
            (cx.calcPedersenCommitment (y * (r * st'.b 0 + s * st'.a 0)) delta +
              (r • st'.g 0 + s • st'.h 0))
            (cx.calcPedersenCommitment (r * y * s) eta) eFinal (r + eFinal * st'.a 0)
              (s + eFinal * st'.b 0)
            (eta + eFinal • delta + (eFinal * eFinal) • st'.alphaHat) = 0) := by
  induction k generalizing ni st with
  | zero =>
      have done : wipRounds cx y (scInvert y) dL dR 0 ni st = st := by
        rw [wipRounds]
        rfl
      refine ⟨[], rfl, ?_⟩
      rw [show 2 ^ 0 / 2 = 0 from rfl, done]
      refine ⟨by simp, by simp, rfl, fun _ _ r s eFinal delta eta => ?_⟩
      exact WeightedInnerProduct.residual_nil cx.blind cx.bppG y st.g st.h st.a st.b st.alphaHat
        eFinal r s delta eta
  | succ k inductionHypothesis =>
      have half : 2 ^ (k + 1) / 2 = 2 ^ k := by rw [pow_succ, Nat.mul_div_cancel _ (by decide)]
      obtain ⟨L, R, isRound, isLeft, isRight⟩ := wipRound_eq cx y (dL ni) (dR ni) (2 ^ k) st
      obtain ⟨rounds, count, isL, isR, isLast, answered⟩ :=
        inductionHypothesis (ni + 1) (wipRound cx y (scInvert y) (dL ni) (dR ni) (2 ^ k) st)
      have step : wipRounds cx y (scInvert y) dL dR (2 ^ k) ni st =
          wipRounds cx y (scInvert y) dL dR (2 ^ k / 2) (ni + 1)
            (wipRound cx y (scInvert y) (dL ni) (dR ni) (2 ^ k) st) := by
        conv_lhs => rw [wipRounds, if_pos Nat.one_le_two_pow]
      refine ⟨(L, R) :: rounds, by rw [List.length_cons, count], ?_⟩
      rw [half, step]
      generalize wipRounds cx y (scInvert y) dL dR (2 ^ k / 2) (ni + 1)
        (wipRound cx y (scInvert y) (dL ni) (dR ni) (2 ^ k) st) = st' at isL isR isLast answered ⊢
      simp only [isRound] at isL isR isLast answered
      simp only [roundChallenges, List.map_cons, List.zip_cons_cons]
      refine ⟨by simp [isL], by simp [isR], ?_, fun yNonzero nonzero r s eFinal delta eta => ?_⟩
      · rw [List.getLastD_cons, isLast]
      · rw [List.forall_mem_cons] at nonzero
        have remaining := answered yNonzero nonzero.2 r s eFinal delta eta
        rw [WeightedInnerProduct.commit_fold cx.blind cx.bppG yNonzero
          nonzero.1, ← isLeft, ← isRight, ← two_mul, ← pow_succ'] at remaining
        rw [WeightedInnerProduct.residual_cons, List.length_zip, List.length_map,
          length_roundChallenges, count, min_self]
        exact remaining

/-- What is made for values of the range leaves nothing, whatever is drawn at random. -/
theorem genRangeProof_answers (CT : BppCryptoTraitZano P) (cx : WipContext P M)
    (isPower : CT.bppN = 2 ^ CT.bppLog2N) {values : List Scalar} {masks : List M}
    (some_ : 0 < values.length) (few : values.length ≤ CT.bppValuesMax)
    (sameSize : values.length = masks.length) (fit : ∀ v ∈ values, v.val < 2 ^ CT.bppN)
    {commitments1div8 : List P} (areCommitments : commitments1div8.map ((8 : Scalar) • ·) =
      List.zipWith cx.calcPedersenCommitment values masks)
    (random : BppRandom M) :
    ∃ sig, genRangeProof CT cx values masks commitments1div8 random = .ok sig ∧
      sig.L.length = constexprCeilLog2 commitments1div8.length + CT.bppLog2N ∧
        sig.R.length = sig.L.length ∧
        ((challenges CT cx.hs ⟨sig, commitments1div8⟩).Nonzero →
          proofResidual CT cx ⟨sig, commitments1div8⟩ = 0) := by
  have count : commitments1div8.length = values.length := by
    have lengths := congrArg List.length areCommitments
    rw [List.length_map, List.length_zipWith, ← sameSize, min_self] at lengths
    exact lengths
  have enough : values.length ≤ 2 ^ constexprCeilLog2 values.length := by
    rw [constexprCeilLog2, constexprCeilLogN_eq]
    exact Nat.le_pow_clog (by decide) _
  have size : 2 ^ constexprCeilLog2 values.length * CT.bppN =
      2 ^ (constexprCeilLog2 values.length + CT.bppLog2N) := by
    rw [isPower, ← pow_add]
  rw [genRangeProof, if_neg (by simp [some_, few, sameSize.symm, count])]
  simp only [scInvert_eq]
  set e := updateTranscript cx.hs CT.initialTranscript commitments1div8
  set A0 := scalar1div8 •
    (cx.blind random.alpha + ∑ i ∈ Finset.range (2 ^ constexprCeilLog2 values.length * CT.bppN), _)
  set y := cx.hs [.scalar e, .point A0]
  set z := cx.hs [.scalar y]
  set st : WipState P M := ⟨_, _, _, _, _, z, [], []⟩ with stIs
  obtain ⟨rounds, countRounds, isL, isR, isLast, answered⟩ :=
    wipRounds_spec cx y random.dL random.dR
    (constexprCeilLog2 values.length + CT.bppLog2N) 0 st
  rw [← size, scInvert_eq] at isL isR isLast answered
  generalize wipRounds cx y y⁻¹ random.dL random.dR
    (2 ^ constexprCeilLog2 values.length * CT.bppN / 2) 0 st = st'
    at isL isR isLast answered ⊢
  refine ⟨_, rfl, ?_⟩
  have zipped : st'.L.zip st'.R = rounds := by
    rw [isL, isR, stIs, List.nil_append, List.nil_append]
    exact (List.zip_of_prod rfl rfl).symm
  refine ⟨?_, ?_, fun nonzero => ?_⟩
  · simp [isL, stIs, countRounds, count]
  · simp [isL, isR, stIs]
  · rw [Challenges.Nonzero] at nonzero
    simp only [challenges, zipped] at nonzero
    have opened : (8 : Scalar) • A0 = _ := eight_smul_scalar1div8_smul _
    have positive : 0 < CT.bppN := isPower ▸ Nat.two_pow_pos _
    have firstRow (i : ℕ) : dVec CT.bppN (z * z) (i * CT.bppN) = (z * z) ^ (i + 1) := by
      have atZero := dVec_eq (z * z) i positive
      rwa [Nat.add_zero, pow_zero, mul_one] at atZero
    simp only [proofResidual, challenges, zipped, eight_smul_scalar1div8_smul]
    rw [count, areCommitments, opened, aHat_eq CT cx _ _ sameSize enough fit]
    simp only [stIs, powers_eq, firstRow] at answered isLast
    rw [isLast]
    exact answered nonzero.1 nonzero.2 _ _ _ _ _

end Zano.Crypto
