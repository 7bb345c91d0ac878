import Mathlib
import Zano.Crypto.RangeProofs

/-! # Verification of range proofs

Many proofs are checked at once. What each leaves is multiplied by a random weight, and the
generators that the proofs share are multiplied only once, by sums of scalars. No generator is
folded: its multiple is found from the bits of its index, one challenge at a time, and all
challenges are inverted together.
-/

namespace Zano.Crypto

open Transactions (Scalar groupOrder scalar1div8)

variable {P M : Type*} [AddCommGroup P] [Module Scalar P] [AddCommGroup M] [Module Scalar M]

structure IntermediateElement where
  y : Scalar
  z : Scalar
  zSq : Scalar
  e : List Scalar
  eSq : List Scalar
  eFinal : Scalar
  eFinalSq : Scalar
  invEOffset : ℕ
  invYOffset : ℕ
  log2M : ℕ
  m : ℕ
  mn : ℕ

/-- The checks of the first loop on one proof. -/
def checkSizes (CT : BppCryptoTraitZano P) (bsc : BppSigCommitRef P M) : Except UInt8 Unit :=
  if bsc.commitments.length = 0 then .error 2
  else if ¬(0 < bsc.sig.L.length ∧ bsc.sig.L.length = bsc.sig.R.length) then .error 3
  else if bsc.sig.L.length ≠ constexprCeilLog2 bsc.commitments.length + CT.bppLog2N then .error 5
  else .ok ()

/-- The second loop on one proof, which appends to `batch_for_inverse`. -/
def restoreChallenges (CT : BppCryptoTraitZano P) (hs : List (HsItem P) → Scalar)
    (bsc : BppSigCommitRef P M) (batchForInverse : List Scalar) :
    IntermediateElement × List Scalar :=
  let e := updateTranscript hs CT.initialTranscript bsc.commitments
  let y := hs [.scalar e, .point bsc.sig.A0]
  let z := hs [.scalar y]
  let es := roundChallenges hs z (bsc.sig.L.zip bsc.sig.R)
  let eFinal := hs [.scalar (es.getLastD z), .point bsc.sig.A, .point bsc.sig.B]
  let log2M := constexprCeilLog2 bsc.commitments.length
  ({  y
      z
      zSq := z * z
      e := es
      eSq := es.map fun e => e * e
      eFinal
      eFinalSq := eFinal * eFinal
      invYOffset := batchForInverse.length
      invEOffset := batchForInverse.length + 1
      log2M
      m := 2 ^ log2M
      mn := 2 ^ log2M * CT.bppN },
    batchForInverse ++ y :: es)

def restoreAllChallenges (CT : BppCryptoTraitZano P) (hs : List (HsItem P) → Scalar)
    (sigs : List (BppSigCommitRef P M)) :
    List IntermediateElement × List Scalar :=
  sigs.foldl
    (fun (interms, batchForInverse) bsc =>
      let (interm, batchForInverse) := restoreChallenges CT hs bsc batchForInverse
      (interms ++ [interm], batchForInverse))
    ([], [])

/-- returns `x + x ^ 2 + ... + x ^ (2 ^ f)` -/
def sumOfPowers (x : Scalar) (f : ℕ) : Scalar :=
  ((List.range f).foldl (fun (result, x) _ => (result * x + result, x * x)) (x, x)).1

def multiplyDeBruijnBitPosition : List UInt8 :=
  [0, 1, 28, 2, 29, 14, 24, 3, 30, 22, 20, 15, 25, 17, 4, 8, 31, 27, 13, 23, 21, 19, 16, 7, 26, 12,
    18, 6, 11, 5, 10, 9]

def calcLsb32 (v : UInt32) : UInt8 :=
  multiplyDeBruijnBitPosition.getD (((v &&& -v) * 0x077CB531) >>> 27).toNat 0

/-- An element is that of the index without the lowest bit, but for one challenge. -/
def sVec (first : Scalar) (eSq : List Scalar) (log2Mn : ℕ) (i : ℕ) : Scalar :=
  if i = 0 then first
  else sVec first eSq log2Mn (i &&& (i - 1)) *
    eSq.getD (log2Mn - (calcLsb32 (UInt32.ofNat i)).toNat - 1) 0
termination_by i
decreasing_by exact lt_of_le_of_lt Nat.and_le_right (by omega)

/-- What is summed over the proofs. -/
structure VerifySums (P M : Type*) where
  gScalars : ℕ → Scalar
  hScalars : ℕ → Scalar
  gScalar : Scalar
  hScalar : M
  summand : P

/-- The last loop, for one proof with the random weight `rwf`. -/
def addProof (CT : BppCryptoTraitZano P) (inverses : List Scalar) (rwf : Scalar)
    (bsc : BppSigCommitRef P M) (interm : IntermediateElement)
    (sums : VerifySums P M) : VerifySums P M :=
  let sig := bsc.sig
  let d := dVec CT.bppN interm.zSq
  let sumD := ((2 ^ CT.bppN - 1 : ℕ) : Scalar) * sumOfPowers interm.zSq interm.log2M
  let yInv := inverses.getD interm.invYOffset 0
  let getEInv := fun i => inverses.getD (interm.invEOffset + i) 0
  let log2Mn := sig.L.length
  let sVec := sVec (∏ i ∈ Finset.range log2Mn, getEInv i) interm.eSq log2Mn
  let yPowerMnp1 := (List.range log2Mn).foldl (fun power _ => power * power) interm.y * interm.y
  let rwfESqZ := rwf * interm.eFinalSq * interm.z
  let rwfRE := rwf * interm.eFinal * sig.r
  let gScalars := fun i =>
    if i < interm.mn then sums.gScalars i + (rwfRE * powers yInv i * sVec i + rwfESqZ)
    else sums.gScalars i
  let rwfSE := rwf * sig.s * interm.eFinal
  -- from the last index down
  let (hScalars, rwfESqY) := (List.range interm.mn).foldr
    (fun i (hScalars, rwfESqY) =>
      (Function.update hScalars i
        (hScalars i + (rwfSE * sVec (interm.mn - 1 - i) - rwfESqZ - rwfESqY * d i)),
        rwfESqY * interm.y))
    (sums.hScalars, rwf * interm.eFinalSq * interm.y)
  let gScalar := sums.gScalar + (rwf * sig.r * interm.y * sig.s + rwfESqY * sumD * interm.z) -
    rwf * interm.eFinalSq * (interm.z - interm.zSq) * sumOfPowers interm.y log2Mn
  let summand8 := -((rwf * interm.eFinalSq) • sig.A0)
  let summand8 := (bsc.commitments.foldl
    (fun (power, summand8) commitment =>
      let power := power * interm.zSq
      (power, summand8 - power • commitment))
    (rwf * interm.eFinalSq * yPowerMnp1, summand8)).2
  let summand8 := (List.range log2Mn).foldl
    (fun summand8 j => summand8 - (rwf * interm.eFinalSq) •
      (interm.eSq.getD j 0 • sig.L.getD j 0 + (getEInv j * getEInv j) • sig.R.getD j 0))
    summand8
  let summand8 := summand8 - ((rwf * interm.eFinal) • sig.A + rwf • sig.B)
  { gScalars
    hScalars
    gScalar
    hScalar := sums.hScalar + rwf • sig.delta
    summand := sums.summand + (8 : Scalar) • summand8 }

/-- `bpp_verify` and `bppe_verify`. The weights are by the number of the proof. -/
def verifyRangeProofs [DecidableEq P] (CT : BppCryptoTraitZano P) (cx : WipContext P M)
    (sigs : List (BppSigCommitRef P M)) (rwf : ℕ → Scalar) : Except UInt8 Bool := do
  if sigs.length = 0 then throw 1
  sigs.forM (checkSizes CT)
  let log2MMax := sigs.foldl (fun most bsc => max most (constexprCeilLog2 bsc.commitments.length)) 0
  let mnMax := 2 ^ log2MMax * CT.bppN
  let (interms, batchForInverse) := restoreAllChallenges CT cx.hs sigs
  let inverses := invert batchForInverse
  let sums := (sigs.zip interms).zipIdx.foldl (fun sums ((bsc, interm), k) =>
    addProof CT inverses (rwf k) bsc interm sums)
    { gScalars := fun _ => 0, hScalars := fun _ => 0, gScalar := 0, hScalar := 0, summand := 0 }
  return msmAndCheckZero CT ((List.range mnMax).map sums.gScalars)
    ((List.range mnMax).map sums.hScalars)
    (sums.summand + cx.calcPedersenCommitment sums.gScalar sums.hScalar)

def bppVerify [DecidableEq P] (CT : BppCryptoTraitZano P) (hs : List (HsItem P) → Scalar)
    (sigs : List (BppSigCommitRef P Scalar)) (rwf : ℕ → Scalar) : Except UInt8 Bool :=
  verifyRangeProofs CT ⟨CT.bppG, blind1 CT, hs⟩ sigs rwf

def bppeVerify [DecidableEq P] (CT : BppCryptoTraitZano P) (hs : List (HsItem P) → Scalar)
    (sigs : List (BppSigCommitRef P (Scalar × Scalar))) (rwf : ℕ → Scalar) : Except UInt8 Bool :=
  verifyRangeProofs CT ⟨CT.bppG, blind2 CT, hs⟩ sigs rwf

/-! ## Sums of powers and the lowest bit -/

theorem sumOfPowers_eq (x : Scalar) (f : ℕ) :
    sumOfPowers x f = ∑ i ∈ Finset.range (2 ^ f), x ^ (i + 1) := by
  have both : (List.range f).foldl (fun ((result, x) : Scalar × Scalar) _ =>
      (result * x + result, x * x)) (x, x) =
      (∑ i ∈ Finset.range (2 ^ f), x ^ (i + 1), x ^ 2 ^ f) := by
    induction f with
    | zero => simp
    | succ f inductionHypothesis =>
        rw [List.range_succ, List.foldl_append, inductionHypothesis]
        have upper : ∑ i ∈ Finset.range (2 ^ f), x ^ (2 ^ f + i + 1) =
            (∑ i ∈ Finset.range (2 ^ f), x ^ (i + 1)) * x ^ 2 ^ f := by
          rw [Finset.sum_mul]
          exact Finset.sum_congr rfl fun i _ => by ring
        simp only [List.foldl_cons, List.foldl_nil]
        rw [pow_succ 2 f, mul_two, Finset.sum_range_add, upper, pow_add x, add_comm]
  rw [sumOfPowers, both]

theorem testBit_odd_mul (k t j : ℕ) :
    (2 ^ k * (2 * t + 1)).testBit j =
      (decide (k ≤ j) && (decide (j = k) || t.testBit (j - k - 1))) := by
  rw [Nat.testBit_two_pow_mul]
  rcases lt_trichotomy j k with below | rfl | above
  · simp [below.not_ge]
  · simp
  · obtain ⟨i, rfl⟩ := Nat.exists_eq_add_of_lt above
    have place : k + i + 1 - k = i + 1 := by omega
    rw [place, Nat.testBit_succ]
    have : (2 * t + 1) / 2 = t := by omega
    simp [this, above.ne']

theorem testBit_pred (k t j : ℕ) :
    (2 ^ k * (2 * t + 1) - 1).testBit j =
      (decide (j < k) || (decide (k < j) && t.testBit (j - k - 1))) := by
  have split : 2 ^ k * (2 * t + 1) - 1 = 2 ^ k * (2 * t) + (2 ^ k - 1) := by
    have := Nat.two_pow_pos k
    rw [mul_add, mul_one]
    omega
  rw [split, Nat.testBit_two_pow_mul_add _ (Nat.sub_lt (Nat.two_pow_pos k) Nat.one_pos),
    Nat.testBit_two_pow_sub_one]
  rcases lt_trichotomy j k with below | rfl | above
  · simp [below]
  · simp
  · obtain ⟨i, rfl⟩ := Nat.exists_eq_add_of_lt above
    have place : k + i + 1 - k = i + 1 := by omega
    rw [place, Nat.testBit_succ]
    simp [above.not_gt, above]

theorem and_pred (k t : ℕ) :
    2 ^ k * (2 * t + 1) &&& (2 ^ k * (2 * t + 1) - 1) = 2 ^ k * (2 * t) := by
  apply Nat.eq_of_testBit_eq
  intro j
  rw [Nat.testBit_and, testBit_odd_mul, testBit_pred, ← mul_assoc, ← pow_succ,
    Nat.testBit_two_pow_mul]
  rcases lt_trichotomy j k with below | rfl | above
  · simp [below.not_ge, show ¬k + 1 ≤ j by omega]
  · simp
  · simp [above, above.le, above.not_gt, above.ne', Nat.sub_sub]

/-- The complement of the bits over the lowest one. -/
theorem and_neg {v : UInt32} {k t : ℕ} (isOdd : v.toNat = 2 ^ k * (2 * t + 1)) :
    (v &&& -v).toNat = 2 ^ k := by
  have small := UInt32.toNat_lt v
  have bits : k < 32 := by
    by_contra many
    have := Nat.pow_le_pow_right (show 0 < 2 by decide) (not_lt.mp many)
    have := Nat.le_mul_of_pos_right (2 ^ k) (Nat.succ_pos (2 * t))
    rw [isOdd, Nat.succ_eq_add_one] at *
    omega
  have whole : 2 ^ 32 = 2 ^ k * (2 * 2 ^ (31 - k)) := by
    rw [← pow_succ', ← pow_add]
    congr 1
    omega
  have below : t < 2 ^ (31 - k) := by
    rw [isOdd, whole, Nat.mul_lt_mul_left (Nat.two_pow_pos k)] at small
    omega
  have negated : (-v).toNat = 2 ^ k * (2 * (2 ^ (31 - k) - (t + 1)) + 1) := by
    have positive : 0 < 2 ^ k * (2 * t + 1) := Nat.mul_pos (Nat.two_pow_pos k) (Nat.succ_pos _)
    have complement : 2 * (2 ^ (31 - k) - (t + 1)) + 1 = 2 * 2 ^ (31 - k) - (2 * t + 1) := by omega
    rw [UInt32.toNat_neg, isOdd, complement, Nat.mul_sub, ← whole]
    exact Nat.mod_eq_of_lt (Nat.sub_lt (by decide) positive)
  apply Nat.eq_of_testBit_eq
  intro j
  rw [UInt32.toNat_and, Nat.testBit_and, negated, isOdd, testBit_odd_mul, testBit_odd_mul,
    Nat.testBit_two_pow_sub_succ below, Nat.testBit_two_pow]
  grind

theorem calcLsb32_eq {v : UInt32} {k t : ℕ} (isOdd : v.toNat = 2 ^ k * (2 * t + 1)) :
    (calcLsb32 v).toNat = k := by
  have lowest := and_neg isOdd
  have bits : k < 32 := by
    have := UInt32.toNat_lt (v &&& -v)
    rw [lowest] at this
    exact (Nat.pow_lt_pow_iff_right (by decide)).mp this
  have found : v &&& -v = UInt32.ofNat (2 ^ k) := by
    rw [← UInt32.toNat_inj, lowest,
      UInt32.toNat_ofNat_of_lt' (Nat.pow_lt_pow_right (by decide) bits)]
  have table : ∀ k < 32, (multiplyDeBruijnBitPosition.getD
      ((UInt32.ofNat (2 ^ k) * 0x077CB531) >>> 27).toNat 0).toNat = k := by
    decide
  rw [calcLsb32, found, table k bits]

/-! ## The multiples of the generators -/

theorem factor_zero (es : List Scalar) :
    WeightedInnerProduct.factor es 0 = ∏ j ∈ Finset.range es.length, (es.getD j 0)⁻¹ := by
  induction es with
  | nil => rfl
  | cons e es inductionHypothesis =>
      rw [WeightedInnerProduct.factor, Nat.zero_testBit, if_neg Bool.false_ne_true,
        inductionHypothesis, List.length_cons, Finset.prod_range_succ',
        List.getD_cons_zero, mul_comm]
      rfl

/-- From the index without its lowest bit. -/
theorem sVec_eq {es : List Scalar} (nonzero : ∀ e ∈ es, e ≠ 0) (small : es.length ≤ 32) {i : ℕ}
    (inside : i < 2 ^ es.length) :
    sVec (WeightedInnerProduct.factor es 0) (es.map fun e => e * e) es.length i =
      WeightedInnerProduct.factor es i := by
  induction i using Nat.strong_induction_on with
  | _ i inductionHypothesis =>
      rw [sVec]
      split
      · next zero => rw [zero]
      · next positive =>
          obtain ⟨k, odd, notEven, split⟩ := Nat.exists_eq_two_pow_mul_odd positive
          obtain ⟨t, rfl⟩ := notEven
          have isBit (l : ℕ) := testBit_odd_mul k t l
          have base : i &&& (i - 1) = 2 ^ k * (2 * t) := by rw [split, and_pred]
          have below : i &&& (i - 1) < i := lt_of_le_of_lt Nat.and_le_right (by omega)
          have atMost : 2 ^ k ≤ i := split ▸ Nat.le_mul_of_pos_right _ (Nat.succ_pos _)
          have isIndex : k < es.length :=
            (Nat.pow_lt_pow_iff_right (by decide)).mp (atMost.trans_lt inside)
          have fits : i < 2 ^ 32 := inside.trans_le (Nat.pow_le_pow_right (by decide) small)
          have lowest : (calcLsb32 (UInt32.ofNat i)).toNat = k :=
            calcLsb32_eq (by rw [UInt32.toNat_ofNat_of_lt' fits, split])
          have without (l : ℕ) :
              (i &&& (i - 1)).testBit l = (decide (k < l) && t.testBit (l - k - 1)) := by
            rw [base, ← mul_assoc, ← pow_succ, Nat.testBit_two_pow_mul, Nat.sub_sub]
            rfl
          have position : es.length - k - 1 < es.length := by omega
          have square : (es.map fun e => e * e).getD (es.length - k - 1) 0 =
              es.getD (es.length - k - 1) 0 ^ 2 := by
            rw [List.getD_eq_getElem _ _ (by simpa using position), List.getElem_map,
              List.getD_eq_getElem _ _ position, sq]
          rw [inductionHypothesis _ below (below.trans inside), lowest, square]
          refine (WeightedInnerProduct.factor_bit nonzero isIndex ?_ ?_ fun l other => ?_).symm
          · rw [split, isBit]
            simp
          · rw [without]
            simp
          · rw [without, split, isBit]
            grind

/-! ## The challenges and their inverses -/

/-- What is restored from a proof when so much was gathered before it. -/
def intermediateOf (CT : BppCryptoTraitZano P) (ch : Challenges) (commitments offset : ℕ) :
    IntermediateElement where
  y := ch.y
  z := ch.z
  zSq := ch.z * ch.z
  e := ch.es
  eSq := ch.es.map fun e => e * e
  eFinal := ch.eFinal
  eFinalSq := ch.eFinal * ch.eFinal
  invEOffset := offset + 1
  invYOffset := offset
  log2M := constexprCeilLog2 commitments
  m := 2 ^ constexprCeilLog2 commitments
  mn := 2 ^ constexprCeilLog2 commitments * CT.bppN

def Challenges.inverted (ch : Challenges) : List Scalar := ch.y :: ch.es

/-- Where the inverses of a proof are found. -/
def Located (CT : BppCryptoTraitZano P) (hs : List (HsItem P) → Scalar) (batch : List Scalar)
    (bsc : BppSigCommitRef P M) (interm : IntermediateElement) : Prop :=
  ∃ before after, batch = before ++ (challenges CT hs bsc).inverted ++ after ∧
    interm = intermediateOf CT (challenges CT hs bsc) bsc.commitments.length before.length

omit [AddCommGroup P] [Module Scalar P] [AddCommGroup M] [Module Scalar M] in
theorem restoreAllChallenges_spec (CT : BppCryptoTraitZano P) (hs : List (HsItem P) → Scalar)
    (sigs : List (BppSigCommitRef P M)) :
    (restoreAllChallenges CT hs sigs).2 =
      sigs.flatMap (fun bsc => (challenges CT hs bsc).inverted) ∧
      List.Forall₂ (Located CT hs (restoreAllChallenges CT hs sigs).2) sigs
        (restoreAllChallenges CT hs sigs).1 := by
  induction sigs using List.reverseRecOn with
  | nil => exact ⟨rfl, List.Forall₂.nil⟩
  | append_singleton sigs bsc inductionHypothesis =>
      obtain ⟨isBatch, located⟩ := inductionHypothesis
      have step : restoreAllChallenges CT hs (sigs ++ [bsc]) =
          ((restoreAllChallenges CT hs sigs).1 ++
            [intermediateOf CT (challenges CT hs bsc) bsc.commitments.length
              (restoreAllChallenges CT hs sigs).2.length],
            (restoreAllChallenges CT hs sigs).2 ++ (challenges CT hs bsc).inverted) := by
        rw [restoreAllChallenges, List.foldl_append]
        rfl
      rw [step]
      refine ⟨by simp [isBatch], List.rel_append ?_ (List.Forall₂.cons ?_ List.Forall₂.nil)⟩
      · refine located.imp fun _ _ ⟨before, after, isSplit, isInterm⟩ => ?_
        exact ⟨before,
          after ++ (challenges CT hs bsc).inverted,
            by simp only [isSplit, List.append_assoc], isInterm⟩
      · exact ⟨(restoreAllChallenges CT hs sigs).2, [], by simp, rfl⟩

omit [AddCommGroup P] [Module Scalar P] [AddCommGroup M] [Module Scalar M] in
/-- The inverses of one proof, out of those of all. -/
theorem Located.inverses {CT : BppCryptoTraitZano P} {hs : List (HsItem P) → Scalar}
    {batch : List Scalar} {bsc : BppSigCommitRef P M} {interm : IntermediateElement}
    (located : Located CT hs batch bsc interm) (nonzero : (0 : Scalar) ∉ batch) :
    (invert batch).getD interm.invYOffset 0 = (challenges CT hs bsc).y⁻¹ ∧
      ∀ i < (challenges CT hs bsc).es.length,
        (invert batch).getD (interm.invEOffset + i) 0 = ((challenges CT hs bsc).es.getD i 0)⁻¹ := by
  obtain ⟨before, after, isSplit, rfl⟩ := located
  rw [invert_eq, if_neg nonzero, isSplit, List.map_append, List.map_append, Challenges.inverted,
    List.map_cons]
  have atOffset (rest : List Scalar) (i : ℕ) :
      (before.map (·⁻¹) ++ rest).getD (before.length + i) 0 = rest.getD i 0 := by
    have skipped :=
      List.getD_append_right (before.map fun s : Scalar => s⁻¹) rest 0 (before.length + i)
      (by rw [List.length_map]; exact Nat.le_add_right _ _)
    rwa [List.length_map, Nat.add_sub_cancel_left] at skipped
  constructor
  · have first := atOffset
      ((challenges CT hs bsc).y⁻¹ :: (challenges CT hs bsc).es.map (·⁻¹) ++ after.map (·⁻¹)) 0
    rw [Nat.add_zero] at first
    rw [intermediateOf, List.append_assoc, first]
    rfl
  · intro i inside
    have later := atOffset
      ((challenges CT hs bsc).y⁻¹ :: (challenges CT hs bsc).es.map (·⁻¹) ++ after.map (·⁻¹)) (1 + i)
    rw [intermediateOf, List.append_assoc, Nat.add_assoc, later, Nat.add_comm 1 i, List.cons_append,
      List.getD_cons_succ, List.getD_append _ _ _ _ (by simpa using inside),
      List.getD_eq_getElem _ _ (by simpa using inside), List.getElem_map,
      List.getD_eq_getElem _ _ inside]

/-! ## One proof -/

/-- The sum that the last multiplication compares to zero, when the vectors have the size `mn`. -/
def VerifySums.total (CT : BppCryptoTraitZano P) (cx : WipContext P M) (mn : ℕ)
    (sums : VerifySums P M) : P :=
  ∑ i ∈ Finset.range mn, sums.gScalars i • CT.getGenerator false i +
    ∑ i ∈ Finset.range mn, sums.hScalars i • CT.getGenerator true i +
      sums.gScalar • cx.bppG + cx.blind sums.hScalar + sums.summand

theorem foldr_hScalars (y : Scalar) (f : ℕ → Scalar) (d : ℕ → Scalar) (n : ℕ)
    (hScalars : ℕ → Scalar) (weight : Scalar) :
    (List.range n).foldr
        (fun i ((hScalars, weight) : (ℕ → Scalar) × Scalar) =>
          (Function.update hScalars i (hScalars i + (f i - weight * d i)), weight * y))
        (hScalars, weight) =
      (fun i => if i < n then hScalars i + (f i - weight * y ^ (n - 1 - i) * d i) else hScalars i,
        weight * y ^ n) := by
  induction n generalizing hScalars weight with
  | zero => simp
  | succ n inductionHypothesis =>
      rw [List.range_succ, List.foldr_append, List.foldr_cons, List.foldr_nil, inductionHypothesis,
        pow_succ']
      refine Prod.ext (funext fun i => ?_) (by ring)
      rcases lt_trichotomy i n with below | rfl | above
      · have next : n + 1 - 1 - i = n - 1 - i + 1 := by omega
        simp only [below, below.ne, ne_eq, not_false_eq_true, Function.update_of_ne, if_true,
          below.trans (Nat.lt_succ_self n), next, pow_succ']
        ring
      · simp
      · simp [above.not_gt, above.ne', show ¬i < n + 1 by omega]

theorem foldl_squares (y : Scalar) (n : ℕ) :
    (List.range n).foldl (fun power _ => power * power) y = y ^ 2 ^ n := by
  induction n with
  | zero => simp
  | succ n inductionHypothesis =>
      rw [List.range_succ, List.foldl_append, inductionHypothesis, List.foldl_cons, List.foldl_nil,
        pow_succ 2, mul_two, pow_add]

theorem foldl_sub {A : Type*} [AddCommGroup A] (f : ℕ → A) (n : ℕ) (a : A) :
    (List.range n).foldl (fun a j => a - f j) a = a - ∑ j ∈ Finset.range n, f j := by
  induction n with
  | zero => simp
  | succ n inductionHypothesis =>
      rw [List.range_succ, List.foldl_append, inductionHypothesis, List.foldl_cons, List.foldl_nil,
        Finset.sum_range_succ, sub_sub]

theorem foldl_commitments (zSq : Scalar) (commitments : List P) (power : Scalar) (summand8 : P) :
    (commitments.foldl (fun ((power, summand8) : Scalar × P) commitment =>
        (power * zSq, summand8 - (power * zSq) • commitment)) (power, summand8)).2 =
      summand8 - power • ∑ j ∈ Finset.range commitments.length,
        zSq ^ (j + 1) • commitments.getD j 0 := by
  induction commitments generalizing power summand8 with
  | nil => simp
  | cons commitment commitments inductionHypothesis =>
      rw [List.foldl_cons, inductionHypothesis, List.length_cons, Finset.sum_range_succ']
      simp only [List.getD_cons_succ, List.getD_cons_zero, pow_succ' zSq (_ + 1),
        mul_smul, ← Finset.smul_sum]
      module

/-- The sum of a list of points that belong to the rounds. -/
theorem sum_rounds (es : List Scalar) (L R : List P)
    (sizes : L.length = es.length ∧ R.length = es.length) :
    ((List.zip es ((L.zip R).map fun (L, R) => ((8 : Scalar) • L, (8 : Scalar) • R))).map
        fun (e, L, R) => e ^ 2 • L + e⁻¹ ^ 2 • R).sum =
      (8 : Scalar) • ∑ j ∈ Finset.range es.length,
        (es.getD j 0 ^ 2 • L.getD j 0 + (es.getD j 0)⁻¹ ^ 2 • R.getD j 0) := by
  obtain ⟨sameL, sameR⟩ := sizes
  induction es generalizing L R with
  | nil => simp
  | cons e es inductionHypothesis =>
      match L, R, sameL, sameR with
      | l :: L, r :: R, sameL, sameR =>
          rw [List.length_cons, List.length_cons, Nat.succ_inj] at sameL sameR
          rw [List.zip_cons_cons, List.map_cons, List.zip_cons_cons, List.map_cons, List.sum_cons,
            inductionHypothesis L R sameL sameR, List.length_cons, Finset.sum_range_succ']
          simp only [List.getD_cons_succ, List.getD_cons_zero]
          module

omit [AddCommGroup M] [Module Scalar M] in
/-- Only the first elements change. -/
theorem sum_first (f change : ℕ → Scalar) (generator : ℕ → P) {first size : ℕ}
    (within : first ≤ size) :
    ∑ i ∈ Finset.range size, (if i < first then f i + change i else f i) • generator i =
      ∑ i ∈ Finset.range size, f i • generator i + ∑ i ∈ Finset.range first,
        change i • generator i := by
  have each (i : ℕ) : (if i < first then f i + change i else f i) • generator i =
      f i • generator i + if i < first then change i • generator i else 0 := by
    split <;> simp [add_smul]
  have changed : ∑ i ∈ Finset.range size, (if i < first then change i • generator i else 0) =
      ∑ i ∈ Finset.range first, change i • generator i := by
    rw [← Finset.sum_subset (Finset.range_subset_range.mpr within)]
    · exact Finset.sum_congr rfl fun i inside => if_pos (Finset.mem_range.mp inside)
    · intro i _ beyond
      exact if_neg (by simpa using beyond)
  simp only [each, Finset.sum_add_distrib, changed]

section Proof

variable {es : List Scalar}

omit [AddCommGroup M] [Module Scalar M]

/-- The generators `G`, with the multiples from the bits of an index, are folded. -/
theorem sum_sVec_g (nonzero : ∀ e ∈ es, e ≠ 0) (small : es.length ≤ 32) (a b y : Scalar)
    (g : ℕ → P) :
    ∑ i ∈ Finset.range (2 ^ es.length),
        (a * y⁻¹ ^ i *
          sVec (WeightedInnerProduct.factor es 0) (es.map fun e => e * e) es.length i + b) • g i =
      a • WeightedInnerProduct.foldsG y es g 0 +
        b • ∑ i ∈ Finset.range (2 ^ es.length), g i := by
  rw [WeightedInnerProduct.foldsG_zero, Finset.smul_sum, Finset.smul_sum,
    ← Finset.sum_add_distrib]
  refine Finset.sum_congr rfl fun i inside => ?_
  rw [sVec_eq nonzero small (Finset.mem_range.mp inside)]
  module

/-- The generators `H` are folded from the other end. -/
theorem sum_sVec_h (nonzero : ∀ e ∈ es, e ≠ 0) (small : es.length ≤ 32) (a w y z : Scalar)
    (d : ℕ → Scalar) (h : ℕ → P) :
    ∑ i ∈ Finset.range (2 ^ es.length),
        (a * sVec (WeightedInnerProduct.factor es 0) (es.map fun e => e * e) es.length
            (2 ^ es.length - 1 - i) - w * z -
          w * y * y ^ (2 ^ es.length - 1 - i) * d i) • h i =
      a • WeightedInnerProduct.foldsH es h 0 -
        w • ∑ i ∈ Finset.range (2 ^ es.length), (d i * y ^ (2 ^ es.length - i) + z) • h i := by
  rw [WeightedInnerProduct.foldsH_zero, Finset.smul_sum, Finset.smul_sum,
    ← Finset.sum_sub_distrib]
  refine Finset.sum_congr rfl fun i inside => ?_
  rw [Finset.mem_range] at inside
  have next : 2 ^ es.length - i = 2 ^ es.length - 1 - i + 1 := by omega
  rw [sVec_eq nonzero small (by omega), next, pow_succ]
  module

/-- The points of the rounds, with what is taken for the inverses of the challenges. -/
theorem sum_squares {inverses : ℕ → Scalar}
    (inverted : ∀ j < es.length, inverses j = (es.getD j 0)⁻¹) (w : Scalar) (L R : ℕ → P) :
    ∑ j ∈ Finset.range es.length, w • ((es.map fun e => e * e).getD j 0 • L j +
        (inverses j * inverses j) • R j) =
      w • ∑ j ∈ Finset.range es.length, (es.getD j 0 ^ 2 • L j + (es.getD j 0)⁻¹ ^ 2 • R j) := by
  rw [Finset.smul_sum]
  refine Finset.sum_congr rfl fun j inside => ?_
  rw [Finset.mem_range] at inside
  rw [inverted j inside, List.getD_eq_getElem _ _ (by simpa using inside), List.getElem_map,
    List.getD_eq_getElem _ 0 inside, sq, sq]

theorem sum_eight_smul (c : ℕ → Scalar) (commitments : List P) :
    ∑ j ∈ Finset.range commitments.length, c j • (commitments.map ((8 : Scalar) • ·)).getD j 0 =
      (8 : Scalar) • ∑ j ∈ Finset.range commitments.length, c j • commitments.getD j 0 := by
  rw [Finset.smul_sum]
  refine Finset.sum_congr rfl fun j inside => ?_
  rw [Finset.mem_range] at inside
  rw [List.getD_eq_getElem _ _ (by simpa using inside), List.getElem_map,
    List.getD_eq_getElem _ _ inside, smul_comm]

end Proof

theorem addProof_total (CT : BppCryptoTraitZano P) (cx : WipContext P M)
    (isPower : CT.bppN = 2 ^ CT.bppLog2N) {batch : List Scalar} {bsc : BppSigCommitRef P M}
    {interm : IntermediateElement} (located : Located CT cx.hs batch bsc interm)
    (nonzero : (0 : Scalar) ∉ batch)
    (sizeL : bsc.sig.L.length = constexprCeilLog2 bsc.commitments.length + CT.bppLog2N)
    (sizeR : bsc.sig.L.length = bsc.sig.R.length) (small : bsc.sig.L.length ≤ 32) {mn : ℕ}
    (within : 2 ^ bsc.sig.L.length ≤ mn) (rwf : Scalar) (sums : VerifySums P M) :
    (addProof CT (invert batch) rwf bsc interm sums).total CT cx mn =
      sums.total CT cx mn + rwf • proofResidual CT cx bsc := by
  obtain ⟨yInv, eInv⟩ := located.inverses nonzero
  obtain ⟨before, after, isBatch, isInterm⟩ := located
  have size : 2 ^ constexprCeilLog2 bsc.commitments.length * CT.bppN = 2 ^ bsc.sig.L.length := by
    rw [isPower, ← pow_add, sizeL]
  have count : (challenges CT cx.hs bsc).es.length = bsc.sig.L.length := by
    rw [challenges, length_roundChallenges, List.length_zip, ← sizeR, min_self]
  have esNonzero : ∀ e ∈ (challenges CT cx.hs bsc).es, e ≠ 0 := by
    intro e inside zero
    apply nonzero
    rw [isBatch, Challenges.inverted]
    simp [← zero, inside]
  have first : ∏ i ∈ Finset.range bsc.sig.L.length, (invert batch).getD (interm.invEOffset + i) 0 =
      WeightedInnerProduct.factor (challenges CT cx.hs bsc).es 0 := by
    rw [factor_zero, count]
    exact Finset.prod_congr rfl fun i inside => eInv i (count ▸ Finset.mem_range.mp inside)
  simp only [VerifySums.total, addProof, first, yInv, foldr_hScalars, foldl_squares,
    foldl_commitments, foldl_sub, powers_eq, sumOfPowers_eq]
  rw [isInterm]
  simp only [intermediateOf, size]
  rw [isInterm] at eInv
  simp only [intermediateOf] at eInv
  rw [sum_first _ _ _ within, sum_first _ _ _ within]
  generalize isCh : challenges CT cx.hs bsc = ch at *
  have ofD : (2 ^ CT.bppN - 1) * ∑ i ∈ Finset.range (2 ^ constexprCeilLog2 bsc.commitments.length),
      (ch.z * ch.z) ^ (i + 1) =
      ∑ i ∈ Finset.range (2 ^ bsc.sig.L.length), dVec CT.bppN (ch.z * ch.z) i := by
    rw [← size, sum_dVec]
  have challengesOfRounds : (List.zip ch.es ((bsc.sig.L.zip bsc.sig.R).map fun (L, R) =>
      ((8 : Scalar) • L, (8 : Scalar) • R))).map
      Prod.fst = ch.es := List.map_fst_zip (by simp [count, ← sizeR])
  have allOnes : ((2 ^ CT.bppN - 1 : ℕ) : Scalar) = 2 ^ CT.bppN - 1 := by
    rw [Nat.cast_sub Nat.one_le_two_pow, Nat.cast_pow, Nat.cast_ofNat, Nat.cast_one]
  rw [allOnes, ofD, proofResidual, isCh]
  simp only [WeightedInnerProduct.residual, aHat, size, challengesOfRounds, List.length_map,
    sum_eight_smul]
  rw [sum_rounds _ _ _ ⟨count.symm, sizeR.symm.trans count.symm⟩, map_add, map_smul, ← count,
    sum_sVec_g esNonzero (count ▸ small), sum_sVec_h esNonzero (count ▸ small),
    sum_squares eInv]
  module

/-! ## All proofs -/

/-- What the proofs leave, each with its weight. -/
def weightedResiduals (CT : BppCryptoTraitZano P) (cx : WipContext P M)
    (sigs : List (BppSigCommitRef P M)) (rwf : ℕ → Scalar) : P :=
  (sigs.zipIdx.map fun (bsc, k) => rwf k • proofResidual CT cx bsc).sum

theorem foldl_addProof (CT : BppCryptoTraitZano P) (cx : WipContext P M)
    (isPower : CT.bppN = 2 ^ CT.bppLog2N) {batch : List Scalar} (nonzero : (0 : Scalar) ∉ batch)
    {mn : ℕ} (small : mn ≤ 2 ^ 32) (rwf : ℕ → Scalar) {sigs : List (BppSigCommitRef P M)}
    {interms : List IntermediateElement}
    (located : List.Forall₂ (Located CT cx.hs batch) sigs interms) (sizes : ∀ bsc ∈ sigs,
      bsc.sig.L.length = constexprCeilLog2 bsc.commitments.length + CT.bppLog2N ∧
      bsc.sig.L.length = bsc.sig.R.length ∧
        2 ^ bsc.sig.L.length ≤ mn) (first : ℕ) (sums : VerifySums P M) :
    (((sigs.zip interms).zipIdx first).foldl (fun sums ((bsc, interm), k) =>
      addProof CT (invert batch) (rwf k) bsc interm sums)
        sums).total CT cx mn =
      sums.total CT cx mn +
        ((sigs.zipIdx first).map fun (bsc, k) => rwf k • proofResidual CT cx bsc).sum := by
  induction located generalizing first sums with
  | nil => simp
  | cons here later inductionHypothesis =>
      obtain ⟨⟨sizeL, sizeR, within⟩, others⟩ := List.forall_mem_cons.mp sizes
      have few := (Nat.pow_le_pow_iff_right (show 1 < 2 by decide)).mp (within.trans small)
      rw [List.zip_cons_cons, List.zipIdx_cons, List.foldl_cons, inductionHypothesis others,
        addProof_total CT cx isPower here nonzero sizeL sizeR few within, List.zipIdx_cons,
          List.map_cons, List.sum_cons, add_assoc]

omit [AddCommGroup P] [Module Scalar P] [AddCommGroup M] [Module Scalar M] in
theorem checkSizes_eq_ok (CT : BppCryptoTraitZano P) (bsc : BppSigCommitRef P M) :
    checkSizes CT bsc = .ok () ↔
      0 < bsc.commitments.length ∧ 0 < bsc.sig.L.length ∧ bsc.sig.L.length = bsc.sig.R.length ∧
      bsc.sig.L.length = constexprCeilLog2 bsc.commitments.length + CT.bppLog2N := by
  rw [checkSizes]
  grind

omit [AddCommGroup P] [Module Scalar P] [AddCommGroup M] [Module Scalar M] in
theorem forM_checkSizes (CT : BppCryptoTraitZano P) (sigs : List (BppSigCommitRef P M)) :
    sigs.forM (checkSizes CT) = .ok () ↔ ∀ bsc ∈ sigs, checkSizes CT bsc = .ok () := by
  induction sigs with
  | nil => simp [pure, Except.pure]
  | cons bsc sigs inductionHypothesis =>
      change (checkSizes CT bsc >>= fun _ => sigs.forM (checkSizes CT)) = .ok () ↔ _
      rw [List.forall_mem_cons]
      cases checkSizes CT bsc with
      | error code => simp [bind, Except.bind]
      | ok => simpa [bind, Except.bind] using inductionHypothesis

theorem multiples_map_range (CT : BppCryptoTraitZano P) (selectH : Bool) (f : ℕ → Scalar) (n : ℕ) :
    multiples CT selectH ((List.range n).map f) =
      ∑ i ∈ Finset.range n, f i • CT.getGenerator selectH i := by
  rw [multiples, List.length_map, List.length_range]
  refine Finset.sum_congr rfl fun i inside => ?_
  rw [List.getD_eq_getElem _ _ (by simpa using inside), List.getElem_map, List.getElem_range]

/-- The largest size is that of some proof. -/
theorem foldl_max {α : Type*} (f : α → ℕ) (items : List α) (most : ℕ) :
    most ≤ items.foldl (fun most item => max most (f item)) most ∧
      (∀ item ∈ items, f item ≤ items.foldl (fun most item => max most (f item)) most) ∧
        (items.foldl (fun most item => max most (f item)) most = most ∨
          ∃ item ∈ items, items.foldl (fun most item => max most (f item)) most = f item) := by
  induction items generalizing most with
  | nil => simp
  | cons item items inductionHypothesis =>
      obtain ⟨above, each, reached⟩ := inductionHypothesis (max most (f item))
      rw [List.foldl_cons]
      grind

theorem verifyRangeProofs_eq [DecidableEq P] (CT : BppCryptoTraitZano P) (cx : WipContext P M)
    (isPower : CT.bppN = 2 ^ CT.bppLog2N) (bounded : CT.bppMnMax ≤ 2 ^ 32)
    {sigs : List (BppSigCommitRef P M)} (some_ : sigs ≠ [])
    (sizes : ∀ bsc ∈ sigs, checkSizes CT bsc = .ok ())
    (nonzero : ∀ bsc ∈ sigs, (challenges CT cx.hs bsc).Nonzero) (rwf : ℕ → Scalar) :
    verifyRangeProofs CT cx sigs rwf = .ok true ↔
      (∀ bsc ∈ sigs, 2 ^ bsc.sig.L.length ≤ CT.bppMnMax) ∧
        weightedResiduals CT cx sigs rwf = 0 := by
  obtain ⟨-, each, reached⟩ :=
    foldl_max (fun bsc : BppSigCommitRef P M => constexprCeilLog2 bsc.commitments.length) sigs 0
  obtain ⟨isBatch, located⟩ := restoreAllChallenges_spec CT cx.hs sigs
  have batchNonzero : (0 : Scalar) ∉ (restoreAllChallenges CT cx.hs sigs).2 := by
    rw [isBatch, List.mem_flatMap]
    rintro ⟨bsc, inside, zero⟩
    obtain ⟨yNonzero, esNonzero⟩ := nonzero bsc inside
    rw [Challenges.inverted, List.mem_cons] at zero
    exact zero.elim (fun same => yNonzero same.symm) fun isE => esNonzero 0 isE rfl
  rw [verifyRangeProofs, if_neg (by simpa using some_)]
  simp only [(forM_checkSizes CT sigs).mpr sizes, pure, Except.pure, bind, Except.bind,
    Except.ok.injEq]
  have size : ∀ bsc ∈ sigs, 2 ^ bsc.sig.L.length =
      2 ^ constexprCeilLog2 bsc.commitments.length * CT.bppN := by
    intro bsc inside
    rw [((checkSizes_eq_ok CT bsc).mp (sizes bsc inside)).2.2.2, pow_add, ← isPower]
  generalize sigs.foldl (fun most bsc => max most (constexprCeilLog2 bsc.commitments.length)) 0 =
    most at each reached ⊢
  have ofEach : ∀ bsc ∈ sigs, 2 ^ bsc.sig.L.length ≤ 2 ^ most * CT.bppN := by
    intro bsc inside
    rw [size bsc inside]
    exact Nat.mul_le_mul_right _ (Nat.pow_le_pow_right (by decide) (each bsc inside))
  have fits : 2 ^ most * CT.bppN ≤ CT.bppMnMax ↔
      ∀ bsc ∈ sigs, 2 ^ bsc.sig.L.length ≤ CT.bppMnMax := by
    refine ⟨fun enough bsc inside => (ofEach bsc inside).trans enough, fun enough => ?_⟩
    obtain ⟨bsc, inside, isMost⟩ : ∃ bsc ∈ sigs, most =
        constexprCeilLog2 bsc.commitments.length := by
      rcases reached with zero | found
      · obtain ⟨bsc, inside⟩ := List.exists_mem_of_ne_nil sigs some_
        have := each bsc inside
        exact ⟨bsc, inside, by omega⟩
      · exact found
    rw [isMost, ← size bsc inside]
    exact enough bsc inside
  rw [msmAndCheckZero_eq, multiples_map_range, multiples_map_range, List.length_map,
    List.length_map, List.length_range, fits]
  have sum (enough : ∀ bsc ∈ sigs, 2 ^ bsc.sig.L.length ≤ CT.bppMnMax) :=
    foldl_addProof CT cx isPower batchNonzero ((fits.mpr enough).trans bounded) rwf located
      (fun bsc inside => ⟨((checkSizes_eq_ok CT bsc).mp (sizes bsc inside)).2.2.2,
        ((checkSizes_eq_ok CT bsc).mp (sizes bsc inside)).2.2.1, ofEach bsc inside⟩)
      0 { gScalars := fun _ => 0, hScalars := fun _ => 0, gScalar := 0, hScalar := 0, summand := 0 }
  generalize ((sigs.zip (restoreAllChallenges CT cx.hs sigs).1).zipIdx).foldl _ _ = sums at sum ⊢
  rw [weightedResiduals]
  simp only [VerifySums.total, zero_smul, Finset.sum_const_zero, map_zero, add_zero,
    zero_add] at sum
  constructor
  · rintro ⟨enough, -, isZero⟩
    refine ⟨enough, ?_⟩
    rw [← sum enough, ← isZero, WipContext.calcPedersenCommitment]
    abel
  · rintro ⟨enough, isZero⟩
    refine ⟨enough, enough, ?_⟩
    rw [← isZero, ← sum enough, WipContext.calcPedersenCommitment]
    abel

/-! ## Who is let through -/

/-- What both traits in use have. -/
structure BppCryptoTraitZano.WellFormed (CT : BppCryptoTraitZano P) : Prop where
  isPower : CT.bppN = 2 ^ CT.bppLog2N
  some_ : 0 < CT.bppLog2N
  valuesArePower : CT.bppValuesMax = 2 ^ constexprCeilLog2 CT.bppValuesMax
  bounded : CT.bppMnMax ≤ 2 ^ 32

omit [AddCommGroup P] [Module Scalar P] in
/-- `bpp_crypto_trait_ZC_out` and `bpp_crypto_trait_Zarcanum` have these sizes. -/
theorem wellFormed_of_sizes (CT : BppCryptoTraitZano P)
    (sizes : CT.bppN = 64 ∧ CT.bppValuesMax = 32 ∨ CT.bppN = 128 ∧ CT.bppValuesMax = 16) :
    CT.WellFormed := by
  have log64 : constexprCeilLog2 64 = 6 := by
    simp [constexprCeilLog2, constexprCeilLogN, constexprFloorLogN]
  have log128 : constexprCeilLog2 128 = 7 := by
    simp [constexprCeilLog2, constexprCeilLogN, constexprFloorLogN]
  have log32 : constexprCeilLog2 32 = 5 := by
    simp [constexprCeilLog2, constexprCeilLogN, constexprFloorLogN]
  have log16 : constexprCeilLog2 16 = 4 := by
    simp [constexprCeilLog2, constexprCeilLogN, constexprFloorLogN]
  rcases sizes with ⟨n, values⟩ | ⟨n, values⟩ <;>
    exact ⟨by simp [BppCryptoTraitZano.bppLog2N, *], by
      simp [BppCryptoTraitZano.bppLog2N, *], by simp [*], by simp [BppCryptoTraitZano.bppMnMax, *]⟩

/-- A proof that was made for values of the range and for their commitments. -/
def Generated (CT : BppCryptoTraitZano P) (cx : WipContext P M)
    (bsc : BppSigCommitRef P M) : Prop :=
  ∃ values masks random, values.length = masks.length ∧ (∀ v ∈ values, v.val < 2 ^ CT.bppN) ∧
    bsc.commitments.map ((8 : Scalar) • ·) = List.zipWith cx.calcPedersenCommitment values masks ∧
      genRangeProof CT cx values masks bsc.commitments random = .ok bsc.sig

/-- Nothing is left of it, and its sizes are within bounds. -/
theorem Generated.spec {CT : BppCryptoTraitZano P} (wellFormed : CT.WellFormed)
    {cx : WipContext P M} {bsc : BppSigCommitRef P M} (generated : Generated CT cx bsc)
    (nonzero : (challenges CT cx.hs bsc).Nonzero) :
    checkSizes CT bsc = .ok () ∧ 2 ^ bsc.sig.L.length ≤ CT.bppMnMax ∧
      proofResidual CT cx bsc = 0 := by
  obtain ⟨values, masks, random, sameSize, fit, areCommitments, made⟩ := generated
  have lengths :
      0 < values.length ∧ values.length ≤ CT.bppValuesMax ∧ values.length = masks.length ∧
      values.length = bsc.commitments.length := by
    by_contra refused
    rw [genRangeProof, if_pos refused] at made
    cases made
  obtain ⟨some_, few, -, count⟩ := lengths
  obtain ⟨sig, same, sizeL, sizeR, spec⟩ :=
    genRangeProof_answers CT cx wellFormed.isPower some_ few sameSize fit areCommitments random
  obtain rfl : sig = bsc.sig := Except.ok.inj (same.symm.trans made)
  refine ⟨?_, ?_, spec nonzero⟩
  · rw [checkSizes_eq_ok]
    have := wellFormed.some_
    exact ⟨count ▸ some_, by omega, sizeR.symm, sizeL⟩
  · have atMost : 2 ^ constexprCeilLog2 bsc.commitments.length ≤ CT.bppValuesMax := by
      rw [wellFormed.valuesArePower]
      apply Nat.pow_le_pow_right (by decide)
      simp only [constexprCeilLog2, constexprCeilLogN_eq]
      exact Nat.clog_mono_right 2 (count ▸ few)
    rw [sizeL, pow_add, ← wellFormed.isPower, BppCryptoTraitZano.bppMnMax, Nat.mul_comm]
    exact Nat.mul_le_mul_left _ atMost

/-- A trait of one value below 4, over the scalars themselves. -/
def smallTrait : BppCryptoTraitZano Scalar := ⟨2, 1, fun i => i + 1, 0, 1, 1 + 1, 1 + 1 + 1⟩

theorem smallTrait_wellFormed : smallTrait.WellFormed := by
  have log1 : constexprCeilLog2 1 = 0 := by simp [constexprCeilLog2, constexprCeilLogN]
  have log2 : constexprCeilLog2 2 = 1 := by
    simp [constexprCeilLog2, constexprCeilLogN, constexprFloorLogN]
  constructor <;> simp [smallTrait, BppCryptoTraitZano.bppLog2N, BppCryptoTraitZano.bppMnMax, *]

def smallContext : WipContext Scalar Scalar := ⟨smallTrait.bppG, blind1 smallTrait, fun _ => 1⟩

omit [AddCommGroup P] [Module Scalar P] [AddCommGroup M] [Module Scalar M] in
theorem challenges_nonzero_of_const (CT : BppCryptoTraitZano P) (bsc : BppSigCommitRef P M) :
    (challenges CT (fun _ => 1) bsc).Nonzero := by
  have each (start : Scalar) (rounds : List (P × P)) :
      ∀ e ∈ roundChallenges (fun _ => (1 : Scalar)) start rounds, e ≠ 0 := by
    induction rounds generalizing start with
    | nil => simp [roundChallenges]
    | cons round rounds inductionHypothesis =>
        obtain ⟨L, R⟩ := round
        rw [roundChallenges, List.forall_mem_cons]
        exact ⟨one_ne_zero, inductionHypothesis _⟩
  exact ⟨one_ne_zero, each 1 (bsc.sig.L.zip bsc.sig.R)⟩

/-- Any batch of such proofs passes, whatever the weights are, unless a challenge
happens to be zero. -/
theorem verifyRangeProofs_generated [DecidableEq P] (CT : BppCryptoTraitZano P)
    (wellFormed : CT.WellFormed) (cx : WipContext P M) {sigs : List (BppSigCommitRef P M)}
    (some_ : sigs ≠ []) (generated : ∀ bsc ∈ sigs, Generated CT cx bsc)
    (nonzero : ∀ bsc ∈ sigs, (challenges CT cx.hs bsc).Nonzero) (rwf : ℕ → Scalar) :
    verifyRangeProofs CT cx sigs rwf = .ok true := by
  have spec := fun bsc inside => (generated bsc inside).spec wellFormed (nonzero bsc inside)
  rw [verifyRangeProofs_eq CT cx wellFormed.isPower wellFormed.bounded some_ (fun bsc inside =>
    (spec bsc inside).1) nonzero]
  refine ⟨fun bsc inside => (spec bsc inside).2.1, ?_⟩
  apply List.sum_eq_zero
  simp only [List.mem_map]
  rintro _ ⟨⟨bsc, k⟩, inside, rfl⟩
  rw [(spec bsc (List.fst_mem_of_mem_zipIdx inside)).2.2, smul_zero]

/-- What a proof is made from: the values, their masks, and what is drawn at random. -/
structure ProofRequest where
  values : List Scalar
  masks : List Scalar
  random : BppRandom Scalar

/-- As many values as fit in a proof, each of them in the range. -/
def ProofRequest.Fits (request : ProofRequest) (CT : BppCryptoTraitZano P) : Prop :=
  0 < request.values.length ∧ request.values.length ≤ CT.bppValuesMax ∧
    request.values.length = request.masks.length ∧
    ∀ v ∈ request.values, v.val < 2 ^ CT.bppN

def ProofRequest.commitments1div8 (request : ProofRequest) (CT : BppCryptoTraitZano P)
    (hs : List (HsItem P) → Scalar) : List P :=
  (List.zipWith (WipContext.calcPedersenCommitment ⟨CT.bppG, blind1 CT, hs⟩) request.values
    request.masks).map (scalar1div8 • ·)

/-- Proofs are made for values of the range, and any of them together are accepted,
whatever their sizes are. -/
theorem bppVerify_bppGen [DecidableEq P] (CT : BppCryptoTraitZano P)
    (sizes : CT.bppN = 64 ∧ CT.bppValuesMax = 32 ∨ CT.bppN = 128 ∧ CT.bppValuesMax = 16)
    (hs : List (HsItem P) → Scalar) {requests : List ProofRequest} (some_ : requests ≠ [])
    (fit : ∀ request ∈ requests, request.Fits CT) :
    ∃ sigOf : ProofRequest → BppSignature P Scalar,
      (∀ request ∈ requests,
        bppGen CT hs request.values request.masks (request.commitments1div8 CT hs) request.random =
          .ok (sigOf request)) ∧
      let sigs := requests.map fun request => ⟨sigOf request, request.commitments1div8 CT hs⟩
      (∀ bsc ∈ sigs, (challenges CT hs bsc).Nonzero) →
        ∀ rwf, bppVerify CT hs sigs rwf = .ok true := by
  have wellFormed := wellFormed_of_sizes CT sizes
  have opened (request : ProofRequest) : (request.commitments1div8 CT hs).map ((8 : Scalar) • ·) =
      List.zipWith (WipContext.calcPedersenCommitment ⟨CT.bppG, blind1 CT, hs⟩) request.values
        request.masks := by
    simp [ProofRequest.commitments1div8]
  have each (request : ProofRequest) (inside : request ∈ requests) : ∃ sig,
      bppGen CT hs request.values request.masks (request.commitments1div8 CT hs) request.random =
        .ok sig := by
    obtain ⟨positive, few, sameSize, small⟩ := fit request inside
    obtain ⟨sig, made, -⟩ := genRangeProof_answers CT ⟨CT.bppG, blind1 CT, hs⟩ wellFormed.isPower
      positive few sameSize small
      (opened request) request.random
    exact ⟨sig, made⟩
  have : Nonempty (BppSignature P Scalar) := ⟨⟨[], [], 0, 0, 0, 0, 0, 0⟩⟩
  choose! sigOf made using each
  refine ⟨sigOf, made,
    fun nonzero rwf =>
      verifyRangeProofs_generated CT wellFormed ⟨CT.bppG, blind1 CT, hs⟩ (by simpa using some_) ?_
    nonzero rwf⟩
  intro bsc inside
  obtain ⟨request, isRequest, rfl⟩ := List.mem_map.mp inside
  obtain ⟨-, -, sameSize, small⟩ := fit request isRequest
  exact ⟨request.values, request.masks, request.random, sameSize, small, opened request,
    made request isRequest⟩

/-- The trait of outputs over the scalars themselves. -/
def scalarTrait : BppCryptoTraitZano Scalar := ⟨64, 32, fun i => i + 1, 0, 1, 1 + 1, 1 + 1 + 1⟩

theorem bppVerify_bppGen_pair :
    ∃ sig sig', bppGen scalarTrait (fun _ => 1) [3, 4, 5] [6, 7, 8]
      [scalar1div8 • 15, scalar1div8 • 18, scalar1div8 • 21]
        ⟨1, fun _ => 2, fun _ => 3, 4, 5, 6, 7⟩ = .ok sig ∧
      bppGen scalarTrait (fun _ => 1) [9] [1] [scalar1div8 • 11]
        ⟨1, fun _ => 2, fun _ => 3, 4, 5, 6, 7⟩ = .ok sig' ∧
      bppVerify scalarTrait (fun _ => 1)
        [⟨sig, [scalar1div8 • 15, scalar1div8 • 18, scalar1div8 • 21]⟩, ⟨sig', [scalar1div8 • 11]⟩]
        (fun i => i) = .ok true := by
  have fit :
      ∀ request ∈ [(⟨[3, 4, 5], [6, 7, 8], ⟨1, fun _ => 2, fun _ => 3, 4, 5, 6, 7⟩⟩ : ProofRequest),
        ⟨[9], [1], ⟨1, fun _ => 2, fun _ => 3, 4, 5, 6, 7⟩⟩], request.Fits scalarTrait := by
    simp only [List.mem_cons, List.not_mem_nil, or_false, forall_eq_or_imp, forall_eq]
    have values : ∀ v ∈ ([3, 4, 5] : List Scalar), v.val < 2 ^ 64 := by
      simp only [List.mem_cons, List.not_mem_nil, or_false, forall_eq_or_imp, forall_eq]
      decide
    have values' : ∀ v ∈ ([9] : List Scalar), v.val < 2 ^ 64 := by
      simp only [List.mem_singleton, forall_eq]
      decide
    exact ⟨⟨by decide, by decide, rfl, values⟩, by decide, by decide, rfl, values'⟩
  obtain ⟨sigOf, made, accepted⟩ :=
    bppVerify_bppGen scalarTrait (.inl ⟨rfl, rfl⟩) (fun _ => 1) (by simp) fit
  simp only [List.mem_cons, List.not_mem_nil, or_false, forall_eq_or_imp, forall_eq] at made
  exact ⟨_, _, made.1, made.2,
    accepted (fun bsc _ => challenges_nonzero_of_const scalarTrait bsc) _⟩

/-- Its answer is for another transcript. -/
def wrongProof : BppSigCommitRef Scalar Scalar := ⟨⟨[0], [0], 0, 0, 0, 0, 0, 0⟩, [0]⟩

theorem wrongProof_residual : proofResidual smallTrait smallContext wrongProof ≠ 0 := by
  have log1 : constexprCeilLog2 1 = 0 := by simp [constexprCeilLog2, constexprCeilLogN]
  simp [proofResidual, challenges, roundChallenges, WeightedInnerProduct.residual, aHat, smallTrait,
    smallContext, wrongProof, blind1, log1, dVec, dAt, dRow, Finset.sum_range_succ,
    BppCryptoTraitZano.getGenerator, BppCryptoTraitZano.bppMnMax]
  decide

theorem sizes_of_verified [DecidableEq P] {CT : BppCryptoTraitZano P} {cx : WipContext P M}
    {sigs : List (BppSigCommitRef P M)} {rwf : ℕ → Scalar}
    (verified : verifyRangeProofs CT cx sigs rwf = .ok true) :
    sigs ≠ [] ∧ ∀ bsc ∈ sigs, checkSizes CT bsc = .ok () := by
  constructor
  · rintro rfl
    simp [verifyRangeProofs, bind, Except.bind, throw, throwThe, MonadExceptOf.throw] at verified
  · rw [← forM_checkSizes]
    cases checked : sigs.forM (checkSizes CT) with
    | error code =>
        rw [verifyRangeProofs, checked] at verified
        split at verified <;> cases verified
    | ok => rfl

/-- With everything in order, what counts is the weighted sum of what each proof leaves when its
generators are folded. -/
theorem verifyRangeProofs_accepts_iff [DecidableEq P] (CT : BppCryptoTraitZano P)
    (wellFormed : CT.WellFormed) (cx : WipContext P M) (sigs : List (BppSigCommitRef P M))
    (nonzero : ∀ bsc ∈ sigs, (challenges CT cx.hs bsc).Nonzero) (rwf : ℕ → Scalar) :
    verifyRangeProofs CT cx sigs rwf = .ok true ↔
      sigs ≠ [] ∧ (∀ bsc ∈ sigs, checkSizes CT bsc = .ok ()) ∧
        (∀ bsc ∈ sigs, 2 ^ bsc.sig.L.length ≤ CT.bppMnMax) ∧
        weightedResiduals CT cx sigs rwf = 0 := by
  constructor
  · intro verified
    obtain ⟨some_, sizes⟩ := sizes_of_verified verified
    rw [verifyRangeProofs_eq CT cx wellFormed.isPower wellFormed.bounded some_ sizes nonzero]
      at verified
    exact ⟨some_, sizes, verified⟩
  · rintro ⟨some_, sizes, verified⟩
    rwa [verifyRangeProofs_eq CT cx wellFormed.isPower wellFormed.bounded some_ sizes nonzero]

/-- Only the item at one index counts. -/
theorem sum_zipIdx_single {A : Type*} (value : A → P) (weight : ℕ → Scalar) {k : ℕ}
    (others : ∀ i ≠ k, weight i = 0) {items : List A} {first : ℕ} (before : first ≤ k) {item : A}
    (isItem : items[k - first]? = some item) :
    ((items.zipIdx first).map fun x => weight x.2 • value x.1).sum = weight k • value item := by
  have after (items : List A) (first : ℕ) (beyond : k < first) :
      ((items.zipIdx first).map fun x => weight x.2 • value x.1).sum = 0 := by
    induction items generalizing first with
    | nil => rfl
    | cons item items inductionHypothesis =>
        rw [List.zipIdx_cons, List.map_cons, List.sum_cons, inductionHypothesis _ (by omega),
          others first (by omega), zero_smul, add_zero]
  induction items generalizing first with
  | nil => simp at isItem
  | cons head items inductionHypothesis =>
      rw [List.zipIdx_cons, List.map_cons, List.sum_cons]
      by_cases here : first = k
      · subst here
        rw [Nat.sub_self, List.getElem?_cons_zero, Option.some.injEq] at isItem
        rw [after items _ (Nat.lt_succ_self first), add_zero, isItem]
      · have later : k - first = k - (first + 1) + 1 := by omega
        rw [later, List.getElem?_cons_succ] at isItem
        rw [inductionHypothesis (by omega) isItem, others first here, zero_smul, zero_add]

/-- A batch is let through for all weights exactly when no proof of it leaves anything. -/
theorem verifyRangeProofs_forall_iff [DecidableEq P] (CT : BppCryptoTraitZano P)
    (wellFormed : CT.WellFormed) (cx : WipContext P M) (sigs : List (BppSigCommitRef P M))
    (nonzero : ∀ bsc ∈ sigs, (challenges CT cx.hs bsc).Nonzero) :
    (∀ rwf, verifyRangeProofs CT cx sigs rwf = .ok true) ↔
      sigs ≠ [] ∧ ∀ bsc ∈ sigs, checkSizes CT bsc = .ok () ∧ 2 ^ bsc.sig.L.length ≤ CT.bppMnMax ∧
        proofResidual CT cx bsc = 0 := by
  constructor
  · intro accepted
    obtain ⟨some_, sizes, bounded, -⟩ :=
      (verifyRangeProofs_accepts_iff CT wellFormed cx sigs nonzero _).mp (accepted fun _ => 0)
    refine ⟨some_, fun bsc inside => ⟨sizes bsc inside, bounded bsc inside, ?_⟩⟩
    obtain ⟨k, isProof⟩ := List.mem_iff_getElem?.mp inside
    -- with the weight one for this proof and zero for the others its equation is all that is left
    let weight : ℕ → Scalar := fun i => if i = k then 1 else 0
    have sum_eq := ((verifyRangeProofs_accepts_iff CT wellFormed cx sigs nonzero _).mp
      (accepted weight)).2.2.2
    have single := sum_zipIdx_single (proofResidual CT cx) weight (fun i other => if_neg other)
      (Nat.zero_le k) isProof
    rw [weightedResiduals, single] at sum_eq
    simpa [weight] using sum_eq
  · rintro ⟨some_, each⟩ rwf
    rw [verifyRangeProofs_accepts_iff CT wellFormed cx sigs nonzero]
    refine ⟨some_, fun bsc inside => (each bsc inside).1,
      fun bsc inside => (each bsc inside).2.1, ?_⟩
    apply List.sum_eq_zero
    simp only [List.mem_map]
    rintro _ ⟨⟨bsc, k⟩, inside, rfl⟩
    rw [(each bsc (List.fst_mem_of_mem_zipIdx inside)).2.2, smul_zero]

/-- A right proof does not make up for a wrong one. -/
theorem verifyRangeProofs_forall_iff_mixed :
    ∃ sig, bppGen smallTrait (fun _ => 1) [2] [1] [scalar1div8 • 4] ⟨1, fun _ => 2, fun _ =>
      3, 4, 5, 6, 7⟩ =
        .ok sig ∧
      ¬ ∀ rwf, verifyRangeProofs smallTrait smallContext [⟨sig, [scalar1div8 • 4]⟩, wrongProof]
        rwf = .ok true := by
  have small : ∀ v ∈ ([2] : List Scalar), v.val < 2 ^ smallTrait.bppN := by
    simp only [List.mem_singleton, forall_eq]
    decide
  have opened : [scalar1div8 • (4 : Scalar)].map ((8 : Scalar) • ·) =
      List.zipWith smallContext.calcPedersenCommitment [2] [1] := by
    simp [smallContext, smallTrait, blind1, WipContext.calcPedersenCommitment]
    decide
  obtain ⟨sig, made, -⟩ :=
    genRangeProof_answers smallTrait smallContext smallTrait_wellFormed.isPower
    (by decide) (by decide) (show [(2 : Scalar)].length = [(1 : Scalar)].length from rfl)
      small opened
    ⟨1, fun _ => 2, fun _ => 3, 4, 5, 6, 7⟩
  refine ⟨sig, made, fun accepted => wrongProof_residual ?_⟩
  have each := (verifyRangeProofs_forall_iff smallTrait smallTrait_wellFormed smallContext
    [⟨sig, [scalar1div8 • 4]⟩, wrongProof] fun bsc _ =>
      challenges_nonzero_of_const smallTrait bsc).mp accepted
  exact (each.2 wrongProof (by simp)).2.2

/-- A proof that leaves something is let through for one weight at most, whatever those
of the others are. -/
theorem verifyRangeProofs_weight [DecidableEq P] (CT : BppCryptoTraitZano P)
    (wellFormed : CT.WellFormed) (cx : WipContext P M) {sigs : List (BppSigCommitRef P M)}
    (nonzero : ∀ bsc ∈ sigs, (challenges CT cx.hs bsc).Nonzero) {k : ℕ} {bsc : BppSigCommitRef P M}
    (isProof : sigs[k]? = some bsc) (wrong : proofResidual CT cx bsc ≠ 0) {rwf rwf' : ℕ → Scalar}
    (others : ∀ i ≠ k, rwf i = rwf' i) (accepted : verifyRangeProofs CT cx sigs rwf = .ok true)
    (accepted' : verifyRangeProofs CT cx sigs rwf' = .ok true) : rwf k = rwf' k := by
  obtain ⟨some_, sizes⟩ := sizes_of_verified accepted
  rw [verifyRangeProofs_eq CT cx wellFormed.isPower wellFormed.bounded some_ sizes nonzero]
    at accepted accepted'
  have apart (x : BppSigCommitRef P M × ℕ) : rwf x.2 • proofResidual CT cx x.1 =
      rwf' x.2 • proofResidual CT cx x.1 + (rwf x.2 - rwf' x.2) • proofResidual CT cx x.1 := by
    module
  have isZero : (sigs.zipIdx.map fun x => rwf x.2 • proofResidual CT cx x.1).sum = 0 := accepted.2
  have isZero' : (sigs.zipIdx.map fun x => rwf' x.2 • proofResidual CT cx x.1).sum = 0 :=
    accepted'.2
  simp only [apart, List.sum_map_add, isZero', zero_add] at isZero
  rw [sum_zipIdx_single (proofResidual CT cx) (fun i => rwf i - rwf' i) (fun i other =>
    sub_eq_zero.mpr (others i other))
    (Nat.zero_le k) isProof, smul_eq_zero] at isZero
  exact sub_eq_zero.mp (isZero.resolve_right wrong)

/-- Only the first of these two weights is one. -/
theorem verifyRangeProofs_weight_small :
    verifyRangeProofs smallTrait smallContext [wrongProof] (fun _ => 0) = .ok true ∧
      verifyRangeProofs smallTrait smallContext [wrongProof] (fun k => if k = 0 then 1 else 0) ≠
        .ok true := by
  have nonzero : ∀ bsc ∈ [wrongProof], (challenges smallTrait smallContext.hs bsc).Nonzero :=
    fun bsc _ => challenges_nonzero_of_const smallTrait bsc
  have sizes : checkSizes smallTrait wrongProof = .ok () := by
    have log1 : constexprCeilLog2 1 = 0 := by simp [constexprCeilLog2, constexprCeilLogN]
    have log2 : constexprCeilLog2 2 = 1 := by
      simp [constexprCeilLog2, constexprCeilLogN, constexprFloorLogN]
    simp [checkSizes, wrongProof, smallTrait, BppCryptoTraitZano.bppLog2N, log1, log2]
  have accepted :
      verifyRangeProofs smallTrait smallContext [wrongProof] (fun _ => 0) = .ok true := by
    rw [verifyRangeProofs_eq smallTrait smallContext smallTrait_wellFormed.isPower
      smallTrait_wellFormed.bounded (by simp)
      (by simpa using sizes) nonzero]
    simp [weightedResiduals, wrongProof, smallTrait, BppCryptoTraitZano.bppMnMax]
  refine ⟨accepted, fun accepted' => zero_ne_one (α := Scalar) ?_⟩
  exact verifyRangeProofs_weight smallTrait smallTrait_wellFormed smallContext nonzero
    (show [wrongProof][0]? = _ from rfl)
    wrongProof_residual (fun i other => (if_neg other).symm) accepted accepted'

end Zano.Crypto
