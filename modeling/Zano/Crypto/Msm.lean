import Mathlib
import Zano.Lib.Windows
import Zano.Crypto.Scalars

/-! # Multi-scalar multiplication

A sum of multiples of the fixed generators is compared to zero, term by term or with the bucket
method. The scalars are read in windows of `c` bits. A generator goes, in every window, into the
bucket of the digit that its scalar has there. Only sums that something was added to are stored,
which is what the `inited` flags are for.
-/

namespace Zano.Crypto

open Transactions (Scalar groupOrder)

variable {P : Type*} [AddCommGroup P] [Module Scalar P]

/-- `generators` are what the hash to the curve gives, those of both kinds by turns. -/
structure BppCryptoTraitZano (P : Type*) where
  bppN : ℕ
  bppValuesMax : ℕ
  generators : ℕ → P
  initialTranscript : Scalar
  bppG : P
  bppH : P
  bppH2 : P

namespace BppCryptoTraitZano

variable (CT : BppCryptoTraitZano P)

def bppLog2N : ℕ := constexprCeilLog2 CT.bppN

def bppMnMax : ℕ := CT.bppN * CT.bppValuesMax

def getGenerator (selectH : Bool) (index : ℕ) : P :=
  if CT.bppMnMax ≤ index then 0 else CT.generators (2 * index + if selectH then 1 else 0)

end BppCryptoTraitZano

variable (CT : BppCryptoTraitZano P)

def addMultiples (selectH : Bool) (scalars : List Scalar) (result : P) : P :=
  scalars.zipIdx.foldl (fun result (s, i) => result + s • CT.getGenerator selectH i) result

def msmAndCheckZeroNaive [DecidableEq P] (gScalars hScalars : List Scalar) (summand : P) : Bool :=
  if CT.bppMnMax < gScalars.length then false
  else if CT.bppMnMax < hScalars.length then false
  else addMultiples CT true hScalars (addMultiples CT false gScalars summand) = 0

/-! ## The bucket method -/

/-- What a cell holds is there once something was added to it. -/
def addToCell (cell : Option P) (p : P) : Option P :=
  match cell with
  | some sum => some (sum + p)
  | none => some p

/-- The first loop, for one scalar and its generator. -/
def fillBuckets (c : UInt8) (K : ℕ) (s : Scalar) (p : P) (buckets : ℕ → Option P) : ℕ → Option P :=
  (List.range K).foldl
    (fun buckets k =>
      let l := (getBits s (UInt8.ofNat (k * c.toNat)) c).toNat
      if l ≠ 0 then Function.update buckets (l * K + k) (addToCell (buckets (l * K + k)) p)
      else buckets)
    buckets

def fillAllBuckets (c : UInt8) (K : ℕ) (selectH : Bool) (scalars : List Scalar)
    (buckets : ℕ → Option P) : ℕ → Option P :=
  scalars.zipIdx.foldl (fun buckets (s, n) =>
    fillBuckets c K s (CT.getGenerator selectH n) buckets) buckets

/-- The second loop, for one digit and one window. The pair is `Sk` and `Gk`. -/
def sumBucket (bucket : Option P) : Option P × Option P → Option P × Option P
  | (sk, gk) =>
      let sk := match bucket with
        | some b => addToCell sk b
        | none => sk
      let gk := match sk with
        | some s => addToCell gk s
        | none => gk
      (sk, gk)

def sumBuckets (K : ℕ) (buckets : ℕ → Option P) (l : ℕ) (sums : ℕ → Option P × Option P) :
    ℕ → Option P × Option P :=
  (List.range K).foldl (fun sums k =>
    Function.update sums k (sumBucket (buckets (l * K + k)) (sums k))) sums

/-- `modify_mul_pow_2` doubles `power` times. -/
def mulPow2 (p : P) : ℕ → P
  | 0 => p
  | power + 1 => mulPow2 p power + mulPow2 p power

/-- The loop over the digits runs down to 1, that of Horner's rule down to 0. -/
def pippengerSum (c : UInt8) (gScalars hScalars : List Scalar) : P :=
  let C := 2 ^ c.toNat
  let maxBitIdx := 253 - 1
  let K := maxBitIdx / c.toNat + 1
  let buckets :=
    fillAllBuckets CT c K true hScalars (fillAllBuckets CT c K false gScalars fun _ => none)
  let sums := (List.range' 1 (C - 1)).foldr (sumBuckets K buckets) fun _ => (none, none)
  (List.range (K - 1)).foldr
    (fun k result =>
      let result := mulPow2 result c.toNat
      match (sums k).2 with
      | some g => result + g
      | none => result)
    ((sums (K - 1)).2.getD 0)

def msmAndCheckZeroPippengerV3 [DecidableEq P] (gScalars hScalars : List Scalar) (summand : P)
    (c : UInt8) : Bool :=
  if CT.bppMnMax < gScalars.length then false
  else if CT.bppMnMax < hScalars.length then false
  else if 10 ≤ c then false
  else pippengerSum CT c gScalars hScalars + summand = 0

def msmAndCheckZero [DecidableEq P] (gScalars hScalars : List Scalar) (summand : P) : Bool :=
  msmAndCheckZeroPippengerV3 CT gScalars hScalars summand 7

/-! ## What the cells hold -/

omit [Module Scalar P] in
@[simp]
theorem getD_addToCell (cell : Option P) (p : P) : (addToCell cell p).getD 0 = cell.getD 0 + p := by
  cases cell <;> simp [addToCell]

omit [Module Scalar P] in
@[simp]
theorem getD_sumBucket (bucket : Option P) (sums : Option P × Option P) :
    ((sumBucket bucket sums).1.getD 0, (sumBucket bucket sums).2.getD 0) =
      (sums.1.getD 0 + bucket.getD 0, sums.2.getD 0 + (sums.1.getD 0 + bucket.getD 0)) := by
  obtain ⟨sk, gk⟩ := sums
  cases bucket <;> cases sk <;> simp [sumBucket, addToCell] <;> cases gk <;> simp

omit [Module Scalar P] in
/-- A loop over the indices changes each cell once. -/
theorem foldl_update {α : Type*} (f : ℕ → α → α) (K : ℕ) (cells : ℕ → α) :
    (List.range K).foldl (fun cells k => Function.update cells k (f k (cells k))) cells =
      fun k => if k < K then f k (cells k) else cells k := by
  induction K with
  | zero => simp
  | succ K inductionHypothesis =>
      rw [List.range_succ, List.foldl_append, inductionHypothesis]
      funext k
      by_cases last : k = K
      · subst last
        simp
      · have within : k < K + 1 ↔ k < K := by omega
        simp [Function.update_of_ne last, within]

omit [Module Scalar P] in
/-- The buckets of different windows are different cells. -/
theorem getD_fill (d : ℕ → ℕ) {K l k : ℕ} (inside : k < K) (positive : 0 < l) (p : P)
    (buckets : ℕ → Option P) :
    ((List.range K).foldl
      (fun buckets k => if d k ≠ 0 then
        Function.update buckets (d k * K + k) (addToCell (buckets (d k * K + k)) p) else buckets)
      buckets (l * K + k)).getD 0 = (buckets (l * K + k)).getD 0 + if d k = l then p else 0 := by
  have upTo (m : ℕ) (within : m ≤ K) : ((List.range m).foldl
      (fun buckets k => if d k ≠ 0 then
        Function.update buckets (d k * K + k) (addToCell (buckets (d k * K + k)) p) else buckets)
      buckets (l * K + k)).getD 0 = (buckets (l * K + k)).getD 0 + if k < m ∧ d k = l then p
        else 0 := by
    induction m with
    | zero => simp
    | succ m inductionHypothesis =>
        have same : l * K + k = d m * K + m ↔ k = m ∧ d k = l := by
          constructor
          · intro same
            have quotients := congrArg (· / K) same
            simp only [Nat.mul_comm _ K, Nat.mul_add_div (show 0 < K by omega),
              Nat.div_eq_of_lt inside, Nat.div_eq_of_lt (show m < K by omega)] at quotients
            grind
          · rintro ⟨rfl, rfl⟩
            rfl
        rw [List.range_succ, List.foldl_append, List.foldl_cons, List.foldl_nil]
        have before := inductionHypothesis (by omega)
        grind [Function.update_apply, getD_addToCell]
  rw [upTo K le_rfl]
  simp [inside]

omit [Module Scalar P] in
theorem foldl_zipIdx {β : Type*} (value : β → P) (step : β → Scalar × ℕ → β)
    (summand : Scalar → ℕ → P) (adds : ∀ b s n, value (step b (s, n)) = value b + summand s n)
    (scalars : List Scalar) (b : β) :
    value (scalars.zipIdx.foldl step b) =
      value b + ∑ n ∈ Finset.range scalars.length, summand (scalars.getD n 0) n := by
  induction scalars using List.reverseRecOn with
  | nil => simp
  | append_singleton scalars last inductionHypothesis =>
      have before : ∀ n ∈ Finset.range scalars.length, summand ((scalars ++ [last]).getD n 0) n =
          summand (scalars.getD n 0) n := by
        intro n inside
        rw [List.getD_append _ _ _ _ (Finset.mem_range.mp inside)]
      have atEnd : (scalars ++ [last]).getD scalars.length 0 = last := by simp
      rw [List.zipIdx_append, List.foldl_append, List.zipIdx_singleton, List.foldl_cons,
        List.foldl_nil, adds, inductionHypothesis, List.length_append, List.length_singleton,
        Finset.sum_range_succ, Nat.zero_add, Finset.sum_congr rfl before, atEnd, add_assoc]

/-- The sum of multiples that both methods compute. -/
def multiples (selectH : Bool) (scalars : List Scalar) : P :=
  ∑ n ∈ Finset.range scalars.length, scalars.getD n 0 • CT.getGenerator selectH n

theorem addMultiples_eq (selectH : Bool) (scalars : List Scalar) (result : P) :
    addMultiples CT selectH scalars result = result + multiples CT selectH scalars :=
  foldl_zipIdx id _ (fun s n => s • CT.getGenerator selectH n) (fun _ _ _ => rfl) scalars result

/-- The digit that goes into the buckets is the one to the base `2 ^ c`. -/
theorem toNat_getBits_window {c : UInt8} (small : c < 10) (s : Scalar) {k : ℕ}
    (inside : k < 252 / c.toNat + 1) :
    (getBits s (UInt8.ofNat (k * c.toNat)) c).toNat = Windows.digit (2 ^ c.toNat) k s.val := by
  have few : c.toNat < 10 := small
  have within : k * c.toNat ≤ 252 := by
    have := Nat.mul_le_mul_right c.toNat (Nat.le_of_lt_succ inside)
    exact this.trans (Nat.div_mul_le_self 252 c.toNat)
  have place : (UInt8.ofNat (k * c.toNat)).toNat = k * c.toNat := by
    rw [UInt8.toNat_ofNat', Nat.mod_eq_of_lt (by omega)]
  have atMost : c ≤ 64 := by
    rw [UInt8.le_iff_toNat_le]
    exact few.le.trans (by decide)
  rw [getBits_eq s _ atMost, place, Windows.digit, ← pow_mul, mul_comm k]

omit [Module Scalar P] in
theorem getD_fillAllBuckets {c : UInt8} (small : c < 10) (selectH : Bool) (scalars : List Scalar)
    {l k : ℕ} (positive : 0 < l) (inside : k < 252 / c.toNat + 1) (buckets : ℕ → Option P) :
    (fillAllBuckets CT c (252 / c.toNat + 1) selectH scalars buckets
      (l * (252 / c.toNat + 1) + k)).getD 0 =
      (buckets (l * (252 / c.toNat + 1) + k)).getD 0 +
        ∑ n ∈ Finset.range scalars.length,
          if Windows.digit (2 ^ c.toNat) k (scalars.getD n 0).val = l then CT.getGenerator selectH n
          else 0 := by
  have adds (buckets : ℕ → Option P) (s : Scalar) (n : ℕ) :
      (fillBuckets c (252 / c.toNat + 1) s (CT.getGenerator selectH n) buckets
        (l * (252 / c.toNat + 1) + k)).getD 0 =
        (buckets (l * (252 / c.toNat + 1) + k)).getD 0 +
          if Windows.digit (2 ^ c.toNat) k s.val = l then CT.getGenerator selectH n else 0 := by
    rw [← toNat_getBits_window small s inside]
    exact getD_fill (fun k => (getBits s (UInt8.ofNat (k * c.toNat)) c).toNat) inside positive _ _
  exact foldl_zipIdx (fun buckets : ℕ → Option P => (buckets (l * (252 / c.toNat + 1) + k)).getD 0)
    (fun buckets (s, n) =>
      fillBuckets c (252 / c.toNat + 1) s (CT.getGenerator selectH n) buckets) _ adds
        scalars buckets

omit [Module Scalar P] in
/-- The second loop, from the digit `last` down to the digit `l`. -/
theorem getD_sums {K k : ℕ} (inside : k < K) (buckets : ℕ → Option P) (l count : ℕ) :
    let sums := (List.range' l count).foldr (sumBuckets K buckets) fun _ => (none, none)
    (sums k).1.getD 0 = ∑ j ∈ Finset.Ico l (l + count), (buckets (j * K + k)).getD 0 ∧
      (sums k).2.getD 0 = ∑ i ∈ Finset.Ico l (l + count), ∑ j ∈ Finset.Ico i (l + count),
        (buckets (j * K + k)).getD 0 := by
  induction count generalizing l with
  | zero => simp
  | succ count inductionHypothesis =>
      obtain ⟨sk, gk⟩ := inductionHypothesis (l + 1)
      have both := getD_sumBucket (buckets (l * K + k))
        ((List.range' (l + 1) count).foldr (sumBuckets K buckets) (fun _ => (none, none)) k)
      have cell (sums : ℕ → Option P × Option P) :
          sumBuckets K buckets l sums k = sumBucket (buckets (l * K + k)) (sums k) := by
        rw [sumBuckets, foldl_update]
        exact if_pos inside
      have ends : l + 1 + count = l + (count + 1) := by omega
      have below : l < l + (count + 1) := by omega
      rw [Prod.mk.injEq, sk, gk, ends] at both
      simp only [List.range'_succ, List.foldr_cons]
      rw [cell, both.1, both.2, Finset.sum_eq_sum_Ico_succ_bot below,
        Finset.sum_eq_sum_Ico_succ_bot below, Finset.sum_eq_sum_Ico_succ_bot below]
      exact ⟨add_comm _ _, by abel⟩

omit [Module Scalar P] in
theorem mulPow2_eq (p : P) (power : ℕ) : mulPow2 p power = 2 ^ power • p := by
  induction power with
  | zero => simp [mulPow2]
  | succ power inductionHypothesis =>
      rw [mulPow2, inductionHypothesis, ← two_nsmul, ← mul_nsmul, pow_succ]

/-! ## The two methods agree -/

/-- The windows cover the 253 bits that a scalar may have. -/
theorem val_lt_windows {c : UInt8} (positive : 0 < c) (s : Scalar) :
    s.val < (2 ^ c.toNat) ^ (252 / c.toNat + 1) := by
  have some_ : 0 < c.toNat := positive
  have order : groupOrder < 2 ^ 253 := by norm_num [groupOrder]
  have covered : 253 ≤ c.toNat * (252 / c.toNat + 1) := Nat.lt_mul_div_succ 252 some_
  rw [← pow_mul]
  exact (ZMod.val_lt s).trans (order.trans_le (Nat.pow_le_pow_right (by decide) covered))

theorem val_nsmul (s : Scalar) (p : P) : s.val • p = s • p := by
  rw [← Nat.cast_smul_eq_nsmul Scalar, ZMod.natCast_zmod_val]

/-- The terms of one kind, over the digits of one window. -/
def windowSum (c : UInt8) (selectH : Bool) (scalars : List Scalar) (k : ℕ) : P :=
  ∑ n ∈ Finset.range scalars.length,
    Windows.digit (2 ^ c.toNat) k (scalars.getD n 0).val • CT.getGenerator selectH n

omit [Module Scalar P] in
theorem windowSum_eq (c : UInt8) (selectH : Bool) (scalars : List Scalar) (k : ℕ) :
    windowSum CT c selectH scalars k =
      ∑ l ∈ Finset.Ico 1 (2 ^ c.toNat), l • ∑ n ∈ Finset.range scalars.length,
      if Windows.digit (2 ^ c.toNat) k (scalars.getD n 0).val = l then
        CT.getGenerator selectH n else 0 :=
  (Windows.sum_buckets _ _ _ fun _ _ => Windows.digit_lt (Nat.two_pow_pos _) k _).symm

theorem sum_windowSum {c : UInt8} (positive : 0 < c) (selectH : Bool) (scalars : List Scalar) :
    ∑ k ∈ Finset.range (252 / c.toNat + 1), (2 ^ c.toNat) ^ k • windowSum CT c selectH scalars k =
      multiples CT selectH scalars := by
  have whole := Windows.sum_places (Finset.range scalars.length) (fun n => (scalars.getD n 0).val)
    (CT.getGenerator selectH)
    fun n _ => val_lt_windows positive (scalars.getD n 0)
  simp only [val_nsmul] at whole
  exact whole

theorem pippengerSum_eq {c : UInt8} (positive : 0 < c) (small : c < 10)
    (gScalars hScalars : List Scalar) :
    pippengerSum CT c gScalars hScalars =
      multiples CT false gScalars + multiples CT true hScalars := by
  rw [← sum_windowSum CT positive, ← sum_windowSum CT positive, ← Finset.sum_add_distrib]
  simp only [pippengerSum]
  generalize bucketsAre : fillAllBuckets CT c ((253 - 1) / c.toNat + 1) true hScalars _ = buckets
  generalize sumsAre : (List.range' 1 (2 ^ c.toNat - 1)).foldr _ _ = sums
  -- what a window holds after the second loop
  have window (k : ℕ) (inside : k < 252 / c.toNat + 1) :
      (sums k).2.getD 0 = windowSum CT c false gScalars k + windowSum CT c true hScalars k := by
    have base : 1 + (2 ^ c.toNat - 1) = 2 ^ c.toNat := Nat.add_sub_cancel' Nat.one_le_two_pow
    have isSum := (getD_sums inside buckets 1 (2 ^ c.toNat - 1)).2
    rw [base, Windows.sum_suffixes (fun j => (buckets (j * (252 / c.toNat + 1) + k)).getD 0)]
      at isSum
    rw [← sumsAre, windowSum_eq, windowSum_eq, ← Finset.sum_add_distrib]
    refine isSum.trans (Finset.sum_congr rfl fun j between => ?_)
    have some_ : 0 < j := (Finset.mem_Ico.mp between).1
    rw [← bucketsAre, ← smul_add, getD_fillAllBuckets CT small true hScalars some_ inside,
      getD_fillAllBuckets CT small false gScalars some_ inside, Option.getD_none, zero_add]
  have step (k : ℕ) (result : P) :
      (match (sums k).2 with
        | some g => mulPow2 result c.toNat + g
        | none => mulPow2 result c.toNat) =
      2 ^ c.toNat • result + (sums k).2.getD 0 := by
    cases (sums k).2 <;> simp [mulPow2_eq]
  simp only [step, Windows.foldr_horner]
  rw [Nat.add_sub_cancel, ← Finset.sum_range_succ]
  exact Finset.sum_congr rfl fun k inside => by rw [window k (Finset.mem_range.mp inside), smul_add]

theorem msmAndCheckZeroNaive_eq [DecidableEq P] (gScalars hScalars : List Scalar) (summand : P) :
    msmAndCheckZeroNaive CT gScalars hScalars summand = true ↔
      gScalars.length ≤ CT.bppMnMax ∧ hScalars.length ≤ CT.bppMnMax ∧
        multiples CT false gScalars + multiples CT true hScalars + summand = 0 := by
  rw [msmAndCheckZeroNaive, addMultiples_eq, addMultiples_eq, add_assoc, add_comm]
  grind

theorem msmAndCheckZero_eq [DecidableEq P] (gScalars hScalars : List Scalar) (summand : P) :
    msmAndCheckZero CT gScalars hScalars summand = true ↔
      gScalars.length ≤ CT.bppMnMax ∧ hScalars.length ≤ CT.bppMnMax ∧
        multiples CT false gScalars + multiples CT true hScalars + summand = 0 := by
  rw [msmAndCheckZero, msmAndCheckZeroPippengerV3, pippengerSum_eq CT (by decide) (by decide)]
  grind

/-- Every window size that is let through gives the same answer as the terms one by one. -/
theorem msmAndCheckZeroPippengerV3_eq_naive [DecidableEq P] {c : UInt8} (positive : 0 < c)
    (small : c < 10) (gScalars hScalars : List Scalar) (summand : P) :
    msmAndCheckZeroPippengerV3 CT gScalars hScalars summand c =
      msmAndCheckZeroNaive CT gScalars hScalars summand := by
  rw [Bool.eq_iff_iff, msmAndCheckZeroNaive_eq, msmAndCheckZeroPippengerV3,
    pippengerSum_eq CT positive small]
  grind

theorem msmAndCheckZeroPippengerV3_eq_naive_seven :
    let CT : BppCryptoTraitZano Scalar := ⟨2, 1, fun i => i + 1, 0, 1, 2, 3⟩
    msmAndCheckZeroPippengerV3 CT [3, 5] [7] 4 7 = msmAndCheckZeroNaive CT [3, 5] [7] 4 :=
  msmAndCheckZeroPippengerV3_eq_naive _ (by decide) (by decide) _ _ _

end Zano.Crypto
