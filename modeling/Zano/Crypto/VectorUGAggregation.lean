import Mathlib
import Zano.Lib.SigmaProtocol
import Zano.Crypto.Scalars

/-! # Commitments for the aggregation of range proofs

The amount of an output is committed to with the asset type of the output as generator, and range
proofs want one generator for all amounts. Each amount is therefore committed to once more with `U`,
and both commitments to it are shown to be of one amount. They are added with a weight that is a
hash of all of them, and one proof is made for the sum.
-/

namespace Zano.Crypto

open Transactions (Scalar scalar1div8)

variable {P : Type*} [AddCommGroup P] [Module Scalar P]

structure AggregationHelper (P : Type*) where
  hs : List (HsItem P) → Scalar
  G : P
  U : P

/-- The commitments are premultiplied by 1/8. Whether the answers are reduced is not checked. -/
structure VectorUGAggregationProof (P : Type*) where
  amountCommitmentsForRpAggregation : List P
  y0s : List ReceivedScalar
  y1s : List ReceivedScalar
  c : ℕ

/-- The same proof with its answers reduced. -/
def VectorUGAggregationProof.reduced (sig : VectorUGAggregationProof P) :
    VectorUGAggregationProof P :=
  { sig with y0s := sig.y0s.map ReceivedScalar.reduced, y1s := sig.y1s.map ReceivedScalar.reduced }

namespace VectorUG

/-- The weighting factor. The hash calculator is not cleaned after it. -/
def weight (cx : AggregationHelper P) (m : List UInt8)
    (amountCommitments forAggregation : List P) : Scalar :=
  cx.hs (.hash m :: amountCommitments.map .point ++ forAggregation.map .point)

def challenge (cx : AggregationHelper P) (m : List UInt8)
    (amountCommitments forAggregation R : List P) : Scalar :=
  cx.hs (.hash m :: amountCommitments.map .point ++ forAggregation.map .point ++ R.map .point)

end VectorUG

open VectorUG

def generateVectorUGAggregationProof (cx : AggregationHelper P) (m : List UInt8)
    (uSecrets gSecrets0 gSecrets1 : List Scalar)
    (amountCommitments forAggregation blindedAssetIds : List P) (r0 r1 : ℕ → Scalar) :
    Except ℕ (VectorUGAggregationProof P) :=
  let n := uSecrets.length
  if n = 0 then .error 1
  else if n ≠ gSecrets0.length then .error 2
  else if n ≠ gSecrets1.length then .error 3
  else if n ≠ amountCommitments.length then .error 4
  else if n ≠ forAggregation.length then .error 5
  else if n ≠ blindedAssetIds.length then .error 6
  else
    let w := weight cx m amountCommitments forAggregation
    let assetTagPlusU := fun j => blindedAssetIds.getD j 0 + w • cx.U
    let R := (List.range n).map fun j => r0 j • assetTagPlusU j + r1 j • cx.G
    let c := challenge cx m amountCommitments forAggregation R
    .ok {
      amountCommitmentsForRpAggregation :=
        (List.range n).map fun j => scalar1div8 • forAggregation.getD j 0
      y0s := (List.range n).map fun j => .ofScalar (r0 j - c * uSecrets.getD j 0)
      y1s := (List.range n).map fun j =>
        .ofScalar (r1 j - c * (gSecrets0.getD j 0 + w * gSecrets1.getD j 0))
      c := c.val }

namespace VectorUG

/-- The point at `j` announced. -/
def announcedPoint (G assetTagPlusU sum : P) (c y0 y1 : Scalar) : P :=
  y0 • assetTagPlusU + y1 • G + c • sum

def announced (cx : AggregationHelper P) (m : List UInt8)
    (amountCommitments1div8 blindedAssetIds1div8 : List P)
    (sig : VectorUGAggregationProof P) : List P :=
  let amountCommitments := amountCommitments1div8.map ((8 : Scalar) • ·)
  let forAggregation := sig.amountCommitmentsForRpAggregation.map ((8 : Scalar) • ·)
  let w := weight cx m amountCommitments forAggregation
  (List.range amountCommitments1div8.length).map fun j =>
    announcedPoint cx.G ((8 : Scalar) • blindedAssetIds1div8.getD j 0 + w • cx.U)
      (amountCommitments.getD j 0 + w • forAggregation.getD j 0) (sig.c : Scalar)
      ((sig.y0s.map ReceivedScalar.toScalar).getD j 0)
        ((sig.y1s.map ReceivedScalar.toScalar).getD j 0)

end VectorUG

def verifyVectorUGAggregationProof (cx : AggregationHelper P) (m : List UInt8)
    (amountCommitments1div8 blindedAssetIds1div8 : List P)
    (sig : VectorUGAggregationProof P) : Except ℕ Unit :=
  let n := amountCommitments1div8.length
  if n = 0 then .error 1
  else if blindedAssetIds1div8.length ≠ n then .error 2
  else if sig.amountCommitmentsForRpAggregation.length ≠ n then .error 3
  else if sig.y0s.length ≠ n then .error 4
  else if sig.y1s.length ≠ n then .error 5
  else
    let c := challenge cx m (amountCommitments1div8.map ((8 : Scalar) • ·))
      (sig.amountCommitmentsForRpAggregation.map ((8 : Scalar) • ·))
      (announced cx m amountCommitments1div8 blindedAssetIds1div8 sig)
    if sig.c ≠ c.val then .error 0
    else .ok ()

namespace VectorUG

def sumMap (G assetTagPlusU : P) : Scalar × Scalar →ₗ[Scalar] P :=
  (LinearMap.toSpanSingleton Scalar P assetTagPlusU).coprod (LinearMap.toSpanSingleton Scalar P G)

theorem announcedPoint_eq (G assetTagPlusU sum : P) (c y0 y1 : Scalar) :
    announcedPoint G assetTagPlusU sum c y0 y1 =
      SigmaProtocol.announcement (sumMap G assetTagPlusU) sum c (y0, y1) := rfl

theorem map_eight_map (ps : List P) : (ps.map (scalar1div8 • ·)).map ((8 : Scalar) • ·) = ps := by
  simp [Function.comp_def]

theorem eight_smul_getD (ps : List P) (j : ℕ) :
    (8 : Scalar) • (ps.map (scalar1div8 • ·)).getD j 0 = ps.getD j 0 := by
  conv_lhs => rw [← smul_zero (A := P) scalar1div8, List.getD_map, eight_smul_scalar1div8_smul]

theorem eq_map_range {α : Type*} (l : List α) (d : α) :
    l = (List.range l.length).map fun j => l.getD j d := by
  apply List.ext_getElem
  · simp
  · intro j inside _
    rw [List.getElem_map, List.getElem_range, List.getD_eq_getElem]

theorem getD_map_range {α : Type*} (f : ℕ → α) (d : α) {n j : ℕ} (inside : j < n) :
    ((List.range n).map f).getD j d = f j := by
  rw [List.getD_eq_getElem _ _ (by simpa using inside), List.getElem_map, List.getElem_range]

/-- What is shown of each output. -/
def Related (cx : AggregationHelper P) (w : Scalar) (uSecrets gSecrets0 gSecrets1 : List Scalar)
    (amountCommitments forAggregation blindedAssetIds : List P) : Prop :=
  ∀ j < uSecrets.length, uSecrets.getD j 0 • (blindedAssetIds.getD j 0 + w • cx.U) +
      (gSecrets0.getD j 0 + w * gSecrets1.getD j 0) • cx.G =
    amountCommitments.getD j 0 + w • forAggregation.getD j 0

/-- As many of each as there are outputs, of which there is one at least. -/
structure Sizes (n : ℕ) (gSecrets0 gSecrets1 : List Scalar)
    (amountCommitments forAggregation blindedAssetIds : List P) : Prop where
  some_ : n ≠ 0
  secrets0 : n = gSecrets0.length
  secrets1 : n = gSecrets1.length
  commitments : n = amountCommitments.length
  aggregated : n = forAggregation.length
  assetIds : n = blindedAssetIds.length

theorem verifyVectorUGAggregationProof_eq_ok (cx : AggregationHelper P) (m : List UInt8)
    (amountCommitments1div8 blindedAssetIds1div8 : List P) (sig : VectorUGAggregationProof P) :
    verifyVectorUGAggregationProof cx m amountCommitments1div8 blindedAssetIds1div8 sig = .ok () ↔
      (amountCommitments1div8.length ≠ 0 ∧
        blindedAssetIds1div8.length = amountCommitments1div8.length ∧
        sig.amountCommitmentsForRpAggregation.length = amountCommitments1div8.length ∧
        sig.y0s.length = amountCommitments1div8.length ∧
          sig.y1s.length = amountCommitments1div8.length) ∧
      sig.c = (challenge cx m (amountCommitments1div8.map ((8 : Scalar) • ·))
        (sig.amountCommitmentsForRpAggregation.map ((8 : Scalar) • ·))
        (announced cx m amountCommitments1div8 blindedAssetIds1div8 sig)).val := by
  simp only [verifyVectorUGAggregationProof]
  grind

/-- The announced points are computed back from the answers. -/
theorem announced_answers (cx : AggregationHelper P) (m : List UInt8)
    {uSecrets gSecrets0 gSecrets1 : List Scalar}
    {amountCommitments forAggregation blindedAssetIds : List P}
    (length : uSecrets.length = amountCommitments.length) (related : Related cx
      (weight cx m amountCommitments forAggregation) uSecrets gSecrets0 gSecrets1 amountCommitments
      forAggregation blindedAssetIds) (r0 r1 : ℕ → Scalar) {c : ℕ} {y0s y1s : List ReceivedScalar}
    (isY0 : ∀ j < uSecrets.length,
      (y0s.map ReceivedScalar.toScalar).getD j 0 = r0 j - (c : Scalar) * uSecrets.getD j 0)
    (isY1 : ∀ j < uSecrets.length, (y1s.map ReceivedScalar.toScalar).getD j 0 =
      r1 j - (c : Scalar) *
      (gSecrets0.getD j 0 + weight cx m amountCommitments forAggregation * gSecrets1.getD j 0)) :
    announced cx m (amountCommitments.map (scalar1div8 • ·)) (blindedAssetIds.map (scalar1div8 • ·))
        ⟨forAggregation.map (scalar1div8 • ·), y0s, y1s, c⟩ =
      (List.range uSecrets.length).map fun j =>
        r0 j • (blindedAssetIds.getD j 0 + weight cx m amountCommitments forAggregation • cx.U) +
          r1 j • cx.G := by
  simp only [announced, map_eight_map, List.length_map, ← length, eight_smul_getD]
  refine List.map_congr_left fun j inside => ?_
  rw [List.mem_range] at inside
  have image :
      sumMap cx.G (blindedAssetIds.getD j 0 + weight cx m amountCommitments forAggregation • cx.U)
      (uSecrets.getD j 0,
        gSecrets0.getD j 0 + weight cx m amountCommitments forAggregation * gSecrets1.getD j 0) =
          _ :=
    related j inside
  rw [announcedPoint_eq, isY0 j inside, isY1 j inside]
  exact SigmaProtocol.announcement_of_secret _ image (c : Scalar) (r0 j, r1 j)

/-- Answers are made when they are the right residues. -/
theorem map_ofScalar_range_iff {f : ℕ → Scalar} {n : ℕ} {received : List ReceivedScalar} :
    (List.range n).map (fun j => ReceivedScalar.ofScalar (f j)) =
      received.map ReceivedScalar.reduced ↔
      received.length = n ∧ ∀ j < n, (received.map ReceivedScalar.toScalar).getD j 0 = f j := by
  have asScalars : (List.range n).map (fun j => ReceivedScalar.ofScalar (f j)) =
      ((List.range n).map f).map ReceivedScalar.ofScalar := by
    rw [List.map_map]
    rfl
  rw [asScalars, ReceivedScalar.map_ofScalar_eq_map_reduced]
  constructor
  · intro same
    have length := congrArg List.length same
    rw [List.length_map, List.length_range, List.length_map] at length
    refine ⟨length.symm, fun j inside => ?_⟩
    rw [← same, getD_map_range f 0 inside]
  · rintro ⟨rfl, answers⟩
    rw [eq_map_range (received.map ReceivedScalar.toScalar) 0, List.length_map]
    exact List.map_congr_left fun j inside => (answers j (List.mem_range.mp inside)).symm

end VectorUG

open VectorUG in
/-- With the secrets, exactly the proofs for these commitments are accepted that can be made, their
answers reduced. -/
theorem generateVectorUGAggregationProof_iff (cx : AggregationHelper P) (m : List UInt8)
    {uSecrets gSecrets0 gSecrets1 : List Scalar}
    {amountCommitments forAggregation blindedAssetIds : List P}
    (sizes :
      Sizes uSecrets.length gSecrets0 gSecrets1 amountCommitments forAggregation blindedAssetIds)
    (related : Related cx (weight cx m amountCommitments forAggregation) uSecrets gSecrets0
      gSecrets1 amountCommitments forAggregation
      blindedAssetIds) (sig : VectorUGAggregationProof P) :
    (∃ r0 r1, generateVectorUGAggregationProof cx m uSecrets gSecrets0 gSecrets1 amountCommitments
      forAggregation blindedAssetIds r0 r1 =
        .ok sig.reduced) ↔
      sig.amountCommitmentsForRpAggregation = forAggregation.map (scalar1div8 • ·) ∧
        verifyVectorUGAggregationProof cx m (amountCommitments.map (scalar1div8 • ·))
          (blindedAssetIds.map (scalar1div8 • ·)) sig =
          .ok () := by
  obtain ⟨forAggregation1div8, y0s, y1s, c⟩ := sig
  have forAggregationEq :
      (List.range uSecrets.length).map (fun j => scalar1div8 • forAggregation.getD j 0) =
      forAggregation.map (scalar1div8 • ·) := by
    conv_rhs => rw [eq_map_range forAggregation 0, ← sizes.aggregated, List.map_map]
    rfl
  rw [verifyVectorUGAggregationProof_eq_ok, List.length_map,
    List.length_map, ← sizes.commitments, ← sizes.assetIds, map_eight_map]
  simp only [generateVectorUGAggregationProof, if_neg sizes.some_,
    if_neg (not_not.mpr sizes.secrets0), if_neg (not_not.mpr sizes.secrets1),
    if_neg (not_not.mpr sizes.commitments), if_neg (not_not.mpr sizes.aggregated),
    if_neg (not_not.mpr sizes.assetIds), forAggregationEq, VectorUGAggregationProof.reduced,
    Except.ok.injEq, VectorUGAggregationProof.mk.injEq, map_ofScalar_range_iff]
  set w := weight cx m amountCommitments forAggregation
  constructor
  · rintro ⟨r0, r1, rfl, ⟨length0, isY0⟩, ⟨length1, isY1⟩, isC⟩
    have sameC := congrArg (Nat.cast (R := Scalar)) isC
    rw [ZMod.natCast_zmod_val] at sameC
    rw [sameC] at isY0 isY1
    refine ⟨rfl, ⟨sizes.some_, trivial, by simp [sizes.aggregated], length0, length1⟩, ?_⟩
    rw [map_eight_map, announced_answers cx m sizes.commitments related r0 r1 isY0 isY1]
    exact isC.symm
  · rintro ⟨rfl, ⟨-, -, -, length0, length1⟩, isC⟩
    set r0 : ℕ → Scalar :=
      fun j => (y0s.map ReceivedScalar.toScalar).getD j 0 + (c : Scalar) * uSecrets.getD j 0
    set r1 : ℕ → Scalar := fun j => (y1s.map ReceivedScalar.toScalar).getD j 0 +
      (c : Scalar) * (gSecrets0.getD j 0 + w * gSecrets1.getD j 0)
    rw [map_eight_map, announced_answers cx m sizes.commitments related r0 r1
      (fun j _ => (add_sub_cancel_right _ _).symm) fun j _ =>
        (add_sub_cancel_right _ _).symm] at isC
    have sameC := congrArg (Nat.cast (R := Scalar)) isC
    rw [ZMod.natCast_zmod_val] at sameC
    refine ⟨r0, r1, rfl, ⟨length0, fun j _ => ?_⟩, ⟨length1, fun j _ => ?_⟩, isC.symm⟩
    · rw [← sameC]
      exact (add_sub_cancel_right _ _).symm
    · rw [← sameC]
      exact (add_sub_cancel_right _ _).symm

/-- A proof that is accepted although it is not made, because an answer is not reduced. -/
theorem generateVectorUGAggregationProof_iff_single :
    ∃ sig larger, generateVectorUGAggregationProof (P := Scalar) ⟨fun _ => 1, 11, 7⟩ [] [3] [4] [5]
      [50] [76] [2]
        (fun _ => 1) (fun _ => 2) = .ok sig ∧
      larger.reduced = sig ∧ larger ≠ sig ∧
        verifyVectorUGAggregationProof ⟨fun _ => 1, 11, 7⟩ [] [scalar1div8 • (50 : Scalar)]
          [scalar1div8 • 2] larger = .ok () := by
  have sizes : VectorUG.Sizes ([3] : List Scalar).length [4] [5] ([50] : List Scalar) [76] [2] :=
    ⟨by decide, rfl, rfl, rfl, rfl, rfl⟩
  have related :
      VectorUG.Related (P := Scalar) ⟨fun _ => 1, 11, 7⟩ 1 [3] [4] [5] [50] [76] [2] := by
    simp only [VectorUG.Related, List.length_singleton, Nat.lt_one_iff, forall_eq]
    decide
  obtain ⟨forAggregation, y0, y1, c, made⟩ : ∃ forAggregation y0 y1 c,
      generateVectorUGAggregationProof (P := Scalar) ⟨fun _ => 1, 11, 7⟩ [] [3] [4] [5]
        [50] [76] [2]
        (fun _ => 1) (fun _ => 2) = .ok ⟨forAggregation, [.ofScalar y0], [.ofScalar y1], c⟩ :=
    ⟨_, _, _, _, rfl⟩
  have reduces : (⟨forAggregation, [.enlarged y0], [.ofScalar y1],
      c⟩ : VectorUGAggregationProof Scalar).reduced =
      ⟨forAggregation, [.ofScalar y0], [.ofScalar y1], c⟩ := by
    simp [VectorUGAggregationProof.reduced]
  refine ⟨_, ⟨forAggregation, [.enlarged y0], [.ofScalar y1], c⟩, made, reduces, ?_, ?_⟩
  · intro same
    have first : ReceivedScalar.enlarged y0 = .ofScalar y0 :=
      List.head_eq_of_cons_eq (congrArg (·.y0s) same)
    exact ReceivedScalar.enlarged_ne y0 first
  · exact ((generateVectorUGAggregationProof_iff ⟨fun _ => 1, 11, 7⟩ [] sizes related _).mp
      ⟨_, _, made.trans (congrArg _ reduces.symm)⟩).2

/-! ## What accepted proofs give away -/

namespace VectorUG

/-- What is left of the generators `T`, `U` and `G` where the sum was shown to be of the amount
`s.1` for the weight `w` and of `s'.1` for `w'`, and the commitment for the range proof is that of
the amount `e` with the mask `y`. -/
def amountRelation (w w' e y : Scalar) (s s' : Scalar × Scalar) : Fin 3 → Scalar :=
  ![s.1 - s'.1, s.1 * w - s'.1 * w' - (w - w') * e, s.2 - s'.2 - (w - w') * y]

/-- Both commitments are to one amount, or there is a relation between the generators. -/
theorem amount_or_relation {T U G E E' : P} {w w' e y : Scalar} {s s' : Scalar × Scalar}
    (distinct : w ≠ w') (sum : sumMap G (T + w • U) s = E + w • E')
    (sum' : sumMap G (T + w' • U) s' = E + w' • E') (opened : E' = e • U + y • G) :
    E = e • T + (s.2 - w * y) • G ∨ amountRelation w w' e y s s' ≠ 0 ∧
      amountRelation w w' e y s s' 0 • T + amountRelation w w' e y s s' 1 • U +
        amountRelation w w' e y s s' 2 • G = 0 := by
  obtain ⟨e0, y0⟩ := s
  obtain ⟨e1, y1⟩ := s'
  have isSum : e0 • (T + w • U) + y0 • G = E + w • E' := sum
  have isSum' : e1 • (T + w' • U) + y1 • G = E + w' • E' := sum'
  by_cases trivialRelation : amountRelation w w' e y (e0, y0) (e1, y1) = 0
  · left
    have same : e0 = e1 := sub_eq_zero.mp (congrFun trivialRelation 0)
    have second : e0 * w - e1 * w' - (w - w') * e = 0 := congrFun trivialRelation 1
    have isAmount : e0 = e := by
      apply mul_left_cancel₀ (sub_ne_zero.mpr distinct)
      rw [← same] at second
      linear_combination second
    have isE : E = e0 • (T + w • U) + y0 • G - w • E' := by rw [isSum, add_sub_cancel_right]
    rw [isE, opened, isAmount]
    module
  · refine .inr ⟨trivialRelation, ?_⟩
    have difference := congrArg₂ (· - ·) isSum isSum'
    simp only [opened] at difference
    rw [← sub_eq_zero] at difference
    rw [← difference]
    simp only [amountRelation, Matrix.cons_val_zero, Matrix.cons_val_one, Matrix.cons_val]
    module

/-- The amount and the mask of the sum at `j`, from two answers to one announcement. -/
def extractedSum (sig sig' : VectorUGAggregationProof P) (j : ℕ) : Scalar × Scalar :=
  SigmaProtocol.extract (sig.c : Scalar) (sig'.c : Scalar)
    ((sig.y0s.map ReceivedScalar.toScalar).getD j 0, (sig.y1s.map ReceivedScalar.toScalar).getD j 0)
    ((sig'.y0s.map ReceivedScalar.toScalar).getD j 0,
      (sig'.y1s.map ReceivedScalar.toScalar).getD j 0)

/-- A proof for these commitments that is accepted with some hash, where the weight is `w` and `R`
was announced. -/
structure Accepted (cx : AggregationHelper P) (m : List UInt8)
    (amountCommitments1div8 blindedAssetIds1div8 forAggregation1div8 : List P) (w : Scalar)
    (R : List P) (sig : VectorUGAggregationProof P) : Prop where
  commitments : sig.amountCommitmentsForRpAggregation = forAggregation1div8
  verified : ∃ hs, verifyVectorUGAggregationProof { cx with hs } m amountCommitments1div8
    blindedAssetIds1div8 sig = .ok () ∧
    weight { cx with hs } m (amountCommitments1div8.map ((8 : Scalar) • ·))
      (forAggregation1div8.map ((8 : Scalar) • ·)) = w ∧
      announced { cx with hs } m amountCommitments1div8 blindedAssetIds1div8 sig = R

section Extraction

variable {cx : AggregationHelper P} {m : List UInt8}
  {amountCommitments1div8 blindedAssetIds1div8 forAggregation1div8 : List P} {w : Scalar}
  {R : List P} {sig sig' : VectorUGAggregationProof P}

theorem eight_smul_getD_map (ps : List P) (j : ℕ) :
    (ps.map ((8 : Scalar) • ·)).getD j 0 = (8 : Scalar) • ps.getD j 0 := by
  conv_lhs => rw [← smul_zero (A := P) (8 : Scalar), List.getD_map]

/-- A challenge that is accepted is a hash, and so it is reduced. -/
theorem Accepted.cast_val (accepted :
    Accepted cx m amountCommitments1div8 blindedAssetIds1div8 forAggregation1div8 w R sig) :
    (sig.c : Scalar).val = sig.c := by
  obtain ⟨hs, verified, -⟩ := accepted.verified
  rw [((verifyVectorUGAggregationProof_eq_ok _ m _ _ sig).mp verified).2, ZMod.natCast_zmod_val]

theorem Accepted.announcedPoint_getD
    (accepted :
      Accepted cx m amountCommitments1div8 blindedAssetIds1div8 forAggregation1div8 w R sig) {j : ℕ}
    (inside : j < amountCommitments1div8.length) :
    announcedPoint cx.G ((8 : Scalar) • blindedAssetIds1div8.getD j 0 + w • cx.U)
      ((8 : Scalar) • amountCommitments1div8.getD j 0 +
        w • (8 : Scalar) • forAggregation1div8.getD j 0) (sig.c : Scalar)
      ((sig.y0s.map ReceivedScalar.toScalar).getD j 0)
      ((sig.y1s.map ReceivedScalar.toScalar).getD j 0) = R.getD j 0 := by
  obtain ⟨hs, -, isWeight, isR⟩ := accepted.verified
  rw [← isR, announced]
  simp only [accepted.commitments, isWeight, eight_smul_getD_map]
  rw [getD_map_range _ 0 inside]

theorem sumMap_extractedSum
    (accepted :
      Accepted cx m amountCommitments1div8 blindedAssetIds1div8 forAggregation1div8 w R sig)
    (accepted' :
      Accepted cx m amountCommitments1div8 blindedAssetIds1div8 forAggregation1div8 w R sig')
    (distinct : sig.c ≠ sig'.c) {j : ℕ} (inside : j < amountCommitments1div8.length) :
    sumMap cx.G ((8 : Scalar) • blindedAssetIds1div8.getD j 0 + w • cx.U)
      (extractedSum sig sig' j) =
      (8 : Scalar) • amountCommitments1div8.getD j 0 +
        w • (8 : Scalar) • forAggregation1div8.getD j 0 := by
  refine SigmaProtocol.map_extract _ (fun same => distinct ?_) ?_
  · rw [← accepted.cast_val, same, accepted'.cast_val]
  · rw [← announcedPoint_eq, ← announcedPoint_eq, accepted.announcedPoint_getD inside,
      accepted'.announcedPoint_getD inside]

end Extraction

end VectorUG

open VectorUG in
/-- Four proofs for the same commitments that are accepted, two for each of two weights, with one
announcement and two challenges each: as the commitment for the range proof is opened, so the
commitment of the output is to the same amount, with a mask that can be computed, or the answers
give a relation between the generators away. -/
theorem amount_of_verifyVectorUGAggregationProof {cx : AggregationHelper P} {m : List UInt8}
    {amountCommitments1div8 blindedAssetIds1div8 forAggregation1div8 : List P} {w w' : Scalar}
    {R R' : List P} {sig0 sig1 sig0' sig1' : VectorUGAggregationProof P}
    (accepted0 :
      Accepted cx m amountCommitments1div8 blindedAssetIds1div8 forAggregation1div8 w R sig0)
    (accepted1 :
      Accepted cx m amountCommitments1div8 blindedAssetIds1div8 forAggregation1div8 w R sig1)
    (accepted0' :
      Accepted cx m amountCommitments1div8 blindedAssetIds1div8 forAggregation1div8 w' R' sig0')
    (accepted1' :
      Accepted cx m amountCommitments1div8 blindedAssetIds1div8 forAggregation1div8 w' R' sig1')
    (weights : w ≠ w') (distinct : sig0.c ≠ sig1.c) (distinct' : sig0'.c ≠ sig1'.c) {j : ℕ}
    (inside : j < amountCommitments1div8.length) {e y : Scalar}
    (opened : (8 : Scalar) • forAggregation1div8.getD j 0 = e • cx.U + y • cx.G) :
    (8 : Scalar) • amountCommitments1div8.getD j 0 =
        e • (8 : Scalar) • blindedAssetIds1div8.getD j 0 +
          ((extractedSum sig0 sig1 j).2 - w * y) • cx.G ∨
      let relation :=
  amountRelation w w' e y (extractedSum sig0 sig1 j) (extractedSum sig0' sig1' j)
      relation ≠ 0 ∧ relation 0 • (8 : Scalar) • blindedAssetIds1div8.getD j 0 + relation 1 • cx.U +
        relation 2 • cx.G = 0 :=
  amount_or_relation weights (sumMap_extractedSum accepted0 accepted1 distinct inside)
    (sumMap_extractedSum accepted0' accepted1' distinct' inside) opened

/-- The weight is `w` and the challenge `c`. -/
def twoValues (w c : Scalar) (items : List (HsItem Scalar)) : Scalar :=
  if items.length = 3 then w else c

/-- For one output of the amount 3. -/
def smallAggregation (w c : Scalar) : VectorUGAggregationProof Scalar :=
  let s (secret : ℕ) : Scalar := secret
  ⟨[scalar1div8 • s 76], [.ofScalar (1 - c * s 3)], [.ofScalar (s 2 - c * (s 4 + w * s 5))], c.val⟩

open VectorUG in
theorem accepted_smallAggregation {w c : Scalar} (R : List Scalar)
    (verified : verifyVectorUGAggregationProof ⟨twoValues w c, 11, 7⟩ []
      [scalar1div8 • (50 : Scalar)] [scalar1div8 • 2] (smallAggregation w c) = .ok ())
    (isR : announced ⟨twoValues w c, 11,
      7⟩ [] [scalar1div8 • (50 : Scalar)] [scalar1div8 • 2] (smallAggregation w c) = R) :
    Accepted ⟨fun _ => 0, 11,
      7⟩ [] [scalar1div8 • (50 : Scalar)] [scalar1div8 • 2] [scalar1div8 • 76] w R
      (smallAggregation w c) :=
  ⟨rfl, twoValues w c, verified, rfl, isR⟩

open VectorUG in
theorem amount_of_verifyVectorUGAggregationProof_small :
    (8 : Scalar) • scalar1div8 • (50 : Scalar) =
      (3 : Scalar) • (8 : Scalar) • scalar1div8 • (2 : Scalar) +
        ((extractedSum (smallAggregation 1 5) (smallAggregation 1 6) 0).2 - 1 * 5) • (11 : Scalar) ∨
      let relation :=
  amountRelation 1 2 3 5 (extractedSum (smallAggregation 1 5) (smallAggregation 1 6) 0)
        (extractedSum (smallAggregation 2 5) (smallAggregation 2 6) 0)
      relation ≠ 0 ∧
        relation 0 • (8 : Scalar) • scalar1div8 • (2 : Scalar) + relation 1 • (7 : Scalar) +
        relation 2 • (11 : Scalar) = 0 := by
  have accepted0 := accepted_smallAggregation (w := 1) (c := 5) [31] (by decide) (by decide)
  have accepted1 := accepted_smallAggregation (w := 1) (c := 6) [31] (by decide) (by decide)
  have accepted0' := accepted_smallAggregation (w := 2) (c := 5) [38] (by decide) (by decide)
  have accepted1' := accepted_smallAggregation (w := 2) (c := 6) [38] (by decide) (by decide)
  exact amount_of_verifyVectorUGAggregationProof accepted0 accepted1 accepted0' accepted1'
    (by decide) (by decide) (by decide)
    (show 0 < [scalar1div8 • (50 : Scalar)].length by decide)
    (show (8 : Scalar) • [scalar1div8 • (76 : Scalar)].getD 0 0 =
      (3 : Scalar) • 7 + (5 : Scalar) • 11 by decide)

end Zano.Crypto
