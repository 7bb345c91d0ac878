import Mathlib
import Zano.Lib.ChallengeRing
import Zano.Crypto.Scalars

/-! # CLSAG signatures

A ring signature of several layers. What is to be known in a layer is a multiple of `G` or of `X`,
and the layers of one kind are aggregated with coefficients that are hashes of all inputs, so that a
member of the ring answers once for each kind and not once for each layer. Every member answers for
the aggregated public key and for the aggregated key image, whose base is the hash of its own
address.

Two layers of `G` and one of `X` make up the signature for hidden asset types, and five layers that
for the amount of a stake. Whether the answers of a signature are reduced is not checked.
-/

namespace Zano.Crypto

open Transactions (Scalar groupOrder scalar1div8)

variable {P : Type*} [AddCommGroup P] [Module Scalar P]

/-- `h` is the hash that is not reduced and `hp` the one to a point. -/
structure HashHelper (P : Type*) where
  h : List (HsItem P) → List UInt8
  hs : List (HsItem P) → Scalar
  hp : P → P
  G : P
  X : P

/-! ## A ring of aggregated keys -/

/-- `W_pub_keys` and `W_key_image` of each of `k` kinds. -/
structure AggregatedRing (P : Type*) (k : ℕ) where
  size : ℕ
  bases : Fin k → P
  hp : ℕ → P
  pubKeys : Fin k → ℕ → P
  keyImages : Fin k → P

/-- The challenge after a member, from its answers and the challenge before it. -/
def nextChallenge {k : ℕ} (cx : HashHelper P) (label : String) (inputHash : List UInt8)
    (ring : AggregatedRing P k) (i : ℕ) (r : Fin k → Scalar) (c : Scalar) : Scalar :=
  cx.hs (.chars32 label :: .hash inputHash :: (List.finRange k).flatMap fun j =>
    [.point (r j • ring.bases j + c • ring.pubKeys j i),
      .point (r j • ring.hp i + c • ring.keyImages j)])

/-- The initial commitment. -/
def initialChallenge {k : ℕ} (cx : HashHelper P) (label : String) (inputHash : List UInt8)
    (ring : AggregatedRing P k) (secretIndex : ℕ) (alpha : Fin k → Scalar) : Scalar :=
  cx.hs (.chars32 label :: .hash inputHash :: (List.finRange k).flatMap fun j =>
    [.point (alpha j • ring.bases j), .point (alpha j • ring.hp secretIndex)])

/-- The loop of generation, and the answers of the secret index after it. -/
def generateRing {k : ℕ} (cx : HashHelper P) (label : String) (inputHash : List UInt8)
    (ring : AggregatedRing P k) (wSecKey : Fin k → Scalar) (secretIndex : ℕ)
    (alpha : Fin k → Scalar) (r : ℕ → Fin k → Scalar) :
    Scalar × (Fin k → List Scalar) :=
  let (c, r) := ChallengeRing.sign ring.size (nextChallenge cx label inputHash ring) r secretIndex
    (initialChallenge cx label inputHash ring secretIndex alpha) (fun cPrev j =>
      alpha j - cPrev * wSecKey j)
  (c, fun j => (List.range ring.size).map fun i => r i j)

/-- The loop of verification. The last challenge is compared with the number that was received. -/
def verifyRing {k : ℕ} (cx : HashHelper P) (label : String) (inputHash : List UInt8)
    (ring : AggregatedRing P k) (c : ℕ) (r : Fin k → List ReceivedScalar) : Bool :=
  (ChallengeRing.walk (nextChallenge cx label inputHash ring)
    (fun i j => ((r j).map ReceivedScalar.toScalar).getD i 0) (c : Scalar) ring.size).val = c

/-- The aggregated secrets of a member. -/
def AggregatedRing.Opens {k : ℕ} (ring : AggregatedRing P k) (secretIndex : ℕ)
    (wSecKey : Fin k → Scalar) : Prop :=
  ∀ j, wSecKey j • ring.bases j = ring.pubKeys j secretIndex ∧
    wSecKey j • ring.hp secretIndex = ring.keyImages j

/-- With the secrets, there is an answer to every challenge after which the one from the initial
commitment comes. -/
theorem nextChallenge_of_opens {k : ℕ} (cx : HashHelper P) (label : String) (inputHash : List UInt8)
    {ring : AggregatedRing P k} {secretIndex : ℕ} {wSecKey : Fin k → Scalar}
    (opens : ring.Opens secretIndex wSecKey) (alpha : Fin k → Scalar) (c : Scalar) :
    nextChallenge cx label inputHash ring secretIndex (fun j => alpha j - c * wSecKey j) c =
      initialChallenge cx label inputHash ring secretIndex alpha := by
  have pubKey (j : Fin k) : (alpha j - c * wSecKey j) • ring.bases j +
      c • ring.pubKeys j secretIndex = alpha j • ring.bases j := by
    rw [← (opens j).1]
    module
  have keyImage (j : Fin k) : (alpha j - c * wSecKey j) • ring.hp secretIndex +
      c • ring.keyImages j = alpha j • ring.hp secretIndex := by
    rw [← (opens j).2]
    module
  simp only [nextChallenge, initialChallenge, pubKey, keyImage]

omit [AddCommGroup P] [Module Scalar P] in
theorem walk_congr {V : Type*} (link : ℕ → V → Scalar → Scalar) {r r' : ℕ → V} (c : Scalar) {n : ℕ}
    (same : ∀ i < n, r i = r' i) :
    ChallengeRing.walk link r c n = ChallengeRing.walk link r' c n := by
  induction n with
  | zero => rfl
  | succ n inductionHypothesis =>
      rw [ChallengeRing.walk_succ, ChallengeRing.walk_succ, same n (by omega),
        inductionHypothesis fun i below => same i (by omega)]

theorem closes_generateRing {k : ℕ} (cx : HashHelper P) (label : String) (inputHash : List UInt8)
    {ring : AggregatedRing P k} {secretIndex : ℕ} (inside : secretIndex < ring.size)
    {wSecKey : Fin k → Scalar} (opens : ring.Opens secretIndex wSecKey) (alpha : Fin k → Scalar)
    (r : ℕ → Fin k → Scalar) :
    ChallengeRing.Closes ring.size (nextChallenge cx label inputHash ring)
      (generateRing cx label inputHash ring wSecKey secretIndex alpha r).1
      (fun i j =>
        ((generateRing cx label inputHash ring wSecKey secretIndex alpha r).2 j).getD i 0) := by
  have closes := ChallengeRing.closes_sign (nextChallenge cx label inputHash ring) r inside
    (initialChallenge cx label inputHash ring secretIndex alpha)
      (nextChallenge_of_opens cx label inputHash opens alpha)
  refine Eq.trans (walk_congr _ _ fun i below => ?_) closes
  funext j
  rw [generateRing, List.getD_eq_getElem _ _ (by simpa using below), List.getElem_map,
    List.getElem_range]

/-- Whoever knows the secrets of a member could have made every ring that closes. -/
theorem generateRing_of_closes {k : ℕ} (cx : HashHelper P) (label : String) (inputHash : List UInt8)
    {ring : AggregatedRing P k} {secretIndex : ℕ} (inside : secretIndex < ring.size)
    {wSecKey : Fin k → Scalar} (opens : ring.Opens secretIndex wSecKey) {c : Scalar}
    {r : Fin k → List Scalar} (sizes : ∀ j, (r j).length = ring.size)
    (closes : ChallengeRing.Closes ring.size (nextChallenge cx label inputHash ring) c fun i j =>
      (r j).getD i 0) :
    ∃ alpha answers, generateRing cx label inputHash ring wSecKey secretIndex alpha answers =
      (c, r) := by
  set answers : ℕ → Fin k → Scalar := fun i j => (r j).getD i 0
  set before :=
    ChallengeRing.walk (nextChallenge cx label inputHash ring) answers c secretIndex with isBefore
  have isAnswer : (fun j => (answers secretIndex j + before * wSecKey j) - before * wSecKey j) =
      answers secretIndex := by
    funext j
    ring
  have start : initialChallenge cx label inputHash ring secretIndex (fun j =>
      answers secretIndex j + before * wSecKey j) =
      ChallengeRing.walk (nextChallenge cx label inputHash ring) answers c (secretIndex + 1) := by
    rw [← nextChallenge_of_opens cx label inputHash opens _ before, isAnswer,
      ChallengeRing.walk_succ]
  obtain ⟨isC, isR⟩ :=
    ChallengeRing.sign_of_closes (nextChallenge cx label inputHash ring) closes inside
    (fun cPrev j => (answers secretIndex j + before * wSecKey j) - cPrev * wSecKey j) isAnswer
      answers fun _ _ _ => rfl
  refine ⟨fun j => answers secretIndex j + before * wSecKey j, answers, ?_⟩
  simp only [generateRing, start]
  refine Prod.ext isC (funext fun j => ?_)
  apply List.ext_getElem
  · simp [sizes]
  · intro i below _
    rw [List.length_map, List.length_range] at below
    rw [List.getElem_map, List.getElem_range, isR i below]
    exact List.getD_eq_getElem _ _ _

/-! ## The signatures -/

/-- The address is not premultiplied by 1/8, and the others are. -/
structure ClsagGgxInputRef (P : Type*) where
  stealthAddress : P
  amountCommitment : P
  blindedAssetId : P

structure ClsagGgxxgInputRef (P : Type*) extends ClsagGgxInputRef P where
  concealingPoint : P

structure ClsagGgxSignature (P : Type*) where
  c : ℕ
  rG : List ReceivedScalar
  rX : List ReceivedScalar
  K1 : P
  K2 : P

structure ClsagGgxxgSignature (P : Type*) where
  c : ℕ
  rG : List ReceivedScalar
  rX : List ReceivedScalar
  K1 : P
  K2 : P
  K3 : P
  K4 : P

/-- The same signature with its answers reduced. -/
def ClsagGgxSignature.reduced (sig : ClsagGgxSignature P) : ClsagGgxSignature P :=
  { sig with rG := sig.rG.map ReceivedScalar.reduced, rX := sig.rX.map ReceivedScalar.reduced }

def ClsagGgxxgSignature.reduced (sig : ClsagGgxxgSignature P) : ClsagGgxxgSignature P :=
  { sig with rG := sig.rG.map ReceivedScalar.reduced, rX := sig.rX.map ReceivedScalar.reduced }

def aggCoeff (cx : HashHelper P) (label : String) (inputHash : List UInt8) : Scalar :=
  cx.hs [.chars32 label, .hash inputHash]

/-! ### Two layers of `G` and one of `X` -/

def clsagGgxInputHash (cx : HashHelper P) (m : Scalar) (ring : List (ClsagGgxInputRef P))
    (pseudoOut1div8 pseudoAssetId1div8 ki K1 K2 : P) : List UInt8 :=
  cx.h (.scalar m ::
    ring.flatMap (fun member =>
      [.point member.stealthAddress, .point member.amountCommitment,
        .point member.blindedAssetId]) ++
      [.point pseudoOut1div8, .point pseudoAssetId1div8, .point ki, .point K1, .point K2])

def clsagGgxRing (cx : HashHelper P) (inputHash : List UInt8) (ring : List (ClsagGgxInputRef P))
    (pseudoOut pseudoAssetId ki K1 K2 : P) : AggregatedRing P 2 :=
  let aggCoeff0 := aggCoeff cx "ZANO_HDS_CLSAG_GGX_LAYER_ZERO__" inputHash
  let aggCoeff1 := aggCoeff cx "ZANO_HDS_CLSAG_GGX_LAYER_ONE___" inputHash
  let aggCoeff2 := aggCoeff cx "ZANO_HDS_CLSAG_GGX_LAYER_TWO___" inputHash
  { size := ring.length
    bases := ![cx.G, cx.X]
    hp := fun i => cx.hp ((ring.map (·.stealthAddress)).getD i 0)
    pubKeys := ![
      fun i => aggCoeff0 • (ring.map (·.stealthAddress)).getD i 0 +
        aggCoeff1 • ((8 : Scalar) • (ring.map (·.amountCommitment)).getD i 0 - pseudoOut),
      fun i => aggCoeff2 • ((8 : Scalar) • (ring.map (·.blindedAssetId)).getD i 0 - pseudoAssetId)]
    keyImages := ![aggCoeff0 • ki + aggCoeff1 • K1, aggCoeff2 • K2] }

/-- The random answers are pairs, for `G` and for `X`. -/
def generateClsagGgx (cx : HashHelper P) (m : Scalar) (ring : List (ClsagGgxInputRef P))
    (pseudoOut pseudoAssetId ki : P) (secret0Xp secret1F secret2T : Scalar) (secretIndex : ℕ)
    (alpha : Fin 2 → Scalar) (r : ℕ → Fin 2 → Scalar) :
    Except String (ClsagGgxSignature P) :=
  if ring.length = 0 then .error "ring size is zero"
  else if ring.length ≤ secretIndex then .error "secret_index is out of range"
  else
    let kiBase := cx.hp ((ring.map (·.stealthAddress)).getD secretIndex 0)
    let keyImage := secret0Xp • kiBase
    let K1Div8 := (scalar1div8 * secret1F) • kiBase
    let K2Div8 := (scalar1div8 * secret2T) • kiBase
    let inputHash := clsagGgxInputHash cx m ring (scalar1div8 • pseudoOut)
      (scalar1div8 • pseudoAssetId) ki K1Div8 K2Div8
    let aggregated := clsagGgxRing cx inputHash ring pseudoOut pseudoAssetId keyImage
      ((8 : Scalar) • K1Div8) ((8 : Scalar) • K2Div8)
    let wSecKeyG := aggCoeff cx "ZANO_HDS_CLSAG_GGX_LAYER_ZERO__" inputHash * secret0Xp +
      aggCoeff cx "ZANO_HDS_CLSAG_GGX_LAYER_ONE___" inputHash * secret1F
    let wSecKeyX := aggCoeff cx "ZANO_HDS_CLSAG_GGX_LAYER_TWO___" inputHash * secret2T
    let (c, answers) := generateRing cx "ZANO_HDS_CLSAG_GGX_CHALLENGE___" inputHash aggregated
      ![wSecKeyG, wSecKeyX] secretIndex
      alpha r
    .ok {
      c := c.val
      rG := (answers 0).map ReceivedScalar.ofScalar
      rX := (answers 1).map ReceivedScalar.ofScalar
      K1 := K1Div8
      K2 := K2Div8 }

def verifyClsagGgx (cx : HashHelper P) (m : Scalar) (ring : List (ClsagGgxInputRef P))
    (pseudoOut1div8 pseudoAssetId1div8 ki : P) (sig : ClsagGgxSignature P) : Except String Bool :=
  if ring.length = 0 then .error "ring size is zero"
  else if ring.length ≠ sig.rG.length then .error "ring size != r_g size"
  else if ring.length ≠ sig.rX.length then .error "ring size != r_x size"
  else
    let inputHash := clsagGgxInputHash cx m ring pseudoOut1div8 pseudoAssetId1div8 ki sig.K1 sig.K2
    let aggregated := clsagGgxRing cx inputHash ring ((8 : Scalar) • pseudoOut1div8)
      ((8 : Scalar) • pseudoAssetId1div8) ki
      ((8 : Scalar) • sig.K1) ((8 : Scalar) • sig.K2)
    .ok (verifyRing cx "ZANO_HDS_CLSAG_GGX_CHALLENGE___" inputHash aggregated sig.c
      ![sig.rG, sig.rX])

/-! ### Three layers of `G` and two of `X` -/

def clsagGgxxgInputHash (cx : HashHelper P) (m : Scalar) (ring : List (ClsagGgxxgInputRef P))
    (pseudoOut1div8 pseudoAssetId1div8 extended1div8 ki K1 K2 K3 K4 : P) : List UInt8 :=
  cx.h (.scalar m ::
    ring.flatMap (fun member =>
      [.point member.stealthAddress, .point member.amountCommitment, .point member.blindedAssetId,
        .point member.concealingPoint]) ++
      [.point pseudoOut1div8, .point pseudoAssetId1div8, .point extended1div8, .point ki, .point K1,
        .point K2, .point K3, .point K4])

def clsagGgxxgRing (cx : HashHelper P) (inputHash : List UInt8) (ring : List (ClsagGgxxgInputRef P))
    (pseudoOut pseudoAssetId extended ki K1 K2 K3 K4 : P) : AggregatedRing P 2 :=
  let aggCoeff0 := aggCoeff cx "ZANO_HDS_CLSAG_GGXXG_LAYER_ZERO" inputHash
  let aggCoeff1 := aggCoeff cx "ZANO_HDS_CLSAG_GGXXG_LAYER_ONE_" inputHash
  let aggCoeff2 := aggCoeff cx "ZANO_HDS_CLSAG_GGXXG_LAYER_TWO_" inputHash
  let aggCoeff3 := aggCoeff cx "ZANO_HDS_CLSAG_GGXXG_LAYER_3___" inputHash
  let aggCoeff4 := aggCoeff cx "ZANO_HDS_CLSAG_GGXXG_LAYER_FOUR" inputHash
  let A := fun i => (8 : Scalar) • (ring.map (·.amountCommitment)).getD i 0
  let T := fun i => (8 : Scalar) • (ring.map (·.blindedAssetId)).getD i 0
  let Q := fun i => (8 : Scalar) • (ring.map (·.concealingPoint)).getD i 0
  { size := ring.length
    bases := ![cx.G, cx.X]
    hp := fun i => cx.hp ((ring.map (·.stealthAddress)).getD i 0)
    pubKeys := ![
      fun i => aggCoeff0 • (ring.map (·.stealthAddress)).getD i 0 + aggCoeff1 • (A i - pseudoOut) +
        aggCoeff4 • Q i,
      fun i => aggCoeff2 • (T i - pseudoAssetId) + aggCoeff3 • (extended - A i - Q i)]
    keyImages :=
      ![aggCoeff0 • ki + aggCoeff1 • K1 + aggCoeff4 • K4, aggCoeff2 • K2 + aggCoeff3 • K3] }

def generateClsagGgxxg (cx : HashHelper P) (m : Scalar) (ring : List (ClsagGgxxgInputRef P))
    (pseudoOut pseudoAssetId extended ki : P)
    (secret0Xp secret1F secret2T secret3X secret4Q : Scalar) (secretIndex : ℕ)
    (alpha : Fin 2 → Scalar) (r : ℕ → Fin 2 → Scalar) : Except String (ClsagGgxxgSignature P) :=
  if ring.length = 0 then .error "ring size is zero"
  else if ring.length ≤ secretIndex then .error "secret_index is out of range"
  else
    let kiBase := cx.hp ((ring.map (·.stealthAddress)).getD secretIndex 0)
    let keyImage := secret0Xp • kiBase
    let K1Div8 := (scalar1div8 * secret1F) • kiBase
    let K2Div8 := (scalar1div8 * secret2T) • kiBase
    let K3Div8 := (scalar1div8 * secret3X) • kiBase
    let K4Div8 := (scalar1div8 * secret4Q) • kiBase
    let inputHash := clsagGgxxgInputHash cx m ring (scalar1div8 • pseudoOut)
      (scalar1div8 • pseudoAssetId) (scalar1div8 • extended)
      ki K1Div8 K2Div8 K3Div8 K4Div8
    let aggregated := clsagGgxxgRing cx inputHash ring pseudoOut pseudoAssetId extended keyImage
      ((8 : Scalar) • K1Div8)
      ((8 : Scalar) • K2Div8) ((8 : Scalar) • K3Div8) ((8 : Scalar) • K4Div8)
    let wSecKeyG := aggCoeff cx "ZANO_HDS_CLSAG_GGXXG_LAYER_ZERO" inputHash * secret0Xp +
      aggCoeff cx "ZANO_HDS_CLSAG_GGXXG_LAYER_ONE_" inputHash * secret1F +
        aggCoeff cx "ZANO_HDS_CLSAG_GGXXG_LAYER_FOUR" inputHash * secret4Q
    let wSecKeyX := aggCoeff cx "ZANO_HDS_CLSAG_GGXXG_LAYER_TWO_" inputHash * secret2T +
      aggCoeff cx "ZANO_HDS_CLSAG_GGXXG_LAYER_3___" inputHash * secret3X
    let (c, answers) := generateRing cx "ZANO_HDS_CLSAG_GGXXG_CHALLENGE_" inputHash aggregated
      ![wSecKeyG, wSecKeyX] secretIndex
      alpha r
    .ok {
      c := c.val
      rG := (answers 0).map ReceivedScalar.ofScalar
      rX := (answers 1).map ReceivedScalar.ofScalar
      K1 := K1Div8
      K2 := K2Div8
      K3 := K3Div8
      K4 := K4Div8 }

def verifyClsagGgxxg (cx : HashHelper P) (m : Scalar) (ring : List (ClsagGgxxgInputRef P))
    (pseudoOut1div8 pseudoAssetId1div8 extended1div8 ki : P)
    (sig : ClsagGgxxgSignature P) : Except String Bool :=
  if ring.length = 0 then .error "ring size is zero"
  else if ring.length ≠ sig.rG.length then .error "ring size != r_g size"
  else if ring.length ≠ sig.rX.length then .error "ring size != r_x size"
  else
    let inputHash := clsagGgxxgInputHash cx m ring pseudoOut1div8 pseudoAssetId1div8 extended1div8
      ki sig.K1 sig.K2 sig.K3 sig.K4
    let aggregated := clsagGgxxgRing cx inputHash ring ((8 : Scalar) • pseudoOut1div8)
      ((8 : Scalar) • pseudoAssetId1div8)
      ((8 : Scalar) • extended1div8) ki ((8 : Scalar) • sig.K1) ((8 : Scalar) • sig.K2)
        ((8 : Scalar) • sig.K3) ((8 : Scalar) • sig.K4)
    .ok (verifyRing cx "ZANO_HDS_CLSAG_GGXXG_CHALLENGE_" inputHash aggregated sig.c
      ![sig.rG, sig.rX])

/-! ## Who can sign -/

theorem verifyRing_eq_true {k : ℕ} (cx : HashHelper P) (label : String) (inputHash : List UInt8)
    (ring : AggregatedRing P k) (c : ℕ) (r : Fin k → List ReceivedScalar) :
    verifyRing cx label inputHash ring c r = true ↔ (c : Scalar).val = c ∧
      ChallengeRing.Closes ring.size (nextChallenge cx label inputHash ring) (c : Scalar)
        fun i j => ((r j).map ReceivedScalar.toScalar).getD i 0 := by
  rw [verifyRing, decide_eq_true_eq, ChallengeRing.Closes]
  generalize ChallengeRing.walk _ _ _ _ = last
  constructor
  · rintro rfl
    rw [ZMod.natCast_zmod_val]
    exact ⟨rfl, rfl⟩
  · rintro ⟨isReduced, rfl⟩
    exact isReduced

/-- What is accepted are the rings that can be made, up to the multiples of the order that answers
may be larger by. -/
theorem exists_generateRing_iff {k : ℕ} (cx : HashHelper P) (label : String)
    (inputHash : List UInt8) {ring : AggregatedRing P k} {secretIndex : ℕ}
    (inside : secretIndex < ring.size) {wSecKey : Fin k → Scalar}
    (opens : ring.Opens secretIndex wSecKey) (c : ℕ) (r : Fin k → List ReceivedScalar) :
    (∃ alpha answers,
      (generateRing cx label inputHash ring wSecKey secretIndex alpha answers).1.val = c ∧
        ∀ j, (generateRing cx label inputHash ring wSecKey secretIndex alpha answers).2 j =
          (r j).map ReceivedScalar.toScalar) ↔
      (∀ j, (r j).length = ring.size) ∧ verifyRing cx label inputHash ring c r = true := by
  rw [verifyRing_eq_true]
  constructor
  · rintro ⟨alpha, answers, rfl, isR⟩
    have closes := closes_generateRing cx label inputHash inside opens alpha answers
    simp only [isR] at closes
    rw [ZMod.natCast_zmod_val]
    refine ⟨fun j => ?_, rfl, closes⟩
    rw [← List.length_map, ← isR, generateRing, List.length_map, List.length_range]
  · rintro ⟨sizes, isReduced, closes⟩
    obtain ⟨alpha, answers, made⟩ := generateRing_of_closes cx label inputHash inside opens
      (r := fun j => (r j).map ReceivedScalar.toScalar)
        (fun j => by rw [List.length_map, sizes]) closes
    exact ⟨alpha, answers, by rw [made, isReduced], fun j => by rw [made]⟩

theorem exists_generateRing_pair_iff (cx : HashHelper P) (label : String) (inputHash : List UInt8)
    {ring : AggregatedRing P 2} {secretIndex : ℕ} (inside : secretIndex < ring.size)
    {wSecKey : Fin 2 → Scalar} (opens : ring.Opens secretIndex wSecKey) (c : ℕ)
    (rG rX : List ReceivedScalar) :
    (∃ alpha answers,
      (generateRing cx label inputHash ring wSecKey secretIndex alpha answers).1.val = c ∧
        ((generateRing cx label inputHash ring wSecKey secretIndex alpha answers).2 0).map
          ReceivedScalar.ofScalar =
            rG.map ReceivedScalar.reduced ∧
          ((generateRing cx label inputHash ring wSecKey secretIndex alpha answers).2 1).map
            ReceivedScalar.ofScalar =
            rX.map ReceivedScalar.reduced) ↔
      (ring.size = rG.length ∧ ring.size = rX.length) ∧
        verifyRing cx label inputHash ring c ![rG, rX] = true := by
  have general := exists_generateRing_iff cx label inputHash inside opens c ![rG, rX]
  simp only [Fin.forall_fin_two, Matrix.cons_val_zero, Matrix.cons_val_one] at general
  simp only [ReceivedScalar.map_ofScalar_eq_map_reduced, general]
  exact and_congr_left fun _ => and_congr eq_comm eq_comm

omit [Module Scalar P] in
theorem getD_map_member {A : Type*} {ring : List A} {i : ℕ} (inside : i < ring.length)
    (field : A → P) : (ring.map field).getD i 0 = field ring[i] := by
  rw [List.getD_eq_getElem _ _ (by simpa using inside), List.getElem_map]

/-- A key image that is sent divided by 8. -/
theorem eight_smul_divided {s : Scalar} {base K : P} (isK : (scalar1div8 * s) • base = K) :
    (8 : Scalar) • K = s • base := by
  rw [← isK, mul_smul, eight_smul_scalar1div8_smul]

/-- What the owner of the member at an index knows. -/
structure ClsagGgxSecrets (cx : HashHelper P) (ring : List (ClsagGgxInputRef P))
    (pseudoOut pseudoAssetId ki : P)
    (secret0Xp secret1F secret2T : Scalar) (secretIndex : ℕ) : Prop where
  inside : secretIndex < ring.length
  address : secret0Xp • cx.G = ring[secretIndex].stealthAddress
  keyImage : secret0Xp • cx.hp ring[secretIndex].stealthAddress = ki
  amount : secret1F • cx.G = (8 : Scalar) • ring[secretIndex].amountCommitment - pseudoOut
  assetId : secret2T • cx.X = (8 : Scalar) • ring[secretIndex].blindedAssetId - pseudoAssetId

/-- A signature with the key images of the owner is accepted exactly if the owner could have made it
with its answers reduced. -/
theorem generateClsagGgx_iff (cx : HashHelper P) (m : Scalar) {ring : List (ClsagGgxInputRef P)}
    {pseudoOut pseudoAssetId ki : P} {secret0Xp secret1F secret2T : Scalar} {secretIndex : ℕ}
    (secrets :
      ClsagGgxSecrets cx ring pseudoOut pseudoAssetId ki secret0Xp secret1F secret2T secretIndex)
    (sig : ClsagGgxSignature P) :
    (∃ alpha r, generateClsagGgx cx m ring pseudoOut pseudoAssetId ki secret0Xp secret1F secret2T
      secretIndex alpha r = .ok sig.reduced) ↔
      sig.K1 = (scalar1div8 * secret1F) • cx.hp (secret0Xp • cx.G) ∧
        sig.K2 = (scalar1div8 * secret2T) • cx.hp (secret0Xp • cx.G) ∧
        verifyClsagGgx cx m ring (scalar1div8 • pseudoOut) (scalar1div8 • pseudoAssetId) ki sig =
          .ok true := by
  obtain ⟨inside, address, keyImage, amount, assetId⟩ := secrets
  obtain ⟨c, rG, rX, sigK1, sigK2⟩ := sig
  have some_ : ring.length ≠ 0 := by omega
  rw [← address] at keyImage
  simp only [generateClsagGgx, if_neg some_, if_neg (show ¬ring.length ≤ secretIndex by omega),
    getD_map_member inside, ← address, keyImage]
  generalize isK1 : (scalar1div8 * secret1F) • cx.hp (secret0Xp • cx.G) = K1
  generalize isK2 : (scalar1div8 * secret2T) • cx.hp (secret0Xp • cx.G) = K2
  generalize isHash : clsagGgxInputHash cx m ring (scalar1div8 • pseudoOut)
    (scalar1div8 • pseudoAssetId) ki K1 K2 = inputHash
  have opens : (clsagGgxRing cx inputHash ring pseudoOut pseudoAssetId ki ((8 : Scalar) • K1)
      ((8 : Scalar) • K2)).Opens secretIndex
      ![aggCoeff cx "ZANO_HDS_CLSAG_GGX_LAYER_ZERO__" inputHash * secret0Xp +
          aggCoeff cx "ZANO_HDS_CLSAG_GGX_LAYER_ONE___" inputHash * secret1F,
        aggCoeff cx "ZANO_HDS_CLSAG_GGX_LAYER_TWO___" inputHash * secret2T] := by
    simp only [AggregatedRing.Opens, Fin.forall_fin_two, clsagGgxRing, Matrix.cons_val_zero,
      Matrix.cons_val_one, getD_map_member inside, ← address, ← amount, ← assetId,
      eight_smul_divided isK1, eight_smul_divided isK2, ← keyImage]
    refine ⟨⟨?_, ?_⟩, ⟨?_, ?_⟩⟩ <;> module
  have verification : verifyClsagGgx cx m ring (scalar1div8 • pseudoOut)
      (scalar1div8 • pseudoAssetId) ki ⟨c, rG, rX, K1, K2⟩ = .ok true ↔ _ := Iff.trans ?_
    (exists_generateRing_pair_iff cx "ZANO_HDS_CLSAG_GGX_CHALLENGE___" inputHash inside opens c
      rG rX).symm
  · simp only [ClsagGgxSignature.reduced, Except.ok.injEq, ClsagGgxSignature.mk.injEq]
    constructor
    · rintro ⟨alpha, r, isC, isG, isX, rfl, rfl⟩
      exact ⟨rfl, rfl, verification.mpr ⟨alpha, r, isC, isG, isX⟩⟩
    · rintro ⟨rfl, rfl, verified⟩
      obtain ⟨alpha, r, isC, isG, isX⟩ := verification.mp verified
      exact ⟨alpha, r, isC, isG, isX, rfl, rfl⟩
  · simp only [verifyClsagGgx, if_neg some_, isHash, eight_smul_scalar1div8_smul]
    rw [clsagGgxRing]
    grind

/-- A hash helper over the scalars themselves. -/
def smallHashHelper : HashHelper Scalar := ⟨fun _ => [], fun _ => 1, fun p => p, 1, 1 + 1⟩

/-- A signature that is accepted although it is not made, because an answer is not reduced. -/
theorem generateClsagGgx_iff_small :
    ∃ sig larger, generateClsagGgx smallHashHelper 0 [⟨1, 1, 1⟩, ⟨2, 1, 1⟩] 5 6 4 2 3 1 1
      (fun _ => 7) (fun _ _ => 9) = .ok sig ∧
      larger.reduced = sig ∧ larger ≠ sig ∧
        verifyClsagGgx smallHashHelper 0 [⟨1, 1, 1⟩, ⟨2, 1, 1⟩] (scalar1div8 • 5) (scalar1div8 • 6)
          4 larger = .ok true := by
  have secrets : ClsagGgxSecrets smallHashHelper [⟨1, 1, 1⟩, ⟨2, 1, 1⟩] 5 6 4 2 3 1 1 :=
    ⟨by decide, by decide, by decide, by decide, by decide⟩
  obtain ⟨c, g0, g1, x0, x1, K1, K2, made⟩ : ∃ c g0 g1 x0 x1 K1 K2,
      generateClsagGgx smallHashHelper 0 [⟨1, 1, 1⟩, ⟨2, 1, 1⟩] 5 6 4 2 3 1 1 (fun _ => 7)
        (fun _ _ => 9) =
        .ok ⟨c, [.ofScalar g0, .ofScalar g1], [.ofScalar x0, .ofScalar x1], K1, K2⟩ :=
    ⟨_, _, _, _, _, _, _, rfl⟩
  have reduces : (⟨c, [.enlarged g0, .ofScalar g1], [.ofScalar x0, .ofScalar x1], K1,
      K2⟩ : ClsagGgxSignature Scalar).reduced =
      ⟨c, [.ofScalar g0, .ofScalar g1], [.ofScalar x0, .ofScalar x1], K1, K2⟩ := by
    simp [ClsagGgxSignature.reduced]
  refine ⟨_, ⟨c, [.enlarged g0, .ofScalar g1], [.ofScalar x0, .ofScalar x1], K1, K2⟩, made,
    reduces, ?_, ?_⟩
  · intro same
    have first : ReceivedScalar.enlarged g0 = .ofScalar g0 :=
      List.head_eq_of_cons_eq (congrArg (·.rG) same)
    exact ReceivedScalar.enlarged_ne g0 first
  · exact ((generateClsagGgx_iff smallHashHelper 0 secrets _).mp
      ⟨_, _, made.trans (congrArg _ reduces.symm)⟩).2.2

/-- What the staker knows of its own output and of the amount commitment that is extended by the
hidden amount. -/
structure ClsagGgxxgSecrets (cx : HashHelper P) (ring : List (ClsagGgxxgInputRef P))
    (pseudoOut pseudoAssetId extended ki : P)
    (secret0Xp secret1F secret2T secret3X secret4Q : Scalar) (secretIndex : ℕ) : Prop where
  inside : secretIndex < ring.length
  address : secret0Xp • cx.G = ring[secretIndex].stealthAddress
  keyImage : secret0Xp • cx.hp ring[secretIndex].stealthAddress = ki
  amount : secret1F • cx.G = (8 : Scalar) • ring[secretIndex].amountCommitment - pseudoOut
  assetId : secret2T • cx.X = (8 : Scalar) • ring[secretIndex].blindedAssetId - pseudoAssetId
  extension : secret3X • cx.X = extended - (8 : Scalar) • ring[secretIndex].amountCommitment -
    (8 : Scalar) • ring[secretIndex].concealingPoint
  concealing : secret4Q • cx.G = (8 : Scalar) • ring[secretIndex].concealingPoint

/-- What is made is reduced. -/
theorem reduced_of_generateClsagGgxxg {cx : HashHelper P} {m : Scalar}
    {ring : List (ClsagGgxxgInputRef P)} {pseudoOut pseudoAssetId extended ki : P}
    {secret0Xp secret1F secret2T secret3X secret4Q : Scalar} {secretIndex : ℕ}
    {alpha : Fin 2 → Scalar} {r : ℕ → Fin 2 → Scalar} {sig : ClsagGgxxgSignature P}
    (made : generateClsagGgxxg cx m ring pseudoOut pseudoAssetId extended ki secret0Xp secret1F
      secret2T secret3X secret4Q secretIndex alpha r = .ok sig) : sig.reduced = sig := by
  rw [generateClsagGgxxg] at made
  split at made
  · cases made
  · split at made
    · cases made
    · cases made
      simp [ClsagGgxxgSignature.reduced]

theorem generateClsagGgxxg_iff (cx : HashHelper P) (m : Scalar) {ring : List (ClsagGgxxgInputRef P)}
    {pseudoOut pseudoAssetId extended ki : P}
    {secret0Xp secret1F secret2T secret3X secret4Q : Scalar} {secretIndex : ℕ}
    (secrets : ClsagGgxxgSecrets cx ring pseudoOut pseudoAssetId extended ki secret0Xp secret1F
      secret2T secret3X secret4Q secretIndex)
    (sig : ClsagGgxxgSignature P) :
    (∃ alpha r, generateClsagGgxxg cx m ring pseudoOut pseudoAssetId extended ki secret0Xp secret1F
      secret2T secret3X secret4Q secretIndex alpha r = .ok sig.reduced) ↔
      (sig.K1 = (scalar1div8 * secret1F) • cx.hp (secret0Xp • cx.G) ∧
        sig.K2 = (scalar1div8 * secret2T) • cx.hp (secret0Xp • cx.G) ∧
        sig.K3 = (scalar1div8 * secret3X) • cx.hp (secret0Xp • cx.G) ∧
          sig.K4 = (scalar1div8 * secret4Q) • cx.hp (secret0Xp • cx.G)) ∧
        verifyClsagGgxxg cx m ring (scalar1div8 • pseudoOut) (scalar1div8 • pseudoAssetId)
          (scalar1div8 • extended) ki sig = .ok true := by
  obtain ⟨inside, address, keyImage, amount, assetId, extension, concealing⟩ := secrets
  obtain ⟨c, rG, rX, sigK1, sigK2, sigK3, sigK4⟩ := sig
  have some_ : ring.length ≠ 0 := by omega
  rw [← address] at keyImage
  rw [← concealing] at extension
  simp only [generateClsagGgxxg, if_neg some_, if_neg (show ¬ring.length ≤ secretIndex by omega),
    getD_map_member inside, ← address, keyImage]
  generalize isK1 : (scalar1div8 * secret1F) • cx.hp (secret0Xp • cx.G) = K1
  generalize isK2 : (scalar1div8 * secret2T) • cx.hp (secret0Xp • cx.G) = K2
  generalize isK3 : (scalar1div8 * secret3X) • cx.hp (secret0Xp • cx.G) = K3
  generalize isK4 : (scalar1div8 * secret4Q) • cx.hp (secret0Xp • cx.G) = K4
  generalize isHash : clsagGgxxgInputHash cx m ring (scalar1div8 • pseudoOut)
    (scalar1div8 • pseudoAssetId) (scalar1div8 • extended)
    ki K1 K2 K3 K4 = inputHash
  have opens : (clsagGgxxgRing cx inputHash ring pseudoOut pseudoAssetId extended ki
      ((8 : Scalar) • K1) ((8 : Scalar) • K2)
      ((8 : Scalar) • K3) ((8 : Scalar) • K4)).Opens secretIndex
      ![aggCoeff cx "ZANO_HDS_CLSAG_GGXXG_LAYER_ZERO" inputHash * secret0Xp +
          aggCoeff cx "ZANO_HDS_CLSAG_GGXXG_LAYER_ONE_" inputHash * secret1F +
            aggCoeff cx "ZANO_HDS_CLSAG_GGXXG_LAYER_FOUR" inputHash * secret4Q,
        aggCoeff cx "ZANO_HDS_CLSAG_GGXXG_LAYER_TWO_" inputHash * secret2T +
          aggCoeff cx "ZANO_HDS_CLSAG_GGXXG_LAYER_3___" inputHash * secret3X] := by
    simp only [AggregatedRing.Opens, Fin.forall_fin_two, clsagGgxxgRing, Matrix.cons_val_zero,
      Matrix.cons_val_one, getD_map_member inside, ← address, ← amount, ← assetId, ← extension,
      ← concealing, eight_smul_divided isK1, eight_smul_divided isK2, eight_smul_divided isK3,
      eight_smul_divided isK4, ← keyImage]
    refine ⟨⟨?_, ?_⟩, ⟨?_, ?_⟩⟩ <;> module
  have verification : verifyClsagGgxxg cx m ring (scalar1div8 • pseudoOut)
      (scalar1div8 • pseudoAssetId) (scalar1div8 • extended) ki
      ⟨c, rG, rX, K1, K2, K3, K4⟩ = .ok true ↔ _ := Iff.trans ?_
    (exists_generateRing_pair_iff cx "ZANO_HDS_CLSAG_GGXXG_CHALLENGE_" inputHash inside opens c
      rG rX).symm
  · simp only [ClsagGgxxgSignature.reduced, Except.ok.injEq, ClsagGgxxgSignature.mk.injEq]
    constructor
    · rintro ⟨alpha, r, isC, isG, isX, rfl, rfl, rfl, rfl⟩
      exact ⟨⟨rfl, rfl, rfl, rfl⟩, verification.mpr ⟨alpha, r, isC, isG, isX⟩⟩
    · rintro ⟨⟨rfl, rfl, rfl, rfl⟩, verified⟩
      obtain ⟨alpha, r, isC, isG, isX⟩ := verification.mp verified
      exact ⟨alpha, r, isC, isG, isX, rfl, rfl, rfl, rfl⟩
  · simp only [verifyClsagGgxxg, if_neg some_, isHash, eight_smul_scalar1div8_smul]
    rw [clsagGgxxgRing]
    grind

end Zano.Crypto
