import Mathlib
import Zano.Lib.SigmaProtocol
import Zano.Crypto.Clsag
import Zano.Crypto.RangeProofVerification

/-! # The proof of a hidden stake

A stake of the amount `a` may make a block if `h * (f + q + f')` modulo `l` is below `floor(l / (z *
D)) * z * a`, where `f` is the mask of the amount and `q` that of the concealing point. The proof
shows this with `d`, which is public: `d * z * a` less the left-hand side is committed to in `E` and
proved to be of 128 bits. `C` commits to `a` and `f + q` and `C'` to the same two the other way
round, so that the products with `h` and `d * z` can be compared without knowing them, and a ring
signature shows that `C` is made from one of the outputs.
-/

namespace Zano.Crypto

open Transactions (Scalar groupOrder scalar1div8)

variable {P : Type*} [AddCommGroup P] [Module Scalar P]

/-- The generators of range proofs are kept apart. -/
structure ZarcanumHelper (P : Type*) extends HashHelper P where
  H : P
  bppGenerators : ℕ → P
  bppInitialTranscript : Scalar

/-- `bpp_crypto_trait_Zarcanum` -/
def ZarcanumHelper.bppCryptoTraitZarcanum (cx : ZarcanumHelper P) : BppCryptoTraitZano P where
  bppN := 128
  bppValuesMax := 16
  generators := cx.bppGenerators
  initialTranscript := cx.bppInitialTranscript
  bppG := cx.H
  bppH := cx.G
  bppH2 := cx.X

/-! ## The inequality -/

def zarcanumZCoeff : ℕ := 2 ^ 64

/-- `floor( l / (z * D) )`, where `D` is not zero. -/
def zarcanumPrecalculateLDivZD (posDifficulty : ℕ) : ℕ :=
  groupOrder / (zarcanumZCoeff * posDifficulty)

def zarcanumPrecalculateZLDivZD (posDifficulty : ℕ) : ℕ :=
  zarcanumZCoeff * (groupOrder / (zarcanumZCoeff * posDifficulty))

/-- `lhs` -/
def zarcanumLhs (kernelHash blindingMask secretQ lastPowBlockIdHashed : Scalar) : ℕ :=
  (kernelHash * (blindingMask + secretQ + lastPowBlockIdHashed)).val

def zarcanumCheckMainPosInequality (kernelHash blindingMask secretQ lastPowBlockIdHashed : Scalar)
    (zLDivZD : ℕ) (stakeAmount : UInt64) : Bool :=
  zarcanumLhs kernelHash blindingMask secretQ lastPowBlockIdHashed < zLDivZD * stakeAmount.toNat

/-! ## Generation -/

/-- The points are premultiplied by 1/8. `d` is a number of 256 bits as it is received. -/
structure ZarcanumProof (P : Type*) where
  d : ℕ
  C : P
  CPrime : P
  E : P
  c : Scalar
  y0 : Scalar
  y1 : Scalar
  y2 : Scalar
  y3 : Scalar
  y4 : Scalar
  eRangeProof : BppSignature P (Scalar × Scalar)
  pseudoOutAmountCommitment : P
  clsagGgxxg : ClsagGgxxgSignature P

structure ZarcanumRandom where
  x0 : Scalar
  x1 : Scalar
  x2 : Scalar
  r0 : Scalar
  r1 : Scalar
  r2 : Scalar
  r3 : Scalar
  r4 : Scalar
  range : BppRandom (Scalar × Scalar)
  alpha : Fin 2 → Scalar
  r : ℕ → Fin 2 → Scalar

/-- What the owner of the stake knows of it. -/
structure StakeSecrets where
  secretX : Scalar
  secretQ : Scalar
  stakeAmount : UInt64
  stakeOutAssetIdBlindingMask : Scalar
  stakeOutAmountBlindingMask : Scalar

inductive ZarcanumError where
  | code (code : ℕ)
  | divisionByZero
  deriving DecidableEq

/-- `F`, from the points themselves -/
def zarcanumF (cx : ZarcanumHelper P) (h dz lastPowBlockIdHashed : Scalar) (C CPrime E : P) : P :=
  h • CPrime - dz • C + E + (lastPowBlockIdHashed * h) • cx.H

def zarcanumChallenge (cx : ZarcanumHelper P) (R01 R23 R4 C CPrime F : P) : Scalar :=
  cx.hs [.chars32 "ZANO_HDS_ZARCANUM_PROOF_HASH___", .point R01, .point R23, .point R4,
    .point (C + CPrime), .point (C - CPrime), .point F]

def zarcanumGenerateProof (cx : ZarcanumHelper P) (m kernelHash : Scalar)
    (ring : List (ClsagGgxxgInputRef P)) (lastPowBlockIdHashed : Scalar) (stakeKi : P)
    (secrets : StakeSecrets) (secretIndex : ℕ) (pseudoOutAmountBlindingMask : Scalar)
    (random : ZarcanumRandom) : Except ZarcanumError (ZarcanumProof P) :=
  let a : Scalar := (secrets.stakeAmount.toNat : Scalar)
  let h := kernelHash
  let fPlusQ := secrets.stakeOutAmountBlindingMask + secrets.secretQ
  let fPlusQPlusFp := fPlusQ + lastPowBlockIdHashed
  let lhs := h * fPlusQPlusFp
  if secrets.stakeAmount = 0 then .error .divisionByZero
  else
    let d := lhs.val / (zarcanumZCoeff * secrets.stakeAmount.toNat) + 1
    let dz := (d : Scalar) * (zarcanumZCoeff : Scalar)
    let ba := dz * a - lhs
    let bf := dz * fPlusQ - h * a
    let bx := random.x2 - h * random.x1 + dz * random.x0
    let C := random.x0 • cx.X + a • cx.H + fPlusQ • cx.G
    let CPrime := random.x1 • cx.X + fPlusQ • cx.H + a • cx.G
    let E := bx • cx.X + ba • cx.H + bf • cx.G
    let F := zarcanumF cx h dz lastPowBlockIdHashed C CPrime E
    let R01 := random.r0 • cx.X + random.r1 • (cx.H + cx.G)
    let R23 := random.r2 • cx.X + random.r3 • (cx.H - cx.G)
    let R4 := random.r4 • cx.X
    let c := zarcanumChallenge cx R01 R23 R4 C CPrime F
    match bppeGen cx.bppCryptoTraitZarcanum cx.hs [ba] [bf] [bx] [scalar1div8 • E] random.range with
    | .error _ => .error (.code 10)
    | .ok eRangeProof =>
        let pseudoOutAssetIdBlindingMask := -secrets.stakeOutAssetIdBlindingMask
        let stakeOutAssetId := cx.H + secrets.stakeOutAssetIdBlindingMask • cx.X
        let pseudoOutAmountCommitment := a • stakeOutAssetId + pseudoOutAmountBlindingMask • cx.G
        match generateClsagGgxxg cx.toHashHelper m ring pseudoOutAmountCommitment cx.H C stakeKi
          secrets.secretX
            (secrets.stakeOutAmountBlindingMask - pseudoOutAmountBlindingMask)
              (-pseudoOutAssetIdBlindingMask)
            (random.x0 - a * secrets.stakeOutAssetIdBlindingMask) secrets.secretQ secretIndex
              random.alpha random.r with
        | .error _ => .error (.code 20)
        | .ok clsagGgxxg =>
            .ok {
              d
              C := scalar1div8 • C
              CPrime := scalar1div8 • CPrime
              E := scalar1div8 • E
              c
              y0 := random.r0 + c * (random.x0 + random.x1)
              y1 := random.r1 + c * (a + fPlusQ)
              y2 := random.r2 + c * (random.x0 - random.x1)
              y3 := random.r3 + c * (a - fPlusQ)
              y4 := random.r4 + c * random.x2
              eRangeProof
              pseudoOutAmountCommitment := scalar1div8 • pseudoOutAmountCommitment
              clsagGgxxg }

/-! ## Verification -/

/-- What was announced, from the answers. -/
def zarcanumAnnounced (cx : ZarcanumHelper P) (C CPrime F : P)
    (sig : ZarcanumProof P) : P × P × P :=
  (sig.y0 • cx.X + sig.y1 • (cx.H + cx.G) - sig.c • (C + CPrime),
    sig.y2 • cx.X + sig.y3 • (cx.H - cx.G) - sig.c • (C - CPrime), sig.y4 • cx.X - sig.c • F)

/-- An exception has the code 100, which a difficulty of zero causes. -/
def zarcanumVerifyProof [DecidableEq P] (cx : ZarcanumHelper P) (m kernelHash : Scalar)
    (ring : List (ClsagGgxxgInputRef P)) (lastPowBlockIdHashed : Scalar) (stakeKi : P)
    (posDifficulty : ℕ) (sig : ZarcanumProof P) (rwf : ℕ → Scalar) :
    Except ZarcanumError Unit :=
  if posDifficulty = 0 then .error (.code 100)
  else
    let lDivZD := zarcanumPrecalculateLDivZD posDifficulty
    if !(sig.d ≠ 0 && sig.d < lDivZD) then .error (.code 2)
    else
      let dz := (sig.d : Scalar) * (zarcanumZCoeff : Scalar)
      let h := kernelHash
      let CPrime := (8 : Scalar) • sig.CPrime
      let C := (8 : Scalar) • sig.C
      let E := (8 : Scalar) • sig.E
      let F := zarcanumF cx h dz lastPowBlockIdHashed C CPrime E
      let (R01, R23, R4) := zarcanumAnnounced cx C CPrime F sig
      let c := zarcanumChallenge cx R01 R23 R4 C CPrime F
      if sig.c ≠ c then .error (.code 3)
      else
        match bppeVerify cx.bppCryptoTraitZarcanum cx.hs [⟨sig.eRangeProof, [sig.E]⟩] rwf with
        | .ok true =>
            match verifyClsagGgxxg cx.toHashHelper m ring sig.pseudoOutAmountCommitment
              (scalar1div8 • cx.H) sig.C stakeKi
                sig.clsagGgxxg with
            | .ok true => .ok ()
            | _ => .error (.code 1)
        | _ => .error (.code 10)

/-- All that is checked. -/
theorem zarcanumVerifyProof_eq_ok [DecidableEq P] (cx : ZarcanumHelper P) (m kernelHash : Scalar)
    (ring : List (ClsagGgxxgInputRef P)) (lastPowBlockIdHashed : Scalar) (stakeKi : P)
    (posDifficulty : ℕ) (sig : ZarcanumProof P) (rwf : ℕ → Scalar) :
    zarcanumVerifyProof cx m kernelHash ring lastPowBlockIdHashed stakeKi posDifficulty sig rwf =
      .ok () ↔
      (posDifficulty ≠ 0 ∧ sig.d ≠ 0 ∧ sig.d < zarcanumPrecalculateLDivZD posDifficulty) ∧
      (let C := (8 : Scalar) • sig.C
        let CPrime := (8 : Scalar) • sig.CPrime
        let F := zarcanumF cx kernelHash ((sig.d : Scalar) * (zarcanumZCoeff : Scalar))
          lastPowBlockIdHashed C CPrime
          ((8 : Scalar) • sig.E)
        let R := zarcanumAnnounced cx C CPrime F sig
        sig.c = zarcanumChallenge cx R.1 R.2.1 R.2.2 C CPrime F) ∧
      bppeVerify cx.bppCryptoTraitZarcanum cx.hs [⟨sig.eRangeProof, [sig.E]⟩] rwf = .ok true ∧
      verifyClsagGgxxg cx.toHashHelper m ring sig.pseudoOutAmountCommitment (scalar1div8 • cx.H)
        sig.C stakeKi sig.clsagGgxxg =
        .ok true := by
  simp only [zarcanumVerifyProof]
  grind

/-! ## Which stakes get through -/

/-- What has to hold of the output that is staked. -/
structure StakeSecrets.Own (secrets : StakeSecrets) (cx : ZarcanumHelper P)
    (ring : List (ClsagGgxxgInputRef P)) (stakeKi : P)
    (secretIndex : ℕ) : Prop where
  inside : secretIndex < ring.length
  address : secrets.secretX • cx.G = ring[secretIndex].stealthAddress
  keyImage : secrets.secretX • cx.hp ring[secretIndex].stealthAddress = stakeKi
  assetId : (8 : Scalar) • ring[secretIndex].blindedAssetId =
    cx.H + secrets.stakeOutAssetIdBlindingMask • cx.X
  amount : (8 : Scalar) • ring[secretIndex].amountCommitment =
    (secrets.stakeAmount.toNat : Scalar) • (cx.H + secrets.stakeOutAssetIdBlindingMask • cx.X) +
      secrets.stakeOutAmountBlindingMask • cx.G
  concealing : (8 : Scalar) • ring[secretIndex].concealingPoint = secrets.secretQ • cx.G

/-- The factors of `H` and of `G` cancel. -/
theorem zarcanumF_generated (cx : ZarcanumHelper P) (h dz a fPlusQ fp x0 x1 x2 : Scalar) :
    zarcanumF cx h dz fp (x0 • cx.X + a • cx.H + fPlusQ • cx.G)
      (x1 • cx.X + fPlusQ • cx.H + a • cx.G) ((x2 - h * x1 + dz * x0) • cx.X +
        (dz * a - h * (fPlusQ + fp)) • cx.H + (dz * fPlusQ - h * a) • cx.G) = x2 • cx.X := by
  rw [zarcanumF]
  module

/-- `d` is the least number for which the difference is not negative, so that it has 128 bits. -/
theorem val_rangeValue_lt (lhs : Scalar) {stakeAmount : UInt64} (positive : stakeAmount ≠ 0) :
    (((lhs.val / (zarcanumZCoeff * stakeAmount.toNat) + 1 : ℕ) : Scalar) *
      (zarcanumZCoeff : Scalar) * (stakeAmount.toNat : Scalar) -
      lhs).val < 2 ^ 128 := by
  set step := zarcanumZCoeff * stakeAmount.toNat with isStep
  have someAmount : 0 < stakeAmount.toNat := by
    rw [Nat.pos_iff_ne_zero]
    exact fun zero => positive (UInt64.toNat_inj.mp zero)
  have someStep : 0 < step := Nat.mul_pos (by decide) someAmount
  have small : step < 2 ^ 128 := by
    have amount := stakeAmount.toNat_lt
    rw [isStep, zarcanumZCoeff]
    omega
  have rest := Nat.mod_lt lhs.val someStep
  have rounded : (lhs.val / step + 1) * step = lhs.val + (step - lhs.val % step) := by
    have division := Nat.div_add_mod lhs.val step
    rw [Nat.add_mul, one_mul, Nat.mul_comm]
    omega
  have difference : ((lhs.val / step + 1 : ℕ) : Scalar) * (zarcanumZCoeff : Scalar) *
      (stakeAmount.toNat : Scalar) - lhs =
      ((step - lhs.val % step : ℕ) : Scalar) := by
    have product := congrArg (Nat.cast (R := Scalar)) rounded
    rw [Nat.cast_mul, Nat.cast_add lhs.val, ZMod.natCast_zmod_val] at product
    rw [mul_assoc, ← Nat.cast_mul, ← isStep, product, add_sub_cancel_left]
  have below : step - lhs.val % step < groupOrder :=
    (Nat.sub_le _ _).trans_lt (small.trans (by decide))
  rw [difference, ZMod.val_cast_of_lt below]
  omega

omit [AddCommGroup P] [Module Scalar P] in
theorem bppCryptoTraitZarcanum_wellFormed (cx : ZarcanumHelper P) :
    cx.bppCryptoTraitZarcanum.WellFormed :=
  wellFormed_of_sizes _ (.inr ⟨rfl, rfl⟩)

/-- The value committed to in `E` is in the range, and so the proof for it passes. -/
theorem rangeProof_generated [DecidableEq P] (cx : ZarcanumHelper P) {ba : Scalar}
    (small : ba.val < 2 ^ 128) (bf bx : Scalar) (random : BppRandom (Scalar × Scalar)) {E : P}
    (isE : E = bx • cx.X + ba • cx.H + bf • cx.G) :
    ∃ sig, bppeGen cx.bppCryptoTraitZarcanum cx.hs [ba] [bf] [bx] [scalar1div8 • E] random =
      .ok sig ∧
      ((challenges cx.bppCryptoTraitZarcanum cx.hs ⟨sig, [scalar1div8 • E]⟩).Nonzero →
        ∀ rwf, bppeVerify cx.bppCryptoTraitZarcanum cx.hs [⟨sig, [scalar1div8 • E]⟩] rwf =
          .ok true) := by
  set CT := cx.bppCryptoTraitZarcanum
  have wellFormed : CT.WellFormed := bppCryptoTraitZarcanum_wellFormed cx
  have fits (v : Scalar) (inside : v ∈ [ba]) : v.val < 2 ^ CT.bppN := by
    obtain rfl := List.mem_singleton.mp inside
    exact small
  have areCommitments : [scalar1div8 • E].map ((8 : Scalar) • ·) =
      List.zipWith (WipContext.calcPedersenCommitment ⟨CT.bppG, blind2 CT, cx.hs⟩) [ba]
        [(bf, bx)] := by
    rw [List.map_singleton, eight_smul_scalar1div8_smul, isE]
    change [_] = [ba • cx.H + (bf • cx.G + bx • cx.X)]
    congr 1
    abel
  obtain ⟨sig, made, -⟩ := genRangeProof_answers CT ⟨CT.bppG, blind2 CT, cx.hs⟩ wellFormed.isPower
    (show 0 < [ba].length from Nat.one_pos) (by decide : 1 ≤ 16)
      (by rfl : [ba].length = [(bf, bx)].length) fits areCommitments random
  refine ⟨sig, made, fun nonzero rwf => ?_⟩
  refine verifyRangeProofs_generated CT wellFormed ⟨CT.bppG, blind2 CT, cx.hs⟩ (by simp) ?_ ?_ rwf
  · rintro bsc inside
    obtain rfl := List.mem_singleton.mp inside
    exact ⟨[ba], [(bf, bx)], random, rfl, fits, areCommitments, made⟩
  · rintro bsc inside
    obtain rfl := List.mem_singleton.mp inside
    exact nonzero

theorem ringSignature_generated (cx : ZarcanumHelper P) (m : Scalar)
    {ring : List (ClsagGgxxgInputRef P)} {stakeKi : P} {secrets : StakeSecrets} {secretIndex : ℕ}
    (own : secrets.Own cx ring stakeKi secretIndex) (pseudoMask x0 : Scalar)
    (alpha : Fin 2 → Scalar) (r : ℕ → Fin 2 → Scalar) {C pseudoOut : P}
    (isC : C = x0 • cx.X + (secrets.stakeAmount.toNat : Scalar) • cx.H +
      (secrets.stakeOutAmountBlindingMask + secrets.secretQ) • cx.G)
    (isPseudoOut : pseudoOut =
      (secrets.stakeAmount.toNat : Scalar) • (cx.H + secrets.stakeOutAssetIdBlindingMask • cx.X) +
      pseudoMask • cx.G) :
    ∃ sig, generateClsagGgxxg cx.toHashHelper m ring pseudoOut cx.H C stakeKi secrets.secretX
        (secrets.stakeOutAmountBlindingMask - pseudoMask) (- -secrets.stakeOutAssetIdBlindingMask)
        (x0 - (secrets.stakeAmount.toNat : Scalar) * secrets.stakeOutAssetIdBlindingMask)
          secrets.secretQ secretIndex alpha r = .ok sig ∧
      verifyClsagGgxxg cx.toHashHelper m ring (scalar1div8 • pseudoOut) (scalar1div8 • cx.H)
        (scalar1div8 • C) stakeKi sig = .ok true := by
  obtain ⟨inside, address, keyImage, assetId, amount, concealing⟩ := own
  have known : ClsagGgxxgSecrets cx.toHashHelper ring pseudoOut cx.H C stakeKi secrets.secretX
      (secrets.stakeOutAmountBlindingMask - pseudoMask) (- -secrets.stakeOutAssetIdBlindingMask)
      (x0 - (secrets.stakeAmount.toNat : Scalar) * secrets.stakeOutAssetIdBlindingMask)
        secrets.secretQ secretIndex := by
    refine ⟨inside, address, keyImage, ?_, ?_, ?_, concealing.symm⟩
    · rw [amount, isPseudoOut]
      module
    · rw [assetId]
      module
    · rw [amount, concealing, isC]
      module
  have made :
      ∃ sig, generateClsagGgxxg cx.toHashHelper m ring pseudoOut cx.H C stakeKi secrets.secretX
      (secrets.stakeOutAmountBlindingMask - pseudoMask) (- -secrets.stakeOutAssetIdBlindingMask)
      (x0 - (secrets.stakeAmount.toNat : Scalar) * secrets.stakeOutAssetIdBlindingMask)
        secrets.secretQ secretIndex alpha r = .ok sig := by
    rw [generateClsagGgxxg, if_neg (by omega), if_neg (by omega)]
    exact ⟨_, rfl⟩
  obtain ⟨sig, made⟩ := made
  have reduces := reduced_of_generateClsagGgxxg made
  exact ⟨sig, made,
    ((generateClsagGgxxg_iff cx.toHashHelper m known sig).mp ⟨alpha, r, reduces.symm ▸ made⟩).2⟩

/-- The miner's test is passed exactly if `d` is at most `floor(l / (z * D))`. -/
theorem zarcanumCheckMainPosInequality_iff
    (kernelHash blindingMask secretQ lastPowBlockIdHashed : Scalar) (posDifficulty : ℕ)
    {stakeAmount : UInt64} (positive : stakeAmount ≠ 0) :
    zarcanumCheckMainPosInequality kernelHash blindingMask secretQ lastPowBlockIdHashed
      (zarcanumPrecalculateZLDivZD posDifficulty)
        stakeAmount = true ↔
      zarcanumLhs kernelHash blindingMask secretQ lastPowBlockIdHashed /
        (zarcanumZCoeff * stakeAmount.toNat) + 1 ≤
        zarcanumPrecalculateLDivZD posDifficulty := by
  have someAmount : 0 < stakeAmount.toNat := by
    rw [Nat.pos_iff_ne_zero]
    exact fun zero => positive (UInt64.toNat_inj.mp zero)
  have someStep : 0 < zarcanumZCoeff * stakeAmount.toNat := Nat.mul_pos (by decide) someAmount
  rw [zarcanumCheckMainPosInequality, decide_eq_true_eq, Nat.succ_le_iff,
    Nat.div_lt_iff_lt_mul someStep, zarcanumPrecalculateZLDivZD, zarcanumPrecalculateLDivZD,
    Nat.mul_right_comm, Nat.mul_comm (zarcanumZCoeff * _)]

/-- The proof for an output of one's own is always made. It is accepted if the stake passes the
miner's test, but for one value of `d`: the verifier wants it below `floor(l / (z * D))`, where the
test lets it be equal. -/
theorem zarcanumVerifyProof_generated [DecidableEq P] (cx : ZarcanumHelper P)
    (m kernelHash : Scalar) {ring : List (ClsagGgxxgInputRef P)} (lastPowBlockIdHashed : Scalar)
    {stakeKi : P} {secrets : StakeSecrets} {secretIndex : ℕ}
    (own : secrets.Own cx ring stakeKi secretIndex) (staked : secrets.stakeAmount ≠ 0)
    (pseudoOutAmountBlindingMask : Scalar) (random : ZarcanumRandom) {posDifficulty : ℕ}
    (positive : posDifficulty ≠ 0) :
    ∃ sig, zarcanumGenerateProof cx m kernelHash ring lastPowBlockIdHashed stakeKi secrets
      secretIndex pseudoOutAmountBlindingMask
        random = .ok sig ∧
      ((challenges cx.bppCryptoTraitZarcanum cx.hs ⟨sig.eRangeProof, [sig.E]⟩).Nonzero → ∀ rwf,
        (zarcanumVerifyProof cx m kernelHash ring lastPowBlockIdHashed stakeKi posDifficulty sig
          rwf = .ok () ↔
          zarcanumCheckMainPosInequality kernelHash secrets.stakeOutAmountBlindingMask
            secrets.secretQ lastPowBlockIdHashed
              (zarcanumPrecalculateZLDivZD posDifficulty) secrets.stakeAmount = true ∧
            zarcanumLhs kernelHash secrets.stakeOutAmountBlindingMask secrets.secretQ
              lastPowBlockIdHashed /
                (zarcanumZCoeff * secrets.stakeAmount.toNat) + 1 ≠
                  zarcanumPrecalculateLDivZD posDifficulty)) := by
  rw [zarcanumCheckMainPosInequality_iff _ _ _ _ _ staked, ← lt_iff_le_and_ne]
  have small := val_rangeValue_lt
    (kernelHash * (secrets.stakeOutAmountBlindingMask + secrets.secretQ + lastPowBlockIdHashed))
      staked
  simp only [zarcanumGenerateProof, if_neg staked]
  rw [zarcanumLhs]
  set lhs := kernelHash *
    (secrets.stakeOutAmountBlindingMask + secrets.secretQ + lastPowBlockIdHashed) with isLhs
  set d := lhs.val / (zarcanumZCoeff * secrets.stakeAmount.toNat) + 1 with isD
  set a : Scalar := (secrets.stakeAmount.toNat : Scalar)
  set fPlusQ := secrets.stakeOutAmountBlindingMask + secrets.secretQ
  set dz : Scalar := (d : Scalar) * (zarcanumZCoeff : Scalar) with isDz
  obtain ⟨eRangeProof, madeRange, rangePasses⟩ :=
    rangeProof_generated cx small (dz * fPlusQ - kernelHash * a)
    (random.x2 - kernelHash * random.x1 + dz * random.x0) random.range rfl
  obtain ⟨clsag, madeClsag, clsagPasses⟩ :=
    ringSignature_generated cx m own pseudoOutAmountBlindingMask random.x0 random.alpha random.r
    rfl rfl
  rw [madeRange]
  dsimp only
  rw [madeClsag]
  refine ⟨_, rfl, fun nonzero rwf => ?_⟩
  have isF :=
    zarcanumF_generated cx kernelHash dz a fPlusQ lastPowBlockIdHashed random.x0 random.x1 random.x2
  rw [← isLhs] at isF
  have R01 (c : Scalar) : (random.r0 + c * (random.x0 + random.x1)) • cx.X +
      (random.r1 + c * (a + fPlusQ)) • (cx.H + cx.G) -
      c • ((random.x0 • cx.X + a • cx.H + fPlusQ • cx.G) +
        (random.x1 • cx.X + fPlusQ • cx.H + a • cx.G)) =
        random.r0 • cx.X + random.r1 • (cx.H + cx.G) := by module
  have R23 (c : Scalar) : (random.r2 + c * (random.x0 - random.x1)) • cx.X +
      (random.r3 + c * (a - fPlusQ)) • (cx.H - cx.G) -
      c • ((random.x0 • cx.X + a • cx.H + fPlusQ • cx.G) -
        (random.x1 • cx.X + fPlusQ • cx.H + a • cx.G)) =
        random.r2 • cx.X + random.r3 • (cx.H - cx.G) := by module
  have R4 (c : Scalar) :
      (random.r4 + c * random.x2) • cx.X - c • random.x2 • cx.X = random.r4 • cx.X := by module
  rw [zarcanumVerifyProof_eq_ok]
  simp only [zarcanumAnnounced, eight_smul_scalar1div8_smul, ← isDz, isF, R01, R23, R4, true_and]
  constructor
  · rintro ⟨⟨-, -, below⟩, -⟩
    exact below
  · exact fun below => ⟨⟨positive, isD ▸ Nat.succ_ne_zero _, below⟩, rangePasses nonzero rwf,
      clsagPasses⟩

def smallZarcanumHelper : ZarcanumHelper Scalar where
  h := fun _ => []
  hs := fun _ => 1
  hp := fun p => p
  G := 1
  X := 1 + 1
  H := 1 + 1 + 1
  bppGenerators := fun i => i + 1
  bppInitialTranscript := 0

theorem zarcanumVerifyProof_generated_small :
    ∃ sig, zarcanumGenerateProof smallZarcanumHelper 0 1
      [⟨⟨2, scalar1div8 • 6, scalar1div8 • 5⟩, scalar1div8 • 1⟩] 0 4 ⟨2, 1, 1, 1, 1⟩ 0 0
        ⟨1, 2, 3, 4, 5, 6, 7, 8, ⟨0, fun _ => 0, fun _ => 0, 1, 2, 0, 0⟩, fun _ => 1,
          fun _ _ => 2⟩ = .ok sig ∧
      zarcanumVerifyProof smallZarcanumHelper 0 1
        [⟨⟨2, scalar1div8 • 6, scalar1div8 • 5⟩, scalar1div8 • 1⟩] 0 4 1 sig (fun _ => 1) =
        .ok () := by
  have own : StakeSecrets.Own ⟨2, 1, 1, 1, 1⟩ smallZarcanumHelper
      [⟨⟨2, scalar1div8 • 6, scalar1div8 • 5⟩, scalar1div8 • (1 : Scalar)⟩] 4 0 :=
    ⟨by decide, by decide, by decide, by decide, by decide, by decide⟩
  obtain ⟨sig, made, accepted⟩ :=
    zarcanumVerifyProof_generated smallZarcanumHelper 0 1 0 own (by decide) 0
    ⟨1, 2, 3, 4, 5, 6, 7, 8, ⟨0, fun _ => 0, fun _ => 0, 1, 2, 0, 0⟩, fun _ => 1,
      fun _ _ => 2⟩ (by decide : 1 ≠ 0)
  exact ⟨sig, made, (accepted (challenges_nonzero_of_const _ _) _).mpr (by decide)⟩

/-! ## What accepted proofs give away -/

/-- How `C` and `E` are opened. -/
structure ZarcanumOpening where
  x : Scalar
  a : ℕ
  b : Scalar
  e : Scalar
  e1 : Scalar
  e2 : Scalar

structure ZarcanumOpening.Opens (opening : ZarcanumOpening) (cx : ZarcanumHelper P)
    (C E : P) : Prop where
  openedC : C = opening.x • cx.X + (opening.a : Scalar) • cx.H + opening.b • cx.G
  openedE : E = opening.e2 • cx.X + opening.e • cx.H + opening.e1 • cx.G
  small : opening.e.val < 2 ^ 128

/-- How the prover opens what it has committed to. -/
def StakeSecrets.opening (secrets : StakeSecrets) (h lastPowBlockIdHashed : Scalar)
    (random : ZarcanumRandom) (d : ℕ) :
    ZarcanumOpening :=
  let a : Scalar := (secrets.stakeAmount.toNat : Scalar)
  let fPlusQ := secrets.stakeOutAmountBlindingMask + secrets.secretQ
  let dz := (d : Scalar) * (zarcanumZCoeff : Scalar)
  { x := random.x0
    a := secrets.stakeAmount.toNat
    b := fPlusQ
    e := dz * a - h * (fPlusQ + lastPowBlockIdHashed)
    e1 := dz * fPlusQ - h * a
    e2 := random.x2 - h * random.x1 + dz * random.x0 }

end Zano.Crypto
