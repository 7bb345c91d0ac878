import Mathlib
import Zano.Lib.Transition
import Zano.Transactions.Outputs

/-! # Recipients find their outputs

A shared secret is the same from both sides, since it does not matter which of the two secret keys
comes first. So what a destination's output was made with is what its recipient looks for, and the
hint of it is in the extra entries unless the sender left it out.
-/

namespace Zano.Transactions.Outputs

variable {F P : Type*} [CommRing F] [AddCommGroup P] [Module F P] {prim : Primitives F P}

/-- The keys of an account, with the view key that belongs to its address. -/
structure AccountKeys.Honest (prim : Primitives F P) (acc : AccountKeys F P) : Prop where
  view : acc.accountAddress.viewPublicKey = some (acc.viewSecretKey • prim.G)
  spend : ∃ point, acc.accountAddress.spendPublicKey = some point

def SameKeys (apa other : AccountPublicAddress P) : Prop :=
  apa.spendPublicKey = other.spendPublicKey ∧ apa.viewPublicKey = other.viewPublicKey

def AddressedTo (addr : AccountPublicAddress P) (de : TxDestinationEntry P) : Prop :=
  ∃ apa, AddressV.account apa ∈ de.addr ∧ SameKeys apa addr

/-- The hash of the shared secret and the index, of which everything in an output is derived. -/
def outputSecret (prim : Primitives F P) (txKeySec : F) (outputIndex : ℕ)
    (apa : AccountPublicAddress P) : F :=
  prim.derivationToScalar (prim.generateKeyDerivation txKeySec apa.viewPublicKey) outputIndex

def oneTimeKey (prim : Primitives F P) (txKeySec : F) (outputIndex : ℕ)
    (apa : AccountPublicAddress P) : PublicKey P :=
  prim.derivePublicKey (prim.generateKeyDerivation txKeySec apa.viewPublicKey) outputIndex
    apa.spendPublicKey

/-- Another address, which is of the destination, has the same one-time key. -/
def KeyCollision (prim : Primitives F P) (txKeySec : F) (addr : AccountPublicAddress P)
    (outputIndex : ℕ) (de : TxDestinationEntry P) : Prop :=
  ∃ apa, AddressV.account apa ∈ de.addr ∧ ¬SameKeys apa addr ∧
    oneTimeKey prim txKeySec outputIndex apa = oneTimeKey prim txKeySec outputIndex addr

/-- The payment id is none, or is written and not by chance what it is hidden with, which would read
as none. The blinded asset id is not by chance the native one. -/
structure Readable (prim : Primitives F P) (version : ℕ) (txKeySec : F) (outputIndex : ℕ)
    (de : TxDestinationEntry P)
    (apa : AccountPublicAddress P) : Prop where
  payment : de.paymentId = 0 ∨ (transactionVersionPostHf6 ≤ version ∧
    de.paymentId ≠
      prim.mU64 (prim.hs .outAmountMask (outputSecret prim txKeySec outputIndex apa)) 1)
  asset : transactionVersionPreHf4 < version →
    ∃ id, de.assetId = some id ∧ (id = prim.nativeCoinAssetIdPt ∨
    id + prim.hs .outAssetBlindingMask (outputSecret prim txKeySec outputIndex apa) • prim.X ≠
      prim.nativeCoinAssetIdPt)

/-! ## Shared secrets -/

theorem generateKeyDerivation_comm (prim : Primitives F P) (first second : F) :
    prim.generateKeyDerivation first (some (second • prim.G)) = prim.generateKeyDerivation second
    (some (first • prim.G)) := by
  simp only [Primitives.generateKeyDerivation, Primitives.toPoint, Option.getD_some]
  rw [smul_comm first second prim.G]

theorem AccountKeys.Honest.derivation {acc : AccountKeys F P} (honest : acc.Honest prim)
    (txKeySec : F) :
    prim.generateKeyDerivation acc.viewSecretKey (some (txKeySec • prim.G)) =
      prim.generateKeyDerivation txKeySec acc.accountAddress.viewPublicKey := by
  rw [honest.view, generateKeyDerivation_comm]

theorem AccountKeys.Honest.not_burns {acc : AccountKeys F P} (honest : acc.Honest prim) :
    acc.accountAddress.burns = false := by
  rw [AccountPublicAddress.burns, honest.view]
  simp

omit [AddCommGroup P] in
theorem SameKeys.burns {apa other : AccountPublicAddress P} (same : SameKeys apa other) :
    apa.burns = other.burns := by
  rw [AccountPublicAddress.burns, AccountPublicAddress.burns, same.1, same.2]

theorem SameKeys.oneTimeKey {apa other : AccountPublicAddress P} (same : SameKeys apa other)
    (txKeySec : F) (outputIndex : ℕ) :
    oneTimeKey prim txKeySec outputIndex apa = oneTimeKey prim txKeySec outputIndex other := by
  rw [Outputs.oneTimeKey, Outputs.oneTimeKey, same.1, same.2]

theorem eight_smul_div8 (prim : Primitives F P) (point : P) :
    (8 : ℕ) • prim.toPoint (prim.div8 point) = point := by
  simp only [Primitives.toPoint, Primitives.div8, Option.getD_some]
  rw [← Nat.cast_smul_eq_nsmul F 8 (prim.scalar1div8 • point), smul_smul, prim.eight_mul, one_smul]

theorem xor_xor_cancel (a mask : UInt64) : a ^^^ mask ^^^ mask = a := by simp

theorem xor_eq_zero {a mask : UInt64} : a ^^^ mask = 0 ↔ a = mask := by
  constructor
  · intro isZero
    rw [← xor_xor_cancel a mask, isZero, UInt64.zero_xor]
  · rintro rfl
    exact UInt64.xor_self

/-! ## One output -/

variable [DecidableEq P]

/-- The output was made for this destination. -/
def OutFor (prim : Primitives F P) (version : ℕ) (txKeySec : F) (outputIndex : ℕ)
    (de : TxDestinationEntry P) (out : TxOutV P) : Prop :=
  ∃ txOutsAttr derivCache derivCache',
    constructTxOut prim version txKeySec txOutsAttr de outputIndex derivCache =
      some (out, derivCache')

/-- The payment id is read back. A written zero is read as none. -/
theorem decoded_paymentId {version : ℕ} {paymentId mask : UInt64}
    (readable : paymentId = 0 ∨ (transactionVersionPostHf6 ≤ version ∧ paymentId ≠ mask)) :
    (if (if transactionVersionPostHf6 ≤ version then paymentId ^^^ mask else 0) ≠ 0 then
        (if transactionVersionPostHf6 ≤ version then paymentId ^^^ mask else 0) ^^^ mask
      else 0) = paymentId := by
  by_cases current : transactionVersionPostHf6 ≤ version
  · simp only [if_pos current, xor_xor_cancel, ne_eq, xor_eq_zero]
    split
    · rfl
    next hidden =>
      rw [not_not] at hidden
      rcases readable with none | ⟨-, differs⟩
      · exact none.symm
      · exact absurd hidden differs
  · rw [if_neg current, if_neg (not_not.mpr rfl)]
    exact (readable.resolve_right fun both => current both.1).symm

/-- The recipient reads what the sender hid. -/
theorem decodeOutputData_hideOutput {version : ℕ} {h : F}
    {stealthAddress concealingPoint : PublicKey P} {mixAttr : UInt8} {de : TxDestinationEntry P}
    {id : P} (isId : de.assetId = some id)
    (explicit : de.explicitNativeAssetId = true → id = prim.nativeCoinAssetIdPt)
    (payment : de.paymentId = 0 ∨
      (transactionVersionPostHf6 ≤ version ∧ de.paymentId ≠ prim.mU64 (prim.hs .outAmountMask h) 1))
    (asset : id = prim.nativeCoinAssetIdPt ∨
      id + prim.hs .outAssetBlindingMask h • prim.X ≠ prim.nativeCoinAssetIdPt) :
    let zo := hideOutput prim version h (prim.hs .outAmountBlindingMask h) stealthAddress
      concealingPoint mixAttr de
    ∃ d, decodeOutputData prim zo h = some d ∧ d.amount = de.amount ∧ d.paymentId = de.paymentId ∧
      (8 : ℕ) • prim.toPoint zo.blindedAssetId - d.assetIdBlindingMask • prim.X = id := by
  have isPoint : prim.toPoint de.assetId = id := by
    rw [isId]
    rfl
  simp only [decodeOutputData, hideOutput, eight_smul_div8, xor_xor_cancel, isPoint]
  rw [if_neg (not_not.mpr rfl)]
  by_cases native : id + (if de.explicitNativeAssetId then 0
    else prim.hs .outAssetBlindingMask h) • prim.X =
      prim.nativeCoinAssetIdPt
  · rw [if_pos native]
    refine ⟨_, rfl, rfl, decoded_paymentId payment, ?_⟩
    rw [native, zero_smul, sub_zero]
    cases isExplicit : de.explicitNativeAssetId with
    | true => exact (explicit isExplicit).symm
    | false =>
        rw [isExplicit, if_neg Bool.false_ne_true] at native
        exact (asset.resolve_right (not_not.mpr native)).symm
  · rw [if_neg native]
    refine ⟨_, rfl, rfl, decoded_paymentId payment, ?_⟩
    cases isExplicit : de.explicitNativeAssetId with
    | true =>
        rw [isExplicit, if_pos rfl, zero_smul, add_zero] at native
        exact absurd (explicit isExplicit) native
    | false =>
        rw [if_neg Bool.false_ne_true]
        exact add_sub_cancel_right id _

omit [CommRing F] [AddCommGroup P] [Module F P] [DecidableEq P] in
theorem mem_of_mapM_account {addr : List (AddressV P)} {addresses : List (AccountPublicAddress P)}
    (all : addr.mapM AddressV.account? = some addresses) (apa : AccountPublicAddress P) :
    apa ∈ addresses ↔ AddressV.account apa ∈ addr := by
  induction addr generalizing addresses with
  | nil =>
      cases all
      simp
  | cons first addr inductionHypothesis =>
      cases first with
      | gateway id => simp [List.mapM_cons, AddressV.account?] at all
      | account own =>
          rw [List.mapM_cons] at all
          obtain ⟨later, isLater, rfl⟩ : ∃ later, addr.mapM AddressV.account? = some later ∧
            own :: later = addresses := by
            simpa [AddressV.account?, Option.bind_eq_some_iff] using all
          rw [List.mem_cons, List.mem_cons, inductionHypothesis isLater, AddressV.account.injEq]

/-- What an output is made of, and which hints it adds. -/
inductive MadeOut (prim : Primitives F P) (version : ℕ) (txKeySec : F) (outputIndex : ℕ)
    (de : TxDestinationEntry P) :
    TxOutV P → Prop
  | bare (legacy : version ≤ transactionVersionPreHf4)
      (native : de.assetId = prim.nativeCoinAssetId)
      (addresses : List (AccountPublicAddress P))
      (all : de.addr.mapM AddressV.account? = some addresses)
      (target : TxOutTarget P)
      (keys : ∀ addr derivation,
        lookupOut prim addr derivation outputIndex (.bare de.amount target) =
        some (ownBareOut prim addr derivation outputIndex de.amount
          (addresses.map (bareTargetKey prim txKeySec outputIndex)))) :
      MadeOut prim version txKeySec outputIndex de (.bare de.amount target)
  | burnt (apa : AccountPublicAddress P) (isAddr : de.addr = [.account apa])
      (burns : apa.burns = true) (zo : TxOutZarcanum P) (hidden : zo.stealthAddress = none) :
      MadeOut prim version txKeySec outputIndex de (.zarcanum zo)
  | zarcanum (current : transactionVersionPreHf4 < version) (apa : AccountPublicAddress P)
      (isAddr : de.addr = [.account apa]) (burns : apa.burns = false)
      (explicit : de.explicitNativeAssetId = true →
        de.assetId = prim.nativeCoinAssetId) (mixAttr : UInt8) :
      MadeOut prim version txKeySec outputIndex de
        (.zarcanum (hideOutput prim version (outputSecret prim txKeySec outputIndex apa)
          (prim.hs .outAmountBlindingMask (outputSecret prim txKeySec outputIndex apa))
          (oneTimeKey prim txKeySec outputIndex apa)
          (some (prim.hs .outConcealingPoint (outputSecret prim txKeySec outputIndex apa) •
            prim.toPoint apa.viewPublicKey))
          mixAttr de))
  | gateway (gwa : PublicKey P) (isAddr : de.addr = [.gateway gwa]) (amount : UInt64)
      (assetId : PublicKey P) (paymentId : UInt64) :
        MadeOut prim version txKeySec outputIndex de (.gateway gwa amount assetId paymentId)

theorem OutFor.made {version : ℕ} {txKeySec : F} {outputIndex : ℕ} {de : TxDestinationEntry P}
    {out : TxOutV P} (outFor : OutFor prim version txKeySec outputIndex de out) :
    MadeOut prim version txKeySec outputIndex de out := by
  obtain ⟨txOutsAttr, derivCache, derivCache', made⟩ := outFor
  rw [constructTxOut] at made
  split at made
  next current =>
    split at made
    next apa isAddr =>
      rw [constructTxOutZarcanum] at made
      split at made
      · cases made
      next explicit =>
      rw [not_and, not_not] at explicit
      split at made
      next burns =>
        cases made
        exact .burnt apa isAddr burns _ rfl
      next burns =>
        cases made
        exact .zarcanum current apa isAddr (Bool.eq_false_iff.mpr burns) explicit _
    next gwa isAddr =>
      split at made
      · cases made
        exact .gateway gwa isAddr _ _ _
      · cases made
    · cases made
  next legacy =>
    rw [constructTxOutBare] at made
    split at made
    · cases made
    split at made
    · cases made
    next native =>
    obtain ⟨addresses, all, isOut⟩ := Option.map_eq_some_iff.mp made
    cases isOut
    refine .bare (Nat.le_of_not_lt legacy) (not_not.mp native) addresses all _ fun addr
      derivation => ?_
    split <;> rfl

/-- What the lookup reports of an output that is found. -/
def Reports (info : WalletOutInfo F P) (outputIndex : ℕ) (de : TxDestinationEntry P) : Prop :=
  info.index = outputIndex ∧ info.amount = de.amount ∧ info.assetId = de.assetId ∧
    info.paymentId = de.paymentId

omit [DecidableEq P] in
theorem bareTargetKey_of_not_burns {apa : AccountPublicAddress P} (burns : apa.burns = false)
    (txKeySec : F) (outputIndex : ℕ) :
    bareTargetKey prim txKeySec outputIndex apa = oneTimeKey prim txKeySec outputIndex apa := by
  rw [bareTargetKey, burns, if_neg Bool.false_ne_true, oneTimeKey]

theorem isOutToAccZarcanum_of_sameKeys {apa addr : AccountPublicAddress P}
    (same : SameKeys apa addr) {txKeySec : F} {outputIndex : ℕ} {zo : TxOutZarcanum P}
    (stealth : zo.stealthAddress = oneTimeKey prim txKeySec outputIndex apa)
    (concealing : zo.concealingPoint =
      some (prim.hs .outConcealingPoint (outputSecret prim txKeySec outputIndex apa) •
        prim.toPoint apa.viewPublicKey))
    {d : DecodedOutput F P}
    (decoded : decodeOutputData prim zo (outputSecret prim txKeySec outputIndex apa) = some d) :
    isOutToAccZarcanum prim addr zo (prim.generateKeyDerivation txKeySec addr.viewPublicKey)
      outputIndex = some d := by
  have secret :
      prim.derivationToScalar (prim.generateKeyDerivation txKeySec addr.viewPublicKey) outputIndex =
      outputSecret prim txKeySec outputIndex apa := by
    rw [outputSecret, same.2]
  have isStealth : some (outputSecret prim txKeySec outputIndex apa • prim.G +
      prim.toPoint addr.spendPublicKey) =
      zo.stealthAddress := by
    rw [stealth, ← same.1]
    rfl
  have isConcealing : prim.hs .outConcealingPoint (outputSecret prim txKeySec outputIndex apa) •
      ((8 : ℕ) • prim.toPoint addr.viewPublicKey) = (8 : ℕ) • prim.toPoint zo.concealingPoint := by
    rw [concealing, ← same.2, smul_comm]
    rfl
  rw [isOutToAccZarcanum, secret, decoded]
  simp [isStealth, isConcealing]

theorem lookupOut_zarcanum {addr : AccountPublicAddress P} {derivation : P} {outputIndex : ℕ}
    {zo : TxOutZarcanum P} {d : DecodedOutput F P}
    (isOut : isOutToAccZarcanum prim addr zo derivation outputIndex = some d) :
    lookupOut prim addr derivation outputIndex (.zarcanum zo) =
      some (some ⟨outputIndex, d.amount, d.amountBlindingMask, d.assetIdBlindingMask,
        some ((8 : ℕ) • prim.toPoint zo.blindedAssetId - d.assetIdBlindingMask • prim.X),
          d.paymentId⟩) := by
  rw [lookupOut, isOut, Option.map_some]

theorem MadeOut.found {version : ℕ} {txKeySec : F} {outputIndex : ℕ} {de : TxDestinationEntry P}
    {out : TxOutV P} (made : MadeOut prim version txKeySec outputIndex de out)
    {addr : AccountPublicAddress P} (burns : addr.burns = false) (addressed : AddressedTo addr de)
    (readable : ∀ apa, AddressV.account apa ∈ de.addr → SameKeys apa addr →
      Readable prim version txKeySec outputIndex de apa) :
    ∃ info, lookupOut prim addr (prim.generateKeyDerivation txKeySec addr.viewPublicKey)
      outputIndex out =
    some (some info) ∧
      Reports info outputIndex de := by
  obtain ⟨apa, isDestination, same⟩ := addressed
  have apaBurns : apa.burns = false := same.burns.trans burns
  have isReadable := readable apa isDestination same
  have sameKey :
      oneTimeKey prim txKeySec outputIndex apa = oneTimeKey prim txKeySec outputIndex addr :=
    same.oneTimeKey txKeySec outputIndex
  cases made with
  | bare legacy native addresses all target keys =>
      have inside : oneTimeKey prim txKeySec outputIndex addr ∈
          addresses.map (bareTargetKey prim txKeySec outputIndex) := by
        rw [List.mem_map]
        exact ⟨apa, (mem_of_mapM_account all apa).mpr isDestination,
          (bareTargetKey_of_not_burns apaBurns _ _).trans sameKey⟩
      have own : isOutToAccBare prim addr (addresses.map (bareTargetKey prim txKeySec outputIndex))
          (prim.generateKeyDerivation txKeySec addr.viewPublicKey) outputIndex = true :=
            decide_eq_true inside
      refine ⟨_, (keys addr _).trans (congrArg some (if_pos own)), rfl, rfl, native.symm, ?_⟩
      have notCurrent : ¬transactionVersionPostHf6 ≤ version := by
        simp only [transactionVersionPostHf6, transactionVersionPreHf4] at legacy ⊢
        omega
      exact (isReadable.payment.resolve_right fun both => notCurrent both.1).symm
  | burnt burnt isAddr burnsMoney zo hidden =>
      rw [isAddr, List.mem_singleton, AddressV.account.injEq] at isDestination
      rw [← isDestination, apaBurns] at burnsMoney
      cases burnsMoney
  | gateway gwa isAddr amount assetId paymentId =>
      rw [isAddr, List.mem_singleton] at isDestination
      cases isDestination
  | zarcanum current own isAddr ownBurns explicit mixAttr =>
      rw [isAddr, List.mem_singleton, AddressV.account.injEq] at isDestination
      subst isDestination
      obtain ⟨id, isId, asset⟩ := isReadable.asset current
      have native : de.explicitNativeAssetId = true → id = prim.nativeCoinAssetIdPt := by
        intro isExplicit
        exact Option.some.inj (isId.symm.trans (explicit isExplicit))
      obtain ⟨d, decoded, amount, payment, isAsset⟩ :=
        @decodeOutputData_hideOutput F P _ _ _ prim _ version
        (outputSecret prim txKeySec outputIndex apa) (oneTimeKey prim txKeySec outputIndex apa)
        (some (prim.hs .outConcealingPoint (outputSecret prim txKeySec outputIndex apa) •
          prim.toPoint apa.viewPublicKey))
        mixAttr de id isId native isReadable.payment asset
      have own := isOutToAccZarcanum_of_sameKeys same rfl rfl decoded
      exact ⟨_, lookupOut_zarcanum own, rfl, amount,
        (congrArg some isAsset).trans isId.symm, payment⟩

/-- What is found has the one-time key of one of the addresses. -/
theorem MadeOut.own {version : ℕ} {txKeySec : F} {outputIndex : ℕ} {de : TxDestinationEntry P}
    {out : TxOutV P} (made : MadeOut prim version txKeySec outputIndex de out)
    (addr : AccountPublicAddress P) :
    ∃ found, lookupOut prim addr (prim.generateKeyDerivation txKeySec addr.viewPublicKey)
      outputIndex out = some found ∧
      ∀ info ∈ found, info.index = outputIndex ∧
        (AddressedTo addr de ∨ KeyCollision prim txKeySec addr outputIndex de) := by
  have either : ∀ apa, AddressV.account apa ∈ de.addr →
      oneTimeKey prim txKeySec outputIndex apa = oneTimeKey prim txKeySec outputIndex addr →
        AddressedTo addr de ∨ KeyCollision prim txKeySec addr outputIndex de := by
    intro apa isAddress isKey
    by_cases same : SameKeys apa addr
    · exact .inl ⟨apa, isAddress, same⟩
    · exact .inr ⟨apa, isAddress, same, isKey⟩
  cases made with
  | bare legacy native addresses all target keys =>
      refine ⟨_, keys addr _, fun info isInfo => ?_⟩
      rw [ownBareOut, Option.mem_def] at isInfo
      split at isInfo
      next own =>
        cases isInfo
        obtain ⟨apa, isAddress, isKey⟩ := List.mem_map.mp (of_decide_eq_true own)
        rw [bareTargetKey] at isKey
        split at isKey
        · cases isKey
        · exact ⟨rfl, either apa ((mem_of_mapM_account all apa).mp isAddress) isKey⟩
      · cases isInfo
  | burnt apa isAddr burns zo hidden =>
      refine ⟨_, rfl, fun info isInfo => ?_⟩
      obtain ⟨d, isOut, -⟩ := Option.map_eq_some_iff.mp isInfo
      rw [isOutToAccZarcanum, Option.filter_eq_some_iff, hidden] at isOut
      simp at isOut
  | gateway gwa isAddr amount assetId paymentId => exact ⟨none, rfl, nofun⟩
  | zarcanum current apa isAddr burns explicit mixAttr =>
      refine ⟨_, rfl, fun info isInfo => ?_⟩
      obtain ⟨d, isOut, rfl⟩ := Option.map_eq_some_iff.mp isInfo
      rw [isOutToAccZarcanum, Option.filter_eq_some_iff] at isOut
      have stealth := of_decide_eq_true (Bool.and_eq_true_iff.mp isOut.2).1
      refine ⟨rfl, either apa ?_ stealth.symm⟩
      rw [isAddr]
      exact List.mem_singleton.mpr rfl

/-! ## All outputs -/

/-- Everything that is addressed to the account is found, once and with its data, and nothing else
is, unless the keys collide. -/
structure FindsOwn (prim : Primitives F P) (txKeySec : F) (addr : AccountPublicAddress P)
    (first : ℕ)
    (destinations : List (TxDestinationEntry P)) (infos : List (WalletOutInfo F P)) : Prop where
  once : (infos.map (·.index)).Pairwise (· < ·)
  all : ∀ i de, destinations[i]? = some de → AddressedTo addr de →
    ∃ info ∈ infos, Reports info (first + i) de
  own : ∀ info ∈ infos, ∃ i de, info.index = first + i ∧ destinations[i]? = some de ∧
    (AddressedTo addr de ∨ KeyCollision prim txKeySec addr info.index de)

/-- The outputs were made for the destinations, from this index on. -/
def OutsFor (prim : Primitives F P) (version : ℕ) (txKeySec : F) (first : ℕ)
    (destinations : List (TxDestinationEntry P)) (vout : List (TxOutV P)) : Prop :=
  vout.length = destinations.length ∧ ∀ i de out, destinations[i]? = some de → vout[i]? = some out →
    OutFor prim version txKeySec (first + i) de out

def ReadableBy (prim : Primitives F P) (version : ℕ) (txKeySec : F) (addr : AccountPublicAddress P)
    (first : ℕ) (destinations : List (TxDestinationEntry P)) : Prop :=
  ∀ i de, destinations[i]? = some de → ∀ apa, AddressV.account apa ∈ de.addr → SameKeys apa addr →
    Readable prim version txKeySec (first + i) de apa

theorem OutsFor.tail {version : ℕ} {txKeySec : F} {first : ℕ} {de : TxDestinationEntry P}
    {destinations : List (TxDestinationEntry P)} {out : TxOutV P} {vout : List (TxOutV P)}
    (outsFor : OutsFor prim version txKeySec first (de :: destinations) (out :: vout)) :
    OutFor prim version txKeySec first de out ∧
      OutsFor prim version txKeySec (first + 1) destinations vout := by
  refine ⟨outsFor.2 0 de out rfl rfl, Nat.succ.inj outsFor.1, fun i other isOther isDe isOut => ?_⟩
  have later := outsFor.2 (i + 1) other isOther isDe isOut
  rwa [← Nat.add_assoc, Nat.add_right_comm] at later

theorem lookupOuts_finds {version : ℕ} {txKeySec : F} {first : ℕ}
    {destinations : List (TxDestinationEntry P)} {vout : List (TxOutV P)}
    (outsFor : OutsFor prim version txKeySec first destinations vout)
    {addr : AccountPublicAddress P} (burns : addr.burns = false)
    (readable : ReadableBy prim version txKeySec addr first destinations) :
    ∃ infos, lookupOuts prim addr (prim.generateKeyDerivation txKeySec addr.viewPublicKey)
      first vout = some infos ∧
      FindsOwn prim txKeySec addr first destinations infos := by
  induction vout generalizing first destinations with
  | nil =>
      have none : destinations = [] := List.eq_nil_of_length_eq_zero outsFor.1.symm
      refine ⟨[], rfl, .nil, ?_, nofun⟩
      intro i de isDe
      rw [none] at isDe
      cases isDe
  | cons out vout inductionHypothesis =>
      cases destinations with
      | nil => cases outsFor.1
      | cons de destinations =>
          obtain ⟨outFor, later⟩ := outsFor.tail
          have laterReadable : ReadableBy prim version txKeySec addr (first + 1) destinations := by
            intro i other isDe apa isAddress same
            have isReadable := readable (i + 1) other isDe apa isAddress same
            rwa [← Nat.add_assoc, Nat.add_right_comm] at isReadable
          obtain ⟨infos, isLookup, finds⟩ := inductionHypothesis later laterReadable
          obtain ⟨found, isFound, own⟩ := outFor.made.own addr
          refine ⟨found.toList ++ infos, ?_, ?_, ?_, ?_⟩
          · rw [lookupOuts, isFound, Option.bind_some, isLookup, Option.map_some]
          · rw [List.map_append, List.pairwise_append]
            refine ⟨by cases found <;> simp, finds.once, fun index isFirst other isLater => ?_⟩
            obtain ⟨info, isInfo, rfl⟩ := List.mem_map.mp isFirst
            obtain ⟨laterInfo, isLaterInfo, rfl⟩ := List.mem_map.mp isLater
            have atFirst := (own info (Option.mem_toList.mp isInfo)).1
            obtain ⟨i, -, isIndex, -⟩ := finds.own laterInfo isLaterInfo
            omega
          · intro i other isDe addressed
            cases i with
            | zero =>
                cases isDe
                obtain ⟨info, isOwn, reports⟩ :=
                  outFor.made.found burns addressed fun apa isAddress same =>
                  readable 0 de rfl apa isAddress same
                rw [isFound] at isOwn
                cases isOwn
                exact ⟨info, by simp, reports⟩
            | succ i =>
                obtain ⟨info, isInfo, reports⟩ := finds.all i other isDe addressed
                rw [Nat.add_right_comm] at reports
                exact ⟨info, List.mem_append_right _ isInfo, reports⟩
          · intro info isInfo
            rcases List.mem_append.mp isInfo with isFirst | isLater
            · obtain ⟨atFirst, either⟩ := own info (Option.mem_toList.mp isFirst)
              exact ⟨0, de, atFirst, rfl, atFirst ▸ either⟩
            · obtain ⟨i, other, isIndex, isDe, either⟩ := finds.own info isLater
              exact ⟨i + 1, other, by omega, isDe, either⟩

end Zano.Transactions.Outputs
