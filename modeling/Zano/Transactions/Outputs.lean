import Mathlib

/-! # Outputs and their derivation hints

A transaction is built for a list of destinations, at once or in several calls that append to it.
Each output can be recognized only with the view key of its address, by a shared secret of that key
and the key of the transaction, and the extra entries have a hint of 16 bits for each of these
secrets, so that a wallet can pass over a transaction without looking at its outputs.

Scalars and points are those of any module in which 8 can be divided by. The inputs, signatures and
proofs, and the extra entries that are neither a key, a hint nor an asset operation, are only
modelled as far as the outputs depend on them.
-/

namespace Zano.Transactions.Outputs

variable {F P : Type*}

/-- `none` is `null_pkey`, which is no multiple of the generators. -/
abbrev PublicKey (P : Type*) := Option P

structure AccountPublicAddress (P : Type*) where
  spendPublicKey : PublicKey P
  viewPublicKey : PublicKey P
  isAuditable : Bool
  deriving DecidableEq

inductive AddressV (P : Type*) where
  | account (apa : AccountPublicAddress P)
  | gateway (id : PublicKey P)
  deriving DecidableEq

/-- The two flags that are read are fields of their own. -/
structure TxDestinationEntry (P : Type*) where
  amount : UInt64
  addr : List (AddressV P)
  minimumSigs : ℕ
  assetId : PublicKey P
  explicitNativeAssetId : Bool
  zeroAmountBlindingMask : Bool
  paymentId : UInt64
  deriving DecidableEq

inductive TxOutTarget (P : Type*) where
  | toKey (key : PublicKey P) (mixAttr : UInt8)
  | multisig (minimumSigs : ℕ) (keys : List (PublicKey P))
  | htlc
  deriving DecidableEq

structure TxOutZarcanum (P : Type*) where
  stealthAddress : PublicKey P
  concealingPoint : PublicKey P
  amountCommitment : PublicKey P
  blindedAssetId : PublicKey P
  encryptedAmount : UInt64
  mixAttr : UInt8
  encryptedPaymentId : UInt64
  deriving DecidableEq

inductive TxOutV (P : Type*) where
  | bare (amount : UInt64) (target : TxOutTarget P)
  | zarcanum (out : TxOutZarcanum P)
  | gateway (gatewayAddr : PublicKey P) (amount : UInt64) (assetId : PublicKey P)
    (paymentId : UInt64)
  deriving DecidableEq

inductive TxinV where
  | gen (height : ℕ)
  | toKey
  | multisig
  | zcInput
  | gateway
  deriving DecidableEq

inductive AssetOperationType where
  | undefined
  | register
  | emit
  | update
  | publicBurn
  deriving DecidableEq

/-- `assetId` is what `get_or_calculate_asset_id` answers. -/
structure AssetDescriptorOperation (P : Type*) where
  operationType : AssetOperationType
  assetId : Option P
  deriving DecidableEq

inductive ExtraV (P : Type*) where
  | publicKey (key : PublicKey P)
  | txDerivationHint (msg : List UInt8)
  | assetDescriptorOperation (ado : AssetDescriptorOperation P)
  | other
  deriving DecidableEq

structure Transaction (P : Type*) where
  version : ℕ
  vin : List TxinV
  vout : List (TxOutV P)
  extra : List (ExtraV P)
  deriving DecidableEq

def Transaction.empty : Transaction P := ⟨0, [], [], []⟩

def transactionVersionPreHf4 : ℕ := 1

def transactionVersionPostHf4 : ℕ := 2

def transactionVersionPostHf6 : ℕ := 4

def currencyTxMaxAllowedInputs : ℕ := 256

def currencyTxMaxAllowedOuts : ℕ := 32

def currencyTxMaxAllowedOutsPreHf4 : ℕ := 2000

/-- `CURRENCY_TO_KEY_OUT_FORCED_NO_MIX` -/
def forcedNoMix : UInt8 := 1

/-! ## Keys -/

inductive HashDomain where
  | outConcealingPoint
  | outAmountMask
  | outAssetBlindingMask
  | outAmountBlindingMask
  | gwOutAmountMask
  deriving DecidableEq

/-- The curve and the hash functions. `nullPoint` is what `null_pkey` decodes to, and `mU64` are the
words of a scalar. -/
structure Primitives (F P : Type*) [CommRing F] [AddCommGroup P] [Module F P] where
  G : P
  X : P
  nullPoint : P
  nativeCoinAssetIdPt : P
  scalar1div8 : F
  eight_mul : (8 : ℕ) * scalar1div8 = 1
  derivationToScalar : P → ℕ → F
  hsKeyAndIndex : F → ℕ → F
  hs : HashDomain → F → F
  mU64 : F → ℕ → UInt64
  blake2Hash : P → List UInt16

section

variable [CommRing F] [AddCommGroup P] [Module F P]

namespace Primitives

variable (prim : Primitives F P)

def toPoint (key : PublicKey P) : P := key.getD prim.nullPoint

def nativeCoinAssetId : PublicKey P := some prim.nativeCoinAssetIdPt

/-- `generate_key_derivation`: eight times the secret key times the other's public key. -/
def generateKeyDerivation (secret : F) (key : PublicKey P) : P := 8 • (secret • prim.toPoint key)

def derivePublicKey (derivation : P) (index : ℕ) (key : PublicKey P) : PublicKey P :=
  some (prim.derivationToScalar derivation index • prim.G + prim.toPoint key)

def getDerivationHint (derivation : P) : UInt16 := (prim.blake2Hash derivation).foldl (· ^^^ ·) 0

/-- A key as it is stored, divided by eight. -/
def div8 (point : P) : PublicKey P := some (prim.scalar1div8 • point)

end Primitives

/-- The bytes of a hint, the low one first. -/
def makeTxDerivationHintFromUint16 (hint : UInt16) : List UInt8 :=
  [UInt8.ofNat (hint.toNat % 256), UInt8.ofNat (hint.toNat / 256)]

def getUint16FromTxDerivationHint : List UInt8 → Option UInt16
  | [low, high] => some (UInt16.ofNat (low.toNat + 256 * high.toNat))
  | _ => none

/-- A set of hints is the sorted list of its members. -/
def insertHint (hints : List UInt16) (hint : UInt16) : List UInt16 :=
  if hint ∈ hints then hints else hints.orderedInsert (· ≤ ·) hint

def AccountPublicAddress.burns (apa : AccountPublicAddress P) : Bool :=
  apa.spendPublicKey.isNone && apa.viewPublicKey.isNone

def AddressV.account? : AddressV P → Option (AccountPublicAddress P)
  | .account apa => some apa
  | .gateway _ => none

/-! ## One output -/

/-- The hint of an address, unless money is burnt. -/
def addressHint (prim : Primitives F P) (txKeySec : F)
    (apa : AccountPublicAddress P) : Option UInt16 :=
  if apa.burns then none
  else some (prim.getDerivationHint (prim.generateKeyDerivation txKeySec apa.viewPublicKey))

def bareTargetKey (prim : Primitives F P) (txKeySec : F) (outputIndex : ℕ)
    (apa : AccountPublicAddress P) : PublicKey P :=
  if apa.burns then none
  else prim.derivePublicKey (prim.generateKeyDerivation txKeySec apa.viewPublicKey) outputIndex
    apa.spendPublicKey

variable [DecidableEq P]

def constructTxOutBare (prim : Primitives F P) (txKeySec : F) (txOutsAttr : UInt8)
    (de : TxDestinationEntry P) (outputIndex : ℕ) (derivCache : List UInt16) :
    Option (TxOutV P × List UInt16) :=
  if ¬(de.addr.length = 1 ∨ (1 < de.addr.length ∧ de.minimumSigs ≤ de.addr.length)) then none
  else if de.assetId ≠ prim.nativeCoinAssetId then none
  else
    (de.addr.mapM AddressV.account?).map fun addresses =>
      let target :=
        match addresses with
        | [apa] => TxOutTarget.toKey (bareTargetKey prim txKeySec outputIndex apa)
            (if apa.isAuditable then forcedNoMix else txOutsAttr)
        | _ =>
            TxOutTarget.multisig de.minimumSigs
              (addresses.map (bareTargetKey prim txKeySec outputIndex))
      (.bare de.amount target,
        (addresses.filterMap (addressHint prim txKeySec)).foldl insertHint derivCache)

/-- What the amount, the asset and the payment id are hidden with: `h` is a hash of the shared
secret and the index. -/
def hideOutput (prim : Primitives F P) (version : ℕ) (h amountBlindingMask : F)
    (stealthAddress concealingPoint : PublicKey P) (mixAttr : UInt8)
    (de : TxDestinationEntry P) : TxOutZarcanum P :=
  let amountMask := prim.hs .outAmountMask h
  let assetBlindingMask := if de.explicitNativeAssetId then 0 else prim.hs .outAssetBlindingMask h
  let blindedAssetId := prim.toPoint de.assetId + assetBlindingMask • prim.X
  let amountCommitment := de.amount.toNat • blindedAssetId + amountBlindingMask • prim.G
  { stealthAddress := stealthAddress
    concealingPoint := concealingPoint
    amountCommitment := prim.div8 amountCommitment
    blindedAssetId := prim.div8 blindedAssetId
    encryptedAmount := de.amount ^^^ prim.mU64 amountMask 0
    mixAttr := mixAttr
    encryptedPaymentId :=
      if transactionVersionPostHf6 ≤ version then de.paymentId ^^^ prim.mU64 amountMask 1 else 0 }

def constructTxOutZarcanum (prim : Primitives F P) (version : ℕ) (txKeySec : F) (txOutsAttr : UInt8)
    (de : TxDestinationEntry P) (apa : AccountPublicAddress P) (outputIndex : ℕ)
    (derivCache : List UInt16) :
    Option (TxOutV P × List UInt16) :=
  if de.explicitNativeAssetId ∧ de.assetId ≠ prim.nativeCoinAssetId then none
  else if apa.burns then
    let h := prim.hsKeyAndIndex txKeySec outputIndex
    let amountBlindingMask :=
      if de.zeroAmountBlindingMask then 0 else prim.hs .outAmountBlindingMask h
    some (.zarcanum (hideOutput prim version h amountBlindingMask none none txOutsAttr de),
      derivCache)
  else
    let derivation := prim.generateKeyDerivation txKeySec apa.viewPublicKey
    let h := prim.derivationToScalar derivation outputIndex
    some
      (.zarcanum (hideOutput prim version h (prim.hs .outAmountBlindingMask h)
        (some (h • prim.G + prim.toPoint apa.spendPublicKey))
        (some (prim.hs .outConcealingPoint h • prim.toPoint apa.viewPublicKey))
        (if apa.isAuditable then forcedNoMix else txOutsAttr) de),
        insertHint derivCache (prim.getDerivationHint derivation))

def constructTxOutGateway (prim : Primitives F P) (txKeySec : F) (de : TxDestinationEntry P)
    (gwa : PublicKey P) (outputIndex : ℕ) : TxOutV P :=
  let h := prim.derivationToScalar (prim.generateKeyDerivation txKeySec gwa) outputIndex
  .gateway gwa de.amount (prim.div8 (prim.toPoint de.assetId))
    (de.paymentId ^^^ prim.mU64 (prim.hs .gwOutAmountMask h) 1)

def constructTxOut (prim : Primitives F P) (version : ℕ) (txKeySec : F) (txOutsAttr : UInt8)
    (de : TxDestinationEntry P) (outputIndex : ℕ) (derivCache : List UInt16) :
    Option (TxOutV P × List UInt16) :=
  if transactionVersionPreHf4 < version then
    match de.addr with
    | [.account apa] =>
        constructTxOutZarcanum prim version txKeySec txOutsAttr de apa outputIndex derivCache
    | [.gateway gwa] =>
        if transactionVersionPostHf6 ≤ version then
          some (constructTxOutGateway prim txKeySec de gwa outputIndex, derivCache)
        else none
    | _ => none
  else constructTxOutBare prim txKeySec txOutsAttr de outputIndex derivCache

/-- The loop over the destinations. -/
def constructTxOuts (prim : Primitives F P) (version : ℕ) (txKeySec : F) (txOutsAttr : UInt8) :
    ℕ → List (TxDestinationEntry P) → List UInt16 → Option (List (TxOutV P) × List UInt16)
  | _, [], derivCache => some ([], derivCache)
  | outputIndex, de :: dsts, derivCache =>
      (constructTxOut prim version txKeySec txOutsAttr de outputIndex
          derivCache).bind fun (out, derivCache) =>
        (constructTxOuts prim version txKeySec txOutsAttr (outputIndex + 1) dsts
            derivCache).map fun (outs, derivCache) =>
          (out :: outs, derivCache)

/-! ## Hints -/

def hintMsg? : ExtraV P → Option (List UInt8)
  | .txDerivationHint msg => some msg
  | _ => none

/-- It fails at a hint that is not of two bytes, and at one that comes twice. -/
def copyAllDerivationHintsFromTxToContainer (extra : List (ExtraV P)) : Option (List UInt16) :=
  (extra.filterMap hintMsg?).foldlM
    (fun hints msg =>
      (getUint16FromTxDerivationHint msg).bind fun hint => if hint ∈ hints then none
        else some (insertHint hints hint))
    []

/-- The loop that draws hints, with the turns that are left to it. -/
def drawHints (rand : ℕ → UInt16) (existing : List UInt16) (hintsToBeAdded : ℕ) :
    ℕ → List UInt16 → Option (List UInt16)
  | turns, hints =>
      if hints.length < hintsToBeAdded then
        match turns with
        | 0 => none
        | turns + 1 =>
            drawHints rand existing hintsToBeAdded turns
              (if rand turns ∈ existing then hints else insertHint hints (rand turns))
      else some hints

/-- The hints that are put to the transaction. -/
def addRandomDerivationHints (version : ℕ) (separate : Bool) (voutSize : ℕ) (rand : ℕ → UInt16)
    (existing newHints : List UInt16) : Option (List UInt16) :=
  if voutSize < existing.length then
    if version < transactionVersionPostHf4 ∧ separate then some [] else none
  else drawHints rand existing (voutSize - existing.length) 4095 newHints

/-! ## The whole transaction -/

inductive TxSourceKind (P : Type*) where
  | toKey
  | multisig
  | zc (blindedAssetIds : List (PublicKey P))
  | gateway

structure TxSourceEntry (P : Type*) where
  kind : TxSourceKind P
  amount : UInt64
  assetId : PublicKey P

def TxSourceEntry.input (se : TxSourceEntry P) : TxinV :=
  match se.kind with
  | .toKey => .toKey
  | .multisig => .multisig
  | .zc _ => .zcInput
  | .gateway => .gateway

/-- The parameters of `construct_tx`, with what it draws at random: the secret key of the
transaction, the order of the outputs, and the hints that are made up. -/
structure FinalizeTxParam (F P : Type*) where
  txVersion : ℕ
  sources : List (TxSourceEntry P)
  preparedDestinations : List (TxDestinationEntry P)
  extra : List (ExtraV P)
  txOutsAttr : UInt8
  separate : Bool
  generated : F
  shuffle : List (TxDestinationEntry P) → List (TxDestinationEntry P)
  shuffle_perm : ∀ dsts, (shuffle dsts).Perm dsts
  rand : ℕ → UInt16

def inputIsObviouslyNativeCoins (prim : Primitives F P) (se : TxSourceEntry P) : Bool :=
  match se.kind with
  | .zc blindedAssetIds =>
      blindedAssetIds.all fun id => (8 : ℕ) • prim.toPoint id = prim.nativeCoinAssetIdPt
  | .gateway => se.assetId = prim.nativeCoinAssetId
  | _ => true

/-- The amount that is burnt, or a throw when the destinations have more of the asset
than the sources. -/
def burnedAmount (assetId : P) (p : FinalizeTxParam F P) : Option UInt64 :=
  p.preparedDestinations.foldlM
    (fun left de =>
      if de.assetId ≠ some assetId then some left
      else if left < de.amount then none
      else some (left - de.amount))
    ((p.sources.filter fun se => se.assetId = some assetId).map (·.amount)).sum

/-- The destinations of the emitted asset get its id. With them comes the asset id of the operation,
if it has one. -/
def constructTxHandleAdo (p : FinalizeTxParam F P) (ado : AssetDescriptorOperation P) :
    Option (List (TxDestinationEntry P) × PublicKey P) :=
  let emitted := ado.assetId.map fun id =>
    (p.preparedDestinations.map fun de =>
      if de.assetId = none then { de with assetId := some id } else de, some id)
  match ado.operationType with
  | .register => emitted
  | .emit => emitted
  | .publicBurn =>
      ado.assetId.bind fun id => (burnedAmount id p).map fun _ => (p.preparedDestinations, some id)
  | .update => if ado.assetId.isSome then some (p.preparedDestinations, none) else none
  | .undefined => some (p.preparedDestinations, none)

def ado? : ExtraV P → Option (AssetDescriptorOperation P)
  | .assetDescriptorOperation ado => some ado
  | _ => none

/-- The destinations in the order of their outputs, with the asset ids and flags that they get. -/
def shuffledDsts (prim : Primitives F P) (p : FinalizeTxParam F P) (tx : Transaction P) :
    Option (List (TxDestinationEntry P)) :=
  let operation := if transactionVersionPreHf4 < tx.version then tx.extra.findSome? ado? else none
  let handled :=
    match operation with
    | some ado => constructTxHandleAdo p ado
    | none => some (p.preparedDestinations, none)
  handled.map fun (dsts, aoAssetId) =>
    let explicit :=
      !p.separate && p.sources.all (inputIsObviouslyNativeCoins prim) && aoAssetId.isNone
    (p.shuffle dsts).map fun de =>
      { de with explicitNativeAssetId := de.explicitNativeAssetId || explicit }

def publicKey? : ExtraV P → Option (PublicKey P)
  | .publicKey key => some key
  | _ => none

def getTxPubKeyFromExtra (tx : Transaction P) : PublicKey P :=
  (tx.extra.findSome? publicKey?).getD none

def FinalizeTxParam.appends (p : FinalizeTxParam F P) (tx : Transaction P) : Bool :=
  p.separate && !tx.vin.isEmpty

/-- The transaction before its new outputs, and the secret key of it. -/
def prepareTx [DecidableEq F] (prim : Primitives F P) (p : FinalizeTxParam F P) (tx : Transaction P)
    (oneTimeKey : F) :
    Option (Transaction P × F) :=
  let inputs := p.sources.map TxSourceEntry.input
  if p.appends tx then
    if getTxPubKeyFromExtra tx = none ∨ oneTimeKey = 0 then none
    else some ({ tx with vin := tx.vin ++ inputs, extra := tx.extra ++ p.extra }, oneTimeKey)
  else
    some (⟨p.txVersion, inputs, [], p.extra ++ [.publicKey (some (p.generated • prim.G))]⟩,
      p.generated)

/-- The outputs for the destinations and the hints for them. -/
def addOuts (prim : Primitives F P) (p : FinalizeTxParam F P) (key : F)
    (dsts : List (TxDestinationEntry P)) (tx : Transaction P) : Option (Transaction P) :=
  (copyAllDerivationHintsFromTxToContainer tx.extra).bind fun existing =>
    (constructTxOuts prim tx.version key p.txOutsAttr tx.vout.length
        dsts []).bind fun (outs, newHints) =>
      let voutSize := tx.vout.length + outs.length
      (addRandomDerivationHints tx.version p.separate voutSize p.rand existing
          newHints).map fun hints =>
        { tx with
          vout := tx.vout ++ outs
          extra := tx.extra ++ hints.map fun hint =>
            .txDerivationHint (makeTxDerivationHintFromUint16 hint) }

def maxAllowedOuts (txVersion : ℕ) : ℕ :=
  if transactionVersionPostHf4 ≤ txVersion then currencyTxMaxAllowedOuts
  else currencyTxMaxAllowedOutsPreHf4

def constructTx [DecidableEq F] (prim : Primitives F P) (p : FinalizeTxParam F P)
    (tx : Transaction P) (oneTimeKey : F) :
    Option (Transaction P × F) :=
  if currencyTxMaxAllowedInputs < p.sources.length ∨
    maxAllowedOuts p.txVersion < p.preparedDestinations.length then none
  else
    (prepareTx prim p tx oneTimeKey).bind fun (tx, key) =>
      (shuffledDsts prim p tx).bind fun dsts => (addOuts prim p key dsts tx).map fun tx => (tx, key)

/-! ## Looking for outputs -/

structure AccountKeys (F P : Type*) where
  accountAddress : AccountPublicAddress P
  viewSecretKey : F

structure WalletOutInfo (F P : Type*) where
  index : ℕ
  amount : UInt64
  amountBlindingMask : F
  assetIdBlindingMask : F
  assetId : PublicKey P
  paymentId : UInt64
  deriving DecidableEq

/-- The genesis block: the key of its transaction, and where in it an address has its output. -/
structure Genesis (P : Type*) where
  txPubKey : PublicKey P
  offsetByAddress : AccountPublicAddress P → Option ℕ

structure DecodedOutput (F P : Type*) where
  amount : UInt64
  paymentId : UInt64
  assetId : PublicKey P
  amountBlindingMask : F
  assetIdBlindingMask : F

def decodeOutputData (prim : Primitives F P) (zo : TxOutZarcanum P) (h : F) :
    Option (DecodedOutput F P) :=
  let amountMask := prim.hs .outAmountMask h
  let decodedAmount := zo.encryptedAmount ^^^ prim.mU64 amountMask 0
  let decodedPaymentId :=
    if zo.encryptedPaymentId ≠ 0 then zo.encryptedPaymentId ^^^ prim.mU64 amountMask 1 else 0
  let amountBlindingMask := prim.hs .outAmountBlindingMask h
  let blindedAssetId := (8 : ℕ) • prim.toPoint zo.blindedAssetId
  let aPrime := decodedAmount.toNat • blindedAssetId + amountBlindingMask • prim.G
  if aPrime ≠ (8 : ℕ) • prim.toPoint zo.amountCommitment then none
  else if blindedAssetId = prim.nativeCoinAssetIdPt then
    some ⟨decodedAmount, decodedPaymentId, prim.nativeCoinAssetId, amountBlindingMask, 0⟩
  else
    let assetIdBlindingMask := prim.hs .outAssetBlindingMask h
    some ⟨decodedAmount, decodedPaymentId, some (blindedAssetId - assetIdBlindingMask • prim.X),
      amountBlindingMask, assetIdBlindingMask⟩

/-- `is_out_to_acc` of an output with hidden amounts. -/
def isOutToAccZarcanum (prim : Primitives F P) (addr : AccountPublicAddress P)
    (zo : TxOutZarcanum P) (derivation : P) (outputIndex : ℕ) : Option (DecodedOutput F P) :=
  let h := prim.derivationToScalar derivation outputIndex
  (decodeOutputData prim zo h).filter fun _ =>
    decide (some (h • prim.G + prim.toPoint addr.spendPublicKey) = zo.stealthAddress) &&
      decide (prim.hs .outConcealingPoint h • ((8 : ℕ) • prim.toPoint addr.viewPublicKey) =
        (8 : ℕ) • prim.toPoint zo.concealingPoint)

/-- `is_out_to_acc` of the keys of a bare output. -/
def isOutToAccBare (prim : Primitives F P) (addr : AccountPublicAddress P)
    (keys : List (PublicKey P)) (derivation : P) (outputIndex : ℕ) : Bool :=
  prim.derivePublicKey derivation outputIndex addr.spendPublicKey ∈ keys

local instance lawfulBEq_bytes : LawfulBEq (List UInt8) := List.instLawfulBEq

def checkTxDerivationHint (prim : Primitives F P) (tx : Transaction P) (derivation : P) : Bool :=
  let hints := (tx.extra.filterMap hintMsg?).filter fun msg => msg.length = 2
  hints.isEmpty ||
    decide (makeTxDerivationHintFromUint16 (prim.getDerivationHint derivation) ∈ hints)

def ownBareOut (prim : Primitives F P) (addr : AccountPublicAddress P) (derivation : P)
    (outputIndex : ℕ) (amount : UInt64) (keys : List (PublicKey P)) : Option (WalletOutInfo F P) :=
  if isOutToAccBare prim addr keys derivation outputIndex then
    some ⟨outputIndex, amount, 0, 0, prim.nativeCoinAssetId, 0⟩
  else none

/-- What is reported of an output, if anything. The outer `none` is an output of a wrong type. -/
def lookupOut (prim : Primitives F P) (addr : AccountPublicAddress P) (derivation : P)
    (outputIndex : ℕ) :
    TxOutV P → Option (Option (WalletOutInfo F P))
  | .bare _ .htlc => none
  | .bare amount (.toKey key _) => some (ownBareOut prim addr derivation outputIndex amount [key])
  | .bare amount (.multisig _ keys) =>
      some (ownBareOut prim addr derivation outputIndex amount keys)
  | .zarcanum zo =>
      some ((isOutToAccZarcanum prim addr zo derivation outputIndex).map fun d =>
        let assetIdPt := (8 : ℕ) • prim.toPoint zo.blindedAssetId - d.assetIdBlindingMask • prim.X
        ⟨outputIndex, d.amount, d.amountBlindingMask, d.assetIdBlindingMask, some assetIdPt,
          d.paymentId⟩)
  | .gateway .. => some none

/-- The loop over the outputs. -/
def lookupOuts (prim : Primitives F P) (addr : AccountPublicAddress P) (derivation : P) :
    ℕ → List (TxOutV P) → Option (List (WalletOutInfo F P))
  | _, [] => some []
  | outputIndex, out :: vout =>
      (lookupOut prim addr derivation outputIndex out).bind fun info =>
        (lookupOuts prim addr derivation (outputIndex + 1) vout).map fun infos =>
          info.toList ++ infos

def isCoinbase (tx : Transaction P) : Bool :=
  match tx.vin with
  | [.gen _] => true
  | [.gen _, _] => true
  | _ => false

def getBlockHeight (tx : Transaction P) : ℕ :=
  match tx.vin with
  | [.gen height] => height
  | [.gen height, _] => height
  | _ => 0

def lookupAccOutsGenesis (prim : Primitives F P) (genesis : Genesis P) (acc : AccountKeys F P)
    (tx : Transaction P) (derivation : P) : Option (List (WalletOutInfo F P)) :=
  match genesis.offsetByAddress acc.accountAddress with
  | none => some []
  | some offset =>
      match tx.vout[offset]? with
      | some (.bare amount (.toKey key _)) =>
          some (ownBareOut prim acc.accountAddress derivation offset amount [key]).toList
      | _ => none

def lookupAccOuts (prim : Primitives F P) (genesis : Genesis P) (acc : AccountKeys F P)
    (tx : Transaction P) :
    Option (List (WalletOutInfo F P)) :=
  let txPubKey := getTxPubKeyFromExtra tx
  if txPubKey = none then none
  else
    let derivation := prim.generateKeyDerivation acc.viewSecretKey txPubKey
    if isCoinbase tx ∧ getBlockHeight tx = 0 ∧ txPubKey = genesis.txPubKey then
      lookupAccOutsGenesis prim genesis acc tx derivation
    else if checkTxDerivationHint prim tx derivation then
      lookupOuts prim acc.accountAddress derivation 0 tx.vout
    else some []

end

end Zano.Transactions.Outputs
