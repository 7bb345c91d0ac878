import Zano.Lib.IndexedTable
import Zano.Lib.Throwing
import Zano.Wallet.Balance

/-! # The transfers of a wallet and what refers to them

A wallet keeps the outputs it has received in a table and refers to them by index from five other
containers: by key image, by amount and global index, from the transactions that are not confirmed
yet, from the list of money that is locked until an escrow proposal expires, and from the cache of
free amounts that coins are selected from. These are the containers, the outputs in them and the
tests that decide whether an output can be spent.

`std::map` and `std::unordered_map` are functions to `Option` where they are only looked up. The
cache of free amounts has for each asset a map from amounts to sets of indexes, and no set in it is
empty; here it is the list of the pairs in the order in which the map is walked.
-/

namespace Zano.Wallet

open Balance
  (flagSpent flagBlocked flagEscrowProposalReservation flagMinedTransfer flagColdSigReservation)

variable {Hash Key Asset : Type*}

def flagConciseModePreserve : UInt32 := 0x40

def spendableAge : ℕ := 10
def maxBlockNumber : ℕ := 500000000
def lockedTxAllowedDeltaBlocks : ℕ := 1
def lockedTxAllowedDeltaSeconds : ℕ := 60
def txExpirationMedianShift : ℕ := 600
def mempoolTxLivetime : ℕ := 345600
def unconfirmedScanDepth : ℕ := 50
def txPracticalMaxInputs : ℕ := 80
def versionPostHf4 : ℕ := 2
def toKeyOutForcedNoMix : ℕ := 1
def toKeyOutForcedMixLowerBound : ℕ := 2

/-- What does not change while a wallet is open. `hf4Active` says whether hardfork 4 is active when
the chain has a size. -/
structure Settings (Asset : Type*) where
  native : Asset
  isAuditable : Bool
  isWatchOnly : Bool
  conciseMode : Bool
  conciseModeMaxReorgBlocks : ℕ
  truncateHistoryMaxEntries : ℕ
  doNotUnlockReservedOnIdle : Bool
  hf4MinimumMixins : ℕ
  hf4Active : ℕ → Bool

def Settings.isTracking (settings : Settings Asset) : Bool :=
  settings.isAuditable && settings.isWatchOnly

/-- `transfer_details`. `none` is the null key image; `zcInfo` has the asset of an output with
hidden amount. -/
structure TransferDetails (Hash Key Asset : Type*) where
  txHash : Hash
  internalOutputIndex : ℕ
  txVersion : ℕ
  mixAttr : ℕ
  unlockTime : ℕ
  blockHeight : ℕ
  globalOutputIndex : ℕ
  keyImage : Option Key
  amount : UInt64
  zcInfo : Option Asset
  flags : UInt32
  spentHeight : ℕ
  deriving DecidableEq, Repr

namespace TransferDetails

variable (td : TransferDetails Hash Key Asset)

/-- Which output this is: of which transaction, and where in it. -/
def output : Hash × ℕ := (td.txHash, td.internalOutputIndex)

def isZc : Bool := td.zcInfo.isSome

def getAssetId (native : Asset) : Asset := td.zcInfo.getD native

def amountForGlobalOutputIndex : UInt64 := if td.isZc then 0 else td.amount

def isSpent : Bool := td.flags &&& flagSpent ≠ 0

def isSpendable : Bool :=
  td.flags &&&
    (flagSpent ||| flagBlocked ||| flagEscrowProposalReservation ||| flagColdSigReservation) = 0

def isColdSigReserved : Bool := td.flags &&& flagColdSigReservation ≠ 0

def setFlags (flags : UInt32) : TransferDetails Hash Key Asset :=
  { td with flags := td.flags ||| flags }

def clearFlags (flags : UInt32) : TransferDetails Hash Key Asset :=
  { td with flags := td.flags &&& ~~~flags }

end TransferDetails

/-- `wallet_transfer_info`. `keyImages` are those of the inputs of the transaction. -/
structure TransferInfo (Hash Key : Type*) where
  txHash : Hash
  txVersion : ℕ
  isCoinbase : Bool
  txExpirationTime : ℕ
  keyImages : List Key
  height : ℕ
  timestamp : ℕ
  hasOutgoingEntries : Bool
  selectedIndicies : List ℕ
  deriving DecidableEq, Repr

/-- `expiration_entry_info`. -/
structure ExpirationEntry (Hash : Type*) where
  selectedTransfers : List ℕ
  expirationTime : ℕ
  relatedTxId : Hash
  deriving DecidableEq, Repr

/-! ## The cache of free amounts -/

/-- An amount and the index of a transfer of this amount. -/
abbrev FreeAmount := UInt64 × ℕ

def FreeAmount.before (entry later : FreeAmount) : Bool :=
  entry.1 < later.1 || entry.1 == later.1 && entry.2 < later.2

def insertFreeAmount (entry : FreeAmount) : List FreeAmount → List FreeAmount
  | [] => [entry]
  | first :: rest =>
      if entry = first then first :: rest
      else if entry.before first then entry :: first :: rest
      else first :: insertFreeAmount entry rest

/-- `free_assets_amounts_cache_type`, with the assets that it has an entry for. -/
structure FreeAmounts (Asset : Type*) where
  assets : List Asset
  ofAsset : Asset → List FreeAmount

namespace FreeAmounts

def empty : FreeAmounts Asset := ⟨[], fun _ => []⟩

def isEmpty (free : FreeAmounts Asset) : Bool := free.assets.isEmpty

variable [DecidableEq Asset]

def add (free : FreeAmounts Asset) (assetId : Asset) (amount : UInt64)
    (index : ℕ) : FreeAmounts Asset where
  assets := if assetId ∈ free.assets then free.assets else free.assets ++ [assetId]
  ofAsset :=
    Function.update free.ofAsset assetId (insertFreeAmount (amount, index) (free.ofAsset assetId))

def set (free : FreeAmounts Asset) (assetId : Asset)
    (entries : List FreeAmount) : FreeAmounts Asset :=
  { free with ofAsset := Function.update free.ofAsset assetId entries }

end FreeAmounts

/-! ## The wallet -/

/-- The part of `wallet2` that has to do with transfers and their indexes.
`coreTime` is the clock. -/
structure WalletState (Hash Key Asset : Type*) where
  transfers : IndexedTable (TransferDetails Hash Key Asset)
  keyImages : Key → Option ℕ
  amountGindexToTransferId : UInt64 × ℕ → Option ℕ
  unconfirmedTxs : List (TransferInfo Hash Key)
  unconfirmedInTransfers : List Hash
  transferHistory : List (TransferInfo Hash Key)
  moneyExpirations : List (ExpirationEntry Hash)
  foundFreeAmounts : FreeAmounts Asset
  fakeOutputsCount : ℕ
  blockchainSize : ℕ
  coreTime : ℕ

namespace WalletState

def new (coreTime : ℕ) : WalletState Hash Key Asset where
  transfers := .empty
  keyImages := fun _ => none
  amountGindexToTransferId := fun _ => none
  unconfirmedTxs := []
  unconfirmedInTransfers := []
  transferHistory := []
  moneyExpirations := []
  foundFreeAmounts := .empty
  fakeOutputsCount := 0
  blockchainSize := 1
  coreTime := coreTime

/-- `reset_all` as `pull_blocks` does it when the wallet has to be synchronized anew. The cache of
free amounts does not belong to the state that is reset. -/
def resync (s : WalletState Hash Key Asset) : WalletState Hash Key Asset :=
  { new s.coreTime with
    unconfirmedTxs := s.unconfirmedTxs
    foundFreeAmounts := s.foundFreeAmounts
    fakeOutputsCount := s.fakeOutputsCount }

def modifyTransfer (s : WalletState Hash Key Asset) (i : ℕ)
    (f : TransferDetails Hash Key Asset → TransferDetails Hash Key Asset) :
    WalletState Hash Key Asset :=
  { s with transfers := s.transfers.modify i f }

def clearFreeAmounts (s : WalletState Hash Key Asset) : WalletState Hash Key Asset :=
  { s with foundFreeAmounts := .empty }

end WalletState

/-- What an operation throws. `lookedUpIndex` is the `std::out_of_range` of `m_transfers.at` for an
index from a lookup table, `storedIndex` is the same for an index that a transaction, a lock or the
cache of free amounts has stored. -/
inductive Failure where
  | resyncNeeded
  | lookedUpIndex
  | storedIndex
  | notEnoughMoney
  | noZcInputs
  | other
  deriving DecidableEq, Repr

/-! ## Whether a transfer can be spent -/

/-- `is_mixattr_applicable_for_fake_outs_counter`. -/
def isMixattrApplicable (settings : Settings Asset)
    (outTxVersion mixAttr fakeOutputsCount : ℕ) : Bool :=
  if versionPostHf4 ≤ outTxVersion then
    if mixAttr ≠ toKeyOutForcedNoMix then settings.hf4MinimumMixins ≤ fakeOutputsCount
    else fakeOutputsCount = 0
  else if toKeyOutForcedMixLowerBound ≤ mixAttr then mixAttr ≤ fakeOutputsCount + 1
  else if mixAttr = toKeyOutForcedNoMix then fakeOutputsCount = 0
  else true

def isTransferAbleToGo (settings : Settings Asset) (td : TransferDetails Hash Key Asset)
    (fakeOutputsCount : ℕ) :
    Bool :=
  td.isSpendable && isMixattrApplicable settings td.txVersion td.mixAttr fakeOutputsCount

def isTxSpendtimeUnlocked (unlockTime blockchainSize currentTime : ℕ) : Bool :=
  if unlockTime < maxBlockNumber then unlockTime ≤ blockchainSize - 1 + lockedTxAllowedDeltaBlocks
  else unlockTime ≤ currentTime + lockedTxAllowedDeltaSeconds

def isTransferUnlocked (s : WalletState Hash Key Asset)
    (td : TransferDetails Hash Key Asset) : Bool :=
  td.flags &&& flagBlocked = 0 && td.blockHeight + spendableAge ≤ s.blockchainSize &&
    isTxSpendtimeUnlocked td.unlockTime s.blockchainSize s.coreTime

def isTransferReadyToGo (settings : Settings Asset) (s : WalletState Hash Key Asset)
    (td : TransferDetails Hash Key Asset) (fakeOutputsCount : ℕ) : Bool :=
  isTransferAbleToGo settings td fakeOutputsCount && isTransferUnlocked s td

end Zano.Wallet
