import Zano.Wallet.TransferEvents

/-! # Sending, and everything a wallet is asked to do

Coins are selected from the cache of free amounts, which is built when it is empty or was built for
another ring size. Selection takes entries out of the cache, those that turn out not to be ready as
well as those it selects. When the transaction cannot be made after all, only some of the ways to
fail clear the cache.
-/

namespace Zano.Wallet

open Throwing
open Balance
  (flagSpent flagBlocked flagEscrowProposalReservation flagMinedTransfer flagColdSigReservation)

variable {Hash Key Asset : Type*} [DecidableEq Hash] [DecidableEq Key] [DecidableEq Asset]

/-! ## The cache -/

def cacheFakeOutputsCount (settings : Settings Asset) (td : TransferDetails Hash Key Asset)
    (fakeOutputsCount : ℕ) :
    ℕ :=
  if td.isZc then if settings.isAuditable then 0 else settings.hf4MinimumMixins
  else fakeOutputsCount

def cacheTransfer (settings : Settings Asset) (fakeOutputsCount : ℕ) (free : FreeAmounts Asset)
    (row : ℕ × TransferDetails Hash Key Asset) : FreeAmounts Asset :=
  if isTransferAbleToGo settings row.2 (cacheFakeOutputsCount settings row.2 fakeOutputsCount) then
    free.add (row.2.getAssetId settings.native) row.2.amount row.1
  else free

def prepareFreeTransfersCache (settings : Settings Asset) (fakeOutputsCount : ℕ)
    (s : WalletState Hash Key Asset) :
    WalletState Hash Key Asset :=
  if s.foundFreeAmounts.isEmpty || fakeOutputsCount ≠ s.fakeOutputsCount then
    { s with
      foundFreeAmounts := s.transfers.rows.foldl (cacheTransfer settings fakeOutputsCount) .empty
      fakeOutputsCount := fakeOutputsCount }
  else s

/-! ## Selection of one asset -/

/-- `lower_bound`, or the last amount where there is none; of this amount, the least index. -/
def nearest (wanted : UInt64) (entries : List FreeAmount) : Option FreeAmount :=
  match entries.find? fun entry => wanted ≤ entry.1 with
  | some entry => some entry
  | none =>
      match entries.getLast? with
      | none => none
      | some last => entries.find? fun entry => entry.1 = last.1

structure Picked where
  foundMoney : UInt64
  selected : List ℕ
  left : List FreeAmount
  deriving DecidableEq, Repr

def Picked.select (picked : Picked) (index : ℕ) : Picked :=
  { picked with selected := index :: picked.selected }

/-- The loop takes an entry out of the cache each time, so it ends after as many rounds as there are
entries. `ready` is `none` where `m_transfers.at` throws. -/
def selectIndicesOfAsset (ready : ℕ → Option Bool) (neededMoney : UInt64) :
    ℕ → UInt64 → List FreeAmount → Except Failure Picked
  | 0, foundMoney, entries => .ok ⟨foundMoney, [], entries⟩
  | rounds + 1, foundMoney, entries =>
      if foundMoney < neededMoney then
        match nearest (neededMoney - foundMoney) entries with
        | none => .ok ⟨foundMoney, [], entries⟩
        | some entry =>
            match ready entry.2 with
            | none => .error .storedIndex
            | some true =>
                (selectIndicesOfAsset ready neededMoney rounds (foundMoney + entry.1)
                  (entries.erase entry)).map
                  (·.select entry.2)
            | some false =>
                selectIndicesOfAsset ready neededMoney rounds foundMoney (entries.erase entry)
      else .ok ⟨foundMoney, [], entries⟩

def selectionFakeOutputsCount (settings : Settings Asset) (td : TransferDetails Hash Key Asset)
    (fakeOutputsCount : ℕ) : ℕ :=
  if !settings.isAuditable && td.isZc then settings.hf4MinimumMixins else fakeOutputsCount

def isReadyForSelection (settings : Settings Asset) (s : WalletState Hash Key Asset)
    (fakeOutputsCount index : ℕ) :
    Option Bool :=
  (s.transfers.find? index).map fun td =>
    isTransferReadyToGo settings s td (selectionFakeOutputsCount settings td fakeOutputsCount)

/-! ## Selection -/

/-- `selection_for_amount` with its asset. -/
structure NeededMoney (Asset : Type*) where
  assetId : Asset
  requestedAmount : UInt64
  foundAmount : UInt64
  deriving DecidableEq, Repr

structure Selection (Asset : Type*) where
  needed : List (NeededMoney Asset)
  selected : List ℕ
  free : FreeAmounts Asset

/-- The loop of `select_indices_for_transfer` over the assets. -/
def selectAssets (settings : Settings Asset) (s : WalletState Hash Key Asset)
    (fakeOutputsCount : ℕ) :
    List (NeededMoney Asset) → FreeAmounts Asset → Except Failure (Selection Asset)
  | [], free => .ok ⟨[], [], free⟩
  | item :: items, free =>
      if item.requestedAmount = 0 then
        (selectAssets settings s fakeOutputsCount items free).map fun selection =>
          { selection with needed := item :: selection.needed }
      else if item.assetId ∉ free.assets then .error .notEnoughMoney
      else
        match selectIndicesOfAsset (isReadyForSelection settings s fakeOutputsCount)
          item.requestedAmount
            (free.ofAsset item.assetId).length 0 (free.ofAsset item.assetId) with
        | .error failure => .error failure
        | .ok picked =>
            if picked.foundMoney < item.requestedAmount then .error .notEnoughMoney
            else
              (selectAssets settings s fakeOutputsCount items
                (free.set item.assetId picked.left)).map fun selection =>
                { selection with
                  needed := { item with foundAmount := picked.foundMoney } :: selection.needed
                  selected := picked.selected ++ selection.selected }

/-- The two nested loops of `expand_selection_with_zc_input`. The entry that is tested is the first
one of its amount.
-/
def zcInput (settings : Settings Asset) (s : WalletState Hash Key Asset) (fakeOutputsCount : ℕ)
    (cached : List FreeAmount) : List FreeAmount → Except Failure FreeAmount
  | [] => .error .noZcInputs
  | entry :: entries =>
      match s.transfers.find? entry.2 with
      | none => .error .storedIndex
      | some td =>
          if !td.isZc then zcInput settings s fakeOutputsCount cached entries
          else
            match (cached.find? fun first => first.1 = entry.1).bind fun first =>
              s.transfers.find? first.2 with
            | none => .error .storedIndex
            | some first =>
                if isTransferReadyToGo settings s first fakeOutputsCount then .ok entry
                else zcInput settings s fakeOutputsCount cached entries

/-- `needed_money_map[asset_id].found_amount += amount`, which makes an entry
where there is none. -/
def addFoundAmount (assetId : Asset) (amount : UInt64) :
    List (NeededMoney Asset) → List (NeededMoney Asset)
  | [] => [⟨assetId, 0, amount⟩]
  | item :: items =>
      if item.assetId = assetId then { item with foundAmount := item.foundAmount + amount } :: items
      else item :: addFoundAmount assetId amount items

def expandSelectionWithZcInput (settings : Settings Asset) (s : WalletState Hash Key Asset)
    (fakeOutputsCount : ℕ) (selection : Selection Asset) : Except Failure (Selection Asset) :=
  let cached := selection.free.ofAsset settings.native
  (zcInput settings s fakeOutputsCount cached cached).map fun entry =>
    { needed := addFoundAmount settings.native entry.1 selection.needed
      selected := selection.selected ++ [entry.2]
      free := selection.free.set settings.native (cached.erase entry) }

def hasZc (s : WalletState Hash Key Asset) (selected : List ℕ) : Bool :=
  selected.any fun i => ((s.transfers.find? i).map (·.isZc)).getD false

def selectIndicesForTransfer (settings : Settings Asset) (s : WalletState Hash Key Asset)
    (needed : List (NeededMoney Asset)) (needAtLeast1Zc : Bool) (fakeOutputsCount : ℕ) :
    Except Failure (Selection Asset) :=
  match selectAssets settings s fakeOutputsCount needed s.foundFreeAmounts with
  | .error failure => .error failure
  | .ok selection =>
      if needAtLeast1Zc && !hasZc s selection.selected then
        expandSelectionWithZcInput settings s fakeOutputsCount selection
      else .ok selection

def selectTransfers (settings : Settings Asset) (s : WalletState Hash Key Asset)
    (needed : List (NeededMoney Asset)) (needAtLeast1Zc : Bool) (fakeOutputsCount : ℕ) :
    Except Failure (Selection Asset) :=
  selectIndicesForTransfer settings (prepareFreeTransfersCache settings fakeOutputsCount s) needed
    needAtLeast1Zc
    fakeOutputsCount

/-! ## Sending -/

/-- How far `transfer` comes. It may fail before coins are selected, when the sources are made, when
the destinations are made, and when the transaction is made or sent; or the transaction is sent, if
it is meant to be. -/
inductive Fate (Hash Key Asset : Type*) where
  | failedPreparation
  | failedSources
  | failedDestinations
  | failedFinalization
  | madeOnly
  | sent (tx : WalletTx Hash Key Asset)

structure TransferRequest (Hash Key Asset : Type*) where
  needed : List (NeededMoney Asset)
  needAtLeast1Zc : Bool
  fakeOutputsCount : ℕ
  additionalFlags : UInt32
  fate : Fate Hash Key Asset

def clearTransferFlags (flags : UInt32) (selected : List ℕ) (s : WalletState Hash Key Asset) :
    WalletState Hash Key Asset :=
  selected.foldl (fun s index => s.modifyTransfer index (·.clearFlags flags)) s

def addSentUnconfirmedTx (settings : Settings Asset) (tx : WalletTx Hash Key Asset)
    (selected : List ℕ) (s : WalletState Hash Key Asset) :
    Outcome Failure (WalletState Hash Key Asset) :=
  thenDo (handleUnconfirmedTx settings 0 s tx) fun s =>
    (none, { s with
      unconfirmedTxs := selectIndicies tx.hash selected
        (if s.unconfirmedTxs.any (·.txHash = tx.hash) then s.unconfirmedTxs
          else s.unconfirmedTxs ++ [⟨tx.hash, 0, false, 0, [], 0, 0, false, []⟩]) })

/-- `mark_transfers_with_flag` of selected transfers. -/
def markSelected (flags : UInt32) (s : WalletState Hash Key Asset) (index : ℕ) :
    Outcome Failure (WalletState Hash Key Asset) :=
  match s.transfers.find? index with
  | none => (some .storedIndex, s)
  | some _ => (none, s.modifyTransfer index (·.setFlags flags))

/-- What follows once the transaction is prepared. A watch-only wallet writes it
to a file instead. -/
def finalizeTransfer (settings : Settings Asset) (request : TransferRequest Hash Key Asset)
    (selected : List ℕ) (s : WalletState Hash Key Asset) :
    Outcome Failure (WalletState Hash Key Asset) :=
  if settings.isWatchOnly then
    match request.fate with
    | .failedFinalization => (some .other, s)
    | _ =>
        if selected.any fun i => ((s.transfers.find? i).map (·.isColdSigReserved)).getD false then
          (some .other, s)
        else forEach (markSelected flagColdSigReservation) selected s
  else
    let flags := request.additionalFlags ||| flagSpent
    thenDo (forEach (markSelected flags) selected s) fun s =>
      match request.fate with
      | .failedFinalization => (some .other, clearTransferFlags flags selected s)
      | .sent tx =>
          match addSentUnconfirmedTx settings tx selected s with
          | (none, s) => (none, s)
          | (some failure, s) => (some failure, clearTransferFlags flags selected s)
      | _ => (none, s)

def transfer (settings : Settings Asset) (request : TransferRequest Hash Key Asset)
    (s : WalletState Hash Key Asset) :
    Outcome Failure (WalletState Hash Key Asset) :=
  if settings.isTracking || settings.isAuditable && request.fakeOutputsCount ≠ 0 then
    (some .other, s)
  else
    match request.fate with
    | .failedPreparation => (some .other, s)
    | fate =>
        let prepared := prepareFreeTransfersCache settings request.fakeOutputsCount s
        match selectTransfers settings s request.needed request.needAtLeast1Zc
          request.fakeOutputsCount with
        | .error failure => (some failure, prepared.clearFreeAmounts)
        | .ok selection =>
            let selecting := { prepared with foundFreeAmounts := selection.free }
            if txPracticalMaxInputs ≤ selection.selected.length then
              (some .other, selecting.clearFreeAmounts)
            else
              match fate with
              | .failedSources => (some .other, selecting.clearFreeAmounts)
              | .failedDestinations => (some .other, selecting)
              | _ => finalizeTransfer settings request selection.selected selecting

/-! ## Requests -/

inductive Request (Hash Key Asset : Type*) where
  | refresh (events : List (BlockEvent Hash Key Asset)) (ending : RefreshEnd)
  | scanTxPool (txExpirationTsMedian : ℕ) (txs : List (WalletTx Hash Key Asset))
  | transfer (request : TransferRequest Hash Key Asset)
  | tick (coreTime : ℕ)

def perform (settings : Settings Asset) (s : WalletState Hash Key Asset) :
    Request Hash Key Asset → Outcome Failure (WalletState Hash Key Asset)
  | .refresh events ending => refresh settings events ending s
  | .scanTxPool txExpirationTsMedian txs => scanTxPool settings txExpirationTsMedian txs s
  | .transfer request => transfer settings request s
  | .tick coreTime => (none, { s with coreTime := coreTime })

/-- A wallet goes on in the state that a request leaves, also when the request throws. -/
def step (settings : Settings Asset) (s : WalletState Hash Key Asset)
    (request : Request Hash Key Asset) :
    Option (WalletState Hash Key Asset) :=
  some (perform settings s request).2

end Zano.Wallet
