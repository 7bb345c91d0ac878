import Zano.Wallet.TransferTable

/-! # What blocks, the pool and time do to the transfers

Blocks receive outputs, spend transfers and lock the inputs of escrow proposals; a reorganization
removes the transfers received from its first block on; the pool marks transfers as spent by
transactions that are not confirmed; and after each refresh outdated transactions and expired locks
are released and transfers that were spent long ago are dropped.

What an operation has done before it throws stays done. The balance of a transaction, which decides
whether the wallet keeps a record of it, comes with the transaction, and so do the outputs of it
that are the wallet's.
-/

namespace Zano.Wallet

open Throwing
open Balance
  (flagSpent flagBlocked flagEscrowProposalReservation flagMinedTransfer flagColdSigReservation)

variable {Hash Key Asset : Type*}

/-- An input of one of the kinds that spend an own output. `keyOffsets` are the absolute global
indexes of its ring; `none` is a reference by transaction id. -/
structure TxIn (Key : Type*) where
  isZc : Bool
  amount : UInt64
  keyImage : Key
  keyOffsets : List (Option ℕ)
  deriving DecidableEq, Repr

/-- An output that belongs to the wallet. `keyImage` is what `generate_key_image_helper` computes
for it and `pendingKeyImage` what a watch-only wallet finds in `m_pending_key_images`. -/
structure TxOut (Key Asset : Type*) where
  index : ℕ
  amount : UInt64
  zcInfo : Option Asset
  mixAttr : ℕ
  unlockTime : ℕ
  globalIndex : ℕ
  isMined : Bool
  keyImage : Key
  pendingKeyImage : Option Key
  deriving DecidableEq, Repr

/-- An escrow proposal that the wallet itself has sent: the key images of the bare
inputs of its template. -/
structure Proposal (Key : Type*) where
  keyImages : List Key
  expirationTime : ℕ
  deriving DecidableEq, Repr

/-- A transaction as the wallet sees it. `outs` is empty where the outputs of the transaction are
skipped as a whole; `isRelated` says that it changes a balance or is otherwise the wallet's. -/
structure WalletTx (Hash Key Asset : Type*) where
  hash : Hash
  version : ℕ
  isCoinbase : Bool
  expirationTime : ℕ
  timestamp : ℕ
  inputs : List (TxIn Key)
  outs : List (TxOut Key Asset)
  isRelated : Bool
  hasOutgoingEntries : Bool
  proposal : Option (Proposal Key)
  deriving DecidableEq, Repr

/-- `is_tx_expired`. -/
def isTxExpired (expirationTime median : ℕ) : Bool :=
  median ≠ 0 && expirationTime ≠ 0 && expirationTime ≤ median + txExpirationMedianShift

/-! ## The transfer that an input spends -/

/-- The loop of `get_directly_spent_transfer_index_by_input_in_tracking_wallet` over the ring of an
input of `ringSize` members. -/
def directlySpentTransfer (s : WalletState Hash Key Asset) (amount : UInt64) (ringSize : ℕ) :
    List (Option ℕ) → Except Failure (Option ℕ)
  | [] => .ok none
  | none :: offsets => directlySpentTransfer s amount ringSize offsets
  | some gindex :: offsets =>
      match s.amountGindexToTransferId (amount, gindex) with
      | none => directlySpentTransfer s amount ringSize offsets
      | some tid =>
          match s.transfers.find? tid with
          | none => .error .lookedUpIndex
          | some td =>
              if ringSize ≠ 1 then
                if td.mixAttr = toKeyOutForcedNoMix then .error .other
                else directlySpentTransfer s amount ringSize offsets
              else if td.spentHeight ≠ 0 then .error .other
              else .ok (some tid)

def spentTransfer (settings : Settings Asset) (s : WalletState Hash Key Asset) (input : TxIn Key) :
    Except Failure (Option ℕ) :=
  if settings.isTracking then
    directlySpentTransfer s (if input.isZc then 0
      else input.amount) input.keyOffsets.length input.keyOffsets
  else .ok (s.keyImages input.keyImage)

/-! ## Locks -/

/-- The first occurrence of `index` goes, and with the last index the whole lock. -/
def ExpirationEntry.remove (index : ℕ) (entry : ExpirationEntry Hash) :
    Option (ExpirationEntry Hash) :=
  if index ∈ entry.selectedTransfers then
    let left := entry.selectedTransfers.erase index
    if left.isEmpty then none else some { entry with selectedTransfers := left }
  else some entry

def removeTransferFromExpirationList (s : WalletState Hash Key Asset) (index : ℕ) :
    Outcome Failure (WalletState Hash Key Asset) :=
  match s.transfers.find? index with
  | none => (some .lookedUpIndex, s)
  | some _ =>
      (none, { s.modifyTransfer index
        (·.clearFlags (flagBlocked ||| flagEscrowProposalReservation)) with
        moneyExpirations := s.moneyExpirations.filterMap (ExpirationEntry.remove index) })

def markTransfer (flags : UInt32) (s : WalletState Hash Key Asset) (index : ℕ) :
    Outcome Failure (WalletState Hash Key Asset) :=
  match s.transfers.find? index with
  | none => (some .lookedUpIndex, s)
  | some _ => (none, s.modifyTransfer index (·.setFlags flags))

/-- The lock is entered before its transfers are looked up. -/
def addTransfersToExpirationList (s : WalletState Hash Key Asset) (selectedTransfers : List ℕ)
    (expiration : ℕ) (relatedTxId : Hash) : Outcome Failure (WalletState Hash Key Asset) :=
  let selectedTransfersLocal :=
    selectedTransfers.filter fun i => s.moneyExpirations.all fun entry =>
      i ∉ entry.selectedTransfers
  if selectedTransfersLocal.isEmpty then (none, s)
  else
    forEach (markTransfer (flagBlocked ||| flagEscrowProposalReservation)) selectedTransfersLocal
      { s with moneyExpirations := s.moneyExpirations ++
        [⟨selectedTransfersLocal, expiration, relatedTxId⟩] }

/-- What `prepare_wti` does besides filling in the record: `scan_tx_to_key_inputs` and the lock. -/
def handleProposal (s : WalletState Hash Key Asset) (tx : WalletTx Hash Key Asset) :
    Outcome Failure (WalletState Hash Key Asset) :=
  match tx.proposal with
  | none => (none, s)
  | some proposal =>
      addTransfersToExpirationList s (proposal.keyImages.filterMap s.keyImages)
        proposal.expirationTime tx.hash

def prepareWti (tx : WalletTx Hash Key Asset) (height timestamp : ℕ) : TransferInfo Hash Key where
  txHash := tx.hash
  txVersion := tx.version
  isCoinbase := tx.isCoinbase
  txExpirationTime := tx.expirationTime
  keyImages := tx.inputs.map TxIn.keyImage
  height := height
  timestamp := timestamp
  hasOutgoingEntries := tx.hasOutgoingEntries
  selectedIndicies := []

/-! ## A transaction of a block -/

variable [DecidableEq Hash] [DecidableEq Key] [DecidableEq Asset]

def processInput (settings : Settings Asset) (height : ℕ) (s : WalletState Hash Key Asset)
    (input : TxIn Key) :
    Outcome Failure (WalletState Hash Key Asset) :=
  match spentTransfer settings s input with
  | .error failure => (some failure, s)
  | .ok none => (none, s)
  | .ok (some index) =>
      match s.transfers.find? index with
      | none => (some .resyncNeeded, s)
      | some _ =>
          removeTransferFromExpirationList
            (s.modifyTransfer index fun td =>
              { td.setFlags flagSpent with spentHeight := height }) index

def ownKeyImage (settings : Settings Asset) (out : TxOut Key Asset) : Option Key :=
  if settings.isWatchOnly then if settings.isAuditable then none else out.pendingKeyImage
  else some out.keyImage

def newTransfer (settings : Settings Asset) (height : ℕ) (tx : WalletTx Hash Key Asset)
    (out : TxOut Key Asset) :
    TransferDetails Hash Key Asset where
  txHash := tx.hash
  internalOutputIndex := out.index
  txVersion := tx.version
  mixAttr := out.mixAttr
  unlockTime := out.unlockTime
  blockHeight := height
  globalOutputIndex := out.globalIndex
  keyImage := ownKeyImage settings out
  amount := out.amount
  zcInfo := out.zcInfo
  flags := if out.isMined then flagMinedTransfer else 0
  spentHeight := 0

/-- Whether the output is passed over: its key image is known, or an auditable wallet could not
spend it directly. -/
def isSkipped (settings : Settings Asset) (s : WalletState Hash Key Asset)
    (out : TxOut Key Asset) : Bool :=
  ((ownKeyImage settings out).bind s.keyImages).isSome ||
    settings.isAuditable && out.mixAttr ≠ toKeyOutForcedNoMix

def addTransfer (settings : Settings Asset) (s : WalletState Hash Key Asset)
    (td : TransferDetails Hash Key Asset) :
    WalletState Hash Key Asset :=
  let newIndex := s.transfers.next
  { s with
    transfers := s.transfers.push td
    foundFreeAmounts := s.foundFreeAmounts.add (td.getAssetId settings.native) td.amount newIndex
    keyImages := match td.keyImage with
      | none => s.keyImages
      | some keyImage => Function.update s.keyImages keyImage (some newIndex)
    amountGindexToTransferId :=
      if settings.isTracking then
        Function.update s.amountGindexToTransferId
          (td.amountForGlobalOutputIndex, td.globalOutputIndex) (some newIndex)
      else s.amountGindexToTransferId }

def receiveOutput (settings : Settings Asset) (height : ℕ) (tx : WalletTx Hash Key Asset)
    (s : WalletState Hash Key Asset) (out : TxOut Key Asset) : WalletState Hash Key Asset :=
  if isSkipped settings s out then s
  else addTransfer settings s (newTransfer settings height tx out)

def handleMoney (height : ℕ) (tx : WalletTx Hash Key Asset) (s : WalletState Hash Key Asset) :
    Outcome Failure (WalletState Hash Key Asset) :=
  if tx.isRelated then
    handleProposal { s with
      transferHistory := s.transferHistory ++ [prepareWti tx height tx.timestamp] } tx
  else (none, s)

def processNewTransaction (settings : Settings Asset) (height : ℕ) (s : WalletState Hash Key Asset)
    (tx : WalletTx Hash Key Asset) : Outcome Failure (WalletState Hash Key Asset) :=
  let pending :=
    { s with unconfirmedTxs := s.unconfirmedTxs.filter fun utx => utx.txHash ≠ tx.hash }
  thenDo (forEach (processInput settings height) tx.inputs pending) fun s =>
    handleMoney height tx (tx.outs.foldl (receiveOutput settings height tx) s)

/-! ## A reorganization -/

/-- What `detach_blockchain` does for a transfer that it removes. -/
def forgetTransfer (settings : Settings Asset) (includingHeight : ℕ)
    (s : WalletState Hash Key Asset) (row : ℕ × TransferDetails Hash Key Asset) :
    Outcome Failure (WalletState Hash Key Asset) :=
  let forgotten (keyImages : Key → Option ℕ) : WalletState Hash Key Asset :=
    { s with
      keyImages := keyImages
      amountGindexToTransferId := fun p => (s.amountGindexToTransferId p).filter (· ≠ row.1) }
  match row.2.keyImage with
  | none => if settings.isWatchOnly then (none, forgotten s.keyImages) else (some .other, s)
  | some keyImage =>
      if s.keyImages keyImage = none then (some .other, s)
      else if row.2.blockHeight < includingHeight then (some .other, s)
      else (none, forgotten (Function.update s.keyImages keyImage none))

/-- The records from the first block that is detached on, which are the end of the history. -/
def detachedHistory (includingHeight : ℕ) (history : List (TransferInfo Hash Key)) :
    List (TransferInfo Hash Key) :=
  (history.reverse.takeWhile fun wti => includingHeight ≤ wti.height).reverse

def addUnconfirmed (unconfirmed : List (TransferInfo Hash Key)) (wti : TransferInfo Hash Key) :
    List (TransferInfo Hash Key) :=
  if wti.isCoinbase || unconfirmed.any (·.txHash = wti.txHash) then unconfirmed
  else unconfirmed ++ [wti]

/-- The transfers from the first one on that was received in a detached block. -/
def detachedTransfers (includingHeight : ℕ)
    (transfers : IndexedTable (TransferDetails Hash Key Asset)) :
    List (ℕ × TransferDetails Hash Key Asset) :=
  transfers.dropWhile fun td => td.blockHeight < includingHeight

def keptTransfers (includingHeight : ℕ)
    (transfers : IndexedTable (TransferDetails Hash Key Asset)) :
    IndexedTable (TransferDetails Hash Key Asset) :=
  (transfers.takeWhile fun td => td.blockHeight < includingHeight).map fun _ td =>
    if includingHeight ≤ td.spentHeight then { td with spentHeight := 0 } else td

def detachBlockchain (settings : Settings Asset) (includingHeight : ℕ)
    (s : WalletState Hash Key Asset) :
    Outcome Failure (WalletState Hash Key Asset) :=
  thenDo (forEach (forgetTransfer settings includingHeight)
    (detachedTransfers includingHeight s.transfers) s) fun s =>
    (none, { s with
      transfers := keptTransfers includingHeight s.transfers
      blockchainSize := includingHeight
      unconfirmedTxs :=
        (detachedHistory includingHeight s.transferHistory).foldl addUnconfirmed s.unconfirmedTxs
      transferHistory := s.transferHistory.take
        (s.transferHistory.length - (detachedHistory includingHeight s.transferHistory).length) })

/-! ## Blocks -/

/-- What `handle_pulled_blocks` does while it walks through blocks. -/
inductive BlockEvent (Hash Key Asset : Type*) where
  | transaction (height : ℕ) (tx : WalletTx Hash Key Asset)
  | pushed (height : ℕ)
  | reorganization (lastMatchedIndex : ℕ)

/-- A wallet in concise mode does not detach more blocks than its limit. -/
def needsResync (settings : Settings Asset) (s : WalletState Hash Key Asset)
    (lastMatchedIndex : ℕ) : Bool :=
  settings.conciseMode && settings.conciseModeMaxReorgBlocks < s.blockchainSize - lastMatchedIndex

def resyncIfNeeded :
    Outcome Failure (WalletState Hash Key Asset) → Outcome Failure (WalletState Hash Key Asset)
  | (some .resyncNeeded, s) => (none, s.resync)
  | outcome => outcome

def handleEvent (settings : Settings Asset) (s : WalletState Hash Key Asset) :
    BlockEvent Hash Key Asset → Outcome Failure (WalletState Hash Key Asset)
  | .transaction height tx => resyncIfNeeded (processNewTransaction settings height s tx)
  | .pushed height => (none, { s with blockchainSize := height + 1 })
  | .reorganization lastMatchedIndex =>
      if needsResync settings s lastMatchedIndex then (none, s.resync)
      else detachBlockchain settings (lastMatchedIndex + 1) s

/-! ## The pool -/

/-- The transfers that the inputs of a transaction of the pool spend. -/
def spentTransfers (settings : Settings Asset) (s : WalletState Hash Key Asset) :
    List (TxIn Key) → Except Failure (List ℕ)
  | [] => .ok []
  | input :: inputs =>
      match spentTransfer settings s input with
      | .error failure => .error failure
      | .ok none => spentTransfers settings s inputs
      | .ok (some index) =>
          match s.transfers.find? index with
          | none => .error .lookedUpIndex
          | some td =>
              if !input.isZc && td.getAssetId settings.native ≠ settings.native then .error .other
              else (spentTransfers settings s inputs).map (index :: ·)

def selectIndicies (txHash : Hash) (selected : List ℕ)
    (unconfirmed : List (TransferInfo Hash Key)) :
    List (TransferInfo Hash Key) :=
  unconfirmed.map fun utx => if utx.txHash = txHash then
    { utx with selectedIndicies := selected } else utx

/-- Whether one of the last records of the history is of this transaction. -/
def isInRecentHistory (s : WalletState Hash Key Asset) (txHash : Hash) : Bool :=
  (s.transferHistory.reverse.takeWhile fun wti =>
    s.blockchainSize - 1 < wti.height + unconfirmedScanDepth).any
    (·.txHash = txHash)

def handleUnconfirmedTx (settings : Settings Asset) (txExpirationTsMedian : ℕ)
    (s : WalletState Hash Key Asset) (tx : WalletTx Hash Key Asset) :
    Outcome Failure (WalletState Hash Key Asset) :=
  match spentTransfers settings s tx.inputs with
  | .error failure => (some failure, s)
  | .ok spent =>
      if !isTxExpired tx.expirationTime txExpirationTsMedian && tx.isRelated then
        let seen := { s with unconfirmedInTransfers := s.unconfirmedInTransfers.insert tx.hash }
        if seen.unconfirmedTxs.any (·.txHash = tx.hash) || isInRecentHistory seen tx.hash then
          (none, seen)
        else
          thenDo
            (handleProposal { seen with
              unconfirmedTxs := seen.unconfirmedTxs ++ [prepareWti tx 0 s.coreTime] } tx)
            fun s => thenDo (forEach (markTransfer flagSpent) spent s) fun s =>
              (none, { s with unconfirmedTxs := selectIndicies tx.hash spent s.unconfirmedTxs })
      else (none, s)

def scanPoolTx (settings : Settings Asset) (txExpirationTsMedian : ℕ) (known : List Hash)
    (s : WalletState Hash Key Asset) (tx : WalletTx Hash Key Asset) :
    Outcome Failure (WalletState Hash Key Asset) :=
  if tx.hash ∈ known then
    (none, { s with unconfirmedInTransfers := s.unconfirmedInTransfers.insert tx.hash })
  else handleUnconfirmedTx settings txExpirationTsMedian s tx

def scanTxPool (settings : Settings Asset) (txExpirationTsMedian : ℕ)
    (txs : List (WalletTx Hash Key Asset)) (s : WalletState Hash Key Asset) :
    Outcome Failure (WalletState Hash Key Asset) :=
  forEach (scanPoolTx settings txExpirationTsMedian s.unconfirmedInTransfers) txs
    { s with unconfirmedInTransfers := [] }

/-! ## After a refresh -/

/-- A transfer is released unless it is spent in a block. -/
def releaseTransfer (flags : UInt32) (s : WalletState Hash Key Asset) (index : ℕ) :
    Outcome Failure (WalletState Hash Key Asset) :=
  match s.transfers.find? index with
  | none => (some .storedIndex, s)
  | some _ =>
      (none, s.modifyTransfer index fun td => if td.spentHeight = 0 then
        td.clearFlags flags else td)

def isNotCompliant (settings : Settings Asset) (s : WalletState Hash Key Asset)
    (txExpirationTsMedian : ℕ) (utx : TransferInfo Hash Key) : Bool :=
  utx.timestamp <
    s.coreTime - mempoolTxLivetime || isTxExpired utx.txExpirationTime txExpirationTsMedian ||
    settings.hf4Active s.blockchainSize && utx.txVersion < versionPostHf4

/-- The transaction is erased once its transfers are released. -/
def cancelUnconfirmedTx (settings : Settings Asset) (txExpirationTsMedian : ℕ)
    (s : WalletState Hash Key Asset) (utx : TransferInfo Hash Key) :
    Outcome Failure (WalletState Hash Key Asset) :=
  if isNotCompliant settings s txExpirationTsMedian utx then
    thenDo (forEach (releaseTransfer flagSpent) utx.selectedIndicies s) fun s =>
      (none, { s with unconfirmedTxs := s.unconfirmedTxs.filter (·.txHash ≠ utx.txHash) })
  else (none, s)

def keyImagesInUnconfirmed (s : WalletState Hash Key Asset) : List Key :=
  (s.unconfirmedTxs.filter (·.hasOutgoingEntries)).flatMap (·.keyImages)

def unlockUnrelated (known : List Key) (td : TransferDetails Hash Key Asset) :
    TransferDetails Hash Key Asset :=
  if td.isSpent && td.spentHeight = 0 && td.flags &&& flagEscrowProposalReservation = 0 then
    match td.keyImage with
    | some keyImage => if keyImage ∈ known then td else td.clearFlags flagSpent
    | none => td.clearFlags flagSpent
  else td

def scanNotCompliantUnconfirmedTxs (settings : Settings Asset) (txExpirationTsMedian : ℕ)
    (s : WalletState Hash Key Asset) : Outcome Failure (WalletState Hash Key Asset) :=
  thenDo (forEach (cancelUnconfirmedTx settings txExpirationTsMedian) s.unconfirmedTxs s) fun s =>
    if settings.doNotUnlockReservedOnIdle then (none, s)
    else (none,
      { s with transfers := s.transfers.map fun _ => unlockUnrelated (keyImagesInUnconfirmed s) })

def isExpired (txExpirationTsMedian : ℕ) (entry : ExpirationEntry Hash) : Bool :=
  entry.expirationTime < txExpirationMedianShift ||
    entry.expirationTime - txExpirationMedianShift < txExpirationTsMedian

/-- The list is walked from its beginning, so the entries in `passed` stay. -/
def handleExpirationEntries (txExpirationTsMedian : ℕ) (passed : List (ExpirationEntry Hash)) :
    List (ExpirationEntry Hash) → WalletState Hash Key Asset →
      Outcome Failure (WalletState Hash Key Asset)
  | [], s => (none, { s with moneyExpirations := passed })
  | entry :: entries, s =>
      if isExpired txExpirationTsMedian entry then
        match forEach (releaseTransfer (flagBlocked ||| flagEscrowProposalReservation))
          entry.selectedTransfers s with
        | (none, s) => handleExpirationEntries txExpirationTsMedian passed entries s
        | (some failure, s) =>
            (some failure, { s with moneyExpirations := passed ++ entry :: entries })
      else handleExpirationEntries txExpirationTsMedian (passed ++ [entry]) entries s

def handleExpirationList (txExpirationTsMedian : ℕ) (s : WalletState Hash Key Asset) :
    Outcome Failure (WalletState Hash Key Asset) :=
  handleExpirationEntries txExpirationTsMedian [] s.moneyExpirations s

def isTruncated (settings : Settings Asset) (s : WalletState Hash Key Asset)
    (td : TransferDetails Hash Key Asset) :
    Bool :=
  settings.conciseMode && td.isSpent && td.spentHeight ≠
    0 && td.flags &&& flagConciseModePreserve = 0 &&
    td.spentHeight + settings.conciseModeMaxReorgBlocks < s.blockchainSize - 1

def truncateWallet (settings : Settings Asset) (s : WalletState Hash Key Asset) :
    WalletState Hash Key Asset :=
  { s with
    transfers := s.transfers.filter fun _ td => !isTruncated settings s td
    transferHistory :=
      if settings.conciseMode && settings.truncateHistoryMaxEntries ≠ 0 then
        s.transferHistory.drop (s.transferHistory.length - settings.truncateHistoryMaxEntries)
      else s.transferHistory }

/-- `on_idle` and `handle_expiration_list`. Both medians are asked of the daemon,
which may not answer. -/
def releaseOutdated (settings : Settings Asset) (median medianAgain : Option ℕ)
    (s : WalletState Hash Key Asset) :
    Outcome Failure (WalletState Hash Key Asset) :=
  match median with
  | none => (some .other, s)
  | some median =>
      thenDo (scanNotCompliantUnconfirmedTxs settings median s) fun s =>
        match medianAgain with
        | none => (some .other, s)
        | some median => handleExpirationList median s

/-- The end of `refresh` when it has fetched blocks. -/
def finishRefresh (settings : Settings Asset) (median medianAgain : Option ℕ)
    (s : WalletState Hash Key Asset) :
    Outcome Failure (WalletState Hash Key Asset) :=
  thenDo (releaseOutdated settings median medianAgain s) fun s =>
    (none, truncateWallet settings s.clearFreeAmounts)

/-- How `refresh` goes on once no more blocks are pulled: it may return at once, because the pull
was stopped, failed or has fetched nothing. -/
inductive RefreshEnd where
  | atOnce
  | afterBlocks (median medianAgain : Option ℕ)
  deriving DecidableEq, Repr

def refresh (settings : Settings Asset) (events : List (BlockEvent Hash Key Asset))
    (ending : RefreshEnd) (s : WalletState Hash Key Asset) :
    Outcome Failure (WalletState Hash Key Asset) :=
  match ending with
  | .atOnce => forEach (handleEvent settings) events s
  | .afterBlocks median medianAgain =>
      thenDo (forEach (handleEvent settings) events s) (finishRefresh settings median medianAgain)

end Zano.Wallet
