import Mathlib

/-! # Received outputs

Processing a block, the wallet enters each output that is its own and credits it to the balance, to
the history and to the payments. Two outputs with one one-time key share their key image, so only
one of them can ever be spent. A wallet that knows the key image of an output passes over a second
output with that image; a wallet that does not know it credits both.

What the view key finds in a transaction, and what decrypting its attachments yields, is part of the
transaction here. Keys, key images and ids are numbers, since they are only ever compared.
-/

namespace Zano.Wallet.ReceivedOutputs

abbrev PublicKey := Nat

abbrev KeyImage := Nat

abbrev Hash := Nat

abbrev AssetId := Nat

def nativeCoinAssetId : AssetId := 0

/-- `CURRENCY_TO_KEY_OUT_FORCED_NO_MIX` -/
def forcedNoMix : Nat := 1

/-- `WALLET_GLOBAL_OUTPUT_INDEX_UNDEFINED` -/
def globalOutputIndexUndefined : Nat := 2 ^ 64 - 1

inductive OutType
  | toKey
  | zarcanum
  | multisig
  | other
  deriving DecidableEq, Repr

/-- A `wallet_out_info` together with what is read of the output itself. -/
structure OwnOut where
  index : Nat
  outType : OutType
  outKey : PublicKey
  multisigId : Hash
  mixAttr : Nat
  amount : Nat
  assetId : AssetId
  paymentId : Nat
  unlockTime : Nat
  deriving DecidableEq, Repr

/-- A zarcanum input is a `spend` of amount zero. A reference by id has no key offset. -/
inductive TxIn
  | spend (keyImage : KeyImage) (amount : Nat) (keyOffsets : List (Option Nat))
  | multisig (multisigOutId : Hash)
  | other
  deriving DecidableEq, Repr

structure Tx where
  hash : Hash
  coinbase : Bool
  hasUnlockTime : Bool
  inputs : List TxIn
  voutSize : Nat
  outs : List OwnOut
  globalOutputIndexes : List Nat
  hasTxWidePaymentId : Bool
  txWidePaymentId : Option String
  usedToEncrypt : Bool
  deriving DecidableEq, Repr

structure Block where
  height : Nat
  hf6Active : Bool
  txs : List Tx
  deriving DecidableEq, Repr

/-- `employed_tx_entry` -/
structure EmployedEntry where
  index : Nat
  amount : Nat
  assetId : AssetId
  paymentId : Nat
  deriving DecidableEq, Repr

/-- The part of `transfer_details` that never changes once the output is entered. -/
structure ReceivedOutput where
  txHash : Hash
  blockHeight : Nat
  outKey : PublicKey
  internalOutputIndex : Nat
  zarcanum : Bool
  mixAttr : Nat
  amount : Nat
  assetId : AssetId
  paymentId : Nat
  globalOutputIndex : Nat
  deriving DecidableEq, Repr

structure TransferDetails extends ReceivedOutput where
  keyImage : Option KeyImage
  spent : Bool
  spentHeight : Nat
  deriving DecidableEq, Repr

/-- An intrinsic payment id becomes a text of eight bytes; one of a whole transaction is a
text to begin with. -/
inductive PaymentId
  | intrinsic (id : Nat)
  | txWide (id : String)
  deriving DecidableEq, Repr

structure PaymentDetails where
  txHash : Hash
  blockHeight : Nat
  unlockTime : Nat
  amount : Nat
  subtransfers : List (AssetId × Nat)
  deriving DecidableEq, Repr

structure SubTransfer where
  paymentId : PaymentId
  assetId : AssetId
  isIncome : Bool
  amount : Nat
  deriving DecidableEq, Repr

structure TransferInfo where
  txHash : Hash
  height : Nat
  receive : List EmployedEntry
  spent : List EmployedEntry
  subtransfers : List SubTransfer
  deriving DecidableEq, Repr

/-- `m_transfers` is a list in the order of its indexes. -/
structure WalletState where
  watchOnly : Bool
  auditable : Bool
  useDeferredGlobalOutputs : Bool
  minimumHeight : Nat
  currentSize : Nat
  transfers : List (Nat × TransferDetails)
  keyImages : List (KeyImage × Nat)
  pendingKeyImages : List (PublicKey × KeyImage)
  amountGindexToTransferId : Nat × Nat → Option Nat
  multisigTransfers : List Hash
  payments : List (PaymentId × PaymentDetails)
  transferHistory : List TransferInfo

/-- `process_transaction_context`. The two balance maps are kept as the list of what
was added to them. -/
structure Context where
  balanceChanges : List (Nat × AssetId × Int)
  receive : List EmployedEntry
  spent : List EmployedEntry
  spentOwnOutsInInputs : Bool
  maxOutUnlockTime : Nat

/-! ## Inputs -/

def ReceivedOutput.amountForGlobalOutputIndex (output : ReceivedOutput) : Nat :=
  if output.zarcanum then 0 else output.amount

def Context.handleIncomingTxInput (c : Context) (td : TransferDetails) (index : Nat) : Context :=
  { c with
    balanceChanges := c.balanceChanges ++ [(0, td.assetId, -(td.amount : Int))]
    spent := c.spent ++ [⟨index, td.amount, td.assetId, 0⟩]
    spentOwnOutsInInputs := true }

/-- `get_directly_spent_transfer_index_by_input_in_tracking_wallet`; the outer
`none` is an exception. -/
def directlySpent (w : WalletState) (amount : Nat) (single : Bool) :
    List (Option Nat) → Option (Option Nat)
  | [] => some none
  | none :: rest => directlySpent w amount single rest
  | some gindex :: rest =>
      match w.amountGindexToTransferId (amount, gindex) with
      | none => directlySpent w amount single rest
      | some tid =>
          match w.transfers.lookup tid with
          | none => none
          | some td =>
              if !single then
                if td.mixAttr = forcedNoMix then none else directlySpent w amount single rest
              else if td.spentHeight ≠ 0 then none
              else some (some tid)

def WalletState.spentIndex (w : WalletState) (keyImage : KeyImage) (amount : Nat)
    (keyOffsets : List (Option Nat)) :
    Option (Option Nat) :=
  if w.auditable && w.watchOnly then directlySpent w amount (keyOffsets.length = 1) keyOffsets
  else some (w.keyImages.lookup keyImage)

def TransferDetails.spend (td : TransferDetails) (height : Nat) : TransferDetails :=
  { td with spent := true, spentHeight := height }

def WalletState.modifyTransfer (w : WalletState) (tid : Nat)
    (f : TransferDetails → TransferDetails) : WalletState :=
  { w with transfers := w.transfers.map fun e => if e.1 = tid then (e.1, f e.2) else e }

/-- One turn of the loop over the inputs with `process_input_t`. An index that is not in the table
makes the wallet resync, which is an exception here. -/
def processInput (height : Nat) (w : WalletState) (c : Context) (index : Nat) :
    TxIn → Option (WalletState × Context)
  | .spend keyImage amount keyOffsets =>
      match w.spentIndex keyImage amount keyOffsets with
      | none => none
      | some none => some (w, c)
      | some (some tid) =>
          match w.transfers.lookup tid with
          | none => none
          | some td =>
              some (w.modifyTransfer tid (·.spend height), c.handleIncomingTxInput td index)
  | .multisig id =>
      if id ∈ w.multisigTransfers then
        some (w, { c with spent := c.spent ++ [⟨index, 0, nativeCoinAssetId, 0⟩] })
      else some (w, c)
  | .other => some (w, c)

def processInputs (height : Nat) (w : WalletState) (c : Context) (index : Nat) :
    List TxIn → Option (WalletState × Context)
  | [] => some (w, c)
  | input :: rest =>
      (processInput height w c index input).bind fun next =>
        processInputs height next.1 next.2 (index + 1) rest

/-! ## Outputs -/

variable (generateKeyImage : PublicKey → KeyImage)

/-- The key image that the wallet knows for an output, if any. -/
def WalletState.keyImageFor (w : WalletState) (outKey : PublicKey) : Option KeyImage :=
  if w.watchOnly then
    if w.auditable then none else w.pendingKeyImages.lookup outKey
  else some (generateKeyImage outKey)

def WalletState.hasKeyImage (w : WalletState) (keyImage : KeyImage) : Bool :=
  (w.keyImages.lookup keyImage).isSome

def WalletState.newIndex (w : WalletState) : Nat :=
  match w.transfers.getLast? with
  | none => 0
  | some (index, _) => index + 1

def WalletState.globalOutputIndex (w : WalletState) (tx : Tx) (o : Nat) : Option Nat :=
  match tx.globalOutputIndexes[o]? with
  | some gindex => some gindex
  | none => if w.useDeferredGlobalOutputs then some globalOutputIndexUndefined else none

def OwnOut.received (out : OwnOut) (tx : Tx) (height gindex : Nat) : ReceivedOutput where
  txHash := tx.hash
  blockHeight := height
  outKey := out.outKey
  internalOutputIndex := out.index
  zarcanum := out.outType = .zarcanum
  mixAttr := out.mixAttr
  amount := out.amount
  assetId := out.assetId
  paymentId := out.paymentId
  globalOutputIndex := gindex

def WalletState.enter (w : WalletState) (td : TransferDetails) : WalletState :=
  { w with
    transfers := w.transfers ++ [(w.newIndex, td)]
    keyImages := (td.keyImage.map fun keyImage => (keyImage, w.newIndex)).toList ++ w.keyImages
    amountGindexToTransferId :=
      if w.watchOnly && w.auditable then
        Function.update w.amountGindexToTransferId
          (td.amountForGlobalOutputIndex, td.globalOutputIndex)
          (some w.newIndex)
      else w.amountGindexToTransferId }

def Context.handleIncomingTxOutput (c : Context) (out : OwnOut) : Context :=
  { c with
    balanceChanges := c.balanceChanges ++ [(out.paymentId, out.assetId, (out.amount : Int))]
    receive := c.receive ++ [⟨out.index, out.amount, out.assetId, out.paymentId⟩]
    maxOutUnlockTime := max c.maxOutUnlockTime out.unlockTime }

/-- One turn of the loop over the outputs. An output whose key image was seen before is disregarded;
a null key image is not looked for. -/
def processOut (height : Nat) (tx : Tx) (w : WalletState) (c : Context) (out : OwnOut) :
    Option (WalletState × Context) :=
  match out.outType with
  | .toKey | .zarcanum =>
      let keyImage := w.keyImageFor generateKeyImage out.outKey
      if keyImage.any w.hasKeyImage then some (w, c)
      else if w.auditable && out.mixAttr != forcedNoMix then some (w, c)
      else (w.globalOutputIndex tx out.index).map fun gindex =>
        (w.enter ⟨out.received tx height gindex, keyImage, false, 0⟩, c.handleIncomingTxOutput out)
  | .multisig => some ({ w with multisigTransfers := out.multisigId :: w.multisigTransfers }, c)
  | .other => some (w, c)

def processOuts (height : Nat) (tx : Tx) (w : WalletState) (c : Context) :
    List OwnOut → Option (WalletState × Context)
  | [] => some (w, c)
  | out :: rest =>
      (processOut generateKeyImage height tx w c out).bind fun next =>
        processOuts height tx next.1 next.2 rest

/-! ## Payments and the history -/

/-- The changes of one group of the balance map: of one intrinsic payment id, or of the
whole transaction. -/
def Context.changesOf (c : Context) (paymentId : PaymentId) : List (AssetId × Int) :=
  match paymentId with
  | .intrinsic id => (c.balanceChanges.filter fun change => change.1 = id).map (·.2)
  | .txWide _ => c.balanceChanges.map (·.2)

def total (changes : List (AssetId × Int)) (assetId : AssetId) : Int :=
  ((changes.filter fun change => change.1 = assetId).map (·.2)).sum

/-- The balance map itself, each asset once. -/
def totals (changes : List (AssetId × Int)) : List (AssetId × Int) :=
  (changes.map (·.1)).dedup.map fun assetId => (assetId, total changes assetId)

def castAmount (amount : Int) : Nat := amount.natAbs % 2 ^ 64

def incomes (changes : List (AssetId × Int)) : List (AssetId × Nat) :=
  ((totals changes).filter fun change => 0 < change.2).map fun change =>
    (change.1, castAmount change.2)

def subtransfersOf (paymentId : PaymentId) (changes : List (AssetId × Int)) : List SubTransfer :=
  ((totals changes).filter fun change => castAmount change.2 ≠ 0).map fun change =>
    ⟨paymentId, change.1, 0 < change.2, castAmount change.2⟩

def paymentOf (height : Nat) (tx : Tx) (c : Context)
    (changes : List (AssetId × Int)) : PaymentDetails where
  txHash := tx.hash
  blockHeight := height
  unlockTime := c.maxOutUnlockTime
  amount := ((incomes changes).lookup nativeCoinAssetId).getD 0
  subtransfers := (incomes changes).filter fun income => income.1 ≠ nativeCoinAssetId

/-- The groups that `process_payment_id_for_wti_and_populate_subtransfers` goes through. -/
def paymentIds (tx : Tx) (c : Context) : List PaymentId :=
  match tx.txWidePaymentId with
  | none => (c.balanceChanges.map (·.1)).dedup.map .intrinsic
  | some id => [.txWide id]

def newPayments (height : Nat) (tx : Tx) (c : Context) : List (PaymentId × PaymentDetails) :=
  ((paymentIds tx c).filter fun id =>
    id ≠ .intrinsic 0 && incomes (c.changesOf id) != [] && height != 0).map fun id =>
      (id, paymentOf height tx c (c.changesOf id))

/-- `handle_money` with `prepare_wti`. -/
def handleMoney (height : Nat) (tx : Tx) (w : WalletState) (c : Context) : WalletState :=
  { w with
    transferHistory := w.transferHistory ++
      [⟨tx.hash, height, c.receive, c.spent,
        (paymentIds tx c).flatMap fun id => subtransfersOf id (c.changesOf id)⟩]
    payments := w.payments ++ newPayments height tx c }

/-- Whether a transaction gets an entry in the history. -/
def movesMoney (tx : Tx) (c : Context) : Bool :=
  (totals (c.changesOf (.txWide ""))).any (fun change => change.2 ≠ 0) || tx.usedToEncrypt ||
    !c.spent.isEmpty

/-! ## Blocks -/

/-- A transaction of the wallet to itself with a payment id is forbidden after
the sixth hard fork. -/
def forbiddenPaymentId (hf6Active : Bool) (tx : Tx) (c : Context) : Bool :=
  hf6Active && c.spentOwnOutsInInputs &&
    ((tx.outs.length = tx.voutSize && tx.hasTxWidePaymentId) || tx.outs.any fun out =>
      out.paymentId ≠ 0)

def skippedForUnlockTime (tx : Tx) : Bool := !tx.coinbase && tx.hasUnlockTime

def Context.initial : Context := ⟨[], [], [], false, 0⟩

def processNewTransaction (hf6Active : Bool) (height : Nat) (w : WalletState)
    (tx : Tx) : Option WalletState :=
  (processInputs height w Context.initial 0 tx.inputs).bind fun (afterInputs, c) =>
    if skippedForUnlockTime tx then some afterInputs
    else if !tx.outs.isEmpty && forbiddenPaymentId hf6Active tx c then some afterInputs
    else if !tx.outs.isEmpty && w.auditable && tx.globalOutputIndexes.length != tx.voutSize then
      none
    else (processOuts generateKeyImage height tx afterInputs c tx.outs).map fun (afterOuts, c) =>
      if movesMoney tx c then handleMoney height tx afterOuts c else afterOuts

/-- What `process_new_blockchain_entry` does, with the block ids left to the chain. The ids of a
chain that begins above genesis begin at any height. -/
def processNewBlockchainEntry (w : WalletState) (b : Block) : Option WalletState :=
  if b.height ≠ w.currentSize ∧ ¬(b.height = w.minimumHeight ∨ w.currentSize ≤ 1) then none
  else
    (if w.minimumHeight < b.height then
      b.txs.foldlM (processNewTransaction generateKeyImage b.hf6Active b.height) w
      else some w).bind fun next =>
        if w.currentSize < b.height ∧ w.currentSize ≠ 1 then none
        else some { next with currentSize := b.height + 1 }

def processGenesisIfNeeded (w : WalletState) (genesis : Tx) : Option WalletState :=
  if !w.transfers.isEmpty || !w.keyImages.isEmpty then some w
  else if 1 < w.currentSize then none
  else processNewTransaction generateKeyImage false 0 { w with currentSize := 1 } genesis

/-! ## Reorganizations and key images learned later -/

/-- Key images of detached outputs are forgotten. Only a watch-only wallet may have entered an
output without one. -/
def eraseKeyImages (watchOnly : Bool) (includingHeight : Nat) :
    List (Nat × TransferDetails) → List (KeyImage × Nat) → Option (List (KeyImage × Nat))
  | [], keyImages => some keyImages
  | (_, td) :: rest, keyImages =>
      match td.keyImage with
      | none => if watchOnly then eraseKeyImages watchOnly includingHeight rest keyImages else none
      | some keyImage =>
          if (keyImages.lookup keyImage).isSome ∧ includingHeight ≤ td.blockHeight then
            eraseKeyImages watchOnly includingHeight rest (keyImages.filter fun e => e.1 ≠ keyImage)
          else none

def TransferDetails.unconfirmSpend (td : TransferDetails)
    (includingHeight : Nat) : TransferDetails :=
  if includingHeight ≤ td.spentHeight then { td with spentHeight := 0 } else td

def detachBlockchain (w : WalletState) (includingHeight : Nat) : Option WalletState :=
  let kept := w.transfers.takeWhile fun e => e.2.blockHeight < includingHeight
  let detached := w.transfers.dropWhile fun e => e.2.blockHeight < includingHeight
  (eraseKeyImages w.watchOnly includingHeight detached w.keyImages).map fun keyImages =>
    { w with
      currentSize := includingHeight
      transfers := kept.map fun e => (e.1, e.2.unconfirmSpend includingHeight)
      keyImages := keyImages
      amountGindexToTransferId := fun pair =>
        (w.amountGindexToTransferId pair).filter fun tid => tid ∉ detached.map (·.1)
      transferHistory := w.transferHistory.rdropWhile fun wti => includingHeight ≤ wti.height
      payments := w.payments.filter fun p => p.2.blockHeight < includingHeight }

/-- One output key whose key image becomes known; the first answer stays. -/
def addPendingKeyImage (w : WalletState) (pair : PublicKey × KeyImage) : WalletState :=
  if (w.pendingKeyImages.lookup pair.1).isSome then w
  else { w with pendingKeyImages := w.pendingKeyImages ++ [pair] }

def associateKeyImage (w : WalletState) (pair : Nat × KeyImage) : Option WalletState :=
  if (w.transfers.lookup pair.1).isSome then
    some { w.modifyTransfer pair.1 fun td => { td with keyImage := some pair.2 } with
      keyImages := (pair.2, pair.1) :: w.keyImages }
  else none

/-- The end of `submit_transfer`, where a watch-only wallet learns key images from a signed
transaction: those of the outputs by their keys and those of the inputs by the indexes of the
transfers that they spend. -/
def submitTransfer (w : WalletState) (outKeyImages : List (PublicKey × KeyImage))
    (inputKeyImages : List (Nat × KeyImage)) : Option WalletState :=
  if w.watchOnly then
    inputKeyImages.foldlM associateKeyImage (outKeyImages.foldl addPendingKeyImage w)
  else none

inductive Request
  | genesis (tx : Tx)
  | newBlock (b : Block)
  | detach (includingHeight : Nat)
  | submitTransfer (outKeyImages : List (PublicKey × KeyImage))
    (inputKeyImages : List (Nat × KeyImage))

/-- `handle_pulled_blocks` comes with the block after the last one, or with any block when it has
detached down to genesis, and detaches blocks that it has. -/
def step (w : WalletState) : Request → Option WalletState
  | .genesis tx => if w.currentSize = 1 then processGenesisIfNeeded generateKeyImage w tx else none
  | .newBlock b =>
      if b.height = w.currentSize ∨ w.currentSize ≤ 1 then
        processNewBlockchainEntry generateKeyImage w b else none
  | .detach includingHeight =>
      if includingHeight ≤ w.currentSize then detachBlockchain w includingHeight else none
  | .submitTransfer outKeyImages inputKeyImages => submitTransfer w outKeyImages inputKeyImages

/-- A wallet that has not seen a block yet, of any kind and with any key images known beforehand. -/
def WalletState.fresh (watchOnly auditable useDeferredGlobalOutputs : Bool) (minimumHeight : Nat)
    (pendingKeyImages : List (PublicKey × KeyImage)) : WalletState where
  watchOnly := watchOnly
  auditable := auditable
  useDeferredGlobalOutputs := useDeferredGlobalOutputs
  minimumHeight := minimumHeight
  currentSize := 1
  transfers := []
  keyImages := []
  pendingKeyImages := pendingKeyImages
  amountGindexToTransferId := fun _ => none
  multisigTransfers := []
  payments := []
  transferHistory := []

end Zano.Wallet.ReceivedOutputs
