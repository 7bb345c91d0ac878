import Mathlib
import Zano.Aliases.Stores

/-! # The transaction pool

The main table of the pool and the tables kept beside it: the key images of its transactions with
the ids that spend them, and the names and addresses of their alias entries. The key images live in
memory only and are read again from the main table when the pool is opened; the others are stored.

What the pool asks of the blockchain and of the format checks is a parameter that may answer
differently at each call.
-/

namespace Zano.Pool

open Aliases

/-- The kinds of inputs; key offsets and amounts are not looked at by the pool. -/
inductive TxinV (Hash KeyImage : Type*) where
  | gen
  | toKey (kImage : KeyImage)
  | multisig (multisigOutId : Hash)
  | htlc (kImage : KeyImage)
  | zcInput (kImage : KeyImage)
  | gateway
  deriving DecidableEq, Repr

/-- The entries of the extra. The pool looks into aliases only; the others that may
stand once are kinds. -/
inductive ExtraV (Address SecretKey Signature : Type*) where
  | publicKey
  | attachmentInfo
  | aliasEntry (entry : ExtraAliasEntry Address SecretKey Signature)
  | aliasEntryOld (entry : ExtraAliasEntry Address SecretKey Signature)
  | assetOperation
  | gatewayOperation
  | userData
  | padding
  | rest
  deriving DecidableEq, Repr

/-- The hashed part of a transaction. `multisigOuts` are the ids of its bare multisig outputs. -/
structure TransactionBody (Hash KeyImage Address SecretKey Signature : Type*) where
  version : Nat
  vin : List (TxinV Hash KeyImage)
  extra : List (ExtraV Address SecretKey Signature)
  multisigOuts : List Hash
  deriving DecidableEq, Repr

/-- `W` is the part that the id does not depend on: signatures, proofs and the attachment. -/
structure Transaction (Hash KeyImage Address SecretKey Signature W : Type*) extends
    TransactionBody Hash KeyImage Address SecretKey Signature where
  witness : W
  deriving DecidableEq, Repr

/-- `none` stands for `null_hash`. -/
structure TxDetails (Hash KeyImage Address SecretKey Signature W : Type*) where
  tx : Transaction Hash KeyImage Address SecretKey Signature W
  blobSize : UInt64
  fee : UInt64
  maxUsedBlockHeight : UInt64
  maxUsedBlockId : Option Hash
  keptByBlock : Bool
  lastFailedHeight : UInt64
  lastFailedId : Option Hash
  receiveTime : UInt64
  deriving DecidableEq, Repr

structure TxMemoryPool (Hash KeyImage Address SecretKey Signature W : Type*) where
  transactions : AList fun _ : Hash => TxDetails Hash KeyImage Address SecretKey Signature W
  blackTxList : Finset Hash
  aliasNames : Finset String
  aliasAddresses : Finset Address
  keyImages : KeyImage → Option (Finset Hash)
  takenTxs : Finset Hash

structure TxVerificationContext where
  shouldBeRelayed : Bool
  verificationFailed : Bool
  verificationImpossible : Bool
  addedToPool : Bool
  poolFull : Bool
  deriving DecidableEq, Repr

def memPoolTxLivetime : Int64 := 345600

def memPoolMaxTxCount : Nat := 10000

def conflictKeyImageSpentDepthToRemoveTxFromPool : UInt64 := 50

def transactionVersionPreHf4 : Nat := 1

/-! ## What a transaction takes -/

section Taken

variable {Hash KeyImage Address SecretKey Signature W : Type*}

def TxinV.keyImage : TxinV Hash KeyImage → Option KeyImage
  | .zcInput kImage => some kImage
  | .toKey kImage => some kImage
  | _ => none

def TxinV.multisigId : TxinV Hash KeyImage → Option Hash
  | .multisig multisigOutId => some multisigOutId
  | _ => none

def TransactionBody.keyImages
    (tx : TransactionBody Hash KeyImage Address SecretKey Signature) : List KeyImage :=
  tx.vin.filterMap TxinV.keyImage

/-- What may stand in an extra once. -/
inductive ExtraKind where
  | publicKey
  | attachment
  | aliasEntry
  | asset
  | gateway
  | userdata
  | padding
  deriving DecidableEq, Repr

def ExtraV.kind : ExtraV Address SecretKey Signature → Option ExtraKind
  | .publicKey => some .publicKey
  | .attachmentInfo => some .attachment
  | .aliasEntry _ => some .aliasEntry
  | .aliasEntryOld _ => some .aliasEntry
  | .assetOperation => some .asset
  | .gatewayOperation => some .gateway
  | .userData => some .userdata
  | .padding => some .padding
  | .rest => none

def ExtraV.alias? :
    ExtraV Address SecretKey Signature → Option (ExtraAliasEntry Address SecretKey Signature)
  | .aliasEntry entry => some entry
  | .aliasEntryOld entry => some entry
  | _ => none

/-- The alias of `parse_and_validate_tx_extra`; it fails on an entry whose kind has been `seen`. -/
def parseAndValidateTxExtra (seen : List ExtraKind)
    (found : Option (ExtraAliasEntry Address SecretKey Signature)) :
    List (ExtraV Address SecretKey Signature) →
      Option (Option (ExtraAliasEntry Address SecretKey Signature))
  | [] => some found
  | e :: rest =>
      match e.kind with
      | none => parseAndValidateTxExtra seen found rest
      | some kind =>
          if kind ∈ seen then none
          else parseAndValidateTxExtra (kind :: seen) (e.alias? <|> found) rest

/-- The alias entry that `insert_alias_info` and `remove_alias_info` work on. -/
def TransactionBody.aliasInfo (tx : TransactionBody Hash KeyImage Address SecretKey Signature) :
    Option (ExtraAliasEntry Address SecretKey Signature) :=
  match parseAndValidateTxExtra [] none tx.extra with
  | some (some entry) => if entry.aliasName = "" then none else some entry
  | _ => none

end Taken

/-! ## What the pool asks -/

/-- The answers of the blockchain, of the clock and of the format checks during one call. -/
structure Environment (Hash KeyImage Address SecretKey Signature W : Type*) where
  disableTxValidationOnAddition : Bool
  isInCheckpointZone : Bool
  validateTxForHardforkSpecificTerms : Transaction Hash KeyImage Address SecretKey Signature W →
    Hash → Bool
  isTxExpired : Transaction Hash KeyImage Address SecretKey Signature W → Bool
  checkInputsAndOutputsSize : Transaction Hash KeyImage Address SecretKey Signature W → Bool
  getTxFee : Transaction Hash KeyImage Address SecretKey Signature W → Option UInt64
  getAliasInfo : String → Bool
  getAliasByAddress : Address → String
  prevalidateAliasInfo : Transaction Hash KeyImage Address SecretKey Signature W →
    ExtraAliasEntry Address SecretKey Signature → Bool
  validateTxSemantic : Transaction Hash KeyImage Address SecretKey Signature W → UInt64 →
    Hash → Bool
  txPoolMinFee : UInt64
  hasMultisigOutput : Hash → Bool
  checkTxInputs : Transaction Hash KeyImage Address SecretKey Signature W → Hash →
    Option (Option Hash × UInt64)
  checkTxBalance : Transaction Hash KeyImage Address SecretKey Signature W → Hash → Bool
  validateAssetOperation : Transaction Hash KeyImage Address SecretKey Signature W → Hash → Bool
  coreTime : UInt64
  isTxRelatedToAltblock : Hash → Bool
  currentBlockchainSize : UInt64
  haveTxKeyimgAsSpent : KeyImage → UInt64 → Bool

namespace TxMemoryPool

variable {Hash KeyImage Address SecretKey Signature W : Type*}

def empty : TxMemoryPool Hash KeyImage Address SecretKey Signature W where
  transactions := ∅
  blackTxList := ∅
  aliasNames := ∅
  aliasAddresses := ∅
  keyImages := fun _ => none
  takenTxs := ∅

/-! ## Side tables -/

section SideTables

variable [DecidableEq KeyImage]

def insertKeyImage [DecidableEq Hash] (id : Hash) (keyImages : KeyImage → Option (Finset Hash))
    (kImage : KeyImage) :
    KeyImage → Option (Finset Hash) :=
  Function.update keyImages kImage (some (insert id ((keyImages kImage).getD ∅)))

def insertKeyImages [DecidableEq Hash] (keyImages : KeyImage → Option (Finset Hash)) (id : Hash)
    (tx : Transaction Hash KeyImage Address SecretKey Signature W) :
    KeyImage → Option (Finset Hash) :=
  tx.keyImages.foldl (insertKeyImage id) keyImages

/-- An id set that is empty now is erased from the map. -/
def removeKeyImage [DecidableEq Hash] (id : Hash) (keyImages : KeyImage → Option (Finset Hash))
    (kImage : KeyImage) :
    KeyImage → Option (Finset Hash) :=
  let idSet := ((keyImages kImage).getD ∅).erase id
  Function.update keyImages kImage (if idSet = ∅ then none else some idSet)

def removeKeyImages [DecidableEq Hash] (keyImages : KeyImage → Option (Finset Hash)) (id : Hash)
    (tx : Transaction Hash KeyImage Address SecretKey Signature W) :
    KeyImage → Option (Finset Hash) :=
  tx.keyImages.foldl (removeKeyImage id) keyImages

variable [DecidableEq Hash] [DecidableEq Address]

def onTxAdd (s : TxMemoryPool Hash KeyImage Address SecretKey Signature W) (id : Hash)
    (tx : Transaction Hash KeyImage Address SecretKey Signature W) :
    TxMemoryPool Hash KeyImage Address SecretKey Signature W :=
  let s := { s with keyImages := insertKeyImages s.keyImages id tx }
  match tx.aliasInfo with
  | none => s
  | some entry =>
      { s with
        aliasNames := insert entry.aliasName s.aliasNames
        aliasAddresses := insert entry.address s.aliasAddresses }

def onTxRemove (s : TxMemoryPool Hash KeyImage Address SecretKey Signature W) (id : Hash)
    (tx : Transaction Hash KeyImage Address SecretKey Signature W) :
    TxMemoryPool Hash KeyImage Address SecretKey Signature W :=
  let s := { s with keyImages := removeKeyImages s.keyImages id tx }
  match tx.aliasInfo with
  | none => s
  | some entry =>
      { s with
        aliasNames := s.aliasNames.erase entry.aliasName
        aliasAddresses := s.aliasAddresses.erase entry.address }

/-- `get_key_images_from_tx_pool`: the key images of the main table are added to a map. -/
def getKeyImagesFromTxPool (s : TxMemoryPool Hash KeyImage Address SecretKey Signature W)
    (keyImages : KeyImage → Option (Finset Hash)) : KeyImage → Option (Finset Hash) :=
  s.transactions.entries.foldl (fun keyImages e => insertKeyImages keyImages e.1 e.2.tx) keyImages

end SideTables

/-! ## Questions -/

section Questions

variable [DecidableEq Hash]

omit [DecidableEq Hash] in
def haveTxKeyimgAsSpent (s : TxMemoryPool Hash KeyImage Address SecretKey Signature W)
    (kImage : KeyImage) : Bool :=
  (s.keyImages kImage).isSome

omit [DecidableEq Hash] in
def haveTxKeyimgesAsSpent (s : TxMemoryPool Hash KeyImage Address SecretKey Signature W)
    (tx : Transaction Hash KeyImage Address SecretKey Signature W) : Bool :=
  tx.keyImages.any s.haveTxKeyimgAsSpent

/-- What the visitor of `validate_alias_info` returns for an alias entry. -/
def validateAliasEntry [DecidableEq Address]
    (env : Environment Hash KeyImage Address SecretKey Signature W)
    (s : TxMemoryPool Hash KeyImage Address SecretKey Signature W)
    (tx : Transaction Hash KeyImage Address SecretKey Signature W) (isInBlock : Bool)
    (eai : ExtraAliasEntry Address SecretKey Signature) : Bool :=
  if !isInBlock && eai.sign.isEmpty && env.getAliasInfo eai.aliasName then false
  else if !isInBlock && eai.sign.isEmpty && env.getAliasByAddress eai.address != "" then false
  else if !isInBlock then
    if eai.aliasName ∈ s.aliasNames then false
    else if eai.address ∈ s.aliasAddresses then false
    else env.prevalidateAliasInfo tx eai
  else true

/-- The visitor stops at the first entry that it refuses. -/
def validateAliasInfo [DecidableEq Address]
    (env : Environment Hash KeyImage Address SecretKey Signature W)
    (s : TxMemoryPool Hash KeyImage Address SecretKey Signature W)
    (tx : Transaction Hash KeyImage Address SecretKey Signature W) (isInBlock : Bool) : Bool :=
  (tx.extra.filterMap ExtraV.alias?).all (s.validateAliasEntry env tx isInBlock)

def doesTxHaveGivenMultisigId (tx : Transaction Hash KeyImage Address SecretKey Signature W)
    (multisigId : Hash) :
    Bool :=
  decide (multisigId ∈ tx.vin.filterMap TxinV.multisigId) || decide (multisigId ∈ tx.multisigOuts)

def checkTxMultisigInsAndOuts (env : Environment Hash KeyImage Address SecretKey Signature W)
    (s : TxMemoryPool Hash KeyImage Address SecretKey Signature W)
    (tx : Transaction Hash KeyImage Address SecretKey Signature W)
    (checkAgainstPoolTxs : Bool) : Bool :=
  let free := fun multisigId =>
    !checkAgainstPoolTxs || s.transactions.entries.all fun e =>
      !doesTxHaveGivenMultisigId e.2.tx multisigId
  (tx.vin.filterMap TxinV.multisigId).all free &&
    tx.multisigOuts.all fun multisigId => !env.hasMultisigOutput multisigId && free multisigId

end Questions

/-! ## Adding -/

section Adding

variable [DecidableEq Hash] [DecidableEq KeyImage] [DecidableEq Address]

omit [DecidableEq Hash] [DecidableEq KeyImage] [DecidableEq Address] in
/-- The entry that `do_insert_transaction` stores. -/
def newDetails (coreTime : UInt64) (tx : Transaction Hash KeyImage Address SecretKey Signature W)
    (blobSize : UInt64) (keptByBlock : Bool) (fee : UInt64) (maxUsed : Option Hash × UInt64) :
    TxDetails Hash KeyImage Address SecretKey Signature W where
  tx := tx
  blobSize := blobSize
  fee := fee
  maxUsedBlockHeight := maxUsed.2
  maxUsedBlockId := maxUsed.1
  keptByBlock := keptByBlock
  lastFailedHeight := 0
  lastFailedId := none
  receiveTime := coreTime

def doInsertTransaction (s : TxMemoryPool Hash KeyImage Address SecretKey Signature W)
    (coreTime : UInt64) (tx : Transaction Hash KeyImage Address SecretKey Signature W) (id : Hash)
    (blobSize : UInt64) (keptByBlock : Bool) (fee : UInt64) (maxUsed : Option Hash × UInt64) :
    TxMemoryPool Hash KeyImage Address SecretKey Signature W :=
  let td := newDetails coreTime tx blobSize keptByBlock fee maxUsed
  { s with transactions := s.transactions.insert id td }.onTxAdd id tx

def checkInputsTypesSupported
    (tx : Transaction Hash KeyImage Address SecretKey Signature W) : Bool :=
  tx.vin.all fun
    | .toKey _ | .multisig _ | .zcInput _ | .gateway => true
    | .gen | .htlc _ => false

/-- The checks of `add_tx`. A refusal comes with the return value and the verification context;
otherwise the fee and the result of the input check are returned. -/
def verifyTx (env : Environment Hash KeyImage Address SecretKey Signature W)
    (s : TxMemoryPool Hash KeyImage Address SecretKey Signature W)
    (tx : Transaction Hash KeyImage Address SecretKey Signature W) (id : Hash) (blobSize : UInt64)
    (tvc : TxVerificationContext) (keptByBlock fromCore : Bool) :
    Except (Bool × TxVerificationContext) (UInt64 × Option (Option Hash × UInt64)) := do
  let fromNetwork := !keptByBlock && !fromCore
  let refused := { tvc with addedToPool := false, verificationFailed := true }
  if fromNetwork && env.isInCheckpointZone then
    throw (false, { refused with
      shouldBeRelayed := false
      verificationFailed := false
      verificationImpossible := true })
  if fromNetwork && memPoolMaxTxCount < s.transactions.entries.length then
    throw (false, { refused with
      shouldBeRelayed := false
      verificationFailed := false
      poolFull := true })
  if !env.validateTxForHardforkSpecificTerms tx id then throw (false, refused)
  if !checkInputsTypesSupported tx then throw (false, refused)
  if fromNetwork && env.isTxExpired tx then throw (false, refused)
  if !env.checkInputsAndOutputsSize tx then throw (false, refused)
  let some txFee := env.getTxFee tx | throw (false, refused)
  if !fromCore && !s.validateAliasInfo env tx keptByBlock then throw (false, refused)
  if fromNetwork then
    if !env.validateTxSemantic tx blobSize id then
      throw (false, { refused with shouldBeRelayed := false })
    if s.haveTxKeyimgesAsSpent tx then throw (false, refused)
    -- too small a fee refuses the transaction, yet the call succeeds
    if txFee < env.txPoolMinFee then
      throw (true, { refused with
        verificationFailed := false
        shouldBeRelayed := false })
    if !s.checkTxMultisigInsAndOuts env tx true then throw (false, refused)
  let inputs := env.checkTxInputs tx id
  if inputs.isNone && fromNetwork then throw (false, refused)
  if !fromCore && decide (transactionVersionPreHf4 < tx.version) then
    if !env.checkTxBalance tx id then throw (false, refused)
    if !env.validateAssetOperation tx id then throw (false, refused)
  return (txFee, inputs)

def addTx (env : Environment Hash KeyImage Address SecretKey Signature W)
    (s : TxMemoryPool Hash KeyImage Address SecretKey Signature W)
    (tx : Transaction Hash KeyImage Address SecretKey Signature W) (id : Hash) (blobSize : UInt64)
    (tvc : TxVerificationContext) (keptByBlock fromCore : Bool) :
    (Bool × TxVerificationContext) × TxMemoryPool Hash KeyImage Address SecretKey Signature W :=
  if env.disableTxValidationOnAddition then
    match env.getTxFee tx with
    | none => ((false, tvc), s)
    | some txFee =>
        ((true, { tvc with
            addedToPool := true
            shouldBeRelayed := true
            verificationFailed := false
            verificationImpossible := false }),
          s.doInsertTransaction env.coreTime tx id blobSize keptByBlock txFee (none, 0))
  else
    match s.verifyTx env tx id blobSize tvc keptByBlock fromCore with
    | .error refusal => (refusal, s)
    | .ok (txFee, inputs) =>
        ((true, { tvc with
            addedToPool := true
            shouldBeRelayed := inputs.isSome
            verificationImpossible := inputs.isNone
            verificationFailed := false }),
          s.doInsertTransaction env.coreTime tx id blobSize keptByBlock txFee
            (inputs.getD (none, 0)))

end Adding

/-! ## Removing -/

section Removing

variable [DecidableEq Hash] [DecidableEq KeyImage] [DecidableEq Address]

def eraseTx (s : TxMemoryPool Hash KeyImage Address SecretKey Signature W) (id : Hash)
    (tx : Transaction Hash KeyImage Address SecretKey Signature W) :
    TxMemoryPool Hash KeyImage Address SecretKey Signature W :=
  { s with transactions := s.transactions.erase id }.onTxRemove id tx

def takeTx (s : TxMemoryPool Hash KeyImage Address SecretKey Signature W) (id : Hash) :
    Option (Transaction Hash KeyImage Address SecretKey Signature W × UInt64 × UInt64) ×
      TxMemoryPool Hash KeyImage Address SecretKey Signature W :=
  match s.transactions.lookup id with
  | none => (none, s)
  | some td =>
      let s := s.eraseTx id td.tx
      (some (td.tx, td.blobSize, td.fee), { s with takenTxs := insert id s.takenTxs })

/-- One entry for each reason to remove a transaction: it is outdated, it is expired, or a key image
of it was spent in the blockchain deep enough. -/
def stuckEntries (env : Environment Hash KeyImage Address SecretKey Signature W) (id : Hash)
    (td : TxDetails Hash KeyImage Address SecretKey Signature W) :
    List (Hash × Transaction Hash KeyImage Address SecretKey Signature W) :=
  if env.isTxRelatedToAltblock id then []
  else
    let outdated := decide (memPoolTxLivetime < (env.coreTime - td.receiveTime).toInt64)
    let shouldBeSpentBeforeHeight := env.currentBlockchainSize - 1
    let spent :=
      decide (conflictKeyImageSpentDepthToRemoveTxFromPool < shouldBeSpentBeforeHeight) &&
      td.tx.keyImages.any fun kImage => env.haveTxKeyimgAsSpent kImage
        (shouldBeSpentBeforeHeight - conflictKeyImageSpentDepthToRemoveTxFromPool)
    [outdated, env.isTxExpired td.tx, spent].filterMap fun reason => if reason then
      some (id, td.tx) else none

def removeStuckTransactions (env : Environment Hash KeyImage Address SecretKey Signature W)
    (s : TxMemoryPool Hash KeyImage Address SecretKey Signature W) :
    TxMemoryPool Hash KeyImage Address SecretKey Signature W :=
  let toDelete := s.transactions.entries.flatMap fun e => stuckEntries env e.1 e.2
  toDelete.foldl (fun s e => s.eraseTx e.1 e.2) s

def removeIncompatibleTxs (env : Environment Hash KeyImage Address SecretKey Signature W)
    (s : TxMemoryPool Hash KeyImage Address SecretKey Signature W) :
    TxMemoryPool Hash KeyImage Address SecretKey Signature W :=
  let invalidTxIds := (s.transactions.entries.filter fun e =>
    !env.validateTxForHardforkSpecificTerms e.2.tx e.1).map (·.1)
  invalidTxIds.foldl (fun s id => (s.takeTx id).2) s

omit [DecidableEq Hash] [DecidableEq KeyImage] [DecidableEq Address] in
def purgeTransactions (s : TxMemoryPool Hash KeyImage Address SecretKey Signature W) :
    TxMemoryPool Hash KeyImage Address SecretKey Signature W :=
  { s with
    transactions := ∅
    keyImages := fun _ => none }

omit [DecidableEq Hash] [DecidableEq KeyImage] [DecidableEq Address] in
def clear (s : TxMemoryPool Hash KeyImage Address SecretKey Signature W) :
    TxMemoryPool Hash KeyImage Address SecretKey Signature W :=
  { s with
    transactions := ∅
    blackTxList := ∅
    keyImages := fun _ => none }

/-- The pool of a new process that opens the stored containers. A pool of another major version is
deleted and created anew. -/
def reload (s : TxMemoryPool Hash KeyImage Address SecretKey Signature W) (compatible : Bool) :
    TxMemoryPool Hash KeyImage Address SecretKey Signature W :=
  if compatible then
    { s with
      keyImages := s.getKeyImagesFromTxPool fun _ => none
      takenTxs := ∅ }
  else empty

end Removing

/-! ## Runs -/

inductive Request (Hash KeyImage Address SecretKey Signature W : Type*) where
  | addTx (env : Environment Hash KeyImage Address SecretKey Signature W)
      (tx : Transaction Hash KeyImage Address SecretKey Signature W) (blobSize : UInt64)
      (tvc : TxVerificationContext) (keptByBlock fromCore : Bool)
  | takeTx (id : Hash)
  | removeStuckTransactions (env : Environment Hash KeyImage Address SecretKey Signature W)
  | removeIncompatibleTxs (env : Environment Hash KeyImage Address SecretKey Signature W)
  | purgeTransactions
  | clear
  | reload (compatible : Bool)

/-- A transaction is added under its hash. -/
def step [DecidableEq Hash] [DecidableEq KeyImage] [DecidableEq Address]
    (getTransactionHash : TransactionBody Hash KeyImage Address SecretKey Signature → Hash)
    (s : TxMemoryPool Hash KeyImage Address SecretKey Signature W) :
    Request Hash KeyImage Address SecretKey Signature W →
      Option (TxMemoryPool Hash KeyImage Address SecretKey Signature W)
  | .addTx env tx blobSize tvc keptByBlock fromCore =>
      some (s.addTx env tx (getTransactionHash tx.toTransactionBody) blobSize tvc keptByBlock
        fromCore).2
  | .takeTx id => some (s.takeTx id).2
  | .removeStuckTransactions env => some (s.removeStuckTransactions env)
  | .removeIncompatibleTxs env => some (s.removeIncompatibleTxs env)
  | .purgeTransactions => some s.purgeTransactions
  | .clear => some s.clear
  | .reload compatible => some (s.reload compatible)

end TxMemoryPool

end Zano.Pool
