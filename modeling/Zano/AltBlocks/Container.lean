import Mathlib
import Zano.AltBlocks.MainChain

/-! # Alternative blocks

The container of the alternative blocks, its two side tables, and how a block is validated on top of
an alternative chain and put into the container. Ring signatures, multisig signatures, the semantic
and hardfork checks of a transaction and the checks of a block that are made before its transactions
are looked at are answers of the environment.

A switch to an alternative chain takes blocks off the main chain, adds others to it, adds
alternative blocks and erases alternative blocks; each of these is a request of its own here.
-/

namespace Zano.AltBlocks

open Blockchain (TxoutRefV GlobalOutputEntry MsOutputEntry)

def currencyHf4MandatoryMinCoinage : Nat := 10

def currencyAltBlockLivetimeCount : Nat := 1440 / 12

structure AltBlockExtendedInfo (Hash KeyImage Key : Type*) where
  bl : Block Hash KeyImage Key
  height : Nat
  timestamp : Nat
  gindexLookupTable : AList fun _ : UInt64 => Nat
  outputs : AList fun _ : UInt64 => List (TxOutV Hash Key)
  onboardTransactions : AList fun _ : Hash => Transaction Hash KeyImage Key

/-- An alternative subchain with the ids of its blocks: the first is connected to the main chain,
the last is the head. -/
abbrev AltChain (Hash KeyImage Key : Type*) := List (Hash × AltBlockExtendedInfo Hash KeyImage Key)

structure Environment (Hash KeyImage Key : Type*) where
  pool : Hash → Option (Transaction Hash KeyImage Key)
  coreTime : Nat
  getTransactionHash : Transaction Hash KeyImage Key → Hash
  blockChecks : Block Hash KeyImage Key → Hash → Nat → Bool
  isHardforkActiveForHeight : Nat → Bool
  minCoinstakeAge : Nat
  validateTxSemantic : Transaction Hash KeyImage Key → Hash → Bool
  validateTxForHardforkSpecificTerms : Transaction Hash KeyImage Key → Option Hash → Nat → Bool
  isMixattrApplicable : Transaction Hash KeyImage Key → TxOutV Hash Key → Nat → Bool
  checkInputSignature : Transaction Hash KeyImage Key → Nat → Hash → List (TxOutV Hash Key) → Bool
  checkMsInput : Transaction Hash KeyImage Key → Nat → Hash → Transaction Hash KeyImage Key →
    Nat → Bool

structure Node (Hash KeyImage Key : Type*) [DecidableEq Hash] [DecidableEq KeyImage] where
  main : MainChain Hash KeyImage Key
  alternativeChains : AList fun _ : Hash => AltBlockExtendedInfo Hash KeyImage Key
  altblocksKeyimages : KeyImage → Option (List Hash)
  alternativeChainsTxs : Hash → Option Nat

section Tables

variable {Hash KeyImage Key : Type*}

/-! ## Output indexes -/

/-- `update_alt_out_indexes_for_tx_in_block` for one output: an amount that is met first starts at
the present size of its index in the main chain. -/
def updateAltOutIndexes (db : MainTables Hash KeyImage Key)
    (abei : AltBlockExtendedInfo Hash KeyImage Key) (out : TxOutV Hash Key) :
    AltBlockExtendedInfo Hash KeyImage Key :=
  match out.indexedAmount with
  | none => abei
  | some amount =>
      { abei with
        gindexLookupTable :=
          match abei.gindexLookupTable.lookup amount with
          | some _ => abei.gindexLookupTable
          | none => abei.gindexLookupTable.insert amount (db.outputs amount).length
        outputs := abei.outputs.insert amount (((abei.outputs.lookup amount).getD []) ++ [out]) }

def updateAltOutIndexesForTxInBlock (db : MainTables Hash KeyImage Key)
    (abei : AltBlockExtendedInfo Hash KeyImage Key) (tx : Transaction Hash KeyImage Key) :
    AltBlockExtendedInfo Hash KeyImage Key :=
  tx.vout.foldl (updateAltOutIndexes db) abei

/-- The table of the previous block, moved on by the outputs of that block. -/
def shiftedLookupTable (table : AList fun _ : UInt64 => Nat) :
    List ((_ : UInt64) × List (TxOutV Hash Key)) → Option (AList fun _ : UInt64 => Nat)
  | [] => some table
  | e :: rest =>
      match table.lookup e.1 with
      | none => none
      | some start => shiftedLookupTable (table.insert e.1 (start + e.2.length)) rest

/-- The outputs of each amount in the main chain from a height on. -/
def incrementsFrom (db : MainTables Hash KeyImage Key) (height : Nat) :
    AList fun _ : UInt64 => Nat :=
  ((db.perBlockGindexIncs.drop height).flatMap (·.entries)).foldl
    (fun gindexes e => gindexes.insert e.1 ((gindexes.lookup e.1).getD 0 + e.2)) ∅

/-- The index at a height is the index now less what has come since. -/
def backFromNow (db : MainTables Hash KeyImage Key) :
    List ((_ : UInt64) × Nat) → Option (AList fun _ : UInt64 => Nat)
  | [] => some ∅
  | e :: rest =>
      if (db.outputs e.1).length < e.2 then none
      else (backFromNow db rest).map fun gindexes =>
        gindexes.insert e.1 ((db.outputs e.1).length - e.2)

/-- `none` where an invariant is found broken and an exception is thrown. The increments are stored
under heights of 32 bits, so beyond that there are fewer of them than blocks. -/
def calculateLocalGindexLookupTableForHeight (db : MainTables Hash KeyImage Key) (height : Nat) :
    Option (AList fun _ : UInt64 => Nat) :=
  if db.perBlockGindexIncs.length ≠ db.blocks.length ∨ 2 ^ 32 < db.blocks.length then none
  else backFromNow db (incrementsFrom db height).entries

/-! ## Key images and transaction ids of all alternative blocks -/

variable [DecidableEq Hash] [DecidableEq KeyImage]

omit [DecidableEq Hash] in
def appendAltblockKeyimage (blockId : Hash) (heap : KeyImage → Option (List Hash)) (ki : KeyImage) :
    KeyImage → Option (List Hash) :=
  Function.update heap ki (some ((heap ki).getD [] ++ [blockId]))

omit [DecidableEq Hash] in
def appendAltblockKeyimagesToBigHeap (heap : KeyImage → Option (List Hash)) (blockId : Hash)
    (altBlockKeyimages : List KeyImage) : KeyImage → Option (List Hash) :=
  altBlockKeyimages.foldl (appendAltblockKeyimage blockId) heap

/-- A key image or an id that is not found is only logged. -/
def purgeKeyimageFromBigHeap (blockId : Hash) (heap : KeyImage → Option (List Hash))
    (ki : KeyImage) :
    KeyImage → Option (List Hash) :=
  match heap ki with
  | none => heap
  | some kiBlocksIds =>
      let left := kiBlocksIds.erase blockId
      Function.update heap ki (if left = [] then none else some left)

/-- `get_transaction_from_pool_or_db`. -/
def getTransactionFromPoolOrDb (pool : Hash → Option (Transaction Hash KeyImage Key))
    (db : MainTables Hash KeyImage Key) (txId : Hash) (minAllowedBlockHeight : Nat) :
    Option (Transaction Hash KeyImage Key) :=
  match pool txId with
  | some tx => some tx
  | none =>
      match db.transactions txId with
      | none => none
      | some p => if minAllowedBlockHeight ≤ p.keeperBlockHeight then some p.tx else none

/-- The key images that are purged when a block is erased. A transaction that is neither in the pool
nor in the main chain is passed over. -/
def keyimagesToPurge (pool : Hash → Option (Transaction Hash KeyImage Key))
    (db : MainTables Hash KeyImage Key) (b : Block Hash KeyImage Key) : List KeyImage :=
  (if isPosBlock b then (b.minerTx.vin[1]?.bind TxinV.keyImage).toList else []) ++
    b.txHashes.flatMap fun txId =>
      match getTransactionFromPoolOrDb pool db txId 0 with
      | none => []
      | some tx => tx.keyImages

def purgeAltblockKeyimagesFromBigHeap (pool : Hash → Option (Transaction Hash KeyImage Key))
    (db : MainTables Hash KeyImage Key) (heap : KeyImage → Option (List Hash))
    (b : Block Hash KeyImage Key) (blockId : Hash) : KeyImage → Option (List Hash) :=
  (keyimagesToPurge pool db b).foldl (purgeKeyimageFromBigHeap blockId) heap

def addAltBlockTxHash (txs : Hash → Option Nat) (txHash : Hash) : Hash → Option Nat :=
  Function.update txs txHash (some ((txs txHash).getD 0 + 1))

def addAltBlockTxsHashs (txs : Hash → Option Nat)
    (b : Block Hash KeyImage Key) : Hash → Option Nat :=
  b.txHashes.foldl addAltBlockTxHash txs

/-- A hash that is not found is only logged. -/
def purgeAltBlockTxHash (txs : Hash → Option Nat) (txHash : Hash) : Hash → Option Nat :=
  match txs txHash with
  | none => txs
  | some count => Function.update txs txHash (if count - 1 = 0 then none else some (count - 1))

def purgeAltBlockTxsHashs (txs : Hash → Option Nat)
    (b : Block Hash KeyImage Key) : Hash → Option Nat :=
  b.txHashes.foldl purgeAltBlockTxHash txs

/-! ## Validation -/

omit [DecidableEq KeyImage] in
/-- `is_output_allowed_for_input`. -/
def isOutputAllowedForInput (out : TxOutV Hash Key) (input : TxinV Hash KeyImage) : Bool :=
  match out with
  | .bareToKey _ _ => true
  | .zarcanum _ =>
      match input with
      | .zcInput _ _ => true
      | _ => false
  | _ => false

/-- The search of a global index among the blocks of an alternative chain, latest first: `none` is
an error, `some none` says that the output is in the main chain. -/
def findInAltChain (amount : UInt64) (offsetGindex : Nat) (isFirst : Bool) :
    List (AltBlockExtendedInfo Hash KeyImage Key) → Option (Option (TxOutV Hash Key × Nat))
  | [] => some none
  | abei :: rest =>
      match abei.gindexLookupTable.lookup amount with
      | none => if isFirst then none else some none
      | some start =>
          if start ≤ offsetGindex then
            match ((abei.outputs.lookup amount).getD [])[offsetGindex - start]? with
            | none => none
            | some out => some (some (out, abei.height))
          else findInAltChain amount offsetGindex false rest

/-- The table of the head says whether the alternative chain has touched an amount. -/
def amountTouchedAltchain (altChain : AltChain Hash KeyImage Key) (amount : UInt64) : Bool :=
  match altChain.getLast? with
  | none => false
  | some head => (head.2.gindexLookupTable.lookup amount).isSome

/-- The output of a global index: in the alternative chain with its height, or where it is
in the main chain. -/
def resolveGlobalIndex (db : MainTables Hash KeyImage Key) (altChain : AltChain Hash KeyImage Key)
    (amount : UInt64) (offsetGindex : Nat) :
    Option ((TxOutV Hash Key × Nat) ⊕ GlobalOutputEntry Hash) :=
  if amountTouchedAltchain altChain amount then
    match findInAltChain amount offsetGindex true (altChain.map (·.2)).reverse with
    | none => none
    | some (some found) => some (.inl found)
    | some none => ((db.outputs amount)[offsetGindex]?).map .inr
  else if offsetGindex < (db.outputs amount).length then
    ((db.outputs amount)[offsetGindex]?).map .inr
  else none

/-- An output of the main chain that a reference denotes, with the height of its block. It has to
lie below the split. -/
def lookupMainOutput (env : Environment Hash KeyImage Key) (db : MainTables Hash KeyImage Key)
    (heightOfCurrentAltBlock splitHeight mixins : Nat) (source : GlobalOutputEntry Hash) :
    Option (TxOutV Hash Key × Nat) :=
  match db.transactions source.txId with
  | none => none
  | some p =>
      match p.tx.vout[source.outNo]? with
      | none => none
      | some out =>
          if p.keeperBlockHeight < heightOfCurrentAltBlock ∧
            env.isMixattrApplicable p.tx out mixins ∧
              p.keeperBlockHeight < splitHeight then
            some (out, p.keeperBlockHeight)
          else none

/-- `txs_by_id_and_height_altchain` of an alternative chain; the first entry of an id stays. -/
def altChainTxIds (env : Environment Hash KeyImage Key) (altChain : AltChain Hash KeyImage Key) :
    List (Hash × Transaction Hash KeyImage Key × Nat) :=
  altChain.flatMap fun ch =>
    ch.2.onboardTransactions.entries.map (fun e => (e.1, e.2, ch.2.height)) ++
      [(env.getTransactionHash ch.2.bl.minerTx, ch.2.bl.minerTx, ch.2.height)]

/-- One reference of an input: the output that goes into the ring, and the height of the block of
the main chain that it is from. -/
def resolveReference (env : Environment Hash KeyImage Key) (db : MainTables Hash KeyImage Key)
    (altChain : AltChain Hash KeyImage Key) (splitHeight : Nat) (input : TxinV Hash KeyImage)
    (amount : UInt64) (mixins : Nat) (off : TxoutRefV Hash) :
    Option (TxOutV Hash Key × Option Nat) :=
  let heightOfCurrentAltBlock := match altChain.getLast? with
    | some head => head.2.height + 1
    | none => splitHeight + 1
  let inAltChain := fun (out : TxOutV Hash Key) (height : Nat) =>
    if height < heightOfCurrentAltBlock ∧ isOutputAllowedForInput out input then
      some (out, none) else none
  let inMainChain := fun (source : GlobalOutputEntry Hash) =>
    (lookupMainOutput env db heightOfCurrentAltBlock splitHeight mixins
        source).bind fun (out, height) =>
      if isOutputAllowedForInput out input then some (out, some height) else none
  match off with
  | .globalIndex offsetGindex =>
      match resolveGlobalIndex db altChain amount offsetGindex with
      | none => none
      | some (.inl (out, height)) => inAltChain out height
      | some (.inr source) => inMainChain source
  | .refById txId n =>
      match (altChainTxIds env altChain).find? fun e => e.1 = txId with
      | some (_, tx, height) =>
          match tx.vout[n]? with
          | none => none
          | some out => inAltChain out height
      | none => inMainChain ⟨txId, n⟩

/-- A key image must not be spent in the main chain below the split, in this block, or in another
block of the alternative chain. -/
def checkKeyImage (db : MainTables Hash KeyImage Key) (heap : KeyImage → Option (List Hash))
    (splitHeight : Nat) (altChainBlockIds : List Hash) (collectedKeyimages : List KeyImage)
    (ki : KeyImage) : Bool :=
  (db.spentKeys ki).all (splitHeight ≤ ·) && decide (ki ∉ collectedKeyimages) &&
    ((heap ki).getD []).all fun h => decide (h ∉ altChainBlockIds)

/-- `validate_alt_block_input`: the collected key images and the highest related block
of the main chain. -/
def validateAltBlockInput (env : Environment Hash KeyImage Key) (s : Node Hash KeyImage Key)
    (altChain : AltChain Hash KeyImage Key) (splitHeight : Nat) (altChainBlockIds : List Hash)
    (collectedKeyimages : List KeyImage) (tx : Transaction Hash KeyImage Key)
    (txId : Hash) (n : Nat) (input : TxinV Hash KeyImage) (amount : UInt64)
    (keyOffsets : List (TxoutRefV Hash)) (ki : KeyImage) :
    Option (List KeyImage × Nat) :=
  if checkKeyImage s.main.db s.altblocksKeyimages splitHeight altChainBlockIds
    collectedKeyimages ki ∧
      keyOffsets ≠ [] then
    (keyOffsets.mapM (resolveReference env s.main.db altChain splitHeight input amount
      (keyOffsets.length - 1))).bind fun ring =>
      let maxRelatedBlockHeight := (ring.filterMap (·.2)).foldl max 0
      let altBlH := splitHeight + altChain.length + 1
      if env.checkInputSignature tx n txId (ring.map (·.1)) ∧
          (env.isHardforkActiveForHeight altBlH →
            currencyHf4MandatoryMinCoinage ≤ altBlH - maxRelatedBlockHeight) then
        some (ki :: collectedKeyimages, maxRelatedBlockHeight)
      else none
  else none

/-- What the scan for a multisig output finds in one transaction of an alternative block: a failure,
that the output is spent here included, or whether the output is one of this transaction. -/
def txAltchainChecker (env : Environment Hash KeyImage Key)
    (inputTx : Transaction Hash KeyImage Key) (inputTxId : Hash) (inputIndex : Nat)
    (multisigOutId : Hash) (tx : Transaction Hash KeyImage Key) : Option Bool :=
  if multisigOutId ∈ tx.multisigIds then none
  else
    match tx.vout.findIdx? fun out => decide (out.multisigId = some multisigOutId) with
    | none => some false
    | some outN => if env.checkMsInput inputTx inputIndex inputTxId tx outN then some true else none

/-- The scan stops at the transaction that has the output. -/
def scanTransactions (check : Transaction Hash KeyImage Key → Option Bool) :
    List (Option (Transaction Hash KeyImage Key)) → Option Bool
  | [] => some false
  | none :: _ => none
  | some tx :: rest =>
      match check tx with
      | none => none
      | some true => some true
      | some false => scanTransactions check rest

/-- The scan goes over the blocks of the alternative chain, latest first, and over the transactions
of each, the miner transaction first. -/
def scanAltChain (check : Transaction Hash KeyImage Key → Option Bool)
    (getTransaction : Hash → Option (Transaction Hash KeyImage Key)) :
    List (AltBlockExtendedInfo Hash KeyImage Key) → Option Bool
  | [] => some false
  | bei :: rest =>
      match scanTransactions check (some bei.bl.minerTx :: bei.bl.txHashes.map getTransaction) with
      | none => none
      | some true => some true
      | some false => scanAltChain check getTransaction rest

/-- `validate_alt_block_ms_input`. An output of the main chain below the split ends it; the
alternative chain is not looked at then. -/
def validateAltBlockMsInput (env : Environment Hash KeyImage Key) (s : Node Hash KeyImage Key)
    (altChain : AltChain Hash KeyImage Key) (splitHeight : Nat) (tx : Transaction Hash KeyImage Key)
    (txId : Hash) (n : Nat) (multisigOutId : Hash) : Bool :=
  let scan := scanAltChain (txAltchainChecker env tx txId n multisigOutId)
    (fun id => getTransactionFromPoolOrDb env.pool s.main.db id splitHeight)
      (altChain.map (·.2)).reverse
  match s.main.db.multisigOuts multisigOutId with
  | none => decide (scan = some true)
  | some p =>
      if p.spentHeight = 0 ∨ splitHeight ≤ p.spentHeight then
        match s.main.db.transactions p.txId with
        | none => false
        | some source =>
            if source.keeperBlockHeight < splitHeight then
              env.checkMsInput tx n txId source.tx p.outNo
            else decide (scan = some true)
      else false

/-- The inputs of a transaction, from this one on, with the key images that have been collected. -/
def validateAltBlockInputs (env : Environment Hash KeyImage Key) (s : Node Hash KeyImage Key)
    (altChain : AltChain Hash KeyImage Key) (splitHeight : Nat) (altChainBlockIds : List Hash)
    (tx : Transaction Hash KeyImage Key) (txId : Hash) :
    Nat → List (TxinV Hash KeyImage) → List KeyImage → Option (List KeyImage)
  | _, [], collected => some collected
  | n, input :: vin, collected =>
      let validate :=
        validateAltBlockInput env s altChain splitHeight altChainBlockIds collected tx txId n input
      let next :=
        validateAltBlockInputs env s altChain splitHeight altChainBlockIds tx txId (n + 1) vin
      match input with
      | .toKey amount keyOffsets ki =>
          (validate amount keyOffsets ki).bind fun (collected, _) => next collected
      | .zcInput keyOffsets ki =>
          (validate 0 keyOffsets ki).bind fun (collected, _) => next collected
      | .multisig multisigOutId =>
          if validateAltBlockMsInput env s altChain splitHeight tx txId n multisigOutId then
            next collected else none
      | .gateway => next collected
      | .gen _ => none
      | .htlc => none

/-- The transactions of a block, from this one on. -/
def validateAltBlockTransactions (env : Environment Hash KeyImage Key) (s : Node Hash KeyImage Key)
    (altChain : AltChain Hash KeyImage Key) (splitHeight : Nat) (altChainBlockIds : List Hash) :
    List Hash → List KeyImage → AltBlockExtendedInfo Hash KeyImage Key →
      Option (List KeyImage × AltBlockExtendedInfo Hash KeyImage Key)
  | [], collected, abei => some (collected, abei)
  | txId :: rest, collected, abei =>
      let onboard := match abei.onboardTransactions.lookup txId with
        | some tx => some tx
        | none => getTransactionFromPoolOrDb env.pool s.main.db txId splitHeight
      match onboard with
      | none => none
      | some tx =>
          if env.validateTxSemantic tx txId then
            (validateAltBlockInputs env s altChain splitHeight altChainBlockIds tx txId 0 tx.vin
              collected).bind
              fun collected =>
                if env.validateTxForHardforkSpecificTerms tx (some txId) abei.height then
                  validateAltBlockTransactions env s altChain splitHeight altChainBlockIds
                    rest collected
                    (updateAltOutIndexesForTxInBlock s.main.db abei tx)
                else none
          else none

/-- The table that a block starts with: that of the previous alternative block, moved on, or the
table at the split. -/
def initialLookupTable (db : MainTables Hash KeyImage Key) (altChain : AltChain Hash KeyImage Key)
    (splitHeight : Nat) : Option (AList fun _ : UInt64 => Nat) :=
  match altChain.getLast? with
  | some head => shiftedLookupTable head.2.gindexLookupTable head.2.outputs.entries
  | none => calculateLocalGindexLookupTableForHeight db splitHeight

/-- The key image of the miner transaction of a PoS block. -/
def validateAltBlockMinerTx (env : Environment Hash KeyImage Key) (s : Node Hash KeyImage Key)
    (altChain : AltChain Hash KeyImage Key) (splitHeight : Nat) (altChainBlockIds : List Hash)
    (b : Block Hash KeyImage Key) (id : Hash) (height : Nat) : Option (List KeyImage) :=
  if isPosBlock b then
    let validate :=
      validateAltBlockInput env s altChain splitHeight altChainBlockIds [] b.minerTx id 1
    let validated := match b.minerTx.vin[1]? with
      | some (.toKey amount keyOffsets ki) =>
          validate (.toKey amount keyOffsets ki) amount keyOffsets ki
      | some (.zcInput keyOffsets ki) => validate (.zcInput keyOffsets ki) 0 keyOffsets ki
      | _ => none
    validated.bind fun (collected, maxRelatedBlockHeight) =>
      if env.isHardforkActiveForHeight height then
        if currencyHf4MandatoryMinCoinage ≤ height - maxRelatedBlockHeight then
          some collected else none
      else if env.minCoinstakeAge ≤ height - maxRelatedBlockHeight - 1 then some collected
      else none
  else some []

/-- `validate_alt_block_txs`: the collected key images and the block with its output indexes. -/
def validateAltBlockTxs (env : Environment Hash KeyImage Key) (s : Node Hash KeyImage Key)
    (altChain : AltChain Hash KeyImage Key) (splitHeight : Nat) (id : Hash)
    (abei : AltBlockExtendedInfo Hash KeyImage Key) :
    Option (List KeyImage × AltBlockExtendedInfo Hash KeyImage Key) :=
  let altChainBlockIds := id :: altChain.map (·.1)
  (initialLookupTable s.main.db altChain splitHeight).bind fun table =>
    (validateAltBlockMinerTx env s altChain splitHeight altChainBlockIds abei.bl id
      abei.height).bind fun collected =>
      let abei := updateAltOutIndexesForTxInBlock s.main.db { abei with gindexLookupTable := table }
        abei.bl.minerTx
      if env.validateTxForHardforkSpecificTerms abei.bl.minerTx none abei.height then
        validateAltBlockTransactions env s altChain splitHeight altChainBlockIds abei.bl.txHashes
          collected abei
      else none

/-! ## Alternative chains -/

omit [DecidableEq KeyImage] in
/-- The alternative blocks up to this one, the first one first, with a bound on the steps. -/
def altChainTo (alternativeChains : AList fun _ : Hash => AltBlockExtendedInfo Hash KeyImage Key) :
    Nat → Hash → AltChain Hash KeyImage Key
  | 0, _ => []
  | fuel + 1, id =>
      match alternativeChains.lookup id with
      | none => []
      | some abei => altChainTo alternativeChains fuel abei.bl.prevId ++ [(id, abei)]

omit [DecidableEq KeyImage] in
/-- The alternative subchain that ends with the previous block. A link leads to a block that is one
lower, so the height bounds the steps. -/
def altChainOf (alternativeChains : AList fun _ : Hash => AltBlockExtendedInfo Hash KeyImage Key)
    (prevId : Hash) :
    AltChain Hash KeyImage Key :=
  match alternativeChains.lookup prevId with
  | none => []
  | some prev => altChainTo alternativeChains prev.height prevId

omit [DecidableEq KeyImage] in
/-- The height of a main-chain block. -/
def mainHeight (db : MainTables Hash KeyImage Key) (id : Hash) : Option Nat :=
  db.blocks.findIdx? fun b => b.id = id

omit [DecidableEq KeyImage] in
/-- The heights of the new block and of the connection, if the alternative chain has the right
connection to the main chain. -/
def connect (db : MainTables Hash KeyImage Key) (altChain : AltChain Hash KeyImage Key)
    (prevId : Hash) :
    Option (Nat × Nat) :=
  match altChain, altChain.getLast? with
  | front :: _, some back =>
      if front.2.height ≤ db.blocks.length ∧
          (db.blocks[front.2.height - 1]?).map (·.id) = some front.2.bl.prevId then
        some (back.2.height + 1, front.2.height)
      else none
  | _, _ => (mainHeight db prevId).map fun h => (h + 1, h + 1)

omit [DecidableEq KeyImage] in
/-- The transactions that come with the block, completed from the pool and from the main chain. -/
def completeOnboard (pool : Hash → Option (Transaction Hash KeyImage Key))
    (db : MainTables Hash KeyImage Key) :
    List Hash → (AList fun _ : Hash => Transaction Hash KeyImage Key) → AList fun _ : Hash =>
    Transaction Hash KeyImage Key
  | [], onboard => onboard
  | h :: rest, onboard =>
      completeOnboard pool db rest <|
        match onboard.lookup h with
        | some _ => onboard
        | none =>
            match pool h with
            | some tx => onboard.insert h tx
            | none =>
                match db.transactions h with
                | some p => onboard.insert h p.tx
                | none => onboard

/-- `handle_alternative_block`, up to where the block is in the container. -/
def handleAlternativeBlock (env : Environment Hash KeyImage Key) (s : Node Hash KeyImage Key)
    (b : Block Hash KeyImage Key) (id : Hash)
    (onboard : AList fun _ : Hash => Transaction Hash KeyImage Key) :
    Option (Node Hash KeyImage Key) :=
  let altChain := altChainOf s.alternativeChains b.prevId
  (connect s.main.db altChain b.prevId).bind fun (height, connectionHeight) =>
    let abei : AltBlockExtendedInfo Hash KeyImage Key :=
      { bl := b
        height
        timestamp := env.coreTime
        gindexLookupTable := ∅
        outputs := ∅
        onboardTransactions := completeOnboard env.pool s.main.db b.txHashes onboard }
    if connectionHeight ≠ 0 ∧ env.blockChecks b id height ∧
      prevalidateMinerTransaction b height then
      (validateAltBlockTxs env s altChain connectionHeight
          id abei).bind fun (altBlockKeyimages, abei) =>
        if (s.alternativeChains.lookup id).isSome then none
        else
          some { s with
            alternativeChains := s.alternativeChains.insert id abei
            altblocksKeyimages :=
              appendAltblockKeyimagesToBigHeap s.altblocksKeyimages id altBlockKeyimages
            alternativeChainsTxs := addAltBlockTxsHashs s.alternativeChainsTxs abei.bl }
    else none

end Tables

/-! ## Erasing -/

namespace Node

variable {Hash KeyImage Key : Type*} [DecidableEq Hash] [DecidableEq KeyImage]

def doEraseAltblock (pool : Hash → Option (Transaction Hash KeyImage Key))
    (s : Node Hash KeyImage Key) (id : Hash) :
    Option (Node Hash KeyImage Key) :=
  (s.alternativeChains.lookup id).map fun abei =>
    { s with
      alternativeChains := s.alternativeChains.erase id
      altblocksKeyimages :=
        purgeAltblockKeyimagesFromBigHeap pool s.main.db s.altblocksKeyimages abei.bl id
      alternativeChainsTxs := purgeAltBlockTxsHashs s.alternativeChainsTxs abei.bl }

/-- The oldest `count` of the entries that have been seen, oldest first; of two with the same
timestamp the one that was seen last is dropped first. -/
def keepOldest (count : Nat) (oldest : List (Nat × Hash)) (e : Nat × Hash) : List (Nat × Hash) :=
  (oldest.takeWhile (fun o => o.1 ≤ e.1) ++ e :: oldest.dropWhile fun o => o.1 ≤ e.1).take count

def agedAltBlocks (s : Node Hash KeyImage Key) : List Hash :=
  let currentHeight := s.main.db.blocks.length
  (s.alternativeChains.entries.filter fun e =>
    e.2.height < currentHeight ∧
      currencyAltBlockLivetimeCount < currentHeight - e.2.height).map (·.1)

/-- The oldest blocks, as many as there are too many. -/
def altsToDelete (s : Node Hash KeyImage Key) (maxAltBlocks : Nat) : List Hash :=
  let entries := s.alternativeChains.entries
  if entries.length ≤ maxAltBlocks then []
  else
    ((entries.map fun e => (e.2.timestamp, e.1)).foldl (keepOldest (entries.length - maxAltBlocks))
      []).map (·.2)

def pruneAgedAltBlocks (pool : Hash → Option (Transaction Hash KeyImage Key)) (maxAltBlocks : Nat)
    (s : Node Hash KeyImage Key) : Option (Node Hash KeyImage Key) :=
  (s.agedAltBlocks.foldlM (doEraseAltblock pool) s).bind fun s =>
    (s.altsToDelete maxAltBlocks).foldlM (doEraseAltblock pool) s

def clearAltblocks (s : Node Hash KeyImage Key) : Node Hash KeyImage Key :=
  { s with
    alternativeChains := ∅
    altblocksKeyimages := fun _ => none
    alternativeChainsTxs := fun _ => none }

/-! ## Runs -/

end Node

inductive Request (Hash KeyImage Key : Type*) where
  | pushMain (b : FullBlock Hash KeyImage Key)
  | popMain
  | handleAlternativeBlock (env : Environment Hash KeyImage Key) (b : Block Hash KeyImage Key)
      (id : Hash) (onboard : AList fun _ : Hash => Transaction Hash KeyImage Key)
  | eraseAltblock (pool : Hash → Option (Transaction Hash KeyImage Key)) (id : Hash)
  | pruneAgedAltBlocks (pool : Hash → Option (Transaction Hash KeyImage Key)) (maxAltBlocks : Nat)
  | clearAltblocks

/-- A block that the main chain has is not handled again, as an alternative one or otherwise. -/
def step {Hash KeyImage Key : Type*} [DecidableEq Hash] [DecidableEq KeyImage]
    (s : Node Hash KeyImage Key) :
    Request Hash KeyImage Key → Option (Node Hash KeyImage Key)
  | .pushMain b => (s.main.push b).map fun main => { s with main }
  | .popMain => s.main.pop.map fun main => { s with main }
  | .handleAlternativeBlock env b id onboard =>
      if (mainHeight s.main.db id).isSome then none else handleAlternativeBlock env s b id onboard
  | .eraseAltblock pool id => s.doEraseAltblock pool id
  | .pruneAgedAltBlocks pool maxAltBlocks => s.pruneAgedAltBlocks pool maxAltBlocks
  | .clearAltblocks => some s.clearAltblocks

/-- A node that has the genesis block. -/
def start {Hash KeyImage Key : Type*} [DecidableEq Hash] [DecidableEq KeyImage]
    (main : MainChain Hash KeyImage Key) : Node Hash KeyImage Key where
  main := main
  alternativeChains := ∅
  altblocksKeyimages := fun _ => none
  alternativeChainsTxs := fun _ => none

end Zano.AltBlocks
