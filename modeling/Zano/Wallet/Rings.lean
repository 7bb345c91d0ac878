import Mathlib
import Zano.Lib.Checks
import Zano.Lib.KeyOrder
import Zano.Decoys.BareOutputs
import Zano.Serialization.Witness
import Zano.Transactions.KeyOffsets
import Zano.Wallet.Destinations

/-! # Rings of what a daemon answers

For each transfer that is spent the wallet asks a daemon for decoys, by heights or, for bare
outputs, by candidate indexes among which the output that is spent is hidden. Nothing is known of
the answer. The wallet takes as many different decoys of it as it needs, puts them into the order of
their global indexes, and its own output among them.

Of randomness it is known that `std::shuffle` permutes. Exceptions are the failures.
-/

namespace Zano.Wallet.Rings

open Serialization Checks
open KeyOffsets (TxoutRefV absoluteSortedOutputOffsetsToRelativeInPlace relative)
open Decoys (RequestBatch)

/-! ## The answer of a daemon -/

structure OutEntry where
  globalAmountIndex : UInt64
  stealthAddress : PublicKey
  concealingPoint : PublicKey
  amountCommitment : PublicKey
  blindedAssetId : PublicKey
  flags : UInt64

structure OutputsInBlock where
  blockHeight : UInt64
  outs : List OutEntry

inductive Status where
  | ok
  | busy
  | other
  deriving DecidableEq, Repr

/-- `blocks_batches`, each of which is a vector of blocks. -/
structure Response where
  blocksBatches : List (List OutputsInBlock)
  status : Status

structure Request where
  batches : List RequestBatch
  heightUpperLimit : UInt64

def randomOutputsForAmountsFlagsCoinbase : UInt64 := 1
def randomOutputsForAmountsFlagsNotAllowed : UInt64 := 2

inductive Failure where
  | walletInternalError
  | walletCommonError
  | noConnectionToDaemon
  | daemonBusy
  | getRandomOutsError
  | notEnoughOutsToMix
  | outOfRange
  deriving DecidableEq, Repr

/-! ## The wallet -/

structure ZCOutInfo where
  amountBlindingMask : Scalar
  assetIdBlindingMask : Scalar
  assetId : PublicKey

def isGatewayOut : TxOutV → Bool
  | .inr (.inr _) => true
  | _ => false

/-- The output is one of the transaction. Outputs to gateways are not among those that a wallet
finds to be its own. -/
structure TransferDetails where
  tx : TransactionPrefix
  blockHeight : UInt64
  internalOutputIndex : ℕ
  globalOutputIndex : UInt64
  amount : UInt64
  zcInfo : Option ZCOutInfo
  out : TxOutV
  isOut : tx.vout[internalOutputIndex]? = some out
  notGateway : isGatewayOut out = false

def nativeCoinAssetId : PublicKey := Destinations.nativeCoinAssetId

namespace TransferDetails

variable (td : TransferDetails)

def isZc : Bool := td.zcInfo.isSome

def getAssetId : PublicKey := (td.zcInfo.map (·.assetId)).getD nativeCoinAssetId

def amountForGlobalOutputIndex : UInt64 := if td.isZc then 0 else td.amount

end TransferDetails

def walletGlobalOutputIndexUndefined : UInt64 := 0xffffffffffffffff

structure Wallet2 where
  transfers : UInt64 → Option TransferDetails
  isAuditable : Bool
  hf4MinimumMixins : ℕ
  hf4Height : UInt64
  lastPowBlockH : UInt64
  bareOutputCountByAmount : UInt64 → Option UInt64

/-- `is_hardfork_active_for_height` -/
def Wallet2.isPostHf4 (w : Wallet2) (height : UInt64) : Bool := w.hf4Height < height

/-- `std::shuffle` with what it draws. -/
structure Shuffle (α : Type) where
  apply : List α → List α
  perm : ∀ l, (apply l).Perm l

/-- What is drawn for one input: its heights, if the generator does not throw, and its positions in
the bucket of an amount; the remaining ones are drawn when the answer is there. -/
structure Draws where
  heights : Option (List UInt64)
  positions : ℕ → UInt64
  globalOffsets : Shuffle UInt64
  localDecoys : Shuffle OutEntry
  coinbaseCandidates : Shuffle OutEntry
  noncbCandidates : Shuffle OutEntry
  opposite : UInt32

/-! ## Picking decoys -/

section Picking

/-- The indexes that are used up, and the decoys that were taken. -/
structure Picks where
  usedGindices : List UInt64
  decoyStorageOut : List OutEntry

def Picks.add (s : Picks) (cand : OutEntry) : Picks where
  usedGindices := cand.globalAmountIndex :: s.usedGindices
  decoyStorageOut := s.decoyStorageOut ++ [cand]

/-- The pool from the cursor on, before and after. -/
def takeNextUnique : List OutEntry → Picks → Picks × List OutEntry
  | [], s => (s, [])
  | cand :: pool, s =>
      if cand.globalAmountIndex ∈ s.usedGindices then takeNextUnique pool s else (s.add cand, pool)

/-- The loop, as far as it takes from one pool: it goes to the other pool when the first
one is exhausted. -/
def takeUniques (wantedDecoysCount : ℕ) : List OutEntry → Picks → Picks
  | [], s => s
  | cand :: pool, s =>
      if wantedDecoysCount ≤ s.decoyStorageOut.length then s
      else if cand.globalAmountIndex ∈ s.usedGindices then takeUniques wantedDecoysCount pool s
      else takeUniques wantedDecoysCount pool (s.add cand)

def walletNoncbSetProbPercent : UInt32 := 5

def pickDecoysFromPools (draws : Draws) (coinbaseCandidates noncbCandidates : List OutEntry)
    (wantedDecoysCount : ℕ) (realGindex : UInt64) (preferCoinbase : Bool) : List OutEntry :=
  let coinbaseCandidates := draws.coinbaseCandidates.apply coinbaseCandidates
  let noncbCandidates := draws.noncbCandidates.apply noncbCandidates
  let preferred := if preferCoinbase then coinbaseCandidates else noncbCandidates
  let opposite := if preferCoinbase then noncbCandidates else coinbaseCandidates
  let start : Picks := ⟨[realGindex], []⟩
  let first :=
    if draws.opposite % 100 < walletNoncbSetProbPercent ∧ opposite ≠ [] then
      takeNextUnique opposite start
    else (start, opposite)
  (takeUniques wantedDecoysCount first.2
    (takeUniques wantedDecoysCount preferred first.1)).decoyStorageOut

def isCoinbase (oe : OutEntry) : Bool := oe.flags &&& randomOutputsForAmountsFlagsCoinbase ≠ 0

/-- The candidates from coinbases, and the other ones. -/
def buildPoolsFromBlocks (blocks : List OutputsInBlock) (realGindex : UInt64)
    (isPostHf4 : UInt64 → Bool) (blockAllowed : Bool → Bool) : List OutEntry × List OutEntry :=
  let candidates :=
    (blocks.filter fun blk => blockAllowed (isPostHf4 blk.blockHeight)).flatMap fun blk =>
    blk.outs.filter fun oe => oe.globalAmountIndex ≠ realGindex
  candidates.partition isCoinbase

end Picking

/-! ## The request -/

section Planning

structure MixInputPlan where
  selectionPos : ℕ
  transferIndex : UInt64
  td : TransferDetails
  targetDecoyCount : ℕ
  isRealOutputPostHf4 : Bool
  batchIdx : Option ℕ
  useBareCandidates : Bool

def MixInputPlan.needsDecoys (plan : MixInputPlan) : Bool := 0 < plan.targetDecoyCount

def currencyTxMaxAllowedInputs : ℕ := 256
def currencyHf4MandatoryDecoySetSize : ℕ := 15
def maxBarePoolSize : ℕ := currencyTxMaxAllowedInputs * (currencyHf4MandatoryDecoySetSize + 1) * 2

/-- A draw from 0 to the upper index. -/
def position (upperIndex draw : UInt64) : UInt64 :=
  if upperIndex = 0xffffffffffffffff then draw else draw % (upperIndex + 1)

def appendBareDecoyCandidates (w : Wallet2) (draws : Draws) (batch : RequestBatch) (decoyCount : ℕ)
    (realGindex : UInt64) :
    Except Failure RequestBatch := do
  require .walletCommonError (decoyCount < maxBarePoolSize)
  let upperIndex :=
    match w.bareOutputCountByAmount batch.inputAmount with
    | some count => if count ≠ 0 then count - 1 else 0xffffffffffffffff
    | none => 0xffffffffffffffff
  let ringSize := decoyCount + 1
  require .walletCommonError (batch.globalOffsets.length ≤ maxBarePoolSize - ringSize)
  .ok { batch with
    ringSize := max batch.ringSize (UInt64.ofNat ringSize)
    globalOffsets := batch.globalOffsets ++
      realGindex :: (List.range decoyCount).map fun j => position upperIndex (draws.positions j) }

def targetOutputs (w : Wallet2) (fakeOutputsCount : ℕ) (td : TransferDetails) : ℕ :=
  if w.isAuditable then 0 else if td.isZc then w.hf4MinimumMixins else fakeOutputsCount

/-- The batch of one input. The heights are drawn around that of the transfer, which
`draws` stands for. -/
def requestBatch (w : Wallet2) (draws : Draws) (td : TransferDetails) (targetOutputs : ℕ)
    (useBareCandidates : Bool) :
    Except Failure RequestBatch :=
  let batch : RequestBatch := ⟨td.amountForGlobalOutputIndex, [], [], 0⟩
  if useBareCandidates then
    appendBareDecoyCandidates w draws batch targetOutputs td.globalOutputIndex
  else do
    let heights ← found .walletInternalError draws.heights
    .ok { batch with heights }

/-- One input, with the batches so far. -/
def planInput (w : Wallet2) (draws : Draws) (fakeOutputsCount : ℕ)
    (bareCandidatesEnabled : Bool) (pos : ℕ) (trIdx : UInt64) (batches : List RequestBatch) :
    Except Failure (MixInputPlan × List RequestBatch) := do
  let td ← found .walletInternalError (w.transfers trIdx)
  let target := targetOutputs w fakeOutputsCount td
  let useBareCandidates := 0 < target && !td.isZc && bareCandidatesEnabled
  let plan : MixInputPlan :=
    ⟨pos, trIdx, td, target, w.isPostHf4 td.blockHeight, none, useBareCandidates⟩
  if 0 < target then
    (requestBatch w draws td target useBareCandidates).map fun batch =>
      ({ plan with batchIdx := some batches.length }, batches ++ [batch])
  else .ok (plan, batches)

/-- The inputs from one position on. -/
def planInputs (w : Wallet2) (draws : ℕ → Draws) (fakeOutputsCount : ℕ)
    (bareCandidatesEnabled : Bool) :
    ℕ → List UInt64 → List RequestBatch → Except Failure (List MixInputPlan × List RequestBatch)
  | _, [], batches => .ok ([], batches)
  | pos, trIdx :: rest, batches => do
      let (plan, batches) ←
        planInput w (draws pos) fakeOutputsCount bareCandidatesEnabled pos trIdx batches
      let (plans, batches) ←
        planInputs w draws fakeOutputsCount bareCandidatesEnabled (pos + 1) rest batches
      .ok (plan :: plans, batches)

def shuffleOffsets (draws : ℕ → Draws) (batches : List RequestBatch) : List RequestBatch :=
  batches.mapIdx fun i batch =>
    { batch with globalOffsets := (draws i).globalOffsets.apply batch.globalOffsets }

def planDecoyBatchesForSources (w : Wallet2) (draws : ℕ → Draws) (fakeOutputsCount : ℕ)
    (selectedIndices : List UInt64) (bareCandidatesEnabled : Bool) :
    Except Failure (List MixInputPlan × Request) := do
  let (plans, batches) ←
    planInputs w draws fakeOutputsCount bareCandidatesEnabled 0 selectedIndices []
  .ok (plans, ⟨shuffleOffsets draws batches, w.lastPowBlockH⟩)

end Planning

/-! ## Sources -/

section Sources

/-- `tx_output_entry` -/
abbrev TxOutputEntry := KeyOffsets.OutputEntry RefById PublicKey

structure TxSourceEntry where
  outputs : List TxOutputEntry
  realOutput : ℕ
  realOutTxKey : PublicKey
  realOutAmountBlindingMask : Scalar
  realOutAssetIdBlindingMask : Scalar
  realOutputInTxIndex : ℕ
  amount : UInt64
  transferIndex : UInt64
  assetId : PublicKey

structure IndexedOutput where
  output : OutEntry
  blockHeight : UInt64

/-- `unordered_map`, of which the order is not used before it is shuffled. -/
abbrev IndexedOutputs := List IndexedOutput

def IndexedOutputs.find (outputs : IndexedOutputs) (globalIndex : UInt64) : Option IndexedOutput :=
  outputs.find? fun o => o.output.globalAmountIndex = globalIndex

def indexBlock (blockHeight : UInt64) :
    List OutEntry → IndexedOutputs → Except Failure IndexedOutputs
  | [], outputs => .ok outputs
  | output :: rest, outputs => do
      require .walletCommonError (output.flags &&& randomOutputsForAmountsFlagsNotAllowed = 0)
      require .walletCommonError (outputs.find output.globalAmountIndex).isNone
      indexBlock blockHeight rest (outputs ++ [⟨output, blockHeight⟩])

def indexBlocks (hf4Height : UInt64) :
    List OutputsInBlock → IndexedOutputs → Except Failure IndexedOutputs
  | [], outputs => .ok outputs
  | block :: rest, outputs => do
      require .walletCommonError (block.blockHeight ≤ hf4Height)
      let outputs ← indexBlock block.blockHeight block.outs outputs
      indexBlocks hf4Height rest outputs

/-- There are none for a batch of heights. -/
def indexBatch (hf4Height : UInt64) (response : List (List OutputsInBlock)) (i : ℕ)
    (requested : RequestBatch) :
    Except Failure IndexedOutputs :=
  if requested.globalOffsets = [] then .ok []
  else do
    let blocks ← found .walletCommonError response[i]?
    let outputs ← indexBlocks hf4Height blocks []
    require .walletCommonError (outputs.length ≤ requested.globalOffsets.length)
    .ok outputs

/-- The batches from one index on. -/
def indexBatches (hf4Height : UInt64) (response : List (List OutputsInBlock)) :
    ℕ → List RequestBatch → Except Failure (List IndexedOutputs)
  | _, [] => .ok []
  | i, requested :: rest => do
      let outputs ← indexBatch hf4Height response i requested
      let later ← indexBatches hf4Height response (i + 1) rest
      .ok (outputs :: later)

def getOutPubKeyFromTxOutV : TxOutV → Option PublicKey
  | .inl ⟨_, .inl otk⟩ => some otk.key
  | .inr (.inl o) => some o.stealthAddress
  | _ => none

/-- The daemon has filled the pool, in which the own output has to be. -/
def bareDecoys (draws : Draws) (plan : MixInputPlan) (outputs : IndexedOutputs) :
    Except Failure (List OutEntry) := do
  let td := plan.td
  let real ← found .walletCommonError (outputs.find td.globalOutputIndex)
  require .walletCommonError (real.blockHeight = td.blockHeight)
  let ownKey ← found .walletInternalError (getOutPubKeyFromTxOutV td.out)
  require .walletCommonError (real.output.stealthAddress = ownKey)
  let others :=
    (outputs.map (·.output)).filter fun output => output.globalAmountIndex ≠ td.globalOutputIndex
  .ok ((draws.localDecoys.apply others).take plan.targetDecoyCount)

def localDecoys (w : Wallet2) (draws : Draws) (response : List (List OutputsInBlock))
    (indexed : List IndexedOutputs) (plan : MixInputPlan) : Except Failure (List OutEntry) :=
  if plan.needsDecoys then do
    let batchIdx ← found .walletInternalError plan.batchIdx
    let blocks ← found .walletInternalError response[batchIdx]?
    if plan.useBareCandidates then do
      let outputs ← found .outOfRange indexed[batchIdx]?
      bareDecoys draws plan outputs
    else
      let (coinbaseCandidates, noncbCandidates) :=
        buildPoolsFromBlocks blocks plan.td.globalOutputIndex w.isPostHf4
        fun blkIsPostHf4 => plan.isRealOutputPostHf4 = blkIsPostHf4
      .ok (pickDecoysFromPools draws coinbaseCandidates noncbCandidates plan.targetDecoyCount
        plan.td.globalOutputIndex
        false)
  else .ok []

/-- `operator<` of the sort, which leaves the order of equal indexes open. -/
def sortDecoys (decoys : List OutEntry) : List OutEntry :=
  decoys.insertionSort fun l r => l.globalAmountIndex ≤ r.globalAmountIndex

def decoyEntry (oe : OutEntry) : TxOutputEntry where
  outReference := .globalIndex oe.globalAmountIndex
  stealthAddress := oe.stealthAddress
  concealingPoint := oe.concealingPoint
  amountCommitment := oe.amountCommitment
  blindedAssetId := oe.blindedAssetId

/-- The loop that copies the decoys behind the outputs so far. -/
def addDecoys (globalOutputIndex : UInt64) (targetDecoyCount : ℕ) :
    List OutEntry → List TxOutputEntry → List TxOutputEntry
  | [], outputs => outputs
  | decoy :: rest, outputs =>
      if globalOutputIndex = decoy.globalAmountIndex then
        addDecoys globalOutputIndex targetDecoyCount rest outputs
      else if targetDecoyCount ≤ outputs.length + 1 then outputs ++ [decoyEntry decoy]
      else addDecoys globalOutputIndex targetDecoyCount rest (outputs ++ [decoyEntry decoy])

/-- An output to a gateway leaves the entry as it is. -/
def realEntry (td : TransferDetails) : Except Failure TxOutputEntry :=
  let realOe : TxOutputEntry :=
    ⟨.globalIndex td.globalOutputIndex, nullPkey, nullPkey, nullPkey, nullPkey⟩
  match td.out with
  | .inl ⟨_, .inl o⟩ => .ok { realOe with stealthAddress := o.key }
  | .inl ⟨_, .inr _⟩ => .error .walletInternalError
  | .inr (.inl o) => do
      require .walletInternalError td.isZc
      .ok { realOe with
        amountCommitment := o.amountCommitment
        concealingPoint := o.concealingPoint
        stealthAddress := o.stealthAddress
        blindedAssetId := o.blindedAssetId }
  | .inr (.inr _) => .ok realOe

def isNotBefore (globalOutputIndex : UInt64) (a : TxOutputEntry) : Bool :=
  match a.outReference with
  | .globalIndex index => globalOutputIndex ≤ index
  | .refById _ => false

/-- The masks are those of an output with a hidden amount. -/
def blindingMask (td : TransferDetails) (mask : ZCOutInfo → Scalar) : Scalar :=
  match td.out with
  | .inr (.inl _) => (td.zcInfo.map mask).getD (Blob.filled 32 0)
  | _ => Blob.filled 32 0

def sourceEntry (td : TransferDetails) (transferIndex : UInt64) (decoys : List TxOutputEntry)
    (realOe : TxOutputEntry) :
    TxSourceEntry :=
  let position := decoys.findIdx (isNotBefore td.globalOutputIndex)
  { outputs := decoys.insertIdx position realOe
    realOutput := position
    realOutTxKey := (getTypeInVariantContainer PayloadItemsV.publicKey td.tx.extra).getD nullPkey
    realOutAmountBlindingMask := blindingMask td (·.amountBlindingMask)
    realOutAssetIdBlindingMask := blindingMask td (·.assetIdBlindingMask)
    realOutputInTxIndex := td.internalOutputIndex
    amount := td.amount
    transferIndex
    assetId := td.getAssetId }

def buildSource (w : Wallet2) (draws : Draws) (response : List (List OutputsInBlock))
    (indexed : List IndexedOutputs) (useAllDecoysIfFoundLessThanRequired : Bool)
    (plan : MixInputPlan) : Except Failure TxSourceEntry := do
  let decoys ← localDecoys w draws response indexed plan
  let outputs := addDecoys plan.td.globalOutputIndex plan.targetDecoyCount (sortDecoys decoys) []
  require .notEnoughOutsToMix (useAllDecoysIfFoundLessThanRequired ∨
    plan.targetDecoyCount ≤ outputs.length)
  let realOe ← realEntry plan.td
  .ok (sourceEntry plan.td plan.transferIndex outputs realOe)

def buildSources (w : Wallet2) (draws : ℕ → Draws) (response : List (List OutputsInBlock))
    (indexed : List IndexedOutputs) (useAllDecoysIfFoundLessThanRequired : Bool) :
    List MixInputPlan → Except Failure (List TxSourceEntry)
  | [] => .ok []
  | plan :: rest => do
      let src ← buildSource w (draws plan.selectionPos) response indexed
          useAllDecoysIfFoundLessThanRequired plan
      let later ← buildSources w draws response indexed useAllDecoysIfFoundLessThanRequired rest
      .ok (src :: later)

/-- The sources are put behind those that are there. -/
def distributeDecoysAndBuildSources (w : Wallet2) (draws : ℕ → Draws) (req4 : Request)
    (response : List (List OutputsInBlock)) (plans : List MixInputPlan)
    (useAllDecoysIfFoundLessThanRequired : Bool) (sources : List TxSourceEntry) :
    Except Failure (List TxSourceEntry) := do
  let indexed ← indexBatches w.hf4Height response 0 req4.batches
  let built ← buildSources w draws response indexed useAllDecoysIfFoundLessThanRequired plans
  .ok (sources ++ built)

def prefetchGlobalIndiciesIfNeeded (w : Wallet2) : List UInt64 → Except Failure Unit
  | [] => .ok ()
  | i :: rest => do
      let td ← found .outOfRange (w.transfers i)
      require .walletInternalError (td.globalOutputIndex ≠ walletGlobalOutputIndexUndefined)
      prefetchGlobalIndiciesIfNeeded w rest

/-- The checks of an answer; there is none without a connection. -/
def checkResponse (response : Option Response) : Except Failure (List (List OutputsInBlock)) := do
  let resp4 ← found .noConnectionToDaemon response
  require .daemonBusy (resp4.status ≠ .busy)
  require .getRandomOutsError (resp4.status = .ok)
  .ok resp4.blocksBatches

/-- One request, if an input wants decoys. -/
def requestDecoys (daemon : Request → Option Response) (req4 : Request) :
    Except Failure (List (List OutputsInBlock)) :=
  if req4.batches = [] then .ok []
  else do
    let blocksBatches ← checkResponse (daemon req4)
    require .walletCommonError (blocksBatches.length = req4.batches.length)
    .ok blocksBatches

def prepareTxSources (w : Wallet2) (draws : ℕ → Draws) (daemon : Request → Option Response)
    (fakeOutputsCount : ℕ) (useAllDecoysIfFoundLessThanRequired : Bool)
    (sources : List TxSourceEntry) (selectedIndices : List UInt64) :
    Except Failure (List TxSourceEntry) := do
  prefetchGlobalIndiciesIfNeeded w selectedIndices
  let (plans, req4) ← planDecoyBatchesForSources w draws fakeOutputsCount selectedIndices
    !useAllDecoysIfFoundLessThanRequired
  let response ← requestDecoys daemon req4
  distributeDecoysAndBuildSources w draws req4 response plans
    useAllDecoysIfFoundLessThanRequired sources

end Sources

/-! ## The ring of a stake -/

section Stake

/-- `CLSAG_GGXXG_input_ref_t` -/
structure InputRef where
  stealthAddress : PublicKey
  amountCommitment : PublicKey
  blindedAssetId : PublicKey
  concealingPoint : PublicKey

structure StakeRing where
  keyOffsets : List (TxoutRefV RefById)
  ring : List InputRef
  secretIndex : ℕ

def inputRef (el : OutEntry) : InputRef :=
  ⟨el.stealthAddress, el.amountCommitment, el.blindedAssetId, el.concealingPoint⟩

def stakeRef (stakeOut : TxOutZarcanum) : InputRef :=
  ⟨stakeOut.stealthAddress, stakeOut.amountCommitment, stakeOut.blindedAssetId,
    stakeOut.concealingPoint⟩

def stakeEntry (td : TransferDetails) (stakeOut : TxOutZarcanum) : OutEntry where
  globalAmountIndex := td.globalOutputIndex
  stealthAddress := stakeOut.stealthAddress
  amountCommitment := stakeOut.amountCommitment
  concealingPoint := stakeOut.concealingPoint
  blindedAssetId := stakeOut.blindedAssetId
  flags := 0

def requiredDecoysCount (w : Wallet2) : ℕ :=
  if w.hf4MinimumMixins = 0 then 4 else w.hf4MinimumMixins

/-- The last entry with the index of the stake, and otherwise 0. -/
def secretIndex (globalOutputIndex : UInt64) : ℕ → List OutEntry → ℕ → ℕ
  | _, [], index => index
  | i, el :: rest, index =>
      secretIndex globalOutputIndex (i + 1) rest (if el.globalAmountIndex = globalOutputIndex then i
        else index)

def preparePosZcInputAndRing (w : Wallet2) (draws : Draws) (daemon : Request → Option Response)
    (td : TransferDetails) (stakeOut : TxOutZarcanum) : Except Failure StakeRing :=
  if w.isAuditable then .ok ⟨[.globalIndex td.globalOutputIndex], [stakeRef stakeOut], 0⟩
  else do
    let heights ← found .walletInternalError draws.heights
    let blocksBatches ← checkResponse (daemon ⟨[⟨0, heights, [], 0⟩], w.lastPowBlockH⟩)
    let blocks ← found .walletCommonError blocksBatches.head?
    require .walletCommonError (blocks ≠ [])
    let (coinbaseCandidates, noncbCandidates) :=
      buildPoolsFromBlocks blocks td.globalOutputIndex w.isPostHf4
      fun blkIsPostHf4 => blkIsPostHf4
    let decoys :=
      pickDecoysFromPools draws coinbaseCandidates noncbCandidates (requiredDecoysCount w)
      td.globalOutputIndex true
    require .walletCommonError (decoys.length = requiredDecoysCount w)
    let decoyStorage := sortDecoys (decoys ++ [stakeEntry td stakeOut])
    let (r, keyOffsets) := absoluteSortedOutputOffsetsToRelativeInPlace
      (decoyStorage.map fun el => .globalIndex el.globalAmountIndex)
    require .walletCommonError r
    .ok ⟨keyOffsets, decoyStorage.map inputRef, secretIndex td.globalOutputIndex 0 decoyStorage 0⟩

end Stake

end Zano.Wallet.Rings
