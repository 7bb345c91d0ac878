import Mathlib

/-! # Adding a block to the main chain

`add_new_block` and `handle_block_to_main_chain` as far as it matters which copies of the
transactions are used and what is remembered when a check fails.

A transaction id is the hash of the prefix, so it stands for the prefix here. A copy of the
transaction is its witness data (signatures, proofs and attachments) with the size of its blob.

The checks themselves are `Rules`. What they say about a copy is a function of what they are given;
everything that happens around them is in the definitions. The chain is what the checks read of it.
The witness data that is stored with a transaction is not among it: no check of another transaction
or of the block reads it again.
-/

namespace Zano.BlockHandling

variable {Chain BlockId TxId Header Witness : Type*}

structure Copy (Witness : Type*) where
  witness : Witness
  blobSize : Nat

structure Block (BlockId TxId Header : Type*) where
  id : BlockId
  prevId : BlockId
  txHashes : List TxId
  coinbaseBlockCumulativeSize : Option Nat
  header : Header

abbrev Pool (TxId Witness : Type*) := TxId → Option (Copy Witness)

/-- The transactions that came with a block. -/
abbrev OnboardTransactions (TxId Witness : Type*) := TxId → Option Witness

/-- The chain database is what a failed block is rolled back to. The rest is kept in memory or, for
the pool, in a database of its own. -/
structure Node (Chain BlockId TxId Witness : Type*) where
  chain : Chain
  blocks : List BlockId
  alternativeChains : List BlockId
  invalidBlocks : List BlockId
  pool : Pool TxId Witness

structure Rules (Chain BlockId TxId Header Witness : Type*) where
  prevalidateBlock : Chain → Block BlockId TxId Header → Bool
  handleAlternativeBlock : Node Chain BlockId TxId Witness → Block BlockId TxId Header →
    OnboardTransactions TxId Witness → Bool × Node Chain BlockId TxId Witness
  /-- Everything before the transactions; the miner transaction is added. -/
  connectMinerTx : Chain → Block BlockId TxId Header → Option Chain
  isInCheckpointZone : Chain → Bool
  isHardfork06 : Chain → Bool
  /-- The part of the cumulative size that the miner transaction takes. -/
  coinbaseSize : Chain → Block BlockId TxId Header → Nat
  pruned : Witness → Witness
  getObjectBlobsize : TxId → Witness → Nat
  validateTxSemantic : TxId → Copy Witness → Bool
  /-- Range proofs can be collected, and the balance and the asset surjection are proved. -/
  checkProofs : Chain → TxId → Witness → Bool
  checkTxInputs : Chain → TxId → Witness → Bool
  /-- What `add_transaction_from_block` checks of the witness data: the terms of the hardfork and
  the proofs of ownership. -/
  admitsWitness : Chain → TxId → Witness → Bool
  addTransactionFromBlock : Chain → TxId → Option Chain
  checkAliasCount : Chain → Chain → Bool
  verifyMultipleZcOutsRangeProofs : Block BlockId TxId Header → List (TxId × Witness) → Bool
  /-- The reward, which depends on the size, the miner transaction, and the new block. -/
  pushBlock : Chain → Chain → Block BlockId TxId Header → Nat → Option Chain
  /-- Whether `add_tx` keeps a transaction that comes from a block. -/
  poolAccepts : Chain → TxId → Witness → Bool
  poolBlobsize : TxId → Witness → Nat
  transactions : Chain → List TxId
  /-- A transaction that the chain has is not added again. -/
  transactions_add : ∀ chain txId next, addTransactionFromBlock chain txId = some next →
    txId ∉ transactions chain ∧ transactions next = txId :: transactions chain

namespace Rules

variable [DecidableEq BlockId] [DecidableEq TxId] (rules : Rules Chain BlockId TxId Header Witness)

/-- `add_tx` with `kept_by_block` and `from_core`. -/
def addTx (chain : Chain) (entry : TxId × Witness) (pool : Pool TxId Witness) : Pool TxId Witness :=
  if rules.poolAccepts chain entry.1 entry.2 then
    Function.update pool entry.1 (some ⟨entry.2, rules.poolBlobsize entry.1 entry.2⟩)
  else pool

/-- `purge_block_data_from_blockchain`: the transactions go to the pool, the last one first. -/
def purgeBlockData (chain : Chain) (processed : List (TxId × Witness)) (pool : Pool TxId Witness) :
    Pool TxId Witness :=
  processed.foldr (rules.addTx chain) pool

def getTxFromCache (onboard : OnboardTransactions TxId Witness)
    (txId : TxId) : Option (Copy Witness) :=
  (onboard txId).map fun witness => ⟨witness, rules.getObjectBlobsize txId witness⟩

structure Progress (Chain TxId Witness : Type*) where
  chain : Chain
  pool : Pool TxId Witness
  processed : List (TxId × Witness)
  cumulativeBlockSize : Nat

/-- What a block leaves that was given up: the pool, and whether
`add_block_as_invalid` was called. -/
structure Stopped (TxId Witness : Type*) where
  pool : Pool TxId Witness
  addedAsInvalid : Bool

/-- The body of the loop over the transactions. `chain` is the chain before the block. -/
def connectTransaction (chain : Chain) (onboard : OnboardTransactions TxId Witness)
    (p : Progress Chain TxId Witness) (txId : TxId) :
    Except (Stopped TxId Witness) (Progress Chain TxId Witness) :=
  let zone := rules.isInCheckpointZone chain
  let taken := p.pool txId
  let pool := Function.update p.pool txId none
  -- the copy in the pool takes the place of the one that came with the block
  match taken <|> rules.getTxFromCache onboard txId with
  | none => .error ⟨rules.purgeBlockData chain p.processed pool, false⟩
  | some copy =>
      if !rules.validateTxSemantic txId copy then
        .error ⟨rules.purgeBlockData chain p.processed pool, false⟩
      else
        let witness := if zone then rules.pruned copy.witness else copy.witness
        let back := rules.addTx chain (txId, witness) pool
        let backIfTaken := if taken.isSome then back else pool
        if !zone && !rules.checkProofs p.chain txId witness then
          .error ⟨rules.purgeBlockData chain p.processed back, false⟩
        else if !rules.checkTxInputs p.chain txId witness then
          .error ⟨rules.purgeBlockData chain p.processed backIfTaken, true⟩
        else if !rules.admitsWitness p.chain txId witness then
          .error ⟨rules.purgeBlockData chain p.processed backIfTaken, false⟩
        else
          match rules.addTransactionFromBlock p.chain txId with
          | none => .error ⟨rules.purgeBlockData chain p.processed backIfTaken, false⟩
          | some next =>
              .ok ⟨next, pool, p.processed ++ [(txId, witness)],
                p.cumulativeBlockSize + copy.blobSize⟩

def connectTransactions (chain : Chain) (onboard : OnboardTransactions TxId Witness) :
    List TxId → Progress Chain TxId Witness →
      Except (Stopped TxId Witness) (Progress Chain TxId Witness)
  | [], p => .ok p
  | txId :: txHashes, p =>
      match rules.connectTransaction chain onboard p txId with
      | .error stopped => .error stopped
      | .ok next => connectTransactions chain onboard txHashes next

/-- The size that counts after the transactions: the one in the coinbase from the sixth hardfork on,
which has to be the right one outside of the checkpoint zone. -/
def blockCumulativeSize (chain : Chain) (b : Block BlockId TxId Header) (size : Nat) : Option Nat :=
  if rules.isHardfork06 chain then
    match b.coinbaseBlockCumulativeSize with
    | none => none
    | some committed =>
        if rules.isInCheckpointZone chain then some committed
        else if size ≠ committed then none
        else some size
  else some size

/-- What comes after the transactions. -/
def finishBlock (chain : Chain) (b : Block BlockId TxId Header) (p : Progress Chain TxId Witness) :
    Except (Stopped TxId Witness) Chain :=
  let purged := rules.purgeBlockData chain p.processed p.pool
  if !rules.checkAliasCount chain p.chain then .error ⟨purged, false⟩
  else
    match rules.blockCumulativeSize chain b p.cumulativeBlockSize with
    | none => .error ⟨purged, true⟩
    | some size =>
        if !rules.isInCheckpointZone chain &&
          !rules.verifyMultipleZcOutsRangeProofs b p.processed then
          .error ⟨purged, false⟩
        else
          match rules.pushBlock chain p.chain b size with
          | none => .error ⟨purged, false⟩
          | some next => .ok next

def giveUp (node : Node Chain BlockId TxId Witness) (b : Block BlockId TxId Header)
    (stopped : Stopped TxId Witness) : Node Chain BlockId TxId Witness :=
  { node with
    pool := stopped.pool
    invalidBlocks :=
      if stopped.addedAsInvalid then b.id :: node.invalidBlocks else node.invalidBlocks }

def handleBlockToMainChain (node : Node Chain BlockId TxId Witness) (b : Block BlockId TxId Header)
    (onboard : OnboardTransactions TxId Witness) : Bool × Node Chain BlockId TxId Witness :=
  match rules.connectMinerTx node.chain b with
  | none => (false, node)
  | some start =>
      match rules.connectTransactions node.chain onboard b.txHashes
          ⟨start, node.pool, [], rules.coinbaseSize node.chain b⟩ with
      | .error stopped => (false, giveUp node b stopped)
      | .ok p =>
          match rules.finishBlock node.chain b p with
          | .error stopped => (false, giveUp node b stopped)
          | .ok next =>
              (true, { node with chain := next, blocks := node.blocks ++ [b.id], pool := p.pool })

def haveBlock (node : Node Chain BlockId TxId Witness) (id : BlockId) : Bool :=
  decide (id ∈ node.blocks) || decide (id ∈ node.alternativeChains) ||
    decide (id ∈ node.invalidBlocks)

def addNewBlock (node : Node Chain BlockId TxId Witness) (b : Block BlockId TxId Header)
    (onboard : OnboardTransactions TxId Witness) : Bool × Node Chain BlockId TxId Witness :=
  if haveBlock node b.id then (false, node)
  else if !rules.prevalidateBlock node.chain b then (false, node)
  else if node.blocks.getLast? ≠ some b.prevId then rules.handleAlternativeBlock node b onboard
  else rules.handleBlockToMainChain node b onboard

end Rules

end Zano.BlockHandling
