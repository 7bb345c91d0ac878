import Mathlib
import Zano.Blockchain.Storage

/-! # The main chain as alternative blocks see it

The tables of the main chain that the validation of an alternative block reads, and how a block that
joins the main chain is written to them. A main chain carries its blocks together with the tables
that they build, so the tables of a shorter chain are those that its blocks build again.

Outputs carry a key, and ring signatures are left to the environment. What gateways, aliases and
assets write is kept in other tables, which nothing here reads.
-/

namespace Zano.AltBlocks

open Blockchain (TxoutRefV GlobalOutputEntry MsOutputEntry)

/-- References are absolute here. -/
inductive TxinV (Hash KeyImage : Type*) where
  | gen (height : Nat)
  | toKey (amount : UInt64) (keyOffsets : List (TxoutRefV Hash)) (kImage : KeyImage)
  | multisig (multisigOutId : Hash)
  | htlc
  | zcInput (keyOffsets : List (TxoutRefV Hash)) (kImage : KeyImage)
  | gateway
  deriving DecidableEq, Repr

inductive TxOutV (Hash Key : Type*) where
  | bareToKey (amount : UInt64) (key : Key)
  | bareMultisig (multisigOutId : Hash)
  | bareHtlc
  | zarcanum (stealthAddress : Key)
  | gateway
  deriving DecidableEq, Repr

structure Transaction (Hash KeyImage Key : Type*) where
  vin : List (TxinV Hash KeyImage)
  vout : List (TxOutV Hash Key)
  deriving DecidableEq, Repr

structure Block (Hash KeyImage Key : Type*) where
  prevId : Hash
  posFlag : Bool
  minerTx : Transaction Hash KeyImage Key
  txHashes : List Hash
  deriving DecidableEq, Repr

/-- A block with its id, the id of its miner transaction and its transactions. -/
structure FullBlock (Hash KeyImage Key : Type*) where
  id : Hash
  bl : Block Hash KeyImage Key
  minerTxId : Hash
  transactions : List (Hash × Transaction Hash KeyImage Key)
  deriving DecidableEq, Repr

structure TransactionChainEntry (Hash KeyImage Key : Type*) where
  tx : Transaction Hash KeyImage Key
  keeperBlockHeight : Nat
  deriving DecidableEq, Repr

structure MainTables (Hash KeyImage Key : Type*) where
  blocks : List (FullBlock Hash KeyImage Key)
  spentKeys : KeyImage → Option Nat
  outputs : UInt64 → List (GlobalOutputEntry Hash)
  multisigOuts : Hash → Option (MsOutputEntry Hash)
  transactions : Hash → Option (TransactionChainEntry Hash KeyImage Key)
  perBlockGindexIncs : List (AList fun _ : UInt64 => Nat)

section Kinds

variable {Hash KeyImage Key : Type*}

/-- `get_key_image_from_txin_v`. -/
def TxinV.keyImage : TxinV Hash KeyImage → Option KeyImage
  | .toKey _ _ kImage => some kImage
  | .zcInput _ kImage => some kImage
  | _ => none

def TxinV.multisigId : TxinV Hash KeyImage → Option Hash
  | .multisig multisigOutId => some multisigOutId
  | _ => none

def Transaction.keyImages (tx : Transaction Hash KeyImage Key) : List KeyImage :=
  tx.vin.filterMap TxinV.keyImage

def Transaction.multisigIds (tx : Transaction Hash KeyImage Key) : List Hash :=
  tx.vin.filterMap TxinV.multisigId

/-- The amount whose global index an output enters; hidden amounts are listed under zero. -/
def TxOutV.indexedAmount : TxOutV Hash Key → Option UInt64
  | .bareToKey amount _ => some amount
  | .zarcanum _ => some 0
  | _ => none

def TxOutV.multisigId : TxOutV Hash Key → Option Hash
  | .bareMultisig multisigOutId => some multisigOutId
  | _ => none

def isPosMinerTx (tx : Transaction Hash KeyImage Key) : Bool :=
  match tx.vin with
  | [.gen _, .toKey _ _ _] => true
  | [.gen _, .zcInput _ _] => true
  | _ => false

def isPosBlock (b : Block Hash KeyImage Key) : Bool := b.posFlag && isPosMinerTx b.minerTx

/-- `prevalidate_miner_transaction`, as far as the inputs go. -/
def prevalidateMinerTransaction (b : Block Hash KeyImage Key) (height : Nat) : Bool :=
  decide (b.minerTx.vin.length = if isPosBlock b then 2 else 1) &&
    match b.minerTx.vin with
    | .gen genHeight :: _ => decide (genHeight = height)
    | _ => false

/-- Every transaction of the block, the miner transaction first. -/
def FullBlock.allTransactions (b : FullBlock Hash KeyImage Key) :
    List (Hash × Transaction Hash KeyImage Key) :=
  (b.minerTxId, b.bl.minerTx) :: b.transactions

end Kinds

namespace MainTables

variable {Hash KeyImage Key : Type*}

def empty : MainTables Hash KeyImage Key where
  blocks := []
  spentKeys := fun _ => none
  outputs := fun _ => []
  multisigOuts := fun _ => none
  transactions := fun _ => none
  perBlockGindexIncs := []

variable [DecidableEq Hash] [DecidableEq KeyImage]

/-- The checks and the marks of one input. The height that a multisig output was spent at is kept in
32 bits, and zero means that it is unspent. -/
def pushInput (blHeight : Nat) (db : MainTables Hash KeyImage Key) :
    TxinV Hash KeyImage → Option (MainTables Hash KeyImage Key)
  | .gen _ => some db
  | .htlc => none
  | .gateway => some db
  | .toKey _ _ kImage => spendKeyImage kImage
  | .zcInput _ kImage => spendKeyImage kImage
  | .multisig multisigOutId =>
      match db.multisigOuts multisigOutId with
      | none => none
      | some msoe =>
          if msoe.spentHeight ≠ 0 then none
          else
            some { db with
              multisigOuts := Function.update db.multisigOuts multisigOutId
                (some { msoe with spentHeight := blHeight % 2 ^ 32 }) }
where
  spendKeyImage (kImage : KeyImage) : Option (MainTables Hash KeyImage Key) :=
    match db.spentKeys kImage with
    | some _ => none
    | none => some { db with spentKeys := Function.update db.spentKeys kImage (some blHeight) }

omit [DecidableEq KeyImage] in
def pushOut (txId : Hash) (db : MainTables Hash KeyImage Key) (outputIndex : Nat) :
    TxOutV Hash Key → Option (MainTables Hash KeyImage Key)
  | .bareToKey amount _ => some (pushOutput amount)
  | .zarcanum _ => some (pushOutput 0)
  | .bareMultisig id =>
      if (db.multisigOuts id).isSome then none
      else some { db with
        multisigOuts := Function.update db.multisigOuts id (some ⟨txId, outputIndex, 0⟩) }
  | .bareHtlc => some db
  | .gateway => some db
where
  pushOutput (amount : UInt64) : MainTables Hash KeyImage Key :=
    { db with
      outputs := Function.update db.outputs amount (db.outputs amount ++ [⟨txId, outputIndex⟩]) }

omit [DecidableEq KeyImage] in
/-- `push_transaction_to_global_outs_index`, from this output on. -/
def pushOuts (txId : Hash) : Nat → List (TxOutV Hash Key) → MainTables Hash KeyImage Key →
    Option (MainTables Hash KeyImage Key)
  | _, [], db => some db
  | outputIndex, out :: vout, db =>
      (db.pushOut txId outputIndex out).bind (pushOuts txId (outputIndex + 1) vout)

/-- `add_transaction_from_block`, as far as these tables go. -/
def pushTransaction (blHeight : Nat) (db : MainTables Hash KeyImage Key)
    (tx : Hash × Transaction Hash KeyImage Key) : Option (MainTables Hash KeyImage Key) :=
  (tx.2.vin.foldlM (pushInput blHeight) db).bind fun spent =>
    match spent.transactions tx.1 with
    | some _ => none
    | none =>
        (pushOuts tx.1 0 tx.2.vout spent).map fun pushed =>
          { pushed with
            transactions := Function.update pushed.transactions tx.1 (some ⟨tx.2, blHeight⟩) }

omit [DecidableEq Hash] [DecidableEq KeyImage] in
/-- `append_per_block_increments_for_tx`. -/
def appendPerBlockIncrementsForTx (gindices : AList fun _ : UInt64 => Nat)
    (tx : Transaction Hash KeyImage Key) :
    AList fun _ : UInt64 => Nat :=
  (tx.vout.filterMap TxOutV.indexedAmount).foldl
    (fun gindices amount => gindices.insert amount ((gindices.lookup amount).getD 0 + 1)) gindices

/-- A block joins the main chain: its transactions are those that it names, and it
follows the top block. -/
def pushBlock (db : MainTables Hash KeyImage Key) (b : FullBlock Hash KeyImage Key) :
    Option (MainTables Hash KeyImage Key) :=
  if b.transactions.map (·.1) = b.bl.txHashes ∧
    db.blocks.getLast?.all (fun top => top.id = b.bl.prevId) ∧
      b.id ∉ db.blocks.map (·.id) ∧ prevalidateMinerTransaction b.bl db.blocks.length then
    (b.allTransactions.foldlM (pushTransaction db.blocks.length) db).map fun pushed =>
      { pushed with
        blocks := db.blocks ++ [b]
        perBlockGindexIncs := db.perBlockGindexIncs ++
          [b.allTransactions.foldl (fun gindices tx =>
            appendPerBlockIncrementsForTx gindices tx.2) ∅] }
  else none

end MainTables

/-- The blocks of the main chain with the tables that they build. -/
structure MainChain (Hash KeyImage Key : Type*) [DecidableEq Hash] [DecidableEq KeyImage] where
  blocks : List (FullBlock Hash KeyImage Key)
  db : MainTables Hash KeyImage Key
  built : blocks.foldlM MainTables.pushBlock MainTables.empty = some db

namespace MainChain

variable {Hash KeyImage Key : Type*} [DecidableEq Hash] [DecidableEq KeyImage]

def ofBlocks (blocks : List (FullBlock Hash KeyImage Key)) : Option (MainChain Hash KeyImage Key) :=
  match built : blocks.foldlM MainTables.pushBlock MainTables.empty with
  | some db => some ⟨blocks, db, built⟩
  | none => none

def push (main : MainChain Hash KeyImage Key) (b : FullBlock Hash KeyImage Key) :
    Option (MainChain Hash KeyImage Key) :=
  ofBlocks (main.blocks ++ [b])

/-- The genesis block is never popped. -/
def pop (main : MainChain Hash KeyImage Key) : Option (MainChain Hash KeyImage Key) :=
  if main.blocks.length ≤ 1 then none else ofBlocks main.blocks.dropLast

theorem ofBlocks_eq_some {blocks : List (FullBlock Hash KeyImage Key)}
    {main : MainChain Hash KeyImage Key} (is_ : ofBlocks blocks = some main) :
    main.blocks = blocks := by
  unfold ofBlocks at is_
  split at is_
  · cases is_
    rfl
  · cases is_

/-- What the blocks of a main chain build, block by block. -/
theorem induct {P : MainTables Hash KeyImage Key → List (FullBlock Hash KeyImage Key) → Prop}
    (empty : P .empty [])
    (push : ∀ db blocks b db', P db blocks → db.blocks = blocks → db.pushBlock b = some db' →
      P db' (blocks ++ [b]))
    (main : MainChain Hash KeyImage Key) : P main.db main.blocks := by
  have pushed :
      ∀ (later blocks : List (FullBlock Hash KeyImage Key)) (db : MainTables Hash KeyImage Key),
      db.blocks = blocks → P db blocks → later.foldlM MainTables.pushBlock db = some main.db →
      P main.db (blocks ++ later) := by
    intro later
    induction later with
    | nil =>
        intro blocks db _ holds built
        cases built
        rwa [List.append_nil]
    | cons b rest inductionHypothesis =>
        intro blocks db same holds built
        obtain ⟨next, first, later⟩ := Option.bind_eq_some_iff.mp built
        have next_blocks : next.blocks = blocks ++ [b] := by
          unfold MainTables.pushBlock at first
          split at first
          · obtain ⟨_, _, rfl⟩ := Option.map_eq_some_iff.mp first
            rw [← same]
          · cases first
        rw [List.append_cons]
        exact inductionHypothesis (blocks ++ [b]) next next_blocks
          (push db blocks b next holds same first) later
  exact pushed main.blocks [] .empty rfl empty main.built

end MainChain

end Zano.AltBlocks
