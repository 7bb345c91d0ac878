import Mathlib

/-! # The output and spend indexes

The four stores that a transaction of a block is written to and removed from: spent key images,
global output arrays per amount, multisig outputs, and transactions with their spent flags.

`add_transaction_from_block` and `purge_transaction_from_blockchain` also work on the aliases, the
assets and the gateway addresses. These stores are left out, with the inputs and outputs of
gateways; so are the checks that refuse a transaction before its inputs are visited.
-/

namespace Zano.Blockchain

inductive TxoutRefV (Hash : Type*) where
  | globalIndex (index : Nat)
  | refById (txId : Hash) (n : Nat)
  deriving DecidableEq, Repr

inductive TxinV (Hash KeyImage : Type*) where
  | gen
  | toKey (amount : UInt64) (keyOffsets : List (TxoutRefV Hash)) (kImage : KeyImage)
  | multisig (multisigOutId : Hash)
  | zcInput (keyOffsets : List (TxoutRefV Hash)) (kImage : KeyImage)
  deriving DecidableEq, Repr

/-- A multisig output carries what `get_multisig_out_id` answers for it: a hash, or nothing in the
place of `null_hash`. -/
inductive TxOutV (Hash : Type*) where
  | bareToKey (amount : UInt64)
  | bareMultisig (multisigOutId : Option Hash)
  | zarcanum
  deriving DecidableEq, Repr

structure Transaction (Hash KeyImage : Type*) where
  vin : List (TxinV Hash KeyImage)
  vout : List (TxOutV Hash)
  deriving DecidableEq, Repr

structure GlobalOutputEntry (Hash : Type*) where
  txId : Hash
  outNo : Nat
  deriving DecidableEq, Repr

structure MsOutputEntry (Hash : Type*) where
  txId : Hash
  outNo : Nat
  spentHeight : Nat
  deriving DecidableEq, Repr

structure TransactionChainEntry (Hash KeyImage : Type*) where
  tx : Transaction Hash KeyImage
  keeperBlockHeight : Nat
  globalOutputIndexes : List Nat
  spentFlags : List Bool
  deriving DecidableEq, Repr

@[ext]
structure Stores (Hash KeyImage : Type*) where
  spentKeys : KeyImage → Option Nat
  outputs : UInt64 → List (GlobalOutputEntry Hash)
  multisigOuts : Hash → Option (MsOutputEntry Hash)
  transactions : Hash → Option (TransactionChainEntry Hash KeyImage)

namespace Stores

variable {Hash KeyImage : Type*}

def empty : Stores Hash KeyImage where
  spentKeys := fun _ => none
  outputs := fun _ => []
  multisigOuts := fun _ => none
  transactions := fun _ => none

variable [DecidableEq Hash]

def setTransaction (s : Stores Hash KeyImage) (txId : Hash)
    (entry : Option (TransactionChainEntry Hash KeyImage)) : Stores Hash KeyImage :=
  { s with transactions := Function.update s.transactions txId entry }

def setMultisigOut (s : Stores Hash KeyImage) (id : Hash) (entry : Option (MsOutputEntry Hash)) :
    Stores Hash KeyImage :=
  { s with multisigOuts := Function.update s.multisigOuts id entry }

/-! ## Spent flags

A failed update leaves the stores as they are at that point. -/

/-- `update_spent_tx_flags_for_input(tx_id, n, spent)`. -/
def updateSpentTxFlags (s : Stores Hash KeyImage) (txId : Hash) (n : Nat) (spent : Bool) :
    Bool × Stores Hash KeyImage :=
  match s.transactions txId with
  | none => (false, s)
  | some tce =>
      if n < tce.spentFlags.length then
        (true, s.setTransaction txId (some { tce with spentFlags := tce.spentFlags.set n spent }))
      else (false, s)

/-- `update_spent_tx_flags_for_input(amount, o, spent)`. A global index of a hidden amount is not
followed. -/
def updateSpentTxFlagsForInput (s : Stores Hash KeyImage) (amount : UInt64) (o : TxoutRefV Hash)
    (spent : Bool) : Bool × Stores Hash KeyImage :=
  match o with
  | .refById txId n => s.updateSpentTxFlags txId n spent
  | .globalIndex index =>
      if amount = 0 then (true, s)
      else
        match (s.outputs amount)[index]? with
        | none => (false, s)
        | some out => s.updateSpentTxFlags out.txId out.outNo spent

/-- `update_spent_tx_flags_for_input(multisig_id, spent_height)`. The entry keeps 32 bits of the
height. An output that is already spent is only warned about. -/
def updateSpentTxFlagsForMultisig (s : Stores Hash KeyImage) (id : Hash) (spentHeight : Nat) :
    Bool × Stores Hash KeyImage :=
  match s.multisigOuts id with
  | none => (false, s)
  | some msoe =>
      (s.setMultisigOut id
        (some { msoe with spentHeight := spentHeight % 2 ^ 32 })).updateSpentTxFlags
        msoe.txId msoe.outNo (decide (spentHeight ≠ 0))

/-- The flags of a direct spend, which is one with a single reference. -/
def updateDirectSpend (s : Stores Hash KeyImage) (amount : UInt64)
    (keyOffsets : List (TxoutRefV Hash)) (spent : Bool) : Bool × Stores Hash KeyImage :=
  match keyOffsets with
  | [o] => s.updateSpentTxFlagsForInput amount o spent
  | _ => (true, s)

variable [DecidableEq KeyImage]

def setSpentKey (s : Stores Hash KeyImage) (kImage : KeyImage) (height : Option Nat) :
    Stores Hash KeyImage :=
  { s with spentKeys := Function.update s.spentKeys kImage height }

/-! ## Inputs -/

def addKeyInput (s : Stores Hash KeyImage) (blHeight : Nat) (amount : UInt64)
    (keyOffsets : List (TxoutRefV Hash)) (kImage : KeyImage) : Option (Stores Hash KeyImage) :=
  match s.spentKeys kImage with
  | some _ => none
  | none =>
      match (s.setSpentKey kImage (some blHeight)).updateDirectSpend amount keyOffsets true with
      | (true, next) => some next
      | (false, _) => none

/-- `add_transaction_input_visitor`. -/
def addInput (s : Stores Hash KeyImage) (blHeight : Nat) :
    TxinV Hash KeyImage → Option (Stores Hash KeyImage)
  | .gen => some s
  | .toKey amount keyOffsets kImage => s.addKeyInput blHeight amount keyOffsets kImage
  | .zcInput keyOffsets kImage => s.addKeyInput blHeight 0 keyOffsets kImage
  | .multisig multisigOutId =>
      match s.updateSpentTxFlagsForMultisig multisigOutId blHeight with
      | (true, next) => some next
      | (false, _) => none

def addInputs (blHeight : Nat) : List (TxinV Hash KeyImage) → Stores Hash KeyImage →
    Option (Stores Hash KeyImage)
  | [], s => some s
  | input :: vin, s => (s.addInput blHeight input).bind fun next => addInputs blHeight vin next

def purgeKeyInput (s : Stores Hash KeyImage) (amount : UInt64) (keyOffsets : List (TxoutRefV Hash))
    (kImage : KeyImage) : Bool × Stores Hash KeyImage :=
  match s.spentKeys kImage with
  | none => (false, s)
  | some _ => (s.setSpentKey kImage none).updateDirectSpend amount keyOffsets false

/-- `purge_transaction_visitor`, with the strict check. -/
def purgeInput (s : Stores Hash KeyImage) : TxinV Hash KeyImage → Bool × Stores Hash KeyImage
  | .gen => (true, s)
  | .toKey amount keyOffsets kImage => s.purgeKeyInput amount keyOffsets kImage
  | .zcInput keyOffsets kImage => s.purgeKeyInput 0 keyOffsets kImage
  | .multisig multisigOutId => s.updateSpentTxFlagsForMultisig multisigOutId 0

/-- `purge_transaction_keyimages_from_blockchain`: from the first input to the last. -/
def purgeTransactionKeyimages : List (TxinV Hash KeyImage) → Stores Hash KeyImage →
    Bool × Stores Hash KeyImage
  | [], s => (true, s)
  | input :: vin, s =>
      match s.purgeInput input with
      | (true, next) => purgeTransactionKeyimages vin next
      | (false, stopped) => (false, stopped)

/-! ## Outputs -/

def pushOutput (s : Stores Hash KeyImage) (txId : Hash) (amount : UInt64) (outputIndex : Nat) :
    Stores Hash KeyImage × Nat :=
  let outputs := s.outputs amount ++ [⟨txId, outputIndex⟩]
  ({ s with outputs := Function.update s.outputs amount outputs }, outputs.length - 1)

def pushOut (s : Stores Hash KeyImage) (txId : Hash) (outputIndex : Nat) :
    TxOutV Hash → Option (Stores Hash KeyImage × Nat)
  | .bareToKey amount => some (s.pushOutput txId amount outputIndex)
  | .zarcanum => some (s.pushOutput txId 0 outputIndex)
  | .bareMultisig none => none
  | .bareMultisig (some id) =>
      if (s.multisigOuts id).isSome then none
      else some (s.setMultisigOut id (some ⟨txId, outputIndex, 0⟩), 0)

/-- `push_transaction_to_global_outs_index`, from this output on; the numbers are
the global indexes. -/
def pushOuts (txId : Hash) : Nat → List (TxOutV Hash) → Stores Hash KeyImage →
    Option (Stores Hash KeyImage × List Nat)
  | _, [], s => some (s, [])
  | outputIndex, out :: vout, s =>
      (s.pushOut txId outputIndex out).bind fun (next, index) =>
        (pushOuts txId (outputIndex + 1) vout next).map fun (final, indexes) =>
          (final, index :: indexes)

/-- `do_pop_output`. -/
def popOutput (s : Stores Hash KeyImage) (txId : Hash) (amount : UInt64) (i : Nat) :
    Bool × Stores Hash KeyImage :=
  match (s.outputs amount).getLast? with
  | none => (false, s)
  | some back =>
      if back = ⟨txId, i⟩ then
        (true, { s with outputs := Function.update s.outputs amount (s.outputs amount).dropLast })
      else (false, s)

def popOut (s : Stores Hash KeyImage) (txId : Hash) (i : Nat) :
    TxOutV Hash → Bool × Stores Hash KeyImage
  | .bareToKey amount => s.popOutput txId amount i
  | .zarcanum => s.popOutput txId 0 i
  | .bareMultisig none => (false, s)
  | .bareMultisig (some id) => ((s.multisigOuts id).isSome, s.setMultisigOut id none)

/-- `pop_transaction_from_global_index`: from the last output to this one. -/
def popOuts (txId : Hash) : Nat → List (TxOutV Hash) → Stores Hash KeyImage →
    Bool × Stores Hash KeyImage
  | _, [], s => (true, s)
  | i, out :: vout, s =>
      match popOuts txId (i + 1) vout s with
      | (true, next) => next.popOut txId i out
      | (false, stopped) => (false, stopped)

/-! ## Transactions -/

/-- `add_transaction_from_block`. -/
def addTransactionFromBlock (s : Stores Hash KeyImage) (blHeight : Nat) (txId : Hash)
    (tx : Transaction Hash KeyImage) : Option (Stores Hash KeyImage) :=
  (addInputs blHeight tx.vin s).bind fun spent =>
    match spent.transactions txId with
    | some _ => none
    | none => (pushOuts txId 0 tx.vout spent).map fun (pushed, indexes) =>
        pushed.setTransaction txId
          (some ⟨tx, blHeight, indexes, List.replicate tx.vout.length false⟩)

/-- `purge_transaction_from_blockchain`. A failure to purge the inputs goes unnoticed. -/
def purgeTransactionFromBlockchain (s : Stores Hash KeyImage) (txId : Hash) :
    Bool × Stores Hash KeyImage :=
  match s.transactions txId with
  | none => (false, s)
  | some entry =>
      let (_, unspent) := purgeTransactionKeyimages entry.tx.vin s
      let (popped, index) := popOuts txId 0 entry.tx.vout unspent
      (popped && (index.transactions txId).isSome, index.setTransaction txId none)

end Stores

end Zano.Blockchain
