import Mathlib
import Zano.Aliases.Stores
import Zano.Assets.Stores
import Zano.Blockchain.Storage
import Zano.Ledger.Gateways

/-! # Transactions with all that they change

`add_transaction_from_block` and `purge_transaction_from_blockchain` over all stores: the output and
spend indexes, the aliases, the assets and the gateway addresses. Here a function answers whether it
succeeded together with the stores that it leaves, also when it fails.

The two checks before the first change, the check of the price of an alias, points and signatures
are parameters. What the services manager does with attachments is left out, and so is the
transaction pool.
-/

namespace Zano.Ledger

open Blockchain Aliases Assets Attempts

/-- The types that the stores are over. -/
structure Carriers where
  Hash : Type
  KeyImage : Type
  Address : Type
  SecretKey : Type
  Signature : Type
  PublicKey : Type
  EthPublicKey : Type
  [decHash : DecidableEq Hash]
  [decKeyImage : DecidableEq KeyImage]
  [decAddress : DecidableEq Address]
  [decSecretKey : DecidableEq SecretKey]
  [decPublicKey : DecidableEq PublicKey]

attribute [instance] Carriers.decHash Carriers.decKeyImage Carriers.decAddress Carriers.decSecretKey
  Carriers.decPublicKey

inductive TxinV (C : Carriers) where
  | plain (input : Blockchain.TxinV C.Hash C.KeyImage)
  | gateway (inGw : GatewayAmount C.PublicKey)

inductive TxOutV (C : Carriers) where
  | plain (out : Blockchain.TxOutV C.Hash)
  | gateway (outGw : GatewayAmount C.PublicKey)

def TxinV.side {C : Carriers} :
    TxinV C → Blockchain.TxinV C.Hash C.KeyImage ⊕ GatewayAmount C.PublicKey
  | .plain input => .inl input
  | .gateway inGw => .inr inGw

/-- An output with its number. -/
def TxOutV.side {C : Carriers} :
    TxOutV C × Nat → (Blockchain.TxOutV C.Hash × Nat) ⊕ GatewayAmount C.PublicKey
  | (.plain out, i) => .inl (out, i)
  | (.gateway outGw, _) => .inr outGw

inductive ExtraOperation (C : Carriers) where
  | aliasInfo (ai : ExtraAliasEntry C.Address C.SecretKey C.Signature)
  | assetInfo (ado : AssetDescriptorOperation C.PublicKey C.PublicKey C.EthPublicKey)
  | gwAddress (op : GatewayOperation C.PublicKey)

/-- What `parse_and_validate_tx_extra` finds, as far as the stores are concerned. -/
structure TxExtraInfo (C : Carriers) where
  aliasInfo : Option (ExtraAliasEntry C.Address C.SecretKey C.Signature)
  assetOperation : Option (AssetDescriptorOperation C.PublicKey C.PublicKey C.EthPublicKey)
  optGatewayAddressOperation : Option (GatewayOperation C.PublicKey)

/-- The operations in the order in which they are processed, and unprocessed. -/
def TxExtraInfo.operations {C : Carriers} (ei : TxExtraInfo C) : List (ExtraOperation C) :=
  (ei.aliasInfo.map .aliasInfo).toList ++ (ei.assetOperation.map .assetInfo).toList ++
    (ei.optGatewayAddressOperation.map .gwAddress).toList

structure Transaction (C : Carriers) where
  vin : List (TxinV C)
  vout : List (TxOutV C)
  fee : UInt64
  /-- Nothing if the extra is not valid. -/
  extra : Option (TxExtraInfo C)
  assetProofs : Assets.Proofs C.Signature
  gatewayProof : Option (OwnershipProof C.Signature)

/-- `get_gateway_addresses_involved_in_tx`. -/
def Transaction.involved {C : Carriers} (tx : Transaction C) : Finset C.PublicKey :=
  ((rights TxinV.side tx.vin ++ rights TxOutV.side tx.vout.zipIdx).map (·.gatewayAddr)).toFinset

/-- The entries of `stores` hold the inputs and outputs without those of gateways; the whole
transaction is in `onChain`. -/
@[ext]
structure ChainStores (C : Carriers) where
  stores : Blockchain.Stores C.Hash C.KeyImage
  onChain : C.Hash → Option (Transaction C)
  aliases : AliasStores C.Address C.SecretKey C.Signature C.Hash
  assets : AssetStore C.PublicKey C.PublicKey C.EthPublicKey
  gateways : GatewayStores C.Hash C.PublicKey

structure Environment (C : Carriers) where
  isTxExpired : ChainStores C → Transaction C → Bool
  validateTxForHardforkSpecificTerms : Transaction C → C.Hash → Nat → Bool
  prevalidateAliasInfo : ChainStores C → Transaction C →
    ExtraAliasEntry C.Address C.SecretKey C.Signature → Bool
  checkAliasSignature : ExtraAliasEntry C.Address C.SecretKey C.Signature → C.Address →
    C.Signature → Bool
  assetRules : Assets.Rules C.Hash C.PublicKey C.PublicKey C.EthPublicKey C.Signature
  gatewayRules : GatewayRules C.Hash C.PublicKey C.Signature

/-- What inputs and outputs change. -/
abbrev Funds (C : Carriers) :=
  Blockchain.Stores C.Hash C.KeyImage × GatewayStores C.Hash C.PublicKey

/-! ## Visitors of inputs and outputs -/

section Visitors

variable {Hash KeyImage : Type*} [DecidableEq Hash] [DecidableEq KeyImage]

/-- A key image stays set when the mark of the output fails. -/
def visitKeyInput (blHeight : Nat) (s : Blockchain.Stores Hash KeyImage) (amount : UInt64)
    (keyOffsets : List (TxoutRefV Hash)) (kImage : KeyImage) :
    Bool × Blockchain.Stores Hash KeyImage :=
  if (s.spentKeys kImage).isSome then (false, s)
  else (s.setSpentKey kImage (some blHeight)).updateDirectSpend amount keyOffsets true

/-- `add_transaction_input_visitor` without gateways. -/
def visitInput (blHeight : Nat) (s : Blockchain.Stores Hash KeyImage) :
    Blockchain.TxinV Hash KeyImage → Bool × Blockchain.Stores Hash KeyImage
  | .gen => (true, s)
  | .toKey amount keyOffsets kImage => visitKeyInput blHeight s amount keyOffsets kImage
  | .zcInput keyOffsets kImage => visitKeyInput blHeight s 0 keyOffsets kImage
  | .multisig multisigOutId => s.updateSpentTxFlagsForMultisig multisigOutId blHeight

def visitPurgedKey (strictCheck : Bool) (s : Blockchain.Stores Hash KeyImage) (amount : UInt64)
    (keyOffsets : List (TxoutRefV Hash)) (kImage : KeyImage) :
    Bool × Blockchain.Stores Hash KeyImage :=
  if strictCheck ∧ (s.spentKeys kImage).isNone then (false, s)
  else (s.setSpentKey kImage none).updateDirectSpend amount keyOffsets false

/-- `purge_transaction_visitor` without gateways. -/
def visitPurge (strictCheck : Bool) (s : Blockchain.Stores Hash KeyImage) :
    Blockchain.TxinV Hash KeyImage → Bool × Blockchain.Stores Hash KeyImage
  | .gen => (true, s)
  | .toKey amount keyOffsets kImage => visitPurgedKey strictCheck s amount keyOffsets kImage
  | .zcInput keyOffsets kImage => visitPurgedKey strictCheck s 0 keyOffsets kImage
  | .multisig multisigOutId => s.updateSpentTxFlagsForMultisig multisigOutId 0

end Visitors

namespace ChainStores

variable {C : Carriers}

def empty : ChainStores C where
  stores := .empty
  onChain := fun _ => none
  aliases := .empty
  assets := fun _ => []
  gateways := .empty

def funds (s : ChainStores C) : Funds C := (s.stores, s.gateways)

def withFunds (s : ChainStores C) (funds : Funds C) : ChainStores C :=
  { s with stores := funds.1, gateways := funds.2 }

variable (env : Environment C)

/-! ## Extra -/

/-- Failed operations change nothing. -/
def putOperation (tx : Transaction C) (txId : C.Hash) (height : Nat) (s : ChainStores C) :
    ExtraOperation C → Option (ChainStores C)
  | .aliasInfo ai =>
      if env.prevalidateAliasInfo s tx ai then
        (s.aliases.putAliasInfo env.checkAliasSignature ai txId).map fun aliases =>
          { s with aliases := aliases }
      else none
  | .assetInfo ado =>
      (putAssetInfo env.assetRules s.assets ⟨txId, tx.assetProofs, ado, height⟩).map fun assets =>
        { s with assets := assets }
  | .gwAddress op =>
      (s.gateways.putGwAddressOperation env.gatewayRules txId tx.fee
          tx.gatewayProof op).map fun gateways =>
        { s with gateways := gateways }

def popOperation (tx : Transaction C) (txId : C.Hash) (height : Nat) (s : ChainStores C) :
    ExtraOperation C → Option (ChainStores C)
  | .aliasInfo ai =>
      (s.aliases.popAliasInfo ai txId).map fun aliases => { s with aliases := aliases }
  | .assetInfo ado =>
      (popAssetInfo env.assetRules s.assets ⟨txId, tx.assetProofs, ado, height⟩).map fun assets =>
        { s with assets := assets }
  | .gwAddress op =>
      (s.gateways.popGwAddressOperation op).map fun gateways => { s with gateways := gateways }

def processBlockchainTxExtra (s : ChainStores C) (tx : Transaction C) (txId : C.Hash)
    (height : Nat) :
    Bool × ChainStores C :=
  match tx.extra with
  | none => (false, s)
  | some ei => untilFailure (orStay (putOperation env tx txId height)) ei.operations s

def unprocessBlockchainTxExtra (s : ChainStores C) (tx : Transaction C) (txId : C.Hash)
    (height : Nat) :
    Bool × ChainStores C :=
  match tx.extra with
  | none => (false, s)
  | some ei => untilFailure (orStay (popOperation env tx txId height)) ei.operations s

/-! ## Inputs -/

def addInput (blHeight : Nat) : Funds C → TxinV C → Bool × Funds C :=
  sideBySide (visitInput blHeight) (orStay (GatewayStores.processGatewayInput env.gatewayRules))
    TxinV.side

def addInputs (blHeight : Nat) (s : ChainStores C) (vin : List (TxinV C)) : Bool × ChainStores C :=
  let (ok, funds) := untilFailure (addInput env blHeight) vin s.funds
  (ok, s.withFunds funds)

def purgeInput (strictCheck : Bool) : Funds C → TxinV C → Bool × Funds C :=
  sideBySide (visitPurge strictCheck)
    (orStay (GatewayStores.unprocessGatewayInput env.gatewayRules))
    TxinV.side

/-- Without the strict check a failure does not end it. -/
def purgeTransactionKeyimages (strictCheck : Bool) (s : ChainStores C)
    (vin : List (TxinV C)) : Bool × ChainStores C :=
  if strictCheck then
    let (ok, funds) := untilFailure (purgeInput env true) vin s.funds
    (ok, s.withFunds funds)
  else (true,
    s.withFunds (vin.foldl (fun funds input => (purgeInput env false funds input).2) s.funds))

/-! ## Outputs -/

/-- The new global index is noted; it is zero for what is not in a global index. -/
def pushOut (txId : C.Hash) (s : Funds C × List Nat) : TxOutV C × Nat → Bool × (Funds C × List Nat)
  | (.plain out, outputIndex) =>
      match s.1.1.pushOut txId outputIndex out with
      | some (next, index) => (true, ((next, s.1.2), s.2 ++ [index]))
      | none => (false, s)
  | (.gateway outGw, _) =>
      match s.1.2.processGatewayOuput env.gatewayRules outGw with
      | some next => (true, ((s.1.1, next), s.2 ++ [0]))
      | none => (false, s)

/-- `push_transaction_to_global_outs_index`. -/
def pushOuts (txId : C.Hash) (s : ChainStores C) (vout : List (TxOutV C)) :
    Bool × ChainStores C × List Nat :=
  let (ok, funds, indexes) := untilFailure (pushOut env txId) vout.zipIdx (s.funds, [])
  (ok, s.withFunds funds, indexes)

def popOut (txId : C.Hash) : Funds C → TxOutV C × Nat → Bool × Funds C :=
  sideBySide (fun s out => s.popOut txId out.2 out.1)
    (orStay (GatewayStores.unprocessGatewayOutput env.gatewayRules)) TxOutV.side

/-- `pop_transaction_from_global_index`: from the last output to the first. -/
def popOuts (txId : C.Hash) (s : ChainStores C) (vout : List (TxOutV C)) : Bool × ChainStores C :=
  let (ok, funds) := untilFailure (popOut env txId) vout.zipIdx.reverse s.funds
  (ok, s.withFunds funds)

/-! ## Transactions -/

def processTxGatewayHistory (s : ChainStores C) (txId : C.Hash)
    (tx : Transaction C) : ChainStores C :=
  { s with gateways := s.gateways.processTxGatewayHistory txId tx.involved }

def unprocessTxGatewayHistory (s : ChainStores C) (txId : C.Hash)
    (tx : Transaction C) : ChainStores C :=
  { s with gateways := s.gateways.unprocessTxGatewayHistory txId tx.involved }

def setTransaction (s : ChainStores C) (txId : C.Hash) (tx : Transaction C) (blHeight : Nat)
    (indexes : List Nat) :
    ChainStores C :=
  let plain : Blockchain.Transaction C.Hash C.KeyImage :=
    ⟨lefts TxinV.side tx.vin, (lefts TxOutV.side tx.vout.zipIdx).map (·.1)⟩
  { s with
    stores := s.stores.setTransaction txId
      (some ⟨plain, blHeight, indexes, List.replicate tx.vout.length false⟩)
    onChain := Function.update s.onChain txId (some tx) }

def eraseTransaction (s : ChainStores C) (txId : C.Hash) : ChainStores C :=
  { s with
    stores := s.stores.setTransaction txId none, onChain := Function.update s.onChain txId none }

def addTransactionFromBlock (s : ChainStores C) (blHeight : Nat) (txId : C.Hash)
    (tx : Transaction C) :
    Bool × ChainStores C :=
  if env.isTxExpired s tx ∨ !env.validateTxForHardforkSpecificTerms tx txId blHeight then (false, s)
  else
    match s.processBlockchainTxExtra env tx txId blHeight with
    | (false, stopped) => (false, stopped)
    | (true, processed) =>
        match (processed.processTxGatewayHistory txId tx).addInputs env blHeight tx.vin with
        | (false, stopped) =>
            -- the history of the gateways stays
            (false, ((stopped.purgeTransactionKeyimages env false
              tx.vin).2.unprocessBlockchainTxExtra env tx txId
              blHeight).2)
        | (true, spent) =>
            match spent.stores.transactions txId with
            | some _ =>
                (false, ((spent.purgeTransactionKeyimages env true
                  tx.vin).2.unprocessBlockchainTxExtra env tx txId
                  blHeight).2)
            | none =>
                match spent.pushOuts env txId tx.vout with
                | (false, stopped, _) => (false, stopped)
                | (true, pushed, indexes) => (true, pushed.setTransaction txId tx blHeight indexes)

/-- Failures to purge the inputs or to pop the outputs do not end it. -/
def purgeTransactionFromBlockchain (s : ChainStores C) (txId : C.Hash) : Bool × ChainStores C :=
  match s.onChain txId, s.stores.transactions txId with
  | some tx, some entry =>
      let unspent := (s.purgeTransactionKeyimages env true tx.vin).2
      let (popped, index) := unspent.popOuts env txId tx.vout
      match (index.unprocessTxGatewayHistory txId tx).unprocessBlockchainTxExtra env tx txId
        entry.keeperBlockHeight with
      | (false, stopped) => (false, stopped)
      | (true, final) =>
          (popped && (final.stores.transactions txId).isSome, final.eraseTransaction txId)
  | _, _ => (false, s)

end ChainStores

end Zano.Ledger
