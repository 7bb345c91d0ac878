import Mathlib
import Zano.Serialization.Variants

/-! # Outputs that are offered as decoys

What the searches for decoys read of the blockchain, and the entry that is made of one output: it is
not made of outputs that are spent, locked, burned or not to be mixed.
-/

namespace Zano.Decoys

open Serialization (Hash PublicKey TransactionPrefix TxOutV TxinV getTypeInVariantContainer
  getTxXDetail PayloadItemsV)

/-- How a function ends without its result: it returns false, or an exception leaves it. -/
inductive Failure where
  | refused
  | exception
  deriving DecidableEq, Repr

/-! ## The blockchain -/

structure GlobalOutputEntry where
  txId : Hash
  outNo : ℕ

structure TransactionChainEntry where
  tx : TransactionPrefix
  keeperBlockHeight : ℕ
  spentFlags : List Bool
  globalOutputIndexes : List UInt64

/-- The id of the miner transaction is kept beside it. -/
structure Block where
  posFlag : Bool
  minerTx : TransactionPrefix
  minerTxId : Hash
  txHashes : List Hash

structure BlockchainStorage where
  dbBlocks : List Block
  dbOutputs : UInt64 → List GlobalOutputEntry
  dbTransactions : Hash → Option TransactionChainEntry
  coreTime : UInt64
  hf4MinimumMixins : UInt64
  hf4ActiveAfterHeight : UInt64

/-- `get_current_blockchain_size` -/
def BlockchainStorage.currentBlockchainSize (s : BlockchainStorage) : ℕ := s.dbBlocks.length

def currencyMaxBlockNumber : UInt64 := 500000000

def currencyMinedMoneyUnlockWindow : ℕ := 10

def currencyLockedTxAllowedDeltaBlocks : UInt64 := 1

def currencyLockedTxAllowedDeltaSeconds : UInt64 := 60 * currencyLockedTxAllowedDeltaBlocks

def currencyToKeyOutRelaxed : UInt8 := 0

def currencyToKeyOutForcedNoMix : UInt8 := 1

def nullPkey : PublicKey := Serialization.Blob.filled 32 0

/-! ## One output -/

structure OutEntry where
  globalAmountIndex : ℕ
  stealthAddress : PublicKey
  concealingPoint : PublicKey := nullPkey
  amountCommitment : PublicKey := nullPkey
  blindedAssetId : PublicKey := nullPkey
  flags : UInt64 := 0
  deriving DecidableEq

def getTxUnlockTime (tx : TransactionPrefix) (oI : ℕ) : Except Failure UInt64 :=
  let v := getTxXDetail PayloadItemsV.etcTxDetailsUnlockTime (·.v) tx
  if v ≠ 0 then .ok v
  else if tx.vout.length ≤ oI then .error .exception
  else
    match getTypeInVariantContainer PayloadItemsV.etcTxDetailsUnlockTime2 tx.extra with
    | none => .ok 0
    | some ut2 =>
        if ut2.unlockTimeArray.length = 0 then .ok 0
        else
          match ut2.unlockTimeArray[oI]? with
          | none => .error .exception
          | some time => .ok time

def isTxSpendtimeUnlocked (unlockTime currentBlockchainSize currentTime : UInt64) : Bool :=
  if unlockTime < currencyMaxBlockNumber then
    unlockTime ≤ currentBlockchainSize - 1 + currencyLockedTxAllowedDeltaBlocks
  else unlockTime ≤ currentTime + currencyLockedTxAllowedDeltaSeconds

def isOutBurned : TxOutV → Except Failure Bool
  | .inl bare =>
      match bare.target with
      | .inl toKey => .ok (toKey.key = nullPkey)
      | .inr _ => .error .exception
  | .inr (.inl zarcanum) => .ok (zarcanum.stealthAddress = nullPkey)
  | .inr (.inr _) => .error .exception

def getMixAttrFromTxOutV : TxOutV → Option UInt8
  | .inl bare =>
      match bare.target with
      | .inl toKey => some toKey.mixAttr
      | .inr _ => none
  | .inr (.inl zarcanum) => some zarcanum.mixAttr
  | .inr (.inr _) => none

def isPosMinerTx (tx : TransactionPrefix) : Bool :=
  match tx.vin with
  | [.inl _, .inr (.inl _)] => true
  | [.inl _, .inr (.inr (.inr (.inr _)))] => true
  | _ => false

def isCoinbase (tx : TransactionPrefix) : Bool :=
  match tx.vin with
  | [.inl _] => true
  | [.inl _, _] => true
  | _ => false

def flagsCoinbase : UInt64 := 1

def flagsNotAllowed : UInt64 := 2

def flagsPosCoinbase : UInt64 := 4

/-- The entry itself, when nothing speaks against the output. A kind of output without an
entry leaves the entry of the caller as it is, but such an output has no mix attribute and
is refused before. -/
def outEntryOf (tx : TransactionPrefix) (amount : UInt64) (gIndex : ℕ) :
    TxOutV → Except Failure OutEntry
  | .inl bare =>
      if amount = 0 then .error .refused
      else
        match bare.target with
        | .inl toKey => .ok { globalAmountIndex := gIndex, stealthAddress := toKey.key }
        | .inr _ => .error .refused
  | .inr (.inl zarcanum) =>
      if amount ≠ 0 then .error .refused
      else .ok {
        globalAmountIndex := gIndex
        stealthAddress := zarcanum.stealthAddress
        concealingPoint := zarcanum.concealingPoint
        amountCommitment := zarcanum.amountCommitment
        blindedAssetId := zarcanum.blindedAssetId
        flags := (if isCoinbase tx then flagsCoinbase else 0) |||
          (if isCoinbase tx && isPosMinerTx tx then flagsPosCoinbase else 0) }
  | .inr (.inr _) => .error .refused

def mixAttrFits (mixAttr : UInt8) (mixCount : UInt64) (useOnlyForcedToMix : Bool) : Bool :=
  if mixAttr = currencyToKeyOutForcedNoMix then false
  else if useOnlyForcedToMix && mixAttr = currencyToKeyOutRelaxed then false
  else if mixAttr ≠ currencyToKeyOutRelaxed ∧ mixCount < mixAttr.toUInt64 then false
  else true

def buildRandomOutEntryFromTxEntry (s : BlockchainStorage) (txEntry : TransactionChainEntry)
    (outNo : ℕ) (amount : UInt64) (gIndex : ℕ) (mixCount : UInt64) (useOnlyForcedToMix : Bool)
    (heightUpperLimit : UInt64) : Except Failure OutEntry :=
  match txEntry.tx.vout[outNo]? with
  | none => .error .refused
  | some outV =>
      if heightUpperLimit ≠ 0 ∧ heightUpperLimit.toNat < txEntry.keeperBlockHeight then
        .error .refused
      else if txEntry.spentFlags.length ≠ txEntry.tx.vout.length then .error .refused
      else if txEntry.spentFlags[outNo]? = some true then .error .refused
      else do
        let unlockTime ← getTxUnlockTime txEntry.tx outNo
        if !isTxSpendtimeUnlocked unlockTime (UInt64.ofNat s.currentBlockchainSize) s.coreTime then
          .error .refused
        else do
          let burned ← isOutBurned outV
          if burned then .error .refused
          else
            match getMixAttrFromTxOutV outV with
            | none => .error .refused
            | some mixAttr =>
                if mixAttrFits mixAttr mixCount useOnlyForcedToMix then
                  outEntryOf txEntry.tx amount gIndex outV
                else .error .refused

/-- `add_out_to_get_random_outs` for one index, which is to be below the number of
outputs of the amount. -/
def buildRandomOutEntry (s : BlockchainStorage) (amount : UInt64) (gIndex : ℕ) (mixCount : UInt64)
    (useOnlyForcedToMix : Bool)
    (heightUpperLimit : UInt64) : Except Failure OutEntry :=
  match (s.dbOutputs amount)[gIndex]? with
  | none => .error .exception
  | some out =>
      match s.dbTransactions out.txId with
      | none => .error .refused
      | some txEntry =>
          buildRandomOutEntryFromTxEntry s txEntry out.outNo amount gIndex mixCount
            useOnlyForcedToMix heightUpperLimit

section Failing

variable {ε : Type*} {α β : Type}

theorem bind_eq_ok {x : Except ε α} {f : α → Except ε β} {b : β} :
    (x >>= f) = .ok b ↔ ∃ a, x = .ok a ∧ f a = .ok b := by
  cases x with
  | error e => simp [bind, Except.bind]
  | ok a => simp [bind, Except.bind]

theorem ite_error_eq_ok {p : Prop} [Decidable p] {e : ε} {x : Except ε α} {a : α} :
    (if p then .error e else x) = .ok a ↔ ¬p ∧ x = .ok a := by
  split <;> simp [*]

end Failing

theorem outEntryOf_index {tx : TransactionPrefix} {amount : UInt64} {gIndex : ℕ} {outV : TxOutV}
    {oen : OutEntry} (made : outEntryOf tx amount gIndex outV = .ok oen) :
    oen.globalAmountIndex = gIndex := by
  rcases outV with bare | zarcanum | gateway
  · rw [outEntryOf] at made
    split at made
    · cases made
    · split at made <;> cases made
      rfl
  · rw [outEntryOf] at made
    split at made <;> cases made
    rfl
  · cases made

/-- An entry that is made names the output that it is made of. -/
theorem buildRandomOutEntryFromTxEntry_index {s : BlockchainStorage}
    {txEntry : TransactionChainEntry} {outNo gIndex : ℕ} {amount mixCount heightUpperLimit : UInt64}
    {useOnlyForcedToMix : Bool} {oen : OutEntry} (made : buildRandomOutEntryFromTxEntry s txEntry
      outNo amount gIndex mixCount useOnlyForcedToMix heightUpperLimit = .ok oen) :
    oen.globalAmountIndex = gIndex := by
  unfold buildRandomOutEntryFromTxEntry at made
  split at made
  · cases made
  · simp only [ite_error_eq_ok, bind_eq_ok] at made
    obtain ⟨-, -, -, unlockTime, -, -, burned, -, -, fits⟩ := made
    split at fits
    · cases fits
    · split at fits
      · exact outEntryOf_index fits
      · cases fits

end Zano.Decoys
