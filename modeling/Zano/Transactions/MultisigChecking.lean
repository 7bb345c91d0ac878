import Mathlib
import Zano.Decoys.Outputs
import Zano.Lib.Matching
import Zano.Transactions.SeparateSigning

/-! # Checking a multisig input

An input that spends a multisig output brings as many signatures as the output asks for. They stand
in the order of the keys of the output, and the check goes through both once. The last input of a
transaction in separate mode brings one signature more, by the key of the transaction.
-/

namespace Zano.Multisig

open Decoys (Failure getTxUnlockTime isTxSpendtimeUnlocked)
open Lib Serialization SeparateSigning

abbrev SecretKey := Scalar

abbrev KeyDerivation := Blob 32

def nullSig : Signature := Blob.filled 64 0

/-- What is used of `crypto`. A signature is made with a random scalar. -/
structure Crypto where
  cnFastHash : Bytes → Hash
  generateKeyDerivation : PublicKey → SecretKey → Option KeyDerivation
  derivePublicKey : KeyDerivation → ℕ → PublicKey → Option PublicKey
  deriveSecretKey : KeyDerivation → ℕ → SecretKey → SecretKey
  generateSignature : Scalar → Hash → PublicKey → SecretKey → Signature
  checkSignature : Hash → PublicKey → Signature → Bool

/-- What the check reads of the blockchain. -/
structure BlockchainStorage where
  currentBlockchainSize : UInt64
  coreTime : UInt64
  isInCheckpointZone : Bool

def getTxPubKeyFromExtra (tx : TransactionPrefix) : PublicKey :=
  (getTypeInVariantContainer PayloadItemsV.publicKey tx.extra).getD nullPkey

/-- `container` is told by the first `extra_attachment_info` in it. -/
def validateAttachmentInfo (cnFastHash : Bytes → Hash) (container : Option ExtraAttachmentInfo)
    (attachments : List PayloadItemsV)
    (allowNoInfoForNonEmptyAttachmentsContainer : Bool) : Bool :=
  if container.isNone && allowNoInfoForNonEmptyAttachmentsContainer then true
  else if container.isSome = attachments.isEmpty then false
  else
    let eai := container.getD ⟨0, nullHash, 0⟩
    if allowNoInfoForNonEmptyAttachmentsContainer ∧ attachments.length < eai.cnt.toNat then false
    else if ¬allowNoInfoForNonEmptyAttachmentsContainer ∧
      eai.cnt.toNat ≠ attachments.length then false
    else
      let eaiLocal := attachmentExtraInfoDetails cnFastHash (attachments.take eai.cnt.toNat)
      eai.cnt = eaiLocal.cnt ∧ eai.hsh = eaiLocal.hsh ∧ eai.sz = eaiLocal.sz

/-- The last input of a transaction in separate mode. -/
def isLastSeparate (tx : Transaction) (inIndex : ℕ) : Prop :=
  isSeparate tx ∧ inIndex + 1 = tx.vin.length

instance (tx : Transaction) (inIndex : ℕ) : Decidable (isLastSeparate tx inIndex) := by
  unfold isLastSeparate
  infer_instance

def checkMsAttachmentInfo (cnFastHash : Bytes → Hash) (tx : Transaction) (inIndex : ℕ)
    (txin : TxinMultisig) : Bool :=
  let eai := getTypeInVariantContainer Sum.getRight? txin.etcDetails
  if isSeparate tx then
    validateAttachmentInfo cnFastHash eai tx.attachment (inIndex + 1 ≠ tx.vin.length)
      else eai.isNone

/-- The signatures of one input, each of which is taken for the next key that it verifies under. -/
def checkMsSignatures (crypto : Crypto) (tx : Transaction) (inIndex : ℕ) (txin : TxinMultisig)
    (txPrefixHash : Hash) (keys : List PublicKey) (inputSignatures : List Signature) : Bool :=
  let expectedSignaturesCount := txin.sigsCount.toNat + if isLastSeparate tx inIndex then 1 else 0
  if expectedSignaturesCount ≠ inputSignatures.length then false
  else
    let txHashForSignature := preparePrefixHashForSign crypto.cnFastHash tx inIndex txPrefixHash
    if txHashForSignature = nullHash then false
    else if keys.length < txin.sigsCount.toNat then false
    else if !matchInOrder (crypto.checkSignature txHashForSignature) keys
      (inputSignatures.take txin.sigsCount.toNat) then false
    else if isLastSeparate tx inIndex then
      inputSignatures.getLast?.any
        (crypto.checkSignature txPrefixHash (getTxPubKeyFromExtra tx.toTransactionPrefix))
    else true

def checkMsInput (crypto : Crypto) (s : BlockchainStorage) (tx : Transaction) (inIndex : ℕ)
    (txin : TxinMultisig) (txPrefixHash : Hash) (sourceTx : TransactionPrefix) (outN : ℕ) :
    Except Failure Unit := do
  let unlockTime ← getTxUnlockTime sourceTx outN
  if !isTxSpendtimeUnlocked unlockTime s.currentBlockchainSize s.coreTime then .error .refused
  else
    match sourceTx.vout[outN]? with
    | some (.inl sourceTxOut) =>
        match sourceTxOut.target with
        | .inl _ => .error .exception
        | .inr sourceMsOutTarget =>
            if txin.sigsCount ≠ sourceMsOutTarget.minimumSigs then .error .refused
            else if sourceTxOut.amount ≠ txin.amount then .error .refused
            else if s.isInCheckpointZone then .ok ()
            else if !checkMsAttachmentInfo crypto.cnFastHash tx inIndex txin then .error .refused
            else
              match tx.signatures[inIndex]? with
              | some (.inl sig) =>
                  if checkMsSignatures crypto tx inIndex txin txPrefixHash sourceMsOutTarget.keys
                    sig.s then .ok ()
                  else .error .refused
              | _ => .error .refused
    | _ => .error .refused

/-! ## Which signatures are accepted -/

/-- The signatures belong to different keys, in the order of the keys. -/
def Assigned (crypto : Crypto) (txHashForSignature : Hash) (keys : List PublicKey)
    (signatures : List Signature) : Prop :=
  ∃ position : Fin signatures.length → Fin keys.length,
    StrictMono position ∧
      ∀ i, crypto.checkSignature txHashForSignature keys[position i] signatures[i] = true

/-- What is checked besides the signatures. -/
structure Spendable (crypto : Crypto) (s : BlockchainStorage) (tx : Transaction) (inIndex : ℕ)
    (txin : TxinMultisig)
    (sourceTx : TransactionPrefix) (outN : ℕ) (target : TxoutMultisig) : Prop where
  unlocked : ∃ unlockTime, getTxUnlockTime sourceTx outN = .ok unlockTime ∧
    isTxSpendtimeUnlocked unlockTime s.currentBlockchainSize s.coreTime = true
  output : sourceTx.vout[outN]? = some (.inl ⟨txin.amount, .inr target⟩)
  sigsCount : txin.sigsCount = target.minimumSigs
  attachmentInfo : checkMsAttachmentInfo crypto.cnFastHash tx inIndex txin = true

variable {crypto : Crypto} {s : BlockchainStorage} {tx : Transaction} {inIndex : ℕ}
  {txin : TxinMultisig} {txPrefixHash : Hash} {sourceTx : TransactionPrefix} {outN : ℕ}
  {target : TxoutMultisig}

theorem assigned_iff {txHashForSignature : Hash} {keys : List PublicKey}
    {signatures : List Signature} :
    Assigned crypto txHashForSignature keys signatures ↔
      matchInOrder (crypto.checkSignature txHashForSignature) keys signatures = true :=
  sublistForall₂_iff_strictMono.symm.trans matchInOrder_iff.symm

theorem Assigned.length_le {txHashForSignature : Hash} {keys : List PublicKey}
    {signatures : List Signature} (assigned : Assigned crypto txHashForSignature keys signatures) :
    signatures.length ≤ keys.length := by
  obtain ⟨position, increasing, -⟩ := assigned
  simpa using Fintype.card_le_of_injective position increasing.injective

theorem checkMsInput_eq (spendable : Spendable crypto s tx inIndex txin sourceTx outN target)
    (outside : s.isInCheckpointZone = false) :
    checkMsInput crypto s tx inIndex txin txPrefixHash sourceTx outN = .ok () ↔
      ∃ sig, tx.signatures[inIndex]? = some (.inl sig) ∧
        checkMsSignatures crypto tx inIndex txin txPrefixHash target.keys sig.s = true := by
  obtain ⟨⟨unlockTime, isTime, unlocked⟩, output, sigsCount, attachmentInfo⟩ := spendable
  rw [checkMsInput, isTime]
  simp only [bind, Except.bind, unlocked, output, sigsCount, outside, attachmentInfo, Bool.not_true,
    Bool.false_eq_true, if_false,
    ne_eq, not_true]
  cases tx.signatures[inIndex]? with
  | none => simp
  | some sig =>
      rcases sig with nlsag | other
      · simp
      · simp

/-- The signatures are accepted when there are enough of them and they can be given
to keys in order. -/
theorem checkMsSignatures_iff {keys : List PublicKey} {signatures : List Signature}
    (signs : preparePrefixHashForSign crypto.cnFastHash tx inIndex txPrefixHash ≠ nullHash) :
    checkMsSignatures crypto tx inIndex txin txPrefixHash keys signatures = true ↔
      signatures.length = txin.sigsCount.toNat + (if isLastSeparate tx inIndex then 1 else 0) ∧
      Assigned crypto (preparePrefixHashForSign crypto.cnFastHash tx inIndex txPrefixHash) keys
        (signatures.take txin.sigsCount.toNat) ∧
      (isLastSeparate tx inIndex → ∃ own, signatures.getLast? = some own ∧
        crypto.checkSignature txPrefixHash (getTxPubKeyFromExtra tx.toTransactionPrefix) own =
          true) := by
  rw [checkMsSignatures, assigned_iff]
  by_cases enough : txin.sigsCount.toNat + (if isLastSeparate tx inIndex then 1 else 0) =
    signatures.length
  · by_cases many : keys.length < txin.sigsCount.toNat
    · have notMatched : ¬ matchInOrder (crypto.checkSignature
          (preparePrefixHashForSign crypto.cnFastHash tx inIndex txPrefixHash)) keys
            (signatures.take txin.sigsCount.toNat) = true := by
        intro matched
        have short := (assigned_iff.mpr matched).length_le
        rw [List.length_take] at short
        omega
      simp only [enough, signs, many, notMatched, ne_eq, not_true, if_false, if_true]
      simp
    · simp only [enough, signs, many, ne_eq, not_true, if_false]
      split
      next notMatched =>
        rw [Bool.not_eq_true'] at notMatched
        simp [notMatched]
      next matched =>
        rw [Bool.not_eq_true', Bool.not_eq_false] at matched
        split
        next last => simp [matched, last, Option.any_eq_true]
        next notLast => simp [matched, notLast]
  · simp only [ne_eq, enough, not_false_eq_true, if_true, Bool.false_eq_true, false_iff]
    exact fun accepted => enough accepted.1.symm

end Zano.Multisig
