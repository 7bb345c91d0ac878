import Mathlib
import Zano.Addresses.VarintSize
import Zano.Transactions.MultisigChecking

/-! # The size of an old transaction

Before the sixth hardfork the size of a transaction is not that of its blob. It is added up from the
prefix and from what the inputs and the attachment info say about the signatures and the
attachments, so that it stays the same when these are pruned.

The attachment info is that of the last input in separate mode, and otherwise, or when there is
none, that of the extra items. The node checks the first and not the second in separate mode. So an
info that nothing stands behind is counted in.
-/

namespace Zano.BlobSize

open Serialization SeparateSigning
open Addresses
  (getVarintPackedSize getVarintPackedSize_eq getVarintPackedSize_le writeVarint_length_large)
open Decoys (isCoinbase)
open Multisig (isLastSeparate validateAttachmentInfo)

def zanoHardfork06 : UInt8 := 6

def transactionVersionPreHf4 : UInt64 := 1

/-! ## The size that is added up -/

def getInputExpectedSignatureSizeLocal (txIn : TxinV)
    (lastInputInSeparatelySignedTx : Bool) : UInt64 :=
  let a : UInt64 := if lastInputInSeparatelySignedTx then 1 else 0
  let signatures (count : UInt64) := UInt64.ofNat (getVarintPackedSize count) + 64 * count
  match txIn with
  | .inl _ => 0
  | .inr (.inl txin) => signatures (UInt64.ofNat txin.keyOffsets.length + a)
  | .inr (.inr (.inl txin)) => signatures (txin.sigsCount.toUInt64 + a)
  | .inr (.inr (.inr (.inl _))) => 68
  | .inr (.inr (.inr (.inr txin))) =>
      let count := UInt64.ofNat txin.keyOffsets.length
      96 + UInt64.ofNat (getVarintPackedSize count) + count * 32

/-- The info that the size of the attachments is taken from. -/
def attachmentInfo (tx : Transaction) : Option ExtraAttachmentInfo :=
  (if isSeparate tx then tx.vin.getLast?.bind attachmentInfoOf
    else none).or (attachmentInfoOfExtra tx.extra)

/-- Nothing is the exception. -/
def getObjectBlobsizeLegacy (tx : Transaction) (prefixBlobSize : UInt64) : Option UInt64 :=
  if ¬tx.hardforkId < zanoHardfork06 then none
  else if isCoinbase tx.toTransactionPrefix then some prefixBlobSize
  else
    let inputs := UInt64.ofNat tx.vin.length
    -- from the fourth hardfork on the signatures are variants with a tag each
    let tags := if transactionVersionPreHf4 < tx.version then inputs else 0
    let signatures := (tx.vin.zipIdx.map fun (txIn, i) =>
      getInputExpectedSignatureSizeLocal txIn (isLastSeparate tx i)).sum
    let attachments :=
      match attachmentInfo tx with
      | some eai => eai.sz
      | none => UInt64.ofNat (getVarintPackedSize 0)
    some (prefixBlobSize + UInt64.ofNat (getVarintPackedSize inputs) + tags + signatures +
      attachments)

def txToBlob (tx : Transaction) : Bytes := (transaction.write tx).1

def getObjectBlobsize (tx : Transaction) : Option UInt64 :=
  if tx.hardforkId < zanoHardfork06 then
    getObjectBlobsizeLegacy tx
      (UInt64.ofNat (transactionPrefix.write tx.toTransactionPrefix).1.length)
  else some (UInt64.ofNat (txToBlob tx).length)

/-- What `prune_ring_signatures_and_attachments` leaves of a transaction. -/
def pruned (tx : Transaction) : Transaction := { tx with signatures := [], attachment := [] }

/-- `get_objects_blobsize` -/
def getObjectsBlobsize (txs : List Transaction) : Option UInt64 :=
  (txs.mapM getObjectBlobsize).map List.sum

/-! ## Signatures and attachments as they have to be -/

def isToKeyOrMultisig : TxinV → Bool
  | .inr (.inl _) => true
  | .inr (.inr (.inl _)) => true
  | _ => false

def requiredSignatures (txIn : TxinV) (last : Bool) : ℕ :=
  let a := if last then 1 else 0
  match txIn with
  | .inr (.inl txin) => txin.keyOffsets.length + a
  | .inr (.inr (.inl txin)) => txin.sigsCount.toNat + a
  | _ => 0

def requiredCounts (tx : Transaction) : List ℕ :=
  tx.vin.zipIdx.map fun (txIn, i) => requiredSignatures txIn (isLastSeparate tx i)

def SignedAsRequired (tx : Transaction) : Prop :=
  tx.signatures.map (fun sig => sig.nlsag?.map List.length) = (requiredCounts tx).map some

/-- The info that is checked with the inputs. -/
def checkedInfo (tx : Transaction) : Option ExtraAttachmentInfo :=
  if isSeparate tx then tx.vin.getLast?.bind attachmentInfoOf else attachmentInfoOfExtra tx.extra

/-- By the info that is checked, or by the one that the size is taken from. -/
def AttachmentsCovered (cnFastHash : Bytes → Hash) (tx : Transaction) : Prop :=
  validateAttachmentInfo cnFastHash (checkedInfo tx) tx.attachment false = true ∨
    validateAttachmentInfo cnFastHash (attachmentInfo tx) tx.attachment false = true

/-- A transaction of the first two versions with inputs of the first two kinds. -/
structure Old (cnFastHash : Bytes → Hash) (tx : Transaction) : Prop where
  version : tx.version ≤ transactionVersionPreHf4
  hardforkId : tx.hardforkId < zanoHardfork06
  notCoinbase : isCoinbase tx.toTransactionPrefix = false
  inputs : ∀ txIn ∈ tx.vin, isToKeyOrMultisig txIn = true
  signed : SignedAsRequired tx
  covered : AttachmentsCovered cnFastHash tx
  written : (transaction.write tx).2 = true

/-- An info where there is no attachment. An empty list of attachments takes one byte. -/
def StrayInfo (tx : Transaction) : Prop :=
  tx.attachment = [] ∧ ∃ eai, attachmentInfo tx = some eai ∧ eai.sz ≠ 1

/-- The numbers that `get_varint_packed_size` has the right size for. -/
def Countable (tx : Transaction) : Prop :=
  tx.vin.length < 2 ^ 56 ∧ ∀ count ∈ requiredCounts tx, count < 2 ^ 56

/-- The size is that of the blob, before and after pruning. -/
def SizeKept (tx : Transaction) : Prop :=
  (getObjectBlobsize tx).map UInt64.toNat = some (txToBlob tx).length ∧
    getObjectBlobsize (pruned tx) = getObjectBlobsize tx

variable {cnFastHash : Bytes → Hash} {tx : Transaction}

/-! ## Pruning -/

theorem getObjectBlobsize_pruned (hardforkId : tx.hardforkId < zanoHardfork06) :
    getObjectBlobsize (pruned tx) = getObjectBlobsize tx := by
  have same : (pruned tx).hardforkId < zanoHardfork06 := hardforkId
  rw [getObjectBlobsize, getObjectBlobsize, if_pos same, if_pos hardforkId]
  rfl

/-- The sizes of blocks agree, too. -/
theorem getObjectsBlobsize_pruned {txs : List Transaction}
    (hardforkId : ∀ tx ∈ txs, tx.hardforkId < zanoHardfork06) :
    getObjectsBlobsize (txs.map pruned) = getObjectsBlobsize txs := by
  have each : (txs.map pruned).mapM getObjectBlobsize = txs.mapM getObjectBlobsize := by
    induction txs with
    | nil => rfl
    | cons tx txs inductionHypothesis =>
        obtain ⟨here, later⟩ := List.forall_mem_cons.mp hardforkId
        simp [getObjectBlobsize_pruned here, inductionHypothesis later]
  rw [getObjectsBlobsize, each, getObjectsBlobsize]

/-! ## The blob -/

def varintLength (count : ℕ) : ℕ := (writeVarint 9 count).length

def signatureBytes (count : ℕ) : ℕ := varintLength count + 64 * count

theorem length_writeAll {α : Type*} {c : Codec α} {vs : List α} (ended : (c.writeAll vs).2 = true) :
    (c.writeAll vs).1.length = (vs.map fun v => (c.write v).1.length).sum := by
  induction vs with
  | nil => rfl
  | cons v vs inductionHypothesis =>
      rw [Codec.writeAll, andThen_ended, Bool.and_eq_true] at ended
      simp [Codec.writeAll, andThen, ended.1, inductionHypothesis ended.2]

theorem length_vector {α : Type*} {c : Codec α} [c.Marked] {vs : List α}
    (ended : ∀ v ∈ vs, (c.write v).2 = true) :
    ((vector c).write vs).1.length =
      varintLength vs.length + (vs.map fun v => (c.write v).1.length).sum := by
  have all : (c.writeAll vs).2 = true := by simpa [Codec.writeAll_ended] using ended
  have first : (size.write vs.length).2 = true := rfl
  simp only [Codec.vector, andThen, first, if_true, List.length_append, length_writeAll all]
  rfl

theorem length_signatures (sigs : List (List Signature)) :
    ((vector (vector (blob 64))).write sigs).1.length =
      varintLength sigs.length + ((sigs.map List.length).map signatureBytes).sum := by
  have inner (sig : List Signature) :
      ((vector (blob 64)).write sig).1.length = signatureBytes sig.length := by
    have each : ∀ s : Signature, ((blob 64).write s).1.length = 64 := fun s => s.length_eq
    have whole := @length_vector _ (blob 64) _ sig fun _ _ => rfl
    simp only [each, List.map_const', List.sum_replicate, smul_eq_mul] at whole
    rw [whole, signatureBytes, Nat.mul_comm]
  have ended : ∀ sig ∈ sigs, ((vector (blob 64)).write sig).2 = true := by
    intro sig _
    simp [Codec.vector_ended, size, varint, blob]
  rw [length_vector ended, List.map_map]
  exact congrArg (fun lengths => varintLength sigs.length + List.sum lengths)
    (List.map_congr_left fun sig _ => inner sig)

/-- As many signatures as required are those of ring signatures. -/
theorem signatures_of_counts {signatures : List SignatureV} {counts : List ℕ}
    (signed : signatures.map (fun sig => sig.nlsag?.map List.length) = counts.map some) :
    ∃ sigs, signatures.mapM SignatureV.nlsag? = some sigs ∧ sigs.map List.length = counts := by
  induction signatures generalizing counts with
  | nil =>
      cases counts with
      | nil => exact ⟨[], rfl, rfl⟩
      | cons count counts => cases signed
  | cons signature signatures inductionHypothesis =>
      cases counts with
      | nil => cases signed
      | cons count counts =>
          obtain ⟨here, later⟩ := List.cons.inj signed
          obtain ⟨sigs, areSigs, lengths⟩ := inductionHypothesis later
          obtain ⟨sig, isSig, length⟩ := Option.map_eq_some_iff.mp here
          refine ⟨sig :: sigs, ?_, ?_⟩
          · simp [isSig, areSigs]
          · rw [List.map_cons, length, lengths]

def attachmentBytes (tx : Transaction) : ℕ := ((vector payloadItemsV).write tx.attachment).1.length

def prefixBytes (tx : Transaction) : ℕ := (transactionPrefix.write tx.toTransactionPrefix).1.length

theorem length_txToBlob (old : Old cnFastHash tx) :
    (txToBlob tx).length = prefixBytes tx +
      (varintLength tx.vin.length + ((requiredCounts tx).map signatureBytes).sum +
        attachmentBytes tx) ∧
      ((vector payloadItemsV).write tx.attachment).2 = true := by
  obtain ⟨sigs, areSigs, lengths⟩ := signatures_of_counts old.signed
  have first : tx.version < 2 := by
    have version := old.version
    simp only [transactionVersionPreHf4, UInt64.le_iff_toNat_le,
      UInt64.lt_iff_toNat_lt] at version ⊢
    simp at version ⊢
    omega
  have count : sigs.length = tx.vin.length := by
    have same := congrArg List.length lengths
    simpa [requiredCounts] using same
  have tail : (transactionTail tx.version).write (tx.attachment, tx.signatures, tx.proofs) =
      andThen ((vector (vector (blob 64))).write sigs)
        ((vector payloadItemsV).write tx.attachment) := by
    have isV1 :
        tailToV1 (tx.attachment, tx.signatures, tx.proofs) = some (sigs, tx.attachment) := by
      simp [tailToV1, areSigs]
    simp only [transactionTail, if_pos first, Codec.convert, isV1]
    rfl
  have whole : transaction.write tx = andThen (transactionPrefix.write tx.toTransactionPrefix)
      (andThen ((vector (vector (blob 64))).write sigs)
        ((vector payloadItemsV).write tx.attachment)) := by
    rw [← tail]
    rfl
  have written := old.written
  rw [whole, andThen_ended, andThen_ended, Bool.and_eq_true, Bool.and_eq_true] at written
  obtain ⟨isPrefix, areSignatures, isAttachment⟩ := written
  refine ⟨?_, isAttachment⟩
  simp only [txToBlob, whole, andThen, isPrefix, areSignatures, if_true, List.length_append,
    length_signatures, lengths, count, prefixBytes, attachmentBytes]

/-! ## The sum -/

def packedSize (count : ℕ) : ℕ := getVarintPackedSize (UInt64.ofNat count)

def expectedBytes (count : ℕ) : ℕ := packedSize count + 64 * count

theorem sum_ofNat {α : Type*} (f : α → ℕ) (vs : List α) :
    (vs.map fun v => UInt64.ofNat (f v)).sum = UInt64.ofNat (vs.map f).sum := by
  induction vs with
  | nil => rfl
  | cons v vs inductionHypothesis => simp [inductionHypothesis, UInt64.ofNat_add]

theorem expectedBytes_ofNat (count : ℕ) : UInt64.ofNat (expectedBytes count) =
    UInt64.ofNat (getVarintPackedSize (UInt64.ofNat count)) + 64 * UInt64.ofNat count := by
  rw [expectedBytes, UInt64.ofNat_add, UInt64.ofNat_mul]
  rfl

theorem expectedSignatureSize {txIn : TxinV} (kind : isToKeyOrMultisig txIn = true) (last : Bool) :
    getInputExpectedSignatureSizeLocal txIn last =
      UInt64.ofNat (expectedBytes (requiredSignatures txIn last)) := by
  have one : (if last then 1 else 0 : UInt64) = UInt64.ofNat (if last then 1 else 0) := by
    cases last <;> rfl
  obtain gen | toKey | multisig | gateway | zcInput := txIn
  · cases kind
  · simp only [getInputExpectedSignatureSizeLocal, requiredSignatures, expectedBytes_ofNat,
      UInt64.ofNat_add, one]
  · have count : multisig.sigsCount.toUInt64 = UInt64.ofNat multisig.sigsCount.toNat := by simp
    simp only [getInputExpectedSignatureSizeLocal, requiredSignatures, expectedBytes_ofNat,
      UInt64.ofNat_add, one, count]
  · cases kind
  · cases kind

def attachmentsSize (tx : Transaction) : UInt64 :=
  match attachmentInfo tx with
  | some eai => eai.sz
  | none => 1

theorem getObjectBlobsize_old (old : Old cnFastHash tx) :
    getObjectBlobsize tx = some (UInt64.ofNat (prefixBytes tx +
      (packedSize tx.vin.length + ((requiredCounts tx).map expectedBytes).sum)) +
        attachmentsSize tx) := by
  have noTags : ¬transactionVersionPreHf4 < tx.version := UInt64.not_lt.mpr old.version
  have signatures : (tx.vin.zipIdx.map fun (txIn, i) =>
      getInputExpectedSignatureSizeLocal txIn (isLastSeparate tx i)).sum =
        UInt64.ofNat ((requiredCounts tx).map expectedBytes).sum := by
    rw [requiredCounts, List.map_map, ← sum_ofNat]
    apply congrArg List.sum
    apply List.map_congr_left
    intro ⟨txIn, i⟩ inside
    exact expectedSignatureSize (old.inputs txIn (List.fst_mem_of_mem_zipIdx inside)) _
  rw [getObjectBlobsize, if_pos old.hardforkId, getObjectBlobsizeLegacy,
    if_neg (not_not.mpr old.hardforkId), old.notCoinbase, if_neg Bool.false_ne_true]
  simp only [signatures, if_neg noTags, UInt64.add_zero, UInt64.ofNat_add, UInt64.add_assoc]
  rfl

/-! ## Sizes of numbers -/

theorem packedSize_le {count : ℕ} (isCount : count < 2 ^ 64) :
    packedSize count ≤ varintLength count ∧
      (packedSize count = varintLength count ↔ count < 2 ^ 56) := by
  have value : (UInt64.ofNat count).toNat = count := by
    rw [UInt64.toNat_ofNat']
    exact Nat.mod_eq_of_lt isCount
  rcases Nat.lt_or_ge count (2 ^ 56) with small | large
  · have same := @getVarintPackedSize_eq (UInt64.ofNat count) (by rwa [value])
    rw [value] at same
    exact ⟨same.le, iff_of_true same small⟩
  · have written := @writeVarint_length_large (UInt64.ofNat count) (by rwa [value])
    have declared := getVarintPackedSize_le (UInt64.ofNat count)
    rw [value] at written
    have less : packedSize count < varintLength count := Nat.lt_of_le_of_lt declared written
    exact ⟨less.le, iff_of_false less.ne (Nat.not_lt.mpr large)⟩

theorem sum_expectedBytes_le {counts : List ℕ} (areCounts : ∀ count ∈ counts, count < 2 ^ 64) :
    (counts.map expectedBytes).sum ≤ (counts.map signatureBytes).sum ∧
      ((counts.map expectedBytes).sum = (counts.map signatureBytes).sum ↔
        ∀ count ∈ counts, count < 2 ^ 56) := by
  induction counts with
  | nil => simp
  | cons count counts inductionHypothesis =>
      obtain ⟨here, later⟩ := List.forall_mem_cons.mp areCounts
      obtain ⟨first, firstSame⟩ := packedSize_le here
      obtain ⟨others, othersSame⟩ := inductionHypothesis later
      simp only [List.map_cons, List.sum_cons, List.forall_mem_cons, ← othersSame, ← firstSame,
        expectedBytes, signatureBytes]
      omega

/-- No number is larger than the bytes that are counted with it. -/
theorem counts_le_bytes (tx : Transaction) :
    tx.vin.length ≤ ((requiredCounts tx).map signatureBytes).sum ∧
      ∀ count ∈ requiredCounts tx, count ≤ ((requiredCounts tx).map signatureBytes).sum := by
  constructor
  · have each : ∀ bytes ∈ (requiredCounts tx).map signatureBytes, 1 ≤ bytes := by
      simp only [List.mem_map, forall_exists_index, and_imp, forall_apply_eq_imp_iff₂,
        signatureBytes]
      intro count _
      have first := List.length_pos_iff.mpr (writeVarint_ne_nil 9 count)
      exact Nat.le_add_right_of_le first
    have total := List.length_le_sum_of_one_le _ each
    simpa [requiredCounts] using total
  · intro count inside
    have atMost := List.le_sum_of_mem (List.mem_map_of_mem (f := signatureBytes) inside)
    have own : count ≤ signatureBytes count := by
      rw [signatureBytes]
      omega
    exact own.trans atMost

/-! ## Attachments -/

/-- What an accepted info says. -/
theorem info_of_validated {container : Option ExtraAttachmentInfo}
    {attachments : List PayloadItemsV}
    (written : ((vector payloadItemsV).write attachments).2 = true) (notEmpty : attachments ≠ [])
    (validated : validateAttachmentInfo cnFastHash container attachments false = true) :
    ∃ eai, container = some eai ∧
      eai.sz = UInt64.ofNat ((vector payloadItemsV).write attachments).1.length := by
  have isEmpty : attachments.isEmpty = false := by simpa using notEmpty
  cases container with
  | none => simp [validateAttachmentInfo, isEmpty] at validated
  | some eai =>
      refine ⟨eai, rfl, ?_⟩
      simp only [validateAttachmentInfo, Option.isNone_some, Bool.false_and,
        Bool.false_eq_true, if_false, Option.isSome_some, isEmpty, Option.getD_some, false_and,
        not_false_eq_true, true_and] at validated
      by_cases all : eai.cnt.toNat = attachments.length
      · simp [all, attachmentExtraInfoDetails, isEmpty, written] at validated
        exact validated.2.2
      · simp [all] at validated

/-- The info that is checked is the one that the size is taken from, if there is any. -/
theorem attachmentInfo_of_checkedInfo {eai : ExtraAttachmentInfo}
    (checked : checkedInfo tx = some eai) :
    attachmentInfo tx = some eai := by
  rw [checkedInfo] at checked
  rw [attachmentInfo]
  split_ifs at checked ⊢ with separate
  · simp [checked]
  · simpa using checked

theorem attachmentsSize_eq_iff (covered : AttachmentsCovered cnFastHash tx)
    (written : ((vector payloadItemsV).write tx.attachment).2 = true) :
    attachmentsSize tx = UInt64.ofNat (attachmentBytes tx) ↔ ¬StrayInfo tx := by
  by_cases isEmpty : tx.attachment = []
  · have one : attachmentBytes tx = 1 := by
      rw [attachmentBytes, isEmpty]
      rfl
    rw [attachmentsSize, one, StrayInfo]
    cases attachmentInfo tx with
    | none => simp
    | some eai => simp [isEmpty]
  · have notStray : ¬StrayInfo tx := fun stray => isEmpty stray.1
    have found :
        ∃ eai, attachmentInfo tx = some eai ∧ eai.sz = UInt64.ofNat (attachmentBytes tx) := by
      cases covered with
      | inl validated =>
          obtain ⟨eai, checked, size⟩ := info_of_validated written isEmpty validated
          exact ⟨eai, attachmentInfo_of_checkedInfo checked, size⟩
      | inr validated => exact info_of_validated written isEmpty validated
    obtain ⟨eai, isInfo, size⟩ := found
    exact iff_of_true (by simp only [attachmentsSize, isInfo, size]) notStray

/-! ## The size of the blob -/

theorem toNat_eq_iff {size : UInt64} {length : ℕ} (isLength : length < 2 ^ 64) :
    size.toNat = length ↔ size = UInt64.ofNat length := by
  rw [← UInt64.toNat_inj, UInt64.toNat_ofNat', Nat.mod_eq_of_lt isLength]

theorem countable_of_length (old : Old cnFastHash tx) {limit : ℕ}
    (isLength : (txToBlob tx).length < limit) :
    tx.vin.length < limit ∧ ∀ count ∈ requiredCounts tx, count < limit := by
  obtain ⟨inputs, counts⟩ := counts_le_bytes tx
  rw [(length_txToBlob old).1] at isLength
  refine ⟨by omega, fun count inside => ?_⟩
  have atMost := counts count inside
  omega

/-- The expected sizes are at most those of the blob, and equal to them when every number
has the right size. -/
theorem expected_le_written (old : Old cnFastHash tx) (isLength : (txToBlob tx).length < 2 ^ 64) :
    packedSize tx.vin.length + ((requiredCounts tx).map expectedBytes).sum ≤
        varintLength tx.vin.length + ((requiredCounts tx).map signatureBytes).sum ∧
      (packedSize tx.vin.length + ((requiredCounts tx).map expectedBytes).sum =
        varintLength tx.vin.length + ((requiredCounts tx).map signatureBytes).sum ↔
          Countable tx) := by
  obtain ⟨inputs, counts⟩ := countable_of_length old isLength
  obtain ⟨first, firstSame⟩ := packedSize_le inputs
  obtain ⟨others, othersSame⟩ := sum_expectedBytes_le counts
  rw [Countable, ← firstSame, ← othersSame]
  omega

theorem sizeKept_iff_length (old : Old cnFastHash tx) :
    SizeKept tx ↔ (getObjectBlobsize tx).map UInt64.toNat = some (txToBlob tx).length :=
  and_iff_left (getObjectBlobsize_pruned old.hardforkId)

/-- Where no number is too large, the attachments decide. -/
theorem sizeKept_iff_attachments (old : Old cnFastHash tx)
    (isLength : (txToBlob tx).length < 2 ^ 64) (countable : Countable tx) :
    SizeKept tx ↔ ¬StrayInfo tx := by
  obtain ⟨length, written⟩ := length_txToBlob old
  have same := (expected_le_written old isLength).2.mpr countable
  have regrouped : (txToBlob tx).length = prefixBytes tx +
      (packedSize tx.vin.length + ((requiredCounts tx).map expectedBytes).sum) +
        attachmentBytes tx := by omega
  rw [sizeKept_iff_length old, ← attachmentsSize_eq_iff old.covered written,
    getObjectBlobsize_old old, Option.map_some, Option.some_inj, toNat_eq_iff isLength, regrouped]
  simp only [UInt64.ofNat_add]
  exact UInt64.add_right_inj _

/-- Where no info is stray, the numbers decide. -/
theorem sizeKept_iff_countable (old : Old cnFastHash tx) (notStray : ¬StrayInfo tx) :
    SizeKept tx ↔ (txToBlob tx).length < 2 ^ 64 ∧ Countable tx := by
  constructor
  · intro kept
    have size := (sizeKept_iff_length old).mp kept
    rw [getObjectBlobsize_old old, Option.map_some, Option.some_inj] at size
    have isLength : (txToBlob tx).length < 2 ^ 64 := by
      rw [← size]
      exact UInt64.toNat_lt _
    obtain ⟨length, written⟩ := length_txToBlob old
    obtain ⟨atMost, same⟩ := expected_le_written old isLength
    rw [(attachmentsSize_eq_iff old.covered written).mpr notStray, ← UInt64.ofNat_add,
      UInt64.toNat_ofNat', Nat.mod_eq_of_lt (by omega)] at size
    exact ⟨isLength, same.mp (by omega)⟩
  · intro ⟨isLength, countable⟩
    exact (sizeKept_iff_attachments old isLength countable).mpr notStray

/-- The size is that of the blob unless an attachment info is counted in that nothing stands
behind. Such a transaction is accepted. The numbers of a blob that is not of an impossible length
have the right sizes. -/
theorem sizeKept_iff (old : Old cnFastHash tx) {txs : List Transaction}
    (block : ∀ other ∈ txs, Old cnFastHash other) :
    getObjectsBlobsize (txs.map pruned) = getObjectsBlobsize txs ∧
      ((txToBlob tx).length < 2 ^ 56 → (SizeKept tx ↔ ¬StrayInfo tx)) ∧
      (¬StrayInfo tx → (SizeKept tx ↔ (txToBlob tx).length < 2 ^ 64 ∧ Countable tx)) := by
  refine ⟨getObjectsBlobsize_pruned fun other inside => (block other inside).hardforkId, ?_, ?_⟩
  · intro isLength
    exact sizeKept_iff_attachments old (by omega) (countable_of_length old isLength)
  · exact sizeKept_iff_countable old

/-! ## One input in separate mode -/

def oneInput (extra : List PayloadItemsV) : Transaction where
  version := 1
  hardforkId := 0
  vin := [.inr (.inl ⟨5, [.inl 0], Blob.filled 32 7, [.inl ⟨0, UInt32.ofNat extra.length⟩]⟩)]
  extra := extra
  vout := []
  attachment := []
  signatures := [.inl ⟨[Blob.filled 64 1, Blob.filled 64 2]⟩]
  proofs := []

def separateFlag : PayloadItemsV :=
  .inr (.inr (.inr (.inr (.inr (.inr (.inr (.inr (.inr (.inr (.inl ⟨1⟩))))))))))

/-- What `get_attachment_extra_info_details` gives for no attachments. -/
def emptyInfo : PayloadItemsV :=
  .inr (.inr
    (.inr (.inr (.inr (.inr (.inr (.inr (.inr (.inr (.inr (.inr (.inl ⟨0, nullHash, 0⟩))))))))))))

/-- With a comment, and the info that there is one attachment, of five bytes in its list. -/
def withComment : Transaction :=
  let info : PayloadItemsV :=
    .inr (.inr
      (.inr (.inr (.inr (.inr (.inr (.inr (.inr (.inr (.inr (.inr (.inl ⟨5, nullHash, 1⟩))))))))))))
  { oneInput [separateFlag, info] with attachment := [.inr (.inl ⟨[104, 105]⟩)] }

theorem sizeKept_iff_comment : SizeKept withComment ↔ ¬StrayInfo withComment := by
  have old : Old (fun _ => nullHash) withComment :=
    ⟨by decide, by decide, rfl, by decide, rfl, .inr rfl, by decide⟩
  have length : (txToBlob withComment).length = 224 := by rfl
  have covered := @sizeKept_iff _ _ old [withComment] (by simpa using old)
  exact covered.2.1 (by omega)

/-- The info is taken for the size of the attachments, so that the byte of their
number is missing. -/
theorem empty_list_without_size : Old (fun _ => nullHash) (oneInput [separateFlag, emptyInfo]) ∧
    (getObjectBlobsize (oneInput [separateFlag, emptyInfo])).map UInt64.toNat = some 219 ∧
    (txToBlob (oneInput [separateFlag, emptyInfo])).length = 220 ∧
      ¬SizeKept (oneInput [separateFlag, emptyInfo]) := by
  have old : Old (fun _ => nullHash) (oneInput [separateFlag, emptyInfo]) :=
    ⟨by decide, by decide, rfl, by decide, rfl, .inl rfl, by decide⟩
  have size :
      (getObjectBlobsize (oneInput [separateFlag, emptyInfo])).map UInt64.toNat = some 219 := by rfl
  have length : (txToBlob (oneInput [separateFlag, emptyInfo])).length = 220 := by rfl
  refine ⟨old, size, length, fun kept => ?_⟩
  have same := size.symm.trans kept.1
  rw [length] at same
  cases same

end Zano.BlobSize
