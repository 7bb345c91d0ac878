import Mathlib
import Zano.Lib.Losses
import Zano.Serialization.Spelling

/-! # What serialization loses

A transaction is written in the layout of its version. Where a layout has no place for a part of the
transaction the conversion throws, but not everywhere: the old layouts have no hardfork id and no
proofs, the old layout of an asset operation has no salt and always a commitment, and members of a
descriptor that came later are not written for an older version. A transaction that was written to
the end is read back exactly when there is nothing of this kind in it.
-/

namespace Zano.Serialization

open Codec

/-- What an old layout has no place for. -/
inductive Loss where
  | version
  | hardforkId
  | proofs
  | amountCommitment
  | assetIdSalt
  | ownerEthPubKey
  | etc
  deriving DecidableEq, Repr

/-- What a `size_t` can count. -/
def sizeLimit : ℕ := 2 ^ 64

/-! ## Basic types -/

instance : Counts sizeLimit size where
  dom := fun below => below

instance : Kept Loss sizeLimit varint8 where
  losses := fun _ => []
  losses_eq_nil_iff := fun {v} _ _ => iff_of_true rfl ⟨v.toNat, rfl, v.toNat_lt, UInt8.ofNat_toNat⟩

instance : Kept Loss sizeLimit varint32 where
  losses := fun _ => []
  losses_eq_nil_iff := fun {v} _ _ => iff_of_true rfl ⟨v.toNat, rfl, v.toNat_lt, UInt32.ofNat_toNat⟩

instance : Kept Loss sizeLimit varint64 where
  losses := fun _ => []
  losses_eq_nil_iff := fun {v} _ _ => iff_of_true rfl ⟨v.toNat, rfl, v.toNat_lt, UInt64.ofNat_toNat⟩

instance : Kept Loss sizeLimit uint8 where
  losses := fun _ => []
  losses_eq_nil_iff := fun {v} _ _ => iff_of_true rfl ⟨v.toNat, rfl, v.toNat_lt, UInt8.ofNat_toNat⟩

instance : Kept Loss sizeLimit uint16 where
  losses := fun _ => []
  losses_eq_nil_iff := fun {v} _ _ => iff_of_true rfl ⟨v.toNat, rfl, v.toNat_lt, UInt16.ofNat_toNat⟩

instance : Kept Loss sizeLimit uint32 where
  losses := fun _ => []
  losses_eq_nil_iff := fun {v} _ _ => iff_of_true rfl ⟨v.toNat, rfl, v.toNat_lt, UInt32.ofNat_toNat⟩

instance : Kept Loss sizeLimit uint64 where
  losses := fun _ => []
  losses_eq_nil_iff := fun {v} _ _ => iff_of_true rfl ⟨v.toNat, rfl, v.toNat_lt, UInt64.ofNat_toNat⟩

instance (size : ℕ) : Kept Loss sizeLimit (blob size) where
  losses := fun _ => []
  losses_eq_nil_iff := fun _ _ => iff_of_true rfl trivial

instance {α : Type*} (c : Codec α) [Kept Loss sizeLimit c] : Kept Loss sizeLimit (optional c) where
  losses := fun o =>
    match o with
    | none => []
    | some v => Kept.losses sizeLimit c v
  losses_eq_nil_iff := by
    intro o ended fits
    cases o with
    | none => exact iff_of_true rfl fun v isSome => by cases isSome
    | some v =>
        have fits : (c.write v).1.length < sizeLimit := (Nat.lt_succ_self _).trans fits
        have kept : (Kept.losses sizeLimit c v : List Loss) = [] ↔ c.dom v :=
          Kept.losses_eq_nil_iff ended fits
        simpa [optional] using kept

instance (lastVer : UInt8) : Kept Loss sizeLimit (versionToMember lastVer) :=
  inferInstanceAs (Kept Loss sizeLimit (varint8.accepted fun version => decide (version ≤ lastVer)))

/-! ## Payload items -/

instance : Kept Loss sizeLimit accountPublicAddressOld := Kept.object fun _ => rfl

instance : Kept Loss sizeLimit accountPublicAddress := Kept.object fun _ => rfl

instance : Kept Loss sizeLimit txServiceAttachment := Kept.object fun _ => rfl

instance : Kept Loss sizeLimit txComment := Kept.object fun _ => rfl

instance : Kept Loss sizeLimit txPayerOld := Kept.object fun _ => rfl

instance : Kept Loss sizeLimit txReceiverOld := Kept.object fun _ => rfl

instance : Kept Loss sizeLimit txPayer := Kept.object fun _ => rfl

instance : Kept Loss sizeLimit txReceiver := Kept.object fun _ => rfl

instance : Kept Loss sizeLimit txDerivationHint := Kept.object fun _ => rfl

instance : Kept Loss sizeLimit txCryptoChecksum := Kept.object fun _ => rfl

instance : Kept Loss sizeLimit etcTxTime := Kept.object fun _ => rfl

instance : Kept Loss sizeLimit etcTxDetailsUnlockTime := Kept.object fun _ => rfl

instance : Kept Loss sizeLimit etcTxDetailsExpirationTime := Kept.object fun _ => rfl

instance : Kept Loss sizeLimit etcTxDetailsFlags := Kept.object fun _ => rfl

instance : Kept Loss sizeLimit etcTxFlags16 := Kept.object fun _ => rfl

instance : Kept Loss sizeLimit etcTxDetailsUnlockTime2 := Kept.object fun _ => rfl

instance : Kept Loss sizeLimit etcCoinbaseBlockCumulativeSize := Kept.object fun _ => rfl

instance : Kept Loss sizeLimit extraAttachmentInfo := Kept.object fun _ => rfl

instance : Kept Loss sizeLimit extraUserData := Kept.object fun _ => rfl

instance : Kept Loss sizeLimit extraPadding := Kept.object fun _ => rfl

instance : Kept Loss sizeLimit extraAliasEntryBaseOld := Kept.object fun _ => rfl

instance : Kept Loss sizeLimit extraAliasEntryOld := Kept.object fun _ => rfl

instance : Kept Loss sizeLimit extraAliasEntryBase := Kept.object fun _ => rfl

instance : Kept Loss sizeLimit extraAliasEntry := Kept.object fun _ => rfl

instance : Kept Loss sizeLimit zarcanumTxDataV1 := Kept.object fun _ => rfl

/-! ## Assets -/

instance : Kept Loss sizeLimit (const ()) where
  losses := fun _ => []
  losses_eq_nil_iff := fun _ _ => iff_of_true rfl rfl

instance : Kept Loss sizeLimit (const (none : Option EthPublicKey)) :=
  Kept.const none .ownerEthPubKey

instance : Kept Loss sizeLimit (const ([] : List Unit)) := Kept.const [] .etc

instance : Kept Loss sizeLimit assetDescriptorBase := by
  delta assetDescriptorBase
  exact Kept.object fun _ => rfl

/-- What does not fit in the old layout of an asset operation, and is not refused. -/
def AssetDescriptorOperation.lossesToV1 (op : AssetDescriptorOperation) : List Loss :=
  (if op.version = 1 then [] else [.version]) ++
    (if op.optAmountCommitment.isSome then [] else [.amountCommitment]) ++
      if op.optAssetIdSalt = none then [] else [.assetIdSalt]

theorem AssetDescriptorOperation.lossesToV1_eq_nil_iff {op : AssetDescriptorOperation}
    {v1 : AssetDescriptorOperationV1} (isV1 : op.toV1 = some v1) :
    op.lossesToV1 = [] ↔ v1.toCurrent = op := by
  obtain ⟨descriptor, isDescriptor, later⟩ := Option.bind_eq_some_iff.mp isV1
  obtain ⟨notRefused, same⟩ := Option.ite_none_left_eq_some.mp later
  cases same
  have noAmount : op.optAmount = none := Option.not_isSome_iff_eq_none.mp (not_or.mp notRefused).1
  have noEtc : op.etc = [] := not_not.mp (not_or.mp notRefused).2
  clear isV1 later notRefused
  obtain ⟨operationType, version, optAmountCommitment, optAssetId, optDescriptor, optAmount,
      optAssetIdSalt, etc⟩ := op
  dsimp only at isDescriptor noAmount noEtc
  subst isDescriptor noAmount noEtc
  unfold lossesToV1 AssetDescriptorOperationV1.toCurrent
  cases optAmountCommitment <;> simp [@eq_comm _ version 1, @eq_comm _ optAssetIdSalt none]

instance : Kept Loss sizeLimit assetDescriptorOperationV1 := Kept.object fun _ => rfl

instance (version : UInt8) : Kept Loss sizeLimit (assetDescriptorOperationBody version) :=
  Kept.iteOf _ _ _ (Kept.convertUnless _ _ _ _ AssetDescriptorOperation.lossesToV1 fun isV1 =>
      AssetDescriptorOperation.lossesToV1_eq_nil_iff isV1)
    (Kept.convertUnless _ _ _ _ (fun op => if op.version = version then [] else [.version]) (by
      intro op fields isFields
      cases isFields
      obtain ⟨operationType, own, optAmountCommitment, optAssetId, optDescriptor, optAmount,
          optAssetIdSalt, etc⟩ := op
      simp [eq_comm]))

instance : Kept Loss sizeLimit assetDescriptorOperation :=
  Kept.convert ((versionToMember 2).dep assetDescriptorOperationBody) _ _ _ fun isPair => by
    cases isPair
    rfl

instance : Kept Loss sizeLimit gatewayAddressDescriptorBase := Kept.object fun _ => rfl

instance : Kept Loss sizeLimit gatewayAddressDescriptorOperationRegister := Kept.object fun _ => rfl

instance : Kept Loss sizeLimit gatewayAddressDescriptorOperationUpdate := Kept.object fun _ => rfl

instance : Kept Loss sizeLimit gatewayAddressDescriptorOperation := Kept.object fun _ => rfl

set_option synthInstance.maxSize 1000 in
instance : Kept Loss sizeLimit payloadItemsV := by
  delta payloadItemsV
  infer_instance

/-! ## The prefix -/

instance : Kept Loss sizeLimit (const (0 : UInt8)) := Kept.const 0 .hardforkId

instance : Kept Loss sizeLimit txinGen := Kept.object fun _ => rfl

instance : Kept Loss sizeLimit refById := Kept.object fun _ => rfl

instance : Kept Loss sizeLimit signedParts := Kept.object fun _ => rfl

instance : Kept Loss sizeLimit txinToKey := Kept.object fun _ => rfl

instance : Kept Loss sizeLimit txinMultisig := Kept.object fun _ => rfl

instance : Kept Loss sizeLimit txinZcInput := Kept.object fun _ => rfl

instance : Kept Loss sizeLimit txoutToKey := Kept.object fun _ => rfl

instance : Kept Loss sizeLimit txoutMultisig := Kept.object fun _ => rfl

instance : Kept Loss sizeLimit txOutBare := Kept.object fun _ => rfl

instance : Kept Loss sizeLimit txOutZarcanum := Kept.object fun _ => rfl

instance : Kept Loss sizeLimit txOutGateway := Kept.object fun _ => rfl

instance : Kept Loss sizeLimit txOutZarcanumV1 := Kept.object fun _ => rfl

instance : Kept Loss sizeLimit txinGateway :=
  Kept.convert ((varint8.check fun version => decide (version ≤ 0)).seq
    (key.seq (key.seq (varint64.seq varint8)))) _ _ _
    fun isFields => by
      cases isFields
      rfl

instance : Kept Loss sizeLimit txinV := by
  delta txinV
  infer_instance

theorem TxOutV.toCurrent_of_toV1 {out : TxOutV} {v1 : TxOutVV1}
    (isV1 : out.toV1 = some v1) : v1.toCurrent = out := by
  obtain bare | ⟨zarcanum | gateway⟩ := out
  · cases isV1
    rfl
  · obtain ⟨kept, same⟩ := Option.ite_none_left_eq_some.mp isV1
    cases same
    have noPaymentId : zarcanum.encryptedPaymentId = 0 := not_not.mp (not_or.mp kept).1
    have noVersion : zarcanum.version = 0 :=
      UInt8.le_zero_iff.mp (UInt8.not_lt.mp (not_or.mp kept).2)
    unfold TxOutVV1.toCurrent
    rw [← noPaymentId, ← noVersion]
  · cases isV1

theorem map_of_mapM {α β : Type*} {encode : β → Option α} {decode : α → β}
    (kept : ∀ {b a}, encode b = some a → decode a = b) {vs : List β} {others : List α}
    (isTo : vs.mapM encode = some others) :
    others.map decode = vs := by
  induction vs generalizing others with
  | nil =>
      cases isTo
      rfl
  | cons v vs inductionHypothesis =>
      rw [List.mapM_cons] at isTo
      obtain ⟨first, isFirst, rest⟩ := Option.bind_eq_some_iff.mp isTo
      obtain ⟨later, isLater, same⟩ := Option.bind_eq_some_iff.mp rest
      cases same
      rw [List.map_cons, kept isFirst, inductionHypothesis isLater]

instance : Kept Loss sizeLimit voutV1 := Kept.convert _ _ _ _ (map_of_mapM TxOutV.toCurrent_of_toV1)

instance : Kept Loss sizeLimit transactionPrefixV1 := Kept.object fun _ => rfl

/-- The version is the one in front, and the old layout has no hardfork id. -/
def TransactionPrefix.lossesToV1 (version : UInt64) (tx : TransactionPrefix) : List Loss :=
  (if tx.version = version then [] else [.version]) ++ if tx.hardforkId = 0 then []
    else [.hardforkId]

theorem TransactionPrefix.lossesToV1_eq_nil_iff {version : UInt64} {tx : TransactionPrefix}
    {v1 : TransactionPrefixV1} (isV1 : tx.toV1 = some v1) :
    tx.lossesToV1 version = [] ↔ v1.toCurrent version = tx := by
  obtain ⟨vout, isBare, same⟩ := Option.map_eq_some_iff.mp isV1
  cases same
  have sameVout : vout.map Sum.inl = tx.vout := by
    apply map_of_mapM _ isBare
    intro out bare isBare
    exact (Sum.getLeft?_eq_some_iff.mp isBare).symm
  clear isV1
  obtain ⟨own, hardforkId, vin, extra, vout'⟩ := tx
  dsimp only at sameVout
  unfold lossesToV1 TransactionPrefixV1.toCurrent
  simp [sameVout, @eq_comm _ own version, @eq_comm _ hardforkId 0]

instance (version : UInt64) : Kept Loss sizeLimit (transactionPrefixBody version) :=
  Kept.iteOf _ _ _ (Kept.convertUnless _ _ _ _ (TransactionPrefix.lossesToV1 version) fun isV1 =>
      TransactionPrefix.lossesToV1_eq_nil_iff isV1)
    (Kept.convertUnless _ _ _ _ (fun tx => if tx.version = version then [] else [.version]) (by
      intro tx fields isFields
      cases isFields
      obtain ⟨own, hardforkId, vin, extra, vout⟩ := tx
      simp [@eq_comm _ own version]))

instance : Kept Loss sizeLimit transactionPrefix :=
  Kept.convert ((varint64.accepted fun version => decide (version ≤ 4)).dep transactionPrefixBody)
    _ _ _ fun isPair => by
    cases isPair
    rfl

/-! ## Signatures and proofs -/

instance : Kept Loss sizeLimit bppSignature := Kept.object fun _ => rfl

instance : Kept Loss sizeLimit bppeSignature := Kept.object fun _ => rfl

instance : Kept Loss sizeLimit clsagGgxSignature := Kept.object fun _ => rfl

instance : Kept Loss sizeLimit clsagGgxxgSignature := Kept.object fun _ => rfl

instance : Kept Loss sizeLimit vectorUGAggregationProof := Kept.object fun _ => rfl

instance : Kept Loss sizeLimit bgeProof := Kept.object fun _ => rfl

instance : Kept Loss sizeLimit genericSchnorrSig := Kept.object fun _ => rfl

instance : Kept Loss sizeLimit genericDoubleSchnorrSig := Kept.object fun _ => rfl

instance : Kept Loss sizeLimit linearCompositionProof := Kept.object fun _ => rfl

instance : Kept Loss sizeLimit genericLinearCompositionAndSchnorrSig := Kept.object fun _ => rfl

instance : Kept Loss sizeLimit nlsagSig := Kept.object fun _ => rfl

instance : Kept Loss sizeLimit zcSig := Kept.object fun _ => rfl

instance : Kept Loss sizeLimit zarcanumSig := Kept.object fun _ => rfl

instance : Kept Loss sizeLimit gatewaySig := Kept.object fun _ => rfl

instance : Kept Loss sizeLimit zcAssetSurjectionProof := Kept.object fun _ => rfl

instance : Kept Loss sizeLimit zcOutsRangeProof := Kept.object fun _ => rfl

instance : Kept Loss sizeLimit zcBalanceProof := Kept.object fun _ => rfl

instance : Kept Loss sizeLimit zcGwBalanceProof := Kept.object fun _ => rfl

instance : Kept Loss sizeLimit assetOperationProof := Kept.object fun _ => rfl

instance : Kept Loss sizeLimit assetOperationOwnershipProof := Kept.object fun _ => rfl

instance : Kept Loss sizeLimit assetOperationOwnershipProofEth := Kept.object fun _ => rfl

instance : Kept Loss sizeLimit gatewayAddressOwnershipProof := Kept.object fun _ => rfl

instance : Kept Loss sizeLimit signatureV := by
  delta signatureV
  infer_instance

instance : Kept Loss sizeLimit proofV := by
  delta proofV
  infer_instance

/-! ## The whole transaction -/

/-- The old layout has no proofs. -/
def lossesToV1 (tail : Tail) : List Loss := if tail.2.2 = [] then [] else [.proofs]

theorem lossesToV1_eq_nil_iff {tail : Tail} {v1 : List (List Signature) × List PayloadItemsV}
    (isV1 : tailToV1 tail = some v1) : lossesToV1 tail = [] ↔ tailOfV1 v1 = tail := by
  obtain ⟨attachment, signatures, proofs⟩ := tail
  obtain ⟨sigs, isSigs, same⟩ := Option.map_eq_some_iff.mp isV1
  cases same
  have sameSignatures : (sigs.map fun s => (.inl ⟨s⟩ : SignatureV)) = signatures := by
    apply map_of_mapM _ isSigs
    intro sig s isNlsag
    cases sig with
    | inl nlsag =>
        cases isNlsag
        rfl
    | inr other => cases isNlsag
  unfold lossesToV1 tailOfV1
  dsimp only
  rw [sameSignatures]
  by_cases noProofs : proofs = []
  · rw [if_pos noProofs, noProofs]
    exact iff_of_true rfl rfl
  · rw [if_neg noProofs]
    exact iff_of_false (List.cons_ne_nil _ _) fun same => noProofs (congrArg (·.2.2) same).symm

instance (version : UInt64) : Kept Loss sizeLimit (transactionTail version) :=
  Kept.iteOf _ _ _ (Kept.convertUnless _ _ _ _ lossesToV1 fun isV1 => lossesToV1_eq_nil_iff isV1)
    inferInstance

instance : Kept Loss sizeLimit transaction := by
  delta transaction
  exact Kept.object fun _ => rfl

/-- What a transaction loses when it is serialized. -/
def losses (tx : Transaction) : List Loss := Kept.losses sizeLimit transaction tx

/-- A transaction that was serialized is parsed from its blob exactly when it loses nothing. -/
theorem parse_of_write_iff (tx : Transaction) (txBlob : Bytes)
    (serialized : transaction.write tx = (txBlob, true)) (fits : txBlob.length < sizeLimit) :
    parseAndValidateTxFromBlob txBlob = some tx ↔ losses tx = [] := by
  have ended : (transaction.write tx).2 = true := congrArg Prod.snd serialized
  have isBlob : (transaction.write tx).1 = txBlob := congrArg Prod.fst serialized
  have readBack := @read_write_iff _ Loss sizeLimit transaction _ tx ended (isBlob ▸ fits) []
  rw [isBlob, List.append_nil] at readBack
  rw [losses, ← readBack]
  constructor
  · exact read_of_parse
  · intro isRead
    rw [parseAndValidateTxFromBlob, isRead]

theorem parse_of_write_gateway :
    parseAndValidateTxFromBlob (gatewayBlob 0 6) = some (gatewayTransaction 0 6) :=
  (parse_of_write_iff (gatewayTransaction 0 6) (gatewayBlob 0 6) rfl (by decide)).mpr (by decide)

/-- A version without a hardfork id is written to the end of a transaction that has one. -/
theorem hardforkId_lost :
    ¬∀ tx txBlob, transaction.write tx = (txBlob, true) → txBlob.length < sizeLimit →
    parseAndValidateTxFromBlob txBlob = some tx := by
  intro keeps
  have parsed := keeps ⟨⟨2, 6, [], [], []⟩, [], [], []⟩ [2, 0, 0, 0, 0, 0, 0] rfl (by decide)
  have other : parseAndValidateTxFromBlob [2, 0, 0, 0, 0, 0, 0] =
      some ⟨⟨2, 0, [], [], []⟩, [], [], []⟩ := rfl
  have same := congrArg (·.map (·.hardforkId)) (other.symm.trans parsed)
  revert same
  decide

end Zano.Serialization
