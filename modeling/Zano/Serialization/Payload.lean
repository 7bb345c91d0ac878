import Zano.Serialization.BinaryArchive

/-! # Payload items

The items of `extra` and `attachment`. A `boost::variant` is the sum of its types, in their order.

Keys, hashes and signatures are blobs. A `bool` that is a member is the byte it is stored in.
-/

namespace Zano.Serialization

open Codec

abbrev Hash := Blob 32
abbrev PublicKey := Blob 32
abbrev SecretKey := Blob 32
abbrev KeyImage := Blob 32
abbrev KeyDerivation := Blob 32
abbrev Signature := Blob 64
abbrev EthPublicKey := Blob 33
abbrev EddsaPublicKey := Blob 32

abbrev key : Codec (Blob 32) := blob 32

instance key_marked : key.Marked := inferInstanceAs (blob 32).Marked

instance signature_marked : (blob 64).Marked := inferInstance

/-! ## Addresses -/

structure AccountPublicAddressOld where
  spendPublicKey : PublicKey
  viewPublicKey : PublicKey

abbrev accountPublicAddressOld : Codec AccountPublicAddressOld :=
  (key.seq key).object (fun v => (v.spendPublicKey, v.viewPublicKey)) (fun (a, b) => ⟨a, b⟩)
    fun _ => rfl

structure AccountPublicAddress where
  spendPublicKey : PublicKey
  viewPublicKey : PublicKey
  flags : UInt8

abbrev accountPublicAddress : Codec AccountPublicAddress :=
  (key.seq (key.seq uint8)).object (fun v => (v.spendPublicKey, v.viewPublicKey, v.flags))
    (fun (a, b, c) => ⟨a, b, c⟩) fun _ => rfl

/-! ## Attachments -/

structure TxServiceAttachment where
  serviceId : Bytes
  instruction : Bytes
  body : Bytes
  security : List PublicKey
  flags : UInt8

abbrev txServiceAttachment : Codec TxServiceAttachment :=
  (string.seq (string.seq (string.seq ((vector key).seq uint8)))).object
    (fun v => (v.serviceId, v.instruction, v.body, v.security, v.flags))
    (fun (a, b, c, d, e) => ⟨a, b, c, d, e⟩) fun _ => rfl

structure TxComment where
  comment : Bytes

abbrev txComment : Codec TxComment := string.object (·.comment) (⟨·⟩) fun _ => rfl

structure TxPayerOld where
  accAddr : AccountPublicAddressOld

abbrev txPayerOld : Codec TxPayerOld :=
  accountPublicAddressOld.object (·.accAddr) (⟨·⟩) fun _ => rfl

structure TxReceiverOld where
  accAddr : AccountPublicAddressOld

abbrev txReceiverOld : Codec TxReceiverOld :=
  accountPublicAddressOld.object (·.accAddr) (⟨·⟩) fun _ => rfl

structure TxPayer where
  accAddr : AccountPublicAddress

abbrev txPayer : Codec TxPayer := accountPublicAddress.object (·.accAddr) (⟨·⟩) fun _ => rfl

structure TxReceiver where
  accAddr : AccountPublicAddress

abbrev txReceiver : Codec TxReceiver := accountPublicAddress.object (·.accAddr) (⟨·⟩) fun _ => rfl

structure TxDerivationHint where
  msg : Bytes

abbrev txDerivationHint : Codec TxDerivationHint := string.object (·.msg) (⟨·⟩) fun _ => rfl

structure TxCryptoChecksum where
  encryptedKeyDerivation : KeyDerivation
  derivationHash : UInt32

abbrev txCryptoChecksum : Codec TxCryptoChecksum :=
  (key.seq uint32).object (fun v => (v.encryptedKeyDerivation, v.derivationHash))
    (fun (a, b) => ⟨a, b⟩)
    fun _ => rfl

/-! ## Times, flags and sizes -/

structure EtcTxTime where
  v : UInt64

abbrev etcTxTime : Codec EtcTxTime := varint64.object (·.v) (⟨·⟩) fun _ => rfl

structure EtcTxDetailsUnlockTime where
  v : UInt64

abbrev etcTxDetailsUnlockTime : Codec EtcTxDetailsUnlockTime :=
  varint64.object (·.v) (⟨·⟩) fun _ => rfl

structure EtcTxDetailsExpirationTime where
  v : UInt64

abbrev etcTxDetailsExpirationTime : Codec EtcTxDetailsExpirationTime :=
  varint64.object (·.v) (⟨·⟩) fun _ => rfl

structure EtcTxDetailsFlags where
  v : UInt64

abbrev etcTxDetailsFlags : Codec EtcTxDetailsFlags := varint64.object (·.v) (⟨·⟩) fun _ => rfl

structure EtcTxFlags16 where
  v : UInt16

abbrev etcTxFlags16 : Codec EtcTxFlags16 := uint16.object (·.v) (⟨·⟩) fun _ => rfl

structure EtcTxDetailsUnlockTime2 where
  unlockTimeArray : List UInt64

/-- The elements of a vector of `uint64_t` are varints. -/
abbrev etcTxDetailsUnlockTime2 : Codec EtcTxDetailsUnlockTime2 :=
  (vector varint64).object (·.unlockTimeArray) (⟨·⟩) fun _ => rfl

structure EtcCoinbaseBlockCumulativeSize where
  v : UInt64

abbrev etcCoinbaseBlockCumulativeSize : Codec EtcCoinbaseBlockCumulativeSize :=
  varint64.object (·.v) (⟨·⟩) fun _ => rfl

/-! ## Other items of `extra` -/

structure ExtraAttachmentInfo where
  sz : UInt64
  hsh : Hash
  cnt : UInt64

abbrev extraAttachmentInfo : Codec ExtraAttachmentInfo :=
  (varint64.seq (key.seq varint64)).object (fun v => (v.sz, v.hsh, v.cnt)) (fun (a, b, c) =>
    ⟨a, b, c⟩)
    fun _ => rfl

structure ExtraUserData where
  buff : Bytes

abbrev extraUserData : Codec ExtraUserData := string.object (·.buff) (⟨·⟩) fun _ => rfl

structure ExtraPadding where
  buff : List UInt8

abbrev extraPadding : Codec ExtraPadding := (vector uint8).object (·.buff) (⟨·⟩) fun _ => rfl

structure ExtraAliasEntryBaseOld where
  mAddress : AccountPublicAddressOld
  mTextComment : Bytes
  mViewKey : List SecretKey
  mSign : List Signature

abbrev extraAliasEntryBaseOld : Codec ExtraAliasEntryBaseOld :=
  (accountPublicAddressOld.seq (string.seq ((vector key).seq (vector (blob 64))))).object
    (fun v => (v.mAddress, v.mTextComment, v.mViewKey,
      v.mSign)) (fun (a, b, c, d) => ⟨a, b, c, d⟩) fun _ => rfl

structure ExtraAliasEntryOld extends ExtraAliasEntryBaseOld where
  mAlias : Bytes

abbrev extraAliasEntryOld : Codec ExtraAliasEntryOld :=
  (string.seq extraAliasEntryBaseOld).object (fun v => (v.mAlias, v.toExtraAliasEntryBaseOld))
    (fun (a, b) => ⟨b, a⟩) fun _ => rfl

structure ExtraAliasEntryBase where
  mAddress : AccountPublicAddress
  mTextComment : Bytes
  mViewKey : List SecretKey
  mSign : List Signature

abbrev extraAliasEntryBase : Codec ExtraAliasEntryBase :=
  (accountPublicAddress.seq (string.seq ((vector key).seq (vector (blob 64))))).object
    (fun v => (v.mAddress, v.mTextComment, v.mViewKey,
      v.mSign)) (fun (a, b, c, d) => ⟨a, b, c, d⟩) fun _ => rfl

structure ExtraAliasEntry extends ExtraAliasEntryBase where
  mAlias : Bytes

abbrev extraAliasEntry : Codec ExtraAliasEntry :=
  (string.seq extraAliasEntryBase).object (fun v => (v.mAlias, v.toExtraAliasEntryBase))
    (fun (a, b) => ⟨b, a⟩) fun _ => rfl

structure ZarcanumTxDataV1 where
  fee : UInt64

abbrev zarcanumTxDataV1 : Codec ZarcanumTxDataV1 := uint64.object (·.fee) (⟨·⟩) fun _ => rfl

/-! ## Assets -/

/-- The variants that are kept for future fields have `dummy` as their one type. -/
abbrev etcFields : Codec Unit := variant (.last 62 (const ()))

structure AssetDescriptorBase where
  totalMaxSupply : UInt64
  currentSupply : UInt64
  decimalPoint : UInt8
  ticker : Bytes
  fullName : Bytes
  metaInfo : Bytes
  owner : PublicKey
  hiddenSupply : UInt8
  version : UInt8
  ownerEthPubKey : Option EthPublicKey
  etc : List Unit

/-- The two members at the end came with versions 1 and 2. -/
def assetDescriptorBase : Codec AssetDescriptorBase :=
  ((versionToMember 2).dep fun version =>
    uint64.seq (uint64.seq (uint8.seq (string.seq (string.seq (string.seq (key.seq (uint8.seq
      ((if version < 1 then const none else optional (blob 33)).seq
        (if version < 2 then const [] else vector etcFields)))))))))).object
    (fun v => (v.version, v.totalMaxSupply, v.currentSupply, v.decimalPoint, v.ticker, v.fullName,
      v.metaInfo, v.owner, v.hiddenSupply, v.ownerEthPubKey, v.etc))
    (fun (version, a, b, c, d, e, f, g, h, i, j) => ⟨a, b, c, d, e, f, g, h, version, i, j⟩)
    fun _ => rfl

instance : assetDescriptorBase.Whole := by
  unfold assetDescriptorBase
  infer_instance

structure AssetDescriptorOperation where
  operationType : UInt8
  version : UInt8
  optAmountCommitment : Option PublicKey
  optAssetId : Option PublicKey
  optDescriptor : Option AssetDescriptorBase
  optAmount : Option UInt64
  optAssetIdSalt : Option UInt32
  etc : List Unit

structure AssetDescriptorOperationV1 where
  operationType : UInt8
  descriptor : AssetDescriptorBase
  amountCommitment : PublicKey
  optAssetId : Option PublicKey

abbrev assetDescriptorOperationV1 : Codec AssetDescriptorOperationV1 :=
  (uint8.seq (assetDescriptorBase.seq (key.seq (optional key)))).object
    (fun v => (v.operationType, v.descriptor, v.amountCommitment, v.optAssetId))
    (fun (a, b, c, d) => ⟨a, b, c, d⟩) fun _ => rfl

def nullPkey : PublicKey := ⟨List.replicate 32 0, rfl⟩

/-- `transition_convert`, which throws when there is no descriptor or when
something would get lost. -/
def AssetDescriptorOperation.toV1 (op : AssetDescriptorOperation) :
    Option AssetDescriptorOperationV1 :=
  op.optDescriptor.bind fun descriptor =>
    if op.optAmount.isSome ∨ op.etc ≠ [] then none
    else some ⟨op.operationType, descriptor, op.optAmountCommitment.getD nullPkey, op.optAssetId⟩

def AssetDescriptorOperationV1.toCurrent (op : AssetDescriptorOperationV1) :
    AssetDescriptorOperation :=
  ⟨op.operationType, 1, some op.amountCommitment, op.optAssetId, some op.descriptor, none, none, []⟩

/-- What follows the version. -/
abbrev assetDescriptorOperationBody (version : UInt8) : Codec AssetDescriptorOperation :=
  if version < 2 then
    assetDescriptorOperationV1.convert AssetDescriptorOperation.toV1
      AssetDescriptorOperationV1.toCurrent
      fun op inDom => ⟨op, rfl, inDom, rfl⟩
  else
    (uint8.seq ((optional key).seq ((optional key).seq ((optional assetDescriptorBase).seq
      ((optional uint64).seq ((optional uint32).seq (vector etcFields))))))).object
      (fun v => (v.operationType, v.optAmountCommitment, v.optAssetId, v.optDescriptor, v.optAmount,
        v.optAssetIdSalt, v.etc))
      (fun (a, b, c, d, e, f, g) => ⟨a, version, b, c, d, e, f, g⟩) fun _ => rfl

/-- A version 0 that was read is kept as version 1, which has the same layout. -/
theorem assetDescriptorOperationBody_dom {version : UInt8} {op : AssetDescriptorOperation}
    (isVersion : (versionToMember 2).dom version)
    (inDom : (assetDescriptorOperationBody version).dom op) :
    (versionToMember 2).dom op.version ∧ (assetDescriptorOperationBody op.version).dom op := by
  by_cases old : version < 2
  · simp only [assetDescriptorOperationBody, if_pos old] at inDom
    obtain ⟨v1, isV1, inDomV1, rfl⟩ := inDom
    have fits : (1 : Nat) < 2 ^ 8 := by decide
    have known : decide ((1 : UInt8) ≤ 2) = true := by decide
    exact ⟨⟨⟨1, rfl, fits, rfl⟩, known⟩, v1, isV1, inDomV1, rfl⟩
  · have inDomNew := inDom
    simp only [assetDescriptorOperationBody, if_neg old] at inDom
    obtain ⟨v, -, -, rfl⟩ := inDom
    exact ⟨isVersion, inDomNew⟩

def assetDescriptorOperation : Codec AssetDescriptorOperation :=
  ((versionToMember 2).dep assetDescriptorOperationBody).convert (fun op =>
    some (op.version, op)) Prod.snd
    fun _ inDom => ⟨_, rfl, assetDescriptorOperationBody_dom inDom.1 inDom.2, rfl⟩

instance : assetDescriptorOperation.Whole := by
  unfold assetDescriptorOperation
  infer_instance

/-! ## Gateway addresses -/

abbrev GatewayOwnerKeyV := PublicKey ⊕ EthPublicKey ⊕ EddsaPublicKey

abbrev gatewayOwnerKeyV : Codec GatewayOwnerKeyV :=
  variant (.or 22 key (.or 60 (blob 33) (.last 69 key)))

structure GatewayAddressDescriptorBase where
  version : UInt8
  ownerKey : GatewayOwnerKeyV
  etc : List Unit
  metaInfo : Bytes

abbrev gatewayAddressDescriptorBase : Codec GatewayAddressDescriptorBase :=
  ((versionToMember 0).seq (gatewayOwnerKeyV.seq ((vector etcFields).seq string))).object
    (fun v => (v.version, v.ownerKey, v.etc,
      v.metaInfo)) (fun (a, b, c, d) => ⟨a, b, c, d⟩) fun _ => rfl

structure GatewayAddressDescriptorOperationRegister where
  version : UInt8
  viewPubKey : PublicKey
  descriptor : GatewayAddressDescriptorBase

abbrev gatewayAddressDescriptorOperationRegister :
    Codec GatewayAddressDescriptorOperationRegister :=
  ((versionToMember 0).seq (key.seq gatewayAddressDescriptorBase)).object
    (fun v => (v.version, v.viewPubKey, v.descriptor)) (fun (a, b, c) => ⟨a, b, c⟩) fun _ => rfl

structure GatewayAddressDescriptorOperationUpdate where
  version : UInt8
  addressId : PublicKey
  descriptor : GatewayAddressDescriptorBase

abbrev gatewayAddressDescriptorOperationUpdate : Codec GatewayAddressDescriptorOperationUpdate :=
  ((versionToMember 0).seq (key.seq gatewayAddressDescriptorBase)).object
    (fun v => (v.version, v.addressId, v.descriptor)) (fun (a, b, c) => ⟨a, b, c⟩) fun _ => rfl

structure GatewayAddressDescriptorOperation where
  version : UInt8
  operation : GatewayAddressDescriptorOperationRegister ⊕ GatewayAddressDescriptorOperationUpdate

abbrev gatewayAddressDescriptorOperation : Codec GatewayAddressDescriptorOperation :=
  ((versionToMember 0).seq (variant (.or 74 gatewayAddressDescriptorOperationRegister
    (.last 75 gatewayAddressDescriptorOperationUpdate)))).object
    (fun v => (v.version, v.operation)) (fun (a, b) => ⟨a, b⟩) fun _ => rfl

/-! ## The variant of all items -/

abbrev PayloadItemsV :=
  TxServiceAttachment ⊕ TxComment ⊕ TxPayerOld ⊕ TxReceiverOld ⊕ TxDerivationHint ⊕ Bytes ⊕
    TxCryptoChecksum ⊕
  EtcTxTime ⊕ EtcTxDetailsUnlockTime ⊕ EtcTxDetailsExpirationTime ⊕ EtcTxDetailsFlags ⊕ PublicKey ⊕
  ExtraAttachmentInfo ⊕ ExtraAliasEntryOld ⊕ ExtraUserData ⊕ ExtraPadding ⊕ EtcTxFlags16 ⊕
  EtcTxDetailsUnlockTime2 ⊕ TxPayer ⊕ TxReceiver ⊕ ExtraAliasEntry ⊕ ZarcanumTxDataV1 ⊕
  AssetDescriptorOperation ⊕ GatewayAddressDescriptorOperation ⊕ EtcCoinbaseBlockCumulativeSize

def payloadItemsV : Codec PayloadItemsV :=
  variant <|
    .or 12 txServiceAttachment (.or 7 txComment (.or 8 txPayerOld (.or 29 txReceiverOld
    (.or 11 txDerivationHint (.or 9 string (.or 10 txCryptoChecksum (.or 27 etcTxTime
    (.or 14 etcTxDetailsUnlockTime (.or 15 etcTxDetailsExpirationTime (.or 16 etcTxDetailsFlags
    (.or 22 key (.or 18 extraAttachmentInfo (.or 20 extraAliasEntryOld (.or 19 extraUserData
    (.or 21 extraPadding (.or 23 etcTxFlags16 (.or 30 etcTxDetailsUnlockTime2 (.or 31 txPayer
    (.or 32 txReceiver
      (.or 33 extraAliasEntry (.or 39 zarcanumTxDataV1 (.or 49 assetDescriptorOperation
    (.or 73 gatewayAddressDescriptorOperation
      (.last 78 etcCoinbaseBlockCumulativeSize))))))))))))))))))))))))

set_option synthInstance.maxSize 1000 in
instance : payloadItemsV.Whole := by
  unfold payloadItemsV
  infer_instance

instance : payloadItemsV.Marked := by
  unfold payloadItemsV
  infer_instance

end Zano.Serialization
