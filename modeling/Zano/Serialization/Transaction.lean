import Zano.Serialization.Payload

/-! # Transactions

The prefix and the whole of a transaction. Versions 0 and 1 have the layout of
`transaction_prefix_v1` and `transaction_v1`, and versions below that of the sixth hardfork have
outputs without a version and a payment id; a transaction is converted to these layouts when it is
written and from them when it is read.

A value that the writer refuses with an exception is written as nothing. No transaction that was
read is such a value.
-/

namespace Zano.Serialization

open Codec

/-! ## Inputs -/

structure TxinGen where
  height : UInt64

abbrev txinGen : Codec TxinGen := varint64.object (·.height) (⟨·⟩) fun _ => rfl

structure RefById where
  txId : Hash
  n : UInt32

abbrev refById : Codec RefById :=
  (key.seq varint32).object (fun v => (v.txId, v.n)) (fun (a, b) => ⟨a, b⟩) fun _ => rfl

abbrev TxoutRefV := UInt64 ⊕ RefById

abbrev txoutRefV : Codec TxoutRefV := variant (.or 26 uint64 (.last 25 refById))

structure SignedParts where
  nOuts : UInt32
  nExtras : UInt32

abbrev signedParts : Codec SignedParts :=
  (varint32.seq varint32).object (fun v => (v.nOuts, v.nExtras)) (fun (a, b) => ⟨a, b⟩) fun _ => rfl

abbrev TxinEtcDetailsV := SignedParts ⊕ ExtraAttachmentInfo

abbrev txinEtcDetailsV : Codec TxinEtcDetailsV :=
  variant (.or 17 signedParts (.last 18 extraAttachmentInfo))

structure TxinToKey where
  amount : UInt64
  keyOffsets : List TxoutRefV
  kImage : KeyImage
  etcDetails : List TxinEtcDetailsV

abbrev txinToKey : Codec TxinToKey :=
  (varint64.seq ((vector txoutRefV).seq (key.seq (vector txinEtcDetailsV)))).object
    (fun v => (v.amount, v.keyOffsets, v.kImage,
      v.etcDetails)) (fun (a, b, c, d) => ⟨a, b, c, d⟩) fun _ => rfl

structure TxinMultisig where
  amount : UInt64
  multisigOutId : Hash
  sigsCount : UInt32
  etcDetails : List TxinEtcDetailsV

abbrev txinMultisig : Codec TxinMultisig :=
  (varint64.seq (key.seq (varint32.seq (vector txinEtcDetailsV)))).object
    (fun v => (v.amount, v.multisigOutId, v.sigsCount,
      v.etcDetails)) (fun (a, b, c, d) => ⟨a, b, c, d⟩) fun _ => rfl

structure TxinGateway where
  version : UInt8
  gatewayAddr : PublicKey
  assetId : PublicKey
  amount : UInt64

/-- The version is a field twice. The one in front is checked; the one at the end is not, and when
the input is read it is the one that is kept. -/
abbrev txinGateway : Codec TxinGateway :=
  ((varint8.check fun version => decide (version ≤ 0)).seq
    (key.seq (key.seq (varint64.seq varint8)))).convert
    (fun v => some (v.version, v.gatewayAddr, v.assetId, v.amount, v.version))
    (fun (_, a, b, c, version) => ⟨version, a, b, c⟩)
    fun _ inDom => ⟨_, rfl, ⟨inDom.2.2.2.2, inDom.2⟩, rfl⟩

structure TxinZcInput where
  keyOffsets : List TxoutRefV
  kImage : KeyImage
  etcDetails : List TxinEtcDetailsV

abbrev txinZcInput : Codec TxinZcInput :=
  ((vector txoutRefV).seq (key.seq (vector txinEtcDetailsV))).object
    (fun v => (v.keyOffsets, v.kImage, v.etcDetails)) (fun (a, b, c) => ⟨a, b, c⟩) fun _ => rfl

abbrev TxinV := TxinGen ⊕ TxinToKey ⊕ TxinMultisig ⊕ TxinGateway ⊕ TxinZcInput

def txinV : Codec TxinV :=
  variant (.or 0 txinGen
    (.or 1 txinToKey (.or 2 txinMultisig (.or 65 txinGateway (.last 37 txinZcInput)))))

instance : txinV.Marked := by
  unfold txinV
  infer_instance

/-! ## Outputs -/

structure TxoutToKey where
  key : PublicKey
  mixAttr : UInt8

/-- A blob of 33 bytes, without padding. -/
abbrev txoutToKey : Codec TxoutToKey :=
  (key.seq uint8).object (fun v => (v.key, v.mixAttr)) (fun (a, b) => ⟨a, b⟩) fun _ => rfl

structure TxoutMultisig where
  minimumSigs : UInt32
  keys : List PublicKey

abbrev txoutMultisig : Codec TxoutMultisig :=
  (varint32.seq (vector key)).object (fun v => (v.minimumSigs, v.keys)) (fun (a, b) => ⟨a, b⟩)
    fun _ => rfl

abbrev TxoutTargetV := TxoutToKey ⊕ TxoutMultisig

abbrev txoutTargetV : Codec TxoutTargetV := variant (.or 3 txoutToKey (.last 4 txoutMultisig))

structure TxOutBare where
  amount : UInt64
  target : TxoutTargetV

abbrev txOutBare : Codec TxOutBare :=
  (varint64.seq txoutTargetV).object (fun v => (v.amount, v.target)) (fun (a, b) => ⟨a, b⟩) fun _ =>
    rfl

structure TxOutZarcanum where
  stealthAddress : PublicKey
  concealingPoint : PublicKey
  amountCommitment : PublicKey
  blindedAssetId : PublicKey
  encryptedAmount : UInt64
  encryptedPaymentId : UInt64
  mixAttr : UInt8
  version : UInt8

abbrev txOutZarcanum : Codec TxOutZarcanum :=
  ((versionToMember 0).seq
    (key.seq (key.seq (key.seq (key.seq (uint64.seq (uint64.seq uint8))))))).object
    (fun v => (v.version, v.stealthAddress, v.concealingPoint, v.amountCommitment, v.blindedAssetId,
      v.encryptedAmount, v.encryptedPaymentId, v.mixAttr))
    (fun (version, a, b, c, d, e, f, g) => ⟨a, b, c, d, e, f, g, version⟩) fun _ => rfl

structure TxOutGateway where
  version : UInt8
  gatewayAddr : PublicKey
  assetId : PublicKey
  amount : UInt64
  paymentId : UInt64

abbrev txOutGateway : Codec TxOutGateway :=
  ((versionToMember 0).seq (key.seq (key.seq (varint64.seq uint64)))).object
    (fun v => (v.version, v.gatewayAddr, v.assetId, v.amount, v.paymentId))
    (fun (a, b, c, d, e) => ⟨a, b, c, d, e⟩) fun _ => rfl

abbrev TxOutV := TxOutBare ⊕ TxOutZarcanum ⊕ TxOutGateway

abbrev txOutV : Codec TxOutV :=
  variant (.or 36 txOutBare (.or 63 txOutZarcanum (.last 66 txOutGateway)))

structure TxOutZarcanumV1 where
  stealthAddress : PublicKey
  concealingPoint : PublicKey
  amountCommitment : PublicKey
  blindedAssetId : PublicKey
  encryptedAmount : UInt64
  mixAttr : UInt8

abbrev txOutZarcanumV1 : Codec TxOutZarcanumV1 :=
  (key.seq (key.seq (key.seq (key.seq (uint64.seq uint8))))).object
    (fun v => (v.stealthAddress, v.concealingPoint, v.amountCommitment, v.blindedAssetId,
      v.encryptedAmount, v.mixAttr))
    (fun (a, b, c, d, e, f) => ⟨a, b, c, d, e, f⟩) fun _ => rfl

abbrev TxOutVV1 := TxOutBare ⊕ TxOutZarcanumV1

abbrev txOutVV1 : Codec TxOutVV1 := variant (.or 36 txOutBare (.last 38 txOutZarcanumV1))

/-- `transition_convert`, which throws when something would get lost. -/
def TxOutV.toV1 : TxOutV → Option TxOutVV1
  | .inl bare => some (.inl bare)
  | .inr (.inl out) =>
      if out.encryptedPaymentId ≠ 0 ∨ 0 < out.version then none
      else some (.inr ⟨out.stealthAddress, out.concealingPoint, out.amountCommitment,
        out.blindedAssetId, out.encryptedAmount, out.mixAttr⟩)
  | .inr (.inr _) => none

def TxOutVV1.toCurrent : TxOutVV1 → TxOutV
  | .inl bare => .inl bare
  | .inr out =>
      .inr (.inl ⟨out.stealthAddress, out.concealingPoint, out.amountCommitment, out.blindedAssetId,
        out.encryptedAmount, 0, out.mixAttr, 0⟩)

theorem TxOutVV1.toV1_toCurrent (out : TxOutVV1) : out.toCurrent.toV1 = some out := by
  cases out <;> rfl

theorem mapM_map {α β : Type*} (encode : β → Option α) (decode : α → β)
    (encode_decode : ∀ a, encode (decode a) = some a) (vs : List α) :
    (vs.map decode).mapM encode = some vs := by
  induction vs with
  | nil => rfl
  | cons v vs inductionHypothesis => simp [encode_decode, inductionHypothesis]

abbrev voutV1 : Codec (List TxOutV) :=
  (vector txOutVV1).convert (List.mapM TxOutV.toV1) (List.map TxOutVV1.toCurrent)
    fun vout inDom => ⟨vout, mapM_map TxOutV.toV1 TxOutVV1.toCurrent TxOutVV1.toV1_toCurrent vout,
      inDom, rfl⟩

/-! ## The prefix -/

structure TransactionPrefix where
  version : UInt64
  hardforkId : UInt8
  vin : List TxinV
  extra : List PayloadItemsV
  vout : List TxOutV

structure TransactionPrefixV1 where
  extra : List PayloadItemsV
  vin : List TxinV
  vout : List TxOutBare

abbrev transactionPrefixV1 : Codec TransactionPrefixV1 :=
  ((vector txinV).seq ((vector txOutBare).seq (vector payloadItemsV))).object (fun v =>
    (v.vin, v.vout, v.extra))
    (fun (a, b, c) => ⟨c, a, b⟩) fun _ => rfl

/-- `transition_convert`, which throws at an output that is not bare. -/
def TransactionPrefix.toV1 (tx : TransactionPrefix) : Option TransactionPrefixV1 :=
  (tx.vout.mapM (Sum.getLeft? : TxOutV → Option TxOutBare)).map fun vout => ⟨tx.extra, tx.vin, vout⟩

def TransactionPrefixV1.toCurrent (version : UInt64)
    (tx : TransactionPrefixV1) : TransactionPrefix :=
  ⟨version, 0, tx.vin, tx.extra, tx.vout.map .inl⟩

theorem TransactionPrefixV1.toV1_toCurrent (version : UInt64) (tx : TransactionPrefixV1) :
    (tx.toCurrent version).toV1 = some tx := by
  have bare :
      (tx.vout.map Sum.inl).mapM (Sum.getLeft? : TxOutV → Option TxOutBare) = some tx.vout :=
    mapM_map Sum.getLeft? Sum.inl (fun _ => rfl) tx.vout
  simp only [TransactionPrefix.toV1, TransactionPrefixV1.toCurrent, bare, Option.map_some]

/-- What follows the version. -/
def transactionPrefixBody (version : UInt64) : Codec TransactionPrefix :=
  if version < 2 then
    transactionPrefixV1.convert TransactionPrefix.toV1 (TransactionPrefixV1.toCurrent version)
      fun tx inDom => ⟨tx, tx.toV1_toCurrent version, inDom, rfl⟩
  else
    ((vector txinV).seq
      ((vector payloadItemsV).seq ((if version < 4 then voutV1 else vector txOutV).seq
      (if version < 3 then const 0 else uint8)))).object (fun v =>
        (v.vin, v.extra, v.vout, v.hardforkId))
      (fun (a, b, c, d) => ⟨version, d, a, b, c⟩) fun _ => rfl

theorem version_of_transactionPrefixBody {version : UInt64} {tx : TransactionPrefix}
    (inDom : (transactionPrefixBody version).dom tx) : tx.version = version := by
  unfold transactionPrefixBody at inDom
  split at inDom
  · obtain ⟨v, -, -, rfl⟩ := inDom
    rfl
  · obtain ⟨v, -, -, rfl⟩ := inDom
    rfl

def transactionPrefix : Codec TransactionPrefix :=
  ((varint64.accepted fun version => decide (version ≤ 4)).dep transactionPrefixBody).convert
    (fun tx => some (tx.version, tx)) Prod.snd fun (version, tx) inDom => by
      have same := version_of_transactionPrefixBody inDom.2
      exact ⟨(version, tx), by rw [same], inDom, rfl⟩

end Zano.Serialization
