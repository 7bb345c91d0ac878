import Zano.Serialization.Transaction

/-! # Signatures, proofs and the whole transaction

What follows the prefix of a transaction. It is not part of the id.
-/

namespace Zano.Serialization

open Codec

abbrev Scalar := Blob 32

/-! ## Proof systems -/

structure BppSignature where
  L : List PublicKey
  R : List PublicKey
  A0 : PublicKey
  A : PublicKey
  B : PublicKey
  r : Scalar
  s : Scalar
  delta : Scalar

abbrev bppSignature : Codec BppSignature :=
  ((vector key).seq ((vector key).seq (key.seq (key.seq (key.seq (key.seq (key.seq key))))))).object
    (fun v => (v.L, v.R, v.A0, v.A, v.B, v.r, v.s, v.delta))
    (fun (a, b, c, d, e, f, g, h) => ⟨a, b, c, d, e, f, g, h⟩) fun _ => rfl

structure BppeSignature where
  L : List PublicKey
  R : List PublicKey
  A0 : PublicKey
  A : PublicKey
  B : PublicKey
  r : Scalar
  s : Scalar
  delta1 : Scalar
  delta2 : Scalar

abbrev bppeSignature : Codec BppeSignature :=
  ((vector key).seq
    ((vector key).seq (key.seq (key.seq (key.seq (key.seq (key.seq (key.seq key)))))))).object
    (fun v => (v.L, v.R, v.A0, v.A, v.B, v.r, v.s, v.delta1, v.delta2))
    (fun (a, b, c, d, e, f, g, h, i) => ⟨a, b, c, d, e, f, g, h, i⟩) fun _ => rfl

structure ClsagGgxSignature where
  c : Scalar
  rG : List Scalar
  rX : List Scalar
  K1 : PublicKey
  K2 : PublicKey

abbrev clsagGgxSignature : Codec ClsagGgxSignature :=
  (key.seq ((vector key).seq ((vector key).seq (key.seq key)))).object (fun v =>
    (v.c, v.rG, v.rX, v.K1, v.K2))
    (fun (a, b, c, d, e) => ⟨a, b, c, d, e⟩) fun _ => rfl

structure ClsagGgxxgSignature where
  c : Scalar
  rG : List Scalar
  rX : List Scalar
  K1 : PublicKey
  K2 : PublicKey
  K3 : PublicKey
  K4 : PublicKey

abbrev clsagGgxxgSignature : Codec ClsagGgxxgSignature :=
  (key.seq ((vector key).seq ((vector key).seq (key.seq (key.seq (key.seq key)))))).object
    (fun v => (v.c, v.rG, v.rX, v.K1, v.K2, v.K3, v.K4)) (fun (a, b, c, d, e, f, g) =>
      ⟨a, b, c, d, e, f, g⟩)
    fun _ => rfl

structure VectorUGAggregationProof where
  amountCommitmentsForRpAggregation : List PublicKey
  y0s : List Scalar
  y1s : List Scalar
  c : Scalar

abbrev vectorUGAggregationProof : Codec VectorUGAggregationProof :=
  ((vector key).seq ((vector key).seq ((vector key).seq key))).object
    (fun v => (v.amountCommitmentsForRpAggregation, v.y0s, v.y1s, v.c)) (fun (a, b, c, d) =>
      ⟨a, b, c, d⟩)
    fun _ => rfl

structure BGEProof where
  A : PublicKey
  B : PublicKey
  Pk : List PublicKey
  f : List Scalar
  y : Scalar
  z : Scalar

abbrev bgeProof : Codec BGEProof :=
  (key.seq (key.seq ((vector key).seq ((vector key).seq (key.seq key))))).object
    (fun v => (v.A, v.B, v.Pk, v.f, v.y,
      v.z)) (fun (a, b, c, d, e, f) => ⟨a, b, c, d, e, f⟩) fun _ => rfl

structure GenericSchnorrSig where
  c : Scalar
  y : Scalar

abbrev genericSchnorrSig : Codec GenericSchnorrSig :=
  (key.seq key).object (fun v => (v.c, v.y)) (fun (a, b) => ⟨a, b⟩) fun _ => rfl

structure GenericDoubleSchnorrSig where
  c : Scalar
  y0 : Scalar
  y1 : Scalar

abbrev genericDoubleSchnorrSig : Codec GenericDoubleSchnorrSig :=
  (key.seq (key.seq key)).object (fun v => (v.c, v.y0, v.y1)) (fun (a, b, c) => ⟨a, b, c⟩) fun _ =>
    rfl

structure LinearCompositionProof where
  c : Scalar
  y0 : Scalar
  y1 : Scalar

abbrev linearCompositionProof : Codec LinearCompositionProof :=
  (key.seq (key.seq key)).object (fun v => (v.c, v.y0, v.y1)) (fun (a, b, c) => ⟨a, b, c⟩) fun _ =>
    rfl

structure GenericLinearCompositionAndSchnorrSig where
  c : Scalar
  y0 : Scalar
  y1 : Scalar
  y2 : Scalar

abbrev genericLinearCompositionAndSchnorrSig : Codec GenericLinearCompositionAndSchnorrSig :=
  (key.seq (key.seq (key.seq key))).object (fun v => (v.c, v.y0, v.y1, v.y2)) (fun (a, b, c, d) =>
    ⟨a, b, c, d⟩)
    fun _ => rfl

/-! ## Signatures -/

structure NLSAGSig where
  s : List Signature

abbrev nlsagSig : Codec NLSAGSig := (vector (blob 64)).object (·.s) (⟨·⟩) fun _ => rfl

structure ZCSig where
  pseudoOutAmountCommitment : PublicKey
  pseudoOutBlindedAssetId : PublicKey
  clsagsGgx : ClsagGgxSignature

abbrev zcSig : Codec ZCSig :=
  (key.seq (key.seq clsagGgxSignature)).object
    (fun v => (v.pseudoOutAmountCommitment, v.pseudoOutBlindedAssetId,
      v.clsagsGgx)) (fun (a, b, c) => ⟨a, b, c⟩)
    fun _ => rfl

structure ZarcanumSig where
  d : Scalar
  C : PublicKey
  C_prime : PublicKey
  E : PublicKey
  c : Scalar
  y0 : Scalar
  y1 : Scalar
  y2 : Scalar
  y3 : Scalar
  y4 : Scalar
  E_range_proof : BppeSignature
  pseudoOutAmountCommitment : PublicKey
  clsagGgxxg : ClsagGgxxgSignature

abbrev zarcanumSig : Codec ZarcanumSig :=
  (key.seq (key.seq (key.seq (key.seq (key.seq (key.seq (key.seq (key.seq (key.seq (key.seq
    (bppeSignature.seq (key.seq clsagGgxxgSignature)))))))))))).object
    (fun v => (v.d, v.C, v.C_prime, v.E, v.c, v.y0, v.y1, v.y2, v.y3, v.y4, v.E_range_proof,
      v.pseudoOutAmountCommitment, v.clsagGgxxg))
    (fun (a, b, c, d, e, f, g, h, i, j, k, l, m) => ⟨a, b, c, d, e, f, g, h, i, j, k, l, m⟩)
    fun _ => rfl

/-- A Schnorr, an ETH or an EdDSA signature. -/
abbrev GatewaySignatureV := GenericSchnorrSig ⊕ Blob 64 ⊕ Blob 64

abbrev gatewaySignatureV : Codec GatewaySignatureV :=
  variant (.or 70 genericSchnorrSig (.or 71 (blob 64) (.last 68 (blob 64))))

structure GatewaySig where
  version : UInt8
  s : GatewaySignatureV

abbrev gatewaySig : Codec GatewaySig :=
  ((versionToMember 0).seq gatewaySignatureV).object (fun v => (v.version, v.s))
    (fun (a, b) => ⟨a, b⟩) fun _ => rfl

abbrev SignatureV := NLSAGSig ⊕ Unit ⊕ ZCSig ⊕ ZarcanumSig ⊕ GatewaySig

/-- The second type is `void_sig`. -/
def signatureV : Codec SignatureV :=
  variant (.or 42 nlsagSig
    (.or 44 (const ()) (.or 43 zcSig (.or 45 zarcanumSig (.last 67 gatewaySig)))))

instance : signatureV.Whole := by
  unfold signatureV
  infer_instance

instance : signatureV.Marked := by
  unfold signatureV
  infer_instance

/-! ## Proofs -/

structure ZcAssetSurjectionProof where
  bgeProofs : List BGEProof

abbrev zcAssetSurjectionProof : Codec ZcAssetSurjectionProof :=
  (vector bgeProof).object (·.bgeProofs) (⟨·⟩) fun _ => rfl

structure ZcOutsRangeProof where
  bpp : BppSignature
  aggregationProof : VectorUGAggregationProof

abbrev zcOutsRangeProof : Codec ZcOutsRangeProof :=
  (bppSignature.seq vectorUGAggregationProof).object (fun v => (v.bpp, v.aggregationProof))
    (fun (a, b) => ⟨a, b⟩)
    fun _ => rfl

structure ZcBalanceProof where
  dss : GenericDoubleSchnorrSig

abbrev zcBalanceProof : Codec ZcBalanceProof :=
  genericDoubleSchnorrSig.object (·.dss) (⟨·⟩) fun _ => rfl

structure ZcGwBalanceProof where
  lcss : GenericLinearCompositionAndSchnorrSig

abbrev zcGwBalanceProof : Codec ZcGwBalanceProof :=
  genericLinearCompositionAndSchnorrSig.object (·.lcss) (⟨·⟩) fun _ => rfl

structure AssetOperationProof where
  optAmountCommitmentCompositionProof : Option LinearCompositionProof
  optAmountCommitmentGProof : Option Signature
  version : UInt8

abbrev assetOperationProof : Codec AssetOperationProof :=
  ((versionToMember 0).seq ((optional linearCompositionProof).seq (optional (blob 64)))).object
    (fun v => (v.version, v.optAmountCommitmentCompositionProof, v.optAmountCommitmentGProof))
    (fun (version, a, b) => ⟨a, b, version⟩) fun _ => rfl

structure AssetOperationOwnershipProof where
  gss : GenericSchnorrSig
  version : UInt8

abbrev assetOperationOwnershipProof : Codec AssetOperationOwnershipProof :=
  ((versionToMember 0).seq genericSchnorrSig).object (fun v => (v.version, v.gss))
    (fun (version, a) => ⟨a, version⟩)
    fun _ => rfl

structure AssetOperationOwnershipProofEth where
  ethSig : Blob 64
  version : UInt8

abbrev assetOperationOwnershipProofEth : Codec AssetOperationOwnershipProofEth :=
  ((versionToMember 0).seq (blob 64)).object (fun v => (v.version, v.ethSig)) (fun (version, a) =>
    ⟨a, version⟩)
    fun _ => rfl

structure GatewayAddressOwnershipProof where
  version : UInt8
  sign : GatewaySignatureV

abbrev gatewayAddressOwnershipProof : Codec GatewayAddressOwnershipProof :=
  ((versionToMember 0).seq gatewaySignatureV).object (fun v => (v.version, v.sign))
    (fun (a, b) => ⟨a, b⟩)
    fun _ => rfl

abbrev ProofV :=
  ZcAssetSurjectionProof ⊕ ZcOutsRangeProof ⊕ ZcBalanceProof ⊕ AssetOperationProof ⊕
    AssetOperationOwnershipProof ⊕
  AssetOperationOwnershipProofEth ⊕ GatewayAddressOwnershipProof ⊕ ZcGwBalanceProof

def proofV : Codec ProofV :=
  variant (.or 46 zcAssetSurjectionProof (.or 47 zcOutsRangeProof (.or 48 zcBalanceProof
    (.or 50 assetOperationProof
      (.or 51 assetOperationOwnershipProof (.or 52 assetOperationOwnershipProofEth
    (.or 76 gatewayAddressOwnershipProof (.last 77 zcGwBalanceProof))))))))

instance : proofV.Whole := by
  unfold proofV
  infer_instance

instance : proofV.Marked := by
  unfold proofV
  infer_instance

/-! ## The whole transaction -/

structure Transaction extends TransactionPrefix where
  attachment : List PayloadItemsV
  signatures : List SignatureV
  proofs : List ProofV

abbrev Tail := List PayloadItemsV × List SignatureV × List ProofV

def SignatureV.nlsag? : SignatureV → Option (List Signature)
  | .inl sig => some sig.s
  | .inr _ => none

/-- `transition_convert`, which throws at a signature of another kind and drops the proofs. -/
def tailToV1 (tail : Tail) : Option (List (List Signature) × List PayloadItemsV) :=
  (tail.2.1.mapM SignatureV.nlsag?).map fun signatures => (signatures, tail.1)

def tailOfV1 (v1 : List (List Signature) × List PayloadItemsV) : Tail :=
  (v1.2, v1.1.map fun s => .inl ⟨s⟩, [])

theorem tailToV1_tailOfV1 (v1 : List (List Signature) × List PayloadItemsV) :
    tailToV1 (tailOfV1 v1) = some v1 := by
  have signatures := mapM_map SignatureV.nlsag? (fun s => .inl ⟨s⟩) (fun _ => rfl) v1.1
  simp only [tailToV1, tailOfV1, signatures, Option.map_some]

def transactionTail (version : UInt64) : Codec Tail :=
  if version < 2 then
    ((vector (vector (blob 64))).seq (vector payloadItemsV)).convert tailToV1 tailOfV1
      fun v1 inDom => ⟨v1, tailToV1_tailOfV1 v1, inDom, rfl⟩
  else (vector payloadItemsV).seq ((vector signatureV).seq (vector proofV))

instance (version : UInt64) : (transactionTail version).Whole := by
  unfold transactionTail
  infer_instance

def transaction : Codec Transaction :=
  (transactionPrefix.dep fun tx => transactionTail tx.version).object
    (fun tx => (tx.toTransactionPrefix, tx.attachment, tx.signatures, tx.proofs))
    (fun (tx, attachment, signatures, proofs) => ⟨tx, attachment, signatures, proofs⟩) fun _ => rfl

end Zano.Serialization
