import Mathlib

/-! # The balance and asset surjection proofs after hardfork 6

`verify_balance_proof_hf6` and `verify_asset_surjection_proof_hf6`, over any type of points. Public
keys are points premultiplied by 1/8 and are kept as such; decoding is left out. The Schnorr and BGE
verifiers are parameters.

Only the parts of a transaction that the two functions read are here: of `extra` the public key, the
fee entries and the asset operation, of `proofs` the three kinds that are looked up.
-/

namespace Zano.Transactions

/-- The order of the main subgroup of the curve. -/
def groupOrder : Nat := 2 ^ 252 + 27742317777372353535851937790883648493

abbrev Scalar := ZMod groupOrder

/-- For the literal `8`, by which every premultiplied point is multiplied back. -/
instance eight_atLeastTwo : Nat.AtLeastTwo 8 := ⟨by decide⟩

def transactionVersionPostHf6 : Nat := 4

inductive TxinV (P : Type*) where
  | gen
  | toKey (amount : UInt64)
  | multisig
  | zcInput
  | gateway (assetId : P) (amount : UInt64)
  deriving DecidableEq

inductive TxOutV (P : Type*) where
  | bare (amount : UInt64)
  | zarcanum (blindedAssetId amountCommitment : P)
  | gateway (assetId : P) (amount : UInt64)
  deriving DecidableEq

inductive AssetOperationType where
  | undefined
  | register
  | emit
  | update
  | publicBurn
  deriving DecidableEq, Repr

/-- `assetIdPt` is what `get_or_calculate_asset_id` answers; for a registration that is a hash of
the descriptor. -/
structure AssetDescriptorOperation (P : Type*) where
  operationType : AssetOperationType
  optAmountCommitment : Option P
  assetIdPt : Option P

inductive ExtraV (P : Type*) where
  | publicKey (key : P)
  | zarcanumTxDataV1 (fee : UInt64)
  | assetDescriptorOperation (ado : AssetDescriptorOperation P)
  | other

inductive SignatureV (P : Type*) where
  | zcSig (pseudoOutAmountCommitment pseudoOutBlindedAssetId : P)
  | zarcanumSig (pseudoOutAmountCommitment : P)
  | other

inductive ProofV (Sig : Type*) where
  | zcBalanceProof (dss : Sig)
  | zcGwBalanceProof (lcss : Sig)
  | zcAssetSurjectionProof (bgeProofs : List Sig)
  | other

structure Transaction (P Sig : Type*) where
  version : Nat
  vin : List (TxinV P)
  vout : List (TxOutV P)
  extra : List (ExtraV P)
  signatures : List (SignatureV P)
  proofs : List (ProofV Sig)

inductive GeneratorTag where
  | G
  | X
  deriving DecidableEq, Repr

/-- The verifiers of the crypto library, and its constant for the native coin. -/
structure Crypto (P Hash Sig : Type*) where
  nativeCoinAssetId1div8 : P
  nullPkey : P
  verifyDoubleSchnorrSig : GeneratorTag → GeneratorTag → Hash → P → P → Sig → Bool
  verifyLinearCompositionAndSchnorrSig :
    GeneratorTag → GeneratorTag → GeneratorTag → Hash → P → P → Sig → Bool
  verifyBGEProof : Hash → List P → Sig → Bool

/-- 1/8 in the scalar field. -/
def scalar1div8 : Scalar := ((groupOrder * 3 + 1) / 8 : Nat)

namespace Transaction

variable {P Hash Sig : Type*}

def isCoinbase (tx : Transaction P Sig) : Bool :=
  match tx.vin with
  | [.gen] => true
  | [.gen, _] => true
  | _ => false

/-- `get_tx_fee` of a transaction whose amounts are hidden: all fee entries of `extra`,
added in 64 bits. -/
def getTxFee (tx : Transaction P Sig) : Option UInt64 :=
  if tx.isCoinbase then some 0
  else
    match tx.extra.filterMap (fun | .zarcanumTxDataV1 fee => some fee | _ => none) with
    | [] => none
    | fees => some fees.sum

def getTxPubKeyFromExtra (crypto : Crypto P Hash Sig) (tx : Transaction P Sig) : P :=
  (tx.extra.findSome? (fun | .publicKey key => some key | _ => none)).getD crypto.nullPkey

def assetOperation (tx : Transaction P Sig) : Option (AssetDescriptorOperation P) :=
  tx.extra.findSome? (fun | .assetDescriptorOperation ado => some ado | _ => none)

def zcBalanceProof (tx : Transaction P Sig) : Option Sig :=
  tx.proofs.findSome? (fun | .zcBalanceProof dss => some dss | _ => none)

def zcGwBalanceProof (tx : Transaction P Sig) : Option Sig :=
  tx.proofs.findSome? (fun | .zcGwBalanceProof lcss => some lcss | _ => none)

def zcAssetSurjectionProof (tx : Transaction P Sig) : Option (List Sig) :=
  tx.proofs.findSome? (fun | .zcAssetSurjectionProof bgeProofs => some bgeProofs | _ => none)

end Transaction

def assignAddWithOverflowCheck (value result : UInt64) : Option UInt64 :=
  if result + value < result then none else some (result + value)

section Balance

variable {P Hash Sig : Type*} [AddCommGroup P] [Module Scalar P] [DecidableEq P]

/-! ## The balance proof -/

/-- The variables of the loop over the inputs. -/
structure InputsTally (P : Type*) where
  zcInputsCount : Nat
  confidentialInputsCount : Nat
  bareInputsNativeAmountsSum : UInt64
  inputsCommitmentsSum : P
  hasOnlyNativeCoinBareInputs : Bool

def tallyInput (crypto : Crypto P Hash Sig) (tally : InputsTally P) :
    TxinV P → Option (InputsTally P)
  | .gen => some tally
  | .toKey amount =>
      (assignAddWithOverflowCheck amount tally.bareInputsNativeAmountsSum).map fun sum =>
        { tally with bareInputsNativeAmountsSum := sum }
  | .zcInput => some { tally with
      hasOnlyNativeCoinBareInputs := false
      zcInputsCount := tally.zcInputsCount + 1
      confidentialInputsCount := tally.confidentialInputsCount + 1 }
  | .gateway assetId amount =>
      if assetId = crypto.nativeCoinAssetId1div8 then
        (assignAddWithOverflowCheck amount tally.bareInputsNativeAmountsSum).map fun sum =>
          { tally with bareInputsNativeAmountsSum := sum }
      else some { tally with
        hasOnlyNativeCoinBareInputs := false
        inputsCommitmentsSum := tally.inputsCommitmentsSum + (amount.toNat : Scalar) • assetId }
  | .multisig => none

structure OutsTally (P : Type*) where
  bareOutsNativeAmountsSum : UInt64
  outsCommitmentsSum : P
  confidentialOutsCount : Nat

def tallyOut (crypto : Crypto P Hash Sig) (tally : OutsTally P) : TxOutV P → Option (OutsTally P)
  | .zarcanum _ amountCommitment => some { tally with
      confidentialOutsCount := tally.confidentialOutsCount + 1
      outsCommitmentsSum := tally.outsCommitmentsSum + amountCommitment }
  | .gateway assetId amount =>
      if assetId = crypto.nativeCoinAssetId1div8 then
        (assignAddWithOverflowCheck amount tally.bareOutsNativeAmountsSum).map fun sum =>
          { tally with bareOutsNativeAmountsSum := sum }
      else some { tally with
        outsCommitmentsSum := tally.outsCommitmentsSum + (amount.toNat : Scalar) • assetId }
  | .bare _ => some tally

/-- What an asset operation adds to the input and the output commitments, and whether
it counts as one. -/
def assetOperationCommitments : Option (AssetDescriptorOperation P) → Option (P × P × Bool)
  | none => some (0, 0, false)
  | some ado =>
      match ado.operationType with
      | .register | .emit => ado.optAmountCommitment.map fun commitment => (commitment, 0, true)
      | .publicBurn => ado.optAmountCommitment.map fun commitment => (0, commitment, true)
      | .undefined | .update => some (0, 0, false)

/-- The commitments that the signatures put in the place of confidential inputs. A Zarcanum
signature is for the native coin. -/
def pseudoOuts (crypto : Crypto P Hash Sig) (signatures : List (SignatureV P)) : List (P × P) :=
  signatures.filterMap fun
    | .zcSig commitment blindedAssetId => some (commitment, blindedAssetId)
    | .zarcanumSig commitment => some (commitment, crypto.nativeCoinAssetId1div8)
    | .other => none

def commitmentToZero (crypto : Crypto P Hash Sig) (bareIns fee bareOuts : UInt64)
    (ins outs : P) : P :=
  ((bareIns.toNat : Scalar) - (fee.toNat : Scalar) - (bareOuts.toNat : Scalar)) •
      ((8 : Scalar) • crypto.nativeCoinAssetId1div8) +
    (8 : Scalar) • ins - (8 : Scalar) • outs

/-- The proof that is asked for depends on the kinds of inputs and outputs. -/
def checkBalanceProof (crypto : Crypto P Hash Sig) (tx : Transaction P Sig) (txId : Hash)
    (inputs : InputsTally P) (confidentialOutsCount : Nat) (hasAssetOperation : Bool)
    (toZero : P) : Bool :=
  let txPubKey := tx.getTxPubKeyFromExtra crypto
  if inputs.confidentialInputsCount = 0 then
    if inputs.hasOnlyNativeCoinBareInputs then
      match tx.zcBalanceProof with
      | none => false
      | some dss => crypto.verifyDoubleSchnorrSig .G .G txId toZero txPubKey dss
    else if confidentialOutsCount = 0 then decide (toZero = 0) && !hasAssetOperation
    else
      match tx.zcGwBalanceProof with
      | none => false
      | some lcss => crypto.verifyLinearCompositionAndSchnorrSig .G .X .G txId toZero txPubKey lcss
  else
    match tx.zcBalanceProof with
    | none => false
    | some dss => crypto.verifyDoubleSchnorrSig .X .G txId toZero txPubKey dss

/-- `verify_balance_proof_hf6`. The last argument is nonzero for miner transactions only. -/
def verifyBalanceProofHf6 (crypto : Crypto P Hash Sig) (tx : Transaction P Sig) (txId : Hash)
    (additionalInputsAmountAndFeesForMiningTx : UInt64) : Bool :=
  if tx.version < transactionVersionPostHf6 then false
  else
    match tx.vin.foldlM (tallyInput crypto)
      ⟨0, 0, additionalInputsAmountAndFeesForMiningTx, 0, true⟩,
        tx.vout.foldlM (tallyOut crypto) ⟨0, 0, 0⟩, assetOperationCommitments tx.assetOperation with
    | some inputs, some outs, some (emitted, burned, hasAssetOperation) =>
        let fee := tx.getTxFee
        if fee.isNone ∧ additionalInputsAmountAndFeesForMiningTx = 0 then false
        else if additionalInputsAmountAndFeesForMiningTx ≠ 0 ∧ fee.getD 0 ≠ 0 then false
        else
          let sigs := pseudoOuts crypto tx.signatures
          if inputs.zcInputsCount ≠ sigs.length then false
          else
            checkBalanceProof crypto tx txId inputs outs.confidentialOutsCount hasAssetOperation
              (commitmentToZero crypto inputs.bareInputsNativeAmountsSum (fee.getD 0)
                outs.bareOutsNativeAmountsSum
                (inputs.inputsCommitmentsSum + emitted + (sigs.map (·.1)).sum)
                (outs.outsCommitmentsSum + burned))
    | _, _, _ => false

/-! ## The asset surjection proof -/

/-- The variables of the loop over the inputs; the ring holds the gateway asset ids so far. -/
structure RingTally (P : Type*) where
  ring : List P
  hasOnlyNativeCoinBareInputs : Bool
  hasNativeCoinBareInputs : Bool

def tallyRing (crypto : Crypto P Hash Sig) (tally : RingTally P) : TxinV P → Option (RingTally P)
  | .gen | .toKey _ => some { tally with hasNativeCoinBareInputs := true }
  | .zcInput => some { tally with hasOnlyNativeCoinBareInputs := false }
  | .gateway assetId _ =>
      if assetId = crypto.nativeCoinAssetId1div8 then
        some { tally with hasNativeCoinBareInputs := true }
      else some { tally with
        hasOnlyNativeCoinBareInputs := false
        ring := tally.ring ++ [(8 : Scalar) • assetId] }
  | .multisig => none

def isAssetEmitting (ado : AssetDescriptorOperation P) : Bool :=
  match ado.operationType with
  | .register | .emit => true
  | _ => false

/-- The ring member for an emission, or a failure to find the asset id. -/
def emittedRingMember : Option (AssetDescriptorOperation P) → Option (List P)
  | none => some []
  | some ado => if isAssetEmitting ado then ado.assetIdPt.map ([·]) else some []

def zarcanumOuts (vout : List (TxOutV P)) : List (P × P) :=
  vout.filterMap fun
    | .zarcanum blindedAssetId amountCommitment => some (blindedAssetId, amountCommitment)
    | _ => none

/-- Each confidential output against the ring, as differences premultiplied by 1/8. -/
def verifyRings (crypto : Crypto P Hash Sig) (txId : Hash) (ring : List P) :
    List (P × P) → List Sig → Bool
  | (blindedAssetId, _) :: outs, bgeProof :: bgeProofs =>
      crypto.verifyBGEProof txId
          (ring.map fun member => scalar1div8 • (member - (8 : Scalar) • blindedAssetId))
            bgeProof &&
        verifyRings crypto txId ring outs bgeProofs
  | [], [] => true
  | _, _ => false

/-- The ring members for confidential inputs. -/
def confidentialRing (signatures : List (SignatureV P)) : List P :=
  signatures.filterMap fun
    | .zcSig _ blindedAssetId => some ((8 : Scalar) • blindedAssetId)
    | _ => none

/-- `verify_asset_surjection_proof_hf6`. Zarcanum signatures add nothing to the ring. -/
def verifyAssetSurjectionProofHf6 (crypto : Crypto P Hash Sig) (tx : Transaction P Sig)
    (txId : Hash) :
    Bool :=
  if tx.version < transactionVersionPostHf6 then false
  else
    match tx.vin.foldlM (tallyRing crypto) ⟨[], true, false⟩ with
    | none => false
    | some tally =>
        let outs := zarcanumOuts tx.vout
        if tally.hasOnlyNativeCoinBareInputs ∧
            ¬ outs.all (fun out => decide (out.1 = crypto.nativeCoinAssetId1div8)) then false
        else if outs = [] ∨ tally.hasOnlyNativeCoinBareInputs then true
        else
          match emittedRingMember tx.assetOperation, tx.zcAssetSurjectionProof with
          | some emitted, some bgeProofs =>
              let nativeRing :=
                if tally.hasNativeCoinBareInputs then [(8 : Scalar) • crypto.nativeCoinAssetId1div8]
                else []
              if bgeProofs.length ≠ outs.length then false
              else verifyRings crypto txId
                (tally.ring ++ nativeRing ++ confidentialRing tx.signatures ++ emitted)
                outs bgeProofs
          | _, _ => false

end Balance

end Zano.Transactions
