import Mathlib

/-! # The asset store

`put_asset_info` and `pop_asset_info` with the validation before and after hardfork 5. Before it
every operation appends a full descriptor, after it `emit` and `publicBurn` change the supply in the
latest entry.

Histories are kept latest first; an asset without a history is one that is not registered. The hash
behind asset ids and the verification of signatures are parameters.
-/

namespace Zano.Assets

inductive OperationType where
  | undefined
  | register
  | emit
  | update
  | publicBurn
  deriving DecidableEq, Repr

structure AssetDescriptorBase (PublicKey EthPublicKey : Type*) where
  totalMaxSupply : UInt64
  currentSupply : UInt64
  decimalPoint : UInt8
  ticker : String
  fullName : String
  metaInfo : String
  owner : PublicKey
  hiddenSupply : Bool
  ownerEthPubKey : Option EthPublicKey
  deriving DecidableEq, Repr

structure AssetDescriptorOperation (AssetId PublicKey EthPublicKey : Type*) where
  operationType : OperationType
  optAmountCommitment : Option PublicKey
  optAssetId : Option AssetId
  optDescriptor : Option (AssetDescriptorBase PublicKey EthPublicKey)
  optAmount : Option UInt64
  optAssetIdSalt : Option UInt32
  deriving DecidableEq, Repr

/-- What the validation reads of the proofs of a transaction: both kinds of ownership proofs, and
the G proofs of the amount commitments of all asset operation proofs. -/
structure Proofs (Signature : Type*) where
  ownershipProof : Option Signature
  ownershipProofEth : Option Signature
  operationProofs : List (Option Signature)
  deriving DecidableEq, Repr

/-- `asset_op_verification_context` as it comes in. -/
structure Operation (Hash AssetId PublicKey EthPublicKey Signature : Type*) where
  txId : Hash
  proofs : Proofs Signature
  ado : AssetDescriptorOperation AssetId PublicKey EthPublicKey
  height : Nat
  deriving DecidableEq, Repr

structure Rules (Hash AssetId PublicKey EthPublicKey Signature : Type*) where
  isHardfork05Active : Nat → Bool
  isHardfork06Active : Nat → Bool
  nullPkey : PublicKey
  calculateAssetId : AssetDescriptorBase PublicKey EthPublicKey → Option UInt32 → AssetId
  verifySchnorrSig : Hash → PublicKey → Signature → Bool
  verifyEthSignature : Hash → EthPublicKey → Signature → Bool
  checkAmountCommitment : Hash → PublicKey → UInt64 → AssetId → Signature → Bool

/-- `m_db_assets`. -/
abbrev AssetStore (AssetId PublicKey EthPublicKey : Type*) :=
  AssetId → List (AssetDescriptorOperation AssetId PublicKey EthPublicKey)

section Validation

variable {Hash AssetId PublicKey EthPublicKey Signature : Type*}

/-! ## Descriptors -/

def validateAssetTicker (ticker : String) : Bool :=
  ticker.toList.all Char.isAlphanum && 1 ≤ ticker.length && ticker.length ≤ 14

def validateAssetFullName (fullName : String) : Bool :=
  fullName.toList.all (fun c => c.isAlphanum || c ∈ ".,:!?-() ".toList) && fullName.length ≤ 400

def assetMetaInfoMaxSize : Nat := 4000

def validateAssetMetaInfo (metaInfo : String) : Bool := metaInfo.utf8ByteSize ≤ assetMetaInfoMaxSize

def validateAssetTickerFullNameAndMetaInfo
    (adb : AssetDescriptorBase PublicKey EthPublicKey) : Bool :=
  validateAssetTicker adb.ticker && validateAssetFullName adb.fullName &&
    validateAssetMetaInfo adb.metaInfo

def validateAdoUpdateAllowed (newAdo prevAdo : AssetDescriptorBase PublicKey EthPublicKey)
    (hf6Active : Bool) : Bool :=
  newAdo.totalMaxSupply = prevAdo.totalMaxSupply && newAdo.currentSupply ≤ prevAdo.totalMaxSupply &&
    newAdo.decimalPoint = prevAdo.decimalPoint && newAdo.ticker = prevAdo.ticker &&
    newAdo.fullName = prevAdo.fullName && newAdo.hiddenSupply = prevAdo.hiddenSupply &&
    (!hf6Active || validateAssetMetaInfo newAdo.metaInfo)

def validateAdoInitial (newAdo : AssetDescriptorBase PublicKey EthPublicKey)
    (hf6Active : Bool) : Bool :=
  newAdo.currentSupply ≤ newAdo.totalMaxSupply &&
    (!hf6Active || validateAssetTickerFullNameAndMetaInfo newAdo)

/-! ## Operations -/

variable (rules : Rules Hash AssetId PublicKey EthPublicKey Signature)

def getOrCalculateAssetId
    (ado : AssetDescriptorOperation AssetId PublicKey EthPublicKey) : Option AssetId :=
  match ado.operationType with
  | .emit | .update | .publicBurn => ado.optAssetId
  | .register => ado.optDescriptor.map fun adb => rules.calculateAssetId adb ado.optAssetIdSalt
  | .undefined => none

/-- A descriptor with hidden supply never passes. -/
def validateAssetOperationAmountCommitment
    (op : Operation Hash AssetId PublicKey EthPublicKey Signature) (assetId : AssetId)
    (amountToValidate : UInt64) : Bool :=
  match op.proofs.operationProofs with
  | [gProof] =>
      if op.ado.optDescriptor.any (·.hiddenSupply) then false
      else
        match gProof, op.ado.optAmountCommitment with
        | some gProof, some commitment =>
            rules.checkAmountCommitment op.txId commitment amountToValidate assetId gProof
        | _, _ => false
  | _ => false

variable [DecidableEq PublicKey]

def validateAdoOwnership (op : Operation Hash AssetId PublicKey EthPublicKey Signature)
    (lastAdb : AssetDescriptorBase PublicKey EthPublicKey) : Bool :=
  match lastAdb.ownerEthPubKey, rules.isHardfork05Active op.height with
  | some ethKey, true =>
      lastAdb.owner =
        rules.nullPkey && op.proofs.ownershipProofEth.any (rules.verifyEthSignature op.txId ethKey)
  | _, _ => op.proofs.ownershipProof.any (rules.verifySchnorrSig op.txId lastAdb.owner)

/-- The latest descriptor of an asset that is registered. -/
def lastDescriptor (history : List (AssetDescriptorOperation AssetId PublicKey EthPublicKey)) :
    Option (AssetDescriptorBase PublicKey EthPublicKey) :=
  history.head?.bind (·.optDescriptor)

/-- The answer of the validation is `amount_to_validate`. -/
def validateAssetOperationHf4 (op : Operation Hash AssetId PublicKey EthPublicKey Signature)
    (assetId : AssetId)
    (history : List (AssetDescriptorOperation AssetId PublicKey EthPublicKey)) : Option UInt64 :=
  match op.ado.operationType with
  | .register =>
      match op.ado.optDescriptor with
      | none => none
      | some adb =>
          if history = [] ∧ adb.ownerEthPubKey.isNone ∧ op.ado.optAssetIdSalt.isNone ∧
              validateAssetOperationAmountCommitment rules op assetId adb.currentSupply then
            some adb.currentSupply
          else none
  | type =>
      match lastDescriptor history, op.ado.optDescriptor with
      | some lastAdb, some adb =>
          match type with
          | .update =>
              if validateAdoOwnership rules op lastAdb ∧ adb.currentSupply = lastAdb.currentSupply ∧
                  validateAdoUpdateAllowed adb lastAdb false then some 0
              else none
          | .emit =>
              if validateAdoOwnership rules op lastAdb ∧ lastAdb.currentSupply < adb.currentSupply ∧
                  validateAdoUpdateAllowed adb lastAdb false ∧ adb.metaInfo = lastAdb.metaInfo ∧
                  validateAssetOperationAmountCommitment rules op assetId
                    (adb.currentSupply - lastAdb.currentSupply) then
                some (adb.currentSupply - lastAdb.currentSupply)
              else none
          | .publicBurn =>
              if adb.currentSupply < lastAdb.currentSupply ∧
                validateAdoUpdateAllowed adb lastAdb false ∧
                  adb.metaInfo = lastAdb.metaInfo ∧
                  validateAssetOperationAmountCommitment rules op assetId
                    (lastAdb.currentSupply - adb.currentSupply) then
                some (lastAdb.currentSupply - adb.currentSupply)
              else none
          | _ => none
      | _, _ => none

/-- `hidden_supply` leaves the amount at zero, and the operation is refused later. -/
def amountIfShown (lastAdb : AssetDescriptorBase PublicKey EthPublicKey) (optAmount : Option UInt64)
    (allowed : UInt64 → Bool) : Option UInt64 :=
  if lastAdb.hiddenSupply then some 0
  else
    match optAmount with
    | none => none
    | some amount => if allowed amount then some amount else none

def validateAssetOperationHf5 (op : Operation Hash AssetId PublicKey EthPublicKey Signature)
    (assetId : AssetId)
    (history : List (AssetDescriptorOperation AssetId PublicKey EthPublicKey)) : Option UInt64 :=
  let hf6Active := rules.isHardfork06Active op.height
  let withCommitment (amount : UInt64) : Option UInt64 :=
    if validateAssetOperationAmountCommitment rules op assetId amount then some amount else none
  match op.ado.operationType with
  | .register =>
      match op.ado.optDescriptor with
      | none => none
      | some adb =>
          if history = [] ∧ validateAdoInitial adb hf6Active ∧
            op.ado.optAmount = some adb.currentSupply then
            withCommitment adb.currentSupply
          else none
  | type =>
      match lastDescriptor history with
      | none => none
      | some lastAdb =>
          match type with
          | .update =>
              match op.ado.optDescriptor with
              | none => none
              | some adb =>
                  if validateAdoOwnership rules op lastAdb ∧
                    adb.currentSupply = lastAdb.currentSupply ∧
                      validateAdoUpdateAllowed adb lastAdb hf6Active then some 0
                  else none
          | .emit =>
              if validateAdoOwnership rules op lastAdb then
                (amountIfShown lastAdb op.ado.optAmount fun amount =>
                  lastAdb.currentSupply ≤ lastAdb.currentSupply + amount &&
                    lastAdb.currentSupply + amount ≤ lastAdb.totalMaxSupply).bind withCommitment
              else none
          | .publicBurn =>
              (amountIfShown lastAdb op.ado.optAmount fun amount =>
                lastAdb.currentSupply - amount ≤ lastAdb.currentSupply).bind withCommitment
          | _ => none

def validateAssetOperation (op : Operation Hash AssetId PublicKey EthPublicKey Signature)
    (assetId : AssetId)
    (history : List (AssetDescriptorOperation AssetId PublicKey EthPublicKey)) : Option UInt64 :=
  if rules.isHardfork05Active op.height then validateAssetOperationHf5 rules op assetId history
  else validateAssetOperationHf4 rules op assetId history

/-! ## Putting and popping -/

/-- The latest entry with another supply. -/
def changeSupply (ado : AssetDescriptorOperation AssetId PublicKey EthPublicKey)
    (change : UInt64 → UInt64) :
    AssetDescriptorOperation AssetId PublicKey EthPublicKey :=
  { ado with optDescriptor :=
      ado.optDescriptor.map fun adb => { adb with currentSupply := change adb.currentSupply } }

/-- `emit` and `public_burn` in the latest entry; hidden supply is not supported. -/
def changeLast (history : List (AssetDescriptorOperation AssetId PublicKey EthPublicKey))
    (optAmount : Option UInt64) (change : UInt64 → UInt64 → UInt64) :
    Option (List (AssetDescriptorOperation AssetId PublicKey EthPublicKey)) :=
  match history with
  | [] => none
  | lastAdo :: earlier =>
      match lastAdo.optDescriptor, optAmount with
      | some lastAdb, some amount =>
          if lastAdb.hiddenSupply then none
          else some (changeSupply lastAdo (change · amount) :: earlier)
      | _, _ => none

variable [DecidableEq AssetId]

def putAssetInfo (assets : AssetStore AssetId PublicKey EthPublicKey)
    (op : Operation Hash AssetId PublicKey EthPublicKey Signature) :
    Option (AssetStore AssetId PublicKey EthPublicKey) :=
  (getOrCalculateAssetId rules op.ado).bind fun assetId =>
    (validateAssetOperation rules op assetId (assets assetId)).bind fun _ =>
      (if rules.isHardfork05Active op.height then
        match op.ado.operationType with
        | .register | .update => some (op.ado :: assets assetId)
        | .emit => changeLast (assets assetId) op.ado.optAmount (· + ·)
        | .publicBurn => changeLast (assets assetId) op.ado.optAmount (· - ·)
        | .undefined => none
      else some (op.ado :: assets assetId)).map (Function.update assets assetId)

def popAssetInfo (assets : AssetStore AssetId PublicKey EthPublicKey)
    (op : Operation Hash AssetId PublicKey EthPublicKey Signature) :
    Option (AssetStore AssetId PublicKey EthPublicKey) :=
  (getOrCalculateAssetId rules op.ado).bind fun assetId =>
    (match assets assetId with
    | [] => none
    | lastAdo :: earlier =>
        if rules.isHardfork05Active op.height then
          if lastAdo.optDescriptor.isNone then none
          else
            match op.ado.operationType with
            | .register | .update => some earlier
            | .emit => changeLast (lastAdo :: earlier) op.ado.optAmount (· - ·)
            | .publicBurn => changeLast (lastAdo :: earlier) op.ado.optAmount (· + ·)
            | .undefined => none
        else some earlier).map (Function.update assets assetId)

end Validation

end Zano.Assets
