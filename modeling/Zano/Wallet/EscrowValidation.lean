import Zano.Lib.Checks
import Zano.Serialization.Witness
import Zano.Transactions.PayloadEncryption

/-! # What a wallet checks of an escrow

The other party of a contract sends templates of transactions: A sends the template that puts the
pledges of both into a multisig output, B sends the templates that release this output, and A may
send a template that cancels the contract. The wallet checks these templates before it takes account
of them.

Amounts are summed up in 64 bits, and the fee is the difference of two amounts that is read as a
signed number. Of the signatures one is checked, unless the signature is of a kind that is not
looked at.
-/

namespace Zano.Wallet.EscrowValidation

open Serialization PayloadEncryption Checks

/-! ## Items of a transaction -/

abbrev Tx := Serialization.Transaction

def asService : PayloadItemsV → Option TxServiceAttachment
  | serviceItem sa => some sa
  | _ => none

def asUnlockTime : PayloadItemsV → Option EtcTxDetailsUnlockTime
  | .inr (.inr (.inr (.inr (.inr (.inr (.inr (.inr (.inl v)))))))) => some v
  | _ => none

def asExpirationTime : PayloadItemsV → Option EtcTxDetailsExpirationTime
  | .inr (.inr (.inr (.inr (.inr (.inr (.inr (.inr (.inr (.inl v))))))))) => some v
  | _ => none

def asFlags : PayloadItemsV → Option EtcTxDetailsFlags
  | .inr (.inr (.inr (.inr (.inr (.inr (.inr (.inr (.inr (.inr (.inl v)))))))))) => some v
  | _ => none

def asAttachmentInfo : PayloadItemsV → Option ExtraAttachmentInfo
  | .inr (.inr (.inr (.inr (.inr (.inr (.inr (.inr (.inr (.inr (.inr (.inr (.inl v)))))))))))) =>
      some v
  | _ => none

def asUnlockTime2 : PayloadItemsV → Option EtcTxDetailsUnlockTime2
  | .inr (.inr
    (.inr (.inr (.inr (.inr (.inr (.inr (.inr (.inr (.inr (.inr (.inr (.inr (.inr (.inr (.inr
      (.inl v))))))))))))))))) => some v
  | _ => none

def asSignedParts : TxinEtcDetailsV → Option SignedParts
  | .inl v => some v
  | .inr _ => none

def asDetailsAttachmentInfo : TxinEtcDetailsV → Option ExtraAttachmentInfo
  | .inl _ => none
  | .inr v => some v

/-- Why a validator does not accept: a check answers `false`, an exception is thrown, or an element
is read that is not there. -/
inductive Failure where
  | refused
  | thrown
  | outOfRange
  deriving DecidableEq, Repr

def getTxFlags (tx : Tx) : UInt64 := ((tx.extra.findSome? asFlags).map (·.v)).getD 0

def getTxExpirationTime (tx : Tx) : UInt64 :=
  ((tx.extra.findSome? asExpirationTime).map (·.v)).getD 0

def unlockTime (tx : Tx) : UInt64 := ((tx.extra.findSome? asUnlockTime).map (·.v)).getD 0

def unlockTimeArray (tx : Tx) : List UInt64 :=
  ((tx.extra.findSome? asUnlockTime2).map (·.unlockTimeArray)).getD []

def getTxMaxUnlockTime (tx : Tx) : Except Failure UInt64 :=
  if unlockTime tx ≠ 0 then .ok (unlockTime tx)
  else if unlockTimeArray tx = [] then .ok 0
  else if (unlockTimeArray tx).length = tx.vout.length then .ok ((unlockTimeArray tx).foldl max 0)
  else .error .thrown

def checkUnlockTime (tx : Tx) : Except Failure Unit := do
  let unlockTime ← getTxMaxUnlockTime tx
  require .refused (unlockTime = 0)

def payload (tx : Tx) : PayloadEncryption.Transaction := ⟨tx.version.toNat, tx.extra, tx.attachment⟩

/-! ## Escrow -/

def txDefaultFee : UInt64 := 10000000000
def txMinimumFee : UInt64 := 10000000000
def txFlagSignatureModeSeparate : UInt64 := 1

def bcEscrowServiceId : Bytes := [69]
/-- "DETAILS" -/
def bcEscrowServiceInstructionPrivateDetails : Bytes := [68, 69, 84, 65, 73, 76, 83]
/-- "REL_TEMPL" -/
def bcEscrowServiceInstructionReleaseTemplates : Bytes := [82, 69, 76, 95, 84, 69, 77, 80, 76]
/-- "REL_N" -/
def bcEscrowServiceInstructionReleaseNormal : Bytes := [82, 69, 76, 95, 78]
/-- "REL_B" -/
def bcEscrowServiceInstructionReleaseBurn : Bytes := [82, 69, 76, 95, 66]
/-- "REL_C" -/
def bcEscrowServiceInstructionReleaseCancel : Bytes := [82, 69, 76, 95, 67]

/-- `contract_private_details`, as far as it is checked. -/
structure ContractPrivateDetails where
  aAddr : AccountPublicAddress
  bAddr : AccountPublicAddress
  amountToPay : UInt64
  amountAPledge : UInt64
  amountBPledge : UInt64

structure ProposalBody where
  txTemplate : Tx
  txOnetimeSecretKey : SecretKey

structure EscrowReleseTemplatesBody where
  txNormalTemplate : Tx
  txBurnTemplate : Tx

structure WalletTransferInfo where
  tx : Tx
  isIncomeModeEncryption : Bool

structure Account where
  accountAddress : AccountPublicAddress
  keys : AccountKeys

/-- Keys, hashes, signatures, json and archives. -/
structure Primitives where
  crypto : PayloadEncryption.Crypto
  derivePublicKey : KeyDerivation → ℕ → PublicKey → Option PublicKey
  checkSignature : Hash → PublicKey → Signature → Bool
  getTransactionHash : Tx → Hash
  preparePrefixHashForSign : Tx → ℕ → Hash → Hash
  getMultisigOutId : Tx → ℕ → Hash
  loadContractPrivateDetails : Bytes → Option ContractPrivateDetails
  unserializeReleaseTemplates : Bytes → Option EscrowReleseTemplatesBody

def nullSig : Signature := Blob.filled 64 0

def getFirstServiceAttachmentById (items : List PayloadItemsV) (id instruction : Bytes) :
    Option TxServiceAttachment :=
  items.findSome? fun item => (asService item).filter fun sa =>
    sa.serviceId = id && sa.instruction = instruction

/-- There is a derived key only if there is a derivation. -/
def outputKey (p : Primitives) (viewPublicKey : PublicKey) (secretKey : SecretKey) (i : ℕ)
    (spendPublicKey : PublicKey) :
    Option PublicKey :=
  (p.crypto.generateKeyDerivation viewPublicKey secretKey).bind fun der =>
    p.derivePublicKey der i spendPublicKey

def getAttachmentExtraInfoDetails (p : Primitives)
    (attachment : List PayloadItemsV) : ExtraAttachmentInfo :=
  let (buff, written) := (vector payloadItemsV).write attachment
  if attachment = [] ∨ !written then ⟨0, Blob.filled 32 0, 0⟩
  else ⟨UInt64.ofNat buff.length, p.crypto.cnFastHash buff, UInt64.ofNat attachment.length⟩

/-- `validate_attachment_info` without leave to have attachments and no information on them. -/
def validateAttachmentInfo (p : Primitives) (extra attachment : List PayloadItemsV) : Prop :=
  let eai := extra.findSome? asAttachmentInfo
  let expected := getAttachmentExtraInfoDetails p attachment
  let given := eai.getD ⟨0, Blob.filled 32 0, 0⟩
  (eai.isSome ↔ attachment ≠ []) ∧ given.cnt.toNat = attachment.length ∧
    given.cnt = expected.cnt ∧ given.hsh = expected.hsh ∧ given.sz = expected.sz

instance (p : Primitives) (extra attachment : List PayloadItemsV) :
    Decidable (validateAttachmentInfo p extra attachment) := by
  unfold validateAttachmentInfo
  infer_instance

/-! ## The proposal -/

section Proposal

/-- One input of the template, with the sum so far. -/
def proposalInput (tx : Tx) (inputsAmount : UInt64) : TxinV → Except Failure UInt64
  | .inr (.inl inToKey) => do
      let sp ← found .refused (inToKey.etcDetails.findSome? asSignedParts)
      require .refused (sp.nExtras.toNat = tx.extra.length)
      require .refused (sp.nOuts.toNat = tx.vout.length)
      .ok (inputsAmount + inToKey.amount)
  | _ => .error .refused

def proposalInputs (tx : Tx) : List TxinV → UInt64 → Except Failure UInt64
  | [], inputsAmount => .ok inputsAmount
  | inp :: rest, inputsAmount => do
      let inputsAmount ← proposalInput tx inputsAmount inp
      proposalInputs tx rest inputsAmount

/-- The outputs from one index on, with the sum of those to keys and the index of the multisig
output so far. Outputs that are not bare are passed over. -/
def proposalOutputs : ℕ → List TxOutV → UInt64 → Option ℕ → Except Failure (UInt64 × Option ℕ)
  | _, [], toKeyOutputsAmount, msOutIndex => .ok (toKeyOutputsAmount, msOutIndex)
  | i, .inl ⟨_, .inr _⟩ :: rest, toKeyOutputsAmount, msOutIndex => do
      require .refused (msOutIndex = none)
      proposalOutputs (i + 1) rest toKeyOutputsAmount (some i)
  | i, .inl ⟨amount, .inl _⟩ :: rest, toKeyOutputsAmount, msOutIndex =>
      proposalOutputs (i + 1) rest (toKeyOutputsAmount + amount) msOutIndex
  | i, .inr _ :: rest, toKeyOutputsAmount, msOutIndex =>
      proposalOutputs (i + 1) rest toKeyOutputsAmount msOutIndex

/-- `boost::get` of a multisig output that is bare. -/
def multisigOut (vout : List TxOutV) (n : ℕ) : Except Failure (UInt64 × TxoutMultisig) :=
  match vout[n]? with
  | none => .error .outOfRange
  | some (.inl ⟨amount, .inr ms⟩) => .ok (amount, ms)
  | some _ => .error .thrown

/-- The amounts, as far as they are compared. -/
def proposalAmounts (cpd : ContractPrivateDetails)
    (msAmount inputsAmount toKeyOutputsAmount : UInt64) :
    Except Failure Unit := do
  require .refused (0 < cpd.amountBPledge + cpd.amountToPay)
  require .refused
    (cpd.amountAPledge + cpd.amountBPledge + cpd.amountToPay + txDefaultFee ≤ msAmount)
  require .refused (toKeyOutputsAmount < inputsAmount)
  require .refused (cpd.amountAPledge + cpd.amountToPay ≤ inputsAmount - toKeyOutputsAmount)

def proposalKeys (p : Primitives) (prop : ProposalBody) (cpd : ContractPrivateDetails)
    (msOutIndex : ℕ) (ms : TxoutMultisig) : Except Failure Unit := do
  require .refused (ms.minimumSigs = 2)
  require .refused (ms.keys.length = 2)
  let aKey ← found .refused
    (outputKey p cpd.aAddr.viewPublicKey prop.txOnetimeSecretKey msOutIndex
      cpd.aAddr.spendPublicKey)
  let bKey ← found .refused
    (outputKey p cpd.bAddr.viewPublicKey prop.txOnetimeSecretKey msOutIndex
      cpd.bAddr.spendPublicKey)
  require .refused (ms.keys = [aKey, bKey] ∨ ms.keys = [bKey, aKey])

/-- The private details among the items that were decrypted. -/
def proposalDetails (p : Primitives) (decryptedItems : List PayloadItemsV) :
    Except Failure ContractPrivateDetails := do
  let tsa ← found .refused
    (getFirstServiceAttachmentById decryptedItems bcEscrowServiceId
      bcEscrowServiceInstructionPrivateDetails)
  require .refused (tsa.flags &&& txServiceAttachmentEncryptBody ≠ 0)
  found .refused (p.loadContractPrivateDetails tsa.body)

/-- "(1/5) inputs", after what is left to check of the proposal itself. -/
def checkProposalInputs (escrowProposalTx txTemplate : Tx) : Except Failure UInt64 := do
  require .refused (getTxExpirationTime escrowProposalTx = 0)
  require .refused (txTemplate.vin ≠ [])
  proposalInputs txTemplate txTemplate.vin 0

/-- "(2/5) extra", up to the unlock time. -/
def checkProposalExtra (p : Primitives) (txTemplate : Tx) (decryptedItems : List PayloadItemsV) :
    Except Failure ContractPrivateDetails := do
  let cpd ← proposalDetails p decryptedItems
  require .refused (getTxFlags txTemplate = txFlagSignatureModeSeparate)
  require .refused (getTxExpirationTime txTemplate ≠ 0)
  .ok cpd

/-- "(3/5) outputs". -/
def checkProposalOutputs (p : Primitives) (prop : ProposalBody) (cpd : ContractPrivateDetails)
    (inputsAmount : UInt64) :
    Except Failure Hash := do
  let (toKeyOutputsAmount, index) ← proposalOutputs 0 prop.txTemplate.vout 0 none
  let msOutIndex ← found .refused index
  let (msAmount, ms) ← multisigOut prop.txTemplate.vout msOutIndex
  proposalKeys p prop cpd msOutIndex ms
  proposalAmounts cpd msAmount inputsAmount toKeyOutputsAmount
  .ok (p.getMultisigOutId prop.txTemplate msOutIndex)

def validateEscrowProposal (p : Primitives) (account : Account) (wti : WalletTransferInfo)
    (prop : ProposalBody) :
    Except Failure (List PayloadItemsV × Hash × ContractPrivateDetails) := do
  checkUnlockTime wti.tx
  let inputsAmount ← checkProposalInputs wti.tx prop.txTemplate
  let (decryptedItems, _) ← found .thrown
    (decryptPayloadItems p.crypto wti.isIncomeModeEncryption (payload prop.txTemplate) account.keys)
  let cpd ← checkProposalExtra p prop.txTemplate decryptedItems
  checkUnlockTime prop.txTemplate
  let msId ← checkProposalOutputs p prop cpd inputsAmount
  .ok (decryptedItems, msId, cpd)

end Proposal

/-! ## Templates that spend the multisig output -/

section Release

structure Tally where
  totalOutputsAmount : UInt64
  outputsToParty : UInt64
  outputsToNullAddr : UInt64

def Tally.zero : Tally := ⟨0, 0, 0⟩

/-- An output to the party's key is not counted for the null address as well. -/
def Tally.add (t : Tally) (amount : UInt64) (toParty toNullAddr : Bool) : Tally where
  totalOutputsAmount := t.totalOutputsAmount + amount
  outputsToParty := if toParty then t.outputsToParty + amount else t.outputsToParty
  outputsToNullAddr :=
    if !toParty && toNullAddr then t.outputsToNullAddr + amount else t.outputsToNullAddr

/-- The outputs from one index on; `keyOf` is the key of the party at an index. An output to a
gateway is passed over. -/
def tallyOutputs (keyOf : ℕ → Option PublicKey) : ℕ → List TxOutV → Tally → Except Failure Tally
  | _, [], t => .ok t
  | i, .inl ⟨amount, .inl otk⟩ :: rest, t => do
      let ephemeralPubKey ← found .refused (keyOf i)
      tallyOutputs keyOf (i + 1) rest
        (t.add amount (otk.key = ephemeralPubKey) (otk.key = nullPkey))
  | _, .inl ⟨_, .inr _⟩ :: _, _ => .error .refused
  | _, .inr (.inl _) :: _, _ => .error .refused
  | i, .inr (.inr _) :: rest, t => tallyOutputs keyOf (i + 1) rest t

def multisigInput (tx : Tx) : Option TxinMultisig :=
  match tx.vin with
  | [.inr (.inr (.inl ms))] => some ms
  | _ => none

def onlyService (tx : Tx) : Option TxServiceAttachment :=
  match tx.extra.filterMap asService with
  | [tsa] => some tsa
  | _ => none

/-- `int64_t` -/
def signed (v : UInt64) : ℤ := v.toBitVec.toInt

def checkMultisigInput (ms : TxinMultisig) (msId : Hash) (sourceMsOut : TxoutMultisig) :
    Except Failure Unit := do
  require .refused (ms.multisigOutId = msId)
  require .refused (sourceMsOut.minimumSigs = 2)
  require .refused (ms.sigsCount = sourceMsOut.minimumSigs)

def checkEtcDetails (ms : TxinMultisig) : Except Failure Unit := do
  require .refused (ms.etcDetails.findSome? asSignedParts).isNone
  require .refused (ms.etcDetails.findSome? asDetailsAttachmentInfo).isNone

/-- The amount of the output that is spent, which has to be a bare one. -/
def sourceAmount (sourceTx : Tx) (sourceMsOutIndex : ℕ) : Except Failure UInt64 :=
  match sourceTx.vout[sourceMsOutIndex]? with
  | none => .error .outOfRange
  | some (.inl o) => .ok o.amount
  | some (.inr _) => .error .refused

/-- The amount that is spent is that of the output, and covers the contract and this fee. -/
def checkAmount (cpd : ContractPrivateDetails) (fee : UInt64) (ms : TxinMultisig)
    (amount : UInt64) :
    Except Failure Unit := do
  require .refused (ms.amount = amount)
  require .refused (cpd.amountAPledge + cpd.amountBPledge + cpd.amountToPay + fee ≤ ms.amount)
  checkEtcDetails ms

/-- The signature of the other party, and a placeholder. -/
def checkReleaseSignature (p : Primitives) (tx : Tx) (sourceMsOut : TxoutMultisig)
    (sourceMsOutIndex : ℕ) (sourceTx : Tx) (aKeys : Account) (signature : List Signature) :
    Except Failure Unit := do
  let ephemeralPubKey ← found .refused
    (outputKey p (payload sourceTx).getTxPubKeyFromExtra aKeys.keys.viewSecretKey sourceMsOutIndex
      aKeys.accountAddress.spendPublicKey)
  require .refused (sourceMsOut.keys.length = 2)
  require .refused (signature.length = 2)
  let msOutKeyAIndex := sourceMsOut.keys.findIdx fun k => k = ephemeralPubKey
  require .refused (msOutKeyAIndex < sourceMsOut.keys.length)
  let msOutKeyBIndex := 1 - msOutKeyAIndex
  let key ← found .outOfRange sourceMsOut.keys[msOutKeyBIndex]?
  let sig ← found .outOfRange signature[msOutKeyBIndex]?
  require .refused
    (p.checkSignature (p.preparePrefixHashForSign tx 0 (p.getTransactionHash tx)) key sig)

/-- The switch over the kinds of signatures: a confidential one is not looked at,
any other throws. -/
def checkSignatures (tx : Tx)
    (checkNlsag : List Signature → Except Failure Unit) : Except Failure Unit :=
  match tx.signatures with
  | [.inl nlsag] => checkNlsag nlsag.s
  | [.inr (.inr (.inl _))] => .ok ()
  | [_] => .error .thrown
  | _ => .error .refused

def releaseInstruction (releaseTypeNormal : Bool) : Bytes :=
  if releaseTypeNormal then bcEscrowServiceInstructionReleaseNormal
  else bcEscrowServiceInstructionReleaseBurn

def checkReleaseTally (cpd : ContractPrivateDetails) (releaseTypeNormal : Bool)
    (t : Tally) : Except Failure Unit :=
  if releaseTypeNormal then require .refused (cpd.amountAPledge ≤ t.outputsToParty)
  else do
    require .refused (t.outputsToNullAddr = t.totalOutputsAmount)
    require .refused (t.outputsToNullAddr = cpd.amountAPledge + cpd.amountBPledge + cpd.amountToPay)

def checkFee (leastFee amount : UInt64) (t : Tally) : Except Failure Unit :=
  require .refused (signed leastFee ≤ signed (amount - t.totalOutputsAmount))

/-- The keys of a party in the outputs, where its view key finds the transaction's key. -/
def checkOutputs (p : Primitives) (tx : Tx) (keys : Account) (spendPublicKey : PublicKey) :
    Except Failure Tally := do
  let der ← found .refused
    (p.crypto.generateKeyDerivation (payload tx).getTxPubKeyFromExtra keys.keys.viewSecretKey)
  tallyOutputs (fun i => p.derivePublicKey der i spendPublicKey) 0 tx.vout .zero

/-- "(1/5) inputs", up to the output that is spent. -/
def checkReleaseInput (tx : Tx) (sourceMsOut : TxoutMultisig) (msId : Hash) :
    Except Failure TxinMultisig := do
  let ms ← found .refused (multisigInput tx)
  checkMultisigInput ms msId sourceMsOut
  .ok ms

/-- "(1/5) inputs" and "(2/5) extra", between the output that is spent and the unlock time. -/
def checkReleaseAmount (tx : Tx) (cpd : ContractPrivateDetails) (ms : TxinMultisig)
    (amount : UInt64) :
    Except Failure Unit := do
  checkAmount cpd txDefaultFee ms amount
  require .refused (getTxFlags tx = 0)
  require .refused (getTxExpirationTime tx = 0)

/-- "(2/5) extra", after the unlock time, and "(3/5) outputs". -/
def checkReleaseOutputs (p : Primitives) (tx : Tx) (releaseTypeNormal : Bool)
    (cpd : ContractPrivateDetails) (amount : UInt64) (aKeys : Account) : Except Failure Unit := do
  let tsa ← found .refused (onlyService tx)
  require .refused (tsa.flags = 0)
  require .refused (tsa.serviceId = bcEscrowServiceId)
  require .refused (tsa.instruction = releaseInstruction releaseTypeNormal)
  require .refused (tsa.security = [])
  require .refused (validateAttachmentInfo p tx.extra tx.attachment)
  let t ← checkOutputs p tx aKeys cpd.aAddr.spendPublicKey
  checkReleaseTally cpd releaseTypeNormal t
  checkFee txDefaultFee amount t

def validateEscrowRelease (p : Primitives) (tx : Tx) (releaseTypeNormal : Bool)
    (cpd : ContractPrivateDetails) (sourceMsOut : TxoutMultisig) (msId : Hash)
    (sourceMsOutIndex : ℕ) (sourceTx : Tx) (aKeys : Account) :
    Except Failure Unit := do
  let ms ← checkReleaseInput tx sourceMsOut msId
  let amount ← sourceAmount sourceTx sourceMsOutIndex
  checkReleaseAmount tx cpd ms amount
  checkUnlockTime tx
  checkReleaseOutputs p tx releaseTypeNormal cpd ms.amount aKeys
  checkSignatures tx (checkReleaseSignature p tx sourceMsOut sourceMsOutIndex sourceTx aKeys)

/-- `std::min` with the fee of the transaction that has the output, when it is known. -/
def getMinimumAllowedFeeForContract (txFee : Option UInt64) : UInt64 :=
  match txFee with
  | none => txMinimumFee
  | some txFee => min txFee txMinimumFee

/-- The first signature that is not the placeholder is A's. -/
def checkCancelSignature (p : Primitives) (tx : Tx) (sourceMsOut : TxoutMultisig)
    (signature : List Signature) :
    Except Failure Unit := do
  require .refused (signature.length = 2)
  require .refused (sourceMsOut.keys.length = 2)
  let first ← found .outOfRange signature[0]?
  let aSignIndex := if first ≠ nullSig then 0 else 1
  let key ← found .outOfRange sourceMsOut.keys[aSignIndex]?
  let sig ← found .outOfRange signature[aSignIndex]?
  require .refused
    (p.checkSignature (p.preparePrefixHashForSign tx 0 (p.getTransactionHash tx)) key sig)

/-- "(1/5) inputs", up to the output that is spent. -/
def checkCancelInput (tx sourceTx : Tx) (sourceMsOutIndex : ℕ) : Except Failure TxinMultisig := do
  let ms ← found .refused (multisigInput tx)
  require .refused (sourceMsOutIndex < sourceTx.vout.length)
  .ok ms

/-- "(1/5) inputs" and "(2/5) extra", between the output that is spent and the unlock time. -/
def checkCancelAmount (tx : Tx) (msId : Hash) (cpd : ContractPrivateDetails)
    (minimumReleaseFee : UInt64) (ms : TxinMultisig) (amount : UInt64)
    (sourceMsOut : TxoutMultisig) : Except Failure Unit := do
  checkMultisigInput ms msId sourceMsOut
  checkAmount cpd minimumReleaseFee ms amount
  require .refused (getTxFlags tx = 0)
  require .refused (getTxExpirationTime tx ≠ 0)

/-- "(2/5) extra", after the unlock time, and "(3/5) outputs". -/
def checkCancelOutputs (p : Primitives) (tx : Tx) (cpd : ContractPrivateDetails)
    (minimumReleaseFee amount : UInt64) (bKeys : Account) : Except Failure Unit := do
  let tsa ← found .refused (onlyService tx)
  require .refused (tsa.flags = 0)
  require .refused (tsa.serviceId = bcEscrowServiceId)
  require .refused (tsa.instruction = bcEscrowServiceInstructionReleaseCancel)
  require .refused (validateAttachmentInfo p tx.extra tx.attachment)
  let t ← checkOutputs p tx bKeys cpd.bAddr.spendPublicKey
  require .refused (cpd.amountBPledge ≤ t.outputsToParty)
  checkFee minimumReleaseFee amount t

def validateEscrowCancelRelease (p : Primitives) (tx : Tx) (msId : Hash)
    (cpd : ContractPrivateDetails) (sourceTx : Tx) (sourceMsOutIndex : ℕ) (bKeys : Account)
    (minimumReleaseFee : UInt64) : Except Failure Unit := do
  let ms ← checkCancelInput tx sourceTx sourceMsOutIndex
  let (amount, sourceMsOut) ← multisigOut sourceTx.vout sourceMsOutIndex
  checkCancelAmount tx msId cpd minimumReleaseFee ms amount sourceMsOut
  checkUnlockTime tx
  checkCancelOutputs p tx cpd minimumReleaseFee ms.amount bKeys
  checkSignatures tx (checkCancelSignature p tx sourceMsOut)

end Release

/-! ## The acceptance -/

section Contract

def isMultisigOut : TxOutV → Bool
  | .inl ⟨_, .inr _⟩ => true
  | _ => false

def getMultisigOutIndex (outs : List TxOutV) : ℕ := outs.findIdx isMultisigOut

/-- The templates among the items that were decrypted. -/
def releaseTemplates (p : Primitives) (decryptedItems : List PayloadItemsV) :
    Except Failure EscrowReleseTemplatesBody := do
  let tsa ← found .refused
    (getFirstServiceAttachmentById decryptedItems bcEscrowServiceId
      bcEscrowServiceInstructionReleaseTemplates)
  require .refused (tsa.flags &&& txServiceAttachmentEncryptBody ≠ 0)
  require .refused (tsa.security = [])
  found .refused (p.unserializeReleaseTemplates tsa.body)

/-- Both templates, which only A checks. -/
def checkReleaseTemplates (p : Primitives) (account : Account) (isA : Bool)
    (rtb : EscrowReleseTemplatesBody) (cpd : ContractPrivateDetails) (ms : TxoutMultisig)
    (msId : Hash) (n : ℕ) (sourceTx : Tx) : Except Failure Unit :=
  if isA then do
    validateEscrowRelease p rtb.txNormalTemplate true cpd ms msId n sourceTx account
    validateEscrowRelease p rtb.txBurnTemplate false cpd ms msId n sourceTx account
  else .ok ()

def validateEscrowContract (p : Primitives) (account : Account) (wti : WalletTransferInfo)
    (cpd : ContractPrivateDetails) (isA : Bool) (decryptedItems : List PayloadItemsV) :
    Except Failure (Hash × EscrowReleseTemplatesBody) := do
  let n := getMultisigOutIndex wti.tx.vout
  require .refused (n < wti.tx.vout.length)
  let msId := p.getMultisigOutId wti.tx n
  require .refused (msId ≠ Blob.filled 32 0)
  let (_, ms) ← multisigOut wti.tx.vout n
  let rtb ← releaseTemplates p decryptedItems
  checkReleaseTemplates p account isA rtb cpd ms msId n wti.tx
  require .refused (getTxFlags wti.tx = txFlagSignatureModeSeparate)
  require .refused (getTxExpirationTime wti.tx ≠ 0)
  checkUnlockTime wti.tx
  .ok (msId, rtb)

end Contract

/-! ## Exact amounts -/

def inputTotal : List TxinV → ℕ
  | [] => 0
  | .inr (.inl inToKey) :: rest => inToKey.amount.toNat + inputTotal rest
  | _ :: rest => inputTotal rest

def toKeyTotal : List TxOutV → ℕ
  | [] => 0
  | .inl ⟨amount, .inl _⟩ :: rest => amount.toNat + toKeyTotal rest
  | _ :: rest => toKeyTotal rest

def multisigAmounts : List TxOutV → List UInt64
  | [] => []
  | .inl ⟨amount, .inr _⟩ :: rest => amount :: multisigAmounts rest
  | _ :: rest => multisigAmounts rest

/-- Whatever the asset is. -/
def gatewayTotal : List TxOutV → ℕ
  | [] => 0
  | .inr (.inr o) :: rest => o.amount.toNat + gatewayTotal rest
  | _ :: rest => gatewayTotal rest

/-- What goes to the keys of a party, the first output having this index. -/
def paidTo (keyOf : ℕ → Option PublicKey) : ℕ → List TxOutV → ℕ
  | _, [] => 0
  | i, .inl ⟨amount, .inl otk⟩ :: rest =>
      (if keyOf i = some otk.key then amount.toNat else 0) + paidTo keyOf (i + 1) rest
  | i, _ :: rest => paidTo keyOf (i + 1) rest

def burnt : List TxOutV → ℕ
  | [] => 0
  | .inl ⟨amount, .inl otk⟩ :: rest => (if otk.key = nullPkey then amount.toNat else 0) + burnt rest
  | _ :: rest => burnt rest

theorem burnt_le (vout : List TxOutV) : burnt vout ≤ toKeyTotal vout := by
  induction vout with
  | nil => simp [burnt]
  | cons o rest inductionHypothesis =>
      obtain ⟨amount, otk | ms⟩ | o := o
      · rw [burnt, toKeyTotal]
        split <;> omega
      · simpa [burnt, toKeyTotal] using inductionHypothesis
      · simpa [burnt, toKeyTotal] using inductionHypothesis

/-! ## What the loops compute -/

def Refuses (failure : Failure) : Prop := failure = .refused

theorem refuses : Refuses .refused := rfl

theorem proposalInputs_total {tx : Tx} {ins : List TxinV} {inputsAmount total : UInt64}
    (passed : proposalInputs tx ins inputsAmount = .ok total) :
    total.toNat = (inputsAmount.toNat + inputTotal ins) % 2 ^ 64 := by
  induction ins generalizing inputsAmount with
  | nil =>
      cases passed
      exact (Nat.mod_eq_of_lt total.toNat_lt).symm
  | cons inp rest inductionHypothesis =>
      obtain ⟨next, first, later⟩ := bind_eq_ok.mp passed
      have sum := inductionHypothesis later
      obtain gen | inToKey | other := inp
      · cases first
      · obtain ⟨sp, -, first⟩ := found_bind_eq_ok.mp first
        obtain ⟨-, first⟩ := require_bind_eq_ok.mp first
        obtain ⟨-, first⟩ := require_bind_eq_ok.mp first
        cases first
        rw [sum, UInt64.toNat_add, inputTotal]
        omega
      · cases first

theorem checkProposalInputs_total {escrowProposalTx txTemplate : Tx} {total : UInt64}
    (passed : checkProposalInputs escrowProposalTx txTemplate = .ok total) :
    total.toNat = inputTotal txTemplate.vin % 2 ^ 64 := by
  obtain ⟨-, passed⟩ := require_bind_eq_ok.mp passed
  obtain ⟨-, passed⟩ := require_bind_eq_ok.mp passed
  simpa using proposalInputs_total passed

theorem proposalInputs_failsOnly (tx : Tx) (ins : List TxinV) (inputsAmount : UInt64) :
    FailsOnly Refuses (proposalInputs tx ins inputsAmount) := by
  induction ins generalizing inputsAmount with
  | nil => exact failsOnly_ok _
  | cons inp rest inductionHypothesis =>
      suffices one : FailsOnly Refuses (proposalInput tx inputsAmount inp) from
        one.bind fun next _ => inductionHypothesis next
      obtain gen | inToKey | other := inp
      · exact failsOnly_error refuses
      · exact failsOnly_found_bind refuses fun _ _ => failsOnly_require_bind refuses fun _ =>
          failsOnly_require_bind refuses fun _ => failsOnly_ok _
      · exact failsOnly_error refuses

theorem proposalOutputs_failsOnly (i : ℕ) (vout : List TxOutV) (toKeyOutputsAmount : UInt64)
    (msOutIndex : Option ℕ) :
    FailsOnly Refuses (proposalOutputs i vout toKeyOutputsAmount msOutIndex) := by
  induction vout generalizing i toKeyOutputsAmount msOutIndex with
  | nil => exact failsOnly_ok _
  | cons o rest inductionHypothesis =>
      obtain ⟨amount, otk | ms⟩ | o := o
      · exact inductionHypothesis (i + 1) _ _
      · exact failsOnly_require_bind refuses fun _ => inductionHypothesis (i + 1) _ _
      · exact inductionHypothesis (i + 1) _ _

/-- Where the one multisig output is, if there is one. -/
def MultisigAt (i : ℕ) (vout : List TxOutV) (before found : Option ℕ) : Prop :=
  (found = before ∧ multisigAmounts vout = []) ∨
    ∃ k amount ms, before = none ∧ found = some (i + k) ∧ vout[k]? = some (.inl ⟨amount, .inr ms⟩) ∧
      multisigAmounts vout = [amount]

theorem proposalOutputs_spec {i : ℕ} {vout : List TxOutV} {toKeyOutputsAmount total : UInt64}
    {msOutIndex index : Option ℕ}
    (passed : proposalOutputs i vout toKeyOutputsAmount msOutIndex = .ok (total, index)) :
    total.toNat = (toKeyOutputsAmount.toNat + toKeyTotal vout) % 2 ^ 64 ∧
      MultisigAt i vout msOutIndex index := by
  induction vout generalizing i toKeyOutputsAmount msOutIndex with
  | nil =>
      cases passed
      exact ⟨(Nat.mod_eq_of_lt total.toNat_lt).symm, .inl ⟨rfl, rfl⟩⟩
  | cons o rest inductionHypothesis =>
      have shift : ∀ {before}, MultisigAt (i + 1) rest before index →
          multisigAmounts (o :: rest) = multisigAmounts rest →
          MultisigAt i (o :: rest) before index := by
        intro before at_ same
        obtain ⟨unchanged, none_⟩ | ⟨k, amount, ms, first, isFound, isOut, amounts⟩ := at_
        · exact .inl ⟨unchanged, same.trans none_⟩
        · exact .inr ⟨k + 1, amount, ms, first,
            by rw [isFound, Nat.add_right_comm, Nat.add_assoc],
            by simpa using isOut, same.trans amounts⟩
      obtain ⟨amount, otk | ms⟩ | o := o
      · obtain ⟨sum, at_⟩ := inductionHypothesis passed
        refine ⟨?_, shift at_ rfl⟩
        rw [sum, UInt64.toNat_add, toKeyTotal]
        omega
      · obtain ⟨first, passed⟩ := require_bind_eq_ok.mp passed
        obtain ⟨sum, at_⟩ := inductionHypothesis passed
        refine ⟨sum, .inr ⟨0, amount, ms, first, ?_, rfl, ?_⟩⟩
        · obtain ⟨unchanged, -⟩ | ⟨k, other, ms, isNone, -⟩ := at_
          · exact unchanged
          · cases isNone
        · obtain ⟨-, none_⟩ | ⟨k, other, ms, isNone, -⟩ := at_
          · rw [multisigAmounts, none_]
          · cases isNone
      · obtain ⟨sum, at_⟩ := inductionHypothesis passed
        exact ⟨sum, shift at_ rfl⟩

/-- The sums of the outputs, in exact numbers. What goes to the party is not counted as burnt. -/
structure Tally.Sums (t : Tally) (total party burnt : ℕ) : Prop where
  total : t.totalOutputsAmount.toNat = total % 2 ^ 64
  party : t.outputsToParty.toNat = party % 2 ^ 64
  nullAddr : ∃ counted ≤ burnt, t.outputsToNullAddr.toNat = counted % 2 ^ 64

theorem Tally.Sums.add {t : Tally} {total party burnt : ℕ} (sums : t.Sums total party burnt)
    (amount : UInt64) (toParty toNullAddr : Bool) :
    (t.add amount toParty toNullAddr).Sums (total + amount.toNat) (party + if toParty then
      amount.toNat else 0)
      (burnt + if toNullAddr then amount.toNat else 0) := by
  obtain ⟨isTotal, isParty, counted, isCounted, isNullAddr⟩ := sums
  refine ⟨?_, ?_, ?_⟩
  · simp only [Tally.add, UInt64.toNat_add, isTotal, Nat.mod_add_mod]
  · cases toParty with
    | true => simp [Tally.add, UInt64.toNat_add, isParty]
    | false => simpa [Tally.add] using isParty
  · cases toParty with
    | true =>
        exact ⟨counted, Nat.le_add_right_of_le isCounted, by simpa [Tally.add] using isNullAddr⟩
    | false =>
        cases toNullAddr with
        | true =>
            exact ⟨counted +
              amount.toNat,
                by simpa using isCounted, by simp [Tally.add, UInt64.toNat_add, isNullAddr]⟩
        | false => exact ⟨counted, by simpa using isCounted, by simpa [Tally.add] using isNullAddr⟩

theorem tallyOutputs_sums {keyOf : ℕ → Option PublicKey} {i : ℕ} {vout : List TxOutV} {t t' : Tally}
    {total party null : ℕ} (sums : t.Sums total party null)
    (passed : tallyOutputs keyOf i vout t = .ok t') :
    t'.Sums (total + toKeyTotal vout) (party + paidTo keyOf i vout) (null + burnt vout) := by
  induction vout generalizing i t total party null with
  | nil =>
      cases passed
      exact sums
  | cons o rest inductionHypothesis =>
      obtain ⟨amount, otk | ms⟩ | zarcanum | gateway := o
      · obtain ⟨ephemeralPubKey, isKey, passed⟩ := found_bind_eq_ok.mp passed
        have later := inductionHypothesis
          (sums.add amount (otk.key = ephemeralPubKey) (otk.key = nullPkey)) passed
        simp only [decide_eq_true_eq, Nat.add_assoc] at later
        simpa only [toKeyTotal, paidTo, burnt, isKey, Option.some.injEq,
          eq_comm (a := ephemeralPubKey)] using later
      · cases passed
      · cases passed
      · exact inductionHypothesis sums passed

/-- The key that an output to a party has. -/
def partyKey (p : Primitives) (tx : Tx) (keys : Account) (spendPublicKey : PublicKey)
    (i : ℕ) : Option PublicKey :=
  outputKey p (payload tx).getTxPubKeyFromExtra keys.keys.viewSecretKey i spendPublicKey

theorem checkOutputs_sums {p : Primitives} {tx : Tx} {keys : Account} {spendPublicKey : PublicKey}
    {t : Tally} (passed : checkOutputs p tx keys spendPublicKey = .ok t) :
    t.Sums (toKeyTotal tx.vout) (paidTo (partyKey p tx keys spendPublicKey) 0 tx.vout)
      (burnt tx.vout) := by
  obtain ⟨der, isDerivation, passed⟩ := found_bind_eq_ok.mp passed
  have keyOf :
      partyKey p tx keys spendPublicKey = fun i => p.derivePublicKey der i spendPublicKey := by
    funext i
    rw [partyKey, outputKey, isDerivation, Option.bind_some]
  rw [keyOf]
  simpa using tallyOutputs_sums (t := .zero) ⟨rfl, rfl, 0, Nat.le_refl 0, rfl⟩ passed

theorem tallyOutputs_failsOnly (keyOf : ℕ → Option PublicKey) (i : ℕ) (vout : List TxOutV)
    (t : Tally) :
    FailsOnly Refuses (tallyOutputs keyOf i vout t) := by
  induction vout generalizing i t with
  | nil => exact failsOnly_ok _
  | cons o rest inductionHypothesis =>
      obtain ⟨amount, otk | ms⟩ | zarcanum | gateway := o
      · exact failsOnly_found_bind refuses fun _ _ => inductionHypothesis (i + 1) _
      · exact failsOnly_error refuses
      · exact failsOnly_error refuses
      · exact inductionHypothesis (i + 1) _

/-! ## What does not only refuse -/

/-- The unlock time is one for all outputs, or there is one for each. -/
def UnlockTimesFit (tx : Tx) : Prop :=
  unlockTime tx ≠ 0 ∨ unlockTimeArray tx = [] ∨ (unlockTimeArray tx).length = tx.vout.length

theorem checkUnlockTime_failsOnly_iff (tx : Tx) :
    FailsOnly Refuses (checkUnlockTime tx) ↔ UnlockTimesFit tx := by
  rw [failsOnly_iff_meets, checkUnlockTime, meets_bind]
  have only : FailsOnly Refuses (getTxMaxUnlockTime tx) ↔ UnlockTimesFit tx := by
    unfold UnlockTimesFit getTxMaxUnlockTime
    split
    next one => exact iff_of_true (failsOnly_ok _) (.inl one)
    next noOne =>
        split
        next empty => exact iff_of_true (failsOnly_ok _) (.inr (.inl empty))
        next some_ =>
            split
            next same => exact iff_of_true (failsOnly_ok _) (.inr (.inr same))
            next other =>
                exact iff_of_false (fun only => nomatch only .thrown rfl)
                  (by simp [noOne, some_, other])
  rw [only]
  exact and_iff_left fun unlockTime _ => failsOnly_iff_meets.mp (failsOnly_require refuses _)

theorem sourceAmount_failsOnly_iff (sourceTx : Tx) (n : ℕ) :
    FailsOnly Refuses (sourceAmount sourceTx n) ↔ n < sourceTx.vout.length := by
  rw [sourceAmount]
  cases isOut : sourceTx.vout[n]? with
  | none => exact iff_of_false (fun only => nomatch only .outOfRange rfl) (by simpa using isOut)
  | some o =>
      refine iff_of_true ?_ (List.getElem?_eq_some_iff.mp isOut).1
      cases o with
      | inl o => exact failsOnly_ok _
      | inr o => exact failsOnly_error refuses

/-- The output that is spent is there, and a bare multisig output. -/
def SourceIsMultisig (sourceTx : Tx) (n : ℕ) : Prop :=
  ∃ amount ms, sourceTx.vout[n]? = some (.inl ⟨amount, .inr ms⟩)

theorem multisigOut_failsOnly_iff (sourceTx : Tx) (n : ℕ) :
    FailsOnly Refuses (multisigOut sourceTx.vout n) ↔ SourceIsMultisig sourceTx n := by
  rw [multisigOut, SourceIsMultisig]
  cases isOut : sourceTx.vout[n]? with
  | none => exact iff_of_false (fun only => nomatch only .outOfRange rfl) nofun
  | some o =>
      obtain ⟨amount, otk | ms⟩ | o := o
      · exact iff_of_false (fun only => nomatch only .thrown rfl) nofun
      · exact iff_of_true (failsOnly_ok _) ⟨amount, ms, rfl⟩
      · exact iff_of_false (fun only => nomatch only .thrown rfl) nofun

/-- A lone signature is one of the two kinds that the switch has a case for. -/
def SignatureHasCase (tx : Tx) : Prop :=
  ∀ v, tx.signatures = [v] → (∃ nlsag, v = .inl nlsag) ∨ ∃ zc, v = .inr (.inr (.inl zc))

theorem checkSignatures_failsOnly_iff {tx : Tx} {checkNlsag : List Signature → Except Failure Unit}
    (only : ∀ signature, FailsOnly Refuses (checkNlsag signature)) :
    FailsOnly Refuses (checkSignatures tx checkNlsag) ↔ SignatureHasCase tx := by
  rw [checkSignatures, SignatureHasCase]
  cases tx.signatures with
  | nil => exact iff_of_true (failsOnly_error refuses) nofun
  | cons v rest =>
      cases rest with
      | cons w rest =>
          refine iff_of_true ?_ nofun
          obtain nlsag | void | zc | other := v <;> exact failsOnly_error refuses
      | nil =>
          obtain nlsag | void | zc | other := v
          · exact iff_of_true (only nlsag.s) (by simp)
          · exact iff_of_false (fun only => nomatch only .thrown rfl) (by simp)
          · exact iff_of_true (failsOnly_ok _) (by simp)
          · exact iff_of_false (fun only => nomatch only .thrown rfl) (by simp)

/-! ## What only refuses -/

theorem checkProposalInputs_failsOnly (escrowProposalTx txTemplate : Tx) :
    FailsOnly Refuses (checkProposalInputs escrowProposalTx txTemplate) :=
  failsOnly_require_bind refuses fun _ => failsOnly_require_bind refuses fun _ =>
    proposalInputs_failsOnly _ _ _

theorem checkProposalExtra_failsOnly (p : Primitives) (txTemplate : Tx)
    (decryptedItems : List PayloadItemsV) :
    FailsOnly Refuses (checkProposalExtra p txTemplate decryptedItems) := by
  have details : FailsOnly Refuses (proposalDetails p decryptedItems) :=
    failsOnly_found_bind refuses fun _ _ => failsOnly_require_bind refuses fun _ =>
      failsOnly_found refuses _
  exact details.bind fun _ _ => failsOnly_require_bind refuses fun _ =>
    failsOnly_require_bind refuses fun _ =>
    failsOnly_ok _

theorem proposalKeys_failsOnly (p : Primitives) (prop : ProposalBody) (cpd : ContractPrivateDetails)
    (msOutIndex : ℕ) (ms : TxoutMultisig) :
    FailsOnly Refuses (proposalKeys p prop cpd msOutIndex ms) :=
  failsOnly_require_bind refuses fun _ => failsOnly_require_bind refuses fun _ =>
    failsOnly_found_bind refuses fun _ _ =>
    failsOnly_found_bind refuses fun _ _ => failsOnly_require refuses _

theorem proposalAmounts_failsOnly (cpd : ContractPrivateDetails)
    (msAmount inputsAmount toKeyOutputsAmount : UInt64) :
    FailsOnly Refuses (proposalAmounts cpd msAmount inputsAmount toKeyOutputsAmount) :=
  failsOnly_require_bind refuses fun _ => failsOnly_require_bind refuses fun _ =>
    failsOnly_require_bind refuses fun _ =>
    failsOnly_require refuses _

/-- The index that the loop found is that of a bare multisig output. -/
theorem multisigOut_of_proposalOutputs {vout : List TxOutV} {total : UInt64} {n : ℕ}
    (passed : proposalOutputs 0 vout 0 none = .ok (total, some n)) :
    ∃ amount ms, multisigOut vout n = .ok (amount, ms) ∧ multisigAmounts vout = [amount] := by
  obtain ⟨-, ⟨isNone, -⟩ | ⟨k, amount, ms, -, isFound, isOut, amounts⟩⟩ :=
    proposalOutputs_spec passed
  · cases isNone
  · rw [Nat.zero_add, Option.some.injEq] at isFound
    subst isFound
    exact ⟨amount, ms, by rw [multisigOut, isOut], amounts⟩

theorem checkProposalOutputs_failsOnly (p : Primitives) (prop : ProposalBody)
    (cpd : ContractPrivateDetails) (inputsAmount : UInt64) :
    FailsOnly Refuses (checkProposalOutputs p prop cpd inputsAmount) := by
  refine (proposalOutputs_failsOnly 0 prop.txTemplate.vout 0 none).bind fun (total, index) passed =>
    failsOnly_found_bind refuses fun n isIndex => ?_
  subst isIndex
  obtain ⟨amount, ms, isOut, -⟩ := multisigOut_of_proposalOutputs passed
  simp only [isOut]
  exact (proposalKeys_failsOnly _ _ _ _ _).bind fun _ _ =>
    (proposalAmounts_failsOnly _ _ _ _).bind fun _ _ =>
    failsOnly_ok _

theorem checkMultisigInput_failsOnly (ms : TxinMultisig) (msId : Hash)
    (sourceMsOut : TxoutMultisig) :
    FailsOnly Refuses (checkMultisigInput ms msId sourceMsOut) :=
  failsOnly_require_bind refuses fun _ => failsOnly_require_bind refuses fun _ =>
    failsOnly_require refuses _

theorem checkAmount_failsOnly (cpd : ContractPrivateDetails) (fee : UInt64) (ms : TxinMultisig)
    (amount : UInt64) :
    FailsOnly Refuses (checkAmount cpd fee ms amount) :=
  failsOnly_require_bind refuses fun _ => failsOnly_require_bind refuses fun _ =>
    failsOnly_require_bind refuses fun _ =>
    failsOnly_require refuses _

theorem checkOutputs_failsOnly (p : Primitives) (tx : Tx) (keys : Account)
    (spendPublicKey : PublicKey) :
    FailsOnly Refuses (checkOutputs p tx keys spendPublicKey) :=
  failsOnly_found_bind refuses fun _ _ => tallyOutputs_failsOnly _ _ _ _

theorem checkReleaseInput_failsOnly (tx : Tx) (sourceMsOut : TxoutMultisig) (msId : Hash) :
    FailsOnly Refuses (checkReleaseInput tx sourceMsOut msId) :=
  failsOnly_found_bind refuses fun _ _ => (checkMultisigInput_failsOnly _ _ _).bind fun _ _ =>
    failsOnly_ok _

theorem checkReleaseAmount_failsOnly (tx : Tx) (cpd : ContractPrivateDetails) (ms : TxinMultisig)
    (amount : UInt64) :
    FailsOnly Refuses (checkReleaseAmount tx cpd ms amount) :=
  (checkAmount_failsOnly _ _ _ _).bind fun _ _ => failsOnly_require_bind refuses fun _ =>
    failsOnly_require refuses _

theorem checkReleaseTally_failsOnly (cpd : ContractPrivateDetails) (releaseTypeNormal : Bool)
    (t : Tally) :
    FailsOnly Refuses (checkReleaseTally cpd releaseTypeNormal t) := by
  cases releaseTypeNormal with
  | true => exact failsOnly_require refuses _
  | false => exact failsOnly_require_bind refuses fun _ => failsOnly_require refuses _

theorem checkReleaseOutputs_failsOnly (p : Primitives) (tx : Tx) (releaseTypeNormal : Bool)
    (cpd : ContractPrivateDetails) (amount : UInt64) (aKeys : Account) :
    FailsOnly Refuses (checkReleaseOutputs p tx releaseTypeNormal cpd amount aKeys) :=
  failsOnly_found_bind refuses fun _ _ => failsOnly_require_bind refuses fun _ =>
    failsOnly_require_bind refuses fun _ =>
    failsOnly_require_bind refuses fun _ => failsOnly_require_bind refuses fun _ =>
      failsOnly_require_bind refuses fun _ =>
    (checkOutputs_failsOnly _ _ _ _).bind fun _ _ =>
      (checkReleaseTally_failsOnly _ _ _).bind fun _ _ =>
    failsOnly_require refuses _

theorem checkReleaseSignature_failsOnly (p : Primitives) (tx : Tx) (sourceMsOut : TxoutMultisig)
    (n : ℕ) (sourceTx : Tx) (aKeys : Account) (signature : List Signature) :
    FailsOnly Refuses (checkReleaseSignature p tx sourceMsOut n sourceTx aKeys signature) := by
  refine failsOnly_found_bind refuses fun ephemeralPubKey _ =>
    failsOnly_require_bind refuses fun keys =>
    failsOnly_require_bind refuses fun signatures =>
      failsOnly_require_bind refuses fun isFound => ?_
  obtain ⟨key, isKey⟩ : ∃ key,
      sourceMsOut.keys[1 - sourceMsOut.keys.findIdx fun k => k = ephemeralPubKey]? = some key :=
    Option.isSome_iff_exists.mp (isSome_getElem? _ _ |>.mpr (by omega))
  obtain ⟨sig, isSig⟩ : ∃ sig,
      signature[1 - sourceMsOut.keys.findIdx fun k => k = ephemeralPubKey]? = some sig :=
    Option.isSome_iff_exists.mp (isSome_getElem? _ _ |>.mpr (by omega))
  simp only [isKey, isSig]
  exact failsOnly_require refuses _

theorem checkCancelInput_failsOnly (tx sourceTx : Tx) (n : ℕ) :
    FailsOnly Refuses (checkCancelInput tx sourceTx n) :=
  failsOnly_found_bind refuses fun _ _ => failsOnly_require_bind refuses fun _ => failsOnly_ok _

theorem checkCancelAmount_failsOnly (tx : Tx) (msId : Hash) (cpd : ContractPrivateDetails)
    (fee : UInt64) (ms : TxinMultisig) (amount : UInt64) (sourceMsOut : TxoutMultisig) :
    FailsOnly Refuses (checkCancelAmount tx msId cpd fee ms amount sourceMsOut) :=
  (checkMultisigInput_failsOnly _ _ _).bind fun _ _ =>
    (checkAmount_failsOnly _ _ _ _).bind fun _ _ =>
    failsOnly_require_bind refuses fun _ => failsOnly_require refuses _

theorem checkCancelOutputs_failsOnly (p : Primitives) (tx : Tx) (cpd : ContractPrivateDetails)
    (fee amount : UInt64) (bKeys : Account) :
    FailsOnly Refuses (checkCancelOutputs p tx cpd fee amount bKeys) :=
  failsOnly_found_bind refuses fun _ _ => failsOnly_require_bind refuses fun _ =>
    failsOnly_require_bind refuses fun _ =>
    failsOnly_require_bind refuses fun _ => failsOnly_require_bind refuses fun _ =>
    (checkOutputs_failsOnly _ _ _ _).bind fun _ _ => failsOnly_require_bind refuses fun _ =>
      failsOnly_require refuses _

theorem checkCancelSignature_failsOnly (p : Primitives) (tx : Tx) (sourceMsOut : TxoutMultisig)
    (signature : List Signature) :
    FailsOnly Refuses (checkCancelSignature p tx sourceMsOut signature) := by
  refine failsOnly_require_bind refuses fun signatures =>
    failsOnly_require_bind refuses fun keys => ?_
  obtain ⟨first, second, rfl⟩ := List.length_eq_two.mp signatures
  obtain ⟨key, other, isKeys⟩ := List.length_eq_two.mp keys
  simp only [isKeys]
  change FailsOnly Refuses (found .outOfRange [key, other][if first ≠ nullSig then 0 else 1]? >>= _)
  split
  · exact failsOnly_require refuses _
  · exact failsOnly_require refuses _

/-! ## Amounts of the proposal -/

/-- The amounts that the claim of a proposal is about, in exact numbers. -/
structure ProposalBounds (tx : Tx) (cpd : ContractPrivateDetails) : Prop where
  multisig : ∃ amount, multisigAmounts tx.vout = [amount] ∧
    cpd.amountAPledge.toNat + cpd.amountBPledge.toNat + cpd.amountToPay.toNat + txDefaultFee.toNat ≤
      amount.toNat
  inputs : cpd.amountAPledge.toNat + cpd.amountToPay.toNat + toKeyTotal tx.vout ≤ inputTotal tx.vin

/-- What the contract adds up to fits into 64 bits, and the outputs do not wrap around more often
than the inputs. -/
structure ProposalFits (tx : Tx) (cpd : ContractPrivateDetails) : Prop where
  contract : cpd.amountAPledge.toNat + cpd.amountBPledge.toNat + cpd.amountToPay.toNat +
    txDefaultFee.toNat < 2 ^ 64
  wraps : toKeyTotal tx.vout / 2 ^ 64 ≤ inputTotal tx.vin / 2 ^ 64

theorem proposalAmounts_iff {tx : Tx} {cpd : ContractPrivateDetails}
    {msAmount inputsAmount toKeyOutputsAmount : UInt64}
    (passed : proposalAmounts cpd msAmount inputsAmount toKeyOutputsAmount = .ok ())
    (amounts : multisigAmounts tx.vout = [msAmount])
    (inputs : inputsAmount.toNat = inputTotal tx.vin % 2 ^ 64)
    (outputs : toKeyOutputsAmount.toNat = toKeyTotal tx.vout % 2 ^ 64) :
    ProposalBounds tx cpd ↔ ProposalFits tx cpd := by
  obtain ⟨-, passed⟩ := require_bind_eq_ok.mp passed
  obtain ⟨enough, passed⟩ := require_bind_eq_ok.mp passed
  obtain ⟨more, passed⟩ := require_bind_eq_ok.mp passed
  have fromA := require_eq_ok.mp passed
  have bounded := msAmount.toNat_lt
  rw [UInt64.le_iff_toNat_le] at enough fromA
  rw [UInt64.lt_iff_toNat_lt] at more
  rw [UInt64.toNat_sub_of_le _ _ (UInt64.le_of_lt (UInt64.lt_iff_toNat_lt.mpr more))] at fromA
  simp only [UInt64.toNat_add] at enough fromA
  constructor
  · intro ⟨⟨amount, isAmount, multisig⟩, fromInputs⟩
    rw [amounts, List.singleton_inj] at isAmount
    subst isAmount
    exact ⟨by omega, by omega⟩
  · intro ⟨contract, wraps⟩
    exact ⟨⟨msAmount, amounts, by omega⟩, by omega⟩

/-- The amounts that are compared are those of the template. -/
theorem checkProposalOutputs_iff {p : Primitives} {prop : ProposalBody}
    {cpd : ContractPrivateDetails} {inputsAmount : UInt64} {msId : Hash}
    (passed : checkProposalOutputs p prop cpd inputsAmount = .ok msId)
    (inputs : inputsAmount.toNat = inputTotal prop.txTemplate.vin % 2 ^ 64) :
    ProposalBounds prop.txTemplate cpd ↔ ProposalFits prop.txTemplate cpd := by
  obtain ⟨⟨total, index⟩, outputs, rest⟩ := bind_eq_ok.mp passed
  obtain ⟨n, isIndex, later⟩ := found_bind_eq_ok.mp rest
  subst isIndex
  obtain ⟨amount, ms, isOut, amounts⟩ := multisigOut_of_proposalOutputs outputs
  obtain ⟨⟨_, _⟩, isSame, keys⟩ := bind_eq_ok.mp later
  cases isOut.symm.trans isSame
  obtain ⟨-, -, last⟩ := bind_eq_ok.mp keys
  obtain ⟨_, compared, -⟩ := bind_eq_ok.mp last
  exact proposalAmounts_iff compared amounts inputs
    (by simpa using (proposalOutputs_spec outputs).1)

/-! ## Amounts of the templates that spend the multisig output -/

theorem signed_le_signed_iff {least v : UInt64} (small : least.toNat < 2 ^ 63) :
    signed least ≤ signed v ↔ least.toNat ≤ v.toNat ∧ v.toNat < 2 ^ 63 := by
  have bounded := v.toNat_lt
  simp only [signed, BitVec.toInt_eq_toNat_cond, UInt64.toNat_toBitVec]
  split <;> split <;> omega

/-- A fee that is read as it is. -/
theorem checkFee_spec {least amount : UInt64} {t : Tally} {total : ℕ}
    (passed : checkFee least amount t = .ok ()) (small : least.toNat < 2 ^ 63)
    (sum : t.totalOutputsAmount.toNat = total % 2 ^ 64)
    (difference : total ≤ amount.toNat + 2 ^ 63) : total + least.toNat ≤ amount.toNat := by
  obtain ⟨enough, positive⟩ := (signed_le_signed_iff small).mp (require_eq_ok.mp passed)
  have bounded := amount.toNat_lt
  rw [UInt64.toNat_sub] at enough positive
  omega

/-- The amount of the output that is spent. -/
def msAmount (sourceTx : Tx) (sourceMsOutIndex : ℕ) : UInt64 :=
  match sourceTx.vout[sourceMsOutIndex]? with
  | some (.inl o) => o.amount
  | _ => 0

/-- The amounts that the claim of a release is about, in exact numbers. -/
structure ReleaseBounds (keyOf : ℕ → Option PublicKey) (cpd : ContractPrivateDetails)
    (releaseTypeNormal : Bool)
    (amount : UInt64) (vout : List TxOutV) : Prop where
  fee : ∃ fee, txDefaultFee.toNat ≤ fee ∧ toKeyTotal vout + gatewayTotal vout + fee = amount.toNat
  normal : releaseTypeNormal = true → cpd.amountAPledge.toNat ≤ paidTo keyOf 0 vout
  burn : releaseTypeNormal = false →
    burnt vout = cpd.amountAPledge.toNat + cpd.amountBPledge.toNat + cpd.amountToPay.toNat ∧
      toKeyTotal vout = burnt vout ∧ gatewayTotal vout = 0

/-- The difference of the amounts fits into a signed number, what goes to gateways is part of what
is left for the fee, and what is burnt fits into 64 bits. -/
structure ReleaseFits (cpd : ContractPrivateDetails) (releaseTypeNormal : Bool) (amount : UInt64)
    (vout : List TxOutV) :
    Prop where
  difference : toKeyTotal vout ≤ amount.toNat + 2 ^ 63
  normal : releaseTypeNormal = true →
    gatewayTotal vout ≤ amount.toNat - toKeyTotal vout - txDefaultFee.toNat
  burn : releaseTypeNormal = false →
    cpd.amountAPledge.toNat + cpd.amountBPledge.toNat + cpd.amountToPay.toNat < 2 ^ 64 ∧
      gatewayTotal vout = 0

theorem releaseBounds_iff {keyOf : ℕ → Option PublicKey} {cpd : ContractPrivateDetails}
    {releaseTypeNormal : Bool} {amount : UInt64} {vout : List TxOutV} {t : Tally}
    (sums : t.Sums (toKeyTotal vout) (paidTo keyOf 0 vout) (burnt vout))
    (tally : checkReleaseTally cpd releaseTypeNormal t = .ok ())
    (fee : checkFee txDefaultFee amount t = .ok ()) :
    ReleaseBounds keyOf cpd releaseTypeNormal amount vout ↔
      ReleaseFits cpd releaseTypeNormal amount vout := by
  obtain ⟨isTotal, isParty, counted, isCounted, isNullAddr⟩ := sums
  have bounded := amount.toNat_lt
  have covers := checkFee_spec fee (by decide) isTotal
  cases releaseTypeNormal with
  | true =>
      have pledge := UInt64.le_iff_toNat_le.mp (require_eq_ok.mp tally)
      constructor
      · rintro ⟨⟨rest, enough, sum⟩, -, -⟩
        exact ⟨by omega, fun _ => by omega, nofun⟩
      · rintro ⟨difference, gateways, -⟩
        have enough := covers difference
        have gateways := gateways rfl
        exact ⟨⟨amount.toNat - toKeyTotal vout - gatewayTotal vout, by omega, by omega⟩,
          fun _ => by omega, nofun⟩
  | false =>
      obtain ⟨same, expected⟩ := require_bind_eq_ok.mp tally
      have sameTotal := congrArg UInt64.toNat same
      have isExpected := congrArg UInt64.toNat (require_eq_ok.mp expected)
      simp only [UInt64.toNat_add] at isExpected
      have isBurnt := burnt_le vout
      constructor
      · rintro ⟨⟨rest, enough, sum⟩, -, burn⟩
        obtain ⟨contract, -, none_⟩ := burn rfl
        exact ⟨by omega, nofun, fun _ => ⟨by omega, none_⟩⟩
      · rintro ⟨difference, -, burn⟩
        obtain ⟨contract, none_⟩ := burn rfl
        have enough := covers difference
        exact ⟨⟨amount.toNat - toKeyTotal vout, by omega, by omega⟩, nofun,
          fun _ => ⟨by omega, by omega, none_⟩⟩

/-- The amounts that the claim of a cancellation is about, in exact numbers. -/
structure CancelBounds (keyOf : ℕ → Option PublicKey) (cpd : ContractPrivateDetails)
    (amount : UInt64)
    (vout : List TxOutV) : Prop where
  fee : ∃ fee, toKeyTotal vout + gatewayTotal vout + fee = amount.toNat
  pledge : cpd.amountBPledge.toNat ≤ paidTo keyOf 0 vout

structure CancelFits (amount : UInt64) (vout : List TxOutV) : Prop where
  difference : toKeyTotal vout ≤ amount.toNat + 2 ^ 63
  gateways : gatewayTotal vout ≤ amount.toNat - toKeyTotal vout

theorem getMinimumAllowedFeeForContract_le (txFee : Option UInt64) :
    (getMinimumAllowedFeeForContract txFee).toNat ≤ txMinimumFee.toNat := by
  cases txFee with
  | none => exact Nat.le_refl _
  | some txFee =>
      change (if txFee ≤ txMinimumFee then txFee else txMinimumFee).toNat ≤ txMinimumFee.toNat
      split
      next less => exact UInt64.le_iff_toNat_le.mp less
      next more => exact Nat.le_refl _

theorem cancelBounds_iff {keyOf : ℕ → Option PublicKey} {cpd : ContractPrivateDetails}
    {least amount : UInt64} {vout : List TxOutV} {t : Tally}
    (sums : t.Sums (toKeyTotal vout) (paidTo keyOf 0 vout) (burnt vout))
    (pledge : cpd.amountBPledge ≤ t.outputsToParty) (small : least.toNat < 2 ^ 63)
    (fee : checkFee least amount t = .ok ()) :
    CancelBounds keyOf cpd amount vout ↔ CancelFits amount vout := by
  have isParty := sums.party
  have covers := checkFee_spec fee small sums.total
  rw [UInt64.le_iff_toNat_le] at pledge
  constructor
  · rintro ⟨⟨rest, sum⟩, -⟩
    exact ⟨by omega, by omega⟩
  · rintro ⟨difference, gateways⟩
    have enough := covers difference
    exact ⟨⟨amount.toNat - toKeyTotal vout - gatewayTotal vout, by omega⟩, by omega⟩

/-! ## What passed checks say -/

theorem amount_of_checkAmount {cpd : ContractPrivateDetails} {fee amount : UInt64}
    {ms : TxinMultisig} (passed : checkAmount cpd fee ms amount = .ok ()) : ms.amount = amount :=
  (require_bind_eq_ok.mp passed).1

theorem amount_of_checkReleaseAmount {tx : Tx} {cpd : ContractPrivateDetails} {ms : TxinMultisig}
    {amount : UInt64}
    (passed : checkReleaseAmount tx cpd ms amount = .ok ()) : ms.amount = amount := by
  obtain ⟨_, isAmount, -⟩ := bind_eq_ok.mp passed
  exact amount_of_checkAmount isAmount

theorem amount_of_checkCancelAmount {tx : Tx} {msId : Hash} {cpd : ContractPrivateDetails}
    {fee amount : UInt64} {ms : TxinMultisig} {sourceMsOut : TxoutMultisig}
    (passed : checkCancelAmount tx msId cpd fee ms amount sourceMsOut = .ok ()) :
    ms.amount = amount := by
  obtain ⟨_, -, rest⟩ := bind_eq_ok.mp passed
  obtain ⟨_, isAmount, -⟩ := bind_eq_ok.mp rest
  exact amount_of_checkAmount isAmount

theorem msAmount_of_sourceAmount {sourceTx : Tx} {n : ℕ} {amount : UInt64}
    (isAmount : sourceAmount sourceTx n = .ok amount) : msAmount sourceTx n = amount := by
  rw [sourceAmount] at isAmount
  rw [msAmount]
  cases isOut : sourceTx.vout[n]? with
  | none => simp [isOut] at isAmount
  | some o =>
      rw [isOut] at isAmount
      cases o with
      | inl o => exact Except.ok.inj isAmount
      | inr o => cases isAmount

theorem msAmount_of_multisigOut {sourceTx : Tx} {n : ℕ} {amount : UInt64} {ms : TxoutMultisig}
    (isOut : multisigOut sourceTx.vout n = .ok (amount, ms)) : msAmount sourceTx n = amount := by
  obtain ⟨amount', ms', there⟩ :=
    (multisigOut_failsOnly_iff sourceTx n).mp (by rw [isOut]; exact failsOnly_ok _)
  rw [multisigOut, there] at isOut
  cases isOut
  rw [msAmount, there]

theorem tally_of_checkReleaseOutputs {p : Primitives} {tx : Tx} {releaseTypeNormal : Bool}
    {cpd : ContractPrivateDetails} {amount : UInt64} {aKeys : Account}
    (passed : checkReleaseOutputs p tx releaseTypeNormal cpd amount aKeys = .ok ()) :
    ∃ t : Tally,
      t.Sums (toKeyTotal tx.vout) (paidTo (partyKey p tx aKeys cpd.aAddr.spendPublicKey) 0 tx.vout)
        (burnt tx.vout) ∧
      checkReleaseTally cpd releaseTypeNormal t = .ok () ∧
        checkFee txDefaultFee amount t = .ok () := by
  obtain ⟨tsa, -, passed⟩ := found_bind_eq_ok.mp passed
  obtain ⟨-, passed⟩ := require_bind_eq_ok.mp passed
  obtain ⟨-, passed⟩ := require_bind_eq_ok.mp passed
  obtain ⟨-, passed⟩ := require_bind_eq_ok.mp passed
  obtain ⟨-, passed⟩ := require_bind_eq_ok.mp passed
  obtain ⟨-, passed⟩ := require_bind_eq_ok.mp passed
  obtain ⟨t, outputs, passed⟩ := bind_eq_ok.mp passed
  obtain ⟨_, tally, fee⟩ := bind_eq_ok.mp passed
  exact ⟨t, checkOutputs_sums outputs, tally, fee⟩

theorem tally_of_checkCancelOutputs {p : Primitives} {tx : Tx} {cpd : ContractPrivateDetails}
    {least amount : UInt64} {bKeys : Account}
    (passed : checkCancelOutputs p tx cpd least amount bKeys = .ok ()) :
    ∃ t : Tally,
      t.Sums (toKeyTotal tx.vout) (paidTo (partyKey p tx bKeys cpd.bAddr.spendPublicKey) 0 tx.vout)
        (burnt tx.vout) ∧ cpd.amountBPledge ≤ t.outputsToParty ∧
          checkFee least amount t = .ok () := by
  obtain ⟨tsa, -, passed⟩ := found_bind_eq_ok.mp passed
  obtain ⟨-, passed⟩ := require_bind_eq_ok.mp passed
  obtain ⟨-, passed⟩ := require_bind_eq_ok.mp passed
  obtain ⟨-, passed⟩ := require_bind_eq_ok.mp passed
  obtain ⟨-, passed⟩ := require_bind_eq_ok.mp passed
  obtain ⟨t, outputs, passed⟩ := bind_eq_ok.mp passed
  obtain ⟨pledge, fee⟩ := require_bind_eq_ok.mp passed
  exact ⟨t, checkOutputs_sums outputs, pledge, fee⟩

/-! ## When the validators protect the party -/

section Protection

variable (p : Primitives)

/-- The conditions are those of the places where the checks before them have passed. -/
def ProposalWhen (account : Account) (wti : WalletTransferInfo) (prop : ProposalBody) : Prop :=
  UnlockTimesFit wti.tx ∧ (checkUnlockTime wti.tx = .ok () →
    ∀ inputsAmount, checkProposalInputs wti.tx prop.txTemplate = .ok inputsAmount →
      let decrypted := decryptPayloadItems p.crypto wti.isIncomeModeEncryption
        (payload prop.txTemplate) account.keys
      decrypted.isSome ∧ ∀ items, decrypted = some items →
        ∀ cpd, checkProposalExtra p prop.txTemplate items.1 = .ok cpd →
          UnlockTimesFit prop.txTemplate ∧ (checkUnlockTime prop.txTemplate = .ok () →
            ∀ msId, checkProposalOutputs p prop cpd inputsAmount = .ok msId →
              ProposalFits prop.txTemplate cpd))

theorem validateEscrowProposal_meets_iff (account : Account) (wti : WalletTransferInfo)
    (prop : ProposalBody) :
    Meets Refuses (fun accepted => ProposalBounds prop.txTemplate accepted.2.2)
        (validateEscrowProposal p account wti prop) ↔ ProposalWhen p account wti prop := by
  rw [validateEscrowProposal, meets_check_bind, checkUnlockTime_failsOnly_iff]
  refine and_congr_right fun _ => imp_congr_right fun _ => ?_
  rw [(checkProposalInputs_failsOnly _ _).meets_bind]
  refine forall₂_congr fun inputsAmount inputs => ?_
  rw [meets_bind]
  refine and_congr (failsOnly_found_iff nofun) ?_
  · simp only [found_eq_ok]
    refine forall₂_congr fun items _ => ?_
    rw [(checkProposalExtra_failsOnly _ _ _).meets_bind]
    refine forall₂_congr fun cpd _ => ?_
    rw [meets_check_bind, checkUnlockTime_failsOnly_iff]
    refine and_congr_right fun _ => imp_congr_right fun _ => ?_
    rw [(checkProposalOutputs_failsOnly _ _ _ _).meets_bind]
    refine forall₂_congr fun msId outputs => ?_
    rw [meets_ok]
    exact checkProposalOutputs_iff outputs (checkProposalInputs_total inputs)

/-- The conditions of a template that releases, and what has to hold once it has
passed everything. -/
def ReleaseWhen (tx : Tx) (releaseTypeNormal : Bool) (cpd : ContractPrivateDetails)
    (sourceMsOut : TxoutMultisig) (msId : Hash) (sourceMsOutIndex : ℕ) (sourceTx : Tx)
    (aKeys : Account) (last : Prop) : Prop :=
  ∀ ms, checkReleaseInput tx sourceMsOut msId = .ok ms →
    sourceMsOutIndex < sourceTx.vout.length ∧
      ∀ amount, sourceAmount sourceTx sourceMsOutIndex = .ok amount →
      (checkReleaseAmount tx cpd ms amount = .ok () →
        UnlockTimesFit tx ∧ (checkUnlockTime tx = .ok () →
          (checkReleaseOutputs p tx releaseTypeNormal cpd ms.amount aKeys = .ok () →
            SignatureHasCase tx ∧
              (checkSignatures tx
                (checkReleaseSignature p tx sourceMsOut sourceMsOutIndex sourceTx aKeys) = .ok () →
                last))))

theorem validateEscrowRelease_meets_iff (tx : Tx) (releaseTypeNormal : Bool)
    (cpd : ContractPrivateDetails) (sourceMsOut : TxoutMultisig) (msId : Hash)
    (sourceMsOutIndex : ℕ) (sourceTx : Tx) (aKeys : Account) (last : Prop) :
    Meets Refuses (fun _ => last)
        (validateEscrowRelease p tx releaseTypeNormal cpd sourceMsOut msId sourceMsOutIndex
          sourceTx aKeys) ↔
      ReleaseWhen p tx releaseTypeNormal cpd sourceMsOut msId sourceMsOutIndex sourceTx aKeys
        last := by
  rw [validateEscrowRelease, (checkReleaseInput_failsOnly _ _ _).meets_bind]
  refine forall₂_congr fun ms _ => ?_
  rw [meets_bind, sourceAmount_failsOnly_iff]
  refine and_congr_right fun _ => forall₂_congr fun amount _ => ?_
  rw [(checkReleaseAmount_failsOnly _ _ _ _).meets_check_bind]
  refine imp_congr_right fun _ => ?_
  rw [meets_check_bind, checkUnlockTime_failsOnly_iff]
  refine and_congr_right fun _ => imp_congr_right fun _ => ?_
  rw [(checkReleaseOutputs_failsOnly _ _ _ _ _ _).meets_check_bind]
  refine imp_congr_right fun _ => ?_
  rw [meets_check,
    checkSignatures_failsOnly_iff fun _ => checkReleaseSignature_failsOnly _ _ _ _ _ _ _]

theorem releaseWhen_bounds_iff (tx : Tx) (releaseTypeNormal : Bool) (cpd : ContractPrivateDetails)
    (sourceMsOut : TxoutMultisig) (msId : Hash) (sourceMsOutIndex : ℕ) (sourceTx : Tx)
    (aKeys : Account) :
    ReleaseWhen p tx releaseTypeNormal cpd sourceMsOut msId sourceMsOutIndex sourceTx aKeys
        (ReleaseBounds (partyKey p tx aKeys cpd.aAddr.spendPublicKey) cpd releaseTypeNormal
          (msAmount sourceTx sourceMsOutIndex) tx.vout) ↔
      ReleaseWhen p tx releaseTypeNormal cpd sourceMsOut msId sourceMsOutIndex sourceTx aKeys
        (ReleaseFits cpd releaseTypeNormal (msAmount sourceTx sourceMsOutIndex) tx.vout) := by
  refine forall₂_congr fun ms _ => and_congr_right fun _ => forall₂_congr fun amount isAmount =>
    imp_congr_right fun amounts => and_congr_right fun _ => imp_congr_right fun _ =>
      imp_congr_right fun outputs =>
    and_congr_right fun _ => imp_congr_right fun _ => ?_
  have sameAmount : msAmount sourceTx sourceMsOutIndex = ms.amount := by
    rw [msAmount_of_sourceAmount isAmount, amount_of_checkReleaseAmount amounts]
  obtain ⟨t, sums, tally, fee⟩ := tally_of_checkReleaseOutputs outputs
  rw [sameAmount]
  exact releaseBounds_iff sums tally fee

def CancelWhen (tx : Tx) (msId : Hash) (cpd : ContractPrivateDetails) (sourceTx : Tx)
    (sourceMsOutIndex : ℕ) (bKeys : Account) (minimumReleaseFee : UInt64) : Prop :=
  ∀ ms, checkCancelInput tx sourceTx sourceMsOutIndex = .ok ms →
    SourceIsMultisig sourceTx sourceMsOutIndex ∧
      ∀ amount sourceMsOut, multisigOut sourceTx.vout sourceMsOutIndex = .ok (amount, sourceMsOut) →
        (checkCancelAmount tx msId cpd minimumReleaseFee ms amount sourceMsOut = .ok () →
          UnlockTimesFit tx ∧ (checkUnlockTime tx = .ok () →
            (checkCancelOutputs p tx cpd minimumReleaseFee ms.amount bKeys = .ok () →
              SignatureHasCase tx ∧
                (checkSignatures tx (checkCancelSignature p tx sourceMsOut) = .ok () →
                CancelFits (msAmount sourceTx sourceMsOutIndex) tx.vout))))

theorem validateEscrowCancelRelease_meets_iff (tx : Tx) (msId : Hash) (cpd : ContractPrivateDetails)
    (sourceTx : Tx) (sourceMsOutIndex : ℕ) (bKeys : Account) {minimumReleaseFee : UInt64}
    (small : minimumReleaseFee.toNat < 2 ^ 63) :
    Meets Refuses
        (fun _ => CancelBounds (partyKey p tx bKeys cpd.bAddr.spendPublicKey) cpd
          (msAmount sourceTx sourceMsOutIndex)
          tx.vout)
        (validateEscrowCancelRelease p tx msId cpd sourceTx sourceMsOutIndex bKeys
          minimumReleaseFee) ↔
      CancelWhen p tx msId cpd sourceTx sourceMsOutIndex bKeys minimumReleaseFee := by
  rw [validateEscrowCancelRelease, (checkCancelInput_failsOnly _ _ _).meets_bind]
  refine forall₂_congr fun ms _ => ?_
  rw [meets_bind, multisigOut_failsOnly_iff, Prod.forall]
  refine and_congr_right fun _ => forall₃_congr fun amount sourceMsOut isOut => ?_
  rw [(checkCancelAmount_failsOnly _ _ _ _ _ _ _).meets_check_bind]
  refine imp_congr_right fun amounts => ?_
  rw [meets_check_bind, checkUnlockTime_failsOnly_iff]
  refine and_congr_right fun _ => imp_congr_right fun _ => ?_
  rw [(checkCancelOutputs_failsOnly _ _ _ _ _ _).meets_check_bind]
  refine imp_congr_right fun outputs => ?_
  rw [meets_check, checkSignatures_failsOnly_iff fun _ => checkCancelSignature_failsOnly _ _ _ _]
  refine and_congr_right fun _ => imp_congr_right fun _ => ?_
  obtain ⟨t, sums, pledge, fee⟩ := tally_of_checkCancelOutputs outputs
  rw [msAmount_of_multisigOut isOut, ← amount_of_checkCancelAmount amounts]
  exact cancelBounds_iff sums pledge small fee

/-- What is left after the templates of an acceptance. -/
def ContractWhen (account : Account) (wti : WalletTransferInfo) (cpd : ContractPrivateDetails)
    (isA : Bool) (decryptedItems : List PayloadItemsV) : Prop :=
  let n := getMultisigOutIndex wti.tx.vout
  let msId := p.getMultisigOutId wti.tx n
  let last := getTxFlags wti.tx = txFlagSignatureModeSeparate → getTxExpirationTime wti.tx ≠ 0 →
    UnlockTimesFit wti.tx
  n < wti.tx.vout.length → msId ≠ Blob.filled 32 0 →
    ∀ amount ms, multisigOut wti.tx.vout n = .ok (amount, ms) →
    ∀ rtb, releaseTemplates p decryptedItems = .ok rtb →
      if isA then
        ReleaseWhen p rtb.txNormalTemplate true cpd ms msId n wti.tx account
          (ReleaseWhen p rtb.txBurnTemplate false cpd ms msId n wti.tx account last)
      else last

theorem releaseTemplates_failsOnly (decryptedItems : List PayloadItemsV) :
    FailsOnly Refuses (releaseTemplates p decryptedItems) :=
  failsOnly_found_bind refuses fun _ _ => failsOnly_require_bind refuses fun _ =>
    failsOnly_require_bind refuses fun _ =>
    failsOnly_found refuses _

theorem of_isMultisigOut {o : TxOutV} (isMultisig : isMultisigOut o = true) :
    ∃ amount ms, o = .inl ⟨amount, .inr ms⟩ := by
  obtain ⟨amount, otk | ms⟩ | o := o
  · cases isMultisig
  · exact ⟨amount, ms, rfl⟩
  · cases isMultisig

theorem sourceIsMultisig_getMultisigOutIndex {tx : Tx}
    (isIndex : getMultisigOutIndex tx.vout < tx.vout.length) :
    SourceIsMultisig tx (getMultisigOutIndex tx.vout) := by
  obtain ⟨amount, ms, isOut⟩ := of_isMultisigOut (List.findIdx_getElem (w := isIndex))
  exact ⟨amount, ms, isOut ▸ List.getElem?_eq_getElem isIndex⟩

theorem checkReleaseTemplates_meets_iff (account : Account) (isA : Bool)
    (rtb : EscrowReleseTemplatesBody) (cpd : ContractPrivateDetails) (ms : TxoutMultisig)
    (msId : Hash) (n : ℕ) (sourceTx : Tx) (last : Prop) :
    Meets Refuses (fun _ => last) (checkReleaseTemplates p account isA rtb cpd ms msId n sourceTx) ↔
      if isA then
        ReleaseWhen p rtb.txNormalTemplate true cpd ms msId n sourceTx account
          (ReleaseWhen p rtb.txBurnTemplate false cpd ms msId n sourceTx account last)
      else last := by
  cases isA with
  | false => exact meets_ok
  | true =>
      change Meets Refuses _ (validateEscrowRelease p rtb.txNormalTemplate true cpd ms msId n
        sourceTx account >>= _) ↔ _
      rw [meets_bind_iff_meets, validateEscrowRelease_meets_iff, validateEscrowRelease_meets_iff]
      rfl

theorem validateEscrowContract_failsOnly_iff (account : Account) (wti : WalletTransferInfo)
    (cpd : ContractPrivateDetails) (isA : Bool) (decryptedItems : List PayloadItemsV) :
    FailsOnly Refuses (validateEscrowContract p account wti cpd isA decryptedItems) ↔
      ContractWhen p account wti cpd isA decryptedItems := by
  rw [failsOnly_iff_meets, validateEscrowContract, meets_require_bind refuses]
  refine imp_congr_right fun isIndex => ?_
  rw [meets_require_bind refuses]
  refine imp_congr_right fun _ => ?_
  have isMultisig :=
    (multisigOut_failsOnly_iff _ _).mpr (sourceIsMultisig_getMultisigOutIndex isIndex)
  rw [isMultisig.meets_bind, Prod.forall]
  refine forall₃_congr fun amount ms _ => ?_
  rw [(releaseTemplates_failsOnly p decryptedItems).meets_bind]
  refine forall₂_congr fun rtb _ => ?_
  rw [meets_bind_iff_meets]
  simp only [meets_require_bind refuses, meets_check_bind, meets_ok, checkUnlockTime_failsOnly_iff,
    implies_true, and_true]
  exact checkReleaseTemplates_meets_iff p account isA rtb cpd ms _ _ wti.tx _

/-- Each validator protects its party if and only if its conditions hold. -/
theorem validators_protect_iff :
    (∀ account wti prop,
      Meets Refuses (fun accepted => ProposalBounds prop.txTemplate accepted.2.2)
        (validateEscrowProposal p account wti prop) ↔ ProposalWhen p account wti prop) ∧
    (∀ tx releaseTypeNormal cpd sourceMsOut msId sourceMsOutIndex sourceTx aKeys,
      Meets Refuses
        (fun _ => ReleaseBounds (partyKey p tx aKeys cpd.aAddr.spendPublicKey) cpd releaseTypeNormal
          (msAmount sourceTx sourceMsOutIndex) tx.vout)
        (validateEscrowRelease p tx releaseTypeNormal cpd sourceMsOut msId sourceMsOutIndex
          sourceTx aKeys) ↔
      ReleaseWhen p tx releaseTypeNormal cpd sourceMsOut msId sourceMsOutIndex sourceTx aKeys
        (ReleaseFits cpd releaseTypeNormal (msAmount sourceTx sourceMsOutIndex) tx.vout)) ∧
    (∀ tx msId cpd sourceTx sourceMsOutIndex bKeys txFee,
      Meets Refuses
        (fun _ => CancelBounds (partyKey p tx bKeys cpd.bAddr.spendPublicKey) cpd
          (msAmount sourceTx sourceMsOutIndex)
          tx.vout)
        (validateEscrowCancelRelease p tx msId cpd sourceTx sourceMsOutIndex bKeys
          (getMinimumAllowedFeeForContract txFee)) ↔
      CancelWhen p tx msId cpd sourceTx sourceMsOutIndex bKeys
        (getMinimumAllowedFeeForContract txFee)) ∧
    ∀ account wti cpd isA decryptedItems,
      FailsOnly Refuses (validateEscrowContract p account wti cpd isA decryptedItems) ↔
        ContractWhen p account wti cpd isA decryptedItems := by
  refine ⟨validateEscrowProposal_meets_iff p, ?_, ?_, validateEscrowContract_failsOnly_iff p⟩
  · intro tx releaseTypeNormal cpd sourceMsOut msId sourceMsOutIndex sourceTx aKeys
    rw [validateEscrowRelease_meets_iff, releaseWhen_bounds_iff]
  · intro tx msId cpd sourceTx sourceMsOutIndex bKeys txFee
    have small := getMinimumAllowedFeeForContract_le txFee
    exact validateEscrowCancelRelease_meets_iff p tx msId cpd sourceTx sourceMsOutIndex bKeys
      (Nat.lt_of_le_of_lt small (by decide))

end Protection

/-! ## Hostile templates -/

/-- Its pledges and its payment add up to 8 in 64 bits, with the fee. -/
def wrappedDetails : ContractPrivateDetails where
  aAddr := smallDestination
  bAddr := ⟨Blob.filled 32 6, Blob.filled 32 3, 0⟩
  amountToPay := 3
  amountAPledge := 5
  amountBPledge := 0 - txDefaultFee

def smallPrimitives : Primitives where
  crypto := smallCrypto
  derivePublicKey der _ spendPublicKey := smallCrypto.generateKeyDerivation spendPublicKey der
  checkSignature _ _ _ := false
  getTransactionHash _ := Blob.filled 32 1
  preparePrefixHashForSign _ _ txHash := txHash
  getMultisigOutId _ _ := Blob.filled 32 7
  loadContractPrivateDetails _ := some wrappedDetails
  unserializeReleaseTemplates _ := none

def smallAccount : Account := ⟨smallDestination, smallReceiver⟩

def escrowProposalTx : Tx where
  version := 1
  hardforkId := 0
  vin := []
  extra := []
  vout := []
  attachment := []
  signatures := []
  proofs := []

/-- Its items are not encrypted, and the checksum among them is of another secret. -/
def wrappedProposal : ProposalBody where
  txOnetimeSecretKey := Blob.filled 32 9
  txTemplate := { escrowProposalTx with
    vin := [.inr (.inl ⟨200, [], Blob.filled 32 0, [.inl ⟨2, 4⟩]⟩)]
    extra := [checksumItem ⟨nullDerivation, 0⟩,
      serviceItem ⟨bcEscrowServiceId, bcEscrowServiceInstructionPrivateDetails, [], [],
        txServiceAttachmentEncryptBody⟩,
      .inr (.inr (.inr (.inr (.inr (.inr (.inr (.inr (.inr (.inl ⟨1000⟩))))))))),
      .inr (.inr (.inr
        (.inr (.inr (.inr (.inr (.inr (.inr (.inr (.inl ⟨txFlagSignatureModeSeparate⟩))))))))))]
    vout := [.inl ⟨100, .inr ⟨2, [Blob.filled 32 15, Blob.filled 32 12]⟩⟩,
      .inl ⟨50, .inl ⟨Blob.filled 32 15, 0⟩⟩] }

def escrowTx : Tx := { escrowProposalTx with
  vout := [.inl ⟨30000000000, .inr ⟨2, [Blob.filled 32 15, Blob.filled 32 12]⟩⟩] }

/-- Its signature is none. -/
def unsignedRelease : Tx := { escrowProposalTx with
  vin := [.inr (.inr (.inl ⟨30000000000, Blob.filled 32 7, 2, []⟩))]
  extra := [serviceItem ⟨bcEscrowServiceId, bcEscrowServiceInstructionReleaseNormal, [], [], 0⟩]
  vout := [.inl ⟨5, .inl ⟨Blob.filled 32 6, 0⟩⟩]
  signatures := [.inr (.inl ())] }

/-- A proposal whose multisig amount does not cover the pledge of B, and a release template that B
has not signed. -/
theorem hostile_templates :
    (∃ accepted,
      validateEscrowProposal smallPrimitives smallAccount ⟨escrowProposalTx, true⟩ wrappedProposal =
        .ok accepted ∧ ¬ProposalBounds wrappedProposal.txTemplate accepted.2.2) ∧
      validateEscrowRelease smallPrimitives unsignedRelease true
        { wrappedDetails with amountBPledge := 4 }
        ⟨2, [Blob.filled 32 15, Blob.filled 32 12]⟩ (Blob.filled 32 7) 0 escrowTx smallAccount =
          .error .thrown := by
  refine ⟨⟨_, rfl, ?_⟩, rfl⟩
  rintro ⟨⟨amount, isAmount, enough⟩, -⟩
  cases isAmount
  exact absurd enough (by decide)

end Zano.Wallet.EscrowValidation
