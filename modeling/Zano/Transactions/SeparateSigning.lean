import Mathlib
import Zano.Serialization.TransactionId
import Zano.Serialization.Variants

/-! # What a separate signature signs

In separate mode each input says how many outputs, extra items and attachments there were when it
was signed, and what it signs is the transaction cut back to that. The last input has to name all of
them, and it signs the transaction as it is. Where the extra items name a number of attachments,
that number counts from the first input on.
-/

namespace Zano.SeparateSigning

open Serialization

def txFlagSignatureModeSeparate : UInt64 := 1

def nullHash : Hash := Blob.filled 32 0

/-- Inputs of other kinds have no details. -/
def getTxinEtcOptions : TxinV → List TxinEtcDetailsV
  | .inr (.inl toKey) => toKey.etcDetails
  | .inr (.inr (.inl multisig)) => multisig.etcDetails
  | .inr (.inr (.inr (.inr zcInput))) => zcInput.etcDetails
  | _ => []

def signedPartsOf (input : TxinV) : Option SignedParts :=
  getTypeInVariantContainer Sum.getLeft? (getTxinEtcOptions input)

def attachmentInfoOf (input : TxinV) : Option ExtraAttachmentInfo :=
  getTypeInVariantContainer Sum.getRight? (getTxinEtcOptions input)

def attachmentInfoOfExtra (extra : List PayloadItemsV) : Option ExtraAttachmentInfo :=
  getTypeInVariantContainer PayloadItemsV.extraAttachmentInfo extra

def isSeparate (tx : Transaction) : Prop :=
  getTxFlags tx.toTransactionPrefix &&& txFlagSignatureModeSeparate ≠ 0

instance (tx : Transaction) : Decidable (isSeparate tx) := by
  unfold isSeparate
  infer_instance

/-- `signed_outputs_count`, `signed_extras_count` and `signed_att_count`. -/
structure SignedCounts where
  outputs : ℕ
  extras : ℕ
  att : ℕ
  deriving DecidableEq, Repr

/-- One input of the loop; none of the numbers may become smaller. -/
def countInput (counts : SignedCounts) (input : TxinV) : Option SignedCounts :=
  match signedPartsOf input with
  | none => none
  | some so =>
      if so.nOuts.toNat < counts.outputs then none
      else if so.nExtras.toNat < counts.extras then none
      else
        match attachmentInfoOf input with
        | none => some ⟨so.nOuts.toNat, so.nExtras.toNat, counts.att⟩
        | some eai =>
            if eai.cnt.toNat < counts.att then none
            else some ⟨so.nOuts.toNat, so.nExtras.toNat, eai.cnt.toNat⟩

def defaultCounts (tx : Transaction) : SignedCounts :=
  ⟨0, 0, ((attachmentInfoOfExtra tx.extra).map fun eai => eai.cnt.toNat).getD 0⟩

def signedCounts (tx : Transaction) (inIndex : ℕ) : Option SignedCounts :=
  (tx.vin.take (inIndex + 1)).foldlM countInput (defaultCounts tx)

def getTransactionHash (cnFastHash : Bytes → Hash) (tx : TransactionPrefix) : Hash :=
  cnFastHash (prefixHashData tx)

def cropped (tx : TransactionPrefix) (inputs : ℕ) (counts : SignedCounts) : TransactionPrefix :=
  { tx with
    vin := tx.vin.take inputs
    vout := tx.vout.take counts.outputs
    extra := tx.extra.take counts.extras }

/-- The null hash is the answer to a transaction that cannot be signed at this input. -/
def preparePrefixHashForSign (cnFastHash : Bytes → Hash) (tx : Transaction) (inIndex : ℕ)
    (txId : Hash) : Hash :=
  if tx.vin.length ≤ inIndex then nullHash
  else if isSeparate tx then
    match signedCounts tx inIndex with
    | none => nullHash
    | some counts =>
        if inIndex = tx.vin.length - 1 then
          if counts.outputs ≠ tx.vout.length then nullHash
          else if counts.extras ≠ tx.extra.length then nullHash
          else if counts.att ≠ tx.attachment.length then nullHash
          else txId
        else if tx.vout.length < counts.outputs then nullHash
        else if tx.extra.length < counts.extras then nullHash
        else if tx.attachment.length < counts.att then nullHash
        else getTransactionHash cnFastHash (cropped tx.toTransactionPrefix (inIndex + 1) counts)
  else txId

/-- `push_back` on the details of an input that has any. -/
def addEtcOptions (items : List TxinEtcDetailsV) : TxinV → TxinV
  | .inr (.inl toKey) => .inr (.inl { toKey with etcDetails := toKey.etcDetails ++ items })
  | .inr (.inr (.inl multisig)) =>
      .inr (.inr (.inl { multisig with etcDetails := multisig.etcDetails ++ items }))
  | .inr (.inr (.inr (.inr zcInput))) =>
      .inr (.inr (.inr (.inr { zcInput with etcDetails := zcInput.etcDetails ++ items })))
  | input => input

/-- `get_attachment_extra_info_details` -/
def attachmentExtraInfoDetails (cnFastHash : Bytes → Hash)
    (attachment : List PayloadItemsV) : ExtraAttachmentInfo :=
  if attachment.isEmpty then ⟨0, nullHash, 0⟩
  else
    let (buff, ended) := (vector payloadItemsV).write attachment
    if ended then ⟨UInt64.ofNat buff.length, cnFastHash buff, UInt64.ofNat attachment.length⟩
    else ⟨0, nullHash, 0⟩

/-- What `construct_tx` puts into the details of the inputs that it adds, once
everything else is there. -/
def sealInputs (cnFastHash : Bytes → Hash) (tx : Transaction)
    (inputStarterIndex : ℕ) : Transaction :=
  let so : SignedParts := ⟨UInt32.ofNat tx.vout.length, UInt32.ofNat tx.extra.length⟩
  let items : List TxinEtcDetailsV :=
    .inl so :: if tx.attachment.isEmpty then []
      else [.inr (attachmentExtraInfoDetails cnFastHash tx.attachment)]
  { tx with vin := tx.vin.take inputStarterIndex ++
    (tx.vin.drop inputStarterIndex).map (addEtcOptions items) }

/-! ## What is hashed -/

/-- The prefix whose hash the answer is, in separate mode. -/
def signedPrefix (tx : Transaction) (inIndex : ℕ) : Option TransactionPrefix :=
  if tx.vin.length ≤ inIndex then none
  else
    (signedCounts tx inIndex).bind fun counts =>
      if counts.outputs ≤ tx.vout.length ∧ counts.extras ≤ tx.extra.length ∧
        counts.att ≤ tx.attachment.length ∧
          (inIndex = tx.vin.length - 1 →
            counts.outputs = tx.vout.length ∧ counts.extras = tx.extra.length ∧
            counts.att = tx.attachment.length) then
        some (cropped tx.toTransactionPrefix (inIndex + 1) counts)
      else none

variable {cnFastHash : Bytes → Hash} {tx other : Transaction} {inIndex : ℕ}

/-- Nothing is cut off where everything is counted. -/
theorem cropped_whole {tx : TransactionPrefix} {inputs : ℕ} {counts : SignedCounts}
    (allInputs : inputs = tx.vin.length) (allOutputs : counts.outputs = tx.vout.length)
    (allExtras : counts.extras = tx.extra.length) :
    cropped tx inputs counts = tx := by
  rw [cropped, allInputs, allOutputs, allExtras, List.take_length, List.take_length,
    List.take_length]

/-- The answer for a transaction that is given its own id. -/
theorem preparePrefixHashForSign_eq (separate : isSeparate tx) :
    preparePrefixHashForSign cnFastHash tx inIndex
      (getTransactionHash cnFastHash tx.toTransactionPrefix) =
      match signedPrefix tx inIndex with
      | none => nullHash
      | some hashed => getTransactionHash cnFastHash hashed := by
  rw [preparePrefixHashForSign, signedPrefix]
  by_cases outside : tx.vin.length ≤ inIndex
  · rw [if_pos outside, if_pos outside]
  · rw [if_neg outside, if_neg outside, if_pos separate]
    cases signedCounts tx inIndex with
    | none => rfl
    | some counts =>
        simp only [Option.bind_some]
        split
        next last =>
          split
          next few => rw [if_neg (by omega)]
          next allOutputs =>
            split
            next few => rw [if_neg (by omega)]
            next allExtras =>
              split
              next few => rw [if_neg (by omega)]
              next allAttachments =>
                rw [if_pos (by omega),
                  cropped_whole (by omega) (not_not.mp allOutputs) (not_not.mp allExtras)]
        next notLast =>
          split
          next many => rw [if_neg (by omega)]
          next someOutputs =>
            split
            next many => rw [if_neg (by omega)]
            next someExtras =>
              split
              next many => rw [if_neg (by omega)]
              next someAttachments => rw [if_pos (by omega)]

/-- What is hashed, told by the counts that the input gives. -/
theorem signedPrefix_eq_some {hashed : TransactionPrefix} :
    signedPrefix tx inIndex = some hashed ↔
      inIndex < tx.vin.length ∧ ∃ counts, signedCounts tx inIndex = some counts ∧
      (counts.outputs ≤ tx.vout.length ∧ counts.extras ≤ tx.extra.length ∧
        counts.att ≤ tx.attachment.length) ∧
      (inIndex = tx.vin.length - 1 →
        counts.outputs = tx.vout.length ∧ counts.extras = tx.extra.length ∧
        counts.att = tx.attachment.length) ∧
      cropped tx.toTransactionPrefix (inIndex + 1) counts = hashed := by
  rw [signedPrefix]
  split
  next outside => exact iff_of_false (by simp) fun signed => by omega
  next inside =>
    rw [Option.bind_eq_some_iff]
    constructor
    · rintro ⟨counts, counted, fits⟩
      split at fits
      next fitting =>
        exact ⟨by omega, counts, counted, by omega, fitting.2.2.2, Option.some.inj fits⟩
      next => cases fits
    · rintro ⟨-, counts, counted, fits, whole, isHashed⟩
      exact ⟨counts, counted, by rw [if_pos ⟨fits.1, fits.2.1, fits.2.2, whole⟩, isHashed]⟩

/-! ## Appending -/

/-- A later stage of a transaction, to which others have added. Its signatures and
proofs may be any. -/
structure Extends (tx later : Transaction) (vin : List TxinV) (vout : List TxOutV)
    (extra : List PayloadItemsV)
    (attachment : List PayloadItemsV) : Prop where
  version : later.version = tx.version
  hardforkId : later.hardforkId = tx.hardforkId
  vin : later.vin = tx.vin ++ vin
  vout : later.vout = tx.vout ++ vout
  extra : later.extra = tx.extra ++ extra
  attachment : later.attachment = tx.attachment ++ attachment

/-- The first item of a kind stays the first one. -/
theorem getTypeInVariantContainer_append {α β : Type} {kind : α → Option β}
    {container later : List α} {item : β}
    (found : getTypeInVariantContainer kind container = some item) :
    getTypeInVariantContainer kind (container ++ later) = some item := by
  rw [getTypeInVariantContainer] at found ⊢
  rw [List.findSome?_append, found]
  rfl

theorem getTypeInVariantContainer_append_none {α β : Type} {kind : α → Option β}
    {container later : List α} (notFound : getTypeInVariantContainer kind container = none) :
    getTypeInVariantContainer kind (container ++ later) = getTypeInVariantContainer kind later := by
  rw [getTypeInVariantContainer] at notFound
  rw [getTypeInVariantContainer, getTypeInVariantContainer, List.findSome?_append, notFound,
    Option.none_or]

section Appending

variable {later : Transaction} {vin : List TxinV} {vout : List TxOutV}
  {extra attachment : List PayloadItemsV}

theorem Extends.isSeparate (extends_ : Extends tx later vin vout extra attachment)
    (separate : isSeparate tx) :
    SeparateSigning.isSeparate later := by
  rw [SeparateSigning.isSeparate, getTxFlags, getTxXDetail] at separate ⊢
  cases found : getTypeInVariantContainer PayloadItemsV.etcTxDetailsFlags tx.extra with
  | none => simp [found] at separate
  | some item =>
      rw [extends_.extra, getTypeInVariantContainer_append found]
      rwa [found] at separate

theorem Extends.defaultCounts (extends_ : Extends tx later vin vout extra attachment)
    (noDefault : attachmentInfoOfExtra extra = none ∨ (attachmentInfoOfExtra tx.extra).isSome) :
    SeparateSigning.defaultCounts later = SeparateSigning.defaultCounts tx := by
  have same : attachmentInfoOfExtra later.extra = attachmentInfoOfExtra tx.extra := by
    rw [extends_.extra]
    rcases noDefault with none_ | some_
    · cases found : attachmentInfoOfExtra tx.extra with
      | none => exact (getTypeInVariantContainer_append_none found).trans none_
      | some item => exact getTypeInVariantContainer_append found
    · obtain ⟨item, found⟩ := Option.isSome_iff_exists.mp some_
      exact (getTypeInVariantContainer_append found).trans found.symm
  rw [SeparateSigning.defaultCounts, SeparateSigning.defaultCounts, same]

/-- What an input signs stays what it is when inputs follow it, whatever else comes to the
transaction, unless a number of attachments is named there for all inputs. -/
theorem signedPrefix_extends {hashed : TransactionPrefix}
    (extends_ : Extends tx later vin vout extra attachment)
    (follows : inIndex + 1 < later.vin.length ∨ vout = [] ∧ extra = [] ∧ attachment = [])
    (noDefault : attachmentInfoOfExtra extra = none ∨ (attachmentInfoOfExtra tx.extra).isSome)
    (signed : signedPrefix tx inIndex = some hashed) :
    signedPrefix later inIndex = some hashed := by
  obtain ⟨inside, counts, counted, fits, whole, isHashed⟩ := signedPrefix_eq_some.mp signed
  have inputs : later.vin.take (inIndex + 1) = tx.vin.take (inIndex + 1) := by
    rw [extends_.vin, List.take_append_of_le_length (by omega)]
  have outputs : later.vout.take counts.outputs = tx.vout.take counts.outputs := by
    rw [extends_.vout, List.take_append_of_le_length fits.1]
  have extras : later.extra.take counts.extras = tx.extra.take counts.extras := by
    rw [extends_.extra, List.take_append_of_le_length fits.2.1]
  have inputsLength := congrArg List.length extends_.vin
  have outputsLength := congrArg List.length extends_.vout
  have extrasLength := congrArg List.length extends_.extra
  have attachmentsLength := congrArg List.length extends_.attachment
  rw [List.length_append] at inputsLength outputsLength extrasLength attachmentsLength
  refine signedPrefix_eq_some.mpr ⟨by omega, counts, ?_, by omega, ?_, ?_⟩
  · rw [signedCounts, inputs, extends_.defaultCounts noDefault]
    exact counted
  · intro last
    rcases follows with follower | ⟨rfl, rfl, rfl⟩
    · omega
    · rw [List.length_nil] at outputsLength extrasLength attachmentsLength
      have all := whole (by omega)
      omega
  · rw [← isHashed, cropped, cropped, inputs, outputs, extras, extends_.version,
      extends_.hardforkId]

end Appending

/-! ## What is covered -/

theorem signedPrefix_last {hashed : TransactionPrefix}
    (signed : signedPrefix tx (tx.vin.length - 1) = some hashed) :
    hashed = tx.toTransactionPrefix := by
  obtain ⟨inside, counts, -, -, whole, rfl⟩ := signedPrefix_eq_some.mp signed
  obtain ⟨allOutputs, allExtras, -⟩ := whole rfl
  exact cropped_whole (by omega) allOutputs allExtras

/-- The counts at an input are those that the input names itself. -/
theorem signedCounts_own {counts : SignedCounts} (inside : inIndex < tx.vin.length)
    (counted : signedCounts tx inIndex = some counts) :
    ∃ so, signedPartsOf tx.vin[inIndex] = some so ∧ counts.outputs = so.nOuts.toNat ∧
    counts.extras = so.nExtras.toNat := by
  rw [signedCounts, List.take_succ_eq_append_getElem inside, List.foldlM_append] at counted
  obtain ⟨before, -, own⟩ := Option.bind_eq_some_iff.mp counted
  rw [List.foldlM_cons] at own
  obtain ⟨own', countedOwn, same⟩ := Option.bind_eq_some_iff.mp own
  cases same
  rw [countInput] at countedOwn
  split at countedOwn
  · cases countedOwn
  next so isSo =>
    refine ⟨so, isSo, ?_⟩
    split at countedOwn
    · cases countedOwn
    · split at countedOwn
      · cases countedOwn
      · split at countedOwn
        · cases countedOwn
          exact ⟨rfl, rfl⟩
        · split at countedOwn <;> cases countedOwn
          exact ⟨rfl, rfl⟩

/-! ## The hashed bytes -/

section Writing

theorem vector_dom_take {α : Type} {c : Codec α} [c.Marked] {vs : List α} (n : ℕ)
    (inDom : (vector c).dom vs) :
    (vector c).dom (vs.take n) := by
  obtain ⟨length, each⟩ := inDom
  have shorter : (vs.take n).length ≤ vs.length := List.length_take_le' _ _
  exact ⟨lt_of_le_of_lt shorter length, fun v inside => each v (List.mem_of_mem_take inside)⟩

theorem mapM_take {α β : Type} {f : α → Option β} {vs : List α} {ws : List β} (n : ℕ)
    (mapped : vs.mapM f = some ws) :
    (vs.take n).mapM f = some (ws.take n) := by
  induction vs generalizing n ws with
  | nil =>
      cases mapped
      simp
  | cons v vs inductionHypothesis =>
      rw [List.mapM_cons] at mapped
      obtain ⟨w, isW, rest⟩ := Option.bind_eq_some_iff.mp mapped
      obtain ⟨ws', isRest, same⟩ := Option.bind_eq_some_iff.mp rest
      cases same
      cases n with
      | zero => rfl
      | succ n =>
          rw [List.take_succ_cons, List.take_succ_cons, List.mapM_cons, isW,
            inductionHypothesis n isRest]
          rfl

theorem voutV1_dom_take {vout : List TxOutV} (n : ℕ) (inDom : voutV1.dom vout) :
    voutV1.dom (vout.take n) := by
  obtain ⟨v1, isV1, inDomV1, rfl⟩ := inDom
  exact ⟨v1.take n, mapM_take n isV1, vector_dom_take n inDomV1, List.map_take⟩

/-- A prefix that can be written can be written when it is cut. -/
theorem transactionPrefix_dom_cropped {tx : TransactionPrefix} (inDom : transactionPrefix.dom tx)
    (inputs : ℕ) (counts : SignedCounts) : transactionPrefix.dom (cropped tx inputs counts) := by
  obtain ⟨_, isPair, ⟨inVersion, inBody⟩, -⟩ := inDom
  cases isPair
  refine ⟨(tx.version, cropped tx inputs counts), rfl, ⟨inVersion, ?_⟩, rfl⟩
  unfold transactionPrefixBody at inBody ⊢
  split at inBody
  next old =>
    rw [if_pos old]
    obtain ⟨v1, isV1, ⟨fields, isFields, ⟨inVin, inVout, inExtra⟩, -⟩, isTx⟩ := inBody
    cases isFields
    obtain ⟨bare, isBare, rfl⟩ := Option.map_eq_some_iff.mp isV1
    refine ⟨⟨tx.extra.take counts.extras, tx.vin.take inputs, bare.take counts.outputs⟩,
      ?_, ⟨_, rfl,
        ⟨vector_dom_take inputs inVin, vector_dom_take counts.outputs inVout,
          vector_dom_take counts.extras inExtra⟩, rfl⟩, ?_⟩
    · rw [TransactionPrefix.toV1]
      exact Option.map_eq_some_iff.mpr ⟨_, mapM_take counts.outputs isBare, rfl⟩
    · have vout : bare.map .inl = tx.vout := congrArg TransactionPrefix.vout isTx
      have hardforkId : 0 = tx.hardforkId := congrArg TransactionPrefix.hardforkId isTx
      simp [TransactionPrefixV1.toCurrent, cropped, ← vout, ← hardforkId, List.map_take]
  next new =>
    rw [if_neg new]
    obtain ⟨fields, isFields, ⟨inVin, inExtra, inVout, inHardfork⟩, -⟩ := inBody
    cases isFields
    refine ⟨_, rfl,
      ⟨vector_dom_take inputs inVin, vector_dom_take counts.extras inExtra, ?_, inHardfork⟩, rfl⟩
    by_cases older : tx.version < 4
    · rw [if_pos older] at inVout ⊢
      exact voutV1_dom_take counts.outputs inVout
    · rw [if_neg older] at inVout ⊢
      exact vector_dom_take counts.outputs inVout

end Writing

theorem countInput_named {counts next : SignedCounts} {input : TxinV}
    (counted : countInput counts input = some next) :
    (signedPartsOf input).isSome := by
  rw [countInput] at counted
  split at counted
  · cases counted
  next so isSo => rw [isSo, Option.isSome_some]

theorem foldlM_countInput_named {inputs : List TxinV} {counts last : SignedCounts}
    (counted : inputs.foldlM countInput counts = some last) :
    ∀ input ∈ inputs, (signedPartsOf input).isSome := by
  induction inputs generalizing counts with
  | nil => simp
  | cons input inputs inductionHypothesis =>
      rw [List.foldlM_cons] at counted
      obtain ⟨next, first, rest⟩ := Option.bind_eq_some_iff.mp counted
      exact List.forall_mem_cons.mpr ⟨countInput_named first, inductionHypothesis rest⟩

/-- The writer comes to the end of what is hashed, because an input that names its parts is no
gateway input. -/
theorem signedPrefix_ended {hashed : TransactionPrefix}
    (inDom : transactionPrefix.dom tx.toTransactionPrefix)
    (signed : signedPrefix tx inIndex = some hashed) :
    transactionPrefix.dom hashed ∧ (transactionPrefix.write hashed).2 = true := by
  obtain ⟨inside, counts, counted, -, -, rfl⟩ := signedPrefix_eq_some.mp signed
  have inDomCropped := transactionPrefix_dom_cropped inDom (inIndex + 1) counts
  refine ⟨inDomCropped, (transactionPrefix_ended inDomCropped).mpr (gatewayInputs_iff.mpr ?_)⟩
  intro own isInput
  have named := foldlM_countInput_named counted _ isInput
  simp [signedPartsOf, getTxinEtcOptions, getTypeInVariantContainer] at named

/-- What two transactions have in common when the same bytes are hashed for an input of them. -/
theorem signedPrefix_agree {hashed otherHashed : TransactionPrefix}
    (inDom : transactionPrefix.dom tx.toTransactionPrefix)
    (otherInDom : transactionPrefix.dom other.toTransactionPrefix)
    (signed : signedPrefix tx inIndex = some hashed)
    (otherSigned : signedPrefix other inIndex = some otherHashed)
    (same : prefixHashData otherHashed = prefixHashData hashed) :
    tx.vin.take (inIndex + 1) = other.vin.take (inIndex + 1) ∧
      ∃ input so, tx.vin[inIndex]? = some input ∧ other.vin[inIndex]? = some input ∧
        signedPartsOf input = some so ∧
        (so.nOuts.toNat ≤ tx.vout.length ∧
          tx.vout.take so.nOuts.toNat = other.vout.take so.nOuts.toNat) ∧
        so.nExtras.toNat ≤ tx.extra.length ∧
          tx.extra.take so.nExtras.toNat = other.extra.take so.nExtras.toNat := by
  obtain ⟨hashedInDom, ended⟩ := signedPrefix_ended inDom signed
  have equal :=
    Codec.eq_of_write_eq hashedInDom (signedPrefix_ended otherInDom otherSigned).1 ended same
  obtain ⟨inside, counts, counted, fits, -, rfl⟩ := signedPrefix_eq_some.mp signed
  obtain ⟨otherInside, otherCounts, otherCounted, otherFits, -, rfl⟩ :=
    signedPrefix_eq_some.mp otherSigned
  obtain ⟨so, isSo, outputs, extras⟩ := signedCounts_own inside counted
  obtain ⟨otherSo, isOtherSo, otherOutputs, otherExtras⟩ :=
    signedCounts_own otherInside otherCounted
  have sameVin : tx.vin.take (inIndex + 1) = other.vin.take (inIndex + 1) :=
    (congrArg TransactionPrefix.vin equal).symm
  have sameInput : tx.vin[inIndex]? = other.vin[inIndex]? := by
    have taken := congrArg (·[inIndex]?) sameVin
    simpa [List.getElem?_take_of_lt (Nat.lt_succ_self inIndex)] using taken
  have there := List.getElem?_eq_getElem inside
  have otherThere := List.getElem?_eq_getElem otherInside
  rw [there, otherThere, Option.some.injEq] at sameInput
  rw [← sameInput, isSo, Option.some.injEq] at isOtherSo
  subst isOtherSo
  refine ⟨sameVin, tx.vin[inIndex], so, there, by rw [otherThere, sameInput], isSo, ?_, ?_⟩
  · have sameVout : tx.vout.take counts.outputs = other.vout.take otherCounts.outputs :=
      (congrArg TransactionPrefix.vout equal).symm
    rw [outputs, otherOutputs] at sameVout
    exact ⟨outputs ▸ fits.1, sameVout⟩
  · have sameExtra : tx.extra.take counts.extras = other.extra.take otherCounts.extras :=
      (congrArg TransactionPrefix.extra equal).symm
    rw [extras, otherExtras] at sameExtra
    exact ⟨extras ▸ fits.2.1, sameExtra⟩

/-! ## Construction -/

/-- An input that has room for details and none yet. -/
def isFresh : TxinV → Prop
  | .inr (.inl toKey) => toKey.etcDetails = []
  | .inr (.inr (.inl multisig)) => multisig.etcDetails = []
  | .inr (.inr (.inr (.inr zcInput))) => zcInput.etcDetails = []
  | _ => False

theorem getTxinEtcOptions_add {items : List TxinEtcDetailsV} {input : TxinV}
    (fresh : isFresh input) :
    getTxinEtcOptions (addEtcOptions items input) = items := by
  obtain gen | toKey | multisig | gateway | zcInput := input
  · cases fresh
  · exact (congrArg (· ++ items) fresh).trans (List.nil_append items)
  · exact (congrArg (· ++ items) fresh).trans (List.nil_append items)
  · cases fresh
  · exact (congrArg (· ++ items) fresh).trans (List.nil_append items)

section Sealing

variable {outputs extras : ℕ} {attachment : List PayloadItemsV}

theorem attachmentExtraInfoDetails_cnt (writable : (vector payloadItemsV).dom attachment) :
    (attachmentExtraInfoDetails cnFastHash attachment).cnt.toNat = attachment.length := by
  rw [attachmentExtraInfoDetails]
  cases attachment with
  | nil => rfl
  | cons item rest =>
      have small : (item :: rest).length < 2 ^ 64 := writable.1
      have ended : ((vector payloadItemsV).write (item :: rest)).2 = true :=
        Codec.Whole.ended writable
      simp only [List.isEmpty_cons, Bool.false_eq_true, if_false, ended, if_true]
      rw [UInt64.toNat_ofNat', Nat.mod_eq_of_lt small]

theorem countInput_sealed {counts : SignedCounts} {input : TxinV} (fresh : isFresh input)
    (smallOutputs : outputs < 2 ^ 32)
    (smallExtras : extras < 2 ^ 32) (writable : (vector payloadItemsV).dom attachment)
    (moreOutputs : counts.outputs ≤ outputs)
    (moreExtras : counts.extras ≤ extras) (moreAttachment : counts.att ≤ attachment.length) :
    countInput counts (addEtcOptions (.inl ⟨UInt32.ofNat outputs, UInt32.ofNat extras⟩ ::
      if attachment.isEmpty then []
        else [.inr (attachmentExtraInfoDetails cnFastHash attachment)]) input) =
        some ⟨outputs, extras, attachment.length⟩ := by
  have nOuts : (UInt32.ofNat outputs).toNat = outputs := by
    rw [UInt32.toNat_ofNat', Nat.mod_eq_of_lt smallOutputs]
  have nExtras : (UInt32.ofNat extras).toNat = extras := by
    rw [UInt32.toNat_ofNat', Nat.mod_eq_of_lt smallExtras]
  have cnt : (attachmentExtraInfoDetails cnFastHash attachment).cnt.toNat = attachment.length :=
    attachmentExtraInfoDetails_cnt writable
  unfold countInput signedPartsOf attachmentInfoOf
  rw [getTxinEtcOptions_add fresh]
  cases attachment with
  | nil =>
      have none_ : counts.att = 0 := Nat.le_zero.mp moreAttachment
      simp [getTypeInVariantContainer, nOuts, nExtras, none_, Nat.not_lt.mpr moreOutputs,
        Nat.not_lt.mpr moreExtras]
  | cons item rest =>
      change (if (UInt32.ofNat outputs).toNat < counts.outputs then none
        else if (UInt32.ofNat extras).toNat < counts.extras then none
        else if (attachmentExtraInfoDetails cnFastHash (item :: rest)).cnt.toNat <
          counts.att then none
        else some ⟨(UInt32.ofNat outputs).toNat, (UInt32.ofNat extras).toNat,
          (attachmentExtraInfoDetails cnFastHash (item :: rest)).cnt.toNat⟩) =
            some (SignedCounts.mk _ _ _)
      rw [nOuts, nExtras, cnt, if_neg (Nat.not_lt.mpr moreOutputs),
        if_neg (Nat.not_lt.mpr moreExtras), if_neg (Nat.not_lt.mpr moreAttachment)]

theorem foldlM_countInput_sealed {inputs : List TxinV} (fresh : ∀ input ∈ inputs, isFresh input)
    (notEmpty : inputs ≠ []) (smallOutputs : outputs < 2 ^ 32) (smallExtras : extras < 2 ^ 32)
    (writable : (vector payloadItemsV).dom attachment) {counts : SignedCounts}
    (moreOutputs : counts.outputs ≤ outputs) (moreExtras : counts.extras ≤ extras)
    (moreAttachment : counts.att ≤ attachment.length) :
    (inputs.map (addEtcOptions (.inl ⟨UInt32.ofNat outputs, UInt32.ofNat extras⟩ ::
      if attachment.isEmpty then []
        else [.inr (attachmentExtraInfoDetails cnFastHash attachment)]))).foldlM countInput
        counts = some ⟨outputs, extras, attachment.length⟩ := by
  induction inputs generalizing counts with
  | nil => exact absurd rfl notEmpty
  | cons input rest inductionHypothesis =>
      obtain ⟨first, others⟩ := List.forall_mem_cons.mp fresh
      rw [List.map_cons, List.foldlM_cons,
        countInput_sealed first smallOutputs smallExtras writable moreOutputs moreExtras
          moreAttachment]
      by_cases isLast : rest = []
      · subst isLast
        rfl
      · exact inductionHypothesis others isLast le_rfl le_rfl le_rfl

/-- A party that adds inputs to what has been signed so far leaves a transaction whose last input
signs all of it. -/
theorem signedPrefix_sealInputs {inputStarterIndex : ℕ} {counts : SignedCounts}
    (added : inputStarterIndex < tx.vin.length)
    (fresh : ∀ input ∈ tx.vin.drop inputStarterIndex, isFresh input)
    (counted : (tx.vin.take inputStarterIndex).foldlM countInput (defaultCounts tx) = some counts)
    (smallOutputs : tx.vout.length < 2 ^ 32) (smallExtras : tx.extra.length < 2 ^ 32)
    (writable : (vector payloadItemsV).dom tx.attachment)
    (more : counts.outputs ≤ tx.vout.length ∧ counts.extras ≤ tx.extra.length ∧
      counts.att ≤ tx.attachment.length) :
    signedPrefix (sealInputs cnFastHash tx inputStarterIndex) (tx.vin.length - 1) =
      some (sealInputs cnFastHash tx inputStarterIndex).toTransactionPrefix := by
  have size : (sealInputs cnFastHash tx inputStarterIndex).vin.length = tx.vin.length := by
    simp only [sealInputs, List.length_append, List.length_take, List.length_map, List.length_drop]
    omega
  have someAdded : tx.vin.drop inputStarterIndex ≠ [] := by
    intro none_
    have left := congrArg List.length none_
    rw [List.length_drop, List.length_nil] at left
    omega
  have all : signedCounts (sealInputs cnFastHash tx inputStarterIndex) (tx.vin.length - 1) =
      some ⟨tx.vout.length, tx.extra.length, tx.attachment.length⟩ := by
    rw [signedCounts, Nat.sub_add_cancel (by omega), ← size, List.take_length]
    rw [sealInputs, List.foldlM_append]
    change ((tx.vin.take inputStarterIndex).foldlM countInput (defaultCounts tx)).bind _ = _
    rw [counted]
    exact foldlM_countInput_sealed fresh someAdded smallOutputs smallExtras writable more.1
      more.2.1 more.2.2
  refine signedPrefix_eq_some.mpr ⟨by omega, _, all, ⟨le_rfl, le_rfl, le_rfl⟩, fun _ =>
    ⟨rfl, rfl, rfl⟩, ?_⟩
  exact cropped_whole (by omega) rfl rfl

end Sealing

/-! ## Separate signatures -/

/-- What an input of the transaction signs. -/
def hashForSign (cnFastHash : Bytes → Hash) (tx : Transaction) (inIndex : ℕ) : Hash :=
  preparePrefixHashForSign cnFastHash tx inIndex
    (getTransactionHash cnFastHash tx.toTransactionPrefix)

/-- An input that can sign keeps what it signs when others come after it; what it signs says all
that it covers, and the last input covers everything. -/
theorem separate_signatures_stay (separate : isSeparate tx)
    (signs : hashForSign cnFastHash tx inIndex ≠ nullHash) :
    ∃ hashed, signedPrefix tx inIndex = some hashed ∧
      hashForSign cnFastHash tx inIndex = getTransactionHash cnFastHash hashed ∧
      (∀ later vin vout extra attachment, Extends tx later vin vout extra attachment →
        inIndex + 1 < later.vin.length ∨ vout = [] ∧ extra = [] ∧ attachment = [] →
        attachmentInfoOfExtra extra = none ∨ (attachmentInfoOfExtra tx.extra).isSome →
        signedPrefix later inIndex = some hashed ∧
          hashForSign cnFastHash later inIndex = hashForSign cnFastHash tx inIndex) ∧
      (∀ other otherHashed, transactionPrefix.dom tx.toTransactionPrefix →
        transactionPrefix.dom other.toTransactionPrefix →
          signedPrefix other inIndex = some otherHashed →
        prefixHashData otherHashed = prefixHashData hashed →
        tx.vin.take (inIndex + 1) = other.vin.take (inIndex + 1) ∧
          ∃ input so, tx.vin[inIndex]? = some input ∧ other.vin[inIndex]? = some input ∧
            signedPartsOf input = some so ∧
            (so.nOuts.toNat ≤ tx.vout.length ∧
              tx.vout.take so.nOuts.toNat = other.vout.take so.nOuts.toNat) ∧
            so.nExtras.toNat ≤ tx.extra.length ∧
              tx.extra.take so.nExtras.toNat = other.extra.take so.nExtras.toNat) ∧
      (inIndex = tx.vin.length - 1 → hashed = tx.toTransactionPrefix) := by
  have told : hashForSign cnFastHash tx inIndex = _ := preparePrefixHashForSign_eq separate
  cases signed : signedPrefix tx inIndex with
  | none =>
      rw [signed] at told
      exact absurd told signs
  | some hashed =>
      rw [signed] at told
      refine ⟨hashed, rfl, told, ?_, ?_, ?_⟩
      · intro later vin vout extra attachment extends_ follows noDefault
        have stays := signedPrefix_extends extends_ follows noDefault signed
        have toldLater : hashForSign cnFastHash later inIndex = _ :=
          preparePrefixHashForSign_eq (extends_.isSeparate separate)
        rw [stays] at toldLater
        exact ⟨stays, toldLater.trans told.symm⟩
      · intro other otherHashed inDom otherInDom otherSigned same
        exact signedPrefix_agree inDom otherInDom signed otherSigned same
      · intro last
        subst last
        exact signedPrefix_last signed

section Example

private def oneHash (_ : Bytes) : Hash := Blob.filled 32 1

private def flagsItem : PayloadItemsV :=
  .inr (.inr (.inr (.inr (.inr (.inr (.inr (.inr (.inr (.inr (.inl ⟨1⟩))))))))))

private def attachmentInfoItem (cnt : UInt64) : PayloadItemsV :=
  .inr (.inr
    (.inr (.inr (.inr (.inr (.inr (.inr (.inr (.inr (.inr (.inr (.inl ⟨0, nullHash, cnt⟩))))))))))))

private def someOutput : TxOutV := .inl ⟨0, .inl ⟨nullHash, 0⟩⟩

private def signingInput (nOuts nExtras : UInt32) (attachmentInfo : List UInt64) : TxinV :=
  .inr (.inl ⟨0, [], nullHash,
    .inl ⟨nOuts, nExtras⟩ :: attachmentInfo.map fun cnt => .inr ⟨0, nullHash, cnt⟩⟩)

private def stage (vin : List TxinV) (vout : List TxOutV)
    (extra attachment : List PayloadItemsV) : Transaction :=
  ⟨⟨1, 0, vin, flagsItem :: extra, vout⟩, attachment, [], []⟩

/-- The hash of a first input is the same one after a second input came with an
output of its own. -/
theorem separate_signature_of_first :
    hashForSign oneHash (stage [signingInput 0 1 [], signingInput 1 1 []] [someOutput] [] []) 0 =
      hashForSign oneHash (stage [signingInput 0 1 []] [] [] []) 0 := by
  have separate : isSeparate (stage [signingInput 0 1 []] [] [] []) := by decide
  have signs : hashForSign oneHash (stage [signingInput 0 1 []] [] [] []) 0 ≠ nullHash := by decide
  obtain ⟨_, _, _, stays, _⟩ := separate_signatures_stay separate signs
  have extended : Extends (stage [signingInput 0 1 []] [] [] [])
      (stage [signingInput 0 1 [],
        signingInput 1 1 []] [someOutput] [] []) [signingInput 1 1 []] [someOutput] [] [] :=
    ⟨rfl, rfl, rfl, rfl, rfl, rfl⟩
  exact (stays _ _ _ _ _ extended (.inl (by decide)) (.inl rfl)).2

/-- What changes the hash of the first input: an output that comes without an input, the input that
covers an output which none covered, and a number of attachments in the extra items. -/
theorem separate_signature_changed :
    (hashForSign oneHash (stage [signingInput 0 1 []] [] [] []) 0 ≠ nullHash ∧
      hashForSign oneHash (stage [signingInput 0 1 []] [someOutput] [] []) 0 = nullHash) ∧
    (hashForSign oneHash (stage [signingInput 0 1 []] [someOutput] [] []) 0 = nullHash ∧
      hashForSign oneHash (stage [signingInput 0 1 [], signingInput 1 1 []] [someOutput] [] []) 0 ≠
        nullHash) ∧
    hashForSign oneHash (stage [signingInput 0 1 [1]] [] [] [flagsItem]) 0 ≠ nullHash ∧
      hashForSign oneHash
        (stage [signingInput 0 1 [1],
          signingInput 0 2 []] [] [attachmentInfoItem 2] [flagsItem, flagsItem]) 0 = nullHash := by
  decide

end Example

end Zano.SeparateSigning
