import Mathlib
import Zano.Transactions.MultisigChecking

/-! # Signing a multisig input

A transaction is constructed with a place for every key of the output. A participant finds its place
by its key and puts a signature there. When as many have signed as the output asks for, the places
that are still free are removed. What is left is in the order of the keys, whoever signed first.
-/

namespace Zano.Multisig

open Lib Serialization SeparateSigning

structure Keypair where
  pub : PublicKey
  sec : SecretKey

structure AccountKeys where
  spendPublicKey : PublicKey
  spendSecretKey : SecretKey
  viewSecretKey : SecretKey

/-- What construction reads of a source. -/
structure TxSourceEntry where
  msSigsCount : ℕ
  msKeysCount : ℕ
  separatelySignedTxComplete : Bool

def TxSourceEntry.isMultisig (srcEntr : TxSourceEntry) : Prop := 0 < srcEntr.msSigsCount

instance (srcEntr : TxSourceEntry) : Decidable srcEntr.isMultisig := by
  unfold TxSourceEntry.isMultisig
  infer_instance

/-- `ringSignature` is what stands there for other sources than multisig outputs. -/
def generateNLSAGSig (crypto : Crypto) (txHashForSignature txPrefixHash : Hash) (inputIndex : ℕ)
    (srcEntr : TxSourceEntry) (txkey : Keypair) (random : Scalar) (ringSignature : List Signature)
    (tx : Transaction) : Option Transaction :=
  if tx.vin.length ≤ inputIndex then none
  else
    let sigs :=
      if srcEntr.isMultisig then List.replicate srcEntr.msKeysCount nullSig else ringSignature
    if srcEntr.separatelySignedTxComplete then
      if inputIndex + 1 ≠ tx.vin.length then none
      else if ¬isSeparate tx then none
      else if txHashForSignature ≠ txPrefixHash then none
      else
        some { tx with
          signatures := tx.signatures ++
            [.inl ⟨sigs ++ [crypto.generateSignature random txPrefixHash txkey.pub txkey.sec]⟩] }
    else some { tx with signatures := tx.signatures ++ [.inl ⟨sigs⟩] }

def deriveEphemeralKeyHelper (crypto : Crypto) (ack : AccountKeys) (txPublicKey : PublicKey)
    (realOutputIndex : ℕ) :
    Option Keypair :=
  match crypto.generateKeyDerivation txPublicKey ack.viewSecretKey with
  | none => none
  | some recvDerivation =>
      match crypto.derivePublicKey recvDerivation realOutputIndex ack.spendPublicKey with
      | none => none
      | some pub =>
          some ⟨pub, crypto.deriveSecretKey recvDerivation realOutputIndex ack.spendSecretKey⟩

def txoutMultisigOf (out : TxOutV) : Option (TxOutBare × TxoutMultisig) :=
  match out with
  | .inl bare =>
      match bare.target with
      | .inl _ => none
      | .inr target => some (bare, target)
  | .inr _ => none

theorem txOutBare_marked : txOutBare.Marked := inferInstance

def getMultisigOutId (cnFastHash : Bytes → Hash) (tx : TransactionPrefix) (n : ℕ) : Hash :=
  match tx.vout[n]?.bind txoutMultisigOf with
  | none => nullHash
  | some (bare, _) =>
      cnFastHash
        ((key.seq (@vector _ txOutBare txOutBare_marked)).write (getTxPubKeyFromExtra tx, [bare])).1

/-- The search for the output in the source transaction, which stops at the
first one with the id. -/
def findMsOut (cnFastHash : Bytes → Hash) (sourceTx : TransactionPrefix) (multisigOutId : Hash) :
    Option (ℕ × TxoutMultisig) :=
  (List.range sourceTx.vout.length).findSome? fun i =>
    match sourceTx.vout[i]?.bind txoutMultisigOf with
    | none => none
    | some (_, target) =>
        if multisigOutId = getMultisigOutId cnFastHash sourceTx i then some (i, target) else none

def withSigs (tx : Transaction) (msInputIndex : ℕ) (sigs : List Signature) : Transaction :=
  { tx with signatures := tx.signatures.set msInputIndex (.inl ⟨sigs⟩) }

structure SignResult where
  tx : Transaction
  returned : Bool
  isInputFullySigned : Bool

def signMultisigInputInTx (crypto : Crypto) (tx : Transaction) (msInputIndex : ℕ)
    (keys : AccountKeys) (sourceTx : TransactionPrefix) (random : Scalar) : SignResult :=
  match tx.vin[msInputIndex]? with
  | some (.inr (.inr (.inl msIn))) =>
      match findMsOut crypto.cnFastHash sourceTx msIn.multisigOutId with
      | none => ⟨tx, false, false⟩
      | some (msOutIndex, outMs) =>
          match deriveEphemeralKeyHelper crypto keys (getTxPubKeyFromExtra sourceTx) msOutIndex with
          | none => ⟨tx, false, false⟩
          | some msInEphemeralKey =>
              let participantIndex := outMs.keys.idxOf msInEphemeralKey.pub
              if outMs.keys.length ≤ participantIndex then ⟨tx, false, false⟩
              else
                match tx.signatures[msInputIndex]? with
                | some (.inl nlsag) =>
                    let allocatedSigsForParticipants :=
                      nlsag.s.length - if isLastSeparate tx msInputIndex then 1 else 0
                    let txHashForSignature :=
                      preparePrefixHashForSign crypto.cnFastHash tx msInputIndex
                      (getTransactionHash crypto.cnFastHash tx.toTransactionPrefix)
                    if nlsag.s.isEmpty then ⟨tx, false, false⟩
                    else if allocatedSigsForParticipants ≤ participantIndex then ⟨tx, false, false⟩
                    else if txHashForSignature = nullHash then ⟨tx, false, false⟩
                    else
                      let sigs := nlsag.s.set participantIndex
                        (crypto.generateSignature random txHashForSignature msInEphemeralKey.pub
                          msInEphemeralKey.sec)
                      let nonNullSigsCount :=
                        (sigs.take allocatedSigsForParticipants).countP (· ≠ nullSig)
                      if outMs.minimumSigs.toNat < nonNullSigsCount then
                        ⟨withSigs tx msInputIndex sigs, false, false⟩
                      else if nonNullSigsCount = outMs.minimumSigs.toNat then
                        ⟨withSigs tx msInputIndex (sigs.filter (· ≠ nullSig)), true, true⟩
                      else ⟨withSigs tx msInputIndex sigs, true, false⟩
                | _ => ⟨tx, false, false⟩
  | _ => ⟨tx, false, false⟩

/-- Participants sign one after another, each with its random scalar. What they are told is kept. -/
def signAll (crypto : Crypto) (msInputIndex : ℕ) (sourceTx : TransactionPrefix) :
    Transaction → List (AccountKeys × Scalar) → Transaction × List (Bool × Bool)
  | tx, [] => (tx, [])
  | tx, signer :: signers =>
      let result := signMultisigInputInTx crypto tx msInputIndex signer.1 sourceTx signer.2
      let (signed, reports) := signAll crypto msInputIndex sourceTx result.tx signers
      (signed, (result.returned, result.isInputFullySigned) :: reports)

variable {crypto : Crypto} {tx : Transaction} {inIndex : ℕ} {sourceTx : TransactionPrefix}
  {outN : ℕ} {txin : TxinMultisig} {target : TxoutMultisig}

/-! ## Signatures are not hashed -/

@[simp] theorem withSigs_toTransactionPrefix (sigs : List Signature) :
    (withSigs tx inIndex sigs).toTransactionPrefix = tx.toTransactionPrefix := rfl

@[simp] theorem withSigs_attachment (sigs : List Signature) :
    (withSigs tx inIndex sigs).attachment = tx.attachment := rfl

@[simp] theorem withSigs_withSigs (sigs later : List Signature) :
    withSigs (withSigs tx inIndex sigs) inIndex later = withSigs tx inIndex later := by
  rw [withSigs, withSigs, withSigs, List.set_set]

@[simp] theorem isLastSeparate_withSigs (sigs : List Signature) :
    isLastSeparate (withSigs tx inIndex sigs) inIndex ↔ isLastSeparate tx inIndex := Iff.rfl

@[simp] theorem preparePrefixHashForSign_withSigs {cnFastHash : Bytes → Hash}
    (sigs : List Signature) (txId : Hash) :
    preparePrefixHashForSign cnFastHash (withSigs tx inIndex sigs) inIndex txId =
      preparePrefixHashForSign cnFastHash tx inIndex txId := rfl

theorem withSigs_signatures {sigs : List Signature} (inside : inIndex < tx.signatures.length) :
    (withSigs tx inIndex sigs).signatures[inIndex]? = some (.inl ⟨sigs⟩) := by
  rw [withSigs, List.getElem?_set_self inside]

/-! ## One participant -/

/-- What the input signs. -/
def msHash (crypto : Crypto) (tx : Transaction) (inIndex : ℕ) : Hash :=
  hashForSign crypto.cnFastHash tx inIndex

/-- Somebody who owns one of the keys, and whose signature, with this random scalar, is one. -/
structure Participant (crypto : Crypto) (sourceTx : TransactionPrefix) (outN : ℕ)
    (keys : List PublicKey)
    (txHashForSignature : Hash) (signer : AccountKeys × Scalar) (ephemeral : Keypair) : Prop where
  derived :
    deriveEphemeralKeyHelper crypto signer.1 (getTxPubKeyFromExtra sourceTx) outN = some ephemeral
  owns : ephemeral.pub ∈ keys
  verifies : crypto.checkSignature txHashForSignature ephemeral.pub
    (crypto.generateSignature signer.2 txHashForSignature ephemeral.pub ephemeral.sec) = true
  notNull :
    crypto.generateSignature signer.2 txHashForSignature ephemeral.pub ephemeral.sec ≠ nullSig

/-- The input of the transaction that spends this output of the source. -/
structure Spends (crypto : Crypto) (tx : Transaction) (inIndex : ℕ) (txin : TxinMultisig)
    (sourceTx : TransactionPrefix)
    (outN : ℕ) (target : TxoutMultisig) : Prop where
  input : tx.vin[inIndex]? = some (.inr (.inr (.inl txin)))
  found : findMsOut crypto.cnFastHash sourceTx txin.multisigOutId = some (outN, target)
  signs : msHash crypto tx inIndex ≠ nullHash

/-- The places of the keys when these have signed. -/
abbrev PartlySigned (crypto : Crypto) (tx : Transaction) (inIndex : ℕ) (keys done : List PublicKey)
    (places : List Signature) :
    Prop :=
  PartlyFilled nullSig (fun sig key => crypto.checkSignature (msHash crypto tx inIndex) key sig =
    true) keys done places

/-- A participant that has not signed yet fills its place. The last one of those who are needed
makes the list what is checked. -/
theorem signMultisigInputInTx_eq {places own : List Signature} {done : List PublicKey}
    {signer : AccountKeys × Scalar} {ephemeral : Keypair}
    (spends : Spends crypto tx inIndex txin sourceTx outN target)
    (inside : inIndex < tx.signatures.length)
    (participant :
      Participant crypto sourceTx outN target.keys (msHash crypto tx inIndex) signer ephemeral)
    (signed : PartlySigned crypto tx inIndex target.keys done places) (isNew : ephemeral.pub ∉ done)
    (needed : done.length < target.minimumSigs.toNat)
    (ownLength : own.length = if isLastSeparate tx inIndex then 1 else 0)
    (ownNotNull : ∀ sig ∈ own, sig ≠ nullSig) :
    ∃ next, PartlySigned crypto tx inIndex target.keys (ephemeral.pub :: done) next ∧
      signMultisigInputInTx crypto (withSigs tx inIndex (places ++ own)) inIndex signer.1 sourceTx
        signer.2 =
        if done.length + 1 = target.minimumSigs.toNat then
          ⟨withSigs tx inIndex (next.filter (· ≠ nullSig) ++ own), true, true⟩
        else ⟨withSigs tx inIndex (next ++ own), true, false⟩ := by
  obtain ⟨derived, owns, verifies, notNull⟩ := participant
  have nextSigned := signed.set owns isNew notNull verifies
  refine ⟨_, nextSigned, ?_⟩
  have knownKey : target.keys.idxOf ephemeral.pub < target.keys.length :=
    List.idxOf_lt_length_iff.mpr owns
  have place : target.keys.idxOf ephemeral.pub < places.length := signed.length ▸ knownKey
  have allocated :
      (places ++ own).length - (if isLastSeparate tx inIndex then 1 else 0) = places.length := by
    rw [List.length_append, ownLength, Nat.add_sub_cancel]
  have notEmpty : (places ++ own).isEmpty = false := by
    rw [List.isEmpty_eq_false_iff_exists_mem]
    exact ⟨_, List.mem_append_left own (List.getElem_mem place)⟩
  have signs : ¬preparePrefixHashForSign crypto.cnFastHash tx inIndex
      (getTransactionHash crypto.cnFastHash tx.toTransactionPrefix) = nullHash := spends.signs
  have ownStays : own.filter (· ≠ nullSig) = own := by
    rw [List.filter_eq_self]
    exact fun sig inside => decide_eq_true (ownNotNull sig inside)
  have count := nextSigned.count
  rw [List.length_cons] at count
  unfold signMultisigInputInTx
  simp only [withSigs_toTransactionPrefix, spends.input, spends.found, derived,
    Nat.not_le.mpr knownKey, if_false, withSigs_signatures inside, isLastSeparate_withSigs,
    allocated, notEmpty, Bool.false_eq_true, Nat.not_le.mpr place,
    preparePrefixHashForSign_withSigs, signs, withSigs_withSigs, List.set_append_left _ _ place]
  rw [List.take_append_of_le_length (by rw [List.length_set]),
    List.take_of_length_le (by rw [List.length_set])]
  unfold msHash hashForSign at count ⊢
  rw [count, if_neg (by omega), List.filter_append, ownStays]

/-! ## All participants -/

/-- Who is needed signs, in any order. Only the last one is told that the input is fully signed. -/
theorem signAll_eq {signers : List (AccountKeys × Scalar)} {ephemerals : List Keypair}
    {places own : List Signature} {done : List PublicKey}
    (spends : Spends crypto tx inIndex txin sourceTx outN target)
    (inside : inIndex < tx.signatures.length) (someone : signers ≠ []) (participants : List.Forall₂
      (Participant crypto sourceTx outN target.keys (msHash crypto tx inIndex)) signers ephemerals)
    (signed : PartlySigned crypto tx inIndex target.keys done places)
    (different : (ephemerals.map (·.pub)).Nodup)
    (areNew : ∀ ephemeral ∈ ephemerals, ephemeral.pub ∉ done)
    (needed : done.length + signers.length = target.minimumSigs.toNat)
    (ownLength : own.length = if isLastSeparate tx inIndex then 1 else 0)
    (ownNotNull : ∀ sig ∈ own, sig ≠ nullSig) :
    ∃ signatures, signAll crypto inIndex sourceTx (withSigs tx inIndex (places ++ own)) signers =
        (withSigs tx inIndex (signatures ++ own),
          List.replicate (signers.length - 1) (true, false) ++ [(true, true)]) ∧
      signatures.length = target.minimumSigs.toNat ∧
      List.SublistForall₂ (fun sig key => crypto.checkSignature (msHash crypto tx inIndex) key sig =
        true) signatures
        target.keys := by
  induction participants generalizing done places with
  | nil => exact absurd rfl someone
  | @cons signer ephemeral signers ephemerals participant participants inductionHypothesis =>
      obtain ⟨isNew, othersNew⟩ := List.forall_mem_cons.mp areNew
      rw [List.map_cons, List.nodup_cons] at different
      rw [List.length_cons] at needed
      obtain ⟨next, nextSigned, result⟩ :=
        signMultisigInputInTx_eq spends inside participant signed isNew (by omega) ownLength
          ownNotNull
      cases signers with
      | nil =>
          rw [List.length_nil] at needed
          rw [if_pos (by omega)] at result
          refine ⟨next.filter (· ≠ nullSig), ?_, ?_, nextSigned.filter⟩
          · simp [signAll, result]
          · rw [← List.countP_eq_length_filter, nextSigned.count, List.length_cons]
            omega
      | cons second others =>
          rw [List.length_cons] at needed
          rw [if_neg (by omega)] at result
          have stillNew : ∀ other ∈ ephemerals, other.pub ∉ ephemeral.pub :: done := by
            intro other isOther
            rw [List.mem_cons, not_or]
            refine ⟨fun same => different.1 ?_, othersNew other isOther⟩
            exact same ▸ List.mem_map_of_mem isOther
          obtain ⟨signatures, run, enough, inOrder⟩ := inductionHypothesis
            (List.cons_ne_nil _ _) nextSigned different.2 stillNew
            (by rw [List.length_cons, List.length_cons]; omega)
          refine ⟨signatures, ?_, enough, inOrder⟩
          rw [signAll, result]
          simp only [run, List.length_cons, Nat.add_sub_cancel]
          rw [List.replicate_succ, List.cons_append]

/-! ## Construction -/

/-- The signatures of the inputs are put one after another, and this source is the
one of the input. -/
def Constructed (crypto : Crypto) (tx : Transaction) (inIndex : ℕ) (srcEntr : TxSourceEntry)
    (txkey : Keypair) (random : Scalar) : Prop :=
  ∃ before later ringSignature, before.length = inIndex ∧
    (generateNLSAGSig crypto (msHash crypto tx inIndex)
      (getTransactionHash crypto.cnFastHash tx.toTransactionPrefix) inIndex
      srcEntr txkey random ringSignature { tx with signatures := before }).map
      (·.signatures ++ later) = some tx.signatures

/-- The signature that the key of the transaction makes for the last input. -/
def ownSigs (crypto : Crypto) (tx : Transaction) (srcEntr : TxSourceEntry) (txkey : Keypair)
    (random : Scalar) :
    List Signature :=
  if srcEntr.separatelySignedTxComplete then
    [crypto.generateSignature random (getTransactionHash crypto.cnFastHash tx.toTransactionPrefix)
      txkey.pub txkey.sec]
  else []

variable {srcEntr : TxSourceEntry} {txkey : Keypair} {random : Scalar}

theorem Constructed.signatures (constructed : Constructed crypto tx inIndex srcEntr txkey random)
    (multisig : srcEntr.isMultisig) :
    tx.signatures[inIndex]? =
        some (.inl
          ⟨List.replicate srcEntr.msKeysCount nullSig ++ ownSigs crypto tx srcEntr txkey random⟩) ∧
      (srcEntr.separatelySignedTxComplete = true → isLastSeparate tx inIndex) := by
  obtain ⟨before, later, ringSignature, rfl, generated⟩ := constructed
  obtain ⟨after, isAfter, isSignatures⟩ := Option.map_eq_some_iff.mp generated
  unfold generateNLSAGSig at isAfter
  rw [← isSignatures, ownSigs]
  split at isAfter
  · cases isAfter
  next =>
    simp only at isAfter
    split at isAfter
    next complete =>
      split at isAfter
      · cases isAfter
      next last =>
        split at isAfter
        · cases isAfter
        next separate =>
          split at isAfter <;> cases isAfter
          rw [if_pos complete]
          exact ⟨by simp, fun _ => ⟨not_not.mp separate, not_not.mp last⟩⟩
    next incomplete =>
      cases isAfter
      rw [if_neg incomplete]
      exact ⟨by simp, fun complete => absurd complete incomplete⟩

/-- A transaction in which the input waits for the participants, and whose key has signed where that
is asked for. -/
structure Awaiting (crypto : Crypto) (tx : Transaction) (inIndex : ℕ) (target : TxoutMultisig)
    (srcEntr : TxSourceEntry)
    (txkey : Keypair) (random : Scalar) : Prop where
  constructed : Constructed crypto tx inIndex srcEntr txkey random
  sigsCount : srcEntr.msSigsCount = target.minimumSigs.toNat
  keysCount : srcEntr.msKeysCount = target.keys.length
  atLeastOne : 0 < target.minimumSigs.toNat
  complete : isLastSeparate tx inIndex → srcEntr.separatelySignedTxComplete = true
  txkeyOfExtra : txkey.pub = getTxPubKeyFromExtra tx.toTransactionPrefix
  ownVerifies : ∀ sig ∈ ownSigs crypto tx srcEntr txkey random,
    crypto.checkSignature (getTransactionHash crypto.cnFastHash tx.toTransactionPrefix) txkey.pub
      sig = true
  ownNotNull : ∀ sig ∈ ownSigs crypto tx srcEntr txkey random, sig ≠ nullSig

theorem ownSigs_length (awaiting : Awaiting crypto tx inIndex target srcEntr txkey random)
    (last : srcEntr.separatelySignedTxComplete = true → isLastSeparate tx inIndex) :
    (ownSigs crypto tx srcEntr txkey random).length = if isLastSeparate tx inIndex then 1
      else 0 := by
  rw [ownSigs]
  by_cases isLast : isLastSeparate tx inIndex
  · rw [if_pos (awaiting.complete isLast), if_pos isLast]
    rfl
  · rw [if_neg fun complete => isLast (last complete), if_neg isLast]
    rfl

theorem withSigs_self {sigs : List Signature}
    (there : tx.signatures[inIndex]? = some (.inl ⟨sigs⟩)) :
    withSigs tx inIndex sigs = tx := by
  obtain ⟨inside, isSigs⟩ := List.getElem?_eq_some_iff.mp there
  rw [withSigs, ← isSigs, List.set_getElem_self]

theorem Spendable.withSigs {s : BlockchainStorage}
    (spendable : Spendable crypto s tx inIndex txin sourceTx outN target) (sigs : List Signature) :
    Spendable crypto s (withSigs tx inIndex sigs) inIndex txin sourceTx outN target :=
  ⟨spendable.unlocked, spendable.output, spendable.sigsCount, spendable.attachmentInfo⟩

/-- The checked list of signatures of a signed input. -/
theorem checkMsSignatures_signed {signatures : List Signature}
    (awaiting : Awaiting crypto tx inIndex target srcEntr txkey random)
    (spends : Spends crypto tx inIndex txin sourceTx outN target)
    (sigsCount : txin.sigsCount = target.minimumSigs)
    (last : srcEntr.separatelySignedTxComplete = true → isLastSeparate tx inIndex)
    (enough : signatures.length = target.minimumSigs.toNat) (inOrder : List.SublistForall₂
      (fun sig key => crypto.checkSignature (msHash crypto tx inIndex) key sig = true) signatures
      target.keys) :
    checkMsSignatures crypto
      (withSigs tx inIndex (signatures ++ ownSigs crypto tx srcEntr txkey random)) inIndex txin
      (getTransactionHash crypto.cnFastHash tx.toTransactionPrefix) target.keys
      (signatures ++ ownSigs crypto tx srcEntr txkey random) = true := by
  have ownLength := ownSigs_length awaiting last
  refine (checkMsSignatures_iff ?_).mpr ⟨?_, ?_, ?_⟩
  · rw [preparePrefixHashForSign_withSigs]
    exact spends.signs
  · rw [List.length_append, ownLength, enough, sigsCount]
    rfl
  · rw [sigsCount, ← enough, List.take_left]
    exact sublistForall₂_iff_strictMono.mp inOrder
  · intro isLast
    rw [isLastSeparate_withSigs] at isLast
    have own : ownSigs crypto tx srcEntr txkey random = [_] := if_pos (awaiting.complete isLast)
    refine ⟨_, by rw [own, List.getLast?_concat], ?_⟩
    rw [withSigs_toTransactionPrefix, ← awaiting.txkeyOfExtra]
    exact awaiting.ownVerifies _ (own ▸ List.mem_singleton_self _)

/-! ## Agreement -/

/-- Outside the checkpoint zone the check accepts the signatures that can be given to keys in order,
and it accepts what is left when as many participants as are needed have signed. -/
theorem multisig_signing_checked (crypto : Crypto) :
    (∀ s tx inIndex txin txPrefixHash sourceTx outN target,
      Spendable crypto s tx inIndex txin sourceTx outN target →
      s.isInCheckpointZone = false →
        preparePrefixHashForSign crypto.cnFastHash tx inIndex txPrefixHash ≠ nullHash →
      (checkMsInput crypto s tx inIndex txin txPrefixHash sourceTx outN = .ok () ↔
        ∃ sig, tx.signatures[inIndex]? = some (.inl sig) ∧
          sig.s.length = target.minimumSigs.toNat + (if isLastSeparate tx inIndex then 1 else 0) ∧
          Assigned crypto (preparePrefixHashForSign crypto.cnFastHash tx inIndex txPrefixHash)
            target.keys
            (sig.s.take target.minimumSigs.toNat) ∧
          (isLastSeparate tx inIndex → ∃ own, sig.s.getLast? = some own ∧
            crypto.checkSignature txPrefixHash (getTxPubKeyFromExtra tx.toTransactionPrefix) own =
              true))) ∧
    ∀ tx inIndex txin sourceTx outN target srcEntr txkey random signers ephemerals,
      Awaiting crypto tx inIndex target srcEntr txkey random →
        Spends crypto tx inIndex txin sourceTx outN target →
      List.Forall₂ (Participant crypto sourceTx outN target.keys (msHash crypto tx inIndex)) signers
        ephemerals →
      (ephemerals.map (·.pub)).Nodup → signers.length = target.minimumSigs.toNat →
      (signAll crypto inIndex sourceTx tx signers).2 =
          List.replicate (target.minimumSigs.toNat - 1) (true, false) ++ [(true, true)] ∧
        ∀ s, Spendable crypto s tx inIndex txin sourceTx outN target →
          s.isInCheckpointZone = false →
          checkMsInput crypto s (signAll crypto inIndex sourceTx tx signers).1 inIndex txin
            (getTransactionHash crypto.cnFastHash tx.toTransactionPrefix) sourceTx outN =
              .ok () := by
  constructor
  · intro s tx inIndex txin txPrefixHash sourceTx outN target spendable outside signs
    rw [checkMsInput_eq spendable outside]
    simp only [checkMsSignatures_iff signs, spendable.sigsCount]
  · intro tx inIndex txin sourceTx outN target srcEntr txkey random signers ephemerals awaiting
      spends participants different
      many
    have atLeastOne := awaiting.atLeastOne
    have multisig : srcEntr.isMultisig := by
      rw [TxSourceEntry.isMultisig, awaiting.sigsCount]
      exact atLeastOne
    obtain ⟨there, last⟩ := awaiting.constructed.signatures multisig
    rw [awaiting.keysCount] at there
    obtain ⟨inside, -⟩ := List.getElem?_eq_some_iff.mp there
    have someone : signers ≠ [] := by
      rintro rfl
      rw [List.length_nil] at many
      omega
    obtain ⟨signatures, run, enough, inOrder⟩ :=
      signAll_eq spends inside someone participants partlyFilled_replicate different
      (fun _ _ => List.not_mem_nil) (by rw [List.length_nil, many, Nat.zero_add])
        (ownSigs_length awaiting last)
      awaiting.ownNotNull
    rw [withSigs_self there, many] at run
    rw [run]
    refine ⟨rfl, fun s spendable outside => ?_⟩
    refine (checkMsInput_eq (spendable.withSigs _) outside).mpr ⟨_, withSigs_signatures inside, ?_⟩
    exact checkMsSignatures_signed awaiting spends spendable.sigsCount last enough inOrder

section Example

private def toyBlob (byte : UInt8) : Blob 32 := Blob.filled 32 byte

/-- A signature that consists of the key and the hash. -/
private def toySignature (hash : Hash) (pub : PublicKey) : Signature :=
  ⟨pub.bytes ++ hash.bytes, by rw [List.length_append, pub.length_eq, hash.length_eq]⟩

private def toyCrypto : Crypto where
  cnFastHash _ := toyBlob 1
  generateKeyDerivation _ viewSecretKey := some viewSecretKey
  derivePublicKey _ _ spendPublicKey := some spendPublicKey
  deriveSecretKey _ _ spendSecretKey := spendSecretKey
  generateSignature _ hash pub _ := toySignature hash pub
  checkSignature hash pub sig := sig = toySignature hash pub

private def toyKeys (byte : UInt8) : AccountKeys := ⟨toyBlob byte, toyBlob byte, toyBlob byte⟩

private def toyTarget (minimumSigs : UInt32) : TxoutMultisig :=
  ⟨minimumSigs, [toyBlob 2, toyBlob 3, toyBlob 4]⟩

private def toySource (minimumSigs : UInt32) : TransactionPrefix :=
    ⟨1, 0, [], [], [.inl ⟨5, .inr (toyTarget minimumSigs)⟩]⟩

private def toyInput (amount : UInt64) (sigsCount : UInt32) : TxinMultisig :=
    ⟨amount, toyBlob 1, sigsCount, [.inl ⟨0, 1⟩]⟩

/-- A transaction in separate mode that spends the output. -/
private def toyTransaction (amount : UInt64) (sigsCount : UInt32)
    (sigs : List Signature) : Transaction :=
  ⟨⟨1, 0, [.inr (.inr (.inl (toyInput amount sigsCount)))],
    [.inr (.inr (.inr (.inr (.inr (.inr (.inr (.inr (.inr (.inr (.inl ⟨1⟩))))))))))], []⟩, [],
      [.inl ⟨sigs⟩], []⟩

private def toyAwaiting : Transaction :=
  toyTransaction 5 2 [nullSig, nullSig, nullSig, toySignature (toyBlob 1) nullPkey]

/-- The owner of the third key signs before the owner of the first. -/
theorem multisig_signing_checked_third_first :
    (signAll toyCrypto 0 (toySource 2) toyAwaiting
      [(toyKeys 4, toyBlob 0), (toyKeys 2, toyBlob 0)]).2 =
        [(true, false), (true, true)] ∧
      checkMsInput toyCrypto ⟨1, 0, false⟩
        (signAll toyCrypto 0 (toySource 2) toyAwaiting
          [(toyKeys 4, toyBlob 0), (toyKeys 2, toyBlob 0)]).1 0
        (toyInput 5 2)
          (toyBlob 1) (toySource 2) 0 = .ok () := by
  have awaiting : Awaiting toyCrypto toyAwaiting 0 (toyTarget 2) ⟨2, 3, true⟩ ⟨nullPkey, toyBlob 0⟩
      (toyBlob 0) :=
    ⟨⟨[], [], [], rfl, rfl⟩, rfl, rfl, by decide, fun _ => rfl, rfl, by decide, by decide⟩
  have spends : Spends toyCrypto toyAwaiting 0 (toyInput 5 2) (toySource 2) 0 (toyTarget 2) :=
    ⟨rfl, rfl, by decide⟩
  have spendable :
      Spendable toyCrypto ⟨1, 0,
        false⟩ toyAwaiting 0 (toyInput 5 2) (toySource 2) 0 (toyTarget 2) :=
    ⟨⟨0, rfl, by decide⟩, rfl, rfl, by decide⟩
  have third :
      Participant toyCrypto (toySource 2) 0 (toyTarget 2).keys (msHash toyCrypto toyAwaiting 0)
      (toyKeys 4, toyBlob 0) ⟨toyBlob 4, toyBlob 4⟩ := ⟨rfl, by decide, by decide, by decide⟩
  have first :
      Participant toyCrypto (toySource 2) 0 (toyTarget 2).keys (msHash toyCrypto toyAwaiting 0)
      (toyKeys 2, toyBlob 0) ⟨toyBlob 2, toyBlob 2⟩ := ⟨rfl, by decide, by decide, by decide⟩
  obtain ⟨reports, accepted⟩ :=
    (multisig_signing_checked toyCrypto).2 _ _ _ _ _ _ _ _ _ _ _ awaiting spends
    (.cons third (.cons first .nil)) (by decide) rfl
  exact ⟨reports, accepted _ spendable rfl⟩

/-- In the checkpoint zone an input without signatures is accepted; signatures do not help an input
with another amount; and where the key of the transaction has not signed for the last input, the
owner of the last key cannot sign.
-/
theorem multisig_checked_otherwise :
    checkMsInput toyCrypto ⟨1, 0, true⟩ (toyTransaction 5 2 []) 0 (toyInput 5 2) (toyBlob 1)
      (toySource 2) 0 = .ok () ∧
    checkMsInput toyCrypto ⟨1, 0, false⟩
        (signAll toyCrypto 0 (toySource 2)
          (toyTransaction 6 2 [nullSig, nullSig, nullSig,
            toySignature (toyBlob 1) nullPkey]) [(toyKeys 4, toyBlob 0), (toyKeys 2, toyBlob 0)]).1
              0 (toyInput 6 2) (toyBlob 1) (toySource 2) 0 =
      .error .refused ∧
    (signAll toyCrypto 0 (toySource 1) (toyTransaction 5 1 [nullSig, nullSig, nullSig])
      [(toyKeys 4, toyBlob 0)]).2 =
      [(false, false)] := by
  decide

end Example

end Zano.Multisig
