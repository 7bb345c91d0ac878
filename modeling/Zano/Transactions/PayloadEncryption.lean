import Mathlib
import Zano.Transactions.PayloadVisitors

/-! # Encryption of a whole transaction

Extra and attachments are encrypted under a secret that the view key of the recipient shares with
the key of the transaction. A checksum is put behind what was encrypted, with the beginning of a
hash of the secret, by which a reader knows whether it was meant, and with the secret itself under
the spend key of the sender, who finds it again there.

A transaction has one such checksum. One that was there before is found first, and if it is of
another secret, neither end reads what was encrypted.
-/

namespace Zano.PayloadEncryption

open Serialization Lockstep

def nullDerivation : KeyDerivation := nullPkey

structure Keypair where
  pub : PublicKey
  sec : SecretKey

/-- What is looked at of `transaction`. -/
structure Transaction where
  version : ℕ
  extra : List PayloadItemsV
  attachment : List PayloadItemsV

namespace Transaction

/-- The first one in extra, otherwise the first one in the attachments. -/
def cryptoInfo (tx : Transaction) : Option TxCryptoChecksum :=
  (tx.extra.findSome? asCryptoChecksum).or (tx.attachment.findSome? asCryptoChecksum)

def getTxPubKeyFromExtra (tx : Transaction) : PublicKey :=
  (tx.extra.findSome? asPublicKey).getD nullPkey

end Transaction

section

variable (c : Crypto)

/-- The first four bytes of the hash as a number. -/
def derivationHash (derivation : KeyDerivation) : UInt32 :=
  UInt32.ofNat (Nat.ofDigits 256 (((c.cnFastHash derivation.bytes).bytes.take 4).map UInt8.toNat))

/-- There is no result if an exception is thrown, here as below. -/
def encryptDecryptKeyDerivationForSender (txPub : PublicKey) (spendSec : SecretKey)
    (inOut : KeyDerivation) :
    Option KeyDerivation :=
  (c.generateKeyDerivation txPub spendSec).map fun tmpDerivation =>
    let (ck, civ) := c.chachaGenerateKeyAndIv cryptoHdsChachaTxPayloadSenderDer tmpDerivation.bytes
    c.chachaPod 20 ck civ inOut

/-- The secret as it is stored, and as it is made of what is stored. -/
def storedForSender (version : ℕ) (txPub : PublicKey) (spendSec : SecretKey)
    (inOut : KeyDerivation) :
    Option KeyDerivation :=
  if transactionVersionPostHf6 ≤ version then
    encryptDecryptKeyDerivationForSender c txPub spendSec inOut
  else some (c.chachaCryptLegacyPod spendSec.bytes inOut)

def getEncryptionKeyDerivation (isIncome : Bool) (tx : Transaction)
    (accKeys : AccountKeys) : Option KeyDerivation :=
  let txPubKey := tx.getTxPubKeyFromExtra
  if isIncome then
    match c.generateKeyDerivation txPubKey accKeys.viewSecretKey with
    | none => some nullDerivation
    | some derivation =>
        if tx.cryptoInfo.any fun cryptoInfo =>
          derivationHash c derivation ≠ cryptoInfo.derivationHash then
          some nullDerivation
        else some derivation
  else
    match tx.cryptoInfo with
    | none => some nullDerivation
    | some cryptoInfo =>
        if accKeys.spendSecretKey = nullSkey then some nullDerivation
        else
          (storedForSender c tx.version txPubKey accKeys.spendSecretKey
            cryptoInfo.encryptedKeyDerivation).map
            fun derivation =>
              if derivationHash c derivation = cryptoInfo.derivationHash then derivation
              else nullDerivation

/-- One visitor goes over both containers. -/
def decryptItems (derivation : KeyDerivation) (isIncome : Bool) (tx : Transaction)
    (accKeys : AccountKeys) :
    Option (List PayloadItemsV) :=
  let items := tx.extra ++ tx.attachment
  let onetimePub := tx.getTxPubKeyFromExtra
  if transactionVersionPostHf6 ≤ tx.version then
    (pass (decryptPayloadItem c derivation isIncome accKeys onetimePub) items
      (payloadIv c derivation)).map
      fun (decrypted, _) => decrypted.flatten
  else
    (pass (decryptAttachLegacy c derivation isIncome accKeys onetimePub)
        items ()).map fun (decrypted, _) =>
      decrypted.flatten

/-- The items, and the secret that they were decrypted with. -/
def decryptPayloadItems (isIncome : Bool) (tx : Transaction) (accKeys : AccountKeys) :
    Option (List PayloadItemsV × KeyDerivation) :=
  (getEncryptionKeyDerivation c isIncome tx accKeys).bind fun derivation =>
    if derivation = nullDerivation then some (tx.extra ++ tx.attachment, derivation)
    else (decryptItems c derivation isIncome tx accKeys).map (·, derivation)

/-- Both containers, and whether anything in them was encrypted. The vector goes on from
one to the other. -/
def encryptItems (derivation : KeyDerivation) (tx : Transaction) (senderKeys : AccountKeys)
    (destinationAddr : AccountPublicAddress) (txRandomKey : Keypair) :
    Option ((List PayloadItemsV × Bool) × (List PayloadItemsV × Bool)) :=
  if transactionVersionPostHf6 ≤ tx.version then
    let visit := encryptPayloadItem c derivation txRandomKey.sec destinationAddr senderKeys
    (pass visit tx.extra
        (payloadIv c derivation, false)).bind fun (extra, iv, wasExtraCryptedEntries) =>
      (pass visit tx.attachment (iv, false)).map fun (attachment, _, wasAttachmentCryptedEntries) =>
        ((extra, wasExtraCryptedEntries), attachment, wasAttachmentCryptedEntries)
  else
    let visit := encryptAttachLegacy c derivation txRandomKey.sec destinationAddr senderKeys
    (pass visit tx.attachment false).bind fun (attachment, wasAttachmentCryptedEntries) =>
      (pass visit tx.extra false).map fun (extra, wasExtraCryptedEntries) =>
        ((extra, wasExtraCryptedEntries), attachment, wasAttachmentCryptedEntries)

def checksumOf (derivation : KeyDerivation) (version : ℕ) (senderKeys : AccountKeys)
    (txRandomKey : Keypair) :
    Option TxCryptoChecksum :=
  (storedForSender c version txRandomKey.pub senderKeys.spendSecretKey
      derivation).map fun encryptedKeyDerivation =>
    ⟨encryptedKeyDerivation, derivationHash c derivation⟩

/-- The transaction stays as it is if no secret can be made. -/
def encryptPayloadItems (tx : Transaction) (senderKeys : AccountKeys)
    (destinationAddr : AccountPublicAddress) (txRandomKey : Keypair) (derivation : KeyDerivation) :
    Option (Transaction × KeyDerivation) :=
  match c.generateKeyDerivation destinationAddr.viewPublicKey txRandomKey.sec with
  | none => some (tx, derivation)
  | some derivation =>
      (encryptItems c derivation tx senderKeys destinationAddr txRandomKey).bind
        fun ((extra, wasExtraCryptedEntries), attachment, wasAttachmentCryptedEntries) =>
          if wasAttachmentCryptedEntries || wasExtraCryptedEntries then
            (checksumOf c derivation tx.version senderKeys txRandomKey).map fun chs =>
              if wasExtraCryptedEntries then
                ({ tx with extra := extra ++ [checksumItem chs], attachment }, derivation)
              else ({ tx with extra, attachment := attachment ++ [checksumItem chs] }, derivation)
          else some ({ tx with extra, attachment }, derivation)

end

/-! ## Two containers -/

/-- A second pass over both containers, where it finds what was added behind each. -/
theorem pass_both {σ τ : Type*} {first : σ → PayloadItemsV → Option (PayloadItemsV × σ)}
    {second : τ → PayloadItemsV → Option (List PayloadItemsV × τ)} {Allowed : PayloadItemsV → Prop}
    (InStep : σ → τ → Prop) {Related : PayloadItemsV → List PayloadItemsV → Prop}
    (step : ∀ s t item b next, InStep s t → Allowed item → first s item = some (b, next) →
      ∃ decrypted next', second t b = some (decrypted, next') ∧ InStep next next' ∧
        Related item decrypted)
    {extra extra' attachment attachment' more moreBehind : List PayloadItemsV}
    {s middle again last : σ} (t : τ) (allowed : ∀ item ∈ extra ++ attachment, Allowed item)
    (stays : ∀ t, ∀ item ∈ more ++ moreBehind, second t item = some ([item], t))
    (passed : pass first extra s = some (extra', middle))
    (passedAttachment : pass first attachment again = some (attachment', last))
    (inStep : InStep s t) (goesOn : ∀ t, InStep middle t → InStep again t) :
    ∃ outs outsBehind last', pass second ((extra' ++ more) ++ (attachment' ++ moreBehind)) t =
        some ((outs ++ more.map ([·])) ++ (outsBehind ++ moreBehind.map ([·])), last') ∧
      List.Forall₂ Related extra outs ∧ List.Forall₂ Related attachment outsBehind := by
  obtain ⟨allowedExtra, allowedAttachment⟩ := List.forall_mem_append.mp allowed
  obtain ⟨outs, next, isPassed, stepped, related⟩ := pass_follows step inStep allowedExtra passed
  obtain ⟨outsBehind, last', isPassedBehind, _, relatedBehind⟩ :=
    pass_follows step (goesOn next stepped) allowedAttachment passedAttachment
  have isMore :=
    pass_stays fun item isItem => stays next item (List.mem_append_left moreBehind isItem)
  have isMoreBehind :=
    pass_stays fun item isItem => stays last' item (List.mem_append_right more isItem)
  exact ⟨outs, outsBehind, last', pass_append_eq_some.mpr
    ⟨_, next, _, pass_append_eq_some.mpr ⟨_, next, _, isPassed, isMore, rfl⟩,
      pass_append_eq_some.mpr ⟨_, last', _, isPassedBehind, isMoreBehind, rfl⟩, rfl⟩, related,
        relatedBehind⟩

/-- What is read of a container, in its order. -/
theorem reads_flatten {visible : Bool} {items : List PayloadItemsV}
    {outs : List (List PayloadItemsV)} (reads : List.Forall₂ (Reads visible) items outs) :
    List.Forall₂ SameContent (items.filter fun item => visible || !isIsolated item)
      outs.flatten := by
  induction reads with
  | nil => exact .nil
  | @cons item decrypted items outs here _ inductionHypothesis =>
      rw [List.flatten_cons]
      by_cases isHidden : (isIsolated item && !visible) = true
      · rw [Reads, if_pos isHidden] at here
        rw [List.filter_cons_of_neg (by cases visible <;> simp_all), here]
        exact inductionHypothesis
      · rw [Reads, if_neg isHidden] at here
        obtain ⟨other, rfl, same⟩ := here
        rw [List.filter_cons_of_pos (by cases visible <;> simp_all)]
        exact .cons same inductionHypothesis

/-- What encryption makes of a container. -/
structure Encrypted (version : ℕ) (items : List PayloadItemsV)
    (encrypted : List PayloadItemsV × Bool) : Prop where
  was : encrypted.2 = items.any (isEncrypted version)
  kinds : List.Forall₂ (SameKind version) items encrypted.1

namespace Encrypted

variable {version : ℕ} {items : List PayloadItemsV} {encrypted : List PayloadItemsV × Bool}
  (made : Encrypted version items encrypted)

include made

theorem checksum : encrypted.1.findSome? asCryptoChecksum = items.findSome? asCryptoChecksum := by
  have same := map_eq_of_related (fun _ _ kind => SameKind.checksum kind) made.kinds
  simpa only [List.findSome?_map, Function.id_comp] using congrArg (List.findSome? id) same

theorem publicKey : encrypted.1.findSome? asPublicKey = items.findSome? asPublicKey := by
  have same := map_eq_of_related (fun _ _ kind => SameKind.publicKey kind) made.kinds
  simpa only [List.findSome?_map, Function.id_comp] using congrArg (List.findSome? id) same

theorem unchanged
    (notEncrypted : ∀ item ∈ items, PayloadEncryption.isEncrypted version item = false)
    (notDeflated : ∀ item ∈ items, isDeflated item = false) : encrypted.1 = items := by
  have kinds := made.kinds
  clear made
  obtain ⟨encrypted, was⟩ := encrypted
  simp only at kinds ⊢
  induction kinds with
  | nil => rfl
  | cons here _ inductionHypothesis =>
      obtain ⟨notHere, notLater⟩ := List.forall_mem_cons.mp notEncrypted
      obtain ⟨notHere', notLater'⟩ := List.forall_mem_cons.mp notDeflated
      rw [here.unchanged notHere notHere', inductionHypothesis notLater notLater']

end Encrypted

theorem countP_of_kinds {version : ℕ} {items others : List PayloadItemsV}
    (kinds : List.Forall₂ (SameKind version) items others) :
    others.countP (isEncrypted version) = items.countP (isEncrypted version) := by
  have same := map_eq_of_related (fun _ _ kind => SameKind.encrypted kind) kinds
  simpa only [List.countP_map, Function.id_comp] using congrArg (List.countP id) same

/-- The vector behind some items. -/
def vectorAfter (c : Crypto) (derivation : KeyDerivation) (version : ℕ)
    (items : List PayloadItemsV) : UInt64 :=
  payloadIv c derivation + UInt64.ofNat (items.countP (isEncrypted version))

section

variable {c : Crypto} {derivation : KeyDerivation} {tx : Transaction} {txSecKey : SecretKey}
  {destinationAddr : AccountPublicAddress} {senderKeys accKeys : AccountKeys}
  {txRandomKey : Keypair} {isIncome visible : Bool}

theorem vector_cons (iv : UInt64) (version : ℕ) (item : PayloadItemsV)
    (items : List PayloadItemsV) :
    (if isEncrypted version item then iv + 1 else iv) +
      UInt64.ofNat (items.countP (isEncrypted version)) =
      iv + UInt64.ofNat ((item :: items).countP (isEncrypted version)) := by
  rw [List.countP_cons, UInt64.ofNat_add, UInt64.add_comm (UInt64.ofNat _), ← UInt64.add_assoc]
  split <;> simp

/-- A pass of encryption, from any vector. -/
theorem encryptPayloadItem_pass {version : ℕ} (sinceHf6 : transactionVersionPostHf6 ≤ version)
    {items encrypted : List PayloadItemsV} {s last : UInt64 × Bool}
    (passed : pass (encryptPayloadItem c derivation txSecKey destinationAddr senderKeys) items s =
      some (encrypted, last)) :
    last = (s.1 + UInt64.ofNat (items.countP (isEncrypted version)),
      s.2 || items.any (isEncrypted version)) ∧
      List.Forall₂ (SameKind version) items encrypted := by
  have step :=
    @encryptPayloadItem_state c derivation txSecKey destinationAddr senderKeys version sinceHf6
  refine ⟨?_, pass_related (fun s item b next isHere => (step s item b next isHere).2) passed⟩
  rw [pass_foldl (fun s item b next isHere => (step s item b next isHere).1) passed]
  clear passed
  induction items generalizing s with
  | nil => simp
  | cons item items inductionHypothesis =>
      rw [List.foldl_cons, inductionHypothesis, vector_cons, List.any_cons, Bool.or_assoc]

theorem encryptAttachLegacy_pass {version : ℕ} (beforeHf6 : version < transactionVersionPostHf6)
    {items encrypted : List PayloadItemsV} {s last : Bool}
    (passed : pass (encryptAttachLegacy c derivation txSecKey destinationAddr senderKeys) items s =
      some (encrypted, last)) :
    last = (s || items.any (isEncrypted version)) ∧
      List.Forall₂ (SameKind version) items encrypted := by
  have step :=
    @encryptAttachLegacy_state c derivation txSecKey destinationAddr senderKeys version beforeHf6
  refine ⟨?_, pass_related (fun s item b next isHere => (step s item b next isHere).2) passed⟩
  rw [pass_foldl (fun s item b next isHere => (step s item b next isHere).1) passed]
  clear passed
  induction items generalizing s with
  | nil => simp
  | cons item items inductionHypothesis =>
      rw [List.foldl_cons, inductionHypothesis, List.any_cons, Bool.or_assoc]

/-- A pass of decryption, whoever reads. -/
theorem decryptPayloadItem_pass {version : ℕ} (sinceHf6 : transactionVersionPostHf6 ≤ version)
    {onetimePub : PublicKey} {items : List PayloadItemsV} {decrypted : List (List PayloadItemsV)}
    {iv last : UInt64}
    (passed : pass (decryptPayloadItem c derivation isIncome accKeys onetimePub) items iv =
      some (decrypted, last)) :
    last = iv + UInt64.ofNat (items.countP (isEncrypted version)) := by
  rw [pass_foldl
    (@decryptPayloadItem_state c derivation accKeys onetimePub isIncome version sinceHf6) passed]
  clear passed
  induction items generalizing iv with
  | nil => simp
  | cons item items inductionHypothesis => rw [List.foldl_cons, inductionHypothesis, vector_cons]

theorem encryptItems_encrypted {extra attachment : List PayloadItemsV × Bool}
    (isResult : encryptItems c derivation tx senderKeys destinationAddr txRandomKey =
      some (extra, attachment)) :
    Encrypted tx.version tx.extra extra ∧ Encrypted tx.version tx.attachment attachment := by
  rw [encryptItems] at isResult
  split_ifs at isResult with sinceHf6
  · obtain ⟨⟨made, iv, was⟩, isExtra, isResult⟩ := Option.bind_eq_some_iff.mp isResult
    obtain ⟨⟨madeBehind, ivBehind, wasBehind⟩, isAttachment, same⟩ :=
      Option.map_eq_some_iff.mp isResult
    cases same
    obtain ⟨isState, kinds⟩ := encryptPayloadItem_pass sinceHf6 isExtra
    obtain ⟨isStateBehind, kindsBehind⟩ := encryptPayloadItem_pass sinceHf6 isAttachment
    exact ⟨⟨(Prod.mk.inj isState).2, kinds⟩, (Prod.mk.inj isStateBehind).2, kindsBehind⟩
  · have beforeHf6 := Nat.not_le.mp sinceHf6
    obtain ⟨⟨madeBehind, wasBehind⟩, isAttachment, isResult⟩ := Option.bind_eq_some_iff.mp isResult
    obtain ⟨⟨made, was⟩, isExtra, same⟩ := Option.map_eq_some_iff.mp isResult
    cases same
    obtain ⟨isState, kinds⟩ := encryptAttachLegacy_pass beforeHf6 isExtra
    obtain ⟨isStateBehind, kindsBehind⟩ := encryptAttachLegacy_pass beforeHf6 isAttachment
    exact ⟨⟨isState, kinds⟩, isStateBehind, kindsBehind⟩

theorem encryptItems_ends
    (isolates : ∀ item ∈ tx.extra ++ tx.attachment, isIsolated item = true →
      Isolates c txRandomKey.sec destinationAddr) :
    ∃ extra attachment,
      encryptItems c derivation tx senderKeys destinationAddr txRandomKey =
        some (extra, attachment) := by
  obtain ⟨inExtra, inAttachment⟩ := List.forall_mem_append.mp isolates
  rw [encryptItems]
  split_ifs with sinceHf6
  · have step := @encryptPayloadItem_ends c derivation txRandomKey.sec destinationAddr senderKeys
    obtain ⟨extra, last, isExtra⟩ := pass_ends step inExtra (payloadIv c derivation, false)
    obtain ⟨attachment, _, isAttachment⟩ := pass_ends step inAttachment (last.1, false)
    exact ⟨_, _,
      Option.bind_eq_some_iff.mpr ⟨_, isExtra, Option.map_eq_some_iff.mpr ⟨_, isAttachment, rfl⟩⟩⟩
  · have step := @encryptAttachLegacy_ends c derivation txRandomKey.sec destinationAddr senderKeys
    obtain ⟨attachment, _, isAttachment⟩ := pass_ends step inAttachment false
    obtain ⟨extra, _, isExtra⟩ := pass_ends step inExtra false
    exact ⟨_, _,
      Option.bind_eq_some_iff.mpr ⟨_, isAttachment, Option.map_eq_some_iff.mpr ⟨_, isExtra, rfl⟩⟩⟩

/-! ## What is added -/

/-- A checksum is behind extra if anything in it was encrypted. -/
def addedToExtra (tx : Transaction) (chs : TxCryptoChecksum) : List PayloadItemsV :=
  if tx.extra.any (isEncrypted tx.version) then [checksumItem chs] else []

/-- Otherwise it is behind the attachments, if anything in them was. -/
def addedToAttachment (tx : Transaction) (chs : TxCryptoChecksum) : List PayloadItemsV :=
  if !tx.extra.any (isEncrypted tx.version) && tx.attachment.any (isEncrypted tx.version) then
    [checksumItem chs] else []

def isAnyEncrypted (tx : Transaction) : Bool :=
  (tx.extra ++ tx.attachment).any (isEncrypted tx.version)

theorem added_isChecksum {chs : TxCryptoChecksum} {item : PayloadItemsV}
    (isAdded : item ∈ addedToExtra tx chs ++ addedToAttachment tx chs) :
    item = checksumItem chs := by
  rcases List.mem_append.mp isAdded with inExtra | inAttachment
  · rw [addedToExtra] at inExtra
    split at inExtra
    · exact List.mem_singleton.mp inExtra
    · cases inExtra
  · rw [addedToAttachment] at inAttachment
    split at inAttachment
    · exact List.mem_singleton.mp inAttachment
    · cases inAttachment

theorem encryptPayloadItems_eq {chs : TxCryptoChecksum}
    {extra attachment : List PayloadItemsV × Bool} (old : KeyDerivation)
    (secret :
      c.generateKeyDerivation destinationAddr.viewPublicKey txRandomKey.sec = some derivation)
    (isChecksum : checksumOf c derivation tx.version senderKeys txRandomKey = some chs)
    (isResult : encryptItems c derivation tx senderKeys destinationAddr txRandomKey =
      some (extra, attachment)) :
    encryptPayloadItems c tx senderKeys destinationAddr txRandomKey old =
      some ({ tx with
          extra := extra.1 ++ addedToExtra tx chs
          attachment := attachment.1 ++ addedToAttachment tx chs }, derivation) := by
  obtain ⟨inExtra, inAttachment⟩ := encryptItems_encrypted isResult
  obtain ⟨extra, was⟩ := extra
  obtain ⟨attachment, wasBehind⟩ := attachment
  simp only [encryptPayloadItems, secret, isResult, isChecksum, Option.bind_some, Option.map_some,
    addedToExtra, addedToAttachment, ← inExtra.was, ← inAttachment.was]
  cases was <;> cases wasBehind <;> simp

/-- A reader who knows the secret reads what is visible of both containers. -/
theorem decryptItems_encryptItems (involutive : c.Involutive) {tx' : Transaction}
    {extra attachment : List PayloadItemsV × Bool} {more moreBehind : List PayloadItemsV}
    {chs : TxCryptoChecksum} (sameVersion : tx'.version = tx.version)
    (isExtra' : tx'.extra = extra.1 ++ more)
    (isAttachment' : tx'.attachment = attachment.1 ++ moreBehind) (opens : Opens c
      (c.generateKeyDerivation destinationAddr.spendPublicKey txRandomKey.sec) isIncome accKeys
      tx'.getTxPubKeyFromExtra visible)
    (isSender : isIncome = false → accKeys.spendSecretKey = senderKeys.spendSecretKey)
    (readable : ∀ item ∈ tx.extra ++ tx.attachment, Readable c isIncome item)
    (areChecksums : ∀ item ∈ more ++ moreBehind, item = checksumItem chs)
    (isResult : encryptItems c derivation tx senderKeys destinationAddr txRandomKey =
      some (extra, attachment)) :
    ∃ read readBehind,
      decryptItems c derivation isIncome tx' accKeys =
        some ((read ++ more) ++ (readBehind ++ moreBehind)) ∧
      List.Forall₂ SameContent (tx.extra.filter fun item => visible || !isIsolated item) read ∧
      List.Forall₂ SameContent (tx.attachment.filter fun item => visible || !isIsolated item)
        readBehind := by
  have flatten (items : List PayloadItemsV) : (items.map fun item => [item]).flatten = items := by
    rw [← List.flatMap_def, List.flatMap_singleton']
  rw [encryptItems] at isResult
  split_ifs at isResult with sinceHf6
  · obtain ⟨⟨made, iv, was⟩, isExtra, isResult⟩ := Option.bind_eq_some_iff.mp isResult
    obtain ⟨⟨madeBehind, ivBehind, wasBehind⟩, isAttachment, same⟩ :=
      Option.map_eq_some_iff.mp isResult
    cases same
    have step : ∀ (s : UInt64 × Bool) (iv : UInt64) item b next, s.1 = iv →
        Readable c isIncome item →
        encryptPayloadItem c derivation txRandomKey.sec destinationAddr senderKeys s item =
          some (b, next) →
          ∃ decrypted next',
            decryptPayloadItem c derivation isIncome accKeys tx'.getTxPubKeyFromExtra iv b =
              some (decrypted, next') ∧
              next.1 = next' ∧ Reads visible item decrypted := by
      rintro s _ item b next rfl here encrypted
      obtain ⟨decrypted, isDecrypted, reads⟩ :=
        decryptPayloadItem_encryptPayloadItem involutive opens isSender here encrypted
      exact ⟨decrypted, next.1, isDecrypted, rfl, reads⟩
    obtain ⟨outs, outsBehind, last, isPassed, related, relatedBehind⟩ := pass_both
      (fun (s : UInt64 × Bool) (iv : UInt64) => s.1 = iv) step (payloadIv c derivation) readable
      (fun iv item isItem => by
        rw [areChecksums item isItem]
        rfl)
      isExtra isAttachment rfl (fun _ inStep => inStep)
    refine ⟨outs.flatten, outsBehind.flatten, ?_, reads_flatten related,
      reads_flatten relatedBehind⟩
    simp only [decryptItems, sameVersion, if_pos sinceHf6, isExtra', isAttachment', isPassed,
      Option.map_some, List.flatten_append, flatten]
  · obtain ⟨⟨madeBehind, wasBehind⟩, isAttachment, isResult⟩ := Option.bind_eq_some_iff.mp isResult
    obtain ⟨⟨made, was⟩, isExtra, same⟩ := Option.map_eq_some_iff.mp isResult
    cases same
    have step : ∀ (s : Bool) (t : Unit) item b next, True → Readable c isIncome item →
        encryptAttachLegacy c derivation txRandomKey.sec destinationAddr senderKeys s item =
          some (b, next) →
          ∃ decrypted next',
            decryptAttachLegacy c derivation isIncome accKeys tx'.getTxPubKeyFromExtra t b =
              some (decrypted, next') ∧
              True ∧ Reads visible item decrypted := by
      intro s t item b next _ here encrypted
      obtain ⟨decrypted, isDecrypted, reads⟩ :=
        decryptAttachLegacy_encryptAttachLegacy involutive opens isSender here encrypted
      exact ⟨decrypted, (), isDecrypted, trivial, reads⟩
    obtain ⟨outs, outsBehind, last, isPassed, related, relatedBehind⟩ :=
      pass_both (fun _ _ => True) step ()
      readable
      (fun t item isItem => by
        rw [areChecksums item isItem]
        rfl)
      isExtra isAttachment trivial (fun _ _ => trivial)
    refine ⟨outs.flatten, outsBehind.flatten, ?_, reads_flatten related,
      reads_flatten relatedBehind⟩
    simp only [decryptItems, sameVersion, if_neg sinceHf6, isExtra', isAttachment', isPassed,
      Option.map_some, List.flatten_append, flatten]

/-! ## The vectors -/

/-- An item is encrypted in the vector that decryption has counted up to before it,
whoever decrypts. -/
def SameVectors (c : Crypto) (derivation : KeyDerivation) (version : ℕ) (txSecKey : SecretKey)
    (destinationAddr : AccountPublicAddress) (senderKeys : AccountKeys)
    (earlier items earlier' items' : List PayloadItemsV) : Prop :=
  ∀ k item, items[k]? = some item →
    let iv := vectorAfter c derivation version (earlier ++ items.take k)
    ∃ b flag next, items'[k]? = some b ∧
      encryptPayloadItem c derivation txSecKey destinationAddr senderKeys (iv, flag) item =
        some (b, next) ∧
      ∀ isIncome accKeys onetimePub decrypted last,
        pass (decryptPayloadItem c derivation isIncome accKeys onetimePub)
          (earlier' ++ items'.take k)
          (payloadIv c derivation) = some (decrypted, last) → last = iv

theorem vectorAfter_append (c : Crypto) (derivation : KeyDerivation) (version : ℕ)
    (items more : List PayloadItemsV) :
    vectorAfter c derivation version (items ++ more) =
      vectorAfter c derivation version items +
        UInt64.ofNat (more.countP (isEncrypted version)) := by
  rw [vectorAfter, vectorAfter, List.countP_append, UInt64.ofNat_add, UInt64.add_assoc]

/-- A container, and the one that came before it. -/
theorem sameVectors {version : ℕ} (sinceHf6 : transactionVersionPostHf6 ≤ version)
    {earlier earlier' items items' : List PayloadItemsV} {flag : Bool} {last : UInt64 × Bool}
    (passed : pass (encryptPayloadItem c derivation txSecKey destinationAddr senderKeys) items
      (vectorAfter c derivation version earlier, flag) = some (items', last))
    (sameEarlier : earlier'.countP (isEncrypted version) = earlier.countP (isEncrypted version))
    (more : List PayloadItemsV) :
    SameVectors c derivation version txSecKey destinationAddr senderKeys earlier items earlier'
      (items' ++ more) := by
  intro k item isItem iv
  obtain ⟨b, next, later, isB, before, isHere⟩ := pass_getElem? passed isItem
  obtain ⟨isNext, kinds⟩ := encryptPayloadItem_pass sinceHf6 before
  have isIv : next.1 = iv := by rw [isNext, ← vectorAfter_append]
  have inside : k < items'.length := (List.getElem?_eq_some_iff.mp isB).1
  refine ⟨b, next.2,
    later, by rw [List.getElem?_append_left inside, isB], by rw [← isIv]; exact isHere, ?_⟩
  intro isIncome accKeys onetimePub decrypted last isPassed
  rw [decryptPayloadItem_pass sinceHf6 isPassed, List.take_append_of_le_length inside.le,
    List.countP_append, sameEarlier, countP_of_kinds kinds, ← List.countP_append]
  rfl

theorem sameVectors_encryptItems (sinceHf6 : transactionVersionPostHf6 ≤ tx.version)
    {extra attachment : List PayloadItemsV × Bool} {more moreBehind : List PayloadItemsV}
    {chs : TxCryptoChecksum} (areChecksums : ∀ item ∈ more ++ moreBehind, item = checksumItem chs)
    (isResult : encryptItems c derivation tx senderKeys destinationAddr txRandomKey =
      some (extra, attachment)) :
    SameVectors c derivation tx.version txRandomKey.sec destinationAddr senderKeys [] tx.extra []
      (extra.1 ++ more) ∧
      SameVectors c derivation tx.version txRandomKey.sec destinationAddr senderKeys tx.extra
        tx.attachment
        (extra.1 ++ more) (attachment.1 ++ moreBehind) := by
  have notCounted : more.countP (isEncrypted tx.version) = 0 := by
    rw [List.countP_eq_zero]
    intro item isItem
    rw [areChecksums item (List.mem_append_left moreBehind isItem)]
    exact nofun
  have start : vectorAfter c derivation tx.version [] = payloadIv c derivation := by
    simp [vectorAfter]
  rw [encryptItems, if_pos sinceHf6] at isResult
  obtain ⟨⟨made, iv, was⟩, isExtra, isResult⟩ := Option.bind_eq_some_iff.mp isResult
  obtain ⟨⟨madeBehind, ivBehind, wasBehind⟩, isAttachment, same⟩ :=
    Option.map_eq_some_iff.mp isResult
  cases same
  obtain ⟨isState, kinds⟩ := encryptPayloadItem_pass sinceHf6 isExtra
  have isIv : iv = vectorAfter c derivation tx.version tx.extra := (Prod.mk.inj isState).1
  rw [← start] at isExtra
  rw [isIv] at isAttachment
  constructor
  · exact sameVectors sinceHf6 isExtra rfl more
  · apply sameVectors sinceHf6 isAttachment _ moreBehind
    rw [List.countP_append, notCounted, countP_of_kinds kinds]
    rfl

/-! ## The secret -/

/-- A checksum that was there before, where it is found before the added one, is the same. -/
structure KeepsChecksum (tx : Transaction) (chs : TxCryptoChecksum) : Prop where
  inExtra : ∀ earlier, tx.extra.findSome? asCryptoChecksum = some earlier → earlier = chs
  inAttachment : tx.extra.any (isEncrypted tx.version) = false →
    ∀ earlier, tx.attachment.findSome? asCryptoChecksum = some earlier → earlier = chs

theorem findSome?_added (added : Bool) (chs : TxCryptoChecksum) :
    (if added then [checksumItem chs] else []).findSome? asCryptoChecksum = if added then some chs
      else none := by
  cases added <;> rfl

/-- What is found first, if both containers have something added behind them. -/
theorem foundFirst {α : Type*} {inExtra inAttachment : Option α} {chs : α}
    {wasExtra wasAttachment : Bool} (kept : ∀ earlier, inExtra = some earlier → earlier = chs)
    (keptBehind : wasExtra = false → ∀ earlier, inAttachment = some earlier → earlier = chs) :
    (inExtra.or (if wasExtra then some chs else none)).or
        (inAttachment.or (if !wasExtra && wasAttachment then some chs else none)) =
      if (wasExtra || wasAttachment) || (inExtra.or inAttachment).isSome then some chs
      else none := by
  cases inExtra with
  | some earlier => simp [kept earlier rfl]
  | none =>
      cases wasExtra with
      | true => simp
      | false =>
          cases inAttachment with
          | some earlier => simp [keptBehind rfl earlier rfl]
          | none => simp

theorem cryptoInfo_encrypted {chs : TxCryptoChecksum} (kept : KeepsChecksum tx chs)
    {tx' : Transaction} {extra attachment : List PayloadItemsV × Bool}
    (made : Encrypted tx.version tx.extra extra)
    (madeBehind : Encrypted tx.version tx.attachment attachment)
    (isExtra' : tx'.extra = extra.1 ++ addedToExtra tx chs)
    (isAttachment' : tx'.attachment = attachment.1 ++ addedToAttachment tx chs) :
    tx'.cryptoInfo = if isAnyEncrypted tx || tx.cryptoInfo.isSome then some chs else none := by
  rw [Transaction.cryptoInfo, isExtra', isAttachment', List.findSome?_append, List.findSome?_append,
    made.checksum, madeBehind.checksum, addedToExtra, addedToAttachment, findSome?_added,
    findSome?_added, isAnyEncrypted, List.any_append]
  exact foundFirst kept.inExtra kept.inAttachment

theorem getTxPubKeyFromExtra_encrypted {chs : TxCryptoChecksum} {tx' : Transaction}
    {extra : List PayloadItemsV × Bool} (made : Encrypted tx.version tx.extra extra)
    (isExtra' : tx'.extra = extra.1 ++ addedToExtra tx chs) :
    tx'.getTxPubKeyFromExtra = tx.getTxPubKeyFromExtra := by
  have notAdded : (addedToExtra tx chs).findSome? asPublicKey = none := by
    rw [addedToExtra]
    split <;> rfl
  rw [Transaction.getTxPubKeyFromExtra, isExtra', List.findSome?_append, made.publicKey, notAdded,
    Option.or_none]
  rfl

/-- What is stored for the sender gives the secret back. -/
theorem storedForSender_storedForSender (involutive : c.Involutive) {version : ℕ}
    {txPub : PublicKey} {spendSec : SecretKey} {secret stored : KeyDerivation}
    (isStored : storedForSender c version txPub spendSec secret = some stored) :
    storedForSender c version txPub spendSec stored = some secret := by
  rw [storedForSender] at isStored ⊢
  split_ifs at isStored ⊢
  · obtain ⟨tmpDerivation, isDerivation, same⟩ := Option.map_eq_some_iff.mp isStored
    rw [encryptDecryptKeyDerivationForSender, isDerivation, Option.map_some, ← same]
    simp only [involutive.chachaPod]
  · cases isStored
    rw [involutive.chachaCryptLegacyPod]

/-- The recipient makes the secret anew. -/
theorem getEncryptionKeyDerivation_income {chs : TxCryptoChecksum} {tx' : Transaction}
    (secret : c.generateKeyDerivation tx'.getTxPubKeyFromExtra accKeys.viewSecretKey =
      some derivation)
    (isHash : chs.derivationHash = derivationHash c derivation)
    (onlyThis : ∀ cryptoInfo, tx'.cryptoInfo = some cryptoInfo → cryptoInfo = chs) :
    getEncryptionKeyDerivation c true tx' accKeys = some derivation := by
  simp only [getEncryptionKeyDerivation, if_true, secret]
  apply if_neg
  rw [Option.any_eq_true]
  rintro ⟨cryptoInfo, isInfo, differs⟩
  rw [onlyThis cryptoInfo isInfo, isHash] at differs
  simp at differs

/-- The sender finds it again. -/
theorem getEncryptionKeyDerivation_outgoing (involutive : c.Involutive) {chs : TxCryptoChecksum}
    {tx' : Transaction}
    (isChecksum : checksumOf c derivation tx'.version senderKeys txRandomKey = some chs)
    (isPub : tx'.getTxPubKeyFromExtra = txRandomKey.pub)
    (notNull : senderKeys.spendSecretKey ≠ nullSkey) (isInfo : tx'.cryptoInfo = some chs) :
    getEncryptionKeyDerivation c false tx' senderKeys = some derivation := by
  obtain ⟨stored, isStored, rfl⟩ := Option.map_eq_some_iff.mp isChecksum
  simp only [getEncryptionKeyDerivation, Bool.false_eq_true, if_false, isInfo, notNull, isPub,
    storedForSender_storedForSender involutive isStored, Option.map_some, if_true]

end

/-! ## Both ends -/

/-- In their order, the items that are visible to the reader, each with its content, and
the added checksum. -/
def Receives (visible : Bool) (tx : Transaction) (chs : TxCryptoChecksum)
    (decrypted : List PayloadItemsV) : Prop :=
  ∃ read readBehind, decrypted =
    (read ++ addedToExtra tx chs) ++ (readBehind ++ addedToAttachment tx chs) ∧
    List.Forall₂ SameContent (tx.extra.filter fun item => visible || !isIsolated item) read ∧
    List.Forall₂ SameContent (tx.attachment.filter fun item => visible || !isIsolated item)
      readBehind

/-- The keys of the recipient and of the transaction belong together. -/
structure Together (c : Crypto) (tx : Transaction) (receiverKeys : AccountKeys)
    (destinationAddr : AccountPublicAddress) (txRandomKey : Keypair) (derivation : KeyDerivation) :
      Prop where
  inExtra : tx.getTxPubKeyFromExtra = txRandomKey.pub
  pubNotNull : txRandomKey.pub ≠ nullPkey
  derivationNotNull : derivation ≠ nullDerivation
  view : c.generateKeyDerivation destinationAddr.viewPublicKey txRandomKey.sec = some derivation
  viewOfReceiver :
    c.generateKeyDerivation txRandomKey.pub receiverKeys.viewSecretKey = some derivation
  spendOfReceiver : c.generateKeyDerivation txRandomKey.pub receiverKeys.spendSecretKey =
    c.generateKeyDerivation destinationAddr.spendPublicKey txRandomKey.sec
  isolates : ∀ item ∈ tx.extra ++ tx.attachment, isIsolated item = true →
    Isolates c txRandomKey.sec destinationAddr

section

variable {c : Crypto} {derivation : KeyDerivation} {tx : Transaction}
  {destinationAddr : AccountPublicAddress} {senderKeys receiverKeys accKeys : AccountKeys}
  {txRandomKey : Keypair} {chs : TxCryptoChecksum} {isIncome visible : Bool}

/-- Whoever has the secret receives what is visible. -/
theorem receives_of_derivation (involutive : c.Involutive) {tx' : Transaction}
    {extra attachment : List PayloadItemsV × Bool} (notNull : derivation ≠ nullDerivation)
    (sameVersion : tx'.version = tx.version) (isExtra' : tx'.extra = extra.1 ++ addedToExtra tx chs)
    (isAttachment' : tx'.attachment = attachment.1 ++ addedToAttachment tx chs)
    (isResult : encryptItems c derivation tx senderKeys destinationAddr txRandomKey =
      some (extra, attachment))
    (isDerivation : getEncryptionKeyDerivation c isIncome tx' accKeys = some derivation)
    (opens : Opens c (c.generateKeyDerivation destinationAddr.spendPublicKey txRandomKey.sec)
      isIncome accKeys
      tx'.getTxPubKeyFromExtra visible)
    (isSender : isIncome = false → accKeys.spendSecretKey = senderKeys.spendSecretKey)
    (readable : ∀ item ∈ tx.extra ++ tx.attachment, Readable c isIncome item) :
    ∃ decrypted, decryptPayloadItems c isIncome tx' accKeys = some (decrypted, derivation) ∧
      Receives visible tx chs decrypted := by
  obtain ⟨read, readBehind, isDecrypted, same, sameBehind⟩ :=
    decryptItems_encryptItems involutive sameVersion isExtra'
    isAttachment' opens isSender readable (fun _ => added_isChecksum) isResult
  refine ⟨_, ?_, read, readBehind, rfl, same, sameBehind⟩
  rw [decryptPayloadItems, isDerivation, Option.bind_some, if_neg notNull, isDecrypted,
    Option.map_some]

theorem sameContent_visible (items : List PayloadItemsV) :
    List.Forall₂ SameContent (items.filter fun item => true || !isIsolated item) items := by
  have everything : (items.filter fun item => true || !isIsolated item) = items :=
    List.filter_eq_self.mpr fun _ _ => rfl
  rw [everything]
  exact List.forall₂_same.mpr fun item _ => .refl item

/-- Where nothing was encrypted or deflated, everything is there to be read. -/
theorem receives_unchanged {tx' : Transaction} {extra attachment : List PayloadItemsV × Bool}
    (made : Encrypted tx.version tx.extra extra)
    (madeBehind : Encrypted tx.version tx.attachment attachment)
    (isExtra' : tx'.extra = extra.1 ++ addedToExtra tx chs)
    (isAttachment' : tx'.attachment = attachment.1 ++ addedToAttachment tx chs)
    (notEncrypted : isAnyEncrypted tx = false) (noInfo : tx'.cryptoInfo = none)
    (notDeflated : ∀ item ∈ tx.extra ++ tx.attachment, isDeflated item = false) :
    ∃ decrypted, decryptPayloadItems c false tx' accKeys = some (decrypted, nullDerivation) ∧
      Receives true tx chs decrypted := by
  obtain ⟨notInExtra, notInAttachment⟩ := List.forall_mem_append.mp notDeflated
  rw [isAnyEncrypted, List.any_eq_false] at notEncrypted
  obtain ⟨plain, plainBehind⟩ := List.forall_mem_append.mp fun item isItem =>
    Bool.eq_false_iff.mpr (notEncrypted item isItem)
  rw [made.unchanged plain notInExtra] at isExtra'
  rw [madeBehind.unchanged plainBehind notInAttachment] at isAttachment'
  have noDerivation : getEncryptionKeyDerivation c false tx' accKeys = some nullDerivation := by
    simp only [getEncryptionKeyDerivation, Bool.false_eq_true, if_false, noInfo]
  refine ⟨tx'.extra ++ tx'.attachment, ?_, tx.extra, tx.attachment, by rw [isExtra', isAttachment'],
    sameContent_visible tx.extra, sameContent_visible tx.attachment⟩
  rw [decryptPayloadItems, noDerivation, Option.bind_some, if_pos rfl]

/-- What is encrypted is read by the recipient, except for isolated bodies without the spend key,
and by the sender; and every vector is counted up to on both sides alike. -/
theorem encryptPayloadItems_readable (involutive : c.Involutive)
    (together : Together c tx receiverKeys destinationAddr txRandomKey derivation)
    (isChecksum : checksumOf c derivation tx.version senderKeys txRandomKey = some chs)
    (kept : KeepsChecksum tx chs)
    (restores : ∀ sa, serviceItem sa ∈ tx.extra ++ tx.attachment → c.Restores sa)
    (old : KeyDerivation) :
    ∃ tx', encryptPayloadItems c tx senderKeys destinationAddr txRandomKey old =
      some (tx', derivation) ∧
      (receiverKeys.spendSecretKey ≠ nullSkey →
        ∃ decrypted, decryptPayloadItems c true tx' receiverKeys = some (decrypted, derivation) ∧
          Receives true tx chs decrypted) ∧
      (∃ decrypted,
        decryptPayloadItems c true tx' { receiverKeys with spendSecretKey := nullSkey } =
          some (decrypted, derivation) ∧
          Receives false tx chs decrypted) ∧
      (senderKeys.spendSecretKey ≠ nullSkey →
        (∀ sa, serviceItem sa ∈ tx.extra ++ tx.attachment → isIsolated (serviceItem sa) = true →
          sa.security = []) →
        (isAnyEncrypted tx = true ∨ tx.cryptoInfo.isSome = true ∨
          ∀ item ∈ tx.extra ++ tx.attachment, isDeflated item = false) →
        ∃ decrypted stored, decryptPayloadItems c false tx' senderKeys = some (decrypted, stored) ∧
          Receives true tx chs decrypted) ∧
      (transactionVersionPostHf6 ≤ tx.version →
        SameVectors c derivation tx.version txRandomKey.sec destinationAddr senderKeys [] tx.extra
          [] tx'.extra ∧
        SameVectors c derivation tx.version txRandomKey.sec destinationAddr senderKeys tx.extra
          tx.attachment tx'.extra
          tx'.attachment) := by
  obtain ⟨extra, attachment, isResult⟩ :=
    @encryptItems_ends c derivation tx destinationAddr senderKeys txRandomKey together.isolates
  obtain ⟨made, madeBehind⟩ := encryptItems_encrypted isResult
  refine ⟨_, encryptPayloadItems_eq old together.view isChecksum isResult, ?_⟩
  generalize isTx : ({ tx with
    extra := extra.1 ++ addedToExtra tx chs
    attachment := attachment.1 ++ addedToAttachment tx chs } : Transaction) = tx'
  have sameVersion : tx'.version = tx.version := by rw [← isTx]
  have isExtra' : tx'.extra = extra.1 ++ addedToExtra tx chs := by rw [← isTx]
  have isAttachment' : tx'.attachment = attachment.1 ++ addedToAttachment tx chs := by rw [← isTx]
  have isPub : tx'.getTxPubKeyFromExtra = txRandomKey.pub :=
    (getTxPubKeyFromExtra_encrypted made isExtra').trans together.inExtra
  have info := cryptoInfo_encrypted kept made madeBehind isExtra' isAttachment'
  have isHash : chs.derivationHash = derivationHash c derivation := by
    obtain ⟨stored, _, rfl⟩ := Option.map_eq_some_iff.mp isChecksum
    rfl
  have onlyThis (cryptoInfo : TxCryptoChecksum) (isInfo : tx'.cryptoInfo = some cryptoInfo) :
      cryptoInfo = chs := by
    rw [info] at isInfo
    split at isInfo
    · exact (Option.some.inj isInfo).symm
    · cases isInfo
  have readable (item : PayloadItemsV) (isItem : item ∈ tx.extra ++ tx.attachment) :
      Readable c true item := by
    obtain sa | rest := item
    · exact ⟨restores sa isItem, nofun⟩
    · trivial
  refine ⟨?_, ?_, ?_, ?_⟩
  · intro notNull
    apply receives_of_derivation involutive together.derivationNotNull sameVersion isExtra'
      isAttachment' isResult
    · exact getEncryptionKeyDerivation_income (by rw [isPub, together.viewOfReceiver])
        isHash onlyThis
    · rw [isPub]
      exact opens_receiver together.spendOfReceiver ⟨notNull, together.pubNotNull⟩
    · exact nofun
    · exact readable
  · apply receives_of_derivation involutive together.derivationNotNull sameVersion isExtra'
      isAttachment' isResult
    · exact getEncryptionKeyDerivation_income (by rw [isPub]; exact together.viewOfReceiver)
        isHash onlyThis
    · exact opens_watchOnly c _ _ rfl
    · exact nofun
    · exact readable
  · intro notNull security something
    have readableSender (item : PayloadItemsV) (isItem : item ∈ tx.extra ++ tx.attachment) :
        Readable c false item := by
      obtain sa | rest := item
      · exact ⟨restores sa isItem, fun _ isolated => security sa isItem isolated⟩
      · trivial
    cases isFound : isAnyEncrypted tx || tx.cryptoInfo.isSome with
    | true =>
        rw [isFound, if_pos rfl] at info
        obtain ⟨decrypted, isDecrypted, receives⟩ :=
          receives_of_derivation involutive together.derivationNotNull
          sameVersion isExtra' isAttachment' isResult
          (getEncryptionKeyDerivation_outgoing involutive (by rw [sameVersion]; exact isChecksum)
            isPub notNull info)
          (opens_sender c _ senderKeys _) (fun _ => rfl) readableSender
        exact ⟨decrypted, derivation, isDecrypted, receives⟩
    | false =>
        obtain ⟨notEncrypted, noInfo⟩ := Bool.or_eq_false_iff.mp isFound
        rw [isFound] at info
        rw [notEncrypted, noInfo] at something
        obtain ⟨decrypted, isDecrypted, receives⟩ :=
          receives_unchanged made madeBehind isExtra' isAttachment'
          notEncrypted info ((something.resolve_left nofun).resolve_left nofun)
        exact ⟨decrypted, nullDerivation, isDecrypted, receives⟩
  · intro sinceHf6
    rw [isExtra', isAttachment']
    exact sameVectors_encryptItems sinceHf6 (fun _ => added_isChecksum) isResult

end

/-- A cipher that adds one byte of its key and vector without carry, a hash that sums up, and keys
that are their own public keys. -/
def smallCrypto : Crypto where
  chacha _ key iv data := data.map (· ^^^ (key.bytes.headD 0 + iv.toUInt8))
  length_chacha _ _ _ _ := List.length_map _
  keccak data := (Blob.filled 32 data.sum, data.length.toUInt64)
  cnFastHash data := Blob.filled 32 data.sum
  generateKeyDerivation key1 key2 :=
    some ⟨List.zipWith (· ^^^ ·) key1.bytes
      key2.bytes, by rw [List.length_zipWith, key1.length_eq, key2.length_eq]; rfl⟩
  pack body := some (120 :: body)
  unpack body := some body.tail

theorem smallCrypto_involutive : smallCrypto.Involutive := by
  intro rounds key iv data
  change (data.map _).map _ = data
  rw [List.map_map]
  exact (List.map_congr_left fun byte _ => by simp).trans (List.map_id data)

def smallKey : Keypair := ⟨Blob.filled 32 9, Blob.filled 32 9⟩

def smallReceiver : AccountKeys := ⟨Blob.filled 32 3, Blob.filled 32 5⟩

def smallDestination : AccountPublicAddress := ⟨Blob.filled 32 5, Blob.filled 32 3, 0⟩

def smallSender : AccountKeys := ⟨Blob.filled 32 16, Blob.filled 32 17⟩

/-- Its attachment is deflated, encrypted and isolated. -/
def smallTx : Transaction where
  version := 4
  extra := [publicKeyItem smallKey.pub, commentItem ⟨[104, 105]⟩]
  attachment := [serviceItem
    { serviceId := [115], instruction := [], body := [1, 2, 3], security := [], flags := 7 }]

theorem smallTx_readable :
    ∃ tx' chs decrypted decryptedBySender stored,
      encryptPayloadItems smallCrypto smallTx smallSender smallDestination smallKey nullDerivation =
        some (tx', Blob.filled 32 10) ∧
      decryptPayloadItems smallCrypto true tx' smallReceiver = some (decrypted, Blob.filled 32 10) ∧
      Receives true smallTx chs decrypted ∧
      decryptPayloadItems smallCrypto false tx' smallSender = some (decryptedBySender, stored) ∧
      Receives true smallTx chs decryptedBySender := by
  have together :
      Together smallCrypto smallTx smallReceiver smallDestination smallKey (Blob.filled 32 10) :=
    { inExtra := rfl
      pubNotNull := by decide
      derivationNotNull := by decide
      view := rfl
      viewOfReceiver := rfl
      spendOfReceiver := rfl
      isolates := fun _ _ _ => ⟨by decide, by decide, _, rfl⟩ }
  obtain ⟨chs, isChecksum⟩ : ∃ chs,
      checksumOf smallCrypto (Blob.filled 32 10) smallTx.version smallSender smallKey = some chs :=
    ⟨_, rfl⟩
  obtain ⟨tx', encrypted, byReceiver, _, bySender, _⟩ :=
    encryptPayloadItems_readable smallCrypto_involutive together
    isChecksum ⟨nofun, nofun⟩ (fun sa _ _ => ⟨_, rfl, rfl⟩) nullDerivation
  obtain ⟨decrypted, isDecrypted, receives⟩ := byReceiver (by decide)
  have security (sa : TxServiceAttachment)
      (isItem : serviceItem sa ∈ smallTx.extra ++ smallTx.attachment) :
      sa.security = [] := by
    rcases isItem with _ | ⟨_, _ | ⟨_, _ | ⟨_, ⟨⟩⟩⟩⟩
    rfl
  obtain ⟨decryptedBySender, stored, isDecryptedBySender, receivesBySender⟩ :=
    bySender (by decide) (fun sa isItem _ => security sa isItem) (.inl rfl)
  exact ⟨tx', chs, decrypted, decryptedBySender, stored, encrypted, isDecrypted, receives,
    isDecryptedBySender, receivesBySender⟩

/-- The same, but with the checksum of another secret in extra. -/
def checkedTx : Transaction :=
  { smallTx with extra := checksumItem ⟨nullDerivation, 0⟩ :: smallTx.extra }

/-- The keys belong together, but the recipient gets the comment as it was encrypted. -/
theorem checkedTx_unreadable :
    Together smallCrypto checkedTx smallReceiver smallDestination smallKey (Blob.filled 32 10) ∧
      ∃ tx' decrypted,
        encryptPayloadItems smallCrypto checkedTx smallSender smallDestination smallKey
          nullDerivation =
          some (tx', Blob.filled 32 10) ∧
        decryptPayloadItems smallCrypto true tx' smallReceiver = some (decrypted, nullDerivation) ∧
        ∀ chs, ¬Receives true checkedTx chs decrypted := by
  refine ⟨⟨rfl, by decide, by decide, rfl, rfl, rfl, fun _ _ _ => ⟨by decide, by decide, _, rfl⟩⟩,
    _, _, rfl, rfl, ?_⟩
  rintro chs ⟨read, readBehind, same, isRead, _⟩
  have everything : (checkedTx.extra.filter fun item => true || !isIsolated item) =
      [checksumItem ⟨nullDerivation, 0⟩, publicKeyItem smallKey.pub, commentItem ⟨[104, 105]⟩] :=
        rfl
  rw [everything] at isRead
  obtain _ | ⟨_, _ | ⟨_, _ | ⟨isComment, _⟩⟩⟩ := isRead
  cases isComment
  have third := congrArg (fun items => items[2]?) same
  simp only [List.getElem?_cons_succ, List.getElem?_cons_zero, List.cons_append] at third
  have sameComment := TxComment.mk.inj (Sum.inl.inj (Sum.inr.inj (Option.some.inj third)))
  revert sameComment
  decide +kernel

end Zano.PayloadEncryption
