import Mathlib
import Zano.Lib.Lockstep
import Zano.Serialization.Payload

/-! # Visitors of payload items

What a transaction carries besides its inputs and outputs is encrypted and decrypted item by item.
Since the sixth hardfork only comments and the bodies of service attachments are encrypted, each
under an initialization vector of its own, which both visitors count up at the same items. Before,
there was no vector, and the addresses of payers and receivers were encrypted as well.

An isolated body is under a key that takes the spend key of one of the ends. The sender cannot make
this key again, so it is kept, encrypted, behind what the attachment says about its security; but
the sender looks for it in front.
-/

namespace Zano.PayloadEncryption

open Serialization

def txServiceAttachmentEncryptBody : UInt8 := 1
def txServiceAttachmentDeflateBody : UInt8 := 2
def txServiceAttachmentEncryptBodyIsolateAuditable : UInt8 := 4
def txServiceAttachmentEncryptAddProof : UInt8 := 8

def nullSkey : SecretKey := nullPkey

def transactionVersionPostHf6 : ℕ := 4

/-! ## Items that are looked at -/

@[match_pattern] abbrev serviceItem (v : TxServiceAttachment) : PayloadItemsV := .inl v
@[match_pattern] abbrev commentItem (v : TxComment) : PayloadItemsV := .inr (.inl v)
@[match_pattern] abbrev payerOldItem (v : TxPayerOld) : PayloadItemsV := .inr (.inr (.inl v))
@[match_pattern] abbrev receiverOldItem (v : TxReceiverOld) : PayloadItemsV :=
  .inr (.inr (.inr (.inl v)))
@[match_pattern] abbrev checksumItem (v : TxCryptoChecksum) : PayloadItemsV :=
  .inr (.inr (.inr (.inr (.inr (.inr (.inl v))))))
@[match_pattern] abbrev publicKeyItem (v : PublicKey) : PayloadItemsV :=
  .inr (.inr (.inr (.inr (.inr (.inr (.inr (.inr (.inr (.inr (.inr (.inl v)))))))))))
@[match_pattern] abbrev payerItem (v : TxPayer) : PayloadItemsV :=
  .inr (.inr (.inr (.inr (.inr (.inr (.inr
    (.inr (.inr (.inr (.inr (.inr (.inr (.inr (.inr (.inr (.inr (.inr (.inl v))))))))))))))))))
@[match_pattern] abbrev receiverItem (v : TxReceiver) : PayloadItemsV :=
  .inr (.inr (.inr (.inr (.inr (.inr (.inr (.inr
    (.inr (.inr (.inr (.inr (.inr (.inr (.inr (.inr (.inr (.inr (.inr (.inl v)))))))))))))))))))

def asCryptoChecksum : PayloadItemsV → Option TxCryptoChecksum
  | checksumItem chs => some chs
  | _ => none

def asPublicKey : PayloadItemsV → Option PublicKey
  | publicKeyItem pk => some pk
  | _ => none

/-! ## Ciphers and hashes -/

/-- The text with the zero at its end. -/
def hdss (text : String) : Bytes := text.toUTF8.data.toList ++ [0]

def cryptoHdsChachaTxPayloadItems : Bytes := hdss "ZANO_HDS_CHACHA_TX_PAYLOAD_ITEM"
def cryptoHdsChachaTxPiIsolateAuditable : Bytes := hdss "ZANO_HDS_CHACHA_TX_PI_ISLT_AUDT"
def cryptoHdsChachaTxPayloadSenderDer : Bytes := hdss "ZANO_HDS_CHACHA_TX_PI_SENDR_DER"

/-- What is not looked into: the cipher for a number of rounds, the hashes, the shared secret of two
keys, and the two directions of zlib. -/
structure Crypto where
  chacha : ℕ → Hash → UInt64 → Bytes → Bytes
  length_chacha : ∀ rounds key iv data, (chacha rounds key iv data).length = data.length
  keccak : Bytes → Hash × UInt64
  cnFastHash : Bytes → Hash
  generateKeyDerivation : PublicKey → SecretKey → Option KeyDerivation
  pack : Bytes → Option Bytes
  unpack : Bytes → Option Bytes

/-- The cipher is its own inverse. -/
def Crypto.Involutive (c : Crypto) : Prop :=
  ∀ rounds key iv data, c.chacha rounds key iv (c.chacha rounds key iv data) = data

structure AccountKeys where
  viewSecretKey : SecretKey
  spendSecretKey : SecretKey

namespace Crypto

variable (c : Crypto)

/-- The index behind the data is 0. -/
def chachaGenerateKeyAndIv (hdss data : Bytes) : Hash × UInt64 :=
  c.keccak (hdss ++ (data ++ List.replicate 8 0))

/-- A value is encrypted in its place. -/
def chachaPod (rounds : ℕ) (key : Hash) (iv : UInt64) {size : ℕ} (pod : Blob size) : Blob size :=
  ⟨c.chacha rounds key iv pod.bytes, (c.length_chacha rounds key iv pod.bytes).trans pod.length_eq⟩

def chachaCryptLegacy (pass buff : Bytes) : Bytes := c.chacha 8 (c.cnFastHash pass) 0 buff

def chachaCryptLegacyPod (pass : Bytes) {size : ℕ} (pod : Blob size) : Blob size :=
  c.chachaPod 8 (c.cnFastHash pass) 0 pod

/-- What `pack` cannot do is left as it is. -/
def packBody (sa : TxServiceAttachment) : TxServiceAttachment :=
  if sa.flags &&& txServiceAttachmentDeflateBody ≠ 0 then
    { sa with body := (c.pack sa.body).getD sa.body } else sa

def unpackBody (sa : TxServiceAttachment) : TxServiceAttachment :=
  if sa.flags &&& txServiceAttachmentDeflateBody ≠ 0 then
    { sa with body := (c.unpack sa.body).getD sa.body } else sa

end Crypto

section

variable (c : Crypto) (derivation : KeyDerivation)

def payloadKey : Hash := (c.chachaGenerateKeyAndIv cryptoHdsChachaTxPayloadItems derivation.bytes).1

def payloadIv : UInt64 :=
  (c.chachaGenerateKeyAndIv cryptoHdsChachaTxPayloadItems derivation.bytes).2

def isolateKey (secret : Blob 32) : Hash :=
  (c.chachaGenerateKeyAndIv cryptoHdsChachaTxPiIsolateAuditable secret.bytes).1

/-! ## Since the sixth hardfork -/

/-- `encrypt_payload_items_visitor`. The state is the vector, and whether anything was encrypted;
there is no result if an exception is thrown. -/
def encryptPayloadItem (txSecKey : SecretKey) (destinationAddr : AccountPublicAddress)
    (senderAccountKeys : AccountKeys) (s : UInt64 × Bool) :
    PayloadItemsV → Option (PayloadItemsV × (UInt64 × Bool))
  | commentItem comment =>
      some (commentItem ⟨c.chacha 20 (payloadKey c derivation) s.1 comment.comment⟩,
        (s.1 + 1, true))
  | serviceItem sa =>
      let sa := c.packBody sa
      if sa.flags &&& txServiceAttachmentEncryptBody ≠ 0 then
        if sa.flags &&& txServiceAttachmentEncryptBodyIsolateAuditable ≠ 0 then
          if destinationAddr.spendPublicKey = nullPkey ∨ txSecKey = nullSkey then none
          else
            (c.generateKeyDerivation destinationAddr.spendPublicKey
                txSecKey).map fun derivationLocal =>
              (serviceItem { sa with
                  body := c.chacha 20 (isolateKey c derivationLocal) s.1 sa.body
                  -- The vector is the same once more, under another key.
                  security := sa.security ++
                    [c.chachaPod 20 (isolateKey c senderAccountKeys.spendSecretKey) s.1
                      derivationLocal] },
                (s.1 + 1, true))
        else
          some (serviceItem { sa with body := c.chacha 20 (payloadKey c derivation) s.1 sa.body },
            (s.1 + 1, true))
      else some (serviceItem sa, s)
  | item => some (item, s)

/-- The secret of an isolated body, unless it is invisible for this reader. -/
def isolatedDerivation (isIncome : Bool) (accKeys : AccountKeys) (txOnetimePubkey : PublicKey)
    (decryptStored : PublicKey → KeyDerivation) (security : List PublicKey) :
    Option (Option KeyDerivation) :=
  if !isIncome then some (security.head?.map decryptStored)
  else if accKeys.spendSecretKey = nullSkey then some none
  else if txOnetimePubkey = nullPkey then none
  else (c.generateKeyDerivation txOnetimePubkey accKeys.spendSecretKey).map some

/-- `decrypt_payload_items_visitor`, with what it puts to the decrypted items. -/
def decryptPayloadItem (isIncome : Bool) (accKeys : AccountKeys) (txOnetimePubkey : PublicKey)
    (iv : UInt64) :
    PayloadItemsV → Option (List PayloadItemsV × UInt64)
  | commentItem comment =>
      some ([commentItem ⟨c.chacha 20 (payloadKey c derivation) iv comment.comment⟩], iv + 1)
  | serviceItem sa =>
      if sa.flags &&& txServiceAttachmentEncryptBody ≠ 0 then
        if sa.flags &&& txServiceAttachmentEncryptBodyIsolateAuditable ≠ 0 then
          (isolatedDerivation c isIncome accKeys txOnetimePubkey
            (c.chachaPod 20 (isolateKey c accKeys.spendSecretKey) iv)
            sa.security).map fun visible =>
              (visible.toList.map fun derivationLocal =>
                serviceItem (c.unpackBody
                  { sa with body := c.chacha 20 (isolateKey c derivationLocal) iv sa.body }),
                iv + 1)
        else
          some ([serviceItem (c.unpackBody
            { sa with body := c.chacha 20 (payloadKey c derivation) iv sa.body })], iv + 1)
      else some ([serviceItem (c.unpackBody sa)], iv)
  | item => some ([item], iv)

/-! ## Before -/

def AccountPublicAddressOld.toPod (addr : AccountPublicAddressOld) : Blob 64 :=
  ⟨addr.spendPublicKey.bytes ++ addr.viewPublicKey.bytes, by
    rw [List.length_append, addr.spendPublicKey.length_eq, addr.viewPublicKey.length_eq]⟩

def AccountPublicAddressOld.ofPod (pod : Blob 64) : AccountPublicAddressOld :=
  ⟨⟨pod.bytes.take 32, by rw [List.length_take, pod.length_eq]; rfl⟩,
    ⟨pod.bytes.drop 32, by rw [List.length_drop, pod.length_eq]⟩⟩

def AccountPublicAddress.toPod (addr : AccountPublicAddress) : Blob 65 :=
  ⟨addr.spendPublicKey.bytes ++ (addr.viewPublicKey.bytes ++ [addr.flags]), by
    rw [List.length_append, List.length_append, addr.spendPublicKey.length_eq,
      addr.viewPublicKey.length_eq]
    rfl⟩

def AccountPublicAddress.ofPod (pod : Blob 65) : AccountPublicAddress :=
  ⟨⟨pod.bytes.take 32, by rw [List.length_take, pod.length_eq]; rfl⟩,
    ⟨(pod.bytes.drop 32).take 32, by rw [List.length_take, List.length_drop, pod.length_eq]; rfl⟩,
    (pod.bytes.drop 64).headD 0⟩

/-- An address is encrypted in its place. -/
def cryptAddressOld (addr : AccountPublicAddressOld) : AccountPublicAddressOld :=
  AccountPublicAddressOld.ofPod
    (c.chachaCryptLegacyPod derivation.bytes (AccountPublicAddressOld.toPod addr))

def cryptAddress (addr : AccountPublicAddress) : AccountPublicAddress :=
  AccountPublicAddress.ofPod
    (c.chachaCryptLegacyPod derivation.bytes (AccountPublicAddress.toPod addr))

def proofHash (body : Bytes) (derivationLocal : KeyDerivation) : Hash :=
  c.cnFastHash (body ++ (c.cnFastHash derivationLocal.bytes).bytes)

/-- A body and the secret that it is encrypted under. -/
def encryptBodyLegacy (onetimeSec : SecretKey) (destinationAddr : AccountPublicAddress)
    (senderAccountKeys : AccountKeys) (sa : TxServiceAttachment) :
    Option (TxServiceAttachment × KeyDerivation) :=
  if sa.flags &&& txServiceAttachmentEncryptBodyIsolateAuditable ≠ 0 then
    if destinationAddr.spendPublicKey = nullPkey ∨ onetimeSec = nullSkey then none
    else
      (c.generateKeyDerivation destinationAddr.spendPublicKey onetimeSec).map fun derivationLocal =>
        ({ sa with
            body := c.chachaCryptLegacy derivationLocal.bytes sa.body
            security := sa.security ++
              [c.chachaCryptLegacyPod senderAccountKeys.spendSecretKey.bytes derivationLocal] },
          derivationLocal)
  else some ({ sa with body := c.chachaCryptLegacy derivation.bytes sa.body }, derivation)

/-- `encrypt_attach_visitor_legacy`. The state is whether anything was encrypted. -/
def encryptAttachLegacy (onetimeSec : SecretKey) (destinationAddr : AccountPublicAddress)
    (senderAccountKeys : AccountKeys) (wasCryptedEntries : Bool) :
    PayloadItemsV → Option (PayloadItemsV × Bool)
  | commentItem comment =>
      some (commentItem ⟨c.chachaCryptLegacy derivation.bytes comment.comment⟩, true)
  | payerOldItem payer => some (payerOldItem ⟨cryptAddressOld c derivation payer.accAddr⟩, true)
  | receiverOldItem receiver =>
      some (receiverOldItem ⟨cryptAddressOld c derivation receiver.accAddr⟩, true)
  | payerItem payer => some (payerItem ⟨cryptAddress c derivation payer.accAddr⟩, true)
  | receiverItem receiver => some (receiverItem ⟨cryptAddress c derivation receiver.accAddr⟩, true)
  | serviceItem sa =>
      let originalBody := sa.body
      let sa := c.packBody sa
      if sa.flags &&& txServiceAttachmentEncryptBody ≠ 0 then
        (encryptBodyLegacy c derivation onetimeSec destinationAddr
            senderAccountKeys sa).map fun (sa, derivationLocal) =>
          (serviceItem (if sa.flags &&& txServiceAttachmentEncryptAddProof ≠ 0 then
              { sa with security := sa.security ++ [proofHash c originalBody derivationLocal] }
            else sa), true)
      else some (serviceItem sa, wasCryptedEntries)
  | item => some (item, wasCryptedEntries)

/-- What is put to the decrypted items once the secret is known: nothing, if there should be a
proof and is none. -/
def decryptBodyLegacy (sa : TxServiceAttachment)
    (derivationLocal : KeyDerivation) : List PayloadItemsV :=
  let localSa := c.unpackBody { sa with body := c.chachaCryptLegacy derivationLocal.bytes sa.body }
  if sa.flags &&& txServiceAttachmentEncryptAddProof ≠ 0 ∧
      sa.security.getLast? ≠ some (proofHash c localSa.body derivationLocal) then []
  else [serviceItem localSa]

/-- `decrypt_attach_visitor_legacy`. -/
def decryptAttachLegacy (isIncome : Bool) (accKeys : AccountKeys) (txOnetimePubkey : PublicKey)
    (s : Unit) :
    PayloadItemsV → Option (List PayloadItemsV × Unit)
  | commentItem comment =>
      some ([commentItem ⟨c.chachaCryptLegacy derivation.bytes comment.comment⟩], s)
  | payerOldItem payer => some ([payerOldItem ⟨cryptAddressOld c derivation payer.accAddr⟩], s)
  | receiverOldItem receiver =>
      some ([receiverOldItem ⟨cryptAddressOld c derivation receiver.accAddr⟩], s)
  | payerItem payer => some ([payerItem ⟨cryptAddress c derivation payer.accAddr⟩], s)
  | receiverItem receiver => some ([receiverItem ⟨cryptAddress c derivation receiver.accAddr⟩], s)
  | serviceItem sa =>
      if sa.flags &&& txServiceAttachmentEncryptBody ≠ 0 then
        if sa.flags &&& txServiceAttachmentEncryptBodyIsolateAuditable ≠ 0 then
          (isolatedDerivation c isIncome accKeys txOnetimePubkey
            (c.chachaCryptLegacyPod accKeys.spendSecretKey.bytes) sa.security).map fun visible =>
              (visible.toList.flatMap (decryptBodyLegacy c sa), s)
        else some (decryptBodyLegacy c sa derivation, s)
      else some ([serviceItem (c.unpackBody sa)], s)
  | item => some ([item], s)

end

/-! ## Ciphers undo themselves -/

namespace Crypto

variable {c : Crypto}

theorem Involutive.chachaPod (involutive : c.Involutive) (rounds : ℕ) (key : Hash) (iv : UInt64)
    {size : ℕ} (pod : Blob size) :
    c.chachaPod rounds key iv (c.chachaPod rounds key iv pod) = pod :=
  Blob.ext (involutive rounds key iv pod.bytes)

theorem Involutive.chachaCryptLegacy (involutive : c.Involutive) (pass buff : Bytes) :
    c.chachaCryptLegacy pass (c.chachaCryptLegacy pass buff) = buff :=
  involutive 8 _ 0 buff

theorem Involutive.chachaCryptLegacyPod (involutive : c.Involutive) (pass : Bytes) {size : ℕ}
    (pod : Blob size) :
    c.chachaCryptLegacyPod pass (c.chachaCryptLegacyPod pass pod) = pod :=
  involutive.chachaPod 8 _ 0 pod

/-- The body comes back from zlib, if it goes there. -/
def Restores (c : Crypto) (sa : TxServiceAttachment) : Prop :=
  sa.flags &&& txServiceAttachmentDeflateBody ≠ 0 →
    ∃ packed, c.pack sa.body = some packed ∧ c.unpack packed = some sa.body

@[simp]
theorem packBody_serviceId (c : Crypto) (sa : TxServiceAttachment) :
    (c.packBody sa).serviceId = sa.serviceId := by
  rw [packBody]
  split <;> rfl

@[simp]
theorem packBody_instruction (c : Crypto) (sa : TxServiceAttachment) :
    (c.packBody sa).instruction = sa.instruction := by
  rw [packBody]
  split <;> rfl

@[simp]
theorem packBody_flags (c : Crypto) (sa : TxServiceAttachment) :
    (c.packBody sa).flags = sa.flags := by
  rw [packBody]
  split <;> rfl

@[simp]
theorem packBody_security (c : Crypto) (sa : TxServiceAttachment) :
    (c.packBody sa).security = sa.security := by
  rw [packBody]
  split <;> rfl

theorem Restores.unpackBody {sa : TxServiceAttachment} (restores : c.Restores sa)
    (security : List PublicKey) :
    c.unpackBody { sa with body := (c.packBody sa).body, security } = { sa with security } := by
  by_cases isDeflated : sa.flags &&& txServiceAttachmentDeflateBody ≠ 0
  · obtain ⟨packed, isPacked, isUnpacked⟩ := restores isDeflated
    simp [packBody, Crypto.unpackBody, isDeflated, isPacked, isUnpacked]
  · simp [packBody, Crypto.unpackBody, isDeflated]

theorem Restores.unpackBody_packBody {sa : TxServiceAttachment} (restores : c.Restores sa) :
    c.unpackBody (c.packBody sa) = sa := by
  have same : c.packBody sa = { sa with body := (c.packBody sa).body } := by
    rw [packBody]
    split <;> rfl
  rw [same]
  exact restores.unpackBody sa.security

end Crypto

theorem ofPod_toPodOld (addr : AccountPublicAddressOld) :
    AccountPublicAddressOld.ofPod (AccountPublicAddressOld.toPod addr) = addr := by
  obtain ⟨spend, view⟩ := addr
  simp only [AccountPublicAddressOld.ofPod, AccountPublicAddressOld.toPod]
  congr 1
  · exact Blob.ext (List.take_left' spend.length_eq)
  · exact Blob.ext (List.drop_left' spend.length_eq)

theorem toPod_ofPodOld (pod : Blob 64) :
    AccountPublicAddressOld.toPod (AccountPublicAddressOld.ofPod pod) = pod :=
  Blob.ext (List.take_append_drop 32 pod.bytes)

theorem ofPod_toPod (addr : AccountPublicAddress) :
    AccountPublicAddress.ofPod (AccountPublicAddress.toPod addr) = addr := by
  obtain ⟨spend, view, flags⟩ := addr
  have behindSpend : (spend.bytes ++ (view.bytes ++ [flags])).drop 32 = view.bytes ++ [flags] :=
    List.drop_left' spend.length_eq
  have behindView : (spend.bytes ++ (view.bytes ++ [flags])).drop 64 = [flags] := by
    have twice : (spend.bytes ++ (view.bytes ++ [flags])).drop 64 =
        ((spend.bytes ++ (view.bytes ++ [flags])).drop 32).drop 32 := by rw [List.drop_drop]
    rw [twice, behindSpend]
    exact List.drop_left' view.length_eq
  simp only [AccountPublicAddress.ofPod, AccountPublicAddress.toPod, behindSpend, behindView]
  congr 1
  · exact Blob.ext (List.take_left' spend.length_eq)
  · exact Blob.ext (List.take_left' view.length_eq)

theorem toPod_ofPod (pod : Blob 65) :
    AccountPublicAddress.toPod (AccountPublicAddress.ofPod pod) = pod := by
  have last : pod.bytes.drop 64 = [(pod.bytes.drop 64).headD 0] := by
    have length : (pod.bytes.drop 64).length = 1 := by rw [List.length_drop, pod.length_eq]
    obtain ⟨flags, isLast⟩ := List.length_eq_one_iff.mp length
    rw [isLast]
    rfl
  apply Blob.ext
  change pod.bytes.take 32 ++
    ((pod.bytes.drop 32).take 32 ++ [(pod.bytes.drop 64).headD 0]) = pod.bytes
  have twice : pod.bytes.drop 64 = (pod.bytes.drop 32).drop 32 := by rw [List.drop_drop]
  rw [← last, twice, List.take_append_drop, List.take_append_drop]

section

variable {c : Crypto} (involutive : c.Involutive) (derivation : KeyDerivation)

include involutive

theorem cryptAddressOld_cryptAddressOld (addr : AccountPublicAddressOld) :
    cryptAddressOld c derivation (cryptAddressOld c derivation addr) = addr := by
  rw [cryptAddressOld, cryptAddressOld, toPod_ofPodOld, involutive.chachaCryptLegacyPod,
    ofPod_toPodOld]

theorem cryptAddress_cryptAddress (addr : AccountPublicAddress) :
    cryptAddress c derivation (cryptAddress c derivation addr) = addr := by
  rw [cryptAddress, cryptAddress, toPod_ofPod, involutive.chachaCryptLegacyPod, ofPod_toPod]

end

/-! ## What is read of an item -/

/-- The same item, but more may be said about the security of a service attachment. -/
def SameContent : PayloadItemsV → PayloadItemsV → Prop
  | serviceItem sa, other =>
      ∃ added, other = serviceItem { sa with security := sa.security ++ added }
  | item, other => other = item

theorem SameContent.refl (item : PayloadItemsV) : SameContent item item := by
  obtain sa | rest := item
  · exact ⟨[], by rw [List.append_nil]⟩
  · rfl

def isIsolated : PayloadItemsV → Bool
  | serviceItem sa =>
      sa.flags &&& txServiceAttachmentEncryptBody ≠
        0 && sa.flags &&& txServiceAttachmentEncryptBodyIsolateAuditable ≠ 0
  | _ => false

/-- What is encrypted depends on the version of the transaction for payers and receivers. -/
def isEncrypted (version : ℕ) : PayloadItemsV → Bool
  | commentItem _ => true
  | serviceItem sa => sa.flags &&& txServiceAttachmentEncryptBody ≠ 0
  | payerOldItem _ | receiverOldItem _ | payerItem _ | receiverItem _ =>
      version < transactionVersionPostHf6
  | _ => false

def isDeflated : PayloadItemsV → Bool
  | serviceItem sa => sa.flags &&& txServiceAttachmentDeflateBody ≠ 0
  | _ => false

/-- What is looked for in a container, and whether a visitor decrypts it, is the
same for both items. -/
structure SameKind (version : ℕ) (item other : PayloadItemsV) : Prop where
  checksum : asCryptoChecksum other = asCryptoChecksum item
  publicKey : asPublicKey other = asPublicKey item
  encrypted : isEncrypted version other = isEncrypted version item
  unchanged : isEncrypted version item = false → isDeflated item = false → other = item

theorem SameKind.refl (version : ℕ) (item : PayloadItemsV) : SameKind version item item :=
  ⟨rfl, rfl, rfl, fun _ _ => rfl⟩

theorem SameKind.packBody (c : Crypto) (version : ℕ) (sa : TxServiceAttachment) :
    SameKind version (serviceItem sa) (serviceItem (c.packBody sa)) := by
  refine ⟨rfl, rfl, by simp [isEncrypted], fun _ notDeflated => ?_⟩
  rw [Crypto.packBody, if_neg (by simpa [isDeflated] using notDeflated)]

/-- An isolated item is left out for a reader to whom such items are invisible. -/
def Reads (visible : Bool) (item : PayloadItemsV) (decrypted : List PayloadItemsV) : Prop :=
  if isIsolated item && !visible then decrypted = []
  else ∃ other, decrypted = [other] ∧ SameContent item other

/-- A deflated body comes back, and the sender finds the stored secret in front. -/
def Readable (c : Crypto) (isIncome : Bool) : PayloadItemsV → Prop
  | serviceItem sa =>
      c.Restores sa ∧ (isIncome = false → isIsolated (serviceItem sa) = true → sa.security = [])
  | _ => True

/-- A reader gets the secret of isolated bodies, or these are invisible. -/
def Opens (c : Crypto) (secret : Option KeyDerivation) (isIncome : Bool) (accKeys : AccountKeys)
    (txOnetimePubkey : PublicKey) (visible : Bool) : Prop :=
  ∀ security decryptStored stored derivationLocal added, secret = some derivationLocal →
    (isIncome = false → security = [] ∧ decryptStored stored = derivationLocal) →
      isolatedDerivation c isIncome accKeys txOnetimePubkey decryptStored
        (security ++ stored :: added) =
        some (if visible then some derivationLocal else none)

theorem opens_receiver {c : Crypto} {secret : Option KeyDerivation} {accKeys : AccountKeys}
    {txOnetimePubkey : PublicKey}
    (shared : c.generateKeyDerivation txOnetimePubkey accKeys.spendSecretKey = secret)
    (notNull : accKeys.spendSecretKey ≠ nullSkey ∧ txOnetimePubkey ≠ nullPkey) :
    Opens c secret true accKeys txOnetimePubkey true := by
  intro security decryptStored stored derivationLocal added isSecret _
  simp [isolatedDerivation, notNull, shared, isSecret]

theorem opens_watchOnly (c : Crypto) (secret : Option KeyDerivation) {accKeys : AccountKeys}
    (txOnetimePubkey : PublicKey) (isNull : accKeys.spendSecretKey = nullSkey) :
    Opens c secret true accKeys txOnetimePubkey false := by
  intro security decryptStored stored derivationLocal added _ _
  simp [isolatedDerivation, isNull]

theorem opens_sender (c : Crypto) (secret : Option KeyDerivation) (accKeys : AccountKeys)
    (txOnetimePubkey : PublicKey) :
    Opens c secret false accKeys txOnetimePubkey true := by
  intro security decryptStored stored derivationLocal added _ isStored
  obtain ⟨rfl, isStored⟩ := isStored rfl
  simp [isolatedDerivation, isStored]

/-! ## One item -/

section

variable {c : Crypto} {derivation : KeyDerivation} {txSecKey : SecretKey}
  {destinationAddr : AccountPublicAddress} {senderAccountKeys accKeys : AccountKeys}
  {txOnetimePubkey : PublicKey} {isIncome visible : Bool}

/-- The secret of an isolated body is shared with the owner of the spend key. -/
def Isolates (c : Crypto) (txSecKey : SecretKey) (destinationAddr : AccountPublicAddress) : Prop :=
  destinationAddr.spendPublicKey ≠ nullPkey ∧ txSecKey ≠ nullSkey ∧
    ∃ derivationLocal, c.generateKeyDerivation destinationAddr.spendPublicKey txSecKey =
      some derivationLocal

theorem encryptPayloadItem_ends (s : UInt64 × Bool) (item : PayloadItemsV)
    (isolates : isIsolated item = true → Isolates c txSecKey destinationAddr) :
    ∃ b next, encryptPayloadItem c derivation txSecKey destinationAddr senderAccountKeys s item =
      some (b, next) := by
  obtain sa | comment | rest := item
  · simp only [encryptPayloadItem, Crypto.packBody_flags]
    split_ifs with isBody isIsolate isNull
    · obtain ⟨notNullSpend, notNullSec, _⟩ := isolates (by simp [isIsolated, isBody, isIsolate])
      exact (isNull.elim notNullSpend notNullSec).elim
    · obtain ⟨_, _, derivationLocal, isSecret⟩ := isolates (by simp [isIsolated, isBody, isIsolate])
      rw [isSecret]
      exact ⟨_, _, rfl⟩
    · exact ⟨_, _, rfl⟩
    · exact ⟨_, _, rfl⟩
  · exact ⟨_, _, rfl⟩
  · exact ⟨_, _, rfl⟩

/-- The vector is counted up at what is encrypted. -/
theorem encryptPayloadItem_state {version : ℕ} (sinceHf6 : transactionVersionPostHf6 ≤ version)
    (s : UInt64 × Bool) (item b : PayloadItemsV) (next : UInt64 × Bool)
    (encrypted : encryptPayloadItem c derivation txSecKey destinationAddr senderAccountKeys s item =
      some (b, next)) :
    next = (if isEncrypted version item then s.1 + 1 else s.1, s.2 || isEncrypted version item) ∧
      SameKind version item b := by
  unfold encryptPayloadItem at encrypted
  split at encrypted
  case h_1 comment =>
      cases encrypted
      exact ⟨by simp [isEncrypted], rfl, rfl, rfl, nofun⟩
  case h_2 sa =>
      simp only [Crypto.packBody_flags] at encrypted
      split_ifs at encrypted with isBody isIsolate isNull
      · obtain ⟨derivationLocal, _, same⟩ := Option.map_eq_some_iff.mp encrypted
        cases same
        exact ⟨by simp [isEncrypted, isBody], rfl, rfl, rfl, by simp [isEncrypted, isBody]⟩
      · cases encrypted
        exact ⟨by simp [isEncrypted, isBody], rfl, rfl, rfl, by simp [isEncrypted, isBody]⟩
      · cases encrypted
        exact ⟨by simp [isEncrypted, isBody], .packBody c version sa⟩
  case h_3 notComment notService =>
      cases encrypted
      refine ⟨?_, .refl version item⟩
      unfold isEncrypted
      split <;> simp_all [Nat.not_lt.mpr sinceHf6]

/-- Both visitors count up at the same items, and what was encrypted is read. -/
theorem decryptPayloadItem_encryptPayloadItem (involutive : c.Involutive)
    (opens : Opens c (c.generateKeyDerivation destinationAddr.spendPublicKey txSecKey) isIncome
      accKeys txOnetimePubkey
      visible)
    (isSender : isIncome = false → accKeys.spendSecretKey = senderAccountKeys.spendSecretKey)
    {s next : UInt64 × Bool} {item b : PayloadItemsV} (readable : Readable c isIncome item)
    (encrypted : encryptPayloadItem c derivation txSecKey destinationAddr senderAccountKeys s item =
      some (b, next)) :
    ∃ decrypted, decryptPayloadItem c derivation isIncome accKeys txOnetimePubkey s.1 b =
      some (decrypted, next.1) ∧
      Reads visible item decrypted := by
  have undo (key : Hash) (iv : UInt64) (data : Bytes) :
      c.chacha 20 key iv (c.chacha 20 key iv data) = data :=
    involutive 20 key iv data
  obtain sa | comment | rest := item
  · obtain ⟨restores, security⟩ := readable
    simp only [encryptPayloadItem, Crypto.packBody_flags] at encrypted
    split_ifs at encrypted with isEncrypted isIsolate isNull
    · obtain ⟨derivationLocal, isSecret, same⟩ := Option.map_eq_some_iff.mp encrypted
      cases same
      have isolated : isIsolated (serviceItem sa) = true := by
        simp [isIsolated, isEncrypted, isIsolate]
      have opened := opens sa.security (c.chachaPod 20 (isolateKey c accKeys.spendSecretKey) s.1)
        (c.chachaPod 20 (isolateKey c senderAccountKeys.spendSecretKey) s.1 derivationLocal)
          derivationLocal [] isSecret
        fun outgoing =>
          ⟨security outgoing isolated, by rw [isSender outgoing, involutive.chachaPod]⟩
      refine ⟨_, by simp [decryptPayloadItem, isEncrypted, isIsolate, opened]; rfl, ?_⟩
      cases visible with
      | false => simp [Reads, isolated]
      | true => simp [Reads, SameContent, undo, restores.unpackBody]
    · cases encrypted
      refine ⟨_, by simp [decryptPayloadItem, isEncrypted, isIsolate]; rfl, ?_⟩
      simp [Reads, isIsolated, isIsolate, SameContent, undo, restores.unpackBody]
    · cases encrypted
      refine ⟨_, by simp [decryptPayloadItem, isEncrypted]; rfl, ?_⟩
      simp [Reads, isIsolated, isEncrypted, restores.unpackBody_packBody, SameContent.refl]
  · cases encrypted
    refine ⟨_, rfl, ?_⟩
    simp [Reads, isIsolated, SameContent, undo]
  · cases encrypted
    refine ⟨[.inr (.inr rest)], rfl, ?_⟩
    simp [Reads, isIsolated, SameContent]

/-- Whoever reads, and with whatever keys, counts up at the same items. -/
theorem decryptPayloadItem_state {version : ℕ} (sinceHf6 : transactionVersionPostHf6 ≤ version)
    (iv : UInt64) (item : PayloadItemsV) (decrypted : List PayloadItemsV) (next : UInt64)
    (isDecrypted : decryptPayloadItem c derivation isIncome accKeys txOnetimePubkey iv item =
      some (decrypted, next)) :
    next = if isEncrypted version item then iv + 1 else iv := by
  unfold decryptPayloadItem at isDecrypted
  split at isDecrypted
  case h_1 comment =>
      cases isDecrypted
      simp [isEncrypted]
  case h_2 sa =>
      split_ifs at isDecrypted with isBody isIsolate
      · obtain ⟨visible, _, same⟩ := Option.map_eq_some_iff.mp isDecrypted
        cases same
        simp [isEncrypted, isBody]
      · cases isDecrypted
        simp [isEncrypted, isBody]
      · cases isDecrypted
        simp [isEncrypted, isBody]
  case h_3 notComment notService =>
      cases isDecrypted
      unfold isEncrypted
      split <;> simp_all [Nat.not_lt.mpr sinceHf6]

theorem encryptAttachLegacy_ends (s : Bool) (item : PayloadItemsV)
    (isolates : isIsolated item = true → Isolates c txSecKey destinationAddr) :
    ∃ b next, encryptAttachLegacy c derivation txSecKey destinationAddr senderAccountKeys s item =
      some (b, next) := by
  unfold encryptAttachLegacy
  split
  case h_6 sa =>
      simp only [encryptBodyLegacy, Crypto.packBody_flags]
      split_ifs with isBody isIsolate isNull
      · obtain ⟨notNullSpend, notNullSec, _⟩ := isolates (by simp [isIsolated, isBody, isIsolate])
        exact (isNull.elim notNullSpend notNullSec).elim
      · obtain ⟨_, _, derivationLocal, isSecret⟩ :=
          isolates (by simp [isIsolated, isBody, isIsolate])
        rw [isSecret]
        exact ⟨_, _, rfl⟩
      · exact ⟨_, _, rfl⟩
      · exact ⟨_, _, rfl⟩
  all_goals exact ⟨_, _, rfl⟩

theorem encryptAttachLegacy_state {version : ℕ} (beforeHf6 : version < transactionVersionPostHf6)
    (s : Bool) (item b : PayloadItemsV) (next : Bool) (encrypted : encryptAttachLegacy c derivation
      txSecKey destinationAddr senderAccountKeys s item = some (b, next)) :
    next = (s || isEncrypted version item) ∧ SameKind version item b := by
  unfold encryptAttachLegacy at encrypted
  split at encrypted
  case h_6 sa =>
      simp only [Crypto.packBody_flags] at encrypted
      split_ifs at encrypted with isBody
      · obtain ⟨⟨sa', derivationLocal⟩, isBodyOf, same⟩ := Option.map_eq_some_iff.mp encrypted
        cases same
        have sameFlags : sa'.flags = sa.flags := by
          simp only [encryptBodyLegacy, Crypto.packBody_flags] at isBodyOf
          split_ifs at isBodyOf
          · obtain ⟨_, _, same⟩ := Option.map_eq_some_iff.mp isBodyOf
            cases same
            rfl
          · cases isBodyOf
            rfl
        refine ⟨by simp [isEncrypted, isBody], rfl, rfl, ?_, by simp [isEncrypted, isBody]⟩
        simp only [isEncrypted]
        split <;> simp [sameFlags]
      · cases encrypted
        exact ⟨by simp [isEncrypted, isBody], .packBody c version sa⟩
  case h_7 =>
      cases encrypted
      refine ⟨?_, .refl version item⟩
      unfold isEncrypted
      split <;> simp_all
  all_goals
    cases encrypted
    exact ⟨by simp [isEncrypted, beforeHf6], rfl, rfl, rfl, by simp [isEncrypted, beforeHf6]⟩

/-- The proof that is put behind a body, if there should be one. -/
def proofOf (c : Crypto) (sa : TxServiceAttachment)
    (derivationLocal : KeyDerivation) : List PublicKey :=
  if sa.flags &&& txServiceAttachmentEncryptAddProof ≠ 0 then
    [proofHash c sa.body derivationLocal] else []

/-- A body with its proof, if there should be one, is put to the decrypted items. -/
theorem decryptBodyLegacy_eq (involutive : c.Involutive) {sa : TxServiceAttachment}
    (restores : c.Restores sa) (derivationLocal : KeyDerivation) (security : List PublicKey) :
    decryptBodyLegacy c
        { sa with
          body := c.chachaCryptLegacy derivationLocal.bytes (c.packBody sa).body
          security := security ++ proofOf c sa derivationLocal } derivationLocal =
      [serviceItem { sa with security := security ++ proofOf c sa derivationLocal }] := by
  rw [decryptBodyLegacy]
  simp only [involutive.chachaCryptLegacy, restores.unpackBody]
  rw [if_neg]
  rintro ⟨isProof, noProof⟩
  rw [proofOf, if_pos isProof, List.getLast?_concat] at noProof
  exact noProof rfl

/-- What an encrypted body and its security come to. -/
theorem withProof (sa : TxServiceAttachment) (derivationLocal : KeyDerivation) (body : Bytes)
    (security : List PublicKey) :
    (if sa.flags &&& txServiceAttachmentEncryptAddProof ≠ 0 then
      { sa with body, security := security ++ [proofHash c sa.body derivationLocal] }
    else { sa with body, security }) =
      { sa with body, security := security ++ proofOf c sa derivationLocal } := by
  rw [proofOf]
  split
  · rfl
  · rw [List.append_nil]

theorem decryptAttachLegacy_service (involutive : c.Involutive)
    (opens : Opens c (c.generateKeyDerivation destinationAddr.spendPublicKey txSecKey) isIncome
      accKeys txOnetimePubkey
      visible)
    (isSender : isIncome = false → accKeys.spendSecretKey = senderAccountKeys.spendSecretKey)
    {s next : Bool} {sa : TxServiceAttachment} {b : PayloadItemsV}
    (readable : Readable c isIncome (serviceItem sa)) (encrypted : encryptAttachLegacy c derivation
      txSecKey destinationAddr senderAccountKeys s (serviceItem sa) =
      some (b, next)) :
    ∃ decrypted, decryptAttachLegacy c derivation isIncome accKeys txOnetimePubkey () b =
      some (decrypted, ()) ∧
      Reads visible (serviceItem sa) decrypted := by
  obtain ⟨restores, security⟩ := readable
  simp only [encryptAttachLegacy, Crypto.packBody_flags] at encrypted
  split_ifs at encrypted with isEncrypted
  · obtain ⟨⟨sa', derivationLocal⟩, isBody, same⟩ := Option.map_eq_some_iff.mp encrypted
    cases same
    simp only [encryptBodyLegacy, Crypto.packBody_flags] at isBody
    split_ifs at isBody with isIsolate isNull
    · obtain ⟨_, isSecret, same⟩ := Option.map_eq_some_iff.mp isBody
      cases same
      have isolated : isIsolated (serviceItem sa) = true := by
        simp [isIsolated, isEncrypted, isIsolate]
      have opened := opens sa.security (c.chachaCryptLegacyPod accKeys.spendSecretKey.bytes)
        (c.chachaCryptLegacyPod senderAccountKeys.spendSecretKey.bytes derivationLocal)
          derivationLocal
        (proofOf c sa derivationLocal) isSecret
        fun outgoing =>
          ⟨security outgoing isolated, by rw [isSender outgoing, involutive.chachaCryptLegacyPod]⟩
      have body := decryptBodyLegacy_eq involutive restores derivationLocal
        (sa.security ++
          [c.chachaCryptLegacyPod senderAccountKeys.spendSecretKey.bytes derivationLocal])
      rw [List.append_cons] at opened
      have isB := withProof (c := c) sa derivationLocal
        (c.chachaCryptLegacy derivationLocal.bytes (c.packBody sa).body)
        (sa.security ++
          [c.chachaCryptLegacyPod senderAccountKeys.spendSecretKey.bytes derivationLocal])
      simp only [Crypto.packBody_serviceId, Crypto.packBody_instruction, Crypto.packBody_security]
      rw [isB]
      refine ⟨_,
        by simp only [decryptAttachLegacy, if_pos isEncrypted, if_pos isIsolate, opened]; rfl, ?_⟩
      cases visible with
      | false => simp [Reads, isolated]
      | true =>
          simp only [if_true, Option.toList_some, List.flatMap_singleton, body, Reads, isolated]
          exact ⟨_, rfl, _, by rw [List.append_assoc]⟩
    · cases isBody
      have body := decryptBodyLegacy_eq involutive restores derivation sa.security
      have isB := withProof (c := c) sa derivation
        (c.chachaCryptLegacy derivation.bytes (c.packBody sa).body) sa.security
      simp only [Crypto.packBody_serviceId, Crypto.packBody_instruction, Crypto.packBody_security]
      rw [isB]
      refine ⟨_,
        by simp only [decryptAttachLegacy, if_pos isEncrypted, if_neg isIsolate, body]; rfl, ?_⟩
      have notIsolated : isIsolated (serviceItem sa) = false := by simp [isIsolated, isIsolate]
      simp only [Reads, notIsolated, Bool.false_and, Bool.false_eq_true, if_false]
      exact ⟨_, rfl, _, rfl⟩
  · cases encrypted
    refine ⟨_, by simp [decryptAttachLegacy, isEncrypted]; rfl, ?_⟩
    simp [Reads, isIsolated, isEncrypted, restores.unpackBody_packBody, SameContent.refl]

theorem decryptAttachLegacy_encryptAttachLegacy (involutive : c.Involutive)
    (opens : Opens c (c.generateKeyDerivation destinationAddr.spendPublicKey txSecKey) isIncome
      accKeys txOnetimePubkey
      visible)
    (isSender : isIncome = false → accKeys.spendSecretKey = senderAccountKeys.spendSecretKey)
    {s next : Bool} {item b : PayloadItemsV} (readable : Readable c isIncome item)
    (encrypted : encryptAttachLegacy c derivation txSecKey destinationAddr senderAccountKeys s
      item = some (b, next)) :
    ∃ decrypted, decryptAttachLegacy c derivation isIncome accKeys txOnetimePubkey () b =
      some (decrypted, ()) ∧
      Reads visible item decrypted := by
  have undo (pass buff : Bytes) : c.chachaCryptLegacy pass (c.chachaCryptLegacy pass buff) = buff :=
    involutive.chachaCryptLegacy pass buff
  obtain sa | comment | payerOld | receiverOld | hint | text | chs | time | unlock | expiration |
    flags | pk | info | entryOld | data | padding | flags16 | unlock2 | payer | receiver |
    rest := item
  · exact decryptAttachLegacy_service involutive opens isSender readable encrypted
  · cases encrypted
    refine ⟨_, rfl, ?_⟩
    simp [Reads, isIsolated, SameContent, undo]
  · cases encrypted
    refine ⟨_, rfl, ?_⟩
    simp [Reads, isIsolated, SameContent, cryptAddressOld_cryptAddressOld involutive]
  · cases encrypted
    refine ⟨_, rfl, ?_⟩
    simp [Reads, isIsolated, SameContent, cryptAddressOld_cryptAddressOld involutive]
  case inr.inr.inr.inr.inr.inr.inr.inr.inr.inr.inr.inr.inr.inr.inr.inr.inr.inr.inl =>
      cases encrypted
      refine ⟨_, rfl, ?_⟩
      simp [Reads, isIsolated, SameContent, cryptAddress_cryptAddress involutive]
  case inr.inr.inr.inr.inr.inr.inr.inr.inr.inr.inr.inr.inr.inr.inr.inr.inr.inr.inr.inl =>
      cases encrypted
      refine ⟨_, rfl, ?_⟩
      simp [Reads, isIsolated, SameContent, cryptAddress_cryptAddress involutive]
  all_goals
    cases encrypted
    exact ⟨_, rfl, _, rfl, SameContent.refl _⟩

end

end Zano.PayloadEncryption
