import Mathlib
import Zano.Addresses.Address
import Zano.Serialization.Spelling

/-! # Texts of addresses with payment ids

The prefix of a text says whether the address is one of an account or of a gateway, which of two
layouts an account has and whether a payment id follows it. The id of a gateway is a number of eight
bytes, so a shorter one is filled up with zeros in front.

The parser reads more texts than the writer makes. An integrated text of the new layout that is one
byte short has no place where its payment id could start, which is an exception.
-/

namespace Zano.Addresses

open Serialization

def currencyPublicAddressBase58Prefix : UInt64 := 0xc5
def currencyPublicIntegAddressBase58Prefix : UInt64 := 0x3678
def currencyPublicIntegAddressV2Base58Prefix : UInt64 := 0x36f8
def currencyPublicAuditableAddressBase58Prefix : UInt64 := 0x98c8
def currencyPublicAuditableIntegAddressBase58Prefix : UInt64 := 0x8a49
def currencyPublicGatewayBase58Prefix : UInt64 := 0x656e
def currencyPublicIntegGatewayBase58Prefix : UInt64 := 0x14276e

def bcPaymentIdServiceSizeMax : ℕ := 128
def currencyHf6IntrinsicPaymentIdSize : ℕ := 8

/-- `sizeof` of the two layouts, which are packed. -/
def sizeofAccountPublicAddressOld : ℕ := 64
def sizeofAccountPublicAddress : ℕ := 65

def accountPublicAddressFlagAuditable : UInt8 := 1

def toOld (addr : AccountPublicAddress) : AccountPublicAddressOld :=
  ⟨addr.spendPublicKey, addr.viewPublicKey⟩

def fromOld (addr : AccountPublicAddressOld) : AccountPublicAddress :=
  ⟨addr.spendPublicKey, addr.viewPublicKey, 0⟩

abbrev GatewayAddressIdType := PublicKey

/-- An account or a gateway. -/
abbrev AddressV := AccountPublicAddress ⊕ GatewayAddressIdType

structure GatewayAddressSerializedToStr where
  version : UInt8
  gatewayAddr : GatewayAddressIdType
  oPaymentId : Option UInt64

abbrev gatewayAddressSerializedToStr : Codec GatewayAddressSerializedToStr :=
  ((versionToMember 0).seq (key.seq (optional uint64))).object (fun v =>
    (v.version, v.gatewayAddr, v.oPaymentId))
    (fun (a, b, c) => ⟨a, b, c⟩) fun _ => rfl

/-- `append_pod_to_strbuff` of a number. -/
def podBytes (value : UInt64) : Bytes := writeUint 8 value.toNat

/-- `get_pod_from_strbuff` of eight bytes. -/
def podOfBytes (buff : Bytes) : UInt64 := UInt64.ofNat (((readUint 8 buff).map Prod.fst).getD 0)

def convertPaymentId (paymentId : Bytes) : Option UInt64 :=
  if currencyHf6IntrinsicPaymentIdSize < paymentId.length then none
  else some (podOfBytes
    (List.replicate (currencyHf6IntrinsicPaymentIdSize - paymentId.length) 0 ++ paymentId))

section

variable (cnFastHash : Bytes → Hash) (checkKey : PublicKey → Bool)

def oldBlob (addr : AccountPublicAddress) : Bytes := (accountPublicAddressOld.write (toOld addr)).1

def newBlob (addr : AccountPublicAddress) : Bytes := (accountPublicAddress.write addr).1

/-- `get_account_address_as_str` of an account. -/
def accountAddressAsStr (addr : AccountPublicAddress) (paymentId : Bytes) : Bytes :=
  if paymentId = [] then
    if addr.flags = 0 then encodeAddr cnFastHash currencyPublicAddressBase58Prefix (oldBlob addr)
    else if addr.flags &&& accountPublicAddressFlagAuditable ≠ 0 then
      encodeAddr cnFastHash currencyPublicAuditableAddressBase58Prefix (newBlob addr)
    else encodeAddr cnFastHash currencyPublicAddressBase58Prefix (newBlob addr)
  else if addr.flags = 0 then
    encodeAddr cnFastHash currencyPublicIntegAddressBase58Prefix (oldBlob addr ++ paymentId)
  else if addr.flags &&& accountPublicAddressFlagAuditable ≠ 0 then
    encodeAddr cnFastHash currencyPublicAuditableIntegAddressBase58Prefix
      (newBlob addr ++ paymentId)
  else encodeAddr cnFastHash currencyPublicIntegAddressV2Base58Prefix (newBlob addr ++ paymentId)

/-- `get_account_address_as_str` of a gateway, which is empty for a payment id that is too long. -/
def gatewayAddressAsStr (addr : GatewayAddressIdType) (paymentId : Bytes) : Bytes :=
  if paymentId = [] then
    encodeAddr cnFastHash currencyPublicGatewayBase58Prefix
      (gatewayAddressSerializedToStr.write ⟨0, addr, none⟩).1
  else
    match convertPaymentId paymentId with
    | none => []
    | some val => encodeAddr cnFastHash currencyPublicIntegGatewayBase58Prefix
        (gatewayAddressSerializedToStr.write ⟨0, addr, some val⟩).1

def getAccountAddressAsStr : AddressV → Bytes → Bytes
  | .inl addr => accountAddressAsStr cnFastHash addr
  | .inr gwAddr => gatewayAddressAsStr cnFastHash gwAddr

/-- How the parser ends without a result: it returns false, or an exception leaves it. -/
inductive Failure where
  | refused
  | outOfRange
  deriving DecidableEq, Repr

/-- `parse_binary`: nothing may be left. -/
def parseBinary {α : Type} (c : Codec α) (blob : Bytes) : Except Failure α :=
  match c.read blob with
  | some (v, []) => .ok v
  | _ => .error .refused

/-- `substr` to the end. -/
def substr (s : Bytes) (pos : ℕ) : Except Failure Bytes :=
  if s.length < pos then .error .outOfRange else .ok (s.drop pos)

def parseOld (blob : Bytes) : Except Failure AccountPublicAddress :=
  (parseBinary accountPublicAddressOld blob).map fromOld

/-- The address and the payment id by the prefix. -/
def parseLayout (tag : UInt64) (blob : Bytes) : Except Failure (AccountPublicAddress × Bytes) := do
  if tag = currencyPublicAddressBase58Prefix then
    if blob.length = sizeofAccountPublicAddressOld then
      let addr ← parseOld blob
      .ok (addr, [])
    else if blob.length = sizeofAccountPublicAddress then
      let addr ← parseBinary accountPublicAddress blob
      .ok (addr, [])
    else .error .refused
  else if tag = currencyPublicAuditableAddressBase58Prefix then
    let addr ← parseBinary accountPublicAddress blob
    .ok (addr, [])
  else if tag = currencyPublicIntegAddressBase58Prefix then
    let paymentId ← substr blob sizeofAccountPublicAddressOld
    let addr ← parseOld (blob.take sizeofAccountPublicAddressOld)
    .ok (addr, paymentId)
  else if tag = currencyPublicAuditableIntegAddressBase58Prefix ∨
    tag = currencyPublicIntegAddressV2Base58Prefix then
    let paymentId ← substr blob sizeofAccountPublicAddress
    let addr ← parseBinary accountPublicAddress (blob.take sizeofAccountPublicAddress)
    .ok (addr, paymentId)
  else .error .refused

def parseGateway (blob : Bytes) : Except Failure (AddressV × Bytes) := do
  let gwserialized ← parseBinary gatewayAddressSerializedToStr blob
  .ok (.inr gwserialized.gatewayAddr, (gwserialized.oPaymentId.map podBytes).getD [])

def parseAccount (tag : UInt64) (blob : Bytes) : Except Failure (AddressV × Bytes) := do
  if blob.length < sizeofAccountPublicAddressOld then .error .refused
  else if sizeofAccountPublicAddress + bcPaymentIdServiceSizeMax < blob.length then .error .refused
  else
    let (addr, paymentId) ← parseLayout tag blob
    if bcPaymentIdServiceSizeMax < paymentId.length then .error .refused
    else if !checkKey addr.spendPublicKey || !checkKey addr.viewPublicKey then .error .refused
    else .ok (.inl addr, paymentId)

def getAccountAddressAndPaymentIdFromStr (str : Bytes) : Except Failure (AddressV × Bytes) :=
  match decodeAddr cnFastHash str with
  | none => .error .refused
  | some (tag, blob) =>
      if tag = currencyPublicGatewayBase58Prefix ∨ tag = currencyPublicIntegGatewayBase58Prefix then
        parseGateway blob
      else parseAccount checkKey tag blob

end

theorem bind_eq_ok_iff {ε α β : Type} {x : Except ε α} {f : α → Except ε β} {b : β} :
    (x >>= f) = .ok b ↔ ∃ a, x = .ok a ∧ f a = .ok b := by
  cases x with
  | error e => exact iff_of_false (fun same => by cases same) fun ⟨a, same, _⟩ => by cases same
  | ok a => exact ⟨fun same => ⟨a, rfl, same⟩, fun ⟨_, isA, same⟩ => by cases isA; exact same⟩

/-! ## Blobs -/

theorem exact_accountPublicAddressOld {bytes rest : Bytes} {v : AccountPublicAddressOld}
    (isRead : accountPublicAddressOld.read bytes = some (v, rest)) :
    accountPublicAddressOld.Exact bytes v rest := by
  apply (@Codec.Spelled.slips_eq_nil_iff _ Slip _ _ _ _ _ isRead).mp
  simp [Codec.Spelled.slips]
  split <;> rfl

theorem exact_accountPublicAddress {bytes rest : Bytes} {v : AccountPublicAddress}
    (isRead : accountPublicAddress.read bytes = some (v, rest)) :
    accountPublicAddress.Exact bytes v rest := by
  apply (@Codec.Spelled.slips_eq_nil_iff _ Slip _ _ _ _ _ isRead).mp
  simp [Codec.Spelled.slips]
  split
  · split <;> rfl
  · rfl

/-- What is read of a blob as a whole. -/
theorem parseBinary_eq_ok {α : Type} {c : Codec α} {blob : Bytes} {v : α} :
    parseBinary c blob = .ok v ↔ c.read blob = some (v, []) := by
  rw [parseBinary]
  split
  · next w isRead =>
      rw [isRead]
      constructor
      · intro same
        cases same
        rfl
      · intro same
        cases same
        rfl
  · next notWhole => exact iff_of_false (fun same => by cases same) fun isRead => notWhole v isRead

theorem dom_accountPublicAddressOld (addr : AccountPublicAddressOld) :
    accountPublicAddressOld.dom addr :=
  ⟨_, rfl, ⟨trivial, trivial⟩, rfl⟩

theorem dom_accountPublicAddress (addr : AccountPublicAddress) : accountPublicAddress.dom addr :=
  ⟨_, rfl, ⟨trivial, trivial, ⟨addr.flags.toNat, rfl, addr.flags.toNat_lt, UInt8.ofNat_toNat⟩⟩, rfl⟩

theorem parseNew_eq_ok_iff {blob : Bytes} {addr : AccountPublicAddress} :
    parseBinary accountPublicAddress blob = .ok addr ↔ blob = newBlob addr := by
  rw [parseBinary_eq_ok]
  constructor
  · intro isRead
    have same := (exact_accountPublicAddress isRead).2
    rw [List.append_nil] at same
    exact same.symm
  · intro isBlob
    rw [isBlob]
    exact Codec.Exact.read ⟨Codec.Whole.ended (dom_accountPublicAddress addr), List.append_nil _⟩
      (dom_accountPublicAddress addr)

theorem parseOld_eq_ok_iff {blob : Bytes} {addr : AccountPublicAddress} :
    parseOld blob = .ok addr ↔ blob = oldBlob addr ∧ addr.flags = 0 := by
  constructor
  · intro isParsed
    rw [parseOld] at isParsed
    cases isOld : parseBinary accountPublicAddressOld blob with
    | error failure =>
        rw [isOld] at isParsed
        cases isParsed
    | ok old =>
        rw [isOld] at isParsed
        cases isParsed
        have same := (exact_accountPublicAddressOld (parseBinary_eq_ok.mp isOld)).2
        rw [List.append_nil] at same
        exact ⟨same.symm, rfl⟩
  · intro ⟨isBlob, noFlags⟩
    have isRead : parseBinary accountPublicAddressOld blob = .ok (toOld addr) := by
      rw [parseBinary_eq_ok, isBlob]
      exact Codec.Exact.read ⟨Codec.Whole.ended (dom_accountPublicAddressOld _), List.append_nil _⟩
        (dom_accountPublicAddressOld _)
    rw [parseOld, isRead]
    change Except.ok (fromOld (toOld addr)) = _
    rw [fromOld, toOld, ← noFlags]

theorem length_oldBlob (addr : AccountPublicAddress) :
    (oldBlob addr).length = sizeofAccountPublicAddressOld := by
  have whole : oldBlob addr = addr.spendPublicKey.bytes ++ addr.viewPublicKey.bytes := rfl
  rw [whole, List.length_append, addr.spendPublicKey.length_eq, addr.viewPublicKey.length_eq]
  rfl

theorem length_newBlob (addr : AccountPublicAddress) :
    (newBlob addr).length = sizeofAccountPublicAddress := by
  have whole : newBlob addr =
      addr.spendPublicKey.bytes ++
        (addr.viewPublicKey.bytes ++ [UInt8.ofNat (addr.flags.toNat % 256)]) := rfl
  rw [whole, List.length_append, List.length_append, addr.spendPublicKey.length_eq,
    addr.viewPublicKey.length_eq]
  rfl

/-! ## Accounts -/

/-- What follows the prefix in a text of this account with this payment id. -/
def IsAccountData (tag : UInt64) (data : Bytes) (addr : AccountPublicAddress)
    (paymentId : Bytes) : Prop :=
  (tag = currencyPublicAddressBase58Prefix ∧ paymentId = [] ∧
      (data = oldBlob addr ∧ addr.flags = 0 ∨ data = newBlob addr)) ∨
    (tag = currencyPublicAuditableAddressBase58Prefix ∧ paymentId = [] ∧ data = newBlob addr) ∨
    (tag = currencyPublicIntegAddressBase58Prefix ∧ addr.flags = 0 ∧
      data = oldBlob addr ++ paymentId) ∨
    ((tag = currencyPublicAuditableIntegAddressBase58Prefix ∨
      tag = currencyPublicIntegAddressV2Base58Prefix) ∧
      data = newBlob addr ++ paymentId)

theorem parseLayout_eq_ok_iff {tag : UInt64} {blob : Bytes} {addr : AccountPublicAddress}
    {paymentId : Bytes} :
    parseLayout tag blob = .ok (addr, paymentId) ↔ IsAccountData tag blob addr paymentId := by
  have split {sizeof : ℕ} {front : Bytes} (size : front.length = sizeof) :
      blob = front ++ paymentId ↔
        ¬blob.length < sizeof ∧ blob.take sizeof = front ∧ blob.drop sizeof = paymentId := by
    constructor
    · rintro rfl
      rw [← size, List.length_append, List.take_left, List.drop_left]
      exact ⟨by omega, rfl, rfl⟩
    · rintro ⟨-, rfl, rfl⟩
      exact (List.take_append_drop _ _).symm
  have oldSize := length_oldBlob addr
  have newSize := length_newBlob addr
  rw [IsAccountData, split oldSize, split newSize]
  by_cases normal : tag = currencyPublicAddressBase58Prefix
  · subst normal
    have notOther :
        ¬currencyPublicAddressBase58Prefix = currencyPublicAuditableAddressBase58Prefix ∧
        ¬currencyPublicAddressBase58Prefix = currencyPublicIntegAddressBase58Prefix ∧
        ¬currencyPublicAddressBase58Prefix = currencyPublicAuditableIntegAddressBase58Prefix ∧
        ¬currencyPublicAddressBase58Prefix = currencyPublicIntegAddressV2Base58Prefix := by decide
    simp only [parseLayout, notOther, if_true, true_and, false_and, or_false]
    split_ifs with isOld isNew
    · have notNew : blob ≠ newBlob addr := by
        rintro rfl
        rw [newSize] at isOld
        cases isOld
      simp only [bind_eq_ok_iff, parseOld_eq_ok_iff, notNew, or_false]
      grind
    · have notOld : blob ≠ oldBlob addr := fun same => isOld (by rw [same, oldSize])
      simp only [bind_eq_ok_iff, parseNew_eq_ok_iff, notOld, false_and, false_or]
      grind
    · have notOld : blob ≠ oldBlob addr := fun same => isOld (by rw [same, oldSize])
      have notNew : blob ≠ newBlob addr := fun same => isNew (by rw [same, newSize])
      simp [notOld, notNew]
  by_cases auditable : tag = currencyPublicAuditableAddressBase58Prefix
  · subst auditable
    have notOther :
        ¬currencyPublicAuditableAddressBase58Prefix = currencyPublicIntegAddressBase58Prefix ∧
        ¬currencyPublicAuditableAddressBase58Prefix =
          currencyPublicAuditableIntegAddressBase58Prefix ∧
        ¬currencyPublicAuditableAddressBase58Prefix = currencyPublicIntegAddressV2Base58Prefix := by
          decide
    simp only [parseLayout, normal, notOther, if_true, if_false, true_and, false_and,
      or_false, false_or, bind_eq_ok_iff, parseNew_eq_ok_iff]
    grind
  by_cases integ : tag = currencyPublicIntegAddressBase58Prefix
  · subst integ
    have notOther :
        ¬currencyPublicIntegAddressBase58Prefix = currencyPublicAuditableIntegAddressBase58Prefix ∧
        ¬currencyPublicIntegAddressBase58Prefix = currencyPublicIntegAddressV2Base58Prefix := by
          decide
    simp only [parseLayout, normal, auditable, notOther, if_true, if_false, true_and, false_and,
      or_false, false_or, bind_eq_ok_iff, parseOld_eq_ok_iff, substr]
    split_ifs with short
    · simp [short]
    · grind
  by_cases integNew : tag = currencyPublicAuditableIntegAddressBase58Prefix ∨
      tag = currencyPublicIntegAddressV2Base58Prefix
  · simp only [parseLayout, normal, auditable, integ, integNew, if_true, if_false, true_and,
      false_and, false_or, bind_eq_ok_iff, parseNew_eq_ok_iff, substr]
    split_ifs with short
    · simp [short]
    · grind
  · simp [parseLayout, normal, auditable, integ, integNew]

theorem IsAccountData.length {tag : UInt64} {data : Bytes} {addr : AccountPublicAddress}
    {paymentId : Bytes} (isData : IsAccountData tag data addr paymentId) :
    sizeofAccountPublicAddressOld ≤ data.length ∧
      data.length ≤ sizeofAccountPublicAddress + paymentId.length := by
  have oldSize := length_oldBlob addr
  have newSize := length_newBlob addr
  simp only [sizeofAccountPublicAddressOld, sizeofAccountPublicAddress] at oldSize newSize ⊢
  obtain ⟨-, rfl, ⟨rfl, -⟩ | rfl⟩ | ⟨-, rfl, rfl⟩ | ⟨-, -, rfl⟩ | ⟨-, rfl⟩ := isData
  · simp [oldSize]
  · simp [newSize]
  · simp [newSize]
  · simp [oldSize]
  · simp only [List.length_append, newSize]
    omega

theorem IsAccountData.notGateway {tag : UInt64} {data : Bytes} {addr : AccountPublicAddress}
    {paymentId : Bytes} (isData : IsAccountData tag data addr paymentId) :
    ¬(tag = currencyPublicGatewayBase58Prefix ∨ tag = currencyPublicIntegGatewayBase58Prefix) := by
  obtain ⟨rfl, -⟩ | ⟨rfl, -⟩ | ⟨rfl, -⟩ | ⟨rfl | rfl, -⟩ := isData <;> decide

/-- Bytes of one length under one prefix have one reading. -/
theorem IsAccountData.unique {tag : UInt64} {data other : Bytes} {addr : AccountPublicAddress}
    {paymentId : Bytes} (isData : IsAccountData tag data addr paymentId)
    (isOther : IsAccountData tag other addr paymentId)
    (sameLength : data.length = other.length) : data = other := by
  have oldSize := length_oldBlob addr
  have newSize := length_newBlob addr
  simp only [sizeofAccountPublicAddressOld, sizeofAccountPublicAddress] at oldSize newSize
  simp only [IsAccountData] at isData isOther
  obtain ⟨rfl, isData⟩ | ⟨rfl, isData⟩ | ⟨rfl, isData⟩ | ⟨rfl | rfl, isData⟩ := isData
  all_goals simp +decide only [true_and, false_and, or_false, false_or] at isOther
  all_goals grind

theorem parseAccount_eq_ok_iff {checkKey : PublicKey → Bool} {tag : UInt64} {blob : Bytes}
    {addr : AccountPublicAddress} {paymentId : Bytes} :
    parseAccount checkKey tag blob = .ok (.inl addr, paymentId) ↔
      IsAccountData tag blob addr paymentId ∧ paymentId.length ≤ bcPaymentIdServiceSizeMax ∧
        checkKey addr.spendPublicKey = true ∧ checkKey addr.viewPublicKey = true := by
  have bounds : IsAccountData tag blob addr paymentId →
      sizeofAccountPublicAddressOld ≤ blob.length ∧
      blob.length ≤ sizeofAccountPublicAddress + paymentId.length := IsAccountData.length
  simp only [← parseLayout_eq_ok_iff] at bounds ⊢
  simp only [parseAccount]
  split_ifs with short long
  · grind
  · grind
  · constructor
    · intro isParsed
      obtain ⟨⟨found, foundId⟩, isFound, isParsed⟩ := bind_eq_ok_iff.mp isParsed
      dsimp only at isParsed
      split_ifs at isParsed with tooLong badKey
      cases isParsed
      simp only [Bool.or_eq_true, Bool.not_eq_true', not_or, Bool.not_eq_false] at badKey
      exact ⟨isFound, not_lt.mp tooLong, badKey⟩
    · intro ⟨isFound, fits, spendKey, viewKey⟩
      apply bind_eq_ok_iff.mpr ⟨_, isFound, ?_⟩
      simp [not_lt.mpr fits, spendKey, viewKey]

theorem parseAccount_ne_gateway {checkKey : PublicKey → Bool} {tag : UInt64} {blob : Bytes}
    {gwAddr : GatewayAddressIdType} {paymentId : Bytes} :
    parseAccount checkKey tag blob ≠ .ok (.inr gwAddr, paymentId) := by
  intro isParsed
  simp only [parseAccount] at isParsed
  split_ifs at isParsed
  obtain ⟨⟨found, foundId⟩, -, isParsed⟩ := bind_eq_ok_iff.mp isParsed
  dsimp only at isParsed
  split_ifs at isParsed
  cases isParsed

theorem bind_eq_error_iff {ε α β : Type} {x : Except ε α} {f : α → Except ε β} {failure : ε} :
    (x >>= f) = .error failure ↔ x = .error failure ∨ ∃ a, x = .ok a ∧ f a = .error failure := by
  cases x with
  | error e =>
      constructor
      · intro same
        cases same
        exact .inl rfl
      · rintro (same | ⟨a, same, -⟩)
        · cases same
          rfl
        · cases same
  | ok a =>
      constructor
      · exact fun same => .inr ⟨a, rfl, same⟩
      · rintro (same | ⟨_, isA, same⟩)
        · cases same
        · cases isA
          exact same

theorem parseBinary_ne_outOfRange {α : Type} {c : Codec α} {blob : Bytes} :
    parseBinary c blob ≠ .error .outOfRange := by
  rw [parseBinary]
  split <;> exact fun same => by cases same

theorem parseOld_ne_outOfRange {blob : Bytes} : parseOld blob ≠ .error .outOfRange := by
  rw [parseOld]
  cases isParsed : parseBinary accountPublicAddressOld blob with
  | ok old => exact fun same => by cases same
  | error failure =>
      rintro same
      cases same
      exact parseBinary_ne_outOfRange isParsed

/-- Only an integrated text of the new layout can lack the byte where its payment id starts. -/
theorem parseAccount_outOfRange {checkKey : PublicKey → Bool} {tag : UInt64} {blob : Bytes}
    (thrown : parseAccount checkKey tag blob = .error .outOfRange) :
    (tag = currencyPublicAuditableIntegAddressBase58Prefix ∨
      tag = currencyPublicIntegAddressV2Base58Prefix) ∧
      blob.length = sizeofAccountPublicAddressOld := by
  have withoutId {x : Except Failure AccountPublicAddress} (isSafe : x ≠ .error .outOfRange) :
      (do let addr ← x; .ok (addr, ([] : Bytes))) ≠ (.error .outOfRange : Except Failure _) := by
    intro isError
    obtain isError | ⟨_, -, isError⟩ := bind_eq_error_iff.mp isError
    · exact isSafe isError
    · cases isError
  simp only [parseAccount] at thrown
  split_ifs at thrown with short long
  · cases thrown
  · cases thrown
  obtain thrown | ⟨⟨found, foundId⟩, -, thrown⟩ := bind_eq_error_iff.mp thrown
  · simp only [parseLayout] at thrown
    split_ifs at thrown with normal isOld isNew auditable integ integNew
    · exact absurd thrown (withoutId parseOld_ne_outOfRange)
    · exact absurd thrown (withoutId parseBinary_ne_outOfRange)
    · cases thrown
    · exact absurd thrown (withoutId parseBinary_ne_outOfRange)
    · simp only [substr, if_neg short] at thrown
      obtain thrown | ⟨paymentId, -, thrown⟩ := bind_eq_error_iff.mp thrown
      · cases thrown
      · obtain thrown | ⟨_, -, thrown⟩ := bind_eq_error_iff.mp thrown
        · exact absurd thrown parseOld_ne_outOfRange
        · cases thrown
    · refine ⟨integNew, ?_⟩
      simp only [substr] at thrown
      split_ifs at thrown with noId
      · simp only [sizeofAccountPublicAddress, sizeofAccountPublicAddressOld] at *
        omega
      · obtain thrown | ⟨paymentId, -, thrown⟩ := bind_eq_error_iff.mp thrown
        · cases thrown
        · obtain thrown | ⟨_, -, thrown⟩ := bind_eq_error_iff.mp thrown
          · exact absurd thrown parseBinary_ne_outOfRange
          · cases thrown
    · cases thrown
  · dsimp only at thrown
    split_ifs at thrown
    · cases thrown
    · cases thrown

/-! ## Gateways -/

/-- What is read as the version 0. -/
def IsVersionText (version : Bytes) : Prop :=
  version = [0] ∨ ∃ byte, byte ≠ 1 ∧ version = [0x80, byte]

/-- What follows the prefix in a text of this gateway with this payment id. -/
def IsGatewayData (data : Bytes) (gwAddr : GatewayAddressIdType) (paymentId : Bytes) : Prop :=
  ∃ version, IsVersionText version ∧
    ((∃ isNone, isNone ≠ 0 ∧ paymentId = [] ∧ data = version ++ (gwAddr.bytes ++ [isNone])) ∨
      (paymentId.length = currencyHf6IntrinsicPaymentIdSize ∧
        data = version ++ (gwAddr.bytes ++ 0 :: paymentId)))

theorem readVarint_eq_zero_iff {byte : UInt8} {later rest : Bytes} (more : rest ≠ []) :
    Serialization.readVarint 8 0 0 (byte :: later) = (0, rest) ↔
      (byte = 0 ∧ later = rest) ∨ ∃ second, byte = 0x80 ∧ second ≠ 1 ∧ later = second :: rest := by
  have below := byte.toNat_lt
  have isZero : byte = 0 ↔ byte.toNat = 0 := by rw [← UInt8.toNat_inj, UInt8.toNat_zero]
  have isHigh : byte = 128 ↔ byte.toNat = 128 := by rw [← UInt8.toNat_inj]; rfl
  rw [Serialization.readVarint]
  cases later with
  | nil =>
      simp [Serialization.readVarint]
      grind
  | cons second later =>
      have isFirst : second = 0 ↔ second.toNat = 0 := by rw [← UInt8.toNat_inj, UInt8.toNat_zero]
      have isOne : second = 1 ↔ second.toNat = 1 := by rw [← UInt8.toNat_inj]; rfl
      simp [Serialization.readVarint]
      split_ifs
      · grind
      · grind
      · grind
      · have theBit : second.toNat = 1 := by grind
        simp [theBit, isOne]
        grind
      · grind

theorem read_versionToMember_iff {bytes rest : Bytes} (more : rest ≠ []) {version : UInt8} :
    (versionToMember 0).read bytes = some (version, rest) ↔
      version = 0 ∧ ∃ text, IsVersionText text ∧ bytes = text ++ rest := by
  have below := @Serialization.readVarint_lt 8 0 0 (by omega) (by omega) bytes
  have isRead : (versionToMember 0).read bytes = some (version, rest) ↔
      (UInt8.ofNat (Serialization.readVarint 8 0 0 bytes).1 = version ∧
        (Serialization.readVarint 8 0 0 bytes).2 = rest) ∧ version = 0 := by
    simp [versionToMember, Codec.accepted, Codec.check, varint8, Codec.convert, varint]
  have isZero : UInt8.ofNat (Serialization.readVarint 8 0 0 bytes).1 = 0 ↔
      (Serialization.readVarint 8 0 0 bytes).1 = 0 := by
    rw [← UInt8.toNat_inj, UInt8.toNat_ofNat', UInt8.toNat_zero, Nat.mod_eq_of_lt below]
  have isNumber : (versionToMember 0).read bytes = some (version, rest) ↔
      version = 0 ∧ Serialization.readVarint 8 0 0 bytes = (0, rest) := by
    rw [isRead, Prod.ext_iff]
    grind
  rw [isNumber]
  apply and_congr_right
  intro _
  cases bytes with
  | nil =>
      apply iff_of_false
      · intro isEmpty
        cases isEmpty
        exact more rfl
      · rintro ⟨_, rfl | ⟨byte, -, rfl⟩, isEmpty⟩ <;> cases isEmpty
  | cons byte later =>
      rw [readVarint_eq_zero_iff more]
      constructor
      · rintro (⟨rfl, rfl⟩ | ⟨second, rfl, notOne, rfl⟩)
        · exact ⟨[0], .inl rfl, rfl⟩
        · exact ⟨[0x80, second], .inr ⟨second, notOne, rfl⟩, rfl⟩
      · rintro ⟨_, rfl | ⟨second, notOne, rfl⟩, isBytes⟩
        · cases isBytes
          exact .inl ⟨rfl, rfl⟩
        · cases isBytes
          exact .inr ⟨second, rfl, notOne, rfl⟩

theorem readUint_of_length {width : ℕ} {bytes : Bytes} (isWhole : bytes.length = width) :
    ∃ v, readUint width bytes = some (v, []) := by
  induction width generalizing bytes with
  | zero =>
      rw [List.length_eq_zero_iff.mp isWhole]
      exact ⟨0, rfl⟩
  | succ width inductionHypothesis =>
      cases bytes with
      | nil => cases isWhole
      | cons byte later =>
          obtain ⟨high, isHigh⟩ := inductionHypothesis (Nat.succ.inj isWhole)
          exact ⟨byte.toNat + 256 * high, by rw [readUint, isHigh]; rfl⟩

theorem length_writeUint (width v : ℕ) : (writeUint width v).length = width := by
  induction width generalizing v with
  | zero => rfl
  | succ width inductionHypothesis => rw [writeUint, List.length_cons, inductionHypothesis]

theorem length_podBytes (value : UInt64) :
    (podBytes value).length = currencyHf6IntrinsicPaymentIdSize :=
  length_writeUint 8 _

theorem podBytes_podOfBytes {buff : Bytes}
    (isWhole : buff.length = currencyHf6IntrinsicPaymentIdSize) :
    podBytes (podOfBytes buff) = buff := by
  obtain ⟨v, isRead⟩ := readUint_of_length isWhole
  have fits : v < 2 ^ 64 := (uint 8).read_dom isRead
  have isNumber : podOfBytes buff = UInt64.ofNat v := by
    rw [podOfBytes]
    exact congrArg (fun found : Option (ℕ × Bytes) =>
      UInt64.ofNat ((found.map Prod.fst).getD 0)) isRead
  have same := writeUint_of_readUint isRead
  rw [List.append_nil] at same
  rw [isNumber, podBytes, UInt64.toNat_ofNat', Nat.mod_eq_of_lt fits]
  exact same

theorem read_uint64_iff {bytes : Bytes} {value : UInt64} :
    uint64.read bytes = some (value, []) ↔ podBytes value = bytes := by
  constructor
  · intro isRead
    have same := ((@Codec.Spelled.slips_eq_nil_iff _ Slip uint64 _ _ _ _ isRead).mp rfl).2
    rw [List.append_nil] at same
    exact same
  · intro isBytes
    have inDom : uint64.dom value := ⟨value.toNat, rfl, value.toNat_lt, UInt64.ofNat_toNat⟩
    apply Codec.Exact.read _ inDom
    exact ⟨rfl, (List.append_nil _).trans isBytes⟩

theorem read_key_iff {bytes rest : Bytes} {found : PublicKey} :
    key.read bytes = some (found, rest) ↔ bytes = found.bytes ++ rest := by
  constructor
  · intro isRead
    exact ((@Codec.Spelled.slips_eq_nil_iff _ Slip key _ _ _ _ isRead).mp rfl).2.symm
  · rintro rfl
    exact key.read_write trivial rest

theorem read_optional_iff {bytes : Bytes} {found : Option UInt64} :
    (optional uint64).read bytes = some (found, []) ↔
      (∃ isNone, isNone ≠ 0 ∧ found = none ∧ bytes = [isNone]) ∨
        ∃ value, found = some value ∧ bytes = 0 :: podBytes value := by
  cases bytes with
  | nil => simp [Serialization.optional]
  | cons isNone later =>
      by_cases isMissing : isNone ≠ 0
      · simp [Serialization.optional, isMissing]
        grind
      · obtain rfl : isNone = 0 := not_not.mp isMissing
        simp [Serialization.optional, read_uint64_iff]
        grind

theorem read_gatewayAddressSerializedToStr_iff {blob : Bytes} {v : GatewayAddressSerializedToStr} :
    gatewayAddressSerializedToStr.read blob = some (v, []) ↔
      ∃ afterVersion afterAddr, (versionToMember 0).read blob = some (v.version, afterVersion) ∧
        key.read afterVersion = some (v.gatewayAddr, afterAddr) ∧
          (Serialization.optional uint64).read afterAddr = some (v.oPaymentId, []) := by
  obtain ⟨version, gatewayAddr, oPaymentId⟩ := v
  simp [gatewayAddressSerializedToStr, Codec.object, Codec.convert, Codec.seq, Codec.dep,
    Option.bind_eq_some_iff]

theorem parseGateway_eq_ok_iff {blob : Bytes} {gwAddr : GatewayAddressIdType} {paymentId : Bytes} :
    parseGateway blob = .ok (.inr gwAddr, paymentId) ↔ IsGatewayData blob gwAddr paymentId := by
  have parsed : parseGateway blob = .ok (.inr gwAddr, paymentId) ↔
      ∃ v : GatewayAddressSerializedToStr, gatewayAddressSerializedToStr.read blob = some (v, []) ∧
        v.gatewayAddr = gwAddr ∧ (v.oPaymentId.map podBytes).getD [] = paymentId := by
    simp only [parseGateway, bind_eq_ok_iff, parseBinary_eq_ok]
    simp
  rw [parsed]
  simp only [read_gatewayAddressSerializedToStr_iff, read_key_iff, read_optional_iff]
  constructor
  · rintro ⟨v, ⟨afterVersion, afterAddr, readVersion, isAddr, isId⟩, rfl, rfl⟩
    have more : afterVersion ≠ [] := by
      rw [isAddr]
      obtain ⟨isNone, -, -, rfl⟩ | ⟨value, -, rfl⟩ := isId
      · simp
      · simp
    obtain ⟨-, version, isVersion, isBlob⟩ := (read_versionToMember_iff more).mp readVersion
    rw [isBlob, isAddr]
    obtain ⟨isNone, isMissing, noId, rfl⟩ | ⟨value, someId, rfl⟩ := isId
    · rw [noId]
      exact ⟨version, isVersion, .inl ⟨isNone, isMissing, rfl, rfl⟩⟩
    · rw [someId]
      exact ⟨version, isVersion, .inr ⟨length_podBytes value, rfl⟩⟩
  · rintro ⟨version, isVersion, ⟨isNone, isMissing, rfl, rfl⟩ | ⟨isWhole, rfl⟩⟩
    · refine ⟨⟨0, gwAddr, none⟩,
        ⟨_, [isNone], ?_, rfl, .inl ⟨isNone, isMissing, rfl, rfl⟩⟩, rfl, rfl⟩
      exact (read_versionToMember_iff (by simp)).mpr ⟨rfl, version, isVersion, rfl⟩
    · have sameId := podBytes_podOfBytes isWhole
      refine ⟨⟨0, gwAddr, some (podOfBytes paymentId)⟩,
        ⟨_, 0 :: paymentId, ?_, rfl, .inr ⟨_, rfl, ?_⟩⟩, rfl, sameId⟩
      · exact (read_versionToMember_iff (by simp)).mpr ⟨rfl, version, isVersion, rfl⟩
      · rw [sameId]

/-! ## Both -/

section

variable (cnFastHash : Bytes → Hash) (checkKey : PublicKey → Bool)

/-- The id of eight bytes that a gateway gets, if it gets one. -/
def filledUp (paymentId : Bytes) : Bytes :=
  if paymentId = [] then []
  else List.replicate (currencyHf6IntrinsicPaymentIdSize - paymentId.length) 0 ++ paymentId

theorem exists_accountData (addr : AccountPublicAddress) (paymentId : Bytes) :
    ∃ tag data, IsAccountData tag data addr paymentId ∧
      accountAddressAsStr cnFastHash addr paymentId = encodeAddr cnFastHash tag data := by
  rw [accountAddressAsStr]
  split_ifs with noId noFlags auditable noFlags auditable
  · exact ⟨_, _, .inl ⟨rfl, noId, .inl ⟨rfl, noFlags⟩⟩, rfl⟩
  · exact ⟨_, _, .inr (.inl ⟨rfl, noId, rfl⟩), rfl⟩
  · exact ⟨_, _, .inl ⟨rfl, noId, .inr rfl⟩, rfl⟩
  · exact ⟨_, _, .inr (.inr (.inl ⟨rfl, noFlags, rfl⟩)), rfl⟩
  · exact ⟨_, _, .inr (.inr (.inr ⟨.inl rfl, rfl⟩)), rfl⟩
  · exact ⟨_, _, .inr (.inr (.inr ⟨.inr rfl, rfl⟩)), rfl⟩

theorem exists_gatewayData (gwAddr : GatewayAddressIdType) {paymentId : Bytes}
    (fits : paymentId.length ≤ currencyHf6IntrinsicPaymentIdSize) :
    ∃ tag data,
      (tag = currencyPublicGatewayBase58Prefix ∨ tag = currencyPublicIntegGatewayBase58Prefix) ∧
      IsGatewayData data gwAddr (filledUp paymentId) ∧
        gatewayAddressAsStr cnFastHash gwAddr paymentId = encodeAddr cnFastHash tag data := by
  rw [gatewayAddressAsStr, filledUp]
  split_ifs with noId
  · exact ⟨_, _, .inl rfl, ⟨[0], .inl rfl, .inl ⟨1, by decide, rfl, rfl⟩⟩, rfl⟩
  · have isWhole : (List.replicate (currencyHf6IntrinsicPaymentIdSize - paymentId.length) 0 ++
        paymentId).length =
        currencyHf6IntrinsicPaymentIdSize := by
      rw [List.length_append, List.length_replicate]
      omega
    rw [convertPaymentId, if_neg (not_lt.mpr fits)]
    generalize List.replicate (currencyHf6IntrinsicPaymentIdSize - paymentId.length) 0 ++
      paymentId = buff at isWhole
    have sameId := podBytes_podOfBytes isWhole
    generalize podOfBytes buff = value at sameId
    subst sameId
    exact ⟨_, _, .inr rfl, ⟨[0], .inl rfl, .inr ⟨isWhole, rfl⟩⟩, rfl⟩

/-- A text that is cut off has no data. -/
theorem eq_encodeAddr_of_decodeAddr {text data : Bytes} {tag : UInt64} (more : data ≠ [])
    (accepted : decodeAddr cnFastHash text = some (tag, data)) :
    text = encodeAddr cnFastHash tag data := by
  symm
  apply encodeAddr_of_decodeAddr cnFastHash _ accepted
  intro isCutOff
  obtain ⟨⟨other, isEmpty⟩, -⟩ := decodeAddr_of_isCutOff cnFastHash isCutOff
  rw [accepted] at isEmpty
  cases isEmpty
  exact more rfl

theorem parse_account_iff {text : Bytes} {addr : AccountPublicAddress} {paymentId : Bytes} :
    getAccountAddressAndPaymentIdFromStr cnFastHash checkKey text = .ok (.inl addr, paymentId) ↔
      (∃ tag data, text = encodeAddr cnFastHash tag data ∧ IsAccountData tag data addr paymentId) ∧
        paymentId.length ≤ bcPaymentIdServiceSizeMax ∧
          checkKey addr.spendPublicKey = true ∧ checkKey addr.viewPublicKey = true := by
  constructor
  · intro isParsed
    rw [getAccountAddressAndPaymentIdFromStr] at isParsed
    split at isParsed
    · cases isParsed
    next tag data accepted =>
    split at isParsed
    · simp only [parseGateway] at isParsed
      obtain ⟨v, -, isParsed⟩ := bind_eq_ok_iff.mp isParsed
      cases isParsed
    · obtain ⟨isData, checks⟩ := parseAccount_eq_ok_iff.mp isParsed
      have more : data ≠ [] := by
        rintro rfl
        exact absurd isData.length.1 (by decide)
      exact ⟨⟨tag, data, eq_encodeAddr_of_decodeAddr cnFastHash more accepted, isData⟩, checks⟩
  · rintro ⟨⟨tag, data, rfl, isData⟩, checks⟩
    simp only [getAccountAddressAndPaymentIdFromStr, decodeAddr_encodeAddr,
      if_neg isData.notGateway]
    exact parseAccount_eq_ok_iff.mpr ⟨isData, checks⟩

theorem parse_gateway_iff {text : Bytes} {gwAddr : GatewayAddressIdType} {paymentId : Bytes} :
    getAccountAddressAndPaymentIdFromStr cnFastHash checkKey text = .ok (.inr gwAddr, paymentId) ↔
      ∃ tag data, text = encodeAddr cnFastHash tag data ∧
        (tag = currencyPublicGatewayBase58Prefix ∨ tag = currencyPublicIntegGatewayBase58Prefix) ∧
          IsGatewayData data gwAddr paymentId := by
  constructor
  · intro isParsed
    rw [getAccountAddressAndPaymentIdFromStr] at isParsed
    split at isParsed
    · cases isParsed
    next tag data accepted =>
    split at isParsed
    · next isGateway =>
        have isData := parseGateway_eq_ok_iff.mp isParsed
        have more : data ≠ [] := by
          rintro rfl
          obtain ⟨version, -, ⟨isNone, -, -, isEmpty⟩ | ⟨-, isEmpty⟩⟩ := isData <;> simp at isEmpty
        exact ⟨tag, data, eq_encodeAddr_of_decodeAddr cnFastHash more accepted, isGateway, isData⟩
    · exact absurd isParsed parseAccount_ne_gateway
  · rintro ⟨tag, data, rfl, isGateway, isData⟩
    simp only [getAccountAddressAndPaymentIdFromStr, decodeAddr_encodeAddr, if_pos isGateway]
    exact parseGateway_eq_ok_iff.mpr isData

theorem parse_outOfRange {text : Bytes}
    (thrown : getAccountAddressAndPaymentIdFromStr cnFastHash checkKey text = .error .outOfRange) :
    ∃ tag data, decodeAddr cnFastHash text = some (tag, data) ∧
      data.length = sizeofAccountPublicAddressOld ∧
      (tag = currencyPublicAuditableIntegAddressBase58Prefix ∨
        tag = currencyPublicIntegAddressV2Base58Prefix) := by
  rw [getAccountAddressAndPaymentIdFromStr] at thrown
  split at thrown
  · cases thrown
  next tag data accepted =>
  split at thrown
  · simp only [parseGateway] at thrown
    obtain thrown | ⟨v, -, thrown⟩ := bind_eq_error_iff.mp thrown
    · exact absurd thrown parseBinary_ne_outOfRange
    · cases thrown
  · obtain ⟨isTag, isLength⟩ := parseAccount_outOfRange thrown
    exact ⟨tag, data, accepted, isLength, isTag⟩

/-- The text of an account gives the account and the payment id back, and that of a gateway gives
the id filled up. What is read comes from a text of the same prefix, the same layout and one of the
spellings of its data. -/
theorem parsed_texts :
    (∀ addr paymentId, paymentId.length ≤ bcPaymentIdServiceSizeMax →
      checkKey addr.spendPublicKey = true →
        checkKey addr.viewPublicKey = true →
          getAccountAddressAndPaymentIdFromStr cnFastHash checkKey
          (getAccountAddressAsStr cnFastHash (.inl addr) paymentId) = .ok (.inl addr, paymentId)) ∧
      (∀ gwAddr paymentId, paymentId.length ≤ currencyHf6IntrinsicPaymentIdSize →
        getAccountAddressAndPaymentIdFromStr cnFastHash checkKey
          (getAccountAddressAsStr cnFastHash (.inr gwAddr) paymentId) =
            .ok (.inr gwAddr, filledUp paymentId)) ∧
      (∀ text, getAccountAddressAndPaymentIdFromStr cnFastHash checkKey text = .error .outOfRange →
        ∃ tag data, decodeAddr cnFastHash text = some (tag, data) ∧
          data.length = sizeofAccountPublicAddressOld ∧
          (tag = currencyPublicAuditableIntegAddressBase58Prefix ∨
            tag = currencyPublicIntegAddressV2Base58Prefix)) ∧
      (∀ text addr paymentId,
        getAccountAddressAndPaymentIdFromStr cnFastHash checkKey text = .ok (.inl addr, paymentId) ↔
          (∃ tag data, text = encodeAddr cnFastHash tag data ∧
            IsAccountData tag data addr paymentId) ∧
            paymentId.length ≤ bcPaymentIdServiceSizeMax ∧
              checkKey addr.spendPublicKey = true ∧ checkKey addr.viewPublicKey = true) ∧
      (∀ tag data other addr paymentId, IsAccountData tag data addr paymentId →
        IsAccountData tag other addr paymentId →
        data.length = other.length →
          encodeAddr cnFastHash tag data = encodeAddr cnFastHash tag other) ∧
      ∀ text gwAddr paymentId,
        getAccountAddressAndPaymentIdFromStr cnFastHash checkKey text =
          .ok (.inr gwAddr, paymentId) ↔
          ∃ tag data, text = encodeAddr cnFastHash tag data ∧
            (tag = currencyPublicGatewayBase58Prefix ∨
              tag = currencyPublicIntegGatewayBase58Prefix) ∧
              IsGatewayData data gwAddr paymentId := by
  refine ⟨?_, ?_, fun _ => parse_outOfRange cnFastHash checkKey,
    fun _ _ _ => parse_account_iff cnFastHash checkKey, ?_, fun _ _ _ =>
      parse_gateway_iff cnFastHash checkKey⟩
  · intro addr paymentId fits spendKey viewKey
    obtain ⟨tag, data, isData, isText⟩ := exists_accountData cnFastHash addr paymentId
    rw [getAccountAddressAsStr, isText]
    apply (parse_account_iff cnFastHash checkKey).mpr
    exact ⟨⟨tag, data, rfl, isData⟩, fits, spendKey, viewKey⟩
  · intro gwAddr paymentId fits
    obtain ⟨tag, data, isGateway, isData, isText⟩ := exists_gatewayData cnFastHash gwAddr fits
    rw [getAccountAddressAsStr, isText]
    apply (parse_gateway_iff cnFastHash checkKey).mpr
    exact ⟨tag, data, rfl, isGateway, isData⟩
  · intro tag data other addr paymentId isData isOther sameLength
    rw [isData.unique isOther sameLength]

end

private def noHash (_ : Bytes) : Hash := nullPkey

private def nullAddress : AccountPublicAddress := ⟨nullPkey, nullPkey, 0⟩

theorem parsed_texts_null :
    getAccountAddressAndPaymentIdFromStr noHash (fun _ => true)
      (getAccountAddressAsStr noHash (.inl nullAddress) [7]) = .ok (.inl nullAddress, [7]) :=
  (parsed_texts noHash fun _ => true).1 nullAddress [7] (by decide) rfl rfl

/-- A payment id of one byte comes back as eight, a text without the byte where its payment id
starts is an exception, and two texts are read as one account. -/
theorem texts_of_null :
    getAccountAddressAndPaymentIdFromStr noHash (fun _ => true)
        (getAccountAddressAsStr noHash (.inr nullPkey) [1]) =
          .ok (.inr nullPkey, [0, 0, 0, 0, 0, 0, 0, 1]) ∧
      getAccountAddressAndPaymentIdFromStr noHash (fun _ => true)
          (encodeAddr noHash currencyPublicAuditableIntegAddressBase58Prefix
            (oldBlob nullAddress)) =
        .error .outOfRange ∧
      ∃ text other, text ≠ other ∧
        getAccountAddressAndPaymentIdFromStr noHash (fun _ => true) text =
          .ok (.inl nullAddress, []) ∧
          getAccountAddressAndPaymentIdFromStr noHash (fun _ => true) other =
            .ok (.inl nullAddress, []) := by
  refine ⟨?_, ?_, encodeAddr noHash currencyPublicAddressBase58Prefix (oldBlob nullAddress),
    encodeAddr noHash currencyPublicAddressBase58Prefix (newBlob nullAddress), ?_, ?_, ?_⟩
  · obtain ⟨tag, data, isGateway, isData, isText⟩ :=
      @exists_gatewayData noHash nullPkey [1] (by decide)
    rw [getAccountAddressAsStr, isText]
    exact (parse_gateway_iff _ _).mpr ⟨tag, data, rfl, isGateway, isData⟩
  · simp only [getAccountAddressAndPaymentIdFromStr, decodeAddr_encodeAddr]
    rfl
  · intro sameText
    have sameData := congrArg (decodeAddr noHash) sameText
    simp only [decodeAddr_encodeAddr, Option.some.injEq, Prod.mk.injEq, true_and] at sameData
    have sameLength := congrArg List.length sameData
    rw [length_oldBlob, length_newBlob] at sameLength
    cases sameLength
  · exact (parse_account_iff _ _).mpr
      ⟨⟨_, _, rfl, .inl ⟨rfl, rfl, .inl ⟨rfl, rfl⟩⟩⟩, by decide, rfl, rfl⟩
  · exact (parse_account_iff _ _).mpr ⟨⟨_, _, rfl, .inl ⟨rfl, rfl, .inr rfl⟩⟩, by decide, rfl, rfl⟩

end Zano.Addresses
