import Mathlib
import Zano.Lib.Spelling
import Zano.Serialization.TransactionId

/-! # Spellings of transactions

The parser takes more than one text for a transaction. Its reader of varints drops what
`read_varint` says, so a number may be cut off by the end of the input, may be too large and may be
padded. A flag that an optional value is missing may be any byte but zero. A gateway input may end
with any version, and the version 0 of an asset operation is kept as 1. All other bytes are those
that the writer writes.
-/

namespace Zano.Serialization

open Codec

/-- What the reader lets pass. -/
inductive Slip where
  | numberCutOff
  | numberOverflow
  | numberPadded
  | missingFlag
  | secondGatewayVersion
  | assetOperationVersion
  deriving DecidableEq, Repr

/-! ## Varints -/

/-- Where `read_varint` stops before the end of the number, from this shift on. -/
def varintSlips (bits : ℕ) : ℕ → Bytes → List Slip
  | _, [] => [.numberCutOff]
  | shift, byte :: rest =>
      if bits ≤ shift + 7 ∧ 2 ^ (bits - shift) ≤ byte.toNat then [.numberOverflow]
      else if byte = 0 ∧ shift ≠ 0 then [.numberPadded]
      else if byte.toNat < 128 then []
      else varintSlips bits (shift + 7) rest

theorem varintSlips_last {bits shift i : ℕ} (fits : i < 2 ^ (bits - shift)) (isLast : i < 128)
    (shortest : shift ≠ 0 → i ≠ 0) (rest : Bytes) :
    varintSlips bits shift (UInt8.ofNat i :: rest) = [] := by
  have byte : (UInt8.ofNat i).toNat = i := by
    rw [UInt8.toNat_ofNat']
    omega
  have notPadded : ¬(UInt8.ofNat i = 0 ∧ shift ≠ 0) := by
    intro padded
    have same := congrArg UInt8.toNat padded.1
    rw [byte] at same
    exact shortest padded.2 same
  rw [varintSlips, byte, if_neg (by omega), if_neg notPadded, if_pos isLast]

/-- The writer makes no slip. -/
theorem varintSlips_writeVarint (more : ℕ) {bits shift i : ℕ} (fits : i < 2 ^ (bits - shift))
    (enough : i < 128 ^ (more + 1)) (shortest : shift ≠ 0 → i ≠ 0) (rest : Bytes) :
    varintSlips bits shift (writeVarint more i ++ rest) = [] := by
  induction more generalizing shift i with
  | zero => exact varintSlips_last fits (by omega) shortest rest
  | succ more inductionHypothesis =>
      by_cases isLast : i < 128
      · rw [writeVarint, if_pos isLast]
        exact varintSlips_last fits isLast shortest rest
      · have byte : (UInt8.ofNat (i % 128 + 128)).toNat = i % 128 + 128 := by
          rw [UInt8.toNat_ofNat']
          omega
        have notTop : ¬bits ≤ shift + 7 := by
          intro isTop
          have atMost : 2 ^ (bits - shift) ≤ 2 ^ 7 := Nat.pow_le_pow_right (by omega) (by omega)
          omega
        have notPadded : ¬(UInt8.ofNat (i % 128 + 128) = 0 ∧ shift ≠ 0) := by
          intro padded
          have same := congrArg UInt8.toNat padded.1
          rw [byte, UInt8.toNat_zero] at same
          omega
        have seven : 2 ^ (bits - shift) = 2 ^ (bits - (shift + 7)) * 128 := by
          rw [show bits - shift = bits - (shift + 7) + 7 by omega, Nat.pow_add]
        have laterEnough : i / 128 < 128 ^ (more + 1) := by
          rw [Nat.pow_succ] at enough
          omega
        rw [writeVarint, if_neg isLast, List.cons_append, varintSlips, byte,
          if_neg fun overflow => notTop overflow.1, if_neg notPadded, if_neg (by omega)]
        exact inductionHypothesis (by omega) laterEnough (by omega)

/-- A number that is read without a slip is one that was written. Seven bits have been read in each
of `k` bytes before. -/
theorem readVarint_of_slips {bits k i v : ℕ} {bytes rest : Bytes} (isWidth : bits ≤ 64)
    (started : 7 * k < bits) (small : i < 2 ^ (7 * k))
    (isRead : readVarint bits (7 * k) i bytes = (v, rest))
    (noSlip : varintSlips bits (7 * k) bytes = []) :
    ∃ x, bytes = writeVarint (9 - k) x ++ rest ∧ v = i + x * 2 ^ (7 * k) ∧ (k ≠ 0 → x ≠ 0) := by
  induction bytes generalizing k i with
  | nil => cases noSlip
  | cons byte bytes inductionHypothesis =>
      rw [readVarint] at isRead
      rw [varintSlips] at noSlip
      split at noSlip
      · cases noSlip
      next noOverflow =>
      rw [if_neg noOverflow] at isRead
      split at noSlip
      · cases noSlip
      next shortest =>
      rw [if_neg shortest] at isRead
      simp only [or_shiftLeft small] at isRead
      split at noSlip
      · next isLast =>
          rw [if_pos isLast, Nat.mod_eq_of_lt isLast] at isRead
          cases isRead
          refine ⟨byte.toNat, ?_, rfl, ?_⟩
          · cases 9 - k <;> simp [writeVarint, isLast]
          · intro notFirst isZero
            exact shortest ⟨UInt8.toNat_inj.mp isZero, by omega⟩
      · next continued =>
          have below := byte.toNat_lt
          have notTop : 7 * (k + 1) < bits := by
            by_contra isTop
            have atMost : 2 ^ (bits - 7 * k) ≤ 2 ^ 7 := Nat.pow_le_pow_right (by omega) (by omega)
            exact noOverflow ⟨by omega, by omega⟩
          have bound : i + byte.toNat % 128 * 2 ^ (7 * k) < 2 ^ (7 * (k + 1)) :=
            add_shift_lt small (Nat.mod_lt _ (by omega))
          rw [if_neg continued] at isRead
          obtain ⟨x, isBytes, isValue, notZero⟩ := inductionHypothesis notTop bound isRead noSlip
          have positive := notZero (Nat.succ_ne_zero k)
          have more : 9 - k = 9 - (k + 1) + 1 := by omega
          refine ⟨byte.toNat % 128 + 128 * x, ?_, ?_, by omega⟩
          · have low : (byte.toNat % 128 + 128 * x) % 128 + 128 = byte.toNat := by omega
            have high : (byte.toNat % 128 + 128 * x) / 128 = x := by omega
            rw [more, writeVarint, if_neg (by omega), low, high, UInt8.ofNat_toNat,
              List.cons_append, isBytes]
          · rw [isValue, Nat.mul_succ, Nat.pow_add]
            ring

instance (bits : ℕ) (isWidth) : Spelled Slip (varint bits isWidth) where
  slips := varintSlips bits 0
  slips_eq_nil_iff := by
    intro bytes v rest isRead
    have inDom := (varint bits isWidth).read_dom isRead
    have isRead : readVarint bits 0 0 bytes = (v, rest) := Option.some.inj isRead
    constructor
    · intro noSlip
      obtain ⟨x, isBytes, isValue, -⟩ :=
        @readVarint_of_slips bits 0 0 v bytes rest isWidth.2 isWidth.1
        (by simp) isRead noSlip
      rw [Nat.mul_zero, Nat.pow_zero, Nat.mul_one, Nat.zero_add] at isValue
      cases isValue
      exact ⟨rfl, isBytes.symm⟩
    · intro exact_
      have atMost : 2 ^ bits ≤ 2 ^ 64 := Nat.pow_le_pow_right (by omega) isWidth.2
      have inDom : v < 2 ^ bits := inDom
      rw [← exact_.2]
      exact varintSlips_writeVarint 9 inDom (by omega) (by simp) rest

instance : Spelled Slip varint8 :=
  Spelled.convert _ _ _ _ fun i inDom => by
    rw [UInt8.toNat_ofNat']
    exact congrArg some (Nat.mod_eq_of_lt inDom)

instance : Spelled Slip varint32 :=
  Spelled.convert _ _ _ _ fun i inDom => by
    rw [UInt32.toNat_ofNat']
    exact congrArg some (Nat.mod_eq_of_lt inDom)

instance : Spelled Slip varint64 :=
  Spelled.convert _ _ _ _ fun i inDom => by
    rw [UInt64.toNat_ofNat']
    exact congrArg some (Nat.mod_eq_of_lt inDom)

instance : Spelled Slip size := by
  delta size
  infer_instance

/-! ## Bytes that have one reading -/

theorem writeUint_of_readUint {width v : ℕ} {bytes rest : Bytes}
    (isRead : readUint width bytes = some (v, rest)) :
    writeUint width v ++ rest = bytes := by
  induction width generalizing bytes v with
  | zero =>
      cases isRead
      rfl
  | succ width inductionHypothesis =>
      cases bytes with
      | nil => cases isRead
      | cons byte bytes =>
          obtain ⟨⟨high, _⟩, isHigh, same⟩ := Option.map_eq_some_iff.mp isRead
          cases same
          have below := byte.toNat_lt
          have low : (byte.toNat + 256 * high) % 256 = byte.toNat := by omega
          have rest_ : (byte.toNat + 256 * high) / 256 = high := by omega
          rw [writeUint, low, rest_, UInt8.ofNat_toNat, List.cons_append,
            inductionHypothesis isHigh]

instance (width : ℕ) : Spelled Slip (uint width) where
  slips := fun _ => []
  slips_eq_nil_iff := fun isRead => iff_of_true rfl ⟨rfl, writeUint_of_readUint isRead⟩

instance : Spelled Slip uint8 :=
  Spelled.convert _ _ _ _ fun i inDom => by
    rw [UInt8.toNat_ofNat']
    exact congrArg some (Nat.mod_eq_of_lt inDom)

instance : Spelled Slip uint16 :=
  Spelled.convert _ _ _ _ fun i inDom => by
    rw [UInt16.toNat_ofNat']
    exact congrArg some (Nat.mod_eq_of_lt inDom)

instance : Spelled Slip uint32 :=
  Spelled.convert _ _ _ _ fun i inDom => by
    rw [UInt32.toNat_ofNat']
    exact congrArg some (Nat.mod_eq_of_lt inDom)

instance : Spelled Slip uint64 :=
  Spelled.convert _ _ _ _ fun i inDom => by
    rw [UInt64.toNat_ofNat']
    exact congrArg some (Nat.mod_eq_of_lt inDom)

instance (size : ℕ) : Spelled Slip (blob size) where
  slips := fun _ => []
  slips_eq_nil_iff := by
    intro bytes v rest isRead
    unfold blob at isRead
    dsimp only at isRead
    split at isRead
    · cases isRead
      exact iff_of_true rfl ⟨rfl, List.take_append_drop size bytes⟩
    · cases isRead

/-! ## Values that may be missing -/

def optionalSlips {α : Type*} (c : Codec α) [Spelled Slip c] : Bytes → List Slip
  | [] => []
  | isNone :: later =>
      if isNone = 0 then Spelled.slips c later else if isNone = 1 then [] else [.missingFlag]

instance {α : Type*} (c : Codec α) [Spelled Slip c] : Spelled Slip (optional c) where
  slips := optionalSlips c
  slips_eq_nil_iff := by
    intro bytes o rest isRead
    cases bytes with
    | nil => cases isRead
    | cons isNone later =>
        simp only [optional] at isRead
        split at isRead
        · next notZero =>
            cases isRead
            simp only [optionalSlips, if_neg notZero, Exact, optional, List.cons_append,
              List.nil_append, List.cons.injEq, and_true, true_and]
            split
            · next isOne => exact iff_of_true rfl isOne.symm
            · next other => exact iff_of_false (List.cons_ne_nil _ _) fun isOne => other isOne.symm
        · next isZero =>
            obtain ⟨⟨v, _⟩, readValue, same⟩ := Option.map_eq_some_iff.mp isRead
            cases same
            have isZero : isNone = 0 := not_not.mp isZero
            subst isZero
            rw [optionalSlips, if_pos rfl, Spelled.slips_eq_nil_iff readValue]
            simp [Exact, optional]

instance (lastVer : UInt8) : Spelled Slip (versionToMember lastVer) :=
  inferInstanceAs (Spelled Slip (varint8.accepted fun version => decide (version ≤ lastVer)))

/-! ## Records that are not kept as they are read -/

instance : Spelled Slip assetDescriptorBase := by
  delta assetDescriptorBase
  infer_instance

instance (closed) : Spelled Slip (assetDescriptorOperationV1.convert AssetDescriptorOperation.toV1
    AssetDescriptorOperationV1.toCurrent closed) :=
  Spelled.convert _ _ _ _ fun _ _ => rfl

/-- The version 0 of an asset operation is kept as 1. -/
def assetOperationVersionSlips (bytes : Bytes) : List Slip :=
  match (versionToMember 2).read bytes with
  | some (version, _) => if version = 0 then [.assetOperationVersion] else []
  | none => []

theorem assetOperation_version_iff {version : UInt8} {op : AssetDescriptorOperation}
    (inDom : (assetDescriptorOperationBody version).dom op) :
    op.version = version ↔ version ≠ 0 := by
  by_cases old : version < 2
  · simp only [assetDescriptorOperationBody, if_pos old] at inDom
    obtain ⟨v1, -, -, rfl⟩ := inDom
    have isOne : v1.toCurrent.version = 1 := rfl
    rw [isOne]
    constructor
    · rintro rfl
      decide
    · intro notZero
      have low := UInt8.lt_iff_toNat_lt.mp old
      have high : version.toNat ≠ 0 := fun isZero => notZero (UInt8.toNat_inj.mp isZero)
      apply UInt8.toNat_inj.mp
      change 1 = version.toNat
      change version.toNat < 2 at low
      omega
  · simp only [assetDescriptorOperationBody, if_neg old] at inDom
    obtain ⟨v, -, -, rfl⟩ := inDom
    apply iff_of_true rfl
    rintro rfl
    exact old (by decide)

instance : Spelled Slip assetDescriptorOperation :=
  Spelled.convertUnless ((versionToMember 2).dep assetDescriptorOperationBody)
    _ _ _ assetOperationVersionSlips (by
    intro bytes pair rest isRead
    obtain ⟨⟨version, later⟩, readFirst, readRest⟩ := Option.bind_eq_some_iff.mp isRead
    obtain ⟨⟨op, _⟩, readBody, same⟩ := Option.map_eq_some_iff.mp readRest
    cases same
    have kept :=
      assetOperation_version_iff ((assetDescriptorOperationBody version).read_dom readBody)
    rw [assetOperationVersionSlips, readFirst, Option.some.injEq, Prod.mk.injEq,
      and_iff_left rfl, kept]
    simp)

/-- What a gateway input is written as. -/
abbrev txinGatewayFields : Codec (UInt8 × PublicKey × PublicKey × UInt64 × UInt8) :=
  (varint8.check fun version => decide (version ≤ 0)).seq (key.seq (key.seq (varint64.seq varint8)))

/-- The second version of a gateway input is the one that is kept, and the writer checks it. -/
def secondGatewayVersionSlips (bytes : Bytes) : List Slip :=
  match txinGatewayFields.read bytes with
  | some ((_, _, _, _, version), _) => if version = 0 then [] else [.secondGatewayVersion]
  | none => []

instance : Spelled Slip txinGateway :=
  Spelled.convertUnless txinGatewayFields _ _ _ secondGatewayVersionSlips (by
    intro bytes fields rest isRead
    obtain ⟨first, addr, asset, amount, second⟩ := fields
    have slip : secondGatewayVersionSlips bytes = if second = 0 then []
      else [.secondGatewayVersion] := by
      rw [secondGatewayVersionSlips, isRead]
    obtain ⟨⟨version, later⟩, readFirst, readRest⟩ := Option.bind_eq_some_iff.mp isRead
    obtain ⟨⟨others, _⟩, -, same⟩ := Option.map_eq_some_iff.mp readRest
    cases same
    have isZero : first = 0 := UInt8.le_zero_iff.mp (of_decide_eq_true (read_of_check readFirst).2)
    subst isZero
    rw [slip]
    simp)

/-! ## The whole transaction -/

instance : Spelled Slip txinV := by
  delta txinV
  infer_instance

instance (c : Codec (List TxOutVV1)) [Spelled Slip c] (closed) :
    Spelled Slip (c.convert (List.mapM TxOutV.toV1) (List.map TxOutVV1.toCurrent) closed) :=
  Spelled.convert _ _ _ _ fun vout _ =>
    mapM_map TxOutV.toV1 TxOutVV1.toCurrent TxOutVV1.toV1_toCurrent vout

set_option synthInstance.maxSize 1000 in
instance : Spelled Slip payloadItemsV := by
  delta payloadItemsV
  infer_instance

instance : Spelled Slip signatureV := by
  delta signatureV
  infer_instance

instance : Spelled Slip proofV := by
  delta proofV
  infer_instance

instance (version : UInt64) (closed) :
    Spelled Slip (transactionPrefixV1.convert TransactionPrefix.toV1
    (TransactionPrefixV1.toCurrent version) closed) :=
  Spelled.convert _ _ _ _ fun tx _ => tx.toV1_toCurrent version

instance (version : UInt64) : Spelled Slip (transactionPrefixBody version) := by
  delta transactionPrefixBody
  infer_instance

instance : Spelled Slip transactionPrefix :=
  Spelled.convert
    ((varint64.accepted fun version => decide (version ≤ 4)).dep transactionPrefixBody) _ _ _
    (by
      intro pair inDom
      have same := version_of_transactionPrefixBody inDom.2
      rw [same])

instance (c : Codec (List (List Signature) × List PayloadItemsV)) [Spelled Slip c] (closed) :
    Spelled Slip (c.convert tailToV1 tailOfV1 closed) :=
  Spelled.convert _ _ _ _ fun v1 _ => tailToV1_tailOfV1 v1

instance (version : UInt64) : Spelled Slip (transactionTail version) := by
  delta transactionTail
  infer_instance

instance : Spelled Slip transaction := by
  delta transaction
  infer_instance

/-- The slips of a transaction blob. -/
def slips (txBlob : Bytes) : List Slip := Spelled.slips transaction txBlob

/-- The blob is what the writer leaves for the transaction. -/
def Canonical (txBlob : Bytes) (tx : Transaction) : Prop := transaction.write tx = (txBlob, true)

theorem read_of_parse {txBlob : Bytes} {tx : Transaction}
    (parsed : parseAndValidateTxFromBlob txBlob = some tx) :
    transaction.read txBlob = some (tx, []) := by
  unfold parseAndValidateTxFromBlob at parsed
  split at parsed
  · next isRead =>
      cases parsed
      exact isRead
  · cases parsed

/-- A blob that is accepted is canonical exactly when its reader meets no slip. -/
theorem canonical_iff (txBlob : Bytes) (tx : Transaction)
    (parsed : parseAndValidateTxFromBlob txBlob = some tx) :
    Canonical txBlob tx ↔ slips txBlob = [] := by
  rw [slips, Spelled.slips_eq_nil_iff (read_of_parse parsed), Exact, List.append_nil, Canonical,
    Prod.ext_iff]
  exact and_comm

theorem canonical_gateway : Canonical (gatewayBlob 0 6) (gatewayTransaction 0 6) :=
  (canonical_iff (gatewayBlob 0 6) _ rfl).mpr (by decide)

/-- A transaction without inputs, whose number of inputs is spelled with one byte or with two. -/
theorem padded_number_accepted :
    ¬∀ txBlob tx, parseAndValidateTxFromBlob txBlob = some tx → Canonical txBlob tx := by
  intro canonical
  have long := canonical [4, 0x80, 0, 0, 0, 6, 0, 0, 0] ⟨⟨4, 6, [], [], []⟩, [], [], []⟩ rfl
  have written :
      transaction.write ⟨⟨4, 6, [], [], []⟩, [], [], []⟩ = ([4, 0, 0, 0, 6, 0, 0, 0], true) := rfl
  have same := congrArg Prod.fst (written.symm.trans long)
  revert same
  decide

end Zano.Serialization
