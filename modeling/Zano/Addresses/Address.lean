import Zano.Addresses.Base58
import Zano.Serialization.Payload

/-! # Texts of addresses

An address is a tag, written as a varint, the bytes of the address and four bytes of a hash of both,
all in base58. The varint reader takes the end of the input for the end of the number, so a tag that
is cut off is accepted with no data. No other text is accepted that is not the text of what is read
from it.
-/

namespace Zano.Addresses

open Serialization (writeVarint or_shiftLeft add_shift_lt writeVarint_ne_nil Hash)

def addrChecksumSize : ℕ := 4

/-- `tools::read_varint`, with what has been read so far. The number of bytes read is
negative for an error. -/
def readVarint (bits : ℕ) : ℕ → ℤ → ℕ → Bytes → ℤ × ℕ
  | _, read, i, [] => (read, i)
  | shift, read, i, byte :: bytes =>
      if bits ≤ shift + 7 ∧ 2 ^ (bits - shift) ≤ byte.toNat then (-1, i)
      else if byte = 0 ∧ shift ≠ 0 then (-2, i)
      else
        let next := i ||| (byte.toNat % 128) <<< shift
        if byte.toNat < 128 then (read + 1, next)
        else readVarint bits (shift + 7) (read + 1) next bytes

section

variable (cnFastHash : Bytes → Hash)

def checksum (buf : Bytes) : Bytes := (cnFastHash buf).bytes.take addrChecksumSize

def encodeAddr (tag : UInt64) (data : Bytes) : Bytes :=
  let buf := writeVarint 9 tag.toNat ++ data
  encode (buf ++ checksum cnFastHash buf)

def decodeAddr (addr : Bytes) : Option (UInt64 × Bytes) :=
  match decode addr with
  | none => none
  | some addrData =>
      if addrData.length ≤ addrChecksumSize then none
      else
        let payload := addrData.take (addrData.length - addrChecksumSize)
        if checksum cnFastHash payload ≠
          addrData.drop (addrData.length - addrChecksumSize) then none
        else
          let (read, tag) := readVarint 64 0 0 0 payload
          if read ≤ 0 then none else some (UInt64.ofNat tag, payload.drop read.toNat)

end

/-! ## The tag -/

theorem writeVarint_small (more : ℕ) {byte : UInt8} (isLast : byte.toNat < 128) :
    writeVarint more byte.toNat = [byte] := by
  cases more with
  | zero => simp [writeVarint]
  | succ more => simp [writeVarint, isLast]

/-- What is read is a number that was written, or the input ends with a byte that is continued.
Seven bits have been read in each of `k` bytes before. -/
theorem readVarint_cases {k : ℕ} {read code : ℤ} {i v : ℕ} {bytes : Bytes} (notLong : k ≤ 9)
    (small : i < 2 ^ (7 * k)) (isRead : readVarint 64 (7 * k) read i bytes = (code, v))
    (accepted : 0 < code) :
    (∃ x rest, bytes = writeVarint (9 - k) x ++ rest ∧ v = i + x * 2 ^ (7 * k) ∧
        code = read + (writeVarint (9 - k) x).length ∧ (k ≠ 0 → x ≠ 0) ∧ x < 2 ^ (64 - 7 * k)) ∨
      (∀ byte ∈ bytes, 128 ≤ byte.toNat) ∧ bytes.length ≤ 9 - k ∧ code = read + bytes.length := by
  induction bytes generalizing k read i with
  | nil =>
      rw [readVarint] at isRead
      cases isRead
      exact Or.inr (by simp)
  | cons byte bytes inductionHypothesis =>
      rw [readVarint] at isRead
      split at isRead
      · cases isRead
        omega
      next noOverflow =>
      split at isRead
      · cases isRead
        omega
      next shortest =>
      simp only [or_shiftLeft small] at isRead
      split at isRead
      · next isLast =>
          left
          cases isRead
          refine ⟨byte.toNat, bytes, ?_, ?_, ?_, ?_, ?_⟩
          · rw [writeVarint_small _ isLast]
            rfl
          · rw [Nat.mod_eq_of_lt isLast]
          · rw [writeVarint_small _ isLast]
            rfl
          · intro notFirst isZero
            exact shortest ⟨UInt8.toNat_inj.mp isZero, by omega⟩
          · by_cases isTop : 64 ≤ 7 * k + 7
            · by_contra high
              exact noOverflow ⟨isTop, Nat.le_of_not_lt high⟩
            · calc byte.toNat < 2 ^ 7 := isLast
                _ ≤ 2 ^ (64 - 7 * k) := Nat.pow_le_pow_right (by omega) (by omega)
      · next continued =>
          have notTop : k < 9 := by
            by_contra isTop
            obtain rfl : k = 9 := by omega
            exact noOverflow ⟨by omega, by omega⟩
          have bound : i + byte.toNat % 128 * 2 ^ (7 * k) < 2 ^ (7 * (k + 1)) :=
            add_shift_lt small (Nat.mod_lt _ (by omega))
          have here : 128 ≤ byte.toNat := by omega
          have below := byte.toNat_lt
          cases inductionHypothesis (by omega) bound isRead with
          | inr cutOff =>
              obtain ⟨all, length, isCode⟩ := cutOff
              right
              refine ⟨List.forall_mem_cons.mpr ⟨here, all⟩, ?_, ?_⟩
              · rw [List.length_cons]
                omega
              · rw [isCode, List.length_cons]
                omega
          | inl written =>
              obtain ⟨x, rest, isBytes, isValue, isCode, notZero, fits⟩ := written
              have positive := notZero (Nat.succ_ne_zero k)
              have more : 9 - k = 9 - (k + 1) + 1 := by omega
              have whole : writeVarint (9 - k) (byte.toNat % 128 + 128 * x) =
                  byte :: writeVarint (9 - (k + 1)) x := by
                have low : (byte.toNat % 128 + 128 * x) % 128 + 128 = byte.toNat := by omega
                have high : (byte.toNat % 128 + 128 * x) / 128 = x := by omega
                rw [more, writeVarint, if_neg (by omega), low, high, UInt8.ofNat_toNat]
              left
              refine ⟨byte.toNat % 128 + 128 * x, rest, ?_, ?_, ?_, ?_, ?_⟩
              · rw [whole, isBytes, List.cons_append]
              · rw [isValue, show 7 * (k + 1) = 7 * k + 7 by omega, Nat.pow_add]
                ring
              · rw [isCode, whole, List.length_cons]
                omega
              · omega
              · have seven : 2 ^ (64 - 7 * k) = 2 ^ (64 - 7 * (k + 1)) * 2 ^ 7 := by
                  rw [← Nat.pow_add]
                  congr 1
                  omega
                omega

theorem readVarint_last {k : ℕ} {read : ℤ} {i x : ℕ} (small : i < 2 ^ (7 * k))
    (fits : x < 2 ^ (64 - 7 * k)) (isLast : x < 128) (shortest : k ≠ 0 → x ≠ 0) (rest : Bytes) :
    readVarint 64 (7 * k) read i (UInt8.ofNat x :: rest) = (read + 1, i + x * 2 ^ (7 * k)) := by
  have byte : (UInt8.ofNat x).toNat = x := by
    rw [UInt8.toNat_ofNat']
    omega
  have notPadded : ¬(UInt8.ofNat x = 0 ∧ 7 * k ≠ 0) := by
    intro padded
    have isZero := congrArg UInt8.toNat padded.1
    rw [byte] at isZero
    exact shortest (by omega) isZero
  rw [readVarint, byte, if_neg (by omega), if_neg notPadded]
  simp only [Nat.mod_eq_of_lt isLast, or_shiftLeft small, if_pos isLast]

/-- A number that was written is read. -/
theorem readVarint_writeVarint {more k i x : ℕ} (read : ℤ) (all : k + more = 9)
    (small : i < 2 ^ (7 * k)) (fits : x < 2 ^ (64 - 7 * k)) (shortest : k ≠ 0 → x ≠ 0)
    (rest : Bytes) :
    readVarint 64 (7 * k) read i (writeVarint more x ++ rest) =
      (read + (writeVarint more x).length, i + x * 2 ^ (7 * k)) := by
  induction more generalizing k read i x with
  | zero =>
      obtain rfl : k = 9 := by omega
      exact readVarint_last small fits (by omega) shortest rest
  | succ more inductionHypothesis =>
      by_cases isLast : x < 128
      · rw [writeVarint, if_pos isLast]
        exact readVarint_last small fits isLast shortest rest
      · have byte : (UInt8.ofNat (x % 128 + 128)).toNat = x % 128 + 128 := by
          rw [UInt8.toNat_ofNat']
          omega
        have notPadded : ¬(UInt8.ofNat (x % 128 + 128) = 0 ∧ 7 * k ≠ 0) := by
          intro padded
          have isZero := congrArg UInt8.toNat padded.1
          rw [byte, UInt8.toNat_zero] at isZero
          omega
        have bound : i + x % 128 * 2 ^ (7 * k) < 2 ^ (7 * (k + 1)) :=
          add_shift_lt small (Nat.mod_lt _ (by omega))
        have seven : 2 ^ (64 - 7 * k) = 2 ^ (64 - 7 * (k + 1)) * 2 ^ 7 := by
          rw [← Nat.pow_add]
          congr 1
          omega
        have payload : (x % 128 + 128) % 128 = x % 128 := by omega
        have later :=
          @inductionHypothesis (k + 1) _ (x / 128) (read + 1) (by omega) bound (by omega)
          (by omega)
        rw [writeVarint, if_neg isLast, List.cons_append, readVarint, byte, if_neg (by omega),
          if_neg notPadded, payload]
        simp only [or_shiftLeft small]
        rw [if_neg (by omega), show 7 * k + 7 = 7 * (k + 1) by omega, later, List.length_cons]
        apply Prod.ext
        · simp only
          omega
        · simp only
          conv_rhs => rw [← Nat.div_add_mod x 128]
          rw [show 7 * (k + 1) = 7 * k + 7 by omega, Nat.pow_add]
          ring

/-- Bytes that are all continued are read to their end. -/
theorem readVarint_cutOff {k : ℕ} (read : ℤ) (i : ℕ) {bytes : Bytes} (short : k + bytes.length ≤ 9)
    (all : ∀ byte ∈ bytes, 128 ≤ byte.toNat) :
    (readVarint 64 (7 * k) read i bytes).1 = read + bytes.length := by
  induction bytes generalizing k read i with
  | nil => simp [readVarint]
  | cons byte bytes inductionHypothesis =>
      obtain ⟨here, later⟩ := List.forall_mem_cons.mp all
      rw [List.length_cons] at short
      have notPadded : ¬(byte = 0 ∧ 7 * k ≠ 0) := by
        intro padded
        rw [padded.1, UInt8.toNat_zero] at here
        omega
      have rest := @inductionHypothesis (k + 1) (read + 1) (i ||| (byte.toNat % 128) <<< (7 * k))
        (by omega) later
      rw [readVarint, if_neg, if_neg notPadded]
      · simp only
        rw [if_neg (by omega), show 7 * k + 7 = 7 * (k + 1) by omega, rest, List.length_cons]
        omega
      · intro overflow
        have below := byte.toNat_lt
        have high : 2 ^ 8 ≤ 2 ^ (64 - 7 * k) := Nat.pow_le_pow_right (by omega) (by omega)
        omega

/-! ## The texts that are accepted -/

variable (cnFastHash : Bytes → Hash)

theorem length_checksum (buf : Bytes) : (checksum cnFastHash buf).length = addrChecksumSize := by
  rw [checksum, List.length_take, (cnFastHash buf).length_eq]
  rfl

/-- What follows a text that decodes to a payload with its checksum. -/
theorem decodeAddr_of_decode {text payload : Bytes}
    (decodes : decode text = some (payload ++ checksum cnFastHash payload))
    (notEmpty : payload ≠ []) :
    decodeAddr cnFastHash text =
      if (readVarint 64 0 0 0 payload).1 ≤ 0 then none
      else some (UInt64.ofNat (readVarint 64 0 0 0 payload).2,
        payload.drop (readVarint 64 0 0 0 payload).1.toNat) := by
  have length := length_checksum cnFastHash payload
  have positive := List.length_pos_iff.mpr notEmpty
  have size :
      (payload ++ checksum cnFastHash payload).length - addrChecksumSize = payload.length := by
    rw [List.length_append, length, Nat.add_sub_cancel]
  rw [decodeAddr, decodes]
  dsimp only
  rw [if_neg (by rw [List.length_append, length]; omega), size, List.take_left' rfl,
    List.drop_left' rfl, if_neg (not_not_intro rfl)]

/-- A text is accepted only if it decodes to a payload with its checksum. -/
theorem payload_of_decodeAddr {text : Bytes} {result : UInt64 × Bytes}
    (accepted : decodeAddr cnFastHash text = some result) :
    ∃ payload, decode text = some (payload ++ checksum cnFastHash payload) ∧ payload ≠ [] := by
  rw [decodeAddr] at accepted
  split at accepted
  · contradiction
  next addrData decodes =>
  split at accepted
  · contradiction
  next longer =>
  dsimp only at accepted
  split at accepted
  · contradiction
  next matches_ =>
  refine ⟨addrData.take (addrData.length - addrChecksumSize), ?_, ?_⟩
  · rw [not_not.mp matches_, List.take_append_drop, decodes]
  · intro isEmpty
    have length := congrArg List.length isEmpty
    rw [List.length_take, List.length_nil] at length
    omega

theorem decodeAddr_encodeAddr (tag : UInt64) (data : Bytes) :
    decodeAddr cnFastHash (encodeAddr cnFastHash tag data) = some (tag, data) := by
  have isRead :=
    @readVarint_writeVarint 9 0 0 tag.toNat 0 rfl (by omega) tag.toNat_lt (by simp) data
  have notNil := writeVarint_ne_nil 9 tag.toNat
  have positive := List.length_pos_iff.mpr notNil
  simp only [Nat.mul_zero, Nat.pow_zero, Nat.mul_one, zero_add] at isRead
  rw [encodeAddr,
    decodeAddr_of_decode cnFastHash (decode_encode _) (List.append_ne_nil_of_left_ne_nil notNil _),
    isRead]
  rw [if_neg (by simp only; omega)]
  simp

/-- A text whose payload ends within the tag. -/
def IsCutOff (text : Bytes) : Prop :=
  ∃ payload, decode text = some (payload ++ checksum cnFastHash payload) ∧ payload ≠ [] ∧
    payload.length ≤ 9 ∧
    ∀ byte ∈ payload, 128 ≤ byte.toNat

theorem exists_last_of_writeVarint {more x : ℕ} (enough : x < 128 ^ (more + 1)) :
    ∃ byte ∈ writeVarint more x, byte.toNat < 128 := by
  induction more generalizing x with
  | zero =>
      refine ⟨UInt8.ofNat x, by simp [writeVarint], ?_⟩
      rw [UInt8.toNat_ofNat']
      omega
  | succ more inductionHypothesis =>
      rw [writeVarint]
      split
      · next isLast =>
          refine ⟨UInt8.ofNat x, List.mem_singleton_self _, ?_⟩
          rw [UInt8.toNat_ofNat']
          omega
      · obtain ⟨byte, inside, isLast⟩ :=
          @inductionHypothesis (x / 128) (by rw [Nat.pow_succ] at enough; omega)
        exact ⟨byte, List.mem_cons_of_mem _ inside, isLast⟩

/-- A text that is accepted is the text of what is read from it, unless it is cut off. -/
theorem encodeAddr_of_decodeAddr {text data : Bytes} {tag : UInt64}
    (notCutOff : ¬IsCutOff cnFastHash text)
    (accepted : decodeAddr cnFastHash text = some (tag, data)) :
    encodeAddr cnFastHash tag data = text := by
  obtain ⟨payload, decodes, notEmpty⟩ := payload_of_decodeAddr cnFastHash accepted
  rw [decodeAddr_of_decode cnFastHash decodes notEmpty] at accepted
  split at accepted
  · contradiction
  next positive =>
  obtain ⟨isTag, isData⟩ := Prod.mk.inj (Option.some.inj accepted)
  have cases_ :=
    readVarint_cases (k := 0) (i := 0) (Nat.zero_le 9) (by simp) rfl (not_le.mp positive)
  cases cases_ with
  | inr cutOff => exact absurd ⟨payload, decodes, notEmpty, cutOff.2.1, cutOff.1⟩ notCutOff
  | inl written =>
      obtain ⟨x, rest, isPayload, isValue, isCode, -, fits⟩ := written
      simp only [Nat.mul_zero, Nat.pow_zero, Nat.mul_one, zero_add,
        Nat.sub_zero] at isPayload isValue isCode fits
      have isX : tag.toNat = x := by
        rw [← isTag, isValue, UInt64.toNat_ofNat']
        exact Nat.mod_eq_of_lt fits
      have isRest : data = rest := by
        rw [← isData, isCode, Int.toNat_natCast, isPayload, List.drop_left' rfl]
      rw [encodeAddr, isX, isRest, ← isPayload]
      exact encode_of_decode decodes

/-- A text that is cut off is accepted, but it is the text of no address. -/
theorem decodeAddr_of_isCutOff {text : Bytes} (isCutOff : IsCutOff cnFastHash text) :
    (∃ tag, decodeAddr cnFastHash text = some (tag, [])) ∧
      ∀ tag data, encodeAddr cnFastHash tag data ≠ text := by
  obtain ⟨payload, decodes, notEmpty, short, all⟩ := isCutOff
  have code := readVarint_cutOff 0 0 (show 0 + payload.length ≤ 9 by omega) all
  simp only [Nat.mul_zero, zero_add] at code
  have positive := List.length_pos_iff.mpr notEmpty
  constructor
  · refine ⟨UInt64.ofNat (readVarint 64 0 0 0 payload).2, ?_⟩
    rw [decodeAddr_of_decode cnFastHash decodes notEmpty, code, if_neg (by omega),
      Int.toNat_natCast, List.drop_length]
  · intro tag data isText
    have same := decode_encode
      (writeVarint 9 tag.toNat ++ data ++ checksum cnFastHash (writeVarint 9 tag.toNat ++ data))
    rw [← encodeAddr, isText, decodes] at same
    have isPayload :=
      (List.append_inj' (Option.some.inj same) (by rw [length_checksum, length_checksum])).1
    obtain ⟨byte, inside, isLast⟩ :=
      @exists_last_of_writeVarint 9 tag.toNat (by have := tag.toNat_lt; omega)
    have continued := all byte (isPayload ▸ List.mem_append_left _ inside)
    omega

/-- Addresses are read back from their texts, and so are bytes in base58; base58 accepts
nothing else, and a text of an address that is accepted is the text of what is read exactly
when it is not cut off. -/
theorem texts_canonical :
    (∀ tag data, decodeAddr cnFastHash (encodeAddr cnFastHash tag data) = some (tag, data)) ∧
      (∀ data, decode (encode data) = some data) ∧
        (∀ enc data, decode enc = some data ↔ encode data = enc) ∧
          ∀ text, (∀ tag data, decodeAddr cnFastHash text = some (tag, data) →
            encodeAddr cnFastHash tag data = text) ↔
            ¬IsCutOff cnFastHash text := by
  refine ⟨decodeAddr_encodeAddr cnFastHash, decode_encode, fun enc data => ?_, fun text => ?_⟩
  · constructor
    · exact encode_of_decode
    · intro isText
      rw [← isText]
      exact decode_encode data
  · constructor
    · intro canonical isCutOff
      obtain ⟨⟨tag, accepted⟩, notText⟩ := decodeAddr_of_isCutOff cnFastHash isCutOff
      exact notText tag [] (canonical tag [] accepted)
    · intro notCutOff tag data accepted
      exact encodeAddr_of_decodeAddr cnFastHash notCutOff accepted

private def zeroHash (_ : Bytes) : Hash := Serialization.nullPkey

/-- The texts of the tag 0 and of a tag that is cut off after its first byte are both read as tag 0
without data. -/
theorem cut_off_tag_accepted :
    ¬∀ (cnFastHash : Bytes → Hash) (text : Bytes) (tag : UInt64) (data : Bytes),
      decodeAddr cnFastHash text = some (tag, data) → encodeAddr cnFastHash tag data = text := by
  intro canonical
  have same := canonical zeroHash (encode [0x80, 0, 0, 0, 0]) 0 [] (by decide)
  exact absurd same (by decide)

end Zano.Addresses
