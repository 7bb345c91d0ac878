import Mathlib
import Zano.Lib.Codec

/-! # The binary archive

`binary_archive<false>` and `binary_archive<true>` with the serializers of the basic types and
containers, as codecs. A reader that leaves the stream in a failed state has failed: the state is
tested before a value is accepted and nothing resets it.

The one reader that never fails is that of a varint. What `read_varint` says about an overflow,
about a form that is not the shortest and about the end of the input is dropped, and the bits read
so far are the value.
-/

namespace Zano.Serialization

/-! ## Varints -/

/-- `read_varint`, from this shift on. -/
def readVarint (bits : Nat) : Nat → Nat → Bytes → Nat × Bytes
  | _, i, [] => (i, [])
  | shift, i, byte :: rest =>
      if bits ≤ shift + 7 ∧ 2 ^ (bits - shift) ≤ byte.toNat then (i, rest)
      else if byte = 0 ∧ shift ≠ 0 then (i, rest)
      else
        let next := i ||| (byte.toNat % 128) <<< shift
        if byte.toNat < 128 then (next, rest) else readVarint bits (shift + 7) next rest

/-- `write_varint`, with a bound on the number of bytes that are continued. -/
def writeVarint : Nat → Nat → Bytes
  | 0, i => [UInt8.ofNat i]
  | more + 1, i =>
      if i < 128 then [UInt8.ofNat i] else UInt8.ofNat (i % 128 + 128) :: writeVarint more (i / 128)

theorem or_shiftLeft {i shift : Nat} (small : i < 2 ^ shift) (x : Nat) :
    i ||| x <<< shift = i + x * 2 ^ shift := by
  rw [Nat.or_comm, ← Nat.shiftLeft_add_eq_or_of_lt small, Nat.shiftLeft_eq, Nat.add_comm]

theorem add_shift_lt {i shift x more : Nat} (small : i < 2 ^ shift) (fits : x < 2 ^ more) :
    i + x * 2 ^ shift < 2 ^ (shift + more) := by
  have next : (x + 1) * 2 ^ shift ≤ 2 ^ more * 2 ^ shift := Nat.mul_le_mul_right _ fits
  rw [Nat.pow_add, Nat.mul_comm (2 ^ shift)]
  calc i + x * 2 ^ shift < 2 ^ shift + x * 2 ^ shift := Nat.add_lt_add_right small _
    _ = (x + 1) * 2 ^ shift := by rw [Nat.add_mul, Nat.one_mul, Nat.add_comm]
    _ ≤ 2 ^ more * 2 ^ shift := next

theorem readVarint_lt {bits shift i : Nat} (started : shift < bits) (small : i < 2 ^ shift)
    (bytes : Bytes) :
    (readVarint bits shift i bytes).1 < 2 ^ bits := by
  induction bytes generalizing shift i with
  | nil => exact small.trans (Nat.pow_lt_pow_right (by omega) started)
  | cons byte rest inductionHypothesis =>
      have fits : i < 2 ^ bits := small.trans (Nat.pow_lt_pow_right (by omega) started)
      rw [readVarint]
      split
      · exact fits
      split
      · exact fits
      rename_i noOverflow _
      simp only [or_shiftLeft small]
      by_cases isTop : bits ≤ shift + 7
      · have low : byte.toNat < 2 ^ (bits - shift) := by
          by_contra high
          exact noOverflow ⟨isTop, Nat.le_of_not_lt high⟩
        have atMost : 2 ^ (bits - shift) ≤ 2 ^ 7 := Nat.pow_le_pow_right (by omega) (by omega)
        have isLast : byte.toNat < 128 := by omega
        have bound := add_shift_lt small (Nat.lt_of_le_of_lt (Nat.mod_le byte.toNat 128) low)
        rw [if_pos isLast]
        rwa [Nat.add_sub_cancel' started.le] at bound
      · have bound : i + byte.toNat % 128 * 2 ^ shift < 2 ^ (shift + 7) :=
          add_shift_lt small (Nat.mod_lt _ (by omega))
        split
        · exact bound.trans (Nat.pow_lt_pow_right (by omega) (by omega))
        · exact inductionHypothesis (by omega) bound

theorem readVarint_last {bits shift read i : Nat} (small : read < 2 ^ shift)
    (fits : i < 2 ^ (bits - shift)) (isLast : i < 128) (shortest : shift ≠ 0 → i ≠ 0)
    (rest : Bytes) :
    readVarint bits shift read (UInt8.ofNat i :: rest) = (read + i * 2 ^ shift, rest) := by
  have byte : (UInt8.ofNat i).toNat = i := by
    rw [UInt8.toNat_ofNat']
    omega
  have noOverflow : ¬(bits ≤ shift + 7 ∧ 2 ^ (bits - shift) ≤ i) := by omega
  have notPadded : ¬(UInt8.ofNat i = 0 ∧ shift ≠ 0) := by
    intro ⟨isZero, later⟩
    have same := congrArg UInt8.toNat isZero
    rw [byte] at same
    exact shortest later same
  rw [readVarint, byte, if_neg noOverflow, if_neg notPadded]
  simp only [Nat.mod_eq_of_lt isLast, or_shiftLeft small, if_pos isLast]

/-- The induction is on the number of bytes: each step moves seven bits from the number
to the ones read. -/
theorem readVarint_writeVarint (more : Nat) {bits shift read i : Nat} (started : shift < bits)
    (small : read < 2 ^ shift) (fits : i < 2 ^ (bits - shift)) (enough : i < 128 ^ (more + 1))
    (shortest : shift ≠ 0 → i ≠ 0) (rest : Bytes) :
    readVarint bits shift read (writeVarint more i ++ rest) = (read + i * 2 ^ shift, rest) := by
  induction more generalizing shift read i with
  | zero => exact readVarint_last small fits (by omega) shortest rest
  | succ more inductionHypothesis =>
      by_cases isLast : i < 128
      · rw [writeVarint, if_pos isLast]
        exact readVarint_last small fits isLast shortest rest
      · have byte : (UInt8.ofNat (i % 128 + 128)).toNat = i % 128 + 128 := by
          rw [UInt8.toNat_ofNat']
          omega
        have notTop : ¬bits ≤ shift + 7 := by
          intro isTop
          have atMost : 2 ^ (bits - shift) ≤ 2 ^ 7 := Nat.pow_le_pow_right (by omega) (by omega)
          omega
        have notPadded : ¬(UInt8.ofNat (i % 128 + 128) = 0 ∧ shift ≠ 0) := by
          intro ⟨isZero, _⟩
          have same := congrArg UInt8.toNat isZero
          rw [byte, UInt8.toNat_zero] at same
          omega
        have seven : 2 ^ (bits - shift) = 2 ^ (bits - (shift + 7)) * 128 := by
          rw [show bits - shift = bits - (shift + 7) + 7 by omega, Nat.pow_add]
        have payload : (i % 128 + 128) % 128 = i % 128 := by omega
        have laterFits : i / 128 < 2 ^ (bits - (shift + 7)) := by omega
        have laterEnough : i / 128 < 128 ^ (more + 1) := by
          rw [Nat.pow_succ] at enough
          omega
        have bound : read + i % 128 * 2 ^ shift < 2 ^ (shift + 7) :=
          add_shift_lt small (Nat.mod_lt _ (by omega))
        have shifted :
            read + i % 128 * 2 ^ shift + i / 128 * 2 ^ (shift + 7) = read + i * 2 ^ shift := by
          conv_rhs => rw [← Nat.div_add_mod i 128]
          ring
        rw [writeVarint, if_neg isLast, List.cons_append, readVarint, byte,
          if_neg fun overflow => notTop overflow.1, if_neg notPadded, payload]
        simp only [or_shiftLeft small]
        rw [if_neg (by omega),
          inductionHypothesis (by omega) bound laterFits laterEnough (by omega), shifted]

/-- `serialize_varint` for a type of this many bits. -/
def varint (bits : Nat) (isWidth : 0 < bits ∧ bits ≤ 64) : Codec Nat where
  write := fun i => (writeVarint 9 i, true)
  read := fun bytes => some (readVarint bits 0 0 bytes)
  dom := fun i => i < 2 ^ bits
  read_dom := by
    intro bytes v rest isRead
    have bound := readVarint_lt isWidth.1 Nat.one_pos bytes
    rw [Option.some.inj isRead] at bound
    exact bound
  read_write := by
    intro v inDom rest
    have atMost : 2 ^ bits ≤ 2 ^ 64 := Nat.pow_le_pow_right (by omega) isWidth.2
    have isRead := readVarint_writeVarint 9 isWidth.1 Nat.one_pos inDom (by omega) (by simp) rest
    simp only [isRead, Nat.pow_zero, Nat.mul_one, Nat.zero_add, if_true]

theorem writeVarint_ne_nil (more i : Nat) : writeVarint more i ≠ [] := by
  cases more with
  | zero => exact List.cons_ne_nil _ _
  | succ more =>
      rw [writeVarint]
      split <;> exact List.cons_ne_nil _ _

instance (bits : Nat) (isWidth) : (varint bits isWidth).Whole where
  ended := fun _ => rfl

def varint8 : Codec UInt8 :=
  (varint 8 (by omega)).convert (fun v => some v.toNat) UInt8.ofNat fun i inDom => by
    refine ⟨i, ?_, inDom, rfl⟩
    rw [UInt8.toNat_ofNat']
    exact congrArg some (Nat.mod_eq_of_lt inDom)

def varint32 : Codec UInt32 :=
  (varint 32 (by omega)).convert (fun v => some v.toNat) UInt32.ofNat fun i inDom => by
    refine ⟨i, ?_, inDom, rfl⟩
    rw [UInt32.toNat_ofNat']
    exact congrArg some (Nat.mod_eq_of_lt inDom)

def varint64 : Codec UInt64 :=
  (varint 64 (by omega)).convert (fun v => some v.toNat) UInt64.ofNat fun i inDom => by
    refine ⟨i, ?_, inDom, rfl⟩
    rw [UInt64.toNat_ofNat']
    exact congrArg some (Nat.mod_eq_of_lt inDom)

instance : varint8.Whole := by
  unfold varint8
  infer_instance

instance : varint32.Whole := by
  unfold varint32
  infer_instance

instance : varint64.Whole := by
  unfold varint64
  infer_instance

instance : varint64.Marked where
  write_ne_nil := fun v => writeVarint_ne_nil 9 v.toNat

/-! ## Integers of a fixed width -/

def writeUint : Nat → Nat → Bytes
  | 0, _ => []
  | width + 1, v => UInt8.ofNat (v % 256) :: writeUint width (v / 256)

def readUint : Nat → Bytes → Option (Nat × Bytes)
  | 0, bytes => some (0, bytes)
  | _ + 1, [] => none
  | width + 1, byte :: bytes =>
      (readUint width bytes).map fun (v, rest) => (byte.toNat + 256 * v, rest)

/-- `serialize_uint`, the lowest byte first. -/
def uint (width : Nat) : Codec Nat where
  write := fun v => (writeUint width v, true)
  read := readUint width
  dom := fun v => v < 256 ^ width
  read_dom := by
    intro bytes v rest isRead
    induction width generalizing bytes v with
    | zero =>
        cases isRead
        exact Nat.one_pos
    | succ width inductionHypothesis =>
        cases bytes with
        | nil => cases isRead
        | cons byte bytes =>
            obtain ⟨⟨high, _⟩, isHigh, same⟩ := Option.map_eq_some_iff.mp isRead
            cases same
            have bound := inductionHypothesis isHigh
            have := byte.toNat_lt
            rw [Nat.pow_succ]
            omega
  read_write := by
    intro v inDom rest
    simp only [if_true]
    induction width generalizing v with
    | zero =>
        rw [Nat.pow_zero, Nat.lt_one_iff] at inDom
        rw [inDom]
        rfl
    | succ width inductionHypothesis =>
        rw [Nat.pow_succ] at inDom
        have high : v / 256 < 256 ^ width := by omega
        have low : (UInt8.ofNat (v % 256)).toNat = v % 256 := by
          rw [UInt8.toNat_ofNat']
          omega
        have whole : v % 256 + 256 * (v / 256) = v := by omega
        rw [writeUint, List.cons_append, readUint, inductionHypothesis high, Option.map_some, low]
        simp only [whole]

instance (width : Nat) : (uint width).Whole where
  ended := fun _ => rfl

def uint8 : Codec UInt8 :=
  (uint 1).convert (fun v => some v.toNat) UInt8.ofNat fun i inDom => by
    refine ⟨i, ?_, inDom, rfl⟩
    rw [UInt8.toNat_ofNat']
    exact congrArg some (Nat.mod_eq_of_lt inDom)

def uint16 : Codec UInt16 :=
  (uint 2).convert (fun v => some v.toNat) UInt16.ofNat fun i inDom => by
    refine ⟨i, ?_, inDom, rfl⟩
    rw [UInt16.toNat_ofNat']
    exact congrArg some (Nat.mod_eq_of_lt inDom)

def uint32 : Codec UInt32 :=
  (uint 4).convert (fun v => some v.toNat) UInt32.ofNat fun i inDom => by
    refine ⟨i, ?_, inDom, rfl⟩
    rw [UInt32.toNat_ofNat']
    exact congrArg some (Nat.mod_eq_of_lt inDom)

def uint64 : Codec UInt64 :=
  (uint 8).convert (fun v => some v.toNat) UInt64.ofNat fun i inDom => by
    refine ⟨i, ?_, inDom, rfl⟩
    rw [UInt64.toNat_ofNat']
    exact congrArg some (Nat.mod_eq_of_lt inDom)

instance : uint8.Whole := by
  unfold uint8
  infer_instance

instance : uint16.Whole := by
  unfold uint16
  infer_instance

instance : uint32.Whole := by
  unfold uint32
  infer_instance

instance : uint64.Whole := by
  unfold uint64
  infer_instance

instance : uint8.Marked where
  write_ne_nil := fun _ => List.cons_ne_nil _ _

/-! ## Blobs -/

structure Blob (size : Nat) where
  bytes : Bytes
  length_eq : bytes.length = size
  deriving DecidableEq

@[ext]
theorem Blob.ext {size : Nat} {a b : Blob size} (same : a.bytes = b.bytes) : a = b := by
  cases a
  cases b
  cases same
  rfl

/-- The same byte everywhere. -/
def Blob.filled (size : Nat) (byte : UInt8) : Blob size :=
  ⟨List.replicate size byte, List.length_replicate⟩

/-- `serialize_blob` of a type of this size. -/
def blob (size : Nat) : Codec (Blob size) where
  write := fun v => (v.bytes, true)
  read := fun bytes =>
    if enough : size ≤ bytes.length then
      some (⟨bytes.take size, List.length_take_of_le enough⟩, bytes.drop size)
    else none
  dom := fun _ => True
  read_dom := fun _ => trivial
  read_write := by
    intro v _ rest
    obtain ⟨own, rfl⟩ := v
    simp

instance (size : Nat) : (blob size).Whole where
  ended := fun _ => rfl

instance (size : Nat) [NeZero size] : (blob size).Marked where
  write_ne_nil := by
    intro v isEmpty
    have length := v.length_eq
    rw [show v.bytes = [] from isEmpty] at length
    exact NeZero.ne size length.symm

/-! ## Containers -/

/-- The number of elements, a `size_t`. -/
def size : Codec Nat := varint 64 (by omega)

instance : size.Whole := by
  unfold size
  infer_instance

instance : size.Marked where
  write_ne_nil := writeVarint_ne_nil 9

abbrev vector {α : Type*} (c : Codec α) [c.Marked] : Codec (List α) := Codec.vector size c

/-- A string is a number and that many bytes. -/
abbrev string : Codec Bytes := vector uint8

/-- The byte in front says whether the value is missing. -/
def optional {α : Type*} (c : Codec α) : Codec (Option α) where
  write := fun o =>
    match o with
    | none => ([1], true)
    | some v => (0 :: (c.write v).1, (c.write v).2)
  read := fun bytes =>
    match bytes with
    | [] => none
    | isNone :: later =>
        if isNone ≠ 0 then some (none, later)
        else (c.read later).map fun (v, rest) => (some v, rest)
  dom := fun o => ∀ v, o = some v → c.dom v
  read_dom := by
    intro bytes o rest isRead v isSome
    cases bytes with
    | nil => cases isRead
    | cons isNone later =>
        simp only at isRead
        split at isRead
        · cases isRead
          cases isSome
        · obtain ⟨⟨w, _⟩, readValue, same⟩ := Option.map_eq_some_iff.mp isRead
          cases same
          cases isSome
          exact c.read_dom readValue
  read_write := by
    intro o inDom rest
    cases o with
    | none => rfl
    | some v =>
        simp only [List.cons_append, ne_eq, not_true_eq_false, if_false, c.read_write (inDom v rfl)]
        split <;> rfl

instance {α : Type*} (c : Codec α) [c.Whole] : (optional c).Whole where
  ended := by
    intro o inDom
    cases o with
    | none => rfl
    | some v => exact Codec.Whole.ended (c := c) (inDom v rfl)

/-- `BEGIN_VERSIONED_SERIALIZE`: the version, which must not be above the last one. -/
def versionToMember (lastVer : UInt8) : Codec UInt8 :=
  varint8.accepted fun version => decide (version ≤ lastVer)

instance (lastVer : UInt8) : (versionToMember lastVer).Whole := by
  unfold versionToMember
  infer_instance

end Zano.Serialization
