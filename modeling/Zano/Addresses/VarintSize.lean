import Zano.Addresses.Address

/-! # The size of a varint

`get_varint_packed_size` has a ladder of bounds of its own, which ends at eight bytes. The writer
takes up to ten bytes, so that the two agree on the numbers below `2 ^ 56` only. The reader takes
back what was written in any case, and nothing else.
-/

namespace Zano.Addresses

open Serialization (writeVarint)

def getVarintPackedSize (v : UInt64) : ℕ :=
  if v ≤ 127 then 1
  else if v ≤ 16383 then 2
  else if v ≤ 2097151 then 3
  else if v ≤ 268435455 then 4
  else if v ≤ 34359738367 then 5
  else if v ≤ 4398046511103 then 6
  else if v ≤ 562949953421311 then 7
  else 8

/-- Whether `read_varint` returns at the end of the input, from this shift on. -/
def readsToEnd (bits : ℕ) : ℕ → Bytes → Bool
  | _, [] => true
  | shift, byte :: bytes =>
      if bits ≤ shift + 7 ∧ 2 ^ (bits - shift) ≤ byte.toNat then false
      else if byte = 0 ∧ shift ≠ 0 then false
      else if byte.toNat < 128 then false
      else readsToEnd bits (shift + 7) bytes

/-! ## Written sizes -/

/-- A number of `k + 1` digits to the base 128 is written in as many bytes. -/
theorem writeVarint_length {more k i : ℕ} (enough : k ≤ more) (atLeast : k = 0 ∨ 128 ^ k ≤ i)
    (below : i < 128 ^ (k + 1)) :
    (writeVarint more i).length = k + 1 := by
  induction k generalizing more i with
  | zero =>
      cases more with
      | zero => rfl
      | succ more =>
          have isLast : i < 128 := below
          simp [writeVarint, isLast]
  | succ k inductionHypothesis =>
      have large := atLeast.resolve_left (Nat.succ_ne_zero k)
      have continued : ¬i < 128 := by
        have one : 1 ≤ 128 ^ k := Nat.one_le_pow _ _ (by omega)
        rw [Nat.pow_succ] at large
        omega
      cases more with
      | zero => omega
      | succ more =>
          have later : (writeVarint more (i / 128)).length = k + 1 := by
            apply inductionHypothesis (by omega)
            · rw [Nat.pow_succ] at large
              exact .inr (by omega)
            · rw [Nat.pow_succ] at below
              omega
          simp [writeVarint, continued, later]

theorem getVarintPackedSize_le (v : UInt64) : getVarintPackedSize v ≤ 8 := by
  unfold getVarintPackedSize
  split_ifs <;> omega

theorem writeVarint_length_large {v : UInt64} (large : 2 ^ 56 ≤ v.toNat) :
    8 < (writeVarint 9 v.toNat).length := by
  have below := v.toNat_lt
  rcases Nat.lt_or_ge v.toNat (2 ^ 63) with nine | ten
  · rw [@writeVarint_length 9 8 _ (by omega) (by omega) (by omega)]
    omega
  · rw [@writeVarint_length 9 9 _ (by omega) (by omega) (by omega)]
    omega

/-- Each bound of the ladder is the largest number of so many bytes. -/
theorem getVarintPackedSize_eq {v : UInt64} (small : v.toNat < 2 ^ 56) :
    getVarintPackedSize v = (writeVarint 9 v.toNat).length := by
  have size : ∀ k ≤ 7, (k = 0 ∨ 128 ^ k ≤ v.toNat) → v.toNat < 128 ^ (k + 1) →
      (writeVarint 9 v.toNat).length = k + 1 := fun k most => writeVarint_length (by omega)
  unfold getVarintPackedSize
  simp only [UInt64.le_iff_toNat_le, UInt64.reduceToNat]
  split_ifs
  · exact (size 0 (by omega) (by omega) (by omega)).symm
  · exact (size 1 (by omega) (by omega) (by omega)).symm
  · exact (size 2 (by omega) (by omega) (by omega)).symm
  · exact (size 3 (by omega) (by omega) (by omega)).symm
  · exact (size 4 (by omega) (by omega) (by omega)).symm
  · exact (size 5 (by omega) (by omega) (by omega)).symm
  · exact (size 6 (by omega) (by omega) (by omega)).symm
  · exact (size 7 (by omega) (by omega) (by omega)).symm

/-! ## What is read -/

theorem readsToEnd_of_continued {k : ℕ} {bytes : Bytes} (short : k + bytes.length ≤ 9)
    (all : ∀ byte ∈ bytes, 128 ≤ byte.toNat) : readsToEnd 64 (7 * k) bytes = true := by
  induction bytes generalizing k with
  | nil => rfl
  | cons byte bytes inductionHypothesis =>
      obtain ⟨here, later⟩ := List.forall_mem_cons.mp all
      rw [List.length_cons] at short
      have notPadded : ¬(byte = 0 ∧ 7 * k ≠ 0) := by
        intro padded
        rw [padded.1, UInt8.toNat_zero] at here
        omega
      have noOverflow : ¬(64 ≤ 7 * k + 7 ∧ 2 ^ (64 - 7 * k) ≤ byte.toNat) := by
        intro overflow
        omega
      rw [readsToEnd, if_neg noOverflow, if_neg notPadded, if_neg (by omega)]
      exact @inductionHypothesis (k + 1) (by omega) later

/-- The reader's success is that of a number that was written. -/
theorem read_written {bytes : Bytes} {code : ℤ} {x : ℕ}
    (isRead : readVarint 64 0 0 0 bytes = (code, x)) (accepted : 0 < code)
    (inside : readsToEnd 64 0 bytes = false) :
    x < 2 ^ 64 ∧ bytes.take code.toNat = writeVarint 9 x := by
  cases readVarint_cases (k := 0) (i := 0) (Nat.zero_le 9) (by simp) isRead accepted with
  | inl written =>
      obtain ⟨x', rest, isBytes, isValue, isCode, -, fits⟩ := written
      rw [Nat.sub_zero] at isBytes isCode
      obtain rfl : x = x' := by omega
      have length : code.toNat = (writeVarint 9 x).length := by omega
      refine ⟨fits, ?_⟩
      rw [length, isBytes]
      exact List.take_left
  | inr cutOff =>
      obtain ⟨all, length, -⟩ := cutOff
      have atEnd := @readsToEnd_of_continued 0 bytes (by omega) all
      rw [atEnd] at inside
      cases inside

/-- The declared size is the written one, the reader takes back exactly what was written, and it
succeeds on nothing else: so it is for the numbers of at most eight bytes. -/
theorem varint_sizes_agree_iff (v : UInt64) :
    (getVarintPackedSize v = (writeVarint 9 v.toNat).length ∧
      (∀ rest, readVarint 64 0 0 0 (writeVarint 9 v.toNat ++ rest) =
        (((writeVarint 9 v.toNat).length : ℤ), v.toNat)) ∧
      ∀ bytes code x, readVarint 64 0 0 0 bytes = (code, x) → 0 < code →
        readsToEnd 64 0 bytes = false →
        x < 2 ^ 64 ∧ bytes.take code.toNat = writeVarint 9 x) ↔ v.toNat < 2 ^ 56 := by
  constructor
  · intro ⟨same, _⟩
    by_contra large
    have written := writeVarint_length_large (Nat.le_of_not_lt large)
    have declared := getVarintPackedSize_le v
    omega
  · intro small
    refine ⟨getVarintPackedSize_eq small, ?_, fun _ _ _ => read_written⟩
    intro rest
    have isRead := @readVarint_writeVarint 9 0 0 v.toNat 0 rfl (by omega) v.toNat_lt (by simp) rest
    simpa using isRead

/-- Nine bytes are written, and eight declared. -/
theorem nine_bytes_declared_eight :
    ¬∀ v : UInt64, getVarintPackedSize v = (writeVarint 9 v.toNat).length := by
  intro same
  have wrong := same 72057594037927936
  revert wrong
  decide

end Zano.Addresses
