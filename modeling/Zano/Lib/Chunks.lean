import Mathlib.Data.List.Basic
import Mathlib.Tactic.Common
import Mathlib.Tactic.Ring

/-! # A list in chunks

A list is cut into chunks of one size, of which only the last one may be shorter. An element that is
added behind the list changes the chunk at the list's length divided by the size, and no other: it
starts that chunk, or it is added behind what is already there.
-/

namespace Chunks

variable {α : Type*} {size i : ℕ} {l : List α} {a : α}

/-- The chunk with number `i`, when it is not empty. -/
def chunk (size : ℕ) (l : List α) (i : ℕ) : Option (List α) :=
  if i * size < l.length then some ((l.drop (i * size)).take size) else none

/-- What is behind the last full chunk. -/
def rest (size : ℕ) (l : List α) : List α := l.drop (l.length / size * size)

@[simp]
theorem length_rest : (rest size l).length = l.length % size := by
  rw [rest, List.length_drop, Nat.mod_eq_sub_div_mul]

@[simp]
theorem chunk_nil : chunk size ([] : List α) i = none := by simp [chunk]

theorem length_lt (positive : 0 < size) : l.length < l.length / size * size + size := by
  have split := Nat.div_add_mod' l.length size
  have below := Nat.mod_lt l.length positive
  omega

theorem chunk_eq_none (positive : 0 < size) (behind : (l.length - 1) / size < i) :
    chunk size l i = none := by
  rw [Nat.div_lt_iff_lt_mul positive] at behind
  exact if_neg (by omega)

/-- The chunk that the next element comes into. -/
theorem chunk_last (positive : 0 < size) :
    chunk size l (l.length / size) = if l.length % size = 0 then none else some (rest size l) := by
  have split := Nat.div_add_mod' l.length size
  rw [chunk]
  by_cases full : l.length % size = 0
  · rw [if_neg (by omega), if_pos full]
  · rw [if_pos (by omega), if_neg full]
    have short : (rest size l).length ≤ size := by
      rw [length_rest]
      exact (Nat.mod_lt _ positive).le
    exact congrArg some (List.take_of_length_le short)

theorem chunk_append_self (positive : 0 < size) :
    chunk size (l ++ [a]) (l.length / size) = some (rest size l ++ [a]) := by
  have split := Nat.div_add_mod' l.length size
  rw [chunk, if_pos (by rw [List.length_append, List.length_singleton]; omega),
    List.drop_append_of_le_length (by omega)]
  have short : (rest size l ++ [a]).length ≤ size := by
    rw [List.length_append, length_rest, List.length_singleton]
    exact Nat.mod_lt _ positive
  exact congrArg some (List.take_of_length_le short)

theorem chunk_append_of_ne (positive : 0 < size) (other : i ≠ l.length / size) :
    chunk size (l ++ [a]) i = chunk size l i := by
  have split := Nat.div_add_mod' l.length size
  obtain before | behind := Nat.lt_or_gt_of_ne other
  · have most : (i + 1) * size ≤ l.length / size * size := Nat.mul_le_mul_right size before
    rw [Nat.add_mul, Nat.one_mul] at most
    rw [chunk, chunk, if_pos (by rw [List.length_append]; omega), if_pos (by omega),
      List.drop_append_of_le_length (by omega),
        List.take_append_of_le_length (by rw [List.length_drop]; omega)]
  · rw [chunk_eq_none positive ((Nat.div_le_div_right (Nat.sub_le _ 1)).trans_lt behind),
      chunk, if_neg]
    have most : (l.length / size + 1) * size ≤ i * size := Nat.mul_le_mul_right size behind
    have below := length_lt (l := l) positive
    rw [Nat.add_mul, Nat.one_mul] at most
    rw [List.length_append, List.length_singleton]
    omega

/-- An element is found in its chunk. -/
theorem getElem?_chunk (positive : 0 < size) :
    ((chunk size l (i / size)).bind fun piece => piece[i % size]?) = l[i]? := by
  have split := Nat.div_add_mod' i size
  have below := Nat.mod_lt i positive
  rw [chunk]
  split
  · rw [Option.bind_some, List.getElem?_take_of_lt below, List.getElem?_drop, split]
  · rw [Option.bind_none, List.getElem?_eq_none (by omega)]

end Chunks
