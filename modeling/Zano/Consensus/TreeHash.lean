import Mathlib
import Zano.Lib.MerkleTree
import Zano.Serialization.BinaryArchive

/-! # The root of the transactions of a block

`tree_hash` finds the largest power of two below the number of leaves by smearing the highest bit of
the number before it, hashes the last leaves in pairs into a working array of this size, and then
halves the array in its place until two nodes are left. A read or a write outside of an array has no
result here, and neither has an assertion that fails.
-/

namespace Zano.TreeHash

open Serialization (Blob)
open MerkleTree

abbrev Bytes := List UInt8
abbrev Hash := Blob 32

def hashSize : UInt64 := 32

def nullHash : Hash := Blob.filled 32 0

section

variable (cnFastHash : Bytes → Hash)

/-- Two hashes, one behind the other. -/
def hashPair (left right : Hash) : Hash := cnFastHash (left.bytes ++ right.bytes)

/-- `cn_fast_hash` of 64 bytes from an entry on. -/
def hashAt (hashes : List Hash) (i : UInt64) : Option Hash :=
  hashes[i.toNat]?.bind fun left => hashes[i.toNat + 1]?.map fun right =>
    hashPair cnFastHash left right

def store (ints : List Hash) (j : UInt64) (hash : Hash) : Option (List Hash) :=
  if j.toNat < ints.length then some (ints.set j.toNat hash) else none

/-- `memcpy` to the front. -/
def copy (hashes : List Hash) (count : UInt64) (ints : List Hash) : Option (List Hash) :=
  if count.toNat ≤ hashes.length ∧ count.toNat ≤ ints.length then
    some (hashes.take count.toNat ++ ints.drop count.toNat)
  else none

/-- For every `i` below 64 that doubling 1 gives. -/
def smear (cnt : UInt64) : UInt64 :=
  ([1, 2, 4, 8, 16, 32] : List UInt64).foldl (fun cnt i => cnt ||| cnt >>> i) cnt

theorem one_less {j cnt : UInt64} (below : j < cnt) :
    cnt.toNat - (j + 1).toNat < cnt.toNat - j.toNat := by
  have less := UInt64.lt_iff_toNat_lt.mp below
  have bound := cnt.toNat_lt
  rw [UInt64.toNat_add, UInt64.toNat_one, Nat.mod_eq_of_lt (by omega)]
  omega

theorem toNat_half (cnt : UInt64) : (cnt >>> 1).toNat = cnt.toNat / 2 := by
  rw [UInt64.toNat_shiftRight, Nat.shiftRight_eq_div_pow]
  rfl

/-- The index behind the last pair is left, with the array. -/
def hashLeaves (hashes : List Hash) (cnt i j : UInt64) (ints : List Hash) :
    Option (UInt64 × List Hash) :=
  if _below : j < cnt then
    (hashAt cnFastHash hashes i).bind fun hash =>
      (store ints j hash).bind fun ints => hashLeaves hashes cnt (i + 2) (j + 1) ints
  else some (i, ints)
termination_by cnt.toNat - j.toNat
decreasing_by exact one_less _below

def hashLevel (cnt i j : UInt64) (ints : List Hash) : Option (List Hash) :=
  if _below : j < cnt then
    (hashAt cnFastHash ints i).bind fun hash =>
      (store ints j hash).bind fun ints => hashLevel cnt (i + 2) (j + 1) ints
  else some ints
termination_by cnt.toNat - j.toNat
decreasing_by exact one_less _below

def hashLevels (cnt : UInt64) (ints : List Hash) : Option (List Hash) :=
  if _several : 2 < cnt then
    let cnt := cnt >>> 1
    (hashLevel cnFastHash cnt 0 0 ints).bind (hashLevels cnt)
  else some ints
termination_by cnt.toNat
decreasing_by
  have several := UInt64.lt_iff_toNat_lt.mp _several
  rw [show UInt64.toNat 2 = 2 from rfl] at several
  rw [toNat_half]
  omega

/-- `malloc` gives as many entries as fit into so many bytes, with whatever is in them. -/
def treeHash (malloc : UInt64 → Option (List Hash)) (hashes : List Hash)
    (count : UInt64) : Option Hash :=
  if count = 0 then none
  else if count = 1 then hashes[0]?
  else if count = 2 then hashAt cnFastHash hashes 0
  else
    let cnt := smear (count - 1)
    let cnt := cnt &&& ~~~(cnt >>> 1)
    match malloc (cnt * hashSize) with
    | none => some nullHash
    | some ints =>
        let kept := 2 * cnt - count
        (copy hashes kept ints).bind fun ints =>
          (hashLeaves cnFastHash hashes cnt kept kept ints).bind fun (i, ints) =>
            if i = count then
              (hashLevels cnFastHash cnt ints).bind fun ints => hashAt cnFastHash ints 0 else none

/-- The transaction that pays for the block comes first. -/
def getTxTreeHash (malloc : UInt64 → Option (List Hash)) (minerTxHash : Hash)
    (txHashes : List Hash) : Option Hash :=
  let txsIds := minerTxHash :: txHashes
  treeHash cnFastHash malloc txsIds (UInt64.ofNat txsIds.length)

end

/-! ## The highest bit -/

/-- A bit is set where one of the bits in a window from it upwards was. -/
def Window (size : ℕ) (x y : UInt64) : Prop :=
  ∀ k, y.toNat.testBit k = true ↔ ∃ m, k ≤ m ∧ m ≤ k + size ∧ x.toNat.testBit m = true

theorem window_zero (x : UInt64) : Window 0 x x := by
  intro k
  constructor
  · intro isSet
    exact ⟨k, le_rfl, le_rfl, isSet⟩
  · rintro ⟨m, above, below, isSet⟩
    rwa [show k = m by omega]

theorem testBit_shiftRight {y i : UInt64} (inWord : i.toNat < 64) (k : ℕ) :
    (y >>> i).toNat.testBit k = y.toNat.testBit (i.toNat + k) := by
  rw [UInt64.toNat_shiftRight, Nat.mod_eq_of_lt inWord, Nat.testBit_shiftRight]

/-- Two windows that touch are one. -/
theorem Window.smear {size : ℕ} {x y i : UInt64} (window : Window size x y)
    (touches : i.toNat = size + 1) (inWord : i.toNat < 64) :
    Window (size + i.toNat) x (y ||| y >>> i) := by
  intro k
  rw [UInt64.toNat_or, Nat.testBit_or, Bool.or_eq_true, testBit_shiftRight inWord, window, window]
  constructor
  · rintro (⟨m, above, below, isSet⟩ | ⟨m, above, below, isSet⟩)
    · exact ⟨m, above, by omega, isSet⟩
    · exact ⟨m, by omega, by omega, isSet⟩
  · rintro ⟨m, above, below, isSet⟩
    rcases Nat.lt_or_ge (k + size) m with beyond | within
    · exact .inr ⟨m, by omega, by omega, isSet⟩
    · exact .inl ⟨m, above, within, isSet⟩

theorem window_smear (x : UInt64) : Window 63 x (smear x) := by
  have once := (window_zero x).smear (i := 1) rfl (by decide)
  have twice := (once.smear (i := 2) rfl (by decide)).smear (i := 4) rfl (by decide)
  exact ((twice.smear (i := 8) rfl (by decide)).smear (i := 16) rfl (by decide)).smear (i := 32) rfl
    (by decide)

theorem testBit_not (y : UInt64) (k : ℕ) :
    (~~~y).toNat.testBit k = (decide (k < 64) && !y.toNat.testBit k) := by
  rw [← UInt64.toNat_toBitVec, UInt64.toBitVec_not, BitVec.testBit_toNat, BitVec.getLsbD_not]
  rfl

/-- What is left of the smeared word is its highest bit. -/
theorem toNat_highest {x : UInt64} (notZero : x.toNat ≠ 0) :
    (smear x &&& ~~~(smear x >>> 1)).toNat = 2 ^ Nat.log2 x.toNat := by
  have window := window_smear x
  have inWord (m : ℕ) (isSet : x.toNat.testBit m = true) : m ≤ Nat.log2 x.toNat :=
    (Nat.le_log2 notZero).mpr (Nat.ge_two_pow_of_testBit isSet)
  have isTop := Nat.testBit_log2 notZero
  have top : Nat.log2 x.toNat < 64 := (Nat.log2_lt notZero).mpr x.toNat_lt
  have smeared (k : ℕ) : (smear x).toNat.testBit k = decide (k ≤ Nat.log2 x.toNat) := by
    rw [Bool.eq_iff_iff, decide_eq_true_iff, window]
    constructor
    · rintro ⟨m, above, _, isSet⟩
      exact above.trans (inWord m isSet)
    · intro below
      exact ⟨Nat.log2 x.toNat, below, by omega, isTop⟩
  apply Nat.eq_of_testBit_eq
  intro k
  rw [UInt64.toNat_and, Nat.testBit_and, testBit_not, testBit_shiftRight (by decide),
    smeared, smeared, Nat.testBit_two_pow, Bool.eq_iff_iff]
  simp only [Bool.and_eq_true, decide_eq_true_eq, Bool.not_eq_true', decide_eq_false_iff_not,
    UInt64.toNat_one]
  omega

/-! ## Both loops over pairs -/

section

variable {cnFastHash : Bytes → Hash}

theorem hashAt_eq {before : List Hash} {left right : Hash} {behind : List Hash} {i : UInt64}
    (isIndex : i.toNat = before.length) :
    hashAt cnFastHash (before ++ left :: right :: behind) i =
      some (hashPair cnFastHash left right) := by
  rw [hashAt, isIndex, List.getElem?_append_right le_rfl, Nat.sub_self, List.getElem?_cons_zero,
    Option.bind_some, List.getElem?_append_right (by omega), Nat.add_sub_cancel_left]
  rfl

theorem store_eq {before : List Hash} {old : Hash} {behind : List Hash} {j : UInt64} (hash : Hash)
    (isIndex : j.toNat = before.length) :
    store (before ++ old :: behind) j hash = some (before ++ hash :: behind) := by
  rw [store, isIndex, if_pos (by rw [List.length_append, List.length_cons]; omega),
    List.set_append_right _ _ le_rfl, Nat.sub_self, List.set_cons_zero]

theorem toNat_add_of_lt {i step : UInt64} (k : ℕ) (isStep : step.toNat = k)
    (fits : i.toNat + k < 2 ^ 64) :
    (i + step).toNat = i.toNat + k := by
  rw [UInt64.toNat_add, isStep, Nat.mod_eq_of_lt fits]

/-- The leaves that are still to be hashed give the entries that are still free. -/
theorem hashLeaves_eq {done todo made free : List Hash} {cnt i j : UInt64}
    (fits : (done ++ todo).length + 2 < 2 ^ 64) (isFrom : i.toNat = done.length)
    (isTo : j.toNat = made.length) (isEnd : cnt.toNat = made.length + free.length)
    (twice : todo.length = 2 * free.length) :
    ∃ i', i'.toNat = (done ++ todo).length ∧
      hashLeaves cnFastHash (done ++ todo) cnt i j (made ++ free) =
        some (i', made ++ pairs (hashPair cnFastHash) todo) := by
  induction todo using pairs.induct generalizing done made free i j with
  | case3 left right rest inductionHypothesis =>
      obtain _ | ⟨old, free⟩ := free
      · simp at twice
      simp only [List.length_append, List.length_cons] at fits isEnd twice
      have below : j < cnt := by
        rw [UInt64.lt_iff_toNat_lt]
        omega
      have bound := cnt.toNat_lt
      have nextFrom : (i + 2).toNat = i.toNat + 2 := toNat_add_of_lt 2 rfl (by omega)
      have nextTo : (j + 1).toNat = j.toNat + 1 := toNat_add_of_lt 1 rfl (by omega)
      rw [hashLeaves, dif_pos below, hashAt_eq isFrom, Option.bind_some, store_eq _ isTo,
        Option.bind_some]
      have later :=
        @inductionHypothesis (done ++ [left, right]) (made ++ [hashPair cnFastHash left right]) free
        (i + 2) (j + 1)
        (by simp only [List.length_append, List.length_cons, List.length_nil]; omega)
        (by simp only [List.length_append, List.length_cons, List.length_nil]; omega)
        (by simp only [List.length_append, List.length_cons, List.length_nil]; omega)
        (by simp only [List.length_append, List.length_cons, List.length_nil]; omega) (by omega)
      simpa only [pairs, List.append_assoc, List.cons_append, List.nil_append] using later
  | case1 =>
      have noFree : free = [] :=
        List.length_eq_zero_iff.mp (by rw [List.length_nil] at twice; omega)
      subst noFree
      have atEnd : ¬j < cnt := by
        rw [UInt64.lt_iff_toNat_lt]
        simp only [List.length_nil] at isEnd
        omega
      rw [hashLeaves, dif_neg atEnd]
      exact ⟨i, by rw [List.append_nil, isFrom], rfl⟩
  | case2 a =>
      rw [List.length_singleton] at twice
      omega

/-- In place, as many used entries are between what was made and what is read next as were made. -/
theorem hashLevel_eq {made used todo beyond : List Hash} {cnt i j : UInt64}
    (fits : (made ++ used ++ todo).length + 2 < 2 ^ 64) (sameLength : used.length = made.length)
    (isFrom : i.toNat = made.length + used.length) (isTo : j.toNat = made.length)
    (isEnd : 2 * cnt.toNat = (made ++ used ++ todo).length) :
    ∃ beyond', hashLevel cnFastHash cnt i j (made ++ used ++ todo ++ beyond) =
      some (made ++ pairs (hashPair cnFastHash) todo ++ beyond') := by
  simp only [List.length_append] at fits isEnd
  induction todo using pairs.induct generalizing made used i j with
  | case3 left right rest inductionHypothesis =>
      simp only [List.length_cons] at fits isEnd
      have below : j < cnt := by
        rw [UInt64.lt_iff_toNat_lt]
        omega
      have nextFrom : (i + 2).toNat = i.toNat + 2 := toNat_add_of_lt 2 rfl (by omega)
      have nextTo : (j + 1).toNat = j.toNat + 1 := toNat_add_of_lt 1 rfl (by omega)
      have read : hashAt cnFastHash (made ++ used ++ left :: right :: rest ++ beyond) i =
          some (hashPair cnFastHash left right) := by
        rw [List.append_assoc, List.cons_append, List.cons_append]
        exact hashAt_eq (by rw [List.length_append, isFrom])
      -- The entry that is written is a used one, or the left one of the pair itself.
      obtain ⟨old, used', split⟩ : ∃ old used', used ++ [left, right] = old :: used' := by
        cases used with
        | nil => exact ⟨left, [right], rfl⟩
        | cons old used => exact ⟨old, used ++ [left, right], rfl⟩
      have length := congrArg List.length split
      simp only [List.length_append, List.length_cons, List.length_nil] at length
      have written : store (made ++ used ++ left :: right :: rest ++ beyond) j
          (hashPair cnFastHash left right) =
          some (made ++ [hashPair cnFastHash left right] ++ used' ++ rest ++ beyond) := by
        have regrouped : made ++ used ++ left :: right :: rest ++ beyond =
            made ++ old :: (used' ++ rest ++ beyond) := by
          rw [← List.cons_append, ← List.cons_append, ← split]
          simp only [List.append_assoc, List.cons_append, List.nil_append]
        rw [regrouped, store_eq _ isTo]
        simp only [List.append_assoc, List.cons_append, List.nil_append]
      obtain ⟨beyond', later⟩ :=
        @inductionHypothesis (made ++ [hashPair cnFastHash left right]) used' (i + 2) (j + 1)
        (by simp only [List.length_append, List.length_cons, List.length_nil]; omega)
        (by simp only [List.length_append, List.length_cons, List.length_nil]; omega)
        (by simp only [List.length_append, List.length_cons, List.length_nil]; omega)
        (by simp only [List.length_append, List.length_cons, List.length_nil]; omega)
        (by simp only [List.length_append, List.length_cons, List.length_nil]; omega)
      refine ⟨beyond', ?_⟩
      rw [hashLevel, dif_pos below, read, Option.bind_some, written, Option.bind_some, later, pairs]
      simp only [List.append_assoc, List.cons_append, List.nil_append]
  | case1 =>
      have atEnd : ¬j < cnt := by
        rw [UInt64.lt_iff_toNat_lt]
        simp only [List.length_nil] at isEnd
        omega
      rw [hashLevel, dif_neg atEnd]
      exact ⟨used ++ beyond, by simp [pairs]⟩
  | case2 a =>
      rw [List.length_singleton] at isEnd
      omega

/-- The two nodes that are left over give the top. -/
theorem hashLevels_eq {k : ℕ} {cnt : UInt64} {nodes beyond : List Hash}
    (isPower : cnt.toNat = 2 ^ (k + 1)) (isLength : nodes.length = cnt.toNat)
    (fits : cnt.toNat + 2 < 2 ^ 64) :
    ∃ ints, hashLevels cnFastHash cnt (nodes ++ beyond) = some ints ∧
      hashAt cnFastHash ints 0 = top (hashPair cnFastHash) nodes := by
  induction k generalizing cnt nodes beyond with
  | zero =>
      obtain _ | ⟨left, _ | ⟨right, _ | ⟨_, _⟩⟩⟩ := nodes
      · simp at isLength; omega
      · simp at isLength; omega
      · have notSeveral : ¬2 < cnt := by
          rw [UInt64.lt_iff_toNat_lt, isPower]
          decide
        rw [hashLevels, dif_neg notSeveral]
        refine ⟨_, rfl, ?_⟩
        have isTop :
            top (hashPair cnFastHash) [left, right] = some (hashPair cnFastHash left right) := by
              simp [top, pairs]
        rw [isTop]
        exact @hashAt_eq cnFastHash [] left right beyond 0 rfl
      · simp at isLength; omega
  | succ k inductionHypothesis =>
      have several : 2 < cnt := by
        have two : 2 ≤ 2 ^ (k + 1) := by
          rw [Nat.pow_succ']
          have positive := Nat.two_pow_pos k
          omega
        rw [UInt64.lt_iff_toNat_lt, isPower, Nat.pow_succ' (n := k + 1)]
        change 2 < _
        omega
      have isHalf : (cnt >>> 1).toNat = 2 ^ (k + 1) := by
        rw [toNat_half, isPower, Nat.pow_succ' (n := k + 1), Nat.mul_div_cancel_left _ (by omega)]
      have length : (pairs (hashPair cnFastHash) nodes).length = (cnt >>> 1).toNat := by
        rw [length_pairs, isLength, isPower, isHalf, Nat.pow_succ' (n := k + 1)]
        omega
      obtain ⟨beyond', isLevel⟩ := @hashLevel_eq cnFastHash [] [] nodes beyond (cnt >>> 1) 0 0
        (by simp; omega) rfl rfl rfl (by
          simp only [List.nil_append]
          rw [isLength, isPower, isHalf, ← Nat.pow_succ'])
      simp only [List.nil_append] at isLevel
      obtain ⟨ints, isLater, isTop⟩ :=
        @inductionHypothesis (cnt >>> 1) _ beyond' isHalf length (by rw [toNat_half]; omega)
      rw [hashLevels, dif_pos several]
      refine ⟨ints, ?_, ?_⟩
      · simp only [isLevel, Option.bind_some, isLater]
      · rw [isTop, top_pairs]

/-! ## The root -/

/-- The memory for so many entries is given, with whatever is in it. -/
def Gives (malloc : UInt64 → Option (List Hash)) (entries : ℕ) : Prop :=
  ∃ ints, malloc (UInt64.ofNat (32 * entries)) = some ints ∧ ints.length = entries

/-- The leaves that are kept are copied, and the others fill the rest of the array. -/
theorem treeHash_eq_top {malloc : UInt64 → Option (List Hash)} {leaves : List Hash}
    (several : 2 < leaves.length) (fits : 32 * leaves.length < 2 ^ 64)
    (memory : Gives malloc (width leaves.length)) :
    treeHash cnFastHash malloc leaves (UInt64.ofNat leaves.length) =
      top (hashPair cnFastHash) (firstLevel (hashPair cnFastHash) leaves) := by
  obtain ⟨ints, isMemory, isLength⟩ := memory
  have greatest := (@width_greatest leaves.length (by omega)).1.2
  have atMost := @lt_two_mul_width leaves.length (by omega)
  generalize isCount : UInt64.ofNat leaves.length = count
  have countNat : count.toNat = leaves.length := by
    rw [← isCount]
    exact UInt64.toNat_ofNat_of_lt' (by change _ < 2 ^ 64; omega)
  have notFew (few : UInt64) (isFew : few.toNat ≤ 2) : ¬count = few := by
    rintro rfl
    omega
  have isLess : (count - 1).toNat = leaves.length - 1 := by
    rw [UInt64.toNat_sub_of_le _ _ (by rw [UInt64.le_iff_toNat_le, countNat]; change 1 ≤ _; omega),
      countNat]
    rfl
  generalize isWidth : smear (count - 1) &&& ~~~(smear (count - 1) >>> 1) = cnt
  have cntNat : cnt.toNat = width leaves.length := by
    rw [← isWidth, toNat_highest (by omega), isLess, width]
  have twiceNat : (2 * cnt).toNat = 2 * width leaves.length := by
    rw [UInt64.toNat_mul, cntNat]
    exact Nat.mod_eq_of_lt (by change 2 * _ < _; omega)
  have keptNat : (2 * cnt - count).toNat = 2 * width leaves.length - leaves.length := by
    rw [UInt64.toNat_sub_of_le _ _ (by rw [UInt64.le_iff_toNat_le]; omega), twiceNat, countNat]
  have sameSize : cnt * hashSize = UInt64.ofNat (32 * width leaves.length) := by
    rw [← UInt64.toNat_inj, UInt64.toNat_ofNat_of_lt' (by change _ < 2 ^ 64; omega),
      UInt64.toNat_mul, cntNat, Nat.mul_comm]
    exact Nat.mod_eq_of_lt (by change 32 * _ < _; omega)
  have firstLength := @length_firstLevel Hash (hashPair cnFastHash) leaves (by omega)
  have isSplit := List.take_append_drop (2 * width leaves.length - leaves.length) leaves
  obtain ⟨i, isEnd, first⟩ :=
    @hashLeaves_eq cnFastHash (leaves.take (2 * width leaves.length - leaves.length))
    (leaves.drop (2 * width leaves.length - leaves.length))
      (leaves.take (2 * width leaves.length - leaves.length))
    (ints.drop (2 * width leaves.length - leaves.length)) cnt (2 * cnt - count) (2 * cnt - count)
    (by rw [isSplit]; omega) (by rw [keptNat, List.length_take]; omega)
      (by rw [keptNat, List.length_take]; omega)
    (by rw [cntNat, List.length_take, List.length_drop]; omega)
      (by rw [List.length_drop, List.length_drop]; omega)
  rw [isSplit] at isEnd first
  have isCount' : i = count := by rw [← UInt64.toNat_inj, isEnd, countNat]
  obtain ⟨k, isPower⟩ : ∃ k, Nat.log2 (leaves.length - 1) = k + 1 := by
    have positive : 1 ≤ Nat.log2 (leaves.length - 1) := (Nat.le_log2 (by omega)).mpr (by omega)
    exact ⟨Nat.log2 (leaves.length - 1) - 1, by omega⟩
  obtain ⟨last, isLast, isTop⟩ :=
    @hashLevels_eq cnFastHash k cnt (firstLevel (hashPair cnFastHash) leaves) []
    (by rw [cntNat, width, isPower]) (by rw [firstLength, cntNat]) (by omega)
  rw [List.append_nil] at isLast
  rw [treeHash, if_neg (notFew 0 (by decide)), if_neg (notFew 1 (by decide)),
    if_neg (notFew 2 (by decide))]
  simp only [isWidth, sameSize, isMemory]
  rw [copy, keptNat, if_pos (by constructor <;> omega), Option.bind_some, first, Option.bind_some]
  simp only [isCount', if_true]
  rw [← isTop, ← Option.bind_some last (fun ints => hashAt cnFastHash ints 0), ← isLast]
  rfl

theorem treeHash_singleton (malloc : UInt64 → Option (List Hash)) (leaf : Hash) :
    treeHash cnFastHash malloc [leaf] 1 =
      top (hashPair cnFastHash) (firstLevel (hashPair cnFastHash) [leaf]) := by
  rw [firstLevel_singleton, top]
  rfl

theorem treeHash_pair (malloc : UInt64 → Option (List Hash)) (left right : Hash) :
    treeHash cnFastHash malloc [left, right] 2 =
      top (hashPair cnFastHash) (firstLevel (hashPair cnFastHash) [left, right]) := by
  have isFirst :
      firstLevel (hashPair cnFastHash) [left, right] = [hashPair cnFastHash left right] := by
    simp [firstLevel, width, pairs, show Nat.log2 1 = 0 by decide]
  rw [isFirst, top]
  rfl

/-- Every read and write is inside of its array. -/
theorem treeHash_eq {malloc : UInt64 → Option (List Hash)} {leaves : List Hash}
    (some_ : leaves ≠ []) (fits : 32 * leaves.length < 2 ^ 64)
    (memory : 2 < leaves.length → Gives malloc (width leaves.length)) :
    treeHash cnFastHash malloc leaves (UInt64.ofNat leaves.length) =
      (tree leaves).map (HashTree.root (hashPair cnFastHash)) := by
  rw [root_tree]
  obtain _ | ⟨a, _ | ⟨b, _ | ⟨c, rest⟩⟩⟩ := leaves
  · exact absurd rfl some_
  · exact treeHash_singleton malloc a
  · exact treeHash_pair malloc a b
  · have several : 2 < (a :: b :: c :: rest).length := by simp
    exact treeHash_eq_top several fits (memory several)

/-- With its own transaction, a block always has a leaf. -/
theorem getTxTreeHash_eq {malloc : UInt64 → Option (List Hash)} (minerTxHash : Hash)
    (txHashes : List Hash) (fits : 32 * (minerTxHash :: txHashes).length < 2 ^ 64) (memory : 2 <
      (minerTxHash :: txHashes).length → Gives malloc (width (minerTxHash :: txHashes).length)) :
    getTxTreeHash cnFastHash malloc minerTxHash txHashes =
      (tree (minerTxHash :: txHashes)).map (HashTree.root (hashPair cnFastHash)) :=
  treeHash_eq (List.cons_ne_nil minerTxHash txHashes) fits memory

/-- What comes out is the root of the tree over all leaves, whose first level is as wide as the
largest power of two below their number. -/
theorem treeHash_eq_root {malloc : UInt64 → Option (List Hash)} {leaves : List Hash}
    (some_ : leaves ≠ []) (fits : 32 * leaves.length < 2 ^ 64)
    (memory : 2 < leaves.length → Gives malloc (width leaves.length)) :
    (∃ t, tree leaves = some t ∧
      treeHash cnFastHash malloc leaves (UInt64.ofNat leaves.length) =
        some (t.root (hashPair cnFastHash))) ∧
    (2 < leaves.length →
      IsGreatest {c | (∃ k, c = 2 ^ k) ∧ c < leaves.length} (width leaves.length) ∧
      (firstLevel HashTree.node (leaves.map .leaf)).length = width leaves.length) := by
  constructor
  · obtain ⟨t, isTree⟩ := exists_tree some_
    refine ⟨t, isTree, ?_⟩
    rw [treeHash_eq some_ fits memory, isTree, Option.map_some]
  · intro several
    have length :=
      @length_firstLevel _ HashTree.node (leaves.map .leaf) (by rw [List.length_map]; omega)
    rw [List.length_map] at length
    exact ⟨width_greatest (by omega), length⟩

theorem treeHash_eq_root_three :
    (∃ t, tree [Blob.filled 32 1, Blob.filled 32 2, Blob.filled 32 3] = some t ∧
      treeHash (fun bytes => Blob.filled 32 bytes.sum) (fun _ => some [nullHash, nullHash])
        [Blob.filled 32 1, Blob.filled 32 2, Blob.filled 32 3] 3 =
        some (t.root (hashPair fun bytes => Blob.filled 32 bytes.sum))) ∧
    (2 < 3 → IsGreatest {c | (∃ k, c = 2 ^ k) ∧ c < 3} (width 3) ∧
      (firstLevel HashTree.node ([Blob.filled 32 1, Blob.filled 32 2, Blob.filled 32 3].map
        HashTree.leaf)).length = width 3) :=
  treeHash_eq_root (by simp) (by decide) fun _ => ⟨[nullHash, nullHash], rfl, by decide⟩

end

end Zano.TreeHash
