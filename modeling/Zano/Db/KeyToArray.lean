import Mathlib
import Zano.Lib.Answers
import Zano.Lib.Chunks
import Zano.Db.CachedCoherence

/-! # Arrays in a container

An array container keeps a list for every key. The number of items of a key is stored under the key
with a suffix of its own; the items are stored one by one, or in chunks, under the key with an
index.

`ArrayStore` is what the two containers use of their accessors. A counter is read and written past
the value cache, with the explicit requests, and items with the usual ones. `ServesArrays` says that
the requests answer from the counters and items that the store has, which is all that is known about
them below; the accessors of this database do, for a thread with a write transaction.
-/

namespace Zano.Db.KeyToArray

/-- The suffixes have different lengths, so that no index is taken for a counter. -/
inductive ArrayKey (K : Type*) where
  | item (k : K) (index : UInt64)
  | counter (k : K)
  deriving DecidableEq

inductive ArrayValue (I : Type*) where
  | item (i : I)
  | counter (n : UInt64)

/-- `get` may change the state, as it fills the cache. An erase that throws is nothing. -/
structure ArrayStore (S K I : Type*) where
  getItem : S → K → UInt64 → Option I × S
  setItem : S → K → UInt64 → I → S
  eraseItem : S → K → UInt64 → Option S
  getCounter : S → K → UInt64
  setCounter : S → K → UInt64 → S

inductive KeyedOp (K V : Type*) where
  | pushBackItem (k : K) (v : V)
  | popBackItem (k : K)
  | eraseItems (k : K)
  | getSubitem (k : K) (i : UInt64)
  | getItemSize (k : K)

/-- Only the array in chunks returns several items at once. -/
inductive ChunkedOp (K V : Type*) where
  | array (op : KeyedOp K V)
  | getSubitems (k : K) (offset count : UInt64)

/-- `empty` is the refusal to pop from an empty array, and `internalError` each of the checks of the
sizes of chunks. -/
inductive KeyedResult (V : Type*) where
  | done
  | empty
  | outOfRange
  | internalError
  | item (v : V)
  | items (vs : List V)
  | size (n : Nat)
  deriving DecidableEq

section Algorithms

variable {S K V : Type*}

/-! ## `chunked_key_to_array_accessor` -/

namespace ChunkedArrays

variable (store : ArrayStore S K (List V)) (chunkSize : UInt64)

/-- The chunk index, and the index in the chunk. -/
def getChunkIndex (index : UInt64) : UInt64 × UInt64 := (index / chunkSize, index % chunkSize)

def getItemSize (s : S) (k : K) : UInt64 := store.getCounter s k

/-- Nothing is thrown for a chunk that is not there. -/
def getChunk (s : S) (k : K) (chunkIndex : UInt64) : Option (List V) × S :=
  store.getItem s k chunkIndex

def getSubitem (s : S) (k : K) (i : UInt64) : KeyedResult V × S :=
  if i ≥ getItemSize store s k then (.outOfRange, s)
  else
    let (chunkIndex, indexInsideChunk) := getChunkIndex chunkSize i
    match getChunk store s k chunkIndex with
    | (none, s) => (.outOfRange, s)
    | (some chunk, s) =>
        match chunk[indexInsideChunk.toNat]? with
        | none => (.internalError, s)
        | some v => (.item v, s)

/-- The chunk that was read last is not read again. -/
def currentChunk (s : S) (k : K) (chunkIndex : UInt64) :
    Option (UInt64 × List V) → Option (List V) × S
  | some (currentIndex, chunk) =>
      if currentIndex = chunkIndex then (some chunk, s) else getChunk store s k chunkIndex
  | none => getChunk store s k chunkIndex

/-- The loop of `get_subitems`, with the chunk that was read last. -/
def collectItems (k : K) :
    Nat → S → UInt64 → Option (UInt64 × List V) → List V → Option (List V) × S
  | 0, s, _, _, res => (some res, s)
  | remaining + 1, s, index, current, res =>
      let (chunkIndex, indexInsideChunk) := getChunkIndex chunkSize index
      match currentChunk store s k chunkIndex current with
      | (none, s) => (none, s)
      | (some chunk, s) =>
          match chunk[indexInsideChunk.toNat]? with
          | none => (none, s)
          | some v => collectItems k remaining s (index + 1) (some (chunkIndex, chunk)) (res ++ [v])

def getSubitems (s : S) (k : K) (offset count : UInt64) : KeyedResult V × S :=
  if count = 0 then (.items [], s)
  else if offset + count > getItemSize store s k then (.outOfRange, s)
  else
    match collectItems store chunkSize k count.toNat s offset none [] with
    | (none, s) => (.outOfRange, s)
    | (some res, s) => (.items res, s)

def pushBackItem (s : S) (k : K) (v : V) : KeyedResult V × S :=
  let newIndex := store.getCounter s k
  let (chunkIndex, indexInsideChunk) := getChunkIndex chunkSize newIndex
  if indexInsideChunk = 0 then
    (.done, store.setCounter (store.setItem s k chunkIndex [v]) k (newIndex + 1))
  else
    match getChunk store s k chunkIndex with
    | (none, s) => (.outOfRange, s)
    | (some chunk, s) =>
        let newChunk := chunk ++ [v]
        if indexInsideChunk.toNat ≠ newChunk.length - 1 then (.internalError, s)
        else (.done, store.setCounter (store.setItem s k chunkIndex newChunk) k (newIndex + 1))

def popBackItem (s : S) (k : K) : KeyedResult V × S :=
  let sz := store.getCounter s k
  if sz = 0 then (.empty, s)
  else
    let lastIndex := sz - 1
    let (chunkIndex, indexInsideChunk) := getChunkIndex chunkSize lastIndex
    if indexInsideChunk = 0 then
      match store.eraseItem s k chunkIndex with
      | none => (.outOfRange, s)
      | some s => (.done, store.setCounter s k lastIndex)
    else
      match getChunk store s k chunkIndex with
      | (none, s) => (.outOfRange, s)
      | (some chunk, s) =>
          if indexInsideChunk.toNat < chunk.length then
            (.done, store.setCounter (store.setItem s k chunkIndex chunk.dropLast) k lastIndex)
          else (.internalError, s)

/-- The loop of `erase_items`: `remaining` chunks from `chunkIndex` on. -/
def eraseChunks (k : K) : Nat → S → UInt64 → Option S
  | 0, s, _ => some s
  | remaining + 1, s, chunkIndex =>
      (store.eraseItem s k chunkIndex).bind fun s => eraseChunks k remaining s (chunkIndex + 1)

def eraseItems (s : S) (k : K) : KeyedResult V × S :=
  let sz := store.getCounter s k
  if sz = 0 then (.done, s)
  else
    let (lastChunkIndex, _) := getChunkIndex chunkSize (sz - 1)
    match eraseChunks store k (lastChunkIndex.toNat + 1) s 0 with
    | none => (.outOfRange, s)
    | some s => (.done, store.setCounter s k 0)

def step (s : S) : ChunkedOp K V → KeyedResult V × S
  | .array (.pushBackItem k v) => pushBackItem store chunkSize s k v
  | .array (.popBackItem k) => popBackItem store chunkSize s k
  | .array (.eraseItems k) => eraseItems store chunkSize s k
  | .array (.getSubitem k i) => getSubitem store chunkSize s k i
  | .array (.getItemSize k) => (.size (getItemSize store s k).toNat, s)
  | .getSubitems k offset count => getSubitems store chunkSize s k offset count

end ChunkedArrays

/-! ## `basic_key_to_array_accessor` -/

namespace BasicArrays

variable (store : ArrayStore S K V)

def getItemSize (s : S) (k : K) : UInt64 := store.getCounter s k

def getSubitem (s : S) (k : K) (i : UInt64) : KeyedResult V × S :=
  if i ≥ getItemSize store s k then (.outOfRange, s)
  else
    match store.getItem s k i with
    | (none, s) => (.internalError, s)
    | (some v, s) => (.item v, s)

def pushBackItem (s : S) (k : K) (v : V) : KeyedResult V × S :=
  let newIndex := store.getCounter s k
  let s := store.setCounter s k (newIndex + 1)
  (.done, store.setItem s k newIndex v)

def popBackItem (s : S) (k : K) : KeyedResult V × S :=
  let sz := store.getCounter s k
  if sz = 0 then (.empty, s)
  else
    match store.eraseItem s k (sz - 1) with
    | none => (.outOfRange, s)
    | some s => (.done, store.setCounter s k (sz - 1))

/-- The loop of `erase_items`, from the last item to the first one. -/
def eraseDown (k : K) : Nat → S → Option S
  | 0, s => some s
  | sz + 1, s => (store.eraseItem s k (UInt64.ofNat sz)).bind (eraseDown k sz)

def eraseItems (s : S) (k : K) : KeyedResult V × S :=
  match eraseDown store k (store.getCounter s k).toNat s with
  | none => (.outOfRange, s)
  | some s => (.done, store.setCounter s k 0)

def step (s : S) : KeyedOp K V → KeyedResult V × S
  | .pushBackItem k v => pushBackItem store s k v
  | .popBackItem k => popBackItem store s k
  | .eraseItems k => eraseItems store s k
  | .getSubitem k i => getSubitem store s k i
  | .getItemSize k => (.size (getItemSize store s k).toNat, s)

end BasicArrays

end Algorithms

/-! ## A map from keys to lists -/

section Lists

variable {K V : Type*} [DecidableEq K]

def listStep (m : K → List V) : KeyedOp K V → KeyedResult V × (K → List V)
  | .pushBackItem k v => (.done, Function.update m k (m k ++ [v]))
  | .popBackItem k =>
      match m k with
      | [] => (.empty, m)
      | _ :: _ => (.done, Function.update m k (m k).dropLast)
  | .eraseItems k => (.done, Function.update m k [])
  | .getSubitem k i =>
      match (m k)[i.toNat]? with
      | none => (.outOfRange, m)
      | some v => (.item v, m)
  | .getItemSize k => (.size (m k).length, m)

def slice (l : List V) (offset count : Nat) : Option (List V) :=
  if offset + count ≤ l.length then some ((l.drop offset).take count) else none

/-- No items are there from any offset on. -/
def sliceOrNothing (l : List V) (offset count : Nat) : Option (List V) :=
  if count = 0 then some [] else slice l offset count

def chunkedListStep (slice : List V → Nat → Nat → Option (List V)) (m : K → List V) :
    ChunkedOp K V → KeyedResult V × (K → List V)
  | .array op => listStep m op
  | .getSubitems k offset count =>
      match slice (m k) offset.toNat count.toNat with
      | none => (.outOfRange, m)
      | some vs => (.items vs, m)

/-- The counter has room for one more. -/
def HasRoom (m : K → List V) : KeyedOp K V → Prop
  | .pushBackItem k _ => (m k).length + 1 < 2 ^ 64
  | _ => True

def ChunkedHasRoom (m : K → List V) : ChunkedOp K V → Prop
  | .array op => HasRoom m op
  | .getSubitems _ _ _ => True

end Lists

/-! ## What a store shows -/

section Serving

variable {S K V I : Type*} [DecidableEq K]

/-- The requests answer from the counters and the items that a state shows, and change
them as they should. -/
structure ServesArrays (store : ArrayStore S K I)
    (Shows : S → (K → UInt64) → (K × UInt64 → Option I) → Prop) : Prop where
  getItem : ∀ s counters items k i, Shows s counters items →
    (store.getItem s k i).1 = items (k, i) ∧ Shows (store.getItem s k i).2 counters items
  setItem : ∀ s counters items k i x, Shows s counters items →
    Shows (store.setItem s k i x) counters (Function.update items (k, i) (some x))
  eraseItem : ∀ s counters items k i, Shows s counters items →
    ∃ next, store.eraseItem s k i = some next ∧
      Shows next counters (Function.update items (k, i) none)
  getCounter : ∀ s counters items k, Shows s counters items → store.getCounter s k = counters k
  setCounter : ∀ s counters items k n, Shows s counters items →
    Shows (store.setCounter s k n) (Function.update counters k n) items

/-- The store has the counters of the lists, and of each list the pieces under their indexes. -/
def Represents (Shows : S → (K → UInt64) → (K × UInt64 → Option I) → Prop)
    (pieces : List V → Nat → Option I) (s : S) (m : K → List V) : Prop :=
  ∃ counters items, Shows s counters items ∧ (∀ k, (counters k).toNat = (m k).length) ∧
    ∀ k i, items (k, i) = pieces (m k) i.toNat

variable {Shows : S → (K → UInt64) → (K × UInt64 → Option I) → Prop}
  {pieces : List V → Nat → Option I} {s : S} {m : K → List V} {counters : K → UInt64}
  {items : K × UInt64 → Option I}

/-- One list has changed, in its length and in the piece under one index. -/
theorem represents_update {k : K} {n index : UInt64} {piece : Option I} {l : List V}
    (sizes : ∀ k, (counters k).toNat = (m k).length)
    (same : ∀ k i, items (k, i) = pieces (m k) i.toNat)
    (shows : Shows s (Function.update counters k n) (Function.update items (k, index) piece))
    (size : n.toNat = l.length) (self : piece = pieces l index.toNat)
    (others : ∀ i, i ≠ index.toNat → pieces l i = pieces (m k) i) :
    Represents Shows pieces s (Function.update m k l) := by
  refine ⟨_, _, shows, fun other => ?_, fun other i => ?_⟩
  · by_cases isKey : other = k
    · subst isKey
      simp [size]
    · simp [isKey, sizes]
  · by_cases isKey : other = k
    · subst isKey
      by_cases isIndex : i = index
      · subst isIndex
        simp [self]
      · have differs : i.toNat ≠ index.toNat := fun equal => isIndex (UInt64.toNat_inj.mp equal)
        rw [Function.update_of_ne (by simp [isIndex]), same, Function.update_self, others _ differs]
    · rw [Function.update_of_ne (by simp [isKey]), same, Function.update_of_ne isKey]

theorem ServesArrays.read {store : ArrayStore S K I} (serves : ServesArrays store Shows)
    (shows : Shows s counters items) (k : K) (i : UInt64) :
    ∃ next, store.getItem s k i = (items (k, i), next) ∧ Shows next counters items := by
  obtain ⟨same, after⟩ := serves.getItem s counters items k i shows
  exact ⟨_, Prod.ext same rfl, after⟩

end Serving

/-! ## Arrays in chunks -/

namespace ChunkedArrays

variable {S K V : Type*} [DecidableEq K] {store : ArrayStore S K (List V)} {chunkSize : UInt64}
  {Shows : S → (K → UInt64) → (K × UInt64 → Option (List V)) → Prop} {s : S} {m : K → List V}
  {k : K}

open Chunks

theorem pushBackItem_eq (serves : ServesArrays store Shows) (positive : 0 < chunkSize.toNat)
    (represents : Represents Shows (chunk chunkSize.toNat) s m)
    (room : (m k).length + 1 < 2 ^ 64) (v : V) :
    ∃ next, pushBackItem store chunkSize s k v = (.done, next) ∧
      Represents Shows (chunk chunkSize.toNat) next (Function.update m k (m k ++ [v])) := by
  obtain ⟨counters, items, shows, sizes, same⟩ := represents
  have counter := serves.getCounter s counters items k shows
  have index : (counters k / chunkSize).toNat = (m k).length / chunkSize.toNat := by
    rw [UInt64.toNat_div, sizes]
  have inside : (counters k % chunkSize).toNat = (m k).length % chunkSize.toNat := by
    rw [UInt64.toNat_mod, sizes]
  have size : (counters k + 1).toNat = (m k ++ [v]).length := by
    rw [UInt64.toNat_add, sizes, List.length_append, List.length_singleton]
    exact Nat.mod_eq_of_lt room
  have updated (after : S) (shows : Shows after counters items) :=
    represents_update sizes same (serves.setCounter _ _ _ k (counters k + 1)
      (serves.setItem _ _ _ k (counters k / chunkSize) (rest chunkSize.toNat (m k) ++ [v]) shows))
        size
      (by rw [index, chunk_append_self positive]) fun i other =>
        chunk_append_of_ne positive (index ▸ other)
  by_cases first : counters k % chunkSize = 0
  · have noRest : rest chunkSize.toNat (m k) = [] := by
      rw [← List.length_eq_zero_iff, length_rest, ← inside, first]
      rfl
    have result := updated s shows
    rw [noRest, List.nil_append] at result
    exact ⟨_, by simp only [pushBackItem, counter, getChunkIndex, if_pos first], result⟩
  · have notFirst : (m k).length % chunkSize.toNat ≠ 0 := by
      rw [← inside]
      exact fun zero => first (UInt64.toNat_inj.mp zero)
    obtain ⟨after, read, shows⟩ := serves.read shows k (counters k / chunkSize)
    rw [same, index, chunk_last positive, if_neg notFirst] at read
    have consistent :
        ¬(counters k % chunkSize).toNat ≠ (rest chunkSize.toNat (m k) ++ [v]).length - 1 := by
      rw [inside, List.length_append, length_rest, List.length_singleton]
      omega
    exact ⟨_,
      by simp only [pushBackItem, counter, getChunkIndex, if_neg first, getChunk, read,
        if_neg consistent],
      updated after shows⟩

theorem popBackItem_empty (serves : ServesArrays store Shows)
    (represents : Represents Shows (chunk chunkSize.toNat) s m) (empty : m k = []) :
    popBackItem store chunkSize s k = (.empty, s) := by
  obtain ⟨counters, items, shows, sizes, same⟩ := represents
  have counter := serves.getCounter s counters items k shows
  have zero : counters k = 0 := by
    rw [← UInt64.toNat_inj, sizes, empty]
    rfl
  simp only [popBackItem, counter, if_pos zero]

theorem popBackItem_eq (serves : ServesArrays store Shows) (positive : 0 < chunkSize.toNat)
    (represents : Represents Shows (chunk chunkSize.toNat) s m) {front : List V} {v : V}
    (split : m k = front ++ [v]) :
    ∃ next, popBackItem store chunkSize s k = (.done, next) ∧
      Represents Shows (chunk chunkSize.toNat) next (Function.update m k front) := by
  obtain ⟨counters, items, shows, sizes, same⟩ := represents
  have counter := serves.getCounter s counters items k shows
  have length : (counters k).toNat = front.length + 1 := by
    rw [sizes, split, List.length_append, List.length_singleton]
  have notZero : counters k ≠ 0 := by
    intro zero
    rw [zero] at length
    cases length
  have last : (counters k - 1).toNat = front.length := by
    have one : (1 : UInt64).toNat = 1 := rfl
    rw [UInt64.toNat_sub_of_le _ _ (by rw [UInt64.le_iff_toNat_le, length, one]; omega),
      length, one, Nat.add_sub_cancel]
  have index : ((counters k - 1) / chunkSize).toNat = front.length / chunkSize.toNat := by
    rw [UInt64.toNat_div, last]
  have inside : ((counters k - 1) % chunkSize).toNat = front.length % chunkSize.toNat := by
    rw [UInt64.toNat_mod, last]
  have others (i : Nat) (other : i ≠ ((counters k - 1) / chunkSize).toNat) :
      chunk chunkSize.toNat front i = chunk chunkSize.toNat (m k) i := by
    rw [split, chunk_append_of_ne positive (index ▸ other)]
  by_cases first : (counters k - 1) % chunkSize = 0
  · have full : front.length % chunkSize.toNat = 0 := by
      rw [← inside, first]
      rfl
    obtain ⟨after, erased, shows⟩ :=
      serves.eraseItem s counters items k ((counters k - 1) / chunkSize) shows
    refine ⟨_,
      by simp only [popBackItem, counter, getChunkIndex, if_neg notZero, if_pos first,
        erased], represents_update sizes same
      (serves.setCounter _ _ _ k _ shows) last ?_ others⟩
    rw [index, chunk_last positive, if_pos full]
  · have notFull : front.length % chunkSize.toNat ≠ 0 := by
      rw [← inside]
      exact fun zero => first (UInt64.toNat_inj.mp zero)
    obtain ⟨after, read, shows⟩ := serves.read shows k ((counters k - 1) / chunkSize)
    rw [same, index, split, chunk_append_self positive] at read
    have consistent :
        ((counters k - 1) % chunkSize).toNat < (rest chunkSize.toNat front ++ [v]).length := by
      rw [inside, List.length_append, length_rest, List.length_singleton]
      omega
    refine ⟨_, by
      simp only [popBackItem, counter, getChunkIndex, if_neg notZero, if_neg first, getChunk, read,
        if_pos consistent], represents_update sizes same (serves.setCounter _ _ _ k _
        (serves.setItem _ _ _ k _ (rest chunkSize.toNat front ++ [v]).dropLast shows)) last
          ?_ others⟩
    rw [index, chunk_last positive, if_neg notFull, List.dropLast_concat]

theorem eraseChunks_eq (serves : ServesArrays store Shows) {counters : K → UInt64} (remaining : Nat)
    {items : K × UInt64 → Option (List V)} (start : UInt64) (shows : Shows s counters items)
    (small : start.toNat + remaining < 2 ^ 64) :
    ∃ next after, eraseChunks store k remaining s start = some next ∧ Shows next counters after ∧
      ∀ other i, after (other, i) =
        if other = k ∧ start.toNat ≤ i.toNat ∧ i.toNat < start.toNat + remaining then none
        else items (other, i) := by
  induction remaining generalizing s items start with
  | zero =>
      refine ⟨s, items, rfl, shows, fun other i => ?_⟩
      rw [if_neg (by omega)]
  | succ remaining inductionHypothesis =>
      obtain ⟨erased, isErased, showsErased⟩ := serves.eraseItem s counters items k start shows
      have one : (1 : UInt64).toNat = 1 := rfl
      have next : (start + 1).toNat = start.toNat + 1 := by
        rw [UInt64.toNat_add, one]
        omega
      obtain ⟨final, after, isFinal, showsFinal, content⟩ :=
        inductionHypothesis (start + 1) showsErased (by omega)
      refine ⟨final, after, by rw [eraseChunks, isErased, Option.bind_some, isFinal], showsFinal,
        fun other i => ?_⟩
      rw [content, next]
      by_cases isFirst : other = k ∧ i = start
      · obtain ⟨rfl, rfl⟩ := isFirst
        simp
      · have notSame : (other, i) ≠ (k, start) := by simpa using isFirst
        have apart : other = k → i.toNat ≠ start.toNat := fun isKey same =>
          isFirst ⟨isKey, UInt64.toNat_inj.mp same⟩
        rw [Function.update_of_ne notSame]
        by_cases isKey : other = k
        · have := apart isKey
          congr 1
          simp only [isKey, true_and, eq_iff_iff]
          omega
        · simp [isKey]

theorem eraseItems_eq (serves : ServesArrays store Shows) (positive : 0 < chunkSize.toNat)
    (represents : Represents Shows (chunk chunkSize.toNat) s m) :
    ∃ next, eraseItems (V := V) store chunkSize s k = (.done, next) ∧
      Represents Shows (chunk chunkSize.toNat) next (Function.update m k []) := by
  obtain ⟨counters, items, shows, sizes, same⟩ := represents
  have counter := serves.getCounter s counters items k shows
  have size := sizes k
  have small := (counters k).toNat_lt
  by_cases empty : counters k = 0
  · refine ⟨s, by simp only [eraseItems, counter, if_pos empty], ?_⟩
    have noItems : m k = [] := by
      rw [← List.length_eq_zero_iff, ← size, empty]
      rfl
    rw [← noItems, Function.update_eq_self]
    exact ⟨counters, items, shows, sizes, same⟩
  · have one : (1 : UInt64).toNat = 1 := rfl
    have zero : (0 : UInt64).toNat = 0 := rfl
    have notEmpty : (counters k).toNat ≠ 0 := fun isZero => empty (UInt64.toNat_inj.mp isZero)
    have last : (counters k - 1).toNat = (m k).length - 1 := by
      rw [UInt64.toNat_sub_of_le _ _ (by rw [UInt64.le_iff_toNat_le, one]; omega), size, one]
    have lastChunk :
        ((counters k - 1) / chunkSize).toNat = ((m k).length - 1) / chunkSize.toNat := by
      rw [UInt64.toNat_div, last]
    have most : ((m k).length - 1) / chunkSize.toNat ≤ (m k).length - 1 := Nat.div_le_self _ _
    obtain ⟨next, after, erased, showsNext, content⟩ :=
      eraseChunks_eq (k := k) serves (((counters k - 1) / chunkSize).toNat + 1) 0 shows (by omega)
    refine ⟨store.setCounter next k 0, ?_, _, _, serves.setCounter _ _ _ k 0 showsNext,
      fun other => ?_, fun other i => ?_⟩
    · simp only [eraseItems, counter, if_neg empty, getChunkIndex, erased]
    · by_cases isKey : other = k
      · subst isKey
        simp
      · simp [isKey, sizes]
    · rw [content]
      by_cases isKey : other = k
      · subst isKey
        rw [Function.update_self, chunk_nil]
        split
        · rfl
        · rename_i behind
          rw [same]
          -- what is not erased is behind the last chunk
          simp only [true_and, zero] at behind
          exact chunk_eq_none positive (by omega)
      · rw [if_neg (by simp [isKey]), same, Function.update_of_ne isKey]

theorem getSubitem_eq (serves : ServesArrays store Shows) (positive : 0 < chunkSize.toNat)
    (represents : Represents Shows (chunk chunkSize.toNat) s m) (i : UInt64) :
    ∃ next, getSubitem store chunkSize s k i =
        (match (m k)[i.toNat]? with | none => .outOfRange | some v => .item v, next) ∧
      Represents Shows (chunk chunkSize.toNat) next m := by
  obtain ⟨counters, items, shows, sizes, same⟩ := represents
  have counter := serves.getCounter s counters items k shows
  have size := sizes k
  by_cases behind : i ≥ counters k
  · refine ⟨s, ?_, counters, items, shows, sizes, same⟩
    rw [ge_iff_le, UInt64.le_iff_toNat_le] at behind
    rw [getSubitem, getItemSize, counter, if_pos (by rwa [ge_iff_le, UInt64.le_iff_toNat_le]),
      List.getElem?_eq_none (by omega)]
  · obtain ⟨next, read, shows⟩ := serves.read shows k (i / chunkSize)
    refine ⟨next, ?_, counters, items, shows, sizes, same⟩
    have found := getElem?_chunk (i := i.toNat) (l := m k) positive
    have inRange : i.toNat < (m k).length := by
      rw [ge_iff_le, UInt64.le_iff_toNat_le] at behind
      omega
    rw [List.getElem?_eq_getElem inRange, Option.bind_eq_some_iff] at found
    obtain ⟨c, isChunk, isItem⟩ := found
    rw [same, UInt64.toNat_div, isChunk] at read
    simp only [getSubitem, getItemSize, counter, if_neg behind, getChunkIndex, getChunk, read,
      UInt64.toNat_mod, isItem, List.getElem?_eq_getElem inRange]

theorem slice_succ {l : List V} {offset count : Nat} (inRange : offset < l.length) :
    slice l offset (count + 1) = (slice l (offset + 1) count).map (l[offset] :: ·) := by
  rw [slice, slice]
  by_cases fits : offset + (count + 1) ≤ l.length
  · rw [if_pos fits, if_pos (by omega), Option.map_some, List.drop_eq_getElem_cons inRange,
      List.take_succ_cons]
  · rw [if_neg fits, if_neg (by omega), Option.map_none]

theorem currentChunk_eq (serves : ServesArrays store Shows) {counters : K → UInt64}
    {items : K × UInt64 → Option (List V)}
    (same : ∀ k i, items (k, i) = chunk chunkSize.toNat (m k) i.toNat) (chunkIndex : UInt64)
    {current : Option (UInt64 × List V)} (shows : Shows s counters items)
    (isCurrent : ∀ i c, current = some (i, c) → chunk chunkSize.toNat (m k) i.toNat = some c) :
    ∃ next, currentChunk store s k chunkIndex current =
      (chunk chunkSize.toNat (m k) chunkIndex.toNat, next) ∧
      Shows next counters items := by
  obtain ⟨after, read, showsAfter⟩ := serves.read shows k chunkIndex
  rw [same] at read
  cases current with
  | none => exact ⟨after, read, showsAfter⟩
  | some last =>
      by_cases isLast : last.1 = chunkIndex
      · refine ⟨s, ?_, shows⟩
        rw [currentChunk, if_pos isLast, ← isLast, isCurrent last.1 last.2 rfl]
      · refine ⟨after, ?_, showsAfter⟩
        rw [currentChunk, if_neg isLast, getChunk, read]

/-- By induction on what is still to be read. The index does not wrap around before the list ends,
and behind its end there is nothing to read. -/
theorem collectItems_eq (serves : ServesArrays store Shows) (positive : 0 < chunkSize.toNat)
    {counters : K → UInt64} {items : K × UInt64 → Option (List V)} (small : (m k).length < 2 ^ 64)
    (same : ∀ k i, items (k, i) = chunk chunkSize.toNat (m k) i.toNat) (remaining : Nat)
    (index : UInt64) (current : Option (UInt64 × List V)) (res : List V)
    (shows : Shows s counters items)
    (isCurrent : ∀ i c, current = some (i, c) → chunk chunkSize.toNat (m k) i.toNat = some c)
    (reaches : index.toNat ≤ (m k).length ∨ 0 < remaining) :
    ∃ next, collectItems store chunkSize k remaining s index current res =
        ((slice (m k) index.toNat remaining).map (res ++ ·), next) ∧ Shows next counters items := by
  induction remaining generalizing s index current res with
  | zero =>
      refine ⟨s, ?_, shows⟩
      rw [collectItems, slice, if_pos (by omega)]
      simp
  | succ remaining inductionHypothesis =>
      have found := getElem?_chunk (i := index.toNat) (l := m k) positive
      rw [← UInt64.toNat_div, ← UInt64.toNat_mod] at found
      obtain ⟨after, isChunk, showsAfter⟩ :=
        currentChunk_eq (k := k) serves same (index / chunkSize) shows isCurrent
      by_cases inRange : index.toNat < (m k).length
      · rw [List.getElem?_eq_getElem inRange, Option.bind_eq_some_iff] at found
        obtain ⟨c, hasChunk, isItem⟩ := found
        have one : (1 : UInt64).toNat = 1 := rfl
        have next : (index + 1).toNat = index.toNat + 1 := by
          rw [UInt64.toNat_add, one]
          omega
        obtain ⟨final, collected, showsFinal⟩ :=
          inductionHypothesis (index + 1) (some (index / chunkSize, c))
          (res ++ [(m k)[index.toNat]]) showsAfter (by rintro i d ⟨rfl, rfl⟩; exact hasChunk)
            (.inl (by omega))
        refine ⟨final, ?_, showsFinal⟩
        simp only [collectItems, getChunkIndex, isChunk, hasChunk, isItem, collected, next,
          slice_succ inRange, Option.map_map]
        congr 2
        funext later
        simp
      · rw [List.getElem?_eq_none (Nat.le_of_not_lt inRange), Option.bind_eq_none_iff] at found
        refine ⟨after, ?_, showsAfter⟩
        simp only [collectItems, getChunkIndex, isChunk]
        rw [slice, if_neg (by omega), Option.map_none]
        cases hasChunk : chunk chunkSize.toNat (m k) (index / chunkSize).toNat with
        | none => rfl
        | some c => simp only [found c hasChunk]

theorem getSubitems_eq (serves : ServesArrays store Shows) (positive : 0 < chunkSize.toNat)
    (represents : Represents Shows (chunk chunkSize.toNat) s m) (offset count : UInt64) :
    ∃ next, getSubitems store chunkSize s k offset count =
        (match sliceOrNothing (m k) offset.toNat count.toNat with
          | none => .outOfRange
          | some vs => .items vs, next) ∧
      Represents Shows (chunk chunkSize.toNat) next m := by
  obtain ⟨counters, items, shows, sizes, same⟩ := represents
  have counter := serves.getCounter s counters items k shows
  have size := sizes k
  have small := (counters k).toNat_lt
  by_cases nothing : count = 0
  · exact ⟨s, by simp [getSubitems, nothing, sliceOrNothing], counters, items, shows, sizes, same⟩
  · have notZero : count.toNat ≠ 0 := fun zero => nothing (UInt64.toNat_inj.mp zero)
    rw [sliceOrNothing, if_neg notZero]
    by_cases behind : offset + count > counters k
    · refine ⟨s, ?_, counters, items, shows, sizes, same⟩
      have sum := UInt64.toNat_add offset count
      have most : (offset.toNat + count.toNat) % 2 ^ 64 ≤ offset.toNat + count.toNat :=
        Nat.mod_le _ _
      have less := UInt64.lt_iff_toNat_lt.mp behind
      rw [slice, if_neg (by omega)]
      simp only [getSubitems, getItemSize, counter, if_neg nothing, if_pos behind]
    · obtain ⟨next, collected, showsNext⟩ :=
        collectItems_eq (k := k) serves positive (by omega) same count.toNat offset
        none [] shows (by simp) (.inr (by omega))
      refine ⟨next, ?_, counters, items, showsNext, sizes, same⟩
      simp only [getSubitems, getItemSize, counter, if_neg nothing, if_neg behind, collected]
      cases slice (m k) offset.toNat count.toNat <;> simp

/-- One request on the chunks is one on the lists. -/
theorem step_eq (serves : ServesArrays store Shows) (positive : 0 < chunkSize.toNat)
    {op : ChunkedOp K V} (represents : Represents Shows (chunk chunkSize.toNat) s m)
    (room : ChunkedHasRoom m op) :
    (step store chunkSize s op).1 = (chunkedListStep sliceOrNothing m op).1 ∧
      Represents Shows (chunk chunkSize.toNat) (step store chunkSize s op).2
        (chunkedListStep sliceOrNothing m op).2 := by
  cases op with
  | array op =>
      cases op with
      | pushBackItem k v =>
          obtain ⟨next, done, after⟩ := pushBackItem_eq serves positive represents room v
          simp only [step, done, chunkedListStep, listStep]
          exact ⟨trivial, after⟩
      | popBackItem k =>
          simp only [step, chunkedListStep, listStep]
          split
          · rename_i empty
            rw [popBackItem_empty serves represents empty]
            exact ⟨rfl, represents⟩
          · rename_i v l isSome
            have split : m k = (m k).dropLast ++ [(m k).getLast (by simp [isSome])] :=
              (List.dropLast_append_getLast _).symm
            obtain ⟨next, done, after⟩ := popBackItem_eq serves positive represents split
            simp only [done]
            exact ⟨trivial, after⟩
      | eraseItems k =>
          obtain ⟨next, done, after⟩ := eraseItems_eq (k := k) serves positive represents
          simp only [step, done, chunkedListStep, listStep]
          exact ⟨trivial, after⟩
      | getSubitem k i =>
          obtain ⟨next, done, after⟩ := getSubitem_eq (k := k) serves positive represents i
          simp only [step, done, chunkedListStep, listStep]
          cases (m k)[i.toNat]? with
          | none => exact ⟨rfl, after⟩
          | some v => exact ⟨rfl, after⟩
      | getItemSize k =>
          obtain ⟨counters, items, shows, sizes, same⟩ := represents
          simp only [step, chunkedListStep, listStep, getItemSize,
            serves.getCounter s counters items k shows, sizes]
          exact ⟨trivial, counters, items, shows, sizes, same⟩
  | getSubitems k offset count =>
      obtain ⟨next, done, after⟩ := getSubitems_eq (k := k) serves positive represents offset count
      simp only [step, done, chunkedListStep]
      cases sliceOrNothing (m k) offset.toNat count.toNat with
      | none => exact ⟨rfl, after⟩
      | some vs => exact ⟨rfl, after⟩

end ChunkedArrays

/-! ## Arrays of single items -/

namespace BasicArrays

variable {S K V : Type*} [DecidableEq K] {store : ArrayStore S K V}
  {Shows : S → (K → UInt64) → (K × UInt64 → Option V) → Prop} {s : S} {m : K → List V} {k : K}

/-- An item for every index of the list. -/
def single (l : List V) (i : Nat) : Option V := l[i]?

theorem single_append_of_ne {l : List V} {v : V} {i : Nat} (other : i ≠ l.length) :
    single (l ++ [v]) i = single l i := by
  grind [single]

theorem pushBackItem_eq (serves : ServesArrays store Shows)
    (represents : Represents Shows single s m) (room : (m k).length + 1 < 2 ^ 64) (v : V) :
    ∃ next, pushBackItem store s k v = (.done, next) ∧
      Represents Shows single next (Function.update m k (m k ++ [v])) := by
  obtain ⟨counters, items, shows, sizes, same⟩ := represents
  have counter := serves.getCounter s counters items k shows
  have size : (counters k + 1).toNat = (m k ++ [v]).length := by
    rw [UInt64.toNat_add, sizes, List.length_append, List.length_singleton]
    exact Nat.mod_eq_of_lt room
  refine ⟨_, by simp only [pushBackItem, counter], represents_update sizes same
    (serves.setItem _ _ _ k (counters k) v (serves.setCounter _ _ _ k (counters k + 1) shows))
      size ?_ ?_⟩
  · simp [single, sizes]
  · exact fun i other => single_append_of_ne (by rwa [sizes] at other)

theorem popBackItem_eq (serves : ServesArrays store Shows)
    (represents : Represents Shows single s m) {front : List V} {v : V}
    (split : m k = front ++ [v]) :
    ∃ next, popBackItem store s k = (.done, next) ∧
      Represents Shows single next (Function.update m k front) := by
  obtain ⟨counters, items, shows, sizes, same⟩ := represents
  have counter := serves.getCounter s counters items k shows
  have one : (1 : UInt64).toNat = 1 := rfl
  have length : (counters k).toNat = front.length + 1 := by
    rw [sizes, split, List.length_append, List.length_singleton]
  have notZero : counters k ≠ 0 := by
    intro zero
    rw [zero] at length
    cases length
  have last : (counters k - 1).toNat = front.length := by
    rw [UInt64.toNat_sub_of_le _ _ (by rw [UInt64.le_iff_toNat_le, length, one]; omega),
      length, one, Nat.add_sub_cancel]
  obtain ⟨after, erased, shows⟩ := serves.eraseItem s counters items k (counters k - 1) shows
  refine ⟨_, by simp only [popBackItem, counter, if_neg notZero, erased],
    represents_update sizes same
    (serves.setCounter _ _ _ k _ shows) last ?_ ?_⟩
  · simp [single, last]
  · intro i other
    rw [last] at other
    rw [split, single_append_of_ne other]

theorem eraseDown_eq (serves : ServesArrays store Shows) {counters : K → UInt64} (sz : Nat)
    {items : K × UInt64 → Option V} (shows : Shows s counters items) (small : sz < 2 ^ 64) :
    ∃ next after, eraseDown store k sz s = some next ∧ Shows next counters after ∧
      ∀ other i, after (other, i) = if other = k ∧ i.toNat < sz then none
        else items (other, i) := by
  induction sz generalizing s items with
  | zero =>
      refine ⟨s, items, rfl, shows, fun other i => ?_⟩
      rw [if_neg (by omega)]
  | succ sz inductionHypothesis =>
      obtain ⟨erased, isErased, showsErased⟩ :=
        serves.eraseItem s counters items k (UInt64.ofNat sz) shows
      have index : (UInt64.ofNat sz).toNat = sz :=
        UInt64.toNat_ofNat_of_lt' (by omega : sz < 2 ^ 64)
      obtain ⟨final, after, isFinal, showsFinal, content⟩ :=
        inductionHypothesis showsErased (by omega)
      refine ⟨final, after, by rw [eraseDown, isErased, Option.bind_some, isFinal], showsFinal,
        fun other i => ?_⟩
      rw [content]
      by_cases isKey : other = k
      · by_cases isLast : i = UInt64.ofNat sz
        · subst isLast
          simp [isKey, index]
        · have differs : i.toNat ≠ sz :=
            fun equal => isLast (UInt64.toNat_inj.mp (equal.trans index.symm))
          rw [Function.update_of_ne (by simp [isLast])]
          congr 1
          simp only [isKey, true_and, eq_iff_iff]
          omega
      · rw [if_neg (by simp [isKey]), if_neg (by simp [isKey]),
          Function.update_of_ne (by simp [isKey])]

theorem eraseItems_eq (serves : ServesArrays store Shows)
    (represents : Represents Shows single s m) :
    ∃ next, eraseItems store s k = (.done, next) ∧
      Represents Shows single next (Function.update m k []) := by
  obtain ⟨counters, items, shows, sizes, same⟩ := represents
  have counter := serves.getCounter s counters items k shows
  obtain ⟨next, after, erased, showsNext, content⟩ :=
    eraseDown_eq (k := k) serves (counters k).toNat shows (counters k).toNat_lt
  refine ⟨store.setCounter next k 0, by simp only [eraseItems, counter, erased], _, _,
    serves.setCounter _ _ _ k 0 showsNext, fun other => ?_, fun other i => ?_⟩
  · by_cases isKey : other = k
    · subst isKey
      simp
    · simp [isKey, sizes]
  · rw [content]
    by_cases isKey : other = k
    · subst isKey
      rw [Function.update_self]
      split
      · rfl
      · rename_i behind
        rw [same, single, single, List.getElem?_nil, List.getElem?_eq_none]
        have := sizes other
        simp only [true_and] at behind
        omega
    · rw [if_neg (by simp [isKey]), same, Function.update_of_ne isKey]

theorem getSubitem_eq (serves : ServesArrays store Shows) (represents : Represents Shows single s m)
    (i : UInt64) :
    ∃ next, getSubitem store s k i =
      (match (m k)[i.toNat]? with | none => .outOfRange | some v => .item v, next) ∧
      Represents Shows single next m := by
  obtain ⟨counters, items, shows, sizes, same⟩ := represents
  have counter := serves.getCounter s counters items k shows
  have size := sizes k
  by_cases behind : i ≥ counters k
  · refine ⟨s, ?_, counters, items, shows, sizes, same⟩
    have atLeast := UInt64.le_iff_toNat_le.mp behind
    rw [getSubitem, getItemSize, counter, if_pos behind, List.getElem?_eq_none (by omega)]
  · obtain ⟨next, read, shows⟩ := serves.read shows k i
    refine ⟨next, ?_, counters, items, shows, sizes, same⟩
    have inRange : i.toNat < (m k).length := by
      rw [ge_iff_le, UInt64.le_iff_toNat_le] at behind
      omega
    rw [same, single, List.getElem?_eq_getElem inRange] at read
    simp only [getSubitem, getItemSize, counter, if_neg behind, read,
      List.getElem?_eq_getElem inRange]

theorem step_eq (serves : ServesArrays store Shows) {op : KeyedOp K V}
    (represents : Represents Shows single s m) (room : HasRoom m op) :
    (step store s op).1 = (listStep m op).1 ∧
      Represents Shows single (step store s op).2 (listStep m op).2 := by
  cases op with
  | pushBackItem k v =>
      obtain ⟨next, done, after⟩ := pushBackItem_eq serves represents room v
      simp only [step, done, listStep]
      exact ⟨trivial, after⟩
  | popBackItem k =>
      simp only [step, listStep]
      split
      · rename_i empty
        obtain ⟨counters, items, shows, sizes, same⟩ := represents
        have zero : counters k = 0 := by
          rw [← UInt64.toNat_inj, sizes, empty]
          rfl
        simp only [popBackItem, serves.getCounter s counters items k shows, if_pos zero]
        exact ⟨trivial, counters, items, shows, sizes, same⟩
      · rename_i v l isSome
        have split : m k = (m k).dropLast ++ [(m k).getLast (by simp [isSome])] :=
          (List.dropLast_append_getLast _).symm
        obtain ⟨next, done, after⟩ := popBackItem_eq serves represents split
        simp only [done]
        exact ⟨trivial, after⟩
  | eraseItems k =>
      obtain ⟨next, done, after⟩ := eraseItems_eq (k := k) serves represents
      simp only [step, done, listStep]
      exact ⟨trivial, after⟩
  | getSubitem k i =>
      obtain ⟨next, done, after⟩ := getSubitem_eq (k := k) serves represents i
      simp only [step, done, listStep]
      cases (m k)[i.toNat]? with
      | none => exact ⟨rfl, after⟩
      | some v => exact ⟨rfl, after⟩
  | getItemSize k =>
      obtain ⟨counters, items, shows, sizes, same⟩ := represents
      simp only [step, listStep, getItemSize, serves.getCounter s counters items k shows, sizes]
      exact ⟨trivial, counters, items, shows, sizes, same⟩

end BasicArrays

end Zano.Db.KeyToArray
