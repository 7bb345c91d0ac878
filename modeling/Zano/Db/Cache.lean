import Mathlib.Data.Finmap
import Mathlib.Tactic.Common

/-! # The value cache and its write isolation

`CacheBase` is `cache_base` of `cache_helper.h`: a bounded map whose keys are also kept in a list,
most recently accessed first. The iterators which the source stores next to every value only serve
to find a key in that list in constant time; here the key itself finds its place, and the two
structures are kept in step by the fields `nodup` and `listed`.

`IsolationLock` decides which threads may use a cache: while one thread writes, only that thread
may. `CacheWithWriteIsolation`'s operations are those of `CacheBase` behind that decision.
-/

namespace Zano.Db

structure CacheBase (K V : Type*) where
  maxAllowedElements : Nat
  mostRecentAccessed : List K
  data : Finmap fun _ : K => V
  nodup : mostRecentAccessed.Nodup
  listed : ∀ k, k ∈ mostRecentAccessed ↔ k ∈ data

namespace CacheBase

variable {K V : Type*} [DecidableEq K]

def empty (K V : Type*) (maxElements : Nat) : CacheBase K V where
  maxAllowedElements := maxElements
  mostRecentAccessed := []
  data := ∅
  nodup := List.nodup_nil
  listed k := by simp [Finmap.notMem_empty]

def clear (c : CacheBase K V) : CacheBase K V := empty K V c.maxAllowedElements

/-- Move a key that is present to the front of the list. -/
def touch (c : CacheBase K V) (k : K) (present : k ∈ c.data) : CacheBase K V where
  maxAllowedElements := c.maxAllowedElements
  mostRecentAccessed := k :: c.mostRecentAccessed.erase k
  data := c.data
  nodup := List.nodup_cons.mpr ⟨c.nodup.not_mem_erase, c.nodup.erase k⟩
  listed other := by
    rw [List.mem_cons, c.nodup.mem_erase_iff, c.listed]
    by_cases same : other = k
    · subst same
      simp [present]
    · simp [same]

def get (c : CacheBase K V) (k : K) : Option V × CacheBase K V :=
  if present : k ∈ c.data then (c.data.lookup k, c.touch k present) else (none, c)

def erase (c : CacheBase K V) (k : K) : CacheBase K V where
  maxAllowedElements := c.maxAllowedElements
  mostRecentAccessed := c.mostRecentAccessed.erase k
  data := c.data.erase k
  nodup := c.nodup.erase k
  listed other := by rw [c.nodup.mem_erase_iff, Finmap.mem_erase, c.listed]

/-- One round of the loop in `trim`: the least recently accessed key goes. -/
def dropBack (c : CacheBase K V) : CacheBase K V :=
  match c.mostRecentAccessed.getLast? with
  | none => c
  | some back => c.erase back

/-- `trim` loops while there are more elements than allowed, and a round removes exactly one. -/
def trim (c : CacheBase K V) : CacheBase K V :=
  dropBack^[c.mostRecentAccessed.length - c.maxAllowedElements] c

/-- The key goes to the front whether or not it was present. -/
def insertFront (c : CacheBase K V) (k : K) (v : V) : CacheBase K V where
  maxAllowedElements := c.maxAllowedElements
  mostRecentAccessed := k :: c.mostRecentAccessed.erase k
  data := c.data.insert k v
  nodup := List.nodup_cons.mpr ⟨c.nodup.not_mem_erase, c.nodup.erase k⟩
  listed other := by
    rw [List.mem_cons, c.nodup.mem_erase_iff, Finmap.mem_insert, c.listed]
    by_cases same : other = k <;> simp [same]

def set (c : CacheBase K V) (k : K) (v : V) : CacheBase K V := (c.insertFront k v).trim

/-! ## What the operations leave in the cache -/

@[simp]
theorem lookup_clear (c : CacheBase K V) (k : K) : c.clear.data.lookup k = none :=
  Finmap.lookup_empty k

@[simp]
theorem get_fst (c : CacheBase K V) (k : K) : (c.get k).1 = c.data.lookup k := by
  unfold get
  split
  · rfl
  · rename_i absent
    exact (Finmap.lookup_eq_none.mpr absent).symm

@[simp]
theorem data_get (c : CacheBase K V) (k : K) : (c.get k).2.data = c.data := by
  unfold get
  split <;> rfl

theorem lookup_erase_of_some {c : CacheBase K V} {k other : K} {v : V}
    (cached : (c.erase k).data.lookup other = some v) :
    other ≠ k ∧ c.data.lookup other = some v := by
  have different : other ≠ k := by
    rintro rfl
    exact absurd cached (by simp [erase])
  rw [erase, Finmap.lookup_erase_ne different] at cached
  exact ⟨different, cached⟩

theorem lookup_dropBack_of_some {c : CacheBase K V} {k : K} {v : V}
    (cached : c.dropBack.data.lookup k = some v) : c.data.lookup k = some v := by
  unfold dropBack at cached
  split at cached
  · exact cached
  · exact (lookup_erase_of_some cached).2

/-- Trimming only forgets. -/
theorem lookup_trim_of_some {c : CacheBase K V} {k : K} {v : V}
    (cached : c.trim.data.lookup k = some v) : c.data.lookup k = some v := by
  unfold trim at cached
  generalize c.mostRecentAccessed.length - c.maxAllowedElements = rounds at cached
  induction rounds generalizing c with
  | zero => exact cached
  | succ rounds inductionHypothesis => exact lookup_dropBack_of_some (inductionHypothesis cached)

theorem lookup_set_of_some {c : CacheBase K V} {k other : K} {v w : V}
    (cached : (c.set k v).data.lookup other = some w) :
    other = k ∧ w = v ∨ other ≠ k ∧ c.data.lookup other = some w := by
  have inserted := lookup_trim_of_some cached
  by_cases same : other = k
  · subst same
    rw [insertFront, Finmap.lookup_insert] at inserted
    exact .inl ⟨rfl, (Option.some.inj inserted).symm⟩
  · rw [insertFront, Finmap.lookup_insert_of_ne _ same] at inserted
    exact .inr ⟨same, inserted⟩

/-! ## What trimming keeps -/

theorem dropBack_of_front {c : CacheBase K V} {k : K} {rest : List K}
    (front : c.mostRecentAccessed = k :: rest) (more : rest ≠ []) :
    ∃ rest', c.dropBack.mostRecentAccessed = k :: rest' ∧ rest'.length + 1 = rest.length ∧
      c.dropBack.data.lookup k = c.data.lookup k := by
  have last : c.mostRecentAccessed.getLast? = some (rest.getLast more) := by
    rw [front, List.getLast?_eq_some_getLast (by simp), List.getLast_cons more]
  have dropped : c.dropBack = c.erase (rest.getLast more) := by
    simp only [dropBack, last]
  have inside : rest.getLast more ∈ rest := List.getLast_mem more
  have different : k ≠ rest.getLast more := by
    have nodup := front ▸ c.nodup
    rintro rfl
    exact (List.nodup_cons.mp nodup).1 inside
  refine ⟨rest.erase (rest.getLast more), ?_, ?_, ?_⟩
  · rw [dropped]
    change c.mostRecentAccessed.erase _ = _
    rw [front, List.erase_cons_tail (by simpa using different)]
  · rw [List.length_erase_of_mem inside]
    have := List.length_pos_iff.mpr more
    omega
  · rw [dropped]
    exact Finmap.lookup_erase_ne different

theorem lookup_iterate_dropBack (rounds : Nat) {c : CacheBase K V} {k : K} {rest : List K}
    (front : c.mostRecentAccessed = k :: rest) (enough : rounds ≤ rest.length) :
    (dropBack^[rounds] c).data.lookup k = c.data.lookup k := by
  induction rounds generalizing c rest with
  | zero => rfl
  | succ rounds inductionHypothesis =>
      have more : rest ≠ [] := by
        rintro rfl
        simp at enough
      obtain ⟨rest', front', shorter, kept⟩ := dropBack_of_front front more
      rw [Function.iterate_succ_apply, inductionHypothesis front' (by omega), kept]

/-- A value just set is found again, unless the cache may hold nothing at all. -/
theorem lookup_set_self (c : CacheBase K V) (k : K) (v : V) (room : 0 < c.maxAllowedElements) :
    (c.set k v).data.lookup k = some v := by
  have front : (c.insertFront k v).mostRecentAccessed = k :: c.mostRecentAccessed.erase k := rfl
  have kept := lookup_iterate_dropBack
    ((c.insertFront k v).mostRecentAccessed.length - c.maxAllowedElements) front
    (by simp only [front, List.length_cons]; omega)
  rw [set, trim]
  refine Eq.trans kept ?_
  rw [insertFront, Finmap.lookup_insert]

end CacheBase

/-! ## Isolation -/

structure IsolationLock (T : Type*) where
  currentWriterThread : Option T

namespace IsolationLock

variable {T : Type*} [DecidableEq T]

/-- The flag which `isolated_access` passes to its callback. -/
def allowedCache (lock : IsolationLock T) (thread : T) : Bool :=
  match lock.currentWriterThread with
  | some writer => thread = writer
  | none => true

/-- Throws when isolation is on already. -/
def setIsolationMode (lock : IsolationLock T) (thread : T) : Option (IsolationLock T) :=
  match lock.currentWriterThread with
  | some _ => none
  | none => some ⟨some thread⟩

/-- Throws when isolation is off already. -/
def resetIsolationMode (lock : IsolationLock T) : Option (IsolationLock T) :=
  match lock.currentWriterThread with
  | some _ => some ⟨none⟩
  | none => none

end IsolationLock

/-! ## The isolated cache

Each operation first asks the lock. A reader that may not use the cache misses on `get` and leaves
the cache alone on `set` and `clear`; on `erase` the source throws, which is `none` here. -/

section CacheWithWriteIsolation

variable {T K V : Type*} [DecidableEq T] [DecidableEq K]

def isolatedGet (lock : IsolationLock T) (c : CacheBase K V) (thread : T) (k : K) :
    Option V × CacheBase K V :=
  if lock.allowedCache thread then c.get k else (none, c)

def isolatedSet (lock : IsolationLock T) (c : CacheBase K V) (thread : T) (k : K) (v : V) :
    CacheBase K V :=
  if lock.allowedCache thread then c.set k v else c

def isolatedClear (lock : IsolationLock T) (c : CacheBase K V) (thread : T) : CacheBase K V :=
  if lock.allowedCache thread then c.clear else c

def isolatedErase (lock : IsolationLock T) (c : CacheBase K V) (thread : T) (k : K) :
    Option (CacheBase K V) :=
  if lock.allowedCache thread then some (c.erase k) else none

end CacheWithWriteIsolation

end Zano.Db
