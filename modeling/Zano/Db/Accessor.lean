import Zano.Lib.Transition
import Zano.Lib.Overlay
import Zano.Db.Cache

/-! # The database object and its accessors

`BasicDbAccessor` is `basic_db_accessor` over one container of the backend. The backend keeps one
write transaction open per nesting level of a single writer thread: a committed map under a stack of
overlays. Above it the database object keeps, for that thread, one `readonly` flag for every
`begin_transaction`; a read-only transaction inside a write transaction only counts references in
the backend, so it has a flag but no overlay. Read-only transactions of other threads span one `get`
or `size` and are not visible here.

`BasicKeyValueAccessor` and `CachedKeyValueAccessor` carry the state that the accessors keep besides
the backend: the isolation lock, the size cache with its validity flag, and the value cache. A
request that throws, or that waits for the writer's exclusive lock, is `none`.
-/

namespace Zano.Db

open Transition

abbrev Container (K V : Type*) := Finmap fun _ : K => V

/-- `true` stands for a read-only transaction, as in `m_transactions_stack`. -/
def hasWriterTxInStack (flags : List Bool) : Bool := flags.any fun readonly => !readonly

@[ext]
structure BasicDbAccessor (T K V : Type*) where
  backend : Overlay (Container K V)
  transactionsStack : List Bool
  /-- The thread that holds the exclusive write lock; the stack above is this thread's. -/
  writer : Option T
  nested : transactionsStack.count false = backend.stack.length
  owned : writer = none ↔ transactionsStack = []
  bottom : ∀ readonly ∈ transactionsStack.getLast?, readonly = false

namespace BasicDbAccessor

variable {T K V : Type*} [DecidableEq T]

/-- A database that was just opened. -/
def openOn (T : Type*) {K V : Type*} (committed : Container K V) : BasicDbAccessor T K V where
  backend := ⟨committed, []⟩
  transactionsStack := []
  writer := none
  nested := rfl
  owned := by simp
  bottom := by simp

/-- Returns whether `on_write_transaction_begin` is sent to the accessors, and the new state. -/
def beginTransaction (db : BasicDbAccessor T K V) (thread : T) (readonly : Bool) :
    Option (Bool × BasicDbAccessor T K V) :=
  if allowed : db.writer = some thread ∨ db.writer = none ∧ readonly = false then
    some (!hasWriterTxInStack db.transactionsStack && !readonly,
      { backend := if readonly then db.backend else db.backend.begin
        transactionsStack := readonly :: db.transactionsStack
        writer := some thread
        nested := by
          cases readonly <;> simp [db.nested]
        owned := by simp
        bottom := by
          cases stack : db.transactionsStack with
          | nil =>
              have closed := db.owned.mpr stack
              simpa [closed] using allowed
          | cons flag flags =>
              have bottom := db.bottom
              rw [stack] at bottom
              simpa only [List.getLast?_cons_cons] using bottom })
  else none

/-- The common part of `commit_transaction` and `abort_transaction`; `closing` is what the backend
does with its innermost overlay. Returns whether the accessors are notified, and the new state. -/
def endTransaction (closing : Overlay (Container K V) → Overlay (Container K V))
    (shrinks : ∀ o, (closing o).stack.length = o.stack.length - 1)
    (db : BasicDbAccessor T K V) (thread : T) : Option (Bool × BasicDbAccessor T K V) :=
  if db.writer = some thread then
    match stack : db.transactionsStack with
    | [] => none
    | readonly :: flags =>
        some (!readonly && !hasWriterTxInStack flags,
          { backend := if readonly then db.backend else closing db.backend
            transactionsStack := flags
            writer := if flags = [] then none else db.writer
            nested := by
              have nested := db.nested
              rw [stack] at nested
              cases readonly
              · simp only [List.count_cons_self] at nested
                simp only [Bool.false_eq_true, if_false, shrinks]
                omega
              · simpa using nested
            owned := by
              by_cases closed : flags = []
              · simp [closed]
              · simp [closed, db.owned, stack]
            bottom := by
              have bottom := db.bottom
              rw [stack] at bottom
              cases flags with
              | nil => simp
              | cons flag flags => simpa only [List.getLast?_cons_cons] using bottom })
  else none

def commitTransaction (db : BasicDbAccessor T K V) (thread : T) :
    Option (Bool × BasicDbAccessor T K V) :=
  endTransaction Overlay.commit Overlay.length_commit db thread

def abortTransaction (db : BasicDbAccessor T K V) (thread : T) :
    Option (Bool × BasicDbAccessor T K V) :=
  endTransaction Overlay.abort (fun o => by simp) db thread

/-- What the backend shows to a thread. -/
def read (db : BasicDbAccessor T K V) (thread : T) : Container K V :=
  if db.writer = some thread then db.backend.view else db.backend.committed

/-- A backend write. A thread with no write transaction has no handle to write with: the backend
reports failure, which the accessors do not look at, and nothing is stored. -/
def write (db : BasicDbAccessor T K V) (thread : T) (f : Container K V → Container K V) :
    BasicDbAccessor T K V where
  backend := if db.writer = some thread then db.backend.write f else db.backend
  transactionsStack := db.transactionsStack
  writer := db.writer
  nested := by
    rw [db.nested]
    split
    · simp
    · rfl
  owned := db.owned
  bottom := db.bottom

def size (db : BasicDbAccessor T K V) (thread : T) : Nat := (db.read thread).keys.card

end BasicDbAccessor

/-! ## `basic_key_value_accessor` -/

/-- The requests that an accessor and its database object serve. `abortTransaction` goes through the
database object, `accessorAbortTransaction` through the accessor. -/
inductive Op (T K V : Type*) where
  | beginTransaction (thread : T) (readonly : Bool)
  | commitTransaction (thread : T)
  | abortTransaction (thread : T)
  | accessorAbortTransaction (thread : T)
  | set (thread : T) (k : K) (v : V)
  | explicitSet (thread : T) (k : K) (v : V)
  | erase (thread : T) (k : K)
  | clear (thread : T)
  | get (thread : T) (k : K)
  | size (thread : T)

structure BasicKeyValueAccessor (T K V : Type*) where
  bdb : BasicDbAccessor T K V
  isolation : IsolationLock T
  sizeCache : Nat
  sizeCacheValid : Bool

namespace BasicKeyValueAccessor

variable {T K V : Type*} [DecidableEq T] [DecidableEq K]

def openOn (T : Type*) {K V : Type*} (committed : Container K V) : BasicKeyValueAccessor T K V where
  bdb := .openOn T committed
  isolation := ⟨none⟩
  sizeCache := 0
  sizeCacheValid := false

def onWriteTransactionBegin (s : BasicKeyValueAccessor T K V) (thread : T) :
    Option (BasicKeyValueAccessor T K V) :=
  (s.isolation.setIsolationMode thread).map fun isolation => { s with isolation := isolation }

def onWriteTransactionCommit (s : BasicKeyValueAccessor T K V) :
    Option (BasicKeyValueAccessor T K V) :=
  s.isolation.resetIsolationMode.map fun isolation => { s with isolation := isolation }

def onWriteTransactionAbort (s : BasicKeyValueAccessor T K V) :
    Option (BasicKeyValueAccessor T K V) :=
  s.isolation.resetIsolationMode.map fun isolation => { s with isolation := isolation }

def beginTransaction (s : BasicKeyValueAccessor T K V) (thread : T) (readonly : Bool) :
    Option (BasicKeyValueAccessor T K V) :=
  (s.bdb.beginTransaction thread readonly).bind fun (broadcast, bdb) =>
    if broadcast then { s with bdb := bdb }.onWriteTransactionBegin thread
    else some { s with bdb := bdb }

def commitTransaction (s : BasicKeyValueAccessor T K V) (thread : T) :
    Option (BasicKeyValueAccessor T K V) :=
  (s.bdb.commitTransaction thread).bind fun (broadcast, bdb) =>
    if broadcast then { s with bdb := bdb }.onWriteTransactionCommit else some { s with bdb := bdb }

def abortTransaction (s : BasicKeyValueAccessor T K V) (thread : T) :
    Option (BasicKeyValueAccessor T K V) :=
  (s.bdb.abortTransaction thread).bind fun (broadcast, bdb) =>
    if broadcast then { s with bdb := bdb }.onWriteTransactionAbort else some { s with bdb := bdb }

/-- The accessor's own `abort_transaction` drops the size before it asks the database object. -/
def accessorAbortTransaction (s : BasicKeyValueAccessor T K V) (thread : T) :
    Option (BasicKeyValueAccessor T K V) :=
  { s with sizeCacheValid := false }.abortTransaction thread

def set (s : BasicKeyValueAccessor T K V) (thread : T) (k : K) (v : V) :
    BasicKeyValueAccessor T K V :=
  { s with sizeCacheValid := false, bdb := s.bdb.write thread (·.insert k v) }

def explicitSet (s : BasicKeyValueAccessor T K V) (thread : T) (k : K) (v : V) :
    BasicKeyValueAccessor T K V :=
  { s with sizeCacheValid := false, bdb := s.bdb.write thread (·.insert k v) }

def get (s : BasicKeyValueAccessor T K V) (thread : T) (k : K) : Option V :=
  (s.bdb.read thread).lookup k

def size (s : BasicKeyValueAccessor T K V) (thread : T) :
    Nat × BasicKeyValueAccessor T K V :=
  let allowedCache := s.isolation.allowedCache thread
  if allowedCache && s.sizeCacheValid then (s.sizeCache, s)
  else
    let res := s.bdb.size thread
    (res, if allowedCache then { s with sizeCache := res, sizeCacheValid := true } else s)

/-- `isolated_write_access` around the invalidation of the size: throws for a thread that is not the
writer while there is one. -/
def invalidateSize (s : BasicKeyValueAccessor T K V) (thread : T) :
    Option (BasicKeyValueAccessor T K V) :=
  if s.isolation.allowedCache thread then some { s with sizeCacheValid := false } else none

def erase (s : BasicKeyValueAccessor T K V) (thread : T) (k : K) :
    Option (BasicKeyValueAccessor T K V) :=
  { s with bdb := s.bdb.write thread (·.erase k) }.invalidateSize thread

def clear (s : BasicKeyValueAccessor T K V) (thread : T) :
    Option (BasicKeyValueAccessor T K V) :=
  { s with bdb := s.bdb.write thread fun _ => ∅ }.invalidateSize thread

def step (s : BasicKeyValueAccessor T K V) : Op T K V → Option (BasicKeyValueAccessor T K V)
  | .beginTransaction thread readonly => s.beginTransaction thread readonly
  | .commitTransaction thread => s.commitTransaction thread
  | .abortTransaction thread => s.abortTransaction thread
  | .accessorAbortTransaction thread => s.accessorAbortTransaction thread
  | .set thread k v => some (s.set thread k v)
  | .explicitSet thread k v => some (s.explicitSet thread k v)
  | .erase thread k => s.erase thread k
  | .clear thread => s.clear thread
  | .get _ _ => some s
  | .size thread => some (s.size thread).2

end BasicKeyValueAccessor

/-! ## `cached_key_value_accessor` -/

structure CachedKeyValueAccessor (T K V : Type*) where
  base : BasicKeyValueAccessor T K V
  cache : CacheBase K V

namespace CachedKeyValueAccessor

variable {T K V : Type*} [DecidableEq T] [DecidableEq K]

def openOn (T : Type*) {K V : Type*} [DecidableEq K] (committed : Container K V)
    (maxElements : Nat) : CachedKeyValueAccessor T K V where
  base := .openOn T committed
  cache := .empty K V maxElements

/-- Clears the value cache while isolation is still on, then switches isolation off. -/
def onWriteTransactionAbort (s : CachedKeyValueAccessor T K V) (thread : T) :
    Option (CachedKeyValueAccessor T K V) :=
  s.base.onWriteTransactionAbort.map fun base =>
    { base := base, cache := isolatedClear s.base.isolation s.cache thread }

def abortTransaction (s : CachedKeyValueAccessor T K V) (thread : T) :
    Option (CachedKeyValueAccessor T K V) :=
  (s.base.bdb.abortTransaction thread).bind fun (broadcast, bdb) =>
    let base := { s.base with bdb := bdb }
    if broadcast then { s with base := base }.onWriteTransactionAbort thread
    else some { s with base := base }

def accessorAbortTransaction (s : CachedKeyValueAccessor T K V) (thread : T) :
    Option (CachedKeyValueAccessor T K V) :=
  { s with base := { s.base with sizeCacheValid := false } }.abortTransaction thread

def set (s : CachedKeyValueAccessor T K V) (thread : T) (k : K) (v : V) :
    CachedKeyValueAccessor T K V where
  base := s.base.set thread k v
  cache := isolatedSet s.base.isolation s.cache thread k v

def get (s : CachedKeyValueAccessor T K V) (thread : T) (k : K) :
    Option V × CachedKeyValueAccessor T K V :=
  match isolatedGet s.base.isolation s.cache thread k with
  | (some v, cache) => (some v, { s with cache := cache })
  | (none, cache) =>
      match s.base.get thread k with
      | none => (none, { s with cache := cache })
      | some v =>
          (some v, { s with cache := isolatedSet s.base.isolation cache thread k v })

def erase (s : CachedKeyValueAccessor T K V) (thread : T) (k : K) :
    Option (CachedKeyValueAccessor T K V) :=
  (s.base.erase thread k).bind fun base =>
    (isolatedErase base.isolation s.cache thread k).map fun cache =>
      { base := base, cache := cache }

def clear (s : CachedKeyValueAccessor T K V) (thread : T) :
    Option (CachedKeyValueAccessor T K V) :=
  (s.base.clear thread).map fun base =>
    { base := base, cache := isolatedClear s.base.isolation s.cache thread }

def size (s : CachedKeyValueAccessor T K V) (thread : T) :
    Nat × CachedKeyValueAccessor T K V :=
  ((s.base.size thread).1, { s with base := (s.base.size thread).2 })

/-- `begin_transaction`, `commit_transaction` and `explicit_set` are inherited. -/
def step (s : CachedKeyValueAccessor T K V) : Op T K V → Option (CachedKeyValueAccessor T K V)
  | .beginTransaction thread readonly =>
      (s.base.beginTransaction thread readonly).map fun base => { s with base := base }
  | .commitTransaction thread =>
      (s.base.commitTransaction thread).map fun base => { s with base := base }
  | .abortTransaction thread => s.abortTransaction thread
  | .accessorAbortTransaction thread => s.accessorAbortTransaction thread
  | .set thread k v => some (s.set thread k v)
  | .explicitSet thread k v => some { s with base := s.base.explicitSet thread k v }
  | .erase thread k => s.erase thread k
  | .clear thread => s.clear thread
  | .get thread k => some (s.get thread k).2
  | .size thread => some (s.size thread).2

end CachedKeyValueAccessor

/-! ## `array_accessor` -/

inductive ArrayOp (T V : Type*) where
  | inherited (op : Op T UInt64 V)
  | pushBack (thread : T) (v : V)
  | popBack (thread : T)
  | back (thread : T)

/-- `array_accessor` adds no state to `cached_key_value_accessor`; its indexes are 64-bit numbers,
so the last index of an empty array wraps. -/
abbrev ArrayAccessor (T V : Type*) := CachedKeyValueAccessor T UInt64 V

namespace ArrayAccessor

variable {T V : Type*} [DecidableEq T]

def pushBack (s : ArrayAccessor T V) (thread : T) (v : V) : ArrayAccessor T V :=
  let (size, s) := CachedKeyValueAccessor.size s thread
  CachedKeyValueAccessor.set s thread (UInt64.ofNat size) v

def popBack (s : ArrayAccessor T V) (thread : T) : Option (ArrayAccessor T V) :=
  let (size, s) := CachedKeyValueAccessor.size s thread
  CachedKeyValueAccessor.erase s thread (UInt64.ofNat size - 1)

/-- The source throws `out_of_range` where the first component is `none`. -/
def back (s : ArrayAccessor T V) (thread : T) : Option V × ArrayAccessor T V :=
  let (size, s) := CachedKeyValueAccessor.size s thread
  CachedKeyValueAccessor.get s thread (UInt64.ofNat size - 1)

def step (s : ArrayAccessor T V) : ArrayOp T V → Option (ArrayAccessor T V)
  | .inherited op => CachedKeyValueAccessor.step s op
  | .pushBack thread v => some (pushBack s thread v)
  | .popBack thread => popBack s thread
  | .back thread => some (back s thread).2

end ArrayAccessor

end Zano.Db
