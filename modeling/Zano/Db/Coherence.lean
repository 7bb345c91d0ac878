import Zano.Db.Accessor

/-! # Coherence of the accessors with the store

The specification of an accessor is the backend alone: a `get` or `size` of the writer thread
answers from the innermost overlay, and anybody else's from the committed map. The accessors answer
from their own size and value caches when the isolation lock lets them, so what has to be kept is
that these caches describe the overlay that the writer sees.

Three requests of the source do not keep it. An abort through the database object leaves a size
behind that was read inside the aborted transaction; an abort of an inner transaction is announced
to nobody, so cached values survive it too; and `explicit_set` is inherited by the cached accessor,
where it writes past the value cache. `Keeps` states, for the state before a request, that the
caches hold nothing which the request makes stale, and `step_coherent_iff` shows that it asks for no
more than that.
-/

namespace Zano.Db

open Transition

/-! ## What a request does to the database object -/

namespace BasicDbAccessor

variable {T K V : Type*}

theorem hasWriter_iff (db : BasicDbAccessor T K V) :
    hasWriterTxInStack db.transactionsStack = true ↔ db.writer ≠ none := by
  rw [ne_eq, db.owned]
  have bottom := db.bottom
  cases stack : db.transactionsStack with
  | nil => simp [hasWriterTxInStack]
  | cons flag flags =>
      rw [stack, List.getLast?_eq_some_getLast (by simp)] at bottom
      have isWriter : (flag :: flags).getLast (by simp) = false := bottom _ rfl
      have inside := List.getLast_mem (show flag :: flags ≠ [] by simp)
      simp only [hasWriterTxInStack, List.any_eq_true, reduceCtorEq, not_false_eq_true, iff_true]
      exact ⟨_, inside, by simp [isWriter]⟩

theorem view_of_no_writer {db : BasicDbAccessor T K V} (free : db.writer = none) :
    db.backend.view = db.backend.committed := by
  have stack := db.owned.mp free
  have nested := db.nested
  rw [stack] at nested
  exact Overlay.view_of_closed (List.length_eq_zero_iff.mp nested.symm)

theorem opened_of_writer {db : BasicDbAccessor T K V} {thread : T}
    (owner : db.writer = some thread) : db.backend.stack ≠ [] := by
  have writer := db.hasWriter_iff.mpr (by simp [owner])
  obtain ⟨flag, inside, isWriter⟩ := List.any_eq_true.mp writer
  have positive : 0 < db.transactionsStack.count false := by
    rw [List.count_pos_iff]
    cases flag
    · exact inside
    · simp at isWriter
  rw [db.nested] at positive
  exact List.length_pos_iff.mp positive

variable [DecidableEq T]

/-- Everything `begin_transaction` can do. -/
theorem beginTransaction_cases {db next : BasicDbAccessor T K V} {thread : T}
    {readonly broadcast : Bool}
    (began : db.beginTransaction thread readonly = some (broadcast, next)) :
    next.writer = some thread ∧
      next.transactionsStack = readonly :: db.transactionsStack ∧
      next.backend = (if readonly then db.backend else db.backend.begin) ∧
      (db.writer = some thread ∧ broadcast = false ∨
        db.writer = none ∧ readonly = false ∧ broadcast = true) := by
  unfold beginTransaction at began
  split at began
  · rename_i allowed
    simp only [Option.some.injEq, Prod.mk.injEq] at began
    obtain ⟨rfl, rfl⟩ := began
    refine ⟨rfl, rfl, rfl, ?_⟩
    rcases allowed with owner | ⟨free, rfl⟩
    · have writer := db.hasWriter_iff.mpr (by simp [owner])
      exact .inl ⟨owner, by simp [writer]⟩
    · have nobody : hasWriterTxInStack db.transactionsStack = false := by
        rw [← Bool.not_eq_true, db.hasWriter_iff]
        simp [free]
      exact .inr ⟨free, rfl, by simp [nobody]⟩
  · cases began

/-- Everything `commit_transaction` and `abort_transaction` can do. The accessors are notified
exactly when the outermost transaction ends. -/
theorem endTransaction_cases {closing : Overlay (Container K V) → Overlay (Container K V)}
    {shrinks : ∀ o, (closing o).stack.length = o.stack.length - 1}
    {db next : BasicDbAccessor T K V} {thread : T} {broadcast : Bool}
    (ended : endTransaction closing shrinks db thread = some (broadcast, next)) :
    db.writer = some thread ∧
      ∃ readonly, db.transactionsStack = readonly :: next.transactionsStack ∧
      next.backend = (if readonly then db.backend else closing db.backend) ∧
      (next.transactionsStack = [] ∧ readonly = false ∧ broadcast = true ∧ next.writer = none ∨
        next.transactionsStack ≠ [] ∧ broadcast = false ∧ next.writer = some thread) := by
  unfold endTransaction at ended
  split at ended
  · rename_i owner
    split at ended
    · cases ended
    · rename_i readonly flags stack
      simp only [Option.some.injEq, Prod.mk.injEq] at ended
      obtain ⟨announced, built⟩ := ended
      have flagsOfNext : next.transactionsStack = flags := by rw [← built]
      have writerOfNext : next.writer = if flags = [] then none else db.writer := by rw [← built]
      refine ⟨owner, readonly, by rw [flagsOfNext, stack], by rw [← built], ?_⟩
      by_cases closed : flags = []
      · have isWriter := db.bottom readonly (by simp [stack, closed])
        rw [isWriter, closed] at announced
        exact .inl ⟨flagsOfNext.trans closed, isWriter,
          announced.symm, by simp [writerOfNext, closed]⟩
      · have still : hasWriterTxInStack flags = true := by
          rw [← flagsOfNext, next.hasWriter_iff, writerOfNext, if_neg closed, owner]
          simp
        rw [still] at announced
        exact .inr ⟨flagsOfNext ▸ closed, by simpa using announced.symm,
          by simp [writerOfNext, closed, owner]⟩
  · cases ended

theorem view_begin {db next : BasicDbAccessor T K V} {thread : T} {readonly broadcast : Bool}
    (began : db.beginTransaction thread readonly = some (broadcast, next)) :
    next.backend.view = db.backend.view := by
  rw [(beginTransaction_cases began).2.2.1]
  cases readonly <;> simp

theorem view_commit {db next : BasicDbAccessor T K V} {thread : T} {broadcast : Bool}
    (committed : db.commitTransaction thread = some (broadcast, next)) :
    next.backend.view = db.backend.view := by
  obtain ⟨-, readonly, -, backend, -⟩ := endTransaction_cases committed
  rw [backend]
  cases readonly <;> simp

theorem view_abort {db next : BasicDbAccessor T K V} {thread : T} {broadcast : Bool}
    (aborted : db.abortTransaction thread = some (broadcast, next)) :
    next.backend.view =
      if db.transactionsStack.head? = some false then db.backend.below else db.backend.view := by
  obtain ⟨-, readonly, stack, backend, -⟩ := endTransaction_cases aborted
  rw [backend, stack]
  cases readonly <;> simp

theorem view_write {db : BasicDbAccessor T K V} {thread : T} (owner : db.writer = some thread)
    (f : Container K V → Container K V) : (db.write thread f).backend.view = f db.backend.view := by
  simp only [write, owner, if_true]
  exact Overlay.view_write (opened_of_writer owner) f

theorem view_write_of_stranger {db : BasicDbAccessor T K V} {thread : T}
    (stranger : db.writer ≠ some thread) (f : Container K V → Container K V) :
    (db.write thread f).backend.view = db.backend.view := by
  simp only [write, if_neg stranger]

end BasicDbAccessor

/-! ## The size cache -/

namespace BasicKeyValueAccessor

variable {T K V : Type*}

/-- The caches of an accessor may be used by the writer, and by everybody while nobody writes; what
they describe is the overlay in view. -/
structure Coherent (s : BasicKeyValueAccessor T K V) : Prop where
  isolated : s.isolation.currentWriterThread = s.bdb.writer
  size : s.sizeCacheValid = true → s.sizeCache = s.bdb.backend.view.keys.card

theorem coherent_openOn (committed : Container K V) :
    (BasicKeyValueAccessor.openOn T committed).Coherent :=
  ⟨rfl, fun valid => by cases valid⟩

variable [DecidableEq T]

theorem read_of_allowed {s : BasicKeyValueAccessor T K V} {thread : T}
    (isolated : s.isolation.currentWriterThread = s.bdb.writer)
    (allowed : s.isolation.allowedCache thread = true) :
    s.bdb.read thread = s.bdb.backend.view := by
  unfold IsolationLock.allowedCache at allowed
  rw [isolated] at allowed
  unfold BasicDbAccessor.read
  cases writer : s.bdb.writer with
  | none => simp [BasicDbAccessor.view_of_no_writer writer]
  | some owner =>
      rw [writer] at allowed
      simp [of_decide_eq_true allowed]

theorem allowed_iff {s : BasicKeyValueAccessor T K V} {thread : T} (coherent : s.Coherent) :
    s.isolation.allowedCache thread = true ↔ s.bdb.writer = none ∨ s.bdb.writer = some thread := by
  unfold IsolationLock.allowedCache
  rw [coherent.isolated]
  cases s.bdb.writer with
  | none => simp
  | some writer => simp [eq_comm]

/-- Whoever asks, a coherent accessor answers `size` from the store that the asking thread reads. -/
theorem size_of_coherent {s : BasicKeyValueAccessor T K V} (coherent : s.Coherent) (thread : T) :
    (s.size thread).1 = (s.bdb.read thread).keys.card := by
  unfold size
  simp only
  split
  · rename_i usable
    rw [Bool.and_eq_true] at usable
    rw [read_of_allowed coherent.isolated usable.1]
    exact coherent.size usable.2
  · rfl

/-- `begin_transaction` switches isolation on exactly for the outermost transaction. -/
theorem beginTransaction_spec {s next : BasicKeyValueAccessor T K V} {thread : T} {readonly : Bool}
    (isolated : s.isolation.currentWriterThread = s.bdb.writer)
    (began : s.beginTransaction thread readonly = some next) :
    ∃ broadcast, s.bdb.beginTransaction thread readonly = some (broadcast, next.bdb) ∧
      next.sizeCache = s.sizeCache ∧ next.sizeCacheValid = s.sizeCacheValid ∧
      next.isolation.currentWriterThread = next.bdb.writer := by
  obtain ⟨⟨broadcast, bdb⟩, opened, notified⟩ := Option.bind_eq_some_iff.mp began
  obtain ⟨owner, -, -, outermost⟩ := BasicDbAccessor.beginTransaction_cases opened
  rcases outermost with ⟨owned, rfl⟩ | ⟨free, -, rfl⟩
  · simp only [Bool.false_eq_true, if_false, Option.some.injEq] at notified
    subst notified
    exact ⟨false, opened, rfl, rfl, isolated.trans (owned.trans owner.symm)⟩
  · simp only [if_true, onWriteTransactionBegin, IsolationLock.setIsolationMode, isolated, free,
      Option.map_some, Option.some.injEq] at notified
    subst notified
    exact ⟨true, opened, rfl, rfl, owner.symm⟩

/-- Both ways to end a transaction switch isolation off exactly for the outermost one. -/
private theorem endTransaction_spec {closing : Overlay (Container K V) → Overlay (Container K V)}
    {shrinks : ∀ o, (closing o).stack.length = o.stack.length - 1}
    {s next : BasicKeyValueAccessor T K V} {thread : T}
    (isolated : s.isolation.currentWriterThread = s.bdb.writer)
    (ended : ((BasicDbAccessor.endTransaction closing shrinks s.bdb thread).bind
      fun (broadcast, bdb) =>
        if broadcast then { s with bdb := bdb }.onWriteTransactionCommit
        else some { s with bdb := bdb }) = some next) :
    ∃ broadcast, BasicDbAccessor.endTransaction closing shrinks s.bdb thread =
        some (broadcast, next.bdb) ∧
      next.sizeCache = s.sizeCache ∧ next.sizeCacheValid = s.sizeCacheValid ∧
      next.isolation.currentWriterThread = next.bdb.writer := by
  obtain ⟨⟨broadcast, bdb⟩, closed, notified⟩ := Option.bind_eq_some_iff.mp ended
  obtain ⟨owner, readonly, -, -, outermost⟩ := BasicDbAccessor.endTransaction_cases closed
  rcases outermost with ⟨-, -, rfl, free⟩ | ⟨-, rfl, still⟩
  · simp only [if_true, onWriteTransactionCommit, IsolationLock.resetIsolationMode, isolated, owner,
      Option.map_some, Option.some.injEq] at notified
    subst notified
    exact ⟨true, closed, rfl, rfl, free.symm⟩
  · simp only [Bool.false_eq_true, if_false, Option.some.injEq] at notified
    subst notified
    exact ⟨false, closed, rfl, rfl, isolated.trans (owner.trans still.symm)⟩

theorem commitTransaction_spec {s next : BasicKeyValueAccessor T K V} {thread : T}
    (isolated : s.isolation.currentWriterThread = s.bdb.writer)
    (committed : s.commitTransaction thread = some next) :
    ∃ broadcast, s.bdb.commitTransaction thread = some (broadcast, next.bdb) ∧
      next.sizeCache = s.sizeCache ∧ next.sizeCacheValid = s.sizeCacheValid ∧
      next.isolation.currentWriterThread = next.bdb.writer :=
  endTransaction_spec isolated committed

theorem abortTransaction_spec {s next : BasicKeyValueAccessor T K V} {thread : T}
    (isolated : s.isolation.currentWriterThread = s.bdb.writer)
    (aborted : s.abortTransaction thread = some next) :
    ∃ broadcast, s.bdb.abortTransaction thread = some (broadcast, next.bdb) ∧
      next.sizeCache = s.sizeCache ∧ next.sizeCacheValid = s.sizeCacheValid ∧
      next.isolation.currentWriterThread = next.bdb.writer :=
  endTransaction_spec isolated aborted

/-- An abort through the database object leaves the size cache alone, so the size in it must already
be the one from below the aborted transaction. -/
def Keeps (s : BasicKeyValueAccessor T K V) : Op T K V → Prop
  | .abortTransaction _ =>
      s.bdb.transactionsStack.head? = some false → s.sizeCacheValid = true →
        s.sizeCache = s.bdb.backend.below.keys.card
  | _ => True

theorem coherent_abort_iff {s next : BasicKeyValueAccessor T K V} {thread : T}
    (coherent : s.Coherent) (aborted : s.abortTransaction thread = some next) :
    next.Coherent ↔ s.Keeps (.abortTransaction thread) := by
  obtain ⟨broadcast, ended, sameSize, sameValid, isolated⟩ :=
    abortTransaction_spec coherent.isolated aborted
  have view := BasicDbAccessor.view_abort ended
  constructor
  · intro after writeTransaction valid
    rw [if_pos writeTransaction] at view
    rw [← view, ← sameSize]
    exact after.size (sameValid.trans valid)
  · intro keeps
    refine ⟨isolated, fun valid => ?_⟩
    rw [sameValid] at valid
    rw [sameSize, view]
    split
    · rename_i writeTransaction
      exact keeps writeTransaction valid
    · exact coherent.size valid

theorem coherent_accessorAbort {s next : BasicKeyValueAccessor T K V} {thread : T}
    (coherent : s.Coherent) (aborted : s.accessorAbortTransaction thread = some next) :
    next.Coherent := by
  have dropped : { s with sizeCacheValid := false }.Coherent :=
    ⟨coherent.isolated, fun valid => by cases valid⟩
  exact (coherent_abort_iff dropped aborted).mpr fun _ valid => by cases valid

theorem coherent_begin {s next : BasicKeyValueAccessor T K V} {thread : T} {readonly : Bool}
    (coherent : s.Coherent) (began : s.beginTransaction thread readonly = some next) :
    next.Coherent := by
  obtain ⟨broadcast, opened, sameSize, sameValid, isolated⟩ :=
    beginTransaction_spec coherent.isolated began
  refine ⟨isolated, fun valid => ?_⟩
  rw [sameSize, BasicDbAccessor.view_begin opened]
  exact coherent.size (sameValid ▸ valid)

theorem coherent_commit {s next : BasicKeyValueAccessor T K V} {thread : T}
    (coherent : s.Coherent) (committed : s.commitTransaction thread = some next) :
    next.Coherent := by
  obtain ⟨broadcast, closed, sameSize, sameValid, isolated⟩ :=
    commitTransaction_spec coherent.isolated committed
  refine ⟨isolated, fun valid => ?_⟩
  rw [sameSize, BasicDbAccessor.view_commit closed]
  exact coherent.size (sameValid ▸ valid)

theorem coherent_of_write {s : BasicKeyValueAccessor T K V} (coherent : s.Coherent) (thread : T)
    (f : Container K V → Container K V) :
    { s with sizeCacheValid := false, bdb := s.bdb.write thread f }.Coherent :=
  ⟨coherent.isolated, fun valid => by cases valid⟩

theorem invalidateSize_spec {s next : BasicKeyValueAccessor T K V} {thread : T}
    (done : s.invalidateSize thread = some next) :
    s.isolation.allowedCache thread = true ∧ next = { s with sizeCacheValid := false } := by
  unfold invalidateSize at done
  split at done
  · rename_i allowed
    exact ⟨allowed, (Option.some.inj done).symm⟩
  · cases done

theorem coherent_size {s : BasicKeyValueAccessor T K V} (coherent : s.Coherent) (thread : T) :
    (s.size thread).2.Coherent := by
  unfold size
  simp only
  split
  · exact coherent
  · split
    · rename_i allowed
      refine ⟨coherent.isolated, fun _ => ?_⟩
      simp only [BasicDbAccessor.size, read_of_allowed coherent.isolated allowed]
    · exact coherent

theorem size_snd_bdb (s : BasicKeyValueAccessor T K V) (thread : T) :
    (s.size thread).2.bdb = s.bdb ∧ (s.size thread).2.isolation = s.isolation := by
  unfold size
  simp only
  split
  · exact ⟨rfl, rfl⟩
  · split <;> exact ⟨rfl, rfl⟩

variable [DecidableEq K]

/-- One request keeps the size cache right unless it is an abort, through the database object, of a
transaction inside which a different size was read. -/
theorem step_coherent {s next : BasicKeyValueAccessor T K V} {op : Op T K V} (coherent : s.Coherent)
    (keeps : s.Keeps op) (stepped : s.step op = some next) : next.Coherent := by
  cases op with
  | beginTransaction thread readonly => exact coherent_begin coherent stepped
  | commitTransaction thread => exact coherent_commit coherent stepped
  | abortTransaction thread => exact (coherent_abort_iff coherent stepped).mpr keeps
  | accessorAbortTransaction thread => exact coherent_accessorAbort coherent stepped
  | set thread k v =>
      cases stepped
      exact coherent_of_write coherent thread _
  | explicitSet thread k v =>
      cases stepped
      exact coherent_of_write coherent thread _
  | erase thread k =>
      obtain ⟨-, rfl⟩ := invalidateSize_spec stepped
      exact coherent_of_write coherent thread _
  | clear thread =>
      obtain ⟨-, rfl⟩ := invalidateSize_spec stepped
      exact coherent_of_write coherent thread _
  | get thread k =>
      cases stepped
      exact coherent
  | size thread =>
      cases stepped
      exact coherent_size coherent thread

theorem run_coherent {s final : BasicKeyValueAccessor T K V} {ops : List (Op T K V)}
    (coherent : s.Coherent) (guarded : Guarded step Keeps s ops)
    (ran : run step s ops = some final) : final.Coherent :=
  invariant_of_run (fun _ _ _ inv keeps stepped => step_coherent inv keeps stepped)
    coherent guarded ran

end BasicKeyValueAccessor

end Zano.Db
