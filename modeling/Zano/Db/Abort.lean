import Zano.Db.CachedCoherence

/-! # Aborting a transaction undoes it

The requests between a `begin_transaction` and the abort that closes it may open and close any
number of further transactions, read-only ones included. `Bracketed` says so for any type of
requests, once each request is known to open a transaction, to close one, or to do neither.

`Serves` collects what an accessor's requests do to its database object, so that one argument covers
the basic, the cached and the array accessor: a bracketed run hands balanced requests to the
overlays, and what an abort gives back is the library's `Overlay.abort_undoes`, together with the
flags and the writer.
-/

namespace Zano.Db

open Transition

inductive Bracket where
  | opens
  | closes
  | neither
  deriving DecidableEq

/-- Every transaction that the requests open is closed among them, and no other is. -/
inductive Bracketed {A : Type*} (kind : A → Bracket) : List A → Prop
  | nil : Bracketed kind []
  | plain {a : A} {as : List A} : kind a = .neither → Bracketed kind as → Bracketed kind (a :: as)
  | nest {first last : A} {inner rest : List A} : kind first = .opens → kind last = .closes →
      Bracketed kind inner → Bracketed kind rest → Bracketed kind (first :: inner ++ last :: rest)

def Op.bracket {T K V : Type*} : Op T K V → Bracket
  | .beginTransaction _ _ => .opens
  | .commitTransaction _ => .closes
  | .abortTransaction _ => .closes
  | .accessorAbortTransaction _ => .closes
  | _ => .neither

def ArrayOp.bracket {T V : Type*} : ArrayOp T V → Bracket
  | .inherited op => op.bracket
  | _ => .neither

namespace BasicDbAccessor

variable {T K V : Type*}

/-- The database object after requests that close every transaction they open: the backend took
balanced overlay requests, and the flags and the writer are as before. -/
structure Framed (db next : BasicDbAccessor T K V) : Prop where
  backend : ∃ requests, Overlay.Balanced requests ∧
    next.backend = requests.foldl Overlay.apply db.backend
  transactionsStack : next.transactionsStack = db.transactionsStack
  writer : next.writer = db.writer

theorem Framed.refl (db : BasicDbAccessor T K V) : Framed db db :=
  ⟨⟨[], .nil, rfl⟩, rfl, rfl⟩

theorem Framed.trans {db middle next : BasicDbAccessor T K V} (first : Framed db middle)
    (second : Framed middle next) : Framed db next := by
  obtain ⟨firstRequests, firstBalanced, firstBackend⟩ := first.backend
  obtain ⟨secondRequests, secondBalanced, secondBackend⟩ := second.backend
  refine ⟨⟨firstRequests ++ secondRequests, firstBalanced.append secondBalanced, ?_⟩,
    second.transactionsStack.trans first.transactionsStack, second.writer.trans first.writer⟩
  rw [List.foldl_append, ← firstBackend, secondBackend]

/-- What commits and aborts have in common: the transaction whose flag is innermost is gone, and its
overlay with it when it is a write transaction. -/
structure Closed (db next : BasicDbAccessor T K V) (readonly : Bool) : Prop where
  stack : db.transactionsStack = readonly :: next.transactionsStack
  backend : next.backend = (if readonly then db.backend else db.backend.commit) ∨
    next.backend = (if readonly then db.backend else db.backend.abort)
  writer : next.transactionsStack ≠ [] → next.writer = db.writer

variable [DecidableEq T]

theorem framed_write (db : BasicDbAccessor T K V) (thread : T)
    (f : Container K V → Container K V) : Framed db (db.write thread f) := by
  refine ⟨?_, rfl, rfl⟩
  by_cases owner : db.writer = some thread
  · exact ⟨[.write f], .write f .nil, by simp [write, owner, Overlay.apply]⟩
  · exact ⟨[], .nil, by simp [write, owner]⟩

theorem closed_of_commit {db next : BasicDbAccessor T K V} {thread : T} {broadcast : Bool}
    (ended : db.commitTransaction thread = some (broadcast, next)) :
    ∃ readonly, Closed db next readonly := by
  obtain ⟨owner, readonly, stack, backend, rest⟩ := endTransaction_cases ended
  refine ⟨readonly, stack, .inl backend, fun inner => ?_⟩
  rcases rest with ⟨outermost, -⟩ | ⟨-, -, still⟩
  · exact absurd outermost inner
  · exact still.trans owner.symm

theorem closed_of_abort {db next : BasicDbAccessor T K V} {thread : T} {broadcast : Bool}
    (ended : db.abortTransaction thread = some (broadcast, next)) :
    ∃ readonly, Closed db next readonly := by
  obtain ⟨owner, readonly, stack, backend, rest⟩ := endTransaction_cases ended
  refine ⟨readonly, stack, .inr backend, fun inner => ?_⟩
  rcases rest with ⟨outermost, -⟩ | ⟨-, -, still⟩
  · exact absurd outermost inner
  · exact still.trans owner.symm

end BasicDbAccessor

/-! ## Bracketed runs -/

open BasicDbAccessor

section Serves

variable {T K V S A : Type*} [DecidableEq T]

/-- What the requests of an accessor with states `S` do to its database object. -/
structure Serves (step : S → A → Option S) (kind : A → Bracket)
    (bdb : S → BasicDbAccessor T K V) : Prop where
  neither : ∀ s a next, kind a = .neither → step s a = some next → Framed (bdb s) (bdb next)
  opens : ∀ s a next, kind a = .opens → step s a = some next →
    ∃ thread readonly broadcast,
      (bdb s).beginTransaction thread readonly = some (broadcast, bdb next)
  closes : ∀ s a next, kind a = .closes → step s a = some next →
    ∃ readonly, Closed (bdb s) (bdb next) readonly

variable {step : S → A → Option S} {kind : A → Bracket} {bdb : S → BasicDbAccessor T K V}

/-- While a write transaction is open, a bracketed run leaves the database object framed. -/
theorem framed_run (serves : Serves step kind bdb) {s final : S} {as : List A}
    (bracketed : Bracketed kind as) (writing : (bdb s).writer ≠ none)
    (ran : run step s as = some final) : Framed (bdb s) (bdb final) := by
  induction bracketed generalizing s final with
  | nil =>
      cases ran
      exact .refl _
  | plain neither _ inductionHypothesis =>
      obtain ⟨next, stepped, rest⟩ := run_cons_eq_some.mp ran
      have first := serves.neither _ _ _ neither stepped
      exact first.trans (inductionHypothesis (by rw [first.writer]; exact writing) rest)
  | @nest first last inner rest opens closes _ _ innerHypothesis restHypothesis =>
      obtain ⟨inside, ranInner, ranLast⟩ := run_append_eq_some.mp ran
      obtain ⟨opened, began, ranInside⟩ := run_cons_eq_some.mp ranInner
      obtain ⟨closed, ended, ranRest⟩ := run_cons_eq_some.mp ranLast
      obtain ⟨thread, readonly, broadcast, openedDb⟩ := serves.opens _ _ _ opens began
      obtain ⟨owner, flags, backend, how⟩ := beginTransaction_cases openedDb
      have owned : (bdb s).writer = some thread := by
        rcases how with ⟨owned, -⟩ | ⟨free, -⟩
        · exact owned
        · exact absurd free writing
      have framed := innerHypothesis (by simp [owner]) ranInside
      obtain ⟨flag, closedDb⟩ := serves.closes _ _ _ closes ended
      have popped := closedDb.stack
      rw [framed.transactionsStack, flags] at popped
      obtain ⟨rfl, sameFlags⟩ := List.cons.inj popped
      have sameWriter : (bdb closed).writer = (bdb s).writer := by
        rw [closedDb.writer, framed.writer, owner, owned]
        rw [← sameFlags, ne_eq, ← (bdb s).owned]
        exact writing
      obtain ⟨requests, balanced, innerBackend⟩ := framed.backend
      have nested : Framed (bdb s) (bdb closed) := by
        refine ⟨?_, sameFlags.symm, sameWriter⟩
        rcases closedDb.backend with closedBackend | closedBackend
        · cases readonly
          · refine ⟨.begin :: requests ++ [.commit], .committed balanced .nil, ?_⟩
            simpa [backend, innerBackend, Overlay.apply] using closedBackend
          · exact ⟨requests, balanced, by simpa [backend, innerBackend] using closedBackend⟩
        · cases readonly
          · refine ⟨.begin :: requests ++ [.abort], .aborted balanced .nil, ?_⟩
            simpa [backend, innerBackend, Overlay.apply] using closedBackend
          · exact ⟨requests, balanced, by simpa [backend, innerBackend] using closedBackend⟩
      exact nested.trans (restHypothesis (by rw [sameWriter]; exact writing) ranRest)

/-- An abort gives back the database object from before the begin that it closes, at any nesting
depth: committed map, overlays, flags and writer. -/
theorem abort_undoes (serves : Serves step kind bdb) {s opened inside final : S} {as : List A}
    {thread beginner : T} {began ended : Bool}
    (openedDb : (bdb s).beginTransaction beginner false = some (began, bdb opened))
    (bracketed : Bracketed kind as) (ran : run step opened as = some inside)
    (abortedDb : (bdb inside).abortTransaction thread = some (ended, bdb final)) :
    bdb final = bdb s := by
  obtain ⟨owner, flags, backend, how⟩ := beginTransaction_cases openedDb
  have framed := framed_run serves bracketed (by simp [owner]) ran
  obtain ⟨endOwner, flag, stack, endedBackend, rest⟩ := endTransaction_cases abortedDb
  rw [framed.transactionsStack, flags] at stack
  obtain ⟨rfl, sameFlags⟩ := List.cons.inj stack
  obtain ⟨requests, balanced, innerBackend⟩ := framed.backend
  have sameBackend : (bdb final).backend = (bdb s).backend := by
    rw [endedBackend, innerBackend, backend]
    exact Overlay.abort_undoes balanced (bdb s).backend
  have sameWriter : (bdb final).writer = (bdb s).writer := by
    rcases rest with ⟨closed, -, -, free⟩ | ⟨nested, -, still⟩
    · rw [free, eq_comm, (bdb s).owned, sameFlags]
      exact closed
    · rcases how with ⟨owned, -⟩ | ⟨free, -⟩
      · rw [still, ← endOwner, framed.writer, owner, owned]
      · rw [← sameFlags] at nested
        exact absurd ((bdb s).owned.mp free) nested
  exact BasicDbAccessor.ext sameBackend sameFlags.symm sameWriter

end Serves

/-! ## The three accessors -/

namespace BasicKeyValueAccessor

variable {T K V : Type*}

theorem bdb_of_notified {s next : BasicKeyValueAccessor T K V} {broadcast : Bool}
    (notified : (if broadcast then s.onWriteTransactionCommit else some s) = some next) :
    next.bdb = s.bdb := by
  cases broadcast with
  | false =>
      cases notified
      rfl
  | true =>
      simp only [if_true, onWriteTransactionCommit, Option.map_eq_some_iff] at notified
      obtain ⟨isolation, -, rfl⟩ := notified
      rfl

variable [DecidableEq T]

theorem bdb_of_begin {s next : BasicKeyValueAccessor T K V} {thread : T} {readonly : Bool}
    (began : s.beginTransaction thread readonly = some next) :
    ∃ broadcast, s.bdb.beginTransaction thread readonly = some (broadcast, next.bdb) := by
  obtain ⟨⟨broadcast, bdb⟩, opened, notified⟩ := Option.bind_eq_some_iff.mp began
  refine ⟨broadcast, opened.trans ?_⟩
  cases broadcast with
  | false =>
      cases notified
      rfl
  | true =>
      simp only [if_true, onWriteTransactionBegin, Option.map_eq_some_iff] at notified
      obtain ⟨isolation, -, rfl⟩ := notified
      rfl

theorem bdb_of_commit {s next : BasicKeyValueAccessor T K V} {thread : T}
    (committed : s.commitTransaction thread = some next) :
    ∃ broadcast, s.bdb.commitTransaction thread = some (broadcast, next.bdb) := by
  obtain ⟨⟨broadcast, bdb⟩, ended, notified⟩ := Option.bind_eq_some_iff.mp committed
  exact ⟨broadcast, by rw [ended, bdb_of_notified notified]⟩

theorem bdb_of_abort {s next : BasicKeyValueAccessor T K V} {thread : T}
    (aborted : s.abortTransaction thread = some next) :
    ∃ broadcast, s.bdb.abortTransaction thread = some (broadcast, next.bdb) := by
  obtain ⟨⟨broadcast, bdb⟩, ended, notified⟩ := Option.bind_eq_some_iff.mp aborted
  exact ⟨broadcast, by rw [ended, bdb_of_notified notified]⟩

variable [DecidableEq K]

theorem serves : Serves (step (T := T) (K := K) (V := V)) Op.bracket BasicKeyValueAccessor.bdb where
  neither s op next neither stepped := by
    cases op with
    | set thread k v =>
        cases stepped
        exact framed_write s.bdb thread _
    | explicitSet thread k v =>
        cases stepped
        exact framed_write s.bdb thread _
    | erase thread k =>
        obtain ⟨-, rfl⟩ := invalidateSize_spec stepped
        exact framed_write s.bdb thread _
    | clear thread =>
        obtain ⟨-, rfl⟩ := invalidateSize_spec stepped
        exact framed_write s.bdb thread _
    | get thread k =>
        cases stepped
        exact .refl _
    | size thread =>
        cases stepped
        rw [(size_snd_bdb s thread).1]
        exact .refl _
    | _ => cases neither
  opens s op next opens stepped := by
    cases op with
    | beginTransaction thread readonly => exact ⟨thread, readonly, bdb_of_begin stepped⟩
    | _ => cases opens
  closes s op next closes stepped := by
    cases op with
    | commitTransaction thread =>
        obtain ⟨broadcast, ended⟩ := bdb_of_commit stepped
        exact closed_of_commit ended
    | abortTransaction thread =>
        obtain ⟨broadcast, ended⟩ := bdb_of_abort stepped
        exact closed_of_abort ended
    | accessorAbortTransaction thread =>
        obtain ⟨broadcast, ended⟩ := bdb_of_abort stepped
        exact closed_of_abort ended
    | _ => cases closes

end BasicKeyValueAccessor

namespace CachedKeyValueAccessor

variable {T K V : Type*} [DecidableEq T] [DecidableEq K]

theorem serves : Serves (step (T := T) (K := K) (V := V)) Op.bracket
    (fun s : CachedKeyValueAccessor T K V => s.base.bdb) where
  neither _ _ _ neither stepped :=
    BasicKeyValueAccessor.serves.neither _ _ _ neither (step_base _ stepped)
  opens _ _ _ opens stepped := BasicKeyValueAccessor.serves.opens _ _ _ opens (step_base _ stepped)
  closes _ _ _ closes stepped :=
    BasicKeyValueAccessor.serves.closes _ _ _ closes (step_base _ stepped)

end CachedKeyValueAccessor

end Zano.Db
