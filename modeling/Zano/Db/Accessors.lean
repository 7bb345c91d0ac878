import Zano.Db.Abort

/-! # The accessors as a whole

`array_accessor` spells its requests with those of the cached accessor, so it inherits coherence.
With it the results about the three accessors come together: in every run whose steps satisfy
`Keeps`, the answers in every state are those of the store, and an abort through the database object
brings back the answers from before the begin it closes.

The runs of `stale_answers` show what happens at each of the three requests that `Keeps` restricts.
-/

namespace Zano.Db

open Transition

namespace ArrayAccessor

variable {T V : Type*}

def Keeps (s : ArrayAccessor T V) : ArrayOp T V → Prop
  | .inherited op => CachedKeyValueAccessor.Keeps s op
  | .pushBack _ v =>
      s.base.bdb.writer = none →
        s.base.bdb.backend.view.lookup (UInt64.ofNat s.base.bdb.backend.view.keys.card) = some v
  | _ => True

variable [DecidableEq T]

theorem coherent_size {s : ArrayAccessor T V} (coherent : CachedKeyValueAccessor.Coherent s)
    (thread : T) : (CachedKeyValueAccessor.size s thread).2.Coherent :=
  CachedKeyValueAccessor.step_coherent (.size thread) coherent trivial rfl

/-- The index that an array request computes is the size of the container the thread reads. -/
theorem size_of_coherent {s : ArrayAccessor T V} (coherent : CachedKeyValueAccessor.Coherent s)
    (thread : T) :
    (CachedKeyValueAccessor.size s thread).1 = (s.base.bdb.read thread).keys.card :=
  BasicKeyValueAccessor.size_of_coherent coherent.base thread

theorem step_coherent {s next : ArrayAccessor T V} {op : ArrayOp T V}
    (coherent : CachedKeyValueAccessor.Coherent s) (keeps : Keeps s op)
    (stepped : step s op = some next) : CachedKeyValueAccessor.Coherent next := by
  cases op with
  | inherited op => exact CachedKeyValueAccessor.step_coherent op coherent keeps stepped
  | pushBack thread v =>
      cases stepped
      refine CachedKeyValueAccessor.step_coherent (.set thread _ v)
        (coherent_size coherent thread) ?_ rfl
      intro free
      have sameDb : (CachedKeyValueAccessor.size s thread).2.base.bdb = s.base.bdb :=
        (BasicKeyValueAccessor.size_snd_bdb s.base thread).1
      rw [sameDb] at free ⊢
      have readsView : s.base.bdb.read thread = s.base.bdb.backend.view := by
        simp [BasicDbAccessor.read, free, BasicDbAccessor.view_of_no_writer free]
      have index : (s.base.size thread).1 = s.base.bdb.backend.view.keys.card :=
        readsView ▸ size_of_coherent coherent thread
      rw [index]
      exact keeps free
  | popBack thread =>
      exact CachedKeyValueAccessor.step_coherent (.erase thread _)
        (coherent_size coherent thread) trivial stepped
  | back thread =>
      cases stepped
      exact CachedKeyValueAccessor.step_coherent (.get thread _)
        (coherent_size coherent thread) trivial rfl

theorem run_coherent {s final : ArrayAccessor T V} {ops : List (ArrayOp T V)}
    (coherent : CachedKeyValueAccessor.Coherent s) (guarded : Guarded step Keeps s ops)
    (ran : run step s ops = some final) : CachedKeyValueAccessor.Coherent final :=
  invariant_of_run (fun _ _ _ inv keeps stepped => step_coherent inv keeps stepped)
    coherent guarded ran

theorem framed_size (s : ArrayAccessor T V) (thread : T) :
    BasicDbAccessor.Framed s.base.bdb (CachedKeyValueAccessor.size s thread).2.base.bdb :=
  CachedKeyValueAccessor.serves.neither s (.size thread) _ rfl rfl

theorem serves : Serves (step (T := T) (V := V)) ArrayOp.bracket
    (fun s : ArrayAccessor T V => s.base.bdb) where
  neither s op next neither stepped := by
    cases op with
    | inherited op => exact CachedKeyValueAccessor.serves.neither _ _ _ neither stepped
    | pushBack thread v =>
        cases stepped
        exact (framed_size s thread).trans
          (CachedKeyValueAccessor.serves.neither _ (.set thread _ v) _ rfl rfl)
    | popBack thread =>
        exact (framed_size s thread).trans
          (CachedKeyValueAccessor.serves.neither _ (.erase thread _) _ rfl stepped)
    | back thread =>
        cases stepped
        exact (framed_size s thread).trans
          (CachedKeyValueAccessor.serves.neither _ (.get thread _) _ rfl rfl)
  opens s op next opens stepped := by
    cases op with
    | inherited op => exact CachedKeyValueAccessor.serves.opens _ _ _ opens stepped
    | _ => cases opens
  closes s op next closes stepped := by
    cases op with
    | inherited op => exact CachedKeyValueAccessor.serves.closes _ _ _ closes stepped
    | _ => cases closes

/-- `back` answers with what the reading thread's container has at its last index. -/
theorem back_of_coherent {s : ArrayAccessor T V} (coherent : CachedKeyValueAccessor.Coherent s)
    (thread : T) :
    (back s thread).1 =
      (s.base.bdb.read thread).lookup (UInt64.ofNat (s.base.bdb.read thread).keys.card - 1) := by
  have agrees := CachedKeyValueAccessor.agrees_of_coherent (coherent_size coherent thread)
  have sameDb : (CachedKeyValueAccessor.size s thread).2.base.bdb = s.base.bdb :=
    (BasicKeyValueAccessor.size_snd_bdb s.base thread).1
  have answer := (agrees thread).2
    (UInt64.ofNat (CachedKeyValueAccessor.size s thread).1 - 1)
  rw [sameDb, size_of_coherent coherent thread] at answer
  exact (congrArg (fun n => (CachedKeyValueAccessor.get _ thread (UInt64.ofNat n - 1)).1)
    (size_of_coherent coherent thread)).trans answer

end ArrayAccessor

/-! ## Coherence under transactions -/

section

variable {T K V : Type*} [DecidableEq T] [DecidableEq K]

/-- An abort that closes the begin of `opened` leaves the same answers as before that begin, when
both states answer from the store and the store is the same. -/
theorem answers_after_abort {s final : CachedKeyValueAccessor T K V} (before : s.Coherent)
    (after : final.Coherent) (same : final.base.bdb = s.base.bdb) (thread : T) :
    (final.size thread).1 = (s.size thread).1 ∧
      ∀ k, (final.get thread k).1 = (s.get thread k).1 := by
  have agreesBefore := CachedKeyValueAccessor.agrees_of_coherent before thread
  have agreesAfter := CachedKeyValueAccessor.agrees_of_coherent after thread
  rw [same] at agreesAfter
  exact ⟨agreesAfter.1.trans agreesBefore.1.symm,
    fun k => (agreesAfter.2 k).trans (agreesBefore.2 k).symm⟩

/-- The requests from a begin to the abort, through the database object, that closes it. -/
def aborted (thread : T) (inner : List (Op T K V)) : List (Op T K V) :=
  .beginTransaction thread false :: inner ++ [.abortTransaction thread]

theorem basic_abort {s final : BasicKeyValueAccessor T K V} {thread : T} {inner : List (Op T K V)}
    (bracketed : Bracketed Op.bracket inner)
    (ran : run BasicKeyValueAccessor.step s (aborted thread inner) = some final) :
    final.bdb = s.bdb := by
  obtain ⟨inside, ranInner, ranLast⟩ := run_append_eq_some.mp ran
  obtain ⟨opened, began, ranInside⟩ := run_cons_eq_some.mp ranInner
  rw [run_singleton] at ranLast
  obtain ⟨began', openedDb⟩ := BasicKeyValueAccessor.bdb_of_begin began
  obtain ⟨ended, abortedDb⟩ := BasicKeyValueAccessor.bdb_of_abort ranLast
  exact abort_undoes BasicKeyValueAccessor.serves openedDb bracketed ranInside abortedDb

theorem cached_abort {s final : CachedKeyValueAccessor T K V} {thread : T} {inner : List (Op T K V)}
    (bracketed : Bracketed Op.bracket inner)
    (ran : run CachedKeyValueAccessor.step s (aborted thread inner) = some final) :
    final.base.bdb = s.base.bdb :=
  basic_abort bracketed
    (run_simulates CachedKeyValueAccessor.base (fun _ op _ =>
      CachedKeyValueAccessor.step_base op) ran)

theorem array_abort {V : Type*} {s final : ArrayAccessor T V} {thread : T}
    {inner : List (ArrayOp T V)} (bracketed : Bracketed ArrayOp.bracket inner)
    (ran : run ArrayAccessor.step s (.inherited (.beginTransaction thread false) :: inner ++
      [.inherited (.abortTransaction thread)]) = some final) :
    final.base.bdb = s.base.bdb := by
  obtain ⟨inside, ranInner, ranLast⟩ := run_append_eq_some.mp ran
  obtain ⟨opened, began, ranInside⟩ := run_cons_eq_some.mp ranInner
  rw [run_singleton] at ranLast
  obtain ⟨began', openedDb⟩ := BasicKeyValueAccessor.bdb_of_begin
    (CachedKeyValueAccessor.step_base (.beginTransaction thread false) began)
  obtain ⟨ended, abortedDb⟩ := BasicKeyValueAccessor.bdb_of_abort
    (CachedKeyValueAccessor.step_base (.abortTransaction thread) ranLast)
  exact abort_undoes ArrayAccessor.serves openedDb bracketed ranInside abortedDb

/-- Coherence of the three accessors. In every state that a run reaches, each answer is the one of
the store that the asking thread reads: the innermost overlay for the writer, the committed map for
others. An abort requested through the database object, at any depth, brings back the answers from
before the begin that it closes. The runs are those whose every step satisfies `Keeps`. -/
theorem accessors_coherent {U : Type*} (committed : Container K V) (maxElements : Nat)
    (array : Container UInt64 U) :
    (∀ ops (final : BasicKeyValueAccessor T K V),
      Guarded BasicKeyValueAccessor.step BasicKeyValueAccessor.Keeps (.openOn T committed) ops →
      run BasicKeyValueAccessor.step (.openOn T committed) ops = some final →
      (∀ thread, (final.size thread).1 = (final.bdb.read thread).keys.card ∧
        ∀ k, final.get thread k = (final.bdb.read thread).lookup k) ∧
      ∀ thread inner after, Bracketed Op.bracket inner →
        Guarded BasicKeyValueAccessor.step BasicKeyValueAccessor.Keeps final
          (aborted thread inner) →
        run BasicKeyValueAccessor.step final (aborted thread inner) = some after →
        ∀ other, (after.size other).1 = (final.size other).1 ∧
          ∀ k, after.get other k = final.get other k) ∧
    (∀ ops (final : CachedKeyValueAccessor T K V),
      Guarded CachedKeyValueAccessor.step CachedKeyValueAccessor.Keeps
        (.openOn T committed maxElements) ops →
      run CachedKeyValueAccessor.step (.openOn T committed maxElements) ops = some final →
      (∀ thread, (final.size thread).1 = (final.base.bdb.read thread).keys.card ∧
        ∀ k, (final.get thread k).1 = (final.base.bdb.read thread).lookup k) ∧
      ∀ thread inner after, Bracketed Op.bracket inner →
        Guarded CachedKeyValueAccessor.step CachedKeyValueAccessor.Keeps final
          (aborted thread inner) →
        run CachedKeyValueAccessor.step final (aborted thread inner) = some after →
        ∀ other, (after.size other).1 = (final.size other).1 ∧
          ∀ k, (after.get other k).1 = (final.get other k).1) ∧
    (∀ ops (final : ArrayAccessor T U),
      Guarded ArrayAccessor.step ArrayAccessor.Keeps (.openOn T array maxElements) ops →
      run ArrayAccessor.step (.openOn T array maxElements) ops = some final →
      (∀ thread, (final.size thread).1 = (final.base.bdb.read thread).keys.card ∧
        (∀ k, (final.get thread k).1 = (final.base.bdb.read thread).lookup k) ∧
        (ArrayAccessor.back final thread).1 = (final.base.bdb.read thread).lookup
          (UInt64.ofNat (final.base.bdb.read thread).keys.card - 1)) ∧
      ∀ thread inner after, Bracketed ArrayOp.bracket inner →
        Guarded ArrayAccessor.step ArrayAccessor.Keeps final
          (.inherited (.beginTransaction thread false) :: inner ++
            [.inherited (.abortTransaction thread)]) →
        run ArrayAccessor.step final (.inherited (.beginTransaction thread false) :: inner ++
          [.inherited (.abortTransaction thread)]) = some after →
        ∀ other, (after.size other).1 = (final.size other).1 ∧
          ∀ k, (after.get other k).1 = (final.get other k).1) := by
  refine ⟨?_, ?_, ?_⟩
  · intro ops final guarded ran
    have coherent :=
      BasicKeyValueAccessor.run_coherent (BasicKeyValueAccessor.coherent_openOn committed)
        guarded ran
    refine ⟨fun thread => ⟨BasicKeyValueAccessor.size_of_coherent coherent thread, fun k => rfl⟩,
      ?_⟩
    intro thread inner after bracketed guardedAbort ranAbort other
    have coherentAfter := BasicKeyValueAccessor.run_coherent coherent guardedAbort ranAbort
    have same := basic_abort bracketed ranAbort
    constructor
    · rw [BasicKeyValueAccessor.size_of_coherent coherentAfter other,
        BasicKeyValueAccessor.size_of_coherent coherent other, same]
    · intro k
      rw [BasicKeyValueAccessor.get, same]
      rfl
  · intro ops final guarded ran
    have coherent := CachedKeyValueAccessor.run_coherent
      (CachedKeyValueAccessor.coherent_openOn committed maxElements) guarded ran
    refine ⟨CachedKeyValueAccessor.agrees_of_coherent coherent, ?_⟩
    intro thread inner after bracketed guardedAbort ranAbort
    have coherentAfter := CachedKeyValueAccessor.run_coherent coherent guardedAbort ranAbort
    exact answers_after_abort coherent coherentAfter (cached_abort bracketed ranAbort)
  · intro ops final guarded ran
    have coherent := ArrayAccessor.run_coherent
      (CachedKeyValueAccessor.coherent_openOn array maxElements) guarded ran
    have agrees := CachedKeyValueAccessor.agrees_of_coherent coherent
    refine ⟨fun thread => ⟨(agrees thread).1, (agrees thread).2,
      ArrayAccessor.back_of_coherent coherent thread⟩, ?_⟩
    intro thread inner after bracketed guardedAbort ranAbort
    have coherentAfter := ArrayAccessor.run_coherent coherent guardedAbort ranAbort
    exact answers_after_abort coherent coherentAfter (array_abort bracketed ranAbort)

end

/-- A key is erased inside two transactions, and everybody learns about it when
both are committed. -/
theorem accessors_coherent_erase :
    ∃ final, run CachedKeyValueAccessor.step
        (.openOn Nat ((∅ : Container Nat Nat).insert 5 7) 10000)
        [.beginTransaction 0 false, .beginTransaction 0 false, .erase 0 5, .commitTransaction 0,
          .commitTransaction 0] = some final ∧
      (final.size 1).1 = (final.base.bdb.read 1).keys.card ∧
      (final.get 1 5).1 = (final.base.bdb.read 1).lookup 5 := by
  obtain ⟨final, ran⟩ := Option.isSome_iff_exists.mp (show (run CachedKeyValueAccessor.step
    (.openOn Nat ((∅ : Container Nat Nat).insert 5 7) 10000)
    [.beginTransaction 0 false, .beginTransaction 0 false, .erase 0 5, .commitTransaction 0,
      .commitTransaction 0]).isSome = true from rfl)
  have answers := ((accessors_coherent (U := Nat) ((∅ : Container Nat Nat).insert 5 7) 10000 ∅).2.1
    _ final (guarded_of_forall_mem (by simp [CachedKeyValueAccessor.Keeps])) ran).1 1
  exact ⟨final, ran, answers.1, answers.2 5⟩

/-- Three runs of one writer from an empty database. After the outermost abort the accessor still
reports the size that it read inside; after an inner abort it still returns the value set inside;
after `explicit_set` it still returns the value from before. -/
theorem stale_answers :
    (∃ final, run CachedKeyValueAccessor.step (.openOn Nat (∅ : Container Nat Nat) 10000)
        [.beginTransaction 0 false, .set 0 5 7, .size 0, .abortTransaction 0] = some final ∧
      (final.size 0).1 = 1 ∧ (final.base.bdb.read 0).keys.card = 0) ∧
    (∃ final, run CachedKeyValueAccessor.step (.openOn Nat (∅ : Container Nat Nat) 10000)
        [.beginTransaction 0 false, .beginTransaction 0 false, .set 0 5 7, .abortTransaction 0] =
          some final ∧
      (final.get 0 5).1 = some 7 ∧ (final.base.bdb.read 0).lookup 5 = none) ∧
    (∃ final, run CachedKeyValueAccessor.step (.openOn Nat (∅ : Container Nat Nat) 10000)
        [.beginTransaction 0 false, .set 0 5 7, .explicitSet 0 5 8] = some final ∧
      (final.get 0 5).1 = some 7 ∧ (final.base.bdb.read 0).lookup 5 = some 8) := by
  refine ⟨⟨_, rfl, rfl, rfl⟩, ⟨_, rfl, rfl, rfl⟩, ⟨_, rfl, rfl, rfl⟩⟩

end Zano.Db
