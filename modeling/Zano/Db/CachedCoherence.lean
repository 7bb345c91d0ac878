import Zano.Db.Coherence

/-! # Coherence of the cached and array accessors

The value cache adds the second half of the invariant: what it holds is what the overlay in view
holds. The size cache is treated by `Zano.Db.Coherence`, to which every request of the cached
accessor descends (`step_base`).

`step_coherent_iff` is what makes `Keeps` the condition of a run rather than a convenient
assumption: from a coherent state, a request that violates it always ends in a state with a wrong
answer to give.
-/

namespace Zano.Db

open Transition

namespace CachedKeyValueAccessor

variable {T K V : Type*} [DecidableEq K]

structure Coherent (s : CachedKeyValueAccessor T K V) : Prop where
  base : s.base.Coherent
  values : ∀ k v, s.cache.data.lookup k = some v → s.base.bdb.backend.view.lookup k = some v

theorem coherent_openOn (committed : Container K V) (maxElements : Nat) :
    (CachedKeyValueAccessor.openOn T committed maxElements).Coherent :=
  ⟨BasicKeyValueAccessor.coherent_openOn committed, fun k v cached => by
    simp [openOn, CacheBase.empty, Finmap.lookup_empty] at cached⟩

/-- The end of an inner transaction is announced to nobody: the cached values must be right below it
already. The outermost abort clears the cache. -/
def ValuesSurviveAbort (s : CachedKeyValueAccessor T K V) : Prop :=
  s.base.bdb.transactionsStack.head? = some false → s.base.bdb.transactionsStack.tail ≠ [] →
    ∀ k v, s.cache.data.lookup k = some v → s.base.bdb.backend.below.lookup k = some v

/-- The caches hold nothing that the request makes stale. For `set` this asks for an open write
transaction, without which the value reaches the cache but not the store. -/
def Keeps (s : CachedKeyValueAccessor T K V) : Op T K V → Prop
  | .abortTransaction thread => s.base.Keeps (.abortTransaction thread) ∧ s.ValuesSurviveAbort
  | .accessorAbortTransaction _ => s.ValuesSurviveAbort
  | .set _ k v => s.base.bdb.writer = none → s.base.bdb.backend.view.lookup k = some v
  | .explicitSet thread k v =>
      s.base.bdb.writer = some thread → ∀ w, s.cache.data.lookup k = some w → w = v
  | _ => True

theorem base_keeps {s : CachedKeyValueAccessor T K V} {op : Op T K V} (keeps : s.Keeps op) :
    s.base.Keeps op := by
  cases op with
  | abortTransaction thread => exact keeps.1
  | _ => trivial

variable [DecidableEq T]

/-! ## Every request descends to the basic accessor -/

omit [DecidableEq K] in
theorem abortTransaction_spec {s next : CachedKeyValueAccessor T K V} {thread : T}
    (aborted : s.abortTransaction thread = some next) :
    s.base.abortTransaction thread = some next.base ∧
      ∃ broadcast, s.base.bdb.abortTransaction thread = some (broadcast, next.base.bdb) ∧
        next.cache = if broadcast then isolatedClear s.base.isolation s.cache thread
          else s.cache := by
  obtain ⟨⟨broadcast, bdb⟩, ended, notified⟩ := Option.bind_eq_some_iff.mp aborted
  cases broadcast with
  | false =>
      simp only [Bool.false_eq_true, if_false, Option.some.injEq] at notified
      subst notified
      refine ⟨?_, false, ended, rfl⟩
      simp [BasicKeyValueAccessor.abortTransaction, ended]
  | true =>
      simp only [if_true, onWriteTransactionAbort, Option.map_eq_some_iff] at notified
      obtain ⟨base, reset, rfl⟩ := notified
      have sameDatabase : base.bdb = bdb := by
        simp only [BasicKeyValueAccessor.onWriteTransactionAbort, Option.map_eq_some_iff] at reset
        obtain ⟨isolation, -, rfl⟩ := reset
        rfl
      refine ⟨?_, true, by rw [ended, sameDatabase], rfl⟩
      simpa [BasicKeyValueAccessor.abortTransaction, ended] using reset

theorem get_base (s : CachedKeyValueAccessor T K V) (thread : T) (k : K) :
    (s.get thread k).2.base = s.base := by
  unfold get
  split
  · rfl
  · split <;> rfl

theorem erase_spec {s next : CachedKeyValueAccessor T K V} {thread : T} {k : K}
    (erased : s.erase thread k = some next) :
    s.base.erase thread k = some next.base ∧ next.cache = s.cache.erase k := by
  obtain ⟨base, descended, rest⟩ := Option.bind_eq_some_iff.mp erased
  obtain ⟨cache, isolated, rfl⟩ := Option.map_eq_some_iff.mp rest
  refine ⟨descended, ?_⟩
  unfold isolatedErase at isolated
  split at isolated
  · exact (Option.some.inj isolated).symm
  · cases isolated

theorem step_base {s next : CachedKeyValueAccessor T K V} (op : Op T K V)
    (stepped : s.step op = some next) : s.base.step op = some next.base := by
  cases op with
  | beginTransaction thread readonly =>
      obtain ⟨base, began, rfl⟩ := Option.map_eq_some_iff.mp stepped
      exact began
  | commitTransaction thread =>
      obtain ⟨base, committed, rfl⟩ := Option.map_eq_some_iff.mp stepped
      exact committed
  | abortTransaction thread => exact (abortTransaction_spec stepped).1
  | accessorAbortTransaction thread => exact (abortTransaction_spec stepped).1
  | set thread k v =>
      cases stepped
      rfl
  | explicitSet thread k v =>
      cases stepped
      rfl
  | erase thread k => exact (erase_spec stepped).1
  | clear thread =>
      obtain ⟨base, cleared, rfl⟩ := Option.map_eq_some_iff.mp stepped
      exact cleared
  | get thread k =>
      cases stepped
      exact congrArg some (get_base s thread k).symm
  | size thread =>
      cases stepped
      rfl

/-! ## What each request does to the cached values -/

/-- An abort keeps the cached values right exactly when they survive it. -/
theorem values_abort_iff {s next : CachedKeyValueAccessor T K V} {thread : T}
    (coherent : s.Coherent) (aborted : s.abortTransaction thread = some next) :
    (∀ k v, next.cache.data.lookup k = some v → next.base.bdb.backend.view.lookup k = some v) ↔
      s.ValuesSurviveAbort := by
  obtain ⟨-, broadcast, ended, cache⟩ := abortTransaction_spec aborted
  have view := BasicDbAccessor.view_abort ended
  obtain ⟨owner, readonly, stack, -, outermost⟩ := BasicDbAccessor.endTransaction_cases ended
  have allowed := (BasicKeyValueAccessor.allowed_iff coherent.base).mpr (.inr owner)
  rcases outermost with ⟨closed, -, rfl, -⟩ | ⟨inner, rfl, -⟩
  · simp only [if_true, isolatedClear, allowed] at cache
    have vacuous : s.ValuesSurviveAbort := by
      intro _ inner
      rw [stack, closed] at inner
      exact absurd rfl inner
    simp [cache, vacuous]
  · simp only [Bool.false_eq_true, if_false] at cache
    rw [cache, view]
    constructor
    · intro after writeTransaction _ k v cached
      simpa only [writeTransaction, if_true] using after k v cached
    · intro survive k v cached
      split
      · rename_i writeTransaction
        exact survive writeTransaction (by rw [stack]; exact inner) k v cached
      · exact coherent.values k v cached

theorem values_set {s : CachedKeyValueAccessor T K V} {thread : T} {k : K} {v : V}
    (coherent : s.Coherent) (keeps : s.Keeps (.set thread k v)) (other : K) (w : V)
    (cached : (s.set thread k v).cache.data.lookup other = some w) :
    (s.set thread k v).base.bdb.backend.view.lookup other = some w := by
  simp only [set, isolatedSet] at cached
  change (s.base.bdb.write thread (·.insert k v)).backend.view.lookup other = some w
  by_cases owner : s.base.bdb.writer = some thread
  · rw [if_pos ((BasicKeyValueAccessor.allowed_iff coherent.base).mpr (.inr owner))] at cached
    rw [BasicDbAccessor.view_write owner]
    rcases CacheBase.lookup_set_of_some cached with ⟨rfl, rfl⟩ | ⟨different, before⟩
    · exact Finmap.lookup_insert _
    · rw [Finmap.lookup_insert_of_ne _ different]
      exact coherent.values other w before
  · rw [BasicDbAccessor.view_write_of_stranger owner]
    split at cached
    · rename_i allowed
      have free :=
        ((BasicKeyValueAccessor.allowed_iff coherent.base).mp allowed).resolve_right owner
      rcases CacheBase.lookup_set_of_some cached with ⟨rfl, rfl⟩ | ⟨-, before⟩
      · exact keeps free
      · exact coherent.values other w before
    · exact coherent.values other w cached

theorem values_explicitSet {s : CachedKeyValueAccessor T K V} {thread : T} {k : K} {v : V}
    (coherent : s.Coherent) (keeps : s.Keeps (.explicitSet thread k v)) (other : K) (w : V)
    (cached : s.cache.data.lookup other = some w) :
    (s.base.explicitSet thread k v).bdb.backend.view.lookup other = some w := by
  change (s.base.bdb.write thread (·.insert k v)).backend.view.lookup other = some w
  by_cases owner : s.base.bdb.writer = some thread
  · rw [BasicDbAccessor.view_write owner]
    by_cases same : other = k
    · subst same
      rw [keeps owner w cached]
      exact Finmap.lookup_insert _
    · rw [Finmap.lookup_insert_of_ne _ same]
      exact coherent.values other w cached
  · rw [BasicDbAccessor.view_write_of_stranger owner]
    exact coherent.values other w cached

theorem values_erase {s next : CachedKeyValueAccessor T K V} {thread : T} {k : K}
    (coherent : s.Coherent) (erased : s.erase thread k = some next) (other : K) (w : V)
    (cached : next.cache.data.lookup other = some w) :
    next.base.bdb.backend.view.lookup other = some w := by
  obtain ⟨descended, cache⟩ := erase_spec erased
  obtain ⟨-, base⟩ := BasicKeyValueAccessor.invalidateSize_spec descended
  rw [cache] at cached
  obtain ⟨different, before⟩ := CacheBase.lookup_erase_of_some cached
  rw [base]
  change (s.base.bdb.write thread (·.erase k)).backend.view.lookup other = some w
  by_cases owner : s.base.bdb.writer = some thread
  · rw [BasicDbAccessor.view_write owner, Finmap.lookup_erase_ne different]
    exact coherent.values other w before
  · rw [BasicDbAccessor.view_write_of_stranger owner]
    exact coherent.values other w before

theorem values_clear {s next : CachedKeyValueAccessor T K V} {thread : T}
    (cleared : s.clear thread = some next) (k : K) : next.cache.data.lookup k = none := by
  obtain ⟨base, descended, rfl⟩ := Option.map_eq_some_iff.mp cleared
  obtain ⟨allowed, -⟩ := BasicKeyValueAccessor.invalidateSize_spec descended
  simp only [isolatedClear]
  rw [if_pos (show s.base.isolation.allowedCache thread = true from allowed)]
  exact CacheBase.lookup_clear _ k

theorem values_get {s : CachedKeyValueAccessor T K V} {thread : T} {k : K} (coherent : s.Coherent)
    (other : K) (w : V) (cached : (s.get thread k).2.cache.data.lookup other = some w) :
    s.base.bdb.backend.view.lookup other = some w := by
  have readThrough : ∀ c : CacheBase K V, c.data = s.cache.data → ∀ v,
      s.base.get thread k = some v →
      (isolatedSet s.base.isolation c thread k v).data.lookup other = some w →
      s.base.bdb.backend.view.lookup other = some w := by
    intro c same v stored filled
    unfold isolatedSet at filled
    split at filled
    · rename_i allowed
      rcases CacheBase.lookup_set_of_some filled with ⟨rfl, rfl⟩ | ⟨-, before⟩
      · rw [← BasicKeyValueAccessor.read_of_allowed coherent.base.isolated allowed]
        exact stored
      · exact coherent.values other w (same ▸ before)
    · exact coherent.values other w (same ▸ filled)
  have unchanged : (isolatedGet s.base.isolation s.cache thread k).2.data = s.cache.data := by
    unfold isolatedGet
    split
    · exact CacheBase.data_get s.cache k
    · rfl
  unfold get at cached
  split at cached
  · rename_i v cache looked
    rw [looked] at unchanged
    exact coherent.values other w (unchanged ▸ cached)
  · rename_i cache looked
    rw [looked] at unchanged
    split at cached
    · exact coherent.values other w (unchanged ▸ cached)
    · rename_i v stored
      exact readThrough cache unchanged v stored cached

/-! ## One request, and the answers in a coherent state -/

theorem step_coherent {s next : CachedKeyValueAccessor T K V} (op : Op T K V)
    (coherent : s.Coherent) (keeps : s.Keeps op)
    (stepped : s.step op = some next) : next.Coherent := by
  refine ⟨BasicKeyValueAccessor.step_coherent coherent.base (base_keeps keeps)
    (step_base op stepped), ?_⟩
  cases op with
  | beginTransaction thread readonly =>
      obtain ⟨base, began, rfl⟩ := Option.map_eq_some_iff.mp stepped
      obtain ⟨broadcast, opened, -⟩ :=
        BasicKeyValueAccessor.beginTransaction_spec coherent.base.isolated began
      rw [BasicDbAccessor.view_begin opened]
      exact coherent.values
  | commitTransaction thread =>
      obtain ⟨base, committed, rfl⟩ := Option.map_eq_some_iff.mp stepped
      obtain ⟨broadcast, closed, -⟩ :=
        BasicKeyValueAccessor.commitTransaction_spec coherent.base.isolated committed
      rw [BasicDbAccessor.view_commit closed]
      exact coherent.values
  | abortTransaction thread => exact (values_abort_iff coherent stepped).mpr keeps.2
  | accessorAbortTransaction thread =>
      have dropped : { s with base := { s.base with sizeCacheValid := false } }.Coherent :=
        ⟨⟨coherent.base.isolated, fun valid => by cases valid⟩, coherent.values⟩
      exact (values_abort_iff dropped stepped).mpr keeps
  | set thread k v =>
      cases stepped
      exact values_set coherent keeps
  | explicitSet thread k v =>
      cases stepped
      exact values_explicitSet coherent keeps
  | erase thread k => exact values_erase coherent stepped
  | clear thread =>
      intro k v cached
      rw [values_clear stepped k] at cached
      cases cached
  | get thread k =>
      cases stepped
      rw [get_base]
      exact values_get coherent
  | size thread =>
      cases stepped
      rw [show (s.size thread).2.base.bdb = s.base.bdb from
        (BasicKeyValueAccessor.size_snd_bdb s.base thread).1]
      exact coherent.values

theorem step_coherent_iff {s next : CachedKeyValueAccessor T K V} {op : Op T K V}
    (coherent : s.Coherent) (room : 0 < s.cache.maxAllowedElements)
    (stepped : s.step op = some next) :
    next.Coherent ↔ s.Keeps op := by
  refine ⟨fun after => ?_, fun keeps => step_coherent op coherent keeps stepped⟩
  cases op with
  | abortTransaction thread =>
      have descended := (abortTransaction_spec stepped).1
      exact ⟨(BasicKeyValueAccessor.coherent_abort_iff coherent.base descended).mp after.base,
        (values_abort_iff coherent stepped).mp after.values⟩
  | accessorAbortTransaction thread =>
      have dropped : { s with base := { s.base with sizeCacheValid := false } }.Coherent :=
        ⟨⟨coherent.base.isolated, fun valid => by cases valid⟩, coherent.values⟩
      exact (values_abort_iff dropped stepped).mp after.values
  | set thread k v =>
      intro free
      cases stepped
      have stranger : s.base.bdb.writer ≠ some thread := by simp [free]
      have cached : (s.set thread k v).cache.data.lookup k = some v := by
        simp only [set, isolatedSet]
        rw [if_pos ((BasicKeyValueAccessor.allowed_iff coherent.base).mpr (.inl free))]
        exact CacheBase.lookup_set_self s.cache k v room
      have stored := after.values k v cached
      rwa [show (s.set thread k v).base.bdb.backend.view = s.base.bdb.backend.view from
        BasicDbAccessor.view_write_of_stranger stranger _] at stored
  | explicitSet thread k v =>
      intro owner w cached
      cases stepped
      have stored := after.values k w cached
      rw [show (s.base.explicitSet thread k v).bdb.backend.view = s.base.bdb.backend.view.insert k v
        from BasicDbAccessor.view_write owner _, Finmap.lookup_insert] at stored
      exact (Option.some.inj stored).symm
  | _ => trivial

theorem run_coherent {s final : CachedKeyValueAccessor T K V} {ops : List (Op T K V)}
    (coherent : s.Coherent) (guarded : Guarded step Keeps s ops)
    (ran : run step s ops = some final) : final.Coherent :=
  invariant_of_run (fun _ op _ inv keeps stepped => step_coherent op inv keeps stepped)
    coherent guarded ran

/-- Every answer is the one of the store that the asking thread reads. -/
def Agrees (s : CachedKeyValueAccessor T K V) : Prop :=
  ∀ thread, (s.size thread).1 = (s.base.bdb.read thread).keys.card ∧
    ∀ k, (s.get thread k).1 = (s.base.bdb.read thread).lookup k

theorem agrees_of_coherent {s : CachedKeyValueAccessor T K V}
    (coherent : s.Coherent) : s.Agrees := by
  intro thread
  refine ⟨BasicKeyValueAccessor.size_of_coherent coherent.base thread, fun k => ?_⟩
  unfold get
  split
  · rename_i v cache looked
    unfold isolatedGet at looked
    split at looked
    · rename_i allowed
      have hit : s.cache.data.lookup k = some v := by
        rw [← CacheBase.get_fst, looked]
      rw [BasicKeyValueAccessor.read_of_allowed coherent.base.isolated allowed]
      exact (coherent.values k v hit).symm
    · cases looked
  · split
    · rename_i missing
      exact missing.symm
    · rename_i v stored
      exact stored.symm

end CachedKeyValueAccessor

end Zano.Db
