import Zano.Db.KeyToArray

/-! # The arrays over their accessors

The array in chunks is stored with a cached accessor, the array of single items with a basic one.
Counters never come into the value cache, so that writing them past it leaves nothing stale there.

Two things are not as with lists. A counter has 64 bits, and no items are there from every offset
on, as the check of the bound comes behind the return for a count of zero.
-/

namespace Zano.Db.KeyToArray

open Answers Chunks

variable {T K V I : Type*} [DecidableEq T] [DecidableEq K]

/-- What is stored under the key of an item, and nothing for what is no item. -/
def itemOf : Option (ArrayValue I) → Option I
  | some (.item x) => some x
  | _ => none

/-- The value of `solo_db_value`, with its default. -/
def counterOf : Option (ArrayValue I) → UInt64
  | some (.counter n) => n
  | _ => 0

/-! ## The cached accessor -/

def cachedStore (thread : T) :
    ArrayStore (CachedKeyValueAccessor T (ArrayKey K) (ArrayValue I)) K I where
  getItem s k i := (itemOf (s.get thread (.item k i)).1, (s.get thread (.item k i)).2)
  setItem s k i x := s.set thread (.item k i) (.item x)
  eraseItem s k i := s.erase thread (.item k i)
  getCounter s k := counterOf (s.base.get thread (.counter k))
  setCounter s k n := { s with base := s.base.explicitSet thread (.counter k) (.counter n) }

structure CachedShows (thread : T) (s : CachedKeyValueAccessor T (ArrayKey K) (ArrayValue I))
    (counters : K → UInt64)
    (items : K × UInt64 → Option I) : Prop where
  coherent : s.Coherent
  writes : s.base.bdb.writer = some thread
  noCounters : ∀ k, s.cache.data.lookup (.counter k) = none
  counters : ∀ k, counterOf (s.base.bdb.backend.view.lookup (.counter k)) = counters k
  items : ∀ k i, itemOf (s.base.bdb.backend.view.lookup (.item k i)) = items (k, i)

theorem lookup_get {s : CachedKeyValueAccessor T K V} {thread : T} {k other : K} {v : V}
    (cached : (s.get thread k).2.cache.data.lookup other = some v) :
    other = k ∨ s.cache.data.lookup other = some v := by
  have unchanged : (isolatedGet s.base.isolation s.cache thread k).2.data = s.cache.data := by
    unfold isolatedGet
    split
    · exact CacheBase.data_get s.cache k
    · rfl
  unfold CachedKeyValueAccessor.get at cached
  split at cached
  · rename_i w cache looked
    rw [looked] at unchanged
    exact .inr (unchanged ▸ cached)
  · rename_i cache looked
    rw [looked] at unchanged
    split at cached
    · exact .inr (unchanged ▸ cached)
    · unfold isolatedSet at cached
      split at cached
      · obtain ⟨isKey, -⟩ | ⟨-, before⟩ := CacheBase.lookup_set_of_some cached
        · exact .inl isKey
        · exact .inr (unchanged ▸ before)
      · exact .inr (unchanged ▸ cached)

omit [DecidableEq K] in
theorem read_of_writer {db : BasicDbAccessor T K V} {thread : T}
    (writes : db.writer = some thread) :
    db.read thread = db.backend.view := by
  rw [BasicDbAccessor.read, if_pos writes]

section View

variable {view : Container (ArrayKey K) (ArrayValue I)} {counters : K → UInt64}
  {items : K × UInt64 → Option I}
  (isCounters : ∀ k, counterOf (view.lookup (.counter k)) = counters k)
  (isItems : ∀ k i, itemOf (view.lookup (.item k i)) = items (k, i))

include isCounters isItems

theorem view_insert_item (k : K) (i : UInt64) (x : I) :
    (∀ other, counterOf ((view.insert (.item k i) (.item x)).lookup (.counter other)) =
      counters other) ∧
      ∀ other j, itemOf ((view.insert (.item k i) (.item x)).lookup (.item other j)) =
        Function.update items (k, i) (some x) (other, j) := by
  refine ⟨fun other => ?_, fun other j => ?_⟩
  · rw [Finmap.lookup_insert_of_ne _ (by simp), isCounters]
  · by_cases same : (other, j) = (k, i)
    · cases same
      rw [Finmap.lookup_insert, Function.update_self]
      rfl
    · rw [Finmap.lookup_insert_of_ne _ (by simpa using same), isItems, Function.update_of_ne same]

theorem view_erase_item (k : K) (i : UInt64) :
    (∀ other, counterOf ((view.erase (.item k i)).lookup (.counter other)) = counters other) ∧
      ∀ other j, itemOf ((view.erase (.item k i)).lookup (.item other j)) =
        Function.update items (k, i) none (other, j) := by
  refine ⟨fun other => ?_, fun other j => ?_⟩
  · rw [Finmap.lookup_erase_ne (by simp), isCounters]
  · by_cases same : (other, j) = (k, i)
    · cases same
      rw [Finmap.lookup_erase, Function.update_self]
      rfl
    · rw [Finmap.lookup_erase_ne (by simpa using same), isItems, Function.update_of_ne same]

theorem view_insert_counter (k : K) (n : UInt64) :
    (∀ other, counterOf ((view.insert (.counter k) (.counter n)).lookup (.counter other)) =
        Function.update counters k n other) ∧
      ∀ other j, itemOf ((view.insert (.counter k) (.counter n)).lookup (.item other j)) =
        items (other, j) := by
  refine ⟨fun other => ?_, fun other j => ?_⟩
  · by_cases same : other = k
    · cases same
      rw [Finmap.lookup_insert, Function.update_self]
      rfl
    · rw [Finmap.lookup_insert_of_ne _ (by simpa using same), isCounters,
        Function.update_of_ne same]
  · rw [Finmap.lookup_insert_of_ne _ (by simp), isItems]

end View

theorem cached_serves (thread : T) :
    ServesArrays (cachedStore (K := K) (I := I) thread) (CachedShows thread) where
  getItem s counters items k i shows := by
    have answer := (CachedKeyValueAccessor.agrees_of_coherent shows.coherent thread).2 (.item k i)
    have sameBase : (s.get thread (.item k i)).2.base = s.base :=
      CachedKeyValueAccessor.get_base s thread _
    refine ⟨?_, ?_, ?_, ?_, ?_, ?_⟩
    · simp only [cachedStore, answer, read_of_writer shows.writes, shows.items]
    · exact CachedKeyValueAccessor.step_coherent (.get thread _) shows.coherent trivial rfl
    · exact (congrArg (·.bdb.writer) sameBase).trans shows.writes
    · intro other
      by_contra cached
      obtain ⟨v, isCached⟩ := Option.ne_none_iff_exists'.mp cached
      obtain isItem | before := lookup_get isCached
      · cases isItem
      · cases (shows.noCounters other).symm.trans before
    · intro other
      simp only [cachedStore, sameBase, shows.counters]
    · intro other j
      simp only [cachedStore, sameBase, shows.items]
  setItem s counters items k i x shows := by
    have view : (s.set thread (.item k i) (.item x)).base.bdb.backend.view =
        s.base.bdb.backend.view.insert (.item k i) (.item x) :=
          BasicDbAccessor.view_write shows.writes _
    obtain ⟨isCounters, isItems⟩ := view_insert_item shows.counters shows.items k i x
    refine ⟨?_, shows.writes, ?_, fun other => ?_, fun other j => ?_⟩
    · refine CachedKeyValueAccessor.step_coherent (.set thread _ _) shows.coherent
        (fun free => ?_) rfl
      cases shows.writes.symm.trans free
    · intro other
      by_contra cached
      obtain ⟨v, isCached⟩ := Option.ne_none_iff_exists'.mp cached
      simp only [cachedStore, CachedKeyValueAccessor.set, isolatedSet] at isCached
      split at isCached
      · obtain ⟨isItem, -⟩ | ⟨-, before⟩ := CacheBase.lookup_set_of_some isCached
        · cases isItem
        · cases (shows.noCounters other).symm.trans before
      · cases (shows.noCounters other).symm.trans isCached
    · exact (congrArg (fun v => counterOf (v.lookup (.counter other))) view).trans
        (isCounters other)
    · exact (congrArg (fun v => itemOf (v.lookup (.item other j))) view).trans (isItems other j)
  eraseItem s counters items k i shows := by
    have allowed := (BasicKeyValueAccessor.allowed_iff shows.coherent.base).mpr (.inr shows.writes)
    obtain ⟨next, erased⟩ : ∃ next, s.erase thread (.item k i) = some next := by
      rw [← Option.isSome_iff_exists]
      simp [CachedKeyValueAccessor.erase, BasicKeyValueAccessor.erase,
        BasicKeyValueAccessor.invalidateSize, allowed, isolatedErase]
    obtain ⟨descended, cache⟩ := CachedKeyValueAccessor.erase_spec erased
    obtain ⟨-, base⟩ := BasicKeyValueAccessor.invalidateSize_spec descended
    have view : next.base.bdb.backend.view = s.base.bdb.backend.view.erase (.item k i) := by
      rw [base]
      exact BasicDbAccessor.view_write shows.writes _
    obtain ⟨isCounters, isItems⟩ := view_erase_item shows.counters shows.items k i
    refine ⟨next, erased, ?_, ?_, fun other => ?_, fun other => ?_, fun other j => ?_⟩
    · exact CachedKeyValueAccessor.step_coherent (.erase thread _) shows.coherent trivial erased
    · rw [base]
      exact shows.writes
    · rw [cache]
      by_contra cached
      obtain ⟨v, isCached⟩ := Option.ne_none_iff_exists'.mp cached
      cases (shows.noCounters other).symm.trans (CacheBase.lookup_erase_of_some isCached).2
    · rw [view, isCounters]
    · rw [view, isItems]
  getCounter s counters items k shows := by
    simp only [cachedStore, BasicKeyValueAccessor.get, read_of_writer shows.writes, shows.counters]
  setCounter s counters items k n shows := by
    have view : (s.base.explicitSet thread (.counter k) (.counter n)).bdb.backend.view =
        s.base.bdb.backend.view.insert (.counter k) (.counter n) :=
          BasicDbAccessor.view_write shows.writes _
    obtain ⟨isCounters, isItems⟩ := view_insert_counter shows.counters shows.items k n
    refine ⟨?_, shows.writes, shows.noCounters, fun other => ?_, fun other j => ?_⟩
    · refine CachedKeyValueAccessor.step_coherent (.explicitSet thread _ _) shows.coherent
        (fun _ w cached => ?_) rfl
      cases (shows.noCounters k).symm.trans cached
    · exact (congrArg (fun v => counterOf (v.lookup (.counter other))) view).trans
        (isCounters other)
    · exact (congrArg (fun v => itemOf (v.lookup (.item other j))) view).trans (isItems other j)

/-! ## The basic accessor -/

def basicStore (thread : T) :
    ArrayStore (BasicKeyValueAccessor T (ArrayKey K) (ArrayValue I)) K I where
  getItem s k i := (itemOf (s.get thread (.item k i)), s)
  setItem s k i x := s.set thread (.item k i) (.item x)
  eraseItem s k i := s.erase thread (.item k i)
  getCounter s k := counterOf (s.get thread (.counter k))
  setCounter s k n := s.explicitSet thread (.counter k) (.counter n)

structure BasicShows (thread : T) (s : BasicKeyValueAccessor T (ArrayKey K) (ArrayValue I))
    (counters : K → UInt64)
    (items : K × UInt64 → Option I) : Prop where
  coherent : s.Coherent
  writes : s.bdb.writer = some thread
  counters : ∀ k, counterOf (s.bdb.backend.view.lookup (.counter k)) = counters k
  items : ∀ k i, itemOf (s.bdb.backend.view.lookup (.item k i)) = items (k, i)

theorem basic_serves (thread : T) :
    ServesArrays (basicStore (K := K) (I := I) thread) (BasicShows thread) where
  getItem s counters items k i shows := by
    refine ⟨?_, shows⟩
    simp only [basicStore, BasicKeyValueAccessor.get, read_of_writer shows.writes, shows.items]
  setItem s counters items k i x shows := by
    have view : (s.set thread (.item k i) (.item x)).bdb.backend.view =
        s.bdb.backend.view.insert (.item k i) (.item x) := BasicDbAccessor.view_write shows.writes _
    obtain ⟨isCounters, isItems⟩ := view_insert_item shows.counters shows.items k i x
    refine ⟨BasicKeyValueAccessor.coherent_of_write shows.coherent thread _, shows.writes,
      fun other => ?_, fun other j => ?_⟩
    · exact (congrArg (fun v => counterOf (v.lookup (.counter other))) view).trans
        (isCounters other)
    · exact (congrArg (fun v => itemOf (v.lookup (.item other j))) view).trans (isItems other j)
  eraseItem s counters items k i shows := by
    have allowed := (BasicKeyValueAccessor.allowed_iff shows.coherent).mpr (.inr shows.writes)
    obtain ⟨next, erased⟩ : ∃ next, s.erase thread (.item k i) = some next := by
      rw [← Option.isSome_iff_exists]
      simp [BasicKeyValueAccessor.erase, BasicKeyValueAccessor.invalidateSize, allowed]
    obtain ⟨-, isNext⟩ := BasicKeyValueAccessor.invalidateSize_spec erased
    have view : next.bdb.backend.view = s.bdb.backend.view.erase (.item k i) := by
      rw [isNext]
      exact BasicDbAccessor.view_write shows.writes _
    obtain ⟨isCounters, isItems⟩ := view_erase_item shows.counters shows.items k i
    refine ⟨next, erased, ?_, ?_, fun other => ?_, fun other j => ?_⟩
    · rw [isNext]
      exact BasicKeyValueAccessor.coherent_of_write shows.coherent thread _
    · rw [isNext]
      exact shows.writes
    · rw [view, isCounters]
    · rw [view, isItems]
  getCounter s counters items k shows := by
    simp only [basicStore, BasicKeyValueAccessor.get, read_of_writer shows.writes, shows.counters]
  setCounter s counters items k n shows := by
    have view : (s.explicitSet thread (.counter k) (.counter n)).bdb.backend.view =
        s.bdb.backend.view.insert (.counter k) (.counter n) :=
          BasicDbAccessor.view_write shows.writes _
    obtain ⟨isCounters, isItems⟩ := view_insert_counter shows.counters shows.items k n
    refine ⟨BasicKeyValueAccessor.coherent_of_write shows.coherent thread _, shows.writes,
      fun other => ?_, fun other j => ?_⟩
    · exact (congrArg (fun v => counterOf (v.lookup (.counter other))) view).trans
        (isCounters other)
    · exact (congrArg (fun v => itemOf (v.lookup (.item other j))) view).trans (isItems other j)

/-! ## Both arrays as lists -/

/-- From a state that represents lists, inside a write transaction of a thread, the answers are
those of the lists. -/
theorem arrays_as_lists {chunkSize : UInt64} (positive : 0 < chunkSize) (thread : T)
    (m : K → List V) :
    (∀ (s : CachedKeyValueAccessor T (ArrayKey K) (ArrayValue (List V))) ops,
      Represents (CachedShows thread) (chunk chunkSize.toNat) s m →
      Along (chunkedListStep sliceOrNothing) ChunkedHasRoom m ops →
        (answers (ChunkedArrays.step (cachedStore thread) chunkSize) s ops).1 =
            (answers (chunkedListStep sliceOrNothing) m ops).1 ∧
          Represents (CachedShows thread) (chunk chunkSize.toNat)
            (answers (ChunkedArrays.step (cachedStore thread) chunkSize) s ops).2
            (answers (chunkedListStep sliceOrNothing) m ops).2) ∧
    (∀ (s : BasicKeyValueAccessor T (ArrayKey K) (ArrayValue V)) ops,
      Represents (BasicShows thread) BasicArrays.single s m → Along listStep HasRoom m ops →
        (answers (BasicArrays.step (basicStore thread)) s ops).1 = (answers listStep m ops).1 ∧
          Represents (BasicShows thread) BasicArrays.single
            (answers (BasicArrays.step (basicStore thread)) s ops).2
            (answers listStep m ops).2) := by
  have size : 0 < chunkSize.toNat := UInt64.lt_iff_toNat_lt.mp positive
  constructor
  · intro s ops represents along
    exact answers_eq (fun _ _ _ related room =>
      ChunkedArrays.step_eq (cached_serves thread) size related room)
      represents along
  · intro s ops represents along
    exact answers_eq (fun _ _ _ related room =>
      BasicArrays.step_eq (basic_serves thread) related room)
      represents along

/-! ## An empty container -/

omit [DecidableEq T] [DecidableEq K] in
theorem represents_nothing {S I : Type*}
    {Shows : S → (K → UInt64) → (K × UInt64 → Option I) → Prop} {s : S}
    {pieces : List V → Nat → Option I} (shows : Shows s (fun _ => 0) fun _ => none)
    (noPieces : ∀ i, pieces [] i = none) :
    Represents Shows pieces s fun _ : K => ([] : List V) :=
  ⟨_, _, shows, fun _ => rfl, fun _ _ => (noPieces _).symm⟩

theorem cached_opened (thread : T) (maxElements size : Nat) :
    ∃ s : CachedKeyValueAccessor T (ArrayKey K) (ArrayValue (List V)),
      (CachedKeyValueAccessor.openOn T ∅ maxElements).step (.beginTransaction thread false) =
        some s ∧
        Represents (CachedShows thread) (chunk size) s fun _ : K => ([] : List V) := by
  refine ⟨_, rfl, represents_nothing ?_ fun i => chunk_nil⟩
  refine ⟨?_, rfl, fun k => Finmap.lookup_empty _, fun k => ?_, fun k i => ?_⟩
  · exact CachedKeyValueAccessor.step_coherent (.beginTransaction thread false)
      (CachedKeyValueAccessor.coherent_openOn ∅ maxElements) trivial rfl
  · change counterOf ((∅ : Container (ArrayKey K) (ArrayValue (List V))).lookup (.counter k)) = 0
    rw [Finmap.lookup_empty]
    rfl
  · change itemOf ((∅ : Container (ArrayKey K) (ArrayValue (List V))).lookup (.item k i)) = none
    rw [Finmap.lookup_empty]
    rfl

/-- Two items in chunks of one. -/
theorem arrays_as_lists_two :
    ∃ s : CachedKeyValueAccessor Nat (ArrayKey Nat) (ArrayValue (List Nat)),
      (CachedKeyValueAccessor.openOn Nat ∅ 10000).step (.beginTransaction 0 false) = some s ∧
      (answers (ChunkedArrays.step (cachedStore 0) 1) s
        [.array (.pushBackItem 5 7), .array (.pushBackItem 5 8), .getSubitems 5 0 2]).1 =
          [.done, .done, .items [7, 8]] := by
  obtain ⟨s, opened, represents⟩ :=
    cached_opened (T := Nat) (K := Nat) (V := Nat) 0 10000 (1 : UInt64).toNat
  refine ⟨s, opened, ?_⟩
  have same := ((@arrays_as_lists Nat Nat Nat _ _ 1 (by decide) 0 fun _ => []).1 s
    [.array (.pushBackItem 5 7), .array (.pushBackItem 5 8), .getSubitems 5 0 2] represents
    ⟨by simp [ChunkedHasRoom, HasRoom],
      by simp [ChunkedHasRoom, HasRoom, chunkedListStep, listStep], trivial, trivial⟩).1
  rw [same]
  rfl

theorem length_pushed (m : Nat → List Nat) (n : Nat) :
    ((answers (chunkedListStep sliceOrNothing) m (List.replicate n (.array (.pushBackItem 5 7)))).2
      5).length =
      (m 5).length + n := by
  induction n generalizing m with
  | zero => rfl
  | succ n inductionHypothesis =>
      rw [List.replicate_succ, answers, inductionHypothesis]
      simp only [chunkedListStep, listStep, Function.update_self, List.length_append,
        List.length_singleton]
      omega

/-- The number of items that is returned has 64 bits. -/
theorem size_ne (s : CachedKeyValueAccessor Nat (ArrayKey Nat) (ArrayValue (List Nat))) {n : Nat}
    (many : 2 ^ 64 ≤ n) :
    (answers (ChunkedArrays.step (cachedStore 0) 1) s
        (List.replicate n (.array (.pushBackItem 5 7)) ++ [.array (.getItemSize 5)])).1 ≠
      (answers (chunkedListStep sliceOrNothing) (fun _ => [])
        (List.replicate n (.array (.pushBackItem 5 7)) ++ [.array (.getItemSize 5)])).1 := by
  intro same
  rw [answers_append, answers_append] at same
  have last := congrArg List.getLast? same
  simp only [answers, List.getLast?_concat, Option.some.injEq] at last
  generalize (answers (ChunkedArrays.step (cachedStore 0) 1) s
    (List.replicate n (.array (.pushBackItem 5 7)))).2 = after at last
  have size : (ChunkedArrays.getItemSize (cachedStore 0) after 5).toNat =
      ((answers (chunkedListStep sliceOrNothing) (fun _ => [])
        (List.replicate n (.array (.pushBackItem 5 7)))).2 5).length := by
    simpa only [ChunkedArrays.step, chunkedListStep, listStep, KeyedResult.size.injEq] using last
  have small := (ChunkedArrays.getItemSize (cachedStore 0) after 5).toNat_lt
  rw [length_pushed, List.length_nil] at size
  omega

/-- No items from behind the end, and the size of an array that no counter has room for. -/
theorem nothing_behind_the_end :
    (¬∀ (s : CachedKeyValueAccessor Nat (ArrayKey Nat) (ArrayValue (List Nat))) ops,
      Represents (CachedShows 0) (chunk 1) s (fun _ => []) →
        (answers (ChunkedArrays.step (cachedStore 0) 1) s ops).1 =
          (answers (chunkedListStep slice) (fun _ => []) ops).1) ∧
    ¬∀ (s : CachedKeyValueAccessor Nat (ArrayKey Nat) (ArrayValue (List Nat))) ops,
      Represents (CachedShows 0) (chunk 1) s (fun _ => []) →
        (answers (ChunkedArrays.step (cachedStore 0) 1) s ops).1 =
          (answers (chunkedListStep sliceOrNothing) (fun _ => []) ops).1 := by
  obtain ⟨s, -, represents⟩ := cached_opened (T := Nat) (K := Nat) (V := Nat) 0 10000 1
  constructor
  · intro always
    have same := always s [.getSubitems 5 1 0] represents
    cases same
  · intro always
    exact size_ne s (Nat.le_refl (2 ^ 64)) (always s _ represents)

end Zano.Db.KeyToArray
