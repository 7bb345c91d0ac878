import Mathlib

/-! # Secondary indexes

A table holds values under ids, and every value has keys. An index that is `Exact` answers for a key
the ids of the values that have it. A set of keys that `Covers` the table holds the keys of all
values without the ids; it can be kept up when values are inserted, but when a value leaves it
cannot be told whether another one has the same key. The lemmas say when the two stay right, as
equivalences.
-/

namespace SecondaryIndex

variable {I V K : Type*}

def Exact (table : I → Option V) (keys : V → Set K) (index : K → Set I) : Prop :=
  ∀ k i, i ∈ index k ↔ ∃ v, table i = some v ∧ k ∈ keys v

def Covers (table : I → Option V) (keys : V → Set K) (taken : Set K) : Prop :=
  ∀ k, k ∈ taken ↔ ∃ i v, table i = some v ∧ k ∈ keys v

/-- The ids in `removed` are gone from the table, the others are as before. -/
def Removes (table table' : I → Option V) (removed : Set I) : Prop :=
  (∀ i ∈ removed, table' i = none) ∧ ∀ i ∉ removed, table' i = table i

variable {table table' : I → Option V} {keys : V → Set K} {index index' : K → Set I}
  {taken taken' : Set K} {removed : Set I}

/-- An insertion may put a value in the place of one whose keys are all kept. -/
theorem exact_insert_iff [DecidableEq I] {i : I} {v : V} (exact_ : Exact table keys index)
    (inserts : ∀ k j, j ∈ index' k ↔ (j = i ∧ k ∈ keys v) ∨ j ∈ index k) :
    Exact (Function.update table i (some v)) keys index' ↔
      ∀ old, table i = some old → keys old ⊆ keys v := by
  constructor
  · intro exact' old wasThere k has
    obtain ⟨w, isThere, hasNow⟩ :=
      (exact' k i).mp ((inserts k i).mpr (.inr ((exact_ k i).mpr ⟨old, wasThere, has⟩)))
    rw [Function.update_self] at isThere
    cases isThere
    exact hasNow
  · intro kept k j
    rw [inserts, exact_ k j]
    by_cases same : j = i
    · subst same
      rw [Function.update_self]
      constructor
      · rintro (⟨-, has⟩ | ⟨old, wasThere, has⟩)
        · exact ⟨v, rfl, has⟩
        · exact ⟨v, rfl, kept old wasThere has⟩
      · rintro ⟨w, isThere, has⟩
        cases isThere
        exact .inl ⟨rfl, has⟩
    · rw [Function.update_of_ne same]
      simp [same]

theorem covers_insert_iff [DecidableEq I] {i : I} {v : V} (covers : Covers table keys taken)
    (inserts : ∀ k, k ∈ taken' ↔ k ∈ keys v ∨ k ∈ taken) :
    Covers (Function.update table i (some v)) keys taken' ↔
      ∀ old, table i = some old →
        ∀ k ∈ keys old, k ∈ keys v ∨ ∃ j, j ≠ i ∧ ∃ w, table j = some w ∧ k ∈ keys w := by
  constructor
  · intro covers' old wasThere k has
    obtain ⟨j, w, isThere, hasNow⟩ :=
      (covers' k).mp ((inserts k).mpr (.inr ((covers k).mpr ⟨i, old, wasThere, has⟩)))
    by_cases same : j = i
    · subst same
      rw [Function.update_self] at isThere
      cases isThere
      exact .inl hasNow
    · rw [Function.update_of_ne same] at isThere
      exact .inr ⟨j, same, w, isThere, hasNow⟩
  · intro kept k
    rw [inserts, covers k]
    constructor
    · rintro (has | ⟨j, w, wasThere, has⟩)
      · exact ⟨i, v, by rw [Function.update_self], has⟩
      · by_cases same : j = i
        · subst same
          rcases kept w wasThere k has with hasNow | ⟨j', different, w', isThere, has'⟩
          · exact ⟨j, v, by rw [Function.update_self], hasNow⟩
          · exact ⟨j', w', by rw [Function.update_of_ne different, isThere], has'⟩
        · exact ⟨j, w, by rw [Function.update_of_ne same, wasThere], has⟩
    · rintro ⟨j, w, isThere, has⟩
      by_cases same : j = i
      · subst same
        rw [Function.update_self] at isThere
        cases isThere
        exact .inl has
      · rw [Function.update_of_ne same] at isThere
        exact .inr ⟨j, w, isThere, has⟩

/-- A removal keeps the index exact if it takes each removed id away from all keys of its value;
`cleared` are the keys that it is taken away from. -/
theorem exact_remove_iff {cleared : I → Set K} (exact_ : Exact table keys index)
    (removes : Removes table table' removed)
    (clears : ∀ k i, i ∈ index' k ↔ i ∈ index k ∧ ¬(i ∈ removed ∧ k ∈ cleared i)) :
    Exact table' keys index' ↔ ∀ i ∈ removed, ∀ v, table i = some v → keys v ⊆ cleared i := by
  constructor
  · intro exact' i gone v wasThere k has
    by_contra stays
    obtain ⟨w, isThere, -⟩ := (exact' k i).mp
      ((clears k i).mpr ⟨(exact_ k i).mpr ⟨v, wasThere, has⟩, fun isCleared => stays isCleared.2⟩)
    rw [removes.1 i gone] at isThere
    cases isThere
  · intro all k i
    rw [clears, exact_ k i]
    by_cases gone : i ∈ removed
    · rw [removes.1 i gone]
      constructor
      · rintro ⟨⟨v, wasThere, has⟩, stays⟩
        exact absurd ⟨gone, all i gone v wasThere has⟩ stays
      · rintro ⟨v, isThere, -⟩
        cases isThere
    · rw [removes.2 i gone]
      simp [gone]

/-- A removal that takes the keys of the removed values away keeps the set right if no value that
stays has one of them. -/
theorem covers_remove_iff (covers : Covers table keys taken)
    (removes : Removes table table' removed)
    (clears : ∀ k, k ∈ taken' ↔ k ∈ taken ∧ ¬∃ i ∈ removed, ∃ v, table i = some v ∧ k ∈ keys v) :
    Covers table' keys taken' ↔
      ∀ i ∈ removed, ∀ v, table i = some v → ∀ j ∉ removed, ∀ w, table j = some w →
      Disjoint (keys v) (keys w) := by
  constructor
  · intro covers' i gone v wasThere j stays w isThere
    rw [Set.disjoint_left]
    intro k has hasToo
    have isTaken := (covers' k).mpr ⟨j, w, by rw [removes.2 j stays, isThere], hasToo⟩
    exact ((clears k).mp isTaken).2 ⟨i, gone, v, wasThere, has⟩
  · intro disjoint k
    rw [clears, covers k]
    constructor
    · rintro ⟨⟨i, v, wasThere, has⟩, notCleared⟩
      have stays : i ∉ removed := fun gone => notCleared ⟨i, gone, v, wasThere, has⟩
      exact ⟨i, v, by rw [removes.2 i stays, wasThere], has⟩
    · rintro ⟨j, w, isThere, has⟩
      have stays : j ∉ removed := by
        intro gone
        rw [removes.1 j gone] at isThere
        cases isThere
      rw [removes.2 j stays] at isThere
      refine ⟨⟨j, w, isThere, has⟩, ?_⟩
      rintro ⟨i, gone, v, wasThere, hasToo⟩
      exact Set.disjoint_left.mp (disjoint i gone v wasThere j stays w isThere) hasToo has

/-- A set that is left as it is while the table is emptied. -/
theorem covers_empty_iff (covers : Covers table keys taken) :
    Covers (fun _ : I => (none : Option V)) keys taken ↔ ∀ i v, table i = some v → keys v = ∅ := by
  constructor
  · intro covers' i v isThere
    rw [Set.eq_empty_iff_forall_notMem]
    intro k has
    obtain ⟨_, _, gone, _⟩ := (covers' k).mp ((covers k).mpr ⟨i, v, isThere, has⟩)
    cases gone
  · intro keyless k
    rw [covers k]
    constructor
    · rintro ⟨i, v, isThere, has⟩
      rw [keyless i v isThere] at has
      cases has
    · rintro ⟨_, _, gone, _⟩
      cases gone

end SecondaryIndex
