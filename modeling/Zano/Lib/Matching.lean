import Mathlib.Data.List.Forall2
import Mathlib.Data.List.NodupEquivFin
import Mathlib.Data.List.FinRange

/-! # Stamps in the order of their owners

A list of owners and a list of stamps. A scan that takes every owner once and never goes back finds
an owner for each stamp in this order whenever there is a way to do so. Where every owner has a
place of its own, the places that are filled, in any order, are such a list of stamps.
-/

namespace Zano.Lib

variable {α β : Type*}

/-- One pass over the owners. An owner that did not make the stamp is not asked again. -/
def matchInOrder (made : α → β → Bool) : List α → List β → Bool
  | _, [] => true
  | [], _ :: _ => false
  | owner :: owners, stamp :: stamps =>
      if made owner stamp then matchInOrder made owners stamps
      else matchInOrder made owners (stamp :: stamps)

theorem sublistForall₂_tail {R : β → α → Prop} {stamp : β} {stamps : List β} {owners : List α}
    (fits : List.SublistForall₂ R (stamp :: stamps) owners) :
    List.SublistForall₂ R stamps owners := by
  obtain ⟨chosen, each, sublist⟩ := List.sublistForall₂_iff.mp fits
  cases each with
  | cons first rest =>
      exact List.sublistForall₂_iff.mpr ⟨_, rest, (List.sublist_cons_self _ _).trans sublist⟩

/-- Taking the first owner that fits loses nothing. -/
theorem matchInOrder_iff {made : α → β → Bool} {owners : List α} {stamps : List β} :
    matchInOrder made owners stamps = true ↔
      List.SublistForall₂ (fun stamp owner => made owner stamp) stamps owners := by
  induction owners generalizing stamps with
  | nil =>
      cases stamps with
      | nil => exact iff_of_true rfl .nil
      | cons stamp stamps => exact iff_of_false Bool.false_ne_true nofun
  | cons owner owners inductionHypothesis =>
      cases stamps with
      | nil => exact iff_of_true rfl .nil
      | cons stamp stamps =>
          rw [matchInOrder]
          split
          next fits =>
            rw [inductionHypothesis]
            constructor
            · exact fun rest => .cons fits rest
            · intro whole
              cases whole with
              | cons _ rest => exact rest
              | cons_right later => exact sublistForall₂_tail later
          next misfit =>
            rw [inductionHypothesis]
            constructor
            · exact fun later => .cons_right later
            · intro whole
              cases whole with
              | cons fits _ => exact absurd fits misfit
              | cons_right later => exact later

/-- The same told by positions. -/
theorem sublistForall₂_iff_strictMono {R : β → α → Prop} {stamps : List β} {owners : List α} :
    List.SublistForall₂ R stamps owners ↔ ∃ position : Fin stamps.length → Fin owners.length,
      StrictMono position ∧ ∀ i, R stamps[i] owners[position i] := by
  rw [List.sublistForall₂_iff]
  constructor
  · rintro ⟨chosen, each, sublist⟩
    obtain ⟨sameLength, related⟩ := List.forall₂_iff_get.mp each
    obtain ⟨embedding, isChosen⟩ := List.sublist_iff_exists_fin_orderEmbedding_get_eq.mp sublist
    refine ⟨fun i => embedding (i.cast sameLength), fun i j less => embedding.strictMono less,
      fun i => ?_⟩
    have fits := related i i.isLt (sameLength ▸ i.isLt)
    have there := isChosen (i.cast sameLength)
    simp only [List.get_eq_getElem] at fits there
    exact there ▸ fits
  · rintro ⟨position, increasing, related⟩
    refine ⟨(List.finRange stamps.length).map fun i => owners[position i], ?_, ?_⟩
    · rw [List.forall₂_iff_get]
      refine ⟨by simp, fun i inside _ => ?_⟩
      simpa using related ⟨i, inside⟩
    · refine List.sublist_iff_exists_fin_orderEmbedding_get_eq.mpr
        ⟨OrderEmbedding.ofStrictMono (fun i => position (i.cast (by simp))) fun i j less =>
          increasing less, fun i => ?_⟩
      simp only [List.get_eq_getElem, List.getElem_map, List.getElem_finRange]
      rfl

/-! ## Places -/

section Places

variable [DecidableEq α] [DecidableEq β] {blank : β} {made : β → α → Prop} {owners done : List α}
  {places : List β}

/-- Every place is free or holds a stamp of its owner, and nobody but those who came
has filled a place. -/
structure PartlyFilled (blank : β) (made : β → α → Prop) (owners done : List α)
    (places : List β) : Prop where
  each : List.Forall₂ (fun place owner => place = blank ∨ made place owner) places owners
  count : places.countP (· ≠ blank) = done.length
  free : ∀ owner ∈ owners, owner ∉ done → places[owners.idxOf owner]? = some blank

theorem partlyFilled_replicate :
    PartlyFilled blank made owners [] (List.replicate owners.length blank) where
  each := by
    rw [List.forall₂_iff_get]
    exact ⟨List.length_replicate, fun i _ _ => .inl (by simp)⟩
  count := by simp [List.countP_replicate]
  free := by
    intro owner inside _
    simp [List.idxOf_lt_length_iff.mpr inside]

theorem PartlyFilled.length (filled : PartlyFilled blank made owners done places) :
    places.length = owners.length :=
  filled.each.length_eq

theorem countP_set_of_blank {i : ℕ} {stamp : β} (there : places[i]? = some blank)
    (notBlank : stamp ≠ blank) :
    (places.set i stamp).countP (· ≠ blank) = places.countP (· ≠ blank) + 1 := by
  obtain ⟨inside, isBlank⟩ := List.getElem?_eq_some_iff.mp there
  rw [List.countP_set inside]
  simp [isBlank, notBlank]

/-- Two owners have two places. -/
theorem idxOf_ne {owner other : α} (inside : owner ∈ owners) (different : owner ≠ other) :
    owners.idxOf owner ≠ owners.idxOf other := by
  intro same
  have there := List.getElem?_idxOf inside
  by_cases otherInside : other ∈ owners
  · rw [same, List.getElem?_idxOf otherInside] at there
    exact different (Option.some.inj there).symm
  · rw [same, List.idxOf_eq_length otherInside] at there
    simp at there

/-- One more owner comes. -/
theorem PartlyFilled.set {owner : α} {stamp : β}
    (filled : PartlyFilled blank made owners done places) (inside : owner ∈ owners)
    (isNew : owner ∉ done) (notBlank : stamp ≠ blank) (own : made stamp owner) :
    PartlyFilled blank made owners (owner :: done) (places.set (owners.idxOf owner) stamp) where
  each := by
    have place := List.idxOf_lt_length_iff.mpr inside
    rw [List.forall₂_iff_get]
    refine ⟨by rw [List.length_set, filled.length], fun i there ownersThere => ?_⟩
    rw [List.get_eq_getElem, List.getElem_set]
    split
    next same =>
      subst same
      right
      simpa using own
    next => exact (List.forall₂_iff_get.mp filled.each).2 i (by simpa using there) ownersThere
  count := by
    rw [countP_set_of_blank (filled.free owner inside isNew) notBlank, filled.count,
      List.length_cons]
  free := by
    intro other otherInside isOther
    rw [List.mem_cons, not_or] at isOther
    obtain ⟨different, stillNew⟩ := isOther
    rw [List.getElem?_set_ne (idxOf_ne inside (Ne.symm different))]
    exact filled.free other otherInside stillNew

/-- What is left when the free places are removed. -/
theorem PartlyFilled.filter (filled : PartlyFilled blank made owners done places) :
    List.SublistForall₂ made (places.filter (· ≠ blank)) owners := by
  have each := filled.each
  clear filled
  induction each with
  | nil => exact .nil
  | cons first _ inductionHypothesis =>
      rw [List.filter_cons]
      split
      next notBlank =>
        exact .cons (first.resolve_left (of_decide_eq_true notBlank)) inductionHypothesis
      next => exact .cons_right inductionHypothesis

end Places

end Zano.Lib
