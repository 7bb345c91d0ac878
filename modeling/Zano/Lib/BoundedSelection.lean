import Mathlib

/-! # Selecting with a bounded list

The elements of a list are put, one after the other, into a list that is ordered by a key, and
whenever it has grown beyond a bound its last element is dropped. What an element is dropped for
does not matter: cutting after each insertion or once at the end gives the same list. So the list
that is left is a least part of what was put in, with ties taken in the order of the input.
-/

namespace Zano.BoundedSelection

variable {α κ : Type*} [LinearOrder κ] (key : α → κ)

/-- Behind the elements whose keys are not above its own. -/
def insertLate (e : α) (l : List α) : List α := l.orderedInsert (fun a b => key a < key b) e

def keepLeast (count : ℕ) (l : List α) (e : α) : List α := (insertLate key e l).take count

theorem insertLate_eq (e : α) (l : List α) :
    insertLate key e l = l.takeWhile (fun o => key o ≤ key e) ++ e :: l.dropWhile fun o =>
      key o ≤ key e := by
  simpa only [insertLate, not_lt] using
    List.orderedInsert_eq_take_drop (fun a b => key a < key b) e l

theorem insertLate_perm (e : α) (l : List α) : (insertLate key e l).Perm (e :: l) :=
  List.perm_orderedInsert _ e l

theorem insertLate_ordered (e : α) {l : List α} (ordered : l.Pairwise fun a b => key a ≤ key b) :
    (insertLate key e l).Pairwise fun a b => key a ≤ key b := by
  induction l with
  | nil => simp [insertLate]
  | cons o rest inductionHypothesis =>
      obtain ⟨least, restOrdered⟩ := List.pairwise_cons.mp ordered
      simp only [insertLate, List.orderedInsert_cons]
      split
      next before =>
        apply List.Pairwise.cons _ ordered
        intro other inside
        rcases List.mem_cons.mp inside with rfl | inside
        · exact before.le
        · exact before.le.trans (least other inside)
      next notBefore =>
        apply List.Pairwise.cons _ (inductionHypothesis restOrdered)
        intro other inside
        rcases List.mem_cons.mp ((insertLate_perm key e rest).subset inside) with rfl | inside
        · exact not_lt.mp notBefore
        · exact least other inside

/-- What is cut off before an insertion is cut off after it as well. -/
theorem take_insertLate_take (count : ℕ) (e : α) (l : List α) :
    (insertLate key e (l.take count)).take count = (insertLate key e l).take count := by
  induction l generalizing count with
  | nil => simp
  | cons o rest inductionHypothesis =>
      cases count with
      | zero => simp
      | succ count =>
          simp only [insertLate, List.take_succ_cons, List.orderedInsert_cons]
          split
          · cases count with
            | zero => simp
            | succ count => simp [List.take_take]
          · simpa only [insertLate, List.take_succ_cons, List.cons.injEq, true_and] using
              inductionHypothesis count

theorem foldl_keepLeast (count : ℕ) (seen l : List α) :
    seen.foldl (keepLeast key count) (l.take count) =
      (seen.foldl (fun l e => insertLate key e l) l).take count := by
  induction seen generalizing l with
  | nil => rfl
  | cons e seen inductionHypothesis =>
      rw [List.foldl_cons, List.foldl_cons, keepLeast, take_insertLate_take]
      exact inductionHypothesis _

theorem foldl_insertLate_ordered (seen : List α) {l : List α}
    (ordered : l.Pairwise fun a b => key a ≤ key b) :
    (seen.foldl (fun l e => insertLate key e l) l).Pairwise fun a b => key a ≤ key b := by
  induction seen generalizing l with
  | nil => exact ordered
  | cons e seen inductionHypothesis => exact inductionHypothesis (insertLate_ordered key e ordered)

theorem foldl_insertLate_perm (seen l : List α) :
    (seen.foldl (fun l e => insertLate key e l) l).Perm (seen ++ l) := by
  induction seen generalizing l with
  | nil => rfl
  | cons e seen inductionHypothesis =>
      have inserted : (seen ++ insertLate key e l).Perm (seen ++ e :: l) :=
        (insertLate_perm key e l).append_left seen
      exact (inductionHypothesis _).trans (inserted.trans List.perm_middle)

/-- The list at the end, and all that was dropped on the way. -/
theorem exists_dropped (count : ℕ) (seen : List α) :
    ∃ dropped, (seen.foldl (keepLeast key count) [] ++ dropped).Perm seen ∧
      (seen.foldl (keepLeast key count) []).length = min count seen.length ∧
      ∀ kept ∈ seen.foldl (keepLeast key count) [], ∀ other ∈ dropped, key kept ≤ key other := by
  have cut := foldl_keepLeast key count seen []
  have all := foldl_insertLate_perm key seen []
  have ordered := foldl_insertLate_ordered key seen List.Pairwise.nil
  rw [List.take_nil] at cut
  rw [List.append_nil] at all
  generalize seen.foldl (fun l e => insertLate key e l) [] = sorted at cut all ordered
  rw [cut]
  refine ⟨sorted.drop count, ?_, ?_, ?_⟩
  · rwa [List.take_append_drop]
  · rw [List.length_take, all.length_eq]
  · rw [← List.take_append_drop count sorted] at ordered
    exact (List.pairwise_append.mp ordered).2.2

end Zano.BoundedSelection
