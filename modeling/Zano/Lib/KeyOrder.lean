import Mathlib.Data.List.InsertIdx
import Mathlib.Data.List.Sort
import Mathlib.Order.Basic

/-! # Lists in ascending order of a key

A list whose elements have different keys becomes ascending when it is sorted, and stays so when
another key is put before the first one that is not less.
-/

namespace KeyOrder

variable {α κ : Type*} [LinearOrder κ] {key : α → κ}

def Ascending (key : α → κ) (l : List α) : Prop := l.Pairwise fun a b => key a < key b

theorem ascending_insertionSort {l : List α} (distinct : (l.map key).Nodup) {r : α → α → Prop}
    [DecidableRel r] (isLe : ∀ a b, r a b ↔ key a ≤ key b) : Ascending key (l.insertionSort r) := by
  have total : Std.Total r := ⟨fun a b => by
    rw [isLe, isLe]
    exact le_total (key a) (key b)⟩
  have transitive : IsTrans α r := ⟨fun a b c first second =>
    (isLe a c).mpr (((isLe a b).mp first).trans ((isLe b c).mp second))⟩
  have sorted := List.pairwise_insertionSort r l
  have different : (l.insertionSort r).Pairwise fun a b => key a ≠ key b := by
    rw [← List.pairwise_map (f := key)]
    exact ((List.perm_insertionSort r l).map key).nodup_iff.mpr distinct
  refine (sorted.and different).imp fun {a b} ⟨notAfter, notSame⟩ => ?_
  exact lt_of_le_of_ne ((isLe a b).mp notAfter) notSame

/-- A key is in one place only. -/
theorem Ascending.index_eq {l : List α} (ascending : Ascending key l) {i j : ℕ} {a b : α}
    (isFirst : l[i]? = some a) (isSecond : l[j]? = some b) (same : key a = key b) : i = j := by
  obtain ⟨firstInside, rfl⟩ := List.getElem?_eq_some_iff.mp isFirst
  obtain ⟨secondInside, rfl⟩ := List.getElem?_eq_some_iff.mp isSecond
  have ordered := List.pairwise_iff_getElem.mp ascending
  obtain less | equal | more := Nat.lt_trichotomy i j
  · exact absurd same (ne_of_lt (ordered i j firstInside secondInside less))
  · exact equal
  · exact absurd same (ne_of_gt (ordered j i secondInside firstInside more))

/-- Where another element is put in. -/
theorem Ascending.insertIdx {l : List α} (ascending : Ascending key l) {a : α}
    (fresh : ∀ b ∈ l, key b ≠ key a) (notBefore : α → Bool)
    (isNotBefore : ∀ b ∈ l, notBefore b = true ↔ key a ≤ key b) :
    Ascending key (l.insertIdx (l.findIdx notBefore) a) := by
  induction l with
  | nil => exact List.pairwise_singleton _ a
  | cons b rest inductionHypothesis =>
      obtain ⟨first, later⟩ := List.pairwise_cons.mp ascending
      rw [List.findIdx_cons]
      by_cases isFirst : key a ≤ key b
      · have less : key a < key b := lt_of_le_of_ne isFirst (fresh b List.mem_cons_self).symm
        rw [(isNotBefore b List.mem_cons_self).mpr isFirst, cond_true, List.insertIdx_zero]
        refine List.pairwise_cons.mpr ⟨fun c isMember => ?_, ascending⟩
        obtain rfl | isLater := List.mem_cons.mp isMember
        · exact less
        · exact less.trans (first c isLater)
      · have isBefore : notBefore b = false := 
          Bool.eq_false_iff.mpr fun isTrue => isFirst ((isNotBefore b List.mem_cons_self).mp isTrue)
        rw [isBefore, cond_false, List.insertIdx_succ_cons]
        have later :=
          inductionHypothesis later (fun c isLater => fresh c (List.mem_cons_of_mem b isLater))
          fun c isLater => isNotBefore c (List.mem_cons_of_mem b isLater)
        refine List.pairwise_cons.mpr ⟨fun c isMember => ?_, later⟩
        obtain rfl | isLater := List.eq_or_mem_of_mem_insertIdx isMember
        · exact lt_of_not_ge isFirst
        · exact first c isLater

theorem getElem?_insertIdx_findIdx (l : List α) (a : α) (p : α → Bool) :
    (l.insertIdx (l.findIdx p) a)[l.findIdx p]? = some a := by
  rw [List.getElem?_insertIdx_self, if_pos List.findIdx_le_length]

theorem length_insertIdx_findIdx (l : List α) (a : α) (p : α → Bool) :
    (l.insertIdx (l.findIdx p) a).length = l.length + 1 :=
  List.length_insertIdx_of_le_length List.findIdx_le_length a

end KeyOrder
