import Mathlib.Data.List.Basic
import Mathlib.Tactic.Common

/-! # Packing lists into groups of bounded size

Lists are put one after the other into groups of at most `limit` elements. A list that does not fit
into the group that is open is begun in a new group, and whenever the open group is full a new one
is opened.

The elements stay in their order and no group is too large. The only group that can be empty is the
first: it is, when the very first list does not fit into any group.
-/

namespace Packing

variable {α : Type*} {limit : ℕ}

structure Groups (α : Type*) where
  closed : List (List α)
  current : List α

namespace Groups

def start : Groups α := ⟨[], []⟩

def all (g : Groups α) : List (List α) := g.closed ++ [g.current]

def openNew (g : Groups α) : Groups α := ⟨g.closed ++ [g.current], []⟩

def add (limit : ℕ) (g : Groups α) (x : α) : Groups α :=
  let g := if limit ≤ g.current.length then g.openNew else g
  { g with current := g.current ++ [x] }

def addAll (limit : ℕ) (g : Groups α) (xs : List α) : Groups α :=
  xs.foldl (add limit) (if limit < g.current.length + xs.length then g.openNew else g)

end Groups

open Groups

def pack (limit : ℕ) (lists : List (List α)) : List (List α) :=
  (lists.foldl (addAll limit) start).all

/-! ## Nothing is lost -/

@[simp]
theorem flatten_openNew (g : Groups α) : g.openNew.all.flatten = g.all.flatten := by
  simp [openNew, all]

@[simp]
theorem flatten_add (g : Groups α) (x : α) :
    (g.add limit x).all.flatten = g.all.flatten ++ [x] := by
  rw [Groups.add]
  split <;> simp [openNew, all]

theorem flatten_foldl_add (xs : List α) (g : Groups α) :
    (xs.foldl (Groups.add limit) g).all.flatten = g.all.flatten ++ xs := by
  induction xs generalizing g with
  | nil => simp
  | cons x xs inductionHypothesis => simp [inductionHypothesis]

@[simp]
theorem flatten_addAll (g : Groups α) (xs : List α) :
    (g.addAll limit xs).all.flatten = g.all.flatten ++ xs := by
  rw [addAll, flatten_foldl_add]
  split <;> simp

theorem flatten_foldl_addAll (lists : List (List α)) (g : Groups α) :
    (lists.foldl (addAll limit) g).all.flatten = g.all.flatten ++ lists.flatten := by
  induction lists generalizing g with
  | nil => simp
  | cons xs lists inductionHypothesis => simp [inductionHypothesis]

theorem flatten_pack (lists : List (List α)) : (pack limit lists).flatten = lists.flatten := by
  rw [pack, flatten_foldl_addAll]
  simp [start, all]

/-! ## Sizes -/

/-- No group is too large, and those after `before` have elements. -/
structure Filled (limit : ℕ) (before : List (List α)) (g : Groups α) : Prop where
  closed_le : ∀ group ∈ g.closed, group.length ≤ limit
  current_le : g.current.length ≤ limit
  closed : ∃ later, g.closed = before ++ later ∧ ∀ group ∈ later, group ≠ []
  current : g.current ≠ []

variable {before : List (List α)} {g : Groups α}

theorem add_of_nil (positive : 0 < limit) (isNew : g.current = []) (x : α) :
    g.add limit x = ⟨g.closed, [x]⟩ := by
  have room : ¬limit ≤ g.current.length := by
    rw [isNew, List.length_nil]
    omega
  rw [Groups.add, if_neg room, isNew]
  rfl

theorem Filled.openNew_add (positive : 0 < limit) (filled : Filled limit before g) (x : α) :
    Filled limit before (g.openNew.add limit x) := by
  obtain ⟨later, parts, nonempty⟩ := filled.closed
  rw [add_of_nil positive rfl]
  refine ⟨fun group inside => ?_, positive, ⟨later ++ [g.current], ?_, fun group inside => ?_⟩,
    List.cons_ne_nil x []⟩
  · simp only [openNew, List.mem_append, List.mem_singleton] at inside
    cases inside with
    | inl closed => exact filled.closed_le group closed
    | inr isLast => exact isLast ▸ filled.current_le
  · simp [openNew, parts]
  · simp only [List.mem_append, List.mem_singleton] at inside
    cases inside with
    | inl earlier => exact nonempty group earlier
    | inr isLast => exact isLast ▸ filled.current

theorem Filled.add (positive : 0 < limit) (filled : Filled limit before g) (x : α) :
    Filled limit before (g.add limit x) := by
  by_cases full : limit ≤ g.current.length
  · have opened := filled.openNew_add positive x
    rw [add_of_nil positive rfl] at opened
    simpa [Groups.add, full, openNew] using opened
  · have added : g.add limit x = ⟨g.closed, g.current ++ [x]⟩ := by simp [Groups.add, full]
    rw [added]
    refine ⟨filled.closed_le, ?_, filled.closed, by simp⟩
    rw [List.length_append, List.length_singleton]
    omega

theorem Filled.foldl_add (positive : 0 < limit) (filled : Filled limit before g) (xs : List α) :
    Filled limit before (xs.foldl (Groups.add limit) g) := by
  induction xs generalizing g with
  | nil => exact filled
  | cons x xs inductionHypothesis => exact inductionHypothesis (filled.add positive x)

theorem Filled.addAll (positive : 0 < limit) (filled : Filled limit before g) {xs : List α}
    (nonempty : xs ≠ []) :
    Filled limit before (g.addAll limit xs) := by
  cases xs with
  | nil => contradiction
  | cons x xs =>
      rw [Groups.addAll, List.foldl_cons]
      split
      · exact (filled.openNew_add positive x).foldl_add positive xs
      · exact (filled.add positive x).foldl_add positive xs

theorem Filled.foldl_addAll (positive : 0 < limit) {lists : List (List α)}
    (nonempty : ∀ xs ∈ lists, xs ≠ []) (filled : Filled limit before g) :
    Filled limit before (lists.foldl (Groups.addAll limit) g) := by
  induction lists generalizing g with
  | nil => exact filled
  | cons xs lists inductionHypothesis =>
      rw [List.forall_mem_cons] at nonempty
      exact inductionHypothesis nonempty.2 (filled.addAll positive nonempty.1)

/-- The group that is opened in vain, when there is one. -/
def skipped (limit : ℕ) (first : List α) : List (List α) :=
  if limit < first.length then [[]] else []

theorem filled_first (positive : 0 < limit) {first : List α} (nonempty : first ≠ []) :
    Filled limit (skipped limit first) (start.addAll limit first) := by
  cases first with
  | nil => contradiction
  | cons x xs =>
      rw [Groups.addAll, List.foldl_cons, skipped]
      apply Filled.foldl_add positive
      by_cases tooLong : limit < (x :: xs).length
      · rw [if_pos tooLong, if_pos (by simpa [start] using tooLong), add_of_nil positive rfl]
        exact ⟨by simp [openNew, start], positive, ⟨[], by simp [openNew, start], by simp⟩,
          List.cons_ne_nil x []⟩
      · rw [if_neg tooLong, if_neg (by simpa [start] using tooLong), add_of_nil positive rfl]
        exact ⟨by simp [start], positive, ⟨[], by simp [start], by simp⟩, List.cons_ne_nil x []⟩

theorem filled_pack (positive : 0 < limit) {first : List α} {lists : List (List α)}
    (nonempty : ∀ xs ∈ first :: lists, xs ≠ []) :
    Filled limit (skipped limit first) ((first :: lists).foldl (addAll limit) start) := by
  rw [List.forall_mem_cons] at nonempty
  rw [List.foldl_cons]
  exact (filled_first positive nonempty.1).foldl_addAll positive nonempty.2

theorem length_le_of_mem_pack (positive : 0 < limit) {lists : List (List α)}
    (nonempty : ∀ xs ∈ lists, xs ≠ []) {group : List α} (inside : group ∈ pack limit lists) :
    group.length ≤ limit := by
  cases lists with
  | nil =>
      simp only [pack, List.foldl_nil, start, all, List.nil_append, List.mem_singleton] at inside
      simp [inside]
  | cons first lists =>
      have filled := filled_pack positive nonempty
      rw [pack, all, List.mem_append, List.mem_singleton] at inside
      cases inside with
      | inl closed => exact filled.closed_le group closed
      | inr isLast => exact isLast ▸ filled.current_le

/-- All groups but the skipped one have elements. -/
theorem pack_eq (positive : 0 < limit) {first : List α} {lists : List (List α)}
    (nonempty : ∀ xs ∈ first :: lists, xs ≠ []) :
    ∃ filled, pack limit (first :: lists) = skipped limit first ++ filled ∧
      ∀ group ∈ filled, group ≠ [] := by
  have filled := filled_pack positive nonempty
  obtain ⟨later, parts, someElements⟩ := filled.closed
  refine ⟨later ++ [((first :: lists).foldl (addAll limit) start).current], ?_,
    fun group inside => ?_⟩
  · rw [pack, all, parts, List.append_assoc]
  · rw [List.mem_append, List.mem_singleton] at inside
    cases inside with
    | inl earlier => exact someElements group earlier
    | inr isLast => exact isLast ▸ filled.current

end Packing
