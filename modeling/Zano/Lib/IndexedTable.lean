import Mathlib

/-! # Tables that number their rows

A table gives a new row the number after that of its last row. Rows are removed from anywhere, and a
number is given out again as soon as no row from it on is left. Rows stand in the order of their
numbers.

Everything is stated about `find?`, the row of a number. A number is below `next` when a row has it,
and `next` is the least such bound.
-/

structure IndexedTable (T : Type*) where
  rows : List (ℕ × T)
  ascending : rows.Pairwise fun row later => row.1 < later.1

namespace IndexedTable

variable {T : Type*}

def empty : IndexedTable T := ⟨[], List.Pairwise.nil⟩

def find? (t : IndexedTable T) (i : ℕ) : Option T :=
  (t.rows.find? fun row => row.1 == i).map Prod.snd

def next (t : IndexedTable T) : ℕ :=
  match t.rows.getLast? with
  | none => 0
  | some row => row.1 + 1

theorem lt_next_of_mem (t : IndexedTable T) {row : ℕ × T}
    (inside : row ∈ t.rows) : row.1 < t.next := by
  rw [next]
  cases last : t.rows.getLast? with
  | none =>
      rw [List.getLast?_eq_none_iff] at last
      simp [last] at inside
  | some greatest =>
      obtain ⟨before, parts⟩ := List.getLast?_eq_some_iff.mp last
      have ascending := t.ascending
      rw [parts, List.pairwise_append] at ascending
      rw [parts, List.mem_append, List.mem_singleton] at inside
      cases inside with
      | inl earlier => have := ascending.2.2 row earlier greatest (List.mem_singleton_self _); grind
      | inr same => rw [same]; grind

def push (t : IndexedTable T) (x : T) : IndexedTable T where
  rows := t.rows ++ [(t.next, x)]
  ascending := by
    apply List.pairwise_append.mpr
    refine ⟨t.ascending, List.pairwise_singleton _ _, ?_⟩
    intro row inside last isLast
    rw [List.mem_singleton.mp isLast]
    exact t.lt_next_of_mem inside

def map (t : IndexedTable T) (f : ℕ → T → T) : IndexedTable T where
  rows := t.rows.map fun row => (row.1, f row.1 row.2)
  ascending := List.pairwise_map.mpr t.ascending

def modify (t : IndexedTable T) (i : ℕ) (f : T → T) : IndexedTable T :=
  t.map fun j x => if j = i then f x else x

def filter (t : IndexedTable T) (p : ℕ → T → Bool) : IndexedTable T where
  rows := t.rows.filter fun row => p row.1 row.2
  ascending := t.ascending.filter _

/-- The rows before the first one that `p` does not hold of. -/
def takeWhile (t : IndexedTable T) (p : T → Bool) : IndexedTable T where
  rows := t.rows.takeWhile fun row => p row.2
  ascending := t.ascending.sublist (List.takeWhile_sublist _)

/-- The rows that `takeWhile` leaves out. -/
def dropWhile (t : IndexedTable T) (p : T → Bool) : List (ℕ × T) :=
  t.rows.dropWhile fun row => p row.2

/-! ## The row of a number -/

variable {t : IndexedTable T} {i j : ℕ} {x : T}

theorem find?_eq_some : t.find? i = some x ↔ (i, x) ∈ t.rows := by
  obtain ⟨rows, ascending⟩ := t
  rw [find?]
  induction rows with
  | nil => simp
  | cons row rows inductionHypothesis =>
      obtain ⟨above, ascending⟩ := List.pairwise_cons.mp ascending
      by_cases here : row.1 = i
      · have absent : (i, x) ∉ rows := fun inside => by have := above _ inside; grind
        simp only [List.find?_cons, here, BEq.rfl, Option.map_some, Option.some.injEq,
          List.mem_cons, absent, or_false]
        exact ⟨fun same => Prod.ext here.symm same.symm, fun same => by rw [← same]⟩
      · have different : (row.1 == i) = false := by simpa using here
        simp only [List.find?_cons, different, inductionHypothesis ascending, List.mem_cons]
        exact ⟨Or.inr, fun inside => inside.resolve_left fun same => here (by rw [← same])⟩

theorem lt_next (found : t.find? i = some x) : i < t.next :=
  t.lt_next_of_mem (find?_eq_some.mp found)

theorem find?_eq_none_of_next_le (above : t.next ≤ i) : t.find? i = none := by
  cases found : t.find? i with
  | none => rfl
  | some x => have := lt_next found; omega

@[simp]
theorem find?_empty : (empty : IndexedTable T).find? i = none := rfl

@[simp]
theorem next_empty : (empty : IndexedTable T).next = 0 := rfl

theorem find?_push : (t.push x).find? i = if i = t.next then some x else t.find? i := by
  apply Option.ext
  intro y
  rw [find?_eq_some, push, List.mem_append, List.mem_singleton, ← find?_eq_some]
  by_cases new : i = t.next
  · simp [new, find?_eq_none_of_next_le, eq_comm]
  · simp [new]

theorem find?_push_of_found (found : t.find? i = some x) (y : T) : (t.push y).find? i = some x := by
  have := lt_next found
  rw [find?_push, if_neg (by omega), found]

@[simp]
theorem next_push : (t.push x).next = t.next + 1 := by
  simp [next, push]

@[simp]
theorem find?_map {f : ℕ → T → T} : (t.map f).find? i = (t.find? i).map (f i) := by
  rw [find?, find?, map, List.find?_map, Option.map_map, Option.map_map]
  cases found : t.rows.find? fun row => row.1 == i with
  | none => simp [Function.comp_def, found]
  | some row =>
      have here := List.find?_some found
      simp_all [Function.comp_def]

@[simp]
theorem next_map {f : ℕ → T → T} : (t.map f).next = t.next := by
  rw [next, next, map, List.getLast?_map]
  cases t.rows.getLast? <;> rfl

@[simp]
theorem next_modify {f : T → T} : (t.modify i f).next = t.next := next_map

theorem find?_filter_eq_some {p : ℕ → T → Bool} :
    (t.filter p).find? i = some x ↔ t.find? i = some x ∧ p i x = true := by
  rw [find?_eq_some, find?_eq_some, filter, List.mem_filter]

theorem find?_takeWhile_of_found {p : T → Bool}
    (found : (t.takeWhile p).find? i = some x) : t.find? i = some x :=
  find?_eq_some.mpr ((List.takeWhile_sublist _).subset (find?_eq_some.mp found))

theorem find?_of_mem_dropWhile {p : T → Bool}
    (inside : (i, x) ∈ t.dropWhile p) : t.find? i = some x :=
  find?_eq_some.mpr ((List.dropWhile_sublist _).subset inside)

/-- A row is either kept or left out. -/
theorem find?_cases {p : T → Bool} (found : t.find? i = some x) :
    (t.takeWhile p).find? i = some x ∨ (i, x) ∈ t.dropWhile p := by
  rw [find?_eq_some] at found ⊢
  rw [← List.takeWhile_append_dropWhile (p := fun row => p row.2) (l := t.rows),
    List.mem_append] at found
  exact found

/-! ## The next number -/

theorem next_le_of_forall {bound : ℕ}
    (below : ∀ i x, t.find? i = some x → i < bound) : t.next ≤ bound := by
  rw [next]
  cases last : t.rows.getLast? with
  | none => exact Nat.zero_le _
  | some row => exact below row.1 row.2 (find?_eq_some.mpr (List.mem_of_getLast? last))

theorem next_le_of_found {u : IndexedTable T}
    (kept : ∀ i x, t.find? i = some x → ∃ y, u.find? i = some y) :
    t.next ≤ u.next := by
  apply next_le_of_forall
  intro i x found
  obtain ⟨y, found⟩ := kept i x found
  exact lt_next found

end IndexedTable
