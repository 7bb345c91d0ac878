import Mathlib

/-! # Steps that may fail on the way

A step answers whether it succeeded and leaves a state in either case. A list of items is gone
through until a step fails; what the steps before it did, and what the failed step left, stays.

When some items concern one part of the state and the others another, each part sees its own items
only. If no item of the first part fails, the second part and the answer are those of the second
part alone.
-/

namespace Attempts

variable {S T I : Type*}

def untilFailure (step : S → I → Bool × S) : List I → S → Bool × S
  | [], s => (true, s)
  | i :: is, s =>
      match step s i with
      | (true, next) => untilFailure step is next
      | (false, stopped) => (false, stopped)

/-- A step that does nothing when it fails. -/
def orStay (f : S → I → Option S) (s : S) (i : I) : Bool × S :=
  match f s i with
  | some next => (true, next)
  | none => (false, s)

variable {step : S → I → Bool × S} {s next final : S} {i : I} {is : List I}

theorem untilFailure_cons_of_ok (ok : step s i = (true, next)) :
    untilFailure step (i :: is) s = untilFailure step is next := by
  rw [untilFailure, ok]

theorem untilFailure_cons_of_failed (failed : step s i = (false, next)) :
    untilFailure step (i :: is) s = (false, next) := by
  rw [untilFailure, failed]

theorem orStay_eq_true {f : S → I → Option S} :
    orStay f s i = (true, next) ↔ f s i = some next := by
  rw [orStay]
  cases f s i with
  | none => simp
  | some after => simp

theorem orStay_eq_false {f : S → I → Option S} :
    orStay f s i = (false, next) ↔ f s i = none ∧ next = s := by
  rw [orStay]
  cases f s i with
  | none => simp [eq_comm]
  | some after => simp

theorem untilFailure_cons_eq_true :
    untilFailure step (i :: is) s = (true, final) ↔
      ∃ next, step s i = (true, next) ∧ untilFailure step is next = (true, final) := by
  rw [untilFailure]
  cases result : step s i with
  | mk ok next =>
      cases ok with
      | true => simp
      | false => simp

theorem untilFailure_append {later : List I} (ok : untilFailure step is s = (true, next)) :
    untilFailure step (is ++ later) s = untilFailure step later next := by
  induction is generalizing s with
  | nil =>
      cases ok
      rfl
  | cons i is inductionHypothesis =>
      obtain ⟨middle, first, rest⟩ := untilFailure_cons_eq_true.mp ok
      rw [List.cons_append, untilFailure_cons_of_ok first, inductionHypothesis rest]

theorem untilFailure_append_eq_true {later : List I} :
    untilFailure step (is ++ later) s = (true, final) ↔
      ∃ next, untilFailure step is s = (true, next) ∧
        untilFailure step later next = (true, final) := by
  constructor
  · intro ok
    induction is generalizing s with
    | nil => exact ⟨s, rfl, ok⟩
    | cons i is inductionHypothesis =>
        obtain ⟨middle, first, rest⟩ := untilFailure_cons_eq_true.mp ok
        obtain ⟨next, upTo, after⟩ := inductionHypothesis rest
        exact ⟨next, by rw [untilFailure_cons_of_ok first, upTo], after⟩
  · intro ⟨next, upTo, after⟩
    rw [untilFailure_append upTo, after]

/-- A list of at most one item. -/
theorem untilFailure_optional {J : Type*} (f : S → I → Option S) (c : J → I)
    (o : Option J) (s : S) :
    untilFailure (orStay f) (o.map c).toList s = o.elim (true, s) fun j => orStay f s (c j) := by
  cases o with
  | none => rfl
  | some j =>
      change untilFailure (orStay f) [c j] s = orStay f s (c j)
      rw [untilFailure]
      cases orStay f s (c j) with
      | mk ok next => cases ok <;> rfl

/-- Steps that each have an inverse are taken back from the last to the first. -/
theorem untilFailure_reverse {back : S → I → Bool × S}
    (inverse : ∀ s i next, step s i = (true, next) → back next i = (true, s))
    (ok : untilFailure step is s = (true, final)) :
    untilFailure back is.reverse final = (true, s) := by
  induction is generalizing s with
  | nil =>
      cases ok
      rfl
  | cons i is inductionHypothesis =>
      obtain ⟨next, first, rest⟩ := untilFailure_cons_eq_true.mp ok
      rw [List.reverse_cons, untilFailure_append (inductionHypothesis rest),
        untilFailure_cons_of_ok (inverse s i next first), untilFailure]

/-- What every step keeps, failed ones included, is kept. -/
theorem untilFailure_keeps {Inv : S → Prop} (keeps : ∀ s, ∀ i ∈ is, Inv s → Inv (step s i).2)
    (atFirst : Inv s) :
    Inv (untilFailure step is s).2 := by
  induction is generalizing s with
  | nil => exact atFirst
  | cons i is inductionHypothesis =>
      have kept := keeps s i List.mem_cons_self atFirst
      cases result : step s i with
      | mk ok next =>
          rw [result] at kept
          cases ok with
          | true =>
              rw [untilFailure_cons_of_ok result]
              exact inductionHypothesis (fun s i inside =>
                keeps s i (List.mem_cons_of_mem _ inside)) kept
          | false =>
              rw [untilFailure_cons_of_failed result]
              exact kept

/-- A part of the state that has steps of its own. -/
theorem untilFailure_map {part : S → T} {step' : T → I → Bool × T}
    (commutes : ∀ s i, step' (part s) i = ((step s i).1, part (step s i).2)) (is : List I) (s : S) :
    untilFailure step' is (part s) =
      ((untilFailure step is s).1, part (untilFailure step is s).2) := by
  induction is generalizing s with
  | nil => rfl
  | cons i is inductionHypothesis =>
      have one := commutes s i
      cases result : step s i with
      | mk ok next =>
          rw [result] at one
          cases ok with
          | true =>
              rw [untilFailure_cons_of_ok result, untilFailure_cons_of_ok one, inductionHypothesis]
          | false => rw [untilFailure_cons_of_failed result, untilFailure_cons_of_failed one]

/-! ## Two parts -/

section SideBySide

variable {A B J K : Type*} {f : A → J → Bool × A} {g : B → K → Bool × B} {side : I → J ⊕ K}
  {a a' : A} {b b' : B}

/-- Items that each concern one of two parts. -/
def sideBySide (f : A → J → Bool × A) (g : B → K → Bool × B) (side : I → J ⊕ K)
    (s : A × B) (i : I) :
    Bool × (A × B) :=
  match side i with
  | .inl j => ((f s.1 j).1, ((f s.1 j).2, s.2))
  | .inr k => ((g s.2 k).1, (s.1, (g s.2 k).2))

def lefts (side : I → J ⊕ K) (is : List I) : List J := is.filterMap fun i => (side i).getLeft?

def rights (side : I → J ⊕ K) (is : List I) : List K := is.filterMap fun i => (side i).getRight?

theorem sideBySide_inl {j : J} (isSide : side i = .inl j) (a : A) (b : B) :
    sideBySide f g side (a, b) i = ((f a j).1, ((f a j).2, b)) := by
  rw [sideBySide, isSide]

theorem sideBySide_inr {k : K} (isSide : side i = .inr k) (a : A) (b : B) :
    sideBySide f g side (a, b) i = ((g b k).1, (a, (g b k).2)) := by
  rw [sideBySide, isSide]

theorem lefts_cons_inl {j : J} (isSide : side i = .inl j) :
    lefts side (i :: is) = j :: lefts side is :=
  List.filterMap_cons_some (by rw [isSide]; rfl)

theorem lefts_cons_inr {k : K} (isSide : side i = .inr k) : lefts side (i :: is) = lefts side is :=
  List.filterMap_cons_none (by rw [isSide]; rfl)

theorem rights_cons_inl {j : J} (isSide : side i = .inl j) :
    rights side (i :: is) = rights side is :=
  List.filterMap_cons_none (by rw [isSide]; rfl)

theorem rights_cons_inr {k : K} (isSide : side i = .inr k) :
    rights side (i :: is) = k :: rights side is :=
  List.filterMap_cons_some (by rw [isSide]; rfl)

theorem sideBySide_eq_true (ok : untilFailure (sideBySide f g side) is (a, b) = (true, (a', b'))) :
    untilFailure f (lefts side is) a = (true, a') ∧
      untilFailure g (rights side is) b = (true, b') := by
  induction is generalizing a b with
  | nil =>
      cases ok
      exact ⟨rfl, rfl⟩
  | cons i is inductionHypothesis =>
      obtain ⟨next, first, rest⟩ := untilFailure_cons_eq_true.mp ok
      cases isSide : side i with
      | inl j =>
          rw [sideBySide_inl isSide] at first
          cases result : f a j with
          | mk ok after =>
              rw [result] at first
              cases first
              obtain ⟨left, right⟩ := inductionHypothesis rest
              rw [lefts_cons_inl isSide, rights_cons_inl isSide, untilFailure_cons_of_ok result]
              exact ⟨left, right⟩
      | inr k =>
          rw [sideBySide_inr isSide] at first
          cases result : g b k with
          | mk ok after =>
              rw [result] at first
              cases first
              obtain ⟨left, right⟩ := inductionHypothesis rest
              rw [lefts_cons_inr isSide, rights_cons_inr isSide, untilFailure_cons_of_ok result]
              exact ⟨left, right⟩

/-- No item of the first part fails: then it is the second part alone that decides how far the list
is gone through. -/
theorem sideBySide_right (ok : untilFailure f (lefts side is) a = (true, a')) :
    ∃ js, js <+: lefts side is ∧
      ((untilFailure g (rights side is) b).1 = true → js = lefts side is) ∧
      untilFailure (sideBySide f g side) is (a, b) =
        ((untilFailure g (rights side is) b).1,
          ((untilFailure f js a).2, (untilFailure g (rights side is) b).2)) := by
  induction is generalizing a b with
  | nil => exact ⟨[], List.prefix_rfl, fun _ => rfl, rfl⟩
  | cons i is inductionHypothesis =>
      cases isSide : side i with
      | inl j =>
          rw [lefts_cons_inl isSide] at ok ⊢
          rw [rights_cons_inl isSide]
          obtain ⟨next, first, rest⟩ := untilFailure_cons_eq_true.mp ok
          obtain ⟨js, isPrefix, all, through⟩ := inductionHypothesis (b := b) rest
          have stepped : sideBySide f g side (a, b) i = (true, (next, b)) := by
            rw [sideBySide_inl isSide, first]
          refine ⟨j :: js, List.cons_prefix_cons.mpr ⟨rfl, isPrefix⟩,
            fun good => congrArg (j :: ·) (all good), ?_⟩
          rw [untilFailure_cons_of_ok stepped, through, untilFailure_cons_of_ok first]
      | inr k =>
          rw [lefts_cons_inr isSide] at ok ⊢
          rw [rights_cons_inr isSide]
          cases result : g b k with
          | mk good next =>
              cases good with
              | true =>
                  obtain ⟨js, isPrefix, all, through⟩ := inductionHypothesis (b := next) ok
                  have stepped : sideBySide f g side (a, b) i = (true, (a, next)) := by
                    rw [sideBySide_inr isSide, result]
                  rw [untilFailure_cons_of_ok stepped, untilFailure_cons_of_ok result]
                  exact ⟨js, isPrefix, all, through⟩
              | false =>
                  have stepped : sideBySide f g side (a, b) i = (false, (a, next)) := by
                    rw [sideBySide_inr isSide, result]
                  rw [untilFailure_cons_of_failed stepped, untilFailure_cons_of_failed result]
                  exact ⟨[], List.nil_prefix, (fun impossible => by cases impossible), rfl⟩

end SideBySide

end Attempts
