import Mathlib.Data.Option.Basic
import Mathlib.Tactic.Common

/-! # Runs of a partial step function

A component with state `S` and requests `A` is a function `S → A → Option S`; `none` means that the
request is refused (it throws, blocks, or is not enabled). This file gives the runs of such a
component and the one induction that every safety result about a run needs.

A run is `Guarded` when every step it takes satisfies a condition in the state in which it is taken.
Guards are kept apart from the step function: they describe the runs a result is about and are never
checked by the component itself.
-/

namespace Transition

variable {S A : Type*}

def run (step : S → A → Option S) : S → List A → Option S
  | s, [] => some s
  | s, a :: as => (step s a).bind fun next => run step next as

/-- Every step that the run really takes satisfies `guard` where it is taken. Nothing is asked after
the first refused request. -/
def Guarded (step : S → A → Option S) (guard : S → A → Prop) : S → List A → Prop
  | _, [] => True
  | s, a :: as => guard s a ∧ ∀ next, step s a = some next → Guarded step guard next as

variable {step : S → A → Option S} {guard : S → A → Prop}

@[simp]
theorem run_nil (s : S) : run step s [] = some s := rfl

theorem run_cons (s : S) (a : A) (as : List A) :
    run step s (a :: as) = (step s a).bind fun next => run step next as := rfl

theorem run_cons_eq_some {s final : S} {a : A} {as : List A} :
    run step s (a :: as) = some final ↔
      ∃ next, step s a = some next ∧ run step next as = some final := by
  simp [run, Option.bind_eq_some_iff]

theorem run_append (s : S) (as bs : List A) :
    run step s (as ++ bs) = (run step s as).bind fun next => run step next bs := by
  induction as generalizing s with
  | nil => rfl
  | cons a as inductionHypothesis =>
      simp only [List.cons_append, run]
      cases step s a with
      | none => rfl
      | some next => exact inductionHypothesis next

theorem run_append_eq_some {s final : S} {as bs : List A} :
    run step s (as ++ bs) = some final ↔
      ∃ middle, run step s as = some middle ∧ run step middle bs = some final := by
  rw [run_append, Option.bind_eq_some_iff]

theorem run_singleton (s : S) (a : A) : run step s [a] = step s a := by
  rw [run_cons]
  cases step s a <;> rfl

theorem Guarded.of_append {s : S} {as bs : List A} (guarded : Guarded step guard s (as ++ bs)) :
    Guarded step guard s as := by
  induction as generalizing s with
  | nil => trivial
  | cons a as inductionHypothesis =>
      exact ⟨guarded.1, fun next stepped => inductionHypothesis (guarded.2 next stepped)⟩

theorem guarded_append {s : S} {as bs : List A} :
    Guarded step guard s (as ++ bs) ↔
      Guarded step guard s as ∧ ∀ middle, run step s as = some middle →
        Guarded step guard middle bs := by
  induction as generalizing s with
  | nil => simp [Guarded]
  | cons a as inductionHypothesis =>
      constructor
      · intro guarded
        refine ⟨guarded.of_append, fun middle ran => ?_⟩
        obtain ⟨next, stepped, rest⟩ := run_cons_eq_some.mp ran
        exact (inductionHypothesis.mp (guarded.2 next stepped)).2 middle rest
      · intro ⟨first, later⟩
        exact ⟨first.1, fun next stepped => inductionHypothesis.mpr
          ⟨first.2 next stepped, fun middle ran =>
            later middle (run_cons_eq_some.mpr ⟨next, stepped, ran⟩)⟩⟩

theorem guarded_singleton {s : S} {a : A} : Guarded step guard s [a] ↔ guard s a := by
  simp [Guarded]

theorem guarded_of_forall_mem {s : S} {as : List A}
    (always : ∀ a ∈ as, ∀ state, guard state a) : Guarded step guard s as := by
  induction as generalizing s with
  | nil => trivial
  | cons a as inductionHypothesis =>
      exact ⟨always a (by simp) s, fun _ _ =>
        inductionHypothesis fun b inside => always b (List.mem_cons_of_mem a inside)⟩

theorem Guarded.imp {weaker : S → A → Prop} (implies : ∀ s a, guard s a → weaker s a) {s : S}
    {as : List A} (guarded : Guarded step guard s as) : Guarded step weaker s as := by
  induction as generalizing s with
  | nil => trivial
  | cons a as inductionHypothesis =>
      exact ⟨implies s a guarded.1,
        fun next stepped => inductionHypothesis (guarded.2 next stepped)⟩

theorem Guarded.and {guard' : S → A → Prop} {s : S} {as : List A} (first : Guarded step guard s as)
    (second : Guarded step guard' s as) :
    Guarded step (fun s a => guard s a ∧ guard' s a) s as := by
  induction as generalizing s with
  | nil => trivial
  | cons a as inductionHypothesis =>
      exact ⟨⟨first.1, second.1⟩, fun next stepped =>
        inductionHypothesis (first.2 next stepped) (second.2 next stepped)⟩

/-- What an invariant and the guard imply in every state holds along the run. -/
theorem Guarded.imp_of_invariant {weaker : S → A → Prop} {Inv : S → Prop}
    (preserved : ∀ s a next, Inv s → guard s a → step s a = some next → Inv next)
    (implies : ∀ s a, Inv s → guard s a → weaker s a) {s : S} {as : List A} (initial : Inv s)
    (guarded : Guarded step guard s as) : Guarded step weaker s as := by
  induction as generalizing s with
  | nil => trivial
  | cons a as inductionHypothesis =>
      exact ⟨implies s a initial guarded.1, fun next stepped =>
        inductionHypothesis (preserved s a next initial guarded.1 stepped) (guarded.2 next stepped)⟩

/-- Two guards that agree where an invariant holds guard the same runs. -/
theorem guarded_congr {guard' : S → A → Prop} {Inv : S → Prop}
    (preserved : ∀ s a next, Inv s → step s a = some next → Inv next)
    (same : ∀ s a, Inv s → (guard s a ↔ guard' s a)) {s : S} {as : List A} (initial : Inv s) :
    Guarded step guard s as ↔ Guarded step guard' s as := by
  induction as generalizing s with
  | nil => rfl
  | cons a as inductionHypothesis =>
      refine and_congr (same s a initial) (forall_congr' fun next =>
        forall_congr' fun stepped => ?_)
      exact inductionHypothesis (preserved s a next initial stepped)

/-- The invariant rule: what one guarded step preserves, a guarded run preserves. -/
theorem invariant_of_run {Inv : S → Prop}
    (preserved : ∀ s a next, Inv s → guard s a → step s a = some next → Inv next)
    {s final : S} {as : List A} (initial : Inv s) (guarded : Guarded step guard s as)
    (ran : run step s as = some final) : Inv final := by
  induction as generalizing s with
  | nil =>
      cases ran
      exact initial
  | cons a as inductionHypothesis =>
      obtain ⟨next, stepped, rest⟩ := run_cons_eq_some.mp ran
      exact inductionHypothesis (preserved s a next initial guarded.1 stepped)
        (guarded.2 next stepped) rest

/-- Two components whose steps correspond through `view` have corresponding runs. -/
theorem run_simulates {S' : Type*} {step' : S' → A → Option S'} (view : S → S')
    (simulates : ∀ s a next, step s a = some next → step' (view s) a = some (view next))
    {s final : S} {as : List A} (ran : run step s as = some final) :
    run step' (view s) as = some (view final) := by
  induction as generalizing s with
  | nil =>
      cases ran
      rfl
  | cons a as inductionHypothesis =>
      obtain ⟨next, stepped, rest⟩ := run_cons_eq_some.mp ran
      exact run_cons_eq_some.mpr ⟨view next, simulates s a next stepped, inductionHypothesis rest⟩

end Transition
