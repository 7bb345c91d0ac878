import Mathlib.Tactic.Common

/-! # Answers

A step takes a request and gives an answer and a new state. Two systems that give the same answer to
every request, as long as their states are related and a guard holds on the second one, give the
same answers in every run along which the guard holds.
-/

namespace Answers

variable {S T A R : Type*}

/-- The answers of a run, and the state at its end. -/
def answers (step : S → A → R × S) : S → List A → List R × S
  | s, [] => ([], s)
  | s, a :: requests =>
      ((step s a).1 :: (answers step (step s a).2 requests).1,
        (answers step (step s a).2 requests).2)

/-- The guard holds before every request of a run. -/
def Along (step : S → A → R × S) (guard : S → A → Prop) : S → List A → Prop
  | _, [] => True
  | s, a :: requests => guard s a ∧ Along step guard (step s a).2 requests

variable {step : S → A → R × S} {step' : T → A → R × T} {guard : T → A → Prop}
  {Related : S → T → Prop} {s : S} {t : T} {requests : List A}

theorem answers_append (more : List A) :
    (answers step s (requests ++ more)).1 =
      (answers step s requests).1 ++ (answers step (answers step s requests).2 more).1 := by
  induction requests generalizing s with
  | nil => rfl
  | cons a requests inductionHypothesis => exact congrArg _ inductionHypothesis

theorem answers_eq
    (steps : ∀ s t a, Related s t → guard t a →
      (step s a).1 = (step' t a).1 ∧ Related (step s a).2 (step' t a).2)
    (related : Related s t) (along : Along step' guard t requests) :
    (answers step s requests).1 = (answers step' t requests).1 ∧
      Related (answers step s requests).2 (answers step' t requests).2 := by
  induction requests generalizing s t with
  | nil => exact ⟨rfl, related⟩
  | cons a requests inductionHypothesis =>
      obtain ⟨holds, later⟩ := along
      obtain ⟨same, relatedNext⟩ := steps s t a related holds
      obtain ⟨sameLater, relatedFinal⟩ := inductionHypothesis relatedNext later
      exact ⟨congrArg₂ _ same sameLater, relatedFinal⟩

end Answers
