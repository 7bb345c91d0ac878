import Zano.Lib.Transition

/-! # Operations that leave a state when they throw

An operation answers what it throws, if anything, and the state that it leaves. A loop ends with the
first item that throws; what was done before it, and what the failed item left, stays.

`Meets Inv Allowed` says of an answer that the state it leaves has `Inv` and that only `Allowed`
exceptions are thrown. The rules are those of a sequence and of a loop. A loop whose items need a
condition where they come has the guarded runs of the loop body as a component for which an
exception is a refused request.
-/

namespace Throwing

variable {E S I : Type*}

abbrev Outcome (E S : Type*) := Option E × S

def thenDo (outcome : Outcome E S) (f : S → Outcome E S) : Outcome E S :=
  match outcome with
  | (none, s) => f s
  | (some e, s) => (some e, s)

def forEach (f : S → I → Outcome E S) : List I → S → Outcome E S
  | [], s => (none, s)
  | i :: is, s => thenDo (f s i) (forEach f is)

/-- The loop body as a component. -/
def asStep (f : S → I → Outcome E S) (s : S) (i : I) : Option S :=
  match f s i with
  | (none, next) => some next
  | (some _, _) => none

structure Meets (Inv : S → Prop) (Allowed : E → Prop) (outcome : Outcome E S) : Prop where
  left : Inv outcome.2
  thrown : ∀ e, outcome.1 = some e → Allowed e

variable {Inv : S → Prop} {Allowed : E → Prop} {f : S → I → Outcome E S}

theorem meets_returned {s : S} (holds : Inv s) : Meets Inv Allowed (none, s) :=
  ⟨holds, fun _ thrown => by simp at thrown⟩

theorem meets_thrown {s : S} {e : E} (holds : Inv s) (allowed : Allowed e) :
    Meets Inv Allowed (some e, s) :=
  ⟨holds, fun _ thrown => Option.some.inj thrown ▸ allowed⟩

theorem Meets.imp {Inv' : S → Prop} {Allowed' : E → Prop} {outcome : Outcome E S}
    (meets : Meets Inv Allowed outcome) (weaker : ∀ s, Inv s → Inv' s)
    (allows : ∀ e, Allowed e → Allowed' e) : Meets Inv' Allowed' outcome :=
  ⟨weaker _ meets.left, fun e thrown => allows e (meets.thrown e thrown)⟩

theorem meets_thenDo {M : S → Prop} {outcome : Outcome E S} {g : S → Outcome E S}
    (first : Meets M Allowed outcome) (failed : ∀ s, M s → Inv s)
    (then_ : ∀ s, M s → Meets Inv Allowed (g s)) : Meets Inv Allowed (thenDo outcome g) := by
  obtain ⟨thrown, s⟩ := outcome
  cases thrown with
  | none => exact then_ s first.left
  | some e => exact meets_thrown (failed s first.left) (first.thrown e rfl)

theorem meets_forEach {is : List I} {s : S} (holds : Inv s)
    (keeps : ∀ s, Inv s → ∀ i ∈ is, Meets Inv Allowed (f s i)) :
    Meets Inv Allowed (forEach f is s) := by
  induction is generalizing s with
  | nil => exact meets_returned holds
  | cons i is inductionHypothesis =>
      apply meets_thenDo (keeps s holds i List.mem_cons_self) fun _ kept => kept
      intro next kept
      exact inductionHypothesis kept fun s holds j inside =>
        keeps s holds j (List.mem_cons_of_mem _ inside)

theorem meets_forEach_of_guarded {guard : S → I → Prop} {is : List I} {s : S} (holds : Inv s)
    (guarded : Transition.Guarded (asStep f) guard s is)
    (keeps : ∀ s i, Inv s → guard s i → Meets Inv Allowed (f s i)) :
    Meets Inv Allowed (forEach f is s) := by
  induction is generalizing s with
  | nil => exact meets_returned holds
  | cons i is inductionHypothesis =>
      have kept := keeps s i holds guarded.1
      rw [forEach]
      cases answer : f s i with
      | mk thrown next =>
          rw [answer] at kept
          cases thrown with
          | none => exact inductionHypothesis kept.left (guarded.2 next (by rw [asStep, answer]))
          | some e => exact kept

end Throwing
