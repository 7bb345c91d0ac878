import Mathlib
import Zano.Lib.Transition

/-! # Stores whose last change is taken back

A store with two operations: `put` adds an item and `pop` is given the latest item and takes it
back. The items that have been put and not popped form a stack, kept here beside the state, latest
first.

If `pop` undoes every `put` on the states that puts alone can build, then every run of puts and
pops, however they are mixed, only ever sees such states.
-/

namespace Undo

open Transition

variable {S I : Type*}

inductive Request (I : Type*) where
  | put (item : I)
  | pop
  deriving DecidableEq, Repr

@[ext]
structure Stacked (S I : Type*) where
  state : S
  items : List I

def step (put pop : S → I → Option S) (c : Stacked S I) : Request I → Option (Stacked S I)
  | .put item => (put c.state item).map fun next => ⟨next, item :: c.items⟩
  | .pop =>
      match c.items with
      | [] => none
      | item :: below => (pop c.state item).map fun next => ⟨next, below⟩

/-- What a run may put: `fresh` relates an item to the items below it. -/
def Fresh (fresh : List I → I → Prop) (c : Stacked S I) : Request I → Prop
  | .put item => fresh c.items item
  | .pop => True

/-- The states that puts alone build from `initial`, with the items put. -/
inductive Built (put : S → I → Option S) (fresh : List I → I → Prop)
    (initial : S) : S → List I → Prop where
  | nil : Built put fresh initial initial []
  | cons {s next : S} {items : List I} {item : I} (below : Built put fresh initial s items)
      (isFresh : fresh items item) (isPut : put s item = some next) :
        Built put fresh initial next (item :: items)

variable {put pop : S → I → Option S} {fresh : List I → I → Prop} {initial : S}

theorem step_put_eq_some {c next : Stacked S I} {item : I} :
    step put pop c (.put item) = some next ↔
      put c.state item = some next.state ∧ next.items = item :: c.items := by
  rw [step, Option.map_eq_some_iff]
  constructor
  · rintro ⟨s, isPut, rfl⟩
    exact ⟨isPut, rfl⟩
  · intro ⟨isPut, same⟩
    exact ⟨next.state, isPut, by rw [← same]⟩

theorem step_pop_eq_some {c next : Stacked S I} :
    step put pop c .pop = some next ↔
      ∃ item, c.items = item :: next.items ∧ pop c.state item = some next.state := by
  obtain ⟨s, items⟩ := c
  cases items with
  | nil => simp [step]
  | cons item below =>
      simp only [step, Option.map_eq_some_iff, List.cons.injEq]
      constructor
      · rintro ⟨popped, isPopped, rfl⟩
        exact ⟨item, ⟨rfl, rfl⟩, isPopped⟩
      · rintro ⟨top, ⟨rfl, rfl⟩, isPopped⟩
        exact ⟨next.state, isPopped, rfl⟩

/-- An invariant of the states that puts build. -/
theorem Built.invariant {Inv : S → List I → Prop} (atFirst : Inv initial [])
    (kept : ∀ s items item next, Inv s items → fresh items item → put s item = some next →
      Inv next (item :: items))
    {s : S} {items : List I} (built : Built put fresh initial s items) : Inv s items := by
  induction built with
  | nil => exact atFirst
  | cons below isFresh isPut inductionHypothesis =>
      exact kept _ _ _ _ inductionHypothesis isFresh isPut

theorem built_of_step
    (pop_put : ∀ s items item next, Built put fresh initial s items → fresh items item →
      put s item = some next → pop next item = some s)
    {c next : Stacked S I} {request : Request I} (built : Built put fresh initial c.state c.items)
    (isFresh : Fresh fresh c request) (stepped : step put pop c request = some next) :
    Built put fresh initial next.state next.items := by
  cases request with
  | put item =>
      obtain ⟨isPut, same⟩ := step_put_eq_some.mp stepped
      rw [same]
      exact .cons built isFresh isPut
  | pop =>
      obtain ⟨item, same, isPopped⟩ := step_pop_eq_some.mp stepped
      rw [same] at built
      cases built with
      | cons below wasFresh isPut =>
          have restored := pop_put _ _ _ _ below wasFresh isPut
          rw [restored] at isPopped
          cases isPopped
          exact below

/-- The rule of such stores: an invariant of the states that puts build is an
invariant of all runs. -/
theorem built_of_run
    (pop_put : ∀ s items item next, Built put fresh initial s items → fresh items item →
      put s item = some next → pop next item = some s)
    {requests : List (Request I)} {final : Stacked S I}
    (guarded : Guarded (step put pop) (Fresh fresh) ⟨initial, []⟩ requests)
    (ran : run (step put pop) ⟨initial, []⟩ requests = some final) :
    Built put fresh initial final.state final.items :=
  invariant_of_run (fun _ _ _ built isFresh stepped => built_of_step pop_put built isFresh stepped)
    .nil guarded ran

end Undo
