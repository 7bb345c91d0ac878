import Mathlib.Data.List.Forall2

/-! # Two passes in step

A pass goes over a list with a state of its own and makes something of each element, or fails. A
second pass over what the first one made stays in step with it when each of its steps does, whatever
the two states are: then it comes to the end as well, and what it makes of each element is related
to what the first pass was given.
-/

namespace Lockstep

variable {σ τ α β γ : Type*} {first : σ → α → Option (β × σ)} {second : τ → β → Option (γ × τ)}

def pass (visit : σ → α → Option (β × σ)) : List α → σ → Option (List β × σ)
  | [], s => some ([], s)
  | a :: as, s => (visit s a).bind fun (b, s) => (pass visit as s).map fun (bs, s) => (b :: bs, s)

theorem pass_cons_eq_some {a : α} {as : List α} {bs : List β} {s last : σ} :
    pass first (a :: as) s = some (bs, last) ↔
      ∃ b next later, first s a = some (b, next) ∧ pass first as next = some (later, last) ∧
        bs = b :: later := by
  simp only [pass, Option.bind_eq_some_iff, Option.map_eq_some_iff, Prod.exists, Prod.mk.injEq]
  constructor
  · rintro ⟨b, next, isHere, later, _, isLater, rfl, rfl⟩
    exact ⟨b, next, later, isHere, isLater, rfl⟩
  · rintro ⟨b, next, later, isHere, isLater, rfl⟩
    exact ⟨b, next, isHere, later, last, isLater, rfl, rfl⟩

theorem pass_append_eq_some {as more : List α} {bs : List β} {s last : σ} :
    pass first (as ++ more) s = some (bs, last) ↔
      ∃ before next later, pass first as s = some (before, next) ∧
        pass first more next = some (later, last) ∧
        bs = before ++ later := by
  induction as generalizing s bs with
  | nil => simp [pass]
  | cons a as inductionHypothesis =>
      rw [List.cons_append]
      simp only [pass_cons_eq_some, inductionHypothesis]
      constructor
      · rintro ⟨b, middle, _, isHere, ⟨before, next, later, isBefore, isLater, rfl⟩, rfl⟩
        exact ⟨b :: before, next, later, ⟨b, middle, before, isHere, isBefore, rfl⟩, isLater, rfl⟩
      · rintro ⟨_, next, later, ⟨b, middle, before, isHere, isBefore, rfl⟩, isLater, rfl⟩
        exact ⟨b, middle, before ++ later, isHere,
          ⟨before, next, later, isBefore, isLater, rfl⟩, rfl⟩

theorem pass_ends {Allowed : α → Prop}
    (step : ∀ s a, Allowed a → ∃ b next, first s a = some (b, next)) {as : List α}
    (allowed : ∀ a ∈ as, Allowed a) (s : σ) : ∃ bs last, pass first as s = some (bs, last) := by
  induction as generalizing s with
  | nil => exact ⟨[], s, rfl⟩
  | cons a as inductionHypothesis =>
      obtain ⟨here, later⟩ := List.forall_mem_cons.mp allowed
      obtain ⟨b, next, isHere⟩ := step s a here
      obtain ⟨bs, last, isLater⟩ := inductionHypothesis later next
      exact ⟨b :: bs, last, pass_cons_eq_some.mpr ⟨b, next, bs, isHere, isLater, rfl⟩⟩

/-- A pass that stays where it is. -/
theorem pass_stays {made : α → β} {as : List α} {s : σ}
    (step : ∀ a ∈ as, first s a = some (made a, s)) :
    pass first as s = some (as.map made, s) := by
  induction as with
  | nil => rfl
  | cons a as inductionHypothesis =>
      obtain ⟨here, later⟩ := List.forall_mem_cons.mp step
      exact pass_cons_eq_some.mpr ⟨made a, s, as.map made, here, inductionHypothesis later, rfl⟩

/-- What happens to the state at each element happens to it over the whole pass. -/
theorem pass_foldl {advance : σ → α → σ}
    (step : ∀ s a b next, first s a = some (b, next) → next = advance s a) {as : List α}
    {bs : List β} {s last : σ} (passed : pass first as s = some (bs, last)) :
    last = as.foldl advance s := by
  induction as generalizing s bs with
  | nil =>
      cases passed
      rfl
  | cons a as inductionHypothesis =>
      obtain ⟨b, next, later, isHere, isLater, rfl⟩ := pass_cons_eq_some.mp passed
      rw [List.foldl_cons, ← step s a b next isHere]
      exact inductionHypothesis isLater

/-- The state before an element, and what is made of the element in it. -/
theorem pass_getElem? {as : List α} {bs : List β} {s last : σ}
    (passed : pass first as s = some (bs, last)) {k : ℕ} {a : α} (isElement : as[k]? = some a) :
    ∃ b next later, bs[k]? = some b ∧ pass first (as.take k) s = some (bs.take k, next) ∧
      first next a = some (b, later) := by
  induction as generalizing s bs k with
  | nil => cases isElement
  | cons here as inductionHypothesis =>
      obtain ⟨b, next, rest, isHere, isLater, rfl⟩ := pass_cons_eq_some.mp passed
      cases k with
      | zero =>
          cases isElement
          exact ⟨b, s, next, rfl, rfl, isHere⟩
      | succ k =>
          obtain ⟨b', before, later, isThere, isBefore, made⟩ :=
            inductionHypothesis isLater isElement
          exact ⟨b', before, later, isThere,
            pass_cons_eq_some.mpr ⟨b, next, rest.take k, isHere, isBefore, rfl⟩, made⟩

/-- What is made of each element. -/
theorem pass_related {Related : α → β → Prop}
    (step : ∀ s a b next, first s a = some (b, next) → Related a b) {as : List α} {bs : List β}
    {s last : σ} (passed : pass first as s = some (bs, last)) :
    List.Forall₂ Related as bs := by
  induction as generalizing s bs with
  | nil =>
      cases passed
      exact .nil
  | cons a as inductionHypothesis =>
      obtain ⟨b, next, later, isHere, isLater, rfl⟩ := pass_cons_eq_some.mp passed
      exact .cons (step s a b next isHere) (inductionHypothesis isLater)

/-- A second pass that stays in step with the first one comes to the end with it. -/
theorem pass_follows {Allowed : α → Prop} {InStep : σ → τ → Prop} {Related : α → γ → Prop}
    (step : ∀ s t a b next, InStep s t → Allowed a → first s a = some (b, next) →
      ∃ c next', second t b = some (c, next') ∧ InStep next next' ∧ Related a c)
    {as : List α} {bs : List β} {s last : σ} {t : τ} (inStep : InStep s t)
    (allowed : ∀ a ∈ as, Allowed a) (passed : pass first as s = some (bs, last)) :
    ∃ cs last', pass second bs t = some (cs, last') ∧ InStep last last' ∧
      List.Forall₂ Related as cs := by
  induction as generalizing s t bs with
  | nil =>
      cases passed
      exact ⟨[], t, rfl, inStep, .nil⟩
  | cons a as inductionHypothesis =>
      obtain ⟨here, allowedLater⟩ := List.forall_mem_cons.mp allowed
      obtain ⟨b, next, later, isHere, isLater, rfl⟩ := pass_cons_eq_some.mp passed
      obtain ⟨c, next', follows, stays, related⟩ := step s t a b next inStep here isHere
      obtain ⟨cs, last', followLater, staysLater, relatedLater⟩ :=
        inductionHypothesis stays allowedLater isLater
      exact ⟨c :: cs, last', pass_cons_eq_some.mpr ⟨c, next', cs, follows, followLater, rfl⟩,
        staysLater, .cons related relatedLater⟩

/-- What related elements have in common is the same for both lists. -/
theorem map_eq_of_related {R : α → β → Prop} {ofFirst : α → γ} {ofSecond : β → γ}
    (same : ∀ a b, R a b → ofSecond b = ofFirst a) {as : List α} {bs : List β}
    (related : List.Forall₂ R as bs) :
    bs.map ofSecond = as.map ofFirst := by
  induction related with
  | nil => rfl
  | cons here _ inductionHypothesis =>
      rw [List.map_cons, List.map_cons, same _ _ here, inductionHypothesis]

end Lockstep
