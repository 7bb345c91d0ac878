import Mathlib

/-! # Hash chains

A chain of elements, each of which names the one before it and knows its place. If different
elements have different names, the last element determines the chain.
-/

namespace HashChain

variable {B Name : Type*} (name previous : B → Name) (place : B → Nat)

inductive Chained : List B → Prop where
  | nil : Chained []
  | snoc {chain : List B} {b : B} (before : Chained chain)
      (follows : ∀ a, chain.getLast? = some a → previous b = name a)
      (here : place b = chain.length) : Chained (chain ++ [b])

variable {name previous place} {chain other : List B} {b : B}

theorem chained_snoc_iff :
    Chained name previous place (chain ++ [b]) ↔ Chained name previous place chain ∧
      (∀ a, chain.getLast? = some a → previous b = name a) ∧ place b = chain.length := by
  constructor
  · intro chained
    generalize isWhole : chain ++ [b] = whole at chained
    cases chained with
    | nil => simp at isWhole
    | snoc before follows here =>
        obtain ⟨rfl, same⟩ := List.append_inj' isWhole rfl
        cases same
        exact ⟨before, follows, here⟩
  · rintro ⟨before, follows, here⟩
    exact .snoc before follows here

theorem Chained.of_append (chained : Chained name previous place (chain ++ other)) :
    Chained name previous place chain := by
  induction other using List.reverseRecOn with
  | nil => rwa [List.append_nil] at chained
  | append_singleton other b inductionHypothesis =>
      rw [← List.append_assoc] at chained
      exact inductionHypothesis (chained_snoc_iff.mp chained).1

theorem Chained.take (chained : Chained name previous place chain) (n : Nat) :
    Chained name previous place (chain.take n) := by
  rw [← List.take_append_drop n chain] at chained
  exact chained.of_append

theorem Chained.place_eq (chained : Chained name previous place chain) {k : Nat}
    (isThere : chain[k]? = some b) :
    place b = k := by
  induction chained with
  | nil => cases isThere
  | snoc before follows here inductionHypothesis =>
      rename_i before_ last
      by_cases inside : k < before_.length
      · rw [List.getElem?_append_left inside] at isThere
        exact inductionHypothesis isThere
      · rw [List.getElem?_append_right (by omega)] at isThere
        obtain ⟨isLast, same⟩ := List.getElem?_eq_some_iff.mp isThere
        rw [List.length_singleton] at isLast
        simp only [List.getElem_singleton] at same
        rw [← same, here]
        omega

theorem Chained.previous_eq (chained : Chained name previous place chain) {k : Nat} {a : B}
    (isThere : chain[k]? = some a) (isNext : chain[k + 1]? = some b) : previous b = name a := by
  induction chained with
  | nil => cases isThere
  | snoc before follows here inductionHypothesis =>
      rename_i before_ last
      by_cases inside : k + 1 < before_.length
      · rw [List.getElem?_append_left inside] at isNext
        rw [List.getElem?_append_left (by omega)] at isThere
        exact inductionHypothesis isThere isNext
      · rw [List.getElem?_append_right (by omega)] at isNext
        obtain ⟨isLast, same⟩ := List.getElem?_eq_some_iff.mp isNext
        rw [List.length_singleton] at isLast
        simp only [List.getElem_singleton] at same
        rw [List.getElem?_append_left (by omega)] at isThere
        rw [← same]
        apply follows
        rw [List.getLast?_eq_getElem?, ← isThere]
        congr 1
        omega

/-- The last element determines the chain. -/
theorem Chained.eq_of_getLast (chained : Chained name previous place chain)
    (chained' : Chained name previous place other)
    (distinct : ∀ a ∈ chain, ∀ b ∈ other, name a = name b → a = b) {last last' : B}
    (isLast : chain.getLast? = some last) (isLast' : other.getLast? = some last')
    (sameName : name last = name last') : chain = other := by
  induction chained generalizing other last last' with
  | nil => cases isLast
  | snoc before follows here inductionHypothesis =>
      rename_i before_ b
      cases chained' with
      | nil => cases isLast'
      | snoc before' follows' here' =>
          rename_i before_' b'
          rw [List.getLast?_concat, Option.some.injEq] at isLast isLast'
          rw [← isLast, ← isLast'] at sameName
          have same : b = b' := distinct b (by simp) b' (by simp) sameName
          subst same
          have length : before_.length = before_'.length := here.symm.trans here'
          congr 1
          cases isPrev : before_.getLast? with
          | none =>
              rw [List.getLast?_eq_none_iff] at isPrev
              subst isPrev
              exact (List.length_eq_zero_iff.mp length.symm).symm
          | some prev =>
              cases isPrev' : before_'.getLast? with
              | none =>
                  rw [List.getLast?_eq_none_iff] at isPrev'
                  subst isPrev'
                  rw [List.length_eq_zero_iff.mp length] at isPrev
                  cases isPrev
              | some prev' =>
                  have samePrev : name prev = name prev' :=
                    (follows prev isPrev).symm.trans (follows' prev' isPrev')
                  exact inductionHypothesis before'
                    (fun a inside b inside' => distinct a (List.mem_append_left _ inside) b
                      (List.mem_append_left _ inside')) isPrev isPrev' samePrev

end HashChain
