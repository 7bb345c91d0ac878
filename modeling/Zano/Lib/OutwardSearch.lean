import Mathlib
import Zano.Lib.Loop

/-! # Searching on both sides of a place

A loop that starts at a place of a range and looks to the right and to the left of it by turns, each
time a step further away, until it has found something, has left the range on both sides or is too
far away. It looks at the places within the radius, in the order of their distance.
-/

namespace Zano.OutwardSearch

open Loop

variable {σ ε : Type*}

structure At (σ : Type*) where
  state : σ
  delta : ℕ
  right : Bool

def candidateAt (center limit delta : ℕ) (right : Bool) : Option ℕ :=
  if right then if center + delta ≤ limit then some (center + delta) else none
  else if delta ≤ center then some (center - delta) else none

/-- The loop is left where it is out of the range on both sides or too far away. -/
def changeDirection (ε : Type*) (center limit radius : ℕ) (at_ : At σ) (s : σ) :
    At σ ⊕ Except ε (σ × Bool) :=
  let right := !at_.right
  let delta := if right then at_.delta + 1 else at_.delta
  if (limit < center + delta ∧ center < delta) ∨ radius < delta then .inr (.ok (s, false))
  else .inl ⟨s, delta, right⟩

/-- The candidate is visited, then the direction changes. -/
def turn (visit : ℕ → σ → Except ε (σ × Bool)) (center limit radius : ℕ) (at_ : At σ) :
    At σ ⊕ Except ε (σ × Bool) :=
  match (candidateAt center limit at_.delta at_.right).elim (.ok (at_.state, false))
    (visit · at_.state) with
  | .error e => .inr (.error e)
  | .ok (s, true) => .inr (.ok (s, true))
  | .ok (s, false) => changeDirection ε center limit radius at_ s

/-- Two turns for each distance. -/
def outwardSearch (visit : ℕ → σ → Except ε (σ × Bool)) (center limit radius : ℕ) (s : σ) :
    Option (Except ε (σ × Bool)) :=
  loop (turn visit center limit radius) (2 * (radius + 1)) ⟨s, 0, true⟩

/-! ## The places in order -/

/-- The search along a list of places. -/
def searchAlong (visit : ℕ → σ → Except ε (σ × Bool)) : List ℕ → σ → Except ε (σ × Bool)
  | [], s => .ok (s, false)
  | place :: places, s =>
      match visit place s with
      | .error e => .error e
      | .ok (s, true) => .ok (s, true)
      | .ok (s, false) => searchAlong visit places s

/-- What the turn with this number looks at. -/
def candidate (center limit number : ℕ) : Option ℕ :=
  candidateAt center limit (number / 2) (decide (number % 2 = 0))

def candidates (center limit radius : ℕ) : List ℕ :=
  (List.range (2 * (radius + 1))).filterMap (candidate center limit)

def distance (center place : ℕ) : ℕ := (place - center) + (center - place)

variable {visit : ℕ → σ → Except ε (σ × Bool)} {center limit radius : ℕ}

theorem candidate_distance {number place : ℕ} (is : candidate center limit number = some place) :
    distance center place = number / 2 := by
  unfold candidate candidateAt at is
  split at is <;> split at is <;> cases is <;> unfold distance <;> omega

theorem mem_candidates {place : ℕ} (inside : place ≤ limit)
    (near : distance center place ≤ radius) :
    place ∈ candidates center limit radius := by
  rw [candidates, List.mem_filterMap]
  unfold distance at near
  by_cases right : center ≤ place
  · refine ⟨2 * (place - center), List.mem_range.mpr (by omega), ?_⟩
    have even : 2 * (place - center) % 2 = 0 := by omega
    have half : 2 * (place - center) / 2 = place - center := by omega
    have back : center + (place - center) = place := by omega
    simp [candidate, candidateAt, even, half, back, inside]
  · refine ⟨2 * (center - place) + 1, List.mem_range.mpr (by omega), ?_⟩
    have odd : (2 * (center - place) + 1) % 2 = 1 := by omega
    have half : (2 * (center - place) + 1) / 2 = center - place := by omega
    have back : center - (center - place) = place := by omega
    simp [candidate, candidateAt, odd, half, back]

theorem near_of_mem_candidates {place : ℕ} (centerInside : center ≤ limit)
    (isCandidate : place ∈ candidates center limit radius) :
    place ≤ limit ∧ distance center place ≤ radius := by
  obtain ⟨number, below, is⟩ := List.mem_filterMap.mp isCandidate
  rw [List.mem_range] at below
  refine ⟨?_, by rw [candidate_distance is]; omega⟩
  unfold candidate candidateAt at is
  split at is <;> split at is <;> cases is <;> omega

/-- Nearer places come first. -/
theorem candidates_pairwise (center limit radius : ℕ) :
    (candidates center limit radius).Pairwise fun a b => distance center a ≤ distance center b := by
  rw [candidates, List.pairwise_filterMap]
  refine List.pairwise_lt_range.imp ?_
  intro number later less place is laterPlace isLater
  rw [candidate_distance is, candidate_distance isLater]
  omega

/-! ## The loop -/

/-- Outside the range on both sides nothing comes any more. -/
theorem candidate_eq_none {number : ℕ}
    (outside : limit < center + number / 2 ∧ center < number / 2) :
    candidate center limit number = none := by
  unfold candidate candidateAt
  split <;> rw [if_neg (by omega)]

theorem filterMap_candidate_outside {from_ count : ℕ}
    (outside : limit < center + from_ / 2 ∧ center < from_ / 2) :
    (List.range' from_ count).filterMap (candidate center limit) = [] := by
  rw [List.filterMap_eq_nil_iff]
  intro number inside
  rw [List.mem_range'_1] at inside
  exact candidate_eq_none (by omega)

/-- The turn with this number is followed by the next one. -/
theorem changeDirection_eq (s next : σ) (number : ℕ) :
    changeDirection ε center limit radius ⟨s, number / 2, decide (number % 2 = 0)⟩ next =
      if (limit < center + (number + 1) / 2 ∧ center < (number + 1) / 2) ∨
        radius < (number + 1) / 2 then
        .inr (.ok (next, false))
      else .inl ⟨next, (number + 1) / 2, decide ((number + 1) % 2 = 0)⟩ := by
  have direction : (!decide (number % 2 = 0)) = decide ((number + 1) % 2 = 0) := by
    by_cases even : number % 2 = 0
    · have odd : (number + 1) % 2 = 1 := by omega
      simp [even, odd]
    · have even' : (number + 1) % 2 = 0 := by omega
      simp [even, even']
  have delta :
      (if (number + 1) % 2 = 0 then number / 2 + 1 else number / 2) = (number + 1) / 2 := by
    split <;> omega
  rw [changeDirection]
  simp only [direction, decide_eq_true_eq, delta]

/-- From the turn with this number on the loop goes along the rest of the places. -/
theorem loop_turn_eq {count number : ℕ} {s : σ} (all : number + count = 2 * (radius + 1))
    (some_ : 0 < count) :
    loop (turn visit center limit radius) count ⟨s, number / 2, decide (number % 2 = 0)⟩ =
      some (searchAlong visit
        ((List.range' number count).filterMap (candidate center limit)) s) := by
  induction count generalizing number s with
  | zero => omega
  | succ count inductionHypothesis =>
      have goesOn (next : σ)
          (continues : turn visit center limit radius ⟨s, number / 2, decide (number % 2 = 0)⟩ =
          changeDirection ε center limit radius ⟨s, number / 2, decide (number % 2 = 0)⟩ next) :
          loop (turn visit center limit radius) (count + 1)
            ⟨s, number / 2, decide (number % 2 = 0)⟩ =
            some (searchAlong visit
              ((List.range' (number + 1) count).filterMap (candidate center limit)) next) := by
        rw [loop, continues, changeDirection_eq]
        by_cases leaves : (limit < center + (number + 1) / 2 ∧ center < (number + 1) / 2) ∨
          radius < (number + 1) / 2
        · rw [if_pos leaves]
          rcases leaves with outside | far
          · rw [filterMap_candidate_outside outside]
            rfl
          · rw [show count = 0 by omega]
            rfl
        · rw [if_neg leaves]
          exact inductionHypothesis (by omega) (by omega)
      rw [List.range'_succ]
      cases is : candidate center limit number with
      | none =>
          rw [List.filterMap_cons_none is]
          rw [candidate] at is
          exact goesOn s (by rw [turn, is, Option.elim_none])
      | some place =>
          rw [List.filterMap_cons_some is, searchAlong]
          rw [candidate] at is
          cases visited : visit place s with
          | error e => rw [loop, turn, is, Option.elim_some, visited]
          | ok result =>
              obtain ⟨next, found⟩ := result
              cases found with
              | true => rw [loop, turn, is, Option.elim_some, visited]
              | false => exact goesOn next (by rw [turn, is, Option.elim_some, visited])

theorem outwardSearch_eq (visit : ℕ → σ → Except ε (σ × Bool)) (center limit radius : ℕ) (s : σ) :
    outwardSearch visit center limit radius s =
      some (searchAlong visit (candidates center limit radius) s) := by
  have whole :=
    @loop_turn_eq σ ε visit center limit radius (2 * (radius + 1)) 0 s (Nat.zero_add _) (by omega)
  rw [candidates, List.range_eq_range']
  exact whole

/-! ## What a search has done -/

/-- What holds of each place that was passed, and the place where the search stopped, if it did. -/
theorem searchAlong_ok {inv : σ → Prop} {later : σ → σ → Prop} {passed : σ → ℕ → Prop}
    {places : List ℕ} {s last : σ} {found : Bool} (refl : ∀ s, later s s)
    (trans : ∀ a b c, later a b → later b c → later a c)
    (stays : ∀ a b place, later a b → passed a place → passed b place)
    (missed : ∀ place a b, inv a → visit place a = .ok (b, false) →
      inv b ∧ later a b ∧ passed b place)
    (begins : inv s) (searched : searchAlong visit places s = .ok (last, found)) :
    ∃ before middle, inv middle ∧ later s middle ∧ (∀ place ∈ before, passed middle place) ∧
      ((found = false ∧ before = places ∧ middle = last) ∨
        found = true ∧ ∃ place after, places = before ++ place :: after ∧
          visit place middle = .ok (last, true)) := by
  induction places generalizing s with
  | nil =>
      cases searched
      exact ⟨[], last, begins, refl last, by simp, .inl ⟨rfl, rfl, rfl⟩⟩
  | cons place places inductionHypothesis =>
      rw [searchAlong] at searched
      cases visited : visit place s with
      | error e => simp [visited] at searched
      | ok result =>
          obtain ⟨next, here⟩ := result
          cases here with
          | true =>
              simp only [visited, Except.ok.injEq, Prod.mk.injEq] at searched
              obtain ⟨rfl, rfl⟩ := searched
              exact ⟨[], s, begins, refl s, by simp, .inr ⟨rfl, place, places, rfl, visited⟩⟩
          | false =>
              simp only [visited] at searched
              obtain ⟨invNext, laterNext, passedPlace⟩ := missed place s next begins visited
              obtain ⟨before, middle, invMiddle, laterMiddle, passedAll, ends⟩ :=
                inductionHypothesis invNext searched
              refine ⟨place :: before, middle, invMiddle, trans _ _ _ laterNext laterMiddle, ?_, ?_⟩
              · exact List.forall_mem_cons.mpr ⟨stays _ _ _ laterMiddle passedPlace, passedAll⟩
              · rcases ends with ⟨notFound, all, same⟩ | ⟨isFound, stop, after, split, there⟩
                · exact .inl ⟨notFound, by rw [all], same⟩
                · exact .inr ⟨isFound, stop, after, by rw [split, List.cons_append], there⟩

theorem searchAlong_error {places : List ℕ} {s : σ} {e : ε}
    (fails : searchAlong visit places s = .error e) :
    ∃ place ∈ places, ∃ a, visit place a = .error e := by
  induction places generalizing s with
  | nil => cases fails
  | cons place places inductionHypothesis =>
      rw [searchAlong] at fails
      cases visited : visit place s with
      | error e' =>
          simp only [visited, Except.error.injEq] at fails
          exact ⟨place, List.mem_cons_self, s, by rw [visited, fails]⟩
      | ok result =>
          obtain ⟨next, found⟩ := result
          cases found with
          | true => simp [visited] at fails
          | false =>
              simp only [visited] at fails
              obtain ⟨other, inside, a, failsThere⟩ := inductionHypothesis fails
              exact ⟨other, List.mem_cons_of_mem _ inside, a, failsThere⟩

/-- Places that are nearer than one of the list stand before it. -/
theorem mem_before_of_nearer {before after : List ℕ} {place nearer : ℕ}
    (split : candidates center limit radius = before ++ place :: after)
    (isCandidate : nearer ∈ candidates center limit radius)
    (less : distance center nearer < distance center place) :
    nearer ∈ before := by
  have ordered := candidates_pairwise center limit radius
  rw [split] at ordered isCandidate
  have rest := (List.pairwise_append.mp ordered).2.1
  have notBefore := (List.pairwise_cons.mp rest).1
  rcases List.mem_append.mp isCandidate with inBefore | behind
  · exact inBefore
  · rcases List.mem_cons.mp behind with rfl | inAfter
    · omega
    · have further := notBefore nearer inAfter
      omega

end Zano.OutwardSearch
