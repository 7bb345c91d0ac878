import Mathlib

/-! # Loops with a bound on their turns

One turn of a loop either goes on with a new state or leaves with a result. A loop that is given a
number of turns answers nothing when they are used up. That a loop ends is shown with an invariant
that carries the number of turns that are still needed: when it has been shown for some start, every
larger number of turns gives the same result.

A walk round a circle of `n` places is one such loop: `n` turns visit every place.
-/

namespace Zano.Loop

variable {σ β : Type*}

def loop (turn : σ → σ ⊕ β) : ℕ → σ → Option β
  | 0, _ => none
  | turns + 1, s =>
      match turn s with
      | .inl next => loop turn turns next
      | .inr result => some result

/-- A turn leaves with what is wanted, or fewer turns are needed after it. -/
theorem loop_ends {turn : σ → σ ⊕ β} {post : β → Prop} (needs : ℕ → σ → Prop)
    (oneTurn : ∀ left s, needs left s →
      (∃ result, turn s = .inr result ∧ post result) ∨ ∃ next fewer, turn s = .inl next ∧
        fewer < left ∧ needs fewer next)
    {left turns : ℕ} {s : σ} (begins : needs left s) (enough : left < turns) :
    ∃ result, loop turn turns s = some result ∧ post result := by
  induction turns generalizing left s with
  | zero => omega
  | succ turns inductionHypothesis =>
      rw [loop]
      rcases oneTurn left s begins with ⟨result, leaves, good⟩ | ⟨next, fewer, goes, less, later⟩
      · rw [leaves]
        exact ⟨result, rfl, good⟩
      · rw [goes]
        exact inductionHypothesis later (by omega)

/-! ## Round a circle -/

/-- The place behind the last one is the first one. -/
def nextPlace (n place : ℕ) : ℕ := if place = n - 1 then 0 else place + 1

theorem nextPlace_eq {n start k : ℕ} (some_ : 0 < n) :
    nextPlace n ((start + k) % n) = (start + (k + 1)) % n := by
  have below := Nat.mod_lt (start + k) some_
  have sum : (start + (k + 1)) % n = ((start + k) % n + 1) % n := by
    rw [Nat.mod_add_mod, Nat.add_assoc]
  rw [sum]
  generalize (start + k) % n = place at below
  rw [nextPlace]
  split
  next last => rw [last, Nat.sub_add_cancel some_, Nat.mod_self]
  next notLast => rw [Nat.mod_eq_of_lt (by omega)]

theorem exists_turn {n : ℕ} (start : ℕ) {place : ℕ} (inside : place < n) :
    ∃ k < n, (start + k) % n = place := by
  have some_ : 0 < n := by omega
  refine ⟨(place + (n - start % n)) % n, Nat.mod_lt _ some_, ?_⟩
  have below := Nat.mod_lt start some_
  rw [Nat.add_mod, Nat.mod_mod, ← Nat.add_mod, ← Nat.mod_add_mod]
  rw [show start % n + (place + (n - start % n)) = place + n by omega, Nat.add_mod_right,
    Nat.mod_eq_of_lt inside]

theorem length_le_of_inside {n : ℕ} {places : List ℕ} (nodup : places.Nodup)
    (inside : ∀ place ∈ places, place < n) :
    places.length ≤ n := by
  have subset : places ⊆ List.range n := fun place there => List.mem_range.mpr (inside place there)
  simpa only [List.length_range] using (nodup.subperm subset).length_le

/-- Places that are all different and contain a whole walk are all the places. -/
theorem length_eq_of_walked {n start : ℕ} {places : List ℕ} (nodup : places.Nodup)
    (inside : ∀ place ∈ places, place < n)
    (walked : ∀ k < n, (start + k) % n ∈ places) : places.length = n := by
  have all : places.Perm (List.range n) := by
    rw [List.perm_ext_iff_of_nodup nodup List.nodup_range]
    intro place
    rw [List.mem_range]
    refine ⟨inside place, fun below => ?_⟩
    obtain ⟨k, less, rfl⟩ := exists_turn start below
    exact walked k less
  rw [all.length_eq, List.length_range]

end Zano.Loop
