import Mathlib.Data.List.Basic
import Mathlib.Logic.Function.Basic
import Mathlib.Tactic

/-! # Rings of challenges

Every member of a ring turns the challenge before it into the next one with an answer of its own,
and the challenges close when the last one is the first one again. Whoever can answer any challenge
at one place so that a challenge chosen before comes after it, closes the ring from there: all other
answers are arbitrary. The challenge at the place 0 is kept.

What closes was made so, with the challenge after any place chosen in the right way.
-/

namespace ChallengeRing

variable {C V : Type*} (n : ℕ) (link : ℕ → V → C → C)

/-- The challenge before the place `k`, when `c` is the one before the place 0. -/
def walk (r : ℕ → V) (c : C) (k : ℕ) : C := (List.range k).foldl (fun c i => link i (r i) c) c

def Closes (c : C) (r : ℕ → V) : Prop := walk link r c n = c

/-- The challenge `k` places after the one that follows the place `s`. -/
def walkFrom (r : ℕ → V) (s : ℕ) (start : C) : ℕ → C
  | 0 => start
  | k + 1 => link ((s + 1 + k) % n) (r ((s + 1 + k) % n)) (walkFrom r s start k)

/-- The loop over the other places. What it keeps is the last challenge, the one before the place 0,
and the place. -/
def signLoop (r : ℕ → V) (s : ℕ) (start : C) (k : ℕ) : C × C × ℕ :=
  (List.range k).foldl
    (fun (cPrev, c, i) _ => (link i (r i) cPrev, if i = 0 then cPrev else c, (i + 1) % n))
    (start, start, (s + 1) % n)

def sign (r : ℕ → V) (s : ℕ) (start : C) (close : C → V) : C × (ℕ → V) :=
  let (cPrev, c, _) := signLoop n link r s start (n - 1)
  (if s = 0 then cPrev else c, Function.update r s (close cPrev))

theorem walk_succ (r : ℕ → V) (c : C) (k : ℕ) :
    walk link r c (k + 1) = link k (r k) (walk link r c k) := by
  rw [walk, List.range_succ, List.foldl_append, List.foldl_cons, List.foldl_nil, walk]

variable {n}

theorem signLoop_eq (r : ℕ → V) {s : ℕ} (inside : s < n) (start : C) {k : ℕ} (within : k ≤ n - 1) :
    signLoop n link r s start k =
      (walkFrom n link r s start k,
        if n - 1 - s < k then walkFrom n link r s start (n - 1 - s)
        else start, (s + 1 + k) % n) := by
  induction k with
  | zero => simp [signLoop, walkFrom]
  | succ k inductionHypothesis =>
      have atZero : (s + 1 + k) % n = 0 ↔ k = n - 1 - s := by
        constructor
        · intro zero
          by_cases short : s + 1 + k < n
          · rw [Nat.mod_eq_of_lt short] at zero
            omega
          · rw [Nat.mod_eq_sub_mod (by omega), Nat.mod_eq_of_lt (by omega)] at zero
            omega
        · rintro rfl
          have whole : s + 1 + (n - 1 - s) = n := by omega
          rw [whole, Nat.mod_self]
      have step : signLoop n link r s start (k + 1) =
          let (cPrev, c, i) := signLoop n link r s start k
          (link i (r i) cPrev, if i = 0 then cPrev else c, (i + 1) % n) := by
        rw [signLoop, List.range_succ, List.foldl_append]
        rfl
      rw [step, inductionHypothesis (by omega)]
      simp only [atZero, walkFrom, Nat.mod_add_mod, ← Nat.add_assoc, Prod.mk.injEq,
        true_and, and_true]
      grind

/-- The challenge that is kept is the one before the place 0, which the loop passes
unless it starts there. -/
theorem sign_eq (r : ℕ → V) {s : ℕ} (inside : s < n) (start : C) (close : C → V) :
    sign n link r s start close =
      (walkFrom n link r s start (n - 1 - s),
        Function.update r s (close (walkFrom n link r s start (n - 1)))) := by
  rw [sign, signLoop_eq link r inside start le_rfl]
  by_cases first : s = 0
  · simp [first]
  · simp [first, show n - 1 - s < n - 1 by omega]

/-- One answer that fits any challenge is enough. -/
theorem closes_sign (r : ℕ → V) {s : ℕ} (inside : s < n) (start : C) {close : C → V}
    (closing : ∀ c, link s (close c) c = start) :
    Closes n link (sign n link r s start close).1 (sign n link r s start close).2 := by
  rw [sign_eq link r inside]
  -- the challenges up to the place `s`, and those after it
  have upTo (k : ℕ) (within : k ≤ s) :
      walk link (Function.update r s (close (walkFrom n link r s start (n - 1))))
      (walkFrom n link r s start (n - 1 - s)) k = walkFrom n link r s start (n - 1 - s + k) := by
    induction k with
    | zero => simp [walk]
    | succ k inductionHypothesis =>
        have place : (s + 1 + (n - 1 - s + k)) % n = k := by
          have whole : s + 1 + (n - 1 - s + k) = k + n := by omega
          rw [whole, Nat.add_mod_right, Nat.mod_eq_of_lt (by omega)]
        rw [walk_succ, inductionHypothesis (by omega),
          Function.update_of_ne (by omega), ← Nat.add_assoc, walkFrom, place]
  have after (k : ℕ) (within : s + 1 + k ≤ n) :
      walk link (Function.update r s (close (walkFrom n link r s start (n - 1))))
      (walkFrom n link r s start (n - 1 - s)) (s + 1 + k) = walkFrom n link r s start k := by
    induction k with
    | zero =>
        have last : n - 1 - s + s = n - 1 := by omega
        rw [Nat.add_zero, walk_succ, upTo s le_rfl, last, Function.update_self, closing, walkFrom]
    | succ k inductionHypothesis =>
        rw [← Nat.add_assoc, walk_succ, inductionHypothesis (by omega),
          Function.update_of_ne (by omega), walkFrom, Nat.mod_eq_of_lt (by omega)]
  have whole := after (n - 1 - s) (by omega)
  rw [show s + 1 + (n - 1 - s) = n by omega] at whole
  exact whole

/-- From the place `s` on, and around. -/
theorem sign_of_closes {c : C} {r : ℕ → V} (closes : Closes n link c r) {s : ℕ} (inside : s < n)
    (close : C → V) (isAnswer : close (walk link r c s) = r s) (r' : ℕ → V)
    (others : ∀ i < n, i ≠ s → r' i = r i) :
    (sign n link r' s (walk link r c (s + 1)) close).1 = c ∧
      ∀ i < n, (sign n link r' s (walk link r c (s + 1)) close).2 i = r i := by
  have after (k : ℕ) (within : s + 1 + k ≤ n) :
      walkFrom n link r' s (walk link r c (s + 1)) k = walk link r c (s + 1 + k) := by
    induction k with
    | zero => rfl
    | succ k inductionHypothesis =>
        rw [walkFrom, inductionHypothesis (by omega), Nat.mod_eq_of_lt (by omega),
          others _ (by omega) (by omega), ← Nat.add_assoc, walk_succ]
  have first : walkFrom n link r' s (walk link r c (s + 1)) (n - 1 - s) = c := by
    have whole := after (n - 1 - s) (by omega)
    rw [show s + 1 + (n - 1 - s) = n by omega] at whole
    exact whole.trans closes
  have around (k : ℕ) (within : k ≤ s) :
      walkFrom n link r' s (walk link r c (s + 1)) (n - 1 - s + k) = walk link r c k := by
    induction k with
    | zero => simpa [walk] using first
    | succ k inductionHypothesis =>
        have place : (s + 1 + (n - 1 - s + k)) % n = k := by
          have whole : s + 1 + (n - 1 - s + k) = k + n := by omega
          rw [whole, Nat.add_mod_right, Nat.mod_eq_of_lt (by omega)]
        rw [← Nat.add_assoc, walkFrom, place, inductionHypothesis (by omega),
          others k (by omega) (by omega), walk_succ]
  have last := around s le_rfl
  rw [show n - 1 - s + s = n - 1 by omega] at last
  rw [sign_eq link r' inside]
  refine ⟨first, fun i within => ?_⟩
  simp only [last, isAnswer, Function.update_apply]
  split
  · next here => rw [here]
  · next other => exact others i within other

end ChallengeRing
