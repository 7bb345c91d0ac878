import Mathlib.Data.List.Basic
import Mathlib.Tactic.Common

/-! # Validation by a sequence of checks

A validator is a sequence of checks and of lookups that can fail in other ways. What it has accepted
has passed every check; what it can fail with are the failures of its parts.
-/

namespace Checks

variable {E α β : Type}

def require (failure : E) (condition : Prop) [Decidable condition] : Except E Unit :=
  if condition then .ok () else .error failure

def found (failure : E) : Option α → Except E α
  | none => .error failure
  | some a => .ok a

theorem bind_eq_ok {m : Except E α} {f : α → Except E β} {b : β} :
    (m >>= f) = .ok b ↔ ∃ a, m = .ok a ∧ f a = .ok b := by
  constructor
  · intro passed
    cases m with
    | error e => cases passed
    | ok a => exact ⟨a, rfl, passed⟩
  · rintro ⟨a, rfl, rest⟩
    exact rest

@[simp]
theorem require_eq_ok {failure : E} {condition : Prop} [Decidable condition] {u : Unit} :
    require failure condition = .ok u ↔ condition := by
  rw [require]
  split <;> simp [*]

@[simp]
theorem found_eq_ok {failure : E} {o : Option α} {a : α} :
    found failure o = .ok a ↔ o = some a := by
  cases o <;> simp [found]

theorem require_bind_eq_ok {failure : E} {condition : Prop} [Decidable condition]
    {f : Unit → Except E β} {b : β} :
    (require failure condition >>= f) = .ok b ↔ condition ∧ f () = .ok b := by
  rw [bind_eq_ok]
  constructor
  · rintro ⟨u, passed, rest⟩
    exact ⟨require_eq_ok.mp passed, rest⟩
  · rintro ⟨passed, rest⟩
    exact ⟨(), require_eq_ok.mpr passed, rest⟩

theorem found_bind_eq_ok {failure : E} {o : Option α} {f : α → Except E β} {b : β} :
    (found failure o >>= f) = .ok b ↔ ∃ a, o = some a ∧ f a = .ok b := by
  simp [bind_eq_ok]

/-! ## Failures -/

/-- It does not fail in any other way. -/
def FailsOnly (allowed : E → Prop) (m : Except E α) : Prop :=
  ∀ failure, m = .error failure → allowed failure

variable {allowed : E → Prop}

theorem failsOnly_ok (a : α) : FailsOnly allowed (.ok a) := fun _ failed => nomatch failed

theorem failsOnly_error {failure : E} (isAllowed : allowed failure) :
    FailsOnly allowed (.error failure : Except E α) := by
  intro other failed
  cases failed
  exact isAllowed

theorem failsOnly_require {failure : E} (isAllowed : allowed failure) (condition : Prop)
    [Decidable condition] :
    FailsOnly allowed (require failure condition) := by
  rw [require]
  split
  · exact failsOnly_ok ()
  · exact failsOnly_error isAllowed

theorem failsOnly_found {failure : E} (isAllowed : allowed failure) (o : Option α) :
    FailsOnly allowed (found failure o) := by
  cases o with
  | none => exact failsOnly_error isAllowed
  | some a => exact failsOnly_ok a

theorem failsOnly_found_iff {failure : E} (notAllowed : ¬allowed failure) {o : Option α} :
    FailsOnly allowed (found failure o) ↔ o.isSome := by
  cases o with
  | none => exact iff_of_false (fun only => notAllowed (only failure rfl)) nofun
  | some a => exact iff_of_true (failsOnly_ok a) rfl

theorem FailsOnly.bind {m : Except E α} {f : α → Except E β} (first : FailsOnly allowed m)
    (then_ : ∀ a, m = .ok a → FailsOnly allowed (f a)) : FailsOnly allowed (m >>= f) := by
  cases m with
  | error e =>
      intro failure failed
      cases failed
      exact first e rfl
  | ok a => exact then_ a rfl

theorem failsOnly_require_bind {failure : E} (isAllowed : allowed failure) {condition : Prop}
    [Decidable condition] {f : Unit → Except E β} (then_ : condition → FailsOnly allowed (f ())) :
    FailsOnly allowed (require failure condition >>= f) :=
  (failsOnly_require isAllowed condition).bind fun _ passed => then_ (require_eq_ok.mp passed)

theorem failsOnly_found_bind {failure : E} (isAllowed : allowed failure) {o : Option α}
    {f : α → Except E β} (then_ : ∀ a, o = some a → FailsOnly allowed (f a)) :
    FailsOnly allowed (found failure o >>= f) :=
  (failsOnly_found isAllowed o).bind fun a passed => then_ a (found_eq_ok.mp passed)

/-! ## Weakest preconditions -/

/-- It fails in no other way, and what it accepts has the property. -/
def Meets (allowed : E → Prop) (accepted : α → Prop) (m : Except E α) : Prop :=
  FailsOnly allowed m ∧ ∀ a, m = .ok a → accepted a

variable {accepted : β → Prop}

theorem meets_ok {b : β} : Meets allowed accepted (.ok b) ↔ accepted b := by
  constructor
  · intro meets
    exact meets.2 b rfl
  · intro isAccepted
    refine ⟨failsOnly_ok b, fun other passed => ?_⟩
    cases passed
    exact isAccepted

theorem meets_bind {m : Except E α} {f : α → Except E β} :
    Meets allowed accepted (m >>= f) ↔
      FailsOnly allowed m ∧ ∀ a, m = .ok a → Meets allowed accepted (f a) := by
  constructor
  · intro ⟨only, isAccepted⟩
    cases m with
    | error failure =>
        have isAllowed : allowed failure := only failure rfl
        exact ⟨failsOnly_error isAllowed, nofun⟩
    | ok a =>
        refine ⟨failsOnly_ok a, fun other passed => ?_⟩
        cases passed
        exact ⟨only, isAccepted⟩
  · intro ⟨only, rest⟩
    refine ⟨only.bind fun a passed => (rest a passed).1, fun b passed => ?_⟩
    obtain ⟨a, first, later⟩ := bind_eq_ok.mp passed
    exact (rest a first).2 b later

theorem meets_bind_iff_meets {m : Except E α} {f : α → Except E β} :
    Meets allowed accepted (m >>= f) ↔ Meets allowed (fun a => Meets allowed accepted (f a)) m :=
  meets_bind

/-- The parts that fail in no other way only add what is known further on. -/
theorem FailsOnly.meets_bind {m : Except E α} {f : α → Except E β} (only : FailsOnly allowed m) :
    Meets allowed accepted (m >>= f) ↔ ∀ a, m = .ok a → Meets allowed accepted (f a) := by
  rw [Checks.meets_bind]
  exact and_iff_right only

theorem meets_check {m : Except E Unit} {isAccepted : Prop} :
    Meets allowed (fun _ => isAccepted) m ↔ FailsOnly allowed m ∧ (m = .ok () → isAccepted) :=
  and_congr_right fun _ => ⟨fun rest => rest (), fun rest _ => rest⟩

theorem meets_check_bind {m : Except E Unit} {f : Unit → Except E β} :
    Meets allowed accepted (m >>= f) ↔
      FailsOnly allowed m ∧ (m = .ok () → Meets allowed accepted (f ())) :=
  meets_bind.trans (and_congr_right fun _ => ⟨fun rest => rest (), fun rest _ => rest⟩)

theorem FailsOnly.meets_check_bind {m : Except E Unit} {f : Unit → Except E β}
    (only : FailsOnly allowed m) :
    Meets allowed accepted (m >>= f) ↔ (m = .ok () → Meets allowed accepted (f ())) :=
  Checks.meets_check_bind.trans (and_iff_right only)

theorem meets_require_bind {failure : E} (isAllowed : allowed failure) {condition : Prop}
    [Decidable condition] {f : Unit → Except E β} :
    Meets allowed accepted (require failure condition >>= f) ↔
      (condition → Meets allowed accepted (f ())) := by
  rw [(failsOnly_require isAllowed condition).meets_check_bind, require_eq_ok]

theorem failsOnly_iff_meets {m : Except E α} :
    FailsOnly allowed m ↔ Meets allowed (fun _ => True) m := by
  simp [Meets]

end Checks
