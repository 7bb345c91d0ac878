import Mathlib
import Zano.Lib.Attempts

/-! # Balances of 64 bits

Balances under keys of any type, with deposits that refuse an overflow and withdrawals that refuse
an underflow. A list of transfers stops at the first one that is refused and leaves what was done
before it.

Whether a list goes through depends only on what it moves in total under each key, so it may be
reordered; but deposits before withdrawals need more room than withdrawals before deposits.
-/

namespace Balances

variable {κ : Type*} [DecidableEq κ]

def deposit (b : κ → UInt64) (t : κ × UInt64) : Option (κ → UInt64) :=
  if b t.1 ≤ 0xffffffffffffffff - t.2 then some (Function.update b t.1 (b t.1 + t.2)) else none

def withdraw (b : κ → UInt64) (t : κ × UInt64) : Option (κ → UInt64) :=
  if t.2 ≤ b t.1 then some (Function.update b t.1 (b t.1 - t.2)) else none

def runAll (step : (κ → UInt64) → κ × UInt64 → Option (κ → UInt64)) :
    List (κ × UInt64) → (κ → UInt64) → Bool × (κ → UInt64) :=
  Attempts.untilFailure (Attempts.orStay step)

/-- What the transfers move under one key. -/
def moved (t : κ × UInt64) (k : κ) : Nat := if t.1 = k then t.2.toNat else 0

def total (ts : List (κ × UInt64)) (k : κ) : Nat := (ts.map (moved · k)).sum

@[simp]
theorem total_cons (t : κ × UInt64) (ts : List (κ × UInt64)) (k : κ) :
    total (t :: ts) k = moved t k + total ts k := by
  rw [total, List.map_cons, List.sum_cons]
  rfl

@[simp]
theorem total_append (ts us : List (κ × UInt64)) (k : κ) :
    total (ts ++ us) k = total ts k + total us k := by
  rw [total, List.map_append, List.sum_append]
  rfl

theorem total_perm {ts us : List (κ × UInt64)} (same : ts.Perm us) (k : κ) :
    total ts k = total us k :=
  (same.map _).sum_eq

theorem total_reverse (ts : List (κ × UInt64)) (k : κ) : total ts.reverse k = total ts k :=
  ((List.reverse_perm ts).map _).sum_eq

theorem moved_self (t : κ × UInt64) : moved t t.1 = t.2.toNat := if_pos rfl

theorem moved_of_ne {t : κ × UInt64} {k : κ} (other : t.1 ≠ k) : moved t k = 0 := if_neg other

/-! ## One transfer -/

variable {b next : κ → UInt64} {t : κ × UInt64} {ts : List (κ × UInt64)}

theorem fits_iff (balance amount : UInt64) :
    balance ≤ 0xffffffffffffffff - amount ↔ balance.toNat + amount.toNat < 2 ^ 64 := by
  have room : amount ≤ 0xffffffffffffffff := by
    have := amount.toNat_lt
    rw [UInt64.le_iff_toNat_le]
    change amount.toNat ≤ 2 ^ 64 - 1
    omega
  rw [UInt64.le_iff_toNat_le, UInt64.toNat_sub_of_le _ _ room]
  change balance.toNat ≤ 2 ^ 64 - 1 - amount.toNat ↔ _
  rw [UInt64.le_iff_toNat_le] at room
  change amount.toNat ≤ 2 ^ 64 - 1 at room
  omega

theorem deposit_eq_none : deposit b t = none ↔ 2 ^ 64 ≤ (b t.1).toNat + t.2.toNat := by
  simp [deposit, fits_iff]

theorem deposit_toNat (deposited : deposit b t = some next) (k : κ) :
    (next k).toNat = (b k).toNat + moved t k := by
  rw [deposit, Option.ite_none_right_eq_some, fits_iff] at deposited
  obtain ⟨fits, same⟩ := deposited
  cases same
  by_cases own : t.1 = k
  · subst own
    rw [Function.update_self, UInt64.toNat_add, Nat.mod_eq_of_lt fits, moved_self]
  · rw [Function.update_of_ne (Ne.symm own), moved_of_ne own, Nat.add_zero]

theorem withdraw_eq_none : withdraw b t = none ↔ (b t.1).toNat < t.2.toNat := by
  simp [withdraw, UInt64.le_iff_toNat_le]

theorem withdraw_toNat (withdrawn : withdraw b t = some next) (k : κ) :
    (next k).toNat + moved t k = (b k).toNat := by
  rw [withdraw, Option.ite_none_right_eq_some] at withdrawn
  obtain ⟨covered, same⟩ := withdrawn
  cases same
  by_cases own : t.1 = k
  · subst own
    rw [Function.update_self, UInt64.toNat_sub_of_le _ _ covered, moved_self]
    rw [UInt64.le_iff_toNat_le] at covered
    omega
  · rw [Function.update_of_ne (Ne.symm own), moved_of_ne own, Nat.add_zero]

/-! ## Lists of transfers -/

omit [DecidableEq κ] in
theorem runAll_cons_some {step : (κ → UInt64) → κ × UInt64 → Option (κ → UInt64)}
    (done : step b t = some next) :
    runAll step (t :: ts) b = runAll step ts next :=
  Attempts.untilFailure_cons_of_ok (Attempts.orStay_eq_true.mpr done)

omit [DecidableEq κ] in
theorem runAll_cons_none {step : (κ → UInt64) → κ × UInt64 → Option (κ → UInt64)}
    (refused : step b t = none) :
    runAll step (t :: ts) b = (false, b) :=
  Attempts.untilFailure_cons_of_failed (Attempts.orStay_eq_false.mpr ⟨refused, rfl⟩)

theorem depositAll_toNat (ran : runAll deposit ts b = (true, next)) (k : κ) :
    (next k).toNat = (b k).toNat + total ts k := by
  induction ts generalizing b with
  | nil =>
      cases ran
      rfl
  | cons t ts inductionHypothesis =>
      cases deposited : deposit b t with
      | none =>
          rw [runAll_cons_none deposited] at ran
          cases ran
      | some middle =>
          rw [runAll_cons_some deposited] at ran
          have first := deposit_toNat deposited k
          have rest := inductionHypothesis ran
          rw [total_cons]
          omega

/-- A refused deposit leaves less than the whole list would have made, under the key
that was refused. -/
theorem depositAll_stopped (ran : runAll deposit ts b = (false, next)) :
    (∀ k, (next k).toNat ≤ (b k).toNat + total ts k) ∧
      ∃ k, (next k).toNat < (b k).toNat + total ts k ∧ 2 ^ 64 ≤ (b k).toNat + total ts k := by
  induction ts generalizing b with
  | nil => cases ran
  | cons t ts inductionHypothesis =>
      cases deposited : deposit b t with
      | none =>
          rw [runAll_cons_none deposited] at ran
          cases ran
          have overflow := deposit_eq_none.mp deposited
          have own := moved_self t
          have := (next t.1).toNat_lt
          refine ⟨fun k => Nat.le_add_right _ _, t.1, ?_, ?_⟩ <;> rw [total_cons] <;> omega
      | some middle =>
          rw [runAll_cons_some deposited] at ran
          have first := deposit_toNat deposited
          obtain ⟨below, k, less, overflow⟩ := inductionHypothesis ran
          refine ⟨fun k => ?_, k, ?_, ?_⟩
          · have atFirst := first k
            have atRest := below k
            rw [total_cons]
            omega
          · have atFirst := first k
            rw [total_cons]
            omega
          · have atFirst := first k
            rw [total_cons]
            omega

theorem depositAll_ok_iff :
    (runAll deposit ts b).1 = true ↔ ∀ k, (b k).toNat + total ts k < 2 ^ 64 := by
  cases ran : runAll deposit ts b with
  | mk ok final =>
      cases ok with
      | true =>
          refine ⟨fun _ k => ?_, fun _ => rfl⟩
          rw [← depositAll_toNat ran k]
          exact (final k).toNat_lt
      | false =>
          obtain ⟨-, k, -, overflow⟩ := depositAll_stopped ran
          refine ⟨(by intro impossible; cases impossible), fun fits => ?_⟩
          have := fits k
          omega

theorem withdrawAll_toNat (ran : runAll withdraw ts b = (true, next)) (k : κ) :
    (next k).toNat + total ts k = (b k).toNat := by
  induction ts generalizing b with
  | nil =>
      cases ran
      rfl
  | cons t ts inductionHypothesis =>
      cases withdrawn : withdraw b t with
      | none =>
          rw [runAll_cons_none withdrawn] at ran
          cases ran
      | some middle =>
          rw [runAll_cons_some withdrawn] at ran
          have first := withdraw_toNat withdrawn k
          have rest := inductionHypothesis ran
          rw [total_cons]
          omega

theorem withdrawAll_ok (covered : ∀ k, total ts k ≤ (b k).toNat) :
    (runAll withdraw ts b).1 = true := by
  induction ts generalizing b with
  | nil => rfl
  | cons t ts inductionHypothesis =>
      have first := covered t.1
      rw [total_cons, moved_self] at first
      cases withdrawn : withdraw b t with
      | none =>
          have underflow := withdraw_eq_none.mp withdrawn
          omega
      | some middle =>
          rw [runAll_cons_some withdrawn]
          refine inductionHypothesis fun k => ?_
          have all := covered k
          have moved_ := withdraw_toNat withdrawn k
          rw [total_cons] at all
          omega

/-- Deposits never take anything away, where ever they stop. -/
theorem depositAll_le (k : κ) : (b k).toNat ≤ ((runAll deposit ts b).2 k).toNat := by
  induction ts generalizing b with
  | nil => exact le_rfl
  | cons t ts inductionHypothesis =>
      cases deposited : deposit b t with
      | none => rw [runAll_cons_none deposited]
      | some middle =>
          rw [runAll_cons_some deposited]
          have first := deposit_toNat deposited k
          have rest := inductionHypothesis (b := middle)
          omega

/-! ## Withdrawals and deposits taken back

What was withdrawn is deposited again before what was deposited is withdrawn. So there
has to be room for the balances of before and all the deposits at once, which the way
forward does not need. -/

section TakenBack

variable {ins outs : List (κ × UInt64)} {spent paid readded : κ → UInt64}

theorem readd_ok_iff (withdrawn : runAll withdraw ins b = (true, spent))
    (deposited : runAll deposit outs spent = (true, paid)) :
    (runAll deposit ins paid).1 = true ↔ ∀ k, (b k).toNat + total outs k < 2 ^ 64 := by
  rw [depositAll_ok_iff]
  refine forall_congr' fun k => ?_
  have before := withdrawAll_toNat withdrawn k
  have after := depositAll_toNat deposited k
  omega

/-- All that was deposited can be withdrawn also where the withdrawals were not all taken back. -/
theorem remove_ok (deposited : runAll deposit outs spent = (true, paid))
    (ran : (runAll deposit ins paid).2 = readded) :
    (runAll withdraw outs.reverse readded).1 = true := by
  refine withdrawAll_ok fun k => ?_
  have after := depositAll_toNat deposited k
  have grown : (paid k).toNat ≤ ((runAll deposit ins paid).2 k).toNat := depositAll_le k
  rw [ran] at grown
  rw [total_reverse]
  omega

theorem remove_readd (withdrawn : runAll withdraw ins b = (true, spent))
    (deposited : runAll deposit outs spent = (true, paid))
    (ran : runAll deposit ins paid = (true, readded)) :
    runAll withdraw outs.reverse readded = (true, b) := by
  have ok := remove_ok deposited (congrArg Prod.snd ran)
  cases removed : runAll withdraw outs.reverse readded with
  | mk good final =>
      rw [removed] at ok
      cases ok
      congr 1
      funext k
      have before := withdrawAll_toNat withdrawn k
      have after := depositAll_toNat deposited k
      have back := depositAll_toNat ran k
      have last := withdrawAll_toNat removed k
      rw [total_reverse] at last
      exact UInt64.toNat_inj.mp (by omega)

/-- Where a deposit is refused on the way back, a balance is lost. -/
theorem lost_of_stopped (withdrawn : runAll withdraw ins b = (true, spent))
    (deposited : runAll deposit outs spent = (true, paid))
    (ran : runAll deposit ins paid = (false, readded)) :
    ∃ k, ((runAll withdraw outs.reverse readded).2 k).toNat < (b k).toNat := by
  have ok := remove_ok deposited (congrArg Prod.snd ran)
  obtain ⟨-, k, less, -⟩ := depositAll_stopped ran
  refine ⟨k, ?_⟩
  cases removed : runAll withdraw outs.reverse readded with
  | mk good final =>
      rw [removed] at ok
      cases ok
      have before := withdrawAll_toNat withdrawn k
      have after := depositAll_toNat deposited k
      have last := withdrawAll_toNat removed k
      rw [total_reverse] at last
      change (final k).toNat < _
      omega

end TakenBack

end Balances
