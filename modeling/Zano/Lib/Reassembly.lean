import Mathlib.Tactic.Common

/-! # Streams that come in pieces

A receiver gathers what comes in and takes from the front of it as long as there is enough. What it
does with the front must not depend on what may come after it. Then it does not matter how the
stream was cut into pieces.
-/

namespace Reassembly

/-- What a state makes of what has been gathered: it waits for more, gives up, or takes so
many off the front. -/
inductive Verdict (σ : Type*) where
  | wait
  | fail (s : σ)
  | advance (s : σ) (consumed : ℕ)

/-- What is taken off, or else a weight that the state loses, makes the receiver stop in the end. -/
structure Framing (σ β : Type*) where
  next : σ → List β → Verdict σ
  weight : σ → ℕ
  progress : ∀ {s buffer s' consumed}, next s buffer = .advance s' consumed →
    consumed ≤ buffer.length ∧ weight s' < weight s + consumed
  advance_append : ∀ {s buffer s' consumed}, next s buffer = .advance s' consumed →
    ∀ more, next s (buffer ++ more) = .advance s' consumed
  fail_append : ∀ {s buffer s'}, next s buffer = .fail s' →
    ∀ more, next s (buffer ++ more) = .fail s'

/-- A receiver that gave up is not alive. -/
structure Receiver (σ β : Type*) where
  state : σ
  cache : List β
  alive : Bool

variable {σ β : Type*} (framing : Framing σ β)

def drain (s : σ) (buffer : List β) : Receiver σ β :=
  match _taken : framing.next s buffer with
  | .wait => ⟨s, buffer, true⟩
  | .fail s' => ⟨s', buffer, false⟩
  | .advance s' consumed => drain s' (buffer.drop consumed)
termination_by framing.weight s + buffer.length
decreasing_by
  have := framing.progress _taken
  rw [List.length_drop]
  omega

def feed (receiver : Receiver σ β) (piece : List β) : Receiver σ β :=
  if receiver.alive then drain framing receiver.state (receiver.cache ++ piece) else receiver

variable {framing}

theorem drain_of_wait {s : σ} {buffer : List β} (waits : framing.next s buffer = .wait) :
    drain framing s buffer = ⟨s, buffer, true⟩ := by
  rw [drain]
  split <;> simp_all

theorem drain_of_fail {s s' : σ} {buffer : List β} (fails : framing.next s buffer = .fail s') :
    drain framing s buffer = ⟨s', buffer, false⟩ := by
  rw [drain]
  split <;> simp_all

theorem drain_of_advance {s s' : σ} {buffer : List β} {consumed : ℕ}
    (advances : framing.next s buffer = .advance s' consumed) :
    drain framing s buffer = drain framing s' (buffer.drop consumed) := by
  conv_lhs => rw [drain]
  split <;> simp_all

/-- What holds at the end of the turns holds if it holds where the receiver waits or gives up and is
kept by a turn. -/
theorem drain_induction (framing : Framing σ β) {motive : σ → List β → Prop}
    (wait : ∀ s buffer, framing.next s buffer = .wait → motive s buffer)
    (fail : ∀ s buffer s', framing.next s buffer = .fail s' → motive s buffer)
    (advance : ∀ s buffer s' consumed, framing.next s buffer = .advance s' consumed →
      motive s' (buffer.drop consumed) → motive s buffer)
    (s : σ) (buffer : List β) : motive s buffer := by
  induction size : framing.weight s + buffer.length using Nat.strongRecOn generalizing s buffer with
  | ind size inductionHypothesis =>
      cases taken : framing.next s buffer with
      | wait => exact wait s buffer taken
      | fail s' => exact fail s buffer s' taken
      | advance s' consumed =>
          refine advance s buffer s' consumed taken (inductionHypothesis _ ?_ s' _ rfl)
          have := framing.progress taken
          rw [List.length_drop]
          omega

/-- More that comes later is as good as more that comes at once. -/
theorem drain_append (framing : Framing σ β) (s : σ) (buffer more : List β) :
    (drain framing s (buffer ++ more)).state = (feed framing (drain framing s buffer) more).state ∧
      (drain framing s (buffer ++ more)).alive =
        (feed framing (drain framing s buffer) more).alive ∧
        ((drain framing s buffer).alive = true →
          drain framing s (buffer ++ more) = feed framing (drain framing s buffer) more) := by
  induction s, buffer using drain_induction framing with
  | wait s buffer waits =>
      rw [drain_of_wait waits]
      exact ⟨rfl, rfl, fun _ => rfl⟩
  | fail s buffer s' fails =>
      rw [drain_of_fail fails, drain_of_fail (framing.fail_append fails more)]
      exact ⟨rfl, rfl, fun alive => by cases alive⟩
  | advance s buffer s' consumed advances inductionHypothesis =>
      have within := (framing.progress advances).1
      rw [drain_of_advance advances, drain_of_advance (framing.advance_append advances more),
        List.drop_append_of_le_length within]
      exact inductionHypothesis

/-- Pieces one after the other. -/
def feedAll (framing : Framing σ β) (receiver : Receiver σ β) (pieces : List (List β)) :
    Receiver σ β := pieces.foldl (feed framing) receiver

theorem feedAll_dead {receiver : Receiver σ β} (dead : receiver.alive = false)
    (pieces : List (List β)) :
    feedAll framing receiver pieces = receiver := by
  induction pieces with
  | nil => rfl
  | cons piece pieces inductionHypothesis =>
      rw [feedAll, List.foldl_cons, feed, if_neg (by simp [dead]), ← feedAll, inductionHypothesis]

/-- A receiver that is alive has used up all that it can. -/
theorem drain_waits (s : σ) (buffer : List β) (alive : (drain framing s buffer).alive = true) :
    framing.next (drain framing s buffer).state (drain framing s buffer).cache = .wait := by
  induction s, buffer using drain_induction framing with
  | wait s buffer waits => rw [drain_of_wait waits, waits]
  | fail s buffer s' fails =>
      rw [drain_of_fail fails] at alive
      cases alive
  | advance s buffer s' consumed advances inductionHypothesis =>
      rw [drain_of_advance advances] at alive ⊢
      exact inductionHypothesis alive

/-- What every turn keeps, also the last, is so in the end. -/
theorem drain_preserves {Inv : Receiver σ β → Prop}
    (advance : ∀ {s buffer s' consumed}, Inv ⟨s, buffer, true⟩ →
      framing.next s buffer = .advance s' consumed →
      Inv ⟨s', buffer.drop consumed, true⟩)
    (fail : ∀ {s buffer s'}, Inv ⟨s, buffer, true⟩ → framing.next s buffer = .fail s' →
      Inv ⟨s', buffer, false⟩) {s : σ}
    {buffer : List β} (begins : Inv ⟨s, buffer, true⟩) : Inv (drain framing s buffer) := by
  induction s, buffer using drain_induction framing with
  | wait s buffer waits => rwa [drain_of_wait waits]
  | fail s buffer s' fails =>
      rw [drain_of_fail fails]
      exact fail begins fails
  | advance s buffer s' consumed advances inductionHypothesis =>
      rw [drain_of_advance advances]
      exact inductionHypothesis (advance begins advances)

/-- How a stream was cut does not matter. -/
theorem feedAll_eq (framing : Framing σ β) {s : σ} {cache : List β}
    (settled : framing.next s cache = .wait) (pieces : List (List β)) :
    (feedAll framing ⟨s, cache, true⟩ pieces).state =
      (drain framing s (cache ++ pieces.flatten)).state ∧
      (feedAll framing ⟨s, cache, true⟩ pieces).alive =
        (drain framing s (cache ++ pieces.flatten)).alive ∧
        ((feedAll framing ⟨s, cache, true⟩ pieces).alive = true →
          feedAll framing ⟨s, cache, true⟩ pieces = drain framing s (cache ++ pieces.flatten)) := by
  induction pieces generalizing s cache with
  | nil =>
      rw [List.flatten_nil, List.append_nil, drain_of_wait settled]
      exact ⟨rfl, rfl, fun _ => rfl⟩
  | cons piece pieces inductionHypothesis =>
      have first : feed framing ⟨s, cache, true⟩ piece = drain framing s (cache ++ piece) := rfl
      obtain ⟨sameState, sameAlive, same⟩ := drain_append framing s (cache ++ piece) pieces.flatten
      rw [feedAll, List.foldl_cons, ← feedAll, first, List.flatten_cons, ← List.append_assoc,
        sameState, sameAlive]
      cases alive : (drain framing s (cache ++ piece)).alive with
      | false =>
          rw [feedAll_dead alive, feed, if_neg (by simp [alive])]
          exact ⟨rfl, rfl, fun isAlive => by rw [alive] at isAlive; cases isAlive⟩
      | true =>
          have settled' := drain_waits s (cache ++ piece) alive
          rw [same alive, feed, if_pos alive]
          have isReceiver : drain framing s (cache ++ piece) =
              ⟨(drain framing s (cache ++ piece)).state, (drain framing s (cache ++ piece)).cache,
                true⟩ := by rw [← alive]
          rw [isReceiver]
          exact inductionHypothesis settled'

end Reassembly
