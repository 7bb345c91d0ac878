import Mathlib
import Zano.Lib.Codec

/-! # What a writer loses

A writer can come to the end of a value and still leave out a part of it. What is left out is a
loss. A codec that keeps tells the losses of a value, and the law is that a value that was written
to the end, in no more bytes than a size can count, is one that the reader can give exactly when
there are none. It is read back from what was written then, and only then.
-/

namespace Codec

variable {α β : Type*} {Loss : Type} {limit : ℕ}

class Kept (Loss : Type) (limit : ℕ) (c : Codec α) where
  losses : α → List Loss
  losses_eq_nil_iff : ∀ {v}, (c.write v).2 = true → (c.write v).1.length < limit →
    (losses v = [] ↔ c.dom v)

/-- What is read from the bytes of a value is the value if nothing was lost. -/
theorem read_write_iff {c : Codec α} [Kept Loss limit c] {v : α} (ended : (c.write v).2 = true)
    (fits : (c.write v).1.length < limit) (rest : Bytes) :
    c.read ((c.write v).1 ++ rest) = some (v, rest) ↔ (Kept.losses limit c v : List Loss) = [] := by
  rw [Kept.losses_eq_nil_iff ended fits]
  constructor
  · exact c.read_dom
  · intro inDom
    rw [c.read_write inDom, if_pos ended]

/-! ## Sequences -/

theorem andThen_fits {first second : Bytes × Bool} (ended : (andThen first second).2 = true)
    (fits : (andThen first second).1.length < limit) :
    (first.2 = true ∧ first.1.length < limit) ∧ second.2 = true ∧ second.1.length < limit := by
  rw [andThen_ended, Bool.and_eq_true] at ended
  rw [andThen, if_pos ended.1, List.length_append] at fits
  exact ⟨⟨ended.1, by omega⟩, ended.2, by omega⟩

instance (c : Codec α) (d : α → Codec β) [Kept Loss limit c] [∀ a, Kept Loss limit (d a)] :
    Kept Loss limit (c.dep d) where
  losses := fun v => Kept.losses limit c v.1 ++ Kept.losses limit (d v.1) v.2
  losses_eq_nil_iff := by
    intro v ended fits
    obtain ⟨first, second⟩ := andThen_fits ended fits
    rw [List.append_eq_nil_iff, Kept.losses_eq_nil_iff first.1 first.2,
      Kept.losses_eq_nil_iff second.1 second.2]
    rfl

instance (c : Codec α) (d : Codec β) [Kept Loss limit c] [Kept Loss limit d] :
    Kept Loss limit (c.seq d) :=
  inferInstanceAs (Kept Loss limit (c.dep fun _ => d))

/-! ## Conversions -/

/-- A conversion has losses of its own if something else comes back. -/
@[reducible] def Kept.convertUnless (c : Codec α) (encode : β → Option α) (decode : α → β) (closed)
    [Kept Loss limit c] (own : β → List Loss)
    (own_eq_nil_iff : ∀ {b a}, encode b = some a → (own b = [] ↔ decode a = b)) :
    Kept Loss limit (c.convert encode decode closed) where
  losses := fun b =>
    own b ++
      match encode b with
      | some a => Kept.losses limit c a
      | none => []
  losses_eq_nil_iff := by
    intro b ended fits
    unfold Codec.convert at ended fits ⊢
    dsimp only at ended fits ⊢
    cases isTo : encode b with
    | none =>
        rw [isTo] at ended
        cases ended
    | some a =>
        rw [isTo] at ended fits
        rw [List.append_eq_nil_iff, own_eq_nil_iff isTo, Kept.losses_eq_nil_iff ended fits]
        simp [and_comm]

@[reducible] def Kept.convert (c : Codec α) (encode : β → Option α) (decode : α → β) (closed)
    [Kept Loss limit c] (kept : ∀ {b a}, encode b = some a → decode a = b) :
    Kept Loss limit (c.convert encode decode closed) :=
  Kept.convertUnless c encode decode closed (fun _ => []) fun isTo => iff_of_true rfl (kept isTo)

/-- A structure all of whose fields are written. -/
@[reducible] def Kept.object {c : Codec α} {encode : β → α} {decode : α → β} {to_from}
    [Kept Loss limit c] (from_to : ∀ b, decode (encode b) = b) :
    Kept Loss limit (c.object encode decode to_from) :=
  Kept.convert c _ decode _ fun isTo => by
    cases isTo
    exact from_to _

/-! ## Checks -/

instance (c : Codec α) (accepts : α → Bool) [Kept Loss limit c] :
    Kept Loss limit (c.check accepts) where
  losses := Kept.losses limit c
  losses_eq_nil_iff := by
    intro v ended fits
    exact Kept.losses_eq_nil_iff (Bool.and_eq_true_iff.mp ended).1 fits

instance (c : Codec α) (accepts : α → Bool) [Kept Loss limit c] :
    Kept Loss limit (c.accepted accepts) where
  losses := Kept.losses limit c
  losses_eq_nil_iff := by
    intro v ended fits
    have passed := Bool.and_eq_true_iff.mp ended
    rw [Kept.losses_eq_nil_iff passed.1 fits]
    exact (and_iff_left passed.2).symm

@[reducible] def Kept.iteOf (p : Prop) [Decidable p] (c d : Codec α) (first : Kept Loss limit c)
    (second : Kept Loss limit d) : Kept Loss limit (if p then c else d) where
  losses := fun v => if p then Kept.losses limit c v else Kept.losses limit d v
  losses_eq_nil_iff := by
    intro v ended fits
    by_cases isP : p
    · simp only [if_pos isP] at ended fits ⊢
      exact Kept.losses_eq_nil_iff ended fits
    · simp only [if_neg isP] at ended fits ⊢
      exact Kept.losses_eq_nil_iff ended fits

instance (p : Prop) [Decidable p] (c d : Codec α) [first : Kept Loss limit c]
    [second : Kept Loss limit d] :
    Kept Loss limit (if p then c else d) :=
  Kept.iteOf p c d first second

/-- What is not written is lost, unless it is what the reader puts there. -/
@[reducible] def Kept.const [DecidableEq α] (v : α) (loss : Loss) : Kept Loss limit (const v) where
  losses := fun w => if w = v then [] else [loss]
  losses_eq_nil_iff := by
    intro w _ _
    split
    · next same => exact iff_of_true rfl same
    · next other => exact iff_of_false (List.cons_ne_nil _ _) other

/-! ## Lists -/

/-- Every number below the limit can be read. -/
class Counts (limit : ℕ) (count : Codec ℕ) : Prop where
  dom : ∀ {n}, n < limit → count.dom n

theorem losses_writeAll {c : Codec α} [Kept Loss limit c] {vs : List α}
    (ended : (c.writeAll vs).2 = true) (fits : (c.writeAll vs).1.length < limit) :
    vs.flatMap (Kept.losses limit c) = ([] : List Loss) ↔ ∀ v ∈ vs, c.dom v := by
  induction vs with
  | nil => simp
  | cons v vs inductionHypothesis =>
      obtain ⟨first, later⟩ := andThen_fits ended fits
      rw [List.flatMap_cons, List.append_eq_nil_iff, Kept.losses_eq_nil_iff first.1 first.2,
        inductionHypothesis later.1 later.2, List.forall_mem_cons]

instance (count : Codec ℕ) (c : Codec α) [c.Marked] [Counts limit count] [Kept Loss limit c] :
    Kept Loss limit (vector count c) where
  losses := fun vs => vs.flatMap (Kept.losses limit c)
  losses_eq_nil_iff := by
    intro vs ended fits
    obtain ⟨-, later⟩ := andThen_fits ended fits
    have counted : count.dom vs.length := Counts.dom ((length_le_writeAll later.1).trans_lt later.2)
    rw [losses_writeAll later.1 later.2]
    exact (and_iff_right counted).symm

/-! ## Variants -/

namespace Alternatives

class Kept (Loss : Type) (limit : ℕ) (alternatives : Alternatives α) where
  losses : α → List Loss
  losses_eq_nil_iff : ∀ {v}, (alternatives.write v).2.2 = true →
    (alternatives.write v).2.1.length < limit →
    (losses v = [] ↔ alternatives.dom v)

instance (tag : UInt8) (c : Codec α) [Codec.Kept Loss limit c] : Kept Loss limit (last tag c) where
  losses := Codec.Kept.losses limit c
  losses_eq_nil_iff := fun ended fits => Codec.Kept.losses_eq_nil_iff (c := c) ended fits

instance (tag : UInt8) (c : Codec α) (others : Alternatives β) (fresh) [Codec.Kept Loss limit c]
    [Kept Loss limit others] : Kept Loss limit (or tag c others fresh) where
  losses := fun v =>
    match v with
    | .inl a => Codec.Kept.losses limit c a
    | .inr b => Kept.losses limit others b
  losses_eq_nil_iff := by
    intro v ended fits
    cases v with
    | inl a => exact Codec.Kept.losses_eq_nil_iff (c := c) ended fits
    | inr b => exact @Kept.losses_eq_nil_iff _ Loss limit others _ b ended fits

end Alternatives

instance (alternatives : Alternatives α) [Alternatives.Kept Loss limit alternatives] :
    Kept Loss limit (variant alternatives) where
  losses := Alternatives.Kept.losses limit alternatives
  losses_eq_nil_iff := by
    intro v ended fits
    apply Alternatives.Kept.losses_eq_nil_iff ended
    exact (Nat.lt_succ_self _).trans fits

end Codec
