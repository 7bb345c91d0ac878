import Mathlib
import Zano.Lib.Codec

/-! # Spellings that a reader lets pass

A reader may take bytes for a value that the writer would not have written for it. What is wrong
with the bytes there is a slip. A spelled codec lists the slips that its reader meets, in their
order, and the law is that the bytes are those of the writer exactly when there are none. The slips
of a record are those of its parts, each where its reader comes to it.
-/

namespace Codec

variable {α β : Type*} {Slip : Type}

/-- The bytes are those that the writer writes for the value, and then the rest. -/
def Exact (c : Codec α) (bytes : Bytes) (v : α) (rest : Bytes) : Prop :=
  (c.write v).2 = true ∧ (c.write v).1 ++ rest = bytes

class Spelled (Slip : Type) (c : Codec α) where
  slips : Bytes → List Slip
  slips_eq_nil_iff : ∀ {bytes v rest}, c.read bytes = some (v, rest) →
    (slips bytes = [] ↔ c.Exact bytes v rest)

/-- What is read from bytes that are exact is determined by them. -/
theorem Exact.read {c : Codec α} {bytes rest : Bytes} {v : α} (exact_ : c.Exact bytes v rest)
    (inDom : c.dom v) :
    c.read bytes = some (v, rest) := by
  obtain ⟨ended, same⟩ := exact_
  have isRead := c.read_write inDom rest
  rwa [ended, if_pos rfl, same] at isRead

/-! ## Sequences -/

theorem andThen_append {first second : Bytes × Bool} (ended : first.2 = true) (rest : Bytes) :
    (andThen first second).1 ++ rest = first.1 ++ (second.1 ++ rest) := by
  rw [andThen, if_pos ended, List.append_assoc]

/-- Two writers after each other are exact if each is from where its reader starts. -/
theorem exact_andThen_iff {c : Codec α} {bytes later rest : Bytes} {a : α} {second : Bytes × Bool}
    (isRead : c.read bytes = some (a, later)) :
    ((andThen (c.write a) second).2 = true ∧ (andThen (c.write a) second).1 ++ rest = bytes) ↔
      c.Exact bytes a later ∧ second.2 = true ∧ second.1 ++ rest = later := by
  rw [andThen_ended, Bool.and_eq_true]
  constructor
  · intro whole
    obtain ⟨⟨ended, endedLater⟩, same⟩ := whole
    rw [andThen_append ended] at same
    have first : c.Exact bytes a (second.1 ++ rest) := ⟨ended, same⟩
    have isLater := isRead.symm.trans (first.read (c.read_dom isRead))
    cases isLater
    exact ⟨first, endedLater, rfl⟩
  · intro parts
    obtain ⟨⟨ended, same⟩, endedLater, sameLater⟩ := parts
    refine ⟨⟨ended, endedLater⟩, ?_⟩
    rw [andThen_append ended, sameLater, same]

instance (c : Codec α) (d : α → Codec β) [Spelled Slip c] [∀ a, Spelled Slip (d a)] :
    Spelled Slip (c.dep d) where
  slips := fun bytes =>
    Spelled.slips c bytes ++
      match c.read bytes with
      | some (a, later) => Spelled.slips (d a) later
      | none => []
  slips_eq_nil_iff := by
    intro bytes v rest isRead
    obtain ⟨first, readFirst, readRest⟩ := Option.bind_eq_some_iff.mp isRead
    obtain ⟨second, readSecond, same⟩ := Option.map_eq_some_iff.mp readRest
    cases same
    rw [List.append_eq_nil_iff, readFirst, Spelled.slips_eq_nil_iff readFirst,
      Spelled.slips_eq_nil_iff readSecond]
    exact (exact_andThen_iff readFirst).symm

instance (c : Codec α) (d : Codec β) [Spelled Slip c] [Spelled Slip d] : Spelled Slip (c.seq d) :=
  inferInstanceAs (Spelled Slip (c.dep fun _ => d))

/-! ## Conversions -/

/-- A conversion is exact if it gives back what was read and the bytes of that are exact. -/
theorem exact_convert_iff {c : Codec α} {encode : β → Option α} {decode : α → β} {closed}
    {bytes rest : Bytes} {a : α} (isRead : c.read bytes = some (a, rest)) :
    (c.convert encode decode closed).Exact bytes (decode a) rest ↔
      encode (decode a) = some a ∧ c.Exact bytes a rest := by
  obtain ⟨other, isOther, inDom, -⟩ := closed a (c.read_dom isRead)
  have written : (c.convert encode decode closed).write (decode a) = c.write other := by
    unfold convert
    dsimp only
    rw [isOther]
  unfold Exact
  rw [written, isOther]
  constructor
  · intro exact_
    have same := isRead.symm.trans (Exact.read exact_ inDom)
    cases same
    exact ⟨rfl, exact_⟩
  · intro kept
    obtain ⟨same, exact_⟩ := kept
    cases same
    exact exact_

/-- A conversion that may keep something else than what is read has slips of its own. -/
@[reducible] def Spelled.convertUnless (c : Codec α) (encode : β → Option α) (decode : α → β)
    (closed) [Spelled Slip c] (own : Bytes → List Slip)
    (own_eq_nil_iff : ∀ {bytes a rest}, c.read bytes = some (a, rest) →
      (own bytes = [] ↔ encode (decode a) = some a)) :
    Spelled Slip (c.convert encode decode closed) where
  slips := fun bytes => own bytes ++ Spelled.slips c bytes
  slips_eq_nil_iff := by
    intro bytes v rest isRead
    obtain ⟨⟨a, later⟩, readFirst, same⟩ := Option.map_eq_some_iff.mp isRead
    cases same
    rw [List.append_eq_nil_iff, own_eq_nil_iff readFirst, Spelled.slips_eq_nil_iff readFirst,
      exact_convert_iff readFirst]

/-- A conversion that gives back whatever is read. -/
@[reducible] def Spelled.convert (c : Codec α) (encode : β → Option α) (decode : α → β) (closed)
    [Spelled Slip c] (kept : ∀ a, c.dom a → encode (decode a) = some a) :
    Spelled Slip (c.convert encode decode closed) :=
  Spelled.convertUnless c encode decode closed (fun _ => []) fun isRead =>
    iff_of_true rfl (kept _ (c.read_dom isRead))

instance (c : Codec α) (encode : β → α) (decode : α → β) (to_from) [Spelled Slip c] :
    Spelled Slip (c.object encode decode to_from) :=
  Spelled.convert c _ decode _ fun a _ => congrArg some (to_from a)

/-! ## Checks -/

theorem read_of_check {c : Codec α} {accepts : α → Bool} {bytes rest : Bytes} {v : α}
    (isRead : (c.check accepts).read bytes = some (v, rest)) :
    c.read bytes = some (v, rest) ∧ accepts v = true :=
  Option.filter_eq_some_iff.mp isRead

instance (c : Codec α) (accepts : α → Bool) [Spelled Slip c] : Spelled Slip (c.check accepts) where
  slips := Spelled.slips c
  slips_eq_nil_iff := by
    intro bytes v rest isRead
    obtain ⟨readFirst, passes⟩ := read_of_check isRead
    have written : (c.check accepts).write v = c.write v := by
      unfold check
      dsimp only
      rw [passes, Bool.and_true]
    rw [Spelled.slips_eq_nil_iff readFirst, Exact, Exact, written]

instance (c : Codec α) (accepts : α → Bool) [Spelled Slip c] :
    Spelled Slip (c.accepted accepts) where
  slips := Spelled.slips (c.check accepts)
  slips_eq_nil_iff := @Spelled.slips_eq_nil_iff _ Slip (c.check accepts) _

instance (p : Prop) [Decidable p] (c d : Codec α) [Spelled Slip c] [Spelled Slip d] :
    Spelled Slip (if p then c else d) where
  slips := fun bytes => if p then Spelled.slips c bytes else Spelled.slips d bytes
  slips_eq_nil_iff := by
    intro bytes v rest isRead
    by_cases isP : p
    · simp only [if_pos isP] at isRead ⊢
      exact Spelled.slips_eq_nil_iff isRead
    · simp only [if_neg isP] at isRead ⊢
      exact Spelled.slips_eq_nil_iff isRead

instance (v : α) : Spelled Slip (const v) where
  slips := fun _ => []
  slips_eq_nil_iff := by
    intro bytes w rest isRead
    cases isRead
    exact iff_of_true rfl ⟨rfl, rfl⟩

/-! ## Lists -/

/-- The slips of so many elements. -/
def slipsAll (c : Codec α) [Spelled Slip c] : ℕ → Bytes → List Slip
  | 0, _ => []
  | count + 1, bytes =>
      Spelled.slips c bytes ++
        match c.read bytes with
        | some (_, later) => slipsAll c count later
        | none => []

theorem slipsAll_eq_nil_iff {c : Codec α} [Spelled Slip c] {count : ℕ} {bytes rest : Bytes}
    {vs : List α} (isRead : c.readAll count bytes = some (vs, rest)) :
    (slipsAll c count bytes : List Slip) = [] ↔
      (c.writeAll vs).2 = true ∧ (c.writeAll vs).1 ++ rest = bytes := by
  induction count generalizing bytes vs with
  | zero =>
      cases isRead
      exact iff_of_true rfl ⟨rfl, rfl⟩
  | succ count inductionHypothesis =>
      obtain ⟨⟨v, later⟩, readFirst, readRest⟩ := Option.bind_eq_some_iff.mp isRead
      obtain ⟨⟨others, _⟩, readLater, same⟩ := Option.map_eq_some_iff.mp readRest
      cases same
      rw [slipsAll, List.append_eq_nil_iff, readFirst, Spelled.slips_eq_nil_iff readFirst,
        inductionHypothesis readLater, writeAll, exact_andThen_iff readFirst]

instance (count : Codec ℕ) (c : Codec α) [c.Marked] [Spelled Slip count] [Spelled Slip c] :
    Spelled Slip (vector count c) where
  slips := fun bytes =>
    Spelled.slips count bytes ++
      match count.read bytes with
      | some (length, later) => slipsAll c length later
      | none => []
  slips_eq_nil_iff := by
    intro bytes vs rest isRead
    obtain ⟨⟨length, later⟩, readFirst, readRest⟩ := Option.bind_eq_some_iff.mp isRead
    obtain ⟨-, readLater⟩ := Option.ite_none_left_eq_some.mp readRest
    obtain ⟨rfl, -⟩ := readAll_dom readLater
    rw [List.append_eq_nil_iff, readFirst, Spelled.slips_eq_nil_iff readFirst,
      slipsAll_eq_nil_iff readLater]
    exact (exact_andThen_iff readFirst).symm

/-! ## Variants -/

namespace Alternatives

class Spelled (Slip : Type) (alternatives : Alternatives α) where
  slips : UInt8 → Bytes → List Slip
  slips_eq_nil_iff : ∀ {tag bytes v rest}, alternatives.read tag bytes = some (v, rest) →
    (slips tag bytes = [] ↔
      (alternatives.write v).1 = tag ∧ (alternatives.write v).2.2 = true ∧
        (alternatives.write v).2.1 ++ rest = bytes)

instance (tag : UInt8) (c : Codec α) [Codec.Spelled Slip c] : Spelled Slip (last tag c) where
  slips := fun _ bytes => Codec.Spelled.slips c bytes
  slips_eq_nil_iff := by
    intro t bytes v rest isRead
    obtain ⟨same, isRead⟩ := Option.ite_none_right_eq_some.mp isRead
    rw [Codec.Spelled.slips_eq_nil_iff isRead]
    exact (and_iff_right same).symm

instance (tag : UInt8) (c : Codec α) (others : Alternatives β) (fresh) [Codec.Spelled Slip c]
    [Spelled Slip others] :
    Spelled Slip (or tag c others fresh) where
  slips :=
    fun t bytes => if tag = t then Codec.Spelled.slips c bytes else Spelled.slips others t bytes
  slips_eq_nil_iff := by
    intro t bytes v rest isRead
    simp only [or] at isRead
    split at isRead
    · next same =>
        obtain ⟨⟨a, _⟩, readFirst, isValue⟩ := Option.map_eq_some_iff.mp isRead
        cases isValue
        rw [if_pos same, Codec.Spelled.slips_eq_nil_iff readFirst]
        exact (and_iff_right same).symm
    · next different =>
        obtain ⟨⟨b, _⟩, readOther, isValue⟩ := Option.map_eq_some_iff.mp isRead
        cases isValue
        rw [if_neg different, Spelled.slips_eq_nil_iff readOther]
        rfl

end Alternatives

instance (alternatives : Alternatives α) [Alternatives.Spelled Slip alternatives] :
    Spelled Slip (variant alternatives) where
  slips := fun bytes =>
    match bytes with
    | [] => []
    | tag :: later => Alternatives.Spelled.slips alternatives tag later
  slips_eq_nil_iff := by
    intro bytes v rest isRead
    cases bytes with
    | nil => cases isRead
    | cons tag later =>
        have isRead : alternatives.read tag later = some (v, rest) := isRead
        rw [Alternatives.Spelled.slips_eq_nil_iff isRead]
        unfold Exact variant
        dsimp only
        rw [List.cons_append, List.cons.injEq]
        exact and_left_comm

end Codec
