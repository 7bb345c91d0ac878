import Mathlib

/-! # Codecs whose writer may stop

A codec is a writer and a reader of one format. The writer appends bytes and may stop before the end
of a value; then the bytes it has written so far are all there is. The reader takes a value off the
front of the input or fails.

`dom` are the values that a codec is about, among them all that its reader gives. The one law is
that reading what was written gives the value back when the writer came to the end and fails when it
stopped, whatever follows. So bytes that were written to the end belong to one value only,
`Codec.eq_of_write_eq`, and not even a value at which the writer stops can have them.
-/

abbrev Bytes := List UInt8

/-- A writer that stopped writes nothing more. -/
def andThen (first second : Bytes × Bool) : Bytes × Bool :=
  if first.2 then (first.1 ++ second.1, second.2) else first

theorem andThen_ended (first second : Bytes × Bool) :
    (andThen first second).2 = (first.2 && second.2) := by
  unfold andThen
  cases ended : first.2 <;> simp [ended]

/-- The second component says whether the writer came to the end. -/
structure Codec (α : Type*) where
  write : α → Bytes × Bool
  read : Bytes → Option (α × Bytes)
  dom : α → Prop
  read_dom : ∀ {bytes v rest}, read bytes = some (v, rest) → dom v
  read_write : ∀ {v}, dom v → ∀ rest,
    read ((write v).1 ++ rest) = if (write v).2 then some (v, rest) else none

namespace Codec

variable {α β γ : Type*}

theorem eq_of_write_eq {c : Codec α} {v w : α} (inDomV : c.dom v) (inDomW : c.dom w)
    (ended : (c.write v).2 = true) (same : (c.write w).1 = (c.write v).1) : w = v := by
  have readV := c.read_write inDomV []
  have readW := c.read_write inDomW []
  rw [same, readV, ended, if_pos rfl] at readW
  split at readW
  · cases readW
    rfl
  · cases readW

theorem read_andThen (c : Codec α) {v : α} (inDom : c.dom v) (second : Bytes × Bool)
    (rest : Bytes) :
    c.read ((andThen (c.write v) second).1 ++ rest) =
      if (c.write v).2 then some (v, second.1 ++ rest) else none := by
  unfold andThen
  cases ended : (c.write v).2 with
  | false => simpa [ended] using c.read_write inDom rest
  | true => simpa [ended] using c.read_write inDom (second.1 ++ rest)

/-- The writer comes to the end of every value that the reader can give. -/
class Whole (c : Codec α) : Prop where
  ended : ∀ {v}, c.dom v → (c.write v).2 = true

/-! ## Sequences -/

/-- One value after the other; the format of the second may depend on the first. -/
def dep (c : Codec α) (d : α → Codec β) : Codec (α × β) where
  write := fun (a, b) => andThen (c.write a) ((d a).write b)
  read := fun bytes =>
    (c.read bytes).bind fun (a, later) => ((d a).read later).map fun (b, rest) => ((a, b), rest)
  dom := fun (a, b) => c.dom a ∧ (d a).dom b
  read_dom := by
    intro bytes v rest isRead
    obtain ⟨⟨a, later⟩, readFirst, readRest⟩ := Option.bind_eq_some_iff.mp isRead
    obtain ⟨⟨b, _⟩, readSecond, same⟩ := Option.map_eq_some_iff.mp readRest
    cases same
    exact ⟨c.read_dom readFirst, (d a).read_dom readSecond⟩
  read_write := by
    intro (a, b) inDom rest
    simp only [c.read_andThen inDom.1, andThen_ended]
    cases (c.write a).2 with
    | false => rfl
    | true =>
        simp only [if_true, Option.bind_some, (d a).read_write inDom.2, Bool.true_and]
        split <;> rfl

def seq (c : Codec α) (d : Codec β) : Codec (α × β) := c.dep fun _ => d

theorem dep_ended (c : Codec α) (d : α → Codec β) (a : α) (b : β) :
    ((c.dep d).write (a, b)).2 = ((c.write a).2 && ((d a).write b).2) :=
  andThen_ended _ _

theorem seq_ended (c : Codec α) (d : Codec β) (v : α × β) :
    ((c.seq d).write v).2 = ((c.write v.1).2 && (d.write v.2).2) :=
  dep_ended c (fun _ => d) v.1 v.2

instance (c : Codec α) (d : α → Codec β) [c.Whole] [∀ a, (d a).Whole] : (c.dep d).Whole where
  ended := by
    intro (a, b) inDom
    rw [dep_ended, Whole.ended inDom.1, Whole.ended inDom.2, Bool.and_self]

instance (c : Codec α) (d : Codec β) [c.Whole] [d.Whole] : (c.seq d).Whole :=
  inferInstanceAs (c.dep fun _ => d).Whole

/-! ## Conversions -/

/-- A value is written as another one and made again from what was read. The writer can refuse a
value; a value that was made from what was read is never refused. -/
def convert (c : Codec α) (encode : β → Option α) (decode : α → β)
    (closed : ∀ a, c.dom a →
      ∃ other, encode (decode a) = some other ∧ c.dom other ∧ decode other = decode a) :
    Codec β where
  write := fun b =>
    match encode b with
    | some a => c.write a
    | none => ([], false)
  read := fun bytes => (c.read bytes).map fun (a, rest) => (decode a, rest)
  dom := fun b => ∃ a, encode b = some a ∧ c.dom a ∧ decode a = b
  read_dom := by
    intro bytes v rest isRead
    obtain ⟨⟨a, _⟩, readFirst, same⟩ := Option.map_eq_some_iff.mp isRead
    cases same
    exact closed a (c.read_dom readFirst)
  read_write := by
    intro b ⟨a, isTo, inDom, isFrom⟩ rest
    simp only [isTo, c.read_write inDom]
    split <;> simp [isFrom]

instance (c : Codec α) (encode : β → Option α) (decode : α → β) (closed) [c.Whole] :
    (c.convert encode decode closed).Whole where
  ended := by
    intro b ⟨a, isTo, inDom, _⟩
    simp only [convert, isTo]
    exact Whole.ended inDom

/-- A structure written field by field. -/
def object (c : Codec α) (encode : β → α) (decode : α → β)
    (to_from : ∀ a, encode (decode a) = a) : Codec β :=
  c.convert (fun b => some (encode b)) decode fun a inDom =>
    ⟨a, congrArg some (to_from a), inDom, rfl⟩

instance (c : Codec α) (encode : β → α) (decode : α → β) (to_from) [c.Whole] :
    (c.object encode decode to_from).Whole :=
  inferInstanceAs (c.convert _ _ _).Whole

theorem object_ended (c : Codec α) (encode : β → α) (decode : α → β) (to_from) (b : β) :
    ((c.object encode decode to_from).write b).2 = (c.write (encode b)).2 := rfl

/-! ## Checks -/

/-- The value is tested after it was read, and after it was written. -/
def check (c : Codec α) (accepts : α → Bool) : Codec α where
  write := fun v => ((c.write v).1, (c.write v).2 && accepts v)
  read := fun bytes => (c.read bytes).filter fun (v, _) => accepts v
  dom := c.dom
  read_dom := fun isRead => c.read_dom (Option.filter_eq_some_iff.mp isRead).1
  read_write := by
    intro v inDom rest
    simp only [c.read_write inDom]
    cases (c.write v).2 <;> cases accepted : accepts v <;> simp [accepted]

/-- The same format, about the values that pass the test. -/
def accepted (c : Codec α) (accepts : α → Bool) : Codec α where
  write := (c.check accepts).write
  read := (c.check accepts).read
  dom := fun v => c.dom v ∧ accepts v
  read_dom :=
    fun isRead => ⟨(c.check accepts).read_dom isRead, (Option.filter_eq_some_iff.mp isRead).2⟩
  read_write := fun inDom => (c.check accepts).read_write inDom.1

instance (c : Codec α) (accepts : α → Bool) [c.Whole] : (c.accepted accepts).Whole where
  ended := by
    intro v inDom
    simp only [accepted, check, Whole.ended inDom.1, inDom.2, Bool.and_self]

instance (p : Prop) [Decidable p] (c d : Codec α) [c.Whole] [d.Whole] :
    (if p then c else d).Whole := by
  split <;> infer_instance

/-! ## Constants -/

/-- Nothing is written. -/
def const (v : α) : Codec α where
  write := fun _ => ([], true)
  read := fun bytes => some (v, bytes)
  dom := fun w => w = v
  read_dom := by
    intro bytes w rest isRead
    cases isRead
    rfl
  read_write := by
    intro w same rest
    rw [same]
    rfl

instance (v : α) : (const v).Whole where
  ended := fun _ => rfl

/-! ## Lists -/

def writeAll (c : Codec α) : List α → Bytes × Bool
  | [] => ([], true)
  | v :: vs => andThen (c.write v) (writeAll c vs)

def readAll (c : Codec α) : Nat → Bytes → Option (List α × Bytes)
  | 0, bytes => some ([], bytes)
  | count + 1, bytes =>
      (c.read bytes).bind fun (v, later) => (readAll c count later).map fun (vs, rest) =>
        (v :: vs, rest)

theorem readAll_dom {c : Codec α} {count : Nat} {bytes rest : Bytes} {vs : List α}
    (isRead : c.readAll count bytes = some (vs, rest)) : vs.length = count ∧ ∀ v ∈ vs, c.dom v := by
  induction count generalizing bytes vs with
  | zero =>
      cases isRead
      exact ⟨rfl, by simp⟩
  | succ count inductionHypothesis =>
      obtain ⟨⟨v, later⟩, readFirst, readRest⟩ := Option.bind_eq_some_iff.mp isRead
      obtain ⟨⟨others, _⟩, readLater, same⟩ := Option.map_eq_some_iff.mp readRest
      cases same
      obtain ⟨length, inDom⟩ := inductionHypothesis readLater
      refine ⟨congrArg (· + 1) length, fun w inside => ?_⟩
      obtain rfl | inLater := List.mem_cons.mp inside
      · exact c.read_dom readFirst
      · exact inDom w inLater

theorem readAll_writeAll {c : Codec α} {vs : List α} (inDom : ∀ v ∈ vs, c.dom v) (rest : Bytes) :
    c.readAll vs.length ((c.writeAll vs).1 ++ rest) =
      if (c.writeAll vs).2 then some (vs, rest) else none := by
  induction vs with
  | nil => rfl
  | cons v vs inductionHypothesis =>
      have later := inductionHypothesis fun w inside => inDom w (List.mem_cons_of_mem v inside)
      simp only [writeAll, List.length_cons, readAll, c.read_andThen (inDom v List.mem_cons_self),
        andThen_ended]
      cases (c.write v).2 with
      | false => rfl
      | true =>
          simp only [if_true, Option.bind_some, later, Bool.true_and]
          split <;> rfl

theorem writeAll_ended (c : Codec α) (vs : List α) :
    (c.writeAll vs).2 = vs.all fun v => (c.write v).2 := by
  induction vs with
  | nil => rfl
  | cons v vs inductionHypothesis =>
      rw [writeAll, andThen_ended, inductionHypothesis, List.all_cons]

/-- No value is written as nothing. -/
class Marked (c : Codec α) : Prop where
  write_ne_nil : ∀ v, (c.write v).1 ≠ []

theorem andThen_ne_nil {first : Bytes × Bool} (notEmpty : first.1 ≠ []) (second : Bytes × Bool) :
    (andThen first second).1 ≠ [] := by
  unfold andThen
  split
  · exact List.append_ne_nil_of_left_ne_nil notEmpty _
  · exact notEmpty

instance (c : Codec α) (d : Codec β) [c.Marked] : (c.seq d).Marked where
  write_ne_nil := fun v => andThen_ne_nil (Marked.write_ne_nil v.1) _

instance (c : Codec α) (encode : β → α) (decode : α → β) (encode_decode) [c.Marked] :
    (c.object encode decode encode_decode).Marked where
  write_ne_nil := fun v => Marked.write_ne_nil (c := c) (encode v)

theorem length_le_writeAll {c : Codec α} [c.Marked] {vs : List α}
    (ended : (c.writeAll vs).2 = true) :
    vs.length ≤ (c.writeAll vs).1.length := by
  induction vs with
  | nil => exact Nat.zero_le _
  | cons v vs inductionHypothesis =>
      have marked := List.length_pos_iff.mpr (Marked.write_ne_nil (c := c) v)
      rw [writeAll, andThen_ended, Bool.and_eq_true] at ended
      have later := inductionHypothesis ended.2
      simp only [writeAll, andThen, ended.1, if_true, List.length_cons, List.length_append]
      omega

/-- A number of elements and the elements. A number that is larger than that of the bytes left is
refused, so every element has to leave a mark. -/
def vector (count : Codec Nat) (c : Codec α) [c.Marked] : Codec (List α) where
  write := fun vs => andThen (count.write vs.length) (c.writeAll vs)
  read := fun bytes => (count.read bytes).bind fun (length, later) =>
    if later.length < length then none else c.readAll length later
  dom := fun vs => count.dom vs.length ∧ ∀ v ∈ vs, c.dom v
  read_dom := by
    intro bytes vs rest isRead
    obtain ⟨⟨length, later⟩, readFirst, readRest⟩ := Option.bind_eq_some_iff.mp isRead
    obtain ⟨-, readLater⟩ := Option.ite_none_left_eq_some.mp readRest
    obtain ⟨same, inDom⟩ := readAll_dom readLater
    exact ⟨same ▸ count.read_dom readFirst, inDom⟩
  read_write := by
    intro vs inDom rest
    simp only [count.read_andThen inDom.1, andThen_ended]
    cases (count.write vs.length).2 with
    | false => rfl
    | true =>
        simp only [if_true, Option.bind_some, readAll_writeAll inDom.2, Bool.true_and]
        cases ended : (c.writeAll vs).2 with
        | false => simp
        | true =>
            have enough := length_le_writeAll ended
            rw [if_neg]
            rw [List.length_append]
            omega

instance (count : Codec Nat) (c : Codec α) [c.Marked] [count.Marked] : (vector count c).Marked where
  write_ne_nil := fun vs => andThen_ne_nil (Marked.write_ne_nil vs.length) _

theorem vector_ended (count : Codec Nat) (c : Codec α) [c.Marked] (vs : List α) :
    ((vector count c).write vs).2 =
      ((count.write vs.length).2 && vs.all fun v => (c.write v).2) := by
  rw [← writeAll_ended]
  exact andThen_ended _ _

instance (count : Codec Nat) (c : Codec α) [c.Marked] [count.Whole] [c.Whole] :
    (vector count c).Whole where
  ended := by
    intro vs inDom
    rw [vector_ended, Whole.ended inDom.1, Bool.true_and, List.all_eq_true]
    exact fun v inside => Whole.ended (inDom.2 v inside)

/-! ## Variants -/

/-- The types of a variant in their order, each with its tag. -/
structure Alternatives (α : Type*) where
  tags : List UInt8
  write : α → UInt8 × Bytes × Bool
  read : UInt8 → Bytes → Option (α × Bytes)
  dom : α → Prop
  tag_mem : ∀ v, (write v).1 ∈ tags
  read_of_not_mem : ∀ {tag}, tag ∉ tags → ∀ bytes, read tag bytes = none
  read_dom : ∀ {tag bytes v rest}, read tag bytes = some (v, rest) → dom v
  read_write : ∀ {v}, dom v → ∀ rest,
    read (write v).1 ((write v).2.1 ++ rest) = if (write v).2.2 then some (v, rest) else none

namespace Alternatives

def last (tag : UInt8) (c : Codec α) : Alternatives α where
  tags := [tag]
  write := fun v => (tag, c.write v)
  read := fun t bytes => if tag = t then c.read bytes else none
  dom := c.dom
  tag_mem := fun _ => List.mem_singleton_self tag
  read_of_not_mem := fun notTag _ => if_neg fun same => notTag (List.mem_singleton.mpr same.symm)
  read_dom := by
    intro t bytes v rest isRead
    split at isRead
    · exact c.read_dom isRead
    · cases isRead
  read_write := by
    intro v inDom rest
    rw [if_pos rfl, c.read_write inDom]

def or (tag : UInt8) (c : Codec α) (others : Alternatives β)
    (fresh : tag ∉ others.tags := by decide) :
    Alternatives (α ⊕ β) where
  tags := tag :: others.tags
  write := fun v =>
    match v with
    | .inl a => (tag, c.write a)
    | .inr b => others.write b
  read := fun t bytes =>
    if tag = t then (c.read bytes).map fun (a, rest) => (.inl a, rest)
    else (others.read t bytes).map fun (b, rest) => (.inr b, rest)
  dom := fun v =>
    match v with
    | .inl a => c.dom a
    | .inr b => others.dom b
  tag_mem := by
    intro v
    cases v with
    | inl a => exact List.mem_cons_self
    | inr b => exact List.mem_cons_of_mem tag (others.tag_mem b)
  read_of_not_mem := by
    intro t notTag bytes
    rw [List.mem_cons, not_or] at notTag
    rw [if_neg (Ne.symm notTag.1), others.read_of_not_mem notTag.2, Option.map_none]
  read_dom := by
    intro t bytes v rest isRead
    split at isRead
    · obtain ⟨⟨a, _⟩, readFirst, same⟩ := Option.map_eq_some_iff.mp isRead
      cases same
      exact c.read_dom readFirst
    · obtain ⟨⟨b, _⟩, readOther, same⟩ := Option.map_eq_some_iff.mp isRead
      cases same
      exact others.read_dom readOther
  read_write := by
    intro v inDom rest
    cases v with
    | inl a =>
        simp only [if_true, c.read_write inDom]
        split <;> simp
    | inr b =>
        have different : tag ≠ (others.write b).1 := by
          intro same
          exact fresh (same ▸ others.tag_mem b)
        simp only [if_neg different, others.read_write inDom]
        split <;> simp

class Whole (alternatives : Alternatives α) : Prop where
  ended : ∀ {v}, alternatives.dom v → (alternatives.write v).2.2 = true

instance (tag : UInt8) (c : Codec α) [c.Whole] : (last tag c).Whole where
  ended := fun inDom => Codec.Whole.ended (c := c) inDom

instance (tag : UInt8) (c : Codec α) (others : Alternatives β) (fresh) [c.Whole] [others.Whole] :
    (or tag c others fresh).Whole where
  ended := by
    intro v inDom
    cases v with
    | inl a => exact Codec.Whole.ended (c := c) inDom
    | inr b =>
        have ended : (others.write b).2.2 = true := Whole.ended inDom
        exact ended

end Alternatives

/-- The tag of the type and the value. -/
def variant (alternatives : Alternatives α) : Codec α where
  write :=
    fun v => ((alternatives.write v).1 :: (alternatives.write v).2.1, (alternatives.write v).2.2)
  read := fun bytes =>
    match bytes with
    | [] => none
    | tag :: later => alternatives.read tag later
  dom := alternatives.dom
  read_dom := by
    intro bytes v rest isRead
    cases bytes with
    | nil => cases isRead
    | cons tag later => exact alternatives.read_dom isRead
  read_write := fun inDom rest => alternatives.read_write inDom rest

instance (alternatives : Alternatives α) : (variant alternatives).Marked where
  write_ne_nil := fun _ => List.cons_ne_nil _ _

instance (alternatives : Alternatives α) [alternatives.Whole] : (variant alternatives).Whole where
  ended := by
    intro v inDom
    have ended : (alternatives.write v).2.2 = true := Alternatives.Whole.ended inDom
    exact ended

end Codec
