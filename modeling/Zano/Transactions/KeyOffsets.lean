import Mathlib

/-! # Key offsets

An input refers to the outputs of its ring by global indexes or by transaction ids. The indexes come
first, in ascending order, and each but the first is written as the difference to the one before it.

Two functions write differences and one reads them. `std::sort` keeps no order among entries of
which none is before the other, so here it is any function that sorts.
-/

namespace Zano.KeyOffsets

inductive TxoutRefV (RefById : Type*) where
  | globalIndex (index : UInt64)
  | refById (ref : RefById)
  deriving DecidableEq, Repr

structure OutputEntry (RefById PublicKey : Type*) where
  outReference : TxoutRefV RefById
  stealthAddress : PublicKey
  concealingPoint : PublicKey
  amountCommitment : PublicKey
  blindedAssetId : PublicKey
  deriving DecidableEq, Repr

variable {RefById PublicKey : Type*}

def TxoutRefV.isRef : TxoutRefV RefById → Bool
  | .globalIndex _ => false
  | .refById _ => true

/-! ## Reading -/

/-- The loop of `relative_output_offsets_to_absolute`, after an entry that is absolute already. It
throws when the entry before an index is not an index. -/
def addPrevious : TxoutRefV RefById → List (TxoutRefV RefById) → Option (List (TxoutRefV RefById))
  | _, [] => some []
  | _, .refById ref :: rest => some (.refById ref :: rest)
  | .refById _, .globalIndex _ :: _ => none
  | .globalIndex previous, .globalIndex offset :: rest =>
      (addPrevious (.globalIndex (offset + previous)) rest).map
        (.globalIndex (offset + previous) :: ·)

/-- Nothing when an exception is thrown. -/
def relativeOutputOffsetsToAbsolute : List (TxoutRefV RefById) → Option (List (TxoutRefV RefById))
  | [] => some []
  | first :: rest => (addPrevious first rest).map (first :: ·)

/-! ## Writing -/

/-- From the last entry to the second one. What is behind the entry that is refused
has been changed. -/
def subtractPrevious : List (TxoutRefV RefById) → Bool × List (TxoutRefV RefById)
  | [] => (true, [])
  | [first] => (true, [first])
  | previous :: current :: rest =>
      match subtractPrevious (current :: rest) with
      | (false, changed) => (false, previous :: changed)
      | (true, changed) =>
          match current, previous with
          | .globalIndex offset, .globalIndex offsetBefore =>
              if offset ≤ offsetBefore then (false, previous :: changed)
              else (true, previous :: .globalIndex (offset - offsetBefore) :: changed.tail)
          | _, _ => (false, previous :: changed)

def absoluteSortedOutputOffsetsToRelativeInPlace (offsets : List (TxoutRefV RefById)) :
    Bool × List (TxoutRefV RefById) :=
  if offsets.length < 2 then (true, offsets)
  else
    let (ok, changed) := subtractPrevious (offsets.rdropWhile TxoutRefV.isRef)
    (ok, changed ++ offsets.rtakeWhile TxoutRefV.isRef)

/-! ## Preparing the entries of a ring -/

def sizeMax : Nat := 0xffffffffffffffff

/-- The comparison of the sort. -/
def before (lhs rhs : OutputEntry RefById PublicKey) : Bool :=
  match lhs.outReference, rhs.outReference with
  | .globalIndex index, .globalIndex other => index < other
  | .globalIndex _, .refById _ => true
  | .refById _, _ => false

/-- What is known of `std::sort`. -/
def Sorts (sort : List (OutputEntry RefById PublicKey) → List (OutputEntry RefById PublicKey)) :
    Prop :=
  ∀ entries, (sort entries).Perm entries ∧ (sort entries).Pairwise fun lhs rhs =>
    before rhs lhs = false

/-- As `subtractPrevious`, without the check of the order. -/
def subtractPreviousEntry :
    List (OutputEntry RefById PublicKey) → Option (List (OutputEntry RefById PublicKey))
  | [] => some []
  | [first] => some [first]
  | previous :: current :: rest =>
      (subtractPreviousEntry (current :: rest)).bind fun changed =>
        match current.outReference, previous.outReference with
        | .globalIndex offset, .globalIndex offsetBefore =>
            some (previous :: { current with
              outReference := .globalIndex (offset - offsetBefore) } :: changed.tail)
        | _, _ => none

variable [DecidableEq RefById]

/-- The entries and the value of `new_real_index`. An exception leaves no entries. -/
def prepareOutputsEntriesForKeyOffsets
    (sort : List (OutputEntry RefById PublicKey) → List (OutputEntry RefById PublicKey))
    (outputs : List (OutputEntry RefById PublicKey)) (oldRealIndex newRealIndex : Nat) :
    List (OutputEntry RefById PublicKey) × Nat :=
  if outputs.length < 2 then (outputs, oldRealIndex)
  else
    let result := sort outputs
    let restored : Option Nat :=
      if oldRealIndex = sizeMax then some newRealIndex
      else outputs[oldRealIndex]?.bind fun own =>
        result.findIdx? (·.outReference = own.outReference)
    match restored with
    | none => ([], newRealIndex)
    | some index =>
        let isRef (e : OutputEntry RefById PublicKey) := e.outReference.isRef
        match subtractPreviousEntry (result.rdropWhile isRef) with
        | none => ([], index)
        | some changed => (changed ++ result.rtakeWhile isRef, index)

/-! ## Differences -/

def differences (previous : UInt64) : List UInt64 → List UInt64
  | [] => []
  | index :: rest => (index - previous) :: differences index rest

/-- The first index stays. -/
def relative : List UInt64 → List UInt64
  | [] => []
  | first :: rest => first :: differences first rest

variable {indexes : List UInt64} {refs : List RefById} {offsets : List (TxoutRefV RefById)}

theorem length_differences (previous : UInt64) :
    (differences previous indexes).length = indexes.length := by
  induction indexes generalizing previous with
  | nil => rfl
  | cons index rest inductionHypothesis => simp [differences, inductionHypothesis]

theorem length_relative : (relative indexes).length = indexes.length := by
  cases indexes with
  | nil => rfl
  | cons first rest => simp [relative, length_differences]

/-- Indexes, and then references by id. -/
def mixed (indexes : List UInt64) (refs : List RefById) : List (TxoutRefV RefById) :=
  indexes.map .globalIndex ++ refs.map .refById

omit [DecidableEq RefById] in
theorem addPrevious_refs (previous : TxoutRefV RefById) :
    addPrevious previous (refs.map .refById) = some (refs.map .refById) := by
  cases refs with
  | nil => simp [addPrevious]
  | cons ref rest => simp [addPrevious]

omit [DecidableEq RefById] in
theorem addPrevious_differences (previous : UInt64) :
    addPrevious (.globalIndex previous) (mixed (differences previous indexes) refs) =
      some (mixed indexes refs) := by
  induction indexes generalizing previous with
  | nil => exact addPrevious_refs _
  | cons index rest inductionHypothesis =>
      have sum : index - previous + previous = index := by simp
      simp only [mixed, differences, List.map_cons, List.cons_append, addPrevious, sum]
      have later := inductionHypothesis index
      simp only [mixed] at later
      rw [later, Option.map_some]

omit [DecidableEq RefById] in
/-- Differences are read back whatever the order of the indexes is. -/
theorem absolute_relative : relativeOutputOffsetsToAbsolute (mixed (relative indexes) refs) =
    some (mixed indexes refs) := by
  cases indexes with
  | nil =>
      cases refs with
      | nil => rfl
      | cons ref rest => simp [mixed, relative, relativeOutputOffsetsToAbsolute, addPrevious_refs]
  | cons first rest =>
      have later := @addPrevious_differences RefById rest refs first
      simp only [mixed] at later
      simp only [mixed, relative, List.map_cons, List.cons_append,
        relativeOutputOffsetsToAbsolute, later, Option.map_some]

omit [DecidableEq RefById] in
theorem relativeOutputOffsetsToAbsolute_eq_none :
    relativeOutputOffsetsToAbsolute offsets = none ↔
      ∃ ref index rest, offsets = .refById ref :: .globalIndex index :: rest := by
  have never (previous : UInt64) (rest : List (TxoutRefV RefById)) :
      addPrevious (.globalIndex previous) rest ≠ none := by
    induction rest generalizing previous with
    | nil => simp [addPrevious]
    | cons current rest inductionHypothesis =>
        cases current with
        | refById ref => simp [addPrevious]
        | globalIndex offset =>
            rw [addPrevious, ne_eq, Option.map_eq_none_iff]
            exact inductionHypothesis _
  cases offsets with
  | nil => simp [relativeOutputOffsetsToAbsolute]
  | cons first rest =>
      rw [relativeOutputOffsetsToAbsolute, Option.map_eq_none_iff]
      cases first with
      | globalIndex index => simp [never index rest]
      | refById ref =>
          cases rest with
          | nil => simp [addPrevious]
          | cons current rest => cases current <;> simp [addPrevious]

/-! ## Sorted offsets -/

theorem rdropWhile_append {α : Type*} {p : α → Bool} {front back : List α}
    (stays : ∀ a ∈ front, p a = false) (goes : ∀ a ∈ back, p a = true) :
    (front ++ back).rdropWhile p = front := by
  rw [List.rdropWhile, List.reverse_append, List.dropWhile_append_of_pos (by simpa using goes)]
  cases reversed : front.reverse with
  | nil => rw [List.dropWhile_nil, ← reversed, List.reverse_reverse]
  | cons last rest =>
      have inside : last ∈ front := by
        rw [← List.mem_reverse, reversed]
        exact List.mem_cons_self
      rw [List.dropWhile_cons_of_neg (by simp [stays last inside]), ← reversed,
        List.reverse_reverse]

theorem rtakeWhile_append {α : Type*} {p : α → Bool} {front back : List α}
    (stays : ∀ a ∈ front, p a = false) (goes : ∀ a ∈ back, p a = true) :
    (front ++ back).rtakeWhile p = back := by
  have whole : (front ++ back).rdropWhile p ++ (front ++ back).rtakeWhile p = front ++ back :=
    List.rdropWhile_append_rtakeWhile
  rw [rdropWhile_append stays goes] at whole
  exact List.append_cancel_left whole

/-- Increasing indexes, and then references by id. -/
def Increasing (offsets : List (TxoutRefV RefById)) : Prop :=
  ∃ (indexes : List UInt64) (refs : List RefById), indexes.Pairwise (· < ·) ∧
    offsets = mixed indexes refs

omit [DecidableEq RefById] in
theorem subtractPrevious_of_increasing (increasing : indexes.Pairwise (· < ·)) :
    subtractPrevious (indexes.map (@TxoutRefV.globalIndex RefById)) =
      (true, (relative indexes).map .globalIndex) := by
  induction indexes with
  | nil => rfl
  | cons first rest inductionHypothesis =>
      cases rest with
      | nil => rfl
      | cons second rest =>
          have later := inductionHypothesis increasing.of_cons
          have ordered : ¬second ≤ first :=
            UInt64.not_le.mpr (List.rel_of_pairwise_cons increasing List.mem_cons_self)
          simp only [List.map_cons] at later
          simp only [List.map_cons, subtractPrevious, later, if_neg ordered, relative, differences,
            List.tail_cons]

omit [DecidableEq RefById] in
theorem increasing_of_subtractPrevious (ok : (subtractPrevious offsets).1 = true)
    (isIndex : ∀ last ∈ offsets.getLast?, last.isRef = false) :
    ∃ indexes : List UInt64, indexes.Pairwise (· < ·) ∧ offsets = indexes.map .globalIndex := by
  induction offsets with
  | nil => exact ⟨[], List.Pairwise.nil, rfl⟩
  | cons first rest inductionHypothesis =>
      cases rest with
      | nil =>
          cases first with
          | globalIndex index => exact ⟨[index], List.pairwise_singleton _ _, rfl⟩
          | refById ref => simp [TxoutRefV.isRef] at isIndex
      | cons second rest =>
          rw [subtractPrevious] at ok
          cases result : subtractPrevious (second :: rest) with
          | mk good changed =>
              rw [result] at ok inductionHypothesis
              cases good with
              | false => cases ok
              | true =>
                  obtain ⟨indexes, increasing, same⟩ :=
                    inductionHypothesis rfl (by simpa using isIndex)
                  cases indexes with
                  | nil => cases same
                  | cons index indexes =>
                      rw [List.map_cons, List.cons.injEq] at same
                      obtain ⟨rfl, rfl⟩ := same
                      cases first with
                      | refById ref => simp at ok
                      | globalIndex previous =>
                          simp only at ok
                          split at ok
                          · cases ok
                          · rename_i ordered
                            refine ⟨previous :: index :: indexes, ?_, rfl⟩
                            have less : previous < index := UInt64.not_le.mp ordered
                            refine List.pairwise_cons.mpr ⟨fun other inside => ?_, increasing⟩
                            obtain rfl | later := List.mem_cons.mp inside
                            · exact less
                            · exact UInt64.lt_trans less
                                (List.rel_of_pairwise_cons increasing later)

omit [DecidableEq RefById] in
theorem index_notRef (xs : List UInt64) :
    ∀ r ∈ xs.map (@TxoutRefV.globalIndex RefById), r.isRef = false := by
  simp [TxoutRefV.isRef]

omit [DecidableEq RefById] in
theorem refById_isRef (rs : List RefById) : ∀ r ∈ rs.map TxoutRefV.refById, r.isRef = true := by
  simp [TxoutRefV.isRef]

omit [DecidableEq RefById] in
/-- References by id only. -/
theorem eq_refs {rs : List (TxoutRefV RefById)} (all : ∀ r ∈ rs, r.isRef = true) :
    ∃ refs : List RefById, rs = refs.map .refById := by
  induction rs with
  | nil => exact ⟨[], rfl⟩
  | cons r rs inductionHypothesis =>
      obtain ⟨refs, rfl⟩ :=
        inductionHypothesis fun other inside => all other (List.mem_cons_of_mem r inside)
      cases r with
      | globalIndex index =>
          have := all _ List.mem_cons_self
          cases this
      | refById ref => exact ⟨ref :: refs, rfl⟩

omit [DecidableEq RefById] in
theorem relativeInPlace_mixed (increasing : indexes.Pairwise (· < ·)) :
    absoluteSortedOutputOffsetsToRelativeInPlace (mixed indexes refs) =
      (true, mixed (relative indexes) refs) := by
  rw [absoluteSortedOutputOffsetsToRelativeInPlace]
  split
  · rename_i short
    have same : relative indexes = indexes := by
      cases indexes with
      | nil => rfl
      | cons first rest =>
          cases rest with
          | nil => rfl
          | cons second rest => simp [mixed] at short
    rw [same]
  · simp only [mixed, rdropWhile_append (index_notRef indexes) (refById_isRef refs),
      rtakeWhile_append (index_notRef indexes) (refById_isRef refs),
        subtractPrevious_of_increasing increasing]

omit [DecidableEq RefById] in
theorem relativeInPlace_ok_iff :
    (absoluteSortedOutputOffsetsToRelativeInPlace offsets).1 = true ↔ Increasing offsets := by
  constructor
  · intro ok
    rw [absoluteSortedOutputOffsetsToRelativeInPlace] at ok
    split at ok
    · rename_i short
      cases offsets with
      | nil => exact ⟨[], [], List.Pairwise.nil, rfl⟩
      | cons first rest =>
          cases rest with
          | nil =>
              cases first with
              | globalIndex index => exact ⟨[index], [], List.pairwise_singleton _ _, rfl⟩
              | refById ref => exact ⟨[], [ref], List.Pairwise.nil, rfl⟩
          | cons second rest => simp at short
    · have whole :
          offsets.rdropWhile TxoutRefV.isRef ++ offsets.rtakeWhile TxoutRefV.isRef = offsets :=
        List.rdropWhile_append_rtakeWhile
      obtain ⟨refs, isRefs⟩ := eq_refs fun r (inside : r ∈ offsets.rtakeWhile TxoutRefV.isRef) =>
        List.mem_rtakeWhile_imp inside
      obtain ⟨indexes, increasing, isIndexes⟩ := increasing_of_subtractPrevious ok (by
        intro last isLast
        obtain ⟨notNil, rfl⟩ := List.mem_getLast?_eq_getLast isLast
        simpa using List.rdropWhile_last_not TxoutRefV.isRef offsets notNil)
      rw [isRefs, isIndexes] at whole
      exact ⟨indexes, refs, increasing, whole.symm⟩
  · rintro ⟨indexes, refs, increasing, rfl⟩
    rw [relativeInPlace_mixed increasing]

/-! ## Sorted entries -/

def OutputEntry.isRef (e : OutputEntry RefById PublicKey) : Bool := e.outReference.isRef

def OutputEntry.withReference (e : OutputEntry RefById PublicKey) (r : TxoutRefV RefById) :
    OutputEntry RefById PublicKey :=
  { e with outReference := r }

section Entries

variable {entries outputs : List (OutputEntry RefById PublicKey)}
  {e other : OutputEntry RefById PublicKey}

def NotAfter (lhs rhs : OutputEntry RefById PublicKey) : Prop := before rhs lhs = false

instance : DecidableRel (@NotAfter RefById PublicKey) :=
  fun lhs rhs => inferInstanceAs (Decidable (before rhs lhs = false))

omit [DecidableEq RefById] in
theorem exists_indexes {front : List (OutputEntry RefById PublicKey)}
    (all : ∀ e ∈ front, e.isRef = false) :
    ∃ indexes : List UInt64, front.map (·.outReference) = indexes.map .globalIndex := by
  induction front with
  | nil => exact ⟨[], rfl⟩
  | cons e front inductionHypothesis =>
      obtain ⟨indexes, same⟩ :=
        inductionHypothesis fun other inside => all other (List.mem_cons_of_mem e inside)
      cases isReference : e.outReference with
      | globalIndex index =>
          exact ⟨index :: indexes, by rw [List.map_cons, isReference, same, List.map_cons]⟩
      | refById ref =>
          have := all e List.mem_cons_self
          rw [OutputEntry.isRef, isReference] at this
          cases this

omit [DecidableEq RefById] in
/-- Sorted entries have their indexes first. -/
theorem exists_split (sorted : entries.Pairwise NotAfter) :
    ∃ front back, entries = front ++ back ∧ (∀ e ∈ front, e.isRef = false) ∧
      (∀ e ∈ back, e.isRef = true) := by
  induction entries with
  | nil => exact ⟨[], [], rfl, by simp, by simp⟩
  | cons e entries inductionHypothesis =>
      obtain ⟨front, back, rfl, indexes, refs⟩ := inductionHypothesis sorted.of_cons
      cases isRef : e.isRef with
      | false =>
          exact ⟨e :: front, back, rfl, by simpa [isRef] using indexes, refs⟩
      | true =>
          -- nothing that has an index comes after a reference by id
          have noFront : front = [] := by
            refine List.eq_nil_iff_forall_not_mem.mpr fun other inside => ?_
            have notAfter := List.rel_of_pairwise_cons sorted (List.mem_append_left back inside)
            have otherIndex := indexes other inside
            cases isOther : other.outReference with
            | refById ref => simp [OutputEntry.isRef, isOther, TxoutRefV.isRef] at otherIndex
            | globalIndex index =>
                cases isOwn : e.outReference with
                | globalIndex own => simp [OutputEntry.isRef, isOwn, TxoutRefV.isRef] at isRef
                | refById own => simp [NotAfter, before, isOther, isOwn] at notAfter
          rw [noFront]
          exact ⟨[], e :: back, rfl, by simp, by simpa [isRef] using refs⟩

omit [DecidableEq RefById] in
theorem subtractPreviousEntry_eq {front : List (OutputEntry RefById PublicKey)}
    (references : front.map (·.outReference) = indexes.map .globalIndex) :
    subtractPreviousEntry front =
      some (List.zipWith OutputEntry.withReference front
        ((relative indexes).map .globalIndex)) := by
  induction front generalizing indexes with
  | nil => rfl
  | cons first front inductionHypothesis =>
      cases indexes with
      | nil => cases references
      | cons index indexes =>
          obtain ⟨isFirst, later⟩ := List.cons_eq_cons.mp references
          have kept : first.withReference (.globalIndex index) = first := by
            rw [OutputEntry.withReference, ← isFirst]
          cases front with
          | nil =>
              cases indexes with
              | nil => simp [subtractPreviousEntry, relative, differences, kept]
              | cons other indexes => cases later
          | cons second front =>
              cases indexes with
              | nil => cases later
              | cons other indexes =>
                  obtain ⟨isSecond, -⟩ := List.cons_eq_cons.mp later
                  simp only [subtractPreviousEntry, inductionHypothesis later, Option.bind_some,
                    isFirst, isSecond, relative, differences, List.map_cons, List.zipWith_cons_cons,
                    kept, List.tail_cons]
                  rfl

/-- The entries with the references that a reader finds. -/
def withAbsoluteReferences (entries : List (OutputEntry RefById PublicKey)) :
    Option (List (OutputEntry RefById PublicKey)) :=
  (relativeOutputOffsetsToAbsolute (entries.map (·.outReference))).map
    (List.zipWith OutputEntry.withReference entries)

omit [DecidableEq RefById] in
theorem zipWith_own (entries : List (OutputEntry RefById PublicKey)) :
    List.zipWith OutputEntry.withReference entries (entries.map (·.outReference)) = entries := by
  induction entries with
  | nil => rfl
  | cons e entries inductionHypothesis => simp [OutputEntry.withReference, inductionHypothesis]

omit [DecidableEq RefById] in
theorem map_withReference (references : List (TxoutRefV RefById))
    (same : entries.length = references.length) :
    (List.zipWith OutputEntry.withReference entries references).map (·.outReference) =
      references := by
  induction entries generalizing references with
  | nil => cases references with
      | nil => rfl
      | cons r references => cases same
  | cons e entries inductionHypothesis =>
      cases references with
      | nil => cases same
      | cons r references =>
          have later := inductionHypothesis references (by simpa using same)
          simp [later, OutputEntry.withReference]

omit [DecidableEq RefById] in
theorem withReference_withReference (references others : List (TxoutRefV RefById))
    (same : references.length = entries.length) :
    List.zipWith OutputEntry.withReference
      (List.zipWith OutputEntry.withReference entries references) others =
      List.zipWith OutputEntry.withReference entries others := by
  induction entries generalizing references others with
  | nil => rfl
  | cons e entries inductionHypothesis =>
      cases references with
      | nil => cases same
      | cons r references =>
          cases others with
          | nil => rfl
          | cons other others =>
              have later := inductionHypothesis references others (by simpa using same)
              simp [later, OutputEntry.withReference]

omit [DecidableEq RefById] in
theorem sorted_indexes (sorted : entries.Pairwise NotAfter)
    (references : entries.map (·.outReference) = indexes.map .globalIndex) :
    indexes.Pairwise (· ≤ ·) := by
  induction entries generalizing indexes with
  | nil =>
      cases indexes with
      | nil => exact List.Pairwise.nil
      | cons index indexes => cases references
  | cons e entries inductionHypothesis =>
      cases indexes with
      | nil => cases references
      | cons index indexes =>
          obtain ⟨isFirst, later⟩ := List.cons_eq_cons.mp references
          refine List.pairwise_cons.mpr ⟨fun next inside =>
            ?_, inductionHypothesis sorted.of_cons later⟩
          have found : TxoutRefV.globalIndex next ∈ entries.map (·.outReference) := by
            rw [later]
            exact List.mem_map_of_mem inside
          obtain ⟨other, among, isNext⟩ := List.mem_map.mp found
          have notAfter := List.rel_of_pairwise_cons sorted among
          simp only at isFirst isNext
          simpa [NotAfter, before, isFirst, isNext, UInt64.not_lt] using notAfter

omit [DecidableEq RefById] in
/-- The entries that are written are read back as the sorted ones. -/
theorem withAbsoluteReferences_sorted (sorted : entries.Pairwise NotAfter) :
    ∃ changed, subtractPreviousEntry (entries.rdropWhile OutputEntry.isRef) = some changed ∧
      withAbsoluteReferences (changed ++ entries.rtakeWhile OutputEntry.isRef) = some entries ∧
      ∃ (indexes : List UInt64) (refs : List RefById),
        entries.map (·.outReference) = mixed indexes refs ∧ indexes.Pairwise (· ≤ ·) := by
  obtain ⟨front, back, rfl, allIndexes, allRefs⟩ := exists_split sorted
  obtain ⟨indexes, isFront⟩ := exists_indexes allIndexes
  obtain ⟨refs, isBack⟩ : ∃ refs : List RefById, back.map (·.outReference) = refs.map .refById :=
    eq_refs (by simpa [OutputEntry.isRef] using allRefs)
  rw [rdropWhile_append allIndexes allRefs, rtakeWhile_append allIndexes allRefs,
    subtractPreviousEntry_eq isFront]
  have whole : (front ++ back).map (·.outReference) = mixed indexes refs := by
    rw [List.map_append, isFront, isBack, mixed]
  have sameLength :
      front.length = ((relative indexes).map (@TxoutRefV.globalIndex RefById)).length := by
    have lengths := congrArg List.length isFront
    simpa [length_relative] using lengths
  refine ⟨_, rfl, ?_, indexes, refs, whole,
    sorted_indexes (List.pairwise_append.mp sorted).1 isFront⟩
  have written : (List.zipWith OutputEntry.withReference front
      ((relative indexes).map .globalIndex) ++ back).map
      (·.outReference) = mixed (relative indexes) refs := by
    rw [List.map_append, map_withReference _ sameLength, isBack, mixed]
  rw [withAbsoluteReferences, written, absolute_relative, Option.map_some,
    mixed, ← isFront, ← isBack, List.zipWith_append (by simp [sameLength]),
    withReference_withReference _ _ sameLength.symm, zipWith_own, zipWith_own]

omit [DecidableEq RefById] in
theorem before_irrefl (same : other.outReference = e.outReference) : before other e = false := by
  rw [before, same]
  cases e.outReference with
  | globalIndex index => simp
  | refById ref => rfl

omit [DecidableEq RefById] in
theorem isRef_of_before (isBefore : before other e = true) : other.isRef = false := by
  unfold before at isBefore
  cases reference : other.outReference with
  | globalIndex index => simp [OutputEntry.isRef, TxoutRefV.isRef, reference]
  | refById ref => simp [reference] at isBefore

instance totalNotAfter : Std.Total (@NotAfter RefById PublicKey) where
  total lhs rhs := by
    unfold NotAfter before
    cases lhs.outReference <;> cases rhs.outReference <;> simp [UInt64.le_total]

instance transNotAfter : IsTrans (OutputEntry RefById PublicKey) NotAfter where
  trans a b c := by
    unfold NotAfter before
    cases a.outReference <;> cases b.outReference <;> cases c.outReference <;> simp
    exact fun first second => UInt64.le_trans first second

open Classical in
/-- A sort that puts `e` as far to the front as it may stand. -/
noncomputable def sortFirst (e : OutputEntry RefById PublicKey)
    (entries : List (OutputEntry RefById PublicKey)) :
    List (OutputEntry RefById PublicKey) :=
  if e ∈ entries then ((entries.erase e).insertionSort NotAfter).orderedInsert NotAfter e
  else entries.insertionSort NotAfter

open Classical in
theorem sorts_sortFirst : Sorts (sortFirst e) := by
  intro entries
  unfold sortFirst
  split
  · rename_i inside
    constructor
    · exact (List.perm_orderedInsert _ _ _).trans
        (((List.perm_insertionSort _ _).cons e).trans (List.perm_cons_erase inside).symm)
    · exact (List.pairwise_insertionSort NotAfter _).orderedInsert e _
  · exact ⟨List.perm_insertionSort _ _, List.pairwise_insertionSort NotAfter _⟩

theorem sortFirst_eq (inside : e ∈ entries) :
    ∃ front back, sortFirst e entries = front ++ e :: back ∧
      ∀ other ∈ front, before other e = true := by
  rw [sortFirst, if_pos inside, List.orderedInsert_eq_take_drop]
  refine ⟨_, _, rfl, fun other among => ?_⟩
  simpa [NotAfter] using List.mem_takeWhile_imp among

/-! ## The codec -/

/-- What is expected of the entries and of the index that come from preparing `outputs`. -/
def Prepared (outputs : List (OutputEntry RefById PublicKey)) (oldRealIndex : Nat)
    (result : List (OutputEntry RefById PublicKey) × Nat) : Prop :=
  ∃ absolute, withAbsoluteReferences result.1 = some absolute ∧ absolute.Perm outputs ∧
    (∃ (indexes : List UInt64) (refs : List RefById),
      absolute.map (·.outReference) = mixed indexes refs ∧ indexes.Pairwise (· ≤ ·)) ∧
    absolute.filter OutputEntry.isRef = outputs.filter OutputEntry.isRef ∧
    (oldRealIndex ≠ sizeMax → absolute[result.2]? = outputs[oldRealIndex]?)

variable {sort : List (OutputEntry RefById PublicKey) → List (OutputEntry RefById PublicKey)}
  {oldRealIndex newRealIndex : Nat}

theorem prepare_eq (newRealIndex : Nat) (long : 2 ≤ outputs.length)
    (known : oldRealIndex = sizeMax ∨ oldRealIndex < outputs.length) (sorts : Sorts sort) :
    ∃ changed index, prepareOutputsEntriesForKeyOffsets sort outputs oldRealIndex newRealIndex =
      (changed, index) ∧
      withAbsoluteReferences changed = some (sort outputs) ∧
      (oldRealIndex ≠ sizeMax → ∀ own, outputs[oldRealIndex]? = some own →
        (sort outputs)[index]? = (sort outputs).find? (·.outReference = own.outReference)) := by
  obtain ⟨perm, sorted⟩ := sorts outputs
  obtain ⟨changed, subtracted, reads, -⟩ := withAbsoluteReferences_sorted sorted
  have written : subtractPreviousEntry ((sort outputs).rdropWhile fun e => e.outReference.isRef) =
      some changed :=
    subtracted
  rw [prepareOutputsEntriesForKeyOffsets, if_neg (by omega)]
  by_cases none : oldRealIndex = sizeMax
  · refine ⟨_, newRealIndex, ?_, reads, fun some => absurd none some⟩
    simp only [if_pos none, written]
    rfl
  · have inRange : oldRealIndex < outputs.length := known.resolve_left none
    obtain ⟨own, isOwn⟩ : ∃ own, outputs[oldRealIndex]? = some own :=
      ⟨_, List.getElem?_eq_getElem inRange⟩
    have inside : own ∈ sort outputs := perm.mem_iff.mpr (List.mem_of_getElem? isOwn)
    obtain ⟨index, found⟩ : ∃ index, (sort outputs).findIdx? (·.outReference = own.outReference) =
        some index := by
      rw [← Option.isSome_iff_exists, List.findIdx?_isSome, List.any_eq_true]
      exact ⟨own, inside, by simp⟩
    refine ⟨_, index, ?_, reads, fun _ other isOther => ?_⟩
    · simp only [if_neg none, isOwn, Option.bind_some, found, written]
      rfl
    · obtain rfl : own = other := Option.some.inj (isOwn.symm.trans isOther)
      rw [List.find?_eq_bind_findIdx?_getElem?, found, Option.bind_some]

theorem prepared_of_short (short : outputs.length < 2) :
    Prepared outputs oldRealIndex
      (prepareOutputsEntriesForKeyOffsets sort outputs oldRealIndex newRealIndex) := by
  rw [prepareOutputsEntriesForKeyOffsets, if_pos short]
  cases outputs with
  | nil => exact ⟨[], rfl, List.Perm.refl _, ⟨[], [], rfl, List.Pairwise.nil⟩, rfl, fun _ => rfl⟩
  | cons e rest =>
      obtain rfl : rest = [] := List.length_eq_zero_iff.mp (by simpa using short)
      refine ⟨[e], rfl, List.Perm.refl _, ?_, rfl, fun _ => rfl⟩
      cases reference : e.outReference with
      | globalIndex index =>
          exact ⟨[index], [], by simp [mixed, reference], List.pairwise_singleton _ _⟩
      | refById ref => exact ⟨[], [ref], by simp [mixed, reference], List.Pairwise.nil⟩

/-- When no order that a sort may choose makes a difference. -/
def Unambiguous (outputs : List (OutputEntry RefById PublicKey)) (oldRealIndex : Nat) : Prop :=
  (∀ e ∈ outputs, ∀ other ∈ outputs, e.isRef = true → other.isRef = true → e = other) ∧
    (oldRealIndex ≠ sizeMax → ∀ own, outputs[oldRealIndex]? = some own →
      ∀ e ∈ outputs, e.outReference = own.outReference → e = own)

theorem prepared_of_unambiguous (known : oldRealIndex = sizeMax ∨ oldRealIndex < outputs.length)
    (sorts : Sorts sort) (unambiguous : Unambiguous outputs oldRealIndex) :
    Prepared outputs oldRealIndex
      (prepareOutputsEntriesForKeyOffsets sort outputs oldRealIndex newRealIndex) := by
  by_cases short : outputs.length < 2
  · exact prepared_of_short short
  · obtain ⟨changed, index, prepared, reads, finds⟩ :=
      prepare_eq newRealIndex (by omega) known sorts
    obtain ⟨perm, sorted⟩ := sorts outputs
    obtain ⟨-, -, -, mixes⟩ := withAbsoluteReferences_sorted sorted
    obtain ⟨sameRefs, sameReal⟩ := unambiguous
    rw [prepared]
    refine ⟨_, reads, perm, mixes, ?_, fun real => ?_⟩
    · have permRefs := perm.filter OutputEntry.isRef
      refine permRefs.eq_of_pairwise (fun a b among inside _ _ => ?_)
        (List.pairwise_of_forall fun _ _ => trivial)
        (List.pairwise_of_forall fun _ _ => trivial)
      obtain ⟨ofSorted, aRef⟩ := List.mem_filter.mp among
      obtain ⟨ofOutputs, bRef⟩ := List.mem_filter.mp inside
      exact sameRefs a (perm.mem_iff.mp ofSorted) b ofOutputs aRef bRef
    · have inRange : oldRealIndex < outputs.length := known.resolve_left real
      have isOwn : outputs[oldRealIndex]? = some outputs[oldRealIndex] :=
        List.getElem?_eq_getElem inRange
      rw [finds real _ isOwn, isOwn]
      have inside : outputs[oldRealIndex] ∈ sort outputs :=
        perm.mem_iff.mpr (List.mem_of_getElem? isOwn)
      cases found : (sort outputs).find? (·.outReference = outputs[oldRealIndex].outReference) with
      | none => simpa using List.find?_eq_none.mp found _ inside
      | some e =>
          have same := sameReal real _ isOwn e (perm.mem_iff.mp (List.mem_of_find?_eq_some found))
          rw [same (by simpa using List.find?_some found)]

theorem unambiguous_of_prepared (known : oldRealIndex = sizeMax ∨ oldRealIndex < outputs.length)
    (prepared : ∀ sort, Sorts sort →
      Prepared outputs oldRealIndex
        (prepareOutputsEntriesForKeyOffsets sort outputs oldRealIndex newRealIndex)) :
    Unambiguous outputs oldRealIndex := by
  by_cases short : outputs.length < 2
  · cases outputs with
    | nil => simp [Unambiguous]
    | cons e rest =>
        obtain rfl : rest = [] := List.length_eq_zero_iff.mp (by simpa using short)
        refine ⟨by simp, fun _ own isOwn => ?_⟩
        obtain rfl : own = e := by simpa using List.mem_of_getElem? isOwn
        simp
  · -- with `e` in front of its equals, it is the first reference by id and the first entry with
    -- its reference
    have first (e : OutputEntry RefById PublicKey) (inside : e ∈ outputs) :
        (e.isRef = true → (outputs.filter OutputEntry.isRef).head? = some e) ∧
          (oldRealIndex ≠ sizeMax → ∀ own, outputs[oldRealIndex]? = some own →
            e.outReference = own.outReference → e = own) := by
      obtain ⟨changed, index, result, reads, finds⟩ :=
        prepare_eq newRealIndex (by omega) known (sorts_sortFirst (e := e))
      obtain ⟨absolute, isAbsolute, -, -, sameRefs, sameReal⟩ :=
        prepared _ (sorts_sortFirst (e := e))
      rw [result] at isAbsolute sameReal
      obtain rfl : sortFirst e outputs = absolute := Option.some.inj (reads.symm.trans isAbsolute)
      obtain ⟨front, back, split, isBefore⟩ := sortFirst_eq inside
      constructor
      · intro isRef
        have noRefs : front.filter OutputEntry.isRef = [] := by
          rw [List.filter_eq_nil_iff]
          intro other among
          simp [isRef_of_before (isBefore other among)]
        rw [← sameRefs, split, List.filter_append, noRefs, List.nil_append,
          List.filter_cons_of_pos isRef, List.head?_cons]
      · intro real own isOwn same
        have noOther : front.find? (·.outReference = own.outReference) = none := by
          rw [List.find?_eq_none]
          intro other among sameAsOwn
          have isBefore := isBefore other among
          rw [before_irrefl (by rw [same]; simpa using sameAsOwn)] at isBefore
          cases isBefore
        have found := finds real own isOwn
        rw [sameReal real, isOwn, split, List.find?_append, noOther, Option.none_or,
          List.find?_cons_of_pos (by simpa using same)] at found
        exact (Option.some.inj found).symm
    refine ⟨fun e inside other among isRef otherRef => ?_, fun real own isOwn e inside => ?_⟩
    · exact Option.some.inj (((first e inside).1 isRef).symm.trans ((first other among).1 otherRef))
    · exact (first e inside).2 real own isOwn

structure KeyOffsetCodec (offsets : List (TxoutRefV RefById))
    (outputs : List (OutputEntry RefById PublicKey))
    (oldRealIndex newRealIndex : Nat) : Prop where
  succeeds : (absoluteSortedOutputOffsetsToRelativeInPlace offsets).1 = true ↔ Increasing offsets
  restores : (absoluteSortedOutputOffsetsToRelativeInPlace offsets).1 = true →
    relativeOutputOffsetsToAbsolute (absoluteSortedOutputOffsetsToRelativeInPlace offsets).2 =
      some offsets
  prepares : ∀ sort, Sorts sort →
    Prepared outputs oldRealIndex
      (prepareOutputsEntriesForKeyOffsets sort outputs oldRealIndex newRealIndex)
  neverThrows : relativeOutputOffsetsToAbsolute offsets ≠ none

/-- The decoder throws when an index comes after a reference by id that is the first entry, the sort
may change the order of references by id, and the real entry is looked for by its reference only. -/
theorem keyOffsetCodec_iff (known : oldRealIndex = sizeMax ∨ oldRealIndex < outputs.length) :
    KeyOffsetCodec offsets outputs oldRealIndex newRealIndex ↔
      (¬∃ ref index rest, offsets = .refById ref :: .globalIndex index :: rest) ∧
        Unambiguous outputs oldRealIndex := by
  constructor
  · intro codec
    exact ⟨fun starts => codec.neverThrows (relativeOutputOffsetsToAbsolute_eq_none.mpr starts),
      unambiguous_of_prepared known codec.prepares⟩
  · rintro ⟨starts, unambiguous⟩
    refine ⟨relativeInPlace_ok_iff, fun ok => ?_,
      fun sort sorts => prepared_of_unambiguous known sorts unambiguous, fun throws =>
        starts (relativeOutputOffsetsToAbsolute_eq_none.mp throws)⟩
    obtain ⟨indexes, refs, increasing, rfl⟩ := relativeInPlace_ok_iff.mp ok
    rw [relativeInPlace_mixed increasing]
    exact absolute_relative

/-- Three entries that are not in order, of which the last one is real. -/
def mixedEntries : List (OutputEntry Nat Nat) :=
  [⟨.refById 7, 1, 2, 3, 4⟩, ⟨.globalIndex 9, 5, 6, 7, 8⟩, ⟨.globalIndex 5, 9, 10, 11, 12⟩]

theorem keyOffsetCodec_iff_mixed :
    KeyOffsetCodec [.globalIndex 5, .globalIndex 9, .refById (7 : Nat)] mixedEntries 2 0 ↔
      (¬∃ ref index rest,
        [.globalIndex 5, .globalIndex 9,
          .refById 7] = TxoutRefV.refById (ref : Nat) :: .globalIndex index :: rest) ∧
        Unambiguous mixedEntries 2 :=
  keyOffsetCodec_iff (.inr (by decide))

/-- A reference by id and then an index. -/
theorem refById_first : ¬∀ (offsets : List (TxoutRefV Nat)) (outputs : List (OutputEntry Nat Nat))
    (oldRealIndex newRealIndex : Nat), oldRealIndex = sizeMax ∨ oldRealIndex < outputs.length →
      KeyOffsetCodec offsets outputs oldRealIndex newRealIndex := by
  intro always
  exact (always [.refById 7, .globalIndex 5] [] sizeMax 0 (.inl rfl)).neverThrows rfl

end Entries

end Zano.KeyOffsets
