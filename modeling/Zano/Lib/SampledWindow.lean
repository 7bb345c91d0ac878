import Mathlib

/-! # Windows over the samples of a sequence

A window remembers the values of a growing sequence at the multiples of a step, latest last. It
forgets from the front when it is full and from the end when the sequence is cut. Between its first
place and the length of the sequence it misses nothing, so that the value at the multiple below any
later place can be looked up.
-/

namespace SampledWindow

variable {A : Type*}

/-- The places below a bound, as in a sorted map that is cleaned from its end. -/
def cut (window : List (Nat × A)) (bound : Nat) : List (Nat × A) :=
  window.filter fun e => e.1 < bound

/-- A sorted map with a new value for a place, without its first entry if there are too many. -/
def put (window : List (Nat × A)) (limit place : Nat) (a : A) : List (Nat × A) :=
  let grown := cut window place ++ (place, a) :: window.filter fun e => place < e.1
  if limit < grown.length then grown.tail else grown

theorem mem_put {window : List (Nat × A)} {limit place : Nat} {a : A} {e : Nat × A}
    (inside : e ∈ put window limit place a) : e ∈ window ∨ e = (place, a) := by
  have grown : e ∈ cut window place ++ (place, a) :: window.filter fun e => place < e.1 := by
    unfold put at inside
    dsimp only at inside
    split at inside
    · exact List.mem_of_mem_tail inside
    · exact inside
  rcases List.mem_append.mp grown with before | rest
  · exact .inl (List.mem_of_mem_filter before)
  · rcases List.mem_cons.mp rest with same | after
    · exact .inr same
    · exact .inl (List.mem_of_mem_filter after)

structure Samples (step : Nat) (value : Nat → A) (size : Nat) (window : List (Nat × A)) : Prop where
  sorted : (window.map (·.1)).Pairwise (· < ·)
  entry : ∀ e ∈ window, 0 < e.1 ∧ e.1 < size ∧ step ∣ e.1 ∧ e.2 = value e.1
  closed : ∀ e ∈ window, ∀ place, e.1 ≤ place → place < size → step ∣ place →
    (place, value place) ∈ window

variable {step size : Nat} {value value' : Nat → A} {window : List (Nat × A)}

theorem Samples.nil (step : Nat) (value : Nat → A) (size : Nat) : Samples step value size [] where
  sorted := .nil
  entry _ inside := nomatch inside
  closed _ inside := nomatch inside

theorem Samples.cut (samples : Samples step value size window) {bound : Nat}
    (within : bound ≤ size) :
    Samples step value bound (cut window bound) where
  sorted := samples.sorted.sublist (List.filter_sublist.map _)
  entry e inside := by
    obtain ⟨before, below⟩ := List.mem_filter.mp inside
    obtain ⟨positive, -, multiple, isValue⟩ := samples.entry e before
    exact ⟨positive, of_decide_eq_true below, multiple, isValue⟩
  closed e inside place later below multiple := by
    obtain ⟨before, -⟩ := List.mem_filter.mp inside
    exact List.mem_filter.mpr
      ⟨samples.closed e before place later (below.trans_le within) multiple, decide_eq_true below⟩

theorem Samples.skip (samples : Samples step value size window) (between : ¬ step ∣ size)
    (same : ∀ place < size, value' place = value place) :
    Samples step value' (size + 1) window where
  sorted := samples.sorted
  entry e inside := by
    obtain ⟨positive, below, multiple, isValue⟩ := samples.entry e inside
    exact ⟨positive, below.trans (Nat.lt_succ_self _), multiple,
      isValue.trans (same e.1 below).symm⟩
  closed e inside place later below multiple := by
    have differs : place ≠ size := by
      rintro rfl
      exact between multiple
    have inBefore : place < size := by omega
    rw [same place inBefore]
    exact samples.closed e inside place later inBefore multiple

theorem Samples.cut_self (samples : Samples step value size window) :
    SampledWindow.cut window size = window := by
  apply List.filter_eq_self.mpr
  intro e inside
  exact decide_eq_true (samples.entry e inside).2.1

theorem Samples.put_eq (samples : Samples step value size window) (limit : Nat) (a : A) :
    put window limit size a =
      if limit < window.length + 1 then (window ++ [(size, a)]).tail
      else window ++ [(size, a)] := by
  have none_above : (window.filter fun e => decide (size < e.1)) = [] := by
    apply List.filter_eq_nil_iff.mpr
    intro e inside
    have below := (samples.entry e inside).2.1
    simp only [decide_eq_true_eq]
    omega
  simp only [put, samples.cut_self, none_above, List.length_append, List.length_singleton]

theorem Samples.snoc (samples : Samples step value size window) (positive : 0 < size)
    (multiple : step ∣ size) (same : ∀ place < size, value' place = value place) :
    Samples step value' (size + 1) (window ++ [(size, value' size)]) where
  sorted := by
    rw [List.map_append]
    apply List.pairwise_append.mpr
    refine ⟨samples.sorted, by simp, ?_⟩
    intro place inside last isLast
    obtain ⟨e, isThere, rfl⟩ := List.mem_map.mp inside
    rw [List.map_singleton, List.mem_singleton] at isLast
    rw [isLast]
    exact (samples.entry e isThere).2.1
  entry e inside := by
    rcases List.mem_append.mp inside with before | added
    · obtain ⟨isPositive, below, isMultiple, isValue⟩ := samples.entry e before
      exact ⟨isPositive, below.trans (Nat.lt_succ_self _), isMultiple,
        isValue.trans (same e.1 below).symm⟩
    · rw [List.mem_singleton.mp added]
      exact ⟨positive, Nat.lt_succ_self _, multiple, rfl⟩
  closed e inside place later below isMultiple := by
    apply List.mem_append.mpr
    by_cases atEnd : place = size
    · subst atEnd
      exact .inr (by simp)
    · have inBefore : place < size := by omega
      rcases List.mem_append.mp inside with before | added
      · rw [same place inBefore]
        exact .inl (samples.closed e before place later inBefore isMultiple)
      · rw [List.mem_singleton.mp added] at later
        omega

theorem Samples.tail (samples : Samples step value size window) :
    Samples step value size window.tail := by
  cases window with
  | nil => exact samples
  | cons first rest =>
      have sorted := samples.sorted
      rw [List.map_cons, List.pairwise_cons] at sorted
      refine ⟨sorted.2, ?_, ?_⟩
      · intro e inside
        exact samples.entry e (List.mem_cons_of_mem first inside)
      · intro e inside place later below multiple
        have isThere :=
          samples.closed e (List.mem_cons_of_mem first inside) place later below multiple
        rcases List.mem_cons.mp isThere with isFirst | isThere
        · have above := sorted.1 e.1 (List.mem_map_of_mem inside)
          rw [← isFirst] at above
          simp only at above
          omega
        · exact isThere

/-- The sequence grows by the value at its end. -/
theorem Samples.put (samples : Samples step value size window) (positive : 0 < size)
    (multiple : step ∣ size) (same : ∀ place < size, value' place = value place) (limit : Nat) :
    Samples step value' (size + 1) (put window limit size (value' size)) := by
  have grown := samples.snoc positive multiple same
  rw [samples.put_eq]
  split
  · exact grown.tail
  · exact grown

/-- The multiple after the last place is the length of the sequence, if that is
a multiple at all. -/
theorem Samples.follows (samples : Samples step value size window) (multiple : step ∣ size)
    {last : Nat × A} (isLast : window.getLast? = some last) : last.1 + step = size := by
  have inside := List.mem_of_getLast? isLast
  obtain ⟨-, below, isMultiple, -⟩ := samples.entry last inside
  have upTo : last.1 + step ≤ size := by
    obtain ⟨a, isA⟩ := isMultiple
    obtain ⟨b, isB⟩ := multiple
    have fewer : a < b := by
      rw [isA, isB] at below
      exact lt_of_mul_lt_mul_left below (Nat.zero_le step)
    calc last.1 + step = step * (a + 1) := by rw [isA, Nat.mul_add_one]
      _ ≤ step * b := Nat.mul_le_mul_left step fewer
      _ = size := isB.symm
  rcases Nat.lt_or_eq_of_le upTo with short | exact
  · have next := samples.closed last inside (last.1 + step) (Nat.le_add_right _ _) short
      (isMultiple.add dvd_rfl)
    have atMost : last.1 + step ≤ last.1 := by
      have sorted := samples.sorted
      obtain ⟨before, isSplit⟩ := List.getLast?_eq_some_iff.mp isLast
      rw [isSplit, List.map_append, List.pairwise_append] at sorted
      rw [isSplit, List.mem_append, List.mem_singleton] at next
      rcases next with inBefore | same
      · exact (sorted.2.2 _ (List.mem_map_of_mem inBefore) last.1 (by simp)).le
      · exact (congrArg Prod.fst same).le
    have zero : step = 0 := by omega
    subst zero
    rw [Nat.zero_dvd] at multiple
    omega
  · exact exact

theorem lookup_of_mem (sorted : (window.map (·.1)).Pairwise (· < ·)) {place : Nat} {a : A}
    (inside : (place, a) ∈ window) : window.lookup place = some a := by
  induction window with
  | nil => cases inside
  | cons first rest inductionHypothesis =>
      rw [List.map_cons, List.pairwise_cons] at sorted
      rcases List.mem_cons.mp inside with isFirst | inRest
      · rw [← isFirst, List.lookup_cons_self]
      · have above := sorted.1 place (List.mem_map_of_mem inRest)
        have differs : (place == first.1) = false := beq_eq_false_iff_ne.mpr above.ne'
        rw [List.lookup_cons, differs]
        exact inductionHypothesis sorted.2 inRest

/-- From its first place on, the window answers for the multiple below any place of the sequence. -/
theorem Samples.lookup (samples : Samples step value size window) {e : Nat × A}
    (inside : e ∈ window) {place : Nat} (later : e.1 ≤ place) (below : place < size) :
    window.lookup (place - place % step) = some (value (place - place % step)) := by
  apply lookup_of_mem samples.sorted
  apply samples.closed e inside
  · obtain ⟨a, isA⟩ := (samples.entry e inside).2.2.1
    have isPlace := Nat.div_add_mod place step
    rcases Nat.eq_zero_or_pos step with rfl | positive
    · simpa using isA
    · have atLeast : a ≤ place / step := by
        rw [Nat.le_div_iff_mul_le positive, Nat.mul_comm, ← isA]
        exact later
      have scaled : step * a ≤ step * (place / step) := Nat.mul_le_mul_left step atLeast
      omega
  · omega
  · exact Nat.dvd_sub_mod place

theorem head_le (sorted : (window.map (·.1)).Pairwise (· < ·)) {first e : Nat × A}
    (isFirst : window.head? = some first) (inside : e ∈ window) : first.1 ≤ e.1 := by
  cases window with
  | nil => cases inside
  | cons own rest =>
      cases isFirst
      rw [List.map_cons, List.pairwise_cons] at sorted
      rcases List.mem_cons.mp inside with same | inRest
      · rw [same]
      · exact (sorted.1 e.1 (List.mem_map_of_mem inRest)).le

theorem Samples.eq_nil_of_one (samples : Samples step value 1 window) : window = [] := by
  cases window with
  | nil => rfl
  | cons first rest =>
      obtain ⟨positive, below, -⟩ := samples.entry first List.mem_cons_self
      omega

/-- Counted from its end, a window goes back from the length of the sequence step by step. -/
theorem Samples.reverse_getElem (samples : Samples step value size window)
    (multiple : step ∣ size) {k : Nat} {e : Nat × A} (isThere : window.reverse[k]? = some e) :
    e.1 + (k + 1) * step = size := by
  induction window using List.reverseRecOn generalizing size k with
  | nil => cases isThere
  | append_singleton earlier last inductionHypothesis =>
      have atEnd : last.1 + step = size := samples.follows multiple List.getLast?_concat
      rw [List.reverse_concat] at isThere
      cases k with
      | zero =>
          cases isThere
          omega
      | succ k =>
          have before : SampledWindow.cut (earlier ++ [last]) last.1 = earlier := by
            have sorted := samples.sorted
            rw [List.map_append, List.pairwise_append] at sorted
            have all : (earlier.filter fun e => e.1 < last.1) = earlier := by
              apply List.filter_eq_self.mpr
              intro other inside
              exact decide_eq_true
                (sorted.2.2 other.1 (List.mem_map_of_mem inside) last.1 (by simp))
            simp [SampledWindow.cut, List.filter_append, all]
          have shorter : Samples step value last.1 earlier := by
            have cut := samples.cut (show last.1 ≤ size by omega)
            rwa [before] at cut
          have isMultiple := (samples.entry last (by simp)).2.2.1
          have place := inductionHypothesis shorter isMultiple isThere
          rw [Nat.succ_mul, ← Nat.add_assoc, place]
          exact atEnd

/-! ## What a window has forgotten -/

theorem mem_cut {e : Nat × A} {bound : Nat} : e ∈ cut window bound ↔ e ∈ window ∧ e.1 < bound := by
  simp [cut]

theorem length_cut_le (bound : Nat) : (cut window bound).length ≤ window.length :=
  List.length_filter_le _ _

theorem Samples.length_put_le (samples : Samples step value size window) {limit : Nat}
    (isShort : window.length ≤ limit) (a : A) :
    (SampledWindow.put window limit size a).length ≤ limit := by
  rw [samples.put_eq]
  split
  · simpa using isShort
  · next enough =>
      simp only [List.length_append, List.length_singleton]
      omega

theorem Samples.head_add (samples : Samples step value size window) (multiple : step ∣ size)
    {first : Nat × A} (isFirst : window.head? = some first) :
    first.1 + window.length * step = size := by
  cases window with
  | nil => cases isFirst
  | cons own rest =>
      cases isFirst
      exact samples.reverse_getElem multiple (k := rest.length) (by simp)

/-- The sequence grows to a place without passing a multiple. -/
theorem Samples.grow (samples : Samples step value size window) {next : Nat} (upTo : size ≤ next)
    (between : ∀ place, size ≤ place → place < next → ¬ step ∣ place) :
    Samples step value next window where
  sorted := samples.sorted
  entry e inside := by
    obtain ⟨positive, below, multiple, isValue⟩ := samples.entry e inside
    exact ⟨positive, below.trans_le upTo, multiple, isValue⟩
  closed e inside place later below multiple := by
    have inBefore : place < size := by
      by_contra notBefore
      exact between place (Nat.le_of_not_lt notBefore) below multiple
    exact samples.closed e inside place later inBefore multiple

/-- No entry is further away than a full window, and at a multiple only the first one of
a full window is. -/
theorem Samples.near (samples : Samples step value size window) (positive : 0 < step) {limit : Nat}
    (isShort : window.length ≤ limit) (notFull : step ∣ size → window.length < limit) {e : Nat × A}
    (inside : e ∈ window) : size < e.1 + limit * step := by
  obtain ⟨first, isFirst⟩ :=
    Option.isSome_iff_exists.mp (List.isSome_head?.mpr (List.ne_nil_of_mem inside))
  have firstBelow := head_le samples.sorted isFirst inside
  by_cases multiple : step ∣ size
  · have reaches := samples.head_add multiple isFirst
    have shorter : window.length * step < limit * step :=
      Nat.mul_lt_mul_of_pos_right (notFull multiple) positive
    omega
  · have grown : Samples step value (size / step * step + step) window := by
      have above := Nat.div_add_mod' size step
      have rest := Nat.mod_lt size positive
      refine samples.grow (by omega) ?_
      rintro place later below ⟨i, rfl⟩
      rw [← Nat.succ_mul, Nat.mul_comm step i] at below
      have fewer : i ≤ size / step := Nat.lt_succ_iff.mp (Nat.lt_of_mul_lt_mul_right below)
      have same : i * step ≤ size / step * step := Nat.mul_le_mul_right step fewer
      have noRest : size % step = 0 := by
        rw [Nat.mul_comm] at later
        omega
      exact multiple (Nat.dvd_of_mod_eq_zero noRest)
    have reaches := grown.head_add ⟨size / step + 1, by ring⟩ isFirst
    have shorter : window.length * step ≤ limit * step := Nat.mul_le_mul_right step isShort
    have above := Nat.div_add_mod' size step
    have rest := Nat.mod_lt size positive
    omega

/-- At the end of the sequence, the entries that stay are those less than a full window away. -/
theorem Samples.mem_put_iff (samples : Samples step value size window) (multiple : step ∣ size)
    (positive : 0 < step) {limit : Nat} (someRoom : 0 < limit) (isShort : window.length ≤ limit)
    {a : A} {e : Nat × A} :
    e ∈ SampledWindow.put window limit size a ↔
      e = (size, a) ∨ (e ∈ window ∧ size < e.1 + limit * step) := by
  rw [samples.put_eq]
  split
  · next tooMany =>
      cases window with
      | nil => simp only [List.length_nil] at tooMany; omega
      | cons first rest =>
          have full : limit = (first :: rest).length := by omega
          have reaches := samples.head_add multiple (List.head?_cons)
          have sorted := samples.sorted
          rw [List.map_cons, List.pairwise_cons] at sorted
          rw [List.cons_append, List.tail_cons, List.mem_append, List.mem_singleton, or_comm, full]
          refine or_congr_right ⟨fun inRest => ⟨List.mem_cons_of_mem _ inRest, ?_⟩, ?_⟩
          · have above := sorted.1 e.1 (List.mem_map_of_mem inRest)
            omega
          · rintro ⟨inside, near⟩
            rcases List.mem_cons.mp inside with rfl | inRest
            · omega
            · exact inRest
  · next enough =>
      rw [List.mem_append, List.mem_singleton, or_comm]
      refine or_congr_right ⟨fun inside => ⟨inside, ?_⟩, fun stays => stays.1⟩
      exact samples.near positive isShort (fun _ => by omega) inside

end SampledWindow
