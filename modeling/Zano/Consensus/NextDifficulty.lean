import Mathlib
import Zano.Consensus.Difficulty

/-! # What a next difficulty is

A difficulty is the mean of the values of two or three zones. A zone compares the work between two
entries with the time between the same places of the sorted timestamps. The work always grows by
something and the time counts as a second at least, so every value is positive, and the mean of the
values is between the least and the largest of them unless they reach a size at which their sum no
longer fits.
-/

namespace Zano.Consensus

/-- `REDEF_DIFFICULTY_WINDOW`, `REDEF_DIFFICULTY_CUT_OLD` and `REDEF_DIFFICULTY_CUT_LAST`. -/
structure Zone where
  window : ℕ
  cutOld : ℕ
  cutLast : ℕ

def slowZone : Zone := ⟨difficultyWindow, difficultyCut / 2, difficultyCut / 2⟩

def mediumZone : Zone := ⟨difficultyWindow / 3, difficultyCut / 8, difficultyCut / 12⟩

def fastZone : Zone := ⟨difficultyWindow / 18, difficultyCut / 10, 2⟩

/-- The value of a zone in numbers that do not wrap, rounded up. -/
def exactZoneValue (timestampsSorted : List UInt64) (cumulativeDifficulties : List WideDifficulty)
    (targetSeconds : ℕ) (zone : Zone) : Option ℕ := do
  let (cutBegin,
      cutEnd) ← getAdjustmentZone timestampsSorted.length zone.window zone.cutOld zone.cutLast
  let timeSpan :=
    max 1 ((← timestampsSorted[cutBegin]?).toNat - (← timestampsSorted[cutEnd - 1]?).toNat)
  let totalWork :=
    (← cumulativeDifficulties[cutBegin]?).toNat - (← cumulativeDifficulties[cutEnd - 1]?).toNat
  return (totalWork * targetSeconds + timeSpan - 1) / timeSpan

/-- The entries that are retained, with the timestamps from the latest on. -/
def exactZoneValues (timestamps : List UInt64) (cumulativeDifficulties : List WideDifficulty)
    (targetSeconds : ℕ) (zones : List Zone) : List ℕ :=
  zones.filterMap (exactZoneValue ((timestamps.take difficultyWindow).insertionSort (· ≥ ·))
    (cumulativeDifficulties.take difficultyWindow) targetSeconds)

/-! ## One zone -/

/-- What a zone has to leave between its cuts. -/
def Zone.Wide (zone : Zone) : Prop :=
  2 ≤ zone.window - (zone.cutOld + zone.cutLast) ∧
    zone.cutLast + 1 ≤ zone.window - (zone.cutOld + zone.cutLast)

theorem getAdjustmentZone_inside {zone : Zone} (wide : zone.Wide) {length : ℕ} (two : 2 ≤ length) :
    ∃ cutBegin cutEnd, getAdjustmentZone length zone.window zone.cutOld zone.cutLast =
      some (cutBegin, cutEnd) ∧
      cutBegin + 2 ≤ cutEnd ∧ cutEnd ≤ length := by
  obtain ⟨room, behind⟩ := wide
  rw [getAdjustmentZone]
  split
  next short => exact ⟨0, length, if_pos ⟨by omega, le_rfl⟩, by omega, le_rfl⟩
  next long =>
    dsimp only
    generalize zone.window - (zone.cutOld + zone.cutLast) = kept at *
    split
    · exact ⟨zone.cutLast, length, if_pos ⟨by omega, le_rfl⟩, by omega, le_rfl⟩
    · exact ⟨zone.cutLast, zone.cutLast + kept, if_pos ⟨by omega, by omega⟩, by omega, by omega⟩

section Zones

variable {sorted : List UInt64} {cumulativeDifficulties : List WideDifficulty} {targetSeconds : ℕ}

/-- A zone has a value, which is positive, and the adjustment is that value
unless it is too large. -/
theorem getAdjustmentForZone_exact {zone : Zone} (wide : zone.Wide) (two : 2 ≤ sorted.length)
    (same : sorted.length = cumulativeDifficulties.length) (latestFirst : sorted.Pairwise (· ≥ ·))
    (decreasing : cumulativeDifficulties.Pairwise (· > ·)) (someTarget : 0 < targetSeconds) :
    ∃ value, exactZoneValue sorted cumulativeDifficulties targetSeconds zone = some value ∧
      0 < value ∧
      getAdjustmentForZone sorted cumulativeDifficulties targetSeconds zone.window zone.cutOld
        zone.cutLast =
        some (if value > 2 ^ 128 - 1 then 0 else BitVec.ofNat 128 value) := by
  obtain ⟨cutBegin, cutEnd, located, room, atMost⟩ := getAdjustmentZone_inside wide two
  have latest : sorted[cutBegin]? = some sorted[cutBegin] := List.getElem?_eq_getElem (by omega)
  have oldest : sorted[cutEnd - 1]? = some sorted[cutEnd - 1] := List.getElem?_eq_getElem (by omega)
  have more : cumulativeDifficulties[cutBegin]? = some cumulativeDifficulties[cutBegin] :=
    List.getElem?_eq_getElem (by omega)
  have less : cumulativeDifficulties[cutEnd - 1]? = some cumulativeDifficulties[cutEnd - 1] :=
    List.getElem?_eq_getElem (by omega)
  have later : sorted[cutEnd - 1] ≤ sorted[cutBegin] :=
    List.pairwise_iff_getElem.mp latestFirst cutBegin (cutEnd - 1) (by omega) (by omega) (by omega)
  have work : cumulativeDifficulties[cutEnd - 1] < cumulativeDifficulties[cutBegin] :=
    List.pairwise_iff_getElem.mp decreasing cutBegin (cutEnd - 1) (by omega) (by omega) (by omega)
  simp only [exactZoneValue, getAdjustmentForZone, located, latest, oldest, more, less,
    Option.bind_eq_bind, Option.bind_some, Option.pure_def]
  generalize sorted[cutBegin] = newestTime at *
  generalize sorted[cutEnd - 1] = oldestTime at *
  generalize cumulativeDifficulties[cutBegin] = newestWork at *
  generalize cumulativeDifficulties[cutEnd - 1] = oldestWork at *
  have span : (if newestTime - oldestTime = 0 then 1 else newestTime - oldestTime).toNat =
      max 1 (newestTime.toNat - oldestTime.toNat) := by
    have difference := UInt64.toNat_sub_of_le newestTime oldestTime later
    have zero_ : newestTime - oldestTime = 0 ↔ (newestTime - oldestTime).toNat = 0 :=
      UInt64.toNat_inj.symm
    rw [difference] at zero_
    split
    next none_ =>
      rw [zero_.mp none_]
      rfl
    next some_ =>
      have positive := Nat.pos_of_ne_zero fun none_ => some_ (zero_.mpr none_)
      rw [difference, max_eq_right positive]
  have grown : (newestWork - oldestWork).toNat = newestWork.toNat - oldestWork.toNat :=
    BitVec.toNat_sub_of_le (BitVec.le_of_lt work)
  have positive : 0 < newestWork.toNat - oldestWork.toNat :=
    Nat.sub_pos_of_lt (BitVec.lt_def.mp work)
  rw [span, grown]
  refine ⟨_, rfl, ?_, rfl⟩
  apply Nat.div_pos
  · have some_ := Nat.mul_pos positive someTarget
    omega
  · omega

/-- The adjustment that a value leads to. -/
def adjustment (value : ℕ) : WideDifficulty :=
  if value > 2 ^ 128 - 1 then 0 else BitVec.ofNat 128 value

/-- Every zone has a value, and the adjustments are made of these values. -/
theorem adjustments_of_zones {zones : List Zone} (wide : ∀ zone ∈ zones, zone.Wide)
    (two : 2 ≤ sorted.length) (same : sorted.length = cumulativeDifficulties.length)
    (latestFirst : sorted.Pairwise (· ≥ ·)) (decreasing : cumulativeDifficulties.Pairwise (· > ·))
    (someTarget : 0 < targetSeconds) :
    ∃ values, zones.filterMap (exactZoneValue sorted cumulativeDifficulties targetSeconds) =
      values ∧
      values.length = zones.length ∧ (∀ value ∈ values, 0 < value) ∧
      (zones.mapM fun zone =>
        getAdjustmentForZone sorted cumulativeDifficulties targetSeconds zone.window zone.cutOld
        zone.cutLast) = some (values.map adjustment) := by
  induction zones with
  | nil => exact ⟨[], rfl, rfl, by simp, rfl⟩
  | cons zone zones inductionHypothesis =>
      obtain ⟨first, rest⟩ := List.forall_mem_cons.mp wide
      obtain ⟨value, isValue, positive, adjusted⟩ :=
        getAdjustmentForZone_exact first two same latestFirst decreasing someTarget
      obtain ⟨values, found, size, allPositive, allAdjusted⟩ := inductionHypothesis rest
      refine ⟨value :: values, ?_, ?_, List.forall_mem_cons.mpr ⟨positive, allPositive⟩, ?_⟩
      · rw [List.filterMap_cons_some isValue, found]
      · rw [List.length_cons, List.length_cons, size]
      · rw [List.mapM_cons, adjusted, allAdjusted]
        rfl

end Zones

/-! ## The mean -/

theorem foldl_add_toNat (others : List WideDifficulty) (slow : WideDifficulty)
    (fits : slow.toNat + (others.map BitVec.toNat).sum < 2 ^ 128) :
    (others.foldl (· + ·) slow).toNat = slow.toNat + (others.map BitVec.toNat).sum := by
  induction others generalizing slow with
  | nil => simp
  | cons other others inductionHypothesis =>
      rw [List.map_cons, List.sum_cons] at fits ⊢
      have one : (slow + other).toNat = slow.toNat + other.toNat := by
        rw [BitVec.toNat_add, Nat.mod_eq_of_lt (by omega)]
      rw [List.foldl_cons, inductionHypothesis _ (by omega), one]
      omega

theorem sum_between {lo hi : ℕ} {values : List ℕ}
    (between : ∀ value ∈ values, lo ≤ value ∧ value ≤ hi) :
    lo * values.length ≤ values.sum ∧ values.sum ≤ hi * values.length := by
  induction values with
  | nil => simp
  | cons value values inductionHypothesis =>
      obtain ⟨first, rest⟩ := List.forall_mem_cons.mp between
      obtain ⟨atLeast, atMost⟩ := inductionHypothesis rest
      rw [List.sum_cons, List.length_cons, Nat.mul_add, Nat.mul_add]
      omega

/-- The mean of values that are not zero, as long as three of the largest of them fit. -/
theorem meanOfAdjustments_between {lo hi : ℕ} {slow : WideDifficulty} {others : List WideDifficulty}
    (few : others.length ≤ 2) (notZero : ∀ value ∈ others, value ≠ 0)
    (fits : ∀ value ∈ slow :: others, value.toNat < 2 ^ 126)
    (between : ∀ value ∈ slow :: others, lo ≤ value.toNat ∧ value.toNat ≤ hi) :
    lo ≤ (meanOfAdjustments slow others).toNat ∧ (meanOfAdjustments slow others).toNat ≤ hi := by
  have all : others.filter (· ≠ 0) = others := List.filter_eq_self.mpr fun value inside => by
    simpa using notZero value inside
  have small := @sum_between 0 (2 ^ 126 - 1) (others.map BitVec.toNat) (by
    rw [List.forall_mem_map]
    intro value inside
    have below := fits value (List.mem_cons_of_mem slow inside)
    omega)
  have slowFits := fits slow List.mem_cons_self
  rw [List.length_map] at small
  have sum := foldl_add_toNat others slow (by
    have most : (2 ^ 126 - 1) * others.length ≤ (2 ^ 126 - 1) * 2 := Nat.mul_le_mul_left _ few
    omega)
  have divider : (BitVec.ofNat 128 (others.length + 1)).toNat = others.length + 1 := by
    rw [BitVec.toNat_ofNat, Nat.mod_eq_of_lt (by omega)]
  have total := @sum_between lo hi ((slow :: others).map BitVec.toNat) (by
    rw [List.forall_mem_map]
    exact between)
  rw [List.length_map, List.length_cons, List.map_cons, List.sum_cons] at total
  rw [meanOfAdjustments, all, BitVec.toNat_udiv, sum, divider]
  exact ⟨(Nat.le_div_iff_mul_le (by omega)).mpr total.1,
    Nat.div_le_of_le_mul (by rw [Nat.mul_comm]; exact total.2)⟩

/-! ## The next difficulty -/

/-- A difficulty that is computed from any timestamps: it is always there, it depends on the
retained timestamps and not on their order, and if the values of its zones are not too large it is
positive and within their bounds. -/
structure WellDefined
    (next : List UInt64 → List WideDifficulty → ℕ → WideDifficulty → Option WideDifficulty)
    (zones : List Zone) (timestamps : List UInt64) (cumulativeDifficulties : List WideDifficulty)
    (targetSeconds : ℕ) (starter : WideDifficulty) : Prop where
  defined :
    ∃ difficulty, next timestamps cumulativeDifficulties targetSeconds starter = some difficulty ∧
    ((∀ value ∈ exactZoneValues timestamps cumulativeDifficulties targetSeconds zones, value <
      2 ^ 126) →
      1 ≤ difficulty.toNat ∧
      (2 ≤ timestamps.length →
        (exactZoneValues timestamps cumulativeDifficulties targetSeconds zones).length =
          zones.length ∧
        ∀ lo hi, (∀ value ∈ exactZoneValues timestamps cumulativeDifficulties targetSeconds zones,
          lo ≤ value ∧ value ≤ hi) →
          lo ≤ difficulty.toNat ∧ difficulty.toNat ≤ hi))
  anyOrder : ∀ reordered : List UInt64, reordered.length = timestamps.length →
    (reordered.take difficultyWindow).Perm (timestamps.take difficultyWindow) →
      next reordered cumulativeDifficulties targetSeconds starter =
        next timestamps cumulativeDifficulties targetSeconds starter

section Sorting

local instance latestFirstTotal : Std.Total (α := UInt64) (· ≥ ·) :=
  ⟨fun a b => UInt64.le_total b a⟩

local instance latestFirstTrans : IsTrans UInt64 (· ≥ ·) :=
  ⟨fun _ _ _ first second => UInt64.le_trans second first⟩

local instance latestFirstAntisymm : Std.Antisymm (α := UInt64) (· ≥ ·) :=
    ⟨fun _ _ first second => UInt64.le_antisymm second first⟩

theorem insertionSort_latestFirst (timestamps : List UInt64) :
    (timestamps.insertionSort (· ≥ ·)).Pairwise (· ≥ ·) :=
  List.pairwise_insertionSort (· ≥ ·) timestamps

theorem insertionSort_perm {first second : List UInt64} (perm : first.Perm second) :
    first.insertionSort (· ≥ ·) = second.insertionSort (· ≥ ·) := by
  have sorted := (List.perm_insertionSort (· ≥ ·) first).trans
    (perm.trans (List.perm_insertionSort (· ≥ ·) second).symm)
  exact sorted.eq_of_pairwise' (insertionSort_latestFirst first) (insertionSort_latestFirst second)

end Sorting

/-- Entries beyond the window are dropped, and none are missing in it. -/
theorem retained {timestamps : List UInt64} {cumulativeDifficulties : List WideDifficulty}
    (same : timestamps.length = cumulativeDifficulties.length) :
    (if difficultyWindow < timestamps.length then resize cumulativeDifficulties difficultyWindow
      else cumulativeDifficulties) =
      cumulativeDifficulties.take difficultyWindow := by
  split
  next long => rw [resize, Nat.sub_eq_zero_of_le (by omega), List.replicate_zero, List.append_nil]
  next short => rw [List.take_of_length_le (by omega)]

theorem adjustment_toNat {value : ℕ} (small : value < 2 ^ 126) :
    (adjustment value).toNat = value := by
  rw [adjustment, if_neg (by omega), BitVec.toNat_ofNat, Nat.mod_eq_of_lt (by omega)]

theorem meanOfAdjustments_values {slow : ℕ} {others : List ℕ} (few : others.length ≤ 2)
    (positive : ∀ value ∈ slow :: others, 0 < value)
    (small : ∀ value ∈ slow :: others, value < 2 ^ 126) {lo hi : ℕ}
    (between : ∀ value ∈ slow :: others, lo ≤ value ∧ value ≤ hi) :
    lo ≤ (meanOfAdjustments (adjustment slow) (others.map adjustment)).toNat ∧
      (meanOfAdjustments (adjustment slow) (others.map adjustment)).toNat ≤ hi := by
  have exact_ : ∀ value ∈ (slow :: others).map adjustment, ∃ number ∈ slow :: others, value.toNat =
      number := by
    rw [List.forall_mem_map]
    intro number inside
    exact ⟨number, inside, adjustment_toNat (small number inside)⟩
  rw [List.map_cons] at exact_
  apply meanOfAdjustments_between (by rwa [List.length_map])
  · intro value inside isZero
    obtain ⟨number, there, same⟩ := exact_ value (List.mem_cons_of_mem _ inside)
    have some_ := positive number there
    rw [isZero] at same
    exact some_.ne same
  · intro value inside
    obtain ⟨number, there, same⟩ := exact_ value inside
    rw [same]
    exact small number there
  · intro value inside
    obtain ⟨number, there, same⟩ := exact_ value inside
    rw [same]
    exact between number there

/-- The parts that the two functions have in common: what they do with the values of their zones,
and that these are there. -/
theorem wellDefined_of_values
    {next : List UInt64 → List WideDifficulty → ℕ → WideDifficulty → Option WideDifficulty}
    {first : Zone} {rest : List Zone} {timestamps : List UInt64}
    {cumulativeDifficulties : List WideDifficulty} {targetSeconds : ℕ} {starter : WideDifficulty}
    (wide : ∀ zone ∈ first :: rest, zone.Wide) (few : rest.length ≤ 2)
    (same : timestamps.length = cumulativeDifficulties.length)
    (decreasing : cumulativeDifficulties.Pairwise (· > ·)) (someTarget : 0 < targetSeconds)
    (someStarter : starter ≠ 0)
    (starts : ∀ stamps : List UInt64, stamps.length = timestamps.length → stamps.length ≤ 1 →
      next stamps cumulativeDifficulties targetSeconds starter = some starter)
    (adjusts : ∀ stamps : List UInt64, stamps.length = timestamps.length → 2 ≤ stamps.length →
      next stamps cumulativeDifficulties targetSeconds starter = (do
        let sorted := (stamps.take difficultyWindow).insertionSort (· ≥ ·)
        let retained := cumulativeDifficulties.take difficultyWindow
        let slow ← getAdjustmentForZone sorted retained targetSeconds first.window first.cutOld
            first.cutLast
        let others ← rest.mapM fun zone =>
          getAdjustmentForZone sorted retained targetSeconds zone.window zone.cutOld zone.cutLast
        return meanOfAdjustments slow others)) :
    WellDefined next (first :: rest) timestamps cumulativeDifficulties targetSeconds starter := by
  constructor
  · rcases Nat.lt_or_ge timestamps.length 2 with short | long
    · refine ⟨starter, starts timestamps rfl (by omega), fun _ => ⟨?_, fun long => by omega⟩⟩
      exact Nat.pos_of_ne_zero fun isZero => someStarter (BitVec.eq_of_toNat_eq isZero)
    · have two : 2 ≤ ((timestamps.take difficultyWindow).insertionSort (· ≥ ·)).length := by
        rw [List.length_insertionSort, List.length_take, difficultyWindow]
        omega
      have sameRetained : ((timestamps.take difficultyWindow).insertionSort (· ≥ ·)).length =
          (cumulativeDifficulties.take difficultyWindow).length := by
        rw [List.length_insertionSort, List.length_take, List.length_take, same]
      obtain ⟨values, found, size, positive, adjusted⟩ := adjustments_of_zones wide two sameRetained
        (insertionSort_latestFirst _) (decreasing.sublist (List.take_sublist _ _)) someTarget
      cases values with
      | nil => cases size
      | cons slow others =>
          rw [List.mapM_cons] at adjusted
          obtain ⟨slow', isSlow, rest', isRest, whole⟩ : ∃ slow', _ = some slow' ∧
              ∃ rest', _ = some rest' ∧
              slow' :: rest' = (slow :: others).map adjustment := by
            simpa only [Option.bind_eq_bind, Option.bind_eq_some_iff, Option.pure_def,
              Option.some.injEq] using adjusted
          obtain ⟨rfl, rfl⟩ := List.cons.inj whole
          refine ⟨meanOfAdjustments (adjustment slow) (others.map adjustment), ?_, fun small => ?_⟩
          · rw [adjusts timestamps rfl long]
            dsimp only
            rw [isSlow, Option.bind_eq_bind, Option.bind_some, isRest]
            rfl
          · rw [exactZoneValues, found] at small ⊢
            have fewer : others.length ≤ 2 := by
              simp only [List.length_cons] at size
              omega
            have most : ∀ value ∈ slow :: others, 1 ≤ value ∧ value ≤ 2 ^ 126 :=
              fun value inside => ⟨positive value inside, (small value inside).le⟩
            exact ⟨(meanOfAdjustments_values fewer positive small most).1, fun _ =>
              ⟨size, fun lo hi between => meanOfAdjustments_values fewer positive small between⟩⟩
  · intro reordered sameLength perm
    rcases Nat.lt_or_ge timestamps.length 2 with short | long
    · rw [starts reordered sameLength (by omega), starts timestamps rfl (by omega)]
    · rw [adjusts reordered sameLength (by omega), adjusts timestamps rfl long,
        insertionSort_perm perm]

theorem slowZone_wide : slowZone.Wide := ⟨by decide, by decide⟩

theorem mediumZone_wide : mediumZone.Wide := ⟨by decide, by decide⟩

theorem fastZone_wide : fastZone.Wide := ⟨by decide, by decide⟩

/-- For the two functions, from timestamps in any order and of any length. -/
theorem next_difficulty_wellDefined (timestamps : List UInt64)
    (cumulativeDifficulties : List WideDifficulty) (targetSeconds : ℕ) (starter : WideDifficulty)
    (same : timestamps.length = cumulativeDifficulties.length)
    (decreasing : cumulativeDifficulties.Pairwise (· > ·)) (someTarget : 0 < targetSeconds)
    (someStarter : starter ≠ 0) :
    WellDefined nextDifficulty1 [slowZone, mediumZone, fastZone] timestamps cumulativeDifficulties
      targetSeconds starter ∧
      WellDefined nextDifficulty2 [slowZone, mediumZone] timestamps cumulativeDifficulties
        targetSeconds starter := by
  have taken : ∀ stamps : List UInt64, stamps.length = timestamps.length →
      (stamps.take difficultyWindow).length =
        (cumulativeDifficulties.take difficultyWindow).length := by
    intro stamps sameLength
    rw [List.length_take, List.length_take, sameLength, same]
  constructor
  · apply wellDefined_of_values (by simp [slowZone_wide, mediumZone_wide, fastZone_wide]) (by simp)
      same decreasing
      someTarget someStarter
    · intro stamps sameLength short
      rw [nextDifficulty1, retained (sameLength.trans same),
        if_neg (not_not.mpr (taken stamps sameLength)),
        if_pos ((List.length_take_le' _ _).trans short)]
    · intro stamps sameLength long
      rw [nextDifficulty1, retained (sameLength.trans same),
        if_neg (not_not.mpr (taken stamps sameLength)), if_neg]
      · simp [slowZone, mediumZone, fastZone, Option.bind_assoc]
      · rw [List.length_take, difficultyWindow]
        omega
  · apply wellDefined_of_values (by simp [slowZone_wide, mediumZone_wide])
      (by simp) same decreasing someTarget someStarter
    · intro stamps sameLength short
      rw [nextDifficulty2, retained (sameLength.trans same),
        if_neg (not_not.mpr (taken stamps sameLength)),
        if_pos ((List.length_take_le' _ _).trans short)]
    · intro stamps sameLength long
      rw [nextDifficulty2, retained (sameLength.trans same),
        if_neg (not_not.mpr (taken stamps sameLength)), if_neg]
      · simp [slowZone, mediumZone, Option.bind_assoc]
      · rw [List.length_take, difficultyWindow]
        omega

/-- The timestamps of the second and the third block are the wrong way round. -/
theorem next_difficulty_wellDefined_uneven :
    WellDefined nextDifficulty1 [slowZone, mediumZone, fastZone] [400, 120, 250]
      [30, 20, 10] 120 1 ∧
      WellDefined nextDifficulty2 [slowZone, mediumZone] [400, 120, 250] [30, 20, 10] 120 1 :=
  next_difficulty_wellDefined [400, 120, 250] [30, 20, 10] 120 1 rfl (by decide) (by decide)
    (by decide)

end Zano.Consensus
