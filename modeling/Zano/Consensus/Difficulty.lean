import Mathlib

/-! # Difficulties

The block records that fork choice and difficulty adjustment read, and the functions that fill in
their difficulty fields when a block joins a chain. A chain is the list of its records from the
genesis block on, so a block's height is its index.

`wide_difficulty_type` is a 128-bit number that wraps. The products and quotients which the source
computes in 256 or 1024 bits never reach those widths; they are natural numbers here. A division by
zero throws in the source and is `none` here.
-/

namespace Zano.Consensus

abbrev WideDifficulty := BitVec 128

/-- A hash as the number that its bytes spell in memory order, so that `memcmp` is the order of
numbers. -/
abbrev Hash := BitVec 256

/-- The heights after which the hardforks are active. Hardfork 0 is always active. -/
structure HardForks where
  activeAfter : Nat → Nat

def HardForks.isHardforkActiveForHeight (forks : HardForks) (hardforkId height : Nat) : Bool :=
  hardforkId = 0 || forks.activeAfter hardforkId < height

/-- What difficulty adjustment and fork choice read of a block itself. `proof` is the kernel hash of
a PoS block and the long hash of a PoW block. -/
structure Block where
  isPos : Bool
  timestamp : UInt64
  proof : Hash
  txHashesSize : UInt64
  thisBlockTxFeeMedian : UInt64
  deriving DecidableEq, Repr

structure BlockExtendedInfo where
  bl : Block
  height : Nat
  difficulty : WideDifficulty
  cumulativeDiffAdjusted : WideDifficulty
  cumulativeDiffPrecise : WideDifficulty
  cumulativeDiffPreciseAdjusted : WideDifficulty
  stakeHash : Hash
  deriving DecidableEq, Repr

/-! ## `difficulty.cpp` -/

def difficultyWindow : Nat := 720

def difficultyCut : Nat := 60

def difficultyStarter : WideDifficulty := 1

def difficultyTarget : Nat := 120

/-- `get_adjustment_zone`: the range of entries, newest first, that an adjustment looks at. The
source throws when the range is too short. -/
def getAdjustmentZone (length window cutOld cutLast : Nat) : Option (Nat × Nat) :=
  let zone :=
    if length ≤ window - (cutOld + cutLast) then (0, length)
    else
      let cutBegin := cutLast
      let cutEnd := cutBegin + (window - (cutOld + cutLast))
      (cutBegin, if cutEnd > length then length else cutEnd)
  if zone.1 + 2 ≤ zone.2 ∧ zone.2 ≤ length then some zone else none

def getAdjustmentForZone (timestampsSorted : List UInt64)
    (cumulativeDifficulties : List WideDifficulty) (targetSeconds window cutOld cutLast : Nat) :
    Option WideDifficulty := do
  let (cutBegin, cutEnd) ← getAdjustmentZone timestampsSorted.length window cutOld cutLast
  let timeSpan := (← timestampsSorted[cutBegin]?) - (← timestampsSorted[cutEnd - 1]?)
  let timeSpan := if timeSpan = 0 then 1 else timeSpan
  let totalWork := (← cumulativeDifficulties[cutBegin]?) - (← cumulativeDifficulties[cutEnd - 1]?)
  let res := (totalWork.toNat * targetSeconds + timeSpan.toNat - 1) / timeSpan.toNat
  return if res > 2 ^ 128 - 1 then 0 else BitVec.ofNat 128 res

/-- The mean of those adjustments that are not zero; the first one always counts. -/
def meanOfAdjustments (slow : WideDifficulty) (others : List WideDifficulty) : WideDifficulty :=
  let counted := others.filter (· ≠ 0)
  (counted.foldl (· + ·) slow) / BitVec.ofNat 128 (counted.length + 1)

/-- `vector::resize` -/
def resize (cumulativeDifficulties : List WideDifficulty) (size : Nat) : List WideDifficulty :=
  cumulativeDifficulties.take size ++ List.replicate (size - cumulativeDifficulties.length) 0

/-- `next_difficulty_1`, used before hardfork 1. Entries are newest first. -/
def nextDifficulty1 (timestamps : List UInt64) (cumulativeDifficulties : List WideDifficulty)
    (targetSeconds : Nat) (starter : WideDifficulty) : Option WideDifficulty :=
  let cumulativeDifficulties :=
    if difficultyWindow < timestamps.length then resize cumulativeDifficulties difficultyWindow
    else cumulativeDifficulties
  let timestamps := timestamps.take difficultyWindow
  if timestamps.length ≠ cumulativeDifficulties.length then some 0
  else if timestamps.length ≤ 1 then some starter
  else do
    let sorted := timestamps.insertionSort (· ≥ ·)
    let slow ← getAdjustmentForZone sorted cumulativeDifficulties targetSeconds difficultyWindow
      (difficultyCut / 2) (difficultyCut / 2)
    let medium ← getAdjustmentForZone sorted cumulativeDifficulties targetSeconds
      (difficultyWindow / 3) (difficultyCut / 8) (difficultyCut / 12)
    let fast ← getAdjustmentForZone sorted cumulativeDifficulties targetSeconds
      (difficultyWindow / 18) (difficultyCut / 10) 2
    return meanOfAdjustments slow [medium, fast]

/-- `next_difficulty_2`, used from hardfork 1 on. -/
def nextDifficulty2 (timestamps : List UInt64) (cumulativeDifficulties : List WideDifficulty)
    (targetSeconds : Nat) (starter : WideDifficulty) : Option WideDifficulty :=
  let cumulativeDifficulties :=
    if difficultyWindow < timestamps.length then resize cumulativeDifficulties difficultyWindow
    else cumulativeDifficulties
  let timestamps := timestamps.take difficultyWindow
  if timestamps.length ≠ cumulativeDifficulties.length then some 0
  else if timestamps.length ≤ 1 then some starter
  else do
    let sorted := timestamps.insertionSort (· ≥ ·)
    let slow ← getAdjustmentForZone sorted cumulativeDifficulties targetSeconds difficultyWindow
      (difficultyCut / 2) (difficultyCut / 2)
    let medium ← getAdjustmentForZone sorted cumulativeDifficulties targetSeconds
      (difficultyWindow / 3) (difficultyCut / 8) (difficultyCut / 12)
    return meanOfAdjustments slow [medium]

/-! ## Difficulty of the next block -/

/-- The blocks of one type after the genesis block, newest first. -/
def blocksOfType (chain : List BlockExtendedInfo) (pos : Bool) : List BlockExtendedInfo :=
  chain.tail.reverse.filter fun bei => bei.bl.isPos = pos

/-- `collect_timestamps_and_c_difficulties_main`, over the cache of the last `difficultyWindow + 5`
blocks of the type. -/
def targetData (chain : List BlockExtendedInfo) (pos : Bool) : List BlockExtendedInfo :=
  ((blocksOfType chain pos).take (difficultyWindow + 5)).take difficultyWindow

def calcDiffAtHFromTimestamps (forks : HardForks) (timestamps : List UInt64)
    (cumulativeDifficulties : List WideDifficulty) (h : Nat) : Option WideDifficulty :=
  if forks.isHardforkActiveForHeight 1 h then
    nextDifficulty2 timestamps cumulativeDifficulties difficultyTarget difficultyStarter
  else nextDifficulty1 timestamps cumulativeDifficulties difficultyTarget difficultyStarter

/-- `get_next_diff_conditional`, without the cache that the source fills on the way. -/
def getNextDiffConditional (forks : HardForks) (chain : List BlockExtendedInfo) (pos : Bool) :
    Option WideDifficulty :=
  if chain = [] then some difficultyStarter
  else
    let data := targetData chain pos
    calcDiffAtHFromTimestamps forks (data.map (·.bl.timestamp)) (data.map (·.cumulativeDiffPrecise))
      chain.length

/-! ## Cumulative difficulties -/

/-- Takes a quarter off for each block of the sequence. -/
def correctDifficultyWithSequenceFactor : Nat → WideDifficulty → WideDifficulty
  | 0, diff => diff
  | factor + 1, diff => correctDifficultyWithSequenceFactor factor (diff - diff / 4)

/-- `get_current_sequence_factor`: how many blocks of the type end the chain, the genesis block not
counted. -/
def getCurrentSequenceFactor (chain : List BlockExtendedInfo) (pos : Bool) : Nat :=
  (chain.tail.reverse.takeWhile fun bei => bei.bl.isPos = pos).length

/-- `get_adjusted_cumulative_difficulty_for_next_pos`: rescales a PoS difficulty by the last PoW and
PoS difficulties, the genesis block included. -/
def getAdjustedCumulativeDifficultyForNextPos (chain : List BlockExtendedInfo)
    (nextDiff : WideDifficulty) : WideDifficulty :=
  let last (pos : Bool) : WideDifficulty :=
    ((chain.reverse.find? fun bei => bei.bl.isPos = pos ∧ bei.difficulty ≠ 0).map
      (·.difficulty)).getD 0
  if last true = 0 then nextDiff else nextDiff * last false / last true

/-- The record that `handle_block_to_main_chain` builds for a block on top of `chain`. The first
block of a type starts its cumulative difficulties anew; the genesis block counts for no type. A
zero difficulty is refused. -/
def extendedInfo (forks : HardForks) (posMinimumHeight : Nat) (chain : List BlockExtendedInfo)
    (bl : Block) : Option BlockExtendedInfo := do
  let difficulty ← getNextDiffConditional forks chain bl.isPos
  if difficulty = 0 then none
  let last := (blocksOfType chain bl.isPos).head?
  let sequenceFactor := getCurrentSequenceFactor chain bl.isPos
  let delta :=
    if bl.isPos then getAdjustedCumulativeDifficultyForNextPos chain difficulty else difficulty
  let delta :=
    if chain.length ≥ posMinimumHeight then correctDifficultyWithSequenceFactor sequenceFactor delta
    else delta
  return {
    bl := bl
    height := chain.length
    difficulty := difficulty
    cumulativeDiffAdjusted := ((chain.getLast?.map (·.cumulativeDiffAdjusted)).getD 0) + delta
    cumulativeDiffPrecise := ((last.map (·.cumulativeDiffPrecise)).getD 0) + difficulty
    cumulativeDiffPreciseAdjusted := ((last.map (·.cumulativeDiffPreciseAdjusted)).getD 0) +
      correctDifficultyWithSequenceFactor sequenceFactor difficulty
    stakeHash := if bl.isPos then bl.proof else 0 }

/-- The chain of records that the blocks build one after another. -/
def buildChain (forks : HardForks) (posMinimumHeight : Nat) :
    List BlockExtendedInfo → List Block → Option (List BlockExtendedInfo)
  | chain, [] => some chain
  | chain, bl :: bls => do
      let bei ← extendedInfo forks posMinimumHeight chain bl
      buildChain forks posMinimumHeight (chain ++ [bei]) bls

/-- A chain whose difficulty fields are the ones that the node computes. -/
inductive Consistent (forks : HardForks) (posMinimumHeight : Nat) : List BlockExtendedInfo → Prop
  | nil : Consistent forks posMinimumHeight []
  | snoc {chain : List BlockExtendedInfo} {bl : Block} {bei : BlockExtendedInfo} :
      Consistent forks posMinimumHeight chain →
      extendedInfo forks posMinimumHeight chain bl = some bei →
      Consistent forks posMinimumHeight (chain ++ [bei])

theorem consistent_buildChain {forks : HardForks} {posMinimumHeight : Nat} {bls : List Block}
    {chain final : List BlockExtendedInfo} (consistent : Consistent forks posMinimumHeight chain)
    (built : buildChain forks posMinimumHeight chain bls = some final) :
    Consistent forks posMinimumHeight final := by
  induction bls generalizing chain with
  | nil =>
      cases built
      exact consistent
  | cons bl bls inductionHypothesis =>
      obtain ⟨bei, extended, rest⟩ := Option.bind_eq_some_iff.mp built
      exact inductionHypothesis (.snoc consistent extended) rest

/-! ## What the next difficulty depends on -/

theorem blocksOfType_append {prior later : List BlockExtendedInfo} (nonempty : prior ≠ [])
    (pos : Bool) :
    blocksOfType (prior ++ later) pos =
      (later.reverse.filter fun bei => bei.bl.isPos = pos) ++ blocksOfType prior pos := by
  cases prior with
  | nil => exact absurd rfl nonempty
  | cons genesis rest => simp [blocksOfType, List.filter_append]

/-- Blocks of the other type do not change what comes next. -/
theorem blocksOfType_append_of_none {prior later : List BlockExtendedInfo} (nonempty : prior ≠ [])
    {pos : Bool} (noneLater : ∀ bei ∈ later, bei.bl.isPos ≠ pos) :
    blocksOfType (prior ++ later) pos = blocksOfType prior pos := by
  have empty : (later.reverse.filter fun bei => bei.bl.isPos = pos) = [] := by
    rw [List.filter_eq_nil_iff]
    intro bei inside
    simpa using noneLater bei (List.mem_reverse.mp inside)
  rw [blocksOfType_append nonempty, empty, List.nil_append]

/-- From hardfork 1 on, the height of the next block no longer matters. -/
theorem getNextDiff_append_of_none {forks : HardForks} {prior later : List BlockExtendedInfo}
    (nonempty : prior ≠ []) {pos : Bool} (noneLater : ∀ bei ∈ later, bei.bl.isPos ≠ pos)
    (active : forks.isHardforkActiveForHeight 1 prior.length = true) :
    getNextDiffConditional forks (prior ++ later) pos = getNextDiffConditional forks prior pos := by
  have laterActive : forks.isHardforkActiveForHeight 1 (prior ++ later).length = true := by
    simp only [HardForks.isHardforkActiveForHeight, Nat.reduceEqDiff, decide_false, Bool.false_or,
      decide_eq_true_eq, List.length_append] at active ⊢
    omega
  have sameData : targetData (prior ++ later) pos = targetData prior pos := by
    rw [targetData, targetData, blocksOfType_append_of_none nonempty noneLater]
  have appended : prior ++ later ≠ [] := by simp [nonempty]
  simp only [getNextDiffConditional, if_neg nonempty, if_neg appended, sameData,
    calcDiffAtHFromTimestamps, active, laterActive, if_true]

theorem extendedInfo_spec {forks : HardForks} {posMinimumHeight : Nat}
    {chain : List BlockExtendedInfo} {bl : Block} {bei : BlockExtendedInfo}
    (extended : extendedInfo forks posMinimumHeight chain bl = some bei) :
    bei.bl = bl ∧ bei.height = chain.length ∧ bei.difficulty ≠ 0 ∧
      getNextDiffConditional forks chain bl.isPos = some bei.difficulty ∧
      bei.stakeHash = if bl.isPos then bl.proof else 0 := by
  obtain ⟨difficulty, next, rest⟩ := Option.bind_eq_some_iff.mp extended
  by_cases zero : difficulty = 0
  · simp [zero] at rest
  · simp only [zero, if_false, Option.bind_eq_bind, Option.pure_def] at rest
    cases rest
    exact ⟨rfl, rfl, zero, next, rfl⟩

end Zano.Consensus
