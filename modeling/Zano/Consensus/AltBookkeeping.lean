import Mathlib
import Zano.Consensus.FeeMedian
import Zano.Consensus.ForkChoiceAsymmetry

/-! # The records of alternative blocks

A block's record is filled in by one function when the block extends the main chain and by another
when it extends an alternative chain. Both walk back over the blocks below, the one over the main
chain only, the other over the alternative chain and then the main chain below the split. The
difficulties agree; the median of the fees does not when the block has transactions without a fee.
-/

namespace Zano.Consensus

def posMinimumCoinstakeAge : Nat := 10

def currencyHf4MandatoryMinCoinage : Nat := 10

/-- A block with the fees of its transactions and the highest block that its stake refers to.
An alternative block counts its references into the main chain only, so on the same blocks its
stake can look older than on the main chain. The median of the fees is filled in when the
block joins a chain. -/
structure IncomingBlock where
  bl : Block
  fees : List UInt64
  maxRelatedBlockHeight : Nat
  altMaxRelatedBlockHeight : Nat
  deriving DecidableEq, Repr

/-- The age that a stake must have, by what is related to the block on the chain it joins. -/
def isCoinstakeAged (forks : HardForks) (height : Nat) (isPos : Bool)
    (maxRelatedBlockHeight : Nat) : Bool :=
  !isPos ||
    if forks.isHardforkActiveForHeight hardfork04Zarcanum height then
      decide (currencyHf4MandatoryMinCoinage ≤ height - maxRelatedBlockHeight)
    else decide (posMinimumCoinstakeAge ≤ height - maxRelatedBlockHeight - 1)

/-! ## The main chain -/

/-- `handle_block_to_main_chain`: only fees that are not zero count for the median. -/
def handleBlockToMainChain (forks : HardForks) (posMinimumHeight : Nat)
    (chain : List BlockExtendedInfo) (b : IncomingBlock) : Option BlockExtendedInfo :=
  let blockFees := paidFees b.fees
  if isCoinstakeAged forks chain.length b.bl.isPos b.maxRelatedBlockHeight then
    extendedInfo forks posMinimumHeight chain
      { b.bl with thisBlockTxFeeMedian := if blockFees = [] then 0 else median blockFees }
  else none

def buildMainChain (forks : HardForks) (posMinimumHeight : Nat) :
    List BlockExtendedInfo → List IncomingBlock → Option (List BlockExtendedInfo)
  | chain, [] => some chain
  | chain, b :: bs => do
      let bei ← handleBlockToMainChain forks posMinimumHeight chain b
      buildMainChain forks posMinimumHeight (chain ++ [bei]) bs

/-! ## Alternative chains -/

/-- `enum_blockchain`: the alternative chain from its head down, then the main chain below the
split, without the genesis block. -/
def enumBlockchain (dbBlocks altChain : List BlockExtendedInfo) (splitHeight : Nat) :
    List BlockExtendedInfo :=
  altChain.reverse ++ (dbBlocks.take splitHeight).tail.reverse

/-- `collect_timestamps_and_c_difficulties_alt`. -/
def targetDataAlt (dbBlocks altChain : List BlockExtendedInfo) (splitHeight : Nat) (pos : Bool) :
    List BlockExtendedInfo :=
  (((enumBlockchain dbBlocks altChain splitHeight).takeWhile fun bei => bei.height ≠ 0).filter
    fun bei => bei.bl.isPos = pos).take difficultyWindow

def getNextDiffConditionalAlt (forks : HardForks) (dbBlocks altChain : List BlockExtendedInfo)
    (pos : Bool) (splitHeight height : Nat) : Option WideDifficulty :=
  if dbBlocks = [] then some difficultyStarter
  else
    let data := targetDataAlt dbBlocks altChain splitHeight pos
    calcDiffAtHFromTimestamps forks (data.map (·.bl.timestamp))
      (data.map (·.cumulativeDiffPrecise)) height

/-- `get_current_sequence_factor_for_alt`. -/
def getCurrentSequenceFactorForAlt (dbBlocks altChain : List BlockExtendedInfo) (pos : Bool)
    (splitHeight : Nat) : Nat :=
  ((enumBlockchain dbBlocks altChain splitHeight).takeWhile fun bei => bei.bl.isPos = pos).length

/-- `get_adjusted_cumulative_difficulty_for_next_alt_pos`: here the genesis block does not count. -/
def getAdjustedCumulativeDifficultyForNextAltPos (dbBlocks altChain : List BlockExtendedInfo)
    (nextDiff : WideDifficulty) (splitHeight : Nat) : WideDifficulty :=
  let last (pos : Bool) : WideDifficulty :=
    (((enumBlockchain dbBlocks altChain splitHeight).find? fun bei => bei.bl.isPos = pos ∧
      bei.difficulty ≠ 0).map
      (·.difficulty)).getD 0
  if last true = 0 then nextDiff else nextDiff * last false / last true

/-- The record that `handle_alternative_block` builds for a block on top of `altChain`; the median
of the fees is taken in `validate_alt_block_txs`. -/
def altExtendedInfo (forks : HardForks) (posMinimumHeight : Nat)
    (dbBlocks altChain : List BlockExtendedInfo) (splitHeight : Nat) (b : IncomingBlock) :
    Option BlockExtendedInfo := do
  let height := match altChain.getLast? with
    | some prev => prev.height + 1
    | none => splitHeight
  let difficulty ← getNextDiffConditionalAlt forks dbBlocks altChain b.bl.isPos splitHeight height
  if difficulty = 0 ∨ !isCoinstakeAged forks height b.bl.isPos b.altMaxRelatedBlockHeight then none
  let previous := match altChain.getLast? with
    | some prev => some prev
    | none => dbBlocks[splitHeight - 1]?
  let delta :=
    if b.bl.isPos then
      getAdjustedCumulativeDifficultyForNextAltPos dbBlocks altChain difficulty splitHeight
    else difficulty
  let sequenceFactor := getCurrentSequenceFactorForAlt dbBlocks altChain b.bl.isPos splitHeight
  let delta :=
    if height ≥ posMinimumHeight then correctDifficultyWithSequenceFactor sequenceFactor delta
    else delta
  let last := getLastAltXBlock ⟨dbBlocks, fun _ => 0⟩ altChain (height - 1) b.bl.isPos
  return {
    bl := { b.bl with thisBlockTxFeeMedian := median b.fees }
    height := height
    difficulty := difficulty
    cumulativeDiffAdjusted := ((previous.map (·.cumulativeDiffAdjusted)).getD 0) + delta
    cumulativeDiffPrecise := ((last.map (·.cumulativeDiffPrecise)).getD 0) + difficulty
    cumulativeDiffPreciseAdjusted := ((last.map (·.cumulativeDiffPreciseAdjusted)).getD 0) +
      correctDifficultyWithSequenceFactor sequenceFactor difficulty
    stakeHash := if b.bl.isPos then b.bl.proof else 0 }

/-- The records of the blocks of an alternative chain, one after another. -/
def buildAltChain (forks : HardForks) (posMinimumHeight : Nat) (dbBlocks : List BlockExtendedInfo)
    (splitHeight : Nat) :
    List BlockExtendedInfo → List IncomingBlock → Option (List BlockExtendedInfo)
  | altChain, [] => some altChain
  | altChain, b :: bs => do
      let bei ← altExtendedInfo forks posMinimumHeight dbBlocks altChain splitHeight b
      buildAltChain forks posMinimumHeight dbBlocks splitHeight (altChain ++ [bei]) bs

/-! ## The walks agree -/

/-- A chain as both functions build it: every block knows its height, no difficulty is zero, and a
stake is not found before its age. -/
def Placed (chain : List BlockExtendedInfo) : Prop :=
  ∀ (i : Nat) (bei : BlockExtendedInfo), chain[i]? = some bei →
    bei.height = i ∧ bei.difficulty ≠ 0 ∧
    (bei.bl.isPos = true → 2 ≤ i)

section Walks

variable {forks : HardForks} {posMinimumHeight splitHeight : Nat}
  {dbBlocks altChain : List BlockExtendedInfo}

/-- The chain that an alternative chain makes. -/
def wholeChain (dbBlocks altChain : List BlockExtendedInfo) (splitHeight : Nat) :
    List BlockExtendedInfo :=
  dbBlocks.take splitHeight ++ altChain

theorem wholeChain_snoc (dbBlocks altChain : List BlockExtendedInfo) (splitHeight : Nat)
    (bei : BlockExtendedInfo) :
    wholeChain dbBlocks (altChain ++ [bei]) splitHeight =
      wholeChain dbBlocks altChain splitHeight ++ [bei] :=
  (List.append_assoc _ _ _).symm

/-- The split is above the genesis block and not above the main chain. -/
structure SplitsAt (dbBlocks : List BlockExtendedInfo) (splitHeight : Nat) : Prop where
  positive : 0 < splitHeight
  within : splitHeight ≤ dbBlocks.length

theorem SplitsAt.length_take (splits : SplitsAt dbBlocks splitHeight) :
    (dbBlocks.take splitHeight).length = splitHeight := by
  rw [List.length_take]
  exact Nat.min_eq_left splits.within

theorem SplitsAt.take_ne_nil (splits : SplitsAt dbBlocks splitHeight) :
    dbBlocks.take splitHeight ≠ [] := by
  apply List.ne_nil_of_length_pos
  rw [splits.length_take]
  exact splits.positive

theorem SplitsAt.enumBlockchain_eq (splits : SplitsAt dbBlocks splitHeight) :
    enumBlockchain dbBlocks altChain splitHeight =
      (wholeChain dbBlocks altChain splitHeight).tail.reverse := by
  rw [enumBlockchain, wholeChain, List.tail_append_of_ne_nil splits.take_ne_nil,
    List.reverse_append]

theorem Placed.height_ne_zero {chain : List BlockExtendedInfo} (placed : Placed chain)
    {bei : BlockExtendedInfo} (inside : bei ∈ chain.tail) : bei.height ≠ 0 := by
  obtain ⟨i, isThere⟩ := List.mem_iff_getElem?.mp inside
  rw [List.getElem?_tail] at isThere
  rw [(placed (i + 1) bei isThere).1]
  exact Nat.succ_ne_zero i

theorem Placed.targetDataAlt_eq (placed : Placed (wholeChain dbBlocks altChain splitHeight))
    (splits : SplitsAt dbBlocks splitHeight) (pos : Bool) :
    targetDataAlt dbBlocks altChain splitHeight pos =
      targetData (wholeChain dbBlocks altChain splitHeight) pos := by
  have all : ((wholeChain dbBlocks altChain splitHeight).tail.reverse.takeWhile fun bei =>
      decide (bei.height ≠ 0)) =
      (wholeChain dbBlocks altChain splitHeight).tail.reverse := by
    rw [List.takeWhile_eq_self_iff]
    intro bei inside
    exact decide_eq_true (placed.height_ne_zero (List.mem_reverse.mp inside))
  rw [targetDataAlt, splits.enumBlockchain_eq, all, targetData, List.take_take, blocksOfType]
  rfl

theorem Placed.getNextDiffConditionalAlt_eq
    (placed : Placed (wholeChain dbBlocks altChain splitHeight))
    (splits : SplitsAt dbBlocks splitHeight) (pos : Bool) :
    getNextDiffConditionalAlt forks dbBlocks altChain pos splitHeight
      (wholeChain dbBlocks altChain splitHeight).length =
      getNextDiffConditional forks (wholeChain dbBlocks altChain splitHeight) pos := by
  have some_ : dbBlocks ≠ [] := by
    rintro rfl
    exact splits.take_ne_nil List.take_nil
  have whole : wholeChain dbBlocks altChain splitHeight ≠ [] := by
    rw [wholeChain]
    exact List.append_ne_nil_of_left_ne_nil splits.take_ne_nil altChain
  simp only [getNextDiffConditionalAlt, getNextDiffConditional, if_neg some_, if_neg whole,
    placed.targetDataAlt_eq splits]

/-- The genesis block is of the PoW type, and before the first stake there is another block of that
type; so it does not matter whether the genesis block counts. -/
theorem Placed.adjusted_eq (placed : Placed (wholeChain dbBlocks altChain splitHeight))
    (splits : SplitsAt dbBlocks splitHeight) (nextDiff : WideDifficulty) :
    getAdjustedCumulativeDifficultyForNextAltPos dbBlocks altChain nextDiff splitHeight =
      getAdjustedCumulativeDifficultyForNextPos (wholeChain dbBlocks altChain splitHeight)
        nextDiff := by
  rw [getAdjustedCumulativeDifficultyForNextAltPos, getAdjustedCumulativeDifficultyForNextPos,
    splits.enumBlockchain_eq]
  generalize wholeChain dbBlocks altChain splitHeight = chain at placed
  cases chain with
  | nil => rfl
  | cons genesis rest =>
      obtain ⟨-, -, notPos⟩ := placed 0 genesis rfl
      have isPow : genesis.bl.isPos = false := by
        by_contra isPos
        have := notPos (by simpa using isPos)
        omega
      have nonzero : ∀ bei ∈ rest, bei.difficulty ≠ 0 ∧
          (bei.bl.isPos = true → ∃ pow ∈ rest, pow.bl.isPos = false) := by
        intro bei inside
        obtain ⟨i, isThere⟩ := List.mem_iff_getElem?.mp inside
        refine ⟨(placed (i + 1) bei isThere).2.1, fun _ => ?_⟩
        cases rest with
        | nil => cases inside
        | cons second later =>
            refine ⟨second, List.mem_cons_self, ?_⟩
            by_contra isPos
            have := (placed 1 second rfl).2.2 (by simpa using isPos)
            omega
      have genesisOther : ¬(genesis.bl.isPos = true ∧ genesis.difficulty ≠ 0) := by simp [isPow]
      rw [List.tail_cons, List.reverse_cons]
      simp only [List.find?_append, List.find?_singleton, genesisOther, decide_false,
        Bool.false_eq_true, if_false, Option.or_none]
      cases lastPos : rest.reverse.find? fun bei =>
        decide (bei.bl.isPos = true ∧ bei.difficulty ≠ 0) with
      | none => rfl
      | some bei =>
          have inside : bei ∈ rest := List.mem_reverse.mp (List.mem_of_find?_eq_some lastPos)
          have meets := List.find?_some lastPos
          rw [decide_eq_true_eq] at meets
          have isPos := meets.1
          obtain ⟨pow, powInside, powOther⟩ := (nonzero bei inside).2 isPos
          cases lastPow : rest.reverse.find? fun bei =>
            decide (bei.bl.isPos = false ∧ bei.difficulty ≠ 0) with
          | none =>
              exfalso
              have notThere := List.find?_eq_none.mp lastPow pow (List.mem_reverse.mpr powInside)
              exact notThere (decide_eq_true ⟨powOther, (nonzero pow powInside).1⟩)
          | some bei' => rw [Option.some_or]

theorem SplitsAt.getLastAltXBlock_eq (splits : SplitsAt dbBlocks splitHeight) (pos : Bool)
    (height : Nat) (isFirst : ∀ front, altChain.head? = some front → front.height = splitHeight)
    (noFirst : altChain = [] → height = splitHeight) :
    getLastAltXBlock ⟨dbBlocks, fun _ => 0⟩ altChain (height - 1) pos =
      (blocksOfType (wholeChain dbBlocks altChain splitHeight) pos).head? := by
  have onMain : dbBlocks = dbBlocks.take splitHeight ++ dbBlocks.drop splitHeight :=
    (List.take_append_drop splitHeight dbBlocks).symm
  have length := splits.length_take
  rw [blocksOfType, List.head?_filter]
  cases altChain with
  | nil =>
      rw [noFirst rfl, wholeChain, List.append_nil]
      have isLast :
          getLastAltXBlock ⟨dbBlocks, fun _ => 0⟩ [] ((dbBlocks.take splitHeight).length - 1) pos =
          lastOfType (dbBlocks.take splitHeight) pos :=
            getLastAltXBlock_split splits.take_ne_nil onMain pos
      rw [length] at isLast
      exact isLast
  | cons front rest =>
      have isFront : front.height = (dbBlocks.take splitHeight).length := by
        rw [length]
        exact isFirst front rfl
      exact getLastAltXBlock_alt splits.take_ne_nil onMain rfl isFront (height - 1) pos

/-- The height that the alternative path finds for a block. -/
theorem Placed.height_eq (placed : Placed (wholeChain dbBlocks altChain splitHeight))
    (splits : SplitsAt dbBlocks splitHeight) :
    (match altChain.getLast? with
      | some prev => prev.height + 1
      | none => splitHeight) = (wholeChain dbBlocks altChain splitHeight).length := by
  have length := splits.length_take
  cases last : altChain.getLast? with
  | none => rw [List.getLast?_eq_none_iff.mp last, wholeChain, List.append_nil, length]
  | some prev =>
      have isThere :
          (wholeChain dbBlocks altChain splitHeight)[splitHeight + (altChain.length - 1)]? =
            some prev := by
        rw [List.getLast?_eq_getElem?] at last
        rw [wholeChain, List.getElem?_append_right (by omega), length,
          Nat.add_sub_cancel_left, last]
      have nonempty : 0 < altChain.length := by
        apply List.length_pos_iff.mpr
        rintro rfl
        cases last
      dsimp only
      rw [(placed _ prev isThere).1, wholeChain, List.length_append, length]
      omega

/-- The block that the alternative path goes on from. -/
theorem SplitsAt.previous_eq (splits : SplitsAt dbBlocks splitHeight) :
    (match altChain.getLast? with
      | some prev => some prev
      | none =>
          dbBlocks[splitHeight - 1]?) = (wholeChain dbBlocks altChain splitHeight).getLast? := by
  have positive := splits.positive
  have inside := splits.within
  rw [wholeChain, List.getLast?_append]
  cases last : altChain.getLast? with
  | some prev => rfl
  | none =>
      rw [Option.none_or, List.getLast?_eq_getElem?, splits.length_take, List.getElem?_take,
        if_pos (by omega)]

/-- On a chain that is placed, the two records of a block differ in the median of the fees only. -/
theorem Placed.altExtendedInfo_eq (placed : Placed (wholeChain dbBlocks altChain splitHeight))
    (splits : SplitsAt dbBlocks splitHeight) (b : IncomingBlock) :
    altExtendedInfo forks posMinimumHeight dbBlocks altChain splitHeight b =
      if isCoinstakeAged forks (wholeChain dbBlocks altChain splitHeight).length b.bl.isPos
          b.altMaxRelatedBlockHeight then
        extendedInfo forks posMinimumHeight (wholeChain dbBlocks altChain splitHeight)
          { b.bl with thisBlockTxFeeMedian := median b.fees }
      else none := by
  have length := splits.length_take
  have lasts : getLastAltXBlock ⟨dbBlocks, fun _ => 0⟩ altChain
      ((wholeChain dbBlocks altChain splitHeight).length - 1) b.bl.isPos =
      (blocksOfType (wholeChain dbBlocks altChain splitHeight) b.bl.isPos).head? := by
    refine splits.getLastAltXBlock_eq b.bl.isPos _ ?_ ?_
    · intro front isFront
      refine (placed splitHeight front ?_).1
      rw [wholeChain, List.getElem?_append_right (by omega), length,
        Nat.sub_self, ← List.head?_eq_getElem?, isFront]
    · intro nothing
      rw [nothing, wholeChain, List.append_nil, length]
  have factor : getCurrentSequenceFactorForAlt dbBlocks altChain b.bl.isPos splitHeight =
      getCurrentSequenceFactor (wholeChain dbBlocks altChain splitHeight) b.bl.isPos := by
    rw [getCurrentSequenceFactorForAlt, splits.enumBlockchain_eq, getCurrentSequenceFactor]
  unfold altExtendedInfo extendedInfo
  simp only [placed.height_eq splits, splits.previous_eq, lasts, factor,
    placed.getNextDiffConditionalAlt_eq splits, placed.adjusted_eq splits]
  cases next :
    getNextDiffConditional forks (wholeChain dbBlocks altChain splitHeight) b.bl.isPos with
  | none => simp
  | some difficulty =>
      by_cases aged :
        isCoinstakeAged forks (wholeChain dbBlocks altChain splitHeight).length b.bl.isPos
          b.altMaxRelatedBlockHeight = true
      · by_cases zero : difficulty = 0 <;> simp [aged, zero]
      · simp [aged]

end Walks

/-! ## The records agree -/

/-- A record without the median of the fees, which no difficulty depends on. -/
def BlockExtendedInfo.withoutMedian (bei : BlockExtendedInfo) : BlockExtendedInfo :=
  { bei with bl := { bei.bl with thisBlockTxFeeMedian := 0 } }

section Records

variable {forks : HardForks} {posMinimumHeight splitHeight : Nat}

theorem blocksOfType_withoutMedian (chain : List BlockExtendedInfo) (pos : Bool) :
    blocksOfType (chain.map BlockExtendedInfo.withoutMedian) pos =
      (blocksOfType chain pos).map BlockExtendedInfo.withoutMedian := by
  rw [blocksOfType, blocksOfType, ← List.map_tail, ← List.map_reverse, List.filter_map]
  rfl

theorem getNextDiffConditional_withoutMedian (chain : List BlockExtendedInfo) (pos : Bool) :
    getNextDiffConditional forks (chain.map BlockExtendedInfo.withoutMedian) pos =
      getNextDiffConditional forks chain pos := by
  have data : targetData (chain.map BlockExtendedInfo.withoutMedian) pos =
      (targetData chain pos).map BlockExtendedInfo.withoutMedian := by
    rw [targetData, targetData, blocksOfType_withoutMedian, List.map_take, List.map_take]
  simp only [getNextDiffConditional, List.map_eq_nil_iff, data, List.map_map, List.length_map]
  rfl

theorem getCurrentSequenceFactor_withoutMedian (chain : List BlockExtendedInfo) (pos : Bool) :
    getCurrentSequenceFactor (chain.map BlockExtendedInfo.withoutMedian) pos =
      getCurrentSequenceFactor chain pos := by
  rw [getCurrentSequenceFactor, getCurrentSequenceFactor, ← List.map_tail, ← List.map_reverse,
    List.takeWhile_map, List.length_map]
  rfl

theorem getAdjusted_withoutMedian (chain : List BlockExtendedInfo) (nextDiff : WideDifficulty) :
    getAdjustedCumulativeDifficultyForNextPos (chain.map BlockExtendedInfo.withoutMedian) nextDiff =
      getAdjustedCumulativeDifficultyForNextPos chain nextDiff := by
  simp only [getAdjustedCumulativeDifficultyForNextPos, ← List.map_reverse, List.find?_map,
    Option.map_map]
  rfl

/-- The medians of the fees of the blocks below do not enter a record, and that of the block itself
only as it is. -/
theorem extendedInfo_withoutMedian (chain : List BlockExtendedInfo) (bl : Block)
    (feeMedian : UInt64) :
    extendedInfo forks posMinimumHeight (chain.map BlockExtendedInfo.withoutMedian)
        { bl with thisBlockTxFeeMedian := feeMedian } =
      (extendedInfo forks posMinimumHeight chain bl).map fun bei =>
        { bei with bl := { bei.bl with thisBlockTxFeeMedian := feeMedian } } := by
  unfold extendedInfo
  simp only [getNextDiffConditional_withoutMedian, getCurrentSequenceFactor_withoutMedian,
    getAdjusted_withoutMedian, blocksOfType_withoutMedian, List.length_map, List.head?_map,
    List.getLast?_map, Option.map_map]
  cases getNextDiffConditional forks chain bl.isPos with
  | none => rfl
  | some difficulty =>
      by_cases zero : difficulty = 0
      · simp [zero]
      · simp only [Option.bind_eq_bind, Option.bind_some, if_neg zero, Option.pure_def,
          Option.map_some]
        rfl

/-- The two records of one block: they agree but for the medians, and each median is the
one of its function. -/
structure SameRecord (b : IncomingBlock) (onAlt onMain : BlockExtendedInfo) : Prop where
  apart : onAlt.withoutMedian = onMain.withoutMedian
  altMedian : onAlt.bl.thisBlockTxFeeMedian = median b.fees
  mainMedian : onMain.bl.thisBlockTxFeeMedian = median (paidFees b.fees)

theorem Placed.take {chain : List BlockExtendedInfo} (placed : Placed chain) (n : Nat) :
    Placed (chain.take n) := by
  intro i bei isThere
  rw [List.getElem?_take] at isThere
  split at isThere
  · exact placed i bei isThere
  · cases isThere

/-- A stake is at least ten blocks old, so it cannot be one of the first ten blocks. -/
theorem isCoinstakeAged_height {height maxRelatedBlockHeight : Nat}
    (aged : isCoinstakeAged forks height true maxRelatedBlockHeight = true) : 10 ≤ height := by
  rw [isCoinstakeAged, Bool.not_true, Bool.false_or] at aged
  split at aged
  · have old := of_decide_eq_true aged
    simp only [currencyHf4MandatoryMinCoinage] at old
    omega
  · have old := of_decide_eq_true aged
    simp only [posMinimumCoinstakeAge] at old
    omega

theorem Placed.snoc {chain : List BlockExtendedInfo} {bl : Block} {isPos : Bool}
    {maxRelatedBlockHeight : Nat} {bei : BlockExtendedInfo} (placed : Placed chain)
    (aged : isCoinstakeAged forks chain.length isPos maxRelatedBlockHeight = true)
    (extended : extendedInfo forks posMinimumHeight chain bl = some bei)
    (sameType : bl.isPos = isPos) : Placed (chain ++ [bei]) := by
  obtain ⟨sameBlock, height, nonzero, -, -⟩ := extendedInfo_spec extended
  intro i at_ isThere
  by_cases inside : i < chain.length
  · rw [List.getElem?_append_left inside] at isThere
    exact placed i at_ isThere
  · rw [List.getElem?_append_right (by omega), List.getElem?_singleton] at isThere
    split at isThere
    · next isLast =>
        cases isThere
        have isLength : i = chain.length := by omega
        refine ⟨height.trans isLength.symm, nonzero, fun isPos => ?_⟩
        rw [← sameType, ← sameBlock, isPos] at aged
        have := isCoinstakeAged_height aged
        omega
    · cases isThere

/-- The median of no fees is zero, so the case of a block without fees needs no
treatment of its own. -/
theorem handleBlockToMainChain_eq (chain : List BlockExtendedInfo) (b : IncomingBlock) :
    handleBlockToMainChain forks posMinimumHeight chain b =
      if isCoinstakeAged forks chain.length b.bl.isPos b.maxRelatedBlockHeight then
        extendedInfo forks posMinimumHeight chain
          { b.bl with thisBlockTxFeeMedian := median (paidFees b.fees) }
      else none := by
  have noFees : (if paidFees b.fees = [] then 0 else median (paidFees b.fees)) =
      median (paidFees b.fees) := by
    split
    · next nothing =>
        rw [nothing]
        rfl
    · rfl
  simp only [handleBlockToMainChain, noFees]

theorem placed_buildMainChain {bs : List IncomingBlock} {chain final : List BlockExtendedInfo}
    (placed : Placed chain)
    (built : buildMainChain forks posMinimumHeight chain bs = some final) : Placed final := by
  induction bs generalizing chain with
  | nil =>
      cases built
      exact placed
  | cons b bs inductionHypothesis =>
      obtain ⟨bei, handled, rest⟩ := Option.bind_eq_some_iff.mp built
      rw [handleBlockToMainChain_eq, Option.ite_none_right_eq_some] at handled
      obtain ⟨aged, extended⟩ := handled
      exact inductionHypothesis (placed.snoc aged extended rfl) rest

/-- One block that both an alternative chain and the main chain of the same blocks accept. -/
theorem sameRecord_of_altExtendedInfo {dbBlocks altChain chain : List BlockExtendedInfo}
    {b : IncomingBlock} {onAlt onMain : BlockExtendedInfo}
    (placed : Placed (wholeChain dbBlocks altChain splitHeight))
    (splits : SplitsAt dbBlocks splitHeight)
    (same : (wholeChain dbBlocks altChain splitHeight).map BlockExtendedInfo.withoutMedian =
      chain.map BlockExtendedInfo.withoutMedian)
    (accepted : altExtendedInfo forks posMinimumHeight dbBlocks altChain splitHeight b = some onAlt)
    (handled : handleBlockToMainChain forks posMinimumHeight chain b = some onMain) :
    SameRecord b onAlt onMain ∧ Placed (wholeChain dbBlocks (altChain ++ [onAlt]) splitHeight) := by
  rw [placed.altExtendedInfo_eq splits, Option.ite_none_right_eq_some] at accepted
  rw [handleBlockToMainChain_eq, Option.ite_none_right_eq_some] at handled
  obtain ⟨aged, extended⟩ := accepted
  obtain ⟨-, extended'⟩ := handled
  have apart : (extendedInfo forks posMinimumHeight chain
      { b.bl with thisBlockTxFeeMedian := median (paidFees b.fees) }).map
        BlockExtendedInfo.withoutMedian =
      some onAlt.withoutMedian := by
    have withoutMedian (chain : List BlockExtendedInfo) (feeMedian : UInt64) :
        extendedInfo forks posMinimumHeight (chain.map BlockExtendedInfo.withoutMedian)
          { b.bl with thisBlockTxFeeMedian := 0 } =
        (extendedInfo forks posMinimumHeight chain
          { b.bl with thisBlockTxFeeMedian := feeMedian }).map
          BlockExtendedInfo.withoutMedian :=
      extendedInfo_withoutMedian chain { b.bl with thisBlockTxFeeMedian := feeMedian } 0
    have onWhole := withoutMedian (wholeChain dbBlocks altChain splitHeight) (median b.fees)
    rw [same, extended] at onWhole
    exact (withoutMedian chain _).symm.trans onWhole
  rw [extended', Option.map_some, Option.some.injEq] at apart
  refine ⟨⟨apart.symm, ?_, ?_⟩, ?_⟩
  · rw [(extendedInfo_spec extended).1]
  · rw [(extendedInfo_spec extended').1]
  · rw [wholeChain_snoc]
    exact placed.snoc aged extended rfl

/-- By induction on the blocks: the alternative chain and the main chain of the same blocks are the
same but for the medians, so each accepts the next block with the same record. -/
theorem records_of_buildAltChain {dbBlocks : List BlockExtendedInfo}
    (splits : SplitsAt dbBlocks splitHeight) {bs : List IncomingBlock}
    {altChain chain final final' : List BlockExtendedInfo}
    (placed : Placed (wholeChain dbBlocks altChain splitHeight))
    (same : (wholeChain dbBlocks altChain splitHeight).map BlockExtendedInfo.withoutMedian =
      chain.map BlockExtendedInfo.withoutMedian)
    (built : buildAltChain forks posMinimumHeight dbBlocks splitHeight altChain bs = some final)
    (built' : buildMainChain forks posMinimumHeight chain bs = some final') :
    ∃ onAlt onMain, final = altChain ++ onAlt ∧ final' = chain ++ onMain ∧
      onAlt.length = bs.length ∧ onMain.length = bs.length ∧
      ∀ (i : Nat) (b : IncomingBlock) (bei bei' : BlockExtendedInfo), bs[i]? = some b →
        onAlt[i]? = some bei →
        onMain[i]? = some bei' → SameRecord b bei bei' := by
  induction bs generalizing altChain chain with
  | nil =>
      cases built
      cases built'
      refine ⟨[], [], (List.append_nil _).symm, (List.append_nil _).symm, rfl, rfl, ?_⟩
      intro i b bei bei' isBlock
      cases isBlock
  | cons b bs inductionHypothesis =>
      obtain ⟨bei, accepted, rest⟩ := Option.bind_eq_some_iff.mp built
      obtain ⟨bei', handled, rest'⟩ := Option.bind_eq_some_iff.mp built'
      obtain ⟨record, placed'⟩ := sameRecord_of_altExtendedInfo placed splits same accepted handled
      have same' : (wholeChain dbBlocks (altChain ++ [bei]) splitHeight).map
          BlockExtendedInfo.withoutMedian =
          (chain ++ [bei']).map BlockExtendedInfo.withoutMedian := by
        rw [wholeChain_snoc, List.map_append, List.map_append, same, List.map_singleton,
          List.map_singleton, record.apart]
      obtain ⟨onAlt, onMain, final_, final_', altLength, mainLength, records⟩ :=
        inductionHypothesis placed' same' rest rest'
      refine ⟨bei :: onAlt, bei' :: onMain, ?_, ?_, ?_, ?_, ?_⟩
      · rw [final_, List.append_assoc]
        rfl
      · rw [final_', List.append_assoc]
        rfl
      · rw [List.length_cons, altLength, List.length_cons]
      · rw [List.length_cons, mainLength, List.length_cons]
      · intro i b' onAlt' onMain' isBlock isAlt isMain
        cases i with
        | zero =>
            cases isBlock
            cases isAlt
            cases isMain
            exact record
        | succ i => exact records i b' onAlt' onMain' isBlock isAlt isMain

/-- The difficulties of a block's record are the same whether the block is accepted on an
alternative chain or on the main chain of the same blocks. The median of its fees is the same when
the zero fees do not change it, and only then, fees aside whose sums wrap around. -/
theorem alt_bookkeeping_agrees {dbBlocks altChain onMain : List BlockExtendedInfo}
    {mainBlocks altBlocks : List IncomingBlock}
    (main : buildMainChain forks posMinimumHeight [] mainBlocks = some dbBlocks)
    (splits : SplitsAt dbBlocks splitHeight)
    (alt : buildAltChain forks posMinimumHeight dbBlocks splitHeight [] altBlocks = some altChain)
    (onto : buildMainChain forks posMinimumHeight (dbBlocks.take splitHeight) altBlocks =
      some onMain) :
    ∃ made, onMain = dbBlocks.take splitHeight ++ made ∧
      altChain.length = altBlocks.length ∧ made.length = altBlocks.length ∧
      ∀ (i : Nat) (b : IncomingBlock) (onAlt onMain : BlockExtendedInfo), altBlocks[i]? = some b →
        altChain[i]? = some onAlt → made[i]? = some onMain →
        onAlt.difficulty = onMain.difficulty ∧
          onAlt.cumulativeDiffAdjusted = onMain.cumulativeDiffAdjusted ∧
        onAlt.cumulativeDiffPrecise = onMain.cumulativeDiffPrecise ∧
        onAlt.cumulativeDiffPreciseAdjusted = onMain.cumulativeDiffPreciseAdjusted ∧
        (FreeNotFelt b.fees → onAlt.bl.thisBlockTxFeeMedian = onMain.bl.thisBlockTxFeeMedian) ∧
        ((∀ fee ∈ b.fees, fee.toNat < 2 ^ 63) →
          onAlt.bl.thisBlockTxFeeMedian = onMain.bl.thisBlockTxFeeMedian → FreeNotFelt b.fees) := by
  have placed : Placed (wholeChain dbBlocks [] splitHeight) := by
    rw [wholeChain, List.append_nil]
    refine (placed_buildMainChain ?_ main).take splitHeight
    intro i bei isThere
    cases isThere
  have same : (wholeChain dbBlocks [] splitHeight).map BlockExtendedInfo.withoutMedian =
      (dbBlocks.take splitHeight).map BlockExtendedInfo.withoutMedian := by
    rw [wholeChain, List.append_nil]
  obtain ⟨onAlt, made, isAlt, madeMain, altLength, mainLength, records⟩ :=
    records_of_buildAltChain splits placed same alt onto
  rw [List.nil_append] at isAlt
  rw [isAlt]
  refine ⟨made, madeMain, altLength, mainLength, ?_⟩
  intro i b bei bei' isBlock isAlt isMain
  obtain ⟨apart, altMedian, mainMedian⟩ := records i b bei bei' isBlock isAlt isMain
  rw [altMedian, mainMedian]
  have field {α : Type} (f : BlockExtendedInfo → α) : f bei.withoutMedian = f bei'.withoutMedian :=
    congrArg f apart
  exact ⟨field (·.difficulty), field (·.cumulativeDiffAdjusted), field (·.cumulativeDiffPrecise),
    field (·.cumulativeDiffPreciseAdjusted), median_eq_of_freeNotFelt, freeNotFelt_of_median_eq⟩

end Records

def genesisBlock : IncomingBlock := ⟨⟨false, 60, 0, 0, 0⟩, [], 0, 0⟩

def blockWithFees (fees : List UInt64) : IncomingBlock :=
  ⟨⟨false, 120, 0, UInt64.ofNat fees.length, 0⟩, fees, 0, 0⟩

/-- A free transaction among three takes nothing from the median when the other two pay the same. -/
theorem alt_bookkeeping_agrees_free : ∃ dbBlocks altChain onMain made,
    buildMainChain ⟨fun _ => 0⟩ 0 [] [genesisBlock] = some dbBlocks ∧
    buildAltChain ⟨fun _ => 0⟩ 0 dbBlocks 1 [] [blockWithFees [3, 0, 3]] = some altChain ∧
    buildMainChain ⟨fun _ => 0⟩ 0 (dbBlocks.take 1) [blockWithFees [3, 0, 3]] = some onMain ∧
    onMain = dbBlocks.take 1 ++ made ∧ altChain.length = 1 ∧ made.length = 1 ∧
    ∀ alt main, altChain[0]? = some alt → made[0]? = some main →
      alt.difficulty = main.difficulty ∧
        alt.bl.thisBlockTxFeeMedian = main.bl.thisBlockTxFeeMedian := by
  obtain ⟨dbBlocks, altChain, onMain, main, splits, alt, onto⟩ : ∃ dbBlocks altChain onMain,
      buildMainChain ⟨fun _ => 0⟩ 0 [] [genesisBlock] = some dbBlocks ∧ SplitsAt dbBlocks 1 ∧
      buildAltChain ⟨fun _ => 0⟩ 0 dbBlocks 1 [] [blockWithFees [3, 0, 3]] = some altChain ∧
      buildMainChain ⟨fun _ => 0⟩ 0 (dbBlocks.take 1) [blockWithFees [3, 0, 3]] = some onMain :=
    ⟨_, _, _, rfl, ⟨by omega, by decide⟩, rfl, rfl⟩
  obtain ⟨made, madeMain, altLength, mainLength, records⟩ :=
    alt_bookkeeping_agrees main splits alt onto
  refine ⟨dbBlocks, altChain, onMain, made, main, alt, onto, madeMain, altLength, mainLength, ?_⟩
  intro bei bei' isAlt isMain
  obtain ⟨difficulty, -, -, -, sameMedian, -⟩ := records 0 _ bei bei' rfl isAlt isMain
  exact ⟨difficulty, sameMedian (by decide)⟩

/-- One free transaction and one that pays: the alternative chain halves the median. -/
theorem alt_fee_median_differs : ∃ genesis onAlt onMain,
    buildMainChain ⟨fun _ => 0⟩ 0 [] [genesisBlock] = some [genesis] ∧
    buildAltChain ⟨fun _ => 0⟩ 0 [genesis] 1 [] [blockWithFees [0, 10]] = some [onAlt] ∧
    buildMainChain ⟨fun _ => 0⟩ 0 [genesis] [blockWithFees [0, 10]] = some [genesis, onMain] ∧
    onAlt.bl.thisBlockTxFeeMedian = 5 ∧ onMain.bl.thisBlockTxFeeMedian = 10 :=
  ⟨_, _, _, rfl, rfl, rfl, rfl, rfl⟩

end Zano.Consensus
