import Mathlib
import Zano.Consensus.FeeMedian

/-! # The timestamps that a block is compared with

A block must not be older than the median of the timestamps of the sixty blocks before it. For a
block of the main chain these are the last sixty blocks of the main chain. For a block of an
alternative chain they are put together from the whole alternative chain, the latest block first,
and from the main chain below the split as far as blocks are missing. Without sixty timestamps there
is no such check; the check that a block does not come from the future is then made for the main
chain only.
-/

namespace Zano.Consensus

def blockchainTimestampCheckWindow : ℕ := 60
def currencyBlockFutureTimeLimit : UInt64 := 60 * 60 * 2
def currencyPosBlockFutureTimeLimit : UInt64 := 60 * 20

structure TimedBlock where
  timestamp : UInt64
  isPos : Bool
  deriving DecidableEq, Repr

/-- The two checks against the time, which both rules make in the same words. -/
def isInFuture (coreTime : UInt64) (b : TimedBlock) : Bool :=
  coreTime + currencyBlockFutureTimeLimit < b.timestamp ||
    b.isPos && coreTime + currencyPosBlockFutureTimeLimit < b.timestamp

def checkBlockTimestamp (coreTime : UInt64) (timestamps : List UInt64) (b : TimedBlock) : Bool :=
  if timestamps.length < blockchainTimestampCheckWindow then true
  else if isInFuture coreTime b then false
  else median timestamps ≤ b.timestamp

/-! ## The main chain -/

def getLastNBlocksTimestamps (chain : List UInt64) (n : ℕ) : List UInt64 :=
  chain.drop (if chain.length ≤ n then 0 else chain.length - n)

def checkBlockTimestampMain (coreTime : UInt64) (chain : List UInt64) (b : TimedBlock) : Bool :=
  if isInFuture coreTime b then false
  else checkBlockTimestamp coreTime
    (getLastNBlocksTimestamps chain blockchainTimestampCheckWindow) b

/-! ## Alternative chains -/

/-- The loop of `complete_timestamps_vector`. It stops before `stopOffset`, but not
before its first turn. -/
def pushTimestamps (main : List UInt64) (stopOffset : ℕ) : ℕ → List UInt64 → List UInt64
  | 0, timestamps => timestamps ++ [main.getD 0 0]
  | height + 1, timestamps =>
      if height = stopOffset then timestamps ++ [main.getD (height + 1) 0]
      else pushTimestamps main stopOffset height (timestamps ++ [main.getD (height + 1) 0])

/-- A height that the main chain does not have is an error, which is not looked at. -/
def completeTimestampsVector (main : List UInt64) (startTopHeight : ℕ)
    (timestamps : List UInt64) : List UInt64 :=
  if blockchainTimestampCheckWindow ≤ timestamps.length then timestamps
  else
    let needElements := blockchainTimestampCheckWindow - timestamps.length
    if startTopHeight < main.length then
      pushTimestamps main (if needElements < startTopHeight then startTopHeight - needElements
        else 0) startTopHeight
        timestamps
    else timestamps

/-- The check of `handle_alternative_block`. The alternative chain goes on from the block at
`splitHeight`. -/
def checkAlternativeTimestamp (coreTime : UInt64) (main : List UInt64) (splitHeight : ℕ)
    (altChain : List UInt64) (b : TimedBlock) : Bool :=
  checkBlockTimestamp coreTime (completeTimestampsVector main splitHeight altChain.reverse) b

/-! ## The window of an alternative block -/

theorem median_perm {timestamps others : List UInt64} (perm : timestamps.Perm others) :
    median timestamps = median others := by
  have sorted : timestamps.insertionSort (· ≤ ·) = others.insertionSort (· ≤ ·) := by
    have antisymmetric : ∀ a b : UInt64, a ∈ timestamps.insertionSort (· ≤ ·) →
        b ∈ others.insertionSort (· ≤ ·) →
        a ≤ b → b ≤ a → a = b := fun a b _ _ below above => UInt64.le_antisymm below above
    apply List.Perm.eq_of_pairwise antisymmetric
    · exact List.pairwise_insertionSort _ timestamps
    · exact List.pairwise_insertionSort _ others
    · exact (List.perm_insertionSort _ timestamps).trans
        (perm.trans (List.perm_insertionSort _ others).symm)
  rw [median_eq, median_eq, sorted, perm.length_eq]

theorem median_reverse (timestamps : List UInt64) : median timestamps.reverse = median timestamps :=
  median_perm (List.reverse_perm timestamps)

variable {main altChain : List UInt64} {stopOffset height : ℕ}

/-- The loop goes down to the height after `stopOffset`, and to the genesis block only
if it starts there. -/
theorem pushTimestamps_eq (inMain : height < main.length) (timestamps : List UInt64)
    (below : stopOffset < height ∨ height = 0) :
    pushTimestamps main stopOffset height timestamps =
      timestamps ++
        ((main.take (height + 1)).drop (if height = 0 then 0 else stopOffset + 1)).reverse := by
  induction height generalizing timestamps with
  | zero =>
      have first : main.take 1 = [main.getD 0 0] := by
        rw [List.getD_eq_getElem _ _ inMain, List.take_succ_eq_append_getElem inMain]
        simp
      simp [pushTimestamps, first]
  | succ height inductionHypothesis =>
      have last :
          main.take (height + 1 + 1) = main.take (height + 1) ++ [main.getD (height + 1) 0] := by
        rw [List.getD_eq_getElem _ _ inMain, List.take_succ_eq_append_getElem inMain]
      have size : (main.take (height + 1)).length = height + 1 := by
        rw [List.length_take]
        omega
      rw [pushTimestamps, last, if_neg (Nat.succ_ne_zero height)]
      split
      · next atEnd => rw [← atEnd, List.drop_left' size, List.reverse_singleton]
      · next above =>
          have further : stopOffset < height := by omega
          rw [inductionHypothesis (by omega) _ (Or.inl further), if_neg (by omega),
            List.drop_append_of_le_length (by omega),
            List.reverse_append, List.append_assoc]
          rfl

/-- The blocks from the genesis block to the head of the alternative chain. -/
def alternativeLine (main : List UInt64) (splitHeight : ℕ) (altChain : List UInt64) : List UInt64 :=
  main.take (splitHeight + 1) ++ altChain

variable {splitHeight : ℕ}

theorem length_alternativeLine (inMain : splitHeight < main.length) :
    (alternativeLine main splitHeight altChain).length = splitHeight + 1 + altChain.length := by
  rw [alternativeLine, List.length_append, List.length_take]
  omega

/-- The last blocks are in the alternative chain if it has so many. -/
theorem drop_alternativeLine (inMain : splitHeight < main.length) {n : ℕ}
    (enough : n ≤ altChain.length) :
    (alternativeLine main splitHeight altChain).drop
      ((alternativeLine main splitHeight altChain).length - n) =
      altChain.drop (altChain.length - n) := by
  have below : (main.take (splitHeight + 1)).length = splitHeight + 1 := by
    rw [List.length_take]
    omega
  have count : splitHeight + 1 + altChain.length - n = splitHeight + 1 + (altChain.length - n) := by
    omega
  rw [length_alternativeLine inMain, count, alternativeLine, List.drop_append, below,
    List.drop_eq_nil_of_le (by omega)]
  simp

theorem completeTimestampsVector_of_long (long : blockchainTimestampCheckWindow ≤ altChain.length) :
    completeTimestampsVector main splitHeight altChain.reverse = altChain.reverse := by
  rw [completeTimestampsVector, if_pos (by rwa [List.length_reverse])]

/-- What is put together for a short alternative chain: the last blocks, without the genesis block
unless the chain starts from there. -/
theorem completeTimestampsVector_eq (inMain : splitHeight < main.length)
    (short : altChain.length < blockchainTimestampCheckWindow) :
    completeTimestampsVector main splitHeight altChain.reverse =
      ((alternativeLine main splitHeight altChain).drop
        (if splitHeight = 0 then 0
          else if blockchainTimestampCheckWindow - altChain.length < splitHeight then
            splitHeight + 1 + altChain.length - blockchainTimestampCheckWindow
          else 1)).reverse := by
  have size : (main.take (splitHeight + 1)).length = splitHeight + 1 := by
    rw [List.length_take]
    omega
  have dropped : ∀ n ≤ splitHeight + 1, (main.take (splitHeight + 1) ++ altChain).drop n =
      (main.take (splitHeight + 1)).drop n ++ altChain :=
    fun n within => List.drop_append_of_le_length (by rw [size]; exact within)
  rw [completeTimestampsVector, List.length_reverse, if_neg (by omega)]
  dsimp only
  rw [if_pos inMain, pushTimestamps_eq inMain _ (by split <;> omega), alternativeLine,
    ← List.reverse_append]
  congr 1
  by_cases genesis : splitHeight = 0
  · rw [if_pos genesis, if_pos genesis, dropped _ (by omega)]
  · rw [if_neg genesis, if_neg genesis]
    by_cases longer : blockchainTimestampCheckWindow - altChain.length < splitHeight
    · rw [if_pos longer, if_pos longer, dropped _ (by omega)]
      congr 2
      omega
    · rw [if_neg longer, if_neg longer, dropped _ (by omega)]

theorem getLastNBlocksTimestamps_eq (chain : List UInt64) (n : ℕ) :
    getLastNBlocksTimestamps chain n = chain.drop (chain.length - n) := by
  rw [getLastNBlocksTimestamps]
  split
  · next short => rw [Nat.sub_eq_zero_of_le short]
  · rfl

/-! ## When the two rules agree -/

/-- When the two rules agree about a block after the split. With more than sixty blocks in
the alternative chain, the median of all of them has to say the same as that of the last
sixty. With fewer than sixty blocks below, or sixty of which the genesis block is left out,
the rule for alternative chains accepts every block. In all other cases the same sixty
timestamps are looked at. -/
def TimestampRulesAgree (coreTime : UInt64) (main : List UInt64) (splitHeight : ℕ)
    (altChain : List UInt64) (b : TimedBlock) : Prop :=
  let chain := alternativeLine main splitHeight altChain
  if blockchainTimestampCheckWindow < altChain.length then
    isInFuture coreTime b = true ∨
      (median altChain ≤ b.timestamp ↔
        median (altChain.drop (altChain.length - blockchainTimestampCheckWindow)) ≤ b.timestamp)
  else if chain.length < blockchainTimestampCheckWindow then isInFuture coreTime b = false
  else if chain.length = blockchainTimestampCheckWindow ∧ 0 < splitHeight then
    isInFuture coreTime b = false ∧ median chain ≤ b.timestamp
  else True

theorem checkBlockTimestamp_of_full {coreTime : UInt64} {timestamps : List UInt64} (b : TimedBlock)
    (full : blockchainTimestampCheckWindow ≤ timestamps.length) :
    checkBlockTimestamp coreTime timestamps b =
      (!isInFuture coreTime b && decide (median timestamps ≤ b.timestamp)) := by
  rw [checkBlockTimestamp, if_neg (by omega)]
  cases isInFuture coreTime b <;> rfl

theorem checkBlockTimestampMain_of_full {coreTime : UInt64} {chain : List UInt64} (b : TimedBlock)
    (full : blockchainTimestampCheckWindow ≤ chain.length) :
    checkBlockTimestampMain coreTime chain b =
      (!isInFuture coreTime b &&
        decide (median (chain.drop (chain.length - blockchainTimestampCheckWindow)) ≤
          b.timestamp)) := by
  have window : blockchainTimestampCheckWindow ≤
      (chain.drop (chain.length - blockchainTimestampCheckWindow)).length := by
    rw [List.length_drop]
    omega
  rw [checkBlockTimestampMain, getLastNBlocksTimestamps_eq, checkBlockTimestamp_of_full b window]
  cases isInFuture coreTime b <;> rfl

theorem checkBlockTimestampMain_of_short {coreTime : UInt64} {chain : List UInt64} (b : TimedBlock)
    (short : chain.length < blockchainTimestampCheckWindow) :
    checkBlockTimestampMain coreTime chain b = !isInFuture coreTime b := by
  have window : (chain.drop (chain.length - blockchainTimestampCheckWindow)).length <
      blockchainTimestampCheckWindow := by
    rw [List.length_drop]
    omega
  rw [checkBlockTimestampMain, getLastNBlocksTimestamps_eq, checkBlockTimestamp, if_pos window]
  cases isInFuture coreTime b <;> rfl

/-- The rules for alternative chains and for the main chain give the same verdict exactly when the
condition holds. -/
theorem timestamp_rules_agree_iff (coreTime : UInt64) (altChain : List UInt64) (b : TimedBlock)
    (inMain : splitHeight < main.length) :
    checkAlternativeTimestamp coreTime main splitHeight altChain b =
        checkBlockTimestampMain coreTime (alternativeLine main splitHeight altChain) b ↔
      TimestampRulesAgree coreTime main splitHeight altChain b := by
  have size :
      (alternativeLine main splitHeight altChain).length = splitHeight + 1 + altChain.length :=
    length_alternativeLine inMain
  have window : blockchainTimestampCheckWindow = 60 := rfl
  unfold TimestampRulesAgree checkAlternativeTimestamp
  dsimp only
  split
  · next longer =>
      rw [completeTimestampsVector_of_long longer.le,
        checkBlockTimestamp_of_full b (by rw [List.length_reverse]; omega),
        checkBlockTimestampMain_of_full b (by omega), median_reverse,
        drop_alternativeLine inMain longer.le]
      cases isInFuture coreTime b with
      | true => simp
      | false => simp
  · next notLonger =>
      have few : altChain.length < blockchainTimestampCheckWindow ∨
          altChain.length = blockchainTimestampCheckWindow := by
        omega
      split
      · next shortLine =>
          have collected : (completeTimestampsVector main splitHeight altChain.reverse).length <
              blockchainTimestampCheckWindow := by
            rw [completeTimestampsVector_eq inMain (by omega), List.length_reverse,
              List.length_drop]
            omega
          rw [checkBlockTimestampMain_of_short b shortLine, checkBlockTimestamp, if_pos collected]
          cases isInFuture coreTime b <;> simp
      · next fullLine =>
          split
          · next withoutGenesis =>
              have collected : (completeTimestampsVector main splitHeight altChain.reverse).length <
                  blockchainTimestampCheckWindow := by
                rw [completeTimestampsVector_eq inMain (by omega), List.length_reverse,
                  List.length_drop, if_neg (by omega), if_neg (by omega)]
                omega
              rw [checkBlockTimestampMain_of_full b (by omega), checkBlockTimestamp,
                if_pos collected, withoutGenesis.1, Nat.sub_self, List.drop_zero]
              cases isInFuture coreTime b <;> simp
          · next whole =>
              have collected : completeTimestampsVector main splitHeight altChain.reverse =
                  ((alternativeLine main splitHeight altChain).drop
                    ((alternativeLine main splitHeight altChain).length -
                      blockchainTimestampCheckWindow)).reverse := by
                rcases few with fewer | exact
                · rw [completeTimestampsVector_eq inMain fewer]
                  congr 2
                  split
                  · omega
                  · split <;> omega
                · rw [completeTimestampsVector_of_long exact.ge,
                    drop_alternativeLine inMain exact.ge, exact, Nat.sub_self, List.drop_zero]
              rw [collected, checkBlockTimestampMain_of_full b (by omega),
                checkBlockTimestamp_of_full, median_reverse]
              · simp
              · rw [List.length_reverse, List.length_drop]
                omega

/-- A block on top of a main chain of sixty-two blocks and an alternative chain of one. -/
theorem timestamp_rules_agree_iff_long :
    checkAlternativeTimestamp 1000 (List.replicate 70 5) 61 [5] ⟨7, false⟩ =
        checkBlockTimestampMain 1000 (alternativeLine (List.replicate 70 5) 61 [5]) ⟨7, false⟩ ↔
      TimestampRulesAgree 1000 (List.replicate 70 5) 61 [5] ⟨7, false⟩ :=
  timestamp_rules_agree_iff 1000 [5] ⟨7, false⟩ (by decide)

/-- On a chain of one block, a block from the future is refused for the main chain only. -/
theorem future_block_accepted :
    ¬∀ (coreTime : UInt64) (main : List UInt64) (splitHeight : ℕ) (altChain : List UInt64)
      (b : TimedBlock),
      splitHeight < main.length →
        checkAlternativeTimestamp coreTime main splitHeight altChain b =
          checkBlockTimestampMain coreTime (alternativeLine main splitHeight altChain) b := by
  intro agree
  exact absurd (agree 1000 [0] 0 [] ⟨1000 + 7201, false⟩ (by decide)) (by decide)

end Zano.Consensus
