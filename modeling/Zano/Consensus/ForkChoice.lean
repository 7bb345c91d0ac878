import Zano.Consensus.Difficulty

/-! # The fork-choice rule

`isReorganizeRequired` is the decision whether a node leaves its main chain for an alternative one.
It weighs the two branches from their split on by four different rules, and it picks the rule by the
height of the alternative head. Everything it reads about the main chain it reads from the node's
state, which includes a cache of the next difficulty of either type; nothing renews that cache when
a block is added.
-/

namespace Zano.Consensus

def hardfork04Zarcanum : Nat := 4

def hardfork06 : Nat := 6

/-- What fork choice reads of a node: `m_db_blocks` and the cached next difficulties, where zero
means not cached. -/
structure Node where
  dbBlocks : List BlockExtendedInfo
  cachedNextDifficulty : Bool → WideDifficulty

/-- `get_cached_next_difficulty`. -/
def getCachedNextDifficulty (forks : HardForks) (node : Node)
    (pos : Bool) : Option WideDifficulty :=
  if node.cachedNextDifficulty pos = 0 then getNextDiffConditional forks node.dbBlocks pos
  else some (node.cachedNextDifficulty pos)

/-- `get_x_difficulty_after_height`: the difficulty of the first main-chain block of the type above
the height; when there is none, or it is zero, the next difficulty. -/
def getXDifficultyAfterHeight (forks : HardForks) (node : Node) (height : Nat) (pos : Bool) :
    Option WideDifficulty :=
  if height < node.dbBlocks.length then
    match (node.dbBlocks.drop (height + 1)).find? fun bei => bei.bl.isPos = pos with
    | some bei =>
        if bei.difficulty = 0 then getCachedNextDifficulty forks node pos else some bei.difficulty
    | none => getCachedNextDifficulty forks node pos
  else none

/-- `get_last_alt_x_block_cumulative_precise_difficulty`: the newest record of the type on the
alternative chain and then down the main chain, the genesis block not counted. -/
def getLastAltXBlock (node : Node) (altChain : List BlockExtendedInfo) (mainChainStart : Nat)
    (pos : Bool) : Option BlockExtendedInfo :=
  match altChain.reverse.find? fun bei => bei.bl.isPos = pos with
  | some bei => some bei
  | none =>
      let start := match altChain.head? with
        | some connection => connection.height - 1
        | none => mainChainStart
      if start < node.dbBlocks.length then
        ((node.dbBlocks.take (start + 1)).tail.reverse).find? fun bei => bei.bl.isPos = pos
      else none

def getLastAltXBlockCumulativePreciseDifficulty (node : Node) (altChain : List BlockExtendedInfo)
    (mainChainStart : Nat) (pos : Bool) : WideDifficulty :=
  ((getLastAltXBlock node altChain mainChainStart pos).map (·.cumulativeDiffPrecise)).getD 0

def getLastAltXBlockCumulativePreciseAdjDifficulty (node : Node)
    (altChain : List BlockExtendedInfo) (mainChainStart : Nat) (pos : Bool) : WideDifficulty :=
  ((getLastAltXBlock node altChain mainChainStart pos).map
    (·.cumulativeDiffPreciseAdjusted)).getD 0

/-! ## Relative cumulative difficulties -/

structure Difficulties where
  posDiff : WideDifficulty
  powDiff : WideDifficulty

/-- A branch without blocks of a type counts with the starter difficulty. -/
def orStarter (diff : WideDifficulty) : Nat :=
  if diff = 0 then difficultyStarter.toNat else diff.toNat

/-- `get_a_to_b_relative_cumulative_difficulty`. -/
def getAToBRelativeCumulativeDifficulty (posAtSplit powAtSplit : WideDifficulty)
    (a b : Difficulties) : Option Nat :=
  if posAtSplit = 0 then none
  else
    let basicSum := orStarter a.powDiff + orStarter a.posDiff * powAtSplit.toNat / posAtSplit.toNat
    some (basicSum * orStarter a.powDiff * orStarter a.posDiff /
      (orStarter b.powDiff * orStarter b.posDiff))

def adjustingMultiplier : Nat := (2 ^ 128 - 1) * 10 * (2 ^ 128 - 1)

/-- `get_a_to_b_relative_cumulative_difficulty_hf6`. -/
def getAToBRelativeCumulativeDifficultyHf6 (posAtSplit powAtSplit : WideDifficulty)
    (a b : Difficulties) : Option Nat :=
  let basicSumScaled :=
    orStarter a.powDiff * posAtSplit.toNat + orStarter a.posDiff * powAtSplit.toNat
  if basicSumScaled = 0 then none
  else
    let dPosSq := posAtSplit.toNat * posAtSplit.toNat
    let basicSumPowMinus2 := adjustingMultiplier * dPosSq / (basicSumScaled * basicSumScaled)
    some (basicSumPowMinus2 * orStarter a.powDiff * orStarter a.posDiff /
      (orStarter b.powDiff * orStarter b.posDiff))

/-! ## The decision -/

/-- The last resort between branches of equal weight: only a PoS head of the main chain can be
displaced, by a proof with a greater hash. -/
def decideByProof (mainHead : BlockExtendedInfo) (proofAlt : Hash) : Bool :=
  mainHead.bl.isPos && decide (mainHead.stakeHash < proofAlt)

def summaryFee (bei : BlockExtendedInfo) : UInt64 :=
  bei.bl.thisBlockTxFeeMedian * bei.bl.txHashesSize

/-- Between branches of equal weight: fees from hardfork 4 on, then proofs. -/
def decideTie (forks : HardForks) (mainHead altHead : BlockExtendedInfo) (proofAlt : Hash) : Bool :=
  if forks.isHardforkActiveForHeight hardfork04Zarcanum altHead.height then
    if summaryFee altHead > summaryFee mainHead then true
    else if summaryFee altHead < summaryFee mainHead then false
    else decideByProof mainHead proofAlt
  else decideByProof mainHead proofAlt

/-- Cumulative difficulties of the two types from the split on. -/
def altCumulDiff (node : Node) (altChain : List BlockExtendedInfo)
    (connection altHead : BlockExtendedInfo) : Difficulties :=
  let diff (pos : Bool) :=
    getLastAltXBlockCumulativePreciseAdjDifficulty node altChain altHead.height pos -
      getLastAltXBlockCumulativePreciseAdjDifficulty node [] (connection.height - 1) pos
  ⟨diff true, diff false⟩

def mainCumulDiff (node : Node) (connection : BlockExtendedInfo) : Difficulties :=
  let diff (pos : Bool) :=
    getLastAltXBlockCumulativePreciseAdjDifficulty node [] (node.dbBlocks.length - 1) pos -
      getLastAltXBlockCumulativePreciseAdjDifficulty node [] (connection.height - 1) pos
  ⟨diff true, diff false⟩

/-- The quick check of hardfork 6 for short splits compares PoS difficulties only; `none` when it
does not decide. -/
def quickCheck (forks : HardForks) (node : Node) (altChain : List BlockExtendedInfo)
    (connection mainHead altHead : BlockExtendedInfo) : Option Bool :=
  if forks.isHardforkActiveForHeight hardfork06 altHead.height then
    let splitLength :=
      if altHead.height > mainHead.height then mainHead.height - connection.height
      else altHead.height - connection.height
    if splitLength < 30 then
      let alt := getLastAltXBlockCumulativePreciseDifficulty node altChain altHead.height true
      let main :=
        getLastAltXBlockCumulativePreciseDifficulty node [] (node.dbBlocks.length - 1) true
      if main > alt then some false else if main < alt then some true else none
    else none
  else none

/-- The rules since hardfork 1, after the quick check. -/
def decideByWeight (forks : HardForks) (node : Node) (altChain : List BlockExtendedInfo)
    (connection mainHead altHead : BlockExtendedInfo) (proofAlt : Hash) : Option Bool := do
  let posAtSplit ← getXDifficultyAfterHeight forks node (connection.height - 1) true
  let powAtSplit ← getXDifficultyAfterHeight forks node (connection.height - 1) false
  let altDiff := altCumulDiff node altChain connection altHead
  let mainDiff := mainCumulDiff node connection
  let relative :=
    if forks.isHardforkActiveForHeight hardfork06 altHead.height then
      getAToBRelativeCumulativeDifficultyHf6
    else getAToBRelativeCumulativeDifficulty
  let alt ← relative posAtSplit powAtSplit altDiff mainDiff
  let main ← relative posAtSplit powAtSplit mainDiff altDiff
  return if main < alt then true
    else if main > alt then false
    else decideTie forks mainHead altHead proofAlt

/-- `is_reorganize_required` with the top of the main chain for `main_chain_bei`; `none`
where the source throws. The last element of `altChain` is its head, the first one is
connected to the main chain. -/
def isReorganizeRequired (forks : HardForks) (node : Node) (altChain : List BlockExtendedInfo)
    (proofAlt : Hash) : Option Bool := do
  let mainHead ← node.dbBlocks.getLast?
  let altHead ← altChain.getLast?
  let connection ← altChain.head?
  if !forks.isHardforkActiveForHeight 1 connection.height then
    return if mainHead.cumulativeDiffAdjusted < altHead.cumulativeDiffAdjusted then true
      else if mainHead.cumulativeDiffAdjusted > altHead.cumulativeDiffAdjusted then false
      else decideByProof mainHead proofAlt
  else if forks.isHardforkActiveForHeight 1 altHead.height then
    match quickCheck forks node altChain connection mainHead altHead with
    | some decision => return decision
    | none => decideByWeight forks node altChain connection mainHead altHead proofAlt
  else none

end Zano.Consensus
