import Mathlib
import Zano.Consensus.FeeMedian
import Zano.Lib.Transition

/-! # Values derived from the main chain

The limit of the size of the next block, the fee median that the price of an alias is taken from,
and the medians of the latest timestamps follow from the blocks of the main chain. The node keeps
all three and refreshes them in different places: the limit when a block is added, the fee median
when it is asked for at another height, and the timestamps are forgotten with every change of the
chain.

The limit is stored in the database, beside the blocks, so it comes back with them when a database
transaction is aborted. The other two are members of the process and stay as they are.
-/

namespace Zano.Consensus.DerivedValues

def rewardBlocksWindow : Nat := 400

def blockGrantedFullRewardZone : UInt64 := 125000

def blocksPerDay : Nat := 60 * 60 * 24 / 60

def aliasCoastPeriod : Nat := blocksPerDay * 7

def aliasMedianRecalcInterwal : Nat := blocksPerDay

def aliasVeryInitalCoast : UInt64 := 10000

/-- The part of `block_extended_info` that something is derived from. -/
structure BlockExtendedInfo where
  timestamp : UInt64
  blockCumulativeSize : UInt64
  effectiveTxFeeMedian : UInt64
  thisBlockTxFeeMedian : UInt64
  deriving DecidableEq, Repr

/-- What a new block brings along. -/
structure AddedBlock where
  timestamp : UInt64
  cumulativeBlockSize : UInt64
  blockFees : List UInt64
  deriving DecidableEq, Repr

/-- `dbTransaction` is what aborting the database transaction brings back. -/
structure BlockchainStorage where
  dbBlocks : List BlockExtendedInfo
  dbCurrentBlockCumulSzLimit : UInt64
  dbTransaction : Option (List BlockExtendedInfo × UInt64)
  currentFeeMedian : UInt64
  currentFeeMedianEffectiveIndex : Nat
  timestampsMedianCache : List (Nat × UInt64)
  deriving DecidableEq, Repr

/-! ## What is derived -/

def getBackwardBlocksSizes (blocks : List BlockExtendedInfo)
    (fromHeight count : Nat) : List UInt64 :=
  ((blocks.take (fromHeight + 1)).drop (fromHeight + 1 - min (fromHeight + 1) count)).map
    (·.blockCumulativeSize)

def getLastNBlocksSizes (blocks : List BlockExtendedInfo) (count : Nat) : List UInt64 :=
  if blocks.length = 0 then [] else getBackwardBlocksSizes blocks (blocks.length - 1) count

/-- The value that `update_next_comulative_size_limit` stores. -/
def nextComulativeSizeLimit (blocks : List BlockExtendedInfo) : UInt64 :=
  let median := median (getLastNBlocksSizes blocks rewardBlocksWindow)
  (if median ≤ blockGrantedFullRewardZone then blockGrantedFullRewardZone else median) * 2

def getLastNBlocksTimestamps (blocks : List BlockExtendedInfo) (n : Nat) : List UInt64 :=
  let offset := if blocks.length ≤ n then 0 else blocks.length - n
  (blocks.drop offset).map (·.timestamp)

/-- The first block after a multiple of the interval still goes by the median of the day before. -/
def getTxFeeMedianEffectiveIndex (h : Nat) : Nat :=
  if h ≤ aliasMedianRecalcInterwal + 1 then 0 else h - 1 - (h - 1) % aliasMedianRecalcInterwal

def txFeeMedianForHeight (blocks : List BlockExtendedInfo) (h : Nat) : Option UInt64 :=
  blocks[getTxFeeMedianEffectiveIndex h]?.map (·.effectiveTxFeeMedian)

/-- A median of zero stands for the cost at the very beginning. -/
def orInitalCoast (feeMedian : UInt64) : UInt64 :=
  if feeMedian = 0 then aliasVeryInitalCoast else feeMedian

/-- The medians that the loop of `handle_block_to_main_chain` collects from index `i` downwards. The
genesis block does not count. -/
def blocksMedians (blocks : List BlockExtendedInfo) (height : Nat) : Nat → List UInt64
  | 0 => []
  | i + 1 =>
      if aliasCoastPeriod ≥ height - (i + 1) then
        match blocks[i + 1]? with
        | none => []
        | some bei =>
            if bei.thisBlockTxFeeMedian ≠ 0 then
              bei.thisBlockTxFeeMedian :: blocksMedians blocks height i
            else blocksMedians blocks height i
      else []

/-- The effective median of a block at a multiple of the interval. -/
def recalculatedMedian (blocks : List BlockExtendedInfo) (height : Nat) : UInt64 :=
  if height = 0 then 0 else median (blocksMedians blocks height (height - 1))

namespace BlockchainStorage

/-! ## The operations -/

def updateNextComulativeSizeLimit (s : BlockchainStorage) : BlockchainStorage :=
  { s with dbCurrentBlockCumulSzLimit := nextComulativeSizeLimit s.dbBlocks }

def onBlockAdded (s : BlockchainStorage) : BlockchainStorage :=
  { s.updateNextComulativeSizeLimit with timestampsMedianCache := [] }

def onBlockRemoved (s : BlockchainStorage) : BlockchainStorage :=
  { s with timestampsMedianCache := [] }

def onAbortTransaction (s : BlockchainStorage) : BlockchainStorage :=
  { s with timestampsMedianCache := [] }

/-- `none` where `tx_fee_median_for_height` throws. -/
def getTxFeeMedian (s : BlockchainStorage) : Option (UInt64 × BlockchainStorage) :=
  let h := s.dbBlocks.length
  let effectiveIndex := getTxFeeMedianEffectiveIndex h
  if s.currentFeeMedianEffectiveIndex ≠ effectiveIndex then
    (txFeeMedianForHeight s.dbBlocks h).map fun feeMedian =>
      (orInitalCoast feeMedian,
        { s with
          currentFeeMedian := orInitalCoast feeMedian
          currentFeeMedianEffectiveIndex := effectiveIndex })
  else
    some (orInitalCoast s.currentFeeMedian,
      { s with currentFeeMedian := orInitalCoast s.currentFeeMedian })

def getLastNBlocksTimestampsMedian (s : BlockchainStorage) (n : Nat) : UInt64 × BlockchainStorage :=
  match s.timestampsMedianCache.lookup n with
  | some cachedMedian => (cachedMedian, s)
  | none =>
      let timestamps := getLastNBlocksTimestamps s.dbBlocks n
      if timestamps.length = n then
        (median timestamps,
          { s with timestampsMedianCache := (n, median timestamps) :: s.timestampsMedianCache })
      else (median timestamps, s)

/-- The fee median that `handle_block_to_main_chain` gives to a block on top. -/
def effectiveMedianForNext (s : BlockchainStorage) : Option (UInt64 × BlockchainStorage) :=
  if s.dbBlocks.length % aliasMedianRecalcInterwal ≠ 0 then s.getTxFeeMedian
  else some (recalculatedMedian s.dbBlocks s.dbBlocks.length, s)

def pushBlock (s : BlockchainStorage) (bl : AddedBlock)
    (effectiveTxFeeMedian : UInt64) : BlockchainStorage :=
  { s with
    dbBlocks := s.dbBlocks ++ [⟨bl.timestamp, bl.cumulativeBlockSize, effectiveTxFeeMedian,
      if bl.blockFees.length ≠ 0 then median bl.blockFees else 0⟩] }

/-- The end of `handle_block_to_main_chain`, for a block that passed its checks. -/
def handleBlockToMainChain (s : BlockchainStorage) (bl : AddedBlock) : Option BlockchainStorage :=
  s.effectiveMedianForNext.map fun (feeMedian, asked) => (asked.pushBlock bl feeMedian).onBlockAdded

def popBlockFromBlockchain (s : BlockchainStorage) : Option BlockchainStorage :=
  if s.dbBlocks.length > 1 then
    some { s with dbBlocks := s.dbBlocks.dropLast }.onBlockRemoved else none

def beginTransaction (s : BlockchainStorage) : Option BlockchainStorage :=
  if s.dbTransaction = none then
    some { s with dbTransaction := some (s.dbBlocks, s.dbCurrentBlockCumulSzLimit) }
  else none

def commitTransaction (s : BlockchainStorage) : BlockchainStorage :=
  { s with dbTransaction := none }

def abortTransaction (s : BlockchainStorage) : Option BlockchainStorage :=
  s.dbTransaction.map fun (blocks, limit) =>
    { s with dbBlocks := blocks, dbCurrentBlockCumulSzLimit := limit, dbTransaction := none }

/-- A process that starts on the database: what was not committed is gone, and
so are the members. -/
def restart (s : BlockchainStorage) : BlockchainStorage :=
  let (blocks, limit) := s.dbTransaction.getD (s.dbBlocks, s.dbCurrentBlockCumulSzLimit)
  ⟨blocks, limit, none, 0, 0, []⟩

/-- The node right after the genesis block was added. -/
def initial (genesis : AddedBlock) : BlockchainStorage :=
  (pushBlock ⟨[], 0, none, 0, 0, []⟩ genesis 0).onBlockAdded

end BlockchainStorage

/-- The fee median and the timestamps can be asked for between any two changes. An aborted addition
calls `on_abort_transaction` unless it is `handle_alternative_block` that failed. -/
inductive ChainRequest where
  | beginTransaction
  | handleBlockToMainChain (bl : AddedBlock)
  | popBlockFromBlockchain
  | getTxFeeMedian
  | getLastNBlocksTimestampsMedian (n : Nat)
  | commitTransaction
  | abortTransaction (alternative : Bool)
  | restart
  deriving DecidableEq, Repr

namespace BlockchainStorage

def step (s : BlockchainStorage) : ChainRequest → Option BlockchainStorage
  | .beginTransaction => s.beginTransaction
  | .handleBlockToMainChain bl => s.handleBlockToMainChain bl
  | .popBlockFromBlockchain => s.popBlockFromBlockchain
  | .getTxFeeMedian => s.getTxFeeMedian.map (·.2)
  | .getLastNBlocksTimestampsMedian n => some (s.getLastNBlocksTimestampsMedian n).2
  | .commitTransaction => some s.commitTransaction
  | .abortTransaction alternative =>
      s.abortTransaction.map fun aborted => if alternative then aborted
        else aborted.onAbortTransaction
  | .restart => some s.restart

end BlockchainStorage

/-- The last `n` items, or all of them. -/
def latest {α : Type*} (n : Nat) (items : List α) : List α := items.drop (items.length - n)

namespace BlockchainStorage

/-- None of the three values is stale. -/
structure UpToDate (s : BlockchainStorage) : Prop where
  sizeLimit : s.dbCurrentBlockCumulSzLimit =
    2 * max blockGrantedFullRewardZone
      (median (latest rewardBlocksWindow (s.dbBlocks.map (·.blockCumulativeSize))))
  feeMedian : ∃ bei after, s.dbBlocks[getTxFeeMedianEffectiveIndex s.dbBlocks.length]? = some bei ∧
    s.getTxFeeMedian =
      some (if bei.effectiveTxFeeMedian = 0 then aliasVeryInitalCoast else bei.effectiveTxFeeMedian,
        after)
  timestamps : ∀ entry ∈ s.timestampsMedianCache,
    entry.2 = median (latest entry.1 (s.dbBlocks.map (·.timestamp)))

/-- The steps that leave nothing stale behind. A block is taken off the top only when the limit is
the same with it and without it. An addition is aborted only while the kept fee median is the one of
the chain that comes back, and without `on_abort_transaction` only when no median of timestamps is
kept or the timestamps are those that come back. -/
def Harmless (s : BlockchainStorage) : ChainRequest → Prop
  | .popBlockFromBlockchain =>
      nextComulativeSizeLimit s.dbBlocks.dropLast = nextComulativeSizeLimit s.dbBlocks
  | .abortTransaction alternative => ∀ entry ∈ s.dbTransaction,
      (s.currentFeeMedianEffectiveIndex ≤ entry.1.length → orInitalCoast s.currentFeeMedian =
        orInitalCoast (recalculatedMedian entry.1 s.currentFeeMedianEffectiveIndex)) ∧
      (alternative = true → s.timestampsMedianCache = [] ∨
        s.dbBlocks.map (·.timestamp) = entry.1.map (·.timestamp))
  | _ => True

end BlockchainStorage

/-! ## What the values are -/

variable {blocks : List BlockExtendedInfo}

theorem getLastNBlocksSizes_eq (blocks : List BlockExtendedInfo) (count : Nat) :
    getLastNBlocksSizes blocks count = latest count (blocks.map (·.blockCumulativeSize)) := by
  unfold getLastNBlocksSizes getBackwardBlocksSizes latest
  split
  · next empty =>
      rw [List.length_eq_zero_iff.mp empty, List.map_nil, List.drop_nil]
  · next some_ =>
      have whole : blocks.length - 1 + 1 = blocks.length := by omega
      have offset : blocks.length - min blocks.length count = blocks.length - count := by omega
      rw [whole, List.take_length, offset, List.map_drop, List.length_map]

theorem getLastNBlocksTimestamps_eq (blocks : List BlockExtendedInfo) (n : Nat) :
    getLastNBlocksTimestamps blocks n = latest n (blocks.map (·.timestamp)) := by
  unfold getLastNBlocksTimestamps latest
  have offset : (if blocks.length ≤ n then 0 else blocks.length - n) = blocks.length - n := by
    split <;> omega
  simp only [offset, List.map_drop, List.length_map]

theorem nextComulativeSizeLimit_eq (blocks : List BlockExtendedInfo) :
    nextComulativeSizeLimit blocks =
      2 * max blockGrantedFullRewardZone
        (median (latest rewardBlocksWindow (blocks.map (·.blockCumulativeSize)))) := by
  have granted : ∀ zone size : UInt64, (if size ≤ zone then zone else size) = max zone size := by
    intro zone size
    change _ = if zone ≤ size then size else zone
    split
    · next small =>
        split
        · next large => exact UInt64.le_antisymm large small
        · rfl
    · next large => rw [if_pos ((UInt64.le_total zone size).resolve_right large)]
  rw [nextComulativeSizeLimit, getLastNBlocksSizes_eq, granted, UInt64.mul_comm]

theorem orInitalCoast_orInitalCoast (feeMedian : UInt64) :
    orInitalCoast (orInitalCoast feeMedian) = orInitalCoast feeMedian := by
  have positive : aliasVeryInitalCoast ≠ 0 := by decide
  unfold orInitalCoast
  split
  · rfl
  · rfl

theorem getTxFeeMedianEffectiveIndex_mod (h : Nat) :
    getTxFeeMedianEffectiveIndex h % aliasMedianRecalcInterwal = 0 := by
  unfold getTxFeeMedianEffectiveIndex
  split
  · rfl
  · have parts := Nat.div_add_mod (h - 1) aliasMedianRecalcInterwal
    have multiple : h - 1 - (h - 1) % aliasMedianRecalcInterwal =
        aliasMedianRecalcInterwal * ((h - 1) / aliasMedianRecalcInterwal) := by omega
    rw [multiple, Nat.mul_mod_right]

theorem getTxFeeMedianEffectiveIndex_lt {h : Nat} (positive : 0 < h) :
    getTxFeeMedianEffectiveIndex h < h := by
  unfold getTxFeeMedianEffectiveIndex
  split <;> omega

/-! ## The effective medians on record -/

theorem blocksMedians_congr {blocks others : List BlockExtendedInfo} {height i : Nat}
    (same : ∀ j : Nat, j ≤ i → blocks[j]? = others[j]?) :
    blocksMedians blocks height i = blocksMedians others height i := by
  induction i with
  | zero => rfl
  | succ i inductionHypothesis =>
      rw [blocksMedians, blocksMedians, same (i + 1) (Nat.le_refl _),
        inductionHypothesis fun j below => same j (Nat.le_succ_of_le below)]

/-- The effective median at a height depends on the blocks below it only. -/
theorem recalculatedMedian_append {height : Nat} (inside : height ≤ blocks.length)
    (more : List BlockExtendedInfo) :
    recalculatedMedian (blocks ++ more) height = recalculatedMedian blocks height := by
  unfold recalculatedMedian
  split
  · rfl
  · next positive =>
      have same : blocksMedians (blocks ++ more) height (height - 1) =
          blocksMedians blocks height (height - 1) := by
        apply blocksMedians_congr
        intro j below
        exact List.getElem?_append_left (by omega)
      rw [same]

/-- Every block at a multiple of the interval holds the median that its height demands. -/
def Recorded (blocks : List BlockExtendedInfo) : Prop :=
  ∀ (height : Nat) (bei : BlockExtendedInfo), blocks[height]? = some bei →
    height % aliasMedianRecalcInterwal = 0 →
    bei.effectiveTxFeeMedian = recalculatedMedian blocks height

theorem Recorded.concat {bei : BlockExtendedInfo} (recorded : Recorded blocks)
    (right : blocks.length % aliasMedianRecalcInterwal = 0 →
      bei.effectiveTxFeeMedian = recalculatedMedian blocks blocks.length) :
        Recorded (blocks ++ [bei]) := by
  intro height found isFound multiple
  rcases Nat.lt_or_ge height blocks.length with below | above
  · rw [List.getElem?_append_left below] at isFound
    rw [recalculatedMedian_append (Nat.le_of_lt below)]
    exact recorded height found isFound multiple
  · obtain ⟨atEnd, isLast⟩ := List.getElem?_eq_some_iff.mp isFound
    rw [List.length_append, List.length_singleton] at atEnd
    obtain rfl : height = blocks.length := by omega
    rw [List.getElem_concat_length rfl] at isLast
    cases isLast
    rw [recalculatedMedian_append (Nat.le_refl _)]
    exact right multiple

theorem Recorded.dropLast (recorded : Recorded blocks) : Recorded blocks.dropLast := by
  intro height bei isBei multiple
  have inside : height < blocks.dropLast.length := (List.getElem?_eq_some_iff.mp isBei).1
  have whole : blocks.dropLast ++ blocks.drop (blocks.length - 1) = blocks := by
    rw [List.dropLast_eq_take, List.take_append_drop]
  have isThere : blocks[height]? = some bei := by
    rw [← whole, List.getElem?_append_left inside, isBei]
  rw [recorded height bei isThere multiple, ← recalculatedMedian_append (Nat.le_of_lt inside),
    whole]

namespace BlockchainStorage

/-! ## The invariant -/

/-- The kept fee median is the one of its index, once the chain reaches up to it. That the block at
the index was replaced does not matter: the median comes from the blocks below. -/
def FeeMedianKept (blocks : List BlockExtendedInfo) (feeMedian : UInt64) (index : Nat) : Prop :=
  index % aliasMedianRecalcInterwal = 0 ∧
    (index ≤ blocks.length →
      orInitalCoast feeMedian = orInitalCoast (recalculatedMedian blocks index))

def TimestampsKept (blocks : List BlockExtendedInfo) (cache : List (Nat × UInt64)) : Prop :=
  ∀ entry ∈ cache, entry.2 = median (latest entry.1 (blocks.map (·.timestamp)))

structure Invariant (s : BlockchainStorage) : Prop where
  someBlock : 0 < s.dbBlocks.length
  recorded : Recorded s.dbBlocks
  sizeLimit : s.dbCurrentBlockCumulSzLimit = nextComulativeSizeLimit s.dbBlocks
  feeMedian : FeeMedianKept s.dbBlocks s.currentFeeMedian s.currentFeeMedianEffectiveIndex
  timestamps : TimestampsKept s.dbBlocks s.timestampsMedianCache
  restorable : ∀ entry ∈ s.dbTransaction,
    0 < entry.1.length ∧ Recorded entry.1 ∧ entry.2 = nextComulativeSizeLimit entry.1

variable {s next : BlockchainStorage}

theorem txFeeMedianForHeight_eq (some_ : 0 < blocks.length) (recorded : Recorded blocks) :
    ∃ bei, blocks[getTxFeeMedianEffectiveIndex blocks.length]? = some bei ∧
      txFeeMedianForHeight blocks blocks.length = some bei.effectiveTxFeeMedian ∧
      bei.effectiveTxFeeMedian =
        recalculatedMedian blocks (getTxFeeMedianEffectiveIndex blocks.length) := by
  have inside := getTxFeeMedianEffectiveIndex_lt some_
  refine ⟨blocks[getTxFeeMedianEffectiveIndex blocks.length],
    List.getElem?_eq_getElem inside, ?_, ?_⟩
  · rw [txFeeMedianForHeight, List.getElem?_eq_getElem inside, Option.map_some]
  · exact recorded _ _ (List.getElem?_eq_getElem inside) (getTxFeeMedianEffectiveIndex_mod _)

/-- What is answered, and what is kept of it. -/
theorem getTxFeeMedian_eq (invariant : s.Invariant) :
    ∃ bei, s.dbBlocks[getTxFeeMedianEffectiveIndex s.dbBlocks.length]? = some bei ∧
      s.getTxFeeMedian = some (orInitalCoast bei.effectiveTxFeeMedian,
        { s with
          currentFeeMedian := orInitalCoast bei.effectiveTxFeeMedian,
          currentFeeMedianEffectiveIndex := getTxFeeMedianEffectiveIndex s.dbBlocks.length }) ∧
      bei.effectiveTxFeeMedian =
        recalculatedMedian s.dbBlocks (getTxFeeMedianEffectiveIndex s.dbBlocks.length) := by
  obtain ⟨bei, isBei, forHeight, right⟩ :=
    txFeeMedianForHeight_eq invariant.someBlock invariant.recorded
  refine ⟨bei, isBei, ?_, right⟩
  unfold getTxFeeMedian
  by_cases sameIndex :
      s.currentFeeMedianEffectiveIndex = getTxFeeMedianEffectiveIndex s.dbBlocks.length
  · have inside := getTxFeeMedianEffectiveIndex_lt invariant.someBlock
    have same := invariant.feeMedian.2 (by omega)
    rw [sameIndex, ← right] at same
    simp only [ne_eq, sameIndex, not_true_eq_false, if_false, same]
  · simp only [ne_eq, sameIndex, not_false_eq_true, if_true, forHeight, Option.map_some]

theorem Invariant.upToDate (invariant : s.Invariant) : s.UpToDate where
  sizeLimit := by rw [invariant.sizeLimit, nextComulativeSizeLimit_eq]
  feeMedian := by
    obtain ⟨bei, isBei, answered, -⟩ := getTxFeeMedian_eq invariant
    exact ⟨bei, _, isBei, answered⟩
  timestamps := invariant.timestamps

/-! ## One step -/

theorem invariant_initial (genesis : AddedBlock) : (initial genesis).Invariant where
  someBlock := Nat.zero_lt_one
  recorded := by
    intro height bei isBei multiple
    obtain ⟨inside, isLast⟩ := List.getElem?_eq_some_iff.mp isBei
    obtain rfl : height = 0 := Nat.lt_one_iff.mp inside
    cases isLast
    rfl
  sizeLimit := rfl
  feeMedian := ⟨rfl, fun _ => rfl⟩
  timestamps := by
    intro entry inside
    cases inside
  restorable := by
    intro entry inside
    cases inside

theorem invariant_getTxFeeMedian {feeMedian : UInt64} (invariant : s.Invariant)
    (answered : s.getTxFeeMedian = some (feeMedian, next)) : next.Invariant := by
  obtain ⟨bei, -, answered', right⟩ := getTxFeeMedian_eq invariant
  rw [answered'] at answered
  cases answered
  refine { invariant with feeMedian := ⟨getTxFeeMedianEffectiveIndex_mod _, fun _ => ?_⟩ }
  rw [orInitalCoast_orInitalCoast, right]

theorem FeeMedianKept.concat {feeMedian : UInt64} {index : Nat}
    (kept : FeeMedianKept blocks feeMedian index) (bei : BlockExtendedInfo)
    (apart : index ≠ blocks.length + 1) :
    FeeMedianKept (blocks ++ [bei]) feeMedian index := by
  refine ⟨kept.1, fun inside => ?_⟩
  rw [List.length_append, List.length_singleton] at inside
  rw [recalculatedMedian_append (by omega)]
  exact kept.2 (by omega)

/-- The fee median that a new block is given, and the index at which it is kept by then. Below a
multiple of the interval the fee median was asked for, so that the index lies below the block. -/
theorem effectiveMedianForNext_eq {feeMedian : UInt64} {asked : BlockchainStorage}
    (invariant : s.Invariant) (given : s.effectiveMedianForNext = some (feeMedian, asked)) :
    asked.Invariant ∧ asked.dbBlocks = s.dbBlocks ∧
      (s.dbBlocks.length % aliasMedianRecalcInterwal = 0 →
        feeMedian = recalculatedMedian s.dbBlocks s.dbBlocks.length) ∧
      asked.currentFeeMedianEffectiveIndex ≠ s.dbBlocks.length + 1 := by
  unfold effectiveMedianForNext at given
  split at given
  · next between =>
      obtain ⟨bei, -, answered, -⟩ := getTxFeeMedian_eq invariant
      have kept := invariant_getTxFeeMedian invariant given
      rw [answered] at given
      cases given
      refine ⟨kept, rfl, fun multiple => absurd multiple between, ?_⟩
      have below := getTxFeeMedianEffectiveIndex_lt invariant.someBlock
      exact Nat.ne_of_lt (Nat.lt_succ_of_lt below)
  · next multiple =>
      cases given
      refine ⟨invariant, rfl, fun _ => rfl, fun isNext => ?_⟩
      have indexMultiple := invariant.feeMedian.1
      rw [isNext] at indexMultiple
      unfold aliasMedianRecalcInterwal blocksPerDay at multiple indexMultiple
      omega

theorem invariant_handleBlockToMainChain {bl : AddedBlock} (invariant : s.Invariant)
    (added : s.handleBlockToMainChain bl = some next) : next.Invariant := by
  obtain ⟨⟨feeMedian, asked⟩, given, rfl⟩ := Option.map_eq_some_iff.mp added
  obtain ⟨kept, sameBlocks, right, apart⟩ := effectiveMedianForNext_eq invariant given
  rw [← sameBlocks] at right apart
  exact {
    someBlock := by simp [onBlockAdded, updateNextComulativeSizeLimit, pushBlock]
    recorded := kept.recorded.concat right
    sizeLimit := rfl
    feeMedian := kept.feeMedian.concat _ apart
    timestamps := by
      intro entry inside
      cases inside
    restorable := kept.restorable }

theorem FeeMedianKept.dropLast {feeMedian : UInt64} {index : Nat}
    (kept : FeeMedianKept blocks feeMedian index) :
    FeeMedianKept blocks.dropLast feeMedian index := by
  refine ⟨kept.1, fun inside => ?_⟩
  have whole : blocks.dropLast ++ blocks.drop (blocks.length - 1) = blocks := by
    rw [List.dropLast_eq_take, List.take_append_drop]
  rw [← recalculatedMedian_append inside (blocks.drop (blocks.length - 1)), whole]
  rw [List.length_dropLast] at inside
  exact kept.2 (by omega)

theorem invariant_popBlockFromBlockchain (invariant : s.Invariant)
    (sameLimit : nextComulativeSizeLimit s.dbBlocks.dropLast = nextComulativeSizeLimit s.dbBlocks)
    (popped : s.popBlockFromBlockchain = some next) : next.Invariant := by
  obtain ⟨several, same⟩ := Option.ite_none_right_eq_some.mp popped
  cases same
  exact {
    someBlock := by
      rw [onBlockRemoved, List.length_dropLast]
      omega
    recorded := invariant.recorded.dropLast
    sizeLimit := invariant.sizeLimit.trans sameLimit.symm
    feeMedian := invariant.feeMedian.dropLast
    timestamps := by
      intro entry inside
      cases inside
    restorable := invariant.restorable }

/-- Taking a block off the top makes the limit stale exactly where it would have to change. -/
theorem upToDate_popBlockFromBlockchain_iff (invariant : s.Invariant)
    (popped : s.popBlockFromBlockchain = some next) :
    next.UpToDate ↔
      nextComulativeSizeLimit s.dbBlocks.dropLast = nextComulativeSizeLimit s.dbBlocks := by
  constructor
  · intro upToDate
    have sizeLimit := upToDate.sizeLimit
    rw [← nextComulativeSizeLimit_eq] at sizeLimit
    obtain ⟨-, same⟩ := Option.ite_none_right_eq_some.mp popped
    cases same
    rw [← invariant.sizeLimit]
    exact sizeLimit.symm
  · intro sameLimit
    exact (invariant_popBlockFromBlockchain invariant sameLimit popped).upToDate

theorem invariant_getLastNBlocksTimestampsMedian (invariant : s.Invariant) (n : Nat) :
    (s.getLastNBlocksTimestampsMedian n).2.Invariant := by
  unfold getLastNBlocksTimestampsMedian
  split
  · exact invariant
  · dsimp only
    split
    · refine { invariant with timestamps := ?_ }
      intro entry inside
      rcases List.mem_cons.mp inside with rfl | before
      · exact congrArg median (getLastNBlocksTimestamps_eq s.dbBlocks n)
      · exact invariant.timestamps entry before
    · exact invariant

theorem invariant_beginTransaction (invariant : s.Invariant)
    (begun : s.beginTransaction = some next) :
    next.Invariant := by
  obtain ⟨-, same⟩ := Option.ite_none_right_eq_some.mp begun
  cases same
  refine { invariant with restorable := ?_ }
  intro entry isEntry
  cases isEntry
  exact ⟨invariant.someBlock, invariant.recorded, invariant.sizeLimit⟩

theorem invariant_commitTransaction (invariant : s.Invariant) : s.commitTransaction.Invariant := by
  refine { invariant with restorable := ?_ }
  intro entry isEntry
  cases isEntry

theorem invariant_abortTransaction {alternative : Bool} (invariant : s.Invariant)
    (harmless : s.Harmless (.abortTransaction alternative))
    (aborted : s.step (.abortTransaction alternative) = some next) : next.Invariant := by
  obtain ⟨restored, isRestored, rfl⟩ := Option.map_eq_some_iff.mp aborted
  obtain ⟨⟨blocks, limit⟩, isEntry, rfl⟩ := Option.map_eq_some_iff.mp isRestored
  obtain ⟨someBlock, recorded, sizeLimit⟩ := invariant.restorable _ isEntry
  obtain ⟨sameMedian, sameTimestamps⟩ := harmless _ isEntry
  have noEntry : ∀ entry ∈ (none : Option (List BlockExtendedInfo × UInt64)),
      0 < entry.1.length ∧ Recorded entry.1 ∧ entry.2 = nextComulativeSizeLimit entry.1 := by
    intro entry isEntry
    cases isEntry
  have feeMedian : FeeMedianKept blocks s.currentFeeMedian s.currentFeeMedianEffectiveIndex :=
    ⟨invariant.feeMedian.1, sameMedian⟩
  cases alternative with
  | true =>
      refine ⟨someBlock, recorded, sizeLimit, feeMedian, ?_, noEntry⟩
      intro entry inside
      rcases sameTimestamps rfl with empty | same
      · change entry ∈ s.timestampsMedianCache at inside
        rw [empty] at inside
        cases inside
      · change entry.2 = median (latest entry.1 (blocks.map (·.timestamp)))
        rw [← same]
        exact invariant.timestamps entry inside
  | false =>
      refine ⟨someBlock, recorded, sizeLimit, feeMedian, ?_, noEntry⟩
      intro entry inside
      cases inside

theorem invariant_restart (invariant : s.Invariant) : s.restart.Invariant := by
  have restorable : ∀ entry ∈ (none : Option (List BlockExtendedInfo × UInt64)),
      0 < entry.1.length ∧ Recorded entry.1 ∧ entry.2 = nextComulativeSizeLimit entry.1 := by
    intro entry isEntry
    cases isEntry
  have timestamps : ∀ blocks, TimestampsKept blocks [] := by
    intro blocks entry inside
    cases inside
  unfold restart
  cases isOpen : s.dbTransaction with
  | none =>
      exact ⟨invariant.someBlock, invariant.recorded, invariant.sizeLimit, ⟨rfl, fun _ => rfl⟩,
        timestamps _, restorable⟩
  | some entry =>
      obtain ⟨someBlock, recorded, sizeLimit⟩ := invariant.restorable entry isOpen
      exact ⟨someBlock, recorded, sizeLimit, ⟨rfl, fun _ => rfl⟩, timestamps _, restorable⟩

theorem invariant_step (request : ChainRequest) (invariant : s.Invariant)
    (harmless : s.Harmless request) (stepped : s.step request = some next) : next.Invariant := by
  cases request with
  | beginTransaction => exact invariant_beginTransaction invariant stepped
  | handleBlockToMainChain bl => exact invariant_handleBlockToMainChain invariant stepped
  | popBlockFromBlockchain => exact invariant_popBlockFromBlockchain invariant harmless stepped
  | getTxFeeMedian =>
      obtain ⟨⟨feeMedian, after⟩, answered, rfl⟩ := Option.map_eq_some_iff.mp stepped
      exact invariant_getTxFeeMedian invariant answered
  | getLastNBlocksTimestampsMedian n =>
      cases stepped
      exact invariant_getLastNBlocksTimestampsMedian invariant n
  | commitTransaction =>
      cases stepped
      exact invariant_commitTransaction invariant
  | abortTransaction alternative => exact invariant_abortTransaction invariant harmless stepped
  | restart =>
      cases stepped
      exact invariant_restart invariant

/-! ## Runs -/

/-- A block taken off the top leaves the limit of the chain that it was part of: 251000 where the
genesis block alone grants 250000. -/
theorem size_limit_stale :
    ¬ ∀ (genesis : AddedBlock) (requests : List ChainRequest) (final : BlockchainStorage),
      Transition.run step (initial genesis) requests = some final → final.UpToDate := by
  intro always
  have upToDate :=
    always ⟨0, 1000, []⟩ [.handleBlockToMainChain ⟨1, 250000, []⟩, .popBlockFromBlockchain] _ rfl
  exact absurd upToDate.sizeLimit (by decide)

/-- Over runs whose steps are harmless, no value is ever stale. -/
theorem upToDate_of_run (genesis : AddedBlock) (requests : List ChainRequest)
    (final : BlockchainStorage)
    (harmless : Transition.Guarded step Harmless (initial genesis) requests)
    (ran : Transition.run step (initial genesis) requests = some final) : final.UpToDate := by
  have preserved : ∀ s request next, s.Invariant → s.Harmless request → step s request = some next →
      next.Invariant := fun _ request _ => invariant_step request
  exact (Transition.invariant_of_run preserved (invariant_initial genesis) harmless ran).upToDate

/-- A small block that comes and goes, with both medians asked for. -/
theorem upToDate_of_run_small :
    ∃ final, Transition.run step (initial ⟨0, 1000, []⟩)
        [.beginTransaction, .handleBlockToMainChain ⟨1, 2000, [5]⟩, .getTxFeeMedian,
          .getLastNBlocksTimestampsMedian 2, .popBlockFromBlockchain,
            .abortTransaction false] = some final ∧
      final.UpToDate := by
  obtain ⟨final, ran⟩ : ∃ final, Transition.run step (initial ⟨0, 1000, []⟩)
      [.beginTransaction, .handleBlockToMainChain ⟨1, 2000, [5]⟩, .getTxFeeMedian,
        .getLastNBlocksTimestampsMedian 2, .popBlockFromBlockchain,
        .abortTransaction false] = some final :=
    ⟨_, rfl⟩
  refine ⟨final, ran, upToDate_of_run ⟨0, 1000, []⟩ _ final ?_ ran⟩
  refine ⟨trivial, fun _ begun => ?_⟩
  cases begun
  refine ⟨trivial, fun _ added => ?_⟩
  cases added
  refine ⟨trivial, fun _ asked => ?_⟩
  cases asked
  refine ⟨trivial, fun _ asked => ?_⟩
  cases asked
  refine ⟨by change _ = _; decide, fun _ popped => ?_⟩
  cases popped
  refine ⟨?_, fun _ _ => trivial⟩
  intro entry isEntry
  cases isEntry
  exact ⟨fun _ => rfl, fun alternative => nomatch alternative⟩

end BlockchainStorage

end Zano.Consensus.DerivedValues
