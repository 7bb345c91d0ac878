import Mathlib
import Zano.Lib.HashChain

/-! # How two nodes find a common block

A node sends the ids of some of its blocks: the latest ones, then fewer and fewer, and the genesis
block at the end. The other node answers with its own ids from the first of these that it knows, and
the first node asks for those of them that it does not have.
-/

namespace Zano.Sync

structure BlockExtendedInfo (Block : Type*) where
  bl : Block
  blockCumulativeSize : Nat
  deriving DecidableEq, Repr

structure Hashing (Block Hash : Type*) where
  getBlockHash : Block → Hash
  prevId : Block → Hash
  /-- The height that the miner transaction names. -/
  getBlockHeight : Block → Nat
  nullHash : Hash

def blocksIdsSynchronizingDefaultCount : Nat := 2000

structure BlockContextInfo (Hash : Type*) where
  h : Hash
  cumulSize : Nat
  deriving DecidableEq, Repr

/-- `NOTIFY_RESPONSE_CHAIN_ENTRY::request`. -/
structure ChainEntry (Hash : Type*) where
  startHeight : Nat
  totalHeight : Nat
  blockIds : List (BlockContextInfo Hash)
  deriving DecidableEq, Repr

/-! ## The history -/

/-- The loop of `get_short_chain_history`, with the heights in the place of the ids. The multiplier
is `2 ^ doublings`. -/
def historyHeights (sz i doublings currentBackOffset : Nat) (genesisIncluded : Bool) : List Nat :=
  if currentBackOffset < sz then
    (sz - currentBackOffset) ::
      historyHeights sz (i + 1) (if i < 10 then doublings else doublings + 1)
        (if i < 10 then currentBackOffset + 1 else currentBackOffset + 2 ^ (doublings + 1))
        (genesisIncluded || sz - currentBackOffset = 0)
  else if genesisIncluded then [] else [0]
termination_by sz - currentBackOffset
decreasing_by
  have := Nat.two_pow_pos (doublings + 1)
  split <;> omega

section Nodes

variable {Block Hash : Type*} (hashing : Hashing Block Hash)

def blockIds (blocks : List (BlockExtendedInfo Block)) : List Hash :=
  blocks.map fun bei => hashing.getBlockHash bei.bl

def getShortChainHistory (blocks : List (BlockExtendedInfo Block)) : List Hash :=
  if blocks = [] then []
  else (historyHeights blocks.length 0 0 1 false).filterMap fun height =>
    (blockIds hashing blocks)[height]?

/-! ## The answer -/

/-- The hash of an entry is filled in from the block after it. -/
def setLastHash (ids : List (BlockContextInfo Hash)) (h : Hash) : List (BlockContextInfo Hash) :=
  match ids.getLast? with
  | none => ids
  | some last => ids.dropLast ++ [{ last with h := h }]

def pushBlockIds :
    List (BlockExtendedInfo Block) → List (BlockContextInfo Hash) → List (BlockContextInfo Hash)
  | [], ids => ids
  | bei :: rest, ids =>
      pushBlockIds rest
        (setLastHash ids (hashing.prevId bei.bl) ++ [⟨hashing.nullHash, bei.blockCumulativeSize⟩])

/-- The entries of the blocks that are sent; the loop leaves the last hash open. -/
def supplementIds (sent : List (BlockExtendedInfo Block)) : List (BlockContextInfo Hash) :=
  match sent.getLast? with
  | none => pushBlockIds hashing sent []
  | some last => setLastHash (pushBlockIds hashing sent []) (hashing.getBlockHash last.bl)

variable [DecidableEq Hash]

/-- `find_blockchain_supplement` of a starter offset. -/
def findStarterOffset (blocks : List (BlockExtendedInfo Block))
    (qblockIds : List Hash) : Option Nat :=
  if qblockIds = [] then none
  else if qblockIds.getLast? ≠ (blockIds hashing blocks).head? then none
  else qblockIds.findSome? fun id => (blockIds hashing blocks).idxOf? id

def findBlockchainSupplement (blocks : List (BlockExtendedInfo Block)) (qblockIds : List Hash) :
    Option (ChainEntry Hash) :=
  (findStarterOffset hashing blocks qblockIds).map fun startHeight =>
    { startHeight := startHeight
      totalHeight := blocks.length
      blockIds :=
        supplementIds hashing ((blocks.drop startHeight).take blocksIdsSynchronizingDefaultCount) }

/-! ## The use of the answer -/

/-- `have_block`; `others` are the alternative and the invalid blocks. -/
def haveBlock (blocks : List (BlockExtendedInfo Block)) (others : Hash → Bool) (id : Hash) : Bool :=
  decide (id ∈ blockIds hashing blocks) || others id

/-- What `handle_response_chain_entry` adds to the needed objects; nothing if it
drops the connection. -/
def handleResponseChainEntry (blocks : List (BlockExtendedInfo Block)) (others : Hash → Bool)
    (arg : ChainEntry Hash) : Option (List (BlockContextInfo Hash)) :=
  match arg.blockIds with
  | [] => none
  | front :: _ =>
      if !haveBlock hashing blocks others front.h then none
      else if arg.startHeight + arg.blockIds.length - 1 > arg.totalHeight then none
      else some (arg.blockIds.filter fun details => !haveBlock hashing blocks others details.h)

end Nodes

/-! ## The heights of a history -/

theorem historyHeights_le {sz i doublings offset height : Nat} {genesisIncluded : Bool}
    (inside : height ∈ historyHeights sz i doublings offset genesisIncluded) :
    height ≤ sz - offset := by
  induction i, doublings, offset, genesisIncluded using historyHeights.induct sz with
  | case1 i doublings offset genesisIncluded more inductionHypothesis =>
      rw [historyHeights, if_pos more] at inside
      rcases List.mem_cons.mp inside with rfl | later
      · exact Nat.le_refl _
      · have below := inductionHypothesis later
        have := Nat.two_pow_pos doublings
        split at below <;> omega
  | case2 i doublings offset done =>
      rw [historyHeights, if_neg done] at inside
      cases inside
  | case3 i doublings offset genesisIncluded done notIncluded =>
      rw [historyHeights, if_neg done, if_neg notIncluded] at inside
      rw [List.mem_singleton.mp inside]
      exact Nat.zero_le _

/-- Going down the history, the first height below `k` is not much further from the top than `k` is.
The offset at most doubles from one entry to the next, which is the invariant of the multiplier. -/
theorem historyHeights_split {sz k : Nat} (positive : 1 ≤ k) (within : k ≤ sz)
    {i doublings offset : Nat} {genesisIncluded : Bool} (notYet : genesisIncluded = false)
    (above : 1 ≤ offset) (multiplier : 2 ^ (doublings + 1) ≤ offset + 1)
    (near : offset - 1 ≤ 2 * (sz - k)) :
    ∃ before start after, historyHeights sz i doublings offset genesisIncluded =
      before ++ start :: after ∧
      (∀ height ∈ before, k ≤ height ∧ height < sz) ∧ start < k ∧
        (∀ height ∈ after, height < start) ∧
      sz - 1 - start ≤ 2 * (sz - k) := by
  induction i, doublings, offset, genesisIncluded using historyHeights.induct sz with
  | case1 i doublings offset genesisIncluded more inductionHypothesis =>
      rw [historyHeights, if_pos more]
      have step : offset < (if i < 10 then offset + 1 else offset + 2 ^ (doublings + 1)) := by
        have := Nat.two_pow_pos (doublings + 1)
        split <;> omega
      by_cases low : sz - offset < k
      · refine ⟨[], sz - offset, _, rfl, (by intro height inside; cases inside), low, ?_, by omega⟩
        intro height inside
        have := historyHeights_le inside
        omega
      · have still : (genesisIncluded || decide (sz - offset = 0)) = false := by
          rw [notYet, Bool.false_or]
          exact decide_eq_false (by omega)
        have doubled : 2 ^ (doublings + 1 + 1) = 2 * 2 ^ (doublings + 1) := Nat.pow_succ'
        have multiplier' : 2 ^ ((if i < 10 then doublings else doublings + 1) + 1) ≤
            (if i < 10 then offset + 1 else offset + 2 ^ (doublings + 1)) + 1 := by
          split <;> omega
        have near' :
            (if i < 10 then offset + 1 else offset + 2 ^ (doublings + 1)) - 1 ≤ 2 * (sz - k) := by
          split <;> omega
        have above' : 1 ≤ (if i < 10 then offset + 1 else offset + 2 ^ (doublings + 1)) := by omega
        obtain ⟨before, start, after, split, high, rest⟩ :=
          inductionHypothesis still above' multiplier' near'
        refine ⟨(sz - offset) :: before, start, after, congrArg _ split, ?_, rest⟩
        intro height inside
        rcases List.mem_cons.mp inside with rfl | later
        · omega
        · exact high height later
  | case2 i doublings offset done => cases notYet
  | case3 i doublings offset genesisIncluded done notIncluded =>
      rw [historyHeights, if_neg done, if_neg notIncluded]
      refine ⟨[], 0, [], rfl, (by intro height inside; cases inside), positive,
        (by intro height inside; cases inside), ?_⟩
      omega

/-- The genesis block ends the history. -/
theorem historyHeights_getLast {sz i doublings offset : Nat} {genesisIncluded : Bool}
    (notYet : genesisIncluded = false) :
    (historyHeights sz i doublings offset genesisIncluded).getLast? = some 0 := by
  induction i, doublings, offset, genesisIncluded using historyHeights.induct sz with
  | case1 i doublings offset genesisIncluded more inductionHypothesis =>
      have still : (genesisIncluded || decide (sz - offset = 0)) = false := by
        rw [notYet, Bool.false_or]
        exact decide_eq_false (by omega)
      have rest := inductionHypothesis still
      simp only [dite_eq_ite] at rest
      rw [historyHeights, if_pos more, List.getLast?_cons, rest]
      rfl
  | case2 i doublings offset done => cases notYet
  | case3 i doublings offset genesisIncluded done notIncluded =>
      rw [historyHeights, if_neg done, if_neg notIncluded]
      rfl

end Zano.Sync
