import Mathlib

/-! # Blocks for wallets

A wallet asks for blocks with the ids of some blocks that it has, the genesis block at the end. It
is answered from the first of these that is on the main chain, or from the height that it asks for
at least, if this is higher. Blocks, transactions and heights of blocks are in three stores.

The loop over the heights stops where the chain ends, but not behind. Those who call it have refused
such heights before.
-/

namespace Zano.BlockRequests

structure Block (Hash Tx : Type*) where
  minerTx : Tx
  txHashes : List Hash

/-- The cached id is there once it was calculated. -/
structure BlockExtendedInfo (Hash Tx : Type*) where
  bl : Block Hash Tx
  cacheCoinbaseId : Option Hash

structure Storage (Hash Tx Entry : Type*) where
  dbBlocks : List (BlockExtendedInfo Hash Tx)
  dbBlocksIndex : Hash → Option UInt64
  dbTransactions : Hash → Option Entry

/-- A block, its transactions, and the record of its coinbase, if it was found. -/
structure BlockDirect (Hash Tx Entry : Type*) where
  block : BlockExtendedInfo Hash Tx
  transactions : List Entry
  coinbase : Option Entry

inductive Failure where
  | returnsFalse
  | throws
  deriving DecidableEq

structure Supplement (Hash Tx Entry : Type*) where
  blocks : List (BlockDirect Hash Tx Entry)
  totalHeight : UInt64
  startHeight : UInt64

section

variable {Hash Tx Entry : Type*} [DecidableEq Hash] (getBlockHash : Block Hash Tx → Hash)
  (getTransactionHash : Tx → Hash) (s : Storage Hash Tx Entry)

def size : UInt64 := UInt64.ofNat s.dbBlocks.length

def findStarterOffset (qblockIds : List Hash) : Except Failure UInt64 :=
  match qblockIds.getLast? with
  | none => .error .returnsFalse
  | some last =>
      match s.dbBlocks[0]? with
      | none => .error .throws
      | some genesis =>
          if last ≠ getBlockHash genesis.bl then .error .returnsFalse
          else
            match qblockIds.findSome? s.dbBlocksIndex with
            | some height => .ok height
            | none => .error .returnsFalse

/-- The transactions that were found, and the ids of those that were not. -/
def getTransactionsDirect : List Hash → List Entry × List Hash
  | [] => ([], [])
  | id :: ids =>
      let (txs, missed) := getTransactionsDirect ids
      match s.dbTransactions id with
      | some tx => (tx :: txs, missed)
      | none => (txs, id :: missed)

def getCoinbaseHashCached (bei : BlockExtendedInfo Hash Tx) : Hash :=
  bei.cacheCoinbaseId.getD (getTransactionHash bei.bl.minerTx)

theorem one_less {count maxCount : UInt64} (below : count < maxCount) :
    maxCount.toNat - (count + 1).toNat < maxCount.toNat - count.toNat := by
  have less := UInt64.lt_iff_toNat_lt.mp below
  have bound := maxCount.toNat_lt
  rw [UInt64.toNat_add, UInt64.toNat_one, Nat.mod_eq_of_lt (by omega)]
  omega

/-- The loop over the heights. -/
def supplementFrom (i count maxCount : UInt64) (blocks : List (BlockDirect Hash Tx Entry)) :
    Except Failure (List (BlockDirect Hash Tx Entry)) :=
  if _goesOn : i ≠ size s ∧ count < maxCount then
    match s.dbBlocks[i.toNat]? with
    | none => .error .throws
    | some bei =>
        let (txs, missed) := getTransactionsDirect s bei.bl.txHashes
        if missed ≠ [] then .error .returnsFalse
        else
          let coinbase := s.dbTransactions (getCoinbaseHashCached getTransactionHash bei)
          supplementFrom (i + 1) (count + 1) maxCount (blocks ++ [⟨bei, txs, coinbase⟩])
  else .ok blocks
termination_by maxCount.toNat - count.toNat
decreasing_by exact one_less _goesOn.2

def findBlockchainSupplement (qblockIds : List Hash) (maxCount minimumHeight : UInt64) :
    Except Failure (Supplement Hash Tx Entry) :=
  match findStarterOffset getBlockHash s qblockIds with
  | .error failure => .error failure
  | .ok offset =>
      let startHeight := if minimumHeight > offset then minimumHeight else offset
      (supplementFrom getTransactionHash s startHeight 0 maxCount []).map (⟨·, size s, startHeight⟩)

/-! ## The main chain -/

/-- A block with this id is at this height. -/
def At (id : Hash) (height : UInt64) : Prop :=
  ∃ bei, s.dbBlocks[height.toNat]? = some bei ∧ getBlockHash bei.bl = id

/-- The three stores line up. -/
structure MainChain : Prop where
  genesis : s.dbBlocks ≠ []
  countable : s.dbBlocks.length < 2 ^ 64
  index : ∀ id height, s.dbBlocksIndex id = some height ↔ At getBlockHash s id height
  transactions : ∀ bei ∈ s.dbBlocks, ∀ id ∈ bei.bl.txHashes, ∃ tx, s.dbTransactions id = some tx
  coinbase :
    ∀ bei ∈ s.dbBlocks, ∃ tx, s.dbTransactions (getTransactionHash bei.bl.minerTx) = some tx
  cached : ∀ bei ∈ s.dbBlocks, ∀ id, bei.cacheCoinbaseId = some id →
    id = getTransactionHash bei.bl.minerTx

/-- A block is sent with its transactions, in the order of their ids, and with its coinbase. -/
structure Serves (bei : BlockExtendedInfo Hash Tx) (sent : BlockDirect Hash Tx Entry) : Prop where
  block : sent.block = bei
  transactions :
    List.Forall₂ (fun id tx => s.dbTransactions id = some tx) bei.bl.txHashes sent.transactions
  coinbase :
    ∃ tx, s.dbTransactions (getTransactionHash bei.bl.minerTx) = some tx ∧ sent.coinbase = some tx

end

variable {Hash Tx Entry : Type*} {getBlockHash : Block Hash Tx → Hash}
  {getTransactionHash : Tx → Hash} {s : Storage Hash Tx Entry}

theorem getTransactionsDirect_eq {ids : List Hash}
    (all : ∀ id ∈ ids, ∃ tx, s.dbTransactions id = some tx) :
    ∃ txs, getTransactionsDirect s ids = (txs, []) ∧
      List.Forall₂ (fun id tx => s.dbTransactions id = some tx) ids txs := by
  induction ids with
  | nil => exact ⟨[], rfl, .nil⟩
  | cons id ids inductionHypothesis =>
      obtain ⟨⟨tx, here⟩, later⟩ := List.forall_mem_cons.mp all
      obtain ⟨txs, found, same⟩ := inductionHypothesis later
      exact ⟨tx :: txs, by simp only [getTransactionsDirect, found, here], .cons here same⟩

theorem MainChain.size_toNat (chain : MainChain getBlockHash getTransactionHash s) :
    (size s).toNat = s.dbBlocks.length :=
  UInt64.toNat_ofNat_of_lt' chain.countable

theorem At.lt {id : Hash} {height : UInt64} (isAt : At getBlockHash s id height) :
    height.toNat < s.dbBlocks.length := by
  obtain ⟨bei, isBlock, _⟩ := isAt
  exact (List.getElem?_eq_some_iff.mp isBlock).1

/-- One block is read and sent. -/
theorem supplementFrom_step (chain : MainChain getBlockHash getTransactionHash s)
    {i count maxCount : UInt64} {bei : BlockExtendedInfo Hash Tx}
    (isBlock : s.dbBlocks[i.toNat]? = some bei) (more : count < maxCount)
    (blocks : List (BlockDirect Hash Tx Entry)) :
    ∃ sent, Serves getTransactionHash s bei sent ∧
      supplementFrom getTransactionHash s i count maxCount blocks =
        supplementFrom getTransactionHash s (i + 1) (count + 1) maxCount (blocks ++ [sent]) := by
  obtain ⟨inside, _⟩ := List.getElem?_eq_some_iff.mp isBlock
  have isMember := List.mem_of_getElem? isBlock
  have notEnd : i ≠ size s := by
    rintro rfl
    rw [chain.size_toNat] at inside
    omega
  obtain ⟨txs, found, same⟩ := getTransactionsDirect_eq (chain.transactions bei isMember)
  obtain ⟨coinbase, isCoinbase⟩ := chain.coinbase bei isMember
  have isCached :
      getCoinbaseHashCached getTransactionHash bei = getTransactionHash bei.bl.minerTx := by
    cases cached : bei.cacheCoinbaseId with
    | none => rw [getCoinbaseHashCached, cached, Option.getD_none]
    | some id =>
        rw [getCoinbaseHashCached, cached, Option.getD_some, chain.cached bei isMember id cached]
  refine ⟨⟨bei, txs, some coinbase⟩, ⟨rfl, same, coinbase, isCoinbase, rfl⟩, ?_⟩
  rw [supplementFrom, dif_pos ⟨notEnd, more⟩]
  simp only [isBlock, found, ne_eq, not_true_eq_false, if_false, isCached, isCoinbase]

/-- From a height on the chain, as many blocks are sent as there are, or as are wanted. -/
theorem supplementFrom_eq (chain : MainChain getBlockHash getTransactionHash s)
    {i count maxCount : UInt64} {left : ℕ} (inside : i.toNat ≤ s.dbBlocks.length)
    (isLeft : count.toNat + left = maxCount.toNat) (blocks : List (BlockDirect Hash Tx Entry)) :
    ∃ sent, supplementFrom getTransactionHash s i count maxCount blocks = .ok (blocks ++ sent) ∧
      List.Forall₂ (Serves getTransactionHash s) ((s.dbBlocks.drop i.toNat).take left) sent := by
  induction left generalizing i count blocks with
  | zero =>
      have notLess : ¬count < maxCount := by
        rw [UInt64.lt_iff_toNat_lt]
        omega
      rw [supplementFrom, dif_neg (fun goesOn => notLess goesOn.2), List.take_zero]
      exact ⟨[], by rw [List.append_nil], .nil⟩
  | succ left inductionHypothesis =>
      have bound := maxCount.toNat_lt
      have countable := chain.countable
      have more : count < maxCount := by
        rw [UInt64.lt_iff_toNat_lt]
        omega
      rcases inside.lt_or_eq with here | atEnd
      · have isBlock := List.getElem?_eq_getElem here
        have nextIndex : (i + 1).toNat = i.toNat + 1 := by
          rw [UInt64.toNat_add, UInt64.toNat_one, Nat.mod_eq_of_lt (by omega)]
        have nextCount : (count + 1).toNat = count.toNat + 1 := by
          rw [UInt64.toNat_add, UInt64.toNat_one, Nat.mod_eq_of_lt (by omega)]
        obtain ⟨first, serves, isStep⟩ := supplementFrom_step chain isBlock more blocks
        obtain ⟨sent, isLater, servesLater⟩ :=
          @inductionHypothesis (i + 1) (count + 1) (by omega) (by omega) (blocks ++ [first])
        refine ⟨first :: sent, ?_, ?_⟩
        · rw [isStep, isLater, List.append_assoc, List.singleton_append]
        · rw [List.drop_eq_getElem_cons here, List.take_succ_cons]
          rw [nextIndex] at servesLater
          exact .cons serves servesLater
      · have isEnd : i = size s := by rw [← UInt64.toNat_inj, chain.size_toNat, atEnd]
        rw [supplementFrom, dif_neg (fun goesOn => goesOn.1 isEnd), atEnd, List.drop_length,
          List.take_nil]
        exact ⟨[], by rw [List.append_nil], .nil⟩

/-- Behind the end of the chain, the first block that is wanted is read outside. -/
theorem supplementFrom_behind {i maxCount : UInt64} (behind : s.dbBlocks.length < i.toNat)
    (wanted : maxCount ≠ 0) (chain : MainChain getBlockHash getTransactionHash s) :
    supplementFrom getTransactionHash s i 0 maxCount [] = .error .throws := by
  have notEnd : i ≠ size s := by
    rintro rfl
    rw [chain.size_toNat] at behind
    omega
  have more : 0 < maxCount := UInt64.pos_iff_ne_zero.mpr wanted
  rw [supplementFrom, dif_pos ⟨notEnd, more⟩, List.getElem?_eq_none behind.le]

variable [DecidableEq Hash]

/-- The first id that is on the chain. -/
theorem findStarterOffset_eq (chain : MainChain getBlockHash getTransactionHash s)
    {qblockIds : List Hash} {genesis : BlockExtendedInfo Hash Tx}
    (isGenesis : s.dbBlocks[0]? = some genesis)
    (isLast : qblockIds.getLast? = some (getBlockHash genesis.bl)) :
    ∃ k id height, qblockIds[k]? = some id ∧ At getBlockHash s id height ∧
      (∀ earlier ∈ qblockIds.take k, ∀ h, ¬At getBlockHash s earlier h) ∧
      findStarterOffset getBlockHash s qblockIds = .ok height := by
  have onChain : At getBlockHash s (getBlockHash genesis.bl) 0 := ⟨genesis, isGenesis, rfl⟩
  have known : (qblockIds.findSome? s.dbBlocksIndex).isSome := by
    rw [List.findSome?_isSome_iff]
    exact ⟨_, List.mem_of_getLast? isLast, by rw [(chain.index _ _).mpr onChain]; rfl⟩
  obtain ⟨height, isFound⟩ := Option.isSome_iff_exists.mp known
  obtain ⟨earlier, id, later, split, isHeight, notEarlier⟩ := List.findSome?_eq_some_iff.mp isFound
  refine ⟨earlier.length, id, height, ?_, (chain.index id height).mp isHeight, ?_, ?_⟩
  · rw [split, List.getElem?_append_right le_rfl, Nat.sub_self, List.getElem?_cons_zero]
  · intro other isEarlier h isAt
    rw [split, List.take_left] at isEarlier
    have isOther := (chain.index other h).mpr isAt
    rw [notEarlier other isEarlier] at isOther
    cases isOther
  · simp only [findStarterOffset, isLast, isGenesis, ne_eq, not_true_eq_false, if_false, isFound]

/-- From the first listed block on the chain, or from the minimum height if this is higher, every
block is sent as long as there are blocks, and as they are wanted. The minimum height may be where
the chain ends; behind it, nothing but no blocks at all may be wanted. -/
theorem findBlockchainSupplement_exact (chain : MainChain getBlockHash getTransactionHash s)
    {qblockIds : List Hash} {genesis : BlockExtendedInfo Hash Tx}
    (isGenesis : s.dbBlocks[0]? = some genesis)
    (isLast : qblockIds.getLast? = some (getBlockHash genesis.bl))
    (maxCount minimumHeight : UInt64) :
    ∃ k id height, qblockIds[k]? = some id ∧ At getBlockHash s id height ∧
      (∀ earlier ∈ qblockIds.take k, ∀ h, ¬At getBlockHash s earlier h) ∧
      let start := max minimumHeight.toNat height.toNat
      (minimumHeight.toNat ≤ s.dbBlocks.length ∨ maxCount = 0 → ∃ blocks startHeight,
        findBlockchainSupplement getBlockHash getTransactionHash s qblockIds maxCount
          minimumHeight =
          .ok ⟨blocks, size s, startHeight⟩ ∧
        startHeight.toNat = start ∧
        blocks.length = min s.dbBlocks.length (start + maxCount.toNat) - start ∧
        List.Forall₂ (Serves getTransactionHash s)
          ((s.dbBlocks.drop start).take maxCount.toNat) blocks) ∧
      (s.dbBlocks.length < minimumHeight.toNat ∧ maxCount ≠ 0 →
        findBlockchainSupplement getBlockHash getTransactionHash s qblockIds maxCount
          minimumHeight = .error .throws) := by
  obtain ⟨k, id, height, isId, isAt, notEarlier, isOffset⟩ :=
    findStarterOffset_eq chain isGenesis isLast
  have below := isAt.lt
  refine ⟨k, id, height, isId, isAt, notEarlier, ?_⟩
  intro start
  generalize isStart : (if minimumHeight > height then minimumHeight else height) = startHeight
  have startNat : startHeight.toNat = start := by
    rw [← isStart]
    split
    next higher =>
        have less := UInt64.lt_iff_toNat_lt.mp higher
        exact (max_eq_left less.le).symm
    next notHigher =>
        have atMost := Nat.not_lt.mp fun less => notHigher (UInt64.lt_iff_toNat_lt.mpr less)
        exact (max_eq_right atMost).symm
  rw [findBlockchainSupplement, isOffset]
  simp only [isStart]
  constructor
  · intro allowed
    obtain ⟨blocks, isSent, serves⟩ : ∃ blocks,
        supplementFrom getTransactionHash s startHeight 0 maxCount [] = .ok blocks ∧
        List.Forall₂ (Serves getTransactionHash s) ((s.dbBlocks.drop start).take maxCount.toNat)
          blocks := by
      rcases Nat.lt_or_ge s.dbBlocks.length startHeight.toNat with behind | inside
      · have notWanted : maxCount = 0 := allowed.resolve_left (by omega)
        rw [notWanted, supplementFrom, dif_neg (fun goesOn => absurd goesOn.2 (by decide))]
        exact ⟨[], rfl, by simp⟩
      · obtain ⟨sent, isSent, serves⟩ :=
          @supplementFrom_eq _ _ _ _ _ s chain startHeight 0 maxCount maxCount.toNat inside
            (Nat.zero_add _) []
        rw [startNat] at serves
        exact ⟨sent, by rw [isSent, List.nil_append], serves⟩
    refine ⟨blocks, startHeight, by rw [isSent]; rfl, startNat, ?_, serves⟩
    rw [← serves.length_eq, List.length_take, List.length_drop]
    omega
  · rintro ⟨behind, wanted⟩
    rw [supplementFrom_behind (by omega) wanted chain]
    rfl

/-- The second block has a transaction besides its own. -/
def twoBlocks : Storage ℕ ℕ ℕ where
  dbBlocks := [⟨⟨1, []⟩, some 1⟩, ⟨⟨2, [3]⟩, none⟩]
  dbBlocksIndex id := if id = 1 then some 0 else if id = 2 then some 1 else none
  dbTransactions id := if id ≤ 3 then some id else none

theorem twoBlocks_chain : MainChain Block.minerTx id twoBlocks where
  genesis := List.cons_ne_nil _ _
  countable := by decide
  index := by
    intro id height
    constructor
    · intro isHeight
      simp only [twoBlocks] at isHeight
      split_ifs at isHeight with first second
      · cases isHeight
        exact ⟨_, rfl, first.symm⟩
      · cases isHeight
        exact ⟨_, rfl, second.symm⟩
    · rintro ⟨bei, isBlock, rfl⟩
      have below := (List.getElem?_eq_some_iff.mp isBlock).1
      change height.toNat < 2 at below
      obtain first | second : height.toNat = 0 ∨ height.toNat = 1 := by omega
      · rw [first] at isBlock
        cases isBlock
        exact congrArg some (UInt64.toNat_inj.mp first).symm
      · rw [second] at isBlock
        cases isBlock
        exact congrArg some (UInt64.toNat_inj.mp second).symm
  transactions := by simp [twoBlocks]
  coinbase := by simp [twoBlocks]
  cached := by simp [twoBlocks]

/-- The id 7 is not on the chain, and the whole chain is sent. -/
theorem findBlockchainSupplement_exact_two : ∃ k known height, [7, 1][k]? = some known ∧
    At Block.minerTx twoBlocks known height ∧
    (∀ earlier ∈ [7, 1].take k, ∀ h, ¬At Block.minerTx twoBlocks earlier h) ∧
    ∃ blocks startHeight, findBlockchainSupplement Block.minerTx id twoBlocks [7, 1] 5 0 =
        .ok ⟨blocks, size twoBlocks, startHeight⟩ ∧
      List.Forall₂ (Serves id twoBlocks) ((twoBlocks.dbBlocks.drop (max 0 height.toNat)).take 5)
        blocks := by
  obtain ⟨k, known, height, isId, isAt, notEarlier, served, _⟩ :=
    @findBlockchainSupplement_exact _ _ _ _ _ _ _ twoBlocks_chain [7, 1] _ rfl rfl 5 0
  obtain ⟨blocks, startHeight, isSent, _, _, serves⟩ := served (.inl (by decide))
  exact ⟨k, known, height, isId, isAt, notEarlier, blocks, startHeight, isSent, serves⟩

/-- Nothing is above the chain, but instead of nothing an exception comes. -/
theorem minimum_height_above_top : MainChain Block.minerTx id twoBlocks ∧
    findBlockchainSupplement Block.minerTx id twoBlocks [1] 1 3 = .error .throws := by
  refine ⟨twoBlocks_chain, ?_⟩
  have isOffset : findStarterOffset Block.minerTx twoBlocks [1] = .ok 0 := rfl
  have isThrown :=
    @supplementFrom_behind _ _ _ _ _ twoBlocks 3 1 (by decide) (by decide) twoBlocks_chain
  simp only [findBlockchainSupplement, isOffset]
  rw [if_pos (by decide), isThrown]
  rfl

end Zano.BlockRequests
