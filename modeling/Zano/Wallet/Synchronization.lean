import Mathlib
import Zano.Lib.HashChain
import Zano.Lib.Transition
import Zano.Wallet.ChainShortener

/-! # Pulling blocks

A wallet sends the short history of its chain and gets a run of blocks of the daemon's chain. Blocks
that it has are passed over; from the first one that differs it detaches its own blocks and
processes those that came. The pull may be stopped before any block, and a wallet in concise mode
starts over rather than detach too much.

Processing a block is followed by a list of the blocks that were processed and not detached since,
with what it does to the tables of the wallet left aside. The height and the id are all that is read
of a block here.
-/

namespace Zano.Wallet.Synchronization

variable {Hash : Type*}

structure PulledBlock (Hash : Type*) where
  height : Nat
  id : Hash
  deriving DecidableEq, Repr

structure LocalChain (Hash : Type*) where
  chain : ChainShortener Hash
  processed : List (Nat × Hash)
  deriving DecidableEq, Repr

structure Settings where
  conciseMode : Bool
  maxReorgBlocks : Nat

namespace LocalChain

def size (w : LocalChain Hash) : Nat := w.chain.localBcSize

/-- `process_new_blockchain_entry`: the transactions count from above the minimum height only. -/
def processNewBlockchainEntry (minimumHeight : Nat) (w : LocalChain Hash) (b : PulledBlock Hash)
    (height : Nat) :
    Option (LocalChain Hash) :=
  if height ≠ w.size ∧ ¬(height = minimumHeight ∨ w.size ≤ 1) then none
  else
    (w.chain.pushNewBlockId b.id height).map fun chain =>
      ⟨chain, if minimumHeight < b.height then w.processed ++ [(height, b.id)] else w.processed⟩

def detachBlockchain (w : LocalChain Hash) (includingHeight : Nat) : LocalChain Hash :=
  ⟨w.chain.detach includingHeight, SampledWindow.cut w.processed includingHeight⟩

variable [DecidableEq Hash]

/-- The loop of `handle_pulled_blocks` over the blocks before the stop flag is seen. The flag of the
result is `wallet_reset_needed`. -/
def handleBlocks (settings : Settings) (minimumHeight : Nat) :
    LocalChain Hash → Nat → Bool → Nat → List (PulledBlock Hash) → Option (LocalChain Hash × Bool)
  | w, _, _, _, [] => some (w, false)
  | w, currentIndex, beenMatchedBlock, lastMatchedIndex, b :: rest =>
      if w.size ≠ 1 ∧ w.size < b.height then
        if b.height ≠ minimumHeight then none
        else
          handleBlocks settings minimumHeight ⟨w.chain.clear, w.processed⟩ (currentIndex + 1)
            beenMatchedBlock
            lastMatchedIndex rest
      else if b.height = w.size ∧ beenMatchedBlock then
        (w.processNewBlockchainEntry minimumHeight b currentIndex).bind fun next =>
          handleBlocks settings minimumHeight next (currentIndex + 1) beenMatchedBlock
            lastMatchedIndex rest
      else
        (w.chain.checkIfBlockMatched b.height b.id).bind fun result =>
          if result.blockFound && result.blockMatched then
            handleBlocks settings minimumHeight w (currentIndex + 1) true b.height rest
          else
            let fullResetNeeded := result.fullResetNeeded || minimumHeight = b.height
            let lastMatched := if fullResetNeeded then 0 else lastMatchedIndex
            if !fullResetNeeded && !beenMatchedBlock then none
            else if settings.conciseMode && settings.maxReorgBlocks <
              (w.size + 2 ^ 64 - lastMatched) % 2 ^ 64 then
              some (w, true)
            else
              ((w.detachBlockchain (lastMatched + 1)).processNewBlockchainEntry minimumHeight b
                b.height).bind fun next =>
                  handleBlocks settings minimumHeight next (currentIndex + 1) true lastMatched rest

/-- `process_genesis_if_needed`, which leaves a wallet alone that has something on record. -/
def processGenesisIfNeeded (tablesEmpty : Bool) (w : LocalChain Hash) (genesis : PulledBlock Hash) :
    Option (LocalChain Hash) :=
  if !tablesEmpty then some w
  else if 1 < w.size then none
  else some { w with chain := w.chain.setGenesis genesis.id }

/-- The stop flag is seen after `stopAfter` blocks of the loop. -/
def handlePulledBlocks (settings : Settings) (minimumHeight : Nat) (tablesEmpty : Bool)
    (stopAfter startHeight : Nat) (w : LocalChain Hash) (blocks : List (PulledBlock Hash)) :
    Option (LocalChain Hash × Bool) :=
  match blocks with
  | [] => some (w, false)
  | first :: rest =>
      if startHeight = 0 ∧ w.size = 1 then
        if first.height ≠ 0 then none
        else
          (w.processGenesisIfNeeded tablesEmpty first).bind fun next =>
            next.handleBlocks settings minimumHeight (startHeight + 1) true 0 (rest.take stopAfter)
      else w.handleBlocks settings minimumHeight startHeight false 0
        ((first :: rest).take stopAfter)

end LocalChain

/-- An unset minimum height is asked for before blocks are pulled. -/
structure WalletState (Hash : Type*) where
  minimumHeight : Option Nat
  localChain : LocalChain Hash
  deriving DecidableEq, Repr

/-- The answer of the daemon, with the minimum height that it names if asked, and what it meets in
the wallet: whether nothing is on record, and how many blocks go by before the stop flag is seen. -/
structure Response (Hash : Type*) where
  estimatedHeight : Nat
  startHeight : Nat
  blocks : List (PulledBlock Hash)
  tablesEmpty : Bool
  stopAfter : Nat

def WalletState.getWalletMinimumHeight (w : WalletState Hash) (res : Response Hash) : Nat :=
  w.minimumHeight.getD res.estimatedHeight

/-- `reset_all` with the genesis block put back. -/
def WalletState.reset (genesis : Hash) : WalletState Hash := ⟨none, ⟨.fresh genesis, []⟩⟩

def pullBlocks [DecidableEq Hash] (settings : Settings) (w : WalletState Hash)
    (res : Response Hash) :
    Option (WalletState Hash) :=
  let minimumHeight := w.getWalletMinimumHeight res
  if w.localChain.size ≠ 0 ∧ w.localChain.size ≤ res.startHeight ∧
    res.startHeight ≠ minimumHeight then none
  else
    (w.localChain.handlePulledBlocks settings minimumHeight res.tablesEmpty res.stopAfter
      res.startHeight
      res.blocks).map fun (next, walletResetNeeded) =>
        if walletResetNeeded then .reset w.localChain.chain.genesis else ⟨some minimumHeight, next⟩

/-! ## The daemon -/

variable (parentOf : Hash → Hash) (heightOf : Hash → Nat)

/-- A main chain by its ids. An id determines the block, with its height and the id before it. -/
def MainChain (daemon : List Hash) : Prop := HashChain.Chained id parentOf heightOf daemon

/-- The highest block of a history that belongs to the chain. -/
structure HighestKnown (daemon history : List Hash) (height : Nat) : Prop where
  known : ∃ id, daemon[height]? = some id ∧ id ∈ history
  highest : ∀ later id, daemon[later]? = some id → id ∈ history → later ≤ height

/-- Consecutive blocks of the chain. -/
def RunOf (daemon : List Hash) (startHeight : Nat) (blocks : List (PulledBlock Hash)) : Prop :=
  ∀ k b, blocks[k]? = some b → b.height = startHeight + k ∧ daemon[startHeight + k]? = some b.id

/-- What a daemon with this main chain answers to the wallet. -/
structure Answers (daemon : List Hash) (w : WalletState Hash) (res : Response Hash) : Prop where
  chained : MainChain parentOf heightOf daemon
  genesis : daemon[0]? = some w.localChain.chain.genesis
  start : ∃ history height, w.localChain.chain.getShortChainHistory = some history ∧
    HighestKnown daemon history height ∧
    res.startHeight = max height (w.getWalletMinimumHeight res)
  blocks : RunOf daemon res.startHeight res.blocks

/-! ## One block -/

variable {parentOf heightOf} {minimumHeight : Nat} {w w' : LocalChain Hash} {ids : Nat → Hash}
  {daemon : List Hash}

/-- The wallet keeps and has processed one chain of ids from the minimum height to its top, and
nothing else. -/
structure Synced (parentOf : Hash → Hash) (heightOf : Hash → Nat) (minimumHeight : Nat)
    (w : LocalChain Hash)
    (ids : Nat → Hash) : Prop where
  remembers : w.chain.Remembers ids
  genesis : w.chain.genesis = ids 0
  above : w.size = 1 ∨ minimumHeight < w.size
  base : ∀ e, w.chain.Keeps e → minimumHeight ≤ e.1
  sorted : (w.processed.map (·.1)).Pairwise (· < ·)
  processed : ∀ e, e ∈ w.processed ↔ minimumHeight < e.1 ∧ e.1 < w.size ∧ e.2 = ids e.1
  linked : ∀ h, minimumHeight ≤ h → h + 1 < w.size → parentOf (ids (h + 1)) = ids h
  placed : ∀ h, minimumHeight ≤ h → 0 < h → h < w.size → heightOf (ids h) = h

/-- The daemon's chain and the wallet's agree below a block that they share. -/
theorem Synced.agrees (synced : Synced parentOf heightOf minimumHeight w ids)
    (chained : MainChain parentOf heightOf daemon) {t : Nat} (below : t < w.size)
    (same : daemon[t]? = some (ids t)) :
    ∀ h, minimumHeight ≤ h → h ≤ t → daemon[h]? = some (ids h) := by
  intro h above upTo
  obtain ⟨k, isTop⟩ := Nat.exists_eq_add_of_le upTo
  induction k generalizing t with
  | zero =>
      have top : t = h := by omega
      rw [← top]
      exact same
  | succ k inductionHypothesis =>
      obtain ⟨t', rfl⟩ : ∃ t', t = t' + 1 := ⟨h + k, by omega⟩
      obtain ⟨inside, -⟩ := List.getElem?_eq_some_iff.mp same
      have before : daemon[t']? = some (daemon[t']) := List.getElem?_eq_getElem _
      have isParent := chained.previous_eq before same
      have linked := synced.linked t' (by omega) below
      have sameBefore : daemon[t']? = some (ids t') := by
        rw [before]
        exact congrArg some (isParent.symm.trans linked)
      exact inductionHypothesis (by omega) sameBefore (by omega) (by omega)

theorem Synced.detach (synced : Synced parentOf heightOf minimumHeight w ids) {height : Nat}
    (positive : 0 < height) (within : height ≤ w.size)
    (above : height = 1 ∨ minimumHeight < height) :
    Synced parentOf heightOf minimumHeight (w.detachBlockchain height) ids where
  remembers := synced.remembers.detach positive within
  genesis := synced.genesis
  above := above
  base e keeps := synced.base e (ChainShortener.keeps_detach keeps)
  sorted := synced.sorted.sublist (List.filter_sublist.map _)
  processed e := by
    change e ∈ SampledWindow.cut w.processed height ↔
      minimumHeight < e.1 ∧ e.1 < height ∧ e.2 = ids e.1
    rw [SampledWindow.cut, List.mem_filter, synced.processed, decide_eq_true_eq]
    constructor
    · rintro ⟨⟨isAbove, -, isId⟩, isBelow⟩
      exact ⟨isAbove, isBelow, isId⟩
    · rintro ⟨isAbove, isBelow, isId⟩
      exact ⟨⟨isAbove, isBelow.trans_le within, isId⟩, isBelow⟩
  linked h isAbove isBelow := synced.linked h isAbove (isBelow.trans_le within)
  placed h isAbove isPositive isBelow :=
    synced.placed h isAbove isPositive (isBelow.trans_le within)

theorem RunOf.head {start : Nat} {b : PulledBlock Hash} {rest : List (PulledBlock Hash)}
    (run : RunOf daemon start (b :: rest)) : b.height = start ∧ daemon[start]? = some b.id := by
  simpa using run 0 b rfl

theorem RunOf.tail {start : Nat} {b : PulledBlock Hash} {rest : List (PulledBlock Hash)}
    (run : RunOf daemon start (b :: rest)) : RunOf daemon (start + 1) rest := by
  intro k later isThere
  have place := run (k + 1) later isThere
  rwa [show start + (k + 1) = start + 1 + k by omega] at place

theorem RunOf.take {start : Nat} {blocks : List (PulledBlock Hash)}
    (run : RunOf daemon start blocks) (n : Nat) :
    RunOf daemon start (blocks.take n) := by
  intro k b isThere
  rw [List.getElem?_take] at isThere
  split at isThere
  · exact run k b isThere
  · cases isThere

/-- The wallet's block at the height is the daemon's. -/
structure Shares (parentOf : Hash → Hash) (heightOf : Hash → Nat) (minimumHeight : Nat)
    (daemon : List Hash)
    (w : LocalChain Hash) (ids : Nat → Hash) (t : Nat) : Prop where
  synced : Synced parentOf heightOf minimumHeight w ids
  above : minimumHeight ≤ t
  below : t < w.size
  same : daemon[t]? = some (ids t)

/-- What a pull makes of the wallet: it starts over, or it had all the blocks, or the last
of them is its top. -/
inductive Outcome (parentOf : Hash → Hash) (heightOf : Hash → Nat) (settings : Settings)
    (minimumHeight : Nat)
    (daemon : List Hash) (w : LocalChain Hash)
    (ids : Nat → Hash) (blocks : List (PulledBlock Hash)) (last : Nat) :
    LocalChain Hash × Bool → Prop
  | startsOver (concise : settings.conciseMode = true) (w' : LocalChain Hash) :
      Outcome parentOf heightOf settings minimumHeight daemon w ids blocks last (w', true)
  | hadAll (all : ∀ b ∈ blocks, b.height < w.size ∧ b.id = ids b.height) :
      Outcome parentOf heightOf settings minimumHeight daemon w ids blocks last (w, false)
  | reached {w' : LocalChain Hash} {ids' : Nat → Hash} (nonempty : blocks ≠ [])
      (shares : Shares parentOf heightOf minimumHeight daemon w' ids' last)
      (top : w'.size = last + 1) :
      Outcome parentOf heightOf settings minimumHeight daemon w ids blocks last (w', false)

theorem Outcome.cons {settings : Settings} {b : PulledBlock Hash} {rest : List (PulledBlock Hash)}
    {last : Nat} {result : LocalChain Hash × Bool} (had : b.height < w.size ∧ b.id = ids b.height)
    (outcome : Outcome parentOf heightOf settings minimumHeight daemon w ids rest last result) :
    Outcome parentOf heightOf settings minimumHeight daemon w ids (b :: rest) last result := by
  cases outcome with
  | startsOver concise w' => exact .startsOver concise w'
  | hadAll all =>
      apply Outcome.hadAll
      intro other inside
      rcases List.mem_cons.mp inside with rfl | inRest
      · exact had
      · exact all other inRest
  | reached _ sharesLast top => exact .reached (List.cons_ne_nil _ _) sharesLast top

variable [DecidableEq Hash]

/-- One pull, with the main chain that the daemon has at that time. -/
abbrev Pull (Hash : Type*) := List Hash × Response Hash

def step (settings : Settings) (w : WalletState Hash) (pull : Pull Hash) :
    Option (WalletState Hash) :=
  pullBlocks settings w pull.2

def wholeChain (a b stopAfter : Nat) : Response Nat :=
  ⟨0, 0, [⟨0, 0⟩, ⟨1, a⟩, ⟨2, b⟩], true, stopAfter⟩

end Zano.Wallet.Synchronization
