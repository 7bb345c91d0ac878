import Mathlib.Data.Finmap
import Zano.Lib.BoundedSelection

/-! # Switching to an alternative chain

`switchToAlternativeBlockchain` works on the main chain, on the container of alternative blocks and
on the list of invalid blocks. Whether a single block can be connected, disconnected or taken as an
alternative block depends on the whole node and on the clock; `Verdicts` leaves these answers
arbitrary and lets them change from call to call (`calls` counts the calls), while what a call does
to the three containers is modelled as in the source.

The switch runs inside `handle_alternative_block`, with `m_is_reorganize_in_process` set. A block
that is pushed as an alternative block and demands a reorganization of its own therefore throws
after it was inserted, and the handler turns that into a failure.

The switch is given its chain as iterators into the container, and pushing ex-main blocks can prune
the container. `erased` remembers which entries have gone; what the source does with the iterator to
such an entry is undefined, and the switch has no result then.
-/

namespace Zano.Consensus

/-- What the containers know of a block: its id, its parent's id and its coinbase height. -/
structure ChainBlock (Id : Type*) where
  id : Id
  prevId : Id
  height : Nat
  deriving DecidableEq, Repr

/-- `block_ws_txs`. -/
structure BlockWithTxs (Id Txs : Type*) where
  b : ChainBlock Id
  onboardTransactions : Txs

/-- The part of `alt_block_extended_info` that a switch and pruning use. `timestamp` is the core's
time when the block came in, not the one that the block names. -/
structure AltBlockEntry (Id Txs : Type*) extends BlockWithTxs Id Txs where
  timestamp : Nat

structure ChainNode (Id Txs : Type*) where
  dbBlocks : List (ChainBlock Id)
  alternativeChains : Finmap fun _ : Id => AltBlockEntry Id Txs
  invalidBlocks : List Id
  calls : Nat
  erased : List Id

/-- The answers that depend on more than the three containers. `purges` returns the transactions of
a block that leaves the main chain, or nothing when that fails; `invalidates` is asked about a block
that could not be connected. `visits` is the order in which the container is iterated over. -/
structure Verdicts (Id Txs : Type*) where
  noTransactions : Txs
  purges : ChainNode Id Txs → ChainBlock Id → Option Txs
  connects : ChainNode Id Txs → ChainBlock Id → Txs → Bool
  invalidates : ChainNode Id Txs → ChainBlock Id → Txs → Bool
  acceptsAlternative : ChainNode Id Txs → ChainBlock Id → Txs → Bool
  completes : ChainNode Id Txs → ChainBlock Id → Txs → Txs
  demandsReorganize : ChainNode Id Txs → ChainBlock Id → Bool
  underCheckpointZone : ChainNode Id Txs → ChainBlock Id → Bool
  coreTime : ChainNode Id Txs → Nat
  visits : ChainNode Id Txs → List Id
  visits_nodup : ∀ node, (visits node).Nodup
  mem_visits : ∀ node id, id ∈ visits node ↔ id ∈ node.alternativeChains
  maxAltBlocks : Nat

namespace ChainNode

variable {Id Txs : Type*} [DecidableEq Id]

def tick (node : ChainNode Id Txs) : ChainNode Id Txs := { node with calls := node.calls + 1 }

def addBlockAsInvalid (node : ChainNode Id Txs) (id : Id) : ChainNode Id Txs :=
  if id ∈ node.invalidBlocks then node
  else { node with invalidBlocks := id :: node.invalidBlocks }

def doEraseAltblock (node : ChainNode Id Txs) (id : Id) : ChainNode Id Txs :=
  { node with
    alternativeChains := node.alternativeChains.erase id
    erased := id :: node.erased }

/-- `do_erase_altblock` with an iterator from before the switch. -/
def eraseHeld (node : ChainNode Id Txs) (id : Id) : Option (ChainNode Id Txs) :=
  if id ∈ node.erased then none else some (node.doEraseAltblock id)

/-- `pop_block_from_blockchain`: the genesis block stays. -/
def popBlockFromBlockchain (v : Verdicts Id Txs) (node : ChainNode Id Txs) :
    Option (BlockWithTxs Id Txs × ChainNode Id Txs) :=
  if node.dbBlocks.length ≤ 1 then none
  else
    match node.dbBlocks.getLast? with
    | none => none
    | some b => (v.purges node b).map fun txs =>
        (⟨b, txs⟩, { node with dbBlocks := node.dbBlocks.dropLast }.tick)

/-- `handle_block_to_main_chain`, as far as the containers go. -/
def handleBlockToMainChain (v : Verdicts Id Txs) (node : ChainNode Id Txs) (b : ChainBlock Id)
    (txs : Txs) : Bool × ChainNode Id Txs :=
  if (node.dbBlocks.getLast?.map (·.id)) = some b.prevId ∧ b.id ∉ node.dbBlocks.map (·.id) ∧
      v.connects node b txs = true then
    (true, { node with dbBlocks := node.dbBlocks ++ [b] }.tick)
  else if v.invalidates node b txs then (false, (node.addBlockAsInvalid b.id).tick)
  else (false, node.tick)

/-- How many blocks below the top an alternative block is kept when there are too many of them. -/
def altBlockLivetimeCount : Nat := 1440 / 12

def agedAltBlocks (v : Verdicts Id Txs) (node : ChainNode Id Txs) : List Id :=
  (v.visits node).filter fun id =>
    (node.alternativeChains.lookup id).any fun alt =>
      node.dbBlocks.length > alt.b.height ∧
        node.dbBlocks.length - alt.b.height > altBlockLivetimeCount

/-- The oldest entries, as many as there are too many. -/
def altsToDelete (v : Verdicts Id Txs) (node : ChainNode Id Txs) : List Id :=
  let size := node.alternativeChains.keys.card
  if size ≤ v.maxAltBlocks then []
  else
    let stamped := (v.visits node).filterMap fun id =>
      (node.alternativeChains.lookup id).map fun alt => (alt.timestamp, id)
    (stamped.foldl (BoundedSelection.keepLeast Prod.fst (size - v.maxAltBlocks)) []).map (·.2)

def pruneAgedAltBlocks (v : Verdicts Id Txs) (node : ChainNode Id Txs) : ChainNode Id Txs :=
  let young := (node.agedAltBlocks v).foldl doEraseAltblock node
  (young.altsToDelete v).foldl doEraseAltblock young

/-- The height that `handle_alternative_block` gives to a child of the block with this id. -/
def childHeight (node : ChainNode Id Txs) (prevId : Id) : Option Nat :=
  match node.alternativeChains.lookup prevId with
  | some alt => some (alt.b.height + 1)
  | none =>
      if prevId ∈ node.dbBlocks.map (·.id) then
        some ((node.dbBlocks.map (·.id)).idxOf prevId + 1)
      else none

/-- `handle_alternative_block` during a switch. A block without a known parent is an orphan, which
is no failure. -/
def handleAlternativeBlock (v : Verdicts Id Txs) (node : ChainNode Id Txs) (b : ChainBlock Id)
    (txs : Txs) : Bool × ChainNode Id Txs :=
  if v.underCheckpointZone node b then (false, node.tick)
  else
    match node.childHeight b.prevId with
    | none => (true, node.tick)
    | some height =>
        if b.height ≠ height ∨ v.acceptsAlternative node b txs = false ∨
            b.id ∈ node.alternativeChains then (false, node.tick)
        else
          let entry : AltBlockEntry Id Txs := ⟨⟨b, v.completes node b txs⟩, v.coreTime node⟩
          let inserted :=
            { node with alternativeChains := node.alternativeChains.insert b.id entry }
          if v.demandsReorganize inserted b then (false, inserted.tick)
          else if inserted.alternativeChains.keys.card > v.maxAltBlocks then
            (true, (inserted.pruneAgedAltBlocks v).tick)
          else (true, inserted.tick)

/-! ## The loops of the switch -/

/-- Disconnects the given number of blocks. The blocks come out lowest first; the flag is false when
one of them could not be disconnected. -/
def disconnect (v : Verdicts Id Txs) : Nat → ChainNode Id Txs →
    Bool × List (BlockWithTxs Id Txs) × ChainNode Id Txs
  | 0, node => (true, [], node)
  | count + 1, node =>
      match node.popBlockFromBlockchain v with
      | none => (false, [], node)
      | some (bwt, popped) =>
          let (ok, lower, final) := disconnect v count popped
          (ok, lower ++ [bwt], final)

/-- Connects blocks until one fails; returns the blocks from that one on. -/
def connectAll (v : Verdicts Id Txs) : List (BlockWithTxs Id Txs) → ChainNode Id Txs →
    List (BlockWithTxs Id Txs) × ChainNode Id Txs
  | [], node => ([], node)
  | bwt :: rest, node =>
      match node.handleBlockToMainChain v bwt.b bwt.onboardTransactions with
      | (true, next) => connectAll v rest next
      | (false, next) => (bwt :: rest, next)

/-- `rollback_blockchain_switching`. -/
def rollbackBlockchainSwitching (v : Verdicts Id Txs) (original : List (BlockWithTxs Id Txs))
    (rollbackHeight : Nat) (node : ChainNode Id Txs) : Bool × ChainNode Id Txs :=
  match disconnect v (node.dbBlocks.length - rollbackHeight) node with
  | (false, _, popped) => (false, popped)
  | (true, _, popped) =>
      match connectAll v original popped with
      | ([], final) => (true, final)
      | (_ :: _, final) => (false, final)

/-- Pushes ex-main blocks as alternative blocks until one is refused. The list that comes back is
the disconnected chain as the loop leaves it: the transactions of every block that it reached
were swapped out. -/
def pushOldChain (v : Verdicts Id Txs) : List (BlockWithTxs Id Txs) →
    ChainNode Id Txs → Bool × List (BlockWithTxs Id Txs) × ChainNode Id Txs
  | [], node => (true, [], node)
  | bwt :: rest, node =>
      match node.handleAlternativeBlock v bwt.b bwt.onboardTransactions with
      | (false, next) => (false, ⟨bwt.b, v.noTransactions⟩ :: rest, next)
      | (true, next) =>
          let (ok, later, final) := pushOldChain v rest next
          (ok, ⟨bwt.b, v.noTransactions⟩ :: later, final)

/-- What the log tells about a switch besides its result. `rollback` is the result of
`rollback_blockchain_switching` when it ran; the caller of that function ignores it. -/
structure SwitchLog where
  disconnected : Bool
  exMainRefused : Bool
  rollback : Option Bool
  deriving DecidableEq, Repr

/-- Erases the entries of the chain that was switched to. -/
def eraseChain (altChain : List (BlockWithTxs Id Txs)) (node : ChainNode Id Txs) :
    Option (ChainNode Id Txs) :=
  altChain.foldlM (fun node bwt => node.eraseHeld bwt.b.id) node

/-- Erases the entries from the one that could not be connected on, and makes them invalid. -/
def invalidateChain (failed : List (BlockWithTxs Id Txs)) (node : ChainNode Id Txs) :
    Option (ChainNode Id Txs) :=
  failed.foldlM (fun node bwt => (node.addBlockAsInvalid bwt.b.id).eraseHeld bwt.b.id) node

/-- `switch_to_alternative_blockchain`; nothing comes back when it uses an iterator to an entry that
is gone. The checks of the links between the last blocks are left out: no block is ever connected to
anything but the top. -/
def switchToAlternativeBlockchain (v : Verdicts Id Txs) (altChain : List (BlockWithTxs Id Txs))
    (before : ChainNode Id Txs) : Option (Bool × SwitchLog × ChainNode Id Txs) :=
  let node := { before with erased := [] }
  match altChain with
  | [] => some (false, ⟨true, false, none⟩, node)
  | first :: _ =>
      let splitHeight := first.b.height
      if node.dbBlocks.length < splitHeight then some (false, ⟨true, false, none⟩, node)
      else
        match disconnect v (node.dbBlocks.length - splitHeight) node with
        | (false, _, popped) => some (false, ⟨false, false, none⟩, popped)
        | (true, old, popped) =>
            match connectAll v altChain popped with
            | (failed@(_ :: _), stuck) =>
                let (ok, back) := stuck.rollbackBlockchainSwitching v old splitHeight
                (back.invalidateChain failed).map (false, ⟨true, false, some ok⟩, ·)
            | ([], connected) =>
                match pushOldChain v old connected with
                | (true, _, pushed) =>
                    (pushed.eraseChain altChain).map (true, ⟨true, false, none⟩, ·)
                | (false, left, refused) =>
                    let (ok, back) := refused.rollbackBlockchainSwitching v left splitHeight
                    (back.eraseChain altChain).map (true, ⟨true, true, some ok⟩, ·)

end ChainNode

end Zano.Consensus
