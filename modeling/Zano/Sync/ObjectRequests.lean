import Mathlib
import Zano.Lib.Transition
import Zano.Wallet.ShortenerRuns

/-! # A connection that synchronizes

A node asks a peer for the ids of its chain and then for the blocks that it does not have. Each
answer is followed by the next request, until the heights say that nothing is left. The peer chooses
the heights, and other connections bring blocks while an answer is handled, so what the core says
about a block depends on when it is asked.
-/

namespace Zano.Sync.Connection

open Wallet

variable {Hash Blob : Type*}

inductive ConnectionState where
  | beforHandshake
  | synchronizing
  | idle
  | normal
  deriving DecidableEq, Repr

structure BlockContextInfo (Hash : Type*) where
  h : Hash
  cumulSize : UInt64
  deriving DecidableEq, Repr

/-- `NOTIFY_RESPONSE_CHAIN_ENTRY`. -/
structure ResponseChainEntry (Hash : Type*) where
  startHeight : UInt64
  totalHeight : UInt64
  blockIds : List (BlockContextInfo Hash)

structure BlockCompleteEntry (Blob : Type*) where
  block : Blob
  txs : List Blob

/-- `NOTIFY_RESPONSE_GET_OBJECTS`. -/
structure ResponseGetObjects (Blob : Type*) where
  blocks : List (BlockCompleteEntry Blob)
  currentBlockchainHeight : UInt64

inductive Response (Hash Blob : Type*) where
  | chainEntry (arg : ResponseChainEntry Hash)
  | getObjects (arg : ResponseGetObjects Blob)

/-! ## The node around a connection -/

/-- The parsers: a block gives its id and the number of its transactions. -/
structure Node (Hash Blob : Type*) where
  parseAndValidateBlockFromBlob : Blob → Option (Hash × ℕ)
  parseAndValidateTxFromBlob : Blob → Bool
  nullHash : Hash

structure BlockVerificationContext where
  alreadyExists : Bool
  verificationFailed : Bool
  markedAsOrphaned : Bool

/-- Where the stop flag is looked at. -/
inductive StopPoint where
  | parsing (block : ℕ)
  | block (block : ℕ)
  | transaction (block tx : ℕ)

/-- What is found out while a response is handled. The questions whether the core has a block are
numbered, since a block may arrive between two of them. -/
structure Answers (Hash : Type*) where
  isDebugged : Bool
  haveBlock : ℕ → Hash → Bool
  stopFlag : StopPoint → Bool
  handleIncomingBlock : ℕ → BlockVerificationContext
  haveBlockMain : Hash → Bool
  currentBlockchainSize : UInt64
  shortChainHistory : List Hash

/-- What a handler does besides changing the connection. -/
inductive Effect (Hash : Type*) where
  | handleIncomingBlock (id : Hash)
  | requestGetObjects (blocks : List Hash)
  | requestChain (blockIds : List Hash)
  | finalConditionFailed
  | threw
  deriving DecidableEq

structure ConnectionContext (Hash : Type*) where
  state : ConnectionState
  isDropped : Bool
  remoteBlockchainSize : UInt64
  lastResponseHeight : UInt64
  neededObjects : List (BlockContextInfo Hash)
  requestedObjects : Finset Hash
  expectedGetObjects : ℕ
  expectedChainEntry : ℕ
  lastFetchedBlockIds : ChainShortener Hash

namespace ConnectionContext

variable (c : ConnectionContext Hash)

def dropConnection : ConnectionContext Hash := { c with isDropped := true }

def setIdle : ConnectionContext Hash :=
  { c with state := .idle, neededObjects := [], requestedObjects := ∅ }

end ConnectionContext

/-! ## The next request -/

def blocksSynchronizingDefaultCount : ℕ := 200

def blocksSynchronizingDefaultSize : UInt64 := 2000000

def blocksIdsSynchronizingDefaultCount : UInt64 := 2000

/-- The loop of `request_missing_objects`: the ids that are requested and what is left
of the needed ones. -/
def takeNeeded (answers : Answers Hash) (checkHavingBlocks : Bool) :
    ℕ → ℕ → UInt64 → List (BlockContextInfo Hash) → List Hash × List (BlockContextInfo Hash)
  | _, _, _, [] => ([], [])
  | question, count, size, e :: needed =>
      if count < blocksSynchronizingDefaultCount ∧ size < blocksSynchronizingDefaultSize then
        if checkHavingBlocks && answers.haveBlock question e.h then
          takeNeeded answers checkHavingBlocks (question + 1) count size needed
        else
          let taken := takeNeeded answers checkHavingBlocks (question + 1) (count + 1)
            (size + e.cumulSize) needed
          (e.h :: taken.1, taken.2)
      else ([], e :: needed)

def topBlockHeight (s : ChainShortener Hash) : UInt64 := UInt64.ofNat s.localBcSize - 1

def topBlockId (node : Node Hash Blob) (s : ChainShortener Hash) : Hash :=
  (s.last20Blocks.getLast?.map (·.2)).getD node.nullHash

variable [DecidableEq Hash]

/-- The ids of `NOTIFY_REQUEST_CHAIN`: the latest ones that the peer sent, when they are not in
the main chain or far below its top, and else those of the core. The shortener throws when a
self check fails. -/
def chainRequest (node : Node Hash Blob) (answers : Answers Hash) (s : ChainShortener Hash) :
    Option (List Hash × ChainShortener Hash) :=
  let alternative := 0 < topBlockHeight s ∧ (answers.haveBlockMain (topBlockId node s) = false ∨
    topBlockHeight s + blocksIdsSynchronizingDefaultCount < answers.currentBlockchainSize)
  (if alternative then s.getShortChainHistory else some []).map fun ids =>
    if ids = [] then (answers.shortChainHistory, s.clear) else (ids, s)

def requestMissingObjects (node : Node Hash Blob) (answers : Answers Hash)
    (c : ConnectionContext Hash) (checkHavingBlocks : Bool) :
    ConnectionContext Hash × List (Effect Hash) :=
  if c.neededObjects ≠ [] then
    let taken := takeNeeded answers checkHavingBlocks 1 0 0 c.neededObjects
    ({ c with
        neededObjects := taken.2
        requestedObjects := c.requestedObjects ∪ taken.1.toFinset
        expectedGetObjects := c.expectedGetObjects + 1 },
      [.requestGetObjects taken.1])
  else if c.lastResponseHeight < c.remoteBlockchainSize - 1 then
    match chainRequest node answers c.lastFetchedBlockIds with
    | none => (c, [.threw])
    | some (ids, s) =>
        ({ c with lastFetchedBlockIds := s, expectedChainEntry := c.expectedChainEntry + 1 },
          [.requestChain ids])
  else if c.lastResponseHeight = c.remoteBlockchainSize - 1 ∧ c.neededObjects = [] ∧
    c.requestedObjects = ∅ then
    ({ c with state := .normal }, [])
  else (c, [.finalConditionFailed])

/-! ## The handlers -/

/-- The ids of a chain entry, from this one on. The flag says whether none of them made the
shortener throw. What a push that throws leaves behind is not looked at any more. -/
def pushIds (answers : Answers Hash) :
    ℕ → UInt64 → List (BlockContextInfo Hash) → ConnectionContext Hash →
      ConnectionContext Hash × Bool
  | _, _, [], c => (c, true)
  | question, height, e :: ids, c =>
      let c := if answers.haveBlock question e.h then c
        else { c with neededObjects := c.neededObjects ++ [e] }
      match c.lastFetchedBlockIds.perform (.push e.h height) with
      | none => (c, false)
      | some s =>
          pushIds answers (question + 1) (height + 1) ids { c with lastFetchedBlockIds := s }

/-- The shortener goes on from what the peer sent before, or starts anew. -/
def lastFetchedAt (startHeight : UInt64) (s : ChainShortener Hash) : ChainShortener Hash :=
  if s.localBcSize ≠ startHeight.toNat then s.clear else s

def handleResponseChainEntry (node : Node Hash Blob) (answers : Answers Hash)
    (arg : ResponseChainEntry Hash) (c : ConnectionContext Hash) :
    ConnectionContext Hash × List (Effect Hash) :=
  if c.expectedChainEntry = 0 then (c.dropConnection, [])
  else
    let c := { c with expectedChainEntry := c.expectedChainEntry - 1 }
    if answers.isDebugged then (c, [])
    else if !arg.blockIds.head?.any fun front => answers.haveBlock 0 front.h then
      (c.dropConnection, [])
    else
      let c := { c with
        remoteBlockchainSize := arg.totalHeight
        lastResponseHeight := arg.startHeight + UInt64.ofNat arg.blockIds.length - 1 }
      if c.remoteBlockchainSize < c.lastResponseHeight then (c.dropConnection, [])
      else
        let c :=
          { c with lastFetchedBlockIds := lastFetchedAt arg.startHeight c.lastFetchedBlockIds }
        let pushed := pushIds answers 1 arg.startHeight arg.blockIds c
        if pushed.2 then requestMissingObjects node answers pushed.1 false else (pushed.1, [.threw])

inductive Checked (Hash : Type*) where
  | dropped (requested : Finset Hash)
  | idle
  | passed (requested : Finset Hash)

/-- The first loop of `handle_response_get_objects`: every block was requested,
and is crossed out. -/
def checkBlocks (node : Node Hash Blob) (answers : Answers Hash) :
    ℕ → List (BlockCompleteEntry Blob) → Finset Hash → Checked Hash
  | _, [], requested => .passed requested
  | i, entry :: blocks, requested =>
      if answers.stopFlag (.parsing i) then .dropped requested
      else
        match node.parseAndValidateBlockFromBlob entry.block with
        | none => .dropped requested
        | some (id, txHashes) =>
            if i = 1 ∧ answers.haveBlock 0 id then .idle
            else if id ∉ requested ∨ txHashes ≠ entry.txs.length then .dropped requested
            else checkBlocks node answers (i + 1) blocks (requested.erase id)

inductive HandedOver where
  | dropped
  | idle
  | all
  deriving DecidableEq

def stopsInTransactions (node : Node Hash Blob) (answers : Answers Hash) (i : ℕ)
    (txs : List Blob) : Bool :=
  txs.zipIdx.any fun tx =>
    answers.stopFlag (.transaction i tx.2) || !node.parseAndValidateTxFromBlob tx.1

/-- The second loop: the blocks go to the core. -/
def handOver (node : Node Hash Blob) (answers : Answers Hash) :
    ℕ → List (BlockCompleteEntry Blob) → List (Effect Hash) × HandedOver
  | _, [] => ([], .all)
  | i, entry :: blocks =>
      if answers.stopFlag (.block i) || stopsInTransactions node answers i entry.txs then
        ([], .dropped)
      else
        let handed := (node.parseAndValidateBlockFromBlob entry.block).toList.map fun b =>
          Effect.handleIncomingBlock b.1
        let bvc := answers.handleIncomingBlock i
        if 2 < i ∧ bvc.alreadyExists then (handed, .idle)
        else if bvc.verificationFailed ∨ bvc.markedAsOrphaned then (handed, .dropped)
        else
          let later := handOver node answers (i + 1) blocks
          (handed ++ later.1, later.2)

def handleResponseGetObjects (node : Node Hash Blob) (answers : Answers Hash)
    (arg : ResponseGetObjects Blob) (c : ConnectionContext Hash) :
    ConnectionContext Hash × List (Effect Hash) :=
  if c.expectedGetObjects = 0 then (c.dropConnection, [])
  else
    let c := { c with expectedGetObjects := c.expectedGetObjects - 1 }
    if answers.isDebugged then (c, [])
    else if arg.currentBlockchainHeight < c.lastResponseHeight then (c.dropConnection, [])
    else
      let c := { c with remoteBlockchainSize := arg.currentBlockchainHeight }
      match checkBlocks node answers 0 arg.blocks c.requestedObjects with
      | .dropped requested => ({ c with requestedObjects := requested }.dropConnection, [])
      | .idle => (c.setIdle, [])
      | .passed requested =>
          let c := { c with requestedObjects := requested }
          if requested ≠ ∅ then (c.dropConnection, [])
          else
            let handed := handOver node answers 0 arg.blocks
            match handed.2 with
            | .dropped => (c.dropConnection, handed.1)
            | .idle => (c.setIdle, handed.1)
            | .all =>
                let next := requestMissingObjects node answers c true
                (next.1, handed.1 ++ next.2)

/-- A response that arrives on a connection that was dropped is not handled. -/
def handle (node : Node Hash Blob) (c : ConnectionContext Hash)
    (r : Response Hash Blob × Answers Hash) :
    ConnectionContext Hash × List (Effect Hash) :=
  if c.isDropped then (c, [])
  else
    match r.1 with
    | .chainEntry arg => handleResponseChainEntry node r.2 arg c
    | .getObjects arg => handleResponseGetObjects node r.2 arg c

def step (node : Node Hash Blob) (c : ConnectionContext Hash)
    (r : Response Hash Blob × Answers Hash) :
    Option (ConnectionContext Hash) :=
  some (handle node c r).1

/-! ## What is promised -/

def handedOver (effects : List (Effect Hash)) : List Hash :=
  effects.filterMap fun
    | .handleIncomingBlock id => some id
    | _ => none

def ResponseGetObjects.ids (node : Node Hash Blob) (arg : ResponseGetObjects Blob) : List Hash :=
  arg.blocks.filterMap fun entry => (node.parseAndValidateBlockFromBlob entry.block).map (·.1)

/-- The blocks that go to the core are the first ones of a response that is expected, each of them
was requested, and none goes twice. -/
def HandsOverRequested (node : Node Hash Blob) (c : ConnectionContext Hash)
    (r : Response Hash Blob × Answers Hash) : Prop :=
  let handed := handedOver (handle node c r).2
  handed ≠ [] → 0 < c.expectedGetObjects ∧ handed.Nodup ∧ (∀ id ∈ handed, id ∈ c.requestedObjects) ∧
    ∃ arg, r.1 = .getObjects arg ∧ handed <+: arg.ids node

/-- The next request asks for ids, or for a block that the core said it does not have. -/
def AsksForMore (answers : Answers Hash) (effects : List (Effect Hash)) : Prop :=
  (∃ ids, .requestChain ids ∈ effects) ∨
    ∃ ids, .requestGetObjects ids ∈ effects ∧
      ∃ id ∈ ids, ∃ question, answers.haveBlock question id = false

def GoesOn (answers : Answers Hash) (result : ConnectionContext Hash × List (Effect Hash)) : Prop :=
  .finalConditionFailed ∉ result.2 ∧
    (result.1.isDropped = true ∨ result.1.state = .idle ∨ result.1.state = .normal ∨
      AsksForMore answers result.2)

/-- The normal state is entered when nothing is left. -/
def EntersNormalSynchronized (node : Node Hash Blob) (c : ConnectionContext Hash)
    (r : Response Hash Blob × Answers Hash) : Prop :=
  let next := (handle node c r).1
  next.state = .normal → c.state ≠ .normal →
    next.lastResponseHeight = next.remoteBlockchainSize - 1 ∧ next.neededObjects = [] ∧
      next.requestedObjects = ∅

/-- What comes from a peer that is debugged is not handled. -/
def KeepsPromises (node : Node Hash Blob) (c : ConnectionContext Hash)
    (r : Response Hash Blob × Answers Hash) : Prop :=
  HandsOverRequested node c r ∧ (r.2.isDebugged = false → GoesOn r.2 (handle node c r)) ∧
    EntersNormalSynchronized node c r

/-! ## When it is kept -/

/-- With nothing left that is needed, there are ids to ask for and a history to send, or
the heights meet. -/
def Finishes (node : Node Hash Blob) (answers : Answers Hash)
    (lastResponseHeight remoteBlockchainSize : UInt64) (s : ChainShortener Hash) : Prop :=
  (lastResponseHeight < remoteBlockchainSize - 1 → chainRequest node answers s ≠ none) ∧
    (lastResponseHeight = remoteBlockchainSize → remoteBlockchainSize = 0)

def pushCalls : UInt64 → List (BlockContextInfo Hash) → List (ShortenerCall Hash)
  | _, [] => []
  | height, e :: ids => .push e.h height :: pushCalls (height + 1) ids

/-- The ids start from a known one and do not go above the chain of the peer. -/
def ResponseChainEntry.Accepted (answers : Answers Hash) (arg : ResponseChainEntry Hash) : Prop :=
  (arg.blockIds.head?.any fun front => answers.haveBlock 0 front.h) = true ∧
    arg.startHeight + UInt64.ofNat arg.blockIds.length - 1 ≤ arg.totalHeight

/-- The shortener takes the ids, and when all of them are known the heights are not one
apart from meeting. -/
def ResponseChainEntry.Fine (node : Node Hash Blob) (answers : Answers Hash)
    (c : ConnectionContext Hash) (arg : ResponseChainEntry Hash) : Prop :=
  ∃ s, Transition.run ChainShortener.perform (lastFetchedAt arg.startHeight c.lastFetchedBlockIds)
      (pushCalls arg.startHeight arg.blockIds) = some s ∧
    ((∀ e ∈ arg.blockIds.zipIdx 1, answers.haveBlock e.2 e.1.h = true) →
      Finishes node answers (arg.startHeight + UInt64.ofNat arg.blockIds.length - 1)
        arg.totalHeight s)

/-- Every requested block is there and goes to the core. -/
def ResponseGetObjects.Accepted (node : Node Hash Blob) (answers : Answers Hash)
    (c : ConnectionContext Hash) (arg : ResponseGetObjects Blob) : Prop :=
  c.lastResponseHeight ≤ arg.currentBlockchainHeight ∧
    checkBlocks node answers 0 arg.blocks c.requestedObjects = .passed ∅ ∧
      (handOver node answers 0 arg.blocks).2 = .all

/-- One of the blocks that are still needed is still unknown. -/
def ResponseGetObjects.Fine (node : Node Hash Blob) (answers : Answers Hash)
    (c : ConnectionContext Hash) (arg : ResponseGetObjects Blob) : Prop :=
  if c.neededObjects = [] then
    Finishes node answers c.lastResponseHeight arg.currentBlockchainHeight c.lastFetchedBlockIds
  else ∃ e ∈ c.neededObjects.zipIdx 1, answers.haveBlock e.2 e.1.h = false

/-- The condition on a response that is expected and passes its checks. -/
def Fine (node : Node Hash Blob) (c : ConnectionContext Hash)
    (r : Response Hash Blob × Answers Hash) : Prop :=
  c.isDropped = false → r.2.isDebugged = false →
    match r.1 with
    | .chainEntry arg => 0 < c.expectedChainEntry → arg.Accepted r.2 → arg.Fine node r.2 c
    | .getObjects arg => 0 < c.expectedGetObjects → arg.Accepted node r.2 c → arg.Fine node r.2 c

/-- The first ids were asked for. -/
structure Started (c : ConnectionContext Hash) : Prop where
  synchronizing : c.state = .synchronizing
  connected : c.isDropped = false
  expectedChainEntry : c.expectedChainEntry = 1
  expectedGetObjects : c.expectedGetObjects = 0
  neededObjects : c.neededObjects = []
  requestedObjects : c.requestedObjects = ∅

/-- At most one request is in flight, and the ids are asked for with nothing left that is needed. -/
structure InSync (c : ConnectionContext Hash) : Prop where
  one : c.expectedChainEntry + c.expectedGetObjects ≤ 1
  nothingNeeded : 0 < c.expectedChainEntry → c.neededObjects = [] ∧ c.requestedObjects = ∅
  synchronizing : c.isDropped = false → 0 < c.expectedChainEntry + c.expectedGetObjects →
    c.state = .synchronizing

end Zano.Sync.Connection
