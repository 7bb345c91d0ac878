import Mathlib
import Zano.Sync.ObjectRequests

/-! # Runs of a synchronization

A response that is handled leads to the next request, ends the connection, or finds the heights at
odds. Which of these it is depends on the response, on what is still needed, and on the blocks that
came by other ways.
-/

namespace Zano.Sync.Connection

open Wallet

variable {Hash Blob : Type*} [DecidableEq Hash]

/-! ## Blocks that go to the core -/

theorem checkBlocks_passed {node : Node Hash Blob} {answers : Answers Hash} {i : ℕ}
    {blocks : List (BlockCompleteEntry Blob)} {requested left : Finset Hash}
    (passed : checkBlocks node answers i blocks requested = .passed left) :
    (ResponseGetObjects.ids node ⟨blocks, 0⟩).Nodup ∧
      ∀ id ∈ ResponseGetObjects.ids node ⟨blocks, 0⟩, id ∈ requested := by
  induction blocks generalizing i requested with
  | nil => simp [ResponseGetObjects.ids]
  | cons entry blocks inductionHypothesis =>
      rw [checkBlocks] at passed
      split at passed
      · cases passed
      split at passed
      · cases passed
      next id txHashes isBlock =>
      split at passed
      · cases passed
      split at passed
      · cases passed
      next wasRequested =>
      rw [not_or, not_not] at wasRequested
      obtain ⟨distinct, inside⟩ := inductionHypothesis passed
      have ids : ResponseGetObjects.ids node ⟨entry :: blocks, 0⟩ =
          id :: ResponseGetObjects.ids node ⟨blocks, 0⟩ := by
        simp [ResponseGetObjects.ids, isBlock]
      rw [ids]
      constructor
      · refine List.nodup_cons.mpr ⟨fun again => ?_, distinct⟩
        exact Finset.notMem_erase id requested (inside id again)
      · intro other isOther
        cases List.mem_cons.mp isOther with
        | inl same => exact same ▸ wasRequested.1
        | inr later => exact Finset.mem_of_mem_erase (inside other later)

omit [DecidableEq Hash] in
theorem handedOver_append (first second : List (Effect Hash)) :
    handedOver (first ++ second) = handedOver first ++ handedOver second :=
  List.filterMap_append

omit [DecidableEq Hash] in
theorem handedOver_handOver_prefix (node : Node Hash Blob) (answers : Answers Hash) (i : ℕ)
    (blocks : List (BlockCompleteEntry Blob)) :
    handedOver (handOver node answers i blocks).1 <+: ResponseGetObjects.ids node ⟨blocks, 0⟩ := by
  induction blocks generalizing i with
  | nil => exact List.nil_prefix
  | cons entry blocks inductionHypothesis =>
      have own : handedOver ((node.parseAndValidateBlockFromBlob entry.block).toList.map fun b =>
          (Effect.handleIncomingBlock b.1 : Effect Hash)) =
          ((node.parseAndValidateBlockFromBlob entry.block).map (·.1)).toList := by
        cases node.parseAndValidateBlockFromBlob entry.block <;> rfl
      have ids : ResponseGetObjects.ids node ⟨entry :: blocks, 0⟩ =
          ((node.parseAndValidateBlockFromBlob entry.block).map (·.1)).toList ++
            ResponseGetObjects.ids node
          ⟨blocks, 0⟩ := by
        simp only [ResponseGetObjects.ids, List.filterMap_cons]
        cases node.parseAndValidateBlockFromBlob entry.block <;> rfl
      rw [handOver, ids]
      split
      · exact List.nil_prefix
      dsimp only
      split
      · rw [own]
        exact List.prefix_append _ _
      split
      · rw [own]
        exact List.prefix_append _ _
      · rw [handedOver_append, own]
        exact (List.prefix_append_right_inj _).mpr (inductionHypothesis (i + 1))

omit [DecidableEq Hash] in
theorem eq_handleIncomingBlock_of_mem {node : Node Hash Blob} {answers : Answers Hash} {i : ℕ}
    {blocks : List (BlockCompleteEntry Blob)} {effect : Effect Hash}
      (inside : effect ∈ (handOver node answers i blocks).1) :
    ∃ id, effect = .handleIncomingBlock id := by
  induction blocks generalizing i with
  | nil => cases inside
  | cons entry blocks inductionHypothesis =>
      have own : ∀ effect ∈ (node.parseAndValidateBlockFromBlob entry.block).toList.map fun b =>
          (Effect.handleIncomingBlock b.1 : Effect Hash),
            ∃ id, effect = .handleIncomingBlock id := by
        intro effect isOwn
        obtain ⟨b, -, rfl⟩ := List.mem_map.mp isOwn
        exact ⟨b.1, rfl⟩
      rw [handOver] at inside
      split at inside
      · cases inside
      dsimp only at inside
      split at inside
      · exact own effect inside
      split at inside
      · exact own effect inside
      · rcases List.mem_append.mp inside with first | later
        · exact own effect first
        · exact inductionHypothesis later

/-! ## The ids of a chain entry -/

/-- The ids whose blocks the core does not have when it is asked. -/
def unknown (answers : Answers Hash) (question : ℕ) (ids : List (BlockContextInfo Hash)) :
    List (BlockContextInfo Hash) :=
  ((ids.zipIdx question).filter fun e => !answers.haveBlock e.2 e.1.h).map (·.1)

omit [DecidableEq Hash] in
theorem unknown_eq_nil {answers : Answers Hash} {question : ℕ}
    {ids : List (BlockContextInfo Hash)} :
    unknown answers question ids = [] ↔
      ∀ e ∈ ids.zipIdx question, answers.haveBlock e.2 e.1.h = true := by
  simp [unknown, List.filter_eq_nil_iff]

omit [DecidableEq Hash] in
theorem exists_of_mem_unknown {answers : Answers Hash} {question : ℕ}
    {ids : List (BlockContextInfo Hash)} {e : BlockContextInfo Hash}
    (inside : e ∈ unknown answers question ids) :
    ∃ asked, answers.haveBlock asked e.h = false := by
  obtain ⟨numbered, isNumbered, rfl⟩ := List.mem_map.mp inside
  obtain ⟨-, notThere⟩ := List.mem_filter.mp isNumbered
  exact ⟨numbered.2, by simpa using notThere⟩

omit [DecidableEq Hash] in
theorem unknown_cons (answers : Answers Hash) (question : ℕ) (e : BlockContextInfo Hash)
    (ids : List (BlockContextInfo Hash)) :
    unknown answers question (e :: ids) =
      (if answers.haveBlock question e.h then [] else [e]) ++
        unknown answers (question + 1) ids := by
  cases isKnown : answers.haveBlock question e.h <;> simp [unknown, isKnown]

omit [DecidableEq Hash] in
theorem pushIds_cons (answers : Answers Hash) (question : ℕ) (height : UInt64)
    (e : BlockContextInfo Hash) (ids : List (BlockContextInfo Hash)) (c : ConnectionContext Hash) :
    pushIds answers question height (e :: ids) c =
      match c.lastFetchedBlockIds.perform (.push e.h height) with
      | none => ({ c with neededObjects := c.neededObjects ++ unknown answers question [e] }, false)
      | some s => pushIds answers (question + 1) (height + 1) ids
          { c with
            neededObjects := c.neededObjects ++ unknown answers question [e]
            lastFetchedBlockIds := s } := by
  cases isKnown : answers.haveBlock question e.h <;>
    cases pushed :
      c.lastFetchedBlockIds.perform (.push e.h height) <;> simp [pushIds, unknown, isKnown, pushed]

omit [DecidableEq Hash] in
theorem pushIds_of_run {answers : Answers Hash} {question : ℕ} {height : UInt64}
    {ids : List (BlockContextInfo Hash)} {c : ConnectionContext Hash} {s : ChainShortener Hash}
    (ran : Transition.run ChainShortener.perform c.lastFetchedBlockIds (pushCalls height ids) =
      some s) :
    pushIds answers question height ids c =
      ({ c with
        neededObjects := c.neededObjects ++ unknown answers question ids
        lastFetchedBlockIds := s }, true) := by
  induction ids generalizing question height c with
  | nil =>
      cases ran
      simp [pushIds, unknown]
  | cons e ids inductionHypothesis =>
      obtain ⟨next, pushed, rest⟩ := Transition.run_cons_eq_some.mp ran
      rw [pushIds_cons, pushed]
      dsimp only
      rw [inductionHypothesis rest, unknown_cons answers question e ids,
        unknown_cons answers question e []]
      simp [unknown, List.append_assoc]

omit [DecidableEq Hash] in
theorem pushIds_of_throws {answers : Answers Hash} {question : ℕ} {height : UInt64}
    {ids : List (BlockContextInfo Hash)} {c : ConnectionContext Hash}
    (throws :
      Transition.run ChainShortener.perform c.lastFetchedBlockIds (pushCalls height ids) = none) :
    ∃ needed s, pushIds answers question height ids c =
      ({ c with neededObjects := needed, lastFetchedBlockIds := s }, false) := by
  induction ids generalizing question height c with
  | nil => cases throws
  | cons e ids inductionHypothesis =>
      rw [pushIds_cons]
      cases pushed : c.lastFetchedBlockIds.perform (.push e.h height) with
      | none => exact ⟨_, c.lastFetchedBlockIds, rfl⟩
      | some next =>
          rw [pushCalls, Transition.run_cons, pushed] at throws
          obtain ⟨needed, s, isResult⟩ := @inductionHypothesis (question + 1) (height + 1)
            { c with
              neededObjects := c.neededObjects ++ unknown answers question [e]
              lastFetchedBlockIds := next } throws
          exact ⟨needed, s, isResult⟩

/-! ## The next request -/

omit [DecidableEq Hash] in
/-- Known blocks are passed over, and leave room for the first one that is unknown. -/
theorem exists_mem_takeNeeded_true {answers : Answers Hash} {question : ℕ}
    {needed : List (BlockContextInfo Hash)} :
    (∃ id ∈ (takeNeeded answers true question 0 0 needed).1, ∃ asked,
      answers.haveBlock asked id = false) ↔
      ∃ e ∈ needed.zipIdx question, answers.haveBlock e.2 e.1.h = false := by
  induction needed generalizing question with
  | nil => simp [takeNeeded]
  | cons e needed inductionHypothesis =>
      have room : 0 < blocksSynchronizingDefaultCount ∧
          (0 : UInt64) < blocksSynchronizingDefaultSize := by decide
      rw [takeNeeded, if_pos room, List.zipIdx_cons]
      cases isKnown : answers.haveBlock question e.h with
      | true => simp [inductionHypothesis, isKnown]
      | false =>
          constructor
          · intro _
            exact ⟨(e, question), List.mem_cons_self, isKnown⟩
          · intro _
            exact ⟨e.h, List.mem_cons_self, question, isKnown⟩

omit [DecidableEq Hash] in
theorem mem_takeNeeded_false {answers : Answers Hash} {question : ℕ} {e : BlockContextInfo Hash}
    {needed : List (BlockContextInfo Hash)} :
    e.h ∈ (takeNeeded answers false question 0 0 (e :: needed)).1 := by
  have room : 0 < blocksSynchronizingDefaultCount ∧
      (0 : UInt64) < blocksSynchronizingDefaultSize := by decide
  rw [takeNeeded, if_pos room]
  exact List.mem_cons_self

/-- A response was handled, and the next request is to be made. -/
structure Settled (c : ConnectionContext Hash) : Prop where
  synchronizing : c.state = .synchronizing
  connected : c.isDropped = false
  expectedChainEntry : c.expectedChainEntry = 0
  expectedGetObjects : c.expectedGetObjects = 0
  requestedObjects : c.requestedObjects = ∅
  within : c.lastResponseHeight ≤ c.remoteBlockchainSize

variable {node : Node Hash Blob} {answers : Answers Hash} {c : ConnectionContext Hash}
  {check : Bool}

omit [DecidableEq Hash] in
theorem InSync.of_nothing_expected (chainEntry : c.expectedChainEntry = 0)
    (getObjects : c.expectedGetObjects = 0) :
    InSync c where
  one := by omega
  nothingNeeded positive := by omega
  synchronizing _ positive := by omega

theorem inSync_requestMissingObjects (settled : Settled c) :
    InSync (requestMissingObjects node answers c check).1 := by
  have noChainEntry := settled.expectedChainEntry
  have noGetObjects := settled.expectedGetObjects
  rw [requestMissingObjects]
  split
  · exact ⟨by simp [noChainEntry, noGetObjects], by simp [noChainEntry],
      fun _ _ => settled.synchronizing⟩
  next nothing =>
  split
  · split
    · exact .of_nothing_expected noChainEntry noGetObjects
    · exact ⟨by simp [noChainEntry, noGetObjects],
        fun _ => ⟨not_not.mp nothing, settled.requestedObjects⟩, fun _ _ => settled.synchronizing⟩
  · split
    · exact .of_nothing_expected noChainEntry noGetObjects
    · exact .of_nothing_expected noChainEntry noGetObjects

theorem goesOn_of_needed (settled : Settled c) (needed : c.neededObjects ≠ []) :
    GoesOn answers (requestMissingObjects node answers c check) ↔
      ∃ id ∈ (takeNeeded answers check 1 0 0 c.neededObjects).1, ∃ asked,
        answers.haveBlock asked id = false := by
  rw [requestMissingObjects, if_pos needed]
  simp [GoesOn, AsksForMore, settled.connected, settled.synchronizing]

theorem goesOn_of_nothing_needed (settled : Settled c) (nothing : c.neededObjects = []) :
    GoesOn answers (requestMissingObjects node answers c check) ↔
      Finishes node answers c.lastResponseHeight c.remoteBlockchainSize c.lastFetchedBlockIds := by
  have within := settled.within
  have connected := settled.connected
  have synchronizing := settled.synchronizing
  rw [requestMissingObjects, if_neg (not_not.mpr nothing), Finishes]
  by_cases more : c.lastResponseHeight < c.remoteBlockchainSize - 1
  · rw [if_pos more]
    have apart : c.lastResponseHeight = c.remoteBlockchainSize → c.remoteBlockchainSize = 0 := by
      intro met
      grind
    cases isRequest : chainRequest node answers c.lastFetchedBlockIds with
    | none => simp [GoesOn, AsksForMore, connected, synchronizing, more]
    | some request => simpa [GoesOn, AsksForMore] using apart
  · rw [if_neg more]
    by_cases meets : c.lastResponseHeight = c.remoteBlockchainSize - 1
    · rw [if_pos ⟨meets, nothing, settled.requestedObjects⟩]
      have apart : c.lastResponseHeight = c.remoteBlockchainSize → c.remoteBlockchainSize = 0 := by
        intro met
        grind
      simpa [GoesOn, more] using apart
    · rw [if_neg fun holds => meets holds.1]
      have failed :
          ¬(c.lastResponseHeight = c.remoteBlockchainSize → c.remoteBlockchainSize = 0) := by
        intro apart
        grind
      simp only [GoesOn, List.mem_singleton, not_true_eq_false, false_and, more, false_imp_iff,
        true_and, failed]

omit [DecidableEq Hash] in
theorem goesOn_append {c : ConnectionContext Hash} {handed effects : List (Effect Hash)}
    (only : ∀ effect ∈ handed, ∃ id, effect = .handleIncomingBlock id) :
    GoesOn answers (c, handed ++ effects) ↔ GoesOn answers (c, effects) := by
  have same : ∀ effect, (∀ id, effect ≠ .handleIncomingBlock id) →
      (effect ∈ handed ++ effects ↔ effect ∈ effects) := by
    intro effect other
    rw [List.mem_append]
    apply or_iff_right
    intro inside
    obtain ⟨id, isHandled⟩ := only effect inside
    exact other id isHandled
  have failed := same .finalConditionFailed (by simp)
  have chain := fun ids => same (.requestChain ids) (by simp)
  have objects := fun ids => same (.requestGetObjects ids) (by simp)
  simp only [GoesOn, AsksForMore, failed, chain, objects]

theorem handedOver_requestMissingObjects :
    handedOver (requestMissingObjects node answers c check).2 = [] := by
  rw [requestMissingObjects]
  split
  · rfl
  split
  · split <;> rfl
  · split <;> rfl

theorem requestMissingObjects_normal
    (entered : (requestMissingObjects node answers c check).1.state = .normal)
    (before : c.state ≠ .normal) :
    let next := (requestMissingObjects node answers c check).1
    next.lastResponseHeight = next.remoteBlockchainSize - 1 ∧ next.neededObjects = [] ∧
      next.requestedObjects = ∅ := by
  rw [requestMissingObjects] at entered ⊢
  split at entered
  · exact absurd entered before
  next nothing =>
  rw [if_neg nothing]
  split at entered
  · split at entered
    · exact absurd entered before
    · exact absurd entered before
  next noMore =>
  rw [if_neg noMore]
  split at entered
  next meets =>
    rw [if_pos meets]
    exact meets
  · exact absurd entered before

/-! ## One response -/

/-- The response was the last one of the connection, at least until a new
synchronization is started. -/
structure Stopped (answers : Answers Hash) (c : ConnectionContext Hash)
    (result : ConnectionContext Hash × List (Effect Hash)) : Prop where
  expectedChainEntry : result.1.expectedChainEntry = 0
  expectedGetObjects : result.1.expectedGetObjects = 0
  notNormal : c.state ≠ .normal → result.1.state ≠ .normal
  ended : answers.isDebugged = true ∨ result.1.isDropped = true ∨ result.1.state = .idle
  effects : ∀ effect ∈ result.2, ∃ id, effect = .handleIncomingBlock id

omit [DecidableEq Hash] in
theorem Stopped.goesOn {result : ConnectionContext Hash × List (Effect Hash)}
    (stopped : Stopped answers c result) (notDebugged : answers.isDebugged = false) :
    GoesOn answers result := by
  constructor
  · intro failed
    obtain ⟨id, isHandled⟩ := stopped.effects _ failed
    cases isHandled
  · rcases stopped.ended with debugged | dropped | idle
    · rw [notDebugged] at debugged
      cases debugged
    · exact .inl dropped
    · exact .inr (.inl idle)

theorem handleResponseChainEntry_accepted {arg : ResponseChainEntry Hash}
    (expected : c.expectedChainEntry = 1) (notDebugged : answers.isDebugged = false)
    (accepted : arg.Accepted answers) :
    handleResponseChainEntry node answers arg c =
      let pushed := pushIds answers 1 arg.startHeight arg.blockIds { c with
        expectedChainEntry := 0
        remoteBlockchainSize := arg.totalHeight
        lastResponseHeight := arg.startHeight + UInt64.ofNat arg.blockIds.length - 1
        lastFetchedBlockIds := lastFetchedAt arg.startHeight c.lastFetchedBlockIds }
      if pushed.2 then requestMissingObjects node answers pushed.1 false
      else (pushed.1, [.threw]) := by
  have within : ¬arg.totalHeight < arg.startHeight + UInt64.ofNat arg.blockIds.length - 1 :=
    UInt64.not_lt.mpr accepted.2
  rw [handleResponseChainEntry, if_neg (by omega), notDebugged, accepted.1, expected]
  simp only [Bool.false_eq_true, if_false, Bool.not_true, if_neg within]

theorem handleResponseChainEntry_stopped {arg : ResponseChainEntry Hash}
    (expected : c.expectedChainEntry = 1) (nothingElse : c.expectedGetObjects = 0)
    (not : answers.isDebugged = true ∨ ¬arg.Accepted answers) :
    Stopped answers c (handleResponseChainEntry node answers arg c) := by
  rw [handleResponseChainEntry, if_neg (by omega), expected]
  dsimp only
  split
  next debugged => exact ⟨rfl, nothingElse, id, .inl debugged, by simp⟩
  next notDebugged =>
  split
  · exact ⟨rfl, nothingElse, id, .inr (.inl rfl), by simp⟩
  next known =>
  split
  · exact ⟨rfl, nothingElse, id, .inr (.inl rfl), by simp⟩
  next within =>
  refine absurd ?_ (not.resolve_left notDebugged)
  exact ⟨by simpa using known, UInt64.not_lt.mp within⟩

theorem handleResponseGetObjects_accepted {arg : ResponseGetObjects Blob}
    (expected : c.expectedGetObjects = 1) (notDebugged : answers.isDebugged = false)
    (accepted : arg.Accepted node answers c) :
    handleResponseGetObjects node answers arg c =
      let next := requestMissingObjects node answers { c with
        expectedGetObjects := 0
        remoteBlockchainSize := arg.currentBlockchainHeight
        requestedObjects := ∅ } true
      (next.1, (handOver node answers 0 arg.blocks).1 ++ next.2) := by
  have within : ¬arg.currentBlockchainHeight < c.lastResponseHeight := UInt64.not_lt.mpr accepted.1
  rw [handleResponseGetObjects, if_neg (by omega), notDebugged, expected]
  simp only [Bool.false_eq_true, if_false, if_neg within, accepted.2.1, accepted.2.2, ne_eq,
    not_true_eq_false]

theorem handleResponseGetObjects_stopped {arg : ResponseGetObjects Blob}
    (expected : c.expectedGetObjects = 1) (nothingElse : c.expectedChainEntry = 0)
    (not : answers.isDebugged = true ∨ ¬arg.Accepted node answers c) :
    Stopped answers c (handleResponseGetObjects node answers arg c) := by
  rw [handleResponseGetObjects, if_neg (by omega), expected]
  dsimp only
  split
  next debugged => exact ⟨nothingElse, rfl, id, .inl debugged, by simp⟩
  next notDebugged =>
  split
  · exact ⟨nothingElse, rfl, id, .inr (.inl rfl), by simp⟩
  next within =>
  split
  · exact ⟨nothingElse, rfl, id, .inr (.inl rfl), by simp⟩
  · exact ⟨nothingElse, rfl, fun _ => nofun, .inr (.inr rfl), by simp⟩
  next requested passed =>
  split
  · exact ⟨nothingElse, rfl, id, .inr (.inl rfl), by simp⟩
  next all =>
  rw [not_not] at all
  split
  · exact ⟨nothingElse, rfl, id, .inr (.inl rfl), fun _ => eq_handleIncomingBlock_of_mem⟩
  · exact ⟨nothingElse, rfl, fun _ => nofun, .inr (.inr rfl),
      fun _ => eq_handleIncomingBlock_of_mem⟩
  next handed =>
    refine absurd ?_ (not.resolve_left notDebugged)
    exact ⟨UInt64.not_lt.mp within, all ▸ passed, handed⟩

theorem handedOver_handleResponseChainEntry (arg : ResponseChainEntry Hash) :
    handedOver (handleResponseChainEntry node answers arg c).2 = [] := by
  rw [handleResponseChainEntry]
  split
  · rfl
  dsimp only
  split
  · rfl
  split
  · rfl
  split
  · rfl
  split
  · exact handedOver_requestMissingObjects
  · rfl

/-- The blocks that go to the core come from a response that passed the checks. -/
theorem handedOver_handleResponseGetObjects (arg : ResponseGetObjects Blob) :
    handedOver (handleResponseGetObjects node answers arg c).2 = [] ∨
      0 < c.expectedGetObjects ∧
        (∃ left, checkBlocks node answers 0 arg.blocks c.requestedObjects = .passed left) ∧
        handedOver (handleResponseGetObjects node answers arg c).2 <+: arg.ids node := by
  have first := handedOver_handOver_prefix node answers 0 arg.blocks
  rw [handleResponseGetObjects]
  split
  · exact .inl rfl
  next expected =>
  have isExpected := Nat.pos_of_ne_zero expected
  dsimp only
  split
  · exact .inl rfl
  split
  · exact .inl rfl
  split
  · exact .inl rfl
  · exact .inl rfl
  next left passed =>
  split
  · exact .inl rfl
  split
  · exact .inr ⟨isExpected, ⟨left, passed⟩, first⟩
  · exact .inr ⟨isExpected, ⟨left, passed⟩, first⟩
  · rw [handedOver_append, handedOver_requestMissingObjects, List.append_nil]
    exact .inr ⟨isExpected, ⟨left, passed⟩, first⟩

theorem handle_dropped (dropped : c.isDropped = true) (r : Response Hash Blob × Answers Hash) :
    handle node c r = (c, []) := by
  rw [handle, if_pos dropped]

theorem handle_chainEntry (connected : c.isDropped = false) (arg : ResponseChainEntry Hash) :
    handle node c (.chainEntry arg, answers) = handleResponseChainEntry node answers arg c := by
  rw [handle, if_neg (Bool.eq_false_iff.mp connected)]

theorem handle_getObjects (connected : c.isDropped = false) (arg : ResponseGetObjects Blob) :
    handle node c (.getObjects arg, answers) = handleResponseGetObjects node answers arg c := by
  rw [handle, if_neg (Bool.eq_false_iff.mp connected)]

theorem handsOverRequested (c : ConnectionContext Hash) (r : Response Hash Blob × Answers Hash) :
    HandsOverRequested node c r := by
  intro some
  obtain ⟨response, answers⟩ := r
  cases isDropped : c.isDropped with
  | true =>
      rw [handle_dropped isDropped] at some
      exact absurd rfl some
  | false =>
      cases response with
      | chainEntry arg =>
          rw [handle_chainEntry isDropped] at some
          exact absurd (handedOver_handleResponseChainEntry arg) some
      | getObjects arg =>
          rw [handle_getObjects isDropped] at some ⊢
          have fromResponse := @handedOver_handleResponseGetObjects _ _ _ node answers c arg
          obtain ⟨expected, ⟨left, passed⟩, first⟩ := fromResponse.resolve_left some
          obtain ⟨distinct, inside⟩ := checkBlocks_passed passed
          exact ⟨expected, distinct.sublist first.sublist,
            fun id isId => inside id (first.subset isId), arg, rfl, first⟩

/-! ## The condition -/

omit [DecidableEq Hash] in
/-- What the heights of a chain entry and its ids make of the connection. -/
theorem InSync.settled_chainEntry (inSync : InSync c) (connected : c.isDropped = false)
    (expected : 0 < c.expectedChainEntry)
    {arg : ResponseChainEntry Hash} (accepted : arg.Accepted answers)
    (needed : List (BlockContextInfo Hash)) (s : ChainShortener Hash) :
    Settled { c with
      expectedChainEntry := 0
      remoteBlockchainSize := arg.totalHeight
      lastResponseHeight := arg.startHeight + UInt64.ofNat arg.blockIds.length - 1
      neededObjects := needed
      lastFetchedBlockIds := s } where
  synchronizing := inSync.synchronizing connected (Nat.add_pos_left expected _)
  connected := connected
  expectedChainEntry := rfl
  expectedGetObjects := by
    have one := inSync.one
    show c.expectedGetObjects = 0
    omega
  requestedObjects := (inSync.nothingNeeded expected).2
  within := accepted.2

theorem InSync.settled_getObjects (inSync : InSync c) (connected : c.isDropped = false)
    (expected : 0 < c.expectedGetObjects)
    {arg : ResponseGetObjects Blob} (accepted : arg.Accepted node answers c) :
    Settled { c with
      expectedGetObjects := 0
      remoteBlockchainSize := arg.currentBlockchainHeight
      requestedObjects := ∅ } where
  synchronizing := inSync.synchronizing connected (Nat.add_pos_right _ expected)
  connected := connected
  expectedChainEntry := by
    have one := inSync.one
    show c.expectedChainEntry = 0
    omega
  expectedGetObjects := rfl
  requestedObjects := rfl
  within := accepted.1

/-- What a response does: it is not expected, it is the last one, the shortener throws, or the next
request is made. -/
inductive Outcome (node : Node Hash Blob) (c : ConnectionContext Hash)
    (r : Response Hash Blob × Answers Hash) : Prop where
  | unexpected (handled : handle node c r = (c.dropConnection, [])) (fine : Fine node c r)
  | stopped (handled : Stopped r.2 c (handle node c r)) (fine : Fine node c r)
  | threw (c' : ConnectionContext Hash) (handled : handle node c r = (c', [.threw]))
      (chainEntry : c'.expectedChainEntry = 0)
      (getObjects : c'.expectedGetObjects = 0) (synchronizing : c'.state = .synchronizing)
      (connected : c'.isDropped = false)
      (notDebugged : r.2.isDebugged = false) (notFine : ¬Fine node c r)
  | requested (c' : ConnectionContext Hash) (check : Bool) (handed : List (Effect Hash))
      (settled : Settled c') (only : ∀ effect ∈ handed, ∃ id, effect = .handleIncomingBlock id)
      (handled : handle node c r = ((requestMissingObjects node r.2 c' check).1,
        handed ++ (requestMissingObjects node r.2 c' check).2))
      (notDebugged : r.2.isDebugged = false)
      (fine : Fine node c r ↔ GoesOn r.2 (requestMissingObjects node r.2 c' check))

theorem fine_chainEntry {arg : ResponseChainEntry Hash} (connected : c.isDropped = false)
    (notDebugged : answers.isDebugged = false) (expected : 0 < c.expectedChainEntry)
    (accepted : arg.Accepted answers) :
    Fine node c (.chainEntry arg, answers) ↔ arg.Fine node answers c := by
  constructor
  · intro fine
    exact fine connected notDebugged expected accepted
  · intro fine _ _ _ _
    exact fine

theorem fine_getObjects {arg : ResponseGetObjects Blob} (connected : c.isDropped = false)
    (notDebugged : answers.isDebugged = false) (expected : 0 < c.expectedGetObjects)
    (accepted : arg.Accepted node answers c) :
    Fine node c (.getObjects arg, answers) ↔ arg.Fine node answers c := by
  constructor
  · intro fine
    exact fine connected notDebugged expected accepted
  · intro fine _ _ _ _
    exact fine

/-- After its ids were taken, a chain entry leads to a request for the unknown blocks, for
more ids, or to none. -/
theorem ResponseChainEntry.fine_iff {arg : ResponseChainEntry Hash} {s : ChainShortener Hash}
    (ran :
      Transition.run ChainShortener.perform (lastFetchedAt arg.startHeight c.lastFetchedBlockIds)
      (pushCalls arg.startHeight arg.blockIds) = some s)
    {c' : ConnectionContext Hash} (settled : Settled c')
    (needed : c'.neededObjects = unknown answers 1 arg.blockIds)
    (last : c'.lastResponseHeight = arg.startHeight + UInt64.ofNat arg.blockIds.length - 1)
    (remote : c'.remoteBlockchainSize = arg.totalHeight) (shortener : c'.lastFetchedBlockIds = s) :
    arg.Fine node answers c ↔ GoesOn answers (requestMissingObjects node answers c' false) := by
  rw [ResponseChainEntry.Fine, ran]
  cases isUnknown : unknown answers 1 arg.blockIds with
  | nil =>
      have known := unknown_eq_nil.mp isUnknown
      rw [goesOn_of_nothing_needed settled (needed.trans isUnknown), last, remote, shortener]
      constructor
      · rintro ⟨s', same, finishes⟩
        cases same
        exact finishes known
      · intro finishes
        exact ⟨s, rfl, fun _ => finishes⟩
  | cons e later =>
      have isNeeded := needed.trans isUnknown
      have notThere :=
        exists_of_mem_unknown (isUnknown ▸ List.mem_cons_self : e ∈ unknown answers 1 arg.blockIds)
      rw [goesOn_of_needed settled (isNeeded ▸ List.cons_ne_nil e later), isNeeded]
      constructor
      · intro _
        exact ⟨e.h, mem_takeNeeded_false, notThere⟩
      · intro _
        refine ⟨s, rfl, fun known => ?_⟩
        rw [unknown_eq_nil.mpr known] at isUnknown
        cases isUnknown

theorem InSync.outcome_chainEntry (inSync : InSync c) (connected : c.isDropped = false)
    (arg : ResponseChainEntry Hash) :
    Outcome node c (.chainEntry arg, answers) := by
  have one := inSync.one
  have isHandle := @handle_chainEntry _ _ _ node answers c connected arg
  rcases Nat.eq_zero_or_pos c.expectedChainEntry with unexpected | expected
  · refine .unexpected ?_ fun _ _ expected => by omega
    rw [isHandle, handleResponseChainEntry, if_pos unexpected]
  have isOne : c.expectedChainEntry = 1 := by omega
  by_cases handled : answers.isDebugged = false ∧ arg.Accepted answers
  swap
  · rw [not_and_or, Bool.not_eq_false] at handled
    refine .stopped (isHandle ▸ handleResponseChainEntry_stopped isOne
      (by omega) handled) fun _ notDebugged _ accepted => ?_
    rcases handled with debugged | notAccepted
    · exact absurd debugged (Bool.eq_false_iff.mp notDebugged)
    · exact absurd accepted notAccepted
  obtain ⟨notDebugged, accepted⟩ := handled
  have fine := @fine_chainEntry _ Blob _ node answers c arg connected notDebugged expected accepted
  rw [handleResponseChainEntry_accepted isOne notDebugged accepted] at isHandle
  cases ran :
    Transition.run ChainShortener.perform (lastFetchedAt arg.startHeight c.lastFetchedBlockIds)
      (pushCalls arg.startHeight arg.blockIds) with
  | none =>
      obtain ⟨needed, s, pushed⟩ :=
        @pushIds_of_throws _ answers 1 arg.startHeight arg.blockIds
          { c with
            expectedChainEntry := 0
            remoteBlockchainSize := arg.totalHeight
            lastResponseHeight := arg.startHeight + UInt64.ofNat arg.blockIds.length - 1
            lastFetchedBlockIds := lastFetchedAt arg.startHeight c.lastFetchedBlockIds } ran
      have settled := inSync.settled_chainEntry connected expected accepted needed s
      rw [pushed] at isHandle
      refine .threw _ isHandle rfl settled.expectedGetObjects settled.synchronizing connected
        notDebugged fun isFine => ?_
      obtain ⟨s, isSome, -⟩ := fine.mp isFine
      rw [ran] at isSome
      cases isSome
  | some s =>
      have pushed := @pushIds_of_run _ answers 1 arg.startHeight arg.blockIds { c with
        expectedChainEntry := 0
        remoteBlockchainSize := arg.totalHeight
        lastResponseHeight := arg.startHeight + UInt64.ofNat arg.blockIds.length - 1
        lastFetchedBlockIds := lastFetchedAt arg.startHeight c.lastFetchedBlockIds } s ran
      have settled := inSync.settled_chainEntry connected expected accepted
        (c.neededObjects ++ unknown answers 1 arg.blockIds) s
      have needed :
          c.neededObjects ++ unknown answers 1 arg.blockIds = unknown answers 1 arg.blockIds := by
        rw [(inSync.nothingNeeded expected).1, List.nil_append]
      rw [pushed] at isHandle
      refine .requested _ false [] settled (by simp) isHandle notDebugged (fine.trans ?_)
      exact ResponseChainEntry.fine_iff ran settled needed rfl rfl rfl

theorem InSync.outcome_getObjects (inSync : InSync c) (connected : c.isDropped = false)
    (arg : ResponseGetObjects Blob) :
    Outcome node c (.getObjects arg, answers) := by
  have one := inSync.one
  have isHandle := @handle_getObjects _ _ _ node answers c connected arg
  rcases Nat.eq_zero_or_pos c.expectedGetObjects with unexpected | expected
  · refine .unexpected ?_ fun _ _ expected => by omega
    rw [isHandle, handleResponseGetObjects, if_pos unexpected]
  have isOne : c.expectedGetObjects = 1 := by omega
  by_cases handled : answers.isDebugged = false ∧ arg.Accepted node answers c
  swap
  · rw [not_and_or, Bool.not_eq_false] at handled
    refine .stopped (isHandle ▸ handleResponseGetObjects_stopped isOne
      (by omega) handled) fun _ notDebugged _ accepted => ?_
    rcases handled with debugged | notAccepted
    · exact absurd debugged (Bool.eq_false_iff.mp notDebugged)
    · exact absurd accepted notAccepted
  obtain ⟨notDebugged, accepted⟩ := handled
  have settled := inSync.settled_getObjects connected expected accepted
  rw [handleResponseGetObjects_accepted isOne notDebugged accepted] at isHandle
  refine .requested _ true _ settled (fun _ => eq_handleIncomingBlock_of_mem) isHandle
    notDebugged ?_
  rw [fine_getObjects connected notDebugged expected accepted, ResponseGetObjects.Fine]
  by_cases nothing : c.neededObjects = []
  · rw [goesOn_of_nothing_needed settled nothing, if_pos nothing]
  · rw [goesOn_of_needed settled nothing, if_neg nothing]
    exact exists_mem_takeNeeded_true.symm

theorem InSync.outcome (inSync : InSync c) (connected : c.isDropped = false)
    (r : Response Hash Blob × Answers Hash) :
    Outcome node c r := by
  obtain ⟨response, answers⟩ := r
  cases response with
  | chainEntry arg => exact inSync.outcome_chainEntry connected arg
  | getObjects arg => exact inSync.outcome_getObjects connected arg

theorem InSync.step {next : ConnectionContext Hash} (inSync : InSync c)
    {r : Response Hash Blob × Answers Hash}
    (stepped : step node c r = some next) : InSync next := by
  cases stepped
  cases isDropped : c.isDropped with
  | true =>
      rw [handle_dropped isDropped]
      exact inSync
  | false =>
      cases @InSync.outcome _ _ _ node _ inSync isDropped r with
      | unexpected handled =>
          rw [handled]
          exact ⟨inSync.one, inSync.nothingNeeded, nofun⟩
      | stopped handled =>
          exact .of_nothing_expected handled.expectedChainEntry handled.expectedGetObjects
      | threw c' handled chainEntry getObjects =>
          rw [handled]
          exact .of_nothing_expected chainEntry getObjects
      | requested c' check handed settled only handled =>
          rw [handled]
          exact inSync_requestMissingObjects settled

/-- A response that keeps nothing going breaks nothing else. -/
theorem InSync.entersNormalSynchronized (inSync : InSync c)
    (r : Response Hash Blob × Answers Hash) :
    EntersNormalSynchronized node c r := by
  intro entered before
  cases isDropped : c.isDropped with
  | true =>
      simp only [handle_dropped isDropped] at entered
      exact absurd entered before
  | false =>
      cases @InSync.outcome _ _ _ node _ inSync isDropped r with
      | unexpected handled =>
          simp only [handled] at entered
          exact absurd entered before
      | stopped handled => exact absurd entered (handled.notNormal before)
      | threw c' handled chainEntry getObjects synchronizing =>
          simp only [handled, synchronizing] at entered
          cases entered
      | requested c' check handed settled only handled =>
          simp only [handled] at entered ⊢
          exact requestMissingObjects_normal entered (settled.synchronizing ▸ nofun)

theorem InSync.goesOn_iff_fine (inSync : InSync c) (r : Response Hash Blob × Answers Hash) :
    (r.2.isDebugged = false → GoesOn r.2 (handle node c r)) ↔ Fine node c r := by
  cases isDropped : c.isDropped with
  | true =>
      rw [handle_dropped isDropped]
      constructor
      · intro _ connected
        rw [isDropped] at connected
        cases connected
      · intro _ _
        exact ⟨by simp, .inl isDropped⟩
  | false =>
      cases @InSync.outcome _ _ _ node _ inSync isDropped r with
      | unexpected handled fine =>
          rw [handled]
          exact iff_of_true (fun _ => ⟨by simp, .inl rfl⟩) fine
      | stopped handled fine => exact iff_of_true handled.goesOn fine
      | threw c' handled chainEntry getObjects synchronizing connected notDebugged notFine =>
          rw [handled]
          refine iff_of_false (fun goesOn => ?_) notFine
          have stuck := goesOn notDebugged
          simp [GoesOn, AsksForMore, connected, synchronizing] at stuck
      | requested c' check handed settled only handled notDebugged fine =>
          rw [handled, goesOn_append only, fine]
          exact ⟨fun goesOn => goesOn notDebugged, fun goesOn _ => goesOn⟩

theorem InSync.keepsPromises_iff (inSync : InSync c) (r : Response Hash Blob × Answers Hash) :
    KeepsPromises node c r ↔ Fine node c r := by
  rw [KeepsPromises, inSync.goesOn_iff_fine]
  constructor
  · intro kept
    exact kept.2.1
  · intro fine
    exact ⟨handsOverRequested c r, fine, inSync.entersNormalSynchronized r⟩

omit [DecidableEq Hash] in
theorem Started.inSync (started : Started c) : InSync c where
  one := by rw [started.expectedChainEntry, started.expectedGetObjects]
  nothingNeeded _ := ⟨started.neededObjects, started.requestedObjects⟩
  synchronizing _ _ := started.synchronizing

/-- From the first request on, the promises are kept as long as each chain entry with nothing new
leaves the heights to meet, one of the blocks that are still needed is still unknown, and the
shortener does not throw; and only as long.
-/
theorem synchronization_keeps_promises (node : Node Hash Blob) {c : ConnectionContext Hash}
    (started : Started c) (responses : List (Response Hash Blob × Answers Hash)) :
    Transition.Guarded (step node) (KeepsPromises node) c responses ↔
    Transition.Guarded (step node) (Fine node) c responses :=
  Transition.guarded_congr (fun _ _ _ inSync => inSync.step)
    (fun _ r inSync => inSync.keepsPromises_iff r) started.inSync

/-! ### A node whose blocks are their ids -/

def plainNode : Node ℕ ℕ where
  parseAndValidateBlockFromBlob block := some (block, 0)
  parseAndValidateTxFromBlob _ := true
  nullHash := 0

/-- The core knows these blocks all the time and takes every other one. -/
def knowing (blocks : List ℕ) : Answers ℕ where
  isDebugged := false
  haveBlock _ block := decide (block ∈ blocks)
  stopFlag _ := false
  handleIncomingBlock _ := ⟨false, false, false⟩
  haveBlockMain block := decide (block ∈ blocks)
  currentBlockchainSize := 2
  shortChainHistory := [7]

def firstAsked : ConnectionContext ℕ where
  state := .synchronizing
  isDropped := false
  remoteBlockchainSize := 3
  lastResponseHeight := 0
  neededObjects := []
  requestedObjects := ∅
  expectedGetObjects := 0
  expectedChainEntry := 1
  lastFetchedBlockIds := .fresh 0

theorem started_firstAsked : Started firstAsked := ⟨rfl, rfl, rfl, rfl, rfl, rfl⟩

/-- The peer has one block more than the node, which takes it and is synchronized. -/
theorem synchronization_keeps_promises_one_block :
    Transition.Guarded (step plainNode) (KeepsPromises plainNode) firstAsked
        [(.chainEntry ⟨1, 3, [⟨7, 1⟩, ⟨8, 1⟩]⟩, knowing [7]),
          (.getObjects ⟨[⟨8, []⟩], 3⟩, knowing [7, 8])] ∧
      (Transition.run (step plainNode) firstAsked
        [(.chainEntry ⟨1, 3, [⟨7, 1⟩, ⟨8, 1⟩]⟩, knowing [7]),
          (.getObjects ⟨[⟨8, []⟩], 3⟩, knowing [7, 8])]).map (·.state) = some .normal := by
  refine ⟨(synchronization_keeps_promises plainNode started_firstAsked _).mpr ?_, by decide⟩
  refine ⟨fun _ _ _ _ => ⟨_, rfl, fun known => absurd (known (⟨8, 1⟩, 2) (by decide)) (by decide)⟩,
    fun next stepped => ?_⟩
  cases stepped
  refine ⟨fun _ _ _ _ => ?_, fun _ _ => trivial⟩
  rw [ResponseGetObjects.Fine, if_pos (by decide)]
  exact ⟨by decide, by decide⟩

/-- One known id at the height that the peer gives for its whole chain: nothing is requested, and
the state stays. -/
theorem last_height_stalls :
    ¬∀ (node : Node ℕ ℕ) (c : ConnectionContext ℕ), Started c →
      ∀ responses : List (Response ℕ ℕ × Answers ℕ),
      Transition.Guarded (step node) (KeepsPromises node) c responses := by
  intro kept
  obtain ⟨⟨-, goesOn, -⟩, -⟩ :=
    kept plainNode firstAsked started_firstAsked [(.chainEntry ⟨1, 1, [⟨7, 1⟩]⟩, knowing [7])]
  exact (goesOn rfl).1 (by decide)

/-! ## Heights that fit -/

/-- Every id of the response has a height below the largest one. -/
def HeightsFit : Response Hash Blob → Prop
  | .chainEntry arg => arg.startHeight.toNat + arg.blockIds.length < 2 ^ 64
  | .getObjects _ => True

/-- The shortener has what was pushed since it was cleared. -/
def Tracked (c : ConnectionContext Hash) : Prop :=
  ∃ pushed, ChainShortener.Traced c.lastFetchedBlockIds pushed

omit [DecidableEq Hash] in
theorem localBcSize_of_push {s s' : ChainShortener Hash} {id : Hash} {height : UInt64}
    (fits : height.toNat + 1 < 2 ^ 64) (performed : s.perform (.push id height) = some s') :
    s'.localBcSize = height.toNat + 1 := by
  obtain ⟨pushed, isPushed, rfl⟩ := Option.map_eq_some_iff.mp performed
  have size : pushed.localBcSize = height.toNat + 1 := by
    unfold ChainShortener.pushNewBlockId at isPushed
    generalize (if height.toNat < s.localBcSize then s.detach height.toNat else s) =
      before at isPushed
    dsimp only at isPushed
    split at isPushed
    next genesis =>
      cases isPushed
      rw [genesis]
      rfl
    · split at isPushed
      · cases isPushed
      · obtain ⟨every10, -, rest⟩ := Option.bind_eq_some_iff.mp isPushed
        obtain ⟨every100, -, last⟩ := Option.bind_eq_some_iff.mp rest
        obtain ⟨every1000, -, rfl⟩ := Option.map_eq_some_iff.mp last
        rfl
  rw [ChainShortener.wrapSize, size, Nat.mod_eq_of_lt fits]

omit [DecidableEq Hash] in
theorem run_pushCalls {s : ChainShortener Hash} {pushed : ℕ → Option Hash}
    (traced : ChainShortener.Traced s pushed) {height : UInt64} {ids : List (BlockContextInfo Hash)}
    (fits : height.toNat + ids.length < 2 ^ 64)
    (next : height.toNat = s.localBcSize ∨ s.localBcSize = 1) :
    ∃ s' pushed', Transition.run ChainShortener.perform s (pushCalls height ids) = some s' ∧
      ChainShortener.Traced s' pushed' := by
  induction ids generalizing s pushed height with
  | nil => exact ⟨s, pushed, rfl, traced⟩
  | cons e ids inductionHypothesis =>
      rw [List.length_cons] at fits
      have heightFits : height.toNat + 1 < 2 ^ 64 := by omega
      obtain ⟨s', performed, after⟩ :=
        @ChainShortener.Traced.perform _ s pushed traced (.push e.h height)
        (next.imp_left Nat.le_of_eq) heightFits
      have above : (height + 1).toNat = height.toNat + 1 := by
        rw [UInt64.toNat_add]
        exact Nat.mod_eq_of_lt heightFits
      have size := localBcSize_of_push heightFits performed
      obtain ⟨final, pushed', ran, traced'⟩ :=
        inductionHypothesis after (by omega) (.inl (above.trans size.symm))
      exact ⟨final, pushed', Transition.run_cons_eq_some.mpr ⟨s', performed, ran⟩, traced'⟩

omit [DecidableEq Hash] in
theorem traced_lastFetchedAt {s : ChainShortener Hash} {pushed : ℕ → Option Hash}
    (traced : ChainShortener.Traced s pushed)
    (startHeight : UInt64) :
    ChainShortener.Traced (lastFetchedAt startHeight s) pushed ∧
      (startHeight.toNat = (lastFetchedAt startHeight s).localBcSize ∨
        (lastFetchedAt startHeight s).localBcSize = 1) := by
  rw [lastFetchedAt]
  split
  · exact ⟨traced.clear, .inr rfl⟩
  next here =>
    rw [not_not] at here
    exact ⟨traced, .inl here.symm⟩

omit [DecidableEq Hash] in
theorem chainRequest_traced {s : ChainShortener Hash} {pushed : ℕ → Option Hash}
    (traced : ChainShortener.Traced s pushed) :
    ∃ ids s', chainRequest node answers s = some (ids, s') ∧ ChainShortener.Traced s' pushed := by
  obtain ⟨⟨entries, isHistory, -⟩, -⟩ := traced.listsHistory
  have kept : ∀ ids : List Hash, ChainShortener.Traced
      (if ids = [] then (answers.shortChainHistory, s.clear) else (ids, s)).2 pushed := by
    intro ids
    split
    · exact traced.clear
    · exact traced
  rw [chainRequest]
  split
  · rw [isHistory]
    exact ⟨_, _, rfl, kept _⟩
  · exact ⟨_, _, rfl, traced.clear⟩

theorem tracked_requestMissingObjects (tracked : Tracked c) :
    Tracked (requestMissingObjects node answers c check).1 ∧
      .threw ∉ (requestMissingObjects node answers c check).2 := by
  rw [requestMissingObjects]
  split
  · exact ⟨tracked, by simp⟩
  split
  · obtain ⟨pushed, traced⟩ := tracked
    obtain ⟨ids, s, isRequest, after⟩ := @chainRequest_traced _ _ node answers _ _ traced
    rw [isRequest]
    exact ⟨⟨pushed, after⟩, by simp⟩
  · split
    · exact ⟨tracked, by simp⟩
    · exact ⟨tracked, by simp⟩

theorem tracked_handleResponseChainEntry {arg : ResponseChainEntry Hash} (tracked : Tracked c)
    (fits : arg.startHeight.toNat + arg.blockIds.length < 2 ^ 64) :
    Tracked (handleResponseChainEntry node answers arg c).1 ∧
      .threw ∉ (handleResponseChainEntry node answers arg c).2 := by
  obtain ⟨pushed, traced⟩ := tracked
  obtain ⟨anew, next⟩ := traced_lastFetchedAt traced arg.startHeight
  obtain ⟨s, pushed', ran, after⟩ := run_pushCalls anew fits next
  rw [handleResponseChainEntry]
  split
  · exact ⟨⟨pushed, traced⟩, by simp⟩
  dsimp only
  split
  · exact ⟨⟨pushed, traced⟩, by simp⟩
  split
  · exact ⟨⟨pushed, traced⟩, by simp⟩
  split
  · exact ⟨⟨pushed, traced⟩, by simp⟩
  · rw [pushIds_of_run ran, if_pos rfl]
    exact tracked_requestMissingObjects ⟨pushed', after⟩

theorem tracked_handleResponseGetObjects {arg : ResponseGetObjects Blob} (tracked : Tracked c) :
    Tracked (handleResponseGetObjects node answers arg c).1 ∧
      .threw ∉ (handleResponseGetObjects node answers arg c).2 := by
  have notThrown : .threw ∉ (handOver node answers 0 arg.blocks).1 := by
    intro threw
    obtain ⟨id, isHandled⟩ := eq_handleIncomingBlock_of_mem threw
    cases isHandled
  rw [handleResponseGetObjects]
  split
  · exact ⟨tracked, by simp⟩
  dsimp only
  split
  · exact ⟨tracked, by simp⟩
  split
  · exact ⟨tracked, by simp⟩
  split
  · exact ⟨tracked, by simp⟩
  · exact ⟨tracked, by simp⟩
  split
  · exact ⟨tracked, by simp⟩
  split
  · exact ⟨tracked, notThrown⟩
  · exact ⟨tracked, notThrown⟩
  · obtain ⟨after, notThrownNext⟩ := @tracked_requestMissingObjects _ _ _ node answers { c with
      expectedGetObjects := c.expectedGetObjects - 1
      remoteBlockchainSize := arg.currentBlockchainHeight
      requestedObjects := _ } true tracked
    exact ⟨after, by simp [notThrown, notThrownNext]⟩

/-- With heights below the largest one, nothing makes the shortener throw. -/
theorem never_threw (node : Node Hash Blob) (tracked : Tracked c)
    {responses : List (Response Hash Blob × Answers Hash)} (fit : ∀ r ∈ responses, HeightsFit r.1) :
    Transition.Guarded (step node) (fun c r => .threw ∉ (handle node c r).2) c responses := by
  induction responses generalizing c with
  | nil => trivial
  | cons r responses inductionHypothesis =>
      have stays : Tracked (handle node c r).1 ∧ .threw ∉ (handle node c r).2 := by
        obtain ⟨response, answers⟩ := r
        cases isDropped : c.isDropped with
        | true =>
            rw [handle_dropped isDropped]
            exact ⟨tracked, by simp⟩
        | false =>
            cases response with
            | chainEntry arg =>
                rw [handle_chainEntry isDropped]
                exact tracked_handleResponseChainEntry tracked (fit _ List.mem_cons_self)
            | getObjects arg =>
                rw [handle_getObjects isDropped]
                exact tracked_handleResponseGetObjects tracked
      refine ⟨stays.2, fun next stepped => ?_⟩
      cases stepped
      exact inductionHypothesis stays.1 fun later isLater =>
        fit later (List.mem_cons_of_mem r isLater)

end Zano.Sync.Connection
