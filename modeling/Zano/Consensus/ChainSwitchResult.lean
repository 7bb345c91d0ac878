import Mathlib.Data.List.Chain
import Zano.Consensus.ChainSwitch

/-! # What a chain switch leaves behind

Each loop of the switch gets one lemma about the main chain and one about the alternative container,
for every answer of the verdicts and every point at which the loop can stop. The outcome of the
whole switch is assembled from them.

Two stops are internal errors in the source and are only described as far as they go: a block that
cannot be disconnected, and a rollback that fails ("PANIC"). A refused ex-main block is a third
case: the switch is rolled back and still reported as done, as the comment in the source explains.

The switch goes through its iterators for as long as nothing is pruned meanwhile, in particular when
the container has room for the ex-main blocks.
-/

namespace Zano.Consensus

/-- Ids are unique on the main chain and every block names the one below it. -/
structure SoundChain {Id : Type*} (blocks : List (ChainBlock Id)) : Prop where
  unique : (blocks.map (·.id)).Nodup
  linked : blocks.IsChain fun below above => above.prevId = below.id

namespace SoundChain

variable {Id : Type*} {blocks : List (ChainBlock Id)}

theorem of_prefix {shorter : List (ChainBlock Id)} (sound : SoundChain blocks)
    (isPrefix : shorter <+: blocks) : SoundChain shorter where
  unique := sound.unique.sublist (isPrefix.sublist.map _)
  linked := sound.linked.prefix isPrefix

theorem append {b : ChainBlock Id} (sound : SoundChain blocks)
    (onTop : (blocks.getLast?.map (·.id)) = some b.prevId) (fresh : b.id ∉ blocks.map (·.id)) :
    SoundChain (blocks ++ [b]) where
  unique := by
    rw [List.map_append, List.map_singleton]
    exact List.nodup_append.mpr ⟨sound.unique, by simp, by
      intro id inside other isNew same
      exact fresh (List.mem_singleton.mp isNew ▸ same ▸ inside)⟩
  linked := by
    refine sound.linked.append (List.isChain_singleton b) ?_
    intro top isTop above isAbove
    have sameTop : blocks.getLast? = some top := isTop
    have sameAbove : b = above := by simpa using isAbove
    rw [sameTop] at onTop
    exact sameAbove ▸ (Option.some.inj onTop).symm

/-- A block above a cut is not below it. -/
theorem notMem_take {count : Nat} {b : ChainBlock Id} (sound : SoundChain blocks)
    (above : b ∈ blocks.drop count) : b.id ∉ (blocks.take count).map (·.id) := by
  have unique := sound.unique
  rw [← List.take_append_drop count blocks, List.map_append, List.nodup_append] at unique
  intro below
  exact unique.2.2 _ below _ (List.mem_map_of_mem above) rfl

end SoundChain

namespace ChainNode

variable {Id Txs : Type*} [DecidableEq Id] {v : Verdicts Id Txs}

/-! ## One block -/

section OneBlock

variable {node next : ChainNode Id Txs}

omit [DecidableEq Id] in
@[simp] theorem tick_dbBlocks : node.tick.dbBlocks = node.dbBlocks := rfl

omit [DecidableEq Id] in
@[simp] theorem tick_alternativeChains : node.tick.alternativeChains = node.alternativeChains := rfl

@[simp]
theorem addBlockAsInvalid_dbBlocks (id : Id) :
    (node.addBlockAsInvalid id).dbBlocks = node.dbBlocks := by
  unfold addBlockAsInvalid
  split <;> rfl

@[simp]
theorem addBlockAsInvalid_alternativeChains (id : Id) :
    (node.addBlockAsInvalid id).alternativeChains = node.alternativeChains := by
  unfold addBlockAsInvalid
  split <;> rfl

@[simp]
theorem addBlockAsInvalid_erased (id : Id) : (node.addBlockAsInvalid id).erased = node.erased := by
  unfold addBlockAsInvalid
  split <;> rfl

@[simp]
theorem doEraseAltblock_dbBlocks (id : Id) :
    (node.doEraseAltblock id).dbBlocks = node.dbBlocks := rfl

/-- A step that leaves the alternative container alone. -/
structure SameAlternatives (node next : ChainNode Id Txs) : Prop where
  chains : next.alternativeChains = node.alternativeChains
  erased : next.erased = node.erased

omit [DecidableEq Id] in
theorem SameAlternatives.refl (node : ChainNode Id Txs) : SameAlternatives node node := ⟨rfl, rfl⟩

omit [DecidableEq Id] in
theorem SameAlternatives.trans {last : ChainNode Id Txs} (later : SameAlternatives next last)
    (earlier : SameAlternatives node next) : SameAlternatives node last :=
  ⟨later.chains.trans earlier.chains, later.erased.trans earlier.erased⟩

theorem mem_doEraseAltblock {id other : Id} :
    other ∈ (node.doEraseAltblock id).alternativeChains ↔
      other ≠ id ∧ other ∈ node.alternativeChains :=
  Finmap.mem_erase

omit [DecidableEq Id] in
theorem popBlockFromBlockchain_eq_some {bwt : BlockWithTxs Id Txs}
    (popped : node.popBlockFromBlockchain v = some (bwt, next)) :
    node.dbBlocks = next.dbBlocks ++ [bwt.b] ∧ next.dbBlocks ≠ [] ∧ SameAlternatives node next := by
  unfold popBlockFromBlockchain at popped
  split at popped
  · cases popped
  · rename_i notOnlyGenesis
    cases top : node.dbBlocks.getLast? with
    | none => simp [top] at popped
    | some b =>
        simp only [top, Option.map_eq_some_iff, Prod.mk.injEq] at popped
        obtain ⟨txs, -, rfl, rfl⟩ := popped
        refine ⟨(List.dropLast_append_getLast? b top).symm, ?_, rfl, rfl⟩
        intro onlyOne
        have length := congrArg List.length onlyOne
        simp only [tick_dbBlocks, List.length_dropLast, List.length_nil] at length
        omega

theorem handleBlockToMainChain_true {b : ChainBlock Id} {txs : Txs}
    (connected : node.handleBlockToMainChain v b txs = (true, next)) :
    next.dbBlocks = node.dbBlocks ++ [b] ∧ SameAlternatives node next ∧
      (SoundChain node.dbBlocks → SoundChain next.dbBlocks) := by
  unfold handleBlockToMainChain at connected
  split at connected
  · rename_i fits
    cases connected
    exact ⟨rfl, ⟨rfl, rfl⟩, fun sound => sound.append fits.1 fits.2.1⟩
  · split at connected <;> cases connected

theorem handleBlockToMainChain_false {b : ChainBlock Id} {txs : Txs}
    (refused : node.handleBlockToMainChain v b txs = (false, next)) :
    next.dbBlocks = node.dbBlocks ∧ SameAlternatives node next := by
  unfold handleBlockToMainChain at refused
  split at refused
  · cases refused
  · split at refused <;> cases refused
    · exact ⟨by simp, by simp, by simp [tick]⟩
    · exact ⟨rfl, rfl, rfl⟩

theorem foldl_doEraseAltblock_dbBlocks (ids : List Id) :
    (ids.foldl doEraseAltblock node).dbBlocks = node.dbBlocks := by
  induction ids generalizing node with
  | nil => rfl
  | cons id ids inductionHypothesis => exact inductionHypothesis

theorem mem_of_mem_foldl_doEraseAltblock {ids : List Id} {id : Id}
    (inside : id ∈ (ids.foldl doEraseAltblock node).alternativeChains) :
    id ∈ node.alternativeChains := by
  induction ids generalizing node with
  | nil => exact inside
  | cons gone ids inductionHypothesis =>
      exact (mem_doEraseAltblock.mp (inductionHypothesis inside)).2

theorem pruneAgedAltBlocks_dbBlocks : (node.pruneAgedAltBlocks v).dbBlocks = node.dbBlocks := by
  rw [pruneAgedAltBlocks, foldl_doEraseAltblock_dbBlocks, foldl_doEraseAltblock_dbBlocks]

theorem mem_of_mem_pruneAgedAltBlocks {id : Id}
    (inside : id ∈ (node.pruneAgedAltBlocks v).alternativeChains) : id ∈ node.alternativeChains :=
  mem_of_mem_foldl_doEraseAltblock (mem_of_mem_foldl_doEraseAltblock inside)

theorem childHeight_ne_none {prevId : Id}
    (known : prevId ∈ node.alternativeChains ∨ prevId ∈ node.dbBlocks.map (·.id)) :
    node.childHeight prevId ≠ none := by
  unfold childHeight
  split
  · simp
  · rename_i notAlternative
    obtain inside | inside := known
    · exact absurd inside (Finmap.lookup_eq_none.mp notAlternative)
    · simp [inside]

theorem handleAlternativeBlock_frame {b : ChainBlock Id} {txs : Txs} {ok : Bool}
    (handled : node.handleAlternativeBlock v b txs = (ok, next)) :
    next.dbBlocks = node.dbBlocks ∧
      ∀ id ∈ next.alternativeChains, id = b.id ∨ id ∈ node.alternativeChains := by
  unfold handleAlternativeBlock at handled
  split at handled
  · cases handled
    exact ⟨rfl, fun id inside => Or.inr inside⟩
  · split at handled
    · cases handled
      exact ⟨rfl, fun id inside => Or.inr inside⟩
    · split at handled
      · cases handled
        exact ⟨rfl, fun id inside => Or.inr inside⟩
      · simp only at handled
        split at handled
        · cases handled
          exact ⟨rfl, fun id inside => Finmap.mem_insert.mp inside⟩
        · split at handled
          · cases handled
            exact ⟨pruneAgedAltBlocks_dbBlocks, fun id inside =>
              Finmap.mem_insert.mp (mem_of_mem_pruneAgedAltBlocks inside)⟩
          · cases handled
            exact ⟨rfl, fun id inside => Finmap.mem_insert.mp inside⟩

theorem card_keys_insert (chains : Finmap fun _ : Id => AltBlockEntry Id Txs) {id : Id}
    (entry : AltBlockEntry Id Txs) (fresh : id ∉ chains) :
    (chains.insert id entry).keys.card = chains.keys.card + 1 := by
  have keys : (chains.insert id entry).keys = insert id chains.keys := by
    ext other
    simp [Finmap.mem_keys, Finmap.mem_insert]
  rw [keys, Finset.card_insert_of_notMem (by simpa [Finmap.mem_keys] using fresh)]

/-- With room in the container nothing is pruned. -/
theorem handleAlternativeBlock_room {b : ChainBlock Id} {txs : Txs} {ok : Bool}
    (handled : node.handleAlternativeBlock v b txs = (ok, next))
    (room : node.alternativeChains.keys.card + 1 ≤ v.maxAltBlocks) :
    next.erased = node.erased ∧
      next.alternativeChains.keys.card ≤ node.alternativeChains.keys.card + 1 := by
  unfold handleAlternativeBlock at handled
  split at handled
  · cases handled
    exact ⟨rfl, Nat.le_succ _⟩
  · split at handled
    · cases handled
      exact ⟨rfl, Nat.le_succ _⟩
    · split at handled
      · cases handled
        exact ⟨rfl, Nat.le_succ _⟩
      · rename_i accepted
        simp only at handled
        have fresh : b.id ∉ node.alternativeChains :=
          fun inside => accepted (Or.inr (Or.inr inside))
        have grown := card_keys_insert node.alternativeChains
          ⟨⟨b, v.completes node b txs⟩, v.coreTime node⟩ fresh
        split at handled
        · cases handled
          exact ⟨rfl, grown.le⟩
        · split at handled
          · omega
          · cases handled
            exact ⟨rfl, grown.le⟩

/-- With room in the container and a known parent, a block that is not refused
really is inserted. -/
theorem handleAlternativeBlock_inserts {b : ChainBlock Id} {txs : Txs}
    (handled : node.handleAlternativeBlock v b txs = (true, next))
    (known : b.prevId ∈ node.alternativeChains ∨ b.prevId ∈ node.dbBlocks.map (·.id))
    (room : node.alternativeChains.keys.card + 1 ≤ v.maxAltBlocks) :
    b.id ∉ node.alternativeChains ∧
      ∀ id, id ∈ next.alternativeChains ↔ id = b.id ∨ id ∈ node.alternativeChains := by
  have parent := childHeight_ne_none known
  unfold handleAlternativeBlock at handled
  split at handled
  · cases handled
  · split at handled
    · contradiction
    · split at handled
      · cases handled
      · rename_i accepted
        simp only at handled
        have fresh : b.id ∉ node.alternativeChains :=
          fun inside => accepted (Or.inr (Or.inr inside))
        have grown := card_keys_insert node.alternativeChains
          ⟨⟨b, v.completes node b txs⟩, v.coreTime node⟩ fresh
        split at handled
        · cases handled
        · split at handled
          · omega
          · cases handled
            exact ⟨fresh, fun id => Finmap.mem_insert⟩

/-- An iterator to an entry that is still there is good. -/
theorem eraseHeld_eq_some {id : Id} :
    node.eraseHeld id = some next ↔ id ∉ node.erased ∧ node.doEraseAltblock id = next := by
  unfold eraseHeld
  split <;> simp_all

end OneBlock

/-! ## The loops -/

section Loops

variable {node final : ChainNode Id Txs}

omit [DecidableEq Id] in
theorem disconnect_spec {count : Nat} {ok : Bool} {blocks : List (BlockWithTxs Id Txs)}
    (disconnected : disconnect v count node = (ok, blocks, final)) :
    SameAlternatives node final ∧
      node.dbBlocks = final.dbBlocks ++ blocks.map (·.b) ∧
      (ok = true → blocks.length = count ∧ (count ≠ 0 → final.dbBlocks ≠ [])) := by
  induction count generalizing node ok blocks final with
  | zero =>
      cases disconnected
      exact ⟨.refl _, by simp, fun _ => ⟨rfl, fun absurdity => absurd rfl absurdity⟩⟩
  | succ count inductionHypothesis =>
      unfold disconnect at disconnected
      split at disconnected
      · cases disconnected
        exact ⟨.refl _, by simp, fun impossible => by cases impossible⟩
      · rename_i bwt popped isPopped
        obtain ⟨blocksEq, notEmpty, alternatives⟩ := popBlockFromBlockchain_eq_some isPopped
        generalize lowerEq : disconnect v count popped = lower at disconnected
        obtain ⟨lowerOk, lowerBlocks, lowest⟩ := lower
        cases disconnected
        obtain ⟨lowerAlternatives, lowerDb, lowerLength⟩ := inductionHypothesis lowerEq
        refine ⟨lowerAlternatives.trans alternatives, ?_, ?_⟩
        · rw [blocksEq, lowerDb]
          simp
        · intro succeeded
          obtain ⟨length, nonempty⟩ := lowerLength succeeded
          refine ⟨by simp [length], fun _ => ?_⟩
          by_cases last : count = 0
          · have noBlocks : lowerBlocks = [] := List.length_eq_zero_iff.mp (by omega)
            rw [noBlocks] at lowerDb
            simpa [lowerDb] using notEmpty
          · exact nonempty last

/-- The loop connects some blocks and stops before the first one that is refused. -/
theorem connectAll_spec {blocks remaining : List (BlockWithTxs Id Txs)}
    (ran : connectAll v blocks node = (remaining, final)) :
    SameAlternatives node final ∧
      (SoundChain node.dbBlocks → SoundChain final.dbBlocks) ∧
      ∃ done, blocks = done ++ remaining ∧ final.dbBlocks = node.dbBlocks ++ done.map (·.b) := by
  induction blocks generalizing node with
  | nil =>
      cases ran
      exact ⟨.refl _, id, [], by simp⟩
  | cons bwt rest inductionHypothesis =>
      unfold connectAll at ran
      split at ran
      · rename_i next connected
        obtain ⟨db, alternatives, keepsSound⟩ := handleBlockToMainChain_true connected
        obtain ⟨laterAlternatives, laterSound, done, blocksEq, laterDb⟩ := inductionHypothesis ran
        refine ⟨laterAlternatives.trans alternatives, laterSound ∘ keepsSound, bwt :: done, ?_, ?_⟩
        · rw [blocksEq]
          rfl
        · rw [laterDb, db]
          simp
      · rename_i next refused
        cases ran
        obtain ⟨db, alternatives⟩ := handleBlockToMainChain_false refused
        exact ⟨alternatives, fun sound => db ▸ sound, [], by simp [db]⟩

/-- A rollback that reports success leaves the given blocks on top of the common part; one that does
not leaves a piece of the chain it was removing or of the one it was restoring. -/
theorem rollbackBlockchainSwitching_spec {original : List (BlockWithTxs Id Txs)}
    {common failed : List (ChainBlock Id)} {ok : Bool} (start : node.dbBlocks = common ++ failed)
    (ran : node.rollbackBlockchainSwitching v original common.length = (ok, final)) :
    SameAlternatives node final ∧
      (SoundChain node.dbBlocks → SoundChain final.dbBlocks) ∧
      (ok = true → final.dbBlocks = common ++ original.map (·.b)) ∧
      (final.dbBlocks <+: common ++ failed ∨ final.dbBlocks <+: common ++ original.map (·.b)) := by
  unfold rollbackBlockchainSwitching at ran
  split at ran
  · rename_i blocks popped isPopped
    cases ran
    obtain ⟨alternatives, db, -⟩ := disconnect_spec isPopped
    have shorter : final.dbBlocks <+: common ++ failed := ⟨blocks.map (·.b), db ▸ start⟩
    refine ⟨alternatives, fun sound => sound.of_prefix (start ▸ shorter), ?_, Or.inl shorter⟩
    intro impossible
    cases impossible
  · rename_i blocks popped isPopped
    obtain ⟨alternatives, db, succeeded⟩ := disconnect_spec isPopped
    have atCommon : popped.dbBlocks = common := by
      have lengths := (succeeded rfl).1
      have together : common ++ failed = popped.dbBlocks ++ blocks.map (·.b) := start ▸ db
      have total := congrArg List.length together
      rw [start] at lengths
      simp only [List.length_append, List.length_map] at lengths total
      exact (List.append_inj_left together (by omega)).symm
    split at ran
    · rename_i connected isConnected
      cases ran
      obtain ⟨connectedAlternatives, keepsSound, done, originalEq, connectedDb⟩ :=
        connectAll_spec isConnected
      rw [List.append_nil] at originalEq
      subst originalEq
      rw [atCommon] at connectedDb
      refine ⟨connectedAlternatives.trans alternatives, fun sound => ?_, fun _ => connectedDb,
        Or.inr (connectedDb ▸ List.prefix_rfl)⟩
      exact keepsSound (sound.of_prefix ⟨_, db.symm⟩)
    · rename_i connected isConnected
      cases ran
      obtain ⟨connectedAlternatives, keepsSound, done, originalEq, connectedDb⟩ :=
        connectAll_spec isConnected
      rw [atCommon] at connectedDb
      refine ⟨connectedAlternatives.trans alternatives, fun sound => ?_, fun impossible => ?_,
        Or.inr ?_⟩
      · exact keepsSound (sound.of_prefix ⟨_, db.symm⟩)
      · cases impossible
      · rw [connectedDb, originalEq, List.map_append]
        exact (List.prefix_append_right_inj common).mpr (List.prefix_append _ _)

theorem pushOldChain_frame {old left : List (BlockWithTxs Id Txs)} {ok : Bool}
    (pushed : pushOldChain v old node = (ok, left, final)) :
    final.dbBlocks = node.dbBlocks ∧ left.map (·.b) = old.map (·.b) ∧
      ∀ id ∈ final.alternativeChains, id ∈ old.map (·.b.id) ∨ id ∈ node.alternativeChains := by
  induction old generalizing node ok left final with
  | nil =>
      cases pushed
      exact ⟨rfl, rfl, fun id inside => Or.inr inside⟩
  | cons bwt rest inductionHypothesis =>
      unfold pushOldChain at pushed
      split at pushed
      · rename_i next refused
        cases pushed
        obtain ⟨db, alternatives⟩ := handleAlternativeBlock_frame refused
        refine ⟨db, rfl, fun id inside => ?_⟩
        obtain rfl | older := alternatives id inside
        · exact Or.inl (by simp)
        · exact Or.inr older
      · rename_i next handled
        generalize laterEq : pushOldChain v rest next = later at pushed
        obtain ⟨laterOk, laterLeft, last⟩ := later
        cases pushed
        obtain ⟨db, alternatives⟩ := handleAlternativeBlock_frame handled
        obtain ⟨laterDb, sameBlocks, laterAlternatives⟩ := inductionHypothesis laterEq
        refine ⟨laterDb.trans db, by simp [sameBlocks], fun id inside => ?_⟩
        obtain among | earlier := laterAlternatives id inside
        · exact Or.inl (List.mem_cons_of_mem _ among)
        · obtain rfl | older := alternatives id earlier
          · exact Or.inl (by simp)
          · exact Or.inr older

/-- With room for all of them, pushing ex-main blocks leaves every iterator good. -/
theorem pushOldChain_erased {old left : List (BlockWithTxs Id Txs)} {ok : Bool}
    (pushed : pushOldChain v old node = (ok, left, final))
    (room : node.alternativeChains.keys.card + old.length ≤ v.maxAltBlocks) :
    final.erased = node.erased := by
  induction old generalizing node ok left final with
  | nil =>
      cases pushed
      rfl
  | cons bwt rest inductionHypothesis =>
      unfold pushOldChain at pushed
      rw [List.length_cons] at room
      split at pushed
      · rename_i next refused
        cases pushed
        exact (handleAlternativeBlock_room refused (by omega)).1
      · rename_i next handled
        generalize laterEq : pushOldChain v rest next = later at pushed
        obtain ⟨laterOk, laterLeft, last⟩ := later
        cases pushed
        obtain ⟨sameErased, grown⟩ := handleAlternativeBlock_room handled (by omega)
        exact (inductionHypothesis laterEq (by omega)).trans sameErased

/-- With room for all of them, ex-main blocks whose parents are known are all kept as
alternatives. -/
theorem pushOldChain_inserts {old left : List (BlockWithTxs Id Txs)} {parent : ChainBlock Id}
    (pushed : pushOldChain v old node = (true, left, final))
    (linked : (parent :: old.map (·.b)).IsChain fun below above => above.prevId = below.id)
    (known : parent.id ∈ node.alternativeChains ∨ parent.id ∈ node.dbBlocks.map (·.id))
    (room : node.alternativeChains.keys.card + old.length ≤ v.maxAltBlocks) :
    (∀ id ∈ node.alternativeChains, id ∈ final.alternativeChains ∧ id ∉ old.map (·.b.id)) ∧
      ∀ bwt ∈ old, bwt.b.id ∈ final.alternativeChains := by
  induction old generalizing node left final parent with
  | nil =>
      cases pushed
      exact ⟨fun id inside => ⟨inside, by simp⟩, by simp⟩
  | cons bwt rest inductionHypothesis =>
      unfold pushOldChain at pushed
      split at pushed
      · cases pushed
      · rename_i next handled
        generalize laterEq : pushOldChain v rest next = later at pushed
        obtain ⟨laterOk, laterLeft, last⟩ := later
        cases pushed
        rw [List.map_cons, List.isChain_cons_cons] at linked
        rw [List.length_cons] at room
        obtain ⟨-, grown⟩ := handleAlternativeBlock_room handled (by omega)
        obtain ⟨fresh, inserted⟩ :=
          handleAlternativeBlock_inserts handled (linked.1 ▸ known) (by omega)
        obtain ⟨keeps, holds⟩ := inductionHypothesis laterEq linked.2
          (Or.inl ((inserted _).mpr (Or.inl rfl))) (by omega)
        refine ⟨fun id inside => ?_, fun block among => ?_⟩
        · obtain ⟨stays, notLater⟩ := keeps id ((inserted id).mpr (Or.inr inside))
          refine ⟨stays, ?_⟩
          rw [List.map_cons, List.mem_cons]
          intro same
          obtain rfl | later := same
          · exact fresh inside
          · exact notLater later
        · obtain rfl | later := List.mem_cons.mp among
          · exact (keeps _ ((inserted _).mpr (Or.inl rfl))).1
          · exact holds block later

theorem eraseChain_spec {blocks : List (BlockWithTxs Id Txs)}
    (erased : node.eraseChain blocks = some final) :
    final.dbBlocks = node.dbBlocks ∧
      ∀ id, id ∈ final.alternativeChains ↔
        id ∉ blocks.map (·.b.id) ∧ id ∈ node.alternativeChains := by
  induction blocks generalizing node with
  | nil =>
      cases erased
      simp
  | cons bwt rest inductionHypothesis =>
      rw [eraseChain, List.foldlM_cons] at erased
      obtain ⟨next, first, later⟩ := Option.bind_eq_some_iff.mp erased
      obtain ⟨-, rfl⟩ := eraseHeld_eq_some.mp first
      obtain ⟨db, alternatives⟩ := inductionHypothesis later
      refine ⟨db, fun id => ?_⟩
      rw [alternatives, mem_doEraseAltblock, List.map_cons, List.mem_cons]
      tauto

theorem invalidateChain_spec {failed : List (BlockWithTxs Id Txs)}
    (invalidated : node.invalidateChain failed = some final) :
    final.dbBlocks = node.dbBlocks ∧
      ∀ id ∈ final.alternativeChains, id ∈ node.alternativeChains := by
  induction failed generalizing node with
  | nil =>
      cases invalidated
      exact ⟨rfl, fun _ inside => inside⟩
  | cons bwt rest inductionHypothesis =>
      rw [invalidateChain, List.foldlM_cons] at invalidated
      obtain ⟨next, first, later⟩ := Option.bind_eq_some_iff.mp invalidated
      obtain ⟨-, rfl⟩ := eraseHeld_eq_some.mp first
      obtain ⟨db, alternatives⟩ := inductionHypothesis later
      refine ⟨by simpa using db, fun id inside => ?_⟩
      simpa using (mem_doEraseAltblock.mp (alternatives id inside)).2

/-- Distinct entries that are all still there can be erased one after the other; `prepare` is what
happens to the node before each of them. -/
theorem foldlM_eraseHeld_isSome (prepare : ChainNode Id Txs → Id → ChainNode Id Txs)
    (keeps : ∀ node id, (prepare node id).erased = node.erased)
    {blocks : List (BlockWithTxs Id Txs)} (distinct : (blocks.map (·.b.id)).Nodup)
    (there : ∀ bwt ∈ blocks, bwt.b.id ∉ node.erased) :
    (blocks.foldlM (fun node bwt => (prepare node bwt.b.id).eraseHeld bwt.b.id) node).isSome := by
  induction blocks generalizing node with
  | nil => rfl
  | cons bwt rest inductionHypothesis =>
      rw [List.map_cons, List.nodup_cons] at distinct
      have first : (prepare node bwt.b.id).eraseHeld bwt.b.id =
          some ((prepare node bwt.b.id).doEraseAltblock bwt.b.id) :=
        eraseHeld_eq_some.mpr ⟨by rw [keeps]; exact there bwt (by simp), rfl⟩
      rw [List.foldlM_cons, first]
      refine inductionHypothesis distinct.2 fun other among => ?_
      have notSame : other.b.id ≠ bwt.b.id := fun same =>
        distinct.1 (same ▸ List.mem_map_of_mem (f := fun bwt => bwt.b.id) among)
      simpa [doEraseAltblock, keeps, notSame] using there other (List.mem_cons_of_mem _ among)

end Loops

/-! ## The switch -/

/-- The height at which a switch to this chain splits the main chain. -/
def splitHeight : List (BlockWithTxs Id Txs) → Nat
  | [] => 0
  | first :: _ => first.b.height

/-- What a switch means for the two containers. `exMainKept` needs room because the flood protection
prunes aged alternative blocks. -/
structure SwitchOutcome (v : Verdicts Id Txs) (altChain : List (BlockWithTxs Id Txs))
    (before : ChainNode Id Txs) (result : Bool) (log : SwitchLog) (after : ChainNode Id Txs) :
      Prop where
  failed : result = false → log.disconnected = true → log.rollback ≠ some false →
    after.dbBlocks = before.dbBlocks
  switched : result = true → log.exMainRefused = false →
    after.dbBlocks = before.dbBlocks.take (splitHeight altChain) ++ altChain.map (·.b)
  pretended : result = true → log.exMainRefused = true → log.rollback ≠ some false →
    after.dbBlocks = before.dbBlocks
  erased : result = true → ∀ bwt ∈ altChain, bwt.b.id ∉ after.alternativeChains
  apart : log.disconnected = true → log.rollback ≠ some false → log.exMainRefused = false →
    ∀ id ∈ after.dbBlocks.map (·.id), id ∈ after.alternativeChains →
      id ∈ before.dbBlocks.map (·.id) ∧ id ∈ before.alternativeChains
  exMainKept : result = true → log.exMainRefused = false →
    before.alternativeChains.keys.card + (before.dbBlocks.length - splitHeight altChain) ≤
      v.maxAltBlocks →
    ∀ b ∈ before.dbBlocks.drop (splitHeight altChain), b.id ∈ after.alternativeChains
  sound : SoundChain after.dbBlocks

/-- The node between the first loop and the second: the old blocks are off, nothing
else has changed. -/
structure Disconnected (node popped : ChainNode Id Txs)
    (old : List (BlockWithTxs Id Txs)) : Prop where
  whole : node.dbBlocks = popped.dbBlocks ++ old.map (·.b)
  nonempty : old ≠ [] → popped.dbBlocks ≠ []
  alternatives : popped.alternativeChains = node.alternativeChains
  erased : popped.erased = []

/-- The ways through a switch, each with its result. -/
inductive SwitchRun (v : Verdicts Id Txs) (node : ChainNode Id Txs) :
    List (BlockWithTxs Id Txs) → Option (Bool × SwitchLog × ChainNode Id Txs) → Prop
  | empty : SwitchRun v node [] (some (false, ⟨true, false, none⟩, { node with erased := [] }))
  | tooHigh {first rest} :
      SwitchRun v node (first :: rest)
        (some (false, ⟨true, false, none⟩, { node with erased := [] }))
  | notDisconnected {first rest popped} : popped.dbBlocks <+: node.dbBlocks →
      SwitchRun v node (first :: rest) (some (false, ⟨false, false, none⟩, popped))
  | failed {first rest popped old bwt others stuck ok back} :
      Disconnected node popped old →
      connectAll v (first :: rest) popped = (bwt :: others, stuck) →
      stuck.rollbackBlockchainSwitching v old popped.dbBlocks.length = (ok, back) →
      SwitchRun v node (first :: rest)
        ((back.invalidateChain (bwt :: others)).map (false, ⟨true, false, some ok⟩, ·))
  | switched {first rest popped old connected left pushed} :
      Disconnected node popped old → popped.dbBlocks.length = first.b.height →
      connectAll v (first :: rest) popped = ([], connected) →
      pushOldChain v old connected = (true, left, pushed) →
      SwitchRun v node (first :: rest)
        ((pushed.eraseChain (first :: rest)).map (true, ⟨true, false, none⟩, ·))
  | pretended {first rest popped old connected left refused ok back} :
      Disconnected node popped old → popped.dbBlocks.length = first.b.height →
      connectAll v (first :: rest) popped = ([], connected) →
      pushOldChain v old connected = (false, left, refused) →
      refused.rollbackBlockchainSwitching v left popped.dbBlocks.length = (ok, back) →
      SwitchRun v node (first :: rest)
        ((back.eraseChain (first :: rest)).map (true, ⟨true, true, some ok⟩, ·))

section Switch

variable {node popped connected back final : ChainNode Id Txs} {old : List (BlockWithTxs Id Txs)}
  {first : BlockWithTxs Id Txs} {rest : List (BlockWithTxs Id Txs)}

omit [DecidableEq Id] in
theorem Disconnected.sound (opened : Disconnected node popped old)
    (sound : SoundChain node.dbBlocks) :
    SoundChain popped.dbBlocks := sound.of_prefix ⟨_, opened.whole.symm⟩

omit [DecidableEq Id] in
theorem Disconnected.take (opened : Disconnected node popped old) :
    node.dbBlocks.take popped.dbBlocks.length = popped.dbBlocks := by
  rw [opened.whole, List.take_left]

omit [DecidableEq Id] in
theorem Disconnected.drop (opened : Disconnected node popped old) :
    node.dbBlocks.drop popped.dbBlocks.length = old.map (·.b) := by
  rw [opened.whole, List.drop_left]

omit [DecidableEq Id] in
/-- The first disconnected block has its parent on top of what is left. -/
theorem Disconnected.parent (opened : Disconnected node popped old)
    (sound : SoundChain node.dbBlocks) (someOld : old ≠ []) : ∃ parent ∈ popped.dbBlocks,
      (parent :: old.map (·.b)).IsChain fun below above => above.prevId = below.id := by
  have isTop := List.getLast?_eq_some_getLast (opened.nonempty someOld)
  have whole := sound.linked
  rw [opened.whole, List.isChain_append] at whole
  exact ⟨_, List.mem_of_getLast? isTop,
    whole.2.1.cons fun next isNext => whole.2.2 _ isTop next isNext⟩

omit [DecidableEq Id] in
theorem Disconnected.count (opened : Disconnected node popped old) :
    old.length = node.dbBlocks.length - popped.dbBlocks.length := by
  have total := congrArg List.length opened.whole
  rw [List.length_append, List.length_map] at total
  omega

theorem failed_outcome {stuck : ChainNode Id Txs} {bwt : BlockWithTxs Id Txs}
    {others : List (BlockWithTxs Id Txs)} {ok : Bool} (sound : SoundChain node.dbBlocks)
    (opened : Disconnected node popped old)
    (isStuck : connectAll v (first :: rest) popped = (bwt :: others, stuck))
    (rolledBack : stuck.rollbackBlockchainSwitching v old popped.dbBlocks.length = (ok, back))
    (invalidated : back.invalidateChain (bwt :: others) = some final) :
    SwitchOutcome v (first :: rest) node false ⟨true, false, some ok⟩ final := by
  obtain ⟨stuckSame, stuckSound, done, -, stuckDb⟩ := connectAll_spec isStuck
  obtain ⟨same, keepsSound, restored, -⟩ := rollbackBlockchainSwitching_spec stuckDb rolledBack
  obtain ⟨sameDb, fewer⟩ := invalidateChain_spec invalidated
  refine ⟨fun _ _ noPanic => ?_, by simp, by simp, by simp, fun _ noPanic _ => ?_, by simp, ?_⟩
  · have isOk : ok = true := by simpa using noPanic
    rw [sameDb, restored isOk, opened.whole]
  · have isOk : ok = true := by simpa using noPanic
    intro id inside among
    rw [sameDb, restored isOk, ← opened.whole] at inside
    have earlier := fewer id among
    rw [same.chains, stuckSame.chains, opened.alternatives] at earlier
    exact ⟨inside, earlier⟩
  · rw [sameDb]
    exact keepsSound (stuckSound (opened.sound sound))

theorem switched_outcome {pushed : ChainNode Id Txs} {left : List (BlockWithTxs Id Txs)}
    (sound : SoundChain node.dbBlocks)
    (fromContainer : ∀ bwt ∈ first :: rest, bwt.b.id ∈ node.alternativeChains)
    (opened : Disconnected node popped old) (atSplit : popped.dbBlocks.length = first.b.height)
    (isConnected : connectAll v (first :: rest) popped = ([], connected))
    (isPushed : pushOldChain v old connected = (true, left, pushed))
    (isErased : pushed.eraseChain (first :: rest) = some final) :
    SwitchOutcome v (first :: rest) node true ⟨true, false, none⟩ final := by
  obtain ⟨connectedSame, connectedSound, done, doneEq, connectedDb⟩ := connectAll_spec isConnected
  rw [List.append_nil] at doneEq
  subst doneEq
  obtain ⟨pushedDb, -, pushedAlternatives⟩ := pushOldChain_frame isPushed
  obtain ⟨erasedDb, erasedAlternatives⟩ := eraseChain_spec isErased
  have alternatives := connectedSame.chains.trans opened.alternatives
  refine ⟨by simp, fun _ _ => ?_, by simp, fun _ bwt among => ?_, fun _ _ _ => ?_,
    fun _ _ room => ?_, ?_⟩
  · rw [erasedDb, pushedDb, connectedDb, splitHeight, ← atSplit, opened.take]
  · rw [erasedAlternatives]
    exact fun outside => outside.1 (List.mem_map_of_mem among)
  · intro id inside among
    obtain ⟨notSwitched, stillThere⟩ := (erasedAlternatives id).mp among
    rw [erasedDb, pushedDb, connectedDb, List.map_append, List.mem_append] at inside
    obtain inCommon | isNew := inside
    · refine ⟨?_, ?_⟩
      · rw [opened.whole, List.map_append]
        exact List.mem_append_left _ inCommon
      · obtain exMain | older := pushedAlternatives id stillThere
        · obtain ⟨bwt, isOld, rfl⟩ := List.mem_map.mp exMain
          have isAbove : bwt.b ∈ node.dbBlocks.drop popped.dbBlocks.length :=
            opened.drop ▸ List.mem_map_of_mem isOld
          exact absurd (opened.take.symm ▸ inCommon) (sound.notMem_take isAbove)
        · exact alternatives ▸ older
    · rw [List.map_map] at isNew
      exact absurd isNew notSwitched
  · intro b isAbove
    rw [splitHeight, ← atSplit, opened.drop] at isAbove
    obtain ⟨bwt, isOld, rfl⟩ := List.mem_map.mp isAbove
    obtain ⟨parent, inside, linked⟩ := opened.parent sound (List.ne_nil_of_mem isOld)
    obtain ⟨keeps, holds⟩ := pushOldChain_inserts isPushed linked
      (Or.inr (connectedDb ▸ List.mem_map_of_mem (List.mem_append_left _ inside)))
      (by rw [alternatives, opened.count, atSplit]; exact room)
    rw [erasedAlternatives]
    refine ⟨?_, holds bwt isOld⟩
    intro switched
    obtain ⟨alternative, among, same⟩ := List.mem_map.mp switched
    have listed : bwt.b.id ∈ connected.alternativeChains :=
      alternatives ▸ same ▸ fromContainer alternative among
    exact (keeps _ listed).2 (List.mem_map_of_mem isOld)
  · rw [erasedDb, pushedDb]
    exact connectedSound (opened.sound sound)

theorem pretended_outcome {refused : ChainNode Id Txs} {left : List (BlockWithTxs Id Txs)}
    {ok : Bool} (sound : SoundChain node.dbBlocks) (opened : Disconnected node popped old)
    (isConnected : connectAll v (first :: rest) popped = ([], connected))
    (isRefused : pushOldChain v old connected = (false, left, refused))
    (rolledBack : refused.rollbackBlockchainSwitching v left popped.dbBlocks.length = (ok, back))
    (isErased : back.eraseChain (first :: rest) = some final) :
    SwitchOutcome v (first :: rest) node true ⟨true, true, some ok⟩ final := by
  obtain ⟨-, connectedSound, done, -, connectedDb⟩ := connectAll_spec isConnected
  obtain ⟨refusedDb, sameBlocks, -⟩ := pushOldChain_frame isRefused
  obtain ⟨-, keepsSound, restored, -⟩ :=
    rollbackBlockchainSwitching_spec (refusedDb.trans connectedDb) rolledBack
  obtain ⟨erasedDb, erasedAlternatives⟩ := eraseChain_spec isErased
  refine ⟨by simp, by simp, fun _ _ noPanic => ?_, fun _ bwt among => ?_, by simp, by simp, ?_⟩
  · have isOk : ok = true := by simpa using noPanic
    rw [erasedDb, restored isOk, sameBlocks, opened.whole]
  · rw [erasedAlternatives]
    exact fun outside => outside.1 (List.mem_map_of_mem among)
  · rw [erasedDb]
    exact keepsSound (refusedDb ▸ connectedSound (opened.sound sound))

theorem switchRun (v : Verdicts Id Txs) (altChain : List (BlockWithTxs Id Txs))
    (node : ChainNode Id Txs) :
    SwitchRun v node altChain (switchToAlternativeBlockchain v altChain node) := by
  unfold switchToAlternativeBlockchain
  cases altChain with
  | nil => exact .empty
  | cons first rest =>
      simp only
      split
      · exact .tooHigh
      · split
        · rename_i popped isPopped
          obtain ⟨-, whole, -⟩ := disconnect_spec isPopped
          exact .notDisconnected ⟨_, whole.symm⟩
        · rename_i old popped isPopped
          obtain ⟨same, whole, succeeded⟩ := disconnect_spec isPopped
          obtain ⟨count, nonempty⟩ := succeeded rfl
          have opened : Disconnected node popped old := by
            refine ⟨whole, fun someOld => nonempty ?_, same.chains, same.erased⟩
            rw [← count]
            exact fun empty => someOld (List.length_eq_zero_iff.mp empty)
          have atSplit : popped.dbBlocks.length = first.b.height := by
            have total := congrArg List.length opened.whole
            rw [List.length_append, List.length_map] at total
            omega
          rw [← atSplit]
          split
          · rename_i bwt others stuck isStuck
            exact .failed opened isStuck rfl
          · rename_i connected isConnected
            split
            · rename_i left pushed isPushed
              exact .switched opened atSplit isConnected isPushed
            · rename_i left refused isRefused
              exact .pretended opened atSplit isConnected isRefused rfl

theorem SwitchRun.isSome {altChain : List (BlockWithTxs Id Txs)}
    {outcome : Option (Bool × SwitchLog × ChainNode Id Txs)}
    (run : SwitchRun v node altChain outcome) (distinct : (altChain.map (·.b.id)).Nodup)
    (room : node.alternativeChains.keys.card + (node.dbBlocks.length - splitHeight altChain) ≤
      v.maxAltBlocks) : outcome.isSome := by
  cases run with
  | empty | tooHigh | notDisconnected => rfl
  | failed opened isStuck rolledBack =>
      obtain ⟨stuckSame, -, done, wholeEq, stuckDb⟩ := connectAll_spec isStuck
      obtain ⟨same, -⟩ := rollbackBlockchainSwitching_spec stuckDb rolledBack
      have noneErased := same.erased.trans (stuckSame.erased.trans opened.erased)
      rw [wholeEq, List.map_append] at distinct
      rw [Option.isSome_map]
      exact foldlM_eraseHeld_isSome addBlockAsInvalid (fun _ _ => addBlockAsInvalid_erased _)
        (List.nodup_append.mp distinct).2.1 (by simp [noneErased])
  | switched opened atSplit isConnected isPushed =>
      obtain ⟨connectedSame, -⟩ := connectAll_spec isConnected
      have connectedRoom := room
      rw [splitHeight, ← atSplit, ← opened.count, ← opened.alternatives, ← connectedSame.chains]
        at connectedRoom
      have noneErased := (pushOldChain_erased isPushed connectedRoom).trans
        (connectedSame.erased.trans opened.erased)
      rw [Option.isSome_map]
      exact foldlM_eraseHeld_isSome (fun node _ => node) (fun _ _ => rfl) distinct
        (by simp [noneErased])
  | pretended opened atSplit isConnected isRefused rolledBack =>
      obtain ⟨connectedSame, -, done, -, connectedDb⟩ := connectAll_spec isConnected
      obtain ⟨refusedDb, -⟩ := pushOldChain_frame isRefused
      obtain ⟨same, -⟩ := rollbackBlockchainSwitching_spec (refusedDb.trans connectedDb) rolledBack
      have connectedRoom := room
      rw [splitHeight, ← atSplit, ← opened.count, ← opened.alternatives, ← connectedSame.chains]
        at connectedRoom
      have noneErased := same.erased.trans ((pushOldChain_erased isRefused connectedRoom).trans
        (connectedSame.erased.trans opened.erased))
      rw [Option.isSome_map]
      exact foldlM_eraseHeld_isSome (fun node _ => node) (fun _ _ => rfl) distinct
        (by simp [noneErased])

theorem SwitchRun.outcome {altChain : List (BlockWithTxs Id Txs)} {result : Bool} {log : SwitchLog}
    (run : SwitchRun v node altChain (some (result, log, final))) (sound : SoundChain node.dbBlocks)
    (fromContainer : ∀ bwt ∈ altChain, bwt.b.id ∈ node.alternativeChains) :
    SwitchOutcome v altChain node result log final := by
  generalize outcomeEq : some (result, log, final) = outcome at run
  cases run with
  | empty | tooHigh =>
      cases outcomeEq
      exact ⟨fun _ _ _ => rfl, by simp, by simp, by simp,
        fun _ _ _ id inside among => ⟨inside, among⟩, by simp, sound⟩
  | notDisconnected isPrefix =>
      cases outcomeEq
      exact ⟨by simp, by simp, by simp, by simp, by simp, by simp, sound.of_prefix isPrefix⟩
  | failed opened isStuck rolledBack =>
      obtain ⟨last, invalidated, same⟩ := Option.map_eq_some_iff.mp outcomeEq.symm
      cases same
      exact failed_outcome sound opened isStuck rolledBack invalidated
  | switched opened atSplit isConnected isPushed =>
      obtain ⟨last, isErased, same⟩ := Option.map_eq_some_iff.mp outcomeEq.symm
      cases same
      exact switched_outcome sound fromContainer opened atSplit isConnected isPushed isErased
  | pretended opened atSplit isConnected isRefused rolledBack =>
      obtain ⟨last, isErased, same⟩ := Option.map_eq_some_iff.mp outcomeEq.symm
      cases same
      exact pretended_outcome sound opened isConnected isRefused rolledBack isErased

end Switch

/-- What a switch leaves behind, whatever the verdicts are. `fromContainer`: the chain is made of
entries of the container. A switch that has room for the ex-main blocks gets through. -/
theorem switchToAlternativeBlockchain_outcome {altChain : List (BlockWithTxs Id Txs)}
    {node : ChainNode Id Txs} (sound : SoundChain node.dbBlocks)
    (fromContainer : ∀ bwt ∈ altChain, bwt.b.id ∈ node.alternativeChains)
    (distinct : (altChain.map (·.b.id)).Nodup) :
    (node.alternativeChains.keys.card + (node.dbBlocks.length - splitHeight altChain) ≤
      v.maxAltBlocks →
      (switchToAlternativeBlockchain v altChain node).isSome) ∧
    ∀ result log final, switchToAlternativeBlockchain v altChain node = some (result, log, final) →
      SwitchOutcome v altChain node result log final := by
  have run := switchRun v altChain node
  generalize switchToAlternativeBlockchain v altChain node = outcome at run
  constructor
  · intro room
    exact run.isSome distinct room
  · rintro result log final rfl
    exact run.outcome sound fromContainer

/-! ## A refused ex-main block -/

/-- Every block connects; ex-main block 2 is no longer accepted, as after the clock was set back. -/
private def clockSetBack : Verdicts Nat Unit where
  noTransactions := ()
  purges := fun _ _ => some ()
  connects := fun _ _ _ => true
  invalidates := fun _ _ _ => false
  acceptsAlternative := fun _ b _ => b.id != 2
  completes := fun _ _ txs => txs
  demandsReorganize := fun _ _ => false
  underCheckpointZone := fun _ _ => false
  coreTime := fun node => 1700000000 + node.calls
  visits := fun node => node.alternativeChains.keys.sort (· ≤ ·)
  visits_nodup := fun _ => Finset.sort_nodup _ _
  mem_visits := fun _ _ => (Finset.mem_sort _).trans Finmap.mem_keys
  maxAltBlocks := 43200

private def mainBlocks : List (ChainBlock Nat) := [⟨0, 100, 0⟩, ⟨1, 0, 1⟩, ⟨2, 1, 2⟩]

private def longerChain : List (BlockWithTxs Nat Unit) :=
  [⟨⟨11, 0, 1⟩, ()⟩, ⟨⟨12, 11, 2⟩, ()⟩, ⟨⟨13, 12, 3⟩, ()⟩]

private def beforeSwitch : ChainNode Nat Unit where
  dbBlocks := mainBlocks
  alternativeChains :=
    longerChain.foldl (fun container bwt => container.insert bwt.b.id ⟨bwt, 1700000000⟩) ∅
  invalidBlocks := []
  calls := 0
  erased := []

/-- The switch is reported as done, yet the main chain is the old one and none of the
three new blocks is kept anywhere; ex-main block 1 is now on the main chain and an
alternative block at once. -/
theorem pretended_switch :
    ∃ log final, switchToAlternativeBlockchain clockSetBack longerChain beforeSwitch =
        some (true, log, final) ∧
      final.dbBlocks = mainBlocks ∧ (∀ id ∈ [11, 12, 13], id ∉ final.alternativeChains) ∧
      1 ∈ final.dbBlocks.map (·.id) ∧ 1 ∈ final.alternativeChains := by
  refine ⟨_, _, rfl, ?_⟩
  decide

/-- With the clock right the same switch goes through and both ex-main blocks become
alternative blocks. -/
theorem switchToAlternativeBlockchain_outcome_three :
    ∃ final, switchToAlternativeBlockchain
        { clockSetBack with acceptsAlternative := fun _ _ _ => true }
        longerChain beforeSwitch = some (true, ⟨true, false, none⟩, final) ∧
      SwitchOutcome { clockSetBack with acceptsAlternative := fun _ _ _ => true } longerChain
        beforeSwitch
        true ⟨true, false, none⟩ final :=
  ⟨_, rfl, (switchToAlternativeBlockchain_outcome ⟨by decide, by decide⟩ (by decide) (by decide)).2
    _ _ _ rfl⟩

end ChainNode

end Zano.Consensus
