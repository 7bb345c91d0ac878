import Mathlib
import Zano.Sync.ChainHistory

/-! # The common block is found

Two valid chains with the same genesis block, and no two different blocks on them with one hash. A
block of the one chain is then on the other exactly below the split, and at the same height; so the
first id of the history that the other node knows is the one of the highest common block in it.
-/

namespace Zano.Sync

variable {Block Hash : Type*} {hashing : Hashing Block Hash} {a b : List (BlockExtendedInfo Block)}
  {k : Nat}

/-- The blocks follow each other and name their heights. -/
def ValidChain (hashing : Hashing Block Hash) (blocks : List (BlockExtendedInfo Block)) : Prop :=
  HashChain.Chained hashing.getBlockHash hashing.prevId hashing.getBlockHeight (blocks.map (·.bl))

/-- The longest common prefix has length `k`. -/
structure SplitAt (hashing : Hashing Block Hash) (a b : List (BlockExtendedInfo Block))
    (k : Nat) : Prop where
  common : (blockIds hashing a).take k = (blockIds hashing b).take k
  within : k ≤ a.length ∧ k ≤ b.length
  apart : ∀ id id', (blockIds hashing a)[k]? = some id →
    (blockIds hashing b)[k]? = some id' → id ≠ id'

def CollisionFree (hashing : Hashing Block Hash) (blocks : List (BlockExtendedInfo Block)) : Prop :=
  ∀ x ∈ blocks, ∀ y ∈ blocks, hashing.getBlockHash x.bl = hashing.getBlockHash y.bl → x.bl = y.bl

theorem getElem?_blockIds {blocks : List (BlockExtendedInfo Block)} {height : Nat} {id : Hash} :
    (blockIds hashing blocks)[height]? = some id ↔
      ∃ bei, blocks[height]? = some bei ∧ hashing.getBlockHash bei.bl = id := by
  rw [blockIds, List.getElem?_map, Option.map_eq_some_iff]

theorem ValidChain.height_eq {blocks : List (BlockExtendedInfo Block)}
    (valid : ValidChain hashing blocks) {height : Nat} {bei : BlockExtendedInfo Block}
    (isThere : blocks[height]? = some bei) :
    hashing.getBlockHeight bei.bl = height := by
  apply HashChain.Chained.place_eq valid
  rw [List.getElem?_map, isThere]
  rfl

theorem getLast?_take_of_getElem? {blocks : List (BlockExtendedInfo Block)} {h : Nat}
    {bei : BlockExtendedInfo Block} (isThere : blocks[h]? = some bei) :
    ((blocks.map (·.bl)).take (h + 1)).getLast? = some bei.bl := by
  rw [List.getLast?_take, if_neg (by omega), Nat.add_sub_cancel, List.getElem?_map, isThere]
  rfl

/-- A block of both chains has one height, and the chains agree up to it. -/
theorem same_below (validA : ValidChain hashing a) (validB : ValidChain hashing b)
    (collisionFree : CollisionFree hashing (a ++ b)) {h j : Nat} {id : Hash}
    (onA : (blockIds hashing a)[h]? = some id) (onB : (blockIds hashing b)[j]? = some id) :
    h = j ∧ (blockIds hashing a).take (h + 1) = (blockIds hashing b).take (h + 1) := by
  obtain ⟨x, isX, rfl⟩ := getElem?_blockIds.mp onA
  obtain ⟨y, isY, sameHash⟩ := getElem?_blockIds.mp onB
  have same : x.bl = y.bl := by
    apply collisionFree x (List.mem_append_left _ (List.mem_of_getElem? isX)) y
      (List.mem_append_right _ (List.mem_of_getElem? isY))
    exact sameHash.symm
  have heights : h = j := by
    rw [← validA.height_eq isX, ← validB.height_eq isY, same]
  refine ⟨heights, ?_⟩
  subst heights
  have blocks : (a.map (·.bl)).take (h + 1) = (b.map (·.bl)).take (h + 1) := by
    refine HashChain.Chained.eq_of_getLast (HashChain.Chained.take validA _)
      (HashChain.Chained.take validB _) ?_
      (getLast?_take_of_getElem? isX) (getLast?_take_of_getElem? isY) sameHash.symm
    intro u insideA v insideB sameName
    obtain ⟨u', insideU, rfl⟩ := List.mem_map.mp (List.mem_of_mem_take insideA)
    obtain ⟨v', insideV, rfl⟩ := List.mem_map.mp (List.mem_of_mem_take insideB)
    exact collisionFree u' (List.mem_append_left _ insideU) v'
      (List.mem_append_right _ insideV) sameName
  simpa only [blockIds, List.map_take, List.map_map, Function.comp_def] using
    congrArg (List.map hashing.getBlockHash) blocks

theorem SplitAt.below (split : SplitAt hashing a b k) {h : Nat} (low : h < k) :
    ∃ id, (blockIds hashing a)[h]? = some id ∧ (blockIds hashing b)[h]? = some id := by
  have inside : h < (blockIds hashing a).length := by
    rw [blockIds, List.length_map]
    exact Nat.lt_of_lt_of_le low split.within.1
  refine ⟨(blockIds hashing a)[h], List.getElem?_eq_getElem inside, ?_⟩
  have same := congrArg (·[h]?) split.common
  simp only [List.getElem?_take, if_pos low] at same
  rw [← same, List.getElem?_eq_getElem inside]

/-- Above the split the chains have no block in common. -/
theorem SplitAt.above (split : SplitAt hashing a b k) (validA : ValidChain hashing a)
    (validB : ValidChain hashing b) (collisionFree : CollisionFree hashing (a ++ b)) {h j : Nat}
    {id : Hash} (high : k ≤ h) (onA : (blockIds hashing a)[h]? = some id) :
    (blockIds hashing b)[j]? ≠ some id := by
  intro onB
  obtain ⟨rfl, agree⟩ := same_below validA validB collisionFree onA onB
  have insideA := (List.getElem?_eq_some_iff.mp onA).1
  have insideB := (List.getElem?_eq_some_iff.mp onB).1
  have same := congrArg (·[k]?) agree
  simp only [List.getElem?_take, if_pos (Nat.lt_succ_of_le high)] at same
  have onA' := List.getElem?_eq_getElem (show k < (blockIds hashing a).length by omega)
  have onB' := List.getElem?_eq_getElem (show k < (blockIds hashing b).length by omega)
  apply split.apart _ _ onA' onB'
  rw [onA', onB'] at same
  exact Option.some.inj same

/-- `m_db_blocks_index` of a valid chain. -/
theorem idxOf?_eq_some [DecidableEq Hash] (valid : ValidChain hashing b)
    (collisionFree : CollisionFree hashing b) {j : Nat} {id : Hash}
    (isThere : (blockIds hashing b)[j]? = some id) : (blockIds hashing b).idxOf? id = some j := by
  have collisionFree' : CollisionFree hashing (b ++ b) := by
    intro x insideX y insideY
    exact collisionFree x (by simpa using insideX) y (by simpa using insideY)
  cases found : (blockIds hashing b).idxOf? id with
  | none => exact absurd (List.mem_of_getElem? isThere) (List.idxOf?_eq_none_iff.mp found)
  | some i =>
      obtain ⟨inside, same, -⟩ := List.idxOf?_eq_some_iff.mp found
      have isThere' : (blockIds hashing b)[i]? = some id := by
        rw [List.getElem?_eq_getElem inside, same]
      rw [(same_below valid valid collisionFree' isThere isThere').1]

/-- The history in parts: ids that the other node does not know, the one that it
finds, and lower ones. -/
theorem getShortChainHistory_split (validA : ValidChain hashing a) (validB : ValidChain hashing b)
    (collisionFree : CollisionFree hashing (a ++ b)) (split : SplitAt hashing a b k)
    (positive : 1 ≤ k) :
    ∃ start before id after, getShortChainHistory hashing a = before ++ id :: after ∧
      (getShortChainHistory hashing a).getLast? = (blockIds hashing a).head? ∧
      start < k ∧ a.length - 1 - start ≤ 2 * (a.length - k) ∧
        (blockIds hashing b)[start]? = some id ∧
      (∀ other ∈ before, ∀ j : Nat, (blockIds hashing b)[j]? ≠ some other) ∧
      (∀ other ∈ after, ∀ j : Nat, (blockIds hashing b)[j]? = some other → j ≤ start) := by
  have within := split.within
  have some_ : a ≠ [] := by
    rintro rfl
    rw [List.length_nil] at within
    omega
  obtain ⟨before, start, after, heights, high, low, lower, near⟩ :=
    historyHeights_split (i := 0) positive within.1 rfl (Nat.le_refl 1) (show 2 ^ (0 + 1) ≤
      1 + 1 by omega)
      (Nat.zero_le _)
  obtain ⟨id, onA, onB⟩ := split.below low
  have history : getShortChainHistory hashing a =
      before.filterMap (fun height => (blockIds hashing a)[height]?) ++
        id :: after.filterMap fun height => (blockIds hashing a)[height]? := by
    rw [getShortChainHistory, if_neg some_, heights, List.filterMap_append,
      List.filterMap_cons_some onA]
  refine ⟨start, _, id, _, history, ?_, low, near, onB, ?_, ?_⟩
  · have ends : (historyHeights a.length 0 0 1 false).getLast? = some 0 :=
      historyHeights_getLast rfl
    obtain ⟨others, isLast⟩ := List.getLast?_eq_some_iff.mp ends
    obtain ⟨genesis, onA', -⟩ := split.below (show 0 < k by omega)
    rw [getShortChainHistory, if_neg some_, isLast, List.filterMap_append,
      List.filterMap_cons_some onA', List.filterMap_nil, List.getLast?_concat, ← onA',
      List.head?_eq_getElem?]
  · intro other inside j
    obtain ⟨height, among, onA'⟩ := List.mem_filterMap.mp inside
    exact split.above validA validB collisionFree (high height among).1 onA'
  · intro other inside j onB'
    obtain ⟨height, among, onA'⟩ := List.mem_filterMap.mp inside
    obtain ⟨same, -⟩ := same_below validA validB collisionFree onA' onB'
    have := lower height among
    omega

/-! ## The returned list -/

/-- The entry of a block. -/
def contextInfo (hashing : Hashing Block Hash)
    (bei : BlockExtendedInfo Block) : BlockContextInfo Hash :=
  ⟨hashing.getBlockHash bei.bl, bei.blockCumulativeSize⟩

def Follows (hashing : Hashing Block Hash) (bei next : BlockExtendedInfo Block) : Prop :=
  hashing.prevId next.bl = hashing.getBlockHash bei.bl

theorem setLastHash_concat (ids : List (BlockContextInfo Hash)) (last : BlockContextInfo Hash)
    (h : Hash) :
    setLastHash (ids ++ [last]) h = ids ++ [{ last with h := h }] := by
  rw [setLastHash, List.getLast?_concat]
  simp only [List.dropLast_concat]

/-- By induction on the blocks that are left: all entries but the last one are complete, and the
hash that completes the last one is the one that the next block names. -/
theorem pushBlockIds_eq {last : BlockExtendedInfo Block} {rest : List (BlockExtendedInfo Block)}
    (follow : List.IsChain (Follows hashing) (last :: rest)) (done : List (BlockContextInfo Hash))
    (h : Hash) :
    setLastHash (pushBlockIds hashing rest (done ++ [⟨h, last.blockCumulativeSize⟩]))
        (hashing.getBlockHash ((last :: rest).getLast (List.cons_ne_nil last rest)).bl) =
      done ++ (last :: rest).map (contextInfo hashing) := by
  induction rest generalizing last done h with
  | nil => exact setLastHash_concat done _ _
  | cons bei rest inductionHypothesis =>
      obtain ⟨names, later⟩ := List.isChain_cons_cons.mp follow
      have complete :=
        inductionHypothesis later (done ++ [contextInfo hashing last]) hashing.nullHash
      rw [pushBlockIds, setLastHash_concat, names, List.getLast_cons (List.cons_ne_nil bei rest)]
      rw [List.append_assoc] at complete
      rw [List.append_assoc]
      exact complete.trans (List.append_assoc _ _ _)

theorem ValidChain.isChain {blocks : List (BlockExtendedInfo Block)}
    (valid : ValidChain hashing blocks) :
    List.IsChain (Follows hashing) blocks := by
  rw [List.isChain_iff_getElem]
  intro i inside
  apply HashChain.Chained.previous_eq valid (k := i)
  · rw [List.getElem?_map, List.getElem?_eq_getElem (by omega)]
    rfl
  · rw [List.getElem?_map, List.getElem?_eq_getElem (by omega)]
    rfl

/-- Every entry carries the id and the size of its own block. -/
theorem supplementIds_eq {sent : List (BlockExtendedInfo Block)}
    (follow : List.IsChain (Follows hashing) sent) :
    supplementIds hashing sent = sent.map (contextInfo hashing) := by
  rw [supplementIds]
  cases sent with
  | nil => rfl
  | cons bei rest =>
      rw [List.getLast?_eq_some_getLast (List.cons_ne_nil bei rest)]
      exact pushBlockIds_eq follow [] hashing.nullHash

/-- The supplement that node B finds for the history of node A starts at the highest block of the
history on B's chain, not far below the split, and names B's blocks from there on; and what A makes
of it leaves no block out. -/
theorem findBlockchainSupplement_common [DecidableEq Hash] (others : Hash → Bool) (positive : 1 ≤ k)
    (validA : ValidChain hashing a)
    (validB : ValidChain hashing b) (collisionFree : CollisionFree hashing (a ++ b))
    (split : SplitAt hashing a b k) :
    ∃ resp, findBlockchainSupplement hashing b (getShortChainHistory hashing a) = some resp ∧
      (∃ id ∈ getShortChainHistory hashing a, (blockIds hashing b)[resp.startHeight]? = some id) ∧
      (∀ id ∈ getShortChainHistory hashing a, ∀ j : Nat, (blockIds hashing b)[j]? = some id →
        j ≤ resp.startHeight) ∧
      resp.startHeight < k ∧ a.length - 1 - resp.startHeight ≤ 2 * (a.length - k) ∧
        resp.totalHeight = b.length ∧
      resp.blockIds = ((b.drop resp.startHeight).take blocksIdsSynchronizingDefaultCount).map
        (contextInfo hashing) ∧
      ∃ needed, handleResponseChainEntry hashing a others resp = some needed ∧
        needed.Sublist resp.blockIds ∧
        (∀ (j : Nat) (id : Hash), j < resp.startHeight → (blockIds hashing b)[j]? = some id →
          (blockIds hashing a)[j]? = some id) ∧
        ∀ details ∈ resp.blockIds, haveBlock hashing a others details.h = true ∨
          details ∈ needed := by
  obtain ⟨start, before, id, after, history, isLast, low, near, onB, unknown, lower⟩ :=
    getShortChainHistory_split validA validB collisionFree split positive
  have collisionFreeB : CollisionFree hashing b := fun x insideX y insideY =>
    collisionFree x (List.mem_append_right _ insideX) y (List.mem_append_right _ insideY)
  obtain ⟨genesis, onA', onB'⟩ := split.below (show 0 < k by omega)
  have found : findStarterOffset hashing b (getShortChainHistory hashing a) = some start := by
    have sameGenesis : (blockIds hashing a).head? = (blockIds hashing b).head? := by
      rw [List.head?_eq_getElem?, List.head?_eq_getElem?, onA', onB']
    have none_ : before.findSome? (fun id => (blockIds hashing b).idxOf? id) = none := by
      rw [List.findSome?_eq_none_iff]
      intro other inside
      rw [List.idxOf?_eq_none_iff]
      intro among
      obtain ⟨j, isThere⟩ := List.mem_iff_getElem?.mp among
      exact unknown other inside j isThere
    have nonempty : getShortChainHistory hashing a ≠ [] := by simp [history]
    rw [findStarterOffset, if_neg nonempty,
      if_neg (by rw [isLast, sameGenesis]; exact fun different => different rfl), history,
      List.findSome?_append, none_, Option.none_or, List.findSome?_cons,
      idxOf?_eq_some validB collisionFreeB onB]
  have follow :
      List.IsChain (Follows hashing) ((b.drop start).take blocksIdsSynchronizingDefaultCount) :=
    (validB.isChain.drop start).take blocksIdsSynchronizingDefaultCount
  have within := split.within
  obtain ⟨first, isFirst, firstId⟩ := getElem?_blockIds.mp onB
  obtain ⟨inside, sameFirst⟩ := List.getElem?_eq_some_iff.mp isFirst
  have sentIs : (b.drop start).take blocksIdsSynchronizingDefaultCount =
      first :: (b.drop (start + 1)).take (blocksIdsSynchronizingDefaultCount - 1) := by
    rw [List.drop_eq_getElem_cons inside, sameFirst]
    rfl
  refine ⟨⟨start, b.length,
    ((b.drop start).take blocksIdsSynchronizingDefaultCount).map (contextInfo hashing)⟩, ?_,
    ⟨id, ?_, onB⟩, ?_, low, near, rfl, rfl, ?_⟩
  · rw [findBlockchainSupplement, found, Option.map_some, supplementIds_eq follow]
  · rw [history]
    exact List.mem_append_right _ List.mem_cons_self
  · intro other among j isThere
    rw [history] at among
    rcases List.mem_append.mp among with early | late
    · exact absurd isThere (unknown other early j)
    · rcases List.mem_cons.mp late with rfl | later
      · have again := idxOf?_eq_some validB collisionFreeB isThere
        rw [idxOf?_eq_some validB collisionFreeB onB] at again
        exact Nat.le_of_eq (Option.some.inj again).symm
      · exact lower other later j isThere
  · have frontKnown : haveBlock hashing a others (hashing.getBlockHash first.bl) = true := by
      obtain ⟨common, onA, onB''⟩ := split.below low
      have sameId : common = id := Option.some.inj (onB''.symm.trans onB)
      rw [firstId, haveBlock, decide_eq_true (List.mem_of_getElem? (sameId ▸ onA)), Bool.true_or]
    have count :
        ((b.drop start).take blocksIdsSynchronizingDefaultCount).length ≤ b.length - start := by
      rw [List.length_take, List.length_drop]
      exact Nat.min_le_right _ _
    refine ⟨(((b.drop start).take blocksIdsSynchronizingDefaultCount).map
      (contextInfo hashing)).filter
      fun details => !haveBlock hashing a others details.h, ?_, List.filter_sublist, ?_, ?_⟩
    · rw [handleResponseChainEntry]
      simp only [List.length_map]
      rw [if_neg (by omega)]
      simp only [sentIs, List.map_cons, contextInfo, frontKnown, Bool.not_true,
        Bool.false_eq_true, if_false]
    · intro j other below isThere
      obtain ⟨common, onA, onB''⟩ := split.below (Nat.lt_trans below low)
      rw [onA, ← onB'', isThere]
    · intro details among
      cases isKnown : haveBlock hashing a others details.h with
      | true => exact Or.inl rfl
      | false => exact Or.inr (List.mem_filter.mpr ⟨among, by rw [isKnown]; rfl⟩)

/-- Blocks that are their own hashes: a height and a branch. -/
def branches : Hashing (Nat × Nat) (Nat × Nat) where
  getBlockHash := id
  prevId := fun bl => if bl.1 = 1 then (0, 0) else (bl.1 - 1, bl.2)
  getBlockHeight := Prod.fst
  nullHash := (0, 1)

/-- Two chains that have the genesis block in common only. -/
theorem findBlockchainSupplement_common_genesis : ∃ resp,
    findBlockchainSupplement branches [⟨(0, 0), 1⟩, ⟨(1, 2), 5⟩, ⟨(2, 2), 7⟩]
      (getShortChainHistory branches [⟨(0, 0), 1⟩, ⟨(1, 1), 4⟩]) = some resp ∧
    resp.startHeight = 0 ∧ resp.blockIds = [⟨(0, 0), 1⟩, ⟨(1, 2), 5⟩, ⟨(2, 2), 7⟩] := by
  have validA : ValidChain branches [⟨(0, 0), 1⟩, ⟨(1, 1), 4⟩] := by
    change HashChain.Chained _ _ _ ([] ++ [(0, 0)] ++ [(1, 1)])
    exact .snoc (.snoc .nil (by simp) rfl) (by simp [branches]) rfl
  have validB : ValidChain branches [⟨(0, 0), 1⟩, ⟨(1, 2), 5⟩, ⟨(2, 2), 7⟩] := by
    change HashChain.Chained _ _ _ ([] ++ [(0, 0)] ++ [(1, 2)] ++ [(2, 2)])
    exact .snoc (.snoc (.snoc .nil (by simp) rfl) (by simp [branches]) rfl) (by simp [branches]) rfl
  obtain ⟨resp, found, -, -, low, -, -, ids, -⟩ :=
    findBlockchainSupplement_common (fun _ => false) (Nat.le_refl 1)
    validA validB (fun _ _ _ _ same => same) ⟨rfl, by decide, by simp [blockIds, branches]⟩
  have atGenesis : resp.startHeight = 0 := by omega
  rw [atGenesis] at ids
  exact ⟨resp, found, atGenesis, ids⟩

end Zano.Sync
