import Mathlib
import Zano.Lib.SecondaryIndex
import Zano.Lib.Transition
import Zano.AltBlocks.Acceptance

/-! # The side tables of the alternative blocks

The ids of transactions are counted, so their table is right for whatever is added and erased,
except that a block may name one id twice. The key images of a block are taken from the transactions
that are kept with it when it is added. When it is erased they are taken from the pool or from the
main chain, and the entries of a transaction that is in neither by then stay.
-/

namespace Zano.AltBlocks

open SecondaryIndex Transition

variable {Hash KeyImage Key : Type*} [DecidableEq Hash] [DecidableEq KeyImage]

omit [DecidableEq KeyImage] in
def spends (abei : AltBlockExtendedInfo Hash KeyImage Key) : Set KeyImage :=
  {ki | ki ∈ abei.keyImages}

/-- The blocks that are listed for a key image. -/
def listed (heap : KeyImage → Option (List Hash)) (ki : KeyImage) : Set Hash :=
  {id | id ∈ (heap ki).getD []}

/-- No list is empty and none names a block twice. -/
def Lists (heap : KeyImage → Option (List Hash)) : Prop :=
  ∀ ki ids, heap ki = some ids → ids ≠ [] ∧ ids.Nodup

/-! ## The heap of key images -/

section Heap

variable {heap : KeyImage → Option (List Hash)} {blockId id : Hash} {ki k : KeyImage}

omit [DecidableEq Hash] in
theorem mem_listed_appendAltblockKeyimage :
    id ∈ listed (appendAltblockKeyimage blockId heap ki) k ↔
      (id = blockId ∧ k = ki) ∨ id ∈ listed heap k := by
  unfold listed appendAltblockKeyimage
  by_cases same : k = ki
  · subst same
    simp [or_comm]
  · simp [same]

omit [DecidableEq Hash] in
theorem mem_listed_appendAll {kis : List KeyImage} :
    id ∈ listed (appendAltblockKeyimagesToBigHeap heap blockId kis) k ↔
      (id = blockId ∧ k ∈ kis) ∨ id ∈ listed heap k := by
  unfold appendAltblockKeyimagesToBigHeap
  induction kis generalizing heap with
  | nil => simp
  | cons ki rest inductionHypothesis =>
      rw [List.foldl_cons, inductionHypothesis, mem_listed_appendAltblockKeyimage, List.mem_cons]
      grind

omit [DecidableEq Hash] in
theorem Lists.appendAltblockKeyimage (lists : Lists heap) (isNew : blockId ∉ listed heap ki) :
    Lists (appendAltblockKeyimage blockId heap ki) := by
  intro k ids isList
  unfold AltBlocks.appendAltblockKeyimage at isList
  by_cases same : k = ki
  · subst same
    rw [Function.update_self] at isList
    cases isList
    refine ⟨by simp, ?_⟩
    cases before : heap k with
    | none => simp
    | some ids =>
        have notThere : blockId ∉ ids := by simpa [listed, before] using isNew
        rw [Option.getD_some, ← List.concat_eq_append]
        exact (lists k ids before).2.concat notThere
  · rw [Function.update_of_ne same] at isList
    exact lists k ids isList

omit [DecidableEq Hash] in
/-- A block that is listed nowhere is listed for different key images. -/
theorem Lists.appendAll {kis : List KeyImage} (lists : Lists heap) (distinct : kis.Nodup)
    (isNew : ∀ ki ∈ kis, blockId ∉ listed heap ki) :
    Lists (appendAltblockKeyimagesToBigHeap heap blockId kis) := by
  unfold appendAltblockKeyimagesToBigHeap
  induction kis generalizing heap with
  | nil => exact lists
  | cons ki rest inductionHypothesis =>
      rw [List.nodup_cons] at distinct
      apply inductionHypothesis (lists.appendAltblockKeyimage (isNew ki List.mem_cons_self))
        distinct.2
      intro k inside isListed
      rcases mem_listed_appendAltblockKeyimage.mp isListed with ⟨-, same⟩ | isListed
      · exact distinct.1 (same ▸ inside)
      · exact isNew k (List.mem_cons_of_mem ki inside) isListed

theorem mem_listed_purgeKeyimage (lists : Lists heap) :
    id ∈ listed (purgeKeyimageFromBigHeap blockId heap ki) k ↔
      id ∈ listed heap k ∧ ¬(id = blockId ∧ k = ki) := by
  unfold purgeKeyimageFromBigHeap
  cases before : heap ki with
  | none =>
      simp only [listed, Set.mem_ofPred_eq]
      constructor
      · intro inside
        refine ⟨inside, ?_⟩
        rintro ⟨-, rfl⟩
        simp [before] at inside
      · exact And.left
  | some ids =>
      have distinct := (lists ki ids before).2
      by_cases same : k = ki
      · subst same
        simp only [listed, Set.mem_ofPred_eq, Function.update_self, before,
          Option.getD_some, and_true]
        have erased : id ∈ ids.erase blockId ↔ id ∈ ids ∧ ¬id = blockId := by
          rw [distinct.mem_erase_iff]
          exact And.comm
        rw [← erased]
        by_cases nobody : ids.erase blockId = [] <;> simp [nobody]
      · simp [listed, same]

theorem Lists.purgeKeyimage (lists : Lists heap) :
    Lists (purgeKeyimageFromBigHeap blockId heap ki) := by
  intro k ids isList
  unfold purgeKeyimageFromBigHeap at isList
  cases before : heap ki with
  | none =>
      rw [before] at isList
      exact lists k ids isList
  | some ids' =>
      rw [before] at isList
      by_cases same : k = ki
      · subst same
        simp only [Function.update_self] at isList
        split at isList
        · cases isList
        · rename_i some_
          cases isList
          exact ⟨some_, (lists k ids' before).2.erase blockId⟩
      · simp only [Function.update_of_ne same] at isList
        exact lists k ids isList

theorem mem_listed_purgeAll {kis : List KeyImage} (lists : Lists heap) :
    (∀ id k, id ∈ listed (kis.foldl (purgeKeyimageFromBigHeap blockId) heap) k ↔
      id ∈ listed heap k ∧ ¬(id = blockId ∧ k ∈ kis)) ∧
    Lists (kis.foldl (purgeKeyimageFromBigHeap blockId) heap) := by
  induction kis generalizing heap with
  | nil => exact ⟨by simp, lists⟩
  | cons ki rest inductionHypothesis =>
      obtain ⟨members, lists'⟩ := inductionHypothesis lists.purgeKeyimage
      refine ⟨fun id k => ?_, lists'⟩
      rw [List.foldl_cons, members, mem_listed_purgeKeyimage lists, List.mem_cons]
      grind

end Heap

/-! ## The counts of transaction ids -/

section Counts

variable {txs : Hash → Option Nat} {h : Hash}

/-- How often a table says that an id is there. -/
def countOf (txs : Hash → Option Nat) (h : Hash) : Nat := (txs h).getD 0

/-- There is no zero entry. -/
def NoZero (txs : Hash → Option Nat) : Prop := ∀ h, txs h ≠ some 0

theorem countOf_addAll {hashes : List Hash} (noZero : NoZero txs) :
    (∀ h, countOf (hashes.foldl addAltBlockTxHash txs) h = countOf txs h + hashes.count h) ∧
      NoZero (hashes.foldl addAltBlockTxHash txs) := by
  induction hashes generalizing txs with
  | nil => exact ⟨fun _ => rfl, noZero⟩
  | cons txHash rest inductionHypothesis =>
      have noZero' : NoZero (addAltBlockTxHash txs txHash) := by
        intro other
        by_cases same : other = txHash
        · subst same
          simp [addAltBlockTxHash]
        · simpa [addAltBlockTxHash, same] using noZero other
      obtain ⟨counts, noZero''⟩ := inductionHypothesis noZero'
      refine ⟨fun h => ?_, noZero''⟩
      rw [List.foldl_cons, counts, List.count_cons]
      by_cases same : txHash = h
      · subst same
        simp [countOf, addAltBlockTxHash]
        omega
      · have other : h ≠ txHash := fun eq => same eq.symm
        simp [countOf, addAltBlockTxHash, other, same]

theorem countOf_purge {txHash : Hash} (noZero : NoZero txs) :
    (∀ h, countOf (purgeAltBlockTxHash txs txHash) h =
      countOf txs h - (if txHash = h then 1 else 0)) ∧
      NoZero (purgeAltBlockTxHash txs txHash) := by
  unfold purgeAltBlockTxHash
  cases before : txs txHash with
  | none =>
      refine ⟨fun h => ?_, noZero⟩
      by_cases same : txHash = h
      · subst same
        simp [countOf, before]
      · simp [same]
  | some count =>
      constructor
      · intro h
        by_cases same : txHash = h
        · subst same
          by_cases last : count - 1 = 0
          · simp [countOf, before, last]
          · simp [countOf, before, last]
        · have other : h ≠ txHash := fun eq => same eq.symm
          simp [countOf, other, same]
      · intro other
        by_cases same : other = txHash
        · subst same
          by_cases last : count - 1 = 0
          · simp [last]
          · simp [last]
        · simpa [same] using noZero other

theorem countOf_purgeAll {hashes : List Hash} (noZero : NoZero txs) :
    (∀ h, countOf (hashes.foldl purgeAltBlockTxHash txs) h = countOf txs h - hashes.count h) ∧
      NoZero (hashes.foldl purgeAltBlockTxHash txs) := by
  induction hashes generalizing txs with
  | nil => exact ⟨fun _ => rfl, noZero⟩
  | cons txHash rest inductionHypothesis =>
      obtain ⟨one, noZero'⟩ : _ ∧ NoZero (purgeAltBlockTxHash txs txHash) := countOf_purge noZero
      obtain ⟨counts, noZero''⟩ := inductionHypothesis noZero'
      refine ⟨fun h => ?_, noZero''⟩
      rw [List.foldl_cons, counts, List.count_cons, one]
      by_cases same : txHash = h
      · simp [same]
        omega
      · simp [same]

omit [DecidableEq KeyImage] in
/-- How often the alternative blocks name a transaction id. -/
def occurrences (alternativeChains : AList fun _ : Hash => AltBlockExtendedInfo Hash KeyImage Key)
    (h : Hash) : Nat :=
  (alternativeChains.entries.map fun e => e.2.bl.txHashes.count h).sum

/-- In how many alternative blocks a transaction id is. -/
def blocksWith (alternativeChains : AList fun _ : Hash => AltBlockExtendedInfo Hash KeyImage Key)
    (h : Hash) : Nat :=
  alternativeChains.entries.countP fun e => h ∈ e.2.bl.txHashes

variable {alternativeChains : AList fun _ : Hash => AltBlockExtendedInfo Hash KeyImage Key}
  {id : Hash} {abei : AltBlockExtendedInfo Hash KeyImage Key}

omit [DecidableEq KeyImage] in
theorem occurrences_insert (isNew : alternativeChains.lookup id = none) :
    occurrences (alternativeChains.insert id abei) h =
      abei.bl.txHashes.count h + occurrences alternativeChains h := by
  rw [occurrences, AList.entries_insert_of_notMem (AList.lookup_eq_none.mp isNew), List.map_cons,
    List.sum_cons, occurrences]

omit [DecidableEq KeyImage] in
theorem occurrences_erase (isThere : alternativeChains.lookup id = some abei) :
    occurrences alternativeChains h =
      abei.bl.txHashes.count h + occurrences (alternativeChains.erase id) h := by
  have inside : id ∈ alternativeChains.entries.keys := by
    rw [← AList.keys, ← AList.mem_keys, ← AList.lookup_isSome, isThere]
    rfl
  obtain ⟨abei', before, after, notBefore, entries, erased⟩ := List.exists_of_kerase inside
  have same : abei' = abei := by
    have isEntry : ⟨id, abei'⟩ ∈ alternativeChains.entries := by simp [entries]
    have found := AList.mem_lookup_iff.mpr isEntry
    rw [Option.mem_def, isThere] at found
    cases found
    rfl
  subst same
  have left : (alternativeChains.erase id).entries = before ++ after := erased
  simp only [occurrences, entries, left, List.map_append, List.map_cons, List.sum_append,
    List.sum_cons]
  omega

omit [DecidableEq KeyImage] in
/-- Counting ids is counting blocks just if no block names an id twice. -/
theorem occurrences_eq_blocksWith_iff :
    (∀ h, occurrences alternativeChains h = blocksWith alternativeChains h) ↔
      ∀ e ∈ alternativeChains.entries, e.2.bl.txHashes.Nodup := by
  have atLeast :
      ∀ (entries : List ((_ : Hash) × AltBlockExtendedInfo Hash KeyImage Key)) (h : Hash),
      entries.countP (fun e => h ∈ e.2.bl.txHashes) ≤
        (entries.map fun e => e.2.bl.txHashes.count h).sum ∧
        ((entries.map fun e => e.2.bl.txHashes.count h).sum =
          entries.countP (fun e => h ∈ e.2.bl.txHashes) ↔
          ∀ e ∈ entries, e.2.bl.txHashes.count h ≤ 1) := by
    intro entries h
    induction entries with
    | nil => simp
    | cons e rest inductionHypothesis =>
        obtain ⟨le, iff_⟩ := inductionHypothesis
        simp only [List.map_cons, List.sum_cons, List.countP_cons, List.mem_cons, forall_eq_or_imp]
        rw [← iff_]
        by_cases inside : h ∈ e.2.bl.txHashes
        · have positive := List.count_pos_iff.mpr inside
          simp only [inside, decide_true, if_true]
          omega
        · have zero := List.count_eq_zero.mpr inside
          simp only [inside, decide_false, zero]
          simp only [Bool.false_eq_true, if_false]
          omega
  constructor
  · intro same e inside
    rw [List.nodup_iff_count_le_one]
    intro h
    exact (atLeast alternativeChains.entries h).2.mp (same h) e inside
  · intro distinct h
    refine (atLeast alternativeChains.entries h).2.mpr fun e inside => ?_
    exact List.nodup_iff_count_le_one.mp (distinct e inside) h

end Counts

/-! ## One block -/

section Steps

variable {s s' : Node Hash KeyImage Key} {id : Hash} {abei : AltBlockExtendedInfo Hash KeyImage Key}
  {pool : Hash → Option (Transaction Hash KeyImage Key)}

structure TxsCounted (s : Node Hash KeyImage Key) : Prop where
  counts : ∀ h, countOf s.alternativeChainsTxs h = occurrences s.alternativeChains h
  noZero : NoZero s.alternativeChainsTxs

structure KeyimagesExact (s : Node Hash KeyImage Key) : Prop where
  listed : Exact s.altBlock spends (listed s.altblocksKeyimages)
  lists : Lists s.altblocksKeyimages
  mined : ∀ id abei, s.altBlock id = some abei →
    prevalidateMinerTransaction abei.bl abei.height = true

/-- Every transaction of the block that has key images can still be found, with these key images. -/
def Available (pool : Hash → Option (Transaction Hash KeyImage Key))
    (db : MainTables Hash KeyImage Key) (abei : AltBlockExtendedInfo Hash KeyImage Key) : Prop :=
  ∀ txId ∈ abei.bl.txHashes, ∀ tx, abei.onboardTransactions.lookup txId = some tx →
    tx.keyImages ≠ [] →
    ∃ tx', getTransactionFromPoolOrDb pool db txId 0 = some tx' ∧ tx'.keyImages = tx.keyImages

omit [DecidableEq KeyImage] in
theorem keyImages_subset_keyimagesToPurge {db : MainTables Hash KeyImage Key}
    (mined : prevalidateMinerTransaction abei.bl abei.height = true)
    (available : Available pool db abei) :
    ∀ ki ∈ abei.keyImages, ki ∈ keyimagesToPurge pool db abei.bl := by
  intro ki inside
  rw [keyimagesToPurge, List.mem_append]
  obtain ⟨tx, isTx, has⟩ := List.mem_flatMap.mp inside
  rcases List.mem_cons.mp isTx with rfl | isTx
  · left
    rcases minerTx_vin mined with ⟨notPos, inputs⟩ |
      ⟨isPos, ⟨amount, keyOffsets, ki', inputs⟩ | ⟨keyOffsets, ki', inputs⟩⟩
    · simp [Transaction.keyImages, inputs, TxinV.keyImage] at has
    · simpa [Transaction.keyImages, inputs, TxinV.keyImage, isPos, eq_comm] using has
    · simpa [Transaction.keyImages, inputs, TxinV.keyImage, isPos, eq_comm] using has
  · right
    obtain ⟨txId, isHash, isOnboard⟩ := List.mem_filterMap.mp isTx
    obtain ⟨tx', found, same⟩ := available txId isHash tx isOnboard (List.ne_nil_of_mem has)
    refine List.mem_flatMap.mpr ⟨txId, isHash, ?_⟩
    rw [found]
    simpa only [same] using has

theorem TxsCounted.accepted {env : Environment Hash KeyImage Key} {b : Block Hash KeyImage Key}
    {altChain : AltChain Hash KeyImage Key} {height splitHeight : Nat} {collected : List KeyImage}
    (counted : TxsCounted s)
    (accepted : Accepted env s s' b id altChain height splitHeight collected abei) :
    TxsCounted s' := by
  rw [accepted.result]
  obtain ⟨counts, noZero⟩ : _ ∧
      NoZero (b.txHashes.foldl addAltBlockTxHash s.alternativeChainsTxs) :=
    countOf_addAll counted.noZero
  refine ⟨fun h => ?_, noZero⟩
  rw [occurrences_insert accepted.isNew, accepted.bl, ← counted.counts, Nat.add_comm]
  exact counts h

theorem KeyimagesExact.accepted {env : Environment Hash KeyImage Key} {b : Block Hash KeyImage Key}
    {altChain : AltChain Hash KeyImage Key} {height splitHeight : Nat} {collected : List KeyImage}
    (exact_ : KeyimagesExact s)
    (accepted : Accepted env s s' b id altChain height splitHeight collected abei) :
    KeyimagesExact s' := by
  have isNew : s.altBlock id = none := accepted.isNew
  have nowhere : ∀ ki, id ∉ AltBlocks.listed s.altblocksKeyimages ki := by
    intro ki isListed
    obtain ⟨v, isThere, -⟩ := (exact_.listed ki id).mp isListed
    rw [isNew] at isThere
    cases isThere
  constructor
  · rw [accepted.altBlock]
    refine (exact_insert_iff exact_.listed ?_).mpr ?_
    · intro ki other
      rw [accepted.result, mem_listed_appendAll, accepted.collects.all]
      simp [spends]
    · intro old wasThere
      rw [isNew] at wasThere
      cases wasThere
  · rw [accepted.result]
    exact exact_.lists.appendAll (accepted.collects.distinct List.nodup_nil) fun ki _ => nowhere ki
  · intro other abei' isThere
    rw [accepted.altBlock] at isThere
    by_cases same : other = id
    · subst same
      rw [Function.update_self] at isThere
      cases isThere
      rw [accepted.bl, accepted.height_eq]
      exact accepted.prevalidated
    · rw [Function.update_of_ne same] at isThere
      exact exact_.mined other abei' isThere

/-- The node after a block has been erased. -/
theorem doEraseAltblock_eq_some :
    s.doEraseAltblock pool id = some s' ↔ ∃ abei, s.altBlock id = some abei ∧ s' = { s with
      alternativeChains := s.alternativeChains.erase id
      altblocksKeyimages :=
        purgeAltblockKeyimagesFromBigHeap pool s.main.db s.altblocksKeyimages abei.bl id
      alternativeChainsTxs := purgeAltBlockTxsHashs s.alternativeChainsTxs abei.bl } := by
  rw [Node.doEraseAltblock, Option.map_eq_some_iff]
  constructor
  · rintro ⟨abei, isThere, rfl⟩
    exact ⟨abei, isThere, rfl⟩
  · rintro ⟨abei, isThere, rfl⟩
    exact ⟨abei, isThere, rfl⟩

theorem altBlock_erased (erased : s.doEraseAltblock pool id = some s') :
    s'.main = s.main ∧ s'.altBlock id = none ∧ ∀ other, other ≠ id →
      s'.altBlock other = s.altBlock other := by
  obtain ⟨abei, isThere, rfl⟩ := doEraseAltblock_eq_some.mp erased
  exact ⟨rfl, AList.lookup_erase id _, fun other different => AList.lookup_erase_ne different⟩

theorem TxsCounted.erased (counted : TxsCounted s) (erased : s.doEraseAltblock pool id = some s') :
    TxsCounted s' := by
  obtain ⟨abei, isThere, rfl⟩ := doEraseAltblock_eq_some.mp erased
  obtain ⟨counts, noZero⟩ : _ ∧
      NoZero (abei.bl.txHashes.foldl purgeAltBlockTxHash s.alternativeChainsTxs) :=
    countOf_purgeAll counted.noZero
  refine ⟨fun h => ?_, noZero⟩
  have before : occurrences s.alternativeChains h = _ := occurrences_erase isThere
  rw [purgeAltBlockTxsHashs, counts, counted.counts, before, Nat.add_sub_cancel_left]

/-- Erasing a block keeps the heap exact just if all its key images are found again. -/
theorem KeyimagesExact.erased_iff (exact_ : KeyimagesExact s) (isThere : s.altBlock id = some abei)
    (erased : s.doEraseAltblock pool id = some s') :
    KeyimagesExact s' ↔ ∀ ki ∈ abei.keyImages, ki ∈ keyimagesToPurge pool s.main.db abei.bl := by
  obtain ⟨-, gone, others⟩ := altBlock_erased erased
  obtain ⟨abei', isThere', result⟩ := doEraseAltblock_eq_some.mp erased
  rw [isThere] at isThere'
  cases isThere'
  have purged : ∀ ki other, other ∈ AltBlocks.listed s'.altblocksKeyimages ki ↔
      other ∈ AltBlocks.listed s.altblocksKeyimages ki ∧
        ¬(other ∈ ({id} : Set Hash) ∧
          ki ∈ {ki | ki ∈ keyimagesToPurge pool s.main.db abei.bl}) := by
    intro ki other
    rw [result]
    exact (mem_listed_purgeAll exact_.lists).1 other ki
  have removes : Removes s.altBlock s'.altBlock {id} := by
    constructor
    · intro other same
      rw [Set.mem_singleton_iff.mp same]
      exact gone
    · intro other different
      exact others other different
  have exact_iff := exact_remove_iff exact_.listed removes purged
  constructor
  · intro exact' ki inside
    exact exact_iff.mp exact'.listed id rfl abei isThere inside
  · intro found
    refine ⟨exact_iff.mpr ?_, ?_, ?_⟩
    · intro other same v isThere' ki inside
      rw [Set.mem_singleton_iff.mp same, isThere] at isThere'
      cases isThere'
      exact found ki inside
    · rw [result]
      exact (mem_listed_purgeAll exact_.lists).2
    · intro other abei' isThere'
      by_cases same : other = id
      · rw [same, gone] at isThere'
        cases isThere'
      · rw [others other same] at isThere'
        exact exact_.mined other abei' isThere'

theorem KeyimagesExact.erased (exact_ : KeyimagesExact s)
    (erased : s.doEraseAltblock pool id = some s')
    (available : ∀ abei, s.altBlock id = some abei → Available pool s.main.db abei) :
    KeyimagesExact s' := by
  obtain ⟨abei, isThere, -⟩ := doEraseAltblock_eq_some.mp erased
  exact (exact_.erased_iff isThere erased).mpr
    (keyImages_subset_keyimagesToPurge (exact_.mined id abei isThere) (available abei isThere))

/-! ## Several blocks -/

theorem TxsCounted.erasedAll {ids : List Hash} (counted : TxsCounted s)
    (erased : ids.foldlM (Node.doEraseAltblock pool) s = some s') : TxsCounted s' := by
  induction ids generalizing s with
  | nil =>
      cases erased
      exact counted
  | cons id rest inductionHypothesis =>
      obtain ⟨next, first, later⟩ := Option.bind_eq_some_iff.mp erased
      exact inductionHypothesis (counted.erased first) later

theorem KeyimagesExact.erasedAll {ids : List Hash} (exact_ : KeyimagesExact s)
    (erased : ids.foldlM (Node.doEraseAltblock pool) s = some s')
    (available : ∀ id ∈ ids, ∀ abei, s.altBlock id = some abei → Available pool s.main.db abei) :
    KeyimagesExact s' := by
  induction ids generalizing s with
  | nil =>
      cases erased
      exact exact_
  | cons id rest inductionHypothesis =>
      obtain ⟨next, first, later⟩ := Option.bind_eq_some_iff.mp erased
      obtain ⟨sameMain, gone, others⟩ := altBlock_erased first
      apply inductionHypothesis (exact_.erased first (available id List.mem_cons_self)) later
      intro other inside abei isThere
      rw [sameMain]
      by_cases same : other = id
      · rw [same, gone] at isThere
        cases isThere
      · rw [others other same] at isThere
        exact available other (List.mem_cons_of_mem id inside) abei isThere

end Steps

/-! ## Runs -/

section Runs

variable {s s' : Node Hash KeyImage Key} {request : Request Hash KeyImage Key}

/-- The transactions of every block that is erased can be found while it is erased. -/
def FindsTransactions (s : Node Hash KeyImage Key) : Request Hash KeyImage Key → Prop
  | .eraseAltblock pool id => ∀ abei, s.altBlock id = some abei → Available pool s.main.db abei
  | .pruneAgedAltBlocks pool maxAltBlocks =>
      (∀ id ∈ s.agedAltBlocks, ∀ abei, s.altBlock id = some abei → Available pool s.main.db abei) ∧
        ∀ left, s.agedAltBlocks.foldlM (Node.doEraseAltblock pool) s = some left →
          ∀ id ∈ left.altsToDelete maxAltBlocks, ∀ abei, left.altBlock id = some abei →
            Available pool left.main.db abei
  | _ => True

theorem txsCounted_step (counted : TxsCounted s)
    (stepped : step s request = some s') : TxsCounted s' := by
  cases request with
  | pushMain b =>
      obtain ⟨main, -, rfl⟩ := Option.map_eq_some_iff.mp stepped
      exact ⟨counted.counts, counted.noZero⟩
  | popMain =>
      obtain ⟨main, -, rfl⟩ := Option.map_eq_some_iff.mp stepped
      exact ⟨counted.counts, counted.noZero⟩
  | handleAlternativeBlock env b id onboard =>
      obtain ⟨-, altChain, height, splitHeight, collected, abei, accepted, -⟩ :=
        accepted_of_step stepped
      exact counted.accepted accepted
  | eraseAltblock pool id => exact counted.erased stepped
  | pruneAgedAltBlocks pool maxAltBlocks =>
      obtain ⟨left, aged, rest⟩ := Option.bind_eq_some_iff.mp stepped
      exact (counted.erasedAll aged).erasedAll rest
  | clearAltblocks =>
      cases stepped
      exact ⟨fun _ => rfl, fun _ => by simp [Node.clearAltblocks]⟩

theorem keyimagesExact_step (exact_ : KeyimagesExact s) (finds : FindsTransactions s request)
    (stepped : step s request = some s') : KeyimagesExact s' := by
  cases request with
  | pushMain b =>
      obtain ⟨main, -, rfl⟩ := Option.map_eq_some_iff.mp stepped
      exact ⟨exact_.listed, exact_.lists, exact_.mined⟩
  | popMain =>
      obtain ⟨main, -, rfl⟩ := Option.map_eq_some_iff.mp stepped
      exact ⟨exact_.listed, exact_.lists, exact_.mined⟩
  | handleAlternativeBlock env b id onboard =>
      obtain ⟨-, altChain, height, splitHeight, collected, abei, accepted, -⟩ :=
        accepted_of_step stepped
      exact exact_.accepted accepted
  | eraseAltblock pool id => exact exact_.erased stepped finds
  | pruneAgedAltBlocks pool maxAltBlocks =>
      obtain ⟨left, aged, rest⟩ := Option.bind_eq_some_iff.mp stepped
      exact (exact_.erasedAll aged finds.1).erasedAll rest (finds.2 left aged)
  | clearAltblocks =>
      cases stepped
      exact ⟨by simp [Exact, listed, Node.clearAltblocks, Node.altBlock],
        by simp [Lists, Node.clearAltblocks], by simp [Node.clearAltblocks, Node.altBlock]⟩

theorem txsCounted_start (main : MainChain Hash KeyImage Key) : TxsCounted (start main) :=
  ⟨fun _ => rfl, fun _ => by simp [start]⟩

theorem keyimagesExact_start (main : MainChain Hash KeyImage Key) : KeyimagesExact (start main) :=
  ⟨by simp [Exact, listed, start, Node.altBlock], by simp [Lists, start],
    by simp [start, Node.altBlock]⟩

/-- After any run the transaction ids are counted as blocks if and only if no alternative
block names one twice, and there is never a zero entry. If the run has found the
transactions of every block that it erased, the key images list exactly the alternative
blocks that spend them, each once. -/
theorem alt_side_tables_exact (main : MainChain Hash KeyImage Key)
    (requests : List (Request Hash KeyImage Key)) (final : Node Hash KeyImage Key)
    (ran : run step (start main) requests = some final) :
    ((∀ h, (final.alternativeChainsTxs h).getD 0 =
          final.alternativeChains.entries.countP fun e => h ∈ e.2.bl.txHashes) ↔
        ∀ e ∈ final.alternativeChains.entries, e.2.bl.txHashes.Nodup) ∧
      (∀ h, final.alternativeChainsTxs h ≠ some 0) ∧
      (Guarded step FindsTransactions (start main) requests →
        (∀ ki id, (∃ ids, final.altblocksKeyimages ki = some ids ∧ id ∈ ids) ↔
          ∃ abei, final.alternativeChains.lookup id = some abei ∧ ki ∈ abei.keyImages) ∧
        ∀ ki ids, final.altblocksKeyimages ki = some ids → ids ≠ [] ∧ ids.Nodup) := by
  have always : Guarded step (fun _ _ => True) (start main) requests :=
    guarded_of_forall_mem fun _ _ _ => trivial
  have counted : TxsCounted final :=
    invariant_of_run (fun _ _ _ counted _ => txsCounted_step counted) (txsCounted_start main)
      always ran
  refine ⟨?_, counted.noZero, fun finds => ?_⟩
  · rw [← occurrences_eq_blocksWith_iff]
    refine forall_congr' fun h => ?_
    rw [← counted.counts h]
    rfl
  · have exact_ : KeyimagesExact final :=
      invariant_of_run (fun _ _ _ => keyimagesExact_step) (keyimagesExact_start main) finds ran
    refine ⟨fun ki id => ?_, exact_.lists⟩
    refine Iff.trans ?_ (exact_.listed ki id)
    cases isList : final.altblocksKeyimages ki <;> simp [listed, isList]

end Runs

/-! ## A block whose transaction is not to be found -/

section Concrete

def genesisBlock : FullBlock Nat Nat Unit where
  id := 0
  bl :=
    { prevId := 1000, posFlag := false, minerTx := ⟨[.gen 0], [.bareToKey 5 ()]⟩, txHashes := [] }
  minerTxId := 100
  transactions := []

def genesisOnly : MainChain Nat Nat Unit where
  blocks := [genesisBlock]
  db := ((MainTables.empty.pushBlock genesisBlock).getD .empty)
  built := rfl

def trusting (pool : Nat → Option (Transaction Nat Nat Unit)) (coreTime : Nat) :
    Environment Nat Nat Unit where
  pool := pool
  coreTime := coreTime
  getTransactionHash := fun _ => 101
  blockChecks := fun _ _ _ => true
  isHardforkActiveForHeight := fun _ => false
  minCoinstakeAge := 0
  validateTxSemantic := fun _ _ => true
  validateTxForHardforkSpecificTerms := fun _ _ _ => true
  isMixattrApplicable := fun _ _ _ => true
  checkInputSignature := fun _ _ _ _ => true
  checkMsInput := fun _ _ _ _ _ => true

/-- It spends the output of the genesis block. -/
def spender (kImage : Nat) : Transaction Nat Nat Unit := ⟨[.toKey 5 [.globalIndex 0] kImage], []⟩

def afterGenesis (txHashes : List Nat) : Block Nat Nat Unit where
  prevId := 0
  posFlag := false
  minerTx := ⟨[.gen 1], []⟩
  txHashes := txHashes

def nowhere : Nat → Option (Transaction Nat Nat Unit) := fun _ => none

def spenderInPool : Nat → Option (Transaction Nat Nat Unit) :=
  fun txId => if txId = 7 then some (spender 42) else none

def acceptSpender (id txId kImage : Nat) : Request Nat Nat Unit :=
  .handleAlternativeBlock (trusting nowhere id) (afterGenesis [txId]) id
    (AList.singleton txId (spender kImage))

def spendersPruned : List (Request Nat Nat Unit) :=
  [acceptSpender 1 7 42, acceptSpender 2 8 43, .pruneAgedAltBlocks spenderInPool 1]

theorem spendersPruned_finds :
    Guarded step FindsTransactions (start genesisOnly) spendersPruned := by
  refine ⟨trivial, fun next stepped => ?_⟩
  cases stepped
  refine ⟨trivial, fun next stepped => ?_⟩
  cases stepped
  refine ⟨⟨fun id aged => (by cases aged), ?_⟩, fun _ _ => trivial⟩
  intro left none_ id tooMany abei isThere
  cases none_
  rcases List.mem_singleton.mp tooMany with rfl
  cases isThere
  intro txId isHash tx isOnboard _
  rcases List.mem_singleton.mp isHash with rfl
  cases isOnboard
  exact ⟨spender 42, rfl, rfl⟩

theorem alt_side_tables_exact_pruned :
    ∃ final, run step (start genesisOnly) spendersPruned = some final ∧
    final.altblocksKeyimages 42 = none ∧ final.altblocksKeyimages 43 = some [2] ∧
    final.alternativeChainsTxs 7 = none ∧ final.alternativeChainsTxs 8 = some 1 ∧
    (((∀ h, (final.alternativeChainsTxs h).getD 0 =
          final.alternativeChains.entries.countP fun e => h ∈ e.2.bl.txHashes) ↔
        ∀ e ∈ final.alternativeChains.entries, e.2.bl.txHashes.Nodup) ∧
      (∀ h, final.alternativeChainsTxs h ≠ some 0) ∧
      (∀ ki id, (∃ ids, final.altblocksKeyimages ki = some ids ∧ id ∈ ids) ↔
          ∃ abei, final.alternativeChains.lookup id = some abei ∧ ki ∈ abei.keyImages) ∧
        ∀ ki ids, final.altblocksKeyimages ki = some ids → ids ≠ [] ∧ ids.Nodup) := by
  obtain ⟨counted, noZero, exact_⟩ := alt_side_tables_exact genesisOnly spendersPruned _ rfl
  exact ⟨_, rfl, rfl, rfl, rfl, rfl, counted, noZero, exact_ spendersPruned_finds⟩

/-- A block is pruned while its transaction is neither in the pool nor in the main chain; and a
block names a transaction without key images twice. -/
theorem alt_side_tables_not_exact :
    (∃ final, run step (start genesisOnly) [acceptSpender 1 7 42, .pruneAgedAltBlocks nowhere 0] =
      some final ∧
      final.alternativeChains.lookup 1 = none ∧ final.altblocksKeyimages 42 = some [1]) ∧
    ∃ final, run step (start genesisOnly)
      [.handleAlternativeBlock (trusting nowhere 1) (afterGenesis [9, 9]) 1
        (AList.singleton 9 ⟨[.gateway], []⟩)] = some final ∧
      final.alternativeChains.entries.length = 1 ∧ final.alternativeChainsTxs 9 = some 2 := by
  exact ⟨⟨_, rfl, rfl, rfl⟩, ⟨_, rfl, rfl, rfl⟩⟩

end Concrete

end Zano.AltBlocks
