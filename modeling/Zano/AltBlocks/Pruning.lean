import Mathlib
import Zano.Lib.BoundedSelection
import Zano.AltBlocks.SideTables

/-! # Pruning the alternative blocks

First the blocks go that are too far below the top of the main chain. If there are still too many,
the oldest ones go, by the time at which they were added. They are selected with a bounded list
while the container is visited in whatever order it has.
-/

namespace Zano.AltBlocks

variable {Hash KeyImage Key : Type*} [DecidableEq Hash] [DecidableEq KeyImage]

/-! ## Erasing a list of blocks -/

omit [DecidableEq KeyImage] in
theorem entries_erase (chains : AList fun _ : Hash => AltBlockExtendedInfo Hash KeyImage Key)
    (id : Hash) :
    (chains.erase id).entries = chains.entries.filter fun e => e.1 ≠ id := by
  obtain ⟨entries, nodup⟩ := chains
  change entries.kerase id = _
  induction entries with
  | nil => rfl
  | cons e rest inductionHypothesis =>
      obtain ⟨first, restNodup⟩ := List.nodupKeys_cons.mp nodup
      by_cases same : id = e.1
      · have others : ∀ other ∈ rest, decide (other.1 ≠ id) = true := by
          intro other inside
          rw [decide_eq_true_eq, same]
          intro twice
          exact first (twice ▸ List.mem_keys_of_mem inside)
        rw [List.kerase_cons_eq same, List.filter_cons_of_neg (by simp [same]),
          List.filter_eq_self.mpr others]
      · rw [List.kerase_cons_ne same, List.filter_cons_of_pos (by simpa using Ne.symm same),
          inductionHypothesis restNodup]

theorem foldlM_doEraseAltblock (pool : Hash → Option (Transaction Hash KeyImage Key))
    {ids : List Hash} (nodup : ids.Nodup) {s : Node Hash KeyImage Key}
    (there : ∀ id ∈ ids, id ∈ s.alternativeChains) :
    ∃ left, ids.foldlM (Node.doEraseAltblock pool) s = some left ∧ left.main = s.main ∧
      left.alternativeChains.entries = s.alternativeChains.entries.filter fun e => e.1 ∉ ids := by
  induction ids generalizing s with
  | nil => exact ⟨s, rfl, rfl, by simp⟩
  | cons id rest inductionHypothesis =>
      obtain ⟨notInRest, restNodup⟩ := List.nodup_cons.mp nodup
      obtain ⟨abei, isThere⟩ :=
        Option.isSome_iff_exists.mp (AList.lookup_isSome.mpr (there id List.mem_cons_self))
      obtain ⟨next, erased⟩ : ∃ next, s.doEraseAltblock pool id = some next :=
        ⟨_, doEraseAltblock_eq_some.mpr ⟨abei, isThere, rfl⟩⟩
      obtain ⟨_, -, result⟩ := doEraseAltblock_eq_some.mp erased
      have restThere : ∀ other ∈ rest, other ∈ next.alternativeChains := by
        intro other inside
        rw [result, AList.mem_erase]
        exact ⟨fun same => notInRest (same ▸ inside), there other (List.mem_cons_of_mem id inside)⟩
      obtain ⟨left, done, sameMain, entries⟩ := inductionHypothesis restNodup restThere
      refine ⟨left, ?_, ?_, ?_⟩
      · rw [List.foldlM_cons, erased]
        exact done
      · rw [sameMain, result]
      · rw [entries, result]
        simp only [entries_erase, List.filter_filter, List.mem_cons, not_or, Bool.decide_and,
          Bool.and_comm]

/-! ## The two phases -/

theorem agedAltBlocks_spec (s : Node Hash KeyImage Key) :
    s.agedAltBlocks.Nodup ∧ (∀ id ∈ s.agedAltBlocks, id ∈ s.alternativeChains) ∧
      ∀ e ∈ s.alternativeChains.entries, e.1 ∉ s.agedAltBlocks ↔
        s.main.db.blocks.length ≤ e.2.height + currencyAltBlockLivetimeCount := by
  have keys : s.agedAltBlocks.Sublist s.alternativeChains.keys := List.filter_sublist.map _
  refine ⟨keys.nodup s.alternativeChains.keys_nodup, fun id inside => keys.subset inside, ?_⟩
  intro e inside
  have listed : e.1 ∈ s.agedAltBlocks ↔
      e.2.height < s.main.db.blocks.length ∧
        currencyAltBlockLivetimeCount < s.main.db.blocks.length - e.2.height := by
    simp only [Node.agedAltBlocks, List.mem_map, List.mem_filter, decide_eq_true_eq]
    constructor
    · rintro ⟨other, ⟨otherInside, aged⟩, same⟩
      rwa [← s.alternativeChains.nodupKeys.eq_of_fst_eq otherInside inside same]
    · intro aged
      exact ⟨e, ⟨inside, aged⟩, rfl⟩
  rw [listed]
  omega

/-- What is erased for the limit: as many blocks as there are too many, and none that is newer than
one that stays. -/
theorem altsToDelete_spec (s : Node Hash KeyImage Key) (maxAltBlocks : Nat) :
    (s.altsToDelete maxAltBlocks).Nodup ∧
      (∀ id ∈ s.altsToDelete maxAltBlocks, id ∈ s.alternativeChains) ∧
      (s.altsToDelete maxAltBlocks).length = s.alternativeChains.entries.length - maxAltBlocks ∧
      ∀ e ∈ s.alternativeChains.entries, e.1 ∈ s.altsToDelete maxAltBlocks →
        ∀ kept ∈ s.alternativeChains.entries, kept.1 ∉ s.altsToDelete maxAltBlocks →
        e.2.timestamp ≤ kept.2.timestamp := by
  have selects : Node.keepOldest = BoundedSelection.keepLeast (α := Nat × Hash) Prod.fst := by
    funext count oldest e
    rw [Node.keepOldest, BoundedSelection.keepLeast, BoundedSelection.insertLate_eq]
  rw [Node.altsToDelete]
  split
  next few => simp [few]
  next tooMany =>
    rw [selects]
    obtain ⟨dropped, all, size, oldest⟩ :=
      BoundedSelection.exists_dropped (α := Nat × Hash) Prod.fst
      (s.alternativeChains.entries.length - maxAltBlocks) (s.alternativeChains.entries.map fun e =>
        (e.2.timestamp, e.1))
    generalize (s.alternativeChains.entries.map fun e => (e.2.timestamp, e.1)).foldl
      (BoundedSelection.keepLeast Prod.fst (s.alternativeChains.entries.length - maxAltBlocks)) [] =
        selected at *
    have ids : (selected.map (·.2) ++ dropped.map (·.2)).Perm s.alternativeChains.keys := by
      simpa only [AList.keys, List.keys, List.map_append, List.map_map, Function.comp_def] using
        all.map (·.2)
    have selectedIds : (selected.map (·.2)).Nodup :=
      (List.sublist_append_left _ _).nodup (ids.nodup_iff.mpr s.alternativeChains.keys_nodup)
    refine ⟨selectedIds, ?_, ?_, ?_⟩
    · intro id inside
      exact ids.subset (List.mem_append_left _ inside)
    · rw [List.length_map, size, List.length_map]
      omega
    · intro e inside isSelected kept keptInside isKept
      have eSelected : (e.2.timestamp, e.1) ∈ selected := by
        obtain ⟨found, foundInside, sameId⟩ := List.mem_map.mp isSelected
        obtain ⟨other, otherInside, rfl⟩ :=
          List.mem_map.mp (all.subset (List.mem_append_left _ foundInside))
        rwa [s.alternativeChains.nodupKeys.eq_of_fst_eq otherInside inside sameId] at foundInside
      have keptDropped : (kept.2.timestamp, kept.1) ∈ dropped := by
        have somewhere := all.symm.subset (List.mem_map_of_mem keptInside)
        exact (List.mem_append.mp somewhere).resolve_left fun selectedToo =>
          isKept (List.mem_map_of_mem selectedToo)
      exact oldest _ eSelected _ keptDropped

omit [DecidableEq KeyImage] in
/-- No entry of the container is lost or left by mistake when a part of its ids is erased. -/
theorem length_filter_notMem {chains : AList fun _ : Hash => AltBlockExtendedInfo Hash KeyImage Key}
    {ids : List Hash} (nodup : ids.Nodup) (there : ∀ id ∈ ids, id ∈ chains) :
    (chains.entries.filter fun e => e.1 ∉ ids).length = chains.entries.length - ids.length := by
  have erased : (chains.keys.filter fun id => id ∈ ids).Perm ids := by
    rw [List.perm_ext_iff_of_nodup (chains.keys_nodup.filter _) nodup]
    intro id
    simpa [AList.mem_keys] using there id
  have parts := chains.entries.length_eq_length_filter_add fun e => decide (e.1 ∈ ids)
  have same : (chains.entries.filter fun e => decide (e.1 ∈ ids)).length = ids.length := by
    rw [← erased.length_eq, AList.keys, List.keys, List.filter_map, List.length_map]
    rfl
  simp only [decide_not]
  omega

/-- Pruning always succeeds. The first phase leaves the blocks that are not too old, and the second
phase takes off the oldest of them, no more than are too many. -/
theorem prune_keeps_newest (pool : Hash → Option (Transaction Hash KeyImage Key))
    (maxAltBlocks : Nat) (s : Node Hash KeyImage Key) :
    ∃ young final, s.agedAltBlocks.foldlM (Node.doEraseAltblock pool) s = some young ∧
      s.pruneAgedAltBlocks pool maxAltBlocks = some final ∧
      young.alternativeChains.entries = s.alternativeChains.entries.filter (fun e =>
        s.main.db.blocks.length ≤ e.2.height + currencyAltBlockLivetimeCount) ∧
      (∀ e ∈ final.alternativeChains.entries, e ∈ young.alternativeChains.entries) ∧
      final.alternativeChains.entries.length =
        min maxAltBlocks young.alternativeChains.entries.length ∧
      ∀ e ∈ young.alternativeChains.entries, e ∉ final.alternativeChains.entries →
        ∀ kept ∈ final.alternativeChains.entries, e.2.timestamp ≤ kept.2.timestamp := by
  obtain ⟨agedNodup, agedThere, notAged⟩ := agedAltBlocks_spec s
  obtain ⟨young, first, -, youngEntries⟩ := foldlM_doEraseAltblock pool agedNodup agedThere
  obtain ⟨oldNodup, oldThere, oldLength, oldest⟩ := altsToDelete_spec young maxAltBlocks
  obtain ⟨final, second, -, finalEntries⟩ := foldlM_doEraseAltblock pool oldNodup oldThere
  refine ⟨young, final, first, ?_, ?_, ?_, ?_, ?_⟩
  · rw [Node.pruneAgedAltBlocks, first]
    exact second
  · rw [youngEntries]
    apply List.filter_congr
    intro e inside
    rw [decide_eq_decide]
    exact notAged e inside
  · intro e inside
    rw [finalEntries] at inside
    exact List.mem_of_mem_filter inside
  · rw [finalEntries, length_filter_notMem oldNodup oldThere, oldLength]
    omega
  · intro e inside isGone kept keptInside
    rw [finalEntries, List.mem_filter, decide_eq_true_eq] at isGone keptInside
    exact oldest e inside (by grind) kept keptInside.1 keptInside.2

end Zano.AltBlocks
