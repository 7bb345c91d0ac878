import Mathlib
import Zano.Lib.Transition
import Zano.AltBlocks.Links
import Zano.AltBlocks.SideTables

/-! # Output indexes of alternative chains

A block on an alternative chain starts each amount at an index base: the entry of its table, or the
size of the main index now when there is no entry. The bases are the numbers of outputs below the
block on its own chain, as long as a block that joins the main chain brings no output of an amount
that the table of an alternative block leaves out. A reference into an alternative chain then
denotes the output that it would denote if the chain were the main chain.
-/

namespace Zano.AltBlocks

open Transition

variable {Hash KeyImage Key : Type*}

/-- The index of the first output of an amount in a block: an amount that is not in the table is
looked up in the main chain. -/
def AltBlockExtendedInfo.gindexBase (db : MainTables Hash KeyImage Key)
    (abei : AltBlockExtendedInfo Hash KeyImage Key) (amount : UInt64) : Nat :=
  (abei.gindexLookupTable.lookup amount).getD (db.outputs amount).length

def AltBlockExtendedInfo.outputsOf [DecidableEq Hash]
    (abei : AltBlockExtendedInfo Hash KeyImage Key) (amount : UInt64) : List (TxOutV Hash Key) :=
  AltBlocks.outputsOf abei.transactions amount

/-- How many outputs of an amount the blocks of an alternative chain have. -/
def countAltOutputs [DecidableEq Hash] (altChain : AltChain Hash KeyImage Key)
    (amount : UInt64) : Nat :=
  (altChain.map fun e => (e.2.outputsOf amount).length).sum

/-! ## Tables -/

section Tables

variable {db : MainTables Hash KeyImage Key} {amount : UInt64}

theorem updateAltOutIndexes_gindexBase (abei : AltBlockExtendedInfo Hash KeyImage Key)
    (out : TxOutV Hash Key) :
    (updateAltOutIndexes db abei out).gindexBase db amount = abei.gindexBase db amount := by
  unfold updateAltOutIndexes AltBlockExtendedInfo.gindexBase
  cases out.indexedAmount with
  | none => rfl
  | some own =>
      dsimp only
      cases known : abei.gindexLookupTable.lookup own with
      | some start => rfl
      | none =>
          by_cases same : amount = own
          · subst same
            simp only [AList.lookup_insert, known, Option.getD_some, Option.getD_none]
          · simp only [AList.lookup_insert_ne same]

theorem updateAltOutIndexes_outputs (abei : AltBlockExtendedInfo Hash KeyImage Key)
    (out : TxOutV Hash Key) :
    ((updateAltOutIndexes db abei out).outputs.lookup amount).getD [] =
      (abei.outputs.lookup amount).getD [] ++ if out.indexedAmount = some amount then [out]
        else [] := by
  unfold updateAltOutIndexes
  cases indexed : out.indexedAmount with
  | none => simp
  | some own =>
      dsimp only
      by_cases same : amount = own
      · subst same
        simp only [AList.lookup_insert, Option.getD_some, if_true]
      · have other : own ≠ amount := fun eq => same eq.symm
        simp only [AList.lookup_insert_ne same, Option.some.injEq, other, if_false, List.append_nil]

theorem updateAltOutIndexesForTxInBlock_spec (abei : AltBlockExtendedInfo Hash KeyImage Key)
    (tx : Transaction Hash KeyImage Key) :
    (updateAltOutIndexesForTxInBlock db abei tx).gindexBase db amount = abei.gindexBase db amount ∧
      ((updateAltOutIndexesForTxInBlock db abei tx).outputs.lookup amount).getD [] =
        (abei.outputs.lookup amount).getD [] ++ tx.outputsOf amount := by
  unfold updateAltOutIndexesForTxInBlock Transaction.outputsOf
  induction tx.vout generalizing abei with
  | nil => simp
  | cons out vout inductionHypothesis =>
      obtain ⟨base, outputs⟩ := inductionHypothesis (updateAltOutIndexes db abei out)
      rw [List.foldl_cons, base, outputs, updateAltOutIndexes_gindexBase,
        updateAltOutIndexes_outputs, List.filter_cons]
      refine ⟨rfl, ?_⟩
      by_cases same : out.indexedAmount = some amount <;> simp [same]

/-- The outputs of a block are listed, and none of them moves an index base. -/
theorem foldl_updateAltOutIndexes_spec (abei : AltBlockExtendedInfo Hash KeyImage Key)
    (txs : List (Transaction Hash KeyImage Key)) :
    (txs.foldl (updateAltOutIndexesForTxInBlock db) abei).gindexBase db amount =
      abei.gindexBase db amount ∧
      ((txs.foldl (updateAltOutIndexesForTxInBlock db) abei).outputs.lookup amount).getD [] =
        (abei.outputs.lookup amount).getD [] ++ outputsOf txs amount := by
  induction txs generalizing abei with
  | nil => simp [outputsOf]
  | cons tx rest inductionHypothesis =>
      obtain ⟨base, outputs⟩ := inductionHypothesis (updateAltOutIndexesForTxInBlock db abei tx)
      obtain ⟨baseHere, outputsHere⟩ : _ ∧
          ((updateAltOutIndexesForTxInBlock db abei tx).outputs.lookup amount).getD [] =
        _ := updateAltOutIndexesForTxInBlock_spec abei tx
      rw [List.foldl_cons, base, outputs, baseHere, outputsHere]
      simp [outputsOf]

/-- The previous table, moved on: each amount by the number of its outputs. -/
theorem shiftedLookupTable_spec {entries : List ((_ : UInt64) × List (TxOutV Hash Key))}
    {table shifted : AList fun _ : UInt64 => Nat} (distinct : entries.NodupKeys)
    (isShifted : shiftedLookupTable table entries = some shifted) (size : Nat) :
    (shifted.lookup amount).getD size =
      (table.lookup amount).getD size + ((entries.dlookup amount).getD []).length := by
  induction entries generalizing table with
  | nil =>
      cases isShifted
      simp
  | cons e rest inductionHypothesis =>
      obtain ⟨own, outs⟩ := e
      rw [List.nodupKeys_cons] at distinct
      unfold shiftedLookupTable at isShifted
      split at isShifted
      · cases isShifted
      · rename_i start known
        rw [inductionHypothesis distinct.2 isShifted]
        by_cases same : amount = own
        · subst same
          have onlyOnce : rest.dlookup amount = none := List.dlookup_eq_none.mpr distinct.1
          simp only [AList.lookup_insert, onlyOnce, known, List.dlookup_cons_eq, Option.getD_some,
            Option.getD_none, List.length_nil, Nat.add_zero]
        · have different : ¬own = amount := fun eq => same eq.symm
          rw [AList.lookup_insert_ne same, List.dlookup_cons_ne _ _ same]

theorem foldl_increments_spec {entries : List ((_ : UInt64) × Nat)}
    (gindexes : AList fun _ : UInt64 => Nat) (distinct : entries.NodupKeys) :
    ((entries.foldl (fun gindexes e => gindexes.insert e.1 ((gindexes.lookup e.1).getD 0 + e.2))
      gindexes).lookup
      amount).getD 0 = (gindexes.lookup amount).getD 0 + (entries.dlookup amount).getD 0 := by
  induction entries generalizing gindexes with
  | nil => simp
  | cons e rest inductionHypothesis =>
      obtain ⟨own, count⟩ := e
      rw [List.nodupKeys_cons] at distinct
      rw [List.foldl_cons, inductionHypothesis _ distinct.2]
      by_cases same : amount = own
      · subst same
        have onlyOnce : rest.dlookup amount = none := List.dlookup_eq_none.mpr distinct.1
        simp [onlyOnce]
      · rw [AList.lookup_insert_ne same, List.dlookup_cons_ne _ _ same]

/-- The size now less what has come since is the number of outputs below the height. -/
theorem backFromNow_spec {entries : List ((_ : UInt64) × Nat)}
    {gindexes : AList fun _ : UInt64 => Nat} (distinct : entries.NodupKeys)
    (isBack : backFromNow db entries = some gindexes) :
    (gindexes.lookup amount).getD (db.outputs amount).length =
      (db.outputs amount).length - (entries.dlookup amount).getD 0 := by
  induction entries generalizing gindexes with
  | nil =>
      cases isBack
      simp
  | cons e rest inductionHypothesis =>
      obtain ⟨own, count⟩ := e
      rw [List.nodupKeys_cons] at distinct
      unfold backFromNow at isBack
      split at isBack
      · cases isBack
      · obtain ⟨later, isLater, rfl⟩ := Option.map_eq_some_iff.mp isBack
        by_cases same : amount = own
        · subst same
          simp
        · rw [AList.lookup_insert_ne same, List.dlookup_cons_ne _ _ same]
          exact inductionHypothesis distinct.2 isLater

end Tables

section

variable [DecidableEq Hash] [DecidableEq KeyImage] {main : MainChain Hash KeyImage Key}
  {height : Nat} {amount : UInt64}

theorem incrementsFrom_spec :
    ((incrementsFrom main.db height).lookup amount).getD 0 =
      countOutputs (main.blocks.drop height) amount := by
  have summed :
      ∀ (blocks : List (FullBlock Hash KeyImage Key)) (gindexes : AList fun _ : UInt64 => Nat),
      ((((blocks.map FullBlock.increments).flatMap (·.entries)).foldl
        (fun gindexes e => gindexes.insert e.1 ((gindexes.lookup e.1).getD 0 + e.2))
          gindexes).lookup amount).getD 0 =
        (gindexes.lookup amount).getD 0 + countOutputs blocks amount := by
    intro blocks
    induction blocks with
    | nil => simp [countOutputs]
    | cons b rest inductionHypothesis =>
        intro gindexes
        have here : (b.increments.entries.dlookup amount).getD 0 = (b.outputsOf amount).length :=
          lookup_increments
        rw [List.map_cons, List.flatMap_cons, List.foldl_append, inductionHypothesis,
          foldl_increments_spec gindexes b.increments.nodupKeys, here]
        simp only [countOutputs, List.map_cons, List.sum_cons]
        omega
  rw [incrementsFrom, main.tablesOf.increments, ← List.map_drop]
  simpa using summed (main.blocks.drop height) ∅

omit [DecidableEq Hash] [DecidableEq KeyImage] in
theorem countOutputs_take_add_drop (blocks : List (FullBlock Hash KeyImage Key)) :
    countOutputs (blocks.take height) amount + countOutputs (blocks.drop height) amount =
      countOutputs blocks amount := by
  rw [← countOutputs_append, List.take_append_drop]

/-- The table at a height. -/
theorem calculateLocalGindexLookupTableForHeight_spec {gindexes : AList fun _ : UInt64 => Nat}
    (calculated : calculateLocalGindexLookupTableForHeight main.db height = some gindexes) :
    (gindexes.lookup amount).getD (main.db.outputs amount).length =
      countOutputs (main.blocks.take height) amount := by
  unfold calculateLocalGindexLookupTableForHeight at calculated
  split at calculated
  · cases calculated
  · have since : ((incrementsFrom main.db height).entries.dlookup amount).getD 0 = _ :=
      incrementsFrom_spec
    have parts : countOutputs (main.blocks.take height) amount +
        countOutputs (main.blocks.drop height) amount =
        countOutputs main.blocks amount := countOutputs_take_add_drop main.blocks
    rw [backFromNow_spec (incrementsFrom main.db height).nodupKeys calculated,
      main.length_outputs, since]
    omega

end

/-! ## Index bases -/

section Bases

variable [DecidableEq Hash] [DecidableEq KeyImage] {s s' : Node Hash KeyImage Key} {id : Hash}
  {abei : AltBlockExtendedInfo Hash KeyImage Key} {main : MainChain Hash KeyImage Key}
  {added : FullBlock Hash KeyImage Key}

/-- The outputs below an alternative block: in the main chain below the split, and in the
alternative blocks before it. -/
def Node.outputsBelow (s : Node Hash KeyImage Key) (abei : AltBlockExtendedInfo Hash KeyImage Key)
    (amount : UInt64) : Nat :=
  countOutputs (s.main.blocks.take (s.splitHeight abei)) amount +
    countAltOutputs (s.chainBefore abei) amount

/-- The indexes of every alternative block are right. -/
structure IndexesRight (s : Node Hash KeyImage Key) : Prop where
  linked : Linked s
  listed : ∀ id abei, s.altBlock id = some abei → ∀ amount,
    (abei.outputs.lookup amount).getD [] = abei.outputsOf amount
  bases : ∀ id abei, s.altBlock id = some abei → ∀ amount,
    abei.gindexBase s.main.db amount = s.outputsBelow abei amount

/-- Extensions of the main chain and additions of alternative blocks. -/
def Request.Grows : Request Hash KeyImage Key → Prop
  | .pushMain _ => True
  | .handleAlternativeBlock _ _ _ _ => True
  | _ => False

/-- The block brings no output of an amount that the table of an alternative block leaves out. -/
def AmountsKnown (s : Node Hash KeyImage Key) : Request Hash KeyImage Key → Prop
  | .pushMain b =>
      ∀ id abei, s.alternativeChains.lookup id = some abei → ∀ amount, b.outputsOf amount ≠ [] →
      (abei.gindexLookupTable.lookup amount).isSome
  | _ => True

theorem Linked.splitHeight_le (linked : Linked s) (isThere : s.altBlock id = some abei) :
    s.splitHeight abei ≤ s.main.blocks.length := by
  obtain ⟨-, front, rest, -, startsAt⟩ := linked.chainTo_starts isThere
  by_contra above
  have inMain := startsAt.inMain
  rw [s.main.tablesOf.same, List.getElem?_eq_none (by omega)] at inMain
  cases inMain

theorem Linked.outputsBelow_pushMain (linked : Linked s) (isThere : s.altBlock id = some abei)
    (pushed : s.main.push added = some main) (amount : UInt64) :
    { s with main }.outputsBelow abei amount = s.outputsBelow abei amount := by
  have within := linked.splitHeight_le isThere
  unfold Node.outputsBelow
  have sameSplit : { s with main }.splitHeight abei = s.splitHeight abei := rfl
  have sameChain : { s with main }.chainBefore abei = s.chainBefore abei := rfl
  rw [sameSplit, sameChain]
  dsimp only
  rw [MainChain.push_blocks pushed, List.take_append_of_le_length within]

theorem length_outputs_push (pushed : s.main.push added = some main) (amount : UInt64) :
    (main.db.outputs amount).length =
      (s.main.db.outputs amount).length + (added.outputsOf amount).length := by
  rw [main.length_outputs, s.main.length_outputs, MainChain.push_blocks pushed, countOutputs_append]
  simp [countOutputs]

/-- A block that joins the main chain keeps the indexes right just if it brings no output of an
unknown amount. -/
theorem IndexesRight.pushMain_iff (right : IndexesRight s)
    (pushed : s.main.push added = some main) :
    IndexesRight { s with main } ↔ AmountsKnown s (.pushMain added) := by
  constructor
  · intro right' id abei isThere amount brings
    cases known : abei.gindexLookupTable.lookup amount with
    | some start => rfl
    | none =>
        have now := right.bases id abei isThere amount
        have after := right'.bases id abei isThere amount
        rw [right.linked.outputsBelow_pushMain isThere pushed,
          AltBlockExtendedInfo.gindexBase, known, Option.getD_none,
          length_outputs_push pushed] at after
        rw [AltBlockExtendedInfo.gindexBase, known, Option.getD_none] at now
        have positive := List.length_pos_iff.mpr brings
        omega
  · intro known
    refine ⟨right.linked.pushMain pushed, right.listed, fun id abei isThere amount => ?_⟩
    rw [right.linked.outputsBelow_pushMain isThere pushed, ← right.bases id abei isThere amount]
    unfold AltBlockExtendedInfo.gindexBase
    cases isKnown : abei.gindexLookupTable.lookup amount with
    | some start => rfl
    | none =>
        have nothing : added.outputsOf amount = [] := by
          by_contra brings
          have isSome_ := known id abei isThere amount brings
          rw [isKnown] at isSome_
          cases isSome_
        rw [Option.getD_none, Option.getD_none, length_outputs_push pushed, nothing]
        rfl

section

variable {env : Environment Hash KeyImage Key} {b : Block Hash KeyImage Key}
  {altChain : AltChain Hash KeyImage Key} {height splitHeight : Nat} {collected : List KeyImage}

omit [DecidableEq KeyImage] in
theorem countAltOutputs_append {altChain later : AltChain Hash KeyImage Key} {amount : UInt64} :
    countAltOutputs (altChain ++ later) amount =
      countAltOutputs altChain amount + countAltOutputs later amount := by
  simp only [countAltOutputs, List.map_append, List.sum_append]

/-- The table that a block starts with is right: that of the previous block has been moved on by the
outputs of that block, and the first block has the table at the split. -/
theorem IndexesRight.initialLookupTable_spec (right : IndexesRight s)
    (accepted : Accepted env s s' b id altChain height splitHeight collected abei)
    (isNew : mainHeight s.main.db id = none) {table : AList fun _ : UInt64 => Nat}
    (isTable : initialLookupTable s.main.db altChain splitHeight = some table) (amount : UInt64) :
    (table.lookup amount).getD (s.main.db.outputs amount).length = s'.outputsBelow abei amount := by
  have follows := right.linked.follows_of_accepted accepted
  have chain : altChain = s.chainBefore abei := by
    rw [accepted.chain, Node.chainBefore, accepted.bl]
    rfl
  obtain ⟨sameChain, sameSplit⟩ := right.linked.chainBefore_accepted accepted isNew follows
  have isSplit := right.linked.splitHeight_of_accepted accepted isNew
  have sameMain : s'.main = s.main := by rw [accepted.result]
  rw [Node.outputsBelow, sameMain, sameChain, isSplit]
  rw [chain] at isTable
  cases follows with
  | alternative prev prevThere higher =>
      have beforeAbei : s.chainBefore abei = s.chainBefore prev ++ [(abei.bl.prevId, prev)] :=
        right.linked.chainTo_eq prevThere
      have prevSplit : s.splitHeight prev = splitHeight := by
        rw [← isSplit, sameSplit, Node.splitHeight, Node.splitHeight, beforeAbei,
          List.length_append, List.length_singleton]
        omega
      have base := right.bases _ prev prevThere amount
      have outputs := right.listed _ prev prevThere amount
      rw [initialLookupTable, beforeAbei, List.getLast?_concat] at isTable
      have shifted : _ = _ + ((prev.outputs.lookup amount).getD []).length :=
        shiftedLookupTable_spec prev.outputs.nodupKeys isTable (s.main.db.outputs amount).length
      rw [AltBlockExtendedInfo.gindexBase] at base
      rw [beforeAbei, countAltOutputs_append, shifted, base, outputs, Node.outputsBelow, prevSplit]
      simp only [countAltOutputs, List.map_singleton, List.sum_singleton]
      omega
  | main prevMissing height inMain higher =>
      have nothing : s.chainBefore abei = [] := chainTo_of_none prevMissing
      rw [nothing] at isTable ⊢
      exact calculateLocalGindexLookupTableForHeight_spec isTable

theorem IndexesRight.accepted (right : IndexesRight s)
    (accepted : Accepted env s s' b id altChain height splitHeight collected abei)
    (isNew : mainHeight s.main.db id = none) : IndexesRight s' := by
  have sameMain : s'.main = s.main := by rw [accepted.result]
  obtain ⟨table, isTable, before, startsAt, noOutputs, folded⟩ := accepted.indexes
  have folds : ∀ amount, abei.gindexBase s.main.db amount = before.gindexBase s.main.db amount ∧
      (abei.outputs.lookup amount).getD [] = abei.outputsOf amount := by
    intro amount
    obtain ⟨base, outputs⟩ : _ = before.gindexBase s.main.db amount ∧ _ :=
      foldl_updateAltOutIndexes_spec before abei.transactions
    rw [← folded, noOutputs] at outputs
    rw [← folded] at base
    exact ⟨base, outputs⟩
  have kept : ∀ {other abei'}, s'.altBlock other = some abei' →
      (other = id ∧ abei' = abei) ∨ s.altBlock other = some abei' := by
    intro other abei' isThere
    rw [accepted.altBlock] at isThere
    by_cases same : other = id
    · subst same
      rw [Function.update_self] at isThere
      cases isThere
      exact .inl ⟨rfl, rfl⟩
    · rw [Function.update_of_ne same] at isThere
      exact .inr isThere
  refine ⟨right.linked.accepted accepted isNew, fun other abei' isThere amount => ?_,
    fun other abei' isThere amount => ?_⟩
  · rcases kept isThere with ⟨-, rfl⟩ | wasThere
    · exact (folds amount).2
    · exact right.listed other abei' wasThere amount
  · rw [sameMain]
    rcases kept isThere with ⟨-, rfl⟩ | wasThere
    · rw [(folds amount).1, AltBlockExtendedInfo.gindexBase, startsAt]
      exact right.initialLookupTable_spec accepted isNew isTable amount
    · obtain ⟨sameChain, sameSplit⟩ :=
        right.linked.chainBefore_accepted accepted isNew (right.linked other abei' wasThere)
      rw [right.bases other abei' wasThere amount, Node.outputsBelow, Node.outputsBelow, sameMain,
        sameChain, sameSplit]

end

theorem indexesRight_step {request : Request Hash KeyImage Key} (right : IndexesRight s)
    (grows : request.Grows) (known : AmountsKnown s request)
    (stepped : step s request = some s') : IndexesRight s' := by
  cases request with
  | pushMain b =>
      obtain ⟨main, pushed, rfl⟩ := Option.map_eq_some_iff.mp stepped
      exact (right.pushMain_iff pushed).mpr known
  | handleAlternativeBlock env b id onboard =>
      obtain ⟨isNew, altChain, height, splitHeight, collected, abei, accepted, -⟩ :=
        accepted_of_step stepped
      exact right.accepted accepted isNew
  | popMain => cases grows
  | eraseAltblock => cases grows
  | pruneAgedAltBlocks => cases grows
  | clearAltblocks => cases grows

theorem indexesRight_start (main : MainChain Hash KeyImage Key) : IndexesRight (start main) := by
  have nothing : ∀ id abei, (start main).altBlock id ≠ some abei := by
    intro id abei isThere
    cases isThere
  exact ⟨fun id abei isThere => absurd isThere (nothing id abei),
    fun id abei isThere => absurd isThere (nothing id abei), fun id abei isThere =>
      absurd isThere (nothing id abei)⟩

end Bases

/-! ## References -/

section References

variable [DecidableEq Hash] [DecidableEq KeyImage] {s : Node Hash KeyImage Key} {id : Hash}
  {abei : AltBlockExtendedInfo Hash KeyImage Key} {amount : UInt64} {i : Nat}

/-- A block of the main chain that is this alternative block. -/
structure IsAltBlock (e : Hash × AltBlockExtendedInfo Hash KeyImage Key)
    (b : FullBlock Hash KeyImage Key) : Prop where
  id : b.id = e.1
  bl : b.bl = e.2.bl
  contents : b.contents = e.2.transactions

/-- The main chain that an alternative chain makes: what lies below the split, and its blocks. -/
def MadeMain (s : Node Hash KeyImage Key) (altChain : AltChain Hash KeyImage Key)
    (splitHeight : Nat) (blocks : List (FullBlock Hash KeyImage Key)) : Prop :=
  ∃ alts, blocks = s.main.blocks.take splitHeight ++ alts ∧ List.Forall₂ IsAltBlock altChain alts

omit [DecidableEq KeyImage] in
theorem countOutputs_alts {altChain : AltChain Hash KeyImage Key}
    {alts : List (FullBlock Hash KeyImage Key)} (areAlts : List.Forall₂ IsAltBlock altChain alts) :
    countOutputs alts amount = countAltOutputs altChain amount := by
  induction areAlts with
  | nil => rfl
  | cons isAlt _ inductionHypothesis =>
      simp only [countOutputs, countAltOutputs, List.map_cons, List.sum_cons, FullBlock.outputsOf,
        AltBlockExtendedInfo.outputsOf, isAlt.contents] at inductionHypothesis ⊢
      omega

/-- What is below the split in the main chain is where it is in the chain that is made main. -/
theorem located_below_split {splitHeight : Nat} {out : TxOutV Hash Key} {height : Nat}
    {alts : List (FullBlock Hash KeyImage Key)}
    (isThere : (located amount 0 s.main.blocks)[i]? = some (out, height))
    (below : height < splitHeight) :
    (located amount 0 (s.main.blocks.take splitHeight ++ alts))[i]? = some (out, height) := by
  rw [← List.take_append_drop splitHeight s.main.blocks, located_append, Nat.zero_add] at isThere
  rw [located_append]
  by_cases inside : i < (located amount 0 (s.main.blocks.take splitHeight)).length
  · rw [List.getElem?_append_left inside] at isThere ⊢
    exact isThere
  · exfalso
    rw [List.getElem?_append_right (by omega)] at isThere
    have fromThere := List.mem_of_getElem? isThere
    simp only [located, List.mem_flatMap, List.mem_map] at fromThere
    obtain ⟨e, isBlock, _, _, same⟩ := fromThere
    cases same
    obtain ⟨above, -⟩ := List.mem_zipIdx isBlock
    have long : splitHeight ≤ s.main.blocks.length := by
      by_contra short
      rw [List.drop_eq_nil_of_le (by omega)] at isBlock
      cases isBlock
    rw [List.length_take] at above
    omega

theorem IndexesRight.forall₂_chainTo (right : IndexesRight s) (isThere : s.altBlock id = some abei)
    {alts : List (FullBlock Hash KeyImage Key)}
    (areAlts : List.Forall₂ IsAltBlock (s.chainTo id) alts) :
    ∃ before last, alts = before ++ [last] ∧ List.Forall₂ IsAltBlock (s.chainBefore abei) before ∧
      IsAltBlock (id, abei) last := by
  rw [right.linked.chainTo_eq isThere] at areAlts
  have areBefore := List.forall₂_take (s.chainBefore abei).length areAlts
  have areLast := List.forall₂_drop (s.chainBefore abei).length areAlts
  rw [List.take_left] at areBefore
  rw [List.drop_left] at areLast
  obtain ⟨last, rest, isLast, none_, lasts⟩ := List.forall₂_cons_left_iff.mp areLast
  cases none_
  exact ⟨_, last, by rw [← lasts, List.take_append_drop], areBefore, isLast⟩

/-- An output that the search finds in an alternative block is where its global index says in the
chain that is made main. -/
theorem IndexesRight.findInAltChain_spec (right : IndexesRight s) {isFirst : Bool}
    {out : TxOutV Hash Key} {height : Nat} (isThere : s.altBlock id = some abei)
    (found : findInAltChain amount i isFirst ((s.chainTo id).map (·.2)).reverse =
      some (some (out, height)))
    {alts : List (FullBlock Hash KeyImage Key)}
    (areAlts : List.Forall₂ IsAltBlock (s.chainTo id) alts) :
    (located amount 0 (s.main.blocks.take (s.splitHeight abei) ++ alts))[i]? =
      some (out, height) := by
  revert isFirst alts
  refine right.linked.induct (P := fun id abei => ∀ {isFirst : Bool},
    findInAltChain amount i isFirst ((s.chainTo id).map (·.2)).reverse = some (some (out, height)) →
    ∀ {alts : List (FullBlock Hash KeyImage Key)}, List.Forall₂ IsAltBlock (s.chainTo id) alts →
      (located amount 0 (s.main.blocks.take (s.splitHeight abei) ++ alts))[i]? = some (out, height))
    (fun id abei isThere before isFirst found alts areAlts => ?_) isThere
  obtain ⟨beforeAlts, last, rfl, areBefore, isLast⟩ := right.forall₂_chainTo isThere areAlts
  obtain ⟨above, -⟩ := right.linked.chainTo_starts isThere
  have within := right.linked.splitHeight_le isThere
  have base := right.bases id abei isThere amount
  rw [right.linked.chainTo_eq isThere, List.map_append, List.reverse_append, List.map_singleton,
    List.reverse_singleton, List.singleton_append, findInAltChain] at found
  rw [← List.append_assoc, located_append]
  have size : (located amount 0 (s.main.blocks.take (s.splitHeight abei) ++ beforeAlts)).length =
      s.outputsBelow abei amount := by
    rw [length_located, countOutputs_append, countOutputs_alts areBefore, Node.outputsBelow]
  cases known : abei.gindexLookupTable.lookup amount with
  | none =>
      rw [known] at found
      cases isFirst <;> cases found
  | some start =>
      rw [known] at found
      dsimp only at found
      rw [AltBlockExtendedInfo.gindexBase, known, Option.getD_some, ← size] at base
      split at found
      · rename_i fromHere
        have lastHeight :
            0 + (s.main.blocks.take (s.splitHeight abei) ++ beforeAlts).length = abei.height := by
          rw [List.length_append, List.length_take, ← areBefore.length_eq, above]
          omega
        rw [List.getElem?_append_right (by omega), lastHeight, ← base]
        rw [right.listed id abei isThere amount] at found
        have sameOutputs : last.outputsOf amount = abei.outputsOf amount := by
          rw [FullBlock.outputsOf, isLast.contents, AltBlockExtendedInfo.outputsOf]
        simp only [located, List.zipIdx_singleton, List.flatMap_singleton, sameOutputs,
          List.getElem?_map]
        split at found
        · cases found
        · rename_i isOut
          cases found
          rw [isOut]
          rfl
      · rw [List.getElem?_append_left (by omega)]
        cases right.linked id abei isThere with
        | alternative prev prevThere higher =>
            have sameSplit : s.splitHeight abei = s.splitHeight prev := by
              rw [Node.splitHeight, Node.splitHeight, Node.chainBefore,
                right.linked.chainTo_eq prevThere, List.length_append, List.length_singleton]
              omega
            rw [sameSplit]
            exact before prev prevThere found areBefore
        | main notThere _ _ _ =>
            rw [Node.chainBefore, chainTo_of_none notThere] at found
            cases found

/-- The chain that a block is added to, and the height where it leaves the main chain. -/
theorem Linked.splitHeight_of_connect (linked : Linked s) {prevId : Hash}
    {prev : AltBlockExtendedInfo Hash KeyImage Key} {height splitHeight : Nat}
    (isThere : s.altBlock prevId = some prev)
    (connected : connect s.main.db (s.chainTo prevId) prevId = some (height, splitHeight)) :
    splitHeight = s.splitHeight prev := by
  obtain ⟨-, front, rest, starts, startsAt⟩ := linked.chainTo_starts isThere
  unfold connect at connected
  rw [linked.chainTo_eq isThere, List.getLast?_concat, ← linked.chainTo_eq isThere,
    starts] at connected
  dsimp only at connected
  split at connected
  · cases connected
    exact startsAt.height
  · cases connected

omit [DecidableEq Hash] [DecidableEq KeyImage] in
/-- An output of the main chain is found where a scan finds it, and below the split. -/
theorem lookupMainOutput_eq_some {env : Environment Hash KeyImage Key}
    {db : MainTables Hash KeyImage Key} {height splitHeight mixins sourceHeight : Nat}
    {source : Blockchain.GlobalOutputEntry Hash} {out : TxOutV Hash Key}
    (found : lookupMainOutput env db height splitHeight mixins source = some (out, sourceHeight)) :
    db.scanOutput source = some (out, sourceHeight) ∧ sourceHeight < splitHeight := by
  unfold lookupMainOutput at found
  unfold MainTables.scanOutput
  cases isTransaction : db.transactions source.txId with
  | none =>
      rw [isTransaction] at found
      cases found
  | some p =>
      rw [isTransaction] at found
      dsimp only at found
      cases isOut : p.tx.vout[source.outNo]? with
      | none =>
          rw [isOut] at found
          cases found
      | some there =>
          rw [isOut] at found
          obtain ⟨⟨-, -, below⟩, same⟩ := Option.ite_none_right_eq_some.mp found
          cases same
          exact ⟨by simp [isOut], below⟩

omit [DecidableEq KeyImage] in
/-- What `resolveReference` makes of a global index. -/
theorem resolveReference_globalIndex {env : Environment Hash KeyImage Key}
    {db : MainTables Hash KeyImage Key} {altChain : AltChain Hash KeyImage Key}
    {splitHeight mixins : Nat} {input : TxinV Hash KeyImage} {out : TxOutV Hash Key}
    {fromMain : Option Nat}
    (resolved : resolveReference env db altChain splitHeight input amount mixins (.globalIndex i) =
      some (out, fromMain)) :
    (amountTouchedAltchain altChain amount = true ∧ ∃ height,
        findInAltChain amount i true (altChain.map (·.2)).reverse = some (some (out, height))) ∨
      ∃ height, db.scanGlobalIndex amount i = some (out, height) ∧ height < splitHeight := by
  have ofMain : ∀ {height : Nat} {source}, (db.outputs amount)[i]? = some source →
      ((lookupMainOutput env db height splitHeight mixins source).bind fun found =>
        if isOutputAllowedForInput found.1 input then some (found.1, some found.2) else none) =
          some (out, fromMain) →
      ∃ height, db.scanGlobalIndex amount i = some (out, height) ∧ height < splitHeight := by
    intro height source isSource resolved
    obtain ⟨⟨out', sourceHeight⟩, found, allowed⟩ := Option.bind_eq_some_iff.mp resolved
    obtain ⟨-, same⟩ := Option.ite_none_right_eq_some.mp allowed
    cases same
    obtain ⟨scanned, below⟩ := lookupMainOutput_eq_some found
    exact ⟨sourceHeight, by rw [MainTables.scanGlobalIndex, isSource, Option.bind_some, scanned],
      below⟩
  unfold resolveReference resolveGlobalIndex at resolved
  dsimp only at resolved
  cases isSource : (db.outputs amount)[i]? with
  | none =>
      rw [isSource] at resolved
      by_cases touched : amountTouchedAltchain altChain amount
      · rw [if_pos touched] at resolved
        rcases found :
          findInAltChain amount i true (altChain.map (·.2)).reverse with _ | _ | ⟨there, height⟩
        · rw [found] at resolved
          cases resolved
        · rw [found] at resolved
          cases resolved
        · rw [found] at resolved
          obtain ⟨-, same⟩ := Option.ite_none_right_eq_some.mp resolved
          cases same
          exact .inl ⟨touched, height, found⟩
      · rw [if_neg touched, Option.map_none, ite_self] at resolved
        cases resolved
  | some source =>
      rw [isSource] at resolved
      by_cases touched : amountTouchedAltchain altChain amount
      · rw [if_pos touched] at resolved
        rcases found :
          findInAltChain amount i true (altChain.map (·.2)).reverse with _ | _ | ⟨there, height⟩
        · rw [found] at resolved
          cases resolved
        · rw [found] at resolved
          exact .inr (ofMain isSource resolved)
        · rw [found] at resolved
          obtain ⟨-, same⟩ := Option.ite_none_right_eq_some.mp resolved
          cases same
          exact .inl ⟨touched, height, found⟩
      · rw [if_neg touched, if_pos (List.getElem?_eq_some_iff.mp isSource).1] at resolved
        exact .inr (ofMain isSource resolved)

/-- A global index that is resolved on top of an alternative chain denotes what it would denote if
that chain were the main chain. -/
theorem IndexesRight.resolveReference_spec (right : IndexesRight s)
    {env : Environment Hash KeyImage Key} {prevId : Hash} {height splitHeight mixins : Nat}
    {input : TxinV Hash KeyImage} {out : TxOutV Hash Key} {fromMain : Option Nat}
    {main : MainChain Hash KeyImage Key}
    (connected : connect s.main.db (s.chainTo prevId) prevId = some (height, splitHeight))
    (resolved : resolveReference env s.main.db (s.chainTo prevId) splitHeight input amount mixins
      (.globalIndex i) =
      some (out, fromMain))
    (made : MadeMain s (s.chainTo prevId) splitHeight main.blocks) :
    ∃ sourceHeight, main.db.scanGlobalIndex amount i = some (out, sourceHeight) := by
  obtain ⟨alts, blocks, areAlts⟩ := made
  rw [main.scanGlobalIndex_eq, blocks]
  rcases resolveReference_globalIndex resolved with
    ⟨touched, sourceHeight, found⟩ | ⟨sourceHeight, scanned, below⟩
  · cases prevThere : s.altBlock prevId with
    | none =>
        rw [chainTo_of_none prevThere] at touched
        cases touched
    | some prev =>
        rw [right.linked.splitHeight_of_connect prevThere connected]
        exact ⟨sourceHeight, right.findInAltChain_spec prevThere found areAlts⟩
  · rw [s.main.scanGlobalIndex_eq] at scanned
    exact ⟨sourceHeight, located_below_split scanned below⟩

/-- In every state of a run that extends the main chain and adds alternative blocks, as long as the
main chain gets no output of an amount that the table of an alternative block leaves out: the index
bases of every alternative block are the numbers of outputs below it, and every global index that is
resolved on top of an alternative chain denotes the output that it would denote if that chain were
the main chain. -/
theorem alt_output_indexes_right (main : MainChain Hash KeyImage Key)
    (requests : List (Request Hash KeyImage Key)) (final : Node Hash KeyImage Key)
    (ran : run step (start main) requests = some final)
    (grows : ∀ request ∈ requests, request.Grows)
    (known : Guarded step AmountsKnown (start main) requests) :
    (∀ id abei, final.alternativeChains.lookup id = some abei → ∃ splitHeight,
      connect final.main.db (altChainOf final.alternativeChains abei.bl.prevId) abei.bl.prevId =
          some (abei.height, splitHeight) ∧
        ∀ amount, (abei.gindexLookupTable.lookup amount).getD
          (final.main.db.outputs amount).length =
          countOutputs (final.main.blocks.take splitHeight) amount +
            countAltOutputs (altChainOf final.alternativeChains abei.bl.prevId) amount) ∧
      ∀ (env : Environment Hash KeyImage Key) (prevId : Hash) (height splitHeight : Nat)
        (input : TxinV Hash KeyImage) (amount : UInt64) (mixins i : Nat) (out : TxOutV Hash Key)
        (fromMain : Option Nat) (madeMain : MainChain Hash KeyImage Key),
        connect final.main.db (altChainOf final.alternativeChains prevId) prevId =
          some (height, splitHeight) →
        resolveReference env final.main.db (altChainOf final.alternativeChains prevId) splitHeight
          input amount mixins
          (.globalIndex i) = some (out, fromMain) →
        MadeMain final (altChainOf final.alternativeChains prevId) splitHeight madeMain.blocks →
        ∃ sourceHeight, madeMain.db.scanGlobalIndex amount i = some (out, sourceHeight) := by
  have both : Guarded step (fun s request => request.Grows ∧
      AmountsKnown s request) (start main) requests := by
    have always : Guarded step (fun _ request => request.Grows) (start main) requests :=
      guarded_of_forall_mem fun request inside _ => grows request inside
    exact always.and known
  have preserved : ∀ (s : Node Hash KeyImage Key) request next, IndexesRight s →
      request.Grows ∧ AmountsKnown s request → step s request = some next → IndexesRight next :=
    fun _ _ _ right meets => indexesRight_step right meets.1 meets.2
  have right : IndexesRight final := invariant_of_run preserved (indexesRight_start main) both ran
  constructor
  · intro id abei isThere
    exact ⟨final.splitHeight abei, right.linked.connect_eq isThere, right.bases id abei isThere⟩
  · intro env prevId height splitHeight input amount mixins i out fromMain madeMain connected
      resolved made
    exact right.resolveReference_spec connected resolved made

end References

/-! ## An amount that the main chain gets later -/

section Concrete

/-- A block of the main chain whose miner transaction has one output. -/
def mainBlock (id prevId height : Nat) (amount : UInt64) : FullBlock Nat Nat Unit where
  id := id
  bl :=
    { prevId := prevId
      posFlag := false
      minerTx := ⟨[.gen height], [.bareToKey amount ()]⟩
      txHashes := [] }
  minerTxId := 100 + id
  transactions := []

def altBlock (id prevId height : Nat) (amount : UInt64) : Request Nat Nat Unit :=
  .handleAlternativeBlock (trusting nowhere id) (mainBlock id prevId height amount).bl id ∅

def knownAmounts : List (Request Nat Nat Unit) :=
  [.pushMain (mainBlock 1 0 1 7), altBlock 11 0 1 7, .pushMain (mainBlock 2 1 2 7),
    altBlock 12 11 2 7]

/-- The main chain that the first of the alternative blocks makes. -/
def genesisAndAlt : MainChain Nat Nat Unit where
  blocks := [genesisBlock, mainBlock 11 0 1 7]
  db := ((genesisOnly.db.pushBlock (mainBlock 11 0 1 7)).getD .empty)
  built := rfl

theorem knownAmounts_known : Guarded step AmountsKnown (start genesisOnly) knownAmounts := by
  refine ⟨fun id abei isThere => (by cases isThere), fun next stepped => ?_⟩
  cases stepped
  refine ⟨trivial, fun next stepped => ?_⟩
  cases stepped
  refine ⟨?_, fun next stepped => ?_⟩
  · intro id abei isThere amount brings
    have isId : id = 11 := by
      by_contra other
      rw [AList.lookup_insert_ne other] at isThere
      cases isThere
    subst isId
    cases isThere
    have isAmount : amount = 7 := by
      by_contra other
      have different : (7 : UInt64) ≠ amount := fun eq => other eq.symm
      apply brings
      simp [FullBlock.outputsOf, outputsOf, FullBlock.contents,
        FullBlock.allTransactions, mainBlock,
        Transaction.outputsOf, TxOutV.indexedAmount, different]
    subst isAmount
    rfl
  · cases stepped
    exact ⟨trivial, fun _ _ => trivial⟩

theorem alt_output_indexes_right_known :
    ∃ final, run step (start genesisOnly) knownAmounts = some final ∧
    (∃ abei, final.alternativeChains.lookup 12 = some abei ∧ abei.height = 2 ∧
      (abei.gindexLookupTable.lookup 7).getD (final.main.db.outputs 7).length = 1 ∧ ∃ splitHeight,
        connect final.main.db (altChainOf final.alternativeChains 11) 11 = some (2, splitHeight) ∧
        ∀ amount, (abei.gindexLookupTable.lookup amount).getD
          (final.main.db.outputs amount).length =
          countOutputs (final.main.blocks.take splitHeight) amount +
            countAltOutputs (altChainOf final.alternativeChains 11) amount) ∧
    resolveReference (trusting nowhere 0) final.main.db (altChainOf final.alternativeChains 11) 1
      (.toKey 7 [] 42) 7 0
      (.globalIndex 0) = some (.bareToKey 7 (), none) ∧
    ∃ sourceHeight,
      genesisAndAlt.db.scanGlobalIndex 7 0 = some (.bareToKey 7 (), sourceHeight) := by
  obtain ⟨bases, references⟩ := alt_output_indexes_right genesisOnly knownAmounts _ rfl
    (by simp [knownAmounts, altBlock, Request.Grows]) knownAmounts_known
  refine ⟨_, rfl, ⟨_, rfl, rfl, rfl, bases 12 _ rfl⟩, rfl, ?_⟩
  exact references (trusting nowhere 0) 11 2 1 (.toKey 7 [] 42) 7 0 0 _ _ genesisAndAlt rfl rfl
    ⟨[mainBlock 11 0 1 7], rfl, .cons ⟨rfl, rfl, rfl⟩ .nil⟩

/-- An alternative block is added, and the main chain gets the first output of an amount after that:
the amount starts at one in the alternative block, although there is no such output below it. -/
theorem alt_output_indexes_wrong : ∃ final,
    run step (start genesisOnly)
      [.pushMain (mainBlock 1 0 1 5), altBlock 11 0 1 5, .pushMain (mainBlock 2 1 2 7)] =
      some final ∧
    ∃ abei, final.alternativeChains.lookup 11 = some abei ∧
      connect final.main.db (altChainOf final.alternativeChains 0) 0 = some (1, 1) ∧
        abei.bl.prevId = 0 ∧
      (abei.gindexLookupTable.lookup 7).getD (final.main.db.outputs 7).length = 1 ∧
      countOutputs (final.main.blocks.take 1) 7 +
        countAltOutputs (altChainOf final.alternativeChains 0) 7 = 0 := by
  exact ⟨_, rfl, _, rfl, rfl, rfl, rfl, rfl⟩

end Concrete

end Zano.AltBlocks
