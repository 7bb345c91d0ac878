import Mathlib
import Zano.AltBlocks.GlobalIndexes

/-! # What the main chain has spent

The tables of the main chain mark every key image with the height at which it is spent, and every
multisig output with that height as far as 32 bits hold it. A height that is zero there reads as
unspent, so the marks of the multisig outputs say something of heights that are no multiple of `2 ^
32`.
-/

namespace Zano.AltBlocks

variable {Hash KeyImage Key : Type*}

def FullBlock.keyImages (b : FullBlock Hash KeyImage Key) : List KeyImage :=
  b.contents.flatMap Transaction.keyImages

def FullBlock.multisigIds (b : FullBlock Hash KeyImage Key) : List Hash :=
  b.contents.flatMap Transaction.multisigIds

/-- A list of blocks with the height of each. -/
def atHeights {α : Type*} (f : FullBlock Hash KeyImage Key → List α)
    (blocks : List (FullBlock Hash KeyImage Key)) :
    List (α × Nat) :=
  blocks.zipIdx.flatMap fun e => (f e.1).map fun a => (a, e.2)

theorem atHeights_concat {α : Type*} {f : FullBlock Hash KeyImage Key → List α}
    {blocks : List (FullBlock Hash KeyImage Key)} {b : FullBlock Hash KeyImage Key} :
    atHeights f (blocks ++ [b]) = atHeights f blocks ++ (f b).map fun a => (a, blocks.length) := by
  rw [atHeights, List.zipIdx_append, List.flatMap_append, Nat.zero_add, List.zipIdx_singleton,
    List.flatMap_singleton]
  rfl

theorem mem_atHeights {α : Type*} {f : FullBlock Hash KeyImage Key → List α}
    {blocks : List (FullBlock Hash KeyImage Key)} {a : α} {height : Nat} :
    (a, height) ∈ atHeights f blocks ↔ ∃ b, blocks[height]? = some b ∧ a ∈ f b := by
  simp only [atHeights, List.mem_flatMap, List.mem_map]
  constructor
  · rintro ⟨⟨b, h⟩, isBlock, a', inside, same⟩
    cases same
    exact ⟨b, List.mem_zipIdx_iff_getElem?.mp isBlock, inside⟩
  · rintro ⟨b, isBlock, inside⟩
    exact ⟨(b, height), List.mem_zipIdx_iff_getElem?.mpr isBlock, a, inside, rfl⟩

theorem map_fst_atHeights {α : Type*} {f : FullBlock Hash KeyImage Key → List α}
    {blocks : List (FullBlock Hash KeyImage Key)} :
    (atHeights f blocks).map (·.1) = blocks.flatMap f := by
  induction blocks using List.reverseRecOn with
  | nil => rfl
  | append_singleton blocks b inductionHypothesis =>
      rw [atHeights_concat, List.map_append, inductionHypothesis, List.flatMap_append,
        List.flatMap_singleton, List.map_map]
      congr 1
      exact List.map_id _

/-- The key images and multisig outputs that are spent, each with its height, and their marks. -/
structure Marks (db : MainTables Hash KeyImage Key) (kis : List (KeyImage × Nat))
    (multisigs : List (Hash × Nat)) :
    Prop where
  keyImages : ∀ e ∈ kis, db.spentKeys e.1 = some e.2
  distinctKeyImages : (kis.map (·.1)).Nodup
  multisigOuts : (∀ e ∈ multisigs, e.2 % 2 ^ 32 ≠ 0) →
    (∀ e ∈ multisigs, ∃ p, db.multisigOuts e.1 = some p ∧ p.spentHeight = e.2 % 2 ^ 32) ∧
      (multisigs.map (·.1)).Nodup

section Pushing

variable [DecidableEq Hash] [DecidableEq KeyImage] {db db' : MainTables Hash KeyImage Key}
  {height : Nat} {kis : List (KeyImage × Nat)} {multisigs : List (Hash × Nat)}

omit [DecidableEq Hash] in
theorem Marks.spendKeyImage {ki : KeyImage} (marks : Marks db kis multisigs)
    (pushed : MainTables.pushInput.spendKeyImage height db ki = some db') :
    Marks db' (kis ++ [(ki, height)]) multisigs := by
  unfold MainTables.pushInput.spendKeyImage at pushed
  split at pushed
  · cases pushed
  · rename_i isNew
    cases pushed
    have notThere : ki ∉ kis.map (·.1) := by
      intro inside
      obtain ⟨e, isThere, rfl⟩ := List.mem_map.mp inside
      rw [marks.keyImages e isThere] at isNew
      cases isNew
    refine ⟨?_, ?_, marks.multisigOuts⟩
    · intro e inside
      rcases List.mem_append.mp inside with before | last
      · have different : e.1 ≠ ki := fun same => notThere (same ▸ List.mem_map_of_mem before)
        simpa only [Function.update_of_ne different] using marks.keyImages e before
      · rcases List.mem_singleton.mp last with rfl
        exact Function.update_self _ _ _
    · rw [List.map_append, List.map_singleton, ← List.concat_eq_append]
      exact marks.distinctKeyImages.concat notThere

omit [DecidableEq KeyImage] in
theorem Marks.spendMultisig {id : Hash} {msoe : Blockchain.MsOutputEntry Hash} (height : Nat)
    (marks : Marks db kis multisigs)
    (isThere : db.multisigOuts id = some msoe) (unspent : msoe.spentHeight = 0) :
    Marks
      { db with
        multisigOuts := Function.update db.multisigOuts id
          (some { msoe with spentHeight := height % 2 ^ 32 }) }
      kis (multisigs ++ [(id, height)]) := by
  refine ⟨marks.keyImages, marks.distinctKeyImages, fun heights => ?_⟩
  obtain ⟨marked, distinct⟩ :=
    marks.multisigOuts fun e inside => heights e (List.mem_append_left _ inside)
  have notThere : id ∉ multisigs.map (·.1) := by
    intro inside
    obtain ⟨e, isSpent, rfl⟩ := List.mem_map.mp inside
    obtain ⟨p, isMarked, spentHeight⟩ := marked e isSpent
    rw [isThere] at isMarked
    cases isMarked
    have positive := heights e (List.mem_append_left _ isSpent)
    omega
  constructor
  · intro e inside
    rcases List.mem_append.mp inside with before | last
    · have different : e.1 ≠ id := fun same => notThere (same ▸ List.mem_map_of_mem before)
      obtain ⟨p, isMarked, spentHeight⟩ := marked e before
      exact ⟨p, by simpa only [Function.update_of_ne different] using isMarked, spentHeight⟩
    · rcases List.mem_singleton.mp last with rfl
      exact ⟨_, Function.update_self _ _ _, rfl⟩
  · rw [List.map_append, List.map_singleton, ← List.concat_eq_append]
    exact distinct.concat notThere

theorem Marks.pushInput {input : TxinV Hash KeyImage} (marks : Marks db kis multisigs)
    (pushed : db.pushInput height input = some db') :
    Marks db' (kis ++ input.keyImage.toList.map fun ki => (ki, height))
      (multisigs ++ input.multisigId.toList.map fun id => (id, height)) := by
  cases input with
  | gen =>
      cases pushed
      simpa [TxinV.keyImage, TxinV.multisigId] using marks
  | htlc => cases pushed
  | gateway =>
      cases pushed
      simpa [TxinV.keyImage, TxinV.multisigId] using marks
  | toKey amount keyOffsets ki =>
      have marks' := marks.spendKeyImage pushed
      simpa [TxinV.keyImage, TxinV.multisigId] using marks'
  | zcInput keyOffsets ki =>
      have marks' := marks.spendKeyImage pushed
      simpa [TxinV.keyImage, TxinV.multisigId] using marks'
  | multisig multisigOutId =>
      unfold MainTables.pushInput at pushed
      dsimp only at pushed
      split at pushed
      · cases pushed
      · rename_i msoe isThere
        split at pushed
        · cases pushed
        · rename_i unspent
          cases pushed
          rw [not_not] at unspent
          have marks' := marks.spendMultisig height isThere unspent
          simpa [TxinV.keyImage, TxinV.multisigId] using marks'

theorem Marks.pushInputs {vin : List (TxinV Hash KeyImage)} (marks : Marks db kis multisigs)
    (pushed : vin.foldlM (MainTables.pushInput height) db = some db') :
    Marks db' (kis ++ (vin.filterMap TxinV.keyImage).map fun ki => (ki, height))
      (multisigs ++ (vin.filterMap TxinV.multisigId).map fun id => (id, height)) := by
  induction vin generalizing db kis multisigs with
  | nil =>
      cases pushed
      simpa using marks
  | cons input vin inductionHypothesis =>
      obtain ⟨between, first, later⟩ := Option.bind_eq_some_iff.mp pushed
      have marks' := inductionHypothesis (marks.pushInput first) later
      have keyImages : (input :: vin).filterMap TxinV.keyImage =
          input.keyImage.toList ++ vin.filterMap TxinV.keyImage := by
        rw [List.filterMap_cons]
        cases input.keyImage <;> rfl
      have multisigIds : (input :: vin).filterMap TxinV.multisigId =
          input.multisigId.toList ++ vin.filterMap TxinV.multisigId := by
        rw [List.filterMap_cons]
        cases input.multisigId <;> rfl
      simpa only [keyImages, multisigIds, List.map_append, List.append_assoc] using marks'

omit [DecidableEq KeyImage] in
theorem pushOuts_multisigOuts {txId : Hash} {outputIndex : Nat} {vout : List (TxOutV Hash Key)}
    (pushed : MainTables.pushOuts txId outputIndex vout db = some db') :
    db'.spentKeys = db.spentKeys ∧ ∀ id p, db.multisigOuts id = some p →
      db'.multisigOuts id = some p := by
  induction vout generalizing db outputIndex with
  | nil =>
      cases pushed
      exact ⟨rfl, fun _ _ isThere => isThere⟩
  | cons out vout inductionHypothesis =>
      obtain ⟨between, first, later⟩ := Option.bind_eq_some_iff.mp pushed
      have here : between.spentKeys = db.spentKeys ∧
          ∀ id p, db.multisigOuts id = some p → between.multisigOuts id = some p := by
        cases out with
        | bareMultisig id =>
            unfold MainTables.pushOut at first
            dsimp only at first
            split at first
            · cases first
            · rename_i isNew
              cases first
              refine ⟨rfl, fun other p isThere => ?_⟩
              have different : other ≠ id := by
                rintro rfl
                exact isNew (by rw [isThere]; rfl)
              simpa only [Function.update_of_ne different] using isThere
        | bareToKey | zarcanum | bareHtlc | gateway =>
            cases first
            exact ⟨rfl, fun _ _ isThere => isThere⟩
      obtain ⟨spentKeys, multisigOuts⟩ := inductionHypothesis later
      exact ⟨spentKeys.trans here.1, fun id p isThere => multisigOuts id p (here.2 id p isThere)⟩

theorem Marks.pushTransaction {tx : Hash × Transaction Hash KeyImage Key}
    (marks : Marks db kis multisigs) (pushed : db.pushTransaction height tx = some db') :
    Marks db' (kis ++ tx.2.keyImages.map fun ki => (ki, height))
      (multisigs ++ tx.2.multisigIds.map fun id => (id, height)) := by
  obtain ⟨spent, inputs, pushed⟩ := Option.bind_eq_some_iff.mp pushed
  have marks' := marks.pushInputs inputs
  split at pushed
  · cases pushed
  · obtain ⟨added, outs, rfl⟩ := Option.map_eq_some_iff.mp pushed
    obtain ⟨spentKeys, multisigOuts⟩ := pushOuts_multisigOuts outs
    refine ⟨fun e inside => ?_, marks'.distinctKeyImages, fun heights => ?_⟩
    · rw [← marks'.keyImages e inside, ← spentKeys]
    · obtain ⟨marked, distinct⟩ := marks'.multisigOuts heights
      refine ⟨fun e inside => ?_, distinct⟩
      obtain ⟨p, isMarked, spentHeight⟩ := marked e inside
      exact ⟨p, multisigOuts e.1 p isMarked, spentHeight⟩

theorem Marks.pushTransactions {txs : List (Hash × Transaction Hash KeyImage Key)}
    (marks : Marks db kis multisigs)
    (pushed : txs.foldlM (MainTables.pushTransaction height) db = some db') :
    Marks db' (kis ++ ((txs.map (·.2)).flatMap Transaction.keyImages).map fun ki => (ki, height))
      (multisigs ++ ((txs.map (·.2)).flatMap Transaction.multisigIds).map fun id =>
        (id, height)) := by
  induction txs generalizing db kis multisigs with
  | nil =>
      cases pushed
      simpa using marks
  | cons tx rest inductionHypothesis =>
      obtain ⟨between, first, later⟩ := Option.bind_eq_some_iff.mp pushed
      have marks' := inductionHypothesis (marks.pushTransaction first) later
      simpa only [List.map_cons, List.flatMap_cons, List.map_append, List.append_assoc] using marks'

end Pushing

namespace MainChain

variable [DecidableEq Hash] [DecidableEq KeyImage]

theorem marks (main : MainChain Hash KeyImage Key) :
    Marks main.db (atHeights FullBlock.keyImages main.blocks)
      (atHeights FullBlock.multisigIds main.blocks) := by
  refine main.induct (P := fun db blocks =>
    Marks db (atHeights FullBlock.keyImages blocks) (atHeights FullBlock.multisigIds blocks)) ?_ ?_
  · exact ⟨fun e inside => (by cases inside), List.nodup_nil,
      fun _ => ⟨fun e inside => (by cases inside), List.nodup_nil⟩⟩
  · intro db blocks b db' marks same pushed
    unfold MainTables.pushBlock at pushed
    split at pushed
    · obtain ⟨added, transactions, rfl⟩ := Option.map_eq_some_iff.mp pushed
      obtain ⟨keyImages, distinct, multisigOuts⟩ := marks.pushTransactions transactions
      rw [same] at keyImages distinct multisigOuts
      rw [atHeights_concat, atHeights_concat]
      exact ⟨keyImages, distinct, multisigOuts⟩
    · cases pushed

theorem nodup_keyImages (main : MainChain Hash KeyImage Key) :
    (main.blocks.flatMap FullBlock.keyImages).Nodup := by
  rw [← map_fst_atHeights]
  exact main.marks.distinctKeyImages

theorem spentKeys_of_mem {main : MainChain Hash KeyImage Key} {b : FullBlock Hash KeyImage Key}
    {ki : KeyImage} {height : Nat} (isBlock : main.blocks[height]? = some b)
    (spends : ki ∈ b.keyImages) :
    main.db.spentKeys ki = some height :=
  main.marks.keyImages (ki, height) (mem_atHeights.mpr ⟨b, isBlock, spends⟩)

/-- No block at a height that reads as unspent spends a multisig output. -/
def HeightsKept (main : MainChain Hash KeyImage Key) : Prop :=
  ∀ height b, main.blocks[height]? = some b → b.multisigIds ≠ [] → height % 2 ^ 32 ≠ 0

theorem HeightsKept.marked {main : MainChain Hash KeyImage Key} (kept : main.HeightsKept) :
    (∀ height b id, main.blocks[height]? = some b → id ∈ b.multisigIds →
      ∃ p, main.db.multisigOuts id = some p ∧ p.spentHeight = height % 2 ^ 32 ∧
        height % 2 ^ 32 ≠ 0) ∧
      (main.blocks.flatMap FullBlock.multisigIds).Nodup := by
  have heights : ∀ e ∈ atHeights FullBlock.multisigIds main.blocks, e.2 % 2 ^ 32 ≠ 0 := by
    intro e inside
    obtain ⟨b, isBlock, spends⟩ := mem_atHeights.mp inside
    exact kept e.2 b isBlock (List.ne_nil_of_mem spends)
  obtain ⟨marked, distinct⟩ := main.marks.multisigOuts heights
  rw [map_fst_atHeights] at distinct
  refine ⟨fun height b id isBlock spends => ?_, distinct⟩
  obtain ⟨p, isMarked, spentHeight⟩ := marked (id, height) (mem_atHeights.mpr ⟨b, isBlock, spends⟩)
  exact ⟨p, isMarked, spentHeight, kept height b isBlock (List.ne_nil_of_mem spends)⟩

end MainChain

end Zano.AltBlocks
