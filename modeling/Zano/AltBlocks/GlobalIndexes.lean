import Mathlib
import Zano.AltBlocks.MainChain

/-! # Global indexes in the main chain

What the tables of a main chain say about the outputs of an amount, in terms of its blocks: the
index of an amount lists the outputs of that amount in the order of the blocks, each with the height
of its block, and the increments of a block count its outputs.
-/

namespace Zano.AltBlocks

open Blockchain (GlobalOutputEntry)

variable {Hash KeyImage Key : Type*}

/-- The outputs that enter the index of an amount. -/
def Transaction.outputsOf (tx : Transaction Hash KeyImage Key) (amount : UInt64) :
    List (TxOutV Hash Key) :=
  tx.vout.filter fun out => out.indexedAmount = some amount

def outputsOf (txs : List (Transaction Hash KeyImage Key)) (amount : UInt64) :
    List (TxOutV Hash Key) :=
  txs.flatMap fun tx => tx.outputsOf amount

def FullBlock.contents (b : FullBlock Hash KeyImage Key) : List (Transaction Hash KeyImage Key) :=
  b.allTransactions.map (·.2)

def FullBlock.outputsOf (b : FullBlock Hash KeyImage Key) (amount : UInt64) :
    List (TxOutV Hash Key) :=
  AltBlocks.outputsOf b.contents amount

/-- How many outputs of an amount the blocks have. -/
def countOutputs (blocks : List (FullBlock Hash KeyImage Key)) (amount : UInt64) : Nat :=
  (blocks.map fun b => (b.outputsOf amount).length).sum

/-- The outputs of an amount with the heights of their blocks, from a height on. -/
def located (amount : UInt64) (height : Nat) (blocks : List (FullBlock Hash KeyImage Key)) :
    List (TxOutV Hash Key × Nat) :=
  (blocks.zipIdx height).flatMap fun e => (e.1.outputsOf amount).map fun out => (out, e.2)

theorem located_append {amount : UInt64} {height : Nat}
    {blocks later : List (FullBlock Hash KeyImage Key)} :
    located amount height (blocks ++ later) =
      located amount height blocks ++ located amount (height + blocks.length) later := by
  simp only [located, List.zipIdx_append, List.flatMap_append]

theorem length_located {amount : UInt64} {height : Nat}
    {blocks : List (FullBlock Hash KeyImage Key)} :
    (located amount height blocks).length = countOutputs blocks amount := by
  induction blocks generalizing height with
  | nil => rfl
  | cons b rest inductionHypothesis =>
      have later : (located amount (height + 1) rest).length = countOutputs rest amount :=
        inductionHypothesis
      simp only [located, countOutputs, List.zipIdx_cons, List.flatMap_cons, List.length_append,
        List.length_map, List.map_cons, List.sum_cons] at later ⊢
      omega

theorem countOutputs_append {amount : UInt64} {blocks later : List (FullBlock Hash KeyImage Key)} :
    countOutputs (blocks ++ later) amount =
      countOutputs blocks amount + countOutputs later amount := by
  simp only [countOutputs, List.map_append, List.sum_append]

/-! ## Scanning -/

/-- The output that an entry of an index leads to, with the height of its block: the part of
`scan_outputkeys_for_indexes` that finds an output. -/
def MainTables.scanOutput (db : MainTables Hash KeyImage Key) (source : GlobalOutputEntry Hash) :
    Option (TxOutV Hash Key × Nat) :=
  (db.transactions source.txId).bind fun p =>
    p.tx.vout[source.outNo]?.map fun out => (out, p.keeperBlockHeight)

def MainTables.scanGlobalIndex (db : MainTables Hash KeyImage Key) (amount : UInt64) (i : Nat) :
    Option (TxOutV Hash Key × Nat) :=
  (db.outputs amount)[i]?.bind db.scanOutput

/-- The entries that the outputs of a transaction add to the index of an amount. -/
def entriesOf (txId : Hash) (amount : UInt64) (outputIndex : Nat) (vout : List (TxOutV Hash Key)) :
    List (GlobalOutputEntry Hash) :=
  (vout.zipIdx outputIndex).filterMap fun e => if e.1.indexedAmount = some amount then
    some ⟨txId, e.2⟩ else none

theorem map_scanOutput_entriesOf {db : MainTables Hash KeyImage Key} {txId : Hash} {amount : UInt64}
    {tx : Transaction Hash KeyImage Key} {height : Nat}
    (isThere : db.transactions txId = some ⟨tx, height⟩) :
    (entriesOf txId amount 0 tx.vout).map db.scanOutput = (tx.outputsOf amount).map fun out =>
      some (out, height) := by
  have scanned : ∀ e ∈ tx.vout.zipIdx, db.scanOutput ⟨txId, e.2⟩ = some (e.1, height) := by
    intro e inside
    have here : tx.vout[e.2]? = some e.1 := List.mem_zipIdx_iff_getElem?.mp inside
    simp only [MainTables.scanOutput, isThere, here, Option.bind_some, Option.map_some]
  have first : (entriesOf txId amount 0 tx.vout).map db.scanOutput =
      tx.vout.zipIdx.filterMap fun e => if e.1.indexedAmount = some amount then
        some (some (e.1, height)) else none := by
    rw [entriesOf, List.map_filterMap]
    refine List.filterMap_congr fun e inside => ?_
    by_cases same : e.1.indexedAmount = some amount
    · simp only [if_pos same, Option.map_some, scanned e inside]
    · simp only [if_neg same, Option.map_none]
  rw [first, Transaction.outputsOf]
  generalize (0 : Nat) = k
  induction tx.vout generalizing k with
  | nil => rfl
  | cons out vout inductionHypothesis =>
      rw [List.zipIdx_cons, List.filterMap_cons, List.filter_cons]
      by_cases same : out.indexedAmount = some amount
      · simp only [same, if_true, decide_true, List.map_cons, inductionHypothesis]
      · simp only [same, if_false, decide_false, Bool.false_eq_true, inductionHypothesis]

/-! ## Pushing -/

section Pushing

variable [DecidableEq Hash] [DecidableEq KeyImage] {db db' : MainTables Hash KeyImage Key}
  {height : Nat}

theorem pushInput_eq_some {input : TxinV Hash KeyImage}
    (pushed : db.pushInput height input = some db') :
    db'.outputs = db.outputs ∧ db'.transactions = db.transactions := by
  have spent : ∀ ki, MainTables.pushInput.spendKeyImage height db ki = some db' →
      db'.outputs = db.outputs ∧ db'.transactions = db.transactions := by
    intro ki pushed
    unfold MainTables.pushInput.spendKeyImage at pushed
    split at pushed
    · cases pushed
    · cases pushed
      exact ⟨rfl, rfl⟩
  cases input with
  | gen =>
      cases pushed
      exact ⟨rfl, rfl⟩
  | htlc => cases pushed
  | gateway =>
      cases pushed
      exact ⟨rfl, rfl⟩
  | toKey amount keyOffsets ki => exact spent ki pushed
  | zcInput keyOffsets ki => exact spent ki pushed
  | multisig multisigOutId =>
      unfold MainTables.pushInput at pushed
      dsimp only at pushed
      split at pushed
      · cases pushed
      · split at pushed
        · cases pushed
        · cases pushed
          exact ⟨rfl, rfl⟩

theorem pushInputs_eq_some {vin : List (TxinV Hash KeyImage)}
    (pushed : vin.foldlM (MainTables.pushInput height) db = some db') :
    db'.outputs = db.outputs ∧ db'.transactions = db.transactions := by
  induction vin generalizing db with
  | nil =>
      cases pushed
      exact ⟨rfl, rfl⟩
  | cons input vin inductionHypothesis =>
      obtain ⟨between, first, later⟩ := Option.bind_eq_some_iff.mp pushed
      obtain ⟨outputs, transactions⟩ := pushInput_eq_some first
      obtain ⟨outputs', transactions'⟩ := inductionHypothesis later
      exact ⟨outputs'.trans outputs, transactions'.trans transactions⟩

omit [DecidableEq KeyImage] in
theorem pushOut_eq_some {txId : Hash} {outputIndex : Nat} {out : TxOutV Hash Key}
    (pushed : db.pushOut txId outputIndex out = some db') :
    db'.transactions = db.transactions ∧
      ∀ amount, db'.outputs amount =
        db.outputs amount ++ entriesOf txId amount outputIndex [out] := by
  have added : ∀ own, out.indexedAmount = some own →
      db' = MainTables.pushOut.pushOutput txId db outputIndex own →
      db'.transactions = db.transactions ∧
        ∀ amount, db'.outputs amount =
          db.outputs amount ++ entriesOf txId amount outputIndex [out] := by
    rintro own isOwn rfl
    refine ⟨rfl, fun amount => ?_⟩
    by_cases same : amount = own
    · subst same
      simp [MainTables.pushOut.pushOutput, entriesOf, isOwn]
    · have other : own ≠ amount := fun eq => same eq.symm
      simp [MainTables.pushOut.pushOutput, entriesOf, isOwn, same, other]
  have unlisted : out.indexedAmount = none → db'.transactions = db.transactions →
      db'.outputs = db.outputs →
      db'.transactions = db.transactions ∧
        ∀ amount, db'.outputs amount =
          db.outputs amount ++ entriesOf txId amount outputIndex [out] := by
    intro hidden transactions outputs
    refine ⟨transactions, fun amount => ?_⟩
    simp [entriesOf, hidden, outputs]
  cases out with
  | bareToKey amount key =>
      cases pushed
      exact added amount rfl rfl
  | zarcanum stealthAddress =>
      cases pushed
      exact added 0 rfl rfl
  | bareMultisig id =>
      unfold MainTables.pushOut at pushed
      dsimp only at pushed
      split at pushed
      · cases pushed
      · cases pushed
        exact unlisted rfl rfl rfl
  | bareHtlc =>
      cases pushed
      exact unlisted rfl rfl rfl
  | gateway =>
      cases pushed
      exact unlisted rfl rfl rfl

omit [DecidableEq KeyImage] in
theorem pushOuts_eq_some {txId : Hash} {outputIndex : Nat} {vout : List (TxOutV Hash Key)}
    (pushed : MainTables.pushOuts txId outputIndex vout db = some db') :
    db'.transactions = db.transactions ∧
      ∀ amount, db'.outputs amount =
        db.outputs amount ++ entriesOf txId amount outputIndex vout := by
  induction vout generalizing db outputIndex with
  | nil =>
      cases pushed
      exact ⟨rfl, fun amount => by simp [entriesOf]⟩
  | cons out vout inductionHypothesis =>
      obtain ⟨between, first, later⟩ := Option.bind_eq_some_iff.mp pushed
      obtain ⟨transactions, outputs⟩ := pushOut_eq_some first
      obtain ⟨transactions', outputs'⟩ := inductionHypothesis later
      refine ⟨transactions'.trans transactions, fun amount => ?_⟩
      have split_ : entriesOf txId amount outputIndex (out :: vout) =
          entriesOf txId amount outputIndex [out] ++
            entriesOf txId amount (outputIndex + 1) vout := by
        rw [entriesOf, ← List.singleton_append, List.zipIdx_append, List.filterMap_append]
        rfl
      rw [outputs', outputs, split_, List.append_assoc]

/-- Every entry of an index leads to its output. -/
def Scans (db : MainTables Hash KeyImage Key)
    (found : UInt64 → List (TxOutV Hash Key × Nat)) : Prop :=
  ∀ amount, (db.outputs amount).map db.scanOutput = (found amount).map some

variable {found : UInt64 → List (TxOutV Hash Key × Nat)}

theorem Scans.pushTransaction {tx : Hash × Transaction Hash KeyImage Key} (scans : Scans db found)
    (pushed : db.pushTransaction height tx = some db') :
    Scans db' fun amount => found amount ++ (tx.2.outputsOf amount).map fun out =>
      (out, height) := by
  obtain ⟨spent, inputs, pushed⟩ := Option.bind_eq_some_iff.mp pushed
  obtain ⟨outputsSpent, transactionsSpent⟩ := pushInputs_eq_some inputs
  cases isNew : spent.transactions tx.1 with
  | some p =>
      rw [isNew] at pushed
      cases pushed
  | none =>
      rw [isNew] at pushed
      obtain ⟨added, outs, rfl⟩ := Option.map_eq_some_iff.mp pushed
      obtain ⟨transactionsAdded, outputsAdded⟩ := pushOuts_eq_some outs
      intro amount
      have before : ∀ source ∈ db.outputs amount, ∃ e, db.scanOutput source = some e := by
        intro source inside
        have isSome_ : db.scanOutput source ∈ (found amount).map some := by
          rw [← scans amount]
          exact List.mem_map_of_mem inside
        obtain ⟨e, -, same⟩ := List.mem_map.mp isSome_
        exact ⟨e, same.symm⟩
      have kept : (db.outputs amount).map (MainTables.scanOutput
          { added with
            transactions := Function.update added.transactions tx.1 (some ⟨tx.2, height⟩) }) =
          (db.outputs amount).map db.scanOutput := by
        refine List.map_congr_left fun source inside => ?_
        obtain ⟨e, isThere⟩ := before source inside
        have different : source.txId ≠ tx.1 := by
          intro same
          rw [MainTables.scanOutput, same, ← transactionsSpent, isNew] at isThere
          cases isThere
        simp only [MainTables.scanOutput, Function.update_of_ne different, transactionsAdded,
          transactionsSpent]
      dsimp only
      rw [outputsAdded, outputsSpent, List.map_append, List.map_append, kept, scans amount]
      rw [map_scanOutput_entriesOf (Function.update_self _ _ _), List.map_map]
      rfl

theorem Scans.pushTransactions {txs : List (Hash × Transaction Hash KeyImage Key)}
    (scans : Scans db found)
    (pushed : txs.foldlM (MainTables.pushTransaction height) db = some db') :
    Scans db' fun amount =>
      found amount ++ (outputsOf (txs.map (·.2)) amount).map fun out => (out, height) := by
  induction txs generalizing db found with
  | nil =>
      cases pushed
      intro amount
      simpa [outputsOf] using scans amount
  | cons tx rest inductionHypothesis =>
      obtain ⟨between, first, later⟩ := Option.bind_eq_some_iff.mp pushed
      intro amount
      have scanned := inductionHypothesis (scans.pushTransaction first) later amount
      simpa only [outputsOf, List.map_cons, List.flatMap_cons, List.map_append,
        List.append_assoc] using scanned

omit [DecidableEq Hash] [DecidableEq KeyImage] in
/-- The increments that are kept for a block. -/
def FullBlock.increments (b : FullBlock Hash KeyImage Key) : AList fun _ : UInt64 => Nat :=
  b.allTransactions.foldl (fun gindices tx =>
    MainTables.appendPerBlockIncrementsForTx gindices tx.2) ∅

omit [DecidableEq Hash] [DecidableEq KeyImage] in
theorem lookup_appendPerBlockIncrementsForTx {gindices : AList fun _ : UInt64 => Nat}
    {tx : Transaction Hash KeyImage Key} {amount : UInt64} :
    ((MainTables.appendPerBlockIncrementsForTx gindices tx).lookup amount).getD 0 =
      (gindices.lookup amount).getD 0 + (tx.outputsOf amount).length := by
  unfold MainTables.appendPerBlockIncrementsForTx Transaction.outputsOf
  induction tx.vout generalizing gindices with
  | nil => rfl
  | cons out vout inductionHypothesis =>
      rw [List.filterMap_cons, List.filter_cons]
      cases indexed : out.indexedAmount with
      | none =>
          simp only [reduceCtorEq, decide_false, Bool.false_eq_true, if_false]
          exact inductionHypothesis
      | some own =>
          rw [List.foldl_cons, inductionHypothesis]
          by_cases same : own = amount
          · subst same
            simp only [AList.lookup_insert, Option.getD_some, decide_true, if_true,
              List.length_cons]
            omega
          · have other : amount ≠ own := fun eq => same eq.symm
            simp only [AList.lookup_insert_ne other, Option.some.injEq, same, decide_false,
              Bool.false_eq_true, if_false]

omit [DecidableEq Hash] [DecidableEq KeyImage] in
theorem lookup_increments {b : FullBlock Hash KeyImage Key} {amount : UInt64} :
    (b.increments.lookup amount).getD 0 = (b.outputsOf amount).length := by
  have counted : ∀ (txs : List (Hash × Transaction Hash KeyImage Key))
      (gindices : AList fun _ : UInt64 => Nat),
      ((txs.foldl (fun gindices tx => MainTables.appendPerBlockIncrementsForTx gindices tx.2)
        gindices).lookup
        amount).getD 0 =
          (gindices.lookup amount).getD 0 + (outputsOf (txs.map (·.2)) amount).length := by
    intro txs
    induction txs with
    | nil => simp [outputsOf]
    | cons tx rest inductionHypothesis =>
        intro gindices
        rw [List.foldl_cons, inductionHypothesis, lookup_appendPerBlockIncrementsForTx]
        simp only [outputsOf, List.map_cons, List.flatMap_cons, List.length_append]
        omega
  rw [FullBlock.increments, counted, FullBlock.outputsOf, FullBlock.contents]
  simp

/-- The tables are those of these blocks. -/
structure TablesOf (db : MainTables Hash KeyImage Key)
    (blocks : List (FullBlock Hash KeyImage Key)) : Prop where
  same : db.blocks = blocks
  scans : Scans db fun amount => located amount 0 blocks
  increments : db.perBlockGindexIncs = blocks.map FullBlock.increments

theorem TablesOf.pushBlock {blocks : List (FullBlock Hash KeyImage Key)}
    {b : FullBlock Hash KeyImage Key} (tables : TablesOf db blocks)
    (pushed : db.pushBlock b = some db') : TablesOf db' (blocks ++ [b]) := by
  unfold MainTables.pushBlock at pushed
  split at pushed
  · obtain ⟨added, transactions, rfl⟩ := Option.map_eq_some_iff.mp pushed
    constructor
    · rw [← tables.same]
    · intro amount
      have scanned := tables.scans.pushTransactions transactions amount
      rw [tables.same] at scanned
      have last : located amount 0 (blocks ++ [b]) =
          located amount 0 blocks ++ (outputsOf b.contents amount).map fun out =>
            (out, blocks.length) := by
        rw [located_append, Nat.zero_add]
        simp only [located, List.zipIdx_singleton, List.flatMap_singleton, FullBlock.outputsOf]
      dsimp only
      rw [last]
      exact scanned
    · rw [List.map_append, ← tables.increments]
      rfl
  · cases pushed

theorem MainChain.tablesOf (main : MainChain Hash KeyImage Key) : TablesOf main.db main.blocks :=
  main.induct ⟨rfl, fun _ => rfl, rfl⟩ fun _ _ _ _ tables _ pushed => tables.pushBlock pushed

end Pushing

namespace MainChain

variable [DecidableEq Hash] [DecidableEq KeyImage] (main : MainChain Hash KeyImage Key)

theorem length_outputs (amount : UInt64) :
    (main.db.outputs amount).length = countOutputs main.blocks amount := by
  have scanned := congrArg List.length (main.tablesOf.scans amount)
  rwa [List.length_map, List.length_map, length_located] at scanned

theorem scanGlobalIndex_eq (amount : UInt64) (i : Nat) :
    main.db.scanGlobalIndex amount i = (located amount 0 main.blocks)[i]? := by
  have scanned := congrArg (fun l => l[i]?) (main.tablesOf.scans amount)
  simp only [List.getElem?_map] at scanned
  unfold MainTables.scanGlobalIndex
  cases here : (main.db.outputs amount)[i]? with
  | none =>
      rw [here] at scanned
      cases there : (located amount 0 main.blocks)[i]? with
      | none => rfl
      | some e =>
          rw [there] at scanned
          cases scanned
  | some source =>
      rw [here] at scanned
      cases there : (located amount 0 main.blocks)[i]? with
      | none =>
          rw [there] at scanned
          cases scanned
      | some e =>
          rw [there] at scanned
          exact Option.some.inj scanned

end MainChain

end Zano.AltBlocks
