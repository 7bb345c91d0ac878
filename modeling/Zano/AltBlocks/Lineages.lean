import Mathlib
import Zano.Lib.HashChain
import Zano.AltBlocks.Acceptance
import Zano.AltBlocks.Spending

/-! # Lineages

The id of a block is the hash of what it holds, the id of the previous block included, so as long as
there are no collisions an id stands for the block, its transactions and all the blocks before it,
wherever they are kept. What has been found out about the lineage of an alternative block stays true
while the main chain below it is taken off and put back.
-/

namespace Zano.AltBlocks

variable {Hash KeyImage Key : Type*}

/-- What each id is the hash of. -/
structure Preimages (Hash KeyImage Key : Type*) where
  block : Hash → Block Hash KeyImage Key
  transaction : Hash → Transaction Hash KeyImage Key

namespace Preimages

variable (preimages : Preimages Hash KeyImage Key)

def contents (id : Hash) : List (Transaction Hash KeyImage Key) :=
  (preimages.block id).minerTx :: (preimages.block id).txHashes.map preimages.transaction

def keyImages (id : Hash) : List KeyImage := (preimages.contents id).flatMap Transaction.keyImages

def multisigIds (id : Hash) : List Hash := (preimages.contents id).flatMap Transaction.multisigIds

end Preimages

/-- The height that the miner transaction names. -/
def Block.genHeight (b : Block Hash KeyImage Key) : Nat :=
  match b.minerTx.vin with
  | .gen height :: _ => height
  | _ => 0

theorem genHeight_eq {b : Block Hash KeyImage Key} {height : Nat}
    (valid : prevalidateMinerTransaction b height = true) : b.genHeight = height := by
  rcases minerTx_vin valid with ⟨-, inputs⟩ | ⟨-, ⟨_, _, _, inputs⟩ | ⟨_, _, inputs⟩⟩ <;>
    rw [Block.genHeight, inputs]

/-- Ids of blocks from the genesis block on. -/
def Lineage (preimages : Preimages Hash KeyImage Key) (ids : List Hash) : Prop :=
  HashChain.Chained id (fun id => (preimages.block id).prevId) (fun id =>
    (preimages.block id).genHeight) ids

/-- The block and its transactions are what their ids stand for. -/
structure Genuine (preimages : Preimages Hash KeyImage Key)
    (b : FullBlock Hash KeyImage Key) : Prop where
  bl : b.bl = preimages.block b.id
  minerTx : b.bl.minerTx = preimages.transaction b.minerTxId
  transactions : ∀ tx ∈ b.transactions, tx.2 = preimages.transaction tx.1
  named : b.transactions.map (·.1) = b.bl.txHashes

variable {preimages : Preimages Hash KeyImage Key}

theorem Genuine.contents_eq {b : FullBlock Hash KeyImage Key} (genuine : Genuine preimages b) :
    b.contents = preimages.contents b.id := by
  have same : b.transactions.map (·.2) = (b.transactions.map (·.1)).map preimages.transaction := by
    rw [List.map_map]
    exact List.map_congr_left genuine.transactions
  rw [FullBlock.contents, FullBlock.allTransactions, List.map_cons, same, genuine.named,
    Preimages.contents, genuine.bl]

theorem Genuine.keyImages_eq {b : FullBlock Hash KeyImage Key} (genuine : Genuine preimages b) :
    b.keyImages = preimages.keyImages b.id := by
  rw [FullBlock.keyImages, genuine.contents_eq]
  rfl

theorem Genuine.multisigIds_eq {b : FullBlock Hash KeyImage Key} (genuine : Genuine preimages b) :
    b.multisigIds = preimages.multisigIds b.id := by
  rw [FullBlock.multisigIds, genuine.contents_eq]
  rfl

/-- All transactions are what their ids stand for. -/
def GenuineTransactions (preimages : Preimages Hash KeyImage Key)
    (transactions : Hash → Option (Transaction Hash KeyImage Key)) : Prop :=
  ∀ txId tx, transactions txId = some tx → tx = preimages.transaction txId

/-- The ids of a request are those of what it brings. -/
def Request.Genuine [DecidableEq Hash] (preimages : Preimages Hash KeyImage Key) :
    Request Hash KeyImage Key → Prop
  | .pushMain b => AltBlocks.Genuine preimages b
  | .handleAlternativeBlock env b id onboard =>
      b = preimages.block id ∧ GenuineTransactions preimages env.pool ∧
      GenuineTransactions preimages fun txId => onboard.lookup txId
  | _ => True

/-! ## The main chain -/

section Main

variable [DecidableEq Hash] [DecidableEq KeyImage] {main : MainChain Hash KeyImage Key}

def GenuineMain (preimages : Preimages Hash KeyImage Key)
    (main : MainChain Hash KeyImage Key) : Prop :=
  ∀ b ∈ main.blocks, AltBlocks.Genuine preimages b

theorem GenuineMain.lineage (genuine : GenuineMain preimages main) :
    Lineage preimages (main.blocks.map FullBlock.id) := by
  revert genuine
  refine main.induct (P := fun _ blocks => (∀ b ∈ blocks, AltBlocks.Genuine preimages b) →
    Lineage preimages (blocks.map FullBlock.id)) (fun _ => .nil) ?_
  intro db blocks b db' before same pushed genuine
  unfold MainTables.pushBlock at pushed
  split at pushed
  · rename_i checks
    obtain ⟨-, follows, -, valid⟩ := checks
    have isBlock := (genuine b (by simp)).bl
    rw [List.map_append, List.map_singleton]
    refine .snoc (before fun b' inside => genuine b' (List.mem_append_left _ inside)) ?_ ?_
    · intro top isTop
      rw [List.getLast?_map, Option.map_eq_some_iff] at isTop
      obtain ⟨block, isLast, rfl⟩ := isTop
      rw [same, isLast] at follows
      rw [← isBlock]
      exact (of_decide_eq_true follows).symm
    · rw [← isBlock, genHeight_eq valid, same, List.length_map]
  · cases pushed

/-- The transactions of the tables are what their ids stand for. -/
def GenuineTables (preimages : Preimages Hash KeyImage Key)
    (db : MainTables Hash KeyImage Key) : Prop :=
  GenuineTransactions preimages fun txId => (db.transactions txId).map (·.tx)

variable {db db' : MainTables Hash KeyImage Key} {height : Nat}

theorem GenuineTables.pushTransaction {tx : Hash × Transaction Hash KeyImage Key}
    (genuine : GenuineTables preimages db) (isGenuine : tx.2 = preimages.transaction tx.1)
    (pushed : db.pushTransaction height tx = some db') :
    GenuineTables preimages db' := by
  obtain ⟨spent, inputs, pushed⟩ := Option.bind_eq_some_iff.mp pushed
  split at pushed
  · cases pushed
  · obtain ⟨added, outs, rfl⟩ := Option.map_eq_some_iff.mp pushed
    intro txId found isFound
    dsimp only at isFound
    by_cases same : txId = tx.1
    · subst same
      rw [Function.update_self] at isFound
      cases isFound
      exact isGenuine
    · rw [Function.update_of_ne same, (pushOuts_eq_some outs).1,
        (pushInputs_eq_some inputs).2] at isFound
      exact genuine txId found isFound

theorem GenuineTables.pushTransactions {txs : List (Hash × Transaction Hash KeyImage Key)}
    (genuine : GenuineTables preimages db)
    (areGenuine : ∀ tx ∈ txs, tx.2 = preimages.transaction tx.1)
    (pushed : txs.foldlM (MainTables.pushTransaction height) db = some db') :
    GenuineTables preimages db' := by
  induction txs generalizing db with
  | nil =>
      cases pushed
      exact genuine
  | cons tx rest inductionHypothesis =>
      obtain ⟨between, first, later⟩ := Option.bind_eq_some_iff.mp pushed
      apply inductionHypothesis
        (genuine.pushTransaction (areGenuine tx List.mem_cons_self) first) ?_ later
      intro tx' inside
      exact areGenuine tx' (List.mem_cons_of_mem tx inside)

theorem GenuineMain.tables (genuine : GenuineMain preimages main) :
    GenuineTables preimages main.db := by
  revert genuine
  refine main.induct (P := fun db blocks => (∀ b ∈ blocks, AltBlocks.Genuine preimages b) →
    GenuineTables preimages db) ?_ ?_
  · intro _ txId tx isThere
    cases isThere
  · intro db blocks b db' before _ added genuine
    unfold MainTables.pushBlock at added
    split at added
    · obtain ⟨after, transactions, rfl⟩ := Option.map_eq_some_iff.mp added
      have isGenuine := genuine b (by simp)
      have tables := before fun b' inside => genuine b' (List.mem_append_left _ inside)
      have areGenuine : ∀ tx ∈ b.allTransactions, tx.2 = preimages.transaction tx.1 := by
        intro tx inside
        rcases List.mem_cons.mp inside with rfl | inside
        · exact isGenuine.minerTx
        · exact isGenuine.transactions tx inside
      have pushed : GenuineTables preimages after := tables.pushTransactions areGenuine transactions
      exact pushed
    · cases added

end Main

/-! ## Alternative blocks -/

section Alternative

variable [DecidableEq Hash]

theorem GenuineTransactions.completeOnboard {pool : Hash → Option (Transaction Hash KeyImage Key)}
    {db : MainTables Hash KeyImage Key} {hashes : List Hash}
    {onboard : AList fun _ : Hash => Transaction Hash KeyImage Key}
    (inPool : GenuineTransactions preimages pool) (inTables : GenuineTables preimages db)
    (genuine : GenuineTransactions preimages fun txId => onboard.lookup txId) :
    GenuineTransactions preimages fun txId =>
      (completeOnboard pool db hashes onboard).lookup txId := by
  induction hashes generalizing onboard with
  | nil => exact genuine
  | cons h rest inductionHypothesis =>
      have inserted : ∀ tx, tx = preimages.transaction h →
          GenuineTransactions preimages fun txId => (onboard.insert h tx).lookup txId := by
        intro tx isGenuine txId found isFound
        dsimp only at isFound
        by_cases same : txId = h
        · subst same
          rw [AList.lookup_insert] at isFound
          cases isFound
          exact isGenuine
        · rw [AList.lookup_insert_ne same] at isFound
          exact genuine txId found isFound
      unfold AltBlocks.completeOnboard
      apply inductionHypothesis
      split
      · exact genuine
      · split
        · rename_i tx isThere
          exact inserted tx (inPool h tx isThere)
        · split
          · rename_i p isThere
            exact inserted p.tx (inTables h p.tx (congrArg (Option.map (·.tx)) isThere))
          · exact genuine

/-- The block and its transactions are what their ids stand for, and its height is the
one that it names. -/
structure GenuineAlt (preimages : Preimages Hash KeyImage Key) (id : Hash)
    (abei : AltBlockExtendedInfo Hash KeyImage Key) : Prop where
  bl : abei.bl = preimages.block id
  transactions : abei.transactions = preimages.contents id
  height : abei.height = (preimages.block id).genHeight
  positive : 0 < abei.height

theorem GenuineAlt.keyImages_eq {id : Hash} {abei : AltBlockExtendedInfo Hash KeyImage Key}
    (genuine : GenuineAlt preimages id abei) : abei.keyImages = preimages.keyImages id := by
  rw [AltBlockExtendedInfo.keyImages, genuine.transactions]
  rfl

theorem GenuineAlt.multisigIds_eq {id : Hash} {abei : AltBlockExtendedInfo Hash KeyImage Key}
    (genuine : GenuineAlt preimages id abei) : abei.multisigIds = preimages.multisigIds id := by
  rw [AltBlockExtendedInfo.multisigIds, genuine.transactions]
  rfl

theorem lookup_of_mem_altChainTo
    {alternativeChains : AList fun _ : Hash => AltBlockExtendedInfo Hash KeyImage Key} {fuel : Nat}
    {id : Hash} {e : Hash × AltBlockExtendedInfo Hash KeyImage Key}
    (inside : e ∈ altChainTo alternativeChains fuel id) :
    alternativeChains.lookup e.1 = some e.2 := by
  induction fuel generalizing id with
  | zero => cases inside
  | succ fuel inductionHypothesis =>
      unfold altChainTo at inside
      split at inside
      · cases inside
      · rename_i abei isThere
        rcases List.mem_append.mp inside with before | last
        · exact inductionHypothesis before
        · rcases List.mem_singleton.mp last with rfl
          exact isThere

theorem lookup_of_mem_altChainOf
    {alternativeChains : AList fun _ : Hash => AltBlockExtendedInfo Hash KeyImage Key} {id : Hash}
    {e : Hash × AltBlockExtendedInfo Hash KeyImage Key}
    (inside : e ∈ altChainOf alternativeChains id) :
    alternativeChains.lookup e.1 = some e.2 := by
  unfold altChainOf at inside
  split at inside
  · cases inside
  · exact lookup_of_mem_altChainTo inside

/-- The walk back from a block runs along its lineage. -/
theorem altChainTo_suffix [DecidableEq KeyImage] {s : Node Hash KeyImage Key} {fuel : Nat}
    {id : Hash} {before : List Hash}
    (genuine : ∀ id abei, s.altBlock id = some abei → GenuineAlt preimages id abei)
    (lineage : Lineage preimages (before ++ [id])) :
    ∃ n, (altChainTo s.alternativeChains fuel id).map (·.1) = (before ++ [id]).drop n := by
  induction fuel generalizing id before with
  | zero => exact ⟨(before ++ [id]).length, by rw [List.drop_length]; rfl⟩
  | succ fuel inductionHypothesis =>
      unfold altChainTo
      cases isThere : s.alternativeChains.lookup id with
      | none => exact ⟨(before ++ [id]).length, by rw [List.drop_length]; rfl⟩
      | some abei =>
          have isGenuine := genuine id abei isThere
          obtain ⟨earlier, follows, height⟩ := HashChain.chained_snoc_iff.mp lineage
          have notFirst : before ≠ [] := by
            rintro rfl
            have positive := isGenuine.positive
            rw [isGenuine.height, height] at positive
            cases positive
          obtain ⟨first, prevId, rfl⟩ : ∃ first prevId, before = first ++ [prevId] :=
            ⟨_, _, (List.dropLast_append_getLast notFirst).symm⟩
          have isPrev : abei.bl.prevId = prevId := by
            rw [isGenuine.bl]
            exact follows prevId List.getLast?_concat
          obtain ⟨n, isSuffix⟩ := inductionHypothesis earlier
          dsimp only
          rw [isPrev, List.map_append, isSuffix]
          by_cases within : n ≤ (first ++ [prevId]).length
          · exact ⟨n, by rw [List.drop_append_of_le_length within]; rfl⟩
          · exact ⟨(first ++ [prevId]).length,
              by rw [List.drop_eq_nil_of_le (by omega), List.drop_left]; rfl⟩

end Alternative

end Zano.AltBlocks
