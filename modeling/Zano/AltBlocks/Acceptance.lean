import Mathlib
import Zano.AltBlocks.Container

/-! # What an accepted alternative block brings

The facts about an accepted block that the results on alternative blocks start from. All its
transactions are kept with it, whether they came with the block, from the pool or from the main
chain, and the key images that its validation collects are those of its transactions, each of them
once.
-/

namespace Zano.AltBlocks

variable {Hash KeyImage Key : Type*} [DecidableEq Hash] [DecidableEq KeyImage]

namespace AltBlockExtendedInfo

omit [DecidableEq KeyImage] in
/-- The transactions of a block as they are kept with it, the miner transaction first. -/
def transactions (abei : AltBlockExtendedInfo Hash KeyImage Key) :
    List (Transaction Hash KeyImage Key) :=
  abei.bl.minerTx :: abei.bl.txHashes.filterMap fun txId => abei.onboardTransactions.lookup txId

omit [DecidableEq KeyImage] in
def keyImages (abei : AltBlockExtendedInfo Hash KeyImage Key) : List KeyImage :=
  abei.transactions.flatMap Transaction.keyImages

omit [DecidableEq KeyImage] in
def multisigIds (abei : AltBlockExtendedInfo Hash KeyImage Key) : List Hash :=
  abei.transactions.flatMap Transaction.multisigIds

end AltBlockExtendedInfo

/-! ## Transactions that come with the block -/

section Onboard

variable {pool : Hash → Option (Transaction Hash KeyImage Key)} {db : MainTables Hash KeyImage Key}
  {onboard : AList fun _ : Hash => Transaction Hash KeyImage Key}

omit [DecidableEq KeyImage] in
theorem lookup_completeOnboard_of_some {hashes : List Hash} {txId : Hash}
    {tx : Transaction Hash KeyImage Key} (isThere : onboard.lookup txId = some tx) :
    (completeOnboard pool db hashes onboard).lookup txId = some tx := by
  induction hashes generalizing onboard with
  | nil => exact isThere
  | cons h rest inductionHypothesis =>
      have kept : ∀ tx', onboard.lookup h = none →
          (onboard.insert h tx').lookup txId = some tx := by
        intro tx' missing
        have different : txId ≠ h := by
          rintro rfl
          rw [isThere] at missing
          cases missing
        rw [AList.lookup_insert_ne different, isThere]
      unfold completeOnboard
      apply inductionHypothesis
      cases found : onboard.lookup h with
      | some _ => exact isThere
      | none =>
          cases pool h with
          | some tx' => exact kept tx' found
          | none =>
              cases db.transactions h with
              | some p => exact kept p.tx found
              | none => exact isThere

omit [DecidableEq KeyImage] in
/-- A transaction that is not with the block after that is not to be found at all. -/
theorem getTransactionFromPoolOrDb_of_missing {hashes : List Hash} {txId : Hash} {minHeight : Nat}
    (inside : txId ∈ hashes)
    (missing : (completeOnboard pool db hashes onboard).lookup txId = none) :
    getTransactionFromPoolOrDb pool db txId minHeight = none := by
  induction hashes generalizing onboard with
  | nil => cases inside
  | cons h rest inductionHypothesis =>
      unfold completeOnboard at missing
      rcases List.mem_cons.mp inside with rfl | inside
      · have gone : ∀ {onboard' : AList fun _ : Hash => Transaction Hash KeyImage Key} {tx},
            onboard'.lookup txId = some tx →
              (completeOnboard pool db rest onboard').lookup txId ≠ none := by
          intro onboard' tx isThere
          rw [lookup_completeOnboard_of_some isThere]
          exact Option.some_ne_none tx
        unfold getTransactionFromPoolOrDb
        cases found : onboard.lookup txId with
        | some tx =>
            rw [found] at missing
            exact absurd missing (gone found)
        | none =>
            cases inPool : pool txId with
            | some tx =>
                rw [found, inPool] at missing
                exact absurd missing (gone (AList.lookup_insert onboard))
            | none =>
                cases inDb : db.transactions txId with
                | some p =>
                    rw [found, inPool, inDb] at missing
                    exact absurd missing (gone (AList.lookup_insert onboard))
                | none => rfl
      · exact inductionHypothesis inside missing

end Onboard

/-! ## Collected key images -/

section Collected

variable {env : Environment Hash KeyImage Key} {s : Node Hash KeyImage Key}
  {altChain : AltChain Hash KeyImage Key} {splitHeight : Nat} {altChainBlockIds : List Hash}
  {collected collected' : List KeyImage}

/-- A key image that passes all three levels of the check. -/
def Unspent (s : Node Hash KeyImage Key) (splitHeight : Nat) (altChainBlockIds : List Hash)
    (ki : KeyImage) : Prop :=
  (∀ h, s.main.db.spentKeys ki = some h → splitHeight ≤ h) ∧
    ∀ id ∈ (s.altblocksKeyimages ki).getD [], id ∉ altChainBlockIds

theorem checkKeyImage_iff {ki : KeyImage} :
    checkKeyImage s.main.db s.altblocksKeyimages splitHeight altChainBlockIds collected ki = true ↔
      Unspent s splitHeight altChainBlockIds ki ∧ ki ∉ collected := by
  have inMain : (s.main.db.spentKeys ki).all (splitHeight ≤ ·) = true ↔
      ∀ h, s.main.db.spentKeys ki = some h → splitHeight ≤ h := by
    cases s.main.db.spentKeys ki <;> simp
  simp only [checkKeyImage, Bool.and_eq_true, inMain, List.all_eq_true, decide_eq_true_eq, Unspent]
  tauto

theorem validateAltBlockInput_collects {tx : Transaction Hash KeyImage Key} {txId : Hash} {n : Nat}
    {input : TxinV Hash KeyImage} {amount : UInt64} {keyOffsets : List (Blockchain.TxoutRefV Hash)}
    {ki : KeyImage} {maxRelated : Nat} (validated : validateAltBlockInput env s altChain splitHeight
      altChainBlockIds collected tx txId n input amount
      keyOffsets ki = some (collected', maxRelated)) :
    collected' = ki :: collected ∧ Unspent s splitHeight altChainBlockIds ki ∧ ki ∉ collected := by
  unfold validateAltBlockInput at validated
  split at validated
  · rename_i passed
    obtain ⟨ring, -, validated⟩ := Option.bind_eq_some_iff.mp validated
    dsimp only at validated
    split at validated
    · cases validated
      exact ⟨rfl, checkKeyImage_iff.mp passed.1⟩
    · cases validated
  · cases validated

/-- What a list of inputs adds to the collected key images. -/
structure Collects (s : Node Hash KeyImage Key) (splitHeight : Nat) (altChainBlockIds : List Hash)
    (kis collected collected' : List KeyImage) : Prop where
  all : collected' = kis.reverse ++ collected
  unspent : ∀ ki ∈ kis, Unspent s splitHeight altChainBlockIds ki
  distinct : collected.Nodup → collected'.Nodup

theorem Collects.nil : Collects s splitHeight altChainBlockIds [] collected collected where
  all := rfl
  unspent := by simp
  distinct := id

theorem Collects.append {kis kis' collected'' : List KeyImage}
    (first : Collects s splitHeight altChainBlockIds kis collected collected')
    (later : Collects s splitHeight altChainBlockIds kis' collected' collected'') :
    Collects s splitHeight altChainBlockIds (kis ++ kis') collected collected'' where
  all := by rw [later.all, first.all, List.reverse_append, List.append_assoc]
  unspent := by
    intro ki inside
    rcases List.mem_append.mp inside with inside | inside
    · exact first.unspent ki inside
    · exact later.unspent ki inside
  distinct := fun distinct => later.distinct (first.distinct distinct)

theorem Collects.of_input {tx : Transaction Hash KeyImage Key} {txId : Hash} {n : Nat}
    {input : TxinV Hash KeyImage} {amount : UInt64} {keyOffsets : List (Blockchain.TxoutRefV Hash)}
    {ki : KeyImage} {maxRelated : Nat} (validated : validateAltBlockInput env s altChain splitHeight
      altChainBlockIds collected tx txId n input amount
      keyOffsets ki = some (collected', maxRelated)) :
    Collects s splitHeight altChainBlockIds [ki] collected collected' := by
  obtain ⟨rfl, unspent, isNew⟩ := validateAltBlockInput_collects validated
  exact ⟨rfl, by simpa using unspent, fun distinct => List.nodup_cons.mpr ⟨isNew, distinct⟩⟩

theorem validateAltBlockInputs_collects {tx : Transaction Hash KeyImage Key} {txId : Hash} {n : Nat}
    {vin : List (TxinV Hash KeyImage)}
    (validated :
      validateAltBlockInputs env s altChain splitHeight altChainBlockIds tx txId n vin collected =
      some collected') :
    Collects s splitHeight altChainBlockIds (vin.filterMap TxinV.keyImage) collected
      collected' := by
  induction vin generalizing n collected with
  | nil =>
      cases validated
      exact .nil
  | cons input vin inductionHypothesis =>
      unfold validateAltBlockInputs at validated
      cases input with
      | toKey amount keyOffsets ki =>
          obtain ⟨⟨between, maxRelated⟩, first, later⟩ := Option.bind_eq_some_iff.mp validated
          exact (Collects.of_input first).append (inductionHypothesis later)
      | zcInput keyOffsets ki =>
          obtain ⟨⟨between, maxRelated⟩, first, later⟩ := Option.bind_eq_some_iff.mp validated
          exact (Collects.of_input first).append (inductionHypothesis later)
      | multisig multisigOutId =>
          dsimp only at validated
          split at validated
          · exact inductionHypothesis validated
          · cases validated
      | gateway => exact inductionHypothesis validated
      | gen => cases validated
      | htlc => cases validated

/-- Every multisig input of the transaction has been validated. -/
def MultisigValidated (env : Environment Hash KeyImage Key) (s : Node Hash KeyImage Key)
    (altChain : AltChain Hash KeyImage Key) (splitHeight : Nat) (tx : Transaction Hash KeyImage Key)
    (txId : Hash) (vin : List (TxinV Hash KeyImage)) : Prop :=
  ∀ multisigOutId ∈ vin.filterMap TxinV.multisigId, ∃ n,
    validateAltBlockMsInput env s altChain splitHeight tx txId n multisigOutId = true

theorem validateAltBlockInputs_multisigValidated {tx : Transaction Hash KeyImage Key}
    {txId : Hash} {n : Nat} {vin : List (TxinV Hash KeyImage)}
    (validated :
      validateAltBlockInputs env s altChain splitHeight altChainBlockIds tx txId n vin collected =
      some collected') :
    MultisigValidated env s altChain splitHeight tx txId vin := by
  induction vin generalizing n collected with
  | nil => simp [MultisigValidated]
  | cons input vin inductionHypothesis =>
      unfold validateAltBlockInputs at validated
      cases input with
      | toKey amount keyOffsets ki =>
          obtain ⟨⟨between, maxRelated⟩, first, later⟩ := Option.bind_eq_some_iff.mp validated
          exact inductionHypothesis later
      | zcInput keyOffsets ki =>
          obtain ⟨⟨between, maxRelated⟩, first, later⟩ := Option.bind_eq_some_iff.mp validated
          exact inductionHypothesis later
      | multisig id =>
          dsimp only at validated
          split at validated
          · rename_i valid
            intro multisigOutId inside
            rcases List.mem_cons.mp inside with rfl | inside
            · exact ⟨n, valid⟩
            · exact inductionHypothesis validated multisigOutId inside
          · cases validated
      | gateway => exact inductionHypothesis validated
      | gen => cases validated
      | htlc => cases validated

/-- Updating the output indexes leaves the rest of a block alone. -/
structure SameBlock (abei abei' : AltBlockExtendedInfo Hash KeyImage Key) : Prop where
  bl : abei'.bl = abei.bl
  height : abei'.height = abei.height
  onboardTransactions : abei'.onboardTransactions = abei.onboardTransactions

omit [DecidableEq Hash] [DecidableEq KeyImage] in
theorem SameBlock.trans {abei abei' abei'' : AltBlockExtendedInfo Hash KeyImage Key}
    (first : SameBlock abei abei') (later : SameBlock abei' abei'') : SameBlock abei abei'' where
  bl := later.bl.trans first.bl
  height := later.height.trans first.height
  onboardTransactions := later.onboardTransactions.trans first.onboardTransactions

omit [DecidableEq Hash] [DecidableEq KeyImage] in
theorem sameBlock_updateAltOutIndexes (db : MainTables Hash KeyImage Key)
    (abei : AltBlockExtendedInfo Hash KeyImage Key) (out : TxOutV Hash Key) :
    SameBlock abei (updateAltOutIndexes db abei out) := by
  unfold updateAltOutIndexes
  cases out.indexedAmount with
  | none => exact ⟨rfl, rfl, rfl⟩
  | some amount => exact ⟨rfl, rfl, rfl⟩

omit [DecidableEq Hash] [DecidableEq KeyImage] in
theorem sameBlock_updateAltOutIndexesForTxInBlock (db : MainTables Hash KeyImage Key)
    (abei : AltBlockExtendedInfo Hash KeyImage Key) (tx : Transaction Hash KeyImage Key) :
    SameBlock abei (updateAltOutIndexesForTxInBlock db abei tx) := by
  unfold updateAltOutIndexesForTxInBlock
  induction tx.vout generalizing abei with
  | nil => exact ⟨rfl, rfl, rfl⟩
  | cons out vout inductionHypothesis =>
      exact (sameBlock_updateAltOutIndexes db abei out).trans (inductionHypothesis _)

omit [DecidableEq Hash] [DecidableEq KeyImage] in
theorem sameBlock_foldl (db : MainTables Hash KeyImage Key)
    (abei : AltBlockExtendedInfo Hash KeyImage Key) (txs : List (Transaction Hash KeyImage Key)) :
    SameBlock abei (txs.foldl (updateAltOutIndexesForTxInBlock db) abei) := by
  induction txs generalizing abei with
  | nil => exact ⟨rfl, rfl, rfl⟩
  | cons tx rest inductionHypothesis =>
      exact (sameBlock_updateAltOutIndexesForTxInBlock db abei tx).trans (inductionHypothesis _)

/-- The transactions of these hashes that are with the block. -/
def onboardOf (abei : AltBlockExtendedInfo Hash KeyImage Key) (hashes : List Hash) :
    List (Transaction Hash KeyImage Key) :=
  hashes.filterMap fun txId => abei.onboardTransactions.lookup txId

theorem validateAltBlockTransactions_eq_some {hashes : List Hash}
    {abei abei' : AltBlockExtendedInfo Hash KeyImage Key}
    (complete : ∀ txId ∈ hashes, abei.onboardTransactions.lookup txId = none →
      getTransactionFromPoolOrDb env.pool s.main.db txId splitHeight = none)
    (validated : validateAltBlockTransactions env s altChain splitHeight altChainBlockIds hashes
      collected abei =
      some (collected', abei')) :
    (∀ txId ∈ hashes, ∃ tx, abei.onboardTransactions.lookup txId = some tx ∧
      MultisigValidated env s altChain splitHeight tx txId tx.vin) ∧
    Collects s splitHeight altChainBlockIds ((onboardOf abei hashes).flatMap Transaction.keyImages)
      collected collected' ∧
    abei' = (onboardOf abei hashes).foldl (updateAltOutIndexesForTxInBlock s.main.db) abei := by
  induction hashes generalizing collected abei with
  | nil =>
      cases validated
      exact ⟨by simp, .nil, rfl⟩
  | cons txId rest inductionHypothesis =>
      unfold validateAltBlockTransactions at validated
      cases isOnboard : abei.onboardTransactions.lookup txId with
      | none =>
          simp only [isOnboard, complete txId List.mem_cons_self isOnboard] at validated
          cases validated
      | some tx =>
          simp only [isOnboard] at validated
          split at validated
          · obtain ⟨between, inputs, later⟩ := Option.bind_eq_some_iff.mp validated
            split at later
            · have same := sameBlock_updateAltOutIndexesForTxInBlock s.main.db abei tx
              have completeLater : ∀ txId ∈ rest,
                  (updateAltOutIndexesForTxInBlock s.main.db abei tx).onboardTransactions.lookup
                    txId = none →
                  getTransactionFromPoolOrDb env.pool s.main.db txId splitHeight = none := by
                intro txId inside missing
                rw [same.onboardTransactions] at missing
                exact complete txId (List.mem_cons_of_mem _ inside) missing
              obtain ⟨found, collects, folded⟩ := inductionHypothesis completeLater later
              simp only [onboardOf, same.onboardTransactions] at found collects folded
              have here : onboardOf abei (txId :: rest) = tx :: onboardOf abei rest := by
                simp only [onboardOf, List.filterMap_cons, isOnboard]
              rw [here]
              refine ⟨?_, (validateAltBlockInputs_collects inputs).append collects, folded⟩
              intro other inside
              rcases List.mem_cons.mp inside with rfl | inside
              · exact ⟨tx, isOnboard, validateAltBlockInputs_multisigValidated inputs⟩
              · exact found other inside
            · cases later
          · cases validated

/-! ## Accepted blocks -/

omit [DecidableEq KeyImage] in
theorem mainHeight_eq_some {db : MainTables Hash KeyImage Key} {id : Hash} {height : Nat}
    (found : mainHeight db id = some height) : (db.blocks[height]?).map (·.id) = some id := by
  unfold mainHeight at found
  obtain ⟨inside, isId, -⟩ := List.findIdx?_eq_some_iff_getElem.mp found
  simpa [List.getElem?_eq_getElem inside] using isId

omit [DecidableEq Hash] [DecidableEq KeyImage] in
/-- The inputs of a miner transaction: the generating one, and a stake in a PoS block. -/
theorem minerTx_vin {b : Block Hash KeyImage Key} {height : Nat}
    (valid : prevalidateMinerTransaction b height = true) :
    (isPosBlock b = false ∧ b.minerTx.vin = [.gen height]) ∨
      (isPosBlock b = true ∧
        ((∃ amount keyOffsets ki, b.minerTx.vin = [.gen height, .toKey amount keyOffsets ki]) ∨
        ∃ keyOffsets ki, b.minerTx.vin = [.gen height, .zcInput keyOffsets ki])) := by
  simp only [prevalidateMinerTransaction, Bool.and_eq_true, decide_eq_true_eq] at valid
  obtain ⟨count, isGen⟩ := valid
  have generating : ∃ rest, b.minerTx.vin = .gen height :: rest := by
    split at isGen
    · rename_i genHeight rest same
      rw [decide_eq_true_eq.mp isGen] at same
      exact ⟨rest, same⟩
    · cases isGen
  obtain ⟨rest, same⟩ := generating
  cases isPos : isPosBlock b with
  | false =>
      left
      rw [isPos, same] at count
      have none_ : rest = [] := by simpa using count
      exact ⟨rfl, by rw [same, none_]⟩
  | true =>
      right
      have isPosMiner : isPosMinerTx b.minerTx = true := by
        rw [isPosBlock, Bool.and_eq_true] at isPos
        exact isPos.2
      refine ⟨rfl, ?_⟩
      unfold isPosMinerTx at isPosMiner
      rw [same] at isPosMiner ⊢
      split at isPosMiner
      · rename_i inputs
        cases inputs
        exact .inl ⟨_, _, _, rfl⟩
      · rename_i inputs
        cases inputs
        exact .inr ⟨_, _, rfl⟩
      · cases isPosMiner

theorem validateAltBlockMinerTx_collects {b : Block Hash KeyImage Key} {id : Hash} {height : Nat}
    (valid : prevalidateMinerTransaction b height = true)
    (validated : validateAltBlockMinerTx env s altChain splitHeight altChainBlockIds b id height =
      some collected) :
    Collects s splitHeight altChainBlockIds b.minerTx.keyImages [] collected := by
  unfold validateAltBlockMinerTx at validated
  rcases minerTx_vin valid with ⟨notPos, inputs⟩ | ⟨isPos, inputs⟩
  · rw [if_neg (by simp [notPos])] at validated
    cases validated
    simp only [Transaction.keyImages, inputs]
    exact .nil
  · rw [if_pos isPos] at validated
    obtain ⟨⟨between, maxRelated⟩, isValid, passed⟩ := Option.bind_eq_some_iff.mp validated
    have same : between = collected := by
      dsimp only at passed
      split at passed
      · split at passed
        · cases passed
          rfl
        · cases passed
      · split at passed
        · cases passed
          rfl
        · cases passed
    subst same
    rcases inputs with ⟨amount, keyOffsets, ki, inputs⟩ | ⟨keyOffsets, ki, inputs⟩
    · simp only [Transaction.keyImages, inputs]
      simp only [inputs] at isValid
      exact .of_input isValid
    · simp only [Transaction.keyImages, inputs]
      simp only [inputs] at isValid
      exact .of_input isValid

theorem validateAltBlockTxs_eq_some {id : Hash}
    {abei abei' : AltBlockExtendedInfo Hash KeyImage Key}
    (valid : prevalidateMinerTransaction abei.bl abei.height = true) (noOutputs : abei.outputs = ∅)
    (complete : ∀ txId ∈ abei.bl.txHashes, abei.onboardTransactions.lookup txId = none →
      getTransactionFromPoolOrDb env.pool s.main.db txId splitHeight = none)
    (validated : validateAltBlockTxs env s altChain splitHeight id abei = some (collected, abei')) :
    SameBlock abei abei' ∧
    (∀ txId ∈ abei.bl.txHashes, ∃ tx, abei.onboardTransactions.lookup txId = some tx ∧
      MultisigValidated env s altChain splitHeight tx txId tx.vin) ∧
    Collects s splitHeight (id :: altChain.map (·.1)) abei.keyImages [] collected ∧
    ∃ table, initialLookupTable s.main.db altChain splitHeight = some table ∧
      ∃ before, before.gindexLookupTable = table ∧ before.outputs = ∅ ∧
        abei' = abei.transactions.foldl (updateAltOutIndexesForTxInBlock s.main.db) before := by
  obtain ⟨table, isTable, validated⟩ := Option.bind_eq_some_iff.mp validated
  obtain ⟨mined, miner, validated⟩ := Option.bind_eq_some_iff.mp validated
  dsimp only at validated
  split at validated
  · have sameMiner := sameBlock_updateAltOutIndexesForTxInBlock s.main.db
      { abei with gindexLookupTable := table } abei.bl.minerTx
    have sameHashes := congrArg Block.txHashes sameMiner.bl
    have completeMined : ∀ txId ∈ (updateAltOutIndexesForTxInBlock s.main.db
        { abei with gindexLookupTable := table } abei.bl.minerTx).bl.txHashes,
        (updateAltOutIndexesForTxInBlock s.main.db { abei with gindexLookupTable := table }
          abei.bl.minerTx).onboardTransactions.lookup txId = none →
        getTransactionFromPoolOrDb env.pool s.main.db txId splitHeight = none := by
      intro txId inside missing
      rw [sameHashes] at inside
      rw [sameMiner.onboardTransactions] at missing
      exact complete txId inside missing
    obtain ⟨found, collects, folded⟩ := validateAltBlockTransactions_eq_some completeMined validated
    simp only [onboardOf, sameMiner.onboardTransactions, sameHashes] at found collects folded
    refine ⟨?_, found, (validateAltBlockMinerTx_collects valid miner).append collects,
      table, isTable, { abei with gindexLookupTable := table }, rfl, noOutputs, folded⟩
    rw [folded]
    obtain ⟨bl, height, onboardTransactions⟩ := sameMiner.trans (sameBlock_foldl s.main.db _ _)
    exact ⟨bl, height, onboardTransactions⟩
  · cases validated

end Collected

/-- What is known of a block that has been accepted on an alternative chain, and
of the node then. -/
structure Accepted (env : Environment Hash KeyImage Key) (s s' : Node Hash KeyImage Key)
    (b : Block Hash KeyImage Key)
    (id : Hash) (altChain : AltChain Hash KeyImage Key) (height splitHeight : Nat)
    (collected : List KeyImage) (abei : AltBlockExtendedInfo Hash KeyImage Key) : Prop where
  chain : altChain = altChainOf s.alternativeChains b.prevId
  connected : connect s.main.db altChain b.prevId = some (height, splitHeight)
  prevalidated : prevalidateMinerTransaction b height = true
  isNew : s.alternativeChains.lookup id = none
  bl : abei.bl = b
  height_eq : abei.height = height
  found : ∀ txId ∈ b.txHashes, ∃ tx, abei.onboardTransactions.lookup txId = some tx ∧
    MultisigValidated env s altChain splitHeight tx txId tx.vin
  collects : Collects s splitHeight (id :: altChain.map (·.1)) abei.keyImages [] collected
  indexes : ∃ table, initialLookupTable s.main.db altChain splitHeight = some table ∧
    ∃ before, before.gindexLookupTable = table ∧ before.outputs = ∅ ∧
      abei = abei.transactions.foldl (updateAltOutIndexesForTxInBlock s.main.db) before
  result : s' = { s with
    alternativeChains := s.alternativeChains.insert id abei
    altblocksKeyimages := appendAltblockKeyimagesToBigHeap s.altblocksKeyimages id collected
    alternativeChainsTxs := addAltBlockTxsHashs s.alternativeChainsTxs b }

def Node.altBlock (s : Node Hash KeyImage Key) (id : Hash) :
    Option (AltBlockExtendedInfo Hash KeyImage Key) :=
  s.alternativeChains.lookup id

theorem Accepted.altBlock {env : Environment Hash KeyImage Key} {s s' : Node Hash KeyImage Key}
    {b : Block Hash KeyImage Key} {id : Hash} {altChain : AltChain Hash KeyImage Key}
    {height splitHeight : Nat} {collected : List KeyImage}
    {abei : AltBlockExtendedInfo Hash KeyImage Key}
    (accepted : Accepted env s s' b id altChain height splitHeight collected abei) :
    s'.altBlock = Function.update s.altBlock id (some abei) := by
  rw [accepted.result]
  funext i
  by_cases same : i = id
  · subst same
    rw [Function.update_self]
    exact AList.lookup_insert _
  · rw [Function.update_of_ne same]
    exact AList.lookup_insert_ne same

theorem accepted_of_handleAlternativeBlock {env : Environment Hash KeyImage Key}
    {s s' : Node Hash KeyImage Key} {b : Block Hash KeyImage Key} {id : Hash}
    {onboard : AList fun _ : Hash => Transaction Hash KeyImage Key}
    (handled : handleAlternativeBlock env s b id onboard = some s') :
    ∃ altChain height splitHeight collected abei,
      Accepted env s s' b id altChain height splitHeight collected abei ∧
        abei.onboardTransactions = completeOnboard env.pool s.main.db b.txHashes onboard := by
  obtain ⟨⟨height, splitHeight⟩, connected, handled⟩ := Option.bind_eq_some_iff.mp handled
  dsimp only at handled
  split at handled
  · rename_i passed
    obtain ⟨⟨collected, abei⟩, validated, handled⟩ := Option.bind_eq_some_iff.mp handled
    dsimp only at handled
    split at handled
    · cases handled
    · rename_i isNew
      cases handled
      obtain ⟨same, found, collects, table, isTable, before, startsAt, noOutputs, folded⟩ :=
        validateAltBlockTxs_eq_some passed.2.2 rfl
          (fun txId inside missing => getTransactionFromPoolOrDb_of_missing inside missing)
            validated
      have sameTransactions : abei.transactions = _ := congrArg₂
        (fun (bl : Block Hash KeyImage Key) (onboard : AList fun _ : Hash =>
          Transaction Hash KeyImage Key) =>
          bl.minerTx :: bl.txHashes.filterMap fun txId =>
            onboard.lookup txId) same.bl same.onboardTransactions
      refine ⟨_, height, splitHeight, collected, abei,
        ⟨rfl, connected, passed.2.2, ?_, same.bl, same.height, ?_, ?_, ?_,
          ?_⟩, same.onboardTransactions⟩
      · simpa using isNew
      · rw [same.onboardTransactions]
        exact found
      · rw [AltBlockExtendedInfo.keyImages, sameTransactions]
        exact collects
      · exact ⟨table, isTable, before, startsAt, noOutputs, by rw [sameTransactions]; exact folded⟩
      · rw [same.bl]
  · cases handled

theorem accepted_of_step {env : Environment Hash KeyImage Key} {s s' : Node Hash KeyImage Key}
    {b : Block Hash KeyImage Key} {id : Hash}
    {onboard : AList fun _ : Hash => Transaction Hash KeyImage Key}
    (stepped : step s (.handleAlternativeBlock env b id onboard) = some s') :
    mainHeight s.main.db id = none ∧ ∃ altChain height splitHeight collected abei,
      Accepted env s s' b id altChain height splitHeight collected abei ∧
        abei.onboardTransactions = completeOnboard env.pool s.main.db b.txHashes onboard := by
  simp only [step] at stepped
  split at stepped
  · cases stepped
  · rename_i isNew
    exact ⟨by simpa using isNew, accepted_of_handleAlternativeBlock stepped⟩

end Zano.AltBlocks
