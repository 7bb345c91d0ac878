import Mathlib
import Zano.Decoys.BareOutputs
import Zano.Lib.OutwardSearch

/-! # Searching blocks for decoys

`get_random_outs_for_amounts4` looks for blocks near the heights that it is asked for. From each
height it goes outward until it has found a block with outputs that may be decoys. Up to three
passes are made over the heights, the last of which takes any block, so a height may find one block
in each pass and no more.
-/

namespace Zano.Decoys

open OutwardSearch

/-! ## The code -/

inductive LookUpStrategy where
  | regularTx
  | posCoinbase
  | any
  | unknown
  deriving DecidableEq, Repr

structure RandomOutsRequest4 where
  batches : List RequestBatch
  heightUpperLimit : UInt64
  lookUpStrategy : LookUpStrategy

def maxSearchDeltaHeight : ℕ := 3000

def isBlockFitForStrategy (blk : Block) : LookUpStrategy → Bool
  | .regularTx => !blk.txHashes.isEmpty
  | .posCoinbase => blk.posFlag
  | .any => true
  | .unknown => false

/-- One output of a transaction, when it is of a kind that may be a decoy and of the amount. -/
def collectOut (s : BlockchainStorage) (inputAmount : UInt64)
    (txEntry : TransactionChainEntry) (i : ℕ) (out : Serialization.TxOutV) (gidx : UInt64) :
    Except Failure (Option OutEntry) :=
  let amount : Option UInt64 :=
    match out with
    | .inl o =>
        match o.target with
        | .inl _ => some o.amount
        | .inr _ => none
    | .inr (.inl _) => some 0
    | .inr (.inr _) => none
  if amount ≠ some inputAmount then .ok none
  else
    match buildRandomOutEntryFromTxEntry s txEntry i inputAmount gidx.toNat s.hf4MinimumMixins
      false 0 with
    | .ok oen => .ok (some oen)
    | .error .refused => .ok none
    | .error .exception => .error .exception

/-- `process_tx`, which returns false when the indexes do not belong to the outputs. -/
def processTx (s : BlockchainStorage) (inputAmount : UInt64) (txEntry : TransactionChainEntry)
    (outs : List OutEntry) :
    Except Failure (List OutEntry × Bool) :=
  if txEntry.tx.vout.isEmpty then .ok (outs, true)
  else if txEntry.globalOutputIndexes.isEmpty then .ok (outs, true)
  else if txEntry.globalOutputIndexes.length ≠ txEntry.tx.vout.length then .ok (outs, false)
  else do
    let collected ← (txEntry.tx.vout.zip txEntry.globalOutputIndexes).zipIdx.mapM fun out =>
      collectOut s inputAmount txEntry out.2 out.1.1 out.1.2
    .ok (outs ++ collected.reduceOption, true)

/-- Transactions that are not found are left out. -/
def processTxs (s : BlockchainStorage) (inputAmount : UInt64) :
    List Serialization.Hash → List OutEntry → Except Failure (List OutEntry × Bool)
  | [], outs => .ok (outs, true)
  | txid :: txids, outs =>
      match s.dbTransactions txid with
      | none => processTxs s inputAmount txids outs
      | some txEntry => do
          let (outs, processed) ← processTx s inputAmount txEntry outs
          if processed then processTxs s inputAmount txids outs else .ok (outs, false)

/-- The outputs so far are there for the caller whatever is returned. -/
def collectAllOutsInBlock (s : BlockchainStorage) (inputAmount : UInt64) (blk : Block) :
    Except Failure (List OutEntry × Bool) :=
  processTxs s inputAmount (blk.minerTxId :: blk.txHashes) []

structure BlockSearch where
  outBlocks : List OutputsInBlock
  seenHeights : List ℕ
  pickedHeights : List ℕ

/-- One candidate, with the answer whether it was found for the seed. -/
def tryHeight (s : BlockchainStorage) (inputAmount : UInt64) (strategy : LookUpStrategy)
    (candidateHeight : ℕ) (w : BlockSearch) :
    Except Failure (BlockSearch × Bool) :=
  if inputAmount = 0 ∧ candidateHeight ≤ s.hf4ActiveAfterHeight.toNat then .ok (w, false)
  else
    match s.dbBlocks[candidateHeight]? with
    | none => .ok (w, false)
    | some blk =>
        if candidateHeight ∈ w.pickedHeights ∨ candidateHeight ∈ w.seenHeights then .ok (w, false)
        else
          let seenHeights := candidateHeight :: w.seenHeights
          if !isBlockFitForStrategy blk strategy then
            .ok (⟨w.outBlocks, seenHeights, w.pickedHeights⟩, false)
          else
            match collectAllOutsInBlock s inputAmount blk with
            | .error failure => .error failure
            | .ok (oe, _) =>
                let pickedHeights := candidateHeight :: w.pickedHeights
                if oe.isEmpty then .ok (⟨w.outBlocks, seenHeights, pickedHeights⟩, false)
                else .ok (⟨w.outBlocks ++ [⟨candidateHeight, oe⟩], seenHeights, pickedHeights⟩,
                  true)

def seedHeight (heightLimit : ℕ) (seedHeightOriginal : UInt64) : ℕ :=
  if heightLimit < seedHeightOriginal.toNat then heightLimit else seedHeightOriginal.toNat

/-- A pass goes on after a loop that has ended without a failure. `none` is a loop
that has not ended. -/
def andThen {α β : Type} (x : Option (Except Failure α)) (f : α → Option (Except Failure β)) :
    Option (Except Failure β) :=
  match x with
  | none => none
  | some (.error failure) => some (.error failure)
  | some (.ok a) => f a

section Passes

variable (s : BlockchainStorage) (inputAmount : UInt64) (heightLimit requestedHeightsCount : ℕ)

/-- The seeds of a pass. A seed from which nothing after the hardfork is near enough is skipped. -/
def searchSeeds (strategy : LookUpStrategy) :
    List UInt64 → BlockSearch → Option (Except Failure BlockSearch)
  | [], w => some (.ok w)
  | seedHeightOriginal :: rest, w =>
      if inputAmount = 0 ∧ seedHeight heightLimit seedHeightOriginal + maxSearchDeltaHeight ≤
        s.hf4ActiveAfterHeight.toNat then
        searchSeeds strategy rest w
      else
        andThen (outwardSearch (tryHeight s inputAmount strategy)
          (seedHeight heightLimit seedHeightOriginal) heightLimit
          maxSearchDeltaHeight w) fun (w, _) =>
            if requestedHeightsCount ≤ w.outBlocks.length then some (.ok w)
            else searchSeeds strategy rest w

def searchPass (heights : List UInt64) (strategy : LookUpStrategy) (w : BlockSearch) :
    Option (Except Failure BlockSearch) :=
  searchSeeds s inputAmount heightLimit requestedHeightsCount strategy heights
    { w with seenHeights := [] }

end Passes

def searchBlocks (s : BlockchainStorage) (batch : RequestBatch) (lookUpStrategy : LookUpStrategy)
    (heightLimit : ℕ) :
    Option (Except Failure (List OutputsInBlock)) :=
  let requestedHeightsCount := batch.heights.length
  let pass := searchPass s batch.inputAmount heightLimit requestedHeightsCount batch.heights
  andThen (pass lookUpStrategy ⟨[], [], []⟩) fun w =>
    andThen (if w.outBlocks.length < requestedHeightsCount ∧ lookUpStrategy ≠ .regularTx then
      pass .regularTx w
      else some (.ok w)) fun w =>
        andThen (if w.outBlocks.length < requestedHeightsCount then pass .any w
          else some (.ok w)) fun w =>
          some (.ok w.outBlocks)

/-- In 64 bits, like `top_block_height`. -/
def heightLimitOf (s : BlockchainStorage) (heightUpperLimit : UInt64) : ℕ :=
  let topBlockHeight :=
    UInt64.ofNat s.currentBlockchainSize - UInt64.ofNat currencyMinedMoneyUnlockWindow
  (if heightUpperLimit ≠ 0 ∧ heightUpperLimit ≤ topBlockHeight then heightUpperLimit
    else topBlockHeight).toNat

def blocksOfBatch (s : BlockchainStorage) (req : RandomOutsRequest4) (batch : RequestBatch) :
    Option (Except Failure (List OutputsInBlock)) :=
  if batch.globalOffsets ≠ [] ∨ batch.ringSize ≠ 0 then
    andThen (getBareOutsByIndices s batch s.currentBlockchainSize) fun checkedAndBlocks =>
      some (.ok checkedAndBlocks.2)
  else searchBlocks s batch req.lookUpStrategy (heightLimitOf s req.heightUpperLimit)

def blocksOfBatches (s : BlockchainStorage) (req : RandomOutsRequest4) :
    List RequestBatch → Option (Except Failure (List (List OutputsInBlock)))
  | [] => some (.ok [])
  | batch :: batches =>
      andThen (blocksOfBatch s req batch) fun outBlocks =>
        andThen (blocksOfBatches s req batches) fun blocksBatches =>
          some (.ok (outBlocks :: blocksBatches))

def getRandomOutsForAmounts4 (s : BlockchainStorage) (req : RandomOutsRequest4) :
    Option (Except Failure (List (List OutputsInBlock))) :=
  if req.lookUpStrategy ≠ .regularTx ∧ req.lookUpStrategy ≠ .posCoinbase then some (.error .refused)
  else blocksOfBatches s req req.batches

/-! ## One height -/

/-- The outputs of the block at a height that may be decoys. -/
def eligibleOuts (s : BlockchainStorage) (inputAmount : UInt64) (height : ℕ) : List OutEntry :=
  match s.dbBlocks[height]? with
  | none => []
  | some blk =>
      match collectAllOutsInBlock s inputAmount blk with
      | .ok (outs, _) => outs
      | .error _ => []

structure InLimits (s : BlockchainStorage) (inputAmount : UInt64)
    (heightLimit height : ℕ) : Prop where
  notAbove : height ≤ heightLimit
  afterHf4 : inputAmount = 0 → s.hf4ActiveAfterHeight.toNat < height

def BlockSearch.heights (w : BlockSearch) : List ℕ := w.outBlocks.map (·.blockHeight)

/-- What holds of the blocks all the time. A block that was picked and is not in the
response had nothing. -/
structure Searched (s : BlockchainStorage) (inputAmount : UInt64) (heightLimit : ℕ)
    (w : BlockSearch) : Prop where
  different : w.heights.Nodup
  inLimits : ∀ height ∈ w.heights, InLimits s inputAmount heightLimit height
  outs : ∀ b ∈ w.outBlocks, b.outs = eligibleOuts s inputAmount b.blockHeight ∧ b.outs ≠ []
  picked : ∀ height ∈ w.heights, height ∈ w.pickedHeights
  kept : ∀ height ∈ w.pickedHeights, height ∈ w.heights ∨ eligibleOuts s inputAmount height = []

/-- In the pass that takes any block a height is not seen without being picked. -/
structure Searching (s : BlockchainStorage) (inputAmount : UInt64) (heightLimit : ℕ)
    (strategy : LookUpStrategy)
    (w : BlockSearch) : Prop extends Searched s inputAmount heightLimit w where
  seen : strategy = .any → ∀ height ∈ w.seenHeights, height ∈ w.pickedHeights

/-- No block was found in between. -/
structure Missed (w later : BlockSearch) : Prop where
  outBlocks : later.outBlocks = w.outBlocks
  picked : w.pickedHeights ⊆ later.pickedHeights

/-- In the pass that takes any block nothing is left at this height. -/
def Passed (s : BlockchainStorage) (inputAmount : UInt64) (strategy : LookUpStrategy)
    (w : BlockSearch) (height : ℕ) : Prop :=
  strategy = .any → (inputAmount = 0 → s.hf4ActiveAfterHeight.toNat < height) →
    height < s.dbBlocks.length →
    height ∈ w.pickedHeights

section Heights

variable {s : BlockchainStorage} {inputAmount : UInt64} {heightLimit height : ℕ}
  {strategy : LookUpStrategy} {w next : BlockSearch}

theorem tryHeight_missed (searching : Searching s inputAmount heightLimit strategy w)
    (tried : tryHeight s inputAmount strategy height w = .ok (next, false)) :
    Searching s inputAmount heightLimit strategy next ∧ Missed w next ∧
      Passed s inputAmount strategy next height := by
  obtain ⟨searched, seen⟩ := searching
  unfold tryHeight at tried
  split at tried
  next early =>
    cases tried
    refine ⟨⟨searched, seen⟩, ⟨rfl, List.Subset.refl _⟩, fun _ afterHf4 _ => ?_⟩
    have later := afterHf4 early.1
    omega
  next =>
    split at tried
    next noBlock =>
      cases tried
      refine ⟨⟨searched, seen⟩, ⟨rfl, List.Subset.refl _⟩, fun _ _ below => ?_⟩
      rw [List.getElem?_eq_none_iff] at noBlock
      omega
    next blk isBlock =>
      split at tried
      next known =>
        cases tried
        exact ⟨⟨searched, seen⟩, ⟨rfl, List.Subset.refl _⟩,
          fun any _ _ => known.elim id (seen any height)⟩
      next =>
        simp only at tried
        split at tried
        next misfit =>
          cases tried
          have notAny : strategy ≠ .any := by
            rintro rfl
            simp [isBlockFitForStrategy] at misfit
          exact ⟨⟨⟨searched.different, searched.inLimits, searched.outs, searched.picked,
            searched.kept⟩, fun any => absurd any notAny⟩, ⟨rfl, List.Subset.refl _⟩, fun any =>
              absurd any notAny⟩
        next =>
          split at tried
          next => cases tried
          next oe processed collected =>
            split at tried <;> cases tried
            next empty =>
              have nothing : eligibleOuts s inputAmount height = [] := by
                simp only [eligibleOuts, isBlock, collected]
                exact List.isEmpty_iff.mp empty
              refine ⟨⟨⟨searched.different, searched.inLimits, searched.outs, ?_, ?_⟩, ?_⟩,
                ⟨rfl, List.subset_cons_self _ _⟩, fun _ _ _ => List.mem_cons_self⟩
              · exact fun other inside => List.mem_cons_of_mem _ (searched.picked other inside)
              · exact List.forall_mem_cons.mpr ⟨.inr nothing, searched.kept⟩
              · intro any
                exact List.forall_mem_cons.mpr
                  ⟨List.mem_cons_self,
                    fun other inside => List.mem_cons_of_mem _ (seen any other inside)⟩

theorem tryHeight_found (searching : Searching s inputAmount heightLimit strategy w)
    (notAbove : height ≤ heightLimit)
    (tried : tryHeight s inputAmount strategy height w = .ok (next, true)) :
    Searching s inputAmount heightLimit strategy next ∧ next.heights = w.heights ++ [height] ∧
      w.pickedHeights ⊆ next.pickedHeights := by
  obtain ⟨searched, seen⟩ := searching
  unfold tryHeight at tried
  split at tried
  · cases tried
  next late =>
    split at tried
    · cases tried
    next blk isBlock =>
      split at tried
      · cases tried
      next isNew =>
        simp only at tried
        split at tried
        · cases tried
        next =>
          split at tried
          next => cases tried
          next oe processed collected =>
            split at tried <;> cases tried
            next notEmpty =>
              have eligible : oe = eligibleOuts s inputAmount height := by
                simp only [eligibleOuts, isBlock, collected]
              have heights :
                  (BlockSearch.heights ⟨w.outBlocks ++
                    [⟨height, oe⟩], height :: w.seenHeights, height :: w.pickedHeights⟩) =
                      w.heights ++ [height] := by simp [BlockSearch.heights]
              refine ⟨⟨⟨?_, ?_, ?_, ?_, ?_⟩, ?_⟩, heights, List.subset_cons_self _ _⟩
              · rw [heights, List.nodup_append]
                refine ⟨searched.different, List.nodup_singleton _, ?_⟩
                intro other inside isHeight same
                rw [List.mem_singleton] at same
                subst same
                exact fun equal => isNew (.inl (equal ▸ searched.picked other inside))
              · rw [heights]
                intro other inside
                rcases List.mem_append.mp inside with old | here
                · exact searched.inLimits other old
                · rw [List.mem_singleton.mp here]
                  exact ⟨notAbove, fun zero => by
                    by_contra early
                    exact late ⟨zero, Nat.not_lt.mp early⟩⟩
              · intro b inside
                rcases List.mem_append.mp inside with old | here
                · exact searched.outs b old
                · rw [List.mem_singleton.mp here]
                  exact ⟨eligible, fun empty => notEmpty (List.isEmpty_iff.mpr empty)⟩
              · rw [heights]
                intro other inside
                rcases List.mem_append.mp inside with old | here
                · exact List.mem_cons_of_mem _ (searched.picked other old)
                · rw [List.mem_singleton.mp here]
                  exact List.mem_cons_self
              · rw [heights]
                refine List.forall_mem_cons.mpr ⟨.inl (by simp), fun other inside => ?_⟩
                exact (searched.kept other inside).imp_left (List.mem_append_left _)
              · intro any
                exact List.forall_mem_cons.mpr
                  ⟨List.mem_cons_self,
                    fun other inside => List.mem_cons_of_mem _ (seen any other inside)⟩

theorem tryHeight_error {failure : Failure}
    (fails : tryHeight s inputAmount strategy height w = .error failure) :
    ∃ blk ∈ s.dbBlocks, collectAllOutsInBlock s inputAmount blk = .error failure := by
  unfold tryHeight at fails
  split at fails
  · cases fails
  · split at fails
    · cases fails
    next blk isBlock =>
      split at fails
      · cases fails
      · simp only at fails
        split at fails
        · cases fails
        · split at fails
          next failure' collected =>
            cases fails
            exact ⟨blk, List.mem_of_getElem? isBlock, collected⟩
          · split at fails <;> cases fails

end Heights

/-! ## One seed -/

/-- Near the seed, and nearer than the block that it has found, every block in the
limits is done with. -/
def NothingLeft (s : BlockchainStorage) (inputAmount : UInt64) (heightLimit center : ℕ)
    (own : Option ℕ) (done : ℕ → Prop) : Prop :=
  ∀ height, InLimits s inputAmount heightLimit height → height < s.dbBlocks.length →
    distance center height ≤ maxSearchDeltaHeight →
    (∀ near ∈ own, distance center height < distance center near) → done height

/-- What a seed has found in the pass that takes any block. -/
structure Settled (s : BlockchainStorage) (inputAmount : UInt64) (heightLimit : ℕ) (done : ℕ → Prop)
    (seedHeightOriginal : UInt64)
    (own : Option ℕ) : Prop where
  near : ∀ height ∈ own, distance (seedHeight heightLimit seedHeightOriginal) height ≤
    maxSearchDeltaHeight
  nothingLeft :
    NothingLeft s inputAmount heightLimit (seedHeight heightLimit seedHeightOriginal) own done

theorem Settled.imp {s : BlockchainStorage} {inputAmount : UInt64} {heightLimit : ℕ}
    {done later : ℕ → Prop} {seedHeightOriginal : UInt64} {own : Option ℕ}
    (settled : Settled s inputAmount heightLimit done seedHeightOriginal own)
    (more : ∀ height, done height → later height) :
    Settled s inputAmount heightLimit later seedHeightOriginal own :=
  ⟨settled.near,
    fun height inLimits below near nearer =>
      more height (settled.nothingLeft height inLimits below near nearer)⟩

theorem seedHeight_le (heightLimit : ℕ) (seedHeightOriginal : UInt64) :
    seedHeight heightLimit seedHeightOriginal ≤ heightLimit := by
  rw [seedHeight]
  split <;> omega

section Seeds

variable {s : BlockchainStorage} {inputAmount : UInt64}
  {heightLimit center requestedHeightsCount : ℕ} {strategy : LookUpStrategy} {w next : BlockSearch}

theorem searchSeed_ok {found : Bool} (searching : Searching s inputAmount heightLimit strategy w)
    (inside : center ≤ heightLimit)
    (searched :
      outwardSearch (tryHeight s inputAmount strategy) center heightLimit maxSearchDeltaHeight w =
      some (.ok (next, found))) :
    Searching s inputAmount heightLimit strategy next ∧ w.pickedHeights ⊆ next.pickedHeights ∧
      ∃ own : Option ℕ, next.heights = w.heights ++ own.toList ∧
        (∀ near ∈ own, distance center near ≤ maxSearchDeltaHeight) ∧
        (strategy = .any →
          NothingLeft s inputAmount heightLimit center own (· ∈ next.pickedHeights)) := by
  rw [outwardSearch_eq, Option.some.injEq] at searched
  obtain ⟨before, middle, middleSearching, missed, passed, ends⟩ :=
    @searchAlong_ok _ _ _ (Searching s inputAmount heightLimit strategy) Missed
      (Passed s inputAmount strategy) _ _ _ _
      (fun w => ⟨rfl, List.Subset.refl _⟩)
      (fun a b c first second =>
        ⟨second.outBlocks.trans first.outBlocks, List.Subset.trans first.picked second.picked⟩)
      (fun a b height missed passed any afterHf4 below => missed.picked (passed any afterHf4 below))
      (fun height a b begins tried => tryHeight_missed begins tried) searching searched
  have heights : middle.heights = w.heights := congrArg (List.map _) missed.outBlocks
  rcases ends with ⟨-, all, same⟩ | ⟨isFound, height, after, split, tried⟩
  · subst same
    refine ⟨middleSearching, missed.picked, none, by simpa using heights, by simp, ?_⟩
    intro any height inLimits below near _
    exact passed height (all ▸ mem_candidates inLimits.notAbove near) any inLimits.afterHf4 below
  · have isCandidate : height ∈ candidates center heightLimit maxSearchDeltaHeight := by
      rw [split]
      exact List.mem_append_right _ List.mem_cons_self
    obtain ⟨notAbove, near⟩ := near_of_mem_candidates inside isCandidate
    obtain ⟨nextSearching, grown, picked⟩ := tryHeight_found middleSearching notAbove tried
    refine ⟨nextSearching, List.Subset.trans missed.picked picked,
      some height, by rw [grown, heights]; rfl, by simpa using near, ?_⟩
    intro any other inLimits below near nearer
    have inBefore :=
      mem_before_of_nearer split (mem_candidates inLimits.notAbove near) (nearer height rfl)
    exact picked (passed other inBefore any inLimits.afterHf4 below)

/-- The loops end, and they fail only where the outputs of a block cannot be collected. -/
def Ends {α : Type} (s : BlockchainStorage) (inputAmount : UInt64)
    (x : Option (Except Failure α)) : Prop :=
  (∃ a, x = some (.ok a)) ∨
    ∃ failure, x = some (.error failure) ∧
      ∃ blk ∈ s.dbBlocks, collectAllOutsInBlock s inputAmount blk = .error failure

theorem Ends.andThen {α β : Type} {x : Option (Except Failure α)}
    {f : α → Option (Except Failure β)} (ends : Ends s inputAmount x)
    (each : ∀ a, Ends s inputAmount (f a)) : Ends s inputAmount (andThen x f) := by
  rcases ends with ⟨a, rfl⟩ | ⟨failure, rfl, why⟩
  · exact each a
  · exact .inr ⟨failure, rfl, why⟩

theorem searchSeed_ends (w : BlockSearch) (center heightLimit : ℕ) (strategy : LookUpStrategy) :
    Ends s inputAmount (outwardSearch (tryHeight s inputAmount strategy) center heightLimit
      maxSearchDeltaHeight w) := by
  rw [outwardSearch_eq]
  cases searched : searchAlong (tryHeight s inputAmount strategy)
    (candidates center heightLimit maxSearchDeltaHeight) w with
  | ok result => exact .inl ⟨result, rfl⟩
  | error failure =>
      obtain ⟨height, -, at_, fails⟩ := searchAlong_error searched
      exact .inr ⟨failure, rfl, tryHeight_error fails⟩

/-- Nothing after the hardfork is near a seed that is skipped. -/
theorem settled_of_skipped {seedHeightOriginal : UInt64} {done : ℕ → Prop}
    (skipped : inputAmount = 0 ∧
      seedHeight heightLimit seedHeightOriginal + maxSearchDeltaHeight ≤
        s.hf4ActiveAfterHeight.toNat) :
    Settled s inputAmount heightLimit done seedHeightOriginal none := by
  refine ⟨by simp, fun height inLimits _ near _ => ?_⟩
  have late := inLimits.afterHf4 skipped.1
  unfold distance at near
  omega

theorem andThen_eq_ok {α β : Type} {x : Option (Except Failure α)}
    {f : α → Option (Except Failure β)} {b : β} :
    andThen x f = some (.ok b) ↔ ∃ a, x = some (.ok a) ∧ f a = some (.ok b) := by
  unfold andThen
  split <;> simp

/-- The seeds of a pass. Each finds at most one block, and the pass is left when
there are enough. -/
theorem searchSeeds_ok {heights : List UInt64}
    (searching : Searching s inputAmount heightLimit strategy w)
    (searched : searchSeeds s inputAmount heightLimit requestedHeightsCount strategy heights w =
      some (.ok next)) :
    Searching s inputAmount heightLimit strategy next ∧ w.pickedHeights ⊆ next.pickedHeights ∧
      (w.heights.length < requestedHeightsCount → next.heights.length ≤ requestedHeightsCount) ∧
      (strategy = .any → next.heights.length < requestedHeightsCount →
        ∃ own : List (Option ℕ), next.heights = w.heights ++ own.reduceOption ∧
          List.Forall₂ (Settled s inputAmount heightLimit (· ∈ next.pickedHeights)) heights
            own) := by
  induction heights generalizing w with
  | nil =>
      cases searched
      exact ⟨searching, List.Subset.refl _, Nat.le_of_lt,
        fun _ _ => ⟨[], by simp [List.reduceOption], .nil⟩⟩
  | cons seedHeightOriginal rest inductionHypothesis =>
      rw [searchSeeds] at searched
      split at searched
      next skipped =>
        obtain ⟨nextSearching, picked, atMost, complete⟩ := inductionHypothesis searching searched
        refine ⟨nextSearching, picked, atMost, fun any few => ?_⟩
        obtain ⟨own, grown, settled⟩ := complete any few
        exact ⟨none :: own, grown, .cons (settled_of_skipped skipped) settled⟩
      next =>
        obtain ⟨⟨middle, found⟩, seedSearched, goesOn⟩ := andThen_eq_ok.mp searched
        obtain ⟨middleSearching, picked, own, grown, near, nothingLeft⟩ :=
          searchSeed_ok searching (seedHeight_le heightLimit seedHeightOriginal) seedSearched
        have oneMore : middle.heights.length ≤ w.heights.length + 1 := by
          rw [grown, List.length_append]
          cases own <;> simp
        have size : middle.outBlocks.length = middle.heights.length := by simp [BlockSearch.heights]
        simp only at goesOn
        split at goesOn
        next enough =>
          cases goesOn
          exact ⟨middleSearching, picked, fun few => by omega, fun _ few => by omega⟩
        next notEnough =>
          obtain ⟨nextSearching, pickedLater, atMost, complete⟩ :=
            inductionHypothesis middleSearching goesOn
          refine ⟨nextSearching, List.Subset.trans picked pickedLater, fun _ => atMost (by omega),
            fun any few => ?_⟩
          obtain ⟨owns, grownLater, settled⟩ := complete any few
          refine ⟨own :: owns, ?_, .cons ?_ settled⟩
          · rw [grownLater, grown, List.append_assoc]
            cases own <;> rfl
          · exact Settled.imp ⟨near, nothingLeft any⟩ fun height isPicked => pickedLater isPicked

theorem searchSeeds_ends (heights : List UInt64) (w : BlockSearch) :
    Ends s inputAmount
      (searchSeeds s inputAmount heightLimit requestedHeightsCount strategy heights w) := by
  induction heights generalizing w with
  | nil => exact .inl ⟨w, rfl⟩
  | cons seedHeightOriginal rest inductionHypothesis =>
      rw [searchSeeds]
      split
      next => exact inductionHypothesis w
      next =>
        refine (searchSeed_ends w _ _ _).andThen fun next => ?_
        dsimp only
        split
        next => exact .inl ⟨_, rfl⟩
        next => exact inductionHypothesis next.1

end Seeds

/-! ## The passes -/

/-- The blocks that are answered. Where there are fewer than were asked for, each height has found a
block of its own in the last pass, a different one each, or every block near it is among them; of
the blocks that are nearer than its own all are. -/
structure BlocksFound (s : BlockchainStorage) (batch : RequestBatch) (heightLimit : ℕ)
    (outBlocks : List OutputsInBlock) :
    Prop where
  different : (outBlocks.map (·.blockHeight)).Nodup
  inLimits : ∀ b ∈ outBlocks, InLimits s batch.inputAmount heightLimit b.blockHeight
  outs : ∀ b ∈ outBlocks, b.outs = eligibleOuts s batch.inputAmount b.blockHeight ∧ b.outs ≠ []
  atMost : outBlocks.length ≤ batch.heights.length
  complete : outBlocks.length < batch.heights.length → ∃ own : List (Option ℕ),
    own.reduceOption.Nodup ∧ own.reduceOption ⊆ outBlocks.map (·.blockHeight) ∧
    List.Forall₂ (Settled s batch.inputAmount heightLimit fun height =>
      eligibleOuts s batch.inputAmount height ≠ [] →
        height ∈ outBlocks.map (·.blockHeight)) batch.heights own

section Passing

variable {s : BlockchainStorage} {inputAmount : UInt64} {heightLimit : ℕ} {heights : List UInt64}
  {strategy : LookUpStrategy} {w next : BlockSearch}

theorem searched_start : Searched s inputAmount heightLimit ⟨[], [], []⟩ :=
  ⟨List.nodup_nil, nofun, nofun, nofun, nofun⟩

theorem searchPass_ok (searched : Searched s inputAmount heightLimit w)
    (few : w.heights.length < heights.length ∨ w.heights = [])
    (passed : searchPass s inputAmount heightLimit heights.length heights strategy w =
      some (.ok next)) :
    Searched s inputAmount heightLimit next ∧ next.heights.length ≤ heights.length ∧
      (strategy = .any → next.heights.length < heights.length → ∃ own : List (Option ℕ),
        next.heights = w.heights ++ own.reduceOption ∧
          List.Forall₂ (Settled s inputAmount heightLimit (· ∈ next.pickedHeights)) heights
            own) := by
  have begins : Searching s inputAmount heightLimit strategy { w with seenHeights := [] } :=
    ⟨⟨searched.different, searched.inLimits, searched.outs, searched.picked, searched.kept⟩,
      fun _ => nofun⟩
  obtain ⟨nextSearching, -, atMost, complete⟩ := searchSeeds_ok begins passed
  refine ⟨nextSearching.toSearched, ?_, complete⟩
  rcases few with few | empty
  · exact atMost few
  · cases heights with
    | nil =>
        cases passed
        exact Nat.le_of_eq (congrArg List.length empty)
    | cons seedHeightOriginal rest =>
        have nothing : BlockSearch.heights { w with seenHeights := [] } = [] := empty
        exact atMost (by rw [nothing]; exact Nat.succ_pos _)

theorem searchPass_ends (w : BlockSearch) : Ends s inputAmount
    (searchPass s inputAmount heightLimit heights.length heights strategy w) :=
  searchSeeds_ends heights _

/-- A pass that is made only where more blocks are wanted. -/
theorem passIf_ok {wanted : Prop} [Decidable wanted]
    (searched : Searched s inputAmount heightLimit w) (atMost : w.heights.length ≤ heights.length)
    (few : wanted → w.heights.length < heights.length) (passed : (if wanted then
      searchPass s inputAmount heightLimit heights.length heights strategy w else some (.ok w)) =
      some (.ok next)) :
    Searched s inputAmount heightLimit next ∧ next.heights.length ≤ heights.length := by
  split at passed
  next again =>
    obtain ⟨nextSearched, nextAtMost, -⟩ := searchPass_ok searched (.inl (few again)) passed
    exact ⟨nextSearched, nextAtMost⟩
  next =>
    cases passed
    exact ⟨searched, atMost⟩

theorem searchBlocks_ends (batch : RequestBatch) (lookUpStrategy : LookUpStrategy) :
    Ends s batch.inputAmount (searchBlocks s batch lookUpStrategy heightLimit) := by
  unfold searchBlocks
  refine (searchPass_ends _).andThen fun first => Ends.andThen ?_ fun second =>
    Ends.andThen ?_ fun third => .inl ⟨_, rfl⟩
  · split
    next => exact searchPass_ends _
    next => exact .inl ⟨_, rfl⟩
  · split
    next => exact searchPass_ends _
    next => exact .inl ⟨_, rfl⟩

theorem searchBlocks_found {batch : RequestBatch} {lookUpStrategy : LookUpStrategy}
    {outBlocks : List OutputsInBlock}
    (answered : searchBlocks s batch lookUpStrategy heightLimit = some (.ok outBlocks)) :
    BlocksFound s batch heightLimit outBlocks := by
  have size (w : BlockSearch) : w.outBlocks.length = w.heights.length := by
    simp [BlockSearch.heights]
  obtain ⟨first, isFirst, answered⟩ := andThen_eq_ok.mp answered
  obtain ⟨second, isSecond, answered⟩ := andThen_eq_ok.mp answered
  obtain ⟨third, isThird, answered⟩ := andThen_eq_ok.mp answered
  cases answered
  obtain ⟨firstSearched, firstAtMost, -⟩ := searchPass_ok searched_start (.inr rfl) isFirst
  obtain ⟨secondSearched, secondAtMost⟩ :=
    passIf_ok firstSearched firstAtMost (fun again => size first ▸ again.1) isSecond
  obtain ⟨thirdSearched, thirdAtMost⟩ :=
    passIf_ok secondSearched secondAtMost (fun again => size second ▸ again) isThird
  refine ⟨thirdSearched.different, ?_, thirdSearched.outs, size third ▸ thirdAtMost, fun few => ?_⟩
  · exact fun b inside => thirdSearched.inLimits _ (List.mem_map_of_mem inside)
  · rw [size third] at few
    split at isThird
    next again =>
      obtain ⟨-, -, complete⟩ := searchPass_ok secondSearched (.inl (size second ▸ again)) isThird
      obtain ⟨own, grown, settled⟩ := complete rfl few
      have different := thirdSearched.different
      rw [grown] at different
      refine ⟨own, (List.nodup_append.mp different).2.1, ?_,
        settled.imp fun seed mine isSettled => ?_⟩
      · intro height inside
        change height ∈ third.heights
        rw [grown]
        exact List.mem_append_right _ inside
      · exact isSettled.imp fun height isPicked eligible =>
          (thirdSearched.kept height isPicked).resolve_right eligible
    next enough =>
      cases isThird
      rw [size second] at enough
      exact absurd few enough

end Passing

theorem blocksOfBatches_ok {s : BlockchainStorage} {req : RandomOutsRequest4}
    {batches : List RequestBatch} {res : List (List OutputsInBlock)}
    (answered : blocksOfBatches s req batches = some (.ok res)) :
    List.Forall₂ (fun batch outBlocks => blocksOfBatch s req batch = some (.ok outBlocks))
      batches res := by
  induction batches generalizing res with
  | nil =>
      cases answered
      exact .nil
  | cons batch batches inductionHypothesis =>
      obtain ⟨outBlocks, isFirst, answered⟩ := andThen_eq_ok.mp answered
      obtain ⟨others, areOthers, answered⟩ := andThen_eq_ok.mp answered
      cases answered
      exact .cons isFirst (inductionHypothesis areOthers)

theorem heightLimitOf_le {s : BlockchainStorage}
    (tenBlocks : currencyMinedMoneyUnlockWindow ≤ s.dbBlocks.length)
    (counted : s.dbBlocks.length < 2 ^ 64) (heightUpperLimit : UInt64) :
    heightLimitOf s heightUpperLimit + currencyMinedMoneyUnlockWindow ≤ s.dbBlocks.length := by
  have top : (UInt64.ofNat s.dbBlocks.length - UInt64.ofNat currencyMinedMoneyUnlockWindow).toNat =
      s.dbBlocks.length - currencyMinedMoneyUnlockWindow := by
    unfold currencyMinedMoneyUnlockWindow at *
    rw [UInt64.toNat_sub_of_le, UInt64.toNat_ofNat', UInt64.toNat_ofNat', Nat.mod_eq_of_lt counted]
    rw [UInt64.le_iff_toNat_le, UInt64.toNat_ofNat', UInt64.toNat_ofNat', Nat.mod_eq_of_lt counted]
    omega
  rw [heightLimitOf, BlockchainStorage.currentBlockchainSize]
  split
  next lower =>
    have below := UInt64.le_iff_toNat_le.mp lower.2
    omega
  next => omega

/-- A batch without bare offsets is answered as told unless the outputs of a block
cannot be collected. -/
theorem random_blocks_found (s : BlockchainStorage) (req : RandomOutsRequest4)
    (tenBlocks : currencyMinedMoneyUnlockWindow ≤ s.dbBlocks.length)
    (counted : s.dbBlocks.length < 2 ^ 64) :
    heightLimitOf s req.heightUpperLimit + currencyMinedMoneyUnlockWindow ≤ s.dbBlocks.length ∧
    (∀ batch, batch.globalOffsets = [] → batch.ringSize = 0 →
      Ends s batch.inputAmount (blocksOfBatch s req batch)) ∧
    ∀ res, getRandomOutsForAmounts4 s req = some (.ok res) →
      List.Forall₂ (fun batch outBlocks => batch.globalOffsets = [] → batch.ringSize = 0 →
        BlocksFound s batch (heightLimitOf s req.heightUpperLimit) outBlocks) req.batches res := by
  have ownBatch {batch : RequestBatch} (noOffsets : batch.globalOffsets = [])
      (noRing : batch.ringSize = 0) :
      blocksOfBatch s req batch =
        searchBlocks s batch req.lookUpStrategy (heightLimitOf s req.heightUpperLimit) := by
    rw [blocksOfBatch, if_neg]
    simp [noOffsets, noRing]
  refine ⟨heightLimitOf_le tenBlocks counted _, fun batch noOffsets noRing => ?_,
    fun res answered => ?_⟩
  · rw [ownBatch noOffsets noRing]
    exact searchBlocks_ends batch _
  · unfold getRandomOutsForAmounts4 at answered
    split at answered
    · cases answered
    · refine (blocksOfBatches_ok answered).imp fun batch outBlocks isBlocks noOffsets noRing => ?_
      rw [ownBatch noOffsets noRing] at isBlocks
      exact searchBlocks_found isBlocks

section Example

/-- One transaction, with one output whose amount is hidden. -/
private def hiddenOutput : TransactionChainEntry :=
  ⟨⟨2, 0, [], [],
    [.inr (.inl ⟨Serialization.Blob.filled 32 1, nullPkey, nullPkey, nullPkey, 0, 0, 0, 0⟩)]⟩, 0,
    [false], [0]⟩

private def hiddenOutputs (size : ℕ) : BlockchainStorage where
  dbBlocks := List.replicate size ⟨false, ⟨2, 0, [], [], []⟩, nullPkey, [nullPkey]⟩
  dbOutputs _ := []
  dbTransactions _ := some hiddenOutput
  coreTime := 0
  hf4MinimumMixins := 0
  hf4ActiveAfterHeight := 3000

private def oneLateHeight : RandomOutsRequest4 := ⟨[⟨0, [0, 0, 3001], [], 0⟩], 0, .regularTx⟩

theorem random_blocks_found_late :
    ∃ res, getRandomOutsForAmounts4 (hiddenOutputs 3013) oneLateHeight = some (.ok res) ∧
      List.Forall₂ (fun batch outBlocks => batch.globalOffsets = [] → batch.ringSize = 0 →
        BlocksFound (hiddenOutputs 3013) batch
          (heightLimitOf (hiddenOutputs 3013) oneLateHeight.heightUpperLimit) outBlocks)
        oneLateHeight.batches res := by
  have tenBlocks : currencyMinedMoneyUnlockWindow ≤ (hiddenOutputs 3013).dbBlocks.length := by
    decide +kernel
  have counted : (hiddenOutputs 3013).dbBlocks.length < 2 ^ 64 := by decide +kernel
  have answers :
      (getRandomOutsForAmounts4 (hiddenOutputs 3013) oneLateHeight).any (·.isOk) = true := by
        decide +kernel
  obtain ⟨answer, isAnswer, fine⟩ := (Option.any_eq_true _ _).mp answers
  cases answer with
  | error failure => cases fine
  | ok res =>
      exact ⟨res, isAnswer,
        (random_blocks_found (hiddenOutputs 3013) oneLateHeight tenBlocks counted).2.2 res isAnswer⟩

/-- Two heights are too early, and the third one finds a block in each of two passes. The block
after these is not answered. -/
theorem late_block_not_found :
    (getRandomOutsForAmounts4 (hiddenOutputs 3013) oneLateHeight).map
      (·.map (·.map (·.map (·.blockHeight)))) =
        some (.ok [[3001, 3002]]) ∧
      oneLateHeight.batches.map (·.heights) = [[0, 0, 3001]] ∧
      ¬seedHeight (heightLimitOf (hiddenOutputs 3013) 0) 3001 + maxSearchDeltaHeight ≤
        (hiddenOutputs 3013).hf4ActiveAfterHeight.toNat ∧
      distance (seedHeight (heightLimitOf (hiddenOutputs 3013) 0) 3001) 3003 ≤
        maxSearchDeltaHeight ∧
      InLimits (hiddenOutputs 3013) 0 (heightLimitOf (hiddenOutputs 3013) 0) 3003 ∧
      eligibleOuts (hiddenOutputs 3013) 0 3003 ≠ [] := by
  refine ⟨by decide +kernel, rfl, by decide +kernel, by decide +kernel,
    ⟨by decide +kernel, fun _ => by decide⟩, by decide +kernel⟩

end Example

end Zano.Decoys
