import Zano.BlockHandling.WitnessCopies

/-! # When altered witness data shuts a block out

A block that would be added with some copies of its transactions is handed over with other copies
first. An attempt that fails leaves two things behind: the id in the list of invalid blocks, at two
of its exits, and in the pool the copies that had passed. The second attempt then tries these copies
in place of its own.
-/

namespace Zano.BlockHandling

variable {Chain BlockId TxId Header Witness : Type*}

namespace Rules

section Conditions

variable (rules : Rules Chain BlockId TxId Header Witness)

/-- The size that counts when the block is tried with these copies. -/
def sizeOf (chain : Chain) (b : Block BlockId TxId Header)
    (copies : Copies TxId Witness) : Option Nat :=
  rules.blockCumulativeSize chain b (rules.coinbaseSize chain b + totalSize copies b.txHashes)

/-- Nothing of what comes after the loop fails, when the loop has come to the chain `last`. -/
def Finishes (chain last : Chain) (b : Block BlockId TxId Header)
    (copies : Copies TxId Witness) : Prop :=
  rules.checkAliasCount chain last = true ∧ ∃ size final, rules.sizeOf chain b copies = some size ∧
    (rules.isInCheckpointZone chain = true ∨
      rules.verifyMultipleZcOutsRangeProofs b (rules.entries chain copies b.txHashes) = true) ∧
    rules.pushBlock chain last b size = some final

/-- No copy is refused in the loop, and nothing fails after it. -/
structure Suits (chain start : Chain) (b : Block BlockId TxId Header)
    (copies : Copies TxId Witness) : Prop where
  passes : rules.Passes chain start b.txHashes copies
  finishes : ∀ last, rules.connectIds start b.txHashes = some last →
    rules.Finishes chain last b copies

/-- The first copies of the transactions in `before` that the pool takes, with the second ones for
the others. The pool goes first only where it has not given its copy to the first attempt. -/
def mixture [DecidableEq TxId] (node : Node Chain BlockId TxId Witness)
    (first second : OnboardTransactions TxId Witness) (before : List TxId) : Copies TxId Witness :=
  fun txId =>
  if txId ∈ before then
    (rules.returned node.chain (rules.copiesUsed node.pool first) txId).or
      (rules.getTxFromCache second txId)
  else rules.copiesUsed node.pool second txId

/-- The first copies suit the block; or the first one that is refused is refused at an exit that
neither calls the block invalid nor leaves this copy in the pool; or none is refused, the size is
right and something else fails. In the last two cases the copies that had passed have to pass again
as they come back from the pool, and with them in place of the second ones the size and the range
proofs have to be right. -/
inductive Replaceable [DecidableEq TxId] (node : Node Chain BlockId TxId Witness) (start : Chain)
    (b : Block BlockId TxId Header) (first second : OnboardTransactions TxId Witness) : Prop
  | atOnce (suits : rules.Suits node.chain start b (rules.copiesUsed node.pool first))
  | afterRefusal (before : List TxId) (txId : TxId) (after : List TxId) (reached : Chain)
      (exit : Exit) (split : b.txHashes = before ++ txId :: after)
      (reaches : rules.connectIds start before = some reached)
      (passes : rules.Passes node.chain start before (rules.copiesUsed node.pool first))
      (refused : rules.exitOf node.chain reached txId (rules.copiesUsed node.pool first txId) =
        some exit)
      (notInputs : exit ≠ .inputs)
      (notKept : exit = .proofs →
        rules.returned node.chain (rules.copiesUsed node.pool first) txId = none)
      (again : rules.Passes node.chain start before (rules.mixture node first second before))
      (finishes : ∀ last, rules.connectIds start b.txHashes = some last →
        rules.Finishes node.chain last b (rules.mixture node first second before))
  | afterLoop (passes : rules.Passes node.chain start b.txHashes (rules.copiesUsed node.pool first))
      (rightSize : rules.sizeOf node.chain b (rules.copiesUsed node.pool first) ≠ none)
      (again :
        rules.Passes node.chain start b.txHashes (rules.mixture node first second b.txHashes))
      (finishes : ∀ last, rules.connectIds start b.txHashes = some last →
        rules.Finishes node.chain last b (rules.mixture node first second b.txHashes))

end Conditions

variable [DecidableEq TxId] {rules : Rules Chain BlockId TxId Header Witness}

/-! ## Copies that agree -/

section Agreement

variable {chain start last : Chain} {copies copies' : Copies TxId Witness} {txHashes : List TxId}

omit [DecidableEq TxId] in
theorem passes_congr (agree : ∀ txId ∈ txHashes, copies txId = copies' txId) :
    rules.Passes chain start txHashes copies ↔ rules.Passes chain start txHashes copies' := by
  induction txHashes generalizing start with
  | nil => exact Iff.rfl
  | cons txId txHashes inductionHypothesis =>
      have later : ∀ next, rules.Passes chain next txHashes copies ↔
          rules.Passes chain next txHashes copies' :=
        fun next => inductionHypothesis fun other inside =>
          agree other (List.mem_cons_of_mem _ inside)
      simp only [Passes, agree txId (by simp), later]

omit [DecidableEq TxId] in
theorem suits_congr {b : Block BlockId TxId Header}
    (agree : ∀ txId ∈ b.txHashes, copies txId = copies' txId) :
    rules.Suits chain start b copies ↔ rules.Suits chain start b copies' := by
  have sameSize : totalSize copies b.txHashes = totalSize copies' b.txHashes := by
    rw [totalSize, totalSize]
    congr 1
    exact List.map_congr_left fun txId inside => by rw [agree txId inside]
  have sameEntries :
      rules.entries chain copies b.txHashes = rules.entries chain copies' b.txHashes :=
    List.filterMap_congr fun txId inside => by rw [agree txId inside]
  have sameFinish : ∀ last, rules.Finishes chain last b copies ↔
      rules.Finishes chain last b copies' := by
    intro last
    simp only [Finishes, sizeOf, sameSize, sameEntries]
  constructor
  · intro suits
    exact ⟨(passes_congr agree).mp suits.passes,
      fun last reached => (sameFinish last).mp (suits.finishes last reached)⟩
  · intro suits
    exact ⟨(passes_congr agree).mpr suits.passes,
      fun last reached => (sameFinish last).mpr (suits.finishes last reached)⟩

omit [DecidableEq TxId] in
theorem passes_append {before rest : List TxId} {reached : Chain}
    (reaches : rules.connectIds start before = some reached) :
    rules.Passes chain start (before ++ rest) copies ↔
      rules.Passes chain start before copies ∧ rules.Passes chain reached rest copies := by
  induction before generalizing start with
  | nil =>
      cases reaches
      exact ⟨fun passes => ⟨trivial, passes⟩, And.right⟩
  | cons txId before inductionHypothesis =>
      rw [connectIds_cons] at reaches
      obtain ⟨next, added, others⟩ := Option.bind_eq_some_iff.mp reaches
      rw [List.cons_append, Passes, Passes, and_assoc]
      refine and_congr_right fun _ => ?_
      simp only [added, Option.some.injEq, forall_eq']
      exact inductionHypothesis others

omit [DecidableEq TxId] in
/-- In a block whose copies all pass, the one after `before` does. -/
theorem Passes.exitOf_eq_none {before after : List TxId} {txId : TxId} {reached : Chain}
    (passes : rules.Passes chain start (before ++ txId :: after) copies)
    (reaches : rules.connectIds start before = some reached) :
    rules.exitOf chain reached txId (copies txId) = none :=
  ((passes_append reaches).mp passes).2.1

omit [DecidableEq TxId] in
/-- There is one first copy that is refused. -/
theorem firstRefused_unique {before before' after after' : List TxId} {txId txId' : TxId}
    {reached reached' : Chain} {exit exit' : Exit}
    (same : before ++ txId :: after = before' ++ txId' :: after')
    (reaches : rules.connectIds start before = some reached)
    (passes : rules.Passes chain start before copies)
    (refused : rules.exitOf chain reached txId (copies txId) = some exit)
    (reaches' : rules.connectIds start before' = some reached')
    (passes' : rules.Passes chain start before' copies)
    (refused' : rules.exitOf chain reached' txId' (copies txId') = some exit') :
    before = before' ∧ txId = txId' ∧ exit = exit' := by
  induction before generalizing start before' with
  | nil =>
      cases reaches
      cases before' with
      | nil =>
          cases reaches'
          cases List.head_eq_of_cons_eq same
          exact ⟨rfl, rfl, Option.some.inj (refused.symm.trans refused')⟩
      | cons first before' =>
          cases List.head_eq_of_cons_eq same
          rw [passes'.1] at refused
          cases refused
  | cons first before inductionHypothesis =>
      rw [connectIds_cons] at reaches
      obtain ⟨next, added, rest⟩ := Option.bind_eq_some_iff.mp reaches
      cases before' with
      | nil =>
          cases reaches'
          cases List.head_eq_of_cons_eq same
          rw [passes.1] at refused'
          cases refused'
      | cons first' before' =>
          cases List.head_eq_of_cons_eq same
          rw [connectIds_cons, added] at reaches'
          obtain ⟨sameBefore, others⟩ := inductionHypothesis (List.tail_eq_of_cons_eq same) rest
            (passes.2 next added) reaches' (passes'.2 next added)
          exact ⟨congrArg _ sameBefore, others⟩

end Agreement

/-! ## One attempt -/

section OneAttempt

variable {node : Node Chain BlockId TxId Witness} {b : Block BlockId TxId Header}
  {onboard : OnboardTransactions TxId Witness} {start last : Chain}

/-- What a block leaves that failed after the loop. -/
def leftAfterLoop (rules : Rules Chain BlockId TxId Header Witness)
    (node : Node Chain BlockId TxId Witness) (b : Block BlockId TxId Header)
    (copies : Copies TxId Witness) : Stopped TxId Witness where
  pool := rules.purgeBlockData node.chain (rules.entries node.chain copies b.txHashes)
    (eraseAll b.txHashes node.pool)
  addedAsInvalid := (rules.sizeOf node.chain b copies).isNone

/-- What a block leaves when a copy was refused. -/
def leftAfterRefusal (rules : Rules Chain BlockId TxId Header Witness)
    (node : Node Chain BlockId TxId Witness) (before : List TxId) (txId : TxId) (exit : Exit)
    (copies : Copies TxId Witness) : Stopped TxId Witness where
  pool := rules.purgeBlockData node.chain (rules.entries node.chain copies before)
    (putBack rules node.chain copies (exit.goesBack (node.pool txId).isSome) txId
      (Function.update (eraseAll before node.pool) txId none))
  addedAsInvalid := decide (exit = .inputs)

theorem loop_passes (connected : rules.connectIds start b.txHashes = some last)
    (passes : rules.Passes node.chain start b.txHashes (rules.copiesUsed node.pool onboard)) :
    rules.connectTransactions node.chain onboard b.txHashes
        ⟨start, node.pool, [], rules.coinbaseSize node.chain b⟩ = .ok
      ⟨last, eraseAll b.txHashes node.pool,
        rules.entries node.chain (rules.copiesUsed node.pool onboard) b.txHashes,
        rules.coinbaseSize node.chain b +
          totalSize (rules.copiesUsed node.pool onboard) b.txHashes⟩ :=
  connectTransactions_passes (nodup_of_connectIds connected).1 (fun _ _ => rfl) passes connected

theorem handle_suits (miner : rules.connectMinerTx node.chain b = some start)
    (connected : rules.connectIds start b.txHashes = some last)
    (suits : rules.Suits node.chain start b (rules.copiesUsed node.pool onboard)) :
    ∃ final, rules.handleBlockToMainChain node b onboard =
      (true, { node with
        chain := final, blocks := node.blocks ++ [b.id],
          pool := eraseAll b.txHashes node.pool }) := by
  have loop := loop_passes connected suits.passes
  obtain ⟨aliases, size, final, sized, proved, pushed⟩ := suits.finishes last connected
  have notUnproved :
      (!rules.isInCheckpointZone node.chain && !rules.verifyMultipleZcOutsRangeProofs b
      (rules.entries node.chain (rules.copiesUsed node.pool onboard) b.txHashes)) = false := by
    rcases proved with zone | proved
    · simp [zone]
    · simp [proved]
  rw [sizeOf] at sized
  refine ⟨final, ?_⟩
  simp only [handleBlockToMainChain, miner, loop, finishBlock, aliases, sized, notUnproved, pushed,
    Bool.not_true, Bool.false_eq_true, if_false]

/-- The aliases do not depend on the copies. -/
theorem handle_passes (miner : rules.connectMinerTx node.chain b = some start)
    (connected : rules.connectIds start b.txHashes = some last)
    (aliases : rules.checkAliasCount node.chain last = true)
    (passes : rules.Passes node.chain start b.txHashes (rules.copiesUsed node.pool onboard))
    (notSuits : ¬ rules.Suits node.chain start b (rules.copiesUsed node.pool onboard)) :
    rules.handleBlockToMainChain node b onboard =
      (false, giveUp node b (leftAfterLoop rules node b (rules.copiesUsed node.pool onboard))) := by
  have loop := loop_passes connected passes
  simp only [handleBlockToMainChain, miner, loop, finishBlock, aliases, Bool.not_true,
    Bool.false_eq_true, if_false, leftAfterLoop, sizeOf]
  cases sized : rules.blockCumulativeSize node.chain b
      (rules.coinbaseSize node.chain b +
        totalSize (rules.copiesUsed node.pool onboard) b.txHashes) with
  | none => rfl
  | some size =>
      dsimp only
      split
      · rename_i failed
        split at failed
        · cases failed
          rfl
        · split at failed
          · cases failed
            rfl
          · cases failed
      · rename_i next finished
        split at finished
        · cases finished
        · rename_i proved
          split at finished
          · cases finished
          · rename_i final pushed
            refine absurd ⟨passes, fun other reached => ?_⟩ notSuits
            rw [connected] at reached
            cases reached
            refine ⟨aliases, size, final, sized, ?_, pushed⟩
            cases zone : rules.isInCheckpointZone node.chain with
            | true => exact .inl rfl
            | false => exact .inr (by simpa [zone] using proved)

theorem handle_refused (miner : rules.connectMinerTx node.chain b = some start)
    (connected : rules.connectIds start b.txHashes = some last) {before after : List TxId}
    {txId : TxId} {reached : Chain} {exit : Exit} (split : b.txHashes = before ++ txId :: after)
    (reaches : rules.connectIds start before = some reached)
    (passes : rules.Passes node.chain start before (rules.copiesUsed node.pool onboard))
    (refused :
      rules.exitOf node.chain reached txId (rules.copiesUsed node.pool onboard txId) = some exit) :
    rules.handleBlockToMainChain node b onboard = (false, giveUp node b
      (leftAfterRefusal rules node before txId exit (rules.copiesUsed node.pool onboard))) := by
  have nodup := (nodup_of_connectIds connected).1
  rw [split] at nodup
  have notBefore : txId ∉ before :=
    fun inside => (List.nodup_append.mp nodup).2.2 _ inside _ (by simp) rfl
  have loop : rules.connectTransactions node.chain onboard before
      ⟨start, node.pool, [], rules.coinbaseSize node.chain b⟩ = _ :=
    connectTransactions_passes (List.nodup_append.mp nodup).1 (fun _ _ => rfl) passes reaches
  have stillThere : eraseAll before node.pool txId = node.pool txId := by
    rw [eraseAll_apply, if_neg notBefore]
  have sameCopy : rules.copiesUsed (eraseAll before node.pool) onboard txId =
      rules.copiesUsed node.pool onboard txId := by
    rw [copiesUsed, copiesUsed, stillThere]
  rw [handleBlockToMainChain, miner]
  dsimp only
  rw [split, connectTransactions_append, loop]
  dsimp only
  rw [connectTransactions, connectTransaction_stops sameCopy refused]
  simp only [List.nil_append, leftAfterRefusal, stillThere]

theorem blocks_of_not_handled (notAdded : (rules.handleBlockToMainChain node b onboard).1 ≠ true) :
    (rules.handleBlockToMainChain node b onboard).2.blocks = node.blocks := by
  unfold handleBlockToMainChain at notAdded ⊢
  cases miner : rules.connectMinerTx node.chain b with
  | none => rfl
  | some start =>
      rw [miner] at notAdded
      dsimp only at notAdded ⊢
      cases loop : rules.connectTransactions node.chain onboard b.txHashes
          ⟨start, node.pool, [], rules.coinbaseSize node.chain b⟩ with
      | error stopped => rfl
      | ok p =>
          rw [loop] at notAdded
          dsimp only at notAdded ⊢
          cases finished : rules.finishBlock node.chain b p with
          | error stopped => rfl
          | ok next =>
              rw [finished] at notAdded
              exact absurd rfl notAdded

/-- A block is added when its transactions can be connected and no copy of them
stands in the way. -/
theorem suits_of_handled (added : (rules.handleBlockToMainChain node b onboard).1 = true) :
    ∃ start last, rules.connectMinerTx node.chain b = some start ∧
      rules.connectIds start b.txHashes = some last ∧ rules.checkAliasCount node.chain last = true ∧
      rules.Suits node.chain start b (rules.copiesUsed node.pool onboard) := by
  cases miner : rules.connectMinerTx node.chain b with
  | none => simp [handleBlockToMainChain, miner] at added
  | some start =>
      cases loop : rules.connectTransactions node.chain onboard b.txHashes
          ⟨start, node.pool, [], rules.coinbaseSize node.chain b⟩ with
      | error stopped => simp [handleBlockToMainChain, miner, loop] at added
      | ok p =>
          obtain ⟨last, connected⟩ := connectIds_of_ok loop
          dsimp only at connected
          obtain passes | ⟨before, txId, after, reached, exit, split, reaches, passes, refused⟩ :
              rules.Passes node.chain start b.txHashes (rules.copiesUsed node.pool onboard) ∨ _ :=
            passes_or_stops connected _
          · have aliases : rules.checkAliasCount node.chain last = true := by
              by_contra tooMany
              rw [Bool.not_eq_true] at tooMany
              simp [handleBlockToMainChain, miner, loop_passes connected passes, finishBlock,
                tooMany] at added
            refine ⟨start, last, rfl, connected, aliases, ?_⟩
            by_contra notSuits
            rw [handle_passes miner connected aliases passes notSuits] at added
            cases added
          · rw [handle_refused miner connected split reaches passes refused] at added
            cases added

end OneAttempt

/-! ## The copies of the second attempt -/

section SecondAttempt

variable {node : Node Chain BlockId TxId Witness} {b : Block BlockId TxId Header}
  {first second : OnboardTransactions TxId Witness} {start last : Chain}

/-- Of the second copies those that replace no first one have passed already. -/
theorem suits_mixture_iff {before rest : List TxId} (split : b.txHashes = before ++ rest)
    (connected : rules.connectIds start b.txHashes = some last)
    (suits : rules.Suits node.chain start b (rules.copiesUsed node.pool second)) :
    rules.Suits node.chain start b (rules.mixture node first second before) ↔
      rules.Passes node.chain start before (rules.mixture node first second before) ∧
        ∀ last, rules.connectIds start b.txHashes = some last →
          rules.Finishes node.chain last b (rules.mixture node first second before) := by
  have nodup := (nodup_of_connectIds connected).1
  have both := connected
  rw [split, connectIds, List.foldlM_append] at both
  obtain ⟨reached, reaches, -⟩ := Option.bind_eq_some_iff.mp both
  have later : rules.Passes node.chain reached rest (rules.mixture node first second before) := by
    have passed := suits.passes
    rw [split, passes_append reaches] at passed
    refine (passes_congr fun txId inside => ?_).mp passed.2
    rw [split] at nodup
    have notBefore : txId ∉ before := fun isBefore =>
      (List.nodup_append.mp nodup).2.2 _ isBefore _ inside rfl
    rw [mixture, if_neg notBefore]
  have passes_iff :
      rules.Passes node.chain start b.txHashes (rules.mixture node first second before) ↔
      rules.Passes node.chain start before (rules.mixture node first second before) := by
    rw [split, passes_append reaches, and_iff_left later]
  exact ⟨fun fits => ⟨passes_iff.mp fits.passes, fits.finishes⟩,
    fun fits => ⟨passes_iff.mpr fits.1, fits.2⟩⟩

/-- After a loop that came to its end. -/
theorem copiesUsed_leftAfterLoop {txId : TxId} (inside : txId ∈ b.txHashes) :
    rules.copiesUsed (leftAfterLoop rules node b (rules.copiesUsed node.pool first)).pool
      second txId =
      rules.mixture node first second b.txHashes txId := by
  rw [copiesUsed, leftAfterLoop]
  dsimp only
  rw [purgeBlockData_apply, if_pos inside, eraseAll_apply, if_pos inside, mixture, if_pos inside,
    Option.or_none, Option.orElse_eq_orElse, Option.orElse_eq_or]

variable {before after : List TxId} {txId : TxId} {reached : Chain} {exit : Exit}

omit [DecidableEq TxId] in
/-- A copy in the pool is tried at both attempts. -/
theorem pool_eq_none_of_refused
    (passes : rules.exitOf node.chain reached txId (rules.copiesUsed node.pool second txId) = none)
    (refused : rules.exitOf node.chain reached txId (rules.copiesUsed node.pool first txId) =
      some exit) :
    node.pool txId = none := by
  cases inPool : node.pool txId with
  | none => rfl
  | some copy =>
      have same :
          rules.copiesUsed node.pool first txId = rules.copiesUsed node.pool second txId := by
        simp [copiesUsed, inPool]
      rw [same, passes] at refused
      cases refused

/-- After a refusal that leaves the refused copy out of the pool. -/
theorem copiesUsed_leftAfterRefusal (nodup : b.txHashes.Nodup)
    (split : b.txHashes = before ++ txId :: after) (notInPool : node.pool txId = none)
    (notInputs : exit ≠ .inputs)
    (notKept : exit = .proofs →
      rules.returned node.chain (rules.copiesUsed node.pool first) txId = none)
    (other : TxId) :
    rules.copiesUsed
        (leftAfterRefusal rules node before txId exit (rules.copiesUsed node.pool first)).pool
          second other =
      rules.mixture node first second before other := by
  rw [split] at nodup
  have notBefore : txId ∉ before := fun isBefore =>
    (List.nodup_append.mp nodup).2.2 _ isBefore _ (by simp) rfl
  have notAgain : putBack rules node.chain (rules.copiesUsed node.pool first)
      (exit.goesBack (node.pool txId).isSome) txId
      (Function.update (eraseAll before node.pool) txId none) =
        Function.update (eraseAll before node.pool) txId none := by
    funext some
    rw [putBack_apply]
    split
    · rename_i back
      obtain ⟨goesBack, rfl⟩ := back
      rw [notInPool] at goesBack
      cases exit with
      | proofs => rw [notKept rfl, Option.none_or]
      | inputs => exact absurd rfl notInputs
      | unknown => cases goesBack
      | semantic => cases goesBack
      | addition => cases goesBack
    · rfl
  rw [copiesUsed, leftAfterRefusal, notAgain]
  dsimp only
  rw [purgeBlockData_apply, mixture]
  by_cases isBefore : other ∈ before
  · have different : other ≠ txId := by
      rintro rfl
      exact notBefore isBefore
    rw [if_pos isBefore, if_pos isBefore, Function.update_of_ne different, eraseAll_apply,
      if_pos isBefore, Option.or_none, Option.orElse_eq_orElse, Option.orElse_eq_or]
  · rw [if_neg isBefore, if_neg isBefore, copiesUsed]
    by_cases same : other = txId
    · rw [same, Function.update_self, notInPool]
    · rw [Function.update_of_ne same, eraseAll_apply, if_neg isBefore]

/-- A copy whose proofs failed fails again when the pool has kept it. -/
theorem not_suits_of_kept (nodup : b.txHashes.Nodup)
    (split : b.txHashes = before ++ txId :: after)
    (reaches : rules.connectIds start before = some reached)
    (refused : rules.exitOf node.chain reached txId (rules.copiesUsed node.pool first txId) =
      some .proofs)
    (kept : rules.returned node.chain (rules.copiesUsed node.pool first) txId ≠ none) :
    ¬ rules.Suits node.chain start b (rules.copiesUsed
      (leftAfterRefusal rules node before txId .proofs (rules.copiesUsed node.pool first)).pool
        second) := by
  intro suits
  have passes := suits.passes
  rw [split] at passes nodup
  have notBefore : txId ∉ before := fun isBefore =>
    (List.nodup_append.mp nodup).2.2 _ isBefore _ (by simp) rfl
  have passesThen := passes.exitOf_eq_none reaches
  obtain ⟨copy, isReturned⟩ := Option.ne_none_iff_exists'.mp kept
  have used : rules.copiesUsed
      (leftAfterRefusal rules node before txId .proofs (rules.copiesUsed node.pool first)).pool
        second txId =
        some copy := by
    rw [copiesUsed, leftAfterRefusal]
    dsimp only
    rw [purgeBlockData_apply, if_neg notBefore, putBack_apply, if_pos ⟨rfl, rfl⟩, isReturned]
    rfl
  rw [used] at passesThen
  obtain ⟨tried, isTried, taken⟩ := Option.bind_eq_some_iff.mp isReturned
  rw [isTried, exitOf] at refused
  rw [exitOf] at passesThen
  split at refused
  · cases refused
  split at refused
  · rename_i failed
    have outside : rules.isInCheckpointZone node.chain = false := by
      cases zone : rules.isInCheckpointZone node.chain with
      | true => simp [zone] at failed
      | false => rfl
    have sameWitness : rules.usedWitness node.chain copy = rules.usedWitness node.chain tried := by
      split at taken
      · cases taken
        simp [usedWitness, outside]
      · cases taken
    split at passesThen
    · cases passesThen
    · rw [sameWitness, if_pos failed] at passesThen
      cases passesThen
  · split at refused
    · cases refused
    split at refused
    · cases refused
    · cases refused

/-- After a loop that came to its end without a refusal. -/
theorem replaceable_afterLoop_iff (connected : rules.connectIds start b.txHashes = some last)
    (suitsSecond : rules.Suits node.chain start b (rules.copiesUsed node.pool second))
    (notSuits : ¬ rules.Suits node.chain start b (rules.copiesUsed node.pool first))
    (passes : rules.Passes node.chain start b.txHashes (rules.copiesUsed node.pool first)) :
    rules.Replaceable node start b first second ↔
      rules.sizeOf node.chain b (rules.copiesUsed node.pool first) ≠ none ∧
        rules.Suits node.chain start b (rules.mixture node first second b.txHashes) := by
  rw [suits_mixture_iff (List.append_nil _).symm connected suitsSecond]
  constructor
  · rintro (suits | ⟨before, txId, after, reached, exit, split, reaches, -, refused, -, -, -, -⟩ |
      ⟨-, rightSize, again, finishes⟩)
    · exact absurd suits notSuits
    · rw [split] at passes
      rw [passes.exitOf_eq_none reaches] at refused
      cases refused
    · exact ⟨rightSize, again, finishes⟩
  · rintro ⟨rightSize, again, finishes⟩
    exact .afterLoop passes rightSize again finishes

/-- After a refusal. -/
theorem replaceable_afterRefusal_iff (connected : rules.connectIds start b.txHashes = some last)
    (suitsSecond : rules.Suits node.chain start b (rules.copiesUsed node.pool second))
    (split : b.txHashes = before ++ txId :: after)
    (reaches : rules.connectIds start before = some reached)
    (passes : rules.Passes node.chain start before (rules.copiesUsed node.pool first))
    (refused : rules.exitOf node.chain reached txId (rules.copiesUsed node.pool first txId) =
      some exit) :
    rules.Replaceable node start b first second ↔
      exit ≠ .inputs ∧
        (exit = .proofs →
          rules.returned node.chain (rules.copiesUsed node.pool first) txId = none) ∧
        rules.Suits node.chain start b (rules.mixture node first second before) := by
  have stops : ¬ rules.Passes node.chain start b.txHashes (rules.copiesUsed node.pool first) := by
    intro passesAll
    rw [split] at passesAll
    rw [passesAll.exitOf_eq_none reaches] at refused
    cases refused
  rw [suits_mixture_iff split connected suitsSecond]
  constructor
  · rintro (suits | ⟨before', txId', after', reached', exit', split', reaches', passes', refused',
      notInputs, notKept, again, finishes⟩ | ⟨passesAll, -, -, -⟩)
    · exact absurd suits.passes stops
    · obtain ⟨rfl, rfl, rfl⟩ := firstRefused_unique (split.symm.trans split') reaches passes refused
        reaches' passes' refused'
      exact ⟨notInputs, notKept, again, finishes⟩
    · exact absurd passesAll stops
  · rintro ⟨notInputs, notKept, again, finishes⟩
    exact .afterRefusal before txId after reached exit split reaches passes refused
      notInputs notKept
      again finishes

end SecondAttempt

/-! ## Two attempts -/

variable [DecidableEq BlockId]

theorem addNewBlock_eq {node : Node Chain BlockId TxId Witness} {b : Block BlockId TxId Header}
    (onboard : OnboardTransactions TxId Witness) (isNew : haveBlock node b.id = false)
    (valid : rules.prevalidateBlock node.chain b = true)
    (isNext : node.blocks.getLast? = some b.prevId) :
    rules.addNewBlock node b onboard = rules.handleBlockToMainChain node b onboard := by
  simp [addNewBlock, isNew, valid, isNext]

theorem addNewBlock_of_haveBlock {node : Node Chain BlockId TxId Witness}
    {b : Block BlockId TxId Header} (onboard : OnboardTransactions TxId Witness)
    (known : haveBlock node b.id = true) :
    rules.addNewBlock node b onboard = (false, node) := by
  simp [addNewBlock, known]

section TwoAttempts

variable {node : Node Chain BlockId TxId Witness} {b : Block BlockId TxId Header}
  {second : OnboardTransactions TxId Witness} {start last : Chain} {stopped : Stopped TxId Witness}

/-- A block that was called invalid is not tried again. -/
theorem addNewBlock_giveUp_invalid (called : stopped.addedAsInvalid = true) :
    rules.addNewBlock (giveUp node b stopped) b second = (false, giveUp node b stopped) :=
  addNewBlock_of_haveBlock second (by simp [haveBlock, giveUp, called])

/-- A block that was not is tried with what it left in the pool. -/
theorem addNewBlock_giveUp (notCalled : stopped.addedAsInvalid = false)
    (isNew : haveBlock node b.id = false) (valid : rules.prevalidateBlock node.chain b = true)
    (isNext : node.blocks.getLast? = some b.prevId)
    (miner : rules.connectMinerTx node.chain b = some start)
    (connected : rules.connectIds start b.txHashes = some last) :
    (b.id ∈ (rules.addNewBlock (giveUp node b stopped) b second).2.blocks ∧
      b.id ∉ (rules.addNewBlock (giveUp node b stopped) b second).2.invalidBlocks) ↔
      rules.Suits node.chain start b (rules.copiesUsed stopped.pool second) := by
  obtain ⟨⟨notMain, -⟩, notInvalid⟩ :
      (b.id ∉ node.blocks ∧ b.id ∉ node.alternativeChains) ∧ b.id ∉ node.invalidBlocks := by
    simpa [haveBlock, and_assoc] using isNew
  have stillNew : haveBlock (giveUp node b stopped) b.id = false := by
    simpa [haveBlock, giveUp, notCalled] using isNew
  rw [addNewBlock_eq second stillNew valid isNext]
  constructor
  · rintro ⟨inMain, -⟩
    by_contra notSuits
    have notAdded : (rules.handleBlockToMainChain (giveUp node b stopped) b second).1 ≠ true := by
      intro added
      obtain ⟨start', -, miner', -, -, suits⟩ := suits_of_handled added
      rw [show (giveUp node b stopped).chain = node.chain from rfl, miner] at miner'
      cases miner'
      exact notSuits suits
    exact notMain (blocks_of_not_handled notAdded ▸ inMain)
  · intro suits
    have miner' : rules.connectMinerTx (giveUp node b stopped).chain b = some start := miner
    obtain ⟨final, handled⟩ := handle_suits miner' connected suits
    rw [handled]
    exact ⟨by simp [giveUp], by simpa [giveUp, notCalled] using notInvalid⟩

/-- After the first attempt with other copies, the block is in the main chain, and not among the
invalid ones, exactly when the first copies were replaceable. -/
theorem added_after_iff (node : Node Chain BlockId TxId Witness) (b : Block BlockId TxId Header)
    (first second : OnboardTransactions TxId Witness)
    (isNext : node.blocks.getLast? = some b.prevId)
    (added : (rules.addNewBlock node b second).1 = true) :
    (b.id ∈ (rules.addNewBlock (rules.addNewBlock node b first).2 b second).2.blocks ∧
      b.id ∉ (rules.addNewBlock (rules.addNewBlock node b first).2 b second).2.invalidBlocks) ↔
      ∃ start, rules.connectMinerTx node.chain b = some start ∧
        rules.Replaceable node start b first second := by
  have isNew : haveBlock node b.id = false := by
    by_contra known
    rw [addNewBlock_of_haveBlock second (by simpa using known)] at added
    cases added
  have valid : rules.prevalidateBlock node.chain b = true := by
    by_contra invalid
    rw [Bool.not_eq_true] at invalid
    simp [addNewBlock, isNew, invalid] at added
  obtain ⟨⟨notMain, -⟩, notInvalid⟩ :
      (b.id ∉ node.blocks ∧ b.id ∉ node.alternativeChains) ∧ b.id ∉ node.invalidBlocks := by
    simpa [haveBlock, and_assoc] using isNew
  rw [addNewBlock_eq second isNew valid isNext] at added
  obtain ⟨start, last, miner, connected, aliases, suitsSecond⟩ := suits_of_handled added
  have nodup := (nodup_of_connectIds connected).1
  rw [addNewBlock_eq first isNew valid isNext]
  simp only [miner, Option.some.injEq, exists_eq_left']
  by_cases suitsFirst : rules.Suits node.chain start b (rules.copiesUsed node.pool first)
  · obtain ⟨final, handled⟩ := handle_suits miner connected suitsFirst
    have known : haveBlock (rules.handleBlockToMainChain node b first).2 b.id = true := by
      simp [haveBlock, handled]
    rw [addNewBlock_of_haveBlock second known, handled]
    exact iff_of_true ⟨by simp, notInvalid⟩ (.atOnce suitsFirst)
  obtain passes | ⟨before, txId, after, reached, exit, split, reaches, passes, refused⟩ :
      rules.Passes node.chain start b.txHashes (rules.copiesUsed node.pool first) ∨ _ :=
    passes_or_stops connected _
  · rw [handle_passes miner connected aliases passes suitsFirst,
      replaceable_afterLoop_iff connected suitsSecond suitsFirst passes]
    cases called :
      (leftAfterLoop rules node b (rules.copiesUsed node.pool first)).addedAsInvalid with
    | true =>
        rw [addNewBlock_giveUp_invalid called]
        exact iff_of_false (fun both => notMain both.1) fun both =>
          both.1 (Option.isNone_iff_eq_none.mp called)
    | false =>
        rw [addNewBlock_giveUp called isNew valid isNext miner connected,
          suits_congr fun txId inside => copiesUsed_leftAfterLoop inside]
        have rightSize : rules.sizeOf node.chain b (rules.copiesUsed node.pool first) ≠ none := by
          intro wrong
          rw [leftAfterLoop, wrong] at called
          cases called
        exact (and_iff_right rightSize).symm
  · rw [handle_refused miner connected split reaches passes refused,
      replaceable_afterRefusal_iff connected suitsSecond split reaches passes refused]
    cases called : (leftAfterRefusal rules node before txId exit
        (rules.copiesUsed node.pool first)).addedAsInvalid with
    | true =>
        rw [addNewBlock_giveUp_invalid called]
        exact iff_of_false (fun both => notMain both.1) fun all => all.1 (of_decide_eq_true called)
    | false =>
        have notInputs : exit ≠ .inputs := of_decide_eq_false called
        rw [addNewBlock_giveUp called isNew valid isNext miner connected, and_iff_right notInputs]
        by_cases notKept : exit = .proofs →
            rules.returned node.chain (rules.copiesUsed node.pool first) txId = none
        · have passesSecond := suitsSecond.passes
          rw [split] at passesSecond
          have notInPool := pool_eq_none_of_refused (passesSecond.exitOf_eq_none reaches) refused
          rw [suits_congr fun other _ =>
            copiesUsed_leftAfterRefusal nodup split notInPool notInputs notKept other]
          exact (and_iff_right notKept).symm
        · rw [Classical.not_imp] at notKept
          obtain ⟨rfl, kept⟩ := notKept
          exact iff_of_false (not_suits_of_kept nodup split reaches refused kept) fun both =>
            kept (both.1 rfl)

end TwoAttempts

end Rules

/-! ## Blocks of few transactions -/

/-- Rules under which a copy is right when its signatures are, and too large with more than nine
hundred bytes of witness data. The chain is the ids of its transactions, and a header names the
miner transaction. -/
def signatureRules : Rules (List Nat) Nat Nat Nat (Bool × Nat) where
  prevalidateBlock := fun _ _ => true
  handleAlternativeBlock := fun node _ _ => (false, node)
  connectMinerTx := fun chain b => some (b.header :: chain)
  isInCheckpointZone := fun _ => false
  isHardfork06 := fun _ => true
  coinbaseSize := fun _ _ => 0
  pruned := fun _ => (false, 0)
  getObjectBlobsize := fun _ witness => 100 + witness.2
  validateTxSemantic := fun _ copy => decide (copy.blobSize < 1000)
  checkProofs := fun _ _ _ => true
  checkTxInputs := fun _ _ witness => witness.1
  admitsWitness := fun _ _ _ => true
  addTransactionFromBlock := fun chain txId => if txId ∈ chain then none else some (txId :: chain)
  checkAliasCount := fun _ _ => true
  verifyMultipleZcOutsRangeProofs := fun _ _ => true
  pushBlock := fun _ chain _ _ => some chain
  poolAccepts := fun _ _ _ => true
  poolBlobsize := fun _ witness => 100 + witness.2
  transactions := id
  transactions_add := by
    intro chain txId next added
    split at added
    · cases added
    · rename_i fresh
      cases added
      exact ⟨fresh, rfl⟩

def nodeAtGenesis : Node (List Nat) Nat Nat (Bool × Nat) := ⟨[100], [0], [], [], fun _ => none⟩

def blockOfTwo : Block Nat Nat Nat := ⟨1, 0, [7, 8], some 200, 101⟩

def rightCopies : OnboardTransactions Nat (Bool × Nat) := fun _ => some (true, 0)

/-- A copy that is too large stands in the way of no later one, and the other
transaction comes back. -/
theorem added_after_large_copy :
    ∃ start, signatureRules.connectMinerTx [100] blockOfTwo = some start ∧
    signatureRules.Replaceable nodeAtGenesis start blockOfTwo
      (fun txId => if txId = 8 then some (true, 900) else some (true, 0)) rightCopies :=
  (Rules.added_after_iff nodeAtGenesis blockOfTwo _ _ rfl (by decide)).mp (by decide)

/-- A copy with wrong signatures that comes first shuts the block out. -/
theorem altered_signatures_shut_out :
    ¬ ∀ (node : Node (List Nat) Nat Nat (Bool × Nat)) (b : Block Nat Nat Nat)
      (first second : OnboardTransactions Nat (Bool × Nat)),
      (∀ txId ∈ b.txHashes, first txId ≠ none ∧ second txId ≠ none) →
      node.blocks.getLast? = some b.prevId → (signatureRules.addNewBlock node b second).1 = true →
      b.id ∈ (signatureRules.addNewBlock (signatureRules.addNewBlock node b first).2 b
        second).2.blocks := by
  intro safe
  have added := safe nodeAtGenesis blockOfTwo (fun _ => some (false, 0)) rightCopies (by decide) rfl
    (by decide)
  revert added
  decide

end Zano.BlockHandling
