import Zano.BlockHandling.MainChain

/-! # Which copies of its transactions a block is judged by

A block is tried with one copy of every transaction, from the pool where it has one and else from
the transactions that came with the block. The chain that a copy is checked against comes from the
transactions before it and not from their copies, so that the exit at which a copy is refused
depends on this copy alone. The first refused copy ends the loop, and its exit decides what goes
back to the pool and whether the block is called invalid.
-/

namespace Zano.BlockHandling

variable {Chain BlockId TxId Header Witness : Type*}

/-- The exits of the loop over the transactions. -/
inductive Exit where
  | unknown
  | semantic
  | proofs
  | inputs
  | addition
  deriving DecidableEq, Repr

/-- Whether the refused copy goes back to the pool. -/
def Exit.goesBack (exit : Exit) (fromPool : Bool) : Bool :=
  match exit with
  | .unknown | .semantic => false
  | .proofs => true
  | .inputs | .addition => fromPool

/-- A copy of every transaction, as far as there is one. -/
abbrev Copies (TxId Witness : Type*) := TxId → Option (Copy Witness)

def eraseAll [DecidableEq TxId] (txHashes : List TxId)
    (pool : Pool TxId Witness) : Pool TxId Witness :=
  txHashes.foldl (fun pool txId => Function.update pool txId none) pool

def totalSize (copies : Copies TxId Witness) (txHashes : List TxId) : Nat :=
  (txHashes.map fun txId => ((copies txId).map (·.blobSize)).getD 0).sum

namespace Rules

section Copies

variable (rules : Rules Chain BlockId TxId Header Witness)

/-- The copies that a block is tried with. -/
def copiesUsed (pool : Pool TxId Witness)
    (onboard : OnboardTransactions TxId Witness) : Copies TxId Witness :=
  fun txId => pool txId <|> rules.getTxFromCache onboard txId

def usedWitness (chain : Chain) (copy : Copy Witness) : Witness :=
  if rules.isInCheckpointZone chain then rules.pruned copy.witness else copy.witness

/-- Where a copy is refused when it follows the transactions that made `current` of the chain. -/
def exitOf (chain current : Chain) (txId : TxId) : Option (Copy Witness) → Option Exit
  | none => some .unknown
  | some copy =>
      if !rules.validateTxSemantic txId copy then some .semantic
      else if !rules.isInCheckpointZone chain &&
        !rules.checkProofs current txId (rules.usedWitness chain copy) then
        some .proofs
      else if !rules.checkTxInputs current txId (rules.usedWitness chain copy) then some .inputs
      else if !rules.admitsWitness current txId (rules.usedWitness chain copy) then some .addition
      else none

/-- The chain after the transactions, which is the same for all copies of them. -/
def connectIds (current : Chain) (txHashes : List TxId) : Option Chain :=
  txHashes.foldlM rules.addTransactionFromBlock current

/-- No copy is refused. -/
def Passes (chain : Chain) : Chain → List TxId → Copies TxId Witness → Prop
  | _, [], _ => True
  | current, txId :: txHashes, copies => rules.exitOf chain current txId (copies txId) = none ∧
      ∀ next, rules.addTransactionFromBlock current txId = some next →
        Passes chain next txHashes copies

def entries (chain : Chain) (copies : Copies TxId Witness)
    (txHashes : List TxId) : List (TxId × Witness) :=
  txHashes.filterMap fun txId => (copies txId).map fun copy => (txId, rules.usedWitness chain copy)

/-- What the pool makes of a copy that a block gives back. -/
def returned (chain : Chain) (copies : Copies TxId Witness) : Copies TxId Witness := fun txId =>
  (copies txId).bind fun copy =>
    if rules.poolAccepts chain txId (rules.usedWitness chain copy) then
      some ⟨rules.usedWitness chain copy, rules.poolBlobsize txId (rules.usedWitness chain copy)⟩
    else none

end Copies

section Loop

variable [DecidableEq TxId] {rules : Rules Chain BlockId TxId Header Witness}
  {chain current last : Chain} {copies : Copies TxId Witness} {txHashes : List TxId} {txId : TxId}

/-! ## The pool -/

omit [DecidableEq TxId] in
theorem connectIds_cons : rules.connectIds current (txId :: txHashes) =
    (rules.addTransactionFromBlock current txId).bind fun next => rules.connectIds next txHashes :=
  rfl

omit [DecidableEq TxId] in
/-- A block that can be connected names no transaction twice. -/
theorem nodup_of_connectIds (connected : rules.connectIds current txHashes = some last) :
    txHashes.Nodup ∧ ∀ txId ∈ rules.transactions current, txId ∉ txHashes := by
  induction txHashes generalizing current with
  | nil => exact ⟨.nil, by simp⟩
  | cons txId txHashes inductionHypothesis =>
      rw [connectIds_cons] at connected
      obtain ⟨next, added, rest⟩ := Option.bind_eq_some_iff.mp connected
      obtain ⟨fresh, grown⟩ := rules.transactions_add current txId next added
      obtain ⟨nodup, apart⟩ := inductionHypothesis rest
      rw [grown] at apart
      refine ⟨List.nodup_cons.mpr ⟨apart txId (by simp), nodup⟩, fun other known => ?_⟩
      rw [List.mem_cons, not_or]
      refine ⟨?_, apart other (List.mem_cons_of_mem _ known)⟩
      rintro rfl
      exact fresh known

theorem eraseAll_apply (pool : Pool TxId Witness) (txId : TxId) :
    eraseAll txHashes pool txId = if txId ∈ txHashes then none else pool txId := by
  induction txHashes generalizing pool with
  | nil => simp [eraseAll]
  | cons first txHashes inductionHypothesis =>
      rw [eraseAll, List.foldl_cons]
      have rest := inductionHypothesis (Function.update pool first none)
      rw [eraseAll] at rest
      rw [rest]
      by_cases same : txId = first
      · simp [same]
      · simp [same]

theorem addTx_apply (pool : Pool TxId Witness) (copy : Copy Witness)
    (isCopy : copies txId = some copy) (other : TxId) :
    rules.addTx chain (txId, rules.usedWitness chain copy) pool other =
      if other = txId then (rules.returned chain copies txId).or (pool other) else pool other := by
  rw [addTx, returned, isCopy, Option.bind_some]
  dsimp only
  split
  · by_cases same : other = txId
    · simp [same]
    · simp [same]
  · simp

/-- What comes back of the copies that had passed. -/
theorem purgeBlockData_apply (pool : Pool TxId Witness) (txId : TxId) :
    rules.purgeBlockData chain (rules.entries chain copies txHashes) pool txId =
      if txId ∈ txHashes then (rules.returned chain copies txId).or (pool txId) else pool txId := by
  induction txHashes with
  | nil => simp [purgeBlockData, entries]
  | cons first txHashes inductionHypothesis =>
      rw [entries, List.filterMap_cons]
      cases isCopy : copies first with
      | none =>
          have nothing : rules.returned chain copies first = none := by simp [returned, isCopy]
          simp only [Option.map_none]
          rw [entries] at inductionHypothesis
          rw [inductionHypothesis]
          by_cases same : txId = first
          · simp [same, nothing]
          · simp [same]
      | some copy =>
          simp only [Option.map_some]
          rw [entries] at inductionHypothesis
          rw [purgeBlockData, List.foldr_cons, addTx_apply _ copy isCopy]
          rw [purgeBlockData] at inductionHypothesis
          rw [inductionHypothesis]
          by_cases same : txId = first
          · subst same
            cases rules.returned chain copies txId <;> simp
          · simp [same]

/-! ## The loop -/

variable {onboard : OnboardTransactions TxId Witness} {p : Progress Chain TxId Witness}

/-- Whether a copy goes back to the pool, and how. -/
def putBack (rules : Rules Chain BlockId TxId Header Witness) (chain : Chain)
    (copies : Copies TxId Witness) (goesBack : Bool) (txId : TxId)
    (pool : Pool TxId Witness) : Pool TxId Witness :=
  match goesBack, copies txId with
  | true, some copy => rules.addTx chain (txId, rules.usedWitness chain copy) pool
  | _, _ => pool

theorem putBack_apply (goesBack : Bool) (pool : Pool TxId Witness) (other : TxId) :
    putBack rules chain copies goesBack txId pool other =
      if goesBack = true ∧ other = txId then (rules.returned chain copies txId).or (pool other)
      else pool other := by
  unfold putBack
  cases goesBack with
  | false => simp
  | true =>
      cases isCopy : copies txId with
      | none => simp [returned, isCopy]
      | some copy => simp [addTx_apply pool copy isCopy]

/-- A copy that is not refused is added where the transaction can be. -/
theorem connectTransaction_passes (isUsed : rules.copiesUsed p.pool onboard txId = copies txId)
    (passes : rules.exitOf chain p.chain txId (copies txId) = none) :
    rules.connectTransaction chain onboard p txId =
      match rules.addTransactionFromBlock p.chain txId with
      | none =>
          .error ⟨rules.purgeBlockData chain p.processed
            (putBack rules chain copies (p.pool txId).isSome txId
          (Function.update p.pool txId none)), false⟩
      | some next =>
          .ok ⟨next, Function.update p.pool txId none,
            p.processed ++ rules.entries chain copies [txId],
          p.cumulativeBlockSize + totalSize copies [txId]⟩ := by
  rw [copiesUsed] at isUsed
  unfold connectTransaction
  dsimp only
  rw [isUsed]
  cases isCopy : copies txId with
  | none =>
      rw [isCopy] at passes
      cases passes
  | some copy =>
      rw [isCopy, exitOf] at passes
      dsimp only
      have isWitness : (if rules.isInCheckpointZone chain = true then rules.pruned copy.witness
        else copy.witness) = rules.usedWitness chain copy := rfl
      rw [isWitness]
      split at passes
      · cases passes
      split at passes
      · cases passes
      split at passes
      · cases passes
      split at passes
      · cases passes
      rename_i semantic proofs inputs admits
      rw [if_neg semantic, if_neg proofs, if_neg inputs, if_neg admits]
      cases rules.addTransactionFromBlock p.chain txId with
      | none => cases (p.pool txId).isSome <;> simp [putBack, isCopy]
      | some next => simp [entries, totalSize, isCopy]

/-- A copy that is refused ends the loop. -/
theorem connectTransaction_stops (isUsed : rules.copiesUsed p.pool onboard txId = copies txId)
    {exit : Exit} (refused : rules.exitOf chain p.chain txId (copies txId) = some exit) :
    rules.connectTransaction chain onboard p txId = .error
      ⟨rules.purgeBlockData chain p.processed
        (putBack rules chain copies (exit.goesBack (p.pool txId).isSome) txId
        (Function.update p.pool txId none)), decide (exit = .inputs)⟩ := by
  rw [copiesUsed] at isUsed
  unfold connectTransaction
  dsimp only
  rw [isUsed]
  cases isCopy : copies txId with
  | none =>
      rw [isCopy] at refused
      cases refused
      simp [Exit.goesBack, putBack]
  | some copy =>
      rw [isCopy, exitOf] at refused
      dsimp only
      have isWitness : (if rules.isInCheckpointZone chain = true then rules.pruned copy.witness
        else copy.witness) = rules.usedWitness chain copy := rfl
      rw [isWitness]
      split at refused
      · rename_i semantic
        cases refused
        rw [if_pos semantic]
        simp [Exit.goesBack, putBack]
      split at refused
      · rename_i semantic proofs
        cases refused
        rw [if_neg semantic, if_pos proofs]
        simp [Exit.goesBack, putBack, isCopy]
      split at refused
      · rename_i semantic proofs inputs
        cases refused
        rw [if_neg semantic, if_neg proofs, if_pos inputs]
        cases (p.pool txId).isSome <;> simp [Exit.goesBack, putBack, isCopy]
      split at refused
      · rename_i semantic proofs inputs admits
        cases refused
        rw [if_neg semantic, if_neg proofs, if_neg inputs, if_pos admits]
        cases (p.pool txId).isSome <;> simp [Exit.goesBack, putBack, isCopy]
      · cases refused

theorem connectTransactions_append (before after : List TxId) :
    rules.connectTransactions chain onboard (before ++ after) p =
      match rules.connectTransactions chain onboard before p with
      | .error stopped => .error stopped
      | .ok next => rules.connectTransactions chain onboard after next := by
  induction before generalizing p with
  | nil => rfl
  | cons txId before inductionHypothesis =>
      rw [List.cons_append, connectTransactions, connectTransactions]
      cases rules.connectTransaction chain onboard p txId with
      | error stopped => rfl
      | ok next => exact inductionHypothesis

/-- Erasing a transaction from the pool changes no copy of another one. -/
theorem copiesUsed_update {pool : Pool TxId Witness} {other : TxId} (different : other ≠ txId) :
    rules.copiesUsed (Function.update pool txId none) onboard other =
      rules.copiesUsed pool onboard other := by
  rw [copiesUsed, copiesUsed, Function.update_of_ne different]

theorem connectTransactions_passes (nodup : txHashes.Nodup)
    (isUsed : ∀ txId ∈ txHashes, rules.copiesUsed p.pool onboard txId = copies txId)
    (passes : rules.Passes chain p.chain txHashes copies)
    (connected : rules.connectIds p.chain txHashes = some last) :
    rules.connectTransactions chain onboard txHashes p = .ok
      ⟨last, eraseAll txHashes p.pool, p.processed ++ rules.entries chain copies txHashes,
        p.cumulativeBlockSize + totalSize copies txHashes⟩ := by
  induction txHashes generalizing p with
  | nil =>
      cases connected
      simp [connectTransactions, eraseAll, entries, totalSize]
  | cons txId txHashes inductionHypothesis =>
      obtain ⟨notLater, laterNodup⟩ := List.nodup_cons.mp nodup
      rw [connectIds_cons] at connected
      obtain ⟨next, added, rest⟩ := Option.bind_eq_some_iff.mp connected
      have laterUsed : ∀ other ∈ txHashes,
          rules.copiesUsed (Function.update p.pool txId none) onboard other = copies other := by
        intro other inside
        have different : other ≠ txId := by
          rintro rfl
          exact notLater inside
        rw [copiesUsed_update different]
        exact isUsed other (List.mem_cons_of_mem _ inside)
      rw [connectTransactions, connectTransaction_passes (isUsed txId (by simp)) passes.1, added]
      dsimp only
      rw [inductionHypothesis laterNodup laterUsed (passes.2 next added) rest]
      have split : rules.entries chain copies (txId :: txHashes) =
          rules.entries chain copies [txId] ++ rules.entries chain copies txHashes := by
        rw [entries, entries, entries, ← List.filterMap_append, List.singleton_append]
      simp [eraseAll, totalSize, split, Nat.add_assoc]

omit [DecidableEq TxId] in
/-- The loop ends at the first copy that is refused, if there is one. -/
theorem passes_or_stops (connected : rules.connectIds current txHashes = some last)
    (copies : Copies TxId Witness) :
    rules.Passes chain current txHashes copies ∨ ∃ before txId after reached exit,
      txHashes = before ++ txId :: after ∧ rules.connectIds current before = some reached ∧
        rules.Passes chain current before copies ∧
          rules.exitOf chain reached txId (copies txId) = some exit := by
  induction txHashes generalizing current with
  | nil => exact .inl trivial
  | cons txId txHashes inductionHypothesis =>
      rw [connectIds_cons] at connected
      obtain ⟨next, added, rest⟩ := Option.bind_eq_some_iff.mp connected
      cases exit : rules.exitOf chain current txId (copies txId) with
      | some exit' => exact .inr ⟨[], txId, txHashes, current, exit', rfl, rfl, trivial, exit⟩
      | none =>
          have onlyNext : ∀ other, rules.addTransactionFromBlock current txId = some other →
              other = next := by
            intro other isOther
            rw [added] at isOther
            exact (Option.some.inj isOther).symm
          rcases inductionHypothesis rest with
            passes | ⟨before, other, after, reached, exit', split, reaches, passes, refused⟩
          · exact .inl ⟨exit, fun other isOther => onlyNext other isOther ▸ passes⟩
          · refine .inr ⟨txId :: before, other, after, reached,
              exit', by rw [split, List.cons_append], ?_, ?_, refused⟩
            · rw [connectIds_cons, added]
              exact reaches
            · exact ⟨exit, fun other isOther => onlyNext other isOther ▸ passes⟩

/-- A loop that comes to its end has connected the transactions, with copies of which
none was refused. -/
theorem connectIds_of_ok {final : Progress Chain TxId Witness}
    (ran : rules.connectTransactions chain onboard txHashes p = .ok final) :
    ∃ last, rules.connectIds p.chain txHashes = some last := by
  induction txHashes generalizing p with
  | nil => exact ⟨p.chain, rfl⟩
  | cons txId txHashes inductionHypothesis =>
      rw [connectTransactions] at ran
      cases first : rules.connectTransaction chain onboard p txId with
      | error stopped =>
          rw [first] at ran
          cases ran
      | ok next =>
          rw [first] at ran
          obtain ⟨last, connected⟩ := inductionHypothesis ran
          have added : rules.addTransactionFromBlock p.chain txId = some next.chain := by
            cases exit : rules.exitOf chain p.chain txId (rules.copiesUsed p.pool onboard txId) with
            | some exit' =>
                rw [connectTransaction_stops rfl exit] at first
                cases first
            | none =>
                rw [connectTransaction_passes rfl exit] at first
                cases isAdded : rules.addTransactionFromBlock p.chain txId with
                | none =>
                    rw [isAdded] at first
                    cases first
                | some other =>
                    rw [isAdded] at first
                    cases first
                    rfl
          refine ⟨last, ?_⟩
          rw [connectIds_cons, added]
          exact connected

end Loop

end Rules

end Zano.BlockHandling
