import Mathlib
import Zano.Lib.Loop
import Zano.Decoys.Outputs

/-! # Bare outputs by candidate indexes

`get_bare_outs_by_indices` takes candidates for the global index of an output and walks forward from
each until it has found one more output that may be a decoy, round the end of the index if need be.
All walks share the set of the indexes that have been looked at, so a walk that finds nothing has
made the set complete, and then the later candidates are not walked from.
-/

namespace Zano.Decoys

open Loop

/-! ## The code -/

structure RequestBatch where
  inputAmount : UInt64
  heights : List UInt64
  globalOffsets : List UInt64
  ringSize : UInt64

structure OutputsInBlock where
  blockHeight : ℕ
  outs : List OutEntry

/-- `load_output`: the height of the block, and the entry if the output is eligible. -/
def loadOutput (s : BlockchainStorage) (batch : RequestBatch) (chainSize globalIndex : ℕ) :
    Except Failure (ℕ × Option OutEntry) :=
  match (s.dbOutputs batch.inputAmount)[globalIndex]? with
  | none => .error .exception
  | some output =>
      match s.dbTransactions output.txId with
      | none => .error .refused
      | some txEntry =>
          if txEntry.globalOutputIndexes.length ≠ txEntry.tx.vout.length ∨
              txEntry.spentFlags.length ≠ txEntry.tx.vout.length then .error .refused
          else if (txEntry.globalOutputIndexes[output.outNo]?).map UInt64.toNat ≠
            some globalIndex then .error .refused
          else if chainSize ≤ txEntry.keeperBlockHeight then .error .refused
          else
            match txEntry.tx.vout[output.outNo]? with
            | some (.inl ⟨amount, .inl _⟩) =>
                if amount ≠ batch.inputAmount then .error .refused
                else if chainSize - txEntry.keeperBlockHeight < currencyMinedMoneyUnlockWindow then
                  .ok (txEntry.keeperBlockHeight, none)
                else
                  match buildRandomOutEntryFromTxEntry s txEntry output.outNo batch.inputAmount
                    globalIndex batch.ringSize
                      false 0 with
                  | .ok entry => .ok (txEntry.keeperBlockHeight, some entry)
                  | .error .refused => .ok (txEntry.keeperBlockHeight, none)
                  | .error .exception => .error .exception
            | _ => .error .refused

/-- The indexes that have been loaded, in the order in which they were, and what was
eligible among them. -/
structure Walk (α : Type) where
  checkedIndices : List ℕ
  pool : List α

section Walking

variable {α : Type} (load : ℕ → Except Failure (Option α)) (outputsCount : ℕ)

def tryIndex (w : Walk α) (globalIndex : ℕ) : Except Failure (Walk α) :=
  if globalIndex ∈ w.checkedIndices then .ok w
  else
    match load globalIndex with
    | .error failure => .error failure
    | .ok none => .ok { w with checkedIndices := w.checkedIndices ++ [globalIndex] }
    | .ok (some found) => .ok ⟨w.checkedIndices ++ [globalIndex], w.pool ++ [found]⟩

def walkTurn (previousPoolSize : ℕ) (at_ : Walk α × ℕ) : (Walk α × ℕ) ⊕ Except Failure (Walk α) :=
  if at_.1.pool.length = previousPoolSize ∧ at_.1.checkedIndices.length < outputsCount then
    match tryIndex load at_.1 at_.2 with
    | .error failure => .inr (.error failure)
    | .ok w => .inl (w, nextPlace outputsCount at_.2)
  else .inr (.ok at_.1)

/-- The walk from one candidate, with a turn for every index and one to leave. -/
def walkFrom (w : Walk α) (globalIndex : ℕ) : Option (Except Failure (Walk α)) :=
  loop (walkTurn load outputsCount w.pool.length) (outputsCount + 1) (w, globalIndex)

/-- `none` is a walk that has not ended. -/
def walkCandidates : List UInt64 → Walk α → Option (Except Failure (Walk α))
  | [], w => some (.ok w)
  | candidate :: rest, w =>
      if w.checkedIndices.length = outputsCount then some (.ok w)
      else
        match walkFrom load outputsCount w
            (if outputsCount ≤ candidate.toNat then candidate.toNat % outputsCount
              else candidate.toNat) with
        | none => none
        | some (.error failure) => some (.error failure)
        | some (.ok w) => walkCandidates rest w

end Walking

def addToBlock (outBlocks : List OutputsInBlock) (output : ℕ × OutEntry) : List OutputsInBlock :=
  if output.1 ∈ outBlocks.map (·.blockHeight) then
    outBlocks.map fun b => if b.blockHeight = output.1 then
      { b with outs := b.outs ++ [output.2] } else b
  else outBlocks ++ [⟨output.1, [output.2]⟩]

/-- What the pool takes from an index. -/
def eligibleOutput (s : BlockchainStorage) (batch : RequestBatch) (chainSize globalIndex : ℕ) :
    Except Failure (Option (ℕ × OutEntry)) :=
  (loadOutput s batch chainSize globalIndex).map fun loaded => loaded.2.map fun entry =>
    (loaded.1, entry)

def RequestBatch.valid (batch : RequestBatch) : Prop :=
  batch.inputAmount ≠ 0 ∧ batch.heights = [] ∧ 2 ≤ batch.ringSize ∧
    batch.ringSize.toNat ≤ batch.globalOffsets.length

instance (batch : RequestBatch) : Decidable batch.valid := by
  unfold RequestBatch.valid
  infer_instance

/-- The indexes that were checked, whose number is logged, and the blocks of the response. -/
def getBareOutsByIndices (s : BlockchainStorage) (batch : RequestBatch) (chainSize : ℕ) :
    Option (Except Failure (List ℕ × List OutputsInBlock)) :=
  if ¬batch.valid then some (.error .refused)
  else
    let outputsCount := (s.dbOutputs batch.inputAmount).length
    let walked :=
      if outputsCount = 0 then some (.ok ⟨[], []⟩)
      else walkCandidates (eligibleOutput s batch chainSize) outputsCount
        batch.globalOffsets ⟨[], []⟩
    match walked with
    | none => none
    | some (.error failure) => some (.error failure)
    | some (.ok w) => some (.ok (w.checkedIndices, w.pool.foldl addToBlock []))

/-! ## One walk -/

section Walks

variable {α : Type} {load : ℕ → Except Failure (Option α)} {outputsCount : ℕ} {w : Walk α} {i : ℕ}

/-- What an index gives to the pool. -/
def found (load : ℕ → Except Failure (Option α)) (i : ℕ) : Option α :=
  match load i with
  | .ok eligible => eligible
  | .error _ => none

/-- Every index is loaded once, and the pool is what they gave. -/
structure Walked (load : ℕ → Except Failure (Option α)) (outputsCount : ℕ) (w : Walk α) : Prop where
  nodup : w.checkedIndices.Nodup
  inside : ∀ i ∈ w.checkedIndices, i < outputsCount
  pool : w.pool = w.checkedIndices.filterMap (found load)

theorem walked_start : Walked load outputsCount ⟨[], []⟩ :=
  ⟨List.nodup_nil, fun _ inside => (by cases inside), rfl⟩

theorem tryIndex_walked (walked : Walked load outputsCount w) (inside : i < outputsCount) :
    (∃ failure, tryIndex load w i = .error failure ∧ load i = .error failure) ∨
      ∃ next, tryIndex load w i = .ok next ∧ Walked load outputsCount next ∧
        i ∈ next.checkedIndices ∧
        w.checkedIndices ⊆ next.checkedIndices ∧
          (next.pool.length = w.pool.length ∨ next.pool.length = w.pool.length + 1) := by
  rw [tryIndex]
  split
  next known => exact .inr ⟨w, rfl, walked, known, List.Subset.refl _, .inl rfl⟩
  next isNew =>
    have nodup : (w.checkedIndices ++ [i]).Nodup :=
      List.nodup_append.mpr ⟨walked.nodup, by simp, by grind⟩
    have below : ∀ j ∈ w.checkedIndices ++ [i], j < outputsCount := by
      have old := walked.inside
      grind
    split
    next failure fails => exact .inl ⟨failure, rfl, fails⟩
    next none_ =>
      refine .inr ⟨_, rfl, ⟨nodup, below, ?_⟩, by simp, by simp, .inl rfl⟩
      simp [walked.pool, found, none_]
    next one some_ =>
      refine .inr ⟨_, rfl, ⟨nodup, below, ?_⟩, by simp, by simp, .inr (by simp)⟩
      simp [walked.pool, found, some_]

/-- How a walk ends: at an index that cannot be loaded, with one output more, or with
every index looked at. -/
def EndsWell (load : ℕ → Except Failure (Option α)) (outputsCount previousPoolSize : ℕ) :
    Except Failure (Walk α) → Prop
  | .error failure => ∃ i < outputsCount, load i = .error failure
  | .ok w => Walked load outputsCount w ∧
      (w.pool.length = previousPoolSize + 1 ∨ w.pool.length = previousPoolSize ∧
        w.checkedIndices.length = outputsCount)

/-- Before the turn that is `left` turns before the last one. -/
structure Walking (load : ℕ → Except Failure (Option α))
    (outputsCount previousPoolSize start left : ℕ)
    (at_ : Walk α × ℕ) : Prop where
  walked : Walked load outputsCount at_.1
  size : at_.1.pool.length = previousPoolSize ∨ at_.1.pool.length = previousPoolSize + 1
  atMost : left ≤ outputsCount
  place : at_.2 = (start + (outputsCount - left)) % outputsCount
  behind : ∀ k < outputsCount - left, (start + k) % outputsCount ∈ at_.1.checkedIndices

theorem walkTurn_walking {previousPoolSize start left : ℕ} {at_ : Walk α × ℕ}
    (some_ : 0 < outputsCount)
    (walking : Walking load outputsCount previousPoolSize start left at_) :
    (∃ result, walkTurn load outputsCount previousPoolSize at_ = .inr result ∧
        EndsWell load outputsCount previousPoolSize result) ∨
      ∃ next fewer, walkTurn load outputsCount previousPoolSize at_ = .inl next ∧ fewer < left ∧
        Walking load outputsCount previousPoolSize start fewer next := by
  obtain ⟨walked, size, atMost, place, behind⟩ := walking
  rw [walkTurn]
  split
  next goes =>
    have inside : at_.2 < outputsCount := by
      rw [place]
      exact Nat.mod_lt _ some_
    have notLast : 0 < left := by
      by_contra isLast
      have all : ∀ k < outputsCount, (start + k) % outputsCount ∈ at_.1.checkedIndices :=
        fun k below => behind k (by omega)
      have complete := length_eq_of_walked walked.nodup walked.inside all
      omega
    rcases tryIndex_walked walked inside with
      ⟨failure, fails, cannotLoad⟩ | ⟨next, tried, walkedOn, here, kept, grown⟩
    · rw [fails]
      exact .inl ⟨_, rfl, at_.2, inside, cannotLoad⟩
    · rw [tried]
      have oneMore : outputsCount - (left - 1) = outputsCount - left + 1 := by omega
      refine .inr ⟨_, left - 1, rfl, by omega, walkedOn, ?_, by omega, ?_, ?_⟩
      · dsimp only
        omega
      · rw [place, nextPlace_eq some_, oneMore]
      · intro k below
        by_cases earlier : k < outputsCount - left
        · exact kept (behind k earlier)
        · rw [show k = outputsCount - left by omega, ← place]
          exact here
  next leaves =>
    refine .inl ⟨_, rfl, walked, ?_⟩
    have most := length_le_of_inside walked.nodup walked.inside
    omega

theorem walkFrom_ends (some_ : 0 < outputsCount) (walked : Walked load outputsCount w)
    (inside : i < outputsCount) :
    ∃ result, walkFrom load outputsCount w i = some result ∧
      EndsWell load outputsCount w.pool.length result := by
  have begins : Walking load outputsCount w.pool.length i outputsCount (w, i) :=
    ⟨walked, .inl rfl, le_rfl, by simp [Nat.mod_eq_of_lt inside], by simp⟩
  exact loop_ends (Walking load outputsCount w.pool.length i)
    (fun left at_ walking => walkTurn_walking some_ walking) begins (Nat.lt_succ_self _)

theorem walkCandidates_complete (complete : w.checkedIndices.length = outputsCount)
    (candidates : List UInt64) :
    walkCandidates load outputsCount candidates w = some (.ok w) := by
  cases candidates with
  | nil => rfl
  | cons candidate rest => rw [walkCandidates, if_pos complete]

/-- After the candidates: one output for each, or every index has been looked at. -/
theorem walkCandidates_ends (some_ : 0 < outputsCount) (candidates : List UInt64)
    (walked : Walked load outputsCount w) :
    ∃ result, walkCandidates load outputsCount candidates w = some result ∧
      match result with
      | .error failure => ∃ i < outputsCount, load i = .error failure
      | .ok last =>
          Walked load outputsCount last ∧ (last.pool.length = w.pool.length + candidates.length ∨
          last.pool.length ≤ w.pool.length + candidates.length ∧
            last.checkedIndices.length = outputsCount) := by
  induction candidates generalizing w with
  | nil => exact ⟨.ok w, rfl, walked, .inl rfl⟩
  | cons candidate rest inductionHypothesis =>
      rw [walkCandidates]
      split
      next complete => exact ⟨.ok w, rfl, walked, .inr ⟨Nat.le_add_right _ _, complete⟩⟩
      next =>
        have inside : (if outputsCount ≤ candidate.toNat then candidate.toNat % outputsCount
          else candidate.toNat) <
            outputsCount := by
          split
          · exact Nat.mod_lt _ some_
          · omega
        obtain ⟨result, ends, well⟩ := walkFrom_ends some_ walked inside
        rw [ends]
        cases result with
        | error failure => exact ⟨_, rfl, well⟩
        | ok next =>
            obtain ⟨walkedOn, oneMore | ⟨same, complete⟩⟩ := well
            · obtain ⟨last, later, good⟩ := inductionHypothesis walkedOn
              refine ⟨last, later, ?_⟩
              cases last with
              | error failure => exact good
              | ok last =>
                  refine ⟨good.1, ?_⟩
                  have sizes := good.2
                  simp only [List.length_cons]
                  omega
            · exact ⟨.ok next, walkCandidates_complete complete rest, walkedOn,
                .inr ⟨by omega, complete⟩⟩

/-- The number of outputs in the pool, once the walks have ended. -/
theorem Walked.pool_length (walked : Walked load outputsCount w) {wanted : ℕ}
    (ended : w.pool.length = wanted ∨ w.pool.length ≤ wanted ∧
      w.checkedIndices.length = outputsCount) :
    w.pool.length =
      min wanted ((List.range outputsCount).countP fun i => (found load i).isSome) := by
  have counted : w.pool.length = w.checkedIndices.countP fun i => (found load i).isSome := by
    rw [walked.pool, List.length_filterMap_eq_countP]
  have subset : w.checkedIndices ⊆ List.range outputsCount :=
    fun i inside => List.mem_range.mpr (walked.inside i inside)
  have sub := walked.nodup.subperm subset
  rcases ended with enough | ⟨atMost, complete⟩
  · have most := sub.countP_le fun i => (found load i).isSome
    omega
  · have all : w.checkedIndices.Perm (List.range outputsCount) :=
      sub.perm_of_length_le (by rw [complete, List.length_range])
    have same := all.countP_eq fun i => (found load i).isSome
    omega

end Walks

/-! ## The blocks of the response -/

/-- The outputs of the blocks, each with the height of its block. -/
def outputsOf (outBlocks : List OutputsInBlock) : List (ℕ × OutEntry) :=
  outBlocks.flatMap fun b => b.outs.map fun entry => (b.blockHeight, entry)

theorem addToBlock_heights (outBlocks : List OutputsInBlock) (output : ℕ × OutEntry) :
    (addToBlock outBlocks output).map (·.blockHeight) =
      if output.1 ∈ outBlocks.map (·.blockHeight) then outBlocks.map (·.blockHeight)
      else outBlocks.map (·.blockHeight) ++ [output.1] := by
  rw [addToBlock]
  split
  · rw [List.map_map]
    apply List.map_congr_left
    intro b _
    simp only [Function.comp_apply]
    split <;> rfl
  · simp

theorem outputsOf_addToBlock {outBlocks : List OutputsInBlock} (output : ℕ × OutEntry)
    (heights : (outBlocks.map (·.blockHeight)).Nodup) :
    (outputsOf (addToBlock outBlocks output)).Perm (outputsOf outBlocks ++ [output]) := by
  rw [addToBlock]
  split
  next there =>
    induction outBlocks with
    | nil => cases there
    | cons b rest inductionHypothesis =>
        obtain ⟨different, restHeights⟩ := List.nodup_cons.mp heights
        by_cases here : b.blockHeight = output.1
        · have others : (rest.map fun b => if b.blockHeight = output.1 then
              { b with outs := b.outs ++ [output.2] } else b) =
              rest := by
            calc _ = rest.map id := by
                  apply List.map_congr_left
                  intro other inside
                  rw [if_neg, id]
                  intro same
                  exact different (List.mem_map.mpr ⟨other, inside, same.trans here.symm⟩)
              _ = rest := List.map_id rest
          rw [List.map_cons, if_pos here, others]
          simp only [outputsOf, List.flatMap_cons, List.map_append, List.append_assoc]
          apply List.Perm.append_left
          rw [here]
          exact List.perm_append_comm
        · have later : output.1 ∈ rest.map (·.blockHeight) :=
            (List.mem_cons.mp there).resolve_left (Ne.symm here)
          rw [List.map_cons, if_neg here]
          simp only [outputsOf, List.flatMap_cons, List.append_assoc]
          exact (inductionHypothesis restHeights later).append_left _
  next => simp [outputsOf]

/-- The blocks have different heights, and their outputs are those of the pool. -/
theorem foldl_addToBlock (pool : List (ℕ × OutEntry)) {outBlocks : List OutputsInBlock}
    (heights : (outBlocks.map (·.blockHeight)).Nodup) (noneEmpty : ∀ b ∈ outBlocks, b.outs ≠ []) :
    ((pool.foldl addToBlock outBlocks).map (·.blockHeight)).Nodup ∧
      (∀ b ∈ pool.foldl addToBlock outBlocks, b.outs ≠ []) ∧
      (outputsOf (pool.foldl addToBlock outBlocks)).Perm (outputsOf outBlocks ++ pool) := by
  induction pool generalizing outBlocks with
  | nil => exact ⟨heights, noneEmpty, by simp⟩
  | cons output pool inductionHypothesis =>
      have stays : ((addToBlock outBlocks output).map (·.blockHeight)).Nodup := by
        rw [addToBlock_heights]
        split
        · exact heights
        · exact List.nodup_append.mpr ⟨heights, by simp, by grind⟩
      have stillNone : ∀ b ∈ addToBlock outBlocks output, b.outs ≠ [] := by
        rw [addToBlock]
        split
        · rw [List.forall_mem_map]
          intro b inside
          split
          · simp
          · exact noneEmpty b inside
        · intro b inside
          rcases List.mem_append.mp inside with old | isNew
          · exact noneEmpty b old
          · simp [List.mem_singleton.mp isNew]
      obtain ⟨nodup, notEmpty, outputs⟩ := inductionHypothesis stays stillNone
      refine ⟨nodup, notEmpty, outputs.trans ?_⟩
      simpa using (outputsOf_addToBlock output heights).append_right pool

/-! ## The response -/

theorem loadOutput_index {s : BlockchainStorage} {batch : RequestBatch} {chainSize i height : ℕ}
    {entry : OutEntry} (loaded : loadOutput s batch chainSize i = .ok (height, some entry)) :
    entry.globalAmountIndex = i := by
  unfold loadOutput at loaded
  split at loaded
  · cases loaded
  · split at loaded
    · cases loaded
    · simp only [ite_error_eq_ok] at loaded
      obtain ⟨-, -, -, kind⟩ := loaded
      split at kind
      · simp only [ite_error_eq_ok] at kind
        obtain ⟨-, young⟩ := kind
        split at young
        · cases young
        · split at young
          next made =>
            cases young
            exact buildRandomOutEntryFromTxEntry_index made
          · cases young
          · cases young
      · cases kind

theorem eligibleOutput_eq_some {s : BlockchainStorage} {batch : RequestBatch} {chainSize i : ℕ}
    {output : ℕ × OutEntry} (eligible : found (eligibleOutput s batch chainSize) i = some output) :
    loadOutput s batch chainSize i = .ok (output.1, some output.2) ∧
      output.2.globalAmountIndex = i := by
  have loaded : loadOutput s batch chainSize i = .ok (output.1, some output.2) := by
    rw [found, eligibleOutput] at eligible
    cases load : loadOutput s batch chainSize i with
    | error failure => simp [load, Except.map] at eligible
    | ok loaded =>
        obtain ⟨height, entry⟩ := loaded
        cases entry with
        | none => simp [load, Except.map] at eligible
        | some entry =>
            simp only [load, Except.map, Option.map_some, Option.some.injEq] at eligible
            rw [← eligible]
  exact ⟨loaded, loadOutput_index loaded⟩

theorem foundIndexes_sublist {s : BlockchainStorage} {batch : RequestBatch} {chainSize : ℕ}
    (indexes : List ℕ) :
    ((indexes.filterMap (found (eligibleOutput s batch chainSize))).map fun output =>
      output.2.globalAmountIndex).Sublist indexes := by
  induction indexes with
  | nil => exact List.Sublist.slnil
  | cons i rest inductionHypothesis =>
      cases eligible : found (eligibleOutput s batch chainSize) i with
      | none =>
          rw [List.filterMap_cons_none eligible]
          exact inductionHypothesis.cons i
      | some output =>
          rw [List.filterMap_cons_some eligible, List.map_cons, (eligibleOutput_eq_some eligible).2]
          exact inductionHypothesis.cons_cons i

/-- Whether an output of the amount may be a decoy. -/
def eligibleIndex (s : BlockchainStorage) (batch : RequestBatch)
    (chainSize globalIndex : ℕ) : Bool :=
  (found (eligibleOutput s batch chainSize) globalIndex).isSome

/-- What is said of a response: its outputs come from different indexes that were checked, each
once, they are eligible and stand under the height of their block, and there are as many as were
wanted or as there are. -/
structure Response (s : BlockchainStorage) (batch : RequestBatch) (chainSize : ℕ) (checked : List ℕ)
    (outBlocks : List OutputsInBlock) : Prop where
  checkedOnce : checked.Nodup
  inside : ∀ i ∈ checked, i < (s.dbOutputs batch.inputAmount).length
  size : (outputsOf outBlocks).length = min batch.globalOffsets.length
    ((List.range (s.dbOutputs batch.inputAmount).length).countP (eligibleIndex s batch chainSize))
  distinct : ((outputsOf outBlocks).map fun output => output.2.globalAmountIndex).Nodup
  heights : (outBlocks.map (·.blockHeight)).Nodup
  noneEmpty : ∀ b ∈ outBlocks, b.outs ≠ []
  eligible : ∀ b ∈ outBlocks, ∀ entry ∈ b.outs, entry.globalAmountIndex ∈ checked ∧
    loadOutput s batch chainSize entry.globalAmountIndex = .ok (b.blockHeight, some entry)

theorem response_of_walked {s : BlockchainStorage} {batch : RequestBatch} {chainSize : ℕ}
    {w : Walk (ℕ × OutEntry)}
    (walked : Walked (eligibleOutput s batch chainSize) (s.dbOutputs batch.inputAmount).length w)
    (ended : w.pool.length = batch.globalOffsets.length ∨
      w.pool.length ≤ batch.globalOffsets.length ∧
      w.checkedIndices.length = (s.dbOutputs batch.inputAmount).length) :
    Response s batch chainSize w.checkedIndices (w.pool.foldl addToBlock []) := by
  obtain ⟨heights, noneEmpty, outputs⟩ := @foldl_addToBlock w.pool [] List.nodup_nil (by simp)
  have outputs : (outputsOf (w.pool.foldl addToBlock [])).Perm w.pool := outputs
  have indexes :
      (w.pool.map fun output => output.2.globalAmountIndex).Sublist w.checkedIndices := by
    rw [walked.pool]
    exact foundIndexes_sublist w.checkedIndices
  refine ⟨walked.nodup, walked.inside, ?_, ?_, heights, noneEmpty, ?_⟩
  · rw [outputs.length_eq]
    exact walked.pool_length ended
  · rw [(outputs.map fun output => output.2.globalAmountIndex).nodup_iff]
    exact indexes.nodup walked.nodup
  · intro b inside entry isOut
    have there : (b.blockHeight, entry) ∈ outputsOf (w.pool.foldl addToBlock []) :=
      List.mem_flatMap.mpr ⟨b, inside, List.mem_map_of_mem isOut⟩
    have inPool := outputs.subset there
    rw [walked.pool, List.mem_filterMap] at inPool
    obtain ⟨i, isChecked, eligible⟩ := inPool
    obtain ⟨loaded, own⟩ := eligibleOutput_eq_some eligible
    dsimp only at loaded own
    rw [own]
    exact ⟨isChecked, loaded⟩

/-- The function ends for every request; it succeeds for every proper one when the outputs of
the amount can be loaded, and what it then returns is as much as there are candidates, or all
that is eligible. -/
theorem bare_outs_exhaustive (s : BlockchainStorage) (batch : RequestBatch) (chainSize : ℕ) :
    ∃ result, getBareOutsByIndices s batch chainSize = some result ∧
      ((batch.valid ∧ ∀ i < (s.dbOutputs batch.inputAmount).length, ∃ loaded,
        loadOutput s batch chainSize i = .ok loaded) →
        ∃ checked outBlocks, result = .ok (checked, outBlocks)) ∧
      ∀ checked outBlocks, result = .ok (checked, outBlocks) →
        Response s batch chainSize checked outBlocks := by
  have walks : ∃ result, (if (s.dbOutputs batch.inputAmount).length = 0 then some (.ok ⟨[], []⟩)
      else walkCandidates (eligibleOutput s batch chainSize) (s.dbOutputs batch.inputAmount).length
        batch.globalOffsets
        ⟨[], []⟩) = some result ∧
      match result with
      | .error failure => ∃ i < (s.dbOutputs batch.inputAmount).length,
          eligibleOutput s batch chainSize i = .error failure
      | .ok w => Response s batch chainSize w.checkedIndices (w.pool.foldl addToBlock []) := by
    split
    next empty =>
      refine ⟨_, rfl, response_of_walked walked_start (.inr ⟨Nat.zero_le _, ?_⟩)⟩
      rw [empty]
      rfl
    next notEmpty =>
      obtain ⟨result, ends, well⟩ :=
        walkCandidates_ends (Nat.pos_of_ne_zero notEmpty) batch.globalOffsets walked_start
      refine ⟨result, ends, ?_⟩
      cases result with
      | error failure => exact well
      | ok w => exact response_of_walked well.1 (by simpa using well.2)
  obtain ⟨result, ends, well⟩ := walks
  rw [getBareOutsByIndices]
  split
  next invalid =>
    exact ⟨_, rfl, fun proper => absurd proper.1 invalid, fun _ _ isOk => by cases isOk⟩
  next =>
    dsimp only
    rw [ends]
    cases result with
    | error failure =>
        obtain ⟨i, inside, fails⟩ := well
        refine ⟨_, rfl, ?_, fun _ _ isOk => by cases isOk⟩
        rintro ⟨-, loads⟩
        obtain ⟨loaded, isLoaded⟩ := loads i inside
        rw [eligibleOutput, isLoaded] at fails
        cases fails
    | ok w =>
        refine ⟨_, rfl, fun _ => ⟨_, _, rfl⟩, ?_⟩
        intro checked outBlocks isOk
        cases isOk
        exact well

end Zano.Decoys
