import Mathlib.Data.List.Forall2
import Zano.Blockchain.Footprint

/-! # Purging a transaction undoes adding it

Both visitors resolve an input to the same footprint, since footprints depend only on the shape of
the stores: marks and key images are not part of it, and it only grows when outputs and transactions
are added. Popping the outputs is the exact inverse of pushing them.

What is left after adding and purging is the marks of the footprints, set to unspent.
-/

namespace Zano.Blockchain

namespace Stores

variable {Hash KeyImage : Type*}

/-- The stores without marks. -/
def forget (s : Stores Hash KeyImage) : Stores Hash KeyImage :=
  { s with
    transactions := fun txId => (s.transactions txId).map fun tce =>
      { tce with spentFlags := tce.spentFlags.map fun _ => false }
    multisigOuts := fun id => (s.multisigOuts id).map fun msoe => { msoe with spentHeight := 0 } }

/-- The stores without marks and key images. -/
def shape (s : Stores Hash KeyImage) : Stores Hash KeyImage :=
  { s.forget with spentKeys := fun _ => none }

section Shape

variable [DecidableEq Hash] {s t : Stores Hash KeyImage}

theorem forget_setFlag (flag : Option (Hash × Nat)) (spent : Bool) :
    (setFlag flag spent s).forget = s.forget := by
  cases flag with
  | none => rfl
  | some flag =>
      obtain ⟨txId, n⟩ := flag
      ext : 1
      case transactions =>
        funext other
        by_cases same : other = txId
        · subst same
          simp only [forget, setFlag, setTransaction, Function.update_self, Option.map_map,
            Function.comp_def]
          congr 1
          funext tce
          simp
        · simp only [forget, setFlag, setTransaction, Function.update_of_ne same]
      all_goals rfl

theorem forget_setSpentHeight (multisig : Option Hash) (height : Nat) :
    (setSpentHeight multisig height s).forget = s.forget := by
  cases multisig with
  | none => rfl
  | some id =>
      ext : 1
      case multisigOuts =>
        funext other
        by_cases same : other = id
        · subst same
          simp only [forget, setSpentHeight, setMultisigOut, Function.update_self, Option.map_map,
            Function.comp_def]
        · simp only [forget, setSpentHeight, setMultisigOut, Function.update_of_ne same]
      all_goals rfl

omit [DecidableEq Hash] in
theorem flagOf_shape (txId : Hash) (n : Nat) : s.shape.flagOf txId n = s.flagOf txId n := by
  simp only [flagOf, shape, forget, Option.bind_map]
  congr 1
  funext tce
  simp

omit [DecidableEq Hash] in
theorem footprint_shape (input : TxinV Hash KeyImage) :
    s.shape.footprint input = s.footprint input := by
  have direct (amount : UInt64) (keyOffsets : List (TxoutRefV Hash)) :
      s.shape.directSpend amount keyOffsets = s.directSpend amount keyOffsets := by
    unfold directSpend
    split
    · simp only [flagOf_shape]
    · simp only [flagOf_shape]
      rfl
    · rfl
  cases input with
  | gen => rfl
  | toKey | zcInput => simp only [footprint, direct]
  | multisig id =>
      simp only [footprint, flagOf_shape]
      simp only [shape, forget, Option.bind_map]
      rfl

omit [DecidableEq Hash] in
theorem footprint_of_shape (same : s.shape = t.shape) (input : TxinV Hash KeyImage) :
    s.footprint input = t.footprint input := by
  rw [← footprint_shape, same, footprint_shape]

omit [DecidableEq Hash] in
theorem shape_of_forget (same : s.forget = t.forget) : s.shape = t.shape := by
  rw [shape, same, shape]

end Shape

end Stores

namespace Footprint

variable {Hash KeyImage : Type*} [DecidableEq Hash] {s : Stores Hash KeyImage}

theorem forget_unmark (f : Footprint Hash KeyImage) : (f.unmark s).forget = s.forget := by
  rw [unmark, Stores.forget_setFlag, Stores.forget_setSpentHeight]

theorem forget_foldl_unmark (fs : List (Footprint Hash KeyImage)) :
    (fs.foldl (fun s f => f.unmark s) s).forget = s.forget := by
  induction fs generalizing s with
  | nil => rfl
  | cons f fs inductionHypothesis => rw [List.foldl_cons, inductionHypothesis, forget_unmark]

variable [DecidableEq KeyImage]

omit [DecidableEq Hash] in
theorem forget_setKey (f : Footprint Hash KeyImage) (height : Option Nat) :
    (f.setKey height s).forget = f.setKey height s.forget := by
  obtain ⟨key, _, _⟩ := f
  cases key <;> rfl

theorem forget_apply (f : Footprint Hash KeyImage) (blHeight : Nat) :
    (f.apply blHeight s).forget = f.setKey (some blHeight) s.forget := by
  rw [apply, Stores.forget_setFlag, Stores.forget_setSpentHeight, forget_setKey]

theorem forget_revert (f : Footprint Hash KeyImage) :
    (f.revert s).forget = f.setKey none s.forget := by
  rw [revert, forget_unmark, forget_setKey]

omit [DecidableEq Hash] in
theorem shape_setKey (f : Footprint Hash KeyImage) (height : Option Nat) :
    (f.setKey height s).shape = s.shape := by
  rw [Stores.shape, forget_setKey, Stores.shape]
  obtain ⟨key, _, _⟩ := f
  cases key <;> rfl

theorem shape_apply (f : Footprint Hash KeyImage) (blHeight : Nat) :
    (f.apply blHeight s).shape = s.shape := by
  have marks : (f.apply blHeight s).shape = (f.setKey (some blHeight) s).shape :=
    Stores.shape_of_forget (by rw [forget_apply, forget_setKey])
  rw [marks, shape_setKey]

theorem shape_revert (f : Footprint Hash KeyImage) : (f.revert s).shape = s.shape := by
  have marks : (f.revert s).shape = (f.setKey none s).shape :=
    Stores.shape_of_forget (by rw [forget_revert, forget_setKey])
  rw [marks, shape_setKey]

end Footprint

/-! ## The visitors -/

namespace Stores

variable {Hash KeyImage : Type*} [DecidableEq Hash] {s t : Stores Hash KeyImage}

theorem updateSpentTxFlags_of_some {txId : Hash} {n : Nat} {flag : Hash × Nat}
    (found : s.flagOf txId n = some flag) (spent : Bool) :
    s.updateSpentTxFlags txId n spent = (true, setFlag (some flag) spent s) := by
  unfold flagOf at found
  cases entry : s.transactions txId with
  | none => simp [entry] at found
  | some tce =>
      simp only [entry, Option.bind_some, Option.ite_none_right_eq_some, Option.some.injEq] at found
      obtain ⟨inRange, rfl⟩ := found
      simp [updateSpentTxFlags, setFlag, entry, inRange]

theorem updateSpentTxFlags_of_none {txId : Hash} {n : Nat} (missing : s.flagOf txId n = none)
    (spent : Bool) : (s.updateSpentTxFlags txId n spent).1 = false := by
  unfold flagOf at missing
  cases entry : s.transactions txId with
  | none => simp [updateSpentTxFlags, entry]
  | some tce =>
      simp only [entry, Option.bind_some, ite_eq_right_iff, reduceCtorEq, imp_false] at missing
      simp [updateSpentTxFlags, entry, missing]

theorem updateDirectSpend_of_some {amount : UInt64} {keyOffsets : List (TxoutRefV Hash)}
    {flag : Option (Hash × Nat)} (found : s.directSpend amount keyOffsets = some flag)
    (spent : Bool) :
    s.updateDirectSpend amount keyOffsets spent = (true, setFlag flag spent s) := by
  unfold directSpend at found
  split at found
  · obtain ⟨mark, isFlag, rfl⟩ := Option.map_eq_some_iff.mp found
    exact updateSpentTxFlags_of_some isFlag spent
  · rename_i index
    by_cases isHidden : amount = 0
    · rw [if_pos isHidden] at found
      cases found
      simp [updateDirectSpend, updateSpentTxFlagsForInput, isHidden, setFlag]
    · rw [if_neg isHidden] at found
      obtain ⟨out, isOut, resolved⟩ := Option.bind_eq_some_iff.mp found
      obtain ⟨mark, isFlag, rfl⟩ := Option.map_eq_some_iff.mp resolved
      simp only [updateDirectSpend, updateSpentTxFlagsForInput, if_neg isHidden, isOut]
      exact updateSpentTxFlags_of_some isFlag spent
  · rename_i notById notByIndex
    cases found
    unfold updateDirectSpend
    split
    · rename_i o
      cases o with
      | refById txId n => exact absurd rfl (notById txId n)
      | globalIndex index => exact absurd rfl (notByIndex index)
    · rfl

theorem updateDirectSpend_of_none {amount : UInt64} {keyOffsets : List (TxoutRefV Hash)}
    (missing : s.directSpend amount keyOffsets = none) (spent : Bool) :
    (s.updateDirectSpend amount keyOffsets spent).1 = false := by
  unfold directSpend at missing
  split at missing
  · exact updateSpentTxFlags_of_none (Option.map_eq_none_iff.mp missing) spent
  · rename_i index
    split at missing
    · cases missing
    · rename_i notHidden
      simp only [updateDirectSpend, updateSpentTxFlagsForInput, if_neg notHidden]
      cases isOut : (s.outputs amount)[index]? with
      | none => rfl
      | some out =>
          rw [isOut, Option.bind_some] at missing
          exact updateSpentTxFlags_of_none (Option.map_eq_none_iff.mp missing) spent
  · cases missing

theorem updateSpentTxFlagsForMultisig_eq {id : Hash} {f : Footprint Hash KeyImage}
    (found : s.footprint (.multisig id) = some f) (height : Nat) :
    s.updateSpentTxFlagsForMultisig id height =
      (true, setFlag f.flag (decide (height ≠ 0)) (setSpentHeight f.multisig height s)) := by
  obtain ⟨msoe, isEntry, resolved⟩ := Option.bind_eq_some_iff.mp found
  obtain ⟨flag, isFlag, rfl⟩ := Option.map_eq_some_iff.mp resolved
  simp only [updateSpentTxFlagsForMultisig, setSpentHeight, isEntry, Option.map_some]
  exact updateSpentTxFlags_of_some (s := s.setMultisigOut id _) isFlag _

theorem updateSpentTxFlagsForMultisig_of_none {id : Hash}
    (missing : s.footprint (.multisig id : TxinV Hash KeyImage) = none) (height : Nat) :
    (s.updateSpentTxFlagsForMultisig id height).1 = false := by
  unfold updateSpentTxFlagsForMultisig
  cases isEntry : s.multisigOuts id with
  | none => rfl
  | some msoe =>
      simp only [footprint, isEntry, Option.bind_some, Option.map_eq_none_iff] at missing
      exact updateSpentTxFlags_of_none (s := s.setMultisigOut id _) missing _

variable [DecidableEq KeyImage]

theorem addKeyInput_eq_some {next : Stores Hash KeyImage} {blHeight : Nat} {amount : UInt64}
    {keyOffsets : List (TxoutRefV Hash)} {kImage : KeyImage}
    (added : s.addKeyInput blHeight amount keyOffsets kImage = some next) :
    ∃ flag, s.directSpend amount keyOffsets = some flag ∧ s.spentKeys kImage = none ∧
      next = setFlag flag true (s.setSpentKey kImage (some blHeight)) := by
  unfold addKeyInput at added
  cases isSpent : s.spentKeys kImage with
  | some height => simp [isSpent] at added
  | none =>
      have sameSpend : (s.setSpentKey kImage (some blHeight)).directSpend amount keyOffsets =
          s.directSpend amount keyOffsets := rfl
      cases found : s.directSpend amount keyOffsets with
      | none =>
          have fails := updateDirectSpend_of_none (sameSpend.trans found) true
          simp only [isSpent] at added
          split at added
          · rename_i updated
            rw [updated] at fails
            cases fails
          · cases added
      | some flag =>
          rw [isSpent, updateDirectSpend_of_some (sameSpend.trans found)] at added
          cases added
          exact ⟨flag, rfl, rfl, rfl⟩

theorem purgeKeyInput_eq {amount : UInt64} {keyOffsets : List (TxoutRefV Hash)} {kImage : KeyImage}
    {flag : Option (Hash × Nat)} (found : s.directSpend amount keyOffsets = some flag)
    (isSpent : s.spentKeys kImage ≠ none) :
    s.purgeKeyInput amount keyOffsets kImage =
      (true, setFlag flag false (s.setSpentKey kImage none)) := by
  unfold purgeKeyInput
  cases height : s.spentKeys kImage with
  | none => exact absurd height isSpent
  | some height => exact updateDirectSpend_of_some (s := s.setSpentKey kImage none) found false

/-- The visitor of an accepted input is its footprint. -/
theorem addInput_eq_some {next : Stores Hash KeyImage} {blHeight : Nat}
    {input : TxinV Hash KeyImage} (added : s.addInput blHeight input = some next) :
    ∃ f, s.footprint input = some f ∧ (∀ kImage, f.key = some kImage → s.spentKeys kImage = none) ∧
      next = f.apply blHeight s := by
  cases input with
  | gen =>
      cases added
      exact ⟨_, rfl, by simp, rfl⟩
  | toKey amount keyOffsets kImage =>
      obtain ⟨flag, found, fresh, rfl⟩ := addKeyInput_eq_some added
      refine ⟨_, Option.map_eq_some_iff.mpr ⟨flag, found, rfl⟩, ?_, rfl⟩
      intro own same
      exact Option.some.inj same ▸ fresh
  | zcInput keyOffsets kImage =>
      obtain ⟨flag, found, fresh, rfl⟩ := addKeyInput_eq_some added
      refine ⟨_, Option.map_eq_some_iff.mpr ⟨flag, found, rfl⟩, ?_, rfl⟩
      intro own same
      exact Option.some.inj same ▸ fresh
  | multisig id =>
      cases found : s.footprint (.multisig id) with
      | none =>
          have fails := updateSpentTxFlagsForMultisig_of_none found blHeight
          simp only [addInput] at added
          split at added
          · rename_i updated
            rw [updated] at fails
            cases fails
          · cases added
      | some f =>
          simp only [addInput, updateSpentTxFlagsForMultisig_eq found] at added
          cases added
          obtain ⟨msoe, -, resolved⟩ := Option.bind_eq_some_iff.mp found
          obtain ⟨flag, -, rfl⟩ := Option.map_eq_some_iff.mp resolved
          exact ⟨_, rfl, by simp, rfl⟩

theorem purgeInput_eq {input : TxinV Hash KeyImage} {f : Footprint Hash KeyImage}
    (found : s.footprint input = some f)
    (isSpent : ∀ kImage, f.key = some kImage → s.spentKeys kImage ≠ none) :
    s.purgeInput input = (true, f.revert s) := by
  cases input with
  | gen =>
      cases found
      rfl
  | toKey amount keyOffsets kImage =>
      obtain ⟨flag, resolved, rfl⟩ := Option.map_eq_some_iff.mp found
      exact purgeKeyInput_eq resolved (isSpent kImage rfl)
  | zcInput keyOffsets kImage =>
      obtain ⟨flag, resolved, rfl⟩ := Option.map_eq_some_iff.mp found
      exact purgeKeyInput_eq resolved (isSpent kImage rfl)
  | multisig id =>
      obtain ⟨msoe, -, resolved⟩ := Option.bind_eq_some_iff.mp found
      obtain ⟨flag, -, rfl⟩ := Option.map_eq_some_iff.mp resolved
      exact updateSpentTxFlagsForMultisig_eq found 0

/-- The footprints of a list of inputs. -/
def Footprints (s : Stores Hash KeyImage) (vin : List (TxinV Hash KeyImage))
    (fs : List (Footprint Hash KeyImage)) : Prop :=
  List.Forall₂ (fun input f => s.footprint input = some f) vin fs

omit [DecidableEq Hash] [DecidableEq KeyImage] in
theorem Footprints.congr {vin : List (TxinV Hash KeyImage)} {fs : List (Footprint Hash KeyImage)}
    (footprints : Footprints s vin fs) (same : ∀ input, s.footprint input = t.footprint input) :
    Footprints t vin fs :=
  footprints.imp fun input _ found => same input ▸ found

theorem addInputs_eq_some {final : Stores Hash KeyImage} {blHeight : Nat}
    {vin : List (TxinV Hash KeyImage)} (added : addInputs blHeight vin s = some final) :
    ∃ fs, Footprints s vin fs ∧ Footprint.FreshKeys fs s ∧
      final = fs.foldl (fun s f => f.apply blHeight s) s := by
  induction vin generalizing s with
  | nil =>
      cases added
      exact ⟨[], List.Forall₂.nil, ⟨List.nodup_nil, by simp⟩, rfl⟩
  | cons input vin inductionHypothesis =>
      obtain ⟨next, addedFirst, addedRest⟩ := Option.bind_eq_some_iff.mp added
      obtain ⟨f, found, fresh, rfl⟩ := addInput_eq_some addedFirst
      obtain ⟨fs, footprints, freshRest, rfl⟩ := inductionHypothesis addedRest
      refine ⟨f :: fs, List.Forall₂.cons found
        (footprints.congr (footprint_of_shape (f.shape_apply blHeight))), ?_, rfl⟩
      cases key : f.key with
      | none =>
          rw [Footprint.FreshKeys, List.filterMap_cons_none key]
          refine ⟨freshRest.1, fun kImage inside => ?_⟩
          rw [← Footprint.spentKeys_apply f blHeight (by simp [key])]
          exact freshRest.2 kImage inside
      | some own =>
          have spentNow : (f.apply blHeight s).spentKeys own = some blHeight :=
            Footprint.spentKeys_apply_self key
          have notLater : own ∉ fs.filterMap (·.key) := by
            intro inside
            rw [freshRest.2 own inside] at spentNow
            cases spentNow
          rw [Footprint.FreshKeys, List.filterMap_cons_some key]
          refine ⟨List.nodup_cons.mpr ⟨notLater, freshRest.1⟩, fun kImage inside => ?_⟩
          obtain rfl | later := List.mem_cons.mp inside
          · exact fresh _ key
          · have different : f.key ≠ some kImage := by
              rw [key]
              intro same
              exact notLater (Option.some.inj same ▸ later)
            rw [← Footprint.spentKeys_apply f blHeight different]
            exact freshRest.2 kImage later

theorem spentKeys_revert {f : Footprint Hash KeyImage} {kImage : KeyImage}
    (other : f.key ≠ some kImage) :
    (f.revert s).spentKeys kImage = s.spentKeys kImage := by
  obtain ⟨key, flag, multisig⟩ := f
  cases key with
  | none => cases flag <;> cases multisig <;> rfl
  | some own =>
      have different : kImage ≠ own := fun same => other (congrArg some same.symm)
      cases flag <;> cases multisig <;> exact Function.update_of_ne different _ _

theorem purgeTransactionKeyimages_eq {vin : List (TxinV Hash KeyImage)}
    {fs : List (Footprint Hash KeyImage)} (footprints : Footprints s vin fs)
    (distinct : (fs.filterMap (·.key)).Nodup)
    (spent : ∀ kImage ∈ fs.filterMap (·.key), s.spentKeys kImage ≠ none) :
    purgeTransactionKeyimages vin s = (true, fs.foldl (fun s f => f.revert s) s) := by
  induction vin generalizing s fs with
  | nil =>
      cases footprints
      rfl
  | cons input vin inductionHypothesis =>
      obtain ⟨f, fs, found, rest, rfl⟩ := List.forall₂_cons_left_iff.mp footprints
      have spentFirst : ∀ kImage, f.key = some kImage → s.spentKeys kImage ≠ none := by
        intro kImage key
        exact spent kImage (by rw [List.filterMap_cons_some key]; exact List.mem_cons_self)
      have restDistinct : (fs.filterMap (·.key)).Nodup := by
        cases key : f.key with
        | none => rwa [List.filterMap_cons_none key] at distinct
        | some own =>
            rw [List.filterMap_cons_some key] at distinct
            exact distinct.of_cons
      have spentRest : ∀ kImage ∈ fs.filterMap (·.key), (f.revert s).spentKeys kImage ≠ none := by
        intro kImage inside
        have different : f.key ≠ some kImage := by
          intro key
          rw [List.filterMap_cons_some key, List.nodup_cons] at distinct
          exact distinct.1 inside
        rw [spentKeys_revert different]
        refine spent kImage ?_
        cases key : f.key with
        | none => rwa [List.filterMap_cons_none key]
        | some own =>
            rw [List.filterMap_cons_some key]
            exact List.mem_cons_of_mem _ inside
      simp only [purgeTransactionKeyimages, purgeInput_eq found spentFirst]
      exact inductionHypothesis (rest.imp fun other _ same =>
        (footprint_of_shape f.shape_revert other).trans same) restDistinct spentRest

theorem spentKeys_foldl_apply {fs : List (Footprint Hash KeyImage)} {blHeight : Nat}
    {kImage : KeyImage} (inside : kImage ∈ fs.filterMap (·.key)) :
    (fs.foldl (fun s f => f.apply blHeight s) s).spentKeys kImage ≠ none := by
  have stays {fs : List (Footprint Hash KeyImage)} {s : Stores Hash KeyImage}
      (isSpent : s.spentKeys kImage ≠ none) :
      (fs.foldl (fun s f => f.apply blHeight s) s).spentKeys kImage ≠ none := by
    induction fs generalizing s with
    | nil => exact isSpent
    | cons f fs inductionHypothesis =>
        refine inductionHypothesis ?_
        by_cases own : f.key = some kImage
        · rw [Footprint.spentKeys_apply_self own]
          exact Option.some_ne_none _
        · rwa [Footprint.spentKeys_apply f blHeight own]
  induction fs generalizing s with
  | nil => cases inside
  | cons f fs inductionHypothesis =>
      by_cases own : f.key = some kImage
      · rw [List.foldl_cons]
        refine stays ?_
        rw [Footprint.spentKeys_apply_self own]
        exact Option.some_ne_none _
      · refine inductionHypothesis ?_
        cases key : f.key with
        | none => rwa [List.filterMap_cons_none key] at inside
        | some other =>
            rw [List.filterMap_cons_some key] at inside
            obtain rfl | later := List.mem_cons.mp inside
            · exact absurd key own
            · exact later

/-! ## The outputs -/

omit [DecidableEq KeyImage] in
theorem popOutput_pushOutput (txId : Hash) (amount : UInt64) (i : Nat) :
    (s.pushOutput txId amount i).1.popOutput txId amount i = (true, s) := by
  simp [popOutput, pushOutput]

omit [DecidableEq KeyImage] in
theorem popOut_pushOut {next : Stores Hash KeyImage} {txId : Hash} {i index : Nat}
    {out : TxOutV Hash} (pushed : s.pushOut txId i out = some (next, index)) :
    next.popOut txId i out = (true, s) := by
  cases out with
  | bareToKey amount =>
      cases pushed
      exact popOutput_pushOutput txId amount i
  | zarcanum =>
      cases pushed
      exact popOutput_pushOutput txId 0 i
  | bareMultisig id =>
      cases id with
      | none => cases pushed
      | some id =>
          simp only [pushOut] at pushed
          split at pushed
          · cases pushed
          · rename_i isFree
            cases pushed
            have free : s.multisigOuts id = none := by simpa using isFree
            simp [popOut, setMultisigOut, ← free]

omit [DecidableEq KeyImage] in
theorem popOuts_pushOuts {final : Stores Hash KeyImage} {txId : Hash} {i : Nat}
    {vout : List (TxOutV Hash)} {indexes : List Nat}
    (pushed : pushOuts txId i vout s = some (final, indexes)) :
    popOuts txId i vout final = (true, s) := by
  induction vout generalizing s i indexes with
  | nil =>
      cases pushed
      rfl
  | cons out vout inductionHypothesis =>
      obtain ⟨⟨next, index⟩, pushedFirst, pushedRest⟩ := Option.bind_eq_some_iff.mp pushed
      obtain ⟨⟨last, rest⟩, pushedLater, same⟩ := Option.map_eq_some_iff.mp pushedRest
      cases same
      simp only [popOuts, inductionHypothesis pushedLater]
      exact popOut_pushOut pushedFirst

omit [DecidableEq KeyImage] in
theorem popOut_setTransaction (txId other : Hash)
    (entry : Option (TransactionChainEntry Hash KeyImage)) (i : Nat) (out : TxOutV Hash) :
    (s.setTransaction other entry).popOut txId i out =
      ((s.popOut txId i out).1, (s.popOut txId i out).2.setTransaction other entry) := by
  have output (amount : UInt64) : (s.setTransaction other entry).popOutput txId amount i =
      ((s.popOutput txId amount i).1,
        (s.popOutput txId amount i).2.setTransaction other entry) := by
    simp only [popOutput, setTransaction]
    split
    · rfl
    · split <;> rfl
  cases out with
  | bareToKey amount => exact output amount
  | zarcanum => exact output 0
  | bareMultisig id => cases id <;> rfl

omit [DecidableEq KeyImage] in
theorem popOuts_setTransaction (txId other : Hash)
    (entry : Option (TransactionChainEntry Hash KeyImage)) (i : Nat) (vout : List (TxOutV Hash)) :
    popOuts txId i vout (s.setTransaction other entry) =
      ((popOuts txId i vout s).1, (popOuts txId i vout s).2.setTransaction other entry) := by
  induction vout generalizing i with
  | nil => rfl
  | cons out vout inductionHypothesis =>
      simp only [popOuts, inductionHypothesis]
      cases popped : popOuts txId (i + 1) vout s with
      | mk ok next =>
          cases ok with
          | false => rfl
          | true => exact popOut_setTransaction txId other entry i out

/-! ### Reverting inputs under pushed outputs -/

/-- The multisig output of the footprint is in the index. -/
def Knows (s : Stores Hash KeyImage) (f : Footprint Hash KeyImage) : Prop :=
  ∀ id, f.multisig = some id → (s.multisigOuts id).isSome

theorem multisigOuts_revert_isSome (f : Footprint Hash KeyImage) (id : Hash) :
    ((f.revert s).multisigOuts id).isSome = (s.multisigOuts id).isSome := by
  have same := congrArg (fun t => (t.multisigOuts id).isSome) (f.shape_revert (s := s))
  simpa [shape, forget] using same

theorem pushOut_revert {next : Stores Hash KeyImage} {txId : Hash} {i index : Nat}
    {out : TxOutV Hash} {f : Footprint Hash KeyImage} (knows : s.Knows f)
    (pushed : s.pushOut txId i out = some (next, index)) :
    (f.revert s).pushOut txId i out = some (f.revert next, index) := by
  have output (amount : UInt64) :
      (f.revert s).pushOutput txId amount i = (f.revert (s.pushOutput txId amount i).1,
        (s.pushOutput txId amount i).2) := by
    obtain ⟨key, flag, multisig⟩ := f
    cases key <;> cases flag <;> cases multisig <;> rfl
  cases out with
  | bareToKey amount =>
      cases pushed
      exact congrArg some (output amount)
  | zarcanum =>
      cases pushed
      exact congrArg some (output 0)
  | bareMultisig id =>
      cases id with
      | none => cases pushed
      | some id =>
          simp only [pushOut, multisigOuts_revert_isSome] at pushed ⊢
          split at pushed
          · cases pushed
          · rename_i isFree
            cases pushed
            rw [if_neg isFree]
            have commutes : (f.revert s).setMultisigOut id (some ⟨txId, i, 0⟩) =
                f.revert (s.setMultisigOut id (some ⟨txId, i, 0⟩)) := by
              obtain ⟨key, flag, multisig⟩ := f
              cases multisig with
              | none => cases key <;> cases flag <;> rfl
              | some other =>
                  have different : other ≠ id := by
                    intro same
                    exact isFree (same ▸ knows other rfl)
                  cases key <;> cases flag <;> ext : 1 <;>
                    simp [Footprint.revert, Footprint.unmark, Footprint.setKey, setFlag,
                      setSpentHeight, setTransaction, setMultisigOut, setSpentKey,
                      Function.update_of_ne different, Function.update_comm different]
            rw [commutes]

omit [DecidableEq KeyImage] in
theorem pushOut_knows {next : Stores Hash KeyImage} {txId : Hash} {i index : Nat}
    {out : TxOutV Hash} {f : Footprint Hash KeyImage} (knows : s.Knows f)
    (pushed : s.pushOut txId i out = some (next, index)) :
    next.Knows f := by
  intro id isMultisig
  have known := knows id isMultisig
  cases out with
  | bareToKey amount =>
      cases pushed
      exact known
  | zarcanum =>
      cases pushed
      exact known
  | bareMultisig other =>
      cases other with
      | none => cases pushed
      | some other =>
          simp only [pushOut] at pushed
          split at pushed
          · cases pushed
          · cases pushed
            by_cases same : id = other
            · subst same
              simp [setMultisigOut]
            · simpa [setMultisigOut, Function.update_of_ne same] using known

theorem pushOuts_revert {final : Stores Hash KeyImage} {txId : Hash} {i : Nat}
    {vout : List (TxOutV Hash)} {indexes : List Nat} {f : Footprint Hash KeyImage}
    (knows : s.Knows f) (pushed : pushOuts txId i vout s = some (final, indexes)) :
    pushOuts txId i vout (f.revert s) = some (f.revert final, indexes) := by
  induction vout generalizing s i indexes with
  | nil =>
      cases pushed
      rfl
  | cons out vout inductionHypothesis =>
      obtain ⟨⟨next, index⟩, pushedFirst, pushedRest⟩ := Option.bind_eq_some_iff.mp pushed
      obtain ⟨⟨last, rest⟩, pushedLater, same⟩ := Option.map_eq_some_iff.mp pushedRest
      cases same
      simp only [pushOuts, pushOut_revert knows pushedFirst, Option.bind_some,
        inductionHypothesis (pushOut_knows knows pushedFirst) pushedLater, Option.map_some]

theorem pushOuts_foldl_revert {final : Stores Hash KeyImage} {txId : Hash}
    {vout : List (TxOutV Hash)} {indexes : List Nat} {fs : List (Footprint Hash KeyImage)}
    (knows : ∀ f ∈ fs, s.Knows f) (pushed : pushOuts txId 0 vout s = some (final, indexes)) :
    pushOuts txId 0 vout (fs.foldl (fun s f => f.revert s) s) =
      some (fs.foldl (fun s f => f.revert s) final, indexes) := by
  induction fs generalizing s final with
  | nil => exact pushed
  | cons f fs inductionHypothesis =>
      refine inductionHypothesis (fun g inside id isMultisig => ?_)
        (pushOuts_revert (knows f List.mem_cons_self) pushed)
      rw [multisigOuts_revert_isSome]
      exact knows g (List.mem_cons_of_mem f inside) id isMultisig

theorem foldl_revert_setTransaction {txId : Hash}
    {entry : Option (TransactionChainEntry Hash KeyImage)} {fs : List (Footprint Hash KeyImage)}
    (apart : ∀ f ∈ fs, ∀ flag, f.flag = some flag → flag.1 ≠ txId) :
    fs.foldl (fun s f => f.revert s) (s.setTransaction txId entry) =
      (fs.foldl (fun s f => f.revert s) s).setTransaction txId entry := by
  induction fs generalizing s with
  | nil => rfl
  | cons f fs inductionHypothesis =>
      have one :
          f.revert (s.setTransaction txId entry) = (f.revert s).setTransaction txId entry := by
        have own := apart f List.mem_cons_self
        obtain ⟨key, flag, multisig⟩ := f
        cases flag with
        | none => cases key <;> cases multisig <;> rfl
        | some flag =>
            have different := own flag rfl
            cases key <;> cases multisig <;> ext : 1 <;>
              simp [Footprint.revert, Footprint.unmark, Footprint.setKey, setFlag, setSpentHeight,
                setTransaction, setMultisigOut, setSpentKey, Function.update_of_ne different,
                Function.update_comm different]
      rw [List.foldl_cons, List.foldl_cons, one]
      exact inductionHypothesis fun g inside => apart g (List.mem_cons_of_mem f inside)

/-! ## What stays resolvable -/

/-- The second stores know everything that the first ones do. -/
structure Grows (s t : Stores Hash KeyImage) : Prop where
  outputs : ∀ amount, s.outputs amount <+: t.outputs amount
  multisigOuts : ∀ id msoe, s.multisigOuts id = some msoe → t.multisigOuts id = some msoe
  transactions : ∀ txId tce, s.transactions txId = some tce → t.transactions txId = some tce

omit [DecidableEq Hash] [DecidableEq KeyImage] in
theorem Grows.trans {u : Stores Hash KeyImage} (first : Grows s t)
    (second : Grows t u) : Grows s u where
  outputs := fun amount => (first.outputs amount).trans (second.outputs amount)
  multisigOuts :=
    fun id msoe found => second.multisigOuts id msoe (first.multisigOuts id msoe found)
  transactions :=
    fun txId tce found => second.transactions txId tce (first.transactions txId tce found)

omit [DecidableEq Hash] [DecidableEq KeyImage] in
theorem footprint_of_grows (grows : Grows s t) {input : TxinV Hash KeyImage}
    {f : Footprint Hash KeyImage} (found : s.footprint input = some f) :
    t.footprint input = some f := by
  have flags {txId : Hash} {n : Nat} {flag : Hash × Nat} (isFlag : s.flagOf txId n = some flag) :
      t.flagOf txId n = some flag := by
    obtain ⟨tce, isEntry, inRange⟩ := Option.bind_eq_some_iff.mp isFlag
    exact Option.bind_eq_some_iff.mpr ⟨tce, grows.transactions txId tce isEntry, inRange⟩
  have direct {amount : UInt64} {keyOffsets : List (TxoutRefV Hash)} {flag : Option (Hash × Nat)}
      (resolved : s.directSpend amount keyOffsets = some flag) :
      t.directSpend amount keyOffsets = some flag := by
    unfold directSpend at resolved ⊢
    split at resolved
    · obtain ⟨mark, isFlag, rfl⟩ := Option.map_eq_some_iff.mp resolved
      exact Option.map_eq_some_iff.mpr ⟨mark, flags isFlag, rfl⟩
    · rename_i index
      split at resolved
      · rename_i isHidden
        rw [if_pos isHidden]
        exact resolved
      · rename_i notHidden
        rw [if_neg notHidden]
        obtain ⟨out, isOut, known⟩ := Option.bind_eq_some_iff.mp resolved
        obtain ⟨mark, isFlag, rfl⟩ := Option.map_eq_some_iff.mp known
        have stillOut : (t.outputs amount)[index]? = some out := by
          obtain ⟨later, outputsEq⟩ := grows.outputs amount
          rw [← outputsEq, List.getElem?_append_left (List.getElem?_eq_some_iff.mp isOut).1, isOut]
        exact Option.bind_eq_some_iff.mpr
          ⟨out, stillOut, Option.map_eq_some_iff.mpr ⟨mark, flags isFlag, rfl⟩⟩
    · exact resolved
  cases input with
  | gen => exact found
  | toKey amount keyOffsets kImage =>
      obtain ⟨flag, resolved, rfl⟩ := Option.map_eq_some_iff.mp found
      exact Option.map_eq_some_iff.mpr ⟨flag, direct resolved, rfl⟩
  | zcInput keyOffsets kImage =>
      obtain ⟨flag, resolved, rfl⟩ := Option.map_eq_some_iff.mp found
      exact Option.map_eq_some_iff.mpr ⟨flag, direct resolved, rfl⟩
  | multisig id =>
      obtain ⟨msoe, isEntry, resolved⟩ := Option.bind_eq_some_iff.mp found
      obtain ⟨flag, isFlag, rfl⟩ := Option.map_eq_some_iff.mp resolved
      exact Option.bind_eq_some_iff.mpr ⟨msoe, grows.multisigOuts id msoe isEntry,
        Option.map_eq_some_iff.mpr ⟨flag, flags isFlag, rfl⟩⟩

omit [DecidableEq KeyImage] in
theorem pushOut_grows {next : Stores Hash KeyImage} {txId : Hash} {i index : Nat}
    {out : TxOutV Hash} (pushed : s.pushOut txId i out = some (next, index)) :
    Grows s next ∧ next.spentKeys = s.spentKeys ∧ next.transactions = s.transactions := by
  have output (amount : UInt64) : Grows s (s.pushOutput txId amount i).1 := by
    refine ⟨fun other => ?_, fun _ _ found => found, fun _ _ found => found⟩
    simp only [pushOutput, Function.update_apply]
    split
    · rename_i same
      exact same ▸ List.prefix_append _ _
    · exact List.prefix_rfl
  cases out with
  | bareToKey amount =>
      cases pushed
      exact ⟨output amount, rfl, rfl⟩
  | zarcanum =>
      cases pushed
      exact ⟨output 0, rfl, rfl⟩
  | bareMultisig id =>
      cases id with
      | none => cases pushed
      | some id =>
          simp only [pushOut] at pushed
          split at pushed
          · cases pushed
          · rename_i isFree
            cases pushed
            refine ⟨⟨fun _ => List.prefix_rfl, fun other msoe found => ?_, fun _ _ found => found⟩,
              rfl, rfl⟩
            have different : other ≠ id := by
              rintro rfl
              exact isFree (by simp [found])
            simpa [setMultisigOut, Function.update_of_ne different] using found

omit [DecidableEq KeyImage] in
theorem pushOuts_grows {final : Stores Hash KeyImage} {txId : Hash} {i : Nat}
    {vout : List (TxOutV Hash)} {indexes : List Nat}
    (pushed : pushOuts txId i vout s = some (final, indexes)) :
    Grows s final ∧ final.spentKeys = s.spentKeys ∧ final.transactions = s.transactions := by
  induction vout generalizing s i indexes with
  | nil =>
      cases pushed
      exact ⟨⟨fun _ => List.prefix_rfl, fun _ _ found => found, fun _ _ found => found⟩, rfl, rfl⟩
  | cons out vout inductionHypothesis =>
      obtain ⟨⟨next, index⟩, pushedFirst, pushedRest⟩ := Option.bind_eq_some_iff.mp pushed
      obtain ⟨⟨last, rest⟩, pushedLater, same⟩ := Option.map_eq_some_iff.mp pushedRest
      cases same
      obtain ⟨grows, keys, transactions⟩ := pushOut_grows pushedFirst
      obtain ⟨laterGrows, laterKeys, laterTransactions⟩ := inductionHypothesis pushedLater
      exact ⟨grows.trans laterGrows, laterKeys.trans keys, laterTransactions.trans transactions⟩

/-! ## Adding and purging -/

omit [DecidableEq Hash] [DecidableEq KeyImage] in
theorem transactions_of_footprint {input : TxinV Hash KeyImage} {f : Footprint Hash KeyImage}
    (found : s.footprint input = some f) :
    (∀ flag, f.flag = some flag → s.transactions flag.1 ≠ none) ∧ s.Knows f := by
  have flags {txId : Hash} {n : Nat} {flag : Hash × Nat} (isFlag : s.flagOf txId n = some flag) :
      s.transactions flag.1 ≠ none := by
    obtain ⟨tce, isEntry, inRange⟩ := Option.bind_eq_some_iff.mp isFlag
    obtain ⟨-, same⟩ := Option.ite_none_right_eq_some.mp inRange
    rw [← Option.some.inj same, isEntry]
    exact Option.some_ne_none tce
  have direct {amount : UInt64} {keyOffsets : List (TxoutRefV Hash)} {flag : Hash × Nat}
      (resolved : s.directSpend amount keyOffsets = some (some flag)) : s.transactions flag.1 ≠
        none := by
    unfold directSpend at resolved
    split at resolved
    · obtain ⟨mark, isFlag, same⟩ := Option.map_eq_some_iff.mp resolved
      exact Option.some.inj same ▸ flags isFlag
    · split at resolved
      · cases resolved
      · obtain ⟨out, -, known⟩ := Option.bind_eq_some_iff.mp resolved
        obtain ⟨mark, isFlag, same⟩ := Option.map_eq_some_iff.mp known
        exact Option.some.inj same ▸ flags isFlag
    · cases resolved
  cases input with
  | gen =>
      cases found
      exact ⟨by simp, by simp [Knows]⟩
  | toKey amount keyOffsets kImage =>
      obtain ⟨flag, resolved, rfl⟩ := Option.map_eq_some_iff.mp found
      refine ⟨fun mark isMark => ?_, by simp [Knows]⟩
      exact direct (resolved.trans (congrArg some isMark))
  | zcInput keyOffsets kImage =>
      obtain ⟨flag, resolved, rfl⟩ := Option.map_eq_some_iff.mp found
      refine ⟨fun mark isMark => ?_, by simp [Knows]⟩
      exact direct (resolved.trans (congrArg some isMark))
  | multisig id =>
      obtain ⟨msoe, isEntry, resolved⟩ := Option.bind_eq_some_iff.mp found
      obtain ⟨flag, isFlag, rfl⟩ := Option.map_eq_some_iff.mp resolved
      refine ⟨fun mark isMark => Option.some.inj isMark ▸ flags isFlag, fun other isMultisig => ?_⟩
      rw [← Option.some.inj isMultisig, isEntry]
      rfl

omit [DecidableEq Hash] [DecidableEq KeyImage] in
theorem transactions_of_shape (same : s.shape = t.shape) (txId : Hash) :
    s.transactions txId = none ↔ t.transactions txId = none := by
  have entries := congrArg (fun u => u.transactions txId) same
  simp only [shape, forget] at entries
  rw [← Option.map_eq_none_iff, entries, Option.map_eq_none_iff]

theorem shape_foldl_apply (fs : List (Footprint Hash KeyImage)) (blHeight : Nat) :
    (fs.foldl (fun s f => f.apply blHeight s) s).shape = s.shape := by
  induction fs generalizing s with
  | nil => rfl
  | cons f fs inductionHypothesis => rw [List.foldl_cons, inductionHypothesis, f.shape_apply]

/-- What an accepted transaction did: the inputs by their footprints, then the
outputs, then the entry. -/
theorem addTransactionFromBlock_eq_some {final : Stores Hash KeyImage} {blHeight : Nat}
    {txId : Hash} {tx : Transaction Hash KeyImage}
    (added : s.addTransactionFromBlock blHeight txId tx = some final) :
    ∃ fs pushed indexes, Footprints s tx.vin fs ∧ Footprint.FreshKeys fs s ∧
      s.transactions txId = none ∧
      pushOuts txId 0 tx.vout (fs.foldl (fun s f => f.apply blHeight s) s) =
        some (pushed, indexes) ∧
      final = pushed.setTransaction txId
        (some ⟨tx, blHeight, indexes, List.replicate tx.vout.length false⟩) := by
  obtain ⟨spent, addedInputs, rest⟩ := Option.bind_eq_some_iff.mp added
  obtain ⟨fs, footprints, fresh, rfl⟩ := addInputs_eq_some addedInputs
  split at rest
  · cases rest
  · rename_i isNew
    obtain ⟨⟨pushed, indexes⟩, pushedOuts, rfl⟩ := Option.map_eq_some_iff.mp rest
    exact ⟨fs, pushed, indexes, footprints, fresh,
      (transactions_of_shape (shape_foldl_apply fs blHeight) txId).mp isNew, pushedOuts, rfl⟩

omit [DecidableEq Hash] [DecidableEq KeyImage] in
theorem Footprints.mem {vin : List (TxinV Hash KeyImage)} {fs : List (Footprint Hash KeyImage)}
    (footprints : Footprints s vin fs) {f : Footprint Hash KeyImage} (inside : f ∈ fs) :
    ∃ input ∈ vin, s.footprint input = some f := by
  induction footprints with
  | nil => cases inside
  | cons found _ inductionHypothesis =>
      obtain rfl | later := List.mem_cons.mp inside
      · exact ⟨_, List.mem_cons_self, found⟩
      · obtain ⟨input, among, foundLater⟩ := inductionHypothesis later
        exact ⟨input, List.mem_cons_of_mem _ among, foundLater⟩

omit [DecidableEq Hash] [DecidableEq KeyImage] in
theorem Footprints.exists_of_mem {vin : List (TxinV Hash KeyImage)}
    {fs : List (Footprint Hash KeyImage)} (footprints : Footprints s vin fs)
    {input : TxinV Hash KeyImage} (inside : input ∈ vin) :
    ∃ f ∈ fs, s.footprint input = some f := by
  induction footprints with
  | nil => cases inside
  | cons found _ inductionHypothesis =>
      obtain rfl | later := List.mem_cons.mp inside
      · exact ⟨_, List.mem_cons_self, found⟩
      · obtain ⟨f, among, foundLater⟩ := inductionHypothesis later
        exact ⟨f, List.mem_cons_of_mem _ among, foundLater⟩

/-- The transaction is in the stores, its inputs resolve to these footprints and
their keys are spent. -/
structure Purgeable (s : Stores Hash KeyImage) (txId : Hash) (tx : Transaction Hash KeyImage)
    (fs : List (Footprint Hash KeyImage)) : Prop where
  entry : ∃ tce, s.transactions txId = some tce ∧ tce.tx = tx
  footprints : Footprints s tx.vin fs
  distinct : (fs.filterMap (·.key)).Nodup
  spent : ∀ kImage ∈ fs.filterMap (·.key), s.spentKeys kImage ≠ none

theorem Purgeable.purge_eq {txId : Hash} {tx : Transaction Hash KeyImage}
    {fs : List (Footprint Hash KeyImage)} (purgeable : s.Purgeable txId tx fs) :
    s.purgeTransactionFromBlockchain txId =
      ((popOuts txId 0 tx.vout (fs.foldl (fun s f => f.revert s) s)).1 &&
          ((popOuts txId 0 tx.vout (fs.foldl (fun s f => f.revert s) s)).2.transactions
            txId).isSome,
        (popOuts txId 0 tx.vout (fs.foldl (fun s f => f.revert s) s)).2.setTransaction txId
          none) := by
  obtain ⟨tce, isEntry, rfl⟩ := purgeable.entry
  simp only [purgeTransactionFromBlockchain, isEntry,
    purgeTransactionKeyimages_eq purgeable.footprints purgeable.distinct purgeable.spent]

/-- An accepted transaction can be purged, and popping its outputs leaves its entry and
the unspent marks. -/
theorem purgeable_of_add {final : Stores Hash KeyImage} {blHeight : Nat} {txId : Hash}
    {tx : Transaction Hash KeyImage}
    (added : s.addTransactionFromBlock blHeight txId tx = some final) :
    ∃ fs tce, Footprints s tx.vin fs ∧ final.Purgeable txId tx fs ∧ s.transactions txId = none ∧
      popOuts txId 0 tx.vout (fs.foldl (fun s f => f.revert s) final) =
        (true, (fs.foldl (fun s f => f.unmark s) s).setTransaction txId (some tce)) := by
  obtain ⟨fs, pushed, indexes, footprints, fresh, isNew, pushedOuts, rfl⟩ :=
    addTransactionFromBlock_eq_some added
  let spent := fs.foldl (fun s f => f.apply blHeight s) s
  let entry : TransactionChainEntry Hash KeyImage :=
    ⟨tx, blHeight, indexes, List.replicate tx.vout.length false⟩
  have sameShape : spent.shape = s.shape := shape_foldl_apply fs blHeight
  obtain ⟨grows, keys, transactions⟩ := pushOuts_grows pushedOuts
  have growsEntry : Grows pushed (pushed.setTransaction txId (some entry)) := by
    refine ⟨fun _ => List.prefix_rfl, fun _ _ found => found, fun other tce found => ?_⟩
    have different : other ≠ txId := by
      rintro rfl
      rw [transactions, (transactions_of_shape sameShape other).mpr isNew] at found
      cases found
    simpa [setTransaction, Function.update_of_ne different] using found
  have knows : ∀ f ∈ fs, spent.Knows f := by
    intro f inside
    obtain ⟨input, -, found⟩ := footprints.mem inside
    exact (transactions_of_footprint ((footprint_of_shape sameShape input).trans found)).2
  have apart : ∀ f ∈ fs, ∀ flag, f.flag = some flag → flag.1 ≠ txId := by
    intro f inside flag isFlag same
    obtain ⟨input, -, found⟩ := footprints.mem inside
    exact (transactions_of_footprint found).1 flag isFlag (same ▸ isNew)
  refine ⟨fs, entry, footprints, ⟨⟨entry, Function.update_self .., rfl⟩, ?_, fresh.1, ?_⟩,
    isNew, ?_⟩
  · exact footprints.imp fun input f found => footprint_of_grows (grows.trans growsEntry)
      ((footprint_of_shape sameShape input).trans found)
  · intro kImage inside
    have same : (pushed.setTransaction txId (some entry)).spentKeys = spent.spentKeys := keys
    rw [same]
    exact spentKeys_foldl_apply inside
  · have leftover : fs.foldl (fun s f => f.revert s) spent = fs.foldl (fun s f => f.unmark s) s :=
      Footprint.foldl_revert_apply fresh
    have unpushed := popOuts_pushOuts (pushOuts_foldl_revert knows pushedOuts)
    rw [leftover] at unpushed
    rw [foldl_revert_setTransaction apart, popOuts_setTransaction, unpushed]

/-- Purging a transaction that was just added gives the stores back, with the marks of
its inputs unspent. -/
theorem purge_add {final : Stores Hash KeyImage} {blHeight : Nat} {txId : Hash}
    {tx : Transaction Hash KeyImage}
    (added : s.addTransactionFromBlock blHeight txId tx = some final) :
    ∃ fs, Footprints s tx.vin fs ∧
      final.purgeTransactionFromBlockchain txId = (true, fs.foldl (fun s f => f.unmark s) s) := by
  obtain ⟨fs, tce, footprints, purgeable, isNew, popped⟩ := purgeable_of_add added
  have left : (fs.foldl (fun s f => f.unmark s) s).transactions txId = none :=
    (transactions_of_shape (shape_of_forget (Footprint.forget_foldl_unmark fs)) txId).mpr isNew
  refine ⟨fs, footprints, ?_⟩
  rw [purgeable.purge_eq, popped]
  refine Prod.ext (by simp [setTransaction]) ?_
  ext : 1 <;> simp [setTransaction, ← left]

end Stores

end Zano.Blockchain
