import Mathlib.Data.List.Induction
import Zano.Lib.Transition
import Zano.Blockchain.Rollback

/-! # Runs of pushed and popped blocks

After any run of pushes and pops the stores are those of a replay of the chain that is left, up to
the marks. They are exactly those of the replay when no transaction was pushed that marks an output
already marked. This is what the checks of the inputs before `add_transaction_from_block` are for;
the function itself only warns about a multisig output that is already spent.
-/

namespace Zano.Blockchain

open Transition

/-- The transactions of a block in the order in which they are added, the miner
transaction first. -/
abbrev Block (Hash KeyImage : Type*) := List (Hash × Transaction Hash KeyImage)

namespace Stores

variable {Hash KeyImage : Type*} {s t : Stores Hash KeyImage}

/-- No output that the transaction marks is marked already. -/
def Unmarked (s : Stores Hash KeyImage) (tx : Transaction Hash KeyImage) : Prop :=
  ∀ input ∈ tx.vin, ∀ f, s.footprint input = some f →
    (∀ txId n, f.flag = some (txId, n) → ∀ tce, s.transactions txId = some tce →
      tce.spentFlags[n]? ≠ some true) ∧
    ∀ id, f.multisig = some id → ∀ msoe, s.multisigOuts id = some msoe → msoe.spentHeight = 0

theorem set_false_eq_self {flags : List Bool} {n : Nat} :
    flags.set n false = flags ↔ flags[n]? ≠ some true := by
  constructor
  · intro same isTrue
    have inRange := (List.getElem?_eq_some_iff.mp isTrue).1
    rw [← same, List.getElem?_set_self inRange] at isTrue
    cases isTrue
  · intro notTrue
    apply List.ext_getElem?
    intro i
    rw [List.getElem?_set]
    by_cases same : n = i
    · subst same
      cases flag : flags[n]? with
      | none => simp [List.getElem?_eq_none_iff.mp flag]
      | some spent =>
          cases spent with
          | true => exact absurd flag notTrue
          | false => simp [(List.getElem?_eq_some_iff.mp flag).1]
    · rw [if_neg same]

variable [DecidableEq Hash]

theorem setFlag_eq_self {flag : Option (Hash × Nat)} :
    setFlag flag false s = s ↔
      ∀ txId n, flag = some (txId, n) → ∀ tce, s.transactions txId = some tce →
      tce.spentFlags[n]? ≠ some true := by
  cases flag with
  | none => simp [setFlag]
  | some flag =>
      obtain ⟨txId, n⟩ := flag
      constructor
      · intro same other m isFlag tce isEntry
        cases isFlag
        have entries := congrArg (fun t => t.transactions txId) same
        simp only [setFlag, setTransaction, Function.update_self, isEntry, Option.map_some,
          Option.some.injEq] at entries
        exact set_false_eq_self.mp (congrArg (·.spentFlags) entries)
      · intro unmarked
        ext : 1
        case transactions =>
          refine Function.update_eq_self_iff.mpr ?_
          cases isEntry : s.transactions txId with
          | none => rfl
          | some tce => simp [set_false_eq_self.mpr (unmarked txId n rfl tce isEntry)]
        all_goals rfl

theorem setSpentHeight_eq_self {multisig : Option Hash} :
    setSpentHeight multisig 0 s = s ↔ ∀ id, multisig = some id →
      ∀ msoe, s.multisigOuts id = some msoe → msoe.spentHeight = 0 := by
  cases multisig with
  | none => simp [setSpentHeight]
  | some id =>
      constructor
      · intro same other isMultisig msoe isEntry
        cases isMultisig
        have entries := congrArg (fun t => t.multisigOuts id) same
        simp only [setSpentHeight, setMultisigOut, Function.update_self, isEntry, Option.map_some,
          Option.some.injEq] at entries
        exact (congrArg (·.spentHeight) entries).symm
      · intro unspent
        ext : 1
        case multisigOuts =>
          refine Function.update_eq_self_iff.mpr ?_
          cases isEntry : s.multisigOuts id with
          | none => rfl
          | some msoe =>
              have isUnspent := unspent id rfl msoe isEntry
              obtain ⟨txId, outNo, height⟩ := msoe
              cases isUnspent
              rfl
        all_goals rfl

/-- The two kinds of marks live in different stores, so neither can make up for the other. -/
theorem unmark_eq_self {f : Footprint Hash KeyImage} :
    f.unmark s = s ↔ setFlag f.flag false s = s ∧ setSpentHeight f.multisig 0 s = s := by
  constructor
  · intro same
    have heights : (setSpentHeight f.multisig 0 s).multisigOuts = s.multisigOuts := by
      have whole := congrArg (·.multisigOuts) same
      cases flag : f.flag <;> simpa [Footprint.unmark, flag, setFlag, setTransaction] using whole
    have onlyHeights : setSpentHeight f.multisig 0 s = s := by
      cases multisig : f.multisig with
      | none => rfl
      | some id =>
          rw [multisig] at heights
          ext : 1
          case multisigOuts => exact heights
          all_goals rfl
    rw [Footprint.unmark, onlyHeights] at same
    exact ⟨same, onlyHeights⟩
  · intro both
    rw [Footprint.unmark, both.2, both.1]

theorem foldl_unmark_eq_self {fs : List (Footprint Hash KeyImage)} :
    fs.foldl (fun s f => f.unmark s) s = s ↔ ∀ f ∈ fs, f.unmark s = s := by
  constructor
  · intro same f inside
    have absorbs :
        f.unmark (fs.foldl (fun s f => f.unmark s) s) = fs.foldl (fun s f => f.unmark s) s := by
      clear same
      induction fs generalizing s with
      | nil => cases inside
      | cons g fs inductionHypothesis =>
          obtain rfl | later := List.mem_cons.mp inside
          · rw [List.foldl_cons, ← Footprint.foldl_unmark_comm, Footprint.unmark_unmark]
          · exact inductionHypothesis later
    rwa [same] at absorbs
  · intro each
    induction fs with
    | nil => rfl
    | cons f fs inductionHypothesis =>
        rw [List.foldl_cons, each f List.mem_cons_self]
        exact inductionHypothesis fun g inside => each g (List.mem_cons_of_mem f inside)

theorem foldl_unmark_iff {tx : Transaction Hash KeyImage} {fs : List (Footprint Hash KeyImage)}
    (footprints : Footprints s tx.vin fs) :
    fs.foldl (fun s f => f.unmark s) s = s ↔ s.Unmarked tx := by
  rw [foldl_unmark_eq_self]
  constructor
  · intro each input inside f found
    obtain ⟨g, among, same⟩ := footprints.exists_of_mem inside
    cases found.symm.trans same
    obtain ⟨flags, heights⟩ := unmark_eq_self.mp (each f among)
    exact ⟨setFlag_eq_self.mp flags, setSpentHeight_eq_self.mp heights⟩
  · intro unmarked f inside
    obtain ⟨input, among, found⟩ := footprints.mem inside
    obtain ⟨flags, heights⟩ := unmarked input among f found
    exact unmark_eq_self.mpr ⟨setFlag_eq_self.mpr flags, setSpentHeight_eq_self.mpr heights⟩

/-! ## Purging does not look at marks -/

variable [DecidableEq KeyImage]

omit [DecidableEq KeyImage] in
theorem popOut_forget (txId : Hash) (i : Nat) (out : TxOutV Hash) :
    s.forget.popOut txId i out = ((s.popOut txId i out).1, (s.popOut txId i out).2.forget) := by
  have output (amount : UInt64) : s.forget.popOutput txId amount i =
      ((s.popOutput txId amount i).1, (s.popOutput txId amount i).2.forget) := by
    simp only [popOutput, forget]
    split
    · rfl
    · split <;> rfl
  cases out with
  | bareToKey amount => exact output amount
  | zarcanum => exact output 0
  | bareMultisig id =>
      cases id with
      | none => rfl
      | some id =>
          refine Prod.ext (by simp [popOut, forget]) ?_
          ext : 1
          case multisigOuts =>
            funext other
            by_cases same : other = id
            · subst same
              simp [popOut, forget, setMultisigOut]
            · simp [popOut, forget, setMultisigOut, Function.update_of_ne same]
          all_goals rfl

omit [DecidableEq KeyImage] in
theorem popOuts_forget (txId : Hash) (i : Nat) (vout : List (TxOutV Hash)) :
    popOuts txId i vout s.forget =
      ((popOuts txId i vout s).1, (popOuts txId i vout s).2.forget) := by
  induction vout generalizing i with
  | nil => rfl
  | cons out vout inductionHypothesis =>
      simp only [popOuts, inductionHypothesis]
      cases popped : popOuts txId (i + 1) vout s with
      | mk ok next =>
          cases ok with
          | false => rfl
          | true => exact popOut_forget txId i out

omit [DecidableEq KeyImage] in
theorem forget_setTransaction_none (txId : Hash) :
    (s.setTransaction txId none).forget = s.forget.setTransaction txId none := by
  ext : 1
  case transactions =>
    funext other
    by_cases same : other = txId
    · subst same
      simp [forget, setTransaction]
    · simp [forget, setTransaction, Function.update_of_ne same]
  all_goals rfl

theorem forget_foldl_revert (fs : List (Footprint Hash KeyImage)) :
    (fs.foldl (fun s f => f.revert s) s).forget =
      fs.foldl (fun s f => f.setKey none s) s.forget := by
  induction fs generalizing s with
  | nil => rfl
  | cons f fs inductionHypothesis =>
      rw [List.foldl_cons, inductionHypothesis, f.forget_revert, List.foldl_cons]

omit [DecidableEq Hash] [DecidableEq KeyImage] in
theorem Purgeable.congr {txId : Hash} {tx : Transaction Hash KeyImage}
    {fs : List (Footprint Hash KeyImage)} (purgeable : s.Purgeable txId tx fs)
    (same : t.forget = s.forget) : t.Purgeable txId tx fs where
  entry := by
    obtain ⟨tce, isEntry, isTx⟩ := purgeable.entry
    have entries := congrArg (fun u => u.transactions txId) same
    simp only [forget, isEntry, Option.map_some] at entries
    obtain ⟨other, isOther, sameEntry⟩ := Option.map_eq_some_iff.mp entries
    exact ⟨other, isOther, (congrArg (·.tx) sameEntry).trans isTx⟩
  footprints := purgeable.footprints.congr (footprint_of_shape (shape_of_forget same.symm))
  distinct := purgeable.distinct
  spent := by
    have sameKeys : t.spentKeys = s.spentKeys := congrArg (·.spentKeys) same
    rw [sameKeys]
    exact purgeable.spent

theorem Purgeable.purge_alike {txId : Hash} {tx : Transaction Hash KeyImage}
    {fs : List (Footprint Hash KeyImage)} (purgeable : s.Purgeable txId tx fs)
    (same : t.forget = s.forget) :
    (t.purgeTransactionFromBlockchain txId).1 = (s.purgeTransactionFromBlockchain txId).1 ∧
      (t.purgeTransactionFromBlockchain txId).2.forget =
        (s.purgeTransactionFromBlockchain txId).2.forget := by
  have reverted : (fs.foldl (fun s f => f.revert s) t).forget =
      (fs.foldl (fun s f => f.revert s) s).forget := by
    rw [forget_foldl_revert, same, forget_foldl_revert]
  have popped := congrArg (popOuts txId 0 tx.vout) reverted
  rw [popOuts_forget, popOuts_forget, Prod.mk.injEq] at popped
  have entries := congrArg (fun u => (u.transactions txId).isSome) popped.2
  simp only [forget, Option.isSome_map] at entries
  rw [(purgeable.congr same).purge_eq, purgeable.purge_eq]
  refine ⟨by rw [popped.1, entries], ?_⟩
  rw [forget_setTransaction_none, popped.2, forget_setTransaction_none]

/-! ## Adding does not look at marks either -/

theorem addKeyInput_of_directSpend {blHeight : Nat} {amount : UInt64}
    {keyOffsets : List (TxoutRefV Hash)} {kImage : KeyImage} {flag : Option (Hash × Nat)}
    (found : s.directSpend amount keyOffsets = some flag) (fresh : s.spentKeys kImage = none) :
    s.addKeyInput blHeight amount keyOffsets kImage =
      some (setFlag flag true (s.setSpentKey kImage (some blHeight))) := by
  have updated := updateDirectSpend_of_some (s := s.setSpentKey kImage (some blHeight)) found true
  simp only [addKeyInput, fresh, updated]

theorem addInput_of_footprint {blHeight : Nat} {input : TxinV Hash KeyImage}
    {f : Footprint Hash KeyImage} (found : s.footprint input = some f)
    (fresh : ∀ kImage, f.key = some kImage → s.spentKeys kImage = none) :
    s.addInput blHeight input = some (f.apply blHeight s) := by
  cases input with
  | gen =>
      cases found
      rfl
  | toKey amount keyOffsets kImage =>
      obtain ⟨flag, resolved, rfl⟩ := Option.map_eq_some_iff.mp found
      exact addKeyInput_of_directSpend resolved (fresh kImage rfl)
  | zcInput keyOffsets kImage =>
      obtain ⟨flag, resolved, rfl⟩ := Option.map_eq_some_iff.mp found
      exact addKeyInput_of_directSpend resolved (fresh kImage rfl)
  | multisig id =>
      simp only [addInput, updateSpentTxFlagsForMultisig_eq found]
      obtain ⟨msoe, -, resolved⟩ := Option.bind_eq_some_iff.mp found
      obtain ⟨flag, -, rfl⟩ := Option.map_eq_some_iff.mp resolved
      rfl

theorem addInputs_of_footprints {blHeight : Nat} {vin : List (TxinV Hash KeyImage)}
    {fs : List (Footprint Hash KeyImage)} (footprints : Footprints s vin fs)
    (fresh : Footprint.FreshKeys fs s) :
    addInputs blHeight vin s = some (fs.foldl (fun s f => f.apply blHeight s) s) := by
  induction vin generalizing s fs with
  | nil =>
      cases footprints
      rfl
  | cons input vin inductionHypothesis =>
      obtain _ | ⟨found, rest⟩ := footprints
      rename_i f fs
      rw [addInputs, addInput_of_footprint found fresh.head, Option.bind_some, List.foldl_cons]
      exact inductionHypothesis
        (Footprints.congr rest (footprint_of_shape (f.shape_apply blHeight).symm)) fresh.tail

omit [DecidableEq KeyImage] in
theorem pushOut_forget (txId : Hash) (i : Nat) (out : TxOutV Hash) :
    s.forget.pushOut txId i out = (s.pushOut txId i out).map fun (next, index) =>
      (next.forget, index) := by
  cases out with
  | bareToKey amount => rfl
  | zarcanum => rfl
  | bareMultisig id =>
      cases id with
      | none => rfl
      | some id =>
          have known : (s.forget.multisigOuts id).isSome = (s.multisigOuts id).isSome := by
            simp [forget]
          simp only [pushOut, known]
          split
          · rfl
          · simp only [Option.map_some, Option.some.injEq, Prod.mk.injEq, and_true]
            ext : 1
            case multisigOuts =>
              funext other
              by_cases same : other = id
              · subst same
                simp [forget, setMultisigOut]
              · simp [forget, setMultisigOut, Function.update_of_ne same]
            all_goals rfl

omit [DecidableEq KeyImage] in
theorem pushOuts_forget (txId : Hash) (i : Nat) (vout : List (TxOutV Hash)) :
    pushOuts txId i vout s.forget =
      (pushOuts txId i vout s).map fun (final, indexes) => (final.forget, indexes) := by
  induction vout generalizing s i with
  | nil => rfl
  | cons out vout inductionHypothesis =>
      rw [pushOuts, pushOuts, pushOut_forget]
      cases s.pushOut txId i out with
      | none => rfl
      | some pushed =>
          simp only [Option.map_some, Option.bind_some, inductionHypothesis, Option.map_map,
            Function.comp_def]

theorem forget_foldl_apply (fs : List (Footprint Hash KeyImage)) (blHeight : Nat) :
    (fs.foldl (fun s f => f.apply blHeight s) s).forget =
      fs.foldl (fun s f => f.setKey (some blHeight) s) s.forget := by
  induction fs generalizing s with
  | nil => rfl
  | cons f fs inductionHypothesis =>
      rw [List.foldl_cons, inductionHypothesis, f.forget_apply, List.foldl_cons]

omit [DecidableEq KeyImage] in
theorem forget_setTransaction_congr (same : s.forget = t.forget) (txId : Hash)
    (entry : Option (TransactionChainEntry Hash KeyImage)) :
    (s.setTransaction txId entry).forget = (t.setTransaction txId entry).forget := by
  ext : 1
  case transactions =>
    funext other
    by_cases sameTx : other = txId
    · subst sameTx
      simp [forget, setTransaction]
    · simpa [forget, setTransaction, Function.update_of_ne sameTx] using
        congrArg (fun u => u.transactions other) same
  case multisigOuts => exact congrArg (·.multisigOuts) same
  case spentKeys => exact congrArg (·.spentKeys) same
  case outputs => exact congrArg (·.outputs) same

theorem addTransactionFromBlock_alike {final : Stores Hash KeyImage} {blHeight : Nat} {txId : Hash}
    {tx : Transaction Hash KeyImage}
    (added : s.addTransactionFromBlock blHeight txId tx = some final) (same : t.forget = s.forget) :
    ∃ alike, t.addTransactionFromBlock blHeight txId tx = some alike ∧
      alike.forget = final.forget := by
  obtain ⟨fs, pushed, indexes, footprints, fresh, isNew, pushedOuts, rfl⟩ :=
    addTransactionFromBlock_eq_some added
  let spent := fs.foldl (fun s f => f.apply blHeight s) t
  have sameShape : s.shape = t.shape := shape_of_forget same.symm
  have sameKeys : t.spentKeys = s.spentKeys := congrArg (·.spentKeys) same
  have addedInputs : addInputs blHeight tx.vin t = some spent := by
    refine addInputs_of_footprints (footprints.congr (footprint_of_shape sameShape)) ⟨fresh.1, ?_⟩
    rw [sameKeys]
    exact fresh.2
  have spentAlike : spent.forget = (fs.foldl (fun s f => f.apply blHeight s) s).forget := by
    rw [forget_foldl_apply, same, forget_foldl_apply]
  have stillNew : spent.transactions txId = none :=
    (transactions_of_shape ((shape_foldl_apply fs blHeight).trans sameShape.symm) txId).mpr isNew
  have pushedAlike :
      (pushOuts txId 0 tx.vout spent).map (fun (final, indexes) => (final.forget, indexes)) =
      some (pushed.forget, indexes) := by
    rw [← pushOuts_forget, spentAlike, pushOuts_forget, pushedOuts, Option.map_some]
  obtain ⟨⟨alike, sameIndexes⟩, isPushed, isAlike⟩ := Option.map_eq_some_iff.mp pushedAlike
  obtain ⟨pushedSame, rfl⟩ := Prod.mk.inj isAlike
  refine ⟨_, ?_, forget_setTransaction_congr pushedSame txId _⟩
  simp only [addTransactionFromBlock, addedInputs, Option.bind_some, stillNew, isPushed,
    Option.map_some]

/-! ## Blocks -/

def addBlock (s : Stores Hash KeyImage) (blHeight : Nat) (b : Block Hash KeyImage) :
    Option (Stores Hash KeyImage) :=
  run (fun s entry => s.addTransactionFromBlock blHeight entry.1 entry.2) s b

/-- `purge_block_data_from_blockchain`: the last transaction first; a failure does
not stop the others. -/
def purgeBlockData : Block Hash KeyImage → Stores Hash KeyImage → Bool × Stores Hash KeyImage
  | [], s => (true, s)
  | entry :: b, s =>
      let (later, next) := purgeBlockData b s
      let (ok, final) := next.purgeTransactionFromBlockchain entry.1
      (ok && later, final)

/-- No transaction of the block marks an output that is marked when it is added. -/
def UnmarkedBlock (s : Stores Hash KeyImage) (blHeight : Nat) (b : Block Hash KeyImage) : Prop :=
  Guarded (fun s entry => s.addTransactionFromBlock blHeight entry.1 entry.2)
    (fun s entry => s.Unmarked entry.2) s b

/-- Purging the block that was added last, in stores that may differ by marks. -/
theorem purge_addBlock {final : Stores Hash KeyImage} {blHeight : Nat} {b : Block Hash KeyImage}
    (added : s.addBlock blHeight b = some final) (same : t.forget = final.forget) :
    (purgeBlockData b t).1 = true ∧ (purgeBlockData b t).2.forget = s.forget := by
  induction b generalizing s with
  | nil =>
      cases added
      exact ⟨rfl, same⟩
  | cons entry b inductionHypothesis =>
      obtain ⟨next, addedFirst, addedRest⟩ := run_cons_eq_some.mp added
      obtain ⟨ok, alike⟩ := inductionHypothesis addedRest
      obtain ⟨fs, tce, footprints, purgeable, -, -⟩ := purgeable_of_add addedFirst
      obtain ⟨gs, -, purged⟩ := purge_add addedFirst
      obtain ⟨sameOk, sameLeft⟩ := purgeable.purge_alike alike
      rw [purged] at sameOk sameLeft
      simp only [purgeBlockData, sameOk, ok, Bool.and_self, true_and]
      rw [sameLeft, Footprint.forget_foldl_unmark]

theorem purge_addBlock_unmarked {final : Stores Hash KeyImage} {blHeight : Nat}
    {b : Block Hash KeyImage} (added : s.addBlock blHeight b = some final)
    (unmarked : s.UnmarkedBlock blHeight b) :
    purgeBlockData b final = (true, s) := by
  induction b generalizing s with
  | nil =>
      cases added
      rfl
  | cons entry b inductionHypothesis =>
      obtain ⟨next, addedFirst, addedRest⟩ := run_cons_eq_some.mp added
      have later := inductionHypothesis addedRest (unmarked.2 next addedFirst)
      obtain ⟨fs, footprints, purged⟩ := purge_add addedFirst
      rw [(foldl_unmark_iff footprints).mpr unmarked.1] at purged
      simp only [purgeBlockData, later, purged, Bool.and_self]

theorem addBlock_alike {final : Stores Hash KeyImage} {blHeight : Nat} {b : Block Hash KeyImage}
    (added : s.addBlock blHeight b = some final) (same : t.forget = s.forget) :
    ∃ alike, t.addBlock blHeight b = some alike ∧ alike.forget = final.forget := by
  induction b generalizing s t with
  | nil =>
      cases added
      exact ⟨t, rfl, same⟩
  | cons entry b inductionHypothesis =>
      obtain ⟨next, addedFirst, addedRest⟩ := run_cons_eq_some.mp added
      obtain ⟨nextAlike, addedAlike, sameNext⟩ := addTransactionFromBlock_alike addedFirst same
      obtain ⟨alike, restAlike, sameFinal⟩ := inductionHypothesis addedRest sameNext
      exact ⟨alike, run_cons_eq_some.mpr ⟨nextAlike, addedAlike, restAlike⟩, sameFinal⟩

/-! ## Global indexes -/

end Stores

/-- The array in which an output is indexed. -/
def TxOutV.indexedAmount {Hash : Type*} : TxOutV Hash → Option UInt64
  | .bareToKey amount => some amount
  | .zarcanum => some 0
  | .bareMultisig _ => none

namespace Stores

variable {Hash KeyImage : Type*} {s t : Stores Hash KeyImage}

/-- Every indexed output is found where the entry of its transaction says. -/
def Indexed (s : Stores Hash KeyImage) : Prop :=
  ∀ txId tce, s.transactions txId = some tce →
    ∀ (i : Nat) (out : TxOutV Hash) amount, tce.tx.vout[i]? = some out →
      out.indexedAmount = some amount →
      ∃ index, tce.globalOutputIndexes[i]? = some index ∧
        (s.outputs amount)[index]? = some ⟨txId, i⟩

theorem indexed_empty : (empty : Stores Hash KeyImage).Indexed := by
  intro txId tce isEntry
  cases isEntry

theorem Indexed.of_shape (indexed : s.Indexed) (same : t.shape = s.shape) : t.Indexed := by
  intro txId tce isEntry i out amount isOut isIndexed
  have entries := congrArg (fun u => u.transactions txId) same
  have outputs : t.outputs = s.outputs := congrArg (·.outputs) same
  simp only [shape, forget, isEntry, Option.map_some] at entries
  obtain ⟨other, isOther, sameEntry⟩ := Option.map_eq_some_iff.mp entries.symm
  have sameTx : other.tx = tce.tx := congrArg (·.tx) sameEntry
  have sameIndexes : other.globalOutputIndexes = tce.globalOutputIndexes :=
    congrArg (·.globalOutputIndexes) sameEntry
  rw [← sameIndexes, outputs]
  exact indexed txId other isOther i out amount (sameTx ▸ isOut) isIndexed

theorem getElem?_of_isPrefix {α : Type*} {l m : List α} (extends_ : l <+: m) {i : Nat} {a : α}
    (found : l[i]? = some a) : m[i]? = some a := by
  obtain ⟨rest, rfl⟩ := extends_
  rw [List.getElem?_append_left (List.getElem?_eq_some_iff.mp found).1, found]

variable [DecidableEq Hash]

theorem pushOut_indexed {next : Stores Hash KeyImage} {txId : Hash} {i index : Nat}
    {out : TxOutV Hash} {amount : UInt64} (pushed : s.pushOut txId i out = some (next, index))
    (isIndexed : out.indexedAmount = some amount) :
    (next.outputs amount)[index]? = some ⟨txId, i⟩ := by
  have output : ((s.pushOutput txId amount i).1.outputs amount)[(s.pushOutput txId amount i).2]? =
      some ⟨txId, i⟩ := by
    simp [pushOutput]
  cases out with
  | bareToKey own =>
      cases isIndexed
      cases pushed
      exact output
  | zarcanum =>
      cases isIndexed
      cases pushed
      exact output
  | bareMultisig id => cases isIndexed

theorem pushOuts_indexed {final : Stores Hash KeyImage} {txId : Hash} {first : Nat}
    {vout : List (TxOutV Hash)} {indexes : List Nat}
    (pushed : pushOuts txId first vout s = some (final, indexes)) {i : Nat} {out : TxOutV Hash}
    {amount : UInt64} (isOut : vout[i]? = some out) (isIndexed : out.indexedAmount = some amount) :
    ∃ index, indexes[i]? = some index ∧
      (final.outputs amount)[index]? = some ⟨txId, first + i⟩ := by
  induction vout generalizing s first indexes i with
  | nil => simp at isOut
  | cons head vout inductionHypothesis =>
      obtain ⟨⟨next, index⟩, pushedFirst, pushedRest⟩ := Option.bind_eq_some_iff.mp pushed
      obtain ⟨⟨last, rest⟩, pushedLater, same⟩ := Option.map_eq_some_iff.mp pushedRest
      cases same
      cases i with
      | zero =>
          cases isOut
          exact ⟨index, rfl, getElem?_of_isPrefix ((pushOuts_grows pushedLater).1.outputs amount)
            (pushOut_indexed pushedFirst isIndexed)⟩
      | succ i =>
          obtain ⟨later, isLater, atLater⟩ := inductionHypothesis pushedLater isOut
          rw [Nat.add_right_comm, Nat.add_assoc] at atLater
          exact ⟨later, isLater, atLater⟩

variable [DecidableEq KeyImage]

theorem Indexed.addTransactionFromBlock {final : Stores Hash KeyImage} {blHeight : Nat}
    {txId : Hash} {tx : Transaction Hash KeyImage} (indexed : s.Indexed)
    (added : s.addTransactionFromBlock blHeight txId tx = some final) : final.Indexed := by
  obtain ⟨fs, pushed, indexes, -, -, -, pushedOuts, rfl⟩ := addTransactionFromBlock_eq_some added
  have indexedSpent : (fs.foldl (fun s f => f.apply blHeight s) s).Indexed :=
    indexed.of_shape (shape_foldl_apply fs blHeight)
  obtain ⟨grows, -, transactions⟩ := pushOuts_grows pushedOuts
  intro other tce isEntry i out amount isOut isIndexed
  by_cases same : other = txId
  · subst same
    simp only [setTransaction, Function.update_self, Option.some.injEq] at isEntry
    subst isEntry
    obtain ⟨index, isIndex, atIndex⟩ := pushOuts_indexed pushedOuts isOut isIndexed
    rw [Nat.zero_add] at atIndex
    exact ⟨index, isIndex, atIndex⟩
  · simp only [setTransaction, Function.update_of_ne same, transactions] at isEntry
    obtain ⟨index, isIndex, atIndex⟩ := indexedSpent other tce isEntry i out amount isOut isIndexed
    exact ⟨index, isIndex, getElem?_of_isPrefix (grows.outputs amount) atIndex⟩

theorem Indexed.addBlock {final : Stores Hash KeyImage} {blHeight : Nat} {b : Block Hash KeyImage}
    (indexed : s.Indexed) (added : s.addBlock blHeight b = some final) : final.Indexed := by
  induction b generalizing s with
  | nil =>
      cases added
      exact indexed
  | cons entry b inductionHypothesis =>
      obtain ⟨next, addedFirst, addedRest⟩ := run_cons_eq_some.mp added
      exact inductionHypothesis (indexed.addTransactionFromBlock addedFirst) addedRest

end Stores

/-! ## The chain storage -/

structure ChainStorage (Hash KeyImage : Type*) where
  stores : Stores Hash KeyImage
  blocks : List (Block Hash KeyImage)

inductive Request (Hash KeyImage : Type*) where
  | push (b : Block Hash KeyImage)
  | pop

namespace ChainStorage

variable {Hash KeyImage : Type*}

def genesis : ChainStorage Hash KeyImage := ⟨Stores.empty, []⟩

variable [DecidableEq Hash] [DecidableEq KeyImage]

/-- A block whose transactions are not all accepted is not pushed. The first
block is never popped. -/
def step (c : ChainStorage Hash KeyImage) :
    Request Hash KeyImage → Option (ChainStorage Hash KeyImage)
  | .push b => (c.stores.addBlock c.blocks.length b).map fun stores => ⟨stores, c.blocks ++ [b]⟩
  | .pop =>
      if 1 < c.blocks.length then
        match Stores.purgeBlockData (c.blocks.getLastD []) c.stores with
        | (true, stores) => some ⟨stores, c.blocks.dropLast⟩
        | (false, _) => none
      else none

/-- The chain pushed once. -/
def replay (blocks : List (Block Hash KeyImage)) : Option (ChainStorage Hash KeyImage) :=
  run step genesis (blocks.map .push)

/-- Pushes of blocks that mark unmarked outputs only. -/
def Unmarked (c : ChainStorage Hash KeyImage) : Request Hash KeyImage → Prop
  | .push b => c.stores.UnmarkedBlock c.blocks.length b
  | .pop => True

variable {c : ChainStorage Hash KeyImage}

theorem step_push_eq_some {next : ChainStorage Hash KeyImage} {b : Block Hash KeyImage} :
    c.step (.push b) = some next ↔ c.stores.addBlock c.blocks.length b = some next.stores ∧
      next.blocks = c.blocks ++ [b] := by
  constructor
  · intro stepped
    obtain ⟨stores, added, rfl⟩ := Option.map_eq_some_iff.mp stepped
    exact ⟨added, rfl⟩
  · intro ⟨added, extended⟩
    obtain ⟨stores, blocks⟩ := next
    cases extended
    exact Option.map_eq_some_iff.mpr ⟨stores, added, rfl⟩

theorem step_pop_append {b : Block Hash KeyImage} {blocks : List (Block Hash KeyImage)}
    (isChain : c.blocks = blocks ++ [b]) (notFirst : blocks ≠ [])
    (purged : (Stores.purgeBlockData b c.stores).1 = true) :
    c.step .pop = some ⟨(Stores.purgeBlockData b c.stores).2, blocks⟩ := by
  have long : 1 < c.blocks.length := by
    have := List.length_pos_iff.mpr notFirst
    simp [isChain]
    omega
  have last : c.blocks.getLastD [] = b := by simp [isChain]
  have purge : Stores.purgeBlockData b c.stores = (true, (Stores.purgeBlockData b c.stores).2) :=
    Prod.ext purged rfl
  simp only [step, if_pos long, last]
  rw [purge, isChain, List.dropLast_concat]

theorem step_pop_eq_some {next : ChainStorage Hash KeyImage} (stepped : c.step .pop = some next) :
    ∃ blocks b, c.blocks = blocks ++ [b] ∧ blocks ≠ [] := by
  simp only [step] at stepped
  split at stepped
  · rename_i long
    have notEmpty : c.blocks ≠ [] := by
      intro isEmpty
      simp [isEmpty] at long
    refine ⟨_, _, (List.dropLast_append_getLast notEmpty).symm, ?_⟩
    intro isEmpty
    have short := congrArg List.length isEmpty
    simp only [List.length_dropLast, List.length_nil] at short
    omega
  · cases stepped

theorem replay_append_eq_some {final : ChainStorage Hash KeyImage} {b : Block Hash KeyImage}
    {blocks : List (Block Hash KeyImage)} :
    replay (blocks ++ [b]) = some final ↔
      ∃ once, replay blocks = some once ∧ once.step (.push b) = some final := by
  rw [replay, List.map_append, run_append_eq_some]
  simp only [List.map_cons, List.map_nil, run_singleton]
  rfl

theorem blocks_of_replay {blocks : List (Block Hash KeyImage)} {once : ChainStorage Hash KeyImage}
    (replayed : replay blocks = some once) : once.blocks = blocks := by
  induction blocks using List.reverseRecOn generalizing once with
  | nil =>
      cases replayed
      rfl
  | append_singleton blocks b inductionHypothesis =>
      obtain ⟨before, replayedBefore, pushed⟩ := replay_append_eq_some.mp replayed
      rw [(step_push_eq_some.mp pushed).2, inductionHypothesis replayedBefore]

theorem indexed_of_replay {blocks : List (Block Hash KeyImage)} {once : ChainStorage Hash KeyImage}
    (replayed : replay blocks = some once) : once.stores.Indexed := by
  induction blocks using List.reverseRecOn generalizing once with
  | nil =>
      cases replayed
      exact Stores.indexed_empty
  | append_singleton blocks b inductionHypothesis =>
      obtain ⟨before, replayedBefore, pushed⟩ := replay_append_eq_some.mp replayed
      exact (inductionHypothesis replayedBefore).addBlock (step_push_eq_some.mp pushed).1

/-! ### Up to the marks -/

/-- The chain can be pushed at once, and then the stores differ by marks at most. -/
def Replayed (c : ChainStorage Hash KeyImage) : Prop :=
  ∃ once, replay c.blocks = some once ∧ c.stores.forget = once.stores.forget

theorem Replayed.push {next : ChainStorage Hash KeyImage} {b : Block Hash KeyImage}
    (replayed : c.Replayed) (stepped : c.step (.push b) = some next) : next.Replayed := by
  obtain ⟨once, isOnce, alike⟩ := replayed
  obtain ⟨added, extended⟩ := step_push_eq_some.mp stepped
  obtain ⟨stores, addedOnce, same⟩ := Stores.addBlock_alike added alike.symm
  refine ⟨⟨stores, next.blocks⟩, ?_, same.symm⟩
  rw [extended]
  refine replay_append_eq_some.mpr ⟨once, isOnce, step_push_eq_some.mpr ?_⟩
  rw [blocks_of_replay isOnce]
  exact ⟨addedOnce, rfl⟩

/-- The last block can be purged, and what is left is the replay of the blocks before. -/
theorem Replayed.pop {b : Block Hash KeyImage} {blocks : List (Block Hash KeyImage)}
    (replayed : c.Replayed) (isChain : c.blocks = blocks ++ [b]) :
    ∃ once, replay blocks = some once ∧ (Stores.purgeBlockData b c.stores).1 = true ∧
      (Stores.purgeBlockData b c.stores).2.forget = once.stores.forget := by
  obtain ⟨once, isOnce, alike⟩ := replayed
  rw [isChain] at isOnce
  obtain ⟨before, isBefore, pushed⟩ := replay_append_eq_some.mp isOnce
  obtain ⟨purged, left⟩ := Stores.purge_addBlock (step_push_eq_some.mp pushed).1 alike
  exact ⟨before, isBefore, purged, left⟩

theorem Replayed.step {next : ChainStorage Hash KeyImage} {request : Request Hash KeyImage}
    (replayed : c.Replayed) (stepped : c.step request = some next) : next.Replayed := by
  cases request with
  | push b => exact replayed.push stepped
  | pop =>
      obtain ⟨blocks, b, isChain, notFirst⟩ := step_pop_eq_some stepped
      obtain ⟨once, isOnce, purged, left⟩ := replayed.pop isChain
      rw [step_pop_append isChain notFirst purged] at stepped
      cases stepped
      exact ⟨once, isOnce, left⟩

theorem replayed_of_run {requests : List (Request Hash KeyImage)}
    (ran : run ChainStorage.step genesis requests = some c) : c.Replayed :=
  invariant_of_run (fun _ _ _ replayed _ stepped => Replayed.step replayed stepped)
    ⟨genesis, rfl, rfl⟩ (guarded_of_forall_mem fun _ _ _ => trivial) ran

/-! ### Exactly -/

/-- The chain pushed at once gives these very stores, and all its pushes mark unmarked outputs. -/
def ReplayedUnmarked (c : ChainStorage Hash KeyImage) : Prop :=
  replay c.blocks = some c ∧ Guarded ChainStorage.step Unmarked genesis (c.blocks.map .push)

theorem ReplayedUnmarked.push {next : ChainStorage Hash KeyImage} {b : Block Hash KeyImage}
    (replayed : c.ReplayedUnmarked) (unmarked : c.Unmarked (.push b))
    (stepped : c.step (.push b) = some next) : next.ReplayedUnmarked := by
  obtain ⟨isOnce, guarded⟩ := replayed
  obtain ⟨added, extended⟩ := step_push_eq_some.mp stepped
  rw [ReplayedUnmarked, extended]
  refine ⟨replay_append_eq_some.mpr ⟨c, isOnce, stepped⟩, ?_⟩
  rw [List.map_append, guarded_append]
  refine ⟨guarded, fun once ran => guarded_singleton.mpr ?_⟩
  cases isOnce.symm.trans ran
  exact unmarked

theorem ReplayedUnmarked.pop {next : ChainStorage Hash KeyImage}
    (replayed : c.ReplayedUnmarked) (stepped : c.step .pop = some next) :
    next.ReplayedUnmarked := by
  obtain ⟨isOnce, guarded⟩ := replayed
  obtain ⟨blocks, b, isChain, notFirst⟩ := step_pop_eq_some stepped
  rw [isChain] at isOnce
  rw [isChain, List.map_append, guarded_append] at guarded
  obtain ⟨before, isBefore, pushed⟩ := replay_append_eq_some.mp isOnce
  have unmarked : before.Unmarked (.push b) := guarded_singleton.mp (guarded.2 before isBefore)
  have purge := Stores.purge_addBlock_unmarked (step_push_eq_some.mp pushed).1 unmarked
  rw [step_pop_append isChain notFirst (congrArg Prod.fst purge), purge] at stepped
  cases stepped
  obtain ⟨stores, chain⟩ := before
  obtain rfl : chain = blocks := blocks_of_replay isBefore
  exact ⟨isBefore, guarded.1⟩

theorem replayedUnmarked_of_run {requests : List (Request Hash KeyImage)}
    (unmarked : Guarded ChainStorage.step Unmarked genesis requests)
    (ran : run ChainStorage.step genesis requests = some c) : c.ReplayedUnmarked := by
  have initial : (genesis : ChainStorage Hash KeyImage).ReplayedUnmarked := ⟨rfl, trivial⟩
  refine invariant_of_run (fun before request next replayed isUnmarked stepped => ?_) initial
    unmarked ran
  cases request with
  | push b => exact ReplayedUnmarked.push replayed isUnmarked stepped
  | pop => exact ReplayedUnmarked.pop replayed stepped

/-! ### Rollback -/

/-- In every state that pushes and pops lead to, purging takes back what adding did, up to the
marks that the transaction set and exactly when it set only marks that were not set; the last of
several blocks can be popped, the stores are those of the chain pushed once, and the global
indexes are right. -/
theorem rollback (requests : List (Request Hash KeyImage))
    (ran : run ChainStorage.step genesis requests = some c) :
    (∀ blHeight txId tx final, c.stores.addTransactionFromBlock blHeight txId tx = some final →
      (final.purgeTransactionFromBlockchain txId).1 = true ∧
      (final.purgeTransactionFromBlockchain txId).2.forget = c.stores.forget ∧
      ((final.purgeTransactionFromBlockchain txId).2 = c.stores ↔ c.stores.Unmarked tx)) ∧
    (1 < c.blocks.length → c.step .pop ≠ none) ∧
    (∃ once, replay c.blocks = some once ∧ c.stores.forget = once.stores.forget ∧
      (Guarded ChainStorage.step Unmarked genesis requests → c.stores = once.stores)) ∧
    c.stores.Indexed := by
  have replayed : c.Replayed := replayed_of_run ran
  obtain ⟨once, isOnce, alike⟩ := replayed_of_run ran
  refine ⟨?_, ?_, ⟨once, isOnce, alike, ?_⟩, ?_⟩
  · intro blHeight txId tx final added
    obtain ⟨fs, footprints, purged⟩ := Stores.purge_add added
    rw [purged]
    exact ⟨rfl, Footprint.forget_foldl_unmark fs, Stores.foldl_unmark_iff footprints⟩
  · intro long
    have notEmpty : c.blocks ≠ [] := by
      intro isEmpty
      simp [isEmpty] at long
    have isChain := (List.dropLast_append_getLast notEmpty).symm
    have notFirst : c.blocks.dropLast ≠ [] := by
      intro isEmpty
      have short := congrArg List.length isEmpty
      simp only [List.length_dropLast, List.length_nil] at short
      omega
    obtain ⟨before, -, purged, -⟩ := replayed.pop isChain
    rw [step_pop_append isChain notFirst purged]
    exact Option.some_ne_none _
  · intro unmarked
    obtain ⟨same, -⟩ := replayedUnmarked_of_run unmarked ran
    cases isOnce.symm.trans same
    rfl
  · exact (indexed_of_replay isOnce).of_shape (Stores.shape_of_forget alike)

/-- A multisig output that is created, spent and spent once more. -/
def respentMultisig : List (Block Nat Nat) :=
  [[(1, ⟨[.gen], [.bareMultisig (some 7), .bareToKey 5]⟩)], [(2, ⟨[.multisig 7], [.bareToKey 5]⟩)]]

theorem rollback_respent :
    ∃ c : ChainStorage Nat Nat, run ChainStorage.step genesis (respentMultisig.map .push) = some c ∧
      (1 < c.blocks.length → c.step .pop ≠ none) :=
  ⟨_, rfl, (rollback (respentMultisig.map .push) rfl).2.1⟩

theorem respent_not_restored :
    ¬ ∀ (requests : List (Request Nat Nat)) (c : ChainStorage Nat Nat),
      run ChainStorage.step genesis requests = some c →
        ∀ blHeight txId tx final, c.stores.addTransactionFromBlock blHeight txId tx = some final →
          (final.purgeTransactionFromBlockchain txId).2 = c.stores := by
  intro restored
  have same := restored (respentMultisig.map .push) _ rfl 2 3 ⟨[.multisig 7], []⟩ _ rfl
  have heights := congrArg (fun s => (s.multisigOuts 7).map (·.spentHeight)) same
  revert heights
  decide

end ChainStorage

end Zano.Blockchain
