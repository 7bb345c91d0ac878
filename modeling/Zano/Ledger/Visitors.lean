import Mathlib
import Zano.Blockchain.Rollback
import Zano.Ledger.Transactions

/-! # The plain part of a transaction

Without the inputs and outputs of gateways a transaction is added and purged as in the stores alone,
so the footprints of its inputs tell what the visitors do. A purge that stops on the way has taken
back the first inputs; the outputs can be popped after that all the same.
-/

namespace Zano.Ledger

open Blockchain Attempts

variable {Hash KeyImage : Type*} [DecidableEq Hash] [DecidableEq KeyImage]

/-! ## Visitors -/

section Visitors

variable {s next final : Stores Hash KeyImage} {blHeight : Nat} {amount : UInt64}
  {keyOffsets : List (TxoutRefV Hash)} {kImage : KeyImage} {input : Blockchain.TxinV Hash KeyImage}
  {vin : List (Blockchain.TxinV Hash KeyImage)}

theorem addKeyInput_of_visit
    (visited : visitKeyInput blHeight s amount keyOffsets kImage = (true, next)) :
    s.addKeyInput blHeight amount keyOffsets kImage = some next := by
  rw [visitKeyInput] at visited
  rw [Stores.addKeyInput]
  cases isSpent : s.spentKeys kImage with
  | some height => simp [isSpent] at visited
  | none =>
      simp only [isSpent, Option.isSome_none, Bool.false_eq_true, if_false] at visited
      simp only [visited]

theorem addInput_of_visit (visited : visitInput blHeight s input = (true, next)) :
    s.addInput blHeight input = some next := by
  cases input with
  | gen =>
      cases visited
      rfl
  | toKey amount keyOffsets kImage => exact addKeyInput_of_visit visited
  | zcInput keyOffsets kImage => exact addKeyInput_of_visit visited
  | multisig multisigOutId =>
      rw [visitInput] at visited
      simp only [Stores.addInput, visited]

theorem addInputs_of_visit (visited : untilFailure (visitInput blHeight) vin s = (true, final)) :
    Stores.addInputs blHeight vin s = some final := by
  induction vin generalizing s with
  | nil =>
      cases visited
      rfl
  | cons input vin inductionHypothesis =>
      obtain ⟨next, first, rest⟩ := untilFailure_cons_eq_true.mp visited
      rw [Stores.addInputs, addInput_of_visit first, Option.bind_some, inductionHypothesis rest]

theorem visitPurgedKey_strict :
    visitPurgedKey true s amount keyOffsets kImage = s.purgeKeyInput amount keyOffsets kImage := by
  rw [visitPurgedKey, Stores.purgeKeyInput]
  cases s.spentKeys kImage with
  | none => simp
  | some height => simp

theorem visitPurge_strict : visitPurge true s input = s.purgeInput input := by
  cases input with
  | gen => rfl
  | toKey amount keyOffsets kImage => exact visitPurgedKey_strict
  | zcInput keyOffsets kImage => exact visitPurgedKey_strict
  | multisig multisigOutId => rfl

theorem visitPurges_strict :
    untilFailure (visitPurge true) vin s = Stores.purgeTransactionKeyimages vin s := by
  induction vin generalizing s with
  | nil => rfl
  | cons input vin inductionHypothesis =>
      rw [untilFailure, Stores.purgeTransactionKeyimages, visitPurge_strict]
      cases s.purgeInput input with
      | mk ok next =>
          cases ok with
          | true => exact inductionHypothesis
          | false => rfl

end Visitors

/-! ## Outputs with their numbers -/

section Outputs

variable {s t final : Stores Hash KeyImage} {txId : Hash}
  {outs : List (Blockchain.TxOutV Hash × Nat)} {f : Footprint Hash KeyImage}

def pushPlain (txId : Hash) (s : Stores Hash KeyImage) (out : Blockchain.TxOutV Hash × Nat) :
    Option (Stores Hash KeyImage) :=
  (s.pushOut txId out.2 out.1).map (·.1)

def popPlain (txId : Hash) (s : Stores Hash KeyImage) (out : Blockchain.TxOutV Hash × Nat) :
    Bool × Stores Hash KeyImage :=
  s.popOut txId out.2 out.1

omit [DecidableEq KeyImage] in
theorem pushOut_of_plain {out : Blockchain.TxOutV Hash × Nat}
    (pushed : orStay (pushPlain txId) s out = (true, t)) :
    ∃ index, s.pushOut txId out.2 out.1 = some (t, index) := by
  rw [orStay_eq_true, pushPlain, Option.map_eq_some_iff] at pushed
  obtain ⟨⟨next, index⟩, isPushed, rfl⟩ := pushed
  exact ⟨index, isPushed⟩

omit [DecidableEq KeyImage] in
theorem popPlains_push (pushed : untilFailure (orStay (pushPlain txId)) outs s = (true, final)) :
    untilFailure (popPlain txId) outs.reverse final = (true, s) := by
  refine untilFailure_reverse (fun s out next isPushed => ?_) pushed
  obtain ⟨index, isPushed⟩ := pushOut_of_plain isPushed
  exact Stores.popOut_pushOut isPushed

omit [DecidableEq KeyImage] in
theorem pushPlains_grows (pushed : untilFailure (orStay (pushPlain txId)) outs s = (true, final)) :
    Stores.Grows s final ∧ final.spentKeys = s.spentKeys ∧ final.transactions = s.transactions := by
  induction outs generalizing s with
  | nil =>
      cases pushed
      exact ⟨⟨fun _ => List.prefix_rfl, fun _ _ found => found, fun _ _ found => found⟩, rfl, rfl⟩
  | cons out outs inductionHypothesis =>
      obtain ⟨next, first, rest⟩ := untilFailure_cons_eq_true.mp pushed
      obtain ⟨index, isPushed⟩ := pushOut_of_plain first
      obtain ⟨grows, keys, transactions⟩ := Stores.pushOut_grows isPushed
      obtain ⟨laterGrows, laterKeys, laterTransactions⟩ := inductionHypothesis rest
      exact ⟨grows.trans laterGrows, laterKeys.trans keys, laterTransactions.trans transactions⟩

theorem pushPlains_revert (knows : s.Knows f)
    (pushed : untilFailure (orStay (pushPlain txId)) outs s = (true, final)) :
    untilFailure (orStay (pushPlain txId)) outs (f.revert s) = (true, f.revert final) := by
  induction outs generalizing s with
  | nil =>
      cases pushed
      rfl
  | cons out outs inductionHypothesis =>
      obtain ⟨next, first, rest⟩ := untilFailure_cons_eq_true.mp pushed
      obtain ⟨index, isPushed⟩ := pushOut_of_plain first
      have reverted : pushPlain txId (f.revert s) out = some (f.revert next) := by
        rw [pushPlain, Stores.pushOut_revert knows isPushed]
        rfl
      rw [untilFailure_cons_of_ok (orStay_eq_true.mpr reverted)]
      exact inductionHypothesis (Stores.pushOut_knows knows isPushed) rest

theorem pushPlains_foldl_revert {fs : List (Footprint Hash KeyImage)} (knows : ∀ f ∈ fs, s.Knows f)
    (pushed : untilFailure (orStay (pushPlain txId)) outs s = (true, final)) :
    untilFailure (orStay (pushPlain txId)) outs (fs.foldl (fun s f => f.revert s) s) =
      (true, fs.foldl (fun s f => f.revert s) final) := by
  induction fs generalizing s final with
  | nil => exact pushed
  | cons f fs inductionHypothesis =>
      refine inductionHypothesis (fun g inside id isMultisig => ?_)
        (pushPlains_revert (knows f List.mem_cons_self) pushed)
      rw [Stores.multisigOuts_revert_isSome]
      exact knows g (List.mem_cons_of_mem f inside) id isMultisig

omit [DecidableEq KeyImage] in
/-- A pop does not look at the transactions. -/
theorem popPlains_setTransaction (other : Hash)
    (entry : Option (TransactionChainEntry Hash KeyImage)) :
    untilFailure (popPlain txId) outs (s.setTransaction other entry) =
      ((untilFailure (popPlain txId) outs s).1,
        (untilFailure (popPlain txId) outs s).2.setTransaction other entry) :=
  @untilFailure_map _ _ _ (popPlain txId) (fun t => t.setTransaction other entry) (popPlain txId)
    (fun _ out => Stores.popOut_setTransaction txId other entry out.2 out.1) outs s

end Outputs

/-! ## Purging what was added -/

section Purge

variable {s spent final : Stores Hash KeyImage} {blHeight : Nat} {txId : Hash}
  {vin firsts : List (Blockchain.TxinV Hash KeyImage)} {outs : List (Blockchain.TxOutV Hash × Nat)}

/-- The first inputs of the transaction are taken back, and then all of its outputs. -/
theorem popped_of_purged (visited : untilFailure (visitInput blHeight) vin s = (true, spent))
    (isNew : spent.transactions txId = none)
    (pushed : untilFailure (orStay (pushPlain txId)) outs spent = (true, final))
    (entry : TransactionChainEntry Hash KeyImage) (isPrefix : firsts <+: vin) :
    ∃ purged popped : Stores Hash KeyImage,
      untilFailure (visitPurge true) firsts (final.setTransaction txId (some entry)) =
        (true, purged) ∧
      untilFailure (popPlain txId) outs.reverse purged = (true, popped) ∧
        popped.transactions txId = some entry := by
  obtain ⟨fs, footprints, fresh, rfl⟩ := Stores.addInputs_eq_some (addInputs_of_visit visited)
  obtain ⟨grows, keys, transactions⟩ := pushPlains_grows pushed
  have sameShape := Stores.shape_foldl_apply (s := s) fs blHeight
  have isNew' : s.transactions txId = none := (Stores.transactions_of_shape sameShape txId).mp isNew
  let gs := fs.take firsts.length
  have inside : gs ⊆ fs := List.take_subset _ _
  have part : Stores.Footprints s firsts gs := by
    rw [List.prefix_iff_eq_take.mp isPrefix]
    exact List.forall₂_take _ footprints
  have knows : ∀ f ∈ gs, (fs.foldl (fun s f => f.apply blHeight s) s).Knows f := by
    intro f among
    obtain ⟨input, -, found⟩ := footprints.mem (inside among)
    exact (Stores.transactions_of_footprint
      ((Stores.footprint_of_shape sameShape input).trans found)).2
  have apart : ∀ f ∈ gs, ∀ flag, f.flag = some flag → flag.1 ≠ txId := by
    intro f among flag isFlag same
    obtain ⟨input, -, found⟩ := footprints.mem (inside among)
    exact (Stores.transactions_of_footprint found).1 flag isFlag (same ▸ isNew')
  have growsEntry : Stores.Grows final (final.setTransaction txId (some entry)) := by
    refine ⟨fun _ => List.prefix_rfl, fun _ _ found => found, fun other tce found => ?_⟩
    have different : other ≠ txId := by
      rintro rfl
      rw [transactions, isNew] at found
      cases found
    simpa [Stores.setTransaction, Function.update_of_ne different] using found
  have stillFound : Stores.Footprints (final.setTransaction txId (some entry)) firsts gs :=
    part.imp fun input f found => Stores.footprint_of_grows (grows.trans growsEntry)
      ((Stores.footprint_of_shape sameShape input).trans found)
  have sublist : (gs.filterMap (·.key)).Sublist (fs.filterMap (·.key)) :=
    (List.take_sublist _ _).filterMap _
  have spentKeys : ∀ kImage ∈ gs.filterMap (·.key),
      (final.setTransaction txId (some entry)).spentKeys kImage ≠ none := by
    intro kImage among
    change final.spentKeys kImage ≠ none
    rw [keys]
    exact Stores.spentKeys_foldl_apply (sublist.subset among)
  have purged := Stores.purgeTransactionKeyimages_eq stillFound (fresh.1.sublist sublist) spentKeys
  have unpushed := popPlains_push (pushPlains_foldl_revert knows pushed)
  rw [Stores.foldl_revert_setTransaction apart] at purged
  refine ⟨_,
    (gs.foldl (fun s f => f.revert s) (fs.foldl (fun s f => f.apply blHeight s) s)).setTransaction
      txId
    (some entry), visitPurges_strict.trans purged, ?_, Function.update_self ..⟩
  rw [popPlains_setTransaction, unpushed]

end Purge

end Zano.Ledger
