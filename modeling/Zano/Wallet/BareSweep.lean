import Zano.Lib.Packing
import Zano.Wallet.TransferTable

/-! # Groups of bare outputs to sweep

Outputs without hidden amounts are swept in groups of at most twenty, so that each group fits into
one transaction. The outputs of one transaction are put together where they fit. A group whose
amounts do not cover the fee is given one output with a hidden amount that does; where there is none
left the group is given up.

The lists of indexes that are collected first are lists of rows here, since the table does not
change meanwhile. The order in which an `std::unordered_map` is walked is any order.
-/

namespace Zano.Wallet

open Packing

variable {Hash Key Asset : Type*}

def txMinimumFee : UInt64 := 10000000000
def txDefaultFee : UInt64 := 10000000000
def maxInputsForSimpleTxEuristic : ℕ := 20

theorem txMinimumFee_pos : (0 : UInt64) < txMinimumFee := by decide

abbrev TransferRow (Hash Key Asset : Type*) := ℕ × TransferDetails Hash Key Asset

/-- `batch_of_bare_unspent_outs`. -/
structure BatchOfBareUnspentOuts where
  tids : List ℕ
  totalAmount : UInt64
  additionalTid : Bool
  additionalTidAmount : UInt64
  deriving DecidableEq, Repr

namespace BatchOfBareUnspentOuts

def new : BatchOfBareUnspentOuts := ⟨[], 0, false, 0⟩

def push (group : BatchOfBareUnspentOuts) (row : TransferRow Hash Key Asset) :
    BatchOfBareUnspentOuts :=
  { group with tids := group.tids ++ [row.1], totalAmount := group.totalAmount + row.2.amount }

def pushAdditional (group : BatchOfBareUnspentOuts) (extra : FreeAmount) :
    BatchOfBareUnspentOuts where
  tids := group.tids ++ [extra.2]
  totalAmount := group.totalAmount
  additionalTid := true
  additionalTidAmount := extra.1

/-- The bare outputs of the group: an additional output is the last. -/
def bareTids (group : BatchOfBareUnspentOuts) : List ℕ :=
  if group.additionalTid then group.tids.dropLast else group.tids

def additionalTids (group : BatchOfBareUnspentOuts) : List ℕ :=
  if group.additionalTid then group.tids.getLast?.toList else []

/-- What the sweep of the group pays to the target address. -/
def destinationAmount (group : BatchOfBareUnspentOuts) : UInt64 :=
  group.totalAmount + group.additionalTidAmount - txDefaultFee

end BatchOfBareUnspentOuts

open BatchOfBareUnspentOuts

/-! ## The bare outputs, by transaction -/

section Collect

variable [DecidableEq Hash]

def addBuo (row : TransferRow Hash Key Asset) :
    List (Hash × List (TransferRow Hash Key Asset)) →
      List (Hash × List (TransferRow Hash Key Asset))
  | [] => [(row.2.txHash, [row])]
  | entry :: entries =>
      if entry.1 = row.2.txHash then (entry.1, entry.2 ++ [row]) :: entries
      else entry :: addBuo row entries

def isBareUnspent (row : TransferRow Hash Key Asset) : Bool := !row.2.isZc && row.2.isSpendable

def buoIds (rows : List (TransferRow Hash Key Asset)) :
    List (Hash × List (TransferRow Hash Key Asset)) :=
  rows.foldl (fun entries row => if isBareUnspent row then addBuo row entries else entries) []

end Collect

/-- An order in which the entries of an `std::unordered_map` are walked. -/
structure IterationOrder (T : Type*) where
  visit : List T → List T
  perm : ∀ entries, (visit entries).Perm entries

/-! ## Groups -/

structure GroupedTids where
  closed : List BatchOfBareUnspentOuts
  back : BatchOfBareUnspentOuts

namespace GroupedTids

def start : GroupedTids := ⟨[], .new⟩

def all (g : GroupedTids) : List BatchOfBareUnspentOuts := g.closed ++ [g.back]

def emplaceBack (g : GroupedTids) : GroupedTids := ⟨g.closed ++ [g.back], .new⟩

def addTid (g : GroupedTids) (row : TransferRow Hash Key Asset) : GroupedTids :=
  let g := if maxInputsForSimpleTxEuristic ≤ g.back.tids.length then g.emplaceBack else g
  { g with back := g.back.push row }

def addTx (g : GroupedTids) (rows : List (TransferRow Hash Key Asset)) : GroupedTids :=
  rows.foldl addTid (if maxInputsForSimpleTxEuristic < g.back.tids.length + rows.length then
    g.emplaceBack else g)

end GroupedTids

/-! ## Outputs that make up for the fee -/

/-- `insert` of a `std::multimap`: behind the entries with the same amount. -/
def insertUsable (entry : FreeAmount) : List FreeAmount → List FreeAmount
  | [] => [entry]
  | first :: rest =>
      if entry.1 < first.1 then entry :: first :: rest else first :: insertUsable entry rest

section Usable

variable [DecidableEq Asset] (settings : Settings Asset) (s : WalletState Hash Key Asset)

def isUsableZc (row : TransferRow Hash Key Asset) : Bool :=
  row.2.isZc && row.2.getAssetId settings.native = settings.native &&
    isTransferReadyToGo settings s row.2 (if settings.isAuditable then 0
      else settings.hf4MinimumMixins)

def usableZcOutsTids : List FreeAmount :=
  s.transfers.rows.foldl
    (fun entries row => if isUsableZc settings s row then insertUsable (row.2.amount, row.1) entries
      else entries) []

end Usable

/-- The walk from `lower_bound` on, with its check. -/
def findUsable (minRequiredAmount : UInt64) (usedZcOuts : List ℕ) :
    List FreeAmount → Except Failure (Option FreeAmount)
  | [] => .ok none
  | entry :: rest =>
      if entry.1 < minRequiredAmount then .error .other
      else if entry.2 ∈ usedZcOuts then findUsable minRequiredAmount usedZcOuts rest
      else .ok (some entry)

def topUp (usable : List FreeAmount) : List ℕ → List BatchOfBareUnspentOuts →
    Except Failure (List BatchOfBareUnspentOuts)
  | _, [] => .ok []
  | usedZcOuts, group :: groups =>
      if group.totalAmount < txMinimumFee then
        let minRequiredAmount := txMinimumFee - group.totalAmount
        match findUsable minRequiredAmount usedZcOuts (usable.dropWhile fun entry =>
          entry.1 < minRequiredAmount) with
        | .error failure => .error failure
        | .ok none => topUp usable usedZcOuts groups
        | .ok (some entry) =>
            (topUp usable (entry.2 :: usedZcOuts) groups).map (group.pushAdditional entry :: ·)
      else (topUp usable usedZcOuts groups).map (group :: ·)

def getBareUnspentOutputsStats [DecidableEq Hash] [DecidableEq Asset]
    (order : IterationOrder (Hash × List (TransferRow Hash Key Asset))) (settings : Settings Asset)
    (s : WalletState Hash Key Asset) : Except Failure (List BatchOfBareUnspentOuts) :=
  let entries := buoIds s.transfers.rows
  if entries.isEmpty then .ok []
  else
    let grouped := (order.visit entries).foldl (fun g entry => g.addTx entry.2) GroupedTids.start
    topUp (usableZcOutsTids settings s) [] grouped.all

/-! ## What is collected -/

section Collected

variable [DecidableEq Hash] {rows : List (TransferRow Hash Key Asset)}
  {row : TransferRow Hash Key Asset}

theorem addBuo_perm (row : TransferRow Hash Key Asset)
    (entries : List (Hash × List (TransferRow Hash Key Asset))) :
    ((addBuo row entries).flatMap Prod.snd).Perm (row :: entries.flatMap Prod.snd) := by
  induction entries with
  | nil => simp [addBuo]
  | cons entry entries inductionHypothesis =>
      rw [addBuo]
      split
      · simp only [List.flatMap_cons, List.append_assoc, List.singleton_append]
        exact List.perm_middle
      · simp only [List.flatMap_cons]
        exact (inductionHypothesis.append_left entry.2).trans List.perm_middle

theorem addBuo_nonempty {entries : List (Hash × List (TransferRow Hash Key Asset))}
    (nonempty : ∀ entry ∈ entries, entry.2 ≠ []) : ∀ entry ∈ addBuo row entries, entry.2 ≠ [] := by
  induction entries with
  | nil => simp [addBuo]
  | cons entry entries inductionHypothesis =>
      rw [List.forall_mem_cons] at nonempty
      rw [addBuo]
      split
      · simpa using nonempty.2
      · exact List.forall_mem_cons.mpr ⟨nonempty.1, inductionHypothesis nonempty.2⟩

theorem buoIds_nonempty : ∀ entry ∈ buoIds rows, entry.2 ≠ [] := by
  suffices kept : ∀ entries : List (Hash × List (TransferRow Hash Key Asset)),
      (∀ entry ∈ entries, entry.2 ≠ []) →
      ∀ entry ∈ rows.foldl (fun entries row => if isBareUnspent row then addBuo row entries
        else entries) entries,
        entry.2 ≠ [] from kept [] (by simp)
  induction rows with
  | nil => exact fun _ nonempty => nonempty
  | cons row rows inductionHypothesis =>
      intro entries nonempty
      rw [List.foldl_cons]
      apply inductionHypothesis
      split
      · exact addBuo_nonempty nonempty
      · exact nonempty

/-- Every bare output that can be spent is collected, once. -/
theorem buoIds_perm (rows : List (TransferRow Hash Key Asset)) :
    ((buoIds rows).flatMap Prod.snd).Perm (rows.filter isBareUnspent) := by
  suffices kept : ∀ entries : List (Hash × List (TransferRow Hash Key Asset)),
      ((rows.foldl (fun entries row => if isBareUnspent row then addBuo row entries
        else entries) entries).flatMap
        Prod.snd).Perm (entries.flatMap Prod.snd ++ rows.filter isBareUnspent) from kept []
  induction rows with
  | nil => simp
  | cons row rows inductionHypothesis =>
      intro entries
      rw [List.foldl_cons]
      refine (inductionHypothesis _).trans ?_
      by_cases bare : isBareUnspent row
      · simp only [bare, if_true, List.filter_cons_of_pos]
        exact ((addBuo_perm row entries).append_right _).trans List.perm_middle.symm
      · simp [bare]

end Collected

/-! ## The groups are packed lists -/

/-- The group that has these bare outputs and nothing else. -/
def batchOf (rows : List (TransferRow Hash Key Asset)) : BatchOfBareUnspentOuts where
  tids := rows.map Prod.fst
  totalAmount := (rows.map fun row => row.2.amount).sum
  additionalTid := false
  additionalTidAmount := 0

namespace GroupedTids

def ofGroups (g : Groups (TransferRow Hash Key Asset)) : GroupedTids :=
  ⟨g.closed.map batchOf, batchOf g.current⟩

theorem ofGroups_all (g : Groups (TransferRow Hash Key Asset)) :
    (ofGroups g).all = g.all.map batchOf := by
  simp [ofGroups, all, Groups.all]

theorem emplaceBack_ofGroups (g : Groups (TransferRow Hash Key Asset)) :
    (ofGroups g).emplaceBack = ofGroups g.openNew := by
  simp [ofGroups, emplaceBack, Groups.openNew, batchOf, BatchOfBareUnspentOuts.new]

theorem push_batchOf (rows : List (TransferRow Hash Key Asset)) (row : TransferRow Hash Key Asset) :
    (batchOf rows).push row = batchOf (rows ++ [row]) := by
  simp [batchOf, BatchOfBareUnspentOuts.push]

theorem addTid_ofGroups (g : Groups (TransferRow Hash Key Asset))
    (row : TransferRow Hash Key Asset) :
    (ofGroups g).addTid row = ofGroups (g.add maxInputsForSimpleTxEuristic row) := by
  have sameLength : (ofGroups g).back.tids.length = g.current.length := by simp [ofGroups, batchOf]
  rw [addTid, Groups.add, sameLength, emplaceBack_ofGroups]
  split <;> simp [ofGroups, push_batchOf]

theorem foldl_addTid_ofGroups (rows : List (TransferRow Hash Key Asset))
    (g : Groups (TransferRow Hash Key Asset)) :
    rows.foldl addTid (ofGroups g) =
      ofGroups (rows.foldl (Groups.add maxInputsForSimpleTxEuristic) g) := by
  induction rows generalizing g with
  | nil => rfl
  | cons row rows inductionHypothesis => simp [addTid_ofGroups, inductionHypothesis]

theorem addTx_ofGroups (g : Groups (TransferRow Hash Key Asset))
    (rows : List (TransferRow Hash Key Asset)) :
    (ofGroups g).addTx rows = ofGroups (g.addAll maxInputsForSimpleTxEuristic rows) := by
  have sameLength : (ofGroups g).back.tids.length = g.current.length := by simp [ofGroups, batchOf]
  rw [addTx, Groups.addAll, sameLength, emplaceBack_ofGroups, ← foldl_addTid_ofGroups]
  split <;> rfl

theorem foldl_addTx (entries : List (Hash × List (TransferRow Hash Key Asset)))
    (g : Groups (TransferRow Hash Key Asset)) :
    entries.foldl (fun g entry => g.addTx entry.2) (ofGroups g) =
      ofGroups ((entries.map Prod.snd).foldl (Groups.addAll maxInputsForSimpleTxEuristic) g) := by
  induction entries generalizing g with
  | nil => rfl
  | cons entry entries inductionHypothesis => simp [addTx_ofGroups, inductionHypothesis]

theorem all_foldl_addTx (entries : List (Hash × List (TransferRow Hash Key Asset))) :
    (entries.foldl (fun g entry => g.addTx entry.2) start).all =
      (pack maxInputsForSimpleTxEuristic (entries.map Prod.snd)).map batchOf := by
  have same : start = ofGroups (Groups.start : Groups (TransferRow Hash Key Asset)) := rfl
  rw [same, foldl_addTx, ofGroups_all, pack]

end GroupedTids

/-! ## Outputs that make up for the fee -/

theorem mem_insertUsable {entry other : FreeAmount} {entries : List FreeAmount} :
    other ∈ insertUsable entry entries ↔ other = entry ∨ other ∈ entries := by
  induction entries with
  | nil => simp [insertUsable]
  | cons first rest inductionHypothesis =>
      rw [insertUsable]
      split
      · simp
      · simp only [List.mem_cons, inductionHypothesis]
        exact or_left_comm

def Ascending (entries : List FreeAmount) : Prop :=
  entries.Pairwise fun entry later => entry.1 ≤ later.1

theorem ascending_insertUsable {entry : FreeAmount} {entries : List FreeAmount}
    (ascending : Ascending entries) :
    Ascending (insertUsable entry entries) := by
  induction entries with
  | nil => exact List.pairwise_singleton _ _
  | cons first rest inductionHypothesis =>
      obtain ⟨least, ascendingRest⟩ := List.pairwise_cons.mp ascending
      rw [insertUsable]
      split
      · rename_i below
        refine List.pairwise_cons.mpr ⟨fun other inside => ?_, ascending⟩
        cases List.mem_cons.mp inside with
        | inl same => exact same ▸ UInt64.le_of_lt below
        | inr later => exact UInt64.le_trans (UInt64.le_of_lt below) (least other later)
      · rename_i notBelow
        refine List.pairwise_cons.mpr ⟨fun other inside => ?_, inductionHypothesis ascendingRest⟩
        cases mem_insertUsable.mp inside with
        | inl same => exact same ▸ UInt64.not_lt.mp notBelow
        | inr later => exact least other later

section UsableOutputs

variable [DecidableEq Asset] {settings : Settings Asset} {s : WalletState Hash Key Asset}

theorem usableZcOutsTids_spec : Ascending (usableZcOutsTids settings s) ∧
    ∀ entry, entry ∈ usableZcOutsTids settings s ↔
      ∃ row ∈ s.transfers.rows, isUsableZc settings s row ∧ entry = (row.2.amount, row.1) := by
  unfold usableZcOutsTids
  generalize s.transfers.rows = rows
  suffices kept : ∀ entries, Ascending entries →
      Ascending (rows.foldl (fun entries row =>
        if isUsableZc settings s row then insertUsable (row.2.amount, row.1) entries
        else entries) entries) ∧
      ∀ entry, entry ∈ rows.foldl (fun entries row =>
        if isUsableZc settings s row then insertUsable (row.2.amount, row.1) entries
        else entries) entries ↔
        entry ∈ entries ∨ ∃ row ∈ rows, isUsableZc settings s row ∧ entry = (row.2.amount, row.1) by
    simpa using kept [] List.Pairwise.nil
  induction rows with
  | nil => simp
  | cons row rows inductionHypothesis =>
      intro entries ascending
      rw [List.foldl_cons]
      by_cases usable : isUsableZc settings s row
      · simp only [usable, if_true]
        obtain ⟨stillAscending, mem⟩ := inductionHypothesis _ (ascending_insertUsable ascending)
        refine ⟨stillAscending, fun entry => ?_⟩
        rw [mem, mem_insertUsable]
        grind
      · simp only [usable, Bool.false_eq_true, if_false]
        obtain ⟨stillAscending, mem⟩ := inductionHypothesis _ ascending
        refine ⟨stillAscending, fun entry => ?_⟩
        rw [mem]
        grind

theorem mem_usable {row : TransferRow Hash Key Asset} (inside : row ∈ s.transfers.rows)
    (usable : isUsableZc settings s row) : (row.2.amount, row.1) ∈ usableZcOutsTids settings s :=
  (usableZcOutsTids_spec.2 _).mpr ⟨row, inside, usable, rfl⟩

end UsableOutputs

theorem mem_lowerBound (minRequiredAmount : UInt64) {entries : List FreeAmount}
    (ascending : Ascending entries) (entry : FreeAmount) :
    entry ∈ entries.dropWhile (fun e => e.1 < minRequiredAmount) ↔
      entry ∈ entries ∧ minRequiredAmount ≤ entry.1 := by
  induction entries with
  | nil => simp
  | cons first rest inductionHypothesis =>
      obtain ⟨least, ascendingRest⟩ := List.pairwise_cons.mp ascending
      by_cases below : first.1 < minRequiredAmount
      · rw [List.dropWhile_cons_of_pos (by simpa using below), inductionHypothesis ascendingRest,
          List.mem_cons]
        have notFirst : entry = first → ¬minRequiredAmount ≤ entry.1 := by
          intro same
          rw [same]
          exact UInt64.not_le.mpr below
        grind
      · rw [List.dropWhile_cons_of_neg (by simpa using below)]
        have allAbove : entry ∈ first :: rest → minRequiredAmount ≤ entry.1 := by
          intro inside
          cases List.mem_cons.mp inside with
          | inl same => exact same ▸ UInt64.not_lt.mp below
          | inr later => exact UInt64.le_trans (UInt64.not_lt.mp below) (least entry later)
        exact ⟨fun inside => ⟨inside, allAbove inside⟩, And.left⟩

/-- The check of the walk never fails where `lower_bound` has skipped what is below. -/
theorem findUsable_spec {minRequiredAmount : UInt64} (usedZcOuts : List ℕ)
    {entries : List FreeAmount} (enough : ∀ entry ∈ entries, minRequiredAmount ≤ entry.1) :
    (findUsable minRequiredAmount usedZcOuts entries = .ok none ∧
      ∀ entry ∈ entries, entry.2 ∈ usedZcOuts) ∨
      ∃ entry ∈ entries, findUsable minRequiredAmount usedZcOuts entries = .ok (some entry) ∧
        entry.2 ∉ usedZcOuts := by
  induction entries with
  | nil => exact .inl ⟨rfl, by simp⟩
  | cons first rest inductionHypothesis =>
      rw [List.forall_mem_cons] at enough
      rw [findUsable, if_neg (UInt64.not_lt.mpr enough.1)]
      by_cases used : first.2 ∈ usedZcOuts
      · rw [if_pos used]
        obtain ⟨nothing, allUsed⟩ | ⟨entry, inside, found, unused⟩ := inductionHypothesis enough.2
        · exact .inl ⟨nothing, List.forall_mem_cons.mpr ⟨used, allUsed⟩⟩
        · exact .inr ⟨entry, List.mem_cons_of_mem first inside, found, unused⟩
      · rw [if_neg used]
        exact .inr ⟨first, List.mem_cons_self, rfl, used⟩

/-- What the last pass makes of the blocks, with the outputs that have been used before. -/
inductive ToppedUp (usable : List FreeAmount) :
    List ℕ → List (List (TransferRow Hash Key Asset)) → List BatchOfBareUnspentOuts → Prop where
  | nil (used : List ℕ) : ToppedUp usable used [] []
  | covered {used : List ℕ} {block : List (TransferRow Hash Key Asset)}
      {blocks : List (List (TransferRow Hash Key Asset))} {batches : List BatchOfBareUnspentOuts}
      (enough : ¬(batchOf block).totalAmount < txMinimumFee)
      (rest : ToppedUp usable used blocks batches) :
      ToppedUp usable used (block :: blocks) (batchOf block :: batches)
  | extended {used : List ℕ} {block : List (TransferRow Hash Key Asset)}
      {blocks : List (List (TransferRow Hash Key Asset))} {batches : List BatchOfBareUnspentOuts}
      {entry : FreeAmount} (short : (batchOf block).totalAmount < txMinimumFee)
      (inside : entry ∈ usable) (unused : entry.2 ∉ used)
      (enough : txMinimumFee - (batchOf block).totalAmount ≤ entry.1)
      (rest : ToppedUp usable (entry.2 :: used) blocks batches) :
      ToppedUp usable used (block :: blocks) ((batchOf block).pushAdditional entry :: batches)
  | dropped {used : List ℕ} {block : List (TransferRow Hash Key Asset)}
      {blocks : List (List (TransferRow Hash Key Asset))} {batches : List BatchOfBareUnspentOuts}
      (short : (batchOf block).totalAmount < txMinimumFee)
      (tooSmall : ∀ entry ∈ usable, entry.2 ∉ used →
        entry.1 < txMinimumFee - (batchOf block).totalAmount)
      (rest : ToppedUp usable used blocks batches) : ToppedUp usable used (block :: blocks) batches

theorem topUp_spec {usable : List FreeAmount} (ascending : Ascending usable)
    (blocks : List (List (TransferRow Hash Key Asset))) (used : List ℕ) :
    ∃ batches, topUp usable used (blocks.map batchOf) = .ok batches ∧
      ToppedUp usable used blocks batches := by
  induction blocks generalizing used with
  | nil => exact ⟨[], rfl, .nil used⟩
  | cons block blocks inductionHypothesis =>
      rw [List.map_cons, topUp]
      by_cases short : (batchOf block).totalAmount < txMinimumFee
      · rw [if_pos short]
        have above := mem_lowerBound (txMinimumFee - (batchOf block).totalAmount) ascending
        obtain ⟨nothing, allUsed⟩ | ⟨entry, inside, found, unused⟩ :=
          findUsable_spec used fun entry inside => ((above entry).mp inside).2
        · obtain ⟨batches, answer, spec⟩ := inductionHypothesis used
          simp only [nothing]
          refine ⟨batches, answer, .dropped short (fun entry inside unused => ?_) spec⟩
          apply UInt64.not_le.mp
          intro enough
          exact unused (allUsed entry ((above entry).mpr ⟨inside, enough⟩))
        · obtain ⟨batches, answer, spec⟩ := inductionHypothesis (entry.2 :: used)
          obtain ⟨inUsable, enough⟩ := (above entry).mp inside
          simp only [found, answer]
          exact ⟨_, rfl, .extended short inUsable unused enough spec⟩
      · obtain ⟨batches, answer, spec⟩ := inductionHypothesis used
        rw [if_neg short, answer]
        exact ⟨_, rfl, .covered short spec⟩

@[simp]
theorem bareTids_batchOf (block : List (TransferRow Hash Key Asset)) :
    (batchOf block).bareTids = block.map Prod.fst := rfl

@[simp]
theorem bareTids_pushAdditional (block : List (TransferRow Hash Key Asset)) (entry : FreeAmount) :
    ((batchOf block).pushAdditional entry).bareTids = block.map Prod.fst := by
  simp [bareTids, pushAdditional, batchOf]

@[simp]
theorem additionalTids_batchOf (block : List (TransferRow Hash Key Asset)) :
    (batchOf block).additionalTids = [] := rfl

@[simp]
theorem additionalTids_pushAdditional (block : List (TransferRow Hash Key Asset))
    (entry : FreeAmount) :
    ((batchOf block).pushAdditional entry).additionalTids = [entry.2] := by
  simp [additionalTids, pushAdditional]

namespace ToppedUp

variable {usable : List FreeAmount} {used : List ℕ}
  {blocks : List (List (TransferRow Hash Key Asset))} {batches : List BatchOfBareUnspentOuts}

/-- The groups are blocks, in their order. -/
theorem sublist (toppedUp : ToppedUp usable used blocks batches) :
    (batches.map bareTids).Sublist (blocks.map fun block => block.map Prod.fst) := by
  induction toppedUp with
  | nil used => exact List.Sublist.slnil
  | covered enough rest inductionHypothesis => simpa using inductionHypothesis
  | extended short inside unused enough rest inductionHypothesis => simpa using inductionHypothesis
  | dropped short tooSmall rest inductionHypothesis => exact inductionHypothesis.cons _

/-- How a group came about. -/
theorem of_mem (toppedUp : ToppedUp usable used blocks batches) {group : BatchOfBareUnspentOuts}
    (inside : group ∈ batches) :
    ∃ block ∈ blocks, (group = batchOf block ∧ ¬(batchOf block).totalAmount < txMinimumFee) ∨
      ∃ entry ∈ usable, group = (batchOf block).pushAdditional entry ∧
        (batchOf block).totalAmount < txMinimumFee ∧
        txMinimumFee - (batchOf block).totalAmount ≤ entry.1 := by
  induction toppedUp with
  | nil used => cases inside
  | covered enough rest inductionHypothesis =>
      rename_i block blocks batches
      cases List.mem_cons.mp inside with
      | inl isFirst => exact ⟨block, List.mem_cons_self, .inl ⟨isFirst, enough⟩⟩
      | inr later =>
          obtain ⟨other, mem, made⟩ := inductionHypothesis later
          exact ⟨other, List.mem_cons_of_mem block mem, made⟩
  | extended short isUsable unused enough rest inductionHypothesis =>
      rename_i used block blocks batches entry
      cases List.mem_cons.mp inside with
      | inl isFirst =>
          exact ⟨block, List.mem_cons_self, .inr ⟨entry, isUsable, isFirst, short, enough⟩⟩
      | inr later =>
          obtain ⟨other, mem, made⟩ := inductionHypothesis later
          exact ⟨other, List.mem_cons_of_mem block mem, made⟩
  | dropped short tooSmall rest inductionHypothesis =>
      rename_i used block blocks batches
      obtain ⟨other, mem, made⟩ := inductionHypothesis inside
      exact ⟨other, List.mem_cons_of_mem block mem, made⟩

/-- No additional output is used twice. -/
theorem additional_nodup (toppedUp : ToppedUp usable used blocks batches) :
    (batches.flatMap additionalTids).Nodup ∧
      ∀ tid ∈ batches.flatMap additionalTids, tid ∉ used := by
  induction toppedUp with
  | nil used => simp
  | covered enough rest inductionHypothesis => simpa using inductionHypothesis
  | extended short inside unused enough rest inductionHypothesis =>
      obtain ⟨nodup, fresh⟩ := inductionHypothesis
      simp only [List.flatMap_cons, additionalTids_pushAdditional, List.singleton_append,
        List.nodup_cons]
      refine ⟨⟨fun again => fresh _ again List.mem_cons_self, nodup⟩, fun tid isAdditional => ?_⟩
      cases List.mem_cons.mp isAdditional with
      | inl isFirst => exact isFirst ▸ unused
      | inr later => exact fun before => fresh tid later (List.mem_cons_of_mem _ before)
  | dropped short tooSmall rest inductionHypothesis => exact inductionHypothesis

/-- A block is a group, or nothing that is still unused makes up for what it is short of. -/
theorem block_cases (toppedUp : ToppedUp usable used blocks batches)
    {block : List (TransferRow Hash Key Asset)} (inside : block ∈ blocks) :
    (∃ group ∈ batches, group.bareTids = block.map Prod.fst ∧
      group.totalAmount = (batchOf block).totalAmount) ∨
      (batchOf block).totalAmount < txMinimumFee ∧ ∀ entry ∈ usable, entry.2 ∉ used →
        entry.2 ∉ batches.flatMap additionalTids →
          entry.1 < txMinimumFee - (batchOf block).totalAmount := by
  induction toppedUp with
  | nil used => cases inside
  | covered enough rest inductionHypothesis =>
      cases List.mem_cons.mp inside with
      | inl isFirst => exact .inl ⟨_, List.mem_cons_self, by simp [isFirst], by rw [isFirst]⟩
      | inr later =>
          obtain ⟨group, mem, made⟩ | notMade := inductionHypothesis later
          · exact .inl ⟨group, List.mem_cons_of_mem _ mem, made⟩
          · exact .inr (by simpa using notMade)
  | extended short isUsable unused enough rest inductionHypothesis =>
      cases List.mem_cons.mp inside with
      | inl isFirst => exact .inl ⟨_, List.mem_cons_self, by simp [isFirst], by rw [isFirst]; rfl⟩
      | inr later =>
          obtain ⟨group, mem, made⟩ | ⟨isShort, tooSmall⟩ := inductionHypothesis later
          · exact .inl ⟨group, List.mem_cons_of_mem _ mem, made⟩
          · refine .inr ⟨isShort, fun entry isUsable notUsed notAdditional => ?_⟩
            simp only [List.flatMap_cons, additionalTids_pushAdditional, List.singleton_append,
              List.mem_cons, not_or] at notAdditional
            exact tooSmall entry isUsable (by simp [notAdditional.1, notUsed]) notAdditional.2
  | dropped short tooSmall rest inductionHypothesis =>
      cases List.mem_cons.mp inside with
      | inl isFirst =>
          exact .inr ⟨isFirst ▸ short,
            fun entry isUsable notUsed _ => isFirst ▸ tooSmall entry isUsable notUsed⟩
      | inr later => exact inductionHypothesis later

/-- A block that is empty leaves nothing behind when no output covers the fee alone. -/
theorem of_nil_cons (toppedUp : ToppedUp usable used ([] :: blocks) batches)
    (none_ : ∀ entry ∈ usable, entry.1 < txMinimumFee) : ToppedUp usable used blocks batches := by
  cases toppedUp with
  | covered enough rest => exact absurd txMinimumFee_pos enough
  | extended short inside unused enough rest =>
      rename_i entry
      have least : txMinimumFee ≤ entry.1 := by simpa [batchOf] using enough
      exact absurd (none_ entry inside) (UInt64.not_lt.mpr least)
  | dropped short tooSmall rest => exact rest

end ToppedUp

/-! ## Exact amounts -/

def exactTotal (block : List (TransferRow Hash Key Asset)) : ℕ :=
  (block.map fun row => row.2.amount.toNat).sum

theorem toNat_totalAmount (block : List (TransferRow Hash Key Asset)) :
    (batchOf block).totalAmount.toNat = exactTotal block % 2 ^ 64 := by
  simp only [batchOf, exactTotal]
  induction block with
  | nil => rfl
  | cons row block inductionHypothesis =>
      rw [List.map_cons, List.sum_cons, UInt64.toNat_add, inductionHypothesis, List.map_cons,
        List.sum_cons, Nat.add_mod_mod]

namespace WalletState

variable (s : WalletState Hash Key Asset)

def amountAt (i : ℕ) : ℕ := ((s.transfers.find? i).map fun td => td.amount.toNat).getD 0

theorem sum_amountAt {block : List (TransferRow Hash Key Asset)}
    (stored : ∀ row ∈ block, row ∈ s.transfers.rows) :
    ((block.map Prod.fst).map s.amountAt).sum = exactTotal block := by
  rw [List.map_map, exactTotal]
  apply congrArg
  apply List.map_congr_left
  intro row inside
  have found : s.transfers.find? row.1 = some row.2 :=
    IndexedTable.find?_eq_some.mpr (stored row inside)
  simp [amountAt, found]

end WalletState

theorem toNat_destination {total additional : UInt64}
    (covered : txDefaultFee.toNat ≤ total.toNat + additional.toNat)
    (small : total.toNat + additional.toNat - txDefaultFee.toNat < 2 ^ 64) :
    (total + additional - txDefaultFee).toNat =
      total.toNat + additional.toNat - txDefaultFee.toNat := by
  have fee := txDefaultFee.toNat_lt
  rw [UInt64.toNat_sub, UInt64.toNat_add]
  omega

theorem covers_batchOf {block : List (TransferRow Hash Key Asset)}
    (enough : ¬(batchOf block).totalAmount < txMinimumFee) :
    txDefaultFee.toNat ≤
      (batchOf block).totalAmount.toNat + (batchOf block).additionalTidAmount.toNat ∧
      (batchOf block).destinationAmount.toNat =
        (batchOf block).totalAmount.toNat + (batchOf block).additionalTidAmount.toNat -
          txDefaultFee.toNat := by
  have least : txDefaultFee.toNat ≤ (batchOf block).totalAmount.toNat :=
    UInt64.le_iff_toNat_le.mp (UInt64.not_lt.mp enough)
  have noAdditional : (batchOf block).additionalTidAmount.toNat = 0 := rfl
  have bounded := (batchOf block).totalAmount.toNat_lt
  exact ⟨by omega, toNat_destination (by omega) (by omega)⟩

theorem covers_pushAdditional {block : List (TransferRow Hash Key Asset)} {entry : FreeAmount}
    (short : (batchOf block).totalAmount < txMinimumFee)
    (enough : txMinimumFee - (batchOf block).totalAmount ≤ entry.1) :
    txDefaultFee.toNat ≤ ((batchOf block).pushAdditional entry).totalAmount.toNat +
        ((batchOf block).pushAdditional entry).additionalTidAmount.toNat ∧
      ((batchOf block).pushAdditional entry).destinationAmount.toNat =
        ((batchOf block).pushAdditional entry).totalAmount.toNat +
          ((batchOf block).pushAdditional entry).additionalTidAmount.toNat -
            txDefaultFee.toNat := by
  have below : (batchOf block).totalAmount.toNat < txDefaultFee.toNat :=
    UInt64.lt_iff_toNat_lt.mp short
  have least : txDefaultFee.toNat - (batchOf block).totalAmount.toNat ≤ entry.1.toNat := by
    have difference := UInt64.toNat_sub_of_le _ _ (UInt64.le_of_lt short)
    have covered := UInt64.le_iff_toNat_le.mp enough
    rwa [difference] at covered
  have bounded := entry.1.toNat_lt
  have covered : txDefaultFee.toNat ≤ (batchOf block).totalAmount.toNat + entry.1.toNat := by omega
  have small : (batchOf block).totalAmount.toNat + entry.1.toNat - txDefaultFee.toNat < 2 ^ 64 := by
    omega
  exact ⟨covered, toNat_destination covered small⟩

/-! ## The blocks -/

section Blocks

theorem nodup_tids {s : WalletState Hash Key Asset} : (s.transfers.rows.map Prod.fst).Nodup :=
  List.pairwise_map.mpr (s.transfers.ascending.imp fun below => Nat.ne_of_lt below)

variable [DecidableEq Hash]

/-- The blocks that the bare outputs are packed in. -/
def bareBlocks (order : IterationOrder (Hash × List (TransferRow Hash Key Asset)))
    (s : WalletState Hash Key Asset) :
    List (List (TransferRow Hash Key Asset)) :=
  pack maxInputsForSimpleTxEuristic ((order.visit (buoIds s.transfers.rows)).map Prod.snd)

variable {order : IterationOrder (Hash × List (TransferRow Hash Key Asset))}
  {s : WalletState Hash Key Asset}

theorem flatten_bareBlocks :
    (bareBlocks order s).flatten.Perm (s.transfers.rows.filter isBareUnspent) := by
  rw [bareBlocks, flatten_pack, ← List.flatMap_def]
  exact ((order.perm _).flatMap_right _).trans (buoIds_perm s.transfers.rows)

theorem nodup_bareTids
    (order : IterationOrder (Hash × List (TransferRow Hash Key Asset)))
    (s : WalletState Hash Key Asset) :
    ((bareBlocks order s).flatMap fun block => block.map Prod.fst).Nodup := by
  have flat : ((bareBlocks order s).flatMap fun block => block.map Prod.fst) =
      (bareBlocks order s).flatten.map Prod.fst := by
    rw [List.map_flatten, List.flatMap_def]
  rw [flat, (flatten_bareBlocks.map Prod.fst).nodup_iff]
  exact nodup_tids.sublist (List.filter_sublist.map Prod.fst)

theorem block_unique {block other : List (TransferRow Hash Key Asset)}
    (isBlock : block ∈ bareBlocks order s) (isOther : other ∈ bareBlocks order s) {tid : ℕ}
    (inBlock : tid ∈ block.map Prod.fst) (inOther : tid ∈ other.map Prod.fst) : block = other := by
  by_contra different
  let tids := fun block : List (TransferRow Hash Key Asset) => block.map Prod.fst
  have symmetric : Std.Symm (Function.onFun List.Disjoint tids) := ⟨fun _ _ apart => apart.symm⟩
  have disjoint : (bareBlocks order s).Pairwise (Function.onFun List.Disjoint tids) :=
    (List.nodup_flatMap.mp (nodup_bareTids order s)).2
  exact disjoint.forall isBlock isOther different inBlock inOther

theorem bare_of_mem {block : List (TransferRow Hash Key Asset)}
    (inside : block ∈ bareBlocks order s) {row : TransferRow Hash Key Asset} (isRow : row ∈ block) :
    row ∈ s.transfers.rows ∧ isBareUnspent row :=
  List.mem_filter.mp (flatten_bareBlocks.mem_iff.mp (List.mem_flatten.mpr ⟨block, inside, isRow⟩))

theorem mem_of_bare (order : IterationOrder (Hash × List (TransferRow Hash Key Asset))) {tid : ℕ}
    {td : TransferDetails Hash Key Asset} (found : s.transfers.find? tid = some td)
    (bare : isBareUnspent (tid, td)) : ∃ block ∈ bareBlocks order s, (tid, td) ∈ block :=
  List.mem_flatten.mp (flatten_bareBlocks.mem_iff.mpr
    (List.mem_filter.mpr ⟨IndexedTable.find?_eq_some.mp found, bare⟩))

theorem visited_nonempty :
    ∀ block ∈ (order.visit (buoIds s.transfers.rows)).map Prod.snd, block ≠ [] := by
  intro block inside
  obtain ⟨entry, isEntry, rfl⟩ := List.mem_map.mp inside
  exact buoIds_nonempty entry ((order.perm _).mem_iff.mp isEntry)

theorem length_bareBlock {block : List (TransferRow Hash Key Asset)}
    (inside : block ∈ bareBlocks order s) :
    block.length ≤ maxInputsForSimpleTxEuristic :=
  length_le_of_mem_pack (by decide) visited_nonempty inside

/-- The block that is opened in vain comes first. -/
theorem bareBlocks_eq {first : Hash × List (TransferRow Hash Key Asset)}
    (isFirst : (order.visit (buoIds s.transfers.rows)).head? = some first) :
    ∃ filled, bareBlocks order s = skipped maxInputsForSimpleTxEuristic first.2 ++ filled ∧
      ∀ block ∈ filled, block ≠ [] := by
  obtain ⟨rest, visited⟩ := List.head?_eq_some_iff.mp isFirst
  have nonempty : ∀ block ∈ first.2 :: rest.map Prod.snd, block ≠ [] := by
    intro block inside
    apply visited_nonempty block
    rwa [visited]
  rw [bareBlocks, visited, List.map_cons]
  exact pack_eq (by decide) nonempty

/-- What a group made from a block has, the sum of the block being exact. -/
theorem group_spec {block : List (TransferRow Hash Key Asset)}
    (isBlock : block ∈ bareBlocks order s) (isExact : exactTotal block < 2 ^ 64) :
    (batchOf block).totalAmount.toNat = exactTotal block ∧
      ((block.map Prod.fst).map s.amountAt).sum = exactTotal block := by
  refine ⟨by rw [toNat_totalAmount, Nat.mod_eq_of_lt isExact], s.sum_amountAt fun row inside => ?_⟩
  exact (bare_of_mem isBlock inside).1

end Blocks

/-! ## What a sweep needs of the groups -/

section Sweeps

variable [DecidableEq Hash] [DecidableEq Asset]

structure Sweeps (settings : Settings Asset) (s : WalletState Hash Key Asset)
    (blocks : List (List (TransferRow Hash Key Asset))) (batches : List BatchOfBareUnspentOuts) :
      Prop where
  once : (batches.flatMap bareTids).Nodup
  bare : ∀ tid ∈ batches.flatMap bareTids, ∃ td, s.transfers.find? tid = some td ∧
    isBareUnspent (tid, td)
  size :
    ∀ group ∈ batches, group.bareTids ≠ [] ∧ group.bareTids.length ≤ maxInputsForSimpleTxEuristic
  total : ∀ group ∈ batches, group.totalAmount.toNat = (group.bareTids.map s.amountAt).sum
  additional : ∀ group ∈ batches, group.additionalTid = true →
    (group.bareTids.map s.amountAt).sum < txMinimumFee.toNat ∧
      ∃ tid td, group.tids = group.bareTids ++ [tid] ∧ s.transfers.find? tid = some td ∧
        isUsableZc settings s (tid, td) ∧ group.additionalTidAmount = td.amount
  noAdditional : ∀ group ∈ batches, group.additionalTid = false → group.additionalTidAmount = 0
  additionalOnce : (batches.flatMap additionalTids).Nodup
  covers : ∀ group ∈ batches,
    txDefaultFee.toNat ≤ group.totalAmount.toNat + group.additionalTidAmount.toNat ∧
      group.destinationAmount.toNat =
        group.totalAmount.toNat + group.additionalTidAmount.toNat - txDefaultFee.toNat
  leftOut : ∀ tid td, s.transfers.find? tid = some td → isBareUnspent (tid, td) →
    tid ∉ batches.flatMap bareTids →
    ∃ block ∈ blocks, tid ∈ block.map Prod.fst ∧ exactTotal block < txMinimumFee.toNat ∧
      ∀ other otherTd, s.transfers.find? other = some otherTd →
        isUsableZc settings s (other, otherTd) →
        other ∉ batches.flatMap additionalTids →
          exactTotal block + otherTd.amount.toNat < txMinimumFee.toNat

/-- No block's amounts overflow, and if the transaction that is visited first has too many bare
outputs for one group, no output with a hidden amount can pay the fee alone. -/
structure Sweepable (order : IterationOrder (Hash × List (TransferRow Hash Key Asset)))
    (settings : Settings Asset)
    (s : WalletState Hash Key Asset) : Prop where
  exact : ∀ block ∈ bareBlocks order s, exactTotal block < 2 ^ 64
  first : ∀ entry, (order.visit (buoIds s.transfers.rows)).head? = some entry →
    maxInputsForSimpleTxEuristic < entry.2.length →
      ∀ row ∈ s.transfers.rows, isUsableZc settings s row →
      row.2.amount < txMinimumFee

variable {order : IterationOrder (Hash × List (TransferRow Hash Key Asset))}
  {settings : Settings Asset} {s : WalletState Hash Key Asset}
  {batches : List BatchOfBareUnspentOuts}

/-- Under the condition the groups come from blocks that have elements. -/
theorem Sweepable.filled (sweepable : Sweepable order settings s)
    {first : Hash × List (TransferRow Hash Key Asset)}
    (isFirst : (order.visit (buoIds s.transfers.rows)).head? = some first)
    (toppedUp : ToppedUp (usableZcOutsTids settings s) [] (bareBlocks order s) batches) :
    ∃ filled, ToppedUp (usableZcOutsTids settings s) [] filled batches ∧
      ∀ block ∈ filled, block ∈ bareBlocks order s ∧ block ≠ [] := by
  obtain ⟨filled, parts, nonempty⟩ := bareBlocks_eq isFirst
  refine ⟨filled, ?_, fun block inside => ⟨by simp [parts, inside], nonempty block inside⟩⟩
  by_cases tooLong : maxInputsForSimpleTxEuristic < first.2.length
  · rw [parts, skipped, if_pos tooLong] at toppedUp
    apply toppedUp.of_nil_cons
    intro entry inside
    obtain ⟨row, isRow, usable, rfl⟩ := (usableZcOutsTids_spec.2 entry).mp inside
    exact sweepable.first first isFirst tooLong row isRow usable
  · rwa [parts, skipped, if_neg tooLong] at toppedUp

/-- The block of an output that is in no group is too small, also with any output
that is not used. -/
theorem leftOut_of_toppedUp (isExact : ∀ block ∈ bareBlocks order s, exactTotal block < 2 ^ 64)
    (toppedUp : ToppedUp (usableZcOutsTids settings s) [] (bareBlocks order s) batches) {tid : ℕ}
    {td : TransferDetails Hash Key Asset} (found : s.transfers.find? tid = some td)
    (bare : isBareUnspent (tid, td)) (absent : tid ∉ batches.flatMap bareTids) :
    ∃ block ∈ bareBlocks order s, tid ∈ block.map Prod.fst ∧ exactTotal block < txMinimumFee.toNat ∧
      ∀ other otherTd, s.transfers.find? other = some otherTd →
        isUsableZc settings s (other, otherTd) →
        other ∉ batches.flatMap additionalTids →
          exactTotal block + otherTd.amount.toNat < txMinimumFee.toNat := by
  obtain ⟨block, isBlock, inside⟩ := mem_of_bare order found bare
  have inTids : tid ∈ block.map Prod.fst := List.mem_map_of_mem inside
  have exact_ := (group_spec isBlock (isExact block isBlock)).1
  obtain ⟨group, isGroup, same, -⟩ | ⟨short, tooSmall⟩ := toppedUp.block_cases isBlock
  · exact absurd (List.mem_flatMap.mpr ⟨group, isGroup, same ▸ inTids⟩) absent
  · have below : exactTotal block < txMinimumFee.toNat := exact_ ▸ UInt64.lt_iff_toNat_lt.mp short
    refine ⟨block, isBlock, inTids, below, fun other otherTd foundOther usable unused => ?_⟩
    have small := tooSmall _ (mem_usable (IndexedTable.find?_eq_some.mp foundOther) usable)
      List.not_mem_nil unused
    have difference := UInt64.toNat_sub_of_le _ _ (UInt64.le_of_lt short)
    have smallNat : otherTd.amount.toNat < (txMinimumFee - (batchOf block).totalAmount).toNat :=
      UInt64.lt_iff_toNat_lt.mp small
    rw [difference, exact_] at smallNat
    omega

theorem sweeps_of_sweepable (sweepable : Sweepable order settings s)
    {first : Hash × List (TransferRow Hash Key Asset)}
    (isFirst : (order.visit (buoIds s.transfers.rows)).head? = some first)
    (toppedUp : ToppedUp (usableZcOutsTids settings s) [] (bareBlocks order s) batches) :
    Sweeps settings s (bareBlocks order s) batches := by
  obtain ⟨filled, fromFilled, isFilled⟩ := sweepable.filled isFirst toppedUp
  have made : ∀ group ∈ batches, ∃ block, block ∈ bareBlocks order s ∧ block ≠ [] ∧
      exactTotal block < 2 ^ 64 ∧
        ((group = batchOf block ∧ ¬(batchOf block).totalAmount < txMinimumFee) ∨
        ∃ entry ∈ usableZcOutsTids settings s, group = (batchOf block).pushAdditional entry ∧
          (batchOf block).totalAmount < txMinimumFee ∧
          txMinimumFee - (batchOf block).totalAmount ≤ entry.1) := by
    intro group inside
    obtain ⟨block, isBlock, how⟩ := fromFilled.of_mem inside
    obtain ⟨isBare, nonempty⟩ := isFilled block isBlock
    exact ⟨block, isBare, nonempty, sweepable.exact block isBare, how⟩
  have fromBlock : ∀ group ∈ batches, ∃ block ∈ bareBlocks order s, block ≠ [] ∧
      group.bareTids = block.map Prod.fst ∧ group.totalAmount.toNat = exactTotal block ∧
      ((block.map Prod.fst).map s.amountAt).sum = exactTotal block := by
    intro group inside
    obtain ⟨block, isBlock, nonempty, isExact, ⟨rfl, -⟩ | ⟨entry, -, rfl, -⟩⟩ := made group inside
    · exact ⟨block, isBlock, nonempty, rfl, group_spec isBlock isExact⟩
    · exact ⟨block, isBlock, nonempty, by simp, group_spec isBlock isExact⟩
  have bareList : batches.flatMap bareTids = (batches.map bareTids).flatten := List.flatMap_def ..
  refine ⟨?_, fun tid inside => ?_, fun group inside => ?_, fun group inside => ?_,
    fun group inside isAdditional => ?_, fun group inside notAdditional =>
      ?_, toppedUp.additional_nodup.1, fun group inside => ?_,
    fun tid td found bare absent => leftOut_of_toppedUp sweepable.exact toppedUp found bare absent⟩
  · have nodup := nodup_bareTids order s
    rw [List.flatMap_def] at nodup
    rw [bareList]
    exact nodup.sublist toppedUp.sublist.flatten
  · obtain ⟨group, isGroup, inGroup⟩ := List.mem_flatMap.mp inside
    obtain ⟨block, isBlock, -, same, -⟩ := fromBlock group isGroup
    rw [same] at inGroup
    obtain ⟨row, isRow, rfl⟩ := List.mem_map.mp inGroup
    obtain ⟨stored, bare⟩ := bare_of_mem isBlock isRow
    exact ⟨row.2, IndexedTable.find?_eq_some.mpr stored, bare⟩
  · obtain ⟨block, isBlock, nonempty, same, -⟩ := fromBlock group inside
    rw [same]
    exact ⟨by simpa using nonempty, by simpa using length_bareBlock isBlock⟩
  · obtain ⟨block, isBlock, -, same, total, sum⟩ := fromBlock group inside
    rw [same, total, sum]
  · obtain ⟨block, isBlock, -, isExact, ⟨rfl, -⟩ | ⟨entry, isUsable, rfl, short, -⟩⟩ :=
      made group inside
    · cases isAdditional
    · obtain ⟨row, stored, usable, rfl⟩ := (usableZcOutsTids_spec.2 entry).mp isUsable
      obtain ⟨total, sum⟩ := group_spec isBlock isExact
      rw [bareTids_pushAdditional, sum, ← total]
      exact ⟨UInt64.lt_iff_toNat_lt.mp short, row.1, row.2, rfl,
        IndexedTable.find?_eq_some.mpr stored, usable, rfl⟩
  · obtain ⟨block, -, -, -, ⟨rfl, -⟩ | ⟨entry, -, rfl, -⟩⟩ := made group inside
    · rfl
    · cases notAdditional
  · obtain ⟨block, -, -, -, ⟨rfl, enough⟩ | ⟨entry, -, rfl, short, enough⟩⟩ := made group inside
    · exact covers_batchOf enough
    · exact covers_pushAdditional short enough

/-- The groups show what the condition says. -/
theorem sweepable_of_sweeps
    (toppedUp : ToppedUp (usableZcOutsTids settings s) [] (bareBlocks order s) batches)
    (sweeps : Sweeps settings s (bareBlocks order s) batches) : Sweepable order settings s := by
  have stored :
      ∀ block ∈ bareBlocks order s, ((block.map Prod.fst).map s.amountAt).sum = exactTotal block :=
    fun block isBlock => s.sum_amountAt fun row inside => (bare_of_mem isBlock inside).1
  have bounded :
      ∀ group ∈ batches, ∀ block ∈ bareBlocks order s, group.bareTids = block.map Prod.fst →
      exactTotal block < 2 ^ 64 := by
    intro group isGroup block isBlock same
    have total := sweeps.total group isGroup
    rw [same, stored block isBlock] at total
    exact total ▸ group.totalAmount.toNat_lt
  refine ⟨fun block isBlock => ?_, fun first isFirst tooLong row isRow usable => ?_⟩
  · cases block with
    | nil => simp [exactTotal]
    | cons row rest =>
        obtain ⟨isRow, bare⟩ := bare_of_mem isBlock List.mem_cons_self
        have inTids : row.1 ∈ (row :: rest).map Prod.fst := List.mem_map_of_mem List.mem_cons_self
        by_cases swept : row.1 ∈ batches.flatMap bareTids
        · obtain ⟨group, isGroup, inGroup⟩ := List.mem_flatMap.mp swept
          obtain ⟨other, isOther, same⟩ :=
            List.mem_map.mp (toppedUp.sublist.subset (List.mem_map_of_mem isGroup))
          have unique := block_unique isBlock isOther inTids (same ▸ inGroup)
          exact bounded group isGroup _ isBlock (unique ▸ same.symm)
        · obtain ⟨other, isOther, inOther, small, -⟩ :=
            sweeps.leftOut row.1 row.2 (IndexedTable.find?_eq_some.mpr isRow) bare swept
          have unique := block_unique isBlock isOther inTids inOther
          have fee := txMinimumFee.toNat_lt
          exact unique ▸ small.trans fee
  · obtain ⟨filled, parts, -⟩ := bareBlocks_eq isFirst
    rw [skipped, if_pos tooLong] at parts
    by_contra enough
    have least := UInt64.not_lt.mp enough
    rw [parts] at toppedUp
    cases toppedUp with
    | covered covers rest => exact absurd txMinimumFee_pos covers
    | extended short inside unused makesUp rest =>
        exact (sweeps.size _ List.mem_cons_self).1 (by simp)
    | dropped short tooSmall rest =>
        have below := tooSmall _ (mem_usable isRow usable) List.not_mem_nil
        exact enough (by simpa [batchOf] using below)

theorem getBareUnspentOutputsStats_spec
    (order : IterationOrder (Hash × List (TransferRow Hash Key Asset))) (settings : Settings Asset)
    (some_ : buoIds s.transfers.rows ≠ []) :
    ∃ batches, getBareUnspentOutputsStats order settings s = .ok batches ∧
      ToppedUp (usableZcOutsTids settings s) [] (bareBlocks order s) batches := by
  rw [getBareUnspentOutputsStats]
  simp only [List.isEmpty_iff, some_, if_false, GroupedTids.all_foldl_addTx]
  exact topUp_spec usableZcOutsTids_spec.1 (bareBlocks order s) []

/-- The groups can be swept and lose nothing exactly under the condition. -/
theorem getBareUnspentOutputsStats_exact
    (order : IterationOrder (Hash × List (TransferRow Hash Key Asset))) (settings : Settings Asset)
    (s : WalletState Hash Key Asset) :
    ∃ batches, getBareUnspentOutputsStats order settings s = .ok batches ∧
      (Sweeps settings s (bareBlocks order s) batches ↔ Sweepable order settings s) := by
  by_cases nothing : buoIds s.transfers.rows = []
  · have visited : order.visit (buoIds s.transfers.rows) = [] := by
      rw [nothing]
      exact List.perm_nil.mp (order.perm [])
    have noBare : s.transfers.rows.filter isBareUnspent = [] := by
      have perm := buoIds_perm s.transfers.rows
      rw [nothing] at perm
      exact List.nil_perm.mp perm
    have noBlock : bareBlocks order s = [[]] := by
      rw [bareBlocks, visited]
      rfl
    refine ⟨[], by simp [getBareUnspentOutputsStats, nothing],
      fun _ => ⟨by simp [noBlock, exactTotal], ?_⟩, fun _ =>
        ⟨by simp, by simp, by simp, by simp, by simp, by simp, by simp, by simp, ?_⟩⟩
    · simp [visited]
    · intro tid td found bare
      have inside : (tid, td) ∈ s.transfers.rows.filter isBareUnspent :=
        List.mem_filter.mpr ⟨IndexedTable.find?_eq_some.mp found, bare⟩
      simp [noBare] at inside
  · obtain ⟨batches, answer, toppedUp⟩ := getBareUnspentOutputsStats_spec order settings nothing
    have visited : order.visit (buoIds s.transfers.rows) ≠ [] := by
      intro none_
      have perm := order.perm (buoIds s.transfers.rows)
      rw [none_] at perm
      exact nothing (List.nil_perm.mp perm)
    obtain ⟨first, isFirst⟩ := Option.isSome_iff_exists.mp (List.isSome_head?.mpr visited)
    exact ⟨batches, answer, sweepable_of_sweeps toppedUp,
      fun sweepable => sweeps_of_sweepable sweepable isFirst toppedUp⟩

end Sweeps

/-! ### One transaction with too many outputs for a group -/

section TooMany

def coin : Settings ℕ := ⟨0, false, false, false, 0, 0, false, 15, fun _ => true⟩

def legacyOutput (i : ℕ) : TransferDetails ℕ ℕ ℕ :=
  ⟨1, i, 1, 0, 0, 0, i, none, 20000000000, none, 0, 0⟩

def hiddenOutput : TransferDetails ℕ ℕ ℕ := ⟨2, 0, 2, 0, 0, 0, 7, none, 30000000000, some 0, 0, 0⟩

/-- Twenty-one bare outputs of one transaction, and one output with a hidden amount. -/
def crowded : WalletState ℕ ℕ ℕ :=
  { WalletState.new 0 with
    transfers :=
      ⟨(List.range 21).map (fun i => (i, legacyOutput i)) ++ [(21, hiddenOutput)], by decide⟩
    blockchainSize := 100 }

theorem first_group_without_bare_outputs :
    (getBareUnspentOutputsStats ⟨id, List.Perm.refl⟩ coin crowded).toOption.map
      (fun batches => batches.map fun group => (group.bareTids, group.additionalTids)) =
        some [([], [21]), (List.range 20, []), ([20], [])] := by
  decide +kernel

end TooMany

end Zano.Wallet
