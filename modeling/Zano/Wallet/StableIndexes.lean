import Zano.Wallet.TransferIndexes

/-! # Indexes of transfers as identities

In runs in which nothing removes a transfer that is still referred to, the references of a wallet
stay in order: an index is given to an output only when nothing refers to it, a lookup finds the
transfer it is a lookup of, and no stored index makes an operation throw or marks another output.

Three operations remove transfers, and none of them looks at the references. A reorganization
forgets the transfers of the detached blocks together with their entries in the lookup tables, a
synchronization anew forgets all, and a wallet in concise mode drops transfers spent long ago and
forgets no entry of any table.
-/

namespace Zano.Wallet

open Throwing
open Balance
  (flagSpent flagBlocked flagEscrowProposalReservation flagMinedTransfer flagColdSigReservation)

variable {Hash Key Asset : Type*}

/-! ## Sending -/

section Sending

def CachedIn (free : FreeAmounts Asset) (i : ℕ) : Prop :=
  ∃ assetId, ∃ entry ∈ free.ofAsset assetId, entry.2 = i

theorem meets_markSelected {flags : UInt32} {selected : List ℕ} {s : WalletState Hash Key Asset}
    (present : ∀ i ∈ selected, Present s i) :
    Meets (Extends s) Failure.IsHarmless (forEach (markSelected flags) selected s) := by
  apply meets_forEach (Extends.refl s)
  intro s' before i inside
  obtain ⟨td, found⟩ := before.present (present i inside)
  rw [markSelected, found]
  exact meets_returned (before.trans (extends_modify s' i fun _ => rfl))

theorem extends_clearTransferFlags (flags : UInt32) (selected : List ℕ)
    (s : WalletState Hash Key Asset) :
    Extends s (clearTransferFlags flags selected s) := by
  rw [clearTransferFlags]
  induction selected generalizing s with
  | nil => exact Extends.refl s
  | cons i selected inductionHypothesis =>
      have cleared := extends_modify s i (f := (·.clearFlags flags)) fun _ => rfl
      exact cleared.trans (inductionHypothesis _)

theorem extends_clearFreeAmounts (s : WalletState Hash Key Asset) :
    Extends s s.clearFreeAmounts := by
  refine extends_of_eq rfl rfl rfl (fun _ => id) (fun _ => Or.inl) (fun _ => Or.inl) ?_
  intro i member
  obtain ⟨assetId, entry, inside, _⟩ := member
  simp [WalletState.clearFreeAmounts, FreeAmounts.empty] at inside

variable [DecidableEq Asset]

theorem mem_free_of_selects {ready : ℕ → Option Bool} {items : List (NeededMoney Asset)}
    {free : FreeAmounts Asset} {taken : List (Asset × FreeAmount)} {selection : Selection Asset}
    (selects : Selects ready items free taken selection) :
    (∀ i, CachedIn selection.free i → CachedIn free i) ∧
      ∀ i ∈ selection.selected, CachedIn free i := by
  constructor
  · intro i member
    obtain ⟨assetId, entry, inside, isIndex⟩ := member
    exact ⟨assetId, entry, selects.parted.mem_left inside, isIndex⟩
  · intro i isSelected
    rw [selects.selected, List.mem_map] at isSelected
    obtain ⟨t, inside, isIndex⟩ := isSelected
    exact ⟨t.1, t.2, (selects.parted.mem_taken inside).1, isIndex⟩

/-- Selection throws for want of money or of an input only; it selects what was in the cache, and
adds nothing to it. -/
theorem answers_cases {settings : Settings Asset} {s : WalletState Hash Key Asset}
    {items : List (NeededMoney Asset)} {needAtLeast1Zc : Bool} {fakeOutputsCount : ℕ}
    {answer : Except Failure (Selection Asset)}
    (answers : Answers settings s items needAtLeast1Zc fakeOutputsCount answer) :
    (∃ failure : Failure, failure.IsHarmless ∧ answer = .error failure) ∨
      ∃ selection, answer = .ok selection ∧ (∀ i, CachedIn selection.free i → IsCached s i) ∧
        ∀ i ∈ selection.selected, IsCached s i := by
  cases answers with
  | fallsShort => exact Or.inl ⟨.notEnoughMoney, by simp [Failure.IsHarmless], rfl⟩
  | noZcInputs => exact Or.inl ⟨.noZcInputs, by simp [Failure.IsHarmless], rfl⟩
  | selects selects => exact Or.inr ⟨_, rfl, mem_free_of_selects selects⟩
  | @expands taken selection entry selects _ _ cached =>
      obtain ⟨fewer, selected⟩ := mem_free_of_selects selects
      refine Or.inr ⟨_, rfl, ?_, ?_⟩
      · intro i member
        obtain ⟨assetId, other, inside, isIndex⟩ := member
        by_cases same : assetId = settings.native
        · subst same
          simp only [FreeAmounts.set, Function.update_self] at inside
          exact fewer i ⟨_, other, List.mem_of_mem_erase inside, isIndex⟩
        · simp only [FreeAmounts.set, Function.update_of_ne same] at inside
          exact fewer i ⟨_, other, inside, isIndex⟩
      · intro i isSelected
        rcases List.mem_append.mp isSelected with isSelected | isEntry
        · exact selected i isSelected
        · rw [List.mem_singleton.mp isEntry]
          exact fewer _ ⟨_, entry, cached, rfl⟩

theorem extends_prepareFreeTransfersCache (settings : Settings Asset) (fakeOutputsCount : ℕ)
    (s : WalletState Hash Key Asset) :
    Extends s (prepareFreeTransfersCache settings fakeOutputsCount s) := by
  rw [prepareFreeTransfersCache]
  split
  · refine extends_of_eq rfl rfl rfl (fun _ => id) (fun _ => Or.inl) (fun _ => Or.inl) ?_
    intro i member
    obtain ⟨assetId, entry, inside, isIndex⟩ := member
    rcases mem_cacheTransfers.mp inside with isIn | ⟨row, inRows, _, _, rfl⟩
    · simp [FreeAmounts.empty] at isIn
    · exact Or.inr ⟨row.2, IndexedTable.find?_eq_some.mpr (isIndex ▸ inRows)⟩
  · exact Extends.refl s

variable [DecidableEq Hash]

theorem meets_addSentUnconfirmedTx (settings : Settings Asset) {tx : WalletTx Hash Key Asset}
    {selected : List ℕ} {s : WalletState Hash Key Asset} (knows : KnowsProposal s tx)
    (present : ∀ i ∈ selected, Present s i) :
    Meets (Extends s) Failure.IsHarmless (addSentUnconfirmedTx settings tx selected s) := by
  apply meets_thenDo (M := Extends s) (meets_handleUnconfirmedTx knows) fun _ after => after
  intro s' before
  apply meets_returned
  apply before.trans
  refine extends_of_eq rfl rfl rfl (fun _ => id) ?_ (fun _ => Or.inl) fun _ => Or.inl
  intro i member
  obtain ⟨utx, inside, isSelected⟩ := member
  rw [selectIndicies, List.mem_map] at inside
  obtain ⟨record, inside, rfl⟩ := inside
  split at isSelected
  · exact Or.inr (before.present (present i isSelected))
  · split at inside
    · exact Or.inl ⟨record, inside, isSelected⟩
    · rcases List.mem_append.mp inside with inside | isNew
      · exact Or.inl ⟨record, inside, isSelected⟩
      · simp [List.mem_singleton.mp isNew] at isSelected

/-- A transaction that is sent names no transfer that has been dropped. -/
def KnowsSent (s : WalletState Hash Key Asset) (request : TransferRequest Hash Key Asset) : Prop :=
  ∀ tx, request.fate = .sent tx → KnowsProposal s tx

theorem meets_finalizeTransfer {settings : Settings Asset}
    {request : TransferRequest Hash Key Asset} {selected : List ℕ} {s : WalletState Hash Key Asset}
    (knows : KnowsSent s request) (present : ∀ i ∈ selected, Present s i) :
    Meets (Extends s) Failure.IsHarmless (finalizeTransfer settings request selected s) := by
  have refused : Meets (Extends s) Failure.IsHarmless (some Failure.other, s) :=
    meets_thrown (Extends.refl s) (by simp [Failure.IsHarmless])
  rw [finalizeTransfer]
  split
  · split
    · exact refused
    · split
      · exact refused
      · exact meets_markSelected present
  · apply meets_thenDo (M := Extends s) (meets_markSelected present) fun _ after => after
    intro s' before
    split
    · exact meets_thrown (before.trans (extends_clearTransferFlags _ _ _))
        (by simp [Failure.IsHarmless])
    · next tx sent =>
        have added := meets_addSentUnconfirmedTx settings ((knows tx sent).extends before)
          fun i isSelected => before.present (present i isSelected)
        cases answer : addSentUnconfirmedTx settings tx selected s' with
        | mk thrown s'' =>
            rw [answer] at added
            have after : Extends s s'' := before.trans added.left
            cases thrown with
            | none => exact meets_returned after
            | some failure =>
                exact meets_thrown (after.trans (extends_clearTransferFlags _ _ _))
                  (added.thrown failure rfl)
    · exact meets_returned before

theorem meets_transfer {settings : Settings Asset} {request : TransferRequest Hash Key Asset}
    {s : WalletState Hash Key Asset} (inOrder : InOrder s) (knows : KnowsSent s request) :
    Meets (Extends s) Failure.IsHarmless (transfer settings request s) := by
  have refused : ∀ s', Extends s s' →
      Meets (Extends s) Failure.IsHarmless (some Failure.other, s') :=
    fun s' after => meets_thrown after (by simp [Failure.IsHarmless])
  rw [transfer]
  split
  · exact refused s (Extends.refl s)
  · split
    · exact refused s (Extends.refl s)
    · next fate _ =>
        dsimp only
        let prepared := prepareFreeTransfersCache settings request.fakeOutputsCount s
        have before : Extends s prepared := extends_prepareFreeTransfersCache settings _ s
        have cached := (inOrder.extends before).cached
        have answers :=
          selectIndicesForTransfer_answers settings prepared request.needed request.needAtLeast1Zc
          request.fakeOutputsCount fun assetId entry inside =>
            cached entry.2 ⟨assetId, entry, inside, rfl⟩
        rcases answers_cases answers with
          ⟨failure, harmless, answer⟩ | ⟨selection, answer, fewer, selected⟩
        · rw [selectTransfers, answer]
          exact meets_thrown (before.trans (extends_clearFreeAmounts _)) harmless
        · rw [selectTransfers, answer]
          dsimp only
          have selecting : Extends s { prepared with foundFreeAmounts := selection.free } :=
            before.trans
              (extends_of_eq rfl rfl rfl (fun _ => id) (fun _ => Or.inl) (fun _ => Or.inl)
              fun i isCached => Or.inl (fewer i isCached))
          split
          · exact refused _ (selecting.trans (extends_clearFreeAmounts _))
          · split
            · exact refused _ (selecting.trans (extends_clearFreeAmounts _))
            · exact refused _ selecting
            · apply (meets_finalizeTransfer _ _).imp (fun _ after => selecting.trans after)
                fun _ harmless => harmless
              · exact fun tx sent => (knows tx sent).extends selecting
              · exact fun i isSelected => cached i (selected i isSelected)

end Sending

/-! ## Operations that remove transfers -/

/-- The references are in order after transfers were removed if those that are left
have their transfer. -/
theorem InOrder.removed {s s' : WalletState Hash Key Asset} (inOrder : InOrder s)
    (transfers : ∀ i td', s'.transfers.find? i = some td' →
      ∃ td, s.transfers.find? i = some td ∧ td'.identity = td.identity)
    (keyImages : ∀ keyImage i, s'.keyImages keyImage = some i → s.keyImages keyImage = some i)
    (amountGindexes : ∀ p i, s'.amountGindexToTransferId p = some i →
      s.amountGindexToTransferId p = some i)
    (lookedUp : ∀ i, IsLookedUp s' i → i < s'.transfers.next)
    (selected : ∀ i, IsSelected s' i → Present s' i) (locked : ∀ i, IsLocked s' i → Present s' i)
    (cached : ∀ i, IsCached s' i → Present s' i)
    (recorded : ∀ i, ¬IsRecorded s' i) : InOrder s' where
  keyImage := by
    intro keyImage i td' designated found
    obtain ⟨td, foundBefore, same⟩ := transfers i td' found
    rw [keyImage_of_identity same]
    exact inOrder.keyImage keyImage i td (keyImages keyImage i designated) foundBefore
  amountGindex := by
    intro p i td' designated found
    obtain ⟨td, foundBefore, same⟩ := transfers i td' found
    rw [gindex_of_identity same]
    exact inOrder.amountGindex p i td (amountGindexes p i designated) foundBefore
  lookedUp := lookedUp
  selected := selected
  locked := locked
  cached := cached
  recorded := recorded

/-- Nothing that outlives a synchronization anew refers to a transfer. -/
structure NothingPending (s : WalletState Hash Key Asset) : Prop where
  selected : ∀ i, ¬IsSelected s i
  cached : ∀ i, ¬IsCached s i

theorem inOrder_resync {s : WalletState Hash Key Asset}
    (nothing : NothingPending s) : InOrder s.resync := by
  have new : InOrder (WalletState.new s.coreTime : WalletState Hash Key Asset) :=
    inOrder_new s.coreTime
  exact {
    keyImage := new.keyImage
    amountGindex := new.amountGindex
    lookedUp := new.lookedUp
    selected := fun i selected => absurd selected (nothing.selected i)
    locked := new.locked
    cached := fun i cached => absurd cached (nothing.cached i)
    recorded := new.recorded }

/-- The transfers that a wallet in concise mode drops are not stored elsewhere, and of the transfers
that are looked up the last one stays. -/
structure TruncationKeeps (settings : Settings Asset) (s : WalletState Hash Key Asset) : Prop where
  stored : ∀ i td, s.transfers.find? i = some td → isTruncated settings s td = true →
    ¬IsSelected s i ∧ ¬IsLocked s i ∧ ¬IsCached s i
  lookedUp : ∀ i, IsLookedUp s i →
    ∃ j td, s.transfers.find? j = some td ∧ isTruncated settings s td = false ∧ i ≤ j

theorem find?_truncateWallet {settings : Settings Asset} {s : WalletState Hash Key Asset} {i : ℕ}
    {td : TransferDetails Hash Key Asset} :
    (truncateWallet settings s).transfers.find? i = some td ↔
      s.transfers.find? i = some td ∧ isTruncated settings s td = false := by
  rw [truncateWallet, IndexedTable.find?_filter_eq_some, Bool.not_eq_true']

/-- Dropping transfers leaves the references in order exactly if it drops none
that is referred to. -/
theorem inOrder_truncateWallet_iff {settings : Settings Asset} {s : WalletState Hash Key Asset}
    (inOrder : InOrder s) :
    InOrder (truncateWallet settings s) ↔ TruncationKeeps settings s := by
  constructor
  · intro after
    have notTruncated : ∀ i td, s.transfers.find? i = some td →
        Present (truncateWallet settings s) i →
        isTruncated settings s td = false := by
      intro i td found inside
      obtain ⟨td', found'⟩ := inside
      rw [find?_truncateWallet, found] at found'
      exact Option.some.inj found'.1 ▸ found'.2
    constructor
    · intro i td found truncated
      refine ⟨fun selected => ?_, fun locked => ?_, fun cached => ?_⟩
      · simp [notTruncated i td found (after.selected i selected)] at truncated
      · simp [notTruncated i td found (after.locked i locked)] at truncated
      · simp [notTruncated i td found (after.cached i cached)] at truncated
    · intro i lookedUp
      have below : i < (truncateWallet settings s).transfers.next := after.lookedUp i lookedUp
      by_contra nothingStays
      have bound : (truncateWallet settings s).transfers.next ≤ i := by
        apply IndexedTable.next_le_of_forall
        intro j td found
        rw [find?_truncateWallet] at found
        by_contra above
        exact nothingStays ⟨j, td, found.1, found.2, by omega⟩
      omega
  · intro keeps
    have present : ∀ i, Present s i →
        ¬(∃ td, s.transfers.find? i = some td ∧ isTruncated settings s td = true) →
        Present (truncateWallet settings s) i := by
      intro i ⟨td, found⟩ stays
      refine ⟨td, find?_truncateWallet.mpr ⟨found, ?_⟩⟩
      simpa using fun truncated => stays ⟨td, found, truncated⟩
    apply inOrder.removed
    · intro i td found
      exact ⟨td, (find?_truncateWallet.mp found).1, rfl⟩
    · exact fun _ _ designated => designated
    · exact fun _ _ designated => designated
    · intro i lookedUp
      obtain ⟨j, td, found, stays, le⟩ := keeps.lookedUp i lookedUp
      have := IndexedTable.lt_next (find?_truncateWallet.mpr ⟨found, stays⟩)
      omega
    · exact fun i selected => present i (inOrder.selected i selected)
        fun ⟨td, found, truncated⟩ => (keeps.stored i td found truncated).1 selected
    · exact fun i locked => present i (inOrder.locked i locked)
        fun ⟨td, found, truncated⟩ => (keeps.stored i td found truncated).2.1 locked
    · exact fun i cached => present i (inOrder.cached i cached)
        fun ⟨td, found, truncated⟩ => (keeps.stored i td found truncated).2.2 cached
    · intro i member
      obtain ⟨wti, inside, isSelected⟩ := member
      apply inOrder.recorded i
      rw [truncateWallet] at inside
      dsimp only at inside
      split at inside
      · exact ⟨wti, List.mem_of_mem_drop inside, isSelected⟩
      · exact ⟨wti, inside, isSelected⟩

/-- What forgetting transfers changes: entries of the lookup tables go. -/
structure Forgotten (s s' : WalletState Hash Key Asset) : Prop where
  transfers : s'.transfers = s.transfers
  keyImages : ∀ keyImage i, s'.keyImages keyImage = some i → s.keyImages keyImage = some i
  amountGindexes : ∀ p i, s'.amountGindexToTransferId p = some i →
    s.amountGindexToTransferId p = some i
  unconfirmedTxs : s'.unconfirmedTxs = s.unconfirmedTxs
  moneyExpirations : s'.moneyExpirations = s.moneyExpirations
  foundFreeAmounts : s'.foundFreeAmounts = s.foundFreeAmounts
  transferHistory : s'.transferHistory = s.transferHistory

/-- No entry of a lookup table designates the row any more. -/
def IsForgotten (s : WalletState Hash Key Asset)
    (row : ℕ × TransferDetails Hash Key Asset) : Prop :=
  (∀ keyImage, row.2.keyImage = some keyImage → s.keyImages keyImage = none) ∧
    ∀ p, s.amountGindexToTransferId p ≠ some row.1

theorem Forgotten.refl (s : WalletState Hash Key Asset) : Forgotten s s :=
  ⟨rfl, fun _ _ => id, fun _ _ => id, rfl, rfl, rfl, rfl⟩

theorem Forgotten.trans {s s' s'' : WalletState Hash Key Asset} (first : Forgotten s s')
    (second : Forgotten s' s'') :
    Forgotten s s'' where
  transfers := second.transfers.trans first.transfers
  keyImages :=
    fun keyImage i designated => first.keyImages keyImage i (second.keyImages keyImage i designated)
  amountGindexes :=
    fun p i designated => first.amountGindexes p i (second.amountGindexes p i designated)
  unconfirmedTxs := second.unconfirmedTxs.trans first.unconfirmedTxs
  moneyExpirations := second.moneyExpirations.trans first.moneyExpirations
  foundFreeAmounts := second.foundFreeAmounts.trans first.foundFreeAmounts
  transferHistory := second.transferHistory.trans first.transferHistory

theorem Forgotten.extends_ {s s' : WalletState Hash Key Asset}
    (forgotten : Forgotten s s') : Extends s s' where
  kept := fun _ td found => ⟨td, forgotten.transfers ▸ found, rfl⟩
  new := fun _ ⟨td, found⟩ => Or.inl ⟨td, forgotten.transfers ▸ found⟩
  keyImages := fun keyImage i designated => Or.inl (forgotten.keyImages keyImage i designated)
  amountGindexes := fun p i designated => Or.inl (forgotten.amountGindexes p i designated)
  selected :=
    fun _ ⟨utx, inside, selected⟩ => Or.inl ⟨utx, forgotten.unconfirmedTxs ▸ inside, selected⟩
  locked :=
    fun _ ⟨entry, inside, locked⟩ => Or.inl ⟨entry, forgotten.moneyExpirations ▸ inside, locked⟩
  cached := fun _ ⟨assetId, entry, inside, isIndex⟩ =>
    Or.inl ⟨assetId, entry, forgotten.foundFreeAmounts ▸ inside, isIndex⟩
  recorded := fun _ ⟨wti, inside, selected⟩ => ⟨wti, forgotten.transferHistory ▸ inside, selected⟩

theorem IsForgotten.later {s s' : WalletState Hash Key Asset}
    {row : ℕ × TransferDetails Hash Key Asset} (isForgotten : IsForgotten s row)
    (forgotten : Forgotten s s') : IsForgotten s' row := by
  constructor
  · intro keyImage isKeyImage
    cases designated : s'.keyImages keyImage with
    | none => rfl
    | some i =>
        have := forgotten.keyImages keyImage i designated
        rw [isForgotten.1 keyImage isKeyImage] at this
        contradiction
  · exact fun p designated => isForgotten.2 p (forgotten.amountGindexes p row.1 designated)

theorem mem_detachedHistory {includingHeight : ℕ} {history : List (TransferInfo Hash Key)}
    {wti : TransferInfo Hash Key}
    (inside : wti ∈ detachedHistory includingHeight history) : wti ∈ history := by
  rw [detachedHistory, List.mem_reverse] at inside
  exact List.mem_reverse.mp ((List.takeWhile_sublist _).subset inside)

theorem mem_addUnconfirmed [DecidableEq Hash] {unconfirmed records : List (TransferInfo Hash Key)}
    {wti : TransferInfo Hash Key} (inside : wti ∈ records.foldl addUnconfirmed unconfirmed) :
    wti ∈ unconfirmed ∨ wti ∈ records := by
  induction records generalizing unconfirmed with
  | nil => exact Or.inl inside
  | cons record records inductionHypothesis =>
      cases inductionHypothesis inside with
      | inr later => exact Or.inr (List.mem_cons_of_mem _ later)
      | inl earlier =>
          rw [addUnconfirmed] at earlier
          grind

/-- The transfers that a reorganization removes are not stored elsewhere, and of the transfers that
are looked up and stay the last one is in the table. -/
structure DetachmentKeeps (s : WalletState Hash Key Asset) (includingHeight : ℕ) : Prop where
  stored : ∀ row ∈ detachedTransfers includingHeight s.transfers,
    ¬IsSelected s row.1 ∧ ¬IsLocked s row.1 ∧ ¬IsCached s row.1
  lookedUp : ∀ i, IsLookedUp s i →
    (∃ td, (i, td) ∈ detachedTransfers includingHeight s.transfers) ∨
      ∃ j td, (keptTransfers includingHeight s.transfers).find? j = some td ∧ i ≤ j

theorem identity_of_kept {includingHeight : ℕ}
    {transfers : IndexedTable (TransferDetails Hash Key Asset)} {i : ℕ}
    {td' : TransferDetails Hash Key Asset}
    (kept : (keptTransfers includingHeight transfers).find? i = some td') :
    ∃ td, transfers.find? i = some td ∧ td'.identity = td.identity := by
  rw [keptTransfers, IndexedTable.find?_map, Option.map_eq_some_iff] at kept
  obtain ⟨td, found, rfl⟩ := kept
  refine ⟨td, IndexedTable.find?_takeWhile_of_found found, ?_⟩
  split
  · rfl
  · rfl

/-- A transfer is kept unless it is detached. -/
theorem kept_of_not_detached {includingHeight : ℕ}
    {transfers : IndexedTable (TransferDetails Hash Key Asset)} {i : ℕ}
    {td : TransferDetails Hash Key Asset} (found : transfers.find? i = some td)
    (stays : (i, td) ∉ detachedTransfers includingHeight transfers) :
    ∃ td', (keptTransfers includingHeight transfers).find? i = some td' := by
  cases IndexedTable.find?_cases (p := fun td => td.blockHeight < includingHeight) found with
  | inl kept => exact ⟨_, by rw [keptTransfers, IndexedTable.find?_map, kept, Option.map_some]⟩
  | inr detached => exact absurd detached stays

/-- Transfers that are left were there before. -/
def Shrinks (s s' : WalletState Hash Key Asset) : Prop :=
  ∀ i td', s'.transfers.find? i = some td' →
    ∃ td, s.transfers.find? i = some td ∧ td'.identity = td.identity

variable [DecidableEq Key]

theorem forgetTransfer_cases (settings : Settings Asset) (includingHeight : ℕ)
    (s : WalletState Hash Key Asset) (row : ℕ × TransferDetails Hash Key Asset) :
    forgetTransfer settings includingHeight s row = (some .other, s) ∨
      ∃ s', forgetTransfer settings includingHeight s row = (none, s') ∧ Forgotten s s' ∧
        IsForgotten s' row := by
  have fewer : ∀ p i, ((s.amountGindexToTransferId p).filter (· ≠ row.1)) = some i →
      s.amountGindexToTransferId p = some i := by
    intro p i designated
    exact (Option.filter_eq_some_iff.mp designated).1
  have gone : ∀ p, ((s.amountGindexToTransferId p).filter (· ≠ row.1)) ≠ some row.1 := by
    intro p designated
    simpa using (Option.filter_eq_some_iff.mp designated).2
  rw [forgetTransfer]
  dsimp only
  split
  · next isNull =>
      split
      · exact Or.inr ⟨_, rfl,
          ⟨rfl, fun _ _ => id, fewer, rfl, rfl, rfl, rfl⟩, by simp [isNull], gone⟩
      · exact Or.inl rfl
  · next keyImage isKeyImage =>
      split
      · exact Or.inl rfl
      · split
        · exact Or.inl rfl
        · refine Or.inr ⟨_, rfl, ⟨rfl, ?_, fewer, rfl, rfl, rfl, rfl⟩, ?_, gone⟩
          · intro other i designated
            simp only [Function.update_apply] at designated
            split at designated
            · contradiction
            · exact designated
          · intro other isOther
            rw [isKeyImage, Option.some.injEq] at isOther
            simp [isOther]

/-- Either a transfer cannot be forgotten, and nothing is removed, or all of them are. -/
theorem forgetTransfers_cases (settings : Settings Asset) (includingHeight : ℕ)
    (rows : List (ℕ × TransferDetails Hash Key Asset)) (s : WalletState Hash Key Asset) :
    ∃ thrown s', forEach (forgetTransfer settings includingHeight) rows s = (thrown, s') ∧
      Forgotten s s' ∧
      (thrown = some .other ∨ thrown = none ∧ ∀ row ∈ rows, IsForgotten s' row) := by
  induction rows generalizing s with
  | nil => exact ⟨none, s, rfl, Forgotten.refl s, Or.inr ⟨rfl, by simp⟩⟩
  | cons row rows inductionHypothesis =>
      rw [forEach]
      rcases forgetTransfer_cases settings includingHeight s row with
        refused | ⟨next, answer, first, isForgotten⟩
      · rw [refused]
        exact ⟨_, s, rfl, Forgotten.refl s, Or.inl rfl⟩
      · rw [answer]
        obtain ⟨thrown, s', rest, later, outcome⟩ := inductionHypothesis next
        refine ⟨thrown, s', rest, first.trans later, ?_⟩
        cases outcome with
        | inl refused => exact Or.inl refused
        | inr all =>
            exact Or.inr ⟨all.1, List.forall_mem_cons.mpr ⟨isForgotten.later later, all.2⟩⟩

variable [DecidableEq Hash]

theorem inOrder_detachBlockchain (settings : Settings Asset) {includingHeight : ℕ}
    {s : WalletState Hash Key Asset} (inOrder : InOrder s)
    (keeps : DetachmentKeeps s includingHeight) :
    let outcome := detachBlockchain settings includingHeight s
    InOrder outcome.2 ∧ Shrinks s outcome.2 ∧ outcome.1 ≠ some .storedIndex := by
  obtain ⟨thrown, s', answer, forgotten, outcome⟩ :=
    forgetTransfers_cases settings includingHeight (detachedTransfers includingHeight s.transfers) s
  rw [detachBlockchain]
  dsimp only
  rw [answer]
  rcases outcome with refused | ⟨returned, all⟩
  · subst refused
    exact ⟨inOrder.extends forgotten.extends_,
      fun i td found => ⟨td, forgotten.transfers ▸ found, rfl⟩, by simp [thenDo]⟩
  · subst returned
    rw [thenDo]
    dsimp only
    rw [forgotten.transfers]
    have notDetached : ∀ i td, IsLookedUp s' i →
        (i, td) ∉ detachedTransfers includingHeight s.transfers := by
      intro i td lookedUp detached
      have found := IndexedTable.find?_of_mem_dropWhile detached
      rcases lookedUp with ⟨keyImage, designated⟩ | ⟨p, designated⟩
      · have own := inOrder.keyImage keyImage i td (forgotten.keyImages keyImage i designated) found
        have := (all _ detached).1 keyImage own
        rw [designated] at this
        contradiction
      · exact (all _ detached).2 p designated
    refine ⟨?_, fun i td' kept => identity_of_kept kept, by simp⟩
    apply inOrder.removed
    · exact fun i td' kept => identity_of_kept kept
    · exact forgotten.keyImages
    · exact forgotten.amountGindexes
    · intro i lookedUp
      have lookedUpBefore : IsLookedUp s i := by
        rcases lookedUp with ⟨keyImage, designated⟩ | ⟨p, designated⟩
        · exact Or.inl ⟨keyImage, forgotten.keyImages keyImage i designated⟩
        · exact Or.inr ⟨p, forgotten.amountGindexes p i designated⟩
      rcases keeps.lookedUp i lookedUpBefore with ⟨td, detached⟩ | ⟨j, td, kept, le⟩
      · exact absurd detached (notDetached i td lookedUp)
      · exact lt_of_le_of_lt le (IndexedTable.lt_next kept)
    · intro i member
      obtain ⟨utx, inside, isSelected⟩ := member
      have selected : IsSelected s i := by
        cases mem_addUnconfirmed inside with
        | inl pending => exact ⟨utx, forgotten.unconfirmedTxs ▸ pending, isSelected⟩
        | inr record =>
            exact absurd ⟨utx, forgotten.transferHistory ▸ mem_detachedHistory record,
              isSelected⟩ (inOrder.recorded i)
      obtain ⟨td, found⟩ := inOrder.selected i selected
      exact kept_of_not_detached found fun detached => (keeps.stored _ detached).1 selected
    · intro i member
      obtain ⟨entry, inside, isLocked⟩ := member
      have locked : IsLocked s i := ⟨entry, forgotten.moneyExpirations ▸ inside, isLocked⟩
      obtain ⟨td, found⟩ := inOrder.locked i locked
      exact kept_of_not_detached found fun detached => (keeps.stored _ detached).2.1 locked
    · intro i member
      obtain ⟨assetId, entry, inside, isIndex⟩ := member
      have cached : IsCached s i := ⟨assetId, entry, forgotten.foundFreeAmounts ▸ inside, isIndex⟩
      obtain ⟨td, found⟩ := inOrder.cached i cached
      exact kept_of_not_detached found fun detached => (keeps.stored _ detached).2.2 cached
    · intro i member
      obtain ⟨wti, inside, isSelected⟩ := member
      exact inOrder.recorded i
        ⟨wti, forgotten.transferHistory ▸ List.mem_of_mem_take inside, isSelected⟩

/-! ## Runs -/

/-- What a step must not do to indexes: give one to an output while something refers to it, or give
the index of an output to another. -/
structure Stable (s s' : WalletState Hash Key Asset) : Prop where
  fresh : ∀ i, ¬Present s i → Present s' i → ¬IsReferred s i
  same : ∀ i td td', s.transfers.find? i = some td → s'.transfers.find? i = some td' →
    td'.output = td.output

omit [DecidableEq Hash] [DecidableEq Key] in
theorem stable_of_extends {s t s' : WalletState Hash Key Asset} (inOrder : InOrder s)
    (extends_ : Extends s t) (shrinks : Shrinks t s') : Stable s s' where
  fresh := by
    intro i absent ⟨td', found⟩ referred
    obtain ⟨td, found, _⟩ := shrinks i td' found
    cases extends_.new i ⟨td, found⟩ with
    | inl present => exact absent present
    | inr above => have := inOrder.lt_next referred; omega
  same := by
    intro i td td' found found'
    obtain ⟨middle, foundMiddle, same'⟩ := shrinks i td' found'
    obtain ⟨middle', foundMiddle', same⟩ := extends_.kept i td found
    rw [output_of_identity same', Option.some.inj (foundMiddle.symm.trans foundMiddle'),
      output_of_identity same]

variable [DecidableEq Asset]

/-- The condition on blocks: nothing that is still referred to is removed, and proposals name no
transfer that has been dropped. -/
def EventKeeps (settings : Settings Asset) (s : WalletState Hash Key Asset) :
    BlockEvent Hash Key Asset → Prop
  | .transaction _ tx => KnowsProposal s tx ∧ (SpendsDropped s tx → NothingPending s)
  | .pushed _ => True
  | .reorganization lastMatchedIndex =>
      if needsResync settings s lastMatchedIndex then NothingPending s
      else DetachmentKeeps s (lastMatchedIndex + 1)

theorem handleEvent_keeps {settings : Settings Asset} {s : WalletState Hash Key Asset}
    {event : BlockEvent Hash Key Asset} (inOrder : InOrder s)
    (keeps : EventKeeps settings s event) :
    let outcome := handleEvent settings s event
    InOrder outcome.2 ∧ Stable s outcome.2 ∧ outcome.1 ≠ some .storedIndex := by
  have resyncs : Shrinks s s.resync := by
    intro i td' found
    simp [WalletState.resync, WalletState.new] at found
  cases event with
  | pushed height =>
      have extends_ : Extends s { s with blockchainSize := height + 1 } :=
        extends_of_eq rfl rfl rfl (fun _ => id) (fun _ => Or.inl) (fun _ => Or.inl) fun _ => Or.inl
      exact ⟨inOrder.extends extends_,
        stable_of_extends inOrder extends_ fun _ td found => ⟨td, found, rfl⟩,
          by simp [handleEvent]⟩
  | reorganization lastMatchedIndex =>
      simp only [EventKeeps] at keeps
      simp only [handleEvent]
      split
      · next needed =>
          rw [if_pos needed] at keeps
          exact ⟨inOrder_resync keeps, stable_of_extends inOrder (Extends.refl s) resyncs, by simp⟩
      · next notNeeded =>
          rw [if_neg notNeeded] at keeps
          obtain ⟨after, shrinks, notStored⟩ := inOrder_detachBlockchain settings inOrder keeps
          exact ⟨after, stable_of_extends inOrder (Extends.refl s) shrinks, notStored⟩
  | transaction height tx =>
      obtain ⟨extends_, notStored, refused⟩ :=
        meets_processNewTransaction settings height keeps.1
      simp only [handleEvent]
      cases answer : processNewTransaction settings height s tx with
      | mk thrown s' =>
          rw [answer] at extends_ notStored refused
          by_cases isResync : thrown = some .resyncNeeded
          · subst isResync
            obtain ⟨spendsDropped, pending⟩ := refused rfl
            have nothing := keeps.2 spendsDropped
            have nothingLeft : NothingPending s' := by
              constructor
              · exact fun i ⟨utx, inside, isSelected⟩ =>
                  nothing.selected i ⟨utx, pending.1 utx inside, isSelected⟩
              · exact fun i ⟨assetId, entry, inside, isIndex⟩ =>
                  nothing.cached i ⟨assetId, entry, pending.2 ▸ inside, isIndex⟩
            refine ⟨inOrder_resync nothingLeft,
              stable_of_extends inOrder extends_ ?_, by simp [resyncIfNeeded]⟩
            intro i td' found
            simp [resyncIfNeeded, WalletState.resync, WalletState.new] at found
          · have unchanged : resyncIfNeeded (thrown, s') = (thrown, s') := by
              rw [resyncIfNeeded]
              simpa using isResync
            rw [unchanged]
            exact ⟨inOrder.extends extends_,
              stable_of_extends inOrder extends_ fun _ td found => ⟨td, found, rfl⟩, notStored⟩

/-- The states between which a refresh takes its steps. -/
def eventMoves (settings : Settings Asset) :
    List (BlockEvent Hash Key Asset) → WalletState Hash Key Asset →
      List (WalletState Hash Key Asset × WalletState Hash Key Asset)
  | [], _ => []
  | event :: events, s =>
      match handleEvent settings s event with
      | (none, next) => (s, next) :: eventMoves settings events next
      | (some _, stopped) => [(s, stopped)]

/-- The steps of a request: one for each event of a refresh and one for its end, or else one. -/
def moves (settings : Settings Asset) (s : WalletState Hash Key Asset)
    (request : Request Hash Key Asset) :
    List (WalletState Hash Key Asset × WalletState Hash Key Asset) :=
  match request with
  | .refresh events _ =>
      eventMoves settings events s ++
        [((forEach (handleEvent settings) events s).2, (perform settings s request).2)]
  | _ => [(s, (perform settings s request).2)]

/-- The condition on requests. The transfers that are dropped at the end of a refresh are not
referred to either. -/
def RequestKeeps (settings : Settings Asset) (s : WalletState Hash Key Asset) :
    Request Hash Key Asset → Prop
  | .refresh events ending =>
      Transition.Guarded (asStep (handleEvent settings)) (EventKeeps settings) s events ∧
        match ending with
        | .atOnce => True
        | .afterBlocks median medianAgain => ∀ t,
            thenDo (forEach (handleEvent settings) events s)
              (releaseOutdated settings median medianAgain) = (none, t) →
              TruncationKeeps settings t.clearFreeAmounts
  | .scanTxPool _ txs => ∀ tx ∈ txs, KnowsProposal s tx
  | .transfer request => KnowsSent s request
  | .tick _ => True

theorem eventMoves_keep {settings : Settings Asset} {events : List (BlockEvent Hash Key Asset)}
    {s : WalletState Hash Key Asset} (inOrder : InOrder s)
    (guarded : Transition.Guarded (asStep (handleEvent settings)) (EventKeeps settings) s events) :
    ∀ move ∈ eventMoves settings events s, Stable move.1 move.2 ∧ InOrder move.2 := by
  induction events generalizing s with
  | nil => simp [eventMoves]
  | cons event events inductionHypothesis =>
      have first := handleEvent_keeps inOrder guarded.1
      rw [eventMoves]
      cases answer : handleEvent settings s event with
      | mk thrown next =>
          rw [answer] at first
          cases thrown with
          | none =>
              exact List.forall_mem_cons.mpr ⟨⟨first.2.1, first.1⟩,
                inductionHypothesis first.1 (guarded.2 next (by rw [asStep, answer]))⟩
          | some failure => exact List.forall_mem_cons.mpr ⟨⟨first.2.1, first.1⟩, by simp⟩

theorem meets_handleEvents {settings : Settings Asset} {events : List (BlockEvent Hash Key Asset)}
    {s : WalletState Hash Key Asset} (inOrder : InOrder s)
    (guarded : Transition.Guarded (asStep (handleEvent settings)) (EventKeeps settings) s events) :
    Meets InOrder (· ≠ .storedIndex) (forEach (handleEvent settings) events s) := by
  apply meets_forEach_of_guarded inOrder guarded
  intro s event inOrder keeps
  obtain ⟨after, _, notStored⟩ := handleEvent_keeps inOrder keeps
  exact ⟨after, fun failure thrown isStored => notStored (isStored ▸ thrown)⟩

/-- One request keeps the references in order, with every step that it takes. -/
theorem perform_keeps {settings : Settings Asset} {s : WalletState Hash Key Asset}
    {request : Request Hash Key Asset} (inOrder : InOrder s)
    (keeps : RequestKeeps settings s request) :
    InOrder (perform settings s request).2 ∧ (perform settings s request).1 ≠ some .storedIndex ∧
      ∀ move ∈ moves settings s request, Stable move.1 move.2 ∧ InOrder move.2 := by
  have extending : ∀ outcome : Outcome Failure (WalletState Hash Key Asset),
      Meets (Extends s) Failure.IsHarmless outcome →
        InOrder outcome.2 ∧ outcome.1 ≠ some .storedIndex ∧ Stable s outcome.2 := by
    intro outcome meets
    refine ⟨inOrder.extends meets.left, fun isStored => (meets.thrown _ isStored).1 rfl, ?_⟩
    exact stable_of_extends inOrder meets.left fun _ td found => ⟨td, found, rfl⟩
  have single : ∀ outcome : Outcome Failure (WalletState Hash Key Asset),
      Meets (Extends s) Failure.IsHarmless outcome →
        InOrder outcome.2 ∧ outcome.1 ≠ some .storedIndex ∧
          ∀ move ∈ [(s, outcome.2)], Stable move.1 move.2 ∧ InOrder move.2 := by
    intro outcome meets
    obtain ⟨after, notStored, stable⟩ := extending outcome meets
    exact ⟨after, notStored, by simp [stable, after]⟩
  cases request with
  | scanTxPool median txs => exact single _ (meets_scanTxPool keeps)
  | transfer request => exact single _ (meets_transfer inOrder keeps)
  | tick coreTime =>
      exact single (none, { s with coreTime := coreTime })
        (meets_returned (extends_of_eq rfl rfl rfl (fun _ => id) (fun _ => Or.inl) (fun _ => Or.inl)
          fun _ => Or.inl))
  | refresh events ending =>
      obtain ⟨guarded, truncation⟩ := keeps
      have blocks := meets_handleEvents inOrder guarded
      have steps := eventMoves_keep inOrder guarded
      suffices ending_ : InOrder (refresh settings events ending s).2 ∧
          (refresh settings events ending s).1 ≠ some .storedIndex ∧
            Stable (forEach (handleEvent settings) events s).2
              (refresh settings events ending s).2 by
        refine ⟨ending_.1, ending_.2.1, ?_⟩
        intro move inside
        rcases List.mem_append.mp inside with step | last
        · exact steps move step
        · rw [List.mem_singleton.mp last]
          exact ⟨ending_.2.2, ending_.1⟩
      cases answer : forEach (handleEvent settings) events s with
      | mk thrown t =>
          rw [answer] at blocks
          have stays : Stable t t :=
            stable_of_extends blocks.left (Extends.refl t) fun _ td found => ⟨td, found, rfl⟩
          cases ending with
          | atOnce =>
              rw [refresh, answer]
              exact ⟨blocks.left, fun isStored => blocks.thrown _ isStored rfl, stays⟩
          | afterBlocks median medianAgain =>
              dsimp only [refresh] at truncation ⊢
              rw [answer] at truncation ⊢
              cases thrown with
              | some failure =>
                  exact ⟨blocks.left, fun isStored => blocks.thrown _ isStored rfl, stays⟩
              | none =>
                  have released := meets_releaseOutdated settings median medianAgain blocks.left
                  dsimp only [thenDo, finishRefresh] at truncation ⊢
                  cases answer' : releaseOutdated settings median medianAgain t with
                  | mk thrown' u =>
                      rw [answer'] at released
                      cases thrown' with
                      | some failure =>
                          exact ⟨blocks.left.extends released.left,
                            fun isStored => (released.thrown _ isStored).1 rfl,
                            stable_of_extends blocks.left released.left fun _ td found =>
                              ⟨td, found, rfl⟩⟩
                      | none =>
                          have cleared : Extends t u.clearFreeAmounts :=
                            released.left.trans (extends_clearFreeAmounts u)
                          have before := blocks.left.extends cleared
                          refine ⟨(inOrder_truncateWallet_iff before).mpr
                            (truncation u answer'), by simp, ?_⟩
                          exact stable_of_extends blocks.left cleared fun i td found =>
                            ⟨td, (find?_truncateWallet.mp found).1, rfl⟩

/-- Indexes of transfers are identities in every run in which nothing that is referred to is
removed: lookups designate the right transfers, stored indexes have theirs and make nothing throw,
and an index is given out only when nothing refers to it. -/
theorem indexes_stay_identities (settings : Settings Asset) (coreTime : ℕ)
    (requests : List (Request Hash Key Asset))
    (keeps : Transition.Guarded (step settings) (RequestKeeps settings) (.new coreTime) requests)
    {s : WalletState Hash Key Asset}
    (ran : Transition.run (step settings) (.new coreTime) requests = some s) :
    InOrder s ∧ (∀ i, s.transfers.next ≤ i → ¬IsReferred s i) ∧
      ∀ request, RequestKeeps settings s request →
        (perform settings s request).1 ≠ some .storedIndex ∧
          ∀ move ∈ moves settings s request, Stable move.1 move.2 ∧ InOrder move.2 := by
  have inOrder : InOrder s := by
    apply Transition.invariant_of_run _ (inOrder_new coreTime) keeps ran
    intro s request next inOrder keeps stepped
    cases stepped
    exact (perform_keeps inOrder keeps).1
  refine ⟨inOrder, fun i above referred => ?_, fun request keeps => (perform_keeps inOrder keeps).2⟩
  have := inOrder.lt_next referred
  omega

/-- A wallet in concise mode that drops what was spent two blocks ago. -/
private def conciseSettings : Settings ℕ where
  native := 0
  isAuditable := false
  isWatchOnly := false
  conciseMode := true
  conciseModeMaxReorgBlocks := 1
  truncateHistoryMaxEntries := 0
  doNotUnlockReservedOnIdle := false
  hf4MinimumMixins := 15
  hf4Active := fun _ => false

private def payment (hash : ℕ) (inputs : List (TxIn ℕ))
    (outs : List (TxOut ℕ ℕ)) : WalletTx ℕ ℕ ℕ where
  hash := hash
  version := 1
  isCoinbase := false
  expirationTime := 0
  timestamp := 0
  inputs := inputs
  outs := outs
  isRelated := true
  hasOutgoingEntries := false
  proposal := none

private def bareOutput (index keyImage : ℕ) : TxOut ℕ ℕ :=
  ⟨index, 5, none, 0, 0, keyImage, false, keyImage, none⟩

/-- Outputs with the key images 10 and 11 are received, and the one with this key image is spent in
block 2 and dropped after block 4. -/
private def spendingRun (keyImage : ℕ) : List (Request ℕ ℕ ℕ) :=
  [.refresh [.transaction 1 (payment 1 [] [bareOutput 0 10, bareOutput 1 11]), .pushed 1]
      (.afterBlocks (some 0) (some 0)),
    .refresh [.transaction 2 (payment 2 [⟨false, 5, keyImage, []⟩] []), .pushed 2, .pushed 3,
      .pushed 4]
      (.afterBlocks (some 0) (some 0))]

/-- The second one is dropped, and another output is received. -/
private def reusingRun : List (Request ℕ ℕ ℕ) :=
  spendingRun 11 ++
    [.refresh [.transaction 5 (payment 3 [] [bareOutput 0 12]),
      .pushed 5] (.afterBlocks (some 0) (some 0))]

/-- What is dropped of the two is not the second one, and nothing is stored. -/
private theorem truncationKeeps_second {outcome : Option Failure × WalletState ℕ ℕ ℕ}
    {t : WalletState ℕ ℕ ℕ} (ended : outcome = (none, t)) (keyImages : outcome.2.keyImages =
      Function.update (Function.update (fun _ => none) 10 (some 0)) 11 (some 1))
    (amountGindexes : outcome.2.amountGindexToTransferId = fun _ => none)
    (nothingSent : outcome.2.unconfirmedTxs = []) (nothingLocked : outcome.2.moneyExpirations = [])
    (second : ((outcome.2.transfers.find? 1).map (isTruncated conciseSettings outcome.2)) =
      some false) :
    TruncationKeeps conciseSettings t.clearFreeAmounts := by
  subst ended
  constructor
  · intro i td found truncated
    refine ⟨fun ⟨utx, inside, _⟩ => ?_, fun ⟨entry, inside, _⟩ => ?_,
      fun ⟨assetId, entry, inside, _⟩ => ?_⟩
    · rw [show t.clearFreeAmounts.unconfirmedTxs = [] from nothingSent] at inside
      cases inside
    · rw [show t.clearFreeAmounts.moneyExpirations = [] from nothingLocked] at inside
      cases inside
    · cases inside
  · intro i lookedUp
    obtain ⟨td, found, stays⟩ := Option.map_eq_some_iff.mp second
    refine ⟨1, td, found, stays, ?_⟩
    rcases lookedUp with ⟨keyImage, designated⟩ | ⟨p, designated⟩
    · rw [show t.clearFreeAmounts.keyImages = _ from keyImages, Function.update_apply,
        Function.update_apply]
        at designated
      grind
    · rw [show t.clearFreeAmounts.amountGindexToTransferId = _ from amountGindexes] at designated
      cases designated

/-- The first output is dropped. The index of the second one stays above the one that its key image
still designates. -/
theorem indexes_stay_identities_dropped :
    ∃ s, Transition.run (step conciseSettings) (.new 1000000) (spendingRun 10) = some s ∧
      s.transfers.rows.map (·.1) = [1] ∧ InOrder s := by
  refine ⟨_, rfl, by decide,
    (indexes_stay_identities conciseSettings 1000000 (spendingRun 10) ?_ rfl).1⟩
  have noProposal {s : WalletState ℕ ℕ ℕ} {hash : ℕ} {inputs : List (TxIn ℕ)}
      {outs : List (TxOut ℕ ℕ)} :
      KnowsProposal s (payment hash inputs outs) := fun _ isProposal => by cases isProposal
  refine ⟨⟨⟨⟨noProposal, fun ⟨_, inside, _⟩ => by cases inside⟩,
    fun _ _ => ⟨trivial, fun _ _ => trivial⟩⟩, fun t released =>
      truncationKeeps_second released rfl rfl rfl rfl (by decide)⟩, fun s received => ?_⟩
  cases received
  refine ⟨⟨⟨⟨noProposal, fun spendsDropped => ?_⟩,
    fun _ _ => ⟨trivial, fun _ _ => ⟨trivial, fun _ _ =>
    ⟨trivial, fun _ _ => trivial⟩⟩⟩⟩,
    fun t released => truncationKeeps_second released rfl rfl rfl rfl (by decide)⟩,
      fun _ _ => trivial⟩
  obtain ⟨input, inside, i, designated, absent⟩ := spendsDropped
  cases List.mem_singleton.mp inside
  cases (show some 0 = some i from designated)
  exact absurd ⟨_, rfl⟩ absent

/-- The new output gets the index of the one that was dropped, which the key image of the latter
still designates. -/
theorem dropped_index_reused :
    ¬∀ (settings : Settings ℕ) (coreTime : ℕ) (requests : List (Request ℕ ℕ ℕ))
      (s : WalletState ℕ ℕ ℕ),
      Transition.run (step settings) (.new coreTime) requests = some s → InOrder s := by
  intro claim
  have designated : ((Transition.run (step conciseSettings) (.new 1000000) reusingRun).map fun s =>
      (s.keyImages 11, (s.transfers.find? 1).map (·.keyImage))) =
        some (some 1, some (some 12)) := by decide
  obtain ⟨s, ran, parts⟩ := Option.map_eq_some_iff.mp designated
  obtain ⟨designated, found⟩ := Prod.mk.inj parts
  obtain ⟨td, found, isKeyImage⟩ := Option.map_eq_some_iff.mp found
  have := (claim _ _ _ s ran).keyImage 11 1 td designated found
  rw [isKeyImage] at this
  contradiction

end Zano.Wallet
