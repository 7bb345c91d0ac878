import Zano.Wallet.CoinSelection

/-! # What the operations do to the indexes of transfers

The references of a wallet are in order when a lookup by key image or by amount and global index
that finds a transfer finds the one with this key image or index, when no lookup designates an index
that is still to be given out, and when every index that is stored elsewhere has a transfer.

An operation that removes nothing extends the state: transfers keep their index, new ones get
indexes that were not given out, and each reference was there before or is to a transfer that is
there. References stay in order then, whatever else is done.
-/

namespace Zano.Wallet

open Throwing
open Balance
  (flagSpent flagBlocked flagEscrowProposalReservation flagMinedTransfer flagColdSigReservation)

variable {Hash Key Asset : Type*}

/-- What no operation changes in a transfer: which output it is, and what it is looked up by. -/
def TransferDetails.identity (td : TransferDetails Hash Key Asset) :
    (Hash × ℕ) × Option Key × UInt64 × ℕ :=
  (td.output, td.keyImage, td.amountForGlobalOutputIndex, td.globalOutputIndex)

def Present (s : WalletState Hash Key Asset) (i : ℕ) : Prop := ∃ td, s.transfers.find? i = some td

def IsLookedUp (s : WalletState Hash Key Asset) (i : ℕ) : Prop :=
  (∃ keyImage, s.keyImages keyImage = some i) ∨ ∃ p, s.amountGindexToTransferId p = some i

def IsSelected (s : WalletState Hash Key Asset) (i : ℕ) : Prop :=
  ∃ utx ∈ s.unconfirmedTxs, i ∈ utx.selectedIndicies

def IsLocked (s : WalletState Hash Key Asset) (i : ℕ) : Prop :=
  ∃ entry ∈ s.moneyExpirations, i ∈ entry.selectedTransfers

def IsCached (s : WalletState Hash Key Asset) (i : ℕ) : Prop :=
  ∃ assetId, ∃ entry ∈ s.foundFreeAmounts.ofAsset assetId, entry.2 = i

/-- Records of the history become pending transactions again when their block is detached. -/
def IsRecorded (s : WalletState Hash Key Asset) (i : ℕ) : Prop :=
  ∃ wti ∈ s.transferHistory, i ∈ wti.selectedIndicies

/-- Whether anything refers to an index. -/
def IsReferred (s : WalletState Hash Key Asset) (i : ℕ) : Prop :=
  IsLookedUp s i ∨ IsSelected s i ∨ IsLocked s i ∨ IsCached s i

structure InOrder (s : WalletState Hash Key Asset) : Prop where
  keyImage : ∀ keyImage i td, s.keyImages keyImage = some i → s.transfers.find? i = some td →
    td.keyImage = some keyImage
  amountGindex : ∀ p i td, s.amountGindexToTransferId p = some i → s.transfers.find? i = some td →
    (td.amountForGlobalOutputIndex, td.globalOutputIndex) = p
  lookedUp : ∀ i, IsLookedUp s i → i < s.transfers.next
  selected : ∀ i, IsSelected s i → Present s i
  locked : ∀ i, IsLocked s i → Present s i
  cached : ∀ i, IsCached s i → Present s i
  recorded : ∀ i, ¬IsRecorded s i

theorem Present.lt_next {s : WalletState Hash Key Asset} {i : ℕ} (present : Present s i) :
    i < s.transfers.next := by
  obtain ⟨td, found⟩ := present
  exact IndexedTable.lt_next found

/-- An index that is given out next is referred to by nothing. -/
theorem InOrder.lt_next {s : WalletState Hash Key Asset} (inOrder : InOrder s) {i : ℕ}
    (referred : IsReferred s i) :
    i < s.transfers.next := by
  rcases referred with lookedUp | selected | locked | cached
  · exact inOrder.lookedUp i lookedUp
  · exact (inOrder.selected i selected).lt_next
  · exact (inOrder.locked i locked).lt_next
  · exact (inOrder.cached i cached).lt_next

theorem inOrder_new (coreTime : ℕ) :
    InOrder (WalletState.new coreTime : WalletState Hash Key Asset) where
  keyImage := by intro _ _ _ designated; simp [WalletState.new] at designated
  amountGindex := by intro _ _ _ designated; simp [WalletState.new] at designated
  lookedUp := by
    intro i lookedUp
    simp [IsLookedUp, WalletState.new] at lookedUp
  selected := by
    intro i selected
    simp [IsSelected, WalletState.new] at selected
  locked := by
    intro i locked
    simp [IsLocked, WalletState.new] at locked
  cached := by
    intro i cached
    simp [IsCached, WalletState.new, FreeAmounts.empty] at cached
  recorded := by
    intro i recorded
    simp [IsRecorded, WalletState.new] at recorded

/-! ## States that extend others -/

structure Extends (s s' : WalletState Hash Key Asset) : Prop where
  kept : ∀ i td, s.transfers.find? i = some td →
    ∃ td', s'.transfers.find? i = some td' ∧ td'.identity = td.identity
  new : ∀ i, Present s' i → Present s i ∨ s.transfers.next ≤ i
  keyImages : ∀ keyImage i, s'.keyImages keyImage = some i →
    s.keyImages keyImage = some i ∨ ∃ td, s'.transfers.find? i = some td ∧
      td.keyImage = some keyImage
  amountGindexes : ∀ p i, s'.amountGindexToTransferId p = some i →
    s.amountGindexToTransferId p = some i ∨
      ∃ td, s'.transfers.find? i = some td ∧
        (td.amountForGlobalOutputIndex, td.globalOutputIndex) = p
  selected : ∀ i, IsSelected s' i → IsSelected s i ∨ Present s' i
  locked : ∀ i, IsLocked s' i → IsLocked s i ∨ Present s' i
  cached : ∀ i, IsCached s' i → IsCached s i ∨ Present s' i
  recorded : ∀ i, IsRecorded s' i → IsRecorded s i

theorem keyImage_of_identity {td td' : TransferDetails Hash Key Asset}
    (same : td'.identity = td.identity) :
    td'.keyImage = td.keyImage := by
  simp only [TransferDetails.identity, Prod.mk.injEq] at same
  exact same.2.1

theorem gindex_of_identity {td td' : TransferDetails Hash Key Asset}
    (same : td'.identity = td.identity) :
    (td'.amountForGlobalOutputIndex,
      td'.globalOutputIndex) = (td.amountForGlobalOutputIndex, td.globalOutputIndex) := by
  simp only [TransferDetails.identity, Prod.mk.injEq] at same
  exact Prod.ext same.2.2.1 same.2.2.2

theorem output_of_identity {td td' : TransferDetails Hash Key Asset}
    (same : td'.identity = td.identity) :
    td'.output = td.output := by
  simp only [TransferDetails.identity, Prod.mk.injEq] at same
  exact same.1

namespace Extends

variable {s s' s'' : WalletState Hash Key Asset}

theorem present (extends_ : Extends s s') {i : ℕ} (present : Present s i) : Present s' i := by
  obtain ⟨td, found⟩ := present
  obtain ⟨td', found', _⟩ := extends_.kept i td found
  exact ⟨td', found'⟩

theorem next_le (extends_ : Extends s s') : s.transfers.next ≤ s'.transfers.next :=
  IndexedTable.next_le_of_found fun i td found => (extends_.present ⟨td, found⟩ : Present s' i)

theorem refl (s : WalletState Hash Key Asset) : Extends s s where
  kept := fun _ td found => ⟨td, found, rfl⟩
  new := fun _ present => Or.inl present
  keyImages := fun _ _ designated => Or.inl designated
  amountGindexes := fun _ _ designated => Or.inl designated
  selected := fun _ selected => Or.inl selected
  locked := fun _ locked => Or.inl locked
  cached := fun _ cached => Or.inl cached
  recorded := fun _ recorded => recorded

theorem trans (first : Extends s s') (second : Extends s' s'') : Extends s s'' where
  kept := by
    intro i td found
    obtain ⟨td', found', same⟩ := first.kept i td found
    obtain ⟨td'', found'', same'⟩ := second.kept i td' found'
    exact ⟨td'', found'', same'.trans same⟩
  new := by
    intro i present
    cases second.new i present with
    | inl earlier => exact first.new i earlier
    | inr above => exact Or.inr (first.next_le.trans above)
  keyImages := by
    intro keyImage i designated
    cases second.keyImages keyImage i designated with
    | inr new => exact Or.inr new
    | inl earlier =>
        cases first.keyImages keyImage i earlier with
        | inl earliest => exact Or.inl earliest
        | inr new =>
            obtain ⟨td, found, designates⟩ := new
            obtain ⟨td', found', same⟩ := second.kept i td found
            exact Or.inr ⟨td', found', (keyImage_of_identity same).trans designates⟩
  amountGindexes := by
    intro p i designated
    cases second.amountGindexes p i designated with
    | inr new => exact Or.inr new
    | inl earlier =>
        cases first.amountGindexes p i earlier with
        | inl earliest => exact Or.inl earliest
        | inr new =>
            obtain ⟨td, found, designates⟩ := new
            obtain ⟨td', found', same⟩ := second.kept i td found
            exact Or.inr ⟨td', found', (gindex_of_identity same).trans designates⟩
  selected := fun i selected => (second.selected i selected).elim
    (fun earlier => (first.selected i earlier).imp_right second.present) Or.inr
  locked := fun i locked => (second.locked i locked).elim
    (fun earlier => (first.locked i earlier).imp_right second.present) Or.inr
  cached := fun i cached => (second.cached i cached).elim
    (fun earlier => (first.cached i earlier).imp_right second.present) Or.inr
  recorded := fun i recorded => first.recorded i (second.recorded i recorded)

/-- A lookup that finds nothing found nothing before. -/
theorem keyImages_of_not_present (extends_ : Extends s s') {keyImage : Key} {i : ℕ}
    (designated : s'.keyImages keyImage = some i) (absent : ¬Present s' i) :
    s.keyImages keyImage = some i ∧ ¬Present s i := by
  cases extends_.keyImages keyImage i designated with
  | inl earlier => exact ⟨earlier, fun present => absent (extends_.present present)⟩
  | inr new =>
      obtain ⟨td, found, _⟩ := new
      exact absurd ⟨td, found⟩ absent

end Extends

theorem InOrder.extends {s s' : WalletState Hash Key Asset} (inOrder : InOrder s)
    (extends_ : Extends s s') :
    InOrder s' where
  keyImage := by
    intro keyImage i td designated found
    cases extends_.keyImages keyImage i designated with
    | inr new =>
        obtain ⟨td', found', designates⟩ := new
        rw [Option.some.inj (found.symm.trans found')]
        exact designates
    | inl earlier =>
        cases extends_.new i ⟨td, found⟩ with
        | inr above => have := inOrder.lookedUp i (Or.inl ⟨keyImage, earlier⟩); omega
        | inl present =>
            obtain ⟨before, foundBefore⟩ := present
            obtain ⟨td', found', same⟩ := extends_.kept i before foundBefore
            rw [Option.some.inj (found.symm.trans found'), keyImage_of_identity same]
            exact inOrder.keyImage keyImage i before earlier foundBefore
  amountGindex := by
    intro p i td designated found
    cases extends_.amountGindexes p i designated with
    | inr new =>
        obtain ⟨td', found', designates⟩ := new
        rw [Option.some.inj (found.symm.trans found')]
        exact designates
    | inl earlier =>
        cases extends_.new i ⟨td, found⟩ with
        | inr above => have := inOrder.lookedUp i (Or.inr ⟨p, earlier⟩); omega
        | inl present =>
            obtain ⟨before, foundBefore⟩ := present
            obtain ⟨td', found', same⟩ := extends_.kept i before foundBefore
            rw [Option.some.inj (found.symm.trans found'), gindex_of_identity same]
            exact inOrder.amountGindex p i before earlier foundBefore
  lookedUp := by
    intro i lookedUp
    have next_le := extends_.next_le
    rcases lookedUp with ⟨keyImage, designated⟩ | ⟨p, designated⟩
    · cases extends_.keyImages keyImage i designated with
      | inl earlier => have := inOrder.lookedUp i (Or.inl ⟨keyImage, earlier⟩); omega
      | inr new => obtain ⟨td, found, _⟩ := new; exact IndexedTable.lt_next found
    · cases extends_.amountGindexes p i designated with
      | inl earlier => have := inOrder.lookedUp i (Or.inr ⟨p, earlier⟩); omega
      | inr new => obtain ⟨td, found, _⟩ := new; exact IndexedTable.lt_next found
  selected := fun i selected => (extends_.selected i selected).elim
    (fun earlier => extends_.present (inOrder.selected i earlier)) id
  locked := fun i locked => (extends_.locked i locked).elim
    (fun earlier => extends_.present (inOrder.locked i earlier)) id
  cached := fun i cached => (extends_.cached i cached).elim
    (fun earlier => extends_.present (inOrder.cached i earlier)) id
  recorded := fun i recorded => inOrder.recorded i (extends_.recorded i recorded)

/-- Changing what a transfer is marked with extends a state. -/
theorem extends_of_map {s s' : WalletState Hash Key Asset}
    (f : ℕ → TransferDetails Hash Key Asset → TransferDetails Hash Key Asset)
    (same : ∀ i td, (f i td).identity = td.identity) (transfers : s'.transfers = s.transfers.map f)
    (keyImages : s'.keyImages = s.keyImages)
    (amountGindexes : s'.amountGindexToTransferId = s.amountGindexToTransferId)
    (recorded : ∀ i, IsRecorded s' i → IsRecorded s i)
    (selected : ∀ i, IsSelected s' i → IsSelected s i ∨ Present s i)
    (locked : ∀ i, IsLocked s' i → IsLocked s i ∨ Present s i)
    (cached : ∀ i, IsCached s' i → IsCached s i ∨ Present s i) : Extends s s' := by
  have kept : ∀ i td, s.transfers.find? i = some td →
      ∃ td', s'.transfers.find? i = some td' ∧ td'.identity = td.identity := by
    intro i td found
    exact ⟨f i td, by rw [transfers, IndexedTable.find?_map, found, Option.map_some], same i td⟩
  have present : ∀ i, Present s i → Present s' i := by
    intro i inside
    obtain ⟨td, found⟩ := inside
    obtain ⟨td', found', _⟩ := kept i td found
    exact ⟨td', found'⟩
  exact {
    kept := kept
    new := by
      intro i inside
      obtain ⟨td', found⟩ := inside
      rw [transfers, IndexedTable.find?_map, Option.map_eq_some_iff] at found
      obtain ⟨td, found, _⟩ := found
      exact Or.inl ⟨td, found⟩
    keyImages := fun _ _ designated => Or.inl (keyImages ▸ designated)
    amountGindexes := fun _ _ designated => Or.inl (amountGindexes ▸ designated)
    selected := fun i isSelected => (selected i isSelected).imp_right (present i)
    locked := fun i isLocked => (locked i isLocked).imp_right (present i)
    cached := fun i isCached => (cached i isCached).imp_right (present i)
    recorded := recorded }

theorem extends_of_eq {s s' : WalletState Hash Key Asset} (transfers : s'.transfers = s.transfers)
    (keyImages : s'.keyImages = s.keyImages)
    (amountGindexes : s'.amountGindexToTransferId = s.amountGindexToTransferId)
    (recorded : ∀ i, IsRecorded s' i → IsRecorded s i)
    (selected : ∀ i, IsSelected s' i → IsSelected s i ∨ Present s i)
    (locked : ∀ i, IsLocked s' i → IsLocked s i ∨ Present s i)
    (cached : ∀ i, IsCached s' i → IsCached s i ∨ Present s i) : Extends s s' := by
  apply extends_of_map (fun _ td => td) (fun _ _ => rfl) _ keyImages amountGindexes recorded
    selected locked cached
  simp [transfers, IndexedTable.map]

/-! ## Operations that extend a state -/

/-- An exception that no stored index is the reason of and that does not start the
synchronization anew. -/
def Failure.IsHarmless (failure : Failure) : Prop :=
  failure ≠ .storedIndex ∧ failure ≠ .resyncNeeded

theorem extends_modify (s : WalletState Hash Key Asset) (i : ℕ)
    {f : TransferDetails Hash Key Asset → TransferDetails Hash Key Asset}
    (same : ∀ td, (f td).identity = td.identity) : Extends s (s.modifyTransfer i f) := by
  have sameIdentity : ∀ j td, (if j = i then f td else td).identity = td.identity := by
    intro j td
    split
    · exact same td
    · rfl
  exact extends_of_map _ sameIdentity rfl rfl rfl (fun _ => id) (fun _ => Or.inl) (fun _ => Or.inl)
    fun _ => Or.inl

theorem selectedTransfers_remove {i : ℕ} {entry left : ExpirationEntry Hash}
    (removed : entry.remove i = some left) :
    ∀ j ∈ left.selectedTransfers, j ∈ entry.selectedTransfers := by
  simp only [ExpirationEntry.remove] at removed
  split at removed
  · split at removed
    · contradiction
    · cases removed
      exact fun j inside => List.mem_of_mem_erase inside
  · cases removed
    exact fun j inside => inside

theorem isLocked_remove {s s' : WalletState Hash Key Asset} {i j : ℕ}
    (entries : s'.moneyExpirations = s.moneyExpirations.filterMap (ExpirationEntry.remove i))
    (locked : IsLocked s' j) : IsLocked s j := by
  obtain ⟨left, inside, isLocked⟩ := locked
  rw [entries, List.mem_filterMap] at inside
  obtain ⟨entry, inside, removed⟩ := inside
  exact ⟨entry, inside, selectedTransfers_remove removed j isLocked⟩

/-- What a step that only marks transfers and changes locks does: nothing to pending transactions
and free amounts. -/
structure Marks (s s' : WalletState Hash Key Asset) : Prop where
  extends_ : Extends s s'
  unconfirmedTxs : s'.unconfirmedTxs = s.unconfirmedTxs
  foundFreeAmounts : s'.foundFreeAmounts = s.foundFreeAmounts

theorem Marks.refl (s : WalletState Hash Key Asset) : Marks s s := ⟨Extends.refl s, rfl, rfl⟩

theorem Marks.trans {s s' s'' : WalletState Hash Key Asset} (first : Marks s s')
    (second : Marks s' s'') : Marks s s'' :=
  ⟨first.extends_.trans second.extends_, second.unconfirmedTxs.trans first.unconfirmedTxs,
    second.foundFreeAmounts.trans first.foundFreeAmounts⟩

theorem marks_modify (s : WalletState Hash Key Asset) (i : ℕ)
    {f : TransferDetails Hash Key Asset → TransferDetails Hash Key Asset}
    (same : ∀ td, (f td).identity = td.identity) : Marks s (s.modifyTransfer i f) :=
  ⟨extends_modify s i same, rfl, rfl⟩

theorem meets_removeTransferFromExpirationList (s : WalletState Hash Key Asset) (i : ℕ) :
    Meets (Marks s) Failure.IsHarmless (removeTransferFromExpirationList s i) := by
  rw [removeTransferFromExpirationList]
  cases s.transfers.find? i with
  | none => exact meets_thrown (Marks.refl s) (by simp [Failure.IsHarmless])
  | some td =>
      have released :=
        marks_modify s i (f := (·.clearFlags (flagBlocked ||| flagEscrowProposalReservation)))
        fun _ => rfl
      exact meets_returned
        ⟨released.extends_.trans (extends_of_eq rfl rfl rfl (fun _ => id) (fun _ => Or.inl)
        (fun _ locked => Or.inl (isLocked_remove rfl locked)) fun _ => Or.inl), rfl, rfl⟩

theorem meets_markTransfer (flags : UInt32) (s : WalletState Hash Key Asset) (i : ℕ) :
    Meets (Marks s) Failure.IsHarmless (markTransfer flags s i) := by
  rw [markTransfer]
  cases s.transfers.find? i with
  | none => exact meets_thrown (Marks.refl s) (by simp [Failure.IsHarmless])
  | some td => exact meets_returned (marks_modify s i fun _ => rfl)

theorem meets_forEach_marks {I : Type*}
    {f : WalletState Hash Key Asset → I → Outcome Failure (WalletState Hash Key Asset)}
    {Allowed : Failure → Prop} (marks : ∀ s i, Meets (Marks s) Allowed (f s i)) (is : List I)
    (s : WalletState Hash Key Asset) : Meets (Marks s) Allowed (forEach f is s) := by
  apply meets_forEach (Marks.refl s)
  intro s' before i _
  exact (marks s' i).imp (fun _ after => before.trans after) fun _ allowed => allowed

theorem meets_addTransfersToExpirationList {s : WalletState Hash Key Asset} {selected : List ℕ}
    (present : ∀ i ∈ selected, Present s i) (expiration : ℕ) (relatedTxId : Hash) :
    Meets (Marks s) Failure.IsHarmless
      (addTransfersToExpirationList s selected expiration relatedTxId) := by
  simp only [addTransfersToExpirationList]
  split
  · exact meets_returned (Marks.refl s)
  · apply (meets_forEach_marks (meets_markTransfer _) _ _).imp _ fun _ allowed => allowed
    intro s' marked
    apply Marks.trans _ marked
    refine ⟨extends_of_eq rfl rfl rfl (fun _ => id) (fun _ => Or.inl) ?_ fun _ => Or.inl, rfl, rfl⟩
    intro i member
    obtain ⟨entry, inside, isLocked⟩ := member
    simp only [List.mem_append, List.mem_singleton] at inside
    cases inside with
    | inl earlier => exact Or.inl ⟨entry, earlier, isLocked⟩
    | inr new =>
        subst new
        exact Or.inr (present i (List.mem_of_mem_filter isLocked))

/-- The template of an own proposal names no transfer that has been dropped. -/
def KnowsProposal (s : WalletState Hash Key Asset) (tx : WalletTx Hash Key Asset) : Prop :=
  ∀ proposal, tx.proposal = some proposal → ∀ keyImage ∈ proposal.keyImages, ∀ i,
    s.keyImages keyImage = some i → Present s i

theorem KnowsProposal.extends {s s' : WalletState Hash Key Asset} {tx : WalletTx Hash Key Asset}
    (knows : KnowsProposal s tx) (extends_ : Extends s s') : KnowsProposal s' tx := by
  intro proposal isProposal keyImage inside i designated
  cases extends_.keyImages keyImage i designated with
  | inl earlier => exact extends_.present (knows proposal isProposal keyImage inside i earlier)
  | inr new => obtain ⟨td, found, _⟩ := new; exact ⟨td, found⟩

theorem meets_handleProposal {s : WalletState Hash Key Asset} {tx : WalletTx Hash Key Asset}
    (knows : KnowsProposal s tx) : Meets (Marks s) Failure.IsHarmless (handleProposal s tx) := by
  rw [handleProposal]
  cases isProposal : tx.proposal with
  | none => exact meets_returned (Marks.refl s)
  | some proposal =>
      apply meets_addTransfersToExpirationList
      intro i selected
      obtain ⟨keyImage, inside, designated⟩ := List.mem_filterMap.mp selected
      exact knows proposal isProposal keyImage inside i designated

/-! ## A transaction of a block -/

theorem directlySpentTransfer_failure {s : WalletState Hash Key Asset} {amount : UInt64}
    {ringSize : ℕ} {offsets : List (Option ℕ)} {failure : Failure}
    (thrown : directlySpentTransfer s amount ringSize offsets = .error failure) :
    failure.IsHarmless := by
  induction offsets with
  | nil => simp [directlySpentTransfer] at thrown
  | cons offset offsets inductionHypothesis =>
      cases offset with
      | none => exact inductionHypothesis thrown
      | some gindex =>
          rw [directlySpentTransfer] at thrown
          grind [Failure.IsHarmless]

theorem directlySpentTransfer_present {s : WalletState Hash Key Asset} {amount : UInt64}
    {ringSize : ℕ} {offsets : List (Option ℕ)} {i : ℕ}
    (spent : directlySpentTransfer s amount ringSize offsets = .ok (some i)) :
    Present s i := by
  induction offsets with
  | nil => simp [directlySpentTransfer] at spent
  | cons offset offsets inductionHypothesis =>
      cases offset with
      | none => exact inductionHypothesis spent
      | some gindex =>
          rw [directlySpentTransfer] at spent
          grind [Present]

theorem spentTransfer_failure {settings : Settings Asset} {s : WalletState Hash Key Asset}
    {input : TxIn Key} {failure : Failure}
    (thrown : spentTransfer settings s input = .error failure) : failure.IsHarmless := by
  rw [spentTransfer] at thrown
  split at thrown
  · exact directlySpentTransfer_failure thrown
  · contradiction

/-- Only a key image designates a transfer that is gone. -/
theorem keyImages_of_spentTransfer {settings : Settings Asset} {s : WalletState Hash Key Asset}
    {input : TxIn Key} {i : ℕ} (spent : spentTransfer settings s input = .ok (some i))
    (absent : ¬Present s i) :
    s.keyImages input.keyImage = some i := by
  rw [spentTransfer] at spent
  split at spent
  · exact absurd (directlySpentTransfer_present spent) absent
  · exact Except.ok.inj spent

/-- An input of the transaction spends a transfer that has been dropped. -/
def SpendsDropped (s : WalletState Hash Key Asset) (tx : WalletTx Hash Key Asset) : Prop :=
  ∃ input ∈ tx.inputs, ∃ i, s.keyImages input.keyImage = some i ∧ ¬Present s i

theorem meets_processInput (settings : Settings Asset) (height : ℕ) (s : WalletState Hash Key Asset)
    (input : TxIn Key) :
    Meets (Marks s)
      (fun failure => failure ≠ .storedIndex ∧
        (failure = .resyncNeeded → ∃ i, s.keyImages input.keyImage = some i ∧ ¬Present s i))
      (processInput settings height s input) := by
  rw [processInput]
  cases spent : spentTransfer settings s input with
  | error failure =>
      have harmless := spentTransfer_failure spent
      exact meets_thrown (Marks.refl s) ⟨harmless.1, fun isResync => absurd isResync harmless.2⟩
  | ok spends =>
      cases spends with
      | none => exact meets_returned (Marks.refl s)
      | some i =>
          dsimp only
          cases found : s.transfers.find? i with
          | none =>
              have absent : ¬Present s i := by simp [Present, found]
              exact meets_thrown (Marks.refl s) ⟨by simp, fun _ =>
                ⟨i, keyImages_of_spentTransfer spent absent, absent⟩⟩
          | some td =>
              have marked := marks_modify s i
                (f := fun td => { td.setFlags flagSpent with spentHeight := height }) fun _ => rfl
              apply (meets_removeTransferFromExpirationList _ i).imp
              · exact fun _ after => marked.trans after
              · exact fun failure harmless =>
                  ⟨harmless.1, fun isResync => absurd isResync harmless.2⟩

theorem meets_handleMoney (height : ℕ) {tx : WalletTx Hash Key Asset}
    {s : WalletState Hash Key Asset} (knows : KnowsProposal s tx) :
    Meets (Extends s) Failure.IsHarmless (handleMoney height tx s) := by
  rw [handleMoney]
  split
  · have noIndex : ∀ i,
        IsRecorded { s with
          transferHistory := s.transferHistory ++ [prepareWti tx height tx.timestamp] } i →
          IsRecorded s i := by
      intro i member
      obtain ⟨wti, inside, selected⟩ := member
      simp only [List.mem_append, List.mem_singleton] at inside
      cases inside with
      | inl earlier => exact ⟨wti, earlier, selected⟩
      | inr new => simp [new, prepareWti] at selected
    have recorded : Extends s { s with
        transferHistory := s.transferHistory ++ [prepareWti tx height tx.timestamp] } :=
      extends_of_eq rfl rfl rfl noIndex (fun _ => Or.inl) (fun _ => Or.inl) fun _ => Or.inl
    exact (meets_handleProposal (knows.extends recorded)).imp (fun _ after =>
      recorded.trans after.extends_)
      fun _ harmless => harmless
  · exact meets_returned (Extends.refl s)

theorem isSelected_selectIndicies {s s' : WalletState Hash Key Asset} [DecidableEq Hash]
    {txHash : Hash} {selected : List ℕ}
    (unconfirmedTxs : s'.unconfirmedTxs = selectIndicies txHash selected s.unconfirmedTxs) {i : ℕ}
    (isSelected : IsSelected s' i) : IsSelected s i ∨ i ∈ selected := by
  obtain ⟨utx, inside, isSelected⟩ := isSelected
  rw [unconfirmedTxs, selectIndicies, List.mem_map] at inside
  obtain ⟨before, inside, rfl⟩ := inside
  split at isSelected
  · exact Or.inr isSelected
  · exact Or.inl ⟨before, inside, isSelected⟩

variable [DecidableEq Asset]

theorem spentTransfers_failure {settings : Settings Asset} {s : WalletState Hash Key Asset}
    {inputs : List (TxIn Key)} {failure : Failure}
    (thrown : spentTransfers settings s inputs = .error failure) : failure.IsHarmless := by
  induction inputs with
  | nil => simp [spentTransfers] at thrown
  | cons input inputs inductionHypothesis =>
      rw [spentTransfers] at thrown
      cases answer : spentTransfer settings s input with
      | error otherFailure =>
          rw [answer] at thrown
          cases thrown
          exact spentTransfer_failure answer
      | ok spends =>
          cases rest : spentTransfers settings s inputs with
          | error otherFailure => grind [Failure.IsHarmless, Except.map]
          | ok spent => grind [Failure.IsHarmless, Except.map]

theorem spentTransfers_present {settings : Settings Asset} {s : WalletState Hash Key Asset}
    {inputs : List (TxIn Key)} {spent : List ℕ}
    (spends : spentTransfers settings s inputs = .ok spent) : ∀ i ∈ spent, Present s i := by
  induction inputs generalizing spent with
  | nil =>
      cases spends
      simp
  | cons input inputs inductionHypothesis =>
      rw [spentTransfers] at spends
      cases rest : spentTransfers settings s inputs with
      | error otherFailure => grind [Except.map]
      | ok others => grind [Except.map, Present]

variable [DecidableEq Key]

theorem extends_addTransfer (settings : Settings Asset) (s : WalletState Hash Key Asset)
    (td : TransferDetails Hash Key Asset) : Extends s (addTransfer settings s td) := by
  have found : (s.transfers.push td).find? s.transfers.next = some td := by
    simp [IndexedTable.find?_push]
  exact {
    kept :=
      fun i before foundBefore => ⟨before, IndexedTable.find?_push_of_found foundBefore td, rfl⟩
    new := by
      intro i inside
      obtain ⟨after, foundAfter⟩ := inside
      rw [addTransfer, IndexedTable.find?_push] at foundAfter
      split at foundAfter
      · right; omega
      · exact Or.inl ⟨after, foundAfter⟩
    keyImages := by
      intro keyImage i designated
      simp only [addTransfer] at designated
      cases own : td.keyImage with
      | none => left; simpa only [own] using designated
      | some ownKeyImage =>
          simp only [own, Function.update_apply] at designated
          split at designated
          · right
            refine ⟨td, ?_, by grind⟩
            rw [← Option.some.inj designated]
            exact found
          · exact Or.inl designated
    amountGindexes := by
      intro p i designated
      simp only [addTransfer] at designated
      split at designated
      · rw [Function.update_apply] at designated
        split at designated
        · right
          refine ⟨td, ?_, by grind⟩
          rw [← Option.some.inj designated]
          exact found
        · exact Or.inl designated
      · exact Or.inl designated
    selected := fun _ selected => Or.inl selected
    locked := fun _ locked => Or.inl locked
    recorded := fun _ recorded => recorded
    cached := by
      intro i member
      obtain ⟨assetId, entry, inside, isIndex⟩ := member
      cases mem_add.mp inside with
      | inl new =>
          right
          rw [new.2] at isIndex
          exact ⟨td, isIndex ▸ found⟩
      | inr earlier => exact Or.inl ⟨assetId, entry, earlier, isIndex⟩ }

theorem extends_receiveOutputs (settings : Settings Asset) (height : ℕ)
    (tx : WalletTx Hash Key Asset) (outs : List (TxOut Key Asset))
    (s : WalletState Hash Key Asset) :
    Extends s (outs.foldl (receiveOutput settings height tx) s) := by
  induction outs generalizing s with
  | nil => exact Extends.refl s
  | cons out outs inductionHypothesis =>
      apply Extends.trans _ (inductionHypothesis _)
      rw [receiveOutput]
      split
      · exact Extends.refl s
      · exact extends_addTransfer settings s _

/-- The transactions that stay pending are among those that were. -/
def PendingOf (s s' : WalletState Hash Key Asset) : Prop :=
  (∀ utx ∈ s'.unconfirmedTxs, utx ∈ s.unconfirmedTxs) ∧ s'.foundFreeAmounts = s.foundFreeAmounts

/-- A transaction of a block extends the state. It is only refused because of a dropped transfer if
it spends one, and it has not touched what is pending then. -/
theorem meets_processNewTransaction [DecidableEq Hash] (settings : Settings Asset) (height : ℕ)
    {s : WalletState Hash Key Asset}
    {tx : WalletTx Hash Key Asset} (knows : KnowsProposal s tx) :
    let outcome := processNewTransaction settings height s tx
    Extends s outcome.2 ∧ outcome.1 ≠ some .storedIndex ∧
      (outcome.1 = some .resyncNeeded → SpendsDropped s tx ∧ PendingOf s outcome.2) := by
  let pending : WalletState Hash Key Asset :=
    { s with unconfirmedTxs := s.unconfirmedTxs.filter fun utx => utx.txHash ≠ tx.hash }
  have fewer : ∀ i, IsSelected pending i → IsSelected s i ∨ Present s i :=
    fun i ⟨utx, inside, selected⟩ => Or.inl ⟨utx, List.mem_of_mem_filter inside, selected⟩
  have fromPending : Extends s pending :=
    extends_of_eq rfl rfl rfl (fun _ => id) fewer (fun _ => Or.inl) fun _ => Or.inl
  have inputs : Meets (Marks pending)
      (fun failure => failure ≠ .storedIndex ∧ (failure = .resyncNeeded → SpendsDropped pending tx))
      (forEach (processInput settings height) tx.inputs pending) := by
    apply meets_forEach (Marks.refl pending)
    intro s' before input inside
    apply (meets_processInput settings height s' input).imp (fun _ after => before.trans after)
    intro failure allowed
    refine ⟨allowed.1, fun isResync => ?_⟩
    obtain ⟨i, designated, absent⟩ := allowed.2 isResync
    exact ⟨input, inside, i, before.extends_.keyImages_of_not_present designated absent⟩
  have gone : ∀ i, ¬Present pending i → ¬Present s i := fun i absent present => absent present
  change let outcome := thenDo (forEach (processInput settings height) tx.inputs pending) fun s =>
      handleMoney height tx (tx.outs.foldl (receiveOutput settings height tx) s)
    Extends s outcome.2 ∧ outcome.1 ≠ some .storedIndex ∧
      (outcome.1 = some .resyncNeeded → SpendsDropped s tx ∧ PendingOf s outcome.2)
  cases answer : forEach (processInput settings height) tx.inputs pending with
  | mk thrown spent =>
      rw [answer] at inputs
      have marked : Marks pending spent := inputs.left
      cases thrown with
      | some failure =>
          have allowed := inputs.thrown failure rfl
          refine ⟨fromPending.trans marked.extends_, by simpa [thenDo] using allowed.1,
            fun isResync => ?_⟩
          refine ⟨allowed.2 (by simpa [thenDo] using isResync), ?_, marked.foundFreeAmounts⟩
          intro utx inside
          have inside : utx ∈ spent.unconfirmedTxs := inside
          rw [marked.unconfirmedTxs] at inside
          exact List.mem_of_mem_filter inside
      | none =>
          have received := extends_receiveOutputs settings height tx tx.outs spent
          have before := (fromPending.trans marked.extends_).trans received
          have money := meets_handleMoney height (knows.extends before)
          refine ⟨before.trans money.left, ?_, ?_⟩
          · intro isStored
            exact (money.thrown _ isStored).1 rfl
          · intro isResync
            exact absurd rfl (money.thrown _ isResync).2

/-! ## The pool -/

omit [DecidableEq Key]

variable [DecidableEq Hash]

theorem meets_handleUnconfirmedTx {settings : Settings Asset} {median : ℕ}
    {s : WalletState Hash Key Asset} {tx : WalletTx Hash Key Asset} (knows : KnowsProposal s tx) :
    Meets (Extends s) Failure.IsHarmless (handleUnconfirmedTx settings median s tx) := by
  rw [handleUnconfirmedTx]
  cases spends : spentTransfers settings s tx.inputs with
  | error failure => exact meets_thrown (Extends.refl s) (spentTransfers_failure spends)
  | ok spent =>
      dsimp only
      split
      · split
        · exact meets_returned (extends_of_eq rfl rfl rfl (fun _ => id) (fun _ => Or.inl)
            (fun _ => Or.inl) fun _ => Or.inl)
        · have added : ∀ wti : TransferInfo Hash Key, wti.selectedIndicies = [] →
              Extends s { s with
                unconfirmedInTransfers := s.unconfirmedInTransfers.insert tx.hash
                unconfirmedTxs := s.unconfirmedTxs ++ [wti] } := by
            intro wti nothing
            refine extends_of_eq rfl rfl rfl (fun _ => id) ?_ (fun _ => Or.inl) fun _ => Or.inl
            intro i member
            obtain ⟨utx, inside, selected⟩ := member
            simp only [List.mem_append, List.mem_singleton] at inside
            cases inside with
            | inl earlier => exact Or.inl ⟨utx, earlier, selected⟩
            | inr new => simp [new, nothing] at selected
          have record := added (prepareWti tx 0 s.coreTime) rfl
          apply meets_thenDo (M := Extends s) _ fun _ before => before
          · intro s' before
            apply meets_thenDo (M := Extends s) _ fun _ before => before
            · intro s'' marked
              apply meets_returned
              apply marked.trans
              refine extends_of_eq rfl rfl rfl (fun _ => id) ?_ (fun _ => Or.inl) fun _ => Or.inl
              intro i selected
              apply (isSelected_selectIndicies rfl selected).imp_right
              exact fun isSpent => marked.present (spentTransfers_present spends i isSpent)
            · exact (meets_forEach_marks (meets_markTransfer flagSpent) spent s').imp
                (fun _ after => before.trans after.extends_) fun _ harmless => harmless
          · exact (meets_handleProposal (knows.extends record)).imp (fun _ after =>
              record.trans after.extends_)
              fun _ harmless => harmless
      · exact meets_returned (Extends.refl s)

theorem meets_scanTxPool {settings : Settings Asset} {median : ℕ} {s : WalletState Hash Key Asset}
    {txs : List (WalletTx Hash Key Asset)} (knows : ∀ tx ∈ txs, KnowsProposal s tx) :
    Meets (Extends s) Failure.IsHarmless (scanTxPool settings median txs s) := by
  apply meets_forEach
  · exact extends_of_eq rfl rfl rfl (fun _ => id) (fun _ => Or.inl) (fun _ => Or.inl) fun _ =>
      Or.inl
  · intro s' before tx inside
    rw [scanPoolTx]
    split
    · exact meets_returned (before.trans (extends_of_eq rfl rfl rfl (fun _ => id) (fun _ => Or.inl)
        (fun _ => Or.inl) fun _ => Or.inl))
    · exact (meets_handleUnconfirmedTx ((knows tx inside).extends before)).imp (fun _ after =>
        before.trans after)
        fun _ harmless => harmless

/-! ## After a refresh -/

omit [DecidableEq Hash] [DecidableEq Asset]

theorem meets_releaseTransfers (flags : UInt32) {selected : List ℕ} {s : WalletState Hash Key Asset}
    (present : ∀ i ∈ selected, Present s i) :
    Meets (Marks s) Failure.IsHarmless (forEach (releaseTransfer flags) selected s) := by
  apply meets_forEach (Marks.refl s)
  intro s' before i inside
  obtain ⟨td, found⟩ := before.extends_.present (present i inside)
  rw [releaseTransfer, found]
  have sameIdentity : ∀ td : TransferDetails Hash Key Asset,
      (if td.spentHeight = 0 then td.clearFlags flags else td).identity = td.identity := by
    intro td
    split
    · rfl
    · rfl
  exact meets_returned (before.trans (marks_modify s' i sameIdentity))

theorem meets_handleExpirationEntries {median : ℕ} {passed entries : List (ExpirationEntry Hash)}
    {s : WalletState Hash Key Asset}
    (present : ∀ entry ∈ passed ++ entries, ∀ i ∈ entry.selectedTransfers, Present s i) :
    Meets (Extends s) Failure.IsHarmless (handleExpirationEntries median passed entries s) := by
  induction entries generalizing passed s with
  | nil =>
      rw [List.append_nil] at present
      exact meets_returned (extends_of_eq rfl rfl rfl (fun _ => id) (fun _ => Or.inl)
        (fun i ⟨entry, inside, locked⟩ => Or.inr (present entry inside i locked)) fun _ => Or.inl)
  | cons entry entries inductionHypothesis =>
      rw [handleExpirationEntries]
      split
      · have released := meets_releaseTransfers (flagBlocked ||| flagEscrowProposalReservation)
          (present entry (by simp))
        cases answer : forEach (releaseTransfer (flagBlocked ||| flagEscrowProposalReservation))
            entry.selectedTransfers s with
        | mk thrown s' =>
            rw [answer] at released
            have marked : Extends s s' := released.left.extends_
            have presentAfter : ∀ entry' ∈ passed ++ entry :: entries,
                ∀ i ∈ entry'.selectedTransfers, Present s' i :=
              fun entry' inside i locked => marked.present (present entry' inside i locked)
            cases thrown with
            | none =>
                apply (inductionHypothesis _).imp (fun _ after => marked.trans after)
                  fun _ harmless => harmless
                intro entry' inside
                apply presentAfter entry'
                simp only [List.mem_append, List.mem_cons] at inside ⊢
                tauto
            | some failure =>
                apply meets_thrown _ (released.thrown failure rfl)
                exact marked.trans (extends_of_eq rfl rfl rfl (fun _ => id) (fun _ => Or.inl)
                  (fun i ⟨entry', inside, locked⟩ =>
                    Or.inr (presentAfter entry' inside i locked)) fun _ =>
                      Or.inl)
      · apply inductionHypothesis
        rw [List.append_assoc]
        exact present

variable [DecidableEq Key]

theorem identity_unlockUnrelated (known : List Key) (td : TransferDetails Hash Key Asset) :
    (unlockUnrelated known td).identity = td.identity := by
  rw [unlockUnrelated]
  split
  · split
    · split
      · rfl
      · rfl
    · rfl
  · rfl

variable [DecidableEq Hash]

theorem meets_scanNotCompliantUnconfirmedTxs {settings : Settings Asset} {median : ℕ}
    {s : WalletState Hash Key Asset} (inOrder : InOrder s) :
    Meets (Extends s) Failure.IsHarmless (scanNotCompliantUnconfirmedTxs settings median s) := by
  apply meets_thenDo (M := Extends s) _ fun _ before => before
  · intro s' before
    split
    · exact meets_returned before
    · apply meets_returned
      apply before.trans
      exact extends_of_map (fun _ => unlockUnrelated (keyImagesInUnconfirmed s'))
        (fun _ td => identity_unlockUnrelated _ td) rfl rfl rfl (fun _ => id) (fun _ => Or.inl)
          (fun _ => Or.inl)
        fun _ => Or.inl
  · apply meets_forEach (Extends.refl s)
    intro s' before utx inside
    have present : ∀ i ∈ utx.selectedIndicies, Present s' i :=
      fun i selected => before.present (inOrder.selected i ⟨utx, inside, selected⟩)
    rw [cancelUnconfirmedTx]
    split
    · apply meets_thenDo (M := Extends s) _ fun _ after => after
      · intro s'' released
        apply meets_returned
        apply released.trans
        exact extends_of_eq rfl rfl rfl (fun _ => id)
          (fun i ⟨utx, inside, selected⟩ => Or.inl ⟨utx, List.mem_of_mem_filter inside, selected⟩)
          (fun _ => Or.inl) fun _ => Or.inl
      · exact (meets_releaseTransfers _ present).imp (fun _ released =>
          before.trans released.extends_)
          fun _ harmless => harmless
    · exact meets_returned before

theorem meets_releaseOutdated (settings : Settings Asset) (median medianAgain : Option ℕ)
    {s : WalletState Hash Key Asset} (inOrder : InOrder s) :
    Meets (Extends s) Failure.IsHarmless (releaseOutdated settings median medianAgain s) := by
  cases median with
  | none => exact meets_thrown (Extends.refl s) (by simp [Failure.IsHarmless])
  | some median =>
      apply meets_thenDo (M := Extends s) (meets_scanNotCompliantUnconfirmedTxs inOrder)
        fun _ before => before
      intro s' before
      cases medianAgain with
      | none => exact meets_thrown before (by simp [Failure.IsHarmless])
      | some median =>
          have locked := (inOrder.extends before).locked
          apply (meets_handleExpirationEntries _).imp (fun _ after => before.trans after)
            fun _ harmless => harmless
          intro entry inside i isLocked
          exact locked i ⟨entry, inside, isLocked⟩

end Zano.Wallet
