import Mathlib

/-! # The balance of a wallet

The balance counts the transfers that are not spent and, for every transaction that is not confirmed
yet, the outputs of it that are the wallet's. The record of such a transaction holds these outputs
twice: one by one, and as part of the subtransfers, which are the differences between what the
wallet receives and what it spends, by payment id and asset. An income is counted by its subtransfer
and change by the outputs, so the balance remembers for each asset whether the last subtransfer that
it saw was an income.
-/

namespace Zano.Wallet.Balance

variable {Asset : Type*}

def flagSpent : UInt32 := 0x1
def flagBlocked : UInt32 := 0x2
def flagEscrowProposalReservation : UInt32 := 0x4
def flagMinedTransfer : UInt32 := 0x8
def flagColdSigReservation : UInt32 := 0x10

def currencyBlockReward : UInt64 := 1000000000000

/-- The part of `transfer_details` that counts for the balance. Whether a transfer is unlocked
depends on the chain. -/
structure TransferDetails (Asset : Type*) where
  assetId : Asset
  amount : UInt64
  flags : UInt32
  blockHeight : Nat
  isZc : Bool
  isUnlocked : Bool
  deriving DecidableEq, Repr

def TransferDetails.isSpent (td : TransferDetails Asset) : Bool := td.flags &&& flagSpent ≠ 0

def TransferDetails.isSpendable (td : TransferDetails Asset) : Bool :=
  td.flags &&&
    (flagSpent ||| flagBlocked ||| flagEscrowProposalReservation ||| flagColdSigReservation) = 0

def TransferDetails.isReservedForEscrow (td : TransferDetails Asset) : Bool :=
  td.flags &&& flagEscrowProposalReservation ≠ 0

structure SubTransferInfo (Asset : Type*) where
  amount : UInt64
  isIncome : Bool
  assetId : Asset
  deriving DecidableEq, Repr

/-- An own output of a transaction: `employed_tx_entry`. -/
structure EmployedTxEntry (Asset : Type*) where
  amount : UInt64
  assetId : Asset
  paymentId : UInt64
  deriving DecidableEq, Repr

/-- The part of `wallet_transfer_info` that the balance reads. `receive` are the employed
entries of the outputs, and `burnsContract` says that an escrow contract is attached that was
released by burning. -/
structure WalletTransferInfo (Asset : Type*) where
  subtransfersByPid : List (List (SubTransferInfo Asset))
  receive : List (EmployedTxEntry Asset)
  burnsContract : Bool
  txFee : UInt64
  deriving DecidableEq, Repr

/-- `asset_balance_entry_base`. -/
structure AssetBalanceEntry where
  total : UInt64
  unlocked : UInt64
  awaitingIn : UInt64
  awaitingOut : UInt64
  outsCount : UInt64
  outsAmountMin : UInt64
  outsAmountMax : UInt64
  deriving DecidableEq, Repr

def AssetBalanceEntry.empty : AssetBalanceEntry := ⟨0, 0, 0, 0, 0, 0, 0⟩

/-- What `balance` fills in. An asset without an entry has an empty one here. -/
structure Balances (Asset : Type*) where
  entries : Asset → AssetBalanceEntry
  mined : UInt64
  hasBareUnspentOutputs : Bool

variable [DecidableEq Asset]

def Balances.change (b : Balances Asset) (assetId : Asset)
    (f : AssetBalanceEntry → AssetBalanceEntry) :
    Balances Asset :=
  { b with entries := Function.update b.entries assetId (f (b.entries assetId)) }

/-! ## The loops -/

def isCounted (td : TransferDetails Asset) : Bool :=
  td.isSpendable || td.isReservedForEscrow && !td.isSpent

def countTransfer (b : Balances Asset) (td : TransferDetails Asset) : Balances Asset :=
  if isCounted td then
    let counted := b.change td.assetId fun e =>
      { e with
        total := e.total + td.amount
        unlocked := if td.isUnlocked then e.unlocked + td.amount else e.unlocked
        outsAmountMin := if e.outsCount = 0 then td.amount else min e.outsAmountMin td.amount
        outsAmountMax := if e.outsCount = 0 then td.amount else max e.outsAmountMax td.amount
        outsCount := e.outsCount + 1 }
    { counted with
      mined := if td.flags &&& flagMinedTransfer ≠ 0 then
          if td.blockHeight = 0 then b.mined + td.amount else b.mined + currencyBlockReward
        else b.mined
      hasBareUnspentOutputs := b.hasBareUnspentOutputs || !td.isZc }
  else b

/-- The balances and `subtransfers_by_assets_map`, which is declared before the loop over the
transactions. -/
structure Counting (Asset : Type*) where
  balances : Balances Asset
  subtransfersByAssets : Asset → Option Bool

def countSubtransfer (native : Asset) (utx : WalletTransferInfo Asset) (c : Counting Asset)
    (subtransfer : SubTransferInfo Asset) : Counting Asset where
  balances := c.balances.change subtransfer.assetId fun e =>
    if subtransfer.isIncome then
      { e with
        total := e.total + subtransfer.amount
        awaitingIn := e.awaitingIn + subtransfer.amount }
    else
      let out := e.awaitingOut + subtransfer.amount
      { e with awaitingOut := if subtransfer.assetId = native ∧ utx.burnsContract = false then
        out - utx.txFee else out }
  subtransfersByAssets :=
    Function.update c.subtransfersByAssets subtransfer.assetId (some subtransfer.isIncome)

/-- Change is added where no income was on record. -/
def countReceived (c : Counting Asset) (entry : EmployedTxEntry Asset) : Counting Asset :=
  match c.subtransfersByAssets entry.assetId with
  | some true => c
  | _ =>
      { c with balances := c.balances.change entry.assetId fun e =>
        { e with total := e.total + entry.amount } }

def countUnconfirmed (native : Asset) (c : Counting Asset)
    (utx : WalletTransferInfo Asset) : Counting Asset :=
  let subtransfers := utx.subtransfersByPid.foldl (fun c subtransfers =>
    subtransfers.foldl (countSubtransfer native utx) c) c
  utx.receive.foldl countReceived subtransfers

/-- `balance`, with the transactions in the order in which the container of
unconfirmed ones is walked. -/
def balance (native : Asset) (transfers : List (TransferDetails Asset))
    (unconfirmed : List (WalletTransferInfo Asset)) :
    Balances Asset :=
  let counted := transfers.foldl countTransfer ⟨fun _ => .empty, 0, false⟩
  (unconfirmed.foldl (countUnconfirmed native) ⟨counted, fun _ => none⟩).balances

/-! ## What the balance should be -/

def amounts (entries : List (EmployedTxEntry Asset)) (assetId : Asset) : Nat :=
  (entries.map fun entry => if entry.assetId = assetId then entry.amount.toNat else 0).sum

/-- The transfers that count. -/
def confirmed (transfers : List (TransferDetails Asset)) (assetId : Asset) : Nat :=
  (transfers.map fun td => if isCounted td ∧ td.assetId = assetId then td.amount.toNat else 0).sum

/-- The own outputs of the unconfirmed transactions. -/
def pending (unconfirmed : List (WalletTransferInfo Asset)) (assetId : Asset) : Nat :=
  (unconfirmed.map fun utx => amounts utx.receive assetId).sum

def TotalRight (native : Asset) (transfers : List (TransferDetails Asset))
    (unconfirmed : List (WalletTransferInfo Asset)) (assetId : Asset) : Prop :=
  ((balance native transfers unconfirmed).entries assetId).total.toNat =
    confirmed transfers assetId + pending unconfirmed assetId

/-- The transfers that a confirmation makes of the own outputs. -/
def enter (isUnlocked : Bool) (blockHeight : Nat)
    (entry : EmployedTxEntry Asset) : TransferDetails Asset :=
  ⟨entry.assetId, entry.amount, 0, blockHeight, true, isUnlocked⟩

/-! ## The records -/

/-- What `handle_unconfirmed_tx` finds of the wallet in a transaction: own outputs that are spent
and own outputs that are created. The balance changes are kept in unordered maps, by payment id and
by asset; `paymentIds` and `assets` are the orders in which these are walked. -/
structure TransactionContext (Asset : Type*) where
  spent : List (Asset × UInt64)
  received : List (EmployedTxEntry Asset)
  txWidePaymentId : String
  paymentIds : List UInt64
  assets : List Asset
  paymentIdsDistinct : paymentIds.Nodup
  paymentIdsAll : 0 ∈ paymentIds ∧ ∀ entry ∈ received, entry.paymentId ∈ paymentIds
  assetsDistinct : assets.Nodup
  assetsAll : (∀ entry ∈ spent, entry.1 ∈ assets) ∧ ∀ entry ∈ received, entry.assetId ∈ assets

def spentAmount (ptc : TransactionContext Asset) (assetId : Asset) : Nat :=
  (ptc.spent.map fun entry => if entry.1 = assetId then entry.2.toNat else 0).sum

/-- `total_balance_change`. -/
def totalBalanceChange (ptc : TransactionContext Asset) (assetId : Asset) : Int :=
  amounts ptc.received assetId - spentAmount ptc assetId

def receivedBy (ptc : TransactionContext Asset) (paymentId : UInt64) :
    List (EmployedTxEntry Asset) :=
  ptc.received.filter (·.paymentId = paymentId)

/-- `total_balance_change_per_payment_id`: what is spent belongs to no payment id. -/
def balanceChangeOf (ptc : TransactionContext Asset) (paymentId : UInt64) (assetId : Asset) : Int :=
  amounts (receivedBy ptc paymentId) assetId - if paymentId = 0 then
    (spentAmount ptc assetId : Int) else 0

/-- A subtransfer has 64 bits for the amount, and without an amount there is none. -/
def subtransferOf (balanceChange : Int) (assetId : Asset) : Option (SubTransferInfo Asset) :=
  let amount := UInt64.ofNat balanceChange.natAbs
  if amount ≠ 0 then some ⟨amount, 0 < balanceChange, assetId⟩ else none

/-- `prepare_wti` with `process_payment_id_for_wti_and_populate_subtransfers`. -/
def prepareWti (ptc : TransactionContext Asset) (burnsContract : Bool) (txFee : UInt64) :
    WalletTransferInfo Asset where
  subtransfersByPid :=
    if ptc.txWidePaymentId = "" then
      ptc.paymentIds.map fun paymentId => ptc.assets.filterMap fun assetId =>
        subtransferOf (balanceChangeOf ptc paymentId assetId) assetId
    else [ptc.assets.filterMap fun assetId =>
      subtransferOf (totalBalanceChange ptc assetId) assetId]
  receive := ptc.received
  burnsContract := burnsContract
  txFee := txFee

/-! ## What is counted -/

/-- A loop that adds an amount in every pass, as long as `Inv` holds, adds the sum. -/
theorem foldl_adds {σ β : Type*} {Inv : σ → Prop} (measure : σ → UInt64) (pass : σ → β → σ)
    (amount : β → UInt64)
    (adds : ∀ s x, Inv s → Inv (pass s x) ∧ measure (pass s x) = measure s + amount x) (s : σ)
    (start : Inv s) (xs : List β) :
    Inv (xs.foldl pass s) ∧
      (measure (xs.foldl pass s)).toNat =
        ((measure s).toNat + (xs.map fun x => (amount x).toNat).sum) % 2 ^ 64 := by
  induction xs generalizing s with
  | nil =>
      refine ⟨start, ?_⟩
      have bound : (measure s).toNat < 2 ^ 64 := UInt64.toNat_lt _
      simp only [List.foldl_nil, List.map_nil, List.sum_nil, Nat.add_zero]
      exact (Nat.mod_eq_of_lt bound).symm
  | cons x rest inductionHypothesis =>
      obtain ⟨kept, added⟩ := adds s x start
      obtain ⟨keptRest, addedRest⟩ := inductionHypothesis (pass s x) kept
      refine ⟨keptRest, ?_⟩
      rw [List.foldl_cons, addedRest, added, UInt64.toNat_add, List.map_cons, List.sum_cons,
        Nat.mod_add_mod, Nat.add_assoc]

variable {native assetId : Asset} {utx other : WalletTransferInfo Asset} {c : Counting Asset}
  {transfers : List (TransferDetails Asset)} {unconfirmed : List (WalletTransferInfo Asset)}

theorem change_total (b : Balances Asset) (changed : Asset)
    (f : AssetBalanceEntry → AssetBalanceEntry) :
    ((b.change changed f).entries assetId).total =
      if changed = assetId then (f (b.entries assetId)).total else (b.entries assetId).total := by
  unfold Balances.change
  by_cases same : changed = assetId
  · subst same
    simp
  · rw [if_neg same]
    dsimp only
    rw [Function.update_of_ne (Ne.symm same)]

theorem countTransfer_total (b : Balances Asset) (td : TransferDetails Asset) :
    ((countTransfer b td).entries assetId).total =
      (b.entries assetId).total + if isCounted td ∧ td.assetId = assetId then td.amount else 0 := by
  unfold countTransfer
  by_cases counts : isCounted td
  · simp only [counts, if_true, true_and]
    rw [change_total]
    split <;> simp
  · simp [counts]

theorem countTransfers_total (b : Balances Asset) (transfers : List (TransferDetails Asset)) :
    ((transfers.foldl countTransfer b).entries assetId).total.toNat =
      ((b.entries assetId).total.toNat + confirmed transfers assetId) % 2 ^ 64 := by
  have added := (foldl_adds (fun b : Balances Asset => (b.entries assetId).total) countTransfer
    (fun td => if isCounted td ∧ td.assetId = assetId then td.amount else 0)
    (fun b td (_ : True) => ⟨trivial, countTransfer_total b td⟩) b trivial transfers).2
  rw [added, confirmed]
  congr 3
  apply List.map_congr_left
  intro td _
  split <;> rfl

def incomes (utx : WalletTransferInfo Asset) (assetId : Asset) : Nat :=
  (utx.subtransfersByPid.flatten.map fun subtransfer =>
    if subtransfer.assetId = assetId ∧ subtransfer.isIncome then subtransfer.amount.toNat
    else 0).sum

/-- Whether the last subtransfer of the asset is an income, if there is one. -/
def direction (utx : WalletTransferInfo Asset) (assetId : Asset) : Option Bool :=
  (utx.subtransfersByPid.flatten.filter (·.assetId = assetId)).getLast?.map (·.isIncome)

theorem countSubtransfers_total (subtransfers : List (SubTransferInfo Asset)) (c : Counting Asset) :
    ((subtransfers.foldl (countSubtransfer native utx) c).balances.entries assetId).total.toNat =
      ((c.balances.entries assetId).total.toNat + (subtransfers.map fun subtransfer =>
        if subtransfer.assetId = assetId ∧ subtransfer.isIncome then subtransfer.amount.toNat
          else 0).sum) % 2 ^ 64 := by
  have adds : ∀ (c : Counting Asset) (subtransfer : SubTransferInfo Asset), True → True ∧
      ((countSubtransfer native utx c subtransfer).balances.entries assetId).total =
        (c.balances.entries assetId).total +
          if subtransfer.assetId = assetId ∧ subtransfer.isIncome then subtransfer.amount
          else 0 := by
    intro c subtransfer _
    refine ⟨trivial, ?_⟩
    unfold countSubtransfer
    dsimp only
    rw [change_total]
    by_cases same : subtransfer.assetId = assetId
    · cases income : subtransfer.isIncome <;> simp [same]
    · simp [same]
  have added :=
    (foldl_adds (fun c : Counting Asset => (c.balances.entries assetId).total) _ _ adds c trivial
    subtransfers).2
  rw [added]
  congr 3
  apply List.map_congr_left
  intro subtransfer _
  split <;> rfl

theorem countSubtransfers_direction (subtransfers : List (SubTransferInfo Asset))
    (c : Counting Asset) :
    (subtransfers.foldl (countSubtransfer native utx) c).subtransfersByAssets assetId =
      ((subtransfers.filter (·.assetId = assetId)).getLast?.map (·.isIncome)).or
        (c.subtransfersByAssets assetId) := by
  induction subtransfers using List.reverseRecOn with
  | nil => rfl
  | append_singleton earlier subtransfer inductionHypothesis =>
      rw [List.foldl_concat]
      by_cases same : subtransfer.assetId = assetId
      · subst same
        simp [countSubtransfer]
      · have others : (earlier ++ [subtransfer]).filter (·.assetId = assetId) =
            earlier.filter (·.assetId = assetId) := by simp [same]
        rw [others, ← inductionHypothesis]
        exact Function.update_of_ne (Ne.symm same) _ _

theorem countReceived_direction (entries : List (EmployedTxEntry Asset)) (c : Counting Asset) :
    (entries.foldl countReceived c).subtransfersByAssets = c.subtransfersByAssets := by
  induction entries generalizing c with
  | nil => rfl
  | cons entry rest inductionHypothesis =>
      rw [List.foldl_cons, inductionHypothesis]
      unfold countReceived
      split <;> rfl

theorem countReceived_total (entries : List (EmployedTxEntry Asset)) (c : Counting Asset) :
    ((entries.foldl countReceived c).balances.entries assetId).total.toNat =
      ((c.balances.entries assetId).total.toNat +
        if c.subtransfersByAssets assetId = some true then 0
          else amounts entries assetId) % 2 ^ 64 := by
  have adds : ∀ (now : Counting Asset) (entry : EmployedTxEntry Asset),
      now.subtransfersByAssets = c.subtransfersByAssets →
      (countReceived now entry).subtransfersByAssets = c.subtransfersByAssets ∧
      ((countReceived now entry).balances.entries assetId).total =
        (now.balances.entries assetId).total +
        if entry.assetId = assetId ∧ c.subtransfersByAssets assetId ≠ some true then entry.amount
        else 0 := by
    intro now entry same
    refine ⟨(countReceived_direction [entry] now).trans same, ?_⟩
    unfold countReceived
    split
    · next income =>
        rw [same] at income
        rw [if_neg, UInt64.add_zero]
        rintro ⟨rfl, change⟩
        exact change income
    · next change =>
        rw [change_total]
        by_cases isAsset : entry.assetId = assetId
        · subst isAsset
          rw [same] at change
          rw [if_pos rfl, if_pos ⟨rfl, change⟩]
        · rw [if_neg isAsset, if_neg fun both => isAsset both.1, UInt64.add_zero]
  have added := (foldl_adds (fun now : Counting Asset => (now.balances.entries assetId).total)
    _ _ adds c rfl entries).2
  rw [added]
  congr 2
  by_cases income : c.subtransfersByAssets assetId = some true
  · simp [income]
  · simp only [income, ne_eq, not_false_eq_true, and_true, if_false, amounts]
    congr 1
    apply List.map_congr_left
    intro entry _
    split <;> rfl

def directionAfter (before : Option Bool) (utx : WalletTransferInfo Asset)
    (assetId : Asset) : Option Bool :=
  (direction utx assetId).or before

/-- What a transaction adds to the total of an asset, by the direction that is on record before. -/
def contribution (before : Option Bool) (utx : WalletTransferInfo Asset) (assetId : Asset) : Nat :=
  incomes utx assetId + if directionAfter before utx assetId = some true then 0
    else amounts utx.receive assetId

theorem countUnconfirmed_eq (native : Asset) (c : Counting Asset) (utx : WalletTransferInfo Asset)
    (assetId : Asset) :
    (countUnconfirmed native c utx).subtransfersByAssets assetId =
        directionAfter (c.subtransfersByAssets assetId) utx assetId ∧
      ((countUnconfirmed native c utx).balances.entries assetId).total.toNat =
        ((c.balances.entries assetId).total.toNat +
          contribution (c.subtransfersByAssets assetId) utx assetId) % 2 ^ 64 := by
  unfold countUnconfirmed
  dsimp only
  rw [← List.foldl_flatten, countReceived_direction, countReceived_total,
    countSubtransfers_direction, countSubtransfers_total]
  refine ⟨rfl, ?_⟩
  rw [Nat.mod_add_mod, Nat.add_assoc]
  rfl

def contributions (assetId : Asset) : Option Bool → List (WalletTransferInfo Asset) → Nat
  | _, [] => 0
  | before, utx :: rest =>
      contribution before utx assetId +
        contributions assetId (directionAfter before utx assetId) rest

theorem countAllUnconfirmed_total (c : Counting Asset)
    (unconfirmed : List (WalletTransferInfo Asset)) :
    ((unconfirmed.foldl (countUnconfirmed native) c).balances.entries assetId).total.toNat =
      ((c.balances.entries assetId).total.toNat +
        contributions assetId (c.subtransfersByAssets assetId) unconfirmed) % 2 ^ 64 := by
  induction unconfirmed generalizing c with
  | nil =>
      have bound : (c.balances.entries assetId).total.toNat < 2 ^ 64 := UInt64.toNat_lt _
      exact (Nat.mod_eq_of_lt bound).symm
  | cons utx rest inductionHypothesis =>
      obtain ⟨sameDirection, total⟩ := countUnconfirmed_eq native c utx assetId
      rw [List.foldl_cons, inductionHypothesis, sameDirection, total, Nat.mod_add_mod,
        Nat.add_assoc]
      rfl

/-- The total, from what every transaction adds in its place. -/
theorem balance_total (native : Asset) (transfers : List (TransferDetails Asset))
    (unconfirmed : List (WalletTransferInfo Asset)) (assetId : Asset) :
    ((balance native transfers unconfirmed).entries assetId).total.toNat =
      (confirmed transfers assetId + contributions assetId none unconfirmed) % 2 ^ 64 := by
  unfold balance
  dsimp only
  rw [countAllUnconfirmed_total, countTransfers_total, Nat.mod_add_mod]
  congr 2
  exact Nat.zero_add _

/-! ## When the contributions are independent -/

/-- The subtransfers of an asset give away what the outputs do not: if the last one is an income,
all incomes add up to the own outputs; if it is not, there are no incomes. -/
def Plain (utx : WalletTransferInfo Asset) (assetId : Asset) : Prop :=
  match direction utx assetId with
  | none => True
  | some true => incomes utx assetId % 2 ^ 64 = amounts utx.receive assetId % 2 ^ 64
  | some false => incomes utx assetId % 2 ^ 64 = 0

/-- One transaction leaves an income of the asset on record, and the other one has own outputs of
the asset but no subtransfer. -/
def Leaks (utx other : WalletTransferInfo Asset) (assetId : Asset) : Prop :=
  direction utx assetId = some true ∧ direction other assetId = none ∧
    amounts other.receive assetId ≠ 0

/-- Whatever part of the unconfirmed transactions is pending, and in whatever order they come, the
totals are right, and no total changes when one of them is confirmed. -/
structure Independent (native : Asset) (transfers : List (TransferDetails Asset))
    (unconfirmed : List (WalletTransferInfo Asset)) : Prop where
  totals : ∀ part, part.Subperm unconfirmed → ∀ assetId, TotalRight native transfers part assetId
  confirming : ∀ utx part, (utx :: part).Subperm unconfirmed → ∀ isUnlocked blockHeight assetId,
    ((balance native (transfers ++ utx.receive.map (enter isUnlocked blockHeight)) part).entries
      assetId).total =
      ((balance native transfers (utx :: part)).entries assetId).total

theorem incomes_of_direction_none (noDirection : direction utx assetId = none) :
    incomes utx assetId = 0 := by
  have noneThere : utx.subtransfersByPid.flatten.filter (·.assetId = assetId) = [] := by
    simpa only [direction, Option.map_eq_none_iff, List.getLast?_eq_none_iff] using noDirection
  unfold incomes
  apply List.sum_eq_zero
  intro amount isAmount
  obtain ⟨subtransfer, inside, rfl⟩ := List.mem_map.mp isAmount
  have otherAsset : subtransfer.assetId ≠ assetId := by
    simpa using List.filter_eq_nil_iff.mp noneThere subtransfer inside
  rw [if_neg fun both => otherAsset both.1]

/-- A plain transaction adds its own outputs, unless an income of another one is on record that it
does not overwrite. -/
theorem contribution_of_plain {before : Option Bool} (plain : Plain utx assetId)
    (noLeak : before = some true → direction utx assetId = none → amounts utx.receive assetId = 0) :
    contribution before utx assetId % 2 ^ 64 = amounts utx.receive assetId % 2 ^ 64 := by
  unfold contribution directionAfter
  unfold Plain at plain
  rcases isDirection : direction utx assetId with _ | income
  · rw [incomes_of_direction_none isDirection, Option.none_or]
    split
    · next leak => rw [noLeak leak isDirection]
    · rw [Nat.zero_add]
  · rw [isDirection] at plain
    cases income with
    | true => simpa using plain
    | false =>
        have zero : incomes utx assetId % 2 ^ 64 = 0 := plain
        simp only [Option.some_or, Option.some.injEq, Bool.false_eq_true, if_false]
        rw [Nat.add_mod, zero, Nat.zero_add, Nat.mod_mod]

theorem contributions_of_plain {all : List (WalletTransferInfo Asset)}
    (plain : ∀ utx ∈ all, Plain utx assetId)
    (noLeak : ∀ utx ∈ all, ∀ other ∈ all, ¬ Leaks utx other assetId)
    {part : List (WalletTransferInfo Asset)} (inside : ∀ utx ∈ part, utx ∈ all)
    {before : Option Bool}
    (onRecord : before = some true → ∃ utx ∈ all, direction utx assetId = some true) :
    contributions assetId before part % 2 ^ 64 = pending part assetId % 2 ^ 64 := by
  induction part generalizing before with
  | nil => rfl
  | cons utx rest inductionHypothesis =>
      have isInside := inside utx List.mem_cons_self
      have here :
          contribution before utx assetId % 2 ^ 64 = amounts utx.receive assetId % 2 ^ 64 := by
        apply contribution_of_plain (plain utx isInside)
        intro income noDirection
        obtain ⟨earlier, earlierInside, wasIncome⟩ := onRecord income
        by_contra received
        exact noLeak earlier earlierInside utx isInside ⟨wasIncome, noDirection, received⟩
      have later : contributions assetId (directionAfter before utx assetId) rest % 2 ^ 64 =
          pending rest assetId % 2 ^ 64 := by
        apply inductionHypothesis fun utx there => inside utx (List.mem_cons_of_mem _ there)
        intro income
        unfold directionAfter at income
        rcases isDirection : direction utx assetId with _ | now
        · rw [isDirection, Option.none_or] at income
          exact onRecord income
        · rw [isDirection, Option.some_or] at income
          exact ⟨utx, isInside, by rw [isDirection, income]⟩
      rw [contributions, pending, List.map_cons, List.sum_cons, Nat.add_mod, here,
        later, ← Nat.add_mod]
      rfl

theorem pending_of_subperm {part all : List (WalletTransferInfo Asset)} (inside : part.Subperm all)
    (assetId : Asset) :
    pending part assetId ≤ pending all assetId := by
  obtain ⟨same, permuted, sublist⟩ := inside
  unfold pending
  rw [← (permuted.map _).sum_eq]
  exact (sublist.map _).sum_le_sum fun _ _ => Nat.zero_le _

theorem confirmed_append (transfers more : List (TransferDetails Asset)) (assetId : Asset) :
    confirmed (transfers ++ more) assetId =
      confirmed transfers assetId + confirmed more assetId := by
  unfold confirmed
  rw [List.map_append, List.sum_append]

theorem confirmed_enter (entries : List (EmployedTxEntry Asset)) (isUnlocked : Bool)
    (blockHeight : Nat) :
    confirmed (entries.map (enter isUnlocked blockHeight)) assetId = amounts entries assetId := by
  unfold confirmed amounts
  rw [List.map_map]
  congr 1
  apply List.map_congr_left
  intro entry _
  have counts : isCounted (enter isUnlocked blockHeight entry) = true := by
    simp [isCounted, TransferDetails.isSpendable, enter]
  simp only [Function.comp_apply, counts, true_and]
  rfl

/-! ## Plain records -/

variable {ptc : TransactionContext Asset}

/-- The balance changes of an asset, in the order in which the subtransfers are made of them. -/
def balanceChanges (ptc : TransactionContext Asset) (assetId : Asset) : List Int :=
  if ptc.txWidePaymentId = "" then
    ptc.paymentIds.map fun paymentId => balanceChangeOf ptc paymentId assetId
  else [totalBalanceChange ptc assetId]

theorem filter_group {f : Asset → Int} {assets : List Asset} (distinct : assets.Nodup)
    (outside : assetId ∉ assets → f assetId = 0) :
    (assets.filterMap fun other => subtransferOf (f other) other).filter (·.assetId = assetId) =
      (subtransferOf (f assetId) assetId).toList := by
  have ofAsset :
      ∀ other, ∀ subtransfer ∈ subtransferOf (f other) other, subtransfer.assetId = other := by
    intro other subtransfer made
    obtain ⟨-, same⟩ := Option.ite_none_right_eq_some.mp made
    cases same
    rfl
  induction assets with
  | nil =>
      rw [outside List.not_mem_nil]
      rfl
  | cons first rest inductionHypothesis =>
      obtain ⟨notAgain, distinctRest⟩ := List.nodup_cons.mp distinct
      by_cases same : first = assetId
      · subst same
        have noOther : (rest.filterMap fun other => subtransferOf (f other) other).filter
            (·.assetId = first) = [] := by
          rw [List.filter_eq_nil_iff]
          intro subtransfer inside isFirst
          obtain ⟨other, otherInside, made⟩ := List.mem_filterMap.mp inside
          rw [decide_eq_true_eq, ofAsset other subtransfer made] at isFirst
          exact notAgain (isFirst ▸ otherInside)
        cases made : subtransferOf (f first) first with
        | none => simp only [List.filterMap_cons, made, noOther, Option.toList_none]
        | some subtransfer =>
            have isFirst : subtransfer.assetId = first := ofAsset first subtransfer made
            simp only [List.filterMap_cons, made, List.filter_cons, isFirst, decide_true,
              if_true, noOther, Option.toList_some]
      · have rest_ := inductionHypothesis distinctRest fun notRest =>
          outside fun inside => (List.mem_cons.mp inside).elim (fun eq => same eq.symm) notRest
        cases made : subtransferOf (f first) first with
        | none => simp only [List.filterMap_cons, made, rest_]
        | some subtransfer =>
            have isFirst : subtransfer.assetId = first := ofAsset first subtransfer made
            simp only [List.filterMap_cons, made, List.filter_cons, isFirst, same, decide_false,
              Bool.false_eq_true, if_false, rest_]

theorem amounts_eq_zero {entries : List (EmployedTxEntry Asset)}
    (outside : ∀ entry ∈ entries, entry.assetId ≠ assetId) :
    amounts entries assetId = 0 := by
  unfold amounts
  apply List.sum_eq_zero
  intro amount isAmount
  obtain ⟨entry, inside, rfl⟩ := List.mem_map.mp isAmount
  rw [if_neg (outside entry inside)]

/-- An asset that is not in the transaction has no balance change. -/
theorem balanceChange_outside (outside : assetId ∉ ptc.assets) (paymentId : UInt64) :
    balanceChangeOf ptc paymentId assetId = 0 ∧ totalBalanceChange ptc assetId = 0 := by
  have noSpent : spentAmount ptc assetId = 0 := by
    unfold spentAmount
    apply List.sum_eq_zero
    intro amount isAmount
    obtain ⟨entry, inside, rfl⟩ := List.mem_map.mp isAmount
    rw [if_neg]
    rintro rfl
    exact outside (ptc.assetsAll.1 entry inside)
  have noReceived : ∀ entry ∈ ptc.received, entry.assetId ≠ assetId := by
    rintro entry inside rfl
    exact outside (ptc.assetsAll.2 entry inside)
  have noneBy : amounts (receivedBy ptc paymentId) assetId = 0 :=
    amounts_eq_zero fun entry inside => noReceived entry (List.mem_of_mem_filter inside)
  unfold balanceChangeOf totalBalanceChange
  rw [noSpent, amounts_eq_zero noReceived, noneBy]
  simp

/-- The subtransfers of one asset. -/
theorem subtransfers_prepareWti (ptc : TransactionContext Asset) (burnsContract : Bool)
    (txFee : UInt64) (assetId : Asset) :
    (prepareWti ptc burnsContract txFee).subtransfersByPid.flatten.filter (·.assetId = assetId) =
      (balanceChanges ptc assetId).filterMap fun change => subtransferOf change assetId := by
  unfold prepareWti balanceChanges
  dsimp only
  split
  · induction ptc.paymentIds with
    | nil => rfl
    | cons paymentId rest inductionHypothesis =>
        rw [List.map_cons, List.flatten_cons, List.filter_append, inductionHypothesis,
          filter_group ptc.assetsDistinct fun outside =>
            (balanceChange_outside outside paymentId).1, List.map_cons]
        cases made : subtransferOf (balanceChangeOf ptc paymentId assetId) assetId with
        | none => simp only [List.filterMap_cons, made, Option.toList_none, List.nil_append]
        | some subtransfer =>
            simp only [List.filterMap_cons, made, Option.toList_some, List.singleton_append]
  · rw [List.flatten_singleton,
      filter_group ptc.assetsDistinct fun outside => (balanceChange_outside outside 0).2]
    cases made : subtransferOf (totalBalanceChange ptc assetId) assetId with
    | none => simp only [List.filterMap_cons, made, Option.toList_none, List.filterMap_nil]
    | some subtransfer =>
        simp only [List.filterMap_cons, made, Option.toList_some, List.filterMap_nil]

/-- What is received without a payment id of its own: in a transaction with a payment id as a
whole everything. -/
def plainlyReceived (ptc : TransactionContext Asset) (assetId : Asset) : Nat :=
  if ptc.txWidePaymentId = "" then amounts (receivedBy ptc 0) assetId
  else amounts ptc.received assetId

def receivedWithPaymentId (ptc : TransactionContext Asset) (assetId : Asset) : Nat :=
  amounts ptc.received assetId - plainlyReceived ptc assetId

theorem amounts_filter_le (entries : List (EmployedTxEntry Asset))
    (p : EmployedTxEntry Asset → Bool) :
    amounts (entries.filter p) assetId ≤ amounts entries assetId :=
  (List.filter_sublist.map _).sum_le_sum fun _ _ => Nat.zero_le _

theorem sum_map_ite {ids : List UInt64} (distinct : ids.Nodup) {id : UInt64} (inside : id ∈ ids)
    (amount : Nat) :
    (ids.map fun other => if id = other then amount else 0).sum = amount := by
  induction ids with
  | nil => cases inside
  | cons first rest inductionHypothesis =>
      obtain ⟨notAgain, distinctRest⟩ := List.nodup_cons.mp distinct
      rw [List.map_cons, List.sum_cons]
      rcases List.mem_cons.mp inside with rfl | later
      · have others : ∀ other ∈ rest, (if id = other then amount else 0) = 0 :=
          fun other isOther => if_neg fun (same : id = other) => notAgain (same ▸ isOther)
        rw [if_pos rfl, List.map_congr_left others, List.map_const', List.sum_replicate, smul_zero,
          Nat.add_zero]
      · have different : id ≠ first := fun same => notAgain (same ▸ later)
        rw [if_neg different, Nat.zero_add, inductionHypothesis distinctRest later]

/-- Every own output belongs to one payment id. -/
theorem sum_receivedBy (entries : List (EmployedTxEntry Asset)) (assetId : Asset)
    {ids : List UInt64} (distinct : ids.Nodup) (all : ∀ entry ∈ entries, entry.paymentId ∈ ids) :
    (ids.map fun id => amounts (entries.filter (·.paymentId = id)) assetId).sum =
      amounts entries assetId := by
  induction entries with
  | nil => simp [amounts]
  | cons entry rest inductionHypothesis =>
      have split_ : ∀ id, amounts ((entry :: rest).filter (·.paymentId = id)) assetId =
          (if entry.paymentId = id then
            (if entry.assetId = assetId then entry.amount.toNat else 0) else 0) +
            amounts (rest.filter (·.paymentId = id)) assetId := by
        intro id
        by_cases same : entry.paymentId = id <;> simp [same, amounts]
      simp only [split_]
      rw [List.sum_map_add, sum_map_ite distinct (all entry List.mem_cons_self),
        inductionHypothesis fun entry inside => all entry (List.mem_cons_of_mem _ inside)]
      simp [amounts]

/-- The incomes among the balance changes. What is spent reduces the income without
a payment id only. -/
theorem sum_balanceChanges (ptc : TransactionContext Asset) (assetId : Asset) :
    ((balanceChanges ptc assetId).map Int.toNat).sum =
      receivedWithPaymentId ptc assetId +
        (plainlyReceived ptc assetId - spentAmount ptc assetId) := by
  unfold balanceChanges receivedWithPaymentId plainlyReceived
  split
  · have total := sum_receivedBy ptc.received assetId ptc.paymentIdsDistinct ptc.paymentIdsAll.2
    have swapped : ∀ id : UInt64, (balanceChangeOf ptc id assetId).toNat +
          (if 0 = id then amounts (receivedBy ptc 0) assetId else 0) =
        amounts (receivedBy ptc id) assetId +
          if 0 = id then amounts (receivedBy ptc 0) assetId - spentAmount ptc assetId else 0 := by
      intro id
      unfold balanceChangeOf
      by_cases zero : 0 = id
      · subst zero
        simp only [if_true]
        omega
      · rw [if_neg zero, if_neg zero, if_neg (Ne.symm zero)]
        omega
    have sums :=
      congrArg List.sum (List.map_congr_left fun id (_ : id ∈ ptc.paymentIds) => swapped id)
    rw [List.sum_map_add, List.sum_map_add, sum_map_ite ptc.paymentIdsDistinct ptc.paymentIdsAll.1,
      sum_map_ite ptc.paymentIdsDistinct ptc.paymentIdsAll.1] at sums
    unfold receivedBy at sums
    rw [total] at sums
    have smaller :
        amounts (ptc.received.filter (·.paymentId = 0)) assetId ≤ amounts ptc.received assetId :=
      amounts_filter_le _ _
    rw [List.map_map]
    unfold receivedBy
    change (ptc.paymentIds.map fun id => (balanceChangeOf ptc id assetId).toNat).sum = _
    omega
  · simp only [List.map_cons, List.map_nil, List.sum_cons, List.sum_nil, totalBalanceChange]
    omega

omit [DecidableEq Asset] in
theorem subtransferOf_income {change : Int} (assetId : Asset) (small : change.natAbs < 2 ^ 64) :
    ((subtransferOf change assetId).elim 0 fun subtransfer =>
      if subtransfer.isIncome then subtransfer.amount.toNat else 0) = change.toNat := by
  have amount : (UInt64.ofNat change.natAbs).toNat = change.natAbs := by
    rw [UInt64.toNat_ofNat']
    exact Nat.mod_eq_of_lt small
  unfold subtransferOf
  dsimp only
  split
  · simp only [Option.elim_some, amount, decide_eq_true_eq]
    split <;> omega
  · next zero =>
      have nothing : change.natAbs = 0 := by
        rw [← amount, not_not.mp zero]
        rfl
      simp only [Option.elim_none]
      omega

theorem incomes_eq (utx : WalletTransferInfo Asset) (assetId : Asset) :
    incomes utx assetId =
      ((utx.subtransfersByPid.flatten.filter (·.assetId = assetId)).map fun subtransfer =>
      if subtransfer.isIncome then subtransfer.amount.toNat else 0).sum := by
  unfold incomes
  induction utx.subtransfersByPid.flatten with
  | nil => rfl
  | cons subtransfer rest inductionHypothesis =>
      rw [List.map_cons, List.sum_cons, inductionHypothesis]
      by_cases same : subtransfer.assetId = assetId <;> simp [same]

omit [DecidableEq Asset] in
theorem sum_subtransfers (changes : List Int) (small : ∀ change ∈ changes, change.natAbs < 2 ^ 64) :
    ((changes.filterMap fun change => subtransferOf change assetId).map fun subtransfer =>
      if subtransfer.isIncome then subtransfer.amount.toNat else 0).sum =
        (changes.map Int.toNat).sum := by
  induction changes with
  | nil => rfl
  | cons change rest inductionHypothesis =>
      have income := subtransferOf_income assetId (small change List.mem_cons_self)
      have later :=
        inductionHypothesis fun change inside => small change (List.mem_cons_of_mem _ inside)
      cases made : subtransferOf change assetId with
      | none =>
          rw [made] at income
          simp only [List.filterMap_cons, made, List.map_cons, List.sum_cons, later, ← income,
            Option.elim_none, Nat.zero_add]
      | some subtransfer =>
          rw [made] at income
          simp only [List.filterMap_cons, made, List.map_cons, List.sum_cons, later, ← income,
            Option.elim_some]

/-- With amounts that fit into 64 bits, the incomes of a record are those among
the balance changes. -/
theorem incomes_prepareWti (burnsContract : Bool) (txFee : UInt64)
    (small : ∀ change ∈ balanceChanges ptc assetId, change.natAbs < 2 ^ 64) :
    incomes (prepareWti ptc burnsContract txFee) assetId =
      receivedWithPaymentId ptc assetId +
        (plainlyReceived ptc assetId - spentAmount ptc assetId) := by
  rw [incomes_eq, subtransfers_prepareWti, sum_subtransfers _ small, sum_balanceChanges]

/-- An expense is an excess of what is spent over what is received without a payment id. -/
theorem expense_prepareWti {burnsContract : Bool} {txFee : UInt64}
    (expense : direction (prepareWti ptc burnsContract txFee) assetId = some false) :
    plainlyReceived ptc assetId < spentAmount ptc assetId := by
  unfold direction at expense
  rw [subtransfers_prepareWti] at expense
  obtain ⟨subtransfer, isLast, isExpense⟩ := Option.map_eq_some_iff.mp expense
  obtain ⟨change, inside, made⟩ := List.mem_filterMap.mp (List.mem_of_getLast? isLast)
  have negative : change < 0 := by
    obtain ⟨nonzero, same⟩ := Option.ite_none_right_eq_some.mp made
    cases same
    have notPositive : ¬ 0 < change := by simpa using isExpense
    have notZero : change ≠ 0 := by
      rintro rfl
      exact nonzero rfl
    omega
  unfold balanceChanges at inside
  unfold plainlyReceived
  split at inside
  · next intrinsic =>
      obtain ⟨paymentId, -, rfl⟩ := List.mem_map.mp inside
      unfold balanceChangeOf at negative
      rw [if_pos intrinsic]
      split at negative
      · next zero =>
          rw [zero] at negative
          omega
      · omega
  · next wide =>
      rw [List.mem_singleton] at inside
      rw [inside, totalBalanceChange] at negative
      rw [if_neg wide]
      omega

theorem plainlyReceived_le (ptc : TransactionContext Asset) (assetId : Asset) :
    plainlyReceived ptc assetId ≤ amounts ptc.received assetId := by
  unfold plainlyReceived
  split
  · exact amounts_filter_le _ _
  · exact Nat.le_refl _

theorem balanceChanges_small
    (small : amounts ptc.received assetId + spentAmount ptc assetId < 2 ^ 64) :
    ∀ change ∈ balanceChanges ptc assetId, change.natAbs < 2 ^ 64 := by
  intro change inside
  unfold balanceChanges at inside
  split at inside
  · obtain ⟨paymentId, -, rfl⟩ := List.mem_map.mp inside
    have part : amounts (receivedBy ptc paymentId) assetId ≤ amounts ptc.received assetId :=
      amounts_filter_le _ _
    unfold balanceChangeOf
    split <;> omega
  · rw [List.mem_singleton] at inside
    subst inside
    unfold totalBalanceChange
    omega

/-- When the record of a transaction is plain: a transaction that ends with an income of the asset
does not both spend it and receive it without a payment id, and one that ends with an expense
receives none of it with a payment id. -/
theorem plain_prepareWti_iff {burnsContract : Bool} {txFee : UInt64}
    (small : amounts ptc.received assetId + spentAmount ptc assetId < 2 ^ 64) :
    Plain (prepareWti ptc burnsContract txFee) assetId ↔
      (direction (prepareWti ptc burnsContract txFee) assetId = some true →
        plainlyReceived ptc assetId = 0 ∨ spentAmount ptc assetId = 0) ∧
      (direction (prepareWti ptc burnsContract txFee) assetId = some false →
        receivedWithPaymentId ptc assetId = 0) := by
  have sum := incomes_prepareWti burnsContract txFee (balanceChanges_small small)
  have received : amounts (prepareWti ptc burnsContract txFee).receive assetId =
      amounts ptc.received assetId := rfl
  have part := plainlyReceived_le ptc assetId
  have rest : receivedWithPaymentId ptc assetId =
      amounts ptc.received assetId - plainlyReceived ptc assetId := rfl
  unfold Plain
  rw [received, sum]
  rcases isDirection : direction (prepareWti ptc burnsContract txFee) assetId with _ | income
  · simp
  · cases income with
    | true =>
        simp only [forall_const, false_implies, and_true, Option.some.injEq, Bool.true_eq_false]
        omega
    | false =>
        have excess := expense_prepareWti isDirection
        simp only [forall_const, false_implies, true_and, Option.some.injEq, Bool.false_eq_true]
        omega

/-! ## All unconfirmed transactions -/

/-- An exchange that spends 10 and receives 15 of one asset is counted with its income of 5 only. -/
theorem exchange_undercounted :
    ¬ ∀ (native : Nat) (transfers : List (TransferDetails Nat))
      (unconfirmed : List (TransactionContext Nat)),
      Independent native transfers (unconfirmed.map fun ptc => prepareWti ptc false 0) := by
  intro always
  let exchange : TransactionContext Nat :=
    ⟨[(1, 10)], [⟨15, 1, 0⟩], "", [0], [1], by decide, by decide, by decide, by decide⟩
  have right := (always 0 [] [exchange]).totals _ (List.Subperm.refl _) 1
  unfold TotalRight at right
  exact absurd right (by decide)

/-- The contributions of the unconfirmed transactions are independent exactly when every
record is plain, none leaks its direction to another one, and the amounts of an asset fit into
64 bits together. -/
theorem independent_iff (native : Asset) (transfers : List (TransferDetails Asset))
    (unconfirmed : List (WalletTransferInfo Asset)) :
    Independent native transfers unconfirmed ↔
      (∀ utx ∈ unconfirmed, ∀ assetId, Plain utx assetId) ∧
      (∀ utx ∈ unconfirmed, ∀ other ∈ unconfirmed, ∀ assetId, ¬ Leaks utx other assetId) ∧
      ∀ assetId, confirmed transfers assetId + pending unconfirmed assetId < 2 ^ 64 := by
  constructor
  · intro independent
    have totals : ∀ part, part.Subperm unconfirmed → ∀ assetId,
        (confirmed transfers assetId + contributions assetId none part) % 2 ^ 64 =
          confirmed transfers assetId + pending part assetId := by
      intro part inside assetId
      rw [← balance_total native]
      exact independent.totals part inside assetId
    have fits : ∀ assetId, confirmed transfers assetId + pending unconfirmed assetId < 2 ^ 64 := by
      intro assetId
      rw [← totals unconfirmed (List.Subperm.refl _) assetId]
      exact Nat.mod_lt _ (by decide)
    have single : ∀ utx ∈ unconfirmed, ∀ assetId,
        contribution none utx assetId % 2 ^ 64 = amounts utx.receive assetId % 2 ^ 64 := by
      intro utx inside assetId
      have total := totals [utx] (List.singleton_subperm_iff.mpr inside) assetId
      simp only [contributions, pending, List.map_cons, List.map_nil, List.sum_cons, List.sum_nil,
        Nat.add_zero] at total
      omega
    refine ⟨?_, ?_, fits⟩
    · intro utx inside assetId
      have alone := single utx inside assetId
      unfold contribution directionAfter at alone
      unfold Plain
      rcases isDirection : direction utx assetId with _ | income
      · trivial
      · rw [isDirection] at alone
        cases income with
        | true => simpa using alone
        | false =>
            simp only [Option.some_or, Option.some.injEq, Bool.false_eq_true, if_false] at alone
            change incomes utx assetId % 2 ^ 64 = 0
            omega
    · rintro utx inside other otherInside assetId ⟨income, noDirection, received⟩
      have different : utx ≠ other := by
        rintro rfl
        rw [income] at noDirection
        cases noDirection
      have both : [utx, other].Subperm unconfirmed := by
        apply List.subperm_of_subset
        · simpa using different
        · simp [inside, otherInside]
      have total := totals [utx, other] both assetId
      have alone := single utx inside assetId
      have bound := fits assetId
      have part := pending_of_subperm both assetId
      simp only [contributions, pending, List.map_cons, List.map_nil, List.sum_cons, List.sum_nil,
        Nat.add_zero] at total part
      have nothing : contribution (directionAfter none utx assetId) other assetId = 0 := by
        unfold contribution directionAfter
        rw [income, noDirection, incomes_of_direction_none noDirection]
        rfl
      rw [nothing] at total
      change _ ≤ pending unconfirmed assetId at part
      omega
  · rintro ⟨plain, noLeak, fits⟩
    have sums : ∀ part, part.Subperm unconfirmed → ∀ assetId,
        contributions assetId none part % 2 ^ 64 = pending part assetId % 2 ^ 64 := by
      intro part inside assetId
      apply contributions_of_plain (fun utx there => plain utx there assetId)
        (fun utx there other otherThere => noLeak utx there other otherThere assetId)
        fun utx there => inside.subset there
      intro income
      cases income
    constructor
    · intro part inside assetId
      have sum := sums part inside assetId
      have bound := fits assetId
      have smaller := pending_of_subperm inside assetId
      unfold TotalRight
      rw [balance_total]
      omega
    · intro utx part inside isUnlocked blockHeight assetId
      have rest : part.Subperm unconfirmed := (List.sublist_cons_self utx part).subperm.trans inside
      have sum := sums (utx :: part) inside assetId
      have sumRest := sums part rest assetId
      have split_ :
          pending (utx :: part) assetId = amounts utx.receive assetId + pending part assetId := by
        unfold pending
        rw [List.map_cons, List.sum_cons]
      apply UInt64.toNat_inj.mp
      rw [balance_total, balance_total, confirmed_append, confirmed_enter]
      omega

end Zano.Wallet.Balance
