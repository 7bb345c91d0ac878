import Mathlib
import Zano.Addresses.AddressTexts
import Zano.Lib.Balances
import Zano.Wallet.AmountSplit

/-! # Destinations of a transfer

What is needed of each asset is added up before coins are selected. When they are, what was found
beyond that comes back as change, so that of each asset the destinations, what is burned and the fee
come to what was found. All of it is what the code does after hardfork 4.

A destination without an asset id is minted, so nothing is needed for it. It is made again from its
amount, its addresses and its asset id, and what else was asked for there is lost.
-/

namespace Zano.Wallet.Destinations

open Serialization Addresses AmountSplit

def nativeCoinAssetId : PublicKey :=
  ⟨[0xd6, 0x32, 0x9b, 0x5b, 0x1f, 0x7c, 0x08, 0x05, 0xb5, 0xc3, 0x45, 0xf4, 0x95, 0x75, 0x54, 0x00,
    0x2a, 0x2f, 0x55, 0x78, 0x45, 0xf6, 0x4d, 0x76, 0x45, 0xda, 0xe0, 0xe0, 0x51, 0xa6, 0x49, 0x8a],
      rfl⟩

def currencyTxMinAllowedOuts : UInt64 := 2

def txFlagSignatureModeSeparate : UInt8 := 1

def tdefExplicitAmountToProvide : UInt64 := 2

structure DestinationOptionHtlcOut where
  expiration : UInt64 := 0
  htlcHash : Hash := nullPkey
  deriving DecidableEq

structure TxDestinationEntry where
  amount : UInt64 := 0
  addr : List AddressV := []
  minimumSigs : ℕ := 0
  amountToProvide : UInt64 := 0
  unlockTime : UInt64 := 0
  htlcOptions : DestinationOptionHtlcOut := {}
  assetId : PublicKey := nativeCoinAssetId
  flags : UInt64 := 0
  paymentId : UInt64 := 0

/-- The constructor from one account. -/
def TxDestinationEntry.ofAccount (amount : UInt64) (ad : AccountPublicAddress)
    (assetId : PublicKey) :
    TxDestinationEntry :=
  { amount, addr := [.inl ad], assetId }

/-- The constructor from a list of addresses. -/
def TxDestinationEntry.ofAddresses (amount : UInt64) (addr : List AddressV) (assetId : PublicKey) :
    TxDestinationEntry :=
  { amount, addr, minimumSigs := addr.length, assetId }

structure SelectionForAmount where
  neededAmount : UInt64 := 0
  requestedAmount : UInt64 := 0
  foundAmount : UInt64 := 0
  deriving DecidableEq, Repr

/-- An unordered map: nothing depends on the order of its entries. -/
abbrev AssetsSelectionContext := AList fun _ : PublicKey => SelectionForAmount

inductive Failure
  | zeroDestination
  | txSumOverflow
  | internal
  | endless
  deriving DecidableEq, Repr

/-! ## What is needed -/

/-- An entry of the map, which is made when it is not there. -/
def item (amountsMap : AssetsSelectionContext) (assetId : PublicKey) : SelectionForAmount :=
  (amountsMap.lookup assetId).getD {}

def moneyToAdd (dt : TxDestinationEntry) : UInt64 :=
  if dt.amountToProvide ≠ 0 ∨ dt.flags &&& tdefExplicitAmountToProvide ≠ 0 then dt.amountToProvide
  else dt.amount

/-- The loop of `get_needed_money`, which also adds up what is needed of other assets
than the native one. -/
def addDestinations : List TxDestinationEntry → AssetsSelectionContext → UInt64 →
    Except Failure (AssetsSelectionContext × UInt64)
  | [], amountsMap, rawAmountSum => .ok (amountsMap, rawAmountSum)
  | dt :: dsts, amountsMap, rawAmountSum =>
      if dt.assetId = nullPkey then addDestinations dsts amountsMap rawAmountSum
      else if dt.amount = 0 then .error .zeroDestination
      else
        let neededAmount := (item amountsMap dt.assetId).neededAmount + moneyToAdd dt
        if neededAmount < moneyToAdd dt then .error .txSumOverflow
        else if neededAmount = 0 then
          addDestinations dsts (amountsMap.erase dt.assetId) rawAmountSum
        else
          addDestinations dsts
            (amountsMap.insert dt.assetId
              { item amountsMap dt.assetId with neededAmount, requestedAmount := neededAmount })
            (if dt.assetId ≠ nativeCoinAssetId then rawAmountSum + neededAmount else rawAmountSum)

/-- More native coins are asked for where there would be too few outputs otherwise. -/
def requestChange (fee : UInt64) (amountsMap : AssetsSelectionContext) (rawAmountSum : UInt64) :
    AssetsSelectionContext :=
  if rawAmountSum ≠ 0 ∧ rawAmountSum < currencyTxMinAllowedOuts then
    let native := item amountsMap nativeCoinAssetId
    amountsMap.insert nativeCoinAssetId
      (if native.requestedAmount = fee then
        { native with requestedAmount := native.requestedAmount + (currencyTxMinAllowedOuts - 1) }
      else native)
  else amountsMap

def getNeededMoney (fee : UInt64) (dsts : List TxDestinationEntry) :
    Except Failure AssetsSelectionContext :=
  (addDestinations dsts
    (AList.singleton nativeCoinAssetId { neededAmount := fee, requestedAmount := fee }) 0).map
    fun (amountsMap, rawAmountSum) => requestChange fee amountsMap rawAmountSum

/-! ## What is produced -/

section

variable (ownAddress : AccountPublicAddress)

/-- What was found beyond what is needed. -/
def change (assetId : PublicKey) (selected : SelectionForAmount) : List TxDestinationEntry :=
  if selected.neededAmount < selected.foundAmount then
    [.ofAccount (selected.foundAmount - selected.neededAmount) ownAddress assetId]
  else []

/-- `prepare_tx_destinations` of one asset. -/
def prepareAssetDestinations (selected : SelectionForAmount) (dsts : List TxDestinationEntry)
    (assetId : PublicKey) (finalDestinations : List TxDestinationEntry) :
    Except Failure (List TxDestinationEntry) :=
  if selected.foundAmount < selected.neededAmount then .error .internal
  else
    .ok (finalDestinations ++
      (dsts.filter (fun dst => dst.assetId = assetId) ++ change ownAddress assetId selected))

/-- The loop over the assets that are needed. -/
def prepareAssets (dsts : List TxDestinationEntry) :
    List (Σ _ : PublicKey, SelectionForAmount) → List TxDestinationEntry →
      Except Failure (List TxDestinationEntry)
  | [], finalDestinations => .ok finalDestinations
  | el :: els, finalDestinations => do
      let finalDestinations ← prepareAssetDestinations ownAddress el.2 dsts el.1 finalDestinations
      prepareAssets dsts els finalDestinations

/-- Where there are too few destinations, the last one is split. -/
def splitLast (rand : ℕ → UInt64) (outsNumberMin : ℕ)
    (finalDestinations : List TxDestinationEntry) :
    Except Failure (List TxDestinationEntry) :=
  match finalDestinations.getLast? with
  | none => .ok (List.replicate outsNumberMin (.ofAccount 0 ownAddress nativeCoinAssetId))
  | some de =>
      if finalDestinations.length < outsNumberMin then
        let others := finalDestinations.dropLast
        match decomposeAmountRandomly rand de.amount (outsNumberMin - others.length)
            currencyTxOutsRndSplitDigitsToKeep with
        | none => .error .endless
        | some amounts =>
            let finalDestinations := others ++ amounts.map fun amount => { de with amount }
            if finalDestinations.length = outsNumberMin then .ok finalDestinations
            else .error .internal
      else .ok finalDestinations

def prepareTxDestinations (rand : ℕ → UInt64) (neededMoneyMap : AssetsSelectionContext)
    (outsNumberMin : ℕ) (dsts : List TxDestinationEntry) (txFlags : UInt8)
    (finalDestinations : List TxDestinationEntry) :
    Except Failure (List TxDestinationEntry) := do
  let finalDestinations ← prepareAssets ownAddress dsts neededMoneyMap.entries finalDestinations
  let minted :=
    (dsts.filter fun dst => dst.assetId = nullPkey ∨ dst.assetId ∉ neededMoneyMap).map fun dst =>
    TxDestinationEntry.ofAddresses dst.amount dst.addr dst.assetId
  let finalDestinations := (finalDestinations ++ minted).filter fun dst => dst.addr ≠ []
  if txFlags &&& txFlagSignatureModeSeparate ≠ 0 then .ok finalDestinations
  else splitLast ownAddress rand outsNumberMin finalDestinations

end

/-! ## Totals -/

/-- The amounts of one asset. -/
def total (dsts : List TxDestinationEntry) (assetId : PublicKey) : ℕ :=
  Balances.total (dsts.map fun dst => (dst.assetId, dst.amount)) assetId

@[simp]
theorem total_nil (assetId : PublicKey) : total [] assetId = 0 := rfl

@[simp]
theorem total_cons (dst : TxDestinationEntry) (dsts : List TxDestinationEntry)
    (assetId : PublicKey) :
    total (dst :: dsts) assetId =
      (if dst.assetId = assetId then dst.amount.toNat else 0) + total dsts assetId :=
  Balances.total_cons _ _ _

@[simp]
theorem total_append (dsts others : List TxDestinationEntry) (assetId : PublicKey) :
    total (dsts ++ others) assetId = total dsts assetId + total others assetId := by
  rw [total, List.map_append, Balances.total_append]
  rfl

theorem total_perm {dsts others : List TxDestinationEntry} (same : dsts.Perm others)
    (assetId : PublicKey) :
    total dsts assetId = total others assetId :=
  Balances.total_perm (same.map _) assetId

theorem total_eq_zero {dsts : List TxDestinationEntry} {assetId : PublicKey}
    (others : ∀ dst ∈ dsts, dst.assetId ≠ assetId) : total dsts assetId = 0 := by
  induction dsts with
  | nil => rfl
  | cons dst dsts inductionHypothesis =>
      obtain ⟨other, others⟩ := List.forall_mem_cons.mp others
      rw [total_cons, if_neg other, inductionHypothesis others]

theorem total_filter_add (keeps : TxDestinationEntry → Bool) (dsts : List TxDestinationEntry)
    (assetId : PublicKey) :
    total (dsts.filter keeps) assetId + total (dsts.filter fun dst => !keeps dst) assetId =
      total dsts assetId := by
  rw [← total_append]
  exact total_perm (List.filter_append_perm keeps dsts) assetId

/-! ## Every destination is counted -/

def feeOf (fee : UInt64) (assetId : PublicKey) : ℕ :=
  if assetId = nativeCoinAssetId then fee.toNat else 0

/-- What the map says once these destinations were added. -/
structure Accounted (fee : UInt64) (dsts : List TxDestinationEntry)
    (amountsMap : AssetsSelectionContext) : Prop where
  needed : ∀ assetId selected, amountsMap.lookup assetId = some selected →
    selected.neededAmount.toNat = total dsts assetId + feeOf fee assetId
  mem : ∀ dst ∈ dsts, dst.assetId ≠ nullPkey → dst.assetId ∈ amountsMap
  native : nativeCoinAssetId ∈ amountsMap
  notNull : nullPkey ∉ amountsMap

theorem nativeCoinAssetId_ne_nullPkey : nativeCoinAssetId ≠ nullPkey := by decide

namespace Accounted

variable {fee : UInt64} {dsts : List TxDestinationEntry} {amountsMap : AssetsSelectionContext}

theorem start (fee : UInt64) : Accounted fee []
    (AList.singleton nativeCoinAssetId { neededAmount := fee, requestedAmount := fee }) where
  needed := by
    intro assetId selected isThere
    have inside := AList.lookup_isSome.mp (Option.isSome_of_eq_some isThere)
    rw [AList.mem_keys, AList.keys_singleton] at inside
    obtain rfl := List.mem_singleton.mp inside
    simp [AList.lookup, AList.singleton] at isThere
    subst isThere
    simp [feeOf]
  mem := by simp
  native := by
    rw [AList.mem_keys, AList.keys_singleton]
    exact List.mem_singleton_self _
  notNull := by
    rw [AList.mem_keys, AList.keys_singleton]
    exact fun isNative => nativeCoinAssetId_ne_nullPkey (List.mem_singleton.mp isNative).symm

/-- What is not in the map is not needed. -/
theorem item_neededAmount (accounted : Accounted fee dsts amountsMap) {assetId : PublicKey}
    (notNull : assetId ≠ nullPkey) :
    (item amountsMap assetId).neededAmount.toNat = total dsts assetId + feeOf fee assetId := by
  rw [item]
  cases isThere : amountsMap.lookup assetId with
  | some selected => exact accounted.needed assetId selected isThere
  | none =>
      have missing := AList.lookup_eq_none.mp isThere
      have notNative : assetId ≠ nativeCoinAssetId := fun same => missing (same ▸ accounted.native)
      have notAny : total dsts assetId = 0 :=
        total_eq_zero fun dst inside same =>
          missing (same ▸ accounted.mem dst inside (same ▸ notNull))
      rw [notAny, feeOf, if_neg notNative]
      rfl

/-- Nothing is needed for what is minted. -/
theorem mint (accounted : Accounted fee dsts amountsMap) {dst : TxDestinationEntry}
    (isNull : dst.assetId = nullPkey) :
    Accounted fee (dsts ++ [dst]) amountsMap where
  needed := by
    intro assetId selected isThere
    have other : dst.assetId ≠ assetId := by
      rintro rfl
      rw [isNull] at isThere
      exact accounted.notNull (AList.lookup_isSome.mp (Option.isSome_of_eq_some isThere))
    rw [total_append, total_cons, if_neg other, total_nil]
    exact accounted.needed assetId selected isThere
  mem := by
    intro other inside isAsset
    cases List.mem_append.mp inside with
    | inl before => exact accounted.mem other before isAsset
    | inr minted =>
        rw [List.mem_singleton.mp minted] at isAsset
        exact absurd isNull isAsset
  native := accounted.native
  notNull := accounted.notNull

/-- Only the amount that is needed is accounted for. -/
theorem insert (accounted : Accounted fee dsts amountsMap) {assetId : PublicKey}
    (notNull : assetId ≠ nullPkey) {selected : SelectionForAmount} {more : List TxDestinationEntry}
    (isNeeded : selected.neededAmount.toNat = total (dsts ++ more) assetId + feeOf fee assetId)
    (same : ∀ dst ∈ more, dst.assetId = assetId) :
    Accounted fee (dsts ++ more) (amountsMap.insert assetId selected) where
  needed := by
    intro other found isThere
    by_cases own : other = assetId
    · subst own
      rw [AList.lookup_insert] at isThere
      cases isThere
      exact isNeeded
    · rw [AList.lookup_insert_ne own] at isThere
      have notMore : total more other = 0 :=
        total_eq_zero fun dst inside isOther => own (isOther ▸ same dst inside)
      rw [total_append, notMore, accounted.needed other found isThere]
      rfl
  mem := by
    intro dst inside isAsset
    rw [AList.mem_insert]
    cases List.mem_append.mp inside with
    | inl before => exact .inr (accounted.mem dst before isAsset)
    | inr added => exact .inl (same dst added)
  native := AList.mem_insert _ |>.mpr (.inr accounted.native)
  notNull := by
    rw [AList.mem_insert]
    rintro (isNull | isThere)
    · exact notNull isNull.symm
    · exact accounted.notNull isThere

end Accounted

/-- Nothing else is asked for than the amount. -/
def NoOverrides (dt : TxDestinationEntry) : Prop :=
  dt.amountToProvide = 0 ∧ dt.flags &&& tdefExplicitAmountToProvide = 0

theorem addDestinations_accounted {fee : UInt64} {before dsts : List TxDestinationEntry}
    {amountsMap result : AssetsSelectionContext} {rawAmountSum rawResult : UInt64}
    (noOverrides : ∀ dt ∈ dsts, NoOverrides dt) (accounted : Accounted fee before amountsMap)
    (isAdded : addDestinations dsts amountsMap rawAmountSum = .ok (result, rawResult)) :
    Accounted fee (before ++ dsts) result := by
  induction dsts generalizing before amountsMap rawAmountSum with
  | nil =>
      cases isAdded
      rwa [List.append_nil]
  | cons dt dsts inductionHypothesis =>
      obtain ⟨noOverride, noOverrides⟩ := List.forall_mem_cons.mp noOverrides
      rw [List.append_cons]
      rw [addDestinations] at isAdded
      split at isAdded
      · next isNull =>
          exact inductionHypothesis noOverrides (accounted.mint isNull) isAdded
      next notNull =>
      split at isAdded
      · cases isAdded
      next notZero =>
      have isMoney : moneyToAdd dt = dt.amount := if_neg (by simp [noOverride.1, noOverride.2])
      simp only [isMoney] at isAdded
      split at isAdded
      · cases isAdded
      next noOverflow =>
      have positive : 0 < dt.amount.toNat :=
        UInt64.lt_iff_toNat_lt.mp (UInt64.pos_iff_ne_zero.mpr notZero)
      have isSum : ((item amountsMap dt.assetId).neededAmount + dt.amount).toNat =
          (item amountsMap dt.assetId).neededAmount.toNat + dt.amount.toNat := by
        rw [UInt64.lt_iff_toNat_lt, UInt64.toNat_add] at noOverflow
        rw [UInt64.toNat_add]
        have below := dt.amount.toNat_lt
        have itemBelow := (item amountsMap dt.assetId).neededAmount.toNat_lt
        omega
      split at isAdded
      · next isEmpty =>
          have isZero := congrArg UInt64.toNat isEmpty
          rw [isSum, UInt64.toNat_zero] at isZero
          omega
      · apply inductionHypothesis noOverrides (accounted.insert notNull _ (by simp)) isAdded
        simp only [isSum, accounted.item_neededAmount notNull, total_append, total_cons,
          total_nil, if_true]
        omega

theorem getNeededMoney_accounted {fee : UInt64} {dsts : List TxDestinationEntry}
    {needed : AssetsSelectionContext} (noOverrides : ∀ dt ∈ dsts, NoOverrides dt)
    (isNeeded : getNeededMoney fee dsts = .ok needed) :
    Accounted fee dsts needed := by
  rw [getNeededMoney] at isNeeded
  cases isAdded : addDestinations dsts
      (AList.singleton nativeCoinAssetId { neededAmount := fee, requestedAmount := fee }) 0 with
  | error failure =>
      rw [isAdded] at isNeeded
      cases isNeeded
  | ok result =>
      obtain ⟨amountsMap, rawAmountSum⟩ := result
      rw [isAdded] at isNeeded
      have accounted := addDestinations_accounted noOverrides (Accounted.start fee) isAdded
      rw [List.nil_append] at accounted
      obtain rfl : requestChange fee amountsMap rawAmountSum = needed := Except.ok.inj isNeeded
      rw [requestChange]
      split
      · have inserted := @Accounted.insert fee dsts amountsMap accounted nativeCoinAssetId
          nativeCoinAssetId_ne_nullPkey
          (if (item amountsMap nativeCoinAssetId).requestedAmount = fee then
            { item amountsMap nativeCoinAssetId with
              requestedAmount := (item amountsMap nativeCoinAssetId).requestedAmount +
                (currencyTxMinAllowedOuts - 1) }
            else item amountsMap nativeCoinAssetId) []
        rw [List.append_nil] at inserted
        apply inserted
        · split <;> exact accounted.item_neededAmount nativeCoinAssetId_ne_nullPkey
        · simp
      · exact accounted

/-! ## Every destination is produced -/

/-- Coins were selected for what is needed, and enough of them. -/
structure Selected (needed selection : AssetsSelectionContext) : Prop where
  same : ∀ assetId, (selection.lookup assetId).map SelectionForAmount.neededAmount =
    (needed.lookup assetId).map SelectionForAmount.neededAmount
  enough : ∀ assetId selected, selection.lookup assetId = some selected →
    selected.neededAmount ≤ selected.foundAmount

theorem Selected.accounted {fee : UInt64} {dsts : List TxDestinationEntry}
    {needed selection : AssetsSelectionContext} (isSelected : Selected needed selection)
    (accounted : Accounted fee dsts needed) :
    Accounted fee dsts selection := by
  have mem_iff (assetId : PublicKey) : assetId ∈ selection ↔ assetId ∈ needed := by
    have same := congrArg Option.isSome (isSelected.same assetId)
    rw [Option.isSome_map, Option.isSome_map] at same
    rw [← AList.lookup_isSome, same, AList.lookup_isSome]
  constructor
  · intro assetId selected isThere
    have same := isSelected.same assetId
    rw [isThere, Option.map_some] at same
    obtain ⟨other, isOther, isAmount⟩ := Option.map_eq_some_iff.mp same.symm
    rw [← isAmount]
    exact accounted.needed assetId other isOther
  · intro dst inside notNull
    exact (mem_iff _).mpr (accounted.mem dst inside notNull)
  · exact (mem_iff _).mpr accounted.native
  · rw [mem_iff]
    exact accounted.notNull

section

variable {ownAddress : AccountPublicAddress} {dsts : List TxDestinationEntry}

theorem prepareAssets_eq {els : List (Σ _ : PublicKey, SelectionForAmount)}
    (enough : ∀ el ∈ els, el.2.neededAmount ≤ el.2.foundAmount)
    (finalDestinations : List TxDestinationEntry) :
    prepareAssets ownAddress dsts els finalDestinations =
      .ok (finalDestinations ++ els.flatMap fun el =>
        dsts.filter (fun dst => dst.assetId = el.1) ++ change ownAddress el.1 el.2) := by
  induction els generalizing finalDestinations with
  | nil => rw [List.flatMap_nil, List.append_nil, prepareAssets]
  | cons el els inductionHypothesis =>
      obtain ⟨enoughHere, enough⟩ := List.forall_mem_cons.mp enough
      rw [prepareAssets, prepareAssetDestinations, if_neg (UInt64.not_lt.mpr enoughHere)]
      simp only [Except.bind, bind, inductionHypothesis enough, List.flatMap_cons,
        List.append_assoc]

/-- The destinations under each of several assets, one asset after another. -/
theorem perm_of_assets {assetIds : List PublicKey} (nodup : assetIds.Nodup)
    (dsts : List TxDestinationEntry) :
    (assetIds.flatMap fun assetId => dsts.filter fun dst => dst.assetId = assetId).Perm
      (dsts.filter fun dst => dst.assetId ∈ assetIds) := by
  induction assetIds with
  | nil => simp
  | cons assetId assetIds inductionHypothesis =>
      obtain ⟨isNew, nodup⟩ := List.nodup_cons.mp nodup
      rw [List.flatMap_cons]
      have parted :=
        List.filter_append_perm (fun dst : TxDestinationEntry => decide (dst.assetId = assetId))
        (dsts.filter fun dst => dst.assetId ∈ assetId :: assetIds)
      apply List.Perm.trans _ parted
      rw [List.filter_filter, List.filter_filter]
      apply List.Perm.append
      · apply List.Perm.of_eq
        apply List.filter_congr
        intro dst _
        by_cases own : dst.assetId = assetId <;> simp [own]
      · apply (inductionHypothesis nodup).trans
        apply List.Perm.of_eq
        apply List.filter_congr
        intro dst _
        by_cases own : dst.assetId = assetId
        · simp [own, isNew]
        · simp [own]

theorem total_change_self (assetId other : PublicKey) (selected : SelectionForAmount) :
    total (change ownAddress assetId selected) other =
      if assetId = other then selected.foundAmount.toNat - selected.neededAmount.toNat else 0 := by
  have isMore : selected.neededAmount < selected.foundAmount ↔
      selected.neededAmount.toNat < selected.foundAmount.toNat := UInt64.lt_iff_toNat_lt
  rw [change]
  split
  · next more =>
      have isChange := UInt64.toNat_sub_of_le _ _ (UInt64.le_of_lt more)
      simp [TxDestinationEntry.ofAccount, isChange]
  · next notMore =>
      rw [isMore] at notMore
      rw [Nat.sub_eq_zero_of_le (by omega), total_nil, ite_self]

/-- The change of each asset is what was found beyond what is needed. -/
theorem total_change {els : List (Σ _ : PublicKey, SelectionForAmount)} (nodup : els.NodupKeys)
    (assetId : PublicKey) :
    total (els.flatMap fun el => change ownAddress el.1 el.2) assetId =
      ((els.dlookup assetId).map fun selected =>
        selected.foundAmount.toNat - selected.neededAmount.toNat).getD 0 := by
  induction els with
  | nil => rfl
  | cons el els inductionHypothesis =>
      obtain ⟨isNew, nodup⟩ := List.nodupKeys_cons.mp nodup
      rw [List.flatMap_cons, total_append, inductionHypothesis nodup, total_change_self]
      by_cases own : el.1 = assetId
      · subst own
        rw [if_pos rfl, List.dlookup_eq_none.mpr isNew, List.dlookup_cons_eq]
        simp
      · rw [if_neg own, List.dlookup_cons_ne _ _ (Ne.symm own), Nat.zero_add]

/-- How a requested destination is produced. -/
def produced (dst : TxDestinationEntry) : TxDestinationEntry :=
  if dst.assetId = nullPkey then .ofAddresses dst.amount dst.addr dst.assetId else dst

theorem produced_addr (dst : TxDestinationEntry) : (produced dst).addr = dst.addr := by
  rw [produced]
  split <;> rfl

theorem total_map_produced (assetId : PublicKey) :
    total (dsts.map produced) assetId = total dsts assetId := by
  have same : (fun dst : TxDestinationEntry => (dst.assetId, dst.amount)) ∘ produced =
      fun dst => (dst.assetId, dst.amount) := by
    funext dst
    rw [Function.comp_apply, produced]
    split <;> rfl
  rw [total, List.map_map, same, total]

def IsChange (ownAddress : AccountPublicAddress) (dst : TxDestinationEntry) : Prop :=
  ∃ amount assetId, dst = .ofAccount amount ownAddress assetId

/-- What there is before the last destination is split. -/
def unsplit (ownAddress : AccountPublicAddress) (selection : AssetsSelectionContext)
    (dsts : List TxDestinationEntry) :
    List TxDestinationEntry :=
  ((selection.entries.flatMap fun el =>
      dsts.filter (fun dst => dst.assetId = el.1) ++ change ownAddress el.1 el.2) ++
    (dsts.filter fun dst => dst.assetId = nullPkey ∨ dst.assetId ∉ selection).map fun dst =>
      TxDestinationEntry.ofAddresses dst.amount dst.addr dst.assetId).filter fun dst =>
        dst.addr ≠ []

/-- What is minted is made again, and everything else is taken as it is. -/
theorem produced_perm (dsts : List TxDestinationEntry) :
    ((dsts.filter fun dst => dst.assetId ≠ nullPkey) ++
      (dsts.filter fun dst => dst.assetId = nullPkey).map fun dst =>
        TxDestinationEntry.ofAddresses dst.amount dst.addr dst.assetId).Perm
          (dsts.map produced) := by
  have minted : ((dsts.filter fun dst => dst.assetId = nullPkey).map fun dst =>
      TxDestinationEntry.ofAddresses dst.amount dst.addr dst.assetId) =
        (dsts.filter fun dst => dst.assetId = nullPkey).map produced := by
    apply List.map_congr_left
    intro dst inside
    rw [produced, if_pos (by simpa using (List.mem_filter.mp inside).2)]
  have taken : (dsts.filter fun dst => dst.assetId ≠ nullPkey) =
      (dsts.filter fun dst => dst.assetId ≠ nullPkey).map produced := by
    conv_lhs => rw [← List.map_id (dsts.filter _)]
    apply List.map_congr_left
    intro dst inside
    rw [produced, if_neg (by simpa using (List.mem_filter.mp inside).2), id]
  rw [minted, taken, ← List.map_append]
  apply List.Perm.map
  apply List.perm_append_comm.trans
  convert List.filter_append_perm (fun dst : TxDestinationEntry => decide (dst.assetId = nullPkey))
    dsts using 4
  simp

theorem unsplit_perm {fee : UInt64} {selection : AssetsSelectionContext}
    (accounted : Accounted fee dsts selection) :
    (unsplit ownAddress selection dsts).Perm
      ((dsts.filter fun dst => dst.addr ≠ []).map produced ++
        selection.entries.flatMap fun el => change ownAddress el.1 el.2) := by
  have inMap : ∀ dst ∈ dsts, (dst.assetId ∈ selection.keys ↔ dst.assetId ≠ nullPkey) := by
    intro dst inside
    constructor
    · intro isThere isNull
      exact accounted.notNull (isNull ▸ isThere)
    · exact accounted.mem dst inside
  have taken : (selection.entries.flatMap fun el => dsts.filter fun dst => dst.assetId = el.1).Perm
      (dsts.filter fun dst => dst.assetId ≠ nullPkey) := by
    have parts := perm_of_assets selection.keys_nodup dsts
    rw [AList.keys, List.keys, List.flatMap_map] at parts
    apply parts.trans
    apply List.Perm.of_eq
    apply List.filter_congr
    intro dst inside
    have same := inMap dst inside
    rw [AList.keys, List.keys] at same
    simp only [same]
  have minted : (dsts.filter fun dst => dst.assetId = nullPkey ∨ dst.assetId ∉ selection) =
      dsts.filter fun dst => dst.assetId = nullPkey := by
    apply List.filter_congr
    intro dst inside
    have same := inMap dst inside
    rw [← AList.mem_keys] at same
    simp only [same, not_not, or_self]
  have changesStay : (selection.entries.flatMap fun el => change ownAddress el.1 el.2).filter
      (fun dst => dst.addr ≠ []) = selection.entries.flatMap fun el =>
        change ownAddress el.1 el.2 := by
    apply List.filter_eq_self.mpr
    intro dst inside
    obtain ⟨el, -, isChange⟩ := List.mem_flatMap.mp inside
    rw [change] at isChange
    split at isChange
    · rw [List.mem_singleton.mp isChange]
      rfl
    · cases isChange
  have stays : (dsts.map produced).filter (fun dst => dst.addr ≠ []) =
      (dsts.filter fun dst => dst.addr ≠ []).map produced := by
    rw [List.filter_map]
    congr 2
    funext dst
    rw [Function.comp_apply, produced_addr]
  rw [unsplit, minted, ← changesStay, ← stays, ← List.filter_append]
  apply List.Perm.filter
  have parted := List.flatMap_append_perm selection.entries
    (fun el => dsts.filter fun dst => dst.assetId = el.1) fun el => change ownAddress el.1 el.2
  apply (parted.symm.append_right _).trans
  rw [List.append_assoc]
  apply (List.perm_append_comm.append_left _).trans
  rw [← List.append_assoc]
  apply List.Perm.append_right
  exact (taken.append_right _).trans (produced_perm dsts)

/-! ## The last destination -/

/-- The last entry may stand in several entries, which differ from it in the amount only. -/
def SplitsLast (whole final : List TxDestinationEntry) : Prop :=
  final = whole ∨ ∃ others de, ∃ amounts : List UInt64, whole = others ++ [de] ∧
    (final = others ++ amounts.map fun amount => { de with amount }) ∧
      (∀ amount ∈ amounts, 0 < amount) ∧
      (amounts.map UInt64.toNat).sum = de.amount.toNat

theorem total_parts (de : TxDestinationEntry) (amounts : List UInt64) (assetId : PublicKey) :
    total (amounts.map fun amount => { de with amount }) assetId =
      if de.assetId = assetId then (amounts.map UInt64.toNat).sum else 0 := by
  induction amounts with
  | nil => simp
  | cons amount amounts inductionHypothesis =>
      rw [List.map_cons, total_cons, inductionHypothesis]
      split <;> simp

theorem SplitsLast.total_eq {whole final : List TxDestinationEntry}
    (isSplit : SplitsLast whole final) (assetId : PublicKey) :
    total final assetId = total whole assetId := by
  obtain rfl | ⟨others, de, amounts, rfl, rfl, -, sum⟩ := isSplit
  · rfl
  · rw [total_append, total_append, total_parts, sum]
    simp

theorem decompose_returns (rand : ℕ → UInt64) (amount : UInt64) {numberOfOutputs : ℕ}
    (some_ : 0 < numberOfOutputs) :
    (amount.toNat < numberOfOutputs ∧
        decomposeAmountRandomly rand amount numberOfOutputs currencyTxOutsRndSplitDigitsToKeep =
          some []) ∨
      ∃ parts, decomposeAmountRandomly rand amount numberOfOutputs
        currencyTxOutsRndSplitDigitsToKeep = some parts ∧
        parts.length = numberOfOutputs ∧ (∀ part ∈ parts, 0 < part) ∧
          (parts.map UInt64.toNat).sum = amount.toNat := by
  by_cases few : amount.toNat < numberOfOutputs
  · exact .inl ⟨few, if_pos few⟩
  · exact .inr (decomposeAmountRandomly_spec rand (.inr (by decide)) some_ (not_lt.mp few))

theorem splitLast_spec {rand : ℕ → UInt64} {outsNumberMin : ℕ}
    {whole final : List TxDestinationEntry}
    (isSplit : splitLast ownAddress rand outsNumberMin whole = .ok final) :
    outsNumberMin ≤ final.length ∧
      (SplitsLast whole final ∨
        whole = [] ∧
          final = List.replicate outsNumberMin (.ofAccount 0 ownAddress nativeCoinAssetId)) := by
  rw [splitLast] at isSplit
  split at isSplit
  · next isEmpty =>
      cases isSplit
      rw [List.length_replicate]
      exact ⟨le_rfl, .inr ⟨List.getLast?_eq_none_iff.mp isEmpty, rfl⟩⟩
  next de isLast =>
  obtain ⟨others, rfl⟩ := List.getLast?_eq_some_iff.mp isLast
  split at isSplit
  · next few =>
      rw [List.length_append, List.length_singleton] at few
      simp only [List.dropLast_concat] at isSplit
      obtain ⟨tooSmall, areParts⟩ | ⟨parts, areParts, length, allPositive, sum⟩ :=
        decompose_returns rand de.amount (show 0 < outsNumberMin - others.length by omega)
      · simp only [areParts, List.map_nil, List.append_nil] at isSplit
        split at isSplit
        · omega
        · cases isSplit
      · simp only [areParts] at isSplit
        split at isSplit
        · next isWhole =>
            cases isSplit
            exact ⟨isWhole.ge, .inl (.inr ⟨others, de, parts, rfl, rfl, allPositive, sum⟩)⟩
        · cases isSplit
  · next enough =>
      cases isSplit
      exact ⟨not_lt.mp enough, .inl (.inl rfl)⟩

theorem splitLast_ne_endless (rand : ℕ → UInt64) (outsNumberMin : ℕ)
    (whole : List TxDestinationEntry) :
    splitLast ownAddress rand outsNumberMin whole ≠ .error .endless := by
  intro isEndless
  rw [splitLast] at isEndless
  split at isEndless
  · cases isEndless
  next de isLast =>
  obtain ⟨others, rfl⟩ := List.getLast?_eq_some_iff.mp isLast
  split at isEndless
  · next few =>
      rw [List.length_append, List.length_singleton] at few
      simp only [List.dropLast_concat] at isEndless
      obtain ⟨-, areParts⟩ | ⟨parts, areParts, -⟩ :=
        decompose_returns rand de.amount (show 0 < outsNumberMin - others.length by omega)
      · simp only [areParts] at isEndless
        split at isEndless <;> cases isEndless
      · simp only [areParts] at isEndless
        split at isEndless <;> cases isEndless
  · cases isEndless

theorem prepareTxDestinations_eq {needed selection : AssetsSelectionContext}
    (isSelected : Selected needed selection) (rand : ℕ → UInt64) (outsNumberMin : ℕ)
    (txFlags : UInt8) :
    prepareTxDestinations ownAddress rand selection outsNumberMin dsts txFlags [] =
      if txFlags &&& txFlagSignatureModeSeparate ≠ 0 then .ok (unsplit ownAddress selection dsts)
      else splitLast ownAddress rand outsNumberMin (unsplit ownAddress selection dsts) := by
  have enough : ∀ el ∈ selection.entries, el.2.neededAmount ≤ el.2.foundAmount := by
    intro el inside
    exact isSelected.enough el.1 el.2 (AList.mem_lookup_iff.mpr inside)
  rw [prepareTxDestinations, prepareAssets_eq enough]
  simp only [bind, Except.bind, List.nil_append]
  rfl

end

/-! ## Nothing is lost -/

def found (selection : AssetsSelectionContext) (assetId : PublicKey) : ℕ :=
  (item selection assetId).foundAmount.toNat

/-- What is produced of a transfer: every destination that has an address, what comes back, and
nothing else. -/
structure Conserves (ownAddress : AccountPublicAddress) (fee : UInt64)
    (dsts : List TxDestinationEntry)
    (selection : AssetsSelectionContext) (final : List TxDestinationEntry) : Prop where
  produced : ∃ whole changes, SplitsLast whole final ∧
    whole.Perm ((dsts.filter fun dst => dst.addr ≠ []).map Destinations.produced ++ changes) ∧
      ∀ dst ∈ changes, IsChange ownAddress dst
  found : ∀ assetId ≠ nullPkey, found selection assetId =
    total final assetId + total (dsts.filter fun dst => dst.addr = []) assetId + feeOf fee assetId

section

variable {ownAddress : AccountPublicAddress} {fee : UInt64} {dsts : List TxDestinationEntry}
  {needed selection : AssetsSelectionContext}

theorem isChange_of_mem {dst : TxDestinationEntry}
    (inside : dst ∈ selection.entries.flatMap fun el => change ownAddress el.1 el.2) :
    IsChange ownAddress dst := by
  obtain ⟨el, -, isChange⟩ := List.mem_flatMap.mp inside
  rw [change] at isChange
  split at isChange
  · exact ⟨_, _, List.mem_singleton.mp isChange⟩
  · cases isChange

theorem found_eq (accounted : Accounted fee dsts selection) (isSelected : Selected needed selection)
    {assetId : PublicKey} (notNull : assetId ≠ nullPkey) :
    found selection assetId = total (unsplit ownAddress selection dsts) assetId +
      total (dsts.filter fun dst => dst.addr = []) assetId + feeOf fee assetId := by
  have isNeeded := accounted.item_neededAmount notNull
  have parts := total_filter_add (fun dst => decide (dst.addr ≠ [])) dsts assetId
  have burned :
      (dsts.filter fun dst => !decide (dst.addr ≠ [])) = dsts.filter fun dst => dst.addr = [] := by
    apply List.filter_congr
    intro dst _
    simp
  have covered :
      (item selection assetId).neededAmount.toNat ≤ (item selection assetId).foundAmount.toNat := by
    rw [item]
    cases isThere : selection.lookup assetId with
    | none => exact le_rfl
    | some selected => exact UInt64.le_iff_toNat_le.mp (isSelected.enough assetId selected isThere)
  have changes : ((selection.entries.dlookup assetId).map fun selected =>
      selected.foundAmount.toNat - selected.neededAmount.toNat).getD 0 =
        (item selection assetId).foundAmount.toNat -
          (item selection assetId).neededAmount.toNat := by
    rw [item, AList.lookup]
    cases selection.entries.dlookup assetId <;> rfl
  rw [burned] at parts
  rw [total_perm (unsplit_perm accounted), total_append, total_map_produced,
    total_change selection.nodupKeys, changes, found]
  omega

theorem conserves_unsplit (accounted : Accounted fee dsts selection)
    (isSelected : Selected needed selection) {final : List TxDestinationEntry}
    (isSplit : SplitsLast (unsplit ownAddress selection dsts) final) :
    Conserves ownAddress fee dsts selection final where
  produced := ⟨_, _, isSplit, unsplit_perm accounted, fun _ => isChange_of_mem⟩
  found := by
    intro assetId notNull
    rw [isSplit.total_eq]
    exact found_eq accounted isSelected notNull

/-- A transfer of nothing has outputs of nothing. -/
theorem conserves_nothing (accounted : Accounted fee dsts selection)
    (isSelected : Selected needed selection) (isEmpty : unsplit ownAddress selection dsts = [])
    (outsNumberMin : ℕ) :
    Conserves ownAddress fee dsts selection
      (List.replicate outsNumberMin (.ofAccount 0 ownAddress nativeCoinAssetId)) where
  produced := by
    refine ⟨_, List.replicate outsNumberMin (.ofAccount 0 ownAddress nativeCoinAssetId),
      .inl rfl, ?_, ?_⟩
    · have nothing := @unsplit_perm ownAddress dsts fee selection accounted
      rw [isEmpty] at nothing
      rw [(List.append_eq_nil_iff.mp nothing.nil_eq.symm).1, List.nil_append]
    · intro dst inside
      exact ⟨_, _, List.eq_of_mem_replicate inside⟩
  found := by
    intro assetId notNull
    have same := @found_eq ownAddress fee dsts needed selection accounted isSelected assetId notNull
    have zeros : total (List.replicate outsNumberMin (.ofAccount 0 ownAddress nativeCoinAssetId))
        assetId = 0 := by
      induction outsNumberMin with
      | zero => rfl
      | succ outsNumberMin inductionHypothesis =>
          rw [List.replicate_succ, total_cons, inductionHypothesis]
          simp [TxDestinationEntry.ofAccount]
    rw [isEmpty, total_nil] at same
    rw [zeros]
    exact same

theorem prepared_conserves (accounted : Accounted fee dsts selection)
    (isSelected : Selected needed selection) {rand : ℕ → UInt64} {outsNumberMin : ℕ}
    {txFlags : UInt8} {final : List TxDestinationEntry}
    (prepared :
      prepareTxDestinations ownAddress rand selection outsNumberMin dsts txFlags [] = .ok final) :
    Conserves ownAddress fee dsts selection final ∧
      (txFlags &&& txFlagSignatureModeSeparate = 0 → outsNumberMin ≤ final.length) := by
  rw [prepareTxDestinations_eq isSelected] at prepared
  split at prepared
  · next isSeparate =>
      cases prepared
      exact ⟨conserves_unsplit accounted isSelected (.inl rfl),
        fun notSeparate => absurd notSeparate isSeparate⟩
  · obtain ⟨enough, isSplit | ⟨isEmpty, rfl⟩⟩ := splitLast_spec prepared
    · exact ⟨conserves_unsplit accounted isSelected isSplit, fun _ => enough⟩
    · exact ⟨conserves_nothing accounted isSelected isEmpty outsNumberMin, fun _ => enough⟩

end

/-- Of each asset, what was found is what is produced, burned and paid as a fee. Every destination
with an address is produced, and what is produced besides is change. An amount is split into
positive parts. -/
theorem transfers_conserve :
    (∀ ownAddress rand fee dsts needed selection outsNumberMin txFlags,
      (∀ dt ∈ dsts, NoOverrides dt) →
      getNeededMoney fee dsts = .ok needed → Selected needed selection →
        prepareTxDestinations ownAddress rand selection outsNumberMin dsts txFlags [] ≠
          .error .endless ∧
          ∀ final, prepareTxDestinations ownAddress rand selection outsNumberMin dsts txFlags [] =
            .ok final →
            Conserves ownAddress fee dsts selection final ∧
              (txFlags &&& txFlagSignatureModeSeparate = 0 → outsNumberMin ≤ final.length)) ∧
      ∀ (rand : ℕ → UInt64) (amount : UInt64) (numberOfOutputs numDigitsToKeep : ℕ), 0 <
        numberOfOutputs →
        (numDigitsToKeep = 0 ∨ 2 ≤ numDigitsToKeep ∧ numDigitsToKeep < 64) →
          numberOfOutputs ≤ amount.toNat →
          ∃ parts, decomposeAmountRandomly rand amount numberOfOutputs numDigitsToKeep =
            some parts ∧
            parts.length = numberOfOutputs ∧ (∀ part ∈ parts, 0 < part) ∧
              (parts.map UInt64.toNat).sum = amount.toNat := by
  constructor
  · intro ownAddress rand fee dsts needed selection outsNumberMin txFlags noOverrides isNeeded
      isSelected
    constructor
    · rw [prepareTxDestinations_eq isSelected]
      split
      · exact fun isEndless => by cases isEndless
      · exact splitLast_ne_endless rand outsNumberMin _
    · intro final prepared
      have accounted := isSelected.accounted (getNeededMoney_accounted noOverrides isNeeded)
      exact prepared_conserves accounted isSelected prepared
  · intro rand amount numberOfOutputs numDigitsToKeep some_ keeps enough
    exact decomposeAmountRandomly_spec rand keeps some_ enough

private def payer : AccountPublicAddress := ⟨nullPkey, nullPkey, 0⟩

private def payee : AccountPublicAddress := ⟨nativeCoinAssetId, nativeCoinAssetId, 0⟩

private def onlyNative (neededAmount foundAmount : UInt64) : AssetsSelectionContext :=
  AList.singleton nativeCoinAssetId ⟨neededAmount, neededAmount, foundAmount⟩

theorem transfers_conserve_payment : ∃ final,
    prepareTxDestinations payer (fun _ => 0) (onlyNative 6 10) 2
      [.ofAccount 5 payee nativeCoinAssetId] 0 [] =
        .ok final ∧
      Conserves payer 1 [.ofAccount 5 payee nativeCoinAssetId] (onlyNative 6 10) final := by
  have isSelected : Selected (onlyNative 6 0) (onlyNative 6 10) := by
    constructor
    · intro assetId
      by_cases isNative : assetId = nativeCoinAssetId
      · subst isNative
        rfl
      · simp [onlyNative, AList.lookup, AList.singleton, isNative]
    · intro assetId selected isThere
      by_cases isNative : assetId = nativeCoinAssetId
      · subst isNative
        cases isThere
        decide
      · simp [onlyNative, AList.lookup, AList.singleton, isNative] at isThere
  have conserves := transfers_conserve.1 payer (fun _ => 0) 1 [.ofAccount 5 payee nativeCoinAssetId]
    (onlyNative 6 0)
    (onlyNative 6 10) 2 0 (by simp [NoOverrides, TxDestinationEntry.ofAccount]) rfl isSelected
  exact ⟨_, rfl, (conserves.2 _ rfl).1⟩

/-- The payment id of a destination that is minted is lost, and an amount in no parts is in one. -/
theorem minted_payment_id_lost :
    getNeededMoney 0 [{ amount := 5, addr := [.inl payee], assetId := nullPkey, paymentId := 7 }] =
        .ok (onlyNative 0 0) ∧
      prepareTxDestinations payer (fun _ => 0) (onlyNative 0 0) 1
          [{ amount := 5, addr := [.inl payee], assetId := nullPkey, paymentId := 7 }] 0 [] =
        .ok [
          { amount := 5, addr := [.inl payee], minimumSigs := 1, assetId := nullPkey,
            paymentId := 0 }] ∧
        ∀ rand, decomposeAmountRandomly rand 5 0 currencyTxOutsRndSplitDigitsToKeep = some [5] :=
  ⟨rfl, rfl, fun _ => rfl⟩

end Zano.Wallet.Destinations
