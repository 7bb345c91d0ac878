import Zano.Wallet.TransferRequests

/-! # What selection takes out of the cache of free amounts

Selecting coins of one asset parts its entries in three: those that are selected, which are ready,
those that are dropped, which are not, and those that are left. The entries that are left are none
if too little was found. Everything about selection follows from this.
-/

namespace Zano.Wallet

variable {Hash Key Asset : Type*}

theorem nearest_eq_none {wanted : UInt64} {entries : List FreeAmount}
    (nothing : nearest wanted entries = none) :
    entries = [] := by
  rw [nearest] at nothing
  cases isLast : entries.getLast? with
  | none => exact List.getLast?_eq_none_iff.mp isLast
  | some last =>
      have inside := List.mem_of_getLast? isLast
      grind [List.find?_eq_none]

theorem nearest_mem {wanted : UInt64} {entries : List FreeAmount} {entry : FreeAmount}
    (found : nearest wanted entries = some entry) : entry ∈ entries := by
  rw [nearest] at found
  grind [List.mem_of_find?_eq_some]

/-- How selection parts the entries of an asset. -/
structure Parted (ready : ℕ → Option Bool)
    (entries taken dropped left : List FreeAmount) : Prop where
  perm : entries.Perm (taken ++ (dropped ++ left))
  taken : ∀ entry ∈ taken, ready entry.2 = some true
  dropped : ∀ entry ∈ dropped, ready entry.2 = some false

namespace Parted

variable {ready : ℕ → Option Bool} {entries taken dropped left : List FreeAmount}

theorem mem_iff (parted : Parted ready entries taken dropped left) {entry : FreeAmount} :
    entry ∈ entries ↔ entry ∈ taken ∨ entry ∈ dropped ∨ entry ∈ left := by
  rw [parted.perm.mem_iff, List.mem_append, List.mem_append]

theorem select {entry : FreeAmount} (inside : entry ∈ entries) (isReady : ready entry.2 = some true)
    (parted : Parted ready (entries.erase entry) taken dropped left) :
    Parted ready entries (entry :: taken) dropped left where
  perm := (List.perm_cons_erase inside).trans (parted.perm.cons entry)
  taken := List.forall_mem_cons.mpr ⟨isReady, parted.taken⟩
  dropped := parted.dropped

theorem drop {entry : FreeAmount} (inside : entry ∈ entries) (notReady : ready entry.2 = some false)
    (parted : Parted ready (entries.erase entry) taken dropped left) :
    Parted ready entries taken (entry :: dropped) left where
  perm := (List.perm_cons_erase inside).trans ((parted.perm.cons entry).trans List.perm_middle.symm)
  taken := parted.taken
  dropped := List.forall_mem_cons.mpr ⟨notReady, parted.dropped⟩

end Parted

/-- What the loop answers about the entries it was given. -/
structure Picks (ready : ℕ → Option Bool) (neededMoney foundMoney : UInt64)
    (entries taken dropped : List FreeAmount)
    (picked : Picked) : Prop where
  parted : Parted ready entries taken dropped picked.left
  selected : picked.selected = taken.map Prod.snd
  foundMoney : picked.foundMoney = foundMoney + (taken.map Prod.fst).sum
  all : picked.foundMoney < neededMoney → picked.left = []

/-- The loop throws for a missing transfer only. -/
theorem selectIndicesOfAsset_spec {ready : ℕ → Option Bool} (neededMoney : UInt64) (rounds : ℕ)
    (foundMoney : UInt64) (entries : List FreeAmount) (enough : entries.length ≤ rounds)
    (present : ∀ entry ∈ entries, (ready entry.2).isSome) :
    ∃ picked taken dropped, selectIndicesOfAsset ready neededMoney rounds foundMoney entries =
      .ok picked ∧
      Picks ready neededMoney foundMoney entries taken dropped picked := by
  induction rounds generalizing foundMoney entries with
  | zero =>
      have nothing : entries = [] := List.eq_nil_of_length_eq_zero (by omega)
      subst nothing
      exact ⟨_, [], [], rfl, ⟨⟨List.Perm.refl _, by simp, by simp⟩, rfl, by simp, fun _ => rfl⟩⟩
  | succ rounds inductionHypothesis =>
      rw [selectIndicesOfAsset]
      split
      · cases found : nearest (neededMoney - foundMoney) entries with
        | none =>
            have nothing := nearest_eq_none found
            subst nothing
            exact ⟨_, [], [], rfl,
              ⟨⟨List.Perm.refl _, by simp, by simp⟩, rfl, by simp, fun _ => rfl⟩⟩
        | some entry =>
            have inside := nearest_mem found
            have shorter : (entries.erase entry).length ≤ rounds := by
              rw [List.length_erase_of_mem inside]
              omega
            have stillPresent : ∀ other ∈ entries.erase entry, (ready other.2).isSome :=
              fun other inRest => present other (List.mem_of_mem_erase inRest)
            obtain ⟨isReady, answer⟩ := Option.isSome_iff_exists.mp (present entry inside)
            dsimp only
            cases isReady with
            | true =>
                obtain ⟨picked, taken, dropped, picks, spec⟩ :=
                  inductionHypothesis (foundMoney + entry.1) (entries.erase entry) shorter
                    stillPresent
                refine ⟨picked.select entry.2, entry :: taken,
                  dropped, by rw [answer, picks]; rfl, ?_⟩
                have total :
                    picked.foundMoney = foundMoney + ((entry :: taken).map Prod.fst).sum := by
                  rw [spec.foundMoney, List.map_cons, List.sum_cons, add_assoc]
                have indexes :
                    (picked.select entry.2).selected = (entry :: taken).map Prod.snd := by
                  rw [List.map_cons, ← spec.selected]
                  rfl
                exact ⟨spec.parted.select inside answer, indexes, total, spec.all⟩
            | false =>
                obtain ⟨picked, taken, dropped, picks, spec⟩ :=
                  inductionHypothesis foundMoney (entries.erase entry) shorter stillPresent
                refine ⟨picked, taken, entry :: dropped, by rw [answer, picks], ?_⟩
                exact ⟨spec.parted.drop inside answer, spec.selected, spec.foundMoney, spec.all⟩
      · exact ⟨_, [], [], rfl,
          ⟨⟨List.Perm.refl _, by simp, by simp⟩, rfl, by simp, fun short => by contradiction⟩⟩

/-! ## All assets -/

variable [DecidableEq Asset]

theorem mem_insertFreeAmount {entry other : FreeAmount} {entries : List FreeAmount} :
    other ∈ insertFreeAmount entry entries ↔ other = entry ∨ other ∈ entries := by
  induction entries with
  | nil => simp [insertFreeAmount]
  | cons first rest inductionHypothesis =>
      rw [insertFreeAmount]
      grind

theorem mem_add {free : FreeAmounts Asset} {assetId assetId' : Asset} {amount : UInt64} {index : ℕ}
    {entry : FreeAmount} :
    entry ∈ (free.add assetId amount index).ofAsset assetId' ↔
      assetId' = assetId ∧ entry = (amount, index) ∨ entry ∈ free.ofAsset assetId' := by
  by_cases here : assetId' = assetId
  · subst here
    simp [FreeAmounts.add, mem_insertFreeAmount]
  · simp [FreeAmounts.add, here]

/-- The entries of an asset among those that were taken. -/
def takenOf (assetId : Asset) (taken : List (Asset × FreeAmount)) : List FreeAmount :=
  (taken.filter fun t => t.1 = assetId).map Prod.snd

theorem mem_takenOf {assetId : Asset} {taken : List (Asset × FreeAmount)} {entry : FreeAmount} :
    entry ∈ takenOf assetId taken ↔ (assetId, entry) ∈ taken := by
  simp only [takenOf, List.mem_map, List.mem_filter, decide_eq_true_eq]
  constructor
  · rintro ⟨⟨_, _⟩, ⟨inside, rfl⟩, rfl⟩
    exact inside
  · intro inside
    exact ⟨_, ⟨inside, rfl⟩, rfl⟩

theorem takenOf_append (assetId : Asset) (taken later : List (Asset × FreeAmount)) :
    takenOf assetId (taken ++ later) = takenOf assetId taken ++ takenOf assetId later := by
  simp [takenOf]

theorem takenOf_map_mk (assetId assetId' : Asset) (entries : List FreeAmount) :
    takenOf assetId' (entries.map (assetId, ·)) = if assetId = assetId' then entries else [] := by
  split
  · next same => simp [takenOf, List.filter_map, Function.comp_def, same]
  · next different => simp [takenOf, List.filter_map, Function.comp_def, different]

/-- How the entries of all assets are parted. -/
structure PartedAll (ready : ℕ → Option Bool) (free : FreeAmounts Asset)
    (taken : List (Asset × FreeAmount))
    (left : FreeAmounts Asset) : Prop where
  parted : ∀ assetId, ∃ dropped, Parted ready (free.ofAsset assetId) (takenOf assetId taken) dropped
    (left.ofAsset assetId)
  assets : left.assets = free.assets

theorem partedAll_refl (ready : ℕ → Option Bool) (free : FreeAmounts Asset) :
    PartedAll ready free [] free where
  parted := fun _ => ⟨[], ⟨List.Perm.refl _, by simp [takenOf], by simp⟩⟩
  assets := rfl

theorem Parted.cons_all {ready : ℕ → Option Bool} {free left : FreeAmounts Asset} {assetId : Asset}
    {taken dropped leftOfAsset : List FreeAmount} {later : List (Asset × FreeAmount)}
    (first : Parted ready (free.ofAsset assetId) taken dropped leftOfAsset)
    (rest : PartedAll ready (free.set assetId leftOfAsset) later left) :
    PartedAll ready free (taken.map (assetId, ·) ++ later) left where
  assets := rest.assets
  parted := by
    intro assetId'
    obtain ⟨droppedLater, parted⟩ := rest.parted assetId'
    rw [takenOf_append, takenOf_map_mk]
    by_cases same : assetId = assetId'
    · subst same
      simp only [FreeAmounts.set, Function.update_self] at parted
      refine ⟨dropped ++ droppedLater, ?_, ?_, ?_⟩
      · simp only [if_pos, List.append_assoc]
        apply first.perm.trans
        apply List.Perm.append_left
        apply (parted.perm.append_left dropped).trans
        exact List.perm_append_comm_assoc _ _ _
      · rw [if_pos rfl]
        exact List.forall_mem_append.mpr ⟨first.taken, parted.taken⟩
      · exact List.forall_mem_append.mpr ⟨first.dropped, parted.dropped⟩
    · rw [if_neg same]
      simp only [FreeAmounts.set, Function.update_of_ne (Ne.symm same)] at parted
      exact ⟨droppedLater, parted⟩

theorem PartedAll.mem_taken {ready : ℕ → Option Bool} {free left : FreeAmounts Asset}
    {taken : List (Asset × FreeAmount)} (parted : PartedAll ready free taken left) {assetId : Asset}
    {entry : FreeAmount} (inside : (assetId, entry) ∈ taken) :
    entry ∈ free.ofAsset assetId ∧ ready entry.2 = some true := by
  obtain ⟨dropped, parts⟩ := parted.parted assetId
  have inTaken := mem_takenOf.mpr inside
  exact ⟨parts.mem_iff.mpr (Or.inl inTaken), parts.taken entry inTaken⟩

theorem PartedAll.mem_left {ready : ℕ → Option Bool} {free left : FreeAmounts Asset}
    {taken : List (Asset × FreeAmount)} (parted : PartedAll ready free taken left) {assetId : Asset}
    {entry : FreeAmount} (inside : entry ∈ left.ofAsset assetId) :
    entry ∈ free.ofAsset assetId := by
  obtain ⟨dropped, parts⟩ := parted.parted assetId
  exact parts.mem_iff.mpr (Or.inr (Or.inr inside))

/-- The amount that was found of an asset. -/
def foundOf (assetId : Asset) (taken : List (Asset × FreeAmount)) : UInt64 :=
  ((takenOf assetId taken).map Prod.fst).sum

/-- What the entry of an asset in the map of needed money becomes. -/
def NeededMoney.found (taken : List (Asset × FreeAmount))
    (item : NeededMoney Asset) : NeededMoney Asset :=
  if item.requestedAmount = 0 then item else { item with foundAmount := foundOf item.assetId taken }

/-- What the loop over the assets answers. The amounts are told for a map that
has each asset once. -/
structure Selects (ready : ℕ → Option Bool) (items : List (NeededMoney Asset))
    (free : FreeAmounts Asset)
    (taken : List (Asset × FreeAmount)) (selection : Selection Asset) : Prop where
  parted : PartedAll ready free taken selection.free
  selected : selection.selected = taken.map fun t => t.2.2
  requested : ∀ t ∈ taken, ∃ item ∈ items, item.assetId = t.1 ∧ item.requestedAmount ≠ 0
  needed : (items.map NeededMoney.assetId).Nodup →
    selection.needed = items.map (NeededMoney.found taken)
  enough : (items.map NeededMoney.assetId).Nodup → ∀ item ∈ items, item.requestedAmount ≠ 0 →
    item.requestedAmount ≤ foundOf item.assetId taken

/-- Why the loop over the assets throws: all entries of an asset that are ready are too little. -/
def FallsShort (ready : ℕ → Option Bool) (items : List (NeededMoney Asset))
    (free : FreeAmounts Asset) : Prop :=
  ∃ item ∈ items, item.requestedAmount ≠ 0 ∧
    (item.assetId ∉ free.assets ∨
      ∃ taken dropped, Parted ready (free.ofAsset item.assetId) taken dropped [] ∧
        (taken.map Prod.fst).sum < item.requestedAmount)

section Assets

theorem takenOf_eq_nil {assetId : Asset} {taken : List (Asset × FreeAmount)}
    (absent : ∀ t ∈ taken, t.1 ≠ assetId) : takenOf assetId taken = [] := by
  rw [takenOf, List.filter_eq_nil_iff.mpr, List.map_nil]
  intro t inside
  simpa using absent t inside

/-- An asset that is selected from first has its entries in front; the others are
not touched by it. -/
theorem foundOf_cons (assetId assetId' : Asset) (entries : List FreeAmount)
    {later : List (Asset × FreeAmount)} (absent : ∀ t ∈ later, t.1 ≠ assetId) :
    foundOf assetId' (entries.map (assetId, ·) ++ later) =
      if assetId = assetId' then (entries.map Prod.fst).sum else foundOf assetId' later := by
  rw [foundOf, takenOf_append, takenOf_map_mk]
  split
  · next same =>
      subst same
      rw [takenOf_eq_nil absent, List.append_nil]
  · rw [List.nil_append, foundOf]

theorem selects_cons {item : NeededMoney Asset} {items : List (NeededMoney Asset)}
    {free : FreeAmounts Asset} {ready : ℕ → Option Bool} {taken dropped : List FreeAmount}
    {later : List (Asset × FreeAmount)} {picked : Picked} {selection : Selection Asset}
    (requested : item.requestedAmount ≠ 0)
    (picks : Picks ready item.requestedAmount 0 (free.ofAsset item.assetId) taken dropped picked)
    (enough : item.requestedAmount ≤ picked.foundMoney)
    (rest : Selects ready items (free.set item.assetId picked.left) later selection) :
    Selects ready (item :: items) free (taken.map (item.assetId, ·) ++ later)
      { selection with
        needed := { item with foundAmount := picked.foundMoney } :: selection.needed
        selected := picked.selected ++ selection.selected } := by
  have total : picked.foundMoney = (taken.map Prod.fst).sum := by rw [picks.foundMoney, zero_add]
  have absent : ((item :: items).map NeededMoney.assetId).Nodup →
      ∀ t ∈ later, t.1 ≠ item.assetId := by
    intro nodup t inside same
    obtain ⟨other, inItems, isAsset, _⟩ := rest.requested t inside
    rw [List.map_cons, List.nodup_cons] at nodup
    exact nodup.1 (List.mem_map.mpr ⟨other, inItems, isAsset.trans same⟩)
  have untouched : ((item :: items).map NeededMoney.assetId).Nodup → ∀ other ∈ items,
      foundOf other.assetId (taken.map (item.assetId, ·) ++ later) =
        foundOf other.assetId later := by
    intro nodup other inItems
    rw [foundOf_cons _ _ _ (absent nodup), if_neg]
    rw [List.map_cons, List.nodup_cons] at nodup
    exact fun same => nodup.1 (List.mem_map.mpr ⟨other, inItems, same.symm⟩)
  exact {
    parted := picks.parted.cons_all rest.parted
    selected := by
      simp only [picks.selected, rest.selected, List.map_append, List.map_map, Function.comp_def]
    requested := by
      intro t inside
      cases List.mem_append.mp inside with
      | inl isTaken =>
          obtain ⟨entry, _, rfl⟩ := List.mem_map.mp isTaken
          exact ⟨item, List.mem_cons_self, rfl, requested⟩
      | inr isLater =>
          obtain ⟨other, inItems, isAsset⟩ := rest.requested t isLater
          exact ⟨other, List.mem_cons_of_mem _ inItems, isAsset⟩
    needed := by
      intro nodup
      rw [List.map_cons, NeededMoney.found, if_neg requested, foundOf_cons _ _ _ (absent nodup),
        if_pos rfl, total]
      rw [rest.needed (List.nodup_cons.mp (by simpa using nodup)).2]
      apply congrArg (List.cons _)
      apply List.map_congr_left
      intro other inItems
      rw [NeededMoney.found, NeededMoney.found, untouched nodup other inItems]
    enough := by
      intro nodup other inside isRequested
      cases List.mem_cons.mp inside with
      | inl same =>
          rw [same, foundOf_cons _ _ _ (absent nodup), if_pos rfl, ← total]
          exact enough
      | inr inItems =>
          rw [untouched nodup other inItems]
          exact rest.enough (List.nodup_cons.mp (by simpa using nodup)).2 other inItems
            isRequested }

theorem selects_skip {item : NeededMoney Asset} {items : List (NeededMoney Asset)}
    {free : FreeAmounts Asset} {ready : ℕ → Option Bool} {taken : List (Asset × FreeAmount)}
    {selection : Selection Asset} (notRequested : item.requestedAmount = 0)
    (rest : Selects ready items free taken selection) :
    Selects ready (item :: items) free taken
      { selection with needed := item :: selection.needed } where
  parted := rest.parted
  selected := rest.selected
  requested := by
    intro t inside
    obtain ⟨other, inItems, isAsset⟩ := rest.requested t inside
    exact ⟨other, List.mem_cons_of_mem _ inItems, isAsset⟩
  needed := by
    intro nodup
    rw [List.map_cons, NeededMoney.found, if_pos notRequested,
      rest.needed (List.nodup_cons.mp (by simpa using nodup)).2]
  enough := by
    intro nodup other inside isRequested
    cases List.mem_cons.mp inside with
    | inl same => exact absurd (same ▸ notRequested) isRequested
    | inr inItems =>
        exact rest.enough (List.nodup_cons.mp (by simpa using nodup)).2 other inItems isRequested

theorem FallsShort.cons {item : NeededMoney Asset} {items : List (NeededMoney Asset)}
    {free : FreeAmounts Asset} {ready : ℕ → Option Bool} {left : List FreeAmount}
    (nodup : ((item :: items).map NeededMoney.assetId).Nodup)
    (short : FallsShort ready items (free.set item.assetId left)) :
    FallsShort ready (item :: items) free := by
  obtain ⟨other, inItems, requested, short⟩ := short
  have different : other.assetId ≠ item.assetId := by
    rw [List.map_cons, List.nodup_cons] at nodup
    exact fun same => nodup.1 (List.mem_map.mpr ⟨other, inItems, same⟩)
  refine ⟨other, List.mem_cons_of_mem _ inItems, requested, ?_⟩
  simpa [FreeAmounts.set, different] using short

/-- With a transfer for each entry of the cache, the loop over the assets selects, or an
asset falls short. -/
theorem selectAssets_spec (settings : Settings Asset) (s : WalletState Hash Key Asset)
    (fakeOutputsCount : ℕ) (items : List (NeededMoney Asset)) (free : FreeAmounts Asset)
    (present :
      ∀ assetId, ∀ entry ∈ free.ofAsset assetId, ∃ td, s.transfers.find? entry.2 = some td) :
    let ready := isReadyForSelection settings s fakeOutputsCount
    (∃ selection taken, selectAssets settings s fakeOutputsCount items free = .ok selection ∧
        Selects ready items free taken selection) ∨
      selectAssets settings s fakeOutputsCount items free = .error .notEnoughMoney ∧
        ((items.map NeededMoney.assetId).Nodup → FallsShort ready items free) := by
  intro ready
  induction items generalizing free with
  | nil =>
      left
      exact ⟨_, [], rfl, ⟨partedAll_refl ready free, rfl, by simp, fun _ => rfl, by simp⟩⟩
  | cons item items inductionHypothesis =>
      rw [selectAssets]
      split
      · next notRequested =>
          cases inductionHypothesis free present with
          | inl selects =>
              obtain ⟨selection, taken, answer, spec⟩ := selects
              exact Or.inl ⟨_, taken, by rw [answer]; rfl, selects_skip notRequested spec⟩
          | inr failed =>
              right
              refine ⟨by rw [failed.1]; rfl, fun nodup => ?_⟩
              obtain ⟨other, inItems, short⟩ :=
                failed.2 (List.nodup_cons.mp (by simpa using nodup)).2
              exact ⟨other, List.mem_cons_of_mem _ inItems, short⟩
      · next requested =>
          split
          · next absent =>
              exact Or.inr ⟨rfl, fun _ => ⟨item, List.mem_cons_self, requested, Or.inl absent⟩⟩
          · have isSome : ∀ entry ∈ free.ofAsset item.assetId, (ready entry.2).isSome := by
              intro entry inside
              obtain ⟨td, found⟩ := present item.assetId entry inside
              simp [ready, isReadyForSelection, found]
            obtain ⟨picked, taken, dropped, answer, picks⟩ :=
              selectIndicesOfAsset_spec item.requestedAmount _ 0 (free.ofAsset item.assetId)
                le_rfl isSome
            have total : picked.foundMoney = (taken.map Prod.fst).sum := by
              rw [picks.foundMoney, zero_add]
            rw [answer]
            dsimp only
            split
            · next short =>
                right
                refine ⟨rfl,
                  fun _ => ⟨item, List.mem_cons_self, requested,
                    Or.inr ⟨taken, dropped, ?_, total ▸ short⟩⟩⟩
                have parted := picks.parted
                rwa [picks.all short] at parted
            · next enough =>
                have stillPresent :
                    ∀ assetId, ∀ entry ∈ (free.set item.assetId picked.left).ofAsset assetId,
                    ∃ td, s.transfers.find? entry.2 = some td := by
                  intro assetId entry inside
                  by_cases same : assetId = item.assetId
                  · subst same
                    simp only [FreeAmounts.set, Function.update_self] at inside
                    exact present _ entry (picks.parted.mem_iff.mpr (Or.inr (Or.inr inside)))
                  · simp only [FreeAmounts.set, Function.update_of_ne same] at inside
                    exact present _ entry inside
                cases inductionHypothesis _ stillPresent with
                | inl selects =>
                    obtain ⟨selection, later, answer, spec⟩ := selects
                    exact Or.inl ⟨_, _, by rw [answer]; rfl,
                      selects_cons requested picks (UInt64.not_lt.mp enough) spec⟩
                | inr failed =>
                    exact Or.inr ⟨by rw [failed.1]; rfl, fun nodup => (failed.2
                      (List.nodup_cons.mp (by simpa using nodup)).2).cons nodup⟩

end Assets

/-! ## The cache -/

theorem mem_cacheTransfers {settings : Settings Asset} {fakeOutputsCount : ℕ}
    {rows : List (ℕ × TransferDetails Hash Key Asset)} {free : FreeAmounts Asset} {assetId : Asset}
    {entry : FreeAmount} :
    entry ∈ (rows.foldl (cacheTransfer settings fakeOutputsCount) free).ofAsset assetId ↔
      entry ∈ free.ofAsset assetId ∨
        ∃ row ∈ rows, isTransferAbleToGo settings row.2
          (cacheFakeOutputsCount settings row.2 fakeOutputsCount) = true ∧
          row.2.getAssetId settings.native = assetId ∧ entry = (row.2.amount, row.1) := by
  induction rows generalizing free with
  | nil => simp
  | cons row rows inductionHypothesis =>
      rw [List.foldl_cons, inductionHypothesis, cacheTransfer]
      split
      · next able =>
          rw [mem_add]
          simp only [List.exists_mem_cons_iff]
          grind
      · next notAble =>
          simp only [List.exists_mem_cons_iff]
          grind

/-! ## The input with hidden amount -/

section ZcInput

omit [DecidableEq Asset]

/-- An entry that `expand_selection_with_zc_input` takes: it is one with hidden amount, and the
first entry of its amount is ready. -/
structure IsZcInput (settings : Settings Asset) (s : WalletState Hash Key Asset)
    (fakeOutputsCount : ℕ)
    (cached : List FreeAmount) (entry : FreeAmount) : Prop where
  isZc : ∃ td, s.transfers.find? entry.2 = some td ∧ td.isZc = true
  firstIsReady : ∃ first td, (cached.find? fun first => first.1 = entry.1) = some first ∧
    s.transfers.find? first.2 = some td ∧ isTransferReadyToGo settings s td fakeOutputsCount = true

theorem zcInput_spec (settings : Settings Asset) (s : WalletState Hash Key Asset)
    (fakeOutputsCount : ℕ) {cached : List FreeAmount} (entries : List FreeAmount)
    (inside : ∀ entry ∈ entries, entry ∈ cached)
    (present : ∀ entry ∈ cached, ∃ td, s.transfers.find? entry.2 = some td) :
    (∃ entry ∈ entries, zcInput settings s fakeOutputsCount cached entries = .ok entry ∧
        IsZcInput settings s fakeOutputsCount cached entry) ∨
      zcInput settings s fakeOutputsCount cached entries = .error .noZcInputs ∧
        ∀ entry ∈ entries, ¬IsZcInput settings s fakeOutputsCount cached entry := by
  induction entries with
  | nil => exact Or.inr ⟨rfl, by simp⟩
  | cons entry entries inductionHypothesis =>
      obtain ⟨here, later⟩ := List.forall_mem_cons.mp inside
      have rest := inductionHypothesis later
      obtain ⟨td, found⟩ := present entry here
      obtain ⟨first, isFirst⟩ : ∃ first, (cached.find? fun first => first.1 = entry.1) =
          some first := by
        apply Option.isSome_iff_exists.mp
        rw [List.find?_isSome]
        exact ⟨entry, here, by simp⟩
      obtain ⟨firstTd, foundFirst⟩ := present first (List.mem_of_find?_eq_some isFirst)
      rw [zcInput]
      simp only [found, isFirst, Option.bind_some, foundFirst]
      by_cases takes : td.isZc = true ∧
        isTransferReadyToGo settings s firstTd fakeOutputsCount = true
      · left
        exact ⟨entry, List.mem_cons_self, by simp [takes.1, takes.2],
          ⟨⟨td, found, takes.1⟩, ⟨first, firstTd, isFirst, foundFirst, takes.2⟩⟩⟩
      · have passes : ¬IsZcInput settings s fakeOutputsCount cached entry := by
          intro isInput
          obtain ⟨td', found', isZc⟩ := isInput.isZc
          obtain ⟨first', firstTd', isFirst', foundFirst', isReady⟩ := isInput.firstIsReady
          grind
        have goesOn : (if (!td.isZc) = true then zcInput settings s fakeOutputsCount cached entries
            else if isTransferReadyToGo settings s firstTd fakeOutputsCount = true then .ok entry
            else zcInput settings s fakeOutputsCount cached entries) =
              zcInput settings s fakeOutputsCount cached entries := by grind
        rw [goesOn]
        cases rest with
        | inl taken =>
            obtain ⟨other, inEntries, answer⟩ := taken
            exact Or.inl ⟨other, List.mem_cons_of_mem _ inEntries, answer⟩
        | inr none_ => exact Or.inr ⟨none_.1, List.forall_mem_cons.mpr ⟨passes, none_.2⟩⟩

end ZcInput

/-! ## Selection -/

/-- What selection from the cache of a state answers. -/
inductive Answers (settings : Settings Asset) (s : WalletState Hash Key Asset)
    (items : List (NeededMoney Asset))
    (needAtLeast1Zc : Bool) (fakeOutputsCount : ℕ) : Except Failure (Selection Asset) → Prop where
  | fallsShort
      (short : (items.map NeededMoney.assetId).Nodup →
        FallsShort (isReadyForSelection settings s fakeOutputsCount) items s.foundFreeAmounts) :
      Answers settings s items needAtLeast1Zc fakeOutputsCount (.error .notEnoughMoney)
  | selects {taken : List (Asset × FreeAmount)} {selection : Selection Asset}
      (selects : Selects (isReadyForSelection settings s fakeOutputsCount) items s.foundFreeAmounts
        taken selection)
      (zc : needAtLeast1Zc = true → hasZc s selection.selected = true) :
      Answers settings s items needAtLeast1Zc fakeOutputsCount (.ok selection)
  | expands {taken : List (Asset × FreeAmount)} {selection : Selection Asset} {entry : FreeAmount}
      (selects : Selects (isReadyForSelection settings s fakeOutputsCount) items s.foundFreeAmounts
        taken selection)
      (required : needAtLeast1Zc = true) (noZc : hasZc s selection.selected = false)
      (cached : entry ∈ selection.free.ofAsset settings.native)
      (isInput :
        IsZcInput settings s fakeOutputsCount (selection.free.ofAsset settings.native) entry) :
      Answers settings s items needAtLeast1Zc fakeOutputsCount (.ok
        { needed := addFoundAmount settings.native entry.1 selection.needed
          selected := selection.selected ++ [entry.2]
          free := selection.free.set settings.native
            ((selection.free.ofAsset settings.native).erase entry) })
  | noZcInputs {taken : List (Asset × FreeAmount)} {selection : Selection Asset}
      (selects : Selects (isReadyForSelection settings s fakeOutputsCount) items s.foundFreeAmounts
        taken selection)
      (required : needAtLeast1Zc = true) (noZc : hasZc s selection.selected = false)
      (noInput : ∀ entry ∈ selection.free.ofAsset settings.native,
        ¬IsZcInput settings s fakeOutputsCount (selection.free.ofAsset settings.native) entry) :
      Answers settings s items needAtLeast1Zc fakeOutputsCount (.error .noZcInputs)

theorem selectIndicesForTransfer_answers (settings : Settings Asset)
    (s : WalletState Hash Key Asset) (items : List (NeededMoney Asset)) (needAtLeast1Zc : Bool)
    (fakeOutputsCount : ℕ) (present : ∀ assetId, ∀ entry ∈ s.foundFreeAmounts.ofAsset assetId, ∃ td,
      s.transfers.find? entry.2 = some td) :
    Answers settings s items needAtLeast1Zc fakeOutputsCount
      (selectIndicesForTransfer settings s items needAtLeast1Zc fakeOutputsCount) := by
  rw [selectIndicesForTransfer]
  cases selectAssets_spec settings s fakeOutputsCount items s.foundFreeAmounts present with
  | inr failed =>
      rw [failed.1]
      exact .fallsShort failed.2
  | inl succeeded =>
      obtain ⟨selection, taken, answer, selects⟩ := succeeded
      rw [answer]
      dsimp only
      split
      · next expands =>
          simp only [Bool.and_eq_true, Bool.not_eq_true'] at expands
          have stillPresent : ∀ entry ∈ selection.free.ofAsset settings.native,
              ∃ td, s.transfers.find? entry.2 = some td :=
            fun entry inside => present _ entry (selects.parted.mem_left inside)
          rw [expandSelectionWithZcInput]
          cases zcInput_spec settings s fakeOutputsCount _ (fun _ inside => inside)
            stillPresent with
          | inl found =>
              obtain ⟨entry, inside, answer, isInput⟩ := found
              rw [answer]
              exact .expands selects expands.1 expands.2 inside isInput
          | inr nothing =>
              rw [nothing.1]
              exact .noZcInputs selects expands.1 expands.2 nothing.2
      · next enough =>
          apply Answers.selects selects
          intro required
          simpa [required] using enough

end Zano.Wallet
