import Mathlib
import Zano.Lib.SecondaryIndex
import Zano.Lib.Transition
import Zano.Pool.Transactions

/-! # The side tables of the pool

The key images are an exact index of the main table, whatever is asked of the pool. The alias names
and addresses are only marks. A mark is taken away with any of the transactions that have it, and it
stays when the whole pool is emptied, so the marks are right as long as neither happens to an alias.
-/

namespace Zano.Pool.TxMemoryPool

open SecondaryIndex Transition

variable {Hash KeyImage Address SecretKey Signature W : Type*}

/-! ## What the tables should hold -/

/-- The ids in the set of a key image; none if it has no set. -/
def spenders (keyImages : KeyImage → Option (Finset Hash)) (kImage : KeyImage) : Set Hash :=
  {id | ∃ idSet, keyImages kImage = some idSet ∧ id ∈ idSet}

def NoEmptySet (keyImages : KeyImage → Option (Finset Hash)) : Prop :=
  ∀ kImage, keyImages kImage ≠ some ∅

def spends (td : TxDetails Hash KeyImage Address SecretKey Signature W) : Set KeyImage :=
  {kImage | kImage ∈ td.tx.keyImages}

def takesName (td : TxDetails Hash KeyImage Address SecretKey Signature W) : Set String :=
  {aliasName | ∃ entry, td.tx.aliasInfo = some entry ∧ entry.aliasName = aliasName}

def takesAddress (td : TxDetails Hash KeyImage Address SecretKey Signature W) : Set Address :=
  {addr | ∃ entry, td.tx.aliasInfo = some entry ∧ entry.address = addr}

variable [DecidableEq Hash]

def details (s : TxMemoryPool Hash KeyImage Address SecretKey Signature W) (id : Hash) :
    Option (TxDetails Hash KeyImage Address SecretKey Signature W) :=
  s.transactions.lookup id

structure KeyImagesExact (s : TxMemoryPool Hash KeyImage Address SecretKey Signature W) : Prop where
  spenders : Exact s.details spends (spenders s.keyImages)
  noEmptySet : NoEmptySet s.keyImages

structure AliasesExact (s : TxMemoryPool Hash KeyImage Address SecretKey Signature W) : Prop where
  names : Covers s.details takesName {aliasName | aliasName ∈ s.aliasNames}
  addresses : Covers s.details takesAddress {addr | addr ∈ s.aliasAddresses}

/-! ## Key images -/

section KeyImages

variable [DecidableEq KeyImage] {keyImages : KeyImage → Option (Finset Hash)} {id i : Hash}
  {k : KeyImage}

omit [DecidableEq KeyImage] [DecidableEq Hash] in
theorem mem_spenders : i ∈ spenders keyImages k ↔ i ∈ (keyImages k).getD ∅ := by
  unfold spenders
  cases keyImages k <;> simp

theorem mem_spenders_insertKeyImage {kImage : KeyImage} :
    i ∈ spenders (insertKeyImage id keyImages kImage) k ↔
      (i = id ∧ k = kImage) ∨ i ∈ spenders keyImages k := by
  rw [mem_spenders, mem_spenders, insertKeyImage]
  by_cases same : k = kImage
  · subst same
    simp
  · simp [same]

theorem NoEmptySet.insertKeyImage {kImage : KeyImage} (noEmptySet : NoEmptySet keyImages) :
    NoEmptySet (insertKeyImage id keyImages kImage) := by
  intro k
  unfold TxMemoryPool.insertKeyImage
  by_cases same : k = kImage
  · subst same
    simp
  · rw [Function.update_of_ne same]
    exact noEmptySet k

theorem mem_spenders_insertAll {kImages : List KeyImage} :
    i ∈ spenders (kImages.foldl (insertKeyImage id) keyImages) k ↔
      (i = id ∧ k ∈ kImages) ∨ i ∈ spenders keyImages k := by
  induction kImages generalizing keyImages with
  | nil => simp
  | cons kImage rest inductionHypothesis =>
      rw [List.foldl_cons, inductionHypothesis, mem_spenders_insertKeyImage, List.mem_cons]
      grind

theorem NoEmptySet.insertAll {kImages : List KeyImage} (noEmptySet : NoEmptySet keyImages) :
    NoEmptySet (kImages.foldl (TxMemoryPool.insertKeyImage id) keyImages) := by
  induction kImages generalizing keyImages with
  | nil => exact noEmptySet
  | cons kImage rest inductionHypothesis => exact inductionHypothesis noEmptySet.insertKeyImage

theorem mem_spenders_removeKeyImage {kImage : KeyImage} :
    i ∈ spenders (removeKeyImage id keyImages kImage) k ↔
      i ∈ spenders keyImages k ∧ ¬(i = id ∧ k = kImage) := by
  rw [mem_spenders, mem_spenders, removeKeyImage]
  by_cases same : k = kImage
  · subst same
    rw [Function.update_self]
    split
    · rename_i nobody
      have notThere : i ∉ ((keyImages k).getD ∅).erase id := by
        rw [nobody]
        exact Finset.notMem_empty i
      rw [Finset.mem_erase] at notThere
      simp only [Option.getD_none, Finset.notMem_empty, and_true, false_iff]
      intro ⟨inside, different⟩
      exact notThere ⟨different, inside⟩
    · simp only [Option.getD_some, Finset.mem_erase, and_true]
      exact And.comm
  · simp [same]

theorem NoEmptySet.removeKeyImage {kImage : KeyImage} (noEmptySet : NoEmptySet keyImages) :
    NoEmptySet (removeKeyImage id keyImages kImage) := by
  intro k
  unfold TxMemoryPool.removeKeyImage
  by_cases same : k = kImage
  · subst same
    rw [Function.update_self]
    split
    · simp
    · simpa using ‹¬_›
  · rw [Function.update_of_ne same]
    exact noEmptySet k

theorem mem_spenders_removeAll {kImages : List KeyImage} :
    i ∈ spenders (kImages.foldl (removeKeyImage id) keyImages) k ↔
      i ∈ spenders keyImages k ∧ ¬(i = id ∧ k ∈ kImages) := by
  induction kImages generalizing keyImages with
  | nil => simp
  | cons kImage rest inductionHypothesis =>
      rw [List.foldl_cons, inductionHypothesis, mem_spenders_removeKeyImage, List.mem_cons]
      grind

theorem NoEmptySet.removeAll {kImages : List KeyImage} (noEmptySet : NoEmptySet keyImages) :
    NoEmptySet (kImages.foldl (TxMemoryPool.removeKeyImage id) keyImages) := by
  induction kImages generalizing keyImages with
  | nil => exact noEmptySet
  | cons kImage rest inductionHypothesis => exact inductionHypothesis noEmptySet.removeKeyImage

/-- The map that is read from the main table when the pool is opened. -/
theorem mem_spenders_getKeyImagesFromTxPool
    {s : TxMemoryPool Hash KeyImage Address SecretKey Signature W} :
    i ∈ spenders (s.getKeyImagesFromTxPool fun _ => none) k ↔
      ∃ td, s.details i = some td ∧ k ∈ spends td := by
  have collected :
      ∀ (entries : List ((_ : Hash) × TxDetails Hash KeyImage Address SecretKey Signature W))
      (keyImages : KeyImage → Option (Finset Hash)),
      i ∈ spenders
        (entries.foldl (fun keyImages e => insertKeyImages keyImages e.1 e.2.tx) keyImages) k ↔
        (∃ e ∈ entries, e.1 = i ∧ k ∈ spends e.2) ∨ i ∈ spenders keyImages k := by
    intro entries
    induction entries with
    | nil => simp
    | cons e rest inductionHypothesis =>
        intro keyImages
        rw [List.foldl_cons, inductionHypothesis, insertKeyImages, mem_spenders_insertAll]
        simp only [List.mem_cons, exists_eq_or_imp, spends, Set.mem_ofPred_eq]
        grind
  rw [getKeyImagesFromTxPool, collected]
  constructor
  · rintro (⟨e, inside, rfl, has⟩ | inside)
    · exact ⟨e.2, AList.mem_lookup_iff.mpr inside, has⟩
    · simp [spenders] at inside
  · intro ⟨td, isThere, has⟩
    exact .inl ⟨⟨i, td⟩, AList.mem_lookup_iff.mp isThere, rfl, has⟩

theorem noEmptySet_getKeyImagesFromTxPool
    (s : TxMemoryPool Hash KeyImage Address SecretKey Signature W) :
    NoEmptySet (s.getKeyImagesFromTxPool fun _ => none) := by
  have collected :
      ∀ (entries : List ((_ : Hash) × TxDetails Hash KeyImage Address SecretKey Signature W))
      (keyImages : KeyImage → Option (Finset Hash)), NoEmptySet keyImages →
      NoEmptySet
        (entries.foldl (fun keyImages e => insertKeyImages keyImages e.1 e.2.tx) keyImages) := by
    intro entries
    induction entries with
    | nil => exact fun _ noEmptySet => noEmptySet
    | cons e rest inductionHypothesis =>
        exact fun _ noEmptySet => inductionHypothesis _ noEmptySet.insertAll
  exact collected _ _ fun _ => by simp

end KeyImages

/-! ## Transactions that come and go -/

section Changes

variable [DecidableEq KeyImage] [DecidableEq Address]
  {s s' s'' : TxMemoryPool Hash KeyImage Address SecretKey Signature W} {id : Hash}
  {tx : Transaction Hash KeyImage Address SecretKey Signature W}

@[simp]
theorem details_onTxAdd : (s.onTxAdd id tx).details = s.details := by
  unfold onTxAdd
  cases tx.aliasInfo <;> rfl

@[simp]
theorem keyImages_onTxAdd : (s.onTxAdd id tx).keyImages = insertKeyImages s.keyImages id tx := by
  unfold onTxAdd
  cases tx.aliasInfo <;> rfl

theorem mem_aliasNames_onTxAdd {aliasName : String} : aliasName ∈ (s.onTxAdd id tx).aliasNames ↔
    (∃ entry, tx.aliasInfo = some entry ∧ entry.aliasName = aliasName) ∨
      aliasName ∈ s.aliasNames := by
  unfold onTxAdd
  cases tx.aliasInfo <;> simp [eq_comm]

theorem mem_aliasAddresses_onTxAdd {addr : Address} : addr ∈ (s.onTxAdd id tx).aliasAddresses ↔
    (∃ entry, tx.aliasInfo = some entry ∧ entry.address = addr) ∨ addr ∈ s.aliasAddresses := by
  unfold onTxAdd
  cases tx.aliasInfo <;> simp [eq_comm]

@[simp]
theorem details_onTxRemove : (s.onTxRemove id tx).details = s.details := by
  unfold onTxRemove
  cases tx.aliasInfo <;> rfl

@[simp]
theorem keyImages_onTxRemove :
    (s.onTxRemove id tx).keyImages = removeKeyImages s.keyImages id tx := by
  unfold onTxRemove
  cases tx.aliasInfo <;> rfl

theorem mem_aliasNames_onTxRemove {aliasName : String} :
    aliasName ∈ (s.onTxRemove id tx).aliasNames ↔
    aliasName ∈ s.aliasNames ∧ ¬∃ entry, tx.aliasInfo = some entry ∧
      entry.aliasName = aliasName := by
  unfold onTxRemove
  cases tx.aliasInfo <;> simp [and_comm, eq_comm]

theorem mem_aliasAddresses_onTxRemove {addr : Address} :
    addr ∈ (s.onTxRemove id tx).aliasAddresses ↔
    addr ∈ s.aliasAddresses ∧ ¬∃ entry, tx.aliasInfo = some entry ∧ entry.address = addr := by
  unfold onTxRemove
  cases tx.aliasInfo <;> simp [and_comm, eq_comm]

/-- These transactions have been removed one after the other, each with the key images and the alias
that are given with it. -/
structure Erased (s s' : TxMemoryPool Hash KeyImage Address SecretKey Signature W)
    (gone : List (Hash × Transaction Hash KeyImage Address SecretKey Signature W)) : Prop where
  removes : Removes s.details s'.details {id | ∃ e ∈ gone, e.1 = id}
  spenders : ∀ kImage id, id ∈ spenders s'.keyImages kImage ↔
    id ∈ TxMemoryPool.spenders s.keyImages kImage ∧ ¬∃ e ∈ gone, e.1 = id ∧ kImage ∈ e.2.keyImages
  noEmptySet : NoEmptySet s.keyImages → NoEmptySet s'.keyImages
  names : ∀ aliasName, aliasName ∈ s'.aliasNames ↔ aliasName ∈ s.aliasNames ∧
    ¬∃ e ∈ gone, ∃ entry, e.2.aliasInfo = some entry ∧ entry.aliasName = aliasName
  addresses : ∀ addr, addr ∈ s'.aliasAddresses ↔ addr ∈ s.aliasAddresses ∧
    ¬∃ e ∈ gone, ∃ entry, e.2.aliasInfo = some entry ∧ entry.address = addr

omit [DecidableEq KeyImage] [DecidableEq Address] in
theorem Erased.nil : Erased s s [] where
  removes := ⟨by simp, fun _ _ => rfl⟩
  spenders := by simp
  noEmptySet := id
  names := by simp
  addresses := by simp

omit [DecidableEq KeyImage] [DecidableEq Address] in
theorem Erased.append
    {first later : List (Hash × Transaction Hash KeyImage Address SecretKey Signature W)}
    (before : Erased s s' first) (after : Erased s' s'' later) : Erased s s'' (first ++ later) where
  removes := by
    constructor
    · rintro id ⟨e, inside, rfl⟩
      by_cases inLater : ∃ e' ∈ later, e'.1 = e.1
      · exact after.removes.1 e.1 inLater
      · rw [after.removes.2 e.1 inLater]
        rcases List.mem_append.mp inside with inFirst | inside
        · exact before.removes.1 e.1 ⟨e, inFirst, rfl⟩
        · exact absurd ⟨e, inside, rfl⟩ inLater
    · intro id stays
      rw [after.removes.2 id fun ⟨e, inside, same⟩ =>
        stays ⟨e, List.mem_append_right first inside, same⟩]
      exact before.removes.2 id fun ⟨e, inside, same⟩ =>
        stays ⟨e, List.mem_append_left later inside, same⟩
  spenders := by
    intro kImage id
    rw [after.spenders, before.spenders]
    simp only [List.mem_append, or_and_right, exists_or]
    grind
  noEmptySet := fun noEmptySet => after.noEmptySet (before.noEmptySet noEmptySet)
  names := by
    intro aliasName
    rw [after.names, before.names]
    simp only [List.mem_append, or_and_right, exists_or]
    grind
  addresses := by
    intro addr
    rw [after.addresses, before.addresses]
    simp only [List.mem_append, or_and_right, exists_or]
    grind

theorem erased_eraseTx : Erased s (s.eraseTx id tx) [(id, tx)] where
  removes := by
    constructor
    · rintro i ⟨e, inside, rfl⟩
      rw [List.mem_singleton] at inside
      subst inside
      simp only [eraseTx, details_onTxRemove]
      exact AList.lookup_erase id s.transactions
    · intro i stays
      have different : i ≠ id := fun same => stays ⟨(id, tx), List.mem_singleton_self _, same.symm⟩
      simp only [eraseTx, details_onTxRemove]
      exact AList.lookup_erase_ne different
  spenders := by
    intro kImage i
    simp only [eraseTx, keyImages_onTxRemove, removeKeyImages]
    rw [mem_spenders_removeAll]
    simp [eq_comm]
  noEmptySet := by
    intro noEmptySet
    simp only [eraseTx, keyImages_onTxRemove, removeKeyImages]
    exact noEmptySet.removeAll
  names := by
    intro aliasName
    simp only [eraseTx, mem_aliasNames_onTxRemove, List.mem_singleton, exists_eq_left]
  addresses := by
    intro addr
    simp only [eraseTx, mem_aliasAddresses_onTxRemove, List.mem_singleton, exists_eq_left]

theorem erased_foldl
    (gone : List (Hash × Transaction Hash KeyImage Address SecretKey Signature W)) :
    Erased s (gone.foldl (fun s e => s.eraseTx e.1 e.2) s) gone := by
  induction gone generalizing s with
  | nil => exact .nil
  | cons e rest inductionHypothesis => exact erased_eraseTx.append inductionHypothesis

theorem erased_takeTx {td : TxDetails Hash KeyImage Address SecretKey Signature W}
    (isThere : s.details id = some td) :
    Erased s (s.takeTx id).2 [(id, td.tx)] := by
  have taken : (s.takeTx id).2 =
      { s.eraseTx id td.tx with takenTxs := insert id (s.eraseTx id td.tx).takenTxs } := by
    unfold takeTx
    rw [show s.transactions.lookup id = some td from isThere]
  rw [taken]
  have erased : Erased s (s.eraseTx id td.tx) [(id, td.tx)] := erased_eraseTx
  obtain ⟨removes, spenders, noEmptySet, names, addresses⟩ := erased
  exact ⟨removes, spenders, noEmptySet, names, addresses⟩

theorem takeTx_of_missing (missing : s.details id = none) : (s.takeTx id).2 = s := by
  unfold takeTx
  rw [show s.transactions.lookup id = none from missing]

/-- Transactions with different ids that are taken one after the other. -/
theorem erased_takeAll
    (entries : List ((_ : Hash) × TxDetails Hash KeyImage Address SecretKey Signature W))
    (distinct : (entries.map (·.1)).Nodup) (recorded : ∀ e ∈ entries, s.details e.1 = some e.2) :
    Erased s ((entries.map (·.1)).foldl (fun s id => (s.takeTx id).2) s) (entries.map fun e =>
      (e.1, e.2.tx)) := by
  induction entries generalizing s with
  | nil => exact .nil
  | cons e rest inductionHypothesis =>
      rw [List.map_cons, List.nodup_cons] at distinct
      have taken := erased_takeTx (recorded e List.mem_cons_self)
      refine taken.append (inductionHypothesis distinct.2 fun e' inside => ?_)
      have different : e'.1 ≠ e.1 := fun same => distinct.1 (same ▸ List.mem_map_of_mem inside)
      rw [taken.removes.2 e'.1 (by simpa using different)]
      exact recorded e' (List.mem_cons_of_mem e inside)

end Changes

/-! ## One request -/

section Steps

variable [DecidableEq KeyImage] [DecidableEq Address]
  {s s' : TxMemoryPool Hash KeyImage Address SecretKey Signature W}
  {gone : List (Hash × Transaction Hash KeyImage Address SecretKey Signature W)}

/-- Each of these transactions is given as it stands in the main table. -/
def Recorded (s : TxMemoryPool Hash KeyImage Address SecretKey Signature W)
    (gone : List (Hash × Transaction Hash KeyImage Address SecretKey Signature W)) : Prop :=
  ∀ e ∈ gone, ∃ td, s.details e.1 = some td ∧ td.tx = e.2

/-- The key images that are taken away from an id. -/
def clearedOf (gone : List (Hash × Transaction Hash KeyImage Address SecretKey Signature W))
    (id : Hash) :
    Set KeyImage :=
  {kImage | ∃ e ∈ gone, e.1 = id ∧ kImage ∈ e.2.keyImages}

/-- No transaction that stays has the alias name or the alias address of one that leaves. -/
def NoneShared (s : TxMemoryPool Hash KeyImage Address SecretKey Signature W)
    (removed : Set Hash) : Prop :=
  ∀ id ∈ removed, ∀ td, s.details id = some td →
    ∀ other ∉ removed, ∀ td', s.details other = some td' →
    Disjoint (takesName td) (takesName td') ∧ Disjoint (takesAddress td) (takesAddress td')

def NoAliases (s : TxMemoryPool Hash KeyImage Address SecretKey Signature W) : Prop :=
  ∀ id td, s.details id = some td → td.tx.aliasInfo = none

omit [DecidableEq KeyImage] [DecidableEq Address] in
theorem exists_recorded_iff (recorded : s.Recorded gone)
    (P : Hash → Transaction Hash KeyImage Address SecretKey Signature W → Prop) :
    (∃ e ∈ gone, P e.1 e.2) ↔
      ∃ id ∈ {id | ∃ e ∈ gone, e.1 = id}, ∃ td, s.details id = some td ∧ P id td.tx := by
  constructor
  · intro ⟨e, inside, has⟩
    obtain ⟨td, isThere, same⟩ := recorded e inside
    exact ⟨e.1, ⟨e, inside, rfl⟩, td, isThere, same ▸ has⟩
  · rintro ⟨_, ⟨e, inside, rfl⟩, td, isThere, has⟩
    obtain ⟨td', isThere', same⟩ := recorded e inside
    rw [isThere] at isThere'
    cases isThere'
    exact ⟨e, inside, same ▸ has⟩

omit [DecidableEq KeyImage] [DecidableEq Address] in
theorem KeyImagesExact.erased (exact_ : s.KeyImagesExact) (recorded : s.Recorded gone)
    (erased : Erased s s' gone) :
    s'.KeyImagesExact where
  spenders := by
    have clears : ∀ kImage id, id ∈ TxMemoryPool.spenders s'.keyImages kImage ↔
        id ∈ TxMemoryPool.spenders s.keyImages kImage ∧
          ¬(id ∈ {id | ∃ e ∈ gone, e.1 = id} ∧ kImage ∈ clearedOf gone id) := by
      intro kImage id
      rw [erased.spenders]
      simp only [clearedOf, Set.mem_ofPred_eq]
      grind
    refine (exact_remove_iff exact_.spenders erased.removes clears).mpr ?_
    rintro _ ⟨e, inside, rfl⟩ td isThere kImage has
    obtain ⟨td', isThere', same⟩ := recorded e inside
    rw [isThere] at isThere'
    cases isThere'
    exact ⟨e, inside, rfl, same ▸ has⟩
  noEmptySet := erased.noEmptySet exact_.noEmptySet

omit [DecidableEq KeyImage] [DecidableEq Address] in
theorem AliasesExact.erased_iff (exact_ : s.AliasesExact) (recorded : s.Recorded gone)
    (erased : Erased s s' gone) :
    s'.AliasesExact ↔ s.NoneShared {id | ∃ e ∈ gone, e.1 = id} := by
  have names : Covers s'.details takesName {aliasName | aliasName ∈ s'.aliasNames} ↔ _ :=
    covers_remove_iff exact_.names erased.removes fun aliasName => by
      rw [Set.mem_ofPred_eq, erased.names, exists_recorded_iff recorded fun _ tx =>
        ∃ entry, tx.aliasInfo = some entry ∧ entry.aliasName = aliasName]
      rfl
  have addresses : Covers s'.details takesAddress {addr | addr ∈ s'.aliasAddresses} ↔ _ :=
    covers_remove_iff exact_.addresses erased.removes fun addr => by
      rw [Set.mem_ofPred_eq, erased.addresses, exists_recorded_iff recorded fun _ tx =>
        ∃ entry, tx.aliasInfo = some entry ∧ entry.address = addr]
      rfl
  constructor
  · intro exact' id inside td isThere other stays td' isThere'
    exact ⟨names.mp exact'.names id inside td isThere other stays td' isThere',
      addresses.mp exact'.addresses id inside td isThere other stays td' isThere'⟩
  · intro noneShared
    constructor
    · refine names.mpr fun id inside td isThere other stays td' isThere' => ?_
      exact (noneShared id inside td isThere other stays td' isThere').1
    · refine addresses.mpr fun id inside td isThere other stays td' isThere' => ?_
      exact (noneShared id inside td isThere other stays td' isThere').2

omit [DecidableEq KeyImage] [DecidableEq Address] in
theorem mem_entries_iff {e : (_ : Hash) × TxDetails Hash KeyImage Address SecretKey Signature W} :
    e ∈ s.transactions.entries ↔ s.details e.1 = some e.2 :=
  AList.mem_lookup_iff.symm

omit [DecidableEq Hash] [DecidableEq KeyImage] [DecidableEq Address] in
theorem eq_of_mem_stuckEntries {env : Environment Hash KeyImage Address SecretKey Signature W}
    {id : Hash} {td : TxDetails Hash KeyImage Address SecretKey Signature W}
    {e : Hash × Transaction Hash KeyImage Address SecretKey Signature W}
    (inside : e ∈ stuckEntries env id td) :
    e = (id, td.tx) := by
  unfold stuckEntries at inside
  split at inside
  · cases inside
  · obtain ⟨reason, -, isEntry⟩ := List.mem_filterMap.mp inside
    cases reason with
    | false => cases isEntry
    | true =>
        cases isEntry
        rfl

theorem erased_removeStuckTransactions
    (env : Environment Hash KeyImage Address SecretKey Signature W) :
    ∃ gone, s.Recorded gone ∧ Erased s (s.removeStuckTransactions env) gone ∧
      {id | ∃ e ∈ gone, e.1 = id} =
        {id | ∃ td, s.details id = some td ∧ stuckEntries env id td ≠ []} := by
  refine ⟨_, ?_, erased_foldl _, ?_⟩
  · intro e inside
    obtain ⟨entry, isThere, inside⟩ := List.mem_flatMap.mp inside
    rw [eq_of_mem_stuckEntries inside]
    exact ⟨entry.2, mem_entries_iff.mp isThere, rfl⟩
  · ext id
    constructor
    · rintro ⟨e, inside, rfl⟩
      obtain ⟨entry, isThere, inside⟩ := List.mem_flatMap.mp inside
      rw [eq_of_mem_stuckEntries inside]
      exact ⟨entry.2, mem_entries_iff.mp isThere, List.ne_nil_of_mem inside⟩
    · intro ⟨td, isThere, stuck⟩
      obtain ⟨e, inside⟩ := List.exists_mem_of_ne_nil _ stuck
      refine ⟨e, List.mem_flatMap.mpr ⟨⟨id, td⟩, mem_entries_iff.mpr isThere, inside⟩, ?_⟩
      rw [eq_of_mem_stuckEntries inside]

theorem erased_removeIncompatibleTxs
    (env : Environment Hash KeyImage Address SecretKey Signature W) :
    ∃ gone, s.Recorded gone ∧ Erased s (s.removeIncompatibleTxs env) gone ∧
      {id | ∃ e ∈ gone, e.1 = id} =
        {id | ∃ td, s.details id = some td ∧
          env.validateTxForHardforkSpecificTerms td.tx id = false} := by
  have distinct : ((s.transactions.entries.filter fun e =>
      !env.validateTxForHardforkSpecificTerms e.2.tx e.1).map (·.1)).Nodup :=
    s.transactions.keys_nodup.sublist (List.filter_sublist.map _)
  refine ⟨_, ?_,
    erased_takeAll _ distinct fun e inside =>
      mem_entries_iff.mp (List.mem_of_mem_filter inside), ?_⟩
  · intro e inside
    obtain ⟨entry, isThere, rfl⟩ := List.mem_map.mp inside
    exact ⟨entry.2, mem_entries_iff.mp (List.mem_of_mem_filter isThere), rfl⟩
  · ext id
    constructor
    · rintro ⟨e, inside, rfl⟩
      obtain ⟨entry, isThere, rfl⟩ := List.mem_map.mp inside
      obtain ⟨isThere, incompatible⟩ := List.mem_filter.mp isThere
      exact ⟨entry.2, mem_entries_iff.mp isThere, by simpa using incompatible⟩
    · intro ⟨td, isThere, incompatible⟩
      refine ⟨(id, td.tx),
        List.mem_map.mpr ⟨⟨id, td⟩, List.mem_filter.mpr ⟨mem_entries_iff.mpr isThere, ?_⟩,
          rfl⟩, rfl⟩
      simpa using incompatible

theorem addTx_cases (env : Environment Hash KeyImage Address SecretKey Signature W)
    (tx : Transaction Hash KeyImage Address SecretKey Signature W) (id : Hash) (blobSize : UInt64)
    (tvc : TxVerificationContext) (keptByBlock fromCore : Bool) :
    (s.addTx env tx id blobSize tvc keptByBlock fromCore).2 = s ∨
      ∃ fee maxUsed, (s.addTx env tx id blobSize tvc keptByBlock fromCore).2 =
        s.doInsertTransaction env.coreTime tx id blobSize keptByBlock fee maxUsed := by
  unfold addTx
  split
  · cases env.getTxFee tx with
    | none => exact .inl rfl
    | some fee => exact .inr ⟨fee, (none, 0), rfl⟩
  · cases s.verifyTx env tx id blobSize tvc keptByBlock fromCore with
    | error refusal => exact .inl rfl
    | ok passed => exact .inr ⟨passed.1, passed.2.getD (none, 0), rfl⟩

/-- An id in the pool is met again with its own transaction only. -/
def SameBody (s : TxMemoryPool Hash KeyImage Address SecretKey Signature W) (id : Hash)
    (tx : Transaction Hash KeyImage Address SecretKey Signature W) : Prop :=
  ∀ td, s.details id = some td → td.tx.toTransactionBody = tx.toTransactionBody

variable {env : Environment Hash KeyImage Address SecretKey Signature W} {id : Hash}
  {tx : Transaction Hash KeyImage Address SecretKey Signature W} {coreTime blobSize fee : UInt64}
  {keptByBlock : Bool} {maxUsed : Option Hash × UInt64}

omit [DecidableEq KeyImage] [DecidableEq Address] in
theorem lookup_insert_eq_update (td : TxDetails Hash KeyImage Address SecretKey Signature W) :
    (fun i => (s.transactions.insert id td).lookup i) = Function.update s.details id (some td) := by
  funext i
  by_cases same : i = id
  · subst same
    rw [AList.lookup_insert, Function.update_self]
  · rw [AList.lookup_insert_ne same, Function.update_of_ne same]
    rfl

/-- The transaction has been put into the table and its marks into the side tables. -/
structure Inserted (s s' : TxMemoryPool Hash KeyImage Address SecretKey Signature W) (id : Hash)
    (td : TxDetails Hash KeyImage Address SecretKey Signature W) : Prop where
  details : s'.details = Function.update s.details id (some td)
  spenders : ∀ kImage i, i ∈ spenders s'.keyImages kImage ↔
    (i = id ∧ kImage ∈ spends td) ∨ i ∈ TxMemoryPool.spenders s.keyImages kImage
  noEmptySet : NoEmptySet s.keyImages → NoEmptySet s'.keyImages
  names : ∀ aliasName, aliasName ∈ s'.aliasNames ↔
    aliasName ∈ takesName td ∨ aliasName ∈ s.aliasNames
  addresses : ∀ addr, addr ∈ s'.aliasAddresses ↔ addr ∈ takesAddress td ∨ addr ∈ s.aliasAddresses

theorem inserted_doInsertTransaction :
    Inserted s (s.doInsertTransaction coreTime tx id blobSize keptByBlock fee maxUsed) id
      (newDetails coreTime tx blobSize keptByBlock fee maxUsed) where
  details := by
    rw [doInsertTransaction, details_onTxAdd]
    exact lookup_insert_eq_update _
  spenders := by
    intro kImage i
    rw [doInsertTransaction, keyImages_onTxAdd, insertKeyImages, mem_spenders_insertAll]
    rfl
  noEmptySet := by
    intro noEmptySet
    rw [doInsertTransaction, keyImages_onTxAdd]
    exact noEmptySet.insertAll
  names := by
    intro aliasName
    rw [doInsertTransaction, mem_aliasNames_onTxAdd]
    rfl
  addresses := by
    intro addr
    rw [doInsertTransaction, mem_aliasAddresses_onTxAdd]
    rfl

omit [DecidableEq KeyImage] [DecidableEq Address] in
theorem KeyImagesExact.inserted {td : TxDetails Hash KeyImage Address SecretKey Signature W}
    (exact_ : s.KeyImagesExact) (sameBody : s.SameBody id td.tx) (inserted : Inserted s s' id td) :
    s'.KeyImagesExact where
  spenders := by
    rw [inserted.details]
    refine (exact_insert_iff exact_.spenders inserted.spenders).mpr fun old wasThere kImage has =>
      ?_
    simpa only [spends, Set.mem_ofPred_eq, sameBody old wasThere] using has
  noEmptySet := inserted.noEmptySet exact_.noEmptySet

omit [DecidableEq KeyImage] [DecidableEq Address] in
theorem AliasesExact.inserted {td : TxDetails Hash KeyImage Address SecretKey Signature W}
    (exact_ : s.AliasesExact) (sameBody : s.SameBody id td.tx) (inserted : Inserted s s' id td) :
    s'.AliasesExact where
  names := by
    rw [inserted.details]
    refine (covers_insert_iff exact_.names inserted.names).mpr fun old wasThere aliasName has =>
      .inl ?_
    simpa only [takesName, Set.mem_ofPred_eq, sameBody old wasThere] using has
  addresses := by
    rw [inserted.details]
    refine (covers_insert_iff exact_.addresses inserted.addresses).mpr fun old wasThere addr has =>
      .inl ?_
    simpa only [takesAddress, Set.mem_ofPred_eq, sameBody old wasThere] using has

/-! ## Emptying and opening the pool -/

omit [DecidableEq KeyImage] [DecidableEq Address] in
theorem KeyImagesExact.of_nothing (nothing : s.transactions = ∅)
    (noKeyImages : s.keyImages = fun _ => none) :
    s.KeyImagesExact where
  spenders := by simp [Exact, TxMemoryPool.spenders, details, nothing, noKeyImages]
  noEmptySet := by simp [NoEmptySet, noKeyImages]

omit [DecidableEq KeyImage] [DecidableEq Address] in
/-- The whole table is emptied and the alias marks stay. -/
theorem AliasesExact.emptied_iff (exact_ : s.AliasesExact) (nothing : s'.transactions = ∅)
    (sameNames : s'.aliasNames = s.aliasNames)
    (sameAddresses : s'.aliasAddresses = s.aliasAddresses) :
    s'.AliasesExact ↔ s.NoAliases := by
  have noDetails : s'.details = fun _ => none := by
    funext id
    rw [details, nothing]
    exact AList.lookup_empty id
  constructor
  · intro exact' id td isThere
    have names := exact'.names
    rw [noDetails, sameNames] at names
    have keyless := (covers_empty_iff exact_.names).mp names id td isThere
    rw [Set.eq_empty_iff_forall_notMem] at keyless
    cases aliasInfo : td.tx.aliasInfo with
    | none => rfl
    | some entry => exact absurd ⟨entry, aliasInfo, rfl⟩ (keyless entry.aliasName)
  · intro noAliases
    constructor
    · rw [noDetails, sameNames]
      refine (covers_empty_iff exact_.names).mpr fun id td isThere => ?_
      simp [takesName, noAliases id td isThere]
    · rw [noDetails, sameAddresses]
      refine (covers_empty_iff exact_.addresses).mpr fun id td isThere => ?_
      simp [takesAddress, noAliases id td isThere]

end Steps

/-! ## Runs -/

section Runs

variable [DecidableEq KeyImage] [DecidableEq Address]
  {getTransactionHash : TransactionBody Hash KeyImage Address SecretKey Signature → Hash}

/-- No id of the pool is met again with another transaction. -/
def NoCollision
    (getTransactionHash : TransactionBody Hash KeyImage Address SecretKey Signature → Hash)
    (s : TxMemoryPool Hash KeyImage Address SecretKey Signature W) :
    Request Hash KeyImage Address SecretKey Signature W → Prop
  | .addTx _ tx _ _ _ _ => s.SameBody (getTransactionHash tx.toTransactionBody) tx
  | _ => True

/-- No transaction leaves while another one with its alias name or its alias address stays, and the
pool is not emptied while there are aliases in it. -/
def KeepsAliases
    (getTransactionHash : TransactionBody Hash KeyImage Address SecretKey Signature → Hash)
    (s : TxMemoryPool Hash KeyImage Address SecretKey Signature W) :
    Request Hash KeyImage Address SecretKey Signature W → Prop
  | .addTx _ tx _ _ _ _ => s.SameBody (getTransactionHash tx.toTransactionBody) tx
  | .takeTx id => s.NoneShared {id}
  | .removeStuckTransactions env =>
      s.NoneShared {id | ∃ td, s.details id = some td ∧ stuckEntries env id td ≠ []}
  | .removeIncompatibleTxs env => s.NoneShared
      {id | ∃ td, s.details id = some td ∧ env.validateTxForHardforkSpecificTerms td.tx id = false}
  | .purgeTransactions => s.NoAliases
  | .clear => s.NoAliases
  | .reload _ => True

variable {s s' : TxMemoryPool Hash KeyImage Address SecretKey Signature W}
  {request : Request Hash KeyImage Address SecretKey Signature W}

theorem keyImagesExact_takeTx (exact_ : s.KeyImagesExact) (id : Hash) :
    (s.takeTx id).2.KeyImagesExact := by
  cases isThere : s.details id with
  | none =>
      rw [takeTx_of_missing isThere]
      exact exact_
  | some td =>
      have recorded : s.Recorded [(id, td.tx)] := by
        intro e inside
        rw [List.mem_singleton.mp inside]
        exact ⟨td, isThere, rfl⟩
      exact exact_.erased recorded (erased_takeTx isThere)

theorem keyImagesExact_step (exact_ : s.KeyImagesExact)
    (noCollision : NoCollision getTransactionHash s request)
    (stepped : step getTransactionHash s request = some s') : s'.KeyImagesExact := by
  cases request with
  | addTx env tx blobSize tvc keptByBlock fromCore =>
      cases stepped
      rcases addTx_cases (s := s) env tx (getTransactionHash tx.toTransactionBody) blobSize tvc
        keptByBlock fromCore
        with same | ⟨fee, maxUsed, same⟩
      · rw [same]
        exact exact_
      · rw [same]
        refine exact_.inserted ?_ inserted_doInsertTransaction
        exact noCollision
  | takeTx id =>
      cases stepped
      exact keyImagesExact_takeTx exact_ id
  | removeStuckTransactions env =>
      cases stepped
      obtain ⟨gone, recorded, erased, -⟩ := erased_removeStuckTransactions (s := s) env
      exact exact_.erased recorded erased
  | removeIncompatibleTxs env =>
      cases stepped
      obtain ⟨gone, recorded, erased, -⟩ := erased_removeIncompatibleTxs (s := s) env
      exact exact_.erased recorded erased
  | purgeTransactions =>
      cases stepped
      exact .of_nothing rfl rfl
  | clear =>
      cases stepped
      exact .of_nothing rfl rfl
  | reload compatible =>
      cases stepped
      cases compatible with
      | false => exact .of_nothing rfl rfl
      | true =>
          exact ⟨fun kImage id => mem_spenders_getKeyImagesFromTxPool,
            noEmptySet_getKeyImagesFromTxPool s⟩

omit [DecidableEq KeyImage] [DecidableEq Address] in
theorem aliasesExact_empty :
    (empty : TxMemoryPool Hash KeyImage Address SecretKey Signature W).AliasesExact := by
  constructor <;> simp [Covers, empty, details]

/-- A request keeps the alias marks right exactly if the condition holds of it; the other direction
is for requests that remove something. -/
theorem aliasesExact_step_iff (exact_ : s.AliasesExact)
    (noCollision : NoCollision getTransactionHash s request)
    (stepped : step getTransactionHash s request = some s') :
    s'.AliasesExact ↔ KeepsAliases getTransactionHash s request := by
  cases request with
  | addTx env tx blobSize tvc keptByBlock fromCore =>
      cases stepped
      refine ⟨fun _ => noCollision, fun _ => ?_⟩
      rcases addTx_cases (s := s) env tx (getTransactionHash tx.toTransactionBody) blobSize tvc
        keptByBlock fromCore
        with same | ⟨fee, maxUsed, same⟩
      · rw [same]
        exact exact_
      · rw [same]
        refine exact_.inserted ?_ inserted_doInsertTransaction
        exact noCollision
  | takeTx id =>
      cases stepped
      cases isThere : s.details id with
      | none =>
          rw [takeTx_of_missing isThere]
          refine ⟨fun _ i inside td isThere' => ?_, fun _ => exact_⟩
          rw [Set.mem_singleton_iff.mp inside, isThere] at isThere'
          cases isThere'
      | some td =>
          have recorded : s.Recorded [(id, td.tx)] := by
            intro e inside
            rw [List.mem_singleton.mp inside]
            exact ⟨td, isThere, rfl⟩
          have removed : {i | ∃ e ∈ [(id, td.tx)], e.1 = i} = {id} := by
            ext i
            simp [eq_comm]
          rw [exact_.erased_iff recorded (erased_takeTx isThere), removed]
          rfl
  | removeStuckTransactions env =>
      cases stepped
      obtain ⟨gone, recorded, erased, removed⟩ := erased_removeStuckTransactions (s := s) env
      rw [exact_.erased_iff recorded erased, removed]
      rfl
  | removeIncompatibleTxs env =>
      cases stepped
      obtain ⟨gone, recorded, erased, removed⟩ := erased_removeIncompatibleTxs (s := s) env
      rw [exact_.erased_iff recorded erased, removed]
      rfl
  | purgeTransactions =>
      cases stepped
      exact exact_.emptied_iff rfl rfl rfl
  | clear =>
      cases stepped
      exact exact_.emptied_iff rfl rfl rfl
  | reload compatible =>
      cases stepped
      refine ⟨fun _ => trivial, fun _ => ?_⟩
      cases compatible with
      | false => exact aliasesExact_empty
      | true => exact ⟨exact_.names, exact_.addresses⟩

omit [DecidableEq KeyImage] [DecidableEq Address] in
theorem KeepsAliases.noCollision (keeps : KeepsAliases getTransactionHash s request) :
    NoCollision getTransactionHash s request := by
  cases request with
  | addTx env tx blobSize tvc keptByBlock fromCore => exact keeps
  | _ => trivial

/-- After any run from the empty pool the key images are exact, and so are the aliases if every step
of the run kept them. -/
theorem side_tables_exact (requests : List (Request Hash KeyImage Address SecretKey Signature W))
    (final : TxMemoryPool Hash KeyImage Address SecretKey Signature W)
    (noCollision :
      Guarded (step getTransactionHash) (NoCollision getTransactionHash) empty requests)
    (ran : run (step getTransactionHash) empty requests = some final) :
    ((∀ kImage id, (∃ idSet, final.keyImages kImage = some idSet ∧ id ∈ idSet) ↔
        ∃ td, final.transactions.lookup id = some td ∧ kImage ∈ td.tx.keyImages) ∧
      ∀ kImage, final.haveTxKeyimgAsSpent kImage = true ↔
        ∃ id td, final.transactions.lookup id = some td ∧ kImage ∈ td.tx.keyImages) ∧
    (Guarded (step getTransactionHash) (KeepsAliases getTransactionHash) empty requests →
      (∀ aliasName, aliasName ∈ final.aliasNames ↔
        ∃ id td entry, final.transactions.lookup id = some td ∧
        td.tx.aliasInfo = some entry ∧ entry.aliasName = aliasName) ∧
      ∀ addr, addr ∈ final.aliasAddresses ↔ ∃ id td entry, final.transactions.lookup id = some td ∧
        td.tx.aliasInfo = some entry ∧ entry.address = addr) := by
  have initially :
      (empty : TxMemoryPool Hash KeyImage Address SecretKey Signature W).KeyImagesExact :=
    .of_nothing rfl rfl
  have keyImagesExact : final.KeyImagesExact :=
    invariant_of_run (fun _ _ _ => keyImagesExact_step) initially noCollision ran
  refine ⟨⟨keyImagesExact.spenders, fun kImage => ?_⟩, fun keepsAliases => ?_⟩
  · rw [haveTxKeyimgAsSpent, Option.isSome_iff_exists]
    constructor
    · intro ⟨idSet, isThere⟩
      have someone : idSet.Nonempty := by
        rw [Finset.nonempty_iff_ne_empty]
        rintro rfl
        exact keyImagesExact.noEmptySet kImage isThere
      obtain ⟨id, inside⟩ := someone
      exact ⟨id, (keyImagesExact.spenders kImage id).mp ⟨idSet, isThere, inside⟩⟩
    · intro ⟨id, td, isThere, has⟩
      obtain ⟨idSet, isSet, -⟩ := (keyImagesExact.spenders kImage id).mpr ⟨td, isThere, has⟩
      exact ⟨idSet, isSet⟩
  · have aliasesExact : final.AliasesExact :=
      invariant_of_run (fun _ _ _ exact_ keeps stepped =>
        (aliasesExact_step_iff exact_ keeps.noCollision stepped).mpr keeps) aliasesExact_empty
          keepsAliases ran
    constructor
    · intro aliasName
      refine (aliasesExact.names aliasName).trans ?_
      simp [takesName, details]
    · intro addr
      refine (aliasesExact.addresses addr).trans ?_
      simp [takesAddress, details]

end Runs

/-! ## Aliases of the pool at work -/

section Concrete

def permissive : Environment Nat Nat Nat Unit Unit Unit where
  disableTxValidationOnAddition := false
  isInCheckpointZone := false
  validateTxForHardforkSpecificTerms := fun _ _ => true
  isTxExpired := fun _ => false
  checkInputsAndOutputsSize := fun _ => true
  getTxFee := fun _ => some 0
  getAliasInfo := fun _ => false
  getAliasByAddress := fun _ => ""
  prevalidateAliasInfo := fun _ _ => true
  validateTxSemantic := fun _ _ _ => true
  txPoolMinFee := 0
  hasMultisigOutput := fun _ => false
  checkTxInputs := fun _ _ => some (none, 0)
  checkTxBalance := fun _ _ => true
  validateAssetOperation := fun _ _ => true
  coreTime := 0
  isTxRelatedToAltblock := fun _ => false
  currentBlockchainSize := 1
  haveTxKeyimgAsSpent := fun _ _ => false

/-- A transaction with one input that registers an alias. -/
def registration (kImage : Nat) (aliasName : String) (addr : Nat) :
    Transaction Nat Nat Nat Unit Unit Unit where
  version := 1
  vin := [.toKey kImage]
  extra := [.aliasEntry
    { address := addr, textComment := "", viewKey := [], sign := [], aliasName := aliasName }]
  multisigOuts := []
  witness := ()

/-- The transactions here have different key images. -/
def firstKeyImage (tx : TransactionBody Nat Nat Nat Unit Unit) : Nat := tx.keyImages.headD 0

def fromBlock (tx : Transaction Nat Nat Nat Unit Unit Unit) : Request Nat Nat Nat Unit Unit Unit :=
  .addTx permissive tx 0 ⟨false, false, false, false, false⟩ true false

def fromPeer (tx : Transaction Nat Nat Nat Unit Unit Unit) : Request Nat Nat Nat Unit Unit Unit :=
  .addTx permissive tx 0 ⟨false, false, false, false, false⟩ false false

def twoRegistrations : List (Request Nat Nat Nat Unit Unit Unit) :=
  [fromPeer (registration 1 "a" 1), fromPeer (registration 2 "b" 2), .reload true, .takeTx 1]

theorem twoRegistrations_keepsAliases :
    Guarded (step firstKeyImage) (KeepsAliases firstKeyImage) empty twoRegistrations := by
  constructor
  · intro td isThere
    cases isThere
  intro next stepped
  cases stepped
  constructor
  · intro td isThere
    cases isThere
  intro next stepped
  cases stepped
  refine ⟨trivial, fun next stepped => ?_⟩
  cases stepped
  refine ⟨?_, fun _ _ => trivial⟩
  intro id inside td isThere other stays td' isThere'
  rw [Set.mem_singleton_iff] at inside stays
  subst inside
  cases isThere
  by_cases second : other = 2
  · subst second
    cases isThere'
    simp [takesName, takesAddress, registration, newDetails, TransactionBody.aliasInfo,
      parseAndValidateTxExtra, ExtraV.kind, ExtraV.alias?]
  · change AList.lookup other (AList.insert 2 _ (AList.insert 1 _ ∅)) = _ at isThere'
    rw [AList.lookup_insert_ne second, AList.lookup_insert_ne stays] at isThere'
    cases isThere'

theorem side_tables_exact_two :
    ∃ final, run (step firstKeyImage) empty twoRegistrations = some final ∧
    "b" ∈ final.aliasNames ∧ final.haveTxKeyimgAsSpent 2 = true ∧
    (((∀ kImage id, (∃ idSet, final.keyImages kImage = some idSet ∧ id ∈ idSet) ↔
        ∃ td, final.transactions.lookup id = some td ∧ kImage ∈ td.tx.keyImages) ∧
      ∀ kImage, final.haveTxKeyimgAsSpent kImage = true ↔
        ∃ id td, final.transactions.lookup id = some td ∧ kImage ∈ td.tx.keyImages) ∧
    ((∀ aliasName, aliasName ∈ final.aliasNames ↔
      ∃ id td entry, final.transactions.lookup id = some td ∧
        td.tx.aliasInfo = some entry ∧ entry.aliasName = aliasName) ∧
      ∀ addr, addr ∈ final.aliasAddresses ↔ ∃ id td entry, final.transactions.lookup id = some td ∧
        td.tx.aliasInfo = some entry ∧ entry.address = addr)) := by
  have keeps := twoRegistrations_keepsAliases
  have exact_ :=
    side_tables_exact twoRegistrations _ (keeps.imp fun _ _ => KeepsAliases.noCollision) rfl
  exact ⟨_, rfl, by decide, by decide, exact_.1, exact_.2 keeps⟩

/-- Two blocks bring the same alias and one of the transactions is taken; or the pool is emptied. -/
theorem alias_marks_not_exact :
    (∃ final, run (step firstKeyImage) empty
        [fromBlock (registration 1 "a" 1), fromBlock (registration 2 "a" 1),
          .takeTx 1] = some final ∧
      "a" ∉ final.aliasNames ∧ 1 ∉ final.aliasAddresses ∧
      ∃ td entry, final.transactions.lookup 2 = some td ∧ td.tx.aliasInfo = some entry ∧
        entry.aliasName = "a" ∧ entry.address = 1) ∧
    ∃ final, run (step firstKeyImage) empty [fromPeer (registration 1 "a" 1), .purgeTransactions] =
      some final ∧
      "a" ∈ final.aliasNames ∧ 1 ∈ final.aliasAddresses ∧ final.transactions = ∅ := by
  refine ⟨⟨_, rfl, by decide, by decide, _, _, rfl, rfl, rfl, rfl⟩,
    ⟨_, rfl, by decide, by decide, rfl⟩⟩

end Concrete

end Zano.Pool.TxMemoryPool
