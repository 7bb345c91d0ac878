import Mathlib
import Zano.Lib.Undo
import Zano.Aliases.Stores

/-! # Any history of alias operations

What a put does falls into four cases, those of the table in the source: a new alias, a change of
the owner, a new default alias, and an update of the description. In each of them the pop finds its
own case from the history and from the transaction ids on the default stacks.
-/

namespace Zano.Aliases.AliasStores

open Undo

variable {Address SecretKey Signature Hash : Type*}

/-- The top of the default stack is not of this transaction. -/
def NotOnTop (s : AliasStores Address SecretKey Signature Hash) (addr : Address)
    (txId : Hash) : Prop :=
  ∀ back below, s.addrToDefaultAlias addr = back :: below → back.txId ≠ txId

theorem first_mem {owned : Finset String} (some_ : owned ≠ ∅) : first owned ∈ owned := by
  unfold first
  cases sorted : owned.sort (· ≤ ·) with
  | nil =>
      obtain ⟨aliasName, inside⟩ := Finset.nonempty_iff_ne_empty.mpr some_
      rw [← Finset.mem_sort (· ≤ ·), sorted] at inside
      cases inside
  | cons aliasName rest =>
      rw [List.headD_cons, ← Finset.mem_sort (· ≤ ·), sorted]
      exact List.mem_cons_self

theorem replacement_mem {owned : Finset String} (some_ : owned ≠ ∅)
    (below : List (DefaultAliasEntry Hash)) :
    replacement owned below ∈ owned := by
  unfold replacement
  cases found : below.find? fun e => e.aliasName ∈ owned with
  | none => simpa using first_mem some_
  | some e =>
      have stillOwned : e.aliasName ∈ owned := by simpa using List.find?_some found
      by_cases unnamed : e.aliasName = ""
      · simpa [unnamed] using first_mem some_
      · simpa [unnamed] using stillOwned

/-- Every address that owns an alias has a default that it owns. -/
def DefaultsOwned (s : AliasStores Address SecretKey Signature Hash) : Prop :=
  ∀ addr aliasName, aliasName ∈ s.addrToAlias addr →
    ∃ default, s.defaultAlias addr = some default ∧ default ∈ s.addrToAlias addr

/-- Every default was set by one of these transactions. -/
def StampedBy (s : AliasStores Address SecretKey Signature Hash) (stamps : Set Hash) : Prop :=
  ∀ addr, ∀ e ∈ s.addrToDefaultAlias addr, e.txId ∈ stamps

theorem StampedBy.notOnTop {s : AliasStores Address SecretKey Signature Hash} {stamps : Set Hash}
    {txId : Hash} (stamped : s.StampedBy stamps) (isFresh : txId ∉ stamps) (addr : Address) :
    s.NotOnTop addr txId := by
  intro back below top ofThis
  apply isFresh
  rw [← ofThis]
  exact stamped addr back (top ▸ List.mem_cons_self)

/-! ## Each operation and its inverse -/

section Inverses

variable {s : AliasStores Address SecretKey Signature Hash} {addr : Address} {aliasName : String}
  {txId : Hash}

theorem setHistory_setHistory (history : List (ExtraAliasEntryBase Address SecretKey Signature)) :
    (s.setHistory aliasName history).setHistory aliasName (s.aliases aliasName) = s := by
  simp [setHistory]

variable [DecidableEq Address]

@[simp]
theorem setAliasesOf_addrToAlias_self (aliases : Finset String) :
    (s.setAliasesOf addr aliases).addrToAlias addr = aliases := by
  simp [setAliasesOf]

@[simp]
theorem setAliasesOf_setAliasesOf_self (aliases : Finset String) :
    (s.setAliasesOf addr aliases).setAliasesOf addr (s.addrToAlias addr) = s := by
  simp [setAliasesOf]

@[simp]
theorem setAliasesOf_addrToDefaultAlias (aliases : Finset String) :
    (s.setAliasesOf addr aliases).addrToDefaultAlias = s.addrToDefaultAlias := rfl

@[simp]
theorem pushDefaultAlias_addrToAlias :
    (s.pushDefaultAlias addr aliasName txId).addrToAlias = s.addrToAlias := rfl

@[simp]
theorem pushDefaultAlias_setAliasesOf (aliases : Finset String) :
    (s.pushDefaultAlias addr aliasName txId).setAliasesOf addr aliases =
      (s.setAliasesOf addr aliases).pushDefaultAlias addr aliasName txId := rfl

theorem DefaultsOwned.pushDefaultAlias (defaults : s.DefaultsOwned)
    (owned : aliasName ∈ s.addrToAlias addr) :
    (s.pushDefaultAlias addr aliasName txId).DefaultsOwned := by
  intro addr' other inside
  by_cases same : addr' = addr
  · subst same
    exact ⟨aliasName, by simp [defaultAlias, AliasStores.pushDefaultAlias, setDefaultAliases],
      owned⟩
  · have unchanged :
        (s.pushDefaultAlias addr aliasName txId).defaultAlias addr' = s.defaultAlias addr' := by
      simp [defaultAlias, AliasStores.pushDefaultAlias, setDefaultAliases, same]
    rw [unchanged]
    exact defaults addr' other inside

variable [DecidableEq Hash]

@[simp]
theorem popDefaultAlias_pushDefaultAlias :
    (s.pushDefaultAlias addr aliasName txId).popDefaultAlias addr txId = s := by
  simp [popDefaultAlias, pushDefaultAlias, setDefaultAliases]

theorem popDefaultAlias_of_notOnTop (notOnTop : s.NotOnTop addr txId) :
    s.popDefaultAlias addr txId = s := by
  unfold popDefaultAlias
  split
  · rfl
  · rename_i back below top
    rw [if_neg (notOnTop back below top)]

/-- Without the put flag the removal pops what is on top of this transaction, if anything is. -/
theorem removeAliasFromAddress_pop : s.removeAliasFromAddress addr aliasName false txId =
    (s.setAliasesOf addr ((s.addrToAlias addr).erase aliasName)).popDefaultAlias addr txId := by
  unfold removeAliasFromAddress
  cases top : s.addrToDefaultAlias addr with
  | nil => simp [popDefaultAlias, top]
  | cons back below => by_cases ofThis : back.txId = txId <;> simp [popDefaultAlias, top, ofThis]

theorem remove_addAliasToAddress (notOwned : aliasName ∉ s.addrToAlias addr)
    (notOnTop : s.NotOnTop addr txId) :
    (s.addAliasToAddress addr aliasName true txId).removeAliasFromAddress addr aliasName false
      txId = s := by
  have erased : (insert aliasName (s.addrToAlias addr)).erase aliasName = s.addrToAlias addr :=
    Finset.erase_insert notOwned
  rw [removeAliasFromAddress_pop, addAliasToAddress, if_pos rfl]
  by_cases wasEmpty : s.addrToAlias addr = ∅
  · simp only [wasEmpty, if_true] at erased ⊢
    simp only [pushDefaultAlias_addrToAlias, setAliasesOf_addrToAlias_self,
      pushDefaultAlias_setAliasesOf, popDefaultAlias_pushDefaultAlias, erased]
    rw [← wasEmpty, setAliasesOf_setAliasesOf_self]
  · rw [if_neg wasEmpty, setAliasesOf_addrToAlias_self, erased, setAliasesOf_setAliasesOf_self]
    exact popDefaultAlias_of_notOnTop notOnTop

theorem add_removeAliasFromAddress (owned : aliasName ∈ s.addrToAlias addr)
    (notOnTop : s.NotOnTop addr txId) :
    (s.removeAliasFromAddress addr aliasName true txId).addAliasToAddress addr aliasName false
      txId = s := by
  have inserted : insert aliasName ((s.addrToAlias addr).erase aliasName) = s.addrToAlias addr :=
    Finset.insert_erase owned
  have unchanged : s.popDefaultAlias addr txId = s := popDefaultAlias_of_notOnTop notOnTop
  unfold removeAliasFromAddress addAliasToAddress
  cases s.addrToDefaultAlias addr with
  | nil => simp [inserted, unchanged]
  | cons back below =>
      by_cases isDefault : back.aliasName = aliasName
      · simp [isDefault, inserted]
      · simp [isDefault, inserted, unchanged]

/-- An alias that the address has already is not added again. -/
theorem addAliasToAddress_of_mem (owned : aliasName ∈ s.addrToAlias addr)
    (notOnTop : s.NotOnTop addr txId) :
    s.addAliasToAddress addr aliasName false txId = s := by
  have unchanged : s.setAliasesOf addr (insert aliasName (s.addrToAlias addr)) = s := by
    rw [Finset.insert_eq_self.mpr owned]
    simp [setAliasesOf]
  simp only [addAliasToAddress, unchanged]
  exact popDefaultAlias_of_notOnTop notOnTop

theorem popDefaultAlias_setHistory
    (history : List (ExtraAliasEntryBase Address SecretKey Signature)) :
    (s.setHistory aliasName history).popDefaultAlias addr txId =
      (s.popDefaultAlias addr txId).setHistory aliasName history := by
  unfold popDefaultAlias
  simp only [setHistory]
  split
  · rfl
  · split <;> rfl

theorem removeAliasFromAddress_setHistory
    (history : List (ExtraAliasEntryBase Address SecretKey Signature)) :
    (s.setHistory aliasName history).removeAliasFromAddress addr aliasName false txId =
      (s.removeAliasFromAddress addr aliasName false txId).setHistory aliasName history := by
  rw [removeAliasFromAddress_pop, removeAliasFromAddress_pop, ← popDefaultAlias_setHistory]
  rfl

theorem NotOnTop.removeAliasFromAddress {other : Address} (different : other ≠ addr)
    (notOnTop : s.NotOnTop other txId) :
    (s.removeAliasFromAddress addr aliasName true txId).NotOnTop other txId := by
  intro back below top
  apply notOnTop back below
  rw [← top]
  unfold AliasStores.removeAliasFromAddress
  cases s.addrToDefaultAlias addr with
  | nil => rfl
  | cons default rest =>
      by_cases isDefault : default.aliasName = aliasName
      · simp [isDefault, AliasStores.pushDefaultAlias, setDefaultAliases, different]
      · simp [isDefault]

/-! ## The stores after a put -/

@[simp]
theorem popDefaultAlias_aliases : (s.popDefaultAlias addr txId).aliases = s.aliases := by
  unfold popDefaultAlias
  split
  · rfl
  · split <;> rfl

@[simp]
theorem addAliasToAddress_aliases {isDuringPutProcess : Bool} :
    (s.addAliasToAddress addr aliasName isDuringPutProcess txId).aliases = s.aliases := by
  unfold addAliasToAddress
  split
  · split <;> rfl
  · exact popDefaultAlias_aliases

@[simp]
theorem removeAliasFromAddress_aliases {isDuringPutProcess : Bool} :
    (s.removeAliasFromAddress addr aliasName isDuringPutProcess txId).aliases = s.aliases := by
  cases isDuringPutProcess with
  | false =>
      rw [removeAliasFromAddress_pop, popDefaultAlias_aliases]
      rfl
  | true =>
      unfold removeAliasFromAddress
      split
      · rfl
      · simp only [if_true]
        split <;> rfl

@[simp]
theorem mem_addAliasToAddress {addr' : Address} {other : String} :
    other ∈ (s.addAliasToAddress addr aliasName true txId).addrToAlias addr' ↔
      (addr' = addr ∧ other = aliasName) ∨ other ∈ s.addrToAlias addr' := by
  have stored : (s.addAliasToAddress addr aliasName true txId).addrToAlias =
      Function.update s.addrToAlias addr (insert aliasName (s.addrToAlias addr)) := by
    unfold addAliasToAddress
    by_cases wasEmpty : s.addrToAlias addr = ∅
    · rw [if_pos rfl, if_pos wasEmpty, pushDefaultAlias_addrToAlias]
      rfl
    · rw [if_pos rfl, if_neg wasEmpty]
      rfl
  rw [stored]
  by_cases same : addr' = addr
  · subst same
    simp
  · simp [same]

@[simp]
theorem mem_removeAliasFromAddress {addr' : Address} {other : String} :
    other ∈ (s.removeAliasFromAddress addr aliasName true txId).addrToAlias addr' ↔
      ¬(addr' = addr ∧ other = aliasName) ∧ other ∈ s.addrToAlias addr' := by
  have stored : (s.removeAliasFromAddress addr aliasName true txId).addrToAlias =
      Function.update s.addrToAlias addr ((s.addrToAlias addr).erase aliasName) := by
    unfold removeAliasFromAddress
    cases s.addrToDefaultAlias addr with
    | nil => rfl
    | cons back below =>
        by_cases isDefault : back.aliasName = aliasName
        · simp only [isDefault, if_true, pushDefaultAlias_addrToAlias]
          rfl
        · simp only [isDefault, if_true, if_false]
          rfl
  rw [stored]
  by_cases same : addr' = addr
  · subst same
    simp
  · simp [same]

theorem DefaultsOwned.addAliasToAddress (defaults : s.DefaultsOwned) (addr : Address)
    (aliasName : String) :
    (s.addAliasToAddress addr aliasName true txId).DefaultsOwned := by
  unfold AliasStores.addAliasToAddress
  rw [if_pos rfl]
  by_cases wasEmpty : s.addrToAlias addr = ∅
  · rw [if_pos wasEmpty]
    intro addr' other inside
    by_cases same : addr' = addr
    · subst same
      exact ⟨aliasName,
        by simp [defaultAlias, AliasStores.pushDefaultAlias, setDefaultAliases], by simp⟩
    · simpa [defaultAlias, AliasStores.pushDefaultAlias, setDefaultAliases, setAliasesOf,
        same] using defaults addr' other (by simpa [setAliasesOf, same] using inside)
  · rw [if_neg wasEmpty]
    intro addr' other inside
    by_cases same : addr' = addr
    · subst same
      obtain ⟨first, isFirst⟩ := Finset.nonempty_iff_ne_empty.mpr wasEmpty
      obtain ⟨default, isDefault, owned⟩ := defaults addr' first isFirst
      exact ⟨default, isDefault, by simp [owned]⟩
    · simpa [defaultAlias, setAliasesOf, same] using
        defaults addr' other (by simpa [setAliasesOf, same] using inside)

theorem DefaultsOwned.removeAliasFromAddress (defaults : s.DefaultsOwned) (addr : Address)
    (aliasName : String) :
    (s.removeAliasFromAddress addr aliasName true txId).DefaultsOwned := by
  intro addr' other inside
  obtain ⟨kept, wasOwned⟩ := mem_removeAliasFromAddress.mp inside
  obtain ⟨default, isDefault, owned⟩ := defaults addr' other wasOwned
  cases top : s.addrToDefaultAlias addr with
  | nil =>
      refine ⟨default, ?_, mem_removeAliasFromAddress.mpr ⟨?_, owned⟩⟩
      · simpa [defaultAlias, AliasStores.removeAliasFromAddress, top] using isDefault
      · rintro ⟨rfl, rfl⟩
        simp [defaultAlias, top] at isDefault
  | cons back below =>
      by_cases wasDefault : back.aliasName = aliasName
      · by_cases same : addr' = addr
        · subst same
          have isLeft : (s.addrToAlias addr').erase aliasName ≠ ∅ :=
            Finset.nonempty_iff_ne_empty.mp ⟨other, by
              rw [Finset.mem_erase]
              exact ⟨fun isRemoved => kept ⟨rfl, isRemoved⟩, wasOwned⟩⟩
          have replaced := replacement_mem isLeft below
          rw [Finset.mem_erase] at replaced
          refine ⟨_, ?_, mem_removeAliasFromAddress.mpr ⟨?_, replaced.2⟩⟩
          · simp [defaultAlias, AliasStores.removeAliasFromAddress, top, wasDefault,
              AliasStores.pushDefaultAlias, setDefaultAliases]
          · exact fun ⟨_, isRemoved⟩ => replaced.1 isRemoved
        · refine ⟨default, ?_,
            mem_removeAliasFromAddress.mpr ⟨fun isRemoved => same isRemoved.1, owned⟩⟩
          simpa [defaultAlias, AliasStores.removeAliasFromAddress, top, wasDefault,
            AliasStores.pushDefaultAlias, setDefaultAliases, same] using isDefault
      · refine ⟨default, ?_, mem_removeAliasFromAddress.mpr ⟨?_, owned⟩⟩
        · simpa [defaultAlias, AliasStores.removeAliasFromAddress, top, wasDefault] using isDefault
        · rintro ⟨rfl, rfl⟩
          simp only [defaultAlias, top, List.head?_cons, Option.map_some,
            Option.some.injEq] at isDefault
          exact wasDefault isDefault

/-! ## The stamps after a put -/

variable {stamps : Set Hash}

omit [DecidableEq Hash] in
theorem StampedBy.pushDefaultAlias (stamped : s.StampedBy stamps) :
    (s.pushDefaultAlias addr aliasName txId).StampedBy (insert txId stamps) := by
  intro addr' e inside
  by_cases same : addr' = addr
  · subst same
    simp only [AliasStores.pushDefaultAlias, setDefaultAliases, Function.update_self,
      List.mem_cons] at inside
    cases inside with
    | inl isNew => exact .inl (by rw [isNew])
    | inr isOld => exact .inr (stamped addr' e isOld)
  · simp only [AliasStores.pushDefaultAlias, setDefaultAliases,
      Function.update_of_ne same] at inside
    exact .inr (stamped addr' e inside)

omit [DecidableEq Address] [DecidableEq Hash] in
theorem StampedBy.insert (stamped : s.StampedBy stamps) : s.StampedBy (insert txId stamps) :=
  fun addr e inside => .inr (stamped addr e inside)

theorem StampedBy.addAliasToAddress (stamped : s.StampedBy stamps) :
    (s.addAliasToAddress addr aliasName true txId).StampedBy (Insert.insert txId stamps) := by
  unfold AliasStores.addAliasToAddress
  rw [if_pos rfl]
  split
  · exact StampedBy.pushDefaultAlias stamped
  · exact StampedBy.insert stamped

theorem StampedBy.removeAliasFromAddress (stamped : s.StampedBy stamps) :
    (s.removeAliasFromAddress addr aliasName true txId).StampedBy (Insert.insert txId stamps) := by
  unfold AliasStores.removeAliasFromAddress
  cases s.addrToDefaultAlias addr with
  | nil => exact StampedBy.insert stamped
  | cons back below =>
      by_cases isDefault : back.aliasName = aliasName
      · simp only [isDefault, if_true]
        exact StampedBy.pushDefaultAlias stamped
      · simp only [isDefault, if_true, if_false]
        exact StampedBy.insert stamped

end Inverses

/-! ## The pop of the last put -/

section PopPut

variable [DecidableEq Address] [DecidableEq Hash]

variable {s next : AliasStores Address SecretKey Signature Hash}
  {ai : ExtraAliasEntry Address SecretKey Signature} {txId : Hash}

/-- The owner of an alias is the address of the latest entry of its history. -/
def Owns (s : AliasStores Address SecretKey Signature Hash) (addr : Address)
    (aliasName : String) : Prop :=
  ∃ info, s.getAliasInfo aliasName = some info ∧ info.address = addr

/-- The four cases of a put. -/
inductive Put (s : AliasStores Address SecretKey Signature Hash)
    (ai : ExtraAliasEntry Address SecretKey Signature) (txId : Hash) :
    AliasStores Address SecretKey Signature Hash → Prop where
  | newAlias (isNew : s.aliases ai.aliasName = []) : Put s ai txId
      ((s.setHistory ai.aliasName [ai.toExtraAliasEntryBase]).addAliasToAddress ai.address
        ai.aliasName true txId)
  | defaultAlias (back : ExtraAliasEntryBase Address SecretKey Signature)
      (earlier : List (ExtraAliasEntryBase Address SecretKey Signature))
      (history : s.aliases ai.aliasName = back :: earlier) (sameOwner : back.address = ai.address)
      (same : SameDescription back ai.toExtraAliasEntryBase) : Put s ai txId
      ((s.pushDefaultAlias ai.address ai.aliasName txId).setHistory ai.aliasName
        (ai.toExtraAliasEntryBase :: back :: earlier))
  | infoUpdate (back : ExtraAliasEntryBase Address SecretKey Signature)
      (earlier : List (ExtraAliasEntryBase Address SecretKey Signature))
      (history : s.aliases ai.aliasName = back :: earlier) (sameOwner : back.address = ai.address)
      (changed : ¬SameDescription back ai.toExtraAliasEntryBase) : Put s ai txId
      (s.setHistory ai.aliasName (ai.toExtraAliasEntryBase :: back :: earlier))
  | ownerChange (back : ExtraAliasEntryBase Address SecretKey Signature)
      (earlier : List (ExtraAliasEntryBase Address SecretKey Signature))
      (history : s.aliases ai.aliasName = back :: earlier) (newOwner : back.address ≠ ai.address) :
        Put s ai txId
      (((s.removeAliasFromAddress back.address ai.aliasName true txId).addAliasToAddress ai.address
        ai.aliasName
        true txId).setHistory ai.aliasName (ai.toExtraAliasEntryBase :: back :: earlier))

/-- What holds of the containers after any puts of these items. -/
structure Consistent (s : AliasStores Address SecretKey Signature Hash)
    (items : List (ExtraAliasEntry Address SecretKey Signature × Hash)) : Prop where
  owners : ∀ addr aliasName, aliasName ∈ s.addrToAlias addr ↔ s.Owns addr aliasName
  defaults : s.DefaultsOwned
  stamped : s.StampedBy {txId | txId ∈ items.map (·.2)}

variable {items : List (ExtraAliasEntry Address SecretKey Signature × Hash)}

omit [DecidableEq Address] [DecidableEq Hash] in
theorem Owns.unique {addr addr' : Address} {aliasName : String} (owns : s.Owns addr aliasName)
    (owns' : s.Owns addr' aliasName) : addr = addr' := by
  obtain ⟨info, isInfo, rfl⟩ := owns
  obtain ⟨info', isInfo', rfl⟩ := owns'
  rw [isInfo] at isInfo'
  cases isInfo'
  rfl

omit [DecidableEq Address] [DecidableEq Hash] in
theorem owns_of_history {back : ExtraAliasEntryBase Address SecretKey Signature}
    {earlier : List (ExtraAliasEntryBase Address SecretKey Signature)} {aliasName : String}
    (history : s.aliases aliasName = back :: earlier) : s.Owns back.address aliasName :=
  ⟨back, by rw [getAliasInfo, history, List.head?_cons], rfl⟩

theorem Put.aliases (put : Put s ai txId next) :
    next.aliases = Function.update s.aliases ai.aliasName
      (ai.toExtraAliasEntryBase :: s.aliases ai.aliasName) := by
  cases put with
  | newAlias isNew =>
      rw [addAliasToAddress_aliases, isNew]
      rfl
  | defaultAlias back earlier history sameOwner same =>
      simp [setHistory, history, pushDefaultAlias, setDefaultAliases]
  | infoUpdate back earlier history sameOwner changed => simp [setHistory, history]
  | ownerChange back earlier history newOwner => simp [setHistory, history]

theorem Put.mem_addrToAlias (consistent : s.Consistent items) (put : Put s ai txId next)
    {addr : Address} {other : String} : other ∈ next.addrToAlias addr ↔
      if other = ai.aliasName then addr = ai.address else other ∈ s.addrToAlias addr := by
  have owner {back : ExtraAliasEntryBase Address SecretKey Signature}
      {earlier : List (ExtraAliasEntryBase Address SecretKey Signature)}
      (history : s.aliases ai.aliasName = back :: earlier) :
      ai.aliasName ∈ s.addrToAlias addr ↔ addr = back.address := by
    rw [consistent.owners]
    constructor
    · intro owns
      exact owns.unique (owns_of_history history)
    · rintro rfl
      exact owns_of_history history
  cases put with
  | newAlias isNew =>
      rw [mem_addAliasToAddress]
      by_cases same : other = ai.aliasName
      · have notOwned : ai.aliasName ∉ s.addrToAlias addr := by
          rw [consistent.owners]
          rintro ⟨info, isInfo, -⟩
          simp [getAliasInfo, isNew] at isInfo
        simp [same, setHistory, notOwned]
      · simp [same, setHistory]
  | defaultAlias back earlier history sameOwner same =>
      by_cases same : other = ai.aliasName
      · simpa [same, setHistory, sameOwner] using owner history
      · simp [same, setHistory]
  | infoUpdate back earlier history sameOwner changed =>
      by_cases same : other = ai.aliasName
      · simpa [same, setHistory, sameOwner] using owner history
      · simp [same, setHistory]
  | ownerChange back earlier history newOwner =>
      by_cases same : other = ai.aliasName
      · simp only [setHistory, mem_addAliasToAddress, mem_removeAliasFromAddress, same,
          owner history]
        simp
      · simp [same, setHistory]

theorem Put.consistent (consistent : s.Consistent items) (put : Put s ai txId next) :
    next.Consistent ((ai, txId) :: items) := by
  have stamps :
      {id | id ∈ ((ai, txId) :: items).map (·.2)} = insert txId {id | id ∈ items.map (·.2)} := by
    ext id
    simp
  refine ⟨?_, ?_, ?_⟩
  · intro addr other
    rw [put.mem_addrToAlias consistent, Owns, getAliasInfo, put.aliases]
    by_cases same : other = ai.aliasName
    · subst same
      simp [eq_comm]
    · simpa [same, Owns, getAliasInfo] using consistent.owners addr other
  · cases put with
    | newAlias isNew =>
        exact DefaultsOwned.addAliasToAddress (s := s.setHistory _ _) consistent.defaults _ _
    | defaultAlias back earlier history sameOwner same =>
        apply DefaultsOwned.pushDefaultAlias consistent.defaults
        rw [consistent.owners, ← sameOwner]
        exact owns_of_history history
    | infoUpdate back earlier history sameOwner changed => exact consistent.defaults
    | ownerChange back earlier history newOwner =>
        exact (consistent.defaults.removeAliasFromAddress _ _).addAliasToAddress _ _
  · rw [stamps]
    cases put with
    | newAlias isNew => exact StampedBy.addAliasToAddress consistent.stamped
    | defaultAlias back earlier history sameOwner same =>
        exact StampedBy.pushDefaultAlias consistent.stamped
    | infoUpdate back earlier history sameOwner changed => exact StampedBy.insert consistent.stamped
    | ownerChange back earlier history newOwner =>
        rw [← Set.insert_idem]
        exact StampedBy.addAliasToAddress (StampedBy.removeAliasFromAddress consistent.stamped)

variable [DecidableEq SecretKey]

theorem putAliasInfo_cases
    {checkSignature : ExtraAliasEntry Address SecretKey Signature → Address → Signature → Bool}
    (isPut : s.putAliasInfo checkSignature ai txId = some next) :
    ai.aliasName ≠ "" ∧ Put s ai txId next := by
  unfold putAliasInfo at isPut
  obtain ⟨named, isPut⟩ := Option.ite_none_left_eq_some.mp isPut
  refine ⟨named, ?_⟩
  cases history : s.aliases ai.aliasName with
  | nil =>
      simp only [history, Option.some.injEq] at isPut
      rw [← isPut]
      exact .newAlias history
  | cons back earlier =>
      simp only [history] at isPut
      split at isPut
      · obtain ⟨-, isPut⟩ := Option.ite_none_right_eq_some.mp isPut
        by_cases sameOwner : back.address = ai.address
        · by_cases same : SameDescription back ai.toExtraAliasEntryBase
          · simp only [sameOwner, same, if_true, Option.some.injEq] at isPut
            rw [← isPut]
            exact .defaultAlias back earlier history sameOwner same
          · simp only [sameOwner, same, if_true, if_false, Option.some.injEq] at isPut
            rw [← isPut]
            exact .infoUpdate back earlier history sameOwner same
        · simp only [sameOwner, if_false, Option.some.injEq] at isPut
          rw [← isPut]
          exact .ownerChange back earlier history sameOwner
      · cases isPut

/-- The pop finds the case of the put. -/
theorem Put.popAliasInfo (consistent : s.Consistent items) (isFresh : txId ∉ items.map (·.2))
    (named : ai.aliasName ≠ "") (put : Put s ai txId next) :
    next.popAliasInfo ai txId = some s := by
  have notOnTop (addr : Address) : s.NotOnTop addr txId := consistent.stamped.notOnTop isFresh addr
  unfold AliasStores.popAliasInfo
  rw [if_neg named, put.aliases, Function.update_self]
  have owned {back : ExtraAliasEntryBase Address SecretKey Signature}
      {earlier : List (ExtraAliasEntryBase Address SecretKey Signature)}
      (history : s.aliases ai.aliasName = back :: earlier) :
        ai.aliasName ∈ s.addrToAlias back.address :=
    (consistent.owners _ _).mpr (owns_of_history history)
  have restored (history : List (ExtraAliasEntryBase Address SecretKey Signature)) :
      (s.setHistory ai.aliasName history).setHistory ai.aliasName (s.aliases ai.aliasName) = s :=
    setHistory_setHistory history
  cases put with
  | newAlias isNew =>
      have notOwned : ai.aliasName ∉ s.addrToAlias ai.address := by
        rw [consistent.owners]
        rintro ⟨info, isInfo, -⟩
        simp [getAliasInfo, isNew] at isInfo
      rw [isNew] at restored ⊢
      simp only [Option.some.injEq]
      rw [remove_addAliasToAddress (s := s.setHistory _ _) notOwned (notOnTop ai.address)]
      exact restored _
  | defaultAlias back earlier history sameOwner same =>
      rw [history] at restored ⊢
      have alike : SameDescription ai.toExtraAliasEntryBase back := ⟨same.1.symm, same.2.symm⟩
      simp only [sameOwner, alike, if_true, Option.some.injEq]
      rw [popDefaultAlias_setHistory, popDefaultAlias_pushDefaultAlias, restored, ← sameOwner]
      exact addAliasToAddress_of_mem (owned history) (notOnTop back.address)
  | infoUpdate back earlier history sameOwner changed =>
      rw [history] at restored ⊢
      have differ : ¬SameDescription ai.toExtraAliasEntryBase back :=
        fun same => changed ⟨same.1.symm, same.2.symm⟩
      simp only [sameOwner, differ, if_true, if_false, Option.some.injEq]
      rw [restored, ← sameOwner]
      exact addAliasToAddress_of_mem (owned history) (notOnTop back.address)
  | ownerChange back earlier history newOwner =>
      rw [history] at restored ⊢
      simp only [newOwner.symm, if_false, Option.some.injEq]
      let removed := s.removeAliasFromAddress back.address ai.aliasName true txId
      have notOwned : ai.aliasName ∉ removed.addrToAlias ai.address := by
        rw [mem_removeAliasFromAddress, consistent.owners]
        rintro ⟨-, owns⟩
        exact newOwner ((owns_of_history history).unique owns)
      have history' : removed.aliases ai.aliasName = back :: earlier := by
        rw [removeAliasFromAddress_aliases, history]
      rw [removeAliasFromAddress_setHistory,
        remove_addAliasToAddress notOwned
          ((notOnTop ai.address).removeAliasFromAddress newOwner.symm), ← history',
        setHistory_setHistory]
      exact add_removeAliasFromAddress (owned history) (notOnTop back.address)

end PopPut

/-! ## Runs -/

section Runs

variable [DecidableEq Address] [DecidableEq SecretKey] [DecidableEq Hash]

/-- The entry of a transaction together with the id of the transaction. -/
abbrev Item (Address SecretKey Signature Hash : Type*) :=
  ExtraAliasEntry Address SecretKey Signature × Hash

def putItem
    (checkSignature : ExtraAliasEntry Address SecretKey Signature → Address → Signature → Bool)
    (s : AliasStores Address SecretKey Signature Hash)
    (item : Item Address SecretKey Signature Hash) :
    Option (AliasStores Address SecretKey Signature Hash) :=
  s.putAliasInfo checkSignature item.1 item.2

def popItem (s : AliasStores Address SecretKey Signature Hash)
    (item : Item Address SecretKey Signature Hash) :
    Option (AliasStores Address SecretKey Signature Hash) :=
  s.popAliasInfo item.1 item.2

/-- The transaction is none of those whose entries have been put and not popped. -/
def OtherTransaction (items : List (Item Address SecretKey Signature Hash))
    (item : Item Address SecretKey Signature Hash) : Prop :=
  item.2 ∉ items.map (·.2)

variable {checkSignature : ExtraAliasEntry Address SecretKey Signature → Address → Signature → Bool}

omit [DecidableEq Address] [DecidableEq SecretKey] [DecidableEq Hash] in
theorem consistent_empty :
    (empty : AliasStores Address SecretKey Signature Hash).Consistent [] where
  owners := by simp [empty, Owns, getAliasInfo]
  defaults := by simp [DefaultsOwned, empty]
  stamped := by simp [StampedBy, empty]

theorem consistent_of_built {s : AliasStores Address SecretKey Signature Hash}
    {items : List (Item Address SecretKey Signature Hash)}
    (built : Built (putItem checkSignature) OtherTransaction empty s items) :
    s.Consistent items := by
  induction built with
  | nil => exact consistent_empty
  | cons below isFresh isPut inductionHypothesis =>
      exact (putAliasInfo_cases isPut).2.consistent inductionHypothesis

theorem popItem_putItem {s next : AliasStores Address SecretKey Signature Hash}
    {items : List (Item Address SecretKey Signature Hash)}
    {item : Item Address SecretKey Signature Hash}
    (built : Built (putItem checkSignature) OtherTransaction empty s items)
    (isFresh : OtherTransaction items item) (isPut : putItem checkSignature s item = some next) :
    popItem next item = some s := by
  obtain ⟨named, put⟩ := putAliasInfo_cases isPut
  exact put.popAliasInfo (consistent_of_built built) isFresh named

/-- After any run the addresses have exactly the aliases they own, an address with aliases has a
default among them, and a further put is taken back without a trace, so that every question is
answered as before. -/
theorem alias_history (requests : List (Request (Item Address SecretKey Signature Hash)))
    (final : Stacked (AliasStores Address SecretKey Signature Hash)
      (Item Address SecretKey Signature Hash))
    (others : Transition.Guarded (step (putItem checkSignature) popItem) (Fresh OtherTransaction)
      ⟨empty, []⟩ requests)
    (ran : Transition.run (step (putItem checkSignature) popItem) ⟨empty, []⟩ requests =
      some final) :
    (∀ addr aliasName, aliasName ∈ final.state.addrToAlias addr ↔
      ∃ info, final.state.getAliasInfo aliasName = some info ∧ info.address = addr) ∧
    (∀ addr, final.state.addrToAlias addr ≠ ∅ →
      ∃ back, (final.state.addrToDefaultAlias addr).head? = some back ∧
        back.aliasName ∈ final.state.addrToAlias addr) ∧
    ∀ item next, OtherTransaction final.items item →
      putItem checkSignature final.state item = some next →
      popItem next item = some final.state := by
  have built := built_of_run (fun s items item next => popItem_putItem) others ran
  have consistent := consistent_of_built built
  refine ⟨consistent.owners, ?_, fun item next isOther isPut => popItem_putItem built isOther isPut⟩
  intro addr some_
  obtain ⟨aliasName, owned⟩ := Finset.nonempty_iff_ne_empty.mpr some_
  obtain ⟨default, isDefault, defaultOwned⟩ := consistent.defaults addr aliasName owned
  obtain ⟨back, isBack, rfl⟩ := Option.map_eq_some_iff.mp isDefault
  exact ⟨back, isBack, defaultOwned⟩

end Runs

/-! ## A transaction that is put again

A transaction is looked up in the chain only after its alias entry is put, and the entry is popped
again when it is found there. -/

def entry (aliasName : String) (sign : List Unit) : ExtraAliasEntry Nat Unit Unit :=
  { address := 0, textComment := "", viewKey := [], sign := sign, aliasName := aliasName }

/-- Address 0 registers two aliases and makes the second one its default in transaction 3. -/
def secondAsDefault : List (Request (Item Nat Unit Unit Nat)) :=
  [.put (entry "a" [], 1), .put (entry "b" [], 2), .put (entry "b" [()], 3)]

theorem alias_history_second :
    ∃ final, Transition.run (step (putItem fun _ _ _ => true) popItem) ⟨empty, []⟩ secondAsDefault =
      some final ∧
      "b" ∈ final.state.addrToAlias 0 ∧ final.state.getAliasByAddress 0 = "b" ∧
      ((∀ addr aliasName, aliasName ∈ final.state.addrToAlias addr ↔
        ∃ info, final.state.getAliasInfo aliasName = some info ∧ info.address = addr) ∧
      (∀ addr, final.state.addrToAlias addr ≠ ∅ →
        ∃ back, (final.state.addrToDefaultAlias addr).head? = some back ∧
          back.aliasName ∈ final.state.addrToAlias addr) ∧
      ∀ item next, OtherTransaction final.items item →
        putItem (fun _ _ _ => true) final.state item = some next →
          popItem next item = some final.state) := by
  refine ⟨_, rfl, by decide, by decide, alias_history secondAsDefault _ ?_ rfl⟩
  refine ⟨by simp [Fresh, OtherTransaction], fun next stepped => ?_⟩
  cases stepped
  refine ⟨by simp [Fresh, OtherTransaction], fun next stepped => ?_⟩
  cases stepped
  exact ⟨by simp [Fresh, OtherTransaction], fun _ _ => trivial⟩

theorem put_again_not_restored : ¬∀ (requests : List (Request (Item Nat Unit Unit Nat)))
    (final : Stacked (AliasStores Nat Unit Unit Nat) (Item Nat Unit Unit Nat))
    (item : Item Nat Unit Unit Nat) (next popped : AliasStores Nat Unit Unit Nat),
    Transition.run (step (putItem fun _ _ _ => true) popItem) ⟨empty, []⟩ requests = some final →
    putItem (fun _ _ _ => true) final.state item = some next → popItem next item = some popped →
    ∀ addr, popped.getAliasByAddress addr = final.state.getAliasByAddress addr := by
  intro restored
  have same := restored secondAsDefault _ (entry "b" [()], 3) _ _ rfl rfl rfl 0
  revert same
  decide

end Zano.Aliases.AliasStores
