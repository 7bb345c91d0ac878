import Mathlib
import Zano.Lib.Undo
import Zano.Assets.Stores

/-! # The supply of assets

What an accepted operation does to the history of its asset is said once, in `Entry`. Supply
arithmetic is exact in every case, and the pop restores the history. The bound by the maximum supply
is kept by every operation but one: before hardfork 5 nothing compares the two numbers when an asset
is registered.
-/

namespace Zano.Assets

open Undo

variable {Hash AssetId PublicKey EthPublicKey Signature : Type*} [DecidableEq PublicKey]
  {rules : Rules Hash AssetId PublicKey EthPublicKey Signature}
  {op : Operation Hash AssetId PublicKey EthPublicKey Signature} {assetId : AssetId}
  {amount : UInt64} {history next : List (AssetDescriptorOperation AssetId PublicKey EthPublicKey)}

/-- The history after an operation that is accepted with this amount. -/
inductive Entry (rules : Rules Hash AssetId PublicKey EthPublicKey Signature)
    (op : Operation Hash AssetId PublicKey EthPublicKey Signature)
    (history : List (AssetDescriptorOperation AssetId PublicKey EthPublicKey)) :
    UInt64 → List (AssetDescriptorOperation AssetId PublicKey EthPublicKey) → Prop where
  | register (adb : AssetDescriptorBase PublicKey EthPublicKey)
      (isType : op.ado.operationType = .register)
      (descriptor : op.ado.optDescriptor = some adb) (isNew : history = [])
      (initial : rules.isHardfork05Active op.height = true →
        adb.currentSupply ≤ adb.totalMaxSupply) :
      Entry rules op history adb.currentSupply (op.ado :: history)
  | update (lastAdb adb : AssetDescriptorBase PublicKey EthPublicKey)
      (isType : op.ado.operationType = .update) (last : lastDescriptor history = some lastAdb)
      (descriptor : op.ado.optDescriptor = some adb)
      (sameSupply : adb.currentSupply = lastAdb.currentSupply)
      (sameMax : adb.totalMaxSupply = lastAdb.totalMaxSupply)
      (bounded : adb.currentSupply ≤ adb.totalMaxSupply) :
      Entry rules op history 0 (op.ado :: history)
  | emitDescriptor (lastAdb adb : AssetDescriptorBase PublicKey EthPublicKey)
      (before : rules.isHardfork05Active op.height = false) (isType : op.ado.operationType = .emit)
      (last : lastDescriptor history = some lastAdb) (descriptor : op.ado.optDescriptor = some adb)
      (more : lastAdb.currentSupply < adb.currentSupply)
      (bounded : adb.currentSupply ≤ adb.totalMaxSupply) :
      Entry rules op history (adb.currentSupply - lastAdb.currentSupply) (op.ado :: history)
  | burnDescriptor (lastAdb adb : AssetDescriptorBase PublicKey EthPublicKey)
      (before : rules.isHardfork05Active op.height = false)
      (isType : op.ado.operationType = .publicBurn)
      (last : lastDescriptor history = some lastAdb) (descriptor : op.ado.optDescriptor = some adb)
      (less : adb.currentSupply < lastAdb.currentSupply)
      (bounded : adb.currentSupply ≤ adb.totalMaxSupply) :
      Entry rules op history (lastAdb.currentSupply - adb.currentSupply) (op.ado :: history)
  | emitAmount (lastAdo : AssetDescriptorOperation AssetId PublicKey EthPublicKey)
      (earlier : List (AssetDescriptorOperation AssetId PublicKey EthPublicKey))
      (lastAdb : AssetDescriptorBase PublicKey EthPublicKey) (amount : UInt64)
      (after : rules.isHardfork05Active op.height = true) (isType : op.ado.operationType = .emit)
      (last : history = lastAdo :: earlier) (descriptor : lastAdo.optDescriptor = some lastAdb)
      (shown : lastAdb.hiddenSupply = false) (isAmount : op.ado.optAmount = some amount)
      (noOverflow : lastAdb.currentSupply ≤ lastAdb.currentSupply + amount)
      (bounded : lastAdb.currentSupply + amount ≤ lastAdb.totalMaxSupply) :
      Entry rules op history amount (changeSupply lastAdo (· + amount) :: earlier)
  | burnAmount (lastAdo : AssetDescriptorOperation AssetId PublicKey EthPublicKey)
      (earlier : List (AssetDescriptorOperation AssetId PublicKey EthPublicKey))
      (lastAdb : AssetDescriptorBase PublicKey EthPublicKey) (amount : UInt64)
      (after : rules.isHardfork05Active op.height = true)
      (isType : op.ado.operationType = .publicBurn)
      (last : history = lastAdo :: earlier) (descriptor : lastAdo.optDescriptor = some lastAdb)
      (shown : lastAdb.hiddenSupply = false) (isAmount : op.ado.optAmount = some amount)
      (noOverflow : lastAdb.currentSupply - amount ≤ lastAdb.currentSupply) :
      Entry rules op history amount (changeSupply lastAdo (· - amount) :: earlier)

omit [DecidableEq PublicKey] in
theorem bounded_of_updateAllowed {newAdo prevAdo : AssetDescriptorBase PublicKey EthPublicKey}
    {hf6Active : Bool} (allowed : validateAdoUpdateAllowed newAdo prevAdo hf6Active = true) :
    newAdo.totalMaxSupply = prevAdo.totalMaxSupply ∧
      newAdo.currentSupply ≤ newAdo.totalMaxSupply := by
  simp only [validateAdoUpdateAllowed, Bool.and_eq_true, decide_eq_true_eq] at allowed
  obtain ⟨⟨⟨⟨⟨⟨sameMax, bounded⟩, -⟩, -⟩, -⟩, -⟩, -⟩ := allowed
  exact ⟨sameMax, sameMax ▸ bounded⟩

theorem entry_of_hf4 (before : rules.isHardfork05Active op.height = false)
    (validated : validateAssetOperationHf4 rules op assetId history = some amount) :
    Entry rules op history amount (op.ado :: history) := by
  unfold validateAssetOperationHf4 at validated
  cases isType : op.ado.operationType with
  | register =>
      simp only [isType] at validated
      cases descriptor : op.ado.optDescriptor with
      | none => simp [descriptor] at validated
      | some adb =>
          simp only [descriptor, Option.ite_none_right_eq_some, Option.some.injEq] at validated
          obtain ⟨⟨isNew, -⟩, rfl⟩ := validated
          exact .register adb isType descriptor isNew (by simp [before])
  | undefined =>
      simp only [isType] at validated
      split at validated <;> cases validated
  | update =>
      simp only [isType] at validated
      split at validated
      · rename_i lastAdb adb last descriptor
        simp only [Option.ite_none_right_eq_some, Option.some.injEq] at validated
        obtain ⟨⟨-, sameSupply, allowed⟩, rfl⟩ := validated
        obtain ⟨sameMax, bounded⟩ := bounded_of_updateAllowed allowed
        exact .update lastAdb adb isType last descriptor sameSupply sameMax bounded
      · cases validated
  | emit =>
      simp only [isType] at validated
      split at validated
      · rename_i lastAdb adb last descriptor
        simp only [Option.ite_none_right_eq_some, Option.some.injEq] at validated
        obtain ⟨⟨-, more, allowed, -⟩, rfl⟩ := validated
        exact .emitDescriptor lastAdb adb before isType last descriptor more
          (bounded_of_updateAllowed allowed).2
      · cases validated
  | publicBurn =>
      simp only [isType] at validated
      split at validated
      · rename_i lastAdb adb last descriptor
        simp only [Option.ite_none_right_eq_some, Option.some.injEq] at validated
        obtain ⟨⟨less, allowed, -⟩, rfl⟩ := validated
        exact .burnDescriptor lastAdb adb before isType last descriptor less
          (bounded_of_updateAllowed allowed).2
      · cases validated

omit [DecidableEq PublicKey] in
theorem amountIfShown_eq_some {lastAdb : AssetDescriptorBase PublicKey EthPublicKey}
    {optAmount : Option UInt64} {allowed : UInt64 → Bool}
    (isAmount : amountIfShown lastAdb optAmount allowed = some amount)
    (shown : lastAdb.hiddenSupply = false) : optAmount = some amount ∧ allowed amount = true := by
  unfold amountIfShown at isAmount
  rw [shown] at isAmount
  cases optAmount with
  | none => cases isAmount
  | some given =>
      simp only [Bool.false_eq_true, if_false, Option.ite_none_right_eq_some,
        Option.some.injEq] at isAmount
      obtain ⟨isAllowed, rfl⟩ := isAmount
      exact ⟨rfl, isAllowed⟩

omit [DecidableEq PublicKey] in
theorem changeLast_eq_some {optAmount : Option UInt64} {change : UInt64 → UInt64 → UInt64}
    (changed : changeLast history optAmount change = some next) :
    ∃ lastAdo earlier lastAdb amount, history = lastAdo :: earlier ∧
      lastAdo.optDescriptor = some lastAdb ∧
      lastAdb.hiddenSupply = false ∧ optAmount = some amount ∧
      next = changeSupply lastAdo (change · amount) :: earlier := by
  unfold changeLast at changed
  cases history with
  | nil => cases changed
  | cons lastAdo earlier =>
      simp only at changed
      split at changed
      · rename_i lastAdb amount descriptor
        simp only [Option.ite_none_left_eq_some, Option.some.injEq, Bool.not_eq_true] at changed
        exact ⟨lastAdo, earlier, lastAdb, amount, rfl, descriptor, changed.1, rfl, changed.2.symm⟩
      · cases changed

/-- What `put_asset_info` stores after hardfork 5. -/
theorem entry_of_hf5 (after : rules.isHardfork05Active op.height = true)
    (validated : validateAssetOperationHf5 rules op assetId history = some amount)
    (stored : (match op.ado.operationType with
      | .register | .update => some (op.ado :: history)
      | .emit => changeLast history op.ado.optAmount (· + ·)
      | .publicBurn => changeLast history op.ado.optAmount (· - ·)
      | .undefined => none) = some next) : Entry rules op history amount next := by
  unfold validateAssetOperationHf5 at validated
  cases isType : op.ado.operationType with
  | undefined =>
      simp only [isType] at stored
      cases stored
  | register =>
      simp only [isType, Option.some.injEq] at validated stored
      cases descriptor : op.ado.optDescriptor with
      | none => simp [descriptor] at validated
      | some adb =>
          simp only [descriptor, Option.ite_none_right_eq_some, Option.some.injEq] at validated
          obtain ⟨⟨isNew, initial, -⟩, -, rfl⟩ := validated
          rw [← stored]
          simp only [validateAdoInitial, Bool.and_eq_true, decide_eq_true_eq] at initial
          exact .register adb isType descriptor isNew fun _ => initial.1
  | update =>
      simp only [isType, Option.some.injEq] at validated stored
      cases last : lastDescriptor history with
      | none => simp [last] at validated
      | some lastAdb =>
          cases descriptor : op.ado.optDescriptor with
          | none => simp [last, descriptor] at validated
          | some adb =>
              simp only [last, descriptor, Option.ite_none_right_eq_some,
                Option.some.injEq] at validated
              obtain ⟨⟨-, sameSupply, allowed⟩, rfl⟩ := validated
              obtain ⟨sameMax, bounded⟩ := bounded_of_updateAllowed allowed
              rw [← stored]
              exact .update lastAdb adb isType last descriptor sameSupply sameMax bounded
  | emit =>
      simp only [isType] at validated stored
      obtain ⟨lastAdo, earlier, lastAdb, given, rfl, descriptor, shown, isGiven, rfl⟩ :=
        changeLast_eq_some stored
      have last : lastDescriptor (lastAdo :: earlier) = some lastAdb := by
        simp [lastDescriptor, descriptor]
      simp only [last, Option.ite_none_right_eq_some, Option.bind_eq_some_iff,
        Option.some.injEq] at validated
      obtain ⟨-, _, isAmount, -, rfl⟩ := validated
      obtain ⟨isAmount, allowed⟩ := amountIfShown_eq_some isAmount shown
      rw [isGiven] at isAmount
      cases isAmount
      simp only [Bool.and_eq_true, decide_eq_true_eq] at allowed
      exact .emitAmount lastAdo earlier lastAdb given after isType rfl descriptor shown isGiven
        allowed.1 allowed.2
  | publicBurn =>
      simp only [isType] at validated stored
      obtain ⟨lastAdo, earlier, lastAdb, given, rfl, descriptor, shown, isGiven, rfl⟩ :=
        changeLast_eq_some stored
      have last : lastDescriptor (lastAdo :: earlier) = some lastAdb := by
        simp [lastDescriptor, descriptor]
      simp only [last, Option.bind_eq_some_iff, Option.ite_none_right_eq_some,
        Option.some.injEq] at validated
      obtain ⟨_, isAmount, -, rfl⟩ := validated
      obtain ⟨isAmount, allowed⟩ := amountIfShown_eq_some isAmount shown
      rw [isGiven] at isAmount
      cases isAmount
      exact .burnAmount lastAdo earlier lastAdb given after isType rfl descriptor shown isGiven
        (by simpa using allowed)

/-! ## One operation -/

variable [DecidableEq AssetId] {assets stored : AssetStore AssetId PublicKey EthPublicKey}

/-- The inversion of `put_asset_info`. -/
theorem putAssetInfo_cases (isPut : putAssetInfo rules assets op = some stored) :
    ∃ assetId amount next, getOrCalculateAssetId rules op.ado = some assetId ∧
      validateAssetOperation rules op assetId (assets assetId) = some amount ∧
      Entry rules op (assets assetId) amount next ∧
        stored = Function.update assets assetId next := by
  unfold putAssetInfo at isPut
  obtain ⟨assetId, isId, isPut⟩ := Option.bind_eq_some_iff.mp isPut
  obtain ⟨amount, validated, isPut⟩ := Option.bind_eq_some_iff.mp isPut
  obtain ⟨next, isNext, rfl⟩ := Option.map_eq_some_iff.mp isPut
  refine ⟨assetId, amount, next, isId, validated, ?_, rfl⟩
  unfold validateAssetOperation at validated
  cases active : rules.isHardfork05Active op.height with
  | false =>
      simp only [active, Bool.false_eq_true, if_false, Option.some.injEq] at validated isNext
      rw [← isNext]
      exact entry_of_hf4 active validated
  | true =>
      simp only [active, if_true] at validated isNext
      exact entry_of_hf5 active validated isNext

def currentSupply
    (history : List (AssetDescriptorOperation AssetId PublicKey EthPublicKey)) : Option UInt64 :=
  (lastDescriptor history).map (·.currentSupply)

/-- The supply before and after an operation, with sums and differences of natural numbers. -/
def SupplyChange (type : OperationType) (amount : UInt64) (before after : Option UInt64) : Prop :=
  match type with
  | .register => before = none ∧ after = some amount
  | .emit => ∃ old new, before = some old ∧ after = some new ∧ new.toNat = old.toNat + amount.toNat
  | .publicBurn =>
      ∃ old new, before = some old ∧ after = some new ∧ new.toNat + amount.toNat = old.toNat
  | .update => ∃ old, before = some old ∧ after = some old
  | .undefined => False

theorem toNat_add_of_le {a b : UInt64} (noOverflow : a ≤ a + b) :
    (a + b).toNat = a.toNat + b.toNat := by
  rw [UInt64.le_iff_toNat_le, UInt64.toNat_add] at noOverflow
  rw [UInt64.toNat_add]
  have := a.toNat_lt
  have := b.toNat_lt
  omega

theorem toNat_sub_of_le {a b : UInt64} (noOverflow : a - b ≤ a) :
    (a - b).toNat + b.toNat = a.toNat := by
  rw [UInt64.le_iff_toNat_le, UInt64.toNat_sub] at noOverflow
  rw [UInt64.toNat_sub]
  have := a.toNat_lt
  have := b.toNat_lt
  omega

theorem toNat_sub_of_lt {a b : UInt64} (less : b < a) : (a - b).toNat + b.toNat = a.toNat := by
  rw [UInt64.lt_iff_toNat_lt] at less
  rw [UInt64.toNat_sub]
  have := a.toNat_lt
  omega

omit [DecidableEq PublicKey] [DecidableEq AssetId] in
theorem Entry.supplyChange (entry : Entry rules op history amount next) :
    SupplyChange op.ado.operationType amount (currentSupply history) (currentSupply next) := by
  cases entry with
  | register adb isType descriptor isNew initial =>
      simp [SupplyChange, isType, isNew, currentSupply, lastDescriptor, descriptor]
  | update lastAdb adb isType last descriptor sameSupply sameMax bounded =>
      simp only [SupplyChange, isType]
      exact ⟨lastAdb.currentSupply, by simp [currentSupply, last], by
        simp [currentSupply, lastDescriptor, descriptor, sameSupply]⟩
  | emitDescriptor lastAdb adb before isType last descriptor more bounded =>
      simp only [SupplyChange, isType]
      refine ⟨lastAdb.currentSupply, adb.currentSupply, by simp [currentSupply, last], by
        simp [currentSupply, lastDescriptor, descriptor], ?_⟩
      have exact_ := toNat_sub_of_lt more
      omega
  | burnDescriptor lastAdb adb before isType last descriptor less bounded =>
      simp only [SupplyChange, isType]
      refine ⟨lastAdb.currentSupply, adb.currentSupply, by simp [currentSupply, last], by
        simp [currentSupply, lastDescriptor, descriptor], ?_⟩
      have exact_ := toNat_sub_of_lt less
      omega
  | emitAmount lastAdo earlier lastAdb amount after isType last descriptor shown isAmount noOverflow
    bounded =>
      simp only [SupplyChange, isType]
      exact ⟨lastAdb.currentSupply, lastAdb.currentSupply + amount, by
        simp [last, currentSupply, lastDescriptor, descriptor], by
        simp [currentSupply, lastDescriptor, changeSupply, descriptor], toNat_add_of_le noOverflow⟩
  | burnAmount lastAdo earlier lastAdb amount after isType last descriptor shown isAmount
    noOverflow =>
      simp only [SupplyChange, isType]
      exact ⟨lastAdb.currentSupply, lastAdb.currentSupply - amount, by
        simp [last, currentSupply, lastDescriptor, descriptor], by
        simp [currentSupply, lastDescriptor, changeSupply, descriptor], toNat_sub_of_le noOverflow⟩

omit [DecidableEq PublicKey] [DecidableEq AssetId] in
/-- A change of the latest entry is undone by the inverse change. -/
theorem changeLast_changeSupply {change back : UInt64 → UInt64 → UInt64}
    (inverse : ∀ x, back (change x amount) amount = x)
    {lastAdo : AssetDescriptorOperation AssetId PublicKey EthPublicKey}
    {earlier : List (AssetDescriptorOperation AssetId PublicKey EthPublicKey)}
    {lastAdb : AssetDescriptorBase PublicKey EthPublicKey}
    (descriptor : lastAdo.optDescriptor = some lastAdb) (shown : lastAdb.hiddenSupply = false) :
    changeLast (changeSupply lastAdo (change · amount) :: earlier) (some amount) back =
      some (lastAdo :: earlier) := by
  obtain ⟨type, commitment, assetId, optDescriptor, optAmount, salt⟩ := lastAdo
  simp only at descriptor
  subst descriptor
  simp only [changeLast, changeSupply, Option.map_some, shown, inverse,
    Bool.false_eq_true, if_false]
  rw [← shown]

/-- The pop makes its choice by the type of the operation and the height, as the put did. -/
theorem popAssetInfo_putAssetInfo (isPut : putAssetInfo rules assets op = some stored) :
    popAssetInfo rules stored op = some assets := by
  obtain ⟨assetId, amount, next, isId, -, entry, rfl⟩ := putAssetInfo_cases isPut
  have restored (popped : List (AssetDescriptorOperation AssetId PublicKey EthPublicKey))
      (same : popped = assets assetId) :
      Function.update (Function.update assets assetId next) assetId popped = assets := by
    rw [Function.update_idem, same, Function.update_eq_self]
  simp only [popAssetInfo, isId, Option.bind_some, Function.update_self, Option.map_eq_some_iff]
  cases entry with
  | register adb isType descriptor isNew initial =>
      exact ⟨assets assetId, by simp [descriptor, isType], restored _ rfl⟩
  | update lastAdb adb isType last descriptor sameSupply sameMax bounded =>
      exact ⟨assets assetId, by simp [descriptor, isType], restored _ rfl⟩
  | emitDescriptor lastAdb adb before isType last descriptor more bounded =>
      exact ⟨assets assetId, by simp [before], restored _ rfl⟩
  | burnDescriptor lastAdb adb before isType last descriptor less bounded =>
      exact ⟨assets assetId, by simp [before], restored _ rfl⟩
  | emitAmount lastAdo earlier lastAdb amount after isType last descriptor shown isAmount noOverflow
    bounded =>
      refine ⟨lastAdo :: earlier, ?_, restored _ last.symm⟩
      simp only [after, isType, isAmount, if_true]
      rw [if_neg (by simp [changeSupply, descriptor])]
      exact changeLast_changeSupply (fun x => by simp) descriptor shown
  | burnAmount lastAdo earlier lastAdb amount after isType last descriptor shown isAmount
    noOverflow =>
      refine ⟨lastAdo :: earlier, ?_, restored _ last.symm⟩
      simp only [after, isType, isAmount, if_true]
      rw [if_neg (by simp [changeSupply, descriptor])]
      exact changeLast_changeSupply (fun x => by simp) descriptor shown

/-! ## The bound by the maximum supply -/

/-- The latest descriptor of every registered asset has a supply within its maximum. -/
def Bounded (assets : AssetStore AssetId PublicKey EthPublicKey) : Prop :=
  ∀ assetId, assets assetId ≠ [] →
    ∃ adb, lastDescriptor (assets assetId) = some adb ∧ adb.currentSupply ≤ adb.totalMaxSupply

/-- An asset that is registered before hardfork 5 comes with a supply within its maximum. -/
def RegistersBounded (rules : Rules Hash AssetId PublicKey EthPublicKey Signature)
    (op : Operation Hash AssetId PublicKey EthPublicKey Signature) : Prop :=
  op.ado.operationType = .register → rules.isHardfork05Active op.height = false →
    ∀ adb, op.ado.optDescriptor = some adb → adb.currentSupply ≤ adb.totalMaxSupply

omit [DecidableEq PublicKey] [DecidableEq AssetId] in
theorem Entry.bounded (entry : Entry rules op history amount next)
    (registers : RegistersBounded rules op) (wasBounded : ∀ adb, lastDescriptor history = some adb →
      adb.currentSupply ≤ adb.totalMaxSupply) :
    ∃ adb, lastDescriptor next = some adb ∧ adb.currentSupply ≤ adb.totalMaxSupply := by
  cases entry with
  | register adb isType descriptor isNew initial =>
      refine ⟨adb, by simp [lastDescriptor, descriptor], ?_⟩
      cases active : rules.isHardfork05Active op.height with
      | false => exact registers isType active adb descriptor
      | true => exact initial active
  | update lastAdb adb isType last descriptor sameSupply sameMax bounded =>
      exact ⟨adb, by simp [lastDescriptor, descriptor], bounded⟩
  | emitDescriptor lastAdb adb before isType last descriptor more bounded =>
      exact ⟨adb, by simp [lastDescriptor, descriptor], bounded⟩
  | burnDescriptor lastAdb adb before isType last descriptor less bounded =>
      exact ⟨adb, by simp [lastDescriptor, descriptor], bounded⟩
  | emitAmount lastAdo earlier lastAdb amount after isType last descriptor shown isAmount noOverflow
    bounded =>
      exact ⟨{ lastAdb with currentSupply := lastAdb.currentSupply + amount }, by
        simp [lastDescriptor, changeSupply, descriptor], bounded⟩
  | burnAmount lastAdo earlier lastAdb amount after isType last descriptor shown isAmount
    noOverflow =>
      refine ⟨{ lastAdb with currentSupply := lastAdb.currentSupply - amount }, by
        simp [lastDescriptor, changeSupply, descriptor], ?_⟩
      exact UInt64.le_trans noOverflow
        (wasBounded lastAdb (by simp [last, lastDescriptor, descriptor]))

theorem Bounded.put (bounded : Bounded assets) (registers : RegistersBounded rules op)
    (isPut : putAssetInfo rules assets op = some stored) : Bounded stored := by
  obtain ⟨assetId, amount, next, -, -, entry, rfl⟩ := putAssetInfo_cases isPut
  intro other registered
  by_cases same : other = assetId
  · subst same
    rw [Function.update_self]
    apply entry.bounded registers
    intro adb last
    obtain ⟨adb', last', within⟩ :=
      bounded other (by rintro isNew; simp [isNew, lastDescriptor] at last)
    rw [last] at last'
    cases last'
    exact within
  · rw [Function.update_of_ne same] at registered ⊢
    exact bounded other registered

/-- A registration that breaks the bound before hardfork 5 shows in the store. -/
theorem registersBounded_of_bounded (isPut : putAssetInfo rules assets op = some stored)
    (bounded : Bounded stored) :
    RegistersBounded rules op := by
  intro isType before adb descriptor
  obtain ⟨assetId, amount, next, -, -, entry, rfl⟩ := putAssetInfo_cases isPut
  have isNext : next = op.ado :: assets assetId := by
    cases entry <;> simp_all
  obtain ⟨adb', last, within⟩ := bounded assetId (by simp [isNext])
  simp only [Function.update_self, isNext, lastDescriptor, List.head?_cons, Option.bind_some,
    descriptor, Option.some.injEq] at last
  rw [last]
  exact within

/-! ## Runs -/

abbrev AssetRequest (Hash AssetId PublicKey EthPublicKey Signature : Type*) :=
  Request (Operation Hash AssetId PublicKey EthPublicKey Signature)

abbrev StackedAssets (Hash AssetId PublicKey EthPublicKey Signature : Type*) :=
  Stacked (AssetStore AssetId PublicKey EthPublicKey)
    (Operation Hash AssetId PublicKey EthPublicKey Signature)

/-- A run of puts and pops, each accepted, from the empty store. -/
def runAssets (rules : Rules Hash AssetId PublicKey EthPublicKey Signature)
    (requests : List (AssetRequest Hash AssetId PublicKey EthPublicKey Signature)) :
    Option (StackedAssets Hash AssetId PublicKey EthPublicKey Signature) :=
  Transition.run (step (putAssetInfo rules) (popAssetInfo rules)) ⟨fun _ => [], []⟩ requests

theorem bounded_of_run
    {requests : List (AssetRequest Hash AssetId PublicKey EthPublicKey Signature)}
    {final : StackedAssets Hash AssetId PublicKey EthPublicKey Signature}
    (registers : ∀ op, .put op ∈ requests → RegistersBounded rules op)
    (ran : runAssets rules requests = some final) : Bounded final.state := by
  have built :
      Built (putAssetInfo rules) (fun _ op => RegistersBounded rules op) (fun _ => []) final.state
      final.items := by
    apply built_of_run (fun s items op next _ _ isPut => popAssetInfo_putAssetInfo isPut) ?_ ran
    apply Transition.guarded_of_forall_mem
    intro request inside c
    cases request with
    | put op => exact registers op inside
    | pop => trivial
  generalize final.state = assets, final.items = items at built
  apply built.invariant (fun assetId registered => absurd rfl registered)
  intro assets items op stored bounded isRegister isPut
  exact bounded.put isRegister isPut

/-- In every run the arithmetic on the supply is exact and a pop restores the store. The supply is
within its maximum in every state of the run if and only if every asset that is registered before
hardfork 5 comes so. -/
theorem supply_discipline
    (requests : List (AssetRequest Hash AssetId PublicKey EthPublicKey Signature))
    (final : StackedAssets Hash AssetId PublicKey EthPublicKey Signature)
    (ran : runAssets rules requests = some final) :
    ((∀ before after middle, requests = before ++ after → runAssets rules before = some middle →
        Bounded middle.state) ↔
      ∀ op, .put op ∈ requests → RegistersBounded rules op) ∧
    ∀ op stored, putAssetInfo rules final.state op = some stored →
      popAssetInfo rules stored op = some final.state ∧
      ∃ assetId amount, getOrCalculateAssetId rules op.ado = some assetId ∧
        validateAssetOperation rules op assetId (final.state assetId) = some amount ∧
        SupplyChange op.ado.operationType amount (currentSupply (final.state assetId))
          (currentSupply (stored assetId)) := by
  refine ⟨⟨?_, ?_⟩, ?_⟩
  · intro always op inside
    obtain ⟨before, after, same⟩ := List.append_of_mem inside
    have split : requests = (before ++ [.put op]) ++ after := by rw [same]; simp
    rw [split] at ran
    obtain ⟨next, ranNext, -⟩ := Transition.run_append_eq_some.mp ran
    have bounded := always _ _ _ split ranNext
    obtain ⟨middle, -, stepped⟩ := Transition.run_append_eq_some.mp ranNext
    rw [Transition.run_singleton, step_put_eq_some] at stepped
    exact registersBounded_of_bounded stepped.1 bounded
  · intro registers before after middle same ranMiddle
    apply bounded_of_run (fun op inside => registers op ?_) ranMiddle
    rw [same]
    exact List.mem_append_left after inside
  · intro op stored isPut
    obtain ⟨assetId, amount, next, isId, validated, entry, rfl⟩ := putAssetInfo_cases isPut
    refine ⟨popAssetInfo_putAssetInfo isPut, assetId, amount, isId, validated, ?_⟩
    rw [Function.update_self]
    exact entry.supplyChange

/-! ## An asset registered above its maximum -/

/-- Hardfork 5 is active from height 10 on; every signature is good. -/
def goodSignatures : Rules Nat Nat Nat Nat Nat where
  isHardfork05Active := fun height => 10 ≤ height
  isHardfork06Active := fun _ => false
  nullPkey := 0
  calculateAssetId := fun _ _ => 0
  verifySchnorrSig := fun _ _ _ => true
  verifyEthSignature := fun _ _ _ => true
  checkAmountCommitment := fun _ _ _ _ _ => true

def descriptor (supply max : UInt64) : AssetDescriptorBase Nat Nat where
  totalMaxSupply := max
  currentSupply := supply
  decimalPoint := 0
  ticker := "T"
  fullName := "T"
  metaInfo := ""
  owner := 1
  hiddenSupply := false
  ownerEthPubKey := none

def registerAt (height : Nat) (supply max : UInt64) : Operation Nat Nat Nat Nat Nat where
  txId := height
  proofs := ⟨some 0, none, [some 0]⟩
  ado := ⟨.register, some 0, none, some (descriptor supply max), some supply, none⟩
  height := height

def emitAt (height : Nat) (amount : UInt64) : Operation Nat Nat Nat Nat Nat where
  txId := height
  proofs := ⟨some 0, none, [some 0]⟩
  ado := ⟨.emit, some 0, some 0, none, some amount, none⟩
  height := height

theorem supply_discipline_emitted :
    ∃ final, runAssets goodSignatures [.put (registerAt 1 5 100), .put (emitAt 12 20)] =
      some final ∧
      currentSupply (final.state 0) = some 25 ∧
      (((∀ before after middle, [.put (registerAt 1 5 100), .put (emitAt 12 20)] = before ++ after →
          runAssets goodSignatures before = some middle → Bounded middle.state) ↔
        ∀ op, Request.put op ∈ [.put (registerAt 1 5 100), .put (emitAt 12 20)] →
          RegistersBounded goodSignatures op) ∧
      ∀ op stored, putAssetInfo goodSignatures final.state op = some stored →
        popAssetInfo goodSignatures stored op = some final.state ∧
        ∃ assetId amount, getOrCalculateAssetId goodSignatures op.ado = some assetId ∧
          validateAssetOperation goodSignatures op assetId (final.state assetId) = some amount ∧
          SupplyChange op.ado.operationType amount (currentSupply (final.state assetId))
            (currentSupply (stored assetId))) :=
  ⟨_, rfl, rfl, supply_discipline _ _ rfl⟩

theorem registered_above_max : ¬∀ requests final, runAssets goodSignatures requests = some final →
    Bounded final.state := by
  intro always
  obtain ⟨adb, isLast, within⟩ := always [.put (registerAt 1 10 5)] _ rfl 0 (List.cons_ne_nil _ _)
  cases isLast
  revert within
  decide

end Zano.Assets
