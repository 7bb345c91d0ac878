import Mathlib
import Zano.Lib.Balances

/-! # Gateway addresses

The store of gateway addresses with their descriptors and balances, and the lists of transactions
that mention them. Histories are kept latest first. A balance entry that is missing and one of zero
are the same here, since nothing that reads the balances tells them apart. Points and signatures are
parameters.
-/

namespace Zano.Ledger

open Balances

inductive OwnerKind where
  | publicKey
  | ethPublicKey
  | eddsaPublicKey
  deriving DecidableEq, Repr

/-- `gateway_owner_key_v`. -/
structure OwnerKey (PublicKey : Type*) where
  kind : OwnerKind
  key : PublicKey
  deriving DecidableEq, Repr

/-- `gateway_address_ownership_proof`; the kind is that of the key which the signature is for. -/
structure OwnershipProof (Signature : Type*) where
  kind : OwnerKind
  sign : Signature
  deriving DecidableEq, Repr

structure GatewayAddressDescriptor (PublicKey : Type*) where
  ownerKey : OwnerKey PublicKey
  metaInfo : String
  deriving DecidableEq, Repr

structure GatewayAddressData (PublicKey : Type*) where
  infoHistory : List (GatewayAddressDescriptor PublicKey)
  balances : PublicKey → UInt64

inductive GatewayOperation (PublicKey : Type*) where
  | register (viewPubKey : PublicKey) (descriptor : GatewayAddressDescriptor PublicKey)
  | update (addressId : PublicKey) (descriptor : GatewayAddressDescriptor PublicKey)
  deriving DecidableEq, Repr

/-- What `txin_gateway` and `tx_out_gateway` have in common. The asset id is
premultiplied by 1/8. -/
structure GatewayAmount (PublicKey : Type*) where
  gatewayAddr : PublicKey
  assetId : PublicKey
  amount : UInt64
  deriving DecidableEq, Repr

@[ext]
structure GatewayStores (Hash PublicKey : Type*) where
  addresses : PublicKey → Option (GatewayAddressData PublicKey)
  transactions : PublicKey → List Hash

structure GatewayRules (Hash PublicKey Signature : Type*) where
  pubKeyMul8 : PublicKey → Option PublicKey
  isInMainSubgroup : PublicKey → Bool
  /-- Of the hash that an owner signs for the transaction of this id. -/
  verifyOwner : OwnerKind → Hash → PublicKey → Signature → Bool

def currencyGatewayAddressRegistrationFee : UInt64 := 100000000000000

namespace GatewayStores

variable {Hash PublicKey Signature : Type*}

def empty : GatewayStores Hash PublicKey where
  addresses := fun _ => none
  transactions := fun _ => []

variable [DecidableEq PublicKey]

def setAddress (g : GatewayStores Hash PublicKey) (addr : PublicKey)
    (data : Option (GatewayAddressData PublicKey)) : GatewayStores Hash PublicKey :=
  { g with addresses := Function.update g.addresses addr data }

/-! ## Operations -/

def validateGwAddressOwnership (rules : GatewayRules Hash PublicKey Signature) (txId : Hash)
    (ownershipProof : Option (OwnershipProof Signature))
    (data : GatewayAddressData PublicKey) : Bool :=
  match ownershipProof, data.infoHistory with
  | some proof, last :: _ =>
      proof.kind =
        last.ownerKey.kind && rules.verifyOwner last.ownerKey.kind txId last.ownerKey.key proof.sign
  | _, _ => false

def putGwAddressOperation (rules : GatewayRules Hash PublicKey Signature)
    (g : GatewayStores Hash PublicKey) (txId : Hash) (fee : UInt64)
    (ownershipProof : Option (OwnershipProof Signature)) :
    GatewayOperation PublicKey → Option (GatewayStores Hash PublicKey)
  | .register viewPubKey descriptor =>
      if rules.isInMainSubgroup viewPubKey ∧ (g.addresses viewPubKey).isNone ∧
          currencyGatewayAddressRegistrationFee ≤ fee then
        some (g.setAddress viewPubKey (some ⟨[descriptor], fun _ => 0⟩))
      else none
  | .update addressId descriptor =>
      match g.addresses addressId with
      | none => none
      | some data =>
          if validateGwAddressOwnership rules txId ownershipProof data then
            some (g.setAddress addressId (some { data with
              infoHistory := descriptor :: data.infoHistory }))
          else none

def operationAddress : GatewayOperation PublicKey → PublicKey
  | .register viewPubKey _ => viewPubKey
  | .update addressId _ => addressId

/-- With the last descriptor the address goes, and its balances with it. -/
def popGwAddressOperation (g : GatewayStores Hash PublicKey) (op : GatewayOperation PublicKey) :
    Option (GatewayStores Hash PublicKey) :=
  match g.addresses (operationAddress op) with
  | none => none
  | some data =>
      match data.infoHistory with
      | [] => none
      | [_] => some (g.setAddress (operationAddress op) none)
      | _ :: earlier =>
          some (g.setAddress (operationAddress op) (some { data with infoHistory := earlier }))

/-! ## Balances -/

def changeGatewayBalance (g : GatewayStores Hash PublicKey) (gwAddr assetId : PublicKey)
    (amount : UInt64) (increase : Bool) : Option (GatewayStores Hash PublicKey) :=
  match g.addresses gwAddr with
  | none => none
  | some data =>
      ((if increase then deposit else withdraw) data.balances (assetId, amount)).map fun balances =>
        g.setAddress gwAddr (some { data with balances := balances })

/-- A change of a balance under the id of an asset that is premultiplied. -/
def processGateway (rules : GatewayRules Hash PublicKey Signature)
    (g : GatewayStores Hash PublicKey) (a : GatewayAmount PublicKey) (increase : Bool) :
    Option (GatewayStores Hash PublicKey) :=
  (rules.pubKeyMul8 a.assetId).bind fun assetId =>
    g.changeGatewayBalance a.gatewayAddr assetId a.amount increase

def processGatewayInput (rules : GatewayRules Hash PublicKey Signature)
    (g : GatewayStores Hash PublicKey) (inGw : GatewayAmount PublicKey) :
    Option (GatewayStores Hash PublicKey) :=
  g.processGateway rules inGw false

def unprocessGatewayInput (rules : GatewayRules Hash PublicKey Signature)
    (g : GatewayStores Hash PublicKey) (inGw : GatewayAmount PublicKey) :
    Option (GatewayStores Hash PublicKey) :=
  g.processGateway rules inGw true

def processGatewayOuput (rules : GatewayRules Hash PublicKey Signature)
    (g : GatewayStores Hash PublicKey) (outGw : GatewayAmount PublicKey) :
    Option (GatewayStores Hash PublicKey) :=
  g.processGateway rules outGw true

def unprocessGatewayOutput (rules : GatewayRules Hash PublicKey Signature)
    (g : GatewayStores Hash PublicKey) (outGw : GatewayAmount PublicKey) :
    Option (GatewayStores Hash PublicKey) :=
  g.processGateway rules outGw false

/-! ## Histories -/

def processTxGatewayHistory (g : GatewayStores Hash PublicKey) (txId : Hash)
    (involved : Finset PublicKey) :
    GatewayStores Hash PublicKey :=
  { g with transactions := fun addr => if addr ∈ involved then txId :: g.transactions addr
    else g.transactions addr }

/-- Only an entry of this transaction is popped. -/
def unprocessTxGatewayHistory [DecidableEq Hash] (g : GatewayStores Hash PublicKey) (txId : Hash)
    (involved : Finset PublicKey) : GatewayStores Hash PublicKey :=
  { g with transactions := fun addr =>
      if addr ∈ involved ∧ (g.transactions addr).head? = some txId then (g.transactions addr).tail
      else g.transactions addr }

/-! ## Balances as one function

All changes of balances are transfers on the balances under pairs of an address and an asset. -/

def balance (g : GatewayStores Hash PublicKey) (account : PublicKey × PublicKey) : UInt64 :=
  match g.addresses account.1 with
  | none => 0
  | some data => data.balances account.2

def withBalances (g : GatewayStores Hash PublicKey) (b : PublicKey × PublicKey → UInt64) :
    GatewayStores Hash PublicKey :=
  { g with addresses := fun addr => (g.addresses addr).map fun data =>
    { data with balances := fun id => b (addr, id) } }

/-- Only addresses that are registered have balances. -/
def Supports (g : GatewayStores Hash PublicKey) (b : PublicKey × PublicKey → UInt64) : Prop :=
  ∀ account : PublicKey × PublicKey, g.addresses account.1 = none → b account = 0

variable {g : GatewayStores Hash PublicKey} {b : PublicKey × PublicKey → UInt64}

omit [DecidableEq PublicKey] in
theorem supports_balance (g : GatewayStores Hash PublicKey) : g.Supports g.balance := by
  intro account absent
  rw [balance, absent]

omit [DecidableEq PublicKey] in
theorem balance_withBalances (supports : g.Supports b) : (g.withBalances b).balance = b := by
  funext account
  cases isThere : g.addresses account.1 with
  | none => simp [balance, withBalances, isThere, supports account isThere]
  | some data => simp [balance, withBalances, isThere]

omit [DecidableEq PublicKey] in
theorem withBalances_balance (g : GatewayStores Hash PublicKey) : g.withBalances g.balance = g := by
  ext1
  · funext addr
    rw [withBalances]
    cases isThere : g.addresses addr with
    | none => simp [isThere]
    | some data => simp [isThere, balance]
  · rfl

omit [DecidableEq PublicKey] in
theorem withBalances_withBalances (c : PublicKey × PublicKey → UInt64) :
    (g.withBalances b).withBalances c = g.withBalances c := by
  ext1
  · funext addr
    simp [withBalances, Option.map_map, Function.comp_def]
  · rfl

/-- A transfer for each direction. -/
def transferStep (increase : Bool) :
    (PublicKey × PublicKey → UInt64) → (PublicKey × PublicKey) × UInt64 →
      Option (PublicKey × PublicKey → UInt64) :=
  if increase then deposit else withdraw

theorem changeGatewayBalance_eq (gwAddr assetId : PublicKey) (amount : UInt64) (increase : Bool) :
    g.changeGatewayBalance gwAddr assetId amount increase =
      if (g.addresses gwAddr).isSome then
        (transferStep increase g.balance ((gwAddr, assetId), amount)).map g.withBalances
      else none := by
  rw [changeGatewayBalance]
  cases isThere : g.addresses gwAddr with
  | none => rfl
  | some data =>
      have own : g.balance (gwAddr, assetId) = data.balances assetId := by rw [balance, isThere]
      have stored (v : UInt64) : g.setAddress gwAddr
          (some { data with balances := Function.update data.balances assetId v }) =
          g.withBalances (Function.update g.balance (gwAddr, assetId) v) := by
        ext1
        · funext addr
          by_cases same : addr = gwAddr
          · subst same
            simp only [setAddress, withBalances, Function.update_self, isThere, Option.map_some]
            congr 2
            funext id
            by_cases sameId : id = assetId
            · rw [sameId, Function.update_self, Function.update_self]
            · rw [Function.update_of_ne sameId, Function.update_of_ne (by simp [sameId]),
                balance, isThere]
          · simp only [setAddress, withBalances, Function.update_of_ne same]
            cases other : g.addresses addr with
            | none => rfl
            | some data' => simp [balance, other, same]
        · rfl
      cases increase with
      | true =>
          simp only [transferStep, if_true, deposit, own, Option.isSome_some]
          split
          · exact congrArg some (stored _)
          · rfl
      | false =>
          simp only [transferStep, Bool.false_eq_true, if_false, withdraw, own,
            Option.isSome_some, if_true]
          split
          · exact congrArg some (stored _)
          · rfl

/-! ## Lists of changes -/

/-- The account and the amount of a change. -/
def transfer (rules : GatewayRules Hash PublicKey Signature) (a : GatewayAmount PublicKey) :
    Option ((PublicKey × PublicKey) × UInt64) :=
  (rules.pubKeyMul8 a.assetId).map fun assetId => ((a.gatewayAddr, assetId), a.amount)

/-- A change that is not refused for its address or its asset id. -/
def Resolves (rules : GatewayRules Hash PublicKey Signature) (g : GatewayStores Hash PublicKey)
    (a : GatewayAmount PublicKey) (t : (PublicKey × PublicKey) × UInt64) : Prop :=
  transfer rules a = some t ∧ (g.addresses t.1.1).isSome

def processGateways (rules : GatewayRules Hash PublicKey Signature) (increase : Bool) :
    List (GatewayAmount PublicKey) → GatewayStores Hash PublicKey →
      Bool × GatewayStores Hash PublicKey :=
  Attempts.untilFailure (Attempts.orStay fun g a => g.processGateway rules a increase)

variable {rules : GatewayRules Hash PublicKey Signature} {increase : Bool}

theorem processGateway_eq (increase : Bool) (supports : g.Supports b) {a : GatewayAmount PublicKey}
    {t : (PublicKey × PublicKey) × UInt64} (resolves : g.Resolves rules a t) :
    (g.withBalances b).processGateway rules a increase =
      (transferStep increase b t).map g.withBalances := by
  obtain ⟨isTransfer, registered⟩ := resolves
  obtain ⟨assetId, isId, rfl⟩ := Option.map_eq_some_iff.mp isTransfer
  have registered' : ((g.withBalances b).addresses a.gatewayAddr).isSome = true := by
    rw [withBalances, Option.isSome_map, registered]
  have again : (g.withBalances b).withBalances = g.withBalances := funext withBalances_withBalances
  rw [processGateway, isId, Option.bind_some, changeGatewayBalance_eq, if_pos registered',
    balance_withBalances supports, again]

/-- Only what resolves can be changed. -/
theorem resolves_of_processGateway {next : GatewayStores Hash PublicKey}
    {a : GatewayAmount PublicKey} (processed : g.processGateway rules a increase = some next) :
    ∃ t, g.Resolves rules a t := by
  obtain ⟨assetId, isId, changed⟩ := Option.bind_eq_some_iff.mp processed
  rw [changeGatewayBalance_eq, Option.ite_none_right_eq_some] at changed
  exact ⟨((a.gatewayAddr, assetId), a.amount), by rw [transfer, isId]; rfl, changed.1⟩

theorem transferStep_supports (supports : g.Supports b) {t : (PublicKey × PublicKey) × UInt64}
    {next : PublicKey × PublicKey → UInt64} (registered : (g.addresses t.1.1).isSome)
    (done : transferStep increase b t = some next) : g.Supports next := by
  intro account absent
  have other : account ≠ t.1 := by
    rintro rfl
    rw [absent] at registered
    cases registered
  have same : next account = b account := by
    cases increase with
    | true =>
        obtain ⟨-, updated⟩ := Option.ite_none_right_eq_some.mp done
        cases updated
        exact Function.update_of_ne other _ _
    | false =>
        obtain ⟨-, updated⟩ := Option.ite_none_right_eq_some.mp done
        cases updated
        exact Function.update_of_ne other _ _
  rw [same, supports account absent]

/-- Changes that all resolve are transfers. -/
theorem processGateways_eq (increase : Bool) {as : List (GatewayAmount PublicKey)}
    {ts : List ((PublicKey × PublicKey) × UInt64)} (resolve : List.Forall₂ (g.Resolves rules) as ts)
    (supports : g.Supports b) :
    processGateways rules increase as (g.withBalances b) =
      ((runAll (transferStep increase) ts b).1,
        g.withBalances (runAll (transferStep increase) ts b).2) ∧
    g.Supports (runAll (transferStep increase) ts b).2 := by
  induction resolve generalizing b with
  | nil => exact ⟨rfl, supports⟩
  | @cons a t as ts resolves _ inductionHypothesis =>
      have one := processGateway_eq increase supports resolves
      cases done : transferStep increase b t with
      | none =>
          rw [done] at one
          rw [runAll_cons_none done]
          exact ⟨Attempts.untilFailure_cons_of_failed (Attempts.orStay_eq_false.mpr ⟨one, rfl⟩),
            supports⟩
      | some next =>
          rw [done] at one
          rw [runAll_cons_some done, processGateways,
            Attempts.untilFailure_cons_of_ok (Attempts.orStay_eq_true.mpr one)]
          exact inductionHypothesis (transferStep_supports supports resolves.2 done)

/-- Accepted changes all resolve. -/
theorem processGateways_resolve {as : List (GatewayAmount PublicKey)}
    {final : GatewayStores Hash PublicKey} (supports : g.Supports b)
    (processed : processGateways rules increase as (g.withBalances b) = (true, final)) :
    ∃ ts, List.Forall₂ (g.Resolves rules) as ts := by
  induction as generalizing b with
  | nil => exact ⟨[], .nil⟩
  | cons a as inductionHypothesis =>
      obtain ⟨next, first, rest⟩ := Attempts.untilFailure_cons_eq_true.mp processed
      rw [Attempts.orStay_eq_true] at first
      obtain ⟨t, isTransfer, registered⟩ := resolves_of_processGateway first
      have resolves : g.Resolves rules a t := by
        rw [withBalances, Option.isSome_map] at registered
        exact ⟨isTransfer, registered⟩
      rw [processGateway_eq increase supports resolves] at first
      obtain ⟨c, done, rfl⟩ := Option.map_eq_some_iff.mp first
      obtain ⟨ts, resolve⟩ :=
        inductionHypothesis (transferStep_supports supports resolves.2 done) rest
      exact ⟨t :: ts, .cons resolves resolve⟩

/-! ## Operations taken back -/

variable {txId : Hash} {fee : UInt64} {ownershipProof : Option (OwnershipProof Signature)}
  {op : GatewayOperation PublicKey} {next : GatewayStores Hash PublicKey}

/-- An operation does not touch a balance; a new address has none. -/
theorem putGwAddressOperation_balance
    (isPut : g.putGwAddressOperation rules txId fee ownershipProof op = some next) :
    next.balance = g.balance ∧ next.transactions = g.transactions := by
  cases op with
  | register viewPubKey descriptor =>
      obtain ⟨⟨-, isNew, -⟩, stored⟩ := Option.ite_none_right_eq_some.mp isPut
      cases stored
      refine ⟨?_, rfl⟩
      funext account
      by_cases same : account.1 = viewPubKey
      · rw [← same] at isNew
        simp [balance, setAddress, same.symm, Option.isNone_iff_eq_none.mp isNew]
      · simp [balance, setAddress, Function.update_of_ne same]
  | update addressId descriptor =>
      rw [putGwAddressOperation] at isPut
      cases isThere : g.addresses addressId with
      | none =>
          rw [isThere] at isPut
          cases isPut
      | some data =>
          rw [isThere] at isPut
          obtain ⟨-, stored⟩ := Option.ite_none_right_eq_some.mp isPut
          cases stored
          refine ⟨?_, rfl⟩
          funext account
          by_cases same : account.1 = addressId
          · simp [balance, setAddress, same, isThere]
          · simp [balance, setAddress, Function.update_of_ne same]

theorem popGwAddressOperation_put
    (isPut : g.putGwAddressOperation rules txId fee ownershipProof op = some next) :
    next.popGwAddressOperation op = some g := by
  cases op with
  | register viewPubKey descriptor =>
      obtain ⟨⟨-, isNew, -⟩, stored⟩ := Option.ite_none_right_eq_some.mp isPut
      cases stored
      rw [Option.isNone_iff_eq_none] at isNew
      simp [popGwAddressOperation, operationAddress, setAddress, ← isNew]
  | update addressId descriptor =>
      rw [putGwAddressOperation] at isPut
      cases isThere : g.addresses addressId with
      | none =>
          rw [isThere] at isPut
          cases isPut
      | some data =>
          rw [isThere] at isPut
          obtain ⟨owned, stored⟩ := Option.ite_none_right_eq_some.mp isPut
          cases stored
          -- the proof of ownership is against the last descriptor, so there is one
          cases history : data.infoHistory with
          | nil => simp [validateGwAddressOwnership, history] at owned
          | cons last earlier =>
              have restored : { data with infoHistory := last :: earlier } = data := by
                rw [← history]
              simp [popGwAddressOperation, operationAddress, setAddress, restored, ← isThere]

/-- A pop leaves the balances of the addresses that are still there. -/
theorem popGwAddressOperation_balance (popped : g.popGwAddressOperation op = some next) :
    next.transactions = g.transactions ∧
      ∀ account : PublicKey × PublicKey, (next.addresses account.1).isSome → next.balance account =
      g.balance account := by
  rw [popGwAddressOperation] at popped
  cases isThere : g.addresses (operationAddress op) with
  | none =>
      rw [isThere] at popped
      cases popped
  | some data =>
      rw [isThere] at popped
      dsimp only at popped
      split at popped
      · cases popped
      · cases popped
        refine ⟨rfl, fun account stays => ?_⟩
        have other : account.1 ≠ operationAddress op := by
          intro same
          simp [setAddress, same] at stays
        simp [balance, setAddress, Function.update_of_ne other]
      · cases popped
        refine ⟨rfl, fun account _ => ?_⟩
        by_cases same : account.1 = operationAddress op
        · simp [balance, setAddress, same, isThere]
        · simp [balance, setAddress, Function.update_of_ne same]

/-- The entries of a transaction are taken back from any stores that have the same lists. -/
theorem unprocessTxGatewayHistory_process [DecidableEq Hash] {involved : Finset PublicKey}
    (same : next.transactions = (g.processTxGatewayHistory txId involved).transactions) :
    (next.unprocessTxGatewayHistory txId involved).transactions = g.transactions := by
  funext addr
  rw [unprocessTxGatewayHistory]
  simp only [same, processTxGatewayHistory]
  by_cases inside : addr ∈ involved
  · simp [inside]
  · simp [inside]

end GatewayStores

end Zano.Ledger
