import Mathlib
import Zano.Aliases.History
import Zano.Assets.Supply
import Zano.Ledger.Visitors

/-! # Purging a transaction with gateways

A transaction that was added withdraws what its gateway inputs spend before it deposits what its
gateway outputs pay. The purge deposits the inputs again while the outputs are still there, and
nobody looks at whether it could. So an address that pays itself has to have room for its old
balance and the payment at once, or else a part of the balance is lost.
-/

namespace Zano.Ledger

open Blockchain Aliases Assets Attempts Balances

/-! ## Balances there and back -/

namespace GatewayStores

variable {Hash PublicKey Signature : Type*} [DecidableEq PublicKey]
  {rules : GatewayRules Hash PublicKey Signature}

/-- What the changes move to or from an account. -/
def totalOf (rules : GatewayRules Hash PublicKey Signature) (as : List (GatewayAmount PublicKey))
    (account : PublicKey × PublicKey) : Nat :=
  total (as.filterMap (transfer rules)) account

variable {g paid funded : GatewayStores Hash PublicKey}
  {ins outs as : List (GatewayAmount PublicKey)} {ts : List ((PublicKey × PublicKey) × UInt64)}

omit [DecidableEq PublicKey] in
theorem filterMap_transfer (resolve : List.Forall₂ (g.Resolves rules) as ts) :
    as.filterMap (transfer rules) = ts := by
  induction resolve with
  | nil => rfl
  | cons resolves _ inductionHypothesis =>
      rw [List.filterMap_cons_some resolves.1, inductionHypothesis]

/-- What becomes of the balances when inputs that were processed, and outputs after them, are
unprocessed in the order of the purge. -/
structure WayBack (rules : GatewayRules Hash PublicKey Signature)
    (g funded : GatewayStores Hash PublicKey) (ins outs : List (GatewayAmount PublicKey))
    (fits : Bool) (readded removed : PublicKey × PublicKey → UInt64) :
    Prop where
  inputs : processGateways rules true ins funded = (fits, g.withBalances readded)
  outputs : processGateways rules false outs.reverse (g.withBalances readded) =
    (true, g.withBalances removed)
  supports : g.Supports removed
  fits_iff : fits = true ↔
    ∀ account, (g.balance account).toNat + totalOf rules outs account < 2 ^ 64
  restored : fits = true → removed = g.balance
  lost : fits = false → ∃ account, (removed account).toNat < (g.balance account).toNat

/-- Accepted changes as transfers. -/
theorem processGateways_eq_true {increase : Bool} {b : PublicKey × PublicKey → UInt64}
    (supports : g.Supports b)
    (processed : processGateways rules increase as (g.withBalances b) = (true, funded)) :
    ∃ ts next, List.Forall₂ (g.Resolves rules) as ts ∧
      runAll (transferStep increase) ts b = (true, next) ∧
      funded = g.withBalances next ∧ g.Supports next := by
  obtain ⟨ts, resolve⟩ := processGateways_resolve supports processed
  obtain ⟨asTransfers, stillSupports⟩ := processGateways_eq increase resolve supports
  rw [asTransfers] at processed
  obtain ⟨good, rfl⟩ := Prod.mk.inj processed
  exact ⟨ts, _, resolve, Prod.ext good rfl, rfl, stillSupports⟩

theorem wayBack (withdrawn : processGateways rules false ins g = (true, paid))
    (deposited : processGateways rules true outs paid = (true, funded)) :
    ∃ fits readded removed, WayBack rules g funded ins outs fits readded removed := by
  rw [← withBalances_balance g] at withdrawn
  obtain ⟨inTransfers, spent, insResolve, spend, rfl, spentSupports⟩ :=
    processGateways_eq_true (supports_balance g) withdrawn
  obtain ⟨outTransfers, paid, outsResolve, pay, rfl, paidSupports⟩ :=
    processGateways_eq_true spentSupports deposited
  obtain ⟨readd, readdSupports⟩ := processGateways_eq true insResolve paidSupports
  obtain ⟨remove, removeSupports⟩ :=
    processGateways_eq false (List.forall₂_reverse_iff.mpr outsResolve) readdSupports
  have removed : (runAll (transferStep false) outTransfers.reverse
      (runAll (transferStep true) inTransfers paid).2).1 =
      true := remove_ok pay rfl
  rw [removed] at remove
  refine ⟨_, _, _, readd, remove, removeSupports, ?_, fun fits => ?_,
    fun stopped => lost_of_stopped spend pay
    (Prod.ext stopped rfl)⟩
  · have outsTotal : outs.filterMap (transfer rules) = outTransfers :=
      filterMap_transfer outsResolve
    simp only [totalOf, outsTotal]
    exact readd_ok_iff spend pay
  · exact congrArg Prod.snd (remove_readd spend pay (Prod.ext fits rfl))

/-- A pop gives no address more than it had. -/
theorem balance_popGwAddressOperation_le {op : GatewayOperation PublicKey}
    (popped : g.popGwAddressOperation op = some paid)
    (account : PublicKey × PublicKey) :
    (paid.balance account).toNat ≤ (g.balance account).toNat := by
  cases stays : paid.addresses account.1 with
  | none =>
      rw [balance, stays]
      exact Nat.zero_le _
  | some data => rw [(popGwAddressOperation_balance popped).2 account (by rw [stays]; rfl)]

end GatewayStores

namespace ChainStores

variable {C : Carriers} {env : Environment C} {s t processed final : ChainStores C}
  {blHeight height : Nat} {txId : C.Hash} {tx : Transaction C} {ei : TxExtraInfo C}

/-! ## The extra -/

theorem popAliasInfo_isSome {ai : ExtraAliasEntry C.Address C.SecretKey C.Signature}
    {aliases : Aliases.AliasStores C.Address C.SecretKey C.Signature C.Hash}
    (isPut : s.aliases.putAliasInfo env.checkAliasSignature ai txId = some aliases) :
    (aliases.popAliasInfo ai txId).isSome := by
  obtain ⟨named, put⟩ := AliasStores.putAliasInfo_cases isPut
  rw [AliasStores.popAliasInfo, if_neg named, put.aliases, Function.update_self]
  cases s.aliases.aliases ai.aliasName with
  | nil => rfl
  | cons back earlier => rfl

/-! Each operation is popped from any stores that have what it put, whatever
became of the others. -/

theorem alias_stage {o : Option (ExtraAliasEntry C.Address C.SecretKey C.Signature)}
    (ok : untilFailure (orStay (putOperation env tx txId height)) (o.map .aliasInfo).toList s =
      (true, processed)) :
    processed = { s with aliases := processed.aliases } ∧
      ∀ t : ChainStores C, t.aliases = processed.aliases →
      ∃ aliases,
        untilFailure (orStay (popOperation env tx txId height)) (o.map .aliasInfo).toList t =
        (true, { t with aliases := aliases }) := by
  rw [untilFailure_optional] at ok
  simp only [untilFailure_optional]
  cases o with
  | none =>
      cases ok
      exact ⟨rfl, fun t _ => ⟨t.aliases, rfl⟩⟩
  | some ai =>
      rw [Option.elim_some, orStay_eq_true] at ok
      obtain ⟨-, put⟩ := Option.ite_none_right_eq_some.mp ok
      obtain ⟨aliases, isPut, rfl⟩ := Option.map_eq_some_iff.mp put
      refine ⟨rfl, fun t same => ?_⟩
      obtain ⟨popped, isPopped⟩ := Option.isSome_iff_exists.mp (popAliasInfo_isSome isPut)
      refine ⟨popped, orStay_eq_true.mpr ?_⟩
      rw [popOperation, same, isPopped, Option.map_some]

theorem asset_stage {o : Option (AssetDescriptorOperation C.PublicKey C.PublicKey C.EthPublicKey)}
    (ok : untilFailure (orStay (putOperation env tx txId height)) (o.map .assetInfo).toList s =
      (true, processed)) :
    processed = { s with assets := processed.assets } ∧
      ∀ t : ChainStores C, t.assets = processed.assets →
      ∃ assets, untilFailure (orStay (popOperation env tx txId height))
        (o.map .assetInfo).toList t =
        (true, { t with assets := assets }) := by
  rw [untilFailure_optional] at ok
  simp only [untilFailure_optional]
  cases o with
  | none =>
      cases ok
      exact ⟨rfl, fun t _ => ⟨t.assets, rfl⟩⟩
  | some ado =>
      rw [Option.elim_some, orStay_eq_true] at ok
      obtain ⟨assets, isPut, rfl⟩ := Option.map_eq_some_iff.mp ok
      refine ⟨rfl, fun t same => ⟨s.assets, orStay_eq_true.mpr ?_⟩⟩
      rw [popOperation, same, popAssetInfo_putAssetInfo isPut, Option.map_some]

theorem gateway_stage {o : Option (GatewayOperation C.PublicKey)}
    (ok : untilFailure (orStay (putOperation env tx txId height)) (o.map .gwAddress).toList s =
      (true, processed)) :
    processed = { s with gateways := processed.gateways } ∧
      processed.gateways.balance = s.gateways.balance ∧
      ∀ t : ChainStores C, t.gateways = processed.gateways →
        untilFailure (orStay (popOperation env tx txId height)) (o.map .gwAddress).toList t =
          (true, { t with gateways := s.gateways }) := by
  rw [untilFailure_optional] at ok
  simp only [untilFailure_optional]
  cases o with
  | none =>
      cases ok
      refine ⟨rfl, rfl, fun t same => ?_⟩
      rw [← same]
      rfl
  | some op =>
      rw [Option.elim_some, orStay_eq_true] at ok
      obtain ⟨gateways, isPut, rfl⟩ := Option.map_eq_some_iff.mp ok
      refine ⟨rfl, (GatewayStores.putGwAddressOperation_balance isPut).1,
        fun t same => orStay_eq_true.mpr ?_⟩
      rw [popOperation, same, GatewayStores.popGwAddressOperation_put isPut, Option.map_some]

/-- The gateways come back, the other stores need not be as they were. -/
theorem unprocess_process (ok : s.processBlockchainTxExtra env tx txId height = (true, processed)) :
    processed =
        { s with
          aliases := processed.aliases
          assets := processed.assets
          gateways := processed.gateways } ∧
      processed.gateways.balance = s.gateways.balance ∧
      ∀ t : ChainStores C, t.aliases = processed.aliases → t.assets = processed.assets →
        t.gateways = processed.gateways →
          ∃ aliases assets, t.unprocessBlockchainTxExtra env tx txId height =
          (true, { t with aliases := aliases, assets := assets, gateways := s.gateways }) := by
  rw [processBlockchainTxExtra] at ok
  cases extra : tx.extra with
  | none =>
      rw [extra] at ok
      cases ok
  | some ei =>
      rw [extra] at ok
      obtain ⟨s₂, upTo, gatewayPut⟩ := untilFailure_append_eq_true.mp ok
      obtain ⟨s₁, aliasPut, assetPut⟩ := untilFailure_append_eq_true.mp upTo
      obtain ⟨atAlias, popAlias⟩ := alias_stage aliasPut
      obtain ⟨atAsset, popAsset⟩ := asset_stage assetPut
      obtain ⟨atGateway, balance, popGateway⟩ := gateway_stage gatewayPut
      rw [atAsset, atAlias] at atGateway balance popGateway
      refine ⟨by rw [atGateway], balance, fun t sameAliases sameAssets sameGateways => ?_⟩
      rw [atGateway] at sameAliases sameAssets
      rw [atAsset] at sameAliases
      obtain ⟨aliases, poppedAlias⟩ := popAlias t sameAliases
      obtain ⟨assets, poppedAsset⟩ := popAsset { t with aliases := aliases } sameAssets
      have poppedGateway := popGateway { t with aliases := aliases, assets := assets } sameGateways
      refine ⟨aliases, assets, ?_⟩
      rw [unprocessBlockchainTxExtra, extra]
      exact untilFailure_append_eq_true.mpr
        ⟨_, untilFailure_append_eq_true.mpr ⟨_, poppedAlias, poppedAsset⟩, poppedGateway⟩

/-- Whether it succeeds or not, it gives no address more than it had. -/
theorem balance_unprocess_le (account : C.PublicKey × C.PublicKey) :
    (((t.unprocessBlockchainTxExtra env tx txId height).2).gateways.balance account).toNat ≤
      (t.gateways.balance account).toNat := by
  rw [unprocessBlockchainTxExtra]
  cases tx.extra with
  | none => exact le_rfl
  | some ei =>
      refine @untilFailure_keeps _ _ _ _ _ (fun u : ChainStores C =>
        (u.gateways.balance account).toNat ≤
        (t.gateways.balance account).toNat) (fun u op _ below => ?_) le_rfl
      cases popped : popOperation env tx txId height u op with
      | none =>
          rw [orStay_eq_false.mpr ⟨popped, rfl⟩]
          exact below
      | some next =>
          rw [orStay_eq_true.mpr popped]
          cases op with
          | aliasInfo ai =>
              obtain ⟨aliases, -, rfl⟩ := Option.map_eq_some_iff.mp popped
              exact below
          | assetInfo ado =>
              obtain ⟨assets, -, rfl⟩ := Option.map_eq_some_iff.mp popped
              exact below
          | gwAddress op =>
              obtain ⟨gateways, isPopped, rfl⟩ := Option.map_eq_some_iff.mp popped
              exact (GatewayStores.balance_popGwAddressOperation_le isPopped account).trans below

/-! ## Inputs and outputs -/

variable {vin : List (TxinV C)} {vout : List (TxOutV C)} {indexes : List Nat}

theorem addInputs_eq_true (ok : s.addInputs env blHeight vin = (true, t)) :
    ∃ stores gateways, untilFailure (visitInput blHeight) (lefts TxinV.side vin) s.stores =
      (true, stores) ∧
      GatewayStores.processGateways env.gatewayRules false (rights TxinV.side vin) s.gateways =
        (true, gateways) ∧
      t = s.withFunds (stores, gateways) := by
  rw [addInputs] at ok
  obtain ⟨good, rfl⟩ := Prod.mk.inj ok
  obtain ⟨plain, gateway⟩ := sideBySide_eq_true (Prod.ext good rfl :
    untilFailure (addInput env blHeight) vin (s.stores, s.gateways) = (true, (_, _)))
  exact ⟨_, _, plain, gateway, rfl⟩

theorem pushOuts_eq_true (ok : s.pushOuts env txId vout = (true, t, indexes)) :
    ∃ stores gateways,
      untilFailure (orStay (pushPlain txId)) (lefts TxOutV.side vout.zipIdx) s.stores =
        (true, stores) ∧
      GatewayStores.processGateways env.gatewayRules true (rights TxOutV.side vout.zipIdx)
        s.gateways =
        (true, gateways) ∧
      t = s.withFunds (stores, gateways) := by
  have commutes (funds : Funds C × List Nat) (out : TxOutV C × Nat) :
      sideBySide (orStay (pushPlain txId))
        (orStay (GatewayStores.processGatewayOuput env.gatewayRules)) TxOutV.side
        funds.1 out = ((pushOut env txId funds out).1, (pushOut env txId funds out).2.1) := by
    obtain ⟨out, i⟩ := out
    cases out with
    | plain out =>
        simp only [sideBySide, TxOutV.side, orStay, pushPlain, pushOut]
        cases funds.1.1.pushOut txId i out <;> rfl
    | gateway outGw =>
        simp only [sideBySide, TxOutV.side, orStay, pushOut]
        cases funds.1.2.processGatewayOuput env.gatewayRules outGw <;> rfl
  have part := untilFailure_map commutes vout.zipIdx (s.funds, [])
  rw [pushOuts] at ok
  obtain ⟨good, rest⟩ := Prod.mk.inj ok
  obtain ⟨rfl, -⟩ := Prod.mk.inj rest
  rw [good] at part
  obtain ⟨plain, gateway⟩ := sideBySide_eq_true part
  exact ⟨_, _, plain, gateway, rfl⟩

theorem purgeTransactionKeyimages_eq (env : Environment C)
    {stores : Blockchain.Stores C.Hash C.KeyImage} {gateways : GatewayStores C.Hash C.PublicKey}
    {fits : Bool}
    (plain : untilFailure (visitPurge true) (lefts TxinV.side vin) s.stores = (true, stores))
    (gateway :
      GatewayStores.processGateways env.gatewayRules true (rights TxinV.side vin) s.gateways =
      (fits, gateways)) :
    ∃ firsts, firsts <+: lefts TxinV.side vin ∧ s.purgeTransactionKeyimages env true vin =
      (fits, s.withFunds ((untilFailure (visitPurge true) firsts s.stores).2, gateways)) := by
  obtain ⟨firsts, isPrefix, -, through⟩ := sideBySide_right (b := s.gateways)
    (g := orStay (GatewayStores.unprocessGatewayInput env.gatewayRules)) plain
  have gateway' : untilFailure (orStay (GatewayStores.unprocessGatewayInput env.gatewayRules))
      (rights TxinV.side vin)
      s.gateways = (fits, gateways) := gateway
  rw [gateway'] at through
  refine ⟨firsts, isPrefix, ?_⟩
  have through' : untilFailure (purgeInput env true) vin s.funds =
      (fits, ((untilFailure (visitPurge true) firsts s.stores).2, gateways)) := through
  rw [purgeTransactionKeyimages, if_pos rfl, through']

theorem popOuts_eq {stores : Blockchain.Stores C.Hash C.KeyImage}
    {gateways : GatewayStores C.Hash C.PublicKey}
    (plain : untilFailure (popPlain txId) (lefts TxOutV.side vout.zipIdx).reverse s.stores =
      (true, stores))
    (gateway : GatewayStores.processGateways env.gatewayRules false
      (rights TxOutV.side vout.zipIdx).reverse s.gateways =
      (true, gateways)) :
    s.popOuts env txId vout = (true, s.withFunds (stores, gateways)) := by
  rw [lefts, ← List.filterMap_reverse] at plain
  rw [rights, ← List.filterMap_reverse] at gateway
  obtain ⟨firsts, -, all, through⟩ := sideBySide_right (b := s.gateways)
    (g := orStay (GatewayStores.unprocessGatewayOutput env.gatewayRules)) plain
  have gateway' : untilFailure (orStay (GatewayStores.unprocessGatewayOutput env.gatewayRules))
      (rights TxOutV.side vout.zipIdx.reverse) s.gateways = (true, gateways) := gateway
  rw [gateway'] at through all
  obtain rfl := all rfl
  have through' : untilFailure (popOut env txId) vout.zipIdx.reverse s.funds =
      (true, ((untilFailure (popPlain txId) (lefts TxOutV.side vout.zipIdx.reverse) s.stores).2,
        gateways)) := through
  have plain' : untilFailure (popPlain txId) (lefts TxOutV.side vout.zipIdx.reverse) s.stores =
      (true, stores) := plain
  rw [plain'] at through'
  rw [popOuts, through']

/-! ## Adding and purging -/

/-- An accepted transaction, step by step. -/
structure Added (env : Environment C) (s processed final : ChainStores C) (blHeight : Nat)
    (txId : C.Hash)
    (tx : Transaction C) : Prop where
  extra : s.processBlockchainTxExtra env tx txId blHeight = (true, processed)
  funds : ∃ spent pushed paid funded entry,
    untilFailure (visitInput blHeight) (lefts TxinV.side tx.vin) processed.stores = (true, spent) ∧
    spent.transactions txId = none ∧
    untilFailure (orStay (pushPlain txId)) (lefts TxOutV.side tx.vout.zipIdx) spent =
      (true, pushed) ∧
    GatewayStores.processGateways env.gatewayRules false (rights TxinV.side tx.vin)
      (processed.gateways.processTxGatewayHistory txId tx.involved) = (true, paid) ∧
    GatewayStores.processGateways env.gatewayRules true (rights TxOutV.side tx.vout.zipIdx) paid =
      (true, funded) ∧
    entry.keeperBlockHeight = blHeight ∧
    final = { processed with
      stores := pushed.setTransaction txId (some entry)
      onChain := Function.update processed.onChain txId (some tx)
      gateways := funded }

theorem added_of_ok (ok : s.addTransactionFromBlock env blHeight txId tx = (true, final)) :
    ∃ processed, Added env s processed final blHeight txId tx := by
  rw [addTransactionFromBlock] at ok
  split at ok
  · cases ok
  · split at ok
    · cases ok
    · rename_i processed isProcessed
      refine ⟨processed, isProcessed, ?_⟩
      split at ok
      · cases ok
      · rename_i t spending
        obtain ⟨spent, paid, plainIns, gatewayIns, rfl⟩ := addInputs_eq_true spending
        split at ok
        · cases ok
        · rename_i isNew
          split at ok
          · cases ok
          · rename_i u indexes pushing
            obtain ⟨pushed, funded, plainOuts, gatewayOuts, rfl⟩ := pushOuts_eq_true pushing
            cases ok
            exact ⟨spent, pushed, paid, funded, _, plainIns, isNew, plainOuts, gatewayIns,
              gatewayOuts, rfl, rfl⟩

/-- What the outputs of the transaction pay into an account. -/
def paidTo (env : Environment C) (tx : Transaction C) (account : C.PublicKey × C.PublicKey) : Nat :=
  GatewayStores.totalOf env.gatewayRules (rights TxOutV.side tx.vout.zipIdx) account

/-- The balance of every account and all that the outputs pay into it fit together. -/
def Roomy (env : Environment C) (s : ChainStores C) (tx : Transaction C) : Prop :=
  ∀ account, (s.gateways.balance account).toNat + paidTo env tx account < 2 ^ 64

/-- How far the purge brings the gateways back. -/
structure WayOut (env : Environment C) (s final : ChainStores C) (txId : C.Hash)
    (tx : Transaction C) (fits : Bool) :
    Prop where
  fits_iff : fits = true ↔ Roomy env s tx
  inputs : (final.purgeTransactionKeyimages env true tx.vin).1 = fits
  outputs : ((final.purgeTransactionKeyimages env true tx.vin).2.popOuts env txId tx.vout).1 = true
  restored : fits = true → (final.purgeTransactionFromBlockchain env txId).2.gateways = s.gateways
  lost : fits = false → ∃ account,
    ((final.purgeTransactionFromBlockchain env txId).2.gateways.balance account).toNat <
    (s.gateways.balance account).toNat

theorem Added.wayOut (added : Added env s processed final blHeight txId tx) : ∃ fits,
    WayOut env s final txId tx fits := by
  obtain ⟨extra, spent, pushed, paid, funded, entry, plainIns, isNew, plainOuts, gatewayIns,
      gatewayOuts, rfl, isFinal⟩ :=
    added
  obtain ⟨-, sameBalance, unprocess⟩ := unprocess_process extra
  obtain ⟨fits, readded, removed, back⟩ := GatewayStores.wayBack gatewayIns gatewayOuts
  let g := processed.gateways.processTxGatewayHistory txId tx.involved
  have balance : g.balance = s.gateways.balance := sameBalance
  have stores : final.stores = pushed.setTransaction txId (some entry) := by rw [isFinal]
  have gateways : final.gateways = funded := by rw [isFinal]
  obtain ⟨_, -, allPurged, -, -⟩ := popped_of_purged plainIns isNew plainOuts entry List.prefix_rfl
  rw [← stores] at allPurged
  rw [← gateways] at back
  obtain ⟨firsts, isPrefix, keyimages⟩ := purgeTransactionKeyimages_eq env allPurged back.inputs
  obtain ⟨purged, popped, purges, pops, isThere⟩ :=
    popped_of_purged plainIns isNew plainOuts entry isPrefix
  let unspent := final.withFunds (purged, g.withBalances readded)
  replace keyimages : final.purgeTransactionKeyimages env true tx.vin = (fits, unspent) := by
    rw [keyimages, stores, purges]
  let index := final.withFunds (popped, g.withBalances removed)
  have outputs : unspent.popOuts env txId tx.vout = (true, index) := popOuts_eq pops back.outputs
  have purge : (final.purgeTransactionFromBlockchain env txId).2.gateways =
      ((index.unprocessTxGatewayHistory txId tx).unprocessBlockchainTxExtra env tx txId
        entry.keeperBlockHeight).2.gateways := by
    have onChain : final.onChain txId = some tx := by
      rw [isFinal]
      exact Function.update_self ..
    have isEntry : final.stores.transactions txId = some entry := by
      rw [stores]
      exact Function.update_self ..
    simp only [purgeTransactionFromBlockchain, onChain, isEntry, keyimages, outputs]
    cases unprocessed :
      (index.unprocessTxGatewayHistory txId tx).unprocessBlockchainTxExtra env tx txId
        entry.keeperBlockHeight with
    | mk ok last => cases ok <;> rfl
  refine ⟨fits, ?_, by rw [keyimages], by rw [keyimages, outputs], fun isFit => ?_,
    fun stopped => ?_⟩
  · rw [back.fits_iff, balance]
    rfl
  · have whole : g.withBalances removed = g := by
      rw [back.restored isFit, GatewayStores.withBalances_balance]
    have asProcessed : (index.unprocessTxGatewayHistory txId tx).gateways = processed.gateways := by
      change (g.withBalances removed).unprocessTxGatewayHistory txId tx.involved = _
      rw [whole]
      ext1
      · rfl
      · exact GatewayStores.unprocessTxGatewayHistory_process rfl
    have sameAliases : (index.unprocessTxGatewayHistory txId tx).aliases = processed.aliases := by
      change final.aliases = _
      rw [isFinal]
    have sameAssets : (index.unprocessTxGatewayHistory txId tx).assets = processed.assets := by
      change final.assets = _
      rw [isFinal]
    obtain ⟨aliases, assets, unprocessed⟩ := unprocess _ sameAliases sameAssets asProcessed
    rw [purge, unprocessed]
  · obtain ⟨account, less⟩ := back.lost stopped
    have atIndex :
        (index.unprocessTxGatewayHistory txId tx).gateways.balance account = removed account :=
      congrFun (GatewayStores.balance_withBalances back.supports) account
    refine ⟨account, ?_⟩
    rw [purge]
    refine (balance_unprocess_le account).trans_lt ?_
    rw [atIndex, ← balance]
    exact less

/-- Purging the transaction gives the gateways back as they were, and no change on
the way is refused. -/
structure GatewaysUndone (env : Environment C) (s final : ChainStores C) (txId : C.Hash)
    (tx : Transaction C) : Prop where
  inputs : (final.purgeTransactionKeyimages env true tx.vin).1 = true
  outputs : ((final.purgeTransactionKeyimages env true tx.vin).2.popOuts env txId tx.vout).1 = true
  gateways : (final.purgeTransactionFromBlockchain env txId).2.gateways = s.gateways

theorem gateways_undone_iff
    (added : s.addTransactionFromBlock env blHeight txId tx = (true, final)) :
    GatewaysUndone env s final txId tx ↔ Roomy env s tx := by
  obtain ⟨processed, steps⟩ := added_of_ok added
  obtain ⟨fits, out⟩ := steps.wayOut
  rw [← out.fits_iff]
  constructor
  · intro undone
    rw [← out.inputs, undone.inputs]
  · intro isFit
    exact ⟨out.inputs.trans isFit, out.outputs, out.restored isFit⟩

/-- Without the room the balances are not given back. -/
theorem balance_lost (added : s.addTransactionFromBlock env blHeight txId tx = (true, final))
    (crowded : ¬Roomy env s tx) :
    ∃ account, ((final.purgeTransactionFromBlockchain env txId).2.gateways.balance account).toNat <
      (s.gateways.balance account).toNat := by
  obtain ⟨processed, steps⟩ := added_of_ok added
  obtain ⟨fits, out⟩ := steps.wayOut
  rw [← out.fits_iff, Bool.not_eq_true] at crowded
  exact out.lost crowded

/-! ## An address that pays itself -/

namespace SelfPayment

def naturals : Carriers where
  Hash := Nat
  KeyImage := Nat
  Address := Nat
  SecretKey := Nat
  Signature := Nat
  PublicKey := Nat
  EthPublicKey := Nat

def environment : Environment naturals where
  isTxExpired := fun _ _ => false
  validateTxForHardforkSpecificTerms := fun _ _ _ => true
  prevalidateAliasInfo := fun _ _ _ => true
  checkAliasSignature := fun _ _ _ => true
  assetRules := ⟨fun _ => true, fun _ => true, (0 : Nat), fun _ _ => (7 : Nat), fun _ _ _ => true,
    fun _ _ _ => true, fun _ _ _ _ _ => true⟩
  gatewayRules := ⟨fun id : Nat => some id, fun _ => true, fun _ _ _ _ => true⟩

def transaction (vin : List (TxinV naturals)) (vout : List (TxOutV naturals)) (fee : UInt64)
    (op : Option (GatewayOperation Nat)) : Transaction naturals :=
  ⟨vin, vout, fee, some ⟨none, none, op⟩, ⟨none, none, []⟩, none⟩

def hiddenInput (kImage : Nat) : TxinV naturals :=
  .plain (.zcInput [.globalIndex 0, .globalIndex 1] kImage)

def half : GatewayAmount Nat := ⟨1, 7, 0x8000000000000000⟩

/-- The address is registered and is paid half of what a balance can hold; then it
pays this to itself. -/
def registration : Transaction naturals :=
  transaction [hiddenInput 11] [.plain .zarcanum] 100000000000000
    (some (.register (1 : Nat) ⟨⟨.publicKey, (5 : Nat)⟩, ""⟩))

def funding : Transaction naturals :=
  transaction [hiddenInput 12] [.gateway half, .plain .zarcanum] 10000000000 none

def selfPayment : Transaction naturals :=
  transaction [.gateway half, hiddenInput 13] [.gateway half, .plain .zarcanum] 10000000000 none

def registered : Bool × ChainStores naturals :=
  ChainStores.empty.addTransactionFromBlock environment 1 (101 : Nat) registration

def funded : Bool × ChainStores naturals :=
  registered.2.addTransactionFromBlock environment 2 (102 : Nat) funding

def paid : Bool × ChainStores naturals :=
  funded.2.addTransactionFromBlock environment 3 (103 : Nat) selfPayment

theorem purged_self_payment : registered.1 = true ∧ funded.1 = true ∧ paid.1 = true ∧
    funded.2.gateways.balance ((1, 7) : Nat × Nat) = 0x8000000000000000 ∧
    (paid.2.purgeTransactionFromBlockchain environment (103 : Nat)).1 = true ∧
    (paid.2.purgeTransactionFromBlockchain environment (103 : Nat)).2.gateways.balance
      ((1, 7) : Nat × Nat) = 0 := by
  decide +kernel

theorem self_payment_not_undone :
    ¬GatewaysUndone environment funded.2 paid.2 (103 : Nat) selfPayment := by
  have accepted : paid.1 = true := by decide +kernel
  have crowded : ¬(funded.2.gateways.balance ((1, 7) : Nat × Nat)).toNat +
      paidTo environment selfPayment ((1, 7) : Nat × Nat) < 2 ^ 64 := by decide +kernel
  have undone_iff := gateways_undone_iff (Prod.ext accepted rfl :
    funded.2.addTransactionFromBlock environment 3 (103 : Nat) selfPayment = (true, paid.2))
  exact fun undone => crowded (undone_iff.mp undone ((1, 7) : Nat × Nat))

end SelfPayment

end ChainStores

end Zano.Ledger
