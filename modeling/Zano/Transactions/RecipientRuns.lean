import Mathlib
import Zano.Transactions.Recipients

/-! # Transactions that are built in several calls

In separate signature mode a call appends to a transaction that an earlier one built, and the hints
that are there already count against the ones that the new outputs are due. Before hardfork 4 all
new hints are left out when there are more old ones than outputs, as there are after an output for
several addresses.
-/

namespace Zano.Transactions.Outputs

variable {F P : Type*} [CommRing F] [AddCommGroup P] [Module F P] [DecidableEq P]
  {prim : Primitives F P}

/-- The transaction with its secret key, and the destinations of its outputs. -/
structure Built (F P : Type*) where
  tx : Transaction P
  oneTimeKey : F
  destinations : List (TxDestinationEntry P)

def Built.fresh : Built F P := ⟨.empty, 0, []⟩

def destinationsBefore (s : Built F P) (p : FinalizeTxParam F P) : List (TxDestinationEntry P) :=
  if p.appends s.tx then s.destinations else []

def step [DecidableEq F] (prim : Primitives F P) (s : Built F P)
    (p : FinalizeTxParam F P) : Option (Built F P) :=
  (constructTx prim p s.tx s.oneTimeKey).bind fun (tx, key) =>
    ((prepareTx prim p s.tx s.oneTimeKey).bind fun (prepared, _) => shuffledDsts prim p
      prepared).map fun dsts =>
      ⟨tx, key, destinationsBefore s p ++ dsts⟩

/-! ## What is promised -/

/-- A destination that was asked for, perhaps with the id of the asset that the
transaction emits. -/
structure SameDestination (asked de : TxDestinationEntry P) : Prop where
  amount : de.amount = asked.amount
  addr : de.addr = asked.addr
  paymentId : de.paymentId = asked.paymentId
  assetId : asked.assetId ≠ none → de.assetId = asked.assetId

/-- Each destination has an output of its own behind the outputs that were there before. -/
def Serves (s : Built F P) (p : FinalizeTxParam F P) (next : Built F P) : Prop :=
  ∃ dsts, next.destinations = destinationsBefore s p ++ dsts ∧
    ∃ unshuffled, dsts.Perm unshuffled ∧
      List.Forall₂ SameDestination p.preparedDestinations unshuffled

def RecipientsFind (prim : Primitives F P) (genesis : Genesis P) (s : Built F P) : Prop :=
  ∀ acc : AccountKeys F P, acc.Honest prim →
    ∃ infos, lookupAccOuts prim genesis acc s.tx = some infos ∧
    FindsOwn prim s.oneTimeKey acc.accountAddress 0 s.destinations infos

/-- The address is one of an account. -/
def Recipient (prim : Primitives F P) (apa : AccountPublicAddress P) : Prop :=
  ∃ acc : AccountKeys F P, acc.Honest prim ∧ SameKeys apa acc.accountAddress

/-- The caller gives no key of a transaction and readable destinations, and a call before hardfork 4
that finds more hints than there will be outputs finds all hints that it is due. -/
structure Fine [DecidableEq F] (prim : Primitives F P) (s : Built F P)
    (p : FinalizeTxParam F P) : Prop where
  noKey : p.appends s.tx = false → p.extra.findSome? publicKey? = none
  readable : ∀ tx key dsts, prepareTx prim p s.tx s.oneTimeKey = some (tx, key) →
    shuffledDsts prim p tx = some dsts →
    ∀ i de, dsts[i]? = some de → ∀ apa, AddressV.account apa ∈ de.addr → Recipient prim apa →
      Readable prim tx.version key (tx.vout.length + i) de apa
  hints : ∀ tx key dsts existing, prepareTx prim p s.tx s.oneTimeKey = some (tx, key) →
    shuffledDsts prim p tx = some dsts →
    copyAllDerivationHintsFromTxToContainer tx.extra = some existing →
      tx.version < transactionVersionPostHf4 →
      p.separate = true → tx.vout.length + dsts.length < existing.length →
        ∀ de ∈ dsts, ∀ apa, AddressV.account apa ∈ de.addr → Recipient prim apa →
          prim.getDerivationHint (prim.generateKeyDerivation key apa.viewPublicKey) ∈ existing

/-! ## Sets of hints -/

theorem mem_insertHint {hints : List UInt16} {hint other : UInt16} :
    other ∈ insertHint hints hint ↔ other = hint ∨ other ∈ hints := by
  rw [insertHint]
  split
  next inside =>
    constructor
    · exact .inr
    · rintro (rfl | isOther)
      · exact inside
      · exact isOther
  · rw [List.mem_orderedInsert]

theorem mem_foldl_insertHint {hints new : List UInt16} {hint : UInt16} :
    hint ∈ new.foldl insertHint hints ↔ hint ∈ new ∨ hint ∈ hints := by
  induction new generalizing hints with
  | nil => simp
  | cons first new inductionHypothesis =>
      rw [List.foldl_cons, inductionHypothesis, mem_insertHint, List.mem_cons]
      tauto

theorem makeTxDerivationHint_of_get {msg : List UInt8} {hint : UInt16}
    (isHint : getUint16FromTxDerivationHint msg = some hint) :
    makeTxDerivationHintFromUint16 hint = msg := by
  match msg with
  | [low, high] =>
      cases isHint
      have lowSize := low.toNat_lt
      have highSize := high.toNat_lt
      have whole :
          (UInt16.ofNat (low.toNat + 256 * high.toNat)).toNat = low.toNat + 256 * high.toNat := by
        rw [UInt16.toNat_ofNat']
        exact Nat.mod_eq_of_lt (by omega)
      have lowPart : (low.toNat + 256 * high.toNat) % 256 = low.toNat := by omega
      have highPart : (low.toNat + 256 * high.toNat) / 256 = high.toNat := by omega
      rw [makeTxDerivationHintFromUint16, whole, lowPart, highPart, UInt8.ofNat_toNat,
        UInt8.ofNat_toNat]

theorem mem_hintMsgs_of_copy {msgs : List (List UInt8)} {before existing : List UInt16}
    (copied : msgs.foldlM (fun hints msg =>
      (getUint16FromTxDerivationHint msg).bind fun hint => if hint ∈ hints then none
        else some (insertHint hints hint))
      before = some existing) {hint : UInt16} (inside : hint ∈ existing) :
    hint ∈ before ∨ makeTxDerivationHintFromUint16 hint ∈ msgs := by
  induction msgs generalizing before with
  | nil =>
      cases copied
      exact .inl inside
  | cons msg msgs inductionHypothesis =>
      rw [List.foldlM_cons] at copied
      obtain ⟨next, isNext, rest⟩ := Option.bind_eq_some_iff.mp copied
      obtain ⟨own, isOwn, added⟩ := Option.bind_eq_some_iff.mp isNext
      split at added
      · cases added
      cases added
      rcases inductionHypothesis rest with before | later
      · rcases mem_insertHint.mp before with rfl | earlier
        · exact .inr (makeTxDerivationHint_of_get isOwn ▸ List.mem_cons_self)
        · exact .inl earlier
      · exact .inr (List.mem_cons_of_mem msg later)

theorem mem_drawHints {rand : ℕ → UInt16} {existing : List UInt16} {hintsToBeAdded turns : ℕ}
    {hints drawn : List UInt16}
    (isDrawn : drawHints rand existing hintsToBeAdded turns hints = some drawn) {hint : UInt16}
    (inside : hint ∈ hints) :
    hint ∈ drawn := by
  induction turns generalizing hints with
  | zero =>
      rw [drawHints] at isDrawn
      split at isDrawn
      · cases isDrawn
      · cases isDrawn
        exact inside
  | succ turns inductionHypothesis =>
      rw [drawHints] at isDrawn
      split at isDrawn
      · refine inductionHypothesis isDrawn ?_
        split
        · exact inside
        · exact mem_insertHint.mpr (.inr inside)
      · cases isDrawn
        exact inside

/-- The new hints are put to the transaction, or they are skipped. -/
theorem mem_addRandomDerivationHints {version voutSize : ℕ} {separate : Bool} {rand : ℕ → UInt16}
    {existing newHints hints : List UInt16}
    (added : addRandomDerivationHints version separate voutSize rand existing newHints =
      some hints) :
    (version < transactionVersionPostHf4 ∧ separate = true ∧ voutSize < existing.length) ∨
      ∀ hint ∈ newHints,
    hint ∈ hints := by
  rw [addRandomDerivationHints] at added
  split at added
  next more =>
    split at added
    next skipped => exact .inl ⟨skipped.1, skipped.2, more⟩
    · cases added
  · exact .inr fun hint inside => mem_drawHints added inside

/-! ## Hints of the outputs -/

theorem constructTxOut_hints {version : ℕ} {txKeySec : F} {txOutsAttr : UInt8}
    {de : TxDestinationEntry P} {outputIndex : ℕ} {derivCache derivCache' : List UInt16}
    {out : TxOutV P}
    (made : constructTxOut prim version txKeySec txOutsAttr de outputIndex derivCache =
      some (out, derivCache')) :
    (∀ hint ∈ derivCache, hint ∈ derivCache') ∧ ∀ apa, AddressV.account apa ∈ de.addr →
      apa.burns = false →
      prim.getDerivationHint
        (prim.generateKeyDerivation txKeySec apa.viewPublicKey) ∈ derivCache' := by
  rw [constructTxOut] at made
  split at made
  · split at made
    next apa isAddr =>
      rw [isAddr]
      rw [constructTxOutZarcanum] at made
      split at made
      · cases made
      split at made
      next burns =>
        cases made
        refine ⟨fun _ => id, fun other isOther otherBurns => ?_⟩
        rw [List.mem_singleton, AddressV.account.injEq] at isOther
        rw [isOther, burns] at otherBurns
        cases otherBurns
      · cases made
        refine ⟨fun hint inside => mem_insertHint.mpr (.inr inside), fun other isOther _ => ?_⟩
        rw [List.mem_singleton, AddressV.account.injEq] at isOther
        rw [isOther]
        exact mem_insertHint.mpr (.inl rfl)
    next gwa isAddr =>
      split at made
      · cases made
        refine ⟨fun _ => id, fun other isOther => ?_⟩
        rw [isAddr, List.mem_singleton] at isOther
        cases isOther
      · cases made
    · cases made
  · rw [constructTxOutBare] at made
    split at made
    · cases made
    split at made
    · cases made
    obtain ⟨addresses, all, isOut⟩ := Option.map_eq_some_iff.mp made
    cases isOut
    refine ⟨fun hint inside => mem_foldl_insertHint.mpr (.inr inside),
      fun apa isAddress burns => ?_⟩
    refine mem_foldl_insertHint.mpr
      (.inl (List.mem_filterMap.mpr ⟨apa, (mem_of_mapM_account all apa).mpr isAddress, ?_⟩))
    rw [addressHint, burns, if_neg Bool.false_ne_true]

theorem constructTxOuts_spec {version : ℕ} {txKeySec : F} {txOutsAttr : UInt8} {first : ℕ}
    {dsts : List (TxDestinationEntry P)} {derivCache derivCache' : List UInt16}
    {outs : List (TxOutV P)}
    (made : constructTxOuts prim version txKeySec txOutsAttr first dsts derivCache =
      some (outs, derivCache')) :
    OutsFor prim version txKeySec first dsts outs ∧ (∀ hint ∈ derivCache, hint ∈ derivCache') ∧
      ∀ de ∈ dsts, ∀ apa, AddressV.account apa ∈ de.addr → apa.burns = false →
        prim.getDerivationHint
          (prim.generateKeyDerivation txKeySec apa.viewPublicKey) ∈ derivCache' := by
  induction dsts generalizing first derivCache outs with
  | nil =>
      cases made
      exact ⟨⟨rfl, nofun⟩, fun _ => id, nofun⟩
  | cons de dsts inductionHypothesis =>
      rw [constructTxOuts] at made
      obtain ⟨⟨out, cache⟩, isOut, rest⟩ := Option.bind_eq_some_iff.mp made
      obtain ⟨⟨later, cache'⟩, isLater, same⟩ := Option.map_eq_some_iff.mp rest
      cases same
      obtain ⟨outsFor, keeps, all⟩ := inductionHypothesis isLater
      obtain ⟨keepsFirst, allFirst⟩ := constructTxOut_hints isOut
      refine ⟨⟨congrArg (· + 1) outsFor.1, fun i other otherOut isDe isOther => ?_⟩,
        fun hint inside =>
          keeps hint (keepsFirst hint inside), fun other isDe apa isAddress burns => ?_⟩
      · cases i with
        | zero =>
            cases isDe
            cases isOther
            exact ⟨txOutsAttr, derivCache, cache, isOut⟩
        | succ i =>
            have made := outsFor.2 i other otherOut isDe isOther
            rwa [Nat.add_right_comm] at made
      · rcases List.mem_cons.mp isDe with rfl | isLaterDe
        · exact keeps _ (allFirst apa isAddress burns)
        · exact all other isLaterDe apa isAddress burns

/-! ## What a built transaction has -/

structure Complete (prim : Primitives F P) (s : Built F P) : Prop where
  keyed : s.tx.extra.findSome? publicKey? = some (some (s.oneTimeKey • prim.G))
  noGen : ∀ input ∈ s.tx.vin, ∀ height, input ≠ .gen height
  outs : OutsFor prim s.tx.version s.oneTimeKey 0 s.destinations s.tx.vout
  readable : ∀ i de, s.destinations[i]? = some de → ∀ apa, AddressV.account apa ∈ de.addr →
    Recipient prim apa →
    Readable prim s.tx.version s.oneTimeKey i de apa
  hints : ∀ de ∈ s.destinations, ∀ apa, AddressV.account apa ∈ de.addr → Recipient prim apa →
    makeTxDerivationHintFromUint16
      (prim.getDerivationHint (prim.generateKeyDerivation s.oneTimeKey apa.viewPublicKey)) ∈
      s.tx.extra.filterMap hintMsg?

omit [DecidableEq P] in
theorem Recipient.burns {apa : AccountPublicAddress P}
    (recipient : Recipient prim apa) : apa.burns = false := by
  obtain ⟨acc, honest, same⟩ := recipient
  rw [same.burns, honest.not_burns]

theorem Complete.not_coinbase {s : Built F P} (complete : Complete prim s) :
    isCoinbase s.tx = false := by
  rw [isCoinbase]
  split
  next height isVin => exact absurd rfl (complete.noGen (.gen height) (by rw [isVin]; simp) height)
  next height other isVin =>
    exact absurd rfl (complete.noGen (.gen height) (by rw [isVin]; simp) height)
  · rfl

/-- The pre-check passes where there is something to find. -/
theorem Complete.checkTxDerivationHint {s : Built F P} (complete : Complete prim s)
    {acc : AccountKeys F P} (honest : acc.Honest prim) {de : TxDestinationEntry P}
    (isDe : de ∈ s.destinations) (addressed : AddressedTo acc.accountAddress de) :
    Outputs.checkTxDerivationHint prim s.tx
      (prim.generateKeyDerivation s.oneTimeKey acc.accountAddress.viewPublicKey) = true := by
  obtain ⟨apa, isAddress, same⟩ := addressed
  have isThere := complete.hints de isDe apa isAddress ⟨acc, honest, same⟩
  rw [same.2] at isThere
  rw [Outputs.checkTxDerivationHint, Bool.or_eq_true, decide_eq_true_eq]
  exact .inr (List.mem_filter.mpr ⟨isThere, rfl⟩)

theorem Complete.recipientsFind {s : Built F P} (complete : Complete prim s) (genesis : Genesis P) :
    RecipientsFind prim genesis s := by
  intro acc honest
  have isKey : getTxPubKeyFromExtra s.tx = some (s.oneTimeKey • prim.G) := by
    rw [getTxPubKeyFromExtra, complete.keyed, Option.getD_some]
  have notGenesis : ¬(isCoinbase s.tx = true ∧ getBlockHeight s.tx = 0 ∧
      some (s.oneTimeKey • prim.G) = genesis.txPubKey) := by
    rw [complete.not_coinbase]
    simp
  rw [lookupAccOuts, isKey]
  dsimp only
  rw [if_neg (Option.some_ne_none _), if_neg notGenesis, honest.derivation]
  split
  · refine lookupOuts_finds complete.outs honest.not_burns fun i de isDe apa isAddress same => ?_
    rw [Nat.zero_add]
    exact complete.readable i de isDe apa isAddress ⟨acc, honest, same⟩
  next passedOver =>
    refine ⟨[], rfl, .nil, fun i de isDe addressed => ?_, nofun⟩
    exact absurd (complete.checkTxDerivationHint honest (List.mem_of_getElem? isDe) addressed)
      passedOver

omit [AddCommGroup P] [DecidableEq P] in
theorem inputs_not_gen (sources : List (TxSourceEntry P)) :
    ∀ input ∈ sources.map TxSourceEntry.input, ∀ height, input ≠ TxinV.gen height := by
  intro input isInput height
  obtain ⟨se, -, rfl⟩ := List.mem_map.mp isInput
  rw [TxSourceEntry.input]
  split <;> exact nofun

variable [DecidableEq F]

/-- Before the new outputs are made, nothing is missing of the old ones. -/
theorem complete_prepareTx {s : Built F P} {p : FinalizeTxParam F P}
    (built : s.tx.vin = [] ∨ Complete prim s)
    (noKey : p.appends s.tx = false → p.extra.findSome? publicKey? = none)
    {tx : Transaction P} {key : F}
    (prepared : prepareTx prim p s.tx s.oneTimeKey = some (tx, key)) :
    Complete prim ⟨tx, key, destinationsBefore s p⟩ := by
  rw [prepareTx] at prepared
  cases appends : p.appends s.tx with
  | true =>
      have notEmpty : s.tx.vin ≠ [] := by
        intro empty
        rw [FinalizeTxParam.appends, empty] at appends
        simp at appends
      have complete := built.resolve_left notEmpty
      rw [appends, if_pos rfl] at prepared
      split at prepared
      · cases prepared
      cases prepared
      rw [destinationsBefore, appends, if_pos rfl]
      refine ⟨?_, ?_, complete.outs, complete.readable, fun de isDe apa isAddress recipient => ?_⟩
      · rw [List.findSome?_append, complete.keyed, Option.some_or]
      · intro input isInput
        rcases List.mem_append.mp isInput with before | new
        · exact complete.noGen input before
        · exact inputs_not_gen p.sources input new
      · rw [List.filterMap_append]
        exact List.mem_append_left _ (complete.hints de isDe apa isAddress recipient)
  | false =>
      rw [appends, if_neg Bool.false_ne_true] at prepared
      cases prepared
      rw [destinationsBefore, appends, if_neg Bool.false_ne_true]
      refine ⟨?_, inputs_not_gen p.sources, ⟨rfl, nofun⟩, nofun, nofun⟩
      rw [List.findSome?_append, noKey appends, Option.none_or]
      rfl

omit [DecidableEq F] in
theorem complete_addOuts {tx next : Transaction P} {key : F}
    {before dsts : List (TxDestinationEntry P)} {p : FinalizeTxParam F P}
    (complete : Complete prim ⟨tx, key, before⟩) (readable : ∀ i de, dsts[i]? = some de →
      ∀ apa, AddressV.account apa ∈ de.addr → Recipient prim apa →
      Readable prim tx.version key (tx.vout.length + i) de apa)
    (hints : ∀ existing, copyAllDerivationHintsFromTxToContainer tx.extra = some existing →
      tx.version < transactionVersionPostHf4 → p.separate = true →
        tx.vout.length + dsts.length < existing.length →
        ∀ de ∈ dsts, ∀ apa, AddressV.account apa ∈ de.addr → Recipient prim apa →
          prim.getDerivationHint (prim.generateKeyDerivation key apa.viewPublicKey) ∈ existing)
    (added : addOuts prim p key dsts tx = some next) :
    Complete prim ⟨next, key, before ++ dsts⟩ := by
  obtain ⟨existing, copied, rest⟩ := Option.bind_eq_some_iff.mp added
  obtain ⟨⟨outs, newHints⟩, made, last⟩ := Option.bind_eq_some_iff.mp rest
  obtain ⟨put, isPut, same⟩ := Option.map_eq_some_iff.mp last
  cases same
  obtain ⟨outsFor, -, allHints⟩ := constructTxOuts_spec made
  have sizes : tx.vout.length = before.length := complete.outs.1
  have split : ∀ {i de}, (before ++ dsts)[i]? = some de →
      before[i]? = some de ∨ ∃ j, i = tx.vout.length + j ∧ dsts[j]? = some de := by
    intro i de isDe
    rcases Nat.lt_or_ge i before.length with old | new
    · rw [List.getElem?_append_left old] at isDe
      exact .inl isDe
    · rw [List.getElem?_append_right new] at isDe
      exact .inr ⟨i - before.length, by omega, isDe⟩
  refine ⟨?_, complete.noGen, ⟨?_, ?_⟩, ?_, ?_⟩
  · exact (List.findSome?_append ..).trans (by rw [complete.keyed, Option.some_or])
  · show (tx.vout ++ outs).length = (before ++ dsts).length
    rw [List.length_append, List.length_append, sizes, outsFor.1]
  · intro i de out isDe isOut
    change (tx.vout ++ outs)[i]? = some out at isOut
    rcases split isDe with old | ⟨j, rfl, new⟩
    · have within : i < tx.vout.length := by
        rw [sizes]
        exact (List.getElem?_eq_some_iff.mp old).1
      rw [List.getElem?_append_left within] at isOut
      exact complete.outs.2 i de out old isOut
    · rw [List.getElem?_append_right (Nat.le_add_right _ _), Nat.add_sub_cancel_left] at isOut
      rw [Nat.zero_add]
      exact outsFor.2 j de out new isOut
  · intro i de isDe
    rcases split isDe with old | ⟨j, rfl, new⟩
    · exact complete.readable i de old
    · exact readable j de new
  · intro de isDe apa isAddress recipient
    show _ ∈ (tx.extra ++ _).filterMap hintMsg?
    rw [List.filterMap_append, List.mem_append]
    rcases List.mem_append.mp isDe with old | new
    · exact .inl (complete.hints de old apa isAddress recipient)
    · rcases mem_addRandomDerivationHints isPut with ⟨legacy, separate, more⟩ | all
      · rw [outsFor.1] at more
        have inside := hints existing copied legacy separate more de new apa isAddress recipient
        exact .inl ((mem_hintMsgs_of_copy copied inside).resolve_left (List.not_mem_nil))
      · have inside := all _ (allHints de new apa isAddress recipient.burns)
        refine .inr (List.mem_filterMap.mpr ⟨_, List.mem_map.mpr ⟨_, inside, rfl⟩, rfl⟩)

theorem complete_step {s next : Built F P} {p : FinalizeTxParam F P}
    (built : s.tx.vin = [] ∨ Complete prim s) (fine : Fine prim s p)
    (stepped : step prim s p = some next) : Complete prim next := by
  obtain ⟨⟨tx, key⟩, constructed, rest⟩ := Option.bind_eq_some_iff.mp stepped
  obtain ⟨dsts, isDsts, rfl⟩ := Option.map_eq_some_iff.mp rest
  obtain ⟨⟨prepared, key'⟩, isPrepared, shuffled⟩ := Option.bind_eq_some_iff.mp isDsts
  rw [constructTx] at constructed
  split at constructed
  · cases constructed
  rw [isPrepared, Option.bind_some] at constructed
  dsimp only at constructed shuffled
  rw [shuffled, Option.bind_some] at constructed
  obtain ⟨final, added, same⟩ := Option.map_eq_some_iff.mp constructed
  cases same
  refine complete_addOuts (complete_prepareTx built fine.noKey isPrepared) ?_ ?_ added
  · exact fine.readable prepared key dsts isPrepared shuffled
  · intro existing copied
    exact fine.hints prepared key dsts existing isPrepared shuffled copied

/-! ## The destinations that were asked for -/

omit [CommRing F] [AddCommGroup P] [Module F P] [DecidableEq F] in
theorem constructTxHandleAdo_same {p : FinalizeTxParam F P} {ado : AssetDescriptorOperation P}
    {dsts : List (TxDestinationEntry P)} {aoAssetId : PublicKey P}
    (handled : constructTxHandleAdo p ado = some (dsts, aoAssetId)) :
    List.Forall₂ SameDestination p.preparedDestinations dsts := by
  have unchanged : List.Forall₂ SameDestination p.preparedDestinations p.preparedDestinations :=
    List.forall₂_same.mpr fun de _ => ⟨rfl, rfl, rfl, fun _ => rfl⟩
  have emitted : ∀ {dsts aoAssetId}, (ado.assetId.map fun id =>
      (p.preparedDestinations.map fun de => if de.assetId = none then { de with assetId := some id }
        else de, some id)) =
        some (dsts, aoAssetId) → List.Forall₂ SameDestination p.preparedDestinations dsts := by
    intro dsts aoAssetId isEmitted
    obtain ⟨id, -, same⟩ := Option.map_eq_some_iff.mp isEmitted
    cases same
    rw [List.forall₂_map_right_iff, List.forall₂_same]
    intro de _
    split
    next emits => exact ⟨rfl, rfl, rfl, fun given => absurd emits given⟩
    · exact ⟨rfl, rfl, rfl, fun _ => rfl⟩
  rw [constructTxHandleAdo] at handled
  split at handled
  · exact emitted handled
  · exact emitted handled
  · obtain ⟨id, -, rest⟩ := Option.bind_eq_some_iff.mp handled
    obtain ⟨amount, -, same⟩ := Option.map_eq_some_iff.mp rest
    cases same
    exact unchanged
  · split at handled
    · cases handled
      exact unchanged
    · cases handled
  · cases handled
    exact unchanged

omit [DecidableEq F] in
theorem shuffledDsts_same {p : FinalizeTxParam F P} {tx : Transaction P}
    {dsts : List (TxDestinationEntry P)} (shuffled : shuffledDsts prim p tx = some dsts) :
    ∃ unshuffled, dsts.Perm unshuffled ∧
      List.Forall₂ SameDestination p.preparedDestinations unshuffled := by
  obtain ⟨⟨handled, aoAssetId⟩, isHandled, rfl⟩ := Option.map_eq_some_iff.mp shuffled
  refine ⟨_, (p.shuffle_perm handled).map _, ?_⟩
  have same : List.Forall₂ SameDestination p.preparedDestinations handled := by
    split at isHandled
    · exact constructTxHandleAdo_same isHandled
    · cases isHandled
      exact List.forall₂_same.mpr fun de _ => ⟨rfl, rfl, rfl, fun _ => rfl⟩
  rw [List.forall₂_map_right_iff]
  exact same.imp fun asked de isSame =>
    ⟨isSame.amount, isSame.addr, isSame.paymentId, isSame.assetId⟩

theorem step_serves {s next : Built F P} {p : FinalizeTxParam F P}
    (stepped : step prim s p = some next) :
    Serves s p next := by
  obtain ⟨⟨tx, key⟩, -, rest⟩ := Option.bind_eq_some_iff.mp stepped
  obtain ⟨dsts, isDsts, rfl⟩ := Option.map_eq_some_iff.mp rest
  obtain ⟨⟨prepared, key'⟩, -, shuffled⟩ := Option.bind_eq_some_iff.mp isDsts
  exact ⟨dsts, rfl, shuffledDsts_same shuffled⟩

/-- In every transaction that is built in calls that all meet the condition, each destination has an
output and each account finds its own. -/
theorem recipients_find_outputs (prim : Primitives F P) (genesis : Genesis P)
    (calls : List (FinalizeTxParam F P))
    (fine : Transition.Guarded (step prim) (Fine prim) .fresh calls) :
    Transition.Guarded (step prim)
      (fun s p => ∀ next, step prim s p = some next →
        Serves s p next ∧ RecipientsFind prim genesis next) .fresh calls := by
  refine @Transition.Guarded.imp_of_invariant _ _ _ _ _ (fun s => s.tx.vin = [] ∨
    Complete prim s) ?_ ?_ _ _
    (.inl rfl) fine
  · intro s p next built fineCall stepped
    exact .inr (complete_step built fineCall stepped)
  · intro s p built fineCall next stepped
    exact ⟨step_serves stepped, (complete_step built fineCall stepped).recipientsFind genesis⟩

/-! ### A small curve -/

/-- Eleven points, of which 1 is a generator. A shared secret is its own hint. -/
def smallCurve : Primitives (ZMod 11) (ZMod 11) where
  G := 1
  X := 2
  nullPoint := 0
  nativeCoinAssetIdPt := 3
  scalar1div8 := 7
  eight_mul := by decide
  derivationToScalar derivation index := derivation + index
  hsKeyAndIndex key index := key + index
  hs _ h := h
  mU64 _ _ := 1
  blake2Hash derivation := [UInt16.ofNat derivation.val]

def smallAccount (view spend : ZMod 11) : AccountKeys (ZMod 11) (ZMod 11) where
  accountAddress := ⟨some spend, some view, false⟩
  viewSecretKey := view

theorem smallAccount_honest (view spend : ZMod 11) : (smallAccount view spend).Honest smallCurve :=
  ⟨congrArg some (mul_one view).symm, spend, rfl⟩

def payTo (paymentId : UInt64) (accounts : List (AccountKeys (ZMod 11) (ZMod 11))) :
    TxDestinationEntry (ZMod 11) where
  amount := 5
  addr := accounts.map fun acc => .account acc.accountAddress
  minimumSigs := 1
  assetId := some 3
  explicitNativeAssetId := false
  zeroAmountBlindingMask := false
  paymentId := paymentId

/-- One input, and one output for this destination. -/
def smallCall (txVersion : ℕ) (separate : Bool) (de : TxDestinationEntry (ZMod 11)) :
    FinalizeTxParam (ZMod 11) (ZMod 11) where
  txVersion := txVersion
  sources := [⟨.toKey, 7, some 3⟩]
  preparedDestinations := [de]
  extra := []
  txOutsAttr := 0
  separate := separate
  generated := 1
  shuffle := id
  shuffle_perm := .refl
  rand _ := 0

def noGenesis : Genesis (ZMod 11) := ⟨none, fun _ => none⟩

/-- After hardfork 6, an account is paid with a payment id. -/
theorem recipients_find_outputs_payment :
    ∃ final, step smallCurve .fresh (smallCall 4 false (payTo 9 [smallAccount 4 1])) = some final ∧
      final.destinations.map (·.paymentId) = [9] ∧ RecipientsFind smallCurve noGenesis final := by
  let call := smallCall 4 false (payTo 9 [smallAccount 4 1])
  have fine : Fine smallCurve .fresh call := by
    refine ⟨fun _ => rfl, fun tx key dsts prepared shuffled i de isDe apa _ _ => ?_,
      fun tx key dsts existing prepared _ _ legacy => ?_⟩
    · cases prepared
      cases shuffled
      cases i with
      | zero =>
          cases isDe
          exact ⟨.inr ⟨by decide, show (9 : UInt64) ≠ 1 by decide⟩, fun _ => ⟨3, rfl, .inl rfl⟩⟩
      | succ i => cases isDe
    · cases prepared
      exact absurd legacy (by decide)
  have built : ((step smallCurve .fresh call).map fun s => s.destinations.map (·.paymentId)) =
      some [9] := by decide
  obtain ⟨final, stepped, isPayment⟩ := Option.map_eq_some_iff.mp built
  have found := recipients_find_outputs smallCurve noGenesis [call] ⟨fine, fun _ _ => trivial⟩
  exact ⟨final, stepped, isPayment, (found.1 final stepped).2⟩

def threeAccounts : List (AccountKeys (ZMod 11) (ZMod 11)) :=
  [smallAccount 1 1, smallAccount 2 1, smallAccount 3 1]

/-- An output for three accounts, and another one that is appended for a fourth. The hints of the
first three are more than there are outputs, so that the fourth account's is left out. -/
theorem appended_output_hidden :
    ¬∀ calls : List (FinalizeTxParam (ZMod 11) (ZMod 11)),
      Transition.Guarded (step smallCurve)
        (fun s p => ∀ next, step smallCurve s p = some next →
          Serves s p next ∧ RecipientsFind smallCurve noGenesis next)
        .fresh calls := by
  intro found
  let first := smallCall 1 true (payTo 0 threeAccounts)
  let second := smallCall 1 true (payTo 0 [smallAccount 4 1])
  have hidden : (Transition.run (step smallCurve) .fresh [first, second]).map
      (fun s => (lookupAccOuts smallCurve noGenesis (smallAccount 4 1) s.tx, s.destinations[1]?)) =
        some (some [], some (payTo 0 [smallAccount 4 1])) := by decide
  obtain ⟨final, ran, same⟩ := Option.map_eq_some_iff.mp hidden
  obtain ⟨nothing, isDestination⟩ := Prod.mk.inj same
  obtain ⟨middle, isFirst, rest⟩ := Transition.run_cons_eq_some.mp ran
  rw [Transition.run_singleton] at rest
  obtain ⟨-, finds⟩ := ((found [first, second]).2 middle isFirst).1 final rest
  obtain ⟨infos, isLookup, own⟩ := finds (smallAccount 4 1) (smallAccount_honest 4 1)
  rw [nothing] at isLookup
  cases isLookup
  obtain ⟨info, isInfo, -⟩ := own.all 1 _ isDestination ⟨_, List.mem_cons_self, rfl, rfl⟩
  cases isInfo

end Zano.Transactions.Outputs
