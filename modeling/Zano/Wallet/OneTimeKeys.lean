import Mathlib
import Zano.Lib.Transition
import Zano.Wallet.Incomes

/-! # Outputs with one key

Whether a second output with the same one-time key is recognized depends on what the wallet knows of
key images. With the spend key it knows all of them, so that the outputs on record have distinct
keys after any blocks. Without it, the keys stay distinct as long as every key that comes again is
one whose key image was recorded.
-/

namespace Zano.Wallet.ReceivedOutputs

variable {generateKeyImage : PublicKey → KeyImage}

/-! ## One-time keys -/

variable {w w' w'' : WalletState} {c c' : Context} {tx : Tx} {height index : Nat}

def WalletState.outKeys (w : WalletState) : List PublicKey := w.outputs.map (·.outKey)

/-- An output that the loop enters unless it knows the key image already. -/
def OwnOut.creditable (out : OwnOut) (auditable : Bool) : Bool :=
  (out.outType = .toKey || out.outType = .zarcanum) && (!auditable || out.mixAttr = forcedNoMix)

def creditableKeys (auditable : Bool) (outs : List OwnOut) : List PublicKey :=
  (outs.filter (·.creditable auditable)).map (·.outKey)

def Tx.creditableKeys (tx : Tx) (auditable : Bool) : List PublicKey :=
  if skippedForUnlockTime tx then [] else ReceivedOutputs.creditableKeys auditable tx.outs

def Block.creditableKeys (b : Block) (auditable : Bool) : List PublicKey :=
  b.txs.flatMap (·.creditableKeys auditable)

/-- A second output with a key of this list is recognized: a key on record by its key image, which
is on record too, and a key that comes for the first time by the key image that the wallet will
record with it. -/
structure Recognizable (generateKeyImage : PublicKey → KeyImage) (w : WalletState)
    (keys : List PublicKey) : Prop where
  onRecord : ∀ outKey ∈ keys, outKey ∈ w.outKeys →
    (w.keyImageFor generateKeyImage outKey).any w.hasKeyImage = true
  unknown : (keys.filter fun outKey => w.keyImageFor generateKeyImage outKey = none).Nodup

variable {keys rest : List PublicKey}

theorem Recognizable.of_append (recognizable : Recognizable generateKeyImage w (keys ++ rest)) :
    Recognizable generateKeyImage w rest where
  onRecord outKey inside := recognizable.onRecord outKey (List.mem_append_right _ inside)
  unknown := by
    have all := recognizable.unknown
    rw [List.filter_append] at all
    exact (List.nodup_append.mp all).2.1

theorem SameRecords.recognizable (same : SameRecords w w')
    (recognizable : Recognizable generateKeyImage w keys) :
    Recognizable generateKeyImage w' keys := by
  have keyImageFor : w'.keyImageFor generateKeyImage = w.keyImageFor generateKeyImage := by
    funext outKey
    simp only [WalletState.keyImageFor, same.watchOnly, same.auditable, same.pendingKeyImages]
  have hasKeyImage : w'.hasKeyImage = w.hasKeyImage := by
    funext keyImage
    simp only [WalletState.hasKeyImage, same.keyImages]
  constructor
  · rw [keyImageFor, hasKeyImage, WalletState.outKeys, same.outputs]
    exact recognizable.onRecord
  · rw [keyImageFor]
    exact recognizable.unknown

theorem enter_outputs (w : WalletState) (td : TransferDetails) :
    (w.enter td).outputs = w.outputs ++ [td.toReceivedOutput] := by
  simp [WalletState.outputs, WalletState.enter]

theorem enter_hasKeyImage (w : WalletState) (td : TransferDetails) (keyImage : KeyImage) :
    (w.enter td).hasKeyImage keyImage =
      (td.keyImage = some keyImage || w.hasKeyImage keyImage) := by
  unfold WalletState.hasKeyImage WalletState.enter
  cases known : td.keyImage with
  | none => simp
  | some own =>
      by_cases same : own = keyImage
      · simp [same]
      · have differs : (keyImage == own) = false := beq_eq_false_iff_ne.mpr fun eq => same eq.symm
        simp [List.lookup_cons, differs, same]

/-- The step of the loop that matters: entering an output whose key image is not on record. -/
theorem Recognizable.enter {td : TransferDetails}
    (recognizable : Recognizable generateKeyImage w (td.outKey :: rest))
    (distinct : w.outKeys.Nodup) (keyImage : td.keyImage = w.keyImageFor generateKeyImage td.outKey)
    (notSeen : ¬ (w.keyImageFor generateKeyImage td.outKey).any w.hasKeyImage = true) :
    (w.enter td).outKeys.Nodup ∧ Recognizable generateKeyImage (w.enter td) rest := by
  have outKeys : (w.enter td).outKeys = w.outKeys ++ [td.outKey] := by
    rw [WalletState.outKeys, enter_outputs, List.map_append]
    rfl
  have fresh : td.outKey ∉ w.outKeys := fun inside =>
    notSeen (recognizable.onRecord td.outKey List.mem_cons_self inside)
  have grows : ∀ keyImage, w.hasKeyImage keyImage = true →
      (w.enter td).hasKeyImage keyImage = true := by
    intro keyImage known
    rw [enter_hasKeyImage, known, Bool.or_true]
  refine ⟨?_, ?_, ?_⟩
  · rw [outKeys]
    apply List.nodup_append.mpr
    refine ⟨distinct, by simp, ?_⟩
    intro a inside b same
    rw [List.mem_singleton.mp same]
    rintro rfl
    exact fresh inside
  · intro outKey inRest inside
    change (w.keyImageFor generateKeyImage outKey).any (w.enter td).hasKeyImage = true
    rw [outKeys, List.mem_append, List.mem_singleton] at inside
    rcases inside with before | rfl
    · have known := recognizable.onRecord outKey (List.mem_cons_of_mem _ inRest) before
      cases isKnown : w.keyImageFor generateKeyImage outKey with
      | none =>
          rw [isKnown] at known
          cases known
      | some own =>
          rw [isKnown] at known
          exact grows own known
    · cases known : w.keyImageFor generateKeyImage td.outKey with
      | none =>
          have once := recognizable.unknown
          rw [List.filter_cons, if_pos (by simpa using known), List.nodup_cons] at once
          exact absurd (List.mem_filter.mpr ⟨inRest, by simpa using known⟩) once.1
      | some own =>
          change (w.enter td).hasKeyImage own = true
          rw [enter_hasKeyImage, keyImage, known]
          simp
  · have all := recognizable.unknown
    rw [List.filter_cons] at all
    split at all
    · exact (List.nodup_cons.mp all).2
    · exact all

theorem processOut_keys {out : OwnOut} (distinct : w.outKeys.Nodup)
    (recognizable : Recognizable generateKeyImage w (creditableKeys w.auditable [out] ++ rest))
    (processed : processOut generateKeyImage height tx w c out = some (w', c')) :
    w'.outKeys.Nodup ∧ Recognizable generateKeyImage w' rest ∧ w'.auditable = w.auditable := by
  have skipped : ∀ {r : WalletState × Context}, some (w, c) = some r →
      r.1.outKeys.Nodup ∧ Recognizable generateKeyImage r.1 rest ∧ r.1.auditable = w.auditable := by
    intro r same
    cases same
    exact ⟨distinct, recognizable.of_append, rfl⟩
  unfold processOut at processed
  split at processed
  case h_3 =>
    cases processed
    have later := recognizable.of_append
    exact ⟨distinct, ⟨later.onRecord, later.unknown⟩, rfl⟩
  case h_4 => exact skipped processed
  all_goals
    next isType =>
      dsimp only at processed
      split at processed
      · exact skipped processed
      · next notSeen =>
          split at processed
          · exact skipped processed
          · next mixes =>
              obtain ⟨gindex, -, same⟩ := Option.map_eq_some_iff.mp processed
              cases same
              have creditable : creditableKeys w.auditable [out] = [out.outKey] := by
                have isCreditable : out.creditable w.auditable = true := by
                  cases isAuditable : w.auditable <;> simp_all [OwnOut.creditable]
                simp [creditableKeys, isCreditable]
              rw [creditable] at recognizable
              let td : TransferDetails :=
                ⟨out.received tx height gindex, w.keyImageFor generateKeyImage out.outKey, false, 0⟩
              have entered :
                  (w.enter td).outKeys.Nodup ∧ Recognizable generateKeyImage (w.enter td) rest :=
                Recognizable.enter recognizable distinct rfl notSeen
              exact ⟨entered.1, entered.2, rfl⟩

/-- One turn of the loop is exact: the keys stay distinct unless the key is on record and the key
image is not. -/
theorem processOut_keys_iff {out : OwnOut} (creditable : out.creditable w.auditable = true)
    (distinct : w.outKeys.Nodup)
    (processed : processOut generateKeyImage height tx w c out = some (w', c')) :
    w'.outKeys.Nodup ↔
      (out.outKey ∈ w.outKeys →
        (w.keyImageFor generateKeyImage out.outKey).any w.hasKeyImage = true) := by
  constructor
  · intro distinct' inside
    apply Classical.byContradiction
    intro notSeen
    have mixes : ¬ (w.auditable && out.mixAttr != forcedNoMix) = true := by
      unfold OwnOut.creditable at creditable
      cases isAuditable : w.auditable <;> simp_all
    have entered : ∃ td : TransferDetails, td.outKey = out.outKey ∧ w' = w.enter td := by
      unfold processOut at processed
      split at processed
      case h_3 isType => simp [OwnOut.creditable, isType] at creditable
      case h_4 isType => simp [OwnOut.creditable, isType] at creditable
      all_goals
        dsimp only at processed
        rw [if_neg notSeen, if_neg mixes] at processed
        obtain ⟨gindex, -, same⟩ := Option.map_eq_some_iff.mp processed
        exact ⟨⟨out.received tx height gindex, w.keyImageFor generateKeyImage out.outKey, false, 0⟩,
          rfl, (congrArg Prod.fst same).symm⟩
    obtain ⟨td, sameKey, rfl⟩ := entered
    rw [WalletState.outKeys, enter_outputs, List.map_append, List.nodup_append] at distinct'
    exact distinct'.2.2 out.outKey inside td.outKey (by simp) sameKey.symm
  · intro recognized
    have recognizable :
        Recognizable generateKeyImage w (creditableKeys w.auditable [out] ++ []) := by
      have single : creditableKeys w.auditable [out] = [out.outKey] := by
        simp [creditableKeys, creditable]
      rw [single, List.append_nil]
      constructor
      · intro outKey isIt
        rw [List.mem_singleton.mp isIt]
        exact recognized
      · exact (List.nodup_singleton out.outKey).filter _
    exact (processOut_keys distinct recognizable processed).1

theorem creditableKeys_cons (auditable : Bool) (out : OwnOut) (outs : List OwnOut) :
    creditableKeys auditable (out :: outs) =
      creditableKeys auditable [out] ++ creditableKeys auditable outs := by
  simp only [creditableKeys, ← List.map_append, ← List.filter_append, List.singleton_append]

theorem processOuts_keys {outs : List OwnOut} (distinct : w.outKeys.Nodup)
    (recognizable : Recognizable generateKeyImage w (creditableKeys w.auditable outs ++ rest))
    (processed : processOuts generateKeyImage height tx w c outs = some (w', c')) :
    w'.outKeys.Nodup ∧ Recognizable generateKeyImage w' rest ∧ w'.auditable = w.auditable := by
  induction outs generalizing w c with
  | nil =>
      cases processed
      exact ⟨distinct, recognizable, rfl⟩
  | cons out others inductionHypothesis =>
      obtain ⟨next, first, later⟩ := Option.bind_eq_some_iff.mp processed
      rw [creditableKeys_cons, List.append_assoc] at recognizable
      obtain ⟨distinctNext, recognizableNext, sameKind⟩ :=
        processOut_keys distinct recognizable first
      rw [← sameKind] at recognizableNext
      obtain ⟨distinct', recognizable', sameKind'⟩ :=
        inductionHypothesis distinctNext recognizableNext later
      exact ⟨distinct', recognizable', sameKind'.trans sameKind⟩

theorem processNewTransaction_keys {hf6Active : Bool} (distinct : w.outKeys.Nodup)
    (recognizable : Recognizable generateKeyImage w (tx.creditableKeys w.auditable ++ rest))
    (processed : processNewTransaction generateKeyImage hf6Active height w tx = some w') :
    w'.outKeys.Nodup ∧ Recognizable generateKeyImage w' rest ∧ w'.auditable = w.auditable := by
  obtain ⟨⟨afterInputs, c⟩, inputs, done⟩ := Option.bind_eq_some_iff.mp processed
  obtain ⟨same, -⟩ := processInputs_spec onlySpends_initial inputs
  have distinctInputs : afterInputs.outKeys.Nodup := by
    rw [WalletState.outKeys, same.outputs]
    exact distinct
  have recognizableInputs := same.recognizable recognizable
  dsimp only at done
  split at done
  · cases done
    exact ⟨distinctInputs, recognizableInputs.of_append, same.auditable⟩
  · next outsCount =>
      split at done
      · cases done
        exact ⟨distinctInputs, recognizableInputs.of_append, same.auditable⟩
      · split at done
        · cases done
        · obtain ⟨⟨afterOuts, c'⟩, outs, result⟩ := Option.map_eq_some_iff.mp done
          rw [Tx.creditableKeys, if_neg outsCount, ← same.auditable] at recognizableInputs
          obtain ⟨distinct', recognizable', sameKind⟩ :=
            processOuts_keys distinctInputs recognizableInputs outs
          have after : w'.outKeys = afterOuts.outKeys ∧ w'.auditable = afterOuts.auditable ∧
              Recognizable generateKeyImage w' rest := by
            dsimp only at result
            split at result
            · rw [← result]
              exact ⟨rfl, rfl, recognizable'.onRecord, recognizable'.unknown⟩
            · rw [← result]
              exact ⟨rfl, rfl, recognizable'⟩
          obtain ⟨sameKeys, kept, recognizableAfter⟩ := after
          rw [sameKeys]
          exact ⟨distinct', recognizableAfter, kept.trans (sameKind.trans same.auditable)⟩

theorem processTransactions_keys {hf6Active : Bool} {txs : List Tx} (distinct : w.outKeys.Nodup)
    (recognizable : Recognizable generateKeyImage w (txs.flatMap (·.creditableKeys w.auditable)))
    (processed : txs.foldlM (processNewTransaction generateKeyImage hf6Active height) w = some w') :
    w'.outKeys.Nodup := by
  induction txs generalizing w with
  | nil =>
      cases processed
      exact distinct
  | cons tx others inductionHypothesis =>
      rw [List.foldlM_cons] at processed
      obtain ⟨next, first, later⟩ := Option.bind_eq_some_iff.mp processed
      rw [List.flatMap_cons] at recognizable
      obtain ⟨distinctNext, recognizableNext, sameKind⟩ :=
        processNewTransaction_keys distinct recognizable first
      rw [← sameKind] at recognizableNext
      exact inductionHypothesis distinctNext recognizableNext later

/-! ## A wallet with the spend key -/

/-- The wallets agree on all that the key image check looks at. -/
structure SameImages (w w' : WalletState) : Prop where
  images : w'.images = w.images
  keyImages : w'.keyImages = w.keyImages
  watchOnly : w'.watchOnly = w.watchOnly

theorem SameRecords.sameImages (same : SameRecords w w') : SameImages w w' :=
  ⟨same.images, same.keyImages, same.watchOnly⟩

/-- A property that the check supports holds after a transaction if it held before. -/
theorem processNewTransaction_invariant {P : WalletState → Prop}
    (same : ∀ {w w'}, SameImages w w' → P w → P w')
    (enter : ∀ {w : WalletState} {td : TransferDetails}, P w →
      td.keyImage = w.keyImageFor generateKeyImage td.outKey →
      ¬ (w.keyImageFor generateKeyImage td.outKey).any w.hasKeyImage = true → P (w.enter td))
    {hf6Active : Bool} (holds : P w)
    (processed : processNewTransaction generateKeyImage hf6Active height w tx = some w') :
    P w' := by
  have oneOut : ∀ {w w' : WalletState} {c c' : Context} {out : OwnOut}, P w →
      processOut generateKeyImage height tx w c out = some (w', c') → P w' := by
    intro w w' c c' out holds processed
    unfold processOut at processed
    split at processed
    case h_3 =>
      cases processed
      exact same (w := w) ⟨rfl, rfl, rfl⟩ holds
    case h_4 =>
      cases processed
      exact holds
    all_goals
      dsimp only at processed
      split at processed
      · cases processed
        exact holds
      · next notSeen =>
          split at processed
          · cases processed
            exact holds
          · obtain ⟨gindex, -, result⟩ := Option.map_eq_some_iff.mp processed
            cases result
            exact enter holds rfl notSeen
  have allOuts : ∀ {outs : List OwnOut} {w w' : WalletState} {c c' : Context}, P w →
      processOuts generateKeyImage height tx w c outs = some (w', c') → P w' := by
    intro outs
    induction outs with
    | nil =>
        intro w w' c c' holds processed
        cases processed
        exact holds
    | cons out rest inductionHypothesis =>
        intro w w' c c' holds processed
        obtain ⟨next, first, later⟩ := Option.bind_eq_some_iff.mp processed
        exact inductionHypothesis (oneOut holds first) later
  obtain ⟨⟨afterInputs, c⟩, inputs, done⟩ := Option.bind_eq_some_iff.mp processed
  have holdsInputs : P afterInputs :=
    same (processInputs_spec onlySpends_initial inputs).1.sameImages holds
  dsimp only at done
  split at done
  · cases done
    exact holdsInputs
  · split at done
    · cases done
      exact holdsInputs
    · split at done
      · cases done
      · obtain ⟨⟨afterOuts, c'⟩, outs, result⟩ := Option.map_eq_some_iff.mp done
        have holdsOuts : P afterOuts := allOuts holdsInputs outs
        dsimp only at result
        split at result
        · rw [← result]
          exact same (w := afterOuts) ⟨rfl, rfl, rfl⟩ holdsOuts
        · rw [← result]
          exact holdsOuts

/-- A wallet with the spend key has every output on record under its own key image. -/
structure KnowsImages (generateKeyImage : PublicKey → KeyImage) (w : WalletState) : Prop where
  known :
    ∀ p ∈ w.images, p.2 = some (generateKeyImage p.1) ∧ w.hasKeyImage (generateKeyImage p.1) = true
  distinct : (w.images.map fun p => generateKeyImage p.1).Nodup

theorem keyImageFor_full (full : w.watchOnly = false) (outKey : PublicKey) :
    w.keyImageFor generateKeyImage outKey = some (generateKeyImage outKey) := by
  simp [WalletState.keyImageFor, full]

theorem outKeys_eq (w : WalletState) : w.outKeys = w.images.map (·.1) := by
  simp [WalletState.outKeys, WalletState.outputs, WalletState.images]

theorem KnowsImages.recognizable (knows : KnowsImages generateKeyImage w)
    (full : w.watchOnly = false) (keys : List PublicKey) :
    Recognizable generateKeyImage w keys where
  onRecord outKey _ inside := by
    rw [outKeys_eq] at inside
    obtain ⟨p, isThere, rfl⟩ := List.mem_map.mp inside
    rw [keyImageFor_full full]
    exact (knows.known p isThere).2
  unknown := by
    have none_unknown :
        (keys.filter fun outKey => w.keyImageFor generateKeyImage outKey = none) = [] := by
      apply List.filter_eq_nil_iff.mpr
      intro outKey _
      simp [keyImageFor_full full]
    rw [none_unknown]
    exact List.nodup_nil

theorem KnowsImages.same (same : SameImages w w') (knows : KnowsImages generateKeyImage w) :
    KnowsImages generateKeyImage w' := by
  have hasKeyImage : w'.hasKeyImage = w.hasKeyImage := by
    funext keyImage
    simp only [WalletState.hasKeyImage, same.keyImages]
  constructor
  · rw [same.images, hasKeyImage]
    exact knows.known
  · rw [same.images]
    exact knows.distinct

theorem KnowsImages.enter {td : TransferDetails} (knows : KnowsImages generateKeyImage w)
    (full : w.watchOnly = false) (keyImage : td.keyImage = w.keyImageFor generateKeyImage td.outKey)
    (notSeen : ¬ (w.keyImageFor generateKeyImage td.outKey).any w.hasKeyImage = true) :
    KnowsImages generateKeyImage (w.enter td) := by
  rw [keyImageFor_full full] at keyImage notSeen
  have images :
      (w.enter td).images = w.images ++ [(td.outKey, some (generateKeyImage td.outKey))] := by
    simp [WalletState.images, WalletState.enter, keyImage]
  constructor
  · intro p inside
    rw [images, List.mem_append, List.mem_singleton] at inside
    rw [enter_hasKeyImage]
    rcases inside with before | rfl
    · obtain ⟨own, known⟩ := knows.known p before
      rw [known, Bool.or_true]
      exact ⟨own, rfl⟩
    · simp [keyImage]
  · rw [images, List.map_append]
    apply List.nodup_append.mpr
    refine ⟨knows.distinct, by simp, ?_⟩
    intro a inside b last
    obtain ⟨p, isThere, rfl⟩ := List.mem_map.mp inside
    rw [List.map_singleton, List.mem_singleton] at last
    subst last
    intro same
    apply notSeen
    simp only [Option.any_some]
    rw [← same]
    exact (knows.known p isThere).2

theorem processNewTransaction_knowsImages {hf6Active : Bool}
    (holds : w.watchOnly = false → KnowsImages generateKeyImage w)
    (processed : processNewTransaction generateKeyImage hf6Active height w tx = some w') :
    w'.watchOnly = false → KnowsImages generateKeyImage w' := by
  apply processNewTransaction_invariant (P := fun w => w.watchOnly = false →
    KnowsImages generateKeyImage w)
    ?_ ?_ holds processed
  · intro w w' same holds full
    exact (holds (same.watchOnly.symm.trans full)).same same
  · intro w td holds keyImage notSeen full
    exact (holds full).enter full keyImage notSeen

theorem processTransactions_knowsImages {hf6Active : Bool} {txs : List Tx}
    (holds : w.watchOnly = false → KnowsImages generateKeyImage w)
    (processed : txs.foldlM (processNewTransaction generateKeyImage hf6Active height) w = some w') :
    w'.watchOnly = false → KnowsImages generateKeyImage w' := by
  induction txs generalizing w with
  | nil =>
      cases processed
      exact holds
  | cons tx rest inductionHypothesis =>
      rw [List.foldlM_cons] at processed
      obtain ⟨next, first, later⟩ := Option.bind_eq_some_iff.mp processed
      exact inductionHypothesis (processNewTransaction_knowsImages holds first) later

theorem lookup_filter_ne {keyImages : List (KeyImage × Nat)} {keyImage other : KeyImage}
    (differs : other ≠ keyImage) :
    (keyImages.filter fun e => e.1 ≠ keyImage).lookup other = keyImages.lookup other := by
  induction keyImages with
  | nil => rfl
  | cons e rest inductionHypothesis =>
      rw [List.filter_cons]
      by_cases same : e.1 = keyImage
      · have notFirst : (other == e.1) = false := beq_eq_false_iff_ne.mpr (same ▸ differs)
        rw [if_neg (by simpa using same), inductionHypothesis, List.lookup_cons, notFirst]
      · rw [if_pos (by simpa using same), List.lookup_cons, List.lookup_cons, inductionHypothesis]

theorem eraseKeyImages_lookup {watchOnly : Bool} {includingHeight : Nat}
    {detached : List (Nat × TransferDetails)} {keyImages left : List (KeyImage × Nat)}
    {keyImage : KeyImage}
    (erased : eraseKeyImages watchOnly includingHeight detached keyImages = some left)
    (other : ∀ e ∈ detached, e.2.keyImage ≠ some keyImage) :
    left.lookup keyImage = keyImages.lookup keyImage := by
  induction detached generalizing keyImages with
  | nil =>
      cases erased
      rfl
  | cons e rest inductionHypothesis =>
      have others : ∀ e ∈ rest, e.2.keyImage ≠ some keyImage := fun e inside =>
        other e (List.mem_cons_of_mem _ inside)
      simp only [eraseKeyImages] at erased
      split at erased
      · split at erased
        · exact inductionHypothesis erased others
        · cases erased
      · next own isOwn =>
          split at erased
          · rw [inductionHypothesis erased others]
            apply lookup_filter_ne
            rintro rfl
            exact other e List.mem_cons_self isOwn
          · cases erased

theorem detachBlockchain_knowsImages {includingHeight : Nat}
    (knows : KnowsImages generateKeyImage w)
    (detached : detachBlockchain w includingHeight = some w') :
    KnowsImages generateKeyImage w' := by
  obtain ⟨left, erased, rfl⟩ := Option.map_eq_some_iff.mp detached
  have parts := List.takeWhile_append_dropWhile (l := w.transfers) (p := fun e =>
    e.2.blockHeight < includingHeight)
  generalize (w.transfers.takeWhile fun e => decide (e.2.blockHeight < includingHeight)) =
    kept at parts erased ⊢
  generalize (w.transfers.dropWhile fun e => decide (e.2.blockHeight < includingHeight)) =
    gone at parts erased ⊢
  have images : w.images = (kept.map fun e => (e.2.outKey, e.2.keyImage)) ++
      gone.map fun e => (e.2.outKey, e.2.keyImage) := by
    rw [WalletState.images, ← parts, List.map_append]
  have keptImages : ((kept.map fun e => (e.1, e.2.unconfirmSpend includingHeight)).map fun e =>
      (e.2.outKey, e.2.keyImage)) = kept.map fun e => (e.2.outKey, e.2.keyImage) := by
    rw [List.map_map]
    apply List.map_congr_left
    intro e _
    simp only [Function.comp_apply, TransferDetails.unconfirmSpend]
    split <;> rfl
  have distinct := knows.distinct
  rw [images, List.map_append, List.nodup_append] at distinct
  constructor
  · intro p inside
    simp only [WalletState.images, keptImages] at inside
    obtain ⟨own, known⟩ := knows.known p (by rw [images]; exact List.mem_append_left _ inside)
    refine ⟨own, ?_⟩
    simp only [WalletState.hasKeyImage]
    rw [eraseKeyImages_lookup erased]
    · exact known
    · intro e isGone same
      have goneImage : (e.2.outKey, e.2.keyImage) ∈ w.images := by
        rw [images]
        exact List.mem_append_right _ (List.mem_map_of_mem isGone)
      have itsOwn := (knows.known _ goneImage).1
      have equal : generateKeyImage e.2.outKey = generateKeyImage p.1 :=
        Option.some.inj (itsOwn.symm.trans same)
      have fromKept : generateKeyImage p.1 ∈
          (kept.map fun e => (e.2.outKey, e.2.keyImage)).map fun p => generateKeyImage p.1 :=
            List.mem_map_of_mem inside
      have fromGone : generateKeyImage e.2.outKey ∈
          (gone.map fun e => (e.2.outKey, e.2.keyImage)).map fun p => generateKeyImage p.1 :=
        List.mem_map_of_mem (List.mem_map_of_mem isGone)
      exact distinct.2.2 _ fromKept _ fromGone equal.symm
  · simp only [WalletState.images, keptImages]
    exact distinct.1

/-! ## No output is credited that cannot be spent on its own -/

/-- A request that brings no output whose key is on record unless the wallet can tell. -/
def Distinguishes (generateKeyImage : PublicKey → KeyImage) (w : WalletState) : Request → Prop
  | .genesis tx =>
      w.watchOnly = false ∨ Recognizable generateKeyImage w (tx.creditableKeys w.auditable)
  | .newBlock b =>
      w.watchOnly = false ∨ b.height ≤ w.minimumHeight ∨
        Recognizable generateKeyImage w (b.creditableKeys w.auditable)
  | .detach _ => True
  | .submitTransfer _ _ => True

structure Invariant (generateKeyImage : PublicKey → KeyImage) (w : WalletState) : Prop where
  ordered : Ordered w
  incomes : IncomesEntered w
  knows : w.watchOnly = false → KnowsImages generateKeyImage w
  distinct : w.outKeys.Nodup

theorem step_knowsImages {request : Request}
    (holds : w.watchOnly = false → KnowsImages generateKeyImage w)
    (stepped : step generateKeyImage w request = some w') :
    w'.watchOnly = false → KnowsImages generateKeyImage w' := by
  intro full
  cases request with
  | genesis tx =>
      obtain ⟨-, rfl | processed⟩ := genesis_cases generateKeyImage stepped
      · exact holds full
      · exact processNewTransaction_knowsImages holds processed full
  | newBlock b =>
      obtain ⟨next, txs, rfl, -⟩ := newBlock_cases generateKeyImage stepped
      have holdsNext : KnowsImages generateKeyImage next := by
        split at txs
        · exact processTransactions_knowsImages holds txs full
        · subst txs
          exact holds full
      exact ⟨holdsNext.known, holdsNext.distinct⟩
  | detach includingHeight =>
      simp only [step] at stepped
      split at stepped
      · obtain ⟨left, -, same⟩ := Option.map_eq_some_iff.mp stepped
        have fullBefore : w.watchOnly = false := by
          rw [← same] at full
          exact full
        exact detachBlockchain_knowsImages (holds fullBefore) stepped
      · cases stepped
  | submitTransfer outKeyImages inputKeyImages =>
      obtain ⟨isWatchOnly, same⟩ := submitTransfer_same stepped
      rw [same.watchOnly, isWatchOnly] at full
      cases full

theorem step_distinct {request : Request} (invariant : Invariant generateKeyImage w)
    (distinguishes : Distinguishes generateKeyImage w request)
    (stepped : step generateKeyImage w request = some w') : w'.outKeys.Nodup := by
  cases request with
  | genesis tx =>
      obtain ⟨-, rfl | processed⟩ := genesis_cases generateKeyImage stepped
      · exact invariant.distinct
      · have recognizable : Recognizable generateKeyImage w (tx.creditableKeys w.auditable) :=
          distinguishes.elim (fun full => (invariant.knows full).recognizable full _) id
        rw [← List.append_nil (tx.creditableKeys w.auditable)] at recognizable
        exact (processNewTransaction_keys invariant.distinct recognizable processed).1
  | newBlock b =>
      obtain ⟨next, txs, rfl, -⟩ := newBlock_cases generateKeyImage stepped
      change next.outKeys.Nodup
      split at txs
      · next above =>
          apply processTransactions_keys invariant.distinct _ txs
          rcases distinguishes with full | below | recognizable
          · exact (invariant.knows full).recognizable full _
          · omega
          · exact recognizable
      · rw [txs]
        exact invariant.distinct
  | detach includingHeight =>
      simp only [step] at stepped
      split at stepped
      · rw [WalletState.outKeys, (detachBlockchain_spec invariant.ordered stepped).1]
        exact invariant.distinct.sublist (List.filter_sublist.map _)
      · cases stepped
  | submitTransfer outKeyImages inputKeyImages =>
      rw [WalletState.outKeys, (submitTransfer_same stepped).2.outputs]
      exact invariant.distinct

theorem ordered_fresh (watchOnly auditable deferred : Bool) (minimumHeight : Nat)
    (pendingKeyImages : List (PublicKey × KeyImage)) :
    Ordered (.fresh watchOnly auditable deferred minimumHeight pendingKeyImages) where
  outputs := .nil
  history := .nil
  outputsBelow _ inside := nomatch inside
  historyBelow _ inside := nomatch inside

theorem incomesEntered_fresh (watchOnly auditable deferred : Bool) (minimumHeight : Nat)
    (pendingKeyImages : List (PublicKey × KeyImage)) :
    IncomesEntered (.fresh watchOnly auditable deferred minimumHeight pendingKeyImages) where
  history _ inside := nomatch inside
  payments _ inside := nomatch inside

/-- Whatever blocks a wallet of any kind has gone through, its incomes come from outputs
that it has entered. -/
theorem incomes_entered {watchOnly auditable deferred : Bool} {minimumHeight : Nat}
    {pendingKeyImages : List (PublicKey × KeyImage)} {requests : List Request}
    (ran : Transition.run (step generateKeyImage)
      (.fresh watchOnly auditable deferred minimumHeight pendingKeyImages) requests = some w) :
        IncomesEntered w := by
  have always : Transition.Guarded (step generateKeyImage) (fun _ _ => True)
      (.fresh watchOnly auditable deferred minimumHeight pendingKeyImages) requests :=
    Transition.guarded_of_forall_mem fun _ _ _ => trivial
  have preserved : ∀ w request w', Ordered w ∧ IncomesEntered w → True →
      step generateKeyImage w request = some w' → Ordered w' ∧ IncomesEntered w' :=
    fun w request w' holds _ stepped => step_incomes generateKeyImage holds.1 holds.2 stepped
  exact (Transition.invariant_of_run preserved ⟨ordered_fresh .., incomesEntered_fresh ..⟩
    always ran).2

/-- Two outputs of one transaction with one key and one payment id. -/
def twoOutputsOneKey : Tx where
  hash := 1
  coinbase := false
  hasUnlockTime := false
  inputs := []
  voutSize := 2
  outs := [⟨0, .zarcanum, 7, 0, 0, 5, 0, 9, 0⟩, ⟨1, .zarcanum, 7, 0, 0, 5, 0, 9, 0⟩]
  globalOutputIndexes := [0, 1]
  hasTxWidePaymentId := false
  txWidePaymentId := none
  usedToEncrypt := false

/-- A watch-only wallet credits both outputs, and reports a payment of ten where only
five can be spent. -/
theorem duplicate_credited :
    ¬ ∀ (generateKeyImage : PublicKey →
      KeyImage) (watchOnly auditable deferred : Bool) (minimumHeight : Nat)
      (pendingKeyImages : List (PublicKey × KeyImage)) (requests : List Request) (w : WalletState),
      Transition.run (step generateKeyImage)
        (.fresh watchOnly auditable deferred minimumHeight pendingKeyImages) requests = some w →
      w.outKeys.Nodup ∧ IncomesEntered w := by
  intro always
  have credited : (Transition.run (step id) (.fresh true false false 0 [])
      [.newBlock ⟨1, false, [twoOutputsOneKey]⟩]).map
      (fun w => (w.outKeys, w.payments.map fun p => p.2.amount)) = some ([7, 7], [10]) := by decide
  obtain ⟨w, ran, records⟩ := Option.map_eq_some_iff.mp credited
  have distinct := (always id true false false 0 [] _ w ran).1
  rw [(Prod.mk.inj records).1] at distinct
  revert distinct
  decide

/-- The balance and the payments count no two outputs of which only one can be spent, as long as no
block brings a second output with a key on record to a wallet that cannot tell. -/
theorem credits_spendable (generateKeyImage : PublicKey → KeyImage)
    (watchOnly auditable deferred : Bool) (minimumHeight : Nat)
    (pendingKeyImages : List (PublicKey × KeyImage)) (requests : List Request) {w : WalletState}
    (ran : Transition.run (step generateKeyImage)
      (.fresh watchOnly auditable deferred minimumHeight pendingKeyImages) requests = some w)
    (guarded : Transition.Guarded (step generateKeyImage) (Distinguishes generateKeyImage)
      (.fresh watchOnly auditable deferred minimumHeight pendingKeyImages) requests) :
    w.outKeys.Nodup ∧ IncomesEntered w := by
  have invariant : Invariant generateKeyImage w := by
    refine Transition.invariant_of_run ?_ ?_ guarded ran
    · intro w request w' holds distinguishes stepped
      obtain ⟨ordered, incomes⟩ := step_incomes generateKeyImage holds.ordered holds.incomes stepped
      exact ⟨ordered, incomes, step_knowsImages holds.knows stepped,
        step_distinct holds distinguishes stepped⟩
    · exact ⟨ordered_fresh .., incomesEntered_fresh ..,
        fun _ => ⟨(fun _ inside => nomatch inside), .nil⟩, .nil⟩
  exact ⟨invariant.distinct, invariant.incomes⟩

/-- The same block brought to a wallet with the spend key, which enters one of the two outputs. -/
theorem credits_spendable_full : ∃ w : WalletState,
    Transition.run (step id) (.fresh false false false 0 [])
      [.newBlock ⟨1, false, [twoOutputsOneKey]⟩] = some w ∧
      w.outKeys.Nodup ∧ IncomesEntered w := by
  have credited : (Transition.run (step id) (.fresh false false false 0 [])
      [.newBlock ⟨1, false, [twoOutputsOneKey]⟩]).isSome = true := by decide
  obtain ⟨w, ran⟩ := Option.isSome_iff_exists.mp credited
  exact ⟨w, ran, credits_spendable id false false false 0 [] _ ran ⟨.inl rfl, fun _ _ => trivial⟩⟩

end Zano.Wallet.ReceivedOutputs
