import Mathlib
import Zano.AltBlocks.OutputIndexes

/-! # The youngest block that a transaction uses

The check of the inputs of a transaction hands the height of the youngest block that it refers to
from input to input. The inputs that refer to rings raise it to the height of their youngest
reference, and those without references leave it. A multisig input writes the height of its own
source over it, so the blocks of the inputs before it are forgotten.
-/

namespace Zano.AltBlocks

open Blockchain (TxoutRefV GlobalOutputEntry)

variable {Hash KeyImage Key : Type*}

/-- What the check of the inputs goes by besides the tables, and its two switches. -/
structure InputChecks (Hash KeyImage Key : Type*) where
  isInCheckpointZone : Bool
  checkHf4CoinageRule : Bool
  isHardforkActiveForHeight : ℕ → Bool
  isMixattrApplicable : Transaction Hash KeyImage Key → TxOutV Hash Key → ℕ → Bool
  validateOutputKeyLegit : Key → Bool
  handleOutput : TransactionChainEntry Hash KeyImage Key → Transaction Hash KeyImage Key →
    TxOutV Hash Key → ℕ → Bool
  spentFlag : Hash → ℕ → Bool
  checkInputSignature : Transaction Hash KeyImage Key → ℕ → Hash → List (TxOutV Hash Key) → Bool
  checkZcSignature : Transaction Hash KeyImage Key → ℕ → Hash → List (TxOutV Hash Key) → Bool
  checkMsInput : Transaction Hash KeyImage Key → ℕ → Hash → Transaction Hash KeyImage Key → ℕ → Bool
  checkGatewaySignature : Transaction Hash KeyImage Key → ℕ → Hash → Bool
  checkAttachmentsAndAssetIds : Transaction Hash KeyImage Key → Bool

/-- The entry of the output that a reference is to. -/
def outputReferredTo (db : MainTables Hash KeyImage Key) (amount : UInt64) (o : TxoutRefV Hash) :
    Option (GlobalOutputEntry Hash) :=
  match o with
  | .globalIndex i => (db.outputs amount)[i]?
  | .refById txId n => some ⟨txId, n⟩

/-- Before the fourth hardfork the keys of bare outputs are taken as they are. -/
def isOutputKeyLegit (checks : InputChecks Hash KeyImage Key) (db : MainTables Hash KeyImage Key)
    (out : TxOutV Hash Key) : Bool :=
  match out with
  | .bareToKey _ key =>
      !checks.isHardforkActiveForHeight db.blocks.length || checks.validateOutputKeyLegit key
  | .zarcanum stealthAddress => checks.validateOutputKeyLegit stealthAddress
  | _ => false

/-- One round of the loop of `scan_outputkeys_for_indexes`: the output and the
height of its block. -/
def scanReference (checks : InputChecks Hash KeyImage Key) (db : MainTables Hash KeyImage Key)
    (validatedTx : Transaction Hash KeyImage Key) (input : TxinV Hash KeyImage) (amount : UInt64)
    (mixins : ℕ) (o : TxoutRefV Hash) : Option (TxOutV Hash Key × ℕ) :=
  (outputReferredTo db amount o).bind fun source =>
    (db.transactions source.txId).bind fun p =>
      p.tx.vout[source.outNo]?.bind fun out =>
        if isOutputAllowedForInput out input ∧ checks.isMixattrApplicable p.tx out mixins ∧
            isOutputKeyLegit checks db out ∧ checks.handleOutput p validatedTx out source.outNo then
          some (out, p.keeperBlockHeight)
        else none

/-- `scan_outputkeys_for_indexes`: the outputs of the ring, and the height with
those of the ring. -/
def scanOutputkeysForIndexes (checks : InputChecks Hash KeyImage Key)
    (db : MainTables Hash KeyImage Key) (validatedTx : Transaction Hash KeyImage Key)
    (input : TxinV Hash KeyImage) (amount : UInt64) (keyOffsets : List (TxoutRefV Hash))
    (checkHf4CoinageRule : Bool) (maxRelatedBlockHeight : ℕ) :
    Option (List (TxOutV Hash Key) × ℕ) :=
  if (db.outputs amount).length = 0 then none
  else
    (keyOffsets.mapM
      (scanReference checks db validatedTx input amount (keyOffsets.length - 1))).bind fun found =>
      let maxRelatedBlockHeight := (found.map (·.2)).foldl max maxRelatedBlockHeight
      if checkHf4CoinageRule ∧ checks.isHardforkActiveForHeight db.blocks.length →
          currencyHf4MandatoryMinCoinage ≤ db.blocks.length - maxRelatedBlockHeight then
        some (found.map (·.1), maxRelatedBlockHeight)
      else none

/-- `check_tx_input` of the four kinds, with what the loop of `check_tx_inputs` asks before it: the
height after the input. A bare input does not know the switch for the coinage rule. -/
def checkTxInput (checks : InputChecks Hash KeyImage Key) (db : MainTables Hash KeyImage Key)
    (tx : Transaction Hash KeyImage Key) (txPrefixHash : Hash) (maxRelatedBlockHeight : ℕ)
    (indexed : TxinV Hash KeyImage × ℕ) : Option ℕ :=
  match indexed.1 with
  | .gen _ => none
  | .htlc => none
  | .toKey amount keyOffsets kImage =>
      if keyOffsets ≠ [] ∧ db.spentKeys kImage = none then
        (scanOutputkeysForIndexes checks db tx indexed.1 amount keyOffsets true
          maxRelatedBlockHeight).bind fun scanned =>
          if checks.isInCheckpointZone ∨
            checks.checkInputSignature tx indexed.2 txPrefixHash scanned.1 then
            some scanned.2
          else none
      else none
  | .zcInput keyOffsets kImage =>
      if db.spentKeys kImage = none then
        (scanOutputkeysForIndexes checks db tx indexed.1 0 keyOffsets checks.checkHf4CoinageRule
          maxRelatedBlockHeight).bind fun scanned =>
          if checks.isInCheckpointZone ∨
            checks.checkZcSignature tx indexed.2 txPrefixHash scanned.1 then
            some scanned.2
          else none
      else none
  | .multisig multisigOutId =>
      (db.multisigOuts multisigOutId).bind fun multisigPtr =>
        (db.transactions multisigPtr.txId).bind fun sourceTx =>
          if multisigPtr.spentHeight = 0 ∧
              (sourceTx.tx.vout[multisigPtr.outNo]?.bind TxOutV.multisigId).isSome ∧
              checks.spentFlag multisigPtr.txId multisigPtr.outNo = false ∧
              checks.checkMsInput tx indexed.2 txPrefixHash sourceTx.tx multisigPtr.outNo then
            some sourceTx.keeperBlockHeight
          else none
  | .gateway =>
      if checks.isInCheckpointZone ∨ checks.checkGatewaySignature tx indexed.2 txPrefixHash then
        some maxRelatedBlockHeight
      else none

/-- `check_tx_inputs` with `calculate_max_used_block_id`: `max_used_block_height` and
`max_used_block_id`. -/
def checkTxInputs (checks : InputChecks Hash KeyImage Key) (db : MainTables Hash KeyImage Key)
    (tx : Transaction Hash KeyImage Key) (txPrefixHash : Hash) : Option (ℕ × Hash) :=
  (tx.vin.zipIdx.foldlM (checkTxInput checks db tx txPrefixHash) 0).bind fun maxUsedBlockHeight =>
    if checks.isInCheckpointZone ∨ checks.checkAttachmentsAndAssetIds tx then
      db.blocks[maxUsedBlockHeight]?.map fun b => (maxUsedBlockHeight, b.id)
    else none

/-! ## The blocks that are used -/

/-- The heights of the blocks of the source transactions of an input. -/
def usedHeights (db : MainTables Hash KeyImage Key) (input : TxinV Hash KeyImage) : List ℕ :=
  let ofReferences := fun amount (keyOffsets : List (TxoutRefV Hash)) =>
    (keyOffsets.filterMap (outputReferredTo db amount)).filterMap fun source =>
      (db.transactions source.txId).map (·.keeperBlockHeight)
  match input with
  | .toKey amount keyOffsets _ => ofReferences amount keyOffsets
  | .zcInput keyOffsets _ => ofReferences 0 keyOffsets
  | .multisig multisigOutId =>
      ((db.multisigOuts multisigOutId).bind fun multisigPtr =>
        (db.transactions multisigPtr.txId).map (·.keeperBlockHeight)).toList
  | _ => []

/-- The height of the youngest block that the inputs use, and zero if they use none. -/
def youngestUsed (db : MainTables Hash KeyImage Key) (vin : List (TxinV Hash KeyImage)) : ℕ :=
  (vin.flatMap (usedHeights db)).foldl max 0

/-- The height that an input leaves behind. -/
def heightAfter (db : MainTables Hash KeyImage Key) (maxRelatedBlockHeight : ℕ)
    (input : TxinV Hash KeyImage) : ℕ :=
  match input with
  | .multisig _ => youngestUsed db [input]
  | _ => max maxRelatedBlockHeight (youngestUsed db [input])

theorem foldl_max_eq (heights : List ℕ) (start : ℕ) :
    heights.foldl max start = max start (heights.foldl max 0) := by
  have assoc := @List.foldl_assoc ℕ max _ heights start 0
  rwa [Nat.max_zero] at assoc

theorem youngestUsed_append (db : MainTables Hash KeyImage Key)
    (before after : List (TxinV Hash KeyImage)) :
    youngestUsed db (before ++ after) = max (youngestUsed db before) (youngestUsed db after) := by
  unfold youngestUsed
  rw [List.flatMap_append, List.foldl_append, foldl_max_eq]

theorem youngestUsed_cons (db : MainTables Hash KeyImage Key) (input : TxinV Hash KeyImage)
    (vin : List (TxinV Hash KeyImage)) :
    youngestUsed db (input :: vin) = max (youngestUsed db [input]) (youngestUsed db vin) :=
  youngestUsed_append db [input] vin

theorem scanReference_height {checks : InputChecks Hash KeyImage Key}
    {db : MainTables Hash KeyImage Key} {validatedTx : Transaction Hash KeyImage Key}
    {input : TxinV Hash KeyImage} {amount : UInt64} {mixins : ℕ} {o : TxoutRefV Hash}
    {found : TxOutV Hash Key × ℕ}
    (scanned : scanReference checks db validatedTx input amount mixins o = some found) :
    ((outputReferredTo db amount o).bind fun source =>
      (db.transactions source.txId).map (·.keeperBlockHeight)) = some found.2 := by
  obtain ⟨source, isSource, later⟩ := Option.bind_eq_some_iff.mp scanned
  obtain ⟨p, isTransaction, later⟩ := Option.bind_eq_some_iff.mp later
  obtain ⟨out, -, later⟩ := Option.bind_eq_some_iff.mp later
  obtain ⟨-, same⟩ := Option.ite_none_right_eq_some.mp later
  cases same
  rw [isSource, Option.bind_some, isTransaction, Option.map_some]

theorem heights_of_scan {checks : InputChecks Hash KeyImage Key} {db : MainTables Hash KeyImage Key}
    {validatedTx : Transaction Hash KeyImage Key} {input : TxinV Hash KeyImage} {amount : UInt64}
    {mixins : ℕ} {keyOffsets : List (TxoutRefV Hash)} {found : List (TxOutV Hash Key × ℕ)}
    (scanned : keyOffsets.mapM (scanReference checks db validatedTx input amount mixins) =
      some found) :
    (keyOffsets.filterMap (outputReferredTo db amount)).filterMap
      (fun source => (db.transactions source.txId).map (·.keeperBlockHeight)) =
        found.map (·.2) := by
  induction keyOffsets generalizing found with
  | nil =>
      cases scanned
      rfl
  | cons o keyOffsets inductionHypothesis =>
      rw [List.mapM_cons] at scanned
      obtain ⟨first, isFirst, rest⟩ := Option.bind_eq_some_iff.mp scanned
      obtain ⟨others, later, same⟩ := Option.bind_eq_some_iff.mp rest
      cases same
      rw [List.map_cons, ← inductionHypothesis later, List.filterMap_filterMap,
        List.filterMap_filterMap]
      exact List.filterMap_cons_some (scanReference_height isFirst)

theorem scanOutputkeysForIndexes_height {checks : InputChecks Hash KeyImage Key}
    {db : MainTables Hash KeyImage Key} {validatedTx : Transaction Hash KeyImage Key}
    {input : TxinV Hash KeyImage} {amount : UInt64} {keyOffsets : List (TxoutRefV Hash)}
    {checkHf4CoinageRule : Bool} {maxRelatedBlockHeight : ℕ} {scanned : List (TxOutV Hash Key) × ℕ}
    (isScanned :
      scanOutputkeysForIndexes checks db validatedTx input amount keyOffsets checkHf4CoinageRule
      maxRelatedBlockHeight = some scanned) :
    scanned.2 =
      max maxRelatedBlockHeight (((keyOffsets.filterMap (outputReferredTo db amount)).filterMap
      fun source => (db.transactions source.txId).map (·.keeperBlockHeight)).foldl max 0) := by
  unfold scanOutputkeysForIndexes at isScanned
  split at isScanned
  · contradiction
  · obtain ⟨found, isFound, later⟩ := Option.bind_eq_some_iff.mp isScanned
    obtain ⟨-, same⟩ := Option.ite_none_right_eq_some.mp later
    cases same
    rw [heights_of_scan isFound, ← foldl_max_eq]

/-- An input that passes leaves the youngest height with its own, and a multisig
input only its own. -/
theorem checkTxInput_height {checks : InputChecks Hash KeyImage Key}
    {db : MainTables Hash KeyImage Key} {tx : Transaction Hash KeyImage Key} {txPrefixHash : Hash}
    {maxRelatedBlockHeight after : ℕ} {input : TxinV Hash KeyImage} {n : ℕ}
    (checked :
      checkTxInput checks db tx txPrefixHash maxRelatedBlockHeight (input, n) = some after) :
    after = heightAfter db maxRelatedBlockHeight input := by
  cases input with
  | gen height => cases checked
  | htlc => cases checked
  | toKey amount keyOffsets kImage =>
      obtain ⟨-, later⟩ := Option.ite_none_right_eq_some.mp checked
      obtain ⟨scanned, isScanned, later⟩ := Option.bind_eq_some_iff.mp later
      obtain ⟨-, same⟩ := Option.ite_none_right_eq_some.mp later
      cases same
      rw [scanOutputkeysForIndexes_height isScanned]
      simp [heightAfter, youngestUsed, usedHeights]
  | zcInput keyOffsets kImage =>
      obtain ⟨-, later⟩ := Option.ite_none_right_eq_some.mp checked
      obtain ⟨scanned, isScanned, later⟩ := Option.bind_eq_some_iff.mp later
      obtain ⟨-, same⟩ := Option.ite_none_right_eq_some.mp later
      cases same
      rw [scanOutputkeysForIndexes_height isScanned]
      simp [heightAfter, youngestUsed, usedHeights]
  | multisig multisigOutId =>
      obtain ⟨multisigPtr, isPtr, later⟩ := Option.bind_eq_some_iff.mp checked
      obtain ⟨sourceTx, isSource, later⟩ := Option.bind_eq_some_iff.mp later
      obtain ⟨-, same⟩ := Option.ite_none_right_eq_some.mp later
      cases same
      simp [heightAfter, youngestUsed, usedHeights, isPtr, isSource]
  | gateway =>
      obtain ⟨-, same⟩ := Option.ite_none_right_eq_some.mp checked
      cases same
      simp [heightAfter, youngestUsed, usedHeights]

theorem foldlM_checkTxInput_height {checks : InputChecks Hash KeyImage Key}
    {db : MainTables Hash KeyImage Key} {tx : Transaction Hash KeyImage Key} {txPrefixHash : Hash}
    {vin : List (TxinV Hash KeyImage)} {n start after : ℕ}
    (checked : (vin.zipIdx n).foldlM (checkTxInput checks db tx txPrefixHash) start = some after) :
    after = vin.foldl (heightAfter db) start := by
  induction vin generalizing n start with
  | nil =>
      cases checked
      rfl
  | cons input vin inductionHypothesis =>
      rw [List.zipIdx_cons, List.foldlM_cons] at checked
      obtain ⟨next, isNext, later⟩ := Option.bind_eq_some_iff.mp checked
      rw [inductionHypothesis later, checkTxInput_height isNext, List.foldl_cons]

/-! ## The order of the inputs -/

theorem foldl_heightAfter_le (db : MainTables Hash KeyImage Key) (vin : List (TxinV Hash KeyImage))
    (start : ℕ) :
    vin.foldl (heightAfter db) start ≤ max start (youngestUsed db vin) := by
  induction vin generalizing start with
  | nil => exact le_max_left start _
  | cons input vin inductionHypothesis =>
      rw [List.foldl_cons, youngestUsed_cons]
      apply (inductionHypothesis _).trans
      have raised : heightAfter db start input ≤ max start (youngestUsed db [input]) := by
        unfold heightAfter
        cases input <;> simp
      omega

/-- The height after all inputs is the youngest, unless a multisig input forgets one that
does not come again. -/
theorem foldl_heightAfter_eq_iff (db : MainTables Hash KeyImage Key)
    (vin : List (TxinV Hash KeyImage)) (start : ℕ) :
    vin.foldl (heightAfter db) start = max start (youngestUsed db vin) ↔
      ∀ before multisigOutId after, vin = before ++ .multisig multisigOutId :: after →
        max start (youngestUsed db before) ≤
          youngestUsed db (.multisig multisigOutId :: after) := by
  induction vin generalizing start with
  | nil => simp [youngestUsed]
  | cons input vin inductionHypothesis =>
      rw [List.foldl_cons, youngestUsed_cons]
      by_cases isMultisig : ∃ multisigOutId, input = .multisig multisigOutId
      · obtain ⟨own, rfl⟩ := isMultisig
        have later := inductionHypothesis (youngestUsed db [.multisig own])
        have bound := foldl_heightAfter_le db vin (youngestUsed db [.multisig own])
        change vin.foldl (heightAfter db) (youngestUsed db [.multisig own]) = _ ↔ _
        constructor
        · intro total before multisigOutId after same
          cases before with
          | nil =>
              cases same
              have none : youngestUsed db ([] : List (TxinV Hash KeyImage)) = 0 := rfl
              rw [none, youngestUsed_cons]
              omega
          | cons input before =>
              rw [List.cons_append] at same
              obtain ⟨rfl, rfl⟩ := List.cons.inj same
              have here := later.mp (by omega) before multisigOutId after rfl
              rw [youngestUsed_append] at total bound
              rw [youngestUsed_cons]
              omega
        · intro splits
          have here := splits [] own vin rfl
          have total := later.mpr (by
            intro before multisigOutId after same
            have there :=
              splits (.multisig own :: before) multisigOutId after (by rw [same, List.cons_append])
            rw [youngestUsed_cons] at there
            omega)
          rw [youngestUsed_cons] at here
          omega
      · have kept : heightAfter db start input = max start (youngestUsed db [input]) := by
          unfold heightAfter
          cases input with
          | multisig own => exact absurd ⟨own, rfl⟩ isMultisig
          | _ => rfl
        rw [kept, ← max_assoc, inductionHypothesis]
        constructor
        · intro splits before multisigOutId after same
          cases before with
          | nil =>
              cases same
              exact absurd ⟨_, rfl⟩ isMultisig
          | cons input before =>
              rw [List.cons_append] at same
              obtain ⟨rfl, rfl⟩ := List.cons.inj same
              rw [youngestUsed_cons, ← max_assoc]
              exact splits before multisigOutId after rfl
        · intro splits before multisigOutId after same
          have there :=
            splits (input :: before) multisigOutId after (by rw [same, List.cons_append])
          rwa [youngestUsed_cons, ← max_assoc] at there

/-- The two results name the youngest block that the inputs use exactly if at every multisig input
the blocks that the inputs before it use are not younger than all that it and the later ones use. -/
theorem checkTxInputs_youngest_iff (checks : InputChecks Hash KeyImage Key)
    (db : MainTables Hash KeyImage Key) (tx : Transaction Hash KeyImage Key) (txPrefixHash : Hash)
    (maxUsedBlockHeight : ℕ) (maxUsedBlockId : Hash)
    (checked :
      checkTxInputs checks db tx txPrefixHash = some (maxUsedBlockHeight, maxUsedBlockId)) :
    (maxUsedBlockHeight = youngestUsed db tx.vin ∧
        db.blocks[maxUsedBlockHeight]?.map (·.id) = some maxUsedBlockId) ↔
      ∀ before multisigOutId after, tx.vin = before ++ .multisig multisigOutId :: after →
        youngestUsed db before ≤ youngestUsed db (.multisig multisigOutId :: after) := by
  obtain ⟨height, isHeight, later⟩ := Option.bind_eq_some_iff.mp checked
  obtain ⟨-, isBlock⟩ := Option.ite_none_right_eq_some.mp later
  obtain ⟨b, found, same⟩ := Option.map_eq_some_iff.mp isBlock
  cases same
  have order := foldl_heightAfter_eq_iff db tx.vin 0
  rw [← foldlM_checkTxInput_height isHeight] at order
  simpa [found] using order

/-! ## A multisig input after a younger one -/

section Concrete

def trustingInputs : InputChecks Nat Nat Unit where
  isInCheckpointZone := false
  checkHf4CoinageRule := false
  isHardforkActiveForHeight := fun _ => false
  isMixattrApplicable := fun _ _ _ => true
  validateOutputKeyLegit := fun _ => true
  handleOutput := fun _ _ _ _ => true
  spentFlag := fun _ _ => false
  checkInputSignature := fun _ _ _ _ => true
  checkZcSignature := fun _ _ _ _ => true
  checkMsInput := fun _ _ _ _ _ => true
  checkGatewaySignature := fun _ _ _ => true
  checkAttachmentsAndAssetIds := fun _ => true

/-- The genesis block has a multisig output, and the block on top of it a bare one. -/
def multisigBelow : MainTables Nat Nat Unit :=
  (([{ genesisBlock with bl := { genesisBlock.bl with minerTx := ⟨[.gen 0], [.bareMultisig 77]⟩ } },
    mainBlock 1 0 1 7].foldlM MainTables.pushBlock MainTables.empty).getD .empty)

/-- The multisig output is spent first, and the height of the other one is kept. -/
theorem checkTxInputs_youngest_iff_multisig_first : ∃ result,
    checkTxInputs trustingInputs multisigBelow ⟨[.multisig 77, .toKey 7 [.globalIndex 0] 42], []⟩
      0 = some result ∧
      ((result.1 = youngestUsed multisigBelow [.multisig 77, .toKey 7 [.globalIndex 0] 42] ∧
          multisigBelow.blocks[result.1]?.map (·.id) = some result.2) ↔
        ∀ before multisigOutId after,
          [TxinV.multisig 77,
            .toKey 7 [.globalIndex 0] 42] = before ++ TxinV.multisig multisigOutId :: after →
          youngestUsed multisigBelow before ≤
            youngestUsed multisigBelow (.multisig multisigOutId :: after)) :=
  ⟨(1, 1), rfl,
    checkTxInputs_youngest_iff trustingInputs multisigBelow
      ⟨[.multisig 77, .toKey 7 [.globalIndex 0] 42], []⟩
    0 1 1 rfl⟩

/-- The multisig output is spent last, and the block of the other one is forgotten. -/
theorem used_block_forgotten :
    ¬ ∀ (checks : InputChecks Nat Nat Unit) (db : MainTables Nat Nat Unit)
    (tx : Transaction Nat Nat Unit) (txPrefixHash maxUsedBlockHeight maxUsedBlockId : ℕ),
    checkTxInputs checks db tx txPrefixHash = some (maxUsedBlockHeight, maxUsedBlockId) →
      maxUsedBlockHeight = youngestUsed db tx.vin ∧
        db.blocks[maxUsedBlockHeight]?.map (·.id) = some maxUsedBlockId := by
  intro youngest
  have here := (youngest trustingInputs multisigBelow
    ⟨[.toKey 7 [.globalIndex 0] 42, .multisig 77], []⟩ 0 0 0 rfl).1
  revert here
  decide

end Concrete

end Zano.AltBlocks
