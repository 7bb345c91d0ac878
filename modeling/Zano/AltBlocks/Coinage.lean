import Mathlib
import Zano.AltBlocks.OutputIndexes

/-! # The coinage rule

Since the fourth hardfork an input may not refer to outputs that are less than ten blocks deep. On
the main chain the youngest block that an input refers to is compared with the size of the chain,
which is the height of the new block. On an alternative chain it is compared with a height that is
one too large, and outputs that are found in the alternative chain itself do not count.
-/

namespace Zano.AltBlocks

open Blockchain (TxoutRefV GlobalOutputEntry)

variable {Hash KeyImage Key : Type*} [DecidableEq Hash] [DecidableEq KeyImage]

/-- The rule at the end of `scan_outputkeys_for_indexes`. -/
def ScanAcceptsCoinage (env : Environment Hash KeyImage Key)
    (currentBlockchainSize maxRelatedBlockHeight : ℕ) : Prop :=
  env.isHardforkActiveForHeight currentBlockchainSize →
    currencyHf4MandatoryMinCoinage ≤ currentBlockchainSize - maxRelatedBlockHeight

/-! ## Where an output is -/

/-- The height of the block that a reference leads to, and whether this is a block
of the main chain. -/
def sourceBlock (env : Environment Hash KeyImage Key) (db : MainTables Hash KeyImage Key)
    (altChain : AltChain Hash KeyImage Key) (amount : UInt64)
    (off : TxoutRefV Hash) : Option (ℕ × Bool) :=
  let inMainChain :=
    fun (txId : Hash) => (db.transactions txId).map fun p => (p.keeperBlockHeight, true)
  match off with
  | .globalIndex offsetGindex =>
      match resolveGlobalIndex db altChain amount offsetGindex with
      | none => none
      | some (.inl (_, height)) => some (height, false)
      | some (.inr source) => inMainChain source.txId
  | .refById txId _ =>
      match (altChainTxIds env altChain).find? fun e => e.1 = txId with
      | some (_, _, height) => some (height, false)
      | none => inMainChain txId

/-- The height of the youngest block that the references lead to. -/
def youngestSource (env : Environment Hash KeyImage Key) (db : MainTables Hash KeyImage Key)
    (altChain : AltChain Hash KeyImage Key) (amount : UInt64)
    (keyOffsets : List (TxoutRefV Hash)) : ℕ :=
  ((keyOffsets.filterMap (sourceBlock env db altChain amount)).map (·.1)).foldl max 0

/-- The height of the youngest block of the main chain that the references lead to. -/
def youngestMainSource (env : Environment Hash KeyImage Key) (db : MainTables Hash KeyImage Key)
    (altChain : AltChain Hash KeyImage Key) (amount : UInt64)
    (keyOffsets : List (TxoutRefV Hash)) : ℕ :=
  (((keyOffsets.filterMap (sourceBlock env db altChain amount)).filter (·.2)).map (·.1)).foldl max 0

omit [DecidableEq Hash] [DecidableEq KeyImage] in
theorem sourceBlock_of_lookup {env : Environment Hash KeyImage Key}
    {db : MainTables Hash KeyImage Key} {heightOfCurrentAltBlock splitHeight mixins height : ℕ}
    {source : GlobalOutputEntry Hash} {out : TxOutV Hash Key}
    (found : lookupMainOutput env db heightOfCurrentAltBlock splitHeight mixins source =
      some (out, height)) :
    (db.transactions source.txId).map (fun p => (p.keeperBlockHeight, true)) =
      some (height, true) := by
  unfold lookupMainOutput at found
  cases isTransaction : db.transactions source.txId with
  | none => simp [isTransaction] at found
  | some p =>
      simp only [isTransaction] at found
      split at found
      · contradiction
      · obtain ⟨-, same⟩ := Option.ite_none_right_eq_some.mp found
        cases same
        rfl

omit [DecidableEq KeyImage] in
/-- A reference that is resolved leads to a block, and its height is told if this is one
of the main chain. -/
theorem sourceBlock_of_resolveReference {env : Environment Hash KeyImage Key}
    {db : MainTables Hash KeyImage Key} {altChain : AltChain Hash KeyImage Key}
    {splitHeight mixins : ℕ} {input : TxinV Hash KeyImage} {amount : UInt64} {off : TxoutRefV Hash}
    {out : TxOutV Hash Key} {fromMain : Option ℕ}
    (resolved :
      resolveReference env db altChain splitHeight input amount mixins off = some (out, fromMain)) :
    ∃ height, sourceBlock env db altChain amount off = some (height, fromMain.isSome) ∧
      ∀ own, fromMain = some own → own = height := by
  have ofMain : ∀ {current : ℕ} {source : GlobalOutputEntry Hash},
      ((lookupMainOutput env db current splitHeight mixins source).bind fun found =>
        if isOutputAllowedForInput found.1 input then some (found.1, some found.2) else none) =
          some (out, fromMain) →
      ∃ height, (db.transactions source.txId).map (fun p => (p.keeperBlockHeight, true)) =
      some (height, fromMain.isSome) ∧
        ∀ own, fromMain = some own → own = height := by
    intro current source resolved
    obtain ⟨⟨out', height⟩, found, allowed⟩ := Option.bind_eq_some_iff.mp resolved
    obtain ⟨-, same⟩ := Option.ite_none_right_eq_some.mp allowed
    cases same
    refine ⟨height, sourceBlock_of_lookup found, ?_⟩
    intro own isOwn
    exact (Option.some.inj isOwn).symm
  have ofAlt : ∀ {condition : Prop} [Decidable condition] {out' : TxOutV Hash Key} {height : ℕ},
      (if condition then some (out', none) else none) = some (out, fromMain) →
      ∃ height', some (height, false) = some (height', fromMain.isSome) ∧
        ∀ own, fromMain = some own → own = height' := by
    intro condition _ out' height resolved
    obtain ⟨-, same⟩ := Option.ite_none_right_eq_some.mp resolved
    cases same
    exact ⟨height, rfl, fun own isOwn => by cases isOwn⟩
  unfold resolveReference at resolved
  unfold sourceBlock
  dsimp only at resolved ⊢
  cases off with
  | globalIndex offsetGindex =>
      dsimp only at resolved ⊢
      cases isSource : resolveGlobalIndex db altChain amount offsetGindex with
      | none => simp [isSource] at resolved
      | some source =>
          rw [isSource] at resolved
          cases source with
          | inl found => exact ofAlt resolved
          | inr source => exact ofMain resolved
  | refById txId n =>
      dsimp only at resolved ⊢
      cases isEntry : (altChainTxIds env altChain).find? fun e => e.1 = txId with
      | none =>
          rw [isEntry] at resolved
          exact ofMain resolved
      | some entry =>
          rw [isEntry] at resolved
          obtain ⟨id, tx, height⟩ := entry
          dsimp only at resolved ⊢
          split at resolved
          · contradiction
          · exact ofAlt resolved

omit [DecidableEq KeyImage] in
/-- The heights that the rule for alternative blocks goes by are those of the references
into the main chain. -/
theorem mainHeights_of_ring {env : Environment Hash KeyImage Key}
    {db : MainTables Hash KeyImage Key} {altChain : AltChain Hash KeyImage Key}
    {splitHeight mixins : ℕ} {input : TxinV Hash KeyImage} {amount : UInt64}
    {keyOffsets : List (TxoutRefV Hash)} {ring : List (TxOutV Hash Key × Option ℕ)}
    (resolved : keyOffsets.mapM (resolveReference env db altChain splitHeight input amount mixins) =
      some ring) :
    ring.filterMap (·.2) =
      ((keyOffsets.filterMap (sourceBlock env db altChain amount)).filter (·.2)).map (·.1) := by
  induction keyOffsets generalizing ring with
  | nil =>
      cases resolved
      rfl
  | cons off keyOffsets inductionHypothesis =>
      rw [List.mapM_cons] at resolved
      obtain ⟨⟨out, fromMain⟩, first, rest⟩ := Option.bind_eq_some_iff.mp resolved
      obtain ⟨others, later, same⟩ := Option.bind_eq_some_iff.mp rest
      cases same
      obtain ⟨height, isBlock, isHeight⟩ := sourceBlock_of_resolveReference first
      cases fromMain with
      | none => simp [isBlock, inductionHypothesis later]
      | some own => simp [isBlock, inductionHypothesis later, isHeight own rfl]

/-! ## The rule for alternative blocks -/

theorem foldl_max_mono (heights : List ℕ) {start start' : ℕ} (later : start ≤ start') :
    heights.foldl max start ≤ heights.foldl max start' := by
  induction heights generalizing start start' with
  | nil => exact later
  | cons height heights inductionHypothesis =>
      exact inductionHypothesis (max_le_max_right height later)

theorem foldl_max_le_of_sublist {heights others : List ℕ} (sublist : heights.Sublist others)
    (start : ℕ) :
    heights.foldl max start ≤ others.foldl max start := by
  induction sublist generalizing start with
  | slnil => exact le_rfl
  | cons height _ inductionHypothesis =>
      apply (inductionHypothesis start).trans
      exact foldl_max_mono _ (le_max_left start height)
  | cons_cons height _ inductionHypothesis => exact inductionHypothesis (max start height)

omit [DecidableEq KeyImage] in
theorem youngestMainSource_le (env : Environment Hash KeyImage Key)
    (db : MainTables Hash KeyImage Key) (altChain : AltChain Hash KeyImage Key) (amount : UInt64)
    (keyOffsets : List (TxoutRefV Hash)) :
    youngestMainSource env db altChain amount keyOffsets ≤
      youngestSource env db altChain amount keyOffsets :=
  foldl_max_le_of_sublist (List.filter_sublist.map _) 0

/-- What `validate_alt_block_input` asks for besides the coinage. -/
def PassesOtherChecks (env : Environment Hash KeyImage Key) (s : Node Hash KeyImage Key)
    (altChain : AltChain Hash KeyImage Key) (splitHeight : ℕ) (altChainBlockIds : List Hash)
    (collectedKeyimages : List KeyImage) (tx : Transaction Hash KeyImage Key) (txId : Hash) (n : ℕ)
    (input : TxinV Hash KeyImage) (amount : UInt64) (keyOffsets : List (TxoutRefV Hash))
    (ki : KeyImage) : Prop :=
  checkKeyImage s.main.db s.altblocksKeyimages splitHeight altChainBlockIds collectedKeyimages ki =
    true ∧
    keyOffsets ≠ [] ∧
      ∃ ring, keyOffsets.mapM
          (resolveReference env s.main.db altChain splitHeight input amount
            (keyOffsets.length - 1)) = some ring ∧
        env.checkInputSignature tx n txId (ring.map (·.1)) = true

theorem validateAltBlockInput_isSome_iff {env : Environment Hash KeyImage Key}
    {s : Node Hash KeyImage Key} {altChain : AltChain Hash KeyImage Key} {splitHeight : ℕ}
    {altChainBlockIds : List Hash} {collectedKeyimages : List KeyImage}
    {tx : Transaction Hash KeyImage Key} {txId : Hash} {n : ℕ} {input : TxinV Hash KeyImage}
    {amount : UInt64} {keyOffsets : List (TxoutRefV Hash)} {ki : KeyImage} :
    (validateAltBlockInput env s altChain splitHeight altChainBlockIds collectedKeyimages tx txId n
      input amount
        keyOffsets ki).isSome = true ↔
      PassesOtherChecks env s altChain splitHeight altChainBlockIds collectedKeyimages tx txId n
        input amount
          keyOffsets ki ∧
        (env.isHardforkActiveForHeight (splitHeight + altChain.length + 1) = true →
          currencyHf4MandatoryMinCoinage ≤ splitHeight + altChain.length + 1 -
            youngestMainSource env s.main.db altChain amount keyOffsets) := by
  unfold validateAltBlockInput PassesOtherChecks youngestMainSource
  cases isRing : keyOffsets.mapM
      (resolveReference env s.main.db altChain splitHeight input amount
        (keyOffsets.length - 1)) with
  | none => simp
  | some ring =>
      rw [← mainHeights_of_ring isRing]
      split
      · next first =>
          dsimp only [Option.bind_some]
          split
          · next second =>
              simp only [Option.isSome_some, first.1, Option.some.injEq, exists_eq_left', second.1,
                and_true, true_and, true_iff]
              exact ⟨first.2, second.2⟩
          · next second =>
              simp only [Option.isSome_none, Bool.false_eq_true, false_iff]
              rintro ⟨⟨-, -, other, same, signed⟩, coinage⟩
              cases same
              exact second ⟨signed, coinage⟩
      · next first =>
          simp only [Option.isSome_none, Bool.false_eq_true, false_iff]
          rintro ⟨⟨keyImage, notEmpty, -⟩, -⟩
          exact first ⟨keyImage, notEmpty⟩

/-- On top of an alternative chain after the fourth hardfork, an input that passes all other checks
is judged by the rule of the main chain, unless the youngest block that it refers to is less than
ten blocks deep and the youngest one of the main chain at least nine. The height of the new block is
that of the split and the number of blocks after it. -/
theorem alt_coinage_iff (env : Environment Hash KeyImage Key) (s : Node Hash KeyImage Key)
    (altChain : AltChain Hash KeyImage Key) (splitHeight : ℕ) (altChainBlockIds : List Hash)
    (collectedKeyimages : List KeyImage) (tx : Transaction Hash KeyImage Key) (txId : Hash) (n : ℕ)
    (input : TxinV Hash KeyImage) (amount : UInt64) (keyOffsets : List (TxoutRefV Hash))
    (ki : KeyImage) (active : ∀ height, splitHeight + altChain.length ≤ height →
      env.isHardforkActiveForHeight height = true) :
    ((validateAltBlockInput env s altChain splitHeight altChainBlockIds collectedKeyimages tx txId n
      input amount
          keyOffsets ki).isSome = true ↔
        PassesOtherChecks env s altChain splitHeight altChainBlockIds collectedKeyimages tx txId n
          input amount
            keyOffsets ki ∧
          ScanAcceptsCoinage env (splitHeight + altChain.length)
            (youngestSource env s.main.db altChain amount keyOffsets)) ↔
      (PassesOtherChecks env s altChain splitHeight altChainBlockIds collectedKeyimages tx txId n
        input amount
          keyOffsets ki →
        ¬(splitHeight + altChain.length -
          youngestSource env s.main.db altChain amount keyOffsets < 10 ∧
          9 ≤ splitHeight + altChain.length -
            youngestMainSource env s.main.db altChain amount keyOffsets)) := by
  have ordered := youngestMainSource_le env s.main.db altChain amount keyOffsets
  have here := active (splitHeight + altChain.length) le_rfl
  have next := active (splitHeight + altChain.length + 1) (Nat.le_succ _)
  rw [validateAltBlockInput_isSome_iff, ScanAcceptsCoinage, here, next,
    currencyHf4MandatoryMinCoinage]
  by_cases passes :
    PassesOtherChecks env s altChain splitHeight altChainBlockIds collectedKeyimages tx txId n input
      amount keyOffsets ki
  · simp only [passes, true_and, forall_const]
    omega
  · simp [passes]

/-! ## Nine blocks below the new one -/

section Concrete

def hardforkActive : Environment Nat Nat Unit :=
  { trusting nowhere 0 with isHardforkActiveForHeight := fun _ => true }

/-- The genesis block and eleven blocks on top of it. -/
def elevenMore : List (FullBlock Nat Nat Unit) :=
  genesisBlock :: (List.range 11).map fun i => mainBlock (i + 1) i (i + 1) 7

def elevenOnTop : MainChain Nat Nat Unit where
  blocks := elevenMore
  db := ((elevenMore.foldlM MainTables.pushBlock MainTables.empty).getD .empty)
  built := rfl

/-- At height ten both rules let the output of the genesis block be spent. -/
theorem alt_coinage_iff_ten_deep :
    (validateAltBlockInput hardforkActive (start elevenOnTop) [] 10 [] [] (spender 42) 7 0
      (.toKey 5 [.globalIndex 0] 42)
        5 [.globalIndex 0] 42).isSome = true ∧
      ((validateAltBlockInput hardforkActive (start elevenOnTop) [] 10 [] [] (spender 42) 7 0
          (.toKey 5 [.globalIndex 0] 42) 5 [.globalIndex 0] 42).isSome = true ↔
        PassesOtherChecks hardforkActive (start elevenOnTop) [] 10 [] [] (spender 42) 7 0
          (.toKey 5 [.globalIndex 0] 42)
            5 [.globalIndex 0] 42 ∧
          ScanAcceptsCoinage hardforkActive 10
            (youngestSource hardforkActive (start elevenOnTop).main.db [] 5 [.globalIndex 0])) := by
  refine ⟨by decide, ?_⟩
  apply (alt_coinage_iff hardforkActive (start elevenOnTop) [] 10 [] [] (spender 42) 7 0 _ 5
    [.globalIndex 0] 42
    (fun _ _ => rfl)).mpr
  intro _
  decide

/-- The output of the genesis block is spent in an alternative block at height nine. -/
theorem nine_deep_accepted : ¬ ∀ (env : Environment Nat Nat Unit) (s : Node Nat Nat Unit)
    (altChain : AltChain Nat Nat Unit) (splitHeight : ℕ) (altChainBlockIds : List ℕ)
    (collectedKeyimages : List ℕ) (tx : Transaction Nat Nat Unit) (txId n : ℕ)
    (input : TxinV Nat Nat) (amount : UInt64) (keyOffsets : List (TxoutRefV Nat)) (ki : ℕ),
    (∀ height, splitHeight + altChain.length ≤ height →
      env.isHardforkActiveForHeight height = true) →
    ((validateAltBlockInput env s altChain splitHeight altChainBlockIds collectedKeyimages tx txId n
      input amount
          keyOffsets ki).isSome = true ↔
        PassesOtherChecks env s altChain splitHeight altChainBlockIds collectedKeyimages tx txId n
          input amount
            keyOffsets ki ∧
          ScanAcceptsCoinage env (splitHeight + altChain.length)
            (youngestSource env s.main.db altChain amount keyOffsets)) := by
  intro same
  have accepted :
      (validateAltBlockInput hardforkActive (start elevenOnTop) [] 9 [] [] (spender 42) 7 0
      (.toKey 5 [.globalIndex 0] 42) 5 [.globalIndex 0] 42).isSome = true := by decide
  have coinage := ((same hardforkActive (start elevenOnTop) [] 9 [] [] (spender 42) 7 0 _ _ _ _
    (fun _ _ => rfl)).mp accepted).2 rfl
  revert coinage
  decide

end Concrete

end Zano.AltBlocks
