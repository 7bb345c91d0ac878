import Mathlib
import Zano.Lib.Transition
import Zano.AltBlocks.Lineages
import Zano.AltBlocks.SideTables

/-! # Double spends in alternative chains

A block that is accepted on an alternative chain spends no key image that the main chain below the
split, a block of the alternative chain or another input of the block spends. For the outputs of
multisig inputs the validation looks at less: not at the other inputs of the block, not at the
alternative chain when the output is in the main chain below the split, and otherwise at the
alternative chain down to the transaction that has the output.
-/

namespace Zano.AltBlocks

open Transition

variable {Hash KeyImage Key : Type*} [DecidableEq Hash] [DecidableEq KeyImage]
  {preimages : Preimages Hash KeyImage Key} {s s' : Node Hash KeyImage Key}

/-- The blocks are what their ids stand for, no lineage of an alternative block spends a key image
twice, and the heap lists every alternative block for its key images. -/
structure LineagesKnown (preimages : Preimages Hash KeyImage Key)
    (s : Node Hash KeyImage Key) : Prop where
  main : GenuineMain preimages s.main
  alts : ∀ id abei, s.altBlock id = some abei → GenuineAlt preimages id abei
  lineages : ∀ id abei, s.altBlock id = some abei → ∃ before, Lineage preimages (before ++ [id]) ∧
    ((before ++ [id]).flatMap preimages.keyImages).Nodup
  covered : ∀ id abei, s.altBlock id = some abei →
    ∀ ki ∈ abei.keyImages, id ∈ listed s.altblocksKeyimages ki

/-- The blocks below a new block on an alternative chain: of the main chain below the split,
and of the chain. -/
def lineageBelow (s : Node Hash KeyImage Key) (altChain : AltChain Hash KeyImage Key)
    (splitHeight : Nat) : List Hash :=
  (s.main.blocks.take splitHeight).map FullBlock.id ++ altChain.map (·.1)

omit [DecidableEq Hash] [DecidableEq KeyImage] in
theorem Lineage.eq_of_getLast {ids ids' : List Hash} {last : Hash} (lineage : Lineage preimages ids)
    (lineage' : Lineage preimages ids') (isLast : ids.getLast? = some last)
    (isLast' : ids'.getLast? = some last) :
    ids = ids' :=
  HashChain.Chained.eq_of_getLast lineage lineage' (fun _ _ _ _ same => same) isLast isLast' rfl

theorem GenuineMain.lineage_take (genuine : GenuineMain preimages s.main) (height : Nat) :
    Lineage preimages ((s.main.blocks.take height).map FullBlock.id) := by
  rw [List.map_take]
  exact HashChain.Chained.take genuine.lineage height

omit [DecidableEq Hash] [DecidableEq KeyImage] in
theorem getLast?_take_map_id {blocks : List (FullBlock Hash KeyImage Key)} {height : Nat}
    {id : Hash} (positive : 0 < height)
    (isThere : (blocks[height - 1]?).map FullBlock.id = some id) :
    ((blocks.take height).map FullBlock.id).getLast? = some id := by
  obtain ⟨b, isBlock, rfl⟩ := Option.map_eq_some_iff.mp isThere
  obtain ⟨inside, same⟩ := List.getElem?_eq_some_iff.mp isBlock
  rw [List.getLast?_eq_getElem?, List.length_map, List.length_take, List.getElem?_map,
    List.getElem?_take]
  have last : min height blocks.length - 1 = height - 1 := by omega
  rw [last, if_pos (by omega), isBlock]
  rfl

/-- What a block that is connected is added to is a lineage of the previous block. -/
theorem LineagesKnown.lineageBelow_spec (known : LineagesKnown preimages s) {prevId : Hash}
    {height splitHeight : Nat}
    (connected : connect s.main.db (altChainOf s.alternativeChains prevId) prevId =
      some (height, splitHeight)) :
    Lineage preimages (lineageBelow s (altChainOf s.alternativeChains prevId) splitHeight) ∧
      (lineageBelow s (altChainOf s.alternativeChains prevId) splitHeight).getLast? = some prevId ∧
      (lineageBelow s (altChainOf s.alternativeChains prevId) splitHeight).length = height := by
  unfold lineageBelow
  cases isThere : s.alternativeChains.lookup prevId with
  | none =>
      have nothing : altChainOf s.alternativeChains prevId = [] := by rw [altChainOf, isThere]
      rw [nothing] at connected ⊢
      obtain ⟨h, inMain, same⟩ := Option.map_eq_some_iff.mp connected
      cases same
      rw [List.map_nil, List.append_nil]
      have isId := mainHeight_eq_some inMain
      rw [s.main.tablesOf.same] at isId
      have inside : h < s.main.blocks.length := by
        by_contra outside
        rw [List.getElem?_eq_none (by omega)] at isId
        cases isId
      refine ⟨known.main.lineage_take (h + 1), getLast?_take_map_id (Nat.succ_pos h) isId, ?_⟩
      rw [List.length_map, List.length_take]
      omega
  | some prev =>
      have isGenuine := known.alts prevId prev isThere
      obtain ⟨before, lineage, -⟩ := known.lineages prevId prev isThere
      have chain : altChainOf s.alternativeChains prevId =
          altChainTo s.alternativeChains prev.height prevId := by
        rw [altChainOf, isThere]
      obtain ⟨n, isSuffix⟩ : ∃ n, (altChainTo s.alternativeChains prev.height prevId).map (·.1) =
          (before ++ [prevId]).drop n := altChainTo_suffix known.alts lineage
      obtain ⟨earlier, ends⟩ : ∃ earlier, altChainOf s.alternativeChains prevId =
          earlier ++ [(prevId, prev)] := by
        obtain ⟨h, isHeight⟩ : ∃ h, prev.height = h + 1 :=
          ⟨prev.height - 1, by have := isGenuine.positive; omega⟩
        rw [chain, isHeight, altChainTo, isThere]
        exact ⟨_, rfl⟩
      rw [← chain] at isSuffix
      have prevHeight : prev.height = before.length := by
        rw [isGenuine.height]
        exact (HashChain.chained_snoc_iff.mp lineage).2.2
      cases fronts : altChainOf s.alternativeChains prevId with
      | nil =>
          rw [fronts] at ends
          simp at ends
      | cons front rest =>
          have frontThere : s.altBlock front.1 = some front.2 :=
            lookup_of_mem_altChainOf (by rw [fronts]; exact List.mem_cons_self)
          have frontGenuine := known.alts front.1 front.2 frontThere
          unfold connect at connected
          rw [ends, List.getLast?_concat, ← ends, fronts] at connected
          dsimp only at connected
          split at connected
          · rename_i meets
            obtain ⟨short, inMain⟩ := meets
            cases connected
            have isFront : (before ++ [prevId])[n]? = some front.1 := by
              rw [fronts] at isSuffix
              rw [← List.head?_drop, ← isSuffix]
              rfl
            have isSplit : front.2.height = n := by
              rw [frontGenuine.height]
              exact HashChain.Chained.place_eq lineage isFront
            have positive := frontGenuine.positive
            have inside : n < (before ++ [prevId]).length :=
              (List.getElem?_eq_some_iff.mp isFront).1
            rw [s.main.tablesOf.same] at inMain short
            have belowSplit : (s.main.blocks.take front.2.height).map FullBlock.id =
                (before ++ [prevId]).take n := by
              refine (known.main.lineage_take _).eq_of_getLast (HashChain.Chained.take lineage n)
                (getLast?_take_map_id positive inMain) ?_
              rw [List.getLast?_eq_getElem?, List.length_take, List.getElem?_take]
              have last : min n (before ++ [prevId]).length - 1 = n - 1 := by omega
              rw [last, if_pos (by omega), List.getElem?_eq_getElem (by omega)]
              have isPrev : (before ++ [prevId])[n - 1]? = some ((before ++ [prevId])[n - 1]) :=
                List.getElem?_eq_getElem (by omega)
              have isNext : (before ++ [prevId])[n - 1 + 1]? = some front.1 := by
                rw [← isFront]
                congr 1
                omega
              rw [frontGenuine.bl, HashChain.Chained.previous_eq lineage isPrev isNext]
              rfl
            have whole :
                (s.main.blocks.take front.2.height).map FullBlock.id ++ (front :: rest).map (·.1) =
                before ++ [prevId] := by
              rw [belowSplit, ← fronts, isSuffix, List.take_append_drop]
            rw [whole]
            refine ⟨lineage, List.getLast?_concat, ?_⟩
            rw [List.length_append, List.length_singleton, prevHeight]
          · cases connected

/-- What holds of the main chain and of every lineage of an alternative block holds of what a
block is added to. -/
theorem LineagesKnown.holds_below {P : List Hash → Prop} (known : LineagesKnown preimages s)
    (ofMain : ∀ height, P ((s.main.blocks.take height).map FullBlock.id))
    (ofAlts : ∀ id abei, s.altBlock id = some abei → ∀ before, Lineage preimages (before ++ [id]) →
      P (before ++ [id]))
    {prevId : Hash} {height splitHeight : Nat}
    (connected : connect s.main.db (altChainOf s.alternativeChains prevId) prevId =
      some (height, splitHeight)) :
    P (lineageBelow s (altChainOf s.alternativeChains prevId) splitHeight) := by
  obtain ⟨lineage, isLast, -⟩ := known.lineageBelow_spec connected
  cases isThere : s.altBlock prevId with
  | none =>
      have missing : s.alternativeChains.lookup prevId = none := isThere
      have nothing : altChainOf s.alternativeChains prevId = [] := by rw [altChainOf, missing]
      rw [lineageBelow, nothing, List.map_nil, List.append_nil]
      exact ofMain splitHeight
  | some prev =>
      obtain ⟨before, lineage', -⟩ := known.lineages prevId prev isThere
      rw [lineage.eq_of_getLast lineage' isLast List.getLast?_concat]
      exact ofAlts prevId prev isThere before lineage'

omit [DecidableEq Hash] [DecidableEq KeyImage] in
theorem flatMap_map_id {α : Type*} {f : FullBlock Hash KeyImage Key → List α} {g : Hash → List α}
    {blocks : List (FullBlock Hash KeyImage Key)} (same : ∀ b ∈ blocks, f b = g b.id) :
    (blocks.map FullBlock.id).flatMap g = blocks.flatMap f := by
  induction blocks with
  | nil => rfl
  | cons b rest inductionHypothesis =>
      rw [List.map_cons, List.flatMap_cons, List.flatMap_cons, same b List.mem_cons_self,
        inductionHypothesis fun b' inside => same b' (List.mem_cons_of_mem b inside)]

/-- The key images of the main chain up to a height. -/
theorem GenuineMain.nodup_keyImages (genuine : GenuineMain preimages s.main) (height : Nat) :
    (((s.main.blocks.take height).map FullBlock.id).flatMap preimages.keyImages).Nodup := by
  have same : ∀ b ∈ s.main.blocks.take height, b.keyImages = preimages.keyImages b.id :=
    fun b inside => (genuine b (List.mem_of_mem_take inside)).keyImages_eq
  rw [flatMap_map_id same]
  have whole := s.main.nodup_keyImages
  rw [← List.take_append_drop height s.main.blocks, List.flatMap_append] at whole
  exact (List.nodup_append.mp whole).1

theorem LineagesKnown.nodup_keyImages (known : LineagesKnown preimages s) {prevId : Hash}
    {height splitHeight : Nat}
    (connected : connect s.main.db (altChainOf s.alternativeChains prevId) prevId =
      some (height, splitHeight)) :
    ((lineageBelow s (altChainOf s.alternativeChains prevId) splitHeight).flatMap
      preimages.keyImages).Nodup := by
  refine known.holds_below (P := fun ids => (ids.flatMap preimages.keyImages).Nodup)
    known.main.nodup_keyImages ?_
    connected
  intro id abei isThere before lineage
  obtain ⟨before', lineage', distinct⟩ := known.lineages id abei isThere
  rwa [lineage.eq_of_getLast lineage' List.getLast?_concat List.getLast?_concat]

/-! ## An accepted block -/

section Accepting

variable {env : Environment Hash KeyImage Key} {b : Block Hash KeyImage Key} {id : Hash}
  {onboard : AList fun _ : Hash => Transaction Hash KeyImage Key}
  {altChain : AltChain Hash KeyImage Key} {height splitHeight : Nat} {collected : List KeyImage}
  {abei : AltBlockExtendedInfo Hash KeyImage Key}

theorem LineagesKnown.genuineAlt_accepted (known : LineagesKnown preimages s)
    (accepted : Accepted env s s' b id altChain height splitHeight collected abei)
    (completed : abei.onboardTransactions = completeOnboard env.pool s.main.db b.txHashes onboard)
    (genuine : (Request.handleAlternativeBlock env b id onboard).Genuine preimages) :
    GenuineAlt preimages id abei := by
  obtain ⟨isBlock, inPool, inOnboard⟩ := genuine
  have connected := accepted.connected
  rw [accepted.chain] at connected
  obtain ⟨-, isLast, length⟩ := known.lineageBelow_spec connected
  have fromOnboard :
      GenuineTransactions preimages fun txId => abei.onboardTransactions.lookup txId := by
    rw [completed]
    exact inPool.completeOnboard known.main.tables inOnboard
  constructor
  · rw [accepted.bl, isBlock]
  · have found : ∀ txId ∈ b.txHashes, abei.onboardTransactions.lookup txId =
        some (preimages.transaction txId) := by
      intro txId inside
      obtain ⟨tx, isThere, -⟩ := accepted.found txId inside
      rw [isThere, fromOnboard txId tx isThere]
    rw [AltBlockExtendedInfo.transactions, accepted.bl, Preimages.contents, ← isBlock]
    congr 1
    rw [List.filterMap_congr found, ← List.filterMap_eq_map]
    rfl
  · rw [accepted.height_eq, ← isBlock, genHeight_eq accepted.prevalidated]
  · rw [accepted.height_eq, ← length]
    exact List.length_pos_of_mem (List.mem_of_getLast? isLast)

theorem LineagesKnown.lineage_accepted (known : LineagesKnown preimages s)
    (accepted : Accepted env s s' b id altChain height splitHeight collected abei)
    (genuine : GenuineAlt preimages id abei) :
    Lineage preimages (lineageBelow s altChain splitHeight ++ [id]) := by
  have connected := accepted.connected
  rw [accepted.chain] at connected ⊢
  obtain ⟨lineage, isLast, length⟩ := known.lineageBelow_spec connected
  refine HashChain.chained_snoc_iff.mpr ⟨lineage, ?_, ?_⟩
  · intro last isLast'
    rw [isLast] at isLast'
    cases isLast'
    rw [← genuine.bl, accepted.bl]
    rfl
  · rw [← genuine.height, accepted.height_eq, length]

/-- No key image is spent twice by what the block is added to and the block. -/
theorem LineagesKnown.nodup_keyImages_accepted (known : LineagesKnown preimages s)
    (accepted : Accepted env s s' b id altChain height splitHeight collected abei)
    (genuine : GenuineAlt preimages id abei) :
    ((lineageBelow s altChain splitHeight ++ [id]).flatMap preimages.keyImages).Nodup := by
  have connected := accepted.connected
  rw [accepted.chain] at connected
  have below := known.nodup_keyImages connected
  rw [← accepted.chain] at below
  rw [List.flatMap_append, List.flatMap_singleton, ← genuine.keyImages_eq]
  have own : abei.keyImages.Nodup := by
    have distinct := accepted.collects.distinct List.nodup_nil
    rw [accepted.collects.all, List.append_nil] at distinct
    exact List.nodup_reverse.mp distinct
  refine List.nodup_append.mpr ⟨below, own, ?_⟩
  intro ki spentBelow ki' spends same
  subst same
  obtain ⟨inMain, inAlts⟩ := accepted.collects.unspent ki spends
  obtain ⟨other, isBelow, spentBelow⟩ := List.mem_flatMap.mp spentBelow
  rcases List.mem_append.mp isBelow with isMain | isAlt
  · obtain ⟨block, isBlock, rfl⟩ := List.mem_map.mp isMain
    obtain ⟨h, isBlock⟩ := List.mem_iff_getElem?.mp isBlock
    rw [List.getElem?_take] at isBlock
    split at isBlock
    · rename_i below
      have isGenuine := known.main block (List.mem_of_getElem? isBlock)
      rw [← isGenuine.keyImages_eq] at spentBelow
      have above := inMain h (MainChain.spentKeys_of_mem isBlock spentBelow)
      omega
    · cases isBlock
  · obtain ⟨e, inChain, rfl⟩ := List.mem_map.mp isAlt
    have isThere : s.altBlock e.1 = some e.2 := by
      rw [accepted.chain] at inChain
      exact lookup_of_mem_altChainOf inChain
    rw [← (known.alts e.1 e.2 isThere).keyImages_eq] at spentBelow
    exact inAlts e.1 (known.covered e.1 e.2 isThere ki spentBelow) (List.mem_cons_of_mem id isAlt)

theorem LineagesKnown.accepted (known : LineagesKnown preimages s)
    (accepted : Accepted env s s' b id altChain height splitHeight collected abei)
    (genuine : GenuineAlt preimages id abei) : LineagesKnown preimages s' := by
  have sameMain : s'.main = s.main := by rw [accepted.result]
  have kept : ∀ {other abei'}, s'.altBlock other = some abei' →
      (other = id ∧ abei' = abei) ∨ s.altBlock other = some abei' := by
    intro other abei' isThere
    rw [accepted.altBlock] at isThere
    by_cases same : other = id
    · subst same
      rw [Function.update_self] at isThere
      cases isThere
      exact .inl ⟨rfl, rfl⟩
    · rw [Function.update_of_ne same] at isThere
      exact .inr isThere
  constructor
  · rw [sameMain]
    exact known.main
  · intro other abei' isThere
    rcases kept isThere with ⟨rfl, rfl⟩ | wasThere
    · exact genuine
    · exact known.alts other abei' wasThere
  · intro other abei' isThere
    rcases kept isThere with ⟨rfl, rfl⟩ | wasThere
    · exact ⟨_, known.lineage_accepted accepted genuine,
        known.nodup_keyImages_accepted accepted genuine⟩
    · exact known.lineages other abei' wasThere
  · intro other abei' isThere ki spends
    rw [accepted.result, mem_listed_appendAll, accepted.collects.all]
    rcases kept isThere with ⟨rfl, rfl⟩ | wasThere
    · exact .inl ⟨rfl, by simpa using spends⟩
    · exact .inr (known.covered other abei' wasThere ki spends)

end Accepting

/-! ## The other requests -/

theorem LineagesKnown.ofMain {main : MainChain Hash KeyImage Key}
    (known : LineagesKnown preimages s) (genuine : GenuineMain preimages main) :
    LineagesKnown preimages { s with main } where
  main := genuine
  alts := known.alts
  lineages := known.lineages
  covered := known.covered

theorem MainChain.pop_blocks {main main' : MainChain Hash KeyImage Key}
    (popped : main.pop = some main') :
    main'.blocks = main.blocks.dropLast := by
  unfold MainChain.pop at popped
  split at popped
  · cases popped
  · exact MainChain.ofBlocks_eq_some popped

theorem mem_listed_purge_of_ne {heap : KeyImage → Option (List Hash)} {id erased : Hash}
    {ki : KeyImage} {kis : List KeyImage} (different : id ≠ erased)
    (isListed : id ∈ listed heap ki) :
    id ∈ listed (kis.foldl (purgeKeyimageFromBigHeap erased) heap) ki := by
  induction kis generalizing heap with
  | nil => exact isListed
  | cons k rest inductionHypothesis =>
      apply inductionHypothesis
      unfold purgeKeyimageFromBigHeap
      cases before : heap k with
      | none => exact isListed
      | some ids =>
          by_cases same : ki = k
          · subst same
            have inside : id ∈ ids := by simpa [listed, before] using isListed
            have left : id ∈ ids.erase erased := (List.mem_erase_of_ne different).mpr inside
            have some_ : ids.erase erased ≠ [] := List.ne_nil_of_mem left
            simpa [listed, some_] using left
          · simpa [listed, same] using isListed

theorem LineagesKnown.erased {pool : Hash → Option (Transaction Hash KeyImage Key)} {id : Hash}
    (known : LineagesKnown preimages s) (erased : s.doEraseAltblock pool id = some s') :
    LineagesKnown preimages s' := by
  obtain ⟨sameMain, gone, others⟩ := altBlock_erased erased
  obtain ⟨abei, -, result⟩ := doEraseAltblock_eq_some.mp erased
  have stays : ∀ {other abei'}, s'.altBlock other = some abei' →
      other ≠ id ∧ s.altBlock other = some abei' := by
    intro other abei' isThere
    have different : other ≠ id := by
      rintro rfl
      rw [gone] at isThere
      cases isThere
    exact ⟨different, (others other different).symm.trans isThere⟩
  constructor
  · rw [sameMain]
    exact known.main
  · intro other abei' isThere
    exact known.alts other abei' (stays isThere).2
  · intro other abei' isThere
    exact known.lineages other abei' (stays isThere).2
  · intro other abei' isThere ki spends
    obtain ⟨different, wasThere⟩ := stays isThere
    rw [result]
    exact mem_listed_purge_of_ne different (known.covered other abei' wasThere ki spends)

theorem LineagesKnown.erasedAll {pool : Hash → Option (Transaction Hash KeyImage Key)}
    {ids : List Hash} (known : LineagesKnown preimages s)
    (erased : ids.foldlM (Node.doEraseAltblock pool) s = some s') :
    LineagesKnown preimages s' := by
  induction ids generalizing s with
  | nil =>
      cases erased
      exact known
  | cons id rest inductionHypothesis =>
      obtain ⟨next, first, later⟩ := Option.bind_eq_some_iff.mp erased
      exact inductionHypothesis (known.erased first) later

theorem lineagesKnown_step {request : Request Hash KeyImage Key} (known : LineagesKnown preimages s)
    (genuine : request.Genuine preimages) (stepped : step s request = some s') :
    LineagesKnown preimages s' := by
  cases request with
  | pushMain b =>
      obtain ⟨main, pushed, rfl⟩ := Option.map_eq_some_iff.mp stepped
      apply known.ofMain
      intro b' inside
      rw [MainChain.ofBlocks_eq_some pushed] at inside
      rcases List.mem_append.mp inside with before | last
      · exact known.main b' before
      · rcases List.mem_singleton.mp last with rfl
        exact genuine
  | popMain =>
      obtain ⟨main, popped, rfl⟩ := Option.map_eq_some_iff.mp stepped
      apply known.ofMain
      intro b inside
      rw [MainChain.pop_blocks popped] at inside
      exact known.main b (List.mem_of_mem_dropLast inside)
  | handleAlternativeBlock env b id onboard =>
      obtain ⟨-, altChain, height, splitHeight, collected, abei, accepted, completed⟩ :=
        accepted_of_step stepped
      exact known.accepted accepted (known.genuineAlt_accepted accepted completed genuine)
  | eraseAltblock pool id => exact known.erased stepped
  | pruneAgedAltBlocks pool maxAltBlocks =>
      obtain ⟨left, aged, rest⟩ := Option.bind_eq_some_iff.mp stepped
      exact (known.erasedAll aged).erasedAll rest
  | clearAltblocks =>
      cases stepped
      have nothing : ∀ id abei, s.clearAltblocks.altBlock id ≠ some abei := by
        intro id abei isThere
        cases isThere
      exact ⟨known.main, fun id abei isThere => absurd isThere (nothing id abei),
        fun id abei isThere => absurd isThere (nothing id abei), fun id abei isThere =>
          absurd isThere (nothing id abei)⟩

theorem lineagesKnown_start {main : MainChain Hash KeyImage Key}
    (genuine : GenuineMain preimages main) :
    LineagesKnown preimages (start main) := by
  have nothing : ∀ id abei, (start main).altBlock id ≠ some abei := by
    intro id abei isThere
    cases isThere
  exact ⟨genuine, fun id abei isThere => absurd isThere (nothing id abei),
    fun id abei isThere => absurd isThere (nothing id abei), fun id abei isThere =>
      absurd isThere (nothing id abei)⟩

/-! ## Multisig outputs -/

omit [DecidableEq KeyImage] in
def Transaction.hasMultisigOut (tx : Transaction Hash KeyImage Key) (multisigOutId : Hash) : Bool :=
  tx.vout.any fun out => decide (out.multisigId = some multisigOutId)

omit [DecidableEq KeyImage] in
/-- The transactions of an alternative chain, the latest block first. -/
def altTransactions (altChain : AltChain Hash KeyImage Key) :
    List (Transaction Hash KeyImage Key) :=
  (altChain.map (·.2)).reverse.flatMap AltBlockExtendedInfo.transactions

/-- The transactions of the alternative chain that are not looked at for an input: all of them if
the output is in the main chain below the split, and those below the output otherwise. -/
def unscanned (s : Node Hash KeyImage Key) (altChain : AltChain Hash KeyImage Key)
    (splitHeight : Nat) (multisigOutId : Hash) : List (Transaction Hash KeyImage Key) :=
  let belowOutput :=
    ((altTransactions altChain).dropWhile fun tx => !tx.hasMultisigOut multisigOutId).tail
  match s.main.db.multisigOuts multisigOutId with
  | none => belowOutput
  | some p =>
      match s.main.db.transactions p.txId with
      | none => belowOutput
      | some source =>
          if source.keeperBlockHeight < splitHeight then altTransactions altChain else belowOutput

section Scan

variable {env : Environment Hash KeyImage Key} {inputTx : Transaction Hash KeyImage Key}
  {inputTxId : Hash} {inputIndex : Nat} {multisigOutId : Hash}

omit [DecidableEq KeyImage] in
theorem txAltchainChecker_eq_some {tx : Transaction Hash KeyImage Key} {found : Bool}
    (checked : txAltchainChecker env inputTx inputTxId inputIndex multisigOutId tx = some found) :
    multisigOutId ∉ tx.multisigIds ∧ tx.hasMultisigOut multisigOutId = found := by
  unfold txAltchainChecker at checked
  split at checked
  · cases checked
  · rename_i unspent
    refine ⟨unspent, ?_⟩
    rw [Transaction.hasMultisigOut, ← List.findIdx?_isSome]
    split at checked
    · rename_i nothing
      cases checked
      rw [nothing]
      rfl
    · rename_i outN isOut
      obtain ⟨-, same⟩ := Option.ite_none_right_eq_some.mp checked
      rw [isOut, ← Option.some.inj same]
      rfl

variable {check : Transaction Hash KeyImage Key → Option Bool}

/-- How far a scan has come: the transactions before the one that has the output
have been checked. -/
inductive Scanned (check : Transaction Hash KeyImage Key → Option Bool) :
    List (Transaction Hash KeyImage Key) → Bool → Prop where
  | through {txs : List (Transaction Hash KeyImage Key)}
      (checked : ∀ tx ∈ txs, check tx = some false) :
      Scanned check txs false
  | stopped {before later : List (Transaction Hash KeyImage Key)}
      {tx : Transaction Hash KeyImage Key} (checked : ∀ tx ∈ before, check tx = some false)
      (found : check tx = some true) :
      Scanned check (before ++ tx :: later) true

omit [DecidableEq Hash] [DecidableEq KeyImage] in
theorem Scanned.append {txs later : List (Transaction Hash KeyImage Key)} {found : Bool}
    (checked : ∀ tx ∈ txs, check tx = some false) (scanned : Scanned check later found) :
    Scanned check (txs ++ later) found := by
  have both :
      ∀ {rest : List (Transaction Hash KeyImage Key)}, (∀ tx ∈ rest, check tx = some false) →
      ∀ tx ∈ txs ++ rest, check tx = some false := by
    intro rest restChecked tx inside
    rcases List.mem_append.mp inside with inside | inside
    · exact checked tx inside
    · exact restChecked tx inside
  cases scanned with
  | through laterChecked => exact .through (both laterChecked)
  | stopped laterChecked isFound =>
      rw [← List.append_assoc]
      exact .stopped (both laterChecked) isFound

omit [DecidableEq Hash] [DecidableEq KeyImage] in
/-- The scan of transactions that are looked up, as a scan of what their ids stand for. -/
theorem scanned_of_scanTransactions {looked : List (Option (Transaction Hash KeyImage Key))}
    {txs : List (Transaction Hash KeyImage Key)} {found : Bool}
    (genuine : List.Forall₂ (fun l tx => ∀ tx', l = some tx' → tx' = tx) looked txs)
    (scanned : scanTransactions check looked = some found) : Scanned check txs found := by
  induction genuine with
  | nil =>
      cases scanned
      exact .through fun tx inside => (by cases inside)
  | cons isGenuine _ inductionHypothesis =>
      rename_i l tx _ rest _
      cases l with
      | none => cases scanned
      | some tx' =>
          have same := isGenuine tx' rfl
          subst same
          unfold scanTransactions at scanned
          split at scanned
          · cases scanned
          · rename_i isFound
            cases scanned
            have here : Scanned check ([] ++ tx' :: rest) true :=
              .stopped (fun tx inside => (by cases inside)) isFound
            exact here
          · rename_i notHere
            have checked : ∀ tx ∈ [tx'], check tx = some false := by
              intro tx inside
              rcases List.mem_singleton.mp inside with rfl
              exact notHere
            exact (inductionHypothesis scanned).append checked

omit [DecidableEq KeyImage] in
theorem scanned_of_scanAltChain {getTransaction : Hash → Option (Transaction Hash KeyImage Key)}
    {blocks : List (AltBlockExtendedInfo Hash KeyImage Key)} {found : Bool}
    (genuine : GenuineTransactions preimages getTransaction)
    (contents : ∀ bei ∈ blocks, bei.transactions =
      bei.bl.minerTx :: bei.bl.txHashes.map preimages.transaction)
    (scanned : scanAltChain check getTransaction blocks = some found) :
    Scanned check (blocks.flatMap AltBlockExtendedInfo.transactions) found := by
  induction blocks with
  | nil =>
      cases scanned
      exact .through fun tx inside => (by cases inside)
  | cons bei rest inductionHypothesis =>
      have looked : List.Forall₂ (fun l tx => ∀ tx', l = some tx' → tx' = tx)
          (some bei.bl.minerTx :: bei.bl.txHashes.map getTransaction) bei.transactions := by
        rw [contents bei List.mem_cons_self]
        refine .cons (fun tx' same => (Option.some.inj same).symm) ?_
        rw [List.forall₂_map_left_iff, List.forall₂_map_right_iff, List.forall₂_same]
        intro txId _ tx' isThere
        exact genuine txId tx' isThere
      rw [List.flatMap_cons]
      unfold scanAltChain at scanned
      split at scanned
      · cases scanned
      · rename_i isFound
        cases scanned
        have here := scanned_of_scanTransactions looked isFound
        generalize bei.transactions = txs at here
        cases here with
        | stopped checked isFound =>
            rw [List.append_assoc, List.cons_append]
            exact .stopped checked isFound
      · rename_i notHere
        have here := scanned_of_scanTransactions looked notHere
        have later := inductionHypothesis (fun bei' inside =>
          contents bei' (List.mem_cons_of_mem bei inside)) scanned
        generalize bei.transactions = txs at here
        cases here with
        | through checked => exact later.append checked

end Scan

/-- What the validation of a multisig input has made sure of. -/
structure MultisigUnspent (s : Node Hash KeyImage Key) (altChain : AltChain Hash KeyImage Key)
    (splitHeight : Nat)
    (multisigOutId : Hash) : Prop where
  inMain : ∀ p, s.main.db.multisigOuts multisigOutId = some p →
    p.spentHeight = 0 ∨ splitHeight ≤ p.spentHeight
  inAlts : (∃ tx ∈ altTransactions altChain, multisigOutId ∈ tx.multisigIds) ↔
    ∃ tx ∈ unscanned s altChain splitHeight multisigOutId, multisigOutId ∈ tx.multisigIds

omit [DecidableEq Hash] [DecidableEq KeyImage] in
theorem GenuineTables.getTransactionFromPoolOrDb {env : Environment Hash KeyImage Key}
    {db : MainTables Hash KeyImage Key} {minHeight : Nat} (inTables : GenuineTables preimages db)
    (inPool : GenuineTransactions preimages env.pool) :
    GenuineTransactions preimages fun id =>
      getTransactionFromPoolOrDb env.pool db id minHeight := by
  intro id found isFound
  dsimp only at isFound
  unfold AltBlocks.getTransactionFromPoolOrDb at isFound
  split at isFound
  · rename_i isThere
    cases isFound
    exact inPool id found isThere
  · split at isFound
    · cases isFound
    · rename_i p isThere
      obtain ⟨-, same⟩ := Option.ite_none_right_eq_some.mp isFound
      cases same
      exact inTables id p.tx (congrArg (Option.map (·.tx)) isThere)

omit [DecidableEq KeyImage] in
/-- What has been looked at does not spend the output. -/
theorem Scanned.spends_iff {env : Environment Hash KeyImage Key}
    {tx : Transaction Hash KeyImage Key} {txId : Hash} {n : Nat} {multisigOutId : Hash}
    {txs : List (Transaction Hash KeyImage Key)}
    (scanned : Scanned (txAltchainChecker env tx txId n multisigOutId) txs true) :
    (∃ tx ∈ txs, multisigOutId ∈ tx.multisigIds) ↔
      ∃ tx ∈ (txs.dropWhile fun tx => !tx.hasMultisigOut multisigOutId).tail,
        multisigOutId ∈ tx.multisigIds := by
  cases scanned with
  | stopped checked found =>
      rename_i before later source
      obtain ⟨unspentHere, hasOut⟩ := txAltchainChecker_eq_some found
      have without : ∀ tx ∈ before, (!tx.hasMultisigOut multisigOutId) = true := by
        intro tx inside
        rw [(txAltchainChecker_eq_some (checked tx inside)).2]
        rfl
      rw [List.dropWhile_append_of_pos without, List.dropWhile_cons_of_neg (by simp [hasOut]),
        List.tail_cons]
      constructor
      · rintro ⟨tx, inside, spends⟩
        rcases List.mem_append.mp inside with inBefore | inside
        · exact absurd spends (txAltchainChecker_eq_some (checked tx inBefore)).1
        · rcases List.mem_cons.mp inside with rfl | inLater
          · exact absurd spends unspentHere
          · exact ⟨tx, inLater, spends⟩
      · rintro ⟨tx, inside, spends⟩
        exact ⟨tx, List.mem_append_right _ (List.mem_cons_of_mem _ inside), spends⟩

theorem LineagesKnown.multisigUnspent (known : LineagesKnown preimages s)
    {env : Environment Hash KeyImage Key} {prevId : Hash} {splitHeight : Nat}
    {tx : Transaction Hash KeyImage Key} {txId : Hash} {n : Nat} {multisigOutId : Hash}
    (inPool : GenuineTransactions preimages env.pool)
    (validated :
      validateAltBlockMsInput env s (altChainOf s.alternativeChains prevId) splitHeight tx txId n
      multisigOutId = true) :
    MultisigUnspent s (altChainOf s.alternativeChains prevId) splitHeight multisigOutId := by
  have contents : ∀ bei ∈ ((altChainOf s.alternativeChains prevId).map (·.2)).reverse,
      bei.transactions = bei.bl.minerTx :: bei.bl.txHashes.map preimages.transaction := by
    intro bei inside
    obtain ⟨e, inChain, rfl⟩ := List.mem_map.mp (List.mem_reverse.mp inside)
    have isGenuine := known.alts e.1 e.2 (lookup_of_mem_altChainOf inChain)
    rw [isGenuine.transactions, Preimages.contents, isGenuine.bl]
  have scanned : scanAltChain (txAltchainChecker env tx txId n multisigOutId)
      (fun id => getTransactionFromPoolOrDb env.pool s.main.db id splitHeight)
      ((altChainOf s.alternativeChains prevId).map (·.2)).reverse = some true →
      ((∃ tx ∈ altTransactions (altChainOf s.alternativeChains prevId),
        multisigOutId ∈ tx.multisigIds) ↔
        ∃ tx ∈ ((altTransactions (altChainOf s.alternativeChains prevId)).dropWhile
          fun tx => !tx.hasMultisigOut multisigOutId).tail, multisigOutId ∈ tx.multisigIds) :=
    fun isFound =>
      (scanned_of_scanAltChain (known.main.tables.getTransactionFromPoolOrDb inPool) contents
      isFound).spends_iff
  unfold validateAltBlockMsInput at validated
  dsimp only at validated
  constructor
  · intro p isThere
    rw [isThere] at validated
    dsimp only at validated
    split at validated
    · assumption
    · cases validated
  · unfold unscanned
    dsimp only
    cases isOut : s.main.db.multisigOuts multisigOutId with
    | none =>
        rw [isOut] at validated
        exact scanned (of_decide_eq_true validated)
    | some p =>
        rw [isOut] at validated
        dsimp only at validated ⊢
        split at validated
        · cases isSource : s.main.db.transactions p.txId with
          | none =>
              rw [isSource] at validated
              cases validated
          | some source =>
              rw [isSource] at validated
              dsimp only at validated ⊢
              by_cases below : source.keeperBlockHeight < splitHeight
              · rw [if_pos below]
              · rw [if_neg below] at validated ⊢
                exact scanned (of_decide_eq_true validated)
        · cases validated

/-- The multisig outputs that a block spends. -/
def spentMultisigIds (env : Environment Hash KeyImage Key) (s : Node Hash KeyImage Key)
    (b : Block Hash KeyImage Key)
    (onboard : AList fun _ : Hash => Transaction Hash KeyImage Key) : List Hash :=
  (b.txHashes.filterMap fun txId =>
    (completeOnboard env.pool s.main.db b.txHashes onboard).lookup txId).flatMap
      Transaction.multisigIds

/-- A block on an alternative chain spends no multisig output twice, and none that a
transaction spends that is not looked at; and no block of the main chain spends one at a height
that reads as unspent. -/
def MultisigsApart (s : Node Hash KeyImage Key) : Request Hash KeyImage Key → Prop
  | .pushMain b => s.main.blocks.length % 2 ^ 32 = 0 → b.multisigIds = []
  | .handleAlternativeBlock env b _ onboard =>
      (spentMultisigIds env s b onboard).Nodup ∧
        ∀ height splitHeight, connect s.main.db (altChainOf s.alternativeChains b.prevId) b.prevId =
            some (height, splitHeight) →
          ∀ multisigOutId ∈ spentMultisigIds env s b onboard,
            ∀ tx ∈ unscanned s (altChainOf s.alternativeChains b.prevId) splitHeight multisigOutId,
              multisigOutId ∉ tx.multisigIds
  | _ => True

/-- No lineage of an alternative block spends a multisig output twice. -/
structure MultisigsKnown (preimages : Preimages Hash KeyImage Key)
    (s : Node Hash KeyImage Key) : Prop where
  kept : s.main.HeightsKept
  distinct : ∀ id abei, s.altBlock id = some abei → ∀ before, Lineage preimages (before ++ [id]) →
    ((before ++ [id]).flatMap preimages.multisigIds).Nodup

theorem GenuineMain.nodup_multisigIds (genuine : GenuineMain preimages s.main)
    (kept : s.main.HeightsKept) (height : Nat) :
    (((s.main.blocks.take height).map FullBlock.id).flatMap preimages.multisigIds).Nodup := by
  have same : ∀ b ∈ s.main.blocks.take height, b.multisigIds = preimages.multisigIds b.id :=
    fun b inside => (genuine b (List.mem_of_mem_take inside)).multisigIds_eq
  rw [flatMap_map_id same]
  have whole := kept.marked.2
  rw [← List.take_append_drop height s.main.blocks, List.flatMap_append] at whole
  exact (List.nodup_append.mp whole).1

theorem MultisigsKnown.nodup_below (multisigs : MultisigsKnown preimages s)
    (known : LineagesKnown preimages s) {prevId : Hash} {height splitHeight : Nat}
    (connected : connect s.main.db (altChainOf s.alternativeChains prevId) prevId =
      some (height, splitHeight)) :
    ((lineageBelow s (altChainOf s.alternativeChains prevId) splitHeight).flatMap
      preimages.multisigIds).Nodup :=
  known.holds_below (P := fun ids => (ids.flatMap preimages.multisigIds).Nodup)
    (known.main.nodup_multisigIds multisigs.kept) multisigs.distinct connected

section Accepting

variable {env : Environment Hash KeyImage Key} {b : Block Hash KeyImage Key} {id : Hash}
  {onboard : AList fun _ : Hash => Transaction Hash KeyImage Key}
  {altChain : AltChain Hash KeyImage Key} {height splitHeight : Nat} {collected : List KeyImage}
  {abei : AltBlockExtendedInfo Hash KeyImage Key}

/-- The miner transaction has no multisig input. -/
theorem Accepted.multisigIds_eq
    (accepted : Accepted env s s' b id altChain height splitHeight collected abei)
    (completed : abei.onboardTransactions = completeOnboard env.pool s.main.db b.txHashes onboard) :
    abei.multisigIds = spentMultisigIds env s b onboard := by
  have miner : b.minerTx.multisigIds = [] := by
    rcases minerTx_vin accepted.prevalidated with
      ⟨-, inputs⟩ | ⟨-, ⟨_, _, _, inputs⟩ | ⟨_, _, inputs⟩⟩ <;>
      simp [Transaction.multisigIds, inputs, TxinV.multisigId]
  rw [AltBlockExtendedInfo.multisigIds, AltBlockExtendedInfo.transactions, accepted.bl, completed,
    List.flatMap_cons, miner, List.nil_append, spentMultisigIds]

/-- A multisig output that the block spends is spent below it just if a transaction spends it that
is not looked at. -/
theorem LineagesKnown.spent_below_iff (known : LineagesKnown preimages s)
    (kept : s.main.HeightsKept)
    (accepted : Accepted env s s' b id altChain height splitHeight collected abei)
    (inPool : GenuineTransactions preimages env.pool) {multisigOutId : Hash}
    (spends : multisigOutId ∈ abei.multisigIds) :
    multisigOutId ∈ (lineageBelow s altChain splitHeight).flatMap preimages.multisigIds ↔
      ∃ tx ∈ unscanned s altChain splitHeight multisigOutId, multisigOutId ∈ tx.multisigIds := by
  have unspent : MultisigUnspent s altChain splitHeight multisigOutId := by
    obtain ⟨tx, isTx, inputs⟩ := List.mem_flatMap.mp spends
    rcases List.mem_cons.mp isTx with rfl | isTx
    · rw [accepted.bl] at inputs
      exfalso
      rcases minerTx_vin accepted.prevalidated with ⟨-, vin⟩ | ⟨-, ⟨_, _, _, vin⟩ | ⟨_, _, vin⟩⟩ <;>
        simp [Transaction.multisigIds, vin, TxinV.multisigId] at inputs
    · obtain ⟨txId, isHash, isOnboard⟩ := List.mem_filterMap.mp isTx
      rw [accepted.bl] at isHash
      obtain ⟨tx', isOnboard', validated⟩ := accepted.found txId isHash
      rw [isOnboard] at isOnboard'
      cases isOnboard'
      obtain ⟨n, isValid⟩ := validated multisigOutId inputs
      rw [accepted.chain] at isValid ⊢
      exact known.multisigUnspent inPool isValid
  rw [← unspent.inAlts, lineageBelow, List.flatMap_append, List.mem_append]
  have notInMain : multisigOutId ∉
      ((s.main.blocks.take splitHeight).map FullBlock.id).flatMap preimages.multisigIds := by
    intro inMain
    obtain ⟨other, isMain, spent⟩ := List.mem_flatMap.mp inMain
    obtain ⟨block, isBlock, rfl⟩ := List.mem_map.mp isMain
    obtain ⟨h, isBlock⟩ := List.mem_iff_getElem?.mp isBlock
    rw [List.getElem?_take] at isBlock
    split at isBlock
    · have isGenuine := known.main block (List.mem_of_getElem? isBlock)
      rw [← isGenuine.multisigIds_eq] at spent
      obtain ⟨p, isMarked, spentHeight, notZero⟩ :=
        kept.marked.1 h block multisigOutId isBlock spent
      have above := unspent.inMain p isMarked
      have smaller : h % 2 ^ 32 ≤ h := Nat.mod_le _ _
      omega
    · cases isBlock
  rw [or_iff_right notInMain]
  constructor
  · intro inAlts
    obtain ⟨other, isAlt, spent⟩ := List.mem_flatMap.mp inAlts
    obtain ⟨e, inChain, rfl⟩ := List.mem_map.mp isAlt
    have isThere : s.altBlock e.1 = some e.2 := by
      rw [accepted.chain] at inChain
      exact lookup_of_mem_altChainOf inChain
    rw [← (known.alts e.1 e.2 isThere).multisigIds_eq] at spent
    obtain ⟨tx, isTx, spends⟩ := List.mem_flatMap.mp spent
    refine ⟨tx, List.mem_flatMap.mpr ⟨e.2, ?_, isTx⟩, spends⟩
    exact List.mem_reverse.mpr (List.mem_map_of_mem inChain)
  · rintro ⟨tx, isTx, spends⟩
    obtain ⟨bei, isAlt, isTx⟩ := List.mem_flatMap.mp isTx
    obtain ⟨e, inChain, rfl⟩ := List.mem_map.mp (List.mem_reverse.mp isAlt)
    have isThere : s.altBlock e.1 = some e.2 := by
      rw [accepted.chain] at inChain
      exact lookup_of_mem_altChainOf inChain
    refine List.mem_flatMap.mpr ⟨e.1, List.mem_map_of_mem inChain, ?_⟩
    rw [← (known.alts e.1 e.2 isThere).multisigIds_eq]
    exact List.mem_flatMap.mpr ⟨tx, isTx, spends⟩

/-- Exactly when an accepted block leaves every multisig output spent at most once. -/
theorem MultisigsKnown.nodup_accepted_iff (multisigs : MultisigsKnown preimages s)
    (known : LineagesKnown preimages s)
    (accepted : Accepted env s s' b id altChain height splitHeight collected abei)
    (completed : abei.onboardTransactions = completeOnboard env.pool s.main.db b.txHashes onboard)
    (inPool : GenuineTransactions preimages env.pool) (genuine : GenuineAlt preimages id abei) :
    ((lineageBelow s altChain splitHeight ++ [id]).flatMap preimages.multisigIds).Nodup ↔
      MultisigsApart s (.handleAlternativeBlock env b id onboard) := by
  have connected := accepted.connected
  rw [accepted.chain] at connected
  have below := multisigs.nodup_below known connected
  rw [← accepted.chain] at below
  have own := accepted.multisigIds_eq completed
  rw [List.flatMap_append, List.flatMap_singleton, ← genuine.multisigIds_eq, List.nodup_append, own]
  constructor
  · rintro ⟨-, distinct, apart⟩
    refine ⟨distinct, fun height' splitHeight' connected' multisigOutId spends tx isTx spent => ?_⟩
    rw [connected] at connected'
    cases connected'
    rw [← accepted.chain] at isTx
    have isBelow :=
      (known.spent_below_iff multisigs.kept accepted inPool (by rw [own]; exact spends)).mpr
      ⟨tx, isTx, spent⟩
    exact apart multisigOutId isBelow multisigOutId spends rfl
  · rintro ⟨distinct, apart⟩
    refine ⟨below, distinct, ?_⟩
    intro multisigOutId isBelow other spends same
    subst same
    obtain ⟨tx, isTx, spent⟩ :=
      (known.spent_below_iff multisigs.kept accepted inPool (by rw [own]; exact spends)).mp isBelow
    rw [accepted.chain] at isTx
    exact apart height splitHeight connected multisigOutId spends tx isTx spent

end Accepting

/-! ## Runs -/

theorem HeightsKept.push {main : MainChain Hash KeyImage Key} {b : FullBlock Hash KeyImage Key}
    (kept : s.main.HeightsKept) (apart : MultisigsApart s (.pushMain b))
    (pushed : s.main.push b = some main) :
    main.HeightsKept := by
  intro height block isBlock spends
  rw [MainChain.ofBlocks_eq_some pushed] at isBlock
  by_cases inside : height < s.main.blocks.length
  · rw [List.getElem?_append_left inside] at isBlock
    exact kept height block isBlock spends
  · rw [List.getElem?_append_right (by omega)] at isBlock
    obtain ⟨isLast, same⟩ := List.getElem?_eq_some_iff.mp isBlock
    rw [List.length_singleton] at isLast
    have isHeight : height = s.main.blocks.length := by omega
    simp only [List.getElem_singleton] at same
    subst same
    intro zero
    exact spends (apart (by rw [← isHeight]; exact zero))

theorem HeightsKept.pop {main : MainChain Hash KeyImage Key} (kept : s.main.HeightsKept)
    (popped : s.main.pop = some main) : main.HeightsKept := by
  intro height block isBlock
  rw [MainChain.pop_blocks popped, List.getElem?_dropLast] at isBlock
  split at isBlock
  · exact kept height block isBlock
  · cases isBlock

theorem MultisigsKnown.sub (multisigs : MultisigsKnown preimages s) (kept : s'.main.HeightsKept)
    (fewer : ∀ id abei, s'.altBlock id = some abei → s.altBlock id = some abei) :
    MultisigsKnown preimages s' where
  kept := kept
  distinct := fun id abei isThere => multisigs.distinct id abei (fewer id abei isThere)

theorem doEraseAltblock_fewer {pool : Hash → Option (Transaction Hash KeyImage Key)}
    {ids : List Hash} (erased : ids.foldlM (Node.doEraseAltblock pool) s = some s') :
    s'.main = s.main ∧ ∀ id abei, s'.altBlock id = some abei → s.altBlock id = some abei := by
  induction ids generalizing s with
  | nil =>
      cases erased
      exact ⟨rfl, fun _ _ isThere => isThere⟩
  | cons id rest inductionHypothesis =>
      obtain ⟨next, first, later⟩ := Option.bind_eq_some_iff.mp erased
      obtain ⟨sameMain, gone, others⟩ := altBlock_erased first
      obtain ⟨sameMain', fewer⟩ := inductionHypothesis later
      refine ⟨sameMain'.trans sameMain, fun other abei isThere => ?_⟩
      have isNext := fewer other abei isThere
      have different : other ≠ id := by
        rintro rfl
        rw [gone] at isNext
        cases isNext
      rw [← others other different, isNext]

theorem multisigsKnown_step {request : Request Hash KeyImage Key}
    (multisigs : MultisigsKnown preimages s) (known : LineagesKnown preimages s)
    (genuine : request.Genuine preimages) (apart : MultisigsApart s request)
    (stepped : step s request = some s') : MultisigsKnown preimages s' := by
  cases request with
  | pushMain b =>
      obtain ⟨main, pushed, rfl⟩ := Option.map_eq_some_iff.mp stepped
      exact multisigs.sub (HeightsKept.push multisigs.kept apart pushed) fun _ _ isThere => isThere
  | popMain =>
      obtain ⟨main, popped, rfl⟩ := Option.map_eq_some_iff.mp stepped
      exact multisigs.sub (HeightsKept.pop multisigs.kept popped) fun _ _ isThere => isThere
  | handleAlternativeBlock env b id onboard =>
      obtain ⟨-, altChain, height, splitHeight, collected, abei, accepted, completed⟩ :=
        accepted_of_step stepped
      have isGenuine := known.genuineAlt_accepted accepted completed genuine
      refine ⟨by rw [accepted.result]; exact multisigs.kept,
        fun other abei' isThere before lineage => ?_⟩
      rw [accepted.altBlock] at isThere
      by_cases same : other = id
      · subst same
        have whole :=
          (known.lineage_accepted accepted isGenuine).eq_of_getLast lineage List.getLast?_concat
          List.getLast?_concat
        rw [← whole]
        exact (multisigs.nodup_accepted_iff known accepted completed genuine.2.1 isGenuine).mpr
          apart
      · rw [Function.update_of_ne same] at isThere
        exact multisigs.distinct other abei' isThere before lineage
  | eraseAltblock pool id =>
      obtain ⟨sameMain, fewer⟩ : s'.main = s.main ∧ ∀ id abei, s'.altBlock id = some abei →
          s.altBlock id = some abei :=
        by
          have erased : [id].foldlM (Node.doEraseAltblock pool) s = some s' :=
            Option.bind_eq_some_iff.mpr ⟨s', stepped, rfl⟩
          exact doEraseAltblock_fewer erased
      exact multisigs.sub (by rw [sameMain]; exact multisigs.kept) fewer
  | pruneAgedAltBlocks pool maxAltBlocks =>
      obtain ⟨left, aged, rest⟩ := Option.bind_eq_some_iff.mp stepped
      obtain ⟨sameMain, fewer⟩ := doEraseAltblock_fewer aged
      obtain ⟨sameMain', fewer'⟩ := doEraseAltblock_fewer rest
      exact multisigs.sub (by rw [sameMain', sameMain]; exact multisigs.kept)
        fun id abei isThere => fewer id abei (fewer' id abei isThere)
  | clearAltblocks =>
      cases stepped
      exact multisigs.sub multisigs.kept fun id abei isThere => (by cases isThere)

theorem multisigsKnown_start {main : MainChain Hash KeyImage Key} (kept : main.HeightsKept) :
    MultisigsKnown preimages (start main) where
  kept := kept
  distinct := fun id abei isThere => (by cases isThere)

theorem LineagesKnown.flatMap_lineageBelow {α : Type*}
    {ofMain : FullBlock Hash KeyImage Key → List α}
    {ofAlt : AltBlockExtendedInfo Hash KeyImage Key → List α} {f : Hash → List α} {prevId : Hash}
    {splitHeight : Nat} (known : LineagesKnown preimages s)
    (mainSame : ∀ b, Genuine preimages b → ofMain b = f b.id)
    (altSame : ∀ id abei, GenuineAlt preimages id abei → ofAlt abei = f id) :
    (lineageBelow s (altChainOf s.alternativeChains prevId) splitHeight).flatMap f =
      (s.main.blocks.take splitHeight).flatMap ofMain ++
        (altChainOf s.alternativeChains prevId).flatMap fun e => ofAlt e.2 := by
  have same : ∀ b ∈ s.main.blocks.take splitHeight, ofMain b = f b.id :=
    fun b inside => mainSame b (known.main b (List.mem_of_mem_take inside))
  rw [lineageBelow, List.flatMap_append, flatMap_map_id same, List.flatMap_map]
  congr 1
  apply List.flatMap_congr
  intro e inChain
  exact (altSame e.1 e.2 (known.alts e.1 e.2 (lookup_of_mem_altChainOf inChain))).symm

/-- After any run, a block that is accepted on an alternative chain spends no key image that the
main chain below the split, a block of the alternative chain or another input of the block
spends. For multisig outputs the same holds just if the block meets the condition, when the
blocks before it have met it. -/
theorem alt_chain_no_double_spends (preimages : Preimages Hash KeyImage Key)
    (main : MainChain Hash KeyImage Key) (requests : List (Request Hash KeyImage Key))
    (final after : Node Hash KeyImage Key) (env : Environment Hash KeyImage Key)
    (b : Block Hash KeyImage Key) (id : Hash)
    (onboard : AList fun _ : Hash => Transaction Hash KeyImage Key)
    (genuineMain : GenuineMain preimages main) (genuine : ∀ request ∈ requests ++
      [.handleAlternativeBlock env b id onboard], request.Genuine preimages)
    (ran : run step (start main) requests = some final)
    (accepted : step final (.handleAlternativeBlock env b id onboard) = some after) :
    ∃ height splitHeight abei,
      connect final.main.db (altChainOf final.alternativeChains b.prevId) b.prevId =
        some (height, splitHeight) ∧
      after.alternativeChains.lookup id = some abei ∧ abei.bl = b ∧
      ((final.main.blocks.take splitHeight).flatMap FullBlock.keyImages ++
        (altChainOf final.alternativeChains b.prevId).flatMap (·.2.keyImages) ++
          abei.keyImages).Nodup ∧
      (main.HeightsKept → Guarded step MultisigsApart (start main) requests →
        (((final.main.blocks.take splitHeight).flatMap FullBlock.multisigIds ++
          (altChainOf final.alternativeChains b.prevId).flatMap (·.2.multisigIds) ++
            abei.multisigIds).Nodup ↔
        MultisigsApart final (.handleAlternativeBlock env b id onboard))) := by
  have genuineRun :
      Guarded step (fun _ request => request.Genuine preimages) (start main) requests :=
    guarded_of_forall_mem fun request inside _ => genuine request (List.mem_append_left _ inside)
  have preserved : ∀ (s : Node Hash KeyImage Key) request next, LineagesKnown preimages s →
      request.Genuine preimages → step s request = some next → LineagesKnown preimages next :=
    fun _ _ _ known genuine => lineagesKnown_step known genuine
  have known : LineagesKnown preimages final :=
    invariant_of_run preserved (lineagesKnown_start genuineMain) genuineRun ran
  have isGenuine := genuine (.handleAlternativeBlock env b id onboard) (by simp)
  obtain ⟨-, altChain, height, splitHeight, collected, abei, isAccepted, completed⟩ :=
    accepted_of_step accepted
  have genuineAlt := known.genuineAlt_accepted isAccepted completed isGenuine
  have isThere : after.altBlock id = some abei := by rw [isAccepted.altBlock, Function.update_self]
  have connected := isAccepted.connected
  rw [isAccepted.chain] at connected
  refine ⟨height, splitHeight, abei, connected, isThere, isAccepted.bl, ?_, fun kept apart => ?_⟩
  · have distinct := known.nodup_keyImages_accepted isAccepted genuineAlt
    rw [isAccepted.chain, List.flatMap_append,
      List.flatMap_singleton, ← genuineAlt.keyImages_eq] at distinct
    rwa [known.flatMap_lineageBelow (fun _ => Genuine.keyImages_eq)
      (fun _ _ => GenuineAlt.keyImages_eq)] at distinct
  · have both : Guarded step (fun s request => request.Genuine preimages ∧
        MultisigsApart s request) (start main)
        requests := genuineRun.and apart
    have preservedBoth : ∀ (s : Node Hash KeyImage Key) request next,
        LineagesKnown preimages s ∧ MultisigsKnown preimages s →
        request.Genuine preimages ∧ MultisigsApart s request → step s request = some next →
        LineagesKnown preimages next ∧ MultisigsKnown preimages next :=
      fun _ _ _ inv meets stepped =>
        ⟨lineagesKnown_step inv.1 meets.1 stepped,
          multisigsKnown_step inv.2 inv.1 meets.1 meets.2 stepped⟩
    have multisigs : MultisigsKnown preimages final :=
      (invariant_of_run preservedBoth ⟨lineagesKnown_start genuineMain, multisigsKnown_start kept⟩
        both ran).2
    rw [← multisigs.nodup_accepted_iff known isAccepted completed isGenuine.2.1 genuineAlt]
    rw [isAccepted.chain, List.flatMap_append, List.flatMap_singleton, ← genuineAlt.multisigIds_eq,
      known.flatMap_lineageBelow (fun _ => Genuine.multisigIds_eq) (fun _ _ =>
        GenuineAlt.multisigIds_eq)]

/-! ## A multisig output that is spent twice -/

section Concrete

/-- Creates a multisig output from the output of the genesis block. -/
def creator : Transaction Nat Nat Unit := ⟨[.toKey 5 [.globalIndex 0] 42], [.bareMultisig 500]⟩

def multisigSpender : Transaction Nat Nat Unit := ⟨[.multisig 500], []⟩

def plainBlock (prevId height : Nat) (txHashes : List Nat) : Block Nat Nat Unit where
  prevId := prevId
  posFlag := false
  minerTx := ⟨[.gen height], []⟩
  txHashes := txHashes

def creatorBlock : FullBlock Nat Nat Unit where
  id := 1
  bl := plainBlock 0 1 [7]
  minerTxId := 101
  transactions := [(7, creator)]

def nextBlock : FullBlock Nat Nat Unit where
  id := 2
  bl := plainBlock 1 2 []
  minerTxId := 102
  transactions := []

def onlyThese : Preimages Nat Nat Unit where
  block := fun id =>
    if id = 0 then genesisBlock.bl
    else if id = 1 then creatorBlock.bl
    else if id = 2 then nextBlock.bl
    else if id = 11 then plainBlock 1 2 [8]
    else if id = 12 then plainBlock 11 3 [9]
    else plainBlock 11 3 [10]
  transaction := fun txId =>
    if txId = 7 then creator
    else if txId = 8 ∨ txId = 9 then multisigSpender
    else if txId = 10 then spender 43
    else if txId = 100 then genesisBlock.bl.minerTx
    else if txId = 101 then creatorBlock.bl.minerTx
    else nextBlock.bl.minerTx

/-- A multisig output of the main chain is spent in an alternative chain. -/
def spentOnce : List (Request Nat Nat Unit) :=
  [.pushMain creatorBlock, .pushMain nextBlock,
    .handleAlternativeBlock (trusting nowhere 11) (plainBlock 1 2 [8]) 11
      (AList.singleton 8 multisigSpender)]

theorem genuine_singleton {preimages : Preimages Nat Nat Unit} {txId : Nat}
    {tx : Transaction Nat Nat Unit} (isGenuine : tx = preimages.transaction txId) :
    GenuineTransactions preimages fun h =>
      (AList.singleton txId tx : AList fun _ : Nat => Transaction Nat Nat Unit).lookup h := by
  intro h found isFound
  by_cases same : h = txId
  · subst same
    have isThere :
        (AList.singleton h tx : AList fun _ : Nat => Transaction Nat Nat Unit).lookup h = some tx :=
      AList.mem_lookup_iff.mpr (List.mem_singleton.mpr rfl)
    dsimp only at isFound
    rw [isThere] at isFound
    cases isFound
    exact isGenuine
  · have missing :
        (AList.singleton txId tx : AList fun _ : Nat => Transaction Nat Nat Unit).lookup h = none :=
      AList.lookup_eq_none.mpr fun inside => same (List.mem_singleton.mp inside)
    dsimp only at isFound
    rw [missing] at isFound
    cases isFound

theorem genuine_altBlock {id prevId height txId : Nat} {tx : Transaction Nat Nat Unit}
    (isBlock : plainBlock prevId height [txId] = onlyThese.block id)
    (isTransaction : tx = onlyThese.transaction txId) :
    (Request.handleAlternativeBlock (trusting nowhere id) (plainBlock prevId height [txId]) id
      (AList.singleton txId tx)).Genuine onlyThese :=
  ⟨isBlock, fun _ _ isThere => (by cases isThere), genuine_singleton isTransaction⟩

theorem spentOnce_genuine : ∀ request ∈ spentOnce, request.Genuine onlyThese := by
  intro request inside
  simp only [spentOnce, List.mem_cons, List.not_mem_nil, or_false] at inside
  rcases inside with rfl | rfl | rfl
  · refine ⟨rfl, rfl, fun tx inside => ?_, rfl⟩
    rcases List.mem_singleton.mp inside with rfl
    rfl
  · exact ⟨rfl, rfl, fun tx inside => (by cases inside), rfl⟩
  · exact genuine_altBlock rfl rfl

theorem genesisOnly_genuine : GenuineMain onlyThese genesisOnly := by
  intro b inside
  rcases List.mem_singleton.mp inside with rfl
  exact ⟨rfl, rfl, fun tx inside => (by cases inside), rfl⟩

theorem spentOnce_apart : Guarded step MultisigsApart (start genesisOnly) spentOnce := by
  refine ⟨fun zero => (by cases zero), fun next stepped => ?_⟩
  cases stepped
  refine ⟨fun zero => (by cases zero), fun next stepped => ?_⟩
  cases stepped
  refine ⟨⟨List.nodup_singleton 500,
    fun height splitHeight connected multisigOutId spends tx inside => ?_⟩, fun _ _ => trivial⟩
  cases connected
  rcases List.mem_singleton.mp spends with rfl
  cases inside

theorem alt_chain_no_double_spends_once :
    ∃ final after, run step (start genesisOnly) spentOnce = some final ∧
    step final (.handleAlternativeBlock (trusting nowhere 13) (plainBlock 11 3 [10]) 13
      (AList.singleton 10 (spender 43))) = some after ∧
    ∃ height splitHeight abei,
      connect final.main.db (altChainOf final.alternativeChains 11) 11 =
        some (height, splitHeight) ∧
      after.alternativeChains.lookup 13 = some abei ∧ abei.bl = plainBlock 11 3 [10] ∧
      ((final.main.blocks.take splitHeight).flatMap FullBlock.keyImages ++
        (altChainOf final.alternativeChains 11).flatMap (·.2.keyImages) ++ abei.keyImages).Nodup ∧
      ((final.main.blocks.take splitHeight).flatMap FullBlock.multisigIds ++
        (altChainOf final.alternativeChains 11).flatMap (·.2.multisigIds) ++
          abei.multisigIds).Nodup := by
  have genuine : ∀ request ∈ spentOnce ++
      [.handleAlternativeBlock (trusting nowhere 13) (plainBlock 11 3 [10]) 13
      (AList.singleton 10 (spender 43))], request.Genuine onlyThese := by
    intro request inside
    rcases List.mem_append.mp inside with inside | last
    · exact spentOnce_genuine request inside
    · rcases List.mem_singleton.mp last with rfl
      exact genuine_altBlock rfl rfl
  obtain ⟨height, splitHeight, abei, connected, isThere, isBlock, keyImages, multisigs⟩ :=
    alt_chain_no_double_spends onlyThese genesisOnly spentOnce _ _ _ _ _ _ genesisOnly_genuine
      genuine rfl rfl
  have kept : genesisOnly.HeightsKept := by
    intro height b isBlock spends
    rcases List.mem_singleton.mp (List.mem_of_getElem? isBlock) with rfl
    exact absurd rfl spends
  refine ⟨_, _, rfl, rfl, height, splitHeight, abei, connected, isThere, isBlock, keyImages, ?_⟩
  refine (multisigs kept spentOnce_apart).mpr ⟨List.nodup_nil, fun _ _ _ multisigOutId spends => ?_⟩
  cases spends

/-- The output is spent again by the next alternative block: it is in the main chain below the
split, so the alternative chain is not looked at. -/
theorem alt_chain_double_spend :
    GenuineMain onlyThese genesisOnly ∧ (∀ request ∈ spentOnce, request.Genuine onlyThese) ∧
    (Request.handleAlternativeBlock (trusting nowhere 12) (plainBlock 11 3 [9]) 12
      (AList.singleton 9 multisigSpender)).Genuine onlyThese ∧
    ∃ final after, run step (start genesisOnly) spentOnce = some final ∧
      step final (.handleAlternativeBlock (trusting nowhere 12) (plainBlock 11 3 [9]) 12
        (AList.singleton 9 multisigSpender)) = some after ∧
      connect final.main.db (altChainOf final.alternativeChains 11) 11 = some (3, 2) ∧
      (altChainOf final.alternativeChains 11).flatMap (·.2.multisigIds) = [500] ∧
      ∃ abei, after.alternativeChains.lookup 12 = some abei ∧ abei.multisigIds = [500] :=
  ⟨genesisOnly_genuine, spentOnce_genuine, genuine_altBlock rfl rfl, _, _, rfl, rfl, rfl, rfl,
    _, rfl, rfl⟩

end Concrete

end Zano.AltBlocks
