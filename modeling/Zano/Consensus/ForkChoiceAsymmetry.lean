import Zano.Consensus.ForkChoice

/-! # When the fork choice cannot flip-flop

Seen from outside, the rule compares two branches that leave a common prefix. `prefers` is that
comparison: it mentions no node, only the branches' weights and the difficulties at the split that
the node reads. The source's decision is this comparison (`isReorganizeRequired_eq_prefers`),
whichever of the two branches is the main one.

The quick check of hardfork 6 cannot send both nodes away. Everything else is decided by weights,
and these are opposite for the two nodes only while both heads choose the same formula and both
nodes read the same difficulties at the split; a cached next difficulty that is not current makes
the latter fail. `heads_across_hardfork06` is a pair of chains that each node would leave for the
other. With equal weights the fees of one branch can still stand against the proofs of the other,
when just one of the two heads is above hardfork 4.
-/

namespace Zano.Consensus

/-! ## The comparison of two branches -/

/-- The newest block of a type, the genesis block not counted. -/
def lastOfType (chain : List BlockExtendedInfo) (pos : Bool) : Option BlockExtendedInfo :=
  chain.tail.reverse.find? fun bei => bei.bl.isPos = pos

structure BranchWeight where
  head : BlockExtendedInfo
  posPrecise : WideDifficulty
  cumulDiff : Difficulties

/-- What the rule reads of the branch that `blocks` add to `common`. -/
def branchWeight (common blocks : List BlockExtendedInfo) (head : BlockExtendedInfo) :
    BranchWeight where
  head := head
  posPrecise := ((lastOfType (common ++ blocks) true).map (·.cumulativeDiffPrecise)).getD 0
  cumulDiff :=
    let diff (pos : Bool) :=
      ((lastOfType (common ++ blocks) pos).map (·.cumulativeDiffPreciseAdjusted)).getD 0 -
        ((lastOfType common pos).map (·.cumulativeDiffPreciseAdjusted)).getD 0
    ⟨diff true, diff false⟩

def quickPreference (forks : HardForks) (split : Nat) (main alt : BranchWeight) : Option Bool :=
  if forks.isHardforkActiveForHeight hardfork06 alt.head.height then
    let splitLength :=
      if alt.head.height > main.head.height then
        main.head.height - split else alt.head.height - split
    if splitLength < 30 then
      if main.posPrecise > alt.posPrecise then some false
      else if main.posPrecise < alt.posPrecise then some true else none
    else none
  else none

def relativeWeight (forks : HardForks) (height : Nat) (posAtSplit powAtSplit : WideDifficulty)
    (a b : Difficulties) : Option Nat :=
  if forks.isHardforkActiveForHeight hardfork06 height then
    getAToBRelativeCumulativeDifficultyHf6 posAtSplit powAtSplit a b
  else getAToBRelativeCumulativeDifficulty posAtSplit powAtSplit a b

def weightPreference (forks : HardForks) (atSplit : Bool → Option WideDifficulty)
    (main alt : BranchWeight) : Option Bool := do
  let posAtSplit ← atSplit true
  let powAtSplit ← atSplit false
  let altWeight ←
    relativeWeight forks alt.head.height posAtSplit powAtSplit alt.cumulDiff main.cumulDiff
  let mainWeight ←
    relativeWeight forks alt.head.height posAtSplit powAtSplit main.cumulDiff alt.cumulDiff
  return if mainWeight < altWeight then true
    else if mainWeight > altWeight then false
    else decideTie forks main.head alt.head alt.head.bl.proof

/-- Whether the branch `alt` displaces the branch `main`. -/
def prefers (forks : HardForks) (split : Nat) (atSplit : Bool → Option WideDifficulty)
    (main alt : BranchWeight) : Option Bool :=
  if !forks.isHardforkActiveForHeight 1 split then
    some (if main.head.cumulativeDiffAdjusted < alt.head.cumulativeDiffAdjusted then true
      else if main.head.cumulativeDiffAdjusted > alt.head.cumulativeDiffAdjusted then false
      else decideByProof main.head alt.head.bl.proof)
  else if forks.isHardforkActiveForHeight 1 alt.head.height then
    match quickPreference forks split main alt with
    | some decision => some decision
    | none => weightPreference forks atSplit main alt
  else none

/-! ## Asymmetry -/

/-- Two opposite strict comparisons can only both come out true through both of their
tie-breakers. -/
theorem ties_of_both {α : Type*} [LT α] [DecidableLT α] (asymm : ∀ x y : α, x < y → ¬ y < x)
    {x y : α} {tie tie' : Bool}
    (first : (if x < y then true else if x > y then false else tie) = true)
    (second : (if y < x then true else if y > x then false else tie') = true) :
    tie = true ∧ tie' = true := by
  by_cases less : x < y
  · have notGreater := asymm x y less
    rw [if_neg notGreater, if_pos less] at second
    cases second
  · by_cases greater : y < x
    · rw [if_neg less, if_pos greater] at first
      cases first
    · rw [if_neg less, if_neg greater] at first
      rw [if_neg greater, if_neg less] at second
      exact ⟨first, second⟩

/-- The head's stake hash is its proof when it is a PoS block. -/
def BranchWeight.HasStakeHash (w : BranchWeight) : Prop :=
  w.head.bl.isPos = true → w.head.stakeHash = w.head.bl.proof

theorem decideByProof_asymm {v w : BranchWeight} (stakeV : v.HasStakeHash) (stakeW : w.HasStakeHash)
    (first : decideByProof v.head w.head.bl.proof = true) :
    decideByProof w.head v.head.bl.proof ≠ true := by
  intro second
  simp only [decideByProof, Bool.and_eq_true, decide_eq_true_eq] at first second
  obtain ⟨posV, lessV⟩ := first
  obtain ⟨posW, lessW⟩ := second
  rw [stakeV posV] at lessV
  rw [stakeW posW] at lessW
  exact absurd lessV (BitVec.lt_asymm lessW)

/-- Only the node that sees a head above hardfork 4 counts fees. The branch of that head pays more,
and its proof loses. -/
structure FeesAgainstProofs (forks : HardForks) (low high : BranchWeight) : Prop where
  below : forks.isHardforkActiveForHeight hardfork04Zarcanum low.head.height = false
  above : forks.isHardforkActiveForHeight hardfork04Zarcanum high.head.height = true
  fees : summaryFee low.head < summaryFee high.head
  proofs : decideByProof high.head low.head.bl.proof = true

section Asymmetry

variable {forks : HardForks} {split : Nat} {atSplit : Bool → Option WideDifficulty}
  {v w : BranchWeight}

theorem FeesAgainstProofs.ties (against : FeesAgainstProofs forks v w) :
    decideTie forks v.head w.head w.head.bl.proof = true ∧
      decideTie forks w.head v.head v.head.bl.proof = true := by
  refine ⟨?_, ?_⟩
  · rw [decideTie, if_pos against.above, if_pos against.fees]
  · rw [decideTie, if_neg (by simp [against.below])]
    exact against.proofs

/-- When a tie goes against either main branch, one node has counted the fees and
the other has not. -/
theorem feesAgainstProofs_of_ties (stakeV : v.HasStakeHash) (stakeW : w.HasStakeHash)
    (aboveW : forks.isHardforkActiveForHeight hardfork04Zarcanum w.head.height = true)
    (first : decideTie forks v.head w.head w.head.bl.proof = true)
    (second : decideTie forks w.head v.head v.head.bl.proof = true) :
    FeesAgainstProofs forks v w := by
  unfold decideTie at first second
  rw [if_pos aboveW] at first
  cases aboveV : forks.isHardforkActiveForHeight hardfork04Zarcanum v.head.height with
  | true =>
      rw [if_pos aboveV] at second
      obtain ⟨byProofW, byProofV⟩ :=
        ties_of_both (fun _ _ => UInt64.lt_asymm) (x := summaryFee v.head) first second
      exact absurd byProofV (decideByProof_asymm stakeV stakeW byProofW)
  | false =>
      rw [if_neg (by simp [aboveV])] at second
      refine ⟨aboveV, aboveW, ?_, second⟩
      by_contra notMore
      rw [if_neg notMore] at first
      split at first
      · cases first
      · exact decideByProof_asymm stakeV stakeW first second

theorem ties_iff (stakeV : v.HasStakeHash) (stakeW : w.HasStakeHash) :
    (decideTie forks v.head w.head w.head.bl.proof = true ∧
        decideTie forks w.head v.head v.head.bl.proof = true) ↔
      FeesAgainstProofs forks v w ∨ FeesAgainstProofs forks w v := by
  constructor
  · rintro ⟨first, second⟩
    cases aboveW : forks.isHardforkActiveForHeight hardfork04Zarcanum w.head.height with
    | true => exact .inl (feesAgainstProofs_of_ties stakeV stakeW aboveW first second)
    | false =>
        cases aboveV : forks.isHardforkActiveForHeight hardfork04Zarcanum v.head.height with
        | true => exact .inr (feesAgainstProofs_of_ties stakeW stakeV aboveV second first)
        | false =>
            unfold decideTie at first second
            rw [if_neg (by simp [aboveW])] at first
            rw [if_neg (by simp [aboveV])] at second
            exact absurd second (decideByProof_asymm stakeV stakeW first)
  · rintro (against | against)
    · exact against.ties
    · exact against.ties.symm

theorem quickPreference_swap
    (sameRules : forks.isHardforkActiveForHeight hardfork06 v.head.height =
      forks.isHardforkActiveForHeight hardfork06 w.head.height) :
    quickPreference forks split w v = (quickPreference forks split v w).map (!·) := by
  have sameLength :
      (if v.head.height > w.head.height then w.head.height - split else v.head.height - split) =
        if w.head.height > v.head.height then v.head.height - split else w.head.height - split := by
    split <;> split <;> omega
  simp only [quickPreference, sameRules, sameLength]
  generalize (if w.head.height > v.head.height then v.head.height - split
    else w.head.height - split) = splitLength
  by_cases active : forks.isHardforkActiveForHeight hardfork06 w.head.height = true
  · simp only [active, if_true]
    by_cases short : splitLength < 30
    · simp only [short, if_true]
      by_cases less : v.posPrecise < w.posPrecise
      · simp [less, BitVec.lt_asymm less]
      · by_cases greater : w.posPrecise < v.posPrecise
        · simp [greater, BitVec.lt_asymm greater]
        · simp [less, greater]
    · simp [short]
  · simp [active]

/-- Each branch weighs as much against the other. -/
def Balanced (forks : HardForks) (atSplit : Bool → Option WideDifficulty)
    (v w : BranchWeight) : Prop :=
  ∃ posAtSplit powAtSplit weight, atSplit true = some posAtSplit ∧ atSplit false = some powAtSplit ∧
    relativeWeight forks w.head.height posAtSplit powAtSplit v.cumulDiff w.cumulDiff = some weight ∧
    relativeWeight forks w.head.height posAtSplit powAtSplit w.cumulDiff v.cumulDiff = some weight

/-- By the same formula and the same difficulties at the split, both branches are displaced just
when they are balanced and the ties go against both. -/
theorem weightPreferences_iff (stakeV : v.HasStakeHash) (stakeW : w.HasStakeHash)
    (sameRules : forks.isHardforkActiveForHeight hardfork06 v.head.height =
      forks.isHardforkActiveForHeight hardfork06 w.head.height) :
    (weightPreference forks atSplit v w = some true ∧
      weightPreference forks atSplit w v = some true) ↔
      Balanced forks atSplit v w ∧ (FeesAgainstProofs forks v w ∨ FeesAgainstProofs forks w v) := by
  have sameWeight : relativeWeight forks v.head.height = relativeWeight forks w.head.height := by
    funext posAtSplit powAtSplit a b
    simp only [relativeWeight, sameRules]
  rw [← ties_iff stakeV stakeW]
  unfold weightPreference
  rw [sameWeight]
  constructor
  · rintro ⟨first, second⟩
    obtain ⟨posAtSplit, posRead, first⟩ := Option.bind_eq_some_iff.mp first
    obtain ⟨powAtSplit, powRead, first⟩ := Option.bind_eq_some_iff.mp first
    obtain ⟨weightW, computedW, first⟩ := Option.bind_eq_some_iff.mp first
    obtain ⟨weightV, computedV, first⟩ := Option.bind_eq_some_iff.mp first
    rw [posRead, powRead] at second
    simp only [Option.bind_eq_bind, Option.bind_some, computedV, computedW, Option.pure_def,
      Option.some.injEq] at first second
    have ties := ties_of_both (fun _ _ => Nat.lt_asymm) (x := weightV) first second
    have equal : weightV = weightW := by
      by_contra differ
      obtain less | greater := Nat.lt_or_gt_of_ne differ
      · rw [if_neg (Nat.lt_asymm less), if_pos less] at second
        cases second
      · rw [if_neg (Nat.lt_asymm greater), if_pos greater] at first
        cases first
    exact ⟨⟨posAtSplit, powAtSplit, weightW, posRead, powRead, equal ▸ computedV, computedW⟩, ties⟩
  · rintro ⟨⟨posAtSplit, powAtSplit, weight, posRead, powRead, computedV, computedW⟩, tieW, tieV⟩
    simp [posRead, powRead, computedV, computedW, tieW, tieV]

/-- What keeps at least one of two nodes on its branch, `v` on the one and `w` on the other. -/
inductive NoFlipFlop (forks : HardForks) (split : Nat)
    (atSplitV atSplitW : Bool → Option WideDifficulty)
    (v w : BranchWeight) : Prop
  | beforeHardfork1 (inactive : forks.isHardforkActiveForHeight 1 split = false)
  | quickCheckKeepsFirst (keeps : quickPreference forks split v w = some false)
  | quickCheckKeepsSecond (keeps : quickPreference forks split w v = some false)
  | byWeight
      (sameRules : forks.isHardforkActiveForHeight hardfork06 v.head.height =
        forks.isHardforkActiveForHeight hardfork06 w.head.height)
      (sameSplit : atSplitV = atSplitW)
      (decided : ¬ (Balanced forks atSplitV v w ∧
        (FeesAgainstProofs forks v w ∨ FeesAgainstProofs forks w v)))

variable {atSplitV atSplitW : Bool → Option WideDifficulty}

theorem NoFlipFlop.prefers_asymm (kept : NoFlipFlop forks split atSplitV atSplitW v w)
    (stakeV : v.HasStakeHash) (stakeW : w.HasStakeHash)
    (first : prefers forks split atSplitV v w = some true) :
    prefers forks split atSplitW w v ≠ some true := by
  intro second
  unfold prefers at first second
  cases active : forks.isHardforkActiveForHeight 1 split with
  | false =>
      simp only [active, Bool.not_false, if_true, Option.some.injEq] at first second
      obtain ⟨byProofW, byProofV⟩ := ties_of_both (fun _ _ => BitVec.lt_asymm)
        (x := v.head.cumulativeDiffAdjusted) first second
      exact decideByProof_asymm stakeV stakeW byProofW byProofV
  | true =>
      simp only [active, Bool.not_true, Bool.false_eq_true, if_false] at first second
      split at first
      · split at second
        · cases kept with
          | beforeHardfork1 inactive => rw [active] at inactive; cases inactive
          | quickCheckKeepsFirst keeps => simp [keeps] at first
          | quickCheckKeepsSecond keeps => simp [keeps] at second
          | byWeight sameRules sameSplit decided =>
              subst sameSplit
              rw [quickPreference_swap sameRules] at second
              cases quick : quickPreference forks split v w with
              | some decision =>
                  simp only [quick, Option.map_some, Option.some.injEq] at first second
                  rw [first] at second
                  cases second
              | none =>
                  simp only [quick, Option.map_none] at first second
                  exact decided ((weightPreferences_iff stakeV stakeW sameRules).mp ⟨first, second⟩)
        · cases second
      · cases first

/-- With the same rules and the same difficulties at the split nothing else keeps a
node on its branch. -/
theorem noFlipFlop_of_prefers (stakeV : v.HasStakeHash) (stakeW : w.HasStakeHash)
    (sameRules : forks.isHardforkActiveForHeight hardfork06 v.head.height =
      forks.isHardforkActiveForHeight hardfork06 w.head.height)
    (above : split ≤ v.head.height ∧ split ≤ w.head.height)
    (notBoth : ¬ (prefers forks split atSplit v w = some true ∧
      prefers forks split atSplit w v = some true)) :
    NoFlipFlop forks split atSplit atSplit v w := by
  cases active : forks.isHardforkActiveForHeight 1 split with
  | false => exact .beforeHardfork1 active
  | true =>
      cases quick : quickPreference forks split v w with
      | some decision =>
          cases decision with
          | false => exact .quickCheckKeepsFirst quick
          | true =>
              exact .quickCheckKeepsSecond (by rw [quickPreference_swap sameRules, quick]; rfl)
      | none =>
          refine .byWeight sameRules rfl fun tied => notBoth ?_
          have quickSwap : quickPreference forks split w v = none := by
            rw [quickPreference_swap sameRules, quick]
            rfl
          have activeAbove : ∀ height, split ≤ height →
              forks.isHardforkActiveForHeight 1 height = true := by
            intro height higher
            simp only [HardForks.isHardforkActiveForHeight, Bool.or_eq_true,
              decide_eq_true_eq] at active ⊢
            omega
          simp only [prefers, active, activeAbove _ above.1, activeAbove _ above.2, quick,
            quickSwap, Bool.not_true, Bool.false_eq_true, if_false, if_true]
          exact (weightPreferences_iff stakeV stakeW sameRules).mpr tied

end Asymmetry

/-! ## The node's decision is this comparison -/

section Refinement

variable {forks : HardForks} {posMinimumHeight : Nat} {common main alt : List BlockExtendedInfo}

theorem heights_of_consistent {chain : List BlockExtendedInfo}
    (consistent : Consistent forks posMinimumHeight chain) (i : Nat) (inside : i < chain.length) :
    chain[i].height = i ∧
      chain[i].stakeHash = (if chain[i].bl.isPos then chain[i].bl.proof else 0) ∧
      chain[i].difficulty ≠ 0 ∧
      getNextDiffConditional forks (chain.take i) chain[i].bl.isPos = some chain[i].difficulty := by
  induction consistent with
  | nil => simp at inside
  | @snoc chain bl bei _ extended inductionHypothesis =>
      obtain ⟨sameBlock, height, nonzero, difficulty, stake⟩ := extendedInfo_spec extended
      by_cases earlier : i < chain.length
      · rw [List.getElem_append_left earlier, List.take_append_of_le_length (by omega)]
        exact inductionHypothesis earlier
      · have last : i = chain.length := by
          simp only [List.length_append, List.length_singleton] at inside
          omega
        subst last
        simp only [List.getElem_concat_length, List.take_left, sameBlock]
        exact ⟨height, stake, nonzero, difficulty⟩

theorem lastOfType_append (nonempty : common ≠ []) (pos : Bool) :
    lastOfType (common ++ alt) pos =
      (alt.reverse.find? fun bei => bei.bl.isPos = pos).or (lastOfType common pos) := by
  cases common with
  | nil => exact absurd rfl nonempty
  | cons genesis rest => simp [lastOfType, List.find?_append]

/-- Read from a node on the other branch, the newest block of a type is the one of
the branch itself. -/
theorem getLastAltXBlock_alt {node : Node} (nonempty : common ≠ [])
    (onMain : node.dbBlocks = common ++ main) {connection : BlockExtendedInfo}
    (connected : alt.head? = some connection) (height : connection.height = common.length)
    (start : Nat) (pos : Bool) :
    getLastAltXBlock node alt start pos = lastOfType (common ++ alt) pos := by
  have positive : 0 < common.length := List.length_pos_iff.mpr nonempty
  have commonPart : (node.dbBlocks.take (common.length - 1 + 1)).tail = common.tail := by
    rw [onMain, Nat.sub_add_cancel positive, List.take_left]
  have bound : common.length - 1 < node.dbBlocks.length := by
    simp only [onMain, List.length_append]
    omega
  rw [lastOfType_append nonempty, getLastAltXBlock]
  cases found : alt.reverse.find? fun bei => bei.bl.isPos = pos with
  | some bei => simp
  | none => simp [connected, height, bound, commonPart, lastOfType]

/-- Down from the top of the main chain. -/
theorem getLastAltXBlock_main {node : Node} (nonempty : node.dbBlocks ≠ []) (pos : Bool) :
    getLastAltXBlock node [] (node.dbBlocks.length - 1) pos = lastOfType node.dbBlocks pos := by
  have positive : 0 < node.dbBlocks.length := List.length_pos_iff.mpr nonempty
  have bound : node.dbBlocks.length - 1 < node.dbBlocks.length := by omega
  simp only [getLastAltXBlock, List.reverse_nil, List.find?_nil, List.head?_nil, if_pos bound,
    Nat.sub_add_cancel positive, List.take_length, lastOfType]

/-- Down from the last common block. -/
theorem getLastAltXBlock_split {node : Node} (nonempty : common ≠ [])
    (onMain : node.dbBlocks = common ++ main) (pos : Bool) :
    getLastAltXBlock node [] (common.length - 1) pos = lastOfType common pos := by
  have positive : 0 < common.length := List.length_pos_iff.mpr nonempty
  have bound : common.length - 1 < node.dbBlocks.length := by
    simp only [onMain, List.length_append]
    omega
  have commonPart : (node.dbBlocks.take (common.length - 1 + 1)).tail = common.tail := by
    rw [onMain, Nat.sub_add_cancel positive, List.take_left]
  simp [getLastAltXBlock, lastOfType, bound, commonPart]

/-- The cached next difficulty of a type is current wherever the rule may consult it: when the
node's own branch has no block of the type. -/
def CacheCurrent (forks : HardForks) (node : Node) (main : List BlockExtendedInfo) : Prop :=
  ∀ pos, (∀ bei ∈ main, bei.bl.isPos ≠ pos) → node.cachedNextDifficulty pos = 0 ∨
    getNextDiffConditional forks node.dbBlocks pos = some (node.cachedNextDifficulty pos)

/-- With a current cache the difficulty at the split belongs to the common part alone: the first
block of the type on either branch was mined at this very difficulty. -/
theorem getXDifficultyAfterHeight_split {node : Node} (nonempty : common ≠ [])
    (onMain : node.dbBlocks = common ++ main)
    (consistent : Consistent forks posMinimumHeight (common ++ main))
    (active : forks.isHardforkActiveForHeight 1 common.length = true)
    (current : CacheCurrent forks node main) (pos : Bool) :
    getXDifficultyAfterHeight forks node (common.length - 1) pos =
      getNextDiffConditional forks common pos := by
  have positive : 0 < common.length := List.length_pos_iff.mpr nonempty
  have bound : common.length - 1 < node.dbBlocks.length := by
    simp only [onMain, List.length_append]
    omega
  have branch : node.dbBlocks.drop (common.length - 1 + 1) = main := by
    rw [onMain, Nat.sub_add_cancel positive, List.drop_left]
  rw [getXDifficultyAfterHeight, if_pos bound, branch]
  cases found : main.find? fun bei => bei.bl.isPos = pos with
  | none =>
      have noneOnMain : ∀ bei ∈ main, bei.bl.isPos ≠ pos := by
        simpa using found
      have sameNext := getNextDiff_append_of_none nonempty noneOnMain active
      simp only [getCachedNextDifficulty, onMain, sameNext]
      split
      · rfl
      · rename_i cached
        have fresh := (current pos noneOnMain).resolve_left cached
        rw [onMain, sameNext] at fresh
        exact fresh.symm
  | some bei =>
      obtain ⟨isType, i, inside, rfl, earlier⟩ := List.find?_eq_some_iff_getElem.mp found
      have isType : main[i].bl.isPos = pos := by simpa using isType
      have place : common.length + i < (common ++ main).length := by
        simp only [List.length_append]
        omega
      obtain ⟨-, -, nonzero, difficulty⟩ := heights_of_consistent consistent _ place
      have sameBlock : (common ++ main)[common.length + i] = main[i] := by
        simp
      rw [sameBlock] at nonzero difficulty
      have noneEarlier : ∀ bei ∈ main.take i, bei.bl.isPos ≠ pos := by
        intro bei taken
        obtain ⟨j, jInside, rfl⟩ := List.getElem_of_mem taken
        have jBound : j < i := by
          simp only [List.length_take] at jInside
          omega
        simpa using earlier j jBound
      rw [List.take_length_add_append, isType,
        getNextDiff_append_of_none nonempty noneEarlier active] at difficulty
      simp only [nonzero, if_false]
      exact difficulty.symm

/-- Two branches that leave a common part, none of them empty. -/
structure Fork (forks : HardForks) (posMinimumHeight : Nat)
    (common a b : List BlockExtendedInfo) : Prop where
  shared : common ≠ []
  first : a ≠ []
  second : b ≠ []
  firstConsistent : Consistent forks posMinimumHeight (common ++ a)
  secondConsistent : Consistent forks posMinimumHeight (common ++ b)

variable {a b : List BlockExtendedInfo}

theorem Fork.symm (fork : Fork forks posMinimumHeight common a b) :
    Fork forks posMinimumHeight common b a :=
  ⟨fork.shared, fork.second, fork.first, fork.secondConsistent, fork.firstConsistent⟩

theorem Fork.connection (fork : Fork forks posMinimumHeight common a b) :
    ∃ connection, b.head? = some connection ∧ connection.height = common.length := by
  obtain ⟨connection, rest, shape⟩ := List.exists_cons_of_ne_nil fork.second
  have place : common.length < (common ++ b).length := by
    simp [shape]
  have height := (heights_of_consistent fork.secondConsistent _ place).1
  refine ⟨connection, by simp [shape], ?_⟩
  simpa [shape] using height

theorem hasStakeHash_of_consistent {common blocks : List BlockExtendedInfo}
    (consistent : Consistent forks posMinimumHeight (common ++ blocks)) (nonempty : blocks ≠ []) :
    (branchWeight common blocks (blocks.getLast nonempty)).HasStakeHash := by
  have positive : 0 < blocks.length := List.length_pos_iff.mpr nonempty
  have place : common.length + (blocks.length - 1) < (common ++ blocks).length := by
    simp only [List.length_append]
    omega
  have stake := (heights_of_consistent consistent _ place).2.1
  intro isPos
  have sameBlock : (common ++ blocks)[common.length + (blocks.length - 1)] =
      blocks.getLast nonempty := by
    rw [List.getElem_append_right (by omega), List.getLast_eq_getElem]
    simp
  rw [sameBlock] at stake
  have isPosHead : (blocks.getLast nonempty).bl.isPos = true := isPos
  simpa only [branchWeight, isPosHead, if_true] using stake

/-- The head of the branch is not below the split. -/
theorem split_le_head {common blocks : List BlockExtendedInfo}
    (consistent : Consistent forks posMinimumHeight (common ++ blocks)) (nonempty : blocks ≠ []) :
    common.length ≤ (blocks.getLast nonempty).height := by
  have positive : 0 < blocks.length := List.length_pos_iff.mpr nonempty
  have place : common.length + (blocks.length - 1) < (common ++ blocks).length := by
    simp only [List.length_append]
    omega
  have height := (heights_of_consistent consistent _ place).1
  have sameBlock : (common ++ blocks)[common.length + (blocks.length - 1)] =
      blocks.getLast nonempty := by
    rw [List.getElem_append_right (by omega), List.getLast_eq_getElem]
    simp
  rw [sameBlock] at height
  omega

/-- While both caches are current the two nodes read the same difficulties at the split. -/
theorem Fork.sameSplit (fork : Fork forks posMinimumHeight common a b) (nodeA nodeB : Node)
    (onA : nodeA.dbBlocks = common ++ a) (onB : nodeB.dbBlocks = common ++ b)
    (active : forks.isHardforkActiveForHeight 1 common.length = true)
    (currentA : CacheCurrent forks nodeA a) (currentB : CacheCurrent forks nodeB b) :
    getXDifficultyAfterHeight forks nodeA (common.length - 1) =
      getXDifficultyAfterHeight forks nodeB (common.length - 1) := by
  funext pos
  rw [getXDifficultyAfterHeight_split fork.shared onA fork.firstConsistent active currentA,
    getXDifficultyAfterHeight_split fork.shared onB fork.secondConsistent active currentB]

/-- The source's decision, made by a node on the branch `a` about the branch `b`. -/
theorem isReorganizeRequired_eq_prefers {node : Node}
    (fork : Fork forks posMinimumHeight common a b) (onMain : node.dbBlocks = common ++ a) :
    isReorganizeRequired forks node b (b.getLast fork.second).bl.proof =
      prefers forks common.length (getXDifficultyAfterHeight forks node (common.length - 1))
        (branchWeight common a (a.getLast fork.first))
        (branchWeight common b (b.getLast fork.second)) := by
  obtain ⟨connection, connected, height⟩ := fork.connection
  have nonempty : node.dbBlocks ≠ [] := by simp [onMain, fork.shared]
  have mainHead : node.dbBlocks.getLast? = some (a.getLast fork.first) := by
    rw [onMain, List.getLast?_append, List.getLast?_eq_some_getLast fork.first]
    rfl
  have altHead : b.getLast? = some (b.getLast fork.second) :=
    List.getLast?_eq_some_getLast fork.second
  have altBlock := getLastAltXBlock_alt fork.shared onMain connected height
  have splitBlock := getLastAltXBlock_split fork.shared onMain
  have mainBlock := getLastAltXBlock_main nonempty
  rw [onMain] at mainBlock
  simp only [isReorganizeRequired, mainHead, altHead, connected, Option.bind_eq_bind,
    Option.bind_some, Option.pure_def, height, prefers]
  cases active : forks.isHardforkActiveForHeight 1 common.length with
  | false => simp [branchWeight]
  | true =>
      have quick : quickCheck forks node b connection (a.getLast fork.first)
          (b.getLast fork.second) =
            quickPreference forks common.length (branchWeight common a (a.getLast fork.first))
              (branchWeight common b (b.getLast fork.second)) := by
        simp only [quickCheck, quickPreference,
          getLastAltXBlockCumulativePreciseDifficulty, altBlock, onMain, mainBlock, height,
          branchWeight]
        rfl
      have weight : decideByWeight forks node b connection (a.getLast fork.first)
          (b.getLast fork.second) (b.getLast fork.second).bl.proof =
            weightPreference forks (getXDifficultyAfterHeight forks node (common.length - 1))
              (branchWeight common a (a.getLast fork.first))
              (branchWeight common b (b.getLast fork.second)) := by
        simp only [decideByWeight, weightPreference, height, altCumulDiff, mainCumulDiff,
          getLastAltXBlockCumulativePreciseAdjDifficulty, altBlock, splitBlock, onMain, mainBlock,
          branchWeight, relativeWeight]
        by_cases hf6 : forks.isHardforkActiveForHeight hardfork06 (b.getLast fork.second).height <;>
          simp only [hf6, if_true, if_false, Bool.false_eq_true]
      simp only [Bool.not_true, Bool.false_eq_true, if_false, quick, weight]
      rfl

end Refinement

/-! ## The fork choice as a whole -/

/-- At most one of two nodes leaves its branch for the other's, before hardfork 1, when the
quick check keeps one of them, and when both use the same formula and read the same difficulties
at the split, unless the branches are balanced and fees stand against proofs. In the last case
both nodes leave. -/
theorem fork_choice_asymmetric {forks : HardForks} {posMinimumHeight : Nat}
    {common a b : List BlockExtendedInfo} (fork : Fork forks posMinimumHeight common a b)
    (nodeA nodeB : Node) (onA : nodeA.dbBlocks = common ++ a) (onB : nodeB.dbBlocks = common ++ b) :
    (NoFlipFlop forks common.length (getXDifficultyAfterHeight forks nodeA (common.length - 1))
        (getXDifficultyAfterHeight forks nodeB (common.length - 1))
        (branchWeight common a (a.getLast fork.first))
          (branchWeight common b (b.getLast fork.second)) →
      ¬ (isReorganizeRequired forks nodeA b (b.getLast fork.second).bl.proof = some true ∧
        isReorganizeRequired forks nodeB a (a.getLast fork.first).bl.proof = some true)) ∧
    (forks.isHardforkActiveForHeight hardfork06 (a.getLast fork.first).height =
        forks.isHardforkActiveForHeight hardfork06 (b.getLast fork.second).height →
      getXDifficultyAfterHeight forks nodeA (common.length - 1) =
        getXDifficultyAfterHeight forks nodeB (common.length - 1) →
      ¬ (isReorganizeRequired forks nodeA b (b.getLast fork.second).bl.proof = some true ∧
        isReorganizeRequired forks nodeB a (a.getLast fork.first).bl.proof = some true) →
      NoFlipFlop forks common.length (getXDifficultyAfterHeight forks nodeA (common.length - 1))
        (getXDifficultyAfterHeight forks nodeB (common.length - 1))
        (branchWeight common a (a.getLast fork.first))
        (branchWeight common b (b.getLast fork.second))) := by
  rw [isReorganizeRequired_eq_prefers fork onA, isReorganizeRequired_eq_prefers fork.symm onB]
  have stakeA := hasStakeHash_of_consistent fork.firstConsistent fork.first
  have stakeB := hasStakeHash_of_consistent fork.secondConsistent fork.second
  constructor
  · rintro kept ⟨leavesA, leavesB⟩
    exact kept.prefers_asymm stakeA stakeB leavesA leavesB
  · intro sameRules sameSplit notBoth
    rw [← sameSplit] at notBoth ⊢
    exact noFlipFlop_of_prefers stakeA stakeB sameRules
      ⟨split_le_head fork.firstConsistent fork.first,
        split_le_head fork.secondConsistent fork.second⟩
      notBoth

/-! ## Concrete forks -/

/-- Hardfork 6 is active above the given height, all others from height 1 on. -/
def hardfork06After (height : Nat) : HardForks :=
  ⟨fun hardforkId => if hardforkId = 6 then height else 0⟩

def powBlock (timestamp : UInt64) : Block := ⟨false, timestamp, 0, 0, 0⟩

def posBlock (timestamp : UInt64) : Block := ⟨true, timestamp, 5, 0, 0⟩

/-- The records of a genesis block and of the blocks after it. -/
def chainFrom (forks : HardForks) (bls : List Block) : List BlockExtendedInfo :=
  (buildChain forks 0 [] (powBlock 0 :: bls)).getD []

/-- Two chains that can be built and agree up to some height are a fork. -/
theorem fork_of_built {forks : HardForks} (splitHeight : Nat) {as bs : List Block}
    (builtA : (buildChain forks 0 [] (powBlock 0 :: as)).isSome = true)
    (builtB : (buildChain forks 0 [] (powBlock 0 :: bs)).isSome = true)
    (agree : (chainFrom forks bs).take splitHeight = (chainFrom forks as).take splitHeight)
    (shared : (chainFrom forks as).take splitHeight ≠ [])
    (nonemptyA : (chainFrom forks as).drop splitHeight ≠ [])
    (nonemptyB : (chainFrom forks bs).drop splitHeight ≠ []) :
    Fork forks 0 ((chainFrom forks as).take splitHeight) ((chainFrom forks as).drop splitHeight)
      ((chainFrom forks bs).drop splitHeight) := by
  have consistent : ∀ bls, (buildChain forks 0 [] (powBlock 0 :: bls)).isSome = true →
      Consistent forks 0 (chainFrom forks bls) := by
    intro bls built
    obtain ⟨chain, built⟩ := Option.isSome_iff_exists.mp built
    rw [chainFrom, built]
    exact consistent_buildChain .nil built
  refine ⟨shared, nonemptyA, nonemptyB, ?_, ?_⟩
  · rw [List.take_append_drop]
    exact consistent as builtA
  · rw [← agree, List.take_append_drop]
    exact consistent bs builtB

def fourPow (forks : HardForks) : List BlockExtendedInfo :=
  chainFrom forks [powBlock 1000, powBlock 1001, powBlock 1002, powBlock 1003]

def fourPos (forks : HardForks) : List BlockExtendedInfo :=
  chainFrom forks [posBlock 1000, posBlock 1120, posBlock 1240, posBlock 1360]

theorem fork_four (height : Nat) (known : height = 3 ∨ height = 100) :
    Fork (hardfork06After height) 0 ((fourPow (hardfork06After height)).take 1)
      ((fourPow (hardfork06After height)).drop 1) ((fourPos (hardfork06After height)).drop 1) := by
  rcases known with rfl | rfl <;>
    exact fork_of_built 1 (by decide) (by decide) (by decide) (by decide) (by decide) (by decide)

/-- Four PoW blocks against four PoS blocks with nothing cached: the quick check decides above
hardfork 6, the weights do below it. -/
theorem fork_choice_asymmetric_four :
    (¬ (isReorganizeRequired (hardfork06After 3) ⟨fourPow (hardfork06After 3), fun _ => 0⟩
          ((fourPos (hardfork06After 3)).drop 1) 5 = some true ∧
        isReorganizeRequired (hardfork06After 3) ⟨fourPos (hardfork06After 3), fun _ => 0⟩
          ((fourPow (hardfork06After 3)).drop 1) 0 = some true)) ∧
      ¬ (isReorganizeRequired (hardfork06After 100) ⟨fourPow (hardfork06After 100), fun _ => 0⟩
          ((fourPos (hardfork06After 100)).drop 1) 5 = some true ∧
        isReorganizeRequired (hardfork06After 100) ⟨fourPos (hardfork06After 100), fun _ => 0⟩
          ((fourPow (hardfork06After 100)).drop 1) 0 = some true) := by
  constructor
  · exact (fork_choice_asymmetric (fork_four 3 (.inl rfl))
      ⟨fourPow (hardfork06After 3), fun _ => 0⟩
      ⟨fourPos (hardfork06After 3), fun _ => 0⟩ (by decide) (by decide)).1
      (.quickCheckKeepsSecond (by decide))
  · have sameSplit := (fork_four 100 (.inr rfl)).sameSplit
      ⟨fourPow (hardfork06After 100), fun _ => 0⟩
      ⟨fourPos (hardfork06After 100), fun _ => 0⟩ (by decide) (by decide) (by decide)
      (fun _ _ => .inl rfl) (fun _ _ => .inl rfl)
    refine (fork_choice_asymmetric (fork_four 100 (.inr rfl))
      ⟨fourPow (hardfork06After 100), fun _ => 0⟩
      ⟨fourPos (hardfork06After 100), fun _ => 0⟩ (by decide) (by decide)).1
      (.byWeight (by decide) sameSplit ?_)
    rintro ⟨-, against | against⟩
    · exact absurd against.below (by decide)
    · exact absurd against.below (by decide)

/-- Three PoW blocks that end below hardfork 6 against four PoS blocks that end above it. By the
rules of hardfork 6 the PoS branch wins on PoS difficulty; by the rules before it the PoW branch
wins on weight. Both nodes reorganize, although neither cache holds anything stale. -/
theorem heads_across_hardfork06 :
    Fork (hardfork06After 3) 0
        ((chainFrom (hardfork06After 3) [powBlock 1000, powBlock 1001, powBlock 1002]).take 1)
        ((chainFrom (hardfork06After 3) [powBlock 1000, powBlock 1001, powBlock 1002]).drop 1)
        ((chainFrom (hardfork06After 3)
          [posBlock 1000, posBlock 1120, posBlock 1240, posBlock 1360]).drop 1) ∧
      isReorganizeRequired (hardfork06After 3)
          ⟨chainFrom (hardfork06After 3) [powBlock 1000, powBlock 1001, powBlock 1002], fun _ => 0⟩
          ((chainFrom (hardfork06After 3)
            [posBlock 1000, posBlock 1120, posBlock 1240, posBlock 1360]).drop 1) 5 = some true ∧
      isReorganizeRequired (hardfork06After 3)
          ⟨chainFrom (hardfork06After 3)
            [posBlock 1000, posBlock 1120, posBlock 1240, posBlock 1360], fun _ => 0⟩
          ((chainFrom (hardfork06After 3)
            [powBlock 1000, powBlock 1001, powBlock 1002]).drop 1) 0 = some true :=
  ⟨fork_of_built 1 (by decide) (by decide) (by decide) (by decide) (by decide) (by decide),
    by decide, by decide⟩

/-- Both heads below hardfork 6. The node on the PoW branch still caches the PoS difficulty 1 that
its last PoS block was validated with; the next one is 120, as the other branch shows. Each node
leaves its branch. -/
theorem stale_next_difficulty :
    Fork (hardfork06After 100) 0
        ((chainFrom (hardfork06After 100)
          [posBlock 1000, posBlock 1001, powBlock 2000, powBlock 2003, powBlock 2006]).take 3)
        ((chainFrom (hardfork06After 100)
          [posBlock 1000, posBlock 1001, powBlock 2000, powBlock 2003, powBlock 2006]).drop 3)
        ((chainFrom (hardfork06After 100) [posBlock 1000, posBlock 1001, posBlock 2000]).drop 3) ∧
      isReorganizeRequired (hardfork06After 100)
          ⟨chainFrom (hardfork06After 100)
            [posBlock 1000, posBlock 1001, powBlock 2000, powBlock 2003, powBlock 2006], fun pos =>
              if pos then 1 else 0⟩
          ((chainFrom (hardfork06After 100)
            [posBlock 1000, posBlock 1001, posBlock 2000]).drop 3) 5 = some true ∧
      isReorganizeRequired (hardfork06After 100)
          ⟨chainFrom (hardfork06After 100) [posBlock 1000, posBlock 1001, posBlock 2000],
            fun _ => 0⟩
          ((chainFrom (hardfork06After 100) [posBlock 1000, posBlock 1001, powBlock 2000,
            powBlock 2003, powBlock 2006]).drop 3) 0 = some true :=
  ⟨fork_of_built 3 (by decide) (by decide) (by decide) (by decide) (by decide) (by decide),
    by decide, by decide⟩

end Zano.Consensus
