import Mathlib
import Zano.AltBlocks.GlobalIndexes
import Zano.AltBlocks.Acceptance

/-! # Alternative chains in the container

As long as nothing is taken away, every alternative block follows another one or a block of the main
chain, one lower. The walk back from a block then ends at the main chain, and what it has passed
stays as it is when blocks are added.
-/

namespace Zano.AltBlocks

variable {Hash KeyImage Key : Type*} [DecidableEq Hash] [DecidableEq KeyImage]
  {s s' : Node Hash KeyImage Key} {id : Hash} {abei : AltBlockExtendedInfo Hash KeyImage Key}

/-- The alternative blocks up to this one. -/
def Node.chainTo (s : Node Hash KeyImage Key) (id : Hash) : AltChain Hash KeyImage Key :=
  altChainOf s.alternativeChains id

/-- The alternative blocks before a block. -/
def Node.chainBefore (s : Node Hash KeyImage Key) (abei : AltBlockExtendedInfo Hash KeyImage Key) :
    AltChain Hash KeyImage Key :=
  s.chainTo abei.bl.prevId

/-- The previous block is an alternative one, or one of the main chain only. -/
inductive Follows (s : Node Hash KeyImage Key)
    (abei : AltBlockExtendedInfo Hash KeyImage Key) : Prop where
  | alternative (prev : AltBlockExtendedInfo Hash KeyImage Key)
      (isThere : s.altBlock abei.bl.prevId = some prev) (higher : abei.height = prev.height + 1)
  | main (notThere : s.altBlock abei.bl.prevId = none) (height : Nat)
      (inMain : mainHeight s.main.db abei.bl.prevId = some height)
      (higher : abei.height = height + 1)

def Linked (s : Node Hash KeyImage Key) : Prop :=
  ∀ id abei, s.altBlock id = some abei → Follows s abei

theorem Linked.height_pos (linked : Linked s)
    (isThere : s.altBlock id = some abei) : 0 < abei.height := by
  cases linked id abei isThere with
  | alternative prev _ higher => omega
  | main _ height _ higher => omega

theorem chainTo_of_none (notThere : s.altBlock id = none) : s.chainTo id = [] := by
  have missing : s.alternativeChains.lookup id = none := notThere
  rw [Node.chainTo, altChainOf, missing]

omit [DecidableEq KeyImage] in
theorem altChainTo_of_none
    {alternativeChains : AList fun _ : Hash => AltBlockExtendedInfo Hash KeyImage Key} {fuel : Nat}
    (notThere : alternativeChains.lookup id = none) :
    altChainTo alternativeChains fuel id = [] := by
  cases fuel with
  | zero => rfl
  | succ fuel => rw [altChainTo, notThere]

/-- More steps than the height are never taken. -/
theorem Linked.altChainTo_eq {fuel fuel' : Nat} (linked : Linked s)
    (isThere : s.altBlock id = some abei) (enough : abei.height ≤ fuel)
    (enough' : abei.height ≤ fuel') :
    altChainTo s.alternativeChains fuel id = altChainTo s.alternativeChains fuel' id := by
  induction fuel generalizing id abei fuel' with
  | zero =>
      have := linked.height_pos isThere
      omega
  | succ fuel inductionHypothesis =>
      have positive := linked.height_pos isThere
      obtain ⟨fuel', rfl⟩ : ∃ k, fuel' = k + 1 := ⟨fuel' - 1, by omega⟩
      have found : s.alternativeChains.lookup id = some abei := isThere
      rw [altChainTo, altChainTo, found]
      dsimp only
      cases linked id abei isThere with
      | alternative prev prevThere higher =>
          have previous : altChainTo s.alternativeChains fuel abei.bl.prevId =
              altChainTo s.alternativeChains fuel' abei.bl.prevId :=
            inductionHypothesis prevThere (by omega) (by omega)
          rw [previous]
      | main notThere _ _ _ => rw [altChainTo_of_none notThere, altChainTo_of_none notThere]

theorem Linked.chainTo_eq (linked : Linked s) (isThere : s.altBlock id = some abei) :
    s.chainTo id = s.chainBefore abei ++ [(id, abei)] := by
  have positive := linked.height_pos isThere
  have found : s.alternativeChains.lookup id = some abei := isThere
  obtain ⟨height, isHeight⟩ : ∃ k, abei.height = k + 1 := ⟨abei.height - 1, by omega⟩
  rw [Node.chainTo, altChainOf, found]
  dsimp only
  rw [isHeight, altChainTo, found, Node.chainBefore]
  dsimp only
  cases linked id abei isThere with
  | alternative prev prevThere higher =>
      have prevFound : s.alternativeChains.lookup abei.bl.prevId = some prev := prevThere
      rw [Node.chainTo, altChainOf, prevFound,
        linked.altChainTo_eq prevThere (by omega) (le_refl prev.height)]
  | main notThere _ _ _ => rw [chainTo_of_none notThere, altChainTo_of_none notThere]

/-- Induction along the alternative chains. -/
theorem Linked.induct {P : Hash → AltBlockExtendedInfo Hash KeyImage Key → Prop} (linked : Linked s)
    (follows : ∀ id abei, s.altBlock id = some abei →
      (∀ prev, s.altBlock abei.bl.prevId = some prev → P abei.bl.prevId prev) → P id abei)
    (isThere : s.altBlock id = some abei) : P id abei := by
  generalize isHeight : abei.height = height
  induction height using Nat.strong_induction_on generalizing id abei with
  | h height inductionHypothesis =>
      apply follows id abei isThere
      intro prev prevThere
      cases linked id abei isThere with
      | alternative prev' prevThere' higher =>
          rw [prevThere] at prevThere'
          cases prevThere'
          exact inductionHypothesis prev.height (by omega) prevThere rfl
      | main notThere _ _ _ =>
          rw [prevThere] at notThere
          cases notThere

/-- The height at which the chain before a block leaves the main chain. -/
def Node.splitHeight (s : Node Hash KeyImage Key)
    (abei : AltBlockExtendedInfo Hash KeyImage Key) : Nat :=
  abei.height - (s.chainBefore abei).length

/-- The first block of an alternative chain follows the main chain at the height
where it leaves it. -/
structure StartsAt (s : Node Hash KeyImage Key) (front : AltBlockExtendedInfo Hash KeyImage Key)
    (splitHeight : Nat) : Prop where
  height : front.height = splitHeight
  positive : 0 < splitHeight
  inMain : (s.main.db.blocks[splitHeight - 1]?).map (·.id) = some front.bl.prevId

theorem Linked.chainTo_starts (linked : Linked s) (isThere : s.altBlock id = some abei) :
    abei.height = s.splitHeight abei + (s.chainBefore abei).length ∧
      ∃ front rest, s.chainTo id = front :: rest ∧ StartsAt s front.2 (s.splitHeight abei) := by
  refine linked.induct (P := fun id abei =>
    abei.height = s.splitHeight abei + (s.chainBefore abei).length ∧
    ∃ front rest, s.chainTo id = front :: rest ∧ StartsAt s front.2 (s.splitHeight abei))
    (fun id abei isThere before => ?_) isThere
  have chain := linked.chainTo_eq isThere
  cases linked id abei isThere with
  | alternative prev prevThere higher =>
      obtain ⟨above, front, rest, starts, startsAt⟩ := before prev prevThere
      have previous := linked.chainTo_eq prevThere
      have beforeAbei : s.chainBefore abei = front :: rest := starts
      have sameSplit : s.splitHeight abei = s.splitHeight prev := by
        rw [Node.splitHeight, Node.splitHeight, Node.chainBefore, previous, List.length_append,
          List.length_singleton]
        omega
      refine ⟨?_, front,
        rest ++ [(id, abei)], by rw [chain, beforeAbei, List.cons_append], by rwa [sameSplit]⟩
      rw [sameSplit, Node.chainBefore, previous, List.length_append, List.length_singleton]
      omega
  | main notThere height inMain higher =>
      have nothing : s.chainBefore abei = [] := chainTo_of_none notThere
      have split_ : s.splitHeight abei = abei.height := by rw [Node.splitHeight, nothing]; rfl
      refine ⟨by rw [split_, nothing]; rfl, (id, abei), [], by rw [chain, nothing]; rfl,
        split_.symm, ?_, ?_⟩
      · omega
      · rw [split_, higher]
        exact mainHeight_eq_some inMain

/-- A block of the container is connected to the main chain by the blocks before it. -/
theorem Linked.connect_eq (linked : Linked s) (isThere : s.altBlock id = some abei) :
    connect s.main.db (s.chainBefore abei) abei.bl.prevId =
      some (abei.height, s.splitHeight abei) := by
  cases linked id abei isThere with
  | alternative prev prevThere higher =>
      obtain ⟨-, front, rest, starts, startsAt⟩ := linked.chainTo_starts prevThere
      have last : (s.chainBefore abei).getLast? = some (abei.bl.prevId, prev) := by
        rw [Node.chainBefore, linked.chainTo_eq prevThere, List.getLast?_concat]
      have sameSplit : s.splitHeight abei = s.splitHeight prev := by
        rw [Node.splitHeight, Node.splitHeight, Node.chainBefore, linked.chainTo_eq prevThere,
          List.length_append, List.length_singleton]
        omega
      have beforeAbei : s.chainBefore abei = front :: rest := starts
      have within : s.splitHeight prev - 1 < s.main.db.blocks.length := by
        by_contra outside
        have inMain := startsAt.inMain
        rw [List.getElem?_eq_none (by omega)] at inMain
        cases inMain
      have positive := startsAt.positive
      rw [sameSplit]
      unfold connect
      rw [last, beforeAbei]
      dsimp only
      rw [startsAt.height, if_pos ⟨by omega, startsAt.inMain⟩, higher]
  | main notThere height inMain higher =>
      have nothing : s.chainBefore abei = [] := chainTo_of_none notThere
      have split_ : s.splitHeight abei = abei.height := by rw [Node.splitHeight, nothing]; rfl
      rw [split_, nothing, higher]
      simp only [connect, inMain, Option.map_some]

/-! ## Steps -/

section Steps

variable {main : MainChain Hash KeyImage Key} {added : FullBlock Hash KeyImage Key}
  {env : Environment Hash KeyImage Key} {b : Block Hash KeyImage Key}
  {altChain : AltChain Hash KeyImage Key} {height splitHeight : Nat} {collected : List KeyImage}

theorem MainChain.push_blocks {main' : MainChain Hash KeyImage Key}
    (pushed : main.push added = some main') :
    main'.blocks = main.blocks ++ [added] :=
  MainChain.ofBlocks_eq_some pushed

/-- The blocks of the main chain keep their heights when it grows. -/
theorem mainHeight_push {main' : MainChain Hash KeyImage Key}
    (pushed : main.push added = some main') (found : mainHeight main.db id = some height) :
    mainHeight main'.db id = some height := by
  unfold mainHeight at found ⊢
  rw [main.tablesOf.same] at found
  rw [main'.tablesOf.same, MainChain.push_blocks pushed, List.findIdx?_append, found]
  rfl

theorem Linked.pushMain (linked : Linked s) (pushed : s.main.push added = some main) :
    Linked { s with main } := by
  intro id abei isThere
  cases linked id abei isThere with
  | alternative prev prevThere higher => exact .alternative prev prevThere higher
  | main notThere height inMain higher =>
      exact .main notThere height (mainHeight_push pushed inMain) higher

/-- A block is accepted one above the previous one. -/
theorem Linked.follows_of_accepted (linked : Linked s)
    (accepted : Accepted env s s' b id altChain height splitHeight collected abei) :
    Follows s abei := by
  have connected := accepted.connected
  have chain : altChain = s.chainTo b.prevId := accepted.chain
  cases prevThere : s.altBlock b.prevId with
  | none =>
      rw [chain, chainTo_of_none prevThere] at connected
      simp only [connect] at connected
      obtain ⟨h, inMain, same⟩ := Option.map_eq_some_iff.mp connected
      cases same
      exact .main (by rw [accepted.bl]; exact prevThere) h (by rw [accepted.bl]; exact inMain)
        accepted.height_eq
  | some prev =>
      rw [chain, linked.chainTo_eq prevThere] at connected
      refine .alternative prev (by rw [accepted.bl]; exact prevThere) ?_
      unfold connect at connected
      rw [List.getLast?_concat] at connected
      rw [accepted.height_eq]
      split at connected
      · rename_i front back _ isBack
        cases isBack
        split at connected
        · cases connected
          rfl
        · cases connected
      · rename_i noFront
        cases before : s.chainBefore prev with
        | nil => exact absurd rfl (noFront (b.prevId, prev) [] _ (by rw [before]; rfl))
        | cons front rest =>
            exact absurd rfl (noFront front (rest ++ [(b.prevId, prev)]) _ (by rw [before]; rfl))

/-- A new block is not the previous block of any block. -/
theorem Follows.prevId_ne {other : AltBlockExtendedInfo Hash KeyImage Key}
    (follows : Follows s other) (notThere : s.altBlock id = none)
    (isNew : mainHeight s.main.db id = none) : other.bl.prevId ≠ id := by
  intro same
  cases follows with
  | alternative prev prevThere _ =>
      rw [same, notThere] at prevThere
      cases prevThere
  | main _ height inMain _ =>
      rw [same, isNew] at inMain
      cases inMain

theorem Accepted.follows_kept
    (accepted : Accepted env s s' b id altChain height splitHeight collected abei)
    (isNew : mainHeight s.main.db id = none) {other : AltBlockExtendedInfo Hash KeyImage Key}
    (follows : Follows s other) : Follows s' other := by
  have sameMain : s'.main = s.main := by rw [accepted.result]
  have different := follows.prevId_ne accepted.isNew isNew
  cases follows with
  | alternative prev prevThere higher =>
      refine .alternative prev ?_ higher
      rw [accepted.altBlock, Function.update_of_ne different, prevThere]
  | main prevMissing height inMain higher =>
      refine .main ?_ height (by rw [sameMain]; exact inMain) higher
      rw [accepted.altBlock, Function.update_of_ne different, prevMissing]

theorem Linked.accepted (linked : Linked s)
    (accepted : Accepted env s s' b id altChain height splitHeight collected abei)
    (isNew : mainHeight s.main.db id = none) : Linked s' := by
  intro other abei' isThere
  rw [accepted.altBlock] at isThere
  by_cases same : other = id
  · subst same
    rw [Function.update_self] at isThere
    cases isThere
    exact accepted.follows_kept isNew (linked.follows_of_accepted accepted)
  · rw [Function.update_of_ne same] at isThere
    exact accepted.follows_kept isNew (linked other abei' isThere)

/-- A new block changes no other chain. -/
theorem Linked.chainTo_accepted (linked : Linked s)
    (accepted : Accepted env s s' b id altChain height splitHeight collected abei)
    (isNew : mainHeight s.main.db id = none) {other : Hash} (different : other ≠ id) :
    s'.chainTo other = s.chainTo other := by
  have linked' := linked.accepted accepted isNew
  have kept : ∀ {i}, i ≠ id → s'.altBlock i = s.altBlock i := by
    intro i different
    rw [accepted.altBlock, Function.update_of_ne different]
  cases isThere : s.altBlock other with
  | none => rw [chainTo_of_none isThere, chainTo_of_none ((kept different).trans isThere)]
  | some abei' =>
      refine linked.induct (P := fun i _ => s'.chainTo i = s.chainTo i)
        (fun i abei'' there before => ?_) isThere
      have notNew : i ≠ id := by
        intro same
        have missing : s.altBlock id = none := accepted.isNew
        rw [same, missing] at there
        cases there
      rw [linked.chainTo_eq there, linked'.chainTo_eq ((kept notNew).trans there), Node.chainBefore,
        Node.chainBefore]
      have follows := linked i abei'' there
      have prevDifferent := follows.prevId_ne accepted.isNew isNew
      cases follows with
      | alternative prev prevThere _ => rw [before prev prevThere]
      | main prevMissing height inMain _ =>
          rw [chainTo_of_none prevMissing, chainTo_of_none ((kept prevDifferent).trans prevMissing)]

/-- The chain before a block is the same when a block is added, and so is its split. -/
theorem Linked.chainBefore_accepted (linked : Linked s)
    (accepted : Accepted env s s' b id altChain height splitHeight collected abei)
    (isNew : mainHeight s.main.db id = none) {other : AltBlockExtendedInfo Hash KeyImage Key}
    (follows : Follows s other) :
    s'.chainBefore other = s.chainBefore other ∧ s'.splitHeight other = s.splitHeight other := by
  have same : s'.chainBefore other = s.chainBefore other :=
    linked.chainTo_accepted accepted isNew (follows.prevId_ne accepted.isNew isNew)
  exact ⟨same, by rw [Node.splitHeight, Node.splitHeight, same]⟩

theorem Linked.splitHeight_of_accepted (linked : Linked s)
    (accepted : Accepted env s s' b id altChain height splitHeight collected abei)
    (isNew : mainHeight s.main.db id = none) : s'.splitHeight abei = splitHeight := by
  have linked' := linked.accepted accepted isNew
  have isThere : s'.altBlock id = some abei := by rw [accepted.altBlock, Function.update_self]
  have connected' := linked'.connect_eq isThere
  obtain ⟨sameChain, -⟩ :=
    linked.chainBefore_accepted accepted isNew (linked.follows_of_accepted accepted)
  have chain : s.chainBefore abei = altChain := by
    rw [accepted.chain, Node.chainBefore, accepted.bl]
    rfl
  have sameMain : s'.main = s.main := by rw [accepted.result]
  rw [sameChain, chain, sameMain, accepted.bl, accepted.connected] at connected'
  injection connected' with same
  injection same with _ same
  exact same.symm

end Steps

end Zano.AltBlocks
