import Mathlib
import Zano.Lib.SampledWindow

/-! # The ids that a wallet keeps of its chain

A wallet remembers the latest ids of its chain, then every tenth, every hundredth and every
thousandth one. From these it makes the short history that it sends to a daemon, and by these it
tells whether a block that comes back is one that it has.
-/

namespace Zano.Wallet

open SampledWindow

structure ChainShortener (Hash : Type*) where
  localBcSize : Nat
  genesis : Hash
  last20Blocks : List (Nat × Hash)
  last144BlocksEvery10 : List (Nat × Hash)
  last144BlocksEvery100 : List (Nat × Hash)
  last144BlocksEvery1000 : List (Nat × Hash)
  deriving DecidableEq, Repr

/-- The answers of `check_if_block_matched`. -/
structure BlockMatch where
  blockFound : Bool
  blockMatched : Bool
  fullResetNeeded : Bool
  deriving DecidableEq, Repr

/-- One of the three sparse maps takes a new id. It throws if the id is not the next one. -/
def pushEvery {Hash : Type*} (step limit : Nat) (container : List (Nat × Hash)) (height : Nat)
    (id : Hash) :
    Option (List (Nat × Hash)) :=
  if height % step = 0 then
    if container.getLast?.all fun last => last.1 + step = height then
      some (put container limit height id) else none
  else some container

namespace ChainShortener

variable {Hash : Type*}

def clear (c : ChainShortener Hash) : ChainShortener Hash := ⟨1, c.genesis, [], [], [], []⟩

def setGenesis (c : ChainShortener Hash) (id : Hash) : ChainShortener Hash :=
  { c with genesis := id, localBcSize := 1 }

def fresh (genesis : Hash) : ChainShortener Hash := ⟨1, genesis, [], [], [], []⟩

def detach (c : ChainShortener Hash) (includingHeight : Nat) : ChainShortener Hash where
  localBcSize := includingHeight
  genesis := c.genesis
  last20Blocks := cut c.last20Blocks includingHeight
  last144BlocksEvery10 := cut c.last144BlocksEvery10 includingHeight
  last144BlocksEvery100 := cut c.last144BlocksEvery100 includingHeight
  last144BlocksEvery1000 := cut c.last144BlocksEvery1000 includingHeight

def pushNewBlockId (before : ChainShortener Hash) (id : Hash) (height : Nat) :
    Option (ChainShortener Hash) :=
  let c := if height < before.localBcSize then before.detach height else before
  if height = 0 then some (c.setGenesis id)
  else if c.localBcSize ≠ 1 ∧ c.localBcSize ≠ height then none
  else
    (pushEvery 10 144 c.last144BlocksEvery10 height id).bind fun every10 =>
      (pushEvery 100 144 c.last144BlocksEvery100 height id).bind fun every100 =>
        (pushEvery 1000 144 c.last144BlocksEvery1000 height id).map fun every1000 =>
          ⟨height + 1, c.genesis, put c.last20Blocks 20 height id, every10, every100, every1000⟩

/-- The containers with the step of each, the finest first. -/
def levels (c : ChainShortener Hash) : List (Nat × List (Nat × Hash)) :=
  [(1, c.last20Blocks), (10, c.last144BlocksEvery10), (100, c.last144BlocksEvery100),
    (1000, c.last144BlocksEvery1000)]

def reaches (level : Nat × List (Nat × Hash)) (i : Nat) : Bool :=
  level.2.head?.any fun first => first.1 ≤ i

/-- The outer `none` is a failed self check. -/
def lookupItemAround (c : ChainShortener Hash) (i : Nat) : Option (Option (Nat × Hash)) :=
  match c.levels.find? fun level => reaches level i with
  | none => some none
  | some (divider, container) =>
      (container.lookup (i - i % divider)).map fun id => some (i - i % divider, id)

def checkIfBlockMatched [DecidableEq Hash] (c : ChainShortener Hash) (i : Nat)
    (id : Hash) : Option BlockMatch :=
  if i = 0 then
    if 0 < c.localBcSize then some ⟨true, id = c.genesis, id ≠ c.genesis⟩
    else some ⟨false, false, true⟩
  else if reaches (1, c.last20Blocks) i then
    if c.last20Blocks.getLast?.all fun last => i ≤ last.1 then
      (c.last20Blocks.lookup i).map fun own => ⟨true, id = own, false⟩
    else none
  else
    (c.lookupItemAround i).map fun result =>
      match result with
      | none => ⟨false, false, true⟩
      | some item => if item.1 = i then ⟨true, item.2 = id, false⟩ else ⟨false, false, false⟩

/-- The loop of `get_short_chain_history` behind the latest ten; every turn goes at least one block
further back. -/
def historyBehind (c : ChainShortener Hash) : Nat → Nat → Nat → Option (List Hash)
  | 0, _, _ => some []
  | turns + 1, currentBackOffset, currentOffsetDistance =>
      if currentBackOffset < c.localBcSize then
        match c.lookupItemAround (c.localBcSize - currentBackOffset) with
        | none => none
        | some none => some []
        | some (some item) =>
            (c.historyBehind turns (c.localBcSize - item.1 + currentOffsetDistance * 2)
              (currentOffsetDistance * 2)).map
              fun rest => item.2 :: rest
      else some []

def getShortChainHistory (c : ChainShortener Hash) : Option (List Hash) :=
  if c.localBcSize = 0 then some []
  else
    let latest := c.last20Blocks.reverse.take 10
    let currentBackOffset := latest.length + 1
    if latest.getLast?.all fun e => currentBackOffset = c.localBcSize - e.1 + 1 then
      (c.historyBehind c.localBcSize currentBackOffset 1).map fun rest =>
        latest.map (·.2) ++ rest ++ [c.genesis]
    else none

/-! ## What is remembered -/

/-- Every container samples one sequence of ids. Nothing is said of the ids that no
container reaches. -/
structure Remembers (c : ChainShortener Hash) (ids : Nat → Hash) : Prop where
  nonempty : 0 < c.localBcSize
  levels : ∀ level ∈ c.levels, Samples level.1 ids c.localBcSize level.2

/-- A height and its id as one of the containers has them. -/
def Keeps (c : ChainShortener Hash) (e : Nat × Hash) : Prop := ∃ level ∈ c.levels, e ∈ level.2

variable {c c' : ChainShortener Hash} {ids ids' : Nat → Hash} {height i : Nat} {id : Hash}

theorem forall_levels {P : Nat × List (Nat × Hash) → Prop} :
    (∀ level ∈ c.levels, P level) ↔ P (1, c.last20Blocks) ∧ P (10, c.last144BlocksEvery10) ∧
      P (100, c.last144BlocksEvery100) ∧ P (1000, c.last144BlocksEvery1000) := by
  simp [levels]

theorem latest_mem : (1, c.last20Blocks) ∈ c.levels := List.mem_cons_self

theorem remembers_fresh (genesis : Hash) (ids : Nat → Hash) : Remembers (fresh genesis) ids where
  nonempty := Nat.one_pos
  levels := forall_levels.mpr ⟨.nil .., .nil .., .nil .., .nil ..⟩

theorem Remembers.id_eq (remembers : Remembers c ids) {e : Nat × Hash} (keeps : c.Keeps e) :
    0 < e.1 ∧ e.1 < c.localBcSize ∧ e.2 = ids e.1 := by
  obtain ⟨level, isLevel, inside⟩ := keeps
  obtain ⟨positive, below, -, isId⟩ := (remembers.levels level isLevel).entry e inside
  exact ⟨positive, below, isId⟩

theorem detach_levels (includingHeight : Nat) :
    (c.detach includingHeight).levels = c.levels.map fun level =>
      (level.1, cut level.2 includingHeight) := rfl

theorem Remembers.detach (remembers : Remembers c ids) (positive : 0 < height)
    (within : height ≤ c.localBcSize) :
    Remembers (c.detach height) ids where
  nonempty := positive
  levels level isLevel := by
    rw [detach_levels] at isLevel
    obtain ⟨before, wasLevel, rfl⟩ := List.mem_map.mp isLevel
    exact (remembers.levels before wasLevel).cut within

theorem pushEvery_spec {step : Nat} (limit : Nat) {container : List (Nat × Hash)}
    (samples : Samples step ids height container) (positive : 0 < height)
    (same : ∀ place < height, ids' place = ids place) :
    ∃ container', pushEvery step limit container height (ids' height) = some container' ∧
      Samples step ids' (height + 1) container' := by
  unfold pushEvery
  split
  · next multiple =>
      have isMultiple : step ∣ height := Nat.dvd_of_mod_eq_zero multiple
      have follows :
          (container.getLast?.all fun last => decide (last.1 + step = height)) = true := by
        cases isLast : container.getLast? with
        | none => rfl
        | some last => exact decide_eq_true (samples.follows isMultiple isLast)
      rw [if_pos follows]
      exact ⟨_, rfl, samples.put positive isMultiple same limit⟩
  · next between =>
      exact ⟨_, rfl, samples.skip (fun divides => between (Nat.mod_eq_zero_of_dvd divides)) same⟩

/-- The next id is taken by all containers, and so is any id that comes first. -/
theorem pushNewBlockId_spec (samples : ∀ level ∈ c.levels, Samples level.1 ids height level.2)
    (positive : 0 < height) (fits : c.localBcSize = height ∨ c.localBcSize = 1)
    (same : ∀ place < height, ids' place = ids place) :
    ∃ c', c.pushNewBlockId (ids' height) height = some c' ∧ Remembers c' ids' ∧
      c'.localBcSize = height + 1 ∧
      c'.genesis = c.genesis := by
  obtain ⟨latest, by10, by100, by1000⟩ := forall_levels.mp samples
  obtain ⟨every10, pushed10, samples10⟩ := pushEvery_spec 144 by10 positive same
  obtain ⟨every100, pushed100, samples100⟩ := pushEvery_spec 144 by100 positive same
  obtain ⟨every1000, pushed1000, samples1000⟩ := pushEvery_spec 144 by1000 positive same
  have notBelow : ¬ height < c.localBcSize := by omega
  unfold pushNewBlockId
  rw [if_neg notBelow]
  dsimp only
  rw [if_neg (by omega), if_neg (by omega), pushed10, pushed100, pushed1000]
  refine ⟨_, rfl,
    ⟨Nat.succ_pos _, forall_levels.mpr ⟨?_, samples10, samples100, samples1000⟩⟩, rfl, rfl⟩
  exact latest.put positive (one_dvd _) same 20

theorem Remembers.push (remembers : Remembers c ids) (id : Hash) :
    ∃ c', c.pushNewBlockId id c.localBcSize = some c' ∧
      Remembers c' (Function.update ids c.localBcSize id) ∧
      c'.localBcSize = c.localBcSize + 1 ∧ c'.genesis = c.genesis := by
  have same : ∀ place < c.localBcSize, Function.update ids c.localBcSize id place = ids place :=
    fun place below => Function.update_of_ne below.ne _ _
  have pushed := pushNewBlockId_spec remembers.levels remembers.nonempty (.inl rfl) same
  rwa [Function.update_self] at pushed

theorem Remembers.levels_nil (remembers : Remembers c ids) (one : c.localBcSize = 1) :
    ∀ level ∈ c.levels, level.2 = [] := by
  intro level isLevel
  have samples := remembers.levels level isLevel
  rw [one] at samples
  exact samples.eq_nil_of_one

/-- A chain with nothing but its genesis block goes on at any height. -/
theorem Remembers.push_first (remembers : Remembers c ids) (one : c.localBcSize = 1)
    (positive : 0 < height) (id : Hash) :
    ∃ c', c.pushNewBlockId id height = some c' ∧ Remembers c' (Function.update ids height id) ∧
      c'.localBcSize = height + 1 ∧ c'.genesis = c.genesis := by
  have same : ∀ place < height, Function.update ids height id place = ids place :=
    fun place below => Function.update_of_ne below.ne _ _
  have samples : ∀ level ∈ c.levels, Samples level.1 ids height level.2 := by
    intro level isLevel
    rw [remembers.levels_nil one level isLevel]
    exact .nil ..
  have pushed := pushNewBlockId_spec samples positive (.inr one) same
  rwa [Function.update_self] at pushed

theorem keeps_detach {includingHeight : Nat} {e : Nat × Hash}
    (keeps : (c.detach includingHeight).Keeps e) :
    c.Keeps e := by
  obtain ⟨level, isLevel, inside⟩ := keeps
  rw [detach_levels] at isLevel
  obtain ⟨before, wasLevel, rfl⟩ := List.mem_map.mp isLevel
  exact ⟨before, wasLevel, List.mem_of_mem_filter inside⟩

theorem mem_pushEvery {step limit : Nat} {container container' : List (Nat × Hash)}
    (pushed : pushEvery step limit container height id = some container') {e : Nat × Hash}
    (inside : e ∈ container') :
    e ∈ container ∨ e = (height, id) := by
  unfold pushEvery at pushed
  split at pushed
  · split at pushed
    · cases pushed
      exact mem_put inside
    · cases pushed
  · cases pushed
    exact .inl inside

/-- What is kept after an id is pushed is that id or was kept before. -/
theorem keeps_pushNewBlockId (pushed : c.pushNewBlockId id height = some c') {e : Nat × Hash}
    (keeps : c'.Keeps e) :
    c.Keeps e ∨ e = (height, id) := by
  have kept : ∀ e, (if height < c.localBcSize then c.detach height else c).Keeps e → c.Keeps e := by
    intro e keeps
    split at keeps
    · exact keeps_detach keeps
    · exact keeps
  unfold pushNewBlockId at pushed
  generalize (if height < c.localBcSize then c.detach height else c) = before at pushed kept
  dsimp only at pushed
  split at pushed
  · cases pushed
    exact .inl (kept e keeps)
  · split at pushed
    · cases pushed
    · obtain ⟨every10, pushed10, rest⟩ := Option.bind_eq_some_iff.mp pushed
      obtain ⟨every100, pushed100, last⟩ := Option.bind_eq_some_iff.mp rest
      obtain ⟨every1000, pushed1000, rfl⟩ := Option.map_eq_some_iff.mp last
      obtain ⟨level, isLevel, inside⟩ := keeps
      have old : ∀ level ∈ before.levels, e ∈ level.2 ∨ e = (height, id) →
          c.Keeps e ∨ e = (height, id) :=
        fun level wasLevel => Or.imp_left fun inside => kept e ⟨level, wasLevel, inside⟩
      simp only [levels, List.mem_cons, List.not_mem_nil, or_false] at isLevel old
      rcases isLevel with rfl | rfl | rfl | rfl
      · exact old _ (.inl rfl) (mem_put inside)
      · exact old _ (.inr (.inl rfl)) (mem_pushEvery pushed10 inside)
      · exact old _ (.inr (.inr (.inl rfl))) (mem_pushEvery pushed100 inside)
      · exact old _ (.inr (.inr (.inr rfl))) (mem_pushEvery pushed1000 inside)

/-! ## Recognizing a block -/

theorem levels_dvd : c.levels.Pairwise fun finer coarser => finer.1 ∣ coarser.1 := by
  simp [levels]

theorem reaches_of_mem {level : Nat × List (Nat × Hash)} {size : Nat} {e : Nat × Hash}
    (samples : Samples level.1 ids size level.2) (inside : e ∈ level.2) (later : e.1 ≤ i) :
    reaches level i = true := by
  unfold reaches
  cases isFirst : level.2.head? with
  | none =>
      rw [List.head?_eq_none_iff] at isFirst
      rw [isFirst] at inside
      cases inside
  | some first => exact decide_eq_true ((head_le samples.sorted isFirst inside).trans later)

theorem exists_of_reaches {level : Nat × List (Nat × Hash)} (does : reaches level i = true) :
    ∃ e ∈ level.2, e.1 ≤ i := by
  unfold reaches at does
  cases isFirst : level.2.head? with
  | none =>
      rw [isFirst] at does
      cases does
  | some first =>
      rw [isFirst] at does
      exact ⟨first, List.mem_of_mem_head? isFirst, of_decide_eq_true does⟩

/-- The lookup comes back with a block that is kept, or no container reaches that far down. A block
that is kept itself is found. -/
theorem Remembers.lookupItemAround (remembers : Remembers c ids) (below : i < c.localBcSize) :
    (c.lookupItemAround i = some none ∧ ∀ e, c.Keeps e → i < e.1) ∨
      ∃ item, c.lookupItemAround i = some (some item) ∧ c.Keeps item ∧ item.1 ≤ i ∧
        ((∃ e, c.Keeps e ∧ e.1 = i) → item.1 = i) := by
  unfold ChainShortener.lookupItemAround
  cases found : c.levels.find? fun level => reaches level i with
  | none =>
      refine .inl ⟨rfl, ?_⟩
      rintro e ⟨level, isLevel, inside⟩
      apply Classical.byContradiction
      intro notAbove
      have does :=
        reaches_of_mem (remembers.levels level isLevel) inside (Nat.le_of_not_lt notAbove)
      exact List.find?_eq_none.mp found level isLevel does
  | some level =>
      obtain ⟨does, before, after, isSplit, coarser⟩ := List.find?_eq_some_iff_append.mp found
      have isLevel : level ∈ c.levels := List.mem_of_find?_eq_some found
      obtain ⟨e, inside, later⟩ := exists_of_reaches does
      have samples := remembers.levels level isLevel
      have isThere := samples.lookup inside later below
      refine .inr ⟨(i - i % level.1, ids (i - i % level.1)), ?_, ⟨level, isLevel, ?_⟩,
        Nat.sub_le _ _, ?_⟩
      · dsimp only
        rw [isThere]
        rfl
      · obtain ⟨first, last, isWhole, -⟩ := List.lookup_eq_some_iff.mp isThere
        rw [isWhole]
        simp
      · rintro ⟨kept, ⟨own, isOwn, insideOwn⟩, isKept⟩
        have ownReaches := reaches_of_mem (remembers.levels own isOwn) insideOwn isKept.le
        have divides : level.1 ∣ own.1 := by
          rw [isSplit] at isOwn
          have ordered := levels_dvd (c := c)
          rw [isSplit, List.pairwise_append, List.pairwise_cons] at ordered
          rcases List.mem_append.mp isOwn with earlier | rest
          · have notReaching := coarser own earlier
            rw [ownReaches] at notReaching
            cases notReaching
          · rcases List.mem_cons.mp rest with same | behind
            · rw [same]
            · exact ordered.2.1.1 own behind
        have multiple := ((remembers.levels own isOwn).entry kept insideOwn).2.2.1
        have exact : i % level.1 = 0 := by
          rw [← isKept]
          exact Nat.mod_eq_zero_of_dvd (divides.trans multiple)
        simp only [exact, Nat.sub_zero]

variable [DecidableEq Hash]

theorem checkIfBlockMatched_genesis (nonempty : 0 < c.localBcSize) (id : Hash) :
    c.checkIfBlockMatched 0 id = some ⟨true, id = c.genesis, id ≠ c.genesis⟩ := by
  simp [checkIfBlockMatched, nonempty]

/-- A block within the chain is never matched by mistake, a kept one is matched, and a resync is
asked for only below everything that is kept. -/
theorem Remembers.checkIfBlockMatched (remembers : Remembers c ids) (positive : 0 < i)
    (below : i < c.localBcSize) (id : Hash) :
    ∃ result, c.checkIfBlockMatched i id = some result ∧
      (result.blockMatched = true → result.blockFound = true ∧ c.Keeps (i, id)) ∧
      (result.fullResetNeeded = true → ∀ e, c.Keeps e → i < e.1) ∧
      (c.Keeps (i, id) → result.blockMatched = true) := by
  have latest : Samples 1 ids c.localBcSize c.last20Blocks :=
    remembers.levels (1, c.last20Blocks) latest_mem
  unfold ChainShortener.checkIfBlockMatched
  rw [if_neg positive.ne']
  split
  · next does =>
      obtain ⟨e, inside, later⟩ := exists_of_reaches does
      have isThere : (i, ids i) ∈ c.last20Blocks := latest.closed e inside i later below (one_dvd i)
      have keeps : c.Keeps (i, ids i) := ⟨(1, c.last20Blocks), latest_mem, isThere⟩
      have upTo : (c.last20Blocks.getLast?.all fun last => decide (i ≤ last.1)) = true := by
        cases isLast : c.last20Blocks.getLast? with
        | none => rfl
        | some last =>
            have atEnd := latest.follows (one_dvd _) isLast
            exact decide_eq_true (show i ≤ last.1 by omega)
      rw [if_pos upTo, lookup_of_mem latest.sorted isThere]
      refine ⟨_, rfl, ?_, ?_, ?_⟩
      · intro matched
        rw [of_decide_eq_true matched]
        exact ⟨rfl, keeps⟩
      · intro reset
        cases reset
      · intro kept
        exact decide_eq_true (remembers.id_eq kept).2.2
  · rcases remembers.lookupItemAround below with ⟨isNone, above⟩ | ⟨item, isItem, keeps, -, exact⟩
    · rw [isNone]
      refine ⟨_, rfl, ?_, fun _ => above, ?_⟩
      · intro matched
        cases matched
      · intro kept
        exact absurd (above _ kept) (Nat.lt_irrefl i)
    · rw [isItem]
      refine ⟨_, rfl, ?_, ?_, ?_⟩
      · dsimp only
        split
        · next here =>
            intro matched
            rw [← of_decide_eq_true matched, ← here]
            exact ⟨rfl, keeps⟩
        · intro matched
          cases matched
      · dsimp only
        split <;>
        · intro reset
          cases reset
      · intro kept
        have here := exact ⟨_, kept, rfl⟩
        dsimp only
        rw [if_pos here]
        apply decide_eq_true
        rw [(remembers.id_eq keeps).2.2, here]
        exact (remembers.id_eq kept).2.2.symm

/-! ## The short history -/

omit [DecidableEq Hash]

/-- Every turn goes further back by more than the distance. -/
theorem Remembers.historyBehind (remembers : Remembers c ids) (turns : Nat) {offset distance : Nat}
    (positive : 0 < offset)
    (apart : 0 < distance) :
    ∃ entries : List (Nat × Hash), c.historyBehind turns offset distance =
      some (entries.map (·.2)) ∧
      entries.Pairwise (fun e later => later.1 < e.1) ∧ ∀ e ∈ entries, c.Keeps e ∧
        e.1 + offset ≤ c.localBcSize := by
  induction turns generalizing offset distance with
  | zero => exact ⟨[], rfl, .nil, fun _ inside => nomatch inside⟩
  | succ turns inductionHypothesis =>
      unfold ChainShortener.historyBehind
      split
      · have below : c.localBcSize - offset < c.localBcSize := by omega
        rcases remembers.lookupItemAround below with ⟨isNone, -⟩ | ⟨item, isItem, keeps, upTo, -⟩
        · rw [isNone]
          exact ⟨[], rfl, .nil, fun _ inside => nomatch inside⟩
        · rw [isItem]
          have itemBelow := (remembers.id_eq keeps).2.1
          have further : 0 < c.localBcSize - item.1 + distance * 2 := by omega
          obtain ⟨entries, isBehind, descending, all⟩ :=
            inductionHypothesis further (show 0 < distance * 2 by omega)
          dsimp only
          rw [isBehind]
          refine ⟨item :: entries, rfl, List.pairwise_cons.mpr ⟨?_, descending⟩, ?_⟩
          · intro e inside
            have := (all e inside).2
            omega
          · intro e inside
            rcases List.mem_cons.mp inside with isFirst | inRest
            · rw [isFirst]
              exact ⟨keeps, by omega⟩
            · have := (all e inRest).2
              exact ⟨(all e inRest).1, by omega⟩
      · exact ⟨[], rfl, .nil, fun _ inside => nomatch inside⟩

/-- The loop has ended by itself once there have been as many turns as blocks. -/
theorem Remembers.historyBehind_ended (remembers : Remembers c ids) {turns offset distance : Nat}
    (positive : 0 < offset) (enough : c.localBcSize ≤ offset + turns) (apart : 0 < distance)
    (more : Nat) :
    c.historyBehind (turns + more) offset distance = c.historyBehind turns offset distance := by
  induction turns generalizing offset distance with
  | zero =>
      cases more with
      | zero => rfl
      | succ more =>
          rw [Nat.zero_add]
          unfold ChainShortener.historyBehind
          exact if_neg (by omega)
  | succ turns inductionHypothesis =>
      rw [Nat.add_right_comm]
      unfold ChainShortener.historyBehind
      split
      · have below : c.localBcSize - offset < c.localBcSize := by omega
        rcases remembers.lookupItemAround below with ⟨isNone, -⟩ | ⟨item, isItem, -, upTo, -⟩
        · rw [isNone]
        · rw [isItem]
          dsimp only
          rw [inductionHypothesis (by omega) (by omega) (by omega)]
      · rfl

/-- The history never fails; it lists kept ids, the latest first, and the genesis
block at the end. -/
theorem Remembers.getShortChainHistory_eq (remembers : Remembers c ids) :
    ∃ entries : List (Nat × Hash), c.getShortChainHistory =
      some (entries.map (·.2) ++ [c.genesis]) ∧
      entries.Pairwise (fun e later => later.1 < e.1) ∧ ∀ e ∈ entries, c.Keeps e := by
  have latest : Samples 1 ids c.localBcSize c.last20Blocks :=
    remembers.levels (1, c.last20Blocks) latest_mem
  have place : ∀ k e, (c.last20Blocks.reverse.take 10)[k]? = some e →
      e.1 + k + 1 = c.localBcSize := by
    intro k e isThere
    rw [List.getElem?_take] at isThere
    split at isThere
    · have counted := latest.reverse_getElem (one_dvd _) isThere
      omega
    · cases isThere
  unfold ChainShortener.getShortChainHistory
  rw [if_neg remembers.nonempty.ne']
  dsimp only
  generalize isLatest : c.last20Blocks.reverse.take 10 = ten at place
  have inside : ∀ e ∈ ten, c.Keeps e := by
    intro e inTen
    rw [← isLatest] at inTen
    exact ⟨(1, c.last20Blocks), latest_mem, List.mem_reverse.mp (List.mem_of_mem_take inTen)⟩
  have counted :
      (ten.getLast?.all fun e => decide (ten.length + 1 = c.localBcSize - e.1 + 1)) = true := by
    cases isLast : ten.getLast? with
    | none => rfl
    | some e =>
        have notEmpty : ten ≠ [] := List.ne_nil_of_mem (List.mem_of_getLast? isLast)
        have positive := List.length_pos_iff.mpr notEmpty
        rw [List.getLast?_eq_getElem?] at isLast
        have := place _ e isLast
        apply decide_eq_true
        omega
  rw [if_pos counted]
  obtain ⟨entries, isBehind, descending, all⟩ :=
    remembers.historyBehind c.localBcSize (Nat.succ_pos ten.length) Nat.one_pos
  rw [isBehind]
  refine ⟨ten ++ entries, by simp, ?_, ?_⟩
  · apply List.pairwise_append.mpr
    refine ⟨?_, descending, ?_⟩
    · rw [List.pairwise_iff_getElem]
      intro i j isI isJ less
      have first := place i _ (List.getElem?_eq_getElem isI)
      have later := place j _ (List.getElem?_eq_getElem isJ)
      omega
    · intro e inTen later inEntries
      obtain ⟨i, isI, rfl⟩ := List.mem_iff_getElem.mp inTen
      have first := place i _ (List.getElem?_eq_getElem isI)
      have := (all later inEntries).2
      omega
  · intro e isThere
    rcases List.mem_append.mp isThere with inTen | inEntries
    · exact inside e inTen
    · exact (all e inEntries).1

theorem Remembers.getShortChainHistory (remembers : Remembers c ids) :
    ∃ history, c.getShortChainHistory = some history ∧ c.genesis ∈ history ∧
      ∀ id ∈ history, id = c.genesis ∨ ∃ e, c.Keeps e ∧ e.2 = id := by
  obtain ⟨entries, isHistory, -, all⟩ := remembers.getShortChainHistory_eq
  refine ⟨_, isHistory, by simp, ?_⟩
  intro id inside
  rw [List.mem_append, List.mem_singleton] at inside
  rcases inside with inEntries | isGenesis
  · obtain ⟨e, isEntry, rfl⟩ := List.mem_map.mp inEntries
    exact .inr ⟨e, all e isEntry, rfl⟩
  · exact .inl isGenesis

end ChainShortener

end Zano.Wallet
