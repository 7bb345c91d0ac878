import Mathlib
import Zano.Lib.Loop
import Zano.Decoys.Outputs

/-! # Random decoys for amounts

`get_random_outs_for_amounts3` goes through the amounts of a request and draws random indexes for
each. The limit below which indexes are drawn is looked up in a cache of the request first. What is
put into the cache is not the limit of the amount, but the limit as a key, with the value zero; so
an amount that happens to be equal to the limit of another amount has no outputs. A limit of zero
and an amount without offsets together lead to a division by zero.
-/

namespace Zano.Decoys

open Loop
open Serialization (TransactionPrefix)

/-! ## The code -/

structure OffsetsDistribution where
  amount : UInt64
  globalOffsets : List UInt64

structure RandomOutsRequest where
  amounts : List OffsetsDistribution
  heightUpperLimit : UInt64
  useForcedMixOuts : Bool

/-- How the processing of an amount stops the request. -/
inductive Stop where
  | refused
  | exception
  | remainderByZero
  deriving DecidableEq, Repr

/-- From the last output on, the first that is old enough. Where a transaction is missing
the answer is zero. -/
def findEndFrom (s : BlockchainStorage) (outs : List GlobalOutputEntry) : ℕ → ℕ
  | 0 => 0
  | i + 1 =>
      match (outs[i]?).bind fun out => s.dbTransactions out.txId with
      | none => 0
      | some txEntry =>
          if txEntry.keeperBlockHeight + currencyMinedMoneyUnlockWindow ≤
            s.currentBlockchainSize then i + 1
          else findEndFrom s outs i

def findEndOfAllowedIndex (s : BlockchainStorage) (amount : UInt64) : ℕ :=
  findEndFrom s (s.dbOutputs amount) (s.dbOutputs amount).length

/-- What the amounts of a request share: the cache and the random numbers, of which
some have been drawn. -/
structure Session where
  upIndexLimitCache : UInt64 → Option ℕ
  drawn : ℕ

/-- `cache[up_index_limit]` makes an entry for the limit, with the value zero
unless there is one. -/
def upIndexLimit (s : BlockchainStorage) (session : Session) (amount : UInt64) : ℕ × Session :=
  match session.upIndexLimitCache amount with
  | some limit => (limit, session)
  | none =>
      let limit := findEndOfAllowedIndex s amount
      let key := UInt64.ofNat limit
      (limit, { session with
        upIndexLimitCache := Function.update session.upIndexLimitCache key
          (some ((session.upIndexLimitCache key).getD 0)) })

/-- The inner loop, which stops at an index that is not used, or with nothing
after a full circle. -/
def enumerateTurn (used : List ℕ) (limit initial gIndex : ℕ) : ℕ ⊕ Option ℕ :=
  if gIndex ∉ used then .inr (some gIndex)
  else
    let next := if limit ≤ gIndex + 1 then 0 else gIndex + 1
    if next = initial then .inr none else .inl next

def enumerate (used : List ℕ) (limit initial : ℕ) : Option (Option ℕ) :=
  loop (enumerateTurn used limit initial) (limit + 1) initial

structure Picking where
  used : List ℕ
  outs : List OutEntry
  added : ℕ
  drawn : ℕ

/-- A turn of the outer loop; `none` is an inner loop that has not ended. -/
def pickTurn (build : ℕ → Except Failure OutEntry) (rand : ℕ → UInt64) (limit decoysCount : ℕ)
    (p : Picking) :
    Picking ⊕ Option (Except Stop (List OutEntry × ℕ)) :=
  if p.added ≠ decoysCount ∨ limit ≤ p.used.length then
    if limit = 0 then .inr (some (.error .remainderByZero))
    else
      match enumerate p.used limit ((rand p.drawn).toNat % limit) with
      | none => .inr none
      | some none => .inr (some (.ok (p.outs, p.drawn + 1)))
      | some (some gIndex) =>
          match build gIndex with
          | .ok entry => .inl ⟨p.used ++ [gIndex], p.outs ++ [entry], p.added + 1, p.drawn + 1⟩
          | .error .refused => .inl ⟨p.used ++ [gIndex], p.outs, p.added, p.drawn + 1⟩
          | .error .exception => .inr (some (.error .exception))
  else .inr (some (.ok (p.outs, p.drawn)))

/-- All outputs in the order of their indexes, where there are fewer than are wanted. -/
def collect (build : ℕ → Except Failure OutEntry) (outs : List OutEntry) (i : ℕ) :
    Except Stop (List OutEntry) :=
  match build i with
  | .ok entry => .ok (outs ++ [entry])
  | .error .refused => .ok outs
  | .error .exception => .error .exception

/-- `none` is a loop that has not ended. -/
def getTargetOutsForAmountPrezarcanum (s : BlockchainStorage) (rand : ℕ → UInt64)
    (req : RandomOutsRequest) (details : OffsetsDistribution) (session : Session) :
    Option (Except Stop (List OutEntry × Session)) :=
  let decoysCount := details.globalOffsets.length
  let build := fun gIndex =>
    buildRandomOutEntry s details.amount gIndex (UInt64.ofNat decoysCount) req.useForcedMixOuts
    req.heightUpperLimit
  if (s.dbOutputs details.amount).length = 0 then some (.error .refused)
  else
    let (limit, session) := upIndexLimit s session details.amount
    if (s.dbOutputs details.amount).length < limit then some (.error .refused)
    else if decoysCount ≤ limit then
      match loop (pickTurn build rand limit decoysCount) (limit + 1) ⟨[], [], 0, session.drawn⟩ with
      | none => none
      | some none => none
      | some (some (.error stop)) => some (.error stop)
      | some (some (.ok (outs, drawn))) => some (.ok (outs, { session with drawn }))
    else some (((List.range limit).foldlM (collect build) []).map fun outs => (outs, session))

def notAllowedEntry : OutEntry :=
  { globalAmountIndex := 0, stealthAddress := nullPkey, flags := flagsNotAllowed }

/-- An index outside the container throws. -/
def collectPostzarcanum (s : BlockchainStorage) (amount : UInt64) (outs : List OutEntry)
    (globalIndex : UInt64) :
    Except Stop (List OutEntry) :=
  match buildRandomOutEntry s amount globalIndex.toNat s.hf4MinimumMixins false 0 with
  | .ok entry => .ok (outs ++ [entry])
  | .error .refused => .ok (outs ++ [notAllowedEntry])
  | .error .exception => .error .exception

def getTargetOutsForPostzarcanum (s : BlockchainStorage) (details : OffsetsDistribution)
    (session : Session) :
    Option (Except Stop (List OutEntry × Session)) :=
  some ((details.globalOffsets.foldlM (collectPostzarcanum s details.amount) []).bind fun outs =>
    if details.globalOffsets.length = outs.length then .ok (outs, session) else .error .exception)

def processAmount (s : BlockchainStorage) (rand : ℕ → UInt64) (req : RandomOutsRequest)
    (details : OffsetsDistribution) (session : Session) :
    Option (Except Stop (List OutEntry × Session)) :=
  if details.amount = 0 then getTargetOutsForPostzarcanum s details session
  else getTargetOutsForAmountPrezarcanum s rand req details session

/-- The amounts one after the other, with the outputs that have been put into the response
for those before. -/
def processAmounts (s : BlockchainStorage) (rand : ℕ → UInt64) (req : RandomOutsRequest) :
    List OffsetsDistribution → List (UInt64 × List OutEntry) × Session →
      Option (Except Stop (List (UInt64 × List OutEntry) × Session))
  | [], so => some (.ok so)
  | details :: rest, so =>
      match processAmount s rand req details so.2 with
      | none => none
      | some (.error stop) => some (.error stop)
      | some (.ok (outs, session)) =>
          processAmounts s rand req rest (so.1 ++ [(details.amount, outs)], session)

def requestStart : List (UInt64 × List OutEntry) × Session := ([], ⟨fun _ => none, 0⟩)

def getRandomOutsForAmounts3 (s : BlockchainStorage) (rand : ℕ → UInt64) (req : RandomOutsRequest) :
    Option (Except Stop (List (UInt64 × List OutEntry))) :=
  (processAmounts s rand req req.amounts requestStart).map fun result => result.map Prod.fst

/-! ## The inner loop -/

section Enumerating

variable {used : List ℕ} {limit initial : ℕ}

/-- The indexes behind the present one are used. -/
structure Enumerating (used : List ℕ) (limit initial left gIndex : ℕ) : Prop where
  some_ : 0 < left
  atMost : left ≤ limit
  place : gIndex = (initial + (limit - left)) % limit
  behind : ∀ k < limit - left, (initial + k) % limit ∈ used

theorem enumerateTurn_enumerating {left gIndex : ℕ} (inside : initial < limit)
    (enumerating : Enumerating used limit initial left gIndex) :
    (∃ result, enumerateTurn used limit initial gIndex = .inr result ∧
        ((result = none ∧ ∀ k < limit, (initial + k) % limit ∈ used) ∨
          ∃ g < limit, result = some g ∧ g ∉ used)) ∨
      ∃ next fewer, enumerateTurn used limit initial gIndex = .inl next ∧ fewer < left ∧
        Enumerating used limit initial fewer next := by
  obtain ⟨some_, atMost, place, behind⟩ := enumerating
  have below : gIndex < limit := by
    rw [place]
    exact Nat.mod_lt _ (by omega)
  have next :
      (if limit ≤ gIndex + 1 then 0 else gIndex + 1) = (initial + (limit - left + 1)) % limit := by
    rw [← nextPlace_eq (by omega), ← place, nextPlace]
    split <;> split <;> omega
  rw [enumerateTurn]
  split
  next isNew => exact .inl ⟨_, rfl, .inr ⟨gIndex, below, rfl, isNew⟩⟩
  next isUsed =>
    have here : (initial + (limit - left)) % limit ∈ used := by
      rw [← place]
      exact not_not.mp isUsed
    have upTo : ∀ k < limit - left + 1, (initial + k) % limit ∈ used := by
      intro k before
      rcases Nat.lt_succ_iff_lt_or_eq.mp before with earlier | rfl
      · exact behind k earlier
      · exact here
    dsimp only
    rw [next]
    split
    next round =>
      have last : left = 1 := by
        by_contra notLast
        have turned : (initial + (limit - left + 1)) % limit = initial % limit := by
          rw [round, Nat.mod_eq_of_lt inside]
        have divides : limit ∣ limit - left + 1 := by
          have same : limit - left + 1 ≡ 0 [MOD limit] := Nat.ModEq.add_left_cancel' initial turned
          exact Nat.modEq_zero_iff_dvd.mp same
        have least := Nat.le_of_dvd (by omega) divides
        omega
      refine .inl ⟨_, rfl, .inl ⟨rfl, fun k before => upTo k (by omega)⟩⟩
    next notRound =>
      have notLast : left ≠ 1 := by
        rintro rfl
        apply notRound
        rw [Nat.sub_add_cancel (by omega), Nat.add_mod_right, Nat.mod_eq_of_lt inside]
      exact .inr ⟨_, left - 1, rfl, by omega, by omega, by omega,
        by
          rw [show limit - (left - 1) = limit - left + 1 by omega], fun k before =>
            upTo k (by omega)⟩

theorem enumerate_ends (inside : initial < limit) :
    (enumerate used limit initial = some none ∧ ∀ i < limit, i ∈ used) ∨
      ∃ g < limit, enumerate used limit initial = some (some g) ∧ g ∉ used := by
  have begins : Enumerating used limit initial limit initial :=
    ⟨by omega, le_rfl, by simp [Nat.mod_eq_of_lt inside], by simp⟩
  obtain ⟨result, ends, good⟩ := loop_ends (Enumerating used limit initial)
    (fun left gIndex enumerating => enumerateTurn_enumerating inside enumerating) begins
      (Nat.lt_succ_self limit)
  rcases good with ⟨rfl, all⟩ | ⟨g, below, rfl, isNew⟩
  · refine .inl ⟨ends, fun i below => ?_⟩
    obtain ⟨k, before, rfl⟩ := exists_turn initial below
    exact all k before
  · exact .inr ⟨g, below, ends, isNew⟩

end Enumerating

/-! ## The outer loop -/

section Picking

variable {build : ℕ → Except Failure OutEntry} {rand : ℕ → UInt64} {limit decoysCount : ℕ}

/-- The outputs that are picked are made of different indexes, all below the limit. -/
structure Picked (build : ℕ → Except Failure OutEntry) (limit : ℕ) (p : Picking) : Prop where
  nodup : p.used.Nodup
  inside : ∀ i ∈ p.used, i < limit
  outs : (p.outs.map (·.globalAmountIndex)).Sublist p.used

/-- What may come of an amount. -/
def GoodOuts (limit : ℕ) (outs : List OutEntry) : Prop :=
  (outs.map (·.globalAmountIndex)).Nodup ∧ ∀ entry ∈ outs, entry.globalAmountIndex < limit

theorem Picked.good {p : Picking} (picked : Picked build limit p) : GoodOuts limit p.outs := by
  refine ⟨picked.outs.nodup picked.nodup, fun entry inside => ?_⟩
  exact picked.inside _ (picked.outs.subset (List.mem_map_of_mem inside))

theorem pickTurn_picked (indexed : ∀ i entry, build i = .ok entry → entry.globalAmountIndex = i)
    (notZero : limit ≠ 0) {p : Picking} (picked : Picked build limit p) :
    (∃ result, pickTurn build rand limit decoysCount p = .inr (some result) ∧
      result ≠ .error .remainderByZero ∧
        ∀ outs drawn, result = .ok (outs, drawn) → GoodOuts limit outs) ∨
      ∃ next, pickTurn build rand limit decoysCount p = .inl next ∧
        next.used.length = p.used.length + 1 ∧
        Picked build limit next := by
  have inside : (rand p.drawn).toNat % limit < limit := Nat.mod_lt _ (Nat.pos_of_ne_zero notZero)
  rw [pickTurn]
  split
  next =>
    rcases enumerate_ends inside with ⟨full, -⟩ | ⟨g, below, free, isNew⟩
    · rw [full]
      refine .inl ⟨_, rfl, by simp, fun outs drawn same => ?_⟩
      cases same
      exact picked.good
    · rw [free]
      have nodup : (p.used ++ [g]).Nodup := List.nodup_append.mpr ⟨picked.nodup, by simp, by grind⟩
      have allInside : ∀ i ∈ p.used ++ [g], i < limit := by
        have old := picked.inside
        grind
      dsimp only
      split
      next entry made =>
        refine .inr ⟨_, rfl, by simp, nodup, allInside, ?_⟩
        simp only [List.map_append, List.map_cons, List.map_nil, indexed g entry made]
        exact picked.outs.append (List.Sublist.refl _)
      next => exact .inr ⟨_, rfl, by simp, nodup, allInside,
        picked.outs.trans (List.sublist_append_left _ _)⟩
      next => exact .inl ⟨_, rfl, by simp, fun outs drawn same => by cases same⟩
  next =>
    refine .inl ⟨_, rfl, by simp, fun outs drawn same => ?_⟩
    cases same
    exact picked.good

theorem picks_end (indexed : ∀ i entry, build i = .ok entry → entry.globalAmountIndex = i)
    (notZero : limit ≠ 0) (drawn : ℕ) :
    ∃ result, loop (pickTurn build rand limit decoysCount) (limit + 1) ⟨[], [], 0, drawn⟩ =
      some (some result) ∧
      result ≠ .error .remainderByZero ∧ ∀ outs drawn, result = .ok (outs, drawn) →
        GoodOuts limit outs := by
  have oneTurn : ∀ left p, Picked build limit p ∧ p.used.length + left = limit →
      (∃ result, pickTurn build rand limit decoysCount p = .inr result ∧
        ∃ answer, result = some answer ∧
        answer ≠ .error .remainderByZero ∧ ∀ outs drawn, answer = .ok (outs, drawn) →
          GoodOuts limit outs) ∨
      ∃ next fewer, pickTurn build rand limit decoysCount p = .inl next ∧ fewer < left ∧
        (Picked build limit next ∧ next.used.length + fewer = limit) := by
    rintro left p ⟨picked, unused⟩
    rcases pickTurn_picked indexed notZero picked with
      ⟨result, leaves, good⟩ | ⟨next, goes, oneMore, later⟩
    · exact .inl ⟨_, leaves, result, rfl, good⟩
    · have most := length_le_of_inside later.nodup later.inside
      exact .inr ⟨next, left - 1, goes, by omega, later, by omega⟩
  have begins : Picked build limit ⟨[], [], 0, drawn⟩ :=
    ⟨List.nodup_nil, by simp, List.Sublist.slnil⟩
  obtain ⟨_, ends, result, rfl, good⟩ :=
    loop_ends _ oneTurn ⟨begins, by simp⟩ (Nat.lt_succ_self limit)
  exact ⟨result, ends, good⟩

/-- Without a limit there is nothing to divide by. -/
theorem picks_divide (drawn : ℕ) :
    loop (pickTurn build rand 0 decoysCount) 1 ⟨[], [], 0, drawn⟩ =
      some (some (.error .remainderByZero)) := by
  simp [loop, pickTurn]

theorem foldlM_collect (indexed : ∀ i entry, build i = .ok entry → entry.globalAmountIndex = i)
    (indexes : List ℕ) {outs : List OutEntry} :
    indexes.foldlM (collect build) outs ≠ .error .remainderByZero ∧
      ∀ all, indexes.foldlM (collect build) outs = .ok all →
        ∃ more, all = outs ++ more ∧ (more.map (·.globalAmountIndex)).Sublist indexes := by
  induction indexes generalizing outs with
  | nil =>
      refine ⟨by simp [pure, Except.pure], fun all same => ⟨[], ?_, List.Sublist.slnil⟩⟩
      cases same
      simp
  | cons i indexes inductionHypothesis =>
      rw [List.foldlM_cons, collect]
      split
      next entry made =>
        obtain ⟨noDivision, later⟩ := @inductionHypothesis (outs ++ [entry])
        refine ⟨noDivision, fun all same => ?_⟩
        obtain ⟨more, rfl, sublist⟩ := later all same
        refine ⟨entry :: more, by simp, ?_⟩
        rw [List.map_cons, indexed i entry made]
        exact sublist.cons_cons i
      next =>
        obtain ⟨noDivision, later⟩ := @inductionHypothesis outs
        refine ⟨noDivision, fun all same => ?_⟩
        obtain ⟨more, rfl, sublist⟩ := later all same
        exact ⟨more, rfl, sublist.cons i⟩
      next => exact ⟨by simp [bind, Except.bind], fun all same => by cases same⟩

end Picking

/-! ## One amount -/

section Amounts

variable {s : BlockchainStorage} {rand : ℕ → UInt64} {req : RandomOutsRequest}
  {details : OffsetsDistribution} {session : Session}

theorem buildRandomOutEntry_index {amount mixCount heightUpperLimit : UInt64} {gIndex : ℕ}
    {useOnlyForcedToMix : Bool} {oen : OutEntry}
    (made :
      buildRandomOutEntry s amount gIndex mixCount useOnlyForcedToMix heightUpperLimit = .ok oen) :
    oen.globalAmountIndex = gIndex := by
  rw [buildRandomOutEntry] at made
  split at made
  · cases made
  · split at made
    · cases made
    · exact buildRandomOutEntryFromTxEntry_index made

/-- With a limit, or with something to find. -/
theorem prezarcanum_ends
    (something : (upIndexLimit s session details.amount).1 ≠ 0 ∨ details.globalOffsets ≠ []) :
    ∃ result, getTargetOutsForAmountPrezarcanum s rand req details session = some result ∧
      result ≠ .error .remainderByZero ∧
      ∀ outs next, result = .ok (outs, next) →
        GoodOuts (upIndexLimit s session details.amount).1 outs := by
  rw [getTargetOutsForAmountPrezarcanum]
  split
  · exact ⟨_, rfl, by simp, fun outs next same => by cases same⟩
  · generalize upIndexLimit s session details.amount = found at something
    obtain ⟨limit, session⟩ := found
    dsimp only at something ⊢
    split
    · exact ⟨_, rfl, by simp, fun outs next same => by cases same⟩
    · split
      next enough =>
        have notZero : limit ≠ 0 := by
          rintro rfl
          exact something.elim (fun no => no rfl) fun some_ =>
            some_ (List.length_eq_zero_iff.mp (Nat.le_zero.mp enough))
        obtain ⟨result, ends, noDivision, good⟩ := @picks_end
          (fun gIndex =>
            buildRandomOutEntry s details.amount gIndex (UInt64.ofNat details.globalOffsets.length)
            req.useForcedMixOuts req.heightUpperLimit) rand limit details.globalOffsets.length
          (fun i entry made => buildRandomOutEntry_index made) notZero session.drawn
        rw [ends]
        cases result with
        | error stop =>
            exact ⟨_, rfl, by simpa using noDivision, fun outs next same => by cases same⟩
        | ok found =>
            obtain ⟨outs, drawn⟩ := found
            refine ⟨_, rfl, by simp, fun outs' next same => ?_⟩
            cases same
            exact good outs drawn rfl
      next few =>
        obtain ⟨noDivision, all⟩ := @foldlM_collect
          (fun gIndex =>
            buildRandomOutEntry s details.amount gIndex (UInt64.ofNat details.globalOffsets.length)
            req.useForcedMixOuts req.heightUpperLimit) (fun i entry made =>
              buildRandomOutEntry_index made)
          (List.range limit) []
        generalize (List.range limit).foldlM (collect _) [] = collected at noDivision all
        refine ⟨_, rfl, ?_, ?_⟩
        · cases collected with
          | error stop => simpa [Except.map] using noDivision
          | ok outs => simp [Except.map]
        · intro outs next same
          cases collected with
          | error stop => cases same
          | ok collected =>
              cases same
              obtain ⟨more, rfl, sublist⟩ := all _ rfl
              refine ⟨sublist.nodup List.nodup_range, fun entry inside => ?_⟩
              exact List.mem_range.mp (sublist.subset (List.mem_map_of_mem inside))

theorem prezarcanum_divides (notEmpty : s.dbOutputs details.amount ≠ [])
    (noLimit : (upIndexLimit s session details.amount).1 = 0)
    (nothing : details.globalOffsets = []) :
    getTargetOutsForAmountPrezarcanum s rand req details session =
      some (.error .remainderByZero) := by
  rw [getTargetOutsForAmountPrezarcanum, if_neg (by simpa using notEmpty)]
  generalize upIndexLimit s session details.amount = found at noLimit
  obtain ⟨limit, session⟩ := found
  dsimp only at noLimit ⊢
  rw [noLimit, nothing]
  simp [picks_divide]

/-- What the amounts after one see of it. -/
theorem processAmount_session {outs : List OutEntry} {next : Session}
    (processed : processAmount s rand req details session = some (.ok (outs, next))) :
    next.upIndexLimitCache =
      if details.amount = 0 then session.upIndexLimitCache
      else (upIndexLimit s session details.amount).2.upIndexLimitCache := by
  rw [processAmount] at processed
  split at processed
  next zero_ =>
    rw [if_pos zero_]
    rw [getTargetOutsForPostzarcanum, Option.some.injEq] at processed
    cases collected : details.globalOffsets.foldlM (collectPostzarcanum s details.amount) [] with
    | error stop => simp [collected, Except.bind] at processed
    | ok all =>
        rw [collected] at processed
        simp only [Except.bind] at processed
        split at processed <;> cases processed
        rfl
  next notZero =>
    rw [if_neg notZero]
    rw [getTargetOutsForAmountPrezarcanum] at processed
    split at processed
    · cases processed
    · dsimp only at processed
      split at processed
      · cases processed
      · split at processed
        · split at processed <;> cases processed
          rfl
        · simp only [Option.some.injEq] at processed
          generalize (List.range _).foldlM (collect _) [] = collected at processed
          cases collected with
          | error stop => cases processed
          | ok all =>
              cases processed
              rfl

theorem processAmounts_append (before after : List OffsetsDistribution)
    (so : List (UInt64 × List OutEntry) × Session) :
    processAmounts s rand req (before ++ after) so =
      match processAmounts s rand req before so with
      | none => none
      | some (.error stop) => some (.error stop)
      | some (.ok so) => processAmounts s rand req after so := by
  induction before generalizing so with
  | nil => rfl
  | cons details rest inductionHypothesis =>
      simp only [List.cons_append, processAmounts]
      split <;> rename_i processed
      · rfl
      · rfl
      · exact inductionHypothesis _

/-- The keys of the cache are limits of the amounts so far, and nothing but zero is
found under them. -/
def CachesLimits (s : BlockchainStorage) (before : List OffsetsDistribution)
    (session : Session) : Prop :=
  ∀ key limit, session.upIndexLimitCache key = some limit →
    limit = 0 ∧ ∃ earlier ∈ before, earlier.amount ≠ 0 ∧
      UInt64.ofNat (findEndOfAllowedIndex s earlier.amount) = key

theorem upIndexLimit_cached {limit : ℕ} {amount : UInt64}
    (cached : session.upIndexLimitCache amount = some limit) :
    upIndexLimit s session amount = (limit, session) := by
  rw [upIndexLimit, cached]

theorem upIndexLimit_notCached {amount : UInt64}
    (notCached : session.upIndexLimitCache amount = none) :
    (upIndexLimit s session amount).1 = findEndOfAllowedIndex s amount ∧
      (upIndexLimit s session amount).2.upIndexLimitCache =
        Function.update session.upIndexLimitCache (UInt64.ofNat (findEndOfAllowedIndex s amount))
          (some ((session.upIndexLimitCache (UInt64.ofNat (findEndOfAllowedIndex s amount))).getD
            0)) := by
  rw [upIndexLimit, notCached]
  exact ⟨rfl, rfl⟩

theorem CachesLimits.processed {before : List OffsetsDistribution} {outs : List OutEntry}
    {next : Session} (caches : CachesLimits s before session)
    (processed : processAmount s rand req details session = some (.ok (outs, next))) :
    CachesLimits s (before ++ [details]) next := by
  intro key limit cached
  rw [processAmount_session processed] at cached
  have old : session.upIndexLimitCache key = some limit →
      limit = 0 ∧ ∃ earlier ∈ before ++ [details], earlier.amount ≠ 0 ∧
        UInt64.ofNat (findEndOfAllowedIndex s earlier.amount) = key := by
    intro there
    obtain ⟨zero_, earlier, inside, found⟩ := caches key limit there
    exact ⟨zero_, earlier, List.mem_append_left _ inside, found⟩
  split at cached
  · exact old cached
  next notZero =>
    cases lookup : session.upIndexLimitCache details.amount with
    | some limit' =>
        rw [upIndexLimit_cached lookup] at cached
        exact old cached
    | none =>
        rw [(upIndexLimit_notCached lookup).2] at cached
        by_cases same : key = UInt64.ofNat (findEndOfAllowedIndex s details.amount)
        · rw [same, Function.update_self, Option.some.injEq] at cached
          refine ⟨?_, details, by simp, notZero, same.symm⟩
          rw [← cached]
          cases there :
            session.upIndexLimitCache (UInt64.ofNat (findEndOfAllowedIndex s details.amount)) with
          | none => rfl
          | some limit' => exact (caches _ _ there).1
        · rw [Function.update_of_ne same] at cached
          exact old cached

theorem cached_processed {key : UInt64} {outs : List OutEntry} {next : Session}
    (processed : processAmount s rand req details session = some (.ok (outs, next)))
    (cached : (session.upIndexLimitCache key).isSome) : (next.upIndexLimitCache key).isSome := by
  rw [processAmount_session processed]
  split
  · exact cached
  · cases lookup : session.upIndexLimitCache details.amount with
    | some limit => rwa [upIndexLimit_cached lookup]
    | none =>
        rw [(upIndexLimit_notCached lookup).2, Function.update_apply]
        split
        · rfl
        · exact cached

end Amounts

/-! ## A request -/

section Requests

variable {s : BlockchainStorage} {rand : ℕ → UInt64} {req : RandomOutsRequest}

theorem cachesLimits_of_processed {before : List OffsetsDistribution}
    {so : List (UInt64 × List OutEntry) × Session}
    (processed : processAmounts s rand req before requestStart = some (.ok so)) :
    CachesLimits s before so.2 := by
  induction before using List.reverseRecOn generalizing so with
  | nil =>
      cases processed
      intro key limit cached
      cases cached
  | append_singleton before details inductionHypothesis =>
      rw [processAmounts_append] at processed
      split at processed
      · cases processed
      · cases processed
      next earlier reached =>
        simp only [processAmounts] at processed
        split at processed
        · cases processed
        · cases processed
        next outs session last =>
          cases processed
          exact (inductionHypothesis reached).processed last

theorem cached_of_processed {amounts : List OffsetsDistribution}
    {so next : List (UInt64 × List OutEntry) × Session} {key : UInt64}
    (processed : processAmounts s rand req amounts so = some (.ok next))
    (cached : (so.2.upIndexLimitCache key).isSome) : (next.2.upIndexLimitCache key).isSome := by
  induction amounts generalizing so with
  | nil =>
      cases processed
      exact cached
  | cons details rest inductionHypothesis =>
      simp only [processAmounts] at processed
      split at processed
      · cases processed
      · cases processed
      next outs session first => exact inductionHypothesis processed (cached_processed first cached)

theorem notEmpty_of_processed {details : OffsetsDistribution} {session next : Session}
    {outs : List OutEntry} (notZero : details.amount ≠ 0)
    (processed : processAmount s rand req details session = some (.ok (outs, next))) :
    s.dbOutputs details.amount ≠ [] := by
  intro empty
  rw [processAmount, if_neg notZero, getTargetOutsForAmountPrezarcanum,
    if_pos (by rw [empty]; rfl)] at processed
  cases processed

/-- What is expected of an amount: its loops end, nothing is divided by zero, the outputs are of
different indexes that are allowed for it, and so is the limit. -/
def AmountGood (s : BlockchainStorage) (rand : ℕ → UInt64) (req : RandomOutsRequest)
    (session : Session) (details : OffsetsDistribution) : Prop :=
  (∃ result, getTargetOutsForAmountPrezarcanum s rand req details session = some result ∧
    result ≠ .error .remainderByZero ∧
    ∀ outs next, result = .ok (outs, next) →
      GoodOuts (findEndOfAllowedIndex s details.amount) outs) ∧
  (s.dbOutputs details.amount ≠ [] →
    (upIndexLimit s session details.amount).1 = findEndOfAllowedIndex s details.amount)

/-- The amounts of a request that are reached are all processed as expected if and only if none
of them has neither a limit nor offsets, and none that has a limit is itself the limit of an
amount before it. -/
theorem decoys_independent_iff (s : BlockchainStorage) (rand : ℕ → UInt64)
    (req : RandomOutsRequest) :
    (∀ before details after, req.amounts = before ++ details :: after → details.amount ≠ 0 →
        ∀ so, processAmounts s rand req before requestStart = some (.ok so) →
          AmountGood s rand req so.2 details) ↔
      ∀ before details after, req.amounts = before ++ details :: after → details.amount ≠ 0 →
        s.dbOutputs details.amount ≠ [] →
          (∃ so, processAmounts s rand req before requestStart = some (.ok so)) →
          ¬(findEndOfAllowedIndex s details.amount = 0 ∧ details.globalOffsets = []) ∧
          (findEndOfAllowedIndex s details.amount ≠ 0 → ∀ earlier ∈ before, earlier.amount ≠ 0 →
            UInt64.ofNat (findEndOfAllowedIndex s earlier.amount) ≠ details.amount) := by
  constructor
  · intro good before details after request notZero notEmpty reached
    obtain ⟨so, reached⟩ := reached
    obtain ⟨⟨result, ends, noDivision, -⟩, limit⟩ :=
      good before details after request notZero so reached
    have ownLimit := limit notEmpty
    refine ⟨?_, ?_⟩
    · rintro ⟨noLimit, nothing⟩
      rw [prezarcanum_divides notEmpty (ownLimit.trans noLimit) nothing, Option.some.injEq] at ends
      exact noDivision ends.symm
    · intro hasLimit earlier inside earlierNotZero isKey
      have cached : (so.2.upIndexLimitCache details.amount).isSome := by
        obtain ⟨first, last, rfl⟩ := List.append_of_mem inside
        rw [processAmounts_append] at reached
        split at reached
        · cases reached
        · cases reached
        next start reachedEarlier =>
          rw [processAmounts] at reached
          split at reached
          · cases reached
          · cases reached
          next outs session processed =>
            apply cached_of_processed reached
            cases lookup : start.2.upIndexLimitCache earlier.amount with
            | none =>
                rw [processAmount_session processed, if_neg earlierNotZero,
                  (upIndexLimit_notCached lookup).2, isKey, Function.update_self]
                rfl
            | some earlierLimit =>
                have earlierGood := good first earlier (last ++ details :: after)
                  (by simpa using request) earlierNotZero
                  start reachedEarlier
                have own := earlierGood.2 (notEmpty_of_processed earlierNotZero processed)
                rw [upIndexLimit_cached lookup,
                  (cachesLimits_of_processed reachedEarlier _ _ lookup).1] at own
                rw [← own] at isKey
                exact absurd isKey.symm notZero
      obtain ⟨wrongLimit, lookup⟩ := Option.isSome_iff_exists.mp cached
      rw [upIndexLimit_cached lookup, (cachesLimits_of_processed reached _ _ lookup).1] at ownLimit
      exact hasLimit ownLimit.symm
  · intro allowed before details after request notZero so reached
    by_cases empty : s.dbOutputs details.amount = []
    · refine ⟨⟨.error .refused, ?_, by simp, fun outs next same => by cases same⟩,
        fun notEmpty => absurd empty notEmpty⟩
      rw [getTargetOutsForAmountPrezarcanum, if_pos (by rw [empty]; rfl)]
    · obtain ⟨possible, fresh⟩ := allowed before details after request notZero empty ⟨so, reached⟩
      have ownLimit :
          (upIndexLimit s so.2 details.amount).1 = findEndOfAllowedIndex s details.amount := by
        cases lookup : so.2.upIndexLimitCache details.amount with
        | none => exact (upIndexLimit_notCached lookup).1
        | some limit =>
            obtain ⟨zero_, earlier, inside, earlierNotZero, isKey⟩ :=
              cachesLimits_of_processed reached _ _ lookup
            rw [upIndexLimit_cached lookup, zero_]
            by_contra hasLimit
            exact fresh (Ne.symm hasLimit) earlier inside earlierNotZero isKey
      refine ⟨?_, fun _ => ownLimit⟩
      rw [← ownLimit] at possible ⊢
      exact prezarcanum_ends (not_and_or.mp possible)

end Requests

def bareTransaction : TransactionPrefix := ⟨4, 0, [], [], []⟩

/-- A chain of empty blocks with one output for every amount, which is in the first block. -/
def oneOutputEach (size : ℕ) : BlockchainStorage where
  dbBlocks := List.replicate size ⟨false, bareTransaction, nullPkey, []⟩
  dbOutputs := fun _ => [⟨nullPkey, 0⟩]
  dbTransactions := fun _ => some ⟨bareTransaction, 0, [], []⟩
  coreTime := 0
  hf4MinimumMixins := 16
  hf4ActiveAfterHeight := 0

def sevenThenOne : RandomOutsRequest where
  amounts := [⟨7, [0]⟩, ⟨1, [0]⟩]
  heightUpperLimit := 0
  useForcedMixOuts := false

/-- The limit of the amount seven is one. The amount one, asked for behind it, then has the limit
zero and not its own. And in a chain that is too short for any limit an amount without offsets is
divided by zero. -/
theorem limit_of_another_amount :
    (¬∀ (s : BlockchainStorage) (rand : ℕ →
      UInt64) (req : RandomOutsRequest) (before : List OffsetsDistribution)
        (details : OffsetsDistribution) (after : List OffsetsDistribution),
          req.amounts = before ++ details :: after →
        details.amount ≠ 0 → ∀ so, processAmounts s rand req before requestStart = some (.ok so) →
          AmountGood s rand req so.2 details) ∧
      getRandomOutsForAmounts3 (oneOutputEach 1) (fun _ => 0)
          { sevenThenOne with amounts := [⟨7, []⟩] } =
        some (.error .remainderByZero) := by
  refine ⟨?_, by rfl⟩
  intro good
  obtain ⟨so, reached, wrong⟩ : ∃ so, processAmounts (oneOutputEach 10) (fun _ => 0) sevenThenOne
    [⟨7, [0]⟩] requestStart =
      some (.ok so) ∧ (upIndexLimit (oneOutputEach 10) so.2 1).1 ≠
        findEndOfAllowedIndex (oneOutputEach 10) 1 := by
    refine ⟨_, rfl, ?_⟩
    decide
  have own := good (oneOutputEach 10) (fun _ => 0) sevenThenOne [⟨7, [0]⟩] ⟨1, [0]⟩ [] rfl
    (by decide) so reached
  exact wrong (own.2 (by simp [oneOutputEach]))

end Zano.Decoys
