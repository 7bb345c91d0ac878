import Zano.Lib.Transition
import Zano.Wallet.ChainShortener

/-! # Runs of the chain shortener

What the shortener is told by the wallet: ids at the height that comes next, at a lower one after a
reorganization, or at any height when there is only the genesis block yet; heights to detach from;
and resets. Each container holds exactly the ids at multiples of its step that no later call has
removed or pushed out of its window. Against the ids that were last pushed it has no gaps, the
answers are right, and the self checks hold.

Nothing fills the heights below the first push, so that a container can be empty although there are
multiples of its step below the size. Heights have 64 bits. The size of the chain is the height
after the last one and wraps around for the largest height.
-/

namespace Zano.Wallet

open SampledWindow

variable {Hash : Type*}

inductive ShortenerCall (Hash : Type*) where
  | clear
  | push (id : Hash) (height : UInt64)
  | detach (includingHeight : UInt64)
  deriving DecidableEq, Repr

namespace ChainShortener

/-- `m_local_bc_size` has 64 bits. The other sums are of heights that containers reach, and
do not wrap around. -/
def wrapSize (c : ChainShortener Hash) : ChainShortener Hash :=
  { c with localBcSize := c.localBcSize % 2 ^ 64 }

def perform (c : ChainShortener Hash) : ShortenerCall Hash → Option (ChainShortener Hash)
  | .clear => some c.clear
  | .push id height => (c.pushNewBlockId id height.toNat).map wrapSize
  | .detach includingHeight => some (c.detach includingHeight.toNat)

/-- An id comes next, lower, or first, and no more is detached than there is. -/
def Allows (c : ChainShortener Hash) : ShortenerCall Hash → Prop
  | .clear => True
  | .push _ height => height.toNat ≤ c.localBcSize ∨ c.localBcSize = 1
  | .detach includingHeight => 0 < includingHeight.toNat ∧ includingHeight.toNat ≤ c.localBcSize

/-- There is a size after the height. -/
def Fits : ShortenerCall Hash → Prop
  | .push _ height => height.toNat + 1 < 2 ^ 64
  | _ => True

instance (c : ChainShortener Hash) (call : ShortenerCall Hash) : Decidable (c.Allows call) :=
  match call with
  | .clear => inferInstanceAs (Decidable True)
  | .push _ height => inferInstanceAs (Decidable (height.toNat ≤ c.localBcSize ∨ c.localBcSize = 1))
  | .detach includingHeight =>
      inferInstanceAs
        (Decidable (0 < includingHeight.toNat ∧ includingHeight.toNat ≤ c.localBcSize))

def record (pushed : ℕ → Option Hash) : ShortenerCall Hash → ℕ → Option Hash
  | .push id height => Function.update pushed height.toNat (some id)
  | _ => pushed

/-- The id that was last pushed at each height. -/
def lastPushed (genesis : Hash) (calls : List (ShortenerCall Hash)) : ℕ → Option Hash :=
  calls.foldl record (Function.update (fun _ => none) 0 (some genesis))

/-! ## What the containers hold -/

/-- From any of its entries on, a container has all multiples of its step up to the size, with the
ids last pushed there. -/
structure Contiguous (step : ℕ) (pushed : ℕ → Option Hash) (size : ℕ)
    (window : List (ℕ × Hash)) : Prop where
  sorted : (window.map (·.1)).Pairwise (· < ·)
  entry : ∀ e ∈ window, 0 < e.1 ∧ e.1 < size ∧ step ∣ e.1 ∧ pushed e.1 = some e.2
  whole : ∀ e ∈ window, ∀ height, e.1 ≤ height → height < size → step ∣ height →
    ∃ id, (height, id) ∈ window

/-- How many ids the container with this step has room for. -/
def levelLimit (step : ℕ) : ℕ := if step = 1 then 20 else 144

/-- The call leaves what a container has at this height: it removes nothing from there down, and
pushes no id so far up that a window with the height in it would be too long. -/
def Spares (step height : ℕ) : ShortenerCall Hash → Prop
  | .clear => False
  | .detach includingHeight => height < includingHeight.toNat
  | .push _ later => height < later.toNat ∧ later.toNat < height + levelLimit step * step

/-- An id was pushed at a multiple of the step, and every later call has spared it. -/
def Held (step : ℕ) (calls : List (ShortenerCall Hash)) (e : ℕ × Hash) : Prop :=
  0 < e.1 ∧ step ∣ e.1 ∧ ∃ earlier id height later, calls = earlier ++ .push id height :: later ∧
    e = (height.toNat, id) ∧ ∀ call ∈ later, Spares step e.1 call

/-- Every container has what was pushed and spared, and nothing else. -/
def HoldsExactly (c : ChainShortener Hash) (calls : List (ShortenerCall Hash)) : Prop :=
  ∀ level ∈ c.levels, level.2.length ≤ levelLimit level.1 ∧ ∀ e, e ∈ level.2 ↔ Held level.1 calls e

structure Consistent (c : ChainShortener Hash) (calls : List (ShortenerCall Hash))
    (pushed : ℕ → Option Hash) :
    Prop where
  nonempty : 0 < c.localBcSize
  genesis : pushed 0 = some c.genesis
  containers : ∀ level ∈ c.levels, Contiguous level.1 pushed c.localBcSize level.2
  holds : c.HoldsExactly calls

/-- The answer about a block of the chain: whether it has the id that was last pushed at its
height, or nothing. -/
def AnswersRight [DecidableEq Hash] (c : ChainShortener Hash) (pushed : ℕ → Option Hash) (i : ℕ)
    (id : Hash) : Prop :=
  ∃ result, c.checkIfBlockMatched i id = some result ∧
    (result.blockFound = true →
      ∃ own, pushed i = some own ∧ (result.blockMatched = true ↔ id = own)) ∧
      (result.blockFound = false → result.blockMatched = false)

/-- The history has ids of heights that go down to the genesis block. The loop that makes
it ends by itself. -/
def ListsHistory (c : ChainShortener Hash) (pushed : ℕ → Option Hash) : Prop :=
  (∃ entries : List (ℕ × Hash), c.getShortChainHistory = some (entries.map (·.2) ++ [c.genesis]) ∧
      entries.Pairwise (fun e later => later.1 < e.1) ∧
        ∀ e ∈ entries, 0 < e.1 ∧ e.1 < c.localBcSize ∧ pushed e.1 = some e.2) ∧
    ∀ turns offset distance, 0 < offset → 0 < distance → c.localBcSize ≤ turns →
      c.historyBehind turns offset distance = c.historyBehind c.localBcSize offset distance

/-! ## The invariant -/

/-- What is kept was pushed, and the ids that were pushed are what the containers sample. -/
structure Traced (c : ChainShortener Hash) (pushed : ℕ → Option Hash) : Prop where
  remembers : Remembers c fun height => (pushed height).getD c.genesis
  genesis : pushed 0 = some c.genesis
  kept : ∀ e, c.Keeps e → pushed e.1 = some e.2
  fits : c.localBcSize < 2 ^ 64

variable {c c' : ChainShortener Hash} {pushed : ℕ → Option Hash}

theorem traced_fresh (genesis : Hash) : Traced (fresh genesis) (lastPushed genesis []) where
  remembers := remembers_fresh genesis _
  genesis := by simp [lastPushed, fresh]
  kept := by
    intro e keeps
    obtain ⟨level, isLevel, inside⟩ := keeps
    simp only [levels, fresh, List.mem_cons, List.not_mem_nil, or_false] at isLevel
    rcases isLevel with rfl | rfl | rfl | rfl <;> cases inside
  fits := by simp [fresh]

theorem Traced.clear (traced : Traced c pushed) : Traced c.clear pushed where
  remembers := remembers_fresh c.genesis _
  genesis := traced.genesis
  kept := by
    intro e keeps
    obtain ⟨level, isLevel, inside⟩ := keeps
    simp only [levels, ChainShortener.clear, List.mem_cons, List.not_mem_nil, or_false] at isLevel
    rcases isLevel with rfl | rfl | rfl | rfl <;> cases inside
  fits := by simp [ChainShortener.clear]

theorem Traced.detach (traced : Traced c pushed) {height : ℕ} (positive : 0 < height)
    (within : height ≤ c.localBcSize) :
    Traced (c.detach height) pushed where
  remembers := traced.remembers.detach positive within
  genesis := traced.genesis
  kept := fun e keeps => traced.kept e (keeps_detach keeps)
  fits := lt_of_le_of_lt within traced.fits

theorem getD_update (pushed : ℕ → Option Hash) (genesis id : Hash) (height : ℕ) :
    (fun h => (Function.update pushed height (some id) h).getD genesis) =
      Function.update (fun h => (pushed h).getD genesis) height id := by
  funext h
  by_cases here : h = height
  · simp [here]
  · simp [here]

theorem wrapSize_of_lt (fits : c.localBcSize < 2 ^ 64) : c.wrapSize = c := by
  rw [wrapSize, Nat.mod_eq_of_lt fits]

/-- The step common to an id that comes next and to one that comes first. -/
theorem Traced.of_remembers (traced : Traced c pushed) {id : Hash} {height : ℕ}
    (positive : 0 < height) (fits : height + 1 < 2 ^ 64)
    (isPushed : c.pushNewBlockId id height = some c')
    (remembers : Remembers c' (Function.update (fun h => (pushed h).getD c.genesis) height id))
    (size : c'.localBcSize = height + 1) (genesis : c'.genesis = c.genesis) :
    Traced c' (Function.update pushed height (some id)) where
  remembers := by
    rw [genesis, getD_update]
    exact remembers
  genesis := by rw [Function.update_of_ne positive.ne, genesis, traced.genesis]
  kept := by
    intro e keeps
    have below := (remembers.id_eq keeps)
    by_cases here : e.1 = height
    · have isId := below.2.2
      rw [here, Function.update_self] at isId
      rw [here, Function.update_self, isId]
    · rw [Function.update_of_ne here]
      rcases keeps_pushNewBlockId isPushed keeps with before | same
      · exact traced.kept e before
      · exact absurd (congrArg Prod.fst same) here
  fits := by omega

theorem pushNewBlockId_of_lt {id : Hash} {height : ℕ} (below : height < c.localBcSize) :
    c.pushNewBlockId id height = (c.detach height).pushNewBlockId id height := by
  have size : (c.detach height).localBcSize = height := rfl
  unfold pushNewBlockId
  rw [if_pos below, size, if_neg (lt_irrefl height)]

theorem Traced.push_genesis (traced : Traced c pushed) (id : Hash) :
    ∃ c', c.pushNewBlockId id 0 = some c' ∧ Traced c' (Function.update pushed 0 (some id)) := by
  refine ⟨(c.detach 0).setGenesis id, ?_, ?_⟩
  · rw [pushNewBlockId_of_lt traced.remembers.nonempty]
    unfold pushNewBlockId
    simp [ChainShortener.detach]
  · have nothing : ∀ level ∈ ((c.detach 0).setGenesis id).levels, level.2 = [] := by
      simp [levels, ChainShortener.detach, setGenesis, SampledWindow.cut]
    constructor
    · refine ⟨Nat.one_pos, fun level isLevel => ?_⟩
      rw [nothing level isLevel]
      exact .nil ..
    · rw [Function.update_self]
      rfl
    · intro e keeps
      obtain ⟨level, isLevel, inside⟩ := keeps
      rw [nothing level isLevel] at inside
      cases inside
    · simp [setGenesis]

/-- An id that comes next, lower or first is taken. -/
theorem Traced.push (traced : Traced c pushed) (id : Hash) {height : ℕ} (fits : height + 1 < 2 ^ 64)
    (allowed : height ≤ c.localBcSize ∨ c.localBcSize = 1) :
    ∃ c', c.pushNewBlockId id height = some c' ∧
      Traced c' (Function.update pushed height (some id)) := by
  rcases Nat.eq_zero_or_pos height with rfl | positive
  · exact traced.push_genesis id
  rcases lt_trichotomy height c.localBcSize with below | next | above
  · have detached := traced.detach positive below.le
    obtain ⟨c', isPushed, remembers, size, genesis⟩ := detached.remembers.push id
    refine ⟨c', (pushNewBlockId_of_lt below).trans isPushed, ?_⟩
    exact detached.of_remembers positive fits isPushed remembers size genesis
  · subst next
    obtain ⟨c', isPushed, remembers, size, genesis⟩ := traced.remembers.push id
    exact ⟨c', isPushed, traced.of_remembers positive fits isPushed remembers size genesis⟩
  · have one : c.localBcSize = 1 := allowed.resolve_left (by omega)
    obtain ⟨c', isPushed, remembers, size, genesis⟩ := traced.remembers.push_first one positive id
    exact ⟨c', isPushed, traced.of_remembers positive fits isPushed remembers size genesis⟩

theorem Traced.perform (traced : Traced c pushed) {call : ShortenerCall Hash}
    (allowed : c.Allows call) (fits : Fits call) :
    ∃ c', c.perform call = some c' ∧ Traced c' (record pushed call) := by
  cases call with
  | clear => exact ⟨_, rfl, traced.clear⟩
  | detach includingHeight => exact ⟨_, rfl, traced.detach allowed.1 allowed.2⟩
  | push id height =>
      obtain ⟨c', isPushed, after⟩ := traced.push id fits allowed
      refine ⟨c', ?_, after⟩
      rw [ChainShortener.perform, isPushed, Option.map_some, wrapSize_of_lt after.fits]

/-! ## What is still held -/

theorem held_append {step : ℕ} {calls : List (ShortenerCall Hash)} {call : ShortenerCall Hash}
    {e : ℕ × Hash} :
    Held step (calls ++ [call]) e ↔
      (0 < e.1 ∧ step ∣ e.1 ∧ ∃ id height, call = .push id height ∧ e = (height.toNat, id)) ∨
        (Held step calls e ∧ Spares step e.1 call) := by
  constructor
  · rintro ⟨positive, multiple, earlier, id, height, later, isSplit, isEntry, spared⟩
    rcases List.eq_nil_or_concat later with rfl | ⟨before, last, rfl⟩
    · obtain ⟨-, isLast⟩ := List.append_inj' isSplit rfl
      exact .inl ⟨positive, multiple, id, height, List.head_eq_of_cons_eq isLast, isEntry⟩
    · rw [List.concat_eq_append, ← List.cons_append, ← List.append_assoc] at isSplit
      obtain ⟨isCalls, isLast⟩ := List.append_inj' isSplit rfl
      refine .inr ⟨⟨positive, multiple, earlier, id, height, before, isCalls, isEntry, ?_⟩, ?_⟩
      · exact fun other inside => spared other (by simp [inside])
      · rw [List.head_eq_of_cons_eq isLast]
        exact spared last (by simp)
  · rintro (⟨positive, multiple, id, height, rfl, isEntry⟩ | ⟨held, spares⟩)
    · exact ⟨positive, multiple, calls, id, height, [], rfl, isEntry, by simp⟩
    · obtain ⟨positive, multiple, earlier, id, height, later, rfl, isEntry, spared⟩ := held
      refine ⟨positive, multiple, earlier, id, height, later ++ [call], by simp, isEntry, ?_⟩
      intro other inside
      rcases List.mem_append.mp inside with before | isLast
      · exact spared other before
      · rw [List.mem_singleton.mp isLast]
        exact spares

/-- What a container makes of an id at the height where it ends. -/
theorem mem_pushEvery_iff {step limit height : ℕ} {ids : ℕ → Hash} {id : Hash}
    {container container' : List (ℕ × Hash)} (samples : Samples step ids height container)
    (stepPositive : 0 < step) (someRoom : 0 < limit) (isShort : container.length ≤ limit)
    (pushed : pushEvery step limit container height id = some container') :
    container'.length ≤ limit ∧ ∀ e, e ∈ container' ↔
      (e = (height, id) ∧ step ∣ height) ∨ (e ∈ container ∧ height < e.1 + limit * step) := by
  unfold pushEvery at pushed
  split at pushed
  · next multiple =>
      have isMultiple : step ∣ height := Nat.dvd_of_mod_eq_zero multiple
      split at pushed
      · cases pushed
        refine ⟨samples.length_put_le isShort id, fun e => ?_⟩
        rw [samples.mem_put_iff isMultiple stepPositive someRoom isShort, and_iff_left isMultiple]
      · cases pushed
  · next between =>
      cases pushed
      have noMultiple : ¬ step ∣ height := fun divides => between (Nat.mod_eq_zero_of_dvd divides)
      refine ⟨isShort, fun e => ?_⟩
      simp only [noMultiple, and_false, false_or]
      exact ⟨fun inside => ⟨inside, samples.near stepPositive isShort (fun divides =>
        absurd divides noMultiple) inside⟩, And.left⟩

/-- A push is one at the height where the chain ends, after what is above has been removed. -/
theorem Traced.pushNewBlockId_eq (traced : Traced c pushed) {height : ℕ} (id : Hash)
    (positive : 0 < height) (allowed : height ≤ c.localBcSize ∨ c.localBcSize = 1) :
    c.pushNewBlockId id height = (c.detach height).pushNewBlockId id height := by
  rcases lt_or_ge height c.localBcSize with below | above
  · exact pushNewBlockId_of_lt below
  · obtain ⟨latest, by10, by100, by1000⟩ := forall_levels.mp traced.remembers.levels
    have same : ∀ {step : ℕ} {window : List (ℕ × Hash)},
        Samples step (fun height => (pushed height).getD c.genesis) c.localBcSize window →
          cut window height = window := by
      intro step window samples
      apply List.filter_eq_self.mpr
      intro e inside
      exact decide_eq_true ((samples.entry e inside).2.1.trans_le above)
    unfold pushNewBlockId
    simp only [ChainShortener.detach, same latest, same by10, same by100, same by1000,
      lt_irrefl, if_false, positive.ne', if_neg (Nat.not_lt.mpr above), ne_eq, not_true_eq_false,
      and_false]
    rw [if_neg (by omega)]

theorem HoldsExactly.fresh (genesis : Hash) : (ChainShortener.fresh genesis).HoldsExactly [] := by
  simp [HoldsExactly, levels, ChainShortener.fresh, Held]

theorem HoldsExactly.clear {calls : List (ShortenerCall Hash)} :
    c.clear.HoldsExactly (calls ++ [.clear]) := by
  simp [HoldsExactly, levels, ChainShortener.clear, held_append, Spares]

theorem HoldsExactly.detach {calls : List (ShortenerCall Hash)} (holds : c.HoldsExactly calls)
    (includingHeight : UInt64) :
    (c.detach includingHeight.toNat).HoldsExactly (calls ++ [.detach includingHeight]) := by
  intro level isLevel
  rw [detach_levels] at isLevel
  obtain ⟨before, wasLevel, rfl⟩ := List.mem_map.mp isLevel
  obtain ⟨isShort, held⟩ := holds before wasLevel
  refine ⟨(length_cut_le _).trans isShort, fun e => ?_⟩
  simp [mem_cut, held, held_append, Spares]

/-- The containers after a push at the height where the chain ends. -/
theorem levels_pushNewBlockId {height : ℕ} {id : Hash} (atEnd : c.localBcSize = height)
    (positive : 0 < height) (isPushed : c.pushNewBlockId id height = some c') :
    ∃ every10 every100 every1000, pushEvery 10 144 c.last144BlocksEvery10 height id = some every10 ∧
      pushEvery 100 144 c.last144BlocksEvery100 height id = some every100 ∧
      pushEvery 1000 144 c.last144BlocksEvery1000 height id = some every1000 ∧
      c'.levels = [(1, put c.last20Blocks 20 height id), (10, every10), (100, every100),
        (1000, every1000)] := by
  have notBelow : ¬ height < c.localBcSize := by omega
  unfold pushNewBlockId at isPushed
  rw [if_neg notBelow] at isPushed
  dsimp only at isPushed
  rw [if_neg (by omega), if_neg (by omega)] at isPushed
  obtain ⟨every10, pushed10, rest⟩ := Option.bind_eq_some_iff.mp isPushed
  obtain ⟨every100, pushed100, last⟩ := Option.bind_eq_some_iff.mp rest
  obtain ⟨every1000, pushed1000, rfl⟩ := Option.map_eq_some_iff.mp last
  exact ⟨every10, every100, every1000, pushed10, pushed100, pushed1000, rfl⟩

theorem Traced.samples_detach (traced : Traced c pushed) {height : ℕ}
    (allowed : height ≤ c.localBcSize ∨ c.localBcSize = 1) :
    ∀ level ∈ (c.detach height).levels,
      Samples level.1 (fun h => (pushed h).getD c.genesis) height level.2 := by
  intro level isLevel
  rw [detach_levels] at isLevel
  obtain ⟨before, wasLevel, rfl⟩ := List.mem_map.mp isLevel
  rcases allowed with within | one
  · exact (traced.remembers.levels before wasLevel).cut within
  · rw [traced.remembers.levels_nil one before wasLevel]
    exact .nil ..

/-- A push spares what the removal before it does and what its window still reaches. -/
theorem held_push {calls : List (ShortenerCall Hash)} {step : ℕ} {height : UInt64} {id : Hash}
    {e : ℕ × Hash} (positive : 0 < height.toNat) :
    Held step (calls ++ [.push id height]) e ↔ (e = (height.toNat, id) ∧ step ∣ height.toNat) ∨
      (Held step (calls ++ [.detach height]) e ∧ height.toNat < e.1 + levelLimit step * step) := by
  simp only [held_append, Spares, reduceCtorEq, false_and, exists_false, and_false, false_or,
    and_assoc, ShortenerCall.push.injEq]
  refine or_congr_left ⟨?_, ?_⟩
  · rintro ⟨-, multiple, id', height', rfl, rfl, rfl⟩
    exact ⟨rfl, multiple⟩
  · rintro ⟨rfl, multiple⟩
    exact ⟨positive, multiple, id, height, rfl, rfl, rfl⟩

theorem HoldsExactly.push {calls : List (ShortenerCall Hash)} (holds : c.HoldsExactly calls)
    (traced : Traced c pushed) {id : Hash} {height : UInt64}
    (allowed : height.toNat ≤ c.localBcSize ∨ c.localBcSize = 1)
    (isPushed : c.pushNewBlockId id height.toNat = some c') :
    c'.HoldsExactly (calls ++ [.push id height]) := by
  rcases Nat.eq_zero_or_pos height.toNat with zero | positive
  · rw [zero, pushNewBlockId_of_lt traced.remembers.nonempty] at isPushed
    unfold pushNewBlockId at isPushed
    cases isPushed
    intro level isLevel
    have isEmpty : level.2 = [] := by
      simp only [levels, ChainShortener.detach, setGenesis, lt_irrefl, if_false, SampledWindow.cut,
        Nat.not_lt_zero, decide_false, List.filter_false, List.mem_cons, List.not_mem_nil,
        or_false] at isLevel
      rcases isLevel with rfl | rfl | rfl | rfl <;> rfl
    refine ⟨by simp [isEmpty], fun e => ?_⟩
    simp only [isEmpty, List.not_mem_nil, held_append, Spares, zero, Nat.not_lt_zero, false_and,
      and_false, or_false, false_iff]
    rintro ⟨positive, -, id', height', isCall, rfl⟩
    cases isCall
    exact absurd zero positive.ne'
  · rw [traced.pushNewBlockId_eq id positive allowed] at isPushed
    have detached := holds.detach height
    obtain ⟨latest, by10, by100, by1000⟩ := forall_levels.mp (traced.samples_detach allowed)
    obtain ⟨⟨short, held⟩, ⟨short10, held10⟩, ⟨short100, held100⟩, ⟨short1000, held1000⟩⟩ :=
      forall_levels.mp detached
    dsimp only at latest by10 by100 by1000
    dsimp only at short held short10 held10 short100 held100 short1000 held1000
    have atEnd : (c.detach height.toNat).localBcSize = height.toNat := rfl
    obtain ⟨every10, every100, every1000, pushed10, pushed100, pushed1000, isLevels⟩ :=
      levels_pushNewBlockId atEnd positive isPushed
    rw [HoldsExactly, isLevels]
    simp only [List.forall_mem_cons, List.not_mem_nil, false_implies, implies_true, and_true,
      held_push positive]
    refine ⟨⟨latest.length_put_le short id, fun e => ?_⟩, ?_, ?_, ?_⟩
    · have isPut := latest.mem_put_iff (one_dvd _) Nat.one_pos (by decide) short (a := id) (e := e)
      rw [and_iff_left (one_dvd height.toNat), ← held]
      exact isPut
    · simpa only [held10] using mem_pushEvery_iff by10 (by decide) (by decide) short10 pushed10
    · simpa only [held100] using mem_pushEvery_iff by100 (by decide) (by decide) short100 pushed100
    · simpa only [held1000] using
        mem_pushEvery_iff by1000 (by decide) (by decide) short1000 pushed1000

theorem HoldsExactly.perform {calls : List (ShortenerCall Hash)} (holds : c.HoldsExactly calls)
    (traced : Traced c pushed) {call : ShortenerCall Hash} (allowed : c.Allows call)
    (performed : c.perform call = some c') : c'.HoldsExactly (calls ++ [call]) := by
  cases call with
  | clear =>
      cases performed
      exact .clear
  | detach includingHeight =>
      cases performed
      exact holds.detach includingHeight
  | push id height =>
      obtain ⟨unwrapped, isPushed, rfl⟩ := Option.map_eq_some_iff.mp performed
      have after : unwrapped.HoldsExactly (calls ++ [.push id height]) :=
        holds.push traced allowed isPushed
      exact after

/-- No call of a run throws. -/
theorem Traced.run (traced : Traced c pushed) {earlier calls : List (ShortenerCall Hash)}
    (holds : c.HoldsExactly earlier)
    (allowed :
      Transition.Guarded ChainShortener.perform (fun c call => c.Allows call ∧ Fits call) c calls) :
    ∃ c', Transition.run ChainShortener.perform c calls = some c' ∧
      Traced c' (calls.foldl record pushed) ∧
      c'.HoldsExactly (earlier ++ calls) := by
  induction calls generalizing c pushed earlier with
  | nil => exact ⟨c, rfl, traced, by simpa using holds⟩
  | cons call calls inductionHypothesis =>
      obtain ⟨next, performed, after⟩ := traced.perform allowed.1.1 allowed.1.2
      have nextHolds := holds.perform traced allowed.1.1 performed
      obtain ⟨c', ran, traced', holds'⟩ :=
        inductionHypothesis after nextHolds (allowed.2 next performed)
      exact ⟨c', Transition.run_cons_eq_some.mpr ⟨next, performed, ran⟩,
        traced', by simpa using holds'⟩

/-! ## What follows from it -/

theorem Traced.consistent (traced : Traced c pushed) {calls : List (ShortenerCall Hash)}
    (holds : c.HoldsExactly calls) : Consistent c calls pushed where
  nonempty := traced.remembers.nonempty
  genesis := traced.genesis
  containers := by
    intro level isLevel
    have samples := traced.remembers.levels level isLevel
    refine ⟨samples.sorted, ?_, ?_⟩
    · intro e inside
      obtain ⟨positive, below, multiple, -⟩ := samples.entry e inside
      exact ⟨positive, below, multiple, traced.kept e ⟨level, isLevel, inside⟩⟩
    · intro e inside height above below multiple
      exact ⟨_, samples.closed e inside height above below multiple⟩
  holds := holds

theorem keeps_of_lookup {level : ℕ × List (ℕ × Hash)} (isLevel : level ∈ c.levels) {i : ℕ}
    {own : Hash} (isThere : level.2.lookup i = some own) : c.Keeps (i, own) := by
  obtain ⟨first, last, isWhole, -⟩ := List.lookup_eq_some_iff.mp isThere
  exact ⟨level, isLevel, by simp [isWhole]⟩

variable [DecidableEq Hash]

/-- A block that is found is kept with some id. -/
theorem keeps_of_blockFound {i : ℕ} {id : Hash} {result : BlockMatch} (positive : 0 < i)
    (answers : c.checkIfBlockMatched i id = some result) (found : result.blockFound = true) : ∃ own,
    c.Keeps (i, own) := by
  unfold checkIfBlockMatched at answers
  rw [if_neg positive.ne'] at answers
  split at answers
  · split at answers
    · obtain ⟨own, isThere, -⟩ := Option.map_eq_some_iff.mp answers
      exact ⟨own, keeps_of_lookup latest_mem isThere⟩
    · cases answers
  · obtain ⟨item, isItem, rfl⟩ := Option.map_eq_some_iff.mp answers
    cases item with
    | none => cases found
    | some item =>
        dsimp only at found
        split at found
        · next here =>
            unfold lookupItemAround at isItem
            split at isItem
            · cases isItem
            · next divider container isLevel =>
                obtain ⟨own, isThere, same⟩ := Option.map_eq_some_iff.mp isItem
                have place : i - i % divider = i :=
                  (congrArg Prod.fst (Option.some.inj same)).trans here
                rw [place] at isThere
                exact ⟨own, keeps_of_lookup (List.mem_of_find?_eq_some isLevel) isThere⟩
        · cases found

theorem Traced.answersRight (traced : Traced c pushed) {i : ℕ} (below : i < c.localBcSize)
    (id : Hash) :
    AnswersRight c pushed i id := by
  rcases Nat.eq_zero_or_pos i with rfl | positive
  · refine ⟨_, checkIfBlockMatched_genesis traced.remembers.nonempty id, ?_, by simp⟩
    exact fun _ => ⟨c.genesis, traced.genesis, by simp⟩
  · obtain ⟨result, answers, matched, -, keeps⟩ :=
      traced.remembers.checkIfBlockMatched positive below id
    refine ⟨result, answers, ?_, ?_⟩
    · intro found
      obtain ⟨own, isKept⟩ := keeps_of_blockFound positive answers found
      have isPushed := traced.kept _ isKept
      refine ⟨own, isPushed, ?_, ?_⟩
      · intro isMatched
        have isSame := (traced.kept _ (matched isMatched).2).symm.trans isPushed
        exact Option.some.inj isSame
      · intro same
        exact keeps (same ▸ isKept)
    · intro notFound
      cases isMatched : result.blockMatched with
      | false => rfl
      | true =>
          have found := (matched isMatched).1
          rw [notFound] at found
          cases found

omit [DecidableEq Hash] in
theorem Traced.listsHistory (traced : Traced c pushed) : ListsHistory c pushed := by
  constructor
  · obtain ⟨entries, isHistory, descending, all⟩ := traced.remembers.getShortChainHistory_eq
    refine ⟨entries, isHistory, descending, fun e inside => ?_⟩
    obtain ⟨positive, below, -⟩ := traced.remembers.id_eq (all e inside)
    exact ⟨positive, below, traced.kept e (all e inside)⟩
  · intro turns offset distance positive apart enough
    obtain ⟨more, rfl⟩ := Nat.exists_eq_add_of_le enough
    exact traced.remembers.historyBehind_ended positive (by omega) apart more

/-- In every run that pushes no id at the largest height, nothing throws, each container has exactly
the ids that were pushed and spared, without gaps up to the size, the answers are those of the ids
that were last pushed, and the history goes down to the genesis block. -/
theorem shortener_consistent (genesis : Hash) (calls : List (ShortenerCall Hash))
    (allowed : Transition.Guarded ChainShortener.perform (fun c call => c.Allows call ∧
      Fits call) (fresh genesis) calls) :
    ∃ c, Transition.run ChainShortener.perform (fresh genesis) calls = some c ∧
      Consistent c calls (lastPushed genesis calls) ∧
        (∀ i < c.localBcSize, ∀ id, AnswersRight c (lastPushed genesis calls) i id) ∧
          ListsHistory c (lastPushed genesis calls) := by
  obtain ⟨c, ran, traced, holds⟩ := (traced_fresh genesis).run (.fresh genesis) allowed
  exact ⟨c, ran, traced.consistent holds, fun i below id => traced.answersRight below id,
    traced.listsHistory⟩

/-- Ids from height 57 to 60, and another one for the last of them, which both finest
containers then have. -/
theorem shortener_consistent_reorganized :
    ∃ c, Transition.run ChainShortener.perform (fresh 0)
        [.push 1 57, .push 2 58, .push 3 59, .push 4 60, .push 5 60] = some c ∧
      Consistent c [.push 1 57, .push 2 58, .push 3 59, .push 4 60, .push 5 60]
        (lastPushed 0 [.push 1 57, .push 2 58, .push 3 59, .push 4 60, .push 5 60]) ∧
      (60, 5) ∈ c.last20Blocks ∧ (60, 5) ∈ c.last144BlocksEvery10 := by
  have allowed :
      Transition.Guarded ChainShortener.perform (fun c call => c.Allows call ∧ Fits call) (fresh 0)
      [.push 1 57, .push 2 58, .push 3 59, .push 4 60, .push 5 60] := by
    refine ⟨⟨by simp [Allows, fresh], by simp [Fits]⟩, fun first isFirst => ?_⟩
    cases isFirst
    refine ⟨⟨by decide, by simp [Fits]⟩, fun second isSecond => ?_⟩
    cases isSecond
    refine ⟨⟨by decide, by simp [Fits]⟩, fun third isThird => ?_⟩
    cases isThird
    refine ⟨⟨by decide, by simp [Fits]⟩, fun fourth isFourth => ?_⟩
    cases isFourth
    exact ⟨⟨by decide, by simp [Fits]⟩, fun _ _ => trivial⟩
  obtain ⟨c, ran, consistent, -⟩ := shortener_consistent 0 _ allowed
  refine ⟨c, ran, consistent, ?_⟩
  cases ran
  decide

/-- The largest multiple of the step below the size, where a container was to end. -/
def largestMultiple (c : ChainShortener Hash) (step : ℕ) : ℕ := (c.localBcSize - 1) / step * step

/-- The wallet starts with an id at height 57. No id was ever pushed at height 50. -/
theorem first_push_leaves_container_empty :
    ¬∀ (genesis : ℕ) (calls : List (ShortenerCall ℕ)),
      Transition.Guarded ChainShortener.perform (fun c call => c.Allows call ∧
        Fits call) (fresh genesis) calls →
        ∃ c, Transition.run ChainShortener.perform (fresh genesis) calls = some c ∧
          ∀ level ∈ c.levels, ∃ id, (c.largestMultiple level.1, id) ∈ level.2 := by
  intro ends
  obtain ⟨c, ran, all⟩ := ends 0 [.push 1 57]
    ⟨⟨by simp [Allows, fresh], by simp [Fits]⟩, fun _ _ => trivial⟩
  cases ran
  obtain ⟨id, inside⟩ := all (10, []) (by decide)
  cases inside

end ChainShortener

end Zano.Wallet
