import Mathlib

/-! # The height that a wallet is restored from

`get_est_height_from_date` interpolates a height from the date and the launch of the chain, and then
halves the distance to one of two bounds until the timestamp at the estimate is between a day and an
hour and an hour before the date. Timestamps need not grow with the height, so the bounds say
nothing about the heights between them. What every way out has is a height from which the wallet
sees the date: the lower bound only moves to heights whose timestamps are too early.
-/

namespace Zano.RestoreHeight

def difficultyTotalTarget : ℕ := (120 + 120) / 4

/-- Of a block of the main chain only the timestamp is read. The timestamp of the launch is zero
until it is known, and is not changed from then on. -/
structure BlockchainStorage where
  dbBlocks : List UInt64
  blockchainLaunchTimestamp : UInt64

namespace BlockchainStorage

def getBlockchainLaunchTimestamp (s : BlockchainStorage) : UInt64 × BlockchainStorage :=
  if s.blockchainLaunchTimestamp ≠ 0 then (s.blockchainLaunchTimestamp, s)
  else if 2 < s.dbBlocks.length then
    let launch := (s.dbBlocks[1]?).getD 0
    (launch, { s with blockchainLaunchTimestamp := launch })
  else (s.blockchainLaunchTimestamp, s)

end BlockchainStorage

/-- A day and an hour before the date. -/
def lowBoundary (date : UInt64) : UInt64 := date - 90000

/-- An hour before the date. -/
def highBoundary (date : UInt64) : UInt64 := date - 3600

/-- The loop, with the iterations that are left. An index outside the chain throws; when
the iterations are used up, or the bounds have changed sides, the height is the zero it
was at the start. -/
def searchHeight (dbBlocks : List UInt64) (date : UInt64) :
    (iterations currentLowBoundary currentHeightBoundary calculatedEstimatedHeight : ℕ) → Option ℕ
  | 0, _, _, _ => some 0
  | iterations + 1, low, high, estimated =>
      match dbBlocks[estimated]? with
      | none => none
      | some ts =>
          if highBoundary date < ts then
            if estimated < low then some 0
            else
              let offset := (estimated - low) / 2
              if offset ≤ 2 then some low
              else searchHeight dbBlocks date iterations low estimated (estimated - offset)
          else if ts < lowBoundary date then
            if high < estimated then some 0
            else
              let offset := (high - estimated) / 2
              if offset ≤ 2 then some estimated
              else searchHeight dbBlocks date iterations estimated high (estimated + offset)
          else some estimated

def thresholdBlocks : ℕ := 1440

/-- `none` where an index is outside the chain. -/
def getEstHeightFromDate (s : BlockchainStorage) (date : UInt64) : Option (ℕ × BlockchainStorage) :=
  let (launch, s) := s.getBlockchainLaunchTimestamp
  if date < launch then some (0, s)
  else
    let calculated := (date - launch).toNat / difficultyTotalTarget
    match s.dbBlocks.getLast? with
    | none => none
    | some top =>
        if top < date then some (if thresholdBlocks < s.dbBlocks.length then
          s.dbBlocks.length - thresholdBlocks else 0, s)
        else
          let last := s.dbBlocks.length - 1
          (searchHeight s.dbBlocks date 29 0 last (if last < calculated then last
            else calculated)).map fun h => (h, s)

/-- A wallet that starts at the height misses nothing from an hour before the date on, as far as the
timestamp there tells. -/
def Restores (dbBlocks : List UInt64) (date : UInt64) (height : ℕ) : Prop :=
  height = 0 ∨ ∃ ts, dbBlocks[height]? = some ts ∧ ts.toNat + 3600 ≤ date.toNat

/-- What the loop keeps. Of the upper bound only the order matters. -/
structure Searching (dbBlocks : List UInt64) (date : UInt64) (low high estimated : ℕ) : Prop where
  fromLow : low ≤ estimated
  toHigh : estimated ≤ high
  inside : high < dbBlocks.length
  safe : Restores dbBlocks date low

namespace Searching

variable {dbBlocks : List UInt64} {date ts : UInt64} {low high estimated : ℕ}

theorem back (searching : Searching dbBlocks date low high estimated) {offset : ℕ}
    (half : offset ≤ (estimated - low) / 2) :
    Searching dbBlocks date low estimated (estimated - offset) := by
  obtain ⟨fromLow, toHigh, inside, safe⟩ := searching
  exact ⟨by omega, by omega, by omega, safe⟩

theorem forth (searching : Searching dbBlocks date low high estimated)
    (early : Restores dbBlocks date estimated) {offset : ℕ}
    (half : offset ≤ (high - estimated) / 2) :
    Searching dbBlocks date estimated high (estimated + offset) := by
  obtain ⟨fromLow, toHigh, inside, -⟩ := searching
  exact ⟨by omega, by omega, inside, early⟩

end Searching

theorem of_le_highBoundary {date ts : UInt64} (late : 90000 ≤ date)
    (early : ts ≤ highBoundary date) :
    ts.toNat + 3600 ≤ date.toNat := by
  have hour : (3600 : UInt64) ≤ date := by grind
  rw [highBoundary, UInt64.le_iff_toNat_le, UInt64.toNat_sub_of_le date 3600 hour] at early
  have shift := UInt64.le_iff_toNat_le.mp hour
  have same : (3600 : UInt64).toNat = 3600 := rfl
  omega

/-- The bounds move into the half that is left, and the lower one only to where the
date is still ahead. -/
theorem searchHeight_restores {dbBlocks : List UInt64} {date : UInt64} (late : 90000 ≤ date)
    (iterations : ℕ) :
    ∀ {low high estimated : ℕ}, Searching dbBlocks date low high estimated →
      ∃ height, searchHeight dbBlocks date iterations low high estimated = some height ∧
      Restores dbBlocks date height := by
  induction iterations with
  | zero =>
      intro low high estimated _
      exact ⟨0, rfl, .inl rfl⟩
  | succ iterations inductionHypothesis =>
      intro low high estimated searching
      have inside : estimated < dbBlocks.length := searching.toHigh.trans_lt searching.inside
      have there : dbBlocks[estimated]? = some dbBlocks[estimated] :=
        List.getElem?_eq_getElem inside
      rw [searchHeight, there]
      dsimp only
      split
      next =>
        rw [if_neg (Nat.not_lt.mpr searching.fromLow)]
        split
        · exact ⟨low, rfl, searching.safe⟩
        · exact inductionHypothesis (searching.back le_rfl)
      next notAfter =>
        have restores : Restores dbBlocks date estimated :=
          .inr ⟨_, there, of_le_highBoundary late (UInt64.not_lt.mp notAfter)⟩
        rw [if_neg (Nat.not_lt.mpr searching.toHigh)]
        split
        · split
          · exact ⟨estimated, rfl, restores⟩
          · exact inductionHypothesis (searching.forth restores le_rfl)
        · exact ⟨estimated, rfl, restores⟩

theorem getBlockchainLaunchTimestamp_dbBlocks (s : BlockchainStorage) :
    s.getBlockchainLaunchTimestamp.2.dbBlocks = s.dbBlocks := by
  rw [BlockchainStorage.getBlockchainLaunchTimestamp]
  split
  · rfl
  · split <;> rfl

/-- Whatever the timestamps are, and whatever launch of the chain is remembered. -/
theorem est_height_restores (s : BlockchainStorage) (date top : UInt64)
    (long : 2 < s.dbBlocks.length) (isTop : s.dbBlocks.getLast? = some top) (late : 90000 ≤ date)
    (launched : s.getBlockchainLaunchTimestamp.1 ≤ date) (notAhead : date ≤ top) :
    ∃ height left, getEstHeightFromDate s date = some (height, left) ∧
      (height = 0 ∨ ∃ ts, s.dbBlocks[height]? = some ts ∧ ts.toNat + 3600 ≤ date.toNat) := by
  have same := getBlockchainLaunchTimestamp_dbBlocks s
  rw [getEstHeightFromDate]
  generalize s.getBlockchainLaunchTimestamp = found at same launched
  obtain ⟨launch, left⟩ := found
  dsimp only at same launched ⊢
  rw [if_neg (UInt64.not_lt.mpr launched), same, isTop]
  dsimp only
  rw [if_neg (UInt64.not_lt.mpr notAhead)]
  generalize (date - launch).toNat / difficultyTotalTarget = calculated
  have begins : Searching s.dbBlocks date 0 (s.dbBlocks.length - 1)
      (if s.dbBlocks.length - 1 < calculated then s.dbBlocks.length - 1 else calculated) := by
    refine ⟨Nat.zero_le _, ?_, by omega, .inl rfl⟩
    split <;> omega
  obtain ⟨height, found, restores⟩ := searchHeight_restores late 29 begins
  exact ⟨height, left, by rw [found]; rfl, restores⟩

/-- The block at height 10 is from before some blocks below it. The search for 600000 comes to it
from the last block, goes on to height 15, and back. -/
def unevenChain : BlockchainStorage where
  dbBlocks := [0, 100000, 150000, 200000, 250000, 300000, 350000, 400000, 450000, 500000, 300000,
    600000, 650000, 700000, 750000, 800000, 850000, 900000, 950000, 1000000, 1050000]
  blockchainLaunchTimestamp := 0

theorem uneven_height_restores :
    (getEstHeightFromDate unevenChain 600000).map (·.1) = some 10 ∧
      ∃ height left, getEstHeightFromDate unevenChain 600000 = some (height, left) ∧
        (height = 0 ∨ ∃ ts, unevenChain.dbBlocks[height]? = some ts ∧
          ts.toNat + 3600 ≤ (600000 : UInt64).toNat) :=
  ⟨by decide,
    est_height_restores unevenChain 600000 1050000 (by decide) rfl (by decide) (by decide)
      (by decide)⟩

end Zano.RestoreHeight
