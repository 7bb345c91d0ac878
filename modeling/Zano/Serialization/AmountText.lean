import Mathlib

/-! # Amounts as text

An amount is written with a point before its last `decimalPoint` digits. A reader takes the point
out and fills up with zeros, so that what it converts at the end is a whole number.
-/

namespace Zano.AmountText

/-! ## Reading -/

/-- The space characters of the C locale. -/
def isSpace (c : Char) : Bool := c.toNat = 32 || (9 ≤ c.toNat && c.toNat ≤ 13)

def trim (s : List Char) : List Char := (s.dropWhile isSpace).rdropWhile isSpace

/-- The number that a sequence of digits is. -/
def number (digits : List Char) : Nat := Nat.ofDigitChars 10 digits 0

/-- `get_xtype_from_string` for `uint64_t`. The conversion takes any number of leading zeros. -/
def getUint64FromString (s : List Char) : Option UInt64 :=
  if s.all Char.isDigit ∧ s ≠ [] ∧ number s < 2 ^ 64 then some (UInt64.ofNat (number s)) else none

/-- The loop that erases zeros behind the last digit that counts, on the reversed fraction. -/
def eraseZeros (decimalPoint : Nat) : List Char → List Char
  | [] => []
  | c :: rest =>
      if decimalPoint < rest.length + 1 ∧ c = '0' then eraseZeros decimalPoint rest else c :: rest

def convertDigits (digits : List Char) (fractionSize decimalPoint : Nat) : Option UInt64 :=
  if digits = [] then none
  else getUint64FromString (digits ++ List.replicate (decimalPoint - fractionSize) '0')

def parseAmount (s : List Char) (decimalPoint : Nat) : Option UInt64 :=
  match (trim s).dropWhile (· ≠ '.') with
  | [] => convertDigits (trim s) 0 decimalPoint
  | _ :: fraction =>
      let fraction := (eraseZeros decimalPoint fraction.reverse).reverse
      if decimalPoint < fraction.length then none
      else convertDigits ((trim s).takeWhile (· ≠ '.') ++ fraction) fraction.length decimalPoint

/-! ## Printing -/

def constexprPow : Nat → UInt64 → UInt64
  | 0, _ => 1
  | k + 1, base => base * constexprPow k base

def currencyDisplayDecimalPoint : Nat := 12

def coin (decimalPoint : Nat) : UInt64 :=
  if decimalPoint = currencyDisplayDecimalPoint then 1000000000000 else constexprPow decimalPoint 10

/-- As `std::to_string`. -/
def digitsOf (n : Nat) : List Char := Nat.toDigits 10 n

def padded (size : Nat) (r : List Char) : List Char := List.replicate (size - r.length) '0' ++ r

/-- What is up to the last character that is not a zero. -/
def upToLastNotZero (r : List Char) : List Char := r.rdropWhile (· = '0')

/-- The zeros at the end go, but for one that follows the point. -/
def eraseTrailing (r : List Char) : List Char :=
  let kept := upToLastNotZero r
  if kept = [] then r
  else if kept.getLast? ≠ some '.' ∧ kept.length < r.length then kept
  else if kept.length + 1 < r.length then r.take (kept.length + 1)
  else r

def printMoneyBrief (amount : UInt64) (decimalPoint : Nat) : List Char :=
  if 32 < decimalPoint then '!' :: '!' :: digitsOf amount.toNat
  else if 20 ≤ decimalPoint then
    let r := padded (decimalPoint + 1) (digitsOf amount.toNat)
    eraseTrailing (r.take 1 ++ '.' :: r.drop 1)
  else
    let remainder := amount % coin decimalPoint
    let whole := amount / coin decimalPoint
    if remainder = 0 then digitsOf whole.toNat ++ (if 0 < decimalPoint then ['.', '0'] else [])
    else digitsOf whole.toNat ++
      '.' :: upToLastNotZero (padded decimalPoint (digitsOf remainder.toNat))

/-! ## What a text says -/

def Digits (s : List Char) : Prop := ∀ c ∈ s, c.isDigit = true

/-- `s` is a sequence of digits, not empty and with a point at most, and its value times `10 ^
decimalPoint` is `n`. -/
def Denotes (s : List Char) (decimalPoint n : Nat) : Prop :=
  ∃ whole fraction, Digits (whole ++ fraction) ∧ whole ++ fraction ≠ [] ∧
    (s = whole ++ '.' :: fraction ∨ (fraction = [] ∧ s = whole)) ∧
    ((number whole : ℚ) + (number fraction : ℚ) / 10 ^ fraction.length) * 10 ^ decimalPoint = n

variable {s whole fraction digits more : List Char} {decimalPoint n k : Nat}

@[simp]
theorem number_nil : number [] = 0 := Nat.ofDigitChars_nil

theorem number_append :
    number (digits ++ more) = number digits * 10 ^ more.length + number more := by
  rw [number, Nat.ofDigitChars_append, Nat.ofDigitChars_eq_ofDigitChars_zero, Nat.mul_comm]
  rfl

@[simp]
theorem number_zeros : number (List.replicate k '0') = 0 := by
  rw [number, Nat.ofDigitChars_replicate_zero, Nat.mul_zero]

@[simp]
theorem number_digitsOf : number (digitsOf n) = n := Nat.ofDigitChars_ten_toDigits

/-- Without quotients. -/
theorem value_iff :
    ((number whole : ℚ) + (number fraction : ℚ) / 10 ^ fraction.length) * 10 ^ decimalPoint = n ↔
      number (whole ++ fraction) * 10 ^ decimalPoint = n * 10 ^ fraction.length := by
  have positive : (10 : ℚ) ^ fraction.length ≠ 0 := by positivity
  have joined :
      ((number whole : ℚ) + (number fraction : ℚ) / 10 ^ fraction.length) * 10 ^ fraction.length =
      number (whole ++ fraction) := by
    rw [number_append]
    push_cast
    field_simp
  rw [← @Nat.cast_inj ℚ]
  push_cast
  rw [← joined]
  constructor
  · intro value
    rw [← value]
    ring
  · intro value
    apply mul_right_cancel₀ positive
    rw [← value]
    ring

/-! ## Where the point is -/

theorem point_notMem (allDigits : Digits digits) : '.' ∉ digits := by
  intro inside
  cases allDigits _ inside

theorem takeWhile_point (noPoint : '.' ∉ whole) :
    (whole ++ '.' :: fraction).takeWhile (· ≠ '.') = whole := by
  rw [List.takeWhile_append_of_pos, List.takeWhile_cons_of_neg (by simp), List.append_nil]
  intro c inside
  simp only [ne_eq, decide_not, Bool.not_eq_eq_eq_not, Bool.not_true, decide_eq_false_iff_not]
  rintro rfl
  exact noPoint inside

theorem dropWhile_point (noPoint : '.' ∉ whole) :
    (whole ++ '.' :: fraction).dropWhile (· ≠ '.') = '.' :: fraction := by
  rw [List.dropWhile_append_of_pos, List.dropWhile_cons_of_neg (by simp)]
  intro c inside
  simp only [ne_eq, decide_not, Bool.not_eq_eq_eq_not, Bool.not_true, decide_eq_false_iff_not]
  rintro rfl
  exact noPoint inside

theorem dropWhile_noPoint (noPoint : '.' ∉ s) : s.dropWhile (· ≠ '.') = [] := by
  rw [List.dropWhile_eq_nil_iff]
  intro c inside
  simp only [ne_eq, decide_not, Bool.not_eq_eq_eq_not, Bool.not_true, decide_eq_false_iff_not]
  rintro rfl
  exact noPoint inside

theorem exists_point (inside : '.' ∈ s) :
    ∃ whole fraction, s = whole ++ '.' :: fraction ∧ '.' ∉ whole :=
  List.eq_append_cons_of_mem inside

/-- A text without a point. -/
theorem denotes_whole (noPoint : '.' ∉ s) :
    Denotes s decimalPoint n ↔ Digits s ∧ s ≠ [] ∧ number s * 10 ^ decimalPoint = n := by
  constructor
  · rintro ⟨whole, fraction, allDigits, notEmpty, rfl | ⟨rfl, rfl⟩, value⟩
    · simp at noPoint
    · rw [value_iff] at value
      simp only [List.append_nil, List.length_nil, pow_zero, mul_one] at allDigits notEmpty value
      exact ⟨allDigits, notEmpty, value⟩
  · rintro ⟨allDigits, notEmpty, value⟩
    refine ⟨s, [], by simpa using allDigits, by simpa using notEmpty, .inr ⟨rfl, rfl⟩, ?_⟩
    rw [value_iff]
    simpa using value

/-- A text with a point. -/
theorem denotes_point (noPoint : '.' ∉ whole) :
    Denotes (whole ++ '.' :: fraction) decimalPoint n ↔
      Digits (whole ++ fraction) ∧ whole ++ fraction ≠ [] ∧
        number (whole ++ fraction) * 10 ^ decimalPoint = n * 10 ^ fraction.length := by
  constructor
  · rintro ⟨front, back, allDigits, notEmpty, same | ⟨rfl, rfl⟩, value⟩
    · have noPointFront : '.' ∉ front :=
        fun inside => point_notMem allDigits (List.mem_append_left back inside)
      have sameFront := congrArg (List.takeWhile (· ≠ '.')) same
      have sameBack := congrArg (List.dropWhile (· ≠ '.')) same
      rw [takeWhile_point noPoint, takeWhile_point noPointFront] at sameFront
      rw [dropWhile_point noPoint, dropWhile_point noPointFront, List.cons.injEq] at sameBack
      obtain ⟨rfl, -, rfl⟩ := And.intro sameFront sameBack
      exact ⟨allDigits, notEmpty, value_iff.mp value⟩
    · exact absurd (by simp) (point_notMem allDigits)
  · rintro ⟨allDigits, notEmpty, value⟩
    exact ⟨whole, fraction, allDigits, notEmpty, .inl rfl, value_iff.mpr value⟩

/-! ## What is read -/

variable {amount : UInt64}

theorem digits_append : Digits (digits ++ more) ↔ Digits digits ∧ Digits more :=
  List.forall_mem_append

theorem digits_zeros : Digits (List.replicate k '0') := by
  intro c inside
  rw [List.eq_of_mem_replicate inside]
  rfl

theorem getUint64FromString_eq :
    getUint64FromString s = some amount ↔ Digits s ∧ s ≠ [] ∧ number s = amount.toNat := by
  rw [getUint64FromString, Option.ite_none_right_eq_some, List.all_eq_true, Option.some.injEq]
  constructor
  · rintro ⟨⟨allDigits, notEmpty, small⟩, rfl⟩
    exact ⟨allDigits, notEmpty, (UInt64.toNat_ofNat_of_lt' small).symm⟩
  · rintro ⟨allDigits, notEmpty, value⟩
    exact ⟨⟨allDigits,
      notEmpty, by rw [value]; exact amount.toNat_lt⟩, by rw [value, UInt64.ofNat_toNat]⟩

theorem convertDigits_eq {fractionSize : Nat} :
    convertDigits digits fractionSize decimalPoint = some amount ↔
      Digits digits ∧ digits ≠ [] ∧
        number digits * 10 ^ (decimalPoint - fractionSize) = amount.toNat := by
  rw [convertDigits]
  by_cases empty : digits = []
  · simp [empty]
  · rw [if_neg empty, getUint64FromString_eq, digits_append, number_append, number_zeros,
      List.length_replicate, Nat.add_zero]
    simp [empty, digits_zeros]

/-- By induction on the reversed fraction: zeros go as long as there are more digits than count. -/
theorem eraseZeros_eq (reversed : List Char) :
    ∃ k, reversed = List.replicate k '0' ++ eraseZeros decimalPoint reversed ∧
      (decimalPoint < (eraseZeros decimalPoint reversed).length →
        (eraseZeros decimalPoint reversed).head? ≠ some '0') ∧
      (0 < k → decimalPoint ≤ (eraseZeros decimalPoint reversed).length) := by
  induction reversed with
  | nil => exact ⟨0, rfl, by simp [eraseZeros], by simp⟩
  | cons c rest inductionHypothesis =>
      rw [eraseZeros]
      split
      · rename_i erases
        obtain ⟨more, rfl⟩ := erases
        obtain ⟨k, whole, last, enough⟩ := inductionHypothesis
        refine ⟨k + 1, by rw [List.replicate_succ, List.cons_append, ← whole], last, fun _ => ?_⟩
        cases k with
        | zero =>
            rw [List.replicate_zero, List.nil_append] at whole
            rw [← whole]
            omega
        | succ k => exact enough k.succ_pos
      · rename_i stays
        refine ⟨0, rfl, fun more => ?_, by simp⟩
        simp only [List.head?_cons, ne_eq, Option.some.injEq]
        rintro rfl
        exact stays ⟨more, rfl⟩

theorem fraction_eq (decimalPoint : Nat) (fraction : List Char) :
    ∃ kept k, (eraseZeros decimalPoint fraction.reverse).reverse = kept ∧
      fraction = kept ++ List.replicate k '0' ∧
      (decimalPoint < kept.length → kept.getLast? ≠ some '0') ∧
        (0 < k → decimalPoint ≤ kept.length) := by
  obtain ⟨k, whole, last, enough⟩ := @eraseZeros_eq decimalPoint fraction.reverse
  refine ⟨_, k, rfl, ?_, by simpa using last, by simpa using enough⟩
  rw [← List.reverse_inj, List.reverse_append, List.reverse_reverse, List.reverse_replicate]
  exact whole

/-- Zeros behind the fraction do not matter, and a last digit that is not a zero does. -/
theorem value_zeros :
    number (whole ++ (digits ++ List.replicate k '0')) * 10 ^ decimalPoint =
        n * 10 ^ (digits ++ List.replicate k '0').length ↔
      number (whole ++ digits) * 10 ^ decimalPoint = n * 10 ^ digits.length := by
  have positive : 0 < 10 ^ k := by positivity
  rw [← List.append_assoc, number_append, number_zeros, List.length_append, List.length_replicate,
    Nat.add_zero, Nat.pow_add, ← Nat.mul_assoc, Nat.mul_right_comm]
  exact Nat.mul_left_inj positive.ne'

theorem digit_pos {c : Char} (isDigit : c.isDigit = true) (notZero : c ≠ '0') :
    number [c] % 10 ≠ 0 := by
  have value : number [c] = c.toNat - 48 := by simp [number, Nat.ofDigitChars_cons]
  have bounds : 48 ≤ c.toNat ∧ c.toNat ≤ 57 := by
    simpa [Char.isDigit, UInt32.le_iff_toNat_le] using isDigit
  have above : c.toNat ≠ 48 := fun same => notZero (Char.toNat_inj.mp same)
  omega

theorem value_ne (allDigits : Digits digits) (last : digits.getLast? ≠ some '0')
    (more : decimalPoint < digits.length) :
    number (whole ++ digits) * 10 ^ decimalPoint ≠ n * 10 ^ digits.length := by
  intro value
  obtain rfl | ⟨front, c, rfl⟩ := List.eq_nil_or_concat' digits
  · cases more
  · have notZero : c ≠ '0' := by simpa using last
    have ofLast := digit_pos (allDigits c (by simp)) notZero
    have atLeast : decimalPoint ≤ front.length := by
      rw [List.length_append, List.length_singleton] at more
      omega
    have powers : (10 : Nat) ^ (front ++ [c]).length =
        10 ^ (front.length - decimalPoint) * 10 * 10 ^ decimalPoint := by
      rw [List.length_append, List.length_singleton, Nat.pow_succ,
        Nat.mul_right_comm, ← Nat.pow_add, Nat.sub_add_cancel atLeast]
    have positive : 0 < 10 ^ decimalPoint := by positivity
    rw [powers, ← Nat.mul_assoc, ← Nat.mul_assoc,
      Nat.mul_left_inj positive.ne', ← List.append_assoc, number_append, List.length_singleton,
      Nat.pow_one] at value
    omega

/-- A point before zeros only is read as nothing when no digit behind it counts. -/
def OnlyZerosBehindPoint (s : List Char) (decimalPoint : Nat) : Prop :=
  decimalPoint = 0 ∧ ∃ k, s = '.' :: List.replicate (k + 1) '0'

theorem parseAmount_of_point (isPoint : trim s = whole ++ '.' :: fraction) (noPoint : '.' ∉ whole) :
    parseAmount s decimalPoint =
      if decimalPoint < (eraseZeros decimalPoint fraction.reverse).reverse.length then none
      else convertDigits (whole ++ (eraseZeros decimalPoint fraction.reverse).reverse)
        (eraseZeros decimalPoint fraction.reverse).reverse.length decimalPoint := by
  rw [parseAmount, isPoint, dropWhile_point noPoint, takeWhile_point noPoint]

theorem parseAmount_eq (usual : ¬OnlyZerosBehindPoint (trim s) decimalPoint) :
    parseAmount s decimalPoint = some amount ↔ Denotes (trim s) decimalPoint amount.toNat := by
  by_cases inside : '.' ∈ trim s
  · obtain ⟨whole, fraction, isPoint, noPoint⟩ := exists_point inside
    obtain ⟨kept, k, isKept, rfl, last, enough⟩ := fraction_eq decimalPoint fraction
    rw [parseAmount_of_point isPoint noPoint, isKept, isPoint, denotes_point noPoint, value_zeros]
    split
    · rename_i more
      constructor
      · intro never
        cases never
      · rintro ⟨allDigits, -, value⟩
        rw [digits_append, digits_append] at allDigits
        exact absurd value (value_ne allDigits.2.1 (last more) more)
    · rename_i fits
      have powers :
          (10 : Nat) ^ decimalPoint = 10 ^ (decimalPoint - kept.length) * 10 ^ kept.length := by
        rw [← Nat.pow_add, Nat.sub_add_cancel (Nat.le_of_not_lt fits)]
      have positive : 0 < 10 ^ kept.length := by positivity
      have sameEmpty : whole ++ kept ≠ [] ↔ whole ++ (kept ++ List.replicate k '0') ≠ [] := by
        rw [not_iff_not]
        constructor
        · intro empty
          obtain ⟨rfl, rfl⟩ := List.append_eq_nil_iff.mp empty
          cases k with
          | zero => rfl
          | succ k => exact absurd ⟨Nat.le_zero.mp (enough k.succ_pos), k, isPoint⟩ usual
        · intro empty
          simp only [List.append_eq_nil_iff] at empty
          simp [empty]
      rw [convertDigits_eq, powers, ← Nat.mul_assoc, Nat.mul_left_inj positive.ne', sameEmpty]
      simp only [digits_append, digits_zeros, and_true]
  · rw [parseAmount, dropWhile_noPoint inside, denotes_whole inside]
    exact convertDigits_eq

theorem parseAmount_of_onlyZeros (unusual : OnlyZerosBehindPoint (trim s) decimalPoint) :
    parseAmount s decimalPoint = none ∧ Denotes (trim s) decimalPoint 0 := by
  obtain ⟨rfl, k, isZeros⟩ := unusual
  have noPoint : '.' ∉ ([] : List Char) := List.not_mem_nil
  have isPoint : trim s = [] ++ '.' :: List.replicate (k + 1) '0' := isZeros
  have nothing (k : Nat) : eraseZeros 0 (List.replicate k '0') = [] := by
    induction k with
    | zero => rfl
    | succ k inductionHypothesis => simp [List.replicate_succ, eraseZeros, inductionHypothesis]
  constructor
  · rw [parseAmount_of_point isPoint noPoint, List.reverse_replicate, nothing]
    rfl
  · rw [isPoint, denotes_point noPoint]
    refine ⟨digits_zeros, by simp [List.replicate_succ], ?_⟩
    rw [List.nil_append, number_zeros, Nat.zero_mul, Nat.zero_mul]

/-! ## What is printed -/

theorem digits_digitsOf : Digits (digitsOf n) :=
  fun _ inside => Nat.isDigit_of_mem_toDigits (by decide) (by decide) inside

theorem digitsOf_ne_nil : digitsOf n ≠ [] := Nat.toDigits_ne_nil

theorem digits_padded (allDigits : Digits digits) : Digits (padded k digits) :=
  digits_append.mpr ⟨digits_zeros, allDigits⟩

theorem number_padded : number (padded k digits) = number digits := by
  rw [padded, number_append, number_zeros, Nat.zero_mul, Nat.zero_add]

theorem length_padded (positive : 0 < k) (small : n < 10 ^ k) :
    (padded k (digitsOf n)).length = k := by
  have short : (digitsOf n).length ≤ k :=
    (Nat.length_toDigits_le_iff (by decide) positive).mpr small
  rw [padded, List.length_append, List.length_replicate]
  omega

theorem upToLastNotZero_eq (r : List Char) :
    ∃ k, r = upToLastNotZero r ++ List.replicate k '0' := by
  refine ⟨(r.rtakeWhile (· = '0')).length, ?_⟩
  have zeros : r.rtakeWhile (· = '0') = List.replicate (r.rtakeWhile (· = '0')).length '0' :=
    List.eq_replicate_iff.mpr ⟨rfl, fun c inside => by simpa using List.mem_rtakeWhile_imp inside⟩
  rw [← zeros]
  exact List.rdropWhile_append_rtakeWhile.symm

theorem upToLastNotZero_point (whole fraction : List Char) :
    upToLastNotZero (whole ++ '.' :: fraction) = whole ++ '.' :: upToLastNotZero fraction := by
  simp only [upToLastNotZero, List.rdropWhile, List.reverse_append, List.reverse_cons,
    List.append_assoc, List.singleton_append]
  rw [List.dropWhile_append]
  split
  · rename_i empty
    rw [List.isEmpty_iff] at empty
    simp [empty]
  · simp

/-- Zeros behind the fraction can be left out. -/
theorem denotes_zeros (notEmpty : whole ≠ []) (noPoint : '.' ∉ whole) :
    Denotes (whole ++ '.' :: (digits ++ List.replicate k '0')) decimalPoint n ↔
      Denotes (whole ++ '.' :: digits) decimalPoint n := by
  rw [denotes_point noPoint, denotes_point noPoint, value_zeros]
  simp [digits_append, digits_zeros, notEmpty]

theorem denotes_upToLastNotZero (notEmpty : whole ≠ []) (noPoint : '.' ∉ whole)
    (denotes : Denotes (whole ++ '.' :: fraction) decimalPoint n) :
    Denotes (whole ++ '.' :: upToLastNotZero fraction) decimalPoint n := by
  obtain ⟨k, zeros⟩ := upToLastNotZero_eq fraction
  rw [zeros] at denotes
  exact (denotes_zeros notEmpty noPoint).mp denotes

/-- Each branch leaves some of the zeros at the end. -/
theorem eraseTrailing_eq (whole fraction : List Char) :
    ∃ k, eraseTrailing (whole ++ '.' :: fraction) =
      whole ++ '.' :: (upToLastNotZero fraction ++ List.replicate k '0') := by
  obtain ⟨k, zeros⟩ := upToLastNotZero_eq fraction
  have split : whole ++ '.' :: fraction =
      upToLastNotZero (whole ++ '.' :: fraction) ++ List.replicate k '0' := by
    rw [upToLastNotZero_point, List.append_assoc, List.cons_append, ← zeros]
  have joined (j : Nat) : upToLastNotZero (whole ++ '.' :: fraction) ++ List.replicate j '0' =
      whole ++ '.' :: (upToLastNotZero fraction ++ List.replicate j '0') := by
    rw [upToLastNotZero_point, List.append_assoc, List.cons_append]
  rw [eraseTrailing]
  split
  · exact ⟨k, by rw [← joined, ← split]⟩
  · split
    · exact ⟨0, by rw [← joined, List.replicate_zero, List.append_nil]⟩
    · split
      · refine ⟨min 1 k, ?_⟩
        nth_rewrite 2 [split]
        rw [List.take_append, List.take_of_length_le (Nat.le_succ _), Nat.add_sub_cancel_left,
          List.take_replicate, joined]
      · exact ⟨k, by rw [← joined, ← split]⟩

theorem coin_toNat (small : decimalPoint < 20) : (coin decimalPoint).toNat = 10 ^ decimalPoint := by
  have all : ∀ d < 20, (coin d).toNat = 10 ^ d := by decide
  exact all decimalPoint small

theorem printed_small (small : decimalPoint < 20) :
    Denotes (printMoneyBrief amount decimalPoint) decimalPoint amount.toNat ∧
      (printMoneyBrief amount decimalPoint).head? ≠ some '.' := by
  have isCoin := coin_toNat small
  have noPoint : '.' ∉ digitsOf (amount / coin decimalPoint).toNat := point_notMem digits_digitsOf
  have starts (rest : List Char) :
      (digitsOf (amount / coin decimalPoint).toNat ++ rest).head? ≠ some '.' := by
    intro isPoint
    rw [List.head?_append_of_ne_nil _ digitsOf_ne_nil] at isPoint
    exact noPoint (List.mem_of_head? isPoint)
  have whole :
      10 ^ decimalPoint * (amount / coin decimalPoint).toNat + (amount % coin decimalPoint).toNat =
      amount.toNat := by
    rw [UInt64.toNat_div, UInt64.toNat_mod, isCoin, Nat.div_add_mod]
  rw [printMoneyBrief, if_neg (by omega), if_neg (by omega)]
  simp only
  split
  · rename_i noRemainder
    refine ⟨?_, starts _⟩
    rw [noRemainder] at whole
    split
    · have point :=
        @denotes_zeros (digitsOf (amount / coin decimalPoint).toNat) [] decimalPoint amount.toNat 1
        digitsOf_ne_nil noPoint
      rw [List.nil_append, List.replicate_one] at point
      rw [point, denotes_point noPoint]
      simpa [digits_digitsOf, digitsOf_ne_nil, Nat.mul_comm] using whole
    · rename_i noFraction
      rw [List.append_nil, denotes_whole noPoint]
      refine ⟨digits_digitsOf, digitsOf_ne_nil, ?_⟩
      simpa [Nat.mul_comm] using whole
  · rename_i hasRemainder
    refine ⟨denotes_upToLastNotZero digitsOf_ne_nil noPoint ?_, starts _⟩
    have remainderSmall : (amount % coin decimalPoint).toNat < 10 ^ decimalPoint := by
      rw [UInt64.toNat_mod, isCoin]
      exact Nat.mod_lt _ (by positivity)
    have remainderPositive : 0 < (amount % coin decimalPoint).toNat := by
      rw [Nat.pos_iff_ne_zero]
      exact fun zero => hasRemainder (UInt64.toNat_inj.mp zero)
    have fractionDigits : 0 < decimalPoint := by
      rw [Nat.pos_iff_ne_zero]
      rintro rfl
      omega
    rw [denotes_point noPoint, length_padded fractionDigits remainderSmall, number_append,
      number_padded, length_padded fractionDigits remainderSmall, number_digitsOf,
      number_digitsOf, ← whole]
    exact ⟨digits_append.mpr
      ⟨digits_digitsOf, digits_padded digits_digitsOf⟩, by simp [digitsOf_ne_nil], by ring⟩

theorem printed_large (large : 20 ≤ decimalPoint) (atMost : decimalPoint ≤ 32) :
    Denotes (printMoneyBrief amount decimalPoint) decimalPoint amount.toNat ∧
      (printMoneyBrief amount decimalPoint).head? ≠ some '.' := by
  rw [printMoneyBrief, if_neg (by omega), if_pos large]
  have small : amount.toNat < 10 ^ (decimalPoint + 1) := by
    have powers : 10 ^ 20 ≤ 10 ^ (decimalPoint + 1) := Nat.pow_le_pow_right (by decide) (by omega)
    have := amount.toNat_lt
    omega
  have length := length_padded decimalPoint.succ_pos small
  have allDigits : Digits (padded (decimalPoint + 1) (digitsOf amount.toNat)) :=
    digits_padded digits_digitsOf
  have isNumber : number (padded (decimalPoint + 1) (digitsOf amount.toNat)) = amount.toNat := by
    rw [number_padded, number_digitsOf]
  simp only
  generalize padded (decimalPoint + 1) (digitsOf amount.toNat) = r at *
  cases r with
  | nil => cases length
  | cons first rest =>
      have fractionSize : rest.length = decimalPoint := by simpa using length
      have noPoint : '.' ∉ [first] := point_notMem fun c inside => allDigits c (by simp_all)
      obtain ⟨k, erased⟩ := eraseTrailing_eq [first] rest
      simp only [List.take_succ_cons, List.take_zero, List.drop_succ_cons, List.drop_zero]
      rw [erased]
      constructor
      · rw [denotes_zeros (List.cons_ne_nil _ _) noPoint]
        apply denotes_upToLastNotZero (List.cons_ne_nil _ _) noPoint
        rw [denotes_point noPoint, List.singleton_append, isNumber, fractionSize]
        exact ⟨allDigits, List.cons_ne_nil _ _, rfl⟩
      · simp only [List.cons_append, List.head?_cons, ne_eq, Option.some.injEq]
        rintro rfl
        exact noPoint List.mem_cons_self

/-! ## Both -/

theorem isSpace_digit {c : Char} (isDigit : c.isDigit = true) : isSpace c = false := by
  have bounds : 48 ≤ c.toNat ∧ c.toNat ≤ 57 := by
    simpa [Char.isDigit, UInt32.le_iff_toNat_le] using isDigit
  simp only [isSpace, Bool.or_eq_false_iff, Bool.and_eq_false_iff, decide_eq_false_iff_not]
  omega

theorem trim_of_denotes (denotes : Denotes s decimalPoint n) : trim s = s := by
  obtain ⟨whole, fraction, allDigits, -, text, -⟩ := denotes
  have noSpace : ∀ c ∈ s, isSpace c = false := by
    intro c inside
    have isDigitOrPoint : c ∈ whole ++ fraction ∨ c = '.' := by
      obtain rfl | ⟨rfl, rfl⟩ := text
      · simp only [List.mem_append, List.mem_cons] at inside ⊢
        tauto
      · simp [inside]
    obtain ofDigits | rfl := isDigitOrPoint
    · exact isSpace_digit (allDigits c ofDigits)
    · rfl
  have front : s.dropWhile isSpace = s := by
    cases s with
    | nil => rfl
    | cons c rest => exact List.dropWhile_cons_of_neg (by simp [noSpace c List.mem_cons_self])
  rw [trim, front, List.rdropWhile_eq_self_iff]
  intro notEmpty
  simp [noSpace _ (List.getLast_mem notEmpty)]

theorem parseAmount_printMoneyBrief (atMost : decimalPoint ≤ 32) :
    parseAmount (printMoneyBrief amount decimalPoint) decimalPoint = some amount := by
  obtain ⟨denotes, start⟩ :
      Denotes (printMoneyBrief amount decimalPoint) decimalPoint amount.toNat ∧
      (printMoneyBrief amount decimalPoint).head? ≠ some '.' := by
    by_cases small : decimalPoint < 20
    · exact printed_small small
    · exact printed_large (Nat.le_of_not_lt small) atMost
  have trimmed := trim_of_denotes denotes
  rw [parseAmount_eq, trimmed]
  · exact denotes
  · rintro ⟨-, k, isZeros⟩
    rw [trimmed] at isZeros
    exact start (by rw [isZeros, List.head?_cons])

structure AmountTextExact (amount : UInt64) (decimalPoint : Nat) (s : List Char) : Prop where
  restores : decimalPoint ≤ 32 →
    parseAmount (printMoneyBrief amount decimalPoint) decimalPoint = some amount
  reads : ∀ read : UInt64, parseAmount s decimalPoint = some read ↔
    Denotes (trim s) decimalPoint read.toNat

/-- Without digits after the point, a fraction of zeros is erased as a whole, and nothing is left of
a text that has no digit before the point. -/
theorem amountTextExact_iff :
    AmountTextExact amount decimalPoint s ↔ ¬OnlyZerosBehindPoint (trim s) decimalPoint := by
  constructor
  · intro exact unusual
    obtain ⟨never, denotes⟩ := parseAmount_of_onlyZeros unusual
    cases never.symm.trans ((exact.reads 0).mpr denotes)
  · intro usual
    exact ⟨parseAmount_printMoneyBrief, fun read => parseAmount_eq usual⟩

/-- The text `.0` with no digits after the point. -/
theorem point_zero : ¬∀ (amount : UInt64) (decimalPoint : Nat) (s : List Char),
    AmountTextExact amount decimalPoint s := by
  intro always
  have denotes : Denotes ['.', '0'] 0 0 :=
    ⟨[], ['0'], by simp [Digits], by simp, .inl rfl, by norm_num [number, Nat.ofDigitChars_cons]⟩
  cases ((always 0 0 ['.', '0']).reads 0).mpr denotes

example : printMoneyBrief 18446744073709551615 12 = "18446744.073709551615".toList := by decide

end Zano.AmountText
