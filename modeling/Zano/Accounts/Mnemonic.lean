import Mathlib
import Zano.Serialization.BinaryArchive

/-! # Bytes as words

Four bytes are three words of a dictionary, each of which stands for its distance from the one
before. The text of several words is cut at the spaces again.
-/

namespace Zano.Accounts

open Serialization (writeUint)

/-! ## Texts -/

/-- The space characters of the C locale. -/
def isSpace (c : UInt8) : Bool := c = 32 || (9 ≤ c && c ≤ 13)

def trim (text : Bytes) : Bytes := (text.dropWhile isSpace).rdropWhile isSpace

/-- `boost::split` at the spaces with `token_compress_on`. -/
def splitSpaces : Bytes → List Bytes
  | [] => [[]]
  | c :: rest =>
      if isSpace c then
        if rest.head?.any isSpace then splitSpaces rest else [] :: splitSpaces rest
      else
        match splitSpaces rest with
        | [] => [[c]]
        | token :: tokens => (c :: token) :: tokens

def joinWords (words : List Bytes) : Bytes := [32].intercalate words

/-- A token that is neither empty nor has a space in it. -/
def IsWord (word : Bytes) : Prop := word ≠ [] ∧ ∀ c ∈ word, isSpace c = false

theorem splitSpaces_of_word {word : Bytes} (isWord : IsWord word) : splitSpaces word = [word] := by
  obtain ⟨notEmpty, plain⟩ := isWord
  induction word with
  | nil => exact absurd rfl notEmpty
  | cons c rest inductionHypothesis =>
      obtain ⟨here, later⟩ := List.forall_mem_cons.mp plain
      cases rest with
      | nil => simp [splitSpaces, here]
      | cons next rest =>
          have others := inductionHypothesis (List.cons_ne_nil _ _) later
          rw [splitSpaces, others, here]
          rfl

theorem splitSpaces_append {word text : Bytes} (isWord : IsWord word)
    (noSpace : text.head?.any isSpace = false) :
    splitSpaces (word ++ 32 :: text) = word :: splitSpaces text := by
  obtain ⟨notEmpty, plain⟩ := isWord
  induction word with
  | nil => exact absurd rfl notEmpty
  | cons c rest inductionHypothesis =>
      obtain ⟨here, later⟩ := List.forall_mem_cons.mp plain
      have separator : isSpace 32 = true := by rfl
      cases rest with
      | nil => simp [splitSpaces, here, separator, noSpace]
      | cons next rest =>
          have others := inductionHypothesis (List.cons_ne_nil _ _) later
          rw [List.cons_append, splitSpaces, others, here]
          rfl

theorem head_joinWords {word : Bytes} (isWord : IsWord word) (words : List Bytes) :
    (joinWords (word :: words)).head?.any isSpace = false := by
  obtain ⟨notEmpty, plain⟩ := isWord
  cases word with
  | nil => exact absurd rfl notEmpty
  | cons c rest =>
      have first := plain c List.mem_cons_self
      cases words <;> simp [joinWords, List.intercalate, first]

theorem splitSpaces_joinWords {words : List Bytes} (areWords : ∀ word ∈ words, IsWord word)
    (some : words ≠ []) :
    splitSpaces (joinWords words) = words := by
  induction words with
  | nil => exact absurd rfl some
  | cons word words inductionHypothesis =>
      obtain ⟨here, later⟩ := List.forall_mem_cons.mp areWords
      cases words with
      | nil => simpa [joinWords, List.intercalate] using splitSpaces_of_word here
      | cons next words =>
          have others := inductionHypothesis later (List.cons_ne_nil _ _)
          have joined :
              joinWords (word :: next :: words) = word ++ 32 :: joinWords (next :: words) := by
            simp [joinWords, List.intercalate_cons_cons]
          rw [joined,
            splitSpaces_append here (head_joinWords (later next List.mem_cons_self) words), others]

theorem joinWords_cons_cons (word next : Bytes) (words : List Bytes) :
    joinWords (word :: next :: words) = word ++ 32 :: joinWords (next :: words) := by
  simp [joinWords, List.intercalate_cons_cons]

theorem last_joinWords {words : List Bytes} (areWords : ∀ word ∈ words, IsWord word) :
    (joinWords words).getLast?.any isSpace = false := by
  induction words with
  | nil => rfl
  | cons word words inductionHypothesis =>
      obtain ⟨here, later⟩ := List.forall_mem_cons.mp areWords
      cases words with
      | nil =>
          rw [show joinWords [word] = word by simp [joinWords, List.intercalate]]
          cases last : word.getLast? with
          | none => rfl
          | some c => exact here.2 c (List.mem_of_getLast? last)
      | cons next words =>
          have others := inductionHypothesis later
          have notEmpty : joinWords (next :: words) ≠ [] := by
            have first := (later next List.mem_cons_self).1
            cases words with
            | nil => simpa [joinWords, List.intercalate] using first
            | cons third words => simp [joinWords_cons_cons]
          rw [joinWords_cons_cons]
          simpa [List.getLast?_append, List.getLast?_cons,
            List.getLast?_eq_some_getLast notEmpty] using others

theorem trim_eq_self {text : Bytes} (first : text.head?.any isSpace = false)
    (last : text.getLast?.any isSpace = false) : trim text = text := by
  have dropped : text.dropWhile isSpace = text := by
    cases text with
    | nil => rfl
    | cons c rest =>
        have isFirst : isSpace c = false := first
        simp [isFirst]
  rw [trim, dropped, List.rdropWhile_eq_self_iff]
  intro notEmpty
  simpa [List.getLast?_eq_some_getLast notEmpty] using last

/-- There are no spaces around words. -/
theorem trim_joinWords {words : List Bytes} (areWords : ∀ word ∈ words, IsWord word) :
    trim (joinWords words) = joinWords words := by
  cases words with
  | nil => rfl
  | cons word words =>
      exact trim_eq_self (head_joinWords (areWords word List.mem_cons_self) words)
        (last_joinWords areWords)

/-! ## Three words and four bytes -/

def numwords : ℕ := 1626

/-- `n`, in the arithmetic of the words. -/
def numwords32 : UInt32 := 1626

/-- Each of the last two words counts from the one before. -/
def wordsOfVal (val : UInt32) : UInt32 × UInt32 × UInt32 :=
  let w1 := val % numwords32
  let w2 := (val / numwords32 + w1) % numwords32
  let w3 := (val / numwords32 / numwords32 + w2) % numwords32
  (w1, w2, w3)

def valOfWords (w1 w2 w3 : UInt32) : UInt32 :=
  w1 + numwords32 * ((numwords32 - w1 + w2) % numwords32) +
    numwords32 * numwords32 * ((numwords32 - w2 + w3) % numwords32)

theorem toNat_mod_numwords (x : UInt32) : (x % numwords32).toNat < numwords := by
  rw [UInt32.toNat_mod]
  exact Nat.mod_lt _ (by decide)

theorem wordsOfVal_lt (val : UInt32) :
    (wordsOfVal val).1.toNat < numwords ∧ (wordsOfVal val).2.1.toNat < numwords ∧
    (wordsOfVal val).2.2.toNat < numwords :=
  ⟨toNat_mod_numwords _, toNat_mod_numwords _, toNat_mod_numwords _⟩

/-- The distance from a word to the one that stands for a digit. -/
theorem distance_mod {digit w : UInt32} (isDigit : digit.toNat < 2 ^ 31)
    (isWord : w.toNat < numwords) :
    ((numwords32 - w + (digit + w) % numwords32) % numwords32).toNat = digit.toNat % numwords := by
  have base : numwords32.toNat = 1626 := rfl
  have ordered : w ≤ numwords32 := by
    rw [UInt32.le_iff_toNat_le, base]
    exact isWord.le
  rw [numwords] at isWord ⊢
  rw [UInt32.toNat_mod, UInt32.toNat_add, UInt32.toNat_sub_of_le _ _ ordered, UInt32.toNat_mod,
    UInt32.toNat_add, base]
  omega

theorem valOfWords_wordsOfVal (val : UInt32) :
    valOfWords (wordsOfVal val).1 (wordsOfVal val).2.1 (wordsOfVal val).2.2 = val := by
  have base : numwords32.toNat = 1626 := rfl
  have bound := val.toNat_lt
  have second : (val / numwords32).toNat = val.toNat / 1626 := by rw [UInt32.toNat_div, base]
  have third : (val / numwords32 / numwords32).toNat = val.toNat / 1626 / 1626 := by
    rw [UInt32.toNat_div, second, base]
  have secondDigit :=
    @distance_mod (val / numwords32) (val % numwords32) (by omega) (toNat_mod_numwords _)
  have thirdDigit := @distance_mod (val / numwords32 / numwords32)
    ((val / numwords32 + val % numwords32) % numwords32)
    (by omega) (toNat_mod_numwords _)
  have square : (numwords32 * numwords32).toNat = 2643876 := rfl
  rw [second, numwords] at secondDigit
  rw [third, numwords] at thirdDigit
  have top : val.toNat / 1626 / 1626 < 1626 := by omega
  have digits : val.toNat = val.toNat % 1626 + 1626 * (val.toNat / 1626 % 1626) + 2643876 *
    (val.toNat / 1626 / 1626) := by
    omega
  have fits : val.toNat % 1626 + 1626 * (val.toNat / 1626 % 1626) < 2 ^ 32 := by omega
  apply UInt32.toNat_inj.mp
  simp only [valOfWords, wordsOfVal, UInt32.toNat_add, UInt32.toNat_mul, secondDigit, thirdDigit,
    square, base]
  rw [UInt32.toNat_mod, base, Nat.mod_eq_of_lt top,
    Nat.mod_eq_of_lt (by omega : 1626 * (val.toNat / 1626 % 1626) < 2 ^ 32),
    Nat.mod_eq_of_lt fits,
      Nat.mod_eq_of_lt (by omega : 2643876 * (val.toNat / 1626 / 1626) < 2 ^ 32), ← digits]
  exact Nat.mod_eq_of_lt bound

/-! ## The dictionary -/

/-- `wordsArray` and `wordsMap`, which list the same words in the same order. -/
structure Dictionary where
  wordsArray : List Bytes
  length_eq : wordsArray.length = numwords
  nodup : wordsArray.Nodup
  areWords : ∀ word ∈ wordsArray, IsWord word

namespace Dictionary

variable (dictionary : Dictionary)

def wordByNum (n : UInt32) : Bytes :=
  if numwords ≤ n.toNat then [] else dictionary.wordsArray.getD n.toNat []

/-- Nothing is the exception. -/
def numByWord (w : Bytes) : Option UInt32 :=
  if w ∈ dictionary.wordsArray then some (UInt32.ofNat (dictionary.wordsArray.idxOf w)) else none

def validWord (w : Bytes) : Bool := w ∈ dictionary.wordsArray

theorem wordByNum_mem {n : UInt32} (inside : n.toNat < numwords) :
    dictionary.wordByNum n ∈ dictionary.wordsArray := by
  have isIndex : n.toNat < dictionary.wordsArray.length := by rwa [dictionary.length_eq]
  rw [wordByNum, if_neg (Nat.not_le.mpr inside), List.getD_eq_getElem _ _ isIndex]
  exact List.getElem_mem isIndex

theorem isWord_wordByNum {n : UInt32} (inside : n.toNat < numwords) :
    IsWord (dictionary.wordByNum n) :=
  dictionary.areWords _ (dictionary.wordByNum_mem inside)

@[simp]
theorem numByWord_wordByNum {n : UInt32} (inside : n.toNat < numwords) :
    dictionary.numByWord (dictionary.wordByNum n) = some n := by
  have isIndex : n.toNat < dictionary.wordsArray.length := by rwa [dictionary.length_eq]
  rw [numByWord, if_pos (dictionary.wordByNum_mem inside), wordByNum,
    if_neg (Nat.not_le.mpr inside), List.getD_eq_getElem _ _ isIndex,
    dictionary.nodup.idxOf_getElem, UInt32.ofNat_toNat]

/-! ## Texts and bytes -/

def valOfBytes (b0 b1 b2 b3 : UInt8) : UInt32 :=
  UInt32.ofNat (b0.toNat + 256 * (b1.toNat + 256 * (b2.toNat + 256 * b3.toNat)))

def binaryWords : Bytes → Option (List Bytes)
  | [] => some []
  | b0 :: b1 :: b2 :: b3 :: rest =>
      let (w1, w2, w3) := wordsOfVal (valOfBytes b0 b1 b2 b3)
      (binaryWords rest).map fun words =>
        dictionary.wordByNum w1 :: dictionary.wordByNum w2 :: dictionary.wordByNum w3 :: words
  | _ => none

def binary2text (binary : Bytes) : Option Bytes := (dictionary.binaryWords binary).map joinWords

def tokensToBinary : List Bytes → Option Bytes
  | [] => some []
  | t1 :: t2 :: t3 :: rest => do
      let w1 ← dictionary.numByWord t1
      let w2 ← dictionary.numByWord t2
      let w3 ← dictionary.numByWord t3
      let later ← tokensToBinary rest
      some (writeUint 4 (valOfWords w1 w2 w3).toNat ++ later)
  | _ => none

def text2binaryThrow (text : Bytes) : Option Bytes :=
  dictionary.tokensToBinary ((trim text).splitOn 32)

/-- A text that is not one of words gives no bytes. -/
def text2binary (text : Bytes) : Bytes := (dictionary.text2binaryThrow text).getD []

theorem writeUint_valOfBytes (b0 b1 b2 b3 : UInt8) :
    writeUint 4 (valOfBytes b0 b1 b2 b3).toNat = [b0, b1, b2, b3] := by
  have bound0 := b0.toNat_lt
  have bound1 := b1.toNat_lt
  have bound2 := b2.toNat_lt
  have bound3 := b3.toNat_lt
  have value : (valOfBytes b0 b1 b2 b3).toNat =
      b0.toNat + 256 * (b1.toNat + 256 * (b2.toNat + 256 * b3.toNat)) := by
    rw [valOfBytes, UInt32.toNat_ofNat']
    omega
  have digit {x : ℕ} {b : UInt8} (same : x % 256 = b.toNat) : UInt8.ofNat (x % 256) = b := by
    rw [same, UInt8.ofNat_toNat]
  rw [value]
  simp only [writeUint, List.cons.injEq, and_true]
  exact ⟨digit (by omega), digit (by omega), digit (by omega), digit (by omega)⟩

theorem binaryWords_spec {binary : Bytes} (whole : 4 ∣ binary.length) :
    ∃ words, dictionary.binaryWords binary = some words ∧ 4 * words.length = 3 * binary.length ∧
      (∀ word ∈ words, word ∈ dictionary.wordsArray) ∧
        dictionary.tokensToBinary words = some binary := by
  induction binary using binaryWords.induct with
  | case1 => exact ⟨[], rfl, rfl, by simp, rfl⟩
  | case2 b0 b1 b2 b3 rest w1 w2 w3 isWords inductionHypothesis =>
      obtain ⟨words, areWords, length, inside, back⟩ :=
        inductionHypothesis (by simpa [Nat.dvd_add_left] using whole)
      obtain ⟨first, second, third⟩ := wordsOfVal_lt (valOfBytes b0 b1 b2 b3)
      have value := valOfWords_wordsOfVal (valOfBytes b0 b1 b2 b3)
      rw [isWords] at first second third value
      refine ⟨dictionary.wordByNum w1 :: dictionary.wordByNum w2 ::
        dictionary.wordByNum w3 :: words, by simp [binaryWords, isWords, areWords], ?_, ?_, ?_⟩
      · simp only [List.length_cons]
        omega
      · simp only [List.forall_mem_cons]
        exact ⟨dictionary.wordByNum_mem first, dictionary.wordByNum_mem second,
          dictionary.wordByNum_mem third, inside⟩
      · simp [tokensToBinary, first, second, third, back, value, writeUint_valOfBytes]
  | case3 binary notEmpty notFour =>
      match binary with
      | [] => exact absurd rfl notEmpty
      | [_] | [_, _] | [_, _, _] =>
          have isMultiple := Nat.le_of_dvd (by simp) whole
          simp at isMultiple
      | b0 :: b1 :: b2 :: b3 :: rest => exact absurd rfl (notFour b0 b1 b2 b3 rest)

theorem text2binary_joinWords {words : List Bytes} {binary : Bytes} (some : words ≠ [])
    (inside : ∀ word ∈ words, word ∈ dictionary.wordsArray)
    (back : dictionary.tokensToBinary words = .some binary) :
    dictionary.text2binary (joinWords words) = binary := by
  have areWords : ∀ word ∈ words, IsWord word :=
    fun word isMember => dictionary.areWords word (inside word isMember)
  have noSpace : ∀ word ∈ words, (32 : UInt8) ∉ word := by
    intro word isMember isSeparator
    have plain := (areWords word isMember).2 32 isSeparator
    cases plain
  rw [text2binary, text2binaryThrow, trim_joinWords areWords, joinWords,
    List.splitOn_intercalate 32 noSpace some, back]
  rfl

end Dictionary

end Zano.Accounts
