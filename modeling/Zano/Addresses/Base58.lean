import Zano.Lib.Codec
import Zano.Lib.Positional

/-! # Base58

Bytes are written in blocks of eight, and of what is left at the end, each with as many letters as a
block of its size can need. A number of letters that no size of a block has is refused, and so is a
block that is too large for its size. So a text is the text of some bytes or is refused.
-/

namespace Zano.Addresses

open Positional

def alphabet : List UInt8 :=
  ['1', '2', '3', '4', '5', '6', '7', '8', '9', 'A', 'B', 'C', 'D', 'E', 'F', 'G', 'H', 'J', 'K',
    'L', 'M', 'N', 'P', 'Q', 'R', 'S', 'T', 'U', 'V', 'W', 'X', 'Y', 'Z', 'a', 'b', 'c', 'd', 'e',
    'f', 'g', 'h', 'i', 'j', 'k', 'm', 'n', 'o', 'p', 'q', 'r', 's', 't', 'u', 'v', 'w', 'x', 'y',
    'z'].map fun letter => letter.toNat.toUInt8

def alphabetSize : ℕ := 58
def encodedBlockSizes : List ℕ := [0, 2, 3, 5, 6, 7, 9, 10, 11]
def fullBlockSize : ℕ := 8
def fullEncodedBlockSize : ℕ := 11

def letter (digit : ℕ) : UInt8 := alphabet.getD digit 0

def reverseAlphabet (letter : UInt8) : Option ℕ := alphabet.idxOf? letter

def encodedBlockSize (size : ℕ) : ℕ := encodedBlockSizes.getD size 0

/-- `none` where the table has -1. -/
def decodedBlockSize (encodedBlockSize : ℕ) : Option ℕ := encodedBlockSizes.idxOf? encodedBlockSize

def uint8beTo64 (block : Bytes) : ℕ := value 256 (block.map UInt8.toNat)

def uint64To8be (num size : ℕ) : Bytes := (numerals 256 size num).map UInt8.ofNat

/-! ## Blocks -/

/-- The loop ends where nothing is left of the number; the letters in front are those of
zero from the start. -/
def encodeBlock (block : Bytes) : Bytes :=
  (numerals alphabetSize (encodedBlockSize block.length) (uint8beTo64 block)).map letter

/-- The loop of `decode_block`, from the last letter on. -/
def decodeLetters : ℕ → ℕ → Bytes → Option ℕ
  | resNum, _, [] => some resNum
  | resNum, order, letter :: letters =>
      match reverseAlphabet letter with
      | none => none
      | some digit =>
          let tmp := resNum + order * digit
          if 2 ^ 64 ≤ tmp then none else decodeLetters tmp (order * alphabetSize % 2 ^ 64) letters

def decodeBlock (block : Bytes) : Option Bytes :=
  match decodedBlockSize block.length with
  | none => none
  | some resSize =>
      if resSize = 0 then none
      else
        match decodeLetters 0 1 block.reverse with
        | none => none
        | some resNum =>
            if resSize < fullBlockSize ∧ 2 ^ (8 * resSize) ≤ resNum then none
            else some (uint64To8be resNum resSize)

/-! ## Texts -/

def encodeBlocks : ℕ → Bytes → Bytes
  | 0, rest => if rest.isEmpty then [] else encodeBlock rest
  | fullBlockCount + 1, data =>
      encodeBlock (data.take fullBlockSize) ++ encodeBlocks fullBlockCount (data.drop fullBlockSize)

def encode (data : Bytes) : Bytes := encodeBlocks (data.length / fullBlockSize) data

def decodeBlocks : ℕ → Bytes → Option Bytes
  | 0, rest => if rest.isEmpty then some [] else decodeBlock rest
  | fullBlockCount + 1, enc =>
      match decodeBlock (enc.take fullEncodedBlockSize) with
      | none => none
      | some block => (decodeBlocks fullBlockCount (enc.drop fullEncodedBlockSize)).map (block ++ ·)

def decode (enc : Bytes) : Option Bytes :=
  if enc.isEmpty then some []
  else
    match decodedBlockSize (enc.length % fullEncodedBlockSize) with
    | none => none
    | some _ => decodeBlocks (enc.length / fullEncodedBlockSize) enc

/-! ## Letters and sizes -/

theorem reverseAlphabet_letter {digit : ℕ} (below : digit < alphabetSize) :
    reverseAlphabet (letter digit) = some digit := by
  have all : ∀ digit < 58, reverseAlphabet (letter digit) = some digit := by decide
  exact all digit below

theorem letter_reverseAlphabet {symbol : UInt8} {digit : ℕ}
    (isLetter : reverseAlphabet symbol = some digit) :
    digit < alphabetSize ∧ letter digit = symbol := by
  obtain ⟨below, same, _⟩ := List.findIdx?_eq_some_iff_getElem.mp isLetter
  have same : alphabet[digit] = symbol := by simpa using same
  exact ⟨below, by rw [letter, List.getD_eq_getElem _ _ below, same]⟩

/-- A block of this size has enough letters, and its number of letters tells its size. -/
theorem block_sizes {size : ℕ} (positive : 0 < size) (short : size ≤ fullBlockSize) :
    256 ^ size ≤ alphabetSize ^ encodedBlockSize size ∧
      encodedBlockSize size ≤ fullEncodedBlockSize ∧
      0 < encodedBlockSize size ∧ decodedBlockSize (encodedBlockSize size) = some size := by
  have all : ∀ size < 9, 0 < size →
      256 ^ size ≤ alphabetSize ^ encodedBlockSize size ∧
        encodedBlockSize size ≤ fullEncodedBlockSize ∧
        0 < encodedBlockSize size ∧ decodedBlockSize (encodedBlockSize size) = some size := by
          decide
  exact all size (Nat.lt_succ_of_le short) positive

theorem decodedBlockSize_eq_some {letters size : ℕ}
    (isSize : decodedBlockSize letters = some size) :
    size ≤ fullBlockSize ∧ encodedBlockSize size = letters := by
  obtain ⟨below, same, _⟩ := List.findIdx?_eq_some_iff_getElem.mp isSize
  have same : encodedBlockSizes[size] = letters := by simpa using same
  exact ⟨Nat.le_of_lt_succ below, by rw [encodedBlockSize, List.getD_eq_getElem _ _ below, same]⟩

/-! ## A block is its letters -/

theorem toNat_lt_of_mem (block : Bytes) : ∀ digit ∈ block.map UInt8.toNat, digit < 256 := by
  intro digit inside
  obtain ⟨byte, _, rfl⟩ := List.mem_map.mp inside
  exact byte.toNat_lt

theorem uint8beTo64_lt (block : Bytes) : uint8beTo64 block < 256 ^ block.length := by
  have bound := value_lt (toNat_lt_of_mem block)
  rwa [List.length_map] at bound

theorem uint64To8be_uint8beTo64 (block : Bytes) :
    uint64To8be (uint8beTo64 block) block.length = block := by
  have digits := numerals_value (toNat_lt_of_mem block)
  rw [List.length_map] at digits
  rw [uint64To8be, uint8beTo64, digits, List.map_map]
  simp [Function.comp_def]

theorem uint8beTo64_uint64To8be {num size : ℕ} (fits : num < 256 ^ size) :
    uint8beTo64 (uint64To8be num size) = num := by
  have digits :
      ((numerals 256 size num).map UInt8.ofNat).map UInt8.toNat = numerals 256 size num := by
    rw [List.map_map]
    conv_rhs => rw [← List.map_id (numerals 256 size num)]
    apply List.map_congr_left
    intro digit inside
    have below := numerals_lt (by omega) size num digit inside
    simp only [Function.comp_apply, UInt8.toNat_ofNat', id_eq]
    omega
  rw [uint8beTo64, uint64To8be, digits, value_numerals fits]

theorem length_uint64To8be (num size : ℕ) : (uint64To8be num size).length = size := by
  rw [uint64To8be, List.length_map, length_numerals]

theorem length_encodeBlock (block : Bytes) :
    (encodeBlock block).length = encodedBlockSize block.length := by
  rw [encodeBlock, List.length_map, length_numerals]

/-- The order wraps around after the last letter of a full block only, when it is
not used any more. -/
theorem decodeLetters_map {k resNum : ℕ} {digits : List ℕ}
    (short : k + digits.length ≤ fullEncodedBlockSize)
    (below : ∀ digit ∈ digits, digit < alphabetSize) (fits : resNum < 2 ^ 64) :
    decodeLetters resNum (alphabetSize ^ k % 2 ^ 64) (digits.map letter) =
      if 2 ^ 64 ≤ resNum + alphabetSize ^ k * value alphabetSize digits.reverse then none
      else some (resNum + alphabetSize ^ k * value alphabetSize digits.reverse) := by
  induction digits generalizing k resNum with
  | nil => simpa [decodeLetters] using fits
  | cons digit digits inductionHypothesis =>
      obtain ⟨here, later⟩ := List.forall_mem_cons.mp below
      rw [List.length_cons] at short
      have small : alphabetSize ^ k < 2 ^ 64 := by
        have atMost : alphabetSize ^ k ≤ alphabetSize ^ 10 :=
          Nat.pow_le_pow_right (by decide) (by rw [fullEncodedBlockSize] at short; omega)
        exact lt_of_le_of_lt atMost (by decide)
      have total : resNum + alphabetSize ^ k * value alphabetSize (digit :: digits).reverse =
          resNum + alphabetSize ^ k * digit +
            alphabetSize ^ (k + 1) * value alphabetSize digits.reverse := by
        rw [List.reverse_cons, value_snoc, Nat.pow_succ]
        ring
      rw [List.map_cons, decodeLetters, reverseAlphabet_letter here, Nat.mod_eq_of_lt small, total]
      dsimp only
      by_cases overflows : 2 ^ 64 ≤ resNum + alphabetSize ^ k * digit
      · rw [if_pos overflows, if_pos (by omega)]
      · rw [if_neg overflows, ← Nat.pow_succ]
        exact inductionHypothesis (by omega) later (by omega)

/-- Letters that are read are those of digits. -/
theorem eq_map_of_decodeLetters {resNum order num : ℕ} {letters : Bytes}
    (isRead : decodeLetters resNum order letters = some num) :
    ∃ digits : List ℕ, (∀ digit ∈ digits, digit < alphabetSize) ∧ letters = digits.map letter := by
  induction letters generalizing resNum order with
  | nil => exact ⟨[], by simp, rfl⟩
  | cons symbol letters inductionHypothesis =>
      rw [decodeLetters] at isRead
      cases isLetter : reverseAlphabet symbol with
      | none => simp [isLetter] at isRead
      | some digit =>
          obtain ⟨below, same⟩ := letter_reverseAlphabet isLetter
          simp only [isLetter] at isRead
          split at isRead
          · contradiction
          · obtain ⟨digits, later, rfl⟩ := inductionHypothesis isRead
            exact ⟨digit :: digits,
              List.forall_mem_cons.mpr ⟨below, later⟩, by rw [List.map_cons, same]⟩

/-- What is read of the letters of digits. -/
theorem decodeLetters_reverse {digits : List ℕ} (short : digits.length ≤ fullEncodedBlockSize)
    (below : ∀ digit ∈ digits, digit < alphabetSize) :
    decodeLetters 0 1 (digits.map letter).reverse =
      if 2 ^ 64 ≤ value alphabetSize digits then none else some (value alphabetSize digits) := by
  have read := decodeLetters_map (k := 0) (show 0 + digits.reverse.length ≤ _ by simpa using short)
    (fun digit inside => below digit (List.mem_reverse.mp inside)) (show 0 < 2 ^ 64 by decide)
  simpa [List.map_reverse] using read

theorem decodeBlock_encodeBlock {block : Bytes} (positive : 0 < block.length)
    (short : block.length ≤ fullBlockSize) :
    decodeBlock (encodeBlock block) = some block := by
  obtain ⟨enough, atMost, _, isSize⟩ := block_sizes positive short
  have bound := uint8beTo64_lt block
  have whole : value alphabetSize
      (numerals alphabetSize (encodedBlockSize block.length) (uint8beTo64 block)) =
      uint8beTo64 block := value_numerals (lt_of_lt_of_le bound enough)
  have fits : uint8beTo64 block < 2 ^ (8 * block.length) := by
    rw [Nat.pow_mul]
    exact bound
  have fitsWord : 2 ^ (8 * block.length) ≤ 2 ^ 64 :=
    Nat.pow_le_pow_right (by omega) (by rw [fullBlockSize] at short; omega)
  have notLong :
      (numerals alphabetSize (encodedBlockSize block.length) (uint8beTo64 block)).length ≤
      fullEncodedBlockSize := by rwa [length_numerals]
  have read := decodeLetters_reverse notLong (numerals_lt (by decide) _ _)
  rw [whole, if_neg (by omega)] at read
  rw [decodeBlock, length_encodeBlock, isSize]
  dsimp only
  rw [if_neg (by omega), encodeBlock, read]
  dsimp only
  rw [if_neg (by omega), uint64To8be_uint8beTo64]

/-- A text of a block is the text of the block that is read from it. -/
theorem encodeBlock_of_decodeBlock {text block : Bytes} (isRead : decodeBlock text = some block) :
    encodeBlock block = text ∧ 0 < block.length ∧ block.length ≤ fullBlockSize := by
  rw [decodeBlock] at isRead
  cases isSize : decodedBlockSize text.length with
  | none => simp [isSize] at isRead
  | some size =>
      obtain ⟨short, letters⟩ := decodedBlockSize_eq_some isSize
      simp only [isSize] at isRead
      split at isRead
      · contradiction
      next notZero =>
      cases isNum : decodeLetters 0 1 text.reverse with
      | none => simp [isNum] at isRead
      | some num =>
          simp only [isNum] at isRead
          split at isRead
          · contradiction
          next fits =>
          have isBlock : block = uint64To8be num size := (Option.some.inj isRead).symm
          have length : block.length = size := by rw [isBlock, length_uint64To8be]
          refine ⟨?_, by omega, by omega⟩
          obtain ⟨reversed, below, isMap⟩ := eq_map_of_decodeLetters isNum
          have isText : text = reversed.reverse.map letter := by
            rw [List.map_reverse, ← isMap, List.reverse_reverse]
          have belowReverse : ∀ digit ∈ reversed.reverse, digit < alphabetSize :=
            fun digit inside => below digit (List.mem_reverse.mp inside)
          have count : reversed.reverse.length = encodedBlockSize size := by
            rw [letters, isText, List.length_map]
          have read := decodeLetters_reverse
            (by rw [count]; exact (block_sizes (by omega) short).2.1) belowReverse
          rw [← isText, isNum] at read
          split at read
          · contradiction
          next small =>
          have isValue : num = value alphabetSize reversed.reverse := Option.some.inj read
          have inBlock : num < 256 ^ size := by
            rw [show (256 : ℕ) = 2 ^ 8 from rfl, ← Nat.pow_mul]
            by_cases full : size = fullBlockSize
            · rw [full, isValue, fullBlockSize]
              omega
            · have : size < fullBlockSize := by omega
              omega
          rw [encodeBlock, length, isBlock, uint8beTo64_uint64To8be inBlock, isValue, ← count,
            numerals_value belowReverse, isText]

/-! ## Texts are those of bytes -/

theorem encode_eq (data : Bytes) (count : ℕ) (isCount : data.length / fullBlockSize = count) :
    encodeBlocks count data = encode data := by
  rw [encode, isCount]

theorem length_encodeBlocks {count : ℕ} {data : Bytes}
    (isCount : data.length / fullBlockSize = count) :
    (encodeBlocks count data).length =
      count * fullEncodedBlockSize + encodedBlockSize (data.length % fullBlockSize) := by
  induction count generalizing data with
  | zero =>
      have small : data.length < fullBlockSize := by rw [fullBlockSize] at isCount ⊢; omega
      rw [encodeBlocks, Nat.mod_eq_of_lt small, Nat.zero_mul, Nat.zero_add]
      cases data with
      | nil => rfl
      | cons byte data => exact length_encodeBlock _
  | succ count inductionHypothesis =>
      rw [fullBlockSize] at isCount
      have first : (data.take fullBlockSize).length = fullBlockSize := by
        rw [List.length_take, fullBlockSize]
        omega
      have dropped : (data.drop fullBlockSize).length = data.length - fullBlockSize :=
        List.length_drop
      have rest :=
        @inductionHypothesis (data.drop fullBlockSize) (by rw [dropped, fullBlockSize]; omega)
      have left : (data.length - fullBlockSize) % fullBlockSize = data.length % fullBlockSize := by
        rw [fullBlockSize]
        omega
      rw [encodeBlocks, List.length_append, length_encodeBlock, first, rest, dropped, left]
      simp only [fullBlockSize, fullEncodedBlockSize, encodedBlockSize, encodedBlockSizes,
        List.getD_eq_getElem?_getD]
      simp
      ring

theorem decodeBlocks_encodeBlocks {count : ℕ} {data : Bytes}
    (isCount : data.length / fullBlockSize = count) :
    decodeBlocks count (encodeBlocks count data) = some data := by
  induction count generalizing data with
  | zero =>
      have small : data.length < fullBlockSize := by rw [fullBlockSize] at isCount ⊢; omega
      cases data with
      | nil => rfl
      | cons byte data =>
          have notEmpty : (encodeBlock (byte :: data)).isEmpty = false := by
            rw [List.isEmpty_eq_false_iff, ← List.length_pos_iff, length_encodeBlock]
            exact (block_sizes (by simp) small.le).2.2.1
          simp only [encodeBlocks, decodeBlocks, List.isEmpty_cons, Bool.false_eq_true,
            if_false, notEmpty]
          exact decodeBlock_encodeBlock (by simp) small.le
  | succ count inductionHypothesis =>
      rw [fullBlockSize] at isCount
      have first : (data.take fullBlockSize).length = fullBlockSize := by
        rw [List.length_take, fullBlockSize]
        omega
      have letters : (encodeBlock (data.take fullBlockSize)).length = fullEncodedBlockSize := by
        rw [length_encodeBlock, first]
        rfl
      have isRest : (data.drop fullBlockSize).length / fullBlockSize = count := by
        rw [List.length_drop, fullBlockSize]
        omega
      rw [encodeBlocks, decodeBlocks, List.take_left' letters, List.drop_left' letters,
        decodeBlock_encodeBlock (by rw [first]; decide) first.le, inductionHypothesis isRest]
      exact congrArg some (List.take_append_drop _ _)

theorem encodeBlocks_of_decodeBlocks {count : ℕ} {enc data : Bytes}
    (isCount : enc.length / fullEncodedBlockSize = count)
    (isRead : decodeBlocks count enc = some data) :
    encode data = enc := by
  induction count generalizing enc data with
  | zero =>
      cases enc with
      | nil =>
          obtain rfl : [] = data := by simpa [decodeBlocks] using isRead
          rfl
      | cons symbol enc =>
          rw [decodeBlocks, if_neg (by simp)] at isRead
          obtain ⟨isText, positive, short⟩ := encodeBlock_of_decodeBlock isRead
          have letters := length_encodeBlock data
          rw [isText] at letters
          have notFull : data.length ≠ fullBlockSize := by
            intro full
            rw [full, show encodedBlockSize fullBlockSize =
              fullEncodedBlockSize from rfl] at letters
            rw [letters] at isCount
            exact absurd isCount (by decide)
          have isBlock : data.length / fullBlockSize = 0 := Nat.div_eq_of_lt (by omega)
          have notEmpty : data.isEmpty = false := by
            rw [List.isEmpty_eq_false_iff, ← List.length_pos_iff]; exact positive
          rw [encode, isBlock, encodeBlocks, notEmpty, if_neg (by simp), isText]
  | succ count inductionHypothesis =>
      rw [decodeBlocks] at isRead
      cases isBlock : decodeBlock (enc.take fullEncodedBlockSize) with
      | none => simp [isBlock] at isRead
      | some block =>
          simp only [isBlock] at isRead
          obtain ⟨rest, isRest, rfl⟩ := Option.map_eq_some_iff.mp isRead
          obtain ⟨isText, positive, short⟩ := encodeBlock_of_decodeBlock isBlock
          rw [fullEncodedBlockSize] at isCount
          have taken : (enc.take fullEncodedBlockSize).length = fullEncodedBlockSize := by
            rw [List.length_take, fullEncodedBlockSize]
            omega
          have full : block.length = fullBlockSize := by
            have letters := length_encodeBlock block
            rw [isText, taken] at letters
            have all : ∀ size < 9, fullEncodedBlockSize = encodedBlockSize size → size = 8 := by
              decide
            exact all block.length (Nat.lt_succ_of_le short) letters
          have later :=
            inductionHypothesis (by rw [List.length_drop, fullEncodedBlockSize]; omega) isRest
          have blocks :
              (block ++ rest).length / fullBlockSize = rest.length / fullBlockSize + 1 := by
            rw [List.length_append, full, fullBlockSize]
            omega
          rw [encode, blocks, encodeBlocks, List.take_left' full, List.drop_left' full, isText,
            encode_eq rest _ rfl, later, List.take_append_drop]

theorem decode_encode (data : Bytes) : decode (encode data) = some data := by
  have length : (encode data).length = _ := length_encodeBlocks rfl
  have rests : ∀ rest < 8, encodedBlockSize rest < fullEncodedBlockSize ∧
      decodedBlockSize (encodedBlockSize rest) = some rest ∧
        (encodedBlockSize rest = 0 → rest = 0) := by decide
  obtain ⟨small, isSize, isZero⟩ := rests (data.length % fullBlockSize) (Nat.mod_lt _ (by decide))
  have isCount : (encode data).length / fullEncodedBlockSize = data.length / fullBlockSize := by
    rw [length, Nat.mul_comm, Nat.mul_add_div (by decide), Nat.div_eq_of_lt small, Nat.add_zero]
  have isRest : (encode data).length % fullEncodedBlockSize =
      encodedBlockSize (data.length % fullBlockSize) := by
    rw [length, Nat.mul_comm, Nat.mul_add_mod, Nat.mod_eq_of_lt small]
  rw [decode]
  split
  · next isEmpty =>
      rw [List.isEmpty_iff_length_eq_zero] at isEmpty
      rw [isEmpty, Nat.zero_div] at isCount
      rw [isEmpty, Nat.zero_mod] at isRest
      have noRest := isZero isRest.symm
      have noData : data.length = 0 := by
        rw [fullBlockSize] at isCount noRest
        omega
      rw [List.length_eq_zero_iff.mp noData]
  · rw [isRest, isSize, isCount]
    exact decodeBlocks_encodeBlocks rfl

/-- Only the texts of bytes are accepted. -/
theorem encode_of_decode {enc data : Bytes}
    (isRead : decode enc = some data) : encode data = enc := by
  rw [decode] at isRead
  split at isRead
  · next isEmpty =>
      rw [List.isEmpty_iff] at isEmpty
      obtain rfl := Option.some.inj isRead
      rw [isEmpty]
      rfl
  · split at isRead
    · contradiction
    · exact encodeBlocks_of_decodeBlocks rfl isRead

end Zano.Addresses
