import Mathlib
import Zano.Accounts.Mnemonic
import Zano.Serialization.Payload

/-! # Seed phrases

The phrase of an account is its seed, encrypted if there is a password, a word for the week of its
creation and for whether there is a password, and a word for a checksum and the auditable flag. The
account is restored from the phrase, up to the time within the week.

A text that is not a phrase is turned down. But the time of the account is set before the rest of
the text is known to be one, and with a password a seed that could not be read is decrypted before
it is tested.
-/

namespace Zano.Accounts

open Serialization
  (Hash PublicKey SecretKey AccountPublicAddress Blob writeUint readUint or_shiftLeft)

/-! ## Accounts -/

/-- What is used of `crypto`. -/
structure Crypto where
  cnFastHash : Bytes → Hash
  chacha8 : Bytes → Hash → Blob 8 → Bytes
  keysFromDefault : Bytes → PublicKey × SecretKey
  dependentKey : SecretKey → SecretKey
  secretKeyToPublicKey : SecretKey → Option PublicKey

/-- The cipher is an involution, and `dependent_key` gives a reduced scalar, which
has a public key. -/
structure Crypto.Lawful (crypto : Crypto) : Prop where
  involution : ∀ data key iv, crypto.chacha8 (crypto.chacha8 data key iv) key iv = data
  length_chacha8 : ∀ data key iv, (crypto.chacha8 data key iv).length = data.length
  reduced : ∀ sec, (crypto.secretKeyToPublicKey (crypto.dependentKey sec)).isSome

structure AccountKeys where
  accountAddress : AccountPublicAddress
  spendSecretKey : SecretKey
  viewSecretKey : SecretKey

structure AccountBase where
  keys : AccountKeys
  creationTimestamp : UInt64
  keysSeedBinary : Bytes

def accountPublicAddressFlagAuditable : UInt8 := 1

def AccountBase.isAuditable (account : AccountBase) : Bool :=
  account.keys.accountAddress.flags &&& accountPublicAddressFlagAuditable ≠ 0

def brainwalletDefaultSeedSize : ℕ := 32

/-! ## The word of the week -/

def walletBrainDateOffset : UInt64 := 1543622400

def walletBrainDateQuantum : UInt64 := 604800

def walletBrainDateMaxWeeksCount : UInt64 := 800

def getWordFromTimestamp (dictionary : Dictionary) (timestamp : UInt64)
    (usePassword : Bool) : Option Bytes :=
  let dateOffset :=
    if walletBrainDateOffset < timestamp then timestamp - walletBrainDateOffset else 0
  let weeksCount := dateOffset / walletBrainDateQuantum
  if ¬weeksCount < walletBrainDateMaxWeeksCount then none
  else
    let weeksCount := if usePassword then weeksCount + walletBrainDateMaxWeeksCount else weeksCount
    if ¬weeksCount < 4294967295 then none else some (dictionary.wordByNum weeksCount.toUInt32)

def getTimestampFromWord (dictionary : Dictionary) (word : Bytes) : Option (UInt64 × Bool) :=
  (dictionary.numByWord word).map fun number =>
    let countOfWeeks := number.toUInt64
    let passwordUsed := walletBrainDateMaxWeeksCount ≤ countOfWeeks
    let countOfWeeks :=
      if passwordUsed then countOfWeeks - walletBrainDateMaxWeeksCount else countOfWeeks
    (countOfWeeks * walletBrainDateQuantum + walletBrainDateOffset, passwordUsed)

def roundTimestampToBrainDateQuantum (timestamp : UInt64) : UInt64 :=
  if timestamp ≤ walletBrainDateOffset then walletBrainDateOffset
  else
    (timestamp - walletBrainDateOffset) / walletBrainDateQuantum * walletBrainDateQuantum +
      walletBrainDateOffset

/-! ## Writing the phrase -/

def validatePassword (password : Bytes) : Bool :=
  password.all fun c => (65 ≤ c && c ≤ 90) || (97 ≤ c && c ≤ 122) || (48 ≤ c && c ≤ 57) ||
    "~!?@#$%^&*_+|\x7b\x7d[]()<>:;\"'-=/.,".toList.any fun symbol => symbol.toNat = c.toNat

variable (dictionary : Dictionary) (crypto : Crypto)

def cryptWithPass (data password : Bytes) : Bytes :=
  let passHash := crypto.cnFastHash password
  crypto.chacha8 data passHash ⟨passHash.bytes.take 8, by simp [passHash.length_eq]⟩

def checksumMax : UInt64 := 813

/-- The time takes the place of the first bytes of the hash of the seed and the password. -/
def seedChecksum (keysSeedBinary password : Bytes) (timestamp : UInt64) : UInt16 :=
  let h := crypto.cnFastHash (keysSeedBinary ++ password)
  let h := crypto.cnFastHash (writeUint 8 timestamp.toNat ++ h.bytes.drop 8)
  let h64 : UInt64 := UInt64.ofNat (((readUint 8 h.bytes).map Prod.fst).getD 0)
  let checksum := h64 % (checksumMax + 1)
  if checksum = checksumMax then 0 else checksum.toUInt16

/-- Nothing is an exception. -/
def AccountBase.getSeedPhrase (account : AccountBase) (password : Bytes) : Option Bytes :=
  if account.keysSeedBinary = [] then some []
  else if password ≠ [] ∧ ¬validatePassword password then none
  else do
    let processedSeedBinary :=
      if password = [] then account.keysSeedBinary
      else cryptWithPass crypto account.keysSeedBinary password
    let keysSeedText ← dictionary.binary2text processedSeedBinary
    let timestampWord ← getWordFromTimestamp dictionary account.creationTimestamp (password ≠ [])
    let (creationTimestampRounded,
        selfCheckIsPasswordUsed) ← getTimestampFromWord dictionary timestampWord
    if selfCheckIsPasswordUsed ≠ decide (password ≠ []) then none
    else
      let checksum := seedChecksum crypto account.keysSeedBinary password creationTimestampRounded
      let auditableFlag : UInt32 := if account.isAuditable then 1 else 0
      let auditableFlagAndChecksumWord :=
        dictionary.wordByNum (auditableFlag ||| checksum.toUInt32 <<< 1)
      some (keysSeedText ++ 32 :: timestampWord ++ 32 :: auditableFlagAndChecksumWord)

/-! ## Reading a phrase -/

def seedPhraseV1WordsCount : ℕ := 25

def seedPhraseV2WordsCount : ℕ := 26

/-- The words of the seed, that of the time and, if there is one, that of the checksum. -/
def cutWords (words : List Bytes) : Option (List Bytes × Bytes × Bytes) :=
  if words.length = seedPhraseV1WordsCount then some (words.take 24, words.getD 24 [], [])
  else if words.length = seedPhraseV2WordsCount then
    some (words.take 24, words.getD 24 [], words.getD 25 [])
  else none

def uint64Max : UInt64 := 18446744073709551615

/-- What is read before the account is touched. -/
structure PhraseParts where
  keysSeedText : Bytes
  auditableFlagAndChecksum : UInt64
  timestamp : UInt64
  hasPassword : Bool

def phraseParts (seedPhrase : Bytes) : Option PhraseParts := do
  let (seedWords, timestampWord,
      auditableFlagAndChecksumWord) ← cutWords (splitSpaces (trim seedPhrase))
  let auditableFlagAndChecksum ←
    if auditableFlagAndChecksumWord = [] then some uint64Max
    else (dictionary.numByWord auditableFlagAndChecksumWord).map UInt32.toUInt64
  let (timestamp, hasPassword) ← getTimestampFromWord dictionary timestampWord
  some ⟨joinWords seedWords, auditableFlagAndChecksum, timestamp, hasPassword⟩

/-- The keys up to a failure are set. -/
def restoreKeys (keys : AccountKeys) (keysSeedBinary : Bytes) : Bool × AccountKeys :=
  if keysSeedBinary.length ≠ brainwalletDefaultSeedSize then (false, keys)
  else
    let (spendPublicKey, spendSecretKey) := crypto.keysFromDefault keysSeedBinary
    let viewSecretKey := crypto.dependentKey spendSecretKey
    let address := { keys.accountAddress with spendPublicKey }
    match crypto.secretKeyToPublicKey viewSecretKey with
    | none => (false, ⟨address, spendSecretKey, viewSecretKey⟩)
    | some viewPublicKey => (true, ⟨{ address with viewPublicKey }, spendSecretKey, viewSecretKey⟩)

def PhraseParts.processedSeed (parts : PhraseParts) (seedPassword : Bytes) : Bytes :=
  if parts.hasPassword then
    cryptWithPass crypto (dictionary.text2binary parts.keysSeedText) seedPassword
  else dictionary.text2binary parts.keysSeedText

def PhraseParts.checksumMatches (parts : PhraseParts) (seedPassword : Bytes) : Bool :=
  parts.auditableFlagAndChecksum = uint64Max ||
    (parts.auditableFlagAndChecksum >>> 1).toUInt16 =
      seedChecksum crypto (parts.processedSeed dictionary crypto seedPassword) seedPassword
        parts.timestamp

def PhraseParts.auditableFlag (parts : PhraseParts) : Bool :=
  parts.auditableFlagAndChecksum ≠ uint64Max ∧ parts.auditableFlagAndChecksum &&& 1 ≠ 0

def setAuditable (auditable : Bool) (flags : UInt8) : UInt8 :=
  if auditable then flags ||| accountPublicAddressFlagAuditable
  else flags &&& ~~~accountPublicAddressFlagAuditable

/-- Nothing is an access to the first byte of a vector without bytes, whose address is
taken to decrypt it. -/
def AccountBase.restoreFromSeedPhrase (account : AccountBase) (seedPhrase seedPassword : Bytes) :
    Option (Bool × AccountBase) :=
  match phraseParts dictionary seedPhrase with
  | none => some (false, account)
  | some parts =>
      let account := { account with creationTimestamp := parts.timestamp }
      if parts.hasPassword = seedPassword.isEmpty then some (false, account)
      else if parts.hasPassword ∧ dictionary.text2binary parts.keysSeedText = [] then none
      else
        let processed := parts.processedSeed dictionary crypto seedPassword
        if processed = [] then some (false, account)
        else if parts.checksumMatches dictionary crypto seedPassword = false then
          some (false, account)
        else
          let (restored, keys) := restoreKeys crypto account.keys processed
          if restored = false then some (false, { account with keys })
          else
            let flags := setAuditable parts.auditableFlag keys.accountAddress.flags
            some (true, { account with
              keys := { keys with accountAddress := { keys.accountAddress with flags } }
              keysSeedBinary := processed })

/-- Nothing is the answer false. -/
def isSeedPasswordProtected (seedPhrase : Bytes) : Option Bool :=
  let words := splitSpaces (trim seedPhrase)
  if words.all dictionary.validWord then
    (cutWords words).bind fun (_, timestampWord, _) =>
      (getTimestampFromWord dictionary timestampWord).map Prod.snd
  else none

/-- `generate`, with the random bytes and the time. A key that has no public key is an exception. -/
def generate (auditable : Bool) (keysSeedBinary : Bytes) (time : UInt64) : Option AccountBase :=
  let (spendPublicKey, spendSecretKey) := crypto.keysFromDefault keysSeedBinary
  let viewSecretKey := crypto.dependentKey spendSecretKey
  (crypto.secretKeyToPublicKey viewSecretKey).map fun viewPublicKey =>
    ⟨⟨⟨spendPublicKey, viewPublicKey, if auditable then accountPublicAddressFlagAuditable else 0⟩,
      spendSecretKey, viewSecretKey⟩, time, keysSeedBinary⟩

/-! ## Times -/

/-- Whole weeks since the start, up to the time. -/
def weeksOf (timestamp : UInt64) : ℕ := (timestamp.toNat - 1543622400) / 604800

theorem toNat_dateOffset (timestamp : UInt64) :
    (if walletBrainDateOffset < timestamp then timestamp - walletBrainDateOffset else 0).toNat =
      timestamp.toNat - 1543622400 := by
  have offset : walletBrainDateOffset.toNat = 1543622400 := rfl
  split_ifs with later
  · rw [UInt64.toNat_sub_of_le _ _ (UInt64.le_of_lt later), offset]
  · rw [UInt64.lt_iff_toNat_lt, offset] at later
    rw [UInt64.toNat_zero]
    omega

theorem toNat_roundTimestamp {timestamp : UInt64} :
    (roundTimestampToBrainDateQuantum timestamp).toNat =
      weeksOf timestamp * 604800 + 1543622400 := by
  have offset : walletBrainDateOffset.toNat = 1543622400 := rfl
  have quantum : walletBrainDateQuantum.toNat = 604800 := rfl
  have bound := timestamp.toNat_lt
  rw [roundTimestampToBrainDateQuantum, weeksOf]
  split_ifs with early
  · rw [UInt64.le_iff_toNat_le, offset] at early
    rw [offset]
    omega
  · rw [UInt64.toNat_add, UInt64.toNat_mul, UInt64.toNat_div,
      UInt64.toNat_sub_of_le _ _ (UInt64.le_of_lt (UInt64.not_le.mp early)), offset, quantum]
    omega

/-- The start of the week with this number. -/
def startOfWeek (weeks : ℕ) : UInt64 := UInt64.ofNat (weeks * 604800 + 1543622400)

theorem roundTimestamp_eq (timestamp : UInt64) :
    roundTimestampToBrainDateQuantum timestamp = startOfWeek (weeksOf timestamp) := by
  apply UInt64.toNat_inj.mp
  have bound := timestamp.toNat_lt
  have weeks : weeksOf timestamp * 604800 ≤ timestamp.toNat - 1543622400 := by
    rw [weeksOf]
    omega
  rw [toNat_roundTimestamp, startOfWeek, UInt64.toNat_ofNat']
  omega

/-- The number of a week, with or without a password. -/
def weekNumber (weeks : ℕ) (usePassword : Bool) : UInt32 :=
  UInt32.ofNat (weeks + if usePassword then 800 else 0)

theorem toNat_weekNumber {weeks : ℕ} (few : weeks < 800) (usePassword : Bool) :
    (weekNumber weeks usePassword).toNat = weeks + if usePassword then 800 else 0 := by
  rw [weekNumber, UInt32.toNat_ofNat']
  cases usePassword <;> simp <;> omega

theorem weekNumber_lt {weeks : ℕ} (few : weeks < 800) (usePassword : Bool) :
    (weekNumber weeks usePassword).toNat < numwords := by
  rw [toNat_weekNumber few, numwords]
  cases usePassword <;> simp
  all_goals omega

theorem weeksOf_lt {timestamp : UInt64} (supported : timestamp.toNat < 2027462400) :
    weeksOf timestamp < 800 := by
  rw [weeksOf]
  omega

theorem getWordFromTimestamp_eq {timestamp : UInt64} (supported : timestamp.toNat < 2027462400)
    (usePassword : Bool) :
    getWordFromTimestamp dictionary timestamp usePassword =
      some (dictionary.wordByNum (weekNumber (weeksOf timestamp) usePassword)) := by
  have weeks :
      ((if walletBrainDateOffset < timestamp then timestamp - walletBrainDateOffset else 0) /
      walletBrainDateQuantum).toNat = weeksOf timestamp := by
    rw [UInt64.toNat_div, toNat_dateOffset]
    rfl
  have few := weeksOf_lt supported
  have limit : walletBrainDateMaxWeeksCount.toNat = 800 := rfl
  rw [getWordFromTimestamp]
  generalize (if walletBrainDateOffset < timestamp then timestamp - walletBrainDateOffset else 0) /
    walletBrainDateQuantum = weeksCount at weeks ⊢
  have inTime : weeksCount < walletBrainDateMaxWeeksCount := by
    rw [UInt64.lt_iff_toNat_lt]
    omega
  have total :
      (if usePassword = true then weeksCount + walletBrainDateMaxWeeksCount else weeksCount).toNat =
      weeksOf timestamp + if usePassword then 800 else 0 := by
    cases usePassword with
    | false => simpa using weeks
    | true =>
        have sum : (weeksCount + walletBrainDateMaxWeeksCount).toNat = weeksOf timestamp + 800 := by
          rw [UInt64.toNat_add, weeks, limit]
          omega
        simpa using sum
  have number : (if usePassword = true then weeksCount + walletBrainDateMaxWeeksCount
    else weeksCount).toUInt32 =
      weekNumber (weeksOf timestamp) usePassword := by
    apply UInt32.toNat_inj.mp
    rw [UInt64.toNat_toUInt32, total, weekNumber, UInt32.toNat_ofNat']
  have small : (if usePassword = true then weeksCount + walletBrainDateMaxWeeksCount
    else weeksCount) < 4294967295 := by
    have bound : (4294967295 : UInt64).toNat = 4294967295 := rfl
    rw [UInt64.lt_iff_toNat_lt, total, bound]
    cases usePassword <;> simp <;> omega
  simp only [inTime, not_true_eq_false, if_false, small, number]

theorem getTimestampFromWord_eq {weeks : ℕ} (few : weeks < 800) (usePassword : Bool) :
    getTimestampFromWord dictionary (dictionary.wordByNum (weekNumber weeks usePassword)) =
      some (startOfWeek weeks, usePassword) := by
  have limit : walletBrainDateMaxWeeksCount.toNat = 800 := rfl
  have value : (weekNumber weeks usePassword).toUInt64.toNat = weeks + if usePassword then 800
    else 0 := by
    rw [UInt32.toNat_toUInt64, toNat_weekNumber few]
  have flag : walletBrainDateMaxWeeksCount ≤ (weekNumber weeks usePassword).toUInt64 ↔
      usePassword = true := by
    rw [UInt64.le_iff_toNat_le, limit, value]
    cases usePassword with
    | false => simpa using few
    | true => simp
  have count : (if usePassword = true then
      (weekNumber weeks usePassword).toUInt64 - walletBrainDateMaxWeeksCount
      else (weekNumber weeks usePassword).toUInt64) = UInt64.ofNat weeks := by
    apply UInt64.toNat_inj.mp
    rw [UInt64.toNat_ofNat']
    split_ifs with isUsed
    · rw [UInt64.toNat_sub_of_le _ _ (flag.mpr isUsed), value, limit, if_pos isUsed]
      omega
    · rw [value, if_neg isUsed]
      omega
  have start :
      UInt64.ofNat weeks * walletBrainDateQuantum + walletBrainDateOffset = startOfWeek weeks := by
    rw [startOfWeek, UInt64.ofNat_add, UInt64.ofNat_mul]
    rfl
  simp only [getTimestampFromWord, dictionary.numByWord_wordByNum (weekNumber_lt few usePassword),
    Option.map_some, flag, count, start, Bool.decide_eq_true]

theorem roundTimestamp_le (timestamp : UInt64) :
    (roundTimestampToBrainDateQuantum timestamp).toNat ≤
      max timestamp.toNat walletBrainDateOffset.toNat := by
  have offset : walletBrainDateOffset.toNat = 1543622400 := rfl
  rw [toNat_roundTimestamp, weeksOf, offset]
  omega

/-! ## The word of the checksum -/

theorem seedChecksum_lt (keysSeedBinary password : Bytes) (timestamp : UInt64) :
    (seedChecksum crypto keysSeedBinary password timestamp).toNat < 813 := by
  rw [seedChecksum]
  generalize UInt64.ofNat (((readUint 8 (crypto.cnFastHash (writeUint 8 timestamp.toNat ++
    (crypto.cnFastHash (keysSeedBinary ++ password)).bytes.drop 8)).bytes).map Prod.fst).getD 0) =
      h64
  have base : (checksumMax + 1).toNat = 814 := rfl
  have top : checksumMax.toNat = 813 := rfl
  have remainder : (h64 % (checksumMax + 1)).toNat < 814 := by
    rw [UInt64.toNat_mod, base]
    omega
  split_ifs with isMax
  · decide
  · have notTop : (h64 % (checksumMax + 1)).toNat ≠ 813 :=
      fun same => isMax (UInt64.toNat_inj.mp (same.trans top.symm))
    rw [UInt64.toNat_toUInt16]
    omega

/-- The flag is the lowest bit, and the checksum the others. -/
def checksumNumber (auditable : Bool) (checksum : UInt16) : UInt32 :=
  (if auditable then (1 : UInt32) else 0) ||| checksum.toUInt32 <<< 1

theorem toNat_checksumNumber (auditable : Bool) {checksum : UInt16} (small : checksum.toNat < 813) :
    (checksumNumber auditable checksum).toNat =
      (if auditable then 1 else 0) + checksum.toNat * 2 := by
  have bit : (if auditable then 1 else 0 : UInt32).toNat = if auditable then 1 else 0 := by
    cases auditable <;> rfl
  have one : (if auditable then 1 else 0 : ℕ) < 2 ^ 1 := by cases auditable <;> simp
  have fits : checksum.toNat <<< 1 < 2 ^ 32 := by
    rw [Nat.shiftLeft_eq]
    omega
  rw [checksumNumber, UInt32.toNat_or, UInt32.toNat_shiftLeft, UInt16.toNat_toUInt32, bit]
  change (if auditable = true then 1 else 0) ||| checksum.toNat <<< 1 % 2 ^ 32 = _
  rw [Nat.mod_eq_of_lt fits, or_shiftLeft one, Nat.pow_one]

theorem checksumNumber_lt (auditable : Bool) {checksum : UInt16} (small : checksum.toNat < 813) :
    (checksumNumber auditable checksum).toNat < numwords := by
  rw [toNat_checksumNumber auditable small, numwords]
  cases auditable <;> simp
  all_goals omega

/-- What is read back of the word. -/
theorem checksumNumber_parts (auditable : Bool) {checksum : UInt16} (small : checksum.toNat < 813) :
    (checksumNumber auditable checksum).toUInt64 ≠ uint64Max ∧
      ((checksumNumber auditable checksum).toUInt64 >>> 1).toUInt16 = checksum ∧
      decide ((checksumNumber auditable checksum).toUInt64 &&& 1 ≠ 0) = auditable := by
  have value := toNat_checksumNumber auditable small
  have flag : (if auditable then 1 else 0 : ℕ) < 2 := by cases auditable <;> simp
  refine ⟨?_, ?_, ?_⟩
  · intro same
    have large := congrArg UInt64.toNat same
    rw [UInt32.toNat_toUInt64, value] at large
    have isMax : uint64Max.toNat = 18446744073709551615 := rfl
    omega
  · apply UInt16.toNat_inj.mp
    rw [UInt64.toNat_toUInt16, UInt64.toNat_shiftRight, UInt32.toNat_toUInt64, value]
    change ((if auditable = true then 1 else 0) + checksum.toNat * 2) >>> 1 % 2 ^ 16 =
      checksum.toNat
    rw [Nat.shiftRight_eq_div_pow]
    omega
  · have bit : ((checksumNumber auditable checksum).toUInt64 &&& 1).toNat = if auditable then 1
      else 0 := by
      rw [UInt64.toNat_and, UInt32.toNat_toUInt64, value]
      change _ &&& 1 = _
      rw [Nat.and_one_is_mod]
      omega
    cases auditable with
    | false =>
        have isZero : (checksumNumber false checksum).toUInt64 &&& 1 = 0 := UInt64.toNat_inj.mp bit
        simp [isZero]
    | true =>
        have isOne : (checksumNumber true checksum).toUInt64 &&& 1 = 1 := UInt64.toNat_inj.mp bit
        simp [isOne]

/-! ## The words of a phrase -/

theorem joinWords_append_two {words : List Bytes} (some : words ≠ []) (a b : Bytes) :
    joinWords (words ++ [a, b]) = joinWords words ++ 32 :: a ++ 32 :: b := by
  induction words with
  | nil => exact absurd rfl some
  | cons word words inductionHypothesis =>
      cases words with
      | nil => simp [joinWords, List.intercalate_cons_cons]
      | cons next words =>
          have others := inductionHypothesis (List.cons_ne_nil _ _)
          rw [List.cons_append, List.cons_append, joinWords_cons_cons,
            joinWords_cons_cons, ← List.cons_append, others]
          simp

section Phrase

variable {dictionary} {seedWords : List Bytes} {time checksum : UInt32}

theorem words_of_phrase (inside : ∀ word ∈ seedWords, word ∈ dictionary.wordsArray)
    (isTime : time.toNat < numwords) (isChecksum : checksum.toNat < numwords) :
    splitSpaces
      (trim (joinWords (seedWords ++ [dictionary.wordByNum time, dictionary.wordByNum checksum]))) =
      seedWords ++ [dictionary.wordByNum time, dictionary.wordByNum checksum] := by
  have areWords : ∀ word ∈ seedWords ++ [dictionary.wordByNum time, dictionary.wordByNum checksum],
      IsWord word := by
    intro word isMember
    simp only [List.mem_append, List.mem_cons, List.not_mem_nil, or_false] at isMember
    obtain isSeed | rfl | rfl := isMember
    · exact dictionary.areWords word (inside word isSeed)
    · exact dictionary.isWord_wordByNum isTime
    · exact dictionary.isWord_wordByNum isChecksum
  rw [trim_joinWords areWords, splitSpaces_joinWords areWords (by simp)]

theorem cutWords_of_phrase (length : seedWords.length = 24) (a b : Bytes) :
    cutWords (seedWords ++ [a, b]) = some (seedWords, a, b) := by
  have all : (seedWords ++ [a, b]).length = 26 := by simp [length]
  rw [cutWords, if_neg (by rw [all, seedPhraseV1WordsCount]; omega),
    if_pos (show _ = seedPhraseV2WordsCount from all)]
  simp [List.getD_eq_getElem?_getD, length]

theorem phraseParts_of_phrase (length : seedWords.length = 24)
    (inside : ∀ word ∈ seedWords, word ∈ dictionary.wordsArray) {weeks : ℕ} (few : weeks < 800)
    (usePassword : Bool) (isChecksum : checksum.toNat < numwords) :
    phraseParts dictionary (joinWords (seedWords ++
        [dictionary.wordByNum (weekNumber weeks usePassword), dictionary.wordByNum checksum])) =
      some ⟨joinWords seedWords, checksum.toUInt64, startOfWeek weeks, usePassword⟩ := by
  have notEmpty := (dictionary.isWord_wordByNum isChecksum).1
  rw [phraseParts, words_of_phrase inside (weekNumber_lt few usePassword) isChecksum,
    cutWords_of_phrase length]
  simp [notEmpty, isChecksum, getTimestampFromWord_eq dictionary few]

theorem isSeedPasswordProtected_of_phrase (length : seedWords.length = 24)
    (inside : ∀ word ∈ seedWords, word ∈ dictionary.wordsArray) {weeks : ℕ} (few : weeks < 800)
    (usePassword : Bool) (isChecksum : checksum.toNat < numwords) :
    isSeedPasswordProtected dictionary (joinWords (seedWords ++
        [dictionary.wordByNum (weekNumber weeks usePassword), dictionary.wordByNum checksum])) =
          some usePassword := by
  have isTime := weekNumber_lt few usePassword
  have valid : (seedWords ++
      [dictionary.wordByNum (weekNumber weeks usePassword), dictionary.wordByNum checksum]).all
      dictionary.validWord = true := by
    simpa [Dictionary.validWord, dictionary.wordByNum_mem isTime,
      dictionary.wordByNum_mem isChecksum] using inside
  rw [isSeedPasswordProtected, words_of_phrase inside isTime isChecksum]
  simp only [valid, if_true, cutWords_of_phrase length, Option.bind_some,
    getTimestampFromWord_eq dictionary few, Option.map_some]

end Phrase

variable {dictionary crypto}

/-- The phrase of an account. -/
theorem getSeedPhrase_eq (lawful : crypto.Lawful) {account : AccountBase} {password : Bytes}
    (isSeed : account.keysSeedBinary.length = brainwalletDefaultSeedSize)
    (supported : account.creationTimestamp.toNat < 2027462400)
    (valid : validatePassword password = true) :
    ∃ seedWords : List Bytes, seedWords.length = 24 ∧
      (∀ word ∈ seedWords, word ∈ dictionary.wordsArray) ∧
      dictionary.tokensToBinary seedWords = some (if password = [] then account.keysSeedBinary
        else cryptWithPass crypto account.keysSeedBinary password) ∧
      account.getSeedPhrase dictionary crypto password = some (joinWords (seedWords ++
        [dictionary.wordByNum (weekNumber (weeksOf account.creationTimestamp) (password ≠ [])),
          dictionary.wordByNum
            (checksumNumber account.isAuditable (seedChecksum crypto account.keysSeedBinary password
            (roundTimestampToBrainDateQuantum account.creationTimestamp)))])) := by
  have few := weeksOf_lt supported
  have notEmpty : account.keysSeedBinary ≠ [] := by
    intro isEmpty
    rw [isEmpty] at isSeed
    cases isSeed
  have processedLength : (if password = [] then account.keysSeedBinary
      else cryptWithPass crypto account.keysSeedBinary password).length = 32 := by
    split_ifs
    · exact isSeed
    · exact (lawful.length_chacha8 _ _ _).trans isSeed
  have whole : 4 ∣ (if password = [] then account.keysSeedBinary
      else cryptWithPass crypto account.keysSeedBinary password).length := by
    rw [processedLength]
    omega
  obtain ⟨seedWords, areWords, length, inside, back⟩ := dictionary.binaryWords_spec whole
  have count : seedWords.length = 24 := by omega
  refine ⟨seedWords, count, inside, back, ?_⟩
  have someWords : seedWords ≠ [] := by
    intro isEmpty
    rw [isEmpty] at count
    cases count
  rw [AccountBase.getSeedPhrase, if_neg notEmpty, if_neg (by simp [valid]),
    joinWords_append_two someWords, roundTimestamp_eq]
  have word := getWordFromTimestamp_eq dictionary supported (password ≠ [])
  have back := getTimestampFromWord_eq dictionary few (password ≠ [])
  simp only [Dictionary.binary2text, areWords, Option.map_some, word, back, Option.bind_eq_bind,
    Option.bind_some, ne_eq, not_true_eq_false, if_false, checksumNumber]

theorem restoreKeys_eq {auditable : Bool} {seed : Bytes} {time : UInt64} {account : AccountBase}
    (generated : generate crypto auditable seed time = some account)
    (isSeed : seed.length = brainwalletDefaultSeedSize) (keys : AccountKeys) :
    restoreKeys crypto keys seed = (true, { account.keys with
      accountAddress := { account.keys.accountAddress with
        flags := keys.accountAddress.flags } }) := by
  obtain ⟨viewPublicKey, isPublic, rfl⟩ := Option.map_eq_some_iff.mp generated
  simp [restoreKeys, isSeed, isPublic]

theorem setAuditable_isAuditable (auditable : Bool) (flags : UInt8) :
    decide (setAuditable auditable flags &&& accountPublicAddressFlagAuditable ≠ 0) =
      auditable := by
  have cleared : ~~~accountPublicAddressFlagAuditable &&& accountPublicAddressFlagAuditable = 0 :=
    rfl
  cases auditable with
  | false => simp [setAuditable, UInt8.and_assoc, cleared]
  | true =>
      have isSet :
          (flags ||| accountPublicAddressFlagAuditable) &&& accountPublicAddressFlagAuditable =
          accountPublicAddressFlagAuditable := by
        apply UInt8.toNat_inj.mp
        rw [UInt8.toNat_and, UInt8.toNat_or]
        apply Nat.eq_of_testBit_eq
        intro i
        rw [Nat.testBit_and, Nat.testBit_or]
        cases flags.toNat.testBit i <;> simp
      simp only [setAuditable, if_true, isSet]
      rfl

/-- What is asked of a text and a password once the account has the new time. -/
structure PhraseParts.Accepted (dictionary : Dictionary) (crypto : Crypto) (parts : PhraseParts)
    (seedPassword : Bytes) :
    Prop where
  password : parts.hasPassword = !seedPassword.isEmpty
  isSeed : (parts.processedSeed dictionary crypto seedPassword).length = brainwalletDefaultSeedSize
  checksum : parts.checksumMatches dictionary crypto seedPassword = true

theorem length_processedSeed (lawful : crypto.Lawful) (parts : PhraseParts) (seedPassword : Bytes) :
    (parts.processedSeed dictionary crypto seedPassword).length =
      (dictionary.text2binary parts.keysSeedText).length := by
  rw [PhraseParts.processedSeed]
  split_ifs
  · exact lawful.length_chacha8 _ _ _
  · rfl

theorem restore_of_accepted (lawful : crypto.Lawful) (reader : AccountBase)
    {seedPhrase seedPassword : Bytes} {parts : PhraseParts} {keys : AccountKeys}
    (isParts : phraseParts dictionary seedPhrase = some parts)
    (accepted : parts.Accepted dictionary crypto seedPassword) (restored : restoreKeys crypto
      reader.keys (parts.processedSeed dictionary crypto seedPassword) = (true, keys)) :
    reader.restoreFromSeedPhrase dictionary crypto seedPhrase seedPassword = some (true,
      ⟨{ keys with accountAddress := { keys.accountAddress with
          flags := setAuditable parts.auditableFlag keys.accountAddress.flags } },
        parts.timestamp, parts.processedSeed dictionary crypto seedPassword⟩) := by
  obtain ⟨password, isSeed, checksum⟩ := accepted
  have some : parts.processedSeed dictionary crypto seedPassword ≠ [] := by
    intro isEmpty
    rw [isEmpty] at isSeed
    cases isSeed
  have someText : dictionary.text2binary parts.keysSeedText ≠ [] := by
    intro isEmpty
    rw [length_processedSeed lawful, isEmpty] at isSeed
    cases isSeed
  have other : parts.hasPassword ≠ seedPassword.isEmpty := by simp [password]
  simp only [AccountBase.restoreFromSeedPhrase, isParts, if_neg other, someText, and_false,
    if_false, some, checksum, restored, Bool.true_eq_false]

/-- The account that a phrase gives back to any account that reads it. -/
structure RestoredFrom (account reader restored : AccountBase) : Prop where
  keys : restored.keys = { account.keys with
    accountAddress := { account.keys.accountAddress with
      flags := setAuditable account.isAuditable reader.keys.accountAddress.flags } }
  fresh : reader.keys.accountAddress.flags = 0 → restored.keys = account.keys
  isAuditable : restored.isAuditable = account.isAuditable
  keysSeedBinary : restored.keysSeedBinary = account.keysSeedBinary
  creationTimestamp :
    restored.creationTimestamp = roundTimestampToBrainDateQuantum account.creationTimestamp
  notLater : restored.creationTimestamp.toNat ≤
    max account.creationTimestamp.toNat walletBrainDateOffset.toNat

/-- The phrase can be made, restores the account and says whether there is a password. -/
def PhraseRestores (dictionary : Dictionary) (crypto : Crypto) (account : AccountBase)
    (password : Bytes) : Prop :=
  ∃ seedPhrase, account.getSeedPhrase dictionary crypto password = some seedPhrase ∧
    (∀ reader : AccountBase, ∃ restored,
      reader.restoreFromSeedPhrase dictionary crypto seedPhrase password = some (true, restored) ∧
        RestoredFrom account reader restored) ∧
    isSeedPasswordProtected dictionary seedPhrase = some (decide (password ≠ []))

theorem flags_of_generate {auditable : Bool} {seed : Bytes} {time : UInt64} {account : AccountBase}
    (generated : generate crypto auditable seed time = some account) :
    setAuditable account.isAuditable 0 = account.keys.accountAddress.flags := by
  obtain ⟨viewPublicKey, isPublic, rfl⟩ := Option.map_eq_some_iff.mp generated
  cases auditable <;>
    simp [AccountBase.isAuditable, setAuditable, accountPublicAddressFlagAuditable]

theorem cryptWithPass_involution (lawful : crypto.Lawful) (data password : Bytes) :
    cryptWithPass crypto (cryptWithPass crypto data password) password = data :=
  lawful.involution _ _ _

theorem phraseRestores (lawful : crypto.Lawful) {auditable : Bool} {seed : Bytes} {time : UInt64}
    {account : AccountBase} {password : Bytes}
    (generated : generate crypto auditable seed time = some account)
    (isSeed : seed.length = brainwalletDefaultSeedSize) (supported : time.toNat < 2027462400)
    (valid : validatePassword password = true) :
    PhraseRestores dictionary crypto account password := by
  obtain ⟨viewPublicKey, isPublic, isAccount⟩ := Option.map_eq_some_iff.mp generated
  have sameSeed : account.keysSeedBinary = seed := by rw [← isAccount]
  have sameTime : account.creationTimestamp = time := by rw [← isAccount]
  rw [← sameSeed] at isSeed
  rw [← sameTime] at supported
  have few := weeksOf_lt supported
  have small := seedChecksum_lt crypto account.keysSeedBinary password
    (roundTimestampToBrainDateQuantum account.creationTimestamp)
  have isChecksum := checksumNumber_lt account.isAuditable small
  obtain ⟨notMax, isSum, isFlag⟩ := checksumNumber_parts account.isAuditable small
  obtain ⟨seedWords, length, inside, back, phrase⟩ :=
    @getSeedPhrase_eq dictionary crypto lawful account password isSeed supported valid
  have someWords : seedWords ≠ [] := by
    intro isEmpty
    rw [isEmpty] at length
    cases length
  refine ⟨_, phrase, ?_, isSeedPasswordProtected_of_phrase length inside few _ isChecksum⟩
  intro reader
  have parts := phraseParts_of_phrase length inside few (decide (password ≠ [])) isChecksum
  have seedBinary := dictionary.text2binary_joinWords someWords inside back
  have processed : PhraseParts.processedSeed dictionary crypto ⟨joinWords seedWords,
      (checksumNumber account.isAuditable (seedChecksum crypto account.keysSeedBinary password
        (roundTimestampToBrainDateQuantum account.creationTimestamp))).toUInt64,
      startOfWeek (weeksOf account.creationTimestamp), decide (password ≠ [])⟩ password =
        account.keysSeedBinary := by
    rw [PhraseParts.processedSeed, seedBinary]
    by_cases isEmpty : password = []
    · simp [isEmpty]
    · simp [isEmpty, cryptWithPass_involution lawful]
  have accepted : PhraseParts.Accepted dictionary crypto ⟨joinWords seedWords,
      (checksumNumber account.isAuditable (seedChecksum crypto account.keysSeedBinary password
        (roundTimestampToBrainDateQuantum account.creationTimestamp))).toUInt64,
      startOfWeek (weeksOf account.creationTimestamp), decide (password ≠ [])⟩ password := by
    refine ⟨?_, ?_, ?_⟩
    · cases password <;> rfl
    · rw [processed]
      exact isSeed
    · rw [PhraseParts.checksumMatches, processed, isSum, roundTimestamp_eq]
      simp
  have keys :=
    @restoreKeys_eq crypto auditable seed time account generated (by rwa [← sameSeed]) reader.keys
  rw [← sameSeed, ← processed] at keys
  refine ⟨_, restore_of_accepted lawful reader parts accepted keys, ?_⟩
  have flag : PhraseParts.auditableFlag ⟨joinWords seedWords,
      (checksumNumber account.isAuditable (seedChecksum crypto account.keysSeedBinary password
        (roundTimestampToBrainDateQuantum account.creationTimestamp))).toUInt64,
      startOfWeek (weeksOf account.creationTimestamp), decide (password ≠ [])⟩ =
        account.isAuditable := by
    simpa [PhraseParts.auditableFlag, notMax] using isFlag
  have time := roundTimestamp_le account.creationTimestamp
  rw [roundTimestamp_eq] at time
  have flags := flags_of_generate generated
  exact {
    keys := by rw [flag]
    fresh := by
      intro fresh
      rw [flag, fresh, flags]
    isAuditable := by
      rw [flag]
      exact setAuditable_isAuditable account.isAuditable _
    keysSeedBinary := processed
    creationTimestamp := (roundTimestamp_eq _).symm
    notLater := time }

/-! ## Any text -/

/-- The answer is given within the buffers, and a refused text leaves the account as it is. -/
def AnsweredCleanly (dictionary : Dictionary) (crypto : Crypto) (account : AccountBase)
    (seedPhrase seedPassword : Bytes) :
    Prop :=
  ∃ answer restored, account.restoreFromSeedPhrase dictionary crypto seedPhrase seedPassword =
    some (answer, restored) ∧
    (answer = false → restored = account)

/-- The words are read, the time is new to the account or the seed is decrypted without being read,
and the text is not accepted. -/
def Spoils (dictionary : Dictionary) (crypto : Crypto) (account : AccountBase)
    (seedPhrase seedPassword : Bytes) : Prop :=
  ∃ parts, phraseParts dictionary seedPhrase = some parts ∧
    ¬parts.Accepted dictionary crypto seedPassword ∧
    (account.creationTimestamp ≠ parts.timestamp ∨
      (parts.hasPassword = true ∧ seedPassword ≠ [] ∧
        dictionary.text2binary parts.keysSeedText = []))

theorem restoreKeys_of_length (lawful : crypto.Lawful) (keys : AccountKeys) {seed : Bytes}
    (isSeed : seed.length = brainwalletDefaultSeedSize) : ∃ restored, restoreKeys crypto keys seed =
    (true, restored) := by
  obtain ⟨viewPublicKey, isPublic⟩ :=
    Option.isSome_iff_exists.mp (lawful.reduced (crypto.keysFromDefault seed).2)
  exact ⟨_, by simp [restoreKeys, isSeed, isPublic]; rfl⟩

/-- A seed that could not be read, with a password. -/
def PhraseParts.Unread (dictionary : Dictionary) (parts : PhraseParts)
    (seedPassword : Bytes) : Prop :=
  parts.hasPassword = true ∧ seedPassword ≠ [] ∧ dictionary.text2binary parts.keysSeedText = []

/-- A refused text has set the time. -/
theorem restore_of_refused (account : AccountBase) {seedPhrase seedPassword : Bytes}
    {parts : PhraseParts} (isParts : phraseParts dictionary seedPhrase = some parts)
    (refused : ¬parts.Accepted dictionary crypto seedPassword)
    (read : ¬parts.Unread dictionary seedPassword) :
    account.restoreFromSeedPhrase dictionary crypto seedPhrase seedPassword =
      some (false, { account with creationTimestamp := parts.timestamp }) := by
  have keys (password : ¬parts.hasPassword = seedPassword.isEmpty)
      (checksum : ¬parts.checksumMatches dictionary crypto seedPassword = false) :
      restoreKeys crypto account.keys (parts.processedSeed dictionary crypto seedPassword) =
        (false, account.keys) := by
    apply if_pos
    intro isSeed
    have flag : parts.hasPassword = !seedPassword.isEmpty := by
      cases isPassword : parts.hasPassword <;> simp_all
    exact refused ⟨flag, isSeed, by simpa using checksum⟩
  simp only [AccountBase.restoreFromSeedPhrase, isParts]
  split_ifs with password unread isEmpty checksum restored
  · rfl
  · have some : seedPassword ≠ [] := by
      intro none
      exact password (by simp [unread.1, none])
    exact absurd ⟨unread.1, some, unread.2⟩ read
  · rfl
  · rfl
  · rw [keys password checksum]
  · exact absurd (by rw [keys password checksum]) restored

theorem restore_of_unread (account : AccountBase) {seedPhrase seedPassword : Bytes}
    {parts : PhraseParts} (isParts : phraseParts dictionary seedPhrase = some parts)
    (unread : parts.Unread dictionary seedPassword) :
    account.restoreFromSeedPhrase dictionary crypto seedPhrase seedPassword = none := by
  obtain ⟨hasPassword, some, isEmpty⟩ := unread
  simp [AccountBase.restoreFromSeedPhrase, isParts, hasPassword, some, isEmpty]

theorem answeredCleanly_iff (lawful : crypto.Lawful) (account : AccountBase)
    (seedPhrase seedPassword : Bytes) :
    AnsweredCleanly dictionary crypto account seedPhrase seedPassword ↔
      ¬Spoils dictionary crypto account seedPhrase seedPassword := by
  cases isParts : phraseParts dictionary seedPhrase with
  | none =>
      have answer : AnsweredCleanly dictionary crypto account seedPhrase seedPassword :=
        ⟨false, account, by simp [AccountBase.restoreFromSeedPhrase, isParts], fun _ => rfl⟩
      apply iff_of_true answer
      intro ⟨parts, found, _⟩
      rw [isParts] at found
      cases found
  | some parts =>
      have spoils_iff : Spoils dictionary crypto account seedPhrase seedPassword ↔
          ¬parts.Accepted dictionary crypto seedPassword ∧
            (account.creationTimestamp ≠ parts.timestamp ∨
              parts.Unread dictionary seedPassword) := by
        simp [Spoils, isParts, PhraseParts.Unread]
      rw [spoils_iff]
      by_cases accepted : parts.Accepted dictionary crypto seedPassword
      · obtain ⟨keys, restored⟩ := restoreKeys_of_length lawful account.keys accepted.isSeed
        have answer : AnsweredCleanly dictionary crypto account seedPhrase seedPassword :=
          ⟨true, _, restore_of_accepted lawful account isParts accepted restored,
            fun isFalse => by cases isFalse⟩
        exact iff_of_true answer fun spoils => spoils.1 accepted
      · by_cases unread : parts.Unread dictionary seedPassword
        · have noAnswer : ¬AnsweredCleanly dictionary crypto account seedPhrase seedPassword := by
            intro ⟨answer, restored, isAnswer, _⟩
            rw [restore_of_unread account isParts unread] at isAnswer
            cases isAnswer
          exact iff_of_false noAnswer (not_not.mpr ⟨accepted, .inr unread⟩)
        · have refused := restore_of_refused account isParts accepted unread
          simp only [AnsweredCleanly, refused, accepted, unread, not_false_eq_true, true_and,
            or_false, not_not, ne_eq]
          constructor
          · intro ⟨answer, restored, isAnswer, same⟩
            cases isAnswer
            exact (congrArg AccountBase.creationTimestamp (same rfl)).symm
          · intro same
            exact ⟨false, _, rfl, fun _ => by rw [← same]⟩

/-- A phrase gives its account back. Any text is answered, and leaves the account alone when it is
refused, unless it brings a new time or a seed that cannot be read and is decrypted all the same. -/
theorem seedPhrases (lawful : crypto.Lawful) :
    (∀ auditable seed time account password, generate crypto auditable seed time = some account →
      seed.length = brainwalletDefaultSeedSize → time.toNat < 2027462400 →
        validatePassword password = true →
        PhraseRestores dictionary crypto account password) ∧
      ∀ account seedPhrase seedPassword,
        AnsweredCleanly dictionary crypto account seedPhrase seedPassword ↔
        ¬Spoils dictionary crypto account seedPhrase seedPassword :=
  ⟨fun _ _ _ _ _ => phraseRestores lawful, answeredCleanly_iff lawful⟩

/-! ## A few words -/

/-- Words of three letters but for `like` and `among`. -/
def exampleWord (i : ℕ) : Bytes :=
  if i = 0 then [108, 105, 107, 101]
  else if i = 800 then [97, 109, 111, 110, 103]
  else [UInt8.ofNat (97 + i / 676), UInt8.ofNat (97 + i / 26 % 26), UInt8.ofNat (97 + i % 26)]

theorem toNat_letter {x : ℕ} (small : x < 100) : (UInt8.ofNat (97 + x)).toNat = 97 + x := by
  rw [UInt8.toNat_ofNat']
  omega

theorem exampleWord_injective {i j : ℕ} (insideI : i < numwords) (insideJ : j < numwords)
    (same : exampleWord i = exampleWord j) : i = j := by
  rw [numwords] at insideI insideJ
  have lengths := congrArg List.length same
  simp only [exampleWord] at same lengths
  split_ifs at same lengths
  all_goals try (simp at lengths; done)
  · omega
  · omega
  · simp only [List.cons.injEq, and_true] at same
    obtain ⟨first, second, third⟩ := same
    replace first := congrArg UInt8.toNat first
    replace second := congrArg UInt8.toNat second
    replace third := congrArg UInt8.toNat third
    rw [toNat_letter (by omega), toNat_letter (by omega)] at first second third
    omega

theorem isSpace_of_large {c : UInt8} (large : 33 ≤ c.toNat) : isSpace c = false := by
  have notSpace : c ≠ 32 := by
    intro same
    rw [same] at large
    simp at large
  have above : ¬c ≤ 13 := by
    intro atMost
    have most : c.toNat ≤ 13 := UInt8.le_iff_toNat_le.mp atMost
    omega
  simp only [isSpace, notSpace, above, decide_false, Bool.and_false, Bool.or_false]

theorem isWord_exampleWord {i : ℕ} (inside : i < numwords) : IsWord (exampleWord i) := by
  rw [numwords] at inside
  have letter {x : ℕ} (small : x < 100) : isSpace (UInt8.ofNat (97 + x)) = false := by
    apply isSpace_of_large
    rw [toNat_letter small]
    omega
  rw [exampleWord]
  split_ifs
  · refine ⟨by simp, ?_⟩
    simp only [List.forall_mem_cons]
    exact ⟨rfl, rfl, rfl, rfl, by simp⟩
  · refine ⟨by simp, ?_⟩
    simp only [List.forall_mem_cons]
    exact ⟨rfl, rfl, rfl, rfl, rfl, by simp⟩
  · refine ⟨by simp, ?_⟩
    simp only [List.forall_mem_cons]
    exact ⟨letter (by omega), letter (by omega), letter (by omega), by simp⟩

def exampleDictionary : Dictionary where
  wordsArray := (List.range numwords).map exampleWord
  length_eq := by simp
  nodup := by
    apply List.Nodup.map_on _ List.nodup_range
    intro i insideI j insideJ same
    exact exampleWord_injective (List.mem_range.mp insideI) (List.mem_range.mp insideJ) same
  areWords := by
    intro word isMember
    obtain ⟨i, inside, rfl⟩ := List.mem_map.mp isMember
    exact isWord_exampleWord (List.mem_range.mp inside)

def exampleCrypto : Crypto where
  cnFastHash := fun _ => Blob.filled 32 0
  chacha8 := fun data _ _ => data.map (· ^^^ 90)
  keysFromDefault := fun _ => (Blob.filled 32 1, Blob.filled 32 2)
  dependentKey := fun _ => Blob.filled 32 3
  secretKeyToPublicKey := fun _ => some (Blob.filled 32 4)

theorem exampleCrypto_lawful : exampleCrypto.Lawful where
  involution := fun data _ _ => by
    have twice : (fun x : UInt8 => x ^^^ 90) ∘ (fun x => x ^^^ 90) = id := by
      funext x
      simp
    simp [exampleCrypto, twice]
  length_chacha8 := fun data _ _ => List.length_map _
  reduced := fun _ => rfl

def exampleAccount : AccountBase :=
  ⟨⟨⟨Blob.filled 32 1, Blob.filled 32 4, 0⟩, Blob.filled 32 2, Blob.filled 32 3⟩, 1543722400,
    List.replicate 32 0⟩

def like : Bytes := exampleWord 0

/-- Of the numbers from 1 to 32. -/
def seededAccount : AccountBase :=
  { exampleAccount with keysSeedBinary := (List.range' 1 32).map UInt8.ofNat }

/-- With the password `zano`. -/
theorem seedPhrases_example :
    PhraseRestores exampleDictionary exampleCrypto seededAccount [122, 97, 110, 111] ∧
    (AnsweredCleanly exampleDictionary exampleCrypto seededAccount like [122, 97, 110, 111] ↔
      ¬Spoils exampleDictionary exampleCrypto seededAccount like [122, 97, 110, 111]) :=
  ⟨(seedPhrases exampleCrypto_lawful).1 false ((List.range' 1 32).map UInt8.ofNat) 1543722400
    seededAccount
      [122, 97, 110, 111] rfl rfl (by decide) rfl,
    (seedPhrases exampleCrypto_lawful).2 seededAccount like [122, 97, 110, 111]⟩

theorem not_mem_example : [120] ∉ exampleDictionary.wordsArray := by
  have each (i : ℕ) : exampleWord i ≠ [120] := by
    intro same
    have length := congrArg List.length same
    simp only [exampleWord] at length
    split_ifs at length <;> simp at length
  simp only [exampleDictionary, List.mem_map, not_exists, not_and]
  exact fun i _ => each i

/-- The text without a checksum. -/
theorem phraseParts_example {time : UInt32} (isTime : time.toNat < numwords) {timestamp : UInt64}
    {usePassword : Bool}
    (isTimestamp : getTimestampFromWord exampleDictionary (exampleDictionary.wordByNum time) =
      some (timestamp, usePassword)) {word : Bytes} (isWord : IsWord word) :
    phraseParts exampleDictionary
      (joinWords (List.replicate 24 word ++ [exampleDictionary.wordByNum time])) =
      some ⟨joinWords (List.replicate 24 word), uint64Max, timestamp, usePassword⟩ := by
  have areWords :
      ∀ other ∈ List.replicate 24 word ++ [exampleDictionary.wordByNum time], IsWord other := by
    intro other isMember
    simp only [List.mem_append, List.mem_replicate, List.mem_singleton] at isMember
    obtain ⟨-, rfl⟩ | rfl := isMember
    · exact isWord
    · exact exampleDictionary.isWord_wordByNum isTime
  have cut : cutWords (List.replicate 24 word ++ [exampleDictionary.wordByNum time]) =
      some (List.replicate 24 word, exampleDictionary.wordByNum time, []) := by
    simp [cutWords, seedPhraseV1WordsCount, List.getD_eq_getElem?_getD]
  rw [phraseParts, trim_joinWords areWords, splitSpaces_joinWords areWords (by simp), cut]
  simp [isTimestamp]

/-- A phrase without a password that is read with one has set the time, and words that are
none are decrypted. -/
theorem refused_with_another_time :
    (∃ restored, exampleAccount.restoreFromSeedPhrase exampleDictionary exampleCrypto
        (joinWords (List.replicate 24 (exampleWord 0) ++ [exampleDictionary.wordByNum 0])) [112] =
          some (false, restored) ∧
      restored.creationTimestamp = 1543622400 ∧ exampleAccount.creationTimestamp = 1543722400) ∧
    exampleAccount.restoreFromSeedPhrase exampleDictionary exampleCrypto
        (joinWords (List.replicate 24 [120] ++ [exampleDictionary.wordByNum 800]))
        [112] = none := by
  have withoutPassword := @phraseParts_example 0 (by decide) _ _
    (getTimestampFromWord_eq exampleDictionary (by decide : 0 < 800) false) (exampleWord 0)
    (isWord_exampleWord (by decide))
  have withPassword := @phraseParts_example 800 (by decide) _ _
    (getTimestampFromWord_eq exampleDictionary (by decide : 0 < 800) true) [120]
    ⟨by simp, by simp [isSpace_of_large]⟩
  have unknown : exampleDictionary.numByWord [120] = none := by
    rw [Dictionary.numByWord, if_neg not_mem_example]
  have isEmpty : exampleDictionary.text2binary (joinWords (List.replicate 24 [120])) = [] := by
    have areWords : ∀ word ∈ List.replicate 24 ([120] : Bytes), IsWord word := by
      intro word isMember
      rw [(List.mem_replicate.mp isMember).2]
      exact ⟨by simp, by simp [isSpace_of_large]⟩
    have split :
        (trim (joinWords (List.replicate 24 [120]))).splitOn 32 = List.replicate 24 [120] := by
      rw [trim_joinWords areWords, joinWords, List.splitOn_intercalate]
      · intro word isMember isSeparator
        cases (areWords word isMember).2 32 isSeparator
      · simp
    rw [Dictionary.text2binary, Dictionary.text2binaryThrow, split]
    simp [List.replicate_succ, Dictionary.tokensToBinary, unknown]
  refine ⟨⟨_, restore_of_refused exampleAccount withoutPassword ?_ ?_, rfl, rfl⟩,
    restore_of_unread exampleAccount withPassword ⟨rfl, by simp, isEmpty⟩⟩
  · intro accepted
    cases accepted.password
  · intro unread
    cases unread.1

end Zano.Accounts
