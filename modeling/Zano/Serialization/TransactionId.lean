import Zano.Serialization.Witness

/-! # What a transaction id covers

A transaction id is the hash of the bytes that the writer leaves for the prefix, whether or not it
came to the end. It comes to the end of every transaction that the parser accepts unless a gateway
input has a version that is not 0, which the parser takes from the second of the two fields and does
not check. Then the bytes stop at that input.
-/

namespace Zano.Serialization

open Codec

/-- `parse_and_validate_tx_from_blob`: nothing may be left. -/
def parseAndValidateTxFromBlob (txBlob : Bytes) : Option Transaction :=
  match transaction.read txBlob with
  | some (tx, []) => some tx
  | _ => none

/-- What `get_transaction_prefix_hash` gives to the hash function. The result of the
writer is dropped. -/
def prefixHashData (tx : TransactionPrefix) : Bytes := (transactionPrefix.write tx).1

def TransactionPrefix.gatewayInputs (tx : TransactionPrefix) : List TxinGateway :=
  tx.vin.filterMap fun
    | .inr (.inr (.inr (.inl input))) => some input
    | _ => none

/-- The record of the whole transaction is complete, and no other prefix that is accepted gives
these bytes to the hash function. -/
def IdCommits (tx : Transaction) : Prop :=
  (transaction.write tx).2 = true ∧
    ∀ txBlob other, parseAndValidateTxFromBlob txBlob = some other →
      prefixHashData other.toTransactionPrefix = prefixHashData tx.toTransactionPrefix →
      other.toTransactionPrefix = tx.toTransactionPrefix

/-! ## Where the writer stops -/

theorem txinGateway_ended (input : TxinGateway) :
    (txinGateway.write input).2 = decide (input.version ≤ 0) := by
  have rest : ((key.seq (key.seq (varint64.seq varint8))).write
      (input.gatewayAddr, input.assetId, input.amount, input.version)).2 = true := by
    simp only [seq_ended]
    rfl
  have whole := seq_ended (varint8.check fun version => decide (version ≤ 0))
    (key.seq (key.seq (varint64.seq varint8)))
    (input.version, input.gatewayAddr, input.assetId, input.amount, input.version)
  rw [rest, Bool.and_true] at whole
  exact whole

theorem txinV_ended {input : TxinV} (inDom : txinV.dom input) :
    (txinV.write input).2 = true ↔
      ∀ own, input = .inr (.inr (.inr (.inl own))) → own.version = 0 := by
  obtain gen | toKey | multisig | gateway | zcInput := input
  · have ended : (txinGen.write gen).2 = true := Whole.ended inDom
    exact iff_of_true ended fun _ other => by cases other
  · have ended : (txinToKey.write toKey).2 = true := Whole.ended inDom
    exact iff_of_true ended fun _ other => by cases other
  · have ended : (txinMultisig.write multisig).2 = true := Whole.ended inDom
    exact iff_of_true ended fun _ other => by cases other
  · have ended :
        (txinV.write (.inr (.inr (.inr (.inl gateway))))).2 = decide (gateway.version ≤ 0) :=
      txinGateway_ended gateway
    rw [ended, decide_eq_true_eq]
    constructor
    · intro isZero own same
      cases same
      exact UInt8.le_zero_iff.mp isZero
    · intro isZero
      exact UInt8.le_zero_iff.mpr (isZero gateway rfl)
  · have ended : (txinZcInput.write zcInput).2 = true := Whole.ended inDom
    exact iff_of_true ended fun _ other => by cases other

theorem vin_ended {vin : List TxinV} (inDom : (vector txinV).dom vin) :
    ((vector txinV).write vin).2 = true ↔
      ∀ own, .inr (.inr (.inr (.inl own))) ∈ vin → own.version = 0 := by
  rw [vector_ended, Whole.ended inDom.1, Bool.true_and, List.all_eq_true]
  constructor
  · intro each own inside
    exact (txinV_ended (inDom.2 _ inside)).mp (each _ inside) own rfl
  · intro versions input inside
    refine (txinV_ended (inDom.2 input inside)).mpr fun own same => ?_
    subst same
    exact versions own inside

theorem gatewayInputs_iff {tx : TransactionPrefix} :
    (∀ own ∈ tx.gatewayInputs, own.version = 0) ↔
      ∀ own, .inr (.inr (.inr (.inl own))) ∈ tx.vin → own.version = 0 := by
  have mem (own : TxinGateway) : own ∈ tx.gatewayInputs ↔
      .inr (.inr (.inr (.inl own))) ∈ tx.vin := by
    rw [TransactionPrefix.gatewayInputs, List.mem_filterMap]
    constructor
    · intro ⟨input, inside, isGateway⟩
      split at isGateway
      · cases isGateway
        exact inside
      · cases isGateway
    · intro inside
      exact ⟨_, inside, rfl⟩
  simp only [mem]

theorem transactionPrefixBody_ended {version : UInt64} {tx : TransactionPrefix}
    (inDom : (transactionPrefixBody version).dom tx) :
    ((transactionPrefixBody version).write tx).2 = true ↔
      ∀ own, .inr (.inr (.inr (.inl own))) ∈ tx.vin → own.version = 0 := by
  unfold transactionPrefixBody at inDom ⊢
  split at inDom
  · rename_i old
    obtain ⟨v1, isV1, ⟨_, isFields, ⟨inVin, inRest⟩, -⟩, -⟩ := inDom
    cases isFields
    have sameVin : v1.vin = tx.vin := by
      obtain ⟨vout, -, rfl⟩ := Option.map_eq_some_iff.mp isV1
      rfl
    have rest :
        (((vector txOutBare).seq (vector payloadItemsV)).write (v1.vout, v1.extra)).2 = true :=
      Whole.ended inRest
    simp only [if_pos old, convert, isV1]
    rw [object_ended, seq_ended, rest, Bool.and_true, vin_ended inVin, ← sameVin]
  · rename_i new
    obtain ⟨_, isFields, ⟨inVin, inRest⟩, -⟩ := inDom
    cases isFields
    rw [if_neg new, object_ended, seq_ended, Whole.ended inRest, Bool.and_true, vin_ended inVin]

theorem transactionPrefix_ended {tx : TransactionPrefix} (inDom : transactionPrefix.dom tx) :
    (transactionPrefix.write tx).2 = true ↔ ∀ own ∈ tx.gatewayInputs, own.version = 0 := by
  obtain ⟨_, isPair, ⟨inVersion, inBody⟩, -⟩ := inDom
  cases isPair
  have ended :=
    dep_ended (varint64.accepted fun version => decide (version ≤ 4)) transactionPrefixBody
    tx.version tx
  rw [Whole.ended inVersion, Bool.true_and] at ended
  rw [gatewayInputs_iff, ← transactionPrefixBody_ended inBody, ← ended]
  rfl

theorem transaction_ended {tx : Transaction} (inDom : transaction.dom tx) :
    (transaction.write tx).2 = (transactionPrefix.write tx.toTransactionPrefix).2 := by
  obtain ⟨_, isPair, ⟨-, inTail⟩, -⟩ := inDom
  cases isPair
  rw [transaction, object_ended, dep_ended, Whole.ended inTail, Bool.and_true]

/-! ## The id -/

theorem dom_of_parse {txBlob : Bytes} {tx : Transaction}
    (parsed : parseAndValidateTxFromBlob txBlob = some tx) :
    transaction.dom tx := by
  unfold parseAndValidateTxFromBlob at parsed
  split at parsed
  · rename_i isRead
    cases parsed
    exact transaction.read_dom isRead
  · cases parsed

theorem transactionPrefix_dom_of_parse {txBlob : Bytes} {tx : Transaction}
    (parsed : parseAndValidateTxFromBlob txBlob = some tx) :
    transactionPrefix.dom tx.toTransactionPrefix := by
  obtain ⟨_, isPair, ⟨inPrefix, -⟩, -⟩ := dom_of_parse parsed
  cases isPair
  exact inPrefix

/-- The id of an accepted transaction commits to it exactly when its gateway inputs
all have version 0. -/
theorem idCommits_iff (txBlob : Bytes) (tx : Transaction)
    (parsed : parseAndValidateTxFromBlob txBlob = some tx) :
    IdCommits tx ↔ ∀ own ∈ tx.gatewayInputs, own.version = 0 := by
  have inDom := transactionPrefix_dom_of_parse parsed
  have endedAlike := transaction_ended (dom_of_parse parsed)
  constructor
  · intro ⟨ended, _⟩
    exact (transactionPrefix_ended inDom).mp (endedAlike ▸ ended)
  · intro versions
    have ended := (transactionPrefix_ended inDom).mpr versions
    refine ⟨endedAlike.trans ended, fun otherBlob other otherParsed same => ?_⟩
    exact eq_of_write_eq inDom (transactionPrefix_dom_of_parse otherParsed) ended same

/-- A transaction with one gateway input, this second version and this hardfork id. -/
def gatewayBlob (version hardforkId : UInt8) : Bytes :=
  [4, 1, 65, 0] ++ List.replicate 64 0 ++ [0, version, 0, 0, hardforkId, 0, 0, 0]

def gatewayTransaction (version hardforkId : UInt8) : Transaction :=
  ⟨⟨4, hardforkId, [.inr (.inr (.inr (.inl ⟨version, nullPkey, nullPkey, 0⟩)))], [], []⟩,
    [], [], []⟩

theorem idCommits_gateway : IdCommits (gatewayTransaction 0 6) :=
  (idCommits_iff (gatewayBlob 0 6) _ rfl).mpr (by decide)

/-- Two transactions that differ after the gateway input have one id. -/
theorem hardforkId_not_committed :
    ¬ ∀ blob₁ blob₂ tx₁ tx₂, parseAndValidateTxFromBlob blob₁ = some tx₁ →
      parseAndValidateTxFromBlob blob₂ = some tx₂ →
      prefixHashData tx₁.toTransactionPrefix = prefixHashData tx₂.toTransactionPrefix →
      tx₁.toTransactionPrefix = tx₂.toTransactionPrefix := by
  intro commits
  have same :=
    commits (gatewayBlob 1 5) (gatewayBlob 1 6) (gatewayTransaction 1 5) (gatewayTransaction 1 6)
    rfl rfl rfl
  have hardforks : (5 : UInt8) = 6 := congrArg (·.hardforkId) same
  revert hardforks
  decide

end Zano.Serialization
