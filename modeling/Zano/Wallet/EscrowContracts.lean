import Mathlib

/-! # Escrow contracts of a wallet

A wallet keeps a record of every escrow contract that it takes part in, by the id of the multisig
output that holds the pledges. Four handlers change the record, each for one kind of service
attachment: a proposal, the private details that come with an acceptance, a release and a cancel
proposal. Besides, a refresh takes expired cancel templates into account. Every transaction may be
handled twice, from the pool and from a block; in the pool it has height zero.

Whether a proposal, a contract or a cancel proposal is valid depends on keys and signatures and not
on the records. `Validators` leaves these answers open. What the handlers tell the user about a
transfer, and the coins that a proposal locks, are left out.
-/

namespace Zano.Wallet.EscrowContracts

variable {Key Id Rest : Type*}

/-- `contract_state`. -/
inductive ContractState where
  | proposalSent
  | contractAccepted
  | contractReleasedNormal
  | contractReleasedBurned
  | contractCancelProposalSent
  | contractReleasedCancelled
  deriving DecidableEq, Repr

def ContractState.Released : ContractState → Prop
  | .contractReleasedNormal | .contractReleasedBurned | .contractReleasedCancelled => True
  | _ => False

instance (state : ContractState) : Decidable state.Released := by
  cases state <;> unfold ContractState.Released <;> infer_instance

structure AccountPublicAddress (Key : Type*) where
  spendPublicKey : Key
  viewPublicKey : Key
  deriving DecidableEq, Repr

structure ContractPrivateDetails (Key : Type*) where
  title : String
  comment : String
  aAddr : AccountPublicAddress Key
  bAddr : AccountPublicAddress Key
  amountToPay : UInt64
  amountAPledge : UInt64
  amountBPledge : UInt64
  deriving DecidableEq, Repr

inductive TxinV (Id : Type*) where
  | multisig (multisigOutId : Id)
  | other
  deriving DecidableEq, Repr

/-- `rest` is what only the validators read. -/
structure Transaction (Id Rest : Type*) where
  vin : List (TxinV Id)
  expirationTime : UInt64
  rest : Rest
  deriving DecidableEq, Repr

structure ProposalBody (Key Id Rest : Type*) where
  txTemplate : Transaction Id Rest
  txOnetimeSecretKey : Key
  deriving DecidableEq, Repr

structure EscrowReleaseTemplatesBody (Id Rest : Type*) where
  txNormalTemplate : Transaction Id Rest
  txBurnTemplate : Transaction Id Rest
  deriving DecidableEq, Repr

/-- `escrow_contract_details_basic`; `cancelBody` is the cancel template. -/
structure EscrowContractDetails (Key Id Rest : Type*) where
  state : ContractState
  isA : Bool
  privateDetails : ContractPrivateDetails Key
  expirationTime : UInt64
  cancelExpirationTime : UInt64
  timestamp : Nat
  height : Nat
  paymentId : String
  proposal : ProposalBody Key Id Rest
  releaseBody : EscrowReleaseTemplatesBody Id Rest
  cancelBody : Transaction Id Rest
  deriving DecidableEq, Repr

structure WalletTransferInfo (Id Rest : Type*) where
  tx : Transaction Id Rest
  height : Nat
  timestamp : Nat
  txWidePaymentId : String
  deriving DecidableEq, Repr

inductive ReleaseInstruction where
  | normal
  | cancel
  | burn
  deriving DecidableEq, Repr

/-- A decrypted attachment. A body that cannot be unpacked is `none`. -/
inductive PayloadItem (Key Id Rest : Type*) where
  | proposal (body : Option (ProposalBody Key Id Rest))
  | privateDetails (body : Option (ContractPrivateDetails Key))
  | release (instruction : ReleaseInstruction)
  | cancelProposal (body : Option (Transaction Id Rest))
  | other
  deriving DecidableEq, Repr

/-- The answers that depend on keys and signatures, the account, and a record as it is inserted. -/
structure Validators (Key Id Rest : Type*) where
  account : AccountPublicAddress Key
  nullHash : Id
  valueInitialized : EscrowContractDetails Key Id Rest
  validateEscrowProposal : WalletTransferInfo Id Rest → ProposalBody Key Id Rest →
    Option (Id × ContractPrivateDetails Key × Option String)
  validateEscrowContract : WalletTransferInfo Id Rest → ContractPrivateDetails Key → Bool →
    List (PayloadItem Key Id Rest) → Option (Id × EscrowReleaseTemplatesBody Id Rest)
  validateEscrowCancelProposal : WalletTransferInfo Id Rest → Transaction Id Rest →
    List (PayloadItem Key Id Rest) → Id → ContractPrivateDetails Key → Transaction Id Rest → Bool

/-- `m_contracts`. -/
abbrev EscrowContractsContainer (Key Id Rest : Type*) :=
  Id → Option (EscrowContractDetails Key Id Rest)

/-! ## The handlers -/

def changeContractState (contract : EscrowContractDetails Key Id Rest) (newState : ContractState)
    (wti : WalletTransferInfo Id Rest) : EscrowContractDetails Key Id Rest :=
  { contract with state := newState, height := wti.height }

variable [DecidableEq Key] [DecidableEq Id]

def handleProposal (v : Validators Key Id Rest) (contracts : EscrowContractsContainer Key Id Rest)
    (wti : WalletTransferInfo Id Rest) (prop : ProposalBody Key Id Rest) :
    EscrowContractsContainer Key Id Rest :=
  match v.validateEscrowProposal wti prop with
  | none => contracts
  | some (msId, cpd, paymentId) =>
      let ed := (contracts msId).getD v.valueInitialized
      let ed := { ed with
        expirationTime := prop.txTemplate.expirationTime
        timestamp := wti.timestamp
        isA := cpd.aAddr.spendPublicKey = v.account.spendPublicKey }
      let ed := changeContractState ed .proposalSent wti
      Function.update contracts msId (some { ed with
        privateDetails := cpd
        paymentId := paymentId.getD ed.paymentId
        proposal := prop
        height := wti.height })

def ReleaseInstruction.newState : ReleaseInstruction → ContractState
  | .normal => .contractReleasedNormal
  | .cancel => .contractReleasedCancelled
  | .burn => .contractReleasedBurned

/-- `get_multisig_in_index` and the id of the input there. -/
def Transaction.multisigIn (tx : Transaction Id Rest) : Option Id :=
  tx.vin.findSome? fun
    | .multisig multisigOutId => some multisigOutId
    | .other => none

def handleReleaseContract (v : Validators Key Id Rest)
    (contracts : EscrowContractsContainer Key Id Rest) (wti : WalletTransferInfo Id Rest)
    (instruction : ReleaseInstruction) : EscrowContractsContainer Key Id Rest :=
  match wti.tx.multisigIn with
  | none => contracts
  | some msId =>
      if msId = v.nullHash then contracts
      else
        match contracts msId with
        | none => contracts
        | some contract =>
            Function.update contracts msId
              (some (changeContractState contract instruction.newState wti))

def handleContract (v : Validators Key Id Rest) (contracts : EscrowContractsContainer Key Id Rest)
    (wti : WalletTransferInfo Id Rest) (cntr : ContractPrivateDetails Key)
    (decryptedAttach : List (PayloadItem Key Id Rest)) : EscrowContractsContainer Key Id Rest :=
  let isA : Bool := cntr.aAddr = v.account
  match v.validateEscrowContract wti cntr isA decryptedAttach with
  | none => contracts
  | some (msId, rel) =>
      let ed := (contracts msId).getD v.valueInitialized
      let ed := { ed with
        isA := isA
        expirationTime := wti.tx.expirationTime
        timestamp := if wti.timestamp ≠ 0 then wti.timestamp else ed.timestamp
        height := wti.height
        paymentId := wti.txWidePaymentId }
      let ed := changeContractState ed .contractAccepted wti
      Function.update contracts msId (some { ed with privateDetails := cntr, releaseBody := rel })

/-- The one handler that looks at the state. -/
def handleCancelProposal (v : Validators Key Id Rest)
    (contracts : EscrowContractsContainer Key Id Rest) (wti : WalletTransferInfo Id Rest)
    (cancelTemplate : Transaction Id Rest) (decryptedAttach : List (PayloadItem Key Id Rest)) :
    EscrowContractsContainer Key Id Rest :=
  match cancelTemplate.vin.head? with
  | some (.multisig contractId) =>
      match contracts contractId with
      | none => contracts
      | some contract =>
          if v.validateEscrowCancelProposal wti cancelTemplate decryptedAttach contractId
            contract.privateDetails
              contract.proposal.txTemplate then
            let updated (contract : EscrowContractDetails Key Id Rest) :=
              Function.update contracts contractId (some { contract with
                cancelBody := cancelTemplate, cancelExpirationTime :=
                  cancelTemplate.expirationTime })
            match contract.state with
            | .contractAccepted =>
                updated (changeContractState contract .contractCancelProposalSent wti)
            | .contractCancelProposalSent => updated contract
            | _ => contracts
          else contracts
  | _ => contracts

/-- One attachment in `process_contract_info`; `none` where the function returns. -/
def processItem (v : Validators Key Id Rest) (wti : WalletTransferInfo Id Rest)
    (decryptedAttach : List (PayloadItem Key Id Rest))
    (contracts : EscrowContractsContainer Key Id Rest) :
    PayloadItem Key Id Rest → Option (EscrowContractsContainer Key Id Rest)
  | .proposal body => body.map fun prop => handleProposal v contracts wti prop
  | .privateDetails body => body.map fun cntr => handleContract v contracts wti cntr decryptedAttach
  | .release instruction => some (handleReleaseContract v contracts wti instruction)
  | .cancelProposal body =>
      body.map fun template => handleCancelProposal v contracts wti template decryptedAttach
  | .other => some contracts

def processItems (v : Validators Key Id Rest) (wti : WalletTransferInfo Id Rest)
    (decryptedAttach : List (PayloadItem Key Id Rest)) : List (PayloadItem Key Id Rest) →
    EscrowContractsContainer Key Id Rest → EscrowContractsContainer Key Id Rest
  | [], contracts => contracts
  | item :: rest, contracts =>
      match processItem v wti decryptedAttach contracts item with
      | none => contracts
      | some next => processItems v wti decryptedAttach rest next

def processContractInfo (v : Validators Key Id Rest)
    (contracts : EscrowContractsContainer Key Id Rest) (wti : WalletTransferInfo Id Rest)
    (decryptedAttach : List (PayloadItem Key Id Rest)) :
    EscrowContractsContainer Key Id Rest :=
  processItems v wti decryptedAttach decryptedAttach contracts

/-! ## Expirations -/

def txExpirationMedianShift : UInt64 := 20 / 2 * 60

def isTxExpired (tx : Transaction Id Rest) (expirationTsMedian : UInt64) : Bool :=
  expirationTsMedian ≠ 0 && tx.expirationTime ≠ 0 &&
    tx.expirationTime ≤ expirationTsMedian + txExpirationMedianShift

/-- The body of the loop in `handle_contract_expirations`. -/
def expire (txExpirationTsMedian : UInt64) (contract : EscrowContractDetails Key Id Rest) :
    EscrowContractDetails Key Id Rest :=
  match contract.state with
  | .contractCancelProposalSent =>
      if isTxExpired contract.cancelBody txExpirationTsMedian then
        { contract with state := .contractAccepted }
      else contract
  | .contractReleasedCancelled =>
      if contract.height = 0 ∧ isTxExpired contract.cancelBody txExpirationTsMedian then
        { contract with state := .contractAccepted }
      else contract
  | _ => contract

def handleContractExpirations (contracts : EscrowContractsContainer Key Id Rest)
    (txExpirationTsMedian : UInt64) :
    EscrowContractsContainer Key Id Rest :=
  fun id => (contracts id).map (expire txExpirationTsMedian)

inductive Request (Key Id Rest : Type*) where
  | transaction (wti : WalletTransferInfo Id Rest)
    (decryptedAttach : List (PayloadItem Key Id Rest))
  | expirations (txExpirationTsMedian : UInt64)
  deriving DecidableEq, Repr

def step (v : Validators Key Id Rest) (contracts : EscrowContractsContainer Key Id Rest) :
    Request Key Id Rest → EscrowContractsContainer Key Id Rest
  | .transaction wti decryptedAttach => processContractInfo v contracts wti decryptedAttach
  | .expirations median => handleContractExpirations contracts median

/-- The records after a sequence of transactions and expirations. -/
def after (v : Validators Key Id Rest) (requests : List (Request Key Id Rest)) :
    EscrowContractsContainer Key Id Rest :=
  requests.foldl (step v) fun _ => none

/-! ## Moves forward -/

/-- What one attachment may make of a record. A contract that is seen again stays in its state and
keeps its details, and once its release is confirmed it does not become unconfirmed. -/
inductive Advance : Option (EscrowContractDetails Key Id Rest) →
    Option (EscrowContractDetails Key Id Rest) → Prop where
  | seenAgain {contract next : EscrowContractDetails Key Id Rest}
      (sameState : next.state = contract.state)
      (sameDetails : next.privateDetails = contract.privateDetails)
      (confirmed : contract.state.Released → contract.height ≠ 0 → next.height ≠ 0) :
      Advance (some contract) (some next)
  | proposed {next : EscrowContractDetails Key Id Rest} (isSent : next.state = .proposalSent) :
      Advance none (some next)
  | accepted {contract next : EscrowContractDetails Key Id Rest}
      (wasSent : contract.state = .proposalSent)
      (isAccepted : next.state = .contractAccepted) : Advance (some contract) (some next)
  | cancelProposed {contract next : EscrowContractDetails Key Id Rest}
      (wasAccepted : contract.state = .contractAccepted)
      (isSent : next.state = .contractCancelProposalSent)
      (sameDetails : next.privateDetails = contract.privateDetails) :
        Advance (some contract) (some next)
  | released {contract next : EscrowContractDetails Key Id Rest}
      (wasRunning : contract.state = .contractAccepted ∨
        contract.state = .contractCancelProposalSent)
      (isReleased : next.state.Released)
      (sameDetails : next.privateDetails = contract.privateDetails) :
        Advance (some contract) (some next)

/-- What an expiration may make of a record. -/
inductive Expiry (median : UInt64) :
    Option (EscrowContractDetails Key Id Rest) → Option (EscrowContractDetails Key Id Rest) →
      Prop where
  | untouched (contract : Option (EscrowContractDetails Key Id Rest)) :
    Expiry median contract contract
  | cancelProposal {contract : EscrowContractDetails Key Id Rest}
      (wasSent : contract.state = .contractCancelProposalSent)
      (isExpired : isTxExpired contract.cancelBody median = true) :
      Expiry median (some contract) (some { contract with state := .contractAccepted })
  | release {contract : EscrowContractDetails Key Id Rest}
      (wasReleased : contract.state = .contractReleasedCancelled)
      (unconfirmed : contract.height = 0)
      (isExpired : isTxExpired contract.cancelBody median = true) :
      Expiry median (some contract) (some { contract with state := .contractAccepted })

/-- A transaction may bring several attachments. -/
def Move : Request Key Id Rest → Option (EscrowContractDetails Key Id Rest) →
    Option (EscrowContractDetails Key Id Rest) → Prop
  | .transaction _ _ => Relation.ReflTransGen Advance
  | .expirations median => Expiry median

/-- Every step of the sequence moves every contract forward, and a confirmed release is final. -/
structure MovesForward (v : Validators Key Id Rest)
    (requests : List (Request Key Id Rest)) : Prop where
  moves : ∀ before request rest, requests = before ++ request :: rest →
    ∀ id, Move request (after v before id) (after v (before ++ [request]) id)
  final : ∀ before rest, requests = before ++ rest → ∀ id, ∀ contract ∈ after v before id,
    contract.state.Released → contract.height ≠ 0 →
      ∃ next ∈ after v requests id, next.state = contract.state

/-! ## Attachments that fit -/

/-- A proposal fits a contract that is not known yet, or repeats the one on record; an acceptance
fits a contract that was proposed, or repeats the one on record; a release fits a contract that
runs, or repeats the one on record without taking its confirmation back. -/
def Fits (v : Validators Key Id Rest) (wti : WalletTransferInfo Id Rest)
    (decryptedAttach : List (PayloadItem Key Id Rest))
    (contracts : EscrowContractsContainer Key Id Rest) :
    PayloadItem Key Id Rest → Prop
  | .proposal (some prop) =>
      ∀ found ∈ v.validateEscrowProposal wti prop, ∀ contract ∈ contracts found.1,
      contract.state = .proposalSent ∧ contract.privateDetails = found.2.1
  | .privateDetails (some cntr) =>
      ∀ found ∈ v.validateEscrowContract wti cntr (cntr.aAddr = v.account) decryptedAttach,
        ∃ contract ∈ contracts found.1, contract.state = .proposalSent ∨
          contract.state = .contractAccepted ∧ contract.privateDetails = cntr
  | .release instruction =>
      ∀ msId ∈ wti.tx.multisigIn, msId ≠ v.nullHash → ∀ contract ∈ contracts msId,
      contract.state = .contractAccepted ∨ contract.state = .contractCancelProposalSent ∨
        contract.state = instruction.newState ∧ (contract.height ≠ 0 → wti.height ≠ 0)
  | _ => True

/-- Every attachment that is handled fits where it is handled. -/
def FitAll (v : Validators Key Id Rest) (wti : WalletTransferInfo Id Rest)
    (decryptedAttach : List (PayloadItem Key Id Rest)) :
    List (PayloadItem Key Id Rest) → EscrowContractsContainer Key Id Rest → Prop
  | [], _ => True
  | item :: rest, contracts => Fits v wti decryptedAttach contracts item ∧
      ∀ next ∈ processItem v wti decryptedAttach contracts item,
        FitAll v wti decryptedAttach rest next

def FitsRequest (v : Validators Key Id Rest) (contracts : EscrowContractsContainer Key Id Rest) :
    Request Key Id Rest → Prop
  | .transaction wti decryptedAttach => FitAll v wti decryptedAttach decryptedAttach contracts
  | .expirations _ => True

variable {v : Validators Key Id Rest} {wti : WalletTransferInfo Id Rest}
  {contracts next : EscrowContractsContainer Key Id Rest}
  {decryptedAttach : List (PayloadItem Key Id Rest)}

theorem ReleaseInstruction.newState_released (instruction : ReleaseInstruction) :
    instruction.newState.Released := by
  cases instruction <;> trivial

omit [DecidableEq Key] in
/-- A record replaced by an advance of it, and all others as they were. -/
theorem update_advances {msId : Id} {contract : EscrowContractDetails Key Id Rest}
    (advance : Advance (contracts msId) (some contract)) (id : Id) :
    Function.update contracts msId (some contract) id = contracts id ∨
      Advance (contracts id) (Function.update contracts msId (some contract) id) := by
  by_cases same : id = msId
  · subst same
    rw [Function.update_self]
    exact Or.inr advance
  · rw [Function.update_of_ne same]
    exact Or.inl rfl

theorem handleProposal_advances {prop : ProposalBody Key Id Rest}
    (fits : Fits v wti decryptedAttach contracts (.proposal (some prop))) (id : Id) :
    handleProposal v contracts wti prop id = contracts id ∨
      Advance (contracts id) (handleProposal v contracts wti prop id) := by
  unfold handleProposal
  cases validated : v.validateEscrowProposal wti prop with
  | none => exact Or.inl rfl
  | some found =>
      obtain ⟨msId, cpd, paymentId⟩ := found
      apply update_advances
      cases known : contracts msId with
      | none => exact .proposed rfl
      | some contract =>
          obtain ⟨wasSent, sameDetails⟩ := fits _ validated contract known
          refine .seenAgain wasSent.symm sameDetails.symm fun released => ?_
          rw [wasSent] at released
          cases released

theorem handleContract_advances {cntr : ContractPrivateDetails Key}
    (fits : Fits v wti decryptedAttach contracts (.privateDetails (some cntr))) (id : Id) :
    handleContract v contracts wti cntr decryptedAttach id = contracts id ∨
      Advance (contracts id) (handleContract v contracts wti cntr decryptedAttach id) := by
  unfold handleContract
  dsimp only
  cases validated : v.validateEscrowContract wti cntr (cntr.aAddr = v.account) decryptedAttach with
  | none => exact Or.inl rfl
  | some found =>
      obtain ⟨msId, rel⟩ := found
      obtain ⟨contract, known, wasSent | ⟨wasAccepted, sameDetails⟩⟩ := fits _ validated
      · apply update_advances
        rw [known]
        exact .accepted wasSent rfl
      · apply update_advances
        rw [known]
        refine .seenAgain wasAccepted.symm sameDetails.symm fun released => ?_
        rw [wasAccepted] at released
        cases released

theorem handleReleaseContract_advances {instruction : ReleaseInstruction}
    (fits : Fits v wti decryptedAttach contracts (.release instruction)) (id : Id) :
    handleReleaseContract v contracts wti instruction id = contracts id ∨
      Advance (contracts id) (handleReleaseContract v contracts wti instruction id) := by
  unfold handleReleaseContract
  cases isInput : wti.tx.multisigIn with
  | none => exact Or.inl rfl
  | some msId =>
      dsimp only
      split
      · exact Or.inl rfl
      · next nonzero =>
          cases known : contracts msId with
          | none => exact Or.inl rfl
          | some contract =>
              apply update_advances
              rw [known]
              rcases fits msId isInput nonzero contract known with
                wasAccepted | wasSent | ⟨sameState, confirmed⟩
              · exact .released (Or.inl wasAccepted) instruction.newState_released rfl
              · exact .released (Or.inr wasSent) instruction.newState_released rfl
              · exact .seenAgain sameState.symm rfl fun _ => confirmed

omit [DecidableEq Key] in
/-- The handler that looks at the state needs no condition. -/
theorem handleCancelProposal_advances (cancelTemplate : Transaction Id Rest) (id : Id) :
    handleCancelProposal v contracts wti cancelTemplate decryptedAttach id = contracts id ∨
      Advance (contracts id)
        (handleCancelProposal v contracts wti cancelTemplate decryptedAttach id) := by
  unfold handleCancelProposal
  rcases cancelTemplate.vin.head? with _ | ⟨contractId⟩ | _
  · exact Or.inl rfl
  · dsimp only
    cases known : contracts contractId with
    | none => exact Or.inl rfl
    | some contract =>
        dsimp only
        split
        · cases isState : contract.state with
          | contractAccepted =>
              apply update_advances
              rw [known]
              exact .cancelProposed isState rfl rfl
          | contractCancelProposalSent =>
              apply update_advances
              rw [known]
              exact .seenAgain isState.symm rfl fun _ height => height
          | proposalSent | contractReleasedNormal | contractReleasedBurned
          | contractReleasedCancelled =>
              exact Or.inl rfl
        · exact Or.inl rfl
  · exact Or.inl rfl

theorem processItem_advances {item : PayloadItem Key Id Rest}
    (fits : Fits v wti decryptedAttach contracts item)
    (processed : processItem v wti decryptedAttach contracts item = some next) (id : Id) :
    next id = contracts id ∨ Advance (contracts id) (next id) := by
  cases item with
  | proposal body =>
      obtain ⟨prop, rfl, rfl⟩ := Option.map_eq_some_iff.mp processed
      exact handleProposal_advances fits id
  | privateDetails body =>
      obtain ⟨cntr, rfl, rfl⟩ := Option.map_eq_some_iff.mp processed
      exact handleContract_advances fits id
  | release instruction =>
      cases processed
      exact handleReleaseContract_advances fits id
  | cancelProposal body =>
      obtain ⟨template, rfl, rfl⟩ := Option.map_eq_some_iff.mp processed
      exact handleCancelProposal_advances template id
  | other =>
      cases processed
      exact Or.inl rfl

omit [DecidableEq Key] [DecidableEq Id] in
/-- A state that only one advance leads to, or the state itself. -/
theorem advance_known {contract found : EscrowContractDetails Key Id Rest}
    (kept : some found = some contract ∨ Advance (some contract) (some found)) :
    found.state = contract.state ∧ found.privateDetails = contract.privateDetails ∧
        (contract.state.Released → contract.height ≠ 0 → found.height ≠ 0) ∨
      contract.state = .proposalSent ∧ found.state = .contractAccepted ∨
      contract.state = .contractAccepted ∧ found.state = .contractCancelProposalSent ∨
      (contract.state = .contractAccepted ∨ contract.state = .contractCancelProposalSent) ∧
        found.state.Released := by
  rcases kept with same | advance
  · cases same
    exact Or.inl ⟨rfl, rfl, fun _ height => height⟩
  · cases advance with
    | seenAgain sameState sameDetails confirmed => exact Or.inl ⟨sameState, sameDetails, confirmed⟩
    | accepted wasSent isAccepted => exact Or.inr (Or.inl ⟨wasSent, isAccepted⟩)
    | cancelProposed wasAccepted isSent _ => exact Or.inr (Or.inr (Or.inl ⟨wasAccepted, isSent⟩))
    | released wasRunning isReleased _ => exact Or.inr (Or.inr (Or.inr ⟨wasRunning, isReleased⟩))

/-- Fitting is no more than what an attachment has to do for all contracts to advance. -/
theorem processItem_advances_iff {item : PayloadItem Key Id Rest}
    (processed : processItem v wti decryptedAttach contracts item = some next) :
    (∀ id, next id = contracts id ∨ Advance (contracts id) (next id)) ↔
      Fits v wti decryptedAttach contracts item := by
  refine ⟨fun advances => ?_, fun fits => processItem_advances fits processed⟩
  cases item with
  | proposal body =>
      obtain ⟨prop, rfl, rfl⟩ := Option.map_eq_some_iff.mp processed
      rintro ⟨msId, cpd, paymentId⟩ validated contract known
      have kept := advances msId
      rw [handleProposal, validated] at kept
      dsimp only at kept
      rw [Function.update_self, known] at kept
      rcases advance_known kept with
        ⟨sameState, sameDetails, -⟩ | ⟨-, isAccepted⟩ | ⟨-, isSent⟩ | ⟨-, isReleased⟩
      · exact ⟨sameState.symm, sameDetails.symm⟩
      · cases isAccepted
      · cases isSent
      · cases isReleased
  | privateDetails body =>
      obtain ⟨cntr, rfl, rfl⟩ := Option.map_eq_some_iff.mp processed
      rintro ⟨msId, rel⟩ validated
      have kept := advances msId
      have isFound : v.validateEscrowContract wti cntr (cntr.aAddr = v.account) decryptedAttach =
          some (msId, rel) :=
        validated
      rw [handleContract] at kept
      dsimp only at kept
      rw [isFound] at kept
      dsimp only at kept
      rw [Function.update_self] at kept
      cases known : contracts msId with
      | none =>
          rw [known] at kept
          rcases kept with same | advance
          · cases same
          · cases advance with
            | proposed isSent => cases isSent
      | some contract =>
          rw [known] at kept
          refine ⟨contract, rfl, ?_⟩
          rcases advance_known kept with
            ⟨sameState, sameDetails, -⟩ | ⟨wasSent, -⟩ | ⟨-, isSent⟩ | ⟨-, isReleased⟩
          · exact Or.inr ⟨sameState.symm, sameDetails.symm⟩
          · exact Or.inl wasSent
          · cases isSent
          · cases isReleased
  | release instruction =>
      cases processed
      intro msId isInput nonzero contract known
      have input : wti.tx.multisigIn = some msId := isInput
      have isThere : contracts msId = some contract := known
      have kept := advances msId
      rw [handleReleaseContract, input] at kept
      dsimp only at kept
      rw [if_neg nonzero, isThere] at kept
      dsimp only at kept
      rw [Function.update_self] at kept
      rcases advance_known kept with
        ⟨sameState, -, confirmed⟩ | ⟨-, isAccepted⟩ | ⟨-, isSent⟩ | ⟨wasRunning, -⟩
      · have released := instruction.newState_released
        have same : contract.state = instruction.newState := sameState.symm
        rw [← same] at released
        exact Or.inr (Or.inr ⟨same, confirmed released⟩)
      · cases instruction <;> cases isAccepted
      · cases instruction <;> cases isSent
      · rcases wasRunning with running | running
        · exact Or.inl running
        · exact Or.inr (Or.inl running)
  | cancelProposal body => cases body <;> trivial
  | other => trivial

/-! ## Runs -/

theorem processItems_advances {items : List (PayloadItem Key Id Rest)}
    (fit : FitAll v wti decryptedAttach items contracts) (id : Id) :
    Relation.ReflTransGen Advance (contracts id)
      (processItems v wti decryptedAttach items contracts id) := by
  induction items generalizing contracts with
  | nil => exact .refl
  | cons item rest inductionHypothesis =>
      rw [processItems]
      cases processed : processItem v wti decryptedAttach contracts item with
      | none => exact .refl
      | some next =>
          have later := inductionHypothesis (fit.2 next processed)
          rcases processItem_advances fit.1 processed id with same | advance
          · rwa [same] at later
          · exact .head advance later

omit [DecidableEq Key] [DecidableEq Id] in
theorem handleContractExpirations_expiry (contracts : EscrowContractsContainer Key Id Rest)
    (median : UInt64) (id : Id) :
    Expiry median (contracts id) (handleContractExpirations contracts median id) := by
  unfold handleContractExpirations
  cases contracts id with
  | none => exact .untouched none
  | some contract =>
      rw [Option.map_some]
      unfold expire
      split
      · next wasSent =>
          split
          · next isExpired => exact .cancelProposal wasSent isExpired
          · exact .untouched _
      · next wasReleased =>
          split
          · next both => exact .release wasReleased both.1 both.2
          · exact .untouched _
      · exact .untouched _

theorem step_moves {request : Request Key Id Rest} (fits : FitsRequest v contracts request)
    (id : Id) :
    Move request (contracts id) (step v contracts request id) := by
  cases request with
  | transaction wti decryptedAttach => exact processItems_advances fits id
  | expirations median => exact handleContractExpirations_expiry contracts median id

omit [DecidableEq Key] [DecidableEq Id] in
/-- No move leaves a confirmed release. -/
theorem move_released {request : Request Key Id Rest}
    {before next : Option (EscrowContractDetails Key Id Rest)} (move : Move request before next)
    {contract : EscrowContractDetails Key Id Rest} (isThere : before = some contract)
    (released : contract.state.Released) (confirmed : contract.height ≠ 0) :
    ∃ contract' ∈ next, contract'.state = contract.state ∧ contract'.height ≠ 0 := by
  cases request with
  | transaction wti decryptedAttach =>
      have advances : Relation.ReflTransGen Advance before next := move
      induction advances with
      | refl => exact ⟨contract, isThere, rfl, confirmed⟩
      | tail earlier advance inductionHypothesis =>
          obtain ⟨now, isNow, sameState, stillConfirmed⟩ := inductionHypothesis earlier
          rw [← sameState] at released
          cases isNow
          cases advance with
          | seenAgain same _ kept =>
              exact ⟨_, rfl, same.trans sameState, kept released stillConfirmed⟩
          | accepted wasSent _ =>
              rw [wasSent] at released
              cases released
          | cancelProposed wasAccepted _ _ =>
              rw [wasAccepted] at released
              cases released
          | released wasRunning _ _ =>
              rcases wasRunning with running | running <;> rw [running] at released <;>
                cases released
  | expirations median =>
      have expiry : Expiry median before next := move
      subst isThere
      cases expiry with
      | untouched => exact ⟨contract, rfl, rfl, confirmed⟩
      | cancelProposal wasSent _ =>
          rw [wasSent] at released
          cases released
      | release _ unconfirmed _ => exact absurd unconfirmed confirmed

theorem after_concat (v : Validators Key Id Rest) (requests : List (Request Key Id Rest))
    (request : Request Key Id Rest) :
    after v (requests ++ [request]) = step v (after v requests) request :=
  List.foldl_concat _ _ _ _

/-- A proposal that is handled from a block after its acceptance was handled from the pool takes the
contract back. -/
theorem contract_moves_backwards :
    ¬ ∀ (v : Validators Nat Nat Nat) (requests : List (Request Nat Nat Nat)),
      MovesForward v requests := by
  intro always
  let details : ContractPrivateDetails Nat := ⟨"", "", ⟨1, 1⟩, ⟨2, 2⟩, 10, 5, 5⟩
  let template : Transaction Nat Nat := ⟨[.other], 1000, 7⟩
  let proposal : ProposalBody Nat Nat Nat := ⟨template, 3⟩
  let releases : EscrowReleaseTemplatesBody Nat Nat :=
    ⟨⟨[.multisig 7], 0, 8⟩, ⟨[.multisig 7], 0, 9⟩⟩
  -- the id of the multisig output stands in `rest`
  let v : Validators Nat Nat Nat :=
    ⟨⟨1, 1⟩, 0, ⟨.proposalSent, false, details, 0, 0, 0, 0, "", proposal, releases, template⟩,
      fun _ prop => some (prop.txTemplate.rest, details, none), fun wti _ _ _ =>
        some (wti.tx.rest, releases),
    fun _ _ _ _ _ _ => true⟩
  let proposalTx (height : Nat) : WalletTransferInfo Nat Nat := ⟨⟨[.other], 0, 20⟩, height, 100, ""⟩
  let acceptance : WalletTransferInfo Nat Nat := ⟨template, 0, 110, ""⟩
  have moves := (always v [.transaction (proposalTx 0) [.proposal (some proposal)],
    .transaction acceptance [.privateDetails (some details)],
    .transaction (proposalTx 50) [.proposal (some proposal)]]).moves
      [.transaction (proposalTx 0) [.proposal (some proposal)],
        .transaction acceptance [.privateDetails (some details)]]
      (.transaction (proposalTx 50) [.proposal (some proposal)]) [] rfl 7
  -- no advance leads back to a proposal
  have never : ∀ before next : Option (EscrowContractDetails Nat Nat Nat),
      Relation.ReflTransGen Advance before next →
      (∃ contract ∈ before, contract.state ≠ .proposalSent) →
        ∃ contract ∈ next, contract.state ≠ .proposalSent := by
    intro before next advances isThere
    induction advances with
    | refl => exact isThere
    | tail _ advance inductionHypothesis =>
        obtain ⟨contract, known, notSent⟩ := inductionHypothesis
        cases known
        cases advance with
        | seenAgain same _ _ => exact ⟨_, rfl, by rwa [same]⟩
        | accepted _ isAccepted => exact ⟨_, rfl, by rw [isAccepted]; decide⟩
        | cancelProposed _ isSent _ => exact ⟨_, rfl, by rw [isSent]; decide⟩
        | released _ isReleased _ =>
            refine ⟨_, rfl, fun isSent => ?_⟩
            rw [isSent] at isReleased
            cases isReleased
  obtain ⟨contract, known, notSent⟩ := never _ _ moves ⟨_, rfl, by decide⟩
  cases known
  exact notSent rfl

/-- Over sequences whose attachments fit, every contract moves forward only. -/
theorem contracts_move_forward (v : Validators Key Id Rest) (requests : List (Request Key Id Rest))
    (fits : ∀ before request rest, requests = before ++ request :: rest →
      FitsRequest v (after v before) request) :
    MovesForward v requests where
  moves before request rest split_ id := by
    rw [after_concat]
    exact step_moves (fits before request rest split_) id
  final before rest split_ id contract isThere released confirmed := by
    suffices all : ∀ later remaining, rest = later ++ remaining →
        ∃ next ∈ after v (before ++ later) id, next.state = contract.state ∧ next.height ≠ 0 by
      obtain ⟨next, isNext, sameState, -⟩ := all rest [] (List.append_nil rest).symm
      exact ⟨next, by rwa [split_], sameState⟩
    intro later
    induction later using List.reverseRecOn with
    | nil =>
        intro remaining _
        rw [List.append_nil]
        exact ⟨contract, isThere, rfl, confirmed⟩
    | append_singleton earlier request inductionHypothesis =>
        intro remaining splitRest
        obtain ⟨now, isNow, sameState, stillConfirmed⟩ :=
          inductionHypothesis (request :: remaining) (by
          rw [splitRest, List.append_assoc, List.singleton_append])
        have move := step_moves (fits (before ++ earlier) request remaining (by
          rw [split_, splitRest]
          simp only [List.append_assoc, List.singleton_append])) id
        rw [← after_concat] at move
        obtain ⟨next, isNext, same, nextConfirmed⟩ :=
          move_released move isNow (by rwa [sameState]) stillConfirmed
        exact ⟨next, by rwa [← List.append_assoc], same.trans sameState, nextConfirmed⟩

/-- A proposal from the pool, its acceptance from a block and an expiration. -/
theorem contracts_move_forward_accepted :
    let details : ContractPrivateDetails Nat := ⟨"", "", ⟨1, 1⟩, ⟨2, 2⟩, 10, 5, 5⟩
    let template : Transaction Nat Nat := ⟨[.other], 1000, 7⟩
    let proposal : ProposalBody Nat Nat Nat := ⟨template, 3⟩
    let releases : EscrowReleaseTemplatesBody Nat Nat :=
      ⟨⟨[.multisig 7], 0, 8⟩, ⟨[.multisig 7], 0, 9⟩⟩
    let v : Validators Nat Nat Nat :=
      ⟨⟨1, 1⟩, 0, ⟨.proposalSent, false, details, 0, 0, 0, 0, "", proposal, releases, template⟩,
        fun _ prop => some (prop.txTemplate.rest, details, none), fun wti _ _ _ =>
          some (wti.tx.rest, releases),
        fun _ _ _ _ _ _ => true⟩
    MovesForward v [.transaction ⟨⟨[.other], 0, 20⟩, 0, 100, ""⟩ [.proposal (some proposal)],
      .transaction ⟨template, 50, 110,
        ""⟩ [.privateDetails (some details)], .expirations 2000] := by
  intro details template proposal releases v
  apply contracts_move_forward v
  intro before request rest split_
  rcases before with _ | ⟨first, _ | ⟨second, _ | ⟨third, more⟩⟩⟩
  · cases split_
    refine ⟨?_, fun _ _ => trivial⟩
    intro found _ contract known
    cases known
  · cases split_
    refine ⟨?_, fun _ _ => trivial⟩
    intro found isFound
    cases isFound
    exact ⟨_, rfl, Or.inl rfl⟩
  · cases split_
    trivial
  · simp at split_

end Zano.Wallet.EscrowContracts
