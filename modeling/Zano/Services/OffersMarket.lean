import Mathlib
import Zano.Lib.Undo
import Zano.Serialization.Payload

/-! # The market of offers

Offers are carried by service attachments. An `ADD` puts an offer into the market, an `UPD` stops an
offer and puts its successor, a `DEL` stops an offer. When blocks are taken back the attachments are
handed to the service again, latest first, and it has to undo each from what the market holds then:
nothing records whether an attachment did anything when it was pushed.

The container has an index by id that rejects a second offer with the same id; the order of the list
is of no meaning. The texts of the offers are json that is packed, and stay parameters here with the
hash and the signatures.
-/

namespace Zano.OffersMarket

open Serialization Transition Undo

variable {Details : Type}

/-! ## Attachments -/

def bcOffersServiceInstructionAdd : Bytes := [65, 68, 68]
def bcOffersServiceInstructionUpd : Bytes := [85, 80, 68]
def bcOffersServiceInstructionDel : Bytes := [68, 69, 76]

def offerMaximumLifeTime : UInt64 := 60 * 60 * 24 * 30
def currencyBlocksPerDay : UInt64 := 60 * 60 * 24 / ((120 + 120) / 4)

structure UpdateOffer (Details : Type) where
  txId : Hash
  offerIndex : UInt64
  sig : Signature
  of : Details

structure CancelOffer where
  txId : Hash
  offerIndex : UInt64
  sig : Signature

inductive OffersAttachment (Details : Type) where
  | offerDetails (od : Details)
  | updateOffer (uo : UpdateOffer Details)
  | cancelOffer (co : CancelOffer)

/-- What the service reads of the transaction an attachment is in. -/
structure Tx where
  hash : Hash
  fee : UInt64
  serviceAttachmentsCount : UInt64

structure Crypto (Details : Type) where
  unpack : Bytes → Option Bytes
  loadOfferDetails : Bytes → Option Details
  loadUpdateOffer : Bytes → Option (UpdateOffer Details)
  loadCancelOffer : Bytes → Option CancelOffer
  storeToBinary : Details → Bytes
  cnFastHash : Bytes → Hash
  checkSignature : Hash → PublicKey → Signature → Bool

def podOfUInt64 (v : UInt64) : Bytes := (List.range 8).map fun k => (v >>> (8 * k).toUInt64).toUInt8

/-- The index is xored into the first eight bytes. -/
def offerIdFromHashAndIndex (txId : Hash) (index : UInt64) : Hash where
  bytes := List.zipWith (· ^^^ ·) txId.bytes (podOfUInt64 index ++ List.replicate 24 0)
  length_eq := by simp [podOfUInt64, txId.length_eq]

def podToHex (h : Hash) : String :=
  String.ofList (h.bytes.flatMap fun b =>
    [Nat.digitChar (b.toNat / 16), Nat.digitChar (b.toNat % 16)])

namespace UpdateOffer

def offerId (uo : UpdateOffer Details) : Hash := offerIdFromHashAndIndex uo.txId uo.offerIndex

def makeOfferSigBlob (crypto : Crypto Details) (uo : UpdateOffer Details) : Bytes :=
  uo.txId.bytes ++ podOfUInt64 uo.offerIndex ++ crypto.storeToBinary uo.of

end UpdateOffer

namespace CancelOffer

def offerId (co : CancelOffer) : Hash := offerIdFromHashAndIndex co.txId co.offerIndex

def makeOfferSigBlob (co : CancelOffer) : Bytes := co.txId.bytes ++ podOfUInt64 co.offerIndex

end CancelOffer

def loadInstruction (crypto : Crypto Details) (instruction jsonBuff : Bytes) :
    Option (OffersAttachment Details) :=
  if instruction = bcOffersServiceInstructionAdd then
    (crypto.loadOfferDetails jsonBuff).map .offerDetails
  else if instruction = bcOffersServiceInstructionUpd then
    (crypto.loadUpdateOffer jsonBuff).map .updateOffer
  else if instruction = bcOffersServiceInstructionDel then
    (crypto.loadCancelOffer jsonBuff).map .cancelOffer
  else none

/-! ## The market -/

@[ext]
structure Offer (Details : Type) where
  details : Details
  txHash : Hash
  indexInTx : UInt64
  timestamp : UInt64
  fee : UInt64
  security : PublicKey
  stopped : Bool
  nxtOffer : String
  h : Hash

namespace Offer

def stop (o : Offer Details) : Offer Details := { o with stopped := true }

def replaceBy (next : Hash) (o : Offer Details) : Offer Details :=
  { o with nxtOffer := podToHex next, stopped := true }

def resume (o : Offer Details) : Offer Details := { o with stopped := false }

def resumeAlone (o : Offer Details) : Offer Details := { o with stopped := false, nxtOffer := "" }

@[simp] theorem stop_h (o : Offer Details) : o.stop.h = o.h := rfl

@[simp] theorem replaceBy_h (next : Hash) (o : Offer Details) : (o.replaceBy next).h = o.h := rfl

@[simp] theorem resume_h (o : Offer Details) : o.resume.h = o.h := rfl

@[simp] theorem resumeAlone_h (o : Offer Details) : o.resumeAlone.h = o.h := rfl

theorem resume_stop {o : Offer Details} (active : o.stopped = false) : o.stop.resume = o := by
  ext1 <;> simp [stop, resume, active]

theorem resumeAlone_replaceBy {next : Hash} {o : Offer Details} (active : o.stopped = false)
    (unlinked : o.nxtOffer = "") : (o.replaceBy next).resumeAlone = o := by
  ext1 <;> simp [replaceBy, resumeAlone, active, unlinked]

end Offer

@[ext]
structure Service (Details : Type) where
  offers : List (Offer Details)
  lastTrimedHeight : UInt64
  disabled : Bool

namespace Service

variable (crypto : Crypto Details) (s : Service Details)

def find (id : Hash) : Option (Offer Details) := s.offers.find? fun o => o.h = id

def modify (id : Hash) (change : Offer Details → Offer Details) : Service Details :=
  { s with offers := s.offers.map fun o => if o.h = id then change o else o }

def erase (id : Hash) : Service Details := { s with offers := s.offers.filter fun o => o.h ≠ id }

def putOfferToContainer (offer : Offer Details) : Service Details :=
  if (s.find offer.h).isSome then s else { s with offers := s.offers ++ [offer] }

def validateModifyOrderSignature (offer : Offer Details) (buffToCheckSig : Bytes)
    (sig : Signature) : Bool :=
  !offer.stopped && crypto.checkSignature (crypto.cnFastHash buffToCheckSig) offer.security sig

def newOffer (details : Details) (i : UInt64) (tx : Tx) (timestamp : UInt64)
    (security : PublicKey) : Offer Details where
  details := details
  txHash := tx.hash
  indexInTx := i
  timestamp := timestamp
  fee := tx.fee / tx.serviceAttachmentsCount
  security := security
  stopped := false
  nxtOffer := ""
  h := offerIdFromHashAndIndex tx.hash i

/-! Each of the handlers answers `false` before it has changed anything: `none` stands for that. -/

def handlePushOfferDetails (od : Details) (a : TxServiceAttachment) (i : UInt64) (tx : Tx)
    (timestamp : UInt64) :
    Option (Service Details) :=
  a.security.getLast?.map fun security =>
    s.putOfferToContainer (newOffer od i tx timestamp security)

def handlePushUpdateOffer (uo : UpdateOffer Details) (a : TxServiceAttachment) (i : UInt64)
    (tx : Tx) :
    Option (Service Details) :=
  (s.find uo.offerId).bind fun original =>
    if validateModifyOrderSignature crypto original (uo.makeOfferSigBlob crypto) uo.sig then
      a.security.getLast?.map fun security =>
        let newOff := newOffer uo.of i tx original.timestamp security
        (s.putOfferToContainer newOff).modify uo.offerId (Offer.replaceBy newOff.h)
    else none

def validateCancelOrder (co : CancelOffer) : Option (Offer Details) :=
  (s.find co.offerId).bind fun offer =>
    if validateModifyOrderSignature crypto offer co.makeOfferSigBlob co.sig then
      some offer else none

def handlePushCancelOffer (co : CancelOffer) : Option (Service Details) :=
  (s.validateCancelOrder crypto co).map fun _ => s.modify co.offerId Offer.stop

def handlePush (instruction : OffersAttachment Details) (a : TxServiceAttachment)
    (i : UInt64) (tx : Tx) (timestamp : UInt64) : Option (Service Details) :=
  match instruction with
  | .offerDetails od => s.handlePushOfferDetails od a i tx timestamp
  | .updateOffer uo => s.handlePushUpdateOffer crypto uo a i tx
  | .cancelOffer co => s.handlePushCancelOffer crypto co

def handleEntryPush (a : TxServiceAttachment) (i : UInt64) (tx : Tx)
    (timestamp : UInt64) : Service Details :=
  if s.disabled then s
  else
    match crypto.unpack a.body with
    | none => s
    | some jsonBuff =>
        ((loadInstruction crypto a.instruction jsonBuff).bind fun instruction =>
          s.handlePush crypto instruction a i tx timestamp).getD s

/-- An offer that is not there is only logged. -/
def handlePopOfferDetails (i : UInt64) (tx : Tx) : Option (Service Details) :=
  some (s.erase (offerIdFromHashAndIndex tx.hash i))

def handlePopUpdateOffer (uo : UpdateOffer Details) (i : UInt64) (tx : Tx) :
    Option (Service Details) :=
  (s.find (offerIdFromHashAndIndex tx.hash i)).bind fun _ =>
    (s.find uo.offerId).map fun _ =>
      (s.modify uo.offerId Offer.resumeAlone).erase (offerIdFromHashAndIndex tx.hash i)

def handlePopCancelOffer (co : CancelOffer) : Option (Service Details) :=
  (s.find co.offerId).bind fun offer =>
    if offer.stopped then some (s.modify co.offerId Offer.resume) else none

def handlePop (instruction : OffersAttachment Details) (i : UInt64) (tx : Tx) :
    Option (Service Details) :=
  match instruction with
  | .offerDetails _ => s.handlePopOfferDetails i tx
  | .updateOffer uo => s.handlePopUpdateOffer uo i tx
  | .cancelOffer co => s.handlePopCancelOffer co

def expired (currentTime : UInt64) (offer : Offer Details) : Bool :=
  offer.timestamp + offerMaximumLifeTime < currentTime

/-- The offers are visited by their timestamps up to the first that has not expired. -/
def trimOffers (currentTime : UInt64) : Service Details :=
  { s with offers := s.offers.filter fun o =>
      s.offers.any fun earlier => earlier.timestamp ≤ o.timestamp && !expired currentTime earlier }

def handleEntryPop (a : TxServiceAttachment) (i : UInt64) (tx : Tx)
    (h currentTime : UInt64) : Service Details :=
  if s.disabled then s
  else
    match crypto.unpack a.body with
    | none => s
    | some jsonBuff =>
        let popped := ((loadInstruction crypto a.instruction jsonBuff).bind fun instruction =>
          s.handlePop instruction i tx).getD s
        if popped.lastTrimedHeight ≠ h ∧ h % currencyBlocksPerDay = 0 then
          { popped.trimOffers currentTime with lastTrimedHeight := h }
        else popped

end Service

/-! ## Attachments of a chain -/

/-- What both handlers are given of one attachment, with the clock at the time it is taken back. -/
structure Entry where
  a : TxServiceAttachment
  i : UInt64
  tx : Tx
  h : UInt64
  timestamp : UInt64
  currentTime : UInt64

namespace Entry

def ownId (e : Entry) : Hash := offerIdFromHashAndIndex e.tx.hash e.i

def push (crypto : Crypto Details) (s : Service Details) (e : Entry) : Service Details :=
  s.handleEntryPush crypto e.a e.i e.tx e.timestamp

def pop (crypto : Crypto Details) (s : Service Details) (e : Entry) : Service Details :=
  s.handleEntryPop crypto e.a e.i e.tx e.h e.currentTime

def load (crypto : Crypto Details) (e : Entry) : Option (OffersAttachment Details) :=
  (crypto.unpack e.a.body).bind fun jsonBuff => loadInstruction crypto e.a.instruction jsonBuff

/-- A cancellation of an offer that is stopped already. -/
def cancelsStopped (crypto : Crypto Details) (s : Service Details) (e : Entry) : Bool :=
  match e.load crypto with
  | some (.cancelOffer co) => (s.find co.offerId).any fun offer => offer.stopped
  | _ => false

/-- Taking it back is not the moment of the daily trimming. -/
def Untrimmed (s : Service Details) (e : Entry) : Prop :=
  s.lastTrimedHeight = e.h ∨ e.h % currencyBlocksPerDay ≠ 0

end Entry

/-! ## One attachment -/

namespace Service

variable {crypto : Crypto Details} {s : Service Details} {id : Hash}

/-- An offer that is active has no successor. -/
structure WellFormed (s : Service Details) : Prop where
  unique : (s.offers.map fun o => o.h).Nodup
  unlinked : ∀ o ∈ s.offers, o.stopped = false → o.nxtOffer = ""

def Unused (s : Service Details) (id : Hash) : Prop := ∀ o ∈ s.offers, o.h ≠ id

theorem mem_of_find {offer : Offer Details} (found : s.find id = some offer) :
    offer ∈ s.offers ∧ offer.h = id :=
  ⟨List.mem_of_find?_eq_some found, by simpa using List.find?_some found⟩

theorem WellFormed.eq_of_find (wellFormed : s.WellFormed) {offer o : Offer Details}
    (found : s.find id = some offer) (inside : o ∈ s.offers) (same : o.h = id) : o = offer := by
  obtain ⟨mem, hash⟩ := mem_of_find found
  exact List.inj_on_of_nodup_map wellFormed.unique inside mem (same.trans hash.symm)

theorem find_eq_none_of_unused (unused : s.Unused id) : s.find id = none := by
  simpa [find, Unused] using unused

theorem putOfferToContainer_of_unused {offer : Offer Details} (unused : s.Unused offer.h) :
    s.putOfferToContainer offer = { s with offers := s.offers ++ [offer] } := by
  simp [putOfferToContainer, find_eq_none_of_unused unused]

theorem erase_of_unused (unused : s.Unused id) : s.erase id = s := by
  have kept : (s.offers.filter fun o => o.h ≠ id) = s.offers :=
    List.filter_eq_self.mpr fun o inside => by simpa using unused o inside
  simp only [erase, kept]

theorem erase_putOfferToContainer {offer : Offer Details} (unused : s.Unused offer.h) :
    (s.putOfferToContainer offer).erase offer.h = s := by
  have kept : (s.erase offer.h).offers = s.offers := by rw [erase_of_unused unused]
  rw [putOfferToContainer_of_unused unused]
  ext1
  · simpa [erase] using kept
  · rfl
  · rfl

/-- Two changes of one offer of which the second takes the first back. -/
theorem modify_modify {change back : Offer Details → Offer Details}
    (keeps : ∀ o, (change o).h = o.h) (restores : ∀ o ∈ s.offers, o.h = id → back (change o) = o) :
    (s.modify id change).modify id back = s := by
  have same : ((s.modify id change).modify id back).offers = s.offers := by
    simp only [modify, List.map_map]
    refine (List.map_congr_left fun o inside => ?_).trans (List.map_id s.offers)
    by_cases this : o.h = id
    · simpa [this, keeps] using restores o inside this
    · simp [this]
  exact Service.ext same rfl rfl

theorem find_modify {change : Offer Details → Offer Details} (keeps : ∀ o, (change o).h = o.h)
    {other : Hash} :
    (s.modify id change).find other = (s.find other).map fun o => if o.h = id then change o
      else o := by
  have sameHash : ((fun o : Offer Details => decide (o.h = other)) ∘ fun o => if o.h = id then
      change o else o) =
      fun o => decide (o.h = other) := by
    funext o
    by_cases this : o.h = id <;> simp [this, keeps]
  simp only [find, modify, List.find?_map, sameHash]

theorem find_putOfferToContainer {offer : Offer Details} (unused : s.Unused offer.h)
    (different : offer.h ≠ id) :
    (s.putOfferToContainer offer).find id = s.find id := by
  simp [putOfferToContainer_of_unused unused, find, different]

theorem find_putOfferToContainer_self {offer : Offer Details} (unused : s.Unused offer.h) :
    (s.putOfferToContainer offer).find offer.h = some offer := by
  have before : s.offers.find? (fun o => o.h = offer.h) = none := find_eq_none_of_unused unused
  simp [putOfferToContainer_of_unused unused, find, before]

/-! ### Each instruction and what takes it back -/

section Instructions

variable {a : TxServiceAttachment} {i : UInt64} {tx : Tx} {timestamp : UInt64}

theorem handlePop_offerDetails (unused : s.Unused (offerIdFromHashAndIndex tx.hash i))
    (od : Details) (a : TxServiceAttachment) (timestamp : UInt64) :
    ((s.handlePushOfferDetails od a i tx timestamp).getD s).handlePopOfferDetails i tx =
      some s := by
  unfold handlePopOfferDetails handlePushOfferDetails
  cases a.security.getLast? with
  | none => simpa using erase_of_unused unused
  | some security => exact congrArg some (erase_putOfferToContainer unused)

/-- The successor is beside the offer that it replaces, which is the only one with its id. -/
theorem modify_putOfferToContainer (wellFormed : s.WellFormed) {original new : Offer Details}
    (found : s.find id = some original) (active : original.stopped = false)
    (unused : s.Unused new.h) :
    ((s.putOfferToContainer new).modify id (Offer.replaceBy new.h)).modify id Offer.resumeAlone =
      s.putOfferToContainer new := by
  obtain ⟨mem, hash⟩ := mem_of_find found
  apply modify_modify (Offer.replaceBy_h new.h)
  intro o inside same
  rw [putOfferToContainer_of_unused unused, List.mem_append, List.mem_singleton] at inside
  cases inside with
  | inl before =>
      obtain rfl : o = original := wellFormed.eq_of_find found before same
      exact Offer.resumeAlone_replaceBy active (wellFormed.unlinked o mem active)
  | inr isNew =>
      subst isNew
      exact absurd (hash.trans same.symm) (unused original mem)

theorem handlePop_updateOffer (wellFormed : s.WellFormed)
    (unused : s.Unused (offerIdFromHashAndIndex tx.hash i)) (crypto : Crypto Details)
    (uo : UpdateOffer Details) (a : TxServiceAttachment) :
    let pushed := (s.handlePushUpdateOffer crypto uo a i tx).getD s
    (pushed.handlePopUpdateOffer uo i tx).getD pushed = s := by
  intro pushed
  cases isPushed : s.handlePushUpdateOffer crypto uo a i tx with
  | none => simp [pushed, isPushed, handlePopUpdateOffer, find_eq_none_of_unused unused]
  | some next =>
      simp only [pushed, isPushed, Option.getD_some]
      obtain ⟨original, found, isPushed⟩ := Option.bind_eq_some_iff.mp isPushed
      split at isPushed
      · rename_i valid
        obtain ⟨security, -, rfl⟩ := Option.map_eq_some_iff.mp isPushed
        have active : original.stopped = false := by
          simp only [validateModifyOrderSignature, Bool.and_eq_true, Bool.not_eq_true'] at valid
          exact valid.1
        let newOff := newOffer uo.of i tx original.timestamp security
        have newUnused : s.Unused newOff.h := unused
        have different : newOff.h ≠ uo.offerId := by
          obtain ⟨mem, hash⟩ := mem_of_find found
          intro same
          exact newUnused original mem (hash.trans same.symm)
        have own := find_putOfferToContainer_self newUnused
        have theirs := (find_putOfferToContainer newUnused different).trans found
        have restored := modify_putOfferToContainer wellFormed found active newUnused
        show (handlePopUpdateOffer
          ((s.putOfferToContainer newOff).modify uo.offerId (Offer.replaceBy newOff.h))
          uo i tx).getD _ = s
        simp only [handlePopUpdateOffer, show offerIdFromHashAndIndex tx.hash i = newOff.h from rfl,
          find_modify (Offer.replaceBy_h newOff.h), own, theirs, restored]
        exact erase_putOfferToContainer newUnused
      · cases isPushed

/-- A second cancellation is refused, but what takes it back starts the offer again. -/
theorem modify_resume_ne {offer : Offer Details} (found : s.find id = some offer)
    (already : offer.stopped = true) :
    s.modify id Offer.resume ≠ s := by
  intro same
  have hash := (mem_of_find found).2
  have now : (s.modify id Offer.resume).find id = s.find id := by rw [same]
  rw [find_modify Offer.resume_h, found, Option.map_some, if_pos hash] at now
  rw [← Option.some.inj now] at already
  cases already

theorem handlePop_cancelOffer (wellFormed : s.WellFormed) (crypto : Crypto Details)
    (co : CancelOffer) :
    let pushed := (s.handlePushCancelOffer crypto co).getD s
    (pushed.handlePopCancelOffer co).getD pushed = s ↔
      ¬(s.find co.offerId).any (fun offer => offer.stopped) := by
  intro pushed
  cases found : s.find co.offerId with
  | none => simp [pushed, handlePushCancelOffer, handlePopCancelOffer, validateCancelOrder, found]
  | some offer =>
      have hash := (mem_of_find found).2
      cases already : offer.stopped with
      | true =>
          have refused : pushed = s := by
            simp [pushed, handlePushCancelOffer, validateCancelOrder, found,
              validateModifyOrderSignature, already]
          simpa [refused, handlePopCancelOffer, found, already] using modify_resume_ne found already
      | false =>
          by_cases valid : validateModifyOrderSignature crypto offer co.makeOfferSigBlob co.sig
          · have stoppedNow : pushed = s.modify co.offerId Offer.stop := by
              simp [pushed, handlePushCancelOffer, validateCancelOrder, found, valid]
            have restored :
                (s.modify co.offerId Offer.stop).modify co.offerId Offer.resume = s := by
              apply modify_modify Offer.stop_h
              intro o inside same
              obtain rfl : o = offer := wellFormed.eq_of_find found inside same
              exact Offer.resume_stop already
            have there : (s.modify co.offerId Offer.stop).find co.offerId = some offer.stop := by
              simp [find_modify Offer.stop_h, found, hash]
            simpa [stoppedNow, handlePopCancelOffer, there, Offer.stop, already] using restored
          · have refused : pushed = s := by
              simp [pushed, handlePushCancelOffer, validateCancelOrder, found, valid]
            simp [refused, handlePopCancelOffer, found, already]

/-- Everything a push that is not refused can do. -/
theorem handlePush_cases {instruction : OffersAttachment Details} {next : Service Details}
    (isPushed : s.handlePush crypto instruction a i tx timestamp = some next) :
    (∃ new, new.h = offerIdFromHashAndIndex tx.hash i ∧ new.nxtOffer = "" ∧
      next = s.putOfferToContainer new) ∨
    (∃ new id, new.h = offerIdFromHashAndIndex tx.hash i ∧ new.nxtOffer = "" ∧
      next = (s.putOfferToContainer new).modify id (Offer.replaceBy new.h)) ∨
    ∃ id, next = s.modify id Offer.stop := by
  cases instruction with
  | offerDetails od =>
      obtain ⟨security, -, rfl⟩ := Option.map_eq_some_iff.mp isPushed
      exact .inl ⟨_, rfl, rfl, rfl⟩
  | updateOffer uo =>
      obtain ⟨original, -, isPushed⟩ := Option.bind_eq_some_iff.mp isPushed
      split at isPushed
      · obtain ⟨security, -, rfl⟩ := Option.map_eq_some_iff.mp isPushed
        exact .inr (.inl ⟨newOffer uo.of i tx original.timestamp security, uo.offerId, rfl,
          rfl, rfl⟩)
      · cases isPushed
  | cancelOffer co =>
      obtain ⟨offer, -, rfl⟩ := Option.map_eq_some_iff.mp isPushed
      exact .inr (.inr ⟨co.offerId, rfl⟩)

theorem handlePop_lastTrimedHeight {instruction : OffersAttachment Details} {next : Service Details}
    (isPopped : s.handlePop instruction i tx = some next) :
    next.lastTrimedHeight = s.lastTrimedHeight := by
  cases instruction with
  | offerDetails od =>
      cases isPopped
      rfl
  | updateOffer uo =>
      obtain ⟨own, -, isPopped⟩ := Option.bind_eq_some_iff.mp isPopped
      obtain ⟨original, -, rfl⟩ := Option.map_eq_some_iff.mp isPopped
      rfl
  | cancelOffer co =>
      obtain ⟨offer, -, isPopped⟩ := Option.bind_eq_some_iff.mp isPopped
      split at isPopped
      · cases isPopped
        rfl
      · cases isPopped

end Instructions

/-! ### What a push keeps -/

/-- The service is in use, has the ids of these attachments only and has not
trimmed since `initial`. -/
structure Holds (initial s : Service Details) (ids : List Hash) : Prop where
  wellFormed : s.WellFormed
  ids : ∀ o ∈ s.offers, o.h ∈ ids
  disabled : s.disabled = initial.disabled
  lastTrimedHeight : s.lastTrimedHeight = initial.lastTrimedHeight

variable {initial : Service Details} {ids : List Hash}

theorem Holds.unused (holds : Holds initial s ids) (isFresh : id ∉ ids) : s.Unused id :=
  fun o inside same => isFresh (same ▸ holds.ids o inside)

theorem Holds.weaken (holds : Holds initial s ids) (own : Hash) : Holds initial s (own :: ids) :=
  { holds with ids := fun o inside => List.mem_cons_of_mem own (holds.ids o inside) }

theorem Holds.modify (holds : Holds initial s ids) {change : Offer Details → Offer Details}
    (keeps : ∀ o, (change o).h = o.h) (stops : ∀ o, (change o).stopped = true) :
    Holds initial (s.modify id change) ids := by
  have sameIds : (s.modify id change).offers.map (fun o => o.h) = s.offers.map fun o => o.h := by
    simp only [Service.modify, List.map_map]
    apply List.map_congr_left
    intro o _
    by_cases this : o.h = id <;> simp [this, keeps]
  refine ⟨⟨sameIds ▸ holds.wellFormed.unique, fun o inside active => ?_⟩, fun o inside => ?_,
    holds.disabled, holds.lastTrimedHeight⟩
  · obtain ⟨before, wasInside, rfl⟩ := List.mem_map.mp inside
    by_cases this : before.h = id
    · simp [this, stops] at active
    · simpa [this] using holds.wellFormed.unlinked before wasInside (by simpa [this] using active)
  · have inIds : o.h ∈ s.offers.map fun o => o.h := sameIds ▸ List.mem_map_of_mem inside
    obtain ⟨before, wasInside, same⟩ := List.mem_map.mp inIds
    exact same ▸ holds.ids before wasInside

theorem Holds.putOfferToContainer (holds : Holds initial s ids) {new : Offer Details}
    (isFresh : new.h ∉ ids) (unlinked : new.nxtOffer = "") :
    Holds initial (s.putOfferToContainer new) (new.h :: ids) := by
  have unused := holds.unused isFresh
  rw [putOfferToContainer_of_unused unused]
  refine ⟨⟨?_, fun o inside active => ?_⟩, fun o inside => ?_, holds.disabled,
    holds.lastTrimedHeight⟩
  · rw [List.map_append, List.nodup_append]
    refine ⟨holds.wellFormed.unique, by simp, fun h inside other isNew => ?_⟩
    obtain ⟨o, wasInside, rfl⟩ := List.mem_map.mp inside
    rw [List.map_singleton, List.mem_singleton] at isNew
    exact isNew ▸ unused o wasInside
  · rw [List.mem_append, List.mem_singleton] at inside
    cases inside with
    | inl before => exact holds.wellFormed.unlinked o before active
    | inr isNew => exact isNew ▸ unlinked
  · rw [List.mem_append, List.mem_singleton] at inside
    cases inside with
    | inl before => exact List.mem_cons_of_mem _ (holds.ids o before)
    | inr isNew => exact isNew ▸ List.mem_cons_self

theorem Holds.handlePush (holds : Holds initial s ids) {instruction : OffersAttachment Details}
    {a : TxServiceAttachment} {i : UInt64} {tx : Tx} {timestamp : UInt64} {next : Service Details}
    (isFresh : offerIdFromHashAndIndex tx.hash i ∉ ids)
    (isPushed : s.handlePush crypto instruction a i tx timestamp = some next) :
    Holds initial next (offerIdFromHashAndIndex tx.hash i :: ids) := by
  obtain ⟨new, own, unlinked, rfl⟩ | ⟨new, id, own, unlinked, rfl⟩ | ⟨id, rfl⟩ :=
    handlePush_cases isPushed
  · rw [← own] at isFresh ⊢
    exact holds.putOfferToContainer isFresh unlinked
  · rw [← own] at isFresh ⊢
    exact (holds.putOfferToContainer isFresh unlinked).modify (Offer.replaceBy_h new.h) fun _ => rfl
  · exact (holds.modify Offer.stop_h fun _ => rfl).weaken _

end Service

/-! ## A whole chain -/

namespace Entry

variable {crypto : Crypto Details} {s initial : Service Details} {e : Entry} {ids : List Hash}

theorem push_eq (enabled : s.disabled = false) :
    e.push crypto s = ((e.load crypto).bind fun instruction =>
      s.handlePush crypto instruction e.a e.i e.tx e.timestamp).getD s := by
  rw [push, Service.handleEntryPush, if_neg (by simp [enabled]), load]
  cases crypto.unpack e.a.body <;> rfl

theorem pop_eq (enabled : s.disabled = false) (untrimmed : e.Untrimmed s) :
    e.pop crypto s =
      ((e.load crypto).bind fun instruction => s.handlePop instruction e.i e.tx).getD s := by
  rw [pop, Service.handleEntryPop, if_neg (by simp [enabled]), load]
  cases crypto.unpack e.a.body with
  | none => rfl
  | some jsonBuff =>
      simp only [Option.bind_some]
      set popped := ((loadInstruction crypto e.a.instruction jsonBuff).bind fun instruction =>
        s.handlePop instruction e.i e.tx).getD s with isPopped
      have sameHeight : popped.lastTrimedHeight = s.lastTrimedHeight := by
        rw [isPopped]
        cases handled : (loadInstruction crypto e.a.instruction jsonBuff).bind fun instruction =>
            s.handlePop instruction e.i e.tx with
        | none => rfl
        | some next =>
            obtain ⟨instruction, -, handled⟩ := Option.bind_eq_some_iff.mp handled
            exact Service.handlePop_lastTrimedHeight handled
      rw [if_neg]
      rintro ⟨notYet, atDay⟩
      cases untrimmed with
      | inl already => exact notYet (sameHeight.trans already)
      | inr notAtDay => exact notAtDay atDay

/-- What the attachments of a chain, the latest first, build. -/
def replay (crypto : Crypto Details) (initial : Service Details)
    (entries : List Entry) : Service Details :=
  entries.foldr (fun e s => e.push crypto s) initial

theorem holds_push (crypto : Crypto Details) (holds : Service.Holds initial s ids)
    (enabled : initial.disabled = false) (isFresh : e.ownId ∉ ids) :
    Service.Holds initial (e.push crypto s) (e.ownId :: ids) := by
  rw [push_eq (holds.disabled.trans enabled)]
  cases pushed : (e.load crypto).bind fun instruction =>
      s.handlePush crypto instruction e.a e.i e.tx e.timestamp with
  | none => exact holds.weaken e.ownId
  | some next =>
      obtain ⟨instruction, -, pushed⟩ := Option.bind_eq_some_iff.mp pushed
      exact holds.handlePush isFresh pushed

/-- Taking an attachment back restores the market unless it cancels an offer that had
been stopped before. -/
theorem pop_push_iff (holds : Service.Holds initial s ids) (enabled : initial.disabled = false)
    (isFresh : e.ownId ∉ ids) (untrimmed : e.Untrimmed initial) :
    e.pop crypto (e.push crypto s) = s ↔ e.cancelsStopped crypto s = false := by
  have after := holds_push crypto holds enabled isFresh
  have stillUntrimmed : e.Untrimmed (e.push crypto s) := by
    rw [Untrimmed, after.lastTrimedHeight]
    exact untrimmed
  have unused := holds.unused isFresh
  rw [pop_eq (after.disabled.trans enabled) stillUntrimmed, push_eq (holds.disabled.trans enabled),
    cancelsStopped]
  cases e.load crypto with
  | none => simp
  | some instruction =>
      simp only [Option.bind_some]
      cases instruction with
      | offerDetails od =>
          have restored := Service.handlePop_offerDetails unused od e.a e.timestamp
          simp [Service.handlePush, Service.handlePop, restored]
      | updateOffer uo =>
          have restored := Service.handlePop_updateOffer holds.wellFormed unused crypto uo e.a
          simpa [Service.handlePush, Service.handlePop] using restored
      | cancelOffer co =>
          have restored := Service.handlePop_cancelOffer holds.wellFormed crypto co
          simpa [Service.handlePush, Service.handlePop] using restored

end Entry

/-! ## Any history of the chain -/

section History

variable (crypto : Crypto Details) (initial : Service Details)

def put (s : Service Details) (e : Entry) : Option (Service Details) := some (e.push crypto s)

def pop (s : Service Details) (e : Entry) : Option (Service Details) := some (e.pop crypto s)

/-- The next attachment of a chain: no other of the chain has its id, and taking it
back does not trim. -/
def Delivered (entries : List Entry) (e : Entry) : Prop :=
  e.ownId ∉ entries.map Entry.ownId ∧ e.Untrimmed initial

/-- A step that does not cancel an offer that is stopped. -/
def CancelsActive (c : Stacked (Service Details) Entry) : Request Entry → Prop
  | .put e => Delivered initial c.items e ∧ e.cancelsStopped crypto c.state = false
  | .pop => True

/-- The offer is in the market and has not been stopped. -/
def Service.active (s : Service Details) (id : Hash) : Bool := (s.find id).any fun o => !o.stopped

variable {crypto initial}

def Undoable (crypto : Crypto Details) (initial : Service Details) (entries : List Entry)
    (e : Entry) : Prop :=
  Delivered initial entries e ∧
    e.cancelsStopped crypto (Entry.replay crypto initial entries) = false

theorem built_replay {s : Service Details} {entries : List Entry}
    (built : Built (put crypto) (Undoable crypto initial) initial s entries)
    (empty : initial.offers = []) (enabled : initial.disabled = false) :
    s = Entry.replay crypto initial entries ∧
      Service.Holds initial s (entries.map Entry.ownId) := by
  induction built with
  | nil => exact ⟨rfl, ⟨⟨by simp [empty], by simp [empty]⟩, by simp [empty], rfl, rfl⟩⟩
  | cons below isFresh isPut inductionHypothesis =>
      obtain ⟨rfl, holds⟩ := inductionHypothesis
      cases isPut
      exact ⟨rfl, Entry.holds_push crypto holds enabled isFresh.1.1⟩

/-- In a history whose steps do not cancel stopped offers the market is what the attachments of the
present chain build, and the next attachment can be taken back exactly if it does not cancel a
stopped offer either. -/
theorem rollback_exact (empty : initial.offers = []) (enabled : initial.disabled = false)
    {requests : List (Request Entry)} {final : Stacked (Service Details) Entry}
    (guarded : Guarded (step (put crypto) (pop crypto)) (CancelsActive crypto initial)
      ⟨initial, []⟩ requests)
    (ran : run (step (put crypto) (pop crypto)) ⟨initial, []⟩ requests = some final) :
    final.state = Entry.replay crypto initial final.items ∧
      (∀ id, final.state.active id = (Entry.replay crypto initial final.items).active id) ∧
      ∀ e, Delivered initial final.items e →
        (e.pop crypto (e.push crypto final.state) = final.state ↔
          e.cancelsStopped crypto final.state = false) := by
  have pop_put :
      ∀ s entries e next, Built (put crypto) (Undoable crypto initial) initial s entries →
      Undoable crypto initial entries e → put crypto s e = some next →
        pop crypto next e = some s := by
    intro s entries e next built isFresh isPut
    obtain ⟨isReplay, holds⟩ := built_replay built empty enabled
    cases isPut
    apply congrArg some
    exact (Entry.pop_push_iff holds enabled isFresh.1.1 isFresh.1.2).mpr (isReplay ▸ isFresh.2)
  have built : Built (put crypto) (Undoable crypto initial) initial final.state final.items := by
    suffices preserved :
        ∀ c request next, Built (put crypto) (Undoable crypto initial) initial c.state c.items →
        CancelsActive crypto initial c request →
          step (put crypto) (pop crypto) c request = some next →
        Built (put crypto) (Undoable crypto initial) initial next.state next.items from
      invariant_of_run preserved .nil guarded ran
    intro c request next built active stepped
    apply built_of_step pop_put built _ stepped
    cases request with
    | put e =>
        have isReplay := (built_replay built empty enabled).1
        exact ⟨active.1, isReplay ▸ active.2⟩
    | pop => trivial
  obtain ⟨isReplay, holds⟩ := built_replay built empty enabled
  exact ⟨isReplay, fun id => by rw [← isReplay],
    fun e delivered => Entry.pop_push_iff holds enabled delivered.1 delivered.2⟩

end History

/-! ### An offer that is cancelled twice -/

section Twice

def transparent : Crypto Unit where
  unpack := some
  loadOfferDetails := fun _ => some ()
  loadUpdateOffer := fun _ => some ⟨Blob.filled 32 1, 0, Blob.filled 64 0, ()⟩
  loadCancelOffer := fun _ => some ⟨Blob.filled 32 1, 0, Blob.filled 64 0⟩
  storeToBinary := fun _ => []
  cnFastHash := fun _ => Blob.filled 32 0
  checkSignature := fun _ _ _ => true

def closedMarket : Service Unit := ⟨[], 0, false⟩

/-- The only attachment of the transaction whose hash has this byte everywhere. -/
def entryOf (instruction : Bytes) (byte : UInt8) : Entry where
  a := ⟨[77], instruction, [], [Blob.filled 32 9], 0⟩
  i := 0
  tx := ⟨Blob.filled 32 byte, 100, 1⟩
  h := 7
  timestamp := 1000
  currentTime := 2000

def addition : Entry := entryOf bcOffersServiceInstructionAdd 1

def cancellation (byte : UInt8) : Entry := entryOf bcOffersServiceInstructionDel byte

theorem rollback_exact_cancelled :
    (cancellation 3).pop transparent
      ((cancellation 3).push transparent (addition.push transparent closedMarket)) =
      addition.push transparent closedMarket := by
  have ran : run (step (put transparent) (pop transparent)) ⟨closedMarket, []⟩
      [.put addition, .put (cancellation 2), .pop] =
        some ⟨addition.push transparent closedMarket, [addition]⟩ := by rfl
  have guarded :
      Guarded (step (put transparent) (pop transparent)) (CancelsActive transparent closedMarket)
      ⟨closedMarket, []⟩ [.put addition, .put (cancellation 2), .pop] := by
    refine ⟨⟨⟨by decide, .inr (by decide)⟩, by decide⟩, fun next stepped => ?_⟩
    cases stepped
    refine ⟨⟨⟨by decide, .inr (by decide)⟩, by decide +kernel⟩, fun next stepped => ?_⟩
    cases stepped
    exact ⟨trivial, fun next _ => trivial⟩
  exact ((rollback_exact rfl rfl guarded ran).2.2 (cancellation 3)
    ⟨by decide, .inr (by decide)⟩).mpr
    (by decide +kernel)

theorem second_cancellation_restarts :
    (run (step (put transparent) (pop transparent)) ⟨closedMarket, []⟩
        [.put addition, .put (cancellation 2), .put (cancellation 3), .pop]).map
      (fun final => (final.state.active addition.ownId,
        (Entry.replay transparent closedMarket final.items).active addition.ownId)) =
          some (true, false) := by
  decide +kernel

end Twice

end Zano.OffersMarket
