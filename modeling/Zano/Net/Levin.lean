import Mathlib
import Zano.Lib.LittleEndian
import Zano.Lib.Reassembly
import Zano.Lib.Codec

/-! # The packets of a connection

A packet is a head of 33 bytes and as many bytes as the head says. What has been received is
gathered, and packets are taken from the front of it: a response is for the oldest call that waits
for one, everything else is for the commands handler, and what the handler returns for an invoke is
sent back.

Handlers and callbacks may make calls of their own, on the same connection and before the packet is
done with.
-/

namespace Zano.Net

/-! ## Heads -/

def levinSignature : UInt64 := 0x0101010101012101

def levinPacketRequest : UInt32 := 1

def levinPacketResponse : UInt32 := 2

def levinProtocolVer1 : UInt32 := 1

/-- The return code is taken as its bits, and the flag as the byte that it is in. -/
structure BucketHead2 where
  signature : UInt64
  cb : UInt64
  haveToReturnData : UInt8
  command : UInt32
  returnCode : UInt32
  flags : UInt32
  protocolVersion : UInt32
  deriving DecidableEq

def sizeofHead : ℕ := 33

def BucketHead2.toBytes (head : BucketHead2) : Bytes :=
  LittleEndian.put 8 head.signature.toNat ++
    (LittleEndian.put 8 head.cb.toNat ++ ([head.haveToReturnData] ++
    (LittleEndian.put 4 head.command.toNat ++ (LittleEndian.put 4 head.returnCode.toNat ++
      (LittleEndian.put 4 head.flags.toNat ++ LittleEndian.put 4 head.protocolVersion.toNat)))))

def BucketHead2.ofBytes (bytes : Bytes) : BucketHead2 where
  signature := UInt64.ofNat (LittleEndian.get (bytes.take 8))
  cb := UInt64.ofNat (LittleEndian.get ((bytes.drop 8).take 8))
  haveToReturnData := (bytes.drop 16).headD 0
  command := UInt32.ofNat (LittleEndian.get ((bytes.drop 17).take 4))
  returnCode := UInt32.ofNat (LittleEndian.get ((bytes.drop 21).take 4))
  flags := UInt32.ofNat (LittleEndian.get ((bytes.drop 25).take 4))
  protocolVersion := UInt32.ofNat (LittleEndian.get ((bytes.drop 29).take 4))

@[simp]
theorem length_toBytes (head : BucketHead2) : head.toBytes.length = sizeofHead := by
  simp [BucketHead2.toBytes, sizeofHead]

theorem take_drop_append {bytes first second : Bytes} {skip width : ℕ}
    (isDrop : bytes.drop skip = first ++ second) (length : first.length = width) :
    (bytes.drop skip).take width = first ∧ bytes.drop (skip + width) = second := by
  rw [isDrop, List.take_left' length, ← List.drop_drop, isDrop, List.drop_left' length]
  exact ⟨rfl, rfl⟩

theorem ofBytes_toBytes (head : BucketHead2) : BucketHead2.ofBytes head.toBytes = head := by
  have small8 (v : UInt64) : UInt64.ofNat (LittleEndian.get (LittleEndian.put 8 v.toNat)) = v := by
    rw [LittleEndian.get_put_of_lt v.toNat_lt, UInt64.ofNat_toNat]
  have small4 (v : UInt32) : UInt32.ofNat (LittleEndian.get (LittleEndian.put 4 v.toNat)) = v := by
    rw [LittleEndian.get_put_of_lt v.toNat_lt, UInt32.ofNat_toNat]
  obtain ⟨isSignature, rest⟩ :=
    take_drop_append (show head.toBytes.drop 0 = _ from rfl) (LittleEndian.length_put 8 _)
  obtain ⟨isCb, rest⟩ := take_drop_append rest (LittleEndian.length_put 8 _)
  have isFlag := congrArg (·.headD 0) rest
  obtain ⟨-, rest⟩ := take_drop_append rest (List.length_singleton)
  obtain ⟨isCommand, rest⟩ := take_drop_append rest (LittleEndian.length_put 4 _)
  obtain ⟨isReturnCode, rest⟩ := take_drop_append rest (LittleEndian.length_put 4 _)
  obtain ⟨isFlags, rest⟩ := take_drop_append rest (LittleEndian.length_put 4 _)
  simp only [Nat.zero_add, Nat.reduceAdd,
    List.drop_zero] at isSignature isCb isFlag isCommand isReturnCode isFlags rest
  have isVersion :
      (head.toBytes.drop 29).take 4 = LittleEndian.put 4 head.protocolVersion.toNat := by
    rw [rest, List.take_of_length_le (by simp)]
  rw [BucketHead2.ofBytes, isSignature, isCb, isFlag, isCommand, isReturnCode, isFlags, isVersion]
  simp only [small8, small4]
  rfl

/-! ## The handler of a connection -/

inductive StreamState where
  | head
  | body
  deriving DecidableEq

def levinErrorConnectionDestroyed : UInt32 := -3

def levinErrorConnectionTimedout : UInt32 := -4

/-- What an application does on a connection. An invoke names the callback for its response. Closing
shuts the connection down at once when nothing is left to be sent. -/
inductive Call (Id : Type*) where
  | notify (command : UInt32) (inBuff : Bytes)
  | asyncInvoke (command : UInt32) (inBuff : Bytes) (callback : Id)
  | close (sendQueIsEmpty : Bool)

def Call.isClose {Id : Type*} : Call Id → Bool
  | .close _ => true
  | _ => false

/-- Each of them returns the new context and the calls it made. An invoke also returns the code and
the buffer to send back. -/
structure CommandsHandler (Ctx Id : Type*) where
  invoke : Ctx → UInt32 → Bytes → Ctx × List (Call Id) × UInt32 × Bytes
  notify : Ctx → UInt32 → Bytes → Ctx × List (Call Id)
  callback : Ctx → Id → UInt32 → Bytes → Ctx × List (Call Id)

/-- The last three fields are no part of the handler, they say what it has done: the invokes
it made, those of the other side that it handled, with what it returned, and the callbacks
with what they got. -/
structure ProtocolHandler (Ctx Id : Type*) where
  state : StreamState
  currentHead : BucketHead2
  oponentProtocolVer : UInt32
  /-- Whether the timer of a callback has fired stands beside it. -/
  invokeResponseHandlers : List (Id × Bool)
  waitCount : ℕ
  closeCalled : Bool
  localInvBuff : Bytes
  invokeResultCode : UInt32
  invokeBufReady : Bool
  /-- Then nothing can be sent, and the protocol is released. -/
  wasShutdown : Bool
  sent : Bytes
  context : Ctx
  invoked : List (Id × UInt32 × Bytes)
  handled : List ((UInt32 × Bytes) × UInt32 × Bytes)
  completed : List (Id × UInt32 × Bytes)

variable {Ctx Id : Type*}

namespace ProtocolHandler

/-- The constructor. -/
def new (context : Ctx) : ProtocolHandler Ctx Id where
  state := .head
  currentHead := ⟨0, 0, 0, 0, 0, 0, 0⟩
  oponentProtocolVer := 0
  invokeResponseHandlers := []
  waitCount := 0
  closeCalled := false
  localInvBuff := []
  invokeResultCode := 0
  invokeBufReady := false
  wasShutdown := false
  sent := []
  context
  invoked := []
  handled := []
  completed := []

def requestHead (command : UInt32) (inBuff : Bytes) (haveToReturnData : UInt8) : BucketHead2 where
  signature := levinSignature
  cb := UInt64.ofNat inBuff.length
  haveToReturnData
  command
  returnCode := 0
  flags := levinPacketRequest
  protocolVersion := levinProtocolVer1

/-- What is sent of a buffer: the size is cast to `int`, and nothing can be sent when it
comes out negative. -/
def sentBuff (inBuff : Bytes) : Bytes :=
  match (BitVec.ofNat 32 inBuff.length).toInt with
  | .ofNat size => inBuff.take size
  | .negSucc _ => []

/-- The cast keeps the sizes that fit. -/
theorem sentBuff_of_lt {inBuff : Bytes} (small : inBuff.length < 2 ^ 31) :
    sentBuff inBuff = inBuff := by
  have same : (BitVec.ofNat 32 inBuff.length).toInt = .ofNat inBuff.length := by
    have twice : 2 * (inBuff.length % 2 ^ 32) < 2 ^ 32 := by omega
    rw [BitVec.toInt_eq_toNat_of_lt (by simpa using twice), BitVec.toNat_ofNat,
      Nat.mod_eq_of_lt (by omega)]
    rfl
  rw [sentBuff, same]
  exact List.take_length

variable (commands : CommandsHandler Ctx Id)

/-- Every callback whose timer has not fired is told. Of what it does then only a close has an
effect on the connection. -/
def releaseProtocol (s : ProtocolHandler Ctx Id) : ProtocolHandler Ctx Id :=
  let waiting := s.invokeResponseHandlers.filter fun handler => !handler.2
  let (context, calls) := waiting.foldl
    (fun (context, calls) handler =>
      let (context, more) := commands.callback context handler.1 levinErrorConnectionDestroyed []
      (context, calls ++ more))
    (s.context, [])
  { s with
    context
    invokeResponseHandlers := []
    waitCount := s.waitCount - waiting.length
    closeCalled := s.closeCalled || calls.any Call.isClose }

def shutdown (s : ProtocolHandler Ctx Id) : ProtocolHandler Ctx Id :=
  if s.wasShutdown then s else releaseProtocol commands { s with wasShutdown := true }

def close (s : ProtocolHandler Ctx Id) (sendQueIsEmpty : Bool) : ProtocolHandler Ctx Id :=
  let s := { s with closeCalled := true }
  if sendQueIsEmpty then shutdown commands s else s

/-- The callback of an invoke that cannot be sent gets an error, which is left out here. -/
def call (s : ProtocolHandler Ctx Id) : Call Id → ProtocolHandler Ctx Id
  | .notify command inBuff =>
      if s.wasShutdown then s
      else { s with sent := s.sent ++ ((requestHead command inBuff 0).toBytes ++ sentBuff inBuff) }
  | .asyncInvoke command inBuff callback =>
      let s := { s with invokeBufReady := false }
      if s.wasShutdown then s
      else
        { s with
          sent := s.sent ++ ((requestHead command inBuff 1).toBytes ++ sentBuff inBuff)
          invokeResponseHandlers := s.invokeResponseHandlers ++ [(callback, false)]
          waitCount := s.waitCount + 1
          invoked := s.invoked ++ [(callback, command, inBuff)] }
  | .close sendQueIsEmpty => close commands s sendQueIsEmpty

def perform (s : ProtocolHandler Ctx Id) (calls : List (Call Id)) : ProtocolHandler Ctx Id :=
  calls.foldl (call commands) s

def isResponse (s : ProtocolHandler Ctx Id) : Bool :=
  s.oponentProtocolVer = levinProtocolVer1 && s.currentHead.flags &&& levinPacketResponse ≠ 0

/-- A response whose callback has timed out is dropped, and the callback stays where it is. -/
def handleResponse (s : ProtocolHandler Ctx Id) (buff : Bytes) : ProtocolHandler Ctx Id × Bool :=
  match s.invokeResponseHandlers with
  | (callback, fired) :: others =>
      if fired then (s, true)
      else
        let (context, calls) := commands.callback s.context callback s.currentHead.returnCode buff
        let s := perform commands
          { s with
            invokeResponseHandlers := others
            context
            completed := s.completed ++ [(callback, s.currentHead.returnCode, buff)] } calls
        ({ s with waitCount := s.waitCount - 1 }, true)
  | [] =>
      if s.waitCount = 0 && !s.closeCalled then (s, false)
      else
        ({ s with
          localInvBuff := buff
          invokeResultCode := s.currentHead.returnCode
          invokeBufReady := true }, true)

/-- The head of a request made into that of the response. -/
def responseHead (head : BucketHead2) (returnCode : UInt32) (returnBuff : Bytes) : BucketHead2 :=
  { head with
    returnCode
    cb := UInt64.ofNat returnBuff.length
    haveToReturnData := 0
    protocolVersion := levinProtocolVer1
    flags := levinPacketResponse }

def handleInvoke (s : ProtocolHandler Ctx Id) (buff : Bytes) : ProtocolHandler Ctx Id × Bool :=
  let (context, calls, returnCode, returnBuff) :=
    commands.invoke s.context s.currentHead.command buff
  let head := responseHead s.currentHead returnCode returnBuff
  let done := perform commands { s with context } calls
  let done :=
    { done with
      currentHead := head
      handled := done.handled ++ [((s.currentHead.command, buff), returnCode, returnBuff)] }
  if done.wasShutdown then (done, false)
  else ({ done with sent := done.sent ++ (head.toBytes ++ returnBuff) }, true)

def handleNotify (s : ProtocolHandler Ctx Id) (buff : Bytes) : ProtocolHandler Ctx Id :=
  let (context, calls) := commands.notify s.context s.currentHead.command buff
  perform commands { s with context } calls

/-- What is done once the body is there. -/
def handleBody (s : ProtocolHandler Ctx Id) (buff : Bytes) : ProtocolHandler Ctx Id × Bool :=
  if s.isResponse then handleResponse commands s buff
  else if s.currentHead.haveToReturnData ≠ 0 then handleInvoke commands s buff
  else (handleNotify commands s buff, true)

/-- The timer of a callback fires. -/
def timeout (s : ProtocolHandler Ctx Id) (place : ℕ) (sendQueIsEmpty : Bool) :
    Option (ProtocolHandler Ctx Id) :=
  match s.invokeResponseHandlers[place]? with
  | some (callback, false) =>
      let (context, calls) := commands.callback s.context callback levinErrorConnectionTimedout []
      let s := perform commands
        { s with
          context
          invokeResponseHandlers := s.invokeResponseHandlers.set place (callback, true) } calls
      let s := close commands s sendQueIsEmpty
      some { s with waitCount := s.waitCount - 1 }
  | _ => none

end ProtocolHandler

structure Config (Ctx Id : Type*) where
  commands : CommandsHandler Ctx Id
  maxPacketSize : ℕ

open Reassembly (Verdict)

namespace ProtocolHandler

/-- One turn of the loop in `handle_recv`. A wrong signature is seen as soon as it is there. -/
def next (config : Config Ctx Id) (s : ProtocolHandler Ctx Id) (cacheInBuffer : Bytes) :
    Verdict (ProtocolHandler Ctx Id) :=
  match s.state with
  | .body =>
      if cacheInBuffer.length < s.currentHead.cb.toNat then .wait
      else
        match handleBody config.commands s (cacheInBuffer.take s.currentHead.cb.toNat) with
        | (s', true) => .advance { s' with state := .head } s.currentHead.cb.toNat
        | (s', false) => .fail s'
  | .head =>
      if cacheInBuffer.length < sizeofHead then
        if 8 ≤ cacheInBuffer.length && LittleEndian.get (cacheInBuffer.take 8) ≠
          levinSignature.toNat then .fail s else .wait
      else
        let head := BucketHead2.ofBytes (cacheInBuffer.take sizeofHead)
        if levinSignature ≠ head.signature then .fail s
        else
          let s :=
            { s with
              currentHead := head, state := .body, oponentProtocolVer := head.protocolVersion }
          if config.maxPacketSize < head.cb.toNat then .fail s else .advance s sizeofHead

end ProtocolHandler

open ProtocolHandler

/-- A turn takes a body off or a head. -/
theorem next_eq_advance {config : Config Ctx Id} {s s' : ProtocolHandler Ctx Id} {buffer : Bytes}
    {consumed : ℕ} :
    next config s buffer = .advance s' consumed ↔
      (s.state = .body ∧ consumed = s.currentHead.cb.toNat ∧ consumed ≤ buffer.length ∧
        ∃ done, handleBody config.commands s (buffer.take consumed) = (done, true) ∧
          s' = { done with state := .head }) ∨
      (s.state = .head ∧ consumed = sizeofHead ∧ consumed ≤ buffer.length ∧
        ∃ head, head = BucketHead2.ofBytes (buffer.take sizeofHead) ∧
          head.signature = levinSignature ∧
          head.cb.toNat ≤ config.maxPacketSize ∧
          s' = { s with
            currentHead := head, state := .body, oponentProtocolVer := head.protocolVersion }) := by
  cases isState : s.state <;>
    simp only [next, isState, reduceCtorEq, false_and, false_or, or_false, true_and] <;> grind

/-- What makes it give up does not go away. -/
theorem next_eq_fail {config : Config Ctx Id} {s s' : ProtocolHandler Ctx Id} {buffer : Bytes} :
    next config s buffer = .fail s' ↔
      (s.state = .body ∧ s.currentHead.cb.toNat ≤ buffer.length ∧
        handleBody config.commands s (buffer.take s.currentHead.cb.toNat) = (s', false)) ∨
      (s.state = .head ∧ buffer.length < sizeofHead ∧ 8 ≤ buffer.length ∧
        LittleEndian.get (buffer.take 8) ≠ levinSignature.toNat ∧ s' = s) ∨
      (s.state = .head ∧ sizeofHead ≤ buffer.length ∧
        ∃ head, head = BucketHead2.ofBytes (buffer.take sizeofHead) ∧
          (head.signature ≠ levinSignature ∧ s' = s ∨
            head.signature = levinSignature ∧ config.maxPacketSize < head.cb.toNat ∧
              s' = { s with
                currentHead := head
                state := .body
                oponentProtocolVer := head.protocolVersion })) := by
  cases isState : s.state <;>
    simp only [next, isState, reduceCtorEq, false_and, false_or, or_false, true_and] <;> grind

/-- It waits for the rest of a body, or for the rest of a head that begins well. -/
theorem next_eq_wait {config : Config Ctx Id} {s : ProtocolHandler Ctx Id} {buffer : Bytes} :
    next config s buffer = .wait ↔
      (s.state = .body ∧ buffer.length < s.currentHead.cb.toNat) ∨
      (s.state = .head ∧ buffer.length < sizeofHead ∧
        (8 ≤ buffer.length → LittleEndian.get (buffer.take 8) = levinSignature.toNat)) := by
  cases isState : s.state <;>
    simp only [next, isState, reduceCtorEq, false_and, false_or, or_false, true_and] <;> grind

theorem toNat_signature_ofBytes (bytes : Bytes) :
    (BucketHead2.ofBytes bytes).signature.toNat = LittleEndian.get (bytes.take 8) := by
  have small := LittleEndian.get_lt (bytes.take 8)
  have fits : LittleEndian.get (bytes.take 8) < 2 ^ 64 :=
    small.trans_le (Nat.pow_le_pow_right (n := 256) (by decide) (List.length_take_le 8 bytes))
  rw [BucketHead2.ofBytes, UInt64.toNat_ofNat', Nat.mod_eq_of_lt fits]

def framing (config : Config Ctx Id) : Reassembly.Framing (ProtocolHandler Ctx Id) UInt8 where
  next := next config
  weight s := if s.state = .body then 1 else 0
  progress := by
    intro s buffer s' consumed advances
    rcases next_eq_advance.mp advances with
      ⟨isBody, -, within, done, -, rfl⟩ | ⟨isHead, isSize, within, head, -, -, -, rfl⟩
    · simp [isBody, within]
    · simp [isHead, isSize, sizeofHead] at within ⊢
      exact within
  advance_append := by
    intro s buffer s' consumed advances more
    rcases next_eq_advance.mp advances with
      ⟨isBody, isSize, within, done, isDone, isNext⟩ |
      ⟨isHead, isSize, within, head, isHead', valid⟩
    · refine next_eq_advance.mpr (.inl ⟨isBody, isSize, ?_, done, ?_, isNext⟩)
      · rw [List.length_append]
        omega
      · rwa [List.take_append_of_le_length within]
    · refine next_eq_advance.mpr (.inr ⟨isHead, isSize, ?_, head, ?_, valid⟩)
      · rw [List.length_append]
        omega
      · rwa [List.take_append_of_le_length (isSize ▸ within)]
  fail_append := by
    intro s buffer s' fails more
    rcases next_eq_fail.mp fails with
      ⟨isBody, within, refused⟩ | ⟨isHead, short, enough, mismatch, rfl⟩ |
      ⟨isHead, within, head, isHead', invalid⟩
    · refine next_eq_fail.mpr (.inl ⟨isBody, ?_, ?_⟩)
      · rw [List.length_append]
        omega
      · rwa [List.take_append_of_le_length within]
    · have sameStart : (buffer ++ more).take 8 = buffer.take 8 :=
        List.take_append_of_le_length enough
      by_cases longer : (buffer ++ more).length < sizeofHead
      · refine next_eq_fail.mpr (.inr (.inl ⟨isHead, longer, ?_, ?_, rfl⟩))
        · rw [List.length_append]
          omega
        · rwa [sameStart]
      · refine next_eq_fail.mpr (.inr
          (.inr ⟨isHead, not_lt.mp longer, _, rfl, .inl ⟨fun isSignature => mismatch ?_, rfl⟩⟩))
        rw [← sameStart, ← isSignature, toNat_signature_ofBytes, List.take_take]
        rfl
    · refine next_eq_fail.mpr (.inr (.inr ⟨isHead, ?_, head, ?_, invalid⟩))
      · rw [List.length_append]
        omega
      · rwa [List.take_append_of_le_length within]

/-! ## Pieces of the stream -/

abbrev Connection (Ctx Id : Type*) := Reassembly.Receiver (ProtocolHandler Ctx Id) UInt8

/-- A connection for which this is not true is read no more. -/
def handleRecv (config : Config Ctx Id) (connection : Connection Ctx Id)
    (piece : Bytes) : Connection Ctx Id :=
  if connection.state.closeCalled then { connection with alive := false }
  else if config.maxPacketSize < connection.cache.length + piece.length then
    { connection with alive := false }
  else Reassembly.drain (framing config) connection.state (connection.cache ++ piece)

def receive (config : Config Ctx Id) (connection : Connection Ctx Id)
    (piece : Bytes) : Connection Ctx Id :=
  if connection.alive then handleRecv config connection piece else connection

def receiveAll (config : Config Ctx Id) (connection : Connection Ctx Id)
    (pieces : List Bytes) : Connection Ctx Id :=
  pieces.foldl (receive config) connection

/-- No piece comes on a connection that was closed, or is too much to be gathered. -/
def Admitted (config : Config Ctx Id) : Connection Ctx Id → List Bytes → Prop
  | _, [] => True
  | connection, piece :: pieces =>
      (connection.alive = true →
        connection.state.closeCalled = false ∧
          connection.cache.length + piece.length ≤ config.maxPacketSize) ∧
        Admitted config (receive config connection piece) pieces

theorem receive_eq_feed {config : Config Ctx Id} {connection : Connection Ctx Id} {piece : Bytes}
    (admitted : connection.alive = true →
      connection.state.closeCalled = false ∧
        connection.cache.length + piece.length ≤ config.maxPacketSize) :
    receive config connection piece = Reassembly.feed (framing config) connection piece := by
  unfold receive Reassembly.feed
  by_cases alive : connection.alive = true
  · obtain ⟨isOpen, fits⟩ := admitted alive
    simp [alive, handleRecv, isOpen, Nat.not_lt.mpr fits]
  · simp [alive]

theorem receiveAll_eq_feedAll {config : Config Ctx Id} {connection : Connection Ctx Id}
    {pieces : List Bytes} (admitted : Admitted config connection pieces) :
    receiveAll config connection pieces =
      Reassembly.feedAll (framing config) connection pieces := by
  induction pieces generalizing connection with
  | nil => rfl
  | cons piece pieces inductionHypothesis =>
      have first := receive_eq_feed admitted.1
      have rest := inductionHypothesis admitted.2
      rw [first] at rest
      simpa only [receiveAll, Reassembly.feedAll, List.foldl_cons, first] using rest

/-- Wherever the stream was cut, the same is handled, answered and refused. -/
theorem receiveAll_of_flatten_eq {config : Config Ctx Id} {connection : Connection Ctx Id}
    {pieces pieces' : List Bytes} (settled : next config connection.state connection.cache = .wait)
    (alive : connection.alive = true) (same : pieces.flatten = pieces'.flatten)
    (admitted : Admitted config connection pieces)
    (admitted' : Admitted config connection pieces') :
    (receiveAll config connection pieces).state = (receiveAll config connection pieces').state ∧
      (receiveAll config connection pieces).alive = (receiveAll config connection pieces').alive ∧
        ((receiveAll config connection pieces).alive = true →
          (receiveAll config connection pieces).cache =
            (receiveAll config connection pieces').cache) := by
  obtain ⟨s, cache, isAlive⟩ := connection
  obtain rfl : isAlive = true := alive
  obtain ⟨state, stays, whole⟩ := Reassembly.feedAll_eq (framing config) settled pieces
  obtain ⟨state', stays', whole'⟩ := Reassembly.feedAll_eq (framing config) settled pieces'
  rw [receiveAll_eq_feedAll admitted, receiveAll_eq_feedAll admitted']
  refine ⟨by rw [state, state', same], by rw [stays, stays', same], fun isAlive => ?_⟩
  rw [whole isAlive, whole' (by rw [stays', ← same, ← stays, isAlive]), same]

/-- A notification that counts, in one piece and in two. -/
theorem receiveAll_of_flatten_eq_notify :
    let commands : CommandsHandler ℕ Unit :=
  ⟨fun n _ _ => (n, [], 0, []), fun n _ _ => (n + 1, []), fun n _ _ _ => (n, [])⟩
    let config : Config ℕ Unit := ⟨commands, 100⟩
    let connection : Connection ℕ Unit := ⟨.new 0, [], true⟩
    let packet := (requestHead 1001 [7] 0).toBytes ++ [7]
    (receiveAll config connection [packet]).state =
      (receiveAll config connection [packet.take 1, packet.drop 1]).state := by
  intro commands config connection packet
  have isCut : [packet].flatten = [packet.take 1, packet.drop 1].flatten := by decide
  have waits : next config connection.state (connection.cache ++ packet.take 1) = .wait :=
    next_eq_wait.mpr (.inr ⟨rfl, by decide, by decide⟩)
  have first : receive config connection (packet.take 1) = ⟨.new 0, packet.take 1, true⟩ := by
    rw [receive_eq_feed (by decide)]
    exact Reassembly.drain_of_wait (show (framing config).next _ _ = _ from waits)
  refine (receiveAll_of_flatten_eq (next_eq_wait.mpr (.inr ⟨rfl, by decide, by decide⟩)) rfl
    isCut ?_ ?_).1
  · exact ⟨by decide, trivial⟩
  · refine ⟨by decide, ?_, trivial⟩
    rw [first]
    decide

end Zano.Net
