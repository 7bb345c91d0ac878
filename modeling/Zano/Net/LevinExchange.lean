import Mathlib
import Zano.Lib.Transition
import Zano.Net.Levin

/-! # Two sides of a connection

Each side calls, receives in pieces what the other side sent, and handles it; timers fire and
sockets are shut down at any time. A response does not say which invoke it is for. It is given to
the oldest callback that waits, and that is right because both sides keep the order: the other side
handles the invokes as they were made and sends what it returned before it handles more.
-/

namespace Zano.Net

open ProtocolHandler

variable {Ctx Id : Type*}

/-! ## Packets -/

structure Packet where
  head : BucketHead2
  body : Bytes

namespace Packet

def toBytes (packet : Packet) : Bytes := packet.head.toBytes ++ packet.body

def isResponse (packet : Packet) : Bool := packet.head.flags &&& levinPacketResponse ≠ 0

/-- The invoke that a packet is, if it is one. -/
def invokes (packet : Packet) : List (UInt32 × Bytes) :=
  if packet.isResponse = false ∧ packet.head.haveToReturnData ≠ 0 then
    [(packet.head.command, packet.body)] else []

def responses (packet : Packet) : List (UInt32 × Bytes) :=
  if packet.isResponse then [(packet.head.returnCode, packet.body)] else []

/-- What the other side takes for a packet, with a body below a limit. -/
structure Valid (limit : ℕ) (packet : Packet) : Prop where
  signature : packet.head.signature = levinSignature
  size : packet.head.cb.toNat = packet.body.length
  version : packet.head.protocolVersion = levinProtocolVer1
  small : packet.body.length < limit

end Packet

def wire (packets : List Packet) : Bytes := packets.flatMap Packet.toBytes

/-- What the bytes that a side has not handled are. After a head its body comes first. -/
def Pending (s : ProtocolHandler Ctx Id) (bytes : Bytes) (packets : List Packet) : Prop :=
  match s.state with
  | .head => bytes = wire packets
  | .body => ∃ packet others, packets = packet :: others ∧ s.currentHead = packet.head ∧
      s.oponentProtocolVer = packet.head.protocolVersion ∧ bytes = packet.body ++ wire others

theorem Pending.append {s : ProtocolHandler Ctx Id} {bytes : Bytes} {packets : List Packet}
    (pending : Pending s bytes packets) (more : List Packet) :
    Pending s (bytes ++ wire more) (packets ++ more) := by
  unfold Pending at pending ⊢
  cases isState : s.state with
  | head => simp_all [wire]
  | body =>
      simp only [isState] at pending ⊢
      obtain ⟨packet, others, rfl, isHead, isVersion, rfl⟩ := pending
      exact ⟨packet, others ++ more, rfl, isHead, isVersion, by simp [wire]⟩

/-! ## What calls do -/

/-- Buffers are below a limit. -/
def Call.Below (limit : ℕ) : Call Id → Prop
  | .notify _ inBuff => inBuff.length < limit
  | .asyncInvoke _ inBuff _ => inBuff.length < limit
  | .close _ => True

structure CommandsHandler.Below (limit : ℕ) (commands : CommandsHandler Ctx Id) : Prop where
  invoke : ∀ context command buff, (commands.invoke context command buff).2.2.2.length < limit ∧
    ∀ made ∈ (commands.invoke context command buff).2.1, made.Below limit
  notify :
    ∀ context command buff, ∀ made ∈ (commands.notify context command buff).2, made.Below limit
  callback : ∀ context callback code buff,
    ∀ made ∈ (commands.callback context callback code buff).2, made.Below limit

/-- Packets were sent for the invokes that were made, and nothing else happened but that all
callbacks may be gone. -/
structure Performed (limit : ℕ) (s s' : ProtocolHandler Ctx Id) (packets : List Packet)
    (made : List (Id × UInt32 × Bytes)) :
    Prop where
  sent : s'.sent = s.sent ++ wire packets
  invoked : s'.invoked = s.invoked ++ made
  invokes : made.map Prod.snd = packets.flatMap Packet.invokes
  responses : packets.flatMap Packet.responses = []
  valid : ∀ packet ∈ packets, packet.Valid limit
  completed : s'.completed = s.completed
  handled : s'.handled = s.handled
  state : s'.state = s.state
  currentHead : s'.currentHead = s.currentHead
  oponentProtocolVer : s'.oponentProtocolVer = s.oponentProtocolVer
  callbacks : s'.wasShutdown = false →
    s.wasShutdown = false ∧ s'.invokeResponseHandlers =
      s.invokeResponseHandlers ++ made.map fun invoke => (invoke.1, false)
  released : (s.wasShutdown = true → s.invokeResponseHandlers = []) → s'.wasShutdown = true →
    s'.invokeResponseHandlers = []
  closed : s.closeCalled = true → s'.closeCalled = true

namespace Performed

variable {limit : ℕ} {s s' s'' : ProtocolHandler Ctx Id} {packets packets' : List Packet}
  {made made' : List (Id × UInt32 × Bytes)}

theorem refl (s : ProtocolHandler Ctx Id) : Performed limit s s [] [] := by
  constructor <;> simp [wire]

theorem waitCount (s : ProtocolHandler Ctx Id) (waitCount : ℕ) :
    Performed limit s { s with waitCount } [] [] := by
  constructor <;> simp [wire]

theorem trans (first : Performed limit s s' packets made)
    (second : Performed limit s' s'' packets' made') :
    Performed limit s s'' (packets ++ packets') (made ++ made') where
  sent := by rw [second.sent, first.sent]; simp [wire]
  invoked := by rw [second.invoked, first.invoked, List.append_assoc]
  invokes := by rw [List.map_append, List.flatMap_append, first.invokes, second.invokes]
  responses := by rw [List.flatMap_append, first.responses, second.responses]; rfl
  valid packet mem := (List.mem_append.mp mem).elim (first.valid packet) (second.valid packet)
  completed := second.completed.trans first.completed
  handled := second.handled.trans first.handled
  state := second.state.trans first.state
  currentHead := second.currentHead.trans first.currentHead
  oponentProtocolVer := second.oponentProtocolVer.trans first.oponentProtocolVer
  callbacks isOpen := by
    obtain ⟨wasOpen', callbacks'⟩ := second.callbacks isOpen
    obtain ⟨wasOpen, callbacks⟩ := first.callbacks wasOpen'
    exact ⟨wasOpen, by rw [callbacks', callbacks, List.map_append, List.append_assoc]⟩
  released before := second.released (first.released before)
  closed := second.closed ∘ first.closed

end Performed

theorem request_not_response : levinPacketRequest &&& levinPacketResponse = 0 := by decide

theorem response_ne_zero : levinPacketResponse ≠ 0 := by decide

/-- The packet of a request. -/
theorem valid_request {limit : ℕ} (fits : limit ≤ 2 ^ 31) (command : UInt32) {inBuff : Bytes}
    (below : inBuff.length < limit) (haveToReturnData : UInt8) :
    Packet.Valid limit ⟨requestHead command inBuff haveToReturnData, inBuff⟩ where
  signature := rfl
  size := by
    rw [requestHead, UInt64.toNat_ofNat']
    exact Nat.mod_eq_of_lt ((below.trans_le fits).trans_le (by decide))
  version := rfl
  small := below

/-- All that a release does. -/
theorem exists_releaseProtocol_eq (commands : CommandsHandler Ctx Id) (s : ProtocolHandler Ctx Id) :
    ∃ context waitCount closes, releaseProtocol commands s =
      { s with
        context
        invokeResponseHandlers := []
        waitCount
        closeCalled := s.closeCalled || closes } :=
  ⟨_, _, _, rfl⟩

theorem shutdown_performed (limit : ℕ) (commands : CommandsHandler Ctx Id)
    (s : ProtocolHandler Ctx Id) :
    Performed limit s (shutdown commands s) [] [] := by
  by_cases wasShutdown : s.wasShutdown = true
  · simpa [shutdown, wasShutdown] using Performed.refl s
  · obtain ⟨context, waitCount, closes, released⟩ :=
      exists_releaseProtocol_eq commands { s with wasShutdown := true }
    rw [shutdown, if_neg wasShutdown, released]
    constructor <;> simp_all [wire]

theorem close_performed (limit : ℕ) (commands : CommandsHandler Ctx Id) (s : ProtocolHandler Ctx Id)
    (sendQueIsEmpty : Bool) :
    Performed limit s (close commands s sendQueIsEmpty) [] [] := by
  have closes : Performed limit s { s with closeCalled := true } [] [] := by
    constructor <;> simp [wire]
  unfold close
  cases sendQueIsEmpty with
  | false => exact closes
  | true => exact closes.trans (shutdown_performed limit commands _)

theorem call_performed {limit : ℕ} (fits : limit ≤ 2 ^ 31) (commands : CommandsHandler Ctx Id)
    (s : ProtocolHandler Ctx Id) {made : Call Id} (below : made.Below limit) :
    ∃ packets invokes, Performed limit s (call commands s made) packets invokes := by
  cases made with
  | close sendQueIsEmpty => exact ⟨[], [], close_performed limit commands s sendQueIsEmpty⟩
  | notify command inBuff =>
      by_cases wasShutdown : s.wasShutdown = true
      · refine ⟨[], [], ?_⟩
        simpa [call, wasShutdown] using Performed.refl s
      · have valid := valid_request fits command below 0
        have whole : sentBuff inBuff = inBuff := sentBuff_of_lt (below.trans_le fits)
        refine ⟨[⟨requestHead command inBuff 0, inBuff⟩], [], ?_⟩
        constructor <;>
          simp_all [call, wire, Packet.toBytes, Packet.invokes, Packet.responses, Packet.isResponse,
            requestHead, request_not_response]
  | asyncInvoke command inBuff callback =>
      by_cases wasShutdown : s.wasShutdown = true
      · refine ⟨[], [], ?_⟩
        constructor <;> simp_all [call, wire]
      · have valid := valid_request fits command below 1
        have whole : sentBuff inBuff = inBuff := sentBuff_of_lt (below.trans_le fits)
        refine ⟨[⟨requestHead command inBuff 1, inBuff⟩], [(callback, command, inBuff)], ?_⟩
        constructor <;>
          simp_all [call, wire, Packet.toBytes, Packet.invokes, Packet.responses, Packet.isResponse,
            requestHead, request_not_response]

theorem perform_performed {limit : ℕ} (fits : limit ≤ 2 ^ 31) (commands : CommandsHandler Ctx Id)
    (s : ProtocolHandler Ctx Id) {calls : List (Call Id)}
    (below : ∀ made ∈ calls, made.Below limit) :
    ∃ packets invokes, Performed limit s (perform commands s calls) packets invokes := by
  induction calls generalizing s with
  | nil => exact ⟨[], [], .refl s⟩
  | cons made calls inductionHypothesis =>
      obtain ⟨packets, invokes, first⟩ := call_performed fits commands s (below made (by simp))
      obtain ⟨packets', invokes', rest⟩ :=
        inductionHypothesis (call commands s made) fun other inside =>
          below other (by simp [inside])
      exact ⟨_, _, first.trans rest⟩

theorem closeCalled_close (commands : CommandsHandler Ctx Id) (s : ProtocolHandler Ctx Id)
    (sendQueIsEmpty : Bool) :
    (close commands s sendQueIsEmpty).closeCalled = true := by
  unfold close
  cases sendQueIsEmpty with
  | false => rfl
  | true => exact (shutdown_performed 0 commands { s with closeCalled := true }).closed rfl

/-- The handler that makes the calls may also have changed the context. -/
theorem perform_context_performed {limit : ℕ} (fits : limit ≤ 2 ^ 31)
    (commands : CommandsHandler Ctx Id) (s : ProtocolHandler Ctx Id) (context : Ctx)
    {calls : List (Call Id)} (below : ∀ made ∈ calls, made.Below limit) :
    ∃ packets invokes,
      Performed limit s (perform commands { s with context } calls) packets invokes := by
  have first : Performed limit s { s with context } [] [] := by
    constructor <;> simp [wire]
  obtain ⟨packets, invokes, rest⟩ := perform_performed fits commands { s with context } below
  exact ⟨_, _, first.trans rest⟩

/-! ## What both sides have done -/

/-- What `p` called and what `q` handled, with the packets that are on their way to each.
Once `p` is shut down responses to it are lost, and once `q` is not alive its last result may
not have been sent. -/
structure Logs (p q : ProtocolHandler Ctx Id) (qAlive : Bool) (toP toQ : List Packet) : Prop where
  commands : p.invoked.map Prod.snd = q.handled.map Prod.fst ++ toQ.flatMap Packet.invokes
  answered : p.completed.map Prod.snd <+: q.handled.map Prod.snd
  results : p.wasShutdown = false →
    p.completed.map Prod.snd ++ toP.flatMap Packet.responses <+: q.handled.map Prod.snd
  allResults : p.wasShutdown = false → qAlive = true →
    p.completed.map Prod.snd ++ toP.flatMap Packet.responses = q.handled.map Prod.snd
  order : p.completed.map Prod.fst <+: p.invoked.map Prod.fst
  callbacks : p.wasShutdown = false →
    p.invoked.map Prod.fst = p.completed.map Prod.fst ++ p.invokeResponseHandlers.map Prod.fst
  released : p.wasShutdown = true → p.invokeResponseHandlers = []

namespace Logs

variable {limit : ℕ} {p p' q q' : ProtocolHandler Ctx Id} {qAlive : Bool}
  {toP toQ new : List Packet} {packet : Packet} {made : List (Id × UInt32 × Bytes)}

theorem caller_performed (logs : Logs p q qAlive toP toQ)
    (performed : Performed limit p p' new made) :
    Logs p' q qAlive toP (toQ ++ new) where
  commands := by
    rw [performed.invoked, List.map_append, performed.invokes, logs.commands, List.flatMap_append,
      List.append_assoc]
  answered := by
    rw [performed.completed]
    exact logs.answered
  results isOpen := by
    rw [performed.completed]
    exact logs.results (performed.callbacks isOpen).1
  allResults isOpen := by
    rw [performed.completed]
    exact logs.allResults (performed.callbacks isOpen).1
  order := by
    rw [performed.completed, performed.invoked, List.map_append]
    exact logs.order.trans (List.prefix_append _ _)
  callbacks isOpen := by
    obtain ⟨wasOpen, handlers⟩ := performed.callbacks isOpen
    rw [performed.completed, performed.invoked, handlers, List.map_append, logs.callbacks wasOpen]
    simp
  released := performed.released logs.released

theorem server_performed (logs : Logs p q qAlive toP toQ)
    (performed : Performed limit q q' new made) :
    Logs p q' qAlive (toP ++ new) toQ := by
  have responses : (toP ++ new).flatMap Packet.responses = toP.flatMap Packet.responses := by
    rw [List.flatMap_append, performed.responses, List.append_nil]
  obtain ⟨commands, answered, results, allResults, order, callbacks, released⟩ := logs
  rw [← performed.handled] at commands answered results allResults
  rw [← responses] at results allResults
  exact ⟨commands, answered, results, allResults, order, callbacks, released⟩

/-- What is no response is dropped by the one who calls. -/
theorem caller_drops (logs : Logs p q qAlive (packet :: toP) toQ)
    (drops : p.wasShutdown = false → packet.responses = []) :
    Logs p q qAlive toP toQ where
  commands := logs.commands
  answered := logs.answered
  results isOpen := by simpa [drops isOpen] using logs.results isOpen
  allResults isOpen := by simpa [drops isOpen] using logs.allResults isOpen
  order := logs.order
  callbacks := logs.callbacks
  released := logs.released

/-- What is no invoke is dropped by the one who serves. -/
theorem server_drops (logs : Logs p q qAlive toP (packet :: toQ)) (drops : packet.invokes = []) :
    Logs p q qAlive toP toQ where
  commands := by simpa [drops] using logs.commands
  answered := logs.answered
  results := logs.results
  allResults := logs.allResults
  order := logs.order
  callbacks := logs.callbacks
  released := logs.released

/-- There is a callback for every response. -/
theorem exists_callback (logs : Logs p q qAlive (packet :: toP) toQ)
    (isOpen : p.wasShutdown = false) (isResponse : packet.isResponse = true) :
    p.invokeResponseHandlers ≠ [] := by
  intro none
  have results := (logs.results isOpen).length_le
  have commands := congrArg List.length logs.commands
  have callbacks := congrArg List.length (logs.callbacks isOpen)
  simp [Packet.responses, isResponse, none] at results commands callbacks
  omega

/-- The oldest callback is given the response. -/
theorem caller_completes (logs : Logs p q qAlive (packet :: toP) toQ)
    (isResponse : packet.isResponse = true) {callback : Id} {fired : Bool}
    {others : List (Id × Bool)} (oldest : p.invokeResponseHandlers = (callback, fired) :: others) :
    Logs
      { p with
        invokeResponseHandlers := others,
          completed := p.completed ++ [(callback, packet.head.returnCode, packet.body)] }
      q qAlive toP toQ := by
  have isOpen : p.wasShutdown = false := by
    by_contra isShut
    simp [logs.released (by simpa using isShut)] at oldest
  have results := logs.results isOpen
  have callbacks := logs.callbacks isOpen
  simp only [List.flatMap_cons, Packet.responses, isResponse, if_true,
    List.singleton_append] at results
  simp only [oldest, List.map_cons] at callbacks
  refine ⟨logs.commands, ?_, fun _ => ?_, fun _ alive => ?_, ?_, fun _ => ?_,
    fun isShut => by simp [isOpen] at isShut⟩
  · exact (by simp : _ <+: _ ++
      (packet.head.returnCode, packet.body) :: toP.flatMap Packet.responses).trans results
  · simpa using results
  · simpa [Packet.responses, isResponse] using logs.allResults isOpen alive
  · simp [callbacks]
  · simp [callbacks]

/-- What the one who calls returns is no call of its own. -/
theorem caller_replies (logs : Logs p q qAlive toP toQ) (noInvoke : packet.invokes = []) :
    Logs p q qAlive toP (toQ ++ [packet]) where
  commands := by simpa [noInvoke] using logs.commands
  answered := logs.answered
  results := logs.results
  allResults := logs.allResults
  order := logs.order
  callbacks := logs.callbacks
  released := logs.released

/-- The one who serves has handled an invoke, and may have sent what was returned. -/
theorem server_handles (logs : Logs p q true toP (packet :: toQ)) {command : UInt32} {body : Bytes}
    (isInvoke : packet.invokes = [(command, body)]) (result : UInt32 × Bytes) (reply : List Packet)
    (replied : reply.flatMap Packet.responses <+: [result])
    (sent : qAlive = true → reply.flatMap Packet.responses = [result]) :
    Logs p { q with handled := q.handled ++ [((command, body), result)] } qAlive
      (toP ++ reply) toQ where
  commands := by simpa [isInvoke] using logs.commands
  answered := by
    rw [List.map_append]
    exact logs.answered.trans (List.prefix_append _ _)
  results isOpen := by
    rw [List.map_append, List.flatMap_append, ← List.append_assoc, logs.allResults isOpen rfl]
    exact (List.prefix_append_right_inj _).mpr replied
  allResults isOpen alive := by
    rw [List.map_append, List.flatMap_append, ← List.append_assoc, logs.allResults isOpen rfl,
      sent alive]
    rfl
  order := logs.order
  callbacks := logs.callbacks
  released := logs.released

theorem server_congr (logs : Logs p q qAlive toP toQ) (handled : q'.handled = q.handled) :
    Logs p q' qAlive toP toQ := by
  obtain ⟨commands, answered, results, allResults, order, callbacks, released⟩ := logs
  rw [← handled] at commands answered results allResults
  exact ⟨commands, answered, results, allResults, order, callbacks, released⟩

theorem server_dies (logs : Logs p q true toP toQ) : Logs p q qAlive toP toQ where
  commands := logs.commands
  answered := logs.answered
  results := logs.results
  allResults isOpen _ := logs.allResults isOpen rfl
  order := logs.order
  callbacks := logs.callbacks
  released := logs.released

end Logs

/-! ## One packet -/

theorem Performed.unfired {limit : ℕ} {s s' : ProtocolHandler Ctx Id} {packets : List Packet}
    {made : List (Id × UInt32 × Bytes)} (performed : Performed limit s s' packets made)
    (released : s.wasShutdown = true → s.invokeResponseHandlers = [])
    (unfired : ∀ handler ∈ s.invokeResponseHandlers, handler.2 = false) :
    ∀ handler ∈ s'.invokeResponseHandlers, handler.2 = false := by
  intro handler inside
  cases wasShutdown : s'.wasShutdown with
  | true =>
      rw [performed.released released wasShutdown] at inside
      cases inside
  | false =>
      rw [(performed.callbacks wasShutdown).2] at inside
      grind

/-- What became of a side that handled a packet, and what it sent. -/
structure Handled (limit : ℕ) (s q : ProtocolHandler Ctx Id) (qAlive : Bool) (toP toQ : List Packet)
    (done : ProtocolHandler Ctx Id × Bool) (new : List Packet) : Prop where
  valid : ∀ packet ∈ new, packet.Valid limit
  sent : done.1.sent = s.sent ++ wire new
  called : Logs done.1 q qAlive toP (toQ ++ new)
  served : Logs q done.1 done.2 (toQ ++ new) toP
  unfired : ∀ handler ∈ done.1.invokeResponseHandlers, handler.2 = false
  refused : done.2 = false → done.1.wasShutdown = true

section Packet

variable {limit : ℕ} {commands : CommandsHandler Ctx Id} {s q : ProtocolHandler Ctx Id}
  {qAlive : Bool} {packet : Packet} {toP toQ : List Packet}

theorem handleResponse_handled (fits : limit ≤ 2 ^ 31) (below : commands.Below limit)
    (called : Logs s q qAlive (packet :: toP) toQ) (served : Logs q s true toQ (packet :: toP))
    (isHead : s.currentHead = packet.head) (isResponse : packet.isResponse = true)
    (unfired : ∀ handler ∈ s.invokeResponseHandlers, handler.2 = false) :
    ∃ new, Handled limit s q qAlive toP toQ (handleResponse commands s packet.body) new := by
  obtain ⟨head, body⟩ := packet
  obtain rfl : s.currentHead = head := isHead
  have served' : Logs q s true toQ toP := served.server_drops (by simp [Packet.invokes, isResponse])
  unfold handleResponse
  split
  next callback fired others oldest =>
    obtain rfl : fired = false := unfired (callback, fired) (by simp [oldest])
    have completes := called.caller_completes isResponse oldest
    let popped : ProtocolHandler Ctx Id :=
      { s with
        invokeResponseHandlers := others
        completed := s.completed ++ [(callback, s.currentHead.returnCode, body)] }
    have servedPopped : Logs q popped true toQ toP := served'.server_congr rfl
    obtain ⟨new, made, performed⟩ := perform_context_performed fits commands popped
      (commands.callback s.context callback s.currentHead.returnCode body).1
      (below.callback s.context callback s.currentHead.returnCode body)
    have called' := completes.caller_performed performed
    have served'' := servedPopped.server_performed performed
    have unfired' := performed.unfired completes.released fun handler inside =>
      unfired handler (by rw [oldest]; exact List.mem_cons_of_mem _ inside)
    refine ⟨new, ?_⟩
    rw [if_neg Bool.false_ne_true]
    exact ⟨performed.valid, performed.sent, { called' with }, served''.server_congr rfl,
      unfired', by simp⟩
  next oldest =>
    have wasShutdown : s.wasShutdown = true := by
      by_contra isOpen
      exact called.exists_callback (by simpa using isOpen) isResponse oldest
    have called' : Logs s q qAlive toP toQ := called.caller_drops fun isOpen => by
      simp [wasShutdown] at isOpen
    refine ⟨[], ?_⟩
    rw [← List.append_nil toQ] at called' served'
    split
    · exact ⟨by simp, by simp [wire], called', served'.server_dies, unfired, fun _ => wasShutdown⟩
    · exact ⟨by simp, by simp [wire], { called' with }, served'.server_congr rfl, unfired, by simp⟩

theorem handleNotify_handled (fits : limit ≤ 2 ^ 31) (below : commands.Below limit)
    (called : Logs s q qAlive (packet :: toP) toQ) (served : Logs q s true toQ (packet :: toP))
    (isRequest : packet.isResponse = false) (isNotify : packet.head.haveToReturnData = 0)
    (unfired : ∀ handler ∈ s.invokeResponseHandlers, handler.2 = false) :
    ∃ new, Handled limit s q qAlive toP toQ (handleNotify commands s packet.body, true) new := by
  obtain ⟨new, made, performed⟩ := perform_context_performed fits commands s
    (commands.notify s.context s.currentHead.command packet.body).1
      (below.notify s.context s.currentHead.command packet.body)
  have called' : Logs s q qAlive toP toQ := called.caller_drops fun _ => by
    simp [Packet.responses, isRequest]
  have served' : Logs q s true toQ toP := served.server_drops (by simp [Packet.invokes, isNotify])
  exact ⟨new, performed.valid, performed.sent, called'.caller_performed performed,
    served'.server_performed performed, performed.unfired called.released unfired, by simp⟩

theorem valid_response (fits : limit ≤ 2 ^ 31) {head : BucketHead2}
    (signature : head.signature = levinSignature) (returnCode : UInt32) {returnBuff : Bytes}
    (small : returnBuff.length < limit) :
    Packet.Valid limit ⟨responseHead head returnCode returnBuff, returnBuff⟩ where
  signature := signature
  size := by
    rw [responseHead, UInt64.toNat_ofNat']
    exact Nat.mod_eq_of_lt ((small.trans_le fits).trans_le (by decide))
  version := rfl
  small := small

theorem handleInvoke_handled (fits : limit ≤ 2 ^ 31) (below : commands.Below limit)
    (called : Logs s q qAlive (packet :: toP) toQ) (served : Logs q s true toQ (packet :: toP))
    (isHead : s.currentHead = packet.head) (signature : packet.head.signature = levinSignature)
    (isRequest : packet.isResponse = false) (isInvoke : packet.head.haveToReturnData ≠ 0)
    (unfired : ∀ handler ∈ s.invokeResponseHandlers, handler.2 = false) :
    ∃ new, Handled limit s q qAlive toP toQ (handleInvoke commands s packet.body) new := by
  obtain ⟨small, belows⟩ := below.invoke s.context s.currentHead.command packet.body
  obtain ⟨new, made, performed⟩ := perform_context_performed fits commands s
    (commands.invoke s.context s.currentHead.command packet.body).1 belows
  have called' : Logs s q qAlive toP toQ := called.caller_drops fun _ => by
    simp [Packet.responses, isRequest]
  have calls := called'.caller_performed performed
  have serves := served.server_performed performed
  have unfired' := performed.unfired called.released unfired
  have isInvokes : packet.invokes = [(s.currentHead.command, packet.body)] := by
    simp [Packet.invokes, isRequest, isInvoke, isHead]
  set result := (commands.invoke s.context s.currentHead.command packet.body).2.2
  set done := perform commands
    { s with context := (commands.invoke s.context s.currentHead.command packet.body).1 }
    (commands.invoke s.context s.currentHead.command packet.body).2.1
  let reply : Packet := ⟨responseHead s.currentHead result.1 result.2, result.2⟩
  have valid : reply.Valid limit := valid_response fits (isHead ▸ signature) result.1 small
  have replies : [reply].flatMap Packet.responses = [result] := by
    simp [reply, Packet.responses, Packet.isResponse, responseHead, response_ne_zero]
  have noInvoke : reply.invokes = [] := by simp [reply, Packet.invokes, responseHead]
  unfold handleInvoke
  dsimp only
  split
  next wasShutdown =>
    have served' : Logs q _ false _ _ :=
      serves.server_handles isInvokes result [] List.nil_prefix (by simp)
    rw [List.append_nil] at served'
    exact ⟨new, performed.valid, performed.sent, { calls with }, served'.server_congr rfl, unfired',
      fun _ => wasShutdown⟩
  next isOpen =>
    have calls' := calls.caller_replies noInvoke
    have served' : Logs q _ true _ _ :=
      serves.server_handles isInvokes result [reply] (by rw [replies]) fun _ => replies
    rw [List.append_assoc] at calls' served'
    refine ⟨new ++ [reply], ?_, ?_, { calls' with }, served'.server_congr rfl, unfired', by simp⟩
    · exact List.forall_mem_append.mpr ⟨performed.valid, List.forall_mem_singleton.mpr valid⟩
    · change done.sent ++ _ = _
      rw [performed.sent, wire, wire, List.flatMap_append, List.append_assoc,
        List.flatMap_singleton]
      rfl

theorem handleBody_handled (fits : limit ≤ 2 ^ 31) (below : commands.Below limit)
    (called : Logs s q qAlive (packet :: toP) toQ) (served : Logs q s true toQ (packet :: toP))
    (valid : packet.Valid limit) (isHead : s.currentHead = packet.head)
    (isVersion : s.oponentProtocolVer = packet.head.protocolVersion)
    (unfired : ∀ handler ∈ s.invokeResponseHandlers, handler.2 = false) :
    ∃ new, Handled limit s q qAlive toP toQ (handleBody commands s packet.body) new := by
  have isKind : s.isResponse = packet.isResponse := by
    simp [ProtocolHandler.isResponse, Packet.isResponse, isVersion, valid.version, isHead]
  unfold handleBody
  rw [isKind]
  split
  next isResponse => exact handleResponse_handled fits below called served isHead isResponse unfired
  next isRequest =>
    have isRequest : packet.isResponse = false := by simpa using isRequest
    split
    next isInvoke =>
      exact handleInvoke_handled fits below called served isHead valid.signature isRequest
        (isHead ▸ isInvoke) unfired
    next isNotify =>
      exact handleNotify_handled fits below called served isRequest
        (by simpa [isHead] using isNotify) unfired

end Packet

/-! ## Both directions -/

/-- What is on its way to `p`, of which so many bytes have come. -/
structure Stream (limit : ℕ) (p q : Connection Ctx Id) (received : ℕ)
    (toP : List Packet) : Prop where
  valid : ∀ packet ∈ toP, packet.Valid limit
  received_le : received ≤ q.state.sent.length
  pending : p.alive = true → Pending p.state (p.cache ++ q.state.sent.drop received) toP

structure Linked (limit : ℕ) (p q : Connection Ctx Id) (pReceived qReceived : ℕ)
    (toP toQ : List Packet) : Prop where
  called : Logs p.state q.state q.alive toP toQ
  served : Logs q.state p.state p.alive toQ toP
  incoming : Stream limit p q pReceived toP
  outgoing : Stream limit q p qReceived toQ

/-- What the socket is read into. -/
def bufferSize : ℕ := 8192

section Linked

variable {limit : ℕ} {config : Config Ctx Id} {p p' q : Connection Ctx Id}
  {s' : ProtocolHandler Ctx Id} {pReceived qReceived : ℕ} {toP toQ new : List Packet}
  {made : List (Id × UInt32 × Bytes)}

theorem Linked.symm (linked : Linked limit p q pReceived qReceived toP toQ) :
    Linked limit q p qReceived pReceived toQ toP :=
  ⟨linked.served, linked.called, linked.outgoing, linked.incoming⟩

theorem Stream.sends (stream : Stream limit q p qReceived toQ)
    (valid : ∀ packet ∈ new, packet.Valid limit) (sent : p'.state.sent = p.state.sent ++ wire new) :
    Stream limit q p' qReceived (toQ ++ new) where
  valid := List.forall_mem_append.mpr ⟨stream.valid, valid⟩
  received_le := by
    rw [sent, List.length_append]
    exact stream.received_le.trans (Nat.le_add_right _ _)
  pending alive := by
    rw [sent, List.drop_append_of_le_length stream.received_le, ← List.append_assoc]
    exact (stream.pending alive).append new

/-- Calls that a side makes go to the other side. -/
theorem Linked.performs (linked : Linked limit p q pReceived qReceived toP toQ)
    (performed : Performed limit p.state s' new made) :
    Linked limit { p with state := s' } q pReceived qReceived toP (toQ ++ new) where
  called := linked.called.caller_performed performed
  served := linked.served.server_performed performed
  incoming := by
    refine ⟨linked.incoming.valid, linked.incoming.received_le, fun alive => ?_⟩
    have pending := linked.incoming.pending alive
    unfold Pending at pending ⊢
    rwa [performed.state, performed.currentHead, performed.oponentProtocolVer]
  outgoing := linked.outgoing.sends performed.valid performed.sent

theorem split_front {front back first rest : Bytes} (same : front ++ back = first ++ rest)
    (within : first.length ≤ front.length) :
    front.take first.length = first ∧ front.drop first.length ++ back = rest := by
  have starts := congrArg (List.take first.length) same
  have ends := congrArg (List.drop first.length) same
  rw [List.take_append_of_le_length within, List.take_left] at starts
  rw [List.drop_append_of_le_length within, List.drop_left] at ends
  exact ⟨starts, ends⟩

/-- What holds of a side while it takes from what has come. -/
def Receiving (limit : ℕ) (config : Config Ctx Id) (q : Connection Ctx Id) (pReceived qReceived : ℕ)
    (p : Connection Ctx Id) : Prop :=
  (∃ toP toQ, Linked limit p q pReceived qReceived toP toQ) ∧
    (∀ handler ∈ p.state.invokeResponseHandlers, handler.2 = false) ∧
    (p.alive = false → p.state.wasShutdown = true ∨ config.maxPacketSize < limit)

/-- The bytes of a head are those of the packet that comes first. -/
theorem exists_packet {buffer later : Bytes} (valid : ∀ packet ∈ toP, packet.Valid limit)
    (isWire : buffer ++ later = wire toP) (enough : 8 ≤ buffer.length) :
    ∃ packet others, toP = packet :: others ∧ packet.Valid limit ∧
      LittleEndian.get (buffer.take 8) = levinSignature.toNat ∧
        (sizeofHead ≤ buffer.length → BucketHead2.ofBytes (buffer.take sizeofHead) = packet.head ∧
          buffer.drop sizeofHead ++ later = packet.body ++ wire others) := by
  obtain - | ⟨packet, others⟩ := toP
  · have := congrArg List.length isWire
    simp only [List.length_append, wire, List.flatMap_nil, List.length_nil] at this
    omega
  · have isValid := valid packet (by simp)
    have cut : buffer ++ later = packet.head.toBytes ++ (packet.body ++ wire others) := by
      rw [isWire, wire, List.flatMap_cons, Packet.toBytes, List.append_assoc, wire]
    refine ⟨packet, others, rfl, isValid, ?_, fun whole => ?_⟩
    · have first8 : buffer.take 8 = packet.head.toBytes.take 8 := by
        have := congrArg (List.take 8) cut
        rwa [List.take_append_of_le_length enough,
          List.take_append_of_le_length (by simp [sizeofHead])] at this
      rw [first8, BucketHead2.toBytes, LittleEndian.get_put_append_take, isValid.signature]
      rfl
    · rw [← length_toBytes packet.head] at whole ⊢
      obtain ⟨isHead, isRest⟩ := split_front cut whole
      exact ⟨by rw [isHead, ofBytes_toBytes], isRest⟩

theorem receiving_advance (fits : limit ≤ 2 ^ 31) (below : config.commands.Below limit)
    {s s' : ProtocolHandler Ctx Id} {buffer : Bytes} {consumed : ℕ}
    (receiving : Receiving limit config q pReceived qReceived ⟨s, buffer, true⟩)
    (advances : next config s buffer = .advance s' consumed) :
    Receiving limit config q pReceived qReceived ⟨s', buffer.drop consumed, true⟩ := by
  obtain ⟨⟨toP, toQ, linked⟩, unfired, -⟩ := receiving
  have pending := linked.incoming.pending rfl
  have within := linked.incoming.received_le
  rcases next_eq_advance.mp advances with
    ⟨isBody, isSize, enough, done, isDone, rfl⟩ | ⟨isHead, rfl, enough, head, rfl, -, -, rfl⟩
  · simp only [Pending, isBody] at pending
    obtain ⟨packet, others, rfl, isCurrent, isVersion, isBytes⟩ := pending
    have valid := linked.incoming.valid packet (by simp)
    obtain rfl : consumed = packet.body.length := by rw [isSize, isCurrent, valid.size]
    obtain ⟨isPacket, isRest⟩ := split_front isBytes enough
    obtain ⟨new, handled⟩ :=
      handleBody_handled fits below linked.called linked.served valid isCurrent isVersion unfired
    rw [← isPacket, isDone] at handled
    refine ⟨⟨others, toQ ++ new, { handled.called with }, handled.served.server_congr rfl, ?_, ?_⟩,
      handled.unfired, by simp⟩
    · exact ⟨fun other inside => linked.incoming.valid other (by simp [inside]), within,
        fun _ => isRest⟩
    · exact linked.outgoing.sends handled.valid handled.sent
  · simp only [Pending, isHead] at pending
    obtain ⟨packet, others, rfl, valid, -, whole⟩ :=
      exists_packet linked.incoming.valid pending (le_trans (by decide) enough)
    obtain ⟨isPacket, isRest⟩ := whole enough
    refine ⟨⟨packet :: others, toQ, { linked.called with }, linked.served.server_congr rfl, ?_, ?_⟩,
      unfired, by simp⟩
    · exact ⟨linked.incoming.valid, within,
        fun _ => ⟨packet, others, rfl, isPacket, by rw [isPacket], isRest⟩⟩
    · exact { linked.outgoing with }

theorem receiving_fail (fits : limit ≤ 2 ^ 31) (below : config.commands.Below limit)
    {s s' : ProtocolHandler Ctx Id} {buffer : Bytes}
    (receiving : Receiving limit config q pReceived qReceived ⟨s, buffer, true⟩)
    (fails : next config s buffer = .fail s') :
    Receiving limit config q pReceived qReceived ⟨s', buffer, false⟩ := by
  obtain ⟨⟨toP, toQ, linked⟩, unfired, -⟩ := receiving
  have pending := linked.incoming.pending rfl
  have within := linked.incoming.received_le
  rcases next_eq_fail.mp fails with
    ⟨isBody, enough, isDone⟩ | ⟨isHead, -, enough, mismatch, -⟩ |
    ⟨isHead, enough, head, rfl, invalid⟩
  · simp only [Pending, isBody] at pending
    obtain ⟨packet, others, rfl, isCurrent, isVersion, isBytes⟩ := pending
    have valid := linked.incoming.valid packet (by simp)
    rw [isCurrent, valid.size] at enough isDone
    obtain ⟨isPacket, isRest⟩ := split_front isBytes enough
    obtain ⟨new, handled⟩ :=
      handleBody_handled fits below linked.called linked.served valid isCurrent isVersion unfired
    rw [← isPacket, isDone] at handled
    refine ⟨⟨others, toQ ++ new, handled.called, handled.served, ?_, ?_⟩, handled.unfired,
      fun _ => .inl (handled.refused rfl)⟩
    · exact ⟨fun other inside => linked.incoming.valid other (by simp [inside]), within, by simp⟩
    · exact linked.outgoing.sends handled.valid handled.sent
  · simp only [Pending, isHead] at pending
    obtain ⟨packet, others, rfl, valid, isSignature, -⟩ :=
      exists_packet linked.incoming.valid pending enough
    exact absurd isSignature mismatch
  · simp only [Pending, isHead] at pending
    obtain ⟨packet, others, rfl, valid, -, whole⟩ :=
      exists_packet linked.incoming.valid pending (le_trans (by decide) enough)
    obtain ⟨isPacket, -⟩ := whole enough
    rw [isPacket] at invalid
    rcases invalid with ⟨mismatch, -⟩ | ⟨-, tooLarge, rfl⟩
    · exact absurd valid.signature mismatch
    · rw [valid.size] at tooLarge
      refine ⟨⟨packet :: others, toQ, { linked.called with },
        linked.served.server_dies.server_congr rfl, ?_, ?_⟩, unfired, ?_⟩
      · exact ⟨linked.incoming.valid, within, by simp⟩
      · exact { linked.outgoing with }
      · exact fun _ => .inr (tooLarge.trans valid.small)

/-- What holds of a side between the pieces: it has used up what it can, timers fire only on what
they close, and if it gave up there was a reason. -/
structure Resting (limit : ℕ) (config : Config Ctx Id) (p : Connection Ctx Id) : Prop where
  settled : p.alive = true → next config p.state p.cache = .wait
  unfired : p.state.closeCalled = false →
    ∀ handler ∈ p.state.invokeResponseHandlers, handler.2 = false
  refused : p.alive = false →
    p.state.closeCalled = true ∨ p.state.wasShutdown = true ∨
      config.maxPacketSize < limit + sizeofHead + bufferSize

theorem Resting.performs (resting : Resting limit config p)
    (performed : Performed limit p.state s' new made)
    (released : p.state.wasShutdown = true → p.state.invokeResponseHandlers = []) :
    Resting limit config { p with state := s' } where
  settled alive := by
    have settled := next_eq_wait.mp (resting.settled alive)
    rw [← performed.state, ← performed.currentHead] at settled
    exact next_eq_wait.mpr settled
  unfired isOpen := performed.unfired released (resting.unfired (by
    by_contra closed
    simp [performed.closed (by simpa using closed)] at isOpen))
  refused dead := by
    rcases resting.refused dead with closed | isShut | small
    · exact .inl (performed.closed closed)
    · refine .inr (.inl ?_)
      by_contra isOpen
      exact absurd (performed.callbacks (by simpa using isOpen)).1 (by simp [isShut])
    · exact .inr (.inr small)

/-- A timer that fires marks its callback. -/
theorem Linked.timesOut (linked : Linked limit p q pReceived qReceived toP toQ) {place : ℕ}
    {callback : Id} (waits : p.state.invokeResponseHandlers[place]? = some (callback, false)) :
    Linked limit { p with state := { p.state with
      invokeResponseHandlers := p.state.invokeResponseHandlers.set place (callback, true) } }
      q pReceived qReceived toP toQ := by
  have sameIds : (p.state.invokeResponseHandlers.set place (callback, true)).map Prod.fst =
      p.state.invokeResponseHandlers.map Prod.fst := by
    apply List.ext_getElem?
    grind
  refine ⟨{ linked.called with callbacks := fun isOpen => ?_, released := fun isShut => ?_ },
    linked.served.server_congr rfl, ?_, ?_⟩
  · rw [sameIds]
    exact linked.called.callbacks isOpen
  · rw [linked.called.released isShut] at waits
    cases waits
  · exact { linked.incoming with }
  · exact { linked.outgoing with }

/-- The rest of what is done then is to call the callback and to close. -/
theorem timeout_linked (fits : limit ≤ 2 ^ 31) (below : config.commands.Below limit)
    (linked : Linked limit p q pReceived qReceived toP toQ) (resting : Resting limit config p)
    {place : ℕ} {sendQueIsEmpty : Bool}
    (fires : timeout config.commands p.state place sendQueIsEmpty = some s') :
    (∃ toP' toQ', Linked limit { p with state := s' } q pReceived qReceived toP' toQ') ∧
      Resting limit config { p with state := s' } := by
  unfold timeout at fires
  split at fires
  next callback waits =>
    let marked : ProtocolHandler Ctx Id :=
      { p.state with
        invokeResponseHandlers := p.state.invokeResponseHandlers.set place (callback, true) }
    obtain ⟨packets, made, performed⟩ := perform_context_performed fits config.commands marked
      (config.commands.callback p.state.context callback levinErrorConnectionTimedout []).1
      (below.callback p.state.context callback levinErrorConnectionTimedout [])
    have closes := performed.trans (close_performed limit config.commands _ sendQueIsEmpty)
    have all : Performed limit marked s' (packets ++ [] ++ []) (made ++ [] ++ []) := by
      obtain rfl := Option.some.inj fires
      exact closes.trans (.waitCount _ _)
    have closed : s'.closeCalled = true := by
      obtain rfl := Option.some.inj fires
      exact closeCalled_close config.commands _ sendQueIsEmpty
    refine ⟨⟨_, _, (linked.timesOut waits).performs all⟩, fun alive => ?_, by simp [closed],
      fun _ => .inl closed⟩
    have settled := next_eq_wait.mp (resting.settled alive)
    exact next_eq_wait.mpr (by rwa [all.state, all.currentHead])
  next => cases fires

/-- What a side has gathered is less than a head or a body. -/
theorem cache_lt (linked : Linked limit p q pReceived qReceived toP toQ)
    (resting : Resting limit config p) (alive : p.alive = true) :
    p.cache.length < limit + sizeofHead := by
  have pending := linked.incoming.pending alive
  rcases next_eq_wait.mp (resting.settled alive) with ⟨isBody, short⟩ | ⟨isHead, short, -⟩
  · simp only [Pending, isBody] at pending
    obtain ⟨packet, others, rfl, isCurrent, -, -⟩ := pending
    have valid := linked.incoming.valid packet (by simp)
    rw [isCurrent, valid.size] at short
    exact short.trans (valid.small.trans_le (Nat.le_add_right _ _))
  · exact short.trans_le (Nat.le_add_left _ _)

/-- A piece of what the other side sent. -/
theorem handleRecv_linked (fits : limit ≤ 2 ^ 31) (below : config.commands.Below limit)
    (linked : Linked limit p q pReceived qReceived toP toQ) (resting : Resting limit config p)
    (alive : p.alive = true) {count : ℕ} (small : count ≤ bufferSize)
    (sent : pReceived + count ≤ q.state.sent.length) :
    (∃ toP' toQ', Linked limit (handleRecv config p ((q.state.sent.drop pReceived).take count)) q
      (pReceived + count) qReceived toP' toQ') ∧
      Resting limit config (handleRecv config p ((q.state.sent.drop pReceived).take count)) := by
  set piece := (q.state.sent.drop pReceived).take count with isPiece
  have length : piece.length = count := by
    rw [isPiece, List.length_take, List.length_drop]
    omega
  have rest : piece ++ q.state.sent.drop (pReceived + count) = q.state.sent.drop pReceived := by
    rw [← List.drop_drop, isPiece, List.take_append_drop]
  have served : Logs q.state p.state true toQ toP := by
    rw [← alive]
    exact linked.served
  have dies : Linked limit { p with alive := false } q (pReceived + count) qReceived toP toQ :=
    ⟨linked.called, served.server_dies, ⟨linked.incoming.valid, sent, by simp⟩,
      { linked.outgoing with }⟩
  unfold handleRecv
  split
  next closed => exact ⟨⟨toP, toQ, dies⟩, by simp, by simp [closed], fun _ => .inl closed⟩
  next isOpen =>
    have isOpen : p.state.closeCalled = false := by simpa using isOpen
    split
    next tooLarge =>
      refine ⟨⟨toP, toQ, dies⟩, by simp, fun _ => resting.unfired isOpen, fun _ => .inr (.inr ?_)⟩
      have := cache_lt linked resting alive
      omega
    next =>
      have begins : Receiving limit config q (pReceived + count) qReceived
          ⟨p.state, p.cache ++ piece, true⟩ := by
        refine ⟨⟨toP, toQ, { linked.called with }, served,
          ⟨linked.incoming.valid, sent, fun _ => ?_⟩, ?_⟩, ?_, by simp⟩
        · rw [List.append_assoc, rest]
          exact linked.incoming.pending alive
        · exact { linked.outgoing with }
        · exact resting.unfired isOpen
      have kept : Receiving limit config q (pReceived + count) qReceived
          (Reassembly.drain (framing config) p.state (p.cache ++ piece)) :=
        Reassembly.drain_preserves (receiving_advance fits below) (receiving_fail fits below) begins
      obtain ⟨⟨toP', toQ', linked'⟩, unfired, refused⟩ := kept
      refine ⟨⟨toP', toQ', linked'⟩, ⟨Reassembly.drain_waits _ _, fun _ => unfired, fun dead => ?_⟩⟩
      rcases refused dead with isShut | small
      · exact .inr (.inl isShut)
      · exact .inr (.inr (small.trans_le (by omega)))

end Linked

/-! ## Runs -/

structure Endpoint (Ctx Id : Type*) where
  connection : Connection Ctx Id
  received : ℕ

/-- What happens at a side. -/
inductive Event (Id : Type*) where
  | call (made : Call Id)
  | receive (count : ℕ)
  | timeout (place : ℕ) (sendQueIsEmpty : Bool)
  | shutdown

def Event.Below (limit : ℕ) : Event Id → Prop
  | .call made => made.Below limit
  | _ => True

/-- A side that gave up receives no more. Calls and timers know nothing of that. -/
def Endpoint.happen (config : Config Ctx Id) (p q : Endpoint Ctx Id) :
    Event Id → Option (Endpoint Ctx Id)
  | .call made => some { p with connection.state := call config.commands p.connection.state made }
  | .receive count =>
      if p.connection.alive ∧ count ≤ bufferSize ∧
        p.received + count ≤ q.connection.state.sent.length then
        some
          { connection := handleRecv config p.connection
              ((q.connection.state.sent.drop p.received).take count)
            received := p.received + count }
      else none
  | .timeout place sendQueIsEmpty =>
      (timeout config.commands p.connection.state place sendQueIsEmpty).map fun state =>
        { p with connection.state := state }
  | .shutdown => some { p with connection.state := shutdown config.commands p.connection.state }

inductive Side where
  | near
  | far

structure Exchange (Ctx Id : Type*) where
  near : Endpoint Ctx Id
  far : Endpoint Ctx Id

def Exchange.new (near far : Ctx) : Exchange Ctx Id :=
  ⟨⟨⟨.new near, [], true⟩, 0⟩, ⟨⟨.new far, [], true⟩, 0⟩⟩

def Exchange.step (nearConfig farConfig : Config Ctx Id) (exchange : Exchange Ctx Id) :
    Side × Event Id → Option (Exchange Ctx Id)
  | (.near, event) =>
      (exchange.near.happen nearConfig exchange.far event).map fun near => { exchange with near }
  | (.far, event) =>
      (exchange.far.happen farConfig exchange.near event).map fun far => { exchange with far }

section Run

variable {limit : ℕ} {config nearConfig farConfig : Config Ctx Id} {p p' q : Endpoint Ctx Id}

/-- The packets on their way are known by what both sides did. -/
def Connected (limit : ℕ) (p q : Endpoint Ctx Id) : Prop :=
  ∃ toP toQ, Linked limit p.connection q.connection p.received q.received toP toQ

theorem Connected.symm (connected : Connected limit p q) : Connected limit q p := by
  obtain ⟨toP, toQ, linked⟩ := connected
  exact ⟨toQ, toP, linked.symm⟩

/-- What happens at one side keeps both. -/
theorem happen_connected (fits : limit ≤ 2 ^ 31) (below : config.commands.Below limit)
    (connected : Connected limit p q) (resting : Resting limit config p.connection)
    {event : Event Id} (small : event.Below limit) (happens : p.happen config q event = some p') :
    Connected limit p' q ∧ Resting limit config p'.connection := by
  obtain ⟨toP, toQ, linked⟩ := connected
  cases event with
  | call made =>
      obtain rfl := Option.some.inj happens
      obtain ⟨packets, invokes, performed⟩ :=
        call_performed fits config.commands p.connection.state small
      exact ⟨⟨_, _, linked.performs performed⟩, resting.performs performed linked.called.released⟩
  | shutdown =>
      obtain rfl := Option.some.inj happens
      have performed := shutdown_performed limit config.commands p.connection.state
      exact ⟨⟨_, _, linked.performs performed⟩, resting.performs performed linked.called.released⟩
  | receive count =>
      simp only [Endpoint.happen, Option.ite_none_right_eq_some, Option.some.injEq] at happens
      obtain ⟨⟨alive, fewEnough, sent⟩, rfl⟩ := happens
      exact handleRecv_linked fits below linked resting alive fewEnough sent
  | timeout place sendQueIsEmpty =>
      obtain ⟨state, fires, rfl⟩ := Option.map_eq_some_iff.mp happens
      exact timeout_linked fits below linked resting fires

/-- What holds in every run. -/
structure Exchange.Inv (limit : ℕ) (nearConfig farConfig : Config Ctx Id)
    (exchange : Exchange Ctx Id) : Prop where
  connected : Connected limit exchange.near exchange.far
  near : Resting limit nearConfig exchange.near.connection
  far : Resting limit farConfig exchange.far.connection

theorem resting_new (context : Ctx) : Resting limit config ⟨.new context, [], true⟩ where
  settled _ := next_eq_wait.mpr (.inr ⟨rfl, by simp [sizeofHead], by simp⟩)
  unfired _ := by simp [ProtocolHandler.new]
  refused dead := by cases dead

theorem inv_new (near far : Ctx) :
    (Exchange.new near far : Exchange Ctx Id).Inv limit nearConfig farConfig := by
  refine ⟨⟨[], [], ?_, ?_, ?_, ?_⟩, resting_new near, resting_new far⟩ <;>
    constructor <;>
      simp [Exchange.new, ProtocolHandler.new, Pending, wire]

theorem step_inv (fits : limit ≤ 2 ^ 31) (nearBelow : nearConfig.commands.Below limit)
    (farBelow : farConfig.commands.Below limit) (exchange : Exchange Ctx Id)
    (action : Side × Event Id) (exchange' : Exchange Ctx Id)
    (inv : exchange.Inv limit nearConfig farConfig) (small : action.2.Below limit)
    (stepped : exchange.step nearConfig farConfig action = some exchange') :
    exchange'.Inv limit nearConfig farConfig := by
  obtain ⟨side, event⟩ := action
  cases side with
  | near =>
      obtain ⟨near, happens, rfl⟩ := Option.map_eq_some_iff.mp stepped
      obtain ⟨connected, resting⟩ :=
        happen_connected fits nearBelow inv.connected inv.near small happens
      exact ⟨connected, resting, inv.far⟩
  | far =>
      obtain ⟨far, happens, rfl⟩ := Option.map_eq_some_iff.mp stepped
      obtain ⟨connected, resting⟩ :=
        happen_connected fits farBelow inv.connected.symm inv.far small happens
      exact ⟨connected.symm, inv.near, resting⟩

theorem run_inv (fits : limit ≤ 2 ^ 31) (nearBelow : nearConfig.commands.Below limit)
    (farBelow : farConfig.commands.Below limit) {near far : Ctx} {actions : List (Side × Event Id)}
    {exchange : Exchange Ctx Id} (small : ∀ action ∈ actions, action.2.Below limit)
    (ran :
      Transition.run (Exchange.step nearConfig farConfig) (.new near far) actions = some exchange) :
    exchange.Inv limit nearConfig farConfig :=
  Transition.invariant_of_run (step_inv fits nearBelow farBelow) (inv_new near far)
    (Transition.guarded_of_forall_mem fun action inside _ => small action inside) ran

/-- Every callback that was given a response was given what the other side returned for its own
invoke, and the other side handles the invokes in the order in which they were made. -/
def Answered (p q : ProtocolHandler Ctx Id) : Prop :=
  q.handled.map Prod.fst <+: p.invoked.map Prod.snd ∧
    ∀ (place : ℕ) (callback : Id) (code : UInt32) (buff : Bytes), p.completed[place]? =
      some (callback, code, buff) →
      ∃ (command : UInt32) (inBuff : Bytes),
        p.invoked[place]? = some (callback, command, inBuff) ∧
          q.handled[place]? = some ((command, inBuff), code, buff)

theorem exists_getElem?_of_prefix {α β γ : Type*} {f : α → γ} {g : β → γ} {as : List α}
    {bs : List β} (starts : as.map f <+: bs.map g) {place : ℕ} {a : α}
    (isAt : as[place]? = some a) : ∃ b, bs[place]? = some b ∧ g b = f a := by
  obtain ⟨rest, same⟩ := starts
  have isImage : (bs.map g)[place]? = some (f a) := by
    obtain ⟨within, -⟩ := List.getElem?_eq_some_iff.mp isAt
    rw [← same, List.getElem?_append_left (by simpa using within), List.getElem?_map, isAt]
    rfl
  rw [List.getElem?_map] at isImage
  exact Option.map_eq_some_iff.mp isImage

theorem answered_of_logs {s t : ProtocolHandler Ctx Id} {alive : Bool} {toS toT : List Packet}
    (logs : Logs s t alive toS toT) :
    Answered s t := by
  have handles : t.handled.map Prod.fst <+: s.invoked.map Prod.snd := by
    rw [logs.commands]
    exact List.prefix_append _ _
  refine ⟨handles, fun place callback code buff completes => ?_⟩
  obtain ⟨⟨asker, command, inBuff⟩, isInvoked, rfl⟩ :=
    exists_getElem?_of_prefix logs.order completes
  obtain ⟨⟨request, result⟩, isHandled, rfl⟩ := exists_getElem?_of_prefix logs.answered completes
  obtain ⟨invoke, isInvoked', rfl⟩ := exists_getElem?_of_prefix handles isHandled
  obtain rfl := Option.some.inj (isInvoked.symm.trans isInvoked')
  exact ⟨command, inBuff, isInvoked, isHandled⟩

/-! ### One exchange -/

theorem framing_next (config : Config Ctx Id) : (framing config).next = next config := rfl

/-- A packet that comes whole is handled at once. -/
theorem handleRecv_packet {limit : ℕ} {config : Config Ctx Id} {s done : ProtocolHandler Ctx Id}
    {packet : Packet} (valid : packet.Valid limit) (isHead : s.state = .head)
    (isOpen : s.closeCalled = false)
    (small : packet.toBytes.length ≤ config.maxPacketSize)
    (handles : handleBody config.commands
      { s with
        currentHead := packet.head
        state := .body
        oponentProtocolVer := packet.head.protocolVersion } packet.body =
        (done, true)) :
    handleRecv config ⟨s, [], true⟩ packet.toBytes = ⟨{ done with state := .head }, [], true⟩ := by
  have length : packet.toBytes.length = sizeofHead + packet.body.length := by simp [Packet.toBytes]
  have head : (framing config).next s packet.toBytes = .advance
      { s with
        currentHead := packet.head
        state := .body
        oponentProtocolVer := packet.head.protocolVersion } sizeofHead := by
    rw [framing_next]
    refine next_eq_advance.mpr
      (.inr ⟨isHead, rfl, by omega, packet.head, ?_, valid.signature, ?_, rfl⟩)
    · rw [Packet.toBytes, List.take_left' (length_toBytes _), ofBytes_toBytes]
    · rw [valid.size]
      omega
  have body : (framing config).next
      { s with
        currentHead := packet.head
        state := .body
        oponentProtocolVer := packet.head.protocolVersion }
      (packet.toBytes.drop sizeofHead) =
        .advance { done with state := .head } packet.body.length := by
    rw [framing_next, Packet.toBytes, List.drop_left' (length_toBytes _)]
    exact next_eq_advance.mpr
      (.inl ⟨rfl, valid.size.symm, le_rfl, done, by rw [List.take_length, handles], rfl⟩)
  have waits : (framing config).next { done with state := .head }
      ((packet.toBytes.drop sizeofHead).drop packet.body.length) = .wait := by
    rw [framing_next, List.drop_drop, ← length, List.drop_length]
    exact next_eq_wait.mpr (.inr ⟨rfl, by simp [sizeofHead], by simp⟩)
  simp only [handleRecv, isOpen, Bool.false_eq_true, if_false, List.length_nil, Nat.zero_add,
    Nat.not_lt.mpr small, List.nil_append]
  rw [Reassembly.drain_of_advance head, Reassembly.drain_of_advance body,
    Reassembly.drain_of_wait waits, List.drop_drop, ← length, List.drop_length]

/-- It counts, and returns what it gets. -/
def echo : CommandsHandler ℕ ℕ where
  invoke count _ buff := (count + 1, [], 1, buff.take 9)
  notify count _ _ := (count, [])
  callback count _ _ _ := (count, [])

theorem echo_below : echo.Below 100 := by
  constructor <;> simp [echo]

/-- One invoke and its response, each in one piece. -/
def echoed : List (Side × Event ℕ) :=
  [(.near, .call (.asyncInvoke 1001 [5] 7)), (.far, .receive 34), (.near, .receive 34)]

theorem exists_run_echoed :
    ∃ exchange, Transition.run (Exchange.step ⟨echo, 10000⟩ ⟨echo, 10000⟩) (.new 0 0) echoed =
      some exchange ∧
      (exchange.near.connection.state.closeCalled = false ∧
        exchange.near.connection.state.wasShutdown = false) ∧
        (exchange.far.connection.state.closeCalled = false ∧
          exchange.far.connection.state.wasShutdown = false) ∧
          exchange.near.received = exchange.far.connection.state.sent.length ∧
            exchange.far.received = exchange.near.connection.state.sent.length := by
  have request : Packet.Valid 100 ⟨requestHead 1001 [5] 1, [5]⟩ :=
    valid_request (by decide) 1001 (by decide) 1
  have response : Packet.Valid 100 ⟨responseHead (requestHead 1001 [5] 1) 1 [5], [5]⟩ :=
    valid_response (by decide) rfl 1 (by decide)
  obtain ⟨far, farHandles, farOpen, farSent⟩ : ∃ far, handleBody echo
        { (.new 0 : ProtocolHandler ℕ ℕ) with
          currentHead := requestHead 1001 [5] 1, state := .body, oponentProtocolVer := 1 } [5] =
          (far, true) ∧ (far.closeCalled = false ∧ far.wasShutdown = false) ∧
        far.sent = (Packet.mk (responseHead (requestHead 1001 [5] 1) 1 [5]) [5]).toBytes :=
    ⟨_, Prod.ext rfl (by decide), by decide, by decide⟩
  obtain ⟨near, nearHandles, nearOpen, nearSent⟩ : ∃ near, handleBody echo
        { call echo (.new 0) (.asyncInvoke 1001 [5] 7) with
          currentHead := responseHead (requestHead 1001 [5] 1) 1 [5], state :=
            .body, oponentProtocolVer := 1 } [5] =
          (near, true) ∧ (near.closeCalled = false ∧ near.wasShutdown = false) ∧
            near.sent.length = 34 :=
    ⟨_, Prod.ext rfl (by decide), by decide, by decide⟩
  have farReceives :
      handleRecv ⟨echo, 10000⟩ ⟨.new 0, [], true⟩ (Packet.mk (requestHead 1001 [5] 1) [5]).toBytes =
      ⟨{ far with state := .head }, [], true⟩ :=
        handleRecv_packet request rfl rfl (by decide) farHandles
  have nearReceives :
      handleRecv ⟨echo, 10000⟩ ⟨call echo (.new 0) (.asyncInvoke 1001 [5] 7), [], true⟩
        (far.sent.take 34) =
      ⟨{ near with state := .head }, [], true⟩ := by
    rw [farSent, List.take_of_length_le (by decide)]
    exact handleRecv_packet response rfl rfl (by decide) nearHandles
  refine ⟨⟨⟨⟨{ near with state := .head }, [], true⟩, 34⟩,
    ⟨⟨{ far with state := .head }, [], true⟩, 34⟩⟩, ?_, nearOpen, farOpen, ?_, nearSent.symm⟩
  · refine Transition.run_cons_eq_some.mpr ⟨_, rfl, Transition.run_cons_eq_some.mpr
      ⟨⟨⟨⟨call echo (.new 0) (.asyncInvoke 1001 [5] 7), [], true⟩, 0⟩,
        ⟨⟨{ far with state := .head }, [], true⟩, 34⟩⟩, ?_, ?_⟩⟩
    · rw [← farReceives]
      rfl
    · rw [Transition.run_singleton, ← nearReceives]
      have sent : 0 + 34 ≤ far.sent.length := by rw [farSent]; decide
      simp [Exchange.step, Endpoint.happen, sent, bufferSize]
  · rw [farSent]
    rfl

/-! ### Every run -/

/-- Whatever happens, no response reaches the wrong callback. -/
theorem answered_of_run (fits : limit ≤ 2 ^ 31) (nearBelow : nearConfig.commands.Below limit)
    (farBelow : farConfig.commands.Below limit) {near far : Ctx} {actions : List (Side × Event Id)}
    {exchange : Exchange Ctx Id} (small : ∀ action ∈ actions, action.2.Below limit)
    (ran :
      Transition.run (Exchange.step nearConfig farConfig) (.new near far) actions = some exchange) :
    Answered exchange.near.connection.state exchange.far.connection.state ∧
      Answered exchange.far.connection.state exchange.near.connection.state := by
  obtain ⟨toNear, toFar, linked⟩ := (run_inv fits nearBelow farBelow small ran).connected
  exact ⟨answered_of_logs linked.called, answered_of_logs linked.served⟩

theorem answered_of_run_echoed :
    ∃ exchange, Transition.run (Exchange.step ⟨echo, 10000⟩ ⟨echo, 10000⟩) (.new 0 0) echoed =
      some exchange ∧
      Answered exchange.near.connection.state exchange.far.connection.state := by
  obtain ⟨exchange, ran, -⟩ := exists_run_echoed
  exact ⟨exchange, ran,
    (answered_of_run (by decide) echo_below echo_below
      (by simp [echoed, Event.Below, Call.Below]) ran).1⟩

/-- A side that waits and to which everything has come has nothing left to handle. -/
theorem handled_all {p q : Connection Ctx Id} {pReceived qReceived : ℕ} {toP toQ : List Packet}
    (linked : Linked limit p q pReceived qReceived toP toQ) (resting : Resting limit config p)
    (alive : p.alive = true) (received : pReceived = q.state.sent.length) : toP = [] := by
  have pending := linked.incoming.pending alive
  rw [received, List.drop_length, List.append_nil] at pending
  rcases next_eq_wait.mp (resting.settled alive) with ⟨isBody, short⟩ | ⟨isHead, short, -⟩
  · simp only [Pending, isBody] at pending
    obtain ⟨packet, others, rfl, isCurrent, -, isCache⟩ := pending
    rw [isCurrent, (linked.incoming.valid packet (by simp)).size, isCache,
      List.length_append] at short
    omega
  · simp only [Pending, isHead] at pending
    obtain - | ⟨packet, others⟩ := toP
    · rfl
    · rw [pending, wire, List.flatMap_cons, Packet.toBytes, List.length_append, List.length_append,
        length_toBytes] at short
      omega

/-- All that was invoked was handled there, and every callback has its response. -/
def Settled (p q : ProtocolHandler Ctx Id) : Prop :=
  q.handled.map Prod.fst = p.invoked.map Prod.snd ∧
    p.completed.map Prod.fst = p.invoked.map Prod.fst ∧
    p.completed.map Prod.snd = q.handled.map Prod.snd ∧ p.invokeResponseHandlers = []

theorem settled_of_logs {s t : ProtocolHandler Ctx Id} (logs : Logs s t true [] [])
    (isOpen : s.wasShutdown = false) : Settled s t := by
  have commands := logs.commands
  have results := logs.allResults isOpen rfl
  have callbacks := logs.callbacks isOpen
  simp only [List.flatMap_nil, List.append_nil] at commands results
  have lengths : s.invokeResponseHandlers.length = 0 := by
    have := congrArg List.length commands
    have := congrArg List.length results
    have := congrArg List.length callbacks
    simp only [List.length_map, List.length_append] at *
    omega
  have none : s.invokeResponseHandlers = [] := List.eq_nil_of_length_eq_zero lengths
  rw [none, List.map_nil, List.append_nil] at callbacks
  exact ⟨commands.symm, callbacks.symm, results, none⟩

/-- Nothing is lost: where packets are large enough, and as long as nothing is closed or shut down,
neither side gives up, and when all bytes have come every invoke has been answered. -/
theorem settled_of_run (fits : limit ≤ 2 ^ 31) (nearBelow : nearConfig.commands.Below limit)
    (farBelow : farConfig.commands.Below limit)
    (nearLarge : limit + sizeofHead + bufferSize ≤ nearConfig.maxPacketSize)
    (farLarge : limit + sizeofHead + bufferSize ≤ farConfig.maxPacketSize) {near far : Ctx}
    {actions : List (Side × Event Id)} {exchange : Exchange Ctx Id}
    (small : ∀ action ∈ actions, action.2.Below limit)
    (ran :
      Transition.run (Exchange.step nearConfig farConfig) (.new near far) actions = some exchange)
    (nearOpen : exchange.near.connection.state.closeCalled = false ∧
      exchange.near.connection.state.wasShutdown = false)
    (farOpen : exchange.far.connection.state.closeCalled = false ∧
      exchange.far.connection.state.wasShutdown = false) :
    exchange.near.connection.alive = true ∧ exchange.far.connection.alive = true ∧
      (exchange.near.received = exchange.far.connection.state.sent.length →
        exchange.far.received = exchange.near.connection.state.sent.length →
          Settled exchange.near.connection.state exchange.far.connection.state ∧
            Settled exchange.far.connection.state exchange.near.connection.state) := by
  obtain ⟨⟨toNear, toFar, linked⟩, nearResting, farResting⟩ :=
    run_inv fits nearBelow farBelow small ran
  have stays {config : Config Ctx Id} {p : Connection Ctx Id} (resting : Resting limit config p)
      (large : limit + sizeofHead + bufferSize ≤ config.maxPacketSize)
      (isOpen : p.state.closeCalled = false ∧ p.state.wasShutdown = false) :
      p.alive = true := by
    by_contra dead
    rcases resting.refused (by simpa using dead) with closed | isShut | less
    · simp [isOpen.1] at closed
    · simp [isOpen.2] at isShut
    · omega
  have nearAlive := stays nearResting nearLarge nearOpen
  have farAlive := stays farResting farLarge farOpen
  refine ⟨nearAlive, farAlive, fun nearReceived farReceived => ?_⟩
  obtain rfl := handled_all linked nearResting nearAlive nearReceived
  obtain rfl := handled_all linked.symm farResting farAlive farReceived
  have called := linked.called
  have served := linked.served
  rw [farAlive] at called
  rw [nearAlive] at served
  exact ⟨settled_of_logs called nearOpen.2, settled_of_logs served farOpen.2⟩

theorem settled_of_run_echoed :
    ∃ exchange, Transition.run (Exchange.step ⟨echo, 10000⟩ ⟨echo, 10000⟩) (.new 0 0) echoed =
      some exchange ∧
      Settled exchange.near.connection.state exchange.far.connection.state := by
  obtain ⟨exchange, ran, nearOpen, farOpen, nearReceived, farReceived⟩ := exists_run_echoed
  exact ⟨exchange, ran, ((settled_of_run (by decide) echo_below echo_below (by decide) (by decide)
    (by simp [echoed, Event.Below, Call.Below]) ran nearOpen farOpen).2.2 nearReceived
      farReceived).1⟩

end Run

end Zano.Net
