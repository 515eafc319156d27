import YuriRtc.ResponseFlow
import YuriRtc.Ring
/-!
# CarriedSocket — one carried WebSocket, from the page's object to the node's goroutines

The page: `CarriedWebSocket` of `packages/loader/src/websocket.ts` and the entry of `client.ts` that routes its frames.
The node: the stream of `content-node/websocket.go`, its place in the session's `sockets`, and the goroutines that dial,
write and pump.  `toNode` and `toPage` are the two directions of the socket's lane, first in, first out; the carrier stays
open, and a single send may still throw.  What the node's session answers to the open (its other sockets, its limits) is
the event's own.  An event handler of the application runs inside the call that fires it, so the calls it has interrupted
are on a stack.
-/
namespace YuriRtc

open Rings (Ring)

def maxWebSocketMessageBytes : Nat := maxPayloadBytes - 1
def maxWebSocketCloseReason : Nat := 123
def maxWebSocketCredits : Nat := 64
def webSocketCreditBatch : Nat := max 1 (maxWebSocketCredits / 4)
def maxWebSocketSendQueueFrames : Nat := 16
def maxWebSocketSendQueueBytes : Nat := 1024 * 1024
def wsCloseGoingAway : Nat := 1001

structure WebSocketMessage where
  kind : WebSocketDataKind
  data : Bytes
deriving DecidableEq, Repr

/-- `[u16be code][utf8 reason]`. -/
structure WebSocketClose where
  code : Nat
  reason : Bytes
deriving DecidableEq, Repr

/-- `encodeWebSocketClose`: 1005 and 1006 are never put on the wire. -/
def encodeWebSocketClose (code : Nat) (reason : Bytes) : Option WebSocketClose :=
  if code < 1000 ∨ 0xffff < code ∨ code = 1005 ∨ code = 1006 then none
  else if maxWebSocketCloseReason < reason.length then none
  else some ⟨code, reason⟩

inductive SocketUp where
  | wsOpen
  | wsData (message : WebSocketMessage)
  | wsClose (close : WebSocketClose)
  | credit (n : Nat)
deriving DecidableEq, Repr

inductive SocketDown where
  | wsOpened (protocol : String)
  | wsData (message : WebSocketMessage)
  | wsClose (close : WebSocketClose)
  | resErr (message : String)
deriving DecidableEq, Repr

/-! ### The page -/

inductive SocketReadyState where
  | connecting
  | isOpen
  | closing
  | closed
deriving DecidableEq, Repr

/-- What a call does after the handlers of its event: `#fail` accepts the close, a message returns its credit. -/
inductive SocketCall where
  | acceptClose
  | replenish
deriving DecidableEq, Repr

/-- `entry` is the `consumed` count of the client's entry for the id, while it has one; `blobs` are the sent Blobs whose
bytes are still being read. -/
structure SocketPage where
  readyState : SocketReadyState
  protocol : String
  entry : Option Nat
  blobs : List Bytes
  stack : List SocketCall
deriving DecidableEq, Repr

/-! ### The node's queue of writes -/

inductive QueuedWrite where
  | message (message : WebSocketMessage)
  | close (close : WebSocketClose)
deriving DecidableEq, Repr

def QueuedWrite.isClose : QueuedWrite → Bool
  | .close _ => true
  | .message _ => false

def QueuedWrite.length : QueuedWrite → Nat
  | .message m => m.data.length
  | .close _ => 0

structure WriteQueue where
  writeRing : Ring QueuedWrite (maxWebSocketSendQueueFrames + 1)
  writeBytes : Nat
  writeClosing : Bool
  spare : writeClosing = false → writeRing.len ≤ maxWebSocketSendQueueFrames

namespace WriteQueue

def empty : WriteQueue := ⟨Ring.empty, 0, false, fun _ => Nat.zero_le _⟩

def items (q : WriteQueue) : List QueuedWrite := q.writeRing.toList

theorem push_isSome (q : WriteQueue) (h : q.writeClosing = false) (item : QueuedWrite) :
    (q.writeRing.push item).isSome := by
  rw [Option.isSome_iff_ne_none, ne_eq, Ring.push_eq_none_iff, Ring.length_toList]
  have := q.spare h
  omega

/-- `enqueueWrite`: nothing is queued behind a close, and only data beyond the bounds is refused. -/
def enqueueWrite (q : WriteQueue) (item : QueuedWrite) : Option WriteQueue :=
  if hclosing : q.writeClosing = false then
    match item with
    | .close c =>
      some ⟨(q.writeRing.push (.close c)).get (q.push_isSome hclosing _), q.writeBytes, true, nofun⟩
    | .message m =>
      if hfull : maxWebSocketSendQueueFrames ≤ q.writeRing.len ∨
          maxWebSocketSendQueueBytes < q.writeBytes + m.data.length then none
      else
        some ⟨(q.writeRing.push (.message m)).get (q.push_isSome hclosing _), q.writeBytes + m.data.length, false,
          fun _ => by
            have hpush := Ring.toList_push (Option.some_get (q.push_isSome hclosing (.message m))).symm
            have hlen := congrArg List.length hpush
            rw [Ring.length_toList, List.length_append, Ring.length_toList] at hlen
            rw [hlen]
            show q.writeRing.len + 1 ≤ maxWebSocketSendQueueFrames
            omega⟩
  else some q

/-- `nextWrite`, when an item is queued. -/
def nextWrite (q : WriteQueue) : Option (QueuedWrite × WriteQueue) :=
  match q.writeRing.front? with
  | none => none
  | some item =>
    some (item, ⟨q.writeRing.popFront, q.writeBytes - item.length, q.writeClosing, fun h => by
      have hlen := congrArg List.length q.writeRing.toList_popFront
      rw [Ring.length_toList, List.length_tail, Ring.length_toList] at hlen
      have := q.spare h
      omega⟩)

end WriteQueue

/-! ### The node's stream -/

inductive DialPhase where
  | dialing
  | connected (protocol : String)
  | done
deriving DecidableEq, Repr

inductive WriterPhase where
  | off
  | idle
  | writing (message : WebSocketMessage)
  | done
deriving DecidableEq, Repr

inductive PumpPhase where
  | off
  | needsCredit
  | reading
  | sending (message : WebSocketMessage)
  | done
deriving DecidableEq, Repr

/-- What the goroutine inside `closeOnce` still has to send. -/
inductive SocketReport where
  | close (close : WebSocketClose)
  | error (message : String)
deriving DecidableEq, Repr

inductive CloseOnce where
  | unused
  | running (report : SocketReport)
  | used
deriving DecidableEq, Repr

/-- `written` are the messages that reached the upstream. -/
structure WebSocketStream where
  conn : Bool
  queue : WriteQueue
  credits : ResponseCreditWindow
  closeOnce : CloseOnce
  cancelled : Bool
  dial : DialPhase
  writer : WriterPhase
  pump : PumpPhase
  written : List WebSocketMessage

/-- `held` says whether the stream is in the session's `sockets`. -/
structure CarriedSocket where
  page : SocketPage
  toNode : List SocketUp
  toPage : List SocketDown
  stream : Option WebSocketStream
  held : Bool

inductive OpenVerdict where
  | accepted
  | rejected (message : String)
  | ignored
deriving DecidableEq, Repr

inductive UpstreamRead where
  | message (message : WebSocketMessage)
  | closed (code : Nat)
  | dropped
deriving DecidableEq, Repr

inductive SocketEvent where
  | send (message : WebSocketMessage) (throws : Bool)
  | sendBlob (data : Bytes)
  | blobRead (index : Nat) (throws : Bool)
  | close (code : Nat) (reason : Bytes) (throws : Bool)
  | returns (throws : Bool)
  | pageReceives (decodes : Bool) (throws : Bool)
  | nodeReceives (verdict : OpenVerdict)
  | dialEnds (protocol : Option String)
  | reportOpened (sendOk : Bool)
  | nextWrite
  | writeEnds (ok : Bool)
  | takeCredit
  | upstreamRead (read : UpstreamRead)
  | sendData (sendOk : Bool)
  | reportClose (sendOk : Bool)
deriving DecidableEq, Repr

namespace CarriedSocket

/-- The socket just after `openWebSocket` has sent its WsOpen. -/
def opening : CarriedSocket where
  page := ⟨.connecting, "", some 0, [], []⟩
  toNode := [.wsOpen]
  toPage := []
  stream := none
  held := false

/-! ### Page side -/

def fail (s : CarriedSocket) : CarriedSocket :=
  if s.page.readyState = .closed then s else { s with page.stack := .acceptClose :: s.page.stack }

def acceptClose (s : CarriedSocket) : CarriedSocket :=
  if s.page.readyState = .closed then s else { s with page.readyState := .closed, page.entry := none }

def transmit (s : CarriedSocket) (message : WebSocketMessage) (throws : Bool) : CarriedSocket :=
  if maxWebSocketMessageBytes < message.data.length then s.fail
  else if throws then s.fail
  else { s with toNode := s.toNode ++ [.wsData message] }

def sendClose (s : CarriedSocket) (code : Nat) (reason : Bytes) (throws : Bool) : CarriedSocket :=
  match s.page.readyState with
  | .closing | .closed => s
  | .connecting | .isOpen =>
    match encodeWebSocketClose code reason, throws with
    | some close, false => { s with page.readyState := .closing, toNode := s.toNode ++ [.wsClose close] }
    | _, _ => { s with page.readyState := .closing }.acceptClose

/-- `replenishSocketCredit`: a refill that cannot be sent is dropped. -/
def replenishSocketCredit (s : CarriedSocket) (throws : Bool) : CarriedSocket :=
  match s.page.entry with
  | none => s
  | some consumed =>
    if consumed + 1 < webSocketCreditBatch then { s with page.entry := some (consumed + 1) }
    else if throws then { s with page.entry := some 0 }
    else { s with page.entry := some 0, toNode := s.toNode ++ [.credit (consumed + 1)] }

/-- `onSocketFrame`; `decodes` says whether the payload could be decoded. -/
def onSocketFrame (s : CarriedSocket) (frame : SocketDown) (decodes throws : Bool) : CarriedSocket :=
  match frame, decodes with
  | .wsOpened _, false => s.fail
  | .wsOpened protocol, true =>
    if s.page.readyState = .connecting then { s with page.readyState := .isOpen, page.protocol := protocol } else s
  | .wsData _, false => s.fail
  | .wsData _, true =>
    -- the message's handlers run before the credit is returned
    if s.page.readyState = .isOpen then { s with page.stack := .replenish :: s.page.stack }
    else s.replenishSocketCredit throws
  | .wsClose _, _ => s.acceptClose
  | .resErr _, _ => s.fail

/-! ### Node side -/

def freshStream : WebSocketStream where
  conn := false
  queue := WriteQueue.empty
  credits := ResponseCreditWindow.newResponseCreditWindow maxWebSocketCredits
  closeOnce := .unused
  cancelled := false
  dial := .dialing
  writer := .off
  pump := .off
  written := []

def sanitizeCloseCode (code : Nat) : Nat :=
  if code < 1000 ∨ 0xffff < code ∨ code = 1005 ∨ code = 1006 then wsCloseGoingAway else code

/-- What `reportWebSocketClose` puts on the wire. -/
def closeReport (code : Nat) (reason : Bytes) : SocketReport :=
  .close ⟨sanitizeCloseCode code, reason.take maxWebSocketCloseReason⟩

/-- The first call of `closeOnce` forgets the stream and goes on to `report`; any later one does nothing. -/
def runOnce (s : CarriedSocket) (st : WebSocketStream) (report : SocketReport) (cancel : Bool) : CarriedSocket :=
  match st.closeOnce with
  | .unused =>
    { s with
      stream := some { st with closeOnce := .running report, cancelled := st.cancelled || cancel }
      held := false }
  | _ => { s with stream := some st }

def closeWebSocket (s : CarriedSocket) (st : WebSocketStream) (code : Nat) (reason : Bytes) : CarriedSocket :=
  s.runOnce st (closeReport code reason) true

def closeWebSocketHandshakeFirst (s : CarriedSocket) (st : WebSocketStream) (close : WebSocketClose) : CarriedSocket :=
  s.runOnce st (closeReport close.code close.reason) false

def failWebSocket (s : CarriedSocket) (st : WebSocketStream) (message : String) : CarriedSocket :=
  s.runOnce st (.error message) true

def onMessage (s : CarriedSocket) (frame : SocketUp) (verdict : OpenVerdict) : CarriedSocket :=
  match frame with
  | .wsOpen =>
    match verdict, s.stream with
    | .accepted, none => { s with stream := some freshStream, held := true }
    | .rejected message, none => { s with toPage := s.toPage ++ [.resErr message] }
    | _, _ => s
  | .wsData message =>
    match s.held, s.stream with
    | true, some st =>
      if st.conn then
        match st.queue.enqueueWrite (.message message) with
        | some queue => { s with stream := some { st with queue := queue } }
        | none => s.closeWebSocket st wsCloseGoingAway "websocket backlog".toUTF8.toList
      else s
    | _, _ => s
  | .wsClose close =>
    match s.held, s.stream with
    | true, some st =>
      if st.conn then
        match st.queue.enqueueWrite (.close close) with
        | some queue => { s with stream := some { st with queue := queue } }
        | none => s
      else s.closeWebSocket st close.code close.reason
    | _, _ => s
  | .credit n =>
    match s.held, s.stream with
    | true, some st => { s with stream := some { st with credits := st.credits.grant n } }
    | _, _ => s

def stepStream (s : CarriedSocket) (st : WebSocketStream) : SocketEvent → Option CarriedSocket
  | .dialEnds outcome =>
    match st.dial, outcome with
    | .dialing, none => some (s.failWebSocket { st with dial := .done } "websocket upstream refused the connection")
    | .dialing, some protocol => some { s with stream := some { st with conn := true, dial := .connected protocol } }
    | _, _ => none
  | .reportOpened sendOk =>
    match st.dial with
    | .connected protocol =>
      if sendOk then
        some { s with
          stream := some { st with dial := .done, writer := .idle, pump := .needsCredit }
          toPage := s.toPage ++ [.wsOpened protocol] }
      else some (s.closeWebSocket { st with dial := .done } wsCloseGoingAway "carrier send failed".toUTF8.toList)
    | _ => none
  | .nextWrite =>
    match st.writer, st.queue.nextWrite with
    | .idle, some (.message m, queue) => some { s with stream := some { st with queue := queue, writer := .writing m } }
    | .idle, some (.close c, queue) =>
      some (s.closeWebSocketHandshakeFirst { st with queue := queue, writer := .done } c)
    | .idle, none => if st.cancelled then some { s with stream := some { st with writer := .done } } else none
    | _, _ => none
  | .writeEnds ok =>
    match st.writer with
    | .writing m =>
      if ok then some { s with stream := some { st with writer := .idle, written := st.written ++ [m] } }
      else some (s.closeWebSocket { st with writer := .done } wsCloseGoingAway [])
    | _ => none
  | .takeCredit =>
    match st.pump, st.credits.take with
    | .needsCredit, some credits => some { s with stream := some { st with credits := credits, pump := .reading } }
    | .needsCredit, none =>
      if st.cancelled then some (s.closeWebSocket { st with pump := .done } wsCloseGoingAway []) else none
    | _, _ => none
  | .upstreamRead read =>
    match st.pump, read with
    | .reading, .message m =>
      if maxWebSocketMessageBytes < m.data.length then
        some (s.closeWebSocket { st with pump := .done } wsCloseGoingAway "message too large for the carrier".toUTF8.toList)
      else some { s with stream := some { st with pump := .sending m } }
    | .reading, .closed code => some (s.closeWebSocket { st with pump := .done } code [])
    | .reading, .dropped => some (s.closeWebSocket { st with pump := .done } wsCloseGoingAway [])
    | _, _ => none
  | .sendData sendOk =>
    match st.pump with
    | .sending m =>
      if sendOk then
        some { s with stream := some { st with pump := .needsCredit }, toPage := s.toPage ++ [.wsData m] }
      else some (s.closeWebSocket { st with pump := .done } wsCloseGoingAway "carrier send failed".toUTF8.toList)
    | _ => none
  | .reportClose sendOk =>
    match st.closeOnce with
    | .running report =>
      let frame := match report with
        | .close close => SocketDown.wsClose close
        | .error message => SocketDown.resErr message
      some { s with
        stream := some { st with closeOnce := .used, cancelled := true }
        toPage := if sendOk then s.toPage ++ [frame] else s.toPage }
    | _ => none
  | _ => none

/-- One event.  A task of the page starts only when no call is interrupted; the application's own calls may come any
time, from a handler or not. -/
def step (s : CarriedSocket) (e : SocketEvent) : Option CarriedSocket :=
  match e with
  | .send message throws =>
    -- while connecting, send() throws at its caller
    if s.page.readyState = .isOpen then some (s.transmit message throws) else some s
  | .sendBlob data =>
    if s.page.readyState = .isOpen then some { s with page.blobs := s.page.blobs ++ [data] } else some s
  | .blobRead index throws =>
    match s.page.stack, s.page.blobs[index]? with
    | [], some data =>
      let read := { s with page.blobs := s.page.blobs.eraseIdx index }
      if s.page.readyState = .isOpen then some (read.transmit ⟨.binary, data⟩ throws) else some read
    | _, _ => none
  | .close code reason throws => some (s.sendClose code reason throws)
  | .returns throws =>
    match s.page.stack with
    | .acceptClose :: rest => some ({ s with page.stack := rest }.acceptClose)
    | .replenish :: rest => some ({ s with page.stack := rest }.replenishSocketCredit throws)
    | [] => none
  | .pageReceives decodes throws =>
    match s.page.stack, s.toPage with
    | [], frame :: rest =>
      let taken := { s with toPage := rest }
      match s.page.entry with
      | some _ => some (taken.onSocketFrame frame decodes throws)
      | none => some taken
    | _, _ => none
  | .nodeReceives verdict =>
    match s.toNode with
    | frame :: rest => some ({ s with toNode := rest }.onMessage frame verdict)
    | [] => none
  | e =>
    match s.stream with
    | some st => s.stepStream st e
    | none => none

end CarriedSocket
end YuriRtc
