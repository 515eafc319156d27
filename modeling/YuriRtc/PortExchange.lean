import YuriRtc.SwBridgeStream
/-!
# PortExchange — the page's ports and the bridge that reads them

`SwBridge.attach` and `onMessage` of `packages/loader/src/swbridge.ts` with every response stream of the bridge, and
`attachPortToWorker`, `post` and the answer to `attached` of `packages/loader/src/client.ts`, for one page: every port has
the same owner.  A port is first in, first out from the page to the bridge; the `attach` messages are a queue of their own
that nothing orders against the ports.  A port is read once it is attached, and what is still queued on one that has been
replaced is read as well and dropped.  What the page answers a request with, and when, is left open; of the other direction
only that a request is taken up on the port it was posted on.
-/
namespace YuriRtc

open BridgeRequest (bodyChunk)

inductive Reply where
  | head
  | body (frame : Bytes) (byteOffset byteLength : Int)
  | finish
  | err
deriving DecidableEq, Repr

inductive PortMessage where
  | reply (id : Nat) (reply : Reply)
  | ready
  | down
deriving DecidableEq, Repr

/-- An entry of `pending`, kept after it has left the map, and the port its request was posted on. -/
structure BridgeEntry where
  trace : BridgeTrace
  headReceived : Bool
  sentOn : Nat

namespace BridgeEntry

def isPending (entry : BridgeEntry) : Bool := entry.trace.request.pending

def step (entry : BridgeEntry) (e : BridgeEvent) : Option BridgeEntry :=
  (entry.trace.step e).map fun trace => { entry with trace := trace }

def fail (entry : BridgeEntry) : BridgeEntry := (entry.step .down).getD entry

end BridgeEntry

structure PortExchange where
  pagePort : Option Nat
  created : Nat
  serving : List Nat
  served : List Nat
  /-- the chunks `post` was given. -/
  posted : Nat → List Bytes
  attaching : List Nat
  /-- the ports `attached` was posted on. -/
  acknowledged : List Nat
  queues : Nat → List PortMessage
  port : Option Nat
  portReady : Bool
  nextId : Nat
  entries : Nat → Option BridgeEntry

inductive PortEvent where
  | attachPortToWorker
  | serve (id : Nat)
  | post (id : Nat) (reply : Reply)
  | abandon (id : Nat)
  | attached
  | ready
  | down
  | attach
  | receive (port : Nat)
  | request (initial : InitialCredits) (now : Int)
  | stream (id : Nat) (e : BridgeEvent)
  | detach

namespace PortExchange

def newPortExchange : PortExchange where
  pagePort := none
  created := 0
  serving := []
  served := []
  posted _ := []
  attaching := []
  acknowledged := []
  queues _ := []
  port := none
  portReady := false
  nextId := 1
  entries _ := none

variable (s : PortExchange)

/-- No callback of a stream is in `controller.enqueue`. -/
def idle : Bool :=
  (List.range s.nextId).all fun id => (s.entries id).all fun entry => entry.trace.request.calls.isEmpty

def isPending (id : Nat) : Bool := (s.entries id).any BridgeEntry.isPending

def continues (id : Nat) : Bool := (s.entries id).any fun entry => entry.isPending && entry.headReceived

/-- `post`; without a port the message is gone. -/
def sends (messages : List PortMessage) : PortExchange :=
  match s.pagePort with
  | some p => { s with queues := Function.update s.queues p (s.queues p ++ messages) }
  | none => s

def finished (id : Nat) : PortExchange := { s with serving := s.serving.filter (· ≠ id) }

def setEntry (id : Nat) (entry : BridgeEntry) : PortExchange := { s with entries := Function.update s.entries id (some entry) }

def detached : PortExchange :=
  { s with port := none, portReady := false, entries := fun id => (s.entries id).map BridgeEntry.fail }

/-- `SwBridge.attach`: whoever has no head yet fails. -/
def attachPort (p : Nat) : PortExchange :=
  { s with
    port := some p
    portReady := false
    acknowledged := s.acknowledged ++ [p]
    entries := fun id => (s.entries id).map fun entry => if entry.headReceived then entry else entry.fail }

def onMessage : PortMessage → Option PortExchange
  | .down => some s.detached
  | .ready => some { s with portReady := true }
  | .reply id reply =>
    match s.entries id with
    | none => some s
    | some entry =>
      match reply with
      | .head => some (s.setEntry id { entry with headReceived := entry.headReceived || entry.isPending })
      | .body frame byteOffset byteLength => (entry.step (.body frame byteOffset byteLength)).map (s.setEntry id)
      | .finish => (entry.step .finish).map (s.setEntry id)
      | .err => (entry.step .err).map (s.setEntry id)

def isOwn : BridgeEvent → Bool
  | .pull | .enqueueReturns _ _ | .cancel | .abort | .portBroken => true
  | .body _ _ _ | .finish | .err | .down => false

def step (s : PortExchange) : PortEvent → Option PortExchange
  | .attachPortToWorker =>
    some { s with pagePort := some s.created, created := s.created + 1, attaching := s.attaching ++ [s.created] }
  | .serve id =>
    match s.entries id with
    | some entry =>
      if s.pagePort = some entry.sentOn ∧ id ∉ s.served then
        some { s with serving := id :: s.serving, served := id :: s.served }
      else none
    | none => none
  | .post id reply =>
    if id ∈ s.serving then
      match reply with
      | .head => some (s.sends [.reply id .head])
      | .body frame byteOffset byteLength =>
        some { s.sends [.reply id (.body frame byteOffset byteLength)] with
          posted := Function.update s.posted id (s.posted id ++ (bodyChunk frame byteOffset byteLength).toList) }
      | .finish => some ((s.sends [.reply id .finish]).finished id)
      | .err => some ((s.sends [.reply id .err]).finished id)
    else none
  | .abandon id => some (s.finished id)
  | .attached =>
    match s.pagePort with
    | some p =>
      -- the page retires what it had at work for the bridge
      if p ∈ s.acknowledged then some { s.sends (s.serving.map fun id => .reply id .err) with serving := [] } else none
    | none => none
  | .ready => some (s.sends [.ready])
  | .down => some { s.sends [.down] with pagePort := none }
  | .attach =>
    if s.idle then
      match s.attaching with
      | p :: attaching => some ({ s with attaching := attaching }.attachPort p)
      | [] => none
    else none
  | .receive p =>
    if s.idle ∧ p ∉ s.attaching then
      match s.queues p with
      | message :: rest =>
        let taken := { s with queues := Function.update s.queues p rest }
        if s.port = some p then taken.onMessage message else some taken
      | [] => none
    else none
  | .request initial now =>
    match s.port with
    | some p =>
      if s.portReady ∧ s.idle then
        some { s with
          nextId := s.nextId + 1
          entries := Function.update s.entries s.nextId (some ⟨BridgeTrace.start initial now, false, p⟩) }
      else none
    | none => none
  | .stream id e =>
    if isOwn e then (s.entries id).bind fun entry => (entry.step e).map (s.setEntry id) else none
  | .detach => if s.idle then some s.detached else none

end PortExchange

end YuriRtc
