import YuriRtc.CarriedSocket
import YuriRtc.PeerSession
/-!
# SentFrames — every frame the node sends, one `lane.send` at a time

The goroutines of a request and of a carried socket up to the frames they put on the lane (`content-node/server.go`,
`content-node/websocket.go`).  Between what a goroutine decides on (`s.request(id)` found a state, the request is still on its
lane, a refill is due) and the `lane.send` that follows, every other goroutine may take its turn; `requestBodyChunkConsumed`
alone holds `bodyMu` over both.  Who cancels a request and when is left open (`remove`, `cancel`, `endBody`), and so is
whether a send succeeds (`sent`) and what the session's other books say of a frame it turns away (`reject`).  A handler calls
`SendHead`, `SendBody` or `StreamBody` any number of times and at last returns what `SendEnd` does.  `owner` is what an id
was first used for.
-/
namespace YuriRtc

open Function (update)

inductive SentFrame where
  | resHead
  | resBody
  | resEnd
  | resErr
  | reqCredit
  | wsOpened
  | wsData
  | wsClose
deriving DecidableEq, Repr

namespace SentFrame

def isTerminal : SentFrame → Bool
  | .resEnd | .resErr | .wsClose => true
  | .resHead | .resBody | .reqCredit | .wsOpened | .wsData => false

def isResponse : SentFrame → Bool
  | .resHead | .resBody | .resEnd => true
  | .resErr | .reqCredit | .wsOpened | .wsData | .wsClose => false

end SentFrame

/-- Where `serveRequest` is. -/
inductive ServePhase where
  | waiting
  | running
  /-- `s.request(id)` found `target`; the frame is about to be sent on its lane. -/
  | sending (target : Ref) (frame : SentFrame)
  | returning
  /-- `sendRequestError` found the request and is about to send the error. -/
  | failing
  | done
deriving DecidableEq, Repr

/-- Where `expireRequestBody` is. -/
inductive ExpiryPhase where
  | idle
  | expired
  | reporting
  | over
deriving DecidableEq, Repr

/-- The goroutines of a `requestState`: `begin` with the first credit still to send, the body's reader with a refill, the
lane's goroutine with the error of a body frame it did not take. -/
structure SentRequest where
  id : Nat
  hasBody : Bool
  cancelled : Bool
  bodyEnded : Bool
  greeting : Bool
  refilling : Bool
  refusing : Bool
  serve : ServePhase
  expiry : ExpiryPhase
deriving DecidableEq, Repr

structure SentStream where
  id : Nat
  dial : DialPhase
  pump : PumpPhase
  closeOnce : CloseOnce
deriving DecidableEq, Repr

inductive FrameOwner where
  | request (r : Ref)
  | socket (k : Nat)
  | nobody
deriving DecidableEq, Repr

structure FrameSession where
  requests : Nat → Option Ref
  sockets : Nat → Option Nat
  states : Ref → SentRequest
  streams : Nat → SentStream
  next : Ref
  nextStream : Nat
  owner : Nat → Option FrameOwner
  wire : Nat → List SentFrame

inductive FrameEvent where
  | admitted (id : Nat) (hasBody : Bool)
  | reject (id : Nat) (sent : Bool)
  | greet (r : Ref) (sent : Bool)
  | start (r : Ref)
  | call (r : Ref) (frame : SentFrame)
  /-- `again`: `StreamBody` goes on with the state it has. -/
  | sends (r : Ref) (sent again : Bool)
  | gaveUp (r : Ref)
  /-- `failed`: the error is not `context.Canceled`. -/
  | returns (r : Ref) (failed : Bool)
  | reportFailure (r : Ref) (sent : Bool)
  | refill (r : Ref)
  | refilled (r : Ref) (sent : Bool)
  | endBody (r : Ref)
  | refuse (r : Ref)
  | reportRefusal (r : Ref) (sent : Bool)
  | expire (r : Ref)
  | expireCancels (r : Ref)
  | reportTimeout (r : Ref) (sent : Bool)
  | remove (r : Ref)
  | cancel (r : Ref)
  | accept (id : Nat)
  | dialEnds (k : Nat) (protocol : Option String)
  | reportOpened (k : Nat) (sent : Bool)
  | takeCredit (k : Nat) (taken : Bool)
  | upstreamRead (k : Nat) (read : UpstreamRead)
  | sendData (k : Nat) (sent : Bool)
  | close (k : Nat) (report : SocketReport)
  | reportClose (k : Nat) (sent : Bool)
  | dropSocket (k : Nat)
deriving DecidableEq, Repr

def FrameEvent.about : FrameEvent → FrameOwner
  | .greet r _ | .start r | .call r _ | .sends r _ _ | .gaveUp r | .returns r _ | .reportFailure r _ | .refill r
  | .refilled r _ | .endBody r | .refuse r | .reportRefusal r _ | .expire r | .expireCancels r | .reportTimeout r _
  | .remove r | .cancel r => .request r
  | .dialEnds k _ | .reportOpened k _ | .takeCredit k _ | .upstreamRead k _ | .sendData k _ | .close k _
  | .reportClose k _ | .dropSocket k => .socket k
  | .admitted _ _ | .reject _ _ | .accept _ => .nobody

namespace FrameSession

def newFrameSession : FrameSession where
  requests _ := none
  sockets _ := none
  states _ := ⟨0, false, false, false, false, false, false, .waiting, .idle⟩
  streams _ := ⟨0, .dialing, .off, .unused⟩
  next := 0
  nextStream := 0
  owner _ := none
  wire _ := []

/-- `s.requests[id] == state`. -/
def isLive (s : FrameSession) (r : Ref) : Bool := s.requests (s.states r).id == some r

def modify (s : FrameSession) (r : Ref) (st : SentRequest) : FrameSession :=
  { s with states := update s.states r st }

def modifyStream (s : FrameSession) (k : Nat) (stream : SentStream) : FrameSession :=
  { s with streams := update s.streams k stream }

def send (s : FrameSession) (id : Nat) (frame : SentFrame) (sent : Bool) : FrameSession :=
  if sent then { s with wire := update s.wire id (s.wire id ++ [frame]) } else s

/-- The request leaves `requests`, if it is still there. -/
def unlink (s : FrameSession) (r : Ref) : FrameSession :=
  if s.isLive r then { s with requests := update s.requests (s.states r).id none } else s

def forget (s : FrameSession) (k : Nat) : FrameSession :=
  if s.sockets (s.streams k).id = some k then { s with sockets := update s.sockets (s.streams k).id none } else s

/-- `closeOnce.Do`: the first to close a socket forgets it and is to report it. -/
def runOnce (s : FrameSession) (k : Nat) (stream : SentStream) (report : SocketReport) : FrameSession :=
  match stream.closeOnce with
  | .unused => (s.modifyStream k { stream with closeOnce := .running report }).forget k
  | .running _ | .used => s.modifyStream k stream

def goingAway : SocketReport := CarriedSocket.closeReport wsCloseGoingAway []

def reportFrame : SocketReport → SentFrame
  | .close _ => .wsClose
  | .error _ => .resErr

def stepRequest (s : FrameSession) (r : Ref) (st : SentRequest) : FrameEvent → Option FrameSession
  | .greet _ sent =>
    if st.greeting then some ((s.modify r { st with greeting := false }).send st.id .reqCredit sent) else none
  | .start _ => if st.serve = .waiting ∧ s.isLive r then some (s.modify r { st with serve := .running }) else none
  | .call _ frame =>
    if st.serve = .running ∧ frame.isResponse then
      match s.requests st.id with
      | some target => some (s.modify r { st with serve := .sending target frame })
      | none => some (s.modify r { st with serve := .done })
    else none
  | .sends _ sent again =>
    match st.serve with
    | .sending target frame =>
      let next :=
        if sent = false then .returning
        else if frame.isTerminal then .done
        else if again ∧ frame = .resBody then .sending target frame
        else .running
      some ((s.modify r { st with serve := next }).send st.id frame sent)
    | _ => none
  | .gaveUp _ =>
    match st.serve with
    | .sending _ _ => some (s.modify r { st with serve := .returning })
    | _ => none
  | .returns _ failed =>
    if st.serve = .running ∨ st.serve = .returning then
      some (s.modify r { st with serve := if failed ∧ s.isLive r then .failing else .done })
    else none
  | .reportFailure _ sent =>
    if st.serve = .failing then some ((s.modify r { st with serve := .done }).send st.id .resErr sent) else none
  | .refill _ =>
    if st.hasBody ∧ st.bodyEnded = false ∧ st.cancelled = false ∧ st.refilling = false then
      some (s.modify r { st with refilling := true })
    else none
  | .refilled _ sent =>
    if st.refilling then some ((s.modify r { st with refilling := false }).send st.id .reqCredit sent) else none
  | .endBody _ => if st.hasBody ∧ st.refilling = false then some (s.modify r { st with bodyEnded := true }) else none
  | .refuse _ => if st.hasBody then some (s.modify r { st with refusing := true }) else none
  | .reportRefusal _ sent =>
    if st.refusing then some ((s.modify r { st with refusing := false }).send st.id .resErr sent) else none
  | .expire _ =>
    -- the timer is armed after the first credit is sent
    if st.hasBody ∧ st.bodyEnded = false ∧ st.refilling = false ∧ st.greeting = false ∧ st.expiry = .idle then
      some (s.modify r { st with bodyEnded := true, expiry := if s.isLive r then .expired else .over })
    else none
  | .expireCancels _ =>
    if st.expiry = .expired then
      some ((s.modify r { st with expiry := if s.isLive r then .reporting else .over }).unlink r)
    else none
  | .reportTimeout _ sent =>
    if st.expiry = .reporting then some ((s.modify r { st with expiry := .over }).send st.id .resErr sent) else none
  | .remove _ => some (s.unlink r)
  | .cancel _ => some (s.modify r { st with cancelled := true })
  | _ => none

def stepStream (s : FrameSession) (k : Nat) (stream : SentStream) : FrameEvent → Option FrameSession
  | .dialEnds _ protocol =>
    if stream.dial = .dialing then
      match protocol with
      | some p => some (s.modifyStream k { stream with dial := .connected p })
      | none => some (s.runOnce k { stream with dial := .done } (.error "websocket upstream refused the connection"))
    else none
  | .reportOpened _ sent =>
    match stream.dial with
    | .connected _ =>
      if sent then some ((s.modifyStream k { stream with dial := .done, pump := .needsCredit }).send stream.id .wsOpened true)
      else some (s.runOnce k { stream with dial := .done } goingAway)
    | .dialing | .done => none
  | .takeCredit _ taken =>
    if stream.pump = .needsCredit then
      if taken then some (s.modifyStream k { stream with pump := .reading })
      else some (s.runOnce k { stream with pump := .done } goingAway)
    else none
  | .upstreamRead _ read =>
    if stream.pump = .reading then
      match read with
      | .message m => some (s.modifyStream k { stream with pump := .sending m })
      | .closed code => some (s.runOnce k { stream with pump := .done } (CarriedSocket.closeReport code []))
      | .dropped => some (s.runOnce k { stream with pump := .done } goingAway)
    else none
  | .sendData _ sent =>
    match stream.pump with
    | .sending _ =>
      if sent then some ((s.modifyStream k { stream with pump := .needsCredit }).send stream.id .wsData true)
      else some (s.runOnce k { stream with pump := .done } goingAway)
    | .off | .needsCredit | .reading | .done => none
  | .close _ report => some (s.runOnce k stream report)
  | .reportClose _ sent =>
    match stream.closeOnce with
    | .running report =>
      some ((s.modifyStream k { stream with closeOnce := .used }).send stream.id (reportFrame report) sent)
    | .unused | .used => none
  | .dropSocket _ =>
    if stream.closeOnce = .unused then some ((s.modifyStream k { stream with closeOnce := .used }).forget k) else none
  | _ => none

def step (s : FrameSession) (e : FrameEvent) : Option FrameSession :=
  match e with
  | .admitted id hasBody =>
    if s.requests id = none then
      some { s with
        requests := update s.requests id (some s.next)
        states := update s.states s.next ⟨id, hasBody, false, false, hasBody, false, false, .waiting, .idle⟩
        next := s.next + 1
        owner := update s.owner id (some (.request s.next)) }
    else none
  | .reject id sent => some ({ s with owner := update s.owner id (some .nobody) }.send id .resErr sent)
  | .accept id =>
    if s.requests id = none ∧ s.sockets id = none then
      some { s with
        sockets := update s.sockets id (some s.nextStream)
        streams := update s.streams s.nextStream ⟨id, .dialing, .off, .unused⟩
        nextStream := s.nextStream + 1
        owner := update s.owner id (some (.socket s.nextStream)) }
    else none
  | e =>
    match e.about with
    | .request r => if r < s.next then s.stepRequest r (s.states r) e else none
    | .socket k => if k < s.nextStream then s.stepStream k (s.streams k) e else none
    | .nobody => none

end FrameSession

end YuriRtc
