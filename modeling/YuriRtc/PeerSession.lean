import YuriRtc.Assoc
import YuriRtc.RequestBody
/-!
# PeerSession — the requests of one peer, one lock section at a time

`content-node/server.go`: frames in (`OnMessage`), admission (`begin`), dispatch (`nextPendingLocked`, `dispatchLoop`,
`serveRequest`), cancellation and the tombstones of unfinished uploads, upload credit, the body timer, lane loss and
`Close`.  A `*requestState` is a `Ref` into `states`, so that an id can come again while an old handler still runs.  What a
goroutine has left to do is a list of `Section`s, each one critical section of `s.mu` or `state.bodyMu` (or one act
between two of them).  A lane's frames are handled one after the other: `receive` needs its `rx` empty.  Other goroutines
stand in `tasks`.  Everything the session asks of the outside comes with the event, in `Env`: the clock, whether
`lane.send` fails, whether the send buffers are full, whether the global tokens are there.

`noteProtocolViolation` and `sendBoundedError` only count and send, so they are run in the section that decides on them.
Carried websockets are left out but for the violations their frames can be charged with.
-/
namespace YuriRtc

open Function (update)

abbrev Ref := Nat

/-! Limits -/

def maxAdmittedRequestsPerPeer : Nat := 256
def maxActiveRequestsPerPeer : Nat := 16
def maxActiveNonInteractivePerPeer : Nat := 3
def maxBodyRequestsPerPeer : Nat := 4
def requestBodyIdleTimeout : Nat := 30000
def rejectedBodyTombstoneLifetime : Nat := requestBodyIdleTimeout
def maxRejectedBodyTombstonesPerPeer : Nat := maxAdmittedRequestsPerPeer
def maxProtocolViolationsPerPeer : Nat := 8
def maxCapacityErrorSendsPerPeer : Nat := 32
def maxRequestHeadBytes : Nat := 16 * 1024

structure RequestHead where
  version : Nat
  method : List Char
  url : List Char
  hasBody : Bool
  priority : Nat
  initialCredits : Nat
deriving DecidableEq, Repr

def validateRequestHead (head : RequestHead) : Option String :=
  if head.version ≠ protocolVersion then some "YuriRTC protocol v3 required"
  else if head.method = [] ∨ head.url = [] then some "request method and URL are required"
  else if 3 < head.priority then some "request priority is outside the supported range"
  else if head.initialCredits = 0 ∨ maxResponseCredits < head.initialCredits then
    some "initialCredits must be between 1 and 64"
  else none

def priorityClass : Nat → RequestPriority
  | 0 => .interactive
  | 1 => .critical
  | 2 => .normal
  | _ => .bulk

/-- The errors of `enqueueRequestBody`. -/
inductive UploadError where
  | tooLarge
  | creditExhausted
  | body (e : BodyError)
deriving DecidableEq, Repr

inductive PeerFrame where
  | undecodable
  /-- `head` is what `json.Unmarshal` makes of a payload of `size` bytes. -/
  | req (id size : Nat) (head : Option RequestHead)
  | reqBody (id : Nat) (payload : Bytes)
  | reqEnd (id : Nat)
  | credit (id count : Nat)
  | cancel (id : Nat)
  | webSocket (violates : Bool)
  | response
deriving DecidableEq, Repr

inductive NodeFrame where
  | resHead
  | resBody
  | resEnd
  | resErr (message code : String)
  | reqCredit (count : Nat)
deriving DecidableEq, Repr

/-- `requestState`.  Without `hasBody` its body is nil. -/
structure RequestState where
  id : Nat
  lane : Nat
  priority : RequestPriority
  hasBody : Bool
  started : Bool
  /-- `ctx` is done. -/
  cancelled : Bool
  body : AsyncRequestBody
  bodyBytes : Nat
  bodyEnded : Bool
  bodyTimedOut : Bool
  bodyDeadline : Nat
  requestCreditsAvailable : Nat
  requestCreditsPending : Nat

structure RejectedBodyTombstone where
  lane : Nat
  remaining : Nat
  expires : Nat
deriving DecidableEq, Repr

inductive Section where
  /-- `OnMessage` holds the state of a `ReqBody` frame: `enqueueRequestBody`. -/
  | enqueueBody (id lane : Nat) (r : Ref) (payload : Bytes)
  /-- the frame was not enqueued: `discardRacedRequestBodyError`. -/
  | discardRaced (id lane : Nat) (r : Ref) (e : UploadError)
  /-- `discardRejectedRequestBody` for a frame without a request. -/
  | discardBody (id lane : Nat) (isEnd : Bool)
  /-- the same for a `Cancel`, which needs no tombstone. -/
  | dropTombstone (id lane : Nat)
  | endBody (r : Ref)
  /-- `hasUnfinishedRequestBody`, before `cancelRequestStateWithTrailing`. -/
  | snapshot (id : Nat) (r : Ref)
  /-- `cancelRequestStateWithTrailing` under `s.mu`; a timeout that was the one to cancel answers the browser. -/
  | cancelState (id : Nat) (r : Ref) (allowTrailing timedOut : Bool)
  | cancelContext (r : Ref)
  | stopBody (r : Ref)
  | closeBody (r : Ref)
  | closeCurrent (r : Ref)
  | timeoutError (id : Nat)
  /-- `begin` after the request is admitted. -/
  | sendInitialCredits (r : Ref)
  | armTimer (r : Ref)
  | serve (r : Ref)
  | handlerExited (nonInteractive : Bool)
deriving DecidableEq, Repr

structure Env where
  now : Nat := 0
  sendOk : Bool := true
  saturated : Bool := false
  admissionToken : Bool := true
  bodyFrames : Bool := true
  evict : Nat := 0
  /-- `Serve` returned an error that is not `context.Canceled`. -/
  failed : Bool := false
deriving DecidableEq, Repr

structure PeerSession where
  closed : Bool
  /-- the lanes attached now; each `Attach` makes a new one. -/
  lanes : List Nat
  nextLane : Nat
  next : Ref
  states : Ref → RequestState
  requests : AList (fun _ : Nat => Ref)
  rejectedBodies : AList (fun _ : Nat => RejectedBodyTombstone)
  pending : RequestPriority → List Ref
  activeHandlers : Nat
  activeNonInteractive : Nat
  bodyRequests : Nat
  protocolViolations : Nat
  capacityErrorSends : Nat
  peerCloseRequested : Bool
  picked : Option Ref
  rx : Nat → List Section
  tasks : Nat → List Section
  nextTask : Nat
  wire : Nat → List NodeFrame

namespace RequestState

def newRequestState (id lane : Nat) (head : RequestHead) : RequestState where
  id := id
  lane := lane
  priority := priorityClass head.priority
  hasBody := head.hasBody
  started := false
  cancelled := false
  body := .newAsyncRequestBody
  bodyBytes := 0
  bodyEnded := false
  bodyTimedOut := false
  bodyDeadline := 0
  requestCreditsAvailable := if head.hasBody then maxRequestCredits else 0
  requestCreditsPending := 0

def hasUnfinishedRequestBody (st : RequestState) : Bool := st.hasBody && !st.bodyEnded

def enqueueRequestBody (st : RequestState) (payload : Bytes) (now : Nat) : Except UploadError RequestState :=
  if st.bodyEnded then .error (.body .ended)
  else if st.requestCreditsAvailable = 0 then .error .creditExhausted
  else if maxRequestBodyBytes - st.bodyBytes < payload.length then .error .tooLarge
  else
    match st.body.enqueue payload with
    | .error e => .error (.body e)
    | .ok body =>
      .ok { st with
        body := body
        requestCreditsAvailable := st.requestCreditsAvailable - 1
        bodyBytes := st.bodyBytes + payload.length
        bodyDeadline := now + requestBodyIdleTimeout }

def endRequestBody (st : RequestState) : RequestState :=
  if st.bodyEnded then st else { st with bodyEnded := true, bodyDeadline := 0, body := st.body.endBody }

/-- `stopRequestBody` under `bodyMu`. -/
def stopRequestBody (st : RequestState) : RequestState := { st with bodyEnded := true, bodyDeadline := 0 }

def cancelContext (st : RequestState) : RequestState :=
  { st with cancelled := true, body := { st.body with ctxDone := true } }

/-- The grant `requestBodyChunkConsumed` computes once it does not batch, from the credits consumed so far. -/
def creditGrant (st : RequestState) : Nat :=
  min (st.requestCreditsPending + 1) (maxRequestCredits - st.requestCreditsAvailable)

/-- `requestBodyChunkConsumed` under `bodyMu`: the state it leaves and the credit it sends, if any. -/
def requestBodyChunkConsumed (st : RequestState) : RequestState × Nat :=
  if st.bodyEnded || st.cancelled then (st, 0)
  else if st.requestCreditsPending + 1 < requestCreditBatchSize ∧ st.requestCreditsAvailable ≠ 0 then
    ({ st with requestCreditsPending := st.requestCreditsPending + 1 }, 0)
  else
    ({ st with
      requestCreditsPending := st.requestCreditsPending + 1 - st.creditGrant
      requestCreditsAvailable := st.requestCreditsAvailable + st.creditGrant }, st.creditGrant)

end RequestState

namespace PeerSession

def newPeerSession : PeerSession where
  closed := false
  lanes := []
  nextLane := 0
  next := 0
  states := fun _ => .newRequestState 0 0 ⟨0, [], [], false, 0, 0⟩
  requests := ∅
  rejectedBodies := ∅
  pending := fun _ => []
  activeHandlers := 0
  activeNonInteractive := 0
  bodyRequests := 0
  protocolViolations := 0
  capacityErrorSends := 0
  peerCloseRequested := false
  picked := none
  rx := fun _ => []
  tasks := fun _ => []
  nextTask := 0
  wire := fun _ => []

def modify (s : PeerSession) (r : Ref) (f : RequestState → RequestState) : PeerSession :=
  { s with states := update s.states r (f (s.states r)) }

def send (s : PeerSession) (id : Nat) (frame : NodeFrame) : PeerSession :=
  { s with wire := update s.wire id (s.wire id ++ [frame]) }

/-- `go` -/
def spawn (s : PeerSession) (sections : List Section) : PeerSession :=
  { s with tasks := update s.tasks s.nextTask sections, nextTask := s.nextTask + 1 }

/-- `s.requests[id] == state` -/
def isLive (s : PeerSession) (r : Ref) : Bool := s.requests.lookup (s.states r).id == some r

/-! ### Violations and errors -/

def requestPeerClose (s : PeerSession) : PeerSession := { s with peerCloseRequested := true }

def noteProtocolViolation (s : PeerSession) : PeerSession × Bool :=
  if s.closed then (s, false)
  else
    let counted := { s with protocolViolations := s.protocolViolations + 1 }
    (if s.protocolViolations + 1 = maxProtocolViolationsPerPeer then counted.requestPeerClose else counted,
      decide (s.protocolViolations + 1 ≤ maxProtocolViolationsPerPeer))

def sendBoundedError (s : PeerSession) (env : Env) (id : Nat) (message code : String) : PeerSession :=
  if env.saturated then s.requestPeerClose
  else if env.sendOk then s.send id (.resErr message code)
  else s

def rejectProtocol (s : PeerSession) (env : Env) (id : Nat) (message code : String) : PeerSession :=
  if s.noteProtocolViolation.2 then s.noteProtocolViolation.1.sendBoundedError env id message code
  else s.noteProtocolViolation.1

def sendCapacityError (s : PeerSession) (env : Env) (id : Nat) (message code : String) : PeerSession :=
  if s.closed then s
  else if maxCapacityErrorSendsPerPeer ≤ s.capacityErrorSends then s.requestPeerClose
  else { s with capacityErrorSends := s.capacityErrorSends + 1 }.sendBoundedError env id message code

/-! ### Tombstones -/

def pruneRejectedBodiesLocked (s : PeerSession) (now : Nat) : PeerSession :=
  { s with rejectedBodies := Assoc.keep (fun t => decide (now < t.expires)) s.rejectedBodies }

def oldestTombstone (tombstones : AList (fun _ : Nat => RejectedBodyTombstone)) (evict : Nat) : Option Nat :=
  let oldest := tombstones.entries.filter
    (fun e => tombstones.entries.all (fun f => decide (e.2.expires ≤ f.2.expires)))
  (oldest[evict % oldest.length]?).map Sigma.fst

def evictRejectedBody (s : PeerSession) (env : Env) : PeerSession :=
  if s.rejectedBodies.entries.length < maxRejectedBodyTombstonesPerPeer then s
  else
    match oldestTombstone s.rejectedBodies env.evict with
    | none => s
    | some oldest => { s with rejectedBodies := s.rejectedBodies.erase oldest }

def rememberRejectedBodyLocked (s : PeerSession) (env : Env) (id lane : Nat) : PeerSession :=
  let evicted := (s.pruneRejectedBodiesLocked env.now).evictRejectedBody env
  { evicted with
    rejectedBodies := evicted.rejectedBodies.insert id
      ⟨lane, maxRejectedBodyTrailingFrames, env.now + rejectedBodyTombstoneLifetime⟩ }

def discardRejectedRequestBody (s : PeerSession) (env : Env) (id lane : Nat) (isEnd : Bool) : PeerSession × Bool :=
  let pruned := s.pruneRejectedBodiesLocked env.now
  match pruned.rejectedBodies.lookup id with
  | none => (pruned, false)
  | some tombstone =>
    if tombstone.lane ≠ lane then (pruned, false)
    else if isEnd then ({ pruned with rejectedBodies := pruned.rejectedBodies.erase id }, true)
    else if tombstone.remaining = 0 then (pruned, false)
    else
      ({ pruned with
        rejectedBodies := pruned.rejectedBodies.insert id { tombstone with remaining := tombstone.remaining - 1 } }, true)

/-! ### Admission -/

/-- `begin`, up to where it lets go of `s.mu`; the frame's goroutine goes on with the sections that come with it. -/
def begin (s : PeerSession) (env : Env) (lane id : Nat) (head : RequestHead) : PeerSession × List Section :=
  if s.closed ∨ lane ∉ s.lanes then (s, [])
  else if (s.requests.lookup id).isSome then (s.rejectProtocol env id "duplicate request id" "DUPLICATE_REQUEST", [])
  else
    let pruned := s.pruneRejectedBodiesLocked env.now
    if (pruned.rejectedBodies.lookup id).isSome then
      (pruned.rejectProtocol env id "request id is still draining" "DUPLICATE_REQUEST", [])
    else if maxAdmittedRequestsPerPeer ≤ s.requests.entries.length then
      (pruned.sendCapacityError env id "too many concurrent requests" "REQUEST_CAPACITY", [])
    else if head.hasBody ∧ maxBodyRequestsPerPeer ≤ s.bodyRequests then
      (pruned.sendCapacityError env id "too many request bodies" "REQUEST_BODY_CAPACITY", [])
    else if env.admissionToken = false then
      (pruned.sendCapacityError env id "server request capacity exhausted" "SERVER_BUSY", [])
    else if head.hasBody ∧ env.bodyFrames = false then
      (pruned.sendCapacityError env id "server request-body capacity exhausted" "SERVER_BUSY", [])
    else
      let r := s.next
      let priority := priorityClass head.priority
      ({ pruned with
        next := r + 1
        states := update s.states r (.newRequestState id lane head)
        bodyRequests := if head.hasBody then s.bodyRequests + 1 else s.bodyRequests
        requests := s.requests.insert id r
        pending := update s.pending priority (s.pending priority ++ [r]) },
        if head.hasBody then [.sendInitialCredits r] else [])

/-! ### Frames -/

def requestOnLane (s : PeerSession) (id lane : Nat) : Option Ref :=
  match s.requests.lookup id with
  | none => none
  | some r => if (s.states r).lane = lane then some r else none

/-- `OnMessage`, up to where it lets go of its first lock. -/
def onMessage (s : PeerSession) (env : Env) (lane : Nat) : PeerFrame → PeerSession × List Section
  | .undecodable => (s.noteProtocolViolation.1, [])
  | .req id size head =>
    if maxRequestHeadBytes < size then (s.rejectProtocol env id "request metadata too large" "BAD_REQUEST", [])
    else
      match head with
      | none => (s.rejectProtocol env id "invalid request" "BAD_REQUEST", [])
      | some head =>
        match validateRequestHead head with
        | some message =>
          (s.rejectProtocol env id message
            (if head.version ≠ protocolVersion then "UNSUPPORTED_PROTOCOL" else "BAD_REQUEST"), [])
        | none => s.begin env lane id head
  | .reqBody id payload =>
    match s.requestOnLane id lane with
    | some r =>
      if (s.states r).hasBody then (s, [.enqueueBody id lane r payload]) else (s, [.discardBody id lane false])
    | none => (s, [.discardBody id lane false])
  | .reqEnd id =>
    match s.requestOnLane id lane with
    | some r => if (s.states r).hasBody then (s, [.endBody r]) else (s, [.discardBody id lane true])
    | none => (s, [.discardBody id lane true])
  | .credit id count =>
    if count = 0 then (s.noteProtocolViolation.1, [])
    else
      match s.requests.lookup id with
      | none => (s, [])
      | some r => if (s.states r).lane ≠ lane then (s.noteProtocolViolation.1, []) else (s, [])
  | .cancel id =>
    match s.requestOnLane id lane with
    | some r => (s, [.snapshot id r])
    | none => (s, [.dropTombstone id lane])
  | .webSocket violates => (if violates then s.noteProtocolViolation.1 else s, [])
  | .response => (s.noteProtocolViolation.1, [])

def bodyErrorReply : UploadError → String × String
  | .tooLarge => ("request body too large", "REQUEST_BODY_TOO_LARGE")
  | .creditExhausted => ("request body exceeded its credit window", "REQUEST_BODY_CREDIT_EXHAUSTED")
  | .body _ => ("request body arrived too quickly", "REQUEST_BODY_BACKPRESSURE")

def bodyErrorAllowsTrailing : UploadError → Bool
  | .tooLarge | .body .queueFull | .body .closed => true
  | .creditExhausted | .body .ended => false

def discardRacedRequestBodyError (s : PeerSession) (env : Env) (id lane : Nat) : UploadError → PeerSession × Bool
  | .body .closed | .body .ended => s.discardRejectedRequestBody env id lane false
  | .body .queueFull | .tooLarge | .creditExhausted => (s, false)

/-- `cancelRequestStateWithTrailing` under `s.mu`, for a request that is still there. -/
def removeRequest (s : PeerSession) (env : Env) (id : Nat) (r : Ref) (allowTrailing : Bool) : PeerSession :=
  let st := s.states r
  let removed := { s with
    requests := s.requests.erase id
    bodyRequests := if st.hasBody then s.bodyRequests - 1 else s.bodyRequests }
  if allowTrailing && st.hasBody then removed.rememberRejectedBodyLocked env id st.lane else removed

def exec (s : PeerSession) (env : Env) : Section → PeerSession × List Section
  | .enqueueBody id lane r payload =>
    match (s.states r).enqueueRequestBody payload env.now with
    | .ok st => (s.modify r (fun _ => st), [])
    | .error e => (s, [.discardRaced id lane r e])
  | .discardRaced id lane r e =>
    let discarded := s.discardRacedRequestBodyError env id lane e
    if discarded.2 then (discarded.1, [])
    else
      (discarded.1.rejectProtocol env id (bodyErrorReply e).1 (bodyErrorReply e).2,
        [.cancelState id r (bodyErrorAllowsTrailing e) false])
  | .discardBody id lane isEnd =>
    let discarded := s.discardRejectedRequestBody env id lane isEnd
    (if discarded.2 then discarded.1 else discarded.1.noteProtocolViolation.1, [])
  | .dropTombstone id lane => ((s.discardRejectedRequestBody env id lane true).1, [])
  | .endBody r => (s.modify r RequestState.endRequestBody, [])
  | .snapshot id r => (s, [.cancelState id r (s.states r).hasUnfinishedRequestBody false])
  | .cancelState id r allowTrailing timedOut =>
    if s.requests.lookup id = some r then
      (s.removeRequest env id r allowTrailing, .cancelContext r :: if timedOut then [.timeoutError id] else [])
    else (s, [])
  | .cancelContext r =>
    (s.modify r RequestState.cancelContext, if (s.states r).hasBody then [.stopBody r] else [])
  | .stopBody r => (s.modify r RequestState.stopRequestBody, [.closeBody r])
  | .closeBody r => (s.modify r (fun st => { st with body := st.body.close }), [.closeCurrent r])
  | .closeCurrent r => (s.modify r (fun st => { st with body := (st.body.step .closeCurrent).getD st.body }), [])
  | .timeoutError id => (s.sendBoundedError env id "request body timed out" "REQUEST_BODY_TIMEOUT", [])
  | .sendInitialCredits r =>
    if env.sendOk then (s.send (s.states r).id (.reqCredit maxRequestCredits), [.armTimer r])
    else (s, [.cancelState (s.states r).id r false false])
  | .armTimer r =>
    (s.modify r (fun st => if st.bodyEnded then st else { st with bodyDeadline := env.now + requestBodyIdleTimeout }), [])
  | .serve r =>
    let st := s.states r
    (if env.failed = true ∧ s.requestOnLane st.id st.lane = some r then
        s.sendBoundedError env st.id "request failed" "REQUEST_FAILED"
      else s, [.snapshot st.id r])
  | .handlerExited nonInteractive =>
    ({ s with
      activeHandlers := s.activeHandlers - 1
      activeNonInteractive := if nonInteractive then s.activeNonInteractive - 1 else s.activeNonInteractive }, [])

/-! ### Dispatch -/

/-- An entry of `pending` that is skipped: its request has started, or is not the one under its id any more. -/
def isStale (s : PeerSession) (r : Ref) : Bool := (s.states r).started || !s.isLive r

/-- The loop of `nextPendingLocked` over the classes that are left. -/
def nextPendingIn (s : PeerSession) : List RequestPriority → PeerSession × Option Ref
  | [] => (s, none)
  | p :: classes =>
    if p ≠ .interactive ∧ maxActiveNonInteractivePerPeer ≤ s.activeNonInteractive then s.nextPendingIn classes
    else
      let queue := (s.pending p).dropWhile s.isStale
      let pruned := { s with pending := update s.pending p queue }
      match queue with
      | [] => pruned.nextPendingIn classes
      | r :: _ => (pruned, some r)

def nextPendingLocked (s : PeerSession) : PeerSession × Option Ref :=
  if maxActiveRequestsPerPeer ≤ s.activeHandlers then (s, none)
  else s.nextPendingIn [.interactive, .critical, .normal, .bulk]

/-- The second section of a turn of `dispatchLoop`, with the tokens it waited for. -/
def startPicked (s : PeerSession) (r : Ref) : PeerSession :=
  let st := s.states r
  let nonInteractive := decide (st.priority ≠ .interactive)
  if !s.closed && s.isLive r && !st.started && decide (s.activeHandlers < maxActiveRequestsPerPeer) &&
      (!nonInteractive || decide (s.activeNonInteractive < maxActiveNonInteractivePerPeer)) then
    ({ s.modify r (fun st => { st with started := true }) with
      picked := none
      activeHandlers := s.activeHandlers + 1
      activeNonInteractive := if nonInteractive then s.activeNonInteractive + 1 else s.activeNonInteractive }).spawn
        [.serve r, .handlerExited nonInteractive]
  else { s with picked := none }

/-! ### Timer, consumer and lanes -/

/-- `expireRequestBody`, with the cancellation it ends in left to its goroutine. -/
def expireRequestBody (s : PeerSession) (env : Env) (r : Ref) : PeerSession :=
  let st := s.states r
  if st.bodyEnded || st.bodyTimedOut || decide (env.now < st.bodyDeadline) then s
  else
    let timedOut := s.modify r (fun st => { st with bodyTimedOut := true, bodyEnded := true })
    if s.isLive r then
      (timedOut.rememberRejectedBodyLocked env st.id st.lane).spawn [.cancelState st.id r false true]
    else timedOut

def isConsumerEvent : BodyEvent → Bool
  | .readCall _ | .writeToCall | .advance | .woken | .ctxDone | .wrote _ _ | .unlock => true
  | .enqueue _ | .endBody | .close | .closeCurrent | .cancel | .consumedReturn => false

/-- `requestBodyChunkConsumed` as the consumer of `r` calls it; a refill that cannot be sent cancels the request. -/
def chunkConsumed (s : PeerSession) (env : Env) (r : Ref) (next : Consumer) : PeerSession :=
  let st := s.states r
  let (st', grant) := st.requestBodyChunkConsumed
  let returned := s.modify r (fun _ => { st' with body := { st'.body with consumer := next } })
  if grant = 0 then returned
  else if env.sendOk then returned.send st.id (.reqCredit grant)
  else returned.spawn [.cancelState st.id r false false]

def attach (s : PeerSession) : PeerSession :=
  { s with lanes := s.nextLane :: s.lanes, nextLane := s.nextLane + 1 }

/-- The references of the requests in `requests`. -/
def liveRefs (s : PeerSession) : List Ref := s.requests.entries.map Sigma.snd

/-- `detachLane` of the control lane, or of another one. -/
def detachLane (s : PeerSession) (lane : Nat) (control : Bool) : PeerSession :=
  let onLane := s.liveRefs.filter (fun r => decide ((s.states r).lane = lane))
  let detached := { s with lanes := s.lanes.filter (· ≠ lane) }.spawn
    (onLane.map (fun r => .cancelState (s.states r).id r false false))
  if control || detached.lanes.isEmpty then detached.requestPeerClose else detached

def close (s : PeerSession) : PeerSession :=
  if s.closed then s
  else
    { s with closed := true, requests := ∅, rejectedBodies := ∅, bodyRequests := 0, lanes := [] }.spawn
      (s.liveRefs.map .cancelContext)

/-! ### Steps -/

inductive SessionEvent where
  | receive (lane : Nat) (frame : PeerFrame) (env : Env)
  | laneGoesOn (lane : Nat) (env : Env)
  | taskGoesOn (task : Nat) (env : Env)
  /-- the two sections of a turn of `dispatchLoop`; it may give up on the request it picked. -/
  | dispatch
  | startPicked
  | dropPicked
  | timer (r : Ref) (env : Env)
  | consumer (r : Ref) (e : BodyEvent)
  | chunkConsumed (r : Ref) (env : Env)
  | handlerCloses (r : Ref)
  /-- a handler's `SendHead`, `SendBody` or `SendEnd` puts a frame on its lane. -/
  | respond (r : Ref) (frame : NodeFrame)
  | attach
  | detachLane (lane : Nat) (control : Bool)
  | close
deriving DecidableEq, Repr

def isResponse : NodeFrame → Bool
  | .resHead | .resBody | .resEnd => true
  | .resErr _ _ | .reqCredit _ => false

def goOn (s : PeerSession) (env : Env) : List Section → Option (PeerSession × List Section)
  | [] => none
  | c :: rest => some ((s.exec env c).1, (s.exec env c).2 ++ rest)

def step (s : PeerSession) : SessionEvent → Option PeerSession
  | .receive lane frame env =>
    -- a channel's `OnClose` comes after its last message, so a lane that is gone is silent unless the peer is closed
    if s.rx lane = [] ∧ (lane ∈ s.lanes ∨ s.closed = true) then
      let (handled, sections) := s.onMessage env lane frame
      some { handled with rx := update handled.rx lane sections }
    else none
  | .laneGoesOn lane env =>
    (s.goOn env (s.rx lane)).map fun (next, rest) => { next with rx := update next.rx lane rest }
  | .taskGoesOn task env =>
    (s.goOn env (s.tasks task)).map fun (next, rest) => { next with tasks := update next.tasks task rest }
  | .dispatch =>
    if s.closed ∨ s.picked.isSome then none
    else some { s.nextPendingLocked.1 with picked := s.nextPendingLocked.2 }
  | .startPicked => s.picked.map s.startPicked
  | .dropPicked => some { s with picked := none }
  | .timer r env =>
    -- without a deadline the timer is not armed, or stopped
    if r < s.next ∧ (s.states r).hasBody ∧ (s.states r).bodyDeadline ≠ 0 then some (s.expireRequestBody env r) else none
  | .consumer r e =>
    if r < s.next ∧ (s.states r).hasBody ∧ isConsumerEvent e then
      ((s.states r).body.step e).map fun body => s.modify r (fun st => { st with body := body })
    else none
  | .chunkConsumed r env =>
    if r < s.next ∧ (s.states r).hasBody then
      match (s.states r).body.consumer with
      | .consumed next => some (s.chunkConsumed env r next)
      | _ => none
    else none
  | .handlerCloses r =>
    if r < s.next ∧ (s.states r).hasBody ∧ (s.states r).started then
      some ((s.modify r (fun st => { st with body := st.body.close })).spawn [.closeCurrent r])
    else none
  | .respond r frame =>
    if r < s.next ∧ (s.states r).started ∧ isResponse frame then some (s.send (s.states r).id frame) else none
  | .attach => if s.closed then none else some s.attach
  | .detachLane lane control => if lane ∈ s.lanes ∧ s.rx lane = [] then some (s.detachLane lane control) else none
  | .close => some s.close

end PeerSession
end YuriRtc
