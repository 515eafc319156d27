import YuriRtc.Assoc
import YuriRtc.LaneScheduler
/-!
# PageClient — the page's requests, their lanes and what it tells the worker

`YuriRTCClient` of `packages/loader/src/client.ts` within one connection and without a successor: `startRequest` with the
lane it asks for (`ensureBulkChannels`, `acquireScheduledChannel`, `releaseLaneWaiters`), `onSwMessage`, `onFrame`, `finish`,
`cancelRequest`, the closing of lanes, `teardown`, and the maps these keep.  An event is what runs without giving way: a
message, a frame, a lane's event, a timer, or a `startRequest` going on after an `await`.  A `startRequest` that is
suspended is an entry of `starts`; the `AbortController` of its request is its number.  Whether `channel.send` throws comes
with the event.  A lane is a number, and `labels` says which of the four it is; `channelLoads` is a map of its own, as in the
source.

`posts` is what has been posted on a port, for which start.  Left out: the frames sent, the body's bytes, carried sockets
(of which only that they draw ids from the same source), the collectors of direct requests, and the listeners.
-/
namespace YuriRtc

open Function (update)

inductive ReadyState where
  | connecting
  | opened
  | closing
  | closed
deriving DecidableEq, Repr

structure PageHead where
  priority : RequestPriority
  url : List Char
  hasBody : Bool
  initialCredits : Nat
deriving DecidableEq, Repr

/-- Where a `startRequest` is suspended. -/
inductive StartPhase where
  | opening
  /-- in `laneWaiters`. -/
  | waiting
  | granted (channel : Option Nat)
  | uploading (requestId channel : Nat)
  /-- in `body.cancel`, of a body nobody asked for. -/
  | cancellingBody (requestId channel : Nat)
deriving DecidableEq, Repr

/-- A `startRequest` that has not returned.  `arrived` is how much had been posted when it was called. -/
structure PageStart where
  swId : Int
  head : PageHead
  hasStream : Bool
  cancelled : Bool
  aborted : Bool
  phase : StartPhase
  arrived : Nat
deriving DecidableEq, Repr

/-- An entry of `inbound`; `start`, `constrained` and `arrived` are its `startRequest`'s. -/
structure InboundRequest where
  swId : Int
  channel : Nat
  start : Nat
  constrained : Bool
  arrived : Nat
deriving DecidableEq, Repr

/-- Page to worker.  A message is `none` where it is the text of what was thrown, or the node's. -/
inductive PagePost where
  | head (start : Nat) (swId : Int)
  | body (start : Nat) (swId : Int)
  | finish (start : Nat) (swId : Int)
  | err (start : Nat) (swId : Int) (message : Option String)
  | down
deriving DecidableEq, Repr

def PagePost.isDirect : PagePost → Bool
  | .head _ swId | .body _ swId | .finish _ swId | .err _ swId _ => decide (swId < 0)
  | .down => false

/-- Frames of a response, decoded; `none` where the payload cannot be. -/
inductive PageFrame where
  | resHead (decoded : Bool)
  | resBody
  | resEnd
  | resErr (decoded : Bool)
  | reqCredit (count : Option Nat)
deriving DecidableEq, Repr

structure RequestMaps where
  inbound : AList (fun _ : Nat => InboundRequest)
  outbound : AList (fun _ : Nat => Nat)
  swByRequest : AList (fun _ : Nat => Int)
  requestBySw : AList (fun _ : Int => Nat)
  requestAbortControllers : AList (fun _ : Nat => Nat)
  uploads : AList (fun _ : Nat => Nat)

structure PageClient where
  maps : RequestMaps
  startingRequests : AList (fun _ : Int => Nat)
  starts : AList (fun _ : Nat => PageStart)
  nextStart : Nat
  /-- what `createRequestIdSource` gives next. -/
  nextRequestId : Nat
  nextDirectId : Int
  channels : List Nat
  nextChannel : Nat
  labels : Nat → Nat
  readyState : Nat → ReadyState
  bufferedAmount : Nat → Nat
  channelLoads : AList (fun _ : Nat => Nat)
  channelOpenPromises : List Nat
  laneWaiters : List Nat
  bulkOpening : Bool
  bulkIdleTimer : Bool
  port : Bool
  transportDown : Bool
  posts : List PagePost

structure Sends where
  first : Bool := true
  second : Bool := true
deriving DecidableEq, Repr

inductive PageEvent where
  | req (swId : Int) (head : PageHead) (hasStream : Bool) (sends : Sends)
  | credit (swId : Int) (n : Int) (sent : Bool)
  | cancel (swId : Int)
  /-- `request`, without a worker. -/
  | direct (head : PageHead) (sends : Sends)
  | directCredit (id : Int) (n : Int) (sent : Bool)
  | cancelDirect (id : Int)
  | attached
  | standby
  | rejectedAttach
  | attachPort
  | frame (channel requestId : Nat) (frame : PageFrame)
  /-- a start goes on after `ensureBulkChannels`. -/
  | lanes (start : Nat) (ok : Bool) (sends : Sends)
  /-- a start goes on after `acquireScheduledChannel`. -/
  | resume (start : Nat) (sends : Sends)
  | takeUploadCredit (start : Nat)
  | uploaded (start : Nat) (ok : Bool) (sends : Sends)
  | bodyCancelled (start : Nat)
  | opens (channel : Nat)
  | closing (channel : Nat)
  | closed (channel : Nat)
  | buffered (channel amount : Nat)
  | bulkOpened (ok : Bool)
  | idleTimer
  | teardown
  | drawId
deriving DecidableEq, Repr

namespace RequestMaps

def empty : RequestMaps := ⟨∅, ∅, ∅, ∅, ∅, ∅⟩

/-- The entries `startRequest` makes. -/
def register (m : RequestMaps) (requestId credit : Nat) (entry : InboundRequest) (hasBody : Bool) : RequestMaps where
  inbound := m.inbound.insert requestId entry
  outbound := m.outbound.insert requestId credit
  swByRequest := m.swByRequest.insert requestId entry.swId
  requestBySw := m.requestBySw.insert entry.swId requestId
  requestAbortControllers := m.requestAbortControllers.insert requestId entry.start
  uploads := if hasBody then m.uploads.insert requestId 0 else m.uploads

/-- The entries `finish` deletes. -/
def remove (m : RequestMaps) (requestId : Nat) : RequestMaps where
  inbound := m.inbound.erase requestId
  outbound := m.outbound.erase requestId
  swByRequest := m.swByRequest.erase requestId
  requestBySw :=
    match m.swByRequest.lookup requestId with
    | some swId => m.requestBySw.erase swId
    | none => m.requestBySw
  requestAbortControllers := m.requestAbortControllers.erase requestId
  uploads := m.uploads.erase requestId

end RequestMaps

namespace PageClient

def maxRequestId : Nat := 0xffffffff

def connected : PageClient where
  maps := .empty
  startingRequests := ∅
  starts := ∅
  nextStart := 0
  nextRequestId := 1
  nextDirectId := -1
  channels := [0]
  nextChannel := 1
  labels _ := 0
  readyState _ := .opened
  bufferedAmount _ := 0
  channelLoads := (∅ : AList (fun _ : Nat => Nat)).insert 0 0
  channelOpenPromises := []
  laneWaiters := []
  bulkOpening := false
  bulkIdleTimer := false
  port := true
  transportDown := false
  posts := []

variable (s : PageClient)

/-- `post`: what is for a direct request goes to its collector, and without a port the rest is gone. -/
def post (message : PagePost) : PageClient :=
  if s.port = true ∧ message.isDirect = false then { s with posts := s.posts ++ [message] } else s

def modifyStart (n : Nat) (f : PageStart → PageStart) : PageClient :=
  match s.starts.lookup n with
  | some st => { s with starts := s.starts.insert n (f st) }
  | none => s

def setPhase (n : Nat) (phase : StartPhase) : PageClient := s.modifyStart n fun st => { st with phase := phase }

def cancelStart (n : Nat) : PageClient := s.modifyStart n fun st => { st with cancelled := true }

/-! ### Lanes -/

def load (c : Nat) : Nat := (s.channelLoads.lookup c).getD 0

def lane (c : Nat) : Lane := ⟨c, decide (s.readyState c = .opened), s.load c, s.bufferedAmount c⟩

def chooseChannel (head : PageHead) : Option Nat :=
  (LaneScheduler.chooseChannel (s.channels.map s.lane) head.priority head.url).map Lane.id

def setLoad (c load : Nat) : PageClient := { s with channelLoads := s.channelLoads.insert c load }

def reserve (c : Nat) : PageClient := s.setLoad c (s.load c + 1)

/-- The loop of `releaseLaneWaiters`. -/
def releaseWaiters (s : PageClient) : List Nat → PageClient
  | [] => { s with laneWaiters := [] }
  | n :: rest =>
    match s.starts.lookup n with
    | none => releaseWaiters s rest
    | some st =>
      if st.cancelled then releaseWaiters (s.setPhase n (.granted none)) rest
      else
        match s.chooseChannel st.head with
        | none => { s with laneWaiters := n :: rest }
        | some c =>
          if 1 ≤ s.load c then { s with laneWaiters := n :: rest }
          else releaseWaiters ((s.reserve c).setPhase n (.granted (some c))) rest

def releaseLaneWaiters : PageClient := s.releaseWaiters s.laneWaiters

def releaseChannelReservation (c : Nat) : PageClient :=
  (if (s.channelLoads.lookup c).isSome then s.setLoad c (s.load c - 1) else s).releaseLaneWaiters

def bulkActive : Bool := s.channels.tail.any fun c => decide (0 < s.load c)

def scheduleBulkIdleClose : PageClient :=
  { s with bulkIdleTimer := !s.bulkActive && decide (1 < s.channels.length) }

def removeChannel (c : Nat) : PageClient :=
  { s with
    channels := s.channels.filter (· ≠ c)
    channelLoads := s.channelLoads.erase c
    channelOpenPromises := s.channelOpenPromises.filter (· ≠ c) }

/-- `channel.close()` -/
def closeChannel (c : Nat) : PageClient :=
  { s with readyState := update s.readyState c (if s.readyState c = .closed then .closed else .closing) }

/-- `createDataChannel` and `prepareChannel`. -/
def createChannel (label : Nat) : PageClient :=
  { s with
    channels := s.channels ++ [s.nextChannel]
    nextChannel := s.nextChannel + 1
    labels := update s.labels s.nextChannel label
    readyState := update s.readyState s.nextChannel .connecting
    bufferedAmount := update s.bufferedAmount s.nextChannel 0
    channelLoads := s.channelLoads.insert s.nextChannel 0
    channelOpenPromises := s.nextChannel :: s.channelOpenPromises }

/-- The first loop of `ensureBulkChannels`, over the lanes after lane zero; `seen` are the labels in `existing`. -/
def dropLanes (s : PageClient) (seen : List Nat) : List Nat → PageClient
  | [] => s
  | c :: rest =>
    if s.readyState c = .closed then dropLanes (s.removeChannel c) seen rest
    else if s.labels c ∈ seen then dropLanes ((s.removeChannel c).closeChannel c) seen rest
    else dropLanes s (s.labels c :: seen) rest

def ensureLane (label : Nat) : PageClient :=
  match s.channels.tail.find? fun c => s.labels c = label with
  | some c =>
    if s.readyState c = .opened ∨ c ∈ s.channelOpenPromises then s
    else ((s.removeChannel c).closeChannel c).createChannel label
  | none => s.createChannel label

/-- `ensureBulkChannels` up to its promise; it throws where lane zero is not open. -/
def ensureBulkChannels : PageClient :=
  if s.bulkOpening ∨ s.channels.head?.all (fun c => s.readyState c ≠ .opened) then s
  else
    let dropped := { s with bulkIdleTimer := false }.dropLanes [] s.channels.tail
    { ((dropped.ensureLane 1).ensureLane 2).ensureLane 3 with bulkOpening := true }

/-! ### The end of a request -/

/-- `requestAbortControllers.get(requestId)?.abort()` -/
def abort (requestId : Nat) : PageClient :=
  match s.maps.requestAbortControllers.lookup requestId with
  | some n => s.modifyStart n fun st => { st with aborted := true }
  | none => s

def finish (requestId : Nat) : PageClient :=
  let cleared := { s.abort requestId with maps := s.maps.remove requestId }
  match s.maps.inbound.lookup requestId with
  | some entry =>
    if (s.channelLoads.lookup entry.channel).isSome then
      let released := cleared.releaseChannelReservation entry.channel
      if s.channels.head? = some entry.channel then released else released.scheduleBulkIdleClose
    else cleared
  | none => cleared

def startOf (requestId : Nat) : Nat := (s.maps.requestAbortControllers.lookup requestId).getD 0

def failRequest (requestId : Nat) (message : Option String) : PageClient :=
  match s.maps.inbound.lookup requestId with
  | some entry => (s.post (.err entry.start entry.swId message)).finish requestId
  | none => s

/-- The `finally` of `startRequest`. -/
def ends (n : Nat) (swId : Int) : PageClient :=
  { s with
    startingRequests := if s.startingRequests.lookup swId = some n then s.startingRequests.erase swId else s.startingRequests
    starts := s.starts.erase n }

/-- The `catch` of `startRequest`. -/
def thrown (n : Nat) (swId : Int) (requestId : Nat) : PageClient :=
  match s.starts.lookup n with
  | some st => if st.aborted then s else (s.post (.err n swId none)).finish requestId
  | none => s

/-! ### The start of a request -/

def takeId : PageClient :=
  { s with nextRequestId := if s.nextRequestId = maxRequestId then 1 else s.nextRequestId + 1 }

/-- `startRequest` once it has a lane. -/
def begin (n : Nat) (st : PageStart) (c : Nat) (sends : Sends) : PageClient :=
  let id := s.nextRequestId
  let entry := ⟨st.swId, c, n, LaneScheduler.constrained st.head.priority st.head.url, st.arrived⟩
  let registered := { s.takeId with maps := s.maps.register id st.head.initialCredits entry st.head.hasBody }
  if s.readyState c ≠ .opened ∨ sends.first = false then (registered.thrown n st.swId id).ends n st.swId
  else if st.hasStream then
    registered.setPhase n (if st.head.hasBody then .uploading id c else .cancellingBody id c)
  else if st.head.hasBody then
    let uploaded := { registered with maps := { registered.maps with uploads := registered.maps.uploads.erase id } }
    (if sends.second then uploaded else uploaded.thrown n st.swId id).ends n st.swId
  else registered.ends n st.swId

/-- `startRequest` from where it asks for a lane. -/
def schedule (n : Nat) (st : PageStart) (sends : Sends) : PageClient :=
  if st.cancelled then s.ends n st.swId
  else
    let available := s.chooseChannel st.head
    if LaneScheduler.constrained st.head.priority st.head.url = false ∨ ∃ c ∈ available, s.load c < 1 then
      match available with
      | some c => (s.reserve c).begin n st c sends
      | none => (s.post (.err n st.swId (some "data channel not open"))).ends n st.swId
    else { s.setPhase n .waiting with laneWaiters := s.laneWaiters ++ [n] }

/-- What `startRequest` does first: it takes the place of a start under the same id. -/
def enter (swId : Int) (st : PageStart) : PageClient :=
  let superseded :=
    match s.startingRequests.lookup swId with
    | some old => s.cancelStart old
    | none => s
  { superseded with
    startingRequests := s.startingRequests.insert swId s.nextStart
    starts := superseded.starts.insert s.nextStart st
    nextStart := s.nextStart + 1 }

def startRequest (swId : Int) (head : PageHead) (hasStream : Bool) (sends : Sends) : PageClient :=
  let st : PageStart := ⟨swId, head, hasStream, false, false, .opening, s.posts.length⟩
  let entered := s.enter swId st
  match head.priority with
  | .interactive => entered.schedule s.nextStart st sends
  | .critical => entered.ensureBulkChannels.schedule s.nextStart st sends
  | .normal | .bulk => entered.ensureBulkChannels

/-- `startRequest` after `ensureBulkChannels`. -/
def lanesSettled (n : Nat) (st : PageStart) (ok : Bool) (sends : Sends) : PageClient :=
  if ok then s.schedule n st sends
  else if st.cancelled then s.ends n st.swId
  else (s.post (.err n st.swId (some "asset transport lanes unavailable"))).ends n st.swId

/-- `startRequest` after the wait for a lane. -/
def resumed (n : Nat) (st : PageStart) (channel : Option Nat) (sends : Sends) : PageClient :=
  match st.cancelled, channel with
  | true, some c => (s.releaseChannelReservation c).ends n st.swId
  | true, none => s.ends n st.swId
  | false, some c => s.begin n st c sends
  | false, none => (s.post (.err n st.swId (some "data channel not open"))).ends n st.swId

/-- `startRequest` after `streamRequestBody`. -/
def uploadSettled (n : Nat) (st : PageStart) (requestId c : Nat) (ok : Bool) (sends : Sends) : PageClient :=
  if ok = false then (s.thrown n st.swId requestId).ends n st.swId
  else if st.aborted then s.ends n st.swId
  else
    let uploaded := { s with maps := { s.maps with uploads := s.maps.uploads.erase requestId } }
    (if s.readyState c = .opened ∧ sends.first then uploaded else uploaded.thrown n st.swId requestId).ends n st.swId

/-! ### Messages, frames and lanes -/

def cancelRequest (swId : Int) : PageClient :=
  match s.maps.requestBySw.lookup swId with
  | some requestId => s.finish requestId
  | none =>
    match s.startingRequests.lookup swId with
    | some n => (s.cancelStart n).releaseLaneWaiters
    | none => s

def channelOf (requestId : Nat) : Option Nat :=
  match s.maps.inbound.lookup requestId with
  | some entry => some entry.channel
  | none => s.channels.head?

def creditMessage (swId : Int) (n : Int) (sent : Bool) : PageClient :=
  match s.maps.requestBySw.lookup swId with
  | none => s
  | some requestId =>
    match s.maps.outbound.lookup requestId with
    | none => s
    | some credit =>
      if n ≤ 0 ∨ (maxResponseCredits : Int) < n ∨ (maxResponseCredits : Int) - n < credit then
        s.failRequest requestId (some "invalid response credit grant")
      else
        let credited := { s with maps := { s.maps with outbound := s.maps.outbound.insert requestId (credit + n.toNat) } }
        if sent = true ∧ (s.channelOf requestId).any (fun c => decide (s.readyState c = .opened)) = true then credited
        else (credited.post (.err (s.startOf requestId) swId none)).finish requestId

/-- `retireWorkerBridgeRequests`, over the requests. -/
def finishAll (s : PageClient) : List (Sigma fun _ : Nat => Int) → PageClient
  | [] => s
  | request :: rest => finishAll (if request.2 < 1 then s else s.finish request.1) rest

def cancelAll (s : PageClient) : List (Sigma fun _ : Int => Nat) → PageClient
  | [] => s
  | start :: rest => cancelAll (if start.1 < 1 then s else s.cancelStart start.2) rest

def retireWorkerBridgeRequests : PageClient :=
  let finished := s.finishAll s.maps.swByRequest.entries.reverse
  finished.cancelAll finished.startingRequests.entries.reverse

/-- Whom `retireWorkerBridgeRequests` returns, with their starts. -/
def retired : List (Nat × Int) :=
  (((s.maps.swByRequest.entries.reverse.map fun e => (s.startOf e.1, e.2)) ++
    s.startingRequests.entries.reverse.map fun e => (e.2, e.1)).filter fun e => 1 ≤ e.2).eraseDups

def resetWorkerBridgeRequests : PageClient :=
  (s.retired).foldl (fun t e => t.post (.err e.1 e.2 (some "service worker bridge restarted"))) s.retireWorkerBridgeRequests

def grantUploadCredit (requestId : Nat) (count : Option Nat) : PageClient :=
  match s.maps.uploads.lookup requestId with
  | none => s
  | some credits =>
    match count with
    | none => s.failRequest requestId (some "invalid request upload credit")
    | some count =>
      if maxRequestCredits < count ∨ maxRequestCredits - count < credits then
        s.failRequest requestId (some "request upload credit exceeded its v3 window")
      else { s with maps := { s.maps with uploads := s.maps.uploads.insert requestId (credits + count) } }

def onFrame (c requestId : Nat) (frame : PageFrame) : PageClient :=
  match s.maps.inbound.lookup requestId with
  | none => s
  | some entry =>
    if entry.channel ≠ c then s
    else
      match frame with
      | .resHead true => s.post (.head entry.start entry.swId)
      | .resHead false => s.failRequest requestId (some "invalid response head")
      | .resBody =>
        match s.maps.outbound.lookup requestId with
        | some (credit + 1) =>
          { s with maps := { s.maps with outbound := s.maps.outbound.insert requestId credit } }.post
            (.body entry.start entry.swId)
        | some 0 | none => s.failRequest requestId (some "response exceeded its v3 credit grant")
      | .resEnd => (s.post (.finish entry.start entry.swId)).finish requestId
      | .resErr true => (s.post (.err entry.start entry.swId none)).finish requestId
      | .resErr false => s.failRequest requestId (some "invalid response error")
      | .reqCredit count => s.grantUploadCredit requestId count

/-- The loop at the end of `handleChannelClose`. -/
def failAll (s : PageClient) : List (Sigma fun _ : Nat => InboundRequest) → PageClient
  | [] => s
  | request :: rest =>
    failAll ((s.post (.err request.2.start request.2.swId (some "asset transport lane closed"))).finish request.1) rest

def abortAll (s : PageClient) : List (Sigma fun _ : Nat => Nat) → PageClient
  | [] => s
  | controller :: rest => abortAll (s.modifyStart controller.2 fun st => { st with aborted := true }) rest

def grantNone (s : PageClient) : List Nat → PageClient
  | [] => { s with laneWaiters := [] }
  | n :: rest => grantNone (s.setPhase n (.granted none)) rest

def cancelStarts (s : PageClient) : List (Sigma fun _ : Int => Nat) → PageClient
  | [] => s
  | start :: rest => cancelStarts (s.cancelStart start.2) rest

def teardown : PageClient :=
  if s.transportDown then s
  else
    let told := { s with transportDown := true }.post .down
    let aborted := { told.abortAll s.maps.requestAbortControllers.entries.reverse with maps := .empty }
    let cancelled := (aborted.cancelStarts s.startingRequests.entries.reverse).grantNone s.laneWaiters
    { cancelled with channelLoads := ∅, channelOpenPromises := [], bulkIdleTimer := false }

def handleChannelClose (c : Nat) : PageClient :=
  if s.labels c = 0 then if s.channels.head? = some c then s.teardown else s
  else
    let removed := (s.removeChannel c).releaseLaneWaiters
    removed.failAll (removed.maps.inbound.entries.reverse.filter fun e => e.2.channel = c)

def idleTimer : PageClient :=
  let fired := { s with bulkIdleTimer := false }
  if s.bulkActive then fired
  else
    { fired with
      channels := s.channels.take 1
      channelLoads := s.channels.tail.foldl (fun loads c => loads.erase c) s.channelLoads
      readyState := fun c =>
        if c ∈ s.channels.tail then if s.readyState c = .closed then .closed else .closing else s.readyState c }

def settled : Bool := s.starts.entries.all fun e =>
  match e.2.phase with
  | .granted _ => false
  | .opening | .waiting | .uploading _ _ | .cancellingBody _ _ => true

def step (s : PageClient) : PageEvent → Option PageClient
  | .req swId head hasStream sends =>
    -- the bridge counts from one
    if s.port ∧ 1 ≤ swId then some (s.startRequest swId head hasStream sends) else none
  | .credit swId n sent => if s.port then some (s.creditMessage swId n sent) else none
  | .cancel swId => if s.port then some (s.cancelRequest swId) else none
  | .direct head sends =>
    if s.channels.head?.any (fun c => decide (s.readyState c = .opened)) = true ∧ head.hasBody = false then
      some ({ s with nextDirectId := s.nextDirectId - 1 }.startRequest s.nextDirectId head false sends)
    else none
  | .directCredit id n sent => if id < 0 then some (s.creditMessage id n sent) else none
  | .cancelDirect id => if id < 0 then some (s.cancelRequest id) else none
  | .attached => if s.port then some s.resetWorkerBridgeRequests else none
  | .standby => if s.port then some { s.retireWorkerBridgeRequests with port := false } else none
  | .rejectedAttach => if s.port then some { s.post .down with port := false } else none
  | .attachPort => if s.transportDown then none else some { s with port := true }
  | .frame c requestId frame => some (s.onFrame c requestId frame)
  | .lanes n ok sends =>
    match s.starts.lookup n with
    | some st => if st.phase = .opening then some (s.lanesSettled n st ok sends) else none
    | none => none
  | .resume n sends =>
    match s.starts.lookup n with
    | some st =>
      match st.phase with
      | .granted channel => some (s.resumed n st channel sends)
      | .opening | .waiting | .uploading _ _ | .cancellingBody _ _ => none
    | none => none
  | .takeUploadCredit n =>
    match s.starts.lookup n with
    | some st =>
      match st.phase with
      | .uploading requestId _ =>
        match s.maps.uploads.lookup requestId with
        | some (credits + 1) =>
          some { s with maps := { s.maps with uploads := s.maps.uploads.insert requestId credits } }
        | some 0 | none => none
      | .opening | .waiting | .granted _ | .cancellingBody _ _ => none
    | none => none
  | .uploaded n ok sends =>
    match s.starts.lookup n with
    | some st =>
      match st.phase with
      | .uploading requestId c => some (s.uploadSettled n st requestId c ok sends)
      | .opening | .waiting | .granted _ | .cancellingBody _ _ => none
    | none => none
  | .bodyCancelled n =>
    match s.starts.lookup n with
    | some st =>
      match st.phase with
      | .cancellingBody requestId _ => some ((s.thrown n st.swId requestId).ends n st.swId)
      | .opening | .waiting | .granted _ | .uploading _ _ => none
    | none => none
  | .opens c =>
    if c < s.nextChannel ∧ s.readyState c = .connecting then
      some { s with
        readyState := update s.readyState c .opened
        channelOpenPromises := s.channelOpenPromises.filter (· ≠ c) }
    else none
  | .closing c => if c < s.nextChannel then some (s.closeChannel c) else none
  | .closed c =>
    -- a lane's event is a task of its own: whoever was granted a lane before has gone on
    if c < s.nextChannel ∧ (s.labels c = 0 → s.settled) then
      some ({ s with
        readyState := update s.readyState c .closed
        channelOpenPromises := s.channelOpenPromises.filter (· ≠ c) }.handleChannelClose c)
    else none
  | .buffered c amount => some { s with bufferedAmount := update s.bufferedAmount c amount }
  | .bulkOpened ok =>
    if s.bulkOpening then
      let opened := { s with bulkOpening := false }
      some (if ok then opened.scheduleBulkIdleClose else opened)
    else none
  | .idleTimer => if s.bulkIdleTimer then some s.idleTimer else none
  | .teardown => if s.settled then some s.teardown else none
  | .drawId => some s.takeId

end PageClient
end YuriRtc
