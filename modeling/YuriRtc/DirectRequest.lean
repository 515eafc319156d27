import YuriRtc.ResponseFlow
/-!
# DirectRequest — a request the page makes without a service worker

`YuriRTCClient.request` of `packages/loader/src/client.ts`: the handler in `direct`, its queue, and the credit it returns in
batches of sixteen, or at once from a `pull` that finds the queue empty.  The body is a `ReadableStream` whose controller
follows the Streams standard: `enqueue` gives the chunk to a pending read or queues it, then calls `pull` if the stream has
room or a read waits, unless a `pull` is still settling; so a chunk for a pending read runs `pull` inside `enqueue`, before
the chunk's own credit is returned.  Below it lie the page's `outbound` entry and the node's window, as in `ResponseFlow`;
a node that takes a credit sends a frame for it or is done with the body.
-/
namespace YuriRtc

inductive DirectFrame where
  | resHead (canHaveBody : Bool)
  | resBody (chunk : Bytes)
  | resEnd
  | resErr
deriving DecidableEq, Repr

/-- The default controller of a `ReadableStream` with a high-water mark of one. -/
structure BodyStream where
  started : Bool
  /-- a `pull` is running or its promise has not settled. -/
  pulling : Bool
  pullAgain : Bool
  closed : Bool
  queued : List Bytes
  reads : Nat
deriving DecidableEq, Repr

structure DirectRequest where
  initial : InitialCredits
  live : Bool
  window : ResponseCreditWindow
  taken : Nat
  done : Bool
  toPage : List DirectFrame
  toNode : List ResponseControl
  active : Bool
  credit : Nat
  attached : Bool
  canHaveBody : Bool
  bodyFinished : Bool
  directEnded : Bool
  directWaiting : Bool
  directReleased : Nat
  directQueue : List Bytes
  stream : BodyStream

inductive DirectEvent where
  | take
  | sendHead (canHaveBody : Bool)
  | sendBody (chunk : Bytes)
  | sendEnd
  | sendError
  | nodeReceives (accepted : Bool)
  | pageReceives (sendOk : Bool)
  | started (sendOk : Bool)
  | pullSettled (sendOk : Bool)
  | read (sendOk : Bool)
  | cancelStream (sendOk : Bool)
  /-- `request` turns away the status of the response head. -/
  | refuseStatus (sendOk : Bool)
  | laneLost
deriving DecidableEq, Repr

namespace BodyStream

def new : BodyStream := ⟨false, false, false, false, [], 0⟩

/-- `ReadableStreamDefaultControllerShouldCallPull`. -/
def shouldPull (b : BodyStream) : Bool := b.started && !b.closed && (decide (0 < b.reads) || b.queued.isEmpty)

def put (b : BodyStream) (chunk : Bytes) : BodyStream :=
  if 0 < b.reads then { b with reads := b.reads - 1 } else { b with queued := b.queued ++ [chunk] }

/-- `enqueue` while a `pull` runs: a call for another one is only noted. -/
def putPulling (b : BodyStream) (chunk : Bytes) : BodyStream :=
  let next := b.put chunk
  { next with pullAgain := next.pullAgain || next.shouldPull }

end BodyStream

namespace DirectRequest

def start (initial : InitialCredits) : DirectRequest where
  initial := initial
  live := false
  window := .empty
  taken := 0
  done := false
  toPage := []
  toNode := [.req initial.credits]
  active := true
  credit := initial.credits
  attached := true
  canHaveBody := true
  bodyFinished := false
  directEnded := false
  directWaiting := false
  directReleased := 0
  directQueue := []
  stream := .new

/-! ### The page -/

def finish (s : DirectRequest) : DirectRequest := { s with active := false }

/-- `this.send` on the request's lane, where a failure is caught. -/
def pageSend (s : DirectRequest) (sendOk : Bool) (frame : ResponseControl) : DirectRequest :=
  if sendOk then { s with toNode := s.toNode ++ [frame] } else s

/-- The handler's `err` message. -/
def onErr (s : DirectRequest) : DirectRequest :=
  if s.attached then
    { s with
      attached := false
      directQueue := []
      directEnded := true
      bodyFinished := true
      stream := { s.stream with closed := true } }
  else s

def failRequest (s : DirectRequest) (sendOk : Bool) : DirectRequest := ((s.pageSend sendOk .cancel).onErr).finish

/-- `onSwMessage` with a `credit`. -/
def onCredit (s : DirectRequest) (sendOk : Bool) (n : Nat) : DirectRequest :=
  if s.active then
    if n = 0 ∨ maxResponseCredits < n ∨ maxResponseCredits - n < s.credit then s.failRequest sendOk
    else
      let credited := { s with credit := s.credit + n }
      if sendOk then credited.pageSend true (.credit n) else credited.onErr.finish
  else s

def cancelRequest (s : DirectRequest) (sendOk : Bool) : DirectRequest :=
  if s.active then (s.pageSend sendOk .cancel).finish else s

def flushDirectCredit (s : DirectRequest) (sendOk force : Bool) : DirectRequest :=
  if s.directReleased = 0 ∨ s.directEnded = true then s
  else if force = false ∧ s.directReleased < 16 then s
  else { s.onCredit sendOk s.directReleased with directReleased := 0 }

def releaseDirectCredit (s : DirectRequest) (sendOk : Bool) : DirectRequest :=
  { s with directReleased := s.directReleased + 1 }.flushDirectCredit sendOk false

def closeBody (s : DirectRequest) : DirectRequest :=
  if s.bodyFinished = true ∨ s.directEnded = false ∨ s.directQueue ≠ [] then s
  else { s with bodyFinished := true, stream := { s.stream with closed := true } }

/-- `pull`, which runs with `pulling` set. -/
def pull (s : DirectRequest) (sendOk : Bool) : DirectRequest :=
  match s.directQueue with
  | chunk :: rest =>
    ({ s with directQueue := rest, stream := s.stream.putPulling chunk }.releaseDirectCredit sendOk).closeBody
  | [] =>
    if s.directEnded then s.closeBody else { s with directWaiting := true }.flushDirectCredit sendOk true

/-- `ReadableStreamDefaultControllerCallPullIfNeeded`. -/
def callPullIfNeeded (s : DirectRequest) (sendOk : Bool) : DirectRequest :=
  if s.stream.shouldPull then
    if s.stream.pulling then { s with stream := { s.stream with pullAgain := true } }
    else { s with stream := { s.stream with pulling := true } }.pull sendOk
  else s

/-- The handler's `body` message. -/
def onBody (s : DirectRequest) (sendOk : Bool) (chunk : Bytes) : DirectRequest :=
  if s.attached = true ∧ s.canHaveBody = true ∧ s.bodyFinished = false then
    if s.directWaiting then
      ({ s with directWaiting := false, stream := s.stream.put chunk }.callPullIfNeeded sendOk).releaseDirectCredit sendOk
    else { s with directQueue := s.directQueue ++ [chunk] }
  else s

def onHead (s : DirectRequest) (canHaveBody : Bool) : DirectRequest :=
  if s.attached then
    if canHaveBody then { s with canHaveBody := true } else { s with canHaveBody := false, directEnded := true }.closeBody
  else s

def onEnd (s : DirectRequest) : DirectRequest :=
  if s.attached then { s with attached := false, directEnded := true }.closeBody else s

def onFrame (s : DirectRequest) (sendOk : Bool) (frame : DirectFrame) : DirectRequest :=
  if s.active then
    match frame with
    | .resHead canHaveBody => s.onHead canHaveBody
    | .resBody chunk =>
      if s.credit = 0 then s.failRequest sendOk else { s with credit := s.credit - 1 }.onBody sendOk chunk
    | .resEnd => s.onEnd.finish
    | .resErr => s.onErr.finish
  else s

/-- A `read` of the returned body. -/
def readBody (s : DirectRequest) (sendOk : Bool) : DirectRequest :=
  match s.stream.queued with
  | _ :: rest => { s with stream := { s.stream with queued := rest } }.callPullIfNeeded sendOk
  | [] =>
    if s.stream.closed then s
    else { s with stream := { s.stream with reads := s.stream.reads + 1 } }.callPullIfNeeded sendOk

/-! ### The node -/

def nodeReceive (s : DirectRequest) (accepted : Bool) : ResponseControl → DirectRequest
  | .req initialCredits =>
    if accepted then { s with live := true, window := .newResponseCreditWindow initialCredits }
    else { s with done := true, toPage := s.toPage ++ [.resErr] }
  | .credit n => if s.live then { s with window := s.window.grant n } else s
  | .cancel => { s with live := false, done := true }

def step (s : DirectRequest) : DirectEvent → Option DirectRequest
  | .take => if s.done then none else s.window.take.map fun w => { s with window := w, taken := s.taken + 1 }
  | .sendHead canHaveBody =>
    if s.live = true ∧ s.done = false then some { s with toPage := s.toPage ++ [.resHead canHaveBody] } else none
  | .sendBody chunk =>
    if s.taken = 0 then none else some { s with taken := s.taken - 1, toPage := s.toPage ++ [.resBody chunk] }
  | .sendEnd => if s.live then some { s with done := true, toPage := s.toPage ++ [.resEnd] } else none
  | .sendError => if s.live then some { s with done := true, toPage := s.toPage ++ [.resErr] } else none
  | .nodeReceives accepted =>
    match s.toNode with
    | [] => none
    | control :: toNode => some ({ s with toNode := toNode }.nodeReceive accepted control)
  | .pageReceives sendOk =>
    match s.toPage with
    | [] => none
    | frame :: toPage => some ({ s with toPage := toPage }.onFrame sendOk frame)
  | .started sendOk =>
    if s.stream.started then none
    else some ({ s with stream := { s.stream with started := true } }.callPullIfNeeded sendOk)
  | .pullSettled sendOk =>
    if s.stream.pulling then
      let settled := { s with stream := { s.stream with pulling := false, pullAgain := false } }
      some (if s.stream.pullAgain then settled.callPullIfNeeded sendOk else settled)
    else none
  | .read sendOk => some (s.readBody sendOk)
  | .cancelStream sendOk =>
    if s.stream.closed then none
    else
      some ({ s with
        directQueue := []
        directEnded := true
        bodyFinished := true
        attached := false
        stream := { s.stream with closed := true } }.cancelRequest sendOk)
  | .refuseStatus sendOk => some ({ s with attached := false, directEnded := true }.closeBody.cancelRequest sendOk)
  | .laneLost => if s.active then some s.onErr.finish else none

end DirectRequest
end YuriRtc
