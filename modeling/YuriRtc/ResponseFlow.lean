import YuriRtc.SwBridge
/-!
# ResponseFlow — one response across node, page and service worker

The three holders of one response's credit and the four queues between them.  The node: `responseCreditWindow`, `SendBody`
and `StreamBody` of `content-node/server.go` (a credit is taken first, the frame is sent later, if at all).  The page: the
`outbound` entry of `packages/loader/src/client.ts`, its `credit` and `cancel` messages and its `ResBody`, `ResEnd` and
`ResErr` frames.  The worker: `BridgeRequest`, whose `outbox` is the port to the page.  `toPage` and `toNode` are the two
directions of the request's lane, `toWorker` the port from the page; all are first in, first out.
-/
namespace YuriRtc

/-- `responseCreditWindow`: `grant` clamps, so it never holds more than the protocol's cap. -/
structure ResponseCreditWindow where
  available : Nat
  le_max : available ≤ maxResponseCredits

namespace ResponseCreditWindow

def empty : ResponseCreditWindow := ⟨0, Nat.zero_le _⟩

def grant (w : ResponseCreditWindow) (count : Nat) : ResponseCreditWindow :=
  if count = 0 then w
  else if maxResponseCredits ≤ w.available then w
  else ⟨w.available + min count (maxResponseCredits - w.available), by have := w.le_max; omega⟩

def newResponseCreditWindow (initial : Nat) : ResponseCreditWindow := empty.grant initial

/-- `take`, once it does not have to wait. -/
def take (w : ResponseCreditWindow) : Option ResponseCreditWindow :=
  if 0 < w.available then some ⟨w.available - 1, le_trans (Nat.sub_le _ _) w.le_max⟩ else none

theorem available_grant (w : ResponseCreditWindow) (count : Nat) (h : w.available + count ≤ maxResponseCredits) :
    (w.grant count).available = w.available + count := by
  unfold grant
  split
  · omega
  split
  · omega
  · show w.available + min count (maxResponseCredits - w.available) = w.available + count
    omega

theorem available_take {w w' : ResponseCreditWindow} (h : w.take = some w') : w'.available + 1 = w.available := by
  unfold take at h
  split at h <;> cases h
  rename_i hpos
  show w.available - 1 + 1 = w.available
  omega

end ResponseCreditWindow

inductive ResponseFrame where
  | resBody (header payload : Bytes)
  | resEnd
  | resErr
deriving DecidableEq, Repr

inductive ResponseControl where
  | req (initialCredits : Nat)
  | credit (n : Nat)
  | cancel
deriving DecidableEq, Repr

inductive PageToSw where
  | body (frame : Bytes) (byteOffset byteLength : Int)
  | finish
  | err
deriving DecidableEq, Repr

inductive PageFailure where
  | exceededCreditGrant
  | invalidCreditGrant
deriving DecidableEq, Repr

/-- `taken` counts the `SendBody` calls between their credit and their frame; `sent` and `granted` count all body frames
and all credits since the request began. -/
structure ResponseNode where
  live : Bool
  window : ResponseCreditWindow
  taken : Nat
  sent : Nat
  granted : Nat

structure ResponsePage where
  active : Bool
  credit : Nat
  failure : Option PageFailure
deriving DecidableEq, Repr

structure ResponseFlow where
  node : ResponseNode
  page : ResponsePage
  bridge : BridgeRequest
  toNode : List ResponseControl
  toPage : List ResponseFrame
  toWorker : List PageToSw

inductive FlowEvent where
  | take
  /-- the frame of a taken credit: `lane.send` may fail. -/
  | sendBody (header payload : Bytes) (sendOk : Bool)
  | dropCredit
  | sendEnd
  | sendError
  /-- `begin` admits a request or answers it with an error. -/
  | nodeReceives (accepted : Bool)
  | pageReceivesFrame (sendOk : Bool)
  | pageReceivesMessage (sendOk : Bool)
  | laneLost
  | workerReceives
  | pull
  | enqueueReturns (now later : Int)
  | cancelStream
  | abort
deriving DecidableEq, Repr

namespace ResponseFlow

/-- The page has sent `Req`. -/
def start (initial : InitialCredits) (now : Int) : ResponseFlow where
  node := { live := false, window := .empty, taken := 0, sent := 0, granted := 0 }
  page := { active := true, credit := initial.credits, failure := none }
  bridge := .request initial now
  toNode := [.req initial.credits]
  toPage := []
  toWorker := []

def nodeReceive (s : ResponseFlow) (accepted : Bool) : ResponseControl → ResponseFlow
  | .req initialCredits =>
    if accepted then
      { s with node := { s.node with live := true, window := .newResponseCreditWindow initialCredits } }
    else { s with toPage := s.toPage ++ [.resErr] }
  | .credit n =>
    if s.node.live then
      { s with node := { s.node with window := s.node.window.grant n, granted := s.node.granted + n } }
    else s
  | .cancel => { s with node := { s.node with live := false } }

/-- `this.send` on the request's lane, where a failure is caught. -/
def pageSend (s : ResponseFlow) (sendOk : Bool) (frame : ResponseControl) : ResponseFlow :=
  if sendOk then { s with toNode := s.toNode ++ [frame] } else s

def post (s : ResponseFlow) (message : PageToSw) : ResponseFlow := { s with toWorker := s.toWorker ++ [message] }

def finish (s : ResponseFlow) : ResponseFlow := { s with page := { s.page with active := false } }

def failRequest (s : ResponseFlow) (sendOk : Bool) (failure : PageFailure) : ResponseFlow :=
  (({ s with page := { s.page with failure := some failure } }.pageSend sendOk .cancel).post .err).finish

def onFrame (s : ResponseFlow) (sendOk : Bool) (frame : ResponseFrame) : ResponseFlow :=
  if s.page.active then
    match frame with
    | .resBody header payload =>
      if s.page.credit = 0 then s.failRequest sendOk .exceededCreditGrant
      else
        -- the whole frame is transferred, with the bounds of its payload
        { s with page := { s.page with credit := s.page.credit - 1 } }.post
          (.body (header ++ payload) header.length payload.length)
    | .resEnd => (s.post .finish).finish
    | .resErr => (s.post .err).finish
  else s

def onSwMessage (s : ResponseFlow) (sendOk : Bool) (message : SwToPage) : ResponseFlow :=
  if s.page.active then
    match message with
    | .credit n =>
      if n = 0 ∨ maxResponseCredits < n ∨ maxResponseCredits - n < s.page.credit then
        s.failRequest sendOk .invalidCreditGrant
      else
        let credited := { s with page := { s.page with credit := s.page.credit + n } }
        if sendOk then credited.pageSend true (.credit n) else (credited.post .err).finish
    | .cancel => (s.pageSend sendOk .cancel).finish
  else s

def bridgeEvent : PageToSw → BridgeEvent
  | .body frame byteOffset byteLength => .body frame byteOffset byteLength
  | .finish => .finish
  | .err => .err

def bridgeStep (s : ResponseFlow) (e : BridgeEvent) : Option ResponseFlow :=
  (s.bridge.step e).map (fun b => { s with bridge := b })

def step (s : ResponseFlow) : FlowEvent → Option ResponseFlow
  | .take => s.node.window.take.map (fun w => { s with node := { s.node with window := w, taken := s.node.taken + 1 } })
  | .sendBody header payload sendOk =>
    if s.node.taken = 0 then none
    else
      let spent := { s with node := { s.node with taken := s.node.taken - 1 } }
      -- `encodeFrameInto` refuses a larger payload
      if payload.length ≤ maxPayloadBytes ∧ sendOk = true then
        some { spent with
          node := { spent.node with sent := s.node.sent + 1 }
          toPage := s.toPage ++ [.resBody header payload] }
      else some spent
  | .dropCredit =>
    if s.node.taken = 0 then none else some { s with node := { s.node with taken := s.node.taken - 1 } }
  | .sendEnd => if s.node.live then some { s with toPage := s.toPage ++ [.resEnd] } else none
  | .sendError => if s.node.live then some { s with toPage := s.toPage ++ [.resErr] } else none
  | .nodeReceives accepted =>
    match s.toNode with
    | [] => none
    | control :: toNode => some ({ s with toNode := toNode }.nodeReceive accepted control)
  | .pageReceivesFrame sendOk =>
    match s.toPage with
    | [] => none
    | frame :: toPage => some ({ s with toPage := toPage }.onFrame sendOk frame)
  | .pageReceivesMessage sendOk =>
    match s.bridge.outbox with
    | [] => none
    | message :: outbox => some ({ s with bridge := { s.bridge with outbox := outbox } }.onSwMessage sendOk message)
  | .laneLost => if s.page.active then some (s.post .err).finish else none
  | .workerReceives =>
    match s.toWorker with
    | [] => none
    | message :: toWorker => { s with toWorker := toWorker }.bridgeStep (bridgeEvent message)
  | .pull => s.bridgeStep .pull
  | .enqueueReturns now later => s.bridgeStep (.enqueueReturns now later)
  | .cancelStream => s.bridgeStep .cancel
  | .abort => s.bridgeStep .abort

end ResponseFlow
end YuriRtc
