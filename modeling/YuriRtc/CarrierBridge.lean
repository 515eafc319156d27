import YuriRtc.SwBridge
/-!
# CarrierBridge — which page carries the transport, and who waits for one

`SwBridge` of `packages/loader/src/swbridge.ts` as far as its port goes: `attach`, `detach`, `onMessage`, `checkCarrier`,
`acquire` with its waiters and `ensureWakeEpoch`, for any number of pages and ports.  An event is what runs without giving
way: a call up to its first `await`, a continuation, a message, a timer, an `abort`.  A `checkCarrier` in `clients.get` and
an `acquire` at one of its `await`s are `tasks`; what `clients.get` and `matchAll` answer, and when, comes with the event.

Of a request the bridge knows its entry in `pending` and the callbacks it calls (`callbacks`); what these do with the response
stream is not looked at here, but for one thing: a request may delete its own entry.
-/
namespace YuriRtc

open BridgeRequest (bodyChunk)

inductive PageMessage where
  | ready
  | down (reason : String)
  | head (id : Nat)
  | body (id : Nat) (frame : Bytes) (byteOffset byteLength : Int)
  | finish (id : Nat)
  | err (id : Nat) (message : String)
deriving DecidableEq, Repr

inductive BridgePost where
  | standby
  | attached
  | cancel (id : Nat)
  | req (id : Nat)
deriving DecidableEq, Repr

inductive PendingCall where
  | onHead
  | onChunk (chunk : Bytes)
  | onEnd
  | onError (message : String)
deriving DecidableEq, Repr

structure PendingEntry where
  id : Nat
  headReceived : Bool
deriving DecidableEq, Repr

inductive AcquireError where
  | aborted
  | noCarrier
  | wakeFailed
deriving DecidableEq, Repr

abbrev ClientId := List Char

/-- A call of `isConnected`, `isLikelyConnected` or (`acquiring`) `acquire`. -/
inductive CarrierTask where
  | unused
  /-- in `clients.get(owner)`, with the port `checkCarrier` saw. -/
  | looking (acquiring allowCached : Bool) (port : Nat) (owner : ClientId)
  | looked (acquiring connected : Bool)
  | waiting
  /-- `this.port!` may be gone by then. -/
  | acquired (port : Option Nat)
  | failed (e : AcquireError)
deriving DecidableEq, Repr

structure CarrierBridge where
  port : Option Nat
  portReady : Bool
  ownerClientId : Option ClientId
  portOwners : Nat → Option ClientId
  nextId : Nat
  pending : List PendingEntry
  waiters : List Nat
  wakeEpoch : Option Nat
  /-- how many epochs there have been, and those whose `matchAll` is still to answer. -/
  epochs : Nat
  waking : List Nat
  woken : List Nat
  readyTimer : Option Nat
  ownerAliveFor : Option Nat
  ownerAliveAt : Int
  tasks : Nat → CarrierTask
  posts : List (Nat × BridgePost)
  callbacks : List (Nat × PendingCall)

inductive CarrierEvent where
  | attach (port : Nat) (owner : Option ClientId)
  /-- `leaves`: the callback deletes its own entry. -/
  | receive (port : Nat) (message : PageMessage) (leaves : Bool)
  | readyTimeout
  | check (task : Nat) (allowCached : Bool) (now : Int)
  | acquire (task : Nat) (aborted : Bool) (now : Int)
  | found (task : Nat) (owner : Bool) (now : Int)
  /-- `acquire` goes on after `isConnected`. -/
  | resume (task : Nat) (aborted : Bool)
  | abort (task : Nat)
  | timeout (task : Nat)
  /-- `matchAll` answers, or fails. -/
  | wake (epoch : Nat)
  | wakeFails (epoch : Nat)
  /-- `request` goes on after `acquire`. -/
  | request (task : Nat) (aborted posted : Bool)
  | leave (id : Nat)
deriving DecidableEq, Repr

namespace CarrierBridge

def ownerLivenessTtlMs : Int := 250

def newSwBridge : CarrierBridge where
  port := none
  portReady := false
  ownerClientId := none
  portOwners _ := none
  nextId := 1
  pending := []
  waiters := []
  wakeEpoch := none
  epochs := 0
  waking := []
  woken := []
  readyTimer := none
  ownerAliveFor := none
  ownerAliveAt := 0
  tasks _ := .unused
  posts := []
  callbacks := []

variable (s : CarrierBridge)

def setTask (task : Nat) (value : CarrierTask) : CarrierBridge := { s with tasks := Function.update s.tasks task value }

def delete (id : Nat) : CarrierBridge := { s with pending := s.pending.filter (·.id ≠ id) }

/-- `entry.headReceived = true`. -/
def markHead (id : Nat) : CarrierBridge :=
  { s with pending := s.pending.map fun entry => if entry.id = id then ⟨id, true⟩ else entry }

def callback (id : Nat) (call : PendingCall) : CarrierBridge := { s with callbacks := s.callbacks ++ [(id, call)] }

def ensureWakeEpoch : CarrierBridge :=
  if s.wakeEpoch.isSome ∨ s.port.isSome ∨ s.waiters = [] then s
  else { s with wakeEpoch := some s.epochs, epochs := s.epochs + 1, waking := s.waking ++ [s.epochs] }

def detach (reason : String) : CarrierBridge :=
  ensureWakeEpoch { s with
    port := none
    portReady := false
    ownerClientId := none
    ownerAliveFor := none
    readyTimer := none
    wakeEpoch := none
    pending := []
    posts := s.posts ++ s.port.toList.flatMap (fun p => s.pending.map fun entry => (p, .cancel entry.id))
    callbacks := s.callbacks ++ s.pending.map fun entry => (entry.id, .onError ("transport down: " ++ reason)) }

/-! ### Waiters -/

def cleanup (task : Nat) : CarrierBridge :=
  let left := { s with waiters := s.waiters.filter (· ≠ task) }
  if left.waiters = [] ∧ left.portReady = false then
    if left.port.isSome then left.detach "carrier ready handshake abandoned" else { left with wakeEpoch := none }
  else left

/-- `succeed` and `fail` of a waiter: only the first does anything. -/
def settle (task : Nat) (outcome : CarrierTask) : CarrierBridge :=
  if s.tasks task = .waiting then (s.setTask task outcome).cleanup task else s

def settleAll (outcome : CarrierTask) (tasks : List Nat) : CarrierBridge :=
  tasks.foldl (fun s task => s.settle task outcome) s

def pushWaiter (task : Nat) : CarrierBridge :=
  { s with waiters := s.waiters ++ [task], tasks := Function.update s.tasks task .waiting }

/-- The promise `acquire` makes when there is no carrier. -/
def install (task : Nat) (aborted : Bool) : CarrierBridge :=
  if aborted then (s.pushWaiter task).settle task (.failed .aborted)
  else if s.port.isSome ∧ s.portReady then (s.pushWaiter task).settle task (.acquired s.port)
  else if s.port.isSome then s.pushWaiter task
  else (s.pushWaiter task).ensureWakeEpoch

/-! ### The port -/

def isStandby (owner : Option ClientId) : Bool :=
  s.port.isSome && s.ownerClientId.isSome && owner.isSome && decide (s.ownerClientId ≠ owner)

def canContinueInflight (owner : Option ClientId) : Bool :=
  s.port.isSome && s.ownerClientId.isSome && owner.isSome && decide (s.ownerClientId = owner)

/-- `attach` from where it sets `this.port`. -/
def takeOver (port : Nat) (owner : Option ClientId) (preHead : List PendingEntry) : CarrierBridge :=
  { s with
    port := some port
    portReady := false
    ownerAliveFor := none
    wakeEpoch := none
    ownerClientId := owner
    portOwners := Function.update s.portOwners port owner
    readyTimer := some port
    posts := s.posts ++ (port, .attached) :: preHead.map fun entry => (port, .cancel entry.id)
    callbacks := s.callbacks ++
      preHead.map fun entry => (entry.id, .onError "transport down: carrier port replaced before response") }

def attach (port : Nat) (owner : Option ClientId) : CarrierBridge :=
  if s.isStandby owner then { s with posts := s.posts ++ [(port, .standby)] }
  else if s.port.isSome ∧ s.canContinueInflight owner = false then
    (s.detach "carrier page replaced").takeOver port owner []
  else
    { s with pending := s.pending.filter (·.headReceived) }.takeOver port owner (s.pending.filter fun entry => !entry.headReceived)

def onMessage (leaves : Bool) : PageMessage → CarrierBridge
  | .down reason => s.detach reason
  | .ready =>
    if s.portReady ∨ s.port = none then s
    else
      { s with portReady := true, readyTimer := none, waiters := [], wakeEpoch := none }.settleAll (.acquired s.port) s.waiters
  | .head id => if s.pending.any (·.id = id) then (s.markHead id).callback id .onHead else s
  | .body id frame byteOffset byteLength =>
    if s.pending.any (·.id = id) then
      match bodyChunk frame byteOffset byteLength with
      | none => (s.delete id).callback id (.onError "invalid response chunk bounds")
      | some chunk => (if leaves then s.delete id else s).callback id (.onChunk chunk)
    else s
  | .finish id => if s.pending.any (·.id = id) then (s.delete id).callback id .onEnd else s
  | .err id message => if s.pending.any (·.id = id) then (s.delete id).callback id (.onError message) else s

/-! ### Calls -/

/-- `checkCarrier` up to `clients.get`. -/
def checkCarrier (acquiring allowCached : Bool) (now : Int) : CarrierTask :=
  match s.port, s.ownerClientId with
  | none, _ => .looked acquiring false
  | some _, none => .looked acquiring s.portReady
  | some p, some owner =>
    if owner = [] then .looked acquiring s.portReady
    else if allowCached ∧ s.ownerAliveFor = some p ∧ now - s.ownerAliveAt < ownerLivenessTtlMs then
      .looked acquiring s.portReady
    else .looking acquiring allowCached p owner

/-- `checkCarrier` after `clients.get`. -/
def checked (task : Nat) (acquiring allowCached : Bool) (port : Nat) (owner : ClientId) (found : Bool) (now : Int) :
    CarrierBridge :=
  if s.port ≠ some port ∨ s.ownerClientId ≠ some owner then s.setTask task (s.checkCarrier acquiring allowCached now)
  else if found then { s.setTask task (.looked acquiring s.portReady) with ownerAliveFor := some port, ownerAliveAt := now }
  else (s.setTask task (.looked acquiring false)).detach "carrier page closed"

/-- Whether `postForRequest` has a port for a request of `original`. -/
def routes (original : Option Nat) : Option Nat :=
  match s.port, original with
  | some current, some original =>
    if current = original then some current
    else
      match s.portOwners original with
      | some (c :: owner) => if s.portOwners current = some (c :: owner) then some current else none
      | _ => none
  | _, _ => none

/-- `request` once it has a port. -/
def beginRequest (original : Option Nat) (posted : Bool) : CarrierBridge :=
  let begun := { s with nextId := s.nextId + 1 }
  match s.routes original, posted with
  | some p, true =>
    { begun with pending := s.pending ++ [⟨s.nextId, false⟩], posts := s.posts ++ [(p, .req s.nextId)] }
  | _, _ => begun.callback s.nextId (.onError "transport down: carrier page replaced")

def step (s : CarrierBridge) : CarrierEvent → Option CarrierBridge
  | .attach port owner => some (s.attach port owner)
  | .receive port message leaves => some (if s.port = some port then s.onMessage leaves message else s)
  | .readyTimeout =>
    match s.readyTimer with
    | some p =>
      let fired := { s with readyTimer := none }
      some (if s.port ≠ some p ∨ s.portReady then fired else fired.detach "carrier ready handshake timed out")
    | none => none
  | .check task allowCached now =>
    if s.tasks task = .unused then some (s.setTask task (s.checkCarrier false allowCached now)) else none
  | .acquire task aborted now =>
    if s.tasks task = .unused then
      some (s.setTask task (if aborted then .failed .aborted else s.checkCarrier true false now))
    else none
  | .found task owner now =>
    match s.tasks task with
    | .looking acquiring allowCached port ownerClientId =>
      some (s.checked task acquiring allowCached port ownerClientId owner now)
    | _ => none
  | .resume task aborted =>
    match s.tasks task with
    | .looked true true => some (s.setTask task (if aborted then .failed .aborted else .acquired s.port))
    | .looked true false => some (s.install task aborted)
    | _ => none
  | .abort task => if s.tasks task = .waiting then some (s.settle task (.failed .aborted)) else none
  | .timeout task => if s.tasks task = .waiting then some (s.settle task (.failed .noCarrier)) else none
  | .wake epoch =>
    if epoch ∈ s.waking then
      let answered := { s with waking := s.waking.erase epoch }
      some (if s.wakeEpoch ≠ some epoch ∨ s.port.isSome then answered else { answered with woken := s.woken ++ [epoch] })
    else none
  | .wakeFails epoch =>
    if epoch ∈ s.waking then
      let answered := { s with waking := s.waking.erase epoch }
      some (if s.wakeEpoch ≠ some epoch then answered
        else { answered with wakeEpoch := none }.settleAll (.failed .wakeFailed) s.waiters)
    else none
  | .request task aborted posted =>
    match s.tasks task with
    | .acquired original =>
      let resumed := s.setTask task .unused
      some (if aborted then resumed else resumed.beginRequest original posted)
    | _ => none
  | .leave id => some (s.delete id)

end CarrierBridge
end YuriRtc
