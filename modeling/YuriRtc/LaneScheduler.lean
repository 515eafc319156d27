import YuriRtc.Protocol
import YuriRtc.Steps
/-!
# LaneScheduler — which data channel a request starts on

`packages/loader/src/client.ts`: `chooseChannel`, `acquireScheduledChannel`, `releaseChannelReservation`,
`releaseLaneWaiters` and the events that call them, with `isIncrementalAsset` of `routing.ts`.  A lane's record holds its
entry of `channelLoads`; `channels` keeps the order of the source's array.  The page runs one method at a time, so every
event is one whole method; a lane that is closing has left `open` before its close event runs.  `head.url` is ASCII, so
lowering its case is `Char.toLower`.
-/
namespace YuriRtc

structure Lane where
  id : Nat
  isOpen : Bool
  load : Nat
  bufferedAmount : Nat
deriving DecidableEq, Repr

structure LaneWaiter where
  id : Nat
  priority : RequestPriority
  url : List Char
  cancelled : Bool
deriving DecidableEq, Repr

structure LaneScheduler where
  channels : List Lane
  laneWaiters : List LaneWaiter
deriving DecidableEq, Repr

inductive LaneEvent where
  | start (id : Nat) (priority : RequestPriority) (url : List Char)
  | complete (lane : Nat)
  | cancel (id : Nat)
  | supersede (id : Nat)
  | create (lane : Nat)
  | opens (lane : Nat)
  | closing (lane : Nat)
  | closed (lane : Nat)
  | idleClose
  | buffered (lane amount : Nat)
  | teardown
deriving DecidableEq, Repr

namespace LaneScheduler

def incrementalExtensions : List (List Char) :=
  [['.', 'b', 'r'], ['.', 'b', 'u', 'n', 'd', 'l', 'e'], ['.', 'd', 'a', 't', 'a'], ['.', 'g', 'z'], ['.', 'p', 'a', 'k'],
    ['.', 'w', 'a', 's', 'm'], ['.', 'z', 'i', 'p']]

def fromLastDot : List Char → Option (List Char)
  | [] => none
  | c :: cs =>
    match fromLastDot cs with
    | some extension => some extension
    | none => if c = '.' then some (c :: cs) else none

def isIncrementalAsset (logicalPath : List Char) : Bool :=
  let leaf := (logicalPath.map Char.toLower).takeWhile (fun c => c ≠ '?' && c ≠ '#')
  match fromLastDot leaf with
  | none => false
  | some extension => incrementalExtensions.contains extension

/-- The loop of `chooseChannel`: the least loaded lane, the least buffered of those. -/
def leastLoaded (selected : Lane) : List Lane → Lane
  | [] => selected
  | lane :: lanes =>
    if lane.load < selected.load ∨ (lane.load = selected.load ∧ lane.bufferedAmount < selected.bufferedAmount) then
      leastLoaded lane lanes
    else leastLoaded selected lanes

def chooseChannel (channels : List Lane) (priority : RequestPriority) (logicalPath : List Char) : Option Lane :=
  match channels.filter (fun lane => lane.isOpen) with
  | [] => none
  | [only] => some only
  | first :: reserve :: bulk =>
    if priority = .interactive then some first
    else
      let isIncremental := priority = .bulk || isIncrementalAsset logicalPath
      if priority = .critical ∧ isIncremental = false then some reserve
      else
        match if isIncremental = true ∨ priority = .normal then bulk else reserve :: bulk with
        | [] => some reserve
        | selected :: lanes => some (leastLoaded selected lanes)

def constrained (priority : RequestPriority) (url : List Char) : Bool :=
  priority = .normal || priority = .bulk || isIncrementalAsset url

def reserve (channels : List Lane) (id : Nat) : List Lane :=
  channels.map (fun lane => if lane.id = id then { lane with load := lane.load + 1 } else lane)

/-- `releaseLaneWaiters`: the lanes and the waiters it leaves. -/
def releaseLaneWaiters (channels : List Lane) : List LaneWaiter → LaneScheduler
  | [] => ⟨channels, []⟩
  | waiter :: waiters =>
    if waiter.cancelled then releaseLaneWaiters channels waiters
    else
      match chooseChannel channels waiter.priority waiter.url with
      | none => ⟨channels, waiter :: waiters⟩
      | some lane =>
        if 1 ≤ lane.load then ⟨channels, waiter :: waiters⟩
        else releaseLaneWaiters (reserve channels lane.id) waiters

def acquireScheduledChannel (s : LaneScheduler) (id : Nat) (priority : RequestPriority) (url : List Char) :
    LaneScheduler :=
  let available := chooseChannel s.channels priority url
  if constrained priority url = false ∨ ∃ lane ∈ available, lane.load < 1 then
    match available with
    | none => s
    | some lane => { s with channels := reserve s.channels lane.id }
  else { s with laneWaiters := s.laneWaiters ++ [⟨id, priority, url, false⟩] }

def releaseChannelReservation (s : LaneScheduler) (id : Nat) : LaneScheduler :=
  releaseLaneWaiters
    (s.channels.map (fun lane => if lane.id = id then { lane with load := lane.load - 1 } else lane)) s.laneWaiters

def markCancelled (waiters : List LaneWaiter) (id : Nat) : List LaneWaiter :=
  waiters.map (fun waiter => if waiter.id = id then { waiter with cancelled := true } else waiter)

def setOpen (channels : List Lane) (id : Nat) (isOpen : Bool) : List Lane :=
  channels.map (fun lane => if lane.id = id then { lane with isOpen := isOpen } else lane)

/-- `handleChannelClose` of an asset lane: `removeChannel`, then the waiters. -/
def handleChannelClose (s : LaneScheduler) (id : Nat) : LaneScheduler :=
  releaseLaneWaiters (s.channels.filter (fun lane => lane.id ≠ id)) s.laneWaiters

def step (s : LaneScheduler) : LaneEvent → Option LaneScheduler
  | .start id priority url => some (s.acquireScheduledChannel id priority url)
  | .complete lane => some (s.releaseChannelReservation lane)
  | .cancel id => some (releaseLaneWaiters s.channels (markCancelled s.laneWaiters id))
  | .supersede id => some { s with laneWaiters := markCancelled s.laneWaiters id }
  | .create lane => some { s with channels := s.channels ++ [⟨lane, false, 0, 0⟩] }
  | .opens lane => some { s with channels := setOpen s.channels lane true }
  | .closing lane => some { s with channels := setOpen s.channels lane false }
  | .closed lane => some (s.handleChannelClose lane)
  | .idleClose =>
    -- the timer asks again whether an asset lane is in use
    if s.channels.tail.any (fun lane => 0 < lane.load) then some s
    else some { s with channels := s.channels.take 1 }
  | .buffered lane amount =>
    some { s with
      channels := s.channels.map (fun l => if l.id = lane then { l with bufferedAmount := amount } else l) }
  | .teardown => some ⟨s.channels.map (fun lane => { lane with load := 0 }), []⟩

def connected : LaneScheduler := ⟨[⟨0, true, 0, 0⟩], []⟩

end LaneScheduler
end YuriRtc
