import YuriRtc.Protocol
import YuriRtc.Ring
import YuriRtc.Steps
/-!
# RequestBody — `asyncRequestBody`, one lock section at a time

`content-node/request_body.go`.  The producer, any number of closers and one consumer share a ring of sixteen chunks.
`stateMu` guards the ring and the two flags; `readMu` is held for a whole `Read` or `WriteTo`, so the consumer's place
in its call (`Consumer`) is part of the state and `Consumer.idle` is `readMu` free.  One event is one section the code
runs without letting go of the lock it needs: `enqueue` and `end` are one each, `Close` is two (it drops the ring under
`stateMu`, then tries `readMu`), and a consumer call is as many as it has points where another goroutine can get in
between.  What a destination writer answers, and which branch a `select` takes, is part of the event.
-/
namespace YuriRtc

open Rings (Ring)

/-- The errors `enqueue` answers. -/
inductive BodyError where
  | closed
  | ended
  | queueFull
deriving DecidableEq, Repr

/-- Why a `Read` or a `WriteTo` failed. -/
inductive ReadError where
  | closed
  | canceled
  | invalidWriteCount
  | writer
  | shortWrite
deriving DecidableEq, Repr

/-- What a consumer call answers: `Read`'s `(n, nil)` and `(0, io.EOF)`, `WriteTo`'s `(total, nil)`, or an error. -/
inductive ReadResult where
  | data (n : Nat)
  | eof
  | wrote (total : Nat)
  | error (e : ReadError)
deriving DecidableEq, Repr

/-- Where the one consumer is.  Anything but `idle` holds `readMu`. -/
inductive Consumer where
  | idle
  /-- `Read` with room for `room` bytes, at the top of its loop. -/
  | read (room : Nat)
  | readBlocked (room : Nat)
  | readCurrent (room : Nat)
  /-- `WriteTo` after `total` bytes, at the top of its loop: the context is checked next. -/
  | writeTo (total : Nat)
  | writeAwait (total : Nat)
  | writeBlocked (total : Nat)
  | writeCurrent (total : Nat)
  | writing (total : Nat)
  /-- inside `onChunkConsumed`, which `finishCurrent` calls; `next` comes after it. -/
  | consumed (next : Consumer)
  /-- the deferred `unlockConsumer` runs next. -/
  | returning (r : ReadResult)
deriving DecidableEq, Repr

/-- `asyncRequestBody`.  `closers` counts the `Close` calls between their two sections. -/
structure AsyncRequestBody where
  ctxDone : Bool
  closed : Bool
  ended : Bool
  chunks : Ring Bytes requestBodyQueueFrames
  wake : Bool
  drained : Bool
  current : Bytes
  currentAt : Nat
  hasCurrent : Bool
  consumer : Consumer
  closers : Nat

inductive BodyEvent where
  | enqueue (payload : Bytes)
  | endBody
  | close
  | closeCurrent
  | cancel
  | readCall (room : Nat)
  | writeToCall
  | advance
  /-- the `select` of `awaitCurrent` takes `<-b.wake`. -/
  | woken
  /-- the `select` of `awaitCurrent` takes `<-b.ctx.Done()`. -/
  | ctxDone
  /-- `dst.Write` answers a count and whether it failed. -/
  | wrote (n : Int) (failed : Bool)
  | consumedReturn
  | unlock
deriving DecidableEq, Repr

namespace AsyncRequestBody

def newAsyncRequestBody : AsyncRequestBody where
  ctxDone := false
  closed := false
  ended := false
  chunks := Ring.empty
  wake := false
  drained := false
  current := []
  currentAt := 0
  hasCurrent := false
  consumer := .idle
  closers := 0

def signal (b : AsyncRequestBody) : AsyncRequestBody := { b with wake := true }

def releaseDrained (b : AsyncRequestBody) : AsyncRequestBody := { b with drained := true }

def enqueue (b : AsyncRequestBody) (payload : Bytes) : Except BodyError AsyncRequestBody :=
  if b.closed then .error .closed
  else if b.ended then .error .ended
  else
    match b.chunks.push payload with
    | none => .error .queueFull
    | some chunks => .ok { b with chunks := chunks }.signal

theorem enqueue_ok {b b' : AsyncRequestBody} {payload : Bytes} (h : b.enqueue payload = .ok b') :
    b.closed = false ∧ b.ended = false ∧
    ∃ chunks, b.chunks.push payload = some chunks ∧ b' = { b with chunks := chunks, wake := true } := by
  unfold enqueue at h
  split at h
  · cases h
  rename_i hc
  split at h
  · cases h
  rename_i he
  split at h
  · cases h
  rename_i chunks hp
  cases h
  exact ⟨by simpa using hc, by simpa using he, chunks, hp, rfl⟩

/-- `end`. -/
def endBody (b : AsyncRequestBody) : AsyncRequestBody :=
  if !b.closed && !b.ended then { b with ended := true }.signal else b

/-- What one turn of `awaitCurrent`'s loop came to. -/
inductive Await where
  | current
  | eof
  | closed
  | block
deriving DecidableEq, Repr

/-- One turn of `awaitCurrent`: the section under `stateMu` and what follows from the flags it read. -/
def awaitCurrent (b : AsyncRequestBody) : AsyncRequestBody × Await :=
  if b.hasCurrent then (b, .current)
  else
    match b.chunks.front? with
    | some chunk =>
      ({ b with current := chunk, chunks := b.chunks.popFront, currentAt := 0, hasCurrent := true }, .current)
    | none =>
      if b.ended then (b.releaseDrained, .eof)
      else if b.closed then (b, .closed)
      else (b, .block)

def clearCurrent (b : AsyncRequestBody) : AsyncRequestBody :=
  { b with current := [], currentAt := 0, hasCurrent := false }

/-- `current[currentAt:]`. -/
def remaining (b : AsyncRequestBody) : Bytes := b.current.drop b.currentAt

/-- After `n` more bytes of the current chunk: `finishCurrent`, with its callback, once the chunk is used up. -/
def took (b : AsyncRequestBody) (n : Nat) (next : Consumer) : AsyncRequestBody :=
  if b.currentAt + n = b.current.length then { b.clearCurrent with consumer := .consumed next }
  else { b with currentAt := b.currentAt + n, consumer := next }

/-- `unlockConsumer`: `readMu` is let go inside the `stateMu` section that reads `closed`. -/
def unlockConsumer (b : AsyncRequestBody) : AsyncRequestBody :=
  if b.closed then { b.clearCurrent with consumer := .idle }.releaseDrained
  else { b with consumer := .idle }

/-- `Close` under `stateMu`. -/
def close (b : AsyncRequestBody) : AsyncRequestBody :=
  if b.closed then { b with closers := b.closers + 1 }
  else { b with closed := true, chunks := b.chunks.clear, closers := b.closers + 1 }.signal

/-- The rest of `Close`: the current chunk is dropped here only if no consumer holds `readMu`. -/
def closeCurrent (b : AsyncRequestBody) : AsyncRequestBody :=
  if b.consumer = .idle then { b.clearCurrent with closers := b.closers - 1 }.releaseDrained
  else { b with closers := b.closers - 1 }

def advance (b : AsyncRequestBody) : Option AsyncRequestBody :=
  match b.consumer with
  | .read room =>
    match b.awaitCurrent with
    | (b', .current) => some { b' with consumer := .readCurrent room }
    | (b', .eof) => some { b' with consumer := .returning .eof }
    | (b', .closed) => some { b' with consumer := .returning (.error .closed) }
    | (b', .block) => some { b' with consumer := .readBlocked room }
  | .readCurrent room =>
    let n := min room b.remaining.length
    -- a zero-byte chunk is used up without an answer: the loop goes round again
    some (b.took n (if n = 0 then .read room else .returning (.data n)))
  | .writeTo total =>
    if b.ctxDone then some { b with consumer := .returning (.error .canceled) }
    else some { b with consumer := .writeAwait total }
  | .writeAwait total =>
    match b.awaitCurrent with
    | (b', .current) => some { b' with consumer := .writeCurrent total }
    | (b', .eof) => some { b' with consumer := .returning (.wrote total) }
    | (b', .closed) => some { b' with consumer := .returning (.error .closed) }
    | (b', .block) => some { b' with consumer := .writeBlocked total }
  | .writeCurrent total =>
    if b.remaining.isEmpty then some { b.clearCurrent with consumer := .consumed (.writeTo total) }
    else some { b with consumer := .writing total }
  | _ => none

/-- Where `awaitCurrent` waits in its `select`, and where it goes on once woken. -/
def afterWake : Consumer → Option Consumer
  | .readBlocked room => some (.read room)
  | .writeBlocked total => some (.writeAwait total)
  | _ => none

/-- `dst.Write` answered `n` bytes. -/
def wrote (b : AsyncRequestBody) (total : Nat) (n : Int) (failed : Bool) : AsyncRequestBody :=
  if n < 0 ∨ (b.remaining.length : Int) < n then { b with consumer := .returning (.error .invalidWriteCount) }
  else
    b.took n.toNat
      (if failed then .returning (.error .writer)
       else if n.toNat ≠ b.remaining.length then .returning (.error .shortWrite)
       else .writeTo (total + n.toNat))

def step (b : AsyncRequestBody) : BodyEvent → Option AsyncRequestBody
  | .enqueue payload =>
    match b.enqueue payload with
    | .ok b' => some b'
    | .error _ => some b
  | .endBody => some b.endBody
  | .close => some b.close
  | .closeCurrent => if b.closers = 0 then none else some b.closeCurrent
  | .cancel => some { b with ctxDone := true }
  | .readCall room =>
    -- `Read` of an empty slice returns before it takes `readMu`
    if b.consumer = .idle ∧ room ≠ 0 then some { b with consumer := .read room } else none
  | .writeToCall => if b.consumer = .idle then some { b with consumer := .writeTo 0 } else none
  | .advance => b.advance
  | .woken =>
    if b.wake then (afterWake b.consumer).map (fun c => { b with wake := false, consumer := c }) else none
  | .ctxDone =>
    if b.ctxDone then
      (afterWake b.consumer).map (fun _ => { b with consumer := .returning (.error .canceled) })
    else none
  | .wrote n failed =>
    match b.consumer with
    | .writing total => some (b.wrote total n failed)
    | _ => none
  | .consumedReturn =>
    match b.consumer with
    | .consumed next => some { b with consumer := next }
    | _ => none
  | .unlock =>
    match b.consumer with
    | .returning _ => some b.unlockConsumer
    | _ => none

end AsyncRequestBody
end YuriRtc
