import YuriRtc.Protocol
import YuriRtc.Steps
/-!
# SwBridge — one response stream of the service worker's bridge

`packages/loader/src/swbridge.ts`, the closure state of one `SwBridge.request` and its callbacks.  JavaScript runs one
callback at a time, with one exception: `controller.enqueue` may call the stream's `pull` before it returns.  So a
callback is cut in two where it calls `controller.enqueue`.  What is left of it waits in `calls`, innermost first, and
`enqueueReturns` runs the innermost rest; in between only `pull` can run.  Messages from the page, an abort, a cancel and
the loss of the carrier are tasks of their own: they need `calls` empty.  `outbox` is the port to the page, in posting
order.  The two clock readings of `recordConsumption` come with the event that runs it.
-/
namespace YuriRtc

def creditRefill : Nat := 8
def creditSampleFrames : Nat := 16
def creditGrowthStep : Nat := 8

/-- A response window `SwBridge.request` lets through. -/
structure InitialCredits where
  credits : Nat
  pos : 1 ≤ credits
  le_max : credits ≤ maxResponseCredits

inductive SwToPage where
  | credit (n : Nat)
  | cancel
deriving DecidableEq, Repr

inductive BridgeError where
  | invalidBounds
  | chunkTooLarge
  | creditGrant
  | creditWindow
  | carrierReplaced
  | transportDown
  | remote
  | aborted
deriving DecidableEq, Repr

inductive StreamState where
  | readable
  | closed
  | errored (e : BridgeError)
  | cancelled
deriving DecidableEq, Repr

/-- Which callback waits for its `controller.enqueue` to return. -/
inductive BridgeCall where
  | onChunk
  | onPull
deriving DecidableEq, Repr

/-- What `recordConsumption` does to the window at the end of a sample. -/
inductive Adaptation where
  | grow
  | shrink
  | keep
deriving DecidableEq, Repr

structure BridgeRequest where
  initialCredit : Nat
  targetCredit : Nat
  creditBalance : Nat
  queued : List Bytes
  waitingForChunk : Bool
  ended : Bool
  sampleConsumed : Nat
  samplePeakQueue : Nat
  sampleStartedAt : Int
  pending : Bool
  /-- `postForRequest` still has a port it may use. -/
  carrier : Bool
  stream : StreamState
  enqueued : List Bytes
  outbox : List SwToPage
  calls : List BridgeCall
deriving DecidableEq, Repr

inductive BridgeEvent where
  | body (frame : Bytes) (byteOffset byteLength : Int)
  | finish
  | err
  | down
  | pull
  | enqueueReturns (now later : Int)
  | cancel
  | abort
  | portBroken
deriving DecidableEq, Repr

namespace BridgeRequest

def request (initial : InitialCredits) (now : Int) : BridgeRequest where
  initialCredit := initial.credits
  targetCredit := initial.credits
  creditBalance := initial.credits
  queued := []
  waitingForChunk := false
  ended := false
  sampleConsumed := 0
  samplePeakQueue := 0
  sampleStartedAt := now
  pending := true
  carrier := true
  stream := .readable
  enqueued := []
  outbox := []
  calls := []

def postForRequest (b : BridgeRequest) (message : SwToPage) : Option BridgeRequest :=
  if b.carrier then some { b with outbox := b.outbox ++ [message] } else none

def onError (b : BridgeRequest) (e : BridgeError) : BridgeRequest :=
  { b with
    queued := []
    waitingForChunk := false
    -- `controller.error` throws, and is caught, on a stream that is not readable any more
    stream := if b.stream = .readable then .errored e else b.stream }

/-- The way out of every check of `onChunk`: forget the request, tell the page, fail the stream. -/
def refuse (b : BridgeRequest) (e : BridgeError) : BridgeRequest :=
  let dropped := { b with pending := false, queued := [] }
  ((dropped.postForRequest .cancel).getD dropped).onError e

def refillCredit (b : BridgeRequest) (force flushGrowth : Bool) : BridgeRequest :=
  if b.ended || !b.pending then b
  else
    let available := b.targetCredit - b.creditBalance - b.queued.length
    if available = 0 then b
    else if available < min creditRefill ((b.targetCredit + 1) / 2) && !flushGrowth
        && !(force && b.creditBalance == 0) then b
    else
      match b.postForRequest (.credit available) with
      | none => { b with pending := false, queued := [] }.onError .carrierReplaced
      | some posted => { posted with creditBalance := b.creditBalance + available }

def adaptation (b : BridgeRequest) (now : Int) : Adaptation :=
  if now - b.sampleStartedAt ≤ 500 ∧ b.samplePeakQueue ≤ 2 ∧ b.targetCredit < maxResponseCredits then .grow
  else if (b.targetCredit + 1) / 2 ≤ b.samplePeakQueue ∧ b.initialCredit < b.targetCredit then .shrink
  else .keep

def recordConsumption (b : BridgeRequest) (now later : Int) : BridgeRequest × Bool :=
  if b.sampleConsumed + 1 < creditSampleFrames then ({ b with sampleConsumed := b.sampleConsumed + 1 }, false)
  else
    let resampled := { b with sampleConsumed := 0, samplePeakQueue := b.queued.length, sampleStartedAt := later }
    match b.adaptation now with
    | .grow => ({ resampled with targetCredit := min maxResponseCredits (b.targetCredit + creditGrowthStep) }, true)
    | .shrink => ({ resampled with targetCredit := max b.initialCredit (b.targetCredit - creditGrowthStep) }, false)
    | .keep => (resampled, false)

def closeIfDrained (b : BridgeRequest) : BridgeRequest :=
  if !b.ended || !b.queued.isEmpty then b
  else { b with waitingForChunk := false, stream := if b.stream = .readable then .closed else b.stream }

/-- `controller.enqueue`, up to where it may call `pull`.  On a stream that is not readable it throws, and the callback
ends there. -/
def enqueue (b : BridgeRequest) (chunk : Bytes) (caller : BridgeCall) : BridgeRequest :=
  if b.stream = .readable then { b with enqueued := b.enqueued ++ [chunk], calls := caller :: b.calls } else b

def onChunk (b : BridgeRequest) (chunk : Bytes) : BridgeRequest :=
  if maxPayloadBytes < chunk.length then b.refuse .chunkTooLarge
  else if b.creditBalance = 0 then b.refuse .creditGrant
  else
    let spent := { b with creditBalance := b.creditBalance - 1 }
    if b.waitingForChunk then { spent with waitingForChunk := false }.enqueue chunk .onChunk
    else if b.targetCredit ≤ b.queued.length then spent.refuse .creditWindow
    else
      { spent with
        queued := b.queued ++ [chunk]
        samplePeakQueue := max b.samplePeakQueue (b.queued.length + 1) }

def onEnd (b : BridgeRequest) : BridgeRequest := { b with ended := true }.closeIfDrained

def onPull (b : BridgeRequest) : BridgeRequest :=
  match b.queued with
  | chunk :: queued => { b with queued := queued }.enqueue chunk .onPull
  | [] => if b.ended then b.closeIfDrained else { b with waitingForChunk := true }.refillCredit true false

/-- `recordConsumption`, then the refill that flushes what the window grew by. -/
def recordAndRefill (b : BridgeRequest) (now later : Int) : BridgeRequest :=
  (b.recordConsumption now later).1.refillCredit false (b.recordConsumption now later).2

/-- The rest of a callback after its `controller.enqueue`. -/
def resume (b : BridgeRequest) (now later : Int) : BridgeCall → BridgeRequest
  | .onChunk => b.recordAndRefill now later
  | .onPull => if b.ended then b.closeIfDrained else (b.recordAndRefill now later).closeIfDrained

/-- The chunk a `body` message shows of its frame. -/
def bodyChunk (frame : Bytes) (byteOffset byteLength : Int) : Option Bytes :=
  if byteOffset < 0 ∨ byteLength < 0 ∨ (frame.length : Int) < byteOffset + byteLength then none
  else some ((frame.drop byteOffset.toNat).take byteLength.toNat)

def onBody (b : BridgeRequest) (frame : Bytes) (byteOffset byteLength : Int) : BridgeRequest :=
  match bodyChunk frame byteOffset byteLength with
  | none => { b with pending := false }.onError .invalidBounds
  | some chunk => b.onChunk chunk

/-- `detach`, as far as this request goes. -/
def detach (b : BridgeRequest) : BridgeRequest :=
  let told := (b.postForRequest .cancel).getD b
  { told with pending := false, carrier := false }.onError .transportDown

/-- The `cancel` of the stream's underlying source. -/
def cancelStream (b : BridgeRequest) : BridgeRequest :=
  let dropped := { b with queued := [], stream := .cancelled }
  if b.pending then
    let forgotten := { dropped with pending := false }
    (forgotten.postForRequest .cancel).getD forgotten
  else dropped

def onAbort (b : BridgeRequest) : BridgeRequest :=
  if b.pending then b.refuse .aborted else b

def onPending (b : BridgeRequest) (task : BridgeRequest → BridgeRequest) : Option BridgeRequest :=
  if b.calls ≠ [] then none else if b.pending then some (task b) else some b

def step (b : BridgeRequest) : BridgeEvent → Option BridgeRequest
  | .body frame byteOffset byteLength => b.onPending (fun b => b.onBody frame byteOffset byteLength)
  | .finish => b.onPending (fun b => { b with pending := false }.onEnd)
  | .err => b.onPending (fun b => { b with pending := false }.onError .remote)
  | .down => b.onPending detach
  | .pull => if b.stream = .readable then some b.onPull else none
  | .enqueueReturns now later =>
    match b.calls with
    | [] => none
    | call :: calls => some ({ b with calls := calls }.resume now later call)
  | .cancel => if b.calls = [] ∧ b.stream = .readable then some b.cancelStream else none
  | .abort => if b.calls = [] then some b.onAbort else none
  | .portBroken => if b.calls = [] then some { b with carrier := false } else none

/-! ### What each function can do -/

section

variable (b : BridgeRequest)
include b

theorem postForRequest_getD (message : SwToPage) :
    ∃ outbox, (b.postForRequest message).getD b = { b with outbox := outbox } := by
  unfold postForRequest
  split
  · exact ⟨_, rfl⟩
  · exact ⟨b.outbox, rfl⟩

theorem refuse_eq (e : BridgeError) :
    ∃ outbox, b.refuse e = { b with pending := false, outbox := outbox }.onError e := by
  obtain ⟨outbox, h⟩ := postForRequest_getD { b with pending := false, queued := [] } .cancel
  exact ⟨outbox, congrArg (fun dropped => dropped.onError e) h⟩

/-- **What a refill does**: nothing, and then a waiting consumer is not out of credit; or it brings the credit out up
to the window; or it finds the carrier gone. -/
theorem refillCredit_cases (force flushGrowth : Bool) :
    (b.refillCredit force flushGrowth = b ∧
      (b.ended = false → b.pending = true → force = true → b.queued = [] → 1 ≤ b.targetCredit →
        0 < b.creditBalance)) ∨
    (b.ended = false ∧ b.pending = true ∧
      ∃ n, 0 < n ∧ b.creditBalance + b.queued.length + n = b.targetCredit ∧
        b.refillCredit force flushGrowth =
          { b with outbox := b.outbox ++ [.credit n], creditBalance := b.creditBalance + n }) ∨
    (b.ended = false ∧ b.pending = true ∧
      b.refillCredit force flushGrowth = { b with pending := false }.onError .carrierReplaced) := by
  unfold refillCredit
  by_cases hgone : (b.ended || !b.pending) = true
  · rw [if_pos hgone]
    refine .inl ⟨rfl, fun he hp => ?_⟩
    rw [he, hp] at hgone
    cases hgone
  rw [if_neg hgone]
  obtain ⟨he, hp⟩ : b.ended = false ∧ b.pending = true := by simpa using hgone
  by_cases hnone : b.targetCredit - b.creditBalance - b.queued.length = 0
  · rw [if_pos hnone]
    refine .inl ⟨rfl, fun _ _ _ hq ht => ?_⟩
    rw [hq, List.length_nil] at hnone
    omega
  rw [if_neg hnone]
  split
  · rename_i hbatch
    refine .inl ⟨rfl, fun _ _ hf _ _ => ?_⟩
    simp only [hf, Bool.true_and, Bool.and_eq_true, Bool.not_eq_true', beq_eq_false_iff_ne] at hbatch
    exact Nat.pos_of_ne_zero hbatch.2
  unfold postForRequest
  split
  · rename_i hcarrier
    split at hcarrier
    · cases hcarrier
    · exact .inr (.inr ⟨he, hp, rfl⟩)
  rename_i posted hcarrier
  split at hcarrier
  · cases hcarrier
    exact .inr (.inl ⟨he, hp, _, Nat.pos_of_ne_zero hnone, by omega, rfl⟩)
  · cases hcarrier

theorem recordConsumption_cases (now later : Int) :
    ∃ consumed peak started,
      (b.recordConsumption now later).1 =
          { b with sampleConsumed := consumed, samplePeakQueue := peak, sampleStartedAt := started } ∨
      (b.targetCredit < maxResponseCredits ∧ (b.recordConsumption now later).1 =
          { b with
            sampleConsumed := consumed, samplePeakQueue := peak, sampleStartedAt := started
            targetCredit := min maxResponseCredits (b.targetCredit + creditGrowthStep) }) ∨
      (creditSampleFrames ≤ b.sampleConsumed + 1 ∧ b.adaptation now = .shrink ∧
        (b.recordConsumption now later).1 =
          { b with
            sampleConsumed := consumed, samplePeakQueue := peak, sampleStartedAt := started
            targetCredit := max b.initialCredit (b.targetCredit - creditGrowthStep) }) := by
  unfold recordConsumption
  split
  · exact ⟨_, _, _, .inl rfl⟩
  rename_i hfull
  refine ⟨0, b.queued.length, later, ?_⟩
  split
  · rename_i hgrow
    refine .inr (.inl ⟨?_, rfl⟩)
    unfold adaptation at hgrow
    split at hgrow
    · rename_i hfast
      exact hfast.2.2
    · split at hgrow <;> cases hgrow
  · rename_i hshrink
    exact .inr (.inr ⟨Nat.le_of_not_lt hfull, hshrink, rfl⟩)
  · exact .inl rfl

theorem closeIfDrained_cases :
    b.closeIfDrained = b ∨
    (b.ended = true ∧ b.queued = [] ∧
      b.closeIfDrained =
        { b with waitingForChunk := false, stream := if b.stream = .readable then .closed else b.stream }) := by
  unfold closeIfDrained
  split
  · exact .inl rfl
  rename_i h
  obtain ⟨he, hq⟩ : b.ended = true ∧ b.queued = [] := by simpa using h
  exact .inr ⟨he, hq, rfl⟩

end

theorem onPending_cases {b b' : BridgeRequest} {task : BridgeRequest → BridgeRequest} (h : b.onPending task = some b') :
    b.calls = [] ∧ ((b.pending = true ∧ b' = task b) ∨ (b.pending = false ∧ b' = b)) := by
  unfold onPending at h
  split at h
  · cases h
  rename_i hc
  refine ⟨by simpa using hc, ?_⟩
  split at h <;> cases h
  · exact .inl ⟨‹_›, rfl⟩
  · rename_i hp
    exact .inr ⟨by simpa using hp, rfl⟩

end BridgeRequest
end YuriRtc
