import YuriRtc.SwBridge
/-!
# SwBridgeWindow — when the queue stays inside the credit window

Credit out plus chunks queued stay within `targetCredit` through every callback but one: `recordConsumption` may shrink the
window below what is already out.  When a pull that `controller.enqueue` runs has just refilled up to the old window, the
shrink leaves a node that obeys its credit free to overrun the queue (`overrun_exceeds_window`).  Otherwise it keeps its bound
(`never_exceeds_credit_window`).
-/
namespace YuriRtc
namespace BridgeRequest

/-- **The window is not shrunk below the credit and the chunks already out**, read before the consumed chunk is
recorded. -/
def ShrinksWithinWindow (b : BridgeRequest) : BridgeEvent → Prop
  | .enqueueReturns now _ =>
    b.ended = false → creditSampleFrames ≤ b.sampleConsumed + 1 → b.adaptation now = .shrink →
      b.creditBalance + b.queued.length ≤ max b.initialCredit (b.targetCredit - creditGrowthStep)
  | _ => True

instance (b : BridgeRequest) (e : BridgeEvent) : Decidable (b.ShrinksWithinWindow e) := by
  unfold ShrinksWithinWindow
  split <;> infer_instance

structure InWindow (b : BridgeRequest) : Prop where
  pending : b.pending = true → b.ended = false
  bound : b.ended = false → b.creditBalance + b.queued.length ≤ b.targetCredit
  stream : b.stream ≠ .errored .creditWindow

section
variable {b : BridgeRequest}

section

variable (h : b.InWindow)
include h

theorem InWindow.onError (e : BridgeError) (he : e ≠ .creditWindow) (carrier : Bool)
    (outbox : List SwToPage) :
    InWindow ({ b with pending := false, carrier := carrier, outbox := outbox }.onError e) := by
  refine ⟨nofun, fun hopen => ?_, ?_⟩
  · exact Nat.le_trans (Nat.add_le_add_left (Nat.zero_le _) _) (h.bound hopen)
  unfold BridgeRequest.onError
  show (if b.stream = .readable then StreamState.errored e else b.stream) ≠ .errored .creditWindow
  split
  · intro heq
    cases heq
    exact he rfl
  · exact h.stream

theorem InWindow.refuse (e : BridgeError) (he : e ≠ .creditWindow) : (b.refuse e).InWindow := by
  obtain ⟨outbox, hr⟩ := refuse_eq b e
  rw [hr]
  exact h.onError e he b.carrier outbox

theorem InWindow.refillCredit (force flushGrowth : Bool) :
    (b.refillCredit force flushGrowth).InWindow := by
  obtain ⟨hr, -⟩ | ⟨-, -, n, -, hn, hr⟩ | ⟨-, -, hr⟩ := b.refillCredit_cases force flushGrowth <;> rw [hr]
  · exact h
  · refine ⟨h.pending, fun _ => ?_, h.stream⟩
    show b.creditBalance + n + b.queued.length ≤ b.targetCredit
    omega
  · exact h.onError .carrierReplaced nofun b.carrier b.outbox

theorem InWindow.recordConsumption (now later : Int)
    (hk : b.ended = false → creditSampleFrames ≤ b.sampleConsumed + 1 → b.adaptation now = .shrink →
      b.creditBalance + b.queued.length ≤ max b.initialCredit (b.targetCredit - creditGrowthStep)) :
    (b.recordConsumption now later).1.InWindow := by
  obtain ⟨consumed, peak, started, hr | ⟨hlt, hr⟩ | ⟨hfull, hshrink, hr⟩⟩ := b.recordConsumption_cases now later <;>
    rw [hr]
  · exact { h with }
  · refine ⟨h.pending, fun hopen => Nat.le_min.2 ⟨?_, ?_⟩, h.stream⟩
    · exact le_trans (h.bound hopen) (le_of_lt hlt)
    · exact le_trans (h.bound hopen) (Nat.le_add_right _ _)
  · exact ⟨h.pending, fun hopen => hk hopen hfull hshrink, h.stream⟩

theorem InWindow.closeIfDrained : b.closeIfDrained.InWindow := by
  obtain hr | ⟨-, -, hr⟩ := b.closeIfDrained_cases <;> rw [hr]
  · exact h
  refine ⟨h.pending, h.bound, ?_⟩
  show (if b.stream = .readable then StreamState.closed else b.stream) ≠ .errored .creditWindow
  split
  · nofun
  · exact h.stream

theorem InWindow.enqueue (chunk : Bytes) (caller : BridgeCall) : (b.enqueue chunk caller).InWindow := by
  unfold BridgeRequest.enqueue
  split
  · exact { h with }
  · exact h

theorem InWindow.onChunk (hp : b.pending = true) (chunk : Bytes) : (b.onChunk chunk).InWindow := by
  unfold BridgeRequest.onChunk
  split
  · exact h.refuse .chunkTooLarge nofun
  split
  · exact h.refuse .creditGrant nofun
  rename_i hcredit
  have hopen := h.pending hp
  have hbound := h.bound hopen
  have hspent : InWindow { b with creditBalance := b.creditBalance - 1, waitingForChunk := false } :=
    ⟨h.pending, fun _ => le_trans (Nat.add_le_add_right (Nat.sub_le _ _) _) hbound, h.stream⟩
  split
  · exact hspent.enqueue chunk .onChunk
  split
  · -- the branch that fails the stream: there is no room for it
    rename_i hfull
    exact absurd hfull (by omega)
  refine ⟨h.pending, fun _ => ?_, h.stream⟩
  show b.creditBalance - 1 + (b.queued ++ [chunk]).length ≤ b.targetCredit
  rw [List.length_append, List.length_singleton]
  omega

theorem InWindow.onPull : b.onPull.InWindow := by
  unfold BridgeRequest.onPull
  split
  · rename_i chunk queued hq
    have hshift : InWindow { b with queued := queued } := by
      refine ⟨h.pending, fun hopen => ?_, h.stream⟩
      have hbound := h.bound hopen
      rw [hq, List.length_cons] at hbound
      show b.creditBalance + queued.length ≤ b.targetCredit
      omega
    exact hshift.enqueue chunk .onPull
  · split
    · exact h.closeIfDrained
    · have hwait : InWindow { b with waitingForChunk := true } := { h with }
      exact hwait.refillCredit _ _

theorem InWindow.cancelStream : b.cancelStream.InWindow := by
  have hgone : ∀ pending outbox, (pending = true → b.pending = true) →
      InWindow { b with queued := [], stream := .cancelled, pending := pending, outbox := outbox } := by
    intro pending outbox hp
    exact ⟨fun hp' => h.pending (hp hp'),
      fun hopen => Nat.le_trans (Nat.add_le_add_left (Nat.zero_le _) _) (h.bound hopen), nofun⟩
  unfold BridgeRequest.cancelStream
  split
  · obtain ⟨outbox, hr⟩ := postForRequest_getD { b with queued := [], stream := .cancelled, pending := false } .cancel
    exact hr ▸ hgone false outbox nofun
  · exact hgone b.pending b.outbox id

theorem InWindow.resume {now later : Int} (hk : b.ShrinksWithinWindow (.enqueueReturns now later))
    (call : BridgeCall) : (b.resume now later call).InWindow := by
  have hrecorded : (b.recordAndRefill now later).InWindow := (h.recordConsumption now later hk).refillCredit _ _
  cases call with
  | onChunk => exact hrecorded
  | onPull =>
    show InWindow (if b.ended then b.closeIfDrained else (b.recordAndRefill now later).closeIfDrained)
    split
    · exact h.closeIfDrained
    · exact hrecorded.closeIfDrained

end

theorem InWindow.step {b' : BridgeRequest} {e : BridgeEvent} (h : b.InWindow) (hk : b.ShrinksWithinWindow e)
    (hs : b.step e = some b') : b'.InWindow := by
  cases e with simp only [BridgeRequest.step] at hs
  | body frame byteOffset byteLength =>
    obtain ⟨-, ⟨hp, rfl⟩ | ⟨-, rfl⟩⟩ := onPending_cases hs
    · unfold onBody
      split
      · exact h.onError .invalidBounds nofun b.carrier b.outbox
      · exact h.onChunk hp _
    · exact h
  | finish =>
    obtain ⟨-, ⟨-, rfl⟩ | ⟨-, rfl⟩⟩ := onPending_cases hs
    · have hended : InWindow { b with pending := false, ended := true } := ⟨nofun, nofun, h.stream⟩
      exact hended.closeIfDrained
    · exact h
  | err =>
    obtain ⟨-, ⟨-, rfl⟩ | ⟨-, rfl⟩⟩ := onPending_cases hs
    · exact h.onError .remote nofun b.carrier b.outbox
    · exact h
  | down =>
    obtain ⟨-, ⟨-, rfl⟩ | ⟨-, rfl⟩⟩ := onPending_cases hs
    · obtain ⟨outbox, hr⟩ := postForRequest_getD b .cancel
      unfold detach
      rw [hr]
      exact h.onError .transportDown nofun false outbox
    · exact h
  | pull =>
    split at hs <;> cases hs
    exact h.onPull
  | enqueueReturns now later =>
    split at hs <;> cases hs
    have hreturned : InWindow { b with calls := ‹_› } := { h with }
    exact hreturned.resume hk _
  | cancel =>
    split at hs <;> cases hs
    exact h.cancelStream
  | abort =>
    split at hs <;> cases hs
    unfold onAbort
    split
    · exact h.refuse .aborted nofun
    · exact h
  | portBroken =>
    split at hs <;> cases hs
    exact { h with }

end

/-- **A node that obeys its credit is never refused.**  In every run that does not shrink the window below what is out,
no chunk takes the `response exceeded its credit window` branch, and wherever credit is left there is room in the
queue. -/
theorem never_exceeds_credit_window (initial : InitialCredits) (now : Int) (es : List BridgeEvent) (b : BridgeRequest)
    (hrun : Steps.run step (request initial now) es = some b)
    (hshrinks : Steps.Meets step ShrinksWithinWindow (request initial now) es) :
    b.stream ≠ .errored .creditWindow ∧
    (b.pending = true → 0 < b.creditBalance → b.queued.length < b.targetCredit) := by
  have hstart : (request initial now).InWindow := ⟨fun _ => rfl, fun _ => le_rfl, nofun⟩
  have h : b.InWindow :=
    Steps.run_inv_when step _ InWindow (fun s e s' h hk hs => h.step hk hs) es _ b hstart hshrinks hrun
  refine ⟨h.stream, fun hp hcredit => ?_⟩
  have hbound := h.bound (h.pending hp)
  omega

def oneByte : BridgeEvent := .body [0] 0 1

/-- A chunk for a reader that waits: the pull for the next one runs inside `controller.enqueue`. -/
def handedOver : List BridgeEvent := [oneByte, .pull, .enqueueReturns 0 0]

def grownWindow : List BridgeEvent :=
  .pull :: (List.replicate 16 handedOver).flatten ++ [oneByte, .enqueueReturns 0 0] ++ List.replicate 8 oneByte ++
    (List.replicate 8 [BridgeEvent.pull, .enqueueReturns 0 0]).flatten ++ [.pull]

theorem never_exceeds_credit_window_grownWindow :
    ∃ b, Steps.run step (request ⟨8, by decide, by decide⟩ 0) grownWindow = some b ∧
      Steps.Meets step ShrinksWithinWindow (request ⟨8, by decide, by decide⟩ 0) grownWindow ∧
      b.targetCredit = 16 ∧ b.stream ≠ .errored .creditWindow := by
  have hends : (Steps.run step (request ⟨8, by decide, by decide⟩ 0) grownWindow).map (fun b => b.targetCredit) =
      some 16 := by decide +kernel
  have hshrinks : Steps.Meets step ShrinksWithinWindow (request ⟨8, by decide, by decide⟩ 0) grownWindow := by
    decide +kernel
  obtain ⟨b, hrun, htarget⟩ := Option.map_eq_some_iff.1 hends
  exact ⟨b, hrun, hshrinks, htarget, (never_exceeds_credit_window _ 0 grownWindow b hrun hshrinks).1⟩

/-- Seven more chunks for the waiting reader end the sample: the pull inside the last `controller.enqueue` refills to
sixteen, then the backlog of the sample shrinks the window to eight.  The reader stops, and nine chunks arrive. -/
def overrun : List BridgeEvent :=
  grownWindow ++ (List.replicate 7 handedOver).flatten ++ [oneByte, .enqueueReturns 0 0] ++ List.replicate 8 oneByte

/-- **The shrunk window refuses a chunk that has credit.** -/
theorem overrun_exceeds_window :
    (Steps.run step (request ⟨8, by decide, by decide⟩ 0) overrun).map
      (fun b => (b.stream, b.creditBalance, b.queued.length, b.targetCredit)) = some (.readable, 7, 8, 8) ∧
    (Steps.run step (request ⟨8, by decide, by decide⟩ 0) (overrun ++ [oneByte])).map (fun b => b.stream) =
      some (.errored .creditWindow) := by
  constructor <;> decide +kernel

end BridgeRequest
end YuriRtc
