import YuriRtc.SwBridge
/-!
# SwBridgeStream — the bridge's stream is ordered, lossless and fed

`received` lists the chunks the page's `body` messages brought to a pending request.  `Ordered` is the part of the
invariant every function keeps by itself: what went downstream and what is queued make up `received`, a closed stream
ended with nothing queued, a consumer waits only at an empty queue, a request is pending just as long as its stream is
readable and not ended.  `Fed` is the rest: a waiting consumer has credit out.  It fails for a moment inside `onPull`,
between `waitingForChunk = true` and the forced refill.
-/
namespace YuriRtc

open BridgeRequest (enqueue)

open BridgeRequest

structure BridgeTrace where
  request : BridgeRequest
  received : List Bytes

namespace BridgeTrace

def start (initial : InitialCredits) (now : Int) : BridgeTrace := ⟨.request initial now, []⟩

def receives (b : BridgeRequest) : BridgeEvent → List Bytes
  | .body frame byteOffset byteLength => if b.pending then (bodyChunk frame byteOffset byteLength).toList else []
  | _ => []

def step (t : BridgeTrace) (e : BridgeEvent) : Option BridgeTrace :=
  (t.request.step e).map (fun b => ⟨b, t.received ++ receives t.request e⟩)

end BridgeTrace

namespace BridgeRequest

structure Ordered (received : List Bytes) (b : BridgeRequest) : Prop where
  window : 1 ≤ b.initialCredit ∧ b.initialCredit ≤ b.targetCredit
  pending : b.pending = true → b.stream = .readable ∧ b.ended = false
  live : b.stream = .readable → b.ended = false → b.pending = true
  closed : b.stream = .closed → b.ended = true ∧ b.queued = []
  intact : b.stream = .readable ∨ b.stream = .closed → b.enqueued ++ b.queued = received
  waiting : b.waitingForChunk = true → b.queued = []

def Fed (b : BridgeRequest) : Prop := b.waitingForChunk = true → b.pending = true → 0 < b.creditBalance

theorem fed_of_not_waiting {b : BridgeRequest} (h : b.waitingForChunk = false) : b.Fed := fun hw => by
  cases h.symm.trans hw

theorem fed_of_not_pending {b : BridgeRequest} (h : b.pending = false) : b.Fed := fun _ hp => by
  cases h.symm.trans hp

section
variable {received received' : List Bytes} {b : BridgeRequest}

section

variable (h : Ordered received b)
include h

theorem Ordered.onError (hp : b.pending = true) (balance : Nat) (carrier : Bool)
    (outbox : List SwToPage) (e : BridgeError) :
    Ordered received'
      ({ b with creditBalance := balance, pending := false, carrier := carrier, outbox := outbox }.onError e) := by
  unfold BridgeRequest.onError
  simp only [if_pos (h.pending hp).1]
  exact ⟨h.window, nofun, nofun, nofun, nofun, nofun⟩

theorem Ordered.refuse (hp : b.pending = true) (balance : Nat) (e : BridgeError) :
    Ordered received' ({ b with creditBalance := balance }.refuse e) := by
  obtain ⟨outbox, hr⟩ := refuse_eq { b with creditBalance := balance } e
  rw [hr]
  exact h.onError hp balance b.carrier outbox e

theorem Ordered.refillCredit (force flushGrowth : Bool) :
    Ordered received (b.refillCredit force flushGrowth) := by
  obtain ⟨hr, -⟩ | ⟨-, -, n, -, -, hr⟩ | ⟨-, hp, hr⟩ := b.refillCredit_cases force flushGrowth <;> rw [hr]
  · exact h
  · exact { h with }
  · exact h.onError hp b.creditBalance b.carrier b.outbox _

theorem Ordered.recordConsumption (now later : Int) :
    Ordered received (b.recordConsumption now later).1 := by
  obtain ⟨consumed, peak, started, hr | ⟨hlt, hr⟩ | ⟨-, -, hr⟩⟩ := b.recordConsumption_cases now later <;> rw [hr]
  · exact { h with }
  · refine { h with window := ⟨h.window.1, Nat.le_min.2 ⟨?_, ?_⟩⟩ }
    · exact le_trans h.window.2 (le_of_lt hlt)
    · exact le_trans h.window.2 (Nat.le_add_right _ _)
  · exact { h with window := ⟨h.window.1, Nat.le_max_left _ _⟩ }

theorem Ordered.recordAndRefill (now later : Int) :
    Ordered received (b.recordAndRefill now later) :=
  (h.recordConsumption now later).refillCredit _ _

theorem Ordered.closeIfDrained : Ordered received b.closeIfDrained := by
  obtain hr | ⟨he, hq, hr⟩ := b.closeIfDrained_cases <;> rw [hr]
  · exact h
  refine ⟨h.window, fun hp => ?_, fun _ he' => ?_, fun _ => ⟨he, hq⟩, fun hs => h.intact ?_, nofun⟩
  · have hopen := (h.pending hp).2
    cases he.symm.trans hopen
  · simp_all
  · -- the stream was readable, or it is what it was
    by_cases hr : b.stream = .readable
    · exact .inl hr
    · simpa only [if_neg hr] using hs

theorem Ordered.onChunk (hp : b.pending = true) (chunk : Bytes) :
    Ordered (received ++ [chunk]) (b.onChunk chunk) := by
  obtain ⟨hread, hopen⟩ := h.pending hp
  have hall := h.intact (.inl hread)
  unfold BridgeRequest.onChunk
  split
  · exact h.refuse hp b.creditBalance _
  split
  · exact h.refuse hp b.creditBalance _
  by_cases hw : b.waitingForChunk = true
  · simp only [if_pos hw]
    have hq := h.waiting hw
    unfold enqueue
    rw [if_pos hread]
    refine { h with intact := fun _ => ?_, waiting := fun _ => hq }
    simp [← hall, hq]
  · simp only [if_neg hw]
    split
    · exact h.refuse hp (b.creditBalance - 1) _
    refine ⟨h.window, h.pending, h.live, fun hc => ?_, fun _ => ?_, fun hw' => absurd hw' hw⟩
    · simp_all
    · grind

theorem Ordered.onEnd : Ordered received { b with pending := false }.onEnd := by
  have hended : Ordered received { b with pending := false, ended := true } :=
    ⟨h.window, nofun, nofun, fun hc => ⟨rfl, (h.closed hc).2⟩, h.intact, h.waiting⟩
  exact hended.closeIfDrained

theorem Ordered.onPull (hread : b.stream = .readable) : Ordered received b.onPull := by
  unfold BridgeRequest.onPull
  split
  · rename_i chunk queued hq
    have hall := h.intact (.inl hread)
    unfold enqueue
    rw [if_pos hread]
    refine ⟨h.window, h.pending, h.live, fun hc => ?_, fun _ => ?_, fun hw => ?_⟩
    · simp_all
    · simp [← hall, hq]
    · have hempty := h.waiting hw
      grind
  · rename_i hq
    split
    · exact h.closeIfDrained
    have hwait : Ordered received { b with waitingForChunk := true } :=
      { h with waiting := fun _ => hq }
    exact hwait.refillCredit _ _

theorem Ordered.resume (now later : Int) (call : BridgeCall) :
    Ordered received (b.resume now later call) := by
  cases call with
  | onChunk => exact h.recordAndRefill now later
  | onPull =>
    show Ordered received (if b.ended then b.closeIfDrained else (b.recordAndRefill now later).closeIfDrained)
    split
    · exact h.closeIfDrained
    · exact (h.recordAndRefill now later).closeIfDrained

theorem Ordered.cancelStream : Ordered received b.cancelStream := by
  have hgone : ∀ pending outbox, pending = false →
      Ordered received { b with queued := [], stream := .cancelled, pending := pending, outbox := outbox } := by
    rintro _ outbox rfl
    exact ⟨h.window, nofun, nofun, nofun, nofun, fun _ => rfl⟩
  unfold BridgeRequest.cancelStream
  by_cases hp : b.pending = true
  · rw [if_pos hp]
    obtain ⟨outbox, hr⟩ := postForRequest_getD { b with queued := [], stream := .cancelled, pending := false } .cancel
    exact hr ▸ hgone false outbox rfl
  · simp_all

end

theorem fed_refuse (b : BridgeRequest) (e : BridgeError) : (b.refuse e).Fed := by
  obtain ⟨outbox, hr⟩ := refuse_eq b e
  rw [hr]
  exact fed_of_not_waiting rfl

theorem Fed.refillCredit (h : b.Fed) (force flushGrowth : Bool) : (b.refillCredit force flushGrowth).Fed := by
  obtain ⟨hr, -⟩ | ⟨-, -, n, hn, -, hr⟩ | ⟨-, -, hr⟩ := b.refillCredit_cases force flushGrowth <;> rw [hr]
  · exact h
  · intro hw hp
    exact lt_of_lt_of_le (h hw hp) (Nat.le_add_right _ _)
  · exact fed_of_not_waiting rfl

/-- **The forced refill at an empty queue leaves no consumer without credit**, even if it waited without any before. -/
theorem Ordered.fed_refillCredit (h : Ordered received b) (hq : b.queued = []) : (b.refillCredit true false).Fed := by
  have htarget : 1 ≤ b.targetCredit := le_trans h.window.1 h.window.2
  obtain ⟨hr, hpos⟩ | ⟨-, -, n, hn, -, hr⟩ | ⟨-, -, hr⟩ := b.refillCredit_cases true false <;> rw [hr]
  · intro _ hp
    exact hpos (h.pending hp).2 hp rfl hq htarget
  · intro _ _
    exact lt_of_lt_of_le hn (Nat.le_add_left _ _)
  · exact fed_of_not_waiting rfl

theorem Fed.recordAndRefill (h : b.Fed) (now later : Int) : (b.recordAndRefill now later).Fed := by
  refine Fed.refillCredit ?_ _ _
  obtain ⟨consumed, peak, started, hr | ⟨-, hr⟩ | ⟨-, -, hr⟩⟩ := b.recordConsumption_cases now later <;> rw [hr] <;>
    exact h

theorem Fed.closeIfDrained (h : b.Fed) : b.closeIfDrained.Fed := by
  obtain hr | ⟨-, -, hr⟩ := b.closeIfDrained_cases <;> rw [hr]
  · exact h
  · exact fed_of_not_waiting rfl

theorem fed_onChunk (b : BridgeRequest) (chunk : Bytes) : (b.onChunk chunk).Fed := by
  unfold BridgeRequest.onChunk
  split
  · exact fed_refuse _ _
  split
  · exact fed_refuse _ _
  by_cases hw : b.waitingForChunk = true
  · simp only [if_pos hw]
    unfold enqueue
    split <;> exact fed_of_not_waiting rfl
  simp only [if_neg hw]
  split
  · exact fed_refuse _ _
  · exact fed_of_not_waiting (by simpa using hw)

theorem Ordered.fed_onPull (h : Ordered received b) (hf : b.Fed) (hread : b.stream = .readable) : b.onPull.Fed := by
  unfold BridgeRequest.onPull
  split
  · unfold enqueue
    rw [if_pos hread]
    exact hf
  rename_i hq
  split
  · exact hf.closeIfDrained
  have hwait : Ordered received { b with waitingForChunk := true } :=
    { h with waiting := fun _ => hq }
  exact hwait.fed_refillCredit hq

theorem Fed.resume (h : b.Fed) (now later : Int) (call : BridgeCall) : (b.resume now later call).Fed := by
  cases call with
  | onChunk => exact h.recordAndRefill now later
  | onPull =>
    show Fed (if b.ended then b.closeIfDrained else (b.recordAndRefill now later).closeIfDrained)
    split
    · exact h.closeIfDrained
    · exact (h.recordAndRefill now later).closeIfDrained

theorem fed_cancelStream (b : BridgeRequest) : b.cancelStream.Fed := by
  unfold BridgeRequest.cancelStream
  by_cases hp : b.pending = true
  · rw [if_pos hp]
    obtain ⟨outbox, hr⟩ := postForRequest_getD { b with queued := [], stream := .cancelled, pending := false } .cancel
    exact hr ▸ fed_of_not_pending rfl
  · rw [if_neg hp]
    exact fed_of_not_pending (by simpa using hp)

end

end BridgeRequest

namespace BridgeTrace

def Sound (t : BridgeTrace) : Prop := Ordered t.received t.request ∧ t.request.Fed

theorem sound_start (initial : InitialCredits) (now : Int) : (start initial now).Sound :=
  ⟨⟨⟨initial.pos, le_rfl⟩, fun _ => ⟨rfl, rfl⟩, fun _ _ => rfl, nofun, fun _ => rfl, nofun⟩, nofun⟩

theorem Sound.step {t t' : BridgeTrace} {e : BridgeEvent} (h : t.Sound) (hs : t.step e = some t') : t'.Sound := by
  obtain ⟨b, hb, rfl⟩ := Option.map_eq_some_iff.1 hs
  obtain ⟨ho, hf⟩ := h
  have hsame : (⟨t.request, t.received ++ []⟩ : BridgeTrace).Sound := by
    rw [List.append_nil]
    exact ⟨ho, hf⟩
  cases e <;> simp only [BridgeRequest.step] at hb
  case body frame byteOffset byteLength =>
    obtain ⟨-, ⟨hp, rfl⟩ | ⟨hp, rfl⟩⟩ := onPending_cases hb
    · simp only [receives, if_pos hp, onBody]
      cases bodyChunk frame byteOffset byteLength with
      | none => exact ⟨ho.onError hp _ _ _ _, fed_of_not_waiting rfl⟩
      | some chunk => exact ⟨ho.onChunk hp chunk, fed_onChunk _ _⟩
    · simpa [receives, hp] using hsame
  case finish =>
    obtain ⟨-, ⟨hp, rfl⟩ | ⟨-, rfl⟩⟩ := onPending_cases hb
    · simp only [receives, List.append_nil]
      exact ⟨ho.onEnd, Fed.closeIfDrained (fed_of_not_pending rfl)⟩
    · exact hsame
  case err =>
    obtain ⟨-, ⟨hp, rfl⟩ | ⟨-, rfl⟩⟩ := onPending_cases hb
    · exact ⟨ho.onError hp _ _ _ _, fed_of_not_waiting rfl⟩
    · exact hsame
  case down =>
    obtain ⟨-, ⟨hp, rfl⟩ | ⟨-, rfl⟩⟩ := onPending_cases hb
    · obtain ⟨outbox, hr⟩ := postForRequest_getD t.request .cancel
      unfold detach
      rw [hr]
      exact ⟨ho.onError hp _ _ _ _, fed_of_not_waiting rfl⟩
    · exact hsame
  case pull =>
    split at hb <;> cases hb
    simp only [receives, List.append_nil]
    exact ⟨ho.onPull ‹_›, ho.fed_onPull hf ‹_›⟩
  case enqueueReturns now later =>
    split at hb <;> cases hb
    simp only [receives, List.append_nil]
    have ho' : Ordered t.received { t.request with calls := ‹_› } :=
      { ho with }
    have hf' : Fed { t.request with calls := ‹_› } := hf
    exact ⟨ho'.resume now later _, hf'.resume now later _⟩
  case cancel =>
    obtain ⟨-, rfl⟩ := Steps.of_guard hb
    simp only [receives, List.append_nil]
    exact ⟨ho.cancelStream, fed_cancelStream _⟩
  case abort =>
    obtain ⟨-, rfl⟩ := Steps.of_guard hb
    unfold onAbort
    split
    · exact ⟨ho.refuse ‹_› t.request.creditBalance _, fed_refuse _ _⟩
    · exact hsame
  case portBroken =>
    obtain ⟨-, rfl⟩ := Steps.of_guard hb
    simp only [receives, List.append_nil]
    exact ⟨{ ho with }, hf⟩

/-- **The response stream is ordered, lossless and never starves.**  In every run that has met no error, abort or
cancel: what went downstream is a prefix of what was received, the stream is closed only once it ended and everything
went downstream, a waiting consumer has an empty queue before it, and, until the end, credit out behind it. -/
theorem stream_ordered_and_fed (initial : InitialCredits) (now : Int) (es : List BridgeEvent) (t : BridgeTrace)
    (hrun : Steps.run step (start initial now) es = some t)
    (hgood : t.request.stream = .readable ∨ t.request.stream = .closed) :
    t.request.enqueued <+: t.received ∧
    (t.request.stream = .closed → t.request.ended = true ∧ t.request.enqueued = t.received) ∧
    (t.request.waitingForChunk = true → t.request.queued = []) ∧
    (t.request.waitingForChunk = true → t.request.ended = false → 0 < t.request.creditBalance) := by
  obtain ⟨ho, hf⟩ : t.Sound :=
    Steps.run_inv step Sound (fun s e s' h hs => h.step hs) es _ t (sound_start initial now) hrun
  refine ⟨⟨t.request.queued, ho.intact hgood⟩, fun hc => ?_, ho.waiting, fun hw hopen => ?_⟩
  · obtain ⟨hended, hq⟩ := ho.closed hc
    refine ⟨hended, ?_⟩
    rw [← ho.intact (.inr hc), hq, List.append_nil]
  obtain hr | hc := hgood
  · exact hf hw (ho.live hr hopen)
  · rw [(ho.closed hc).1] at hopen
    cases hopen

/-- Two chunks under a window of one: the first meets a waiting consumer, whose next pull runs inside
`controller.enqueue` and asks for the second. -/
def twoChunks : List BridgeEvent :=
  [.pull, .body [1, 2, 3] 1 2, .pull, .enqueueReturns 0 0, .body [4] 0 1, .enqueueReturns 0 0, .finish]

theorem stream_ordered_and_fed_twoChunks :
    ∃ t, Steps.run step (start ⟨1, by decide, by decide⟩ 0) twoChunks = some t ∧
      t.request.stream = .closed ∧ t.received = [[2, 3], [4]] ∧
      (t.request.stream = .closed → t.request.ended = true ∧ t.request.enqueued = t.received) := by
  have hends : (Steps.run step (start ⟨1, by decide, by decide⟩ 0) twoChunks).map
      (fun t => (t.request.stream, t.received)) = some (.closed, [[2, 3], [4]]) := by decide
  obtain ⟨t, hrun, ht⟩ := Option.map_eq_some_iff.1 hends
  obtain ⟨hclosed, hreceived⟩ := Prod.mk.inj ht
  exact ⟨t, hrun, hclosed, hreceived, (stream_ordered_and_fed _ 0 twoChunks t hrun (.inr hclosed)).2.1⟩

end BridgeTrace
end YuriRtc
