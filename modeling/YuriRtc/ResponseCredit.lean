import YuriRtc.ResponseFlow
/-!
# ResponseCredit — no credit of a response is lost, duplicated or overspent

Every credit is in one place.  Seen from the page, what the node holds, the credit on its way to the node and the body frames
on their way back never exceed the page's own count.  Seen from the worker, the page's count, the credit on its way to the
page and the chunks on their way back never exceed `creditBalance`, which stays within the protocol's cap.  Both are
inequalities: a frame that fails to send, or a message that finds its request gone, takes its credit out of the system.
-/
namespace YuriRtc

open ResponseCreditWindow (available_grant available_take newResponseCreditWindow)

def swCredit : SwToPage → Nat
  | .credit n => n
  | .cancel => 0

def controlCredit : ResponseControl → Nat
  | .req initialCredits => initialCredits
  | .credit n => n
  | .cancel => 0

def frameCredit : ResponseFrame → Nat
  | .resBody _ _ => 1
  | .resEnd | .resErr => 0

def chunkCredit : PageToSw → Nat
  | .body _ _ _ => 1
  | .finish | .err => 0

def BridgeEvent.isBody : BridgeEvent → Bool
  | .body _ _ _ => true
  | _ => false

namespace BridgeRequest

/-- **The bridge's balance covers `held` credits below it and those in its outbox.** -/
structure Ledger (held : Nat) (b : BridgeRequest) : Prop where
  covered : held + (b.outbox.map swCredit).sum ≤ b.creditBalance
  positive : ∀ n, SwToPage.credit n ∈ b.outbox → 0 < n
  balance : b.creditBalance ≤ maxResponseCredits
  target : b.targetCredit ≤ maxResponseCredits
  initial : b.initialCredit ≤ maxResponseCredits
  stream : b.stream ≠ .errored .creditGrant

section
variable {held : Nat} {b : BridgeRequest}

theorem Ledger.mono {less : Nat} (h : Ledger held b) (hle : less ≤ held) : Ledger less b :=
  { h with covered := le_trans (Nat.add_le_add_right hle _) h.covered }

theorem Ledger.delivered {message : SwToPage} {outbox : List SwToPage} (h : Ledger held b)
    (hb : b.outbox = message :: outbox) : Ledger (held + swCredit message) { b with outbox := outbox } := by
  refine { h with covered := ?_, positive := fun n hn => h.positive n ?_ }
  · have hc := h.covered
    grind
  · simp_all

section

variable (h : Ledger held b)
include h

theorem Ledger.postForRequest : Ledger held ((b.postForRequest .cancel).getD b) := by
  unfold BridgeRequest.postForRequest
  split
  · refine { h with covered := ?_, positive := fun n hn => h.positive n ?_ }
    · show held + ((b.outbox ++ [SwToPage.cancel]).map swCredit).sum ≤ b.creditBalance
      simpa [swCredit] using h.covered
    · simpa using hn
  · exact h

theorem Ledger.onError (e : BridgeError) (he : e ≠ .creditGrant) : Ledger held (b.onError e) := by
  refine { h with stream := ?_ }
  unfold BridgeRequest.onError
  show (if b.stream = .readable then StreamState.errored e else b.stream) ≠ .errored .creditGrant
  split
  · simp_all
  · exact h.stream

theorem Ledger.refuse (e : BridgeError) (he : e ≠ .creditGrant) : Ledger held (b.refuse e) := by
  have hdropped : Ledger held { b with pending := false, queued := [] } :=
    { h with }
  exact hdropped.postForRequest.onError e he

theorem Ledger.refillCredit (force flushGrowth : Bool) :
    Ledger held (b.refillCredit force flushGrowth) := by
  obtain ⟨hr, -⟩ | ⟨-, -, n, hn, hup, hr⟩ | ⟨-, -, hr⟩ := b.refillCredit_cases force flushGrowth <;> rw [hr]
  · exact h
  · refine ⟨?_, fun m hm => ?_, ?_, h.target, h.initial, h.stream⟩
    · have hc := h.covered
      show held + ((b.outbox ++ [SwToPage.credit n]).map swCredit).sum ≤ b.creditBalance + n
      rw [List.map_append, List.sum_append, List.map_singleton, List.sum_singleton, swCredit]
      omega
    · obtain hm | hm := List.mem_append.1 hm
      · exact h.positive m hm
      · simp_all
    · have ht := h.target
      grind
  · have hdropped : Ledger held { b with pending := false } :=
      { h with }
    exact hdropped.onError _ nofun

theorem Ledger.recordAndRefill (now later : Int) : Ledger held (b.recordAndRefill now later) := by
  refine Ledger.refillCredit ?_ _ _
  obtain ⟨consumed, peak, started, hr | ⟨-, hr⟩ | ⟨-, -, hr⟩⟩ := b.recordConsumption_cases now later <;> rw [hr]
  · exact { h with }
  · exact { h with target := Nat.min_le_left _ _ }
  · refine { h with target := Nat.max_le.2 ⟨h.initial, ?_⟩ }
    exact le_trans (Nat.sub_le _ _) h.target

theorem Ledger.closeIfDrained : Ledger held b.closeIfDrained := by
  obtain hr | ⟨-, -, hr⟩ := b.closeIfDrained_cases <;> rw [hr]
  · exact h
  refine { h with stream := ?_ }
  show (if b.stream = .readable then StreamState.closed else b.stream) ≠ .errored .creditGrant
  split
  · nofun
  · exact h.stream

theorem Ledger.enqueue (chunk : Bytes) (caller : BridgeCall) :
    Ledger held (b.enqueue chunk caller) := by
  unfold BridgeRequest.enqueue
  split
  · exact { h with }
  · exact h

end

theorem Ledger.onChunk (h : Ledger (held + 1) b) (chunk : Bytes) : Ledger held (b.onChunk chunk) := by
  have hc := h.covered
  have hless := h.mono (Nat.le_succ held)
  have hspent : Ledger held { b with creditBalance := b.creditBalance - 1 } := by
    refine { h with covered := ?_, balance := le_trans (Nat.sub_le _ _) h.balance }
    grind
  unfold BridgeRequest.onChunk
  split
  · exact hless.refuse .chunkTooLarge nofun
  split
  · -- the branch for a chunk without credit
    rename_i hzero
    exact absurd hzero (by omega)
  split
  · have hwoken : Ledger held { b with creditBalance := b.creditBalance - 1, waitingForChunk := false } :=
      { hspent with }
    exact hwoken.enqueue chunk .onChunk
  split
  · exact hspent.refuse .creditWindow nofun
  · exact { hspent with }

theorem Ledger.onPull (h : Ledger held b) : Ledger held b.onPull := by
  unfold BridgeRequest.onPull
  split
  · rename_i chunk queued hq
    have hshift : Ledger held { b with queued := queued } :=
      { h with }
    exact hshift.enqueue chunk .onPull
  split
  · exact h.closeIfDrained
  have hwait : Ledger held { b with waitingForChunk := true } :=
    { h with }
  exact hwait.refillCredit _ _

theorem Ledger.resume (h : Ledger held b) (now later : Int) (call : BridgeCall) :
    Ledger held (b.resume now later call) := by
  cases call with
  | onChunk => exact h.recordAndRefill now later
  | onPull =>
    show Ledger held (if b.ended then b.closeIfDrained else (b.recordAndRefill now later).closeIfDrained)
    split
    · exact h.closeIfDrained
    · exact (h.recordAndRefill now later).closeIfDrained

theorem Ledger.cancelStream (h : Ledger held b) : Ledger held b.cancelStream := by
  have hgone : ∀ pending, Ledger held { b with queued := [], stream := .cancelled, pending := pending } := fun _ =>
    { h with stream := nofun }
  unfold BridgeRequest.cancelStream
  split
  · exact (hgone false).postForRequest
  · exact hgone b.pending

theorem Ledger.step {b' : BridgeRequest} {e : BridgeEvent} (h : Ledger held b) (hs : b.step e = some b')
    (he : e.isBody = false) : Ledger held b' := by
  cases e with simp only [BridgeRequest.step] at hs
  | body frame byteOffset byteLength => cases he
  | finish =>
    obtain ⟨-, ⟨-, rfl⟩ | ⟨-, rfl⟩⟩ := onPending_cases hs
    · have hended : Ledger held { b with pending := false, ended := true } :=
        { h with }
      exact hended.closeIfDrained
    · exact h
  | err =>
    obtain ⟨-, ⟨-, rfl⟩ | ⟨-, rfl⟩⟩ := onPending_cases hs
    · have hdropped : Ledger held { b with pending := false } :=
        { h with }
      exact hdropped.onError .remote nofun
    · exact h
  | down =>
    obtain ⟨-, ⟨-, rfl⟩ | ⟨-, rfl⟩⟩ := onPending_cases hs
    · have htold := h.postForRequest
      have hdetached : Ledger held
          { (b.postForRequest .cancel).getD b with pending := false, carrier := false } :=
        { htold with }
      exact hdetached.onError .transportDown nofun
    · exact h
  | pull =>
    split at hs <;> cases hs
    exact h.onPull
  | enqueueReturns now later =>
    split at hs <;> cases hs
    have hreturned : Ledger held { b with calls := ‹_› } :=
      { h with }
    exact hreturned.resume now later _
  | cancel =>
    split at hs <;> cases hs
    exact h.cancelStream
  | abort =>
    split at hs <;> cases hs
    unfold onAbort
    split
    · exact h.refuse .aborted nofun
    · exact h
  | portBroken =>
    split at hs <;> cases hs
    exact { h with }

theorem Ledger.step_body {b' : BridgeRequest} {frame : Bytes} {byteOffset byteLength : Int} (h : Ledger (held + 1) b)
    (hs : b.step (.body frame byteOffset byteLength) = some b') : Ledger held b' := by
  have hless := h.mono (Nat.le_succ held)
  simp only [BridgeRequest.step] at hs
  obtain ⟨-, ⟨-, rfl⟩ | ⟨-, rfl⟩⟩ := onPending_cases hs
  · unfold onBody
    split
    · have hdropped : Ledger held { b with pending := false } :=
        { hless with }
      exact hdropped.onError .invalidBounds nofun
    · exact h.onChunk _
  · exact hless

end

end BridgeRequest

namespace ResponseFlow

def controlOpens : ResponseControl → Nat
  | .req initialCredits => initialCredits
  | .credit _ | .cancel => 0

structure Conserved (initial : Nat) (s : ResponseFlow) : Prop where
  node : s.node.window.available + s.node.taken + (s.toNode.map controlCredit).sum + (s.toPage.map frameCredit).sum ≤
    s.page.credit
  bridge : s.bridge.Ledger (s.page.credit + (s.toWorker.map chunkCredit).sum)
  sent : s.node.sent + s.node.taken + s.node.window.available + (s.toNode.map controlOpens).sum ≤
    initial + s.node.granted
  page : s.page.failure = none

section
variable {initial : Nat} {s : ResponseFlow}

section

variable (h : s.Conserved initial)
include h

theorem Conserved.page_le : s.page.credit ≤ maxResponseCredits := by
  have hc := h.bridge.covered
  have hb := h.bridge.balance
  omega

theorem Conserved.pageSend_cancel (sendOk : Bool) :
    (s.pageSend sendOk .cancel).Conserved initial := by
  unfold pageSend
  split
  · refine ⟨?_, h.bridge, ?_, h.page⟩
    · simpa [controlCredit] using h.node
    · simpa [controlOpens] using h.sent
  · exact h

theorem Conserved.post {message : PageToSw} (hm : chunkCredit message = 0) :
    (s.post message).Conserved initial := by
  refine { h with bridge := ?_ }
  show s.bridge.Ledger (s.page.credit + ((s.toWorker ++ [message]).map chunkCredit).sum)
  simpa [hm] using h.bridge

theorem Conserved.finish : s.finish.Conserved initial := { h with }

theorem Conserved.sendFrame {frame : ResponseFrame} (hf : frameCredit frame = 0) :
    Conserved initial { s with toPage := s.toPage ++ [frame] } := by
  refine { h with node := ?_ }
  simpa [hf] using h.node

end

theorem Conserved.nodeReceive {control : ResponseControl} {toNode : List ResponseControl} (h : s.Conserved initial)
    (hs : s.toNode = control :: toNode) (accepted : Bool) :
    ({ s with toNode := toNode }.nodeReceive accepted control).Conserved initial := by
  have hnode := h.node
  have hsent := h.sent
  have hpage := h.page_le
  rw [hs, List.map_cons, List.sum_cons] at hnode hsent
  have hkept : Conserved initial { s with toNode := toNode } := by
    refine ⟨?_, h.bridge, ?_, h.page⟩
    · grind
    · grind
  cases control with
  | req n =>
    simp only [controlCredit, controlOpens] at hnode hsent
    unfold ResponseFlow.nodeReceive
    simp only
    split
    · have hnew : (newResponseCreditWindow n).available = 0 + n :=
        available_grant .empty n (show 0 + n ≤ _ by omega)
      refine ⟨?_, h.bridge, ?_, h.page⟩
      · grind
      · grind
    · exact hkept.sendFrame rfl
  | credit n =>
    simp only [controlCredit, controlOpens] at hnode hsent
    unfold ResponseFlow.nodeReceive
    simp only
    split
    · have hgrant := s.node.window.available_grant n (by omega)
      refine ⟨?_, h.bridge, ?_, h.page⟩
      · grind
      · grind
    · exact hkept
  | cancel => exact { hkept with }

theorem Conserved.onFrame {frame : ResponseFrame} {toPage : List ResponseFrame} (h : s.Conserved initial)
    (hs : s.toPage = frame :: toPage) (sendOk : Bool) :
    ({ s with toPage := toPage }.onFrame sendOk frame).Conserved initial := by
  have hnode := h.node
  rw [hs, List.map_cons, List.sum_cons] at hnode
  have hkept : Conserved initial { s with toPage := toPage } := by
    refine { h with node := ?_ }
    grind
  unfold ResponseFlow.onFrame
  split
  · cases frame with
    | resBody header payload =>
      simp only [frameCredit] at hnode
      simp only
      split
      · omega
      refine ⟨?_, ?_, h.sent, h.page⟩
      · show s.node.window.available + s.node.taken + (s.toNode.map controlCredit).sum +
          (toPage.map frameCredit).sum ≤ s.page.credit - 1
        omega
      refine h.bridge.mono ?_
      show s.page.credit - 1 + ((s.toWorker ++ [PageToSw.body (header ++ payload) header.length
        payload.length]).map chunkCredit).sum ≤ s.page.credit + (s.toWorker.map chunkCredit).sum
      rw [List.map_append, List.sum_append, List.map_singleton, List.sum_singleton, chunkCredit]
      omega
    | resEnd => exact (hkept.post rfl).finish
    | resErr => exact (hkept.post rfl).finish
  · exact hkept

theorem Conserved.onSwMessage {message : SwToPage} {outbox : List SwToPage} (h : s.Conserved initial)
    (hs : s.bridge.outbox = message :: outbox) (sendOk : Bool) :
    ({ s with bridge := { s.bridge with outbox := outbox } }.onSwMessage sendOk message).Conserved initial := by
  have hbelow := h.bridge.delivered hs
  have hkept : Conserved initial { s with bridge := { s.bridge with outbox := outbox } } :=
    { h with bridge := hbelow.mono (Nat.le_add_right _ _) }
  unfold ResponseFlow.onSwMessage
  split
  · cases message with
    | credit n =>
      have hpos : 0 < n := h.bridge.positive n (by rw [hs]; exact List.mem_cons_self)
      have hcovered := hbelow.covered
      have hbalance := hbelow.balance
      simp only [swCredit] at hcovered hbelow
      simp only
      split
      · grind
      have hup : s.page.credit + n + (s.toWorker.map chunkCredit).sum =
          s.page.credit + (s.toWorker.map chunkCredit).sum + n := by omega
      have hcredited : Conserved initial
          { s with bridge := { s.bridge with outbox := outbox }, page := { s.page with credit := s.page.credit + n } } :=
        ⟨le_trans h.node (Nat.le_add_right _ _), hup ▸ hbelow, h.sent, h.page⟩
      split
      · refine ⟨?_, hcredited.bridge, ?_, h.page⟩
        · have hnode := h.node
          show s.node.window.available + s.node.taken + ((s.toNode ++ [ResponseControl.credit n]).map controlCredit).sum +
            (s.toPage.map frameCredit).sum ≤ s.page.credit + n
          rw [List.map_append, List.sum_append, List.map_singleton, List.sum_singleton, controlCredit]
          omega
        · show s.node.sent + s.node.taken + s.node.window.available +
            ((s.toNode ++ [ResponseControl.credit n]).map controlOpens).sum ≤ initial + s.node.granted
          simpa [controlOpens] using h.sent
      · exact (hcredited.post rfl).finish
    | cancel => exact (hkept.pageSend_cancel sendOk).finish
  · exact hkept

variable {s' : ResponseFlow}

theorem Conserved.bridgeStep {e : BridgeEvent} (h : s.Conserved initial)
    (hs : s.bridgeStep e = some s') (he : e.isBody = false) : s'.Conserved initial := by
  obtain ⟨b, hb, rfl⟩ := Option.map_eq_some_iff.1 hs
  exact { h with bridge := h.bridge.step hb he }

theorem Conserved.workerReceives {message : PageToSw} {toWorker : List PageToSw}
    (h : s.Conserved initial) (hw : s.toWorker = message :: toWorker)
    (hs : { s with toWorker := toWorker }.bridgeStep (bridgeEvent message) = some s') : s'.Conserved initial := by
  have hbelow := h.bridge
  rw [hw, List.map_cons, List.sum_cons] at hbelow
  have hkept : Conserved initial { s with toWorker := toWorker } := by
    refine { h with bridge := hbelow.mono ?_ }
    simp
  cases message with
  | body frame byteOffset byteLength =>
    obtain ⟨b, hb, rfl⟩ := Option.map_eq_some_iff.1 hs
    refine { h with bridge := BridgeRequest.Ledger.step_body ?_ hb }
    grind [chunkCredit]
  | finish => exact hkept.bridgeStep hs rfl
  | err => exact hkept.bridgeStep hs rfl

theorem Conserved.dropCredit (h : s.Conserved initial) :
    Conserved initial { s with node := { s.node with taken := s.node.taken - 1 } } := by
  have hnode := h.node
  have hsent := h.sent
  refine ⟨?_, h.bridge, ?_, h.page⟩
  · grind
  · grind

theorem Conserved.step {e : FlowEvent} (h : s.Conserved initial) (hs : s.step e = some s') :
    s'.Conserved initial := by
  have hnode := h.node
  have hsent := h.sent
  cases e with simp only [ResponseFlow.step] at hs
  | take =>
    obtain ⟨w, hw, rfl⟩ := Option.map_eq_some_iff.1 hs
    have htake := available_take hw
    refine ⟨?_, h.bridge, ?_, h.page⟩
    · grind
    · grind
  | sendBody header payload sendOk =>
    split at hs
    · cases hs
    rename_i htaken
    split at hs <;> cases hs
    · refine ⟨?_, h.bridge, ?_, h.page⟩
      · show s.node.window.available + (s.node.taken - 1) + (s.toNode.map controlCredit).sum +
          ((s.toPage ++ [ResponseFrame.resBody header payload]).map frameCredit).sum ≤ s.page.credit
        rw [List.map_append, List.sum_append, List.map_singleton, List.sum_singleton, frameCredit]
        omega
      · grind
    · exact h.dropCredit
  | dropCredit =>
    split at hs <;> cases hs
    exact h.dropCredit
  | sendEnd =>
    split at hs <;> cases hs
    exact h.sendFrame rfl
  | sendError =>
    split at hs <;> cases hs
    exact h.sendFrame rfl
  | nodeReceives accepted =>
    split at hs <;> cases hs
    exact h.nodeReceive ‹_› accepted
  | pageReceivesFrame sendOk =>
    split at hs <;> cases hs
    exact h.onFrame ‹_› sendOk
  | pageReceivesMessage sendOk =>
    split at hs <;> cases hs
    exact h.onSwMessage ‹_› sendOk
  | laneLost =>
    split at hs <;> cases hs
    exact (h.post rfl).finish
  | workerReceives =>
    split at hs
    · cases hs
    · exact h.workerReceives ‹_› hs
  | pull => exact h.bridgeStep hs rfl
  | enqueueReturns now later => exact h.bridgeStep hs rfl
  | cancelStream => exact h.bridgeStep hs rfl
  | abort => exact h.bridgeStep hs rfl

end

theorem conserved_start (initial : InitialCredits) (now : Int) : (start initial now).Conserved initial.credits where
  node := by
    show 0 + 0 + ([ResponseControl.req initial.credits].map controlCredit).sum + 0 ≤ initial.credits
    simp [controlCredit]
  bridge := ⟨le_rfl, nofun, initial.le_max, initial.le_max, initial.le_max, nofun⟩
  sent := by
    show 0 + 0 + 0 + ([ResponseControl.req initial.credits].map controlOpens).sum ≤ initial.credits + 0
    simp [controlOpens]
  page := rfl

/-- **Response credit is conserved across node, page and service worker.**  In every run: the node has sent no more body
frames than the initial window and the credits granted to it; every grant it is about to make is whole; the page has
failed no request over credit; every chunk about to reach the bridge finds credit there, and the bridge never holds more
than the protocol's cap. -/
theorem response_credit_conserved (initial : InitialCredits) (now : Int) (es : List FlowEvent) (s : ResponseFlow)
    (hrun : Steps.run step (start initial now) es = some s) :
    s.node.sent ≤ initial.credits + s.node.granted ∧
    (∀ n toNode, s.toNode = .req n :: toNode → (newResponseCreditWindow n).available = n) ∧
    (∀ n toNode, s.toNode = .credit n :: toNode →
      (s.node.window.grant n).available = s.node.window.available + n) ∧
    s.page.failure = none ∧
    (∀ frame byteOffset byteLength toWorker, s.toWorker = .body frame byteOffset byteLength :: toWorker →
      0 < s.bridge.creditBalance) ∧
    s.bridge.stream ≠ .errored .creditGrant ∧
    s.bridge.creditBalance ≤ maxResponseCredits := by
  have h : s.Conserved initial.credits :=
    Steps.run_inv step _ (fun s e s' h hs => h.step hs) es _ s (conserved_start initial now) hrun
  refine ⟨?_, fun n toNode hn => ?_, fun n toNode hn => ?_, h.page,
    fun frame byteOffset byteLength toWorker hw => ?_, h.bridge.stream, h.bridge.balance⟩
  · have hsent := h.sent
    omega
  · have hnode := h.node
    have hpage := h.page_le
    rw [hn, List.map_cons, List.sum_cons, controlCredit] at hnode
    rw [newResponseCreditWindow, available_grant]
    · exact Nat.zero_add n
    · show 0 + n ≤ maxResponseCredits
      omega
  · have hnode := h.node
    have hpage := h.page_le
    rw [hn, List.map_cons, List.sum_cons, controlCredit] at hnode
    exact s.node.window.available_grant n (by omega)
  have hcovered := h.bridge.covered
  rw [hw, List.map_cons, List.sum_cons, chunkCredit] at hcovered
  omega

def twoFrames : List FlowEvent :=
  [.nodeReceives true, .take, .sendBody [0, 0, 0, 0, 0] [7] true, .pull, .pageReceivesFrame true, .workerReceives,
    .pull, .enqueueReturns 0 0, .pageReceivesMessage true, .nodeReceives true, .take, .sendBody [0, 0, 0, 0, 0] [8] true]

theorem response_credit_conserved_twoFrames :
    ∃ s, Steps.run step (start ⟨1, by decide, by decide⟩ 0) twoFrames = some s ∧ s.node.sent = 2 ∧ s.node.granted = 1 ∧
      s.node.sent ≤ 1 + s.node.granted := by
  have hends : (Steps.run step (start ⟨1, by decide, by decide⟩ 0) twoFrames).map
      (fun s => (s.node.sent, s.node.granted)) = some (2, 1) := by decide +kernel
  obtain ⟨s, hrun, hs⟩ := Option.map_eq_some_iff.1 hends
  obtain ⟨hsent, hgranted⟩ := Prod.mk.inj hs
  exact ⟨s, hrun, hsent, hgranted, (response_credit_conserved ⟨1, by decide, by decide⟩ 0 twoFrames s hrun).1⟩

end ResponseFlow
end YuriRtc
