import YuriRtc.CarriedSocket
/-!
# SocketRelease — a carried socket the page has released, and the node's entry for it

The node forgets a stream before it reports the close, so a page that is told of the end finds no entry left.  A page
that ends the socket by itself has to have sent its WsClose; the failures that do not send one leave the entry behind,
unless the node has forgotten the stream by then.
-/
namespace YuriRtc

open Steps (run run_cons)

open Rings (Ring)

namespace WriteQueue

def hasClose (q : WriteQueue) : Bool := q.items.any QueuedWrite.isClose

theorem enqueueWrite_message {q q' : WriteQueue} {m : WebSocketMessage} (h : q.enqueueWrite (.message m) = some q') :
    q'.writeClosing = q.writeClosing ∧ (q.hasClose = true → q'.hasClose = true) := by
  unfold enqueueWrite at h
  split at h
  · rename_i hclosing
    dsimp only at h
    split at h <;> cases h
    refine ⟨hclosing.symm, fun hc => ?_⟩
    have hpush := Ring.toList_push (Option.some_get (q.push_isSome hclosing (.message m))).symm
    unfold hasClose items at hc ⊢
    simp_all
  · cases h
    exact ⟨rfl, id⟩

theorem enqueueWrite_close (q : WriteQueue) (c : WebSocketClose) : ∃ q', q.enqueueWrite (.close c) = some q' ∧
    (q'.hasClose = true ∨ q.writeClosing = true ∧ q' = q) ∧ (q.hasClose = true → q'.hasClose = true) := by
  unfold enqueueWrite
  split
  · rename_i hclosing
    have hpush := Ring.toList_push (Option.some_get (q.push_isSome hclosing (.close c))).symm
    have hhas : hasClose ⟨(q.writeRing.push (.close c)).get (q.push_isSome hclosing _), q.writeBytes, true,
        fun h => by cases h⟩ = true := by
      unfold hasClose items
      rw [hpush, List.any_append]
      simp [QueuedWrite.isClose]
    exact ⟨_, rfl, .inl hhas, fun _ => hhas⟩
  · rename_i hclosing
    exact ⟨q, rfl, .inr ⟨by simpa using hclosing, rfl⟩, id⟩

theorem nextWrite_items {q q' : WriteQueue} {item : QueuedWrite} (h : q.nextWrite = some (item, q')) :
    q.items = item :: q'.items ∧ q'.writeClosing = q.writeClosing := by
  unfold nextWrite at h
  split at h
  · cases h
  rename_i x hfront
  cases h
  rw [Ring.front?_eq_head?] at hfront
  unfold items
  obtain ⟨rest, hrest⟩ := List.head?_eq_some_iff.1 hfront
  grind [Ring.toList_popFront]

end WriteQueue

namespace CarriedSocket

variable {s t : CarriedSocket} {st : WebSocketStream} {frame : SocketUp} {rest : List SocketUp}

def Forgotten (s : CarriedSocket) : Prop := s.held = false ∧ .wsOpen ∉ s.toNode

instance (s : CarriedSocket) : Decidable (Forgotten s) := inferInstanceAs (Decidable (_ ∧ _))

def isWsClose : SocketUp → Bool
  | .wsClose _ => true
  | _ => false

def CloseAsked (s : CarriedSocket) : Prop :=
  s.toNode.any isWsClose = true ∨ ∃ st, s.stream = some st ∧ st.queue.hasClose = true

def Processed (s : CarriedSocket) : Prop :=
  s.toNode = [] ∧ s.toPage = [] ∧ ∀ st ∈ s.stream, st.queue.items = []

def isFinal : SocketDown → Bool
  | .wsClose _ => true
  | .resErr _ => true
  | _ => false

/-- **A socket the page ends by itself is announced**: when `#fail` comes to accept the close, or `close()` cannot send
its frame, a WsClose has been sent before or the node has forgotten the socket. -/
def Announced (s : CarriedSocket) : SocketEvent → Prop
  | .returns _ => s.page.stack.head? = some .acceptClose →
      s.page.readyState = .closing ∨ s.page.readyState = .closed ∨ Forgotten s
  | .close code reason throws => s.page.readyState = .connecting ∨ s.page.readyState = .isOpen →
      throws = true ∨ encodeWebSocketClose code reason = none → Forgotten s
  | _ => True

instance (s : CarriedSocket) (e : SocketEvent) : Decidable (Announced s e) := by
  cases e <;> unfold Announced <;> infer_instance

/-- The node holds one stream at most, forgets it before the end is reported, and a queue that is closing holds the
close. -/
structure Kept (s : CarriedSocket) : Prop where
  openFirst : .wsOpen ∉ s.toNode.tail
  begun : s.stream.isSome = true → .wsOpen ∉ s.toNode
  unheld : s.stream = none → s.held = false
  once : ∀ st ∈ s.stream, st.closeOnce ≠ .unused → s.held = false
  queued : ∀ st ∈ s.stream, st.queue.writeClosing = true → s.held = false ∨ st.queue.hasClose = true
  told : ∀ frame ∈ s.toPage, isFinal frame = true → Forgotten s

structure Tracked (s : CarriedSocket) : Prop extends Kept s where
  ended : s.page.readyState = .closing ∨ s.page.readyState = .closed → Forgotten s ∨ CloseAsked s

theorem Tracked.opening : Tracked opening where
  openFirst := by decide
  begun := by decide
  unheld := fun _ => rfl
  once := fun st h => by cases h
  queued := fun st h => by cases h
  told := fun frame h => by cases h
  ended := fun h => by rcases h with h | h <;> cases h

/-! ### The node's goroutines -/

/-- What a step of the dialer, the writer, the pump or the closer does: a close in the queue stays there until the
stream is forgotten, and the end is reported only after that. -/
structure Serves (s : CarriedSocket) (st : WebSocketStream) (t : CarriedSocket) : Prop where
  page : t.page = s.page
  toNode : t.toNode = s.toNode
  held : t.held = true → s.held = true
  stream : ∃ st', t.stream = some st' ∧ st'.queue.writeClosing = st.queue.writeClosing ∧
    (st.queue.hasClose = true → t.held = false ∨ st'.queue.hasClose = true) ∧
    (st'.closeOnce ≠ .unused → t.held = false)
  told : ∀ frame ∈ t.toPage, frame ∈ s.toPage ∨ isFinal frame = false ∨ s.held = false

theorem Serves.forgotten (hs : Serves s st t) (h : Forgotten s) :
    Forgotten t :=
  ⟨Bool.eq_false_iff.2 (fun ht => by rw [Forgotten, hs.held ht] at h; cases h.1), hs.toNode ▸ h.2⟩

theorem Kept.serves (h : Kept s) (hst : s.stream = some st) (hs : Serves s st t) : Kept t := by
  obtain ⟨st', hst', hclosing, hclose, honce⟩ := hs.stream
  have hopen : .wsOpen ∉ s.toNode := h.begun (by rw [hst]; rfl)
  refine ⟨hs.toNode ▸ h.openFirst, fun _ => hs.toNode ▸ hopen, fun hn => ?_, ?_, ?_, ?_⟩
  · rw [hst'] at hn
    cases hn
  · simpa [hst'] using honce
  · intro x hx hc
    rw [hst'] at hx
    cases hx
    rcases h.queued st (by rw [hst]; rfl) (hclosing ▸ hc) with hheld | hhas
    · exact .inl (hs.forgotten ⟨hheld, hopen⟩).1
    · exact hclose hhas
  · intro frame hframe hfinal
    rcases hs.told frame hframe with hold | hnot | hheld
    · exact hs.forgotten (h.told frame hold hfinal)
    · simp_all
    · exact hs.forgotten ⟨hheld, hopen⟩

theorem Tracked.serves (h : Tracked s) (hst : s.stream = some st) (hs : Serves s st t) : Tracked t := by
  refine ⟨h.toKept.serves hst hs, fun hp => ?_⟩
  obtain ⟨st', hst', -, hclose, -⟩ := hs.stream
  have hopen : .wsOpen ∉ s.toNode := h.begun (by rw [hst]; rfl)
  rw [hs.page] at hp
  rcases h.ended hp with hf | hup | ⟨x, hx, hhas⟩
  · exact .inl (hs.forgotten hf)
  · exact .inr (.inl (hs.toNode ▸ hup))
  rw [hst] at hx
  cases hx
  rcases hclose hhas with hheld | hhas'
  · exact .inl ⟨hheld, hs.toNode ▸ hopen⟩
  · exact .inr (.inr ⟨st', hst', hhas'⟩)

theorem Serves.keeps {st' : WebSocketStream} (toPage : List SocketDown)
    (honce : st.closeOnce ≠ .unused → s.held = false) (hqueue : st'.queue.writeClosing = st.queue.writeClosing)
    (hclose : st.queue.hasClose = true → st'.queue.hasClose = true) (hsame : st'.closeOnce = st.closeOnce)
    (htold : ∀ frame ∈ toPage, frame ∈ s.toPage ∨ isFinal frame = false) :
    Serves s st { s with stream := some st', toPage := toPage } where
  page := rfl
  toNode := rfl
  held := id
  stream := ⟨st', rfl, hqueue, fun h => .inr (hclose h), fun h => honce (hsame ▸ h)⟩
  told := fun frame h => (htold frame h).imp id .inl

theorem Serves.runOnce {st' : WebSocketStream} (report : SocketReport) (cancel : Bool)
    (honce : st.closeOnce ≠ .unused → s.held = false) (hqueue : st'.queue.writeClosing = st.queue.writeClosing)
    (hsame : st'.closeOnce = st.closeOnce) : Serves s st (s.runOnce st' report cancel) := by
  unfold CarriedSocket.runOnce
  split
  · exact ⟨rfl, rfl, nofun, ⟨_, rfl, hqueue, fun _ => .inl rfl, fun _ => rfl⟩, fun _ h => .inl h⟩
  rename_i hne
  have hheld : s.held = false := honce (by rw [← hsame]; exact fun hu => hne hu)
  exact ⟨rfl, rfl, id, ⟨st', rfl, hqueue, fun _ => .inl hheld, fun _ => hheld⟩, fun _ h => .inl h⟩

theorem stepStream_serves {e : SocketEvent}
    (honce : st.closeOnce ≠ .unused → s.held = false) (h : s.stepStream st e = some t) : Serves s st t := by
  have hkept : ∀ frame ∈ s.toPage, frame ∈ s.toPage ∨ isFinal frame = false := fun _ hf => .inl hf
  have hsent : ∀ {frame : SocketDown}, isFinal frame = false →
      ∀ f ∈ s.toPage ++ [frame], f ∈ s.toPage ∨ isFinal f = false := by grind
  cases e <;> simp only [stepStream] at h
  case dialEnds outcome =>
    split at h <;> cases h
    · exact Serves.runOnce _ _ honce rfl rfl
    · exact Serves.keeps s.toPage honce rfl id rfl hkept
  case reportOpened sendOk =>
    split at h
    · split at h <;> cases h
      · exact Serves.keeps _ honce rfl id rfl (hsent rfl)
      · exact Serves.runOnce _ _ honce rfl rfl
    · cases h
  case nextWrite =>
    split at h
    · rename_i m queue hw hnext
      obtain ⟨hitems, hclosing⟩ := WriteQueue.nextWrite_items hnext
      cases h
      refine Serves.keeps s.toPage honce hclosing (fun hc => ?_) rfl hkept
      simp_all [QueuedWrite.isClose, WriteQueue.hasClose]
    · rename_i c queue hw hnext
      cases h
      exact Serves.runOnce _ _ honce (WriteQueue.nextWrite_items hnext).2 rfl
    · split at h <;> cases h
      exact Serves.keeps s.toPage honce rfl id rfl hkept
    · cases h
  case writeEnds ok =>
    split at h
    · split at h <;> cases h
      · exact Serves.keeps s.toPage honce rfl id rfl hkept
      · exact Serves.runOnce _ _ honce rfl rfl
    · cases h
  case takeCredit =>
    split at h
    · cases h
      exact Serves.keeps s.toPage honce rfl id rfl hkept
    · split at h <;> cases h
      exact Serves.runOnce _ _ honce rfl rfl
    · cases h
  case upstreamRead read =>
    split at h
    · split at h <;> cases h
      · exact Serves.runOnce _ _ honce rfl rfl
      · exact Serves.keeps s.toPage honce rfl id rfl hkept
    · cases h
      exact Serves.runOnce _ _ honce rfl rfl
    · cases h
      exact Serves.runOnce _ _ honce rfl rfl
    · cases h
  case sendData sendOk =>
    split at h
    · split at h <;> cases h
      · exact Serves.keeps _ honce rfl id rfl (hsent rfl)
      · exact Serves.runOnce _ _ honce rfl rfl
    · cases h
  case reportClose sendOk =>
    split at h
    · rename_i report hrunning
      cases h
      have hheld : s.held = false := honce (by rw [hrunning]; simp)
      exact ⟨rfl, rfl, id, ⟨_, rfl, rfl, fun hc => .inr hc, fun _ => hheld⟩, fun _ _ => .inr (.inr hheld)⟩
    · cases h
  all_goals cases h

/-! ### The page -/

structure Pages (s t : CarriedSocket) : Prop where
  stream : t.stream = s.stream
  held : t.held = s.held
  sent : ∃ frames, t.toNode = s.toNode ++ frames ∧ .wsOpen ∉ frames
  taken : ∀ frame ∈ t.toPage, frame ∈ s.toPage

theorem Pages.forgotten (h : Pages s t) (hf : Forgotten s) : Forgotten t := by
  obtain ⟨frames, hsent, hnone⟩ := h.sent
  refine ⟨h.held.trans hf.1, ?_⟩
  rw [hsent, List.mem_append]
  rintro (hm | hm)
  · exact hf.2 hm
  · exact hnone hm

theorem Pages.closeAsked (h : Pages s t) (hc : CloseAsked s) : CloseAsked t := by
  obtain ⟨frames, hsent, -⟩ := h.sent
  rcases hc with hup | ⟨st, hst, hhas⟩
  · left
    simp_all
  · exact .inr ⟨st, h.stream.trans hst, hhas⟩

theorem Tracked.pages (h : Tracked s) (hp : Pages s t)
    (hended : t.page.readyState = .closing ∨ t.page.readyState = .closed →
      (s.page.readyState = .closing ∨ s.page.readyState = .closed) ∨ Forgotten s ∨ CloseAsked t) : Tracked t := by
  obtain ⟨frames, hsent, hnone⟩ := hp.sent
  have hold : .wsOpen ∉ s.toNode → .wsOpen ∉ t.toNode := by simp_all
  refine ⟨⟨?_, ?_, ?_, ?_, ?_, ?_⟩, ?_⟩
  · rw [hsent]
    cases hnode : s.toNode with
    | nil => exact fun hm => hnone (List.mem_of_mem_tail hm)
    | cons frame rest =>
      have hfirst := h.openFirst
      simp_all
  · intro hs
    rw [hp.stream] at hs
    exact hold (h.begun hs)
  · intro hs
    rw [hp.stream] at hs
    exact hp.held.trans (h.unheld hs)
  · intro st hst hon
    rw [hp.stream] at hst
    exact hp.held.trans (h.once st hst hon)
  · intro st hst hc
    rw [hp.stream] at hst
    rw [hp.held]
    exact h.queued st hst hc
  · intro frame hframe hfinal
    exact hp.forgotten (h.told frame (hp.taken frame hframe) hfinal)
  intro ht
  rcases hended ht with hs | hf | hc
  · exact (h.ended hs).imp hp.forgotten hp.closeAsked
  · exact .inl (hp.forgotten hf)
  · exact .inr hc

theorem Pages.refl (s : CarriedSocket) : Pages s s :=
  ⟨rfl, rfl, ⟨[], (List.append_nil _).symm, List.not_mem_nil⟩, fun _ h => h⟩

theorem Pages.trans {u : CarriedSocket} (h : Pages s t) (h' : Pages t u) : Pages s u := by
  obtain ⟨frames, hsent, hnone⟩ := h.sent
  obtain ⟨frames', hsent', hnone'⟩ := h'.sent
  refine ⟨h'.stream.trans h.stream, h'.held.trans h.held, ⟨frames ++ frames', ?_, ?_⟩,
    fun f hf => h.taken f (h'.taken f hf)⟩
  · grind
  · simp_all

variable (s)

theorem Pages.ofPage (page : SocketPage) : Pages s { s with page := page } :=
  ⟨rfl, rfl, ⟨[], (List.append_nil _).symm, List.not_mem_nil⟩, fun _ h => h⟩

theorem Pages.ofSend (page : SocketPage) (h : frame ≠ .wsOpen) :
    Pages s { s with page := page, toNode := s.toNode ++ [frame] } :=
  ⟨rfl, rfl, ⟨[frame], rfl, by simpa using h.symm⟩, fun _ h => h⟩

theorem fail_pages : Pages s s.fail ∧ s.fail.page.readyState = s.page.readyState := by
  unfold fail
  split
  · exact ⟨Pages.refl s, rfl⟩
  · exact ⟨Pages.ofPage s _, rfl⟩

theorem acceptClose_pages : Pages s s.acceptClose := by
  unfold acceptClose
  split
  · exact Pages.refl s
  · exact Pages.ofPage s _

theorem transmit_pages (m : WebSocketMessage) (throws : Bool) :
    Pages s (s.transmit m throws) ∧ (s.transmit m throws).page.readyState = s.page.readyState := by
  unfold transmit
  split
  · exact fail_pages s
  split
  · exact fail_pages s
  · exact ⟨Pages.ofSend s s.page (by simp), rfl⟩

theorem replenish_pages (throws : Bool) :
    Pages s (s.replenishSocketCredit throws) ∧
      (s.replenishSocketCredit throws).page.readyState = s.page.readyState := by
  unfold replenishSocketCredit
  split
  · exact ⟨Pages.refl s, rfl⟩
  split
  · exact ⟨Pages.ofPage s _, rfl⟩
  split
  · exact ⟨Pages.ofPage s _, rfl⟩
  · exact ⟨Pages.ofSend s _ (by simp), rfl⟩

theorem sendClose_cases (code : Nat) (reason : Bytes) (throws : Bool) :
    s.sendClose code reason throws = s ∨
    (∃ close, s.sendClose code reason throws =
      { s with page.readyState := .closing, toNode := s.toNode ++ [.wsClose close] }) ∨
    ((s.page.readyState = .connecting ∨ s.page.readyState = .isOpen) ∧
      (throws = true ∨ encodeWebSocketClose code reason = none) ∧
      s.sendClose code reason throws = { s with page.readyState := .closing }.acceptClose) := by
  unfold sendClose
  split
  · exact .inl rfl
  · exact .inl rfl
  all_goals
    rename_i hstate
    rcases he : encodeWebSocketClose code reason with _ | close
    · exact .inr (.inr ⟨by simp [hstate], .inr rfl, rfl⟩)
    · grind

variable {s}

theorem sendClose_tracked (h : Tracked s) (code : Nat) (reason : Bytes) (throws : Bool)
    (hok : Announced s (.close code reason throws)) : Tracked (s.sendClose code reason throws) := by
  rcases sendClose_cases s code reason throws with heq | ⟨close, heq⟩ | ⟨hstate, hfailed, heq⟩
  · rw [heq]
    exact h
  · rw [heq]
    refine h.pages (Pages.ofSend s _ (by simp)) (fun _ => .inr (.inr (.inl ?_)))
    simp [isWsClose]
  · rw [heq]
    exact h.pages ((Pages.ofPage s _).trans (acceptClose_pages _)) (fun _ => .inr (.inl (hok hstate hfailed)))

theorem Kept.drop (h : Kept s) (hnode : s.toNode = frame :: rest) : Kept { s with toNode := rest } := by
  have hfirst := h.openFirst
  rw [hnode, List.tail_cons] at hfirst
  refine ⟨fun hm => hfirst (List.mem_of_mem_tail hm), fun _ => hfirst, h.unheld, h.once, h.queued, ?_⟩
  exact fun f hf hfinal => ⟨(h.told f hf hfinal).1, hfirst⟩

theorem Tracked.drop (h : Tracked s)
    (hnode : s.toNode = frame :: rest) (hframe : isWsClose frame = false) : Tracked { s with toNode := rest } := by
  refine ⟨h.toKept.drop hnode, fun hp => ?_⟩
  have hfirst := h.openFirst
  rw [hnode, List.tail_cons] at hfirst
  rcases h.ended hp with hf | hup | hqueued
  · exact .inl ⟨hf.1, hfirst⟩
  · rw [hnode, List.any_cons, hframe, Bool.false_or] at hup
    exact .inr (.inl hup)
  · exact .inr (.inr hqueued)

theorem onMessage_open (h : Tracked s) (hnode : s.toNode = .wsOpen :: rest)
    (verdict : OpenVerdict) : Tracked ({ s with toNode := rest }.onMessage .wsOpen verdict) := by
  have hopen : SocketUp.wsOpen ∈ s.toNode := by simp_all
  have hnone : s.stream = none := by
    cases hst : s.stream with
    | none => rfl
    | some st => exact absurd hopen (h.begun (by rw [hst]; rfl))
  have hdrop := h.drop hnode rfl
  simp only [onMessage, hnone]
  have hfirst := h.openFirst
  rw [hnode, List.tail_cons] at hfirst
  split
  · refine ⟨⟨hdrop.openFirst, fun _ => hfirst, nofun, ?_, ?_, ?_⟩, fun hp => ?_⟩
    · rintro st ⟨⟩ hon
      exact absurd rfl hon
    · rintro st ⟨⟩ hc
      cases hc
    · exact fun f hf hfinal => absurd hopen (h.told f hf hfinal).2
    rcases h.ended hp with hf | hup | ⟨st, hst, -⟩
    · exact absurd hopen hf.2
    · rw [hnode, List.any_cons] at hup
      exact .inr (.inl (by simpa [isWsClose] using hup))
    · grind
  · have hforgotten : s.held = false ∧ SocketUp.wsOpen ∉ rest := ⟨h.unheld hnone, hfirst⟩
    exact ⟨⟨hdrop.openFirst, fun _ => hfirst, fun _ => h.unheld hnone, (fun st hst => by cases hst),
      (fun st hst => by cases hst), fun _ _ _ => hforgotten⟩, fun _ => .inl hforgotten⟩
  · rw [← hnone]
    exact hdrop

theorem onMessage_close (h : Tracked s) {close : WebSocketClose}
    (hnode : s.toNode = .wsClose close :: rest) (verdict : OpenVerdict) :
    Tracked ({ s with toNode := rest }.onMessage (.wsClose close) verdict) := by
  have hkept := h.toKept.drop hnode
  have hfirst := h.openFirst
  rw [hnode, List.tail_cons] at hfirst
  simp only [onMessage]
  split
  · rename_i st hheld hst
    have hunused : st.closeOnce = .unused := by
      by_contra hne
      simp_all [h.once]
    split
    · obtain ⟨queue, henq, hcase, hmono⟩ := WriteQueue.enqueueWrite_close st.queue close
      have hhas : queue.hasClose = true := by
        rcases hcase with hhas | ⟨hclosing, rfl⟩
        · exact hhas
        rcases h.queued st hst hclosing with hnot | hhas
        · simp_all
        · exact hhas
      rw [henq]
      refine ⟨⟨hkept.openFirst, fun _ => hfirst, nofun, ?_, ?_, hkept.told⟩, fun _ => .inr (.inr ?_)⟩
      · simp_all
      · simp_all
      · exact ⟨_, rfl, hhas⟩
    · have hserves : Serves { s with toNode := rest } st
          ({ s with toNode := rest }.closeWebSocket st close.code close.reason) :=
        Serves.runOnce _ _ (fun hne => absurd hunused hne) rfl rfl
      refine ⟨hkept.serves hst hserves, fun _ => .inl ⟨?_, ?_⟩⟩
      · simp only [closeWebSocket, runOnce, hunused]
      · rw [hserves.toNode]
        exact hfirst
  · rename_i hnot
    refine ⟨hkept, fun _ => .inl ⟨?_, hfirst⟩⟩
    by_contra hheld
    rw [Bool.not_eq_false] at hheld
    cases hst : s.stream <;> simp_all [h.unheld]

theorem onMessage_tracked (h : Tracked s) (hnode : s.toNode = frame :: rest) (verdict : OpenVerdict) :
    Tracked ({ s with toNode := rest }.onMessage frame verdict) := by
  cases frame with
  | wsOpen => exact onMessage_open h hnode verdict
  | wsClose close => exact onMessage_close h hnode verdict
  | wsData m =>
    have hdrop := h.drop hnode rfl
    simp only [onMessage]
    split
    · rename_i st hheld hst
      have honce := hdrop.once st hst
      split
      · split
        · rename_i queue henq
          obtain ⟨hclosing, hmono⟩ := WriteQueue.enqueueWrite_message henq
          exact hdrop.serves hst (Serves.keeps s.toPage honce hclosing hmono rfl (fun _ hf => .inl hf))
        · exact hdrop.serves hst (Serves.runOnce _ _ honce rfl rfl)
      · exact hdrop
    · exact hdrop
  | credit n =>
    have hdrop := h.drop hnode rfl
    simp only [onMessage]
    split
    · rename_i st hheld hst
      exact hdrop.serves hst (Serves.keeps s.toPage (hdrop.once st hst) rfl id rfl (fun _ hf => .inl hf))
    · exact hdrop

theorem pageReceives_tracked (h : Tracked s) {frame : SocketDown} {rest : List SocketDown}
    (hpage : s.toPage = frame :: rest) (decodes throws : Bool) :
    Tracked ({ s with toPage := rest }.onSocketFrame frame decodes throws) := by
  have htaken : Pages s { s with toPage := rest } :=
    ⟨rfl, rfl, ⟨[], (List.append_nil _).symm, List.not_mem_nil⟩,
      fun f hf => by rw [hpage]; exact List.mem_cons_of_mem _ hf⟩
  have hfail := fail_pages { s with toPage := rest }
  have hfailed : Tracked ({ s with toPage := rest } : CarriedSocket).fail :=
    h.pages (htaken.trans hfail.1) (fun hp => .inl (by rw [hfail.2] at hp; exact hp))
  cases frame with
  | wsOpened protocol =>
    cases decodes with
    | false => exact hfailed
    | true =>
      simp only [onSocketFrame]
      split
      · exact h.pages (htaken.trans (Pages.ofPage _ _)) (fun hp => by rcases hp with hp | hp <;> cases hp)
      · exact h.pages htaken .inl
  | wsData m =>
    cases decodes with
    | false => exact hfailed
    | true =>
      simp only [onSocketFrame]
      split
      · exact h.pages (htaken.trans (Pages.ofPage _ _)) .inl
      · have hrep := replenish_pages { s with toPage := rest } throws
        exact h.pages (htaken.trans hrep.1) (fun hp => .inl (by rw [hrep.2] at hp; exact hp))
  | wsClose close =>
    have hforgotten : Forgotten s := h.told _ (by rw [hpage]; exact List.mem_cons_self) rfl
    simp only [onSocketFrame]
    exact h.pages (htaken.trans (acceptClose_pages _)) (fun _ => .inr (.inl hforgotten))
  | resErr message =>
    simp only [onSocketFrame]
    exact hfailed

theorem Tracked.step {e : SocketEvent} (h : Tracked s) (hok : Announced s e)
    (hstep : CarriedSocket.step s e = some t) : Tracked t := by
  have hserves : ∀ st, s.stream = some st → s.stepStream st e = some t → Tracked t := fun st hst hs =>
    h.serves hst (stepStream_serves (h.once st hst) hs)
  cases e <;> simp only [CarriedSocket.step] at hstep
  case send m throws =>
    have htr := transmit_pages s m throws
    split at hstep <;> cases hstep
    · exact h.pages htr.1 (fun hp => .inl (by rw [htr.2] at hp; exact hp))
    · exact h
  case sendBlob data =>
    split at hstep <;> cases hstep
    · exact h.pages (Pages.ofPage s _) .inl
    · exact h
  case blobRead index throws =>
    split at hstep
    · rename_i data hstack hdata
      have hread : Tracked { s with page.blobs := s.page.blobs.eraseIdx index } := h.pages (Pages.ofPage s _) .inl
      have htr := transmit_pages { s with page.blobs := s.page.blobs.eraseIdx index } ⟨.binary, data⟩ throws
      split at hstep <;> cases hstep
      · exact hread.pages htr.1 (fun hp => .inl (by rw [htr.2] at hp; exact hp))
      · exact hread
    · cases hstep
  case close code reason throws =>
    cases hstep
    exact sendClose_tracked h code reason throws hok
  case returns throws =>
    split at hstep
    · rename_i rest hstack
      cases hstep
      have hstate := hok (by rw [hstack]; rfl)
      refine h.pages ((Pages.ofPage s _).trans (acceptClose_pages _)) (fun _ => ?_)
      grind
    · rename_i rest hstack
      cases hstep
      have hrep := replenish_pages { s with page.stack := rest } throws
      exact h.pages ((Pages.ofPage s _).trans hrep.1) (fun hp => .inl (by rw [hrep.2] at hp; exact hp))
    · cases hstep
  case pageReceives decodes throws =>
    split at hstep
    · rename_i frame rest hstack hpage
      split at hstep <;> cases hstep
      · exact pageReceives_tracked h hpage decodes throws
      · refine h.pages ⟨rfl, rfl, ⟨[], (List.append_nil _).symm, List.not_mem_nil⟩, fun f hf => ?_⟩ .inl
        simp_all
    · cases hstep
  case nodeReceives verdict =>
    split at hstep <;> cases hstep
    rename_i frame rest hnode
    exact onMessage_tracked h hnode verdict
  all_goals grind [CarriedSocket.step]

/-- **No orphaned sockets**: once the page has closed the socket and every frame has been processed, the node holds no
entry for it, in every run in which the page announces the ends it decides by itself. -/
theorem released_socket_forgotten (es : List SocketEvent) (s : CarriedSocket)
    (hok : Steps.Meets step Announced opening es) (h : run step opening es = some s)
    (hclosed : s.page.readyState = .closed) (hprocessed : Processed s) : s.held = false := by
  have htracked := Steps.run_inv_when step Announced Tracked (fun s e t hs hm hstep => hs.step hm hstep) es _ s
    Tracked.opening hok h
  rcases htracked.ended (.inr hclosed) with hf | hup | ⟨st, hst, hhas⟩
  · exact hf.1
  · rw [hprocessed.1] at hup
    cases hup
  unfold WriteQueue.hasClose at hhas
  rw [hprocessed.2.2 st hst] at hhas
  cases hhas

/-! ### Runs -/

def opensUp : List SocketEvent :=
  [.nodeReceives .accepted, .dialEnds (some ""), .reportOpened true, .pageReceives true false]

def closesCleanly : List SocketEvent :=
  opensUp ++ [.send ⟨.text, [104, 105]⟩ false, .close 1000 [] false, .nodeReceives .ignored, .nodeReceives .ignored,
    .nextWrite, .writeEnds true, .nextWrite, .reportClose true, .pageReceives true false]

def ends (s : CarriedSocket) : SocketReadyState × Option Nat × Bool × Bool :=
  (s.page.readyState, s.page.entry, s.toNode.isEmpty && s.toPage.isEmpty &&
    (s.stream.map (fun st => st.queue.items.isEmpty)).getD true, s.held)

theorem released_socket_forgotten_closesCleanly :
    ∃ s, run step opening closesCleanly = some s ∧ s.page.readyState = .closed ∧ s.held = false := by
  obtain ⟨s, hrun, hclosed, hnode, hpage, hstream⟩ : ∃ s, run step opening closesCleanly = some s ∧
      s.page.readyState = .closed ∧ s.toNode = [] ∧ s.toPage = [] ∧ s.stream.map (fun st => st.queue.items) = some [] :=
    Steps.exists_run (by decide +kernel)
  have hprocessed : Processed s := by
    refine ⟨hnode, hpage, fun st hst => ?_⟩
    rw [Option.mem_def.1 hst] at hstream
    exact Option.some.inj hstream
  exact ⟨s, hrun, hclosed,
    released_socket_forgotten closesCleanly s (by decide +kernel) hrun hclosed hprocessed⟩

def oversize : WebSocketMessage := ⟨.binary, List.replicate (maxWebSocketMessageBytes + 1) 0⟩

/-- The page has closed and released the socket and nothing is left to process, and the node still holds its entry:
after an oversize message, and after `close(999)`. -/
theorem released_socket_held :
    (run step opening (opensUp ++ [.send oversize false, .returns false])).map ends =
        some (.closed, none, true, true) ∧
      (run step opening (opensUp ++ [.close 999 [] false])).map ends = some (.closed, none, true, true) := by
  refine ⟨?_, by decide +kernel⟩
  have hopens : (run step opening opensUp).map (fun s => s.page.readyState) = some .isOpen := by decide +kernel
  have hfails : ((run step opening opensUp).bind fun s => step s.fail (.returns false)).map ends =
      some (.closed, none, true, true) := by
    decide +kernel
  obtain ⟨s, hrun, hopen⟩ := Option.map_eq_some_iff.1 hopens
  rw [hrun, Option.bind_some] at hfails
  obtain ⟨t, hstep, hends⟩ := Option.map_eq_some_iff.1 hfails
  -- the size is known without counting the bytes
  have hsend : step s (.send oversize false) = some s.fail := by
    have hlong : maxWebSocketMessageBytes < oversize.data.length := by simp [oversize]
    simp only [step, hopen, if_true, transmit, hlong]
  rw [Steps.run_append, hrun, Option.bind_some, run_cons step hsend, run_cons step hstep]
  exact congrArg some hends

end CarriedSocket
end YuriRtc
