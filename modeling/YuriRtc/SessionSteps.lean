import YuriRtc.PeerSession
/-!
# SessionSteps — what a step of the session can do

Each function of the session has one lemma here and the proofs about runs use only those.  A request's state only ever
makes the moves of `RequestState.Move`.  Every step either `Carries` the session on (nothing is admitted, nothing that was
removed comes back, no entry enters `pending`) or is the admission of one request (`step_carries_or_admits`).
-/
namespace YuriRtc

open Function (update update_self)

namespace RequestState

variable {st st' : RequestState} {payload : Bytes}

inductive Move (st : RequestState) : RequestState → Prop
  | starts : Move st { st with started := true }
  | enqueues (payload : Bytes) (now : Nat) (st' : RequestState) (h : st.enqueueRequestBody payload now = .ok st') :
    Move st st'
  | ends : Move st st.endRequestBody
  | stops : Move st st.stopRequestBody
  | cancels : Move st st.cancelContext
  | closes : Move st { st with body := st.body.close }
  | closesCurrent : Move st { st with body := (st.body.step .closeCurrent).getD st.body }
  | arms (deadline : Nat) : Move st { st with bodyDeadline := deadline }
  | timesOut : Move st { st with bodyTimedOut := true, bodyEnded := true }
  | consumes (e : BodyEvent) (he : PeerSession.isConsumerEvent e = true) (body : AsyncRequestBody)
    (h : st.body.step e = some body) : Move st { st with body := body }
  | chunkConsumed (next : Consumer) (h : st.body.consumer = .consumed next) :
    Move st { st.requestBodyChunkConsumed.1 with
      body := { st.requestBodyChunkConsumed.1.body with consumer := next } }

abbrev Moves : RequestState → RequestState → Prop := Relation.ReflTransGen Move

structure SameRequest (st st' : RequestState) : Prop where
  id : st'.id = st.id
  lane : st'.lane = st.lane
  priority : st'.priority = st.priority
  hasBody : st'.hasBody = st.hasBody

theorem SameRequest.refl (st : RequestState) : SameRequest st st := ⟨rfl, rfl, rfl, rfl⟩

theorem enqueueRequestBody_ok {now : Nat} (h : st.enqueueRequestBody payload now = .ok st') :
    st.bodyEnded = false ∧ st.requestCreditsAvailable ≠ 0 ∧
      payload.length ≤ maxRequestBodyBytes - st.bodyBytes ∧
      ∃ body, st.body.enqueue payload = .ok body ∧
        st' = { st with
          body := body
          requestCreditsAvailable := st.requestCreditsAvailable - 1
          bodyBytes := st.bodyBytes + payload.length
          bodyDeadline := now + requestBodyIdleTimeout } := by
  unfold enqueueRequestBody at h
  split at h
  · cases h
  grind

theorem enqueueRequestBody_error {now : Nat} {e : UploadError} (h : st.enqueueRequestBody payload now = .error e) :
    (e = .body .ended ∧ st.bodyEnded = true) ∨ (e = .creditExhausted ∧ st.requestCreditsAvailable = 0) ∨
      (e = .tooLarge ∧ maxRequestBodyBytes < st.bodyBytes + payload.length) ∨
      ∃ e', e = .body e' ∧ st.body.enqueue payload = .error e' := by grind [enqueueRequestBody]

theorem enqueue_error {b : AsyncRequestBody} {e : BodyError} (h : b.enqueue payload = .error e) :
    (e = .closed ∧ b.closed = true) ∨ (e = .ended ∧ b.ended = true) ∨
      (e = .queueFull ∧ b.chunks.push payload = none) := by
  unfold AsyncRequestBody.enqueue at h
  split at h
  · simp_all
  grind

theorem requestBodyChunkConsumed_available (st : RequestState) :
    st.requestBodyChunkConsumed.1.requestCreditsAvailable = st.requestCreditsAvailable + st.requestBodyChunkConsumed.2 := by
  grind [requestBodyChunkConsumed]

theorem requestBodyChunkConsumed_same (st : RequestState) : SameRequest st st.requestBodyChunkConsumed.1 := by
  unfold requestBodyChunkConsumed
  split
  · exact .refl st
  split <;> exact ⟨rfl, rfl, rfl, rfl⟩

theorem endRequestBody_same (st : RequestState) : SameRequest st st.endRequestBody := by
  unfold endRequestBody
  split <;> exact ⟨rfl, rfl, rfl, rfl⟩

theorem Move.same (h : Move st st') : SameRequest st st' := by
  cases h with
  | enqueues payload now _ h =>
    obtain ⟨-, -, -, body, -, rfl⟩ := enqueueRequestBody_ok h
    exact ⟨rfl, rfl, rfl, rfl⟩
  | ends => exact endRequestBody_same st
  | chunkConsumed next _ =>
    obtain ⟨hid, hlane, hpriority, hbody⟩ := requestBodyChunkConsumed_same st
    exact ⟨hid, hlane, hpriority, hbody⟩
  | _ => exact ⟨rfl, rfl, rfl, rfl⟩

theorem Moves.same (h : Moves st st') : SameRequest st st' := by
  induction h with
  | refl => exact .refl st
  | tail _ hmove ih =>
    obtain ⟨hid, hlane, hpriority, hbody⟩ := hmove.same
    exact ⟨hid.trans ih.id, hlane.trans ih.lane, hpriority.trans ih.priority, hbody.trans ih.hasBody⟩

end RequestState

namespace PeerSession

variable {r : Ref} {s t : PeerSession} {env : Env} {id lane : Nat}

open RequestState (Move Moves SameRequest)

/-- **The session goes on from `s` to `t` and admits nothing.** -/
structure Carries (s t : PeerSession) : Prop where
  next : t.next = s.next
  requests : ∀ id r, t.requests.lookup id = some r → s.requests.lookup id = some r
  pending : ∀ p, (t.pending p).Sublist (s.pending p)
  moves : ∀ r, Moves (s.states r) (t.states r)
  lanes : ∀ lane ∈ t.lanes, lane ∈ s.lanes ∨ s.nextLane ≤ lane ∧ lane < t.nextLane
  nextLane : s.nextLane ≤ t.nextLane
  closed : s.closed = true → t.closed = true

variable {u : PeerSession}

namespace Carries

theorem refl (s : PeerSession) : Carries s s :=
  ⟨rfl, fun _ _ h => h, fun _ => .refl _, fun _ => .refl, fun _ h => .inl h, le_rfl, fun h => h⟩

theorem trans (h : Carries s t) (h' : Carries t u) : Carries s u where
  next := h'.next.trans h.next
  requests id r hr := h.requests id r (h'.requests id r hr)
  pending p := (h'.pending p).trans (h.pending p)
  moves r := (h.moves r).trans (h'.moves r)
  lanes lane hlane := by
    rcases h'.lanes lane hlane with hl | ⟨hle, hlt⟩
    · exact (h.lanes lane hl).imp_right fun ⟨hle, hlt⟩ => ⟨hle, lt_of_lt_of_le hlt h'.nextLane⟩
    · exact .inr ⟨le_trans h.nextLane hle, hlt⟩
  nextLane := le_trans h.nextLane h'.nextLane
  closed hc := h'.closed (h.closed hc)

theorem of_eq (hsame : (t.next, t.requests, t.pending, t.states, t.lanes, t.nextLane, t.closed) =
    (s.next, s.requests, s.pending, s.states, s.lanes, s.nextLane, s.closed)) : Carries s t := by
  simp only [Prod.mk.injEq] at hsame
  obtain ⟨hnext, hrequests, hpending, hstates, hlanes, hnextLane, hclosed⟩ := hsame
  exact ⟨hnext, fun id r h => hrequests ▸ h, fun p => by rw [hpending], fun r => by rw [hstates],
    fun lane h => .inl (hlanes ▸ h), le_of_eq hnextLane.symm, fun h => hclosed.trans h⟩

end Carries

theorem carries_modify (s : PeerSession) (r : Ref) (f : RequestState → RequestState)
    (h : Moves (s.states r) (f (s.states r))) : Carries s (s.modify r f) :=
  { Carries.refl s with
    moves := fun q => by
      show Moves (s.states q) (update s.states r (f (s.states r)) q)
      by_cases hq : q = r
      · rw [hq, update_self]
        exact h
      · rw [Function.update_of_ne hq] }

theorem carries_send (s : PeerSession) (id : Nat) (frame : NodeFrame) : Carries s (s.send id frame) :=
  .of_eq rfl

theorem carries_spawn (s : PeerSession) (sections : List Section) : Carries s (s.spawn sections) :=
  .of_eq rfl

/-! ### Violations and errors -/

/-- **Only the books change and errors go out**: `t` is `s` with other counters and with errors sent for `id`. -/
structure Reports (id : Nat) (s t : PeerSession) : Prop where
  eq : ∃ errors violations sends closeRequested, t = { s with
    protocolViolations := violations
    capacityErrorSends := sends
    peerCloseRequested := closeRequested
    wire := update s.wire id (s.wire id ++ errors) } ∧ ∀ f ∈ errors, ∃ message code, f = .resErr message code

namespace Reports

theorem of_books (id : Nat) (s : PeerSession) (violations sends : Nat) (closeRequested : Bool) :
    Reports id s { s with
      protocolViolations := violations, capacityErrorSends := sends, peerCloseRequested := closeRequested } :=
  ⟨[], violations, sends, closeRequested, by rw [List.append_nil, Function.update_eq_self], nofun⟩

theorem trans {id : Nat} (h : Reports id s t) (h' : Reports id t u) : Reports id s u := by
  obtain ⟨errors, v, c, p, rfl, herrors⟩ := h.eq
  obtain ⟨errors', v', c', p', rfl, herrors'⟩ := h'.eq
  refine ⟨errors ++ errors', v', c', p', ?_, ?_⟩
  · simp only [update_self, Function.update_idem, List.append_assoc]
  · grind

theorem carries {id : Nat} (h : Reports id s t) : Carries s t := by
  obtain ⟨errors, v, c, p, rfl, -⟩ := h.eq
  exact .of_eq rfl

end Reports

theorem reports_noteProtocolViolation (id : Nat) (s : PeerSession) : Reports id s s.noteProtocolViolation.1 := by
  unfold noteProtocolViolation
  split
  · exact .of_books id s s.protocolViolations s.capacityErrorSends s.peerCloseRequested
  dsimp only
  split
  · exact .of_books id s _ s.capacityErrorSends true
  · exact .of_books id s _ s.capacityErrorSends s.peerCloseRequested

theorem reports_sendBoundedError (s : PeerSession) (env : Env) (id : Nat) (message code : String) :
    Reports id s (s.sendBoundedError env id message code) := by
  unfold sendBoundedError
  split
  · exact .of_books id s s.protocolViolations s.capacityErrorSends true
  split
  · exact ⟨[.resErr message code], s.protocolViolations, s.capacityErrorSends, s.peerCloseRequested, rfl,
      fun f hf => ⟨message, code, List.mem_singleton.1 hf⟩⟩
  · exact .of_books id s s.protocolViolations s.capacityErrorSends s.peerCloseRequested

theorem reports_rejectProtocol (s : PeerSession) (env : Env) (id : Nat) (message code : String) :
    Reports id s (s.rejectProtocol env id message code) := by
  unfold rejectProtocol
  split
  · exact (reports_noteProtocolViolation id s).trans (reports_sendBoundedError _ env id message code)
  · exact reports_noteProtocolViolation id s

theorem reports_sendCapacityError (s : PeerSession) (env : Env) (id : Nat) (message code : String) :
    Reports id s (s.sendCapacityError env id message code) := by
  unfold sendCapacityError
  split
  · exact .of_books id s s.protocolViolations s.capacityErrorSends s.peerCloseRequested
  split
  · exact .of_books id s s.protocolViolations s.capacityErrorSends true
  · exact (Reports.of_books id s s.protocolViolations _ s.peerCloseRequested).trans
      (reports_sendBoundedError _ env id message code)

/-! ### Tombstones -/

structure Buries (s t : PeerSession) : Prop where
  eq : ∃ tombstones, t = { s with rejectedBodies := tombstones }

namespace Buries

theorem refl (s : PeerSession) : Buries s s := ⟨s.rejectedBodies, rfl⟩

theorem trans (h : Buries s t) (h' : Buries t u) : Buries s u := by
  obtain ⟨m, rfl⟩ := h.eq
  obtain ⟨m', rfl⟩ := h'.eq
  exact ⟨m', rfl⟩

theorem carries (h : Buries s t) : Carries s t := by
  obtain ⟨m, rfl⟩ := h.eq
  exact .of_eq rfl

end Buries

variable (s)

theorem buries_prune (now : Nat) : Buries s (s.pruneRejectedBodiesLocked now) := ⟨_, rfl⟩

theorem buries_evict (env : Env) : Buries s (s.evictRejectedBody env) := by
  unfold evictRejectedBody
  split
  · exact .refl s
  split
  · exact .refl s
  · exact ⟨_, rfl⟩

theorem buries_remember (env : Env) (id lane : Nat) :
    Buries s (s.rememberRejectedBodyLocked env id lane) :=
  ((buries_prune s env.now).trans (buries_evict _ env)).trans ⟨_, rfl⟩

theorem buries_discard (env : Env) (id lane : Nat) (isEnd : Bool) :
    Buries s (s.discardRejectedRequestBody env id lane isEnd).1 := by
  refine (buries_prune s env.now).trans ?_
  simp only [discardRejectedRequestBody]
  split
  · exact .refl _
  split
  · exact .refl _
  split
  · exact ⟨_, rfl⟩
  split
  · exact .refl _
  · exact ⟨_, rfl⟩

theorem buries_discardRaced (env : Env) (id lane : Nat) (e : UploadError) :
    Buries s (s.discardRacedRequestBodyError env id lane e).1 := by
  cases e with
  | body e =>
    cases e with
    | queueFull => exact .refl s
    | closed => exact buries_discard s env id lane false
    | ended => exact buries_discard s env id lane false
  | tooLarge => exact .refl s
  | creditExhausted => exact .refl s

variable {m m' m'' : AList (fun _ : Nat => RejectedBodyTombstone)}

def Thins (m m' : AList (fun _ : Nat => RejectedBodyTombstone)) : Prop :=
  ∀ id, m'.lookup id = m.lookup id ∨ m'.lookup id = none

theorem Thins.refl (m : AList (fun _ : Nat => RejectedBodyTombstone)) : Thins m m := fun _ => .inl rfl

theorem Thins.trans (h : Thins m m') (h' : Thins m' m'') : Thins m m'' := fun id => by
  rcases h' id with heq' | hgone
  · rw [heq']
    exact h id
  · exact .inr hgone

theorem thins_prune (now : Nat) :
    Thins s.rejectedBodies (s.pruneRejectedBodiesLocked now).rejectedBodies := fun id => by
  show (Assoc.keep _ s.rejectedBodies).lookup id = _ ∨ (Assoc.keep _ s.rejectedBodies).lookup id = none
  rw [Assoc.lookup_keep]
  cases s.rejectedBodies.lookup id with
  | none => exact .inl rfl
  | some t => by_cases hlasts : now < t.expires <;> simp [Option.filter, hlasts]

theorem thins_erase (m : AList (fun _ : Nat => RejectedBodyTombstone)) (gone : Nat) : Thins m (m.erase gone) := fun id => by
  rw [Assoc.lookup_erase_eq]
  split
  · exact .inr rfl
  · exact .inl rfl

theorem thins_evict (env : Env) : Thins s.rejectedBodies (s.evictRejectedBody env).rejectedBodies := by
  unfold evictRejectedBody
  split
  · exact .refl _
  split
  · exact .refl _
  · exact thins_erase _ _

theorem lookup_remember_self (env : Env) (id lane : Nat) :
    (s.rememberRejectedBodyLocked env id lane).rejectedBodies.lookup id =
      some ⟨lane, maxRejectedBodyTrailingFrames, env.now + rejectedBodyTombstoneLifetime⟩ := by
  simp only [rememberRejectedBodyLocked]
  rw [AList.lookup_insert]

theorem lookup_remember_ne (env : Env) (lane : Nat) {id' : Nat} (hid : id' ≠ id) :
    (s.rememberRejectedBodyLocked env id lane).rejectedBodies.lookup id' = s.rejectedBodies.lookup id' ∨
      (s.rememberRejectedBodyLocked env id lane).rejectedBodies.lookup id' = none := by
  simp only [rememberRejectedBodyLocked]
  rw [AList.lookup_insert_ne hid]
  exact (thins_prune s env.now).trans (thins_evict _ env) id'

variable {s}

/-- **The tombstone `t` takes a frame** of its upload. -/
structure Spends (m m' : AList (fun _ : Nat => RejectedBodyTombstone)) (now id lane : Nat) (t : RejectedBodyTombstone) :
    Prop where
  found : m.lookup id = some t
  lane : t.lane = lane
  lasts : now < t.expires
  left : t.remaining ≠ 0
  spent : m'.lookup id = some { t with remaining := t.remaining - 1 }
  others : ∀ id' ≠ id, m'.lookup id' = m.lookup id' ∨ m'.lookup id' = none

theorem lookup_prune_some {now : Nat} {t : RejectedBodyTombstone}
    (h : (s.pruneRejectedBodiesLocked now).rejectedBodies.lookup id = some t) :
    s.rejectedBodies.lookup id = some t ∧ now < t.expires := by
  change (Assoc.keep _ s.rejectedBodies).lookup id = some t at h
  rw [Assoc.lookup_keep] at h
  simpa using Option.filter_eq_some_iff.1 h

variable (s)

/-- **What a frame makes of the tombstones**: it is taken by the one of its upload, or it changes none. -/
theorem discard_tombstones (env : Env) (gone lane : Nat) (isEnd : Bool) :
    (Thins s.rejectedBodies (s.discardRejectedRequestBody env gone lane isEnd).1.rejectedBodies ∧
        (isEnd = false → (s.discardRejectedRequestBody env gone lane isEnd).2 = false)) ∨
      isEnd = false ∧ (s.discardRejectedRequestBody env gone lane isEnd).2 = true ∧ ∃ t, Spends s.rejectedBodies
        (s.discardRejectedRequestBody env gone lane isEnd).1.rejectedBodies env.now gone lane t := by
  have hpruned := thins_prune s env.now
  simp only [discardRejectedRequestBody]
  split
  · exact .inl ⟨hpruned, fun _ => rfl⟩
  rename_i t ht
  obtain ⟨hfound, hlasts⟩ := lookup_prune_some ht
  split
  · exact .inl ⟨hpruned, fun _ => rfl⟩
  rename_i hlane
  split
  · rename_i hend
    exact .inl ⟨hpruned.trans (thins_erase _ gone), fun h => by cases hend.symm.trans h⟩
  rename_i hend
  split
  · exact .inl ⟨hpruned, fun _ => rfl⟩
  rename_i hleft
  refine .inr ⟨by simpa using hend, rfl, t, hfound, not_not.1 hlane, hlasts, hleft, AList.lookup_insert _, fun id' hid => ?_⟩
  show (AList.insert _ _ _).lookup id' = _ ∨ (AList.insert _ _ _).lookup id' = none
  rw [AList.lookup_insert_ne hid]
  exact hpruned id'

/-! ### Admission -/

@[mk_iff]
structure Admits (s : PeerSession) (env : Env) (lane id : Nat) (head : RequestHead) : Prop where
  notClosed : s.closed = false
  onLane : lane ∈ s.lanes
  notLive : s.requests.lookup id = none
  notDraining : (s.pruneRejectedBodiesLocked env.now).rejectedBodies.lookup id = none
  belowLimit : s.requests.entries.length < maxAdmittedRequestsPerPeer
  bodies : head.hasBody = true → s.bodyRequests < maxBodyRequestsPerPeer
  admissionToken : env.admissionToken = true
  bodyFrames : head.hasBody = true → env.bodyFrames = true

instance decidableAdmits (s : PeerSession) (env : Env) (lane id : Nat) (head : RequestHead) :
    Decidable (Admits s env lane id head) := decidable_of_iff' _ (admits_iff s env lane id head)

def admitted (s : PeerSession) (env : Env) (lane id : Nat) (head : RequestHead) : PeerSession :=
  { s.pruneRejectedBodiesLocked env.now with
    next := s.next + 1
    states := update s.states s.next (.newRequestState id lane head)
    bodyRequests := if head.hasBody then s.bodyRequests + 1 else s.bodyRequests
    requests := s.requests.insert id s.next
    pending := update s.pending (priorityClass head.priority)
      (s.pending (priorityClass head.priority) ++ [s.next]) }

theorem admitted_states_of_lt (env : Env) (lane id : Nat) (head : RequestHead)
    (h : r < s.next) : (s.admitted env lane id head).states r = s.states r := by
  show update s.states s.next _ r = _
  grind

theorem admitted_state (env : Env) (lane id : Nat) (head : RequestHead) :
    (s.admitted env lane id head).states s.next = .newRequestState id lane head := by
  show update s.states s.next _ s.next = _
  rw [update_self]

theorem sendBoundedError_violations (env : Env) (id : Nat) (message code : String) :
    (s.sendBoundedError env id message code).protocolViolations = s.protocolViolations := by
  unfold sendBoundedError
  split
  · rfl
  split <;> rfl

theorem sendCapacityError_violations (env : Env) (id : Nat) (message code : String) :
    (s.sendCapacityError env id message code).protocolViolations = s.protocolViolations := by
  unfold sendCapacityError
  split
  · rfl
  split
  · rfl
  · rw [sendBoundedError_violations]

variable {s}

/-- `begin` turns a request away: tombstones are pruned and an error goes out, and only an id in use is a violation. -/
structure Refuses (s t : PeerSession) (env : Env) (id : Nat) : Prop where
  reports : ∃ u, Buries s u ∧ Reports id u t
  tombstones : t.rejectedBodies = s.rejectedBodies ∨
    t.rejectedBodies = (s.pruneRejectedBodiesLocked env.now).rejectedBodies
  violations : s.closed = true ∨ s.requests.lookup id = none ∧
      (s.pruneRejectedBodiesLocked env.now).rejectedBodies.lookup id = none →
    t.protocolViolations = s.protocolViolations

theorem Refuses.carries (h : Refuses s t env id) : Carries s t := by
  obtain ⟨u, hb, hr⟩ := h.reports
  exact hb.carries.trans hr.carries

theorem Reports.rejectedBodies (h : Reports id s t) :
    t.rejectedBodies = s.rejectedBodies := by
  obtain ⟨errors, v, c, p, rfl, -⟩ := h.eq
  rfl

variable (s)

theorem refuses_sendCapacityError (env : Env) (id : Nat) (message code : String) :
    Refuses s ((s.pruneRejectedBodiesLocked env.now).sendCapacityError env id message code) env id where
  reports := ⟨_, buries_prune s env.now, reports_sendCapacityError _ env id message code⟩
  tombstones := .inr (reports_sendCapacityError _ env id message code).rejectedBodies
  violations _ := sendCapacityError_violations _ env id message code

theorem begin_cases (env : Env) (lane id : Nat) (head : RequestHead) :
    (Admits s env lane id head ∧ s.begin env lane id head =
      (s.admitted env lane id head, if head.hasBody then [.sendInitialCredits s.next] else [])) ∨
    (¬ Admits s env lane id head ∧ ∃ t, s.begin env lane id head = (t, []) ∧ Refuses s t env id) := by
  simp only [begin]
  split
  · rename_i hopen
    refine .inr ⟨fun h => ?_, s, rfl, ⟨s, .refl s, .of_books id s _ _ _⟩, .inl rfl, fun _ => rfl⟩
    rcases hopen with hclosed | hlane
    · rw [h.notClosed] at hclosed
      cases hclosed
    · exact hlane h.onLane
  rename_i hopen
  split
  · rename_i hlive
    refine .inr ⟨fun h => ?_, _, rfl, ⟨s, .refl s, reports_rejectProtocol s env id _ _⟩,
      .inl (reports_rejectProtocol s env id _ _).rejectedBodies, fun h => ?_⟩
    · rw [h.notLive] at hlive
      cases hlive
    · simp_all
  rename_i hlive
  split
  · rename_i hdraining
    refine .inr ⟨fun h => ?_, _, rfl, ⟨_, buries_prune s env.now, reports_rejectProtocol _ env id _ _⟩,
      .inr (reports_rejectProtocol _ env id _ _).rejectedBodies, fun h => ?_⟩
    · grind [h.notDraining]
    · simp_all
  rename_i hdraining
  split
  · rename_i hfull
    exact .inr ⟨fun h => absurd h.belowLimit (not_lt.2 hfull), _, rfl, refuses_sendCapacityError s env id _ _⟩
  rename_i hfull
  split
  · rename_i hbodies
    exact .inr ⟨fun h => absurd (h.bodies hbodies.1) (not_lt.2 hbodies.2), _, rfl,
      refuses_sendCapacityError s env id _ _⟩
  rename_i hbodies
  split
  · rename_i htoken
    refine .inr ⟨fun h => ?_, _, rfl, refuses_sendCapacityError s env id _ _⟩
    rw [h.admissionToken] at htoken
    cases htoken
  rename_i htoken
  split
  · rename_i hframes
    refine .inr ⟨fun h => ?_, _, rfl, refuses_sendCapacityError s env id _ _⟩
    rw [h.bodyFrames hframes.1] at hframes
    cases hframes.2
  rename_i hframes
  refine .inl ⟨⟨?_, ?_, ?_, ?_, by omega, ?_, by simpa using htoken, ?_⟩, rfl⟩
  · grind
  · exact not_not.1 fun h => hopen (.inr h)
  · simpa using hlive
  · simpa using hdraining
  · exact fun hb => Nat.lt_of_not_le fun h => hbodies ⟨hb, h⟩
  · simp_all

/-! ### Sections -/

theorem removeRequest_eq (env : Env) (id : Nat) (r : Ref) (allowTrailing : Bool) :
    ∃ tombstones, s.removeRequest env id r allowTrailing = { s with
      requests := s.requests.erase id
      bodyRequests := if (s.states r).hasBody then s.bodyRequests - 1 else s.bodyRequests
      rejectedBodies := tombstones } := by
  simp only [removeRequest]
  split
  · exact (buries_remember _ env id _).eq
  · exact ⟨_, rfl⟩

theorem carries_removeRequest (env : Env) (id : Nat) (r : Ref) (allowTrailing : Bool) :
    Carries s (s.removeRequest env id r allowTrailing) := by
  obtain ⟨tombstones, h⟩ := removeRequest_eq s env id r allowTrailing
  rw [h]
  refine { Carries.refl s with requests := fun id' r' hr => ?_ }
  grind [AList.lookup_erase, AList.lookup_erase_ne]

inductive Does (s : PeerSession) : Section → PeerSession → Prop
  | nothing (c : Section) : Does s c s
  | changes (c : Section) (r : Ref) (f : RequestState → RequestState) (h : Moves (s.states r) (f (s.states r))) :
    Does s c (s.modify r f)
  | answers (c : Section) (id : Nat) (u t : PeerSession) (hburies : Buries s u) (hreports : Reports id u t) : Does s c t
  | sends (c : Section) (id : Nat) (frame : NodeFrame) : Does s c (s.send id frame)
  | removes (id : Nat) (r : Ref) (allowTrailing timedOut : Bool) (env : Env) (hlive : s.requests.lookup id = some r) :
    Does s (.cancelState id r allowTrailing timedOut) (s.removeRequest env id r allowTrailing)
  | exits (c : Section) (active nonInteractive : Nat) :
    Does s c { s with activeHandlers := active, activeNonInteractive := nonInteractive }

theorem exec_does (env : Env) (c : Section) : Does s c (s.exec env c).1 := by
  cases c <;> simp only [exec]
  case enqueueBody id lane r payload =>
    split
    · rename_i st hst
      exact .changes _ r (fun _ => st) (.single (.enqueues payload env.now st hst))
    · exact .nothing _
  case discardRaced id lane r e =>
    have hburies := buries_discardRaced s env id lane e
    split
    · exact .answers _ id _ _ hburies (.of_books id _ _ _ _)
    · exact .answers _ id _ _ hburies (reports_rejectProtocol _ env id _ _)
  case discardBody id lane isEnd =>
    have hburies := buries_discard s env id lane isEnd
    split
    · exact .answers _ id _ _ hburies (.of_books id _ _ _ _)
    · exact .answers _ id _ _ hburies (reports_noteProtocolViolation id _)
  case dropTombstone id lane => exact .answers _ id _ _ (buries_discard s env id lane true) (.of_books id _ _ _ _)
  case endBody r => exact .changes _ r _ (.single .ends)
  case cancelState id r allowTrailing timedOut =>
    split
    · rename_i hlive
      exact .removes id r allowTrailing timedOut env hlive
    · exact .nothing _
  case cancelContext r => exact .changes _ r _ (.single .cancels)
  case stopBody r => exact .changes _ r _ (.single .stops)
  case closeBody r =>
    apply Does.changes
    exact .single .closes
  case closeCurrent r =>
    apply Does.changes
    exact .single .closesCurrent
  case timeoutError id => exact .answers _ id _ _ (.refl s) (reports_sendBoundedError s env id _ _)
  case sendInitialCredits r =>
    split
    · exact .sends _ _ _
    · exact .nothing _
  case armTimer r =>
    apply Does.changes
    split
    · exact .refl
    · exact .single (.arms _)
  case serve r =>
    split
    · exact .answers _ _ _ _ (.refl s) (reports_sendBoundedError s env _ _ _)
    · exact .nothing _
  case snapshot id r => exact .nothing _
  case handlerExited nonInteractive => exact .exits _ _ _

theorem carries_exec (env : Env) (c : Section) : Carries s (s.exec env c).1 := by
  have h := exec_does s env c
  generalize (s.exec env c).1 = t at h ⊢
  cases h with
  | nothing => exact .refl s
  | changes _ r f h => exact carries_modify s r f h
  | answers _ id u t hburies hreports => exact hburies.carries.trans hreports.carries
  | sends _ id frame => exact carries_send s id frame
  | removes id r allowTrailing timedOut env => exact carries_removeRequest s env id r allowTrailing
  | exits => exact .of_eq rfl

/-! ### Dispatch -/

theorem carries_nextPendingIn : ∀ (classes : List RequestPriority) (s : PeerSession), Carries s (s.nextPendingIn classes).1
  | [], s => .refl s
  | p :: classes, s => by
    have hpruned : Carries s { s with pending := update s.pending p ((s.pending p).dropWhile s.isStale) } := by
      refine { Carries.refl s with pending := fun q => ?_ }
      grind
    simp only [nextPendingIn]
    split
    · exact carries_nextPendingIn classes s
    split
    · rename_i hqueue
      exact hpruned.trans (carries_nextPendingIn classes _)
    · exact hpruned

theorem nextPendingIn_eq : ∀ (classes : List RequestPriority) (s : PeerSession),
    ∃ pending, (s.nextPendingIn classes).1 = { s with pending := pending }
  | [], s => ⟨s.pending, rfl⟩
  | p :: classes, s => by
    simp only [nextPendingIn]
    split
    · exact nextPendingIn_eq classes s
    split
    · obtain ⟨pending, h⟩ := nextPendingIn_eq classes
        { s with pending := update s.pending p ((s.pending p).dropWhile s.isStale) }
      exact ⟨pending, h⟩
    · exact ⟨_, rfl⟩

theorem nextPendingLocked_eq : ∃ pending, s.nextPendingLocked.1 = { s with pending := pending } := by
  unfold nextPendingLocked
  split
  · exact ⟨s.pending, rfl⟩
  · exact nextPendingIn_eq _ s

theorem carries_nextPendingLocked : Carries s s.nextPendingLocked.1 := by
  unfold nextPendingLocked
  split
  · exact .refl s
  · exact carries_nextPendingIn _ s

variable {s}

theorem isLive_iff : s.isLive r = true ↔ s.requests.lookup (s.states r).id = some r := by
  simp [isLive]

variable (s)

theorem startPicked_cases (r : Ref) :
    s.startPicked r = { s with picked := none } ∨
      s.isLive r = true ∧ ∃ active, s.startPicked r =
        ({ s.modify r (fun st => { st with started := true }) with
          picked := none, activeHandlers := s.activeHandlers + 1, activeNonInteractive := active }).spawn
            [.serve r, .handlerExited (decide ((s.states r).priority ≠ RequestPriority.interactive))] := by
  grind [startPicked]

/-! ### Timer, consumer and lanes -/

def timedOut (s : PeerSession) (r : Ref) : PeerSession :=
  s.modify r (fun st => { st with bodyTimedOut := true, bodyEnded := true })

/-- **A timer that runs out**: nothing, a request that is gone, or one that is cancelled behind a tombstone. -/
theorem expireRequestBody_cases (env : Env) (r : Ref) :
    s.expireRequestBody env r = s ∨
      (s.states r).bodyEnded = false ∧
        (s.isLive r = false ∧ s.expireRequestBody env r = s.timedOut r ∨
          s.isLive r = true ∧ s.expireRequestBody env r =
            ((s.timedOut r).rememberRejectedBodyLocked env (s.states r).id (s.states r).lane).spawn
              [.cancelState (s.states r).id r false true]) := by
  simp only [expireRequestBody]
  split
  · exact .inl rfl
  rename_i hrunning
  simp only [Bool.or_eq_true, not_or, Bool.not_eq_true] at hrunning
  refine .inr ⟨hrunning.1.1, ?_⟩
  split
  · rename_i hlive
    exact .inr ⟨hlive, rfl⟩
  · rename_i hlive
    exact .inl ⟨by simpa using hlive, rfl⟩

theorem carries_timedOut (r : Ref) : Carries s (s.timedOut r) := by
  apply carries_modify
  exact .single .timesOut

/-- The session once the callback of the consumer of `r` has returned. -/
def consumed (s : PeerSession) (r : Ref) (next : Consumer) : PeerSession :=
  s.modify r (fun st => { st.requestBodyChunkConsumed.1 with
    body := { st.requestBodyChunkConsumed.1.body with consumer := next } })

theorem chunkConsumed_cases (env : Env) (r : Ref) (next : Consumer) :
    ((s.states r).requestBodyChunkConsumed.2 = 0 ∧ s.chunkConsumed env r next = s.consumed r next) ∨
      (env.sendOk = true ∧ s.chunkConsumed env r next =
        (s.consumed r next).send (s.states r).id (.reqCredit (s.states r).requestBodyChunkConsumed.2)) ∨
      (env.sendOk = false ∧ (s.states r).requestBodyChunkConsumed.2 ≠ 0 ∧ s.chunkConsumed env r next =
        (s.consumed r next).spawn [.cancelState (s.states r).id r false false]) := by
  simp only [chunkConsumed]
  split
  · rename_i hgrant
    exact .inl ⟨hgrant, rfl⟩
  rename_i hgrant
  split
  · rename_i hsend
    exact .inr (.inl ⟨hsend, rfl⟩)
  · rename_i hsend
    exact .inr (.inr ⟨by simpa using hsend, hgrant, rfl⟩)

theorem carries_consumed (r : Ref) (next : Consumer)
    (h : (s.states r).body.consumer = .consumed next) : Carries s (s.consumed r next) := by
  apply carries_modify
  exact .single (.chunkConsumed next h)

/-! ### Steps -/

variable {s}

theorem requestOnLane_some (h : s.requestOnLane id lane = some r) :
    s.requests.lookup id = some r ∧ (s.states r).lane = lane := by grind [requestOnLane]

theorem requestOnLane_none (h : s.requestOnLane id lane = none)
    (hr : s.requests.lookup id = some r) : (s.states r).lane ≠ lane := by
  intro hlane
  simp [requestOnLane, hr, hlane] at h

inductive Handles (s : PeerSession) (env : Env) (lane : Nat) : PeerFrame → PeerSession × List Section → Prop
  | books (id : Nat) (frame : PeerFrame) (t : PeerSession) (h : Reports id s t) : Handles s env lane frame (t, [])
  | refuses (id size : Nat) (head : RequestHead) (t : PeerSession) (h : Refuses s t env id) :
    Handles s env lane (.req id size (some head)) (t, [])
  | admits (id size : Nat) (head : RequestHead) (hsize : size ≤ maxRequestHeadBytes)
    (hvalid : validateRequestHead head = none) (h : Admits s env lane id head) :
    Handles s env lane (.req id size (some head))
      (s.admitted env lane id head, if head.hasBody then [.sendInitialCredits s.next] else [])
  | enqueues (id : Nat) (payload : Bytes) (r : Ref) (hr : s.requests.lookup id = some r)
    (hlane : (s.states r).lane = lane) (hbody : (s.states r).hasBody = true) :
    Handles s env lane (.reqBody id payload) (s, [.enqueueBody id lane r payload])
  | discardsBody (id : Nat) (payload : Bytes)
    (h : ∀ r, s.requests.lookup id = some r → (s.states r).lane = lane → (s.states r).hasBody = false) :
    Handles s env lane (.reqBody id payload) (s, [.discardBody id lane false])
  | ends (id : Nat) (r : Ref) (hr : s.requests.lookup id = some r) (hlane : (s.states r).lane = lane)
    (hbody : (s.states r).hasBody = true) : Handles s env lane (.reqEnd id) (s, [.endBody r])
  | discardsEnd (id : Nat)
    (h : ∀ r, s.requests.lookup id = some r → (s.states r).lane = lane → (s.states r).hasBody = false) :
    Handles s env lane (.reqEnd id) (s, [.discardBody id lane true])
  | snapshots (id : Nat) (r : Ref) (hr : s.requests.lookup id = some r) :
    Handles s env lane (.cancel id) (s, [.snapshot id r])
  | dropsTombstone (id : Nat) : Handles s env lane (.cancel id) (s, [.dropTombstone id lane])

theorem onMessage_handles (s : PeerSession) (env : Env) (lane : Nat) (frame : PeerFrame) :
    Handles s env lane frame (s.onMessage env lane frame) := by
  have hidle : ∀ id, Reports id s s := fun id => .of_books id s _ _ _
  cases frame <;> simp only [onMessage]
  case undecodable => exact .books 0 _ _ (reports_noteProtocolViolation 0 s)
  case response => exact .books 0 _ _ (reports_noteProtocolViolation 0 s)
  case webSocket violates =>
    split
    · exact .books 0 _ _ (reports_noteProtocolViolation 0 s)
    · exact .books 0 _ _ (hidle 0)
  case req id size head =>
    split
    · exact .books id _ _ (reports_rejectProtocol s env id _ _)
    rename_i hsize
    split
    · exact .books id _ _ (reports_rejectProtocol s env id _ _)
    rename_i head
    split
    · exact .books id _ _ (reports_rejectProtocol s env id _ _)
    rename_i hvalid
    rcases begin_cases s env lane id head with ⟨hadmits, hbegin⟩ | ⟨-, t, hbegin, hrefuses⟩
    · rw [hbegin]
      exact .admits id size head (not_lt.1 hsize) hvalid hadmits
    · rw [hbegin]
      exact .refuses id size head t hrefuses
  case reqBody id payload =>
    split
    · rename_i r hr
      obtain ⟨hlookup, hlane⟩ := requestOnLane_some hr
      split
      · rename_i hbody
        exact .enqueues id payload r hlookup hlane hbody
      rename_i hbody
      refine .discardsBody id payload fun r' hr' _ => ?_
      simp_all
    · rename_i hnone
      exact .discardsBody id payload fun r hr hlane => absurd hlane (requestOnLane_none hnone hr)
  case reqEnd id =>
    split
    · rename_i r hr
      obtain ⟨hlookup, hlane⟩ := requestOnLane_some hr
      split
      · rename_i hbody
        exact .ends id r hlookup hlane hbody
      rename_i hbody
      refine .discardsEnd id fun r' hr' _ => ?_
      simp_all
    · rename_i hnone
      exact .discardsEnd id fun r hr hlane => absurd hlane (requestOnLane_none hnone hr)
  case credit id count =>
    split
    · exact .books id _ _ (reports_noteProtocolViolation id s)
    split
    · exact .books id _ _ (hidle id)
    split
    · exact .books id _ _ (reports_noteProtocolViolation id s)
    · exact .books id _ _ (hidle id)
  case cancel id =>
    split
    · rename_i r hr
      exact .snapshots id r (requestOnLane_some hr).1
    · exact .dropsTombstone id

theorem onMessage_carries_or_admits (s : PeerSession) (env : Env) (lane : Nat) (frame : PeerFrame) :
    Carries s (s.onMessage env lane frame).1 ∨
      ∃ id size head, frame = .req id size (some head) ∧ size ≤ maxRequestHeadBytes ∧ validateRequestHead head = none ∧
        Admits s env lane id head ∧ (s.onMessage env lane frame).1 = s.admitted env lane id head := by
  have h := onMessage_handles s env lane frame
  generalize s.onMessage env lane frame = m at h ⊢
  cases h with
  | books id frame t h => exact .inl h.carries
  | refuses id size head t h => exact .inl h.carries
  | admits id size head hsize hvalid h => exact .inr ⟨id, size, head, rfl, hsize, hvalid, h, rfl⟩
  | _ => exact .inl (.refl s)

theorem receive_eq {frame : PeerFrame} (h : s.step (.receive lane frame env) = some t) :
    s.rx lane = [] ∧ (lane ∈ s.lanes ∨ s.closed = true) ∧ t = { (s.onMessage env lane frame).1 with
      rx := update (s.onMessage env lane frame).1.rx lane (s.onMessage env lane frame).2 } := by
  simp_all [step]

theorem laneGoesOn_eq (h : s.step (.laneGoesOn lane env) = some t) :
    ∃ c others, s.rx lane = c :: others ∧ t = { (s.exec env c).1 with
      rx := update (s.exec env c).1.rx lane ((s.exec env c).2 ++ others) } := by
  simp only [step] at h
  cases hrx : s.rx lane with
  | nil =>
    rw [hrx] at h
    cases h
  | cons c others =>
    rw [hrx] at h
    cases h
    exact ⟨c, others, rfl, rfl⟩

theorem taskGoesOn_eq {task : Nat} (h : s.step (.taskGoesOn task env) = some t) :
    ∃ c others, s.tasks task = c :: others ∧ t = { (s.exec env c).1 with
      tasks := update (s.exec env c).1.tasks task ((s.exec env c).2 ++ others) } := by
  simp only [step] at h
  cases htask : s.tasks task with
  | nil =>
    rw [htask] at h
    cases h
  | cons c others =>
    rw [htask] at h
    cases h
    exact ⟨c, others, rfl, rfl⟩

inductive Becomes (s : PeerSession) : SessionEvent → PeerSession → Prop
  | receives (lane : Nat) (frame : PeerFrame) (env : Env) (hidle : s.rx lane = [])
    (hlane : lane ∈ s.lanes ∨ s.closed = true) : Becomes s (.receive lane frame env) { (s.onMessage env lane frame).1 with
      rx := update (s.onMessage env lane frame).1.rx lane (s.onMessage env lane frame).2 }
  | laneGoesOn (lane : Nat) (env : Env) (c : Section) (others : List Section) (hrx : s.rx lane = c :: others) :
    Becomes s (.laneGoesOn lane env) { (s.exec env c).1 with
      rx := update (s.exec env c).1.rx lane ((s.exec env c).2 ++ others) }
  | taskGoesOn (task : Nat) (env : Env) (c : Section) (others : List Section) (htask : s.tasks task = c :: others) :
    Becomes s (.taskGoesOn task env) { (s.exec env c).1 with
      tasks := update (s.exec env c).1.tasks task ((s.exec env c).2 ++ others) }
  | looks (pending : RequestPriority → List Ref) (picked : Option Ref)
    (h : s.nextPendingLocked.1 = { s with pending := pending }) : Becomes s .dispatch { s with pending := pending, picked := picked }
  | drops : Becomes s .dropPicked { s with picked := none }
  | startsNothing : Becomes s .startPicked { s with picked := none }
  | starts (r : Ref) (active : Nat) (hlive : s.isLive r = true) : Becomes s .startPicked
      (({ s.modify r (fun st => { st with started := true }) with
        picked := none, activeHandlers := s.activeHandlers + 1, activeNonInteractive := active }).spawn
          [.serve r, .handlerExited (decide ((s.states r).priority ≠ RequestPriority.interactive))])
  | timerStopped (r : Ref) (env : Env) : Becomes s (.timer r env) s
  | timerLate (r : Ref) (env : Env) (hlive : s.isLive r = false) : Becomes s (.timer r env) (s.timedOut r)
  | timerFires (r : Ref) (env : Env) (hr : r < s.next) (hbody : (s.states r).hasBody = true) (hlive : s.isLive r = true) :
    Becomes s (.timer r env) (((s.timedOut r).rememberRejectedBodyLocked env (s.states r).id (s.states r).lane).spawn
      [.cancelState (s.states r).id r false true])
  | consumes (r : Ref) (e : BodyEvent) (body : AsyncRequestBody) (hr : r < s.next) (hbody : (s.states r).hasBody = true)
    (he : isConsumerEvent e = true) (h : (s.states r).body.step e = some body) :
    Becomes s (.consumer r e) (s.modify r (fun st => { st with body := body }))
  | chunkKept (r : Ref) (env : Env) (next : Consumer) (hr : r < s.next) (hbody : (s.states r).hasBody = true)
    (hnext : (s.states r).body.consumer = .consumed next) : Becomes s (.chunkConsumed r env) (s.consumed r next)
  | chunkGranted (r : Ref) (env : Env) (next : Consumer) (hr : r < s.next) (hbody : (s.states r).hasBody = true)
    (hnext : (s.states r).body.consumer = .consumed next) : Becomes s (.chunkConsumed r env)
      ((s.consumed r next).send (s.states r).id (.reqCredit (s.states r).requestBodyChunkConsumed.2))
  | chunkRefused (r : Ref) (env : Env) (next : Consumer) (hr : r < s.next) (hbody : (s.states r).hasBody = true)
    (hnext : (s.states r).body.consumer = .consumed next) (hsend : env.sendOk = false)
    (hgrant : (s.states r).requestBodyChunkConsumed.2 ≠ 0) : Becomes s (.chunkConsumed r env)
      ((s.consumed r next).spawn [.cancelState (s.states r).id r false false])
  | handlerCloses (r : Ref) (hr : r < s.next) (hbody : (s.states r).hasBody = true) : Becomes s (.handlerCloses r)
      ((s.modify r (fun st => { st with body := st.body.close })).spawn [.closeCurrent r])
  | responds (r : Ref) (frame : NodeFrame) (hframe : isResponse frame = true) :
    Becomes s (.respond r frame) (s.send (s.states r).id frame)
  | attaches (hopen : s.closed = false) : Becomes s .attach s.attach
  | detaches (lane : Nat) (control closeRequested : Bool) (hlane : lane ∈ s.lanes) (hidle : s.rx lane = []) :
    Becomes s (.detachLane lane control)
      (({ s with lanes := s.lanes.filter (· ≠ lane), peerCloseRequested := closeRequested }).spawn
        ((s.liveRefs.filter (fun r => decide ((s.states r).lane = lane))).map
          (fun r => .cancelState (s.states r).id r false false)))
  | closedAlready (hclosed : s.closed = true) : Becomes s .close s
  | closes : Becomes s .close
      (({ s with closed := true, requests := ∅, rejectedBodies := ∅, bodyRequests := 0, lanes := [] }).spawn
        (s.liveRefs.map .cancelContext))

theorem step_becomes {e : SessionEvent} (h : s.step e = some t) : Becomes s e t := by
  cases e with
  | receive lane frame env =>
    obtain ⟨hidle, hlane, rfl⟩ := receive_eq h
    exact .receives lane frame env hidle hlane
  | laneGoesOn lane env =>
    obtain ⟨c, others, hrx, rfl⟩ := laneGoesOn_eq h
    exact .laneGoesOn lane env c others hrx
  | taskGoesOn task env =>
    obtain ⟨c, others, htask, rfl⟩ := taskGoesOn_eq h
    exact .taskGoesOn task env c others htask
  | dispatch =>
    obtain ⟨-, rfl⟩ := Steps.of_unless h
    obtain ⟨pending, hpending⟩ := nextPendingLocked_eq s
    have hlooks := Becomes.looks pending s.nextPendingLocked.2 hpending
    rw [hpending]
    exact hlooks
  | startPicked =>
    obtain ⟨r, -, rfl⟩ := Option.map_eq_some_iff.1 h
    rcases startPicked_cases s r with hp | ⟨hlive, active, hp⟩
    · rw [hp]
      exact .startsNothing
    · rw [hp]
      exact .starts r active hlive
  | dropPicked =>
    cases h
    exact .drops
  | timer r env =>
    obtain ⟨hguard, rfl⟩ := Steps.of_guard h
    rcases expireRequestBody_cases s env r with hx | ⟨-, ⟨hlive, hx⟩ | ⟨hlive, hx⟩⟩
    · rw [hx]
      exact .timerStopped r env
    · rw [hx]
      exact .timerLate r env hlive
    · rw [hx]
      exact .timerFires r env hguard.1 hguard.2.1 hlive
  | consumer r e =>
    simp only [step] at h
    split at h
    · rename_i hguard
      obtain ⟨body, hbody, rfl⟩ := Option.map_eq_some_iff.1 h
      exact .consumes r e body hguard.1 hguard.2.1 hguard.2.2 hbody
    · cases h
  | chunkConsumed r env =>
    simp only [step] at h
    split at h
    · rename_i hguard
      split at h
      · rename_i next hnext
        cases h
        rcases chunkConsumed_cases s env r next with ⟨-, hx⟩ | ⟨-, hx⟩ | ⟨hsend, hgrant, hx⟩
        · rw [hx]
          exact .chunkKept r env next hguard.1 hguard.2 hnext
        · rw [hx]
          exact .chunkGranted r env next hguard.1 hguard.2 hnext
        · rw [hx]
          exact .chunkRefused r env next hguard.1 hguard.2 hnext hsend hgrant
      · cases h
    · cases h
  | handlerCloses r =>
    obtain ⟨hguard, rfl⟩ := Steps.of_guard h
    exact .handlerCloses r hguard.1 hguard.2.1
  | respond r frame =>
    obtain ⟨hguard, rfl⟩ := Steps.of_guard h
    exact .responds r frame hguard.2.2
  | attach =>
    obtain ⟨hopen, rfl⟩ := Steps.of_unless h
    exact .attaches (by simpa using hopen)
  | detachLane lane control =>
    obtain ⟨hguard, rfl⟩ := Steps.of_guard h
    simp only [detachLane]
    split
    · exact .detaches lane control true hguard.1 hguard.2
    · exact .detaches lane control s.peerCloseRequested hguard.1 hguard.2
  | close =>
    cases h
    unfold close
    split
    · rename_i hclosed
      exact .closedAlready hclosed
    · exact .closes

theorem Carries.withThreads (h : Carries s t) (rx tasks : Nat → List Section) :
    Carries s { t with rx := rx, tasks := tasks } :=
  h.trans (.of_eq rfl)

theorem step_carries_or_admits {e : SessionEvent} (h : s.step e = some t) :
    Carries s t ∨
      ∃ lane id size head env, e = .receive lane (.req id size (some head)) env ∧ size ≤ maxRequestHeadBytes ∧
        validateRequestHead head = none ∧ Admits s env lane id head ∧
        ∃ rx, t = { s.admitted env lane id head with rx := rx } := by
  cases step_becomes h with
  | receives lane frame env =>
    rcases onMessage_carries_or_admits s env lane frame with hc | ⟨id, size, head, rfl, hsize, hvalid, hadmits, heq⟩
    · exact .inl (hc.withThreads _ _)
    · exact .inr ⟨lane, id, size, head, env, rfl, hsize, hvalid, hadmits, _, by rw [heq]⟩
  | laneGoesOn lane env c => exact .inl ((carries_exec s env c).withThreads _ _)
  | taskGoesOn task env c => exact .inl ((carries_exec s env c).withThreads _ _)
  | looks pending picked hpending =>
    have hlooked := carries_nextPendingLocked s
    rw [hpending] at hlooked
    exact .inl (hlooked.trans (.of_eq rfl))
  | drops => exact .inl (.of_eq rfl)
  | startsNothing => exact .inl (.of_eq rfl)
  | starts r active =>
    have hstarts := carries_modify s r (fun st => { st with started := true }) (.single .starts)
    exact .inl (hstarts.trans (.of_eq rfl))
  | timerStopped => exact .inl (.refl s)
  | timerLate r => exact .inl (carries_timedOut s r)
  | timerFires r env =>
    exact .inl (((carries_timedOut s r).trans (buries_remember _ env _ _).carries).trans (carries_spawn _ _))
  | consumes r e body _ _ he hbody =>
    refine .inl (carries_modify s r _ ?_)
    exact .single (.consumes e he body hbody)
  | chunkKept r env next _ _ hnext => exact .inl (carries_consumed s r next hnext)
  | chunkGranted r env next _ _ hnext => exact .inl ((carries_consumed s r next hnext).trans (carries_send _ _ _))
  | chunkRefused r env next _ _ hnext => exact .inl ((carries_consumed s r next hnext).trans (carries_spawn _ _))
  | handlerCloses r =>
    refine .inl (.trans ?_ (carries_spawn _ _))
    apply carries_modify
    exact .single .closes
  | responds r frame => exact .inl (carries_send s _ _)
  | attaches =>
    refine .inl { Carries.refl s with lanes := fun lane hlane => ?_, nextLane := Nat.le_succ _ }
    rcases List.mem_cons.1 hlane with rfl | hold
    · exact .inr ⟨le_rfl, Nat.lt_succ_self _⟩
    · exact .inl hold
  | detaches =>
    refine .inl (.trans ?_ (carries_spawn _ _))
    exact { Carries.refl s with lanes := fun lane hlane => .inl (List.mem_filter.1 hlane).1 }
  | closedAlready => exact .inl (.refl s)
  | closes =>
    refine .inl (.trans ?_ (carries_spawn _ _))
    exact { Carries.refl s with
      requests := nofun, lanes := nofun, closed := fun _ => rfl }

end PeerSession
end YuriRtc
