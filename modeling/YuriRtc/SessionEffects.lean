import YuriRtc.SessionThreads
import YuriRtc.UploadLedger
/-!
# SessionEffects — who charges, who ends a body, who removes a request

For what a conforming page relies on it matters which step does a thing, not only that some step may.  Each lemma here
names the steps that touch one part of the session: the count of protocol violations (`step_violations`), the state of a
request (`step_changes`), the requests under their ids (`step_lookup`), and with both the requests that still take body
frames (`step_takes`).
-/
namespace YuriRtc

open AsyncRequestBody (close_closed consumes_step enqueue_ok)
namespace PeerSession

variable {s t : PeerSession} {env : Env} {c : Section} {e : SessionEvent} {id : Nat} {r : Ref}

/-! ### Violations -/

/-- The sections that end in `noteProtocolViolation`. -/
def AtFault (s : PeerSession) (env : Env) : Section → Prop
  | .discardRaced id lane _ e => (s.discardRacedRequestBodyError env id lane e).2 = false
  | .discardBody id lane isEnd => (s.discardRejectedRequestBody env id lane isEnd).2 = false
  | _ => False

/-- The frames that end in `noteProtocolViolation` at once. -/
def ChargingFrame (s : PeerSession) (env : Env) (lane : Nat) : PeerFrame → Prop
  | .undecodable | .response => True
  | .webSocket violates => violates = true
  | .credit id count => count = 0 ∨ ∃ r, s.requests.lookup id = some r ∧ (s.states r).lane ≠ lane
  | .req id size head => maxRequestHeadBytes < size ∨ head = none ∨
      (∃ h, head = some h ∧ validateRequestHead h ≠ none) ∨ s.requests.lookup id ≠ none ∨
      (s.pruneRejectedBodiesLocked env.now).rejectedBodies.lookup id ≠ none
  | .reqBody _ _ | .reqEnd _ | .cancel _ => False

theorem Buries.violations (h : Buries s t) : t.protocolViolations = s.protocolViolations := by
  obtain ⟨m, rfl⟩ := h.eq
  rfl

theorem noteProtocolViolation_closed (h : s.closed = true) :
    s.noteProtocolViolation.1.protocolViolations = s.protocolViolations := by
  unfold noteProtocolViolation
  rw [if_pos h]

theorem rejectProtocol_closed (h : s.closed = true) (env : Env) (id : Nat) (message code : String) :
    (s.rejectProtocol env id message code).protocolViolations = s.protocolViolations := by
  unfold rejectProtocol
  split <;> simp_all [sendBoundedError_violations, noteProtocolViolation_closed]

theorem Buries.closed (h : Buries s t) : t.closed = s.closed := by
  obtain ⟨m, rfl⟩ := h.eq
  rfl

theorem exec_violations (h : s.closed = true ∨ ¬ AtFault s env c) :
    (s.exec env c).1.protocolViolations = s.protocolViolations := by
  cases c with
  | enqueueBody id lane r payload =>
    simp only [exec]
    split <;> rfl
  | discardRaced id lane r e =>
    have hburies := buries_discardRaced s env id lane e
    simp only [exec]
    split
    · exact hburies.violations
    rename_i htook
    have hclosed : s.closed = true := h.resolve_right fun hnot => hnot (by simpa [AtFault] using htook)
    rw [rejectProtocol_closed (hburies.closed.trans hclosed), hburies.violations]
  | discardBody id lane isEnd =>
    have hburies := buries_discard s env id lane isEnd
    simp only [exec]
    split
    · exact hburies.violations
    rename_i htook
    have hclosed : s.closed = true := h.resolve_right fun hnot => hnot (by simpa [AtFault] using htook)
    rw [noteProtocolViolation_closed (hburies.closed.trans hclosed), hburies.violations]
  | dropTombstone id lane => exact (buries_discard s env id lane true).violations
  | cancelState id r allowTrailing timedOut =>
    simp only [exec]
    split
    · obtain ⟨tombstones, heq⟩ := removeRequest_eq s env id r allowTrailing
      rw [heq]
    · rfl
  | timeoutError id => exact sendBoundedError_violations s env id _ _
  | sendInitialCredits r =>
    simp only [exec]
    split <;> rfl
  | serve r =>
    simp only [exec]
    split
    · exact sendBoundedError_violations s env _ _ _
    · rfl
  | _ => rfl

theorem onMessage_violations {lane : Nat} {frame : PeerFrame}
    (h : s.closed = true ∨ ¬ ChargingFrame s env lane frame) :
    (s.onMessage env lane frame).1.protocolViolations = s.protocolViolations := by
  cases frame <;> simp only [onMessage]
  case undecodable => exact noteProtocolViolation_closed (h.resolve_right fun hnot => hnot trivial)
  case response => exact noteProtocolViolation_closed (h.resolve_right fun hnot => hnot trivial)
  case webSocket violates =>
    split
    · rename_i hviolates
      exact noteProtocolViolation_closed (h.resolve_right fun hnot => hnot hviolates)
    · rfl
  case credit id count =>
    split
    · rename_i hzero
      exact noteProtocolViolation_closed (h.resolve_right fun hnot => hnot (.inl hzero))
    split
    · rfl
    rename_i r hr
    split
    · rename_i hlane
      exact noteProtocolViolation_closed (h.resolve_right fun hnot => hnot (.inr ⟨r, hr, hlane⟩))
    · rfl
  case req id size head =>
    split
    · rename_i hsize
      exact rejectProtocol_closed (h.resolve_right fun hnot => hnot (.inl hsize)) env id _ _
    split
    · exact rejectProtocol_closed (h.resolve_right fun hnot => hnot (.inr (.inl rfl))) env id _ _
    rename_i head
    split
    · rename_i message hmessage
      refine rejectProtocol_closed (h.resolve_right fun hnot => hnot (.inr (.inr (.inl ⟨head, rfl, ?_⟩)))) env id _ _
      simp [hmessage]
    rcases begin_cases s env lane id head with ⟨-, hbegin⟩ | ⟨-, t, hbegin, hrefuses⟩
    · rw [hbegin]
      rfl
    rw [hbegin]
    refine hrefuses.violations (h.imp_right fun hnot => ⟨?_, ?_⟩)
    · exact not_not.1 fun hlive => hnot (.inr (.inr (.inr (.inl hlive))))
    · exact not_not.1 fun hdraining => hnot (.inr (.inr (.inr (.inr hdraining))))
  case reqBody id payload => grind [onMessage]
  case reqEnd id => grind [onMessage]
  case cancel id =>
    split <;> rfl

def Charges (s : PeerSession) : SessionEvent → Prop
  | .receive lane frame env => ChargingFrame s env lane frame
  | .laneGoesOn lane env => ∃ c others, s.rx lane = c :: others ∧ AtFault s env c
  | .taskGoesOn task env => ∃ c others, s.tasks task = c :: others ∧ AtFault s env c
  | .dispatch | .startPicked | .dropPicked | .timer _ _ | .consumer _ _ | .chunkConsumed _ _ | .handlerCloses _
  | .respond _ _ | .attach | .detachLane _ _ | .close => False

/-- **Only frames that are at fault, and body frames without a request or a tombstone, are charged.** -/
theorem step_violations (h : s.step e = some t) (he : s.closed = true ∨ ¬ Charges s e) :
    t.protocolViolations = s.protocolViolations := by
  cases step_becomes h with
  | receives lane frame env => exact onMessage_violations he
  | laneGoesOn lane env c others hrx => exact exec_violations (he.imp_right fun hnot hc => hnot ⟨c, others, hrx, hc⟩)
  | taskGoesOn task env c others htask => exact exec_violations (he.imp_right fun hnot hc => hnot ⟨c, others, htask, hc⟩)
  | timerFires r env => exact (buries_remember (s.timedOut r) env (s.states r).id (s.states r).lane).violations
  | _ => rfl

/-! ### The states of requests -/

theorem Buries.states (h : Buries s t) : t.states = s.states := by
  obtain ⟨m, rfl⟩ := h.eq
  rfl

theorem Reports.states (h : Reports id s t) : t.states = s.states := by
  obtain ⟨errors, v, c, p, rfl, -⟩ := h.eq
  rfl

variable (s)

theorem spawn_states (sections : List Section) : (s.spawn sections).states = s.states := rfl

inductive Touches (s : PeerSession) (env : Env) (r : Ref) : Section → RequestState → Prop
  | same (c : Section) : Touches s env r c (s.states r)
  | enqueues (id lane : Nat) (payload : Bytes) (st : RequestState)
    (h : (s.states r).enqueueRequestBody payload env.now = .ok st) : Touches s env r (.enqueueBody id lane r payload) st
  | ends : Touches s env r (.endBody r) (s.states r).endRequestBody
  | cancels : Touches s env r (.cancelContext r) (s.states r).cancelContext
  | stops : Touches s env r (.stopBody r) (s.states r).stopRequestBody
  | closes : Touches s env r (.closeBody r) { s.states r with body := (s.states r).body.close }
  | closesCurrent : Touches s env r (.closeCurrent r)
      { s.states r with body := ((s.states r).body.step .closeCurrent).getD (s.states r).body }
  | arms (deadline : Nat) : Touches s env r (.armTimer r) { s.states r with bodyDeadline := deadline }

theorem modify_states (r r' : Ref) (f : RequestState → RequestState) :
    (r = r' ∧ (s.modify r' f).states r = f (s.states r)) ∨ (s.modify r' f).states r = s.states r := by
  show (r = r' ∧ Function.update s.states r' (f (s.states r')) r = f (s.states r)) ∨
    Function.update s.states r' (f (s.states r')) r = s.states r
  by_cases hr : r = r' <;> simp_all

theorem exec_touches (env : Env) (r : Ref) (c : Section) :
    Touches s env r c ((s.exec env c).1.states r) := by
  -- a section that changes one state, for each reference
  have hmodify : ∀ r' f, (r = r' → Touches s env r c (f (s.states r))) →
      Touches s env r c ((s.modify r' f).states r) := fun r' f h => by
    rcases modify_states s r r' f with ⟨hr, heq⟩ | heq
    · rw [heq]
      exact h hr
    · rw [heq]
      exact .same c
  have hsame : ∀ {t : PeerSession}, t.states = s.states → Touches s env r c (t.states r) := fun h => by
    rw [h]
    exact .same c
  cases c <;> simp only [exec]
  case enqueueBody id lane r' payload =>
    split
    · rename_i st hst
      refine hmodify r' (fun _ => st) ?_
      rintro rfl
      exact .enqueues id lane payload st hst
    · exact .same _
  case discardRaced id lane r' e =>
    have hburies := buries_discardRaced s env id lane e
    split
    · exact hsame hburies.states
    · exact hsame ((reports_rejectProtocol _ env id _ _).states.trans hburies.states)
  case discardBody id lane isEnd =>
    have hburies := buries_discard s env id lane isEnd
    split
    · exact hsame hburies.states
    · exact hsame ((reports_noteProtocolViolation id _).states.trans hburies.states)
  case dropTombstone id lane => exact hsame (buries_discard s env id lane true).states
  case endBody r' =>
    apply hmodify
    rintro rfl
    exact .ends
  case cancelState id r' allowTrailing timedOut =>
    split
    · obtain ⟨tombstones, heq⟩ := removeRequest_eq s env id r' allowTrailing
      rw [heq]
      exact .same _
    · exact .same _
  case cancelContext r' =>
    apply hmodify
    rintro rfl
    exact .cancels
  case stopBody r' =>
    apply hmodify
    rintro rfl
    exact .stops
  case closeBody r' =>
    apply hmodify
    rintro rfl
    exact .closes
  case closeCurrent r' =>
    apply hmodify
    rintro rfl
    exact .closesCurrent
  case timeoutError id => exact hsame (reports_sendBoundedError s env id _ _).states
  case sendInitialCredits r' =>
    split <;> exact .same _
  case armTimer r' =>
    apply hmodify
    rintro rfl
    dsimp only
    split
    · exact .same _
    · exact .arms _
  case serve r' =>
    split
    · exact hsame (reports_sendBoundedError s env _ _ _).states
    · exact .same _
  case snapshot id r' => exact .same _
  case handlerExited nonInteractive => exact .same _

theorem onMessage_states (env : Env) (lane : Nat) (frame : PeerFrame) (hr : r < s.next) :
    (s.onMessage env lane frame).1.states r = s.states r := by
  have h := onMessage_handles s env lane frame
  generalize s.onMessage env lane frame = m at h ⊢
  cases h with
  | books id frame t h => rw [h.states]
  | refuses id size head t h =>
    obtain ⟨u, hburies, hreports⟩ := h.reports
    rw [hreports.states, hburies.states]
  | admits id size head => exact admitted_states_of_lt s env lane id head hr
  | _ => rfl

variable {s}

inductive Changes (s : PeerSession) (r : Ref) : SessionEvent → RequestState → Prop
  | same (e : SessionEvent) : Changes s r e (s.states r)
  | lane (lane : Nat) (env : Env) (c : Section) (others : List Section) (st : RequestState) (hrx : s.rx lane = c :: others)
    (h : Touches s env r c st) : Changes s r (.laneGoesOn lane env) st
  | task (task : Nat) (env : Env) (c : Section) (others : List Section) (st : RequestState)
    (htask : s.tasks task = c :: others) (h : Touches s env r c st) : Changes s r (.taskGoesOn task env) st
  | starts : Changes s r .startPicked { s.states r with started := true }
  | timesOut (env : Env) : Changes s r (.timer r env) { s.states r with bodyTimedOut := true, bodyEnded := true }
  | consumes (e : BodyEvent) (body : AsyncRequestBody) (hbody : (s.states r).hasBody = true)
    (he : isConsumerEvent e = true) (h : (s.states r).body.step e = some body) :
    Changes s r (.consumer r e) { s.states r with body := body }
  | chunkConsumed (env : Env) (next : Consumer) : Changes s r (.chunkConsumed r env)
      { (s.states r).requestBodyChunkConsumed.1 with
        body := { (s.states r).requestBodyChunkConsumed.1.body with consumer := next } }
  | handlerCloses : Changes s r (.handlerCloses r) { s.states r with body := (s.states r).body.close }

theorem step_changes (h : s.step e = some t) (hr : r < s.next) :
    Changes s r e (t.states r) := by
  have hmodify : ∀ r' f, (r = r' → Changes s r e (f (s.states r))) → Changes s r e ((s.modify r' f).states r) :=
    fun r' f h => by
      rcases modify_states s r r' f with ⟨hr, heq⟩ | heq
      · rw [heq]
        exact h hr
      · rw [heq]
        exact .same e
  have hconsumed : ∀ r' env next, e = .chunkConsumed r' env → Changes s r e ((s.consumed r' next).states r) := by
    rintro r' env next rfl
    apply hmodify
    rintro rfl
    exact .chunkConsumed env next
  cases step_becomes h with
  | receives lane frame env =>
    show Changes s r _ ((s.onMessage env lane frame).1.states r)
    rw [onMessage_states s env lane frame hr]
    exact .same _
  | laneGoesOn lane env c others hrx => exact .lane lane env c others _ hrx (exec_touches s env r c)
  | taskGoesOn task env c others htask => exact .task task env c others _ htask (exec_touches s env r c)
  | starts r' active =>
    refine hmodify r' (fun st => { st with started := true }) ?_
    rintro rfl
    exact .starts
  | timerLate r' env =>
    apply hmodify
    rintro rfl
    exact .timesOut env
  | timerFires r' env =>
    rw [spawn_states, (buries_remember _ env _ _).states]
    apply hmodify
    rintro rfl
    exact .timesOut env
  | consumes r' e body _ hbody he hstep =>
    apply hmodify
    rintro rfl
    exact .consumes e body hbody he hstep
  | chunkKept r' env next => exact hconsumed r' env next rfl
  | chunkGranted r' env next => exact hconsumed r' env next rfl
  | chunkRefused r' env next => exact hconsumed r' env next rfl
  | handlerCloses r' =>
    refine hmodify r' (fun st => { st with body := st.body.close }) ?_
    rintro rfl
    exact .handlerCloses
  | _ => exact .same _

/-! ### Requests under their ids -/

theorem Buries.requests (h : Buries s t) : t.requests = s.requests := by
  obtain ⟨m, rfl⟩ := h.eq
  rfl

theorem Reports.requests (h : Reports id s t) : t.requests = s.requests := by
  obtain ⟨errors, v, c, p, rfl, -⟩ := h.eq
  rfl

def CancelsState (r : Ref) : Section → Prop
  | .cancelState _ r' _ _ => r' = r
  | _ => False

theorem exec_lookup (hlive : s.requests.lookup id = some r) (h : ¬ CancelsState r c) :
    (s.exec env c).1.requests.lookup id = some r := by
  have hdoes := exec_does s env c
  generalize (s.exec env c).1 = t at hdoes ⊢
  cases hdoes with
  | answers _ id' u t hburies hreports => rwa [hreports.requests, hburies.requests]
  | removes id' r' allowTrailing timedOut env' hlookup =>
    have hne : id ≠ id' := fun heq => h (Option.some.inj (hlookup.symm.trans (heq ▸ hlive)))
    obtain ⟨tombstones, heq⟩ := removeRequest_eq s env' id' r' allowTrailing
    simp_all
  | _ => exact hlive

theorem onMessage_lookup {lane : Nat} {frame : PeerFrame}
    (hlive : s.requests.lookup id = some r) : (s.onMessage env lane frame).1.requests.lookup id = some r := by
  have h := onMessage_handles s env lane frame
  generalize s.onMessage env lane frame = m at h ⊢
  cases h with
  | books id' frame t h => rwa [h.requests]
  | refuses id' size head t h =>
    obtain ⟨u, hburies, hreports⟩ := h.reports
    rwa [hreports.requests, hburies.requests]
  | admits id' size head _ _ hadmits =>
    have hne : id ≠ id' := fun heq => by
      have hnone := hadmits.notLive
      grind
    show (s.requests.insert id' s.next).lookup id = some r
    rwa [AList.lookup_insert_ne hne]
  | _ => exact hlive

def Removes (s : PeerSession) (r : Ref) : SessionEvent → Prop
  | .laneGoesOn lane _ => ∃ c others, s.rx lane = c :: others ∧ CancelsState r c
  | .taskGoesOn task _ => ∃ c others, s.tasks task = c :: others ∧ CancelsState r c
  | .close => True
  | .receive _ _ _ | .dispatch | .startPicked | .dropPicked | .timer _ _ | .consumer _ _ | .chunkConsumed _ _
  | .handlerCloses _ | .respond _ _ | .attach | .detachLane _ _ => False

theorem step_lookup (h : s.step e = some t)
    (hlive : s.requests.lookup id = some r) (he : ¬ Removes s r e) : t.requests.lookup id = some r := by
  cases step_becomes h with
  | receives lane frame env => exact onMessage_lookup hlive
  | laneGoesOn lane env c others hrx => exact exec_lookup hlive fun hc => he ⟨c, others, hrx, hc⟩
  | taskGoesOn task env c others htask => exact exec_lookup hlive fun hc => he ⟨c, others, htask, hc⟩
  | timerFires r' env =>
    have hburies := buries_remember (s.timedOut r') env (s.states r').id (s.states r').lane
    exact hburies.requests ▸ hlive
  | closedAlready => exact hlive
  | closes => exact absurd trivial he
  | _ => exact hlive

theorem step_dead (h : s.step e = some t) (hr : r < s.next) (hlive : t.isLive r = true) : s.isLive r = true := by
  rw [isLive_iff, ((step_keeps h).same r hr).id] at hlive
  rw [isLive_iff]
  rcases step_carries_or_admits h with hc | ⟨lane, id, size, head, env, -, -, -, -, rx, rfl⟩
  · exact hc.requests _ _ hlive
  · change (s.requests.insert id s.next).lookup _ = some r at hlive
    grind [AList.lookup_insert, AList.lookup_insert_ne]

/-! ### Requests that take body frames -/

@[mk_iff]
structure Takes (s : PeerSession) (r : Ref) : Prop where
  live : s.isLive r = true
  notEnded : (s.states r).bodyEnded = false
  notClosed : (s.states r).body.closed = false

instance (s : PeerSession) (r : Ref) : Decidable (Takes s r) := decidable_of_iff' _ (takes_iff s r)

theorem closeCurrent_closed (b : AsyncRequestBody) : ((b.step .closeCurrent).getD b).closed = b.closed := by
  simp only [AsyncRequestBody.step]
  split
  · rfl
  show b.closeCurrent.closed = b.closed
  unfold AsyncRequestBody.closeCurrent
  split <;> rfl

theorem requestBodyChunkConsumed_upload (st : RequestState) :
    st.requestBodyChunkConsumed.1.bodyEnded = st.bodyEnded ∧
      st.requestBodyChunkConsumed.1.body.closed = st.body.closed ∧
      st.requestBodyChunkConsumed.1.bodyBytes = st.bodyBytes := by grind [RequestState.requestBodyChunkConsumed]

def StopsIn (r : Ref) : Section → Prop
  | .endBody r' | .stopBody r' | .closeBody r' | .cancelState _ r' _ _ => r' = r
  | _ => False

theorem Touches.takes {st : RequestState} (h : Touches s env r c st)
    (hstops : ¬ StopsIn r c) : st.bodyEnded = (s.states r).bodyEnded ∧ st.body.closed = (s.states r).body.closed := by
  cases h with
  | enqueues id lane payload st hst =>
    obtain ⟨-, -, -, body, hbody, rfl⟩ := RequestState.enqueueRequestBody_ok hst
    obtain ⟨-, -, chunks, -, rfl⟩ := enqueue_ok hbody
    exact ⟨rfl, rfl⟩
  | ends | stops | closes => exact absurd rfl hstops
  | closesCurrent => exact ⟨rfl, closeCurrent_closed _⟩
  | same | cancels | arms => exact ⟨rfl, rfl⟩

theorem Touches.stopped {st : RequestState} (h : Touches s env r c st) :
    (st.bodyEnded = false → (s.states r).bodyEnded = false) ∧
      (st.body.closed = false → (s.states r).body.closed = false) := by
  cases h with
  | enqueues id lane payload st hst =>
    obtain ⟨-, -, -, body, hbody, rfl⟩ := RequestState.enqueueRequestBody_ok hst
    obtain ⟨-, -, chunks, -, rfl⟩ := enqueue_ok hbody
    exact ⟨fun h => h, fun h => h⟩
  | ends =>
    unfold RequestState.endRequestBody AsyncRequestBody.endBody
    split
    · exact ⟨fun h => h, fun h => h⟩
    grind
  | stops => exact ⟨nofun, fun h => h⟩
  | closes =>
    refine ⟨fun h => h, fun h => ?_⟩
    cases (close_closed _).symm.trans h
  | closesCurrent => exact ⟨fun h => h, fun h => (closeCurrent_closed _).symm.trans h⟩
  | same | cancels | arms => exact ⟨fun h => h, fun h => h⟩

def Stops (s : PeerSession) (r : Ref) : SessionEvent → Prop
  | .laneGoesOn lane _ => ∃ c others, s.rx lane = c :: others ∧ StopsIn r c
  | .taskGoesOn task _ => ∃ c others, s.tasks task = c :: others ∧ StopsIn r c
  | .timer r' _ | .handlerCloses r' => r' = r
  | .receive _ _ _ | .dispatch | .startPicked | .dropPicked | .consumer _ _ | .chunkConsumed _ _ | .respond _ _ | .attach
  | .detachLane _ _ | .close => False

theorem stopsIn_of_cancelsState : ∀ {c : Section}, CancelsState r c → StopsIn r c
  | .cancelState _ _ _ _, h => h

theorem step_takes (hb : Booked s) (hs : s.step e = some t)
    (hr : r < s.next) (h : Takes s r) (hopen : t.closed = false) (hstops : ¬ Stops s r e) : Takes t r := by
  have hremoves : ¬ Removes s r e := fun hremoves => by
    cases e with
    | laneGoesOn lane env =>
      obtain ⟨c, others, hrx, hc⟩ := hremoves
      exact hstops ⟨c, others, hrx, stopsIn_of_cancelsState hc⟩
    | taskGoesOn task env =>
      obtain ⟨c, others, htask, hc⟩ := hremoves
      exact hstops ⟨c, others, htask, stopsIn_of_cancelsState hc⟩
    | close =>
      cases step_becomes hs with
      | closedAlready hclosed => cases hopen.symm.trans hclosed
      | closes => cases hopen
    | _ => exact hremoves
  have hlive : t.isLive r = true := by
    rw [isLive_iff, ((step_keeps hs).same r hr).id]
    exact step_lookup hs (isLive_iff.1 h.live) hremoves
  have hupload : (t.states r).bodyEnded = (s.states r).bodyEnded ∧ (t.states r).body.closed = (s.states r).body.closed := by
    have hchanges := step_changes hs hr
    generalize t.states r = st at hchanges ⊢
    cases hchanges with
    | lane lane env c others st hrx hc => exact hc.takes fun hstop => hstops ⟨c, others, hrx, hstop⟩
    | task task env c others st htask hc => exact hc.takes fun hstop => hstops ⟨c, others, htask, hstop⟩
    | timesOut | handlerCloses => exact absurd rfl hstops
    | consumes e body hbody he hstep =>
      exact ⟨rfl, (consumes_step he (hb r hr hbody).placed hstep).closed⟩
    | chunkConsumed env next =>
      obtain ⟨hended, hclosed, -⟩ := requestBodyChunkConsumed_upload (s.states r)
      exact ⟨hended, hclosed⟩
    | same | starts => exact ⟨rfl, rfl⟩
  exact ⟨hlive, hupload.1.trans h.notEnded, hupload.2.trans h.notClosed⟩

theorem step_stopped (hb : Booked s) (hs : s.step e = some t) (hr : r < s.next) (h : Takes t r) : Takes s r := by
  have hupload : ((t.states r).bodyEnded = false → (s.states r).bodyEnded = false) ∧
      ((t.states r).body.closed = false → (s.states r).body.closed = false) := by
    have hchanges := step_changes hs hr
    generalize t.states r = st at hchanges ⊢
    cases hchanges with
    | lane lane env c others st hrx hc => exact hc.stopped
    | task task env c others st htask hc => exact hc.stopped
    | timesOut => exact ⟨nofun, fun h => h⟩
    | handlerCloses =>
      refine ⟨fun h => h, fun h => ?_⟩
      cases (close_closed _).symm.trans h
    | consumes e body hbody he hstep =>
      have hclosed := (consumes_step he (hb r hr hbody).placed hstep).closed
      exact ⟨fun h => h, fun h => hclosed.symm.trans h⟩
    | chunkConsumed env next =>
      obtain ⟨hended, hclosed, -⟩ := requestBodyChunkConsumed_upload (s.states r)
      exact ⟨fun h => hended.symm.trans h, fun h => hclosed.symm.trans h⟩
    | same | starts => exact ⟨fun h => h, fun h => h⟩
  exact ⟨step_dead hs hr h.live, hupload.1 h.notEnded, hupload.2 h.notClosed⟩

/-! ### Lanes -/

/-- **A lane's goroutine is at one frame at a time**: behind its next section there is nothing more to receive. -/
def OneFrame (s : PeerSession) : Prop := ∀ lane, ∀ c ∈ (s.rx lane).tail, c.isReceiving = false

theorem exec_tail {c c' : Section} (h : c' ∈ (s.exec env c).2.tail) : c'.isReceiving = false := by
  cases c with
  | enqueueBody | discardRaced | cancelContext | sendInitialCredits => grind [exec]
  | cancelState id r allowTrailing timedOut =>
    simp only [exec] at h
    split at h
    · rw [List.tail_cons] at h
      split at h
      · rw [List.mem_singleton.1 h]
        rfl
      · cases h
    · cases h
  | _ => cases h

theorem onMessage_tail (s : PeerSession) (env : Env) (lane : Nat) (frame : PeerFrame) :
    (s.onMessage env lane frame).2.tail = [] := by
  have h := onMessage_handles s env lane frame
  generalize s.onMessage env lane frame = m at h ⊢
  cases h with
  | admits =>
    dsimp only
    split <;> rfl
  | _ => rfl

theorem OneFrame.newPeerSession : OneFrame newPeerSession := nofun

theorem OneFrame.step (h : OneFrame s) (hs : s.step e = some t) : OneFrame t := by
  intro l c hc
  by_cases hlane : isLaneEvent e = true
  · cases step_becomes hs with
    | receives lane frame env =>
      change c ∈ (Function.update (s.onMessage env lane frame).1.rx lane _ l).tail at hc
      by_cases hl : l = lane
      · grind [onMessage_tail]
      · rw [Function.update_of_ne hl, (onMessage_sameThreads s env lane frame).1] at hc
        exact h l c hc
    | laneGoesOn lane env first others hrx =>
      change c ∈ (Function.update (s.exec env first).1.rx lane _ l).tail at hc
      by_cases hl : l = lane
      · have hothers : ∀ c ∈ others, c.isReceiving = false := fun c hc => h lane c (by rw [hrx]; exact hc)
        rw [hl, Function.update_self] at hc
        have htail : ∀ c' ∈ (s.exec env first).2.tail, c'.isReceiving = false := fun _ hc' => exec_tail hc'
        generalize (s.exec env first).2 = next at hc htail
        cases next with
        | nil => exact hothers c (List.mem_of_mem_tail hc)
        | cons c' next => grind
      · rw [Function.update_of_ne hl, (exec_sameThreads s env first).1] at hc
        exact h l c hc
    | _ => cases hlane
  · rw [step_rx hs (by simpa using hlane)] at hc
    exact h l c hc

def LanesBelow (s : PeerSession) : Prop := ∀ lane ∈ s.lanes, lane < s.nextLane

theorem LanesBelow.newPeerSession : LanesBelow newPeerSession := nofun

theorem LanesBelow.step (h : LanesBelow s) (hs : s.step e = some t) :
    LanesBelow t := fun lane hlane => by
  rcases step_carries_or_admits hs with hc | ⟨l, id, size, head, env, -, -, -, -, rx, rfl⟩
  · rcases hc.lanes lane hlane with hold | ⟨-, hnew⟩
    · exact lt_of_lt_of_le (h lane hold) hc.nextLane
    · exact hnew
  · exact h lane hlane

end PeerSession
end YuriRtc
