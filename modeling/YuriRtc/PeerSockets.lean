import YuriRtc.CarriedSocket
import YuriRtc.SessionEffects
import YuriRtc.SessionTombstones
/-!
# PeerSockets — the sockets of a session beside its requests

`sockets` of a `PeerSession` with the ways in (`beginWebSocket`, from `content-node/websocket.go`) and out
(`forgetWebSocket`, `Close`), over the machine of `PeerSession`.  A frame may come at any time, also while its lane is being
detached or after that: `OnMessage` and `detachLane` only exclude each other by `s.mu`.  What a stream's own goroutines do
until they forget it is in `CarriedSocket`; here a stream is its id and its lane.  The clock does not run backwards.

`Proceeds` says once what every step keeps of the tables and of the goroutines.
-/
namespace YuriRtc

open Function (update update_of_ne)

def maxWebSocketsPerPeer : Nat := 8

/-- `webSocketStream`. -/
structure CarriedStream where
  id : Nat
  lane : Nat
deriving DecidableEq, Repr

/-- `WebSocketOpen`; `refusal` is the error `webSocketTarget` has for its URL. -/
structure WebSocketOpen where
  version : Nat
  initialCredits : Nat
  refusal : Option String
deriving DecidableEq, Repr

/-- `detachTask` is the goroutine that detached a lane. -/
structure NodePeer where
  session : PeerSession
  sockets : AList (fun _ : Nat => Nat)
  streams : Nat → CarriedStream
  nextStream : Nat
  detachTask : Nat → Option Nat
  clock : Nat

inductive PeerEvent where
  | receive (lane : Nat) (frame : PeerFrame) (env : Env)
  /-- a `WsOpen` frame, with the error of a payload that cannot be read. -/
  | openSocket (lane id : Nat) (payload : String ⊕ WebSocketOpen) (env : Env)
  | forget (stream : Nat)
  | detachLane (lane : Nat) (control : Bool)
  | goesOn (e : PeerSession.SessionEvent)
deriving DecidableEq, Repr

namespace NodePeer

def newNodePeer : NodePeer := ⟨.newPeerSession, ∅, fun _ => ⟨0, 0⟩, 0, fun _ => none, 0⟩

def socketOnLane (p : NodePeer) (id lane : Nat) : Option Nat :=
  match p.sockets.lookup id with
  | none => none
  | some k => if (p.streams k).lane = lane then some k else none

/-- `OnMessage`: the credit of a socket is not looked up among the requests. -/
def onMessage (p : NodePeer) (env : Env) (lane : Nat) (frame : PeerFrame) : PeerSession × List Section :=
  match frame with
  | .credit id count =>
    if count ≠ 0 ∧ (p.socketOnLane id lane).isSome then (p.session, []) else p.session.onMessage env lane frame
  | frame => p.session.onMessage env lane frame

/-- `beginWebSocket`, up to where it lets go of `s.mu`. -/
def beginWebSocket (p : NodePeer) (env : Env) (lane id : Nat) (payload : String ⊕ WebSocketOpen) : NodePeer :=
  let reject := fun message code => { p with session := p.session.rejectProtocol env id message code }
  match payload with
  | .inl message => reject message "BAD_REQUEST"
  | .inr opening =>
    if opening.version ≠ protocolVersion then reject "unsupported protocol version" "UNSUPPORTED_PROTOCOL"
    else if opening.initialCredits < 1 ∨ maxWebSocketCredits < opening.initialCredits then
      reject "invalid websocket credit window" "BAD_REQUEST"
    else
      match opening.refusal with
      | some message => reject message "BAD_REQUEST"
      | none =>
        if p.session.closed then p
        else if (p.session.requests.lookup id).isSome ∨ (p.sockets.lookup id).isSome then
          { p with session := p.session.noteProtocolViolation.1 }
        else if maxWebSocketsPerPeer ≤ p.sockets.entries.length then reject "too many open websockets" "CAPACITY"
        else
          { p with
            sockets := p.sockets.insert id p.nextStream
            streams := update p.streams p.nextStream ⟨id, lane⟩
            nextStream := p.nextStream + 1 }

def forgetWebSocket (p : NodePeer) (k : Nat) : NodePeer :=
  if p.sockets.lookup (p.streams k).id = some k then { p with sockets := p.sockets.erase (p.streams k).id } else p

def readsClock : PeerSession.SessionEvent → Option Nat
  | .receive _ _ env | .laneGoesOn _ env | .taskGoesOn _ env | .timer _ env | .chunkConsumed _ env => some env.now
  | .dispatch | .startPicked | .dropPicked | .consumer _ _ | .handlerCloses _ | .respond _ _ | .attach
  | .detachLane _ _ | .close => none

def step (p : NodePeer) : PeerEvent → Option NodePeer
  | .receive lane frame env =>
    if p.session.rx lane = [] ∧ lane < p.session.nextLane ∧ p.clock ≤ env.now then
      let handled := p.onMessage env lane frame
      some { p with
        session := { handled.1 with rx := update handled.1.rx lane handled.2 }
        clock := env.now }
    else none
  | .openSocket lane id payload env =>
    if p.session.rx lane = [] ∧ lane < p.session.nextLane ∧ p.clock ≤ env.now then
      some { p.beginWebSocket env lane id payload with clock := env.now }
    else none
  | .forget k => if k < p.nextStream then some (p.forgetWebSocket k) else none
  | .detachLane lane control =>
    if lane ∈ p.session.lanes then
      some { p with
        session := p.session.detachLane lane control
        detachTask := update p.detachTask lane (some p.session.nextTask) }
    else none
  | .goesOn e =>
    match e with
    | .receive _ _ _ | .detachLane _ _ => none
    | e =>
      if p.clock ≤ (readsClock e).getD p.clock then
        (p.session.step e).map fun session => { p with
          session := session
          sockets := if e = .close then ∅ else p.sockets
          clock := (readsClock e).getD p.clock }
      else none

end NodePeer

/-! ### What a step of the session keeps -/

namespace PeerSession

variable {s t : PeerSession} {c : Section}

/-- **A goroutine that is to cancel a request stays until that is done**, and one that has ended stays so. -/
structure Runs (s t : PeerSession) : Prop where
  waits : ∀ task < s.nextTask, ∀ id r allowTrailing timedOut, .cancelState id r allowTrailing timedOut ∈ s.tasks task →
    .cancelState id r allowTrailing timedOut ∈ t.tasks task ∨ t.requests.lookup id ≠ some r
  ended : ∀ task < s.nextTask, s.tasks task = [] → t.tasks task = []
  nextTask : s.nextTask ≤ t.nextTask
  fresh : (∀ task ≥ s.nextTask, s.tasks task = []) → ∀ task ≥ t.nextTask, t.tasks task = []

theorem Runs.of_tasks (htasks : t.tasks = s.tasks) (hnext : t.nextTask = s.nextTask) : Runs s t where
  waits task _ id r allowTrailing timedOut h := .inl (htasks ▸ h)
  ended task _ h := htasks ▸ h
  nextTask := le_of_eq hnext.symm
  fresh h := by rwa [htasks, hnext]

theorem Runs.of_spawn {u : PeerSession} (htasks : u.tasks = s.tasks) (hnext : u.nextTask = s.nextTask)
    (sections : List Section) : Runs s (u.spawn sections) := by
  have hold : ∀ task ≠ s.nextTask, (u.spawn sections).tasks task = s.tasks task := fun task hne => by
    rw [← htasks]
    exact update_of_ne (fun heq => hne (heq.trans hnext)) _ _
  refine ⟨fun task hlt id r allowTrailing timedOut h => .inl ?_, fun task hlt h => ?_, ?_, fun h task hge => ?_⟩
  · rwa [hold task (ne_of_lt hlt)]
  · rwa [hold task (ne_of_lt hlt)]
  · exact hnext ▸ Nat.le_succ u.nextTask
  · have hgt : s.nextTask < task := hnext ▸ Nat.lt_of_succ_le hge
    grind

theorem mem_spawn_self (s : PeerSession) {sections : List Section} (h : c ∈ sections) :
    c ∈ (s.spawn sections).tasks s.nextTask := by
  simp only [spawn, Function.update_self]
  exact h

theorem exec_cancelState (s : PeerSession) (env : Env) (id : Nat) (r : Ref) (allowTrailing timedOut : Bool) :
    (s.exec env (.cancelState id r allowTrailing timedOut)).1.requests.lookup id ≠ some r := by
  simp only [exec]
  split
  · obtain ⟨tombstones, h⟩ := removeRequest_eq s env id r allowTrailing
    simp [h, AList.lookup_erase]
  · rename_i hgone
    exact hgone

theorem runs_taskGoesOn {task : Nat} {others : List Section} (env : Env)
    (htask : s.tasks task = c :: others) : Runs s { (s.exec env c).1 with
      tasks := update (s.exec env c).1.tasks task ((s.exec env c).2 ++ others) } := by
  have htasks := (exec_sameThreads s env c).2
  have hnext := (exec_within s env c).nextTask
  have hother : ∀ task' ≠ task, update (s.exec env c).1.tasks task ((s.exec env c).2 ++ others) task' = s.tasks task' :=
    fun task' hne => by rw [update_of_ne hne, htasks]
  refine ⟨fun task' _ id r allowTrailing timedOut hmem => ?_, fun task' _ hnil => ?_, le_of_eq hnext.symm, fun h task' hge => ?_⟩
  · by_cases hsame : task' = task
    · subst hsame
      rw [htask] at hmem
      rcases List.mem_cons.1 hmem with rfl | hrest
      · exact .inr (exec_cancelState s env id r allowTrailing timedOut)
      · simp_all
    · simp_all
  · grind
  · grind

/-- **Where a tombstone comes from**: it is an old one, or that of a request that is gone now or about to be cancelled. -/
def TombstonesFrom (s t : PeerSession) : Prop := ∀ id tombstone, t.rejectedBodies.lookup id = some tombstone →
  (∃ old, s.rejectedBodies.lookup id = some old ∧ tombstone.expires = old.expires) ∨
    ∃ r, s.requests.lookup id = some r ∧
      (t.requests.lookup id = none ∨ ∃ task, Section.cancelState id r false true ∈ t.tasks task)

theorem Retains.tombstonesFrom (h : Retains s.rejectedBodies t.rejectedBodies) : TombstonesFrom s t :=
  fun id tombstone hlookup => by
    obtain ⟨old, hold, -, hexpires⟩ := h id tombstone hlookup
    exact .inl ⟨old, hold, hexpires⟩

theorem exec_tombstones {env : Env} {id : Nat} {tombstone : RejectedBodyTombstone}
    (h : (s.exec env c).1.rejectedBodies.lookup id = some tombstone) :
    (∃ old, s.rejectedBodies.lookup id = some old ∧ tombstone.expires = old.expires) ∨
      ∃ r, s.requests.lookup id = some r ∧ (s.exec env c).1.requests.lookup id = none := by
  by_cases hcancel : ∃ id r allowTrailing timedOut, c = .cancelState id r allowTrailing timedOut
  · obtain ⟨id', r, allowTrailing, timedOut, rfl⟩ := hcancel
    simp only [exec] at h ⊢
    split at h
    · rename_i hlive
      rw [if_pos hlive]
      simp only [removeRequest] at h ⊢
      split at h
      · rename_i hremembers
        rw [if_pos hremembers]
        by_cases hid : id = id'
        · refine .inr ⟨r, hid ▸ hlive, ?_⟩
          rw [(buries_remember _ env id' _).requests, hid]
          exact AList.lookup_erase _ _
        · obtain ⟨old, hold, -, hexpires⟩ := retains_remember hid h
          exact .inl ⟨old, hold, hexpires⟩
      · exact .inl ⟨tombstone, h, rfl⟩
    · exact .inl ⟨tombstone, h, rfl⟩
  · push Not at hcancel
    obtain ⟨old, hold, -, hexpires⟩ := exec_retains s env c hcancel id tombstone h
    exact .inl ⟨old, hold, hexpires⟩

theorem timer_tombstonesFrom {r : Ref} (env : Env) (hlive : s.isLive r = true) :
    TombstonesFrom s (((s.timedOut r).rememberRejectedBodyLocked env (s.states r).id (s.states r).lane).spawn
      [.cancelState (s.states r).id r false true]) := fun id tombstone hlookup => by
  by_cases hid : id = (s.states r).id
  · rw [hid]
    exact .inr ⟨r, isLive_iff.1 hlive, .inr ⟨_, mem_spawn_self _ (List.mem_singleton_self _)⟩⟩
  · obtain ⟨old, hold, -, hexpires⟩ := retains_remember (s := s.timedOut r) hid hlookup
    exact .inl ⟨old, hold, hexpires⟩

structure Proceeds (s t : PeerSession) : Prop where
  goes : Carries s t ∨ ∃ env lane id head rx, Admits s env lane id head ∧ t = { s.admitted env lane id head with rx := rx }
  tombstones : TombstonesFrom s t
  runs : Runs s t

theorem onMessage_within (s : PeerSession) (env : Env) (lane : Nat) (frame : PeerFrame) :
    (s.onMessage env lane frame).1.nextTask = s.nextTask ∧ (s.onMessage env lane frame).1.lanes = s.lanes := by
  have h := onMessage_handles s env lane frame
  generalize s.onMessage env lane frame = m at h ⊢
  cases h with
  | books id frame t h => exact ⟨h.within.nextTask, h.within.lanes⟩
  | refuses id size head t h =>
    obtain ⟨u, hburies, hreports⟩ := h.reports
    have hwithin := hburies.within.trans hreports.within
    exact ⟨hwithin.nextTask, hwithin.lanes⟩
  | _ => exact ⟨rfl, rfl⟩

theorem step_lanes {e : SessionEvent} (h : s.step e = some t)
    (hdetach : ∀ lane control, e ≠ .detachLane lane control) {lane : Nat} (hlane : lane ∈ s.lanes) :
    lane ∈ t.lanes ∨ e = .close ∧ t.requests = ∅ := by
  cases step_becomes h with
  | receives lane' frame env => exact .inl ((onMessage_within s env lane' frame).2.symm ▸ hlane)
  | laneGoesOn _ env c => exact .inl ((exec_within s env c).lanes.symm ▸ hlane)
  | taskGoesOn _ env c => exact .inl ((exec_within s env c).lanes.symm ▸ hlane)
  | timerFires r env =>
    exact .inl ((buries_remember (s.timedOut r) env (s.states r).id (s.states r).lane).within.lanes.symm ▸ hlane)
  | attaches => exact .inl (List.mem_cons_of_mem _ hlane)
  | detaches lane' control => exact absurd rfl (hdetach lane' control)
  | closes => exact .inr ⟨rfl, rfl⟩
  | _ => exact .inl hlane

theorem onMessage_proceeds (s : PeerSession) (env : Env) (lane : Nat) (frame : PeerFrame) (rx : Nat → List Section) :
    Proceeds s { (s.onMessage env lane frame).1 with rx := rx } where
  goes := by
    rcases onMessage_carries_or_admits s env lane frame with hc | ⟨id, size, head, -, -, -, hadmits, heq⟩
    · exact .inl (hc.withThreads _ _)
    · exact .inr ⟨env, lane, id, head, rx, hadmits, by rw [heq]⟩
  tombstones := (retains_onMessage s env lane frame).tombstonesFrom
  runs := .of_tasks (onMessage_sameThreads s env lane frame).2 (onMessage_within s env lane frame).1

theorem step_proceeds {e : SessionEvent} (h : s.step e = some t) : Proceeds s t := by
  have hgoes : Carries s t ∨
      ∃ env lane id head rx, Admits s env lane id head ∧ t = { s.admitted env lane id head with rx := rx } := by
    rcases step_carries_or_admits h with hc | ⟨lane, id, size, head, env, -, -, -, hadmits, rx, heq⟩
    · exact .inl hc
    · exact .inr ⟨env, lane, id, head, rx, hadmits, heq⟩
  cases step_becomes h with
  | receives lane frame env => exact onMessage_proceeds s env lane frame _
  | laneGoesOn lane env c others hrx =>
    refine ⟨hgoes, fun id tombstone hlookup => ?_, .of_tasks (exec_sameThreads s env c).2 ((exec_within s env c).nextTask)⟩
    exact (exec_tombstones hlookup).imp_right fun ⟨r, hr, hgone⟩ => ⟨r, hr, .inl hgone⟩
  | taskGoesOn task env c others htask =>
    refine ⟨hgoes, fun id tombstone hlookup => ?_, runs_taskGoesOn env htask⟩
    exact (exec_tombstones hlookup).imp_right fun ⟨r, hr, hgone⟩ => ⟨r, hr, .inl hgone⟩
  | timerFires r env hr hbody hlive =>
    have hsame := (buries_remember (s.timedOut r) env (s.states r).id (s.states r).lane).within.sameThreads
    have hnext := (buries_remember (s.timedOut r) env (s.states r).id (s.states r).lane).within.nextTask
    exact ⟨hgoes, timer_tombstonesFrom env hlive, .of_spawn (s := s) hsame.2 hnext _⟩
  | closes => exact ⟨hgoes, nofun, .of_spawn (by rfl) (by rfl) _⟩
  | starts | chunkRefused | handlerCloses | detaches =>
    exact ⟨hgoes, Retains.tombstonesFrom (.refl _), .of_spawn (by rfl) (by rfl) _⟩
  | _ => exact ⟨hgoes, Retains.tombstonesFrom (.refl _), .of_tasks rfl rfl⟩

end PeerSession

/-! ### What a step of the peer does -/

namespace NodePeer

open PeerSession (SessionEvent Proceeds)

inductive Becomes (p : NodePeer) : PeerEvent → NodePeer → Prop
  | receives (lane : Nat) (frame : PeerFrame) (env : Env) (hclock : p.clock ≤ env.now) (rx : Nat → List Section) :
    Becomes p (.receive lane frame env)
      { p with session := { (p.onMessage env lane frame).1 with rx := rx }, clock := env.now }
  | opens (lane id : Nat) (payload : String ⊕ WebSocketOpen) (env : Env) (hclock : p.clock ≤ env.now) :
    Becomes p (.openSocket lane id payload env) { p.beginWebSocket env lane id payload with clock := env.now }
  | forgets (k : Nat) : Becomes p (.forget k) (p.forgetWebSocket k)
  | detaches (lane : Nat) (control : Bool) (hlane : lane ∈ p.session.lanes) : Becomes p (.detachLane lane control)
      { p with
        session := p.session.detachLane lane control
        detachTask := update p.detachTask lane (some p.session.nextTask) }
  | goesOn (e : SessionEvent) (session : PeerSession) (now : Nat) (hstep : p.session.step e = some session)
    (hclock : p.clock ≤ now) (hreceive : ∀ lane frame env, e ≠ .receive lane frame env)
    (hdetach : ∀ lane control, e ≠ .detachLane lane control) : Becomes p (.goesOn e)
      { p with session := session, sockets := if e = .close then ∅ else p.sockets, clock := now }

theorem step_becomes {p q : NodePeer} {e : PeerEvent} (h : p.step e = some q) : Becomes p e q := by
  cases e with
  | receive lane frame env =>
    obtain ⟨hguard, rfl⟩ := Steps.of_guard h
    exact .receives lane frame env hguard.2.2 _
  | openSocket lane id payload env =>
    obtain ⟨hguard, rfl⟩ := Steps.of_guard h
    exact .opens lane id payload env hguard.2.2
  | forget k =>
    obtain ⟨-, rfl⟩ := Steps.of_guard h
    exact .forgets k
  | detachLane lane control =>
    obtain ⟨hlane, rfl⟩ := Steps.of_guard h
    exact .detaches lane control hlane
  | goesOn e =>
    simp only [step] at h
    split at h
    · cases h
    · cases h
    rename_i hreceive hdetach
    split at h
    · rename_i hclock
      obtain ⟨session, hsession, rfl⟩ := Option.map_eq_some_iff.1 h
      exact .goesOn e session _ hsession hclock hreceive hdetach
    · cases h

theorem beginWebSocket_cases (p : NodePeer) (env : Env) (lane id : Nat) (payload : String ⊕ WebSocketOpen) :
    (∃ session, PeerSession.Reports id p.session session ∧ p.beginWebSocket env lane id payload = { p with session := session }) ∨
      (p.session.closed = false ∧ p.session.requests.lookup id = none ∧ p.sockets.lookup id = none ∧
        p.beginWebSocket env lane id payload = { p with
          sockets := p.sockets.insert id p.nextStream
          streams := update p.streams p.nextStream ⟨id, lane⟩
          nextStream := p.nextStream + 1 }) := by
  have hreject : ∀ message code, ∃ session, PeerSession.Reports id p.session session ∧
      ({ p with session := p.session.rejectProtocol env id message code } : NodePeer) = { p with session := session } :=
    fun message code => ⟨_, PeerSession.reports_rejectProtocol p.session env id message code, rfl⟩
  simp only [beginWebSocket]
  split
  · exact .inl (hreject _ _)
  split
  · exact .inl (hreject _ _)
  split
  · exact .inl (hreject _ _)
  split
  · exact .inl (hreject _ _)
  split
  · exact .inl ⟨p.session, .of_books id p.session _ _ _, rfl⟩
  rename_i hopen
  split
  · exact .inl ⟨_, PeerSession.reports_noteProtocolViolation id p.session, rfl⟩
  rename_i htaken
  split <;> simp_all

theorem onMessage_eq (p : NodePeer) (env : Env) (lane : Nat) (frame : PeerFrame) :
    p.onMessage env lane frame = p.session.onMessage env lane frame ∨ (p.onMessage env lane frame).1 = p.session := by
  simp only [onMessage]
  grind

end NodePeer

namespace PeerSession

theorem Proceeds.of_reports {id : Nat} {s t : PeerSession} (h : Reports id s t) : Proceeds s t := by
  refine ⟨.inl h.carries, Retains.tombstonesFrom ?_, .of_tasks h.within.sameThreads.2 h.within.nextTask⟩
  rw [h.rejectedBodies]
  exact .refl _

theorem detachLane_eq (s : PeerSession) (lane : Nat) (control : Bool) : ∃ closeRequested, s.detachLane lane control =
    ({ s with lanes := s.lanes.filter (· ≠ lane), peerCloseRequested := closeRequested }).spawn
      ((s.liveRefs.filter (fun r => decide ((s.states r).lane = lane))).map
        (fun r => .cancelState (s.states r).id r false false)) := by
  simp only [detachLane]
  split
  · exact ⟨true, rfl⟩
  · exact ⟨s.peerCloseRequested, rfl⟩

theorem detachLane_proceeds (s : PeerSession) (lane : Nat) (control : Bool) : Proceeds s (s.detachLane lane control) := by
  obtain ⟨closeRequested, heq⟩ := s.detachLane_eq lane control
  rw [heq]
  refine ⟨.inl (.trans ?_ (carries_spawn _ _)), Retains.tombstonesFrom (.refl _), .of_spawn (by rfl) (by rfl) _⟩
  exact { Carries.refl s with lanes := fun lane hlane => .inl (List.mem_filter.1 hlane).1 }

end PeerSession

namespace NodePeer

variable {p q : NodePeer} {e : PeerEvent}

section

variable (h : p.step e = some q)
include h

theorem step_proceeds : PeerSession.Proceeds p.session q.session := by
  have hidle : ∀ rx, PeerSession.Proceeds p.session { p.session with rx := rx } := fun rx =>
    ⟨.inl ((PeerSession.Carries.refl _).withThreads rx _), PeerSession.Retains.tombstonesFrom (.refl _), .of_tasks rfl rfl⟩
  cases step_becomes h with
  | receives lane frame env hclock rx =>
    rcases p.onMessage_eq env lane frame with heq | heq
    · rw [heq]
      exact PeerSession.onMessage_proceeds p.session env lane frame rx
    · rw [heq]
      exact hidle rx
  | opens lane id payload env =>
    rcases p.beginWebSocket_cases env lane id payload with ⟨session, hreports, heq⟩ | ⟨-, -, -, heq⟩
    · rw [heq]
      exact .of_reports hreports
    · simp_all
  | forgets k =>
    simp only [forgetWebSocket]
    split <;> exact hidle p.session.rx
  | detaches lane control => exact PeerSession.detachLane_proceeds p.session lane control
  | goesOn e session now hstep => exact PeerSession.step_proceeds hstep

theorem step_clock : p.clock ≤ q.clock := by
  cases step_becomes h with
  | receives lane frame env hclock => exact hclock
  | opens lane id payload env hclock => exact hclock
  | forgets k => grind [forgetWebSocket]
  | detaches => exact le_rfl
  | goesOn e session now _ hclock => exact hclock

theorem step_requests {id : Nat} {r : Ref}
    (hr : q.session.requests.lookup id = some r) : p.session.requests.lookup id = some r ∨
      ∃ lane size head env rx, e = .receive lane (.req id size (some head)) env ∧
        PeerSession.Admits p.session env lane id head ∧ r = p.session.next ∧
        q.session = { p.session.admitted env lane id head with rx := rx } := by
  cases step_becomes h with
  | receives lane frame env hclock rx =>
    rcases p.onMessage_eq env lane frame with heq | heq
    · rw [heq] at hr ⊢
      rcases PeerSession.onMessage_carries_or_admits p.session env lane frame with
        hcarries | ⟨id', size, head, rfl, -, -, hadmits, hsession⟩
      · exact .inl (hcarries.requests id r hr)
      rw [hsession] at hr ⊢
      change (p.session.requests.insert id' p.session.next).lookup id = some r at hr
      grind [AList.lookup_insert, AList.lookup_insert_ne]
    · rw [heq] at hr
      exact .inl hr
  | opens lane id' payload env =>
    rcases p.beginWebSocket_cases env lane id' payload with ⟨session, hreports, heq⟩ | ⟨-, -, -, heq⟩
    · rw [heq] at hr
      exact .inl (hreports.carries.requests id r hr)
    · rw [heq] at hr
      exact .inl hr
  | forgets k => grind [forgetWebSocket]
  | detaches lane control =>
    obtain ⟨closeRequested, heq⟩ := p.session.detachLane_eq lane control
    rw [heq] at hr
    exact .inl hr
  | goesOn e session now hstep _ hreceive =>
    rcases PeerSession.step_carries_or_admits hstep with hcarries | ⟨lane, id', size, head, env, rfl, -⟩
    · exact .inl (hcarries.requests id r hr)
    · exact absurd rfl (hreceive lane _ env)

theorem step_sockets :
    (∀ id k, q.sockets.lookup id = some k → p.sockets.lookup id = some k) ∧ q.streams = p.streams ∧
        q.nextStream = p.nextStream ∨
      ∃ lane id payload env, e = .openSocket lane id payload env ∧ p.session.closed = false ∧
        p.session.requests.lookup id = none ∧ q = { p with
          sockets := p.sockets.insert id p.nextStream
          streams := update p.streams p.nextStream ⟨id, lane⟩
          nextStream := p.nextStream + 1
          clock := env.now } := by
  cases step_becomes h with
  | receives | detaches => exact .inl ⟨fun _ _ hk => hk, rfl, rfl⟩
  | opens lane id payload env =>
    rcases p.beginWebSocket_cases env lane id payload with ⟨session, -, heq⟩ | ⟨hopen, hfree, -, heq⟩
    · simp [heq]
    · simp_all
  | forgets k => grind [forgetWebSocket, AList.lookup_erase, AList.lookup_erase_ne]
  | goesOn e session now =>
    refine .inl ⟨fun id k hk => ?_, rfl, rfl⟩
    change (if e = .close then ∅ else p.sockets).lookup id = some k at hk
    split at hk
    · cases hk
    · exact hk

end

end NodePeer

end YuriRtc
