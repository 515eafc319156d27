import YuriRtc.ResponseFlow
import YuriRtc.SessionDispatch
/-!
# HandlerSends — whose request a handler's sends are made for

`SendHead`, `SendBody`, `StreamBody` and `SendEnd` of `content-node/server.go`, over every run of the session.  A handler is
given its id and its context, not its `*requestState`: each of the four looks the state up by id when it is called
(`s.request(id)`) and keeps it for the rest of the call, for the lane it sends on and for the credit it takes.  Between the
look-up, the wait for a credit, the wait for room in the send buffers and `lane.send` everybody else may take their turn, so
a request may be cancelled and its id admitted again with the call under way.  `spent` and `sent` write down for every credit
taken and every frame sent whose handler it was, which state it was made for and, for a frame, whose its id is when it goes out.

`bodySendMu` is left out: it only keeps two body frames of a lane apart.
-/
namespace YuriRtc

open Steps (exists_run run)

open PeerSession (SessionEvent)

inductive SendHelper where
  | sendHead
  | sendBody
  | streamBody
  | sendEnd
deriving DecidableEq, Repr

inductive SendPhase where
  /-- at the top of `StreamBody`'s loop. -/
  | looping
  | crediting
  /-- in `waitForBuffer`, or about to `lane.send`. -/
  | buffering
deriving DecidableEq, Repr

namespace SendHelper

def start : SendHelper → SendPhase
  | .sendHead | .sendEnd => .buffering
  | .sendBody => .crediting
  | .streamBody => .looping

def frame : SendHelper → NodeFrame
  | .sendHead => .resHead
  | .sendBody | .streamBody => .resBody
  | .sendEnd => .resEnd

end SendHelper

/-- A call under way: the id it was given, the request its handler was started for and the one `s.request(id)` found. -/
structure SendCall where
  id : Nat
  handler : Ref
  target : Ref
  helper : SendHelper
  phase : SendPhase
deriving DecidableEq, Repr

/-- A credit taken from the window of `target`. -/
structure SpentCredit where
  handler : Ref
  target : Ref
deriving DecidableEq, Repr

/-- A frame sent on the lane of `target`.  The page knows it by its id alone, which is `owner`'s when it goes out. -/
structure HandlerFrame where
  handler : Ref
  target : Ref
  owner : Option Ref
  lane : Nat
  frame : NodeFrame
deriving DecidableEq, Repr

structure ServedSession where
  session : PeerSession
  windows : Ref → ResponseCreditWindow
  calls : AList (fun _ : Nat => SendCall)
  spent : List SpentCredit
  sent : List HandlerFrame

inductive HandlerAction where
  | call (helper : SendHelper)
  /-- `StreamBody` finds its context alive and something left to send. -/
  | loops
  | ends
  | takes
  /-- `lane.send` may fail. -/
  | sends (ok : Bool)
  | readsNothing
  | fails
deriving DecidableEq, Repr

inductive ServeEvent where
  | session (e : SessionEvent)
  | handler (task : Nat) (action : HandlerAction)
deriving DecidableEq, Repr

namespace ServedSession

def newServedSession : ServedSession where
  session := .newPeerSession
  windows _ := .empty
  calls := ∅
  spent := []
  sent := []

def running (s : ServedSession) (task : Nat) : Option Ref :=
  match s.session.tasks task with
  | .serve r :: _ => some r
  | _ => none

/-- `s.request(id)`, with the id the handler was given. -/
def request (s : ServedSession) (r : Ref) : Option Ref := s.session.requests.lookup (s.session.states r).id

/-- The windows after an event of the session: `begin` makes one, a `Credit` on the request's lane fills one. -/
def granted (s : ServedSession) (t : PeerSession) : SessionEvent → Ref → ResponseCreditWindow
  | .receive _ (.req _ _ (some head)) _ =>
    if t.next = s.session.next then s.windows
    else Function.update s.windows s.session.next (.newResponseCreditWindow head.initialCredits)
  | .receive lane (.credit id count) _ =>
    match s.session.requestOnLane id lane with
    | some r => Function.update s.windows r ((s.windows r).grant count)
    | none => s.windows
  | _ => s.windows

/-- An event the session is free to take: a handler's frames are left to its calls, and it returns from none before the
call has. -/
def mayTake (s : ServedSession) : SessionEvent → Bool
  | .respond _ _ => false
  | .taskGoesOn task _ => (s.calls.lookup task).isNone
  | _ => true

/-- The task's call goes on as `call`, or is over. -/
def withCall (s : ServedSession) (task : Nat) (call : Option SendCall) : ServedSession :=
  { s with
    calls := match call with
      | some c => s.calls.insert task c
      | none => s.calls.erase task }

def proceed (s : ServedSession) (task : Nat) (c : SendCall) : HandlerAction → Option ServedSession
  | .call _ => none
  | .loops =>
    if c.phase = .looping ∧ (s.session.states c.handler).cancelled = false then
      some (s.withCall task (some { c with phase := .crediting }))
    else none
  | .ends => if c.phase = .looping then some (s.withCall task none) else none
  | .takes =>
    if c.phase = .crediting then
      (s.windows c.target).take.map fun window => { s.withCall task (some { c with phase := .buffering }) with
        windows := Function.update s.windows c.target window
        spent := s.spent ++ [⟨c.handler, c.target⟩] }
    else none
  | .sends ok =>
    if c.phase = .buffering then
      if ok then
        some { s.withCall task (if c.helper = .streamBody then some { c with phase := .looping } else none) with
          session := s.session.send c.id c.helper.frame
          sent := s.sent ++
            [⟨c.handler, c.target, s.session.requests.lookup c.id, (s.session.states c.target).lane, c.helper.frame⟩] }
      else some (s.withCall task none)
    else none
  | .readsNothing =>
    if c.phase = .buffering ∧ c.helper = .streamBody then some (s.withCall task (some { c with phase := .looping })) else none
  | .fails => some (s.withCall task none)

def step (s : ServedSession) : ServeEvent → Option ServedSession
  | .session e =>
    if s.mayTake e then (s.session.step e).map fun t => { s with session := t, windows := s.granted t e } else none
  | .handler task action =>
    match s.calls.lookup task with
    | some c => s.proceed task c action
    | none =>
      match action, s.running task with
      | .call helper, some r =>
        -- without a request under the id the call is over: `context.Canceled`
        some (s.withCall task ((s.request r).map fun target =>
          ⟨(s.session.states r).id, r, target, helper, helper.start⟩))
      | _, _ => none

/-- A call for the request its handler was started for, whose id no other request has. -/
def Own (s : ServedSession) (c : SendCall) : Prop :=
  c.target = c.handler ∧ ∀ r ∈ s.session.requests.lookup c.id, r = c.handler

/-- **Everything a handler does it does for the request it was started for**: every credit it took is that request's, every
frame it sent was sent for it and under an id that no other request had, and so is every call it has under way. -/
structure Isolated (s : ServedSession) : Prop where
  spent : ∀ x ∈ s.spent, x.target = x.handler
  sent : ∀ x ∈ s.sent, x.target = x.handler ∧ ∀ r ∈ x.owner, r = x.handler
  calls : ∀ task c, s.calls.lookup task = some c → s.Own c

/-- A handler calls a send helper only while its id is not another request's, and an id is not given to a new request while
a handler that was given it is in one. -/
def HoldsItsId (s : ServedSession) : ServeEvent → Prop
  | .handler task (.call _) => ∀ r ∈ s.running task, ∀ target ∈ s.request r, target = r
  | .session (.receive _ (.req id _ (some _)) _) =>
    s.session.requests.lookup id = none → ∀ call ∈ s.calls.entries, call.2.id ≠ id
  | _ => True

instance (s : ServedSession) (e : ServeEvent) : Decidable (s.HoldsItsId e) := by
  unfold HoldsItsId
  split <;> infer_instance

variable {s t : ServedSession}

theorem lookup_withCall (s : ServedSession) (task : Nat) (call : Option SendCall) (task' : Nat) :
    (s.withCall task call).calls.lookup task' = if task' = task then call else s.calls.lookup task' := by
  cases call with
  | none => exact Assoc.lookup_erase_eq s.calls task task'
  | some c => exact Assoc.lookup_insert_eq s.calls task c task'

theorem isolated_new : newServedSession.Isolated where
  spent _ h := absurd h List.not_mem_nil
  sent _ h := absurd h List.not_mem_nil
  calls _ _ h := by cases h

theorem Isolated.withCall (h : s.Isolated) (task : Nat) (call : Option SendCall) (hcall : ∀ c, call = some c → s.Own c) :
    (s.withCall task call).Isolated where
  spent := h.spent
  sent := h.sent
  calls task' c hc := by
    rw [lookup_withCall] at hc
    split at hc
    · exact hcall c hc
    · exact h.calls task' c hc

theorem Isolated.over (h : s.Isolated) (task : Nat) : (s.withCall task none).Isolated :=
  h.withCall task none fun _ hc => by cases hc

section

variable (h : s.Isolated) {task : Nat} {c : SendCall} (hc : s.calls.lookup task = some c)
include h task c hc

theorem Isolated.goesOn (phase : SendPhase) : (s.withCall task (some { c with phase := phase })).Isolated :=
  h.withCall task _ fun _ hc' => by
    cases hc'
    exact h.calls task c hc

theorem Isolated.takes (window : ResponseCreditWindow) :
    ({ s.withCall task (some { c with phase := .buffering }) with
      windows := Function.update s.windows c.target window
      spent := s.spent ++ [⟨c.handler, c.target⟩] } : ServedSession).Isolated where
  spent x hx := by
    rcases List.mem_append.1 hx with hx | hx
    · exact h.spent x hx
    · rw [List.mem_singleton.1 hx]
      exact (h.calls task c hc).1
  sent := h.sent
  calls := (h.goesOn hc .buffering).calls

theorem Isolated.sends (id lane : Nat) (frame : NodeFrame) (call : Option SendCall)
    (hcall : ∀ c, call = some c → s.Own c) :
    ({ s.withCall task call with
      session := s.session.send id frame
      sent := s.sent ++ [⟨c.handler, c.target, s.session.requests.lookup c.id, lane, frame⟩] } : ServedSession).Isolated where
  spent := h.spent
  sent x hx := by
    rcases List.mem_append.1 hx with hx | hx
    · exact h.sent x hx
    · rw [List.mem_singleton.1 hx]
      exact h.calls task c hc
  calls := (h.withCall task call hcall).calls

theorem Isolated.proceed {action : HandlerAction}
    (hs : s.proceed task c action = some t) : t.Isolated := by
  unfold ServedSession.proceed at hs
  cases action <;> simp only at hs
  case call helper => cases hs
  case loops =>
    split at hs <;> cases hs
    exact h.goesOn hc .crediting
  case ends =>
    split at hs <;> cases hs
    exact h.over task
  case takes =>
    split at hs
    · obtain ⟨window, -, rfl⟩ := Option.map_eq_some_iff.1 hs
      exact h.takes hc window
    · cases hs
  case sends ok =>
    split at hs
    · split at hs
      · cases hs
        refine h.sends hc _ _ _ _ fun c' hc' => ?_
        split at hc'
        · cases hc'
          exact h.calls task c hc
        · cases hc'
      · cases hs
        exact h.over task
    · cases hs
  case readsNothing =>
    split at hs <;> cases hs
    exact h.goesOn hc .looping
  case fails =>
    cases hs
    exact h.over task

end

/-- **An id goes to another request by an admission only**, so a call keeps its id through every event of the session that
admits no request under it. -/
theorem Own.session {c : SendCall} {e : SessionEvent} {session : PeerSession} (h : s.Own c)
    (hok : ∀ lane id size head env, e = .receive lane (.req id size (some head)) env → s.session.requests.lookup id = none →
      c.id ≠ id)
    (hs : s.session.step e = some session) (windows : Ref → ResponseCreditWindow) :
    ({ s with session := session, windows := windows } : ServedSession).Own c := by
  refine ⟨h.1, fun r hr => h.2 r ?_⟩
  rcases PeerSession.step_carries_or_admits hs with hc | ⟨lane, id, size, head, env, rfl, -, -, hadmits, rx, rfl⟩
  · exact hc.requests _ r hr
  · change (s.session.requests.insert id s.session.next).lookup c.id = some r at hr
    rwa [AList.lookup_insert_ne (hok lane id size head env rfl hadmits.notLive)] at hr

theorem step_call {task : Nat} {action : HandlerAction} (hnone : s.calls.lookup task = none)
    (hs : s.step (.handler task action) = some t) :
    ∃ helper r, action = .call helper ∧ s.running task = some r ∧
      t = s.withCall task ((s.request r).map fun target => ⟨(s.session.states r).id, r, target, helper, helper.start⟩) := by
  simp only [step, hnone] at hs
  grind

theorem Isolated.step {e : ServeEvent} (h : s.Isolated) (hok : s.HoldsItsId e) (hs : s.step e = some t) : t.Isolated := by
  cases e with
  | session e =>
    simp only [ServedSession.step] at hs
    split at hs
    · obtain ⟨session, hsession, rfl⟩ := Option.map_eq_some_iff.1 hs
      refine ⟨h.spent, h.sent, fun task c hc => (h.calls task c hc).session ?_ hsession _⟩
      rintro lane id size head env rfl hfree
      exact hok hfree ⟨task, c⟩ ((Assoc.mem_entries_iff_lookup _ _ _).2 hc)
    · cases hs
  | handler task action =>
    cases hc : s.calls.lookup task with
    | some c =>
      simp only [ServedSession.step, hc] at hs
      exact h.proceed hc hs
    | none =>
      obtain ⟨helper, r, rfl, hrunning, rfl⟩ := step_call hc hs
      refine h.withCall task _ fun c hc' => ?_
      obtain ⟨target, htarget, rfl⟩ := Option.map_eq_some_iff.1 hc'
      obtain rfl := hok r hrunning target htarget
      exact ⟨rfl, hok target hrunning⟩

theorem not_isolated_of_call {task : Nat} {r target : Ref} (hnone : s.calls.lookup task = none)
    (hrunning : s.running task = some r) (htarget : s.request r = some target) (hne : target ≠ r) :
    ∃ t, run ServedSession.step s [.handler task (.call .sendHead), .handler task (.sends true)] = some t ∧
      ¬ t.Isolated := by
  refine ⟨_, by simp [run, ServedSession.step, hnone, hrunning, htarget, lookup_withCall, ServedSession.proceed,
    SendHelper.start]; rfl, fun h => hne (h.sent ⟨r, target, s.request r, (s.session.states target).lane, .resHead⟩ ?_).1⟩
  exact List.mem_append_right _ List.mem_cons_self

/-- **Handlers keep to their own requests, unless an id changes hands around a send helper.**  Where no handler calls one
when its id is another request's, and no id is admitted again while its handler is in one, every credit is taken, every frame
is sent and every call is made for the request its handler was started for and under an id no other request has, with the id
admitted again or not; and a handler that calls one too late, in any state, can send the other request's head. -/
theorem handlers_isolated (events : List ServeEvent) (s : ServedSession)
    (hrun : run step newServedSession events = some s) :
    (Steps.Meets step HoldsItsId newServedSession events → s.Isolated) ∧
    ∀ task helper, s.calls.lookup task = none → ¬ s.HoldsItsId (.handler task (.call helper)) →
      ∃ t, run step s [.handler task (.call .sendHead), .handler task (.sends true)] = some t ∧ ¬ t.Isolated := by
  refine ⟨fun hok => Steps.run_inv_when step HoldsItsId Isolated (fun _ _ _ h hok hs => h.step hok hs) events newServedSession
    s isolated_new hok hrun, fun task helper hnone hnot => ?_⟩
  have hother : ∃ r ∈ s.running task, ∃ target ∈ s.request r, target ≠ r := by
    by_contra hno
    refine hnot fun r hr target htarget => ?_
    by_contra hne
    exact hno ⟨r, hr, target, htarget, hne⟩
  obtain ⟨r, hrunning, target, htarget, hne⟩ := hother
  exact not_isolated_of_call hnone hrunning htarget hne

/-- A request is started, and its `GET` admitted anew after its cancellation, with the first handler still running.
`before` is what that handler does ahead of the cancellation. -/
def admittedAgain (before : List ServeEvent) : List ServeEvent :=
  [.session .attach, .session (.receive 0 (.req 5 0 (some PeerSession.bulkHead)) {}), .session .dispatch,
    .session .startPicked] ++ before ++
  [.session (.receive 0 (.cancel 5) {}), .session (.laneGoesOn 0 {}), .session (.laneGoesOn 0 {}),
    .session (.laneGoesOn 0 {}), .session (.receive 0 (.req 5 0 (some PeerSession.bulkHead)) {})]

/-- Both handlers of an id send, each for its own request: the first gives up a body it has no credit for, and the second
answers with the first still running. -/
def bothAnswer : List ServeEvent :=
  admittedAgain [.handler 0 (.call .sendHead), .handler 0 (.sends true), .handler 0 (.call .sendBody), .handler 0 .takes,
    .handler 0 (.sends true), .handler 0 (.call .sendBody), .handler 0 .fails] ++
  [.session .dispatch, .session .startPicked, .handler 1 (.call .sendHead), .handler 1 (.sends true)]

theorem handlers_isolated_bothAnswer :
    ∃ s, run step newServedSession bothAnswer = some s ∧
      (s.running 0 = some 0 ∧ s.session.requests.lookup 5 = some 1) ∧
      s.sent = [⟨0, 0, some 0, 0, .resHead⟩, ⟨0, 0, some 0, 0, .resBody⟩, ⟨1, 1, some 1, 0, .resHead⟩] ∧ s.Isolated := by
  obtain ⟨s, hrun, hrequests, hsent⟩ : ∃ s, run step newServedSession bothAnswer = some s ∧
      (s.running 0 = some 0 ∧ s.session.requests.lookup 5 = some 1) ∧
      s.sent = [⟨0, 0, some 0, 0, .resHead⟩, ⟨0, 0, some 0, 0, .resBody⟩, ⟨1, 1, some 1, 0, .resHead⟩] :=
    exists_run (by decide +kernel)
  exact ⟨s, hrun, hrequests, hsent, (handlers_isolated _ s hrun).1 (by decide +kernel)⟩

/-- A handler whose request was cancelled answers the request that has its id now, and with that request's only credit. -/
theorem cancelled_handler_answers_next_request :
    ∃ s, run step newServedSession (admittedAgain [] ++
        [.handler 0 (.call .sendHead), .handler 0 (.sends true), .handler 0 (.call .sendBody), .handler 0 .takes,
          .handler 0 (.sends true), .handler 0 (.call .sendEnd), .handler 0 (.sends true)]) = some s ∧
      ((s.session.states 0).cancelled = true ∧ s.session.requests.lookup 5 = some 1) ∧
      s.sent = [⟨0, 1, some 1, 0, .resHead⟩, ⟨0, 1, some 1, 0, .resBody⟩, ⟨0, 1, some 1, 0, .resEnd⟩] ∧
      s.spent = [⟨0, 1⟩] ∧ (s.windows 1).available = 0 :=
  exists_run (by decide +kernel)

end ServedSession
end YuriRtc
