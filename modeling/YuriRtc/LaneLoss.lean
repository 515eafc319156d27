import YuriRtc.PeerIds
/-!
# LaneLoss — what a lost lane carried

`detachLane` takes the lane out of the session and cancels its requests, one by one, after it has let go of `s.mu`; `begin`
admits nothing on a lane that is not attached.  So a live request is always on a lane that is attached or being detached.
Sockets are not cancelled, and `beginWebSocket` does not look at the lane (`lostLane_keeps_socket`).
-/
namespace YuriRtc

open Steps (exists_run run run_inv)
namespace NodePeer

variable {s t : PeerSession} {p q : NodePeer} {e : PeerEvent} {lane : Nat}

/-- A `detachLane` of the lane is under way. -/
def BeingDetached (p : NodePeer) (lane : Nat) : Prop :=
  ∃ task, p.detachTask lane = some task ∧ p.session.tasks task ≠ []

/-- A `detachLane` of the lane has returned. -/
def Detached (p : NodePeer) (lane : Nat) : Prop :=
  ∃ task, p.detachTask lane = some task ∧ p.session.tasks task = []

/-- **No socket is on a lane that is lost**, neither when it is detached nor by opening later. -/
def SocketsOnLanes (p : NodePeer) : PeerEvent → Prop
  | .detachLane lane _ => ∀ entry ∈ p.sockets.entries, (p.streams entry.2).lane ≠ lane
  | .openSocket lane _ _ _ => lane ∈ p.session.lanes
  | .receive _ _ _ | .forget _ | .goesOn _ => True

instance (p : NodePeer) (e : PeerEvent) : Decidable (SocketsOnLanes p e) := by
  unfold SocketsOnLanes
  split <;> infer_instance

/-- **A live request is on a lane that is attached, or `detachLane` is about to cancel it.** -/
structure OnLanes (p : NodePeer) : Prop where
  indexed : PeerSession.Indexed p.session
  requests : ∀ id r, p.session.requests.lookup id = some r → (p.session.states r).lane ∈ p.session.lanes ∨
    ∃ task, p.detachTask (p.session.states r).lane = some task ∧ Section.cancelState id r false false ∈ p.session.tasks task
  lanes : ∀ lane ∈ p.session.lanes, lane < p.session.nextLane
  detached : ∀ lane task, p.detachTask lane = some task →
    lane ∉ p.session.lanes ∧ lane < p.session.nextLane ∧ task < p.session.nextTask

theorem newNodePeer_onLanes : OnLanes newNodePeer :=
  ⟨nofun, nofun, nofun, nofun⟩

theorem proceeds_lane (h : PeerSession.Proceeds s t) {r : Ref} (hr : r < s.next) :
    (t.states r).lane = (s.states r).lane := by
  rcases h.goes with hcarries | ⟨env, lane, id, head, rx, -, rfl⟩
  · exact ((hcarries.moves r).same).lane
  · exact congrArg RequestState.lane (PeerSession.admitted_states_of_lt s env lane id head hr)

theorem proceeds_indexed (h : PeerSession.Proceeds s t) (hs : PeerSession.Indexed s) :
    PeerSession.Indexed t := by
  rcases h.goes with hcarries | ⟨env, lane, id, head, rx, -, rfl⟩
  · exact PeerSession.Threaded.indexed_carries hs hcarries
  · exact PeerSession.Threaded.indexed_admitted hs env lane id head

theorem proceeds_lanes (h : PeerSession.Proceeds s t) : s.nextLane ≤ t.nextLane ∧
    ∀ lane ∈ t.lanes, lane ∈ s.lanes ∨ s.nextLane ≤ lane ∧ lane < t.nextLane := by
  rcases h.goes with hcarries | ⟨env, lane, id, head, rx, -, rfl⟩
  · exact ⟨hcarries.nextLane, hcarries.lanes⟩
  · exact ⟨le_rfl, fun lane hlane => .inl hlane⟩

theorem step_detachTask (h : p.step e = some q) :
    (q.detachTask = p.detachTask ∧ ∀ lane ∈ p.session.lanes, lane ∈ q.session.lanes ∨ q.session.requests = ∅ ∧ q.sockets = ∅) ∨
      ∃ lane control, e = .detachLane lane control ∧ lane ∈ p.session.lanes ∧ q = { p with
        session := p.session.detachLane lane control
        detachTask := Function.update p.detachTask lane (some p.session.nextTask) } := by
  cases step_becomes h with
  | receives lane frame env hclock rx =>
    refine .inl ⟨rfl, fun lane' hlane => .inl ?_⟩
    rcases p.onMessage_eq env lane frame with heq | heq
    · rw [heq]
      exact (PeerSession.onMessage_within p.session env lane frame).2.symm ▸ hlane
    · rw [heq]
      exact hlane
  | opens lane id payload env =>
    rcases p.beginWebSocket_cases env lane id payload with ⟨session, hreports, heq⟩ | ⟨-, -, -, heq⟩
    · rw [heq]
      exact .inl ⟨rfl, fun lane' hlane => .inl (hreports.within.lanes.symm ▸ hlane)⟩
    · simp_all
  | forgets k => grind [forgetWebSocket]
  | detaches lane control hlane => exact .inr ⟨lane, control, rfl, hlane, rfl⟩
  | goesOn e session now hstep _ _ hdetach =>
    refine .inl ⟨rfl, fun lane hlane => (PeerSession.step_lanes hstep hdetach hlane).imp_right ?_⟩
    simp_all

theorem OnLanes.gone (h : OnLanes p) (hs : p.step e = some q) {task : Nat} (htask : p.detachTask lane = some task) :
    lane ∉ q.session.lanes ∧ lane < q.session.nextLane ∧ task < q.session.nextTask := by
  have hproceeds := step_proceeds hs
  obtain ⟨hnextLane, hlanes⟩ := proceeds_lanes hproceeds
  obtain ⟨hgone, hlt, hlt'⟩ := h.detached lane task htask
  refine ⟨fun hlane => ?_, lt_of_lt_of_le hlt hnextLane, lt_of_lt_of_le hlt' hproceeds.runs.nextTask⟩
  grind

theorem OnLanes.detach_cancels (h : OnLanes p) {id : Nat} {r : Ref}
    (hr : p.session.requests.lookup id = some r) (control : Bool) :
    Section.cancelState id r false false ∈
      (p.session.detachLane (p.session.states r).lane control).tasks p.session.nextTask := by
  obtain ⟨closeRequested, heq⟩ := p.session.detachLane_eq (p.session.states r).lane control
  rw [heq]
  refine PeerSession.mem_spawn_self _ (List.mem_map.2 ⟨r, List.mem_filter.2 ⟨?_, by simp⟩, ?_⟩)
  · exact List.mem_map.2 ⟨⟨id, r⟩, (Assoc.mem_entries_iff_lookup _ _ _).2 hr, rfl⟩
  · rw [(h.indexed id r hr).2]

section

variable (h : OnLanes p) (hs : p.step e = some q)
include h hs

theorem OnLanes.requests_step (id : Nat) (r : Ref)
    (hr : q.session.requests.lookup id = some r) : (q.session.states r).lane ∈ q.session.lanes ∨
      ∃ task, q.detachTask (q.session.states r).lane = some task ∧
        Section.cancelState id r false false ∈ q.session.tasks task := by
  have hproceeds := step_proceeds hs
  rcases step_requests hs hr with hold | ⟨lane, size, head, env, rx, rfl, hadmits, rfl, heq⟩
  · rw [proceeds_lane hproceeds (h.indexed id r hold).1]
    rcases step_detachTask hs with ⟨htask, hstay⟩ | ⟨lane, control, rfl, hlane, rfl⟩
    · rcases h.requests id r hold with hattached | ⟨task, hdetaching, hmem⟩
      · rcases hstay _ hattached with hattached' | ⟨hempty, -⟩
        · exact .inl hattached'
        · rw [hempty] at hr
          cases hr
      have hlt := (h.detached _ task hdetaching).2.2
      exact .inr ⟨task, htask ▸ hdetaching,
        (hproceeds.runs.waits task hlt id r false false hmem).resolve_right fun hne => hne hr⟩
    · rcases h.requests id r hold with hattached | ⟨task, hdetaching, hmem⟩
      · by_cases hsame : (p.session.states r).lane = lane
        · subst hsame
          exact .inr ⟨p.session.nextTask, Function.update_self _ _ _, h.detach_cancels hold control⟩
        obtain ⟨closeRequested, heq⟩ := p.session.detachLane_eq lane control
        refine .inl ?_
        show _ ∈ (p.session.detachLane lane control).lanes
        rw [heq]
        exact List.mem_filter.2 ⟨hattached, by simpa using hsame⟩
      · obtain ⟨hgone, -, hlt⟩ := h.detached _ task hdetaching
        have hne : (p.session.states r).lane ≠ lane := fun heq => hgone (heq ▸ hlane)
        exact .inr ⟨task, (Function.update_of_ne hne _ _).trans hdetaching,
          (hproceeds.runs.waits task hlt id r false false hmem).resolve_right fun hne => hne hr⟩
  · -- `begin` admits only on a lane that is attached
    rw [heq]
    refine .inl ?_
    show (({ p.session.admitted env lane id head with rx := rx } : PeerSession).states p.session.next).lane ∈ p.session.lanes
    rw [show ({ p.session.admitted env lane id head with rx := rx } : PeerSession).states p.session.next =
      .newRequestState id lane head from PeerSession.admitted_state p.session env lane id head]
    exact hadmits.onLane

theorem OnLanes.step : OnLanes q := by
  have hproceeds := step_proceeds hs
  obtain ⟨hnextLane, hlanes⟩ := proceeds_lanes hproceeds
  refine ⟨proceeds_indexed hproceeds h.indexed, h.requests_step hs, fun lane hlane => ?_, fun lane task htask => ?_⟩
  · rcases hlanes lane hlane with hold | ⟨-, hlt⟩
    · exact lt_of_lt_of_le (h.lanes lane hold) hnextLane
    · exact hlt
  rcases step_detachTask hs with ⟨heq, -⟩ | ⟨lane', control, rfl, hlane', rfl⟩
  · exact h.gone hs (heq ▸ htask)
  change Function.update p.detachTask lane' (some p.session.nextTask) lane = some task at htask
  by_cases hsame : lane = lane'
  · subst hsame
    rw [Function.update_self] at htask
    cases htask
    obtain ⟨closeRequested, heq⟩ := p.session.detachLane_eq lane control
    show lane ∉ (p.session.detachLane lane control).lanes ∧ lane < (p.session.detachLane lane control).nextLane ∧
      p.session.nextTask < (p.session.detachLane lane control).nextTask
    rw [heq]
    exact ⟨fun hmem => by simpa using (List.mem_filter.1 hmem).2, h.lanes lane hlane', Nat.lt_succ_self _⟩
  · rw [Function.update_of_ne hsame] at htask
    exact h.gone hs htask

theorem OnLanes.detached_step (hdetached : p.Detached lane) : q.Detached lane := by
  obtain ⟨task, htask, hended⟩ := hdetached
  obtain ⟨hgone, -, hlt⟩ := h.detached lane task htask
  refine ⟨task, ?_, (step_proceeds hs).runs.ended task hlt hended⟩
  rcases step_detachTask hs with ⟨heq, -⟩ | ⟨lane', control, rfl, hlane', rfl⟩
  · rwa [heq]
  · grind

end

def SocketsAttached (p : NodePeer) : Prop :=
  ∀ id k, p.sockets.lookup id = some k → k < p.nextStream ∧ (p.streams k).lane ∈ p.session.lanes

theorem SocketsAttached.step (h : SocketsAttached p) (hlanes : SocketsOnLanes p e)
    (hs : p.step e = some q) : SocketsAttached q := by
  rcases step_sockets hs with ⟨hsockets, hstreams, hnext⟩ | ⟨lane, id', payload, env, rfl, -, -, rfl⟩
  · intro id k hk
    obtain ⟨hlt, hlane⟩ := h id k (hsockets id k hk)
    rw [hstreams, hnext]
    refine ⟨hlt, ?_⟩
    rcases step_detachTask hs with ⟨-, hstay⟩ | ⟨lane, control, rfl, -, rfl⟩
    · rcases hstay _ hlane with hlane' | ⟨-, hempty⟩
      · exact hlane'
      · rw [hempty] at hk
        cases hk
    obtain ⟨closeRequested, heq⟩ := p.session.detachLane_eq lane control
    show _ ∈ (p.session.detachLane lane control).lanes
    rw [heq]
    exact List.mem_filter.2 ⟨hlane, by simpa using hlanes ⟨id, k⟩ ((Assoc.mem_entries_iff_lookup _ _ _).2 hk)⟩
  · intro id k hk
    change (p.sockets.insert id' p.nextStream).lookup id = some k at hk
    show k < p.nextStream + 1 ∧ (Function.update p.streams p.nextStream ⟨id', lane⟩ k).lane ∈ p.session.lanes
    by_cases hid : id = id'
    · rw [hid, AList.lookup_insert] at hk
      cases hk
      rw [Function.update_self]
      exact ⟨Nat.lt_succ_self _, hlanes⟩
    rw [AList.lookup_insert_ne hid] at hk
    obtain ⟨hlt, hlane⟩ := h id k hk
    grind

theorem detached_run {es : List PeerEvent} (h : OnLanes p) (hrun : run step p es = some q)
    (hdetached : p.Detached lane) : q.Detached lane :=
  (run_inv step (fun p => OnLanes p ∧ p.Detached lane)
    (fun _ _ _ h hs => ⟨h.1.step hs, h.1.detached_step hs h.2⟩) es p q ⟨h, hdetached⟩ hrun).2

/-- **A lane that is lost carries nothing any more** once its `detachLane` has returned, and what is live is on a lane that is
attached or being detached: requests always, sockets if no socket is on a lane that is lost. -/
theorem lost_lane_released (before after : List PeerEvent) (p q : NodePeer)
    (hbefore : run step newNodePeer before = some p) (hafter : run step p after = some q) :
    ((∀ lane, p.Detached lane → ∀ id r, q.session.requests.lookup id = some r → (q.session.states r).lane ≠ lane) ∧
      ∀ id r, q.session.requests.lookup id = some r →
        (q.session.states r).lane ∈ q.session.lanes ∨ q.BeingDetached (q.session.states r).lane) ∧
    (Steps.Meets step SocketsOnLanes newNodePeer (before ++ after) →
      (∀ lane, p.Detached lane → ∀ id k, q.sockets.lookup id = some k → (q.streams k).lane ≠ lane) ∧
        ∀ id k, q.sockets.lookup id = some k → (q.streams k).lane ∈ q.session.lanes) := by
  have hp : OnLanes p := run_inv step OnLanes (fun _ _ _ h => h.step) before _ p newNodePeer_onLanes hbefore
  have hq : OnLanes q := run_inv step OnLanes (fun _ _ _ h => h.step) after p q hp hafter
  refine ⟨⟨fun lane hdetached id r hr hlane => ?_, fun id r hr => ?_⟩, fun hmeets => ?_⟩
  · obtain ⟨task, htask, hended⟩ := detached_run hp hafter hdetached
    rcases hq.requests id r hr with hattached | ⟨task', htask', hmem⟩
    · exact (hq.detached lane task htask).1 (hlane ▸ hattached)
    rw [hlane, htask] at htask'
    cases htask'
    rw [hended] at hmem
    cases hmem
  · refine (hq.requests id r hr).imp_right fun ⟨task, htask, hmem⟩ => ⟨task, htask, List.ne_nil_of_mem hmem⟩
  have hrun : run step newNodePeer (before ++ after) = some q := Steps.run_trans hbefore hafter
  have hattached : SocketsAttached q := Steps.run_inv_when step SocketsOnLanes SocketsAttached
    (fun _ _ _ h => h.step) _ _ q (fun _ _ h => (by cases h)) hmeets hrun
  refine ⟨fun lane hdetached id k hk hlane => ?_, fun id k hk => (hattached id k hk).2⟩
  obtain ⟨task, htask, -⟩ := detached_run hp hafter hdetached
  exact (hq.detached lane task htask).1 (hlane ▸ (hattached id k hk).2)

def loseLane (socketLane : Nat) : List PeerEvent :=
  [.goesOn .attach, .goesOn .attach, .openSocket socketLane 1 plainOpen {}, .receive 1 (.req 2 10 (some plainHead)) {},
    .detachLane 1 false, .goesOn (.taskGoesOn 0 {}), .goesOn (.taskGoesOn 0 {})]

/-- The request is gone and the socket of the other lane is not. -/
theorem lost_lane_released_second : ∃ p, run step newNodePeer (loseLane 0) = some p ∧ p.Detached 1 ∧
    p.session.requests.lookup 2 = none ∧ p.sockets.lookup 1 = some 0 ∧
    ∀ id k, p.sockets.lookup id = some k → (p.streams k).lane ≠ 1 := by
  obtain ⟨p, hrun, htask, hended, hrequest, hsocket⟩ : ∃ p, run step newNodePeer (loseLane 0) = some p ∧
      p.detachTask 1 = some 0 ∧ p.session.tasks 0 = [] ∧ p.session.requests.lookup 2 = none ∧ p.sockets.lookup 1 = some 0 :=
    exists_run (by decide +kernel)
  have hdetached : p.Detached 1 := ⟨0, htask, hended⟩
  have hmeets : Steps.Meets step SocketsOnLanes newNodePeer (loseLane 0 ++ []) := by decide +kernel
  exact ⟨p, hrun, hdetached, hrequest, hsocket, ((lost_lane_released (loseLane 0) [] p p hrun rfl).2 hmeets).1 1 hdetached⟩

/-- **A socket outlives its lane.** -/
theorem lostLane_keeps_socket : ∃ p, run step newNodePeer (loseLane 1) = some p ∧ p.Detached 1 ∧
    p.session.closed = false ∧ 1 ∉ p.session.lanes ∧ ∃ k, p.sockets.lookup 1 = some k ∧ (p.streams k).lane = 1 := by
  obtain ⟨p, hrun, ⟨htask, hended⟩, ⟨hclosed, hlanes⟩, hsocket, hlane⟩ :
      ∃ p, run step newNodePeer (loseLane 1) = some p ∧ (p.detachTask 1 = some 0 ∧ p.session.tasks 0 = []) ∧
      (p.session.closed = false ∧ p.session.lanes = [0]) ∧ p.sockets.lookup 1 = some 0 ∧ (p.streams 0).lane = 1 :=
    exists_run (by decide +kernel)
  refine ⟨p, hrun, ⟨0, htask, hended⟩, hclosed, ?_, 0, hsocket, hlane⟩
  rw [hlanes]
  decide

end NodePeer
end YuriRtc
