import YuriRtc.PeerSockets
/-!
# PeerIds — one id, one holder

An id is held by a live request, by a socket, or by the tombstone of an upload that may still send.  `begin` looks among the
requests and the tombstones and `beginWebSocket` among the requests and the sockets, so a request can be admitted under the
id of an open socket (`sharedId_misroutes`), and a socket under that of a tombstone.  Where the browser does neither, no
id ever has two holders, but for the moment in which a timed-out upload is buried before it is removed (`active_ids_apart`).
-/
namespace YuriRtc
namespace NodePeer

inductive Holder where
  | request (r : Ref)
  | socket (k : Nat)
  | tombstone
deriving DecidableEq, Repr

/-- Who holds the id at the time `now`. -/
def Holds (p : NodePeer) (now id : Nat) : Holder → Prop
  | .request r => p.session.requests.lookup id = some r
  | .socket k => p.sockets.lookup id = some k
  | .tombstone => ∃ tombstone, p.session.rejectedBodies.lookup id = some tombstone ∧ now < tombstone.expires

inductive RoutedFrame where
  | credit
  | reqBody
  | cancel
  | wsData
deriving DecidableEq, Repr

def uploadHolder (p : NodePeer) (now lane id : Nat) : Option Holder :=
  match p.session.requestOnLane id lane with
  | some r => some (.request r)
  | none =>
    match (p.session.pruneRejectedBodiesLocked now).rejectedBodies.lookup id with
    | some tombstone => if tombstone.lane = lane then some .tombstone else none
    | none => none

/-- Whom `OnMessage` finds for a frame. -/
def route (p : NodePeer) (now lane id : Nat) : RoutedFrame → Option Holder
  | .credit =>
    match p.socketOnLane id lane with
    | some k => some (.socket k)
    | none => (p.session.requestOnLane id lane).map .request
  | .reqBody | .cancel => p.uploadHolder now lane id
  | .wsData => (p.socketOnLane id lane).map .socket

/-- No `expireRequestBody` stands between its tombstone and its cancellation. -/
def NoExpiry (p : NodePeer) : Prop := ∀ task id r allowTrailing, .cancelState id r allowTrailing true ∉ p.session.tasks task

/-- **The browser opens nothing under an id in use**: no request under that of a socket, no socket under that of an upload
that may still send. -/
def OpensUnused (p : NodePeer) : PeerEvent → Prop
  | .receive _ (.req id _ _) _ => p.sockets.lookup id = none
  | .openSocket _ id _ env => ∀ tombstone, p.session.rejectedBodies.lookup id = some tombstone → tombstone.expires ≤ env.now
  | _ => True

/-- **The tables have no id in common**, but for an expired tombstone or one whose request is about to be cancelled. -/
structure Apart (p : NodePeer) : Prop where
  sockets : ∀ id r, p.session.requests.lookup id = some r → p.sockets.lookup id = none
  expired : ∀ id k tombstone, p.sockets.lookup id = some k → p.session.rejectedBodies.lookup id = some tombstone →
    tombstone.expires ≤ p.clock
  window : ∀ id r tombstone, p.session.requests.lookup id = some r → p.session.rejectedBodies.lookup id = some tombstone →
    ∃ task, Section.cancelState id r false true ∈ p.session.tasks task
  fresh : ∀ task ≥ p.session.nextTask, p.session.tasks task = []

theorem newNodePeer_apart : Apart newNodePeer :=
  ⟨nofun, nofun, nofun, fun _ _ => rfl⟩

section

variable {p q : NodePeer} (h : Apart p) (hproceeds : PeerSession.Proceeds p.session q.session)
include p q h hproceeds

theorem Apart.window_step (id : Nat)
    (r : Ref) (tombstone : RejectedBodyTombstone) (hr : q.session.requests.lookup id = some r)
    (htombstone : q.session.rejectedBodies.lookup id = some tombstone) :
    ∃ task, Section.cancelState id r false true ∈ q.session.tasks task := by
  -- an admitted request has no tombstone, so the request was there before
  have hold : p.session.requests.lookup id = some r := by
    rcases hproceeds.goes with hcarries | ⟨env, lane, id', head, rx, hadmits, heq⟩
    · exact hcarries.requests id r hr
    rw [heq] at hr htombstone
    by_cases hid : id = id'
    · rw [hid] at htombstone
      exact absurd (hadmits.notDraining.symm.trans htombstone) (Option.some_ne_none _).symm
    · change (p.session.requests.insert id' p.session.next).lookup id = some r at hr
      rwa [AList.lookup_insert_ne hid] at hr
  rcases hproceeds.tombstones id tombstone htombstone with ⟨old, hold', -⟩ | ⟨r', hr', hgone | hwindow⟩
  · obtain ⟨task, hmem⟩ := h.window id r old hold hold'
    have hlt : task < p.session.nextTask := Nat.lt_of_not_le fun hge => by grind [h.fresh]
    exact ⟨task, (hproceeds.runs.waits task hlt id r false true hmem).resolve_right fun hne => hne hr⟩
  · cases hgone.symm.trans hr
  · simp_all

theorem Apart.expired_step (hclock : p.clock ≤ q.clock) {id k : Nat} {tombstone : RejectedBodyTombstone}
    (hk : p.sockets.lookup id = some k) (htombstone : q.session.rejectedBodies.lookup id = some tombstone) :
    tombstone.expires ≤ q.clock := by
  rcases hproceeds.tombstones id tombstone htombstone with ⟨old, hold, hexpires⟩ | ⟨r, hr, -⟩
  · rw [hexpires]
    exact le_trans (h.expired id k old hk hold) hclock
  · rw [h.sockets id r hr] at hk
    cases hk

end

theorem Apart.step {p q : NodePeer} {e : PeerEvent} (h : Apart p) (hunused : OpensUnused p e) (hs : p.step e = some q) :
    Apart q := by
  have hproceeds := step_proceeds hs
  have hfresh := hproceeds.runs.fresh h.fresh
  rcases step_sockets hs with ⟨hsockets, -⟩ | ⟨lane, id', payload, env, rfl, -, hfree, rfl⟩
  · refine ⟨fun id r hr => ?_, fun id k tombstone hk htombstone => ?_, h.window_step hproceeds, hfresh⟩
    · have hnone : p.sockets.lookup id = none := by
        rcases step_requests hs hr with hold | ⟨lane, size, head, env, rx, rfl, -⟩
        · exact h.sockets id r hold
        · exact hunused
      refine Option.eq_none_iff_forall_ne_some.2 fun k hk => ?_
      simp_all
    · exact h.expired_step hproceeds (step_clock hs) (hsockets id k hk) htombstone
  · refine ⟨fun id r hr => ?_, fun id k tombstone hk htombstone => ?_, h.window_step hproceeds, hfresh⟩
    · have hne : id ≠ id' := fun heq => by grind
      show (p.sockets.insert id' p.nextStream).lookup id = none
      rw [AList.lookup_insert_ne hne]
      exact h.sockets id r hr
    change (p.sockets.insert id' p.nextStream).lookup id = some k at hk
    by_cases hid : id = id'
    · exact hunused tombstone (hid ▸ htombstone)
    · rw [AList.lookup_insert_ne hid] at hk
      exact h.expired_step hproceeds (step_clock hs) hk htombstone

variable {p : NodePeer}

theorem socketOnLane_some {id lane k : Nat} (h : p.socketOnLane id lane = some k) :
    p.sockets.lookup id = some k := by grind [socketOnLane]

theorem holds_uploadHolder {now lane id : Nat} {holder : Holder}
    (h : p.uploadHolder now lane id = some holder) : p.Holds now id holder := by
  simp only [uploadHolder] at h
  split at h
  · rename_i r hr
    cases h
    exact (PeerSession.requestOnLane_some hr).1
  split at h
  · rename_i tombstone htombstone
    split at h
    · cases h
      change (Assoc.keep _ p.session.rejectedBodies).lookup id = some tombstone at htombstone
      rw [Assoc.lookup_keep, Option.filter_eq_some_iff] at htombstone
      exact ⟨tombstone, htombstone.1, by simpa using htombstone.2⟩
    · cases h
  · cases h

theorem holds_of_route {now lane id : Nat} {frame : RoutedFrame} {holder : Holder}
    (h : p.route now lane id frame = some holder) : p.Holds now id holder := by
  cases frame with
  | credit =>
    simp only [route] at h
    split at h
    · rename_i k hk
      cases h
      exact socketOnLane_some hk
    · obtain ⟨r, hr, rfl⟩ := Option.map_eq_some_iff.1 h
      exact (PeerSession.requestOnLane_some hr).1
  | reqBody => exact holds_uploadHolder h
  | cancel => exact holds_uploadHolder h
  | wsData =>
    obtain ⟨k, hk, rfl⟩ := Option.map_eq_some_iff.1 h
    exact socketOnLane_some hk

theorem Apart.unique (h : Apart p) (hquiet : p.NoExpiry) {now : Nat} (hnow : p.clock ≤ now) {id : Nat} :
    ∀ {holder holder' : Holder}, p.Holds now id holder → p.Holds now id holder' → holder = holder' := by
  have hsocket : ∀ {r k}, p.session.requests.lookup id = some r → p.sockets.lookup id = some k → False := fun hr hk => by
    rw [h.sockets id _ hr] at hk
    cases hk
  have hburied : ∀ {r}, p.session.requests.lookup id = some r → p.Holds now id .tombstone → False := by
    rintro r hr ⟨tombstone, htombstone, -⟩
    obtain ⟨task, hmem⟩ := h.window id r tombstone hr htombstone
    exact hquiet task id r false hmem
  have hexpired : ∀ {k}, p.sockets.lookup id = some k → p.Holds now id .tombstone → False := by
    rintro k hk ⟨tombstone, htombstone, hlt⟩
    have := h.expired id k tombstone hk htombstone
    omega
  intro holder holder' hholds hholds'
  cases holder with
  | request r =>
    cases holder' with
    | request r' => exact congrArg Holder.request (Option.some.inj (hholds.symm.trans hholds'))
    | socket k => exact (hsocket hholds hholds').elim
    | tombstone => exact (hburied hholds hholds').elim
  | socket k =>
    cases holder' with
    | request r => exact (hsocket hholds' hholds).elim
    | socket k' => exact congrArg Holder.socket (Option.some.inj (hholds.symm.trans hholds'))
    | tombstone => exact (hexpired hholds hholds').elim
  | tombstone =>
    cases holder' with
    | request r => exact (hburied hholds' hholds).elim
    | socket k => exact (hexpired hholds' hholds).elim
    | tombstone => rfl

/-- **No id has two holders**, and a frame goes to the one its id was admitted for, in every run in which the browser opens
nothing under an id in use. -/
theorem active_ids_apart (es : List PeerEvent) (p : NodePeer) (hunused : Steps.Meets step OpensUnused newNodePeer es)
    (hrun : Steps.run step newNodePeer es = some p) (hquiet : p.NoExpiry) (now : Nat) (hnow : p.clock ≤ now) (id : Nat) :
    (∀ holder holder', p.Holds now id holder → p.Holds now id holder' → holder = holder') ∧
      ∀ lane frame holder holder', p.Holds now id holder → p.route now lane id frame = some holder' → holder' = holder := by
  have hapart : Apart p :=
    Steps.run_inv_when step OpensUnused Apart (fun _ _ _ h => h.step) es _ p newNodePeer_apart hunused hrun
  refine ⟨fun holder holder' h h' => hapart.unique hquiet hnow h h', fun lane frame holder holder' h hroute => ?_⟩
  exact hapart.unique hquiet hnow (holds_of_route hroute) h

def plainHead : RequestHead := ⟨protocolVersion, ['G', 'E', 'T'], ['/'], false, 0, 8⟩

def plainOpen : String ⊕ WebSocketOpen := .inr ⟨protocolVersion, 8, none⟩

def openAndRequest (socketId requestId : Nat) : List PeerEvent :=
  [.goesOn .attach, .openSocket 0 socketId plainOpen {}, .receive 0 (.req requestId 10 (some plainHead)) {}]

theorem noExpiry_of_nextTask {es : List PeerEvent} (hrun : Steps.run step newNodePeer es = some p)
    (hnext : p.session.nextTask = 0) : p.NoExpiry := by
  have hfresh : ∀ task ≥ p.session.nextTask, p.session.tasks task = [] :=
    Steps.run_inv step (fun p => ∀ task ≥ p.session.nextTask, p.session.tasks task = [])
      (fun _ _ _ h hs => (step_proceeds hs).runs.fresh h) es _ p (fun _ _ => rfl) hrun
  intro task id r allowTrailing hmem
  simp_all

/-- A socket and a request under their own ids. -/
theorem active_ids_apart_two : ∃ p, Steps.run step newNodePeer (openAndRequest 1 2) = some p ∧
    p.session.requests.lookup 2 = some 0 ∧ p.sockets.lookup 1 = some 0 ∧
    ∀ holder, p.Holds 0 2 holder → holder = .request 0 := by
  obtain ⟨p, hrun, hrequest, hsocket, hnext, hclock⟩ : ∃ p, Steps.run step newNodePeer (openAndRequest 1 2) = some p ∧
      p.session.requests.lookup 2 = some 0 ∧ p.sockets.lookup 1 = some 0 ∧ p.session.nextTask = 0 ∧ p.clock = 0 :=
    Steps.exists_run (by decide +kernel)
  refine ⟨p, hrun, hrequest, hsocket, fun holder hholds => ?_⟩
  have hmeets : Steps.Meets step OpensUnused newNodePeer (openAndRequest 1 2) :=
    ⟨trivial, fun _ h => (by cases h), rfl, trivial⟩
  exact (active_ids_apart _ p hmeets hrun (noExpiry_of_nextTask hrun hnext) 0 (hclock ▸ Nat.le_refl 0) 2).1
    holder (.request 0) hholds hrequest

/-- **A request under the id of an open socket is admitted**, and its credit goes to the socket. -/
theorem sharedId_misroutes : ∃ p, Steps.run step newNodePeer (openAndRequest 7 7) = some p ∧ p.NoExpiry ∧
    p.Holds 0 7 (.request 0) ∧ p.Holds 0 7 (.socket 0) ∧ p.route 0 0 7 .credit = some (.socket 0) := by
  obtain ⟨p, hrun, hrequest, hsocket, hnext, hroute⟩ : ∃ p, Steps.run step newNodePeer (openAndRequest 7 7) = some p ∧
      p.session.requests.lookup 7 = some 0 ∧ p.sockets.lookup 7 = some 0 ∧ p.session.nextTask = 0 ∧
      p.route 0 0 7 .credit = some (.socket 0) :=
    Steps.exists_run (by decide +kernel)
  exact ⟨p, hrun, noExpiry_of_nextTask hrun hnext, hrequest, hsocket, hroute⟩

end NodePeer
end YuriRtc
