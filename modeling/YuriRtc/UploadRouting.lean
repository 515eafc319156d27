import YuriRtc.SessionThreads
import YuriRtc.UploadSystem
/-!
# UploadRouting — a request id means one request, on one lane

The page uses an id once and sends everything about it on one lane.  So whatever carries an id (a frame on a lane, a
section of a lane's goroutine, an admitted request) is on the page's lane for that id, and the node admits at most one
request under it (`Routed`, kept by every step).
-/
namespace YuriRtc

open Function (update update_of_ne update_self)

open PeerSession (SessionEvent Threaded Keeps Carries)

def PeerFrame.about : PeerFrame → Option Nat
  | .req id _ _ | .reqBody id _ | .reqEnd id | .credit id _ | .cancel id => some id
  | .undecodable | .webSocket _ | .response => none

def Section.about (s : PeerSession) : Section → Option Nat
  | .enqueueBody id _ _ _ | .discardRaced id _ _ _ | .discardBody id _ _ | .dropTombstone id _ => some id
  | .endBody r | .sendInitialCredits r => some (s.states r).id
  | .snapshot _ _ | .cancelState _ _ _ _ | .cancelContext _ | .stopBody _ | .closeBody _ | .closeCurrent _
  | .timeoutError _ | .armTimer _ | .serve _ | .handlerExited _ => none

theorem Section.about_keeps {s t : PeerSession} (hk : Keeps s t) {c : Section} (h : c.Refers s) : c.about t = c.about s := by
  cases c with
  | endBody r | sendInitialCredits r => rw [about, about, (hk.same r h.1).id]
  | _ => rfl

namespace PeerSession

theorem exec_about {s : PeerSession} {env : Env} {id : Nat} {c c' : Section} (hc' : c' ∈ (s.exec env c).2)
    (h : c'.about s = some id) : c.about s = some id := by
  cases exec_leadsTo hc' with
  | notEnqueued => exact h
  | _ => cases h

theorem onMessage_about {s : PeerSession} {env : Env} {lane : Nat} {frame : PeerFrame} (hs : Indexed s) {c : Section}
    (hc : c ∈ (s.onMessage env lane frame).2) {id : Nat} (hid : c.about (s.onMessage env lane frame).1 = some id) :
    frame.about = some id := by
  have h := onMessage_handles s env lane frame
  generalize s.onMessage env lane frame = m at h hc hid
  cases h with
  | books => cases hc
  | refuses => cases hc
  | admits id' size head =>
    dsimp only at hc
    split at hc
    · rw [List.mem_singleton.1 hc, Section.about, admitted_state] at hid
      exact hid
    · cases hc
  | ends id' r hr =>
    rw [List.mem_singleton.1 hc, Section.about, (hs id' r hr).2] at hid
    exact hid
  | snapshots id' r =>
    rw [List.mem_singleton.1 hc] at hid
    cases hid
  | _ =>
    rw [List.mem_singleton.1 hc] at hid
    exact hid

end PeerSession

namespace UploadSystem

def Used (sys : UploadSystem) (id : Nat) : Prop := (sys.page id).phase ≠ .fresh

def isReq (id : Nat) : PeerFrame → Bool
  | .req id' _ _ => id' == id
  | _ => false

def reqsIn (id : Nat) (frames : List PeerFrame) : Nat := frames.countP (isReq id)

variable {e : UploadEvent}

theorem PageActs.frames_about {sys : UploadSystem} {id : Nat} {taken : Option NodeFrame}
    {p : PageRequest} {frames : List PeerFrame} (h : PageActs sys id e taken p frames) : ∀ f ∈ frames, f.about = some id := by
  intro f hf
  cases h with
  | starts lane size head stream => grind [PeerFrame.about]
  | sendsBody | sendsEnd | sendsCredit | cancels | refusesGrant => rw [List.mem_singleton.1 hf, PeerFrame.about]
  | _ => cases hf

/-- **A request id means one request, on one lane.** -/
structure Routed (sys : UploadSystem) : Prop where
  threaded : Threaded sys.node
  lanes : ∀ lane, ∀ f ∈ sys.toNode lane, ∀ id, f.about = some id → sys.Used id ∧ (sys.page id).lane = lane
  rx : ∀ lane, ∀ c ∈ sys.node.rx lane, ∀ id, c.about sys.node = some id → sys.Used id ∧ (sys.page id).lane = lane
  once : ∀ id lane, reqsIn id (sys.toNode lane) ≤ 1
  admitted : ∀ r, r < sys.node.next → sys.Used (sys.node.states r).id ∧
    (sys.page (sys.node.states r).id).lane = (sys.node.states r).lane ∧
    ∀ lane, reqsIn (sys.node.states r).id (sys.toNode lane) = 0
  unique : ∀ r r', r < sys.node.next → r' < sys.node.next → (sys.node.states r).id = (sys.node.states r').id → r = r'

namespace Routed

variable {sys : UploadSystem} {id : Nat} {p : PageRequest} {frames : List PeerFrame} {f : PeerFrame}

theorem start : Routed start where
  threaded := .newPeerSession
  lanes _ _ h := by cases h
  rx _ _ h := by cases h
  once _ _ := Nat.zero_le _
  admitted _ h := absurd h (Nat.not_lt_zero _)
  unique _ _ h := absurd h (Nat.not_lt_zero _)

theorem setPage (h : Routed sys) (hlane : p.lane = (sys.page id).lane)
    (hused : sys.Used id → p.phase ≠ .fresh) : Routed (sys.setPage id p) := by
  have hkept : ∀ id' lane, sys.Used id' ∧ (sys.page id').lane = lane →
      (sys.setPage id p).Used id' ∧ ((sys.setPage id p).page id').lane = lane := by
    grind [Used, page_setPage, page_setPage_of_ne]
  refine ⟨h.threaded, fun lane f hf id' hid' => hkept id' lane (h.lanes lane f hf id' hid'),
    fun lane c hc id' hid' => hkept id' lane (h.rx lane c hc id' hid'), h.once, fun r hr => ?_, h.unique⟩
  obtain ⟨hu, hl, hnone⟩ := h.admitted r hr
  obtain ⟨hu', hl'⟩ := hkept _ _ ⟨hu, hl⟩
  exact ⟨hu', hl', hnone⟩

theorem reqsIn_append (id : Nat) (frames frames' : List PeerFrame) :
    reqsIn id (frames ++ frames') = reqsIn id frames + reqsIn id frames' := List.countP_append

theorem put (h : Routed sys) (hused : sys.Used id) (hid : ∀ f ∈ frames, ∀ id', f.about = some id' → id' = id)
    (hreqs : ∀ id', reqsIn id' frames = 0 ∨ reqsIn id' frames ≤ 1 ∧ (∀ lane, reqsIn id' (sys.toNode lane) = 0) ∧
      ∀ r, r < sys.node.next → (sys.node.states r).id ≠ id') :
    Routed (sys.put id frames) := by
  have hcount : ∀ id' lane, reqsIn id' ((sys.put id frames).toNode lane) ≤
      reqsIn id' (sys.toNode lane) + reqsIn id' frames := fun id' lane => by
    show reqsIn id' (update sys.toNode _ _ lane) ≤ _
    by_cases hlane : lane = (sys.page id).lane <;> simp_all [update_self, reqsIn_append, update_of_ne]
  refine ⟨h.threaded, fun lane f hf id' hid' => ?_, h.rx, fun id' lane => ?_, fun r hr => ?_, h.unique⟩
  · change f ∈ update sys.toNode _ _ lane at hf
    by_cases hlane : lane = (sys.page id).lane
    · rw [hlane, update_self] at hf
      rcases List.mem_append.1 hf with hf | hf
      · exact hlane ▸ h.lanes _ f hf id' hid'
      · rw [hid f hf id' hid', hlane]
        exact ⟨hused, rfl⟩
    · rw [update_of_ne hlane] at hf
      exact h.lanes lane f hf id' hid'
  · have hle := hcount id' lane
    have hold := h.once id' lane
    grind
  obtain ⟨hu, hl, hnone⟩ := h.admitted r hr
  refine ⟨hu, hl, fun lane => ?_⟩
  have hle := hcount (sys.node.states r).id lane
  have hold := hnone lane
  show reqsIn (sys.node.states r).id ((sys.put id frames).toNode lane) = 0
  rcases hreqs (sys.node.states r).id with hzero | ⟨-, -, hnot⟩
  · omega
  · exact absurd rfl (hnot r hr)

theorem fresh (h : Routed sys) (hfresh : (sys.page id).phase = .fresh) :
    (∀ lane, ∀ f ∈ sys.toNode lane, f.about ≠ some id) ∧ (∀ lane, ∀ c ∈ sys.node.rx lane, c.about sys.node ≠ some id) ∧
      (∀ r, r < sys.node.next → (sys.node.states r).id ≠ id) :=
  ⟨fun lane f hf hid => (h.lanes lane f hf id hid).1 hfresh, fun lane c hc hid => (h.rx lane c hc id hid).1 hfresh,
    fun r hr hid => (h.admitted r hr).1 (hid ▸ hfresh)⟩

theorem reqsIn_of_not_about (h : ∀ f ∈ frames, f.about ≠ some id) :
    reqsIn id frames = 0 := by
  refine List.countP_eq_zero.2 fun f hf hreq => h f hf ?_
  cases f <;> simp_all [isReq, PeerFrame.about]

theorem startRequest (h : Routed sys) (hfresh : (sys.page id).phase = .fresh)
    (lane size : Nat) (head : RequestHead) (stream : Bool) : Routed (sys.startRequest id lane size head stream) := by
  obtain ⟨hframes, hsections, hstates⟩ := h.fresh hfresh
  simp only [UploadSystem.startRequest]
  generalize hp : ({ PageRequest.unused with
    lane := lane, phase := if (head.hasBody && stream) = true then .uploading else .over } : PageRequest) = p
  have hused : (sys.setPage id p).Used id := by
    rw [Used, page_setPage, ← hp]
    grind
  have hkept : ∀ id', id' ≠ id → (sys.setPage id p).page id' = sys.page id' := fun id' hid' =>
    sys.page_setPage_of_ne hid' p
  have hset : Routed (sys.setPage id p) := by
    refine ⟨h.threaded, fun l f hf id' hid' => ?_, fun l c hc id' hid' => ?_, h.once, fun r hr => ?_, h.unique⟩
    · have hne : id' ≠ id := fun heq => hframes l f hf (heq ▸ hid')
      rw [Used, hkept id' hne]
      exact h.lanes l f hf id' hid'
    · have hne : id' ≠ id := fun heq => hsections l c hc (heq ▸ hid')
      rw [Used, hkept id' hne]
      exact h.rx l c hc id' hid'
    show ((sys.setPage id p).page (sys.node.states r).id).phase ≠ .fresh ∧
      ((sys.setPage id p).page (sys.node.states r).id).lane = (sys.node.states r).lane ∧ _
    rw [hkept _ (hstates r hr)]
    exact h.admitted r hr
  refine hset.put hused (fun f hf id' hid' => ?_) fun id' => ?_
  · rcases List.mem_cons.1 hf with rfl | hf
    · cases hid'
      rfl
    split at hf
    · rw [List.mem_singleton.1 hf] at hid'
      cases hid'
      rfl
    · cases hf
  · by_cases hid' : id = id'
    · subst hid'
      refine .inr ⟨?_, fun l => reqsIn_of_not_about (hframes l), hstates⟩
      split <;> simp [reqsIn, isReq]
    · refine .inl ?_
      split <;> simp [reqsIn, isReq, hid']

theorem carries (h : Routed sys) {node : PeerSession} (hthreaded : Threaded node) (hc : Carries sys.node node)
    (hrx : ∀ lane, ∀ c ∈ node.rx lane, ∀ id, c.about node = some id → sys.Used id ∧ (sys.page id).lane = lane) :
    Routed { sys with node := node } where
  threaded := hthreaded
  lanes := h.lanes
  rx := hrx
  once := h.once
  admitted r hr := by
    have hsame := (hc.moves r).same
    show sys.Used (node.states r).id ∧ (sys.page (node.states r).id).lane = (node.states r).lane ∧ _
    rw [hsame.id, hsame.lane]
    exact h.admitted r (hc.next ▸ hr)
  unique r r' hr hr' hid := by
    change (node.states r).id = (node.states r').id at hid
    rw [(hc.moves r).same.id, (hc.moves r').same.id] at hid
    exact h.unique r r' (hc.next ▸ hr) (hc.next ▸ hr') hid

theorem rx_about {s t : PeerSession} {e : SessionEvent} (h : Threaded s) (hs : s.step e = some t)
    (he : isReceive e = false) {lane : Nat} {c : Section} (hc : c ∈ t.rx lane) (hid : c.about t = some id) :
    ∃ c' ∈ s.rx lane, c'.about s = some id := by
  have hk := PeerSession.step_keeps hs
  have hold : c ∈ s.rx lane → ∃ c' ∈ s.rx lane, c'.about s = some id := fun hc =>
    ⟨c, hc, (Section.about_keeps hk (h.rx lane c hc).1).symm.trans hid⟩
  cases hlane : PeerSession.isLaneEvent e with
  | false => exact hold (PeerSession.step_rx hs hlane ▸ hc)
  | true =>
    cases e with
    | receive l frame env => cases he
    | laneGoesOn l env =>
      obtain ⟨first, others, hrx, rfl⟩ := PeerSession.laneGoesOn_eq hs
      rcases Threaded.mem_update hc with ⟨rfl, hmem⟩ | hc
      · rcases List.mem_append.1 hmem with hnext | hothers
        · have hfirst : first ∈ s.rx lane := by simp [hrx]
          have hrefers := (PeerSession.exec_sections (h.rx lane first hfirst).1 c hnext).1
          exact ⟨first, hfirst, PeerSession.exec_about hnext ((Section.about_keeps hk hrefers).symm.trans hid)⟩
        · exact hold (by rw [hrx]; exact List.mem_cons_of_mem first hothers)
      · exact hold ((PeerSession.exec_sameThreads s env first).1 ▸ hc)
    | _ => cases hlane

theorem reqsIn_tail {rest : List PeerFrame} : reqsIn id rest ≤ reqsIn id (f :: rest) := by
  simp [List.countP_cons, reqsIn]

theorem deliver (h : Routed sys) {lane : Nat} {rest : List PeerFrame} {env : Env}
    {node : PeerSession} (hlane : sys.toNode lane = f :: rest) (hs : sys.node.step (.receive lane f env) = some node) :
    Routed { sys with node := node, toNode := update sys.toNode lane rest } := by
  have hf : f ∈ sys.toNode lane := by rw [hlane]; exact List.mem_cons_self
  have hthreaded := h.threaded.step hs
  have hrest : ∀ l, ∀ g ∈ update sys.toNode lane rest l, g ∈ sys.toNode l := fun l g hg => by
    by_cases hl : l = lane <;> simp_all
  have hcount : ∀ id l, reqsIn id (update sys.toNode lane rest l) ≤ reqsIn id (sys.toNode l) := fun id l => by
    by_cases hl : l = lane
    · rw [hl, update_self, hlane]
      exact reqsIn_tail
    · rw [update_of_ne hl]
  have hrx : ∀ l, ∀ c ∈ node.rx l, ∀ id, c.about node = some id → sys.Used id ∧ (sys.page id).lane = l := by
    intro l c hc id hid
    obtain ⟨-, -, rfl⟩ := PeerSession.receive_eq hs
    rcases Threaded.mem_update hc with ⟨rfl, hmem⟩ | hc
    · exact h.lanes l f hf id (PeerSession.onMessage_about h.threaded.indexed hmem hid)
    have hold : c ∈ sys.node.rx l := (PeerSession.onMessage_sameThreads sys.node env lane f).1 ▸ hc
    exact h.rx l c hold id
      ((Section.about_keeps (PeerSession.step_keeps hs) (h.threaded.rx l c hold).1).symm.trans hid)
  rcases PeerSession.step_carries_or_admits hs with hc | ⟨l, id, size, head, env', he, -, -, hadmits, rx, rfl⟩
  · obtain ⟨h1, h2, h3, h4, h5, h6⟩ := h.carries hthreaded hc hrx
    refine ⟨h1, fun l g hg => h2 l g (hrest l g hg), h3, fun id l => le_trans (hcount id l) (h4 id l),
      fun r hr => ?_, h6⟩
    obtain ⟨hu, hl, hnone⟩ := h5 r hr
    exact ⟨hu, hl, fun l => Nat.le_zero.1 (hnone l ▸ hcount _ l)⟩
  · cases he
    obtain ⟨hused, hpage⟩ := h.lanes lane _ hf id rfl
    have hfirst : reqsIn id (sys.toNode lane) = reqsIn id rest + 1 := by
      rw [hlane]
      simp [reqsIn, isReq]
    have hnew : ∀ r, r < sys.node.next → (sys.node.states r).id ≠ id := fun r hr heq => by
      have hzero := (h.admitted r hr).2.2 lane
      rw [heq] at hzero
      omega
    have hgone : ∀ l, reqsIn id (update sys.toNode lane rest l) = 0 := fun l => by
      by_cases hl : l = lane
      · have := h.once id lane
        simp_all
      · rw [update_of_ne hl]
        exact reqsIn_of_not_about fun g hg hid => hl ((h.lanes l g hg id hid).2.symm.trans hpage)
    have hstate : ∀ r, r < sys.node.next + 1 →
        (r < sys.node.next ∧ (sys.node.admitted env lane id head).states r = sys.node.states r) ∨
        (r = sys.node.next ∧ (sys.node.admitted env lane id head).states r = .newRequestState id lane head) := fun r hr => by
      rcases Nat.lt_succ_iff_lt_or_eq.1 hr with hr | rfl
      · exact .inl ⟨hr, PeerSession.admitted_states_of_lt _ _ _ _ _ hr⟩
      · exact .inr ⟨rfl, PeerSession.admitted_state _ _ _ _ _⟩
    refine ⟨hthreaded, fun l g hg => h.lanes l g (hrest l g hg), hrx, fun id l => le_trans (hcount id l) (h.once id l),
      fun r hr => ?_, fun r r' hr hr' hid => ?_⟩
    · show sys.Used ((sys.node.admitted env lane id head).states r).id ∧
        (sys.page ((sys.node.admitted env lane id head).states r).id).lane =
          ((sys.node.admitted env lane id head).states r).lane ∧
        ∀ l, reqsIn ((sys.node.admitted env lane id head).states r).id (update sys.toNode lane rest l) = 0
      rcases hstate r hr with ⟨hold, heq⟩ | ⟨-, heq⟩
      · rw [heq]
        obtain ⟨hu, hl, hnone⟩ := h.admitted r hold
        exact ⟨hu, hl, fun l => Nat.le_zero.1 (hnone l ▸ hcount _ l)⟩
      · rw [heq]
        exact ⟨hused, hpage, hgone⟩
    · change ((sys.node.admitted env lane id head).states r).id = ((sys.node.admitted env lane id head).states r').id at hid
      rcases hstate r hr with ⟨hold, heq⟩ | ⟨rfl, heq⟩
      · rcases hstate r' hr' with ⟨hold', heq'⟩ | ⟨-, heq'⟩
        · rw [heq, heq'] at hid
          exact h.unique r r' hold hold' hid
        · rw [heq, heq'] at hid
          exact absurd hid (hnew r hold)
      · rcases hstate r' hr' with ⟨hold', heq'⟩ | ⟨rfl, -⟩
        · rw [heq, heq'] at hid
          exact absurd hid.symm (hnew r' hold')
        · rfl

theorem takeFrame (h : Routed sys) : Routed (sys.takeFrame id) :=
  { h with threaded := ⟨h.threaded.indexed, h.threaded.rx, h.threaded.tasks⟩ }

theorem putOne (h : Routed sys) (hlane : p.lane = (sys.page id).lane)
    (hused : p.phase ≠ .fresh) (hid : f.about = some id) (hreq : ∀ id', isReq id' f = false) :
    Routed ((sys.setPage id p).put id [f]) := by
  refine (h.setPage hlane fun _ => hused).put ?_ (fun g hg id' hid' => ?_) fun id' => .inl ?_
  · rw [Used, page_setPage]
    exact hused
  · simp_all
  · simp [reqsIn, hreq id']

theorem acts (h : Routed sys) {taken : Option NodeFrame}
    (hacts : PageActs sys id e taken p frames) :
    Routed ((sys.setPage id p).put id frames) := by
  cases hacts with
  | starts lane size head stream hfresh => exact h.startRequest hfresh lane size head stream
  | sendsBody payload hphase =>
    apply h.putOne
    · rfl
    · exact fun hfresh => (by cases hphase.symm.trans hfresh)
    · rfl
    · exact fun _ => rfl
  | sendsCredit count hused =>
    apply h.putOne
    · rfl
    · exact hused
    · rfl
    · exact fun _ => rfl
  | sendsEnd | cancels | refusesGrant =>
    apply h.putOne
    · rfl
    · exact nofun
    · rfl
    · exact fun _ => rfl
  | takesCredit | takesGrant | ignores =>
    rw [put_nil]
    exact h.setPage rfl fun hused => hused
  | abandons | sees =>
    rw [put_nil]
    exact h.setPage rfl nofun

theorem step {sys' : UploadSystem} (h : Routed sys) (hs : sys.step e = some sys') : Routed sys' := by
  cases step_becomes hs with
  | page id e p frames hacts => exact h.acts hacts
  | onFrame id f rest p frames _ hacts => exact h.takeFrame.acts hacts
  | deliver lane env f rest node hlane hnode => exact h.deliver hlane hnode
  | node e node hother hnode =>
    have hcarries : Carries sys.node node := by
      rcases PeerSession.step_carries_or_admits hnode with hc | ⟨l, id, size, head, env, rfl, -⟩
      · exact hc
      · cases hother
    refine h.carries (h.threaded.step hnode) hcarries fun lane c hc id hid => ?_
    obtain ⟨c', hc', hid'⟩ := rx_about h.threaded hnode hother hc hid
    exact h.rx lane c' hc' id hid'

end Routed
end UploadSystem
end YuriRtc
