import YuriRtc.SessionEffects
import YuriRtc.UploadCredit
/-!
# UploadSize — a body is no larger than what the page has sent

The bytes a request's body has taken, those in its lane's goroutine and those on the lane are bytes the page has counted
as sent (`Sized`), in every run.
-/
namespace YuriRtc

open Function (update update_of_ne update_self)

open PeerSession (SessionEvent Touches Changes)

def PeerFrame.bytes (id : Nat) : PeerFrame → Nat
  | .reqBody id' payload => if id' = id then payload.length else 0
  | .undecodable | .req _ _ _ | .reqEnd _ | .credit _ _ | .cancel _ | .webSocket _ | .response => 0

def Section.bytes (id : Nat) : Section → Nat
  | .enqueueBody id' _ _ payload => if id' = id then payload.length else 0
  | _ => 0

namespace UploadSystem

variable {id : Nat} {frames : List PeerFrame} {f : PeerFrame} {s : PeerSession} {sys : UploadSystem} {env : Env}

def bytesIn (id : Nat) (frames : List PeerFrame) : Nat := (frames.map (PeerFrame.bytes id)).sum

def bytesLeft (id : Nat) (sections : List Section) : Nat := (sections.map (Section.bytes id)).sum

@[simp] theorem bytesIn_cons (id : Nat) (f : PeerFrame) (frames : List PeerFrame) :
    bytesIn id (f :: frames) = f.bytes id + bytesIn id frames := by
  simp [bytesIn]

@[simp] theorem bytesIn_append (id : Nat) (frames frames' : List PeerFrame) :
    bytesIn id (frames ++ frames') = bytesIn id frames + bytesIn id frames' := by
  simp [bytesIn]

@[simp] theorem bytesLeft_cons (id : Nat) (c : Section) (sections : List Section) :
    bytesLeft id (c :: sections) = c.bytes id + bytesLeft id sections := by
  simp [bytesLeft]

@[simp] theorem bytesLeft_append (id : Nat) (sections sections' : List Section) :
    bytesLeft id (sections ++ sections') = bytesLeft id sections + bytesLeft id sections' := by
  simp [bytesLeft]

theorem bytesLeft_eq_zero {sections : List Section} (h : ∀ c ∈ sections, c.bytes id = 0) :
    bytesLeft id sections = 0 :=
  List.sum_eq_zero fun n hn => by grind

theorem bytesIn_eq_zero (h : ∀ f ∈ frames, f.bytes id = 0) : bytesIn id frames = 0 :=
  List.sum_eq_zero fun n hn => by grind

theorem frame_bytes_of_not_about (h : f.about ≠ some id) : f.bytes id = 0 := by
  cases f with
  | reqBody id' payload => exact if_neg fun heq => h (congrArg some heq)
  | _ => rfl

theorem section_bytes_of_not_about {c : Section} (h : c.about s ≠ some id) : c.bytes id = 0 := by
  cases c with
  | enqueueBody id' lane r payload => exact if_neg fun heq => h (congrArg some heq)
  | _ => rfl

theorem section_bytes_of_not_receiving {c : Section} (h : c.isReceiving = false) : c.bytes id = 0 := by
  cases c <;> first | rfl | cases h

def Sized (sys : UploadSystem) : Prop := ∀ r < sys.node.next, (sys.node.states r).hasBody = true →
  (sys.node.states r).bodyBytes + bytesLeft (sys.node.states r).id (sys.node.rx (sys.page (sys.node.states r).id).lane) +
    bytesIn (sys.node.states r).id (sys.toNode (sys.page (sys.node.states r).id).lane) ≤
      (sys.page (sys.node.states r).id).sentBytes

theorem PageActs.bytes {e : UploadEvent} {taken : Option NodeFrame} {p : PageRequest}
    (h : PageActs sys id e taken p frames) (hused : sys.Used id) :
    p.lane = (sys.page id).lane ∧ p.sentBytes = (sys.page id).sentBytes + bytesIn id frames := by
  cases h with
  | starts lane size head stream hfresh => exact absurd hfresh hused
  | sendsBody payload => exact ⟨rfl, by simp [bytesIn, PeerFrame.bytes]⟩
  | _ => exact ⟨rfl, rfl⟩

theorem Sized.acts (h : Sized sys) (hr : Routed sys) {e : UploadEvent}
    {taken : Option NodeFrame} {p : PageRequest} (hacts : PageActs sys id e taken p frames) :
    Sized ((sys.setPage id p).put id frames) := by
  intro r hlt hbody
  have hbefore := h r hlt hbody
  have hused := (hr.admitted r hlt).1
  change (sys.node.states r).bodyBytes + bytesLeft (sys.node.states r).id
      (sys.node.rx ((sys.setPage id p).page (sys.node.states r).id).lane) +
    bytesIn (sys.node.states r).id (((sys.setPage id p).put id frames).toNode
      ((sys.setPage id p).page (sys.node.states r).id).lane) ≤ ((sys.setPage id p).page (sys.node.states r).id).sentBytes
  generalize (sys.node.states r).id = id' at hbefore hused ⊢
  by_cases hid : id' = id
  · subst hid
    obtain ⟨hlane, hsent⟩ := hacts.bytes hused
    have hput : ((sys.setPage id' p).put id' frames).toNode p.lane = sys.toNode p.lane ++ frames := by
      show update sys.toNode ((sys.setPage id' p).page id').lane _ p.lane = _
      rw [page_setPage, update_self]
      rfl
    rw [page_setPage, hput, bytesIn_append, hlane, hsent]
    omega
  · have hnone : bytesIn id' frames = 0 := bytesIn_eq_zero fun f hf => frame_bytes_of_not_about fun habout =>
      hid (Option.some.inj (habout.symm.trans (hacts.frames_about f hf)))
    have hput : bytesIn id' (((sys.setPage id p).put id frames).toNode (sys.page id').lane) =
        bytesIn id' (sys.toNode (sys.page id').lane) := by
      show bytesIn id' (update sys.toNode ((sys.setPage id p).page id).lane _ (sys.page id').lane) = _
      rw [page_setPage]
      by_cases hlane : (sys.page id').lane = p.lane
      · rw [hlane, update_self, bytesIn_append, hnone]
        rfl
      · rw [update_of_ne hlane]
    rw [page_setPage_of_ne sys hid, hput]
    exact hbefore

theorem touches_bytes {r : Ref} {c : Section} {st : RequestState} (h : Touches s env r c st)
    (hc : c.Refers s) : st.bodyBytes ≤ (s.states r).bodyBytes + c.bytes (s.states r).id := by
  cases h with
  | enqueues id lane payload st hst =>
    obtain ⟨-, -, -, body, -, rfl⟩ := RequestState.enqueueRequestBody_ok hst
    rw [Section.bytes, if_pos hc.2.1.symm]
  | ends => grind [RequestState.endRequestBody]
  | _ => exact Nat.le_add_right _ _

theorem exec_bytes (s : PeerSession) (env : Env) (c : Section) (id : Nat) : bytesLeft id (s.exec env c).2 = 0 :=
  bytesLeft_eq_zero fun c' hc' => by
    cases PeerSession.exec_leadsTo hc' with
    | _ => rfl

theorem onMessage_bytes (s : PeerSession) (env : Env) (lane : Nat) (frame : PeerFrame) (id : Nat) :
    bytesLeft id (s.onMessage env lane frame).2 ≤ frame.bytes id := by
  have h := PeerSession.onMessage_handles s env lane frame
  generalize s.onMessage env lane frame = m at h ⊢
  cases h with
  | admits id' size head =>
    dsimp only
    split <;> exact le_rfl
  | books | refuses => exact Nat.zero_le _
  | enqueues => exact le_rfl
  | _ => exact Nat.zero_le _

theorem step_bytes {t : PeerSession} {e : SessionEvent} (hth : PeerSession.Threaded s) (hs : s.step e = some t)
    (he : isReceive e = false) {r : Ref} (hr : r < s.next) (lane : Nat)
    (hlane : ∀ l, l ≠ lane → ∀ c ∈ s.rx l, c.bytes (s.states r).id = 0) :
    (t.states r).bodyBytes + bytesLeft (s.states r).id (t.rx lane) ≤
      (s.states r).bodyBytes + bytesLeft (s.states r).id (s.rx lane) := by
  by_cases hevent : PeerSession.isLaneEvent e = true
  · cases PeerSession.step_becomes hs with
    | receives => cases he
    | laneGoesOn l env c others hrx =>
      have hc : c ∈ s.rx l := by simp [hrx]
      have hbytes := touches_bytes (PeerSession.exec_touches s env r c) (hth.rx l c hc).1
      show ((s.exec env c).1.states r).bodyBytes +
        bytesLeft (s.states r).id (update (s.exec env c).1.rx l ((s.exec env c).2 ++ others) lane) ≤ _
      by_cases hl : lane = l
      · rw [hl, update_self, hrx, bytesLeft_append, exec_bytes, bytesLeft_cons]
        omega
      · rw [update_of_ne hl, (PeerSession.exec_sameThreads s env c).1]
        grind
    | _ => cases hevent
  · rw [PeerSession.step_rx hs (by simpa using hevent)]
    refine Nat.add_le_add_right ?_ _
    have hchanges := PeerSession.step_changes hs hr
    generalize t.states r = st at hchanges ⊢
    cases hchanges with
    | lane => exact absurd rfl hevent
    | task task env c others st htask hc =>
      obtain ⟨hrefers, hreceiving⟩ := hth.tasks task c (by rw [htask]; exact List.mem_cons_self)
      have hbytes := touches_bytes hc hrefers
      rwa [section_bytes_of_not_receiving hreceiving, Nat.add_zero] at hbytes
    | chunkConsumed => exact le_of_eq (PeerSession.requestBodyChunkConsumed_upload (s.states r)).2.2
    | _ => exact le_rfl

theorem Sized.node {sys : UploadSystem} (h : Sized sys) (hr : Routed sys) {e : SessionEvent} {node : PeerSession}
    (he : isReceive e = false) (hnode : sys.node.step e = some node) : Sized { sys with node := node } := by
  have hcarries : PeerSession.Carries sys.node node := by
    rcases PeerSession.step_carries_or_admits hnode with hc | ⟨l, id, size, head, env, rfl, -⟩
    · exact hc
    · cases he
  intro r hlt hbody
  change r < node.next at hlt
  rw [hcarries.next] at hlt
  have hsame := (hcarries.moves r).same
  have hbefore := h r hlt (hsame.hasBody.symm.trans hbody)
  show (node.states r).bodyBytes + bytesLeft (node.states r).id (node.rx (sys.page (node.states r).id).lane) +
    bytesIn (node.states r).id (sys.toNode (sys.page (node.states r).id).lane) ≤ (sys.page (node.states r).id).sentBytes
  rw [hsame.id]
  have hstep := step_bytes hr.threaded hnode he hlt (sys.page (sys.node.states r).id).lane fun l hl c hc =>
    section_bytes_of_not_about fun habout => hl (hr.rx l c hc _ habout).2.symm
  omega

theorem bytesIn_of_bodiesIn : ∀ {frames : List PeerFrame}, bodiesIn id frames = 0 → bytesIn id frames = 0
  | [], _ => rfl
  | f :: frames, h => by
    rw [bodiesIn_cons] at h
    have hframe : f.bytes id = 0 := by
      cases f with
      | reqBody id' payload =>
        refine if_neg fun heq => ?_
        rw [PeerSession.frameLoad, if_pos heq] at h
        omega
      | _ => rfl
    rw [bytesIn_cons, hframe, bytesIn_of_bodiesIn (by omega)]

theorem deliver_bytes {lane : Nat} {rest : List PeerFrame}
    {node : PeerSession} (hlane : sys.toNode lane = f :: rest) (hs : sys.node.step (.receive lane f env) = some node)
    (id : Nat) : bytesLeft id (node.rx (sys.page id).lane) +
      bytesIn id (update sys.toNode lane rest (sys.page id).lane) ≤
        bytesLeft id (sys.node.rx (sys.page id).lane) + bytesIn id (sys.toNode (sys.page id).lane) := by
  obtain ⟨hidle, -, rfl⟩ := PeerSession.receive_eq hs
  have hbytes := onMessage_bytes sys.node env lane f id
  show bytesLeft id (update (sys.node.onMessage env lane f).1.rx lane _ (sys.page id).lane) + _ ≤ _
  by_cases hl : (sys.page id).lane = lane
  · rw [hl, update_self, update_self, hlane, hidle, bytesIn_cons]
    omega
  · rw [update_of_ne hl, update_of_ne hl, (PeerSession.onMessage_sameThreads sys.node env lane f).1]

theorem Sized.deliver (h : Sized sys) (hr : Routed sys) (hf : Funded sys) {lane : Nat}
    {rest : List PeerFrame} {node : PeerSession} (hlane : sys.toNode lane = f :: rest)
    (hs : sys.node.step (.receive lane f env) = some node) :
    Sized { sys with node := node, toNode := update sys.toNode lane rest } := by
  have hold : ∀ r, r < sys.node.next → (node.states r).hasBody = true →
      (node.states r).bodyBytes + bytesLeft (node.states r).id (node.rx (sys.page (node.states r).id).lane) +
        bytesIn (node.states r).id (update sys.toNode lane rest (sys.page (node.states r).id).lane) ≤
          (sys.page (node.states r).id).sentBytes := by
    intro r hlt hbody
    have hsame : node.states r = sys.node.states r := by
      have hchanges := PeerSession.step_changes hs hlt
      generalize node.states r = st at hchanges ⊢
      cases hchanges
      rfl
    rw [hsame] at hbody ⊢
    have hbefore := h r hlt hbody
    have hdelivered := deliver_bytes hlane hs (sys.node.states r).id
    omega
  intro r hlt hbody
  rcases PeerSession.step_carries_or_admits hs with hc | ⟨l, id, size, head, env', he, -, -, hadmits, rx, rfl⟩
  · exact hold r (hc.next ▸ hlt) hbody
  by_cases hr' : r < sys.node.next
  · exact hold r hr' hbody
  cases he
  have hnew : r = sys.node.next := Nat.le_antisymm (Nat.lt_succ_iff.1 hlt) (not_lt.1 hr')
  subst hnew
  -- nothing of an upload is on its way before its request is admitted
  have hnothing : sys.node.budget id = 0 := by
    refine Finset.sum_eq_zero fun q hq => if_neg fun hboth => ?_
    have hreqs := (hr.admitted q (Finset.mem_range.1 hq)).2.2 lane
    rw [hboth.2, hlane] at hreqs
    simp [reqsIn, isReq] at hreqs
  have hspent := hf id
  have hpage : (sys.page id).lane = lane := (hr.lanes lane _ (by rw [hlane]; exact List.mem_cons_self) id rfl).2
  have hidle : sys.node.rx lane = [] := (PeerSession.receive_eq hs).1
  have hbytes : bytesIn id (sys.toNode (sys.page id).lane) = 0 := bytesIn_of_bodiesIn (by unfold spent at hspent; omega)
  have hdelivered := deliver_bytes hlane hs id
  rw [hbytes, hpage, hidle] at hdelivered
  have hstate := PeerSession.admitted_state sys.node env lane id head
  show ((sys.node.admitted env lane id head).states sys.node.next).bodyBytes + bytesLeft _ (rx _) + bytesIn _ _ ≤ _
  rw [hstate]
  show 0 + bytesLeft id (rx (sys.page id).lane) + bytesIn id (update sys.toNode lane rest (sys.page id).lane) ≤ _
  rw [hpage]
  change bytesLeft id (rx lane) + _ ≤ 0 + 0 at hdelivered
  omega

theorem Sized.start : Sized start := fun _ h => absurd h (Nat.not_lt_zero _)

theorem Sized.step {sys sys' : UploadSystem} {e : UploadEvent} (h : Sized sys) (hr : Routed sys) (hf : Funded sys)
    (hs : sys.step e = some sys') : Sized sys' := by
  cases step_becomes hs with
  | page id e p frames hacts => exact h.acts hr hacts
  | onFrame id f rest p frames _ hacts =>
    have htaken : Sized (sys.takeFrame id) := h
    exact htaken.acts hr.takeFrame hacts
  | deliver lane env f rest node hlane hnode => exact h.deliver hr hf hlane hnode
  | node e node he hnode => exact h.node hr he hnode

end UploadSystem
end YuriRtc
