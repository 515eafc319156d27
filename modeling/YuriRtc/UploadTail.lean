import YuriRtc.SessionTombstones
import YuriRtc.UploadOrder
import YuriRtc.UploadSize
/-!
# UploadTail — the frames that are still on their way when an upload is cut off

A page that keeps to its discipline goes on sending body frames until it learns that its request is over.  Each of them
finds the request, or the tombstone of the request, as long as `Conforms` holds: tombstones last as long as frames may come,
the node's credit frames go out, a handler leaves the body of an unfinished upload open, and a request whose `ReqEnd`
follows it at once is not refused.  Then no frame is ever charged as a protocol violation (`conforming_not_charged`).
-/
namespace YuriRtc

open Function (update update_self)
open Steps (run)
open PeerSession (SessionEvent Threaded Takes Entombed Marked OneFrame LanesBelow Loses Admits Keeps absorbed admitted_state exec
  exec_leadsTo exec_sameThreads isLive_iff laneGoesOn_eq lookup_remember_self onMessage onMessage_sameThreads receive_eq
  step_carries_or_admits step_dead step_keeps step_rx step_takes)
open PeerSession.Threaded (mem_spawn mem_update)

def PeerFrame.WellFormed : PeerFrame → Prop
  | .req _ size head => size ≤ maxRequestHeadBytes ∧ ∃ h, head = some h ∧ validateRequestHead h = none
  | .credit _ count => count ≠ 0
  | .reqBody _ _ | .reqEnd _ | .cancel _ => True
  | .undecodable | .webSocket _ | .response => False

namespace UploadSystem

/-! ### What is asked of page, node and handlers -/

def TombstonesLast (sys : UploadSystem) (e : SessionEvent) : Prop :=
  ∀ t ∈ sys.node.rejectedBodies.entries, Quiet sys t.1 ∨ ¬ sys.node.Loses t.1 e

instance (sys : UploadSystem) (e : SessionEvent) : Decidable (TombstonesLast sys e) :=
  inferInstanceAs (Decidable (∀ t ∈ sys.node.rejectedBodies.entries, _))

def sendsInitialCredits : List Section → Bool
  | .sendInitialCredits _ :: _ => true
  | _ => false

def NodeConforms (sys : UploadSystem) : SessionEvent → Prop
  | .laneGoesOn lane env => sendsInitialCredits (sys.node.rx lane) = true → env.sendOk = true
  | .chunkConsumed r env => (sys.node.states r).requestBodyChunkConsumed.2 ≠ 0 → env.sendOk = true
  | .handlerCloses r => Takes sys.node r → Quiet sys (sys.node.states r).id
  | .receive _ _ _ | .taskGoesOn _ _ | .dispatch | .startPicked | .dropPicked | .timer _ _ | .consumer _ _ | .respond _ _
  | .attach | .detachLane _ _ | .close => True

instance (sys : UploadSystem) : (e : SessionEvent) → Decidable (NodeConforms sys e)
  | .laneGoesOn _ _ | .chunkConsumed _ _ | .handlerCloses _ => inferInstanceAs (Decidable (_ → _))
  | .receive _ _ _ | .taskGoesOn _ _ | .dispatch | .startPicked | .dropPicked | .timer _ _ | .consumer _ _ | .respond _ _
  | .attach | .detachLane _ _ | .close => isTrue trivial

/-- A request whose `ReqEnd` is on the lane already is admitted. -/
def EndAdmitted (sys : UploadSystem) (lane : Nat) (env : Env) (rest : List PeerFrame) : PeerFrame → Prop
  | .req id _ (some head) => .reqEnd id ∈ rest → sys.node.closed = true ∨ Admits sys.node env lane id head
  | .req _ _ none | .undecodable | .reqBody _ _ | .reqEnd _ | .credit _ _ | .cancel _ | .webSocket _ | .response => True

instance (sys : UploadSystem) (lane : Nat) (env : Env) (rest : List PeerFrame) (f : PeerFrame) :
    Decidable (EndAdmitted sys lane env rest f) := by
  unfold EndAdmitted
  split <;> infer_instance

/-- **What is asked of page, node and handlers for a run without violations.** -/
def Conforms (sys : UploadSystem) : UploadEvent → Prop
  | .startRequest _ _ size _ _ => size ≤ maxRequestHeadBytes
  | .sendBody id payload => (sys.page id).sentBytes + payload.length ≤ maxRequestBodyBytes
  | .deliver lane env => ∀ f ∈ (sys.toNode lane).head?,
    TombstonesLast sys (.receive lane f env) ∧ EndAdmitted sys lane env (sys.toNode lane).tail f
  | .node e => TombstonesLast sys e ∧ NodeConforms sys e
  | .takeUploadCredit _ | .sendEnd _ | .sendCredit _ _ | .cancelRequest _ | .abandon _ | .onFrame _ => True

instance (sys : UploadSystem) (e : UploadEvent) : Decidable (Conforms sys e) := by
  unfold Conforms
  split <;> infer_instance

/-! ### The invariant -/

def Uploads (sys : UploadSystem) (id : Nat) : Prop :=
  ∃ r < sys.node.next, (sys.node.states r).id = id ∧ (sys.node.states r).hasBody = true

def Safe (sys : UploadSystem) (id : Nat) : Prop := Quiet sys id ∨ Entombed sys.node id

def Settled (sys : UploadSystem) : Section → Prop
  | .cancelState id r allowTrailing _ => allowTrailing = false → (sys.node.states r).hasBody = true →
    sys.node.isLive r = false ∨ Safe sys id
  | .cancelContext r | .stopBody r | .closeBody r => sys.node.isLive r = false
  | .discardBody id _ _ => ∃ r < sys.node.next, (sys.node.states r).id = id ∧ (sys.node.states r).hasBody = true ∧
    sys.node.isLive r = false
  | .discardRaced _ _ r e => (e = .body .closed ∨ e = .body .ended) ∧ ¬ Takes sys.node r
  | .enqueueBody _ _ _ _ | .dropTombstone _ _ | .endBody _ | .snapshot _ _ | .closeCurrent _ | .timeoutError _
  | .sendInitialCredits _ | .armTimer _ | .serve _ | .handlerExited _ => True

/-- **Every frame of an upload finds its request, or its tombstone.** -/
structure Tail (sys : UploadSystem) : Prop where
  announced : ∀ id, ∀ f ∈ sys.toNode (sys.page id).lane, f.isUpload id = true → Uploads sys id ∨
    f = .reqEnd id ∧ ∃ size head, .req id size (some head) ∈ sys.toNode (sys.page id).lane ∧ head.hasBody = true
  credited : ∀ id, (sys.page id).credited = true → Uploads sys id
  covered : ∀ r < sys.node.next, (sys.node.states r).hasBody = true →
    Takes sys.node r ∨ Safe sys (sys.node.states r).id
  rx : ∀ lane, ∀ c ∈ sys.node.rx lane, Settled sys c
  tasks : ∀ task, ∀ c ∈ sys.node.tasks task, Settled sys c

structure Conforming (sys : UploadSystem) : Prop where
  sound : Sound sys
  inOrder : InOrder sys
  sized : Sized sys
  marked : Marked sys.node
  oneFrame : OneFrame sys.node
  lanesBelow : LanesBelow sys.node
  wellFormed : ∀ lane, ∀ f ∈ sys.toNode lane, f.WellFormed
  sent : ∀ id, (sys.page id).sentBytes ≤ maxRequestBodyBytes
  tail : sys.node.closed = false → Tail sys
  uncharged : sys.node.protocolViolations = 0

structure Onward (sys sys' : UploadSystem) : Prop where
  keeps : Keeps sys.node sys'.node
  dead : ∀ r < sys.node.next, sys.node.isLive r = false → sys'.node.isLive r = false
  stopped : ∀ r < sys.node.next, ¬ Takes sys.node r → ¬ Takes sys'.node r
  safe : ∀ id, sys.Used id → Safe sys id → Safe sys' id

theorem Uploads.onward {sys sys' : UploadSystem} (h : Onward sys sys') {id : Nat} (hu : Uploads sys id) : Uploads sys' id := by
  obtain ⟨r, hr, hid, hbody⟩ := hu
  have hsame := h.keeps.same r hr
  exact ⟨r, lt_of_lt_of_le hr h.keeps.next, hsame.id.trans hid, hsame.hasBody.trans hbody⟩

theorem Settled.onward {sys sys' : UploadSystem} (h : Onward sys sys') (hr : Routed sys) {c : Section}
    (hrefers : c.Refers sys.node) (hc : Settled sys c) : Settled sys' c := by
  cases c with
  | cancelState id r allowTrailing timedOut =>
    obtain ⟨hlt, hid⟩ := hrefers
    intro htrailing hbody
    rcases hc htrailing ((h.keeps.same r hlt).hasBody.symm.trans hbody) with hdead | hsafe
    · exact .inl (h.dead r hlt hdead)
    · exact .inr (h.safe id (hid ▸ (hr.admitted r hlt).1) hsafe)
  | cancelContext r | stopBody r | closeBody r => exact h.dead r hrefers hc
  | discardBody id lane isEnd =>
    obtain ⟨r, hlt, hid, hbody, hdead⟩ := hc
    exact ⟨r, lt_of_lt_of_le hlt h.keeps.next, (h.keeps.same r hlt).id.trans hid,
      (h.keeps.same r hlt).hasBody.trans hbody, h.dead r hlt hdead⟩
  | discardRaced id lane r e => exact ⟨hc.1, h.stopped r hrefers.1 hc.2⟩
  | _ => trivial

/-! ### No frame is charged -/

variable {lane : Nat} {c : Section} {env : Env} {f : PeerFrame} {frames : List PeerFrame} {s : PeerSession}
  {sys sys' : UploadSystem} {id : Nat}

section

include sys

theorem not_quiet (hc : c ∈ sys.node.rx lane) (id : Nat)
    (hid : c.isUpload sys.node id = true) (hlane : (sys.page id).lane = lane) : ¬ Quiet sys id := by
  rintro (⟨-, -, hidle⟩ | ⟨-, hidle⟩)
  · simp_all
  · simp_all

theorem tombstone_takes (hsound : Sound sys) (hmarked : Marked sys.node)
    (hc : c ∈ sys.node.rx lane) (isEnd : Bool) (env : Env) (hload : isEnd = true ∨ 0 < c.load sys.node id)
    (hlane : (sys.page id).lane = lane) (hentombed : Entombed sys.node id)
    (hlasts : ¬ sys.node.Expires env.now id) : (sys.node.discardRejectedRequestBody env id lane isEnd).2 = true := by
  obtain ⟨t, ht⟩ := Option.isSome_iff_exists.1 hentombed
  obtain ⟨r, hlt, hid, hbody, htlane⟩ := hmarked id t ht
  have hpage := (hsound.routed.admitted r hlt).2.1
  rw [hid, hlane] at hpage
  refine PeerSession.discard_takes ht hlasts (htlane.symm.trans hpage.symm) (hload.imp_right fun hpos => ?_)
  have hspent := hsound.spent_le_available hlt hbody
  have hwindow := (hsound.booked r hlt hbody).window
  rw [hid, ← hpage] at hspent
  have hloads := load_le_loads sys.node id hc
  have habsorbed : sys.node.absorbed id = maxRejectedBodyTrailingFrames - t.remaining := by
    rw [absorbed, ht]
    rfl
  have hframes : maxRejectedBodyTrailingFrames = maxRequestCredits := rfl
  omega

theorem Conforming.section_ok (h : Conforming sys) (htail : Tail sys)
    (hc : c ∈ sys.node.rx lane)
    (hlast : ∀ id, Entombed sys.node id → ¬ Quiet sys id → sys.node.LosesIn env id c → False) :
    ¬ sys.node.AtFault env c := by
  have hr := h.sound.routed
  obtain ⟨hrefers, hreceives⟩ := hr.threaded.rx lane c hc
  have hsettled := htail.rx lane c hc
  cases c with
  | discardRaced id l r e =>
    obtain ⟨hlt, hid, hbody⟩ := hrefers
    obtain ⟨rfl, hl⟩ := hreceives
    obtain ⟨he, hstopped⟩ := hsettled
    have hpage : (sys.page id).lane = l := by
      rw [← hid, (hr.admitted r hlt).2.1, hl]
    have hquiet := not_quiet hc id (by simp [Section.isUpload]) hpage
    have hentombed : Entombed sys.node id := by
      rcases htail.covered r hlt hbody with htakes | hquiet' | hentombed
      · exact absurd htakes hstopped
      · exact absurd (hid ▸ hquiet') hquiet
      · exact hid ▸ hentombed
    have hload : 0 < (Section.discardRaced id l r e).load sys.node id := by simp [Section.load]
    have htakes := tombstone_takes h.sound h.marked hc false env (.inr hload) hpage hentombed
      (fun hx => hlast id hentombed hquiet hx)
    intro hfault
    rcases he with rfl | rfl
    · cases htakes.symm.trans hfault
    · cases htakes.symm.trans hfault
  | discardBody id l isEnd =>
    obtain ⟨r, hlt, hid, hbody, hdead⟩ := hsettled
    have hl : l = lane := hreceives
    subst hl
    have hpage : (sys.page id).lane = l := (hr.rx l _ hc id rfl).2
    have hquiet := not_quiet hc id (by simp [Section.isUpload]) hpage
    have hentombed : Entombed sys.node id := by
      rcases htail.covered r hlt hbody with htakes | hquiet' | hentombed
      · cases hdead.symm.trans htakes.live
      · exact absurd (hid ▸ hquiet') hquiet
      · exact hid ▸ hentombed
    have hload : isEnd = true ∨ 0 < (Section.discardBody id l isEnd).load sys.node id := by
      cases isEnd <;> simp [Section.load]
    have htakes := tombstone_takes h.sound h.marked hc isEnd env hload hpage hentombed
      (fun hx => hlast id hentombed hquiet hx)
    intro hfault
    cases htakes.symm.trans hfault
  | _ => exact fun hfault => hfault

theorem Conforming.frame_ok (h : Conforming sys)
    (hf : f ∈ sys.toNode lane) (env : Env) : ¬ sys.node.ChargingFrame env lane f := by
  have hr := h.sound.routed
  have hform := h.wellFormed lane f hf
  cases f with
  | credit id count =>
    rintro (hzero | ⟨r, hlookup, hne⟩)
    · exact hform hzero
    obtain ⟨hlt, hid⟩ := hr.threaded.indexed id r hlookup
    have hpage := (hr.admitted r hlt).2.1
    rw [hid, (hr.lanes lane _ hf id rfl).2] at hpage
    exact hne hpage.symm
  | req id size head =>
    have hunadmitted : ∀ r, r < sys.node.next → (sys.node.states r).id ≠ id := fun r hlt hid => by
      have hreqs := (hr.admitted r hlt).2.2 lane
      rw [hid] at hreqs
      exact List.countP_eq_zero.1 hreqs _ hf (by simp [isReq])
    obtain ⟨hsize, hd, rfl, hvalid⟩ := hform
    rintro (hlarge | hnone | ⟨hd', heq, hinvalid⟩ | hlive | hdraining)
    · exact not_lt.2 hsize hlarge
    · cases hnone
    · grind
    · obtain ⟨r, hlookup⟩ := Option.ne_none_iff_exists'.1 hlive
      obtain ⟨hlt, hid⟩ := hr.threaded.indexed id r hlookup
      exact hunadmitted r hlt hid
    obtain ⟨t', ht'⟩ := Option.ne_none_iff_exists'.1 hdraining
    obtain ⟨t, ht, -⟩ := PeerSession.retains_prune sys.node env.now id t' ht'
    obtain ⟨r, hlt, hid, -⟩ := h.marked id t ht
    exact hunadmitted r hlt hid
  | undecodable | webSocket | response => exact fun _ => hform
  | reqBody | reqEnd | cancel => exact fun hcharged => hcharged

theorem TombstonesLast.stays {e : SessionEvent} (h : TombstonesLast sys e)
    (hentombed : Entombed sys.node id) (hquiet : ¬ Quiet sys id) : ¬ sys.node.Loses id e := by
  obtain ⟨t, ht⟩ := Option.isSome_iff_exists.1 hentombed
  exact (h ⟨id, t⟩ ((Assoc.mem_entries_iff_lookup _ _ _).2 ht)).resolve_left hquiet

theorem Conforming.not_charged (h : Conforming sys) (htail : Tail sys) {e : SessionEvent}
    (hlast : TombstonesLast sys e) (hframe : ∀ lane f env, e = .receive lane f env → f ∈ sys.toNode lane) :
    ¬ sys.node.Charges e := by
  cases e with
  | receive lane f env => exact h.frame_ok (hframe lane f env rfl) env
  | laneGoesOn lane env =>
    rintro ⟨c, others, hrx, hfault⟩
    have hhead : c ∈ (sys.node.rx lane).head? := by
      rw [hrx]
      rfl
    have hmem : c ∈ sys.node.rx lane := by simp_all
    exact h.section_ok htail hmem (fun id hentombed hquiet hloses => hlast.stays hentombed hquiet ⟨c, hhead, hloses⟩) hfault
  | taskGoesOn task env =>
    rintro ⟨c, others, htask, hfault⟩
    have hreceiving := (h.sound.routed.threaded.tasks task c (by rw [htask]; exact List.mem_cons_self)).2
    cases c with
    | discardRaced | discardBody => cases hreceiving
    | _ => exact hfault
  | _ => exact fun hcharged => hcharged

end

/-! ### What a step leaves as it is -/

theorem exec_isLast (env : Env) : ∀ {c : Section}, c.isLast s id = true → (s.exec env c).2 = []
  | .discardBody _ _ _, _ | .dropTombstone _ _, _ | .endBody _, _ => rfl

theorem Conforming.quiet_after (h : Conforming sys)
    {others : List Section} {node : PeerSession} (hrx : sys.node.rx lane = c :: others)
    (hnode : sys.node.step (.laneGoesOn lane env) = some node) (hlast : c.isLast sys.node id = true) :
    Quiet { sys with node := node } id := by
  have hc : c ∈ sys.node.rx lane := by grind
  have hothers : ∀ c' ∈ others, c'.isReceiving = false := fun c' hc' => h.oneFrame lane c' (by rw [hrx]; exact hc')
  have habout : c.about sys.node = some id := by
    cases c with
    | discardBody id' l isEnd =>
      simp only [Section.isLast, Bool.and_eq_true, beq_iff_eq] at hlast
      exact congrArg some hlast.2
    | dropTombstone id' l => exact congrArg some (by simpa [Section.isLast] using hlast)
    | endBody r => exact congrArg some (by simpa [Section.isLast] using hlast)
    | _ => cases hlast
  have hpage := (h.sound.routed.rx lane c hc id habout).2
  refine .inr ⟨h.inOrder.drained lane c hc id hlast, fun c' hc' => ?_⟩
  obtain ⟨first, rest, hrx', rfl⟩ := laneGoesOn_eq hnode
  cases hrx.symm.trans hrx'
  change c' ∈ update (sys.node.exec env c).1.rx lane _ (sys.page id).lane at hc'
  rw [hpage, update_self, exec_isLast env hlast, List.nil_append] at hc'
  exact Section.isUpload_of_not_receiving _ id (hothers c' hc')

theorem isLast_of_erasesIn : ∀ {c : Section}, PeerSession.ErasesIn id c → c.isLast s id = true
  | .discardBody _ _ _, ⟨hend, hid⟩ => by simp [Section.isLast, hend, hid]
  | .dropTombstone id' _, hid => by
    have heq : id' = id := hid
    simp [Section.isLast, heq]

theorem Conforming.onward (h : Conforming sys) {ev : UploadEvent} (hs : sys.step ev = some sys')
    {e : SessionEvent} (hnode : sys.node.step e = some sys'.node) (hsys : isReceive e = false → sys' = { sys with node := sys'.node })
    (hlast : TombstonesLast sys e) (hopen : sys.node.closed = false) (hopen' : sys'.node.closed = false) :
    Onward sys sys' where
  keeps := step_keeps hnode
  dead r hlt hdead := Bool.eq_false_iff.2 fun hlive => by
    cases hdead.symm.trans (step_dead hnode hlt hlive)
  stopped r hlt hstopped htakes := hstopped (PeerSession.step_stopped h.sound.booked hnode hlt htakes)
  safe id hused hsafe := by
    by_cases hquiet : Quiet sys id
    · exact .inl (hquiet.step h.sound.routed hused hopen hs)
    have hentombed := hsafe.resolve_left hquiet
    by_cases herases : sys.node.Erases id e
    · cases e with
      | laneGoesOn lane env =>
        obtain ⟨c, others, hrx, hc⟩ := herases
        rw [hsys rfl]
        exact .inl (h.quiet_after hrx hnode (isLast_of_erasesIn hc))
      | taskGoesOn task env =>
        obtain ⟨c, others, htask, hc⟩ := herases
        have hreceiving := (h.sound.routed.threaded.tasks task c (by rw [htask]; exact List.mem_cons_self)).2
        cases c with
        | discardBody | dropTombstone => cases hreceiving
        | _ => cases hc
      | _ => cases herases
    · exact .inr (PeerSession.step_entombed hnode hopen' hentombed (hlast.stays hentombed hquiet) herases)

/-! ### Every upload stays covered -/

theorem exec_remembers (env : Env) {r : Ref} (timedOut : Bool)
    (hlive : s.requests.lookup id = some r) (hbody : (s.states r).hasBody = true) :
    Entombed (s.exec env (.cancelState id r true timedOut)).1 id := by
  simp only [exec, if_pos hlive, PeerSession.removeRequest, hbody, Bool.and_self, if_true]
  rw [Entombed, lookup_remember_self]
  rfl

theorem stopsIn_safe (hr : Routed sys) (hon : Onward sys sys') (env : Env) {r : Ref}
    (hstops : PeerSession.StopsIn r c) (hrefers : c.Refers sys.node) (hsettled : Settled sys c) (htakes : Takes sys.node r)
    (hbody : (sys.node.states r).hasBody = true)
    (htombs : sys'.node.rejectedBodies = (sys.node.exec env c).1.rejectedBodies)
    (hends : c = .endBody r → Quiet sys' (sys.node.states r).id) : Safe sys' (sys.node.states r).id := by
  have hdead : ¬ sys.node.isLive r = false := fun hdead => by cases hdead.symm.trans htakes.live
  cases c with
  | endBody r' =>
    have hr' : r' = r := hstops
    exact .inl (hends (by rw [hr']))
  | stopBody r' =>
    have hr' : r' = r := hstops
    exact absurd (hr' ▸ hsettled) hdead
  | closeBody r' =>
    have hr' : r' = r := hstops
    exact absurd (hr' ▸ hsettled) hdead
  | cancelState id r' allowTrailing timedOut =>
    have hr' : r' = r := hstops
    subst hr'
    obtain ⟨hlt, hid⟩ := hrefers
    cases allowTrailing with
    | false =>
      rcases hsettled rfl hbody with hnot | hsafe
      · exact absurd hnot hdead
      · exact hon.safe _ (hr.admitted r' hlt).1 (hid ▸ hsafe)
    | true =>
      refine .inr ?_
      have hremembers := exec_remembers env timedOut (hid ▸ isLive_iff.1 htakes.live) hbody
      grind [Entombed]
  | _ => cases hstops

theorem takes_admitted (s : PeerSession) (env : Env) (lane id : Nat) (head : RequestHead) (rx : Nat → List Section) :
    Takes { s.admitted env lane id head with rx := rx } s.next := by
  have hstate := admitted_state s env lane id head
  refine ⟨?_, ?_, ?_⟩
  · rw [isLive_iff]
    show (s.requests.insert id s.next).lookup ((s.admitted env lane id head).states s.next).id = some s.next
    rw [hstate]
    exact AList.lookup_insert _
  · show ((s.admitted env lane id head).states s.next).bodyEnded = false
    rw [hstate]
    rfl
  show ((s.admitted env lane id head).states s.next).body.closed = false
  rw [hstate]
  rfl

theorem timer_takes {s t : PeerSession} {r : Ref} (hs : s.step (.timer r env) = some t) (h : Takes s r) :
    Takes t r ∨ Entombed t (s.states r).id := by
  cases PeerSession.step_becomes hs with
  | timerStopped => exact .inl h
  | timerLate _ _ hdead => cases hdead.symm.trans h.live
  | timerFires =>
    refine .inr ?_
    show ((PeerSession.rememberRejectedBodyLocked _ env _ _).rejectedBodies.lookup _).isSome = true
    rw [lookup_remember_self]
    rfl

/-- **Every admitted upload stays covered**: by its request, by a tombstone, or by there being nothing more of it. -/
theorem Conforming.covered (h : Conforming sys) (htail : Tail sys) (hon : Onward sys sys')
    {e : SessionEvent} (hnode : sys.node.step e = some sys'.node)
    (hsys : isReceive e = false → sys' = { sys with node := sys'.node }) (hconforms : NodeConforms sys e)
    (hopen' : sys'.node.closed = false) :
    ∀ r < sys'.node.next, (sys'.node.states r).hasBody = true → Takes sys'.node r ∨ Safe sys' (sys'.node.states r).id := by
  intro r hlt' hbody'
  have hr := h.sound.routed
  by_cases hlt : r < sys.node.next
  · have hsame := hon.keeps.same r hlt
    have hbody := hsame.hasBody.symm.trans hbody'
    have hused := (hr.admitted r hlt).1
    rw [hsame.id]
    rcases htail.covered r hlt hbody with htakes | hsafe
    · by_cases hstops : sys.node.Stops r e
      · cases e with
        | laneGoesOn lane env =>
          obtain ⟨c, others, hrx, hc⟩ := hstops
          have hmem : c ∈ sys.node.rx lane := by simp [hrx]
          obtain ⟨first, rest, hrx', heq⟩ := laneGoesOn_eq hnode
          cases hrx.symm.trans hrx'
          refine .inr (stopsIn_safe hr hon env hc (hr.threaded.rx lane c hmem).1 (htail.rx lane c hmem) htakes hbody ?_ ?_)
          · rw [heq]
          rintro rfl
          rw [hsys rfl]
          exact h.quiet_after hrx hnode (by simp [Section.isLast])
        | taskGoesOn task env =>
          obtain ⟨c, others, htask, hc⟩ := hstops
          have hmem : c ∈ sys.node.tasks task := by simp [htask]
          obtain ⟨first, rest, htask', heq⟩ := PeerSession.taskGoesOn_eq hnode
          cases htask.symm.trans htask'
          refine .inr (stopsIn_safe hr hon env hc (hr.threaded.tasks task c hmem).1 (htail.tasks task c hmem) htakes hbody ?_ ?_)
          · rw [heq]
          · rintro rfl
            cases (hr.threaded.tasks task _ hmem).2
        | timer r' env =>
          have hr' : r' = r := hstops
          subst hr'
          exact (timer_takes hnode htakes).imp_right .inr
        | handlerCloses r' =>
          have hr' : r' = r := hstops
          subst hr'
          exact .inr (hon.safe _ hused (.inl (hconforms htakes)))
        | _ => cases hstops
      · exact .inl (step_takes h.sound.booked hnode hlt htakes hopen' hstops)
    · exact .inr (hon.safe _ hused hsafe)
  · rcases step_carries_or_admits hnode with hc | ⟨lane, id, size, head, env, -, -, -, -, rx, heq⟩
    · simp_all [hc.next]
    rw [heq] at hlt' ⊢
    have hnew : r = sys.node.next := Nat.le_antisymm (Nat.lt_succ_iff.1 hlt') (not_lt.1 hlt)
    subst hnew
    exact .inl (takes_admitted sys.node env lane id head rx)

/-! ### The goroutines go on -/

theorem bytes_le_bytesLeft (id : Nat) : ∀ {sections : List Section}, c ∈ sections →
    c.bytes id ≤ bytesLeft id sections
  | first :: sections, h => by
    rw [bytesLeft_cons]
    rcases List.mem_cons.1 h with rfl | h
    · exact Nat.le_add_right _ _
    · exact le_trans (bytes_le_bytesLeft id h) (Nat.le_add_left _ _)

theorem Conforming.refused (h : Conforming sys) {id l lane now : Nat} {r : Ref} {payload : Bytes}
    (hc : .enqueueBody id l r payload ∈ sys.node.rx lane) {e : UploadError}
    (he : (sys.node.states r).enqueueRequestBody payload now = .error e) :
    (e = .body .closed ∨ e = .body .ended) ∧ ¬ Takes sys.node r := by
  have hr := h.sound.routed
  obtain ⟨⟨hlt, hid, hbody⟩, -, hlane⟩ := hr.threaded.rx lane _ hc
  have hledger := h.sound.booked r hlt hbody
  obtain ⟨hcredit, hroom⟩ := hledger.enqueue_paid (h.sound.frame_paid hc) payload now
  rcases RequestState.enqueueRequestBody_error he with ⟨rfl, hended⟩ | ⟨rfl, -⟩ | ⟨rfl, hlarge⟩ | ⟨e', rfl, he'⟩
  · exact ⟨.inr rfl, fun htakes => by cases hended.symm.trans htakes.notEnded⟩
  · exact absurd he hcredit
  · have hsized := h.sized r hlt hbody
    have hsent := h.sent (sys.node.states r).id
    have hbytes := bytes_le_bytesLeft id hc
    rw [(hr.admitted r hlt).2.1, hlane, hid] at hsized
    grind [Section.bytes]
  rcases RequestState.enqueue_error he' with ⟨rfl, hclosed⟩ | ⟨rfl, hended⟩ | ⟨rfl, -⟩
  · exact ⟨.inl rfl, fun htakes => by cases hclosed.symm.trans htakes.notClosed⟩
  · exact ⟨.inr rfl, fun htakes => by cases (hledger.ended hended).symm.trans htakes.notEnded⟩
  · exact absurd he hroom

theorem Conforming.settled_next (h : Conforming sys) (htail : Tail sys) (hon : Onward sys sys')
    {c c' : Section} (hleads : PeerSession.LeadsTo sys.node env c c') (hrefers : c.Refers sys.node)
    (hsettled : Settled sys c) (hreceives : c.isReceiving = true → ∃ lane, c ∈ sys.node.rx lane)
    (hfault : ¬ sys.node.AtFault env c) (hsends : ∀ r, c = .sendInitialCredits r → env.sendOk = true)
    (hrequests : sys'.node.requests = (sys.node.exec env c).1.requests) : Settled sys' c' := by
  have hr := h.sound.routed
  cases hleads with
  | notEnqueued id l r payload e he =>
    obtain ⟨lane, hc⟩ := hreceives rfl
    obtain ⟨herror, hstopped⟩ := h.refused hc he
    exact ⟨herror, hon.stopped r hrefers.1 hstopped⟩
  | notDiscarded id l r e hnot => exact absurd hnot hfault
  | snapshot id r =>
    intro hunfinished hbody
    obtain ⟨hlt, hid⟩ := hrefers
    rw [(hon.keeps.same r hlt).hasBody] at hbody
    have hended : (sys.node.states r).bodyEnded = true := by
      simpa [RequestState.hasUnfinishedRequestBody, hbody] using hunfinished
    rcases htail.covered r hlt hbody with htakes | hsafe
    · cases hended.symm.trans htakes.notEnded
    · exact .inr (hid ▸ hon.safe _ (hr.admitted r hlt).1 hsafe)
  | cancels id r allowTrailing timedOut hlive =>
    obtain ⟨hlt, hid⟩ := hrefers
    have hgone : sys'.node.requests.lookup id = none := by
      obtain ⟨tombstones, heq⟩ := PeerSession.removeRequest_eq sys.node env id r allowTrailing
      simp [exec, hlive, heq, hrequests]
    refine Bool.eq_false_iff.2 fun hlive' => ?_
    rw [isLive_iff, (hon.keeps.same r hlt).id, hid, hgone] at hlive'
    cases hlive'
  | stops r => exact hon.dead r hrefers hsettled
  | closes r => exact hon.dead r hrefers hsettled
  | unsent r hunsent => cases hunsent.symm.trans (hsends r rfl)
  | _ => trivial

theorem Tail.uploads (h : Tail sys) (hr : Routed sys) (ho : InOrder sys)
    {rest : List PeerFrame} (hlane : sys.toNode lane = f :: rest) (hupload : f.isUpload id = true) :
    Uploads sys id := by
  have hf : f ∈ sys.toNode lane := by simp_all
  have habout := isUpload_about hupload
  obtain ⟨-, hpage⟩ := hr.lanes lane f hf id habout
  rcases h.announced id f (by rwa [hpage]) hupload with huploads | ⟨rfl, size, head, hreq, -⟩
  · exact huploads
  have hfollows := ho.frames id
  rw [hpage, hlane] at hfollows hreq
  rcases List.mem_cons.1 hreq with heq | hrest
  · cases heq
  · have hnot := ((List.pairwise_cons.1 hfollows).1 _ hrest).2 rfl
    simp [isReq] at hnot

theorem settled_discardBody (hr : Routed sys) (hon : Onward sys sys') {lane id : Nat}
    (hpage : (sys.page id).lane = lane) (huploads : Uploads sys id)
    (hnot : ∀ r, sys.node.requests.lookup id = some r → (sys.node.states r).lane = lane →
      (sys.node.states r).hasBody = false) (isEnd : Bool) : Settled sys' (.discardBody id lane isEnd) := by
  obtain ⟨r, hlt, hid, hbody⟩ := huploads
  have hsame := hon.keeps.same r hlt
  have hdead : sys.node.isLive r = false := Bool.eq_false_iff.2 fun hlive => by
    rw [isLive_iff, hid] at hlive
    have hl : (sys.node.states r).lane = lane := by
      rw [← (hr.admitted r hlt).2.1, hid, hpage]
    simp_all
  exact ⟨r, lt_of_lt_of_le hlt hon.keeps.next, hsame.id.trans hid, hsame.hasBody.trans hbody, hon.dead r hlt hdead⟩

section

variable (h : Conforming sys) (htail : Tail sys) (hon : Onward sys sys')
include sys sys' h htail hon

theorem Conforming.settled_frame {rest : List PeerFrame} (hlane : sys.toNode lane = f :: rest) :
    ∀ c ∈ (sys.node.onMessage env lane f).2, Settled sys' c := by
  intro c hc
  have hr := h.sound.routed
  have hf : f ∈ sys.toNode lane := by simp_all
  have hupload : ∀ id, f.isUpload id = true → (sys.page id).lane = lane ∧ Uploads sys id := fun id hid =>
    ⟨(hr.lanes lane f hf id (isUpload_about hid)).2, htail.uploads hr h.inOrder hlane hid⟩
  have hm := PeerSession.onMessage_handles sys.node env lane f
  generalize sys.node.onMessage env lane f = m at hm hc
  cases hm with
  | books => cases hc
  | refuses => cases hc
  | admits id size head =>
    dsimp only at hc
    split at hc
    · rw [List.mem_singleton.1 hc]
      trivial
    · cases hc
  | discardsBody id payload hnot =>
    rw [List.mem_singleton.1 hc]
    obtain ⟨hpage, huploads⟩ := hupload id (by simp [PeerFrame.isUpload])
    exact settled_discardBody hr hon hpage huploads hnot false
  | discardsEnd id hnot =>
    rw [List.mem_singleton.1 hc]
    obtain ⟨hpage, huploads⟩ := hupload id (by simp [PeerFrame.isUpload])
    exact settled_discardBody hr hon hpage huploads hnot true
  | _ =>
    rw [List.mem_singleton.1 hc]
    trivial

theorem Conforming.settled_rx {e : SessionEvent} (hnode : sys.node.step e = some sys'.node) (hconforms : NodeConforms sys e)
    (hcharges : ¬ sys.node.Charges e)
    (hframe : ∀ lane f env, e = .receive lane f env → ∃ rest, sys.toNode lane = f :: rest) :
    ∀ lane, ∀ c ∈ sys'.node.rx lane, Settled sys' c := by
  intro l c hc
  have hr := h.sound.routed
  have hold : c ∈ sys.node.rx l → Settled sys' c := fun hmem =>
    (htail.rx l c hmem).onward hon hr (hr.threaded.rx l c hmem).1
  cases hevent : PeerSession.isLaneEvent e with
  | false => exact hold (step_rx hnode hevent ▸ hc)
  | true =>
    cases e with
    | receive lane f env =>
      obtain ⟨-, -, heq⟩ := receive_eq hnode
      rw [heq] at hc
      rcases mem_update hc with ⟨-, hnew⟩ | hmem
      · obtain ⟨rest, hlane⟩ := hframe lane f env rfl
        exact h.settled_frame htail hon hlane c hnew
      · exact hold ((onMessage_sameThreads sys.node env lane f).1 ▸ hmem)
    | laneGoesOn lane env =>
      obtain ⟨first, others, hrx, heq⟩ := laneGoesOn_eq hnode
      have hfirst : first ∈ sys.node.rx lane := by simp [hrx]
      rw [heq] at hc
      rcases mem_update hc with ⟨rfl, hmem⟩ | hmem
      · rcases List.mem_append.1 hmem with hnext | hothers
        · refine h.settled_next htail hon (exec_leadsTo hnext) (hr.threaded.rx l first hfirst).1
            (htail.rx l first hfirst) (fun _ => ⟨l, hfirst⟩) (fun hfault => hcharges ⟨first, others, hrx, hfault⟩) ?_ ?_
          · rintro r rfl
            exact hconforms (by rw [hrx]; rfl)
          · rw [heq]
        · exact hold (by rw [hrx]; exact List.mem_cons_of_mem first hothers)
      · exact hold ((exec_sameThreads sys.node env first).1 ▸ hmem)
    | _ => cases hevent

end

theorem Conforming.settled_tasks (h : Conforming sys) (htail : Tail sys) {node : PeerSession}
    {toNode : Nat → List PeerFrame} (hon : Onward sys { sys with node := node, toNode := toNode }) {e : SessionEvent}
    (hnode : sys.node.step e = some node) (hconforms : NodeConforms sys e) (hopen' : node.closed = false) :
    ∀ task, ∀ c ∈ node.tasks task, Settled { sys with node := node, toNode := toNode } c := by
  intro k c hc
  have hr := h.sound.routed
  have hold : c ∈ sys.node.tasks k → Settled { sys with node := node, toNode := toNode } c := fun hmem =>
    (htail.tasks k c hmem).onward hon hr (hr.threaded.tasks k c hmem).1
  cases PeerSession.step_becomes hnode with
  | receives lane frame env => exact hold ((onMessage_sameThreads sys.node env lane frame).2 ▸ hc)
  | laneGoesOn lane env first => exact hold ((exec_sameThreads sys.node env first).2 ▸ hc)
  | taskGoesOn task env first others htask =>
    have hfirst : first ∈ sys.node.tasks task := by simp_all
    obtain ⟨hrefers, hreceiving⟩ := hr.threaded.tasks task first hfirst
    rcases mem_update hc with ⟨rfl, hmem⟩ | hmem
    · rcases List.mem_append.1 hmem with hnext | hothers
      · refine h.settled_next htail hon (exec_leadsTo hnext) hrefers (htail.tasks k first hfirst) ?_ ?_ ?_ rfl
        · exact fun hreceives => by cases hreceiving.symm.trans hreceives
        · cases first with
          | discardRaced | discardBody => cases hreceiving
          | _ => exact fun hfault => hfault
        · rintro r rfl
          cases hreceiving
      · exact hold (by rw [htask]; exact List.mem_cons_of_mem first hothers)
    · exact hold ((exec_sameThreads sys.node env first).2 ▸ hmem)
  | starts r active =>
    rcases mem_spawn hc with hmem | hnew
    · exact hold hmem
    rcases List.mem_cons.1 hnew with rfl | hnew
    · trivial
    · rw [List.mem_singleton.1 hnew]
      trivial
  | timerFires r env =>
    have hburies := PeerSession.buries_remember (sys.node.timedOut r) env (sys.node.states r).id (sys.node.states r).lane
    rcases mem_spawn hc with hmem | hnew
    · exact hold (hburies.within.sameThreads.2 ▸ hmem)
    rw [List.mem_singleton.1 hnew]
    refine fun _ _ => .inr (.inr ?_)
    show ((PeerSession.rememberRejectedBodyLocked _ env _ _).rejectedBodies.lookup _).isSome = true
    rw [lookup_remember_self]
    rfl
  | chunkRefused r env next _ _ _ hunsent hgrant => cases hunsent.symm.trans (hconforms hgrant)
  | handlerCloses r =>
    rcases mem_spawn hc with hmem | hnew
    · exact hold hmem
    · rw [List.mem_singleton.1 hnew]
      trivial
  | detaches lane control closeRequested hlane hidle =>
    rcases mem_spawn hc with hmem | hnew
    · exact hold hmem
    obtain ⟨r, hmem, rfl⟩ := List.mem_map.1 hnew
    obtain ⟨hlive, hl⟩ := List.mem_filter.1 hmem
    obtain ⟨id, hlookup⟩ := PeerSession.mem_liveRefs hlive
    have hlt := (hr.threaded.indexed id r hlookup).1
    -- nothing more comes from a lane that is gone
    have hpage : (sys.page (sys.node.states r).id).lane = lane := (hr.admitted r hlt).2.1.trans (by simpa using hl)
    refine fun _ _ => .inr (.inl (.inl ⟨?_, ?_, ?_⟩))
    · rw [hpage]
      exact h.lanesBelow lane hlane
    · rw [hpage]
      exact fun hmem => by simpa using (List.mem_filter.1 hmem).2
    · rw [hpage]
      exact hidle
  | closes => cases hopen'
  | _ => exact hold hc

theorem Tail.node (htail : Tail sys) (h : Conforming sys) {node : PeerSession}
    {toNode : Nat → List PeerFrame} {ev : UploadEvent}
    (hs : sys.step ev = some { sys with node := node, toNode := toNode }) {e : SessionEvent}
    (hnode : sys.node.step e = some node) (hsame : isReceive e = false → toNode = sys.toNode)
    (hlast : TombstonesLast sys e) (hconforms : NodeConforms sys e)
    (hframe : ∀ lane f env, e = .receive lane f env → ∃ rest, sys.toNode lane = f :: rest)
    (hopen : sys.node.closed = false) (hopen' : node.closed = false)
    (hannounced : Onward sys { sys with node := node, toNode := toNode } → ∀ id, ∀ f ∈ toNode (sys.page id).lane,
      f.isUpload id = true → Uploads { sys with node := node, toNode := toNode } id ∨ f = .reqEnd id ∧
        ∃ size head, .req id size (some head) ∈ toNode (sys.page id).lane ∧ head.hasBody = true) :
    Tail { sys with node := node, toNode := toNode } := by
  have hsys : isReceive e = false → ({ sys with node := node, toNode := toNode } : UploadSystem) = { sys with node := node } :=
    fun he => by rw [hsame he]
  have hon : Onward sys { sys with node := node, toNode := toNode } := h.onward hs hnode hsys hlast hopen hopen'
  have hcharges := h.not_charged htail hlast fun lane f env he => by grind
  exact ⟨hannounced hon, fun id hcredited => (htail.credited id hcredited).onward hon,
    h.covered htail hon hnode hsys hconforms hopen', h.settled_rx htail hon hnode hconforms hcharges hframe,
    h.settled_tasks htail hon hnode hconforms hopen'⟩

/-! ### The page goes on -/

theorem Sound.uploads (h : Sound sys)
    (hspent : (sys.page id).credits + (sys.page id).holding.toNat ≠ 0) : Uploads sys id := by
  have hfunded := h.funded id
  have hbudget : sys.node.budget id ≠ 0 := by
    unfold spent at hfunded
    omega
  obtain ⟨r, hr, hgranted⟩ := Finset.exists_ne_zero_of_sum_ne_zero hbudget
  have hboth := not_not.1 fun hnot => hgranted (if_neg hnot)
  exact ⟨r, Finset.mem_range.1 hr, hboth.2, hboth.1⟩

section Acts

variable {e : UploadEvent} {taken : Option NodeFrame} {p : PageRequest}
  {frames : List PeerFrame}

theorem mem_put_of_mem {id' lane : Nat} (hf : f ∈ sys.toNode lane) :
    f ∈ (sys.put id' frames).toNode lane := by
  show f ∈ update sys.toNode (sys.page id').lane _ lane
  grind

theorem onward_acts (hacts : PageActs sys id e taken p frames) : Onward sys ((sys.setPage id p).put id frames) where
  keeps := (PeerSession.Carries.refl sys.node).keeps
  dead _ _ h := h
  stopped _ _ h := h
  safe _ hused hsafe := hsafe.imp_left fun hquiet => hquiet.acts hacts hused

theorem Tail.announced_acts (h : Tail sys) (hsound : Sound sys) (hacts : PageActs sys id e taken p frames) (id' : Nat)
    (f : PeerFrame) (hf : f ∈ ((sys.setPage id p).put id frames).toNode ((sys.setPage id p).page id').lane)
    (hupload : f.isUpload id' = true) : Uploads sys id' ∨ f = .reqEnd id' ∧ ∃ size head,
      .req id' size (some head) ∈ ((sys.setPage id p).put id frames).toNode ((sys.setPage id p).page id').lane ∧
        head.hasBody = true := by
  have hr := hsound.routed
  rcases mem_put hf with hold | ⟨hlane, hnew⟩
  · change f ∈ sys.toNode ((sys.setPage id p).page id').lane at hold
    have hpage := (hr.lanes _ f hold id' (isUpload_about hupload)).2
    rcases h.announced id' f (by rwa [hpage]) hupload with huploads | ⟨heq, size, head, hreq, hbody⟩
    · exact .inl huploads
    · exact .inr ⟨heq, size, head, mem_put_of_mem (hpage ▸ hreq), hbody⟩
  cases (isUpload_about hupload).symm.trans (hacts.frames_about f hnew)
  cases hacts with
  | starts lane size head stream =>
    rcases List.mem_cons.1 hnew with rfl | hend
    · cases hupload
    split at hend
    · rename_i hbody
      refine .inr ⟨List.mem_singleton.1 hend, size, head, ?_, (Bool.and_eq_true _ _ ▸ hbody).1⟩
      show _ ∈ update sys.toNode _ _ _
      simp [update_self]
    · cases hend
  | sendsBody payload hphase hholding => exact .inl (hsound.uploads (by simp [hholding]))
  | sendsEnd hphase hcredited => exact .inl (h.credited id hcredited)
  | sendsCredit | cancels | refusesGrant =>
    rw [List.mem_singleton.1 hnew] at hupload
    cases hupload
  | _ => cases hnew

theorem Tail.acts (h : Tail sys) (hsound : Sound sys) (hacts : PageActs sys id e taken p frames) :
    Tail ((sys.setPage id p).put id frames) := by
  have hr := hsound.routed
  have hon := onward_acts hacts
  refine ⟨h.announced_acts hsound hacts, fun id' hcredited => ?_, fun r hlt hbody => ?_, fun lane c hc => ?_,
    fun task c hc => ?_⟩
  · change ((sys.setPage id p).page id').credited = true at hcredited
    by_cases hid : id' = id
    · subst hid
      rw [page_setPage] at hcredited
      cases hacts with
      | starts => cases hcredited
      | takesCredit _ _ hcredits => exact hsound.uploads (by omega)
      | _ => exact h.credited id' hcredited
    · rw [page_setPage_of_ne sys hid] at hcredited
      exact h.credited id' hcredited
  · exact (h.covered r hlt hbody).imp_right (hon.safe _ (hr.admitted r hlt).1)
  · exact (h.rx lane c hc).onward hon hr (hr.threaded.rx lane c hc).1
  · exact (h.tasks task c hc).onward hon hr (hr.threaded.tasks task c hc).1

end Acts

theorem takes_takeFrame {r : Ref} : Takes (sys.takeFrame id).node r ↔ Takes sys.node r :=
  ⟨fun h => { h with }, fun h => { h with }⟩

theorem Sound.takeFrame (h : Sound sys) {f : NodeFrame} {rest : List NodeFrame}
    (hwire : sys.node.wire id = f :: rest) : Sound (sys.takeFrame id) :=
  ⟨h.routed.takeFrame, fun id' => le_trans (Nat.le_add_right _ _) (h.funded.takeFrame hwire id'), h.booked, h.within⟩

theorem Tail.takeFrame (h : Tail sys) (hr : Routed sys) (id : Nat) : Tail (sys.takeFrame id) := by
  have hon : Onward sys (sys.takeFrame id) :=
    ⟨⟨le_rfl, fun r _ => .refl _⟩, fun _ _ hdead => hdead, fun _ _ hnot htakes => hnot (takes_takeFrame.1 htakes),
      fun _ _ hsafe => hsafe⟩
  exact ⟨h.announced, h.credited, fun r hlt hbody => (h.covered r hlt hbody).imp_left takes_takeFrame.2,
    fun lane c hc => (h.rx lane c hc).onward hon hr (hr.threaded.rx lane c hc).1,
    fun task c hc => (h.tasks task c hc).onward hon hr (hr.threaded.tasks task c hc).1⟩

/-! ### Runs -/

theorem onMessage_admits {lane id size : Nat} {head : RequestHead}
    (hsize : size ≤ maxRequestHeadBytes) (hvalid : validateRequestHead head = none) (h : Admits s env lane id head) :
    (s.onMessage env lane (.req id size (some head))).1 = s.admitted env lane id head := by
  simp only [onMessage, if_neg (not_lt.2 hsize), hvalid]
  rcases PeerSession.begin_cases s env lane id head with ⟨-, hbegin⟩ | ⟨hnot, -⟩
  · rw [hbegin]
  · exact absurd h hnot

theorem Conforming.announced_deliver (h : Conforming sys) (htail : Tail sys)
    (hopen : sys.node.closed = false) {rest : List PeerFrame} {node : PeerSession}
    (hlane : sys.toNode lane = f :: rest) (hnode : sys.node.step (.receive lane f env) = some node)
    (hend : EndAdmitted sys lane env rest f)
    (hon : Onward sys { sys with node := node, toNode := update sys.toNode lane rest }) (id : Nat) (g : PeerFrame)
    (hg : g ∈ update sys.toNode lane rest (sys.page id).lane) (hupload : g.isUpload id = true) :
    Uploads { sys with node := node, toNode := update sys.toNode lane rest } id ∨ g = .reqEnd id ∧
      ∃ size head, .req id size (some head) ∈ update sys.toNode lane rest (sys.page id).lane ∧
        head.hasBody = true := by
  rcases htail.announced id g (mem_rest hlane hg) hupload with huploads | ⟨rfl, size, head, hreq, hbody⟩
  · exact .inl (huploads.onward hon)
  by_cases hl : (sys.page id).lane = lane
  · rw [hl, update_self] at hg
    rw [hl, hlane] at hreq
    rcases List.mem_cons.1 hreq with rfl | hrest
    · refine .inl ?_
      have hform := h.wellFormed lane _ (by rw [hlane]; exact List.mem_cons_self)
      obtain ⟨hsize, hd, heq, hvalid⟩ := hform
      cases heq
      have hadmits := (hend hg).resolve_left fun hclosed => by cases hopen.symm.trans hclosed
      have hadmitted := onMessage_admits hsize hvalid hadmits
      have hstate := admitted_state sys.node env lane id head
      obtain ⟨-, -, rfl⟩ := receive_eq hnode
      rw [hadmitted]
      refine ⟨sys.node.next, Nat.lt_succ_self _, ?_, ?_⟩
      · show ((sys.node.admitted env lane id head).states sys.node.next).id = id
        rw [hstate]
        rfl
      show ((sys.node.admitted env lane id head).states sys.node.next).hasBody = true
      rw [hstate]
      exact hbody
    · grind
  · grind

section

variable {e : UploadEvent} {taken : Option NodeFrame} {p : PageRequest}
  (h : PageActs sys id e taken p frames) (hok : Conforms sys e)
include sys id e taken p h hok

theorem PageActs.wellFormed : ∀ f ∈ frames, f.WellFormed := by
  intro f hf
  cases h with
  | starts lane size head stream _ hvalid =>
    rcases List.mem_cons.1 hf with rfl | hf
    · exact ⟨hok, head, rfl, hvalid⟩
    split at hf
    · rw [List.mem_singleton.1 hf]
      trivial
    · cases hf
  | sendsCredit count _ hcount =>
    rw [List.mem_singleton.1 hf]
    exact hcount
  | sendsBody | sendsEnd | cancels | refusesGrant =>
    rw [List.mem_singleton.1 hf]
    trivial
  | _ => cases hf

theorem PageActs.sent (hsent : (sys.page id).sentBytes ≤ maxRequestBodyBytes) : p.sentBytes ≤ maxRequestBodyBytes := by
  cases h with
  | starts => exact Nat.zero_le _
  | sendsBody => exact hok
  | _ => exact hsent

end

theorem Conforming.start : Conforming start where
  sound := .start
  inOrder := .start
  sized := .start
  marked := .newPeerSession
  oneFrame := .newPeerSession
  lanesBelow := .newPeerSession
  wellFormed _ _ h := by cases h
  sent _ := Nat.zero_le _
  tail _ := ⟨nofun, nofun, fun _ h => absurd h (Nat.not_lt_zero _),
    nofun, nofun⟩
  uncharged := rfl

theorem sent_acts {e : UploadEvent} {taken : Option NodeFrame} {p : PageRequest}
    (hacts : PageActs sys id e taken p frames) (hok : Conforms sys e)
    (hform : ∀ lane, ∀ f ∈ sys.toNode lane, f.WellFormed) (hsent : ∀ id, (sys.page id).sentBytes ≤ maxRequestBodyBytes) :
    (∀ lane, ∀ f ∈ ((sys.setPage id p).put id frames).toNode lane, f.WellFormed) ∧
      ∀ id', (((sys.setPage id p).put id frames).page id').sentBytes ≤ maxRequestBodyBytes := by
  refine ⟨fun lane f hf => ?_, fun id' => ?_⟩
  · rcases mem_put hf with hold | ⟨-, hnew⟩
    · exact hform lane f hold
    · exact hacts.wellFormed hok f hnew
  show ((sys.setPage id p).page id').sentBytes ≤ maxRequestBodyBytes
  by_cases hid : id' = id
  · subst hid
    rw [page_setPage]
    exact hacts.sent hok (hsent id')
  · rw [page_setPage_of_ne sys hid]
    exact hsent id'

section

variable {e : UploadEvent} (h : Conforming sys) (hok : Conforms sys e) (hs : sys.step e = some sys')
include sys sys' e h hok hs

theorem Conforming.sent_step : (∀ lane, ∀ f ∈ sys'.toNode lane, f.WellFormed) ∧
      ∀ id, (sys'.page id).sentBytes ≤ maxRequestBodyBytes := by
  cases step_becomes hs with
  | page id e p frames hacts => exact sent_acts hacts hok h.wellFormed h.sent
  | onFrame id f rest p frames _ hacts => exact sent_acts hacts trivial h.wellFormed h.sent
  | deliver lane env f rest node hlane => exact ⟨fun l g hg => h.wellFormed l g (mem_rest hlane hg), h.sent⟩
  | node => exact ⟨h.wellFormed, h.sent⟩

theorem Conforming.tail_step :
    (sys'.node.closed = false → Tail sys') ∧ sys'.node.protocolViolations = 0 := by
  have hstays : ∀ {e' : SessionEvent} {node : PeerSession}, sys.node.step e' = some node → node.closed = false →
      sys.node.closed = false := fun hnode hopen' => Bool.eq_false_iff.2 fun hclosed => by
    rcases step_carries_or_admits hnode with hc | ⟨lane, id, size, head, env, -, -, -, hadmits, rx, rfl⟩
    · cases (hc.closed hclosed).symm.trans hopen'
    · cases hclosed.symm.trans hadmits.notClosed
  have huncharged : ∀ {e' : SessionEvent} {node : PeerSession}, sys.node.step e' = some node → TombstonesLast sys e' →
      (∀ lane f env, e' = .receive lane f env → f ∈ sys.toNode lane) → node.protocolViolations = 0 :=
    fun hnode hlast hframe => by
      rw [PeerSession.step_violations hnode, h.uncharged]
      cases hclosed : sys.node.closed with
      | true => exact .inl rfl
      | false => exact .inr (h.not_charged (h.tail hclosed) hlast hframe)
  cases step_becomes hs with
  | page id e p frames hacts => exact ⟨fun hopen => (h.tail hopen).acts h.sound hacts, h.uncharged⟩
  | onFrame id f rest p frames hwire hacts =>
    refine ⟨fun hopen => ?_, h.uncharged⟩
    exact ((h.tail hopen).takeFrame h.sound.routed id).acts (h.sound.takeFrame hwire) hacts
  | deliver lane env f rest node hlane hnode =>
    obtain ⟨hlast, hend⟩ := hok f (by rw [hlane]; rfl)
    rw [hlane, List.tail_cons] at hend
    refine ⟨fun hopen' => ?_, huncharged hnode hlast fun l g env' he => ?_⟩
    · have hopen := hstays hnode hopen'
      refine (h.tail hopen).node h hs hnode nofun hlast trivial (fun l g env' he => ?_) hopen hopen' fun hon => ?_
      · simp_all
      · exact h.announced_deliver (h.tail hopen) hopen hlane hnode hend hon
    · simp_all
  | node e node he hnode =>
    have hother : ∀ lane f env, e ≠ .receive lane f env := fun lane f env heq => by
      rw [heq] at he
      cases he
    refine ⟨fun hopen' => ?_, huncharged hnode hok.1 fun l g env' heq => absurd heq (hother l g env')⟩
    have hopen := hstays hnode hopen'
    refine (h.tail hopen).node h hs hnode (fun _ => rfl) hok.1 hok.2 (fun l g env' heq => absurd heq (hother l g env'))
      hopen hopen' fun hon id f hf hupload => ?_
    exact ((h.tail hopen).announced id f hf hupload).imp_left fun huploads => huploads.onward hon

theorem Conforming.step : Conforming sys' := by
  have hr := h.sound.routed
  obtain ⟨hform, hsent⟩ := h.sent_step hok hs
  obtain ⟨htail, huncharged⟩ := h.tail_step hok hs
  have hnode : Marked sys'.node ∧ OneFrame sys'.node ∧ LanesBelow sys'.node := by
    rcases step_node hs with ⟨e', he'⟩ | ⟨wire, hwire⟩
    · exact ⟨h.marked.step hr.threaded he', h.oneFrame.step he', h.lanesBelow.step he'⟩
    · rw [hwire]
      exact ⟨h.marked, h.oneFrame, h.lanesBelow⟩
  exact ⟨h.sound.step hs, h.inOrder.step hr hs, h.sized.step hr h.sound.funded hs, hnode.1, hnode.2.1, hnode.2.2, hform, hsent,
    htail, huncharged⟩

end

/-- **A conforming page is never charged a protocol violation**, in any run of page and node whose steps all conform:
whatever the handlers do, whenever requests are cancelled or time out, however the frames of the lanes are interleaved. -/
theorem conforming_not_charged (es : List UploadEvent) (sys : UploadSystem) (hok : Steps.Meets step Conforms start es)
    (h : run step start es = some sys) : sys.node.protocolViolations = 0 :=
  (Steps.run_inv_when step Conforms Conforming (fun _ _ _ hi hok hs => hi.step hok hs) es start sys .start hok h).uncharged

/-- A `POST` that is admitted, credited and started, with one credit taken for its first body frame. -/
def begunUpload : List UploadEvent :=
  [.node .attach, .startRequest 7 0 100 uploadHead true, .deliver 0 {}, .node (.laneGoesOn 0 {}), .node (.laneGoesOn 0 {}),
    .onFrame 7, .takeUploadCredit 7, .node .dispatch, .node .startPicked]

def returnedUpload : List UploadEvent :=
  begunUpload ++ [.node (.taskGoesOn 0 {}), .node (.taskGoesOn 0 {}), .node (.taskGoesOn 0 {})]

def trailingFrame (now : Nat) : List UploadEvent :=
  [.sendBody 7 [1], .deliver 0 {}, .node (.laneGoesOn 0 { now := now })]

theorem conforming_not_charged_trailingFrame :
    ∃ sys, run step start (returnedUpload ++ trailingFrame 0) = some sys ∧ sys.node.requests.entries = [] ∧
      sys.node.protocolViolations = 0 := by
  obtain ⟨sys, hrun, hgone⟩ : ∃ sys, run step start (returnedUpload ++ trailingFrame 0) = some sys ∧
      sys.node.requests.entries = [] :=
    Steps.exists_run (by decide +kernel)
  exact ⟨sys, hrun, hgone, conforming_not_charged _ sys (by decide +kernel) hrun⟩

/-- **A page that keeps to its discipline is charged all the same** when its metadata is too long, when a tombstone expires
before the last frame comes, when the first credits cannot be sent, when the handler closes the body, and when a request is
refused whose `ReqEnd` is already on the lane. -/
theorem disciplined_page_charged :
    (run step start [.node .attach, .startRequest 7 0 16385 uploadHead true, .deliver 0 {}]).map
        (fun sys => sys.node.protocolViolations) = some 1 ∧
      (run step start (returnedUpload ++ trailingFrame 30000)).map (fun sys => sys.node.protocolViolations) = some 1 ∧
      (run step start ([.node .attach, .startRequest 7 0 100 uploadHead false, .deliver 0 {},
          .node (.laneGoesOn 0 { sendOk := false })] ++ List.replicate 5 (.node (.laneGoesOn 0 {})) ++
          [.deliver 0 {}, .node (.laneGoesOn 0 {})])).map (fun sys => sys.node.protocolViolations) = some 1 ∧
      (run step start (begunUpload ++ [.node (.handlerCloses 0)] ++ trailingFrame 0 ++
          [.node (.laneGoesOn 0 {})])).map (fun sys => sys.node.protocolViolations) = some 1 ∧
      (run step start [.node .attach, .startRequest 7 0 100 uploadHead false, .deliver 0 { admissionToken := false },
          .deliver 0 {}, .node (.laneGoesOn 0 {})]).map (fun sys => sys.node.protocolViolations) = some 1 := by
  decide +kernel

end UploadSystem
end YuriRtc
