import YuriRtc.SessionEffects
import YuriRtc.UploadRouting
/-!
# UploadOrder — when nothing more of an upload can arrive

On its lane an upload is one `Req`, body frames, and one `ReqEnd` or a `Cancel`, after which there is no more of it
(`InOrder`).  So once the node has taken the last frame of an upload, or the upload's lane is gone, no frame of it will
ever come: the upload is `Quiet`, and stays so (`Quiet.step`).
-/
namespace YuriRtc

open Function (update update_of_ne update_self)
open PeerSession (exec_sameThreads exec_sections isLaneEvent onMessage_sameThreads receive_eq step_keeps step_rx)

open PeerSession (SessionEvent Keeps)

def PeerFrame.isUpload (id : Nat) : PeerFrame → Bool
  | .reqBody id' _ | .reqEnd id' => id' == id
  | .undecodable | .req _ _ _ | .credit _ _ | .cancel _ | .webSocket _ | .response => false

def PeerFrame.isLast (id : Nat) : PeerFrame → Bool
  | .reqEnd id' | .cancel id' => id' == id
  | .undecodable | .req _ _ _ | .reqBody _ _ | .credit _ _ | .webSocket _ | .response => false

namespace Section

def isUpload (s : PeerSession) (id : Nat) : Section → Bool
  | .enqueueBody id' _ _ _ | .discardRaced id' _ _ _ | .discardBody id' _ _ => id' == id
  | .endBody r => (s.states r).id == id
  | .dropTombstone _ _ | .sendInitialCredits _ | .snapshot _ _ | .cancelState _ _ _ _ | .cancelContext _ | .stopBody _
  | .closeBody _ | .closeCurrent _ | .timeoutError _ | .armTimer _ | .serve _ | .handlerExited _ => false

def isLast (s : PeerSession) (id : Nat) : Section → Bool
  | .discardBody id' _ isEnd => isEnd && id' == id
  | .dropTombstone id' _ => id' == id
  | .endBody r => (s.states r).id == id
  | .enqueueBody _ _ _ _ | .discardRaced _ _ _ _ | .sendInitialCredits _ | .snapshot _ _ | .cancelState _ _ _ _
  | .cancelContext _ | .stopBody _ | .closeBody _ | .closeCurrent _ | .timeoutError _ | .armTimer _ | .serve _
  | .handlerExited _ => false

theorem isUpload_keeps {s t : PeerSession} (hk : Keeps s t) (id : Nat) {c : Section} (h : c.Refers s) :
    c.isUpload t id = c.isUpload s id := by
  cases c with
  | endBody r => rw [isUpload, isUpload, (hk.same r h.1).id]
  | _ => rfl

theorem isLast_keeps {s t : PeerSession} (hk : Keeps s t) (id : Nat) {c : Section} (h : c.Refers s) :
    c.isLast t id = c.isLast s id := by
  cases c with
  | endBody r => rw [isLast, isLast, (hk.same r h.1).id]
  | _ => rfl

theorem isUpload_of_not_receiving (s : PeerSession) (id : Nat) {c : Section} (h : c.isReceiving = false) :
    c.isUpload s id = false := by
  cases c <;> first | rfl | cases h

end Section

namespace PeerSession

theorem exec_isUpload {s : PeerSession} {env : Env} {id : Nat} {c c' : Section} (hc' : c' ∈ (s.exec env c).2) :
    (c'.isUpload s id = true → c.isUpload s id = true) ∧ c'.isLast s id = false := by
  cases exec_leadsTo hc' with
  | notEnqueued => exact ⟨fun hid => hid, rfl⟩
  | _ => exact ⟨nofun, rfl⟩

theorem onMessage_isUpload {s : PeerSession} {env : Env} {lane : Nat} {frame : PeerFrame} (hs : Indexed s) {c : Section}
    (hc : c ∈ (s.onMessage env lane frame).2) (id : Nat) :
    (c.isUpload (s.onMessage env lane frame).1 id = true → frame.isUpload id = true) ∧
      (c.isLast (s.onMessage env lane frame).1 id = true → frame.isLast id = true) := by
  have h := onMessage_handles s env lane frame
  generalize s.onMessage env lane frame = m at h hc ⊢
  cases h with
  | books => cases hc
  | refuses => cases hc
  | admits id' size head =>
    dsimp only at hc
    split at hc
    · rw [List.mem_singleton.1 hc]
      exact ⟨nofun, nofun⟩
    · cases hc
  | enqueues | discardsBody =>
    rw [List.mem_singleton.1 hc]
    exact ⟨fun hid => hid, nofun⟩
  | ends id' r hr =>
    rw [List.mem_singleton.1 hc]
    simp only [Section.isUpload, Section.isLast, (hs id' r hr).2]
    exact ⟨fun hid => hid, fun hid => hid⟩
  | discardsEnd =>
    rw [List.mem_singleton.1 hc]
    exact ⟨fun hid => hid, fun hid => hid⟩
  | snapshots =>
    rw [List.mem_singleton.1 hc]
    exact ⟨nofun, nofun⟩
  | dropsTombstone =>
    rw [List.mem_singleton.1 hc]
    exact ⟨nofun, fun hid => hid⟩

end PeerSession

namespace UploadSystem

def Drained (sys : UploadSystem) (id : Nat) : Prop :=
  (sys.page id).phase = .over ∧ ∀ f ∈ sys.toNode (sys.page id).lane, f.isUpload id = false

instance (sys : UploadSystem) (id : Nat) : Decidable (Drained sys id) := inferInstanceAs (Decidable (_ ∧ _))

/-- `g` may come after `f` on the lane of the upload. -/
def Follows (id : Nat) (f g : PeerFrame) : Prop :=
  (f.isLast id = true → g.isUpload id = false) ∧ (f.about = some id → isReq id g = false)

/-- **An upload comes in order**: its `Req` first, and nothing of it after its last frame. -/
structure InOrder (sys : UploadSystem) : Prop where
  frames : ∀ id, (sys.toNode (sys.page id).lane).Pairwise (Follows id)
  uploading : ∀ id, (sys.page id).phase = .uploading → ∀ f ∈ sys.toNode (sys.page id).lane, f.isLast id = false
  drained : ∀ lane, ∀ c ∈ sys.node.rx lane, ∀ id, c.isLast sys.node id = true → Drained sys id

variable {f : PeerFrame} {rest : List PeerFrame} {sys : UploadSystem} {id : Nat}

theorem isUpload_about (h : f.isUpload id = true) : f.about = some id := by
  cases f with
  | reqBody id' payload => exact congrArg some (by simpa [PeerFrame.isUpload] using h)
  | reqEnd id' => exact congrArg some (by simpa [PeerFrame.isUpload] using h)
  | _ => cases h

theorem isLast_about (h : f.isLast id = true) : f.about = some id := by
  cases f with
  | cancel id' => exact congrArg some (by simpa [PeerFrame.isLast] using h)
  | reqEnd id' => exact congrArg some (by simpa [PeerFrame.isLast] using h)
  | _ => cases h

theorem isReq_about (h : isReq id f = true) : f.about = some id := by
  cases f with
  | req id' size head => exact congrArg some (by simpa [isReq] using h)
  | _ => cases h

theorem follows_of_not_about {f g : PeerFrame} (h : g.about ≠ some id) : Follows id f g :=
  ⟨fun _ => Bool.eq_false_iff.2 fun hu => h (isUpload_about hu), fun _ => Bool.eq_false_iff.2 fun hr => h (isReq_about hr)⟩

/-! ### The page -/

namespace PageActs

variable {e : UploadEvent} {taken : Option NodeFrame} {p : PageRequest}
  {frames : List PeerFrame}

section

variable (h : PageActs sys id e taken p frames)
include h

theorem stays_over (hover : (sys.page id).phase = .over) :
    p.phase = .over ∧ p.lane = (sys.page id).lane ∧ ∀ f ∈ frames, f.isUpload id = false := by
  cases h with
  | starts lane size head stream hfresh => cases hover.symm.trans hfresh
  | takesCredit hphase => cases hover.symm.trans hphase
  | sendsBody payload hphase => cases hover.symm.trans hphase
  | sendsEnd hphase => cases hover.symm.trans hphase
  | takesGrant count hphase => cases hover.symm.trans hphase
  | refusesGrant count hphase => cases hover.symm.trans hphase
  | sendsCredit => exact ⟨hover, rfl, fun f hf => by rw [List.mem_singleton.1 hf, PeerFrame.isUpload]⟩
  | cancels => exact ⟨rfl, rfl, fun f hf => by rw [List.mem_singleton.1 hf, PeerFrame.isUpload]⟩
  | ignores => exact ⟨hover, rfl, fun f hf => by cases hf⟩
  | abandons | sees => exact ⟨rfl, rfl, fun f hf => by cases hf⟩

theorem follows (hr : Routed sys) (ho : InOrder sys) :
    frames.Pairwise (Follows id) ∧ ∀ f ∈ sys.toNode p.lane, ∀ g ∈ frames, Follows id f g := by
  -- one frame that is no `Req`, and that is of the upload only while the page is uploading
  have hone : ∀ g, isReq id g = false → p.lane = (sys.page id).lane →
      (g.isUpload id = true → (sys.page id).phase = .uploading) → frames = [g] →
      frames.Pairwise (Follows id) ∧ ∀ f ∈ sys.toNode p.lane, ∀ g ∈ frames, Follows id f g := by
    rintro g hreq hlane hphase rfl
    refine ⟨List.pairwise_singleton _ _, fun f hf g' hg' => ?_⟩
    rw [List.mem_singleton.1 hg']
    rw [hlane] at hf
    refine ⟨fun hlast => Bool.eq_false_iff.2 fun hupload => ?_, fun _ => hreq⟩
    simp_all [ho.uploading]
  cases h with
  | starts lane size head stream hfresh =>
    refine ⟨?_, fun f hf g _ => ?_⟩
    · split
      · exact List.pairwise_pair.2 ⟨fun hlast => (by cases hlast), fun _ => rfl⟩
      · exact List.pairwise_singleton _ _
    · have hnone := (hr.fresh hfresh).1 lane f hf
      exact ⟨fun hlast => absurd (isLast_about hlast) hnone, fun habout => absurd habout hnone⟩
  | sendsBody payload hphase => exact hone _ rfl rfl (fun _ => hphase) rfl
  | sendsEnd hphase => exact hone _ rfl rfl (fun _ => hphase) rfl
  | sendsCredit | cancels | refusesGrant => exact hone _ rfl rfl (fun hupload => by cases hupload) rfl
  | _ => exact ⟨.nil, fun _ _ _ hg => by cases hg⟩

theorem noLast (hr : Routed sys) (ho : InOrder sys) (hphase : p.phase = .uploading) :
    (∀ f ∈ sys.toNode p.lane, f.isLast id = false) ∧ ∀ f ∈ frames, f.isLast id = false := by
  cases h with
  | starts lane size head stream hfresh =>
    refine ⟨fun f hf => Bool.eq_false_iff.2 fun hlast => (hr.fresh hfresh).1 lane f hf (isLast_about hlast), fun f hf => ?_⟩
    rcases List.mem_cons.1 hf with rfl | hf
    · rfl
    · simp_all
  | sendsBody => exact ⟨ho.uploading id hphase, fun f hf => by rw [List.mem_singleton.1 hf, PeerFrame.isLast]⟩
  | sendsCredit => exact ⟨ho.uploading id hphase, fun f hf => by rw [List.mem_singleton.1 hf, PeerFrame.isLast]⟩
  | takesCredit | ignores | takesGrant => exact ⟨ho.uploading id hphase, fun f hf => by cases hf⟩
  | _ => cases hphase

end

end PageActs

theorem mem_put {id lane : Nat} {frames : List PeerFrame}
    (h : f ∈ (sys.put id frames).toNode lane) : f ∈ sys.toNode lane ∨ lane = (sys.page id).lane ∧ f ∈ frames := by
  change f ∈ update sys.toNode (sys.page id).lane _ lane at h
  by_cases hlane : lane = (sys.page id).lane <;> simp_all

section Acts

variable {e : UploadEvent} {taken : Option NodeFrame} {p : PageRequest}
  {frames : List PeerFrame}

theorem Drained.acts (h : PageActs sys id e taken p frames) {id' : Nat} (hd : Drained sys id') :
    Drained ((sys.setPage id p).put id frames) id' := by
  by_cases hid : id' = id
  · subst hid
    obtain ⟨hphase, hlane, hframes⟩ := h.stays_over hd.1
    refine ⟨?_, fun f hf => ?_⟩
    · show ((sys.setPage id' p).page id').phase = .over
      rw [page_setPage]
      exact hphase
    rcases mem_put hf with hold | ⟨-, hnew⟩
    · change f ∈ sys.toNode ((sys.setPage id' p).page id').lane at hold
      rw [page_setPage, hlane] at hold
      exact hd.2 f hold
    · exact hframes f hnew
  · refine ⟨?_, fun f hf => ?_⟩
    · show ((sys.setPage id p).page id').phase = .over
      rw [page_setPage_of_ne sys hid]
      exact hd.1
    rcases mem_put hf with hold | ⟨-, hnew⟩
    · change f ∈ sys.toNode ((sys.setPage id p).page id').lane at hold
      rw [page_setPage_of_ne sys hid] at hold
      exact hd.2 f hold
    · refine Bool.eq_false_iff.2 fun hupload => hid (Option.some.inj ?_)
      exact (isUpload_about hupload).symm.trans (h.frames_about f hnew)

theorem InOrder.acts (ho : InOrder sys) (hr : Routed sys) (h : PageActs sys id e taken p frames) :
    InOrder ((sys.setPage id p).put id frames) where
  frames id' := by
    show (update sys.toNode ((sys.setPage id p).page id).lane _ ((sys.setPage id p).page id').lane).Pairwise _
    rw [page_setPage]
    by_cases hid : id' = id
    · subst hid
      obtain ⟨hnew, hcross⟩ := h.follows hr ho
      rw [page_setPage, update_self]
      refine List.pairwise_append.2 ⟨?_, hnew, hcross⟩
      show (sys.toNode p.lane).Pairwise (Follows id')
      cases h with
      | starts lane size head stream hfresh =>
        exact List.pairwise_of_forall_mem_list fun f _ g hg => follows_of_not_about ((hr.fresh hfresh).1 lane g hg)
      | _ => exact ho.frames id'
    · have hother : ∀ g ∈ frames, g.about ≠ some id' := fun g hg habout =>
        hid (Option.some.inj (habout.symm.trans (h.frames_about g hg)))
      rw [page_setPage_of_ne sys hid]
      by_cases hlane : (sys.page id').lane = p.lane
      · rw [hlane, update_self]
        refine List.pairwise_append.2 ⟨?_, ?_, fun f _ g hg => follows_of_not_about (hother g hg)⟩
        · rw [← hlane]
          exact ho.frames id'
        · exact List.pairwise_of_forall_mem_list fun f _ g hg => follows_of_not_about (hother g hg)
      · rw [update_of_ne hlane]
        exact ho.frames id'
  uploading id' hphase f hf := by
    change ((sys.setPage id p).page id').phase = .uploading at hphase
    by_cases hid : id' = id
    · subst hid
      rw [page_setPage] at hphase
      obtain ⟨hold, hnew⟩ := h.noLast hr ho hphase
      rcases mem_put hf with hf | ⟨-, hf⟩
      · change f ∈ sys.toNode ((sys.setPage id' p).page id').lane at hf
        simp_all
      · exact hnew f hf
    · rw [page_setPage_of_ne sys hid] at hphase
      rcases mem_put hf with hf | ⟨-, hf⟩
      · change f ∈ sys.toNode ((sys.setPage id p).page id').lane at hf
        rw [page_setPage_of_ne sys hid] at hf
        exact ho.uploading id' hphase f hf
      · refine Bool.eq_false_iff.2 fun hlast => hid (Option.some.inj ?_)
        exact (isLast_about hlast).symm.trans (h.frames_about f hf)
  drained lane c hc id' hlast := (ho.drained lane c hc id' hlast).acts h

end Acts

/-! ### The node -/

theorem InOrder.takeFrame (h : InOrder sys) (id : Nat) : InOrder (sys.takeFrame id) :=
  { h with }

theorem mem_rest {toNode : Nat → List PeerFrame} {lane l : Nat} {f g : PeerFrame}
    (hlane : toNode lane = f :: rest) (h : g ∈ update toNode lane rest l) : g ∈ toNode l := by
  by_cases hl : l = lane <;> simp_all

theorem Drained.deliver {id lane : Nat} {node : PeerSession}
    (h : Drained sys id) (hlane : sys.toNode lane = f :: rest) :
    Drained { sys with node := node, toNode := update sys.toNode lane rest } id :=
  ⟨h.1, fun g hg => h.2 g (mem_rest hlane hg)⟩

section

variable (ho : InOrder sys) (hr : Routed sys)
include sys ho hr

theorem InOrder.drained_last {id lane : Nat}
    {node : PeerSession} (hlane : sys.toNode lane = f :: rest) (hlast : f.isLast id = true) :
    Drained { sys with node := node, toNode := update sys.toNode lane rest } id := by
  have hf : f ∈ sys.toNode lane := by simp_all
  obtain ⟨hused, rfl⟩ := hr.lanes lane f hf id (isLast_about hlast)
  refine ⟨?_, fun g hg => ?_⟩
  · show (sys.page id).phase = .over
    rcases hphase : (sys.page id).phase with - | - | -
    · exact absurd hphase hused
    · simp_all [ho.uploading]
    · rfl
  · change g ∈ update sys.toNode (sys.page id).lane rest (sys.page id).lane at hg
    rw [update_self] at hg
    have hfollows := ho.frames id
    rw [hlane] at hfollows
    exact ((List.pairwise_cons.1 hfollows).1 g hg).1 hlast

theorem InOrder.deliver {lane : Nat} {env : Env}
    {node : PeerSession} (hlane : sys.toNode lane = f :: rest)
    (hnode : sys.node.step (.receive lane f env) = some node) :
    InOrder { sys with node := node, toNode := update sys.toNode lane rest } where
  frames id := by
    show (update sys.toNode lane rest (sys.page id).lane).Pairwise (Follows id)
    have hfollows := ho.frames id
    by_cases hl : (sys.page id).lane = lane <;> simp_all
  uploading id hphase g hg := ho.uploading id hphase g (mem_rest hlane hg)
  drained l c hc id hlast := by
    have hk := step_keeps hnode
    obtain ⟨-, -, rfl⟩ := receive_eq hnode
    rcases PeerSession.Threaded.mem_update hc with ⟨-, hnew⟩ | hold
    · have hframe := (PeerSession.onMessage_isUpload hr.threaded.indexed hnew id).2 hlast
      exact ho.drained_last hr hlane hframe
    have hmem : c ∈ sys.node.rx l := (onMessage_sameThreads sys.node env lane f).1 ▸ hold
    have hlast' := (Section.isLast_keeps hk id (hr.threaded.rx l c hmem).1).symm.trans hlast
    exact (ho.drained l c hmem id hlast').deliver hlane

theorem InOrder.node {e : SessionEvent} {node : PeerSession}
    (he : isReceive e = false) (hnode : sys.node.step e = some node) : InOrder { sys with node := node } where
  frames := ho.frames
  uploading := ho.uploading
  drained l c hc id hlast := by
    have hk := step_keeps hnode
    have hold : c ∈ sys.node.rx l → Drained { sys with node := node } id := fun hmem =>
      ho.drained l c hmem id ((Section.isLast_keeps hk id (hr.threaded.rx l c hmem).1).symm.trans hlast)
    cases hevent : isLaneEvent e with
    | false => exact hold (step_rx hnode hevent ▸ hc)
    | true =>
      cases PeerSession.step_becomes hnode with
      | receives => cases he
      | laneGoesOn lane env first others hrx =>
        rcases PeerSession.Threaded.mem_update hc with ⟨rfl, hmem⟩ | hc
        · rcases List.mem_append.1 hmem with hnext | hothers
          · have hfirst : first ∈ sys.node.rx l := by simp [hrx]
            have hrefers := (exec_sections (hr.threaded.rx l first hfirst).1 c hnext).1
            rw [Section.isLast_keeps hk id hrefers, (PeerSession.exec_isUpload hnext).2] at hlast
            cases hlast
          · exact hold (by rw [hrx]; exact List.mem_cons_of_mem first hothers)
        · exact hold ((exec_sameThreads sys.node env first).1 ▸ hc)
      | _ => cases hevent

end

theorem InOrder.step {sys sys' : UploadSystem} {e : UploadEvent} (ho : InOrder sys) (hr : Routed sys)
    (hs : sys.step e = some sys') : InOrder sys' := by
  cases step_becomes hs with
  | page id e p frames hacts => exact ho.acts hr hacts
  | onFrame id f rest p frames _ hacts => exact (ho.takeFrame id).acts hr.takeFrame hacts
  | deliver lane env f rest node hlane hnode => exact ho.deliver hr hlane hnode
  | node e node he hnode => exact ho.node hr he hnode

theorem InOrder.start : InOrder start := ⟨fun _ => .nil, nofun, nofun⟩

/-! ### Quiet uploads -/

/-- **Nothing more of the upload can arrive**: its lane is gone, or its last frame has been taken. -/
def Quiet (sys : UploadSystem) (id : Nat) : Prop :=
  ((sys.page id).lane < sys.node.nextLane ∧ (sys.page id).lane ∉ sys.node.lanes ∧ sys.node.rx (sys.page id).lane = []) ∨
    (Drained sys id ∧ ∀ c ∈ sys.node.rx (sys.page id).lane, c.isUpload sys.node id = false)

instance (sys : UploadSystem) (id : Nat) : Decidable (Quiet sys id) := inferInstanceAs (Decidable (_ ∨ _))

theorem Quiet.acts {id id' : Nat} {e : UploadEvent} {taken : Option NodeFrame} {p : PageRequest}
    {frames : List PeerFrame} (hq : Quiet sys id') (h : PageActs sys id e taken p frames) (hused : sys.Used id') :
    Quiet ((sys.setPage id p).put id frames) id' := by
  have hlane : ((sys.setPage id p).page id').lane = (sys.page id').lane := by
    by_cases hid : id' = id
    · subst hid
      rw [page_setPage]
      cases h with
      | starts lane size head stream hfresh => exact absurd hfresh hused
      | _ => rfl
    · rw [page_setPage_of_ne sys hid]
  rcases hq with hgone | ⟨hdrained, hidle⟩
  · refine .inl ?_
    show ((sys.setPage id p).page id').lane < _ ∧ ((sys.setPage id p).page id').lane ∉ _ ∧
      sys.node.rx ((sys.setPage id p).page id').lane = []
    rw [hlane]
    exact hgone
  · refine .inr ⟨hdrained.acts h, ?_⟩
    show ∀ c ∈ sys.node.rx ((sys.setPage id p).page id').lane, _
    rw [hlane]
    exact hidle

theorem gone_step {s t : PeerSession} {e : SessionEvent} (hs : s.step e = some t) (hopen : s.closed = false) {lane : Nat}
    (h : lane < s.nextLane ∧ lane ∉ s.lanes ∧ s.rx lane = []) : lane < t.nextLane ∧ lane ∉ t.lanes ∧ t.rx lane = [] := by
  obtain ⟨hlt, hgone, hidle⟩ := h
  have hlanes : lane < t.nextLane ∧ lane ∉ t.lanes := by
    rcases PeerSession.step_carries_or_admits hs with hc | ⟨l, id, size, head, env, -, -, -, -, rx, rfl⟩
    · refine ⟨lt_of_lt_of_le hlt hc.nextLane, fun hmem => ?_⟩
      rcases hc.lanes lane hmem with hold | ⟨hnew, -⟩
      · exact hgone hold
      · omega
    · exact ⟨hlt, hgone⟩
  refine ⟨hlanes.1, hlanes.2, ?_⟩
  cases hevent : isLaneEvent e with
  | false => rw [step_rx hs hevent, hidle]
  | true =>
    cases PeerSession.step_becomes hs with
    | receives l frame env _ hl =>
      have hne : lane ≠ l := by grind
      show update (s.onMessage env l frame).1.rx l _ lane = []
      rw [update_of_ne hne, (onMessage_sameThreads s env l frame).1, hidle]
    | laneGoesOn l env c others hrx =>
      have hne : lane ≠ l := by grind
      show update (s.exec env c).1.rx l _ lane = []
      rw [update_of_ne hne, (exec_sameThreads s env c).1, hidle]
    | _ => cases hevent

theorem step_isUpload {s t : PeerSession} (hth : PeerSession.Threaded s) {e : SessionEvent} (hs : s.step e = some t)
    {lane id : Nat} {c : Section} (hc : c ∈ t.rx lane) (hid : c.isUpload t id = true) :
    (∃ c' ∈ s.rx lane, c'.isUpload s id = true) ∨ ∃ f env, e = .receive lane f env ∧ f.isUpload id = true := by
  have hk := step_keeps hs
  have hold : c ∈ s.rx lane → ∃ c' ∈ s.rx lane, c'.isUpload s id = true := fun hc =>
    ⟨c, hc, (Section.isUpload_keeps hk id (hth.rx lane c hc).1).symm.trans hid⟩
  cases hevent : isLaneEvent e with
  | false => exact .inl (hold (step_rx hs hevent ▸ hc))
  | true =>
    cases PeerSession.step_becomes hs with
    | receives l frame env =>
      rcases PeerSession.Threaded.mem_update hc with ⟨rfl, hnew⟩ | hc
      · exact .inr ⟨frame, env, rfl, (PeerSession.onMessage_isUpload hth.indexed hnew id).1 hid⟩
      · exact .inl (hold ((onMessage_sameThreads s env l frame).1 ▸ hc))
    | laneGoesOn l env first others hrx =>
      rcases PeerSession.Threaded.mem_update hc with ⟨rfl, hmem⟩ | hc
      · have hfirst : first ∈ s.rx lane := by simp [hrx]
        rcases List.mem_append.1 hmem with hnext | hothers
        · have hrefers := (exec_sections (hth.rx lane first hfirst).1 c hnext).1
          rw [Section.isUpload_keeps hk id hrefers] at hid
          exact .inl ⟨first, hfirst, (PeerSession.exec_isUpload hnext).1 hid⟩
        · exact .inl (hold (by rw [hrx]; exact List.mem_cons_of_mem first hothers))
      · exact .inl (hold ((exec_sameThreads s env first).1 ▸ hc))
    | _ => cases hevent

theorem Quiet.nodeStep (hq : Quiet sys id) (hr : Routed sys) (hopen : sys.node.closed = false)
    {e : SessionEvent} {node : PeerSession} (hs : sys.node.step e = some node) {toNode : Nat → List PeerFrame}
    (hdrained : Drained sys id → Drained { sys with node := node, toNode := toNode } id)
    (hframe : ∀ f env, e = .receive (sys.page id).lane f env → f ∈ sys.toNode (sys.page id).lane) :
    Quiet { sys with node := node, toNode := toNode } id := by
  rcases hq with hgone | ⟨hd, hidle⟩
  · exact .inl (gone_step hs hopen hgone)
  refine .inr ⟨hdrained hd, fun c hc => Bool.eq_false_iff.2 fun hid => ?_⟩
  rcases step_isUpload hr.threaded hs hc hid with ⟨c', hc', hid'⟩ | ⟨f, env, he, hf⟩
  · simp_all
  · simp_all [hd.2]

theorem Quiet.step {sys sys' : UploadSystem} {e : UploadEvent} (hq : Quiet sys id) (hr : Routed sys)
    (hused : sys.Used id) (hopen : sys.node.closed = false) (hs : sys.step e = some sys') : Quiet sys' id := by
  cases step_becomes hs with
  | page id' e p frames hacts => exact hq.acts hacts hused
  | onFrame id' f rest p frames _ hacts =>
    have htaken : Quiet (sys.takeFrame id') id := hq
    exact htaken.acts hacts hused
  | deliver lane env f rest node hlane hnode =>
    refine hq.nodeStep hr hopen hnode (fun hd => hd.deliver hlane) fun f' env' he => ?_
    simp_all
  | node e node he hnode =>
    refine hq.nodeStep hr hopen hnode (fun hd => hd) fun f' env' hreceive => ?_
    rw [hreceive] at he
    cases he

end UploadSystem
end YuriRtc
