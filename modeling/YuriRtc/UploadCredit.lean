import YuriRtc.UploadFunds
import YuriRtc.UploadLedger
import YuriRtc.UploadRouting
/-!
# UploadCredit — the page never has more credit than the node has room

`spent` is everything the page may still put into an upload or has put on its way: the credits it has, those in flight to it,
its body frames on the lane, in the lane's goroutine or taken by a tombstone.  In every run of page and node it stays within
what the node holds the page to be allowed (`Funded`), and that is the available credit of the one request with the id.  With
the ledger of `UploadLedger` this is the whole flow control of an upload (`upload_credit_conserved`).
-/
namespace YuriRtc

open PeerSession (arriving budget grantedTo loads_cons owed owed_step)

open PeerSession (SessionEvent Threaded frameLoad Booked)

namespace UploadSystem

variable {id : Nat} {sys : UploadSystem} {e : UploadEvent} {p : PageRequest} {r : Ref}

def bodiesIn (id : Nat) (frames : List PeerFrame) : Nat := (frames.map (frameLoad id)).sum

@[simp] theorem bodiesIn_nil (id : Nat) : bodiesIn id [] = 0 := rfl

@[simp] theorem bodiesIn_cons (id : Nat) (f : PeerFrame) (frames : List PeerFrame) :
    bodiesIn id (f :: frames) = frameLoad id f + bodiesIn id frames := by
  simp [bodiesIn]

@[simp] theorem bodiesIn_append (id : Nat) (frames frames' : List PeerFrame) :
    bodiesIn id (frames ++ frames') = bodiesIn id frames + bodiesIn id frames' := by
  simp [bodiesIn]

def spent (sys : UploadSystem) (id : Nat) : Nat :=
  (sys.page id).credits + (sys.page id).holding.toNat + bodiesIn id (sys.toNode (sys.page id).lane) +
    sys.node.owed id (sys.page id).lane

def Funded (sys : UploadSystem) : Prop := ∀ id, sys.spent id ≤ sys.node.budget id

theorem frameLoad_of_not_about {f : PeerFrame} (h : f.about ≠ some id) : frameLoad id f = 0 := by
  cases f with
  | reqBody id' payload =>
    have hne : id' ≠ id := fun heq => h (by rw [heq, PeerFrame.about])
    rw [frameLoad, if_neg hne]
  | _ => rfl

theorem bodiesIn_of_not_about : ∀ {frames : List PeerFrame}, (∀ f ∈ frames, f.about ≠ some id) →
    bodiesIn id frames = 0
  | [], _ => rfl
  | f :: frames, h => by
    rw [bodiesIn_cons, frameLoad_of_not_about (h f List.mem_cons_self),
      bodiesIn_of_not_about fun g hg => h g (List.mem_cons_of_mem f hg)]

theorem load_of_not_about {s : PeerSession} {c : Section} (h : c.about s ≠ some id) : c.load s id = 0 := by
  cases c with
  | enqueueBody id' lane r payload =>
    have hne : id' ≠ id := fun heq => h (by rw [heq, Section.about])
    rw [Section.load, if_neg hne]
  | discardRaced id' lane r e =>
    have hne : id' ≠ id := fun heq => h (by rw [heq, Section.about])
    rw [Section.load, if_neg hne]
  | discardBody id' lane isEnd =>
    have hne : id' ≠ id := fun heq => h (by rw [heq, Section.about])
    cases isEnd <;> simp [Section.load, hne]
  | sendInitialCredits r =>
    have hne : (s.states r).id ≠ id := fun heq => h (by rw [Section.about, heq])
    rw [Section.load, if_neg hne]
  | _ => rfl

theorem loads_of_not_about {s : PeerSession} : ∀ {sections : List Section}, (∀ c ∈ sections, c.about s ≠ some id) →
    s.loads id sections = 0
  | [], _ => rfl
  | c :: sections, h => by
    rw [loads_cons, load_of_not_about (h c List.mem_cons_self),
      loads_of_not_about fun c' hc' => h c' (List.mem_cons_of_mem c hc')]

/-! ### The page -/

theorem bodiesIn_put (sys : UploadSystem) (id : Nat) (frames : List PeerFrame) (id' lane : Nat) :
    bodiesIn id' ((sys.put id frames).toNode lane) ≤ bodiesIn id' (sys.toNode lane) + bodiesIn id' frames := by
  show bodiesIn id' (Function.update sys.toNode _ _ lane) ≤ _
  by_cases hlane : lane = (sys.page id).lane <;> simp_all

theorem Funded.takeFrame (h : Funded sys) {f : NodeFrame} {rest : List NodeFrame}
    (hwire : sys.node.wire id = f :: rest) (id' : Nat) :
    (sys.takeFrame id).spent id' + (if id' = id then f.credit else 0) ≤ (sys.takeFrame id).node.budget id' := by
  have hbefore := h id'
  have howed : (sys.takeFrame id).node.owed id' (sys.page id').lane + (if id' = id then f.credit else 0) =
      sys.node.owed id' (sys.page id').lane := by
    show creditsIn (Function.update sys.node.wire id (sys.node.wire id).tail id') +
      sys.node.loads id' (sys.node.rx (sys.page id').lane) + sys.node.absorbed id' + _ = creditsIn (sys.node.wire id') +
      sys.node.loads id' (sys.node.rx (sys.page id').lane) + sys.node.absorbed id'
    by_cases hid : id' = id
    · rw [hid, Function.update_self, hwire, List.tail_cons, creditsIn_cons, if_pos rfl]
      omega
    · simp_all
  show (sys.page id').credits + (sys.page id').holding.toNat + bodiesIn id' (sys.toNode (sys.page id').lane) +
    (sys.takeFrame id).node.owed id' (sys.page id').lane + _ ≤ sys.node.budget id'
  unfold spent at hbefore
  omega

def takenCredit (taken : Option NodeFrame) : Nat := (taken.map NodeFrame.credit).getD 0

/-- **What the page does costs no more than it takes**: a grant moves from the wire to the page, a credit to its frame. -/
theorem PageActs.spends (hr : Routed sys) {taken : Option NodeFrame}
    {frames : List PeerFrame} (h : PageActs sys id e taken p frames) :
    p.credits + p.holding.toNat + bodiesIn id frames + bodiesIn id (sys.toNode p.lane) + sys.node.owed id p.lane ≤
      sys.spent id + takenCredit taken := by
  unfold spent
  cases h with
  | starts lane size head stream hfresh =>
    obtain ⟨hframes, hsections, -⟩ := hr.fresh hfresh
    have hbodies : bodiesIn id (sys.toNode lane) = 0 := bodiesIn_of_not_about (hframes lane)
    have hloads : sys.node.loads id (sys.node.rx lane) = 0 := loads_of_not_about (hsections lane)
    have hnone : bodiesIn id (PeerFrame.req id size (some head) ::
        if (head.hasBody && !stream) = true then [PeerFrame.reqEnd id] else []) = 0 := by
      split <;> rfl
    show 0 + 0 + bodiesIn id _ + bodiesIn id (sys.toNode lane) + sys.node.owed id lane ≤ _
    rw [hnone, hbodies]
    unfold owed
    omega
  | takesCredit hphase hholding hcredits =>
    rw [hholding]
    grind [bodiesIn_nil]
  | sendsBody payload hphase hholding =>
    rw [hholding]
    simp [frameLoad]
  | takesGrant count =>
    simp only [takenCredit, NodeFrame.credit, bodiesIn_nil, Option.map_some, Option.getD_some]
    omega
  | sendsEnd =>
    simp only [bodiesIn_cons, bodiesIn_nil, frameLoad, Bool.toNat_false]
    omega
  | _ => simp [frameLoad, PageRequest.finish]

theorem Funded.acts (hr : Routed sys) {taken : Option NodeFrame}
    {frames : List PeerFrame} (hacts : PageActs sys id e taken p frames)
    (h : ∀ id', sys.spent id' + (if id' = id then takenCredit taken else 0) ≤ sys.node.budget id') :
    Funded ((sys.setPage id p).put id frames) := by
  have hspends := hacts.spends hr
  intro id'
  have hbefore := h id'
  have hbodies := bodiesIn_put (sys.setPage id p) id frames id'
  refine le_trans ?_ hbefore
  by_cases hid : id' = id
  · subst hid
    have hmine := hbodies p.lane
    show ((sys.setPage id' p).page id').credits + ((sys.setPage id' p).page id').holding.toNat +
      bodiesIn id' (((sys.setPage id' p).put id' frames).toNode ((sys.setPage id' p).page id').lane) +
      sys.node.owed id' ((sys.setPage id' p).page id').lane ≤ _
    rw [page_setPage, if_pos rfl]
    change _ ≤ bodiesIn id' (sys.toNode p.lane) + _ at hmine
    omega
  · have hnone : bodiesIn id' frames = 0 := bodiesIn_of_not_about fun f hf hf' => by simp_all [hacts.frames_about]
    have hother := hbodies (sys.page id').lane
    show ((sys.setPage id p).page id').credits + ((sys.setPage id p).page id').holding.toNat +
      bodiesIn id' (((sys.setPage id p).put id frames).toNode ((sys.setPage id p).page id').lane) +
      sys.node.owed id' ((sys.setPage id p).page id').lane ≤ _
    rw [page_setPage_of_ne sys hid]
    change _ ≤ bodiesIn id' (sys.toNode (sys.page id').lane) + _ at hother
    unfold spent
    omega

/-! ### The node -/

theorem Funded.nodeStep (hr : Routed sys) (h : Funded sys) {e : SessionEvent} {node : PeerSession}
    (hs : sys.node.step e = some node) {toNode : Nat → List PeerFrame}
    (harrives : ∀ id, bodiesIn id (toNode (sys.page id).lane) + arriving id e ≤
      bodiesIn id (sys.toNode (sys.page id).lane)) : Funded { sys with node := node, toNode := toNode } := by
  intro id
  have hothers : ∀ l, l ≠ (sys.page id).lane → ∀ c ∈ sys.node.rx l, c.load sys.node id = 0 := fun l hl c hc =>
    load_of_not_about fun hid => hl (hr.rx l c hc id hid).2.symm
  have howed := owed_step hr.threaded hs id (sys.page id).lane hothers
  have hbefore := h id
  grind [spent]

theorem Funded.start : Funded start := fun _ => le_rfl

theorem Funded.step {sys' : UploadSystem} (hr : Routed sys) (h : Funded sys)
    (hs : sys.step e = some sys') : Funded sys' := by
  cases step_becomes hs with
  | page id e p frames hacts =>
    exact Funded.acts hr hacts fun id' => by simpa [takenCredit] using h id'
  | onFrame id f rest p frames hwire hacts => exact Funded.acts hr.takeFrame hacts (h.takeFrame hwire)
  | deliver lane env f rest node hlane hnode =>
    refine h.nodeStep hr hnode fun id => ?_
    by_cases hl : (sys.page id).lane = lane
    · rw [hl, Function.update_self, hlane, bodiesIn_cons]
      show bodiesIn id rest + frameLoad id f ≤ _
      omega
    have hother : frameLoad id f = 0 := frameLoad_of_not_about fun hid =>
      hl (hr.lanes lane f (by rw [hlane]; exact List.mem_cons_self) id hid).2
    rw [Function.update_of_ne hl]
    show _ + frameLoad id f ≤ _
    omega
  | node e node hother hnode =>
    refine h.nodeStep hr hnode fun id => ?_
    have hnothing : arriving id e = 0 := by
      cases e with
      | receive lane frame env => cases hother
      | _ => rfl
    rw [hnothing, Nat.add_zero]

/-! ### Runs -/

theorem budget_eq_available (h : Routed sys) (hr : r < sys.node.next) (hbody : (sys.node.states r).hasBody = true) :
    sys.node.budget (sys.node.states r).id = (sys.node.states r).requestCreditsAvailable := by
  unfold budget
  rw [Finset.sum_eq_single r]
  · simp [grantedTo, hbody]
  · intro q hq hne
    refine if_neg fun hboth => hne (h.unique q r (Finset.mem_range.1 hq) hr hboth.2)
  · exact fun hnot => absurd (Finset.mem_range.2 hr) hnot

theorem budget_le_window (hr : Routed sys) (hb : Booked sys.node) (id : Nat) :
    sys.node.budget id ≤ maxRequestCredits := by
  by_cases h : ∃ r, r < sys.node.next ∧ (sys.node.states r).hasBody = true ∧ (sys.node.states r).id = id
  · obtain ⟨r, hlt, hbody, rfl⟩ := h
    have hwindow := (hb r hlt hbody).window
    rw [budget_eq_available hr hlt hbody]
    omega
  · refine Nat.le_trans (Nat.le_of_eq (Finset.sum_eq_zero fun r hlt => if_neg fun hboth => h ?_)) (Nat.zero_le _)
    exact ⟨r, Finset.mem_range.1 hlt, hboth.1, hboth.2⟩

structure Sound (sys : UploadSystem) : Prop where
  routed : Routed sys
  funded : Funded sys
  booked : Booked sys.node
  within : ∀ id, (sys.page id).exceeded = false

theorem within_setPage (hp : p.exceeded = false)
    (h : ∀ id, (sys.page id).exceeded = false) : ∀ id', ((sys.setPage id p).page id').exceeded = false := by
  grind [page_setPage, page_setPage_of_ne]

theorem Sound.start : Sound start :=
  ⟨.start, .start, PeerSession.booked_newPeerSession, fun _ => rfl⟩

theorem Sound.grantFits (h : Sound sys) {count : Nat} {rest : List NodeFrame}
    (hwire : sys.node.wire id = .reqCredit count :: rest) : (sys.page id).grantFits count = true := by
  have hspent := h.funded id
  have hwindow := budget_le_window h.routed h.booked id
  unfold spent owed at hspent
  rw [hwire, creditsIn_cons] at hspent
  grind [NodeFrame.credit, PageRequest.grantFits]

theorem Sound.step {sys' : UploadSystem} (h : Sound sys) (hs : sys.step e = some sys') : Sound sys' := by
  refine ⟨h.routed.step hs, h.funded.step h.routed hs, ?_, ?_⟩
  · rcases step_node hs with ⟨e', he'⟩ | ⟨wire, hnode⟩
    · exact h.booked.step he'
    · rw [hnode]
      exact h.booked
  cases step_becomes hs with
  | page id e p frames hacts =>
    refine within_setPage ?_ h.within
    cases hacts with
    | starts => rfl
    | _ => exact h.within id
  | onFrame id f rest p frames hwire hacts =>
    refine within_setPage ?_ h.within
    cases hacts with
    | refusesGrant count _ hfits => exact absurd (h.grantFits hwire) hfits
    | _ => exact h.within id
  | deliver => exact h.within
  | node => exact h.within

theorem run_sound (es : List UploadEvent) (sys : UploadSystem) (h : Steps.run step start es = some sys) : Sound sys :=
  Steps.run_inv step Sound (fun _ _ _ hi hs => hi.step hs) es start sys .start h

theorem load_le_loads (s : PeerSession) (id : Nat) {c : Section} : ∀ {sections : List Section}, c ∈ sections →
    c.load s id ≤ s.loads id sections
  | first :: sections, h => by
    rw [loads_cons]
    rcases List.mem_cons.1 h with rfl | h
    · exact Nat.le_add_right _ _
    · exact le_trans (load_le_loads s id h) (Nat.le_add_left _ _)

theorem Sound.spent_le_available (h : Sound sys) (hr : r < sys.node.next)
    (hbody : (sys.node.states r).hasBody = true) :
    (sys.page (sys.node.states r).id).credits + (sys.page (sys.node.states r).id).holding.toNat +
        creditsIn (sys.node.wire (sys.node.states r).id) +
        bodiesIn (sys.node.states r).id (sys.toNode (sys.node.states r).lane) +
        sys.node.loads (sys.node.states r).id (sys.node.rx (sys.node.states r).lane) +
        sys.node.absorbed (sys.node.states r).id ≤ (sys.node.states r).requestCreditsAvailable := by
  have hspent := h.funded (sys.node.states r).id
  rw [budget_eq_available h.routed hr hbody] at hspent
  unfold spent owed at hspent
  rw [(h.routed.admitted r hr).2.1] at hspent
  omega

theorem Sound.frame_paid (h : Sound sys) {lane lane' : Nat} {payload : Bytes}
    (hmem : Section.enqueueBody id lane r payload ∈ sys.node.rx lane') : (sys.node.states r).requestCreditsAvailable ≠ 0 := by
  obtain ⟨⟨hr, rfl, hbody⟩, -, hlane⟩ := h.routed.threaded.rx lane' _ hmem
  have hspent := h.spent_le_available hr hbody
  have hload := load_le_loads sys.node (sys.node.states r).id hmem
  grind [Section.load]

/-- **Upload credit is conserved and an upload never stalls.**  In every run of page and node, for every admitted request
with a body: what the page has, what is in flight to it and the body frames in flight from it stay within the available
credit; until the request is cancelled or its body ended or closed, the sixteen credits are all accounted for and an empty
body leaves credit; no body frame is refused for want of credit or of room; a grant is never empty; and the page never
fails for an exceeded window. -/
theorem upload_credit_conserved (es : List UploadEvent) (sys : UploadSystem) (h : Steps.run step start es = some sys)
    (r : Ref) (hr : r < sys.node.next) (hbody : (sys.node.states r).hasBody = true) :
    let st := sys.node.states r
    let page := sys.page st.id
    (page.credits + page.holding.toNat + creditsIn (sys.node.wire st.id) + bodiesIn st.id (sys.toNode st.lane) +
        sys.node.loads st.id (sys.node.rx st.lane) ≤ st.requestCreditsAvailable) ∧
      (st.cancelled = false → st.bodyEnded = false → st.body.closed = false →
        st.requestCreditsAvailable + st.requestCreditsPending + st.body.heldChunks = maxRequestCredits ∧
        ¬ (st.requestCreditsAvailable = 0 ∧ st.body.chunks.toList = [] ∧ st.body.hasCurrent = false ∧
          AsyncRequestBody.inCallback st.body.consumer = false)) ∧
      (∀ id lane lane' payload, Section.enqueueBody id lane r payload ∈ sys.node.rx lane' → ∀ now,
        st.enqueueRequestBody payload now ≠ .error .creditExhausted ∧
        st.enqueueRequestBody payload now ≠ .error (.body .queueFull)) ∧
      (AsyncRequestBody.inCallback st.body.consumer = true → st.creditGrant ≠ 0) ∧
      page.exceeded = false := by
  intro st page
  have hsound := run_sound es sys h
  have hledger := hsound.booked r hr hbody
  have hspent := hsound.spent_le_available hr hbody
  refine ⟨le_trans (Nat.le_add_right _ _) hspent, fun hcancelled hended hclosed =>
    ⟨hledger.conserved hcancelled hended hclosed, ?_⟩,
    fun id lane lane' payload hmem now => hledger.enqueue_paid (hsound.frame_paid hmem) payload now,
    hledger.creditGrant_pos, hsound.within st.id⟩
  rintro ⟨havailable, hqueue, hcurrent, hcallback⟩
  refine hledger.available_pos hcancelled hended hclosed ?_ havailable
  unfold AsyncRequestBody.heldChunks
  rw [hqueue, hcurrent, hcallback]
  rfl

/-- A `POST` with a body, for the backend. -/
def uploadHead : RequestHead := ⟨protocolVersion, ['P', 'O', 'S', 'T'], ['/', 'a', 'p', 'i'], true, 0, 8⟩

/-- One chunk read, its callback running, and a second frame in `OnMessage`. -/
def oneRead : List UploadEvent :=
  [.node .attach, .startRequest 7 0 100 uploadHead true, .deliver 0 {}, .node (.laneGoesOn 0 {}), .node (.laneGoesOn 0 {}),
    .onFrame 7, .takeUploadCredit 7, .sendBody 7 [1, 2], .deliver 0 {}, .node (.laneGoesOn 0 {}),
    .node (.consumer 0 (.readCall 4)), .node (.consumer 0 .advance), .node (.consumer 0 .advance),
    .takeUploadCredit 7, .sendBody 7 [3], .deliver 0 {}]

theorem upload_credit_conserved_oneRead :
    ∃ sys, Steps.run step start oneRead = some sys ∧ (sys.node.states 0).requestCreditsAvailable = 15 ∧
      (sys.page 7).credits = 14 ∧ (sys.node.states 0).creditGrant ≠ 0 ∧ (sys.page 7).exceeded = false := by
  have hends : (Steps.run step start oneRead).map (fun sys => (sys.node.next, (sys.node.states 0).hasBody,
      (sys.node.states 0).id, (sys.node.states 0).requestCreditsAvailable, (sys.page 7).credits,
      AsyncRequestBody.inCallback (sys.node.states 0).body.consumer)) = some (1, true, 7, 15, 14, true) := by rfl
  obtain ⟨sys, hrun, hsys⟩ := Option.map_eq_some_iff.1 hends
  simp only [Prod.mk.injEq] at hsys
  obtain ⟨hnext, hbody, hid, havailable, hcredits, hcallback⟩ := hsys
  obtain ⟨-, -, -, hgrant, hwithin⟩ := upload_credit_conserved oneRead sys hrun 0 (by rw [hnext]; decide) hbody
  exact ⟨sys, hrun, havailable, hcredits, hgrant hcallback, hid ▸ hwithin⟩

end UploadSystem
end YuriRtc
