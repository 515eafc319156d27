import YuriRtc.SessionThreads
/-!
# UploadFunds — no step of the session mints upload credit

For a request id, `budget` is what the node still holds the page to be allowed (`requestCreditsAvailable`), and the node's
side of what the page may yet spend or has spent is on the wire (`creditsIn`), in the sections of the lane's goroutine that
hold a body frame or the first grant (`loads`), or noted in a tombstone (`absorbed`).  Whatever a step adds there it adds to
the budget, and whatever it takes from the budget it takes from there (`Backed`).
-/
namespace YuriRtc

open Function (update update_self)

def NodeFrame.credit : NodeFrame → Nat
  | .reqCredit count => count
  | .resHead | .resBody | .resEnd | .resErr _ _ => 0

def creditsIn (frames : List NodeFrame) : Nat := (frames.map NodeFrame.credit).sum

@[simp] theorem creditsIn_nil : creditsIn [] = 0 := rfl

@[simp] theorem creditsIn_cons (f : NodeFrame) (frames : List NodeFrame) :
    creditsIn (f :: frames) = f.credit + creditsIn frames := by
  simp [creditsIn]

@[simp] theorem creditsIn_append (frames frames' : List NodeFrame) :
    creditsIn (frames ++ frames') = creditsIn frames + creditsIn frames' := by
  simp [creditsIn]

/-- What a section holds of the credit of request id `id`: a body frame, or the first grant. -/
def Section.load (s : PeerSession) (id : Nat) : Section → Nat
  | .enqueueBody id' _ _ _ | .discardRaced id' _ _ _ | .discardBody id' _ false => if id' = id then 1 else 0
  | .sendInitialCredits r => if (s.states r).id = id then maxRequestCredits else 0
  | .discardBody _ _ true | .dropTombstone _ _ | .endBody _ | .snapshot _ _ | .cancelState _ _ _ _ | .cancelContext _
  | .stopBody _ | .closeBody _ | .closeCurrent _ | .timeoutError _ | .armTimer _ | .serve _ | .handlerExited _ => 0

namespace PeerSession

variable {s t : PeerSession} {r : Ref} {added id : Nat}

def loads (s : PeerSession) (id : Nat) (sections : List Section) : Nat := (sections.map (Section.load s id)).sum

@[simp] theorem loads_nil (s : PeerSession) (id : Nat) : s.loads id [] = 0 := rfl

@[simp] theorem loads_cons (s : PeerSession) (id : Nat) (c : Section) (sections : List Section) :
    s.loads id (c :: sections) = c.load s id + s.loads id sections := by
  simp [loads]

@[simp] theorem loads_append (s : PeerSession) (id : Nat) (sections sections' : List Section) :
    s.loads id (sections ++ sections') = s.loads id sections + s.loads id sections' := by
  simp [loads]

def absorbedBy : Option RejectedBodyTombstone → Nat
  | none => 0
  | some tombstone => maxRejectedBodyTrailingFrames - tombstone.remaining

def absorbed (s : PeerSession) (id : Nat) : Nat := absorbedBy (s.rejectedBodies.lookup id)

/-- What a request's state adds to the budget of `id`. -/
def grantedTo (id : Nat) (st : RequestState) : Nat :=
  if st.hasBody = true ∧ st.id = id then st.requestCreditsAvailable else 0

/-- What the node holds the page to be allowed for `id`. -/
def budget (s : PeerSession) (id : Nat) : Nat := ∑ r ∈ Finset.range s.next, grantedTo id (s.states r)

theorem budget_of_states (hnext : t.next = s.next) (h : ∀ r, r < s.next → ∀ id,
    grantedTo id (t.states r) = grantedTo id (s.states r)) (id : Nat) : t.budget id = s.budget id := by
  unfold budget
  rw [hnext]
  exact Finset.sum_congr rfl fun r hr => h r (Finset.mem_range.1 hr) id

theorem budget_modify (s : PeerSession) (id : Nat) (hr : r < s.next) (f : RequestState → RequestState) :
    (s.modify r f).budget id + grantedTo id (s.states r) = s.budget id + grantedTo id (f (s.states r)) := by
  have hmem : r ∈ Finset.range s.next := Finset.mem_range.2 hr
  have hself : (s.modify r f).states r = f (s.states r) := update_self r _ s.states
  have hrest : ∀ q ∈ (Finset.range s.next).erase r,
      grantedTo id ((s.modify r f).states q) = grantedTo id (s.states q) := fun q hq => by
    show grantedTo id (update s.states r _ q) = _
    simp_all
  have hnew := Finset.add_sum_erase (Finset.range s.next) (fun q => grantedTo id ((s.modify r f).states q)) hmem
  have hold := Finset.add_sum_erase (Finset.range s.next) (fun q => grantedTo id (s.states q)) hmem
  rw [Finset.sum_congr rfl hrest] at hnew
  simp only [hself] at hnew
  show ∑ q ∈ Finset.range s.next, grantedTo id ((s.modify r f).states q) + _ =
    ∑ q ∈ Finset.range s.next, grantedTo id (s.states q) + _
  omega

theorem budget_admitted (s : PeerSession) (env : Env) (lane id : Nat) (head : RequestHead) (id' : Nat) :
    (s.admitted env lane id head).budget id' =
      s.budget id' + if head.hasBody = true ∧ id = id' then maxRequestCredits else 0 := by
  unfold budget
  show ∑ r ∈ Finset.range (s.next + 1), _ = _
  rw [Finset.sum_range_succ, admitted_state]
  congr 1
  · refine Finset.sum_congr rfl fun r hr => ?_
    grind [admitted_states_of_lt]
  · by_cases hb : head.hasBody = true <;> simp_all [grantedTo, RequestState.newRequestState]

/-! ### Tombstones -/

theorem Thins.absorbed_le (h : Thins s.rejectedBodies t.rejectedBodies) (id : Nat) : t.absorbed id ≤ s.absorbed id := by
  unfold absorbed
  rcases h id with heq | hgone
  · rw [heq]
  · rw [hgone]
    exact Nat.zero_le _

theorem absorbed_prune (s : PeerSession) (now id : Nat) : (s.pruneRejectedBodiesLocked now).absorbed id ≤ s.absorbed id :=
  Thins.absorbed_le (thins_prune s now) id

theorem absorbed_remember (s : PeerSession) (env : Env) (gone lane id : Nat) :
    (s.rememberRejectedBodyLocked env gone lane).absorbed id ≤ s.absorbed id := by
  unfold absorbed
  by_cases hid : id = gone
  · rw [hid, lookup_remember_self]
    exact (Nat.le_of_eq (Nat.sub_self _)).trans (Nat.zero_le _)
  rcases lookup_remember_ne s env lane hid with heq | hlost
  · rw [heq]
  · rw [hlost]
    exact Nat.zero_le _

theorem absorbed_discard (s : PeerSession) (env : Env) (gone lane : Nat) (isEnd : Bool) (id : Nat) :
    (s.discardRejectedRequestBody env gone lane isEnd).1.absorbed id ≤
      s.absorbed id + if isEnd = false ∧ gone = id then 1 else 0 := by
  rcases discard_tombstones s env gone lane isEnd with ⟨hthins, -⟩ | ⟨rfl, -, tombstone, hspends⟩
  · exact (Thins.absorbed_le hthins id).trans (Nat.le_add_right _ _)
  unfold absorbed
  by_cases hid : id = gone
  · rw [hid, hspends.spent, hspends.found, if_pos ⟨rfl, rfl⟩]
    simp only [absorbedBy]
    omega
  rcases hspends.others id hid with heq | hlost
  · rw [heq]
    exact Nat.le_add_right _ _
  · rw [hlost]
    exact Nat.zero_le _

/-! ### Sections -/

/-- **From `s` to `t` credit is only passed on**: the page may have `added` more from sections begun and `removed` less
from sections done, and the rest is backed by the budget. -/
def Backed (s t : PeerSession) (id added removed : Nat) : Prop :=
  creditsIn (t.wire id) + t.absorbed id + added + s.budget id ≤
    creditsIn (s.wire id) + s.absorbed id + removed + t.budget id

theorem Backed.trans {u : PeerSession} {removed added' removed' : Nat} (h : Backed s t id added removed)
    (h' : Backed t u id added' removed') : Backed s u id (added + added') (removed + removed') := by
  unfold Backed at *
  omega

theorem Backed.mono {removed added' removed' : Nat} (h : Backed s t id added removed)
    (hadded : added' ≤ added) (hremoved : removed ≤ removed') : Backed s t id added' removed' := by
  unfold Backed at *
  omega

theorem backed_of_eq (hwire : t.wire = s.wire) (hbudget : ∀ id, t.budget id = s.budget id)
    (habsorbed : ∀ id, t.absorbed id ≤ s.absorbed id) (id : Nat) : Backed s t id 0 0 := by simp_all [Backed]

theorem Buries.backed (h : Buries s t)
    (habsorbed : t.absorbed id ≤ s.absorbed id + added) : Backed s t id 0 added := by
  obtain ⟨m, rfl⟩ := h.eq
  have hbudget : budget { s with rejectedBodies := m } id = s.budget id := rfl
  grind [Backed]

theorem Reports.backed {id' : Nat} (h : Reports id' s t) (id : Nat) : Backed s t id 0 0 := by
  obtain ⟨errors, v, c, p, rfl, herrors⟩ := h.eq
  have hnothing : creditsIn errors = 0 := by
    refine List.sum_eq_zero fun n hn => ?_
    obtain ⟨f, hf, rfl⟩ := List.mem_map.1 hn
    obtain ⟨message, code, rfl⟩ := herrors f hf
    rfl
  have hwire : creditsIn (update s.wire id' (s.wire id' ++ errors) id) = creditsIn (s.wire id) := by
    by_cases hid : id = id' <;> simp_all
  exact le_of_eq (by rw [hwire]; rfl)

theorem backed_removeRequest (s : PeerSession) (env : Env) (gone : Nat) (r : Ref) (allowTrailing : Bool) (id : Nat) :
    Backed s (s.removeRequest env gone r allowTrailing) id 0 0 := by
  obtain ⟨tombstones, h⟩ := removeRequest_eq s env gone r allowTrailing
  have habsorbed : ∀ id, (s.removeRequest env gone r allowTrailing).absorbed id ≤ s.absorbed id := fun id => by
    simp only [removeRequest]
    split
    · exact absorbed_remember _ env gone _ id
    · exact le_rfl
  exact backed_of_eq (by rw [h]) (fun id => by rw [h]; rfl) habsorbed id

theorem backed_modify (s : PeerSession) (r : Ref) (f : RequestState → RequestState) (hid : (f (s.states r)).id = (s.states r).id)
    (hbody : (f (s.states r)).hasBody = (s.states r).hasBody)
    (havailable : (f (s.states r)).requestCreditsAvailable = (s.states r).requestCreditsAvailable) (id : Nat) :
    Backed s (s.modify r f) id 0 0 := by
  have hbudget : ∀ id, (s.modify r f).budget id = s.budget id := budget_of_states rfl fun q _ id => by
    show grantedTo id (update s.states r _ q) = _
    by_cases hq : q = r <;> simp_all [update_self, grantedTo, Function.update_of_ne]
  exact backed_of_eq (s := s) (t := s.modify r f) rfl hbudget (fun _ => le_rfl) id

theorem backed_send (s : PeerSession) (id' : Nat) (frame : NodeFrame) (id : Nat) :
    Backed s (s.send id' frame) id 0 (if id' = id then frame.credit else 0) := by
  have hbudget : (s.send id' frame).budget id = s.budget id := rfl
  have habsorbed : (s.send id' frame).absorbed id = s.absorbed id := rfl
  have hwire : creditsIn ((s.send id' frame).wire id) = creditsIn (s.wire id) + if id' = id then frame.credit else 0 := by
    show creditsIn (update s.wire id' (s.wire id' ++ [frame]) id) = _
    by_cases hid : id' = id
    · simp_all
    · grind
  unfold Backed
  omega

theorem budget_credit (st : RequestState) (hr : r < s.next)
    (hbody : (s.states r).hasBody = true) (hsame : RequestState.SameRequest (s.states r) st) (id : Nat) :
    (s.modify r (fun _ => st)).budget id + (if (s.states r).id = id then (s.states r).requestCreditsAvailable else 0) =
      s.budget id + if (s.states r).id = id then st.requestCreditsAvailable else 0 := by
  have hmodify := budget_modify s id hr (fun _ => st)
  simpa only [grantedTo, hbody, hsame.hasBody, hsame.id, true_and] using hmodify

theorem backed_enqueue {payload : Bytes} {now : Nat} {st : RequestState} (hr : r < s.next)
    (hbody : (s.states r).hasBody = true) (h : (s.states r).enqueueRequestBody payload now = .ok st) (id : Nat) :
    Backed s (s.modify r (fun _ => st)) id 0 (if (s.states r).id = id then 1 else 0) := by
  have hbudget := budget_credit st hr hbody (RequestState.Move.enqueues payload now st h).same id
  have hpaid : st.requestCreditsAvailable + 1 = (s.states r).requestCreditsAvailable := by
    obtain ⟨-, havailable, -, body, -, rfl⟩ := RequestState.enqueueRequestBody_ok h
    exact Nat.succ_pred_eq_of_ne_zero havailable
  show creditsIn (s.wire id) + s.absorbed id + 0 + s.budget id ≤ creditsIn (s.wire id) + s.absorbed id + _ + _
  grind

theorem backed_consumed (hr : r < s.next) (hbody : (s.states r).hasBody = true) (next : Consumer) (id : Nat) :
    Backed s (s.consumed r next) id (if (s.states r).id = id then (s.states r).requestBodyChunkConsumed.2 else 0) 0 := by
  obtain ⟨hid, hlane, hpriority, hhas⟩ := RequestState.requestBodyChunkConsumed_same (s.states r)
  have havailable := RequestState.requestBodyChunkConsumed_available (s.states r)
  have hbudget : (s.consumed r next).budget id + _ = _ := budget_credit { (s.states r).requestBodyChunkConsumed.1 with
    body := { (s.states r).requestBodyChunkConsumed.1.body with consumer := next } } hr hbody ⟨hid, hlane, hpriority, hhas⟩ id
  show creditsIn (s.wire id) + s.absorbed id + _ + s.budget id ≤ creditsIn (s.wire id) + s.absorbed id + 0 + _
  grind

theorem exec_backed (env : Env) (id : Nat) : ∀ {c : Section}, c.Refers s →
    Backed s (s.exec env c).1 id (s.loads id (s.exec env c).2) (c.load s id)
  | .enqueueBody id' lane r payload, ⟨hr, hid, hbody⟩ => by
    simp only [exec, Section.load]
    split
    · rename_i st hst
      have h := backed_enqueue hr hbody hst id
      rwa [hid] at h
    · simp [Backed, Section.load]
  | .discardRaced id' lane r e, _ => by
    have habsorbed : (s.discardRacedRequestBodyError env id' lane e).1.absorbed id ≤
        s.absorbed id + if id' = id then 1 else 0 := by
      have hdiscard := absorbed_discard s env id' lane false id
      simp only [true_and] at hdiscard
      cases e with
      | body e =>
        cases e with
        | queueFull => exact Nat.le_add_right _ _
        | closed => exact hdiscard
        | ended => exact hdiscard
      | tooLarge => exact Nat.le_add_right _ _
      | creditExhausted => exact Nat.le_add_right _ _
    have hdiscarded := (buries_discardRaced s env id' lane e).backed habsorbed
    simp only [exec, Section.load]
    split
    · exact hdiscarded
    · exact hdiscarded.trans ((reports_rejectProtocol _ env id' _ _).backed id)
  | .discardBody id' lane isEnd, _ => by
    have hdiscarded := (buries_discard s env id' lane isEnd).backed (absorbed_discard s env id' lane isEnd id)
    have hload : (Section.discardBody id' lane isEnd).load s id = if isEnd = false ∧ id' = id then 1 else 0 := by
      cases isEnd <;> simp [Section.load]
    rw [hload]
    simp only [exec]
    split
    · exact hdiscarded
    · exact hdiscarded.trans ((reports_noteProtocolViolation id' _).backed id)
  | .dropTombstone id' lane, _ => by
    refine (buries_discard s env id' lane true).backed ?_
    simpa [Section.load] using absorbed_discard s env id' lane true id
  | .snapshot _ _, _ => le_rfl
  | .cancelState id' r allowTrailing timedOut, _ => by
    simp only [exec]
    split
    · have h := backed_removeRequest s env id' r allowTrailing id
      cases timedOut <;> exact h
    · exact le_rfl
  | .cancelContext r, _ => by
    have h := backed_modify s r RequestState.cancelContext rfl rfl rfl id
    simp only [exec]
    split <;> exact h
  | .endBody r, _ => by
    obtain ⟨hid, -, -, hbody⟩ := RequestState.endRequestBody_same (s.states r)
    refine backed_modify s r _ hid hbody ?_ id
    unfold RequestState.endRequestBody
    split <;> rfl
  | .stopBody r, _ => backed_modify s r _ rfl rfl rfl id
  | .closeBody r, _ => by
    simp only [exec]
    exact backed_modify s r _ rfl rfl rfl id
  | .closeCurrent r, _ => by
    simp only [exec]
    exact backed_modify s r _ rfl rfl rfl id
  | .timeoutError id', _ => (reports_sendBoundedError s env id' _ _).backed id
  | .sendInitialCredits r, _ => by
    simp only [exec, Section.load]
    split
    · exact backed_send s _ _ id
    · simp [Backed, Section.load]
  | .armTimer r, _ => by
    simp only [exec]
    refine backed_modify s r _ ?_ ?_ ?_ id <;> split <;> rfl
  | .serve r, _ => by
    simp only [exec]
    split
    · exact (reports_sendBoundedError s env _ _ _).backed id
    · exact le_rfl
  | .handlerExited nonInteractive, _ => le_rfl

/-! ### Steps -/

def frameLoad (id : Nat) : PeerFrame → Nat
  | .reqBody id' _ => if id' = id then 1 else 0
  | .undecodable | .req _ _ _ | .reqEnd _ | .credit _ _ | .cancel _ | .webSocket _ | .response => 0

theorem onMessage_backed (s : PeerSession) (env : Env) (lane : Nat) (frame : PeerFrame) (id : Nat) :
    Backed s (s.onMessage env lane frame).1 id
      ((s.onMessage env lane frame).1.loads id (s.onMessage env lane frame).2) (frameLoad id frame) := by
  have h := onMessage_handles s env lane frame
  generalize s.onMessage env lane frame = m at h ⊢
  cases h with
  | books id' frame t h => exact (h.backed id).mono le_rfl (Nat.zero_le _)
  | refuses id' size head t h =>
    obtain ⟨u, hb, hr⟩ := h.reports
    have habsorbed : u.absorbed id ≤ s.absorbed id + 0 := by
      have hsame : t.absorbed id = u.absorbed id := by rw [absorbed, absorbed, hr.rejectedBodies]
      rw [← hsame, absorbed]
      rcases h.tombstones with htombs | htombs
      · rw [htombs]
        exact le_rfl
      · rw [htombs]
        exact absorbed_prune s env.now id
    exact (hb.backed habsorbed).trans (hr.backed id)
  | admits id' size head =>
    have hbudget := budget_admitted s env lane id' head id
    have habsorbed : (s.admitted env lane id' head).absorbed id ≤ s.absorbed id := absorbed_prune s env.now id
    have hload : (s.admitted env lane id' head).loads id (if head.hasBody then [.sendInitialCredits s.next] else []) =
        if head.hasBody = true ∧ id' = id then maxRequestCredits else 0 := by
      by_cases hbody : head.hasBody = true <;> simp_all [loads_cons, loads_nil, Section.load,
        admitted_state, RequestState.newRequestState]
    show creditsIn (s.wire id) + _ + _ + _ ≤ creditsIn (s.wire id) + _ + 0 + _
    rw [hload]
    dsimp only
    omega
  | enqueues | discardsBody => simp [Backed, Section.load, frameLoad]
  | _ => exact le_rfl

theorem load_keeps (hk : Keeps s t) (id : Nat) {c : Section} (h : c.Refers s) : c.load t id = c.load s id := by
  cases c with
  | sendInitialCredits r => rw [Section.load, Section.load, (hk.same r h.1).id]
  | discardBody _ _ isEnd => cases isEnd <;> rfl
  | _ => rfl

theorem loads_keeps (hk : Keeps s t) (id : Nat) : ∀ {sections : List Section},
    (∀ c ∈ sections, c.Refers s) → t.loads id sections = s.loads id sections
  | [], _ => rfl
  | c :: sections, h => by
    rw [loads_cons, loads_cons, load_keeps hk id (h c List.mem_cons_self),
      loads_keeps hk id fun c' hc' => h c' (List.mem_cons_of_mem c hc')]

theorem load_of_not_receiving (s : PeerSession) (id : Nat) {c : Section} (h : c.isReceiving = false) : c.load s id = 0 := by
  cases c <;> first | rfl | cases h

theorem step_backed_elsewhere {e : SessionEvent} (h : Threaded s) (hs : s.step e = some t) (id : Nat)
    (he : isLaneEvent e = false) : Backed s t id 0 0 := by
  cases step_becomes hs with
  | receives => cases he
  | laneGoesOn => cases he
  | taskGoesOn task env c others htask =>
    obtain ⟨hrefers, hreceiving⟩ := h.tasks task c (by rw [htask]; exact List.mem_cons_self)
    have hexec := exec_backed env id hrefers
    rw [load_of_not_receiving s id hreceiving] at hexec
    exact hexec.mono (Nat.zero_le _) le_rfl
  | starts r active => exact backed_modify s r (fun st => { st with started := true }) rfl rfl rfl id
  | timerLate r => exact backed_modify s r _ rfl rfl rfl id
  | timerFires r env =>
    have htimedOut : Backed s (s.timedOut r) id 0 0 := backed_modify s r _ rfl rfl rfl id
    have hburies := buries_remember (s.timedOut r) env (s.states r).id (s.states r).lane
    have hremembered : Backed (s.timedOut r) _ id 0 0 := hburies.backed (absorbed_remember _ env _ _ id)
    exact htimedOut.trans hremembered
  | consumes r e body => exact backed_modify s r (fun st => { st with body := body }) rfl rfl rfl id
  | chunkKept r env next hr hbody => exact (backed_consumed hr hbody next id).mono (Nat.zero_le _) le_rfl
  | chunkGranted r env next hr hbody =>
    have hsent := (backed_consumed hr hbody next id).trans (backed_send (s.consumed r next) (s.states r).id
      (.reqCredit (s.states r).requestBodyChunkConsumed.2) id)
    grind [NodeFrame.credit, Backed]
  | chunkRefused r env next hr hbody => exact (backed_consumed hr hbody next id).mono (Nat.zero_le _) le_rfl
  | handlerCloses r => exact backed_modify s r (fun st => { st with body := st.body.close }) rfl rfl rfl id
  | responds r frame hframe =>
    have hsent := backed_send s (s.states r).id frame id
    have hnothing : frame.credit = 0 := by
      cases frame with
      | reqCredit count => cases hframe
      | _ => rfl
    simp_all
  | closes =>
    show creditsIn (s.wire id) + 0 + 0 + s.budget id ≤ creditsIn (s.wire id) + s.absorbed id + 0 + s.budget id
    omega
  | _ => exact le_rfl

/-- What the node's side holds of the credit of `id`, whose frames come on `lane`. -/
def owed (s : PeerSession) (id lane : Nat) : Nat := creditsIn (s.wire id) + s.loads id (s.rx lane) + s.absorbed id

def arriving (id : Nat) : SessionEvent → Nat
  | .receive _ frame _ => frameLoad id frame
  | .laneGoesOn _ _ | .taskGoesOn _ _ | .dispatch | .startPicked | .dropPicked | .timer _ _ | .consumer _ _
  | .chunkConsumed _ _ | .handlerCloses _ | .respond _ _ | .attach | .detachLane _ _ | .close => 0

/-- **No step mints credit**: what the node's side gains comes with a frame or from the budget. -/
theorem owed_step {e : SessionEvent} (h : Threaded s) (hs : s.step e = some t) (id lane : Nat)
    (hothers : ∀ l, l ≠ lane → ∀ c ∈ s.rx l, c.load s id = 0) :
    t.owed id lane + s.budget id ≤ s.owed id lane + arriving id e + t.budget id := by
  have hk := step_keeps hs
  have hkept : t.loads id (s.rx lane) = s.loads id (s.rx lane) := loads_keeps hk id fun c hc => (h.rx lane c hc).1
  cases hlane : isLaneEvent e with
  | false =>
    have hbacked := step_backed_elsewhere h hs id hlane
    unfold Backed at hbacked
    unfold owed
    rw [step_rx hs hlane, hkept]
    omega
  | true =>
    cases e with
    | receive l frame env =>
      have hbacked := onMessage_backed s env l frame id
      have hsame := (onMessage_sameThreads s env l frame).1
      obtain ⟨hidle, -, rfl⟩ := receive_eq hs
      generalize s.onMessage env l frame = handled at hbacked hsame hkept ⊢
      show creditsIn (handled.1.wire id) + handled.1.loads id (update handled.1.rx l handled.2 lane) +
        handled.1.absorbed id + s.budget id ≤
        creditsIn (s.wire id) + s.loads id (s.rx lane) + s.absorbed id + frameLoad id frame + handled.1.budget id
      unfold Backed at hbacked
      by_cases hl : lane = l
      · grind
      · change handled.1.loads id (s.rx lane) = _ at hkept
        grind
    | laneGoesOn l env =>
      obtain ⟨c, others, hrx, rfl⟩ := laneGoesOn_eq hs
      have hmem : c ∈ s.rx l := by rw [hrx]; exact List.mem_cons_self
      have hbacked := exec_backed env id (h.rx l c hmem).1
      have hsame := (exec_sameThreads s env c).1
      have hnew : (s.exec env c).1.loads id (s.exec env c).2 = s.loads id (s.exec env c).2 :=
        loads_keeps (carries_exec s env c).keeps id fun c' hc' => (exec_sections (h.rx l c hmem).1 c' hc').1
      have hfirst : c.load (s.exec env c).1 id = c.load s id := load_keeps (carries_exec s env c).keeps id (h.rx l c hmem).1
      generalize s.exec env c = executed at hbacked hsame hkept hnew hfirst ⊢
      show creditsIn (executed.1.wire id) +
        executed.1.loads id (update executed.1.rx l (executed.2 ++ others) lane) + executed.1.absorbed id +
          s.budget id ≤
        creditsIn (s.wire id) + s.loads id (s.rx lane) + s.absorbed id + 0 + executed.1.budget id
      change executed.1.loads id (s.rx lane) = _ at hkept
      unfold Backed at hbacked
      by_cases hl : lane = l
      · rw [hl, hrx, loads_cons] at hkept ⊢
        rw [loads_cons] at hkept
        grind [loads_append]
      · grind
    | _ => cases hlane

end PeerSession
end YuriRtc
