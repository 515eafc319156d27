import YuriRtc.SessionSteps
/-!
# SessionThreads — what the goroutines of a session hold on to

A goroutine keeps the `*requestState` it once looked up.  `Section.Refers` says that a section's references are admitted
requests and carry the id the section goes by, `Section.Receives` that a section of a lane's goroutine is about a request
of that lane, and `Threaded` is both of every goroutine, kept by every step (`Threaded.step`).  Only the goroutine of a
lane takes frames and hands out a request's first credits (`isReceiving`).
-/
namespace YuriRtc

namespace Section

def isReceiving : Section → Bool
  | .enqueueBody _ _ _ _ | .discardRaced _ _ _ _ | .discardBody _ _ _ | .dropTombstone _ _ | .endBody _
  | .sendInitialCredits _ => true
  | .snapshot _ _ | .cancelState _ _ _ _ | .cancelContext _ | .stopBody _ | .closeBody _ | .closeCurrent _
  | .timeoutError _ | .armTimer _ | .serve _ | .handlerExited _ => false

def Refers (s : PeerSession) : Section → Prop
  | .enqueueBody id _ r _ | .discardRaced id _ r _ => r < s.next ∧ (s.states r).id = id ∧ (s.states r).hasBody = true
  | .snapshot id r | .cancelState id r _ _ => r < s.next ∧ (s.states r).id = id
  | .endBody r | .sendInitialCredits r => r < s.next ∧ (s.states r).hasBody = true
  | .cancelContext r | .stopBody r | .closeBody r | .closeCurrent r | .armTimer r | .serve r => r < s.next
  | .discardBody _ _ _ | .dropTombstone _ _ | .timeoutError _ | .handlerExited _ => True

def Receives (s : PeerSession) (lane : Nat) : Section → Prop
  | .enqueueBody _ l r _ | .discardRaced _ l r _ => l = lane ∧ (s.states r).lane = lane
  | .discardBody _ l _ | .dropTombstone _ l => l = lane
  | .endBody r | .sendInitialCredits r => (s.states r).lane = lane
  | .snapshot _ _ | .cancelState _ _ _ _ | .cancelContext _ | .stopBody _ | .closeBody _ | .closeCurrent _
  | .timeoutError _ | .armTimer _ | .serve _ | .handlerExited _ => True

end Section

variable {s t : PeerSession} {e : SessionEvent}

namespace PeerSession

open RequestState (SameRequest)

/-- **Requests are never forgotten or renamed**: what is true of every step, admissions included. -/
structure Keeps (s t : PeerSession) : Prop where
  next : s.next ≤ t.next
  same : ∀ r, r < s.next → SameRequest (s.states r) (t.states r)

theorem Carries.keeps (h : Carries s t) : Keeps s t :=
  ⟨le_of_eq h.next.symm, fun r _ => (h.moves r).same⟩

theorem keeps_admitted (s : PeerSession) (env : Env) (lane id : Nat) (head : RequestHead) :
    Keeps s (s.admitted env lane id head) :=
  ⟨Nat.le_succ _, fun r hr => by rw [admitted_states_of_lt _ _ _ _ _ hr]; exact .refl _⟩

theorem step_keeps (h : s.step e = some t) : Keeps s t := by
  rcases step_carries_or_admits h with hc | ⟨lane, id, size, head, env, -, -, -, -, rx, rfl⟩
  · exact hc.keeps
  · obtain ⟨hnext, hsame⟩ := keeps_admitted s env lane id head
    exact ⟨hnext, hsame⟩

end PeerSession

namespace Section

theorem Refers.keeps (hk : PeerSession.Keeps s t) {c : Section} (h : c.Refers s) : c.Refers t := by
  cases c with
  | enqueueBody _ _ r _ | discardRaced _ _ r _ =>
    obtain ⟨hr, hid, hbody⟩ := h
    exact ⟨lt_of_lt_of_le hr hk.next, (hk.same r hr).id.trans hid, (hk.same r hr).hasBody.trans hbody⟩
  | snapshot _ r | cancelState _ r _ _ => exact ⟨lt_of_lt_of_le h.1 hk.next, (hk.same r h.1).id.trans h.2⟩
  | endBody r | sendInitialCredits r => exact ⟨lt_of_lt_of_le h.1 hk.next, (hk.same r h.1).hasBody.trans h.2⟩
  | discardBody | dropTombstone | timeoutError | handlerExited => trivial
  | _ => exact lt_of_lt_of_le h hk.next

theorem Receives.keeps (hk : PeerSession.Keeps s t) {lane : Nat} {c : Section} (h : c.Refers s) (hl : c.Receives s lane) :
    c.Receives t lane := by
  cases c with
  | enqueueBody _ _ r _ | discardRaced _ _ r _ => exact ⟨hl.1, (hk.same r h.1).lane.trans hl.2⟩
  | endBody r | sendInitialCredits r => exact (hk.same r h.1).lane.trans hl
  | _ => exact hl

end Section

namespace PeerSession

variable {s t : PeerSession}

inductive LeadsTo (s : PeerSession) (env : Env) : Section → Section → Prop
  | notEnqueued (id lane : Nat) (r : Ref) (payload : Bytes) (e : UploadError)
    (h : (s.states r).enqueueRequestBody payload env.now = .error e) :
    LeadsTo s env (.enqueueBody id lane r payload) (.discardRaced id lane r e)
  | notDiscarded (id lane : Nat) (r : Ref) (e : UploadError)
    (h : (s.discardRacedRequestBodyError env id lane e).2 = false) :
    LeadsTo s env (.discardRaced id lane r e) (.cancelState id r (bodyErrorAllowsTrailing e) false)
  | snapshot (id : Nat) (r : Ref) :
    LeadsTo s env (.snapshot id r) (.cancelState id r (s.states r).hasUnfinishedRequestBody false)
  | cancels (id : Nat) (r : Ref) (allowTrailing timedOut : Bool) (h : s.requests.lookup id = some r) :
    LeadsTo s env (.cancelState id r allowTrailing timedOut) (.cancelContext r)
  | answers (id : Nat) (r : Ref) (allowTrailing : Bool) : LeadsTo s env (.cancelState id r allowTrailing true) (.timeoutError id)
  | stops (r : Ref) : LeadsTo s env (.cancelContext r) (.stopBody r)
  | closes (r : Ref) : LeadsTo s env (.stopBody r) (.closeBody r)
  | closesCurrent (r : Ref) : LeadsTo s env (.closeBody r) (.closeCurrent r)
  | arms (r : Ref) : LeadsTo s env (.sendInitialCredits r) (.armTimer r)
  | unsent (r : Ref) (h : env.sendOk = false) :
    LeadsTo s env (.sendInitialCredits r) (.cancelState (s.states r).id r false false)
  | finishes (r : Ref) : LeadsTo s env (.serve r) (.snapshot (s.states r).id r)

theorem exec_leadsTo {env : Env} {c c' : Section} (hc' : c' ∈ (s.exec env c).2) : LeadsTo s env c c' := by
  cases c with
  | enqueueBody id lane r payload =>
    simp only [exec] at hc'
    split at hc'
    · cases hc'
    rename_i e he
    rw [List.mem_singleton.1 hc']
    exact .notEnqueued id lane r payload e he
  | discardRaced id lane r e =>
    simp only [exec] at hc'
    split at hc'
    · cases hc'
    rename_i hnot
    rw [List.mem_singleton.1 hc']
    exact .notDiscarded id lane r e (by simpa using hnot)
  | snapshot id r =>
    rw [List.mem_singleton.1 hc']
    exact .snapshot id r
  | cancelState id r allowTrailing timedOut =>
    simp only [exec] at hc'
    split at hc'
    · rename_i hlive
      rcases List.mem_cons.1 hc' with rfl | hc'
      · exact .cancels id r allowTrailing timedOut hlive
      split at hc'
      · rename_i htimedOut
        rw [List.mem_singleton.1 hc', htimedOut]
        exact .answers id r allowTrailing
      · cases hc'
    · cases hc'
  | cancelContext r =>
    simp only [exec] at hc'
    split at hc'
    · rw [List.mem_singleton.1 hc']
      exact .stops r
    · cases hc'
  | stopBody r =>
    rw [List.mem_singleton.1 hc']
    exact .closes r
  | closeBody r =>
    rw [List.mem_singleton.1 hc']
    exact .closesCurrent r
  | sendInitialCredits r =>
    simp only [exec] at hc'
    split at hc'
    · rw [List.mem_singleton.1 hc']
      exact .arms r
    rename_i hsend
    rw [List.mem_singleton.1 hc']
    exact .unsent r (by simpa using hsend)
  | serve r =>
    simp only [exec] at hc'
    rw [List.mem_singleton.1 hc']
    exact .finishes r
  | _ => cases hc'

theorem exec_sections {env : Env} {c : Section} (h : c.Refers s) : ∀ c' ∈ (s.exec env c).2,
    c'.Refers s ∧ (∀ lane, c.Receives s lane → c'.Receives s lane) ∧
      (c.isReceiving = false → c'.isReceiving = false) := by
  intro c' hc'
  cases exec_leadsTo hc' with
  | notEnqueued => exact ⟨h, fun _ hl => hl, nofun⟩
  | notDiscarded => exact ⟨⟨h.1, h.2.1⟩, fun _ _ => trivial, fun _ => rfl⟩
  | snapshot => exact ⟨h, fun _ _ => trivial, fun _ => rfl⟩
  | cancels => exact ⟨h.1, fun _ _ => trivial, fun _ => rfl⟩
  | answers => exact ⟨trivial, fun _ _ => trivial, fun _ => rfl⟩
  | arms => exact ⟨h.1, fun _ _ => trivial, fun _ => rfl⟩
  | unsent => exact ⟨⟨h.1, rfl⟩, fun _ _ => trivial, fun _ => rfl⟩
  | finishes => exact ⟨⟨h, rfl⟩, fun _ _ => trivial, fun _ => rfl⟩
  | stops | closes | closesCurrent => exact ⟨h, fun _ _ => trivial, fun _ => rfl⟩

def Indexed (s : PeerSession) : Prop := ∀ id r, s.requests.lookup id = some r → r < s.next ∧ (s.states r).id = id

theorem onMessage_sections (hs : Indexed s) (env : Env) (lane : Nat) (frame : PeerFrame) :
    ∀ c ∈ (s.onMessage env lane frame).2, c.Refers (s.onMessage env lane frame).1 ∧
      c.Receives (s.onMessage env lane frame).1 lane := by
  intro c hc
  have h := onMessage_handles s env lane frame
  generalize s.onMessage env lane frame = m at h hc ⊢
  cases h with
  | books => cases hc
  | refuses => cases hc
  | admits id size head =>
    dsimp only at hc
    split at hc
    · rename_i hbody
      rw [List.mem_singleton.1 hc]
      refine ⟨⟨Nat.lt_succ_self _, ?_⟩, ?_⟩
      · rw [admitted_state]
        exact hbody
      show ((s.admitted env lane id head).states s.next).lane = lane
      rw [admitted_state]
      rfl
    · cases hc
  | enqueues id payload r hr hlane hbody =>
    obtain ⟨hlt, hid⟩ := hs id r hr
    rw [List.mem_singleton.1 hc]
    exact ⟨⟨hlt, hid, hbody⟩, rfl, hlane⟩
  | ends id r hr hlane hbody =>
    rw [List.mem_singleton.1 hc]
    exact ⟨⟨(hs id r hr).1, hbody⟩, hlane⟩
  | snapshots id r hr =>
    rw [List.mem_singleton.1 hc]
    exact ⟨hs id r hr, trivial⟩
  | discardsBody | discardsEnd | dropsTombstone =>
    rw [List.mem_singleton.1 hc]
    exact ⟨trivial, rfl⟩

def SameThreads (s t : PeerSession) : Prop := t.rx = s.rx ∧ t.tasks = s.tasks

/-- **What a section leaves alone**: lanes, goroutines, and everything `begin` and the dispatcher look after. -/
structure Within (s t : PeerSession) : Prop where
  eq : ∃ states requests rejectedBodies bodyRequests active nonInteractive violations sends closeRequested wire,
    t = { s with
      states := states
      requests := requests
      rejectedBodies := rejectedBodies
      bodyRequests := bodyRequests
      activeHandlers := active
      activeNonInteractive := nonInteractive
      protocolViolations := violations
      capacityErrorSends := sends
      peerCloseRequested := closeRequested
      wire := wire }

namespace Within

variable {s t : PeerSession}

theorem refl (s : PeerSession) : Within s s := ⟨_, _, _, _, _, _, _, _, _, _, rfl⟩

theorem trans {u : PeerSession} (h : Within s t) (h' : Within t u) : Within s u := by
  obtain ⟨_, _, _, _, _, _, _, _, _, _, rfl⟩ := h.eq
  obtain ⟨_, _, _, _, _, _, _, _, _, _, rfl⟩ := h'.eq
  exact ⟨_, _, _, _, _, _, _, _, _, _, rfl⟩

theorem nextTask (h : Within s t) : t.nextTask = s.nextTask := by
  obtain ⟨_, _, _, _, _, _, _, _, _, _, rfl⟩ := h.eq
  rfl

theorem lanes (h : Within s t) : t.lanes = s.lanes := by
  obtain ⟨_, _, _, _, _, _, _, _, _, _, rfl⟩ := h.eq
  rfl

end Within

theorem Buries.within (h : Buries s t) : Within s t := by
  obtain ⟨m, rfl⟩ := h.eq
  exact ⟨_, _, _, _, _, _, _, _, _, _, rfl⟩

theorem Reports.within {id : Nat} (h : Reports id s t) : Within s t := by
  obtain ⟨errors, v, c, p, rfl, -⟩ := h.eq
  exact ⟨_, _, _, _, _, _, _, _, _, _, rfl⟩

theorem exec_within (s : PeerSession) (env : Env) (c : Section) : Within s (s.exec env c).1 := by
  have h := exec_does s env c
  generalize (s.exec env c).1 = t at h ⊢
  cases h with
  | nothing => exact .refl s
  | answers _ id u t hburies hreports => exact hburies.within.trans hreports.within
  | removes id r allowTrailing timedOut env =>
    obtain ⟨tombstones, h⟩ := removeRequest_eq s env id r allowTrailing
    rw [h]
    exact ⟨_, _, _, _, _, _, _, _, _, _, rfl⟩
  | changes | sends | exits => exact ⟨_, _, _, _, _, _, _, _, _, _, rfl⟩

theorem Within.sameThreads (h : Within s t) : SameThreads s t := by
  obtain ⟨_, _, _, _, _, _, _, _, _, _, rfl⟩ := h.eq
  exact ⟨rfl, rfl⟩

theorem exec_sameThreads (s : PeerSession) (env : Env) (c : Section) : SameThreads s (s.exec env c).1 :=
  (exec_within s env c).sameThreads

theorem onMessage_sameThreads (s : PeerSession) (env : Env) (lane : Nat) (frame : PeerFrame) :
    SameThreads s (s.onMessage env lane frame).1 := by
  have h := onMessage_handles s env lane frame
  generalize s.onMessage env lane frame = m at h ⊢
  cases h with
  | books id frame t h => exact h.within.sameThreads
  | refuses id size head t h =>
    obtain ⟨u, hb, hr⟩ := h.reports
    exact (hb.within.trans hr.within).sameThreads
  | _ => exact ⟨rfl, rfl⟩

/-- **Every goroutine holds on to admitted requests**, and a lane's goroutine to requests of the lane. -/
structure Threaded (s : PeerSession) : Prop where
  indexed : Indexed s
  rx : ∀ lane, ∀ c ∈ s.rx lane, c.Refers s ∧ c.Receives s lane
  tasks : ∀ task, ∀ c ∈ s.tasks task, c.Refers s ∧ c.isReceiving = false

namespace Threaded

variable {s t : PeerSession}

theorem newPeerSession : Threaded newPeerSession :=
  ⟨nofun, nofun, nofun⟩

theorem of_threads (h : Threaded s) (hk : Keeps s t) (hindexed : Indexed t)
    (hrx : ∀ lane, ∀ c ∈ t.rx lane, c ∈ s.rx lane ∨ c.Refers t ∧ c.Receives t lane)
    (htasks : ∀ task, ∀ c ∈ t.tasks task, c ∈ s.tasks task ∨ c.Refers t ∧ c.isReceiving = false) : Threaded t where
  indexed := hindexed
  rx lane c hc := by
    rcases hrx lane c hc with hold | hnew
    · obtain ⟨hr, hl⟩ := h.rx lane c hold
      exact ⟨hr.keeps hk, hl.keeps hk hr⟩
    · exact hnew
  tasks task c hc := by
    rcases htasks task c hc with hold | hnew
    · obtain ⟨hr, hn⟩ := h.tasks task c hold
      exact ⟨hr.keeps hk, hn⟩
    · exact hnew

theorem indexed_carries (h : Indexed s) (hc : Carries s t) : Indexed t := fun id r hr => by
  obtain ⟨hlt, hid⟩ := h id r (hc.requests id r hr)
  exact ⟨hc.next ▸ hlt, (hc.moves r).same.id.trans hid⟩

theorem indexed_admitted (h : Indexed s) (env : Env) (lane id : Nat) (head : RequestHead) :
    Indexed (s.admitted env lane id head) := fun id' r hr => by
  change (s.requests.insert id s.next).lookup id' = some r at hr
  by_cases hid : id' = id
  · rw [hid, AList.lookup_insert] at hr
    cases hr
    rw [admitted_state]
    exact ⟨Nat.lt_succ_self _, hid.symm⟩
  rw [AList.lookup_insert_ne hid] at hr
  obtain ⟨hlt, hr⟩ := h id' r hr
  exact ⟨Nat.lt_succ_of_lt hlt, by rw [admitted_states_of_lt _ _ _ _ _ hlt, hr]⟩

theorem indexed_step (h : Indexed s) (hs : s.step e = some t) : Indexed t := by
  rcases step_carries_or_admits hs with hc | ⟨lane, id, size, head, env, -, -, -, -, rx, rfl⟩
  · exact indexed_carries h hc
  · exact indexed_admitted h env lane id head

theorem mem_update {threads : Nat → List Section} {k l : Nat} {sections : List Section} {c : Section}
    (h : c ∈ Function.update threads k sections l) : (l = k ∧ c ∈ sections) ∨ c ∈ threads l := by
  by_cases hl : l = k <;> simp_all

theorem mem_spawn {sections : List Section} {task : Nat} {c : Section}
    (h : c ∈ (s.spawn sections).tasks task) : c ∈ s.tasks task ∨ c ∈ sections := by
  rcases mem_update h with ⟨-, h⟩ | h
  · exact .inr h
  · exact .inl h

theorem of_spawn (h : Threaded s) (hk : Keeps s t) (hindexed : Indexed t) (hrx : t.rx = s.rx)
    (sections : List Section) (htasks : ∀ task, ∀ c ∈ t.tasks task, c ∈ s.tasks task ∨ c ∈ sections)
    (hsections : ∀ c ∈ sections, c.Refers s ∧ c.isReceiving = false) : Threaded t := by
  refine h.of_threads hk hindexed (fun lane c hc => .inl (hrx ▸ hc)) fun task c hc => ?_
  rcases htasks task c hc with hold | hnew
  · exact .inl hold
  · obtain ⟨hr, hn⟩ := hsections c hnew
    exact .inr ⟨hr.keeps hk, hn⟩

theorem of_sameThreads (h : Threaded s) (hk : Keeps s t) (hindexed : Indexed t)
    (hsame : SameThreads s t) : Threaded t :=
  h.of_threads hk hindexed (fun _ _ hc => .inl (hsame.1 ▸ hc)) (fun _ _ hc => .inl (hsame.2 ▸ hc))

end Threaded

theorem mem_liveRefs {r : Ref} (h : r ∈ s.liveRefs) : ∃ id, s.requests.lookup id = some r := by
  obtain ⟨⟨id, r'⟩, hmem, rfl⟩ := List.mem_map.1 h
  exact ⟨id, (Assoc.mem_entries_iff_lookup _ _ _).1 hmem⟩

def isLaneEvent : SessionEvent → Bool
  | .receive _ _ _ | .laneGoesOn _ _ => true
  | .taskGoesOn _ _ | .dispatch | .startPicked | .dropPicked | .timer _ _ | .consumer _ _ | .chunkConsumed _ _
  | .handlerCloses _ | .respond _ _ | .attach | .detachLane _ _ | .close => false

theorem step_rx (h : s.step e = some t) (he : isLaneEvent e = false) :
    t.rx = s.rx := by
  cases step_becomes h with
  | receives => cases he
  | laneGoesOn => cases he
  | taskGoesOn task env c => exact (exec_sameThreads s env c).1
  | timerFires r env => exact (buries_remember (s.timedOut r) env (s.states r).id (s.states r).lane).within.sameThreads.1
  | _ => rfl

theorem Threaded.step (h : Threaded s) (hs : s.step e = some t) : Threaded t := by
  have hk := step_keeps hs
  have hindexed := Threaded.indexed_step h.indexed hs
  -- a new goroutine, with the sections it starts with
  have hspawn : ∀ {u : PeerSession} {sections : List Section}, t = u.spawn sections → SameThreads s u →
      (∀ c ∈ sections, c.Refers s ∧ c.isReceiving = false) → Threaded t := by
    rintro u sections rfl hsame hsections
    refine h.of_spawn hk hindexed hsame.1 sections (fun task c hc => ?_) hsections
    exact (Threaded.mem_spawn hc).imp_left fun hold => hsame.2 ▸ hold
  cases step_becomes hs with
  | receives lane frame env =>
    have hsame := onMessage_sameThreads s env lane frame
    refine h.of_threads hk hindexed (fun l c hc => ?_) (fun _ _ hc => .inl (hsame.2 ▸ hc))
    rcases Threaded.mem_update hc with ⟨rfl, hc⟩ | hc
    · exact .inr (onMessage_sections h.indexed env l frame c hc)
    · exact .inl (hsame.1 ▸ hc)
  | laneGoesOn lane env c others hrx =>
    have hsame := exec_sameThreads s env c
    obtain ⟨hrefers, hreceives⟩ := h.rx lane c (by rw [hrx]; exact List.mem_cons_self)
    refine h.of_threads hk hindexed (fun l c' hc' => ?_) (fun _ _ hc' => .inl (hsame.2 ▸ hc'))
    rcases Threaded.mem_update hc' with ⟨rfl, hmem⟩ | hc'
    · rcases List.mem_append.1 hmem with hc' | hc'
      · obtain ⟨hr, hl, -⟩ := exec_sections hrefers c' hc'
        exact .inr ⟨hr.keeps hk, (hl l hreceives).keeps hk hr⟩
      · exact .inl (by rw [hrx]; exact List.mem_cons_of_mem c hc')
    · exact .inl (hsame.1 ▸ hc')
  | taskGoesOn task env c others htask =>
    have hsame := exec_sameThreads s env c
    obtain ⟨hrefers, hreceiving⟩ := h.tasks task c (by rw [htask]; exact List.mem_cons_self)
    refine h.of_threads hk hindexed (fun _ _ hc' => .inl (hsame.1 ▸ hc')) (fun k c' hc' => ?_)
    rcases Threaded.mem_update hc' with ⟨rfl, hmem⟩ | hc'
    · rcases List.mem_append.1 hmem with hc' | hc'
      · obtain ⟨hr, -, hn⟩ := exec_sections hrefers c' hc'
        exact .inr ⟨hr.keeps hk, hn hreceiving⟩
      · exact .inl (by rw [htask]; exact List.mem_cons_of_mem c hc')
    · exact .inl (hsame.2 ▸ hc')
  | starts r active hlive =>
    refine hspawn rfl ⟨rfl, rfl⟩ fun c hc => ?_
    rcases List.mem_cons.1 hc with rfl | hc
    · exact ⟨(h.indexed _ r (isLive_iff.1 hlive)).1, rfl⟩
    · rw [List.mem_singleton.1 hc]
      exact ⟨trivial, rfl⟩
  | timerFires r env hr =>
    refine hspawn rfl (buries_remember (s.timedOut r) env (s.states r).id (s.states r).lane).within.sameThreads fun c hc => ?_
    rw [List.mem_singleton.1 hc]
    exact ⟨⟨hr, rfl⟩, rfl⟩
  | chunkRefused r env next hr =>
    refine hspawn rfl ⟨rfl, rfl⟩ fun c hc => ?_
    rw [List.mem_singleton.1 hc]
    exact ⟨⟨hr, rfl⟩, rfl⟩
  | handlerCloses r hr =>
    refine hspawn rfl ⟨rfl, rfl⟩ fun c hc => ?_
    rw [List.mem_singleton.1 hc]
    exact ⟨hr, rfl⟩
  | detaches lane control closeRequested =>
    refine hspawn rfl ⟨rfl, rfl⟩ fun c hc => ?_
    obtain ⟨r, hr, rfl⟩ := List.mem_map.1 hc
    obtain ⟨id, hid⟩ := mem_liveRefs (List.mem_filter.1 hr).1
    exact ⟨⟨(h.indexed id r hid).1, rfl⟩, rfl⟩
  | closes =>
    refine hspawn rfl ⟨rfl, rfl⟩ fun c hc => ?_
    obtain ⟨r, hr, rfl⟩ := List.mem_map.1 hc
    obtain ⟨id, hid⟩ := mem_liveRefs hr
    exact ⟨(h.indexed id r hid).1, rfl⟩
  | _ => exact h.of_sameThreads hk hindexed ⟨rfl, rfl⟩

end PeerSession
end YuriRtc
