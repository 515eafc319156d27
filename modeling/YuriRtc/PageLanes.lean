import YuriRtc.PageClient
/-!
# PageLanes — what the page does to its lanes and its suspended starts

Most of what a method does besides its own request is to the lanes and to the starts that wait for one: lanes are opened and
dropped, loads go up and down, waiters are resolved, starts are cancelled and their requests aborted.  `Drifts` says once what
that can be; the maps, the messages and the ids are left alone by it.  The queue of waiters holds starts that wait, each once
(`Queued`), and `releaseLaneWaiters` takes them from it.
-/
namespace YuriRtc

def StartPhase.isUnstarted : StartPhase → Bool
  | .opening | .waiting | .granted _ => true
  | .uploading _ _ | .cancellingBody _ _ => false

variable {st : PageStart}

namespace PageStart

structure Moves (st st' : PageStart) : Prop where
  swId : st'.swId = st.swId
  head : st'.head = st.head
  hasStream : st'.hasStream = st.hasStream
  arrived : st'.arrived = st.arrived
  cancelled : st.cancelled = true → st'.cancelled = true
  aborted : st.aborted = true → st'.aborted = true
  phase : st'.phase = st.phase ∨ st.phase = .waiting ∧ ∃ channel, st'.phase = .granted channel

theorem Moves.refl (st : PageStart) : st.Moves st := ⟨rfl, rfl, rfl, rfl, id, id, .inl rfl⟩

theorem Moves.trans {st st' st'' : PageStart} (h : st.Moves st') (h' : st'.Moves st'') : st.Moves st'' where
  swId := h'.swId.trans h.swId
  head := h'.head.trans h.head
  hasStream := h'.hasStream.trans h.hasStream
  arrived := h'.arrived.trans h.arrived
  cancelled := h'.cancelled ∘ h.cancelled
  aborted := h'.aborted ∘ h.aborted
  phase := by
    rcases h'.phase with heq | ⟨hwaiting, channel, hgranted⟩
    · rw [heq]
      exact h.phase
    rcases h.phase with heq | ⟨-, channel', hgranted'⟩
    · exact .inr ⟨heq.symm.trans hwaiting, channel, hgranted⟩
    · simp_all

theorem Moves.isUnstarted {st st' : PageStart} (h : st.Moves st') : st'.phase.isUnstarted = st.phase.isUnstarted := by
  rcases h.phase with heq | ⟨hwaiting, channel, hgranted⟩
  · rw [heq]
  · rw [hwaiting, hgranted]
    rfl

theorem Moves.cancel (st : PageStart) : st.Moves { st with cancelled := true } :=
  ⟨rfl, rfl, rfl, rfl, fun _ => rfl, id, .inl rfl⟩

theorem Moves.abort (st : PageStart) : st.Moves { st with aborted := true } :=
  ⟨rfl, rfl, rfl, rfl, id, fun _ => rfl, .inl rfl⟩

theorem Moves.grant (h : st.phase = .waiting) (channel : Option Nat) :
    st.Moves { st with phase := .granted channel } :=
  ⟨rfl, rfl, rfl, rfl, id, id, .inr ⟨h, channel, rfl⟩⟩

end PageStart

namespace PageClient

variable {s t u : PageClient}

theorem lookup_modifyStart (s : PageClient) (n : Nat) (f : PageStart → PageStart) (m : Nat) :
    (s.modifyStart n f).starts.lookup m = if m = n then (s.starts.lookup n).map f else s.starts.lookup m := by
  unfold modifyStart
  cases hst : s.starts.lookup n with
  | none => grind
  | some st =>
    simp only [Option.map_some]
    exact Assoc.lookup_insert_eq ..

/-! ### A request begins -/

/-- The entry `startRequest` makes for itself. -/
def entryOf (n : Nat) (st : PageStart) (c : Nat) : InboundRequest :=
  ⟨st.swId, c, n, LaneScheduler.constrained st.head.priority st.head.url, st.arrived⟩

/-- `startRequest` after it has written the maps. -/
def registered (s : PageClient) (n : Nat) (st : PageStart) (c : Nat) : PageClient :=
  { s.takeId with maps := s.maps.register s.nextRequestId st.head.initialCredits (entryOf n st c) st.head.hasBody }

/-- `this.uploads.delete(requestId)` -/
def eraseUpload (s : PageClient) (id : Nat) : PageClient :=
  { s with maps := { s.maps with uploads := s.maps.uploads.erase id } }

theorem begin_eq (s : PageClient) (n : Nat) (st : PageStart) (c : Nat) (sends : Sends) : s.begin n st c sends =
    if s.readyState c ≠ .opened ∨ sends.first = false then
      ((s.registered n st c).thrown n st.swId s.nextRequestId).ends n st.swId
    else if st.hasStream then
      (s.registered n st c).setPhase n
        (if st.head.hasBody then .uploading s.nextRequestId c else .cancellingBody s.nextRequestId c)
    else if st.head.hasBody then
      (if sends.second then (s.registered n st c).eraseUpload s.nextRequestId
        else ((s.registered n st c).eraseUpload s.nextRequestId).thrown n st.swId s.nextRequestId).ends n st.swId
    else (s.registered n st c).ends n st.swId := rfl

/-! ### Drift -/

/-- **The lanes have moved, and the suspended starts with them**; no request, message or id has. -/
structure Drifts (s t : PageClient) : Prop where
  maps : t.maps = s.maps
  posts : t.posts = s.posts
  port : t.port = s.port
  nextStart : t.nextStart = s.nextStart
  startingRequests : t.startingRequests = s.startingRequests
  forth : ∀ n st, s.starts.lookup n = some st → ∃ st', t.starts.lookup n = some st' ∧ st.Moves st'
  back : ∀ n st', t.starts.lookup n = some st' → ∃ st, s.starts.lookup n = some st ∧ st.Moves st'

theorem Drifts.refl (s : PageClient) : Drifts s s :=
  ⟨rfl, rfl, rfl, rfl, rfl, fun _ st h => ⟨st, h, .refl st⟩, fun _ st h => ⟨st, h, .refl st⟩⟩

theorem Drifts.trans (h : Drifts s t) (h' : Drifts t u) : Drifts s u where
  maps := h'.maps.trans h.maps
  posts := h'.posts.trans h.posts
  port := h'.port.trans h.port
  nextStart := h'.nextStart.trans h.nextStart
  startingRequests := h'.startingRequests.trans h.startingRequests
  forth n st hst := by
    obtain ⟨st', hst', hmoves⟩ := h.forth n st hst
    obtain ⟨st'', hst'', hmoves'⟩ := h'.forth n st' hst'
    exact ⟨st'', hst'', hmoves.trans hmoves'⟩
  back n st'' hst'' := by
    obtain ⟨st', hst', hmoves'⟩ := h'.back n st'' hst''
    obtain ⟨st, hst, hmoves⟩ := h.back n st' hst'
    exact ⟨st, hst, hmoves.trans hmoves'⟩

theorem Drifts.of_lanes (hsame : (t.maps, t.posts, t.port, t.nextStart, t.startingRequests, t.starts) =
    (s.maps, s.posts, s.port, s.nextStart, s.startingRequests, s.starts)) : Drifts s t := by
  simp only [Prod.mk.injEq] at hsame
  obtain ⟨hmaps, hposts, hport, hnext, hstarting, hstarts⟩ := hsame
  exact ⟨hmaps, hposts, hport, hnext, hstarting, fun _ st h => ⟨st, hstarts ▸ h, .refl st⟩,
    fun _ st h => ⟨st, hstarts ▸ h, .refl st⟩⟩

variable {f : PageStart → PageStart} {n : Nat}

theorem drifts_modifyStart
    (hf : ∀ st, s.starts.lookup n = some st → st.Moves (f st)) : Drifts s (s.modifyStart n f) := by
  have hsame : ∀ m, m ≠ n → (s.modifyStart n f).starts.lookup m = s.starts.lookup m := fun m hne => by
    rw [lookup_modifyStart, if_neg hne]
  have hmoved : ∀ st, s.starts.lookup n = some st → (s.modifyStart n f).starts.lookup n = some (f st) := fun st hst => by
    rw [lookup_modifyStart, if_pos rfl, hst]
    rfl
  refine ⟨?_, ?_, ?_, ?_, ?_, fun m st hst => ?_, fun m st' hst' => ?_⟩
  · unfold modifyStart
    split <;> rfl
  · unfold modifyStart
    split <;> rfl
  · unfold modifyStart
    split <;> rfl
  · unfold modifyStart
    split <;> rfl
  · unfold modifyStart
    split <;> rfl
  · by_cases hm : m = n
    · grind
    · exact ⟨st, (hsame m hm).trans hst, .refl st⟩
  by_cases hm : m = n
  · subst hm
    rw [lookup_modifyStart, if_pos rfl] at hst'
    obtain ⟨st, hst, rfl⟩ := Option.map_eq_some_iff.1 hst'
    exact ⟨st, hst, hf st hst⟩
  · exact ⟨st', (hsame m hm).symm.trans hst', .refl st'⟩

variable (s)

theorem drifts_cancelStart (n : Nat) : Drifts s (s.cancelStart n) := drifts_modifyStart fun st _ => .cancel st

theorem drifts_abort (requestId : Nat) : Drifts s (s.abort requestId) := by
  unfold abort
  split
  · exact drifts_modifyStart fun st _ => .abort st
  · exact .refl s

theorem drifts_setLoad (c load : Nat) : Drifts s (s.setLoad c load) :=
  .of_lanes rfl

theorem drifts_removeChannel (c : Nat) : Drifts s (s.removeChannel c) :=
  .of_lanes rfl

theorem drifts_closeChannel (c : Nat) : Drifts s (s.closeChannel c) :=
  .of_lanes rfl

theorem drifts_scheduleBulkIdleClose : Drifts s s.scheduleBulkIdleClose :=
  .of_lanes rfl

/-! ### A start comes in -/

theorem enter_eq (swId : Int) (st : PageStart) : ∃ t, (t = s ∨ ∃ n, t = s.cancelStart n) ∧
    s.enter swId st = { t with
      startingRequests := t.startingRequests.insert swId t.nextStart
      starts := t.starts.insert t.nextStart st
      nextStart := t.nextStart + 1 } ∧
    ∀ n old, t.starts.lookup n = some old → t.startingRequests.lookup swId = some n → old.cancelled = true := by
  unfold PageClient.enter
  cases hold : s.startingRequests.lookup swId with
  | none => simp [hold]
  | some n =>
    have hd := drifts_cancelStart s n
    refine ⟨s.cancelStart n, .inr ⟨n, rfl⟩, ?_, fun m old hlookup hm => ?_⟩
    · rw [hd.startingRequests, hd.nextStart]
    rw [hd.startingRequests, hold] at hm
    cases hm
    rw [cancelStart, lookup_modifyStart, if_pos rfl] at hlookup
    obtain ⟨st', -, rfl⟩ := Option.map_eq_some_iff.1 hlookup
    rfl

theorem enter_lookup (swId : Int) (st : PageStart) : (s.enter swId st).starts.lookup s.nextStart = some st :=
  AList.lookup_insert _

theorem enter_fresh (swId : Int) (st : PageStart) :
    (s.enter swId st).maps = s.maps ∧ (s.enter swId st).nextRequestId = s.nextRequestId := by
  grind [PageClient.enter, cancelStart, modifyStart]

/-! ### The queue -/

variable {s}

/-- **The waiters are starts that wait for a lane**, each in the queue once. -/
structure Queued (s : PageClient) : Prop where
  nodup : s.laneWaiters.Nodup
  waiting : ∀ n ∈ s.laneWaiters, ∃ st, s.starts.lookup n = some st ∧ st.phase = .waiting

theorem Queued.not_mem (h : s.Queued) (hst : s.starts.lookup n = some st)
    (hphase : st.phase ≠ .waiting) : n ∉ s.laneWaiters := fun hmem => by
  obtain ⟨st', hst', hwaiting⟩ := h.waiting n hmem
  simp_all

theorem Queued.of_starts (h : s.Queued) (hwaiters : t.laneWaiters = s.laneWaiters)
    (hstarts : ∀ n ∈ s.laneWaiters, ∀ st, s.starts.lookup n = some st → st.phase = .waiting →
      ∃ st', t.starts.lookup n = some st' ∧ st'.phase = .waiting) : t.Queued where
  nodup := hwaiters ▸ h.nodup
  waiting n hmem := by
    rw [hwaiters] at hmem
    obtain ⟨st, hst, hwaiting⟩ := h.waiting n hmem
    exact hstarts n hmem st hst hwaiting

theorem Queued.congr (h : s.Queued) (hwaiters : t.laneWaiters = s.laneWaiters) (hstarts : t.starts = s.starts) : t.Queued :=
  h.of_starts hwaiters fun _ _ st hst hwaiting => ⟨st, hstarts ▸ hst, hwaiting⟩

theorem laneWaiters_modifyStart (s : PageClient) (n : Nat) (f : PageStart → PageStart) :
    (s.modifyStart n f).laneWaiters = s.laneWaiters := by
  unfold PageClient.modifyStart
  split <;> rfl

theorem Queued.modifyStart (h : s.Queued)
    (hf : ∀ st, s.starts.lookup n = some st → st.phase = .waiting → (f st).phase = .waiting) :
    (s.modifyStart n f).Queued := by
  refine h.of_starts (laneWaiters_modifyStart s n f) fun m _ st hst hwaiting => ?_
  grind [lookup_modifyStart]

theorem Queued.cancelStart (h : s.Queued) (n : Nat) : (s.cancelStart n).Queued := h.modifyStart fun _ _ hwaiting => hwaiting

theorem Queued.abort (h : s.Queued) (requestId : Nat) : (s.abort requestId).Queued := by
  unfold PageClient.abort
  split
  · exact h.modifyStart fun _ _ hwaiting => hwaiting
  · exact h

theorem modifyAll_spec (hmoves : ∀ st : PageStart, st.Moves (f st)) (hphase : ∀ st, (f st).phase = st.phase)
    {P : PageStart → Prop} (hf : ∀ st, P (f st)) (hkeeps : ∀ st st' : PageStart, st.Moves st' → P st → P st') :
    ∀ (ns : List Nat) {s : PageClient}, s.Queued →
      Drifts s (ns.foldl (fun t n => t.modifyStart n f) s) ∧ (ns.foldl (fun t n => t.modifyStart n f) s).Queued ∧
      (ns.foldl (fun t n => t.modifyStart n f) s).laneWaiters = s.laneWaiters ∧
      ∀ n ∈ ns, ∀ st, (ns.foldl (fun t n => t.modifyStart n f) s).starts.lookup n = some st → P st
  | [], s, hq => ⟨.refl s, hq, rfl, fun _ hn => absurd hn List.not_mem_nil⟩
  | m :: ns, s, hq => by
    have hd : Drifts s (s.modifyStart m f) := drifts_modifyStart fun st _ => hmoves st
    obtain ⟨hdrifts, hqueued, hwaiters, hrest⟩ := modifyAll_spec hmoves hphase hf hkeeps ns
      (hq.modifyStart (n := m) fun st _ hwaiting => (hphase st).trans hwaiting)
    refine ⟨hd.trans hdrifts, hqueued, hwaiters.trans (laneWaiters_modifyStart s m f), fun n hn st hst => ?_⟩
    rcases List.mem_cons.1 hn with rfl | hn
    · obtain ⟨st', hst', hmoved⟩ := hdrifts.back n st hst
      rw [lookup_modifyStart, if_pos rfl] at hst'
      obtain ⟨st'', -, rfl⟩ := Option.map_eq_some_iff.1 hst'
      exact hkeeps _ st hmoved (hf st'')
    · exact hrest n hn st hst

theorem Queued.leave (h : s.Queued) (hn : n ∉ s.laneWaiters) (hwaiters : t.laneWaiters = s.laneWaiters)
    (hstarts : ∀ m, m ≠ n → t.starts.lookup m = s.starts.lookup m) : t.Queued :=
  h.of_starts hwaiters fun m hm st hst hwaiting =>
    ⟨st, (hstarts m fun hc => hn (hc ▸ hm)).trans hst, hwaiting⟩

theorem Queued.wait (h : s.Queued) (hst : s.starts.lookup n = some st) (hn : n ∉ s.laneWaiters) :
    Queued { s.setPhase n .waiting with laneWaiters := s.laneWaiters ++ [n] } where
  nodup := h.nodup.append (List.nodup_singleton n) (List.disjoint_singleton.2 hn)
  waiting m hm := by
    show ∃ st', (s.setPhase n .waiting).starts.lookup m = some st' ∧ _
    rw [setPhase, lookup_modifyStart]
    split
    · exact ⟨{ st with phase := .waiting }, by rw [hst]; rfl, rfl⟩
    · rename_i hne
      exact h.waiting m ((List.mem_append.1 hm).resolve_right fun hc => hne (List.mem_singleton.1 hc))

/-- Where the loop of `releaseLaneWaiters` stands. -/
structure QueuedFrom (s : PageClient) (ws : List Nat) : Prop where
  nodup : ws.Nodup
  waiting : ∀ n ∈ ws, ∃ st, s.starts.lookup n = some st ∧ st.phase = .waiting

theorem QueuedFrom.tail {ws : List Nat} (h : s.QueuedFrom (n :: ws)) (f : PageStart → PageStart)
    (hstarts : ∀ m, t.starts.lookup m = (s.modifyStart n f).starts.lookup m) : t.QueuedFrom ws where
  nodup := (List.nodup_cons.1 h.nodup).2
  waiting m hm := by
    obtain ⟨st, hst, hwaiting⟩ := h.waiting m (List.mem_cons_of_mem _ hm)
    refine ⟨st, ?_, hwaiting⟩
    rw [hstarts, lookup_modifyStart, if_neg]
    · exact hst
    · rintro rfl
      exact (List.nodup_cons.1 h.nodup).1 hm

theorem drifts_grant (hst : s.starts.lookup n = some st) (hwaiting : st.phase = .waiting)
    (channel : Option Nat) : Drifts s (s.setPhase n (.granted channel)) :=
  drifts_modifyStart fun st' hst' => by
    rw [hst] at hst'
    cases hst'
    exact .grant hwaiting channel

theorem releaseWaiters_spec : ∀ (ws : List Nat) {s : PageClient}, s.QueuedFrom ws →
    Drifts s (s.releaseWaiters ws) ∧ (s.releaseWaiters ws).Queued
  | [], s, _ => ⟨.of_lanes rfl, .nil, fun _ h => absurd h List.not_mem_nil⟩
  | n :: ws, s, h => by
    have hstays : Drifts s { s with laneWaiters := n :: ws } ∧ Queued { s with laneWaiters := n :: ws } :=
      ⟨.of_lanes rfl, h.nodup, h.waiting⟩
    obtain ⟨st, hst, hwaiting⟩ := h.waiting n List.mem_cons_self
    unfold releaseWaiters
    simp only [hst]
    split
    · obtain ⟨hdrifts, hqueued⟩ := releaseWaiters_spec ws (h.tail _ fun _ => rfl)
      exact ⟨(drifts_grant hst hwaiting none).trans hdrifts, hqueued⟩
    split
    · exact hstays
    rename_i c hchosen
    split
    · exact hstays
    have hreserved : Drifts s (s.reserve c) := drifts_setLoad ..
    obtain ⟨hdrifts, hqueued⟩ := releaseWaiters_spec ws
      (h.tail (t := (s.reserve c).setPhase n (.granted (some c))) (fun st => { st with phase := .granted (some c) })
        fun m => by
          rw [lookup_modifyStart]
          exact lookup_modifyStart ..)
    have hgranted : Drifts (s.reserve c) ((s.reserve c).setPhase n (.granted (some c))) :=
      drifts_grant (s := s.reserve c) hst hwaiting _
    exact ⟨(hreserved.trans hgranted).trans hdrifts, hqueued⟩

theorem Queued.releaseLaneWaiters (h : s.Queued) : Drifts s s.releaseLaneWaiters ∧ s.releaseLaneWaiters.Queued :=
  releaseWaiters_spec s.laneWaiters ⟨h.nodup, h.waiting⟩

theorem Queued.releaseChannelReservation (h : s.Queued) (c : Nat) :
    Drifts s (s.releaseChannelReservation c) ∧ (s.releaseChannelReservation c).Queued := by
  unfold PageClient.releaseChannelReservation
  split
  · obtain ⟨hdrifts, hqueued⟩ := (h.congr (t := s.setLoad c (s.load c - 1)) rfl rfl).releaseLaneWaiters
    exact ⟨(drifts_setLoad ..).trans hdrifts, hqueued⟩
  · exact h.releaseLaneWaiters

/-! ### Opening lanes -/

structure Relanes (s t : PageClient) : Prop where
  drifts : Drifts s t
  nextRequestId : t.nextRequestId = s.nextRequestId
  starts : t.starts = s.starts
  laneWaiters : t.laneWaiters = s.laneWaiters

theorem Relanes.trans (h : Relanes s t) (h' : Relanes t u) : Relanes s u :=
  ⟨h.drifts.trans h'.drifts, h'.nextRequestId.trans h.nextRequestId, h'.starts.trans h.starts,
    h'.laneWaiters.trans h.laneWaiters⟩

theorem Relanes.queued (h : Relanes s t) (hq : s.Queued) : t.Queued := hq.congr h.laneWaiters h.starts

theorem relanes_dropLanes : ∀ (cs seen : List Nat) (s : PageClient), Relanes s (s.dropLanes seen cs)
  | [], _, s => ⟨.refl s, rfl, rfl, rfl⟩
  | c :: cs, seen, s => by
    unfold dropLanes
    split
    · exact Relanes.trans ⟨drifts_removeChannel s c, rfl, rfl, rfl⟩ (relanes_dropLanes cs seen _)
    split
    · exact Relanes.trans ⟨(drifts_removeChannel s c).trans (drifts_closeChannel _ c), rfl, rfl, rfl⟩
        (relanes_dropLanes cs seen _)
    · exact relanes_dropLanes cs _ s

theorem relanes_createChannel (s : PageClient) (label : Nat) : Relanes s (s.createChannel label) :=
  ⟨.of_lanes rfl, rfl, rfl, rfl⟩

theorem relanes_ensureLane (s : PageClient) (label : Nat) : Relanes s (s.ensureLane label) := by
  unfold ensureLane
  split
  · rename_i c _
    split
    · exact ⟨.refl s, rfl, rfl, rfl⟩
    · exact Relanes.trans ⟨(drifts_removeChannel s c).trans (drifts_closeChannel _ c), rfl, rfl, rfl⟩
        (relanes_createChannel _ label)
  · exact relanes_createChannel s label

theorem relanes_ensureBulkChannels (s : PageClient) : Relanes s s.ensureBulkChannels := by
  unfold ensureBulkChannels
  split
  · exact ⟨.refl s, rfl, rfl, rfl⟩
  have htimer : Relanes s { s with bulkIdleTimer := false } := ⟨.of_lanes rfl, rfl, rfl, rfl⟩
  have hdropped := htimer.trans (relanes_dropLanes s.channels.tail [] _)
  have hensured := ((hdropped.trans (relanes_ensureLane _ 1)).trans (relanes_ensureLane _ 2)).trans (relanes_ensureLane _ 3)
  exact hensured.trans ⟨.of_lanes rfl, rfl, rfl, rfl⟩

end PageClient
end YuriRtc
