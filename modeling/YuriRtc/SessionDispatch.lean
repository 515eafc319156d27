import YuriRtc.SessionSteps
/-!
# SessionDispatch — what the four pending queues hold

`begin` puts every request it admits at the end of its class's queue and compares `len(s.requests)` with the limit.  A
request that is cancelled or answered leaves `requests` at once, but its queue entry stays until `nextPendingLocked` drops
it from the front of the queue, and that function does not look into a class whose handlers are all busy.  So the queues
are bounded by the limit only as long as the requests that are gone and still queued are counted too
(`pendingEntries_le_limit`); with three slow handlers a peer makes them as long as it likes (`queues_grow_without_bound`).
-/
namespace YuriRtc

open Function (update update_eq_self update_of_ne update_self)
open Steps (run run_cons)
namespace PeerSession

def retained (s : PeerSession) : List Ref :=
  s.pending .interactive ++ (s.pending .critical ++ (s.pending .normal ++ s.pending .bulk))

/-- The sum of `len(pending[p])`. -/
def pendingEntries (s : PeerSession) : Nat :=
  (s.pending .interactive).length + (s.pending .critical).length + (s.pending .normal).length + (s.pending .bulk).length

/-- The entries whose request is not in `requests` any more. -/
def abandoned (s : PeerSession) : List Ref := s.retained.filter (fun r => !s.isLive r)

theorem retained_length (s : PeerSession) : s.retained.length = s.pendingEntries := by
  simp only [retained, pendingEntries, List.length_append]
  omega

/-- **A queue holds admitted requests of its class, each once.** -/
structure QueuesInOrder (s : PeerSession) : Prop where
  live : ∀ id r, s.requests.lookup id = some r → r < s.next ∧ (s.states r).id = id
  queued : ∀ p, ∀ r ∈ s.pending p, r < s.next ∧ (s.states r).priority = p
  nodup : ∀ p, (s.pending p).Nodup

variable {s t : PeerSession}

namespace QueuesInOrder

theorem retained_nodup (h : QueuesInOrder s) : s.retained.Nodup := by
  have hapart : ∀ p q, p ≠ q → ∀ r ∈ s.pending p, r ∉ s.pending q := fun p q hpq r hp hq =>
    hpq ((h.queued p r hp).2.symm.trans (h.queued q r hq).2)
  unfold retained
  rw [List.nodup_append', List.nodup_append', List.nodup_append']
  refine ⟨h.nodup _, ⟨h.nodup _, ⟨h.nodup _, h.nodup _, ?_⟩, ?_⟩, ?_⟩
  · exact fun r hr => hapart _ _ (by decide) r hr
  · intro r hr hmem
    grind
  · intro r hr hmem
    grind

theorem pendingEntries_le (h : QueuesInOrder s) :
    s.pendingEntries ≤ s.requests.entries.length + s.abandoned.length := by
  have hlive : s.retained.filter s.isLive ⊆ s.liveRefs := by
    intro r hr
    obtain ⟨-, hr⟩ := List.mem_filter.1 hr
    have hlookup : s.requests.lookup (s.states r).id = some r := by simpa [isLive] using hr
    exact List.mem_map.2 ⟨⟨_, r⟩, (Assoc.mem_entries_iff_lookup _ _ _).2 hlookup, rfl⟩
  have hle := (List.subperm_of_subset (h.retained_nodup.filter _) hlive).length_le
  have hsplit := List.length_eq_length_filter_add (l := s.retained) s.isLive
  simp_all [retained_length, liveRefs, List.length_map, abandoned]

theorem carries (h : QueuesInOrder s) (hc : Carries s t) : QueuesInOrder t where
  live id r hr := by
    obtain ⟨hlt, hid⟩ := h.live id r (hc.requests id r hr)
    exact ⟨hc.next ▸ hlt, (hc.moves r).same.id.trans hid⟩
  queued p r hr := by
    obtain ⟨hlt, hp⟩ := h.queued p r ((hc.pending p).subset hr)
    exact ⟨hc.next ▸ hlt, (hc.moves r).same.priority.trans hp⟩
  nodup p := (h.nodup p).sublist (hc.pending p)

theorem admitted (h : QueuesInOrder s) (env : Env) (lane id : Nat) (head : RequestHead) :
    QueuesInOrder (s.admitted env lane id head) where
  live id' r hr := by
    change (s.requests.insert id s.next).lookup id' = some r at hr
    by_cases hid : id' = id
    · rw [hid, AList.lookup_insert] at hr
      cases hr
      refine ⟨Nat.lt_succ_self _, ?_⟩
      rw [hid]
      show (update s.states s.next _ s.next).id = id
      rw [update_self]
      rfl
    · rw [AList.lookup_insert_ne hid] at hr
      obtain ⟨hlt, hr⟩ := h.live id' r hr
      exact ⟨Nat.lt_succ_of_lt hlt, by rw [admitted_states_of_lt _ _ _ _ _ hlt, hr]⟩
  queued p r hr := by
    change r ∈ update s.pending (priorityClass head.priority) _ p at hr
    have hold : r ∈ s.pending p → r < s.next + 1 ∧ ((s.admitted env lane id head).states r).priority = p := fun hr => by
      obtain ⟨hlt, hp⟩ := h.queued p r hr
      exact ⟨Nat.lt_succ_of_lt hlt, by rw [admitted_states_of_lt _ _ _ _ _ hlt, hp]⟩
    by_cases hp : p = priorityClass head.priority
    · rw [hp, update_self] at hr
      rcases List.mem_append.1 hr with hr | hr
      · exact hold (hp ▸ hr)
      rw [List.mem_singleton.1 hr]
      refine ⟨Nat.lt_succ_self _, ?_⟩
      show (update s.states s.next _ s.next).priority = p
      rw [update_self, hp]
      rfl
    · rw [update_of_ne hp] at hr
      exact hold hr
  nodup p := by
    show (update s.pending (priorityClass head.priority) _ p).Nodup
    by_cases hp : p = priorityClass head.priority
    · rw [hp, update_self, List.nodup_append']
      refine ⟨h.nodup _, List.nodup_singleton _, fun r hr hmem => ?_⟩
      rw [List.mem_singleton.1 hmem] at hr
      exact lt_irrefl _ (h.queued _ _ hr).1
    · rw [update_of_ne hp]
      exact h.nodup p

end QueuesInOrder

theorem pendingEntries_of_carries (h : Carries s t) : t.pendingEntries ≤ s.pendingEntries := by
  have hle : ∀ p, (t.pending p).length ≤ (s.pending p).length := fun p => (h.pending p).length_le
  grind [pendingEntries]

theorem pendingEntries_admitted (s : PeerSession) (env : Env) (lane id : Nat) (head : RequestHead) :
    (s.admitted env lane id head).pendingEntries = s.pendingEntries + 1 := by
  unfold pendingEntries admitted
  dsimp only
  cases priorityClass head.priority <;> simp [update] <;> omega

/-- **A request is admitted only while the requests the peer has, and the queue entries of those it had, stay under the
limit.** -/
def AdmitsWithinLimit (s : PeerSession) : SessionEvent → Prop
  | .receive lane (.req id size (some head)) env =>
    size ≤ maxRequestHeadBytes → validateRequestHead head = none → Admits s env lane id head →
      s.requests.entries.length + s.abandoned.length < maxAdmittedRequestsPerPeer
  | _ => True

instance decidableAdmitsWithinLimit (s : PeerSession) (e : SessionEvent) : Decidable (AdmitsWithinLimit s e) := by
  unfold AdmitsWithinLimit
  split <;> infer_instance

theorem step_keeps_limit {e : SessionEvent}
    (h : QueuesInOrder s ∧ s.pendingEntries ≤ maxAdmittedRequestsPerPeer) (hok : AdmitsWithinLimit s e)
    (hs : s.step e = some t) : QueuesInOrder t ∧ t.pendingEntries ≤ maxAdmittedRequestsPerPeer := by
  rcases step_carries_or_admits hs with hc | ⟨lane, id, size, head, env, rfl, hsize, hvalid, hadmits, rx, rfl⟩
  · exact ⟨h.1.carries hc, le_trans (pendingEntries_of_carries hc) h.2⟩
  have hadmitted := h.1.admitted env lane id head
  have hle := h.1.pendingEntries_le
  have hbelow := hok hsize hvalid hadmits
  refine ⟨{ hadmitted with }, ?_⟩
  show (s.admitted env lane id head).pendingEntries ≤ _
  rw [pendingEntries_admitted]
  omega

/-- **The pending queues of a peer hold at most as many entries as it may have requests**, in every run whose admissions
also count the entries of requests that are gone. -/
theorem pendingEntries_le_limit (es : List SessionEvent) (t : PeerSession)
    (hok : Steps.Meets step AdmitsWithinLimit newPeerSession es) (hrun : run step newPeerSession es = some t) :
    t.pendingEntries ≤ maxAdmittedRequestsPerPeer :=
  (Steps.run_inv_when step AdmitsWithinLimit
    (fun s => QueuesInOrder s ∧ s.pendingEntries ≤ maxAdmittedRequestsPerPeer)
    (fun _ _ _ hi hok hs => step_keeps_limit hi hok hs) es newPeerSession t
    ⟨⟨fun _ _ h => (by cases h), fun _ _ h => (by cases h), fun _ => .nil⟩, by decide⟩ hok hrun).2

/-- A `GET` of class 3, as the loader sends for an asset. -/
def bulkHead : RequestHead := ⟨protocolVersion, ['G', 'E', 'T'], ['/'], false, 3, 1⟩

def sendAndCancel (id : Nat) : List SessionEvent :=
  [.receive 0 (.req id 0 (some bulkHead)) {}, .dispatch, .receive 0 (.cancel id) {},
    .laneGoesOn 0 {}, .laneGoesOn 0 {}, .laneGoesOn 0 {}]

def threeStarted : List SessionEvent :=
  .attach :: [1, 2, 3].flatMap (fun id => [.receive 0 (.req id 0 (some bulkHead)) {}, .dispatch, .startPicked])

theorem pendingEntries_le_limit_oneCancelled :
    ∃ t, run step newPeerSession (threeStarted ++ sendAndCancel 4) = some t ∧ t.pendingEntries = 2 ∧
      t.pendingEntries ≤ maxAdmittedRequestsPerPeer := by
  have hok : Steps.Meets step AdmitsWithinLimit newPeerSession (threeStarted ++ sendAndCancel 4) := by decide +kernel
  obtain ⟨t, hrun, ht⟩ : ∃ t, run step newPeerSession (threeStarted ++ sendAndCancel 4) = some t ∧ t.pendingEntries = 2 :=
    Steps.exists_run (by decide +kernel)
  exact ⟨t, hrun, ht, pendingEntries_le_limit _ t hok hrun⟩

/-! ### Growth -/

theorem nextPendingLocked_busy (hbusy : maxActiveNonInteractivePerPeer ≤ s.activeNonInteractive)
    (hnone : s.pending .interactive = []) : s.nextPendingLocked = (s, none) := by
  have hsame : { s with pending := update s.pending .interactive [] } = s := by
    rw [← hnone, update_eq_self]
  unfold nextPendingLocked
  split
  · rfl
  · simp [nextPendingIn, hbusy, hnone, hsame]

/-- **Three handlers of the lower classes are running**, nothing goes on on lane 0, and ids from `n` on are new. -/
structure Busy (s : PeerSession) (n : Nat) : Prop where
  notClosed : s.closed = false
  onLane : 0 ∈ s.lanes
  idle : s.rx 0 = []
  notPicked : s.picked = none
  busy : maxActiveNonInteractivePerPeer ≤ s.activeNonInteractive
  interactive : s.pending .interactive = []
  fresh : ∀ id, n ≤ id → s.requests.lookup id = none
  few : s.requests.entries.length < maxAdmittedRequestsPerPeer
  noTombstones : s.rejectedBodies = ∅

theorem Busy.admits {n : Nat} (h : Busy s n) : Admits s {} 0 n bulkHead where
  notClosed := h.notClosed
  onLane := h.onLane
  notLive := h.fresh n le_rfl
  notDraining := by
    show (Assoc.keep _ s.rejectedBodies).lookup n = none
    rw [h.noTombstones]
    rfl
  belowLimit := h.few
  bodies hb := by cases hb
  admissionToken := rfl
  bodyFrames hb := by cases hb

theorem cancel_run (s : PeerSession) (id : Nat) (r : Ref) (honLane : 0 ∈ s.lanes) (hidle : s.rx 0 = [])
    (hlive : s.requests.lookup id = some r) (hlane : (s.states r).lane = 0) (hbody : (s.states r).hasBody = false) :
    run step s [.receive 0 (.cancel id) {}, .laneGoesOn 0 {}, .laneGoesOn 0 {}, .laneGoesOn 0 {}] =
      some { s.modify r RequestState.cancelContext with requests := s.requests.erase id } := by
  have hreceive : s.step (.receive 0 (.cancel id) {}) =
      some { s with rx := update s.rx 0 [.snapshot id r] } := by
    simp [step, onMessage, requestOnLane, hidle, honLane, hlive, hlane]
  have hsnapshot : step { s with rx := update s.rx 0 [.snapshot id r] } (.laneGoesOn 0 {}) =
      some { s with rx := update s.rx 0 [.cancelState id r false false] } := by
    simp [step, goOn, exec, RequestState.hasUnfinishedRequestBody, hbody]
  have hremove : step { s with rx := update s.rx 0 [.cancelState id r false false] } (.laneGoesOn 0 {}) =
      some { s with requests := s.requests.erase id, rx := update s.rx 0 [.cancelContext r] } := by
    simp [step, goOn, exec, removeRequest, hlive, hbody]
  have hsame : update s.rx 0 [] = s.rx := by rw [← hidle, update_eq_self]
  have hcontext : step { s with requests := s.requests.erase id, rx := update s.rx 0 [.cancelContext r] }
      (.laneGoesOn 0 {}) = some { s.modify r RequestState.cancelContext with requests := s.requests.erase id } := by
    simp [step, goOn, exec, modify, hbody, hsame]
  simp_all [run_cons, Steps.run_nil]

theorem Busy.sendAndCancel_run {n : Nat} (h : Busy s n) :
    ∃ t, run step s (sendAndCancel n) = some t ∧ Busy t (n + 1) ∧ t.pendingEntries = s.pendingEntries + 1 := by
  have hbegin : s.begin {} 0 n bulkHead = (s.admitted {} 0 n bulkHead, []) := by
    rcases begin_cases s {} 0 n bulkHead with ⟨-, hbegin⟩ | ⟨hnot, -⟩
    · exact hbegin
    · exact absurd h.admits hnot
  have hadmission : s.step (.receive 0 (.req n 0 (some bulkHead)) {}) =
      some { s.admitted {} 0 n bulkHead with rx := update s.rx 0 [] } := by
    have hmessage : s.onMessage {} 0 (.req n 0 (some bulkHead)) = (s.admitted {} 0 n bulkHead, []) := hbegin
    simp only [step, h.idle, h.onLane, hmessage, true_or, and_self, if_true]
    rfl
  obtain ⟨s1, hs1⟩ : ∃ s1, s1 = { s.admitted {} 0 n bulkHead with rx := update s.rx 0 [] } := ⟨_, rfl⟩
  have hidle : s1.rx 0 = [] := by simp [hs1]
  have hrequests : s1.requests = s.requests.insert n s.next := by rw [hs1]; rfl
  have hstate : s1.states s.next = .newRequestState n 0 bulkHead := by
    rw [hs1]
    exact update_self s.next (RequestState.newRequestState n 0 bulkHead) s.states
  have hinteractive : s1.pending .interactive = [] := by
    rw [hs1]
    show update s.pending .bulk (s.pending .bulk ++ [s.next]) .interactive = []
    rw [update_of_ne (by decide), h.interactive]
  have htombstones : s1.rejectedBodies = ∅ := by
    rw [hs1]
    show Assoc.keep (fun t => decide (0 < t.expires)) s.rejectedBodies = ∅
    rw [h.noTombstones]
    rfl
  have hbusy : maxActiveNonInteractivePerPeer ≤ s1.activeNonInteractive := by rw [hs1]; exact h.busy
  have hlane : 0 ∈ s1.lanes := by rw [hs1]; exact h.onLane
  have hopen : s1.closed = false := by rw [hs1]; exact h.notClosed
  have hentries : s1.pendingEntries = s.pendingEntries + 1 := by
    rw [hs1]
    exact pendingEntries_admitted s {} 0 n bulkHead
  have hdispatch : s1.step .dispatch = some { s1 with picked := none } := by
    have hpicked : s1.picked = none := by rw [hs1]; exact h.notPicked
    simp [step, hpicked, hopen, nextPendingLocked_busy hbusy hinteractive]
  have hcancel := cancel_run { s1 with picked := none } n s.next hlane hidle
    (by rw [hrequests]; exact AList.lookup_insert _) (by rw [hstate]; rfl) (by rw [hstate]; rfl)
  rw [← hs1] at hadmission
  refine ⟨_, (run_cons step hadmission _).trans ((run_cons step hdispatch _).trans hcancel),
    ⟨hopen, hlane, hidle, rfl, hbusy, hinteractive, fun id hid => ?_, ?_, htombstones⟩, hentries⟩
  · show (s1.requests.erase n).lookup id = none
    rw [hrequests, AList.lookup_erase_ne (by omega), AList.lookup_insert_ne (by omega), h.fresh id (by omega)]
  show (s1.requests.erase n).entries.length < _
  rw [hrequests, Assoc.erase_insert (h.fresh n le_rfl)]
  exact h.few

def flood : Nat → List SessionEvent
  | 0 => threeStarted
  | n + 1 => flood n ++ sendAndCancel (n + 4)

/-- **The queues grow without bound** behind three handlers that take their time: `n` requests sent and cancelled leave
`n` entries. -/
theorem queues_grow_without_bound : ∀ n, ∃ t, run step newPeerSession (flood n) = some t ∧ Busy t (n + 4) ∧
    n ≤ t.pendingEntries
  | 0 => by
    have hends : (run step newPeerSession threeStarted).map (fun t => (t.closed, t.lanes, t.rx 0, t.picked,
        t.activeNonInteractive, t.pending .interactive, t.requests.entries, t.rejectedBodies.entries)) =
        some (false, [0], [], none, 3, [], [⟨3, 2⟩, ⟨2, 1⟩, ⟨1, 0⟩], []) := by rfl
    obtain ⟨t, hrun, ht⟩ := Option.map_eq_some_iff.1 hends
    simp only [Prod.mk.injEq] at ht
    obtain ⟨hclosed, hlanes, hidle, hpicked, hactive, hinteractive, hrequests, htombstones⟩ := ht
    refine ⟨t, hrun, ⟨hclosed, by rw [hlanes]; decide, hidle, hpicked, by rw [hactive]; decide, hinteractive,
      fun id hid => ?_, by rw [hrequests]; decide, AList.ext htombstones⟩, Nat.zero_le _⟩
    have hkeys : id ∉ t.requests.entries.map Sigma.fst := by grind
    exact AList.lookup_eq_none.2 hkeys
  | n + 1 => by
    obtain ⟨t, hrun, hbusy, hle⟩ := queues_grow_without_bound n
    obtain ⟨u, hsend, hbusy', hentries⟩ := hbusy.sendAndCancel_run
    exact ⟨u, Steps.run_trans hrun hsend, hbusy', by omega⟩

theorem queues_exceed_limit : ∃ t, run step newPeerSession (flood (maxAdmittedRequestsPerPeer + 1)) = some t ∧
    maxAdmittedRequestsPerPeer < t.pendingEntries := by
  obtain ⟨t, hrun, -, hle⟩ := queues_grow_without_bound (maxAdmittedRequestsPerPeer + 1)
  exact ⟨t, hrun, hle⟩

end PeerSession
end YuriRtc
