import YuriRtc.LaneWaiting
import YuriRtc.PageBooks
import YuriRtc.PageIds
/-!
# PageLoads — a lane's load is what it carries and what has been promised on it

`channelLoads` goes up when a request takes a lane or a waiter is given one, and down in `finish` and when a start that was
given one turns out to be cancelled; lanes come and go with their entries.  Between events the load of a lane is the number of
its requests and of the starts that have been given it and have not gone on yet; of those that want a lane to themselves there
is at most one.  In the middle of an event this holds without the start `y` that is running and with a reservation `owed`
whose holder is gone.
-/
namespace YuriRtc

open Assoc (lookup_erase_eq lookup_insert_eq tally tally_congr tally_eq_zero tally_erase tally_insert_new)
open Steps (of_guard run)
namespace PageClient

variable {c id n : Nat} {st : PageStart} {entry : InboundRequest}

variable {s t : PageClient} {y owed : Option Nat}

def carried (s : PageClient) (c : Nat) : Nat := tally (fun _ entry => decide (entry.channel = c)) s.maps.inbound

def carriesConstrained (s : PageClient) (c : Nat) : Nat :=
  tally (fun _ entry => decide (entry.channel = c) && entry.constrained) s.maps.inbound

def grants (s : PageClient) (c : Nat) : Nat := tally (fun _ st => decide (st.phase = .granted (some c))) s.starts

def grantsBut (s : PageClient) (y : Option Nat) (c : Nat) : Nat :=
  tally (fun n st => decide (y ≠ some n) && decide (st.phase = .granted (some c))) s.starts

theorem grantsBut_none (s : PageClient) (c : Nat) : s.grantsBut none c = s.grants c := tally_congr fun _ _ _ => rfl

theorem carriesConstrained_le (s : PageClient) (c : Nat) : s.carriesConstrained c ≤ s.carried c :=
  Assoc.tally_le fun _ _ _ h => (Bool.and_eq_true_iff.1 h).1

def weight (y : Option Nat) (c n : Nat) (st : PageStart) : Nat :=
  (decide (y ≠ some n) && decide (st.phase = .granted (some c))).toNat

theorem weight_of_ne (h : st.phase ≠ .granted (some c)) : weight y c n st = 0 := by
  grind [weight]

theorem weight_self (n c : Nat) (st : PageStart) : weight (some n) c n st = 0 := by simp [weight]

theorem weight_granted (hy : y ≠ some n) (c' : Nat) (h : st.phase = .granted (some c)) :
    weight y c' n st = if c' = c then 1 else 0 := by
  rw [weight, decide_eq_true hy, Bool.true_and, h]
  by_cases hc : c' = c
  · simp [hc]
  rw [if_neg hc, decide_eq_false]
  · rfl
  · grind

theorem grantsBut_modify (hst : s.starts.lookup n = some st) (f : PageStart → PageStart)
    (y : Option Nat) (c : Nat) : weight y c n st + (s.modifyStart n f).grantsBut y c = weight y c n (f st) + s.grantsBut y c := by
  rw [modifyStart, hst]
  exact Assoc.tally_set (p := fun n (st : PageStart) => decide (y ≠ some n) && decide (st.phase = .granted (some c))) hst (f st)

variable {f : PageStart → PageStart}

theorem grantsBut_modifyStart
    (hf : ∀ st, s.starts.lookup n = some st → weight y c n (f st) = weight y c n st) :
    (s.modifyStart n f).grantsBut y c = s.grantsBut y c := by
  cases hst : s.starts.lookup n with
  | none => rw [modifyStart, hst]
  | some st =>
    have hset := grantsBut_modify hst f y c
    simp_all

theorem modifyStart_lanes (s : PageClient) (n : Nat) (f : PageStart → PageStart) :
    (s.modifyStart n f).channels = s.channels ∧ (s.modifyStart n f).nextChannel = s.nextChannel ∧
      (s.modifyStart n f).channelLoads = s.channelLoads ∧ (s.modifyStart n f).maps = s.maps ∧
      (s.modifyStart n f).nextStart = s.nextStart := by grind [modifyStart]

theorem grantsBut_run (hst : s.starts.lookup n = some st) (c : Nat) :
    s.grants c = s.grantsBut (some n) c + weight none c n st := by
  have hout : s.grants c = weight none c n st + tally (fun _ st => decide (st.phase = .granted (some c))) (s.starts.erase n) :=
    tally_erase hst
  have hin : s.grantsBut (some n) c = weight (some n) c n st + tally
      (fun m st => decide (some n ≠ some m) && decide (st.phase = .granted (some c))) (s.starts.erase n) := tally_erase hst
  have hrest : tally (fun m st => decide (some n ≠ some m) && decide (st.phase = .granted (some c))) (s.starts.erase n) =
      tally (fun _ st => decide (st.phase = .granted (some c))) (s.starts.erase n) := by
    refine tally_congr fun m st hm => ?_
    grind [lookup_erase_eq]
  grind [weight_self]

theorem grantsBut_absent (hn : s.starts.lookup n = none) (c : Nat) : s.grantsBut (some n) c = s.grants c := by
  refine tally_congr fun m st hst => ?_
  grind

/-! ### The balance -/

structure Balanced (y owed : Option Nat) (s : PageClient) : Prop where
  lanes : ∀ c ∈ s.channels, c < s.nextChannel
  keys : ∀ c, (s.channelLoads.lookup c).isSome = true → c ∈ s.channels
  carriers : ∀ id entry, s.maps.inbound.lookup id = some entry → entry.channel < s.nextChannel
  numbered : ∀ n st, s.starts.lookup n = some st → n < s.nextStart
  granted : ∀ n st c, s.starts.lookup n = some st → st.phase = .granted (some c) → c < s.nextChannel
  balance : ∀ c ∈ s.channels, s.load c = s.carried c + s.grantsBut y c + if owed = some c then 1 else 0
  single : ∀ c, s.carriesConstrained c + s.grantsBut y c ≤ 1

theorem Balanced.congr (h : s.Balanced y owed) (hchannels : t.channels = s.channels) (hnext : t.nextChannel = s.nextChannel)
    (hloads : t.channelLoads = s.channelLoads) (hin : t.maps.inbound = s.maps.inbound) (hstarts : t.starts = s.starts)
    (hnumber : t.nextStart = s.nextStart) : t.Balanced y owed where
  lanes := by rw [hchannels, hnext]; exact h.lanes
  keys := by rw [hchannels, hloads]; exact h.keys
  carriers := by rw [hin, hnext]; exact h.carriers
  numbered := by rw [hstarts, hnumber]; exact h.numbered
  granted := by rw [hstarts, hnext]; exact h.granted
  balance c hc := by
    unfold load carried grantsBut
    rw [hloads, hin, hstarts]
    exact h.balance c (hchannels ▸ hc)
  single c := by
    unfold carriesConstrained grantsBut
    rw [hin, hstarts]
    exact h.single c

theorem modifyStart_numbered (h : ∀ n st, s.starts.lookup n = some st → n < s.nextStart) :
    ∀ m st, (s.modifyStart n f).starts.lookup m = some st → m < s.nextStart := by
  intro m st hst
  rw [lookup_modifyStart] at hst
  split at hst
  · rename_i hm
    obtain ⟨st', hst', -⟩ := Option.map_eq_some_iff.1 hst
    exact h m st' (hm ▸ hst')
  · exact h m st hst

theorem Balanced.modifyStart (h : s.Balanced y owed)
    (hweight : ∀ st c, s.starts.lookup n = some st → weight y c n (f st) = weight y c n st)
    (hgranted : ∀ st c, s.starts.lookup n = some st → (f st).phase = .granted (some c) → c < s.nextChannel) :
    (s.modifyStart n f).Balanced y owed := by
  have hgrants : ∀ c, (s.modifyStart n f).grantsBut y c = s.grantsBut y c := fun c =>
    grantsBut_modifyStart fun st hst => hweight st c hst
  have hlookup := lookup_modifyStart s n f
  obtain ⟨hchannels, hnext, hloads, hmaps, hnumber⟩ := modifyStart_lanes s n f
  refine ⟨by rw [hchannels, hnext]; exact h.lanes, by rw [hchannels, hloads]; exact h.keys, by rw [hmaps, hnext]; exact h.carriers,
    fun m st hst => hnumber ▸ modifyStart_numbered h.numbered m st hst, fun m st c hst hphase => ?_, fun c hc => ?_, fun c => ?_⟩
  · rw [hnext]
    rw [hlookup] at hst
    split at hst
    · obtain ⟨st', hst', rfl⟩ := Option.map_eq_some_iff.1 hst
      exact hgranted st' c hst' hphase
    · exact h.granted m st c hst hphase
  · unfold load carried
    rw [hloads, hmaps, hgrants]
    exact h.balance c (hchannels ▸ hc)
  unfold carriesConstrained
  rw [hmaps, hgrants]
  exact h.single c

theorem chooseChannel_mem {head : PageHead} (h : s.chooseChannel head = some c) : c ∈ s.channels := by
  obtain ⟨lane, hlane, rfl⟩ := Option.map_eq_some_iff.1 h
  obtain ⟨c, hc, rfl⟩ := List.mem_map.1 (LaneScheduler.chooseChannel_mem hlane).1
  exact hc

theorem load_setLoad (s : PageClient) (c v c' : Nat) : (s.setLoad c v).load c' = if c' = c then v else s.load c' := by
  unfold load setLoad
  rw [lookup_insert_eq]
  split <;> rfl

theorem keys_setLoad (h : ∀ c, (s.channelLoads.lookup c).isSome = true → c ∈ s.channels) (hc : c ∈ s.channels) (v : Nat) :
    ∀ c', ((s.setLoad c v).channelLoads.lookup c').isSome = true → c' ∈ s.channels := by
  intro c' hc'
  change ((s.channelLoads.insert c v).lookup c').isSome = true at hc'
  grind [lookup_insert_eq]

theorem Balanced.reserve (h : s.Balanced y none) (hc : c ∈ s.channels) : (s.reserve c).Balanced y (some c) :=
  { h with
    keys := keys_setLoad h.keys hc _
    balance := fun c' hc' => by
      show (s.setLoad c (s.load c + 1)).load c' = s.carried c' + s.grantsBut y c' + _
      have hbalance := h.balance c' hc'
      grind [load_setLoad] }

theorem Balanced.grant (h : s.Balanced y none) (hst : s.starts.lookup n = some st)
    (hwaiting : st.phase = .waiting) (hy : y ≠ some n) (hc : c ∈ s.channels) (hfree : ¬ 1 ≤ s.load c) :
    ((s.reserve c).setPhase n (.granted (some c))).Balanced y none := by
  have hreserved := h.reserve hc
  have hlookup := lookup_modifyStart (s.reserve c) n fun st => { st with phase := .granted (some c) }
  have hgrants : ∀ c', ((s.reserve c).setPhase n (.granted (some c))).grantsBut y c' =
      (if c' = c then 1 else 0) + s.grantsBut y c' := fun c' => by
    have hset := grantsBut_modify (s := s.reserve c) hst (fun st => { st with phase := .granted (some c) }) y c'
    rw [weight_of_ne (by rw [hwaiting]; exact fun hc => by cases hc), weight_granted hy c' rfl, Nat.zero_add] at hset
    exact hset
  obtain ⟨hchannels, hnext, hloads, hmaps, hnumber⟩ :=
    modifyStart_lanes (s.reserve c) n fun st => { st with phase := .granted (some c) }
  rw [← setPhase] at hchannels hnext hloads hmaps hnumber hlookup
  refine ⟨by rw [hchannels, hnext]; exact h.lanes, by rw [hchannels, hloads]; exact hreserved.keys,
    by rw [hmaps, hnext]; exact h.carriers,
    fun m st' hst' => hnumber ▸ modifyStart_numbered (s := s.reserve c) h.numbered m st' hst',
    fun m st' c' hst' hphase => ?_, fun c' hc' => ?_, fun c' => ?_⟩
  · rw [hnext]
    rw [hlookup] at hst'
    split at hst'
    · obtain ⟨_, _, rfl⟩ := Option.map_eq_some_iff.1 hst'
      cases hphase
      exact h.lanes c hc
    · exact h.granted m st' c' hst' hphase
  · have hbalance : (s.reserve c).load c' = s.carried c' + s.grantsBut y c' + if some c = some c' then 1 else 0 :=
      hreserved.balance c' (hchannels ▸ hc')
    unfold load carried at hbalance ⊢
    rw [hloads, hmaps, hgrants, hbalance]
    by_cases hcc : c' = c
    · rw [if_pos hcc, if_pos (congrArg some hcc.symm), if_neg (fun hc => by cases hc)]
      show _ = tally _ s.maps.inbound + _ + 0
      omega
    · rw [if_neg hcc, if_neg (fun hc => hcc (Option.some.inj hc).symm), if_neg (fun hc => by cases hc), Nat.zero_add]
      rfl
  · have hsame : ((s.reserve c).setPhase n (.granted (some c))).carriesConstrained c' = s.carriesConstrained c' := by
      unfold carriesConstrained
      rw [hmaps]
      rfl
    rw [hgrants, hsame]
    by_cases hcc : c' = c
    · subst hcc
      have hbalance := h.balance c' hc
      have hle := s.carriesConstrained_le c'
      rw [if_pos rfl]
      omega
    · rw [if_neg hcc, Nat.zero_add]
      exact h.single c'

theorem releaseWaiters_balanced : ∀ (ws : List Nat) {s : PageClient}, s.QueuedFrom ws → (∀ n ∈ ws, y ≠ some n) → s.Balanced y none →
    (s.releaseWaiters ws).Balanced y none ∧ (s.releaseWaiters ws).laneWaiters ⊆ ws
  | [], s, _, _, h => ⟨h.congr rfl rfl rfl rfl rfl rfl, List.Subset.refl _⟩
  | n :: ws, s, hq, hy, h => by
    have hstays : Balanced y none { s with laneWaiters := n :: ws } := h.congr rfl rfl rfl rfl rfl rfl
    obtain ⟨st, hst, hwaiting⟩ := hq.waiting n List.mem_cons_self
    have hy' : ∀ m ∈ ws, y ≠ some m := fun m hm => hy m (List.mem_cons_of_mem _ hm)
    unfold PageClient.releaseWaiters
    simp only [hst]
    split
    · have hnone : (s.setPhase n (.granted none)).Balanced y none := by
        refine h.modifyStart (fun st' c hst' => ?_) (fun st' c _ hphase => by cases hphase)
        rw [hst] at hst'
        cases hst'
        rw [weight_of_ne (fun hc => by cases hc), weight_of_ne (by rw [hwaiting]; exact fun hc => by cases hc)]
      obtain ⟨hbalanced, hsub⟩ := releaseWaiters_balanced ws (hq.tail _ fun _ => rfl) hy' hnone
      exact ⟨hbalanced, List.subset_cons_of_subset n hsub⟩
    · split
      · exact ⟨hstays, List.Subset.refl _⟩
      rename_i c hchosen
      split
      · exact ⟨hstays, List.Subset.refl _⟩
      rename_i hfree
      obtain ⟨hbalanced, hsub⟩ := releaseWaiters_balanced ws
        (hq.tail (t := (s.reserve c).setPhase n (.granted (some c))) (fun st => { st with phase := .granted (some c) })
          fun m => by
            rw [lookup_modifyStart]
            exact lookup_modifyStart ..)
        hy' (h.grant hst hwaiting (hy n List.mem_cons_self) (chooseChannel_mem hchosen) hfree)
      exact ⟨hbalanced, List.subset_cons_of_subset n hsub⟩

structure Loaded (y : Option Nat) (s : PageClient) : Prop where
  balanced : s.Balanced y none
  queued : s.Queued
  running : ∀ n, y = some n → n ∉ s.laneWaiters

theorem Loaded.congr (h : s.Loaded y)
    (hsame : (t.channels, t.nextChannel, t.channelLoads, t.maps.inbound, t.starts, t.nextStart, t.laneWaiters) =
      (s.channels, s.nextChannel, s.channelLoads, s.maps.inbound, s.starts, s.nextStart, s.laneWaiters)) : t.Loaded y := by
  simp only [Prod.mk.injEq] at hsame
  obtain ⟨hchannels, hnext, hloads, hin, hstarts, hnumber, hwaiters⟩ := hsame
  exact ⟨h.balanced.congr hchannels hnext hloads hin hstarts hnumber, h.queued.congr hwaiters hstarts,
    by rw [hwaiters]; exact h.running⟩

theorem Loaded.post (h : s.Loaded y) (m : PagePost) : (s.post m).Loaded y := by
  rw [post_eq]
  exact h.congr rfl

theorem Loaded.releaseLaneWaiters (h : s.Loaded y) : s.releaseLaneWaiters.Loaded y := by
  obtain ⟨hbalanced, hsub⟩ := releaseWaiters_balanced s.laneWaiters ⟨h.queued.nodup, h.queued.waiting⟩
    (fun n hn hc => h.running n hc hn) h.balanced
  exact ⟨hbalanced, h.queued.releaseLaneWaiters.2, fun n hy hn => h.running n hy (hsub hn)⟩

theorem Balanced.unowed (h : s.Balanced y (some c)) (hnone : s.channelLoads.lookup c = none) : s.Balanced y none :=
  { h with
    balance := fun c' hc' => by
      have hbalance := h.balance c' hc'
      grind [load] }

theorem Balanced.giveBack (h : s.Balanced y (some c)) (hq : s.Queued) (hrun : ∀ n, y = some n → n ∉ s.laneWaiters) :
    (s.releaseChannelReservation c).Loaded y := by
  unfold PageClient.releaseChannelReservation
  refine Loaded.releaseLaneWaiters ?_
  split
  · rename_i hsome
    have hc := h.keys c hsome
    refine ⟨{ h with keys := keys_setLoad h.keys hc _, balance := fun c' hc' => ?_ }, hq.congr rfl rfl, hrun⟩
    have hbalance := h.balance c' hc'
    rw [load_setLoad]
    show _ = s.carried c' + s.grantsBut y c' + 0
    grind
  · rename_i hnone
    exact ⟨h.unowed (Option.not_isSome_iff_eq_none.1 hnone), hq, hrun⟩

/-! ### The end of a request -/

theorem carried_erase (h : s.maps.inbound.lookup id = some entry) (c : Nat) :
    s.carried c = (if entry.channel = c then 1 else 0) + tally (fun _ e => decide (e.channel = c)) (s.maps.inbound.erase id) := by
  have herase : s.carried c = (decide (entry.channel = c)).toNat + _ := tally_erase h
  grind

theorem Balanced.abort (h : s.Balanced y owed) (id : Nat) : (s.abort id).Balanced y owed := by
  unfold PageClient.abort
  split
  · exact h.modifyStart (fun _ _ _ => rfl) (fun st c hst hphase => h.granted _ st c hst hphase)
  · exact h

theorem laneWaiters_abort (s : PageClient) (id : Nat) : (s.abort id).laneWaiters = s.laneWaiters := by
  unfold PageClient.abort
  split
  · exact laneWaiters_modifyStart ..
  · rfl

theorem Balanced.remove (h : s.Balanced y none) (hentry : s.maps.inbound.lookup id = some entry) :
    Balanced y (some entry.channel) { s with maps := s.maps.remove id } :=
  { h with
    carriers := fun id' entry' hentry' => by
      change (s.maps.remove id).inbound.lookup id' = some entry' at hentry'
      rw [RequestMaps.inbound_remove] at hentry'
      split at hentry'
      · cases hentry'
      · exact h.carriers id' entry' hentry'
    balance := fun c hc => by
      have hbalance := h.balance c hc
      have herase := carried_erase hentry c
      rw [if_neg nofun] at hbalance
      show s.load c = tally (fun _ e => decide (e.channel = c)) (s.maps.inbound.erase id) + s.grantsBut y c + _
      grind
    single := fun c => by
      have hsingle := h.single c
      have herase : s.carriesConstrained c = (decide (entry.channel = c) && entry.constrained).toNat +
          tally (fun _ e => decide (e.channel = c) && e.constrained) (s.maps.inbound.erase id) := tally_erase hentry
      show tally (fun _ e => decide (e.channel = c) && e.constrained) (s.maps.inbound.erase id) + s.grantsBut y c ≤ 1
      omega }

theorem Loaded.finish (h : s.Loaded y) (id : Nat) : (s.finish id).Loaded y := by
  have haborted : (s.abort id).Balanced y none := h.balanced.abort id
  have hmaps := (drifts_abort s id).maps
  have hqueued : Queued { s.abort id with maps := s.maps.remove id } := (h.queued.abort id).congr rfl rfl
  have hrunning : ∀ n, y = some n → n ∉ (s.abort id).laneWaiters := by
    rw [laneWaiters_abort]
    exact h.running
  unfold PageClient.finish
  simp only
  cases hentry : s.maps.inbound.lookup id with
  | none =>
    refine ⟨haborted.congr rfl rfl rfl ?_ rfl rfl, hqueued, hrunning⟩
    show s.maps.inbound.erase id = (s.abort id).maps.inbound
    rw [hmaps, Assoc.erase_of_absent hentry]
  | some entry =>
    have hremoved : Balanced y (some entry.channel) { s.abort id with maps := s.maps.remove id } := by
      have hthere : (s.abort id).maps.inbound.lookup id = some entry := hmaps ▸ hentry
      have hr := haborted.remove hthere
      rw [hmaps] at hr
      exact hr
    have hloads : (s.abort id).channelLoads = s.channelLoads := by
      unfold PageClient.abort
      split
      · exact (modifyStart_lanes ..).2.2.1
      · rfl
    simp only
    split
    · have hreleased := hremoved.giveBack hqueued hrunning
      split
      · exact hreleased
      · exact hreleased.congr rfl
    rename_i hnone
    refine ⟨hremoved.unowed ?_, hqueued, hrunning⟩
    simp_all

theorem Loaded.failRequest (h : s.Loaded y) (id : Nat) (message : Option String) : (s.failRequest id message).Loaded y := by
  unfold PageClient.failRequest
  split
  · exact (h.post _).finish id
  · exact h

theorem Loaded.thrown (h : s.Loaded y) (n : Nat) (swId : Int) (id : Nat) : (s.thrown n swId id).Loaded y := by
  unfold PageClient.thrown
  split
  · split
    · exact h
    · exact (h.post _).finish id
  · exact h

/-! ### A start runs -/

theorem Loaded.runs (h : s.Loaded none) (hst : s.starts.lookup n = some st)
    (hwaiting : st.phase ≠ .waiting) (hgranted : ∀ c, st.phase ≠ .granted (some c)) : s.Loaded (some n) := by
  have hgrants : ∀ c, s.grantsBut (some n) c = s.grantsBut none c := fun c => by
    rw [grantsBut_none, grantsBut_run hst, weight_of_ne (hgranted c)]
    rfl
  refine ⟨{ h.balanced with balance := fun c hc => ?_, single := fun c => ?_ }, h.queued,
    fun m hm => ?_⟩
  · rw [hgrants]
    exact h.balanced.balance c hc
  · rw [hgrants]
    exact h.balanced.single c
  · cases hm
    exact h.queued.not_mem hst hwaiting

theorem Loaded.resumes (h : s.Loaded none) (hst : s.starts.lookup n = some st)
    (hgranted : st.phase = .granted (some c)) :
    s.Balanced (some n) (some c) ∧ n ∉ s.laneWaiters ∧ s.carriesConstrained c + s.grantsBut (some n) c = 0 := by
  have hgrants : ∀ c', s.grantsBut none c' = s.grantsBut (some n) c' + if c' = c then 1 else 0 := fun c' => by
    rw [grantsBut_none, grantsBut_run hst, weight_granted (fun hc => by cases hc) c' hgranted]
  refine ⟨{ h.balanced with balance := fun c' hc' => ?_, single := fun c' => ?_ },
    h.queued.not_mem hst (by rw [hgranted]; exact fun hc => by cases hc), ?_⟩
  · have hbalance : s.load c' = s.carried c' + s.grantsBut none c' + 0 := h.balanced.balance c' hc'
    grind
  · have hsingle := h.balanced.single c'
    rw [hgrants] at hsingle
    omega
  · have hsingle := h.balanced.single c
    grind

theorem Loaded.ends (h : s.Loaded (some n)) (swId : Int) : (s.ends n swId).Loaded none := by
  have hlookup : ∀ m, (s.ends n swId).starts.lookup m = if m = n then none else s.starts.lookup m := fun m => lookup_erase_eq ..
  have hgrants : ∀ c, (s.ends n swId).grantsBut none c = s.grantsBut (some n) c := fun c => by
    have habsent : (s.ends n swId).starts.lookup n = none := AList.lookup_erase _ _
    rw [grantsBut_none, ← grantsBut_absent habsent]
    cases hst : s.starts.lookup n with
    | none =>
      show tally _ (s.starts.erase n) = _
      rw [Assoc.erase_of_absent hst]
      rfl
    | some st =>
      have herase : s.grantsBut (some n) c = weight (some n) c n st + tally
          (fun m st => decide (some n ≠ some m) && decide (st.phase = .granted (some c))) (s.starts.erase n) :=
        tally_erase hst
      rw [herase, weight_self, Nat.zero_add]
      rfl
  refine ⟨⟨h.balanced.lanes, h.balanced.keys, h.balanced.carriers, fun m st hst => ?_, fun m st c hst => ?_, fun c hc => ?_,
    fun c => ?_⟩,
    h.queued.leave (h.running n rfl) rfl fun m hne => by rw [hlookup, if_neg hne], fun m hm => by cases hm⟩
  · rw [hlookup] at hst
    split at hst
    · cases hst
    · exact h.balanced.numbered m st hst
  · rw [hlookup] at hst
    split at hst
    · cases hst
    · exact h.balanced.granted m st c hst
  · rw [hgrants]
    exact h.balanced.balance c hc
  · rw [hgrants]
    exact h.balanced.single c

theorem Loaded.suspend (h : s.Loaded (some n)) {phase : StartPhase} (hphase : ∀ c, phase ≠ .granted (some c)) :
    (s.setPhase n phase).Loaded none := by
  have hmoved : (s.setPhase n phase).Balanced (some n) none := by
    refine h.balanced.modifyStart (fun st c hst => ?_) (fun st c _ hc => absurd hc (hphase c))
    rw [weight_self, weight_self]
  have hgrants : ∀ c, (s.setPhase n phase).grantsBut none c = (s.setPhase n phase).grantsBut (some n) c := fun c => by
    rw [grantsBut_none]
    cases hst : (s.setPhase n phase).starts.lookup n with
    | none => exact (grantsBut_absent hst c).symm
    | some st =>
      have hst' := hst
      rw [setPhase, lookup_modifyStart, if_pos rfl] at hst'
      obtain ⟨_, _, rfl⟩ := Option.map_eq_some_iff.1 hst'
      rw [grantsBut_run hst, weight_of_ne (hphase c)]
      rfl
  refine ⟨{ hmoved with balance := fun c hc => ?_, single := fun c => ?_ }, ?_, fun m hm => by cases hm⟩
  · rw [hgrants]
    exact hmoved.balance c hc
  · rw [hgrants]
    exact hmoved.single c
  · refine h.queued.leave (h.running n rfl) (laneWaiters_modifyStart ..) fun m hne => ?_
    rw [setPhase, lookup_modifyStart, if_neg hne]

theorem Balanced.register (h : s.Balanced y (some c)) (hc : c < s.nextChannel)
    (hfresh : s.maps.inbound.lookup s.nextRequestId = none) (hchannel : entry.channel = c)
    (hroom : entry.constrained = true → s.carriesConstrained c + s.grantsBut y c = 0) (credit : Nat) (hasBody : Bool) :
    Balanced y none { s.takeId with maps := s.maps.register s.nextRequestId credit entry hasBody } :=
  { h with
    carriers := fun id entry' hentry => by
      change (s.maps.register s.nextRequestId credit entry hasBody).inbound.lookup id = some entry' at hentry
      rw [RequestMaps.inbound_register] at hentry
      split at hentry
      · cases hentry
        rw [hchannel]
        exact hc
      · exact h.carriers id entry' hentry
    balance := fun c' hc' => by
      have hbalance := h.balance c' hc'
      have hinsert : tally (fun _ e => decide (e.channel = c')) (s.maps.inbound.insert s.nextRequestId entry) =
          (decide (entry.channel = c')).toNat + s.carried c' := tally_insert_new hfresh entry
      show s.load c' = tally (fun _ e => decide (e.channel = c')) (s.maps.inbound.insert s.nextRequestId entry) +
        s.grantsBut y c' + 0
      rw [hbalance, hinsert, hchannel]
      by_cases hcc : c = c'
      · grind
      · simp_all
    single := fun c' => by
      have hinsert : tally (fun _ e => decide (e.channel = c') && e.constrained) (s.maps.inbound.insert s.nextRequestId entry) =
          (decide (entry.channel = c') && entry.constrained).toNat + s.carriesConstrained c' := tally_insert_new hfresh entry
      show tally (fun _ e => decide (e.channel = c') && e.constrained) (s.maps.inbound.insert s.nextRequestId entry) +
        s.grantsBut y c' ≤ 1
      have hsingle := h.single c'
      rw [hinsert, hchannel]
      by_cases hcc : c = c'
      · subst hcc
        rw [decide_eq_true rfl, Bool.true_and]
        cases hconstrained : entry.constrained <;> simp_all
      · simp_all }

theorem Balanced.begin (h : s.Balanced (some n) (some c)) (hq : s.Queued) (hn : n ∉ s.laneWaiters) (hc : c < s.nextChannel)
    (hfresh : s.maps.inbound.lookup s.nextRequestId = none) (st : PageStart)
    (hroom : LaneScheduler.constrained st.head.priority st.head.url = true → s.carriesConstrained c + s.grantsBut (some n) c = 0)
    (sends : Sends) : (s.begin n st c sends).Loaded none := by
  have hu : (s.registered n st c).Loaded (some n) :=
    ⟨h.register hc hfresh rfl hroom _ _, hq.congr rfl rfl, fun m hm => by cases hm; exact hn⟩
  have hup : ((s.registered n st c).eraseUpload s.nextRequestId).Loaded (some n) := hu.congr rfl
  rw [begin_eq]
  split
  · exact (hu.thrown ..).ends _
  split
  · refine hu.suspend fun c' hc' => ?_
    split at hc' <;> cases hc'
  split
  · split
    · exact hup.ends _
    · exact (hup.thrown ..).ends _
  · exact hu.ends _

theorem Loaded.schedule (h : s.Loaded none) (hst : s.starts.lookup n = some st)
    (hopening : st.phase = .opening) (hfresh : s.maps.inbound.lookup s.nextRequestId = none) (sends : Sends) :
    (s.schedule n st sends).Loaded none := by
  have hwaiting : st.phase ≠ .waiting := by rw [hopening]; exact nofun
  have hruns := h.runs hst hwaiting (by rw [hopening]; exact nofun)
  unfold PageClient.schedule
  split
  · exact hruns.ends _
  simp only
  split
  · rename_i hmay
    split
    · rename_i c hchosen
      have hc := chooseChannel_mem hchosen
      refine (hruns.balanced.reserve hc).begin (hruns.queued.congr rfl rfl) (hruns.running n rfl) (h.balanced.lanes c hc) hfresh st
        (fun hconstrained => ?_) sends
      -- it is let in on a free lane only
      have hfree : s.load c < 1 := by simp_all
      have hbalance := hruns.balanced.balance c hc
      have hle := s.carriesConstrained_le c
      show s.carriesConstrained c + s.grantsBut (some n) c = 0
      omega
    · exact (hruns.post _).ends _
  · have hsuspended : (s.setPhase n .waiting).Loaded none := hruns.suspend fun c hc => by cases hc
    exact ⟨hsuspended.balanced.congr rfl rfl rfl rfl rfl rfl, h.queued.wait hst (h.queued.not_mem hst hwaiting),
      fun m hm => by cases hm⟩

/-! ### A message asks for a request -/

theorem Loaded.modifyStart (h : s.Loaded y) (hphase : ∀ st, (f st).phase = st.phase) :
    (s.modifyStart n f).Loaded y := by
  refine ⟨h.balanced.modifyStart (fun st c _ => ?_) (fun st c hst hgranted => ?_),
    h.queued.modifyStart fun st _ hwaiting => (hphase st).trans hwaiting, ?_⟩
  · rw [weight, hphase]
    rfl
  · exact h.balanced.granted n st c hst ((hphase st).symm.trans hgranted)
  · rw [laneWaiters_modifyStart]
    exact h.running

theorem Loaded.enter (h : s.Loaded none) (swId : Int) (hopening : st.phase = .opening) :
    (s.enter swId st).Loaded none := by
  obtain ⟨u, hof, heq, -⟩ := enter_eq s swId st
  have hu : u.Loaded none := by
    rcases hof with rfl | ⟨n, rfl⟩
    · exact h
    · exact h.modifyStart fun _ => rfl
  have hnew : u.starts.lookup u.nextStart = none :=
    Option.eq_none_iff_forall_ne_some.2 fun old hold => lt_irrefl _ (hu.balanced.numbered _ old hold)
  have hlookup := lookup_insert_eq u.starts u.nextStart st
  have hgrants : ∀ c, tally (fun n st => decide ((none : Option Nat) ≠ some n) && decide (st.phase = .granted (some c)))
      (u.starts.insert u.nextStart st) = u.grantsBut none c := fun c => by
    rw [tally_insert_new hnew st]
    show weight none c u.nextStart st + u.grantsBut none c = _
    simp [weight_of_ne, hopening]
  rw [heq]
  refine ⟨⟨hu.balanced.lanes, hu.balanced.keys, hu.balanced.carriers, fun n old hold => ?_, fun n old c hold hgranted => ?_,
    fun c hc => ?_, fun c => ?_⟩, hu.queued.of_starts rfl fun n _ old hold hwaiting => ⟨old, ?_, hwaiting⟩, fun n hn => by cases hn⟩
  · rw [hlookup] at hold
    show n < u.nextStart + 1
    split at hold
    · omega
    · have hlt := hu.balanced.numbered n old hold
      omega
  · rw [hlookup] at hold
    split at hold
    · simp_all
    · exact hu.balanced.granted n old c hold hgranted
  · have hbalance := hu.balanced.balance c hc
    rw [← hgrants] at hbalance
    exact hbalance
  · have hsingle := hu.balanced.single c
    rw [← hgrants] at hsingle
    exact hsingle
  · grind

/-! ### Lanes come and go -/

theorem Loaded.dropping (h : s.Loaded y) (hchannels : ∀ c ∈ t.channels, c ∈ s.channels ∧ t.load c = s.load c)
    (hkeys : ∀ c, (t.channelLoads.lookup c).isSome = true → c ∈ t.channels) (hnext : t.nextChannel = s.nextChannel)
    (hin : t.maps.inbound = s.maps.inbound) (hstarts : t.starts = s.starts) (hnumber : t.nextStart = s.nextStart)
    (hwaiters : t.laneWaiters = s.laneWaiters) : t.Loaded y := by
  refine ⟨⟨fun c hc => ?_, hkeys, by rw [hin, hnext]; exact h.balanced.carriers, by rw [hstarts, hnumber]; exact h.balanced.numbered,
    by rw [hstarts, hnext]; exact h.balanced.granted, fun c hc => ?_, fun c => ?_⟩, h.queued.congr hwaiters hstarts,
    by rw [hwaiters]; exact h.running⟩
  · rw [hnext]
    exact h.balanced.lanes c (hchannels c hc).1
  · have hbalance := h.balanced.balance c (hchannels c hc).1
    simp_all [carried, grantsBut]
  · have hsingle := h.balanced.single c
    simp_all [carriesConstrained, grantsBut]

theorem Loaded.removeChannel (h : s.Loaded y) (c : Nat) : (s.removeChannel c).Loaded y := by
  refine h.dropping (fun c' hc' => ?_) (fun c' hc' => ?_) rfl rfl rfl rfl rfl
  · obtain ⟨hmem, hne⟩ := List.mem_filter.1 hc'
    refine ⟨hmem, ?_⟩
    show ((s.channelLoads.erase c).lookup c').getD 0 = _
    rw [lookup_erase_eq, if_neg (of_decide_eq_true hne)]
    rfl
  · change ((s.channelLoads.erase c).lookup c').isSome = true at hc'
    rw [lookup_erase_eq] at hc'
    split at hc'
    · cases hc'
    · rename_i hne
      exact List.mem_filter.2 ⟨h.balanced.keys c' hc', decide_eq_true hne⟩

theorem Loaded.closeChannel (h : s.Loaded y) (c : Nat) : (s.closeChannel c).Loaded y := h.congr rfl

theorem Loaded.createChannel (h : s.Loaded y) (label : Nat) : (s.createChannel label).Loaded y := by
  have hload : ∀ c, (s.createChannel label).load c = if c = s.nextChannel then 0 else s.load c := fun c => by
    grind [lookup_insert_eq, load, PageClient.createChannel]
  have hcarried : s.carried s.nextChannel = 0 := tally_eq_zero fun id entry hentry => by
    have hlt := h.balanced.carriers id entry hentry
    exact decide_eq_false (by omega)
  have hgrants : s.grantsBut y s.nextChannel = 0 := tally_eq_zero fun n st hst => by
    rw [Bool.and_eq_false_iff]
    right
    refine decide_eq_false fun hgranted => ?_
    exact lt_irrefl _ (h.balanced.granted n st _ hst hgranted)
  refine ⟨⟨fun c hc => ?_, fun c hc => ?_, fun id entry hentry => ?_, h.balanced.numbered, fun n st c hst hgranted => ?_,
    fun c hc => ?_, h.balanced.single⟩, h.queued.congr rfl rfl, h.running⟩
  · show c < s.nextChannel + 1
    rcases List.mem_append.1 hc with hc | hc
    · have hlt := h.balanced.lanes c hc
      omega
    · simp_all
  · change ((s.channelLoads.insert s.nextChannel 0).lookup c).isSome = true at hc
    rw [lookup_insert_eq] at hc
    split at hc
    · rename_i heq
      rw [heq]
      exact List.mem_append_right _ List.mem_cons_self
    · exact List.mem_append_left _ (h.balanced.keys c hc)
  · exact (h.balanced.carriers id entry hentry).trans (Nat.lt_succ_self _)
  · exact (h.balanced.granted n st c hst hgranted).trans (Nat.lt_succ_self _)
  show (s.createChannel label).load c = s.carried c + s.grantsBut y c + 0
  rw [hload]
  split
  · simp_all
  · rename_i hne
    exact h.balanced.balance c ((List.mem_append.1 hc).resolve_right fun hmem => hne (List.mem_singleton.1 hmem))

theorem Loaded.dropLanes : ∀ (cs seen : List Nat) {s : PageClient}, s.Loaded y → (s.dropLanes seen cs).Loaded y
  | [], _, _, h => h
  | c :: cs, seen, s, h => by
    unfold PageClient.dropLanes
    split
    · exact Loaded.dropLanes cs seen (h.removeChannel c)
    split
    · exact Loaded.dropLanes cs seen ((h.removeChannel c).closeChannel c)
    · exact Loaded.dropLanes cs _ h

theorem Loaded.ensureLane (h : s.Loaded y) (label : Nat) : (s.ensureLane label).Loaded y := by
  unfold PageClient.ensureLane
  split
  · rename_i c _
    split
    · exact h
    · exact ((h.removeChannel c).closeChannel c).createChannel label
  · exact h.createChannel label

theorem Loaded.ensureBulkChannels (h : s.Loaded y) : s.ensureBulkChannels.Loaded y := by
  unfold PageClient.ensureBulkChannels
  split
  · exact h
  have htimer : Loaded y { s with bulkIdleTimer := false } := h.congr rfl
  have hdropped := Loaded.dropLanes s.channels.tail [] htimer
  exact (((hdropped.ensureLane 1).ensureLane 2).ensureLane 3).congr rfl

theorem lookup_foldl_erase (c : Nat) : ∀ (cs : List Nat) (loads : AList (fun _ : Nat => Nat)),
    (cs.foldl (fun loads c => loads.erase c) loads).lookup c = if c ∈ cs then none else loads.lookup c
  | [], _ => rfl
  | c' :: cs, loads => by
    rw [List.foldl_cons, lookup_foldl_erase c cs, lookup_erase_eq]
    grind

theorem load_of_not_bulkActive (h : ¬ s.bulkActive = true) (hc : c ∈ s.channels.tail) : s.load c = 0 := by
  by_contra hload
  exact h (List.any_eq_true.2 ⟨c, hc, decide_eq_true (Nat.pos_of_ne_zero hload)⟩)

theorem Loaded.idleTimer (h : s.Loaded y) : s.idleTimer.Loaded y := by
  unfold PageClient.idleTimer
  simp only
  split
  · exact h.congr rfl
  rename_i hidle
  refine h.dropping (fun c hc => ⟨List.mem_of_mem_take hc, ?_⟩) (fun c hc => ?_) rfl rfl rfl rfl rfl
  · show ((s.channels.tail.foldl _ s.channelLoads).lookup c).getD 0 = s.load c
    rw [lookup_foldl_erase]
    split
    · rename_i htail
      exact (load_of_not_bulkActive hidle htail).symm
    · rfl
  · change ((s.channels.tail.foldl _ s.channelLoads).lookup c).isSome = true at hc
    rw [lookup_foldl_erase] at hc
    split at hc
    · cases hc
    rename_i hnot
    have hmem := h.balanced.keys c hc
    cases hlanes : s.channels <;> simp_all

theorem idleTimer_keeps (hc : 0 < s.load c) :
    (c ∈ s.idleTimer.channels ↔ c ∈ s.channels) ∧ s.idleTimer.readyState c = s.readyState c := by
  unfold PageClient.idleTimer
  simp only
  split
  · exact ⟨Iff.rfl, rfl⟩
  rename_i hidle
  have hnot : c ∉ s.channels.tail := fun htail => by simp_all [load_of_not_bulkActive]
  refine ⟨⟨fun h => List.mem_of_mem_take h, fun h => ?_⟩, if_neg hnot⟩
  show c ∈ s.channels.take 1
  cases hlanes : s.channels <;> simp_all

/-! ### Every other event -/

section

variable (h : s.Loaded none)
include h

theorem Loaded.startRequest (swId : Int) (hfresh : s.maps.inbound.lookup s.nextRequestId = none) (head : PageHead)
    (hasStream : Bool) (sends : Sends) : (s.startRequest swId head hasStream sends).Loaded none := by
  unfold PageClient.startRequest
  simp only
  generalize hst : (⟨swId, head, hasStream, false, false, .opening, s.posts.length⟩ : PageStart) = st
  have hentered : (s.enter swId st).Loaded none := h.enter swId (hst ▸ rfl)
  have hlookup := enter_lookup s swId st
  obtain ⟨hmaps, hnext⟩ := enter_fresh s swId st
  have hr := relanes_ensureBulkChannels (s.enter swId st)
  split
  · refine hentered.schedule hlookup (hst ▸ rfl) ?_ sends
    rw [hmaps, hnext]
    exact hfresh
  · refine hentered.ensureBulkChannels.schedule ((congrArg (AList.lookup _) hr.starts).trans hlookup) (hst ▸ rfl) ?_ sends
    rw [hr.drifts.maps, hr.nextRequestId, hmaps, hnext]
    exact hfresh
  · exact hentered.ensureBulkChannels
  · exact hentered.ensureBulkChannels

section

variable (hst : s.starts.lookup n = some st)
include hst

theorem Loaded.lanesSettled (hopening : st.phase = .opening) (hfresh : s.maps.inbound.lookup s.nextRequestId = none) (ok : Bool)
    (sends : Sends) :
    (s.lanesSettled n st ok sends).Loaded none := by
  have hruns : s.Loaded (some n) := h.runs hst (by rw [hopening]; exact nofun)
    (by rw [hopening]; exact nofun)
  unfold PageClient.lanesSettled
  split
  · exact h.schedule hst hopening hfresh sends
  split
  · exact hruns.ends _
  · exact (hruns.post _).ends _

theorem Loaded.resumed {channel : Option Nat} (hgranted : st.phase = .granted channel)
    (hfresh : s.maps.inbound.lookup s.nextRequestId = none) (sends : Sends) : (s.resumed n st channel sends).Loaded none := by
  have hwaiting : st.phase ≠ .waiting := by rw [hgranted]; exact nofun
  cases channel with
  | none =>
    have hruns : s.Loaded (some n) := h.runs hst hwaiting (by rw [hgranted]; exact nofun)
    unfold PageClient.resumed
    cases st.cancelled with
    | true => exact hruns.ends _
    | false => exact (hruns.post _).ends _
  | some c =>
    obtain ⟨hbalanced, hn, hroom⟩ := h.resumes hst hgranted
    unfold PageClient.resumed
    cases st.cancelled with
    | true => exact (hbalanced.giveBack h.queued fun m hm => by cases hm; exact hn).ends _
    | false => exact hbalanced.begin h.queued hn (h.balanced.granted n st c hst hgranted) hfresh st (fun _ => hroom) sends

theorem Loaded.uploadSettled (huploading : st.phase = .uploading id c) (ok : Bool) (sends : Sends) :
    (s.uploadSettled n st id c ok sends).Loaded none := by
  have hruns : s.Loaded (some n) := h.runs hst (by rw [huploading]; exact nofun)
    (by rw [huploading]; exact nofun)
  have hup : (s.eraseUpload id).Loaded (some n) := hruns.congr rfl
  unfold PageClient.uploadSettled
  split
  · exact (hruns.thrown ..).ends _
  split
  · exact hruns.ends _
  simp only
  split
  · exact hup.ends _
  · exact (hup.thrown ..).ends _

end

theorem Loaded.cancelRequest (swId : Int) : (s.cancelRequest swId).Loaded none := by
  unfold PageClient.cancelRequest
  split
  · exact h.finish _
  split
  · exact Loaded.releaseLaneWaiters (h.modifyStart fun _ => rfl)
  · exact h

theorem Loaded.creditMessage (swId : Int) (n : Int) (sent : Bool) : (s.creditMessage swId n sent).Loaded none := by
  unfold PageClient.creditMessage
  split
  · exact h
  rename_i id _
  split
  · exact h
  rename_i credit _
  simp only
  split
  · exact h.failRequest ..
  have hcredited : Loaded none
      { s with maps := { s.maps with outbound := s.maps.outbound.insert id (credit + n.toNat) } } :=
    h.congr rfl
  split
  · exact hcredited
  · exact (hcredited.post _).finish _

theorem Loaded.grantUploadCredit (id : Nat) (count : Option Nat) : (s.grantUploadCredit id count).Loaded none := by
  unfold PageClient.grantUploadCredit
  split
  · exact h
  split
  · exact h.failRequest ..
  split
  · exact h.failRequest ..
  · exact h.congr rfl

theorem Loaded.onFrame (c id : Nat) (frame : PageFrame) : (s.onFrame c id frame).Loaded none := by
  unfold PageClient.onFrame
  split
  · exact h
  split
  · exact h
  split
  · exact h.post _
  · exact h.failRequest ..
  · split
    · rename_i credit _
      have hspent : Loaded none { s with maps := { s.maps with outbound := s.maps.outbound.insert id credit } } :=
        h.congr rfl
      exact hspent.post _
    · exact h.failRequest ..
    · exact h.failRequest ..
  · exact (h.post _).finish _
  · exact (h.post _).finish _
  · exact h.failRequest ..
  · exact h.grantUploadCredit ..

end

theorem Loaded.finishAll : ∀ (l : List (Sigma fun _ : Nat => Int)) {s : PageClient}, s.Loaded none → (s.finishAll l).Loaded none
  | [], _, h => h
  | e :: l, s, h => by
    unfold PageClient.finishAll
    split
    · exact Loaded.finishAll l h
    · exact Loaded.finishAll l (h.finish e.1)

theorem Loaded.cancelAll : ∀ (l : List (Sigma fun _ : Int => Nat)) {s : PageClient}, s.Loaded none → (s.cancelAll l).Loaded none
  | [], _, h => h
  | e :: l, s, h => by
    unfold PageClient.cancelAll
    split
    · exact Loaded.cancelAll l h
    · exact Loaded.cancelAll l (h.modifyStart fun _ => rfl)

theorem Loaded.retire (h : s.Loaded none) : s.retireWorkerBridgeRequests.Loaded none := Loaded.cancelAll _ (Loaded.finishAll _ h)

theorem Loaded.postErrors (message : Option String) : ∀ (l : List (Nat × Int)) {s : PageClient}, s.Loaded none →
    (l.foldl (fun t e => t.post (.err e.1 e.2 message)) s).Loaded none
  | [], _, h => h
  | _ :: l, _, h => Loaded.postErrors message l (h.post _)

theorem Loaded.failAll : ∀ (l : List (Sigma fun _ : Nat => InboundRequest)) {s : PageClient}, s.Loaded none → (s.failAll l).Loaded none
  | [], _, h => h
  | e :: l, _, h => Loaded.failAll l ((h.post _).finish e.1)

structure Still (s t : PageClient) : Prop where
  maps : t.maps = s.maps
  channels : t.channels = s.channels
  nextChannel : t.nextChannel = s.nextChannel
  nextStart : t.nextStart = s.nextStart
  starts : ∀ n st', t.starts.lookup n = some st' → ∃ st, s.starts.lookup n = some st ∧
    ∀ c, st'.phase = .granted (some c) → st.phase = .granted (some c)

theorem Still.of_starts (hmaps : t.maps = s.maps) (hchannels : t.channels = s.channels) (hnext : t.nextChannel = s.nextChannel)
    (hnumber : t.nextStart = s.nextStart) (hstarts : t.starts = s.starts) : Still s t :=
  ⟨hmaps, hchannels, hnext, hnumber, fun _ st h => ⟨st, hstarts ▸ h, fun _ => id⟩⟩

theorem Still.trans {u : PageClient} (h : Still s t) (h' : Still t u) : Still s u where
  maps := h'.maps.trans h.maps
  channels := h'.channels.trans h.channels
  nextChannel := h'.nextChannel.trans h.nextChannel
  nextStart := h'.nextStart.trans h.nextStart
  starts n st'' hst'' := by
    obtain ⟨st', hst', hgranted'⟩ := h'.starts n st'' hst''
    obtain ⟨st, hst, hgranted⟩ := h.starts n st' hst'
    exact ⟨st, hst, fun c hc => hgranted c (hgranted' c hc)⟩

theorem still_modifyStart (s : PageClient) (n : Nat)
    (hf : ∀ st c, (f st).phase = .granted (some c) → st.phase = .granted (some c)) : Still s (s.modifyStart n f) := by
  obtain ⟨hchannels, hnext, -, hmaps, hnumber⟩ := modifyStart_lanes s n f
  refine ⟨hmaps, hchannels, hnext, hnumber, fun m st' hst' => ?_⟩
  rw [lookup_modifyStart] at hst'
  split at hst'
  · rename_i hm
    obtain ⟨st, hst, rfl⟩ := Option.map_eq_some_iff.1 hst'
    exact ⟨st, hm ▸ hst, hf st⟩
  · exact ⟨st', hst', fun _ => id⟩

theorem still_abortAll : ∀ (l : List (Sigma fun _ : Nat => Nat)) (s : PageClient), Still s (s.abortAll l)
  | [], _ => .of_starts rfl rfl rfl rfl rfl
  | e :: l, s => (still_modifyStart s e.2 (f := fun st => { st with aborted := true }) fun _ _ => id).trans (still_abortAll l _)

theorem still_cancelStarts : ∀ (l : List (Sigma fun _ : Int => Nat)) (s : PageClient), Still s (s.cancelStarts l)
  | [], _ => .of_starts rfl rfl rfl rfl rfl
  | e :: l, s => (still_modifyStart s e.2 (f := fun st => { st with cancelled := true }) fun _ _ => id).trans (still_cancelStarts l _)

theorem still_grantNone : ∀ (ws : List Nat) (s : PageClient), Still s (s.grantNone ws)
  | [], _ => .of_starts rfl rfl rfl rfl rfl
  | n :: ws, s => (still_modifyStart s n fun _ _ hc => by cases hc).trans (still_grantNone ws _)

theorem laneWaiters_grantNone : ∀ (ws : List Nat) (s : PageClient), (s.grantNone ws).laneWaiters = []
  | [], _ => rfl
  | _ :: ws, _ => laneWaiters_grantNone ws _

theorem not_granted_of_settled (h : s.settled = true) (hst : s.starts.lookup n = some st) (c : Nat) :
    st.phase ≠ .granted (some c) := by
  intro hgranted
  have hone := List.all_eq_true.1 h ⟨n, st⟩ ((Assoc.mem_entries_iff_lookup ..).2 hst)
  simp_all

theorem Loaded.teardown (h : s.Loaded none) (hsettled : s.settled = true) : s.teardown.Loaded none := by
  unfold PageClient.teardown
  split
  · exact h
  simp only
  generalize htold : { s with transportDown := true }.post .down = told
  have hpost : Still s told := by
    rw [← htold, post_eq]
    exact .of_starts rfl rfl rfl rfl rfl
  have haborted := hpost.trans (still_abortAll s.maps.requestAbortControllers.entries.reverse told)
  generalize told.abortAll s.maps.requestAbortControllers.entries.reverse = a at haborted ⊢
  have hstill := (still_cancelStarts s.startingRequests.entries.reverse { a with maps := .empty }).trans
    (still_grantNone s.laneWaiters _)
  have hnone := laneWaiters_grantNone s.laneWaiters ({ a with maps := .empty }.cancelStarts s.startingRequests.entries.reverse)
  generalize ({ a with maps := .empty }.cancelStarts s.startingRequests.entries.reverse).grantNone s.laneWaiters = u
    at hstill hnone ⊢
  have hmaps : u.maps = .empty := hstill.maps
  have hphase : ∀ n st, u.starts.lookup n = some st → n < s.nextStart ∧ ∀ c, st.phase ≠ .granted (some c) := by
    intro n st hst
    obtain ⟨st₁, hst₁, hgranted₁⟩ := hstill.starts n st hst
    obtain ⟨st₀, hst₀, hgranted₀⟩ := haborted.starts n st₁ hst₁
    exact ⟨h.balanced.numbered n st₀ hst₀,
      fun c hc => not_granted_of_settled hsettled hst₀ c (hgranted₀ c (hgranted₁ c hc))⟩
  have hchannels : u.channels = s.channels := hstill.channels.trans haborted.channels
  have hnext : u.nextChannel = s.nextChannel := hstill.nextChannel.trans haborted.nextChannel
  have hnumber : u.nextStart = s.nextStart := hstill.nextStart.trans haborted.nextStart
  have hgrants : ∀ c, tally (fun n st => decide ((none : Option Nat) ≠ some n) && decide (st.phase = .granted (some c)))
      u.starts = 0 := fun c => tally_eq_zero fun n st hst => by grind
  refine ⟨⟨?_, fun c hc => (by cases hc), fun id entry hentry => ?_, ?_, fun n st c hst hc => ?_, fun c _ => ?_, fun c => ?_⟩,
    ⟨?_, ?_⟩, fun n hn => by cases hn⟩
  · simpa [hchannels, hnext] using h.balanced.lanes
  · change u.maps.inbound.lookup id = some entry at hentry
    rw [hmaps] at hentry
    cases hentry
  · simp_all
  · exact absurd hc ((hphase n st hst).2 c)
  · show 0 = tally _ u.maps.inbound + tally _ u.starts + 0
    rw [hgrants, hmaps]
    rfl
  · show tally _ u.maps.inbound + tally _ u.starts ≤ 1
    rw [hgrants, hmaps]
    exact Nat.zero_le 1
  · simp [hnone]
  · simp [hnone]

theorem Loaded.handleChannelClose (h : s.Loaded none) (c : Nat) (hsettled : s.labels c = 0 → s.settled = true) :
    (s.handleChannelClose c).Loaded none := by
  unfold PageClient.handleChannelClose
  split
  · rename_i hlabel
    split
    · exact h.teardown (hsettled hlabel)
    · exact h
  · exact Loaded.failAll _ (h.removeChannel c).releaseLaneWaiters

theorem Loaded.step (h : s.Loaded none) {e : PageEvent} (hfresh : s.freshId e = true) (hstep : s.step e = some t) : t.Loaded none := by
  cases e with
  | req swId head hasStream sends =>
    obtain ⟨-, rfl⟩ := of_guard hstep
    exact h.startRequest swId (Option.isNone_iff_eq_none.1 hfresh) head hasStream sends
  | credit swId n sent =>
    obtain ⟨-, rfl⟩ := of_guard hstep
    exact h.creditMessage swId n sent
  | cancel swId =>
    obtain ⟨-, rfl⟩ := of_guard hstep
    exact h.cancelRequest swId
  | direct head sends =>
    obtain ⟨-, rfl⟩ := of_guard hstep
    have hnext : Loaded none { s with nextDirectId := s.nextDirectId - 1 } := h.congr rfl
    exact hnext.startRequest _ (Option.isNone_iff_eq_none.1 hfresh) head false sends
  | directCredit id n sent =>
    obtain ⟨-, rfl⟩ := of_guard hstep
    exact h.creditMessage id n sent
  | cancelDirect id =>
    obtain ⟨-, rfl⟩ := of_guard hstep
    exact h.cancelRequest id
  | attached =>
    obtain ⟨-, rfl⟩ := of_guard hstep
    exact Loaded.postErrors _ _ h.retire
  | standby =>
    obtain ⟨-, rfl⟩ := of_guard hstep
    exact h.retire.congr rfl
  | rejectedAttach =>
    obtain ⟨-, rfl⟩ := of_guard hstep
    exact (h.post .down).congr rfl
  | attachPort =>
    obtain ⟨-, rfl⟩ := Steps.of_unless hstep
    exact h.congr rfl
  | frame c id frame =>
    cases hstep
    exact h.onFrame c id frame
  | lanes n ok sends =>
    simp only [PageClient.step] at hstep
    split at hstep
    · rename_i st hst
      split at hstep
      · rename_i hopening
        cases hstep
        exact h.lanesSettled hst hopening (Option.isNone_iff_eq_none.1 hfresh) ok sends
      · cases hstep
    · cases hstep
  | resume n sends =>
    simp only [PageClient.step] at hstep
    split at hstep
    · rename_i st hst
      split at hstep
      · rename_i hgranted
        cases hstep
        exact h.resumed hst hgranted (Option.isNone_iff_eq_none.1 hfresh) sends
      all_goals cases hstep
    · cases hstep
  | takeUploadCredit n =>
    simp only [PageClient.step] at hstep
    split at hstep
    · split at hstep
      · split at hstep
        · cases hstep
          exact h.congr rfl
        all_goals cases hstep
      all_goals cases hstep
    · cases hstep
  | uploaded n ok sends =>
    simp only [PageClient.step] at hstep
    split at hstep
    · rename_i st hst
      split at hstep
      · rename_i huploading
        cases hstep
        exact h.uploadSettled hst huploading ok sends
      all_goals cases hstep
    · cases hstep
  | bodyCancelled n =>
    simp only [PageClient.step] at hstep
    split at hstep
    · rename_i st hst
      split at hstep
      · rename_i hcancelling
        cases hstep
        have hruns : s.Loaded (some n) := h.runs hst (by rw [hcancelling]; exact nofun)
          (by rw [hcancelling]; exact nofun)
        exact (hruns.thrown ..).ends _
      all_goals cases hstep
    · cases hstep
  | opens c | closing c =>
    obtain ⟨-, rfl⟩ := of_guard hstep
    exact h.congr rfl
  | closed c =>
    obtain ⟨hguard, rfl⟩ := of_guard hstep
    refine Loaded.handleChannelClose ?_ c ?_
    · exact h.congr rfl
    · exact hguard.2
  | buffered c amount =>
    cases hstep
    exact h.congr rfl
  | bulkOpened ok =>
    obtain ⟨-, rfl⟩ := of_guard hstep
    split
    · exact h.congr rfl
    · exact h.congr rfl
  | idleTimer =>
    obtain ⟨-, rfl⟩ := of_guard hstep
    exact h.idleTimer
  | teardown =>
    obtain ⟨hsettled, rfl⟩ := of_guard hstep
    exact h.teardown hsettled
  | drawId =>
    cases hstep
    exact h.congr rfl

theorem loaded_connected : connected.Loaded none where
  balanced :=
    { lanes := by decide
      keys := fun c hc => by
        by_contra hne
        have hc0 : c ≠ 0 := fun hc0 => hne (hc0 ▸ List.mem_cons_self)
        change (((∅ : AList (fun _ : Nat => Nat)).insert 0 0).lookup c).isSome = true at hc
        rw [AList.lookup_insert_ne hc0] at hc
        cases hc
      carriers := nofun
      numbered := nofun
      granted := nofun
      balance := fun c hc => by
        rw [List.mem_singleton.1 hc]
        rfl
      single := fun _ => Nat.zero_le 1 }
  queued := ⟨.nil, fun _ h => absurd h List.not_mem_nil⟩
  running _ h := by cases h

/-- **A recorded load is the number of requests on the lane and of the starts that have been given it and have not gone on; of
those that want a lane to themselves there is at most one; and the idle timer leaves alone whatever lane is in use.** -/
theorem lane_loads_exact (events : List PageEvent) (s : PageClient)
    (hids : Steps.Meets step (fun s e => s.freshId e = true) connected events)
    (hrun : run step connected events = some s) :
    (∀ c load, s.channelLoads.lookup c = some load → load = s.carried c + s.grants c) ∧
    (∀ c, s.carriesConstrained c + s.grants c ≤ 1) ∧
    (∀ t, s.step .idleTimer = some t → ∀ c, 0 < s.load c →
      (c ∈ t.channels ↔ c ∈ s.channels) ∧ t.readyState c = s.readyState c) := by
  have hloaded : s.Loaded none := Steps.run_inv_when step (fun s e => s.freshId e = true) (Loaded none)
    (fun _ _ _ hu hin hstep => hu.step hin hstep) events connected s loaded_connected hids hrun
  refine ⟨fun c load hload => ?_, fun c => ?_, fun t hstep c hc => ?_⟩
  · have hbalance := hloaded.balanced.balance c (hloaded.balanced.keys c (by rw [hload]; rfl))
    rw [PageClient.load, hload, grantsBut_none] at hbalance
    exact hbalance
  · rw [← grantsBut_none]
    exact hloaded.balanced.single c
  simp only [step] at hstep
  split at hstep
  · cases hstep
    exact idleTimer_keeps hc
  · cases hstep

def bulkHead : PageHead := ⟨.bulk, [], false, 16⟩

def promisedLane : List PageEvent :=
  [.req 1 bulkHead false {}, .opens 1, .opens 2, .opens 3, .bulkOpened true, .lanes 0 true {}, .req 2 bulkHead false {},
    .lanes 1 true {}, .req 3 bulkHead false {}, .lanes 2 true {}, .frame 2 1 .resEnd]

theorem lane_loads_exact_promised : ∃ s, run step connected promisedLane = some s ∧
    s.channelLoads.lookup 2 = some 1 ∧ s.carried 2 = 0 ∧ s.grants 2 = 1 ∧
    ∀ c load, s.channelLoads.lookup c = some load → load = s.carried c + s.grants c := by
  obtain ⟨s, hrun, hload, hcarried, hgrants⟩ : ∃ s, run step connected promisedLane = some s ∧
      s.channelLoads.lookup 2 = some 1 ∧ s.carried 2 = 0 ∧ s.grants 2 = 1 :=
    Steps.exists_run (by decide +kernel)
  exact ⟨s, hrun, hload, hcarried, hgrants, (lane_loads_exact promisedLane s (by decide +kernel) hrun).1⟩

theorem asked_lane (n : Nat) (swId : Int) : (asked n 1 swId).channelLoads.lookup 0 = some 2 ∧ (asked n 1 swId).carried 0 = 1 ∧
    (asked n 1 swId).grants 0 = 0 := ⟨rfl, rfl, rfl⟩

/-- **A request written over is counted on its lane for good.** -/
theorem overwritten_request_still_counted : ∃ events s, Steps.Meets step (fun s e => s.newId e = true) connected events ∧
    run step connected events = some s ∧
    s.channelLoads.lookup 0 = some 2 ∧ s.carried 0 + s.grants 0 = 1 := by
  obtain ⟨events, hmeets, hrun⟩ := overwritten
  obtain ⟨hload, hcarried, hgrants⟩ := asked_lane maxRequestId (maxRequestId + 1 : Nat)
  exact ⟨events, _, hmeets, hrun, hload, by rw [hcarried, hgrants]⟩

end PageClient
end YuriRtc
