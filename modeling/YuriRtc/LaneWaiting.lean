import YuriRtc.LaneScheduler
/-!
# LaneWaiting — when no waiter is held back from a free lane

A waiter can use one of two sets of lanes (`eligible`): the first open lane if it is interactive, the asset lanes behind
the reserve otherwise.  `chooseChannel` finds it a busy lane exactly when all of them are busy.  `releaseLaneWaiters` is
strictly first in, first out, so a waiter that can use a free lane is held back by one before it that cannot
(`waiter_held_back`); and nothing releases the waiters when a lane opens, or begins to close, and another lane becomes
usable by that.  While waiters of the two kinds do not queue together and the lanes a queued
waiter can use do not change that way (`Steady`), every waiter waits for a busy lane (`waiters_have_no_free_lane`).
-/
namespace YuriRtc

def LaneWaiter.isInteractive (w : LaneWaiter) : Bool := w.priority = .interactive

namespace LaneScheduler

variable {channels : List Lane} {priority : RequestPriority} {url : List Char} {isInteractive : Bool}

def eligible (channels : List Lane) (isInteractive : Bool) : List Lane :=
  match channels.filter (fun lane => lane.isOpen) with
  | [] => []
  | [only] => [only]
  | first :: reserve :: bulk =>
    if isInteractive then [first]
    else
      match bulk with
      | [] => [reserve]
      | lane :: lanes => lane :: lanes

def AllBusy (channels : List Lane) (isInteractive : Bool) : Prop :=
  ∀ lane ∈ eligible channels isInteractive, 1 ≤ lane.load

/-- What the claim of a free lane reads: the lane `chooseChannel` picks, if any, is in use. -/
def NoFreeLane (channels : List Lane) (priority : RequestPriority) (url : List Char) : Prop :=
  ∀ lane ∈ chooseChannel channels priority url, 1 ≤ lane.load

instance (channels : List Lane) (priority : RequestPriority) (url : List Char) :
    Decidable (NoFreeLane channels priority url) :=
  inferInstanceAs (Decidable (∀ lane ∈ chooseChannel channels priority url, 1 ≤ lane.load))

theorem leastLoaded_spec : ∀ (lanes : List Lane) (selected : Lane),
    leastLoaded selected lanes ∈ selected :: lanes ∧
    ∀ lane ∈ selected :: lanes, (leastLoaded selected lanes).load ≤ lane.load
  | [], selected => by simp [leastLoaded]
  | lane :: lanes, selected => by
    unfold leastLoaded
    split
    · rename_i hless
      obtain ⟨hmem, hmin⟩ := leastLoaded_spec lanes lane
      grind
    rename_i hless
    obtain ⟨hmem, hmin⟩ := leastLoaded_spec lanes selected
    grind

theorem chooseChannel_mem {lane : Lane}
    (h : chooseChannel channels priority url = some lane) : lane ∈ channels ∧ lane.isOpen = true := by
  refine List.mem_filter.1 (?_ : lane ∈ channels.filter (fun lane => lane.isOpen))
  unfold chooseChannel at h
  split at h
  · cases h
  · simp_all
  rename_i first reserve bulk hopen
  rw [hopen]
  split at h
  · simp_all
  simp only at h
  split at h
  · simp_all
  split at h
  · simp_all
  rename_i selected lanes heq
  cases h
  refine List.mem_cons_of_mem _ ?_
  have hmem := (leastLoaded_spec lanes selected).1
  grind

theorem leastLoaded_busy_iff (selected : Lane) (lanes : List Lane) :
    1 ≤ (leastLoaded selected lanes).load ↔ ∀ lane ∈ selected :: lanes, 1 ≤ lane.load := by
  obtain ⟨hmem, hmin⟩ := leastLoaded_spec lanes selected
  exact ⟨fun h lane hl => le_trans h (hmin lane hl), fun h => h _ hmem⟩

theorem noFreeLane_iff (hc : constrained priority url = true) :
    NoFreeLane channels priority url ↔ AllBusy channels (priority = .interactive) := by
  unfold NoFreeLane AllBusy chooseChannel eligible
  cases channels.filter (fun lane => lane.isOpen) with
  | nil => simp
  | cons first rest =>
    cases rest with
    | nil => simp
    | cons reserve bulk =>
      by_cases hp : priority = .interactive
      · simp [hp]
      · -- past the first lane: the reserve is left out, because a constrained request is incremental or normal
        have hinc : (priority = .bulk || isIncrementalAsset url) = true ∨ priority = .normal := by grind [constrained]
        have hcrit : ¬ (priority = .critical ∧ (priority = .bulk || isIncrementalAsset url) = false) := by grind
        simp only [hp, if_false, decide_false, Bool.false_eq_true, if_neg hcrit, if_pos hinc]
        cases bulk with
        | nil => simp
        | cons lane lanes => simp [leastLoaded_busy_iff]

section

variable {f : Lane → Lane} (hf : ∀ lane, (f lane).isOpen = lane.isOpen)
include f hf

theorem filter_open_map (channels : List Lane) :
    (channels.map f).filter (fun lane => lane.isOpen) = (channels.filter (fun lane => lane.isOpen)).map f := by
  rw [List.filter_map]
  congr 1
  apply List.filter_congr
  intro lane _
  exact hf lane

theorem eligible_map (channels : List Lane)
    (isInteractive : Bool) : eligible (channels.map f) isInteractive = (eligible channels isInteractive).map f := by
  unfold eligible
  rw [filter_open_map hf]
  grind

theorem AllBusy.map (hload : ∀ lane, lane.load ≤ (f lane).load)
    (h : AllBusy channels isInteractive) : AllBusy (channels.map f) isInteractive := by
  intro lane hlane
  rw [eligible_map hf] at hlane
  obtain ⟨l, hl, rfl⟩ := List.mem_map.1 hlane
  exact le_trans (h l hl) (hload l)

end

theorem AllBusy.reserve (h : AllBusy channels isInteractive) (id : Nat) :
    AllBusy (reserve channels id) isInteractive := by
  refine h.map (fun lane => ?_) (fun lane => ?_)
  · split <;> rfl
  · split <;> simp

/-- **Waiters of the two kinds do not queue together, and the lanes a queued waiter can use grow by no event that
releases no waiter**, read before the event. -/
def Steady (s : LaneScheduler) : LaneEvent → Prop
  | .start _ priority url =>
    constrained priority url = true → NoFreeLane s.channels priority url →
      ∀ w ∈ s.laneWaiters, w.cancelled = false → w.isInteractive = decide (priority = .interactive)
  | .opens lane =>
    ∀ w ∈ s.laneWaiters, w.cancelled = false →
      ∀ l ∈ eligible (setOpen s.channels lane true) w.isInteractive, l ∈ eligible s.channels w.isInteractive
  | .closing lane =>
    ∀ w ∈ s.laneWaiters, w.cancelled = false →
      ∀ l ∈ eligible (setOpen s.channels lane false) w.isInteractive, l ∈ eligible s.channels w.isInteractive
  | _ => True

instance (s : LaneScheduler) (e : LaneEvent) : Decidable (s.Steady e) := by
  unfold Steady
  split <;> infer_instance

structure Queued (waiters : List LaneWaiter) : Prop where
  constrained : ∀ w ∈ waiters, constrained w.priority w.url = true
  oneKind : ∀ w ∈ waiters, ∀ w' ∈ waiters, w.cancelled = false → w'.cancelled = false →
    w.isInteractive = w'.isInteractive

theorem Queued.tail {w : LaneWaiter} {waiters : List LaneWaiter} (h : Queued (w :: waiters)) : Queued waiters :=
  ⟨fun w' hw => h.constrained w' (List.mem_cons_of_mem _ hw),
    fun a ha b hb => h.oneKind a (List.mem_cons_of_mem _ ha) b (List.mem_cons_of_mem _ hb)⟩

theorem Queued.markCancelled {waiters : List LaneWaiter} (h : Queued waiters) (id : Nat) :
    Queued (markCancelled waiters id) := by
  have hkeeps : ∀ w : LaneWaiter, let w' := if w.id = id then { w with cancelled := true } else w
      w'.priority = w.priority ∧ w'.url = w.url ∧ (w'.cancelled = false → w.cancelled = false) := by grind
  refine ⟨fun w' hw => ?_, fun a ha b hb hla hlb => ?_⟩
  · obtain ⟨w, hmem, rfl⟩ := List.mem_map.1 hw
    obtain ⟨hp, hu, -⟩ := hkeeps w
    rw [hp, hu]
    exact h.constrained w hmem
  obtain ⟨wa, hwa, rfl⟩ := List.mem_map.1 ha
  obtain ⟨wb, hwb, rfl⟩ := List.mem_map.1 hb
  obtain ⟨hpa, -, hca⟩ := hkeeps wa
  obtain ⟨hpb, -, hcb⟩ := hkeeps wb
  unfold LaneWaiter.isInteractive
  rw [hpa, hpb]
  exact h.oneKind wa hwa wb hwb (hca hla) (hcb hlb)

structure Conserving (s : LaneScheduler) : Prop where
  queued : Queued s.laneWaiters
  busy : ∀ w ∈ s.laneWaiters, w.cancelled = false → AllBusy s.channels w.isInteractive

/-- **Releasing the waiters leaves none with a free lane**, whatever happened to the lanes before: it stops at a waiter
whose lanes are all busy, and the rest are of its kind. -/
theorem conserving_releaseLaneWaiters : ∀ (waiters : List LaneWaiter) (channels : List Lane), Queued waiters →
    (releaseLaneWaiters channels waiters).Conserving
  | [], channels, h => ⟨h, nofun⟩
  | w :: waiters, channels, h => by
    have hstop : w.cancelled = false → NoFreeLane channels w.priority w.url →
        Conserving ⟨channels, w :: waiters⟩ := by
      intro hlive hfree
      have hbusy : AllBusy channels w.isInteractive :=
        (noFreeLane_iff (h.constrained w List.mem_cons_self)).1 hfree
      refine ⟨h, fun w' hw' hlive' => ?_⟩
      grind [h.oneKind]
    unfold releaseLaneWaiters
    split
    · exact conserving_releaseLaneWaiters waiters channels h.tail
    rename_i hlive
    have hlive : w.cancelled = false := by simpa using hlive
    split
    · rename_i hnone
      refine hstop hlive (fun lane hlane => ?_)
      simp_all
    rename_i lane hsome
    split
    · rename_i hload
      refine hstop hlive (fun lane' hlane => ?_)
      simp_all
    · exact conserving_releaseLaneWaiters waiters (reserve channels lane.id) h.tail

theorem Conserving.acquireScheduledChannel {s : LaneScheduler} (h : s.Conserving) (id : Nat)
    (hk : s.Steady (.start id priority url)) :
    (s.acquireScheduledChannel id priority url).Conserving := by
  simp only [LaneScheduler.acquireScheduledChannel]
  split
  · split
    · exact h
    · exact ⟨h.queued, fun w hw hlive => (h.busy w hw hlive).reserve _⟩
  rename_i hwait
  obtain ⟨hconstrained, hfree⟩ : constrained priority url = true ∧
      ∀ lane ∈ chooseChannel s.channels priority url, ¬ lane.load < 1 := by simp_all
  have hfree : NoFreeLane s.channels priority url := fun lane hlane => Nat.le_of_not_lt (hfree lane hlane)
  have hbusy := (noFreeLane_iff hconstrained).1 hfree
  have hkind := hk hconstrained hfree
  have hsplit : ∀ w ∈ s.laneWaiters ++ [⟨id, priority, url, false⟩],
      w ∈ s.laneWaiters ∨ w = ⟨id, priority, url, false⟩ := fun w hw => by simpa using hw
  refine ⟨⟨fun w hw => ?_, fun a ha b hb hla hlb => ?_⟩, fun w hw hlive => ?_⟩
  · obtain hw | rfl := hsplit w hw
    · exact h.queued.constrained w hw
    · exact hconstrained
  · obtain ha | rfl := hsplit a ha <;> obtain hb | rfl := hsplit b hb
    · exact h.queued.oneKind a ha b hb hla hlb
    · exact hkind a ha hla
    · exact (hkind b hb hlb).symm
    · rfl
  · obtain hw | rfl := hsplit w hw
    · exact h.busy w hw hlive
    · exact hbusy

theorem eligible_subset (channels : List Lane) (isInteractive : Bool) :
    ∀ lane ∈ eligible channels isInteractive, lane ∈ channels.filter (fun lane => lane.isOpen) := by
  intro lane hlane
  unfold eligible at hlane
  split at hlane
  · cases hlane
  · simp_all
  · grind

theorem AllBusy.take_one (h : AllBusy channels isInteractive)
    (hidle : ∀ lane ∈ channels.tail, lane.load = 0) : AllBusy (channels.take 1) isInteractive := by
  cases channels with
  | nil => exact h
  | cons first rest =>
    intro lane hlane
    have hfirst : lane ∈ [first].filter (fun lane => lane.isOpen) := eligible_subset _ _ lane hlane
    obtain ⟨hmem, hopen⟩ := List.mem_filter.1 hfirst
    cases List.mem_singleton.1 hmem
    -- the first lane is open; were another one open, a busy one would be an idle asset lane
    have hcons : (first :: rest).filter (fun lane => lane.isOpen) = first :: rest.filter (fun lane => lane.isOpen) :=
      List.filter_cons_of_pos hopen
    have hrest : ∀ lane ∈ rest.filter (fun lane => lane.isOpen), lane.load = 0 := fun l hl =>
      hidle l (List.mem_filter.1 hl).1
    unfold AllBusy eligible at h
    rw [hcons] at h
    cases hr : rest.filter (fun lane => lane.isOpen) with
    | nil => simp_all
    | cons reserve bulk =>
      rw [hr] at h hrest
      cases isInteractive with
      | true => exact h first List.mem_cons_self
      | false => cases bulk <;> simp_all

theorem Conserving.step {s s' : LaneScheduler} {e : LaneEvent} (h : s.Conserving) (hk : s.Steady e)
    (hs : s.step e = some s') : s'.Conserving := by
  cases e with simp only [LaneScheduler.step] at hs
  | start id priority url =>
    cases hs
    exact h.acquireScheduledChannel id hk
  | complete lane =>
    cases hs
    exact conserving_releaseLaneWaiters _ _ h.queued
  | cancel id =>
    cases hs
    exact conserving_releaseLaneWaiters _ _ (h.queued.markCancelled id)
  | supersede id =>
    cases hs
    refine ⟨h.queued.markCancelled id, fun w' hw' hlive => ?_⟩
    obtain ⟨w, hmem, rfl⟩ := List.mem_map.1 hw'
    split at hlive
    · cases hlive
    rename_i hid
    rw [if_neg hid]
    exact h.busy w hmem hlive
  | create lane =>
    cases hs
    refine ⟨h.queued, fun w hw hlive => ?_⟩
    have hsame : eligible (s.channels ++ [⟨lane, false, 0, 0⟩]) w.isInteractive = eligible s.channels w.isInteractive := by
      simp [eligible, List.filter_append]
    exact fun l hl => h.busy w hw hlive l (hsame ▸ hl)
  | opens lane =>
    cases hs
    exact ⟨h.queued, fun w hw hlive l hl => h.busy w hw hlive l (hk w hw hlive l hl)⟩
  | closing lane =>
    cases hs
    exact ⟨h.queued, fun w hw hlive l hl => h.busy w hw hlive l (hk w hw hlive l hl)⟩
  | closed lane =>
    cases hs
    exact conserving_releaseLaneWaiters _ _ h.queued
  | idleClose =>
    split at hs <;> cases hs
    · exact h
    rename_i hactive
    have hidle : ∀ lane ∈ s.channels.tail, lane.load = 0 := by simpa using hactive
    exact ⟨h.queued, fun w hw hlive => (h.busy w hw hlive).take_one hidle⟩
  | buffered lane amount =>
    cases hs
    refine ⟨h.queued, fun w hw hlive => (h.busy w hw hlive).map (fun l => ?_) (fun l => ?_)⟩
    · split <;> rfl
    · split <;> exact le_rfl
  | teardown =>
    cases hs
    exact ⟨⟨nofun, nofun⟩, nofun⟩

/-- **No waiter is held back from a free lane.**  In every steady run of starts, completions, cancellations, lane
openings and closings, each waiter that is not cancelled finds no lane, or a lane in use. -/
theorem waiters_have_no_free_lane (es : List LaneEvent) (s : LaneScheduler)
    (hrun : Steps.run step connected es = some s) (hsteady : Steps.Meets step Steady connected es) :
    ∀ w ∈ s.laneWaiters, w.cancelled = false → ∀ lane ∈ chooseChannel s.channels w.priority w.url, 1 ≤ lane.load := by
  have h : s.Conserving :=
    Steps.run_inv_when step Steady Conserving (fun s e s' h hk hs => h.step hk hs) es connected s
      ⟨⟨nofun, nofun⟩, nofun⟩ hsteady hrun
  exact fun w hw hlive => (noFreeLane_iff (h.queued.constrained w hw)).2 (h.busy w hw hlive)

def fourLanes : List LaneEvent := [.create 1, .create 2, .create 3, .opens 1, .opens 2, .opens 3]

def zip : List Char := ['/', 'a', '.', 'z', 'i', 'p']

def threeBulk : List LaneEvent :=
  fourLanes ++ [.start 1 .bulk zip, .start 2 .bulk zip, .start 3 .bulk zip, .start 4 .bulk zip, .complete 2]

theorem waiters_have_no_free_lane_threeBulk :
    ∃ s, Steps.run step connected threeBulk = some s ∧ Steps.Meets step Steady connected threeBulk ∧
      s.laneWaiters = [⟨4, .bulk, zip, false⟩] ∧
      ∀ lane ∈ chooseChannel s.channels .bulk zip, 1 ≤ lane.load := by
  have hends : (Steps.run step connected threeBulk).map (fun s => s.laneWaiters) = some [⟨4, .bulk, zip, false⟩] := by
    decide +kernel
  have hsteady : Steps.Meets step Steady connected threeBulk := by decide +kernel
  obtain ⟨s, hrun, hwaiters⟩ := Option.map_eq_some_iff.1 hends
  refine ⟨s, hrun, hsteady, hwaiters, ?_⟩
  exact waiters_have_no_free_lane threeBulk s hrun hsteady ⟨4, .bulk, zip, false⟩ (by rw [hwaiters]; decide) rfl

/-- A long-lived interactive stream on lane 0, a download opened by a navigation that waits for it, three bulk requests
behind, and the lane of the first of these free again. -/
def heldBack : List LaneEvent :=
  fourLanes ++ [.start 1 .interactive [], .start 2 .interactive zip, .start 3 .bulk zip, .start 4 .bulk zip,
    .start 5 .bulk zip, .complete 2]

def opensLate : List LaneEvent := [.create 1, .start 1 .interactive [], .start 2 .critical zip, .opens 1]

/-- **A free lane and a waiter that could use it.**  Behind a waiter for another lane, and after a lane opened. -/
theorem waiter_held_back :
    (Steps.run step connected heldBack).map
      (fun s => (s.laneWaiters.map (fun w => w.id), chooseChannel s.channels .bulk zip)) =
        some ([2, 5], some ⟨2, true, 0, 0⟩) ∧
    (Steps.run step connected opensLate).map
      (fun s => (s.laneWaiters.map (fun w => w.id), chooseChannel s.channels .critical zip)) =
        some ([2], some ⟨1, true, 0, 0⟩) := by
  constructor <;> decide +kernel

end LaneScheduler
end YuriRtc
