import YuriRtc.Assoc
import YuriRtc.Steps
/-!
# BufferWait — no wakeup of `waitForBuffer` is lost

`content-node/server.go`: any number of `waitForBuffer` calls over the four lanes' buffered amounts and the generations of
`bufferChanged`.  A data channel calls `signalBufferChanged` after every downward crossing of its lane's threshold, a
detached lane's goroutine and `Close` call it after they have taken the lanes out; a call that is still to be made is in
`pending`.  The lanes are loaded and their amounts read one by one, with anything in between.
-/
namespace YuriRtc

open Function (update)

def transportLaneCount : Nat := 4
def aggregateBufferHighWater : Nat := 4 * 1024 * 1024
def bulkBufferHighWater : Nat := 3 * 1024 * 1024
def laneBufferedAmountLowThreshold : Nat := bulkBufferHighWater / transportLaneCount

/-- Why `signalBufferChanged` is about to be called. -/
inductive BufferSignal where
  | low (lane : Nat)
  | detached (lane : Nat)
  | peerClosed
deriving DecidableEq, Repr

/-- How far `aggregateBufferedAmount` has come: the next slot, the sum of the amounts before it, and the lane it has loaded
from the slot and not yet read. -/
structure AggregateRead where
  next : Nat
  total : Nat
  loaded : Option Nat
deriving DecidableEq, Repr

/-- A `waitForBuffer` call: the first measurement, the capture of the generation, the second measurement, the wait. -/
inductive BufferWaiter where
  | measuring (read : AggregateRead)
  | capturing
  | rechecking (generation : Nat) (read : AggregateRead)
  | blocked (generation : Nat)
  | returned (ok : Bool)
deriving DecidableEq, Repr

structure BufferCall where
  limit : Nat
  stage : BufferWaiter
deriving DecidableEq, Repr

/-- The lanes and their amounts, and `bufferChanged`: the generations before `generation` are those whose channel has been
closed. -/
structure LaneBuffers where
  lanes : Fin transportLaneCount → Option Nat
  amount : Nat → Nat
  nextLane : Nat
  closed : Bool
  generation : Nat
  pending : List BufferSignal

structure BufferState where
  buffers : LaneBuffers
  calls : AList (fun _ : Nat => BufferCall)
  nextCall : Nat

inductive BufferLaneEvent where
  | changes (lane amount : Nat)
  | attaches (slot : Fin transportLaneCount) (amount : Nat)
  | detaches (slot : Fin transportLaneCount)
  | closes
  | clears (slot : Fin transportLaneCount)
  | signals (cause : BufferSignal)
deriving DecidableEq, Repr

/-- One step of a `waitForBuffer` call. -/
inductive WaitStep where
  | reads
  | decides
  | captures
  | wakes
  | cancels
deriving DecidableEq, Repr

inductive BufferEvent where
  | lane (event : BufferLaneEvent)
  | waits (control : Bool)
  | call (n : Nat) (step : WaitStep)
deriving DecidableEq, Repr

namespace AggregateRead

def start : AggregateRead := ⟨0, 0, none⟩

def finished (r : AggregateRead) : Bool := r.next = transportLaneCount && r.loaded.isNone

/-- The next load of a slot, or the read of the lane loaded from it; the sum is a `uint64`. -/
def advance (r : AggregateRead) (lanes : Fin transportLaneCount → Option Nat) (amount : Nat → Nat) : Option AggregateRead :=
  match r.loaded with
  | some lane => some ⟨r.next + 1, (r.total + amount lane) % 2 ^ 64, none⟩
  | none =>
    if h : r.next < transportLaneCount then
      match lanes ⟨r.next, h⟩ with
      | some lane => some { r with loaded := some lane }
      | none => some { r with next := r.next + 1 }
    else none

end AggregateRead

namespace LaneBuffers

def init : LaneBuffers := ⟨fun _ => none, fun _ => 0, 0, false, 0, []⟩

def crossing (lane old new : Nat) : List BufferSignal :=
  if laneBufferedAmountLowThreshold < old ∧ new ≤ laneBufferedAmountLowThreshold then [.low lane] else []

def step (b : LaneBuffers) : BufferLaneEvent → Option LaneBuffers
  | .changes lane amount =>
    some { b with
      amount := update b.amount lane amount
      pending := crossing lane (b.amount lane) amount ++ b.pending }
  | .attaches slot amount =>
    if b.closed = false ∧ b.lanes slot = none then
      some { b with
        lanes := update b.lanes slot (some b.nextLane)
        amount := update b.amount b.nextLane amount
        nextLane := b.nextLane + 1 }
    else none
  | .detaches slot =>
    (b.lanes slot).map (fun lane =>
      { b with lanes := update b.lanes slot none, pending := .detached lane :: b.pending })
  | .closes => if b.closed then none else some { b with closed := true, pending := .peerClosed :: b.pending }
  | .clears slot =>
    if .peerClosed ∈ b.pending then some { b with lanes := update b.lanes slot none } else none
  | .signals cause =>
    -- `Close` makes its call after it has taken out every lane
    if cause ∈ b.pending ∧ (cause = .peerClosed → ∀ slot, b.lanes slot = none) then
      some { b with pending := b.pending.erase cause, generation := b.generation + 1 }
    else none

end LaneBuffers

/-- `waitForBuffer`, one step at a time. -/
def BufferCall.step (call : BufferCall) (b : LaneBuffers) : WaitStep → Option BufferWaiter
  | .reads =>
    match call.stage with
    | .measuring read => (read.advance b.lanes b.amount).map .measuring
    | .rechecking generation read => (read.advance b.lanes b.amount).map (.rechecking generation)
    | _ => none
  | .decides =>
    match call.stage with
    | .measuring read =>
      if read.finished then some (if call.limit < read.total then .capturing else .returned true) else none
    | .rechecking generation read =>
      if read.finished then some (if read.total ≤ call.limit then .returned true else .blocked generation) else none
    | _ => none
  | .captures =>
    match call.stage with
    | .capturing => some (.rechecking b.generation .start)
    | _ => none
  | .wakes =>
    match call.stage with
    | .blocked generation => if generation < b.generation then some (.measuring .start) else none
    | _ => none
  | .cancels =>
    match call.stage with
    | .blocked _ => some (.returned false)
    | _ => none

def waitLimit (control : Bool) : Nat := if control then aggregateBufferHighWater else bulkBufferHighWater

namespace BufferState

def init : BufferState := ⟨.init, ∅, 0⟩

def step (s : BufferState) : BufferEvent → Option BufferState
  | .lane e => (s.buffers.step e).map (fun b => { s with buffers := b })
  | .waits control =>
    some { s with
      calls := s.calls.insert s.nextCall ⟨waitLimit control, .measuring .start⟩
      nextCall := s.nextCall + 1 }
  | .call n e =>
    (s.calls.lookup n).bind (fun call =>
      (call.step s.buffers e).map (fun stage => { s with calls := s.calls.insert n { call with stage := stage } }))

end BufferState

namespace LaneBuffers

variable {b c : LaneBuffers}

/-- **Some attached lane's amount is above the threshold.** -/
def Above (b : LaneBuffers) : Prop :=
  ∃ slot lane, b.lanes slot = some lane ∧ laneBufferedAmountLowThreshold < b.amount lane

/-- **The generation's channel has been closed, or a call that will close it is pending.** -/
def Due (b : LaneBuffers) (generation : Nat) : Prop := generation < b.generation ∨ b.pending ≠ []

/-- **What any change of the lanes leaves of a waiter's reason to wait**: a generation that was due stays due, and a lane
that goes, or falls below the threshold, makes every generation due. -/
structure Passes (b c : LaneBuffers) : Prop where
  generation : b.generation ≤ c.generation
  due : ∀ g, g ≤ b.generation → b.Due g → c.Due g
  lanes : ∀ g, g ≤ b.generation → ∀ slot lane, b.lanes slot = some lane → c.Due g ∨ c.lanes slot = some lane
  above : ∀ g, g ≤ b.generation → b.Above → c.Due g ∨ c.Above

theorem passes_of_due (hgeneration : b.generation ≤ c.generation) (hdue : ∀ g, g ≤ b.generation → c.Due g) : Passes b c :=
  ⟨hgeneration, fun g hg _ => hdue g hg, fun g hg _ _ _ => .inl (hdue g hg), fun g hg _ => .inl (hdue g hg)⟩

section

variable (hfresh : ∀ slot lane, b.lanes slot = some lane → lane < b.nextLane) {e : BufferLaneEvent} (hstep : b.step e = some c)
include hfresh e hstep

theorem step_passes : Passes b c := by
  cases e with
  | changes lane amount =>
    cases hstep
    refine ⟨le_rfl, fun g _ => Or.imp id (fun h hnil => h (List.append_eq_nil_iff.1 hnil).2), fun g _ slot lane h => .inr h,
      fun g _ habove => ?_⟩
    obtain ⟨slot, other, hslot, hother⟩ := habove
    by_cases hsame : other = lane
    · by_cases hlow : amount ≤ laneBufferedAmountLowThreshold
      · -- the lane's amount crosses the threshold, and its channel has a call to make
        refine .inl (.inr ?_)
        show crossing lane (b.amount lane) amount ++ b.pending ≠ []
        rw [crossing, if_pos ⟨hsame ▸ hother, hlow⟩]
        exact List.cons_ne_nil _ _
      · refine .inr ⟨slot, other, hslot, ?_⟩
        simp_all
    · refine .inr ⟨slot, other, hslot, ?_⟩
      simp_all
  | attaches slot amount =>
    obtain ⟨⟨-, hslot⟩, rfl⟩ := Steps.of_guard hstep
    have hkept : ∀ s lane, b.lanes s = some lane → update b.lanes slot (some b.nextLane) s = some lane := by
      grind
    refine ⟨le_rfl, fun g _ => id, fun g _ s lane h => .inr (hkept s lane h), fun g _ habove => ?_⟩
    obtain ⟨s, lane, hs, hlane⟩ := habove
    refine .inr ⟨s, lane, hkept s lane hs, ?_⟩
    grind
  | detaches slot =>
    obtain ⟨lane, hlane, rfl⟩ := Option.map_eq_some_iff.1 hstep
    exact passes_of_due le_rfl (fun _ _ => .inr (List.cons_ne_nil _ _))
  | closes =>
    obtain ⟨-, hc⟩ := Option.ite_none_left_eq_some.1 hstep
    cases hc
    exact passes_of_due le_rfl (fun _ _ => .inr (List.cons_ne_nil _ _))
  | clears slot =>
    obtain ⟨hmem, rfl⟩ := Steps.of_guard hstep
    exact passes_of_due le_rfl (fun _ _ => .inr (List.ne_nil_of_mem hmem))
  | signals cause =>
    obtain ⟨-, rfl⟩ := Steps.of_guard hstep
    exact passes_of_due (Nat.le_succ _) (fun g hg => .inl (Nat.lt_succ_of_le hg))

theorem step_fresh : ∀ slot lane, c.lanes slot = some lane → lane < c.nextLane := by
  have hcleared : ∀ gone slot lane, update b.lanes gone none slot = some lane → lane < b.nextLane := by grind
  cases e with
  | changes lane amount =>
    cases hstep
    exact hfresh
  | attaches slot amount =>
    obtain ⟨-, rfl⟩ := Steps.of_guard hstep
    grind
  | detaches slot =>
    obtain ⟨lane, hlane, rfl⟩ := Option.map_eq_some_iff.1 hstep
    exact hcleared slot
  | closes =>
    obtain ⟨-, hc⟩ := Option.ite_none_left_eq_some.1 hstep
    cases hc
    exact hfresh
  | clears slot =>
    obtain ⟨-, rfl⟩ := Steps.of_guard hstep
    exact hcleared slot
  | signals cause =>
    obtain ⟨-, rfl⟩ := Steps.of_guard hstep
    exact hfresh

end

/-! ### The second measurement -/

/-- **A measurement made since the generation was captured**: as long as no lane has been read above the threshold the sum is
within one threshold a slot, and a lane that is loaded is still attached, or the generation is due. -/
structure Measured (b : LaneBuffers) (generation : Nat) (r : AggregateRead) : Prop where
  next : r.next ≤ transportLaneCount
  loadable : r.loaded ≠ none → r.next < transportLaneCount
  small : r.total ≤ r.next * laneBufferedAmountLowThreshold ∨ b.Due generation ∨ b.Above
  held : ∀ lane, r.loaded = some lane → b.Due generation ∨ ∃ slot, b.lanes slot = some lane

theorem Measured.start (b : LaneBuffers) (generation : Nat) : Measured b generation .start where
  next := Nat.zero_le _
  loadable h := absurd rfl h
  small := .inl (Nat.zero_le _)
  held _ h := by cases h

theorem Measured.passes {g : Nat} {r : AggregateRead} (h : Measured b g r) (hg : g ≤ b.generation) (hp : Passes b c) :
    Measured c g r where
  next := h.next
  loadable := h.loadable
  small := by
    rcases h.small with hsmall | hdue | habove
    · exact .inl hsmall
    · exact .inr (.inl (hp.due g hg hdue))
    · exact .inr (hp.above g hg habove)
  held lane hlane := by
    rcases h.held lane hlane with hdue | ⟨slot, hslot⟩
    · exact .inl (hp.due g hg hdue)
    · exact (hp.lanes g hg slot lane hslot).imp id (fun hkept => ⟨slot, hkept⟩)

theorem Measured.advance {g : Nat} {r r' : AggregateRead} (h : Measured b g r)
    (ha : r.advance b.lanes b.amount = some r') : Measured b g r' := by
  unfold AggregateRead.advance at ha
  split at ha
  · rename_i lane hloaded
    cases ha
    have hnext := h.loadable (by rw [hloaded]; exact nofun)
    refine ⟨hnext, fun hc => absurd rfl hc, ?_, nofun⟩
    rcases h.small with hsmall | hrest
    · by_cases hlow : b.amount lane ≤ laneBufferedAmountLowThreshold
      · grind
      · -- the lane read above the threshold is attached, or its detaching makes the generation due
        rcases h.held lane hloaded with hdue | ⟨slot, hslot⟩
        · exact .inr (.inl hdue)
        · exact .inr (.inr ⟨slot, lane, hslot, Nat.lt_of_not_le hlow⟩)
    · exact .inr hrest
  · rename_i hloaded
    split at ha
    · rename_i hnext
      split at ha
      · rename_i lane hslot
        cases ha
        refine ⟨h.next, fun _ => hnext, h.small, fun l hl => ?_⟩
        grind
      cases ha
      refine ⟨hnext, fun hc => absurd hloaded hc, h.small.imp (fun hsmall => ?_) id, h.held⟩
      exact hsmall.trans (Nat.mul_le_mul_right _ (Nat.le_succ _))
    · cases ha

/-- **A sum above the limit has a lane above the threshold in it**, or the generation is due: the limits are at least one
threshold for each lane. -/
theorem Measured.exceeds {g limit : Nat} {r : AggregateRead} (h : Measured b g r)
    (hlimit : transportLaneCount * laneBufferedAmountLowThreshold ≤ limit) (htotal : limit < r.total) :
    b.Due g ∨ b.Above := by
  rcases h.small with hsmall | hrest
  · have hmul := Nat.mul_le_mul_right laneBufferedAmountLowThreshold h.next
    omega
  · exact hrest

end LaneBuffers

theorem waitLimit_threshold (control : Bool) :
    transportLaneCount * laneBufferedAmountLowThreshold ≤ waitLimit control := by
  cases control <;> decide

namespace BufferState

variable {s t : BufferState}

def Waits (b : LaneBuffers) : BufferWaiter → Prop
  | .rechecking generation read => generation ≤ b.generation ∧ b.Measured generation read
  | .blocked generation => generation ≤ b.generation ∧ (b.Due generation ∨ b.Above)
  | _ => True

structure Sound (s : BufferState) : Prop where
  fresh : ∀ slot lane, s.buffers.lanes slot = some lane → lane < s.buffers.nextLane
  limits : ∀ n call, s.calls.lookup n = some call →
    transportLaneCount * laneBufferedAmountLowThreshold ≤ call.limit
  waits : ∀ n call, s.calls.lookup n = some call → Waits s.buffers call.stage

theorem Sound.init : Sound init where
  fresh _ _ h := by cases h
  limits _ _ h := by cases h
  waits _ _ h := by cases h

theorem Waits.passes {b c : LaneBuffers} {stage : BufferWaiter} (h : Waits b stage) (hp : b.Passes c) : Waits c stage := by
  cases stage with
  | rechecking generation read => exact ⟨h.1.trans hp.generation, h.2.passes h.1 hp⟩
  | blocked generation =>
    refine ⟨h.1.trans hp.generation, ?_⟩
    rcases h.2 with hdue | habove
    · exact .inl (hp.due generation h.1 hdue)
    · exact hp.above generation h.1 habove
  | measuring _ | capturing | returned _ => trivial

theorem Waits.step {b : LaneBuffers} {call : BufferCall} {stage : BufferWaiter} {e : WaitStep} (h : Waits b call.stage)
    (hlimit : transportLaneCount * laneBufferedAmountLowThreshold ≤ call.limit) (hstep : call.step b e = some stage) :
    Waits b stage := by
  cases e <;> simp only [BufferCall.step] at hstep
  case reads =>
    split at hstep
    · obtain ⟨read', -, rfl⟩ := Option.map_eq_some_iff.1 hstep
      trivial
    · rename_i generation read hstage
      rw [hstage] at h
      obtain ⟨read', hread, rfl⟩ := Option.map_eq_some_iff.1 hstep
      exact ⟨h.1, h.2.advance hread⟩
    · cases hstep
  case decides =>
    split at hstep
    · obtain ⟨-, rfl⟩ := Steps.of_guard hstep
      split <;> trivial
    · rename_i generation read hstage
      rw [hstage] at h
      obtain ⟨-, rfl⟩ := Steps.of_guard hstep
      split
      · trivial
      · rename_i htotal
        exact ⟨h.1, h.2.exceeds hlimit (Nat.lt_of_not_le htotal)⟩
    · cases hstep
  case captures =>
    split at hstep <;> cases hstep
    exact ⟨le_rfl, .start _ _⟩
  case wakes =>
    split at hstep
    · obtain ⟨-, rfl⟩ := Steps.of_guard hstep
      trivial
    · cases hstep
  case cancels =>
    split at hstep <;> cases hstep
    trivial

theorem Sound.step (h : s.Sound) {e : BufferEvent} (hstep : s.step e = some t) : t.Sound := by
  cases e with
  | lane e =>
    obtain ⟨b, hb, rfl⟩ := Option.map_eq_some_iff.1 hstep
    exact ⟨LaneBuffers.step_fresh h.fresh hb, h.limits,
      fun n call hn => (h.waits n call hn).passes (LaneBuffers.step_passes h.fresh hb)⟩
  | waits control =>
    cases hstep
    refine ⟨h.fresh, fun n call hn => ?_, fun n call hn => ?_⟩
    · rw [Assoc.lookup_insert_eq] at hn
      split at hn
      · cases hn
        exact waitLimit_threshold control
      · exact h.limits n call hn
    · rw [Assoc.lookup_insert_eq] at hn
      split at hn
      · cases hn
        trivial
      · exact h.waits n call hn
  | call n e =>
    obtain ⟨call, hcall, hmap⟩ := Option.bind_eq_some_iff.1 hstep
    obtain ⟨stage, hstage, rfl⟩ := Option.map_eq_some_iff.1 hmap
    refine ⟨h.fresh, fun m d hm => ?_, fun m d hm => ?_⟩
    · rw [Assoc.lookup_insert_eq] at hm
      split at hm
      · cases hm
        exact h.limits n call hcall
      · exact h.limits m d hm
    · rw [Assoc.lookup_insert_eq] at hm
      split at hm
      · cases hm
        exact (h.waits n call hcall).step (h.limits n call hcall) hstage
      · exact h.waits m d hm

/-- **No wakeup is lost.**  In every run, a call that is blocked on a generation whose channel has not been closed waits for
an attached lane above the threshold, or for a `signalBufferChanged` that is already to be called. -/
theorem no_lost_wakeup (es : List BufferEvent) (s : BufferState) (hrun : Steps.run step init es = some s) (n limit g : Nat)
    (hblocked : s.calls.lookup n = some ⟨limit, .blocked g⟩) (hopen : ¬ g < s.buffers.generation) :
    (∃ slot lane, s.buffers.lanes slot = some lane ∧ laneBufferedAmountLowThreshold < s.buffers.amount lane) ∨
      ∃ cause, cause ∈ s.buffers.pending ∧
        ∀ b, s.buffers.step (.signals cause) = some b → g < b.generation := by
  have hsound : s.Sound := Steps.run_inv step Sound (fun _ _ _ hi hstep => hi.step hstep) es init s .init hrun
  obtain ⟨hle, hdue | habove⟩ := hsound.waits n _ hblocked
  · rcases hdue with hclosed | hpending
    · exact absurd hclosed hopen
    obtain ⟨cause, hcause⟩ := List.exists_mem_of_ne_nil _ hpending
    refine .inr ⟨cause, hcause, fun b hb => ?_⟩
    obtain ⟨-, rfl⟩ := Steps.of_guard hb
    exact Nat.lt_succ_of_le hle
  · exact .inl habove

def blocksOnLane : List BufferEvent :=
  [.lane (.attaches ⟨0, by decide⟩ (4 * 1024 * 1024)), .waits false] ++ List.replicate 5 (.call 0 .reads) ++
    [.call 0 .decides, .call 0 .captures] ++ List.replicate 5 (.call 0 .reads) ++ [.call 0 .decides]

def drainsMeanwhile : List BufferEvent := blocksOnLane ++ [.lane (.changes 0 0)]

theorem no_lost_wakeup_drained :
    ∃ s, Steps.run step init drainsMeanwhile = some s ∧ s.calls.lookup 0 = some ⟨bulkBufferHighWater, .blocked 0⟩ ∧
      s.buffers.pending = [.low 0] ∧
      ((∃ slot lane, s.buffers.lanes slot = some lane ∧ laneBufferedAmountLowThreshold < s.buffers.amount lane) ∨
        ∃ cause, cause ∈ s.buffers.pending ∧ ∀ b, s.buffers.step (.signals cause) = some b → 0 < b.generation) := by
  obtain ⟨s, hrun, hblocked, hgeneration, hpending⟩ : ∃ s, Steps.run step init drainsMeanwhile = some s ∧
      s.calls.lookup 0 = some ⟨bulkBufferHighWater, .blocked 0⟩ ∧ s.buffers.generation = 0 ∧ s.buffers.pending = [.low 0] :=
    Steps.exists_run (by decide +kernel)
  exact ⟨s, hrun, hblocked, hpending,
    no_lost_wakeup drainsMeanwhile s hrun 0 _ 0 hblocked (by rw [hgeneration]; exact lt_irrefl 0)⟩

end BufferState
end YuriRtc
