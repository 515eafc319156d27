import YuriRtc.Assoc
import YuriRtc.Steps
/-!
# PeerRegistry — the node's table of peers and the slots of its handshakes

`content-node/peers.go`, one critical section or channel operation at a time, for any number of `answerOffer` calls, callbacks
and timers.  A connection is named by how many were added before it.  `beginHandshake` puts a token into `handshake` before it
counts itself in `handshakesActive`, and its release takes the token back before it uncounts itself.
-/
namespace YuriRtc

open Steps (of_guard run run_inv)

def maxConcurrentHandshakes : Nat := 256

/-- Where a handshake is: in the second `select`, between the token and its count, counted, or between its token taken back
and its count. -/
inductive Handshake where
  | queued
  | tracking
  | held
  | releasing
deriving DecidableEq, Repr

/-- `marked` and `reaped` are the connections that `MarkConnected` and `CloseIfUnconnected` have changed. -/
structure PeerRegistry where
  peers : AList (fun _ : Nat => Bool)
  connected : Int
  accepted : Nat
  timedOut : Nat
  handshake : Nat
  handshakesActive : Int
  handshakesRejected : Nat
  handshakes : AList (fun _ : Nat => Handshake)
  marked : List Nat
  reaped : List Nat

inductive RegistryEvent where
  | beginHandshake (id : Nat)
  | slotFree (id : Nat)
  | givesUp (id : Nat) (timeout : Bool)
  | trackHandshake (id : Nat)
  | release (id : Nat)
  | released (id : Nat)
  | add
  | markConnected (pc : Nat)
  | remove (pc : Nat)
  | closeIfUnconnected (pc : Nat)
  | closeAll
deriving DecidableEq, Repr

namespace PeerRegistry

open Assoc (tally)

def newPeerRegistry : PeerRegistry := ⟨∅, 0, 0, 0, 0, 0, 0, ∅, [], []⟩

def move (r : PeerRegistry) (id : Nat) (stage : Handshake) : PeerRegistry :=
  { r with handshakes := r.handshakes.insert id stage }

def step (r : PeerRegistry) : RegistryEvent → Option PeerRegistry
  | .beginHandshake id =>
    if r.handshakes.lookup id ≠ none then none
    else if r.handshake < maxConcurrentHandshakes then some ({ r with handshake := r.handshake + 1 }.move id .tracking)
    else some (r.move id .queued)
  | .slotFree id =>
    if r.handshakes.lookup id = some .queued ∧ r.handshake < maxConcurrentHandshakes then
      some ({ r with handshake := r.handshake + 1 }.move id .tracking)
    else none
  | .givesUp id timeout =>
    if r.handshakes.lookup id = some .queued then
      some { r with handshakes := r.handshakes.erase id, handshakesRejected := r.handshakesRejected + timeout.toNat }
    else none
  | .trackHandshake id =>
    if r.handshakes.lookup id = some .tracking then
      some ({ r with handshakesActive := r.handshakesActive + 1 }.move id .held)
    else none
  | .release id =>
    if r.handshakes.lookup id = some .held ∧ 0 < r.handshake then
      some ({ r with handshake := r.handshake - 1 }.move id .releasing)
    else none
  | .released id =>
    if r.handshakes.lookup id = some .releasing then
      some { r with handshakes := r.handshakes.erase id, handshakesActive := r.handshakesActive - 1 }
    else none
  | .add => some { r with peers := r.peers.insert r.accepted false, accepted := r.accepted + 1 }
  | .markConnected pc =>
    some (if r.peers.lookup pc = some false then
      { r with peers := r.peers.insert pc true, connected := r.connected + 1, marked := pc :: r.marked } else r)
  | .remove pc =>
    some (match r.peers.lookup pc with
      | some connected => { r with peers := r.peers.erase pc, connected := r.connected - connected.toNat }
      | none => r)
  | .closeIfUnconnected pc =>
    some (if r.peers.lookup pc = some false then
      { r with peers := r.peers.erase pc, timedOut := r.timedOut + 1, reaped := pc :: r.reaped } else r)
  | .closeAll => some { r with peers := ∅, connected := 0 }

/-! ### The slots -/

/-- What a handshake has in `handshake` and in `handshakesActive`. -/
def weight : Handshake → Int × Int
  | .queued => (0, 0)
  | .tracking => (1, 0)
  | .held => (1, 1)
  | .releasing => (0, 1)

def weigh (handshakes : AList (fun _ : Nat => Handshake)) : Int × Int := (handshakes.entries.map fun h => weight h.2).sum

structure Slots (r : PeerRegistry) : Prop where
  weighed : weigh r.handshakes = (↑r.handshake, r.handshakesActive)
  room : r.handshake ≤ maxConcurrentHandshakes

variable {r t : PeerRegistry} {e : RegistryEvent} {id : Nat} {stage : Handshake}

theorem weigh_insert (hid : r.handshakes.lookup id = some stage) (next : Handshake) :
    weigh (r.handshakes.insert id next) = weigh r.handshakes + (weight next - weight stage) := by
  have hset := Assoc.sum_set (fun h => weight h.2) hid next
  rw [weigh, weigh, add_sub, eq_sub_iff_add_eq, add_comm, hset, add_comm]

theorem weigh_erase (hid : r.handshakes.lookup id = some stage) :
    weigh (r.handshakes.erase id) = weigh r.handshakes - weight stage := by
  rw [weigh, weigh, Assoc.sum_erase (fun h => weight h.2) hid, add_sub_cancel_left]

theorem weigh_nonneg (handshakes : AList (fun _ : Nat => Handshake)) : 0 ≤ (weigh handshakes).1 := by
  unfold weigh
  induction handshakes.entries with
  | nil => exact le_rfl
  | cons h rest ih =>
    have hown : 0 ≤ (weight h.2).1 := by cases h.2 <;> decide
    exact add_nonneg hown ih

theorem Slots.released (h : Slots r) (hid : r.handshakes.lookup id = some .held) : ∃ t, r.step (.release id) = some t := by
  have hrest := weigh_nonneg (r.handshakes.erase id)
  rw [weigh_erase hid, h.weighed] at hrest
  have hpos : 0 < r.handshake := by
    simp only [weight, Prod.fst_sub] at hrest
    omega
  exact ⟨_, if_pos ⟨hid, hpos⟩⟩

theorem Slots.step (h : Slots r) (hs : r.step e = some t) : Slots t := by
  obtain ⟨hweighed, hroom⟩ := h
  cases e with
  | beginHandshake id =>
    obtain ⟨hnone, hs⟩ := Option.ite_none_left_eq_some.1 hs
    have hnew : ∀ stage, weigh (r.handshakes.insert id stage) = weight stage + weigh r.handshakes :=
      Assoc.sum_insert_new (fun h => weight h.2) (not_not.1 hnone)
    split at hs
    · cases hs
      exact ⟨by simp [move, hnew, hweighed, weight, add_comm], by assumption⟩
    · cases hs
      exact ⟨by simp [move, hnew, hweighed, weight], hroom⟩
  | slotFree id =>
    obtain ⟨⟨hid, hfree⟩, rfl⟩ := of_guard hs
    exact ⟨by simp [move, weigh_insert hid, hweighed, weight], hfree⟩
  | givesUp id | released id =>
    obtain ⟨hid, rfl⟩ := of_guard hs
    exact ⟨by simp [weigh_erase hid, hweighed, weight], hroom⟩
  | trackHandshake id =>
    obtain ⟨hid, rfl⟩ := of_guard hs
    exact ⟨by simp [move, weigh_insert hid, hweighed, weight], hroom⟩
  | release id =>
    obtain ⟨⟨hid, hpos⟩, rfl⟩ := of_guard hs
    have hleft : ((r.handshake - 1 : Nat) : Int) = r.handshake - 1 := by omega
    exact ⟨by simp [move, weigh_insert hid, hweighed, weight, hleft, sub_eq_add_neg], le_trans (Nat.sub_le ..) hroom⟩
  | add | closeAll =>
    cases hs
    exact ⟨hweighed, hroom⟩
  | markConnected pc | closeIfUnconnected pc | remove pc =>
    cases hs
    split <;> exact ⟨hweighed, hroom⟩

/-! ### The peers -/

structure Tabled (r : PeerRegistry) : Prop where
  connected : r.connected = tally (fun _ connected => connected) r.peers
  known : ∀ pc connected, r.peers.lookup pc = some connected → pc < r.accepted ∧ pc ∉ r.reaped ∧ (connected = true ↔ pc ∈ r.marked)
  marked : ∀ pc ∈ r.marked, pc < r.accepted ∧ pc ∉ r.reaped
  reaped : ∀ pc ∈ r.reaped, pc < r.accepted
  once : r.reaped.Nodup ∧ r.timedOut = r.reaped.length

theorem Tabled.step (h : Tabled r) (hs : r.step e = some t) : Tabled t := by
  have hconnected := h.connected
  have hknown := h.known
  have hmarked := h.marked
  have hreaped := h.reaped
  have honce := h.once
  cases e with
  | add =>
    cases hs
    have hnew : r.peers.lookup r.accepted = none := Option.eq_none_iff_forall_ne_some.2 fun b hb =>
      lt_irrefl _ (hknown _ b hb).1
    exact ⟨by simp [Assoc.tally_insert_new hnew, hconnected], by grind [Assoc.lookup_insert_eq], by grind, by grind, honce⟩
  | markConnected pc =>
    cases hs
    split
    · rename_i hpc
      have hset := Assoc.tally_set (p := fun _ connected => connected) hpc true
      simp only [Bool.toNat_true, Bool.toNat_false] at hset
      exact ⟨by dsimp only; omega, by grind [Assoc.lookup_insert_eq], by grind, hreaped, honce⟩
    · exact h
  | remove pc =>
    cases hs
    split
    · rename_i connected hpc
      exact ⟨by simp [hconnected, Assoc.tally_erase hpc], by grind [Assoc.lookup_erase_eq], hmarked, hreaped, honce⟩
    · exact h
  | closeIfUnconnected pc =>
    cases hs
    split
    · rename_i hpc
      exact ⟨by simp [hconnected, Assoc.tally_erase hpc], by grind [Assoc.lookup_erase_eq], by grind, by grind, by grind⟩
    · exact h
  | closeAll =>
    cases hs
    exact { h with connected := rfl, known := fun _ _ hpc => by cases hpc }
  | beginHandshake id =>
    obtain ⟨-, hs⟩ := Option.ite_none_left_eq_some.1 hs
    split at hs <;> cases hs <;> exact { h with }
  | slotFree id | givesUp id | trackHandshake id | release id | released id =>
    obtain ⟨-, rfl⟩ := of_guard hs
    exact { h with }

theorem tabled_new : Tabled newPeerRegistry where
  connected := rfl
  known _ _ h := by cases h
  marked _ h := by cases h
  reaped _ h := by cases h
  once := ⟨List.nodup_nil, rfl⟩

/-- **The registry's books.**  In every run of handshakes, callbacks and timers: a token of the channel belongs to a handshake
that has not released it, there are at most 256, and no release has to wait for one; `handshakesActive` counts the handshakes
between their two counts, and `connected` the peers that are connected.  A peer that has been marked connected is never
reaped, and none is reaped twice. -/
theorem registry_accounts (events : List RegistryEvent) (r : PeerRegistry)
    (hrun : run step newPeerRegistry events = some r) :
    weigh r.handshakes = (↑r.handshake, r.handshakesActive) ∧ r.handshake ≤ maxConcurrentHandshakes ∧
    (∀ id, r.handshakes.lookup id = some .held → ∃ t, r.step (.release id) = some t) ∧
    r.connected = tally (fun _ connected => connected) r.peers ∧
    (∀ pc connected, r.peers.lookup pc = some connected → pc ∉ r.reaped ∧ (connected = true ↔ pc ∈ r.marked)) ∧
    (∀ pc ∈ r.marked, pc ∉ r.reaped) ∧ r.reaped.Nodup ∧ r.timedOut = r.reaped.length := by
  have hslots : Slots r := run_inv step Slots (fun _ _ _ h hs => h.step hs) events _ r ⟨rfl, Nat.zero_le _⟩ hrun
  have htabled : Tabled r :=
    run_inv step Tabled (fun _ _ _ h hs => h.step hs) events _ r tabled_new hrun
  exact ⟨hslots.weighed, hslots.room, fun _ => hslots.released, htabled.connected, fun pc b hpc => (htabled.known pc b hpc).2,
    fun pc hpc => (htabled.marked pc hpc).2, htabled.once⟩

/-- A second peer is connected when both deadlines run out; its handshake is over before it is uncounted. -/
def secondConnects : List RegistryEvent :=
  [.beginHandshake 0, .trackHandshake 0, .add, .beginHandshake 1, .trackHandshake 1, .add, .markConnected 1, .release 1,
    .closeIfUnconnected 1, .closeIfUnconnected 0]

theorem registry_accounts_reaped : ∃ r, run step newPeerRegistry secondConnects = some r ∧ r.handshake = 1 ∧
    r.handshakesActive = 2 ∧ r.reaped = [0] ∧ r.connected = 1 ∧ ∀ pc ∈ r.marked, pc ∉ r.reaped := by
  obtain ⟨r, hrun, hhandshake, hactive, hreaped, hconnected⟩ : ∃ r, run step newPeerRegistry secondConnects = some r ∧
      r.handshake = 1 ∧ r.handshakesActive = 2 ∧ r.reaped = [0] ∧ r.connected = 1 :=
    Steps.exists_run (by decide +kernel)
  exact ⟨r, hrun, hhandshake, hactive, hreaped, hconnected, (registry_accounts secondConnects r hrun).2.2.2.2.2.1⟩

end PeerRegistry

end YuriRtc
