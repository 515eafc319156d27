import YuriRtc.PageClient
/-!
# PageIds — the worker's ids and the page's own

The worker numbers its requests, and does not use a number again that is at work (`newId`).  The page numbers them for the
wire with `createRequestIdSource`, which starts again at one after 2³² - 1 without asking who is at work (`freshId`): a request
that stays while 2³² - 2 others come and go gets its entries overwritten by the one after them (`overwritten`).
-/
namespace YuriRtc
namespace PageClient

def newId (s : PageClient) : PageEvent → Bool
  | .req swId _ _ _ => (s.maps.requestBySw.lookup swId).isNone
  | .direct _ _ | .directCredit _ _ _ | .cancelDirect _ => false
  | _ => true

def freshId (s : PageClient) : PageEvent → Bool
  | .req _ _ _ _ | .direct _ _ | .lanes _ _ _ | .resume _ _ => (s.maps.inbound.lookup s.nextRequestId).isNone
  | _ => true

/-! ### The source wraps -/

def interactiveHead : PageHead := ⟨.interactive, [], false, 16⟩

def firstEntry : InboundRequest := ⟨1, 0, 0, false, 0⟩

def firstMaps : RequestMaps := RequestMaps.empty.register 1 16 firstEntry false

/-- `n` requests have been asked for, and all but the first have ended. -/
def cycled (n : Nat) : PageClient :=
  { connected with
    maps := firstMaps
    nextStart := n
    nextRequestId := if n = maxRequestId then 1 else n + 1
    channelLoads := (∅ : AList (fun _ : Nat => Nat)).insert 0 1
    posts := (List.range (n - 1)).map fun k => .finish (k + 1) (k + 2 : Nat) }

def cycle (n : Nat) : List PageEvent :=
  [.req (n + 1 : Nat) interactiveHead false {}, .frame 0 (n + 1) .resEnd]

/-- The next request has begun, under the id `id`. -/
def asked (n id : Nat) (swId : Int) : PageClient :=
  { (cycled n).takeId with
    maps := firstMaps.register id 16 ⟨swId, 0, n, false, (cycled n).posts.length⟩ false
    nextStart := n + 1
    channelLoads := (∅ : AList (fun _ : Nat => Nat)).insert 0 2 }

theorem cycled_startRequest (n : Nat) (swId : Int) :
    (cycled n).startRequest swId interactiveHead false {} = asked n (cycled n).nextRequestId swId := by
  have hends : (cycled n).startRequest swId interactiveHead false {} =
      { asked n (cycled n).nextRequestId swId with
        startingRequests := (∅ : AList fun _ : Int => Nat).insert swId n
        starts := (∅ : AList fun _ : Nat => PageStart).insert n
          ⟨swId, interactiveHead, false, false, false, .opening, (cycled n).posts.length⟩ }.ends n swId := rfl
  have hmine : ((∅ : AList fun _ : Int => Nat).insert swId n).lookup swId = some n := AList.lookup_insert _
  rw [hends, ends]
  simp only
  rw [if_pos hmine, Assoc.erase_insert rfl, Assoc.erase_insert rfl]
  rfl

variable {n : Nat}

theorem firstMaps_lookup (hn : 1 ≤ n) :
    firstMaps.inbound.lookup (n + 1) = none ∧ firstMaps.outbound.lookup (n + 1) = none ∧
      firstMaps.swByRequest.lookup (n + 1) = none ∧ firstMaps.requestBySw.lookup ((n + 1 : Nat) : Int) = none ∧
      firstMaps.requestAbortControllers.lookup (n + 1) = none := by
  have hid : n + 1 ≠ 1 := by omega
  have hsw : ((n + 1 : Nat) : Int) ≠ 1 := by omega
  exact ⟨AList.lookup_insert_ne hid, AList.lookup_insert_ne hid, AList.lookup_insert_ne hid, AList.lookup_insert_ne hsw,
    AList.lookup_insert_ne hid⟩

theorem firstMaps_register_remove (hn : 1 ≤ n) (entry : InboundRequest) (hsw : entry.swId = (n + 1 : Nat)) :
    (firstMaps.register (n + 1) 16 entry false).remove (n + 1) = firstMaps := by
  obtain ⟨hin, hout, hby, hof, hcontrollers⟩ := firstMaps_lookup hn
  have hlookup : (firstMaps.swByRequest.insert (n + 1) entry.swId).lookup (n + 1) = some entry.swId := AList.lookup_insert _
  unfold RequestMaps.remove RequestMaps.register
  simp only [hlookup, Bool.false_eq_true, if_false]
  rw [Assoc.erase_insert hin, Assoc.erase_insert hout, Assoc.erase_insert hby, Assoc.erase_insert hcontrollers, hsw,
    Assoc.erase_insert hof]
  rfl

theorem finish_of_no_starts (s : PageClient) {id n : Nat} {entry : InboundRequest} (hstarts : s.starts = ∅)
    (hin : s.maps.inbound.lookup id = some entry) (hcontroller : s.maps.requestAbortControllers.lookup id = some n)
    (hchannel : entry.channel = 0) (hlanes : s.channels = [0]) (hloads : s.channelLoads = (∅ : AList (fun _ : Nat => Nat)).insert 0 2)
    (hwaiters : s.laneWaiters = []) :
    s.finish id = { s with maps := s.maps.remove id, channelLoads := (∅ : AList (fun _ : Nat => Nat)).insert 0 1 } := by
  obtain ⟨maps, starting, starts, next, nextId, direct, lanes, nextLane, labels, ready, buffered, loads, promises, waiters,
    opening, timer, port, down, posts⟩ := s
  subst hstarts hlanes hloads hwaiters
  obtain ⟨swId, c, start, constrained, arrived⟩ := entry
  subst hchannel
  unfold PageClient.finish PageClient.abort
  simp only [hin, hcontroller]
  rfl

def ended (n : Nat) : PageClient :=
  { asked n (n + 1) (n + 1 : Nat) with posts := (cycled n).posts ++ [.finish n (n + 1 : Nat)] }

theorem asked_onFrame (hn : 1 ≤ n) (hlt : n < maxRequestId) :
    (asked n (n + 1) (n + 1 : Nat)).onFrame 0 (n + 1) .resEnd = cycled (n + 1) := by
  have hentry : (asked n (n + 1) (n + 1 : Nat)).maps.inbound.lookup (n + 1) =
      some ⟨(n + 1 : Nat), 0, n, false, (cycled n).posts.length⟩ := AList.lookup_insert _
  have hworker : decide (((n + 1 : Nat) : Int) < 0) = false := decide_eq_false (by omega)
  have hpost : (asked n (n + 1) (n + 1 : Nat)).post (.finish n (n + 1 : Nat)) = ended n := if_pos ⟨rfl, hworker⟩
  have hfinish := finish_of_no_starts (ended n) (n := n) rfl hentry (AList.lookup_insert _) rfl rfl rfl rfl
  unfold PageClient.onFrame
  simp only [hentry, ne_eq, not_true_eq_false, if_false]
  rw [hpost, hfinish]
  have hmaps : (ended n).maps.remove (n + 1) = firstMaps := firstMaps_register_remove hn _ rfl
  have hposts : (ended n).posts = (cycled (n + 1)).posts := by
    obtain ⟨m, rfl⟩ : ∃ m, n = m + 1 := ⟨n - 1, by omega⟩
    show (List.range m).map _ ++ [PagePost.finish (m + 1) (m + 2 : Nat)] = (List.range (m + 1)).map _
    rw [List.range_succ, List.map_append]
    rfl
  have hid : (ended n).nextRequestId = (cycled (n + 1)).nextRequestId := by
    show (if (if n = maxRequestId then 1 else n + 1) = maxRequestId then 1 else (if n = maxRequestId then 1 else n + 1) + 1) = _
    rw [if_neg (ne_of_lt hlt)]
    rfl
  rw [hmaps, hposts, hid]
  rfl

theorem cycled_req (n : Nat) : (cycled n).step (.req (n + 1 : Nat) interactiveHead false {}) =
    some (asked n (cycled n).nextRequestId (n + 1 : Nat)) := by
  rw [← cycled_startRequest]
  exact if_pos ⟨rfl, by omega⟩

theorem cycled_cycle (hn : 1 ≤ n) (hlt : n < maxRequestId) : Steps.run step (cycled n) (cycle n) = some (cycled (n + 1)) := by
  have hid : (cycled n).nextRequestId = n + 1 := if_neg (ne_of_lt hlt)
  have hreq := cycled_req n
  rw [hid] at hreq
  have hframe : (asked n (n + 1) (n + 1 : Nat)).step (.frame 0 (n + 1) .resEnd) = some (cycled (n + 1)) :=
    congrArg some (asked_onFrame hn hlt)
  rw [cycle, Steps.run_cons step hreq, Steps.run_cons step hframe]
  rfl

theorem cycled_newId (hn : 1 ≤ n) : (cycled n).newId (.req (n + 1 : Nat) interactiveHead false {}) = true :=
  Option.isNone_iff_eq_none.2 (firstMaps_lookup hn).2.2.2.1

theorem wraps : ∀ n, 1 ≤ n → n ≤ maxRequestId → ∃ events,
    Steps.Meets step (fun s e => s.newId e = true) connected events ∧ Steps.run step connected events = some (cycled n)
  | 0, hn, _ => absurd hn (by omega)
  | 1, _, _ => ⟨[.req 1 interactiveHead false {}], ⟨rfl, trivial⟩, rfl⟩
  | n + 2, _, hle => by
    obtain ⟨events, hmeets, hrun⟩ := wraps (n + 1) (by omega) (by omega)
    refine ⟨events ++ cycle (n + 1), hmeets.append hrun ⟨cycled_newId (by omega), ?_⟩, ?_⟩
    · rw [cycled_req]
      exact ⟨rfl, trivial⟩
    · exact Steps.run_trans hrun (cycled_cycle (by omega) (by omega))

theorem overwritten : ∃ events, Steps.Meets step (fun s e => s.newId e = true) connected events ∧
    Steps.run step connected events = some (asked maxRequestId 1 (maxRequestId + 1 : Nat)) := by
  obtain ⟨events, hmeets, hrun⟩ := wraps maxRequestId (by decide) le_rfl
  have hreq := cycled_req maxRequestId
  have hid : (cycled maxRequestId).nextRequestId = 1 := by
    show (if maxRequestId = maxRequestId then 1 else maxRequestId + 1) = 1
    rw [if_pos rfl]
  rw [hid] at hreq
  refine ⟨events ++ [.req (maxRequestId + 1 : Nat) interactiveHead false {}], hmeets.append hrun ⟨cycled_newId (by decide), ?_⟩, ?_⟩
  · rw [hreq]
    trivial
  · exact Steps.run_trans hrun ((Steps.run_cons step hreq []).trans rfl)

end PageClient
end YuriRtc
