import YuriRtc.CarriedSocket
/-!
# SocketSends — the order of `send` calls and the order of their frames

`CarriedWebSocket.send` of `packages/loader/src/websocket.ts` on a socket that is open, with a carrier that takes every
frame: strings and buffers are transmitted in the call, a Blob when its bytes have been read.  Calls are numbered from zero;
`handed` are the numbers of the calls whose frames the carrier has been handed, in that order, and `reading` those of the
Blobs still being read.
-/
namespace YuriRtc

open Steps (exists_run run run_inv)

structure SocketSends where
  socket : CarriedSocket
  calls : List WebSocketMessage
  reading : List Nat
  handed : List Nat
  closed : Option WebSocketClose

inductive SendEvent where
  | send (message : WebSocketMessage)
  | sendBlob (data : Bytes)
  | blobRead (index : Nat)
  | close (code : Nat) (reason : Bytes)
deriving DecidableEq, Repr

namespace SocketSends

variable {s t : SocketSends} {e : SendEvent} {n : Nat}

open CarriedSocket (opening)

def opened : SocketSends where
  socket := { opening with page := { opening.page with readyState := .isOpen }, toNode := [] }
  calls := []
  reading := []
  handed := []
  closed := none

def step (s : SocketSends) : SendEvent → Option SocketSends
  | .send message =>
    if s.closed = none ∧ message.data.length ≤ maxWebSocketMessageBytes then
      (s.socket.step (.send message false)).map (fun socket =>
        { s with socket := socket, calls := s.calls ++ [message], handed := s.handed ++ [s.calls.length] })
    else none
  | .sendBlob data =>
    if s.closed = none ∧ data.length ≤ maxWebSocketMessageBytes then
      (s.socket.step (.sendBlob data)).map (fun socket =>
        { s with socket := socket, calls := s.calls ++ [⟨.binary, data⟩], reading := s.reading ++ [s.calls.length] })
    else none
  | .blobRead index =>
    (s.socket.step (.blobRead index false)).map (fun socket =>
      { s with
        socket := socket
        reading := s.reading.eraseIdx index
        handed := s.handed ++ if s.socket.page.readyState = .isOpen then s.reading[index]?.toList else [] })
  | .close code reason =>
    match s.closed, encodeWebSocketClose code reason with
    | none, some close =>
      (s.socket.step (.close code reason false)).map (fun socket => { s with socket := socket, closed := some close })
    | _, _ => none

/-- **Nothing overtakes a Blob**: a string or a buffer is sent, and the socket closed, only while no Blob is being read, and
the Blob that is read is the first of those being read. -/
def InTurn (s : SocketSends) : SendEvent → Prop
  | .send _ => s.reading = []
  | .sendBlob _ => True
  | .blobRead index => index = 0
  | .close _ _ => s.reading = []

instance (s : SocketSends) (e : SendEvent) : Decidable (s.InTurn e) := by
  unfold InTurn
  split <;> infer_instance

/-! ### What a step does -/

/-- **The books of the calls**: what the carrier was handed are the frames of the calls in `handed`, and what is being read
are the bytes of the calls in `reading`; while the socket is open every call is in one of the two. -/
structure Books (s : SocketSends) : Prop where
  stack : s.socket.page.stack = []
  state : s.socket.page.readyState = if s.closed.isSome then .closing else .isOpen
  blobs : s.reading.map (fun n => s.calls[n]?) = s.socket.page.blobs.map (fun data => some ⟨.binary, data⟩)
  sizes : ∀ data ∈ s.socket.page.blobs, data.length ≤ maxWebSocketMessageBytes
  frames : s.socket.toNode = s.handed.filterMap (fun n => (s.calls[n]?).map .wsData) ++ (s.closed.map .wsClose).toList
  below : ∀ n ∈ s.handed ++ s.reading, n < s.calls.length
  sorted : s.reading.Pairwise (· < ·)
  shared : s.closed = none → (s.handed ++ s.reading).Perm (List.range s.calls.length)
  lost : s.closed ≠ none → s.reading ≠ [] → s.handed.length < s.calls.length

theorem Books.opened : Books opened where
  stack := rfl
  state := rfl
  blobs := rfl
  sizes _ h := by cases h
  frames := rfl
  below _ h := by cases h
  sorted := List.Pairwise.nil
  shared _ := List.Perm.refl _
  lost h := absurd rfl h

theorem Books.isOpen (h : s.Books) (hopen : s.closed = none) : s.socket.page.readyState = .isOpen := by
  rw [h.state, hopen]
  rfl

inductive Becomes (s : SocketSends) : SendEvent → SocketSends → Prop
  | sends (message : WebSocketMessage) (hopen : s.closed = none) :
      Becomes s (.send message) { s with
        socket := { s.socket with toNode := s.socket.toNode ++ [.wsData message] }
        calls := s.calls ++ [message]
        handed := s.handed ++ [s.calls.length] }
  | sendsBlob (data : Bytes) (hopen : s.closed = none) (hsize : data.length ≤ maxWebSocketMessageBytes) :
      Becomes s (.sendBlob data) { s with
        socket := { s.socket with page := { s.socket.page with blobs := s.socket.page.blobs ++ [data] } }
        calls := s.calls ++ [⟨.binary, data⟩]
        reading := s.reading ++ [s.calls.length] }
  | reads (index : Nat) (data : Bytes) (n : Nat) (hopen : s.closed = none) (hblob : s.socket.page.blobs[index]? = some data)
      (hn : s.reading[index]? = some n) (hcall : s.calls[n]? = some ⟨.binary, data⟩) :
      Becomes s (.blobRead index) { s with
        socket := { s.socket with
          page := { s.socket.page with blobs := s.socket.page.blobs.eraseIdx index }
          toNode := s.socket.toNode ++ [.wsData ⟨.binary, data⟩] }
        reading := s.reading.eraseIdx index
        handed := s.handed ++ [n] }
  | drops (index : Nat) (hclosed : s.closed ≠ none) (hindex : index < s.reading.length) :
      Becomes s (.blobRead index) { s with
        socket := { s.socket with page := { s.socket.page with blobs := s.socket.page.blobs.eraseIdx index } }
        reading := s.reading.eraseIdx index }
  | closes (code : Nat) (reason : Bytes) (close : WebSocketClose) (hopen : s.closed = none) :
      Becomes s (.close code reason) { s with
        socket := { s.socket with
          page := { s.socket.page with readyState := .closing }
          toNode := s.socket.toNode ++ [.wsClose close] }
        closed := some close }

theorem Books.reading_at (h : s.Books) {index : Nat} {data : Bytes}
    (hblob : s.socket.page.blobs[index]? = some data) :
    ∃ n, s.reading[index]? = some n ∧ s.calls[n]? = some ⟨.binary, data⟩ := by
  have hat := congrArg (fun l => l[index]?) h.blobs
  simp_all

theorem step_becomes (h : s.Books) (hstep : s.step e = some t) : Becomes s e t := by
  cases e with
  | send message =>
    obtain ⟨⟨hopen, hsize⟩, hmap⟩ := Option.ite_none_right_eq_some.1 hstep
    obtain ⟨socket, hsocket, rfl⟩ := Option.map_eq_some_iff.1 hmap
    have hsent : s.socket.step (.send message false) =
        some { s.socket with toNode := s.socket.toNode ++ [.wsData message] } := by
      simp [CarriedSocket.step, h.isOpen hopen, CarriedSocket.transmit, not_lt.2 hsize]
    obtain rfl := Option.some.inj (hsent.symm.trans hsocket)
    exact .sends message hopen
  | sendBlob data =>
    obtain ⟨⟨hopen, hsize⟩, hmap⟩ := Option.ite_none_right_eq_some.1 hstep
    obtain ⟨socket, hsocket, rfl⟩ := Option.map_eq_some_iff.1 hmap
    have hsent : s.socket.step (.sendBlob data) =
        some { s.socket with page := { s.socket.page with blobs := s.socket.page.blobs ++ [data] } } := by
      simp [CarriedSocket.step, h.isOpen hopen]
    obtain rfl := Option.some.inj (hsent.symm.trans hsocket)
    exact .sendsBlob data hopen hsize
  | blobRead index =>
    obtain ⟨socket, hsocket, rfl⟩ := Option.map_eq_some_iff.1 hstep
    cases hblob : s.socket.page.blobs[index]? with
    | none =>
      simp [CarriedSocket.step, h.stack, hblob] at hsocket
    | some data =>
      obtain ⟨n, hn, hcall⟩ := h.reading_at hblob
      by_cases hopen : s.closed = none
      · have hsize := h.sizes data (List.mem_of_getElem? hblob)
        have hread : s.socket.step (.blobRead index false) = some { s.socket with
            page := { s.socket.page with blobs := s.socket.page.blobs.eraseIdx index }
            toNode := s.socket.toNode ++ [.wsData ⟨.binary, data⟩] } := by
          simp [CarriedSocket.step, h.stack, hblob, h.isOpen hopen, CarriedSocket.transmit, not_lt.2 hsize]
        obtain rfl := Option.some.inj (hread.symm.trans hsocket)
        rw [if_pos (h.isOpen hopen), hn]
        exact .reads index data n hopen hblob hn hcall
      · have hstate : s.socket.page.readyState = .closing := by simp [h.state, hopen]
        have hread : s.socket.step (.blobRead index false) =
            some { s.socket with page := { s.socket.page with blobs := s.socket.page.blobs.eraseIdx index } } := by
          simp [CarriedSocket.step, h.stack, hblob, hstate]
        obtain rfl := Option.some.inj (hread.symm.trans hsocket)
        rw [if_neg (by rw [hstate]; exact nofun), List.append_nil]
        exact .drops index hopen (List.getElem?_eq_some_iff.1 hn).1
  | close code reason =>
    simp only [step] at hstep
    split at hstep
    · rename_i close hopen hclose
      obtain ⟨socket, hsocket, rfl⟩ := Option.map_eq_some_iff.1 hstep
      have hsent : s.socket.step (.close code reason false) = some { s.socket with
          page := { s.socket.page with readyState := .closing }
          toNode := s.socket.toNode ++ [.wsClose close] } := by
        simp [CarriedSocket.step, CarriedSocket.sendClose, h.isOpen hopen, hclose]
      obtain rfl := Option.some.inj (hsent.symm.trans hsocket)
      exact .closes code reason close hopen
    · cases hstep

theorem getElem?_snoc {calls : List WebSocketMessage} (h : n < calls.length) (message : WebSocketMessage) :
    (calls ++ [message])[n]? = calls[n]? :=
  List.getElem?_append_left h

theorem Books.frames_snoc (h : s.Books) (message : WebSocketMessage) :
    s.handed.filterMap (fun n => ((s.calls ++ [message])[n]?).map SocketUp.wsData) =
      s.handed.filterMap (fun n => (s.calls[n]?).map SocketUp.wsData) := by
  apply List.filterMap_congr
  intro n hn
  rw [getElem?_snoc (h.below n (List.mem_append_left _ hn))]

theorem Books.blobs_snoc (h : s.Books) (message : WebSocketMessage) :
    s.reading.map (fun n => (s.calls ++ [message])[n]?) = s.reading.map (fun n => s.calls[n]?) := by
  apply List.map_congr_left
  intro n hn
  rw [getElem?_snoc (h.below n (List.mem_append_right _ hn))]

theorem Books.becomes (h : s.Books) (hb : Becomes s e t) : t.Books := by
  cases hb with
  | sends message hopen =>
    refine ⟨h.stack, h.state, (h.blobs_snoc message).trans h.blobs, h.sizes, ?_, fun n hn => ?_, h.sorted, fun _ => ?_,
      fun hclosed => absurd hopen hclosed⟩
    · have hframes := h.frames
      rw [hopen] at hframes
      simp [hframes, hopen, h.frames_snoc]
    · simp only [List.length_append, List.length_singleton]
      rcases List.mem_append.1 hn with hn | hn
      · rcases List.mem_append.1 hn with hn | hn
        · exact Nat.lt_succ_of_lt (h.below n (List.mem_append_left _ hn))
        · simp_all
      · exact Nat.lt_succ_of_lt (h.below n (List.mem_append_right _ hn))
    · rw [List.length_append, List.length_singleton, List.range_succ, List.append_assoc]
      refine (List.Perm.append_left s.handed List.perm_append_comm).trans ?_
      rw [← List.append_assoc]
      exact (h.shared hopen).append_right _
  | sendsBlob data hopen hsize =>
    refine ⟨h.stack, h.state, ?_, fun d hd => ?_, ?_, fun n hn => ?_, ?_, fun _ => ?_, fun hclosed => absurd hopen hclosed⟩
    · rw [List.map_append, List.map_append, h.blobs_snoc, h.blobs]
      simp
    · rcases List.mem_append.1 hd with hd | hd
      · exact h.sizes d hd
      · simp_all
    · exact h.frames.trans (by rw [h.frames_snoc])
    · simp only [List.length_append, List.length_singleton]
      rw [← List.append_assoc] at hn
      rcases List.mem_append.1 hn with hn | hn
      · exact Nat.lt_succ_of_lt (h.below n hn)
      · simp_all
    · refine List.pairwise_append.2 ⟨h.sorted, List.pairwise_singleton _ _, fun a ha b hb => ?_⟩
      rw [List.mem_singleton.1 hb]
      exact h.below a (List.mem_append_right _ ha)
    · rw [List.length_append, List.length_singleton, List.range_succ, ← List.append_assoc]
      exact (h.shared hopen).append_right _
  | reads index data n hopen hblob hn hcall =>
    obtain ⟨hindex, hget⟩ := List.getElem?_eq_some_iff.1 hn
    have hperm : (n :: s.reading.eraseIdx index).Perm s.reading := by
      rw [← hget]
      exact List.getElem_cons_eraseIdx_perm hindex
    have hall : (s.handed ++ [n] ++ s.reading.eraseIdx index).Perm (s.handed ++ s.reading) := by grind
    refine ⟨h.stack, h.state, ?_, fun d hd => h.sizes d (List.mem_of_mem_eraseIdx hd), ?_,
      fun m hm => h.below m (hall.mem_iff.1 hm), h.sorted.sublist (List.eraseIdx_sublist _ _), fun hc => hall.trans (h.shared hc),
      fun hclosed => absurd hopen hclosed⟩
    · rw [← List.eraseIdx_map, ← List.eraseIdx_map, h.blobs]
    · have hframes := h.frames
      simp_all
  | drops index hclosed hindex =>
    refine ⟨h.stack, h.state, ?_, fun d hd => h.sizes d (List.mem_of_mem_eraseIdx hd), h.frames, fun n hn => ?_,
      h.sorted.sublist (List.eraseIdx_sublist _ _), fun hc => absurd hc hclosed, fun _ hne => h.lost hclosed ?_⟩
    · rw [← List.eraseIdx_map, ← List.eraseIdx_map, h.blobs]
    · rcases List.mem_append.1 hn with hn | hn
      · exact h.below n (List.mem_append_left _ hn)
      · exact h.below n (List.mem_append_right _ (List.mem_of_mem_eraseIdx hn))
    · simp_all
  | closes code reason close hopen =>
    refine ⟨h.stack, rfl, h.blobs, h.sizes, ?_, h.below, h.sorted, nofun, fun _ hne => ?_⟩
    · have hframes := h.frames
      simp_all
    have hlen := (h.shared hopen).length_eq
    rw [List.length_append, List.length_range] at hlen
    have hpos : 0 < s.reading.length := List.length_pos_iff.2 hne
    grind

theorem Books.step (h : s.Books) (hstep : s.step e = some t) : t.Books :=
  h.becomes (step_becomes h hstep)

/-! ### In order, and only then -/

/-- **Every call's frame is handed over before those of the calls after it.** -/
structure Turn (s : SocketSends) : Prop where
  ordered : s.handed ++ s.reading = List.range s.calls.length
  emptied : s.closed ≠ none → s.reading = []

theorem Turn.becomes (h : s.Turn) (hok : s.InTurn e) (hb : Becomes s e t) : t.Turn := by
  have hordered := h.ordered
  cases hb with
  | sends message hopen =>
    have hnil : s.reading = [] := hok
    refine ⟨?_, fun hclosed => absurd hopen hclosed⟩
    simp [hnil, List.length_append, List.range_succ, ← hordered]
  | sendsBlob data hopen hsize =>
    refine ⟨?_, fun hclosed => absurd hopen hclosed⟩
    rw [List.length_append, List.length_singleton, List.range_succ, ← List.append_assoc, hordered]
  | reads index data n hopen hblob hn hcall =>
    obtain rfl : index = 0 := hok
    refine ⟨?_, fun hclosed => absurd hopen hclosed⟩
    obtain ⟨rest, hrest⟩ := List.head?_eq_some_iff.1 (List.head?_eq_getElem? ▸ hn)
    simpa [hrest, List.eraseIdx_cons_zero] using hordered
  | drops index hclosed hindex => simp_all [h.emptied]
  | closes code reason close hopen => exact ⟨hordered, fun _ => hok⟩

structure After (s t : SocketSends) : Prop where
  handed : s.handed <+: t.handed
  ended : s.closed ≠ none → t.closed ≠ none ∧ t.handed = s.handed ∧ t.calls = s.calls

theorem After.becomes {u : SocketSends} (h : After s t) (hb : Becomes t e u) : After s u := by
  cases hb with
  | sends message hopen =>
    exact ⟨h.handed.trans (List.prefix_append _ _), fun hclosed => absurd hopen (h.ended hclosed).1⟩
  | sendsBlob data hopen hsize => exact ⟨h.handed, fun hclosed => absurd hopen (h.ended hclosed).1⟩
  | reads index data n hopen hblob hn hcall =>
    exact ⟨h.handed.trans (List.prefix_append _ _), fun hclosed => absurd hopen (h.ended hclosed).1⟩
  | drops index hclosed hindex => exact ⟨h.handed, h.ended⟩
  | closes code reason close hopen => exact ⟨h.handed, fun hclosed => absurd hopen (h.ended hclosed).1⟩

theorem run_after {es : List SendEvent} (h : s.Books) (hrun : run step s es = some t) :
    After s t := by
  have hinv := run_inv step (fun u => u.Books ∧ After s u)
    (fun _ _ _ hi hstep => ⟨hi.1.step hstep, hi.2.becomes (step_becomes hi.1 hstep)⟩) es s t
    ⟨h, List.prefix_rfl, fun hclosed => ⟨hclosed, rfl, rfl⟩⟩ hrun
  exact hinv.2

theorem eq_range_of_prefix {l : List Nat} (h : l <+: List.range n) : l = List.range l.length := by
  have htake := List.prefix_iff_eq_take.1 h
  grind

theorem last_of_prefix_range {l : List Nat} {a : Nat} (h : l ++ [a] <+: List.range n) : l = List.range l.length ∧ a = l.length := by
  have hl := eq_range_of_prefix ((List.prefix_append l [a]).trans h)
  have hla := eq_range_of_prefix h
  rw [List.length_append, List.length_singleton, List.range_succ, ← hl] at hla
  exact ⟨hl, List.singleton_inj.1 (List.append_cancel_left hla)⟩

theorem Books.reading_nil (h : s.Books) (hopen : s.closed = none) (hlen : s.handed.length = s.calls.length) :
    s.reading = [] := by
  have hperm := (h.shared hopen).length_eq
  simp_all

theorem Books.index_zero (h : s.Books) (hopen : s.closed = none) {index : Nat}
    (hn : s.reading[index]? = some n) (hhanded : s.handed = List.range s.handed.length) (hnext : n = s.handed.length) :
    index = 0 := by
  obtain ⟨hindex, hget⟩ := List.getElem?_eq_some_iff.1 hn
  by_contra hne
  have hfirst : s.reading[0] < s.reading[index] :=
    List.pairwise_iff_getElem.1 h.sorted 0 index (by omega) hindex (Nat.pos_of_ne_zero hne)
  have hnodup : (s.handed ++ s.reading).Nodup := (h.shared hopen).nodup_iff.2 List.nodup_range
  have hmem : s.reading[0] ∈ s.handed := by grind
  exact List.disjoint_of_nodup_append hnodup hmem (List.getElem_mem _)

theorem inTurn_of_ordered : ∀ (es : List SendEvent) (s t : SocketSends), s.Books → run step s es = some t →
    t.handed = List.range t.calls.length → Steps.Meets step InTurn s es
  | [], _, _, _, _, _ => trivial
  | e :: es, s, t, h, hrun, hrange => by
    obtain ⟨u, hstep, hrest⟩ := Steps.run_cons_some step hrun
    have hu := h.step hstep
    have hafter := run_after hu hrest
    have hmeets := inTurn_of_ordered es u t hu hrest hrange
    have hprefix := hrange ▸ hafter.handed
    rw [Steps.Meets, hstep]
    refine ⟨?_, hmeets⟩
    cases step_becomes h hstep with
    | sends message hopen => exact h.reading_nil hopen (last_of_prefix_range hprefix).2.symm
    | sendsBlob data hopen hsize => trivial
    | reads index data n hopen hblob hn hcall =>
      obtain ⟨hhanded, hnext⟩ := last_of_prefix_range hprefix
      exact h.index_zero hopen hn hhanded hnext
    | drops index hclosed hindex =>
      -- a Blob that is still being read when the socket closes is never handed over
      obtain ⟨-, hhanded, hcalls⟩ := hafter.ended hclosed
      have hlost := h.lost hclosed (fun hnil => by rw [hnil] at hindex; exact absurd hindex (Nat.not_lt_zero _))
      have hlen := congrArg List.length hrange
      rw [hhanded, hcalls, List.length_range] at hlen
      exact absurd hlen (ne_of_lt hlost)
    | closes code reason close hopen =>
      obtain ⟨-, hhanded, hcalls⟩ := hafter.ended (fun hc => by cases hc)
      have hlen := congrArg List.length hrange
      rw [hhanded, hcalls, List.length_range] at hlen
      exact h.reading_nil hopen hlen

theorem filterMap_range (calls : List WebSocketMessage) :
    (List.range calls.length).filterMap (fun n => (calls[n]?).map SocketUp.wsData) = calls.map SocketUp.wsData := by
  induction calls using List.reverseRecOn with
  | nil => rfl
  | append_singleton calls message ih =>
    rw [List.length_append, List.length_singleton, List.range_succ, List.filterMap_append, List.map_append]
    congr 1
    · refine Eq.trans ?_ ih
      apply List.filterMap_congr
      simp_all [getElem?_snoc]
    · simp

/-- **The frames of the calls are in order exactly when nothing overtakes a Blob.**  Of a socket that is open and whose Blobs
have all been read in the end, the carrier has been handed each call's frame in the order of the calls, and the close behind
them all, if and only if every step was in turn. -/
theorem sends_in_order_iff (es : List SendEvent) (t : SocketSends) (hrun : run step opened es = some t)
    (hread : t.reading = []) :
    t.handed = List.range t.calls.length ∧
        t.socket.toNode = t.calls.map SocketUp.wsData ++ (t.closed.map SocketUp.wsClose).toList ↔
      Steps.Meets step InTurn opened es := by
  have hbooks : t.Books := run_inv step Books (fun _ _ _ hi hstep => hi.step hstep) es _ t Books.opened hrun
  constructor
  · rintro ⟨hrange, -⟩
    exact inTurn_of_ordered es opened t Books.opened hrun hrange
  intro hmeets
  have hturn := Steps.run_inv_when step InTurn (fun u => u.Books ∧ u.Turn)
    (fun _ _ _ hi hok hstep => ⟨hi.1.step hstep, hi.2.becomes hok (step_becomes hi.1 hstep)⟩) es _ t
    ⟨Books.opened, rfl, fun hclosed => absurd rfl hclosed⟩ hmeets hrun
  have hrange := hturn.2.ordered
  rw [hread, List.append_nil] at hrange
  refine ⟨hrange, ?_⟩
  rw [hbooks.frames, hrange, filterMap_range]

def sampleText : WebSocketMessage := ⟨.text, [104, 105]⟩

def waitsForBlob : List SendEvent := [.send sampleText, .sendBlob [1, 2], .blobRead 0, .send sampleText, .close 1000 []]

theorem sends_in_order_waits :
    ∃ t, run step opened waitsForBlob = some t ∧ t.socket.toNode =
      [.wsData sampleText, .wsData ⟨.binary, [1, 2]⟩, .wsData sampleText, .wsClose ⟨1000, []⟩] := by
  have hmeets : Steps.Meets step InTurn opened waitsForBlob := by decide +kernel
  obtain ⟨t, hrun, hread, hcalls, hclosed⟩ : ∃ t, run step opened waitsForBlob = some t ∧ t.reading = [] ∧
      t.calls = [sampleText, ⟨.binary, [1, 2]⟩, sampleText] ∧ t.closed = some ⟨1000, []⟩ :=
    exists_run (by decide +kernel)
  have hframes := ((sends_in_order_iff waitsForBlob t hrun hread).2 hmeets).2
  rw [hcalls, hclosed] at hframes
  exact ⟨t, hrun, hframes⟩

/-- **A Blob is overtaken by the next call, and lost to a close.** -/
theorem blob_overtaken :
    (run step opened [.sendBlob [1, 2], .send sampleText, .blobRead 0]).map (fun t => (t.reading, t.socket.toNode)) =
        some ([], [.wsData sampleText, .wsData ⟨.binary, [1, 2]⟩]) ∧
      (run step opened [.sendBlob [1, 2], .close 1000 [], .blobRead 0]).map (fun t => (t.reading, t.socket.toNode)) =
        some ([], [.wsClose ⟨1000, []⟩]) := by
  decide +kernel

/-- **Every call's frame is sent once, and nothing behind the close**, in turn or not.  What the carrier was handed are the
frames of distinct calls and then the close.  While the socket is open each call's frame was sent or its Blob is being read,
and once it is closed no call and no Blob sends a frame any more. -/
theorem sends_once (es : List SendEvent) (t : SocketSends) (hrun : run step opened es = some t) :
    t.socket.toNode = t.handed.filterMap (fun n => (t.calls[n]?).map .wsData) ++ (t.closed.map .wsClose).toList ∧
    t.handed.Nodup ∧ (t.closed = none → (t.handed ++ t.reading).Perm (List.range t.calls.length)) ∧
    (t.closed ≠ none → ∀ m data index code reason throws,
      ∀ e ∈ [.send m throws, .sendBlob data, .blobRead index throws, .close code reason throws],
        ∀ u, t.socket.step e = some u → u.toNode = t.socket.toNode) := by
  obtain ⟨hbooks, hnodup⟩ := run_inv step (fun u => u.Books ∧ u.handed.Nodup) (fun s e u hi hstep => by
    have hbooks := hi.1.step hstep
    refine ⟨hbooks, ?_⟩
    by_cases hopen : u.closed = none
    · exact ((hbooks.shared hopen).nodup_iff.2 List.nodup_range).of_append_left
    -- only an open socket hands a frame over
    cases step_becomes hi.1 hstep with
    | sends _ h | sendsBlob _ h | reads _ _ _ h => exact absurd h hopen
    | drops | closes => exact hi.2) es _ t ⟨Books.opened, List.nodup_nil⟩ hrun
  refine ⟨hbooks.frames, hnodup, hbooks.shared, fun hclosed m data index code reason throws e he u hstep => ?_⟩
  have hstate : t.socket.page.readyState = .closing := by rw [hbooks.state, if_pos (Option.isSome_iff_ne_none.2 hclosed)]
  simp only [List.mem_cons, List.not_mem_nil, or_false] at he
  rcases he with rfl | rfl | rfl | rfl <;> simp only [CarriedSocket.step, CarriedSocket.sendClose, hstate] at hstep <;> grind

theorem sends_once_closed : ∃ t, run step opened [.sendBlob [1, 2], .send sampleText, .close 1000 []] = some t ∧
    t.reading = [0] ∧ ∀ u, t.socket.step (.blobRead 0 false) = some u → u.toNode = t.socket.toNode := by
  obtain ⟨t, hrun, ht⟩ : ∃ t, run step opened [.sendBlob [1, 2], .send sampleText, .close 1000 []] = some t ∧
      (t.reading, t.closed.isSome) = ([0], true) :=
    exists_run (by decide +kernel)
  obtain ⟨hread, hclosed⟩ := Prod.mk.inj ht
  exact ⟨t, hrun, hread, (sends_once _ t hrun).2.2.2 (Option.isSome_iff_ne_none.1 hclosed) sampleText [] 0 0 [] false _
    (by simp)⟩

end SocketSends
end YuriRtc
