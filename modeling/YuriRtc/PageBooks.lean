import YuriRtc.PageLanes
/-!
# PageBooks — the maps of the page's requests agree, and every end is told

`startRequest` writes six maps and `finish` deletes from them; between the two come messages, frames, lanes that close, and
starts that go on after an `await` with the request they knew long gone.  `Books` is what holds of the maps, the starts and
what has been posted.  It holds between events; in the middle of one it holds but for a request `x` whose end has been posted
and that is about to be finished, and a start `y` that has its request and has not been suspended or ended yet.
-/
namespace YuriRtc

open Assoc (lookup_erase_eq lookup_insert_eq)

variable {m : PagePost}

namespace PagePost

def start : PagePost → Option Nat
  | .head n _ | .body n _ | .finish n _ | .err n _ _ => some n
  | .down => none

def isTerminal : PagePost → Bool
  | .finish _ _ | .err _ _ _ => true
  | .head _ _ | .body _ _ | .down => false

def isResponse : PagePost → Bool
  | .head _ _ | .body _ _ | .finish _ _ => true
  | .err _ _ _ | .down => false

def covers (swId : Int) : PagePost → Bool
  | .finish _ id | .err _ id _ => id = swId
  | .down => true
  | .head _ _ | .body _ _ => false

theorem isDirect_of_covers {swId : Int} (hpositive : 1 ≤ swId) (h : m.covers swId = true) : m.isDirect = false := by
  cases m with
  | finish n id | err n id message =>
    have hid : id = swId := of_decide_eq_true h
    exact decide_eq_false (by omega)
  | down => rfl
  | head n id | body n id => cases h

/-- `b` may be posted after `a`. -/
def Follows (a b : PagePost) : Prop := ∀ n, a.start = some n → b.start = some n → a.isTerminal = true → b.isResponse = false

end PagePost

/-! ### The maps -/

namespace RequestMaps

variable {id : Nat}

/-- **The maps agree**: `swByRequest` and `requestBySw` are inverse to each other, the others have the same keys, and the
uploads are of requests. -/
structure Consistent (m : RequestMaps) : Prop where
  outbound : ∀ id, (m.outbound.lookup id).isSome = (m.inbound.lookup id).isSome
  controllers : ∀ id, m.requestAbortControllers.lookup id = (m.inbound.lookup id).map InboundRequest.start
  swByRequest : ∀ id, m.swByRequest.lookup id = (m.inbound.lookup id).map InboundRequest.swId
  inverse : ∀ id swId, m.swByRequest.lookup id = some swId ↔ m.requestBySw.lookup swId = some id
  uploads : ∀ id, (m.uploads.lookup id).isSome = true → (m.inbound.lookup id).isSome = true

variable {m : RequestMaps}

theorem consistent_empty : empty.Consistent :=
  ⟨fun _ => rfl, fun _ => rfl, fun _ => rfl, fun _ _ => ⟨nofun, nofun⟩, nofun⟩

theorem Consistent.requestBySw (h : m.Consistent) {entry : InboundRequest} (hentry : m.inbound.lookup id = some entry) :
    m.requestBySw.lookup entry.swId = some id := by
  refine (h.inverse id entry.swId).1 ?_
  rw [h.swByRequest, hentry]
  rfl

theorem Consistent.inbound_of_sw (h : m.Consistent) {swId : Int} (hid : m.requestBySw.lookup swId = some id) :
    ∃ entry, m.inbound.lookup id = some entry ∧ entry.swId = swId := by
  have hsw := (h.inverse id swId).2 hid
  simp_all [h.swByRequest]

theorem inbound_register (m : RequestMaps) (id credit : Nat) (entry : InboundRequest) (hasBody : Bool) (id' : Nat) :
    (m.register id credit entry hasBody).inbound.lookup id' = if id' = id then some entry else m.inbound.lookup id' :=
  lookup_insert_eq ..

theorem inbound_remove (m : RequestMaps) (id id' : Nat) :
    (m.remove id).inbound.lookup id' = if id' = id then none else m.inbound.lookup id' :=
  lookup_erase_eq ..

section

variable (h : m.Consistent)
include h

theorem Consistent.register (credit : Nat) {entry : InboundRequest} (hasBody : Bool)
    (hid : m.inbound.lookup id = none) (hsw : m.requestBySw.lookup entry.swId = none) :
    (m.register id credit entry hasBody).Consistent where
  outbound id' := by
    rw [inbound_register]
    show ((m.outbound.insert id credit).lookup id').isSome = _
    rw [lookup_insert_eq]
    split
    · rfl
    · exact h.outbound id'
  controllers id' := by
    rw [inbound_register]
    show (m.requestAbortControllers.insert id entry.start).lookup id' = _
    rw [lookup_insert_eq]
    split
    · rfl
    · exact h.controllers id'
  swByRequest id' := by
    rw [inbound_register]
    show (m.swByRequest.insert id entry.swId).lookup id' = _
    rw [lookup_insert_eq]
    split
    · rfl
    · exact h.swByRequest id'
  inverse id' swId := by
    show (m.swByRequest.insert id entry.swId).lookup id' = some swId ↔ (m.requestBySw.insert entry.swId id).lookup swId = some id'
    rw [lookup_insert_eq, lookup_insert_eq]
    by_cases hid' : id' = id
    · subst hid'
      rw [if_pos rfl]
      by_cases hsw' : swId = entry.swId <;> simp_all [← h.inverse, h.swByRequest, Ne.symm]
    · grind [h.inverse]
  uploads id' hup := by
    rw [inbound_register]
    split
    · rfl
    rename_i hne
    refine h.uploads id' ?_
    change ((if hasBody then m.uploads.insert id 0 else m.uploads).lookup id').isSome = true at hup
    grind [lookup_insert_eq]

theorem Consistent.remove (id : Nat) : (m.remove id).Consistent where
  outbound id' := by
    rw [inbound_remove]
    show ((m.outbound.erase id).lookup id').isSome = _
    rw [lookup_erase_eq]
    split
    · rfl
    · exact h.outbound id'
  controllers id' := by
    rw [inbound_remove]
    show (m.requestAbortControllers.erase id).lookup id' = _
    rw [lookup_erase_eq]
    split
    · rfl
    · exact h.controllers id'
  swByRequest id' := by
    rw [inbound_remove]
    show (m.swByRequest.erase id).lookup id' = _
    rw [lookup_erase_eq]
    split
    · rfl
    · exact h.swByRequest id'
  inverse id' swId := by
    show (m.swByRequest.erase id).lookup id' = some swId ↔ (m.remove id).requestBySw.lookup swId = some id'
    rw [lookup_erase_eq]
    unfold RequestMaps.remove
    cases hold : m.swByRequest.lookup id with
    | none => grind [h.inverse]
    | some old =>
      simp only
      rw [lookup_erase_eq]
      grind [h.inverse]
  uploads id' hup := by
    rw [inbound_remove]
    change ((m.uploads.erase id).lookup id').isSome = true at hup
    rw [lookup_erase_eq] at hup
    split at hup
    · cases hup
    rename_i hne
    rw [if_neg hne]
    exact h.uploads id' hup

theorem Consistent.setOutbound (hid : (m.outbound.lookup id).isSome = true) (credit : Nat) :
    ({ m with outbound := m.outbound.insert id credit } : RequestMaps).Consistent :=
  { h with
    outbound := fun id' => by
      show ((m.outbound.insert id credit).lookup id').isSome = (m.inbound.lookup id').isSome
      rw [lookup_insert_eq]
      grind [h.outbound] }

theorem Consistent.setUpload (hid : (m.uploads.lookup id).isSome = true) (credits : Nat) :
    ({ m with uploads := m.uploads.insert id credits } : RequestMaps).Consistent :=
  { h with
    uploads := fun id' hup => by
      change ((m.uploads.insert id credits).lookup id').isSome = true at hup
      rw [lookup_insert_eq] at hup
      split at hup
      · rename_i heq
        rw [heq]
        exact h.uploads id hid
      · exact h.uploads id' hup }

theorem Consistent.eraseUpload (id : Nat) :
    ({ m with uploads := m.uploads.erase id } : RequestMaps).Consistent :=
  { h with
    uploads := fun id' hup => by
      change ((m.uploads.erase id).lookup id').isSome = true at hup
      rw [lookup_erase_eq] at hup
      split at hup
      · cases hup
      · exact h.uploads id' hup }

end

end RequestMaps

namespace PageClient

variable {id n : Nat} {entry : InboundRequest} {st : PageStart}

variable {s t s₀ : PageClient} {x y : Option Nat}

/-! ### The books -/

structure EntryOk (s : PageClient) (x : Option Nat) (id : Nat) (entry : InboundRequest) : Prop where
  start : entry.start < s.nextStart
  arrived : entry.arrived ≤ s.posts.length
  positive : 1 ≤ entry.swId
  clean : x ≠ some id → ∀ m ∈ s.posts, m.start = some entry.start → m.isTerminal = false
  told : s.port = false → .down ∈ s.posts.drop entry.arrived

structure MayStart (s : PageClient) (n : Nat) (st : PageStart) : Prop where
  silent : ∀ m ∈ s.posts, m.start ≠ some n
  noEntry : ∀ id entry, s.maps.inbound.lookup id = some entry → entry.start ≠ n
  tracked : s.startingRequests.lookup st.swId = some n
  free : s.maps.requestBySw.lookup st.swId = none
  told : s.port = false → .down ∈ s.posts.drop st.arrived

structure StartOk (s : PageClient) (y : Option Nat) (n : Nat) (st : PageStart) : Prop where
  start : n < s.nextStart
  arrived : st.arrived ≤ s.posts.length
  positive : 1 ≤ st.swId
  unstarted : y ≠ some n → st.phase.isUnstarted = true → st.cancelled = false → s.MayStart n st
  uploading : ∀ id c, st.phase = .uploading id c ∨ st.phase = .cancellingBody id c → st.aborted = false →
    ∃ entry, s.maps.inbound.lookup id = some entry ∧ entry.start = n ∧ entry.swId = st.swId

structure Books (x y : Option Nat) (s : PageClient) : Prop where
  consistent : s.maps.Consistent
  entries : ∀ id entry, s.maps.inbound.lookup id = some entry → s.EntryOk x id entry
  unique : ∀ id entry id' entry', s.maps.inbound.lookup id = some entry → s.maps.inbound.lookup id' = some entry' →
    entry.start = entry'.start → id = id'
  starts : ∀ n st, s.starts.lookup n = some st → s.StartOk y n st
  tracks : ∀ swId n, s.startingRequests.lookup swId = some n → n < s.nextStart
  posts : ∀ m ∈ s.posts, ∀ n, m.start = some n → n < s.nextStart
  ordered : s.posts.Pairwise PagePost.Follows

theorem EntryOk.congr (h : s.EntryOk x id entry) (hnext : t.nextStart = s.nextStart)
    (hposts : t.posts = s.posts) (hport : t.port = s.port) : t.EntryOk x id entry where
  start := hnext ▸ h.start
  arrived := hposts ▸ h.arrived
  positive := h.positive
  clean := hposts ▸ h.clean
  told hdown := by
    rw [hport] at hdown
    exact hposts ▸ h.told hdown

theorem Books.drift (h : s.Books x y) (hd : Drifts s t) : t.Books x y where
  consistent := hd.maps ▸ h.consistent
  entries id entry hentry := by
    rw [hd.maps] at hentry
    exact (h.entries id entry hentry).congr hd.nextStart hd.posts hd.port
  unique id entry id' entry' hentry hentry' := by
    rw [hd.maps] at hentry hentry'
    exact h.unique id entry id' entry' hentry hentry'
  starts n st' hst' := by
    obtain ⟨st, hst, hmoves⟩ := hd.back n st' hst'
    obtain ⟨hstart, harrived, hpositive, hunstarted, huploading⟩ := h.starts n st hst
    refine ⟨hd.nextStart ▸ hstart, by rw [hmoves.arrived, hd.posts]; exact harrived, by rw [hmoves.swId]; exact hpositive,
      fun hy hphase hcancelled => ?_, fun id c hphase haborted => ?_⟩
    · have hlive : st.cancelled = false := by cases hc : st.cancelled <;> simp_all [hmoves.cancelled]
      obtain ⟨hsilent, hnone, htracked, hfree, htold⟩ := hunstarted hy (hmoves.isUnstarted ▸ hphase) hlive
      refine ⟨hd.posts ▸ hsilent, by rw [hd.maps]; exact hnone, by rw [hd.startingRequests, hmoves.swId]; exact htracked,
        by rw [hd.maps, hmoves.swId]; exact hfree, fun hport => ?_⟩
      simp_all [hd.port, hd.posts, hmoves.arrived]
    · have hsame : st'.phase = st.phase := hmoves.phase.resolve_right fun ⟨_, _, hgranted⟩ => by simp_all
      have hgoing : st.aborted = false := by cases hc : st.aborted <;> simp_all [hmoves.aborted]
      rw [hsame] at hphase
      rw [hd.maps, hmoves.swId]
      exact huploading id c hphase hgoing
  tracks := by rw [hd.startingRequests, hd.nextStart]; exact h.tracks
  posts := by rw [hd.posts, hd.nextStart]; exact h.posts
  ordered := hd.posts ▸ h.ordered

/-! ### Along an event -/

def Covered (posts : List PagePost) (entry : InboundRequest) : Prop := ∃ m ∈ posts.drop entry.arrived, m.covers entry.swId = true

theorem Covered.mono {posts posts' : List PagePost} (h : Covered posts entry)
    (hext : posts <+: posts') : Covered posts' entry := by
  obtain ⟨m, hm, hcovers⟩ := h
  exact ⟨m, (hext.drop entry.arrived).subset hm, hcovers⟩

/-- **From `s₀` on, an event has kept the books**, and whoever has left the maps is covered, or may go unsaid (`silent`). -/
structure Along (silent : InboundRequest → Prop) (s₀ : PageClient) (x y : Option Nat) (s : PageClient) : Prop where
  books : s.Books x y
  queued : s.Queued
  posts : s₀.posts <+: s.posts
  accounts : ∀ id entry, s₀.maps.inbound.lookup id = some entry →
    s.maps.inbound.lookup id = some entry ∨ Covered s.posts entry ∨ silent entry

variable {silent : InboundRequest → Prop}

theorem Along.start (h : s.Books none none) (hq : s.Queued) : Along silent s none none s :=
  ⟨h, hq, List.prefix_rfl, fun _ _ hentry => .inl hentry⟩

section

variable (h : Along silent s₀ x y s)
include h

theorem Along.drift (hd : Drifts s t) (hq : t.Queued) : Along silent s₀ x y t where
  books := h.books.drift hd
  queued := hq
  posts := hd.posts ▸ h.posts
  accounts id entry hentry := by
    rw [hd.maps, hd.posts]
    exact h.accounts id entry hentry

theorem Along.relane (hr : Relanes s t) : Along silent s₀ x y t := h.drift hr.drifts (hr.queued h.queued)

theorem Along.lanes (hd : Drifts s t) (hstarts : t.starts = s.starts := by rfl)
    (hwaiters : t.laneWaiters = s.laneWaiters := by rfl) : Along silent s₀ x y t := h.drift hd (h.queued.congr hwaiters hstarts)

theorem Along.withMaps {maps : RequestMaps} (hin : maps.inbound = s.maps.inbound)
    (hsw : maps.requestBySw = s.maps.requestBySw) (hconsistent : maps.Consistent) : Along silent s₀ x y { s with
        maps := maps } where
  books :=
    { consistent := hconsistent
      entries := fun id entry hentry => by
        change maps.inbound.lookup id = some entry at hentry
        rw [hin] at hentry
        exact (h.books.entries id entry hentry).congr rfl rfl rfl
      unique := fun id entry id' entry' hentry hentry' => by
        change maps.inbound.lookup id = some entry at hentry
        change maps.inbound.lookup id' = some entry' at hentry'
        rw [hin] at hentry hentry'
        exact h.books.unique id entry id' entry' hentry hentry'
      starts := fun n st hst => by
        obtain ⟨hstart, harrived, hpositive, hunstarted, huploading⟩ := h.books.starts n st hst
        refine ⟨hstart, harrived, hpositive, fun hy hphase hcancelled => ?_, fun id c hphase haborted => ?_⟩
        · obtain ⟨hsilent, hnone, htracked, hfree, htold⟩ := hunstarted hy hphase hcancelled
          refine ⟨hsilent, fun id entry hentry => ?_, htracked, (congrArg _ hsw).trans hfree, htold⟩
          change maps.inbound.lookup id = some entry at hentry
          rw [hin] at hentry
          exact hnone id entry hentry
        · show ∃ entry, maps.inbound.lookup id = some entry ∧ _
          rw [hin]
          exact huploading id c hphase haborted
      tracks := h.books.tracks
      posts := h.books.posts
      ordered := h.books.ordered }
  queued := h.queued.congr rfl rfl
  posts := h.posts
  accounts id entry hentry := by
    show maps.inbound.lookup id = some entry ∨ _
    rw [hin]
    exact h.accounts id entry hentry

end

/-! ### Posting -/

def reaches (s : PageClient) (m : PagePost) : List PagePost := if s.port = true ∧ m.isDirect = false then [m] else []

theorem mem_reaches {a m : PagePost} (h : a ∈ s.reaches m) : a = m := by simp_all [reaches]

theorem post_eq (s : PageClient) (m : PagePost) : s.post m = { s with posts := s.posts ++ s.reaches m } := by
  unfold post reaches
  split
  · rfl
  · rw [List.append_nil]

theorem post_posts (s : PageClient) (m : PagePost) : (s.post m).posts = s.posts ++ s.reaches m := by rw [post_eq]

theorem Along.post (h : Along silent s₀ x y s) (m : PagePost) {x' y' : Option Nat}
    (hfollows : ∀ a ∈ s.posts, a.Follows m) (hlt : ∀ n, m.start = some n → n < s.nextStart)
    (hx : ∀ id entry, s.maps.inbound.lookup id = some entry → x' ≠ some id →
      x ≠ some id ∧ (m.start = some entry.start → m.isTerminal = false))
    (hy : ∀ n st, s.starts.lookup n = some st → st.phase.isUnstarted = true → st.cancelled = false → y' ≠ some n →
      y ≠ some n ∧ m.start ≠ some n) : Along silent s₀ x' y' (s.post m) := by
  rw [post_eq]
  have hsub : ∀ a ∈ s.posts ++ s.reaches m, a ∈ s.posts ∨ a = m := fun a ha =>
    (List.mem_append.1 ha).imp_right mem_reaches
  have hext : s.posts <+: s.posts ++ s.reaches m := List.prefix_append ..
  refine ⟨⟨h.books.consistent, fun id entry hentry => ?_, h.books.unique, fun n st hst => ?_, h.books.tracks,
    fun a ha n hn => ?_, ?_⟩,
    h.queued.congr rfl rfl, h.posts.trans hext, fun id entry hentry => ?_⟩
  · obtain ⟨hstart, harrived, hpositive, hclean, htold⟩ := h.books.entries id entry hentry
    refine ⟨hstart, harrived.trans hext.length_le, hpositive, fun hne a ha hfor => ?_,
      fun hport => (hext.drop _).subset (htold hport)⟩
    obtain ⟨hne', hmay⟩ := hx id entry hentry hne
    rcases hsub a ha with ha | rfl
    · exact hclean hne' a ha hfor
    · exact hmay hfor
  · obtain ⟨hstart, harrived, hpositive, hunstarted, huploading⟩ := h.books.starts n st hst
    refine ⟨hstart, harrived.trans hext.length_le, hpositive, fun hne hphase hcancelled => ?_, huploading⟩
    obtain ⟨hne', hmay⟩ := hy n st hst hphase hcancelled hne
    obtain ⟨hsilent, hnone, htracked, hfree, htold⟩ := hunstarted hne' hphase hcancelled
    refine ⟨fun a ha => ?_, hnone, htracked, hfree, fun hport => (hext.drop _).subset (htold hport)⟩
    rcases hsub a ha with ha | rfl
    · exact hsilent a ha
    · exact hmay
  · rcases hsub a ha with ha | rfl
    · exact h.books.posts a ha n hn
    · exact hlt n hn
  · show (s.posts ++ s.reaches m).Pairwise _
    refine List.pairwise_append.2 ⟨h.books.ordered, ?_, fun a ha b hb => ?_⟩
    · grind [reaches]
    · rw [mem_reaches hb]
      exact hfollows a ha
  · exact (h.accounts id entry hentry).imp_right (Or.imp_left fun hc => hc.mono hext)

theorem Along.postResponse (h : Along silent s₀ none none s)
    (hentry : s.maps.inbound.lookup id = some entry) (hstart : m.start = some entry.start)
    (hterminal : m.isTerminal = false) : Along silent s₀ none none (s.post m) := by
  have hok := h.books.entries id entry hentry
  refine h.post m (fun a ha n hn hm hend => ?_) (fun n hn => ?_) (fun id' entry' _ _ => ⟨nofun, fun _ => hterminal⟩)
    (fun n st hst hphase hcancelled _ => ⟨nofun, fun hc => ?_⟩)
  · simp_all [hok.clean]
  · cases hstart.symm.trans hn
    exact hok.start
  cases hstart.symm.trans hc
  exact ((h.books.starts _ st hst).unstarted nofun hphase hcancelled).noEntry id entry hentry rfl

theorem Along.postEnd (h : Along silent s₀ none y s)
    (hentry : s.maps.inbound.lookup id = some entry) (hstart : m.start = some entry.start)
    (hcovers : m.covers entry.swId = true) : Along silent s₀ (some id) y (s.post m) ∧ Covered (s.post m).posts entry := by
  have hok := h.books.entries id entry hentry
  refine ⟨h.post m (fun a ha n hn hm hend => ?_) (fun n hn => ?_) (fun id' entry' hentry' hne => ⟨nofun, fun hc => ?_⟩)
    (fun n st hst hphase hcancelled hne => ⟨hne, fun hc => ?_⟩), ?_⟩
  · simp_all [hok.clean]
  · cases hstart.symm.trans hn
    exact hok.start
  · rw [hstart] at hc
    exact absurd (congrArg some (h.books.unique id entry id' entry' hentry hentry' (Option.some.inj hc))) hne
  · cases hstart.symm.trans hc
    exact ((h.books.starts _ st hst).unstarted hne hphase hcancelled).noEntry id entry hentry rfl
  rw [post_posts]
  cases hport : s.port with
  | true =>
    refine ⟨m, ?_, hcovers⟩
    rw [List.drop_append_of_le_length hok.arrived, reaches, if_pos ⟨hport, PagePost.isDirect_of_covers hok.positive hcovers⟩]
    exact List.mem_append_right _ List.mem_cons_self
  | false => exact ⟨.down, (((List.prefix_append _ _).drop _).subset (hok.told hport)), rfl⟩

theorem Along.postNoStart (h : Along silent s₀ none none s) (hst : s.starts.lookup n = some st)
    (hphase : st.phase.isUnstarted = true) (hcancelled : st.cancelled = false) (message : Option String) :
    Along silent s₀ none (some n) (s.post (.err n st.swId message)) := by
  have hmay := (h.books.starts n st hst).unstarted nofun hphase hcancelled
  refine h.post _ (fun a ha m hn hm _ => rfl) (fun m hm => ?_)
    (fun id entry hentry _ => ⟨nofun, fun hc => absurd (Option.some.inj hc).symm (hmay.noEntry id entry hentry)⟩)
    (fun m st' _ _ _ hne => ⟨nofun, hne⟩)
  cases hm
  exact (h.books.starts n st hst).start

/-! ### Finishing and ending -/

theorem abort_aborts (hn : s.maps.requestAbortControllers.lookup id = some n)
    (hst : (s.abort id).starts.lookup n = some st) : st.aborted = true := by
  simp only [abort, hn] at hst
  rw [lookup_modifyStart, if_pos rfl] at hst
  obtain ⟨st', -, rfl⟩ := Option.map_eq_some_iff.1 hst
  rfl

theorem finish_drifts (hq : s.Queued) (id : Nat) :
    Drifts { s.abort id with maps := s.maps.remove id } (s.finish id) ∧ (s.finish id).Queued := by
  have hcleared : Queued { s.abort id with maps := s.maps.remove id } := (hq.abort id).congr rfl rfl
  unfold finish
  simp only
  split
  · rename_i entry hentry
    split
    · obtain ⟨hdrifts, hqueued⟩ := hcleared.releaseChannelReservation entry.channel
      split
      · exact ⟨hdrifts, hqueued⟩
      · exact ⟨hdrifts.trans (drifts_scheduleBulkIdleClose _), hqueued.congr rfl rfl⟩
    · exact ⟨.refl _, hcleared⟩
  · exact ⟨.refl _, hcleared⟩

theorem finish_forth (hq : s.Queued) (id : Nat) (hst : s.starts.lookup n = some st) :
    ∃ st', (s.finish id).starts.lookup n = some st' ∧ st.Moves st' := by
  obtain ⟨st', hst', hmoves⟩ := (drifts_abort s id).forth n st hst
  obtain ⟨st'', hst'', hmoves'⟩ := (finish_drifts hq id).1.forth n st' hst'
  exact ⟨st'', hst'', hmoves.trans hmoves'⟩

theorem Along.finish (h : Along silent s₀ x y s) (id : Nat) (hx : x = none ∨ x = some id)
    (hsaid : ∀ entry, s.maps.inbound.lookup id = some entry → Covered s.posts entry ∨ silent entry) :
    Along silent s₀ none y (s.finish id) := by
  obtain ⟨hdrifts, hqueued⟩ := finish_drifts h.queued id
  have hd := drifts_abort s id
  have hb := h.books.drift hd
  -- what is left of the maps was there
  have hkept : ∀ id' entry, (s.maps.remove id).inbound.lookup id' = some entry →
      id' ≠ id ∧ s.maps.inbound.lookup id' = some entry := by simp [RequestMaps.inbound_remove]
  have hcleared : Books none y { s.abort id with maps := s.maps.remove id } := by
    refine ⟨h.books.consistent.remove id, fun id' entry hentry => ?_, fun id₁ e₁ id₂ e₂ h₁ h₂ => ?_, fun n st hst => ?_,
      hb.tracks, hb.posts, hb.ordered⟩
    · obtain ⟨hne, hold⟩ := hkept id' entry hentry
      obtain ⟨hstart, harrived, hpositive, hclean, htold⟩ := hb.entries id' entry (hd.maps ▸ hold)
      refine ⟨hstart, harrived, hpositive, fun _ => hclean ?_, htold⟩
      rcases hx with rfl | rfl
      · exact nofun
      · exact fun hc => hne (Option.some.inj hc).symm
    · exact h.books.unique id₁ e₁ id₂ e₂ (hkept id₁ e₁ h₁).2 (hkept id₂ e₂ h₂).2
    obtain ⟨hstart, harrived, hpositive, hunstarted, huploading⟩ := hb.starts n st hst
    refine ⟨hstart, harrived, hpositive, fun hy hphase hcancelled => ?_, fun id' c hphase haborted => ?_⟩
    · obtain ⟨hsilent, hnone, htracked, hfree, htold⟩ := hunstarted hy hphase hcancelled
      refine ⟨hsilent, fun id' entry hentry => hnone id' entry (hd.maps ▸ (hkept id' entry hentry).2), htracked, ?_, htold⟩
      rw [hd.maps] at hfree
      show (s.maps.remove id).requestBySw.lookup st.swId = none
      unfold RequestMaps.remove
      simp only
      split
      · rw [lookup_erase_eq, hfree, ite_self]
      · exact hfree
    · obtain ⟨entry, hentry, hstart', hsw⟩ := huploading id' c hphase haborted
      rw [hd.maps] at hentry
      have hne : id' ≠ id := by
        rintro rfl
        have hcontroller : s.maps.requestAbortControllers.lookup id' = some n := by
          rw [h.books.consistent.controllers, hentry]
          exact congrArg some hstart'
        rw [abort_aborts hcontroller hst] at haborted
        cases haborted
      refine ⟨entry, ?_, hstart', hsw⟩
      show (s.maps.remove id).inbound.lookup id' = some entry
      rw [RequestMaps.inbound_remove, if_neg hne]
      exact hentry
  refine ⟨hcleared.drift hdrifts, hqueued, ?_, fun id' entry hentry => ?_⟩
  · rw [hdrifts.posts]
    exact hd.posts ▸ h.posts
  rw [hdrifts.maps, hdrifts.posts]
  show (s.maps.remove id).inbound.lookup id' = some entry ∨ Covered (s.abort id).posts entry ∨ silent entry
  rw [hd.posts]
  rcases h.accounts id' entry hentry with hold | hcovered
  · by_cases hne : id' = id
    · subst hne
      exact .inr (hsaid entry hold)
    · rw [RequestMaps.inbound_remove, if_neg hne]
      exact .inl hold
  · exact .inr hcovered

theorem Along.report (h : Along silent s₀ none y s)
    (hentry : s.maps.inbound.lookup id = some entry) (hstart : m.start = some entry.start)
    (hcovers : m.covers entry.swId = true) : Along silent s₀ none y ((s.post m).finish id) := by
  obtain ⟨hposted, hcovered⟩ := h.postEnd hentry hstart hcovers
  refine hposted.finish id (.inr rfl) fun entry' hentry' => .inl ?_
  simp_all [post_eq]

theorem Along.failRequest (h : Along silent s₀ none none s) (id : Nat) (message : Option String) :
    Along silent s₀ none none (s.failRequest id message) := by
  unfold PageClient.failRequest
  split
  · rename_i entry hentry
    exact h.report hentry rfl (decide_eq_true rfl)
  · exact h

theorem Along.ends (h : Along silent s₀ none y s) (hy : y = none ∨ y = some n) (hn : n ∉ s.laneWaiters) (swId : Int) :
    Along silent s₀ none none (s.ends n swId) := by
  have hstarts : ∀ m, (s.ends n swId).starts.lookup m = if m = n then none else s.starts.lookup m := fun m => lookup_erase_eq ..
  refine ⟨{ h.books with
      entries := fun id entry hentry => (h.books.entries id entry hentry).congr rfl rfl rfl, starts := fun m st hst => ?_,
      tracks := fun swId' m hm => ?_ }, ?_, h.posts, h.accounts⟩
  · rw [hstarts] at hst
    split at hst
    · cases hst
    rename_i hne
    obtain ⟨hstart, harrived, hpositive, hunstarted, huploading⟩ := h.books.starts m st hst
    refine ⟨hstart, harrived, hpositive, fun _ hphase hcancelled => ?_, huploading⟩
    have hother : y ≠ some m := by grind
    obtain ⟨hsilent, hnone, htracked, hfree, htold⟩ := hunstarted hother hphase hcancelled
    refine ⟨hsilent, hnone, ?_, hfree, htold⟩
    show (if s.startingRequests.lookup swId = some n then s.startingRequests.erase swId else s.startingRequests).lookup
      st.swId = some m
    grind [lookup_erase_eq]
  · change (if s.startingRequests.lookup swId = some n then s.startingRequests.erase swId else s.startingRequests).lookup
      swId' = some m at hm
    refine h.books.tracks swId' m ?_
    grind [lookup_erase_eq]
  · exact h.queued.leave hn rfl fun m hne => by rw [hstarts, if_neg hne]

end PageClient
end YuriRtc
