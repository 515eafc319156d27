import YuriRtc.PageBooks
import YuriRtc.PageIds
/-!
# PageFinality — every way a request begins and ends keeps the books

The books of `PageBooks` along every event of the page.  The worker does not use an id again that is at work, and the page's
own ids are unused when they are taken: then whenever no method is running the maps agree, whoever has left them without a
`cancel` and without its bridge is known to the worker to be over, and nothing of a response follows on its end.
-/
namespace YuriRtc

open Steps (of_guard run)
namespace PageClient

variable {c id n : Nat} {st : PageStart} {swId : Int}

variable {s t s₀ : PageClient} {x y : Option Nat} {silent : InboundRequest → Prop}

/-! ### A request begins -/

theorem Along.register (h : Along silent s₀ none none s) (hst : s.starts.lookup n = some st)
    (hphase : st.phase.isUnstarted = true) (hcancelled : st.cancelled = false)
    (hfresh : s.maps.inbound.lookup s.nextRequestId = none) (c : Nat) :
    Along silent s₀ none (some n) (s.registered n st c) := by
  have hok := h.books.starts n st hst
  have hmay := hok.unstarted nofun hphase hcancelled
  have hin : ∀ id, (s.registered n st c).maps.inbound.lookup id =
      if id = s.nextRequestId then some (entryOf n st c) else s.maps.inbound.lookup id := fun id =>
    RequestMaps.inbound_register ..
  -- whoever was there is not under the new id
  have hold : ∀ id entry, s.maps.inbound.lookup id = some entry → id ≠ s.nextRequestId := by grind
  refine ⟨⟨h.books.consistent.register _ _ hfresh hmay.free, fun id entry hentry => ?_, fun id₁ e₁ id₂ e₂ h₁ h₂ hsame => ?_,
    fun m st' hst' => ?_, h.books.tracks, h.books.posts, h.books.ordered⟩, h.queued.congr rfl rfl, h.posts,
    fun id entry hentry => ?_⟩
  · rw [hin] at hentry
    split at hentry
    · cases hentry
      refine { hok with clean := fun _ m hm hfor => absurd hfor (hmay.silent m hm), told := hmay.told }
    · exact (h.books.entries id entry hentry).congr rfl rfl rfl
  · rw [hin] at h₁ h₂
    split at h₁ <;> split at h₂
    · omega
    · cases h₁
      exact absurd hsame.symm (hmay.noEntry id₂ e₂ h₂)
    · cases h₂
      exact absurd hsame (hmay.noEntry id₁ e₁ h₁)
    · exact h.books.unique id₁ e₁ id₂ e₂ h₁ h₂ hsame
  · obtain ⟨hstart, harrived, hpositive, hunstarted, huploading⟩ := h.books.starts m st' hst'
    refine ⟨hstart, harrived, hpositive, fun hne hphase' hcancelled' => ?_, fun id c' hphase' haborted => ?_⟩
    · obtain ⟨hsilent, hnone, htracked, hfree, htold⟩ := hunstarted nofun hphase' hcancelled'
      have hother : n ≠ m := fun hc => hne (congrArg some hc)
      refine ⟨hsilent, fun id entry hentry => ?_, htracked, ?_, htold⟩
      · rw [hin] at hentry
        split at hentry
        · cases hentry
          exact hother
        · exact hnone id entry hentry
      show (s.maps.requestBySw.insert st.swId s.nextRequestId).lookup st'.swId = none
      rw [Assoc.lookup_insert_eq, if_neg]
      · exact hfree
      · intro hsame
        grind [hmay.tracked]
    · obtain ⟨entry, hentry, hrest⟩ := huploading id c' hphase' haborted
      simp_all
  · rcases h.accounts id entry hentry with hthere | hcovered
    · simp [hin, hold, hthere]
    · exact .inr hcovered

theorem Along.suspend (h : Along silent s₀ none (some n) s) (hst : s.starts.lookup n = some st)
    (hwaiting : st.phase ≠ .waiting) {entry : InboundRequest} (hentry : s.maps.inbound.lookup id = some entry)
    (hstart : entry.start = n) (hsw : entry.swId = st.swId) {phase : StartPhase}
    (hphase : phase = .uploading id c ∨ phase = .cancellingBody id c) : Along silent s₀ none none (s.setPhase n phase) := by
  have hstarts : ∀ m, (s.setPhase n phase).starts.lookup m =
      if m = n then some { st with phase := phase } else s.starts.lookup m := fun m => by
    rw [setPhase, lookup_modifyStart, hst]
    rfl
  have heq : s.setPhase n phase = { s with starts := s.starts.insert n { st with phase := phase } } := by
    rw [setPhase, modifyStart, hst]
  rw [heq] at hstarts ⊢
  refine ⟨{ h.books with
      entries := fun id' e he => (h.books.entries id' e he).congr rfl rfl rfl,
      starts := fun m st' hst' => ?_ }, ?_, h.posts, h.accounts⟩
  · rw [hstarts] at hst'
    split at hst'
    · rename_i hm
      subst hm
      cases hst'
      have hok := h.books.starts m st hst
      refine ⟨hok.start, hok.arrived, hok.positive, fun _ hunstarted => ?_, fun id' c' hphase' _ => ?_⟩
      · rcases hphase with rfl | rfl <;> cases hunstarted
      · grind
    · rename_i hm
      obtain ⟨hstart', harrived, hpositive, hunstarted, huploading⟩ := h.books.starts m st' hst'
      refine ⟨hstart', harrived, hpositive, fun _ hphase' hcancelled' => ?_, huploading⟩
      obtain ⟨hsilent, hnone, htracked, hfree, htold⟩ :=
        hunstarted (fun hc => hm (Option.some.inj hc).symm) hphase' hcancelled'
      exact ⟨hsilent, hnone, htracked, hfree, htold⟩
  · exact h.queued.leave (h.queued.not_mem hst hwaiting) rfl fun m hne => by rw [hstarts, if_neg hne]

theorem Along.thrown (h : Along silent s₀ none y s) (hy : y = none ∨ y = some n)
    (hst : s.starts.lookup n = some st) (hwaiting : st.phase ≠ .waiting)
    (hentry : st.aborted = false → ∃ entry, s.maps.inbound.lookup id = some entry ∧ entry.start = n ∧ entry.swId = st.swId) :
    Along silent s₀ none none ((s.thrown n st.swId id).ends n st.swId) := by
  unfold PageClient.thrown
  rw [hst]
  simp only
  split
  · exact h.ends hy (h.queued.not_mem hst hwaiting) st.swId
  rename_i haborted
  obtain ⟨entry, hin, hstart, hsw⟩ := hentry (Bool.eq_false_iff.2 haborted)
  have hreported : Along silent s₀ none y ((s.post (.err n st.swId none)).finish id) :=
    h.report hin (congrArg some hstart.symm) (decide_eq_true hsw.symm)
  have hposted : (s.post (.err n st.swId none)).Queued := h.queued.congr (by rw [post_eq]) (by rw [post_eq])
  have hkept : (s.post (.err n st.swId none)).starts.lookup n = some st := by
    rw [post_eq]
    exact hst
  obtain ⟨st', hst', hmoves⟩ := finish_forth hposted id hkept
  refine hreported.ends hy (hreported.queued.not_mem hst' ?_) st.swId
  rcases hmoves.phase with heq | ⟨hc, -⟩
  · rw [heq]
    exact hwaiting
  · exact absurd hc hwaiting

section

variable (h : Along silent s₀ none none s) (hst : s.starts.lookup n = some st)
include h hst

theorem Along.begin (hphase : st.phase.isUnstarted = true) (hwaiting : st.phase ≠ .waiting) (hcancelled : st.cancelled = false)
    (hfresh : s.maps.inbound.lookup s.nextRequestId = none) (c : Nat) (sends : Sends) :
    Along silent s₀ none none (s.begin n st c sends) := by
  have hreg := h.register hst hphase hcancelled hfresh c
  have hin : (s.registered n st c).maps.inbound.lookup s.nextRequestId = some (entryOf n st c) :=
    (RequestMaps.inbound_register ..).trans (if_pos rfl)
  have hst' : (s.registered n st c).starts.lookup n = some st := hst
  have hn : n ∉ (s.registered n st c).laneWaiters := hreg.queued.not_mem hst' hwaiting
  rw [begin_eq]
  split
  · exact hreg.thrown (.inr rfl) hst' hwaiting fun _ => ⟨_, hin, rfl, rfl⟩
  split
  · refine hreg.suspend (c := c) hst' hwaiting hin rfl rfl ?_
    simp
  split
  · have hup : Along silent s₀ none (some n) ((s.registered n st c).eraseUpload s.nextRequestId) :=
      hreg.withMaps rfl rfl (hreg.books.consistent.eraseUpload _)
    split
    · exact hup.ends (.inr rfl) hn st.swId
    · exact hup.thrown (.inr rfl) hst' hwaiting fun _ => ⟨_, hin, rfl, rfl⟩
  · exact hreg.ends (.inr rfl) hn st.swId

theorem Along.wait (hopening : st.phase = .opening) :
    Along silent s₀ none none { s.setPhase n .waiting with laneWaiters := s.laneWaiters ++ [n] } := by
  have hn : n ∉ s.laneWaiters := h.queued.not_mem hst (by rw [hopening]; exact nofun)
  have hqueued := h.queued.wait hst hn
  have hstarts : ∀ m, (s.setPhase n .waiting).starts.lookup m =
      if m = n then some { st with phase := .waiting } else s.starts.lookup m := fun m => by
    rw [setPhase, lookup_modifyStart, hst]
    rfl
  have heq : s.setPhase n .waiting = { s with starts := s.starts.insert n { st with phase := .waiting } } := by
    rw [setPhase, modifyStart, hst]
  rw [heq] at hstarts hqueued ⊢
  refine ⟨{ h.books with
      entries := fun id e he => (h.books.entries id e he).congr rfl rfl rfl,
      starts := fun m st' hst' => ?_ }, hqueued, h.posts, h.accounts⟩
  · change (s.starts.insert n { st with phase := .waiting }).lookup m = some st' at hst'
    rw [hstarts] at hst'
    split at hst'
    · rename_i hm
      subst hm
      cases hst'
      obtain ⟨hstart, harrived, hpositive, hunstarted, -⟩ := h.books.starts m st hst
      refine ⟨hstart, harrived, hpositive, fun hy _ hcancelled => ?_, fun id c hphase => ?_⟩
      · obtain ⟨hsilent, hnone, htracked, hfree, htold⟩ := hunstarted hy (by rw [hopening]; rfl) hcancelled
        exact ⟨hsilent, hnone, htracked, hfree, htold⟩
      · simp_all
    · obtain ⟨hstart, harrived, hpositive, hunstarted, huploading⟩ := h.books.starts m st' hst'
      refine ⟨hstart, harrived, hpositive, fun hy hphase hcancelled => ?_, huploading⟩
      obtain ⟨hsilent, hnone, htracked, hfree, htold⟩ := hunstarted hy hphase hcancelled
      exact ⟨hsilent, hnone, htracked, hfree, htold⟩

theorem Along.schedule (hopening : st.phase = .opening) (hfresh : s.maps.inbound.lookup s.nextRequestId = none) (sends : Sends) :
    Along silent s₀ none none (s.schedule n st sends) := by
  have hphase : st.phase.isUnstarted = true := by rw [hopening]; rfl
  have hwaiting : st.phase ≠ .waiting := by rw [hopening]; exact nofun
  unfold PageClient.schedule
  split
  · exact h.ends (.inl rfl) (h.queued.not_mem hst hwaiting) st.swId
  rename_i hc
  have hcancelled : st.cancelled = false := Bool.eq_false_iff.2 hc
  simp only
  split
  · split
    · rename_i c _
      have hreserved : Along silent s₀ none none (s.reserve c) := h.drift (drifts_setLoad ..) (h.queued.congr rfl rfl)
      exact hreserved.begin hst hphase hwaiting hcancelled hfresh c sends
    have hposted := h.postNoStart hst hphase hcancelled (some "data channel not open")
    refine hposted.ends (.inr rfl) ?_ st.swId
    rw [post_eq]
    exact h.queued.not_mem hst hwaiting
  · exact h.wait hst hopening

end

/-! ### A message asks for a request -/

section

variable (h : Along silent s₀ none none s) (hport : s.port = true) (hpositive : 1 ≤ swId)
  (hfree : s.maps.requestBySw.lookup swId = none)
include h hport hpositive hfree

theorem Along.enter (hsw : st.swId = swId) (hopening : st.phase = .opening)
    (harrived : st.arrived = s.posts.length) : Along silent s₀ none none (s.enter swId st) := by
  obtain ⟨t, ht, heq, hsuperseded⟩ := enter_eq s swId st
  obtain ⟨hd, hqueued⟩ : Drifts s t ∧ t.Queued := by
    rcases ht with rfl | ⟨n, rfl⟩
    · exact ⟨.refl t, h.queued⟩
    · exact ⟨drifts_cancelStart s n, h.queued.cancelStart n⟩
  have ht := h.drift hd hqueued
  have hnew : ∀ n old, t.starts.lookup n = some old → n ≠ t.nextStart := by
    rintro n old hold rfl
    exact lt_irrefl _ (ht.books.starts _ old hold).start
  rw [heq]
  refine ⟨{ ht.books with
      entries := fun id entry hentry => ?_, starts := fun n st' hst' => ?_, tracks := fun swId' n hn => ?_,
      posts := fun m hm n hn => (ht.books.posts m hm n hn).trans (Nat.lt_succ_self _) },
    ht.queued.of_starts rfl fun n _ old hold hwaiting => ⟨old, ?_, hwaiting⟩, ht.posts, ht.accounts⟩
  · obtain ⟨hstart, harrived', hpositive', hclean, htold⟩ := ht.books.entries id entry hentry
    exact ⟨hstart.trans (Nat.lt_succ_self _), harrived', hpositive', hclean, htold⟩
  · change (t.starts.insert t.nextStart st).lookup n = some st' at hst'
    rw [Assoc.lookup_insert_eq] at hst'
    split at hst'
    · rename_i hn
      subst hn
      cases hst'
      refine ⟨Nat.lt_succ_self _, ?_, hsw ▸ hpositive, fun _ _ _ => ⟨fun m hm hc => ?_, fun id entry hentry hc => ?_, ?_, ?_, ?_⟩,
        fun id c hphase => ?_⟩
      · simp [harrived, hd.posts]
      · exact lt_irrefl _ (ht.books.posts m hm _ hc)
      · have hlt := (ht.books.entries id entry hentry).start
        omega
      · grind [AList.lookup_insert]
      · grind [hd.maps]
      · simp [hd.port, hport]
      · simp_all
    · obtain ⟨hstart, harrived', hpositive', hunstarted, huploading⟩ := ht.books.starts n st' hst'
      refine ⟨hstart.trans (Nat.lt_succ_self _), harrived', hpositive', fun hy hphase hcancelled => ?_, huploading⟩
      obtain ⟨hsilent, hnone, htracked, hfree', htold⟩ := hunstarted hy hphase hcancelled
      refine ⟨hsilent, hnone, ?_, hfree', htold⟩
      show (t.startingRequests.insert swId t.nextStart).lookup st'.swId = some n
      rw [Assoc.lookup_insert_eq, if_neg]
      · exact htracked
      · -- a start under this id has been cancelled
        intro hc
        rw [hc] at htracked
        rw [hsuperseded n st' hst' htracked] at hcancelled
        cases hcancelled
  · change (t.startingRequests.insert swId t.nextStart).lookup swId' = some n at hn
    rw [Assoc.lookup_insert_eq] at hn
    split at hn
    · simp_all
    · exact (ht.books.tracks swId' n hn).trans (Nat.lt_succ_self _)
  · simp [hnew, hold]

theorem Along.startRequest (hfresh : s.maps.inbound.lookup s.nextRequestId = none)
    (head : PageHead) (hasStream : Bool) (sends : Sends) :
    Along silent s₀ none none (s.startRequest swId head hasStream sends) := by
  unfold PageClient.startRequest
  simp only
  generalize hst : (⟨swId, head, hasStream, false, false, .opening, s.posts.length⟩ : PageStart) = st
  have hentered : Along silent s₀ none none (s.enter swId st) :=
    h.enter hport hpositive hfree (hst ▸ rfl) (hst ▸ rfl) (hst ▸ rfl)
  have hlookup := enter_lookup s swId st
  obtain ⟨hmaps, hnext⟩ := enter_fresh s swId st
  have hr := relanes_ensureBulkChannels (s.enter swId st)
  split
  · refine hentered.schedule hlookup (hst ▸ rfl) ?_ sends
    rw [hmaps, hnext]
    exact hfresh
  · refine (hentered.relane hr).schedule ((congrArg (AList.lookup _) hr.starts).trans hlookup) (hst ▸ rfl) ?_ sends
    rw [hr.drifts.maps, hr.nextRequestId, hmaps, hnext]
    exact hfresh
  · exact hentered.relane hr
  · exact hentered.relane hr

end

/-! ### A start goes on -/

section

variable (h : Along silent s₀ none none s) (hst : s.starts.lookup n = some st)
include h hst

theorem Along.noStart (hphase : st.phase.isUnstarted = true) (hwaiting : st.phase ≠ .waiting) (hcancelled : st.cancelled = false)
    (message : Option String) : Along silent s₀ none none ((s.post (.err n st.swId message)).ends n st.swId) := by
  refine (h.postNoStart hst hphase hcancelled message).ends (.inr rfl) ?_ st.swId
  rw [post_eq]
  exact h.queued.not_mem hst hwaiting

theorem Along.lanesSettled (hopening : st.phase = .opening) (hfresh : s.maps.inbound.lookup s.nextRequestId = none) (ok : Bool)
    (sends : Sends) :
    Along silent s₀ none none (s.lanesSettled n st ok sends) := by
  have hwaiting : st.phase ≠ .waiting := by rw [hopening]; exact nofun
  unfold PageClient.lanesSettled
  split
  · exact h.schedule hst hopening hfresh sends
  split
  · exact h.ends (.inl rfl) (h.queued.not_mem hst hwaiting) st.swId
  · rename_i hc
    exact h.noStart hst (by rw [hopening]; rfl) hwaiting (Bool.eq_false_iff.2 hc) _

theorem Along.resumed {channel : Option Nat} (hgranted : st.phase = .granted channel)
    (hfresh : s.maps.inbound.lookup s.nextRequestId = none) (sends : Sends) :
    Along silent s₀ none none (s.resumed n st channel sends) := by
  have hphase : st.phase.isUnstarted = true := by rw [hgranted]; rfl
  have hwaiting : st.phase ≠ .waiting := by rw [hgranted]; exact nofun
  unfold PageClient.resumed
  split
  · rename_i c _
    obtain ⟨hdrifts, hqueued⟩ := h.queued.releaseChannelReservation c
    obtain ⟨st', hst', hmoves⟩ := hdrifts.forth n st hst
    refine (h.drift hdrifts hqueued).ends (.inl rfl) (hqueued.not_mem hst' ?_) st.swId
    rcases hmoves.phase with heq | ⟨hc, -⟩
    · rw [heq]
      exact hwaiting
    · exact absurd hc hwaiting
  · exact h.ends (.inl rfl) (h.queued.not_mem hst hwaiting) st.swId
  · rename_i c hcancelled
    exact h.begin hst hphase hwaiting hcancelled hfresh c sends
  · rename_i hcancelled
    exact h.noStart hst hphase hwaiting hcancelled _

theorem Along.uploadSettled (huploading : st.phase = .uploading id c) (ok : Bool) (sends : Sends) :
    Along silent s₀ none none (s.uploadSettled n st id c ok sends) := by
  have hwaiting : st.phase ≠ .waiting := by rw [huploading]; exact nofun
  have hentry := (h.books.starts n st hst).uploading id c (.inl huploading)
  unfold PageClient.uploadSettled
  split
  · exact h.thrown (.inl rfl) hst hwaiting hentry
  split
  · exact h.ends (.inl rfl) (h.queued.not_mem hst hwaiting) st.swId
  have hup : Along silent s₀ none none { s with maps := { s.maps with uploads := s.maps.uploads.erase id } } :=
    h.withMaps rfl rfl (h.books.consistent.eraseUpload id)
  simp only
  split
  · exact hup.ends (.inl rfl) (h.queued.not_mem hst hwaiting) st.swId
  · exact hup.thrown (.inl rfl) hst hwaiting hentry

theorem Along.bodyCancelled (hcancelling : st.phase = .cancellingBody id c) :
    Along silent s₀ none none ((s.thrown n st.swId id).ends n st.swId) :=
  h.thrown (.inl rfl) hst (by rw [hcancelling]; exact nofun)
    ((h.books.starts n st hst).uploading id c (.inr hcancelling))

end

/-! ### Messages and frames -/

section

variable (h : Along silent s₀ none none s)
include h

theorem Along.cancelRequest (hsilent : ∀ entry, entry.swId = swId → silent entry) :
    Along silent s₀ none none (s.cancelRequest swId) := by
  unfold PageClient.cancelRequest
  split
  · rename_i id hid
    refine h.finish id (.inl rfl) fun entry hentry => .inr (hsilent entry ?_)
    obtain ⟨entry', hentry', hsw⟩ := h.books.consistent.inbound_of_sw hid
    simp_all
  split
  · rename_i n _
    obtain ⟨hdrifts, hqueued⟩ := (h.queued.cancelStart n).releaseLaneWaiters
    exact h.drift ((drifts_cancelStart s n).trans hdrifts) hqueued
  · exact h

theorem Along.creditMessage (swId : Int) (n : Int) (sent : Bool) :
    Along silent s₀ none none (s.creditMessage swId n sent) := by
  unfold PageClient.creditMessage
  split
  · exact h
  rename_i id hid
  split
  · exact h
  rename_i credit hcredit
  simp only
  split
  · exact h.failRequest id _
  obtain ⟨entry, hentry, hsw⟩ := h.books.consistent.inbound_of_sw hid
  have hcredited : Along silent s₀ none none
      { s with maps := { s.maps with outbound := s.maps.outbound.insert id (credit + n.toNat) } } :=
    h.withMaps rfl rfl (h.books.consistent.setOutbound (by rw [hcredit]; rfl) _)
  split
  · exact hcredited
  have hstart : s.startOf id = entry.start := by
    rw [startOf, h.books.consistent.controllers, hentry]
    rfl
  exact hcredited.report hentry (by rw [hstart]; rfl) (decide_eq_true hsw.symm)

theorem Along.grantUploadCredit (id : Nat) (count : Option Nat) :
    Along silent s₀ none none (s.grantUploadCredit id count) := by
  unfold PageClient.grantUploadCredit
  split
  · exact h
  rename_i credits hcredits
  split
  · exact h.failRequest id _
  split
  · exact h.failRequest id _
  · exact h.withMaps rfl rfl (h.books.consistent.setUpload (by rw [hcredits]; rfl) _)

theorem Along.onFrame (c id : Nat) (frame : PageFrame) :
    Along silent s₀ none none (s.onFrame c id frame) := by
  unfold PageClient.onFrame
  split
  · exact h
  rename_i entry hentry
  split
  · exact h
  split
  · exact h.postResponse hentry rfl rfl
  · exact h.failRequest id _
  · split
    · rename_i credit hcredit
      have hspent : Along silent s₀ none none { s with
          maps := { s.maps with outbound := s.maps.outbound.insert id credit } } :=
        h.withMaps rfl rfl (h.books.consistent.setOutbound (by rw [hcredit]; rfl) _)
      exact hspent.postResponse hentry rfl rfl
    · exact h.failRequest id _
    · exact h.failRequest id _
  · exact h.report hentry rfl (decide_eq_true rfl)
  · exact h.report hentry rfl (decide_eq_true rfl)
  · exact h.failRequest id _
  · exact h.grantUploadCredit id _

end

/-! ### The bridge is retired -/

theorem finish_maps (h : s.Queued) (id : Nat) : (s.finish id).maps = s.maps.remove id ∧ (s.finish id).nextStart = s.nextStart :=
  ⟨(finish_drifts h id).1.maps, (finish_drifts h id).1.nextStart.trans (drifts_abort s id).nextStart⟩

theorem Along.finishAll (hsilent : ∀ entry, silent entry) : ∀ (l : List (Sigma fun _ : Nat => Int)) {s : PageClient},
    Along silent s₀ none none s → Along silent s₀ none none (s.finishAll l) ∧ (s.finishAll l).nextStart = s.nextStart ∧
      ∀ id entry, (s.finishAll l).maps.inbound.lookup id = some entry →
        s.maps.inbound.lookup id = some entry ∧ ∀ e ∈ l, 1 ≤ e.2 → e.1 ≠ id
  | [], s, h => ⟨h, rfl, fun _ _ hentry => ⟨hentry, fun _ he => absurd he List.not_mem_nil⟩⟩
  | e :: l, s, h => by
    unfold PageClient.finishAll
    split
    · rename_i hdirect
      obtain ⟨halong, hnext, hleft⟩ := Along.finishAll hsilent l h
      simp_all
    obtain ⟨hmaps, hnext'⟩ := finish_maps h.queued e.1
    obtain ⟨halong, hnext, hleft⟩ :=
      Along.finishAll hsilent l (h.finish e.1 (.inl rfl) fun entry _ => .inr (hsilent entry))
    grind [RequestMaps.inbound_remove]

theorem cancelAll_eq (s : PageClient) : ∀ l : List (Sigma fun _ : Int => Nat), s.cancelAll l =
    ((l.filter fun e => 1 ≤ e.1).map Sigma.snd).foldl (fun t n => t.modifyStart n fun st => { st with cancelled := true }) s
  | [] => rfl
  | e :: l => by
    unfold PageClient.cancelAll
    split
    · rename_i hdirect
      rw [List.filter_cons_of_neg (by simpa using hdirect)]
      exact cancelAll_eq s l
    rename_i hworker
    rw [List.filter_cons_of_pos (by simpa using hworker)]
    exact cancelAll_eq _ l

theorem Books.cancelled_or_starting (h : s.Books none none) (hst : s.starts.lookup n = some st)
    (hphase : st.phase.isUnstarted = true) : st.cancelled = true ∨ ⟨st.swId, n⟩ ∈ s.startingRequests.entries.reverse := by
  cases hlive : st.cancelled with
  | true => exact .inl rfl
  | false =>
    have hmay := (h.starts n st hst).unstarted nofun hphase hlive
    exact .inr (List.mem_reverse.2 ((Assoc.mem_entries_iff_lookup ..).2 hmay.tracked))

theorem Books.aborted_or_controlled (h : s.Books none none) (hst : s.starts.lookup n = some st)
    (hphase : st.phase.isUnstarted = false) :
    st.aborted = true ∨ n ∈ s.maps.requestAbortControllers.entries.reverse.map Sigma.snd := by
  cases hgoing : st.aborted with
  | true => exact .inl rfl
  | false =>
    have hrequest : ∃ id c, st.phase = .uploading id c ∨ st.phase = .cancellingBody id c := by
      cases hp : st.phase with
      | opening | waiting | granted _ =>
        rw [hp] at hphase
        cases hphase
      | uploading id c => exact ⟨id, c, .inl rfl⟩
      | cancellingBody id c => exact ⟨id, c, .inr rfl⟩
    obtain ⟨id, c, hrequest⟩ := hrequest
    obtain ⟨entry, hentry, hstart, -⟩ := (h.starts n st hst).uploading id c hrequest hgoing
    have hcontroller : s.maps.requestAbortControllers.lookup id = some n := by grind [h.consistent.controllers]
    exact .inr (List.mem_map.2 ⟨⟨id, n⟩, List.mem_reverse.2 ((Assoc.mem_entries_iff_lookup ..).2 hcontroller), rfl⟩)

structure Idle (s : PageClient) : Prop where
  inbound : ∀ id, s.maps.inbound.lookup id = none
  starts : ∀ n st, s.starts.lookup n = some st → st.phase.isUnstarted = true → st.cancelled = true

theorem Along.retire (h : Along silent s₀ none none s) (hsilent : ∀ entry, silent entry) :
    Along silent s₀ none none s.retireWorkerBridgeRequests ∧ s.retireWorkerBridgeRequests.Idle ∧
      s.retireWorkerBridgeRequests.nextStart = s.nextStart := by
  obtain ⟨hfinished, hnext, hleft⟩ := h.finishAll hsilent s.maps.swByRequest.entries.reverse
  unfold PageClient.retireWorkerBridgeRequests
  simp only
  generalize s.finishAll s.maps.swByRequest.entries.reverse = t at hfinished hnext hleft ⊢
  rw [cancelAll_eq]
  obtain ⟨hdrifts, hqueued, -, hcancelled⟩ := modifyAll_spec (f := fun st => { st with
      cancelled := true }) .cancel (fun _ => rfl)
    (P := fun st => st.cancelled = true) (fun _ => rfl) (fun _ _ hmoves => hmoves.cancelled)
    ((t.startingRequests.entries.reverse.filter fun e => 1 ≤ e.1).map Sigma.snd) hfinished.queued
  refine ⟨hfinished.drift hdrifts hqueued, ⟨fun id => ?_, fun n st hst hphase => ?_⟩, hdrifts.nextStart.trans hnext⟩
  · rw [hdrifts.maps]
    refine Option.eq_none_iff_forall_ne_some.2 fun entry hentry => ?_
    obtain ⟨hthere, hnone⟩ := hleft id entry hentry
    have hsw : s.maps.swByRequest.lookup id = some entry.swId := by
      rw [h.books.consistent.swByRequest, hthere]
      rfl
    exact hnone ⟨id, entry.swId⟩ (List.mem_reverse.2 ((Assoc.mem_entries_iff_lookup ..).2 hsw))
      (h.books.entries id entry hthere).positive rfl
  · obtain ⟨st', hst', hmoves⟩ := hdrifts.back n st hst
    rcases hfinished.books.cancelled_or_starting hst' (hmoves.isUnstarted ▸ hphase) with hdone | hmem
    · exact hmoves.cancelled hdone
    · have hworker : 1 ≤ st'.swId := (hfinished.books.starts n st' hst').positive
      exact hcancelled n (List.mem_map.2 ⟨⟨st'.swId, n⟩, List.mem_filter.2 ⟨hmem, decide_eq_true hworker⟩, rfl⟩) st hst

theorem Along.postErrors (message : Option String) : ∀ (l : List (Nat × Int)) {s : PageClient}, Along silent s₀ none none s → s.Idle →
    (∀ e ∈ l, e.1 < s.nextStart) → Along silent s₀ none none (l.foldl (fun t e => t.post (.err e.1 e.2 message)) s)
  | [], _, h, _, _ => h
  | e :: l, s, h, hidle, hlt => by
    have hposted : Along silent s₀ none none (s.post (.err e.1 e.2 message)) := by
      refine h.post _ (fun _ _ _ _ _ _ => rfl) (fun n hn => ?_) (fun id entry hentry => ?_) (fun n st hst hphase hlive => ?_)
      · cases hn
        exact hlt e List.mem_cons_self
      · rw [hidle.inbound] at hentry
        cases hentry
      · rw [hidle.starts n st hst hphase] at hlive
        cases hlive
    have hsame := post_eq s (.err e.1 e.2 message)
    refine Along.postErrors message l hposted ?_ fun e' he' => ?_
    · show (s.post (.err e.1 e.2 message)).Idle
      rw [hsame]
      exact ⟨hidle.inbound, hidle.starts⟩
    · grind

section

variable (h : Along silent s₀ none none s)
include h

theorem Along.retired_lt : ∀ e ∈ s.retired, e.1 < s.nextStart := by
  intro e he
  have hmem := (List.mem_filter.1 (List.mem_eraseDups.1 he)).1
  rcases List.mem_append.1 hmem with hmem | hmem
  · obtain ⟨⟨id, swId⟩, hin, rfl⟩ := List.mem_map.1 hmem
    have hsw := (Assoc.mem_entries_iff_lookup ..).1 (List.mem_reverse.1 hin)
    rw [h.books.consistent.swByRequest] at hsw
    obtain ⟨entry, hentry, -⟩ := Option.map_eq_some_iff.1 hsw
    have hstart : s.startOf id = entry.start := by
      rw [startOf, h.books.consistent.controllers, hentry]
      rfl
    show s.startOf id < s.nextStart
    rw [hstart]
    exact (h.books.entries id entry hentry).start
  · obtain ⟨⟨swId, n⟩, hin, rfl⟩ := List.mem_map.1 hmem
    exact h.books.tracks swId n ((Assoc.mem_entries_iff_lookup ..).1 (List.mem_reverse.1 hin))

theorem Along.reset (hsilent : ∀ entry, silent entry) :
    Along silent s₀ none none s.resetWorkerBridgeRequests := by
  obtain ⟨hretired, hidle, hnext⟩ := h.retire hsilent
  exact hretired.postErrors _ s.retired hidle fun e he => hnext ▸ h.retired_lt e he

theorem Along.withPort (port : Bool)
    (hentries : port = false → ∀ id entry, s.maps.inbound.lookup id = some entry → .down ∈ s.posts.drop entry.arrived)
    (hstarts : port = false → ∀ n st, s.starts.lookup n = some st → st.phase.isUnstarted = true → st.cancelled = false →
      .down ∈ s.posts.drop st.arrived) : Along silent s₀ none none { s with port := port } := by
  refine ⟨{ h.books with
      entries := fun id entry hentry => ?_, starts := fun n st hst => ?_ }, h.queued.congr rfl rfl, h.posts, h.accounts⟩
  · obtain ⟨hstart, harrived, hpositive, hclean, -⟩ := h.books.entries id entry hentry
    exact ⟨hstart, harrived, hpositive, hclean, fun hport => hentries hport id entry hentry⟩
  obtain ⟨hstart, harrived, hpositive, hunstarted, huploading⟩ := h.books.starts n st hst
  refine ⟨hstart, harrived, hpositive, fun hy hphase hcancelled => ?_, huploading⟩
  obtain ⟨hsilent, hnone, htracked, hfree, -⟩ := hunstarted hy hphase hcancelled
  exact ⟨hsilent, hnone, htracked, hfree, fun hport => hstarts hport n st hst hphase hcancelled⟩

end

/-! ### Lanes close, and the transport with lane zero -/

theorem Along.failAll : ∀ (l : List (Sigma fun _ : Nat => InboundRequest)) {s : PageClient}, Along silent s₀ none none s →
    l.NodupKeys → (∀ e ∈ l, s.maps.inbound.lookup e.1 = some e.2) → Along silent s₀ none none (s.failAll l)
  | [], _, h, _, _ => h
  | e :: l, s, h, hkeys, hthere => by
    obtain ⟨hnot, hkeys'⟩ := List.nodupKeys_cons.1 hkeys
    have hreported := h.report (hthere e List.mem_cons_self) (m := .err e.2.start e.2.swId (some "asset transport lane closed")) rfl
      (decide_eq_true rfl)
    refine Along.failAll l hreported hkeys' fun e' he' => ?_
    have hposted : (s.post (.err e.2.start e.2.swId (some "asset transport lane closed"))).Queued :=
      h.queued.congr (by rw [post_eq]) (by rw [post_eq])
    have hmaps : (s.post (.err e.2.start e.2.swId (some "asset transport lane closed"))).maps = s.maps := by rw [post_eq]
    rw [(finish_maps hposted e.1).1, hmaps, RequestMaps.inbound_remove, if_neg]
    · exact hthere e' (List.mem_cons_of_mem _ he')
    · grind

theorem Along.postDown (h : Along silent s₀ none none s) : Along silent s₀ none none (s.post .down) :=
  h.post .down nofun nofun (fun _ _ _ hne => ⟨hne, fun _ => rfl⟩)
    (fun _ _ _ _ _ hne => ⟨hne, nofun⟩)

theorem down_mem {arrived : Nat} (harrived : arrived ≤ s.posts.length) (htold : s.port = false → .down ∈ s.posts.drop arrived) :
    .down ∈ (s.post .down).posts.drop arrived := by
  rw [post_posts, List.drop_append_of_le_length harrived]
  cases hport : s.port with
  | true =>
    rw [reaches, if_pos ⟨hport, rfl⟩]
    exact List.mem_append_right _ List.mem_cons_self
  | false => exact List.mem_append_left _ (htold hport)

theorem abortAll_eq (s : PageClient) : ∀ l : List (Sigma fun _ : Nat => Nat), s.abortAll l =
    (l.map Sigma.snd).foldl (fun t n => t.modifyStart n fun st => { st with aborted := true }) s
  | [] => rfl
  | _ :: l => abortAll_eq _ l

theorem cancelStarts_eq (s : PageClient) : ∀ l : List (Sigma fun _ : Int => Nat), s.cancelStarts l =
    (l.map Sigma.snd).foldl (fun t n => t.modifyStart n fun st => { st with cancelled := true }) s
  | [] => rfl
  | _ :: l => cancelStarts_eq _ l

theorem grantNone_spec : ∀ (ws : List Nat) {s : PageClient}, s.QueuedFrom ws →
    Drifts s (s.grantNone ws) ∧ (s.grantNone ws).laneWaiters = []
  | [], _, _ => ⟨.of_lanes rfl, rfl⟩
  | n :: ws, s, h => by
    obtain ⟨st, hst, hwaiting⟩ := h.waiting n List.mem_cons_self
    obtain ⟨hdrifts, hnone⟩ := grantNone_spec ws (h.tail _ fun _ => rfl)
    exact ⟨(drifts_grant hst hwaiting none).trans hdrifts, hnone⟩

section

variable (h : Along silent s₀ none none s)
include h

theorem Along.clear (hd : Drifts { s with maps := .empty } t) (hq : t.Queued)
    (hsaid : ∀ id entry, s.maps.inbound.lookup id = some entry → Covered s.posts entry ∨ silent entry)
    (hcancelled : ∀ n st, t.starts.lookup n = some st → st.phase.isUnstarted = true → st.cancelled = true)
    (haborted : ∀ n st, t.starts.lookup n = some st → st.phase.isUnstarted = false → st.aborted = true) :
    Along silent s₀ none none t := by
  have hmaps : t.maps = .empty := hd.maps
  have hposts : t.posts = s.posts := hd.posts
  have hnext : t.nextStart = s.nextStart := hd.nextStart
  refine ⟨⟨hmaps ▸ RequestMaps.consistent_empty, fun id entry hentry => ?_, fun id entry id' entry' hentry => ?_, fun n st hst => ?_,
    ?_, ?_, ?_⟩, hq, ?_, fun id entry hentry => ?_⟩
  · rw [hmaps] at hentry
    cases hentry
  · rw [hmaps] at hentry
    cases hentry
  · obtain ⟨st', hst', hmoves⟩ := hd.back n st hst
    obtain ⟨hstart, harrived, hpositive, -, -⟩ := h.books.starts n st' hst'
    refine ⟨hnext ▸ hstart, by rw [hmoves.arrived, hposts]; exact harrived, by rw [hmoves.swId]; exact hpositive,
      fun _ hphase hlive => ?_, fun id c hphase hgoing => ?_⟩
    · rw [hcancelled n st hst hphase] at hlive
      cases hlive
    · rw [haborted n st hst (by rcases hphase with hc | hc <;> rw [hc] <;> rfl)] at hgoing
      cases hgoing
  · rw [hnext, show t.startingRequests = s.startingRequests from hd.startingRequests]
    exact h.books.tracks
  · rw [hposts, hnext]
    exact h.books.posts
  · rw [hposts]
    exact h.books.ordered
  · rw [hposts]
    exact h.posts
  rw [hposts]
  rcases h.accounts id entry hentry with hthere | hsaid'
  · exact .inr (hsaid id entry hthere)
  · exact .inr hsaid'

theorem Along.teardown : Along silent s₀ none none s.teardown := by
  unfold PageClient.teardown
  split
  · exact h
  have hflag : Along silent s₀ none none { s with transportDown := true } :=
    h.drift (.of_lanes rfl) (h.queued.congr rfl rfl)
  have htold := hflag.postDown
  have hsaid : ∀ id entry, s.maps.inbound.lookup id = some entry →
      .down ∈ ({ s with transportDown := true }.post .down).posts.drop entry.arrived := fun id entry hentry =>
    down_mem (s := { s with transportDown := true }) (h.books.entries id entry hentry).arrived
      (h.books.entries id entry hentry).told
  have hmaps : ({ s with transportDown := true }.post .down).maps = s.maps := by rw [post_eq]
  have hstarting : ({ s with transportDown := true }.post .down).startingRequests = s.startingRequests := by rw [post_eq]
  have hwaiters : ({ s with transportDown := true }.post .down).laneWaiters = s.laneWaiters := by rw [post_eq]
  simp only
  rw [abortAll_eq, cancelStarts_eq]
  generalize { s with transportDown := true }.post .down = told at htold hsaid hmaps hstarting hwaiters ⊢
  obtain ⟨hd₁, hq₁, hw₁, haborted⟩ := modifyAll_spec (f := fun st => { st with aborted := true }) .abort (fun _ => rfl)
    (P := fun st => st.aborted = true) (fun _ => rfl) (fun _ _ hmoves => hmoves.aborted)
    (s.maps.requestAbortControllers.entries.reverse.map Sigma.snd) htold.queued
  have hlong := htold.drift hd₁ hq₁
  generalize (s.maps.requestAbortControllers.entries.reverse.map Sigma.snd).foldl
    (fun t n => t.modifyStart n fun st => { st with aborted := true }) told = a at hd₁ hq₁ hw₁ haborted hlong ⊢
  obtain ⟨hd₂, hq₂, hw₂, hcancelled⟩ := modifyAll_spec (f := fun st => { st with cancelled := true }) .cancel (fun _ => rfl)
    (P := fun st => st.cancelled = true) (fun _ => rfl) (fun _ _ hmoves => hmoves.cancelled)
    (s.startingRequests.entries.reverse.map Sigma.snd) (s := { a with maps := .empty }) (hq₁.congr rfl rfl)
  generalize (s.startingRequests.entries.reverse.map Sigma.snd).foldl
    (fun t n => t.modifyStart n fun st => { st with
        cancelled := true }) { a with maps := .empty } = b at hd₂ hq₂ hw₂ hcancelled ⊢
  have hsame : s.laneWaiters = b.laneWaiters := ((hw₂.trans hw₁).trans hwaiters).symm
  obtain ⟨hd₃, hnone⟩ := grantNone_spec s.laneWaiters (s := b) (hsame ▸ ⟨hq₂.nodup, hq₂.waiting⟩)
  have hd := (hd₂.trans hd₃).trans (.of_lanes (t := { b.grantNone s.laneWaiters with
    channelLoads := ∅, channelOpenPromises := [], bulkIdleTimer := false }) rfl)
  refine hlong.clear hd ⟨?_, fun n hn => ?_⟩ (fun id entry hentry => ?_) (fun n st hst hphase => ?_) (fun n st hst hphase => ?_)
  · simp [hnone]
  · grind
  · rw [hd₁.maps, hmaps] at hentry
    rw [hd₁.posts]
    exact .inl ⟨.down, hsaid id entry hentry, rfl⟩
  · obtain ⟨st₂, hst₂, hmoves₂⟩ := (hd₃.trans (.of_lanes rfl)).back n st hst
    obtain ⟨st₁, hst₁, hmoves₁⟩ := hd₂.back n st₂ hst₂
    rcases hlong.books.cancelled_or_starting hst₁ ((hmoves₁.trans hmoves₂).isUnstarted ▸ hphase) with hdone | hmem
    · exact (hmoves₁.trans hmoves₂).cancelled hdone
    · rw [hd₁.startingRequests, hstarting] at hmem
      exact hmoves₂.cancelled (hcancelled n (List.mem_map.2 ⟨⟨st₁.swId, n⟩, hmem, rfl⟩) st₂ hst₂)
  · obtain ⟨st₁, hst₁, hmoves₁⟩ := hd.back n st hst
    obtain ⟨st₀, hst₀, hmoves₀⟩ := hd₁.back n st₁ hst₁
    rcases htold.books.aborted_or_controlled hst₀ ((hmoves₀.trans hmoves₁).isUnstarted ▸ hphase) with hdone | hmem
    · exact (hmoves₀.trans hmoves₁).aborted hdone
    · rw [hmaps] at hmem
      exact hmoves₁.aborted (haborted n hmem st₁ hst₁)

theorem Along.handleChannelClose (c : Nat) : Along silent s₀ none none (s.handleChannelClose c) := by
  unfold PageClient.handleChannelClose
  split
  · split
    · exact h.teardown
    · exact h
  have hremoved : Along silent s₀ none none (s.removeChannel c) := h.drift (drifts_removeChannel s c) (h.queued.congr rfl rfl)
  obtain ⟨hdrifts, hqueued⟩ := hremoved.queued.releaseLaneWaiters
  refine (hremoved.drift hdrifts hqueued).failAll _ ?_ fun e he => ?_
  · exact ((List.perm_nodupKeys (List.reverse_perm _)).2 (AList.nodupKeys _)).sublist List.filter_sublist
  · exact (Assoc.mem_entries_iff_lookup ..).1 (List.mem_reverse.1 (List.mem_filter.1 he).1)

end

/-! ### Any event -/

def silences : PageEvent → InboundRequest → Prop
  | .cancel swId, entry => entry.swId = swId
  | .attached, _ | .standby, _ => True
  | _, _ => False

theorem Along.step {e : PageEvent} (h : Along (silences e) s none none s) (hnew : s.newId e = true) (hfresh : s.freshId e = true)
    (hstep : s.step e = some t) : Along (silences e) s none none t := by
  cases e with
  | req swId head hasStream sends =>
    obtain ⟨hguard, rfl⟩ := of_guard hstep
    exact h.startRequest hguard.1 hguard.2 (Option.isNone_iff_eq_none.1 hnew)
      (Option.isNone_iff_eq_none.1 hfresh) head hasStream sends
  | credit swId n sent =>
    obtain ⟨-, rfl⟩ := of_guard hstep
    exact h.creditMessage swId n sent
  | cancel swId =>
    obtain ⟨-, rfl⟩ := of_guard hstep
    exact h.cancelRequest fun entry hsw => hsw
  | direct head sends => cases hnew
  | directCredit id n sent => cases hnew
  | cancelDirect id => cases hnew
  | attached =>
    obtain ⟨-, rfl⟩ := of_guard hstep
    exact h.reset fun _ => trivial
  | standby =>
    obtain ⟨-, rfl⟩ := of_guard hstep
    obtain ⟨hretired, hidle, -⟩ := h.retire fun _ => trivial
    refine hretired.withPort false (fun _ id entry hentry => ?_) (fun _ n st hst hphase hlive => ?_)
    · rw [hidle.inbound] at hentry
      cases hentry
    · rw [hidle.starts n st hst hphase] at hlive
      cases hlive
  | rejectedAttach =>
    obtain ⟨-, rfl⟩ := of_guard hstep
    have hsame := post_eq s .down
    refine h.postDown.withPort false (fun _ id entry hentry => ?_) (fun _ n st hst hphase hlive => ?_)
    · rw [hsame] at hentry
      exact down_mem (h.books.entries id entry hentry).arrived (h.books.entries id entry hentry).told
    rw [hsame] at hst
    have hok := h.books.starts n st hst
    exact down_mem hok.arrived (hok.unstarted nofun hphase hlive).told
  | attachPort =>
    obtain ⟨-, rfl⟩ := Steps.of_unless hstep
    exact h.withPort true nofun nofun
  | frame c id frame =>
    cases hstep
    exact h.onFrame c id frame
  | lanes n ok sends =>
    simp only [PageClient.step] at hstep
    split at hstep
    · rename_i st hst
      split at hstep
      · rename_i hopening
        cases hstep
        exact h.lanesSettled hst hopening (Option.isNone_iff_eq_none.1 hfresh) ok sends
      · cases hstep
    · cases hstep
  | resume n sends =>
    simp only [PageClient.step] at hstep
    split at hstep
    · rename_i st hst
      split at hstep
      · rename_i channel hgranted
        cases hstep
        exact h.resumed hst hgranted (Option.isNone_iff_eq_none.1 hfresh) sends
      all_goals cases hstep
    · cases hstep
  | takeUploadCredit n =>
    simp only [PageClient.step] at hstep
    split at hstep
    · split at hstep
      · split at hstep
        · rename_i hcredits
          cases hstep
          exact h.withMaps rfl rfl (h.books.consistent.setUpload (by rw [hcredits]; rfl) _)
        all_goals cases hstep
      all_goals cases hstep
    · cases hstep
  | uploaded n ok sends =>
    simp only [PageClient.step] at hstep
    split at hstep
    · rename_i st hst
      split at hstep
      · rename_i huploading
        cases hstep
        exact h.uploadSettled hst huploading ok sends
      all_goals cases hstep
    · cases hstep
  | bodyCancelled n =>
    simp only [PageClient.step] at hstep
    split at hstep
    · rename_i st hst
      split at hstep
      · rename_i hcancelling
        cases hstep
        exact h.bodyCancelled hst hcancelling
      all_goals cases hstep
    · cases hstep
  | opens c =>
    obtain ⟨-, rfl⟩ := of_guard hstep
    exact h.lanes (.of_lanes rfl)
  | closing c =>
    obtain ⟨-, rfl⟩ := of_guard hstep
    exact h.lanes (drifts_closeChannel s c) rfl rfl
  | closed c =>
    obtain ⟨-, rfl⟩ := of_guard hstep
    refine Along.handleChannelClose ?_ c
    exact h.lanes (.of_lanes rfl)
  | buffered c amount =>
    cases hstep
    exact h.lanes (.of_lanes rfl)
  | bulkOpened ok =>
    obtain ⟨-, rfl⟩ := of_guard hstep
    split
    · exact h.lanes (.of_lanes rfl)
    · exact h.lanes (.of_lanes rfl)
  | idleTimer =>
    obtain ⟨-, rfl⟩ := of_guard hstep
    unfold PageClient.idleTimer
    simp only
    split
    · exact h.lanes (.of_lanes rfl)
    · exact h.lanes (.of_lanes rfl)
  | teardown =>
    obtain ⟨-, rfl⟩ := of_guard hstep
    exact h.teardown
  | drawId =>
    cases hstep
    exact h.lanes (.of_lanes rfl)

def IdsInOrder (s : PageClient) (e : PageEvent) : Prop := s.newId e = true ∧ s.freshId e = true

instance (s : PageClient) (e : PageEvent) : Decidable (s.IdsInOrder e) := inferInstanceAs (Decidable (_ ∧ _))

theorem books_connected : connected.Books none none where
  consistent := RequestMaps.consistent_empty
  entries _ _ h := by cases h
  unique _ _ _ _ h := by cases h
  starts _ _ h := by cases h
  tracks _ _ h := by cases h
  posts _ h := by cases h
  ordered := .nil

theorem books_run {events : List PageEvent} (hids : Steps.Meets step IdsInOrder connected events)
    (hrun : run step connected events = some s) : s.Books none none ∧ s.Queued := by
  refine Steps.run_inv_when step IdsInOrder (fun s => s.Books none none ∧ s.Queued) (fun u e v hu hin hstep => ?_) events
    connected s ⟨books_connected, .nil, fun _ h => absurd h List.not_mem_nil⟩ hids hrun
  have halong := (Along.start hu.1 hu.2).step hin.1 hin.2 hstep
  exact ⟨halong.books, halong.queued⟩

/-- **The maps agree whenever no method is running; a request that leaves them without a `cancel` of its own and without its
bridge has been reported since it came; and after its end nothing of a response is posted.** -/
theorem ends_reported (events : List PageEvent) (s : PageClient) (hids : Steps.Meets step IdsInOrder connected events)
    (hrun : run step connected events = some s) :
    s.maps.Consistent ∧
    (∀ e t, s.IdsInOrder e → s.step e = some t → ∀ id entry, s.maps.inbound.lookup id = some entry →
      t.maps.inbound.lookup id ≠ some entry → Covered t.posts entry ∨ silences e entry) ∧
    s.posts.Pairwise PagePost.Follows := by
  obtain ⟨hbooks, hqueued⟩ := books_run hids hrun
  refine ⟨hbooks.consistent, fun e t hin hstep id entry hentry hgone => ?_, hbooks.ordered⟩
  have halong := (Along.start hbooks hqueued).step hin.1 hin.2 hstep
  exact (halong.accounts id entry hentry).resolve_left hgone

/-- An upload goes on while another request is answered, and then lane zero closes. -/
theorem ends_reported_lane_closes : ∃ s t, run step connected [.req 1 interactiveHead false {},
      .req 2 ⟨.interactive, [], true, 16⟩ true {}, .frame 0 1 (.resHead true), .frame 0 1 .resEnd] = some s ∧
    s.maps.Consistent ∧ s.posts = [.head 0 1, .finish 0 1] ∧ s.step (.closed 0) = some t ∧
    Covered t.posts ⟨2, 0, 1, false, 0⟩ := by
  have hends : (run step connected [.req 1 interactiveHead false {},
      .req 2 ⟨.interactive, [], true, 16⟩ true {}, .frame 0 1 (.resHead true), .frame 0 1 .resEnd]).map
        (fun s => (s.posts, s.maps.inbound.lookup 2, (s.step (.closed 0)).isSome,
          (s.step (.closed 0)).map fun t => t.maps.inbound.lookup 2)) =
      some ([.head 0 1, .finish 0 1], some ⟨2, 0, 1, false, 0⟩, true, some none) := by
    decide +kernel
  obtain ⟨s, hrun, h⟩ := Option.map_eq_some_iff.1 hends
  simp only [Prod.mk.injEq] at h
  obtain ⟨hposts, hentry, hsome, hgone⟩ := h
  obtain ⟨t, hstep⟩ := Option.isSome_iff_exists.1 hsome
  rw [hstep] at hgone
  have hnone : t.maps.inbound.lookup 2 = none := Option.some.inj hgone
  obtain ⟨hconsistent, hcovered, -⟩ := ends_reported _ s (by decide +kernel) hrun
  refine ⟨s, t, hrun, hconsistent, hposts, hstep, (hcovered (.closed 0) t ⟨rfl, rfl⟩ hstep 2 _ hentry ?_).resolve_right id⟩
  rw [hnone]
  exact fun hc => by cases hc

/-- **A request that stays at work for as long as the ids last is written over**: the worker's two maps no longer agree. -/
theorem first_request_written_over : ∃ events s, Steps.Meets step (fun s e => s.newId e = true) connected events ∧
    run step connected events = some s ∧
    s.maps.requestBySw.lookup 1 = some 1 ∧ s.maps.swByRequest.lookup 1 = some 4294967296 := by
  obtain ⟨events, hmeets, hrun⟩ := overwritten
  refine ⟨events, _, hmeets, hrun, ?_, AList.lookup_insert _⟩
  exact AList.lookup_insert_ne (by decide)

end PageClient
end YuriRtc
