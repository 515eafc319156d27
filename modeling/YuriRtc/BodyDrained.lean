import YuriRtc.BodyRelease
/-!
# BodyDrained — the reservation of a request body is given back once

Two invariants over every interleaving.  `Settled` is about `onDrained`: once a body is closed, somebody still has the
cleanup to do until it has run.  `Counted` is about the chunks: one that was taken out of the ring and is not the current
one has either been handed over whole and counted once, or dropped before its last byte.
-/
namespace YuriRtc

open AsyncRequestBody (enqueue remaining section_step took_of_end took_of_more)
open Steps (exists_run of_unless run run_inv)
namespace LockedBody

open AsyncRequestBody (accepts delivers BodySection)

variable {s s' : LockedBody}

/-! ### The cleanup -/

structure Settled (s : LockedBody) : Prop where
  place : s.body.InPlace
  emptied : s.body.closed = true → s.body.chunks.toList = []
  clean : s.body.drained = true →
    s.body.chunks.toList = [] ∧ s.body.hasCurrent = false ∧ (s.body.closed = true ∨ s.body.ended = true)
  once : s.drains = if s.body.drained then 1 else 0
  releasing : 0 < s.closersReleasing + s.consumersReleasing → s.body.closed = true ∧ s.body.hasCurrent = false
  closing : s.body.closers ≠ 0 ∨ s.closerHolds = true → s.body.closed = true
  exclusive : s.closerHolds = true → s.body.consumer = .idle
  owed : s.body.closed = true → s.body.drained = true ∨ s.body.closers ≠ 0 ∨ s.closerHolds = true ∨
    0 < s.closersReleasing ∨ s.body.consumer ≠ .idle ∨ 0 < s.consumersReleasing

theorem Settled.init : init.Settled where
  place := .new
  emptied h := by cases h
  clean h := by cases h
  once := rfl
  releasing h := absurd h (by decide)
  closing h := by
    rcases h with h | h
    · exact absurd rfl h
    · cases h
  exclusive h := by cases h
  owed h := by cases h

variable {e : BodyEvent}

variable {b : AsyncRequestBody}

theorem Settled.body (h : s.Settled) (henters : s.closerHolds = true → e.enters = false)
    (hb : BodySection s.body e b) : (s.note e b).Settled := by
  have hin := hb.inPlace h.place
  -- what the sections leave of the flags
  have hdrains : b.drained = s.body.drained → (s.note e b).drains = s.drains := by simp_all [note]
  cases hb with
  | moved wake ctxDone c heq haccepts hdelivers hidle hleaves hcalling hplace =>
    subst heq
    refine ⟨hin, h.emptied, h.clean, (hdrains rfl).trans h.once, h.releasing, h.closing, fun hheld => ?_, fun hclosed => ?_⟩
    · refine (hleaves (h.exclusive hheld)).resolve_right fun hc => ?_
      rw [henters hheld] at hc
      cases hc
    · refine (h.owed hclosed).imp_right (Or.imp_right (Or.imp_right (Or.imp_right (Or.imp_left fun hbusy hc => ?_))))
      exact hbusy (hidle hc)
  | accepted payload chunks heq hpush hopen haccepts hdelivers =>
    subst heq
    refine ⟨hin, fun hc => ?_, fun hd => ?_, (hdrains rfl).trans h.once, h.releasing, h.closing, h.exclusive, h.owed⟩
    · change s.body.closed = true at hc
      rw [hopen.1] at hc
      cases hc
    rcases (h.clean hd).2.2 with hc | he
    · grind
    · grind
  | ended heq haccepts hdelivers =>
    subst heq
    exact { h with
        place := hin, clean := fun hd => ⟨(h.clean hd).1, (h.clean hd).2.1, .inr rfl⟩, once := (hdrains rfl).trans h.once }
  | took chunk c hfront heq hnone hfresh hbusy haccepts hdelivers =>
    subst heq
    -- a chunk in the ring: nothing is closed or drained yet
    have hopen : s.body.closed = false := by cases hc : s.body.closed <;> simp_all [h.emptied]
    have hundrained : s.body.drained = false := by
      cases hd : s.body.drained with
      | false => rfl
      | true =>
        rw [(h.clean hd).1] at hfront
        cases hfront
    have hno : ∀ {p : Prop}, s.body.closed = true → p := by simp [hopen]
    refine ⟨hin, hno, fun hd => ?_, (hdrains rfl).trans h.once, fun hr => hno (h.releasing hr).1, h.closing, fun hheld => ?_, hno⟩
    · change s.body.drained = true at hd
      grind
    · exact hno (h.closing (.inr hheld))
  | reachedEnd c heq hempty hnone hended hbusy hc haccepts hdelivers =>
    subst heq
    refine ⟨hin, h.emptied, fun _ => ⟨hempty, hnone, .inr hended⟩, ?_, h.releasing, h.closing, fun hheld => ?_, fun _ => .inl rfl⟩
    · have honce := h.once
      simp_all [note, and_true]
    · exact absurd (h.exclusive hheld) hbusy
  | handed n next heq hsome hn hnext hbusy haccepts hdelivers =>
    subst heq
    have hundrained : s.body.drained = false := by
      cases hd : s.body.drained with
      | false => rfl
      | true =>
        rw [(h.clean hd).2.1] at hsome
        cases hsome
    have hidleless : (s.body.took n next).consumer ≠ .idle := by
      by_cases hall : s.body.currentAt + n = s.body.current.length <;> simp_all [took_of_end,
        took_of_more]
    have hfields : (s.body.took n next).closed = s.body.closed ∧ (s.body.took n next).chunks = s.body.chunks ∧
        (s.body.took n next).drained = s.body.drained ∧ (s.body.took n next).closers = s.body.closers := by
      unfold AsyncRequestBody.took
      split <;> exact ⟨rfl, rfl, rfl, rfl⟩
    obtain ⟨hclosed, hchunks, hdrained, hclosers⟩ := hfields
    refine ⟨hin, ?_, fun hd => ?_, ?_, fun hr => ?_, ?_, fun hheld => ?_, fun _ => ?_⟩
    · simp only [note, hclosed, hchunks]
      exact h.emptied
    · grind [note]
    · rw [hdrains hdrained, h.once]
      simp only [note, hdrained]
    · have hfree := (h.releasing hr).2
      rw [hsome] at hfree
      cases hfree
    · simp only [note, hclosed, hclosers]
      exact h.closing
    · exact absurd (h.exclusive hheld) hbusy.1
    · exact .inr (.inr (.inr (.inr (.inl hidleless))))

theorem once_releaseDrained (h : s.drains = if s.body.drained then 1 else 0) : s.releaseDrained.drains = 1 := by
  simp_all [releaseDrained]

theorem Settled.close (h : s.Settled) (discarded : List Nat) :
    ({ s with body := s.body.close, discarded := discarded } : LockedBody).Settled := by
  by_cases hclosed : s.body.closed = true
  · have hbody : s.body.close = { s.body with closers := s.body.closers + 1 } := if_pos hclosed
    rw [hbody]
    exact { h with
        place := h.place.alike, closing := fun _ => hclosed,
        owed := fun _ => .inr (.inl (Nat.succ_ne_zero _)) }
  · have hbody : s.body.close =
        { s.body with closed := true, chunks := s.body.chunks.clear, wake := true, closers := s.body.closers + 1 } :=
      if_neg hclosed
    rw [hbody]
    exact ⟨h.place.alike, fun _ => Rings.Ring.toList_clear _,
      fun hd => ⟨Rings.Ring.toList_clear _, (h.clean hd).2.1, .inl rfl⟩, h.once,
      fun hr => ⟨rfl, (h.releasing hr).2⟩, fun _ => rfl, h.exclusive, fun _ => .inr (.inl (Nat.succ_ne_zero _))⟩

theorem Settled.tryLock (h : s.Settled) (hstep : s.step .tryLock = some s') : s'.Settled := by
  simp only [step] at hstep
  split at hstep
  · cases hstep
  rename_i hsome
  have hclosed := h.closing (.inl hsome)
  split at hstep
  · next hfree =>
    cases hstep
    exact ⟨h.place.alike, h.emptied, h.clean, h.once, h.releasing, fun _ => hclosed, fun _ => hfree.1,
      fun _ => .inr (.inr (.inl rfl))⟩
  rename_i htaken
  -- `readMu` is held, by a consumer or by another `Close`, and the cleanup is left to it
  cases hstep
  refine { h with place := h.place.alike, closing := fun _ => hclosed, owed := fun _ => .inr (.inr ?_) }
  grind

theorem InPlace.clearCurrent {c : Consumer} (hquiet : c.calling = false) (hat : c.atChunk = false) :
    ({ b.clearCurrent with consumer := c } : AsyncRequestBody).InPlace where
  within := le_rfl
  absent _ := ⟨rfl, rfl⟩
  place _ := .without rfl hat hquiet
  inside next hc := by
    rw [show c = .consumed next from hc] at hquiet
    cases hquiet

theorem Settled.step {e : LockEvent} (h : s.Settled) (hstep : s.step e = some s') : s'.Settled := by
  cases e <;> simp only [LockedBody.step] at hstep
  case body e =>
    split at hstep
    · cases hstep
    rename_i hbarred
    obtain ⟨b, hb, rfl⟩ := Option.map_eq_some_iff.1 hstep
    have hplain : e ≠ .close ∧ e ≠ .closeCurrent ∧ e ≠ .unlock := by
      refine ⟨?_, ?_, ?_⟩ <;>
      · rintro rfl
        exact hbarred rfl
    refine h.body (fun hheld => ?_) (section_step h.place hplain hb)
    cases e <;> simp_all [barred, BodyEvent.enters]
  case close =>
    cases hstep
    exact h.close _
  case tryLock => exact h.tryLock hstep
  case closerUnlock =>
    split at hstep
    · next hheld =>
      cases hstep
      have hidle := h.exclusive hheld
      have hclosed := h.closing (.inr hheld)
      refine ⟨?_, h.emptied, fun hd => ⟨(h.clean hd).1, rfl, (h.clean hd).2.2⟩, h.once, fun _ => ⟨hclosed, rfl⟩,
        fun _ => hclosed, fun hc => (by cases hc), fun _ => .inr (.inr (.inr (.inl (Nat.succ_pos _))))⟩
      refine (InPlace.clearCurrent (b := s.body) (c := .idle) rfl rfl).alike rfl rfl rfl hidle
    · cases hstep
  case closerRelease =>
    split at hstep
    · cases hstep
    rename_i hsome
    cases hstep
    have hclosed := h.releasing (by omega)
    refine ⟨h.place.alike, h.emptied, fun _ => ⟨h.emptied hclosed.1, hclosed.2, .inl hclosed.1⟩,
      once_releaseDrained h.once, fun _ => hclosed, h.closing, h.exclusive, fun _ => .inl rfl⟩
  case unlock =>
    split at hstep
    · next result hconsumer =>
      have hnotheld : s.closerHolds = false := by cases hheld : s.closerHolds <;> simp_all [h.exclusive]
      split at hstep
      · next hclosed =>
        cases hstep
        exact ⟨InPlace.clearCurrent rfl rfl, h.emptied, fun hd => ⟨(h.clean hd).1, rfl, (h.clean hd).2.2⟩, h.once,
          fun _ => ⟨hclosed, rfl⟩, fun _ => hclosed, fun _ => rfl,
          fun _ => .inr (.inr (.inr (.inr (.inr (Nat.succ_pos _)))))⟩
      · next hopen =>
        cases hstep
        have hat : s.body.StandsAt (.returning result) := by
          rw [← hconsumer]
          exact h.place.place (by rw [hconsumer]; rfl)
        have hidle : s.body.StandsAt .idle := hat.elsewhere
        refine { h with
            place := ⟨h.place.within, h.place.absent, fun _ => ⟨hidle.holding, hidle.partway, rfl⟩,
              fun next hc => (by cases hc)⟩,
            exclusive := fun _ => rfl, owed := fun hc => absurd hc hopen }
    · cases hstep
  case consumerRelease =>
    split at hstep
    · cases hstep
    rename_i hsome
    cases hstep
    have hclosed := h.releasing (by omega)
    refine ⟨h.place.alike, h.emptied, fun _ => ⟨h.emptied hclosed.1, hclosed.2, .inl hclosed.1⟩,
      once_releaseDrained h.once, fun _ => hclosed, h.closing, h.exclusive, fun _ => .inl rfl⟩

/-! ### The chunks -/

def Accounted (s : LockedBody) (n : Nat) : Prop :=
  (n ∈ s.consumed ∧ n ∉ s.discarded ∧ s.accepted[n]? = some (s.handedOf n)) ∨
    (n ∈ s.discarded ∧ n ∉ s.consumed ∧ ∀ chunk, s.accepted[n]? = some chunk → (s.handedOf n).length < chunk.length)

structure Counted (s : LockedBody) : Prop where
  within : s.taken ≤ s.accepted.length
  ring : s.body.closed = false → s.body.chunks.toList = s.accepted.drop s.taken
  current : s.body.hasCurrent = true → 0 < s.taken ∧ s.accepted[s.taken - 1]? = some s.body.current ∧
    s.handedOf (s.taken - 1) = s.body.current.take s.body.currentAt
  future : ∀ n, s.taken ≤ n → s.handedOf n = []
  past : ∀ n, n < s.taken → s.body.hasCurrent = false ∨ n + 1 ≠ s.taken → s.Accounted n
  pending : ∀ n, s.taken ≤ n ∨ (s.body.hasCurrent = true ∧ n + 1 = s.taken) →
    n ∉ s.consumed ∧ (n ∈ s.discarded → s.body.closed = true ∧ s.taken ≤ n)
  nodup : s.consumed.Nodup

theorem handedOf_snoc (s : LockedBody) (m : Nat) (given : Bytes) (n : Nat) :
    ((((s.handed ++ [(m, given)]).filter (fun r => r.1 = n)).map Prod.snd).flatten : Bytes) =
      s.handedOf n ++ if m = n then given else [] := by grind [handedOf]

theorem handedOf_note (s : LockedBody) (e : BodyEvent) (b : AsyncRequestBody) (n : Nat) :
    (s.note e b).handedOf n = s.handedOf n ++ if s.taken - 1 = n then delivers s.body e else [] :=
  handedOf_snoc s _ _ n

theorem handedOf_note_nil (b : AsyncRequestBody) (h : delivers s.body e = []) (n : Nat) :
    (s.note e b).handedOf n = s.handedOf n := by
  rw [handedOf_note, h, ite_self, List.append_nil]

theorem Counted.init : init.Counted where
  within := le_rfl
  ring _ := rfl
  current h := by cases h
  future _ _ := rfl
  past n h := absurd h (Nat.not_lt_zero n)
  pending n _ := ⟨List.not_mem_nil, fun h => absurd h List.not_mem_nil⟩
  nodup := List.nodup_nil

theorem Counted.alike (h : s.Counted) (hclosed : s'.body.closed = s.body.closed := by rfl)
    (hchunks : s'.body.chunks = s.body.chunks := by rfl) (hcurrent : s'.body.current = s.body.current := by rfl)
    (hat : s'.body.currentAt = s.body.currentAt := by rfl) (hsome : s'.body.hasCurrent = s.body.hasCurrent := by rfl)
    (haccepted : s'.accepted = s.accepted := by rfl) (htaken : s'.taken = s.taken := by rfl)
    (hhanded : ∀ n, s'.handedOf n = s.handedOf n := by exact fun _ => rfl) (hconsumed : s'.consumed = s.consumed := by rfl)
    (hdiscarded : s'.discarded = s.discarded := by rfl) : s'.Counted := by
  have haccounted : ∀ n, s.Accounted n → s'.Accounted n := by grind [Accounted]
  refine ⟨?_, ?_, ?_, ?_, ?_, ?_, ?_⟩
  · rw [htaken, haccepted]
    exact h.within
  · rw [hclosed, hchunks, haccepted, htaken]
    exact h.ring
  · rw [hsome, htaken, haccepted, hcurrent, hhanded, hat]
    exact h.current
  · rw [htaken]
    exact fun n hn => (hhanded n).trans (h.future n hn)
  · rw [htaken, hsome]
    exact fun n hn hpast => haccounted n (h.past n hn hpast)
  · rw [htaken, hsome, hconsumed, hdiscarded, hclosed]
    exact h.pending
  · rw [hconsumed]
    exact h.nodup

theorem Counted.accepted {payload : Bytes} {chunks : Rings.Ring Bytes requestBodyQueueFrames} (h : s.Counted)
    (hpush : s.body.chunks.push payload = some chunks) (hopen : s.body.closed = false)
    (haccepts : accepts s.body e = [payload]) (hdelivers : delivers s.body e = []) :
    (s.note e { s.body with chunks := chunks, wake := true }).Counted := by
  generalize hb : ({ s.body with chunks := chunks, wake := true } : AsyncRequestBody) = b
  have hhanded := handedOf_note_nil (s := s) (e := e) b hdelivers
  have hlist : (s.note e b).accepted = s.accepted ++ [payload] := by rw [← haccepts]; rfl
  have hsame : b.hasCurrent = s.body.hasCurrent ∧ b.consumer = s.body.consumer ∧ b.closed = s.body.closed ∧
      b.current = s.body.current ∧ b.currentAt = s.body.currentAt ∧ b.chunks = chunks := by simp [← hb]
  obtain ⟨hsome, hconsumer, hclosed, hcurrent, hat, hring⟩ := hsame
  have htaken : (s.note e b).taken = s.taken := by simp [note, hsome]
  have hconsumed : (s.note e b).consumed = s.consumed := by simp [note, hconsumer]
  have hold : ∀ n, n < s.taken → (s.accepted ++ [payload])[n]? = s.accepted[n]? :=
    fun n hn => List.getElem?_append_left (lt_of_lt_of_le hn h.within)
  refine ⟨?_, fun _ => ?_, fun hsome' => ?_, fun n hn => ?_, fun n hn hpast => ?_, fun n hn => ?_, ?_⟩
  · rw [htaken, hlist, List.length_append]
    exact h.within.trans (Nat.le_add_right _ _)
  · show b.chunks.toList = _
    rw [hring, htaken, hlist, Rings.Ring.toList_push hpush, h.ring hopen, List.drop_append_of_le_length h.within]
  · change b.hasCurrent = true at hsome'
    obtain ⟨hpos, hget, hsofar⟩ := h.current (hsome.symm.trans hsome')
    rw [htaken, hlist, hhanded]
    refine ⟨hpos, ?_, ?_⟩
    · rw [hold _ (by omega), hget]
      exact congrArg some hcurrent.symm
    · rw [hsofar, ← hcurrent, ← hat]
      rfl
  · rw [htaken] at hn
    exact (hhanded n).trans (h.future n hn)
  · rw [htaken] at hn hpast
    have hpast' : s.body.hasCurrent = false ∨ n + 1 ≠ s.taken := hpast.imp_left fun hnone => hsome.symm.trans hnone
    have haccounted := h.past n hn hpast'
    simp only [Accounted, hconsumed, hlist, hhanded, hold n hn] at haccounted ⊢
    exact haccounted
  · rw [htaken] at hn
    rw [hconsumed, htaken]
    have hn' : s.taken ≤ n ∨ s.body.hasCurrent = true ∧ n + 1 = s.taken :=
      hn.imp_right fun hcur => ⟨hsome.symm.trans hcur.1, hcur.2⟩
    obtain ⟨hnot, hdisc⟩ := h.pending n hn'
    exact ⟨hnot, fun hmem => ⟨hclosed.trans (hdisc hmem).1, (hdisc hmem).2⟩⟩
  · rw [hconsumed]
    exact h.nodup

theorem Counted.took {chunk : Bytes} {c : Consumer} (h : s.Counted) (hopen : s.body.closed = false)
    (hfront : s.body.chunks.toList = chunk :: s.body.chunks.popFront.toList) (hnone : s.body.hasCurrent = false)
    (hquiet : c.calling = false) (haccepts : accepts s.body e = []) (hdelivers : delivers s.body e = []) :
    (s.note e { s.body with
      current := chunk, chunks := s.body.chunks.popFront, currentAt := 0, hasCurrent := true, consumer := c }).Counted := by
  generalize hb : ({ s.body with
      current := chunk, chunks := s.body.chunks.popFront, currentAt := 0, hasCurrent := true,
      consumer := c } : AsyncRequestBody) = b
  have hhanded := handedOf_note_nil (s := s) (e := e) b hdelivers
  have hlist : (s.note e b).accepted = s.accepted := by
    show s.accepted ++ accepts s.body e = _
    rw [haccepts, List.append_nil]
  have htaken : (s.note e b).taken = s.taken + 1 := by
    subst hb
    exact if_pos ⟨hnone, rfl⟩
  have hconsumed : (s.note e b).consumed = s.consumed := by
    subst hb
    refine if_neg fun hcalls => ?_
    simp_all
  have hdrop : s.accepted.drop s.taken = chunk :: s.body.chunks.popFront.toList := (h.ring hopen).symm.trans hfront
  have hlt : s.taken < s.accepted.length := by grind [List.drop_eq_nil_of_le]
  have hget : s.accepted[s.taken]? = some chunk := by
    rw [← List.head?_drop, hdrop]
    rfl
  have hcurrent : (s.note e b).body.current = chunk ∧ (s.note e b).body.currentAt = 0 ∧ b.hasCurrent = true ∧
      b.chunks = s.body.chunks.popFront ∧ b.closed = s.body.closed := by
    subst hb
    exact ⟨rfl, rfl, rfl, rfl, rfl⟩
  refine ⟨?_, fun _ => ?_, fun _ => ?_, fun n hn => ?_, fun n hn hpast => ?_, fun n hn => ?_, ?_⟩
  · rw [htaken, hlist]
    exact hlt
  · show b.chunks.toList = _
    rw [hcurrent.2.2.2.1, htaken, hlist, ← List.drop_drop, hdrop]
    rfl
  · rw [htaken, hlist, hcurrent.1, hcurrent.2.1, hhanded, Nat.add_sub_cancel]
    exact ⟨Nat.succ_pos _, hget, (h.future s.taken le_rfl).trans List.take_zero.symm⟩
  · rw [htaken] at hn
    exact (hhanded n).trans (h.future n (by omega))
  · rw [htaken] at hn hpast
    have hlast : n + 1 ≠ s.taken + 1 := by
      refine hpast.resolve_left fun hno => ?_
      change b.hasCurrent = false at hno
      simp_all
    have haccounted := h.past n (by omega) (.inl hnone)
    simp only [Accounted, hconsumed, hlist, hhanded] at haccounted ⊢
    exact haccounted
  · rw [htaken] at hn
    rw [hconsumed, htaken]
    obtain ⟨hnot, hdisc⟩ := h.pending n (.inl (by omega))
    refine ⟨hnot, fun hmem => absurd (hdisc hmem).1 ?_⟩
    simp_all
  · rw [hconsumed]
    exact h.nodup

theorem Counted.handed {n : Nat} {next : Consumer} (h : s.Counted)
    (hsome : s.body.hasCurrent = true) (hnext : next.calling = false)
    (hquiet : s.body.consumer.calling = false) (haccepts : accepts s.body e = [])
    (hdelivers : delivers s.body e = s.body.remaining.take n) : (s.note e (s.body.took n next)).Counted := by
  obtain ⟨hpos, hget, hsofar⟩ := h.current hsome
  generalize hb : s.body.took n next = b
  have hlist : (s.note e b).accepted = s.accepted := by
    show s.accepted ++ accepts s.body e = _
    rw [haccepts, List.append_nil]
  have htaken : (s.note e b).taken = s.taken := if_neg fun hc => by
    rw [hsome] at hc
    cases hc.1
  -- what is handed over of the current chunk, and of the others
  have hmore : (s.note e b).handedOf (s.taken - 1) = s.body.current.take (s.body.currentAt + n) := by
    rw [handedOf_note, if_pos rfl, hdelivers, hsofar, remaining, List.take_add]
  have hothers : ∀ m, m ≠ s.taken - 1 → (s.note e b).handedOf m = s.handedOf m := by grind [handedOf_note]
  have hfields : b.closed = s.body.closed ∧ b.chunks = s.body.chunks := by
    rw [← hb]
    unfold AsyncRequestBody.took
    split <;> exact ⟨rfl, rfl⟩
  have hring : b.closed = false → b.chunks.toList = (s.note e b).accepted.drop (s.note e b).taken := by
    rw [hfields.1, hfields.2, hlist, htaken]
    exact h.ring
  have hfuture : ∀ m, (s.note e b).taken ≤ m → (s.note e b).handedOf m = [] := by
    intro m hm
    rw [htaken] at hm
    rw [hothers m (by omega)]
    exact h.future m hm
  by_cases hall : s.body.currentAt + n = s.body.current.length
  · -- the last byte
    rw [took_of_end hall] at hb
    have hconsumed : (s.note e b).consumed = s.consumed ++ [s.taken - 1] := by
      subst hb
      exact if_pos ⟨hquiet, rfl⟩
    have hnone : b.hasCurrent = false := by
      subst hb
      rfl
    obtain ⟨hnot, hdisc⟩ := h.pending (s.taken - 1) (.inr ⟨hsome, by omega⟩)
    refine ⟨by rw [htaken, hlist]; exact h.within, hring, fun hc => ?_, hfuture, fun m hm _ => ?_, fun m hm => ?_, ?_⟩
    · change b.hasCurrent = true at hc
      rw [hnone] at hc
      cases hc
    · rw [htaken] at hm
      by_cases hlast : m = s.taken - 1
      · subst hlast
        refine .inl ⟨?_, fun hmem => ?_, ?_⟩
        · simp [hconsumed]
        · have := (hdisc hmem).2
          omega
        · rw [hlist, hmore, hall, List.take_length]
          exact hget
      · have haccounted := h.past m hm (.inr (by omega))
        simp only [Accounted, hconsumed, hlist, hothers m hlast, List.mem_append, List.mem_singleton, hlast, or_false]
          at haccounted ⊢
        exact haccounted
    · rw [htaken] at hm
      have hge : s.taken ≤ m := hm.resolve_right fun hc => by
        change b.hasCurrent = true ∧ _ at hc
        rw [hnone] at hc
        cases hc.1
      obtain ⟨hnot', hdisc'⟩ := h.pending m (.inl hge)
      rw [hconsumed, htaken]
      refine ⟨fun hmem => ?_, fun hmem => ⟨hfields.1.trans (hdisc' hmem).1, hge⟩⟩
      rcases List.mem_append.1 hmem with hold | hlast
      · exact hnot' hold
      · have := List.mem_singleton.1 hlast
        omega
    · rw [hconsumed, List.nodup_append]
      refine ⟨h.nodup, List.nodup_singleton _, fun a ha d hd had => hnot ?_⟩
      rw [← List.mem_singleton.1 hd, ← had]
      exact ha
  · rw [took_of_more hall] at hb
    have hconsumed : (s.note e b).consumed = s.consumed := by
      subst hb
      refine if_neg fun hc => ?_
      have hcalls : next.calling = true := hc.2
      rw [hnext] at hcalls
      cases hcalls
    have hrest : b.hasCurrent = true ∧ b.current = s.body.current ∧ b.currentAt = s.body.currentAt + n := by
      subst hb
      exact ⟨hsome, rfl, rfl⟩
    refine ⟨by rw [htaken, hlist]; exact h.within, hring, fun _ => ?_, hfuture, fun m hm hpast => ?_, fun m hm => ?_, ?_⟩
    · rw [htaken, hlist, hmore]
      refine ⟨hpos, ?_, ?_⟩
      · rw [hget, ← hrest.2.1]
        rfl
      · rw [← hrest.2.1, ← hrest.2.2]
        rfl
    · rw [htaken] at hm hpast
      have hlast : m + 1 ≠ s.taken := hpast.resolve_left fun hc => by
        change b.hasCurrent = false at hc
        rw [hrest.1] at hc
        cases hc
      have haccounted := h.past m hm (.inr hlast)
      simp only [Accounted, hconsumed, hlist, hothers m (by omega)] at haccounted ⊢
      exact haccounted
    · rw [htaken] at hm
      rw [hconsumed, htaken]
      obtain ⟨hnot, hdisc⟩ := h.pending m (hm.imp_right fun hc => ⟨hsome, hc.2⟩)
      exact ⟨hnot, fun hmem => ⟨hfields.1.trans (hdisc hmem).1, (hdisc hmem).2⟩⟩
    · rw [hconsumed]
      exact h.nodup

theorem Counted.body (h : s.Counted) (hs : s.Settled) (hb : BodySection s.body e b) :
    (s.note e b).Counted := by
  -- the sections that touch no chunk
  have hstill : accepts s.body e = [] → delivers s.body e = [] → b.closed = s.body.closed → b.chunks = s.body.chunks →
      b.current = s.body.current → b.currentAt = s.body.currentAt → b.hasCurrent = s.body.hasCurrent →
      (s.body.consumer.calling = false → b.consumer.calling = false) → (s.note e b).Counted := by
    intro haccepts hdelivers hclosed hchunks hcurrent hat hsome hcalling
    refine h.alike hclosed hchunks hcurrent hat hsome ?_ ?_ (handedOf_note_nil b hdelivers) ?_ rfl
    · show s.accepted ++ accepts s.body e = _
      rw [haccepts, List.append_nil]
    · refine if_neg fun hc => ?_
      simp_all
    · refine if_neg fun hc => ?_
      simp_all
  cases hb with
  | moved wake ctxDone c heq haccepts hdelivers hidle hleaves hcalling hplace => grind
  | accepted payload chunks heq hpush hopen haccepts hdelivers =>
    subst heq
    exact h.accepted hpush hopen.1 haccepts hdelivers
  | ended heq haccepts hdelivers => simp_all
  | took chunk c hfront heq hnone hfresh hbusy haccepts hdelivers =>
    subst heq
    have hopen : s.body.closed = false := by cases hc : s.body.closed <;> simp_all [hs.emptied]
    have hquiet : c.calling = false := by
      cases c <;> simp_all [Consumer.fresh, Consumer.calling]
    exact h.took hopen hfront hnone hquiet haccepts hdelivers
  | reachedEnd c heq hempty hnone hended hbusy hc haccepts hdelivers => simp_all
  | handed n next heq hsome hn hnext hbusy haccepts hdelivers =>
    subst heq
    exact h.handed hsome hnext.2.1 hbusy.2 haccepts hdelivers

theorem Counted.close (h : s.Counted) :
    ({ s with
      body := s.body.close
      discarded := if s.body.closed then s.discarded
        else s.discarded ++ List.range' s.taken s.body.chunks.toList.length } : LockedBody).Counted := by
  by_cases hclosed : s.body.closed = true
  · have hbody : s.body.close = { s.body with closers := s.body.closers + 1 } := if_pos hclosed
    rw [hbody, if_pos hclosed]
    exact h.alike
  have hbody : s.body.close =
      { s.body with closed := true, chunks := s.body.chunks.clear, wake := true, closers := s.body.closers + 1 } :=
    if_neg hclosed
  rw [hbody, if_neg hclosed]
  have hbehind : ∀ n, n < s.taken → (n ∈ s.discarded ++ List.range' s.taken s.body.chunks.toList.length ↔ n ∈ s.discarded) := by
    simp_all
  refine { h with ring := nofun, past := fun n hn hpast => ?_, pending := fun n hn => ?_ }
  · refine (h.past n hn hpast).imp (fun hd => ⟨hd.1, ?_, hd.2.2⟩) (fun hd => ⟨(hbehind n hn).2 hd.1, hd.2⟩)
    exact fun hmem => hd.2.1 ((hbehind n hn).1 hmem)
  · obtain ⟨hnot, hdisc⟩ := h.pending n hn
    simp_all

theorem Counted.clearCurrent (h : s.Counted) (hin : s.body.StandsAt s.body.consumer) (hfresh : s.body.consumer.fresh = false) :
    s.clearCurrent.Counted := by
  cases hsome : s.body.hasCurrent with
  | false =>
    have hdiscarded : s.clearCurrent.discarded = s.discarded := by
      show (if s.body.hasCurrent then _ else _) = _
      rw [hsome]
      rfl
    refine ⟨h.within, h.ring, nofun, h.future, fun n hn _ => ?_, fun n hn => ?_, h.nodup⟩
    · have haccounted := h.past n hn (.inl hsome)
      unfold Accounted at haccounted ⊢
      rw [hdiscarded]
      exact haccounted
    · rw [hdiscarded]
      exact h.pending n (hn.imp_right fun hc => (by cases hc.1))
  | true =>
    obtain ⟨hpos, hget, hsofar⟩ := h.current hsome
    obtain ⟨hnot, hdisc⟩ := h.pending (s.taken - 1) (.inr ⟨hsome, by omega⟩)
    have hpart : s.body.currentAt < s.body.current.length := (hin.partway hsome).resolve_right fun hc => by
      rw [hfresh] at hc
      cases hc.1
    have hdiscarded : s.clearCurrent.discarded = s.discarded ++ [s.taken - 1] := by
      show (if s.body.hasCurrent then _ else _) = _
      rw [hsome]
      rfl
    refine ⟨h.within, h.ring, nofun, h.future, fun n hn _ => ?_, fun n hn => ?_, h.nodup⟩
    · change n < s.taken at hn
      by_cases hlast : n = s.taken - 1
      · subst hlast
        refine .inr ⟨?_, hnot, fun chunk hchunk => ?_⟩
        · simp [hdiscarded]
        obtain rfl : s.body.current = chunk := Option.some.inj (hget.symm.trans hchunk)
        show (s.handedOf (s.taken - 1)).length < _
        simp_all
      · have haccounted := h.past n hn (.inr (by omega))
        unfold Accounted at haccounted ⊢
        rw [hdiscarded, List.mem_append, List.mem_singleton]
        simp only [hlast, or_false]
        exact haccounted
    · change s.taken ≤ n ∨ _ at hn
      have hge : s.taken ≤ n := hn.resolve_right fun hc => (by cases hc.1)
      obtain ⟨hnot', hdisc'⟩ := h.pending n (.inl hge)
      refine ⟨hnot', fun hmem => hdisc' ?_⟩
      grind

theorem Counted.step {e : LockEvent} (h : s.Counted) (hs : s.Settled) (hstep : s.step e = some s') : s'.Counted := by
  cases e <;> simp only [LockedBody.step] at hstep
  case body e =>
    split at hstep
    · cases hstep
    rename_i hbarred
    obtain ⟨b, hb, rfl⟩ := Option.map_eq_some_iff.1 hstep
    have hplain : e ≠ .close ∧ e ≠ .closeCurrent ∧ e ≠ .unlock := by
      refine ⟨?_, ?_, ?_⟩ <;>
      · rintro rfl
        exact hbarred rfl
    exact h.body hs (section_step hs.place hplain hb)
  case close =>
    cases hstep
    exact h.close
  case tryLock =>
    split at hstep
    · cases hstep
    split at hstep
    · cases hstep
      exact h.alike
    · cases hstep
      exact h.alike
  case closerUnlock =>
    split at hstep
    · next hheld =>
      cases hstep
      have hidle := hs.exclusive hheld
      have hcleared : s.clearCurrent.Counted :=
        h.clearCurrent (hs.place.place (by rw [hidle]; rfl)) (by rw [hidle]; rfl)
      exact hcleared.alike
    · cases hstep
  case closerRelease =>
    obtain ⟨-, rfl⟩ := of_unless hstep
    exact h.alike
  case unlock =>
    split at hstep
    · next result hconsumer =>
      split at hstep
      · cases hstep
        have hcleared : s.clearCurrent.Counted :=
          h.clearCurrent (hs.place.place (by rw [hconsumer]; rfl)) (by rw [hconsumer]; rfl)
        exact hcleared.alike
      · cases hstep
        exact h.alike
    · cases hstep
  case consumerRelease =>
    obtain ⟨-, rfl⟩ := of_unless hstep
    exact h.alike

/-! ### The lifecycle -/

/-- No call of `Close`, `Read` or `WriteTo` is in progress. -/
def Quiet (s : LockedBody) : Prop :=
  s.body.closers = 0 ∧ s.closerHolds = false ∧ s.closersReleasing = 0 ∧ s.body.consumer = .idle ∧ s.consumersReleasing = 0

instance (s : LockedBody) : Decidable s.Quiet := inferInstanceAs (Decidable (_ ∧ _ ∧ _ ∧ _ ∧ _))

/-- **The reservation of a body is given back once, and at the end.**  `onDrained` runs once at most, and from then on the
ring is empty, no chunk is retained and no chunk is accepted; where `Close` has been called and every call of `Close`, `Read`
and `WriteTo` has returned it has run.  `onChunkConsumed` runs once for a chunk whose bytes have all been handed over, and
never for another one or for one that was dropped. -/
theorem reservation_released (events : List LockEvent) (s : LockedBody) (hrun : run step init events = some s) :
    s.drains ≤ 1 ∧
    (s.drains = 1 → s.body.chunks.toList = [] ∧ s.body.hasCurrent = false ∧
      ∀ payload, ∃ e, s.body.enqueue payload = .error e) ∧
    (s.body.closed = true → s.Quiet → s.drains = 1) ∧
    s.consumed.Nodup ∧
    (∀ n ∈ s.consumed, n ∉ s.discarded ∧ s.accepted[n]? = some (s.handedOf n)) ∧
    (∀ n chunk, n < s.taken → s.accepted[n]? = some chunk → s.handedOf n = chunk →
      n ∈ s.consumed ∨ (s.body.consumer.fresh = true ∧ n + 1 = s.taken ∧ chunk = [])) := by
  obtain ⟨hs, h⟩ : s.Settled ∧ s.Counted :=
    run_inv step (fun s => s.Settled ∧ s.Counted) (fun s e s' hinv hstep => ⟨hinv.1.step hstep, hinv.2.step hinv.1 hstep⟩)
      events init s ⟨.init, .init⟩ hrun
  have honce := hs.once
  refine ⟨?_, fun hran => ?_, fun hclosed hquiet => ?_, h.nodup, fun n hn => ?_, fun n chunk hlt hget hall => ?_⟩
  · rw [honce]
    split <;> omega
  · have hdrained : s.body.drained = true := by
      by_contra hno
      rw [if_neg hno] at honce
      omega
    obtain ⟨hring, hnone, hshut⟩ := hs.clean hdrained
    refine ⟨hring, hnone, fun payload => ?_⟩
    unfold enqueue
    rcases hshut with hc | he
    · exact ⟨.closed, if_pos hc⟩
    by_cases hc : s.body.closed = true
    · exact ⟨.closed, if_pos hc⟩
    · exact ⟨.ended, by rw [if_neg hc, if_pos he]⟩
  · obtain ⟨hclosers, hheld, hreleasing, hidle, hconsumers⟩ := hquiet
    have hdrained : s.body.drained = true := by
      rcases hs.owed hclosed with hd | hc | hc | hc | hc | hc
      · exact hd
      · exact absurd hclosers hc
      · rw [hheld] at hc
        cases hc
      · omega
      · exact absurd hidle hc
      · omega
    rw [honce, if_pos hdrained]
  · -- a chunk that is counted has been taken and is not the current one
    have hpast : n < s.taken ∧ (s.body.hasCurrent = false ∨ n + 1 ≠ s.taken) := by
      by_contra hno
      refine (h.pending n ?_).1 hn
      cases hsome : s.body.hasCurrent with
      | false =>
        left
        by_contra hlt
        exact hno ⟨by omega, .inl hsome⟩
      | true =>
        by_cases hge : s.taken ≤ n
        · exact .inl hge
        right
        refine ⟨rfl, ?_⟩
        by_contra hne
        exact hno ⟨by omega, .inr hne⟩
    rcases h.past n hpast.1 hpast.2 with ⟨-, hnot, hget⟩ | ⟨-, hnot, -⟩
    · exact ⟨hnot, hget⟩
    · exact absurd hn hnot
  · by_cases hcurrent : s.body.hasCurrent = true ∧ n + 1 = s.taken
    · -- a current chunk without a byte left is an empty one that has only just been found
      obtain ⟨-, hget', hsofar⟩ := h.current hcurrent.1
      have hn : n = s.taken - 1 := by omega
      subst hn
      obtain rfl : s.body.current = chunk := Option.some.inj (hget'.symm.trans hget)
      have hall' : s.body.current.length ≤ s.body.currentAt := by
        rw [hsofar] at hall
        simpa using congrArg List.length hall
      cases hcalling : s.body.consumer.calling with
      | false =>
        rcases (hs.place.place hcalling).partway hcurrent.1 with hpart | ⟨hfresh, hnil⟩
        · omega
        · exact .inr ⟨hfresh, hcurrent.2, hnil⟩
      | true =>
        obtain ⟨next, hnext⟩ : ∃ next, s.body.consumer = .consumed next := by
          cases hc : s.body.consumer <;> simp_all [Consumer.calling]
        obtain ⟨hplace, -, hfresh⟩ := hs.place.inside next hnext
        rcases hplace.partway hcurrent.1 with hpart | ⟨hc, -⟩
        · omega
        · rw [hfresh] at hc
          cases hc
    · have hpast : s.body.hasCurrent = false ∨ n + 1 ≠ s.taken := by
        cases hsome : s.body.hasCurrent with
        | false => exact .inl rfl
        | true => exact .inr fun hc => hcurrent ⟨hsome, hc⟩
      rcases h.past n hlt hpast with ⟨hmem, -⟩ | ⟨-, -, hshort⟩
      · exact .inl hmem
      have := hshort chunk hget
      rw [hall] at this
      omega

/-- A `Close` that finds a `Read` in progress, in the callback of its chunk. -/
def closedWhileReading : List LockEvent :=
  [.body (.enqueue [7]), .body (.readCall 4), .body .advance, .body .advance, .close, .tryLock, .body .consumedReturn, .unlock,
    .consumerRelease]

theorem reservation_released_by_reader :
    ∃ s, run step init closedWhileReading = some s ∧ s.closesReturned = 1 ∧ s.consumed = [0] ∧ s.drains = 1 := by
  obtain ⟨s, hrun, hreturned, hconsumed, hclosed, hquiet⟩ : ∃ s, run step init closedWhileReading = some s ∧
      s.closesReturned = 1 ∧ s.consumed = [0] ∧ s.body.closed = true ∧ s.Quiet :=
    exists_run (by decide +kernel)
  exact ⟨s, hrun, hreturned, hconsumed, (reservation_released _ s hrun).2.2.1 hclosed hquiet⟩

/-- Two `Close` calls at once: the second finds `readMu` held by the first and returns before the first has run the
callback. -/
theorem close_returns_before_drained :
    ∃ s, run step init [.close, .close, .tryLock, .tryLock] = some s ∧ s.closesReturned = 1 ∧
      s.body.consumer = .idle ∧ s.consumersReleasing = 0 ∧ s.drains = 0 :=
  exists_run (by decide +kernel)

/-- **What becomes of an accepted chunk**, in every interleaving and at every time: it was handed over whole and counted once;
or it was dropped before its last byte and never counted; or the consumer has it, and it was handed over up to where the
consumer is; or nothing of it was handed over, and it stands in its place in the ring, unless the body is closed. -/
theorem chunk_fate (events : List LockEvent) (s : LockedBody) (hrun : run step init events = some s) (n : Nat)
    (chunk : Bytes) (hchunk : s.accepted[n]? = some chunk) :
    (n < s.taken ∧ s.handedOf n = chunk ∧ s.consumed.count n = 1 ∧ n ∉ s.discarded) ∨
    (n < s.taken ∧ (s.handedOf n).length < chunk.length ∧ n ∉ s.consumed ∧ n ∈ s.discarded) ∨
    (n + 1 = s.taken ∧ s.body.hasCurrent = true ∧ s.body.current = chunk ∧ s.handedOf n = chunk.take s.body.currentAt ∧
      n ∉ s.consumed ∧ n ∉ s.discarded) ∨
    (s.taken ≤ n ∧ s.handedOf n = [] ∧ n ∉ s.consumed ∧
      (s.body.closed = false → s.body.chunks.toList[n - s.taken]? = some chunk ∧ n ∉ s.discarded)) := by
  obtain ⟨-, h⟩ : s.Settled ∧ s.Counted :=
    run_inv step (fun s => s.Settled ∧ s.Counted) (fun s e s' hinv hstep => ⟨hinv.1.step hstep, hinv.2.step hinv.1 hstep⟩)
      events init s ⟨.init, .init⟩ hrun
  by_cases hlater : s.taken ≤ n
  · obtain ⟨huncounted, hdropped⟩ := h.pending n (.inl hlater)
    refine .inr (.inr (.inr ⟨hlater, h.future n hlater, huncounted, fun hopen => ⟨?_, fun hmem => ?_⟩⟩))
    · rw [h.ring hopen, List.getElem?_drop, Nat.add_sub_cancel' hlater, hchunk]
    · rw [hopen] at hdropped
      cases (hdropped hmem).1
  have htaken := Nat.lt_of_not_le hlater
  by_cases hcurrent : s.body.hasCurrent = true ∧ n + 1 = s.taken
  · obtain ⟨hsome, hlast⟩ := hcurrent
    obtain ⟨-, hbytes, hhanded⟩ := h.current hsome
    obtain ⟨huncounted, hdropped⟩ := h.pending n (.inr ⟨hsome, hlast⟩)
    rw [← hlast, Nat.add_sub_cancel, hchunk] at hbytes
    rw [← hlast, Nat.add_sub_cancel, ← Option.some.inj hbytes] at hhanded
    exact .inr (.inr (.inl ⟨hlast, hsome, (Option.some.inj hbytes).symm, hhanded, huncounted,
      fun hmem => hlater (hdropped hmem).2⟩))
  have haccounted : s.Accounted n := h.past n htaken <| by
    rcases not_and_or.1 hcurrent with hnone | hne
    · exact .inl (Bool.eq_false_of_not_eq_true hnone)
    · exact .inr hne
  rcases haccounted with ⟨hcounted, hkept, hwhole⟩ | ⟨hdropped, huncounted, hshort⟩
  · exact .inl ⟨htaken, Option.some.inj (hwhole.symm.trans hchunk), List.count_eq_one_of_mem h.nodup hcounted, hkept⟩
  · exact .inr (.inl ⟨htaken, hshort chunk hchunk, huncounted, hdropped⟩)

theorem chunk_fate_read : ∃ s, run step init closedWhileReading = some s ∧ s.accepted[0]? = some [7] ∧
    s.handedOf 0 = [7] ∧ s.consumed.count 0 = 1 ∧ 0 ∉ s.discarded := by
  obtain ⟨s, hrun, hchunk, htaken, hnone, hdiscarded⟩ : ∃ s, run step init closedWhileReading = some s ∧
      s.accepted[0]? = some [7] ∧ s.taken = 1 ∧ s.body.hasCurrent = false ∧ s.discarded = [] :=
    exists_run (by decide +kernel)
  refine ⟨s, hrun, hchunk, ?_⟩
  rcases chunk_fate _ s hrun 0 [7] hchunk with ⟨-, hcase⟩ | ⟨-, -, -, hmem⟩ | ⟨-, hsome, -⟩ | ⟨hle, -⟩
  · exact hcase
  · rw [hdiscarded] at hmem
    cases hmem
  · rw [hnone] at hsome
    cases hsome
  · omega

end LockedBody
end YuriRtc
