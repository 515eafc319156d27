import YuriRtc.RequestBodyEof
/-!
# BodyRelease — who cleans up a request body

`content-node/request_body.go`: the same body with its two cleanups taken apart.  `Close` tries `readMu`, clears the current
chunk, lets `readMu` go and runs `releaseDrained`; a consumer call that finds the body closed clears the chunk, lets both
locks go and runs `releaseDrained`.  Another call can get in between any two of these.  Beside the body stands a record of
what has happened: the chunks that were accepted, how many a consumer has taken out of the ring, the bytes handed over, by
chunk, the runs of `onChunkConsumed` and of `onDrained`, and the chunks that were dropped.
-/
namespace YuriRtc

def Consumer.atChunk : Consumer → Bool
  | .readCurrent _ | .writeCurrent _ | .writing _ => true
  | _ => false

def Consumer.fresh : Consumer → Bool
  | .readCurrent _ | .writeCurrent _ => true
  | _ => false

theorem Consumer.fresh_of_not_atChunk {c : Consumer} (h : c.atChunk = false) : c.fresh = false := by
  cases c with
  | readCurrent room => cases h
  | writeCurrent total => cases h
  | _ => rfl

def Consumer.calling : Consumer → Bool
  | .consumed _ => true
  | _ => false

/-- The sections that take `readMu`. -/
def BodyEvent.enters : BodyEvent → Bool
  | .readCall _ | .writeToCall => true
  | _ => false

/-- `closerHolds`: a `Close` holds `readMu`.  The calls that have let it go and run `releaseDrained` next are counted, and
so are the `Close` calls that have returned. -/
structure LockedBody where
  body : AsyncRequestBody
  closerHolds : Bool
  closersReleasing : Nat
  consumersReleasing : Nat
  closesReturned : Nat
  drains : Nat
  accepted : List Bytes
  taken : Nat
  handed : List (Nat × Bytes)
  consumed : List Nat
  discarded : List Nat

/-- `body` is a section of the producer or of a consumer call that the coarser model has as it is. -/
inductive LockEvent where
  | body (e : BodyEvent)
  | close
  | tryLock
  | closerUnlock
  | closerRelease
  | unlock
  | consumerRelease
deriving DecidableEq, Repr

namespace LockedBody

open AsyncRequestBody (accepts delivers)

def init : LockedBody := ⟨.newAsyncRequestBody, false, 0, 0, 0, 0, [], 0, [], [], []⟩

def note (s : LockedBody) (e : BodyEvent) (b : AsyncRequestBody) : LockedBody :=
  { s with
    body := b
    drains := if s.body.drained = false ∧ b.drained = true then s.drains + 1 else s.drains
    accepted := s.accepted ++ accepts s.body e
    taken := if s.body.hasCurrent = false ∧ b.hasCurrent = true then s.taken + 1 else s.taken
    handed := s.handed ++ [(s.taken - 1, delivers s.body e)]
    consumed := if s.body.consumer.calling = false ∧ b.consumer.calling = true then s.consumed ++ [s.taken - 1] else s.consumed }

/-- `drainedOnce.Do`. -/
def releaseDrained (s : LockedBody) : LockedBody :=
  { s with body := s.body.releaseDrained, drains := if s.body.drained then s.drains else s.drains + 1 }

def clearCurrent (s : LockedBody) : LockedBody :=
  { s with
    body := s.body.clearCurrent
    discarded := if s.body.hasCurrent then s.discarded ++ [s.taken - 1] else s.discarded }

/-- The sections that are taken apart here, and calls that wait for a `Close` to let `readMu` go. -/
def barred (s : LockedBody) : BodyEvent → Bool
  | .close | .closeCurrent | .unlock => true
  | e => s.closerHolds && e.enters

def step (s : LockedBody) : LockEvent → Option LockedBody
  | .body e => if s.barred e then none else (s.body.step e).map (s.note e)
  | .close =>
    some { s with
      body := s.body.close
      discarded := if s.body.closed then s.discarded else s.discarded ++ List.range' s.taken s.body.chunks.toList.length }
  | .tryLock =>
    if s.body.closers = 0 then none
    else if s.body.consumer = .idle ∧ s.closerHolds = false then
      some { s with body := { s.body with closers := s.body.closers - 1 }, closerHolds := true }
    else
      some { s with body := { s.body with closers := s.body.closers - 1 }, closesReturned := s.closesReturned + 1 }
  | .closerUnlock =>
    if s.closerHolds then
      some { s.clearCurrent with closerHolds := false, closersReleasing := s.closersReleasing + 1 }
    else none
  | .closerRelease =>
    if s.closersReleasing = 0 then none
    else
      some { s.releaseDrained with
        closersReleasing := s.closersReleasing - 1
        closesReturned := s.closesReturned + 1 }
  | .unlock =>
    match s.body.consumer with
    | .returning _ =>
      if s.body.closed then
        let cleared := s.clearCurrent
        some { cleared with
          body := { cleared.body with consumer := .idle }
          consumersReleasing := s.consumersReleasing + 1 }
      else some { s with body := { s.body with consumer := .idle } }
    | _ => none
  | .consumerRelease =>
    if s.consumersReleasing = 0 then none
    else some { s.releaseDrained with consumersReleasing := s.consumersReleasing - 1 }

def handedOf (s : LockedBody) (n : Nat) : Bytes := ((s.handed.filter (fun r => r.1 = n)).map Prod.snd).flatten

end LockedBody

/-! ### What a section of the producer or the consumer does -/

namespace AsyncRequestBody

structure StandsAt (b : AsyncRequestBody) (c : Consumer) : Prop where
  holding : c.atChunk = true → b.hasCurrent = true
  partway : b.hasCurrent = true → b.currentAt < b.current.length ∨ (c.fresh = true ∧ b.current = [])
  quiet : c.calling = false

structure InPlace (b : AsyncRequestBody) : Prop where
  within : b.currentAt ≤ b.current.length
  absent : b.hasCurrent = false → b.current = [] ∧ b.currentAt = 0
  place : b.consumer.calling = false → b.StandsAt b.consumer
  inside : ∀ next, b.consumer = .consumed next → b.StandsAt next ∧ next ≠ .idle ∧ next.fresh = false

/-- The kinds of sections: nothing but the consumer's place moves, a chunk is accepted, the body ends, a chunk is taken out
of the ring, the end is found, or bytes are handed over. -/
inductive BodySection (b : AsyncRequestBody) (e : BodyEvent) (b' : AsyncRequestBody) : Prop where
  | moved (wake ctxDone : Bool) (c : Consumer) (hb : b' = { b with wake := wake, ctxDone := ctxDone, consumer := c })
    (haccepts : accepts b e = []) (hdelivers : delivers b e = []) (hidle : c = .idle → b.consumer = .idle)
    (henters : b.consumer = .idle → c = .idle ∨ e.enters = true) (hcalling : c.calling = true → c = b.consumer)
    (hplace : c.calling = false → b.StandsAt c)
  | accepted (payload : Bytes) (chunks : Rings.Ring Bytes requestBodyQueueFrames)
    (hb : b' = { b with chunks := chunks, wake := true }) (hpush : b.chunks.push payload = some chunks)
    (hopen : b.closed = false ∧ b.ended = false) (haccepts : accepts b e = [payload]) (hdelivers : delivers b e = [])
  | ended (hb : b' = { b with ended := true, wake := true }) (haccepts : accepts b e = []) (hdelivers : delivers b e = [])
  | took (chunk : Bytes) (c : Consumer) (hfront : b.chunks.toList = chunk :: b.chunks.popFront.toList)
    (hb : b' = { b with current := chunk, chunks := b.chunks.popFront, currentAt := 0, hasCurrent := true, consumer := c })
    (hnone : b.hasCurrent = false) (hfresh : c.fresh = true) (hbusy : b.consumer ≠ .idle ∧ b.consumer.calling = false)
    (haccepts : accepts b e = []) (hdelivers : delivers b e = [])
  | reachedEnd (c : Consumer) (hb : b' = { b with drained := true, consumer := c }) (hempty : b.chunks.toList = [])
    (hnone : b.hasCurrent = false) (hended : b.ended = true) (hbusy : b.consumer ≠ .idle)
    (hc : c ≠ .idle ∧ c.calling = false ∧ c.atChunk = false) (haccepts : accepts b e = []) (hdelivers : delivers b e = [])
  | handed (n : Nat) (next : Consumer) (hb : b' = b.took n next) (hsome : b.hasCurrent = true)
    (hn : n ≤ b.remaining.length) (hnext : next ≠ .idle ∧ next.calling = false ∧ next.atChunk = false)
    (hbusy : b.consumer ≠ .idle ∧ b.consumer.calling = false)
    (haccepts : accepts b e = []) (hdelivers : delivers b e = b.remaining.take n)

variable {b b' : AsyncRequestBody} {e : BodyEvent}

theorem InPlace.new : newAsyncRequestBody.InPlace where
  within := le_rfl
  absent _ := ⟨rfl, rfl⟩
  place _ := ⟨nofun, nofun, rfl⟩
  inside next h := by cases h

theorem StandsAt.elsewhere {c c' : Consumer} (h : b.StandsAt c) (hfresh : c.fresh = false := by rfl)
    (hat : c'.atChunk = false := by rfl) (hquiet : c'.calling = false := by rfl) : b.StandsAt c' where
  holding hc := by
    cases hat.symm.trans hc
  partway hsome := (h.partway hsome).imp_right fun hc => by
    rw [hfresh] at hc
    cases hc.1
  quiet := hquiet

theorem StandsAt.without {c : Consumer} (hnone : b.hasCurrent = false) (hat : c.atChunk = false) (hquiet : c.calling = false) :
    b.StandsAt c where
  holding hc := by
    cases hat.symm.trans hc
  partway hsome := by
    cases hnone.symm.trans hsome
  quiet := hquiet

theorem BodySection.still (hin : b.InPlace) (wake ctxDone : Bool) (haccepts : accepts b e = []) (hdelivers : delivers b e = []) :
    BodySection b e { b with wake := wake, ctxDone := ctxDone } :=
  .moved wake ctxDone b.consumer rfl haccepts hdelivers id .inl (fun _ => rfl) hin.place

theorem BodySection.goes (c : Consumer) (henters : b.consumer ≠ .idle ∨ e.enters = true) (haccepts : accepts b e = [])
    (hdelivers : delivers b e = []) (hidle : c ≠ .idle) (hplace : b.StandsAt c) : BodySection b e { b with consumer := c } :=
  .moved b.wake b.ctxDone c rfl haccepts hdelivers (fun h => absurd h hidle)
    (fun h => .inr (henters.resolve_left fun hbusy => hbusy h)) (fun h => by rw [hplace.quiet] at h; cases h) (fun _ => hplace)

theorem awaitCurrent_cases (b : AsyncRequestBody) :
    (b.hasCurrent = true ∧ b.awaitCurrent = (b, .current)) ∨
    (b.hasCurrent = false ∧ ∃ chunk, b.chunks.toList = chunk :: b.chunks.popFront.toList ∧ b.awaitCurrent =
      ({ b with current := chunk, chunks := b.chunks.popFront, currentAt := 0, hasCurrent := true }, .current)) ∨
    (b.hasCurrent = false ∧ b.chunks.toList = [] ∧ b.ended = true ∧ b.awaitCurrent = ({ b with drained := true }, .eof)) ∨
    (b.hasCurrent = false ∧ (b.awaitCurrent = (b, .closed) ∨ b.awaitCurrent = (b, .block))) := by
  unfold awaitCurrent
  by_cases hsome : b.hasCurrent = true
  · simp [hsome]
  have hnone : b.hasCurrent = false := by simpa using hsome
  rw [if_neg hsome]
  refine .inr ?_
  split
  · next chunk hfront =>
    rw [Rings.Ring.front?_eq_head?] at hfront
    refine .inl ⟨hnone, chunk, ?_, rfl⟩
    rw [Rings.Ring.toList_popFront]
    exact List.eq_cons_of_mem_head? hfront
  · next hfront =>
    rw [Rings.Ring.front?_eq_head?] at hfront
    refine .inr ?_
    split
    · next hended => exact .inl ⟨hnone, List.head?_eq_none_iff.1 hfront, hended, rfl⟩
    · simp_all

theorem section_advance_await (hin : b.InPlace) (next blocked : Consumer) (onEnd : ReadResult)
    (hbusy : b.consumer ≠ .idle ∧ b.consumer.calling = false) (hnext : next.fresh = true ∧ next.calling = false ∧ next ≠ .idle)
    (hblocked : blocked ≠ .idle ∧ blocked.calling = false ∧ blocked.atChunk = false)
    (haccepts : accepts b e = []) (hdelivers : delivers b e = [])
    (hcurrent : ∀ b₁, b.awaitCurrent = (b₁, .current) → b' = { b₁ with consumer := next })
    (heof : ∀ b₁, b.awaitCurrent = (b₁, .eof) → b' = { b₁ with consumer := .returning onEnd })
    (hclosed : ∀ b₁, b.awaitCurrent = (b₁, .closed) → b' = { b₁ with consumer := .returning (.error .closed) })
    (hblock : ∀ b₁, b.awaitCurrent = (b₁, .block) → b' = { b₁ with consumer := blocked }) : BodySection b e b' := by
  rcases awaitCurrent_cases b with ⟨hsome, hawait⟩ | ⟨hnone, chunk, hlist, hawait⟩ | ⟨hnone, hempty, hended, hawait⟩ |
    ⟨hnone, hawait | hawait⟩
  · rw [hcurrent b hawait]
    exact .goes next (.inl hbusy.1) haccepts hdelivers hnext.2.2 ⟨fun _ => hsome, fun h =>
      ((hin.place hbusy.2).partway h).imp_right fun hc => ⟨hnext.1, hc.2⟩, hnext.2.1⟩
  · rw [hcurrent _ hawait]
    exact .took chunk next hlist rfl hnone hnext.1 hbusy haccepts hdelivers
  · rw [heof _ hawait]
    exact .reachedEnd (.returning onEnd) rfl hempty hnone hended hbusy.1 ⟨nofun, rfl, rfl⟩ haccepts hdelivers
  · rw [hclosed b hawait]
    exact .goes _ (.inl hbusy.1) haccepts hdelivers nofun (.without hnone rfl rfl)
  · rw [hblock b hawait]
    exact .goes blocked (.inl hbusy.1) haccepts hdelivers hblocked.1 (.without hnone hblocked.2.2 hblocked.2.1)

theorem section_advance (hin : b.InPlace) (h : b.advance = some b') : BodySection b .advance b' := by
  have hplace : ∀ c, b.consumer = c → c.calling = false → b.StandsAt c := by
    rintro c rfl hc
    exact hin.place hc
  have hbusy : ∀ c, b.consumer = c → c ≠ .idle → b.consumer ≠ .idle ∨ BodyEvent.advance.enters = true := by
    rintro c rfl hc
    exact .inl hc
  unfold advance at h
  split at h
  · next room hconsumer =>
    refine section_advance_await hin (.readCurrent room) (.readBlocked room) .eof
      (by rw [hconsumer]; exact ⟨fun hc => (by cases hc), rfl⟩) ⟨rfl, rfl, fun hc => (by cases hc)⟩
      ⟨fun hc => (by cases hc), rfl, rfl⟩ rfl (by simp [delivers, hconsumer]) ?_ ?_ ?_ ?_ <;>
    · intro b₁ hawait
      simp only [hawait, Option.some.injEq] at h
      exact h.symm
  · next room hconsumer =>
    cases h
    have hsome := (hplace _ hconsumer rfl).holding rfl
    refine .handed (min room b.remaining.length) _ rfl hsome (Nat.min_le_right _ _) ?_
      (by rw [hconsumer]; exact ⟨fun hc => (by cases hc), rfl⟩) rfl ?_
    · split
      · exact ⟨fun hc => (by cases hc), rfl, rfl⟩
      · exact ⟨fun hc => (by cases hc), rfl, rfl⟩
    · simp [delivers, hconsumer, List.take_eq_take_min]
  · next total hconsumer =>
    have hfresh := hplace _ hconsumer rfl
    split at h
    · cases h
      exact .goes _ (hbusy _ hconsumer fun hc => (by cases hc)) rfl (by simp [delivers, hconsumer]) (fun hc => (by cases hc))
        (hfresh.elsewhere)
    cases h
    exact .goes _ (hbusy _ hconsumer fun hc => (by cases hc)) rfl (by simp [delivers, hconsumer]) (fun hc => (by cases hc))
      (hfresh.elsewhere)
  · next total hconsumer =>
    refine section_advance_await hin (.writeCurrent total) (.writeBlocked total) (.wrote total)
      (by rw [hconsumer]; exact ⟨fun hc => (by cases hc), rfl⟩) ⟨rfl, rfl, fun hc => (by cases hc)⟩
      ⟨fun hc => (by cases hc), rfl, rfl⟩ rfl (by simp [delivers, hconsumer]) ?_ ?_ ?_ ?_ <;>
    · intro b₁ hawait
      simp only [hawait, Option.some.injEq] at h
      exact h.symm
  · next total hconsumer =>
    have hsome := (hplace _ hconsumer rfl).holding rfl
    have hlength : b.remaining.length = b.current.length - b.currentAt := by simp [remaining]
    split at h
    · next hempty =>
      cases h
      have hnil : b.remaining = [] := List.isEmpty_iff.1 hempty
      have hall : b.currentAt + 0 = b.current.length := by
        have hwithin := hin.within
        rw [hnil, List.length_nil] at hlength
        omega
      refine .handed 0 (.writeTo total) ?_ hsome (Nat.zero_le _) ⟨fun hc => (by cases hc), rfl, rfl⟩
        (by rw [hconsumer]; exact ⟨fun hc => (by cases hc), rfl⟩) rfl (by simp [delivers, hconsumer])
      rw [took, if_pos hall]
    · next hmore =>
      cases h
      have hpos : 0 < b.remaining.length := List.length_pos_iff.2 fun hnil => hmore (by rw [hnil]; rfl)
      exact .goes _ (hbusy _ hconsumer fun hc => (by cases hc)) rfl (by simp [delivers, hconsumer]) (fun hc => (by cases hc))
        ⟨fun _ => hsome, fun _ => .inl (by omega), rfl⟩
  · cases h

theorem section_wrote {total : Nat} {n : Int} {failed : Bool} (hin : b.InPlace) (hconsumer : b.consumer = .writing total) :
    BodySection b (.wrote n failed) (b.wrote total n failed) := by
  have hplace : b.StandsAt (.writing total) := by
    rw [← hconsumer]
    exact hin.place (by rw [hconsumer]; rfl)
  unfold wrote
  split
  · next hbad =>
    exact .goes _ (.inl (by rw [hconsumer]; exact fun hc => (by cases hc))) rfl (by simp [delivers, hconsumer, hbad])
      (fun hc => (by cases hc)) (hplace.elsewhere)
  rename_i hgood
  refine .handed n.toNat _ rfl (hplace.holding rfl) (by omega) ?_ (by rw [hconsumer]; exact ⟨fun hc => (by cases hc), rfl⟩) rfl
    (by simp [delivers, hconsumer, hgood])
  split
  · exact ⟨fun hc => (by cases hc), rfl, rfl⟩
  split
  · exact ⟨fun hc => (by cases hc), rfl, rfl⟩
  · exact ⟨fun hc => (by cases hc), rfl, rfl⟩

theorem afterWake_place {c : Consumer} (hin : b.InPlace) (h : afterWake b.consumer = some c) :
    b.StandsAt c ∧ c ≠ .idle ∧ b.consumer ≠ .idle ∧ b.StandsAt (.returning (.error .canceled)) := by
  cases hconsumer : b.consumer with
  | readBlocked room =>
    have hplace : b.StandsAt (.readBlocked room) := by
      rw [← hconsumer]
      exact hin.place (by rw [hconsumer]; rfl)
    rw [hconsumer] at h
    cases h
    exact ⟨hplace.elsewhere, nofun, nofun, hplace.elsewhere⟩
  | writeBlocked total =>
    have hplace : b.StandsAt (.writeBlocked total) := by
      rw [← hconsumer]
      exact hin.place (by rw [hconsumer]; rfl)
    rw [hconsumer] at h
    cases h
    exact ⟨hplace.elsewhere, nofun, nofun, hplace.elsewhere⟩
  | _ =>
    rw [hconsumer] at h
    cases h

theorem section_step (hin : b.InPlace) (hclose : e ≠ .close ∧ e ≠ .closeCurrent ∧ e ≠ .unlock) (h : b.step e = some b') :
    BodySection b e b' := by
  have hidle : b.consumer = .idle → b.StandsAt .idle := by
    intro hc
    rw [← hc]
    exact hin.place (by rw [hc]; rfl)
  cases e <;> simp only [step] at h
  case close => exact absurd rfl hclose.1
  case closeCurrent => exact absurd rfl hclose.2.1
  case unlock => exact absurd rfl hclose.2.2
  case enqueue payload =>
    split at h
    · next b₁ henqueue =>
      cases h
      obtain ⟨hopen, hended, chunks, hpush, rfl⟩ := enqueue_ok henqueue
      exact .accepted payload chunks rfl hpush ⟨hopen, hended⟩ (by simp [accepts, henqueue]) rfl
    rename_i henqueue
    cases h
    exact .still hin b.wake b.ctxDone (by simp [accepts, henqueue]) rfl
  case endBody =>
    simp only [endBody] at h
    split at h
    · cases h
      exact .ended rfl rfl rfl
    · cases h
      exact .still hin b.wake b.ctxDone rfl rfl
  case cancel =>
    cases h
    exact .still hin b.wake true rfl rfl
  case readCall room =>
    split at h
    · next hfree =>
      cases h
      exact .goes _ (.inr rfl) rfl rfl (fun hc => (by cases hc)) ((hidle hfree.1).elsewhere)
    · cases h
  case writeToCall =>
    split at h
    · next hfree =>
      cases h
      exact .goes _ (.inr rfl) rfl rfl (fun hc => (by cases hc)) ((hidle hfree).elsewhere)
    · cases h
  case advance => exact section_advance hin h
  case woken =>
    split at h
    · obtain ⟨c, hc, rfl⟩ := Option.map_eq_some_iff.1 h
      obtain ⟨hplace, hnext, hbusy, -⟩ := afterWake_place hin hc
      exact .moved false b.ctxDone c rfl rfl rfl (fun h => absurd h hnext) (fun h => absurd h hbusy)
        (fun h => by rw [hplace.quiet] at h; cases h) (fun _ => hplace)
    · cases h
  case ctxDone =>
    split at h
    · obtain ⟨c, hc, rfl⟩ := Option.map_eq_some_iff.1 h
      obtain ⟨-, -, hbusy, hplace⟩ := afterWake_place hin hc
      exact .goes _ (.inl hbusy) rfl rfl (fun hc => (by cases hc)) hplace
    · cases h
  case wrote n failed =>
    split at h
    · next total hconsumer =>
      cases h
      exact section_wrote hin hconsumer
    · cases h
  case consumedReturn =>
    split at h
    · next next hconsumer =>
      cases h
      obtain ⟨hplace, hbusy, -⟩ := hin.inside next hconsumer
      exact .goes next (.inl (by rw [hconsumer]; exact fun hc => (by cases hc))) rfl rfl hbusy hplace
    · cases h

theorem took_of_end {n : Nat} {next : Consumer} (h : b.currentAt + n = b.current.length) :
    b.took n next = { b.clearCurrent with consumer := .consumed next } := if_pos h

theorem took_of_more {n : Nat} {next : Consumer} (h : b.currentAt + n ≠ b.current.length) :
    b.took n next = { b with currentAt := b.currentAt + n, consumer := next } := if_neg h

theorem InPlace.alike (hin : b.InPlace) (hcurrent : b'.current = b.current := by rfl)
    (hat : b'.currentAt = b.currentAt := by rfl) (hsome : b'.hasCurrent = b.hasCurrent := by rfl)
    (hconsumer : b'.consumer = b.consumer := by rfl) : b'.InPlace := by
  have hplaced : ∀ c, b.StandsAt c → b'.StandsAt c := by
    intro c h
    refine ⟨?_, ?_, h.quiet⟩
    · rw [hsome]
      exact h.holding
    · rw [hsome, hat, hcurrent]
      exact h.partway
  refine ⟨?_, ?_, ?_, ?_⟩
  · rw [hat, hcurrent]
    exact hin.within
  · rw [hsome, hat, hcurrent]
    exact hin.absent
  · rw [hconsumer]
    exact fun h => hplaced _ (hin.place h)
  · rw [hconsumer]
    exact fun next h => ⟨hplaced _ (hin.inside next h).1, (hin.inside next h).2⟩

theorem BodySection.inPlace (hin : b.InPlace) (h : BodySection b e b') : b'.InPlace := by
  cases h with
  | moved wake ctxDone c hb haccepts hdelivers hidle henters hcalling hplace =>
    subst hb
    refine ⟨hin.within, hin.absent, fun hquiet => ?_, fun next hc => ?_⟩
    · have hat := hplace hquiet
      exact { hat with }
    have hsame := hcalling (by rw [show c = .consumed next from hc]; rfl)
    obtain ⟨hat, hbusy⟩ := hin.inside next (hsame.symm.trans hc)
    exact ⟨{ hat with }, hbusy⟩
  | accepted payload chunks hb hpush hopen haccepts hdelivers =>
    subst hb
    exact hin.alike
  | ended hb haccepts hdelivers =>
    subst hb
    exact hin.alike
  | took chunk c hfront hb hnone hfresh hbusy haccepts hdelivers =>
    subst hb
    refine ⟨Nat.zero_le _, fun hc => (by cases hc), fun hquiet => ⟨fun _ => rfl, fun _ => ?_, hquiet⟩, fun next hc => ?_⟩
    · exact (Nat.eq_zero_or_pos chunk.length).symm.imp_right fun hc => ⟨hfresh, List.length_eq_zero_iff.1 hc⟩
    rw [show c = .consumed next from hc] at hfresh
    cases hfresh
  | reachedEnd c hb hempty hnone hended hbusy hc haccepts hdelivers =>
    subst hb
    refine ⟨hin.within, hin.absent, fun hquiet => ?_, fun next hnext => ?_⟩
    · have hat : b.StandsAt c := .without hnone hc.2.2 hc.2.1
      exact { hat with }
    · rw [show c = .consumed next from hnext] at hc
      cases hc.2.1
  | handed n next hb hsome hn hnext hbusy haccepts hdelivers =>
    subst hb
    have hlength : b.remaining.length = b.current.length - b.currentAt := by simp [remaining]
    have hwithin := hin.within
    by_cases hall : b.currentAt + n = b.current.length
    · rw [took_of_end hall]
      refine ⟨le_rfl, fun _ => ⟨rfl, rfl⟩, fun hquiet => (by cases hquiet), fun next' hc => ?_⟩
      obtain rfl : next = next' := Consumer.consumed.inj hc
      exact ⟨.without rfl hnext.2.2 hnext.2.1, hnext.1, Consumer.fresh_of_not_atChunk hnext.2.2⟩
    rw [took_of_more hall]
    have hpart : b.currentAt + n < b.current.length := by omega
    refine ⟨hpart.le, fun hnone => ?_, fun hquiet => ⟨fun hat => ?_, fun _ => .inl hpart, hquiet⟩, fun next' hc => ?_⟩
    · change b.hasCurrent = false at hnone
      cases hsome.symm.trans hnone
    · exact hsome
    · rw [show next = .consumed next' from hc] at hnext
      cases hnext.2.1

end AsyncRequestBody
end YuriRtc
