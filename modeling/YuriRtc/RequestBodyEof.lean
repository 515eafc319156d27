import YuriRtc.RequestBody
/-!
# RequestBodyEof — when a clean end of the body means the whole body

A run of an `asyncRequestBody` with what went in and what came out: `accepted` lists the payloads `enqueue` took, `delivered`
the bytes the consumer got.  `Close` drops queued chunks, and `awaitCurrent` asks for `ended` before `closed`, so a body that
was ended, then closed with chunks left, reports `io.EOF` (`eof_after_close`).  It is the only way (`clean_end_delivers_all`).
-/
namespace YuriRtc
namespace AsyncRequestBody

def accepts (b : AsyncRequestBody) : BodyEvent → List Bytes
  | .enqueue payload =>
    match b.enqueue payload with
    | .ok _ => [payload]
    | .error _ => []
  | _ => []

def delivers (b : AsyncRequestBody) : BodyEvent → Bytes
  | .advance =>
    match b.consumer with
    | .readCurrent room => b.remaining.take room
    | _ => []
  | .wrote n _ =>
    match b.consumer with
    | .writing _ => if n < 0 ∨ (b.remaining.length : Int) < n then [] else b.remaining.take n.toNat
    | _ => []
  | _ => []

def undelivered (b : AsyncRequestBody) : Bytes := b.remaining ++ b.chunks.toList.flatten

/-- **No section drops bytes of an ended body**, read before it: `Close` drops the ring, and the end of a call (or
`Close`, when no call is in progress) drops the current chunk. -/
def LosesNothing (b : AsyncRequestBody) : BodyEvent → Prop
  | .close => b.closed = false → b.ended = true → b.chunks.toList.flatten = []
  | .closeCurrent => b.consumer = .idle → b.ended = true → b.remaining = []
  | .unlock => b.closed = true → b.ended = true → b.remaining = []
  | _ => True

instance (b : AsyncRequestBody) (e : BodyEvent) : Decidable (b.LosesNothing e) := by
  unfold LosesNothing
  split <;> infer_instance

/-- A call that is about to answer `io.EOF`, or `WriteTo`'s nil error. -/
def endsCleanly : Consumer → Bool
  | .returning .eof => true
  | .returning (.wrote _) => true
  | .consumed next => endsCleanly next
  | _ => false

end AsyncRequestBody

open AsyncRequestBody (accepts delivers undelivered LosesNothing endsCleanly)

structure BodyTrace where
  body : AsyncRequestBody
  accepted : List Bytes
  delivered : Bytes

namespace BodyTrace

def start : BodyTrace := ⟨AsyncRequestBody.newAsyncRequestBody, [], []⟩

def step (t : BodyTrace) (e : BodyEvent) : Option BodyTrace :=
  (t.body.step e).map (fun b => ⟨b, t.accepted ++ accepts t.body e, t.delivered ++ delivers t.body e⟩)

structure Sound (t : BodyTrace) : Prop where
  current : t.body.hasCurrent = false → t.body.current = []
  closers : t.body.closers ≠ 0 → t.body.closed = true
  intact : t.body.closed = false ∨ t.body.ended = true →
    t.delivered ++ undelivered t.body = t.accepted.flatten
  finished : endsCleanly t.body.consumer = true → t.body.ended = true ∧ undelivered t.body = []

end BodyTrace

namespace AsyncRequestBody

section

variable (b : AsyncRequestBody)
include b

theorem remaining_of_no_current (h : b.current = []) : b.remaining = [] := by
  unfold remaining
  rw [h, List.drop_nil]

theorem awaitCurrent_spec (hc : b.hasCurrent = false → b.current = []) :
    undelivered b.awaitCurrent.1 = undelivered b ∧
    (b.awaitCurrent.1.hasCurrent = false → b.awaitCurrent.1.current = []) ∧
    b.awaitCurrent.1.ended = b.ended ∧ b.awaitCurrent.1.closed = b.closed ∧
    b.awaitCurrent.1.closers = b.closers ∧ b.awaitCurrent.1.consumer = b.consumer ∧
    (b.awaitCurrent.2 = .eof → b.ended = true ∧ undelivered b = []) := by
  unfold awaitCurrent
  by_cases h : b.hasCurrent = true
  · simp_all
  rw [if_neg h]
  have hcur : b.current = [] := hc (by simpa using h)
  have hrem := b.remaining_of_no_current hcur
  rw [Rings.Ring.front?_eq_head?]
  cases hl : b.chunks.toList with
  | nil =>
    have hu : undelivered b = [] := by rw [undelivered, hrem, hl]; rfl
    simp only [List.head?_nil]
    by_cases he : b.ended = true
    · rw [if_pos he]
      exact ⟨rfl, fun _ => hcur, rfl, rfl, rfl, rfl, fun _ => ⟨he, hu⟩⟩
    · rw [if_neg he]
      split <;> exact ⟨rfl, fun _ => hcur, rfl, rfl, rfl, rfl, nofun⟩
  | cons chunk rest =>
    have hu : undelivered b = chunk ++ rest.flatten := by rw [undelivered, hrem, hl]; rfl
    have htail : b.chunks.popFront.toList = rest := by rw [Rings.Ring.toList_popFront, hl]; rfl
    refine ⟨?_, (nofun : true = false → _), rfl, rfl, rfl, rfl, (nofun : Await.current = .eof → _)⟩
    rw [hu, ← htail]
    rfl

theorem undelivered_took (n : Nat) (next : Consumer) :
    b.remaining.take n ++ undelivered (b.took n next) = undelivered b := by
  unfold took
  have hlen : b.remaining.length = b.current.length - b.currentAt := by simp [remaining]
  by_cases h : b.currentAt + n = b.current.length
  · rw [if_pos h]
    have hall : b.remaining.take n = b.remaining := List.take_of_length_le (by omega)
    rw [hall]
    rfl
  · rw [if_neg h]
    grind [undelivered, remaining, List.drop_drop, List.take_append_drop]

theorem took_flags (n : Nat) (next : Consumer) :
    (b.took n next).ended = b.ended ∧ (b.took n next).closed = b.closed ∧ (b.took n next).closers = b.closers ∧
    endsCleanly (b.took n next).consumer = endsCleanly next ∧
    ((b.hasCurrent = false → b.current = []) → (b.took n next).hasCurrent = false → (b.took n next).current = []) := by
  unfold took
  split
  · exact ⟨rfl, rfl, rfl, rfl, fun _ _ => rfl⟩
  · exact ⟨rfl, rfl, rfl, rfl, fun h => h⟩

end

theorem undelivered_push {b : AsyncRequestBody} {payload : Bytes} {chunks : Rings.Ring Bytes requestBodyQueueFrames}
    (h : b.chunks.push payload = some chunks) :
    undelivered { b with chunks := chunks, wake := true } = undelivered b ++ payload := by
  simp only [undelivered, remaining, Rings.Ring.toList_push h, List.flatten_append, List.append_assoc]
  simp

end AsyncRequestBody

namespace BodyTrace

open AsyncRequestBody

variable {t : BodyTrace}

section

variable (h : t.Sound)
include h

theorem Sound.quiet (b : AsyncRequestBody)
    (hu : undelivered b = undelivered t.body) (hc : b.hasCurrent = false → b.current = [])
    (he : b.ended = t.body.ended) (hcl : b.closed = t.body.closed) (hn : b.closers ≠ 0 → b.closed = true)
    (hf : endsCleanly b.consumer = true → b.ended = true ∧ undelivered b = []) :
    Sound ⟨b, t.accepted ++ [], t.delivered ++ []⟩ where
  current := hc
  closers := hn
  intact := by simpa [hu, hcl, he] using h.intact
  finished := hf

theorem Sound.took (n : Nat) (next : Consumer) (hnext : endsCleanly next = false) :
    Sound ⟨t.body.took n next, t.accepted ++ [], t.delivered ++ t.body.remaining.take n⟩ := by
  obtain ⟨he, hcl, hn, hclean, hcur⟩ := took_flags t.body n next
  refine ⟨hcur h.current, ?_, ?_, fun hf => ?_⟩
  · simpa [hn, hcl] using h.closers
  · simpa [he, hcl, undelivered_took] using h.intact
  · rw [hclean, hnext] at hf
    cases hf

theorem Sound.advance {b : AsyncRequestBody} (hb : t.body.advance = some b) :
    Sound ⟨b, t.accepted ++ [], t.delivered ++ delivers t.body .advance⟩ := by
  obtain ⟨hu, hc, he, hcl, hclosers, -, heof⟩ := awaitCurrent_spec t.body h.current
  have hn : t.body.awaitCurrent.1.closers ≠ 0 → t.body.awaitCurrent.1.closed = true := by
    rw [hclosers, hcl]
    exact h.closers
  unfold AsyncRequestBody.advance at hb
  unfold delivers
  split at hb
  · -- `Read` waits for a chunk
    rename_i room hcons
    simp only [hcons]
    split at hb <;> rename_i b' ha <;> cases hb <;> rw [ha] at hu hc he hcl hn heof
    · exact h.quiet _ hu hc he hcl hn (by nofun)
    · obtain ⟨h1, h2⟩ := heof rfl
      exact h.quiet _ hu hc he hcl hn (fun _ => ⟨he.trans h1, hu.trans h2⟩)
    · exact h.quiet _ hu hc he hcl hn (by nofun)
    · exact h.quiet _ hu hc he hcl hn (by nofun)
  · -- `Read` copies
    rename_i room hcons
    simp only [hcons]
    cases hb
    have htake : t.body.remaining.take room = t.body.remaining.take (min room t.body.remaining.length) := by simp_all
    rw [htake]
    apply h.took
    split <;> rfl
  · rename_i total hcons
    simp only [hcons]
    split at hb <;> cases hb <;> exact h.quiet _ rfl h.current rfl rfl h.closers (by nofun)
  · -- `WriteTo` waits for a chunk
    rename_i total hcons
    simp only [hcons]
    split at hb <;> rename_i b' ha <;> cases hb <;> rw [ha] at hu hc he hcl hn heof
    · exact h.quiet _ hu hc he hcl hn (by nofun)
    · obtain ⟨h1, h2⟩ := heof rfl
      exact h.quiet _ hu hc he hcl hn (fun _ => ⟨he.trans h1, hu.trans h2⟩)
    · exact h.quiet _ hu hc he hcl hn (by nofun)
    · exact h.quiet _ hu hc he hcl hn (by nofun)
  · rename_i total hcons
    simp only [hcons]
    split at hb
    · rename_i hemp
      cases hb
      have hall : t.body.chunks.toList.flatten = undelivered t.body := by
        rw [undelivered, List.isEmpty_iff.1 hemp, List.nil_append]
      exact h.quiet _ hall (fun _ => rfl) rfl rfl h.closers (by nofun)
    · cases hb
      exact h.quiet _ rfl h.current rfl rfl h.closers (by nofun)
  · cases hb

theorem Sound.wrote {total : Nat} {n : Int} {failed : Bool}
    (hcons : t.body.consumer = .writing total) :
    Sound ⟨t.body.wrote total n failed, t.accepted ++ [], t.delivered ++ delivers t.body (.wrote n failed)⟩ := by
  unfold AsyncRequestBody.wrote
  simp only [delivers, hcons]
  by_cases hn : n < 0 ∨ (t.body.remaining.length : Int) < n
  · rw [if_pos hn, if_pos hn]
    exact h.quiet _ rfl h.current rfl rfl h.closers (by nofun)
  rw [if_neg hn, if_neg hn]
  apply h.took
  split
  · rfl
  · split <;> rfl

theorem Sound.enqueue {payload : Bytes} {b : AsyncRequestBody}
    (hb : t.body.enqueue payload = .ok b) : Sound ⟨b, t.accepted ++ [payload], t.delivered ++ []⟩ := by
  obtain ⟨hopen, hended, chunks, hpush, rfl⟩ := enqueue_ok hb
  refine ⟨h.current, h.closers, fun _ => ?_, fun hf => ?_⟩
  · show (t.delivered ++ []) ++ undelivered { t.body with chunks := chunks, wake := true } =
      (t.accepted ++ [payload]).flatten
    rw [undelivered_push hpush, List.append_nil, ← List.append_assoc, h.intact (.inl hopen)]
    simp
  have hf := (h.finished hf).1
  cases hended.symm.trans hf

theorem Sound.endBody : Sound ⟨t.body.endBody, t.accepted ++ [], t.delivered ++ []⟩ := by
  unfold AsyncRequestBody.endBody
  split
  · rename_i hopen
    have hcl : t.body.closed = false := by simp_all
    refine ⟨h.current, h.closers, fun _ => ?_, fun hf => ⟨rfl, (h.finished hf).2⟩⟩
    show (t.delivered ++ []) ++ undelivered t.body = (t.accepted ++ []).flatten
    rw [List.append_nil, List.append_nil]
    exact h.intact (.inl hcl)
  · exact h.quiet _ rfl h.current rfl rfl h.closers h.finished

theorem Sound.close (hk : LosesNothing t.body .close) :
    Sound ⟨t.body.close, t.accepted ++ [], t.delivered ++ []⟩ := by
  unfold AsyncRequestBody.close
  split
  · rename_i hc
    exact h.quiet _ rfl h.current rfl rfl (fun _ => hc) h.finished
  rename_i hc
  have hopen : t.body.closed = false := by simpa using hc
  have hkept : t.body.ended = true → t.body.remaining = undelivered t.body := fun he => by
    rw [undelivered, hk hopen he, List.append_nil]
  refine ⟨h.current, fun _ => rfl, ?_, fun hf => ?_⟩
  · rintro (hf | he)
    · cases hf
    show (t.delivered ++ []) ++ (t.body.remaining ++ (t.body.chunks.clear).toList.flatten) =
      (t.accepted ++ []).flatten
    rw [Rings.Ring.toList_clear, hkept he, List.append_nil, List.append_nil]
    simpa using h.intact (.inr he)
  · obtain ⟨he, hu⟩ := h.finished hf
    refine ⟨he, ?_⟩
    show t.body.remaining ++ (t.body.chunks.clear).toList.flatten = []
    simp_all

theorem Sound.dropCurrent (hcl : t.body.closed = true)
    (hk : t.body.ended = true → t.body.remaining = []) (c : Consumer) (hc : endsCleanly c = false) (drained : Bool)
    (closers : Nat) :
    Sound ⟨{ t.body.clearCurrent with drained := drained, consumer := c, closers := closers },
      t.accepted ++ [], t.delivered ++ []⟩ := by
  refine ⟨fun _ => rfl, fun _ => hcl, ?_, fun hf => ?_⟩
  · rintro (ho | he)
    · have ho : t.body.closed = false := ho
      cases hcl.symm.trans ho
    · show (t.delivered ++ []) ++ t.body.chunks.toList.flatten = (t.accepted ++ []).flatten
      rw [List.append_nil, List.append_nil, ← h.intact (.inr he), undelivered, hk he, List.nil_append]
  · cases hc.symm.trans hf

end

theorem Sound.step {t t' : BodyTrace} {e : BodyEvent} (h : t.Sound) (hk : LosesNothing t.body e)
    (hs : t.step e = some t') : t'.Sound := by
  obtain ⟨b, hb, rfl⟩ := Option.map_eq_some_iff.1 hs
  cases e <;> simp only [AsyncRequestBody.step] at hb
  case enqueue payload =>
    cases he : t.body.enqueue payload with
    | ok b' =>
      simp only [he, Option.some.injEq] at hb
      subst hb
      simp only [accepts, delivers, he]
      exact h.enqueue he
    | error err =>
      simp only [he, Option.some.injEq] at hb
      subst hb
      simp_all [accepts, delivers]
  case endBody =>
    cases hb
    exact h.endBody
  case close =>
    cases hb
    exact h.close hk
  case closeCurrent =>
    split at hb <;> cases hb
    rename_i hn
    unfold AsyncRequestBody.closeCurrent
    split
    · rename_i hidle
      exact h.dropCurrent (h.closers hn) (hk hidle) t.body.consumer (by rw [hidle]; rfl) true _
    · exact h.quiet _ rfl h.current rfl rfl (fun _ => h.closers hn) h.finished
  case cancel =>
    cases hb
    exact h.quiet _ rfl h.current rfl rfl h.closers h.finished
  case readCall room =>
    obtain ⟨-, rfl⟩ := Steps.of_guard hb
    exact h.quiet _ rfl h.current rfl rfl h.closers (by nofun)
  case writeToCall =>
    obtain ⟨-, rfl⟩ := Steps.of_guard hb
    exact h.quiet _ rfl h.current rfl rfl h.closers (by nofun)
  case advance => exact h.advance hb
  case woken =>
    split at hb
    · obtain ⟨c, hc, rfl⟩ := Option.map_eq_some_iff.1 hb
      refine h.quiet _ rfl h.current rfl rfl h.closers ?_
      unfold afterWake at hc
      split at hc <;> cases hc <;> nofun
    · cases hb
  case ctxDone =>
    split at hb
    · obtain ⟨c, -, rfl⟩ := Option.map_eq_some_iff.1 hb
      exact h.quiet _ rfl h.current rfl rfl h.closers (by nofun)
    · cases hb
  case wrote n failed =>
    split at hb <;> cases hb
    exact h.wrote ‹_›
  case consumedReturn =>
    split at hb <;> cases hb
    rename_i next hc
    refine h.quiet _ rfl h.current rfl rfl h.closers (fun hf => h.finished ?_)
    rw [hc]
    exact hf
  case unlock =>
    split at hb <;> cases hb
    unfold AsyncRequestBody.unlockConsumer
    split
    · exact h.dropCurrent ‹_› (hk ‹_›) .idle rfl true _
    · exact h.quiet _ rfl h.current rfl rfl h.closers (by nofun)

theorem Sound.start : start.Sound where
  current _ := rfl
  closers h := absurd rfl h
  intact _ := rfl
  finished := nofun

/-- **A clean end means the whole body.**  In every run none of whose sections drops bytes of an ended body, a `Read`
that answers `io.EOF` and a `WriteTo` that answers no error come after `end`, with every accepted byte delivered, in
order. -/
theorem clean_end_delivers_all (es : List BodyEvent) (t : BodyTrace) (hrun : Steps.run step start es = some t)
    (hkeeps : Steps.Meets step (fun t e => LosesNothing t.body e) start es)
    (hclean : t.body.consumer = .returning .eof ∨ ∃ total, t.body.consumer = .returning (.wrote total)) :
    t.body.ended = true ∧ t.delivered = t.accepted.flatten := by
  have hs : t.Sound := Steps.run_inv_when step _ Sound (fun s e s' h hk hs => h.step hk hs) es start t .start hkeeps hrun
  have hends : endsCleanly t.body.consumer = true := by
    obtain h | ⟨total, h⟩ := hclean <;> rw [h] <;> rfl
  obtain ⟨hended, hnone⟩ := hs.finished hends
  refine ⟨hended, ?_⟩
  rw [← hs.intact (.inr hended), hnone, List.append_nil]

def readToEnd : List BodyEvent :=
  [.enqueue [7, 8], .endBody, .readCall 4, .advance, .advance, .consumedReturn, .unlock, .readCall 4, .advance]

theorem clean_end_delivers_all_readToEnd :
    ∃ t, Steps.run step start readToEnd = some t ∧
      Steps.Meets step (fun t e => LosesNothing t.body e) start readToEnd ∧
      t.body.consumer = .returning .eof ∧ t.accepted = [[7, 8]] ∧
      t.body.ended = true ∧ t.delivered = t.accepted.flatten := by
  have hends : (Steps.run step start readToEnd).map (fun t => (t.body.consumer, t.accepted)) =
      some (.returning .eof, [[7, 8]]) := rfl
  have hkeeps : Steps.Meets step (fun t e => LosesNothing t.body e) start readToEnd := by decide
  obtain ⟨t, hrun, ht⟩ := Option.map_eq_some_iff.1 hends
  obtain ⟨hcons, hacc⟩ := Prod.mk.inj ht
  exact ⟨t, hrun, hkeeps, hcons, hacc, clean_end_delivers_all readToEnd t hrun hkeeps (.inl hcons)⟩

/-- **`io.EOF` after a discard.**  The upload ended, `Close` dropped its one queued chunk, and the next `Read` answers
`io.EOF`: the transport to the backend is told that an empty body was the whole one. -/
theorem eof_after_close :
    (Steps.run step start [.enqueue [7], .endBody, .close, .closeCurrent, .readCall 4, .advance]).map
      (fun t => (t.body.consumer, t.accepted, t.delivered)) = some (.returning .eof, [[7]], []) := rfl

end BodyTrace

end YuriRtc
