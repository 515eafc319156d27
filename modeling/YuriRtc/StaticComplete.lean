import YuriRtc.StaticBody
/-!
# StaticComplete — when a static response that was ended is complete

The service worker sees no length, so `ResEnd` alone tells it that a body is whole.  The gzip writers compare what they
read with the announced length; the two loops that copy a file as it is return without an error at the end of the file,
however early it comes.  `EndsShort` says when it comes too early, and `ended_complete_iff` that nothing else cuts an ended
response short.
-/
namespace YuriRtc

variable {offset : Nat} {turns : List Turn} {carrier : Carrier}

/-! ### What reads give -/

inductive ReadOf : List Turn → Nat → Bytes → Prop where
  | stop (turns : List Turn) (offset : Nat) : ReadOf turns offset []
  | read (turn : Turn) (rest : List Turn) (offset : Nat) (piece bytes : Bytes) (hpiece : piece <+: turn.content.drop offset)
      (hrest : ReadOf rest (offset + piece.length) bytes) : ReadOf (turn :: rest) offset (piece ++ bytes)

variable (turn : Turn)

theorem Turn.read_prefix (offset size : Nat) : turn.read offset size <+: turn.content.drop offset :=
  List.take_prefix _ _

theorem Turn.length_read_le (offset size : Nat) : (turn.read offset size).length ≤ size := by
  simp only [Turn.read, List.length_take]
  omega

theorem Turn.read_min (offset size limit : Nat) :
    turn.read offset (min size limit) = (turn.read offset size).take limit := by grind [Turn.read]

theorem ReadOf.one (rest : List Turn) (offset size : Nat) :
    ReadOf (turn :: rest) offset (turn.read offset size) := by
  have h := ReadOf.read turn rest offset _ [] (turn.read_prefix offset size) (.stop _ _)
  rwa [List.append_nil] at h

theorem ReadOf.skip {rest : List Turn} {bytes : Bytes} (h : ReadOf rest offset bytes) :
    ReadOf (turn :: rest) offset bytes :=
  .read turn rest offset [] bytes List.nil_prefix h

theorem ReadOf.prefix_of_kept {whole : Bytes} {bytes : Bytes}
    (h : ReadOf turns offset bytes) (hkept : ∀ turn ∈ turns, turn.content <+: whole) : bytes <+: whole.drop offset := by
  induction h with
  | stop => exact List.nil_prefix
  | read turn rest offset piece bytes hpiece _ ih =>
    have hhead : piece <+: whole.drop offset := by
      obtain ⟨lost, hlost⟩ := hkept turn List.mem_cons_self
      grind [List.drop_append]
    have htail := ih fun t ht => hkept t (List.mem_cons_of_mem _ ht)
    obtain ⟨after, hafter⟩ := hhead
    rw [← List.drop_drop, ← hafter, List.drop_left] at htail
    simp_all [← hafter]

/-! ### The copying loops -/

def Turn.Passes (turn : Turn) (offset : Nat) : Prop :=
  turn.before = none ∧ (turn.read offset maxPayloadBytes ≠ [] → turn.send = none)

/-- The reader reports the end of the file before `stop`, and every turn until then passes. -/
inductive EndsShort : List Turn → Nat → Nat → Prop where
  | here (turn : Turn) (rest : List Turn) (offset stop : Nat) (hpass : turn.Passes offset) (heof : turn.readEnd = some .eof)
      (hshort : offset + (turn.read offset maxPayloadBytes).length < stop) : EndsShort (turn :: rest) offset stop
  | later (turn : Turn) (rest : List Turn) (offset stop : Nat) (hpass : turn.Passes offset) (hon : turn.readEnd = none)
      (hrest : EndsShort rest (offset + (turn.read offset maxPayloadBytes).length) stop) :
      EndsShort (turn :: rest) offset stop

theorem EndsShort.lt {stop : Nat} (h : EndsShort turns offset stop) : offset < stop := by
  induction h with
  | here => omega
  | later => omega

theorem endsShort_cons {turn : Turn} {rest : List Turn} {stop : Nat} :
    EndsShort (turn :: rest) offset stop ↔ turn.Passes offset ∧
      ((turn.readEnd = some .eof ∧ offset + (turn.read offset maxPayloadBytes).length < stop) ∨
        (turn.readEnd = none ∧ EndsShort rest (offset + (turn.read offset maxPayloadBytes).length) stop)) := by
  constructor
  · intro h
    cases h <;> simp_all
  rintro ⟨hpass, ⟨heof, hshort⟩ | ⟨hon, hrest⟩⟩
  · exact .here _ _ _ _ hpass heof hshort
  · exact .later _ _ _ _ hpass hon hrest

variable (contextFirst : Bool)

theorem streamLoop_readOf (turns : List Turn) (offset : Nat) (remaining : Option Nat) :
    ReadOf turns offset (streamLoop contextFirst turns offset remaining).1.flatten := by
  induction turns generalizing offset remaining with
  | nil => exact .stop _ _
  | cons turn rest ih =>
    simp only [streamLoop]
    split
    · exact .stop _ _
    split
    · exact .stop _ _
    split
    · split
      · exact .stop _ _
      · exact .stop _ _
      · exact (ih _ _).skip turn
    split
    · exact .stop _ _
    simp only [List.flatten_cons]
    refine .read turn rest offset _ _ (turn.read_prefix _ _) ?_
    split
    · exact .stop _ _
    · exact .stop _ _
    · exact ih _ _

theorem read_readSize (offset remaining : Nat) :
    turn.read offset (readSize (some remaining)) = (turn.read offset maxPayloadBytes).take remaining :=
  turn.read_min offset maxPayloadBytes remaining

theorem streamLoop_short_iff (turns : List Turn) (offset remaining : Nat) :
    ((streamLoop contextFirst turns offset (some remaining)).2 = .done ∧
      (streamLoop contextFirst turns offset (some remaining)).1.flatten.length < remaining) ↔
      EndsShort turns offset (offset + remaining) := by
  induction turns generalizing offset remaining with
  | nil =>
    constructor
    · simp [streamLoop]
    · intro h
      cases h
  | cons turn rest ih =>
    by_cases hzero : remaining = 0
    · subst hzero
      exact ⟨fun h => absurd h.2 (Nat.not_lt_zero _), fun h => absurd h.lt (by omega)⟩
    have hne : ¬ (some remaining = some 0 ∧ (contextFirst = false ∨ turn.before = none)) := by simp [hzero]
    simp only [streamLoop, if_neg hne, read_readSize]
    rw [endsShort_cons, Turn.Passes]
    cases hbefore : turn.before with
    | some e => simp
    | none =>
      by_cases hfits : (turn.read offset maxPayloadBytes).length < remaining
      · -- The read is not held back by the limit, so the loop and the reader advance alike.
        rw [List.take_of_length_le (le_of_lt hfits)]
        generalize turn.read offset maxPayloadBytes = data at hfits
        have hrest := ih (offset + data.length) (remaining - data.length)
        rw [show offset + data.length + (remaining - data.length) = offset + remaining by omega] at hrest
        by_cases hempty : data = []
        · grind
        · grind
      · -- The read reaches the limit: whatever it reports, the body is not short.
        have hlength : ((turn.read offset maxPayloadBytes).take remaining).length = remaining := by grind
        have hempty : (turn.read offset maxPayloadBytes).take remaining ≠ [] := by grind
        constructor
        · grind
        rintro ⟨-, ⟨-, hshort⟩ | ⟨-, hrest⟩⟩
        · omega
        · have := hrest.lt
          omega

theorem streamLoop_length_le (turns : List Turn) (offset remaining : Nat) :
    (streamLoop contextFirst turns offset (some remaining)).1.flatten.length ≤ remaining := by
  induction turns generalizing offset remaining with
  | nil => exact Nat.zero_le _
  | cons turn rest ih =>
    have hread := turn.length_read_le offset (readSize (some remaining))
    simp only [streamLoop]
    generalize turn.read offset (readSize (some remaining)) = data at hread
    have hfits : data.length ≤ remaining := le_trans hread (Nat.min_le_right _ _)
    grind

/-- **A copy that ended has written what it read**: an invariant of the sink that each write keeps, with the chunks written
so far, holds at the end with all of them. -/
theorem copyLimited_ended {σ : Type} {buffer : Nat} {write : σ → Bytes → σ × Option ServeError}
    (Inv : σ → List Bytes → Prop)
    (hwrite : ∀ sink chunks data sink', Inv sink chunks → write sink data = (sink', none) → Inv sink' (chunks ++ [data]))
    {left written written' : Nat} {sink sink' : σ} {chunks : List Bytes}
    (hinv : Inv sink chunks) (h : copyLimited buffer write turns offset left sink written = (sink', written', .ended)) :
    ∃ more, ReadOf turns offset more.flatten ∧ written' = written + more.flatten.length ∧ Inv sink' (chunks ++ more) := by
  induction turns generalizing offset left written sink chunks with
  | nil =>
    cases left with
    | zero =>
      cases h
      exact ⟨[], .stop _ _, rfl, by rwa [List.append_nil]⟩
    | succ left => cases h
  | cons turn rest ih =>
    cases left with
    | zero =>
      cases h
      exact ⟨[], .stop _ _, rfl, by rwa [List.append_nil]⟩
    | succ left =>
      simp only [copyLimited] at h
      have hone := ReadOf.one turn rest offset (min buffer (left + 1))
      have hgo := fun more => ReadOf.read turn rest offset (turn.read offset (min buffer (left + 1))) more
        (turn.read_prefix _ _)
      generalize turn.read offset (min buffer (left + 1)) = data at h hone hgo
      by_cases hempty : data = []
      · subst hempty
        simp only [if_true] at h
        cases hend : turn.readEnd with
        | none => grind
        | some fin =>
          cases fin with
          | error => simp [hend] at h
          | eof =>
            simp only [hend, Prod.mk.injEq] at h
            obtain ⟨rfl, rfl, -⟩ := h
            exact ⟨[], .stop _ _, rfl, by rwa [List.append_nil]⟩
      · grind

/-! ### The gzip writers -/

theorem encodeChunks_snoc {σ : Type} (write : σ → Bytes → σ × List Bytes) (state : σ) (chunks : List Bytes) (data : Bytes) :
    encodeChunks write state (chunks ++ [data]) =
      ((write (encodeChunks write state chunks).1 data).1,
        (encodeChunks write state chunks).2 ++ (write (encodeChunks write state chunks).1 data).2) := by
  induction chunks generalizing state with
  | nil => simp [encodeChunks]
  | cons chunk rest ih => simp [encodeChunks, ih]

namespace WireBodyWriter

variable {carrier : Carrier} {w w' : WireBodyWriter} {data : Bytes} {failure : Option ServeError}

def bytes (w : WireBodyWriter) : Bytes := w.sent.flatten ++ w.pending

theorem flush_some (h : w.flush carrier = (w', none)) :
    w'.bytes = w.bytes ∧ w'.pending = [] := by grind [flush, bytes]

theorem flush_error {e : ServeError} (h : w.flush carrier = (w', some e)) :
    w' = w ∧ ∃ n, carrier.sendBody n = some e := by grind [flush]

theorem mem_sent_flush {body : Bytes} (h : body ∈ (w.flush carrier).1.sent) :
    body ∈ w.sent ∨ body = w.pending := by grind [flush]

/-- What a write of `data` has come to.  Nothing is reordered or lost, whole payloads are sent, and only the context or
`SendBody` makes it fail. -/
structure Wrote (carrier : Carrier) (w : WireBodyWriter) (data : Bytes) (w' : WireBodyWriter) (failure : Option ServeError) :
    Prop where
  kept : w'.bytes <+: w.bytes ++ data
  full : (∀ body ∈ w.sent, body.length = maxPayloadBytes) → ∀ body ∈ w'.sent, body.length = maxPayloadBytes
  whole : failure = none → w'.bytes = w.bytes ++ data ∧ w'.pending.length < maxPayloadBytes
  delivered : carrier.Delivers → failure = none

theorem Wrote.nothing (hpending : w.pending.length < maxPayloadBytes) :
    Wrote carrier w [] w none where
  kept := by simp
  full h := h
  whole _ := ⟨by simp, hpending⟩
  delivered _ := rfl

theorem Wrote.failed {e : ServeError} (hkept : w'.bytes <+: w.bytes ++ data) (hsent : w'.sent = w.sent)
    (hcause : ∃ n, carrier.context n = some e ∨ carrier.sendBody n = some e) : Wrote carrier w data w' (some e) where
  kept := hkept
  full h := by rwa [hsent]
  whole h := by cases h
  delivered h := by simp_all [h.1, h.2]

theorem Wrote.trans {mid : WireBodyWriter} {rest : Bytes}
    (hfirst : Wrote carrier w data mid none) (hrest : Wrote carrier mid rest w' failure) :
    Wrote carrier w (data ++ rest) w' failure where
  kept := by
    rw [← List.append_assoc, ← (hfirst.whole rfl).1]
    exact hrest.kept
  full h := hrest.full (hfirst.full h)
  whole h := by
    rw [← List.append_assoc, ← (hfirst.whole rfl).1]
    exact hrest.whole h
  delivered := hrest.delivered

theorem Wrote.direct (hnil : w.pending = [])
    (hlength : data.length = maxPayloadBytes) : Wrote carrier w data ⟨[], w.sent ++ [data]⟩ none where
  kept := by simp [bytes, hnil]
  full h body hbody := by grind
  whole _ := ⟨by simp [bytes, hnil], show 0 < maxPayloadBytes by decide⟩
  delivered _ := rfl

theorem Wrote.flushed (hlength : (w.pending ++ data).length = maxPayloadBytes)
    (hflush : flush carrier ⟨w.pending ++ data, w.sent⟩ = (w', none)) : Wrote carrier w data w' none := by
  obtain ⟨hsame, hnil⟩ := flush_some hflush
  have hbytes : w'.bytes = w.bytes ++ data := by
    rw [hsame]
    simp [bytes]
  refine ⟨by rw [hbytes], fun h body hbody => ?_, fun _ => ⟨hbytes, ?_⟩, fun _ => rfl⟩
  · have hmem : body ∈ (flush carrier ⟨w.pending ++ data, w.sent⟩).1.sent := by rwa [hflush]
    rcases mem_sent_flush hmem with hold | rfl
    · exact h body hold
    · exact hlength
  · rw [hnil]
    decide

theorem Wrote.kept_back
    (hroom : (w.pending ++ data).length < maxPayloadBytes) : Wrote carrier w data ⟨w.pending ++ data, w.sent⟩ none where
  kept := by simp [bytes]
  full h := h
  whole _ := ⟨by simp [bytes], hroom⟩
  delivered _ := rfl

theorem writeLoop_wrote {fuel written n : Nat}
    (hfuel : data.length ≤ fuel) (hpending : w.pending.length < maxPayloadBytes)
    (h : writeLoop carrier fuel w data written = (w', n, failure)) :
    Wrote carrier w data w' failure ∧ (failure = none → n = written + data.length) := by
  have hmax : 0 < maxPayloadBytes := by decide
  induction fuel generalizing w data written with
  | zero =>
    cases h
    rw [List.length_eq_zero_iff.1 (Nat.le_zero.1 hfuel)]
    exact ⟨.nothing hpending, fun _ => rfl⟩
  | succ fuel ih =>
    simp only [writeLoop] at h
    split at h
    · next hempty =>
      cases h
      rw [hempty]
      exact ⟨.nothing hpending, fun _ => rfl⟩
    next hne =>
    have hpos : 0 < data.length := List.length_pos_iff.2 hne
    -- a turn that takes `size` bytes, and the turns after it
    have hturn : ∀ (size : Nat) (mid : WireBodyWriter), 0 < size → size ≤ data.length →
        Wrote carrier w (data.take size) mid none →
        writeLoop carrier fuel mid (data.drop size) (written + size) = (w', n, failure) →
        Wrote carrier w data w' failure ∧ (failure = none → n = written + data.length) := by
      intro size mid hsize hle htaken hafter
      have hdrop : (data.drop size).length ≤ fuel := by
        rw [List.length_drop]
        omega
      obtain ⟨hrest, hcount⟩ := ih hdrop (htaken.whole rfl).2 hafter
      have hall := htaken.trans hrest
      grind [List.take_append_drop]
    split at h
    · next hcontext =>
      cases h
      exact ⟨.failed (List.prefix_append _ _) rfl ⟨_, .inl hcontext⟩, nofun⟩
    split at h
    · -- a whole payload goes out as it is
      next hwhole =>
      split at h
      · next hsend =>
        cases h
        exact ⟨.failed (List.prefix_append _ _) rfl ⟨_, .inr hsend⟩, nofun⟩
      · exact hturn maxPayloadBytes _ hmax hwhole.2 (.direct hwhole.1 (List.length_take_of_le hwhole.2)) h
    · generalize hsize : min data.length (maxPayloadBytes - w.pending.length) = size at h
      have hlength : (w.pending ++ data.take size).length = w.pending.length + size := by grind
      split at h
      · -- the payload is full: it is sent, and the rest starts a new one
        next hfull =>
        split at h
        · next hflush =>
          cases h
          obtain ⟨rfl, m, hsend⟩ := flush_error hflush
          refine ⟨.failed ?_ rfl ⟨m, .inr hsend⟩, nofun⟩
          grind [bytes, List.prefix_append_right_inj]
        · next hflush => exact hturn size _ (by omega) (by omega) (.flushed hfull hflush) h
      · next hpart =>
        have hroom : (w.pending ++ data.take size).length < maxPayloadBytes := by
          omega
        exact hturn size _ (by omega) (by omega) (.kept_back hroom) h

theorem writeAll_wrote {out : List Bytes} {counts : List Nat} (hpending : w.pending.length < maxPayloadBytes)
    (h : w.writeAll carrier out = (w', counts, failure)) :
    Wrote carrier w out.flatten w' failure ∧ (failure = none → counts = out.map List.length) := by
  induction out generalizing w counts with
  | nil =>
    cases h
    exact ⟨.nothing hpending, fun _ => rfl⟩
  | cons data rest ih =>
    simp only [writeAll] at h
    split at h
    · next hwrite =>
      cases h
      obtain ⟨hwrote, -⟩ := writeLoop_wrote (Nat.le_succ _) hpending hwrite
      refine ⟨⟨?_, hwrote.full, nofun, hwrote.delivered⟩, nofun⟩
      rw [List.flatten_cons, ← List.append_assoc]
      exact hwrote.kept.trans (List.prefix_append _ _)
    · next mid written hwrite =>
      obtain ⟨hwrote, hcount⟩ := writeLoop_wrote (Nat.le_succ _) hpending hwrite
      simp only [Prod.mk.injEq] at h
      obtain ⟨rfl, rfl, rfl⟩ := h
      obtain ⟨hrest, hcounts⟩ := ih (hwrote.whole rfl).2 rfl
      refine ⟨hwrote.trans hrest, fun hnone => ?_⟩
      simp_all

end WireBodyWriter

/-- `bytes` were read from an offset on, and they are as many as announced. -/
def WholeRead (turns : List Turn) (offset length : Nat) (bytes : Bytes) : Prop :=
  bytes.length = length ∧ ReadOf turns offset bytes

theorem streamEncodedBytes_done {fuel : Nat} {sent bodies : List Bytes} {data : Bytes}
    (hfuel : data.length ≤ fuel) (h : streamEncodedBytes carrier fuel sent data = (bodies, .done)) :
    bodies.flatten = sent.flatten ++ data := by
  have hmax : 0 < maxPayloadBytes := by decide
  induction fuel generalizing sent data with
  | zero =>
    cases h
    simp_all
  | succ fuel ih =>
    simp only [streamEncodedBytes] at h
    split at h
    · simp_all
    rename_i hne
    have hpos : 0 < data.length := List.length_pos_iff.2 hne
    have hdrop : (data.drop maxPayloadBytes).length ≤ fuel := by
      rw [List.length_drop]
      omega
    split at h
    · cases h
    · cases h
    · rw [ih hdrop h]
      simp

def Buffered (codec : GzipCodec) (sink : codec.State × List Bytes) (chunks : List Bytes) : Prop :=
  sink = encodeChunks codec.write codec.start chunks

variable {codec : GzipCodec}

theorem bufferWrite_buffered (sink : codec.State × List Bytes) (chunks : List Bytes) (data : Bytes)
    (sink' : codec.State × List Bytes) (hinv : Buffered codec sink chunks)
    (hw : bufferWrite codec sink data = (sink', none)) : Buffered codec sink' (chunks ++ [data]) := by
  cases hw
  rw [Buffered, encodeChunks_snoc, ← hinv]

structure Piped (codec : GzipCodec) (sink : codec.State × WireBodyWriter) (chunks : List Bytes) : Prop where
  state : sink.1 = (encodeChunks codec.write codec.start chunks).1
  bytes : sink.2.bytes = (encodeChunks codec.write codec.start chunks).2.flatten
  room : sink.2.pending.length < maxPayloadBytes

theorem Piped.start (codec : GzipCodec) : Piped codec (codec.start, ⟨[], []⟩) [] where
  state := rfl
  bytes := rfl
  room := Nat.zero_lt_of_lt (show 0 < maxPayloadBytes by decide)

theorem gzipWrite_piped (sink : codec.State × WireBodyWriter)
    (chunks : List Bytes) (data : Bytes) (sink' : codec.State × WireBodyWriter) (hinv : Piped codec sink chunks)
    (hw : gzipWrite codec carrier sink data = (sink', none)) : Piped codec sink' (chunks ++ [data]) := by
  simp only [gzipWrite, Prod.mk.injEq] at hw
  obtain ⟨rfl, hfailure⟩ := hw
  obtain ⟨hall, hlast⟩ := (WireBodyWriter.writeAll_wrote hinv.room rfl).1.whole hfailure
  constructor
  · rw [encodeChunks_snoc, ← hinv.state]
  · rw [encodeChunks_snoc, ← hinv.state, List.flatten_append, ← hinv.bytes]
    exact hall
  · exact hlast

theorem compressWireGzip_used {length : Nat} {data : Bytes}
    (h : compressWireGzip codec turns length = .used data) :
    ∃ bytes, codec.gunzip data = some bytes ∧ WholeRead turns 0 length bytes := by
  unfold compressWireGzip at h
  obtain ⟨⟨state, out⟩, written, copied, hcopy⟩ : ∃ sink written copied,
      copyLimited copyBufferBytes (bufferWrite codec) turns 0 length (codec.start, []) 0 = (sink, written, copied) :=
    ⟨_, _, _, rfl⟩
  rw [hcopy] at h
  cases copied with
  | waiting => cases h
  | writeFailed e => cases h
  | readFailed => cases h
  | ended =>
    have hstart : Buffered codec (codec.start, []) [] := rfl
    obtain ⟨chunks, hread, hwritten, hsink⟩ := copyLimited_ended (Buffered codec) bufferWrite_buffered hstart hcopy
    simp only at h
    split at h
    · cases h
    next hlength =>
    split at h
    · cases h
    cases h
    refine ⟨chunks.flatten, ?_, by omega, hread⟩
    have hlossless := codec.lossless chunks
    grind [Buffered]

theorem streamWireGzip_done {length : Nat}
    {bodies : List Bytes} (h : streamWireGzip codec carrier turns offset length = (bodies, .done)) :
    ∃ bytes, codec.gunzip bodies.flatten = some bytes ∧ WholeRead turns offset length bytes := by
  unfold streamWireGzip at h
  obtain ⟨⟨state, w⟩, written, copied, hcopy⟩ : ∃ sink written copied,
      copyLimited maxPayloadBytes (gzipWrite codec carrier) turns offset length (codec.start, ⟨[], []⟩) 0 =
        (sink, written, copied) := ⟨_, _, _, rfl⟩
  rw [hcopy] at h
  cases copied with
  | waiting => cases h
  | writeFailed e => cases h
  | readFailed => cases h
  | ended =>
    obtain ⟨chunks, hread, hwritten, hpiped⟩ :=
      copyLimited_ended (Piped codec) gzipWrite_piped (Piped.start codec) hcopy
    rw [List.nil_append] at hpiped
    obtain ⟨hstate, hbytes, hroom⟩ := hpiped
    simp only at h hstate hbytes hroom
    obtain ⟨closed, counts, failure, hclose⟩ : ∃ closed counts failure,
        w.writeAll carrier (codec.close state) = (closed, counts, failure) := ⟨_, _, _, rfl⟩
    rw [hclose] at h
    simp only at h
    split at h
    · cases h
    next hlength =>
    cases failure with
    | some e => cases h
    | none =>
      obtain ⟨hclosed, -⟩ := (WireBodyWriter.writeAll_wrote hroom hclose).1.whole rfl
      simp only at h
      split at h
      · cases h
      rename_i flushed hflush
      cases h
      obtain ⟨hsame, hnil⟩ := WireBodyWriter.flush_some hflush
      have hsent : flushed.sent.flatten = flushed.bytes := by simp [WireBodyWriter.bytes, hnil]
      refine ⟨chunks.flatten, ?_, by omega, hread⟩
      rw [hsent, hsame, hclosed, hbytes, hstate, ← List.flatten_append]
      exact codec.lossless chunks

/-! ### The response -/

def payload (frames : List StaticFrame) : Bytes :=
  frames.flatMap fun
    | .body data => data
    | _ => []

theorem payload_append (frames more : List StaticFrame) : payload (frames ++ more) = payload frames ++ payload more :=
  List.flatMap_append

theorem payload_bodies (status : Nat) (length : Option Nat) (wireGzip : Bool) (bodies : List Bytes) :
    payload (.head status length wireGzip :: bodies.map .body) = bodies.flatten := by
  simp [payload, List.flatMap_map, List.flatMap_id']

def decoded (codec : GzipCodec) (wireGzip : Bool) (data : Bytes) : Option Bytes :=
  if wireGzip then codec.gunzip data else some data

namespace StaticEnv

variable {length start status : Nat} {request : StaticRequest} {bodies : List Bytes}

variable {codec : GzipCodec} (env : StaticEnv codec)

/-- The announced bytes of the file: as this request read them, or as they were read when the compressed form that is sent
was made. -/
inductive FileBytes (start length : Nat) : Bytes → Prop where
  | read (bytes : Bytes) (h : WholeRead env.turns start length bytes) : FileBytes start length bytes
  | built (turns : List Turn) (bytes : Bytes) (hcache : env.cache = some (.built turns))
      (h : WholeRead turns start length bytes) : FileBytes start length bytes
  | verified (sidecar : Sidecar codec env.size) (hsidecar : env.sidecar = some sidecar) (hstart : start = 0)
      (hlength : sidecar.source.length = length) : FileBytes start length sidecar.source

theorem FileBytes.length_eq {bytes : Bytes} (h : env.FileBytes start length bytes) :
    bytes.length = length := by
  cases h with
  | read _ h => exact h.1
  | built _ _ _ h => exact h.1
  | verified _ _ _ hlength => exact hlength

def Complete (request : StaticRequest) (frames : List StaticFrame) : Prop :=
  ∀ status start length wireGzip, request.isHead = false → env.extent request = some (status, start, length) →
    .head status (some length) wireGzip ∈ frames →
      ∃ bytes, decoded codec wireGzip (payload frames) = some bytes ∧ env.FileBytes start length bytes

def PathShort (start length : Nat) : BodyPath codec env.size → Prop
  | .precompressed sidecar => EndsShort sidecar.turns 0 sidecar.encoded.length
  | .identity => EndsShort env.turns start (start + length)
  | .encoded _ => False
  | .gzip => False

theorem extent_whole (h : env.extent request = some (200, start, length)) :
    start = 0 ∧ length = env.size := by
  unfold extent at h
  split at h
  · cases h
    exact ⟨rfl, rfl⟩
  · simp_all

def Chosen (status length : Nat) : BodyPath codec env.size → Prop
  | .precompressed sidecar => status = 200 ∧ env.sidecar = some sidecar
  | .encoded data => status = 200 ∧ ∃ turns, env.cache = some (.built turns) ∧ compressWireGzip codec turns length = .used data
  | .gzip => True
  | .identity => True

theorem choosePath_chosen {path : BodyPath codec env.size}
    (h : env.choosePath request status length = .ok path) : env.Chosen status length path := by
  unfold choosePath at h
  split at h
  · next hgzip =>
    split at h
    · next sidecar hsidecar =>
      cases h
      exact ⟨hgzip.1, hsidecar⟩
    split at h
    · cases h
      trivial
    rename_i loaded hcache
    split at h
    · cases h
      trivial
    cases loaded with
    | refused e => cases h
    | leaderCanceled => cases h
    | built turns =>
      simp only at h
      cases hbuilt : compressWireGzip codec turns length with
      | failed e => simp [hbuilt] at h
      | waiting => simp [hbuilt] at h
      | used data =>
        simp only [hbuilt, Except.ok.injEq] at h
        subst h
        exact ⟨hgzip.1, turns, hcache, hbuilt⟩
      | unused =>
        simp only [hbuilt] at h
        split at h
        · cases h
        · cases h
          trivial
  · cases h
    trivial

theorem streamFile_done {turns : List Turn} {offset limit : Nat}
    (h : env.streamFile turns offset limit = (bodies, .done)) :
    ReadOf turns offset bodies.flatten ∧ bodies.flatten.length ≤ limit ∧
      (bodies.flatten.length < limit ↔ EndsShort turns offset (offset + limit)) := by
  obtain ⟨contextFirst, hloop⟩ : ∃ contextFirst, streamLoop contextFirst turns offset (some limit) = (bodies, .done) := by
    grind [streamFile, streamBody, streamN]
  have hread := streamLoop_readOf contextFirst turns offset (some limit)
  have hle := streamLoop_length_le contextFirst turns offset limit
  have hshort := streamLoop_short_iff contextFirst turns offset limit
  simp_all

theorem streamFile_of_endsShort {turns : List Turn} {offset limit : Nat}
    (hregistered : env.direct = true → env.registered = true) (h : EndsShort turns offset (offset + limit)) :
    (env.streamFile turns offset limit).2 = .done := by
  unfold streamFile streamBody streamN
  split
  · next hdirect =>
    rw [if_pos (hregistered hdirect)]
    exact ((streamLoop_short_iff _ _ _ _).2 h).1
  · exact ((streamLoop_short_iff _ _ _ _).2 h).1

theorem streamPath_delivers_iff {path : BodyPath codec env.size}
    (hextent : env.extent request = some (status, start, length))
    (hchosen : env.Chosen status length path) (hdone : env.streamPath start length path = (bodies, .done)) :
    (∃ bytes, decoded codec path.wireGzip bodies.flatten = some bytes ∧ env.FileBytes start length bytes) ↔
      ¬ env.PathShort start length path := by
  cases path with
  | identity =>
    obtain ⟨hread, hle, hshort⟩ := env.streamFile_done hdone
    rw [PathShort, ← hshort]
    constructor
    · rintro ⟨bytes, hbytes, hfile⟩
      cases hbytes
      have := hfile.length_eq
      omega
    · intro hlong
      exact ⟨_, rfl, .read _ ⟨by omega, hread⟩⟩
  | precompressed sidecar =>
    obtain ⟨rfl, hsidecar⟩ := hchosen
    obtain ⟨rfl, rfl⟩ := env.extent_whole hextent
    obtain ⟨hread, hle, hshort⟩ := env.streamFile_done hdone
    rw [Nat.zero_add] at hshort
    have hpart : bodies.flatten <+: sidecar.encoded := hread.prefix_of_kept sidecar.kept
    rw [PathShort, ← hshort]
    constructor
    · rintro ⟨bytes, hbytes, -⟩ hlt
      have hcut := sidecar.cut _ hpart (fun h => by rw [h] at hlt; exact lt_irrefl _ hlt)
      simp [decoded, BodyPath.wireGzip, hcut] at hbytes
    intro hlong
    have hwhole : bodies.flatten = sidecar.encoded := hpart.eq_of_length (by omega)
    refine ⟨sidecar.source, ?_, .verified sidecar hsidecar rfl sidecar.sized⟩
    rw [hwhole]
    exact sidecar.verified
  | encoded data =>
    obtain ⟨rfl, turns, hcache, hused⟩ := hchosen
    obtain ⟨rfl, -⟩ := env.extent_whole hextent
    obtain ⟨bytes, hgunzip, hwhole⟩ := compressWireGzip_used hused
    have hsent := streamEncodedBytes_done le_rfl hdone
    refine ⟨fun _ h => h, fun _ => ⟨bytes, ?_, .built turns bytes hcache hwhole⟩⟩
    rw [hsent]
    exact hgunzip
  | gzip =>
    obtain ⟨bytes, hgunzip, hwhole⟩ := streamWireGzip_done hdone
    exact ⟨fun _ h => h, fun _ => ⟨bytes, hgunzip, .read bytes hwhole⟩⟩

/-- A GET whose file is open, with the way its bytes go still to be chosen. -/
structure Opens (request : StaticRequest) (status start length : Nat) : Prop where
  current : request.notModified = false
  get : request.isHead = false
  extent : env.extent request = some (status, start, length)
  bulk : bulkResponseThreshold ≤ length → env.bulk = none
  opened : env.opened = none

structure Sends (request : StaticRequest) (status start length : Nat) (path : BodyPath codec env.size) : Prop extends
    env.Opens request status start length where
  chosen : env.choosePath request status length = .ok path
  sendHead : env.sendHead = none

/-- A response that is ended short: the file, or its sidecar, is copied as it is, its reader ends short, and `SendEnd`
goes out. -/
def CutShort (request : StaticRequest) : Prop :=
  ∃ status start length path, env.Sends request status start length path ∧ env.PathShort start length path ∧
    (env.direct = true → env.registered = true) ∧ env.sendEnd = none

/-- A request that waits for the compression of another one, which is canceled before it has begun: it is handed that
request's `context.Canceled` and gets no answer at all. -/
def Deserted (request : StaticRequest) : Prop :=
  ∃ start length, env.Opens request 200 start length ∧ request.takesGzip = true ∧ minWireGzipBytes ≤ length ∧
    length ≤ maxWireGzipCacheSourceBytes ∧ env.sidecar = none ∧ env.cache = some .leaderCanceled ∧ env.reported = true

theorem static_of_sends {path : BodyPath codec env.size} (h : env.Sends request status start length path) :
    env.static request =
      match env.streamPath start length path with
      | (bodies, .done) => env.ending (.head status (some length) path.wireGzip :: bodies.map .body)
      | (bodies, result) => (.head status (some length) path.wireGzip :: bodies.map .body, result) := by
  have hbulk : (if bulkResponseThreshold ≤ length then env.bulk else none) = none := by
    split
    · next hle => exact h.bulk hle
    · rfl
  simp only [static, h.current, h.get, h.extent, hbulk, h.opened, h.chosen, h.sendHead, Bool.false_eq_true, if_false]
  grind

theorem headOnly_announces {frame : StaticFrame} (h : frame ∈ (env.headOnly status none).1) :
    ∀ s length wireGzip, frame ≠ .head s (some length) wireGzip := by grind [headOnly, ending]

/-- **The ways `static` goes**: a head alone, an error before the file is open, none of the ways to send it, or one of them. -/
theorem static_cases (request : StaticRequest) :
    (∃ status length, env.static request = env.headOnly status length ∧ (request.isHead = false → length = none)) ∨
    (∃ e, env.static request = ([], .failed e)) ∨
    ∃ status start length, env.Opens request status start length ∧
      ((∃ result, env.choosePath request status length = .error result ∧ env.static request = ([], result)) ∨
        ∃ path, env.Sends request status start length path) := by
  cases hcurrent : request.notModified with
  | true => exact .inl ⟨304, none, by simp only [static, hcurrent, if_true], fun _ => rfl⟩
  | false =>
    rcases hextent : env.extent request with - | ⟨status, start, length⟩
    · exact .inl ⟨416, none, by simp only [static, hcurrent, hextent, Bool.false_eq_true, if_false], fun _ => rfl⟩
    cases hget : request.isHead with
    | true =>
      refine .inl ⟨status, some length, ?_, fun hc => (by cases hc)⟩
      simp only [static, hcurrent, hextent, hget, Bool.false_eq_true, if_false, if_true]
    | false =>
      simp only [static, hcurrent, hextent, hget, Bool.false_eq_true, if_false]
      rcases hbulk : (if bulkResponseThreshold ≤ length then env.bulk else none) with - | e
      · rcases hopened : env.opened with - | e
        · have hopens : env.Opens request status start length :=
            ⟨hcurrent, hget, hextent, fun hle => by rwa [if_pos hle] at hbulk, hopened⟩
          rcases hpath : env.choosePath request status length with result | path
          · exact .inr (.inr ⟨status, start, length, hopens, .inl ⟨result, hpath, rfl⟩⟩)
          rcases hhead : env.sendHead with - | e
          · exact .inr (.inr ⟨status, start, length, hopens, .inr ⟨path, hopens, hpath, hhead⟩⟩)
          · exact .inr (.inl ⟨e, rfl⟩)
        · exact .inr (.inl ⟨e, rfl⟩)
      · exact .inr (.inl ⟨e, rfl⟩)

theorem sends_or_silent (hget : request.isHead = false) :
    (∃ status start length path, env.Sends request status start length path) ∨
      ∀ frame ∈ (env.static request).1, ∀ s length wireGzip, frame ≠ .head s (some length) wireGzip := by
  rcases env.static_cases request with ⟨status, length, hstatic, hnone⟩ | ⟨e, hstatic⟩ |
    ⟨status, start, length, -, ⟨result, -, hstatic⟩ | ⟨path, hsends⟩⟩
  · rw [hstatic, hnone hget]
    exact .inr fun frame hframe => env.headOnly_announces hframe
  · simp [hstatic]
  · simp [hstatic]
  · exact .inl ⟨status, start, length, path, hsends⟩

theorem mem_static_of_mem_serve {frame : StaticFrame} (h : frame ∈ env.serve request)
    (hframe : frame ≠ .resErr) : frame ∈ (env.static request).1 := by grind [serve]

section

variable {path : BodyPath codec env.size} (h : env.Sends request status start length path)
include path h

theorem ended_of_sends (hend : .resEnd ∈ env.serve request) :
    ∃ bodies, env.streamPath start length path = (bodies, .done) ∧ env.sendEnd = none := by
  have hstatic := env.mem_static_of_mem_serve hend (by simp)
  rw [env.static_of_sends h] at hstatic
  grind [ending]

section

variable (hdone : env.streamPath start length path = (bodies, .done)) (hsend : env.sendEnd = none)
include hdone hsend

theorem serve_of_done :
    env.serve request = (.head status (some length) path.wireGzip :: bodies.map .body) ++ [.resEnd] := by
  have hstatic := env.static_of_sends h
  rw [hdone] at hstatic
  simp [serve, hstatic, ending, hsend]

theorem payload_serve_of_done :
    payload (env.serve request) = bodies.flatten := by
  rw [env.serve_of_done h hdone hsend, payload_append, payload_bodies]
  exact List.append_nil _

end

end

theorem ending_done {frames : List StaticFrame} (h : (env.ending frames).2 = .done) :
    .resEnd ∈ (env.ending frames).1 := by grind [ending]

theorem headOnly_done {length : Option Nat} (h : (env.headOnly status length).2 = .done) :
    .resEnd ∈ (env.headOnly status length).1 := by
  unfold headOnly at h ⊢
  split
  · next e he => simp [he] at h
  rename_i he
  simp only [he] at h
  exact env.ending_done h

theorem choosePath_error {result : StreamResult}
    (h : env.choosePath request status length = .error result) : result ≠ .done := by
  rintro rfl
  unfold choosePath at h
  repeat' split at h
  all_goals cases h

theorem resEnd_of_done (request : StaticRequest) (h : (env.static request).2 = .done) :
    .resEnd ∈ (env.static request).1 := by
  rcases env.static_cases request with ⟨status, length, hstatic, -⟩ | ⟨e, hstatic⟩ |
    ⟨status, start, length, -, ⟨result, herror, hstatic⟩ | ⟨path, hsends⟩⟩
  · rw [hstatic] at h ⊢
    exact env.headOnly_done h
  · rw [hstatic] at h
    cases h
  · rw [hstatic] at h
    exact absurd h (env.choosePath_error herror)
  · rw [env.static_of_sends hsends] at h ⊢
    split at h
    · exact env.ending_done h
    · grind

/-! ### Another request's cancellation -/

theorem streamLoop_own (contextFirst : Bool) (turns : List Turn) (offset : Nat) (remaining : Option Nat) :
    (streamLoop contextFirst turns offset remaining).2 ≠ .leaderCanceled := by
  induction turns generalizing offset remaining with
  | nil => grind [streamLoop]
  | cons turn rest ih => grind [streamLoop]

theorem streamEncodedBytes_own (fuel : Nat) (sent : List Bytes) (data : Bytes) :
    (streamEncodedBytes carrier fuel sent data).2 ≠ .leaderCanceled := by
  induction fuel generalizing sent data with
  | zero => exact StreamResult.noConfusion
  | succ fuel ih => grind [streamEncodedBytes]

theorem streamPath_own (start length : Nat) (path : BodyPath codec env.size) : (env.streamPath start length path).2 ≠ .leaderCanceled := by
  have hfile : ∀ turns offset limit, (env.streamFile turns offset limit).2 ≠ .leaderCanceled := by
    grind [streamFile, streamBody, streamN, streamLoop_own]
  cases path with
  | precompressed sidecar => exact hfile _ _ _
  | encoded data => exact streamEncodedBytes_own _ _ _
  | gzip => grind [streamPath, streamWireGzip]
  | identity => exact hfile _ _ _

theorem choosePath_leaderCanceled : env.choosePath request status length = .error .leaderCanceled ↔
    status = 200 ∧ request.takesGzip = true ∧ minWireGzipBytes ≤ length ∧ length ≤ maxWireGzipCacheSourceBytes ∧
      env.sidecar = none ∧ env.cache = some .leaderCanceled := by
  unfold choosePath
  constructor
  · intro h
    split at h
    · next hgzip =>
      split at h
      · cases h
      next hsidecar =>
      split at h
      · cases h
      next loaded hcache =>
      split at h
      · cases h
      next hmax =>
      cases loaded with
      | refused e => cases h
      | leaderCanceled => exact ⟨hgzip.1, hgzip.2.1, hgzip.2.2, not_lt.1 hmax, hsidecar, hcache⟩
      | built turns =>
        simp only at h
        repeat' split at h
        all_goals cases h
    · cases h
  · rintro ⟨rfl, hgzip, hmin, hmax, hsidecar, hcache⟩
    simp [hgzip, hmin, hsidecar, hcache, not_lt.2 hmax]

theorem static_leaderCanceled (h : (env.static request).2 = .leaderCanceled) : ∃ status start length,
    env.Opens request status start length ∧ env.choosePath request status length = .error .leaderCanceled ∧
      env.static request = ([], .leaderCanceled) := by
  rcases env.static_cases request with ⟨status, length, hstatic, -⟩ | ⟨e, hstatic⟩ |
    ⟨status, start, length, hopens, ⟨result, herror, hstatic⟩ | ⟨path, hsends⟩⟩
  · grind [headOnly, ending]
  · rw [hstatic] at h
    cases h
  · rw [hstatic] at h
    cases h
    exact ⟨status, start, length, hopens, herror, hstatic⟩
  · rw [env.static_of_sends hsends] at h
    have hown := env.streamPath_own start length path
    grind [ending]

theorem deserted_iff (request : StaticRequest) :
    env.Deserted request ↔ (env.static request).2 = .leaderCanceled ∧ env.reported = true := by
  constructor
  · rintro ⟨start, length, hopens, hgzip, hmin, hmax, hsidecar, hcache, hreported⟩
    have hpath := env.choosePath_leaderCanceled.2 ⟨rfl, hgzip, hmin, hmax, hsidecar, hcache⟩
    have hbulk : (if bulkResponseThreshold ≤ length then env.bulk else none) = none := by grind [hopens.bulk]
    refine ⟨?_, hreported⟩
    simp only [static, hopens.current, hopens.get, hopens.extent, hbulk, hopens.opened, hpath, Bool.false_eq_true, if_false]
  · rintro ⟨h, hreported⟩
    obtain ⟨status, start, length, hopens, herror, -⟩ := env.static_leaderCanceled h
    obtain ⟨rfl, hgzip, hmin, hmax, hsidecar, hcache⟩ := env.choosePath_leaderCanceled.1 herror
    exact ⟨start, length, hopens, hgzip, hmin, hmax, hsidecar, hcache, hreported⟩

/-- **Every static response that is ended is complete, and every other one that fails is reported, exactly where the reader
of a file that is copied as it is does not end short and no other request's cancellation takes this one along.**  A request
that is still at work, was itself canceled, or is no longer there to be told gets no terminal frame. -/
theorem ended_complete_iff (codec : GzipCodec) (env : StaticEnv codec) (request : StaticRequest) :
    ((.resEnd ∈ env.serve request → env.Complete request (env.serve request)) ∧
      (.resEnd ∉ env.serve request → (env.static request).2 = .waiting ∨ (env.static request).2 = .failed .canceled ∨
        env.reported = false ∨ .resErr ∈ env.serve request)) ↔ ¬ env.CutShort request ∧ ¬ env.Deserted request := by
  rw [env.deserted_iff]
  constructor
  · rintro ⟨hcomplete, hreports⟩
    refine ⟨?_, ?_⟩
    case refine_2 =>
      rintro ⟨hleader, hreported⟩
      obtain ⟨-, -, -, -, -, hstatic⟩ := env.static_leaderCanceled hleader
      have hserve : env.serve request = [] := by simp [serve, hstatic]
      simp [hleader, hreported, hserve] at hreports
    rintro ⟨status, start, length, path, hsends, hshort, hregistered, hsend⟩
    have hdone : (env.streamPath start length path).2 = .done := by
      cases path with
      | identity => exact env.streamFile_of_endsShort hregistered hshort
      | precompressed sidecar => exact env.streamFile_of_endsShort hregistered (by rwa [Nat.zero_add])
      | encoded data => exact hshort.elim
      | gzip => exact hshort.elim
    have hstream : env.streamPath start length path = ((env.streamPath start length path).1, .done) := Prod.ext rfl hdone
    have hserve := env.serve_of_done hsends hstream hsend
    have hbytes := hcomplete (by simp [hserve]) status start length path.wireGzip hsends.get hsends.extent (by simp [hserve])
    rw [env.payload_serve_of_done hsends hstream hsend] at hbytes
    exact (env.streamPath_delivers_iff hsends.extent (env.choosePath_chosen hsends.chosen) hstream).1 hbytes hshort
  · rintro ⟨hlong, hkept⟩
    constructor
    · intro hend status start length wireGzip hget hextent hhead
      obtain ⟨status', start', length', path, hsends⟩ | hsilent := env.sends_or_silent hget
      · obtain ⟨bodies, hstream, hsend⟩ := env.ended_of_sends hsends hend
        cases hextent.symm.trans hsends.extent
        have hgzip : wireGzip = path.wireGzip := by
          rw [env.serve_of_done hsends hstream hsend] at hhead
          simpa using hhead
        rw [env.payload_serve_of_done hsends hstream hsend, hgzip]
        refine (env.streamPath_delivers_iff hsends.extent (env.choosePath_chosen hsends.chosen) hstream).2 fun hshort => ?_
        refine hlong ⟨status, start, length, path, hsends, hshort, fun hdirect => ?_, hsend⟩
        -- a request that is no longer registered does not come to the end of its body
        by_contra hgone
        cases path with
        | identity => simp [streamPath, streamFile, streamBody, hdirect, hgone] at hstream
        | precompressed sidecar => simp [streamPath, streamFile, streamBody, hdirect, hgone] at hstream
        | encoded data => exact hshort
        | gzip => exact hshort
      · exact absurd rfl (hsilent _ (env.mem_static_of_mem_serve hhead (by simp)) status length wireGzip)
    · intro hnot
      have hended := env.resEnd_of_done request
      rcases hstatic : env.static request with ⟨frames, result⟩
      rw [hstatic] at hended
      cases result with
      | waiting => exact .inl rfl
      | leaderCanceled =>
        rw [hstatic] at hkept
        exact .inr (.inr (.inl (Bool.eq_false_of_not_eq_true fun hreported => hkept ⟨rfl, hreported⟩)))
      | done =>
        refine absurd (hended rfl) ?_
        simpa [serve, hstatic] using hnot
      | failed e =>
        cases e with
        | canceled => exact .inr (.inl rfl)
        | failed =>
          cases hreported : env.reported with
          | false => exact .inr (.inr (.inl rfl))
          | true => exact .inr (.inr (.inr (by simp [serve, hstatic, hreported])))

end StaticEnv

theorem encodeChunks_stored (chunks : List Bytes) :
    encodeChunks (fun (_ : Unit) data => ((), [data])) () chunks = ((), chunks) := by
  induction chunks with
  | nil => rfl
  | cons chunk rest ih => simp [encodeChunks, ih]

def storedCodec : GzipCodec where
  State := Unit
  start := ()
  write := fun _ data => ((), [data])
  close := fun _ => []
  gunzip := some
  lossless := fun chunks => by rw [encodeChunks_stored, List.append_nil]

/-- A file of two bytes at `Stat` that has lost its second one by the first read; every send succeeds. -/
def shrunkFile : StaticEnv storedCodec where
  size := 2
  bulk := none
  opened := none
  reseek := none
  turns := [⟨none, [7], 2, none, none⟩, ⟨none, [7], 2, some .eof, none⟩]
  sidecar := none
  cache := none
  direct := true
  registered := true
  carrier := ⟨fun _ => none, fun _ => none⟩
  sendHead := none
  sendEnd := none
  reported := true

def plainGet : StaticRequest := ⟨false, [], false, false⟩

/-- The shrunk file is announced with two bytes, sent with one, and ended. -/
theorem shrunkFile_ended_short :
    shrunkFile.serve plainGet = [.head 200 (some 2) false, .body [7], .resEnd] ∧
      ¬ shrunkFile.Complete plainGet (shrunkFile.serve plainGet) := by
  have hserve : shrunkFile.serve plainGet = [.head 200 (some 2) false, .body [7], .resEnd] := by decide +kernel
  refine ⟨hserve, fun hcomplete => ?_⟩
  obtain ⟨bytes, hbytes, hfile⟩ := hcomplete 200 0 2 false rfl rfl (by simp [hserve])
  rw [hserve] at hbytes
  cases hbytes
  exact absurd hfile.length_eq (by decide)

end YuriRtc
