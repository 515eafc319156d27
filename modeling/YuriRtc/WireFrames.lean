import YuriRtc.StaticComplete
/-!
# WireFrames — the frames of an encoded body

`content-node/static_wire.go`: what `wireBodyWriter` and `streamEncodedBytes` hand to `SendBody`, for every split of the
bytes.  `SendBody` copies the payload into a frame before it returns, so that the writer may use its buffer again; a payload
is the bytes it holds when it is sent.
-/
namespace YuriRtc

structure Framed (bodies : List Bytes) : Prop where
  bounds : ∀ body ∈ bodies, body ≠ [] ∧ body.length ≤ maxPayloadBytes
  whole : ∀ body ∈ bodies.dropLast, body.length = maxPayloadBytes

def AllWhole (bodies : List Bytes) : Prop := ∀ body ∈ bodies, body.length = maxPayloadBytes

theorem ne_nil_of_whole {body : Bytes} (h : body.length = maxPayloadBytes) : body ≠ [] := by
  rintro rfl
  exact absurd h (by decide)

variable {bodies : List Bytes}

theorem AllWhole.framed (h : AllWhole bodies) : Framed bodies where
  bounds body hbody := ⟨ne_nil_of_whole (h body hbody), (h body hbody).le⟩
  whole body hbody := h body (List.dropLast_subset _ hbody)

theorem AllWhole.snoc {body : Bytes} (h : AllWhole bodies) (hbody : body.length = maxPayloadBytes) :
    AllWhole (bodies ++ [body]) := by
  intro b hb
  rcases List.mem_append.1 hb with hold | hnew
  · exact h b hold
  · rw [List.mem_singleton.1 hnew, hbody]

theorem AllWhole.framed_snoc {last : Bytes} (h : AllWhole bodies) (hne : last ≠ [])
    (hle : last.length ≤ maxPayloadBytes) : Framed (bodies ++ [last]) where
  bounds body hbody := by
    rcases List.mem_append.1 hbody with hold | hnew
    · exact h.framed.bounds body hold
    · rw [List.mem_singleton.1 hnew]
      exact ⟨hne, hle⟩
  whole body hbody := by
    rw [List.dropLast_concat] at hbody
    exact h body hbody

/-! ### The coalescing writer -/

namespace WireBodyWriter

/-- `make([]byte, 0, maxPayloadBytes)`: nothing pending, nothing sent. -/
def new : WireBodyWriter := ⟨[], []⟩

variable {carrier : Carrier}

theorem flush_framed {w : WireBodyWriter} (hwhole : AllWhole w.sent)
    (hroom : w.pending.length < maxPayloadBytes) : Framed (w.flush carrier).1.sent := by
  simp only [flush]
  split
  · exact hwhole.framed
  rename_i hne
  split
  · exact hwhole.framed
  · exact hwhole.framed_snoc hne hroom.le

theorem flush_sent_extends (carrier : Carrier) (w : WireBodyWriter) : (w.flush carrier).1.sent.flatten <+: w.bytes := by
  simp only [flush]
  split
  · exact List.prefix_append _ _
  split
  · exact List.prefix_append _ _
  · simp [bytes]

theorem writeAll_new (carrier : Carrier) (writes : List Bytes) :
    Wrote carrier new writes.flatten (new.writeAll carrier writes).1 (new.writeAll carrier writes).2.2 ∧
      ((new.writeAll carrier writes).2.2 = none → (new.writeAll carrier writes).2.1 = writes.map List.length) :=
  writeAll_wrote (show 0 < maxPayloadBytes by decide) rfl

theorem writeAll_flush_framed {writes : List Bytes} {w flushed : WireBodyWriter} {counts : List Nat}
    (hwrite : new.writeAll carrier writes = (w, counts, none)) (hflush : w.flush carrier = (flushed, none)) :
    flushed.sent.flatten = writes.flatten ∧ Framed flushed.sent ∧ counts = writes.map List.length := by
  obtain ⟨hwrote, hcounts⟩ := writeAll_new carrier writes
  rw [hwrite] at hwrote hcounts
  obtain ⟨hbytes, hroom⟩ := hwrote.whole rfl
  obtain ⟨hsame, hnil⟩ := flush_some hflush
  have hwhole : AllWhole w.sent := hwrote.full (fun _ hbody => absurd hbody List.not_mem_nil)
  have hframed : Framed (w.flush carrier).1.sent := flush_framed hwhole hroom
  rw [hflush] at hframed
  refine ⟨?_, hframed, hcounts rfl⟩
  calc flushed.sent.flatten = flushed.bytes := by simp [bytes, hnil]
    _ = w.bytes := hsame
    _ = writes.flatten := hbytes

theorem writeAll_flush_prefix (carrier : Carrier) (writes : List Bytes) :
    (new.writeAll carrier writes).1.sent.flatten <+: writes.flatten ∧
      ((new.writeAll carrier writes).1.flush carrier).1.sent.flatten <+: writes.flatten := by
  have hkept : (new.writeAll carrier writes).1.bytes <+: writes.flatten := (writeAll_new carrier writes).1.kept
  exact ⟨(List.prefix_append _ _).trans hkept, (flush_sent_extends carrier _).trans hkept⟩

theorem flush_delivered (h : carrier.Delivers) (w : WireBodyWriter) : (w.flush carrier).2 = none := by
  simp only [flush, h.2]
  split <;> rfl

end WireBodyWriter

/-! ### Bytes that are in memory -/

theorem streamEncodedBytes_spec (carrier : Carrier) {fuel : Nat} {sent : List Bytes} {data : Bytes}
    (hfuel : data.length ≤ fuel) (hframed : Framed sent) (hwhole : data ≠ [] → AllWhole sent) :
    (streamEncodedBytes carrier fuel sent data).1.flatten <+: sent.flatten ++ data ∧
      Framed (streamEncodedBytes carrier fuel sent data).1 ∧
      (carrier.Delivers → (streamEncodedBytes carrier fuel sent data).2 = .done) := by
  have hmax : 0 < maxPayloadBytes := by decide
  induction fuel generalizing sent data with
  | zero => exact ⟨List.prefix_append _ _, hframed, fun _ => rfl⟩
  | succ fuel ih =>
    simp only [streamEncodedBytes]
    split
    · exact ⟨List.prefix_append _ _, hframed, fun _ => rfl⟩
    next hne =>
    have hpos : 0 < data.length := List.length_pos_iff.2 hne
    split
    · next hcontext =>
      refine ⟨List.prefix_append _ _, hframed, fun h => ?_⟩
      rw [h.1] at hcontext
      cases hcontext
    · next hsend =>
      refine ⟨List.prefix_append _ _, hframed, fun h => ?_⟩
      rw [h.2] at hsend
      cases hsend
    have hdrop : (data.drop maxPayloadBytes).length ≤ fuel := by
      rw [List.length_drop]
      omega
    have htake : data.take maxPayloadBytes ≠ [] := by
      rw [← List.length_pos_iff, List.length_take]
      omega
    have hnext := ih hdrop ((hwhole hne).framed_snoc htake (List.length_take_le _ _)) (fun hmore => by
      have hlong : 0 < (data.drop maxPayloadBytes).length := List.length_pos_iff.2 hmore
      rw [List.length_drop] at hlong
      exact (hwhole hne).snoc (List.length_take_of_le (by omega)))
    simpa using hnext

theorem streamEncodedBytes_new (carrier : Carrier) (data : Bytes) :
    (streamEncodedBytes carrier data.length [] data).1.flatten <+: data ∧
      Framed (streamEncodedBytes carrier data.length [] data).1 ∧
      (carrier.Delivers → (streamEncodedBytes carrier data.length [] data).2 = .done) :=
  have hnone : AllWhole [] := fun _ hbody => absurd hbody List.not_mem_nil
  streamEncodedBytes_spec carrier le_rfl hnone.framed (fun _ => hnone)

/-! ### Both writers -/

/-- **The payloads of an encoded body are the bytes written, in frames that are whole up to the last.**  Where the context
lives and `SendBody` succeeds every write takes all it is given, and where one of them fails the bytes sent are a front part
of those written. -/
theorem wire_bodies_framed (carrier : Carrier) :
    (∀ (writes : List Bytes) (w flushed : WireBodyWriter) (counts : List Nat),
      WireBodyWriter.new.writeAll carrier writes = (w, counts, none) → w.flush carrier = (flushed, none) →
        flushed.sent.flatten = writes.flatten ∧ Framed flushed.sent ∧ counts = writes.map List.length) ∧
    (∀ (data : Bytes) (bodies : List Bytes), streamEncodedBytes carrier data.length [] data = (bodies, .done) →
      bodies.flatten = data ∧ Framed bodies) ∧
    (carrier.Delivers →
      (∀ writes, (WireBodyWriter.new.writeAll carrier writes).2.2 = none ∧
        ((WireBodyWriter.new.writeAll carrier writes).1.flush carrier).2 = none) ∧
      ∀ data : Bytes, (streamEncodedBytes carrier data.length [] data).2 = .done) ∧
    (∀ writes, (WireBodyWriter.new.writeAll carrier writes).1.sent.flatten <+: writes.flatten ∧
      ((WireBodyWriter.new.writeAll carrier writes).1.flush carrier).1.sent.flatten <+: writes.flatten) ∧
    ∀ data : Bytes, (streamEncodedBytes carrier data.length [] data).1.flatten <+: data := by
  refine ⟨fun writes w flushed counts => WireBodyWriter.writeAll_flush_framed, fun data bodies h => ?_, fun h => ⟨?_, ?_⟩,
    WireBodyWriter.writeAll_flush_prefix carrier, fun data => (streamEncodedBytes_new carrier data).1⟩
  · have hframed := (streamEncodedBytes_new carrier data).2.1
    rw [h] at hframed
    exact ⟨streamEncodedBytes_done le_rfl h, hframed⟩
  · intro writes
    exact ⟨(WireBodyWriter.writeAll_new carrier writes).1.delivered h, WireBodyWriter.flush_delivered h _⟩
  · intro data
    exact (streamEncodedBytes_new carrier data).2.2 h

def openCarrier : Carrier := ⟨fun _ => none, fun _ => none⟩

/-- A write that fills a payload and one of a byte go out as more than one frame. -/
theorem wire_bodies_framed_two_writes :
    ∃ sent, ((WireBodyWriter.new.writeAll openCarrier [List.replicate maxPayloadBytes 1, [2]]).1.flush openCarrier).1.sent =
        sent ∧ sent.flatten = List.replicate maxPayloadBytes 1 ++ [2] ∧ Framed sent ∧ 2 ≤ sent.length := by
  have hframed := wire_bodies_framed openCarrier
  have hsends : ∀ writes, ∃ sent, ((WireBodyWriter.new.writeAll openCarrier writes).1.flush openCarrier).1.sent = sent ∧
      sent.flatten = writes.flatten ∧ Framed sent := fun writes => by
    obtain ⟨hwritten, hflushed⟩ := (hframed.2.2.1 ⟨fun _ => rfl, fun _ => rfl⟩).1 writes
    obtain ⟨hbytes, hsent, -⟩ := hframed.1 writes _ _ _ (Prod.ext rfl (Prod.ext rfl hwritten)) (Prod.ext rfl hflushed)
    exact ⟨_, rfl, hbytes, hsent⟩
  obtain ⟨sent, heq, hbytes, hsent⟩ := hsends [List.replicate maxPayloadBytes 1, [2]]
  refine ⟨sent, heq, hbytes.trans (by simp), hsent, ?_⟩
  have hlength := congrArg List.length hbytes
  rw [List.length_flatten] at hlength
  have hle := List.sum_le_card_nsmul (sent.map List.length) maxPayloadBytes (by simpa using fun b hb => (hsent.bounds b hb).2)
  rw [hlength, List.length_map, smul_eq_mul] at hle
  by_contra hshort
  have hone : sent.length * maxPayloadBytes ≤ 1 * maxPayloadBytes := Nat.mul_le_mul_right _ (by omega)
  simp at hle
  omega

/-- A context that is done makes `Write` return early, with `SendBody` willing. -/
theorem write_short_of_done_context :
    WireBodyWriter.new.write ⟨fun _ => some .canceled, fun _ => none⟩ [7] = (WireBodyWriter.new, 0, some .canceled) ∧
      WireBodyWriter.new.flush ⟨fun _ => some .canceled, fun _ => none⟩ = (WireBodyWriter.new, none) := by
  decide +kernel

end YuriRtc
