import YuriRtc.Codec
/-!
# CodecAgree — the two ends write and read the same frames

A frame's type, id and payload are `Admitted` by both ends under the same condition, and what is written is `wire`; each
encoder writes it (`Node.encodeFrameInto_accepts`, `Loader.encodeFrame_accepts`, `Loader.encodeFrameChunks_accepts`) and each
decoder accepts it and nothing else (`exists_wire`, `Node.decodeFrameView_accepts`, `Loader.decodeFrameView_accepts`).
-/
namespace YuriRtc

open Octets

def Admitted (t : UInt8) (id : UInt32) (size : Nat) : Prop :=
  (1 ≤ t.toNat ∧ t.toNat ≤ 14) ∧ 1 ≤ id.toNat ∧ size ≤ maxPayloadBytes

instance (t : UInt8) (id : UInt32) (size : Nat) : Decidable (Admitted t id size) := inferInstanceAs (Decidable (_ ∧ _))

/-- `[u8 type][u32be requestId][payload]`. -/
def wire (t : UInt8) (id : UInt32) (payload : Bytes) : Bytes := t :: (bigEndian 4 id.toNat ++ payload)

def Accepts {α : Type} (x : Except String α) (p : Prop) (a : α) : Prop :=
  (p → x = .ok a) ∧ (¬ p → ∃ text, x = .error text)

section Accepts
variable {α β : Type} {x y : Except String α} {p q : Prop} {a : α} {b : β}

theorem accepts_ok {a' : α} (h : a' = a) : Accepts (.ok a') True a :=
  ⟨fun _ => congrArg Except.ok h, fun hfalse => absurd trivial hfalse⟩

theorem Accepts.congr (h : Accepts x p a) (hiff : p ↔ q) : Accepts x q a :=
  ⟨fun hq => h.1 (hiff.2 hq), fun hq => h.2 (mt hiff.1 hq)⟩

theorem Accepts.guard {c : Prop} [Decidable c] (text : String) (h : ¬ c → Accepts x q a) :
    Accepts (if c then .error text else x) (¬ c ∧ q) a := by
  by_cases hc : c
  · rw [if_pos hc]
    exact ⟨fun hboth => absurd hc hboth.1, fun _ => ⟨text, rfl⟩⟩
  · simp_all

theorem Accepts.bind {f : α → Except String β} (hx : Accepts x p a) (hf : p → Accepts (f a) q b) :
    Accepts (x >>= f) (p ∧ q) b := by
  by_cases hp : p
  · rw [hx.1 hp]
    exact (hf hp).congr (by simp [hp])
  obtain ⟨text, htext⟩ := hx.2 hp
  rw [htext]
  exact ⟨fun hboth => absurd hboth.1 hp, fun _ => ⟨text, rfl⟩⟩

theorem Accepts.toOption_eq (hx : Accepts x p a) (hy : Accepts y p a) : x.toOption = y.toOption := by
  by_cases hp : p
  · rw [hx.1 hp, hy.1 hp]
  obtain ⟨text, htext⟩ := hx.2 hp
  obtain ⟨other, hother⟩ := hy.2 hp
  rw [htext, hother]
  rfl

theorem Accepts.of_ok (hx : Accepts x p a) {a' : α} (h : x = .ok a') : p ∧ a' = a := by
  by_cases hp : p
  · simp_all [hx.1]
  obtain ⟨text, htext⟩ := hx.2 hp
  rw [htext] at h
  cases h

end Accepts

theorem Loader.isFrameType_iff (n : Nat) : Loader.isFrameType n = true ↔ 1 ≤ n ∧ n ≤ 14 := by
  have hknown : knownTypes = [1, 2, 3, 4, 5, 6, 7, 8, 9, 10, 11, 12, 13, 14] := rfl
  rw [isFrameType, hknown, List.contains_iff_mem]
  simp only [List.mem_cons, List.not_mem_nil, or_false]
  omega

theorem Node.knownType_iff (t : UInt8) : Node.knownType t = true ↔ 1 ≤ t.toNat ∧ t.toNat ≤ 14 := by
  simp only [knownType, Bool.and_eq_true, decide_eq_true_eq, UInt8.le_iff_toNat_le]
  rfl

theorem Loader.isValidRequestId_iff {n : Nat} (h : n < 256 ^ 4) : Loader.isValidRequestId n = true ↔ 1 ≤ n := by
  rw [isValidRequestId, Bool.and_eq_true, decide_eq_true_eq, decide_eq_true_eq]
  have hmax : maxRequestId = 256 ^ 4 - 1 := by decide
  have hmin : minRequestId = 1 := rfl
  omega

theorem Node.lt_minRequestID_iff (id : UInt32) : id < Node.minRequestID ↔ ¬ 1 ≤ id.toNat := by
  rw [UInt32.lt_iff_toNat_lt, not_le]
  rfl

/-! ### Encoding -/

theorem Node.validateFrame_accepts (t : UInt8) (id : UInt32) (size : Nat) :
    Accepts (Node.validateFrame t id size) (Admitted t id size) () := by
  refine (Accepts.guard _ fun _ => .guard _ fun _ => .guard _ fun _ => accepts_ok rfl).congr ?_
  rw [Bool.not_eq_false, Node.knownType_iff, Node.lt_minRequestID_iff, not_not, not_lt, and_true, Admitted]

theorem Loader.validateFrameHeader_accepts (t : UInt8) (id : UInt32) :
    Accepts (Loader.validateFrameHeader t.toNat id.toNat) ((1 ≤ t.toNat ∧ t.toNat ≤ 14) ∧ 1 ≤ id.toNat) () := by
  refine (Accepts.guard _ fun _ => .guard _ fun _ => accepts_ok rfl).congr ?_
  rw [Bool.not_eq_false, Bool.not_eq_false, Loader.isFrameType_iff, Loader.isValidRequestId_iff id.toNat_lt, and_true]

theorem write_header (out : Bytes) (t : UInt8) (id : Nat) (h : headerBytes ≤ out.length) :
    write (write out 0 [t]) 1 (bigEndian 4 id) = (t :: bigEndian 4 id) ++ out.drop headerBytes := by
  have hfirst : write out 0 [t] = [t] ++ out.drop 1 :=
    write_behind [] out [t] (by rw [List.length_singleton]; exact le_trans (by decide) h)
  have hroom : (bigEndian 4 id).length ≤ (out.drop 1).length := by
    have h' : 5 ≤ out.length := h
    rw [length_bigEndian, List.length_drop]
    omega
  have hsecond := write_behind [t] (out.drop 1) (bigEndian 4 id) hroom
  rw [List.length_singleton] at hsecond
  rw [hfirst, hsecond, length_bigEndian, List.drop_drop]
  rfl

theorem length_header (t : UInt8) (id : Nat) : (t :: bigEndian 4 id).length = headerBytes := by
  rw [List.length_cons, length_bigEndian]
  rfl

def Node.Payload.Clear (out : Bytes) : Node.Payload → Prop
  | .separate _ => True
  | .within offset size => headerBytes ≤ offset ∧ offset + size ≤ out.length

theorem Node.Payload.Clear.size_eq {out : Bytes} {payload : Node.Payload} (h : payload.Clear out) :
    payload.size = (payload.read out).length := by
  cases payload with
  | separate bytes => rfl
  | within offset size =>
    obtain ⟨-, hle⟩ := h
    simp only [read, Payload.size, List.length_take, List.length_drop]
    omega

theorem Node.Payload.Clear.read_header {out : Bytes} {payload : Node.Payload} (h : payload.Clear out) (t : UInt8) (id : Nat) :
    payload.read ((t :: bigEndian 4 id) ++ out.drop headerBytes) = payload.read out := by
  cases payload with
  | separate bytes => rfl
  | within offset size =>
    obtain ⟨hle, -⟩ := h
    grind [read, List.drop_append, List.drop_eq_nil_of_le, length_header, List.drop_drop, Nat.add_sub_cancel']

theorem Node.encodeFrameInto_accepts {out : Bytes} (t : UInt8) (id : UInt32) {payload : Node.Payload}
    (hclear : payload.Clear out) (hroom : headerBytes + (payload.read out).length ≤ out.length) :
    Accepts (Node.encodeFrameInto out t id payload) (Admitted t id (payload.read out).length)
      (wire t id (payload.read out)) := by
  have hbody : write ((t :: bigEndian 4 id.toNat) ++ out.drop headerBytes) headerBytes (payload.read out) =
      (t :: bigEndian 4 id.toNat) ++ (payload.read out ++ (out.drop headerBytes).drop (payload.read out).length) := by
    have hfits : (payload.read out).length ≤ (out.drop headerBytes).length := by
      rw [List.length_drop]
      omega
    have := write_behind (t :: bigEndian 4 id.toNat) (out.drop headerBytes) (payload.read out) hfits
    rwa [length_header] at this
  have hframe : (write (write (write out 0 [t]) 1 (bigEndian 4 id.toNat)) headerBytes
      (payload.read (write (write out 0 [t]) 1 (bigEndian 4 id.toNat)))).take (headerBytes + (payload.read out).length) =
      wire t id (payload.read out) := by
    rw [write_header out t id.toNat (by omega), hclear.read_header, hbody, ← List.append_assoc,
      List.take_left' (by rw [List.length_append, length_header])]
    rfl
  rw [encodeFrameInto, hclear.size_eq]
  refine ((validateFrame_accepts t id _).bind fun _ => ?_).congr (iff_of_eq (and_true _))
  simp only [if_neg (not_lt.2 hroom), hframe]
  exact accepts_ok rfl

theorem Node.encodeFrame_accepts (t : UInt8) (id : UInt32) (payload : Bytes) :
    Accepts (Node.encodeFrame t id payload) (Admitted t id payload.length) (wire t id payload) := by
  have hclear : (Payload.separate payload).Clear (List.replicate (headerBytes + payload.length) 0) := trivial
  have hinto := encodeFrameInto_accepts t id hclear (by rw [List.length_replicate]; exact le_rfl)
  exact ((validateFrame_accepts t id _).bind fun _ => hinto).congr (and_self_iff)

theorem Loader.headed_eq (t : UInt8) (id size : Nat) :
    Loader.headed t.toNat id size = (t :: bigEndian 4 id) ++ List.replicate size 0 := by
  rw [headed, UInt8.ofNat_toNat, write_header _ _ _ (by simp), List.drop_replicate, Nat.add_sub_cancel_left]

theorem maxFrameBytes_eq : maxFrameBytes = headerBytes + maxPayloadBytes := rfl

theorem Loader.encodeFrame_accepts (t : UInt8) (id : UInt32) (payload : Bytes) :
    Accepts (Loader.encodeFrame t.toNat id.toNat payload) (Admitted t id payload.length) (wire t id payload) := by
  have hbody := write_behind (t :: bigEndian 4 id.toNat) (List.replicate payload.length 0) payload (by simp)
  rw [length_header, List.drop_replicate, Nat.sub_self, List.replicate_zero, List.append_nil] at hbody
  have hframe : write (Loader.headed t.toNat id.toNat payload.length) headerBytes payload = wire t id payload := by
    rw [Loader.headed_eq, hbody]
    rfl
  refine ((validateFrameHeader_accepts t id).bind fun _ => .guard _ fun _ => accepts_ok hframe).congr ?_
  rw [not_lt, and_true, and_assoc, Admitted]

/-- **The loop that collects the parts** stops where the payload is too long, and keeps the parts that are not empty. -/
theorem Loader.collectParts_accepts (chunks parts : List Bytes) (n : Nat) (hn : n ≤ maxPayloadBytes) :
    Accepts (Loader.collectParts chunks parts n) (n + chunks.flatten.length ≤ maxPayloadBytes)
      (parts ++ chunks.filter (· ≠ []), n + chunks.flatten.length) := by
  induction chunks generalizing parts n with
  | nil =>
    have hparts : parts ++ ([] : List Bytes).filter (· ≠ []) = parts := List.append_nil _
    rw [hparts]
    exact (accepts_ok rfl).congr (by simpa using hn)
  | cons chunk chunks ih =>
    rw [collectParts, List.flatten_cons, List.length_append]
    by_cases hempty : chunk = []
    · simp_all
    have hlength : chunk.length ≠ 0 := by simpa using hempty
    rw [if_neg hlength]
    by_cases hlong : maxPayloadBytes - n < chunk.length
    · rw [if_pos hlong]
      exact ⟨fun hle => absurd hle (by omega), fun _ => ⟨_, rfl⟩⟩
    · grind

theorem Loader.setParts_append (parts : List Bytes) (front rest : Bytes) (h : rest.length = parts.flatten.length) :
    Loader.setParts parts (front ++ rest) front.length = front ++ parts.flatten := by
  induction parts generalizing front rest with
  | nil =>
    have hnil : rest = [] := List.length_eq_zero_iff.1 h
    rw [hnil]
    rfl
  | cons part parts ih => grind [List.flatten_cons, List.length_append, List.length_drop, setParts, write_behind]

theorem Loader.encodeFrameChunks_accepts (t : UInt8) (id : UInt32) (chunks : List Bytes) :
    Accepts (Loader.encodeFrameChunks t.toNat id.toNat chunks) (Admitted t id chunks.flatten.length)
      (wire t id chunks.flatten) := by
  have hflatten : (chunks.filter (· ≠ [])).flatten = chunks.flatten := by
    simpa using List.flatten_filter_ne_nil (L := chunks)
  have hset : Loader.setParts (chunks.filter (· ≠ [])) (Loader.headed t.toNat id.toNat chunks.flatten.length) headerBytes =
      wire t id chunks.flatten := by
    rw [Loader.headed_eq, ← length_header t id.toNat, Loader.setParts_append _ _ _ (by rw [List.length_replicate, hflatten]),
      hflatten]
    rfl
  have hparts := Loader.collectParts_accepts chunks [] 0 (Nat.zero_le _)
  rw [List.nil_append, Nat.zero_add] at hparts
  have hframe : Accepts (Loader.collectParts chunks [] 0 >>= fun found =>
      .ok (Loader.setParts found.1 (Loader.headed t.toNat id.toNat found.2) headerBytes))
      (chunks.flatten.length ≤ maxPayloadBytes ∧ True) (wire t id chunks.flatten) := hparts.bind fun _ => accepts_ok hset
  refine ((validateFrameHeader_accepts t id).bind fun _ => hframe).congr ?_
  rw [and_true, and_assoc, Admitted]

/-! ### Decoding -/

theorem exists_wire {data : Bytes} (h : headerBytes ≤ data.length) : ∃ t id payload, data = wire t id payload := by
  match data, h with
  | t :: rest, h =>
    have hfour : (rest.take 4).length = 4 := by
      have h' : 5 ≤ rest.length + 1 := h
      rw [List.length_take]
      omega
    refine ⟨t, UInt32.ofNat (ofBigEndian (rest.take 4)), rest.drop 4, ?_⟩
    have hid : (UInt32.ofNat (ofBigEndian (rest.take 4))).toNat = ofBigEndian (rest.take 4) := by
      have hlt := ofBigEndian_lt (rest.take 4)
      simp_all
    have hbytes := bigEndian_ofBigEndian (rest.take 4)
    rw [hfour] at hbytes
    rw [wire, hid, hbytes, List.take_append_drop]

section

variable (t : UInt8) (id : UInt32) (payload : Bytes)
include t id payload

theorem length_wire :
    (wire t id payload).length = headerBytes + payload.length := by
  rw [← length_header t id.toNat, ← List.length_append]
  rfl

theorem wire_id :
    ofBigEndian (((wire t id payload).drop 1).take 4) = id.toNat := by
  have htake : ((wire t id payload).drop 1).take 4 = bigEndian 4 id.toNat := List.take_left' (length_bigEndian _ _)
  rw [htake, ofBigEndian_bigEndian id.toNat_lt]

theorem wire_payload : (wire t id payload).drop headerBytes = payload := by
  have hparts : wire t id payload = (t :: bigEndian 4 id.toNat) ++ payload := rfl
  rw [hparts, List.drop_left' (length_header t id.toNat)]

theorem Node.decodeFrameView_accepts :
    Accepts (Node.decodeFrameView (wire t id payload)) (Admitted t id payload.length) ⟨t, id, payload⟩ := by
  simp only [decodeFrameView, wire_id, wire_payload, UInt32.ofNat_toNat, length_wire]
  refine (Accepts.guard _ fun _ => .guard _ fun _ => .guard _ fun _ => .guard _ fun _ => accepts_ok rfl).congr ?_
  have hlong : ¬ maxFrameBytes < headerBytes + payload.length ↔ payload.length ≤ maxPayloadBytes := by
    rw [maxFrameBytes_eq]
    omega
  have hshort : ¬ headerBytes + payload.length < headerBytes := by omega
  have htype : (wire t id payload).headD 0 = t := rfl
  rw [hlong, htype, Bool.not_eq_false, Node.knownType_iff, Node.lt_minRequestID_iff, not_not, Admitted]
  tauto

theorem Loader.decodeFrameView_accepts :
    Accepts (Loader.decodeFrameView (wire t id payload)) (Admitted t id payload.length) ⟨t.toNat, id.toNat, payload⟩ := by
  simp only [decodeFrameView, wire_id, wire_payload, length_wire]
  refine (Accepts.guard _ fun _ => .guard _ fun _ => .guard _ fun _ => .guard _ fun _ => accepts_ok rfl).congr ?_
  have hlong : ¬ maxFrameBytes < headerBytes + payload.length ↔ payload.length ≤ maxPayloadBytes := by
    rw [maxFrameBytes_eq]
    omega
  have hshort : ¬ headerBytes + payload.length < headerBytes := by omega
  have htype : (wire t id payload).headD 0 = t := rfl
  rw [hlong, htype, Bool.not_eq_false, Bool.not_eq_false, Loader.isFrameType_iff, Loader.isValidRequestId_iff id.toNat_lt,
    Admitted]
  tauto

end

theorem decode_short {data : Bytes} (h : data.length < headerBytes) :
    (∃ text, Node.decodeFrameView data = .error text) ∧ ∃ text, Loader.decodeFrameView data = .error text := by
  have hlong : ¬ maxFrameBytes < data.length := by
    rw [maxFrameBytes_eq]
    omega
  simp [Node.decodeFrameView, hlong, h, Loader.decodeFrameView]

def Node.Frame.view (frame : Node.Frame) : Loader.Frame := ⟨frame.type.toNat, frame.requestID.toNat, frame.payload⟩

theorem decodeFrameView_agree (data : Bytes) :
    (Loader.decodeFrameView data).toOption = (Node.decodeFrameView data).toOption.map Node.Frame.view := by
  by_cases hshort : data.length < headerBytes
  · obtain ⟨⟨text, hnode⟩, other, hloader⟩ := decode_short hshort
    rw [hnode, hloader]
    rfl
  obtain ⟨t, id, payload, rfl⟩ := exists_wire (Nat.le_of_not_lt hshort)
  have hnode := Node.decodeFrameView_accepts t id payload
  have hloader := Loader.decodeFrameView_accepts t id payload
  by_cases hadmitted : Admitted t id payload.length
  · rw [hnode.1 hadmitted, hloader.1 hadmitted]
    rfl
  obtain ⟨text, htext⟩ := hnode.2 hadmitted
  obtain ⟨other, hother⟩ := hloader.2 hadmitted
  rw [htext, hother]
  rfl

theorem Node.encode_decodeFrameView {data : Bytes} {frame : Node.Frame} (h : Node.decodeFrameView data = .ok frame) :
    Node.encodeFrame frame.type frame.requestID frame.payload = .ok data := by
  by_cases hshort : data.length < headerBytes
  · obtain ⟨⟨text, hnode⟩, -⟩ := decode_short hshort
    rw [hnode] at h
    cases h
  obtain ⟨t, id, payload, rfl⟩ := exists_wire (Nat.le_of_not_lt hshort)
  obtain ⟨hadmitted, rfl⟩ := (Node.decodeFrameView_accepts t id payload).of_ok h
  exact (Node.encodeFrame_accepts t id payload).1 hadmitted

theorem Node.decode_encodeFrame {t : UInt8} {id : UInt32} {payload frame : Bytes}
    (h : Node.encodeFrame t id payload = .ok frame) : Node.decodeFrameView frame = .ok ⟨t, id, payload⟩ := by
  obtain ⟨hadmitted, rfl⟩ := (Node.encodeFrame_accepts t id payload).of_ok h
  exact (Node.decodeFrameView_accepts t id payload).1 hadmitted

/-! ### Credit and WebSocket payloads -/

theorem write_whole (area bytes : Bytes) (h : area.length = bytes.length) : write area 0 bytes = bytes := by
  have := write_append [] area [] bytes h
  simpa using this

theorem creditBytes (count : Nat) : write (List.replicate 4 0) 0 (bigEndian 4 count) = bigEndian 4 count :=
  write_whole _ _ (by rw [List.length_replicate, length_bigEndian])

theorem Loader.encodeCreditPayload_accepts (count : UInt32) :
    Accepts (Loader.encodeCreditPayload count.toNat) (count ≠ 0) (bigEndian 4 count.toNat) := by
  refine (Accepts.guard _ fun _ => accepts_ok (creditBytes _)).congr ?_
  have hlt := count.toNat_lt
  rw [and_true, ne_eq, ← UInt32.toNat_inj, UInt32.toNat_zero]
  omega

theorem creditFrame_agree (t : UInt8) (id count : UInt32) (ht : t = Node.frameCredit ∨ t = Node.frameReqCredit) :
    (Loader.encodeCreditPayload count.toNat >>= Loader.encodeFrame t.toNat id.toNat).toOption =
      (Node.encodeCreditFrame t id count).toOption := by
  have hloader := (Loader.encodeCreditPayload_accepts count).bind fun _ => Loader.encodeFrame_accepts t id _
  have hnode : Accepts (Node.encodeCreditFrame t id count)
      (¬ (t ≠ Node.frameCredit ∧ t ≠ Node.frameReqCredit) ∧ ¬ count = 0 ∧ Admitted t id (bigEndian 4 count.toNat).length)
      (wire t id (bigEndian 4 count.toNat)) := by
    rw [Node.encodeCreditFrame, creditBytes]
    exact .guard _ fun _ => .guard _ fun _ => Node.encodeFrame_accepts t id _
  refine hloader.toOption_eq (hnode.congr ?_)
  tauto

theorem decodeCredit_agree (payload : Bytes) :
    (Loader.decodeCreditPayload payload).toOption =
      if (Node.decodeCreditPayload payload).2 then some (Node.decodeCreditPayload payload).1.toNat else none := by
  unfold Loader.decodeCreditPayload Node.decodeCreditPayload
  by_cases hsize : payload.length = 4
  · have hlt := ofBigEndian_lt payload
    rw [hsize] at hlt
    have hid : (UInt32.ofNat (ofBigEndian payload)).toNat = ofBigEndian payload := UInt32.toNat_ofNat_of_lt' hlt
    by_cases hzero : ofBigEndian payload = 0
    · simp [hsize, hzero, Except.toOption]
    have hne : UInt32.ofNat (ofBigEndian payload) ≠ 0 := by
      intro heq
      simp_all
    simp only [hsize, ne_eq, not_true, if_false, hzero, hne, not_false_eq_true, decide_true, if_true, hid]
    rfl
  · simp [hsize, Except.toOption]

theorem Loader.decode_encodeCredit (count : UInt32) (h : count ≠ 0) :
    Loader.decodeCreditPayload (bigEndian 4 count.toNat) = .ok count.toNat := by
  have hne : count.toNat ≠ 0 := fun heq => h (UInt32.toNat_inj.1 heq)
  have hlt : count.toNat < 256 ^ 4 := count.toNat_lt
  simp [decodeCreditPayload, ofBigEndian_bigEndian hlt, hne]

theorem Loader.encode_decodeCredit {payload : Bytes} {count : Nat} (h : Loader.decodeCreditPayload payload = .ok count) :
    Loader.encodeCreditPayload count = .ok payload := by
  by_cases hsize : payload.length = 4
  · have hlt := ofBigEndian_lt payload
    have hbytes := bigEndian_ofBigEndian payload
    rw [hsize] at hlt hbytes
    by_cases hzero : ofBigEndian payload = 0
    · simp [decodeCreditPayload, hsize, hzero] at h
    simp only [decodeCreditPayload, hsize, ne_eq, not_true, if_false, hzero] at h
    cases h
    rw [encodeCreditPayload, creditBytes, hbytes, if_neg]
    omega
  · simp [decodeCreditPayload, hsize] at h

section

variable (kind : WebSocketDataKind) (data : Bytes)
include kind data

theorem wsDataBytes :
    write (write (List.replicate (1 + data.length) 0) 0 [kind.value]) 1 data = kind.value :: data := by
  have hfirst : write (List.replicate (1 + data.length) 0) 0 [kind.value] = [kind.value] ++ List.replicate data.length 0 := by
    have := write_behind [] (List.replicate (1 + data.length) 0) [kind.value] (by simp)
    simp_all
  have hsecond := write_behind [kind.value] (List.replicate data.length 0) data (by simp)
  simp_all

theorem Node.encodeWebSocketData_accepts :
    Accepts (Node.encodeWebSocketData kind data) (data.length < maxPayloadBytes) (kind.value :: data) := by
  refine (Accepts.guard _ fun _ => accepts_ok (wsDataBytes kind data)).congr ?_
  rw [and_true, maxWebSocketMessageBytes]
  have : 0 < maxPayloadBytes := by decide
  omega

theorem Loader.encodeWebSocketData_accepts :
    Accepts (Loader.encodeWebSocketData kind data) (data.length < maxPayloadBytes) (kind.value :: data) := by
  refine (Accepts.guard _ fun _ => accepts_ok (wsDataBytes kind data)).congr ?_
  rw [and_true, maxWsMessageBytes]
  have : 0 < maxPayloadBytes := by decide
  omega

theorem Node.decodeWebSocketData_value :
    Node.decodeWebSocketData (kind.value :: data) = .ok (kind, data) := by
  cases kind <;> rfl

end

theorem Node.decodeWebSocketData_eq {payload data : Bytes} {kind : WebSocketDataKind}
    (h : Node.decodeWebSocketData payload = .ok (kind, data)) : payload = kind.value :: data := by
  cases payload with
  | nil => cases h
  | cons first rest => grind [decodeWebSocketData]

theorem decodeWebSocketData_agree (payload : Bytes) :
    Loader.decodeWebSocketData payload = Node.decodeWebSocketData payload := rfl

/-- **The two ends' codecs agree.**  Encoders accept the same frames and write the same bytes, from one payload, from its
pieces, or in place; decoders accept the same byte strings and return the same; decoding and encoding are inverse to each
other; and so for credit payloads, and for WebSocket data payloads that fit a frame. -/
theorem codecs_agree :
    (∀ (t : UInt8) (id : UInt32) (payload : Bytes),
      (Loader.encodeFrame t.toNat id.toNat payload).toOption = (Node.encodeFrame t id payload).toOption ∧
      (∀ chunks : List Bytes, chunks.flatten = payload →
        (Loader.encodeFrameChunks t.toNat id.toNat chunks).toOption = (Node.encodeFrame t id payload).toOption) ∧
      (∀ (out : Bytes) (source : Node.Payload), source.Clear out → source.read out = payload →
        headerBytes + payload.length ≤ out.length →
        (Node.encodeFrameInto out t id source).toOption = (Node.encodeFrame t id payload).toOption) ∧
      (∀ frame, Node.encodeFrame t id payload = .ok frame → Node.decodeFrameView frame = .ok ⟨t, id, payload⟩)) ∧
    (∀ data : Bytes,
      (Loader.decodeFrameView data).toOption = (Node.decodeFrameView data).toOption.map Node.Frame.view ∧
      ∀ frame, Node.decodeFrameView data = .ok frame →
        Node.encodeFrame frame.type frame.requestID frame.payload = .ok data) ∧
    (∀ (t : UInt8) (id count : UInt32),
      (t = Node.frameCredit ∨ t = Node.frameReqCredit →
        (Loader.encodeCreditPayload count.toNat >>= Loader.encodeFrame t.toNat id.toNat).toOption =
          (Node.encodeCreditFrame t id count).toOption) ∧
      (∀ payload, Loader.encodeCreditPayload count.toNat = .ok payload →
        Loader.decodeCreditPayload payload = .ok count.toNat)) ∧
    (∀ payload : Bytes,
      ((Loader.decodeCreditPayload payload).toOption =
        if (Node.decodeCreditPayload payload).2 then some (Node.decodeCreditPayload payload).1.toNat else none) ∧
      ∀ count, Loader.decodeCreditPayload payload = .ok count → Loader.encodeCreditPayload count = .ok payload) ∧
    (∀ (kind : WebSocketDataKind) (data : Bytes),
      (Loader.encodeWebSocketData kind data).toOption = (Node.encodeWebSocketData kind data).toOption ∧
      ∀ payload, Node.encodeWebSocketData kind data = .ok payload → Node.decodeWebSocketData payload = .ok (kind, data)) ∧
    (∀ payload : Bytes,
      Loader.decodeWebSocketData payload = Node.decodeWebSocketData payload ∧
      ∀ kind data, payload.length ≤ maxPayloadBytes → Node.decodeWebSocketData payload = .ok (kind, data) →
        Node.encodeWebSocketData kind data = .ok payload) := by
  refine ⟨fun t id payload => ⟨?_, ?_, ?_, ?_⟩, fun data => ⟨decodeFrameView_agree data, ?_⟩, fun t id count => ⟨?_, ?_⟩,
    fun payload => ⟨decodeCredit_agree payload, ?_⟩, fun kind data => ⟨?_, ?_⟩,
    fun payload => ⟨decodeWebSocketData_agree payload, ?_⟩⟩
  · exact (Loader.encodeFrame_accepts t id payload).toOption_eq (Node.encodeFrame_accepts t id payload)
  · rintro chunks rfl
    exact (Loader.encodeFrameChunks_accepts t id chunks).toOption_eq (Node.encodeFrame_accepts t id _)
  · rintro out source hclear rfl hroom
    exact (Node.encodeFrameInto_accepts t id hclear hroom).toOption_eq (Node.encodeFrame_accepts t id _)
  · intro frame h
    exact Node.decode_encodeFrame h
  · intro frame h
    exact Node.encode_decodeFrameView h
  · intro ht
    exact creditFrame_agree t id count ht
  · intro payload h
    obtain ⟨hne, rfl⟩ := (Loader.encodeCreditPayload_accepts count).of_ok h
    exact Loader.decode_encodeCredit count hne
  · intro count h
    exact Loader.encode_decodeCredit h
  · exact (Loader.encodeWebSocketData_accepts kind data).toOption_eq (Node.encodeWebSocketData_accepts kind data)
  · intro payload h
    obtain ⟨-, rfl⟩ := (Node.encodeWebSocketData_accepts kind data).of_ok h
    exact Node.decodeWebSocketData_value kind data
  intro kind data hlength h
  obtain rfl := Node.decodeWebSocketData_eq h
  rw [List.length_cons] at hlength
  exact (Node.encodeWebSocketData_accepts kind data).1 hlength

/-- **A WebSocket data payload longer than a frame's** is decoded by both ends, and encoded again by neither. -/
theorem longPayload_not_reencoded :
    Node.decodeWebSocketData (0 :: List.replicate maxPayloadBytes 0) = .ok (.text, List.replicate maxPayloadBytes 0) ∧
      Loader.decodeWebSocketData (0 :: List.replicate maxPayloadBytes 0) = .ok (.text, List.replicate maxPayloadBytes 0) ∧
      (Node.encodeWebSocketData .text (List.replicate maxPayloadBytes 0)).toOption = none ∧
      (Loader.encodeWebSocketData .text (List.replicate maxPayloadBytes 0)).toOption = none := by
  have hlength : ¬ (List.replicate maxPayloadBytes (0 : UInt8)).length < maxPayloadBytes := by
    rw [List.length_replicate]
    exact lt_irrefl _
  refine ⟨rfl, rfl, ?_, ?_⟩
  · obtain ⟨text, htext⟩ := (Node.encodeWebSocketData_accepts .text _).2 hlength
    rw [htext]
    rfl
  obtain ⟨text, htext⟩ := (Loader.encodeWebSocketData_accepts .text _).2 hlength
  rw [htext]
  rfl

/-- A frame written in place, around a payload that is in the buffer already. -/
theorem codecs_agree_inPlace :
    (Node.encodeFrameInto [9, 9, 9, 9, 9, 7, 8, 6] 5 258 (.within 5 2)).toOption = some [5, 0, 0, 1, 2, 7, 8] :=
  (((codecs_agree.1 5 258 [7, 8]).2.2.1 [9, 9, 9, 9, 9, 7, 8, 6] (.within 5 2) ⟨by decide, by decide⟩ (by decide) (by decide))).trans
    (by decide)

end YuriRtc
