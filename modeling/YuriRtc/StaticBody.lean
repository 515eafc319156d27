import YuriRtc.Protocol
import YuriRtc.StaticFile
/-!
# StaticBody — the body of a static response

`content-node/handler.go` and `content-node/static_wire.go`, from the size `Stat` reported to the frames of the response.
Each read finds the file with contents of its own, so a file may shrink, grow or be rewritten between two reads; a read
gives as many bytes as it likes of what is asked, and may report the end of the file or an error.  A read and the send
after it are one turn of the copying loops.  Compression is a codec that is known only to be undone by the loader's decoder.
-/
namespace YuriRtc

def minWireGzipBytes : Nat := 1024
def maxWireGzipCacheSourceBytes : Nat := 32 * 1024 * 1024

/-! ### Reading and sending -/

/-- `canceled` is `context.Canceled` of the request's own context, which `serveRequest` does not report. -/
inductive ServeError where
  | canceled
  | failed
deriving DecidableEq, Repr

inductive ReadEnd where
  | eof
  | error
deriving DecidableEq, Repr

/-- One turn of a copying loop: the context, the credit and the buffer before the read, the contents the read finds, how
many bytes it gives at most, and the send of what was read. -/
structure Turn where
  before : Option ServeError
  content : Bytes
  count : Nat
  readEnd : Option ReadEnd
  send : Option ServeError
deriving DecidableEq, Repr

/-- `waiting`: the loop is still in one of its turns.  `leaderCanceled` is `context.Canceled` as well, but of another request's
context: the one that was to compress the file for both. -/
inductive StreamResult where
  | done
  | failed (error : ServeError)
  | leaderCanceled
  | waiting
deriving DecidableEq, Repr

/-- `Read` into a buffer of `size` bytes, at an offset. -/
def Turn.read (turn : Turn) (offset size : Nat) : Bytes := (turn.content.drop offset).take (min turn.count size)

def readSize : Option Nat → Nat
  | none => maxPayloadBytes
  | some remaining => min maxPayloadBytes remaining

/-- The loop of `StreamBody` and of `streamBuffered`.  The second one looks at the context before it looks at what
remains. -/
def streamLoop (contextFirst : Bool) : List Turn → Nat → Option Nat → List Bytes × StreamResult
  | [], _, remaining => ([], if remaining = some 0 then .done else .waiting)
  | turn :: rest, offset, remaining =>
    if remaining = some 0 ∧ (contextFirst = false ∨ turn.before = none) then ([], .done)
    else
      match turn.before with
      | some e => ([], .failed e)
      | none =>
        let data := turn.read offset (readSize remaining)
        if data = [] then
          match turn.readEnd with
          | some .eof => ([], .done)
          | some .error => ([], .failed .failed)
          | none => streamLoop contextFirst rest offset remaining
        else
          match turn.send with
          | some e => ([], .failed e)
          | none =>
            let after :=
              match turn.readEnd with
              | some .eof => ([], StreamResult.done)
              | some .error => ([], .failed .failed)
              | none => streamLoop contextFirst rest (offset + data.length) (remaining.map (· - data.length))
            (data :: after.1, after.2)

/-- `PeerSession.StreamBody`: a request that is no longer registered is canceled, also where nothing is left to send. -/
def streamBody (registered : Bool) (turns : List Turn) (offset limit : Nat) : List Bytes × StreamResult :=
  if registered then streamLoop false turns offset (some limit) else ([], .failed .canceled)

/-- `streamN`, for a sender that has no `StreamBody`. -/
def streamN (turns : List Turn) (offset limit : Nat) : List Bytes × StreamResult :=
  streamLoop true turns offset (some limit)

/-- The buffer `io.Copy` makes for itself; `streamWireGzip` brings one of `maxPayloadBytes`. -/
def copyBufferBytes : Nat := 32 * 1024

/-- How `io.Copy` ended: the source or the limit was exhausted, a read or a write failed, or it is still reading. -/
inductive CopyEnd where
  | ended
  | readFailed
  | writeFailed (error : ServeError)
  | waiting
deriving DecidableEq, Repr

/-- `io.Copy` from an `io.LimitReader`: what the sink holds after it, how many bytes were read, and how it ended. -/
def copyLimited {σ : Type} (buffer : Nat) (write : σ → Bytes → σ × Option ServeError) :
    List Turn → Nat → Nat → σ → Nat → σ × Nat × CopyEnd
  | _, _, 0, sink, written => (sink, written, .ended)
  | [], _, _ + 1, sink, written => (sink, written, .waiting)
  | turn :: rest, offset, left + 1, sink, written =>
    let data := turn.read offset (min buffer (left + 1))
    let (sink', failure) := if data = [] then (sink, none) else write sink data
    match failure with
    | some e => (sink', written, .writeFailed e)
    | none =>
      match turn.readEnd with
      | some .eof => (sink', written + data.length, .ended)
      | some .error => (sink', written + data.length, .readFailed)
      | none =>
        copyLimited buffer write rest (offset + data.length) (left + 1 - data.length) sink' (written + data.length)

/-! ### The gzip codec -/

def encodeChunks {σ : Type} (write : σ → Bytes → σ × List Bytes) : σ → List Bytes → σ × List Bytes
  | state, [] => (state, [])
  | state, chunk :: rest =>
    let (state', out) := write state chunk
    let (last, outs) := encodeChunks write state' rest
    (last, out ++ outs)

/-- `gzip.Writer`, and the decoder that undoes it. -/
structure GzipCodec where
  State : Type
  start : State
  write : State → Bytes → State × List Bytes
  close : State → List Bytes
  gunzip : Bytes → Option Bytes
  lossless : ∀ chunks, gunzip ((encodeChunks write start chunks).2 ++ close (encodeChunks write start chunks).1).flatten =
    some chunks.flatten

/-- The carrier of an encoded body: what the context answers, by the number of bytes taken before, and what `SendBody`
answers, by the number of frames sent before.  Every look at the context is followed by a byte taken or by the end. -/
structure Carrier where
  context : Nat → Option ServeError
  sendBody : Nat → Option ServeError

/-- The context stays alive and every `SendBody` succeeds. -/
def Carrier.Delivers (carrier : Carrier) : Prop := (∀ n, carrier.context n = none) ∧ ∀ n, carrier.sendBody n = none

/-- `wireBodyWriter` with the payloads it has sent. -/
structure WireBodyWriter where
  pending : Bytes
  sent : List Bytes
deriving DecidableEq, Repr

namespace WireBodyWriter

/-- The bytes `Write` has taken. -/
def taken (w : WireBodyWriter) : Nat := w.sent.flatten.length + w.pending.length

def flush (carrier : Carrier) (w : WireBodyWriter) : WireBodyWriter × Option ServeError :=
  if w.pending = [] then (w, none)
  else
    match carrier.sendBody w.sent.length with
    | some e => (w, some e)
    | none => (⟨[], w.sent ++ [w.pending]⟩, none)

/-- The loop of `Write`, with the count it returns.  A turn takes a byte of `data` at least; only a payload that a failed
flush has left full takes a turn of its own. -/
def writeLoop (carrier : Carrier) : Nat → WireBodyWriter → Bytes → Nat → WireBodyWriter × Nat × Option ServeError
  | 0, w, _, written => (w, written, none)
  | fuel + 1, w, data, written =>
    if data = [] then (w, written, none)
    else
      match carrier.context w.taken with
      | some e => (w, written, some e)
      | none =>
        if w.pending = [] ∧ maxPayloadBytes ≤ data.length then
          match carrier.sendBody w.sent.length with
          | some e => (w, written, some e)
          | none =>
            writeLoop carrier fuel ⟨[], w.sent ++ [data.take maxPayloadBytes]⟩ (data.drop maxPayloadBytes)
              (written + maxPayloadBytes)
        else
          let size := min data.length (maxPayloadBytes - w.pending.length)
          let filled : WireBodyWriter := ⟨w.pending ++ data.take size, w.sent⟩
          if filled.pending.length = maxPayloadBytes then
            match filled.flush carrier with
            | (w', some e) => (w', written + size - size, some e)
            | (w', none) => writeLoop carrier fuel w' (data.drop size) (written + size)
          else writeLoop carrier fuel filled (data.drop size) (written + size)

def write (carrier : Carrier) (w : WireBodyWriter) (data : Bytes) : WireBodyWriter × Nat × Option ServeError :=
  writeLoop carrier (data.length + 1) w data 0

def writeAll (carrier : Carrier) : WireBodyWriter → List Bytes → WireBodyWriter × List Nat × Option ServeError
  | w, [] => (w, [], none)
  | w, data :: rest =>
    match w.write carrier data with
    | (w', written, some e) => (w', [written], some e)
    | (w', written, none) =>
      let after := writeAll carrier w' rest
      (after.1, written :: after.2.1, after.2.2)

end WireBodyWriter

def streamEncodedBytes (carrier : Carrier) : Nat → List Bytes → Bytes → List Bytes × StreamResult
  | 0, sent, _ => (sent, .done)
  | fuel + 1, sent, data =>
    if data = [] then (sent, .done)
    else
      match carrier.context sent.flatten.length, carrier.sendBody sent.length with
      | some e, _ => (sent, .failed e)
      | none, some e => (sent, .failed e)
      | none, none =>
        streamEncodedBytes carrier fuel (sent ++ [data.take maxPayloadBytes]) (data.drop maxPayloadBytes)

def gzipWrite (codec : GzipCodec) (carrier : Carrier) (sink : codec.State × WireBodyWriter) (data : Bytes) :
    (codec.State × WireBodyWriter) × Option ServeError :=
  let (state, out) := codec.write sink.1 data
  let (w, _, failure) := sink.2.writeAll carrier out
  ((state, w), failure)

/-- `streamWireGzip`: the encoder is closed in any case, and writes nothing more once a write has failed. -/
def streamWireGzip (codec : GzipCodec) (carrier : Carrier) (turns : List Turn) (offset length : Nat) : List Bytes × StreamResult :=
  let ((state, w), written, copied) :=
    copyLimited maxPayloadBytes (gzipWrite codec carrier) turns offset length (codec.start, ⟨[], []⟩) 0
  match copied with
  | .waiting => (w.sent, .waiting)
  | .writeFailed e => (w.sent, .failed e)
  | .readFailed => ((w.writeAll carrier (codec.close state)).1.sent, .failed .failed)
  | .ended =>
    let (closed, _, failure) := w.writeAll carrier (codec.close state)
    if written ≠ length then (closed.sent, .failed .failed)
    else
      match failure with
      | some e => (closed.sent, .failed e)
      | none =>
        match closed.flush carrier with
        | (flushed, some e) => (flushed.sent, .failed e)
        | (flushed, none) => (flushed.sent, .done)

def bufferWrite (codec : GzipCodec) (sink : codec.State × List Bytes) (data : Bytes) :
    (codec.State × List Bytes) × Option ServeError :=
  let (state, out) := codec.write sink.1 data
  ((state, sink.2 ++ out), none)

/-- What `wireGzipCache.load` hands back: an error, `none` where compression does not pay, or the compressed bytes. -/
inductive Compressed where
  | failed (error : ServeError)
  | unused
  | used (data : Bytes)
  | waiting
deriving DecidableEq, Repr

def compressWireGzip (codec : GzipCodec) (turns : List Turn) (length : Nat) : Compressed :=
  let ((state, out), written, copied) := copyLimited copyBufferBytes (bufferWrite codec) turns 0 length (codec.start, []) 0
  match copied with
  | .waiting => .waiting
  | .writeFailed e => .failed e
  | .readFailed => .failed .failed
  | .ended =>
    let encoded := (out ++ codec.close state).flatten
    if written ≠ length then .failed .failed
    else if length ≤ encoded.length + 64 then .unused
    else .used encoded

/-! ### The static handler -/

/-- What a request head comes to for a file that `Stat` has found: the `Range` value (empty where there is none), whether
the loader takes wire gzip for this file, and whether the loader's copy is current. -/
structure StaticRequest where
  isHead : Bool
  range : List Char
  takesGzip : Bool
  notModified : Bool
deriving DecidableEq, Repr

/-- A sidecar `LoadPrecompressed` has verified against the file.  It may have been cut short since; what is left of it is
the beginning of what was verified, and a gzip stream that was cut short does not decode. -/
structure Sidecar (codec : GzipCodec) (size : Nat) where
  encoded : Bytes
  source : Bytes
  turns : List Turn
  sized : source.length = size
  verified : codec.gunzip encoded = some source
  cut : ∀ part, part <+: encoded → part ≠ encoded → codec.gunzip part = none
  kept : ∀ turn ∈ turns, turn.content <+: encoded

/-- How `wireGzipCache.load` got its answer: it gave up, or the request whose flight this one had joined did so for being
canceled before its build, or this or an earlier request of the same path, size and modification time compressed the file
with these reads. -/
inductive Loaded where
  | refused (error : ServeError)
  | leaderCanceled
  | built (turns : List Turn)
deriving DecidableEq, Repr

/-- Everything around `static` for one request.  `bulk` is the wait for the bulk slots, `opened` the opening and the first
seek, `reseek` the seek back after a compression that did not pay; `cache` is `none` in a handler without one. -/
structure StaticEnv (codec : GzipCodec) where
  size : Nat
  bulk : Option ServeError
  opened : Option ServeError
  reseek : Option ServeError
  turns : List Turn
  sidecar : Option (Sidecar codec size)
  cache : Option Loaded
  direct : Bool
  registered : Bool
  carrier : Carrier
  sendHead : Option ServeError
  sendEnd : Option ServeError
  reported : Bool

def bulkResponseThreshold : Nat := 128 * 1024

inductive StaticFrame where
  | head (status : Nat) (length : Option Nat) (wireGzip : Bool)
  | body (data : Bytes)
  | resEnd
  | resErr
deriving DecidableEq, Repr

inductive BodyPath (codec : GzipCodec) (size : Nat) where
  | precompressed (sidecar : Sidecar codec size)
  | encoded (data : Bytes)
  | gzip
  | identity

namespace StaticEnv

variable {codec : GzipCodec} (env : StaticEnv codec)

/-- Status, first byte and length; `none` is a range that cannot be satisfied. -/
def extent (request : StaticRequest) : Option (Nat × Nat × Nat) :=
  if request.range = [] then some (200, 0, env.size)
  else (parseRange request.range env.size).map fun r => (206, r.1, r.2 - r.1 + 1)

/-- The part of `static` between the opening of the file and the head.  A gzip stream has a header, so compressed bytes
that are used are never empty. -/
def choosePath (request : StaticRequest) (status length : Nat) : Except StreamResult (BodyPath codec env.size) :=
  if status = 200 ∧ request.takesGzip = true ∧ minWireGzipBytes ≤ length then
    match env.sidecar with
    | some sidecar => .ok (.precompressed sidecar)
    | none =>
      match env.cache with
      | none => .ok .gzip
      | some loaded =>
        if maxWireGzipCacheSourceBytes < length then .ok .gzip
        else
          match loaded with
          | .refused e => .error (.failed e)
          | .leaderCanceled => .error .leaderCanceled
          | .built turns =>
            match compressWireGzip codec turns length with
            | .failed e => .error (.failed e)
            | .waiting => .error .waiting
            | .used data => .ok (.encoded data)
            | .unused =>
              match env.reseek with
              | some e => .error (.failed e)
              | none => .ok .identity
  else .ok .identity

/-- The bytes of a file as they are, by the sender's own loop or by `streamN`. -/
def streamFile (turns : List Turn) (offset limit : Nat) : List Bytes × StreamResult :=
  if env.direct then streamBody env.registered turns offset limit else streamN turns offset limit

def streamPath (start length : Nat) : BodyPath codec env.size → List Bytes × StreamResult
  | .precompressed sidecar => env.streamFile sidecar.turns 0 sidecar.encoded.length
  | .encoded data => streamEncodedBytes env.carrier data.length [] data
  | .gzip => streamWireGzip codec env.carrier env.turns start length
  | .identity => env.streamFile env.turns start length

/-- `SendEnd` after what was sent. -/
def ending (frames : List StaticFrame) : List StaticFrame × StreamResult :=
  match env.sendEnd with
  | some e => (frames, .failed e)
  | none => (frames ++ [.resEnd], .done)

def headOnly (status : Nat) (length : Option Nat) : List StaticFrame × StreamResult :=
  match env.sendHead with
  | some e => ([], .failed e)
  | none => env.ending [.head status length false]

end StaticEnv

def BodyPath.wireGzip {codec : GzipCodec} {size : Nat} : BodyPath codec size → Bool
  | .identity => false
  | _ => true

namespace StaticEnv

variable {codec : GzipCodec} (env : StaticEnv codec)

/-- `Handler.static` from the `Stat` on: the frames it sends, and how it returns. -/
def static (request : StaticRequest) : List StaticFrame × StreamResult :=
  if request.notModified then env.headOnly 304 none
  else
    match env.extent request with
    | none => env.headOnly 416 none
    | some (status, start, length) =>
      if request.isHead then env.headOnly status (some length)
      else
        match (if bulkResponseThreshold ≤ length then env.bulk else none), env.opened with
        | some e, _ => ([], .failed e)
        | none, some e => ([], .failed e)
        | none, none =>
          match env.choosePath request status length with
          | .error result => ([], result)
          | .ok path =>
            match env.sendHead with
            | some e => ([], .failed e)
            | none =>
              let (bodies, result) := env.streamPath start length path
              let frames := .head status (some length) path.wireGzip :: bodies.map .body
              match result with
              | .done => env.ending frames
              | _ => (frames, result)

/-- `serveRequest`: any error but `context.Canceled`, whosever it is, is reported where the request is still there to report
it to. -/
def serve (request : StaticRequest) : List StaticFrame :=
  match env.static request with
  | (frames, .failed .failed) => if env.reported then frames ++ [.resErr] else frames
  | (frames, _) => frames

end StaticEnv

end YuriRtc
