import YuriRtc.Octets
import YuriRtc.Protocol
/-!
# Codec — the frame codecs of both ends

`packages/protocol/src/codec.ts` (`Loader`) and `content-node/protocol.go` (`Node`): frames, credit payloads and WebSocket
data payloads.  A number of the loader is a natural number; the node's are fixed-width.
-/
namespace YuriRtc

open WebSocketDataKind (binary text)

open Octets

def WebSocketDataKind.value : WebSocketDataKind → UInt8
  | .text => 0
  | .binary => 1

namespace Loader

inductive FrameType where
  | req | reqBody | reqEnd | resHead | resBody | resEnd | resErr | cancel | credit | reqCredit
  | wsOpen | wsOpened | wsData | wsClose
deriving DecidableEq, Repr

def FrameType.value : FrameType → Nat
  | .req => 1
  | .reqBody => 2
  | .reqEnd => 3
  | .resHead => 4
  | .resBody => 5
  | .resEnd => 6
  | .resErr => 7
  | .cancel => 8
  | .credit => 9
  | .reqCredit => 10
  | .wsOpen => 11
  | .wsOpened => 12
  | .wsData => 13
  | .wsClose => 14

def knownTypes : List Nat :=
  [FrameType.req, .reqBody, .reqEnd, .resHead, .resBody, .resEnd, .resErr, .cancel, .credit, .reqCredit, .wsOpen, .wsOpened,
    .wsData, .wsClose].map FrameType.value

def isFrameType (value : Nat) : Bool := knownTypes.contains value

def minRequestId : Nat := 1
def maxRequestId : Nat := 0xffffffff

def isValidRequestId (value : Nat) : Bool := decide (minRequestId ≤ value) && decide (value ≤ maxRequestId)

def maxWsMessageBytes : Nat := maxPayloadBytes - 1

structure Frame where
  type : Nat
  requestId : Nat
  payload : Bytes
deriving DecidableEq, Repr

def validateFrameHeader (type requestId : Nat) : Except String Unit :=
  if isFrameType type = false then .error s!"unknown frame type {type}"
  else if isValidRequestId requestId = false then .error s!"invalid requestId {requestId}"
  else .ok ()

/-- A new frame of `size` payload bytes with its header written. -/
def headed (type requestId size : Nat) : Bytes :=
  write (write (List.replicate (headerBytes + size) 0) 0 [UInt8.ofNat type]) 1 (bigEndian 4 requestId)

def encodeFrame (type requestId : Nat) (payload : Bytes) : Except String Bytes := do
  validateFrameHeader type requestId
  let size := payload.length
  if maxPayloadBytes < size then .error s!"payload of {size} exceeds {maxPayloadBytes}; chunk before encoding"
  else .ok (write (headed type requestId size) headerBytes payload)

def collectParts : List Bytes → List Bytes → Nat → Except String (List Bytes × Nat)
  | [], parts, payloadBytes => .ok (parts, payloadBytes)
  | chunk :: chunks, parts, payloadBytes =>
    if maxPayloadBytes - payloadBytes < chunk.length then .error s!"payload exceeds {maxPayloadBytes}; chunk before encoding"
    else if chunk.length = 0 then collectParts chunks parts payloadBytes
    else collectParts chunks (parts ++ [chunk]) (payloadBytes + chunk.length)

def setParts : List Bytes → Bytes → Nat → Bytes
  | [], frame, _ => frame
  | part :: parts, frame, offset => setParts parts (write frame offset part) (offset + part.length)

def encodeFrameChunks (type requestId : Nat) (chunks : List Bytes) : Except String Bytes := do
  validateFrameHeader type requestId
  let (parts, payloadBytes) ← collectParts chunks [] 0
  return setParts parts (headed type requestId payloadBytes) headerBytes

def decodeFrameView (bytes : Bytes) : Except String Frame :=
  let size := bytes.length
  if maxFrameBytes < size then .error s!"frame of {size} bytes exceeds {maxFrameBytes}"
  else if size < headerBytes then .error s!"frame of {size} bytes is shorter than the header"
  else
    let type := (bytes.headD 0).toNat
    if isFrameType type = false then .error s!"unknown frame type {type}"
    else
      let requestId := ofBigEndian ((bytes.drop 1).take 4)
      if isValidRequestId requestId = false then .error s!"invalid requestId {requestId}"
      else .ok ⟨type, requestId, bytes.drop headerBytes⟩

def encodeCreditPayload (amount : Nat) : Except String Bytes :=
  if amount < 1 ∨ 0xffffffff < amount then .error s!"invalid response credit {amount}"
  else .ok (write (List.replicate 4 0) 0 (bigEndian 4 amount))

def decodeCreditPayload (payload : Bytes) : Except String Nat :=
  let size := payload.length
  if size ≠ 4 then .error s!"credit payload must be 4 bytes, got {size}"
  else
    let amount := ofBigEndian payload
    if amount = 0 then .error "response credit must be positive" else .ok amount

def encodeWebSocketData (kind : WebSocketDataKind) (data : Bytes) : Except String Bytes :=
  let size := data.length
  if maxWsMessageBytes < size then .error s!"websocket message of {size} exceeds {maxWsMessageBytes}"
  else .ok (write (write (List.replicate (1 + size) 0) 0 [kind.value]) 1 data)

def decodeWebSocketData (payload : Bytes) : Except String (WebSocketDataKind × Bytes) :=
  match payload with
  | [] => .error "websocket data payload is empty"
  | kind :: data =>
    if kind = text.value then .ok (.text, data)
    else if kind = binary.value then .ok (.binary, data)
    else .error s!"unknown websocket data kind {kind}"

end Loader

namespace Node

/-- The bounds of `FrameType`, and the two credit types. -/
def frameReq : UInt8 := 1
def frameCredit : UInt8 := 9
def frameReqCredit : UInt8 := 10
def frameWsClose : UInt8 := 14

def minRequestID : UInt32 := 1

def maxWebSocketMessageBytes : Nat := maxPayloadBytes - 1

structure Frame where
  type : UInt8
  requestID : UInt32
  payload : Bytes
deriving DecidableEq, Repr

def knownType (t : UInt8) : Bool := decide (frameReq ≤ t) && decide (t ≤ frameWsClose)

def validateFrame (t : UInt8) (requestID : UInt32) (size : Nat) : Except String Unit :=
  if knownType t = false then .error s!"unknown frame type {t}"
  else if requestID < minRequestID then .error s!"invalid requestId {requestID}"
  else if maxPayloadBytes < size then .error s!"payload of {size} exceeds {maxPayloadBytes}; chunk before encoding"
  else .ok ()

inductive Payload where
  | separate (bytes : Bytes)
  | within (offset size : Nat)
deriving DecidableEq, Repr

def Payload.read (out : Bytes) : Payload → Bytes
  | .separate bytes => bytes
  | .within offset size => (out.drop offset).take size

def Payload.size : Payload → Nat
  | .separate bytes => bytes.length
  | .within _ size => size

/-- `encodeFrameInto`; `out` is the buffer up to its capacity, and the payload is read after the header is written. -/
def encodeFrameInto (out : Bytes) (t : UInt8) (requestID : UInt32) (payload : Payload) : Except String Bytes := do
  validateFrame t requestID payload.size
  let frameSize := headerBytes + payload.size
  let capacity := out.length
  if capacity < frameSize then .error s!"frame buffer capacity {capacity} is below required {frameSize}"
  else
    let out := write (write out 0 [t]) 1 (bigEndian 4 requestID.toNat)
    .ok ((write out headerBytes (payload.read out)).take frameSize)

def encodeFrame (t : UInt8) (requestID : UInt32) (payload : Bytes) : Except String Bytes := do
  validateFrame t requestID payload.length
  encodeFrameInto (List.replicate (headerBytes + payload.length) 0) t requestID (.separate payload)

def errShortFrame : String := "frame shorter than header"

def decodeFrameView (data : Bytes) : Except String Frame :=
  let size := data.length
  if maxFrameBytes < size then .error s!"frame of {size} exceeds maximum {maxFrameBytes}"
  else if size < headerBytes then .error errShortFrame
  else
    let t := data.headD 0
    if knownType t = false then .error s!"unknown frame type {t}"
    else
      let requestID := UInt32.ofNat (ofBigEndian ((data.drop 1).take 4))
      if requestID < minRequestID then .error s!"invalid requestId {requestID}"
      else .ok ⟨t, requestID, data.drop headerBytes⟩

def decodeCreditPayload (payload : Bytes) : UInt32 × Bool :=
  if payload.length ≠ 4 then (0, false)
  else
    let count := UInt32.ofNat (ofBigEndian payload)
    (count, decide (count ≠ 0))

def encodeCreditFrame (t : UInt8) (requestID count : UInt32) : Except String Bytes :=
  if t ≠ frameCredit ∧ t ≠ frameReqCredit then .error s!"frame type {t} is not a credit frame"
  else if count = 0 then .error "credit count must be positive"
  else encodeFrame t requestID (write (List.replicate 4 0) 0 (bigEndian 4 count.toNat))

def encodeWebSocketData (kind : WebSocketDataKind) (data : Bytes) : Except String Bytes :=
  let size := data.length
  if maxWebSocketMessageBytes < size then .error s!"websocket message of {size} exceeds {maxWebSocketMessageBytes}"
  else .ok (write (write (List.replicate (1 + size) 0) 0 [kind.value]) 1 data)

def decodeWebSocketData (payload : Bytes) : Except String (WebSocketDataKind × Bytes) :=
  match payload with
  | [] => .error "websocket data payload is empty"
  | kind :: data =>
    if kind = text.value then .ok (.text, data)
    else if kind = binary.value then .ok (.binary, data)
    else .error s!"unknown websocket data kind {kind}"

end Node

end YuriRtc
