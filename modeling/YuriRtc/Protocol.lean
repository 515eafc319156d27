import Mathlib
/-!
# Protocol — the numbers and byte strings both ends of a v3 connection share

The limits of `content-node/protocol.go`, `content-node/server.go`, `content-node/request_body.go` and
`packages/loader/src/bridge.ts` that the models below compute with.
-/
namespace YuriRtc

abbrev Bytes := List UInt8

/-- `protocolVersion` / `PROTOCOL_VERSION`. -/
def protocolVersion : Nat := 3
def headerBytes : Nat := 5
def maxFrameBytes : Nat := 128 * 1024
/-- `maxPayloadBytes` / `MAX_PAYLOAD_BYTES`. -/
def maxPayloadBytes : Nat := maxFrameBytes - headerBytes

/-- `RequestPriority`, the four classes of the node's scheduler. -/
inductive RequestPriority where
  | interactive
  | critical
  | normal
  | bulk
deriving DecidableEq, Repr

/-! request bodies -/

def maxRequestBodyBytes : Nat := 16 * 1024 * 1024
def requestBodyQueueFrames : Nat := 16
def maxRequestCredits : Nat := requestBodyQueueFrames
def requestCreditBatchSize : Nat := maxRequestCredits / 4
def maxRejectedBodyTrailingFrames : Nat := requestBodyQueueFrames

instance : NeZero requestBodyQueueFrames := ⟨by decide⟩

/-! responses -/

/-- `maxResponseCredits` / `MAX_RESPONSE_CREDITS`. -/
def maxResponseCredits : Nat := 64

/-! carried sockets -/

/-- `WebSocketDataKind` of both ends. -/
inductive WebSocketDataKind where
  | text
  | binary
deriving DecidableEq, Repr

end YuriRtc
