/-
# Requests and responses of a connection

The part of `src/server/connection.cpp` that turns a frame body into a handled
request and a response into queued bytes: `HandleOneRequest`, `EncodeFrame`,
`DecodeFrameHeader`, `QueueResponse`, `EnqueueResponse`, `FlushWrites`, and the
body of the loop of `TryParseRequests` (`processFrame`).

`Outbound` holds the members of `Connection` these functions read and write; the
read side of the connection is not among them.  The clock and the answers of
`send` come from scripts.  `handed` and `wire` record what the outside sees: the
requests given to a handler or to the dispatcher, and the bytes `send` took.

`Env` is what a connection is built with.  A dispatcher may answer differently
from call to call; the sequence number in the request tells the calls apart, so
a function of the request is no restriction.
-/

import MiniRpc.Protocol.Codec
import MiniRpc.Server.ServiceRegistry

namespace MiniRpc
namespace Server

open Protocol

/-- `kHeartbeatServiceName`. -/
def kHeartbeatServiceName : String := "__Heartbeat__"

/-- `Connection::Options`, times in milliseconds. -/
structure Options where
  readTimeout : Time := 5000
  writeTimeout : Time := 5000
  maxWriteBufferBytes : ℕ := 8 * 1024 * 1024

/-- `Connection::DispatchRequest`. -/
structure DispatchRequest where
  sequence : ℕ
  requestId : String
  serviceName : String
  methodName : String
  payload : Bytes

/-- What a connection is built with. -/
structure Env where
  request : Message RpcRequest
  response : Message RpcResponse
  registry : ServiceRegistry := {}
  dispatcher : Option (DispatchRequest → Except String Unit) := none
  options : Options := {}

/-- `Connection::PendingChunk`. -/
structure PendingChunk where
  data : Bytes
  offset : ℕ := 0

/-- The write side of a connection. -/
structure Outbound where
  writeBuffer : List PendingChunk := []
  pendingWriteBytes : ℕ := 0
  writeDeadline : Option Time := none
  nextRequestSequence : ℕ := 0
  clock : List Time := []
  outbox : Outbox := []
  wire : Bytes := []
  handed : List RpcRequest := []

namespace Outbound

/-- `HasPendingWrite`. -/
def hasPendingWrite (o : Outbound) : Bool := !o.writeBuffer.isEmpty

/-- `ArmWriteDeadline`. -/
def armWriteDeadline (env : Env) (o : Outbound) : Outbound :=
  { o with
    writeDeadline := some (o.clock.headD 0 + env.options.writeTimeout)
    clock := o.clock.tail }

end Outbound

/-- `Connection::EncodeFrame`. -/
def encodeFrame (body : Bytes) : Except String Bytes :=
  if body = [] ∨ kMaxFrameSize < body.length then .error "invalid frame body size"
  else .ok (encodeLength body.length ++ body)

theorem encodeFrame_valid {body : Bytes} (h : ValidLength body.length) :
    encodeFrame body = .ok (frame body) := by
  rw [encodeFrame, if_neg]
  · rfl
  · rintro (rfl | hlen)
    · exact absurd h.1 (by decide)
    · exact absurd h.2 (by omega)

theorem encodeFrame_invalid {body : Bytes} (h : ¬ ValidLength body.length) :
    encodeFrame body = .error "invalid frame body size" := by
  rw [encodeFrame, if_pos]
  rcases not_validLength_iff.1 h with h | h
  · exact Or.inl (List.length_eq_zero_iff.1 h)
  · exact Or.inr h

/-- `Connection::DecodeFrameHeader`. -/
def decodeFrameHeader (data : Bytes) : Except String ℕ :=
  if decodeLength data = 0 ∨ kMaxFrameSize < decodeLength data then
    .error "invalid request frame length"
  else .ok (decodeLength data)

theorem decodeFrameHeader_valid {data : Bytes} (h : ValidLength (decodeLength data)) :
    decodeFrameHeader data = .ok (decodeLength data) :=
  if_neg fun hn => not_validLength_iff.2 hn h

theorem decodeFrameHeader_invalid {data : Bytes} (h : ¬ ValidLength (decodeLength data)) :
    decodeFrameHeader data = .error "invalid request frame length" :=
  if_pos (not_validLength_iff.1 h)

/-- `Connection::HandleOneRequest`: whatever the handler does, there is an answer. -/
def handleOneRequest (env : Env) (request : RpcRequest) : RpcResponse :=
  match env.registry.find request.serviceName request.methodName with
  | none =>
    { requestId := request.requestId, errorCode := 1,
      errorMsg := "method not found: " ++ request.serviceName ++ "." ++ request.methodName,
      payload := [] }
  | some handler =>
    match handler request.payload with
    | .returned payload =>
      { requestId := request.requestId, errorCode := 0, errorMsg := "", payload }
    | .rpcError code what =>
      { requestId := request.requestId, errorCode := Common.toProtoErrorCode code,
        errorMsg := what, payload := [] }
    | .exception what =>
      { requestId := request.requestId,
        errorCode := Common.toProtoErrorCode (Common.makeErrorCode .internalError),
        errorMsg := "handler exception: " ++ what, payload := [] }
    | .unknown =>
      { requestId := request.requestId,
        errorCode := Common.toProtoErrorCode (Common.makeErrorCode .internalError),
        errorMsg := "handler threw unknown exception", payload := [] }

/-- `Connection::QueueResponse`: a response that is not queued changes nothing. -/
def queueResponse (env : Env) (o : Outbound) (response : RpcResponse) : Except String Outbound :=
  let bodyLength := env.response.byteSizeLong response
  if bodyLength = 0 ∨ kMaxFrameSize < bodyLength then .error "invalid response frame size"
  else
    match encodeFrame (env.response.serialize response) with
    | .error e => .error e
    | .ok frame =>
      if env.options.maxWriteBufferBytes < o.pendingWriteBytes + frame.length then
        .error "write buffer backpressure limit exceeded"
      else
        .ok { o with
          pendingWriteBytes := o.pendingWriteBytes + frame.length
          writeBuffer := o.writeBuffer ++ [{ data := frame }] }

theorem queueResponse_invalid {env : Env} {o : Outbound} {r : RpcResponse}
    (h : ¬ ValidLength (env.response.byteSizeLong r)) :
    queueResponse env o r = .error "invalid response frame size" :=
  if_pos (not_validLength_iff.1 h)

/-- `QueueResponse` queues the frame of the response. -/
theorem queueResponse_valid {env : Env} {o : Outbound} {r : RpcResponse}
    (h : ValidLength (env.response.byteSizeLong r))
    (hlimit : o.pendingWriteBytes + (frame (env.response.serialize r)).length ≤
      env.options.maxWriteBufferBytes) :
    queueResponse env o r = .ok { o with
      pendingWriteBytes := o.pendingWriteBytes + (frame (env.response.serialize r)).length
      writeBuffer := o.writeBuffer ++ [{ data := frame (env.response.serialize r) }] } := by
  unfold queueResponse
  dsimp only
  rw [if_neg fun hn => not_validLength_iff.2 hn h, encodeFrame_valid h]
  dsimp only
  rw [if_neg (by omega)]

/-- `Connection::EnqueueResponse`. -/
def enqueueResponse (env : Env) (o : Outbound) (response : RpcResponse) :
    Outbound × Option String :=
  match queueResponse env o response with
  | .ok o => (o.armWriteDeadline env, none)
  | .error e => (o, some e)

/-- One round of the loop of `TryParseRequests`, after the frame is known to be
complete: the body is parsed and the request answered, dispatched or handled. -/
def processFrame (env : Env) (o : Outbound) (body : Bytes) : Outbound × Option String :=
  match env.request.parse body with
  | none => enqueueResponse env o ⟨"", 2, "failed to parse RpcRequest", []⟩
  | some request =>
    if request.serviceName = kHeartbeatServiceName then
      enqueueResponse env o ⟨request.requestId, 0, "", []⟩
    else
      match env.dispatcher with
      | some dispatcher =>
        let sequence := o.nextRequestSequence + 1
        let o := { o with nextRequestSequence := sequence, handed := o.handed ++ [request] }
        match dispatcher ⟨sequence, request.requestId, request.serviceName, request.methodName,
            request.payload⟩ with
        | .ok _ => (o, none)
        | .error e => (o, some (if e = "" then "failed to dispatch request" else e))
      | none =>
        enqueueResponse env { o with handed := o.handed ++ [request] }
          (handleOneRequest env request)

/-- `Connection::FlushWrites`.  `errno` after `rc == 0` is whatever an earlier
call left; the text here is that of a process in which none failed. -/
def flushWrites (o : Outbound) : Outbound × Option String :=
  match _hb : o.writeBuffer with
  | [] => (o, none)
  | chunk :: chunks =>
    match _h : send (chunk.data.length - chunk.offset) o.outbox with
    | (.sent 0, outbox) => ({ o with outbox }, some "send failed: Success")
    | (.sent (n + 1), outbox) =>
      let offset := chunk.offset + (n + 1)
      flushWrites
        { o with
          outbox
          wire := o.wire ++ (chunk.data.drop chunk.offset).take (n + 1)
          pendingWriteBytes := o.pendingWriteBytes - (n + 1)
          writeBuffer := if offset = chunk.data.length then chunks
            else { chunk with offset := offset } :: chunks }
    | (.interrupted, outbox) => flushWrites { o with outbox }
    | (.wouldBlock, outbox) => ({ o with outbox }, none)
    | (.error what, outbox) => ({ o with outbox }, some ("send failed: " ++ what))
termination_by o.outbox.length + o.writeBuffer.length
decreasing_by
  · obtain ⟨-, hlt | ⟨heq, hk⟩⟩ := Outbox.send_sent _h
    · split_ifs <;> simp only [_hb, List.length_cons] <;> omega
    · rw [dif_pos (show chunk.offset + (n + 1) = chunk.data.length by omega)]
      simp only [_hb, List.length_cons]
      omega
  · exact Nat.add_lt_add_right (Outbox.length_send_interrupted _h) _

end Server
end MiniRpc
