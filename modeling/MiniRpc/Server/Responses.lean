/-
# The two ways to a response

A request is answered on the connection's own thread (`HandleOneRequest` of
`src/server/connection.cpp`) or by a task of the thread pool, whose result comes
back as a `CompletedResponse` and is made a response by
`DrainCompletedResponses` (`src/server/worker_loop.cpp`).  The two look the
handler up, map its exceptions and fill in the fields separately; `answer` says
what both of them give.

A response then has to pass `QueueResponse`.  What a connection has queued is
what it has sent and what is left in the write buffer, `emitted`; flushing moves
bytes from the one to the other.  So the frames queued in a session can be read
off `emitted`, whatever was flushed in between.
-/

import MiniRpc.Library.Transition
import MiniRpc.Server.Session
import MiniRpc.Server.WorkerLoop
import Mathlib.Data.List.Infix

namespace MiniRpc
namespace Server

open Protocol Splitter Transition

/-! ### What a request is answered -/

/-- The answer to a request for which `Find` gave `handler`. -/
def answer (handler : Option Handler) (request : RpcRequest) : RpcResponse :=
  match handler with
  | none =>
    ⟨request.requestId, 1,
      "method not found: " ++ request.serviceName ++ "." ++ request.methodName, []⟩
  | some handler =>
    match handler request.payload with
    | .returned payload => ⟨request.requestId, 0, "", payload⟩
    | .rpcError code what => ⟨request.requestId, Common.toProtoErrorCode code, what, []⟩
    | .exception what => ⟨request.requestId, 3, "handler exception: " ++ what, []⟩
    | .unknown => ⟨request.requestId, 3, "handler threw unknown exception", []⟩

/-- Every answer carries the id of its request. -/
theorem answer_requestId (handler : Option Handler) (request : RpcRequest) :
    (answer handler request).requestId = request.requestId := by
  unfold answer
  cases handler with
  | none => rfl
  | some handler =>
    dsimp only
    split <;> rfl

/-- **The inline path gives the answer.** -/
theorem handleOneRequest_eq (env : Env) (request : RpcRequest) :
    handleOneRequest env request =
      answer (env.registry.find request.serviceName request.methodName) request := by
  unfold handleOneRequest answer
  cases env.registry.find request.serviceName request.methodName with
  | none => rfl
  | some handler =>
    dsimp only
    cases handler request.payload <;> rfl

/-- The request as `TryParseRequests` gives it to the dispatcher. -/
def dispatchRequest (sequence : ℕ) (request : RpcRequest) : DispatchRequest :=
  ⟨sequence, request.requestId, request.serviceName, request.methodName, request.payload⟩

/-- The task of `DispatchRequestToThreadPool`: what it hands to the completion
queue. -/
def runTask (registry : ServiceRegistry) (fd : ℤ) (token : ℕ) (request : DispatchRequest) :
    CompletedResponse :=
  let completed : CompletedResponse :=
    { fd, connectionToken := token, requestId := request.requestId, protoErrorCode := 0,
      errorMsg := "", payload := [] }
  match registry.find request.serviceName request.methodName with
  | none =>
    { completed with
      protoErrorCode := 1
      errorMsg := "method not found: " ++ request.serviceName ++ "." ++ request.methodName }
  | some handler =>
    match handler request.payload with
    | .returned payload => { completed with payload }
    | .rpcError code what =>
      { completed with protoErrorCode := Common.toProtoErrorCode code, errorMsg := what }
    | .exception what =>
      { completed with protoErrorCode := 3, errorMsg := "handler exception: " ++ what }
    | .unknown =>
      { completed with protoErrorCode := 3, errorMsg := "handler threw unknown exception" }

/-- The response that `DrainCompletedResponses` makes of a completion. -/
def CompletedResponse.response (completed : CompletedResponse) : RpcResponse :=
  ⟨completed.requestId, completed.protoErrorCode, completed.errorMsg, completed.payload⟩

/-- **The thread-pool path gives the answer.** -/
theorem runTask_response (registry : ServiceRegistry) (fd : ℤ) (token sequence : ℕ)
    (request : RpcRequest) :
    (runTask registry fd token (dispatchRequest sequence request)).response =
      answer (registry.find request.serviceName request.methodName) request := by
  unfold runTask answer dispatchRequest
  dsimp only
  cases registry.find request.serviceName request.methodName with
  | none => rfl
  | some handler =>
    dsimp only
    cases handler request.payload <;> rfl

/-- The response that a frame gets on the connection's own thread. -/
def reply (env : Env) (body : Bytes) : RpcResponse :=
  match env.request.parse body with
  | none => ⟨"", 2, "failed to parse RpcRequest", []⟩
  | some request =>
    if request.serviceName = kHeartbeatServiceName then ⟨request.requestId, 0, "", []⟩
    else handleOneRequest env request

/-- Without a dispatcher every frame is answered at once. -/
theorem processFrame_inline {env : Env} (hd : env.dispatcher = none) (o : Outbound)
    (body : Bytes) :
    processFrame env o body =
      enqueueResponse env { o with handed := o.handed ++ (business env body).toList }
        (reply env body) := by
  unfold processFrame business reply
  cases env.request.parse body with
  | none => simp
  | some request =>
    by_cases hb : request.serviceName = kHeartbeatServiceName
    · simp [hb]
    · simp [hb, hd]

/-- With a dispatcher the frames that hold no business request are. -/
theorem processFrame_local {env : Env} {o : Outbound} {body : Bytes}
    (h : business env body = none) :
    processFrame env o body = enqueueResponse env o (reply env body) := by
  unfold business at h
  unfold processFrame reply
  cases hp : env.request.parse body with
  | none => rfl
  | some request =>
    by_cases hb : request.serviceName = kHeartbeatServiceName
    · simp [hb]
    · simp [hp, hb] at h

/-! ### What the size checks let through -/

/-- The chunk that `QueueResponse` appends for a response. -/
def responseChunk (env : Env) (response : RpcResponse) : PendingChunk :=
  { data := frame (env.response.serialize response) }

/-- The write buffer has room for the frame of a response. -/
def Room (env : Env) (o : Outbound) (response : RpcResponse) : Prop :=
  o.pendingWriteBytes + (frame (env.response.serialize response)).length ≤
    env.options.maxWriteBufferBytes

instance (env : Env) (o : Outbound) (response : RpcResponse) :
    Decidable (Room env o response) := inferInstanceAs (Decidable (_ ≤ _))

theorem enqueueResponse_valid {env : Env} {o : Outbound} {response : RpcResponse}
    (hsize : ValidLength (env.response.byteSizeLong response)) (hroom : Room env o response) :
    enqueueResponse env o response =
      (({ o with
        pendingWriteBytes :=
          o.pendingWriteBytes + (frame (env.response.serialize response)).length
        writeBuffer := o.writeBuffer ++ [responseChunk env response] }).armWriteDeadline env,
        none) := by
  rw [enqueueResponse, queueResponse_valid hsize hroom]
  rfl

theorem enqueueResponse_invalid {env : Env} {o : Outbound} {response : RpcResponse}
    (hsize : ¬ ValidLength (env.response.byteSizeLong response)) :
    enqueueResponse env o response = (o, some "invalid response frame size") := by
  rw [enqueueResponse, queueResponse_invalid hsize]

theorem enqueueResponse_noRoom {env : Env} {o : Outbound} {response : RpcResponse}
    (hsize : ValidLength (env.response.byteSizeLong response)) (hroom : ¬ Room env o response) :
    enqueueResponse env o response = (o, some "write buffer backpressure limit exceeded") := by
  have hlen : env.options.maxWriteBufferBytes <
      o.pendingWriteBytes + (frame (env.response.serialize response)).length := by
    unfold Room at hroom
    omega
  unfold enqueueResponse queueResponse
  dsimp only
  rw [if_neg fun hn => not_validLength_iff.2 hn hsize, encodeFrame_valid hsize]
  dsimp only
  rw [if_pos hlen]

/-- A response that was queued passed the checks. -/
theorem enqueueResponse_ok {env : Env} {o o' : Outbound} {response : RpcResponse}
    (h : enqueueResponse env o response = (o', none)) :
    ValidLength (env.response.byteSizeLong response) ∧ Room env o response := by
  by_cases hsize : ValidLength (env.response.byteSizeLong response)
  · by_cases hroom : Room env o response
    · exact ⟨hsize, hroom⟩
    · rw [enqueueResponse_noRoom hsize hroom] at h
      cases (Prod.mk.inj h).2
  · rw [enqueueResponse_invalid hsize] at h
    cases (Prod.mk.inj h).2

/-- The write side after frames were processed in turn. -/
def processed (env : Env) (o : Outbound) : List Bytes → Outbound
  | [] => o
  | body :: bodies => processed env (processFrame env o body).1 bodies

/-- What frames leave in the write buffer that were all answered at once. -/
theorem processed_writeBuffer {env : Env} (hd : env.dispatcher = none) {bodies : List Bytes}
    {o : Outbound} (h : Accepts env o bodies) :
    (processed env o bodies).writeBuffer =
      o.writeBuffer ++ bodies.map fun body => responseChunk env (reply env body) := by
  induction bodies generalizing o with
  | nil => exact (List.append_nil _).symm
  | cons body bodies ih =>
    obtain ⟨hbody, hrest⟩ := h
    rw [processed, ih hrest, processFrame_inline hd, List.map_cons]
    rw [processFrame_inline hd] at hbody
    obtain ⟨hsize, hroom⟩ := enqueueResponse_ok (Prod.ext rfl hbody)
    rw [enqueueResponse_valid hsize hroom]
    simp [Outbound.armWriteDeadline]

namespace Connection

/-- `c'` is `c` after frames were consumed: the buffer holds what follows them,
their bodies are recorded, and the write side is what processing them made of it. -/
structure Consumed (bodies : List Bytes) (rest : Bytes) (out : Outbound) (c c' : Connection) :
    Prop where
  rest : c'.readBuffer.readable = rest
  same : { c' with readBuffer := c.readBuffer } = { c with out, bodies := c.bodies ++ bodies }

theorem Consumed.out_eq {bodies : List Bytes} {rest : Bytes} {out : Outbound} {c c' : Connection}
    (h : Consumed bodies rest out c c') : c'.out = out :=
  (congrArg Connection.out h.same :)

theorem Consumed.shouldClose_eq {bodies : List Bytes} {rest : Bytes} {out : Outbound}
    {c c' : Connection} (h : Consumed bodies rest out c c') : c'.shouldClose = c.shouldClose :=
  (congrArg Connection.shouldClose h.same :)

theorem Consumed.state_eq {bodies : List Bytes} {rest : Bytes} {out : Outbound}
    {c c' : Connection} (h : Consumed bodies rest out c c') : c'.state = c.state :=
  (congrArg Connection.state h.same :)

theorem Consumed.append {bodies bodies' : List Bytes} {rest rest' : Bytes} {out out' : Outbound}
    {c c' c'' : Connection} (h : Consumed bodies rest out c c')
    (h' : Consumed bodies' rest' out' c' c'') :
    Consumed (bodies ++ bodies') rest' out' c c'' := by
  have hbodies : c'.bodies = c.bodies ++ bodies := congrArg Connection.bodies h.same
  refine ⟨h'.rest, ?_⟩
  calc { c'' with readBuffer := c.readBuffer }
      = { { c'' with readBuffer := c'.readBuffer } with readBuffer := c.readBuffer } := rfl
    _ = { { c' with out := out', bodies := c'.bodies ++ bodies' } with
          readBuffer := c.readBuffer } := by rw [h'.same]
    _ = { { c' with readBuffer := c.readBuffer } with
          out := out', bodies := c'.bodies ++ bodies' } := rfl
    _ = { c with out := out', bodies := c.bodies ++ (bodies ++ bodies') } := by
      rw [h.same, hbodies, List.append_assoc]

/-- **One round of the loop.**  A complete frame at the front of the buffer is
processed; the loop goes on behind it, or ends with the error. -/
theorem tryParseRequests_frame (env : Env) {c : Connection} {body rest : Bytes}
    (hlen : ValidLength body.length) (hbuf : c.readBuffer.readable = frame body ++ rest) :
    (∀ out, processFrame env c.out body = (out, none) →
      ∃ c', Consumed [body] rest out c c' ∧ c.tryParseRequests env = c'.tryParseRequests env) ∧
    ∀ out e, processFrame env c.out body = (out, some e) →
      c.tryParseRequests env = ({ c with out }, some e) := by
  have hcut := cut_frame hlen rest
  rw [← hbuf] at hcut
  obtain ⟨hhead, hvalid, hbody, hb, hr⟩ := cutFrame_eq_item hcut
  rw [Buffer.length_readable] at hhead hbody
  rw [tryParseRequests, if_pos hhead, decodeFrameHeader_valid hvalid]
  dsimp only
  rw [dif_neg (by omega), ← hb]
  constructor
  · intro out hout
    rw [hout]
    exact ⟨_, ⟨(Buffer.readable_retrieve _ _ hbody).trans hr.symm, rfl⟩, rfl⟩
  · intro out e hout
    rw [hout]

/-- The loop gets past frames that are accepted. -/
theorem tryParseRequests_frames (env : Env) {c : Connection} {bodies : List Bytes} {rest : Bytes}
    (hlen : ∀ body ∈ bodies, ValidLength body.length)
    (hbuf : c.readBuffer.readable = stream bodies ++ rest) (h : Accepts env c.out bodies) :
    ∃ c', Consumed bodies rest (processed env c.out bodies) c c' ∧
      c.tryParseRequests env = c'.tryParseRequests env := by
  induction bodies generalizing c with
  | nil => exact ⟨c, ⟨hbuf, by simp [processed]⟩, rfl⟩
  | cons body bodies ih =>
    obtain ⟨hbody, hrest⟩ := h
    rw [stream_cons, List.append_assoc] at hbuf
    obtain ⟨c₁, hc₁, heq₁⟩ :=
      (tryParseRequests_frame env (hlen body (by simp)) hbuf).1 _ (Prod.ext rfl hbody)
    have hrest' : Accepts env c₁.out bodies := by
      rw [hc₁.out_eq]
      exact hrest
    obtain ⟨c₂, hc₂, heq₂⟩ := ih (fun b hb => hlen b (by simp [hb])) hc₁.rest hrest'
    rw [hc₁.out_eq] at hc₂
    exact ⟨c₂, hc₁.append hc₂, heq₁.trans heq₂⟩

/-- **A request gets one response frame.**  In a connection without a
dispatcher, `TryParseRequests` that comes to a frame with a request that is no
heartbeat has a response with the id of the request, whatever the handler does.
If the response is 1 byte to 4 MiB long and there is room for it, its frame and
nothing else is appended to the write buffer and the loop goes on behind the
request, the connection open; a response of another size is refused, nothing is
appended and `TryParseRequests` fails. -/
theorem tryParseRequests_answers {env : Env} (hd : env.dispatcher = none) {c : Connection}
    (hopen : c.shouldClose = false) {before : List Bytes} {body rest : Bytes}
    (hbuf : c.readBuffer.readable = stream before ++ (frame body ++ rest))
    (hlens : ∀ b ∈ before, ValidLength b.length) (hlen : ValidLength body.length)
    (hbefore : Accepts env c.out before) {request : RpcRequest}
    (hparse : env.request.parse body = some request)
    (hbeat : request.serviceName ≠ kHeartbeatServiceName) :
    (handleOneRequest env request).requestId = request.requestId ∧
    (processed env c.out before).writeBuffer =
      c.out.writeBuffer ++ before.map (fun b => responseChunk env (reply env b)) ∧
    (ValidLength (env.response.byteSizeLong (handleOneRequest env request)) →
      Room env (processed env c.out before) (handleOneRequest env request) →
      ∃ c' : Connection, c.tryParseRequests env = c'.tryParseRequests env ∧
        c'.readBuffer.readable = rest ∧ c'.shouldClose = false ∧ c'.state = c.state ∧
        c'.out.writeBuffer = (processed env c.out before).writeBuffer ++
          [responseChunk env (handleOneRequest env request)]) ∧
    (¬ ValidLength (env.response.byteSizeLong (handleOneRequest env request)) →
      ∃ c', c.tryParseRequests env = (c', some "invalid response frame size") ∧
        c'.out.writeBuffer = (processed env c.out before).writeBuffer) := by
  have hbusiness : business env body = some request := by
    rw [business, hparse]
    exact if_neg hbeat
  have hreply : reply env body = handleOneRequest env request := by
    rw [reply, hparse]
    exact if_neg hbeat
  obtain ⟨c₁, hc₁, heq₁⟩ := tryParseRequests_frames env hlens hbuf hbefore
  obtain ⟨hgo, hstop⟩ := tryParseRequests_frame env hlen hc₁.rest
  rw [hc₁.out_eq, processFrame_inline hd, hreply, hbusiness] at hgo hstop
  refine ⟨?_, processed_writeBuffer hd hbefore, fun hsize hroom => ?_, fun hsize => ?_⟩
  · rw [handleOneRequest_eq, answer_requestId]
  · obtain ⟨c₂, hc₂, heq₂⟩ := hgo _ (enqueueResponse_valid hsize hroom)
    refine ⟨c₂, heq₁.trans heq₂, hc₂.rest, ?_, hc₂.state_eq.trans hc₁.state_eq, ?_⟩
    · rw [hc₂.shouldClose_eq, hc₁.shouldClose_eq, hopen]
    · rw [hc₂.out_eq]
      rfl
  · exact ⟨_, heq₁.trans (hstop _ _ (enqueueResponse_invalid hsize)), rfl⟩

/-- `OnReadable` after `TryParseRequests` failed. -/
theorem onReadable_refused {env : Env} {c c₁ c₂ : Connection} {e : String}
    (hread : c.readFromSocket = (c₁, .kData)) (hparse : c₁.tryParseRequests env = (c₂, some e)) :
    c.onReadable env = (c₂.enterError e, some e) := by
  rw [onReadable, hread]
  dsimp only
  rw [hparse]

/-- `OnReadable` after `TryParseRequests` succeeded. -/
theorem onReadable_accepted {env : Env} {c c₁ c₂ : Connection}
    (hread : c.readFromSocket = (c₁, .kData)) (hparse : c₁.tryParseRequests env = (c₂, none)) :
    c.onReadable env = ({ c₂ with state := .kOpen }, none) := by
  rw [onReadable, hread]
  dsimp only
  rw [hparse]

/-- The request of `Session`, complete in the buffer of a new connection. -/
def sampleConnection : Connection :=
  { new [] [] [] with readBuffer := (Buffer.new 8192).append (frame sampleBody) }

theorem sampleConnection_readable :
    sampleConnection.readBuffer.readable = stream [] ++ (frame sampleBody ++ []) := by
  rw [sampleConnection, Buffer.readable_append, Buffer.readable_new]
  rfl

/-- It is answered with `METHOD_NOT_FOUND`, in one frame. -/
theorem tryParseRequests_answers_sample :
    ∃ c' : Connection, sampleConnection.tryParseRequests sampleEnv =
        c'.tryParseRequests sampleEnv ∧
      c'.readBuffer.readable = [] ∧ c'.shouldClose = false ∧
      c'.out.writeBuffer = [{ data := frame sampleReply }] := by
  obtain ⟨-, -, hgo, -⟩ := tryParseRequests_answers (rfl : sampleEnv.dispatcher = none) rfl
    sampleConnection_readable (by simp) (by decide) trivial
    (rfl : sampleEnv.request.parse sampleBody = some sampleRequest) (by decide)
  obtain ⟨c', heq, hrest, hopen, -, hbuffer⟩ := hgo (by decide) (by decide)
  exact ⟨c', heq, hrest, hopen, hbuffer⟩

/-- A request without an id, for method `M` of service `S`. -/
def anonymousRequest : RpcRequest := ⟨"", "S", "M", []⟩

/-- Its body: the two string fields that are not empty. -/
def anonymousBody : Bytes := [0x12, 1, 0x53, 0x1A, 1, 0x4D]

/-- A server whose method `S.M` returns no bytes.  The response has default
values only, and proto3 writes such a message as no bytes. -/
def anonymousEnv : Env where
  request := .only anonymousRequest anonymousBody
  response := .only ⟨"", 0, "", []⟩ []
  registry := (ServiceRegistry.register {} "S" "M" (some fun _ => .returned [])).1

/-- **A response of default values only is refused.**  The request comes in
alone, the buffers are empty, the handler succeeds; nothing is queued and the
connection goes into the error state. -/
theorem empty_response_closes :
    anonymousEnv.dispatcher = none ∧
    anonymousEnv.request.parse anonymousBody = some anonymousRequest ∧
    anonymousRequest.serviceName ≠ kHeartbeatServiceName ∧
    handleOneRequest anonymousEnv anonymousRequest = ⟨"", 0, "", []⟩ ∧
    Room anonymousEnv (new [] [] []).out (handleOneRequest anonymousEnv anonymousRequest) ∧
    ((new [] [] []).readEvent anonymousEnv
      [.data 0 ([0, 0, 6] ++ anonymousBody)]).out.writeBuffer = [] ∧
    ((new [] [] []).readEvent anonymousEnv
      [.data 0 ([0, 0, 6] ++ anonymousBody)]).shouldClose = true ∧
    ((new [] [] []).readEvent anonymousEnv
      [.data 0 ([0, 0, 6] ++ anonymousBody)]).lastError = "invalid response frame size" := by
  obtain ⟨b, hb, hread⟩ := readFromSocket_eq
    { new [] [] [] with inbox := [.data 0 ([0, 0, 6] ++ anonymousBody)] }
  replace hb : b.readable = frame anonymousBody ++ [] := hb
  have hparse := (tryParseRequests_frame anonymousEnv
    (c := { new [] [] [] with readBuffer := b }) (by decide) hb).2
    { handed := [anonymousRequest] } "invalid response frame size" rfl
  have hdata : readOutcome .wouldBlock b.readable = .kData := by
    rw [hb]
    rfl
  have hread' : readFromSocket
      { new [] [] [] with inbox := [.data 0 ([0, 0, 6] ++ anonymousBody)] } =
        ({ new [] [] [] with readBuffer := b }, .kData) := by
    rw [hread]
    exact Prod.ext rfl hdata
  have hevent : (new [] [] []).readEvent anonymousEnv
      [.data 0 ([0, 0, 6] ++ anonymousBody)] =
        ({ new [] [] [] with
          readBuffer := b
          out := { handed := [anonymousRequest] } }).enterError "invalid response frame size" :=
    congrArg Prod.fst (onReadable_refused hread' hparse)
  rw [hevent]
  exact ⟨rfl, rfl, by decide, rfl, by decide, rfl, rfl, rfl⟩

end Connection

/-! ### The frames of a session -/

namespace Outbound

/-- The bytes queued so far: those `send` took and those that are left. -/
def emitted (o : Outbound) : Bytes :=
  o.wire ++ (o.writeBuffer.map fun chunk => chunk.data.drop chunk.offset).flatten

/-- The bodies of the frames queued so far. -/
def queued (o : Outbound) : List Bytes := (frameSplitter.split o.emitted).items

end Outbound

/-- A queued response is emitted as one frame. -/
theorem enqueueResponse_emitted {env : Env} {o o' : Outbound} {response : RpcResponse}
    (h : enqueueResponse env o response = (o', none)) :
    o'.emitted = o.emitted ++ frame (env.response.serialize response) := by
  obtain ⟨hsize, hroom⟩ := enqueueResponse_ok h
  rw [enqueueResponse_valid hsize hroom] at h
  obtain ⟨rfl, -⟩ := Prod.mk.inj h
  simp [Outbound.emitted, Outbound.armWriteDeadline, responseChunk]

/-- **Flushing emits nothing new**: what leaves the buffer is on the wire. -/
theorem flushWrites_emitted (o : Outbound) : (flushWrites o).1.emitted = o.emitted := by
  fun_induction flushWrites o with
  | case1 => rfl
  | case2 => rfl
  | case3 o chunk chunks hbuf n outbox hsend offset ih =>
    simp only [dite_eq_ite] at ih
    rw [ih]
    have hsplit : (chunk.data.drop chunk.offset).take (n + 1) ++ chunk.data.drop offset =
        chunk.data.drop chunk.offset := by
      rw [← List.drop_drop, List.take_append_drop]
    simp only [Outbound.emitted, hbuf, List.map_cons, List.flatten_cons, List.append_assoc]
    split_ifs with hall
    · rw [hall, List.drop_length, List.append_nil] at hsplit
      rw [hsplit]
    · rw [List.map_cons, List.flatten_cons, ← List.append_assoc (List.take _ _), hsplit]
  | case4 o chunk chunks hbuf outbox hsend ih => exact ih
  | case5 => rfl
  | case6 => rfl

theorem flushWrites_handed (o : Outbound) : (flushWrites o).1.handed = o.handed := by
  fun_induction flushWrites o with
  | case1 => rfl
  | case2 => rfl
  | case3 o chunk chunks hbuf n outbox hsend offset ih => simpa only [dite_eq_ite] using ih
  | case4 o chunk chunks hbuf outbox hsend ih => exact ih
  | case5 => rfl
  | case6 => rfl

/-- What happens to the write side of a connection that stays open. -/
inductive WriteEvent where
  /-- A round of `TryParseRequests`. -/
  | frame (body : Bytes)
  /-- A response handed over by `DrainCompletedResponses`. -/
  | completed (completion : CompletedResponse)
  /-- `FlushWrites`. -/
  | flush

/-- What an event makes of the write side, `none` if a call fails and with it
the connection. -/
def writeStep (env : Env) (o : Outbound) (e : WriteEvent) : Option Outbound :=
  let (o', failure) := match e with
    | .frame body => processFrame env o body
    | .completed completion => enqueueResponse env o completion.response
    | .flush => flushWrites o
  if failure = none then some o' else none

/-- The frames of a session. -/
def WriteEvent.bodies (es : List WriteEvent) : List Bytes :=
  es.filterMap fun
    | .frame body => some body
    | _ => none

/-- The completions of a session. -/
def WriteEvent.completions (es : List WriteEvent) : List CompletedResponse :=
  es.filterMap fun
    | .completed completion => some completion
    | _ => none

/-- The response that an event queues, if it queues one. -/
def WriteEvent.response (env : Env) : WriteEvent → Option RpcResponse
  | .frame body =>
    if env.dispatcher.isSome && (business env body).isSome then none else some (reply env body)
  | .completed completion => some completion.response
  | .flush => none

/-- A frame that a dispatcher took queues nothing. -/
theorem processFrame_dispatched {env : Env} {o o' : Outbound} {body : Bytes}
    {d : DispatchRequest → Except String Unit} (hd : env.dispatcher = some d)
    {request : RpcRequest} (hb : business env body = some request)
    (h : processFrame env o body = (o', none)) :
    o' = { o with
      nextRequestSequence := o.nextRequestSequence + 1, handed := o.handed ++ [request] } := by
  unfold business at hb
  unfold processFrame at h
  cases hp : env.request.parse body with
  | none => simp [hp] at hb
  | some q =>
    rw [hp] at hb h
    dsimp only at hb h
    split_ifs at hb h with hbeat
    obtain rfl := Option.some.inj hb
    rw [hd] at h
    dsimp only at h
    split at h
    · exact (Prod.mk.inj h).1.symm
    · cases (Prod.mk.inj h).2

theorem writeStep_eq_some {env : Env} {o o' : Outbound} {e : WriteEvent} :
    writeStep env o e = some o' ↔
      (match e with
        | .frame body => processFrame env o body
        | .completed completion => enqueueResponse env o completion.response
        | .flush => flushWrites o) = (o', none) := by
  unfold writeStep
  generalize (match e with
    | .frame body => processFrame env o body
    | .completed completion => enqueueResponse env o completion.response
    | .flush => flushWrites o) = r
  obtain ⟨o₁, failure⟩ := r
  cases failure <;> simp

/-- **One event**: the response it queues is emitted, and its size was valid. -/
theorem writeStep_emitted {env : Env} {o o' : Outbound} {e : WriteEvent}
    (h : writeStep env o e = some o') :
    o'.emitted = o.emitted ++ stream ((e.response env).toList.map env.response.serialize) ∧
      (∀ r ∈ e.response env, ValidLength (env.response.byteSizeLong r)) ∧
      o'.handed = o.handed ++ ((WriteEvent.bodies [e]).filterMap (business env)) := by
  have hqueue : ∀ {o : Outbound} {r : RpcResponse}, enqueueResponse env o r = (o', none) →
      o'.emitted = o.emitted ++ stream ([r].map env.response.serialize) ∧
        (∀ r' ∈ some r, ValidLength (env.response.byteSizeLong r')) ∧ o'.handed = o.handed := by
    intro o r hr
    refine ⟨by simpa using enqueueResponse_emitted hr, ?_, ?_⟩
    · intro r' hr'
      obtain rfl := Option.some.inj hr'
      exact (enqueueResponse_ok hr).1
    · rw [← enqueueResponse_handed env o r, hr]
  rw [writeStep_eq_some] at h
  cases e with
  | frame body =>
    dsimp only at h
    have hhanded : o'.handed = o.handed ++
        (WriteEvent.bodies [.frame body]).filterMap (business env) := by
      have := processFrame_handed env o body
      rw [h] at this
      rw [this, WriteEvent.bodies]
      cases hb : business env body <;> simp [hb]
    rw [WriteEvent.response]
    by_cases hlocal : env.dispatcher.isSome && (business env body).isSome
    · rw [if_pos hlocal]
      obtain ⟨hd, hb⟩ := Bool.and_eq_true_iff.1 hlocal
      obtain ⟨d, hd⟩ := Option.isSome_iff_exists.1 hd
      obtain ⟨request, hb⟩ := Option.isSome_iff_exists.1 hb
      refine ⟨?_, by simp, hhanded⟩
      rw [processFrame_dispatched hd hb h]
      simp [Outbound.emitted]
    · rw [if_neg hlocal]
      cases hd : env.dispatcher with
      | none =>
        rw [processFrame_inline hd] at h
        exact ⟨(hqueue h).1, (hqueue h).2.1, hhanded⟩
      | some d =>
        have hb : business env body = none := by simpa [hd] using hlocal
        rw [processFrame_local hb] at h
        exact ⟨(hqueue h).1, (hqueue h).2.1, hhanded⟩
  | completed completion =>
    obtain ⟨he, hv, hh⟩ := hqueue h
    exact ⟨he, hv, by simpa [WriteEvent.bodies] using hh⟩
  | flush =>
    have hsame := flushWrites_emitted o
    have hhanded := flushWrites_handed o
    dsimp only at h
    rw [h] at hsame hhanded
    exact ⟨by simpa [WriteEvent.response] using hsame, by simp [WriteEvent.response],
      by simpa [WriteEvent.bodies] using hhanded⟩

/-- **A session**: the responses its events queue are emitted in turn. -/
theorem exec_emitted {env : Env} {es : List WriteEvent} {o o' : Outbound}
    (h : exec (writeStep env) o es = some o') :
    o'.emitted = o.emitted ++
        stream ((es.filterMap (WriteEvent.response env)).map env.response.serialize) ∧
      (∀ r ∈ es.filterMap (WriteEvent.response env),
        ValidLength (env.response.byteSizeLong r)) ∧
      o'.handed = o.handed ++ (WriteEvent.bodies es).filterMap (business env) := by
  induction es generalizing o with
  | nil =>
    obtain rfl := Option.some.inj h
    simp [WriteEvent.bodies]
  | cons e es ih =>
    obtain ⟨o₁, he, hes⟩ := Option.bind_eq_some_iff.1 h
    obtain ⟨hemit, hvalid, hhanded⟩ := writeStep_emitted he
    obtain ⟨hemit', hvalid', hhanded'⟩ := ih hes
    have hbodies : WriteEvent.bodies (e :: es) =
        WriteEvent.bodies [e] ++ WriteEvent.bodies es := by
      rw [WriteEvent.bodies, WriteEvent.bodies, WriteEvent.bodies, ← List.filterMap_append]
      rfl
    refine ⟨?_, ?_, ?_⟩
    · rw [hemit', hemit, List.append_assoc]
      cases hr : e.response env <;> simp [hr]
    · intro r hr
      rw [List.filterMap_cons] at hr
      cases hresp : e.response env with
      | none => exact hvalid' r (by simpa [hresp] using hr)
      | some r₀ =>
        rw [hresp] at hr
        rcases List.mem_cons.1 hr with rfl | hr
        · exact hvalid r hresp
        · exact hvalid' r hr
    · rw [hhanded', hhanded, hbodies, List.filterMap_append, List.append_assoc]

/-- A drive is a session of the frames it takes. -/
theorem drive_session (env : Env) {o : Outbound} {xs : Bytes}
    (h : (frameSplitter.drive (processFrame env) o xs).stop = none) :
    exec (writeStep env) o ((frameSplitter.drive (processFrame env) o xs).items.map .frame) =
      some (frameSplitter.drive (processFrame env) o xs).state := by
  induction o, xs using drive_induction frameSplitter (processFrame env) with
  | more o xs hc => rw [drive_more hc]; rfl
  | bad o xs hc => simp [drive_bad hc] at h
  | failed o xs body rest o' why hc hh => simp [drive_failed hc hh] at h
  | item o xs body rest o' hc hh ih =>
    rw [drive_item hc hh] at h ⊢
    have hstep : writeStep env o (.frame body) = some o' := writeStep_eq_some.2 hh
    rw [List.map_cons, exec_cons, hstep]
    exact ih h

/-- A call of `TryParseRequests` that succeeds is a session of the frames it
consumes. -/
theorem Connection.tryParseRequests_session {env : Env} {c c' : Connection}
    (h : c.tryParseRequests env = (c', none)) :
    ∃ bodies : List Bytes, c'.bodies = c.bodies ++ bodies ∧
      exec (writeStep env) c.out (bodies.map .frame) = some c'.out := by
  obtain ⟨b, -, hparse⟩ := c.tryParseRequests_eq env
  obtain ⟨rfl, hstop⟩ := Prod.mk.inj (hparse.symm.trans h)
  refine ⟨_, rfl, drive_session env ?_⟩
  generalize (frameSplitter.drive (processFrame env) c.out c.readBuffer.readable).stop = stop
    at hstop ⊢
  rcases stop with _ | _ | why
  · rfl
  · cases hstop
  · cases hstop

/-- What a session from the start has queued. -/
theorem exec_queued {env : Env} {es : List WriteEvent} {o o' : Outbound} (ho : o.emitted = [])
    (h : exec (writeStep env) o es = some o') :
    o'.queued = (es.filterMap (WriteEvent.response env)).map env.response.serialize := by
  obtain ⟨hemit, hvalid, -⟩ := exec_emitted h
  rw [Outbound.queued, hemit, ho, List.nil_append, split_stream]
  intro body hbody
  obtain ⟨r, hr, rfl⟩ := List.mem_map.1 hbody
  exact hvalid r hr

/-- The responses of a session without a pool: one to each frame, in order. -/
theorem filterMap_response_inline {env : Env} (hd : env.dispatcher = none) {es : List WriteEvent}
    (h : WriteEvent.completions es = []) :
    es.filterMap (WriteEvent.response env) = (WriteEvent.bodies es).map (reply env) := by
  induction es with
  | nil => rfl
  | cons e es ih =>
    cases e with
    | frame body =>
      have := ih h
      simp_all [WriteEvent.response, WriteEvent.bodies]
    | completed completion => cases h
    | flush => exact ih h

/-- The responses of a session with a pool: those of the completions, and those
to the frames that were not dispatched. -/
theorem filterMap_response_pool {env : Env} (hd : env.dispatcher.isSome) (es : List WriteEvent) :
    (es.filterMap (WriteEvent.response env)).Perm
      ((WriteEvent.completions es).map CompletedResponse.response ++
        ((WriteEvent.bodies es).filter fun body => (business env body).isNone).map
          (reply env)) := by
  induction es with
  | nil => exact List.Perm.refl _
  | cons e es ih =>
    cases e with
    | frame body =>
      cases hb : business env body with
      | none =>
        have : (WriteEvent.frame body).response env = some (reply env body) := by
          simp [WriteEvent.response, hb]
        rw [List.filterMap_cons, this]
        refine (ih.cons _).trans ?_
        simpa [WriteEvent.completions, WriteEvent.bodies, hb] using List.perm_middle.symm
      | some request =>
        have : (WriteEvent.frame body).response env = none := by
          simp [WriteEvent.response, hb, hd]
        rw [List.filterMap_cons, this]
        simpa [WriteEvent.completions, WriteEvent.bodies, hb] using ih
    | completed completion => exact ih.cons _
    | flush => exact ih

/-- The replies to frames: those to business requests and those to the others. -/
theorem map_reply_perm (env : Env) (bodies : List Bytes) :
    (bodies.map (reply env)).Perm
      ((bodies.filterMap (business env)).map (handleOneRequest env) ++
        (bodies.filter fun body => (business env body).isNone).map (reply env)) := by
  induction bodies with
  | nil => exact List.Perm.refl _
  | cons body bodies ih =>
    cases hb : business env body with
    | none =>
      refine (ih.cons _).trans ?_
      simpa [hb] using List.perm_middle.symm
    | some request =>
      have hreply : reply env body = handleOneRequest env request := by
        unfold business at hb
        unfold reply
        cases hp : env.request.parse body with
        | none => simp [hp] at hb
        | some q =>
          rw [hp] at hb
          dsimp only at hb ⊢
          split_ifs at hb with hbeat
          obtain rfl := Option.some.inj hb
          rw [if_neg hbeat]
      rw [List.map_cons, hreply, List.filterMap_cons, hb]
      simpa [hb] using ih

/-- **The two modes give the same responses.**  The inline path and the
thread-pool path give a request the same response.  So two sessions that read
the same frames, one without a pool and one in which the task of each dispatched
request is completed once, in any order and at any time, queue the same frames
up to their order if both stay open. -/
theorem paths_agree (inline : Env) (fd : ℤ) (token : ℕ) :
    (∀ sequence request, (runTask inline.registry fd token
        (dispatchRequest sequence request)).response = handleOneRequest inline request) ∧
    (inline.dispatcher = none →
      ∀ (dispatcher : DispatchRequest → Except String Unit) (es fs : List WriteEvent)
        (o o' p p' : Outbound), o.emitted = [] → p.emitted = [] → p.handed = [] →
        exec (writeStep inline) o es = some o' →
        exec (writeStep { inline with dispatcher := some dispatcher }) p fs = some p' →
        WriteEvent.completions es = [] → WriteEvent.bodies es = WriteEvent.bodies fs →
        (WriteEvent.completions fs).Perm (p'.handed.mapIdx fun i request =>
          runTask inline.registry fd token (dispatchRequest (p.nextRequestSequence + i + 1)
            request)) →
        o'.queued.Perm p'.queued) := by
  have hresponse : ∀ sequence request, (runTask inline.registry fd token
      (dispatchRequest sequence request)).response = handleOneRequest inline request := by
    intro sequence request
    rw [runTask_response, handleOneRequest_eq]
  refine ⟨hresponse, ?_⟩
  intro hd dispatcher es fs o o' p p' ho hp hhanded hes hfs hnone hbodies htasks
  have hrequests := (exec_emitted hfs).2.2
  rw [hhanded, List.nil_append] at hrequests
  have hresponses : ((WriteEvent.completions fs).map CompletedResponse.response).Perm
      (((WriteEvent.bodies fs).filterMap (business inline)).map (handleOneRequest inline)) := by
    refine (htasks.map _).trans (List.Perm.of_eq ?_)
    rw [hrequests]
    refine List.ext_getElem? fun i => ?_
    simp only [List.getElem?_map, List.getElem?_mapIdx, Option.map_map]
    exact congrArg (fun f => Option.map f _) (funext fun request => hresponse _ request)
  rw [exec_queued ho hes, exec_queued hp hfs, filterMap_response_inline hd hnone, hbodies]
  refine List.Perm.map _ ((map_reply_perm inline _).trans ?_)
  have hpool := filterMap_response_pool
    (rfl : ({ inline with dispatcher := some dispatcher } : Env).dispatcher.isSome = true) fs
  exact (hresponses.symm.append_right _).trans hpool.symm

open Connection in
/-- The request of `Session` answered in both modes. -/
theorem paths_agree_sample :
    ∃ o p, exec (writeStep sampleEnv) {} [.frame sampleBody] = some o ∧
      exec (writeStep { sampleEnv with dispatcher := some fun _ => .ok () }) {}
        [.frame sampleBody, .completed ⟨7, 1, "1", 1, "method not found: S.M", []⟩] = some p ∧
      o.queued.Perm p.queued := by
  obtain ⟨o, ho⟩ := Option.isSome_iff_exists.1
    (rfl : (exec (writeStep sampleEnv) {} [.frame sampleBody]).isSome = true)
  obtain ⟨p, hp⟩ := Option.isSome_iff_exists.1
    (rfl : (exec (writeStep { sampleEnv with dispatcher := some fun _ => .ok () }) {}
      [.frame sampleBody, .completed ⟨7, 1, "1", 1, "method not found: S.M", []⟩]).isSome = true)
  have hhanded := (exec_emitted hp).2.2
  refine ⟨o, p, ho, hp,
    (paths_agree sampleEnv 7 1).2 rfl _ _ _ _ _ _ _ rfl rfl rfl ho hp rfl rfl ?_⟩
  rw [hhanded]
  exact List.Perm.refl _

end Server
end MiniRpc
