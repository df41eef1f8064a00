/-
# The adapter and the service behind it

`McpAdapter` (`src/codegraph/mcp_adapter.cpp`) stands between an MCP client and the
backend of the CodeGraph service, which runs in another process
(`src/codegraph/codegraph_rpc_service.cpp`).  The arguments of a tool go through `dump`,
the payload of an `RpcRequest`, the registry and `ParsePayload`; the answer comes back as
the text of `dump(2)` in the payload of an `RpcResponse`, or as an error with a code and a
message.

`direct` is the server that the two processes together are meant to be: it answers a tool
call with what the backend returns or throws, and needs no RPC for any other line.
`run_eq_direct` says that the adapter writes what it writes.
-/

import MiniRpc.Codegraph.Answers
import MiniRpc.Codegraph.RpcService
import MiniRpc.EndToEnd.ServerEnd
import MiniRpc.Server.Outcomes

namespace MiniRpc

namespace EndToEnd

open Codegraph Server Client

/-! ### The server that is meant -/

/-- What becomes of a call that is made for a line: it reaches the service, with its
backend at the time, or it fails in the client. -/
inductive Reach where
  | served (backend : Backend)
  | failed (result : RpcCallResult)

/-- A line, and what becomes of a call for it. -/
structure ServedLine where
  line : ByteArray
  reach : Reach

/-- A tool that a request asks for, with its arguments. -/
structure AskedTool where
  id : Json
  tool : ToolSpec
  args : RequestArgs

variable {svc : RpcService}

/-- The tool that a line asks for, if it does. -/
def askedTool (svc : RpcService) (line : ByteArray) : Option AskedTool :=
  match hparse : svc.lib.parse line with
  | .error _ => none
  | .ok request =>
    if isNotification request then none
    else
      match request.value "method" "" with
      | .error _ => none
      | .ok method =>
        if isText method "tools/call" then
          match hcall : toolCall request with
          | .error _ => none
          | .ok (tool, arguments) => some ⟨jsonRpcId request, tool, arguments,
              (toolCall_spec (svc.lawful.isUtf8_of_parse line request hparse)).2 _ _ hcall⟩
        else none

/-- What the client is told of what `Invoke` or `dump(2)` throws. -/
def failureText (svc : RpcService) : Failure → String
  | .rpcError code message => rpcFailureText (.failure code (svc.what code message))
  | .exception what => rpcFailureText (.failure .internalError ("handler exception: " ++ what))

/-- The result of a tool. -/
def toolResult (svc : RpcService) (reach : Reach) (asked : AskedTool) : Json :=
  match reach with
  | .failed result => makeToolResult (rpcFailureText result).toByteArray true
  | .served backend =>
    match backend.invoke asked.tool.rpcMethod asked.args with
    | .error failure => makeToolResult (failureText svc failure).toByteArray true
    | .ok result =>
      match svc.dumpIndented result with
      | .error what => makeToolResult (failureText svc (.exception what)).toByteArray true
      | .ok answer => makeToolResult answer false

/-- What the line is answered; without a tool no call is made. -/
def answerDirectly (svc : RpcService) (x : ServedLine) : Option Json :=
  match askedTool svc x.line with
  | some asked => some (makeResponse asked.id (toolResult svc x.reach asked))
  | none => respond svc.lib ⟨x.line, fun _ _ _ => default⟩

/-- The responses are written until `dump` throws. -/
def write (lib : JsonLibrary) : List Json → Output
  | [] => {}
  | response :: responses =>
    match lib.dump response with
    | .error what => { thrown := some what }
    | .ok line =>
      let rest := write lib responses
      { rest with written := ⟨response, line⟩ :: rest.written }

/-- The server that is meant. -/
def direct (svc : RpcService) (xs : List ServedLine) : Output :=
  write svc.lib (xs.filterMap fun x => if x.line.isEmpty then none else answerDirectly svc x)

/-- How the adapter meets a line: a call that reaches the service is answered by a server
where `RegisterCodeGraphService` has succeeded, and any other fails. -/
def Meets (svc : RpcService) (turn : Codegraph.Turn) (x : ServedLine) : Prop :=
  turn.line = x.line ∧
    match x.reach with
    | .served backend => ∃ (r : ServiceRegistry) (env : LoopEnv),
        (svc.registerCodeGraphService backend r).2 = true ∧
          env.registry = (svc.registerCodeGraphService backend r).1 ∧
          ∀ service method payload, ∃ id,
            turn.call service method payload = mapped (serve env ⟨id, service, method, payload⟩)
    | .failed result => result.status.ok = false ∧
        ∀ service method payload, turn.call service method payload = result

/-! ### The arguments on their way -/

/-- What `RequestParamsObject` returns is an object that comes from the request. -/
theorem read_requestParamsObject {lib : JsonLibrary} {request params : Json}
    (h : lib.Read request) (hparams : requestParamsObject request = .ok params) :
    lib.Read params := by
  unfold requestParamsObject at hparams
  split at hparams
  · obtain rfl := Except.ok.inj hparams
    exact .object
  · rename_i found hfind
    split_ifs at hparams
    · obtain rfl := Except.ok.inj hparams
      exact .object
    · obtain rfl := Except.ok.inj hparams
      exact h.member hfind

/-- The arguments of a tool come from the request, are an object, and the tool is in the
table. -/
theorem read_of_toolCall {lib : JsonLibrary} {request arguments : Json} {tool : ToolSpec}
    (h : lib.Read request) (hcall : toolCall request = .ok (tool, arguments)) :
    lib.Read arguments ∧ arguments.isObject = true ∧ tool ∈ codeGraphToolSpecs := by
  unfold toolCall at hcall
  dsimp only at hcall
  split at hcall
  · cases hcall
  · rename_i params hparams
    have hread := read_requestParamsObject h hparams
    split at hcall
    · cases hcall
    · split at hcall
      · cases hcall
      · rename_i spec hspec
        have hmem : spec ∈ codeGraphToolSpecs := List.mem_of_find?_eq_some hspec
        split at hcall
        · obtain ⟨rfl, rfl⟩ := Prod.mk.inj (Except.ok.inj hcall)
          exact ⟨.object, rfl, hmem⟩
        · rename_i found hfind
          split_ifs at hcall with hnull hobject
          · obtain ⟨rfl, rfl⟩ := Prod.mk.inj (Except.ok.inj hcall)
            exact ⟨.object, rfl, hmem⟩
          · obtain ⟨rfl, rfl⟩ := Prod.mk.inj (Except.ok.inj hcall)
            exact ⟨hread.member hfind, hobject, hmem⟩

/-- **The service gets the arguments that the adapter has written.** -/
theorem handleRpcCall_dump (hreads : svc.lib.ReadsBack) {backend : Backend} {args : RequestArgs}
    (hread : svc.lib.Read args.json) (hobject : args.json.isObject = true) {payload : ByteArray}
    (hdump : svc.lib.dump args.json = .ok payload) (method : String) :
    svc.handleRpcCall backend method payload =
      match backend.invoke method args with
      | .error failure => .error failure
      | .ok result => (svc.dumpIndented result).mapError .exception := by
  have hparse := hreads.parse_dump _ _ hread hdump
  have hargs : parsePayload svc.lib method payload = .ok args.json := by
    unfold parsePayload
    rw [if_neg (by rw [hreads.parse_ne_empty _ _ hparse]; nofun), hparse]
    dsimp only
    rw [if_pos hobject]
  unfold RpcService.handleRpcCall
  split
  · rename_i failure hfailure
    rw [hargs] at hfailure
    cases hfailure
  · rename_i found hfound
    obtain rfl := Except.ok.inj (hargs.symm.trans hfound)
    rfl

/-- What the adapter makes of the result of a call. -/
def adapted (result : RpcCallResult) : Json :=
  if result.status.ok then makeToolResult ⟨result.responsePayload.toArray⟩ false
  else makeToolResult (rpcFailureText result).toByteArray true

/-- **What comes back from the service** tells the client what `Invoke` has returned or
thrown. -/
theorem adapted_served (hreads : svc.lib.ReadsBack) {backend : Backend} {asked : AskedTool}
    (hread : svc.lib.Read asked.args.json) (hobject : asked.args.json.isObject = true)
    {payload : ByteArray} (hdump : svc.lib.dump asked.args.json = .ok payload) (id : String) :
    adapted (mapped (answer (some (svc.handler backend asked.tool.rpcMethod))
      ⟨id, "CodeGraph", asked.tool.rpcMethod, payload.data.toList⟩)) =
        toolResult svc (.served backend) asked := by
  have hcall := @handleRpcCall_dump svc hreads backend _ hread hobject _ hdump
    asked.tool.rpcMethod
  unfold toolResult answer RpcService.handler
  dsimp only
  rw [Array.toArray_toList, hcall]
  cases hinvoke : backend.invoke asked.tool.rpcMethod asked.args with
  | error failure =>
    have herror := backend.throwsErrors _ _ failure hinvoke
    cases failure with
    | rpcError code message => cases code <;> first | rfl | cases herror
    | exception what => rfl
  | ok result =>
    dsimp only
    cases svc.dumpIndented result with
    | error what => rfl
    | ok answer =>
      simp only [Except.mapError]
      rfl

/-! ### The adapter -/

theorem isObject_of_value {request : Json} {key fallback : String} {member : ByteArray}
    (h : request.value key fallback = .ok member) : request.isObject = true := by
  cases request with
  | object members => rfl
  | _ => cases h

/-- Without a call of a tool the server does not matter. -/
theorem handleRequest_congr {lib : JsonLibrary} {request : Json}
    (h : request.value "method" "" = .ok "tools/call".toByteArray →
      ∃ response, toolCall request = .error response) (call call' : RpcCall) :
    handleRequest lib call request = handleRequest lib call' request := by
  unfold handleRequest
  cases hvalue : request.value "method" "" with
  | error what => rfl
  | ok method =>
    by_cases hmethod : isText method "tools/call" = true
    · rw [isText_iff] at hmethod
      subst hmethod
      obtain ⟨response, hresponse⟩ := h hvalue
      have htools : handleToolsCall lib call request = handleToolsCall lib call' request := by
        simp only [handleToolsCall, hresponse]
      simp only [htools]
    · simp only [hmethod]
      rfl

/-- **The call of a tool.** -/
theorem handleRequest_tool {lib : JsonLibrary} {request arguments : Json} {tool : ToolSpec}
    {payload : ByteArray} (hvalue : request.value "method" "" = .ok "tools/call".toByteArray)
    (hcall : toolCall request = .ok (tool, arguments)) (hdump : lib.dump arguments = .ok payload)
    (call : RpcCall) :
    handleRequest lib call request = .ok (makeResponse (jsonRpcId request)
      (adapted (call "CodeGraph" tool.rpcMethod payload.data.toList))) := by
  have hempty : "tools/call".toByteArray.isEmpty = false := by decide
  have hinitialize : isText "tools/call".toByteArray "initialize" = false := by decide
  have hlist : isText "tools/call".toByteArray "tools/list" = false := by decide
  have htools : isText "tools/call".toByteArray "tools/call" = true := by decide
  unfold handleRequest
  simp only [isObject_of_value hvalue, hvalue, hempty, hinitialize, hlist, htools, Bool.not_true,
    Bool.false_eq_true, if_false, if_true, handleToolsCall, hcall, hdump]
  rfl

/-- **A line asks for a tool, or the server does not matter.** -/
theorem respond_cases (svc : RpcService) (line : ByteArray) :
    (askedTool svc line = none ∧
      ∀ call, respond svc.lib ⟨line, call⟩ = respond svc.lib ⟨line, fun _ _ _ => default⟩) ∨
    ∃ asked request, askedTool svc line = some asked ∧ svc.lib.parse line = .ok request ∧
      toolCall request = .ok (asked.tool, asked.args.json) ∧
      ∀ call payload, svc.lib.dump asked.args.json = .ok payload →
        respond svc.lib ⟨line, call⟩ = some (makeResponse asked.id
          (adapted (call "CodeGraph" asked.tool.rpcMethod payload.data.toList))) := by
  unfold askedTool
  split
  · rename_i failure hparse
    refine Or.inl ⟨rfl, fun call => ?_⟩
    cases failure <;> simp only [respond, hparse]
  · rename_i request hparse
    by_cases hnotification : isNotification request = true
    · rw [if_pos hnotification]
      exact Or.inl ⟨rfl, fun call => by simp only [respond, hparse, hnotification, if_true]⟩
    rw [if_neg hnotification]
    have hrespond : ∀ call call', handleRequest svc.lib call request =
        handleRequest svc.lib call' request →
        respond svc.lib ⟨line, call⟩ = respond svc.lib ⟨line, call'⟩ := by
      intro call call' hsame
      simp only [respond, hparse, hnotification, hsame]
    split
    · rename_i what hvalue
      refine Or.inl ⟨rfl, fun call => hrespond _ _ (handleRequest_congr (fun htools => ?_) _ _)⟩
      rw [hvalue] at htools
      cases htools
    · rename_i method hvalue
      by_cases hmethod : isText method "tools/call" = true
      · rw [if_pos hmethod]
        rw [isText_iff] at hmethod
        subst hmethod
        split
        · rename_i response hcall
          exact Or.inl ⟨rfl, fun call =>
            hrespond _ _ (handleRequest_congr (fun _ => ⟨response, hcall⟩) _ _)⟩
        · rename_i tool arguments hcall
          refine Or.inr ⟨_, request, rfl, hparse, hcall, fun call payload hdump => ?_⟩
          simp only [respond, hparse, hnotification, handleRequest_tool hvalue hcall hdump]
          rfl
      · rw [if_neg hmethod]
        refine Or.inl ⟨rfl, fun call => hrespond _ _ (handleRequest_congr (fun htools => ?_) _ _)⟩
        rw [hvalue] at htools
        exact absurd (isText_iff.2 (Except.ok.inj htools)) hmethod

/-- **One line**: the adapter answers what the server that is meant answers. -/
theorem respond_eq (hreads : svc.lib.ReadsBack) {turn : Codegraph.Turn} {x : ServedLine}
    (hmeets : Meets svc turn x) : respond svc.lib turn = answerDirectly svc x := by
  obtain ⟨hline, hreach⟩ := hmeets
  obtain ⟨line, call⟩ := turn
  obtain rfl : line = x.line := hline
  unfold answerDirectly
  rcases respond_cases svc x.line with
    ⟨hnone, hsame⟩ | ⟨asked, request, hasked, hparse, hcall, hresp⟩
  · rw [hnone, hsame]
  · obtain ⟨hread, hobject, htool⟩ := read_of_toolCall (.parsed hparse) hcall
    obtain ⟨payload, hdump⟩ := (svc.lawful.dump_ok_iff _).2 asked.args.isUtf8
    rw [hasked, hresp call payload hdump]
    dsimp only
    congr 2
    cases hx : x.reach with
    | failed result =>
      rw [hx] at hreach
      obtain ⟨hfailed, hcalled⟩ := hreach
      dsimp only at hcalled
      rw [hcalled, adapted, hfailed]
      rfl
    | served backend =>
      rw [hx] at hreach
      obtain ⟨r, env, hregistered, henv, hcalled⟩ := hreach
      obtain ⟨id, hcalled⟩ := hcalled "CodeGraph" asked.tool.rpcMethod payload.data.toList
      dsimp only at hcalled
      have hservice : "CodeGraph" ≠ kHeartbeatServiceName := by decide
      rw [hcalled, serve, if_neg hservice]
      dsimp only
      rw [henv, svc.find_registerCodeGraphService backend hregistered htool]
      exact adapted_served hreads hread hobject hdump id

/-- What the adapter writes is what `respond` gives for its lines. -/
theorem run_eq_write (lib : JsonLibrary) (turns : List Codegraph.Turn) :
    run lib turns = write lib (turns.filterMap fun turn =>
      if turn.line.isEmpty then none else respond lib turn) := by
  induction turns with
  | nil => rfl
  | cons turn turns ih =>
    rw [run, List.filterMap_cons]
    by_cases hline : turn.line.isEmpty = true
    · rw [if_pos hline, if_pos hline]
      exact ih
    · rw [if_neg hline, if_neg hline]
      cases respond lib turn with
      | none => exact ih
      | some response =>
        cases hdump : lib.dump response with
        | error what => simp only [write, hdump]
        | ok text => simp only [write, hdump, ih]

/-- **The adapter and the service behind it are the server that is meant.**  For every
sequence of lines, where the call that a line makes reaches a server with the service, whose
backend may be another one each time, or fails in the client, `Run` writes and throws what
the server does that answers the calls of tools itself: with the text of what `Invoke`
returns, or the code and message of what it throws. -/
theorem run_eq_direct (hreads : svc.lib.ReadsBack) {turns : List Codegraph.Turn}
    {xs : List ServedLine} (hmeets : List.Forall₂ (Meets svc) turns xs) :
    run svc.lib turns = direct svc xs := by
  rw [run_eq_write, direct]
  congr 1
  induction hmeets with
  | nil => rfl
  | cons hhead _ ih =>
    rw [List.filterMap_cons, List.filterMap_cons, ih, respond_eq hreads hhead, hhead.1]

/-! ### A call of `codegraph_files` -/

namespace GatewaySample

def line : ByteArray := ("\x7b\"id\":1,\"method\":\"tools/call\"," ++
  "\"params\":\x7b\"name\":\"codegraph_files\"\x7d\x7d").toByteArray

def params : Json := .object [("name", Json.text "codegraph_files")]

def request : Json :=
  .object [("id", .integer 1), ("method", Json.text "tools/call"), ("params", params)]

/-- What `dump(2)` writes of the answer of the empty backend. -/
def answer : ByteArray := ("\x7b\n  \"args\": \x7b\x7d,\n  \"backend\": \"empty\",\n" ++
  "  \"files\": [],\n  \"method\": \"Files\",\n  \"warning\": \"CodeGraph backend is not " ++
  "configured yet; transport and MCP adapter are ready\"\n\x7d").toByteArray

/-- The line that the adapter writes. -/
def written : ByteArray := ("\x7b\"id\":1,\"jsonrpc\":\"2.0\",\"result\":\x7b\"content\":[" ++
  "\x7b\"text\":\"\x7b\\n  \\\"args\\\": \x7b\x7d,\\n  \\\"backend\\\": \\\"empty\\\",\\n" ++
  "  \\\"files\\\": [],\\n  \\\"method\\\": \\\"Files\\\",\\n  \\\"warning\\\": \\\"CodeGraph " ++
  "backend is not configured yet; transport and MCP adapter are ready\\\"\\n\x7d\"," ++
  "\"type\":\"text\"\x7d]\x7d\x7d").toByteArray

/-- The texts that are read, with their values. -/
def texts : List (ByteArray × Json) :=
  [(line, request), ("1".toByteArray, .integer 1),
    ("\"tools/call\"".toByteArray, Json.text "tools/call"),
    ("\x7b\"name\":\"codegraph_files\"\x7d".toByteArray, params),
    ("\"codegraph_files\"".toByteArray, Json.text "codegraph_files"),
    ("\x7b\x7d".toByteArray, .object [])]

def dump : Json → ByteArray
  | .integer _ => "1".toByteArray
  | .string s => "\"".toByteArray ++ s ++ "\"".toByteArray
  | .object [] => "\x7b\x7d".toByteArray
  | .object [_] => "\x7b\"name\":\"codegraph_files\"\x7d".toByteArray
  | .object (("id", _) :: _) => line
  | _ => written

/-- The part of a JSON library that this call uses. -/
def lib : JsonLibrary where
  parse b :=
    match texts.find? fun x => x.1.data = b.data with
    | some x => .ok x.2
    | none => .error (.parseError "syntax error".toByteArray)
  dump j := if j.isUtf8 then .ok (dump j) else .error "[json.exception.type_error.316]"

theorem mem_of_parse {b : ByteArray} {j : Json} (h : lib.parse b = .ok j) : (b, j) ∈ texts := by
  simp only [lib] at h
  split at h
  · rename_i x hx
    obtain rfl := Except.ok.inj h
    have hfound := List.find?_some hx
    have hb : x.1 = b := ByteArray.ext (of_decide_eq_true hfound)
    exact hb ▸ List.mem_of_find?_eq_some hx
  · cases h

theorem lawful : lib.Lawful where
  isUtf8_of_parse := by
    intro b j h
    have hall : ∀ x ∈ texts, x.2.isUtf8 = true := by simp [texts, request, params]
    exact hall _ (mem_of_parse h)
  dump_ok_iff := by
    intro j
    simp only [lib]
    constructor
    · rintro ⟨found, hfound⟩
      split_ifs at hfound with hutf8
      exact hutf8
    · intro hutf8
      exact ⟨dump j, if_pos hutf8⟩

/-- A member is one of the list. -/
theorem mem_of_find {members : List (String × Json)} {key : String} {j : Json}
    (h : (Json.object members).find key = some j) : (key, j) ∈ members := by
  obtain ⟨before, after, rfl, -⟩ := List.lookup_eq_some_iff.1 h
  exact List.mem_append_right _ List.mem_cons_self

/-- The values that come from these texts. -/
theorem mem_of_read {j : Json} (h : lib.Read j) : j ∈ texts.map Prod.snd := by
  induction h with
  | parsed hparse => exact List.mem_map_of_mem (mem_of_parse hparse)
  | @member key j j' _ hfind ih =>
    simp only [texts, List.map_cons, List.map_nil, List.mem_cons, List.not_mem_nil,
      or_false] at ih ⊢
    rcases ih with rfl | rfl | rfl | rfl | rfl | rfl
    · have hmem := mem_of_find hfind
      simp only [List.mem_cons, Prod.mk.injEq, List.not_mem_nil, or_false] at hmem
      rcases hmem with ⟨-, rfl⟩ | ⟨-, rfl⟩ | ⟨-, rfl⟩ <;> simp
    · cases hfind
    · cases hfind
    · have hmem := mem_of_find hfind
      simp only [List.mem_cons, Prod.mk.injEq, List.not_mem_nil, or_false] at hmem
      obtain ⟨-, rfl⟩ := hmem
      simp
    · cases hfind
    · cases hfind
  | object => simp [texts]

theorem readsBack : lib.ReadsBack where
  parse_dump := by
    intro j found hread hdump
    have hmem := mem_of_read hread
    simp only [texts, List.map_cons, List.map_nil, List.mem_cons, List.not_mem_nil, or_false]
      at hmem
    rcases hmem with rfl | rfl | rfl | rfl | rfl | rfl <;>
      (obtain rfl := Except.ok.inj hdump; rfl)
  parse_ne_empty := by
    intro b j h
    have hall : ∀ x ∈ texts, x.1.isEmpty = false := by decide
    exact hall _ (mem_of_parse h)

/-- The service, whose answers have no other texts. -/
def service : RpcService where
  lib := lib
  lawful := lawful
  dumpIndented _ := .ok answer
  what _ message := (String.fromUTF8? message).getD ""

/-- A server with the service and the empty backend. -/
def env : LoopEnv where
  request := .only ⟨"", "", "", []⟩ []
  response := .only ⟨"", 0, "", []⟩ []
  registry := (service.registerCodeGraphService (CodeGraphBackend.empty.backend trivial) {}).1

def turn : Codegraph.Turn :=
  ⟨line, fun service method payload => mapped (serve env ⟨"1", service, method, payload⟩)⟩

def served : ServedLine := ⟨line, .served (CodeGraphBackend.empty.backend trivial)⟩

theorem meets : Meets service turn served :=
  ⟨rfl, {}, env, by decide +kernel, rfl, fun _ _ _ => ⟨"1", rfl⟩⟩

/-- What the line is answered. -/
def reply : Json := makeResponse (.integer 1) (makeToolResult answer false)

theorem answerDirectly_served : answerDirectly service served = some reply := by
  rfl

theorem dump_reply : lib.dump reply = .ok written := by
  have hutf8 : reply.isUtf8 = true := by decide +kernel
  have hdump : dump reply = written := rfl
  simp only [lib, hutf8, if_true, hdump]

end GatewaySample

/-- One line is read, and one is written. -/
theorem run_eq_direct_files :
    run GatewaySample.service.lib [GatewaySample.turn] =
        direct GatewaySample.service [GatewaySample.served] ∧
      (direct GatewaySample.service [GatewaySample.served]).written.map Written.line =
        [GatewaySample.written] := by
  have hreads : GatewaySample.service.lib.ReadsBack := GatewaySample.readsBack
  refine ⟨run_eq_direct hreads (.cons GatewaySample.meets .nil), ?_⟩
  have hline : GatewaySample.served.line.isEmpty = false := by decide +kernel
  have hdirect : direct GatewaySample.service [GatewaySample.served] =
      write GatewaySample.lib [GatewaySample.reply] := by
    rw [direct, List.filterMap_cons, hline, GatewaySample.answerDirectly_served]
    rfl
  rw [hdirect, write, GatewaySample.dump_reply]
  rfl

end EndToEnd
end MiniRpc
