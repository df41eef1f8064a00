/-
# The MCP adapter

`McpAdapter` of `src/codegraph/mcp_adapter.cpp`, and the table of tools in
`src/codegraph/codegraph_rpc_service.cpp`: lines of JSON-RPC come in, and each
request is answered by a line, a tool call after a call of `RpcClient`.

`nlohmann::json` is a `JsonLibrary`.  The server is free: a `Turn` is a line of
the input with what `RpcClient::Call` would return for any call that is made for
it, and no line makes more than one.  What `HandleRequest` throws is caught by
`Run`; what `dump` throws there is not.
-/

import MiniRpc.Common.RpcError
import MiniRpc.Library.Json

namespace MiniRpc
namespace Codegraph

open Json (text)

/-! ### The tools -/

structure ToolSpec where
  mcpName : String
  rpcMethod : String
  description : String
  inputSchema : Json

/-- `ObjectSchema`. -/
def objectSchema (properties : List (String × Json)) (required : List String) : Json :=
  .object ([("type", text "object"), ("properties", .object properties)] ++
    if required = [] then [] else [("required", .array (required.map text))])

/-- `StringProperty`. -/
def stringProperty (description : String) : Json :=
  .object [("type", text "string"), ("description", text description)]

/-- `IntegerProperty`. -/
def integerProperty (description : String) (defaultValue : ℤ) : Json :=
  .object [("type", text "integer"), ("description", text description),
    ("default", .integer defaultValue)]

/-- `CodeGraphToolSpecs`. -/
def codeGraphToolSpecs : List ToolSpec :=
  [{ mcpName := "codegraph_search"
     rpcMethod := "Search"
     description := "Search for code symbols by name and return matching symbols."
     inputSchema := objectSchema
       [("query", stringProperty "Symbol name or search query"),
        ("limit", integerProperty "Max results" 20)] ["query"] },
   { mcpName := "codegraph_context"
     rpcMethod := "Context"
     description := "Get rich context for a symbol: definition, callers and callees."
     inputSchema := objectSchema
       [("symbol", stringProperty "Symbol name"),
        ("limit", integerProperty "Max results" 10)] ["symbol"] },
   { mcpName := "codegraph_callers"
     rpcMethod := "Callers"
     description := "Find callers of a function or method."
     inputSchema := objectSchema
       [("symbol", stringProperty "Symbol name"),
        ("max_depth", integerProperty "Max traversal depth" 3)] ["symbol"] },
   { mcpName := "codegraph_callees"
     rpcMethod := "Callees"
     description := "Find callees of a function or method."
     inputSchema := objectSchema
       [("symbol", stringProperty "Symbol name"),
        ("max_depth", integerProperty "Max traversal depth" 3)] ["symbol"] },
   { mcpName := "codegraph_impact"
     rpcMethod := "Impact"
     description := "Analyze the impact radius of changing a symbol."
     inputSchema := objectSchema
       [("symbol", stringProperty "Symbol name"),
        ("max_depth", integerProperty "Max traversal depth" 5)] ["symbol"] },
   { mcpName := "codegraph_node"
     rpcMethod := "Node"
     description := "Get details for a single symbol."
     inputSchema := objectSchema [("symbol", stringProperty "Symbol name")] ["symbol"] },
   { mcpName := "codegraph_status"
     rpcMethod := "Status"
     description := "Get CodeGraph service and index statistics."
     inputSchema := objectSchema [] [] },
   { mcpName := "codegraph_files"
     rpcMethod := "Files"
     description := "List indexed files."
     inputSchema := objectSchema [] [] }]

/-- `FindToolByMcpName`. -/
def findToolByMcpName (name : ByteArray) : Option ToolSpec :=
  codeGraphToolSpecs.find? fun spec => isText name spec.mcpName

/-! ### Requests and responses -/

/-- What is thrown inside `HandleRequest`: a `std::invalid_argument`, or another
`std::exception`. -/
inductive Thrown where
  | invalidArgument (what : String)
  | other (what : String)
  deriving DecidableEq, Repr

/-- `JsonRpcId`. -/
def jsonRpcId (request : Json) : Json := (request.find "id").getD .null

/-- `IsNotification`. -/
def isNotification (request : Json) : Bool :=
  match request.find "id" with
  | none => true
  | some id => id.isNull

/-- `RequiredStringParam`. -/
def requiredStringParam (params : Json) (key : String) : Except String ByteArray :=
  match params.find key with
  | some (.string s) =>
    if s.isEmpty then .error ("missing non-empty string param '" ++ key ++ "'") else .ok s
  | _ => .error ("missing non-empty string param '" ++ key ++ "'")

/-- `RequestParamsObject`. -/
def requestParamsObject (request : Json) : Except String Json :=
  match request.find "params" with
  | none => .ok (.object [])
  | some params =>
    if params.isNull then .ok (.object [])
    else if params.isObject then .ok params
    else .error "params must be an object"

/-- `category().name()`. -/
def categoryName : Common.Category → String
  | .rpc => "rpc"
  | .other name => name

/-- `RpcFailureText`. -/
def rpcFailureText (result : RpcCallResult) : String :=
  "RPC error: code=" ++ toString result.status.code.value ++
    " category=" ++ categoryName result.status.code.category ++
    " message=" ++ result.status.message

/-- `MakeResponse`. -/
def makeResponse (id result : Json) : Json :=
  .object [("jsonrpc", text "2.0"), ("result", result), ("id", id)]

/-- `MakeError`. -/
def makeError (id : Json) (code : ℤ) (message : ByteArray) : Json :=
  .object [("jsonrpc", text "2.0"),
    ("error", .object [("code", .integer code), ("message", .string message)]), ("id", id)]

/-- `MakeToolResult`. -/
def makeToolResult (answer : ByteArray) (isError : Bool) : Json :=
  .object ([("content",
      .array [.object [("type", text "text"), ("text", .string answer)]])] ++
    if isError then [("isError", .boolean true)] else [])

/-- `HandleInitialize`. -/
def handleInitialize (request : Json) : Json :=
  makeResponse (jsonRpcId request) (.object
    [("protocolVersion", text "2024-11-05"),
     ("capabilities", .object [("tools", .object [])]),
     ("serverInfo", .object
       [("name", text "codegraph-mini-rpc-adapter"), ("version", text "0.1.0")])])

/-- `HandleToolsList`. -/
def handleToolsList (request : Json) : Json :=
  makeResponse (jsonRpcId request) (.object [("tools", .array (codeGraphToolSpecs.map fun spec =>
    .object [("name", text spec.mcpName), ("description", text spec.description),
      ("inputSchema", spec.inputSchema)]))])

/-- `HandleToolsCall` up to the call: the tool and its arguments, or the response
that is returned at once. -/
def toolCall (request : Json) : Except Json (ToolSpec × Json) :=
  let id := jsonRpcId request
  match requestParamsObject request with
  | .error what => .error (makeError id (-32602) what.toByteArray)
  | .ok params =>
    match requiredStringParam params "name" with
    | .error what => .error (makeError id (-32602) what.toByteArray)
    | .ok toolName =>
      match findToolByMcpName toolName with
      | none =>
        .error (makeResponse id (makeToolResult ("Unknown tool: ".toByteArray ++ toolName) true))
      | some spec =>
        match params.find "arguments" with
        | none => .ok (spec, .object [])
        | some arguments =>
          if arguments.isNull then .ok (spec, .object [])
          else if arguments.isObject then .ok (spec, arguments)
          else .error (makeError id (-32602) "arguments must be an object".toByteArray)

/-- `RpcClient::Call`: service, method and payload. -/
abbrev RpcCall := String → String → Bytes → RpcCallResult

/-- `HandleToolsCall`. -/
def handleToolsCall (lib : JsonLibrary) (call : RpcCall) (request : Json) : Except Thrown Json :=
  match toolCall request with
  | .error response => .ok response
  | .ok (spec, arguments) =>
    match lib.dump arguments with
    | .error what => .error (.other what)
    | .ok payload =>
      let result := call "CodeGraph" spec.rpcMethod payload.data.toList
      .ok (makeResponse (jsonRpcId request)
        (if result.status.ok then
          makeToolResult ⟨result.responsePayload.toArray⟩ false
        else makeToolResult (rpcFailureText result).toByteArray true))

/-- `HandleRequest`. -/
def handleRequest (lib : JsonLibrary) (call : RpcCall) (request : Json) : Except Thrown Json :=
  if !request.isObject then .error (.invalidArgument "request must be an object")
  else
    let id := jsonRpcId request
    match request.value "method" "" with
    | .error what => .error (.other what)
    | .ok method =>
      if method.isEmpty then .ok (makeError id (-32600) "missing method".toByteArray)
      else if isText method "initialize" then .ok (handleInitialize request)
      else if isText method "tools/list" then .ok (handleToolsList request)
      else if isText method "tools/call" then handleToolsCall lib call request
      else if isText method "notifications/initialized" then
        .ok (makeResponse id (.object []))
      else .ok (makeError id (-32601) ("Method not found: ".toByteArray ++ method))

/-! ### The loop -/

/-- A line of the input, and how the server behaves when it is read. -/
structure Turn where
  line : ByteArray
  call : RpcCall

/-- The body of the loop in `Run` up to the output: what the line is answered,
`none` for a notification. -/
def respond (lib : JsonLibrary) (turn : Turn) : Option Json :=
  match lib.parse turn.line with
  | .error (.parseError what) =>
    some (makeError .null (-32700) ("Parse error: ".toByteArray ++ what))
  | .error (.outOfRange what) =>
    some (makeError .null (-32603) ("Internal error: ".toByteArray ++ what))
  | .ok request =>
    if isNotification request then none
    else
      match handleRequest lib turn.call request with
      | .ok response => some response
      | .error (.invalidArgument what) =>
        some (makeError .null (-32600) ("Invalid request: " ++ what).toByteArray)
      | .error (.other what) =>
        some (makeError .null (-32603) ("Internal error: " ++ what).toByteArray)

/-- A response and its line. -/
structure Written where
  response : Json
  line : ByteArray

/-- What `Run` has written, and what it has thrown. -/
structure Output where
  written : List Written := []
  thrown : Option String := none

/-- `Run`. -/
def run (lib : JsonLibrary) : List Turn → Output
  | [] => {}
  | turn :: turns =>
    if turn.line.isEmpty then run lib turns
    else
      match respond lib turn with
      | none => run lib turns
      | some response =>
        match lib.dump response with
        | .error what => { thrown := some what }
        | .ok line =>
          let rest := run lib turns
          { rest with written := ⟨response, line⟩ :: rest.written }

end Codegraph
end MiniRpc
