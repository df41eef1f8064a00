/-
# The empty backend

`EmptyCodeGraphBackend` of `src/codegraph/codegraph_rpc_service.cpp`, which answers every
method without a database: it reads the arguments like the others, and sends them back.
-/

import MiniRpc.Codegraph.Arguments
import MiniRpc.Codegraph.McpAdapter

namespace MiniRpc
namespace Codegraph
namespace EmptyBackend

open Json (text)

/-- `OptionalInt`. -/
def optionalInt : IntReader := Codegraph.optionalInt

/-- The numbers that may be sent. -/
def searchLimit : IntField := ⟨"limit", 20, 1, 200⟩
def contextLimit : IntField := ⟨"limit", 10, 1, 200⟩
def maxDepth (defaultValue : Int32) : IntField := ⟨"max_depth", defaultValue, 1, 20⟩

/-- `EmptyBackendEnvelope`. -/
def envelope (method : String) (args : RequestArgs) : List (String × Json) :=
  [("backend", text "empty"), ("method", text method), ("args", args.json),
    ("warning", text ("CodeGraph backend is not configured yet; transport and MCP " ++
      "adapter are ready"))]

/-- `EmptyNodeResult`. -/
def nodeResult (method : String) (args : RequestArgs) : List (String × Json) :=
  envelope method args ++ [("nodes", .array []), ("edges", .array [])]

/-- `Status`. -/
def status : Json :=
  .object [("service", text "CodeGraph"), ("backend", text "empty"), ("ready", .boolean true),
    ("transport", text "mini_rpc"),
    ("tools", .array (codeGraphToolSpecs.map fun spec =>
      .object [("mcp_name", text spec.mcpName),
        ("rpc_method", text ("CodeGraph." ++ spec.rpcMethod))])),
    ("note", text "MVP transport is live; attach a real CodeGraph backend next")]

/-- `Search`. -/
def search (readInt : IntReader) (args : RequestArgs) : Except Failure Json := do
  let query ← requiredString args "Search" "query"
  let limit ← readInt args.json "Search" searchLimit
  return .object (envelope "Search" args ++ [("query", text query),
    ("limit", .integer limit.toInt), ("nodes", .array [])])

/-- `Context`. -/
def context (readInt : IntReader) (args : RequestArgs) : Except Failure Json := do
  let symbol ← requiredString args "Context" "symbol"
  let _ ← readInt args.json "Context" contextLimit
  return .object (envelope "Context" args ++ [("symbol", text symbol), ("callers", .array []),
    ("callees", .array []), ("edges", .array [])])

/-- The branch of `Callers`, `Callees` and `Impact`, each with its default. -/
def traverseFrom (readInt : IntReader) (method : String) (defaultDepth : Int32)
    (args : RequestArgs) : Except Failure Json := do
  let symbol ← requiredString args method "symbol"
  let _ ← readInt args.json method (maxDepth defaultDepth)
  return .object (nodeResult method args ++ [("symbol", text symbol)])

/-- `Callers`. -/
def callers (readInt : IntReader) : RequestArgs → Except Failure Json :=
  traverseFrom readInt "Callers" 3

/-- `Callees`. -/
def callees (readInt : IntReader) : RequestArgs → Except Failure Json :=
  traverseFrom readInt "Callees" 3

/-- `Impact`. -/
def impact (readInt : IntReader) : RequestArgs → Except Failure Json :=
  traverseFrom readInt "Impact" 5

/-- `Node`. -/
def node (args : RequestArgs) : Except Failure Json := do
  let symbol ← requiredString args "Node" "symbol"
  return .object (envelope "Node" args ++ [("symbol", text symbol), ("node", .null)])

/-- `Files`. -/
def files (args : RequestArgs) : Json :=
  .object (envelope "Files" args ++ [("files", .array [])])

/-- `Invoke`. -/
def invoke (readInt : IntReader) (method : String) (args : RequestArgs) : Except Failure Json :=
  if method = "Status" then .ok status
  else if method = "Search" then search readInt args
  else if method = "Context" then context readInt args
  else if method = "Callers" then callers readInt args
  else if method = "Callees" then callees readInt args
  else if method = "Impact" then impact readInt args
  else if method = "Node" then node args
  else if method = "Files" then .ok (files args)
  else
    .error (.rpcError .methodNotFound ("unknown CodeGraph method: " ++ method).toByteArray)

end EmptyBackend
end Codegraph
end MiniRpc
