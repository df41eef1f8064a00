/-
# The native backend

`CodeGraphNativeBackend` of `src/codegraph/codegraph_native_backend.{h,cpp}`: its queries
are answered by codegraph-cpp, which is not part of the repository, and brought into the
form that the adapter expects; all but two of them go through a cache.

`CodegraphCpp` is what the database answers, which does not change.  The cache is a hash
map: every call comes with the order in which it would be walked if half of it is to go,
and with the two times that the call may read from the clock.

`invokeUncached` is `Invoke` with the cache taken out of it.
-/

import MiniRpc.Codegraph.Arguments
import MiniRpc.Library.Table

namespace MiniRpc
namespace Codegraph

open Json (text)

/-! ### The form of nodes and edges -/

/-- A member gets another name, unless there is a member of that name. -/
def renameMember (old new : String) (j : Json) : Except String Json :=
  match j.find old with
  | none => .ok j
  | some item =>
    if j.contains new then .ok j
    else (j.set new item).map (Json.erase old)

/-- A member that is missing gets a value. -/
def defaultMember (key : String) (item : Json) (j : Json) : Except String Json :=
  if j.contains key then .ok j else j.set key item

/-- A member that is there is rewritten. -/
def rewriteMember (key : String) (f : Json → Except String Json) (j : Json) : Except String Json :=
  match j.find key with
  | none => .ok j
  | some item => f item >>= fun item => j.set key item

/-- `NormalizeNodeJson`. -/
def normalizeNodeJson (node : Json) : Except String Json := do
  let node ← renameMember "file" "file_path" node
  defaultMember "signature" (text "") node

/-- `NormalizeEdgeJson`. -/
def normalizeEdgeJson (edge : Json) : Except String Json := do
  let edge ← renameMember "src" "source_id" edge
  let edge ← renameMember "dst" "target_id" edge
  defaultMember "line" (.integer 0) edge

/-- `NormalizeNodesArray`. -/
def normalizeNodesArray (nodes : Json) : Except String Json :=
  (nodes.items.mapM normalizeNodeJson).map .array

/-- `NormalizeEdgesArray`. -/
def normalizeEdgesArray (edges : Json) : Except String Json :=
  (edges.items.mapM normalizeEdgeJson).map .array

/-! ### The database -/

/-- A record of a file, as `get_all_files` returns it. -/
structure FileRecord where
  path : String
  language : String
  mtime : ℤ
  size : ℤ

/-- codegraph-cpp on a database: what opening it throws, and what it answers or throws. -/
structure CodegraphCpp where
  openDatabase : Except String Unit
  getStatus : Except String Json
  getAllFiles : Except String (List FileRecord)
  searchSymbols : String → Int32 → Except String Json
  buildContext : String → Int32 → Int32 → Except String Json
  getCallers : String → Int32 → Except String Json
  getCallees : String → Int32 → Except String Json
  getImpact : String → Int32 → Except String Json

/-- What throws a `std::exception` of its own. -/
def throwing {α : Type} (x : Except String α) : Except Failure α := x.mapError .exception

/-- What the backend has besides its cache. -/
structure NativeBackend where
  lib : JsonLibrary
  cpp : CodegraphCpp
  dbPath : String

namespace NativeBackend

/-- `OptionalInt`. -/
def optionalInt : IntReader := Codegraph.optionalInt

/-! ### The queries -/

/-- `Status`. -/
def status (b : NativeBackend) : Except Failure Json := throwing do
  b.cpp.openDatabase
  let status ← b.cpp.getStatus
  let status ← status.set "backend" (text "native")
  let status ← status.set "db_path" (text b.dbPath)
  let status ← status.set "ready" (.boolean true)
  status.set "transport" (text "mini_rpc")

/-- The numbers that may be sent. -/
def filesLimit : IntField := ⟨"limit", 200, 1, 10000⟩
def searchLimit : IntField := ⟨"limit", 20, 1, 200⟩
def contextLimit : IntField := ⟨"limit", 10, 1, 200⟩
def maxDepth (defaultValue : Int32) : IntField := ⟨"max_depth", defaultValue, 1, 20⟩

/-- `Files`. -/
def files (readInt : IntReader) (b : NativeBackend) (args : RequestArgs) :
    Except Failure Json := do
  throwing b.cpp.openDatabase
  let limit ← readInt args.json "Files" filesLimit
  let files ← throwing b.cpp.getAllFiles
  return .object [("backend", text "native"),
    ("files", .array ((files.take limit.toInt.toNat).map fun f =>
      .object [("path", text f.path), ("language", text f.language),
        ("mtime", .integer f.mtime), ("size", .integer f.size)]))]

/-- What `Callers`, `Callees` and `Impact` do with an answer. -/
def normalizeTraversal (result : Json) : Except String Json := do
  let result ← result.set "backend" (text "native")
  let result ← rewriteMember "nodes" normalizeNodesArray result
  rewriteMember "edges" normalizeEdgesArray result

/-- `Search`. -/
def search (readInt : IntReader) (b : NativeBackend) (args : RequestArgs) :
    Except Failure Json := do
  let query ← requiredString args "Search" "query"
  let limit ← readInt args.json "Search" searchLimit
  let nodes ← throwing (b.cpp.searchSymbols query limit >>= normalizeNodesArray)
  return .object [("backend", text "native"), ("query", text query),
    ("limit", .integer limit.toInt), ("nodes", nodes)]

/-- `Node`. -/
def node (b : NativeBackend) (args : RequestArgs) : Except Failure Json := do
  let symbol ← requiredString args "Node" "symbol"
  match ← throwing (b.cpp.searchSymbols symbol 1) with
  | .array (first :: _) =>
    let first ← throwing (normalizeNodeJson first)
    return .object [("backend", text "native"), ("node", first)]
  | _ => return .object [("error", text ("Symbol not found: " ++ symbol))]

/-- `Context`. -/
def context (readInt : IntReader) (b : NativeBackend) (args : RequestArgs) :
    Except Failure Json := do
  let symbol ← requiredString args "Context" "symbol"
  let limit ← readInt args.json "Context" contextLimit
  let depth ← readInt args.json "Context" (maxDepth 3)
  throwing do
    let result ← b.cpp.buildContext symbol limit depth
    let result ← result.set "backend" (text "native")
    let result ← rewriteMember "callers" normalizeNodesArray result
    let result ← rewriteMember "callees" normalizeNodesArray result
    let result ← rewriteMember "edges" normalizeEdgesArray result
    rewriteMember "symbol" normalizeNodeJson result

/-- The branch of `Callers`, `Callees` and `Impact`, each with its default and its query. -/
def traverseFrom (readInt : IntReader) (method : String) (defaultDepth : Int32)
    (query : String → Int32 → Except String Json) (args : RequestArgs) : Except Failure Json := do
  let symbol ← requiredString args method "symbol"
  let depth ← readInt args.json method (maxDepth defaultDepth)
  throwing (query symbol depth >>= normalizeTraversal)

/-- `Callers`. -/
def callers (readInt : IntReader) (b : NativeBackend) : RequestArgs → Except Failure Json :=
  traverseFrom readInt "Callers" 3 b.cpp.getCallers

/-- `Callees`. -/
def callees (readInt : IntReader) (b : NativeBackend) : RequestArgs → Except Failure Json :=
  traverseFrom readInt "Callees" 3 b.cpp.getCallees

/-- `Impact`. -/
def impact (readInt : IntReader) (b : NativeBackend) : RequestArgs → Except Failure Json :=
  traverseFrom readInt "Impact" 5 b.cpp.getImpact

/-- The part of `Invoke` between the look into the cache and the entry. -/
def query (readInt : IntReader) (b : NativeBackend) (method : String) (args : RequestArgs) :
    Except Failure Json := do
  throwing b.cpp.openDatabase
  if method = "Search" then search readInt b args
  else if method = "Node" then node b args
  else if method = "Context" then context readInt b args
  else if method = "Callers" then callers readInt b args
  else if method = "Callees" then callees readInt b args
  else if method = "Impact" then impact readInt b args
  else
    .error (.rpcError .methodNotFound ("unknown CodeGraph method: " ++ method).toByteArray)

/-- `Invoke` without the cache. -/
def invokeUncached (readInt : IntReader) (b : NativeBackend) (method : String)
    (args : RequestArgs) : Except Failure Json :=
  if method = "Status" then b.status
  else if method = "Files" then b.files readInt args
  else b.query readInt method args

/-! ### The cache -/

/-- `CacheEntry`. -/
structure CacheEntry where
  result : Json
  expiresAt : Time

/-- `cache_`. -/
abbrev Cache := Table Bytes CacheEntry

/-- `kCacheMaxSize`. -/
def kCacheMaxSize : ℕ := 128

/-- `kCacheTTL`, 30 seconds in the nanoseconds of the clock. -/
def kCacheTTL : Time := 30000000000

/-- `MakeCacheKey`. -/
def makeCacheKey (lib : JsonLibrary) (method : String) (args : Json) : Except String Bytes :=
  (lib.dump args).map fun dumped => (method ++ ":").toByteArray.data.toList ++ dumped.data.toList

/-- `cache_get`, at a time. -/
def cacheGet (cache : Cache) (key : Bytes) (now : Time) : Option Json × Cache :=
  match cache.lookup key with
  | none => (none, cache)
  | some entry =>
    if entry.expiresAt < now then (none, cache.erase key) else (some entry.result, cache)

/-- `cache_put`, at a time; of a full cache the first half is erased that `listing` comes to. -/
def cachePut (cache : Cache) (key : Bytes) (result : Json) (now : Time)
    (listing : Table.Listing Bytes CacheEntry) : Cache :=
  let cache :=
    if kCacheMaxSize ≤ cache.size then cache.eraseFirst listing (cache.size / 2) else cache
  cache.insert key ⟨result, now + kCacheTTL⟩

/-- A call of `Invoke`: what it is called with, what `cache_get` and `cache_put` read from the
clock if they do, and how `cache_` is walked. -/
structure Invocation where
  method : String
  args : RequestArgs
  getTime : Time
  putTime : Time
  listing : Table.Listing Bytes CacheEntry := .asStored

/-- `Invoke`: what it returns or throws, and the cache it leaves. -/
def invoke (b : NativeBackend) (cache : Cache) (call : Invocation) :
    Except Failure Json × Cache :=
  if call.method = "Status" then (b.status, cache)
  else if call.method = "Files" then (b.files optionalInt call.args, cache)
  else
    match makeCacheKey b.lib call.method call.args.json with
    | .error what => (.error (.exception what), cache)
    | .ok key =>
      match cacheGet cache key call.getTime with
      | (some cached, cache) => (.ok cached, cache)
      | (none, cache) =>
        match b.query optionalInt call.method call.args with
        | .error failure => (.error failure, cache)
        | .ok result => (.ok result, cachePut cache key result call.putTime call.listing)

/-- A call as an event: the cache before and after it. -/
def step (b : NativeBackend) (cache : Cache) (call : Invocation) : Option Cache :=
  some (b.invoke cache call).2

end NativeBackend
end Codegraph
end MiniRpc
