/-
# The SQLite backend

`SQLiteCodeGraphBackend` of `src/codegraph/sqlite_codegraph_backend.cpp`: how it finds the
nodes that a request is about, and `Invoke`.  The traversals are in
`MiniRpc.Codegraph.Traversal`.

SQLite is not modelled.  A `CodeGraphDb` holds the rows of the tables and what a `SELECT`
answers of the rows that its `WHERE` keeps: the first ones in the order that it asks for,
so many as its `LIMIT` says, where rows that the order does not tell apart may come in any
order (`Selected`).  A statement that fails, and the pragmas that tell the two schemas
apart, are left to `open`.

A string is bound, and a text column is read, as a C string: it ends at a `NUL`.
-/

import Mathlib.Data.List.Sort
import Mathlib.Data.Prod.Lex
import Mathlib.Data.String.Basic
import MiniRpc.Codegraph.Arguments
import MiniRpc.Codegraph.Traversal
import MiniRpc.Library.LikePattern

namespace MiniRpc
namespace Codegraph

open Json (text)
open LikePattern

/-! ### SQL -/

/-- The character that ends a C string. -/
def nul : Char := Char.ofNat 0

/-- What is left of a string as a C string. -/
def cString (s : String) : String := .ofList (s.toList.takeWhile (· ≠ nul))

/-- `value LIKE pattern`. -/
def sqlLike (value pattern : String) : Bool := like pattern.toList (cString value).toList

/-- `lower(value)`. -/
def sqlLower (value : String) : String := .ofList (fold value.toList)

/-- An `ORDER BY`. -/
structure RowOrder (α : Type) where
  le : α → α → Bool
  total : ∀ a b, le a b = true ∨ le b a = true
  trans : ∀ a b c, le a b = true → le b c = true → le a c = true

/-- An order by what is computed of the rows. -/
def RowOrder.ofKey {α κ : Type} [LinearOrder κ] (key : α → κ) : RowOrder α where
  le a b := key a ≤ key b
  total a b := by simpa using le_total (key a) (key b)
  trans a b c hab hbc := by
    rw [decide_eq_true_eq] at *
    exact hab.trans hbc

/-- No `ORDER BY`. -/
def RowOrder.unordered {α : Type} : RowOrder α := .ofKey fun _ => ()

/-- What `SELECT` answers of the rows. -/
def Selected {α : Type} (keeps : α → Bool) (order : RowOrder α) (limit : ℕ)
    (rows answer : List α) : Prop :=
  ∃ sorted : List α, sorted.Perm (rows.filter keeps) ∧
    sorted.Pairwise (fun a b => order.le a b = true) ∧ answer = sorted.take limit

/-- Rows in the order of the table where the order does not tell them apart. -/
def selectInOrder {α : Type} (rows : List α) (keeps : α → Bool) (order : RowOrder α) (limit : ℕ) :
    List α :=
  ((rows.filter keeps).insertionSort fun a b => order.le a b = true).take limit

theorem selected_selectInOrder {α : Type} (rows : List α) (keeps : α → Bool) (order : RowOrder α)
    (limit : ℕ) : Selected keeps order limit rows (selectInOrder rows keeps order limit) := by
  have : Std.Total fun a b => order.le a b = true := ⟨order.total⟩
  have : IsTrans α fun a b => order.le a b = true := ⟨order.trans⟩
  exact ⟨_, List.perm_insertionSort _ _, List.pairwise_insertionSort _ _, rfl⟩

/-- A row that was selected is in the table, and is kept. -/
theorem Selected.mem {α : Type} {keeps : α → Bool} {order : RowOrder α} {limit : ℕ}
    {rows answer : List α} (h : Selected keeps order limit rows answer) {row : α}
    (hrow : row ∈ answer) : row ∈ rows ∧ keeps row = true := by
  obtain ⟨sorted, hperm, -, rfl⟩ := h
  exact List.mem_filter.1 (hperm.mem_iff.1 (List.mem_of_mem_take hrow))

/-- Of a table of one row that is kept, the row is selected. -/
theorem Selected.eq_singleton {α : Type} {keeps : α → Bool} {order : RowOrder α} {limit : ℕ}
    {row : α} {answer : List α} (h : Selected keeps order limit [row] answer)
    (hkeeps : keeps row = true) (hlimit : 0 < limit) : answer = [row] := by
  obtain ⟨sorted, hperm, -, rfl⟩ := h
  rw [List.filter_cons_of_pos hkeeps, List.filter_nil, List.perm_singleton] at hperm
  rw [hperm, List.take_of_length_le hlimit]

/-- Where no row is kept, none is selected. -/
theorem Selected.eq_nil {α : Type} {keeps : α → Bool} {order : RowOrder α} {limit : ℕ}
    {rows answer : List α} (h : Selected keeps order limit rows answer)
    (hnone : ∀ row ∈ rows, keeps row = false) : answer = [] := by
  obtain ⟨sorted, hperm, -, rfl⟩ := h
  have hfilter : rows.filter keeps = [] :=
    List.filter_eq_nil_iff.2 fun row hrow => by simp [hnone row hrow]
  rw [hfilter, List.perm_nil] at hperm
  rw [hperm, List.take_nil]

/-! ### The table of nodes -/

/-- `SchemaFlavor`. -/
inductive SchemaFlavor where
  | officialCodeGraph
  | codeGraphCpp
  deriving DecidableEq, Repr

/-- `SchemaName`. -/
def schemaName : SchemaFlavor → String
  | .officialCodeGraph => "official_codegraph"
  | .codeGraphCpp => "codegraph_cpp"

/-- The column `kind`, a text in one schema and a number in the other. -/
inductive KindColumn where
  | named (name : String)
  | numbered (n : ℤ)
  deriving DecidableEq, Repr

/-- `NodeKindCaseSql`. -/
def nodeKindCase : KindColumn → String
  | .numbered 0 => "file"
  | .numbered 1 => "function"
  | .numbered 2 => "method"
  | .numbered 3 => "class"
  | .numbered 4 => "struct"
  | .numbered 5 => "enum"
  | .numbered 6 => "enum_member"
  | .numbered 7 => "variable"
  | .numbered 8 => "type_alias"
  | .numbered 9 => "namespace"
  | .numbered 10 => "import"
  | .numbered 11 => "parameter"
  | .numbered 12 => "field"
  | _ => "unknown"

/-- A row of the table `nodes`; `none` is `NULL`.  An `id` is its text. -/
structure NodeRecord where
  id : String
  kind : KindColumn := .numbered 1
  name : String
  qualifiedName : Option String := none
  filePath : String := ""
  language : Option String := none
  startLine : ℤ := 0
  startColumn : ℤ := 0
  endLine : ℤ := 0
  endColumn : ℤ := 0
  signature : Option String := none
  docstring : Option String := none
  isStatic : ℤ := 0
  isExported : ℤ := 0
  deriving DecidableEq, Repr

/-- `sqlite3_column_int` of a 64-bit integer: its low 32 bits. -/
def columnInt (value : ℤ) : ℤ := value.bmod (2 ^ 32)

/-- `ReadNode` of what `NodeSelectSql` selects: `NULL` is read as the empty text, but for a
`qualified_name` in the schema of codegraph-cpp, which is then the name. -/
def readNode (schema : SchemaFlavor) (r : NodeRecord) : NodeRow where
  id := cString r.id
  kind := cString <|
    match schema, r.kind with
    | .officialCodeGraph, .named name => name
    | .officialCodeGraph, .numbered n => toString n
    | .codeGraphCpp, kind => nodeKindCase kind
  name := cString r.name
  qualifiedName := cString <|
    match schema with
    | .officialCodeGraph => r.qualifiedName.getD ""
    | .codeGraphCpp => r.qualifiedName.getD r.name
  filePath := cString r.filePath
  language := cString (r.language.getD "")
  startLine := columnInt r.startLine
  startColumn := columnInt r.startColumn
  endLine := columnInt r.endLine
  endColumn := columnInt r.endColumn
  signature := cString (r.signature.getD "")
  docstring := cString (r.docstring.getD "")
  isStatic := columnInt r.isStatic ≠ 0
  isExported := columnInt r.isExported ≠ 0

/-- The database. -/
structure CodeGraphDb where
  schema : SchemaFlavor
  records : List NodeRecord
  selectNodes : (NodeRecord → Bool) → RowOrder NodeRecord → ℕ → List NodeRecord
  selectNodes_answers : ∀ keeps order limit,
    Selected keeps order limit records (selectNodes keeps order limit)
  /-- The paths and languages of `files`. -/
  files : List (String × String) := []
  selectFiles : ℕ → List (String × String)
  selectFiles_answers : ∀ limit, Selected (fun _ => true) (.ofKey Prod.fst) limit files
    (selectFiles limit)
  /-- The nodes and edges, for the traversals. -/
  graph : Sqlite
  graph_nodes : graph.nodes = records.map (readNode schema)

namespace CodeGraphDb

/-- `QueryNodes`. -/
def queryNodes (db : CodeGraphDb) (keeps : NodeRecord → Bool) (order : RowOrder NodeRecord)
    (limit : ℕ) : List NodeRow :=
  (db.selectNodes keeps order limit).map (readNode db.schema)

/-! ### `FindNodes` and `SearchNodes` -/

/-- `CASE WHEN name=? THEN 0 WHEN qualified_name=? THEN 1 ELSE 2 END`. -/
def rank (bound : String) (r : NodeRecord) : ℕ :=
  if r.name = bound then 0 else if r.qualifiedName = some bound then 1 else 2

/-- `name=? OR qualified_name=?`. -/
def exactWhere (bound : String) (r : NodeRecord) : Bool :=
  r.name = bound || r.qualifiedName.any (· = bound)

/-- `(name LIKE ? OR qualified_name LIKE ?) AND name<>? AND qualified_name<>?`, which is not
true where `qualified_name` is `NULL`. -/
def likeWhere (pattern bound : String) (r : NodeRecord) : Bool :=
  (sqlLike r.name pattern || r.qualifiedName.any (sqlLike · pattern)) &&
    r.name ≠ bound && r.qualifiedName.any (· ≠ bound)

/-- `FindNodes`. -/
def findNodes (db : CodeGraphDb) (symbol : String) (limit : ℕ) : List NodeRow :=
  let exact := db.queryNodes (exactWhere (cString symbol)) (.ofKey (rank (cString symbol))) limit
  if limit ≤ exact.length then exact
  else
    let pattern := "%" ++ symbol ++ "%"
    let fuzzy := db.queryNodes (likeWhere (cString pattern) (cString symbol)) .unordered
      (limit - exact.length)
    exact ++ fuzzy

/-- `lower(name) LIKE lower(?) OR lower(qualified_name) LIKE lower(?)`. -/
def searchWhere (pattern : String) (r : NodeRecord) : Bool :=
  sqlLike (sqlLower r.name) (sqlLower pattern) ||
    r.qualifiedName.any fun qualifiedName => sqlLike (sqlLower qualifiedName) (sqlLower pattern)

/-- `ORDER BY CASE ... END, file_path, start_line`. -/
def searchOrder (bound : String) : RowOrder NodeRecord :=
  .ofKey fun r => toLex (rank bound r, toLex (r.filePath, r.startLine))

/-- `SearchNodes`. -/
def searchNodes (db : CodeGraphDb) (query : String) (limit : ℕ) : List NodeRow :=
  let pattern := "%" ++ query ++ "%"
  db.queryNodes (searchWhere (cString pattern)) (searchOrder (cString query)) limit

end CodeGraphDb

/-- A database that keeps to the order of its tables, without files and edges. -/
def CodeGraphDb.ofRecords (schema : SchemaFlavor) (records : List NodeRecord) : CodeGraphDb where
  schema := schema
  records := records
  selectNodes := selectInOrder records
  selectNodes_answers := selected_selectInOrder records
  selectFiles := selectInOrder [] (fun _ => true) (.ofKey Prod.fst)
  selectFiles_answers := selected_selectInOrder [] _ _
  graph := {
    nodes := records.map (readNode schema)
    edges := []
    queryEdges := fun _ _ _ => []
    queryEdges_answers := fun _ _ limit => ⟨List.Subperm.refl _, by simp⟩
    queryNode := fun id => ((records.map (readNode schema)).filter fun node => node.id = id).take 1
    queryNode_answers := fun _ => ⟨(List.take_sublist _ _).subperm, List.length_take⟩ }
  graph_nodes := rfl

/-! ### `Invoke` -/

/-- `SQLiteCodeGraphBackend`: the path, and what opening the database for a call gives. -/
structure SqliteBackend where
  dbPath : String
  openReadOnly : Except Failure CodeGraphDb

namespace SqliteBackend

/-- `OptionalInt`. -/
def optionalInt : IntReader := Codegraph.optionalInt

/-- The numbers that may be sent. -/
def filesLimit : IntField := ⟨"limit", 200, 1, 10000⟩
def searchLimit : IntField := ⟨"limit", 20, 1, 200⟩
def traversalLimit : IntField := ⟨"limit", 50, 1, 500⟩
def maxDepth (defaultValue : Int32) : IntField := ⟨"max_depth", defaultValue, 1, 20⟩

/-- What every answer says of the backend. -/
def envelope (db : CodeGraphDb) : List (String × Json) :=
  [("backend", text "sqlite"), ("schema", text (schemaName db.schema))]

/-- `Status`. -/
def status (b : SqliteBackend) (db : CodeGraphDb) : Json :=
  .object ([("service", text "CodeGraph"), ("db_path", text b.dbPath), ("ready", .boolean true),
    ("transport", text "mini_rpc"), ("node_count", .integer db.records.length),
    ("edge_count", .integer db.graph.edges.length),
    ("file_count", .integer db.files.length)] ++ envelope db)

/-- `Files`. -/
def files (readInt : IntReader) (db : CodeGraphDb) (args : RequestArgs) :
    Except Failure Json := do
  let limit ← readInt args.json "Files" filesLimit
  return .object (("files", .array ((db.selectFiles limit.toInt.toNat).map fun f =>
    .object [("path", text (cString f.1)), ("language", text (cString f.2))])) :: envelope db)

/-- `Search`. -/
def search (readInt : IntReader) (db : CodeGraphDb) (args : RequestArgs) :
    Except Failure Json := do
  let query ← requiredString args "Search" "query"
  let limit ← readInt args.json "Search" searchLimit
  return .object ([("query", text query), ("limit", .integer limit.toInt),
    ("nodes", .array ((db.searchNodes query limit.toInt.toNat).map NodeRow.toJson))] ++
      envelope db)

/-- The node that a method is about, the answer if there is none. -/
def startNode (db : CodeGraphDb) (symbol : String) : Except Json NodeRow :=
  match db.findNodes symbol 1 with
  | [] => .error (.object [("error", text ("Symbol not found: " ++ symbol))])
  | start :: _ => .ok start

/-- `Node`. -/
def node (db : CodeGraphDb) (args : RequestArgs) : Except Failure Json := do
  let symbol ← requiredString args "Node" "symbol"
  match startNode db symbol with
  | .error answer => return answer
  | .ok start => return .object (("node", start.toJson) :: envelope db)

/-- The answer of `Callers`, `Callees` and `Impact`. -/
def traversalAnswer (db : CodeGraphDb) (start : NodeRow) (direction : Direction)
    (depth limit : Int32) : Json :=
  let t := traverse db.graph start.id direction depth.toInt.toNat limit.toInt.toNat
  .object ([("nodes", .array (t.nodes.map NodeRow.toJson)),
    ("edges", .array (t.edges.map EdgeRow.toJson)), ("symbol", start.toJson)] ++ envelope db)

/-- The answer of `Context`: two levels up and down. -/
def contextAnswer (db : CodeGraphDb) (start : NodeRow) (limit : Int32) : Json :=
  let callers := traverse db.graph start.id .incoming 2 limit.toInt.toNat
  let callees := traverse db.graph start.id .outgoing 2 limit.toInt.toNat
  .object ([("symbol", start.toJson), ("callers", .array (callers.nodes.map NodeRow.toJson)),
    ("callees", .array (callees.nodes.map NodeRow.toJson)),
    ("edges", .array ((callers.edges ++ callees.edges).map EdgeRow.toJson))] ++ envelope db)

/-- The branch of these four, each with its default and its answer. -/
def traverseFrom (readInt : IntReader) (method : String) (defaultDepth : Int32)
    (answer : NodeRow → Int32 → Int32 → Json) (db : CodeGraphDb) (args : RequestArgs) :
    Except Failure Json := do
  let symbol ← requiredString args method "symbol"
  match startNode db symbol with
  | .error answer => return answer
  | .ok start =>
    let depth ← readInt args.json method (maxDepth defaultDepth)
    let limit ← readInt args.json method traversalLimit
    return answer start depth limit

/-- `Callers`. -/
def callers (readInt : IntReader) (db : CodeGraphDb) : RequestArgs → Except Failure Json :=
  traverseFrom readInt "Callers" 3 (traversalAnswer db · .incoming) db

/-- `Callees`. -/
def callees (readInt : IntReader) (db : CodeGraphDb) : RequestArgs → Except Failure Json :=
  traverseFrom readInt "Callees" 3 (traversalAnswer db · .outgoing) db

/-- `Impact`. -/
def impact (readInt : IntReader) (db : CodeGraphDb) : RequestArgs → Except Failure Json :=
  traverseFrom readInt "Impact" 5 (traversalAnswer db · .incoming) db

/-- `Context`; the depth is read, and not used. -/
def context (readInt : IntReader) (db : CodeGraphDb) : RequestArgs → Except Failure Json :=
  traverseFrom readInt "Context" 3 (fun start _ limit => contextAnswer db start limit) db

/-- `Invoke`. -/
def invoke (readInt : IntReader) (b : SqliteBackend) (method : String) (args : RequestArgs) :
    Except Failure Json := do
  let db ← b.openReadOnly
  if method = "Status" then return b.status db
  else if method = "Files" then files readInt db args
  else if method = "Search" then search readInt db args
  else if method = "Node" then node db args
  else if method = "Callers" then callers readInt db args
  else if method = "Callees" then callees readInt db args
  else if method = "Impact" then impact readInt db args
  else if method = "Context" then context readInt db args
  else
    .error (.rpcError .methodNotFound ("unknown CodeGraph method: " ++ method).toByteArray)

end SqliteBackend
end Codegraph
end MiniRpc
