/-
# The traversal of the call graph

`Traversal` of `src/codegraph/sqlite_codegraph_backend.cpp` goes from a node of the
code graph along its `calls` edges, a level at a time: `QueryEdges` asks the
database for the edges of each node of the frontier, an edge to a node that was
not visited yet is emitted, and `GetNodesByIds` asks for the nodes that the level
reached.  It stops at the depth, at the limit, or when a level reaches nothing.

The database is SQLite, which is not modelled: `Sqlite` holds the rows of the two
tables, as the two schemas both give them, and what the queries answer, and
`Limited` is what is documented of `LIMIT`, that some rows are returned, in any
order, and all of them if they are no more than the limit.

`traversal_sound` says what is emitted: a tree of edges from the start.
-/

import MiniRpc.Library.Json
import MiniRpc.Library.Walks

namespace MiniRpc
namespace Codegraph

/-- `NodeRow`. -/
structure NodeRow where
  id : String
  kind : String := ""
  name : String := ""
  qualifiedName : String := ""
  filePath : String := ""
  language : String := ""
  startLine : ℤ := 0
  startColumn : ℤ := 0
  endLine : ℤ := 0
  endColumn : ℤ := 0
  signature : String := ""
  docstring : String := ""
  isStatic : Bool := false
  isExported : Bool := false
  deriving DecidableEq, Repr

/-- `EdgeRow`, with the numbers that `sqlite3_column_int` gives. -/
structure EdgeRow where
  id : ℤ := 0
  source : String
  target : String
  kind : String
  line : ℤ := 0
  col : ℤ := 0
  metadata : String := ""
  deriving DecidableEq, Repr

/-- `NodeToJson`. -/
def NodeRow.toJson (node : NodeRow) : Json :=
  .object [("id", .text node.id), ("kind", .text node.kind), ("name", .text node.name),
    ("qualified_name", .text node.qualifiedName), ("file", .text node.filePath),
    ("language", .text node.language), ("line", .integer node.startLine),
    ("col", .integer node.startColumn), ("end_line", .integer node.endLine),
    ("end_col", .integer node.endColumn), ("signature", .text node.signature),
    ("docstring", .text node.docstring), ("is_static", .boolean node.isStatic),
    ("is_exported", .boolean node.isExported)]

/-- `EdgeToJson`. -/
def EdgeRow.toJson (edge : EdgeRow) : Json :=
  .object [("id", .integer edge.id), ("source_id", .text edge.source),
    ("target_id", .text edge.target), ("kind", .text edge.kind), ("line", .integer edge.line),
    ("col", .integer edge.col), ("metadata", .text edge.metadata)]

/-- The direction `"in"` or `"out"`. -/
inductive Direction where
  | incoming
  | outgoing
  deriving DecidableEq, Repr

/-- The node of an edge that the traversal comes from. -/
def EdgeRow.near (direction : Direction) (edge : EdgeRow) : String :=
  match direction with
  | .outgoing => edge.source
  | .incoming => edge.target

/-- `adjacent`. -/
def EdgeRow.far (direction : Direction) (edge : EdgeRow) : String :=
  match direction with
  | .outgoing => edge.target
  | .incoming => edge.source

/-- What a query with `LIMIT limit` may answer, of the rows that it matches. -/
def Limited {α : Type*} (limit : ℕ) (rows answer : List α) : Prop :=
  answer.Subperm rows ∧ answer.length = min limit rows.length

/-- The database: its tables, and what its queries answer. -/
structure Sqlite where
  nodes : List NodeRow
  edges : List EdgeRow
  /-- The rows that `QueryEdges` reads for a node and the kind `"calls"`. -/
  queryEdges : Direction → String → ℕ → List EdgeRow
  queryEdges_answers : ∀ direction id limit, Limited limit
    (edges.filter fun edge => edge.near direction = id && edge.kind = "calls")
    (queryEdges direction id limit)
  /-- The rows that `GetNodesByIds` reads for an id, at most one. -/
  queryNode : String → List NodeRow
  queryNode_answers : ∀ id, Limited 1 (nodes.filter fun node => node.id = id) (queryNode id)

/-- `GetNodesByIds`. -/
def Sqlite.getNodesByIds (db : Sqlite) (ids : List String) : List NodeRow :=
  ids.flatMap db.queryNode

/-- The variables of `Traversal`; `emitted` is the number of `edges`. -/
structure Traversal where
  frontier : List String
  visited : List String
  next : List String := []
  emitted : ℕ := 0
  nodes : List NodeRow := []
  edges : List EdgeRow := []

namespace Traversal

/-- An edge to a node that was not visited. -/
def emit (direction : Direction) (t : Traversal) (edge : EdgeRow) : Traversal :=
  { t with
    visited := edge.far direction :: t.visited
    next := t.next ++ [edge.far direction]
    emitted := t.emitted + 1
    edges := t.edges ++ [edge] }

/-- The loop over the edges of a node. -/
def scanEdges (direction : Direction) (limit : ℕ) : Traversal → List EdgeRow → Traversal
  | t, [] => t
  | t, edge :: rest =>
    if edge.far direction ∈ t.visited then scanEdges direction limit t rest
    else if limit ≤ (t.emit direction edge).emitted then t.emit direction edge
    else scanEdges direction limit (t.emit direction edge) rest

/-- The loop over the nodes of the frontier. -/
def scanFrontier (db : Sqlite) (direction : Direction) (limit : ℕ) :
    Traversal → List String → Traversal
  | t, [] => t
  | t, id :: rest =>
    let t := scanEdges direction limit t (db.queryEdges direction id limit)
    if limit ≤ t.emitted then t else scanFrontier db direction limit t rest

/-- One level. -/
def level (db : Sqlite) (direction : Direction) (limit : ℕ) (t : Traversal) : Traversal :=
  let t := scanFrontier db direction limit { t with next := [] } t.frontier
  { t with nodes := t.nodes ++ db.getNodesByIds t.next, frontier := t.next }

/-- The loop over the levels, so many of which are left. -/
def levels (db : Sqlite) (direction : Direction) (limit : ℕ) : ℕ → Traversal → Traversal
  | 0, t => t
  | depth + 1, t =>
    if t.frontier ≠ [] ∧ t.emitted < limit then
      levels db direction limit depth (level db direction limit t)
    else t

end Traversal

/-- `Traversal`, before its result is made JSON. -/
def traverse (db : Sqlite) (start : String) (direction : Direction) (maxDepth limit : ℕ) :
    Traversal :=
  Traversal.levels db direction limit maxDepth { frontier := [start], visited := [start] }

/-- `Traversal`. -/
def traversal (db : Sqlite) (start : NodeRow) (direction : Direction) (maxDepth limit : ℕ) : Json :=
  let t := traverse db start.id direction maxDepth limit
  .object [("nodes", .array (t.nodes.map NodeRow.toJson)),
    ("edges", .array (t.edges.map EdgeRow.toJson))]

/-- The nodes that the traversal came to, in their order. -/
def Traversal.reached (direction : Direction) (t : Traversal) : List String :=
  t.edges.map (EdgeRow.far direction)

/-- The steps along the emitted edges. -/
def Traversal.steps (direction : Direction) (t : Traversal) : String → String → Prop :=
  stepsOf (EdgeRow.near direction) (EdgeRow.far direction) t.edges

/-- The steps along the `calls` edges of the table. -/
def Sqlite.calls (db : Sqlite) (direction : Direction) : String → String → Prop :=
  stepsOf (EdgeRow.near direction) (EdgeRow.far direction)
    (db.edges.filter fun edge => edge.kind = "calls")

/-- The steps along the edges that the queries answer. -/
def Sqlite.answers (db : Sqlite) (direction : Direction) (limit : ℕ) (a b : String) : Prop :=
  ∃ edge ∈ db.queryEdges direction a limit, edge.far direction = b

/-! ### What a scan does -/

namespace Traversal

variable {db : Sqlite} {direction : Direction} {limit : ℕ} {t u v : Traversal}
  {new : List EdgeRow} {P Q : EdgeRow → Prop}

/-- From `t` to `u` the edges `new`, which meet `P`, are emitted, each to a node that was not
visited; if the limit is not reached, every edge that meets `P` leads to a visited node. -/
structure Scanned (direction : Direction) (limit : ℕ) (P : EdgeRow → Prop) (t u : Traversal)
    (new : List EdgeRow) : Prop where
  edges : u.edges = t.edges ++ new
  next : u.next = t.next ++ new.map (EdgeRow.far direction)
  emitted : u.emitted = t.emitted + new.length
  visited : ∀ id, id ∈ u.visited ↔ id ∈ t.visited ∨ id ∈ new.map (EdgeRow.far direction)
  nodes : u.nodes = t.nodes
  admitted : ∀ edge ∈ new, P edge
  distinct : (new.map (EdgeRow.far direction)).Nodup
  fresh : ∀ id ∈ new.map (EdgeRow.far direction), id ∉ t.visited
  atMost : t.emitted < limit → u.emitted ≤ limit
  complete : u.emitted < limit → ∀ edge, P edge → edge.far direction ∈ u.visited

namespace Scanned

/-- Nothing to scan. -/
theorem refl (t : Traversal) (hP : ∀ edge, ¬ P edge) : Scanned direction limit P t t [] where
  edges := by simp
  next := by simp
  emitted := by simp
  visited := by simp
  nodes := rfl
  admitted := by simp
  distinct := by simp
  fresh := by simp
  atMost := fun h => h.le
  complete := fun _ edge h => absurd h (hP edge)

/-- The limit is reached before the rest is scanned. -/
theorem stop (h : Scanned direction limit P t u new) (hlimit : limit ≤ u.emitted)
    (hPQ : ∀ edge, P edge → Q edge) : Scanned direction limit Q t u new :=
  { h with
    admitted := fun edge hedge => hPQ edge (h.admitted edge hedge)
    complete := fun hlt => absurd hlt (Nat.not_lt.2 hlimit) }

/-- One scan after the other. -/
theorem trans {new' : List EdgeRow} (h : Scanned direction limit P t u new)
    (h' : Scanned direction limit Q u v new') (hlt : u.emitted < limit) :
    Scanned direction limit (fun edge => P edge ∨ Q edge) t v (new ++ new') where
  edges := by rw [h'.edges, h.edges, List.append_assoc]
  next := by rw [h'.next, h.next, List.map_append, List.append_assoc]
  emitted := by rw [h'.emitted, h.emitted, List.length_append, Nat.add_assoc]
  visited := fun id => by rw [h'.visited, h.visited, List.map_append, List.mem_append, or_assoc]
  nodes := h'.nodes.trans h.nodes
  admitted := by
    intro edge hedge
    exact (List.mem_append.1 hedge).imp (h.admitted edge) (h'.admitted edge)
  distinct := by
    rw [List.map_append, List.nodup_append]
    refine ⟨h.distinct, h'.distinct, ?_⟩
    rintro id hid _ hid' rfl
    exact h'.fresh id hid' ((h.visited id).2 (Or.inr hid))
  fresh := by
    intro id hid hvisited
    rw [List.map_append, List.mem_append] at hid
    rcases hid with hid | hid
    · exact h.fresh id hid hvisited
    · exact h'.fresh id hid ((h.visited id).2 (Or.inl hvisited))
  atMost := fun _ => h'.atMost hlt
  complete := by
    rintro hdone edge (hP | hQ)
    · exact (h'.visited _).2 (Or.inl (h.complete hlt edge hP))
    · exact h'.complete hdone edge hQ

end Scanned

/-- One edge of the loop over edges. -/
theorem scanned_emit {edge : EdgeRow} (hnew : edge.far direction ∉ t.visited) :
    Scanned direction limit (· = edge) t (t.emit direction edge) [edge] where
  edges := rfl
  next := rfl
  emitted := rfl
  visited := fun id => by simp [emit, or_comm]
  nodes := rfl
  admitted := by simp
  distinct := by simp
  fresh := by simpa using hnew
  atMost := fun h => h
  complete := fun _ _ h => by simp [emit, h]

/-- **The loop over the edges of a node.** -/
theorem scanned_scanEdges {edges : List EdgeRow} (hlt : t.emitted < limit) :
    ∃ new, Scanned direction limit (· ∈ edges) t (scanEdges direction limit t edges) new := by
  induction edges generalizing t with
  | nil => exact ⟨[], .refl t fun _ => List.not_mem_nil⟩
  | cons edge rest ih =>
    rw [scanEdges]
    split_ifs with hvisited hlimit
    · obtain ⟨new, h⟩ := ih hlt
      refine ⟨new, { h with
        admitted := fun edge' h' => List.mem_cons_of_mem _ (h.admitted edge' h')
        complete := ?_ }⟩
      intro hdone edge' hedge'
      rcases List.mem_cons.1 hedge' with rfl | hedge'
      · exact (h.visited _).2 (Or.inl hvisited)
      · exact h.complete hdone edge' hedge'
    · exact ⟨[edge], (scanned_emit hvisited).stop hlimit fun _ h => h ▸ List.mem_cons_self⟩
    · obtain ⟨new, h⟩ := ih (t := t.emit direction edge) (Nat.lt_of_not_le hlimit)
      refine ⟨[edge] ++ new, ?_⟩
      have htrans := (scanned_emit hvisited).trans h (Nat.lt_of_not_le hlimit)
      simpa only [← List.mem_cons] using htrans

/-- **The loop over the frontier.** -/
theorem scanned_scanFrontier {frontier : List String} (hlt : t.emitted < limit) :
    ∃ new, Scanned direction limit
      (fun edge => ∃ id ∈ frontier, edge ∈ db.queryEdges direction id limit) t
      (scanFrontier db direction limit t frontier) new := by
  induction frontier generalizing t with
  | nil => exact ⟨[], .refl t (by simp)⟩
  | cons id rest ih =>
    obtain ⟨new, h⟩ : ∃ new, Scanned direction limit (· ∈ db.queryEdges direction id limit) t
        (scanEdges direction limit t (db.queryEdges direction id limit)) new :=
      scanned_scanEdges hlt
    rw [scanFrontier]
    split_ifs with hlimit
    · exact ⟨new, h.stop hlimit fun edge hedge => ⟨id, List.mem_cons_self, hedge⟩⟩
    · obtain ⟨new', h'⟩ := ih (t := scanEdges direction limit t
        (db.queryEdges direction id limit)) (Nat.lt_of_not_le hlimit)
      refine ⟨new ++ new', ?_⟩
      have htrans := h.trans h' (Nat.lt_of_not_le hlimit)
      simpa only [List.mem_cons, exists_eq_or_imp] using htrans

/-! ### What a level does -/

/-- After `depth` levels: the emitted edges are a tree, its nodes are the visited ones, and the
frontier is a level of it; if the limit is not reached, the visited nodes are all within so many
steps over the edges that the queries answer. -/
structure Searched (db : Sqlite) (direction : Direction) (limit : ℕ) (start : String) (depth : ℕ)
    (t : Traversal) : Prop where
  emitted : t.emitted = t.edges.length
  atMost : t.emitted ≤ limit
  visited : ∀ id, id ∈ t.visited ↔ id = start ∨ id ∈ t.reached direction
  tree : IsTree (EdgeRow.near direction) (EdgeRow.far direction) start t.edges
  answered : ∀ edge ∈ t.edges, edge ∈ db.queryEdges direction (edge.near direction) limit
  frontier : ∀ id ∈ t.frontier, Walk (t.steps direction) start depth id
  within : ∀ id ∈ t.reached direction, Within (t.steps direction) depth start id
  nodes : t.nodes = db.getNodesByIds (t.reached direction)
  closed : t.emitted < limit → ∀ id ∈ t.visited, id ∉ t.frontier →
    ∀ other, db.answers direction limit id other → other ∈ t.visited
  complete : t.emitted < limit →
    ∀ n ≤ depth, ∀ id, Walk (db.answers direction limit) start n id → id ∈ t.visited

/-- What a query for edges answers. -/
theorem mem_queryEdges {edge : EdgeRow} {id : String}
    (h : edge ∈ db.queryEdges direction id limit) :
    edge.near direction = id ∧ edge.kind = "calls" ∧ edge ∈ db.edges := by
  have hmem := (db.queryEdges_answers direction id limit).1.subset h
  simp only [List.mem_filter, Bool.and_eq_true, decide_eq_true_eq] at hmem
  exact ⟨hmem.2.1, hmem.2.2, hmem.1⟩

namespace Searched

variable {start : String} {depth : ℕ}

theorem init (db : Sqlite) (direction : Direction) (limit : ℕ) (start : String) :
    Searched db direction limit start 0 { frontier := [start], visited := [start] } where
  emitted := rfl
  atMost := Nat.zero_le limit
  visited := by simp [reached]
  tree := .nil
  answered := by simp
  frontier := by
    intro id hid
    rw [List.mem_singleton.1 hid]
    exact .refl
  within := by simp [reached]
  nodes := rfl
  closed := fun _ id hid hnot => absurd hid hnot
  complete := by
    intro _ n hn id hwalk
    obtain rfl := Nat.le_zero.1 hn
    cases hwalk
    exact List.mem_singleton_self _

/-- The frontier is part of the tree. -/
theorem mem_of_frontier (h : Searched db direction limit start depth t) {id : String}
    (hid : id ∈ t.frontier) : id = start ∨ id ∈ t.reached direction := by
  cases h.frontier id hid with
  | refl => exact Or.inl rfl
  | step _ hlast =>
    obtain ⟨edge, hedge, -, rfl⟩ := hlast
    exact Or.inr (List.mem_map_of_mem hedge)

/-- **One level more.** -/
theorem level (h : Searched db direction limit start depth t) (hlt : t.emitted < limit) :
    Searched db direction limit start (depth + 1) (Traversal.level db direction limit t) := by
  obtain ⟨new, hscan⟩ : ∃ new, Scanned direction limit
      (fun edge => ∃ id ∈ t.frontier, edge ∈ db.queryEdges direction id limit)
      { t with next := [] } (scanFrontier db direction limit { t with next := [] } t.frontier)
      new := scanned_scanFrontier hlt
  unfold Traversal.level
  dsimp only
  generalize scanFrontier db direction limit { t with next := [] } t.frontier = u at hscan ⊢
  have hedges : u.edges = t.edges ++ new := hscan.edges
  have hnext : u.next = new.map (EdgeRow.far direction) := by rw [hscan.next, List.nil_append]
  have hreached : u.reached direction = t.reached direction ++ new.map (EdgeRow.far direction) := by
    rw [reached, hedges, List.map_append]
    rfl
  have hsteps : ∀ a b, t.steps direction a b → u.steps direction a b := by
    refine stepsOf_mono fun edge hedge => ?_
    rw [hedges]
    exact List.mem_append_left _ hedge
  have hvisited : ∀ id, id ∈ u.visited ↔ id = start ∨ id ∈ u.reached direction := by
    intro id
    rw [hscan.visited, hreached, List.mem_append, ← or_assoc, ← h.visited]
  -- a new edge leaves the frontier, so it ends one level further on
  have hnear : ∀ edge ∈ new, edge.near direction ∈ t.frontier ∧
      edge ∈ db.queryEdges direction (edge.near direction) limit := by
    intro edge hedge
    obtain ⟨id, hid, hanswer⟩ := hscan.admitted edge hedge
    rw [(mem_queryEdges hanswer).1]
    exact ⟨hid, hanswer⟩
  have hwalk : ∀ id ∈ new.map (EdgeRow.far direction),
      Walk (u.steps direction) start (depth + 1) id := by
    intro id hid
    obtain ⟨edge, hedge, rfl⟩ := List.mem_map.1 hid
    have hfrontier := (h.frontier _ (hnear edge hedge).1).mono hsteps
    refine hfrontier.step ⟨edge, ?_, rfl, rfl⟩
    rw [hedges]
    exact List.mem_append_right _ hedge
  -- if the limit is not reached, the old nodes were all followed
  have hfollowed : u.emitted < limit → ∀ id ∈ t.visited,
      ∀ other, db.answers direction limit id other → other ∈ u.visited := by
    rintro hdone id hid other ⟨edge, hedge, rfl⟩
    by_cases hfrontier : id ∈ t.frontier
    · exact hscan.complete hdone edge ⟨id, hfrontier, hedge⟩
    · exact (hscan.visited _).2 (Or.inl (h.closed hlt id hid hfrontier _ ⟨edge, hedge, rfl⟩))
  constructor
  case emitted => exact (hscan.emitted.trans (by rw [h.emitted])).trans (by simp [hedges])
  case atMost => exact hscan.atMost hlt
  case visited => exact hvisited
  case tree =>
    show IsTree _ _ start u.edges
    rw [hedges]
    refine h.tree.append ?_ fun edge hedge => h.mem_of_frontier (hnear edge hedge).1
    rw [List.map_append, ← List.cons_append, List.nodup_append]
    refine ⟨h.tree.distinct, hscan.distinct, ?_⟩
    rintro id hid _ hid' rfl
    exact hscan.fresh id hid' ((h.visited id).2 (List.mem_cons.1 hid))
  case answered =>
    intro edge hedge
    rcases List.mem_append.1 (hedges ▸ hedge : edge ∈ t.edges ++ new) with hedge | hedge
    · exact h.answered edge hedge
    · exact (hnear edge hedge).2
  case frontier =>
    intro id hid
    exact hwalk id (hnext ▸ hid : id ∈ new.map (EdgeRow.far direction))
  case within =>
    intro id hid
    rcases List.mem_append.1 (hreached ▸ hid : id ∈ t.reached direction ++ _) with hid | hid
    · exact ((h.within id hid).mono hsteps).of_le (Nat.le_succ depth)
    · exact (hwalk id hid).within le_rfl
  case nodes =>
    show u.nodes ++ db.getNodesByIds u.next = db.getNodesByIds (u.reached direction)
    rw [hscan.nodes, h.nodes, hnext, hreached, Sqlite.getNodesByIds, Sqlite.getNodesByIds,
      Sqlite.getNodesByIds, List.flatMap_append]
  case closed =>
    intro hdone id hid hnot other hother
    have hold : id ∈ t.visited := by
      refine ((hscan.visited id).1 hid).resolve_right fun hmem => hnot ?_
      rw [hnext]
      exact hmem
    exact hfollowed hdone id hold other hother
  case complete =>
    intro hdone
    exact Walk.of_level (h.complete hlt) (fun id hid => (hscan.visited id).2 (Or.inl hid))
      (hfollowed hdone)

/-- **The loop over the levels.** -/
theorem levels (left : ℕ) (h : Searched db direction limit start depth t) :
    ∃ d ≤ depth + left,
      Searched db direction limit start d (Traversal.levels db direction limit left t) ∧
      ((Traversal.levels db direction limit left t).frontier = [] ∨
        limit ≤ (Traversal.levels db direction limit left t).emitted ∨ d = depth + left) := by
  induction left generalizing depth t with
  | zero => exact ⟨depth, le_rfl, h, Or.inr (Or.inr rfl)⟩
  | succ left ih =>
    rw [Traversal.levels]
    split_ifs with hgo
    · obtain ⟨d, hd, hsearched, hend⟩ := ih (h.level hgo.2)
      refine ⟨d, by omega, hsearched, hend.imp_right fun hend => hend.imp_right fun hend => ?_⟩
      omega
    · refine ⟨depth, by omega, h, ?_⟩
      by_cases hfrontier : t.frontier = []
      · exact Or.inl hfrontier
      · exact Or.inr (Or.inl (Nat.le_of_not_lt fun hlt => hgo ⟨hfrontier, hlt⟩))

end Searched

end Traversal

/-! ### What is emitted -/

/-- The table of nodes has a row with this id. -/
def Sqlite.hasNode (db : Sqlite) (id : String) : Bool := db.nodes.any fun node => node.id = id

/-- What `GetNodesByIds` finds for one id. -/
theorem map_id_queryNode (db : Sqlite) (id : String) :
    (db.queryNode id).map NodeRow.id = [id].filter db.hasNode ∧
      ∀ node ∈ db.queryNode id, node ∈ db.nodes := by
  obtain ⟨hsub, hlen⟩ := db.queryNode_answers id
  have hmem : ∀ node ∈ db.queryNode id, node ∈ db.nodes ∧ node.id = id := by
    intro node hnode
    have := hsub.subset hnode
    simpa using this
  refine ⟨?_, fun node hnode => (hmem node hnode).1⟩
  cases hnodes : db.queryNode id with
  | nil =>
    rw [hnodes, List.length_nil] at hlen
    have hnone : db.nodes.filter (fun node => node.id = id) = [] :=
      List.length_eq_zero_iff.1 (by omega)
    have hno : db.hasNode id = false := by
      simpa [Sqlite.hasNode, List.filter_eq_nil_iff] using hnone
    simp [hno]
  | cons node rest =>
    rw [hnodes, List.length_cons] at hlen
    have hrest : rest = [] := List.length_eq_zero_iff.1 (by omega)
    obtain ⟨hin, hid⟩ := hmem node (by rw [hnodes]; exact List.mem_cons_self)
    have hyes : db.hasNode id = true := by
      simpa [Sqlite.hasNode] using ⟨node, hin, hid⟩
    simp [hrest, hyes, hid]

/-- `GetNodesByIds` finds the ids that have a row, in their order. -/
theorem map_id_getNodesByIds (db : Sqlite) (ids : List String) :
    (db.getNodesByIds ids).map NodeRow.id = ids.filter db.hasNode ∧
      ∀ node ∈ db.getNodesByIds ids, node ∈ db.nodes := by
  induction ids with
  | nil => simp [Sqlite.getNodesByIds]
  | cons id ids ih =>
    obtain ⟨hids, hrows⟩ := map_id_queryNode db id
    rw [Sqlite.getNodesByIds, List.flatMap_cons, List.map_append]
    constructor
    · rw [hids]
      show _ ++ (db.getNodesByIds ids).map NodeRow.id = _
      rw [ih.1, ← List.filter_append]
      rfl
    · intro node hnode
      exact (List.mem_append.1 hnode).elim (hrows node) (ih.2 node)

/-- What `Traversal` returns is a tree of `calls` edges from the start, no deeper than the depth
and with no more edges than the limit, and the nodes of it that are in the table. -/
structure SoundResult (db : Sqlite) (start : String) (direction : Direction) (maxDepth limit : ℕ)
    (t : Traversal) : Prop where
  atMost : t.edges.length ≤ limit
  distinct : (t.reached direction).Nodup ∧ start ∉ t.reached direction
  tree : IsTree (EdgeRow.near direction) (EdgeRow.far direction) start t.edges
  rows : ∀ edge ∈ t.edges, edge ∈ db.edges ∧ edge.kind = "calls"
  depth : ∀ id ∈ t.reached direction, ∃ n ≤ maxDepth, Walk (t.steps direction) start n id ∧
    (∀ m, Walk (t.steps direction) start m id → m = n) ∧ Walk (db.calls direction) start n id
  nodes : t.nodes.map NodeRow.id = (t.reached direction).filter db.hasNode ∧
    ∀ node ∈ t.nodes, node ∈ db.nodes

namespace Traversal.Searched

variable {db : Sqlite} {direction : Direction} {limit : ℕ} {t : Traversal} {start : String}
  {depth maxDepth : ℕ}

/-- The emitted edges are rows of the table. -/
theorem rows (h : Searched db direction limit start depth t) {edge : EdgeRow}
    (hedge : edge ∈ t.edges) : edge ∈ db.edges ∧ edge.kind = "calls" := by
  obtain ⟨-, hkind, hrow⟩ := mem_queryEdges (h.answered edge hedge)
  exact ⟨hrow, hkind⟩

theorem sound (h : Searched db direction limit start depth t) (hdepth : depth ≤ maxDepth) :
    SoundResult db start direction maxDepth limit t where
  atMost := h.emitted ▸ h.atMost
  distinct := (List.nodup_cons.1 h.tree.distinct).symm
  tree := h.tree
  rows := fun _ hedge => h.rows hedge
  depth := by
    intro id hid
    obtain ⟨n, hn, hwalk⟩ := h.within id hid
    refine ⟨n, hn.trans hdepth, hwalk, fun m hm => h.tree.depth_unique hm hwalk, ?_⟩
    refine hwalk.mono (stepsOf_mono fun edge hedge => ?_)
    obtain ⟨hrow, hkind⟩ := h.rows hedge
    exact List.mem_filter.2 ⟨hrow, decide_eq_true hkind⟩
  nodes := by
    rw [h.nodes]
    exact map_id_getNodesByIds db _

end Traversal.Searched

/-- **The traversal is sound.**  Whatever the tables hold and whatever rows the queries return,
`Traversal` emits a tree of `calls` edges from the start. -/
theorem traverse_sound (db : Sqlite) (start : String) (direction : Direction)
    (maxDepth limit : ℕ) :
    SoundResult db start direction maxDepth limit (traverse db start direction maxDepth limit) := by
  obtain ⟨d, hd, hsearched, -⟩ :=
    (Traversal.Searched.init db direction limit start).levels maxDepth
  exact hsearched.sound (by omega)

end Codegraph
end MiniRpc
