/-
# What the traversal misses

A query of `Traversal` (`MiniRpc.Codegraph.Traversal`) stops at the limit of the
whole traversal.  That limit is for nodes: an edge to a visited node does not count
towards it.  The query counts rows, and a loop or a parallel edge is one, so a node
may be missed although few nodes can be reached.

`reaches_iff` says that the traversal comes to all of them if and only if the rows
that the queries return lead to all of them; so they do where no query is cut
(`within_answers_of_few`).
-/

import MiniRpc.Codegraph.Traversal

namespace MiniRpc
namespace Codegraph

/-- The nodes other than the start that can be reached by so many steps along `calls` edges. -/
def Sqlite.reachable (db : Sqlite) (direction : Direction) (maxDepth : ℕ) (start : String) :
    Set String :=
  {id | id ≠ start ∧ Within (db.calls direction) maxDepth start id}

/-- The traversal comes to all nodes that can be reached, and lists those that have a row. -/
structure ReachesAll (db : Sqlite) (start : String) (direction : Direction) (maxDepth : ℕ)
    (t : Traversal) : Prop where
  visits : ∀ id ∈ db.reachable direction maxDepth start, id ∈ t.reached direction
  lists : ∀ id ∈ db.reachable direction maxDepth start, db.hasNode id = true →
    ∃ node ∈ t.nodes, node.id = id

variable {db : Sqlite} {direction : Direction} {limit maxDepth : ℕ} {t : Traversal}
  {start : String}

/-- A step that a query answers is one of the table. -/
theorem calls_of_answers {a b : String} (h : db.answers direction limit a b) :
    db.calls direction a b := by
  obtain ⟨edge, hedge, hfar⟩ := h
  obtain ⟨hnear, hkind, hrow⟩ := Traversal.mem_queryEdges hedge
  exact ⟨edge, List.mem_filter.2 ⟨hrow, decide_eq_true hkind⟩, hnear, hfar⟩

/-- A query that is not cut answers every row. -/
theorem answers_of_few {a b : String}
    (hfew : (db.edges.filter fun edge => edge.near direction = a && edge.kind = "calls").length ≤
      limit)
    (h : db.calls direction a b) : db.answers direction limit a b := by
  obtain ⟨hsub, hlen⟩ := db.queryEdges_answers direction a limit
  rw [Nat.min_eq_right hfew] at hlen
  obtain ⟨edge, hedge, hnear, hfar⟩ := h
  obtain ⟨hrow, hkind⟩ := List.mem_filter.1 hedge
  refine ⟨edge, (hsub.perm_of_length_le hlen.ge).mem_iff.2 ?_, hfar⟩
  exact List.mem_filter.2 ⟨hrow, by simpa [hnear] using hkind⟩

/-- So the rows lead to all nodes if no query is cut. -/
theorem within_answers_of_few
    (hfew : ∀ a, (db.edges.filter fun edge =>
      edge.near direction = a && edge.kind = "calls").length ≤ limit)
    {a b : String} (h : Within (db.calls direction) maxDepth a b) :
    Within (db.answers direction limit) maxDepth a b :=
  h.mono fun u _ => answers_of_few (hfew u)

/-- Only the ends of edges can be reached. -/
theorem encard_reachable_le (db : Sqlite) (direction : Direction) (maxDepth : ℕ)
    (start : String) :
    (db.reachable direction maxDepth start).encard ≤
      ((db.edges.map (EdgeRow.far direction)).toFinset.erase start).card := by
  rw [← Set.encard_coe_eq_coe_finsetCard]
  refine Set.encard_le_encard ?_
  rintro id ⟨hne, n, -, hwalk⟩
  rw [Finset.mem_coe, Finset.mem_erase, List.mem_toFinset]
  refine ⟨hne, ?_⟩
  cases hwalk with
  | refl => exact absurd rfl hne
  | step _ hlast =>
    obtain ⟨edge, hedge, -, rfl⟩ := hlast
    exact List.mem_map_of_mem (List.mem_filter.1 hedge).1

/-- The emitted edges were answered. -/
theorem Traversal.Searched.answers_of_steps {depth : ℕ}
    (h : Searched db direction limit start depth t) {a b : String} (hstep : t.steps direction a b) :
    db.answers direction limit a b := by
  obtain ⟨edge, hedge, rfl, rfl⟩ := hstep
  exact ⟨edge, h.answered edge hedge, rfl⟩

/-- **What the search comes to.**  If few nodes can be reached, it comes to all to which the
answered rows lead. -/
theorem mem_reached (hfew : (db.reachable direction maxDepth start).encard ≤ limit) {id : String}
    (hne : id ≠ start) (hwithin : Within (db.answers direction limit) maxDepth start id) :
    id ∈ (traverse db start direction maxDepth limit).reached direction := by
  obtain ⟨d, hd, hsearched, hend⟩ :=
    (Traversal.Searched.init db direction limit start).levels maxDepth
  have hsound := traverse_sound db start direction maxDepth limit
  change Traversal.Searched db direction limit start d (traverse db start direction maxDepth limit)
    at hsearched
  change (traverse db start direction maxDepth limit).frontier = [] ∨
    limit ≤ (traverse db start direction maxDepth limit).emitted ∨ d = 0 + maxDepth at hend
  generalize traverse db start direction maxDepth limit = t at hsearched hend hsound ⊢
  by_cases hlt : t.emitted < limit
  · have hvisited : id ∈ t.visited := by
      obtain ⟨n, hn, hwalk⟩ := hwithin
      rcases hend with hnone | hlimit | rfl
      · -- nothing is left to follow
        refine hwalk.of_closed (P := fun id => id ∈ t.visited) ?_ fun u hu v huv => ?_
        · exact (hsearched.visited start).2 (Or.inl rfl)
        · exact hsearched.closed hlt u hu (by simp [hnone]) v huv
      · exact absurd hlt (Nat.not_lt.2 hlimit)
      · exact hsearched.complete hlt n (by omega) id hwalk
    exact ((hsearched.visited id).1 hvisited).resolve_left hne
  · -- as many nodes as can be reached were reached
    have hmem : id ∈ db.reachable direction maxDepth start :=
      ⟨hne, hwithin.mono fun _ _ => calls_of_answers⟩
    refine mem_of_length_eq hfew hsound.distinct.1 (fun other hother => ?_) ?_ hmem
    · obtain ⟨n, hn, -, -, hwalk⟩ := hsound.depth other hother
      refine ⟨?_, hwalk.within hn⟩
      rintro rfl
      exact hsound.distinct.2 hother
    · rw [Traversal.reached, List.length_map, ← hsearched.emitted]
      exact Nat.le_of_not_lt hlt

/-- **When no node is missed.**  If no more nodes than the limit can be reached, the traversal
comes to all of them, and lists those that have a row, if and only if each of them is also within
the depth over the rows that the queries return. -/
theorem reaches_iff (hfew : (db.reachable direction maxDepth start).encard ≤ limit) :
    ReachesAll db start direction maxDepth (traverse db start direction maxDepth limit) ↔
      ∀ id ∈ db.reachable direction maxDepth start,
        Within (db.answers direction limit) maxDepth start id := by
  have hsound := traverse_sound db start direction maxDepth limit
  constructor
  · intro h id hid
    obtain ⟨d, -, hsearched, -⟩ :=
      (Traversal.Searched.init db direction limit start).levels maxDepth
    obtain ⟨n, hn, hwalk, -⟩ := hsound.depth id (h.visits id hid)
    exact (hwalk.mono fun a b => hsearched.answers_of_steps).within hn
  · intro h
    have hvisits : ∀ id ∈ db.reachable direction maxDepth start,
        id ∈ (traverse db start direction maxDepth limit).reached direction :=
      fun id hid => mem_reached hfew hid.1 (h id hid)
    refine ⟨hvisits, fun id hid hrow => ?_⟩
    have hmem : id ∈ (traverse db start direction maxDepth limit).nodes.map NodeRow.id := by
      rw [hsound.nodes.1]
      exact List.mem_filter.2 ⟨hvisits id hid, hrow⟩
    exact List.mem_map.1 hmem

/-- A database that returns the rows in the order of its tables. -/
def Sqlite.inOrder (nodes : List NodeRow) (edges : List EdgeRow) : Sqlite where
  nodes := nodes
  edges := edges
  queryEdges direction id limit :=
    (edges.filter fun edge => edge.near direction = id && edge.kind = "calls").take limit
  queryEdges_answers _ _ _ := ⟨(List.take_sublist _ _).subperm, List.length_take⟩
  queryNode id := (nodes.filter fun node => node.id = id).take 1
  queryNode_answers _ := ⟨(List.take_sublist _ _).subperm, List.length_take⟩

/-- A function that calls two others, one of which calls it. -/
def mutualCalls : Sqlite :=
  .inOrder [{ id := "a" }, { id := "b" }, { id := "c" }]
    [{ source := "a", target := "b", kind := "calls" },
     { source := "a", target := "c", kind := "calls" },
     { source := "b", target := "a", kind := "calls" }]

theorem reaches_iff_mutualCalls :
    ReachesAll mutualCalls "a" .outgoing 2 (traverse mutualCalls "a" .outgoing 2 3) := by
  have hfew : (mutualCalls.reachable .outgoing 2 "a").encard ≤ (3 : ℕ) :=
    (encard_reachable_le mutualCalls .outgoing 2 "a").trans (by exact_mod_cast (by decide))
  refine (reaches_iff hfew).2 fun id hid => within_answers_of_few (fun a => ?_) hid.2
  exact List.length_filter_le _ _

/-- A function that calls itself and another one. -/
def selfCall : Sqlite :=
  .inOrder [{ id := "a" }, { id := "b" }]
    [{ source := "a", target := "a", kind := "calls" },
     { source := "a", target := "b", kind := "calls" }]

/-- **A loop hides the only node that can be reached.** -/
theorem selfCall_missed :
    ¬ ∀ (db : Sqlite) (start : String) (direction : Direction) (maxDepth limit : ℕ), 1 ≤ limit →
      (db.reachable direction maxDepth start).encard ≤ limit →
      ReachesAll db start direction maxDepth (traverse db start direction maxDepth limit) := by
  intro h
  have hfew : (selfCall.reachable .outgoing 1 "a").encard ≤ (1 : ℕ) :=
    (encard_reachable_le selfCall .outgoing 1 "a").trans (by exact_mod_cast (by decide))
  have hb : "b" ∈ selfCall.reachable .outgoing 1 "a" := by
    refine ⟨by decide, 1, le_rfl, Walk.refl.step ?_⟩
    exact ⟨{ source := "a", target := "b", kind := "calls" }, by decide, rfl, rfl⟩
  exact absurd ((h selfCall "a" .outgoing 1 1 le_rfl hfew).visits "b" hb) (by decide)

end Codegraph
end MiniRpc
