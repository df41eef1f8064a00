/-
# In which order the traversal comes to the nodes

`Traversal` (`MiniRpc.Codegraph.Traversal`) goes a level at a time and stops at the
limit, in the middle of a level.  So what it leaves out is never nearer to the start
than what it lists, and the edges that it emits lead to each node by as few calls as
there are (`NearestFirst`).

The distances are those over the rows that the queries return.  They are the
distances over the table where no query is cut.
-/

import MiniRpc.Codegraph.Reaching

namespace MiniRpc
namespace Codegraph

/-- The emitted edges lead to each node by a shortest way, the nodes come in the order of their
distances, and no node that was left out is nearer than one that was reached. -/
structure NearestFirst (R : String → String → Prop) (start : String) (direction : Direction)
    (maxDepth : ℕ) (t : Traversal) : Prop where
  shortest : ∀ id ∈ t.reached direction,
    ∃ n ≤ maxDepth, Walk (t.steps direction) start n id ∧ ∀ m, Walk R start m id → n ≤ m
  ordered : (t.reached direction).Pairwise fun a b =>
    ∀ n, Walk R start n b → ∃ m ≤ n, Walk R start m a
  nearer : ∀ id ∈ t.reached direction, ∀ m other, Walk R start m other →
    (∀ n, Walk R start n id → m < n) → other = start ∨ other ∈ t.reached direction

namespace Traversal

variable {db : Sqlite} {direction : Direction} {limit : ℕ} {t : Traversal} {start : String}
  {depth maxDepth : ℕ}

/-- After `depth` levels: each node was reached at its distance, the nodes are in the order of
their distances, and all that is nearer than the last level was visited. -/
structure Levelled (db : Sqlite) (direction : Direction) (limit : ℕ) (start : String) (depth : ℕ)
    (t : Traversal) : Prop where
  shortest : ∀ id ∈ t.reached direction, ∃ n ≤ depth, Walk (t.steps direction) start n id ∧
    Shortest (db.answers direction limit) start n id
  ordered : (t.reached direction).Pairwise fun a b =>
    ∀ n, Walk (db.answers direction limit) start n b →
      Within (db.answers direction limit) n start a
  covered : ∀ m < depth, ∀ id, Walk (db.answers direction limit) start m id → id ∈ t.visited

/-- **What a level emits** leads to nodes that were not visited, the next frontier. -/
theorem level_emits (hlt : t.emitted < limit) :
    ∃ new, (t.level db direction limit).edges = t.edges ++ new ∧
      (t.level db direction limit).frontier = new.map (EdgeRow.far direction) ∧
      ∀ id ∈ new.map (EdgeRow.far direction), id ∉ t.visited := by
  obtain ⟨new, hscan⟩ : ∃ new, Scanned direction limit
      (fun edge => ∃ id ∈ t.frontier, edge ∈ db.queryEdges direction id limit)
      { t with next := [] } (scanFrontier db direction limit { t with next := [] } t.frontier)
      new := scanned_scanFrontier hlt
  exact ⟨new, hscan.edges, hscan.next.trans (List.nil_append _), hscan.fresh⟩

namespace Levelled

theorem init (db : Sqlite) (direction : Direction) (limit : ℕ) (start : String) :
    Levelled db direction limit start 0 { frontier := [start], visited := [start] } where
  shortest := by simp [reached]
  ordered := List.Pairwise.nil
  covered := fun m hm => absurd hm (Nat.not_lt_zero m)

/-- **One level more.** -/
theorem level (h : Levelled db direction limit start depth t)
    (hs : Searched db direction limit start depth t) (hlt : t.emitted < limit) :
    Levelled db direction limit start (depth + 1) (t.level db direction limit) := by
  have hs' := hs.level hlt
  obtain ⟨new, hedges, hfrontier, hfresh⟩ := @level_emits db direction limit t hlt
  generalize t.level db direction limit = u at hs' hedges hfrontier ⊢
  have hreached : u.reached direction = t.reached direction ++ new.map (EdgeRow.far direction) := by
    rw [reached, hedges, List.map_append]
    rfl
  have hsteps : ∀ a b, t.steps direction a b → u.steps direction a b := by
    refine stepsOf_mono fun edge hedge => ?_
    rw [hedges]
    exact List.mem_append_left _ hedge
  -- all that is no farther than the level before was visited, so a new node is farther
  have hnew : ∀ id ∈ new.map (EdgeRow.far direction),
      Walk (u.steps direction) start (depth + 1) id ∧
      Shortest (db.answers direction limit) start (depth + 1) id := by
    intro id hid
    have hwalk := hs'.frontier id (hfrontier ▸ hid)
    exact ⟨hwalk, (hwalk.mono fun _ _ => hs'.answers_of_steps).shortest (hs.complete hlt)
      (hfresh id hid)⟩
  constructor
  case shortest =>
    intro id hid
    rcases List.mem_append.1 (hreached ▸ hid) with hid | hid
    · obtain ⟨n, hn, hwalk, hshort⟩ := h.shortest id hid
      exact ⟨n, by omega, hwalk.mono hsteps, hshort⟩
    · exact ⟨depth + 1, le_rfl, hnew id hid⟩
  case ordered =>
    rw [hreached, List.pairwise_append]
    refine ⟨h.ordered, List.pairwise_of_forall_mem_list fun a ha b hb n hn => ?_,
      fun a ha b hb n hn => ?_⟩
    · exact ⟨depth + 1, (hnew b hb).2.2 n hn, (hnew a ha).2.1⟩
    · obtain ⟨m, hm, -, hshort⟩ := h.shortest a ha
      have := (hnew b hb).2.2 n hn
      exact ⟨m, by omega, hshort.1⟩
  case covered =>
    intro m hm id hwalk
    rw [hs'.visited, hreached, List.mem_append, ← or_assoc]
    exact Or.inl ((hs.visited id).1 (hs.complete hlt m (by omega) id hwalk))

/-- **The loop over the levels.** -/
theorem levels (left : ℕ) (h : Levelled db direction limit start depth t)
    (hs : Searched db direction limit start depth t) :
    ∃ d ≤ depth + left,
      Levelled db direction limit start d (Traversal.levels db direction limit left t) ∧
      Searched db direction limit start d (Traversal.levels db direction limit left t) := by
  induction left generalizing depth t with
  | zero => exact ⟨depth, le_rfl, h, hs⟩
  | succ left ih =>
    rw [Traversal.levels]
    split_ifs with hgo
    · obtain ⟨d, hd, hlevelled, hsearched⟩ := ih (h.level hs hgo.2) (hs.level hgo.2)
      exact ⟨d, by omega, hlevelled, hsearched⟩
    · exact ⟨depth, by omega, h, hs⟩

end Levelled

/-- What is levelled is in the order of the distances. -/
theorem Levelled.nearestFirst (h : Levelled db direction limit start depth t)
    (hs : Searched db direction limit start depth t) (hdepth : depth ≤ maxDepth) :
    NearestFirst (db.answers direction limit) start direction maxDepth t where
  shortest := by
    intro id hid
    obtain ⟨n, hn, hwalk, hshort⟩ := h.shortest id hid
    exact ⟨n, hn.trans hdepth, hwalk, hshort.2⟩
  ordered := h.ordered
  nearer := by
    intro id hid m other hwalk hlt
    obtain ⟨n, hn, -, hshort⟩ := h.shortest id hid
    have := hlt n hshort.1
    exact (hs.visited other).1 (h.covered m (by omega) other hwalk)

end Traversal

/-- **The traversal takes the nearest first.**  Whatever the tables hold, whatever rows the
queries return and wherever the limit stops it, the edges that `Traversal` emits lead to each
node by a shortest way over the rows that were returned; the nodes are in the order of their
distances; and a node that is nearer than one of them was not left out.  If no node has more
edges than the limit, this is so over the table. -/
theorem traverse_nearestFirst (db : Sqlite) (start : String) (direction : Direction)
    (maxDepth limit : ℕ) :
    NearestFirst (db.answers direction limit) start direction maxDepth
      (traverse db start direction maxDepth limit) ∧
    ((∀ id, (db.edges.filter fun edge =>
        edge.near direction = id && edge.kind = "calls").length ≤ limit) →
      NearestFirst (db.calls direction) start direction maxDepth
        (traverse db start direction maxDepth limit)) := by
  obtain ⟨d, hd, hlevelled, hsearched⟩ :=
    (Traversal.Levelled.init db direction limit start).levels maxDepth (.init ..)
  have hnearest := hlevelled.nearestFirst hsearched (by omega : d ≤ maxDepth)
  refine ⟨hnearest, fun hfew => ?_⟩
  have hcalls : db.answers direction limit = db.calls direction :=
    funext fun a => funext fun b => propext ⟨calls_of_answers, answers_of_few (hfew a)⟩
  exact hcalls ▸ hnearest

/-- A function that calls two others, both of which call a third. -/
example : ((traverse (.inOrder [] [{ source := "a", target := "b", kind := "calls" },
    { source := "b", target := "d", kind := "calls" },
    { source := "a", target := "c", kind := "calls" },
    { source := "c", target := "d", kind := "calls" }]) "a" .outgoing 3 9).reached .outgoing) =
      ["b", "c", "d"] := by
  decide

end Codegraph
end MiniRpc
