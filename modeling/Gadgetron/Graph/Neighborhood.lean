import Gadgetron.Graph.Visible

/-!
# Neighborhoods and balls

The ball around a node by distance, and what `neighborhood` returns of it.  A level that could
exceed a limit marks the result as truncated, although the ball may end there.
-/

namespace Gadgetron.Graph

open Lib Spaces List

def nodeIds (nodes : List GraphNodeRow) : List String := nodes.map (·.stableNodeId)

def touches (edges : List GraphEdgeRow) (id : String) : Bool :=
  edges.any fun edge => edge.fromNodeId = id || edge.toNodeId = some id

/-- What a ball is taken of: the graph as a query may see it, and the query. -/
structure Ball where
  db : GraphDb
  scope : GraphReadScope
  query : NeighborhoodQuery

namespace Ball

variable (b : Ball)

def live : List GraphNodeRow :=
  (b.db.nodesOf b.scope.generationId).filter fun row =>
    b.scope.showsNode row && row.status ≠ "tombstone"

/-- The edges of the wanted kinds that the nodes have in the wanted direction. -/
def adjacent (frontier : List String) : List GraphEdgeRow :=
  (b.db.edgesOf b.scope.generationId).filter fun row =>
    b.scope.showsEdge row && b.query.direction.meets frontier row &&
      (b.query.relationKinds.isEmpty || b.query.relationKinds.contains row.relationKind)

def nodes : ℕ → List GraphNodeRow
  | 0 => b.live.filter (·.stableNodeId = b.query.centerNodeId)
  | d + 1 => b.live.filter fun row =>
    (nodeIds (nodes d)).contains row.stableNodeId ||
      touches (b.adjacent (nodeIds (nodes d))) row.stableNodeId

def ids (d : ℕ) : List String := nodeIds (b.nodes d)

def edges : ℕ → List GraphEdgeRow
  | 0 => []
  | d + 1 => b.adjacent (b.ids d)

def ring : ℕ → List GraphNodeRow
  | 0 => b.nodes 0
  | d + 1 => (b.nodes (d + 1)).filter fun row => !(b.ids d).contains row.stableNodeId

def ringIds (d : ℕ) : List String := nodeIds (b.ring d)

/-- The ids next to a ring and outside the ball, those of nodes that are not shown included. -/
def reached (d : ℕ) : List String :=
  ((b.adjacent (b.ringIds d)).flatMap (otherEnds b.query.centerNodeId)).dedup.filter fun id =>
    !(b.ids d).contains id

/-- The whole neighborhood fits within the limits of the query. -/
def Fits : Prop :=
  (b.nodes b.query.maxDepth).length ≤ b.query.nodeLimit ∧
    (b.edges b.query.maxDepth).length ≤ b.query.edgeLimit

/-- The next ring fits within the limits of the query. -/
def Room (d : ℕ) : Prop :=
  b.ring d = [] ∨
    ((b.nodes d).length < b.query.nodeLimit ∧ (b.edges d).length < b.query.edgeLimit) ∧
    (b.edges d).length + (b.adjacent (b.ringIds d)).length ≤ b.query.edgeLimit ∧
    (b.nodes d).length + (b.reached d).length ≤ b.query.nodeLimit

open Classical in
/-- The result is the ball, or a part of it that is marked. -/
def Exact (result : GraphNeighborhood) : Prop :=
  if b.Fits then
    result.nodes = b.nodes b.query.maxDepth ∧ result.edges = b.edges b.query.maxDepth ∧
      result.truncated = false
  else
    result.truncated = true ∧ (result.nodes.Subperm (b.nodes b.query.maxDepth) ∧
        result.nodes.length ≤ b.query.nodeLimit) ∧ result.edges.Subperm (b.edges b.query.maxDepth) ∧
        result.edges.length ≤ b.query.edgeLimit

end Ball

variable {db : GraphDb} {b : Ball} {d : ℕ}

/-! ## Rows of a generation -/

theorem pairwise_ofGeneration {ρ : Type} {key : ρ → Uuid × String} (t : Table key)
    (generationId : Uuid) : (sortBy (fun a b => compare (key a).2 (key b).2)
      (t.rows.filter fun row => (key row).1 = generationId)).Pairwise
        fun a b => (key a).2 < (key b).2 := by
  refine sortBy_pairwise_lt (fun _ _ => rfl) ?_
  refine Nodup.map_on (fun a ha b hb hid => ?_) (t.nodup.of_map.filter _)
  obtain ⟨ha, hga⟩ := List.mem_filter.1 ha
  obtain ⟨hb, hgb⟩ := List.mem_filter.1 hb
  rw [decide_eq_true_eq] at hga hgb
  exact Table.eq_of_key ha hb (Prod.ext (hga.trans hgb.symm) hid)

theorem nodesOf_pairwise (generationId : Uuid) :
    (db.nodesOf generationId).Pairwise fun a b => a.stableNodeId < b.stableNodeId :=
  pairwise_ofGeneration db.nodes generationId

theorem edgesOf_pairwise (generationId : Uuid) :
    (db.edgesOf generationId).Pairwise fun a b => a.stableEdgeId < b.stableEdgeId :=
  pairwise_ofGeneration db.edges generationId

theorem eq_of_nodeId {x y : GraphNodeRow} (hx : x ∈ b.live) (hy : y ∈ b.live)
    (h : x.stableNodeId = y.stableNodeId) : x = y :=
  inj_on_of_nodup_map
    (pairwise_map.2 ((nodesOf_pairwise b.scope.generationId).imp fun h => h.ne))
    (List.mem_filter.1 hx).1 (List.mem_filter.1 hy).1 h

theorem eq_of_edgeId {x y : GraphEdgeRow} (hx : x ∈ b.db.edgesOf b.scope.generationId)
    (hy : y ∈ b.db.edgesOf b.scope.generationId) (h : x.stableEdgeId = y.stableEdgeId) : x = y :=
  inj_on_of_nodup_map
    (pairwise_map.2 ((edgesOf_pairwise b.scope.generationId).imp fun h => h.ne)) hx hy h

variable {row : GraphNodeRow}

theorem mem_live (h : row ∈ b.nodes d) : row ∈ b.live := by
  cases d <;> exact (List.mem_filter.1 h).1

theorem mem_edgesOf_ball {row : GraphEdgeRow} (h : row ∈ b.edges d) :
    row ∈ b.db.edgesOf b.scope.generationId := by
  cases d with
  | zero => cases h
  | succ d => exact (List.mem_filter.1 h).1

theorem nodes_pairwise : (b.nodes d).Pairwise fun a b => a.stableNodeId < b.stableNodeId := by
  have hlive := (@nodesOf_pairwise b.db b.scope.generationId).filter
    fun row => b.scope.showsNode row && row.status ≠ "tombstone"
  cases d <;> exact hlive.filter _

theorem edges_pairwise : (b.edges d).Pairwise fun a b => a.stableEdgeId < b.stableEdgeId := by
  cases d with
  | zero => exact .nil
  | succ d => exact (edgesOf_pairwise b.scope.generationId).filter _

/-! ## One step of the ball -/

variable {id : String}

theorem mem_nodeIds {nodes : List GraphNodeRow} :
    id ∈ nodeIds nodes ↔ ∃ row ∈ nodes, row.stableNodeId = id := List.mem_map

theorem mem_ids_iff (hrow : row ∈ b.live) : row.stableNodeId ∈ b.ids d ↔ row ∈ b.nodes d := by
  refine ⟨fun h => ?_, fun h => List.mem_map_of_mem h⟩
  obtain ⟨row', hrow', hid⟩ := mem_nodeIds.1 h
  exact eq_of_nodeId (mem_live hrow') hrow hid ▸ hrow'

theorem not_contains_iff {ids : List String} : (!ids.contains id) = true ↔ id ∉ ids := by
  rw [Bool.not_eq_true', ← Bool.not_eq_true, contains_iff_mem]

theorem touches_iff {edges : List GraphEdgeRow} :
    touches edges id ↔ ∃ edge ∈ edges, id ∈ edge.fromNodeId :: edge.toNodeId.toList := by
  simp only [touches, List.any_eq_true, Bool.or_eq_true, decide_eq_true_eq, mem_cons,
    Option.mem_toList]
  simp only [@eq_comm _ id]

variable {edge : GraphEdgeRow} {frontier : List String}

theorem meets_iff {direction : GraphDirection} :
    direction.meets frontier edge ↔ ∃ id ∈ frontier, direction.meets [id] edge := by
  cases direction with
  | outgoing => simp [GraphDirection.meets]
  | incoming => simp [GraphDirection.meets, Option.any_eq_true, and_comm]
  | both =>
    simp only [GraphDirection.meets, Bool.or_eq_true, contains_iff_mem, mem_singleton,
      Option.any_eq_true, and_or_left, exists_or]
    simp [and_comm]

theorem mem_adjacent : edge ∈ b.adjacent frontier ↔ ∃ id ∈ frontier, edge ∈ b.adjacent [id] := by
  simp only [Ball.adjacent, List.mem_filter, Bool.and_eq_true]
  rw [meets_iff]
  constructor
  · rintro ⟨hmem, ⟨hshows, id, hid, hmeets⟩, hkind⟩
    exact ⟨id, hid, hmem, ⟨hshows, hmeets⟩, hkind⟩
  · rintro ⟨id, hid, hmem, ⟨hshows, hmeets⟩, hkind⟩
    exact ⟨hmem, ⟨hshows, id, hid, hmeets⟩, hkind⟩

theorem mem_nodes_succ : row ∈ b.nodes (d + 1) ↔
    row ∈ b.live ∧ (row ∈ b.nodes d ∨ touches (b.edges (d + 1)) row.stableNodeId) := by
  rw [Ball.nodes, List.mem_filter, Bool.or_eq_true, contains_iff_mem]
  exact and_congr_right fun hrow => or_congr_left (mem_ids_iff hrow)

theorem nodes_mono (h : row ∈ b.nodes d) : row ∈ b.nodes (d + 1) :=
  mem_nodes_succ.2 ⟨mem_live h, .inl h⟩

theorem mem_ids_ring : id ∈ b.ids d ↔ id ∈ b.ringIds d ∨ ∃ k, d = k + 1 ∧ id ∈ b.ids k := by
  cases d with
  | zero => simp [Ball.ids, Ball.ringIds, Ball.ring]
  | succ d =>
    constructor
    · intro h
      by_cases hd : id ∈ b.ids d
      · exact .inr ⟨d, rfl, hd⟩
      · obtain ⟨row, hrow, rfl⟩ := mem_nodeIds.1 h
        refine .inl (List.mem_map_of_mem (List.mem_filter.2 ⟨hrow, ?_⟩))
        simpa using hd
    · rintro (h | ⟨k, hk, h⟩)
      · obtain ⟨row, hrow, rfl⟩ := mem_nodeIds.1 h
        exact List.mem_map_of_mem (List.mem_filter.1 hrow).1
      · obtain rfl := Nat.succ.inj hk
        obtain ⟨row, hrow, rfl⟩ := mem_nodeIds.1 h
        exact List.mem_map_of_mem (nodes_mono hrow)

theorem mem_edges_succ : edge ∈ b.edges (d + 1) ↔ edge ∈ b.edges d ∨
      edge ∈ b.adjacent (b.ringIds d) := by
  rw [Ball.edges, mem_adjacent]
  constructor
  · rintro ⟨id, hid, hedge⟩
    rcases mem_ids_ring.1 hid with hring | ⟨k, rfl, hball⟩
    · exact .inr (mem_adjacent.2 ⟨id, hring, hedge⟩)
    · exact .inl (mem_adjacent.2 ⟨id, hball, hedge⟩)
  · rintro (h | h)
    · cases d with
      | zero => cases h
      | succ d =>
        obtain ⟨id, hid, hedge⟩ := mem_adjacent.1 h
        exact ⟨id, mem_ids_ring.2 (.inr ⟨d, rfl, hid⟩), hedge⟩
    · obtain ⟨id, hid, hedge⟩ := mem_adjacent.1 h
      exact ⟨id, mem_ids_ring.2 (.inl hid), hedge⟩

theorem mem_ball_of_touches (hrow : row ∈ b.live)
    (h : touches (b.edges d) row.stableNodeId) : row ∈ b.nodes d := by
  cases d with
  | zero => cases h
  | succ d => exact mem_nodes_succ.2 ⟨hrow, .inr h⟩

theorem mem_reached (hcenter : b.query.centerNodeId ∈ b.ids d) : id ∈ b.reached d ↔ touches
    (b.adjacent (b.ringIds d)) id ∧ id ∉ b.ids d := by
  simp only [Ball.reached, List.mem_filter, mem_dedup, mem_flatMap, otherEnds, not_contains_iff]
  rw [touches_iff]
  constructor
  · rintro ⟨⟨edge, hedge, hid⟩, hnot⟩
    exact ⟨⟨edge, hedge, hid.1⟩, hnot⟩
  · rintro ⟨⟨edge, hedge, hid⟩, hnot⟩
    refine ⟨⟨edge, hedge, hid, decide_eq_true ?_⟩, hnot⟩
    rintro rfl
    exact hnot hcenter

theorem ring_succ (hcenter : b.query.centerNodeId ∈ b.ids d) :
    b.ring (d + 1) = (b.live).filter fun row =>
      (b.reached d).contains row.stableNodeId := by
  rw [Ball.ring, Ball.nodes, List.filter_filter]
  refine filter_congr fun row hrow => ?_
  rw [Bool.eq_iff_iff]
  simp only [Bool.and_eq_true, Bool.or_eq_true, not_contains_iff, contains_iff_mem]
  rw [mem_reached hcenter]
  constructor
  · rintro ⟨hnot, hid | htouches⟩
    · exact absurd hid hnot
    · obtain ⟨edge, hedge, hid⟩ := touches_iff.1 htouches
      rcases mem_edges_succ.1 hedge with hold | hnew
      · exact absurd (mem_ids_iff hrow |>.2
          (mem_ball_of_touches hrow (touches_iff.2 ⟨edge, hold, hid⟩))) hnot
      · exact ⟨touches_iff.2 ⟨edge, hnew, hid⟩, hnot⟩
  · rintro ⟨htouches, hnot⟩
    obtain ⟨edge, hedge, hid⟩ := touches_iff.1 htouches
    exact ⟨hnot, .inr (touches_iff.2 ⟨edge, mem_edges_succ.2 (.inr hedge), hid⟩)⟩

/-! ## One level of the search -/

def nextSearch (b : Ball) (search : NeighborhoodSearch) : NeighborhoodSearch :=
  let edges := b.adjacent search.frontier
  let edgeRoom := b.query.edgeLimit - search.edges.length
  let nextIds := sortBy compare
    (((edges.take edgeRoom).flatMap (otherEnds b.query.centerNodeId)).dedup.filter fun id =>
      !search.nodes.any (·.stableNodeId = id))
  let nodeRoom := b.query.nodeLimit - search.nodes.length
  let nodes := (b.live).filter fun row =>
    (nextIds.take nodeRoom).contains row.stableNodeId
  { nodes := nodes.foldl (insertBy (·.stableNodeId)) search.nodes
    edges := (edges.take edgeRoom).foldl (insertBy (·.stableEdgeId)) search.edges
    frontier := nodeIds nodes
    truncated := search.truncated || edgeRoom < edges.length || nodeRoom < nextIds.length }

def NeighborhoodSearch.stops (search : NeighborhoodSearch) (query : NeighborhoodQuery) : Bool :=
  search.frontier.isEmpty || query.nodeLimit ≤ search.nodes.length ||
    query.edgeLimit ≤ search.edges.length

theorem run_fetchAdjacentEdges_eq (frontier : List String) (limit : ℕ) :
    (fetchAdjacentEdges b.scope frontier b.query.direction b.query.relationKinds limit).run b.db =
      .ok ((b.adjacent frontier).take limit) := by
  unfold fetchAdjacentEdges
  split_ifs with hempty
  · rw [List.isEmpty_iff.1 hempty]
    have hnone : b.adjacent [] = [] := by
      refine eq_nil_iff_forall_not_mem.2 fun edge hedge => ?_
      obtain ⟨id, hid, -⟩ := mem_adjacent.1 hedge
      cases hid
    rw [hnone, take_nil]
    rfl
  · rw [Reads.run_statement]
    rfl

theorem run_fetchNodes_eq (ids : List String) : (fetchNodes b.scope ids).run b.db =
      .ok ((b.live).filter fun row => ids.contains row.stableNodeId) := by
  unfold fetchNodes
  split_ifs with hempty
  · rw [List.isEmpty_iff.1 hempty]
    simp
    rfl
  · rw [Reads.run_statement, Ball.live, List.filter_filter]
    refine congrArg _ (filter_congr fun row _ => ?_)
    cases b.scope.showsNode row <;> cases ids.contains row.stableNodeId <;> simp

theorem run_neighborhoodLevels_succ (search : NeighborhoodSearch) (depth : ℕ) :
    (neighborhoodLevels b.scope b.query (depth + 1) search).run b.db = if search.stops b.query then
        .ok { search with truncated := search.truncated || !search.frontier.isEmpty }
      else (neighborhoodLevels b.scope b.query depth (nextSearch b search)).run b.db := by
  rw [neighborhoodLevels, NeighborhoodSearch.stops]
  by_cases hstops : (search.frontier.isEmpty || b.query.nodeLimit ≤ search.nodes.length ||
      b.query.edgeLimit ≤ search.edges.length) = true
  · rw [if_pos hstops, if_pos hstops]
    rfl
  · rw [if_neg hstops, if_neg hstops]
    have htake : ((b.adjacent search.frontier).take
        (b.query.edgeLimit - search.edges.length + 1)).take
          (b.query.edgeLimit - search.edges.length) =
          (b.adjacent search.frontier).take (b.query.edgeLimit - search.edges.length) := by
      rw [take_take, Nat.min_eq_left (Nat.le_succ _)]
    have hmore : decide (b.query.edgeLimit - search.edges.length <
        ((b.adjacent search.frontier).take (b.query.edgeLimit - search.edges.length + 1)).length) =
        decide (b.query.edgeLimit - search.edges.length < (b.adjacent search.frontier).length) := by
      rw [decide_eq_decide, length_take]
      omega
    have hok {α β : Type} (a : α) (f : α → Except KnowledgeSpaceError β) :
        (Except.ok a >>= f) = f a := rfl
    simp only [Reads.run_bind, run_fetchAdjacentEdges_eq, run_fetchNodes_eq, hok, htake, hmore,
      nextSearch, nodeIds]

section

variable {α : Type} {key : α → String}

theorem length_foldl_insertBy_le (key : α → String) (l l' : List α) :
    (l'.foldl (insertBy key) l).length ≤ l.length + l'.length := by
  induction l' generalizing l with
  | nil => simp
  | cons a rest ih =>
    have hinsert : (insertBy key l a).length ≤ l.length + 1 := by
      simpa [insertBy] using length_filter_le _ l
    have hrest := ih (insertBy key l a)
    rw [foldl_cons, length_cons]
    omega

theorem nodup_foldl_insertBy {l : List α} (l' : List α) (hl : (l.map key).Nodup) :
    ((l'.foldl (insertBy key) l).map key).Nodup := by
  induction l' generalizing l with
  | nil => exact hl
  | cons a rest ih =>
    refine ih ?_
    rw [insertBy, map_append, map_singleton, nodup_append]
    refine ⟨hl.sublist (filter_sublist.map key), nodup_singleton _, ?_⟩
    intro k hk k' hk' heq
    obtain ⟨b, hb, rfl⟩ := List.mem_map.1 hk
    have hne := (List.mem_filter.1 hb).2
    rw [decide_eq_true_eq] at hne
    exact hne (heq.trans (mem_singleton.1 hk'))

theorem mem_foldl_insertBy_iff {P : α → Prop} (hP : ∀ a b, P a → P b → key a = key b → a = b)
    {l l' : List α} (hl : ∀ a ∈ l, P a) (hl' : ∀ a ∈ l', P a) {b : α} :
    b ∈ l'.foldl (insertBy key) l ↔ b ∈ l ∨ b ∈ l' := by
  refine ⟨mem_foldl_insertBy, ?_⟩
  induction l' generalizing l with
  | nil => simp
  | cons a rest ih =>
    have ha := hl' a mem_cons_self
    intro hb
    refine ih (fun c hc => ?_) (fun c hc => hl' c (mem_cons_of_mem a hc)) ?_
    · rcases mem_insertBy hc with hc | rfl
      · exact hl c hc
      · exact ha
    · rw [mem_cons, ← or_assoc] at hb
      refine hb.imp_left fun hb => mem_append.2 ?_
      by_cases hkey : key b = key a
      · refine .inr (mem_singleton.2 ?_)
        rcases hb with hb | rfl
        · exact hP b a (hl b hb) ha hkey
        · rfl
      · rcases hb with hb | rfl
        · exact .inl (List.mem_filter.2 ⟨hb, decide_eq_true hkey⟩)
        · exact absurd rfl hkey

end

structure Part (b : Ball) (d : ℕ) (search : NeighborhoodSearch) : Prop where
  center : b.query.centerNodeId ∈ b.ids d
  nodes : ∀ row ∈ search.nodes, row ∈ b.nodes d
  edges : ∀ row ∈ search.edges, row ∈ b.edges d
  frontier : ∀ id ∈ search.frontier, id ∈ b.ids d
  distinct : (search.nodes.map (·.stableNodeId)).Nodup
  distinctEdges : (search.edges.map (·.stableEdgeId)).Nodup
  nodeRoom : search.nodes.length ≤ b.query.nodeLimit
  edgeRoom : search.edges.length ≤ b.query.edgeLimit

structure Whole (b : Ball) (d : ℕ) (search : NeighborhoodSearch) : Prop where
  nodes : ∀ row ∈ b.nodes d, row ∈ search.nodes
  edges : ∀ row ∈ b.edges d, row ∈ search.edges
  frontier : search.frontier = b.ringIds d

variable {search : NeighborhoodSearch}

theorem Part.grow (h : Part b d search) (truncated : Bool) :
    Part b (d + 1) { search with truncated } where
  center := by
    obtain ⟨row, hrow, hid⟩ := mem_nodeIds.1 h.center
    exact mem_nodeIds.2 ⟨row, nodes_mono hrow, hid⟩
  nodes row hrow := nodes_mono (h.nodes row hrow)
  edges row hrow := mem_edges_succ.2 (.inl (h.edges row hrow))
  frontier id hid := by
    obtain ⟨row, hrow, hid⟩ := mem_nodeIds.1 (h.frontier id hid)
    exact mem_nodeIds.2 ⟨row, nodes_mono hrow, hid⟩
  distinct := h.distinct
  distinctEdges := h.distinctEdges
  nodeRoom := h.nodeRoom
  edgeRoom := h.edgeRoom

theorem Part.next (h : Part b d search) : Part b (d + 1) (nextSearch b search) := by
  have hgrown := h.grow search.truncated
  have hadjacent : ∀ edge ∈ b.adjacent search.frontier,
      edge ∈ b.edges (d + 1) := by
    intro edge hedge
    obtain ⟨id, hid, hedge⟩ := mem_adjacent.1 hedge
    exact mem_adjacent.2 ⟨id, h.frontier id hid, hedge⟩
  set taken := (b.adjacent search.frontier).take
    (b.query.edgeLimit - search.edges.length) with htaken
  set nextIds := sortBy compare ((taken.flatMap (otherEnds b.query.centerNodeId)).dedup.filter
    fun id => !search.nodes.any (·.stableNodeId = id)) with hnextIds
  set nodes := (b.live).filter fun row =>
    (nextIds.take (b.query.nodeLimit - search.nodes.length)).contains row.stableNodeId with hnodes
  have hball : ∀ row ∈ nodes, row ∈ b.nodes (d + 1) := by
    intro row hrow
    obtain ⟨hlive, hid⟩ := List.mem_filter.1 hrow
    have hid := mem_of_mem_take (contains_iff_mem.1 hid)
    rw [hnextIds, mem_sortBy, List.mem_filter, mem_dedup, mem_flatMap] at hid
    obtain ⟨⟨edge, hedge, hend⟩, -⟩ := hid
    exact mem_nodes_succ.2 ⟨hlive, .inr (touches_iff.2
      ⟨edge, hadjacent edge (mem_of_mem_take hedge), (List.mem_filter.1 hend).1⟩)⟩
  have hlength : nodes.length ≤ b.query.nodeLimit - search.nodes.length := by
    have hnodup : (nodeIds nodes).Nodup := (pairwise_map.2
      ((nodesOf_pairwise b.scope.generationId).imp fun h => h.ne)).sublist
        ((filter_sublist.trans filter_sublist).map _)
    have hsub : nodeIds nodes ⊆ nextIds.take (b.query.nodeLimit - search.nodes.length) := by
      intro id hid
      obtain ⟨row, hrow, rfl⟩ := mem_nodeIds.1 hid
      exact contains_iff_mem.1 (List.mem_filter.1 hrow).2
    have hle := (hnodup.subperm hsub).length_le
    rw [nodeIds, List.length_map, length_take] at hle
    omega
  have hnodeRoom := h.nodeRoom
  have hedgeRoom := h.edgeRoom
  refine ⟨hgrown.center, ?_, ?_, ?_, nodup_foldl_insertBy _ h.distinct,
    nodup_foldl_insertBy _ h.distinctEdges, ?_, ?_⟩
  · intro row hrow
    rcases mem_foldl_insertBy hrow with hold | hnew
    · exact hgrown.nodes row hold
    · exact hball row hnew
  · intro row hrow
    rcases mem_foldl_insertBy hrow with hold | hnew
    · exact hgrown.edges row hold
    · exact hadjacent row (mem_of_mem_take hnew)
  · intro id hid
    obtain ⟨row, hrow, rfl⟩ := mem_nodeIds.1 hid
    exact List.mem_map_of_mem (hball row hrow)
  · have hle := length_foldl_insertBy_le (·.stableNodeId) search.nodes nodes
    exact hle.trans (by omega)
  · have hle := length_foldl_insertBy_le (·.stableEdgeId) search.edges taken
    have htake := length_take_le (b.query.edgeLimit - search.edges.length)
      (b.adjacent search.frontier)
    rw [← htaken] at htake
    exact hle.trans (by omega)

section

variable (hp : Part b d search)

include hp

section

variable (hw : Whole b d search)
include hw

theorem perm_nodes :
    search.nodes.Perm (b.nodes d) := by
  have hnodup : (b.nodes d).Nodup :=
    nodes_pairwise.imp fun {x y} h (heq : x = y) => h.ne (heq ▸ rfl)
  exact (perm_ext_iff_of_nodup hp.distinct.of_map hnodup).2 fun row =>
    ⟨hp.nodes row, hw.nodes row⟩

theorem perm_edges :
    search.edges.Perm (b.edges d) := by
  have hnodup : (b.edges d).Nodup :=
    edges_pairwise.imp fun {x y} h (heq : x = y) => h.ne (heq ▸ rfl)
  exact (perm_ext_iff_of_nodup hp.distinctEdges.of_map hnodup).2 fun row =>
    ⟨hp.edges row, hw.edges row⟩

theorem filter_newIds :
    ((b.adjacent search.frontier).flatMap (otherEnds b.query.centerNodeId)).dedup.filter
        (fun id => !search.nodes.any (·.stableNodeId = id)) = b.reached d := by
  rw [Ball.reached, hw.frontier]
  refine filter_congr fun id _ => congrArg _ ?_
  rw [Bool.eq_iff_iff, List.any_eq_true, contains_iff_mem, Ball.ids, mem_nodeIds]
  simp only [decide_eq_true_eq, (perm_nodes hp hw).mem_iff]

theorem next_truncated_iff : (nextSearch b search).truncated = false ↔ search.truncated = false ∧
      (b.edges d).length + (b.adjacent (b.ringIds d)).length ≤
          b.query.edgeLimit ∧ (b.nodes d).length + (b.reached d).length ≤
        b.query.nodeLimit := by
  have hnodes := (perm_nodes hp hw).length_eq
  have hedges := (perm_edges hp hw).length_eq
  have hnodeRoom := hp.nodeRoom
  have hedgeRoom := hp.edgeRoom
  have hnew := filter_newIds hp hw
  simp only [nextSearch, Bool.or_eq_false_iff, decide_eq_false_iff_not, not_lt, and_assoc]
  rw [hw.frontier] at hnew ⊢
  refine and_congr_right fun _ => ?_
  constructor
  · rintro ⟨hfits, hids⟩
    rw [take_of_length_le hfits, hnew, (sortBy_perm _ _).length_eq] at hids
    omega
  · rintro ⟨hfits, hids⟩
    have hfits' : (b.adjacent (b.ringIds d)).length ≤
        b.query.edgeLimit - search.edges.length := by omega
    refine ⟨hfits', ?_⟩
    rw [take_of_length_le hfits', hnew, (sortBy_perm _ _).length_eq]
    omega

theorem Whole.next (h : (nextSearch b search).truncated = false) :
    Whole b (d + 1) (nextSearch b search) := by
  have hnext := hp.next
  have hnew := filter_newIds hp hw
  simp only [nextSearch, Bool.or_eq_false_iff, decide_eq_false_iff_not, not_lt] at h
  obtain ⟨⟨-, hedges⟩, hids⟩ := h
  have htake := take_of_length_le hedges
  rw [htake, hnew] at hids
  have hring : ((b.live).filter fun row => ((sortBy compare
      (b.reached d)).take (b.query.nodeLimit - search.nodes.length)).contains
        row.stableNodeId) = b.ring (d + 1) := by
    rw [take_of_length_le hids, ring_succ hp.center]
    refine filter_congr fun row _ => ?_
    rw [Bool.eq_iff_iff, contains_iff_mem, contains_iff_mem, mem_sortBy]
  simp only [nextSearch, htake, hnew, hring] at hnext ⊢
  refine ⟨fun row hrow => ?_, fun row hrow => ?_, rfl⟩
  · refine (mem_foldl_insertBy_iff (fun _ _ => eq_of_nodeId)
      (fun a ha => mem_live (hp.nodes a ha))
      (fun a ha => ?_)).2 ?_
    · exact mem_live (List.mem_filter.1 ha).1
    · by_cases hold : row ∈ b.nodes d
      · exact .inl (hw.nodes row hold)
      · refine .inr (List.mem_filter.2 ⟨hrow, not_contains_iff.2 fun hid => hold ?_⟩)
        exact (mem_ids_iff (mem_live hrow)).1 hid
  · refine (mem_foldl_insertBy_iff (fun _ _ => eq_of_edgeId)
      (fun a ha => mem_edgesOf_ball (hp.edges a ha))
      (fun a ha => (List.mem_filter.1 ha).1)).2 ?_
    rw [hw.frontier]
    exact (mem_edges_succ.1 hrow).imp_left (hw.edges row)

end

end

theorem Whole.grow (hw : Whole b d search) (h : b.ring d = [])
    (truncated : Bool) : Whole b (d + 1) { search with truncated } := by
  have hedges : ∀ edge, edge ∈ b.edges (d + 1) → edge ∈ b.edges d := by
    intro edge hedge
    refine (mem_edges_succ.1 hedge).resolve_right fun hnew => ?_
    obtain ⟨id, hid, -⟩ := mem_adjacent.1 hnew
    rw [Ball.ringIds, h] at hid
    cases hid
  have hnodes : ∀ row, row ∈ b.nodes (d + 1) → row ∈ b.nodes d := by
    intro row hrow
    obtain ⟨hlive, hold | htouches⟩ := mem_nodes_succ.1 hrow
    · exact hold
    · obtain ⟨edge, hedge, hid⟩ := touches_iff.1 htouches
      exact mem_ball_of_touches hlive (touches_iff.2 ⟨edge, hedges edge hedge, hid⟩)
  refine ⟨fun row hrow => hw.nodes row (hnodes row hrow),
    fun row hrow => hw.edges row (hedges row hrow), hw.frontier.trans ?_⟩
  rw [Ball.ringIds, Ball.ringIds, h, Ball.ring, filter_eq_nil_iff.2]
  intro row hrow
  rw [not_contains_iff, not_not]
  exact List.mem_map_of_mem (hnodes row hrow)

/-! ## A whole search -/

theorem Part.grow_by (h : Part b d search) (truncated : Bool) (k : ℕ) :
    Part b (d + k) { search with truncated } := by
  induction k with
  | zero => exact ⟨h.1, h.2, h.3, h.4, h.5, h.6, h.7, h.8⟩
  | succ k ih => exact ih.grow truncated

theorem Whole.grow_by (hw : Whole b d search) (h : b.ring d = [])
    (truncated : Bool) (k : ℕ) : Whole b (d + k) { search with truncated } ∧
      b.ring (d + k) = [] := by
  induction k with
  | zero => exact ⟨⟨hw.1, hw.2, hw.3⟩, h⟩
  | succ k ih =>
    have hnext := ih.1.grow ih.2 truncated
    have hframe := hnext.frontier.symm.trans ih.1.frontier
    rw [Ball.ringIds, Ball.ringIds, ih.2] at hframe
    exact ⟨hnext, map_eq_nil_iff.1 hframe⟩

section

variable (hp : Part b d search)

include hp

theorem stops_iff (hw : Whole b d search) :
    search.stops b.query ↔ (b.ring d = [] ∨ b.query.nodeLimit ≤ (b.nodes d).length) ∨
        b.query.edgeLimit ≤ (b.edges d).length := by
  rw [← (perm_nodes hp hw).length_eq, ← (perm_edges hp hw).length_eq]
  simp only [NeighborhoodSearch.stops, Bool.or_eq_true, decide_eq_true_eq, List.isEmpty_iff,
    hw.frontier, Ball.ringIds, nodeIds, map_eq_nil_iff]

theorem room_of_stops (hw : Whole b d search)
    (hstops : search.stops b.query) : b.Room d ↔ b.ring d = [] := by
  rw [stops_iff hp hw] at hstops
  refine ⟨fun hroom => ?_, .inl⟩
  by_contra hring
  have hlimits := (hroom.resolve_left hring).1
  rcases hstops with (hempty | hnodes) | hedges
  · exact hring hempty
  · omega
  · omega

theorem room_of_next (hw : Whole b d search)
    (hstops : ¬ search.stops b.query) (hfalse : search.truncated = false) :
    b.Room d ↔ (nextSearch b search).truncated = false := by
  rw [stops_iff hp hw, not_or, not_or, not_le, not_le] at hstops
  rw [next_truncated_iff hp hw, and_iff_right hfalse, Ball.Room, or_iff_right hstops.1.1,
    and_iff_right ⟨hstops.1.2, hstops.2⟩]

theorem run_levels {k : ℕ} {result : NeighborhoodSearch}
    (hw : search.truncated = false → Whole b d search)
    (h : (neighborhoodLevels b.scope b.query k search).run b.db = .ok result) :
    Part b (d + k) result ∧ (result.truncated = false ↔ search.truncated = false ∧
        ∀ j, d ≤ j → j < d + k → b.Room j) ∧
      (result.truncated = false → Whole b (d + k) result) := by
  induction k generalizing d search with
  | zero =>
    obtain rfl := Except.ok.inj h
    exact ⟨hp, ⟨fun hfalse => ⟨hfalse, fun j hj hlt => by omega⟩, fun hfalse => hfalse.1⟩, hw⟩
  | succ k ih =>
    rw [run_neighborhoodLevels_succ] at h
    split_ifs at h with hstops
    · obtain rfl := Except.ok.inj h
      simp only [Bool.or_eq_false_iff, Bool.not_eq_false', List.isEmpty_iff]
      have hring : search.truncated = false →
          (search.frontier = [] ↔ b.ring d = []) := fun hfalse => by
        rw [(hw hfalse).frontier, Ball.ringIds, nodeIds, map_eq_nil_iff]
      refine ⟨hp.grow_by _ _, and_congr_right fun hfalse => ?_, fun hfalse =>
        ((hw hfalse.1).grow_by ((hring hfalse.1).1 hfalse.2) _ _).1⟩
      rw [hring hfalse]
      constructor
      · intro hempty j hj _
        obtain ⟨i, rfl⟩ := Nat.exists_eq_add_of_le hj
        exact .inl ((hw hfalse).grow_by hempty false i).2
      · intro hroom
        exact (room_of_stops hp (hw hfalse) hstops).1 (hroom d le_rfl (by omega))
    · have hnext : (nextSearch b search).truncated = false →
          search.truncated = false := fun hfalse => by
        simp only [nextSearch, Bool.or_eq_false_iff] at hfalse
        exact hfalse.1.1
      obtain ⟨hpart, hiff, hwhole⟩ := ih hp.next
        (fun hfalse => (hw (hnext hfalse)).next hp hfalse) h
      rw [show d + (k + 1) = d + 1 + k by omega]
      refine ⟨hpart, hiff.trans ⟨fun hrest => ?_, fun hall => ?_⟩, hwhole⟩
      · refine ⟨hnext hrest.1, fun j hj hlt => ?_⟩
        rcases hj.eq_or_lt with rfl | hlater
        · exact (room_of_next hp (hw (hnext hrest.1)) hstops (hnext hrest.1)).2 hrest.1
        · exact hrest.2 j hlater hlt
      · refine ⟨?_, fun j hj hlt => hall.2 j (by omega) hlt⟩
        exact (room_of_next hp (hw hall.1) hstops hall.1).1 (hall.2 d le_rfl (by omega))

end

section

variable {cast : String → Option Uuid} {visibleSpaces : List Uuid} {query : NeighborhoodQuery}
  {result : GraphNeighborhood}

def ballOf (db : GraphDb) (cast : String → Option Uuid) (visibleSpaces : List Uuid)
    (query : NeighborhoodQuery) (generation : GraphGenerationRow) : Ball :=
  ⟨db, ⟨cast, generation.id, visibleSpaces⟩, query⟩

theorem exists_search (h : (neighborhood cast visibleSpaces query).run db = .ok result) :
    ∃ b search, b = ballOf db cast visibleSpaces query result.generation ∧
      Part b query.maxDepth search ∧ (search.truncated = false ↔ ∀ d < query.maxDepth, b.Room d) ∧
      (search.truncated = false → Whole b query.maxDepth search) ∧
      result.nodes = sortBy (fun left right => compare left.stableNodeId right.stableNodeId)
        search.nodes ∧
      result.edges = sortBy (fun left right => compare left.stableEdgeId right.stableEdgeId)
        search.edges ∧ result.truncated = search.truncated := by
  unfold neighborhood at h
  obtain ⟨_, hvalid, h⟩ := Reads.run_bind_eq_ok.1 h
  obtain ⟨generation, hgeneration, h⟩ := Reads.run_bind_eq_ok.1 h
  obtain ⟨center, hcenter, h⟩ := Reads.run_bind_eq_ok.1 h
  obtain ⟨search, hsearch, h⟩ := Reads.run_bind_eq_ok.1 h
  obtain rfl := Except.ok.inj h
  obtain ⟨hshown, hid, hlive⟩ := run_getNode (run_lookupGeneration hgeneration) hcenter
  set b := ballOf db cast visibleSpaces query generation with hb
  have hmem : center ∈ b.live := by
    refine List.mem_filter.2 ⟨hshown.1, ?_⟩
    rw [hb, ballOf, hshown.2, Bool.true_and, decide_eq_true hlive]
  have hball : b.nodes 0 = [center] := by
    refine eq_of_pairwise_lt nodes_pairwise (pairwise_singleton _ _) fun row => ?_
    rw [Ball.nodes, List.mem_filter, mem_singleton, decide_eq_true_eq]
    constructor
    · exact fun hrow => eq_of_nodeId hrow.1 hmem (hrow.2.trans hid.symm)
    · exact fun hrow => hrow ▸ ⟨hmem, hid⟩
  have hids : b.ids 0 = [query.centerNodeId] := by
    rw [Ball.ids, hball]
    exact congrArg (fun id => [id]) hid
  rw [Reads.run_ofExcept, validateNeighborhood] at hvalid
  split_ifs at hvalid with hbad
  simp only [Bool.or_eq_true, decide_eq_true_eq, Bool.not_eq_true', Bool.and_eq_false_iff,
    decide_eq_false_iff_not, not_or, not_not] at hbad
  have hstart : Part b 0 ⟨[center], [], [query.centerNodeId], false⟩ := by
    refine ⟨?_, ?_, fun _ hedge => hedge, ?_, nodup_singleton _, nodup_nil, ?_, Nat.zero_le _⟩
    · rw [hids]
      exact mem_singleton_self _
    · rw [hball]
      exact fun _ hrow => hrow
    · rw [hids]
      exact fun _ hid => hid
    · exact hbad.1.2.1
  have hwhole : Whole b 0 ⟨[center], [], [query.centerNodeId], false⟩ := by
    refine ⟨?_, fun _ hedge => hedge, hids.symm⟩
    rw [hball]
    exact fun _ hrow => hrow
  obtain ⟨hpart, hiff, hw⟩ := run_levels hstart (fun _ => hwhole) hsearch
  simp only [Nat.zero_add, Nat.zero_le, true_and, forall_const] at hpart hiff hw
  exact ⟨b, search, rfl, hpart, hiff, hw, rfl, rfl, rfl⟩

/-- A neighborhood is exact when its ball does not fit, or every level of it has room. -/
theorem neighborhood_exact_iff (h : (neighborhood cast visibleSpaces query).run db = .ok result) :
    (ballOf db cast visibleSpaces query result.generation).Exact result ↔
      ((ballOf db cast visibleSpaces query result.generation).Fits → ∀ d < query.maxDepth,
        (ballOf db cast visibleSpaces query result.generation).Room d) := by
  obtain ⟨b, search, hb, hpart, hiff, hw, hnodes, hedges, htruncated⟩ := exists_search h
  have hquery : b.query = query := hb ▸ rfl
  rw [← hb, ← hiff, ← htruncated]
  rw [← hquery] at hpart hw
  rw [← htruncated] at hw
  have hnodesPerm : result.nodes.Perm search.nodes := hnodes ▸ sortBy_perm _ _
  have hedgesPerm : result.edges.Perm search.edges := hedges ▸ sortBy_perm _ _
  have hwhole : result.truncated = false → result.nodes = b.nodes b.query.maxDepth ∧
      result.edges = b.edges b.query.maxDepth := by
    intro hfalse
    constructor
    · rw [hnodes]
      refine eq_of_pairwise_lt (sortBy_pairwise_lt (fun _ _ => rfl) hpart.distinct)
        nodes_pairwise fun row => ?_
      rw [mem_sortBy, (perm_nodes hpart (hw hfalse)).mem_iff]
    · rw [hedges]
      refine eq_of_pairwise_lt (sortBy_pairwise_lt (fun _ _ => rfl) hpart.distinctEdges)
        edges_pairwise fun row => ?_
      rw [mem_sortBy, (perm_edges hpart (hw hfalse)).mem_iff]
  have hnodeRoom := hnodesPerm.length_eq ▸ hpart.nodeRoom
  have hedgeRoom := hedgesPerm.length_eq ▸ hpart.edgeRoom
  rw [Ball.Exact]
  split_ifs with hfits
  · exact ⟨fun hexact _ => hexact.2.2, fun hfalse =>
      ⟨(hwhole (hfalse hfits)).1, (hwhole (hfalse hfits)).2, hfalse hfits⟩⟩
  · refine iff_of_true ⟨?_, ⟨?_, hnodeRoom⟩, ?_, hedgeRoom⟩ fun hfit => absurd hfit hfits
    · by_contra hnot
      obtain ⟨hn, he⟩ := hwhole (Bool.not_eq_true _ ▸ hnot)
      exact hfits ⟨hn ▸ hnodeRoom, he ▸ hedgeRoom⟩
    · exact hnodesPerm.subperm_right.2 (hpart.distinct.of_map.subperm hpart.nodes)
    · exact hedgesPerm.subperm_right.2 (hpart.distinctEdges.of_map.subperm hpart.edges)

end

/-! ## The neighborhood of a note -/

/-- The links to the note are counted again on the second level; no room is left for the edge of the
reference, though the ball fits the limits. -/
theorem collected_edges_counted_again : ∃ result,
    (neighborhood Uuid.ofText [1, 2] (sampleQuery 5)).run sampleDb = .ok result ∧
      result.nodes.map (·.stableNodeId) = [noteId 1, noteId 2, noteId 3] ∧
      ¬ (ballOf sampleDb Uuid.ofText [1, 2] (sampleQuery 5) result.generation).Exact result := by
  have hrun : ((neighborhood Uuid.ofText [1, 2] (sampleQuery 5)).run sampleDb).toOption.map
      (fun result =>
        (result.generation, result.nodes.map (·.stableNodeId), result.truncated)) =
          some (sampleGeneration, [noteId 1, noteId 2, noteId 3], true) := by
    decide +kernel
  obtain ⟨result, hresult, heq⟩ := Option.map_eq_some_iff.1 hrun
  obtain ⟨hgeneration, heq⟩ := Prod.mk.inj heq
  obtain ⟨hnodes, htruncated⟩ := Prod.mk.inj heq
  refine ⟨result, toOption_eq_some.1 hresult, hnodes, fun h => ?_⟩
  have hfits : (ballOf sampleDb Uuid.ofText [1, 2] (sampleQuery 5) sampleGeneration).Fits := by
    unfold Ball.Fits
    decide +kernel
  rw [hgeneration, Ball.Exact, if_pos hfits, htruncated] at h
  cases h.2.2

theorem neighborhood_exact_iff_sample : ∃ result,
    (neighborhood Uuid.ofText [1, 2] (sampleQuery 7)).run sampleDb = .ok result ∧
      result.nodes.map (·.stableNodeId) = [noteId 1, noteId 2, noteId 3, shareId 5] ∧
      (ballOf sampleDb Uuid.ofText [1, 2] (sampleQuery 7) result.generation).Exact result := by
  have hrun : ((neighborhood Uuid.ofText [1, 2] (sampleQuery 7)).run sampleDb).toOption.map
      (fun result => (result.generation, result.nodes.map (·.stableNodeId))) =
        some (sampleGeneration, [noteId 1, noteId 2, noteId 3, shareId 5]) := by
    decide +kernel
  obtain ⟨result, hresult, heq⟩ := Option.map_eq_some_iff.1 hrun
  obtain ⟨hgeneration, hnodes⟩ := Prod.mk.inj heq
  have hok := toOption_eq_some.1 hresult
  refine ⟨result, hok, hnodes, (neighborhood_exact_iff hok).2 fun _ d hd => .inr ?_⟩
  rw [hgeneration]
  match d, hd with
  | 0, _ => decide +kernel
  | 1, _ => decide +kernel

end Gadgetron.Graph
