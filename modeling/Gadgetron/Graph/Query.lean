import Gadgetron.Graph.Store
import Gadgetron.Lib.Reads
import Gadgetron.Spaces.Access

/-!
# Queries of the knowledge graph

`get_node`, `neighborhood`, `paths` and `diagnostics`, as programs whose statements read the graph
one after the other, outside a transaction.
-/

namespace Gadgetron.Graph

open Lib Policy Spaces List

namespace GraphDb

variable (db : GraphDb)

def nodesOf (generationId : Uuid) : List GraphNodeRow :=
  sortBy (fun left right => compare left.stableNodeId right.stableNodeId)
    (db.nodes.rows.filter (·.generationId = generationId))

def edgesOf (generationId : Uuid) : List GraphEdgeRow :=
  sortBy (fun left right => compare left.stableEdgeId right.stableEdgeId)
    (db.edges.rows.filter (·.generationId = generationId))

end GraphDb

abbrev GraphQuery := Reads GraphDb KnowledgeSpaceError

/-- `(metadata->>'source_space_id')::UUID`; `cast` is the cast of a text. -/
def sourceSpaceOf (cast : String → Option Uuid) (metadata : Json) : Option Uuid :=
  ((jsonField "source_space_id" metadata).bind jsonText).bind cast

structure GraphReadScope where
  cast : String → Option Uuid
  generationId : Uuid
  visibleSpaces : List Uuid

namespace GraphReadScope

variable (scope : GraphReadScope)

/-- The node is in a visible space; a reference is shared from one, too. -/
def showsNode (row : GraphNodeRow) : Bool :=
  scope.visibleSpaces.contains row.spaceId &&
    (row.nodeKind ≠ "reference" ||
      (sourceSpaceOf scope.cast row.metadata).any scope.visibleSpaces.contains)

def showsEdge (row : GraphEdgeRow) : Bool :=
  scope.visibleSpaces.contains row.sourceSpaceId &&
    row.targetSpaceId.all scope.visibleSpaces.contains

end GraphReadScope

def lookupGeneration : GraphQuery GraphGenerationRow :=
  .statement fun db =>
    match db.activeGeneration with
    | some generation => .ok generation
    | none => .error .notFound

def getNode (cast : String → Option Uuid) (visibleSpaces : List Uuid) (stableNodeId : String) :
    GraphQuery GraphNodeRow :=
  if visibleSpaces.isEmpty then .fail .notFound
  else do
    let generation ← lookupGeneration
    let scope : GraphReadScope := ⟨cast, generation.id, visibleSpaces⟩
    .statement fun db =>
      match (db.nodesOf generation.id).find? fun row =>
        row.stableNodeId = stableNodeId && scope.showsNode row && row.status ≠ "tombstone" with
      | some row => .ok row
      | none => .error .notFound

inductive GraphDirection
  | outgoing
  | incoming
  | both

def GraphDirection.meets (frontier : List String) (row : GraphEdgeRow) : GraphDirection → Bool
  | .outgoing => frontier.contains row.fromNodeId
  | .incoming => row.toNodeId.any frontier.contains
  | .both => frontier.contains row.fromNodeId || row.toNodeId.any frontier.contains

def fetchAdjacentEdges (scope : GraphReadScope) (frontier : List String)
    (direction : GraphDirection) (relationKinds : List String) (limit : ℕ) :
    GraphQuery (List GraphEdgeRow) :=
  if frontier.isEmpty then pure []
  else
    .statement fun db => .ok (((db.edgesOf scope.generationId).filter fun row =>
      scope.showsEdge row && direction.meets frontier row &&
        (relationKinds.isEmpty || relationKinds.contains row.relationKind)).take limit)

def fetchNodes (scope : GraphReadScope) (ids : List String) : GraphQuery (List GraphNodeRow) :=
  if ids.isEmpty then pure []
  else
    .statement fun db => .ok ((db.nodesOf scope.generationId).filter fun row =>
      scope.showsNode row && ids.contains row.stableNodeId && row.status ≠ "tombstone")

def diagnosticEdges (scope : GraphReadScope) (predicate : GraphEdgeRow → Bool) (limit : ℕ) :
    GraphQuery (List GraphEdgeRow) :=
  .statement fun db => .ok (((db.edgesOf scope.generationId).filter fun row =>
    scope.showsEdge row && predicate row).take (limit + 1))

/-! ## Neighborhoods -/

def maxQueryNodes : ℕ := 200

def maxQueryEdges : ℕ := 500

structure NeighborhoodQuery where
  centerNodeId : String
  (maxDepth nodeLimit edgeLimit : ℕ)
  direction : GraphDirection
  relationKinds : List String

structure GraphNeighborhood where
  generation : GraphGenerationRow
  centerNodeId : String
  nodes : List GraphNodeRow
  edges : List GraphEdgeRow
  truncated : Bool

def validateNeighborhood (query : NeighborhoodQuery) : Except KnowledgeSpaceError Unit :=
  if query.maxDepth = 0 || 3 < query.maxDepth ||
      !(1 ≤ query.nodeLimit && query.nodeLimit ≤ maxQueryNodes) ||
      !(1 ≤ query.edgeLimit && query.edgeLimit ≤ maxQueryEdges) then
    .error (.invalidInput "graph neighborhood requires depth 1..=3, nodes 1..=200, edges 1..=500")
  else .ok ()

/-- `HashMap::insert` under a key. -/
def insertBy {α : Type} (key : α → String) (l : List α) (a : α) : List α :=
  l.filter (key · ≠ key a) ++ [a]

structure NeighborhoodSearch where
  nodes : List GraphNodeRow
  edges : List GraphEdgeRow
  frontier : List String
  truncated : Bool

def otherEnds (centerNodeId : String) (edge : GraphEdgeRow) : List String :=
  (edge.fromNodeId :: edge.toNodeId.toList).filter (· ≠ centerNodeId)

def neighborhoodLevels (scope : GraphReadScope) (query : NeighborhoodQuery) :
    ℕ → NeighborhoodSearch → GraphQuery NeighborhoodSearch
  | 0, search => pure search
  | depth + 1, search =>
    if search.frontier.isEmpty || query.nodeLimit ≤ search.nodes.length ||
        query.edgeLimit ≤ search.edges.length then
      pure { search with truncated := search.truncated || !search.frontier.isEmpty }
    else do
      let edgeRoom := query.edgeLimit - search.edges.length
      let fetched ← fetchAdjacentEdges scope search.frontier query.direction query.relationKinds
        (edgeRoom + 1)
      let taken := fetched.take edgeRoom
      let nextIds := sortBy compare
        ((taken.flatMap (otherEnds query.centerNodeId)).dedup.filter fun id =>
          !search.nodes.any (·.stableNodeId = id))
      let nodeRoom := query.nodeLimit - search.nodes.length
      let fetchedNodes ← fetchNodes scope (nextIds.take nodeRoom)
      neighborhoodLevels scope query depth
        { nodes := fetchedNodes.foldl (insertBy (·.stableNodeId)) search.nodes
          edges := taken.foldl (insertBy (·.stableEdgeId)) search.edges
          frontier := fetchedNodes.map (·.stableNodeId)
          truncated := search.truncated || edgeRoom < fetched.length || nodeRoom < nextIds.length }

def neighborhood (cast : String → Option Uuid) (visibleSpaces : List Uuid)
    (query : NeighborhoodQuery) : GraphQuery GraphNeighborhood := do
  Reads.ofExcept (validateNeighborhood query)
  let generation ← lookupGeneration
  let center ← getNode cast visibleSpaces query.centerNodeId
  let search ← neighborhoodLevels ⟨cast, generation.id, visibleSpaces⟩ query query.maxDepth
    { nodes := [center], edges := [], frontier := [query.centerNodeId], truncated := false }
  pure
    { generation
      centerNodeId := query.centerNodeId
      nodes := sortBy (fun left right => compare left.stableNodeId right.stableNodeId) search.nodes
      edges := sortBy (fun left right => compare left.stableEdgeId right.stableEdgeId) search.edges
      truncated := search.truncated }

/-! ## Paths -/

structure PathQuery where
  (fromNodeId toNodeId : String)
  (maxDepth maxPaths : ℕ)
  relationKinds : List String

structure GraphPath where
  (nodeIds edgeIds : List String)
  hasNode : nodeIds ≠ []

structure GraphPathResult where
  generation : GraphGenerationRow
  paths : List GraphPath
  nodes : List GraphNodeRow
  edges : List GraphEdgeRow
  truncated : Bool

structure PathSearch where
  (queue found : List GraphPath)
  seenEdges : List GraphEdgeRow
  truncated : Bool

def GraphPath.extend (path : GraphPath) (next edgeId : String) : GraphPath where
  nodeIds := path.nodeIds ++ [next]
  edgeIds := path.edgeIds ++ [edgeId]
  hasNode := by simp

def extendPath (query : PathQuery) (path : GraphPath) (search : PathSearch) :
    List GraphEdgeRow → PathSearch
  | [] => search
  | edge :: edges =>
    match edge.toNodeId with
    | none => extendPath query path search edges
    | some next =>
      if edge.status = "broken" || path.nodeIds.contains next then
        extendPath query path search edges
      else
        let search := { search with seenEdges := insertBy (·.stableEdgeId) search.seenEdges edge }
        let candidate := path.extend next edge.stableEdgeId
        if next = query.toNodeId then
          if query.maxPaths ≤ search.found.length + 1 then
            { search with
              found := search.found ++ [candidate]
              truncated := search.truncated || !search.queue.isEmpty
              queue := [] }
          else
            extendPath query path { search with found := search.found ++ [candidate] } edges
        else if search.queue.length < maxQueryNodes then
          extendPath query path { search with queue := search.queue ++ [candidate] } edges
        else extendPath query path { search with truncated := true } edges

/-- A bound on the paths that may still come out of a path, itself included. -/
def GraphPath.weight (maxDepth : ℕ) (path : GraphPath) : ℕ :=
  (maxQueryEdges + 1) ^ (maxDepth + 1 - path.edgeIds.length)

def queueWeight (maxDepth : ℕ) (queue : List GraphPath) : ℕ :=
  (queue.map (GraphPath.weight maxDepth)).sum

@[simp] theorem queueWeight_append (maxDepth : ℕ) (queue queue' : List GraphPath) :
    queueWeight maxDepth (queue ++ queue') =
      queueWeight maxDepth queue + queueWeight maxDepth queue' := by
  simp [queueWeight]

theorem queueWeight_extendPath (query : PathQuery) (path : GraphPath) (search : PathSearch)
    (edges : List GraphEdgeRow) :
    queueWeight query.maxDepth (extendPath query path search edges).queue ≤
      queueWeight query.maxDepth search.queue +
        edges.length * (maxQueryEdges + 1) ^ (query.maxDepth - path.edgeIds.length) := by
  have hcandidate (next edgeId : String) : queueWeight query.maxDepth [path.extend next edgeId] =
      (maxQueryEdges + 1) ^ (query.maxDepth - path.edgeIds.length) := by
    simp [queueWeight, GraphPath.weight, GraphPath.extend]
  set weight := (maxQueryEdges + 1) ^ (query.maxDepth - path.edgeIds.length)
  fun_induction extendPath query path search edges with
  | case1 search => simp
  | case2 | case3 =>
    rw [length_cons, Nat.succ_mul]
    omega
  | case4 => simp [queueWeight]
  | case5 _ _ _ seen _ _ _ _ ih | case7 _ _ _ _ _ _ seen _ _ ih =>
    rw [length_cons, Nat.succ_mul]
    refine ih.trans ?_
    dsimp only [seen]
    omega
  | case6 search edge edges next hto hskip seen candidate hother hroom ih =>
    rw [length_cons, Nat.succ_mul]
    rw [queueWeight_append, hcandidate] at ih
    refine ih.trans ?_
    dsimp only [seen]
    omega

def searchPaths (scope : GraphReadScope) (query : PathQuery) (search : PathSearch) :
    GraphQuery PathSearch :=
  match hqueue : search.queue with
  | [] => pure search
  | path :: rest =>
    if hlong : query.maxDepth ≤ path.edgeIds.length then
      searchPaths scope query { search with queue := rest }
    else do
      let outgoing ← fetchAdjacentEdges scope [path.nodeIds.getLast path.hasNode] .outgoing
        query.relationKinds (maxQueryEdges + 1)
      searchPaths scope query (extendPath query path
        { search with
          queue := rest
          truncated := search.truncated || maxQueryEdges < outgoing.length }
        (outgoing.take maxQueryEdges))
  termination_by queueWeight query.maxDepth search.queue
  decreasing_by
    · rw [hqueue]
      simp only [queueWeight, map_cons, sum_cons]
      have : 0 < path.weight query.maxDepth := Nat.pow_pos (by simp [maxQueryEdges])
      omega
    · rw [hqueue]
      refine lt_of_le_of_lt (queueWeight_extendPath query path _ _) ?_
      have hlength : (outgoing.take maxQueryEdges).length ≤ maxQueryEdges := by simp
      have hweight : path.weight query.maxDepth = (maxQueryEdges + 1) *
          (maxQueryEdges + 1) ^ (query.maxDepth - path.edgeIds.length) := by
        rw [GraphPath.weight, ← Nat.pow_succ', Nat.succ_sub (by omega)]
      have hpos : 0 < (maxQueryEdges + 1) ^ (query.maxDepth - path.edgeIds.length) :=
        Nat.pow_pos (by simp [maxQueryEdges])
      have hmul := Nat.mul_le_mul_right
        ((maxQueryEdges + 1) ^ (query.maxDepth - path.edgeIds.length)) hlength
      simp only [queueWeight, map_cons, sum_cons, hweight, Nat.succ_mul] at hmul ⊢
      omega

def paths (cast : String → Option Uuid) (visibleSpaces : List Uuid) (query : PathQuery) :
    GraphQuery GraphPathResult :=
  if query.maxDepth = 0 || 6 < query.maxDepth ||
      !(1 ≤ query.maxPaths && query.maxPaths ≤ 10) then
    .fail (.invalidInput "graph path requires depth 1..=6 and max_paths 1..=10")
  else do
    let generation ← lookupGeneration
    let _ ← getNode cast visibleSpaces query.fromNodeId
    let _ ← getNode cast visibleSpaces query.toNodeId
    let scope : GraphReadScope := ⟨cast, generation.id, visibleSpaces⟩
    let search ← searchPaths scope query
      { queue := [⟨[query.fromNodeId], [], by simp⟩]
        found := []
        seenEdges := []
        truncated := false }
    let nodes ← fetchNodes scope (sortBy compare (search.found.flatMap (·.nodeIds)).dedup)
    pure
      { generation
        paths := search.found
        nodes
        edges := sortBy (fun left right => compare left.stableEdgeId right.stableEdgeId)
          search.seenEdges
        truncated := search.truncated }

/-! ## Diagnostics -/

structure GraphDiagnostics where
  generation : GraphGenerationRow
  orphanNodes : List GraphNodeRow
  brokenEdges : List GraphEdgeRow
  staleNodes : List GraphNodeRow
  contradictionEdges : List GraphEdgeRow
  truncated : Bool

def diagnostics (cast : String → Option Uuid) (visibleSpaces : List Uuid) (limit : ℕ) :
    GraphQuery GraphDiagnostics :=
  if visibleSpaces.isEmpty then .fail .notFound
  else if !(1 ≤ limit && limit ≤ 100) then
    .fail (.invalidInput "diagnostics limit must be 1..=100")
  else do
    let generation ← lookupGeneration
    let scope : GraphReadScope := ⟨cast, generation.id, visibleSpaces⟩
    let orphanNodes ← .statement fun db => .ok (((db.nodesOf generation.id).filter fun row =>
      scope.showsNode row && row.status ≠ "tombstone" &&
        !(db.edgesOf generation.id).any fun edge =>
          edge.fromNodeId = row.stableNodeId || edge.toNodeId = some row.stableNodeId).take
      (limit + 1))
    let brokenEdges ← diagnosticEdges scope (·.status = "broken") limit
    let staleNodes ← .statement fun db => .ok (((db.nodesOf generation.id).filter fun row =>
      scope.showsNode row && row.freshness = "stale").take (limit + 1))
    let contradictionEdges ← diagnosticEdges scope
      (fun edge => edge.relationKind = "contradicts" && edge.status ≠ "broken") limit
    pure
      { generation
        orphanNodes := orphanNodes.take limit
        brokenEdges := brokenEdges.take limit
        staleNodes := staleNodes.take limit
        contradictionEdges := contradictionEdges.take limit
        truncated := limit < orphanNodes.length || limit < brokenEdges.length ||
          limit < staleNodes.length || limit < contradictionEdges.length }

end Gadgetron.Graph
