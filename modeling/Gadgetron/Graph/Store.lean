import Gadgetron.Graph.Snapshot
import Gadgetron.Lib.Constraint

/-!
# Generations of the knowledge graph

The tables of a tenant's graph and `materialize`, statement by statement: a new generation takes the
place of the active one, or the active one is edited in place.
-/

namespace Gadgetron.Graph

open Lib Policy

inductive GenerationState
  | building
  | active
  | superseded
  | failed
  deriving DecidableEq

structure GraphGenerationRow where
  id : Uuid
  schemaVersion : ℕ
  state : GenerationState
  inputDigest : String
  (graphRevision nodeCount edgeCount : ℕ)
  builtBy : Uuid
  createdAt : ℕ
  (activatedAt supersededAt : Option ℕ)
  deriving DecidableEq

structure GraphNodeRow extends GraphNodeInput where
  generationId : Uuid

structure GraphEdgeRow extends GraphEdgeInput where
  generationId : Uuid

def GraphNodeRow.key (row : GraphNodeRow) : Uuid × String := (row.generationId, row.stableNodeId)

def GraphEdgeRow.key (row : GraphEdgeRow) : Uuid × String := (row.generationId, row.stableEdgeId)

def nodeRow (generationId : Uuid) (node : GraphNodeInput) : GraphNodeRow where
  toGraphNodeInput := node
  generationId := generationId

def edgeRow (generationId : Uuid) (edge : GraphEdgeInput) : GraphEdgeRow where
  toGraphEdgeInput := edge
  generationId := generationId

structure GraphDb where
  (spaces vaults users : List Uuid)
  generations : Table GraphGenerationRow.id
  nodes : Table GraphNodeRow.key
  edges : Table GraphEdgeRow.key

def GraphDb.empty : GraphDb := ⟨[], [], [], .empty, .empty, .empty⟩

/-! ## Constraints -/

/-- The `CHECK`s of `knowledge_graph_nodes`. -/
def nodeChecks (row : GraphNodeRow) : Bool :=
  3 ≤ row.stableNodeId.length && row.stableNodeId.length ≤ 512 &&
    1 ≤ row.nodeKind.length && row.nodeKind.length ≤ 64 &&
    0 ≤ row.canonicalRevision &&
    1 ≤ row.homeBundleId.length && row.homeBundleId.length ≤ 128 &&
    row.title.length ≤ 512 &&
    ["active", "owner_unavailable", "tombstone"].contains row.status &&
    ["current", "stale"].contains row.freshness &&
    isObject row.metadata

/-- A text that `^[a-z][a-z0-9_-]*$` matches. -/
def isRelationName : List Char → Bool
  | [] => false
  | c :: cs =>
    c.isLower && cs.all fun c => c.isLower || c.isDigit || c == '_' || c == '-'

/-- `^[a-z][a-z0-9_-]*(:[a-z][a-z0-9_-]*)?$`. -/
def isRelationKind (kind : String) : Bool :=
  match kind.toList.span (· != ':') with
  | (name, []) => isRelationName name
  | (name, _ :: qualifier) => isRelationName name && isRelationName qualifier

/-- The `CHECK`s of `knowledge_graph_edges`. -/
def edgeChecks (row : GraphEdgeRow) : Bool :=
  row.stableEdgeId.length = 64 && row.stableEdgeId.toList.all isLowerHex &&
    1 ≤ row.targetRef.length && row.targetRef.length ≤ 1024 &&
    isRelationKind row.relationKind &&
    1 ≤ row.homeBundleId.length && row.homeBundleId.length ≤ 128 &&
    ["system", "import", "user", "agent", "bundle"].contains row.producerKind &&
    0 ≤ row.producerRevision &&
    ["active", "broken", "stale", "owner_unavailable"].contains row.status &&
    isObject row.evidence

namespace GraphDb

variable (db : GraphDb)

/-- The foreign keys of `knowledge_graph_nodes`. -/
def nodeReferences (row : GraphNodeRow) : Bool :=
  (db.generations.get row.generationId).isSome && db.spaces.contains row.spaceId &&
    row.vaultId.all db.vaults.contains

/-- The foreign keys of `knowledge_graph_edges`. -/
def edgeReferences (row : GraphEdgeRow) : Bool :=
  (db.nodes.get (row.generationId, row.fromNodeId)).isSome &&
    (row.toNodeId.all fun id => (db.nodes.get (row.generationId, id)).isSome) &&
    db.spaces.contains row.sourceSpaceId && row.targetSpaceId.all db.spaces.contains

/-! ## Statements -/

def writeNodes (generationId : Uuid) (nodes : List GraphNodeInput) (upsert : Bool) :
    Except Violation GraphDb :=
  (db.nodes.write nodeChecks db.nodeReferences upsert (nodes.map (nodeRow generationId))).map
    fun written => { db with nodes := written }

def writeEdges (generationId : Uuid) (edges : List GraphEdgeInput) (upsert : Bool) :
    Except Violation GraphDb :=
  (db.edges.write edgeChecks db.edgeReferences upsert (edges.map (edgeRow generationId))).map
    fun written => { db with edges := written }

/-- `DELETE` of the edges of a generation that are not among the given ones. -/
def deleteEdges (generationId : Uuid) (edgeIds : List String) : GraphDb :=
  { db with
    edges := db.edges.deleteWhere fun edge =>
      edge.generationId = generationId && !edgeIds.contains edge.stableEdgeId }

def deleteNodes (generationId : Uuid) (nodeIds : List String) : GraphDb :=
  let vanished (node : GraphNodeRow) : Bool :=
    node.generationId = generationId && !nodeIds.contains node.stableNodeId
  { db with
    nodes := db.nodes.deleteWhere vanished
    edges := db.edges.deleteWhere fun edge =>
      (db.nodes.rows.filter vanished).any fun node =>
        node.generationId = edge.generationId &&
          (node.stableNodeId = edge.fromNodeId || some node.stableNodeId = edge.toNodeId) }

def activeGeneration : Option GraphGenerationRow :=
  db.generations.rows.find? fun generation => generation.state = .active

end GraphDb

/-! ## Writing a snapshot -/

structure GraphMaterializeResult where
  generation : GraphGenerationRow
  changed : Bool
  mode : String
  deriving DecidableEq

def graphSchemaVersion : ℕ := 1

def buildingGeneration (id builtBy : Uuid) (digest : String) (snapshot : GraphSnapshotInput)
    (now : ℕ) : GraphGenerationRow where
  id
  schemaVersion := graphSchemaVersion
  state := .building
  inputDigest := digest
  graphRevision := 1
  nodeCount := snapshot.nodes.length
  edgeCount := snapshot.edges.length
  builtBy
  createdAt := now
  activatedAt := none
  supersededAt := none

namespace GraphGenerationRow

variable (row : GraphGenerationRow) (now : ℕ)

/-- The `SET` when the generation is superseded. -/
def supersede : GraphGenerationRow :=
  { row with state := .superseded, supersededAt := some now }

/-- The `SET` when the generation is activated. -/
def activate : GraphGenerationRow := { row with state := .active, activatedAt := some now }

/-- The `SET` when a snapshot has been applied to the generation. -/
def revise (digest : String) (snapshot : GraphSnapshotInput) : GraphGenerationRow :=
  { row with
    inputDigest := digest
    graphRevision := row.graphRevision + 1
    nodeCount := snapshot.nodes.length
    edgeCount := snapshot.edges.length
    activatedAt := some now }

end GraphGenerationRow

namespace GraphDb

variable (db : GraphDb)

def replaceGeneration (builtBy : Uuid) (active : Option GraphGenerationRow) (digest : String)
    (snapshot : GraphSnapshotInput) (generationId : Uuid) (now : ℕ) :
    Except Violation (GraphDb × GraphMaterializeResult) := do
  let building := buildingGeneration generationId builtBy digest snapshot now
  match db.generations.insert building with
  | none => .error .primaryKey
  | some generations =>
    let db ← { db with generations }.writeNodes generationId snapshot.nodes false
    let db ← db.writeEdges generationId snapshot.edges false
    let generations := db.generations.updateWhere
      (fun row => active.any (·.id = row.id) && row.state = .active) (·.supersede now)
    if generations.rows.any fun row => row.state = .active then .error .uniqueIndex
    else
      .ok ({ db with generations := generations.put (building.activate now) },
        { generation := building.activate now, changed := true, mode := "full" })

def applyDelta (generation : GraphGenerationRow) (digest : String) (snapshot : GraphSnapshotInput)
    (now : ℕ) : Except Violation (GraphDb × GraphMaterializeResult) := do
  let nodeIds := snapshot.nodes.map (·.stableNodeId)
  let edgeIds := snapshot.edges.map (·.stableEdgeId)
  let db := db.deleteEdges generation.id edgeIds
  let db ← db.writeNodes generation.id snapshot.nodes true
  let db ← db.writeEdges generation.id snapshot.edges true
  let db := db.deleteNodes generation.id nodeIds
  match (db.generations.get generation.id).filter fun row => row.state = .active with
  | none => .error .noRow
  | some row =>
    .ok ({ db with generations := db.generations.put (row.revise now digest snapshot) },
      { generation := row.revise now digest snapshot, changed := true, mode := "incremental" })

end GraphDb

inductive ReconcileMode
  | full
  | incremental

/-- A call of `materialize`, with the id that a new generation gets and the instant. -/
structure MaterializeCall where
  builtBy : Uuid
  mode : ReconcileMode
  snapshot : GraphSnapshotInput
  generationId : Uuid
  now : ℕ

inductive MaterializeError
  | invalidInput (error : GraphError)
  | notFound
  | database (violation : Violation)
  deriving DecidableEq

open GraphDb

/-- `materialize`; the tenant lock is held from its first read to its commit. -/
def materialize (digest : GraphSnapshotInput → String) (call : MaterializeCall) (db : GraphDb) :
    Except MaterializeError (GraphDb × GraphMaterializeResult) := do
  let snapshot ← (normalizeAndValidate call.snapshot).mapError .invalidInput
  if !db.users.contains call.builtBy then .error .notFound
  else
    match db.activeGeneration with
    | none =>
      (db.replaceGeneration call.builtBy none (digest snapshot) snapshot call.generationId
        call.now).mapError .database
    | some active =>
      if active.inputDigest = digest snapshot then
        .ok (db, { generation := active, changed := false, mode := "noop" })
      else
        match call.mode with
        | .incremental =>
          (db.applyDelta active (digest snapshot) snapshot call.now).mapError .database
        | .full =>
          (db.replaceGeneration call.builtBy (some active) (digest snapshot) snapshot
            call.generationId call.now).mapError .database

/-! ## The graph of a generation -/

def GraphDb.graph (db : GraphDb) (generationId : Uuid) : GraphSnapshotInput :=
  GraphSnapshotInput.sorted
    { nodes := (db.nodes.rows.filter (·.generationId = generationId)).map (·.toGraphNodeInput)
      edges := (db.edges.rows.filter (·.generationId = generationId)).map (·.toGraphEdgeInput) }

section

variable {db : GraphDb} {generationId : Uuid}

theorem mem_graph_nodes {node : GraphNodeInput} :
    node ∈ (db.graph generationId).nodes ↔ nodeRow generationId node ∈ db.nodes := by
  rw [GraphDb.graph, GraphSnapshotInput.sorted, mem_sortBy, List.mem_map]
  constructor
  · rintro ⟨row, hrow, rfl⟩
    rw [List.mem_filter, decide_eq_true_iff] at hrow
    obtain ⟨hrow, rfl⟩ := hrow
    exact hrow
  · intro h
    exact ⟨nodeRow generationId node, List.mem_filter.2 ⟨h, decide_eq_true rfl⟩, rfl⟩

theorem mem_graph_edges {edge : GraphEdgeInput} :
    edge ∈ (db.graph generationId).edges ↔ edgeRow generationId edge ∈ db.edges := by
  rw [GraphDb.graph, GraphSnapshotInput.sorted, mem_sortBy, List.mem_map]
  constructor
  · rintro ⟨row, hrow, rfl⟩
    rw [List.mem_filter, decide_eq_true_iff] at hrow
    obtain ⟨hrow, rfl⟩ := hrow
    exact hrow
  · intro h
    exact ⟨edgeRow generationId edge, List.mem_filter.2 ⟨h, decide_eq_true rfl⟩, rfl⟩

theorem graph_nodes_pairwise (db : GraphDb) (generationId : Uuid) :
    (db.graph generationId).nodes.Pairwise fun left right =>
      left.stableNodeId < right.stableNodeId := by
  apply sortBy_pairwise_lt (fun _ _ => rfl)
  rw [List.map_map]
  exact db.nodes.nodup_of_pair generationId

theorem graph_edges_pairwise (db : GraphDb) (generationId : Uuid) :
    (db.graph generationId).edges.Pairwise fun left right =>
      left.stableEdgeId < right.stableEdgeId := by
  apply sortBy_pairwise_lt (fun _ _ => rfl)
  rw [List.map_map]
  exact db.edges.nodup_of_pair generationId

theorem graph_eq {raw snapshot : GraphSnapshotInput} (h : normalizeAndValidate raw = .ok snapshot)
    (hnodes : ∀ node, nodeRow generationId node ∈ db.nodes ↔ node ∈ snapshot.nodes)
    (hedges : ∀ edge, edgeRow generationId edge ∈ db.edges ↔ edge ∈ snapshot.edges) :
    db.graph generationId = snapshot := by
  have hsameNodes := eq_of_pairwise_lt (graph_nodes_pairwise db generationId) (sorted_nodes h)
    fun node => mem_graph_nodes.trans (hnodes node)
  have hsameEdges := eq_of_pairwise_lt (graph_edges_pairwise db generationId) (sorted_edges h)
    fun edge => mem_graph_edges.trans (hedges edge)
  cases snapshot
  cases hsameNodes
  cases hsameEdges
  rfl

end

end Gadgetron.Graph
