import Gadgetron.Graph.Canonical
import Gadgetron.Graph.Snapshot

/-!
# Building a snapshot

`canonical_inputs` and `build_snapshot`: the sources, notes, candidates and shares of a tenant as
nodes, and the relations between them as edges.
-/

namespace Gadgetron.Graph

open Lib Policy Spaces

structure GraphSourceInputRow extends KnowledgeSourceRow where
  spaceId : Uuid
  (homeBundleId ownerState : String)

structure GraphObjectInputRow extends KnowledgeObjectRow where
  spaceId : Uuid
  (homeBundleId ownerState : String)

structure GraphShareInputRow extends KnowledgeShareRow where
  homeBundleId : String

structure CandidateGraphInputRow extends CandidateRow where
  (homeBundleId ownerState : String)

structure GraphInputs where
  sources : List GraphSourceInputRow
  objects : List GraphObjectInputRow
  shares : List GraphShareInputRow

namespace Canonical

variable (c : Canonical)

def sourceInput (source : KnowledgeSourceRow) : Option GraphSourceInputRow :=
  (c.vaults.get source.vaultId).map fun vault =>
    { source with
      spaceId := vault.spaceId
      homeBundleId := vault.homeBundleId
      ownerState := vault.ownerState }

def objectInput (object : KnowledgeObjectRow) : Option GraphObjectInputRow :=
  if object.canonicalKind = "note" then
    (c.vaults.get object.vaultId).map fun vault =>
      { object with
        spaceId := vault.spaceId
        homeBundleId := vault.homeBundleId
        ownerState := vault.ownerState }
  else none

def shareInput (share : KnowledgeShareRow) : Option GraphShareInputRow :=
  if share.revoked then none
  else
    ((c.objects.get share.sourceObjectId).bind fun object => c.vaults.get object.vaultId).map
      fun vault => { share with homeBundleId := vault.homeBundleId }

def canonicalInputs : GraphInputs where
  sources := (sortBy (fun left right => compare left.id.toNat right.id.toNat)
    c.sources.rows).filterMap c.sourceInput
  objects := (sortBy (fun left right => compare left.id.toNat right.id.toNat)
    c.objects.rows).filterMap c.objectInput
  shares := (sortBy (fun left right => compare left.id.toNat right.id.toNat)
    c.shares.rows).filterMap c.shareInput

def candidateInputs : List CandidateGraphInputRow :=
  c.candidates.filterMap fun candidate =>
    (c.vaults.get candidate.outputVaultId).map fun vault =>
      { candidate with
        homeBundleId := vault.homeBundleId
        ownerState := vault.ownerState }

/-- `update_note_hash_system`. -/
def updateNoteHash (objectId : Uuid) (expectedRevision : ℤ) (contentHash : String) :
    Except KnowledgeSpaceError (Canonical × KnowledgeObjectRow) :=
  if !(contentHash.utf8ByteSize = 64 && contentHash.toList.all isLowerHex) then
    .error (.invalidInput "note content hash must be 64 lowercase hex characters")
  else
    match c.objects.get objectId with
    | none => .error .notFound
    | some row =>
      if row.revision = expectedRevision ∧ row.canonicalKind = "note" ∧ row.status = "active" then
        let updated := { row with contentHash := some contentHash, revision := row.revision + 1 }
        .ok ({ c with objects := c.objects.put updated }, updated)
      else .error .revisionConflict

end Canonical

/-! ## Notes -/

structure NoteRelationSpec where
  (relationKind targetRef evidenceKind : String)
  locator : Option String

structure ParsedGraphNote where
  title : String
  properties : List (String × Json)
  relations : List NoteRelationSpec

/-- What the graph shows of a candidate whose payload is well formed. -/
structure StructuredCandidate where
  isCurrent : Bool
  (targetKind claim : String)
  (applicability limitations confidence importance readiness : Json)

/-- What notes and candidates are read with, and the text of an error. -/
structure GraphEnv where
  parseGraphNote : String → String → Except String ParsedGraphNote
  normalizedTitle : String → String
  stableEdgeId : String → String → String → ℤ → String → Option String → String
  parseUuid : String → Option Uuid
  parseCandidate : Json → Json → Option StructuredCandidate
  contentHash : ByteArray → String
  vaultError : NoteLocation → String

inductive BuildError
  | invalid (detail : String)
  | space (error : KnowledgeSpaceError)

/-- An element of `parsed_notes`: a node and the relations that it states. -/
structure NoteRelations where
  fromNodeId : String
  spaceId : Uuid
  homeBundleId : String
  revision : ℤ
  relations : List NoteRelationSpec

def ownerStatus (ownerState : String) : String :=
  if ownerState = "enabled" then "active" else "owner_unavailable"

def textOrNull : Option String → Json
  | some text => .string text
  | none => .null

def uuidText (id : Uuid) : Json := .string (Uuid.toText id)

namespace ParsedGraphNote

variable (note : ParsedGraphNote)

def property (key : String) : Option Json := (note.properties.find? (·.1 = key)).map (·.2)

def nodeKind : String :=
  match (note.property "knowledge_kind").bind jsonText with
  | some "lesson" => "lesson"
  | some "insight" => "insight"
  | _ => "note"

def freshness : String :=
  match (note.property "freshness").bind jsonText with
  | some "time_sensitive" | some "unknown" => "stale"
  | _ => "current"

end ParsedGraphNote

def sourceNode (source : GraphSourceInputRow) : GraphNodeInput where
  stableNodeId := "source:" ++ Uuid.toText source.id
  spaceId := source.spaceId
  vaultId := some source.vaultId
  nodeKind := "source"
  canonicalId := some source.id
  canonicalRevision := source.revision
  homeBundleId := source.homeBundleId
  title := source.title
  status := ownerStatus source.ownerState
  freshness := "current"
  contentHash := source.contentHash
  metadata := .object
    [("content_type", textOrNull source.contentType), ("final_uri", textOrNull source.finalUri),
      ("requested_uri", textOrNull source.requestedUri),
      ("source_kind", .string source.sourceKind), ("source_status", .string source.status)]

def noteId (id : Uuid) : String := "note:" ++ Uuid.toText id

def noteNode (object : GraphObjectInputRow) (revision : ℤ) (contentHash : String)
    (note : ParsedGraphNote) : GraphNodeInput where
  stableNodeId := noteId object.id
  spaceId := object.spaceId
  vaultId := some object.vaultId
  nodeKind := note.nodeKind
  canonicalId := some object.id
  canonicalRevision := revision
  homeBundleId := object.homeBundleId
  title := note.title
  status := ownerStatus object.ownerState
  freshness := note.freshness
  contentHash := some contentHash
  metadata := .object
    ([("path", .string object.path), ("source_id", (object.sourceId.map uuidText).getD .null)] ++
      ["knowledge_kind", "review_state", "evolution_candidate_id", "applicability", "limitations",
        "confidence", "importance"].map fun key => (key, (note.property key).getD .null))

def noteRelations (object : GraphObjectInputRow) (revision : ℤ) (note : ParsedGraphNote) :
    NoteRelations where
  fromNodeId := noteId object.id
  spaceId := object.spaceId
  homeBundleId := object.homeBundleId
  revision
  relations := note.relations ++
    match object.sourceId with
    | none => []
    | some sourceId => ["cites", "derived_from"].map fun relationKind =>
      { relationKind
        targetRef := Uuid.toText sourceId
        evidenceKind := "source_registry"
        locator := none }

def GraphObjectInputRow.location (object : GraphObjectInputRow) : NoteLocation :=
  (object.spaceId, object.homeBundleId, object.path)

/-- The revision and the hash of a note; where its file has another hash than the one on record, the
object is updated. -/
def reconcileHash (c : Canonical) (object : GraphObjectInputRow) (hash : String) :
    Except BuildError (Canonical × ℤ × String) :=
  if object.contentHash ≠ some hash then
    ((c.updateNoteHash object.id object.revision hash).mapError .space).map fun (c, updated) =>
      (c, updated.revision, updated.contentHash.getD hash)
  else .ok (c, object.revision, hash)

def parseNote (env : GraphEnv) (bytes : ByteArray) (path : String) :
    Except BuildError ParsedGraphNote :=
  match String.fromUTF8? bytes with
  | none => .error (.invalid "graph note is not valid UTF-8")
  | some raw =>
    (env.parseGraphNote raw path).mapError fun error =>
      .invalid ("graph note parse failed: " ++ error)

def readNote (env : GraphEnv) (c : Canonical) (object : GraphObjectInputRow) :
    Except BuildError (Canonical × GraphNodeInput × NoteRelations) :=
  match c.files object.location with
  | none =>
    .error (.invalid ("Domain Vault graph operation failed: " ++ env.vaultError object.location))
  | some bytes => do
    let (c, revision, contentHash) ← reconcileHash c object (env.contentHash bytes)
    let note ← parseNote env bytes object.path
    .ok (c, noteNode object revision contentHash note, noteRelations object revision note)

def readNotes (env : GraphEnv) (c : Canonical) :
    List GraphObjectInputRow → Except BuildError (Canonical × List (GraphNodeInput × NoteRelations))
  | [] => .ok (c, [])
  | object :: objects =>
    if object.status ≠ "active" then readNotes env c objects
    else do
      let (c, note) ← readNote env c object
      let (c, notes) ← readNotes env c objects
      .ok (c, note :: notes)

/-! ## Candidates -/

def candidateId (id : Uuid) : String := "candidate:" ++ Uuid.toText id

def candidateNode (env : GraphEnv) (candidate : CandidateGraphInputRow) : GraphNodeInput :=
  let structured := env.parseCandidate candidate.payload candidate.citations
  let shown (f : StructuredCandidate → Json) : Json := (structured.map f).getD .null
  { stableNodeId := candidateId candidate.id
    spaceId := candidate.spaceId
    vaultId := some candidate.outputVaultId
    nodeKind := "candidate"
    canonicalId := some candidate.id
    canonicalRevision := 1
    homeBundleId := candidate.homeBundleId
    title := candidate.title
    status := ownerStatus candidate.ownerState
    freshness := if structured.all (·.isCurrent) then "current" else "stale"
    contentHash := some candidate.contentHash
    metadata := .object
      [("job_id", uuidText candidate.jobId), ("summary", .string candidate.summary),
        ("target_kind", shown (.string ·.targetKind)), ("claim", shown (.string ·.claim)),
        ("applicability", shown (·.applicability)), ("limitations", shown (·.limitations)),
        ("confidence", shown (·.confidence)), ("importance", shown (·.importance)),
        ("readiness", shown (·.readiness)),
        ("change_set_id", (candidate.changeSetId.map uuidText).getD .null),
        ("review_status", textOrNull candidate.reviewStatus),
        ("materialized_object_id", (candidate.materializedObjectId.map uuidText).getD .null),
        ("legacy", .bool structured.isNone)] }

def citationRelations (candidate : CandidateGraphInputRow) (citation : Json) : List NoteRelations :=
  match (jsonField "source_id" citation).bind jsonText with
  | none => []
  | some sourceId => ["cites", "derived_from"].map fun relationKind =>
    { fromNodeId := candidateId candidate.id
      spaceId := candidate.spaceId
      homeBundleId := candidate.homeBundleId
      revision := 1
      relations :=
        [{ relationKind
           targetRef := sourceId
           evidenceKind := "candidate_citation"
           locator := (jsonField "locator" citation).bind jsonText }] }

def candidateRelations (candidate : CandidateGraphInputRow) : List NoteRelations :=
  match candidate.citations with
  | .array citations => citations.flatMap (citationRelations candidate)
  | _ => []

/-! ## Targets -/

def indexReference (env : GraphEnv) (spaceId : Uuid) (nodeId : String)
    (index : Uuid × String → List String) (reference : String) : Uuid × String → List String :=
  let key := (spaceId, env.normalizedTitle reference)
  if key.2.isEmpty || (index key).contains nodeId then index
  else Function.update index key (index key ++ [nodeId])

def references (node : GraphNodeInput) : List String :=
  node.title ::
    match (jsonField "path" node.metadata).bind jsonText with
    | none => []
    | some path =>
      path ::
        if path.endsWith ".md" then
          let stem := String.ofList (path.toList.dropLast.dropLast.dropLast)
          [stem, String.ofList ((stem.toList.reverse.takeWhile (· ≠ '/')).reverse)]
        else []

def byReference (env : GraphEnv) (nodes : List GraphNodeInput) : Uuid × String → List String :=
  (nodes.filter fun node => ["note", "lesson", "insight"].contains node.nodeKind).foldl
    (fun index node =>
      (references node).foldl (indexReference env node.spaceId node.stableNodeId) index)
    fun _ => []

def resolveTarget (env : GraphEnv) (nodes : List GraphNodeInput) (relation : NoteRelationSpec)
    (sourceSpaceId : Uuid) : Option GraphNodeInput :=
  let byId := indexBy (·.stableNodeId) nodes
  let byUuid := (env.parseUuid relation.targetRef).bind fun id =>
    ((if relation.relationKind = "derived_from" then byId (candidateId id) else none) <|>
      (if relation.relationKind = "cites" then byId ("source:" ++ Uuid.toText id) else none) <|>
      byId (noteId id) <|> byId (candidateId id) <|> byId ("source:" ++ Uuid.toText id))
  byId relation.targetRef <|> byUuid <|>
    match byReference env nodes (sourceSpaceId, env.normalizedTitle relation.targetRef) with
    | [id] => byId id
    | _ => none

/-! ## Edges -/

def relationEdge (env : GraphEnv) (nodes : List GraphNodeInput) (note : NoteRelations)
    (relation : NoteRelationSpec) : GraphEdgeInput :=
  let target := resolveTarget env nodes relation note.spaceId
  let unavailable (node : Option GraphNodeInput) : Bool := node.any (·.status = "owner_unavailable")
  { stableEdgeId := env.stableEdgeId note.fromNodeId relation.relationKind relation.targetRef
      note.revision relation.evidenceKind relation.locator
    fromNodeId := note.fromNodeId
    toNodeId := target.map (·.stableNodeId)
    targetRef := relation.targetRef
    relationKind := relation.relationKind
    sourceSpaceId := note.spaceId
    targetSpaceId := target.map (·.spaceId)
    homeBundleId := note.homeBundleId
    producerKind := "system"
    producerRevision := note.revision
    status :=
      if target.isNone then "broken"
      else if unavailable (indexBy (·.stableNodeId) nodes note.fromNodeId) ||
          unavailable target then
        "owner_unavailable"
      else "active"
    evidence := .object
      [("kind", .string relation.evidenceKind), ("locator", textOrNull relation.locator)] }

def shareId (id : Uuid) : String := "share:" ++ Uuid.toText id

def referenceNode (share : GraphShareInputRow) (source : GraphNodeInput) : GraphNodeInput where
  stableNodeId := shareId share.id
  spaceId := share.targetSpaceId
  vaultId := none
  nodeKind := "reference"
  canonicalId := none
  canonicalRevision := share.revision
  homeBundleId := share.homeBundleId
  title := source.title
  status := source.status
  freshness := source.freshness
  contentHash := source.contentHash
  metadata := .object
    [("mode", .string share.mode.asStr), ("source_space_id", uuidText share.sourceSpaceId),
      ("source_object_id", uuidText share.sourceObjectId),
      ("source_revision", .number (toString share.sourceRevision)),
      ("follow_latest", .bool share.followLatest),
      ("policy_disposition", .string share.policyDisposition)]

def bridgeEdge (env : GraphEnv) (share : GraphShareInputRow) (source : GraphNodeInput) :
    GraphEdgeInput where
  stableEdgeId := env.stableEdgeId (shareId share.id) "bridge_to" (noteId share.sourceObjectId)
    share.revision "knowledge_share" none
  fromNodeId := shareId share.id
  toNodeId := some (noteId share.sourceObjectId)
  targetRef := noteId share.sourceObjectId
  relationKind := "bridge_to"
  sourceSpaceId := share.targetSpaceId
  targetSpaceId := some share.sourceSpaceId
  homeBundleId := share.homeBundleId
  producerKind := "system"
  producerRevision := share.revision
  status := source.status
  evidence := .object
    [("kind", .string "knowledge_share"), ("share_id", uuidText share.id),
      ("source_revision", .number (toString share.sourceRevision))]

def orInsert (edges : List GraphEdgeInput) (edge : GraphEdgeInput) : List GraphEdgeInput :=
  if edges.any (·.stableEdgeId = edge.stableEdgeId) then edges else edges ++ [edge]

def insertEdge (edges : List GraphEdgeInput) (edge : GraphEdgeInput) : List GraphEdgeInput :=
  edges.filter (·.stableEdgeId ≠ edge.stableEdgeId) ++ [edge]

def canonicalNodes (env : GraphEnv) (inputs : GraphInputs)
    (notes : List (GraphNodeInput × NoteRelations)) (candidates : List CandidateGraphInputRow) :
    List GraphNodeInput :=
  (inputs.sources.filter (·.status ≠ "deleted")).map sourceNode ++ notes.map (·.1) ++
    candidates.map (candidateNode env)

def statedRelations (notes : List (GraphNodeInput × NoteRelations))
    (candidates : List CandidateGraphInputRow) : List (NoteRelations × NoteRelationSpec) :=
  (notes.map (·.2) ++ candidates.flatMap candidateRelations).flatMap fun note =>
    note.relations.map fun relation => (note, relation)

def sharedNotes (inputs : GraphInputs) (nodes : List GraphNodeInput) :
    List (GraphShareInputRow × GraphNodeInput) :=
  (inputs.shares.filter (·.mode = .reference)).filterMap fun share =>
    (indexBy (·.stableNodeId) nodes (noteId share.sourceObjectId)).map fun source => (share, source)

def assemble (env : GraphEnv) (inputs : GraphInputs)
    (notes : List (GraphNodeInput × NoteRelations)) (candidates : List CandidateGraphInputRow) :
    GraphSnapshotInput :=
  let nodes := canonicalNodes env inputs notes candidates
  let stated := statedRelations notes candidates
  let shared := sharedNotes inputs nodes
  let staleNotes := (stated.filter fun (note, relation) =>
    (resolveTarget env nodes relation note.spaceId).isNone).map (·.1.fromNodeId)
  let edges := (stated.map fun (note, relation) => relationEdge env nodes note relation).foldl
    orInsert []
  let edges :=
    (shared.map fun (share, source) => bridgeEdge env share source).foldl insertEdge edges
  let mark (node : GraphNodeInput) : GraphNodeInput :=
    if staleNotes.contains node.stableNodeId then { node with freshness := "stale" } else node
  { nodes := (nodes ++ shared.map fun (share, source) => referenceNode share source).map mark
    edges := sortBy (fun left right => compare left.stableEdgeId right.stableEdgeId) edges }

/-- `build_snapshot`, once the canonical inputs are read. -/
def buildFrom (env : GraphEnv) (inputs : GraphInputs) (c : Canonical) :
    Except BuildError (Canonical × GraphSnapshotInput) := do
  let (c, notes) ← readNotes env c inputs.objects
  .ok (c, assemble env inputs notes c.candidateInputs)

def buildSnapshot (env : GraphEnv) (c : Canonical) :
    Except BuildError (Canonical × GraphSnapshotInput) :=
  buildFrom env c.canonicalInputs c

end Gadgetron.Graph
