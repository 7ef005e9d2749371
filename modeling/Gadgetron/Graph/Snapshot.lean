import Gadgetron.Policy.Input

/-!
# Snapshots of the knowledge graph

The nodes and edges that a reconcile materializes, and `normalize_and_validate`: a snapshot that it
accepts is sorted, has distinct ids, and no edge without its nodes.
-/

namespace Gadgetron.Graph

open Lib Policy List

structure GraphNodeInput where
  stableNodeId : String
  spaceId : Uuid
  vaultId : Option Uuid
  nodeKind : String
  canonicalId : Option Uuid
  canonicalRevision : ℤ
  (homeBundleId title status freshness : String)
  contentHash : Option String
  metadata : Json

structure GraphEdgeInput where
  (stableEdgeId fromNodeId : String)
  toNodeId : Option String
  (targetRef relationKind : String)
  sourceSpaceId : Uuid
  targetSpaceId : Option Uuid
  (homeBundleId producerKind : String)
  producerRevision : ℤ
  status : String
  evidence : Json

structure GraphSnapshotInput where
  nodes : List GraphNodeInput
  edges : List GraphEdgeInput

def maxGraphNodes : ℕ := 50000

def maxGraphEdges : ℕ := 200000

def isObject : Json → Bool
  | .object _ => true
  | _ => false

/-- `Value::get`. -/
def jsonField (key : String) : Json → Option Json
  | .object fields => (fields.find? (·.1 = key)).map (·.2)
  | _ => none

/-- `Value::as_str`. -/
def jsonText : Json → Option String
  | .string text => some text
  | _ => none

inductive GraphError
  | ceiling (nodes edges : ℕ)
  | duplicateNode (id : String)
  | invalidNode (id : String)
  | duplicateEdge (id : String)
  | missingNode (edgeId : String)
  | invalidEdge (id : String)
  deriving DecidableEq

def validateNode (node : GraphNodeInput) : Except GraphError Unit :=
  if node.stableNodeId.utf8ByteSize < 3 || 512 < node.stableNodeId.utf8ByteSize ||
      512 < node.title.length ||
      !(["active", "owner_unavailable", "tombstone"].contains node.status) ||
      !(["current", "stale"].contains node.freshness) || !isObject node.metadata then
    .error (.invalidNode node.stableNodeId)
  else .ok ()

def isLowerHex (c : Char) : Bool := c.isDigit || ('a' ≤ c && c ≤ 'f')

def validateEdge (edge : GraphEdgeInput) : Except GraphError Unit :=
  if !(edge.stableEdgeId.utf8ByteSize = 64 && edge.stableEdgeId.toList.all isLowerHex) ||
      edge.targetRef.isEmpty || 1024 < edge.targetRef.utf8ByteSize ||
      !(["active", "broken", "stale", "owner_unavailable"].contains edge.status) ||
      !(["system", "import", "user", "agent", "bundle"].contains edge.producerKind) ||
      !isObject edge.evidence then
    .error (.invalidEdge edge.stableEdgeId)
  else .ok ()

/-- The nodes from the first on, after those with the given ids. -/
def checkNodes (seen : List String) : List GraphNodeInput → Except GraphError Unit
  | [] => .ok ()
  | node :: nodes =>
    if seen.contains node.stableNodeId then .error (.duplicateNode node.stableNodeId)
    else do
      validateNode node
      checkNodes (node.stableNodeId :: seen) nodes

def checkEdges (nodeIds seen : List String) : List GraphEdgeInput → Except GraphError Unit
  | [] => .ok ()
  | edge :: edges =>
    if seen.contains edge.stableEdgeId then .error (.duplicateEdge edge.stableEdgeId)
    else if !nodeIds.contains edge.fromNodeId ||
        edge.toNodeId.any fun id => !nodeIds.contains id then
      .error (.missingNode edge.stableEdgeId)
    else do
      validateEdge edge
      checkEdges nodeIds (edge.stableEdgeId :: seen) edges

def GraphSnapshotInput.sorted (snapshot : GraphSnapshotInput) : GraphSnapshotInput where
  nodes := sortBy (fun left right => compare left.stableNodeId right.stableNodeId) snapshot.nodes
  edges := sortBy (fun left right => compare left.stableEdgeId right.stableEdgeId) snapshot.edges

/-- `normalize_and_validate`, without the digest. -/
def normalizeAndValidate (snapshot : GraphSnapshotInput) :
    Except GraphError GraphSnapshotInput := do
  if maxGraphNodes < snapshot.nodes.length || maxGraphEdges < snapshot.edges.length then
    .error (.ceiling snapshot.nodes.length snapshot.edges.length)
  else
    checkNodes [] snapshot.sorted.nodes
    checkEdges (snapshot.sorted.nodes.map (·.stableNodeId)) [] snapshot.sorted.edges
    .ok snapshot.sorted

/-! ## What is accepted -/

structure Valid (snapshot : GraphSnapshotInput) : Prop where
  nodeIds : (snapshot.nodes.map (·.stableNodeId)).Nodup
  edgeIds : (snapshot.edges.map (·.stableEdgeId)).Nodup
  source : ∀ edge ∈ snapshot.edges, edge.fromNodeId ∈ snapshot.nodes.map (·.stableNodeId)
  target : ∀ edge ∈ snapshot.edges, ∀ id ∈ edge.toNodeId, id ∈ snapshot.nodes.map (·.stableNodeId)

theorem nodup_of_checkNodes {seen : List String} {nodes : List GraphNodeInput}
    (h : checkNodes seen nodes = .ok ()) :
    (nodes.map (·.stableNodeId)).Nodup ∧ ∀ node ∈ nodes, node.stableNodeId ∉ seen := by
  induction nodes generalizing seen with
  | nil => exact ⟨nodup_nil, nofun⟩
  | cons node nodes ih =>
    unfold checkNodes at h
    split_ifs at h with hseen
    obtain ⟨_, -, hrest⟩ := bind_eq_ok.1 h
    obtain ⟨hnodup, hnew⟩ := ih hrest
    rw [contains_iff_mem] at hseen
    constructor
    · rw [map_cons, nodup_cons]
      refine ⟨fun hmem => ?_, hnodup⟩
      obtain ⟨other, hother, heq⟩ := List.mem_map.1 hmem
      exact hnew other hother (heq ▸ mem_cons_self)
    · exact forall_mem_cons.2 ⟨hseen, fun other hother hmem =>
        hnew other hother (mem_cons_of_mem _ hmem)⟩

theorem of_checkEdges {nodeIds seen : List String} {edges : List GraphEdgeInput}
    (h : checkEdges nodeIds seen edges = .ok ()) :
    ((edges.map (·.stableEdgeId)).Nodup ∧ ∀ edge ∈ edges, edge.stableEdgeId ∉ seen) ∧
      ∀ edge ∈ edges, edge.fromNodeId ∈ nodeIds ∧ ∀ id ∈ edge.toNodeId, id ∈ nodeIds := by
  induction edges generalizing seen with
  | nil => exact ⟨⟨nodup_nil, nofun⟩, nofun⟩
  | cons edge edges ih =>
    unfold checkEdges at h
    split_ifs at h with hseen hmissing
    obtain ⟨_, -, hrest⟩ := bind_eq_ok.1 h
    obtain ⟨⟨hnodup, hnew⟩, hends⟩ := ih hrest
    rw [contains_iff_mem] at hseen
    rw [Bool.or_eq_true, not_or] at hmissing
    refine ⟨⟨?_, ?_⟩, forall_mem_cons.2 ⟨⟨by simpa using hmissing.1, ?_⟩, hends⟩⟩
    · rw [map_cons, nodup_cons]
      refine ⟨fun hmem => ?_, hnodup⟩
      obtain ⟨other, hother, heq⟩ := List.mem_map.1 hmem
      exact hnew other hother (heq ▸ mem_cons_self)
    · exact forall_mem_cons.2 ⟨hseen, fun other hother hmem =>
        hnew other hother (mem_cons_of_mem _ hmem)⟩
    · intro id hid
      rw [Option.mem_def] at hid
      have htarget := hmissing.2
      rw [hid, Option.any_some] at htarget
      simpa using htarget

variable {snapshot normalized : GraphSnapshotInput}

section

variable (h : normalizeAndValidate snapshot = .ok normalized)

include h

theorem normalizeAndValidate_eq_ok :
    normalized = snapshot.sorted ∧ Valid normalized := by
  unfold normalizeAndValidate at h
  split_ifs at h
  obtain ⟨_, hnodes, _, hedges, h⟩ := bind₂_eq_ok.1 h
  obtain rfl := Except.ok.inj h
  obtain ⟨⟨hnodup, -⟩, hends⟩ := of_checkEdges hedges
  exact ⟨rfl, (nodup_of_checkNodes hnodes).1, hnodup, fun edge hedge => (hends edge hedge).1,
    fun edge hedge => (hends edge hedge).2⟩

theorem sorted_nodes :
    normalized.nodes.Pairwise fun left right => left.stableNodeId < right.stableNodeId := by
  obtain ⟨rfl, hvalid⟩ := normalizeAndValidate_eq_ok h
  exact sortBy_pairwise_lt (fun _ _ => rfl) (((sortBy_perm _ _).map _).nodup_iff.1 hvalid.nodeIds)

theorem sorted_edges :
    normalized.edges.Pairwise fun left right => left.stableEdgeId < right.stableEdgeId := by
  obtain ⟨rfl, hvalid⟩ := normalizeAndValidate_eq_ok h
  exact sortBy_pairwise_lt (fun _ _ => rfl) (((sortBy_perm _ _).map _).nodup_iff.1 hvalid.edgeIds)

end

end Gadgetron.Graph
