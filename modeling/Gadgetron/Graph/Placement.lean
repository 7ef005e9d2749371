import Gadgetron.Graph.Build

/-!
# Edges lie where their nodes are

In a snapshot that is built of a canonical state every edge records the space of its source, and the
space of its target if it has one.
-/

namespace Gadgetron.Graph

open Lib Policy Spaces List Option Except

/-- The spaces that an edge records are those of its nodes; for a reference, the second is the space
it was shared from. -/
structure EdgePlaced (nodes : List GraphNodeInput) (edge : GraphEdgeInput) : Prop where
  source : ∃ node ∈ nodes, node.stableNodeId = edge.fromNodeId ∧
    node.spaceId = edge.sourceSpaceId ∧ (node.nodeKind = "reference" →
      ∃ spaceId, jsonField "source_space_id" node.metadata = some (uuidText spaceId) ∧
        edge.targetSpaceId = some spaceId)
  target : ∀ id ∈ edge.toNodeId, ∃ node ∈ nodes, node.stableNodeId = id ∧
    node.nodeKind ≠ "reference" ∧ edge.targetSpaceId = some node.spaceId

section

variable {parse : String → Option Uuid}

theorem toText_inj (hparse : ∀ id, parse (Uuid.toText id) = some id) {id id' : Uuid}
    (h : Uuid.toText id = Uuid.toText id') : id = id' := by
  have := hparse id
  rw [h, hparse id'] at this
  exact (some.inj this).symm

theorem noteId_inj (hparse : ∀ id, parse (Uuid.toText id) = some id) {id id' : Uuid}
    (h : noteId id = noteId id') : id = id' := by
  apply toText_inj hparse
  have htext := congrArg String.toList h
  rw [noteId, noteId, String.toList_append, String.toList_append] at htext
  exact String.toList_inj.1 (append_cancel_left htext)

theorem noteId_ne {id : Uuid} {stem text : String} (hstem : stem.toList.head? ≠ some 'n')
    (hne : stem.toList ≠ []) : noteId id ≠ stem ++ text := by
  intro h
  have htext := congrArg (fun s => s.toList.head?) h
  simp only [noteId, String.toList_append] at htext
  rw [head?_append_of_ne_nil _ hne] at htext
  exact hstem htext.symm

end

/-! ## The nodes that are read -/

section

variable {env : GraphEnv} {c c' : Canonical} {inputs : GraphInputs}
  {notes : List (GraphNodeInput × NoteRelations)} {candidates : List CandidateGraphInputRow}

def ReadFrom (objects : List GraphObjectInputRow) (note : GraphNodeInput × NoteRelations) : Prop :=
  ∃ object ∈ objects, ∃ revision hash parsed,
    note = (noteNode object revision hash parsed, noteRelations object revision parsed)

theorem readNote_eq_ok {object : GraphObjectInputRow} {note : GraphNodeInput × NoteRelations}
    (h : readNote env c object = .ok (c', note)) : ∃ revision hash parsed,
      note = (noteNode object revision hash parsed, noteRelations object revision parsed) := by
  unfold readNote at h
  split at h
  · cases h
  · obtain ⟨⟨c₁, revision, hash⟩, -, h⟩ := bind_eq_ok.1 h
    obtain ⟨parsed, -, h⟩ := bind_eq_ok.1 h
    obtain ⟨-, rfl⟩ := Prod.mk.inj (ok.inj h)
    exact ⟨revision, hash, parsed, rfl⟩

theorem readNotes_eq_ok {objects : List GraphObjectInputRow}
    (h : readNotes env c objects = .ok (c', notes)) : ∀ note ∈ notes, ReadFrom objects note := by
  induction objects generalizing c c' notes with
  | nil =>
    obtain ⟨-, rfl⟩ := Prod.mk.inj (ok.inj h)
    exact nofun
  | cons object objects ih =>
    have hrest {note} (hnote : ReadFrom objects note) : ReadFrom (object :: objects) note := by
      obtain ⟨other, hother, hread⟩ := hnote
      exact ⟨other, mem_cons_of_mem _ hother, hread⟩
    unfold readNotes at h
    split_ifs at h
    · exact fun note hnote => hrest (ih h note hnote)
    · obtain ⟨⟨c₁, first⟩, hfirst, h⟩ := bind_eq_ok.1 h
      obtain ⟨⟨c₂, rest⟩, hread, h⟩ := bind_eq_ok.1 h
      obtain ⟨-, rfl⟩ := Prod.mk.inj (ok.inj h)
      refine forall_mem_cons.2 ⟨?_, fun note hnote => hrest (ih hread note hnote)⟩
      exact ⟨object, mem_cons_self, readNote_eq_ok hfirst⟩

variable {node : GraphNodeInput}

theorem mem_canonicalNodes : node ∈ canonicalNodes env inputs notes candidates ↔
      (∃ source ∈ inputs.sources, source.status ≠ "deleted" ∧ sourceNode source = node) ∨
        (∃ note ∈ notes, note.1 = node) ∨
          ∃ candidate ∈ candidates, candidateNode env candidate = node := by
  simp [canonicalNodes, and_assoc]

theorem noteNode_nodeKind (object : GraphObjectInputRow) (revision : ℤ) (hash : String)
    (parsed : ParsedGraphNote) : (noteNode object revision hash parsed).nodeKind ≠ "reference" := by
  simp only [noteNode, ParsedGraphNote.nodeKind]
  split
  · decide
  · decide
  · decide

theorem nodeKind_ne (hnotes : ∀ note ∈ notes, ReadFrom inputs.objects note)
    (hnode : node ∈ canonicalNodes env inputs notes candidates) :
    node.nodeKind ≠ "reference" := by
  rcases mem_canonicalNodes.1 hnode with ⟨source, -, -, rfl⟩ | ⟨note, hnote, rfl⟩ |
    ⟨candidate, -, rfl⟩
  · exact show "source" ≠ "reference" by decide
  · obtain ⟨object, -, revision, hash, parsed, rfl⟩ := hnotes note hnote
    exact noteNode_nodeKind object revision hash parsed
  · exact show "candidate" ≠ "reference" by decide

theorem object_of_noteId (hparse : ∀ id, env.parseUuid (Uuid.toText id) = some id)
    (hnotes : ∀ note ∈ notes, ReadFrom inputs.objects note) {id : Uuid}
    (hnode : node ∈ canonicalNodes env inputs notes candidates)
    (hid : node.stableNodeId = noteId id) :
    ∃ object ∈ inputs.objects, object.id = id ∧ node.spaceId = object.spaceId := by
  rcases mem_canonicalNodes.1 hnode with ⟨source, -, -, rfl⟩ | ⟨note, hnote, rfl⟩ |
    ⟨candidate, -, rfl⟩
  · exact absurd hid.symm (noteId_ne (by decide) (by decide))
  · obtain ⟨object, hobject, revision, hash, parsed, rfl⟩ := hnotes note hnote
    exact ⟨object, hobject, noteId_inj hparse hid, rfl⟩
  · exact absurd hid.symm (noteId_ne (by decide) (by decide))

theorem node_of_stated (env : GraphEnv) (hnotes : ∀ note ∈ notes, ReadFrom inputs.objects note)
    {stated : NoteRelations × NoteRelationSpec}
    (hstated : stated ∈ statedRelations notes candidates) :
    ∃ node ∈ canonicalNodes env inputs notes candidates,
      node.stableNodeId = stated.1.fromNodeId ∧ node.spaceId = stated.1.spaceId := by
  simp only [statedRelations, mem_flatMap, mem_append, List.mem_map] at hstated
  obtain ⟨note, ⟨read, hread, rfl⟩ | ⟨candidate, hcandidate, hnote⟩, relation, -, rfl⟩ := hstated
  · refine ⟨read.1, mem_canonicalNodes.2 (.inr (.inl ⟨read, hread, rfl⟩)), ?_⟩
    obtain ⟨object, -, revision, hash, parsed, rfl⟩ := hnotes read hread
    exact ⟨rfl, rfl⟩
  · refine ⟨candidateNode env candidate,
      mem_canonicalNodes.2 (.inr (.inr ⟨candidate, hcandidate, rfl⟩)), ?_⟩
    unfold candidateRelations at hnote
    split at hnote
    · obtain ⟨citation, -, hcited⟩ := mem_flatMap.1 hnote
      unfold citationRelations at hcited
      split at hcited
      · cases hcited
      · obtain ⟨kind, -, rfl⟩ := List.mem_map.1 hcited
        exact ⟨rfl, rfl⟩
    · cases hnote

end

/-! ## The edges -/

section

variable {env : GraphEnv} {c c' : Canonical} {inputs : GraphInputs}
  {notes : List (GraphNodeInput × NoteRelations)} {candidates : List CandidateGraphInputRow}
  {nodes : List GraphNodeInput}

def AmongNodes (nodes : List GraphNodeInput) (found : Option GraphNodeInput) : Prop :=
  ∀ node, found = some node → node ∈ nodes

theorem AmongNodes.none (nodes : List GraphNodeInput) : AmongNodes nodes none := nofun

theorem AmongNodes.indexBy (nodes : List GraphNodeInput) (id : String) :
    AmongNodes nodes (indexBy (·.stableNodeId) nodes id) :=
  fun _ h => (of_indexBy_eq_some h).1

theorem AmongNodes.orElse {x y : Option GraphNodeInput} (hx : AmongNodes nodes x)
    (hy : AmongNodes nodes y) : AmongNodes nodes (x <|> y) := by
  cases x with
  | none => exact hy
  | some node => exact hx

theorem AmongNodes.guard {p : Prop} [Decidable p] {x : Option GraphNodeInput}
    (hx : AmongNodes nodes x) : AmongNodes nodes (if p then x else .none) := by
  split_ifs
  · exact hx
  · exact .none nodes

theorem amongNodes_resolveTarget (env : GraphEnv) (nodes : List GraphNodeInput)
    (relation : NoteRelationSpec) (spaceId : Uuid) :
    AmongNodes nodes (resolveTarget env nodes relation spaceId) := by
  unfold resolveTarget
  have hindex := AmongNodes.indexBy nodes
  refine (hindex _).orElse (.orElse ?_ ?_)
  · cases env.parseUuid relation.targetRef with
    | none => exact .none nodes
    | some id =>
      exact (hindex _).guard.orElse ((hindex _).guard.orElse
        ((hindex _).orElse ((hindex _).orElse (hindex _))))
  · split
    · exact hindex _
    · exact .none nodes

variable {edge : GraphEdgeInput} {l edges : List GraphEdgeInput}

theorem mem_foldl_orInsert (h : edge ∈ l.foldl orInsert edges) : edge ∈ edges ∨ edge ∈ l := by
  induction l generalizing edges with
  | nil => exact .inl h
  | cons first rest ih =>
    rcases ih h with hmem | hmem
    · unfold orInsert at hmem
      split_ifs at hmem
      · exact .inl hmem
      · rcases mem_append.1 hmem with hmem | hmem
        · exact .inl hmem
        · exact .inr (mem_singleton.1 hmem ▸ mem_cons_self)
    · exact .inr (mem_cons_of_mem _ hmem)

theorem mem_foldl_insertEdge (h : edge ∈ l.foldl insertEdge edges) : edge ∈ edges ∨ edge ∈ l := by
  induction l generalizing edges with
  | nil => exact .inl h
  | cons first rest ih =>
    rcases ih h with hmem | hmem
    · rcases mem_append.1 hmem with hmem | hmem
      · exact .inl (List.mem_filter.1 hmem).1
      · exact .inr (mem_singleton.1 hmem ▸ mem_cons_self)
    · exact .inr (mem_cons_of_mem _ hmem)

theorem of_mem_assemble_edges (h : edge ∈ (assemble env inputs notes candidates).edges) :
    (∃ stated ∈ statedRelations notes candidates,
        edge = relationEdge env (canonicalNodes env inputs notes candidates) stated.1 stated.2) ∨
      ∃ shared ∈ sharedNotes inputs (canonicalNodes env inputs notes candidates),
        edge = bridgeEdge env shared.1 shared.2 := by
  rcases mem_foldl_insertEdge (mem_sortBy.1 h) with h | h
  · rcases mem_foldl_orInsert h with h | h
    · cases h
    · obtain ⟨stated, hstated, rfl⟩ := List.mem_map.1 h
      exact .inl ⟨stated, hstated, rfl⟩
  · obtain ⟨shared, hshared, rfl⟩ := List.mem_map.1 h
    exact .inr ⟨shared, hshared, rfl⟩

/-- The nodes of the snapshot, before some become stale. -/
def assembledNodes (env : GraphEnv) (inputs : GraphInputs)
    (notes : List (GraphNodeInput × NoteRelations)) (candidates : List CandidateGraphInputRow) :
    List GraphNodeInput :=
  let nodes := canonicalNodes env inputs notes candidates
  nodes ++ (sharedNotes inputs nodes).map fun (share, source) => referenceNode share source

theorem assemble_nodes (env : GraphEnv) (inputs : GraphInputs)
    (notes : List (GraphNodeInput × NoteRelations)) (candidates : List CandidateGraphInputRow) :
    ∃ freshness : GraphNodeInput → String, (assemble env inputs notes candidates).nodes =
      (assembledNodes env inputs notes candidates).map fun node =>
        { node with freshness := freshness node } := by
  let stale (node : GraphNodeInput) : Prop :=
    ((statedRelations notes candidates).filter fun stated =>
      (resolveTarget env (canonicalNodes env inputs notes candidates) stated.2
        stated.1.spaceId).isNone).map (·.1.fromNodeId) |>.contains node.stableNodeId
  refine ⟨fun node => if stale node then "stale" else node.freshness,
    map_congr_left fun node _ => ?_⟩
  dsimp only [stale]
  split_ifs
  · rfl
  · rfl

variable {node : GraphNodeInput}

theorem mem_assembledNodes : node ∈ assembledNodes env inputs notes candidates ↔
      node ∈ canonicalNodes env inputs notes candidates ∨
        ∃ shared ∈ sharedNotes inputs (canonicalNodes env inputs notes candidates),
          referenceNode shared.1 shared.2 = node := by
  rw [assembledNodes, mem_append, List.mem_map]

def SharesPlaced (inputs : GraphInputs) : Prop :=
  ∀ share ∈ inputs.shares, ∀ object ∈ inputs.objects, object.id = share.sourceObjectId →
    object.spaceId = share.sourceSpaceId

theorem edgePlaced_assembled (hparse : ∀ id, env.parseUuid (Uuid.toText id) = some id)
    (hnotes : ∀ note ∈ notes, ReadFrom inputs.objects note) (hshares : SharesPlaced inputs)
    (hedge : edge ∈ (assemble env inputs notes candidates).edges) :
    EdgePlaced (assembledNodes env inputs notes candidates) edge := by
  rcases of_mem_assemble_edges hedge with ⟨stated, hstated, rfl⟩ | ⟨shared, hshared, rfl⟩
  · obtain ⟨node, hnode, hid, hspace⟩ := node_of_stated env hnotes hstated
    refine ⟨⟨node, mem_assembledNodes.2 (.inl hnode), hid, hspace, fun hkind =>
      absurd hkind (nodeKind_ne hnotes hnode)⟩, fun id hid => ?_⟩
    obtain ⟨target, htarget, rfl⟩ := map_eq_some_iff.1 (mem_def.1 hid)
    have hmem := amongNodes_resolveTarget env _ _ _ target htarget
    refine ⟨target, mem_assembledNodes.2 (.inl hmem), rfl, nodeKind_ne hnotes hmem, ?_⟩
    simp only [relationEdge, htarget, map_some]
  · have hreference : referenceNode shared.1 shared.2 ∈
        assembledNodes env inputs notes candidates :=
      mem_assembledNodes.2 (.inr ⟨shared, hshared, rfl⟩)
    refine ⟨⟨_, hreference, rfl, rfl, fun _ => ⟨shared.1.sourceSpaceId, rfl, rfl⟩⟩,
      fun id hid => ?_⟩
    obtain rfl := some.inj (mem_def.1 hid)
    obtain ⟨share, hshare, hfound⟩ := mem_filterMap.1 hshared
    obtain ⟨source, hsource, rfl⟩ := map_eq_some_iff.1 hfound
    obtain ⟨hmem, hid⟩ := of_indexBy_eq_some hsource
    obtain ⟨object, hobject, hobjectId, hspace⟩ := object_of_noteId hparse hnotes hmem hid
    refine ⟨source, mem_assembledNodes.2 (.inl hmem), hid, nodeKind_ne hnotes hmem, ?_⟩
    rw [hspace, hshares share (List.mem_filter.1 hshare).1 object hobject hobjectId]
    rfl

theorem EdgePlaced.map (h : EdgePlaced nodes edge) (freshness : GraphNodeInput → String) :
    EdgePlaced (nodes.map fun node => { node with freshness := freshness node }) edge := by
  constructor
  · obtain ⟨node, hnode, hid, hspace, hreference⟩ := h.source
    exact ⟨_, List.mem_map_of_mem hnode, hid, hspace, hreference⟩
  · intro id hid
    obtain ⟨node, hnode, hnodeId, hkind, hspace⟩ := h.target id hid
    exact ⟨_, List.mem_map_of_mem hnode, hnodeId, hkind, hspace⟩

theorem sharesPlaced_canonicalInputs (hplaced : Placed c) : SharesPlaced c.canonicalInputs := by
  intro share hshare object hobject hid
  obtain ⟨shareRow, hshareRow, hshare⟩ := mem_filterMap.1 hshare
  obtain ⟨objectRow, hobjectRow, hobject⟩ := mem_filterMap.1 hobject
  obtain ⟨row, hrow, hrowId, vault, hvault, hvaultId, hspace⟩ :=
    hplaced shareRow (mem_sortBy.1 hshareRow)
  unfold Canonical.shareInput at hshare
  unfold Canonical.objectInput at hobject
  split_ifs at hshare hobject
  obtain ⟨_, -, rfl⟩ := map_eq_some_iff.1 hshare
  obtain ⟨found, hfound, rfl⟩ := map_eq_some_iff.1 hobject
  obtain rfl : row = objectRow :=
    Table.eq_of_key hrow (mem_sortBy.1 hobjectRow) (hrowId.trans hid.symm)
  rw [Table.get_eq_some.2 ⟨hvault, hvaultId⟩] at hfound
  obtain rfl := some.inj hfound
  exact hspace

variable {snapshot : GraphSnapshotInput}

theorem edgePlaced_of_buildSnapshot
    (hparse : ∀ id, env.parseUuid (Uuid.toText id) = some id) (hplaced : Placed c)
    (h : buildSnapshot env c = .ok (c', snapshot)) (hedge : edge ∈ snapshot.edges) :
    EdgePlaced snapshot.nodes edge := by
  obtain ⟨⟨c₁, notes⟩, hnotes, h⟩ := bind_eq_ok.1 h
  obtain ⟨rfl, rfl⟩ := Prod.mk.inj (ok.inj h)
  obtain ⟨freshness, hnodes⟩ := assemble_nodes env c.canonicalInputs notes c₁.candidateInputs
  rw [hnodes]
  exact (edgePlaced_assembled hparse (readNotes_eq_ok hnotes)
    (sharesPlaced_canonicalInputs hplaced) hedge).map freshness

theorem share_of_reference
    (h : buildSnapshot env c = .ok (c', snapshot)) (hnode : node ∈ snapshot.nodes)
    (hkind : node.nodeKind = "reference") :
    ∃ share ∈ c.shares, node.stableNodeId = shareId share.id ∧
      jsonField "source_space_id" node.metadata = some (uuidText share.sourceSpaceId) := by
  obtain ⟨⟨c₁, notes⟩, hnotes, h⟩ := bind_eq_ok.1 h
  obtain ⟨rfl, rfl⟩ := Prod.mk.inj (ok.inj h)
  obtain ⟨freshness, hnodes⟩ := assemble_nodes env c.canonicalInputs notes c₁.candidateInputs
  rw [hnodes] at hnode
  obtain ⟨original, horiginal, rfl⟩ := List.mem_map.1 hnode
  rcases mem_assembledNodes.1 horiginal with hread | ⟨shared, hshared, rfl⟩
  · have hne := nodeKind_ne (readNotes_eq_ok hnotes) hread
    exact absurd hkind hne
  · obtain ⟨share, hshare, hfound⟩ := mem_filterMap.1 hshared
    obtain ⟨source, -, rfl⟩ := map_eq_some_iff.1 hfound
    obtain ⟨row, hrow, hinput⟩ := mem_filterMap.1 (List.mem_filter.1 hshare).1
    unfold Canonical.shareInput at hinput
    split_ifs at hinput
    obtain ⟨vault, -, rfl⟩ := map_eq_some_iff.1 hinput
    exact ⟨row, mem_sortBy.1 hrow, rfl, rfl⟩

end

end Gadgetron.Graph
