import Gadgetron.Graph.Store

/-!
# The active graph is the snapshot

Whatever the mode, the graph of the active generation after a successful `materialize` is exactly
the snapshot of the call.
-/

namespace Gadgetron.Graph

open Lib Policy GraphDb List Option Except

section

variable {db db' : GraphDb} {generationId : Uuid} {upsert : Bool}

structure Replaced (db db' : GraphDb) (generationId : Uuid) (snapshot : GraphSnapshotInput) :
    Prop where
  nodes : ∀ row, row ∈ db'.nodes ↔ (∃ node ∈ snapshot.nodes, nodeRow generationId node = row) ∨
    row ∈ db.nodes ∧ row.generationId ≠ generationId
  edges : ∀ row, row ∈ db'.edges ↔ (∃ edge ∈ snapshot.edges, edgeRow generationId edge = row) ∨
    row ∈ db.edges ∧ row.generationId ≠ generationId

theorem node_keys (generationId : Uuid) (nodes : List GraphNodeInput) :
    (nodes.map (nodeRow generationId)).map GraphNodeRow.key =
      (nodes.map (·.stableNodeId)).map (generationId, ·) := by
  rw [List.map_map, List.map_map]
  rfl

theorem edge_keys (generationId : Uuid) (edges : List GraphEdgeInput) :
    (edges.map (edgeRow generationId)).map GraphEdgeRow.key =
      (edges.map (·.stableEdgeId)).map (generationId, ·) := by
  rw [List.map_map, List.map_map]
  rfl

variable {nodes : List GraphNodeInput}

theorem writeNodes_eq_ok (hids : (nodes.map (·.stableNodeId)).Nodup)
    (h : db.writeNodes generationId nodes upsert = .ok db') :
    ∃ written, db' = { db with nodes := written } ∧
      ∀ row, row ∈ written ↔ (∃ node ∈ nodes, nodeRow generationId node = row) ∨ row ∈ db.nodes ∧
          ¬(row.generationId = generationId ∧ row.stableNodeId ∈ nodes.map (·.stableNodeId)) := by
  obtain ⟨written, hwritten, rfl⟩ := map_eq_ok.1 h
  refine ⟨written, rfl, fun row => ?_⟩
  rw [Table.mem_write (node_keys generationId nodes ▸
    hids.map (Prod.mk_right_injective generationId)) hwritten, List.mem_map, node_keys,
    List.mem_map]
  simp [GraphNodeRow.key, eq_comm, and_comm]

variable {edges : List GraphEdgeInput}

theorem writeEdges_eq_ok (hids : (edges.map (·.stableEdgeId)).Nodup)
    (h : db.writeEdges generationId edges upsert = .ok db') :
    ∃ written, db' = { db with edges := written } ∧
      ∀ row, row ∈ written ↔ (∃ edge ∈ edges, edgeRow generationId edge = row) ∨ row ∈ db.edges ∧
          ¬(row.generationId = generationId ∧ row.stableEdgeId ∈ edges.map (·.stableEdgeId)) := by
  obtain ⟨written, hwritten, rfl⟩ := map_eq_ok.1 h
  refine ⟨written, rfl, fun row => ?_⟩
  rw [Table.mem_write (edge_keys generationId edges ▸
    hids.map (Prod.mk_right_injective generationId)) hwritten, List.mem_map, edge_keys,
    List.mem_map]
  simp [GraphEdgeRow.key, eq_comm, and_comm]

theorem writeNodes_eq_error {v : Violation} (hids : (nodes.map (·.stableNodeId)).Nodup)
    (hnew : upsert = true ∨ ∀ row ∈ db.nodes, row.generationId ≠ generationId)
    (hrefs : ∀ node ∈ nodes, db.nodeReferences (nodeRow generationId node) = true)
    (h : db.writeNodes generationId nodes upsert = .error v) : v = .check := by
  refine Table.write_eq_error (node_keys generationId nodes ▸
    hids.map (Prod.mk_right_injective generationId)) (hnew.imp id fun hnew row hrow hmem => ?_)
    (List.forall_mem_map.2 hrefs) (map_eq_error.1 h)
  rw [node_keys, List.mem_map] at hmem
  obtain ⟨id, -, hkey⟩ := hmem
  exact hnew row hrow (congrArg Prod.fst hkey).symm

theorem writeEdges_eq_error {v : Violation} (hids : (edges.map (·.stableEdgeId)).Nodup)
    (hnew : upsert = true ∨ ∀ row ∈ db.edges, row.generationId ≠ generationId)
    (hrefs : ∀ edge ∈ edges, db.edgeReferences (edgeRow generationId edge) = true)
    (h : db.writeEdges generationId edges upsert = .error v) : v = .check := by
  refine Table.write_eq_error (edge_keys generationId edges ▸
    hids.map (Prod.mk_right_injective generationId)) (hnew.imp id fun hnew row hrow hmem => ?_)
    (List.forall_mem_map.2 hrefs) (map_eq_error.1 h)
  rw [edge_keys, List.mem_map] at hmem
  obtain ⟨id, -, hkey⟩ := hmem
  exact hnew row hrow (congrArg Prod.fst hkey).symm

end

/-! ## The two ways of writing a snapshot -/

section

variable {db db' : GraphDb} {raw snapshot : GraphSnapshotInput} {digest : String}
  {result : GraphMaterializeResult} {now : ℕ}

/-- The row of the generation tells the digest and the counts of the snapshot. -/
structure Describes (generation : GraphGenerationRow) (digest : String)
    (snapshot : GraphSnapshotInput) : Prop where
  state : generation.state = .active
  inputDigest : generation.inputDigest = digest
  nodeCount : generation.nodeCount = snapshot.nodes.length
  edgeCount : generation.edgeCount = snapshot.edges.length

variable {generationId : Uuid} {row : GraphEdgeRow}

theorem mem_deleteEdges {edgeIds : List String} :
    row ∈ (db.deleteEdges generationId edgeIds).edges ↔
      row ∈ db.edges ∧ ¬(row.generationId = generationId ∧ row.stableEdgeId ∉ edgeIds) := by
  rw [GraphDb.deleteEdges, Table.mem_deleteWhere]
  simp

theorem mem_deleteNodes {nodeIds : List String} (hends : row.generationId = generationId →
      row.fromNodeId ∈ nodeIds ∧ ∀ id ∈ row.toNodeId, id ∈ nodeIds) :
    row ∈ (db.deleteNodes generationId nodeIds).edges ↔ row ∈ db.edges := by
  rw [GraphDb.deleteNodes, Table.mem_deleteWhere, and_iff_left_iff_imp]
  intro _
  rw [List.any_eq_false]
  intro node hnode hreferred
  rw [List.mem_filter] at hnode
  simp only [Bool.and_eq_true, decide_eq_true_eq, Bool.not_eq_true', Bool.or_eq_true,
    contains_eq_mem, decide_eq_false_iff_not] at hnode hreferred
  obtain ⟨-, hgeneration, hvanished⟩ := hnode
  obtain ⟨hsame, hreferred⟩ := hreferred
  obtain ⟨hfrom, hto⟩ := hends (hsame.symm.trans hgeneration)
  rcases hreferred with heq | heq
  · exact hvanished (heq ▸ hfrom)
  · exact hvanished (hto node.stableNodeId heq.symm)

theorem replaced_deleteNodes (hvalid : Valid snapshot) (hnodes : ∀ row, row ∈ db'.nodes ↔
      (∃ node ∈ snapshot.nodes, nodeRow generationId node = row) ∨ row ∈ db.nodes ∧
        ¬(row.generationId = generationId ∧ row.stableNodeId ∈ snapshot.nodes.map (·.stableNodeId)))
    (hedges : ∀ row, row ∈ db'.edges ↔ (∃ edge ∈ snapshot.edges, edgeRow generationId edge = row) ∨
        row ∈ db.edges ∧ row.generationId ≠ generationId) :
    Replaced db (db'.deleteNodes generationId (snapshot.nodes.map (·.stableNodeId))) generationId
      snapshot := by
  constructor
  · intro row
    rw [GraphDb.deleteNodes, Table.mem_deleteWhere, hnodes]
    simp only [Bool.and_eq_false_iff, decide_eq_false_iff_not, Bool.not_eq_false',
      contains_eq_mem, decide_eq_true_eq]
    constructor
    · rintro ⟨hrow | ⟨hrow, hother⟩, hkept⟩
      · exact .inl hrow
      · exact .inr ⟨hrow, fun heq => hkept.elim (· heq) fun hmem => hother ⟨heq, hmem⟩⟩
    · rintro (⟨node, hnode, rfl⟩ | ⟨hrow, hne⟩)
      · exact ⟨.inl ⟨node, hnode, rfl⟩, .inr (List.mem_map_of_mem hnode)⟩
      · exact ⟨.inr ⟨hrow, fun h => hne h.1⟩, .inl hne⟩
  · intro row
    rw [← hedges]
    by_cases hrow : row ∈ db'.edges
    · refine mem_deleteNodes fun heq => ?_
      rcases (hedges row).1 hrow with ⟨edge, hedge, rfl⟩ | ⟨-, hne⟩
      · exact ⟨hvalid.source edge hedge, hvalid.target edge hedge⟩
      · exact absurd heq hne
    · rw [GraphDb.deleteNodes, Table.mem_deleteWhere]
      exact ⟨And.left, fun hmem => absurd hmem hrow⟩

structure Activated (db db' : GraphDb) (generation : GraphGenerationRow) (digest : String)
    (snapshot : GraphSnapshotInput) : Prop where
  replaced : Replaced db db' generation.id snapshot
  mem : generation ∈ db'.generations
  describes : Describes generation digest snapshot
  only : ∀ other ∈ db'.generations, other.state = .active → other = generation
  kept : ∀ old ∈ db.generations, ∃ new ∈ db'.generations, new.id = old.id

variable {generation : GraphGenerationRow}

theorem applyDelta_eq_ok (hvalid : Valid snapshot) (hmem : generation ∈ db.generations)
    (honly : ∀ other ∈ db.generations, other.state = .active → other = generation)
    (h : db.applyDelta generation digest snapshot now = .ok (db', result)) :
    Activated db db' result.generation digest snapshot ∧ result.changed = true := by
  unfold GraphDb.applyDelta at h
  obtain ⟨db₁, hwriteNodes, db₂, hwriteEdges, h⟩ := bind₂_eq_ok.1 h
  obtain ⟨nodes, rfl, hnodes⟩ := writeNodes_eq_ok hvalid.nodeIds hwriteNodes
  obtain ⟨edges, rfl, hedges⟩ := writeEdges_eq_ok hvalid.edgeIds hwriteEdges
  have hreplaced := @replaced_deleteNodes db
    { db.deleteEdges generation.id (snapshot.edges.map (·.stableEdgeId)) with
      nodes
      edges }
    snapshot generation.id hvalid hnodes fun row => by
        rw [hedges, mem_deleteEdges]
        by_cases hsame : row.generationId = generation.id
        · simp only [hsame, true_and, not_not, ne_eq, not_true_eq_false, and_false, or_false]
          exact or_iff_left fun h => h.2 h.1.2
        · simp [hsame]
  have hget : db.generations.get generation.id = some generation := Table.get_eq_some.2 ⟨hmem, rfl⟩
  dsimp only [GraphDb.deleteNodes, GraphDb.deleteEdges] at h
  rw [hget] at h
  cases hactive : Option.filter (fun row : GraphGenerationRow => decide (row.state = .active))
      (some generation) with
  | none =>
    rw [hactive] at h
    cases h
  | some row =>
    rw [hactive] at h
    obtain ⟨hrow, hstate⟩ := filter_eq_some_iff.1 hactive
    obtain rfl := some.inj hrow
    obtain ⟨rfl, rfl⟩ := Prod.mk.inj (ok.inj h)
    have hput (other : GraphGenerationRow) :=
      Table.mem_put (r := generation.revise now digest snapshot) (x := other) hmem rfl
    refine ⟨⟨⟨hreplaced.nodes, hreplaced.edges⟩, (hput _).2 (.inl rfl),
      ⟨of_decide_eq_true hstate, rfl, rfl, rfl⟩, fun other hother hactive => ?_,
      fun old hold => ?_⟩, rfl⟩
    · rcases (hput other).1 hother with hnew | ⟨hold, hne⟩
      · exact hnew
      · exact absurd (congrArg GraphGenerationRow.id (honly other hold hactive)) hne
    · by_cases hid : old.id = generation.id
      · exact ⟨_, (hput _).2 (.inl rfl), hid.symm⟩
      · exact ⟨old, (hput old).2 (.inr ⟨hold, hid⟩), rfl⟩

variable {active : Option GraphGenerationRow}

theorem replaceGeneration_eq_ok {builtBy generationId : Uuid} (hvalid : Valid snapshot)
    (hnodes : ∀ row ∈ db.nodes, ∃ generation ∈ db.generations, generation.id = row.generationId)
    (hedges : ∀ row ∈ db.edges, ∃ generation ∈ db.generations, generation.id = row.generationId)
    (h : db.replaceGeneration builtBy active digest snapshot generationId now = .ok (db', result)) :
    Activated db db' result.generation digest snapshot ∧ result.changed = true := by
  unfold GraphDb.replaceGeneration at h
  set building := buildingGeneration generationId builtBy digest snapshot now
  cases hinsert : db.generations.insert building with
  | none =>
    simp only [hinsert] at h
    cases h
  | some generations =>
    simp only [hinsert] at h
    obtain ⟨db₁, hwriteNodes, db₂, hwriteEdges, h⟩ := bind₂_eq_ok.1 h
    obtain ⟨nodes, rfl, hmemNodes⟩ := writeNodes_eq_ok hvalid.nodeIds hwriteNodes
    obtain ⟨edges, rfl, hmemEdges⟩ := writeEdges_eq_ok hvalid.edgeIds hwriteEdges
    split_ifs at h with hother
    obtain ⟨rfl, rfl⟩ := Prod.mk.inj (ok.inj h)
    have hfresh := Table.get_eq_none.1 (Table.insert_eq_some.1 hinsert).1
    set superseded := generations.updateWhere
      (fun row => active.any (·.id = row.id) && row.state = .active) (·.supersede now)
    have hbuilding : building ∈ superseded := by
      refine Table.mem_updateWhere.2 ⟨building, (Table.mem_insert hinsert).2 (.inr rfl), if_neg ?_⟩
      simp [building, buildingGeneration]
    have hput (row : GraphGenerationRow) :=
      Table.mem_put (r := building.activate now) (x := row) hbuilding rfl
    refine ⟨⟨⟨fun row => ?_, fun row => ?_⟩, (hput _).2 (.inl rfl), ⟨rfl, rfl, rfl, rfl⟩,
      fun other hmemOther hactive => ?_, fun old hold => ?_⟩, rfl⟩
    · refine (hmemNodes row).trans (or_congr_right (and_congr_right fun hrow => ?_))
      obtain ⟨old, hold, hid⟩ := hnodes row hrow
      have hne : row.generationId ≠ generationId := hid ▸ hfresh old hold
      exact iff_of_true (fun h => hne h.1) hne
    · refine (hmemEdges row).trans (or_congr_right (and_congr_right fun hrow => ?_))
      obtain ⟨old, hold, hid⟩ := hedges row hrow
      have hne : row.generationId ≠ generationId := hid ▸ hfresh old hold
      exact iff_of_true (fun h => hne h.1) hne
    · rcases (hput other).1 hmemOther with rfl | ⟨hold, -⟩
      · rfl
      · exact absurd (List.any_eq_true.2 ⟨other, hold, decide_eq_true hactive⟩) hother
    · obtain ⟨new, hnew, hid⟩ : ∃ new ∈ superseded, new.id = old.id := by
        refine ⟨_, Table.mem_updateWhere.2 ⟨old, (Table.mem_insert hinsert).2 (.inl hold), rfl⟩, ?_⟩
        split_ifs
        · rfl
        · rfl
      exact ⟨new, (hput new).2 (.inr ⟨hnew, hid ▸ hfresh old hold⟩), hid⟩

/-- The spaces and vaults of the snapshot have rows. -/
structure Registered (db : GraphDb) (snapshot : GraphSnapshotInput) : Prop where
  nodes : ∀ node ∈ snapshot.nodes,
    node.spaceId ∈ db.spaces ∧ ∀ vaultId ∈ node.vaultId, vaultId ∈ db.vaults
  edges : ∀ edge ∈ snapshot.edges,
    edge.sourceSpaceId ∈ db.spaces ∧ ∀ spaceId ∈ edge.targetSpaceId, spaceId ∈ db.spaces

theorem Registered.nodeReferences (hregistered : Registered db snapshot)
    (hspaces : db'.spaces = db.spaces) (hvaults : db'.vaults = db.vaults)
    (hgeneration : (db'.generations.get generationId).isSome) {node : GraphNodeInput}
    (hnode : node ∈ snapshot.nodes) : db'.nodeReferences (nodeRow generationId node) = true := by
  obtain ⟨hspace, hvault⟩ := hregistered.nodes node hnode
  rw [GraphDb.nodeReferences, Bool.and_eq_true, Bool.and_eq_true, Option.all_eq_true, hspaces,
    hvaults]
  exact ⟨⟨hgeneration, contains_iff_mem.2 hspace⟩,
    fun vaultId h => contains_iff_mem.2 (hvault vaultId h)⟩

theorem Registered.edgeReferences (hregistered : Registered db snapshot)
    (hvalid : Valid snapshot) (hspaces : db'.spaces = db.spaces)
    (hnodes : ∀ node ∈ snapshot.nodes, nodeRow generationId node ∈ db'.nodes)
    {edge : GraphEdgeInput} (hedge : edge ∈ snapshot.edges) :
    db'.edgeReferences (edgeRow generationId edge) = true := by
  have hfound : ∀ id ∈ snapshot.nodes.map (·.stableNodeId),
      (db'.nodes.get (generationId, id)).isSome := by
    intro id hid
    obtain ⟨node, hnode, rfl⟩ := List.mem_map.1 hid
    exact isSome_iff_exists.2
      ⟨nodeRow generationId node, Table.get_eq_some.2 ⟨hnodes node hnode, rfl⟩⟩
  obtain ⟨hsource, htarget⟩ := hregistered.edges edge hedge
  simp only [GraphDb.edgeReferences, Bool.and_eq_true, Option.all_eq_true, hspaces,
    contains_iff_mem]
  exact ⟨⟨⟨hfound _ (hvalid.source edge hedge),
    fun id h => hfound id (hvalid.target edge hedge id h)⟩, hsource⟩, htarget⟩

theorem applyDelta_eq_error {v : Violation}
    (hvalid : Valid snapshot) (hregistered : Registered db snapshot)
    (hmem : generation ∈ db.generations) (hactive : generation.state = .active)
    (h : db.applyDelta generation digest snapshot now = .error v) : v = .check := by
  have hget : db.generations.get generation.id = some generation := Table.get_eq_some.2 ⟨hmem, rfl⟩
  unfold GraphDb.applyDelta at h
  rcases bind_eq_error.1 h with h | ⟨db₁, hwriteNodes, h⟩
  · refine writeNodes_eq_error hvalid.nodeIds (.inl rfl) (fun node hnode => ?_) h
    exact hregistered.nodeReferences rfl rfl (isSome_iff_exists.2 ⟨_, hget⟩) hnode
  obtain ⟨nodes, rfl, hnodes⟩ := writeNodes_eq_ok hvalid.nodeIds hwriteNodes
  rcases bind_eq_error.1 h with h | ⟨db₂, hwriteEdges, h⟩
  · refine writeEdges_eq_error hvalid.edgeIds (.inl rfl) (fun edge hedge => ?_) h
    refine hregistered.edgeReferences hvalid ?_ (fun node hnode => ?_) hedge
    · rfl
    · exact (hnodes _).2 (.inl ⟨node, hnode, rfl⟩)
  obtain ⟨edges, rfl, -⟩ := writeEdges_eq_ok hvalid.edgeIds hwriteEdges
  dsimp only [GraphDb.deleteNodes, GraphDb.deleteEdges] at h
  rw [hget, filter_some, if_pos (decide_eq_true hactive)] at h
  cases h

theorem replaceGeneration_eq_error {builtBy generationId : Uuid} {v : Violation}
    (hvalid : Valid snapshot)
    (hregistered : Registered db snapshot)
    (hnodes : ∀ row ∈ db.nodes, ∃ generation ∈ db.generations, generation.id = row.generationId)
    (hedges : ∀ row ∈ db.edges, ∃ generation ∈ db.generations, generation.id = row.generationId)
    (honly : ∀ generation ∈ db.generations, generation.state = .active → active = some generation)
    (hfresh : ∀ generation ∈ db.generations, generation.id ≠ generationId)
    (h : db.replaceGeneration builtBy active digest snapshot generationId now = .error v) :
    v = .check := by
  unfold GraphDb.replaceGeneration at h
  set building := buildingGeneration generationId builtBy digest snapshot now
  cases hinsert : db.generations.insert building with
  | none =>
    obtain ⟨old, hold, hid⟩ := Table.insert_eq_none.1 hinsert
    exact absurd hid (hfresh old hold)
  | some generations =>
    simp only [hinsert] at h
    have hget : generations.get generationId = some building :=
      Table.get_eq_some.2 ⟨(Table.mem_insert hinsert).2 (.inr rfl), rfl⟩
    rcases bind_eq_error.1 h with h | ⟨db₁, hwriteNodes, h⟩
    · refine writeNodes_eq_error hvalid.nodeIds (.inr fun row hrow heq => ?_)
        (fun node hnode => ?_) h
      · obtain ⟨old, hold, hid⟩ := hnodes row hrow
        exact hfresh old hold (hid.trans heq)
      · refine hregistered.nodeReferences ?_ ?_ (isSome_iff_exists.2 ⟨_, hget⟩) hnode
        · rfl
        · rfl
    obtain ⟨nodes, rfl, hmemNodes⟩ := writeNodes_eq_ok hvalid.nodeIds hwriteNodes
    rcases bind_eq_error.1 h with h | ⟨db₂, hwriteEdges, h⟩
    · refine writeEdges_eq_error hvalid.edgeIds (.inr fun row hrow heq => ?_)
        (fun edge hedge => ?_) h
      · obtain ⟨old, hold, hid⟩ := hedges row hrow
        exact hfresh old hold (hid.trans heq)
      · refine hregistered.edgeReferences hvalid ?_ (fun node hnode => ?_) hedge
        · rfl
        · exact (hmemNodes _).2 (.inl ⟨node, hnode, rfl⟩)
    obtain ⟨edges, rfl, -⟩ := writeEdges_eq_ok hvalid.edgeIds hwriteEdges
    split_ifs at h with hother
    obtain ⟨row, hrow, hstate⟩ := List.any_eq_true.1 hother
    obtain ⟨old, hold, rfl⟩ := Table.mem_updateWhere.1 hrow
    split_ifs at hstate with hsuperseded
    · cases of_decide_eq_true hstate
    · rcases (Table.mem_insert hinsert).1 hold with hold | rfl
      · have hactive := of_decide_eq_true hstate
        simp [honly old hold hactive, hactive] at hsuperseded
      · cases of_decide_eq_true hstate

end

/-! ## Runs -/

inductive GraphStep
  | registerSpace (id : Uuid)
  | registerVault (id : Uuid)
  | registerUser (id : Uuid)
  | deleteUser (id : Uuid)
  | materialize (call : MaterializeCall)

/-- The graph of a tenant under `materialize`; a call that fails leaves it as it was. -/
abbrev graphMachine (digest : GraphSnapshotInput → String) : Machine GraphDb GraphStep where
  step
    | db, .registerSpace id => some { db with spaces := id :: db.spaces }
    | db, .registerVault id => some { db with vaults := id :: db.vaults }
    | db, .registerUser id => some { db with users := id :: db.users }
    | db, .deleteUser id =>
      if db.generations.rows.any (·.builtBy = id) then none
      else some { db with users := db.users.filter (· ≠ id) }
    | db, .materialize call =>
      match materialize digest call db with
      | .ok (db', _) => some db'
      | .error _ => some db

/-- The normalized snapshots of the steps that are valid. -/
def accepted (steps : List GraphStep) : Set GraphSnapshotInput :=
  { snapshot | ∃ call, .materialize call ∈ steps ∧
    normalizeAndValidate call.snapshot = .ok snapshot }

/-- Rows belong to generations, and the active one holds an accepted snapshot. -/
structure Sound (digest : GraphSnapshotInput → String) (known : Set GraphSnapshotInput)
    (db : GraphDb) : Prop where
  nodes : ∀ row ∈ db.nodes, ∃ generation ∈ db.generations, generation.id = row.generationId
  edges : ∀ row ∈ db.edges, ∃ generation ∈ db.generations, generation.id = row.generationId
  only : ∀ generation ∈ db.generations, ∀ other ∈ db.generations,
    generation.state = .active → other.state = .active → other = generation
  active : ∀ generation ∈ db.generations, generation.state = .active →
    db.graph generation.id ∈ known ∧
      Describes generation (digest (db.graph generation.id)) (db.graph generation.id)

section

variable {digest : GraphSnapshotInput → String} {known : Set GraphSnapshotInput}
  {db db' : GraphDb} {snapshot : GraphSnapshotInput} {generation : GraphGenerationRow}

theorem mem_of_activeGeneration (h : db.activeGeneration = some generation) :
    generation ∈ db.generations ∧ generation.state = .active :=
  ⟨mem_of_find?_eq_some h, by simpa using find?_some h⟩

theorem Sound.activeGeneration (hsound : Sound digest known db) (hmem : generation ∈ db.generations)
    (hactive : generation.state = .active) : db.activeGeneration = some generation := by
  obtain ⟨other, hother⟩ : ∃ other, db.activeGeneration = some other :=
    isSome_iff_exists.1 (find?_isSome.2 ⟨generation, hmem, decide_eq_true hactive⟩)
  obtain ⟨hmemOther, hactiveOther⟩ := mem_of_activeGeneration hother
  rw [hother, hsound.only generation hmem other hmemOther hactive hactiveOther]

theorem Sound.empty (digest : GraphSnapshotInput → String) (known : Set GraphSnapshotInput) :
    Sound digest known .empty where
  nodes row h := absurd h (Table.not_mem_empty row)
  edges row h := absurd h (Table.not_mem_empty row)
  only generation h := absurd h (Table.not_mem_empty generation)
  active generation h := absurd h (Table.not_mem_empty generation)

variable {raw : GraphSnapshotInput}

theorem Activated.graph_eq {text : String} (hactivated : Activated db db' generation text snapshot)
    (hraw : normalizeAndValidate raw = .ok snapshot) : db'.graph generation.id = snapshot := by
  refine Graph.graph_eq hraw (fun node => ?_) (fun edge => ?_)
  · rw [hactivated.replaced.nodes]
    constructor
    · rintro (⟨_, hnode, ⟨⟩⟩ | ⟨-, hne⟩)
      · exact hnode
      · exact absurd rfl hne
    · exact fun hnode => .inl ⟨node, hnode, rfl⟩
  · rw [hactivated.replaced.edges]
    constructor
    · rintro (⟨_, hedge, ⟨⟩⟩ | ⟨-, hne⟩)
      · exact hedge
      · exact absurd rfl hne
    · exact fun hedge => .inl ⟨edge, hedge, rfl⟩

theorem Sound.of_activated (hsound : Sound digest known db)
    (hactivated : Activated db db' generation (digest snapshot) snapshot)
    (hraw : normalizeAndValidate raw = .ok snapshot) (hknown : snapshot ∈ known) :
    Sound digest known db' where
  nodes row hrow := by
    rcases (hactivated.replaced.nodes row).1 hrow with ⟨node, -, rfl⟩ | ⟨hold, -⟩
    · exact ⟨generation, hactivated.mem, rfl⟩
    · obtain ⟨old, hmem, hid⟩ := hsound.nodes row hold
      obtain ⟨new, hnew, heq⟩ := hactivated.kept old hmem
      exact ⟨new, hnew, heq.trans hid⟩
  edges row hrow := by
    rcases (hactivated.replaced.edges row).1 hrow with ⟨edge, -, rfl⟩ | ⟨hold, -⟩
    · exact ⟨generation, hactivated.mem, rfl⟩
    · obtain ⟨old, hmem, hid⟩ := hsound.edges row hold
      obtain ⟨new, hnew, heq⟩ := hactivated.kept old hmem
      exact ⟨new, hnew, heq.trans hid⟩
  only one hone other hother hactive hactiveOther := by
    rw [hactivated.only one hone hactive, hactivated.only other hother hactiveOther]
  active one hone hactive := by
    obtain rfl := hactivated.only one hone hactive
    rw [hactivated.graph_eq hraw]
    exact ⟨hknown, hactivated.describes⟩

variable {call : MaterializeCall}

/-- What a successful call does: nothing if the digest is that of the active generation, and else
it activates the snapshot. -/
theorem materialize_eq_ok {result : GraphMaterializeResult}
    (hsound : Sound digest known db) (h : materialize digest call db = .ok (db', result)) :
    ∃ snapshot, normalizeAndValidate call.snapshot = .ok snapshot ∧
      (db' = db ∧ result.generation ∈ db.generations ∧ result.generation.state = .active ∧
          result.generation.inputDigest = digest snapshot ∨
        Activated db db' result.generation (digest snapshot) snapshot ∧ result.changed = true) := by
  unfold materialize at h
  obtain ⟨snapshot, hnormalize, h⟩ := bind_eq_ok.1 h
  cases hraw : normalizeAndValidate call.snapshot with
  | error e =>
    rw [hraw] at hnormalize
    cases hnormalize
  | ok normalized =>
    rw [hraw] at hnormalize
    obtain rfl := ok.inj hnormalize
    have hvalid := (normalizeAndValidate_eq_ok hraw).2
    refine ⟨normalized, rfl, ?_⟩
    split_ifs at h
    cases hactive : db.activeGeneration with
    | none =>
      simp only [hactive] at h
      exact .inr (replaceGeneration_eq_ok hvalid hsound.nodes hsound.edges (mapError_eq_ok.1 h))
    | some active =>
      obtain ⟨hmem, hstate⟩ := mem_of_activeGeneration hactive
      simp only [hactive] at h
      split_ifs at h with hdigest
      · obtain ⟨rfl, rfl⟩ := Prod.mk.inj (ok.inj h)
        exact .inl ⟨rfl, hmem, hstate, hdigest⟩
      · cases hmode : call.mode with
        | incremental =>
          simp only [hmode] at h
          exact .inr (applyDelta_eq_ok hvalid hmem
            (fun other hother => hsound.only active hmem other hother hstate)
            (mapError_eq_ok.1 h))
        | full =>
          simp only [hmode] at h
          exact .inr (replaceGeneration_eq_ok hvalid hsound.nodes hsound.edges (mapError_eq_ok.1 h))

theorem materialize_eq_error {v : Violation}
    (hsound : Sound digest known db) (hregistered : Registered db call.snapshot)
    (hfresh : (∀ generation ∈ db.generations, generation.id ≠ call.generationId) ∨
      call.mode = .incremental ∧ db.activeGeneration.isSome)
    (h : materialize digest call db = .error (.database v)) : v = .check := by
  unfold materialize at h
  cases hraw : normalizeAndValidate call.snapshot with
  | error e =>
    rw [hraw] at h
    cases h
  | ok normalized =>
    rw [hraw] at h
    obtain ⟨rfl, hvalid⟩ := normalizeAndValidate_eq_ok hraw
    have hsorted : Registered db call.snapshot.sorted :=
      ⟨fun node hnode => hregistered.nodes node (mem_sortBy.1 hnode),
        fun edge hedge => hregistered.edges edge (mem_sortBy.1 hedge)⟩
    change (if _ then _ else _) = _ at h
    split_ifs at h
    · cases h
    cases hactive : db.activeGeneration with
    | none =>
      rw [hactive] at hfresh
      simp only [hactive] at h
      obtain ⟨_, h, ⟨⟩⟩ := mapError_eq_error.1 h
      refine replaceGeneration_eq_error hvalid hsorted hsound.nodes hsound.edges
        (fun generation hmem hstate => ?_) (hfresh.resolve_right (by simp)) h
      rw [hsound.activeGeneration hmem hstate] at hactive
      cases hactive
    | some active =>
      obtain ⟨hmem, hstate⟩ := mem_of_activeGeneration hactive
      simp only [hactive] at h
      split_ifs at h
      cases hmode : call.mode with
      | incremental =>
        simp only [hmode] at h
        obtain ⟨_, h, ⟨⟩⟩ := mapError_eq_error.1 h
        exact applyDelta_eq_error hvalid hsorted hmem hstate h
      | full =>
        rw [hmode] at hfresh
        simp only [hmode] at h
        obtain ⟨_, h, ⟨⟩⟩ := mapError_eq_error.1 h
        refine replaceGeneration_eq_error hvalid hsorted hsound.nodes hsound.edges
          (fun generation hgeneration hactive' => ?_) (hfresh.resolve_right (by simp)) h
        rw [hsound.only generation hgeneration active hmem hactive' hstate]

theorem Sound.step {db db' : GraphDb} {step : GraphStep} (hsound : Sound digest known db)
    (hknown : ∀ call, step = .materialize call → ∀ snapshot,
      normalizeAndValidate call.snapshot = .ok snapshot → snapshot ∈ known)
    (h : (graphMachine digest).step db step = some db') : Sound digest known db' := by
  cases step with
  | registerSpace | registerVault | registerUser =>
    obtain rfl := some.inj h
    exact ⟨hsound.nodes, hsound.edges, hsound.only, hsound.active⟩
  | deleteUser id =>
    simp only [ite_none_left_eq_some] at h
    obtain rfl := some.inj h.2
    exact ⟨hsound.nodes, hsound.edges, hsound.only, hsound.active⟩
  | materialize call =>
    simp only [] at h
    cases hcall : materialize digest call db with
    | error e =>
      rw [hcall] at h
      obtain rfl := some.inj h
      exact hsound
    | ok written =>
      rw [hcall] at h
      obtain rfl := some.inj h
      obtain ⟨snapshot, hraw, ⟨heq, -⟩ | ⟨hactivated, -⟩⟩ := materialize_eq_ok hsound hcall
      · exact heq ▸ hsound
      · exact hsound.of_activated hactivated hraw (hknown call rfl snapshot hraw)

theorem sound_of_run {steps : List GraphStep}
    (hrun : (graphMachine digest).exec .empty steps = some db)
    (hknown : accepted steps ⊆ known) : Sound digest known db := by
  refine (graphMachine digest).invariant_of_meets
    (C := fun _ step => True ∧ step ∈ steps) (fun s step s' hsound hstep h => ?_)
    (.empty digest known) (((graphMachine digest).meets_true steps _).and_forall _ fun _ => id) hrun
  refine hsound.step (fun call hcall snapshot hraw => hknown ⟨call, ?_, hraw⟩) h
  exact hcall ▸ hstep.2

theorem filter_active (hsound : Sound digest known db) (hmem : generation ∈ db.generations)
    (hactive : generation.state = .active) :
    db.generations.rows.filter (·.state = .active) = [generation] := by
  have hnodup : (db.generations.rows.filter (·.state = .active)).Nodup :=
    (Nodup.of_map _ db.generations.nodup).filter _
  rw [← perm_singleton, perm_ext_iff_of_nodup hnodup (nodup_singleton _)]
  intro other
  rw [List.mem_filter, mem_singleton, decide_eq_true_iff]
  constructor
  · exact fun h => hsound.only generation hmem other h.1 hactive h.2
  · rintro rfl
    exact ⟨hmem, hactive⟩

end

/-- After a successful call one generation is active, with the snapshot of the call; a snapshot that
is there changes nothing; and no statement breaks a key, where the spaces and vaults are registered.
-/
theorem materialize_exact {digest : GraphSnapshotInput → String} {steps : List GraphStep}
    {db : GraphDb} {call : MaterializeCall}
    (hrun : (graphMachine digest).exec .empty steps = some db)
    (hdigest : Set.InjOn digest (accepted (steps ++ [.materialize call]))) :
    (∀ db' result, materialize digest call db = .ok (db', result) →
      ∃ snapshot, normalizeAndValidate call.snapshot = .ok snapshot ∧
        db'.generations.rows.filter (·.state = .active) = [result.generation] ∧
        db'.graph result.generation.id = snapshot ∧
        Describes result.generation (digest snapshot) snapshot ∧
        (result.changed = false → db' = db)) ∧ (∀ active, db.activeGeneration = some active →
      normalizeAndValidate call.snapshot = .ok (db.graph active.id) → call.builtBy ∈ db.users →
      materialize digest call db =
        .ok (db, { generation := active, changed := false, mode := "noop" })) ∧
    (∀ v, materialize digest call db = .error (.database v) → Registered db call.snapshot →
      (∀ generation ∈ db.generations, generation.id ≠ call.generationId) ∨
        call.mode = .incremental ∧ db.activeGeneration.isSome → v.ofKey = false) := by
  have hsound : Sound digest (accepted (steps ++ [.materialize call])) db :=
    sound_of_run hrun fun snapshot ⟨other, hmem, hraw⟩ =>
      ⟨other, mem_append_left _ hmem, hraw⟩
  have hcall {snapshot : GraphSnapshotInput}
      (hraw : normalizeAndValidate call.snapshot = .ok snapshot) :
      snapshot ∈ accepted (steps ++ [.materialize call]) := ⟨call, by simp, hraw⟩
  refine ⟨fun db' result h => ?_, fun active hactive hraw huser => ?_,
    fun v h hregistered hfresh => ?_⟩
  · obtain ⟨snapshot, hraw, hnoop | ⟨hactivated, hchanged⟩⟩ := materialize_eq_ok hsound h
    · obtain ⟨rfl, hmem, hactive, hsame⟩ := hnoop
      obtain ⟨hknown, hdescribes⟩ := hsound.active _ hmem hactive
      have hgraph : db'.graph result.generation.id = snapshot :=
        hdigest hknown (hcall hraw) (hdescribes.inputDigest.symm.trans hsame)
      exact ⟨snapshot, hraw, filter_active hsound hmem hactive, hgraph, hgraph ▸ hdescribes,
        fun _ => rfl⟩
    · have hsound' := hsound.of_activated hactivated hraw (hcall hraw)
      refine ⟨snapshot, hraw, filter_active hsound' hactivated.mem hactivated.describes.state,
        hactivated.graph_eq hraw, hactivated.describes, fun hunchanged => ?_⟩
      rw [hchanged] at hunchanged
      cases hunchanged
  · obtain ⟨hmem, hstate⟩ := mem_of_activeGeneration hactive
    have hsame := (hsound.active active hmem hstate).2.inputDigest
    have huser : (!db.users.contains call.builtBy) = false := by simpa using huser
    unfold materialize
    rw [hraw]
    change (if (!db.users.contains call.builtBy) = true then _ else _) = _
    simp only [huser, Bool.false_eq_true, if_false, hactive, hsame, if_true]
  · rw [materialize_eq_error hsound hregistered hfresh h]
    rfl

/-! ## Samples -/

def sampleNode (id : String) (spaceId : Uuid) : GraphNodeInput where
  stableNodeId := id
  spaceId
  vaultId := none
  nodeKind := "source"
  canonicalId := none
  canonicalRevision := 1
  homeBundleId := "bundle"
  title := ""
  status := "active"
  freshness := "current"
  contentHash := none
  metadata := .object []

/-- Sources of the first space, each linked to the next one; `digits` are those of the links' ids.
-/
def sampleChain (ids : List String) (digits : List Char) : GraphSnapshotInput where
  nodes := ids.map (sampleNode · 1)
  edges := (ids.zip ids.tail).zipWith (fun ends digit =>
    { stableEdgeId := .ofList (List.replicate 64 digit)
      fromNodeId := ends.1
      toNodeId := some ends.2
      targetRef := ends.2
      relationKind := "links_to"
      sourceSpaceId := 1
      targetSpaceId := some 1
      homeBundleId := "bundle"
      producerKind := "system"
      producerRevision := 1
      status := "active"
      evidence := .object [] }) digits

def sampleCall (mode : ReconcileMode) (snapshot : GraphSnapshotInput) : MaterializeCall where
  builtBy := 1
  mode
  snapshot
  generationId := 1
  now := 0

def sampleDigest (snapshot : GraphSnapshotInput) : String :=
  String.join (snapshot.nodes.map (·.stableNodeId))

def sampleBefore : GraphSnapshotInput := sampleChain ["source:1", "source:2", "source:3"] ['a', 'b']

/-- The first source is gone with its link, and another one has come. -/
def sampleAfter : GraphSnapshotInput := sampleChain ["source:2", "source:3", "source:4"] ['b', 'c']

def sampleSteps : List GraphStep :=
  [.registerSpace 1, .registerUser 1, .materialize (sampleCall .full sampleBefore)]

theorem sampleDigest_injOn : Set.InjOn sampleDigest (accepted (sampleSteps ++
      [.materialize (sampleCall .incremental sampleAfter)])) := by
  have hone : ∀ {s}, s ∈ accepted (sampleSteps ++
      [.materialize (sampleCall .incremental sampleAfter)]) →
      s = sampleBefore.sorted ∨ s = sampleAfter.sorted := by
    rintro s ⟨call, hmem, hs⟩
    rw [(normalizeAndValidate_eq_ok hs).1]
    simp only [sampleSteps, cons_append, nil_append, mem_cons, reduceCtorEq,
      GraphStep.materialize.injEq, not_mem_nil, or_false, false_or] at hmem
    rcases hmem with rfl | rfl
    · exact .inl rfl
    · exact .inr rfl
  have hne : sampleDigest sampleBefore.sorted ≠ sampleDigest sampleAfter.sorted := by
    decide +kernel
  intro s hs s' hs' heq
  rcases hone hs with rfl | rfl
  · rcases hone hs' with rfl | rfl
    · rfl
    · exact absurd heq hne
  · rcases hone hs' with rfl | rfl
    · exact absurd heq.symm hne
    · rfl

theorem materialize_exact_sample : ∃ db db' result,
    (graphMachine sampleDigest).exec .empty sampleSteps = some db ∧
      materialize sampleDigest (sampleCall .incremental sampleAfter) db = .ok (db', result) ∧
      result.mode = "incremental" ∧
      db'.generations.rows.filter (·.state = .active) = [result.generation] ∧
      db'.graph result.generation.id = sampleAfter.sorted := by
  have hrun : ∃ db, (graphMachine sampleDigest).exec .empty sampleSteps = some db ∧
      ∃ answer, (materialize sampleDigest (sampleCall .incremental sampleAfter) db).toOption =
        some answer ∧ answer.2.mode = "incremental" := by
    decide +kernel
  obtain ⟨db, hdb, ⟨db', result⟩, hanswer, hmode⟩ := hrun
  have hok := toOption_eq_some.1 hanswer
  obtain ⟨snapshot, hraw, hactive, hgraph, -⟩ :=
    (materialize_exact hdb sampleDigest_injOn).1 db' result hok
  rw [(normalizeAndValidate_eq_ok hraw).1] at hgraph
  exact ⟨db, db', result, hdb, hok, hmode, hactive, hgraph⟩

/-- A snapshot is accepted whose node is in no space of the tenant; the incremental path then breaks
the foreign key of the node. -/
theorem materialize_unregistered_space :
    (normalizeAndValidate ⟨[sampleNode "source:2" 2], []⟩).toBool = true ∧
      ((graphMachine sampleDigest).exec .empty sampleSteps).map (fun db =>
        (db.activeGeneration.isSome,
          (materialize sampleDigest (sampleCall .incremental ⟨[sampleNode "source:2" 2], []⟩)
            db).map (·.2))) = some (true, .error (.database .foreignKey)) := by
  decide +kernel

end Gadgetron.Graph
