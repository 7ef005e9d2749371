import Gadgetron.Graph.Placement
import Gadgetron.Graph.Query

/-!
# Queries show what is visible

Queries filter nodes by their spaces and edges by those that they record; as edges lie where their
nodes are, no query shows a node outside the visible spaces.
-/

namespace Gadgetron.Graph

open Lib Policy Spaces List Option Except

section

variable {db : GraphDb} {scope : GraphReadScope} {generationId : Uuid}

theorem mem_nodesOf {row : GraphNodeRow} :
    row ∈ db.nodesOf generationId ↔ row ∈ db.nodes ∧ row.generationId = generationId := by
  rw [GraphDb.nodesOf, mem_sortBy, List.mem_filter, decide_eq_true_iff]
  exact Iff.rfl

variable {row : GraphEdgeRow}

theorem mem_edgesOf :
    row ∈ db.edgesOf generationId ↔ row ∈ db.edges ∧ row.generationId = generationId := by
  rw [GraphDb.edgesOf, mem_sortBy, List.mem_filter, decide_eq_true_iff]
  exact Iff.rfl

def NodeShown (db : GraphDb) (scope : GraphReadScope) (row : GraphNodeRow) : Prop :=
  row ∈ db.nodesOf scope.generationId ∧ scope.showsNode row = true

def EdgeShown (db : GraphDb) (scope : GraphReadScope) (row : GraphEdgeRow) : Prop :=
  row ∈ db.edgesOf scope.generationId ∧ scope.showsEdge row = true

def IdShown (db : GraphDb) (scope : GraphReadScope) (id : String) : Prop :=
  ∃ row, NodeShown db scope row ∧ row.stableNodeId = id

def EndsShown (db : GraphDb) (scope : GraphReadScope) (row : GraphEdgeRow) : Prop :=
  IdShown db scope row.fromNodeId ∧ ∀ id ∈ row.toNodeId, IdShown db scope id

theorem endsShown_of_placed (hcast : ∀ id, scope.cast (Uuid.toText id) = some id)
    (hplaced : ∀ edge ∈ (db.graph scope.generationId).edges,
      EdgePlaced (db.graph scope.generationId).nodes edge) (hrow : EdgeShown db scope row) :
        EndsShown db scope row := by
  obtain ⟨hmem, hshows⟩ := hrow
  obtain ⟨hmem, hgeneration⟩ := mem_edgesOf.1 hmem
  obtain ⟨hsource, htarget⟩ := Bool.and_eq_true_iff.1 hshows
  rw [Option.all_eq_true] at htarget
  have hedge : row.toGraphEdgeInput ∈ (db.graph scope.generationId).edges := by
    rw [mem_graph_edges, ← hgeneration]
    exact hmem
  obtain ⟨⟨node, hnode, hid, hspace, hreference⟩, hto⟩ := hplaced _ hedge
  have hnodeRow (node : GraphNodeInput) (hnode : node ∈ (db.graph scope.generationId).nodes) :
      nodeRow scope.generationId node ∈ db.nodesOf scope.generationId :=
    mem_nodesOf.2 ⟨mem_graph_nodes.1 hnode, rfl⟩
  refine ⟨⟨nodeRow scope.generationId node, ⟨hnodeRow node hnode, ?_⟩, hid⟩, fun id hid => ?_⟩
  · rw [GraphReadScope.showsNode, Bool.and_eq_true, Bool.or_eq_true]
    refine ⟨?_, ?_⟩
    · change scope.visibleSpaces.contains node.spaceId = true
      rw [hspace]
      exact hsource
    · by_cases hkind : node.nodeKind = "reference"
      · obtain ⟨spaceId, hfield, hedgeSpace⟩ := hreference hkind
        refine .inr ?_
        have hfound : sourceSpaceOf scope.cast node.metadata = some spaceId := by
          simp [sourceSpaceOf, hfield, uuidText, jsonText, hcast]
        change (sourceSpaceOf scope.cast node.metadata).any scope.visibleSpaces.contains = true
        rw [hfound, any_some]
        exact htarget spaceId hedgeSpace
      · exact .inl (decide_eq_true hkind)
  · obtain ⟨target, htargetNode, htargetId, hkind, htargetSpace⟩ := hto id hid
    refine ⟨nodeRow scope.generationId target, ⟨hnodeRow target htargetNode, ?_⟩, htargetId⟩
    rw [GraphReadScope.showsNode, Bool.and_eq_true, Bool.or_eq_true]
    exact ⟨htarget target.spaceId htargetSpace, .inl (decide_eq_true hkind)⟩

end

/-! ## What the statements find -/

section

variable {db : GraphDb} {scope : GraphReadScope} {generation : GraphGenerationRow}

theorem run_lookupGeneration
    (h : lookupGeneration.run db = .ok generation) : db.activeGeneration = some generation := by
  rw [lookupGeneration, Reads.run_statement] at h
  split at h
  · exact ok.inj h ▸ ‹_›
  · cases h

theorem run_getNode {cast : String → Option Uuid} {visibleSpaces : List Uuid} {id : String}
    {row : GraphNodeRow} (hactive : db.activeGeneration = some generation)
    (h : (getNode cast visibleSpaces id).run db = .ok row) :
    NodeShown db ⟨cast, generation.id, visibleSpaces⟩ row ∧ row.stableNodeId = id ∧
      row.status ≠ "tombstone" := by
  unfold getNode at h
  split_ifs at h
  · cases h
  obtain ⟨found, hfound, h⟩ := Reads.run_bind_eq_ok.1 h
  obtain rfl := mem_unique hactive (run_lookupGeneration hfound)
  rw [Reads.run_statement] at h
  split at h
  · rename_i row' hrow
    obtain rfl := ok.inj h
    have hmem := mem_of_find?_eq_some hrow
    have hshows := find?_some hrow
    simp only [Bool.and_eq_true, decide_eq_true_eq] at hshows
    exact ⟨⟨hmem, hshows.1.2⟩, hshows.1.1, hshows.2⟩
  · cases h

variable {edges : List GraphEdgeRow}

theorem run_fetchAdjacentEdges {frontier relationKinds : List String} {direction : GraphDirection}
    {limit : ℕ}
    (h : (fetchAdjacentEdges scope frontier direction relationKinds limit).run db = .ok edges) :
    ∀ edge ∈ edges, EdgeShown db scope edge := by
  unfold fetchAdjacentEdges at h
  split_ifs at h
  · obtain rfl := ok.inj h
    exact nofun
  · rw [Reads.run_statement] at h
    obtain rfl := ok.inj h
    intro edge hedge
    obtain ⟨hmem, hshows⟩ := List.mem_filter.1 (mem_of_mem_take hedge)
    simp only [Bool.and_eq_true] at hshows
    exact ⟨hmem, hshows.1.1⟩

theorem run_fetchNodes {ids : List String} {nodes : List GraphNodeRow}
    (h : (fetchNodes scope ids).run db = .ok nodes) : ∀ node ∈ nodes, NodeShown db scope node := by
  unfold fetchNodes at h
  split_ifs at h
  · obtain rfl := ok.inj h
    exact nofun
  · rw [Reads.run_statement] at h
    obtain rfl := ok.inj h
    intro node hnode
    obtain ⟨hmem, hshows⟩ := List.mem_filter.1 hnode
    simp only [Bool.and_eq_true] at hshows
    exact ⟨hmem, hshows.1.1⟩

theorem run_diagnosticEdges {predicate : GraphEdgeRow → Bool} {limit : ℕ}
    (h : (diagnosticEdges scope predicate limit).run db = .ok edges) :
    ∀ edge ∈ edges, EdgeShown db scope edge := by
  rw [diagnosticEdges, Reads.run_statement] at h
  obtain rfl := ok.inj h
  intro edge hedge
  obtain ⟨hmem, hshows⟩ := List.mem_filter.1 (mem_of_mem_take hedge)
  exact ⟨hmem, (Bool.and_eq_true_iff.1 hshows).1⟩

end

/-! ## What the searches find -/

section

variable {db : GraphDb} {scope : GraphReadScope} {α : Type}

theorem mem_insertBy {key : α → String} {l : List α} {a b : α}
    (h : b ∈ insertBy key l a) : b ∈ l ∨ b = a := by
  rcases mem_append.1 h with h | h
  · exact .inl (List.mem_filter.1 h).1
  · exact .inr (mem_singleton.1 h)

theorem mem_foldl_insertBy {key : α → String} {l l' : List α} {b : α}
    (h : b ∈ l'.foldl (insertBy key) l) : b ∈ l ∨ b ∈ l' := by
  induction l' generalizing l with
  | nil => exact .inl h
  | cons a rest ih =>
    rcases ih h with h | h
    · rcases mem_insertBy h with h | rfl
      · exact .inl h
      · exact .inr mem_cons_self
    · exact .inr (mem_cons_of_mem a h)

theorem run_neighborhoodLevels {query : NeighborhoodQuery} {depth : ℕ}
    {search result : NeighborhoodSearch} (hnodes : ∀ node ∈ search.nodes, NodeShown db scope node)
    (hedges : ∀ edge ∈ search.edges, EdgeShown db scope edge)
    (h : (neighborhoodLevels scope query depth search).run db = .ok result) :
    (∀ node ∈ result.nodes, NodeShown db scope node) ∧
      ∀ edge ∈ result.edges, EdgeShown db scope edge := by
  induction depth generalizing search with
  | zero =>
    obtain rfl := ok.inj h
    exact ⟨hnodes, hedges⟩
  | succ depth ih =>
    unfold neighborhoodLevels at h
    split_ifs at h
    · obtain rfl := ok.inj h
      exact ⟨hnodes, hedges⟩
    · obtain ⟨fetched, hfetched, h⟩ := Reads.run_bind_eq_ok.1 h
      obtain ⟨fetchedNodes, hfetchedNodes, h⟩ := Reads.run_bind_eq_ok.1 h
      refine ih (fun node hnode => ?_) (fun edge hedge => ?_) h
      · rcases mem_foldl_insertBy hnode with hnode | hnode
        · exact hnodes node hnode
        · exact run_fetchNodes hfetchedNodes node hnode
      · rcases mem_foldl_insertBy hedge with hedge | hedge
        · exact hedges edge hedge
        · exact run_fetchAdjacentEdges hfetched edge (mem_of_mem_take hedge)

/-- Paths run over ids that a query may show. -/
structure PathsShown (db : GraphDb) (scope : GraphReadScope) (search : PathSearch) : Prop where
  queue : ∀ path ∈ search.queue, ∀ id ∈ path.nodeIds, IdShown db scope id
  found : ∀ path ∈ search.found, ∀ id ∈ path.nodeIds, IdShown db scope id
  seenEdges : ∀ edge ∈ search.seenEdges, EdgeShown db scope edge

theorem forall_mem_concat {P : α → Prop} {l : List α} {a : α} (hl : ∀ b ∈ l, P b)
    (ha : P a) : ∀ b ∈ l ++ [a], P b := by
  intro b hb
  rcases mem_append.1 hb with hb | hb
  · exact hl b hb
  · exact mem_singleton.1 hb ▸ ha

theorem PathsShown.extendPath {query : PathQuery} {path : GraphPath} {search : PathSearch}
    {edges : List GraphEdgeRow} (hsearch : PathsShown db scope search)
    (hpath : ∀ id ∈ path.nodeIds, IdShown db scope id)
    (hedges : ∀ edge ∈ edges, EdgeShown db scope edge ∧ EndsShown db scope edge) :
    PathsShown db scope (Graph.extendPath query path search edges) := by
  have hcandidate {edge : GraphEdgeRow} {next : String} (hto : edge.toNodeId = some next)
      (hedge : EndsShown db scope edge) :
      ∀ id ∈ (path.extend next edge.stableEdgeId).nodeIds, IdShown db scope id :=
    forall_mem_concat hpath (hedge.2 next hto)
  have hseen {edges : List GraphEdgeRow} {edge : GraphEdgeRow}
      (hedges : ∀ edge ∈ edges, EdgeShown db scope edge) (hedge : EdgeShown db scope edge) :
      ∀ other ∈ insertBy (·.stableEdgeId) edges edge, EdgeShown db scope other := by
    intro other hother
    rcases mem_insertBy hother with hother | rfl
    · exact hedges other hother
    · exact hedge
  fun_induction Graph.extendPath query path search edges with
  | case1 => exact hsearch
  | case2 _ _ _ _ ih | case3 _ _ _ _ _ _ ih => exact ih hsearch (forall_mem_cons.1 hedges).2
  | case4 search edge edges seen henough hto hskip candidate =>
    obtain ⟨⟨hedge, hends⟩, -⟩ := forall_mem_cons.1 hedges
    exact ⟨forall_mem_nil _, forall_mem_concat hsearch.found (hcandidate hto hends),
      hseen hsearch.seenEdges hedge⟩
  | case5 search edge edges seen henough hto hskip candidate ih =>
    obtain ⟨⟨hedge, hends⟩, hrest⟩ := forall_mem_cons.1 hedges
    exact ih ⟨hsearch.queue, forall_mem_concat hsearch.found (hcandidate hto hends),
      hseen hsearch.seenEdges hedge⟩ hrest
  | case6 search edge edges next hto hskip seen candidate hother hroom ih =>
    obtain ⟨⟨hedge, hends⟩, hrest⟩ := forall_mem_cons.1 hedges
    exact ih ⟨forall_mem_concat hsearch.queue (hcandidate hto hends), hsearch.found,
      hseen hsearch.seenEdges hedge⟩ hrest
  | case7 search edge edges next hto hskip seen hother hroom ih =>
    obtain ⟨⟨hedge, -⟩, hrest⟩ := forall_mem_cons.1 hedges
    exact ih ⟨hsearch.queue, hsearch.found, hseen hsearch.seenEdges hedge⟩ hrest

theorem run_searchPaths {query : PathQuery} {search result : PathSearch}
    (hends : ∀ edge, EdgeShown db scope edge → EndsShown db scope edge)
    (hsearch : PathsShown db scope search)
    (h : (searchPaths scope query search).run db = .ok result) : PathsShown db scope result := by
  fun_induction searchPaths scope query search with
  | case1 => exact ok.inj h ▸ hsearch
  | case2 search path rest hqueue hlong ih =>
    have hrest := (forall_mem_cons.1 (hqueue ▸ hsearch.queue)).2
    exact ih ⟨hrest, hsearch.found, hsearch.seenEdges⟩ h
  | case3 search path rest hqueue hlong ih =>
    obtain ⟨hpath, hrest⟩ := forall_mem_cons.1 (hqueue ▸ hsearch.queue)
    obtain ⟨outgoing, houtgoing, h⟩ := Reads.run_bind_eq_ok.1 h
    refine ih outgoing (.extendPath ⟨hrest, hsearch.found, hsearch.seenEdges⟩ hpath ?_) h
    intro edge hedge
    have hshown := run_fetchAdjacentEdges houtgoing edge (mem_of_mem_take hedge)
    exact ⟨hshown, hends edge hshown⟩

end

/-! ## Queries on the graph of a canonical state -/

/-- The node with the id is in a visible space, and if it is a shared reference, the note that it
shares is in one, too. -/
def VisibleNode (c : Canonical) (db : GraphDb) (generationId : Uuid) (visibleSpaces : List Uuid)
    (id : String) : Prop :=
  ∃ row ∈ db.nodes, row.generationId = generationId ∧ row.stableNodeId = id ∧
    row.spaceId ∈ visibleSpaces ∧ (row.nodeKind = "reference" →
      ∃ share ∈ c.shares, row.stableNodeId = shareId share.id ∧
        share.sourceSpaceId ∈ visibleSpaces ∧ InSpace c share.sourceObjectId share.sourceSpaceId)

section

variable {env : GraphEnv} {cast : String → Option Uuid} {c c' : Canonical}
  {snapshot : GraphSnapshotInput} {db : GraphDb} {generationId : Uuid} {visibleSpaces : List Uuid}

theorem visibleNode_of_shown (hcast : ∀ id, cast (Uuid.toText id) = some id) (hplaced : Placed c)
    (hbuild : buildSnapshot env c = .ok (c', snapshot))
    (hgraph : db.graph generationId = snapshot.sorted) {id : String}
    (hid : IdShown db ⟨cast, generationId, visibleSpaces⟩ id) :
    VisibleNode c db generationId visibleSpaces id := by
  obtain ⟨row, ⟨hmem, hshows⟩, rfl⟩ := hid
  obtain ⟨hrow, hgeneration⟩ := mem_nodesOf.1 hmem
  obtain ⟨hspace, hsource⟩ := Bool.and_eq_true_iff.1 hshows
  refine ⟨row, hrow, hgeneration, rfl, contains_iff_mem.1 hspace, fun hkind => ?_⟩
  have hnode : row.toGraphNodeInput ∈ snapshot.nodes := by
    have hmemGraph : row.toGraphNodeInput ∈ (db.graph generationId).nodes := by
      rw [mem_graph_nodes]
      cases hgeneration
      exact hrow
    rw [hgraph] at hmemGraph
    exact mem_sortBy.1 hmemGraph
  obtain ⟨share, hshare, hid, hfield⟩ := share_of_reference hbuild hnode hkind
  refine ⟨share, hshare, hid, ?_, hplaced share hshare⟩
  have hfound : sourceSpaceOf cast row.metadata = some share.sourceSpaceId := by
    simp [sourceSpaceOf, hfield, uuidText, jsonText, hcast]
  simpa [hkind, hfound] using hsource

theorem endsShown_of_buildSnapshot (hparse : ∀ id, env.parseUuid (Uuid.toText id) = some id)
    (hcast : ∀ id, cast (Uuid.toText id) = some id) (hplaced : Placed c)
    (hbuild : buildSnapshot env c = .ok (c', snapshot))
    (hgraph : db.graph generationId = snapshot.sorted) {edge : GraphEdgeRow}
    (hedge : EdgeShown db ⟨cast, generationId, visibleSpaces⟩ edge) :
    EndsShown db ⟨cast, generationId, visibleSpaces⟩ edge := by
  refine endsShown_of_placed hcast (fun input hinput => ?_) hedge
  rw [hgraph] at hinput ⊢
  have hplacedEdge := edgePlaced_of_buildSnapshot hparse hplaced hbuild (mem_sortBy.1 hinput)
  constructor
  · obtain ⟨node, hnode, hrest⟩ := hplacedEdge.source
    exact ⟨node, mem_sortBy.2 hnode, hrest⟩
  · intro id hid
    obtain ⟨node, hnode, hrest⟩ := hplacedEdge.target id hid
    exact ⟨node, mem_sortBy.2 hnode, hrest⟩

/-- Every node, edge end and element of a path that a query returns is visible. -/
theorem queries_show_visible {steps : List CanonicalStep} {generation : GraphGenerationRow}
    (hparse : ∀ id, env.parseUuid (Uuid.toText id) = some id)
    (hcast : ∀ id, cast (Uuid.toText id) = some id)
    (hrun : canonicalMachine.exec .empty steps = some c)
    (hbuild : buildSnapshot env c = .ok (c', snapshot))
    (hactive : db.activeGeneration = some generation)
    (hgraph : db.graph generation.id = snapshot.sorted) :
    let visible := VisibleNode c db generation.id visibleSpaces
    let endsVisible (edge : GraphEdgeRow) :=
      visible edge.fromNodeId ∧ ∀ id ∈ edge.toNodeId, visible id
    (∀ id row, (getNode cast visibleSpaces id).run db = .ok row → visible row.stableNodeId) ∧
    (∀ query result, (neighborhood cast visibleSpaces query).run db = .ok result →
      visible result.centerNodeId ∧ (∀ node ∈ result.nodes, visible node.stableNodeId) ∧
        ∀ edge ∈ result.edges, endsVisible edge) ∧
    (∀ query result, (paths cast visibleSpaces query).run db = .ok result →
      (∀ path ∈ result.paths, ∀ id ∈ path.nodeIds, visible id) ∧
        (∀ node ∈ result.nodes, visible node.stableNodeId) ∧
        ∀ edge ∈ result.edges, endsVisible edge) ∧
    ∀ limit result, (diagnostics cast visibleSpaces limit).run db = .ok result →
      (∀ node ∈ result.orphanNodes ++ result.staleNodes, visible node.stableNodeId) ∧
        ∀ edge ∈ result.brokenEdges ++ result.contradictionEdges, endsVisible edge := by
  have hplaced := placed_of_run hrun
  intro visible endsVisible
  let scope : GraphReadScope := ⟨cast, generation.id, visibleSpaces⟩
  have hid {id : String} (h : IdShown db scope id) : visible id :=
    visibleNode_of_shown hcast hplaced hbuild hgraph h
  have hnode {row : GraphNodeRow} (h : NodeShown db scope row) : visible row.stableNodeId :=
    hid ⟨row, h, rfl⟩
  have hends {edge : GraphEdgeRow} (h : EdgeShown db scope edge) : EndsShown db scope edge :=
    endsShown_of_buildSnapshot hparse hcast hplaced hbuild hgraph h
  have hedge {edge : GraphEdgeRow} (h : EdgeShown db scope edge) : endsVisible edge :=
    ⟨hid (hends h).1, fun id hmem => hid ((hends h).2 id hmem)⟩
  refine ⟨fun id row h => hnode (run_getNode hactive h).1, fun query result h => ?_,
    fun query result h => ?_, fun limit result h => ?_⟩
  · unfold neighborhood at h
    obtain ⟨_, -, h⟩ := Reads.run_bind_eq_ok.1 h
    obtain ⟨found, hfound, h⟩ := Reads.run_bind_eq_ok.1 h
    obtain rfl := mem_unique hactive (run_lookupGeneration hfound)
    obtain ⟨center, hcenter, h⟩ := Reads.run_bind_eq_ok.1 h
    obtain ⟨search, hsearch, h⟩ := Reads.run_bind_eq_ok.1 h
    obtain rfl := ok.inj h
    obtain ⟨hshown, hcenterId, -⟩ := run_getNode hactive hcenter
    obtain ⟨hnodes, hedges⟩ := run_neighborhoodLevels
      (fun node hmem => mem_singleton.1 hmem ▸ hshown)
      (fun edge hmem => absurd hmem not_mem_nil) hsearch
    exact ⟨hid ⟨center, hshown, hcenterId⟩,
      fun node hmem => hnode (hnodes node (mem_sortBy.1 hmem)),
      fun edge hmem => hedge (hedges edge (mem_sortBy.1 hmem))⟩
  · unfold paths at h
    split_ifs at h
    · cases h
    obtain ⟨found, hfound, h⟩ := Reads.run_bind_eq_ok.1 h
    obtain rfl := mem_unique hactive (run_lookupGeneration hfound)
    obtain ⟨source, hsource, h⟩ := Reads.run_bind_eq_ok.1 h
    obtain ⟨_, -, h⟩ := Reads.run_bind_eq_ok.1 h
    obtain ⟨search, hsearch, h⟩ := Reads.run_bind_eq_ok.1 h
    obtain ⟨nodes, hnodes, h⟩ := Reads.run_bind_eq_ok.1 h
    obtain rfl := ok.inj h
    obtain ⟨hshown, hsourceId, -⟩ := run_getNode hactive hsource
    have hstart : PathsShown db scope
        { queue := [⟨[query.fromNodeId], [], by simp⟩]
          found := []
          seenEdges := []
          truncated := false } := by
      refine ⟨fun path hpath id hmem => ?_, fun path hmem => absurd hmem not_mem_nil,
        fun edge hmem => absurd hmem not_mem_nil⟩
      rw [mem_singleton.1 hpath] at hmem
      exact mem_singleton.1 hmem ▸ ⟨source, hshown, hsourceId⟩
    have hpaths := run_searchPaths (fun edge => hends) hstart hsearch
    exact ⟨fun path hpath id hmem => hid (hpaths.found path hpath id hmem),
      fun node hmem => hnode (run_fetchNodes hnodes node hmem),
      fun edge hmem => hedge (hpaths.seenEdges edge (mem_sortBy.1 hmem))⟩
  · unfold diagnostics at h
    split_ifs at h
    · cases h
    · cases h
    obtain ⟨found, hfound, h⟩ := Reads.run_bind_eq_ok.1 h
    obtain rfl := mem_unique hactive (run_lookupGeneration hfound)
    obtain ⟨orphans, horphans, h⟩ := Reads.run_bind_eq_ok.1 h
    obtain ⟨broken, hbroken, h⟩ := Reads.run_bind_eq_ok.1 h
    obtain ⟨stale, hstale, h⟩ := Reads.run_bind_eq_ok.1 h
    obtain ⟨contradictions, hcontradictions, h⟩ := Reads.run_bind_eq_ok.1 h
    obtain rfl := ok.inj h
    rw [Reads.run_statement] at horphans hstale
    obtain rfl := ok.inj horphans
    obtain rfl := ok.inj hstale
    constructor
    · intro node hmem
      rcases mem_append.1 hmem with hmem | hmem
      · obtain ⟨hrow, hshows⟩ :=
          List.mem_filter.1 (mem_of_mem_take (mem_of_mem_take hmem))
        simp only [Bool.and_eq_true] at hshows
        exact hnode ⟨hrow, hshows.1.1⟩
      · obtain ⟨hrow, hshows⟩ :=
          List.mem_filter.1 (mem_of_mem_take (mem_of_mem_take hmem))
        exact hnode ⟨hrow, (Bool.and_eq_true_iff.1 hshows).1⟩
    · intro edge hmem
      rcases mem_append.1 hmem with hmem | hmem
      · exact hedge (run_diagnosticEdges hbroken edge (mem_of_mem_take hmem))
      · exact hedge (run_diagnosticEdges hcontradictions edge (mem_of_mem_take hmem))

end

/-! ## Notes of two spaces -/

/-- A note links to the notes that the characters of its text name. -/
def sampleEnv : GraphEnv where
  parseGraphNote raw path :=
    .ok ⟨path, [], raw.toList.map fun c => ⟨"links_to", .ofList [c], "wiki_link", none⟩⟩
  normalizedTitle title := title
  stableEdgeId node _ target _ _ _ := node ++ ">" ++ target
  parseUuid := Uuid.ofText
  parseCandidate _ _ := none
  contentHash _ := ""
  vaultError location := location.2.2

def sharingRegistry : Registry :=
  { Registry.empty with
    users := fun id => if id = 1 then some ⟨1, .admin, true⟩ else none
    spaces := fun id =>
      if id = 1 ∨ id = 2 then some ⟨id, 1, .tenantShared, none, none, none, .active⟩ else none }

def insertNote (id vaultId : Uuid) (path text : String) : CanonicalStep :=
  .mutate (.insertObject
    { id
      vaultId
      canonicalKind := "note"
      path
      revision := 1
      status := "active"
      contentHash := some ""
      sourceId := none }
    (some text.toUTF8))

/-- Note 1 links to the notes 2 and 3 of its space and is shared with the other space, note 2 links
to note 3, and note 3 to the note of the other space, where its link is broken. -/
def sampleCanonicalSteps : List CanonicalStep :=
  [.ensureVault ⟨1, 1, "core", "enabled"⟩, .ensureVault ⟨2, 2, "core", "enabled"⟩,
    insertNote 1 1 "a.md" "bc", insertNote 2 1 "b.md" "c", insertNote 3 1 "c.md" "d",
    insertNote 4 2 "d.md" "",
    .mutate (.shareObject sharingRegistry ⟨1, 1⟩ 1 ⟨1, 2, .reference, true, ""⟩ none 5)]

def sampleSnapshot : GraphSnapshotInput :=
  ((canonicalMachine.exec .empty sampleCanonicalSteps).bind fun c =>
    (buildSnapshot sampleEnv c).toOption).elim ⟨[], []⟩ (·.2)

def sampleGeneration : GraphGenerationRow where
  id := 1
  schemaVersion := 1
  state := .active
  inputDigest := ""
  graphRevision := 1
  nodeCount := 5
  edgeCount := 5
  builtBy := 1
  createdAt := 0
  activatedAt := some 0
  supersededAt := none

theorem nodup_sampleNodes :
    ((sampleSnapshot.nodes.map (nodeRow 1)).map GraphNodeRow.key).Nodup := by
  decide +kernel

theorem nodup_sampleEdges :
    ((sampleSnapshot.edges.map (edgeRow 1)).map GraphEdgeRow.key).Nodup := by
  decide +kernel

def sampleDb : GraphDb :=
  { GraphDb.empty with
    generations := ⟨[sampleGeneration], pairwise_singleton _ _⟩
    nodes := ⟨sampleSnapshot.nodes.map (nodeRow 1), nodup_sampleNodes⟩
    edges := ⟨sampleSnapshot.edges.map (edgeRow 1), nodup_sampleEdges⟩ }

theorem sampleDb_graph : sampleDb.graph 1 = sampleSnapshot.sorted := by
  simp [GraphDb.graph, sampleDb, List.filter_map, Function.comp_def, nodeRow, edgeRow]

theorem sampleEnv_parseUuid (id : Uuid) : sampleEnv.parseUuid (Uuid.toText id) = some id := by
  simp only [sampleEnv, Uuid.ofText_toText]

/-- The trip from the shared reference to note 3. -/
def sampleTrip : PathQuery where
  fromNodeId := shareId 5
  toNodeId := noteId 3
  maxDepth := 3
  maxPaths := 3
  relationKinds := []

def sampleQuery (edgeLimit : ℕ) : NeighborhoodQuery where
  centerNodeId := noteId 3
  maxDepth := 2
  nodeLimit := 4
  edgeLimit := edgeLimit
  direction := .both
  relationKinds := []

theorem run_sampleTrip : ∃ result,
    (paths Uuid.ofText [1, 2] sampleTrip).run sampleDb = .ok result ∧
      result.generation = sampleGeneration ∧ result.truncated = false ∧
      result.paths.map (·.nodeIds) =
        [[shareId 5, noteId 1, noteId 3], [shareId 5, noteId 1, noteId 2, noteId 3]] := by
  have hrun : ((paths Uuid.ofText [1, 2] sampleTrip).run sampleDb).toOption.map
      (fun result => (result.generation, result.truncated, result.paths.map (·.nodeIds))) =
        some (sampleGeneration, false,
          [[shareId 5, noteId 1, noteId 3], [shareId 5, noteId 1, noteId 2, noteId 3]]) := by
    decide +kernel
  obtain ⟨result, hresult, heq⟩ := map_eq_some_iff.1 hrun
  obtain ⟨hgeneration, heq⟩ := Prod.mk.inj heq
  exact ⟨result, toOption_eq_some.1 hresult, hgeneration, (Prod.mk.inj heq).1, (Prod.mk.inj heq).2⟩

/-- The paths from the reference lead over visible nodes of both spaces; to a reader of the first
space alone the links of its notes are shown, the broken one included, but not the reference. -/
theorem queries_show_visible_sample :
    ∃ c c', canonicalMachine.exec .empty sampleCanonicalSteps = some c ∧
      buildSnapshot sampleEnv c = .ok (c', sampleSnapshot) ∧
      (∃ result, (paths Uuid.ofText [1, 2] sampleTrip).run sampleDb = .ok result ∧
        result.paths.map (·.nodeIds) =
          [[shareId 5, noteId 1, noteId 3], [shareId 5, noteId 1, noteId 2, noteId 3]] ∧
        ∀ path ∈ result.paths, ∀ id ∈ path.nodeIds, VisibleNode c sampleDb 1 [1, 2] id) ∧
      (∃ result, (neighborhood Uuid.ofText [1] (sampleQuery 7)).run sampleDb = .ok result ∧
        result.nodes.map (·.stableNodeId) = [noteId 1, noteId 2, noteId 3] ∧
        result.edges.map (·.toNodeId) = [some (noteId 2), some (noteId 3), some (noteId 3), none] ∧
        ∀ edge ∈ result.edges, VisibleNode c sampleDb 1 [1] edge.fromNodeId ∧
          ∀ id ∈ edge.toNodeId, VisibleNode c sampleDb 1 [1] id) ∧
      ∃ result, (diagnostics Uuid.ofText [1] 1).run sampleDb = .ok result ∧
        result.brokenEdges.map (·.targetRef) = ["d"] ∧
        ∀ edge ∈ result.brokenEdges ++ result.contradictionEdges,
          VisibleNode c sampleDb 1 [1] edge.fromNodeId := by
  have hsome : ((canonicalMachine.exec .empty sampleCanonicalSteps).bind fun c =>
      (buildSnapshot sampleEnv c).toOption).isSome := by
    decide +kernel
  obtain ⟨⟨c', snapshot⟩, hsnapshot⟩ := isSome_iff_exists.1 hsome
  obtain rfl : sampleSnapshot = snapshot := by rw [sampleSnapshot, hsnapshot, elim_some]
  obtain ⟨c, hc, hbuild⟩ := bind_eq_some_iff.1 hsnapshot
  rw [toOption_eq_some] at hbuild
  have hactive : sampleDb.activeGeneration = some sampleGeneration := rfl
  refine ⟨c, c', hc, hbuild, ?_, ?_, ?_⟩
  · obtain ⟨result, hresult, -, -, hpaths⟩ := run_sampleTrip
    exact ⟨result, hresult, hpaths,
      ((queries_show_visible sampleEnv_parseUuid Uuid.ofText_toText hc hbuild hactive
        sampleDb_graph).2.2.1 sampleTrip result hresult).1⟩
  · have hrun : ((neighborhood Uuid.ofText [1] (sampleQuery 7)).run sampleDb).toOption.map
        (fun result => (result.nodes.map (·.stableNodeId), result.edges.map (·.toNodeId))) =
          some ([noteId 1, noteId 2, noteId 3],
            [some (noteId 2), some (noteId 3), some (noteId 3), none]) := by
      decide +kernel
    obtain ⟨result, hresult, heq⟩ := map_eq_some_iff.1 hrun
    obtain ⟨hnodes, hedges⟩ := Prod.mk.inj heq
    have hok := toOption_eq_some.1 hresult
    exact ⟨result, hok, hnodes, hedges,
      ((queries_show_visible sampleEnv_parseUuid Uuid.ofText_toText hc hbuild hactive
        sampleDb_graph).2.1 (sampleQuery 7) result hok).2.2⟩
  · have hrun : ((diagnostics Uuid.ofText [1] 1).run sampleDb).toOption.map
        (fun result => result.brokenEdges.map (·.targetRef)) = some ["d"] := by
      decide +kernel
    obtain ⟨result, hresult, hbroken⟩ := map_eq_some_iff.1 hrun
    have hok := toOption_eq_some.1 hresult
    exact ⟨result, hok, hbroken, fun edge hedge =>
      (((queries_show_visible sampleEnv_parseUuid Uuid.ofText_toText hc hbuild hactive
        sampleDb_graph).2.2.2 1 result hok).2 edge hedge).1⟩

end Gadgetron.Graph
