import Gadgetron.Graph.Neighborhood

/-!
# The answers of the path query

The paths that `paths` returns are simple paths of the kind asked for; where no cap has cut the
search, they are all of them.
-/

namespace Gadgetron.Graph

open Lib Relation List

namespace GraphPath

def last (path : GraphPath) : String := path.nodeIds.getLast path.hasNode

def length (path : GraphPath) : ℕ := path.edgeIds.length

end GraphPath

def PathQuery.start (query : PathQuery) : GraphPath := ⟨[query.fromNodeId], [], nofun⟩

/-- A query for paths and the graph that it reads. -/
structure PathView where
  db : GraphDb
  scope : GraphReadScope
  query : PathQuery

section

variable (v : PathView)

/-- The visible edges of a wanted kind that lead on from a path. -/
def outgoing (path : GraphPath) : List GraphEdgeRow :=
  (v.db.edgesOf v.scope.generationId).filter fun row =>
    v.scope.showsEdge row && GraphDirection.outgoing.meets [path.last] row &&
      (v.query.relationKinds.isEmpty || v.query.relationKinds.contains row.relationKind)

/-- The extensions of a path by the unbroken ones of the edges, to nodes that are not on it. -/
def children (path : GraphPath) (edges : List GraphEdgeRow) : List GraphPath :=
  edges.filterMap fun edge => (edge.toNodeId.filter fun next =>
    edge.status ≠ "broken" && !path.nodeIds.contains next).map (path.extend · edge.stableEdgeId)

def Grows (path path' : GraphPath) : Prop := path' ∈ children path (outgoing v path)

/-- A simple path from the first node to the second one within the depth. -/
structure Wanted (path : GraphPath) : Prop where
  grown : ReflTransGen (Grows v) v.query.start path
  moves : 0 < path.length
  last : path.last = v.query.toNodeId
  short : path.length ≤ v.query.maxDepth

end

variable {v : PathView} {path path' : GraphPath} {edges : List GraphEdgeRow}

theorem of_mem_children {child : GraphPath} (h : child ∈ children path edges) :
    ∃ next edgeId, next ∉ path.nodeIds ∧ child = path.extend next edgeId := by
  obtain ⟨edge, -, hchild⟩ := mem_filterMap.1 h
  obtain ⟨next, hnext, rfl⟩ := Option.map_eq_some_iff.1 hchild
  have hfresh := (Option.filter_eq_some_iff.1 hnext).2
  exact ⟨next, _, by simpa using (Bool.and_eq_true_iff.1 hfresh).2, rfl⟩

section

variable {edge : GraphEdgeRow} {next : String}

theorem children_of_none (hto : edge.toNodeId = none) :
    children path (edge :: edges) = children path edges :=
  filterMap_cons_none (by rw [hto]; rfl)

theorem children_of_some (hto : edge.toNodeId = some next) : children path (edge :: edges) =
    if edge.status = "broken" || path.nodeIds.contains next then children path edges
    else path.extend next edge.stableEdgeId :: children path edges := by
  rw [children, filterMap_cons, hto, Option.filter_some]
  by_cases hbroken : edge.status = "broken" <;> by_cases hmem : next ∈ path.nodeIds <;>
    simp [hbroken, hmem, children]

end

theorem grows_of_mem (hedges : edges.Sublist (outgoing v path)) :
    ∀ child ∈ children path edges, Grows v path child :=
  fun _ hchild => (hedges.filterMap _).mem hchild

theorem Grows.length_eq (h : Grows v path path') : path'.length = path.length + 1 := by
  obtain ⟨next, edgeId, -, rfl⟩ := of_mem_children h
  simp [GraphPath.length, GraphPath.extend]

theorem length_le_of_grown (h : ReflTransGen (Grows v) path path') :
    path.length ≤ path'.length := by
  induction h with
  | refl => exact le_rfl
  | tail _ hgrows ih => exact ih.trans (hgrows.length_eq ▸ Nat.le_succ _)

theorem mem_of_grown (h : ReflTransGen (Grows v) path path') :
    ∀ id ∈ path.nodeIds, id ∈ path'.nodeIds := by
  induction h with
  | refl => exact fun _ hid => hid
  | tail _ hgrows ih =>
    obtain ⟨next, edgeId, -, rfl⟩ := of_mem_children hgrows
    exact fun id hid => mem_append_left _ (ih id hid)

/-- No path to the second node goes on to it once more. -/
theorem Wanted.eq_of_grown (h : Wanted v path) (h' : Wanted v path')
    (hgrown : ReflTransGen (Grows v) path path') : path' = path := by
  rcases hgrown.cases_tail with heq | ⟨before, hbefore, hgrows⟩
  · exact heq
  · obtain ⟨next, edgeId, hfresh, rfl⟩ := of_mem_children hgrows
    have hnext : next = path.last := by
      rw [h.last, ← h'.last]
      simp [GraphPath.last, GraphPath.extend]
    exact absurd (mem_of_grown hbefore _ (hnext ▸ getLast_mem path.hasNode)) hfresh

/-! ## The search -/

/-- Where the search is: `rest` are the extensions of the last path that are still to come.  If
nothing was cut off, each wanted path is found or grows out of what is left. -/
structure Searched (v : PathView)
    (queue rest found : List GraphPath) (truncated : Bool) : Prop where
  grown : ∀ path ∈ queue ++ rest, ReflTransGen (Grows v) v.query.start path
  queued : ∀ path ∈ queue, ¬ Wanted v path
  results : ∀ path ∈ found, Wanted v path
  covers : truncated = false → ∀ path, Wanted v path → path ∈ found ∨
    ∃ before ∈ queue ++ rest, ReflTransGen (Grows v) before path

namespace Searched

variable {child : GraphPath} {queue rest found : List GraphPath} {truncated cut : Bool}

theorem cut_off (h : Searched v queue rest found truncated)
    {queue' rest' : List GraphPath} (hqueue : queue'.Sublist queue) (hrest : rest'.Sublist rest) :
    Searched v queue' rest' found true where
  grown path hpath := h.grown path ((hqueue.append hrest).mem hpath)
  queued path hpath := h.queued path (hqueue.mem hpath)
  results := h.results
  covers := nofun

theorem expand (h : Searched v (path :: queue) [] found truncated)
    (hedges : edges.Sublist (outgoing v path))
    (hall : cut = false → edges = outgoing v path) :
    Searched v queue (children path edges) found (truncated || cut) := by
  refine ⟨fun child hchild => ?_, (forall_mem_cons.1 h.queued).2, h.results, ?_⟩
  · rcases mem_append.1 hchild with hchild | hchild
    · exact h.grown child (by simp [hchild])
    · exact (h.grown path (by simp)).tail (grows_of_mem hedges child hchild)
  · intro hwhole p hp
    obtain ⟨htruncated, hcut⟩ := Bool.or_eq_false_iff.1 hwhole
    refine (h.covers htruncated p hp).imp_right fun ⟨before, hmem, hgrown⟩ => ?_
    rw [append_nil] at hmem
    rcases mem_cons.1 hmem with rfl | hmem
    · rcases hgrown.cases_head with rfl | ⟨child, hchild, hgrown⟩
      · exact absurd hp (h.queued _ mem_cons_self)
      · refine ⟨child, mem_append_right _ ?_, hgrown⟩
        rw [hall hcut]
        exact hchild
    · exact ⟨before, mem_append_left _ hmem, hgrown⟩

/-- A path as long as the depth allows leads to no wanted one. -/
theorem pass (h : Searched v (path :: queue) [] found truncated)
    (hlong : v.query.maxDepth ≤ path.length) :
    Searched v queue [] found truncated := by
  have hrest := h.cut_off (sublist_cons_self path queue) (.refl _)
  refine ⟨hrest.grown, hrest.queued, h.results, fun htruncated p hp => ?_⟩
  refine (h.covers htruncated p hp).imp_right fun ⟨before, hmem, hgrown⟩ => ?_
  rcases mem_cons.1 hmem with rfl | hmem
  · rcases hgrown.cases_head with rfl | ⟨child, hchild, hgrown⟩
    · exact absurd hp (h.queued _ mem_cons_self)
    · have hlonger := length_le_of_grown hgrown
      rw [hchild.length_eq] at hlonger
      exact absurd (hlonger.trans (hp.short.trans hlong)) (Nat.not_succ_le_self _)
  · exact ⟨before, hmem, hgrown⟩

theorem push (h : Searched v queue (child :: rest) found truncated)
    (hother : child.last ≠ v.query.toNodeId) :
    Searched v (queue ++ [child]) rest found truncated := by
  have hsame : queue ++ [child] ++ rest = queue ++ child :: rest := (append_cons ..).symm
  exact ⟨hsame ▸ h.grown, forall_mem_concat h.queued fun hwanted => hother hwanted.last,
    h.results, hsame ▸ h.covers⟩

theorem find (h : Searched v queue (child :: rest) found truncated)
    (hwanted : Wanted v child) : Searched v queue rest (found ++ [child]) truncated := by
  refine ⟨fun p hp => h.grown p ?_, h.queued, forall_mem_concat h.results hwanted,
    fun htruncated p hp => ?_⟩
  · exact ((sublist_cons_self child rest).append_left queue).mem hp
  · rcases h.covers htruncated p hp with hmem | ⟨before, hmem, hgrown⟩
    · exact .inl (mem_append_left _ hmem)
    · rw [mem_append, mem_cons] at hmem
      rcases hmem with hmem | rfl | hmem
      · exact .inr ⟨before, mem_append_left _ hmem, hgrown⟩
      · exact .inl (by simp [hwanted.eq_of_grown hp hgrown])
      · exact .inr ⟨before, mem_append_right _ hmem, hgrown⟩

end Searched

/-- The search as it stands; with as many paths as were asked for it has stopped. -/
def PathSearch.Sound (v : PathView)
    (search : PathSearch) : Prop :=
  search.found.length < v.query.maxPaths ∧
      Searched v search.queue [] search.found search.truncated ∨
    search.found.length = v.query.maxPaths ∧ search.queue = [] ∧ Searched v [] [] search.found true

theorem Searched.extendPath {search : PathSearch}
    (h : Searched v search.queue (children path edges) search.found search.truncated)
    (hpath : ReflTransGen (Grows v) v.query.start path)
    (hshort : path.length < v.query.maxDepth)
    (hgrows : ∀ child ∈ children path edges, Grows v path child)
    (hroom : search.found.length < v.query.maxPaths) :
    (Graph.extendPath v.query path search edges).Sound v := by
  have hlast (next : String) (edge : GraphEdgeRow) :
      (path.extend next edge.stableEdgeId).last = next := by
    simp [GraphPath.last, GraphPath.extend]
  have hwanted (next : String) (edge : GraphEdgeRow)
      (hchild : Grows v path (path.extend next edge.stableEdgeId))
      (hend : next = v.query.toNodeId) : Wanted v (path.extend next edge.stableEdgeId) := by
    refine ⟨hpath.tail hchild, ?_, (hlast next edge).trans hend, ?_⟩ <;> rw [hchild.length_eq]
    · exact Nat.succ_pos _
    · exact hshort
  fun_induction Graph.extendPath v.query path search edges with
  | case1 search => exact .inl ⟨hroom, h⟩
  | case2 search edge edges hto ih =>
    rw [children_of_none hto] at h hgrows
    exact ih h hgrows hroom
  | case3 search edge edges next hto hskip ih =>
    rw [children_of_some hto, if_pos hskip] at h hgrows
    exact ih h hgrows hroom
  | case4 search edge edges seen henough hto hskip candidate =>
    rw [children_of_some hto, if_neg hskip] at h hgrows
    have hfind := h.find (hwanted _ _ (hgrows _ mem_cons_self) rfl)
    refine .inr ⟨?_, rfl, hfind.cut_off (nil_sublist _) (nil_sublist _)⟩
    rw [List.length_append]
    exact le_antisymm hroom henough
  | case5 search edge edges seen henough hto hskip candidate ih =>
    rw [children_of_some hto, if_neg hskip] at h hgrows
    refine ih (h.find (hwanted _ _ (hgrows _ mem_cons_self) rfl)) (forall_mem_cons.1 hgrows).2 ?_
    simpa using henough
  | case6 search edge edges next hto hskip seen candidate hother hfits ih =>
    rw [children_of_some hto, if_neg hskip] at h hgrows
    exact ih (h.push ((hlast next edge).symm ▸ hother)) (forall_mem_cons.1 hgrows).2 hroom
  | case7 search edge edges next hto hskip seen hother hfits ih =>
    rw [children_of_some hto, if_neg hskip] at h hgrows
    exact ih (h.cut_off (.refl _) (sublist_cons_self _ _)) (forall_mem_cons.1 hgrows).2 hroom

theorem run_fetchOutgoing (limit : ℕ) :
    (fetchAdjacentEdges v.scope [path.last] .outgoing v.query.relationKinds limit).run v.db =
      .ok ((outgoing v path).take limit) := rfl

theorem PathSearch.Sound.run {search result : PathSearch} (h : search.Sound v)
    (hrun : (searchPaths v.scope v.query search).run v.db = .ok result) :
    result.queue = [] ∧ result.Sound v := by
  fun_induction searchPaths v.scope v.query search with
  | case1 search hqueue => exact Except.ok.inj hrun ▸ ⟨hqueue, h⟩
  | case2 search path rest hqueue hlong ih =>
    rcases h with ⟨hroom, h⟩ | ⟨-, hnil, -⟩
    · rw [hqueue] at h
      exact ih (.inl ⟨hroom, h.pass hlong⟩) hrun
    · cases hqueue.symm.trans hnil
  | case3 search path rest hqueue hlong ih =>
    rcases h with ⟨hroom, h⟩ | ⟨-, hnil, -⟩
    · rw [hqueue] at h
      obtain ⟨edges, hedges, hrun⟩ := Reads.run_bind_eq_ok.1 hrun
      rw [show path.nodeIds.getLast path.hasNode = path.last from rfl, run_fetchOutgoing] at hedges
      obtain rfl := Except.ok.inj hedges
      have hsub := (take_sublist maxQueryEdges _).trans
        (take_sublist (maxQueryEdges + 1) (outgoing v path))
      refine ih _ (Searched.extendPath (h.expand hsub fun hcut => ?_) (h.grown path (by simp))
        (Nat.lt_of_not_le hlong) (grows_of_mem hsub) hroom) hrun
      rw [decide_eq_false_iff_not, length_take] at hcut
      rw [take_take, take_of_length_le (by omega)]
    · cases hqueue.symm.trans hnil

section

variable {db : GraphDb} {query : PathQuery} {cast : String → Option Uuid}
  {visibleSpaces : List Uuid} {result : GraphPathResult}

theorem exists_pathSearch (h : (paths cast visibleSpaces query).run db = .ok result) :
    ∃ search : PathSearch, search.queue = [] ∧ result.paths = search.found ∧
      result.truncated = search.truncated ∧
        search.Sound ⟨db, ⟨cast, result.generation.id, visibleSpaces⟩, query⟩ := by
  unfold paths at h
  split_ifs at h with hbad
  · cases h
  obtain ⟨generation, -, h⟩ := Reads.run_bind_eq_ok.1 h
  obtain ⟨_, -, h⟩ := Reads.run_bind_eq_ok.1 h
  obtain ⟨_, -, h⟩ := Reads.run_bind_eq_ok.1 h
  obtain ⟨search, hsearch, h⟩ := Reads.run_bind_eq_ok.1 h
  obtain ⟨_, -, h⟩ := Reads.run_bind_eq_ok.1 h
  obtain rfl := Except.ok.inj h
  have hroom : 0 < query.maxPaths := by
    simp only [Bool.or_eq_true, Bool.not_eq_true', Bool.and_eq_false_iff,
      decide_eq_false_iff_not, not_or, not_not] at hbad
    exact hbad.2.1
  have hstart : PathSearch.Sound ⟨db, ⟨cast, generation.id, visibleSpaces⟩, query⟩
      ⟨[query.start], [], [], false⟩ := by
    refine .inl ⟨hroom, ?_, ?_, forall_mem_nil _, ?_⟩
    · exact forall_mem_singleton.2 .refl
    · exact forall_mem_singleton.2 fun hwanted => absurd hwanted.moves (Nat.lt_irrefl 0)
    · exact fun _ path hpath => .inr ⟨_, mem_singleton_self _, hpath.grown⟩
  have hsound := hstart.run hsearch
  exact ⟨search, hsound.1, rfl, rfl, hsound.2⟩

/-- Only wanted paths are returned, and no more than asked for; with room for more and nothing cut
off, all of them are. -/
theorem paths_exact (h : (paths cast visibleSpaces query).run db = .ok result) :
    (∀ path ∈ result.paths,
        Wanted ⟨db, ⟨cast, result.generation.id, visibleSpaces⟩, query⟩ path) ∧
      result.paths.length ≤ query.maxPaths ∧
      (result.truncated = false → result.paths.length < query.maxPaths → ∀ path,
        Wanted ⟨db, ⟨cast, result.generation.id, visibleSpaces⟩, query⟩ path →
          path ∈ result.paths) := by
  obtain ⟨search, hqueue, hpaths, htruncated, hsound⟩ := exists_pathSearch h
  rw [hpaths]
  rcases hsound with ⟨hroom, h⟩ | ⟨hfull, -, h⟩
  · rw [hqueue] at h
    refine ⟨h.results, hroom.le, fun hwhole _ path hpath => ?_⟩
    refine (h.covers (htruncated ▸ hwhole) path hpath).resolve_right fun ⟨_, hmem, _⟩ => ?_
    cases hmem
  · exact ⟨h.results, hfull.le, fun _ hroom => absurd hfull hroom.ne⟩

end

/-! ## The ways to a note -/

/-- From the reference there are the way over note 1 alone and the one over the notes 1 and 2, and
no others. -/
theorem paths_exact_sample : ∃ result,
    (paths Uuid.ofText [1, 2] sampleTrip).run sampleDb = .ok result ∧
      result.paths.map (·.nodeIds) =
        [[shareId 5, noteId 1, noteId 3], [shareId 5, noteId 1, noteId 2, noteId 3]] ∧
      ∀ path, path ∈ result.paths ↔
        Wanted ⟨sampleDb, ⟨Uuid.ofText, 1, [1, 2]⟩, sampleTrip⟩ path := by
  obtain ⟨result, hresult, hgeneration, hwhole, hpaths⟩ := run_sampleTrip
  obtain ⟨hwanted, -, hall⟩ := paths_exact hresult
  rw [hgeneration] at hwanted hall
  have hroom : result.paths.length < sampleTrip.maxPaths := by
    rw [← List.length_map (·.nodeIds), hpaths]
    decide
  exact ⟨result, hresult, hpaths, fun path => ⟨hwanted path, hall hwhole hroom path⟩⟩

end Gadgetron.Graph
