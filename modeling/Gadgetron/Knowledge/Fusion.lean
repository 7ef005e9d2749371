import Gadgetron.Knowledge.KeywordIndex
import Gadgetron.Lib.Table
import Mathlib.Algebra.BigOperators.Group.List.Basic
import Mathlib.Algebra.Order.Field.Rat
import Mathlib.Data.Prod.Lex

/-!
# Fused search

`KnowledgeService::search`. The search plugs are asked at once and their lists of hits come in the
order in which the plugs complete; the lists are fused by path.
-/

namespace Gadgetron.Knowledge

open Lib List Option Except

abbrev PlugId := String

abbrev RankedHit := KnowledgeHit ℚ

inductive KnowledgeQueryMode
  | keyword
  | semantic
  | hybrid
  | relations
  | auto
  deriving DecidableEq

/-- The query as the service reads it: the part for the plugs, and the part that selects them. -/
structure ServiceQuery extends KnowledgeQuery where
  mode : KnowledgeQueryMode
  includeRelations : Bool

/-- `KnowledgeErrorKind::InvalidQuery` with its reason. -/
structure InvalidQuery where
  (reason message : String)

/-! ## Fusion -/

def rrfK : ℚ := 60

def contribution (rank : ℕ) : ℚ := 1 / (rrfK + rank + 1)

structure FusedState where
  bestRank : ℕ
  hit : RankedHit
  score : ℚ

namespace FusedState

/-- What `or_insert_with` inserts. -/
def start (rank : ℕ) (hit : RankedHit) : FusedState := ⟨rank, hit, 0⟩

def path (s : FusedState) : String := s.hit.path

def add (s : FusedState) (rank : ℕ) (hit : RankedHit) : FusedState where
  bestRank := if rank < s.bestRank then rank else s.bestRank
  hit := if rank < s.bestRank then hit else s.hit
  score := s.score + contribution rank

def row (s : FusedState) : RankedHit := { s.hit with score := s.score }

end FusedState

abbrev Ranked := RankedHit × ℕ

/-- The body of the loops in `fuse_hits`. -/
def fuseHit (fused : Table FusedState.path) (ranked : Ranked) : Table FusedState.path :=
  let (hit, rank) := ranked
  fused.upsert (((fused.get hit.path).getD (.start rank hit)).add rank hit)

def ranked (perPlug : List (List RankedHit)) : List Ranked := perPlug.flatMap List.zipIdx

def hitOrder (a b : RankedHit) : Ordering :=
  (compare b.score a.score).then (compare a.path b.path)

/-- The loop of `dedup_by_path`; `kept` is `hits[..i]`. -/
def dedupStep (kept : List RankedHit) (hit : RankedHit) : List RankedHit :=
  match kept.findIdx? (·.path = hit.path) with
  | some prev =>
    match kept[prev]? with
    | some previous => if previous.score < hit.score then kept.set prev hit else kept
    | none => kept
  | none => kept ++ [hit]

def dedupByPath (hits : List RankedHit) : List RankedHit := hits.foldl dedupStep []

/-- `fuse_hits`.  `intoValues` is the order in which the map gives its values away. -/
def fuseHits (intoValues : List FusedState → List FusedState) :
    List (List RankedHit) → List RankedHit
  | [] => []
  | [hits] => dedupByPath hits
  | perPlug =>
    let fused := (ranked perPlug).foldl fuseHit Table.empty
    sortBy hitOrder ((intoValues fused.rows).map FusedState.row)

def mergeByPath (primary additions : List RankedHit) : List RankedHit :=
  additions.foldl
    (fun primary add => if add.path ∈ primary.map KnowledgeHit.path then primary
      else primary ++ [add])
    primary

/-! ## The service -/

structure KnowledgeIndex where
  mode : KnowledgeQueryMode
  search : ServiceQuery → Option (List RankedHit)

/-- The plugs of the service; a relation engine answers with the nodes of a traversal or fails. -/
structure KnowledgeService where
  indexes : OrdMap PlugId KnowledgeIndex
  relationEngines : OrdMap PlugId (ServiceQuery → Option (List RankedHit))

namespace KnowledgeService

variable (self : KnowledgeService) (query : ServiceQuery)

def pickSearchPlugs (mode : KnowledgeQueryMode) : List PlugId :=
  let withMode (modes : List KnowledgeQueryMode) : List PlugId :=
    self.indexes.keys.toList.filter fun plug =>
      (self.indexes.get? plug).any fun index => index.mode ∈ modes
  match mode with
  | .keyword => withMode [.keyword]
  | .semantic => withMode [.semantic]
  | .hybrid => withMode [.keyword, .semantic, .hybrid]
  | .relations => []
  | .auto => self.indexes.keys.toList

def answer (plug : PlugId) : Option (List RankedHit) :=
  (self.indexes.get? plug).bind fun index => index.search query

def collectRelationHits : List RankedHit :=
  self.relationEngines.entries.flatMap fun (plug, traverse) =>
    ((traverse query).getD []).map fun hit =>
      { hit with sourceKind := .relationEdge, sourcePlug := plug }

/-- `search`, for one order in which the plugs complete. -/
def search (intoValues : List FusedState → List FusedState) (completed : List PlugId) :
    Except InvalidQuery (List RankedHit) :=
  if (trim query.text).isEmpty then .ok []
  else if query.limit = 0 then .error ⟨"limit must be >= 1", "knowledge.search limit=0"⟩
  else if (self.pickSearchPlugs query.mode).isEmpty && query.mode ≠ .relations then .ok []
  else
    let fused := fuseHits intoValues (completed.filterMap (self.answer query))
    let fused :=
      if query.mode = .relations || query.includeRelations then
        mergeByPath fused (self.collectRelationHits query)
      else fused
    .ok (fused.take (max query.limit 1))

end KnowledgeService

/-! ## What is gathered for a path -/

namespace FusedState

def gather (s : FusedState) (cs : List Ranked) : FusedState :=
  cs.foldl (fun s c => s.add c.2 c.1) s

section

variable (s : FusedState)

theorem gather_cons (c : Ranked) (cs : List Ranked) :
    s.gather (c :: cs) = (s.add c.2 c.1).gather cs := rfl

theorem gather_append (cs ds : List Ranked) :
    s.gather (cs ++ ds) = (s.gather cs).gather ds := foldl_append

theorem score_gather (cs : List Ranked) :
    (s.gather cs).score = s.score + (cs.map fun c => contribution c.2).sum := by
  induction cs generalizing s with
  | nil => simp [gather]
  | cons c cs ih =>
    rw [gather_cons, ih, map_cons, sum_cons, ← add_assoc]
    rfl

theorem bestRank_add_le (rank : ℕ) (hit : RankedHit) :
    (s.add rank hit).bestRank ≤ s.bestRank ∧ (s.add rank hit).bestRank ≤ rank := by
  show (if rank < s.bestRank then rank else s.bestRank) ≤ s.bestRank ∧
    (if rank < s.bestRank then rank else s.bestRank) ≤ rank
  split_ifs with h <;> omega

theorem bestRank_gather_le (cs : List Ranked) :
    (s.gather cs).bestRank ≤ s.bestRank ∧ ∀ c ∈ cs, (s.gather cs).bestRank ≤ c.2 := by
  induction cs generalizing s with
  | nil => exact ⟨le_rfl, by simp⟩
  | cons c cs ih =>
    obtain ⟨hstart, hrest⟩ := ih (s.add c.2 c.1)
    obtain ⟨hs, hc⟩ := bestRank_add_le s c.2 c.1
    exact ⟨hstart.trans hs, forall_mem_cons.2 ⟨hstart.trans hc, hrest⟩⟩

theorem mem_gather (cs : List Ranked) :
    ((s.gather cs).hit, (s.gather cs).bestRank) = (s.hit, s.bestRank) ∨
      ((s.gather cs).hit, (s.gather cs).bestRank) ∈ cs := by
  induction cs generalizing s with
  | nil => exact .inl rfl
  | cons c cs ih =>
    have hadd : ((s.add c.2 c.1).hit, (s.add c.2 c.1).bestRank) = (s.hit, s.bestRank) ∨
        ((s.add c.2 c.1).hit, (s.add c.2 c.1).bestRank) = c := by
      unfold add
      dsimp only
      split_ifs
      · exact .inr rfl
      · exact .inl rfl
    rw [gather_cons, mem_cons]
    rcases ih (s.add c.2 c.1) with h | h
    · rw [h]
      exact hadd.imp_right .inl
    · exact .inr (.inr h)

end

theorem hit_gather {s : FusedState} {cs : List Ranked} (h : ∀ c ∈ cs, s.bestRank ≤ c.2) :
    (s.gather cs).hit = s.hit := by
  induction cs generalizing s with
  | nil => rfl
  | cons c cs ih =>
    have hc : ¬c.2 < s.bestRank := not_lt.2 (h c mem_cons_self)
    have hbest : (s.add c.2 c.1).bestRank = s.bestRank := if_neg hc
    rw [gather_cons, ih fun d hd => hbest ▸ h d (mem_cons_of_mem c hd)]
    exact if_neg hc

end FusedState

/-- What the map holds for a path after the hits `cs` of that path. -/
def combine : List Ranked → Option FusedState
  | [] => none
  | c :: cs => some ((FusedState.start c.2 c.1).gather (c :: cs))

variable {cs : List Ranked}

theorem combine_eq_none : combine cs = none ↔ cs = [] := by
  cases cs with
  | nil => exact iff_of_true rfl rfl
  | cons c cs => exact iff_of_false nofun nofun

variable {s : FusedState}

theorem combine_append {cs ds : List Ranked} (h : combine cs = some s) :
    combine (cs ++ ds) = some (s.gather ds) := by
  cases cs with
  | nil => cases h
  | cons c cs =>
    obtain rfl := some.inj h
    rw [cons_append, combine, ← cons_append, FusedState.gather_append]

theorem score_combine (h : combine cs = some s) :
    s.score = (cs.map fun c => contribution c.2).sum := by
  cases cs with
  | nil => cases h
  | cons c cs =>
    obtain rfl := some.inj h
    rw [FusedState.score_gather]
    exact zero_add _

theorem mem_combine (h : combine cs = some s) :
    (s.hit, s.bestRank) ∈ cs ∧ ∀ c ∈ cs, s.bestRank ≤ c.2 := by
  cases cs with
  | nil => cases h
  | cons c cs =>
    obtain rfl := some.inj h
    refine ⟨?_, (FusedState.bestRank_gather_le _ _).2⟩
    rcases FusedState.mem_gather (.start c.2 c.1) (c :: cs) with h | h
    · rw [h]
      exact mem_cons_self
    · exact h

/-! ## What the map holds -/

def ofPath (cs : List Ranked) (path : String) : List Ranked := cs.filter fun c => c.1.path = path

theorem path_of_mem_ofPath {path : String} {c : Ranked}
    (h : c ∈ ofPath cs path) : c.1.path = path := by
  simpa using (List.mem_filter.1 h).2

theorem ofPath_append (cs ds : List Ranked) (path : String) :
    ofPath (cs ++ ds) path = ofPath cs path ++ ofPath ds path := filter_append ..

theorem ofPath_singleton (c : Ranked) (path : String) :
    ofPath [c] path = if c.1.path = path then [c] else [] := by
  rw [ofPath, filter_singleton]
  simp

theorem get_fuseHit (fused : Table FusedState.path) (c : Ranked) (path : String) :
    (fuseHit fused c).get path = if c.1.path = path then
        some (((fused.get path).getD (.start c.2 c.1)).add c.2 c.1)
      else fused.get path := by
  have hkey : (((fused.get c.1.path).getD (.start c.2 c.1)).add c.2 c.1).path = c.1.path := by
    have hold : ((fused.get c.1.path).getD (.start c.2 c.1)).path = c.1.path := by
      cases h : fused.get c.1.path with
      | none => rfl
      | some s => exact Table.key_of_get h
    unfold FusedState.add FusedState.path
    dsimp only
    split_ifs
    · rfl
    · exact hold
  unfold fuseHit
  dsimp only
  rw [Table.get_upsert, hkey]
  split_ifs with h
  · rw [h]
  · rfl

theorem get_foldl_fuseHit (cs : List Ranked) (path : String) :
    (cs.foldl fuseHit Table.empty).get path = combine (ofPath cs path) := by
  induction cs using List.reverseRecOn with
  | nil => rfl
  | append_singleton cs c ih =>
    rw [foldl_concat, get_fuseHit, ih, ofPath_append, ofPath_singleton]
    split_ifs with h
    · cases hcs : combine (ofPath cs path) with
      | none =>
        rw [combine_eq_none.1 hcs]
        rfl
      | some s =>
        rw [combine_append hcs]
        rfl
    · rw [append_nil]

/-! ## The ranking of the paths -/

section

variable (perPlug : List (List RankedHit))

def fusedScore (path : String) : ℚ :=
  ((ofPath (ranked perPlug) path).map fun c => contribution c.2).sum

def rankKey (score : ℚ) (path : String) : ℚᵒᵈ ×ₗ String := toLex (OrderDual.toDual score, path)

def ranking : List String :=
  sortBy (fun a b => compare (rankKey (fusedScore perPlug a) a) (rankKey (fusedScore perPlug b) b))
    ((ranked perPlug).map fun c => c.1.path).dedup

/-- The best ranked hit of the page. -/
def Best (path : String) (c : Ranked) : Prop :=
  c ∈ ranked perPlug ∧ c.1.path = path ∧ ∀ d ∈ ranked perPlug, d.1.path = path → c.2 ≤ d.2

def fusedRow (path : String) : Option RankedHit :=
  (combine (ofPath (ranked perPlug) path)).map FusedState.row

theorem rankKey_injective {a b : String} {x y : ℚ} (h : rankKey x a = rankKey y b) : a = b :=
  (Prod.ext_iff.1 (toLex.injective h)).2

theorem mem_ranking {path : String} :
    path ∈ ranking perPlug ↔ ∃ row, fusedRow perPlug path = some row := by
  rw [ranking, mem_sortBy, mem_dedup, fusedRow, ← isSome_iff_exists,
    isSome_map, isSome_iff_ne_none, Ne, combine_eq_none, ofPath,
    filter_eq_nil_iff]
  simp [List.mem_map]

theorem of_fusedRow {path : String} {row : RankedHit} (h : fusedRow perPlug path = some row) :
    row.path = path ∧ row.score = fusedScore perPlug path ∧
      ∃ c, Best perPlug path c ∧ row = { c.1 with score := row.score } := by
  obtain ⟨s, hs, rfl⟩ := map_eq_some_iff.1 h
  obtain ⟨hmem, hmin⟩ := mem_combine hs
  have hpath : s.hit.path = path := path_of_mem_ofPath hmem
  refine ⟨hpath, score_combine hs, (s.hit, s.bestRank), ⟨mem_of_mem_filter hmem, hpath,
    fun d hd hdpath => hmin d (List.mem_filter.2 ⟨hd, by simpa using hdpath⟩)⟩, rfl⟩

theorem hitOrder_eq (a b : RankedHit) :
    hitOrder a b = compare (rankKey a.score a.path) (rankKey b.score b.path) := by
  rw [Prod.Lex.compare_def]
  rfl

theorem ranking_pairwise : (ranking perPlug).Pairwise fun a b =>
    rankKey (fusedScore perPlug a) a < rankKey (fusedScore perPlug b) b :=
  sortBy_pairwise_lt (fun _ _ => rfl)
    ((nodup_dedup _).map_on fun _ _ _ _ h => rankKey_injective h)

variable {perPlug}

theorem fuseHits_of_two (hlen : 2 ≤ perPlug.length) {intoValues : List FusedState → List FusedState}
    (hvalues : ∀ l, (intoValues l).Perm l) :
    fuseHits intoValues perPlug = (ranking perPlug).filterMap (fusedRow perPlug) := by
  have hunfold : fuseHits intoValues perPlug = sortBy hitOrder
      ((intoValues ((ranked perPlug).foldl fuseHit Table.empty).rows).map FusedState.row) := by
    rcases perPlug with _ | ⟨a, _ | ⟨b, perPlug⟩⟩
    · simp at hlen
    · simp at hlen
    · rfl
  have hmem : ∀ row, row ∈ fuseHits intoValues perPlug ↔ fusedRow perPlug row.path = some row := by
    intro row
    rw [hunfold, mem_sortBy, ((hvalues _).map _).mem_iff, List.mem_map, fusedRow, map_eq_some_iff]
    refine exists_congr fun s => and_congr_left ?_
    rintro rfl
    rw [← get_foldl_fuseHit, Table.get_eq_some]
    exact ⟨fun hs => ⟨hs, rfl⟩, fun hs => hs.1⟩
  rw [hunfold] at hmem ⊢
  refine eq_of_pairwise_lt (sortBy_pairwise_lt hitOrder_eq ?_) ?_ fun row => ?_
  · have hnodup := ((hvalues _).map FusedState.path).nodup_iff.2
      ((ranked perPlug).foldl fuseHit Table.empty).nodup
    rw [List.map_map]
    refine Nodup.map_on (fun s hs s' hs' hkey => ?_) (hnodup.of_map _)
    exact inj_on_of_nodup_map hnodup hs hs' (rankKey_injective hkey)
  · refine (ranking_pairwise perPlug).filterMap _ fun a a' hlt row hrow row' hrow' => ?_
    obtain ⟨hpath, hscore, -⟩ := of_fusedRow perPlug hrow
    obtain ⟨hpath', hscore', -⟩ := of_fusedRow perPlug hrow'
    rw [hpath, hscore, hpath', hscore']
    exact hlt
  · rw [hmem, mem_filterMap]
    constructor
    · exact fun h => ⟨row.path, (mem_ranking perPlug).2 ⟨row, h⟩, h⟩
    · rintro ⟨path, -, h⟩
      rw [(of_fusedRow perPlug h).1]
      exact h

end

/-! ## Lists in another order -/

section

variable {perPlug perPlug' : List (List RankedHit)} {path : String}

theorem ranked_perm (h : perPlug.Perm perPlug') : (ranked perPlug).Perm (ranked perPlug') :=
  h.flatMap_right _

theorem fusedScore_perm (h : perPlug.Perm perPlug') :
    fusedScore perPlug path = fusedScore perPlug' path :=
  (((ranked_perm h).filter _).map _).sum_eq

theorem ranking_perm (h : perPlug.Perm perPlug') : ranking perPlug = ranking perPlug' := by
  have hscore : fusedScore perPlug = fusedScore perPlug' := funext fun _ => fusedScore_perm h
  unfold ranking
  rw [hscore]
  exact sortBy_eq_of_perm (fun _ _ => rfl)
    ((nodup_dedup _).map_on fun _ _ _ _ h => rankKey_injective h)
    ((ranked_perm h).map _).dedup

theorem Best.perm {c : Ranked} (hbest : Best perPlug path c) (h : perPlug.Perm perPlug') :
    Best perPlug' path c :=
  ⟨(ranked_perm h).mem_iff.1 hbest.1, hbest.2.1,
    fun d hd => hbest.2.2 d ((ranked_perm h).mem_iff.2 hd)⟩

end

def KnowledgeHit.unscored (hit : RankedHit) : RankedHit := { hit with score := 0 }

/-- The hits of the best rank agree, for each path among the first `limit`. -/
def Settled (perPlug : List (List RankedHit)) (limit : ℕ) : Prop :=
  ∀ path ∈ (ranking perPlug).take limit, ∀ c c', Best perPlug path c → Best perPlug path c' →
    c.1.unscored = c'.1.unscored

theorem fusedRow_eq {perPlug perPlug' : List (List RankedHit)} {limit : ℕ}
    (hsettled : Settled perPlug limit) (h : perPlug.Perm perPlug') {path : String}
    (hpath : path ∈ (ranking perPlug).take limit) :
    fusedRow perPlug path = fusedRow perPlug' path := by
  have hmem := mem_of_mem_take hpath
  obtain ⟨row, hrow⟩ := (mem_ranking perPlug).1 hmem
  obtain ⟨row', hrow'⟩ := (mem_ranking perPlug').1 (ranking_perm h ▸ hmem)
  obtain ⟨-, hscore, c, hc, heq⟩ := of_fusedRow perPlug hrow
  obtain ⟨-, hscore', c', hc', heq'⟩ := of_fusedRow perPlug' hrow'
  have hhit := hsettled path hpath c c' hc (hc'.perm h.symm)
  have hscores : row.score = row'.score := by rw [hscore, hscore', fusedScore_perm h]
  have hrows : row = row' := by
    calc row = { c.1.unscored with score := row.score } := heq
      _ = { c'.1.unscored with score := row'.score } := by rw [hhit, hscores]
      _ = row' := heq'.symm
  rw [hrow, hrow', hrows]

theorem take_filterMap {α β : Type*} {f : α → Option β} {l : List α}
    (h : ∀ a ∈ l, ∃ b, f a = some b) (n : ℕ) : (l.filterMap f).take n = (l.take n).filterMap f := by
  induction l generalizing n with
  | nil => simp
  | cons a l ih =>
    obtain ⟨b, hb⟩ := h a mem_cons_self
    cases n with
    | zero => rfl
    | succ n =>
      rw [filterMap_cons_some hb, take_succ_cons, take_succ_cons,
        filterMap_cons_some hb, ih fun a ha => h a (mem_cons_of_mem _ ha)]

theorem eq_of_filterMap_eq {α β : Type*} {f g : α → Option β} {l : List α}
    (hf : ∀ a ∈ l, ∃ b, f a = some b) (hg : ∀ a ∈ l, ∃ b, g a = some b)
    (h : l.filterMap f = l.filterMap g) : ∀ a ∈ l, f a = g a := by
  induction l with
  | nil => simp
  | cons a l ih =>
    obtain ⟨b, hb⟩ := hf a mem_cons_self
    obtain ⟨c, hc⟩ := hg a mem_cons_self
    rw [filterMap_cons_some hb, filterMap_cons_some hc, cons.injEq] at h
    refine forall_mem_cons.2 ⟨by rw [hb, hc, h.1], ih ?_ ?_ h.2⟩
    · exact fun a ha => hf a (mem_cons_of_mem _ ha)
    · exact fun a ha => hg a (mem_cons_of_mem _ ha)

variable {perPlug : List (List RankedHit)}

theorem exists_fusedRow :
    ∀ path ∈ ranking perPlug, ∃ row, fusedRow perPlug path = some row := fun _ h =>
  (mem_ranking perPlug).1 h

variable {intoValues : List FusedState → List FusedState}

theorem take_fuseHits_of_two (hlen : 2 ≤ perPlug.length) (hvalues : ∀ l, (intoValues l).Perm l)
    (n : ℕ) : (fuseHits intoValues perPlug).take n =
      ((ranking perPlug).take n).filterMap (fusedRow perPlug) := by
  rw [fuseHits_of_two hlen hvalues, take_filterMap exists_fusedRow]

theorem map_path_fuseHits_of_two (hlen : 2 ≤ perPlug.length)
    (hvalues : ∀ l, (intoValues l).Perm l) :
    (fuseHits intoValues perPlug).map KnowledgeHit.path = ranking perPlug := by
  rw [fuseHits_of_two hlen hvalues]
  have hrow : ∀ l : List String, (∀ path ∈ l, ∃ row, fusedRow perPlug path = some row) →
      (l.filterMap (fusedRow perPlug)).map KnowledgeHit.path = l := by
    intro l
    induction l with
    | nil => simp
    | cons path l ih =>
      intro h
      obtain ⟨row, hrow⟩ := h path mem_cons_self
      rw [filterMap_cons_some hrow, map_cons, (of_fusedRow perPlug hrow).1,
        ih fun path hpath => h path (mem_cons_of_mem _ hpath)]
  exact hrow _ exists_fusedRow

/-! ## Duplicates and additions -/

theorem nodup_dedupStep {kept : List RankedHit} (h : (kept.map KnowledgeHit.path).Nodup)
    (hit : RankedHit) : ((dedupStep kept hit).map KnowledgeHit.path).Nodup := by
  unfold dedupStep
  split
  · rename_i prev hprev
    obtain ⟨hlt, hpath, -⟩ := findIdx?_eq_some_iff_getElem.1 hprev
    split
    · split_ifs
      · have hlt' : prev < (kept.map KnowledgeHit.path).length := by rwa [List.length_map]
        have hsame : (kept.map KnowledgeHit.path)[prev] = hit.path := by
          rw [getElem_map]
          exact of_decide_eq_true hpath
        rw [map_set, ← hsame, set_getElem_self]
        exact h
      · exact h
    · exact h
  · rename_i hnone
    rw [map_append, map_singleton]
    refine h.append (nodup_singleton _) ?_
    rw [disjoint_singleton, List.mem_map]
    rintro ⟨old, hold, hpath⟩
    simpa [hpath] using findIdx?_eq_none_iff.1 hnone old hold

theorem nodup_dedupByPath (hits : List RankedHit) :
    ((dedupByPath hits).map KnowledgeHit.path).Nodup := by
  have hfold : ∀ (hits kept : List RankedHit), (kept.map KnowledgeHit.path).Nodup →
      ((hits.foldl dedupStep kept).map KnowledgeHit.path).Nodup := by
    intro hits
    induction hits with
    | nil => exact fun kept h => h
    | cons hit hits ih => exact fun kept h => ih _ (nodup_dedupStep h hit)
  exact hfold hits [] nodup_nil

theorem nodup_fuseHits (perPlug : List (List RankedHit)) (hvalues : ∀ l, (intoValues l).Perm l) :
    ((fuseHits intoValues perPlug).map KnowledgeHit.path).Nodup := by
  match perPlug with
  | [] => exact nodup_nil
  | [hits] => exact nodup_dedupByPath hits
  | a :: b :: perPlug =>
    rw [map_path_fuseHits_of_two (by simp) hvalues]
    exact (ranking_pairwise _).imp fun h heq => h.ne (by rw [heq])

/-- The hits that `merge_by_path` adds to hits with the paths `seen`. -/
def newHits (seen : List String) : List RankedHit → List RankedHit
  | [] => []
  | add :: additions =>
    if add.path ∈ seen then newHits seen additions
    else add :: newHits (seen ++ [add.path]) additions

theorem mergeByPath_eq (primary additions : List RankedHit) : mergeByPath primary additions =
      primary ++ newHits (primary.map KnowledgeHit.path) additions := by
  induction additions generalizing primary with
  | nil => exact (append_nil _).symm
  | cons add additions ih =>
    have hfold : mergeByPath primary (add :: additions) =
        mergeByPath (if add.path ∈ primary.map KnowledgeHit.path then primary
          else primary ++ [add]) additions := rfl
    rw [hfold, ih, newHits]
    split_ifs
    · rfl
    · rw [map_append, map_singleton, List.append_assoc, singleton_append]

theorem nodup_mergeByPath {primary : List RankedHit}
    (h : (primary.map KnowledgeHit.path).Nodup) (additions : List RankedHit) :
    ((mergeByPath primary additions).map KnowledgeHit.path).Nodup := by
  induction additions generalizing primary with
  | nil => exact h
  | cons add additions ih =>
    refine ih ?_
    dsimp only
    split_ifs with hseen
    · exact h
    · rw [map_append, map_singleton]
      exact h.append (nodup_singleton _) (by simpa using hseen)

/-! ## The search -/

namespace KnowledgeService

variable (self : KnowledgeService) (query : ServiceQuery)

def answers : List (List RankedHit) :=
  (self.pickSearchPlugs query.mode).filterMap (self.answer query)

variable {self query} {hits : List RankedHit}

theorem nodup_of_search {intoValues : List FusedState → List FusedState}
    (hvalues : ∀ l, (intoValues l).Perm l) {completed : List PlugId}
    (h : self.search query intoValues completed = .ok hits) :
    (hits.map KnowledgeHit.path).Nodup := by
  unfold search at h
  split_ifs at h
  · cases h
    exact nodup_nil
  · cases h
    exact nodup_nil
  · obtain rfl := ok.inj h
    rw [map_take]
    exact (nodup_mergeByPath (nodup_fuseHits _ hvalues) _).sublist (take_sublist _ _)
  · obtain rfl := ok.inj h
    rw [map_take]
    exact (nodup_fuseHits _ hvalues).sublist (take_sublist _ _)

variable {completed completed' : List PlugId}

variable {intoValues intoValues' : List FusedState → List FusedState}

theorem search_congr (hpaths : (fuseHits intoValues (completed.filterMap (self.answer query))).map
        KnowledgeHit.path =
      (fuseHits intoValues' (completed'.filterMap (self.answer query))).map KnowledgeHit.path)
    (htake : (fuseHits intoValues (completed.filterMap (self.answer query))).take
        (max query.limit 1) = (fuseHits intoValues' (completed'.filterMap (self.answer query))).take
        (max query.limit 1)) :
    self.search query intoValues completed = self.search query intoValues' completed' := by
  have hlen := congrArg List.length hpaths
  rw [List.length_map, List.length_map] at hlen
  unfold search
  split_ifs
  · rfl
  · rfl
  · rfl
  · dsimp only
    rw [mergeByPath_eq, mergeByPath_eq, take_append, take_append, htake, hlen, hpaths]
  · dsimp only
    rw [htake]

theorem answers_perm {completed : List PlugId}
    (h : completed.Perm (self.pickSearchPlugs query.mode)) :
    (completed.filterMap (self.answer query)).Perm (self.answers query) := h.filterMap _

theorem search_of_settled (hsettled : Settled (self.answers query) (max query.limit 1))
    (hcompleted : completed.Perm (self.pickSearchPlugs query.mode))
    (hcompleted' : completed'.Perm (self.pickSearchPlugs query.mode))
    (hvalues : ∀ l, (intoValues l).Perm l) (hvalues' : ∀ l, (intoValues' l).Perm l) :
    self.search query intoValues completed = self.search query intoValues' completed' := by
  have hperm := answers_perm hcompleted
  have hperm' := answers_perm hcompleted'
  by_cases hlen : 2 ≤ (self.answers query).length
  · have hlen₁ := hperm.length_eq.symm ▸ hlen
    have hlen₂ := hperm'.length_eq.symm ▸ hlen
    refine search_congr ?_ ?_
    · rw [map_path_fuseHits_of_two hlen₁ hvalues, map_path_fuseHits_of_two hlen₂ hvalues',
        ranking_perm hperm, ranking_perm hperm']
    · rw [take_fuseHits_of_two hlen₁ hvalues, take_fuseHits_of_two hlen₂ hvalues',
        ranking_perm hperm, ranking_perm hperm']
      refine filterMap_congr fun path hpath => ?_
      rw [← fusedRow_eq hsettled hperm.symm hpath, ← fusedRow_eq hsettled hperm'.symm hpath]
  · -- one list at most, which is not fused
    have hsame : ∀ perPlug, perPlug.Perm (self.answers query) → perPlug = self.answers query := by
      intro perPlug h
      rcases hanswers : self.answers query with _ | ⟨hits, _ | ⟨hits', rest⟩⟩
      · rw [hanswers] at h
        exact h.eq_nil
      · rw [hanswers] at h
        exact perm_singleton.1 h
      · rw [hanswers] at hlen
        simp at hlen
    have hfused : fuseHits intoValues (self.answers query) =
        fuseHits intoValues' (self.answers query) := by
      rcases hanswers : self.answers query with _ | ⟨hits, _ | ⟨hits', rest⟩⟩
      · rfl
      · rfl
      · rw [hanswers] at hlen
        simp at hlen
    refine search_congr ?_ ?_
    · rw [hsame _ hperm, hsame _ hperm', hfused]
    · rw [hsame _ hperm, hsame _ hperm', hfused]

theorem fusedRow_of_first {rest : List (List RankedHit)} {path : String}
    {c : Ranked} (hbest : Best (hits :: rest) path c) (hc : c ∈ hits.zipIdx) :
    ∃ row, fusedRow (hits :: rest) path = some row ∧ row.unscored = c.1.unscored := by
  have hsplit : ofPath (ranked (hits :: rest)) path =
      ofPath hits.zipIdx path ++ ofPath (ranked rest) path := by
    rw [← ofPath_append]
    rfl
  have hcpath : c ∈ ofPath hits.zipIdx path := List.mem_filter.2 ⟨hc, by simpa using hbest.2.1⟩
  obtain ⟨s, hs⟩ : ∃ s, combine (ofPath hits.zipIdx path) = some s := by
    rw [← isSome_iff_exists, isSome_iff_ne_none, Ne, combine_eq_none]
    exact ne_nil_of_mem hcpath
  obtain ⟨hmem, hmin⟩ := mem_combine hs
  have hin : ∀ d ∈ ofPath hits.zipIdx path, d ∈ ranked (hits :: rest) := fun d hd =>
    mem_append_left _ (mem_of_mem_filter hd)
  have hrank : s.bestRank = c.2 := by
    refine le_antisymm (hmin c hcpath) ?_
    exact hbest.2.2 _ (hin _ hmem) (path_of_mem_ofPath hmem)
  have hhit : s.hit = c.1 := by
    have hs' := mem_zipIdx_iff_getElem?.1 (mem_of_mem_filter hmem)
    have hc' := mem_zipIdx_iff_getElem?.1 hc
    dsimp only at hs' hc'
    rw [hrank, hc'] at hs'
    exact (some.inj hs').symm
  have hstays : (s.gather (ofPath (ranked rest) path)).hit = s.hit := by
    refine FusedState.hit_gather fun d hd => ?_
    rw [hrank]
    exact hbest.2.2 d (mem_append_right _ (mem_of_mem_filter hd)) (path_of_mem_ofPath hd)
  refine ⟨(s.gather (ofPath (ranked rest) path)).row, ?_, ?_⟩
  · rw [fusedRow, hsplit, combine_append hs]
    rfl
  · rw [← hhit, ← hstays]
    rfl

theorem exists_first {path : String} {c : Ranked} (hbest : Best (self.answers query) path c) :
    ∃ plug ∈ self.pickSearchPlugs query.mode, ∃ hits, self.answer query plug = some hits ∧
      c ∈ hits.zipIdx := by
  obtain ⟨hits, hhits, hc⟩ := mem_flatMap.1 hbest.1
  obtain ⟨plug, hplug, hanswer⟩ := mem_filterMap.1 hhits
  exact ⟨plug, hplug, hits, hanswer, hc⟩

def firstDone (self : KnowledgeService) (query : ServiceQuery) (plug : PlugId) : List PlugId :=
  plug :: (self.pickSearchPlugs query.mode).erase plug

theorem firstDone_perm {plug : PlugId} (h : plug ∈ self.pickSearchPlugs query.mode) :
    (self.firstDone query plug).Perm (self.pickSearchPlugs query.mode) :=
  (perm_cons_erase h).symm

theorem fused_of_search_eq (htext : ¬(trim query.text).isEmpty) (hlimit : query.limit ≠ 0)
    (hpicks : self.pickSearchPlugs query.mode ≠ [])
    (hpaths : (fuseHits id (completed.filterMap (self.answer query))).map KnowledgeHit.path =
      (fuseHits id (completed'.filterMap (self.answer query))).map KnowledgeHit.path)
    (h : self.search query id completed = self.search query id completed') :
    (fuseHits id (completed.filterMap (self.answer query))).take (max query.limit 1) =
      (fuseHits id (completed'.filterMap (self.answer query))).take (max query.limit 1) := by
  have hlen := congrArg List.length hpaths
  rw [List.length_map, List.length_map] at hlen
  have hsome : ¬((self.pickSearchPlugs query.mode).isEmpty && query.mode ≠ .relations) = true := by
    rw [List.isEmpty_eq_false_iff.2 hpicks, Bool.false_and]
    exact Bool.false_ne_true
  unfold search at h
  rw [if_neg htext, if_neg hlimit, if_neg hsome, if_neg htext, if_neg hlimit, if_neg hsome] at h
  dsimp only at h
  split_ifs at h
  · have happend := ok.inj h
    rw [mergeByPath_eq, mergeByPath_eq, take_append, take_append] at happend
    exact append_inj_left happend (by rw [length_take, length_take, hlen])
  · exact ok.inj h

theorem settled_of_agree (htext : ¬(trim query.text).isEmpty) (hlimit : query.limit ≠ 0)
    (hagree : ∀ completed completed', completed.Perm (self.pickSearchPlugs query.mode) →
      completed'.Perm (self.pickSearchPlugs query.mode) →
      self.search query id completed = self.search query id completed') :
    Settled (self.answers query) (max query.limit 1) := by
  intro path hpath c c' hbest hbest'
  obtain ⟨plug, hplug, hits, hanswer, hc⟩ := exists_first hbest
  obtain ⟨plug', hplug', hits', hanswer', hc'⟩ := exists_first hbest'
  by_cases hsame : plug = plug'
  · -- one list has one hit of a rank
    subst hsame
    obtain rfl : hits = hits' := mem_unique hanswer hanswer'
    have hrank : c.2 = c'.2 := le_antisymm (hbest.2.2 c' hbest'.1 hbest'.2.1)
      (hbest'.2.2 c hbest.1 hbest.2.1)
    have hfirst := mem_zipIdx_iff_getElem?.1 hc
    have hsecond := mem_zipIdx_iff_getElem?.1 hc'
    rw [hrank, hsecond] at hfirst
    exact congrArg _ (some.inj hfirst).symm
  · have hdone : ∀ {p p' : PlugId} {l l' : List RankedHit}, p' ∈ self.pickSearchPlugs query.mode →
        p ≠ p' → self.answer query p = some l → self.answer query p' = some l' →
        ∃ rest, (self.firstDone query p).filterMap (self.answer query) = l :: rest ∧
          2 ≤ ((self.firstDone query p).filterMap (self.answer query)).length := by
      intro p p' l l' hp' hne hl hl'
      have hmem : l' ∈ ((self.pickSearchPlugs query.mode).erase p).filterMap (self.answer query) :=
        mem_filterMap.2 ⟨p', (mem_erase_of_ne hne.symm).2 hp', hl'⟩
      have hpos := length_pos_of_mem hmem
      refine ⟨_, filterMap_cons_some hl, ?_⟩
      rw [firstDone, filterMap_cons_some hl, length_cons]
      omega
    obtain ⟨rest, hrest, hlen⟩ := hdone hplug' hsame hanswer hanswer'
    obtain ⟨rest', hrest', hlen'⟩ := hdone hplug (Ne.symm hsame) hanswer' hanswer
    have hperm := answers_perm (firstDone_perm hplug)
    have hperm' := answers_perm (firstDone_perm hplug')
    have hid : ∀ l : List FusedState, (id l).Perm l := List.Perm.refl
    have hpaths : (fuseHits id ((self.firstDone query plug).filterMap (self.answer query))).map
        KnowledgeHit.path =
      (fuseHits id ((self.firstDone query plug').filterMap (self.answer query))).map
        KnowledgeHit.path := by
      rw [map_path_fuseHits_of_two hlen hid, map_path_fuseHits_of_two hlen' hid,
        ranking_perm hperm, ranking_perm hperm']
    have htake := fused_of_search_eq htext hlimit (ne_nil_of_mem hplug) hpaths
      (hagree _ _ (firstDone_perm hplug) (firstDone_perm hplug'))
    rw [take_fuseHits_of_two hlen hid, take_fuseHits_of_two hlen' hid, ranking_perm hperm,
      ranking_perm hperm'] at htake
    have hrow := eq_of_filterMap_eq
      (fun p hp => exists_fusedRow p (ranking_perm hperm ▸ mem_of_mem_take hp))
      (fun p hp => exists_fusedRow p (ranking_perm hperm' ▸ mem_of_mem_take hp)) htake path hpath
    obtain ⟨row, hfused, hunscored⟩ := fusedRow_of_first (hrest ▸ hbest.perm hperm.symm) hc
    obtain ⟨row', hfused', hunscored'⟩ := fusedRow_of_first (hrest' ▸ hbest'.perm hperm'.symm) hc'
    rw [hrest, hrest', hfused, hfused'] at hrow
    rw [← hunscored, ← hunscored', some.inj hrow]

/-- The search gives the same hits in every order of completion, each path once, exactly when the
plugs agree on the hit of the best rank of every path shown. -/
theorem search_agrees_iff (self : KnowledgeService) (query : ServiceQuery) :
    ((∀ completed completed' intoValues intoValues',
        completed.Perm (self.pickSearchPlugs query.mode) →
        completed'.Perm (self.pickSearchPlugs query.mode) →
        (∀ l, (intoValues l).Perm l) → (∀ l, (intoValues' l).Perm l) →
        self.search query intoValues completed = self.search query intoValues' completed') ∧
      ∀ completed intoValues hits, (∀ l, (intoValues l).Perm l) →
        self.search query intoValues completed = .ok hits → (hits.map KnowledgeHit.path).Nodup) ↔
      ((trim query.text).isEmpty = true ∨ query.limit = 0 ∨
        Settled (self.answers query) query.limit) := by
  constructor
  · rintro ⟨hagree, -⟩
    by_cases htext : (trim query.text).isEmpty
    · exact .inl htext
    · by_cases hlimit : query.limit = 0
      · exact .inr (.inl hlimit)
      · rw [← max_eq_left (Nat.one_le_iff_ne_zero.2 hlimit)]
        refine .inr (.inr (settled_of_agree htext hlimit fun completed completed' h h' => ?_))
        exact hagree completed completed' id id h h' (fun _ => .refl _) fun _ => .refl _
  · intro hcondition
    refine ⟨fun completed completed' intoValues intoValues' h h' hvalues hvalues' => ?_,
      fun completed intoValues hits hvalues h => nodup_of_search hvalues h⟩
    rcases hcondition with htext | hlimit | hsettled
    · unfold search
      rw [if_pos htext, if_pos htext]
    · unfold search
      rw [if_pos hlimit, if_pos hlimit]
    · by_cases hlimit : query.limit = 0
      · unfold search
        rw [if_pos hlimit, if_pos hlimit]
      · rw [← max_eq_left (Nat.one_le_iff_ne_zero.2 hlimit)] at hsettled
        exact search_of_settled hsettled h h' hvalues hvalues'

/-! ### Two plugs that answer with one page -/

def sampleHit (snippet : String) : RankedHit :=
  ⟨"notes/boot", none, snippet, 1, snippet, .searchIndex⟩

def sampleService : KnowledgeService where
  indexes := (OrdMap.empty.insert "keyword" ⟨.keyword, fun _ => some [sampleHit "keyword"]⟩).insert
    "semantic" ⟨.semantic, fun _ => some [sampleHit "semantic"]⟩
  relationEngines := OrdMap.empty

def snippets (result : Except InvalidQuery (List RankedHit)) : List String :=
  match result with
  | .ok hits => hits.map KnowledgeHit.snippet
  | .error _ => []

theorem sampleService_disagrees :
    ∃ completed completed', completed.Perm (sampleService.pickSearchPlugs .hybrid) ∧
      completed'.Perm (sampleService.pickSearchPlugs .hybrid) ∧
      sampleService.search ⟨⟨"boot", 10⟩, .hybrid, false⟩ id completed ≠
        sampleService.search ⟨⟨"boot", 10⟩, .hybrid, false⟩ id completed' := by
  refine ⟨["keyword", "semantic"], ["semantic", "keyword"], by decide, by decide, fun h => ?_⟩
  exact absurd (congrArg snippets h) (by decide)

end KnowledgeService

end Gadgetron.Knowledge
