import Gadgetron.Nodes.Capacity

/-!
# Eviction

`evict_and_free` on its own stops the least recently used models of a node and no more than it
takes, but one even where the free memory would be enough.
-/

namespace Gadgetron.Nodes

open Lib List Option

namespace Scheduler

variable (self : Scheduler)

/-- What a call of `evict_and_free` answers, its calls of `stop_model`, and the scheduler after it.
-/
structure Evicted where
  result : Except GadgetronError String
  stopCalls : List (String × String)
  scheduler : Scheduler

/-- `evict_and_free`; the answers of `stop_model` are ignored. -/
def evictAndFree (values : List ModelDeployment) (requiredMb : UInt64) : Evicted :=
  match self.collectEvictions values requiredMb with
  | none =>
    ⟨.error (.routing s!"no node can free {requiredMb} MB VRAM even after LRU eviction"), [], self⟩
  | some (node, taken) =>
    ⟨.ok node, if node ∈ self.agents then taken.map fun id => (node, id) else [],
      self.markStopped taken⟩

/-! ## The order of eviction -/

/-- The running deployments of the node, the least recently used first. -/
structure IsLru (scheduler : Scheduler) (node : String) (lru : List ModelDeployment) : Prop where
  sorted : lru.Pairwise fun a b => a.lastUsed ≤ b.lastUsed
  perm : lru.Perm (scheduler.deployments.rows.filter fun d => d.assignedNode = node ∧ d.isAvailable)

variable {self} {values : List ModelDeployment} {requiredMb : UInt64} {node : String}

theorem isLru_candidates (hvalues : values.Perm self.deployments.rows) (node : String) :
    self.IsLru node (candidates values node) where
  sorted := sortBy_pairwise_le (fun _ _ => rfl) _
  perm := (sortBy_perm _ _).trans (hvalues.filter _)

def freedMb (ds : List ModelDeployment) : ℕ := (ds.map fun d => d.vramRequirementMb.toNat).sum

/-- With these stopped, enough memory is free. -/
def Reaches (status : NodeStatus) (requiredMb : UInt64) (ds : List ModelDeployment) : Prop :=
  requiredMb.toNat ≤ status.availableVramMb.toNat + freedMb ds

/-- The first `count` deployments reach the requirement, and from `least` on no less of them do,
sums of `2 ^ 64` and more apart. -/
structure Shortest (least : ℕ) (status : NodeStatus) (requiredMb : UInt64)
    (lru : List ModelDeployment) (count : ℕ) : Prop where
  count_le : count ≤ lru.length
  reaches : Reaches status requiredMb (lru.take count)
  shortest : ∀ shorter, least ≤ shorter → shorter < count →
    Reaches status requiredMb (lru.take shorter) →
      2 ^ 64 ≤ status.availableVramMb.toNat + freedMb (lru.take shorter)
  of_zero : count = 0 → 0 < least → lru = []

/-- An error changes nothing; otherwise the shortest front part, from `least` deployments on, of
those running on one healthy node is stopped. -/
structure EvictsExactly (least : ℕ) (scheduler : Scheduler) (requiredMb : UInt64)
    (evicted : Evicted) : Prop where
  of_error : ∀ e, evicted.result = .error e → evicted.stopCalls = [] ∧ evicted.scheduler = scheduler
  of_ok : ∀ node, evicted.result = .ok node → ∃ status ∈ scheduler.nodes, status.healthy = true ∧
    status.id = node ∧ ∃ lru count, scheduler.IsLru node lru ∧
      Shortest least status requiredMb lru count ∧
      (∀ id, evicted.scheduler.deployments.get id = (scheduler.deployments.get id).map fun d =>
        if id ∈ (lru.take count).map ModelDeployment.id then { d with status := .stopped } else d) ∧
      evicted.scheduler.nodes = scheduler.nodes ∧ evicted.scheduler.agents = scheduler.agents ∧
      evicted.stopCalls =
        if node ∈ scheduler.agents then (lru.take count).map fun d => (node, d.id) else []

/-! ## The loop over the candidates -/

theorem toNat_sum (ds : List ModelDeployment) :
    (ds.map ModelDeployment.vramRequirementMb).sum.toNat = freedMb ds % 2 ^ 64 := by
  unfold freedMb
  induction ds with
  | nil => rfl
  | cons d ds ih =>
    rw [map_cons, sum_cons, map_cons, sum_cons, UInt64.toNat_add, ih]
    omega

theorem toNat_available_add (status : NodeStatus) (ds : List ModelDeployment) :
    (status.availableVramMb + (ds.map ModelDeployment.vramRequirementMb).sum).toNat =
      (status.availableVramMb.toNat + freedMb ds) % 2 ^ 64 := by
  rw [UInt64.toNat_add, toNat_sum]
  omega

theorem takeCandidates_spec (available requiredMb : UInt64) (cs : List ModelDeployment)
    (freed : UInt64) : ∃ count ≤ cs.length,
      takeCandidates available requiredMb freed cs = ((cs.take count).map ModelDeployment.id,
          freed + ((cs.take count).map ModelDeployment.vramRequirementMb).sum) ∧
      (∀ shorter, 0 < shorter → shorter < count → ¬requiredMb ≤
        available + (freed + ((cs.take shorter).map ModelDeployment.vramRequirementMb).sum)) ∧
      (count = 0 → cs = []) := by
  induction cs generalizing freed with
  | nil => exact ⟨0, le_rfl, by simp [takeCandidates], by omega, fun _ => rfl⟩
  | cons c rest ih =>
    unfold takeCandidates
    dsimp only
    by_cases htest : requiredMb ≤ available + (freed + c.vramRequirementMb)
    · rw [if_pos htest]
      exact ⟨1, by simp, by simp, by omega, by omega⟩
    · rw [if_neg htest]
      obtain ⟨count, hle, htake, hshorter, -⟩ := ih (freed + c.vramRequirementMb)
      refine ⟨count + 1, Nat.succ_le_succ hle, ?_, ?_, by omega⟩
      · rw [htake]
        simp [add_assoc]
      · intro shorter hpos hlt
        obtain ⟨less, rfl⟩ := Nat.exists_eq_succ_of_ne_zero hpos.ne'
        rw [take_succ_cons, map_cons, sum_cons, ← add_assoc freed]
        rcases Nat.eq_zero_or_pos less with rfl | hless
        · simpa [add_assoc] using htest
        · exact hshorter less hless (by omega)

variable {lru : List ModelDeployment} {status : NodeStatus} {taken : List String}

theorem exists_shortest {freed : UInt64}
    (htake : takeCandidates status.availableVramMb requiredMb 0 lru = (taken, freed))
    (henough : requiredMb ≤ status.availableVramMb + freed) :
    ∃ count, Shortest 1 status requiredMb lru count ∧
      taken = (lru.take count).map ModelDeployment.id := by
  obtain ⟨count, hle, hspec, hshorter, hzero⟩ :=
    takeCandidates_spec status.availableVramMb requiredMb lru 0
  rw [htake] at hspec
  obtain ⟨rfl, rfl⟩ := Prod.mk.inj hspec
  rw [zero_add, UInt64.le_iff_toNat_le, toNat_available_add] at henough
  refine ⟨count, ⟨hle, henough.trans (Nat.mod_le _ _), ?_, fun hcount _ => hzero hcount⟩, rfl⟩
  intro shorter hpos hlt hreaches
  have hnot := hshorter shorter hpos hlt
  rw [zero_add, UInt64.le_iff_toNat_le, toNat_available_add] at hnot
  by_contra hsmall
  rw [Nat.mod_eq_of_lt (not_le.1 hsmall)] at hnot
  exact hnot hreaches

theorem of_collectEvictions (h : self.collectEvictions values requiredMb = some (node, taken)) :
    ∃ status ∈ self.nodes, status.healthy = true ∧ status.id = node ∧
      ∃ count, Shortest 1 status requiredMb (candidates values node) count ∧
        taken = ((candidates values node).take count).map ModelDeployment.id := by
  unfold collectEvictions at h
  obtain ⟨status, hmem, h⟩ := exists_of_findSome?_eq_some h
  obtain ⟨hnode, hhealthy⟩ := List.mem_filter.1 hmem
  dsimp only at h
  split_ifs at h with henough
  obtain ⟨rfl, htaken⟩ := Prod.mk.inj (some.inj h)
  obtain ⟨count, hshortest, heq⟩ := exists_shortest rfl henough
  exact ⟨status, hnode, hhealthy, rfl, count, hshortest, htaken ▸ heq⟩

theorem get_deployments_markStopped (ids : List String) (id : String) :
    (self.markStopped ids).deployments.get id = (self.deployments.get id).map fun d =>
      if id ∈ ids then { d with status := .stopped } else d := by
  unfold markStopped
  rw [Table.get_updateWhere]
  cases hget : self.deployments.get id with
  | none => rfl
  | some d =>
    have hid : d.id = id := Table.key_of_get hget
    rw [map_some, map_some, hid]
    simp only [decide_eq_true_eq]

theorem evictsExactly_of_shortest {least : ℕ} (hvalues : values.Perm self.deployments.rows)
    (h : ∀ status ∈ self.nodes, status.healthy = true → ∀ lru count,
      Shortest 1 status requiredMb lru count → Shortest least status requiredMb lru count) :
    EvictsExactly least self requiredMb (self.evictAndFree values requiredMb) := by
  unfold evictAndFree
  cases hplan : self.collectEvictions values requiredMb with
  | none => exact ⟨fun e _ => ⟨rfl, rfl⟩, fun node hnode => by cases hnode⟩
  | some plan =>
    obtain ⟨node, taken⟩ := plan
    obtain ⟨status, hmem, hhealthy, hid, count, hshortest, rfl⟩ := of_collectEvictions hplan
    refine ⟨fun e he => (by cases he), fun target htarget => ?_⟩
    cases htarget
    refine ⟨status, hmem, hhealthy, hid, _, count, isLru_candidates hvalues node,
      h status hmem hhealthy _ count hshortest, get_deployments_markStopped _, rfl, rfl, ?_⟩
    dsimp only
    rw [List.map_map]
    rfl

theorem Shortest.of_findNode_none {count : ℕ}
    (hnone : self.findNodeWithVram requiredMb = none) (hmem : status ∈ self.nodes)
    (hhealthy : status.healthy = true) (h : Shortest 1 status requiredMb lru count) :
    Shortest 0 status requiredMb lru count := by
  have hless : ¬requiredMb ≤ status.availableVramMb := by
    unfold findNodeWithVram at hnone
    have hfind := find?_eq_none.1 (map_eq_none_iff.1 hnone) status
      (List.mem_filter.2 ⟨hmem, hhealthy⟩)
    simpa using hfind
  refine ⟨h.count_le, h.reaches, fun shorter _ hlt hreaches => ?_, fun _ hpos => by omega⟩
  rcases Nat.eq_zero_or_pos shorter with rfl | hpos
  · rw [UInt64.le_iff_toNat_le] at hless
    exact absurd hreaches hless
  · exact h.shortest shorter hpos hlt hreaches

/-! ## Main results -/

/-- An eviction stops the shortest front part that is not empty; with no healthy node that has
enough, as `deploy` calls it, the shortest of all. -/
theorem evictAndFree_exact (hvalues : values.Perm self.deployments.rows) :
    EvictsExactly 1 self requiredMb (self.evictAndFree values requiredMb) ∧
      (self.findNodeWithVram requiredMb = none →
        EvictsExactly 0 self requiredMb (self.evictAndFree values requiredMb)) :=
  ⟨evictsExactly_of_shortest hvalues fun _ _ _ _ _ h => h,
    fun hnone => evictsExactly_of_shortest hvalues fun _ hmem hhealthy _ _ h =>
      h.of_findNode_none hnone hmem hhealthy⟩

/-! ## Two models on one node -/

def evictionNode : NodeStatus := ⟨"node-1", true, [⟨0, 16384, 0⟩]⟩

def oldModel : ModelDeployment :=
  ⟨"model-old", .vllm, .running, "node-1", 30000, 8192, 0, none, -120, 0⟩

def newModel : ModelDeployment :=
  ⟨"model-new", .vllm, .running, "node-1", 30001, 8192, 0, none, -10, 0⟩

def evictionScheduler : Scheduler :=
  ⟨(Table.empty.upsert newModel).upsert oldModel, [evictionNode], []⟩

theorem eviction_exact : EvictsExactly 1 evictionScheduler 8192
      (evictionScheduler.evictAndFree [oldModel, newModel] 8192) :=
  (evictAndFree_exact (by decide)).1

/-- The node has enough free memory, and a model is stopped. -/
theorem eviction_not_shortest : ¬EvictsExactly 0 evictionScheduler 8192
      (evictionScheduler.evictAndFree [oldModel, newModel] 8192) := by
  intro h
  obtain ⟨status, hmem, -, -, lru, count, -, hshortest, hget, -⟩ := h.of_ok "node-1" (by decide)
  cases mem_singleton.1 hmem
  rcases Nat.eq_zero_or_pos count with rfl | hpos
  · have hold := hget "model-old"
    rw [take_zero, map_nil] at hold
    exact absurd hold (by decide)
  · have hfull := hshortest.shortest 0 le_rfl hpos (by
      rw [take_zero]
      show _ ≤ _
      decide)
    rw [take_zero] at hfull
    exact absurd hfull (by decide)

end Scheduler

end Gadgetron.Nodes
