import Gadgetron.Nodes.Eviction

/-!
# What a deployment leaves behind

A successful `deploy` leaves a record with the requested engine and memory, unless there was a
record before; a start that fails leaves it loading.
-/

namespace Gadgetron.Nodes

open Lib

namespace Scheduler

variable (self : Scheduler) (call : DeployCall)

def askedNode : Option String :=
  if self.available call.modelId then none
  else
    match self.placement call.values call.vramMb with
    | .ok (node, _) => if node ∈ self.agents then some node else none
    | .error _ => none

def DeployCall.Requested (call : DeployCall) (record : ModelDeployment) : Prop :=
  record.engine = call.engine ∧ record.vramRequirementMb = call.vramMb

/-- A success leaves the requested deployment on the node that was asked to start it, and an error
leaves the record of the model as it was. -/
def MeetsPostcondition : Prop :=
  match self.deploy call with
  | (.ok (), after) =>
    ∃ record, after.deployments.get call.modelId = some record ∧
      (record.status = .running ∨ record.status = .loading) ∧ call.Requested record ∧
      ∀ node, self.askedNode call = some node → record.assignedNode = node
  | (.error _, after) =>
    after.deployments.get call.modelId = self.deployments.get call.modelId

def Starts (node : String) : Prop := node ∈ self.agents ∧ ∃ port, call.started = .ok port

/-- The record of the model is as requested, or `loading` where it cannot start. -/
structure RecordFits (scheduler : Scheduler) (call : DeployCall) : Prop where
  serving : scheduler.available call.modelId = true → ∀ record,
    scheduler.deployments.get call.modelId = some record → call.Requested record
  started : scheduler.available call.modelId = false → ∀ node evicted,
    scheduler.placement call.values call.vramMb = .ok (node, evicted) →
      scheduler.Starts call node → ∀ record,
        scheduler.deployments.get call.modelId = some record → call.Requested record
  failed : scheduler.available call.modelId = false → ∀ node evicted,
    scheduler.placement call.values call.vramMb = .ok (node, evicted) →
      ¬scheduler.Starts call node → ∃ record,
        scheduler.deployments.get call.modelId = some record ∧ record.status = .loading ∧
          record.assignedNode = node

variable {self call}

theorem available_iff {modelId : String} : self.available modelId = true ↔
    ∃ record, self.deployments.get modelId = some record ∧ record.status = .running := by
  unfold available
  rw [Option.any_eq_true]
  simp only [ModelDeployment.isAvailable, decide_eq_true_eq]

variable {evicted : List String}

theorem available_of_mem_evicted {node id : String}
    (hvalues : call.values.Perm self.deployments.rows)
    (hplacement : self.placement call.values call.vramMb = .ok (node, evicted))
    (hmem : id ∈ evicted) : self.available id = true := by
  unfold placement at hplacement
  cases hfind : self.findNodeWithVram call.vramMb with
  | some found =>
    rw [hfind] at hplacement
    cases hplacement
    cases hmem
  | none =>
    cases hplan : self.collectEvictions call.values call.vramMb with
    | none =>
      rw [hfind, hplan] at hplacement
      cases hplacement
    | some plan =>
      rw [hfind, hplan] at hplacement
      cases hplacement
      obtain ⟨-, -, -, -, count, -, rfl⟩ := of_collectEvictions hplan
      obtain ⟨d, hd, rfl⟩ := List.mem_map.1 hmem
      obtain ⟨hrow, hrunning⟩ := List.mem_filter.1
        ((isLru_candidates hvalues node).perm.mem_iff.1 (List.mem_of_mem_take hd))
      refine available_iff.2 ⟨d, Table.get_eq_some.2 ⟨hrow, rfl⟩, ?_⟩
      simp only [Bool.decide_and, Bool.and_eq_true, decide_eq_true_eq] at hrunning
      exact of_decide_eq_true hrunning.2

variable {node : String}

theorem get_modelId_markStopped (hvalues : call.values.Perm self.deployments.rows)
    (havailable : self.available call.modelId = false)
    (hplacement : self.placement call.values call.vramMb = .ok (node, evicted)) :
    (self.markStopped evicted).deployments.get call.modelId =
      self.deployments.get call.modelId := by
  have hnot : call.modelId ∉ evicted := by
    intro hmem
    rw [available_of_mem_evicted hvalues hplacement hmem] at havailable
    cases havailable
  rw [get_deployments_markStopped]
  cases self.deployments.get call.modelId with
  | none => rfl
  | some record => rw [Option.map_some, if_neg hnot]

theorem load_cases (before : Scheduler) (call : DeployCall) (node : String) :
    (before.Starts call node ∧ ∃ port after, before.load call node = (.ok (), after) ∧
        after.deployments.get call.modelId =
          some { before.loadingRecord call node with status := .running, port }) ∨
      ¬before.Starts call node ∧ ∃ e after, before.load call node = (.error e, after) ∧
        after.deployments.get call.modelId = some (before.loadingRecord call node) := by
  have hid := before.id_loadingRecord call node
  unfold load Starts
  dsimp only
  by_cases hagent : node ∈ before.agents
  · rw [if_neg (not_not.2 hagent)]
    cases call.started with
    | ok port =>
      refine .inl ⟨⟨hagent, port, rfl⟩, port, _, rfl, ?_⟩
      rw [Table.get_upsert, if_pos hid]
    | error e =>
      refine .inr ⟨fun h => ?_, e, _, rfl, by rw [Table.get_upsert, if_pos hid]⟩
      obtain ⟨-, port, hport⟩ := h
      cases hport
  · rw [if_pos hagent]
    exact .inr ⟨fun h => hagent h.1, _, _, rfl, by rw [Table.get_upsert, if_pos hid]⟩

/-! ## A model that is running -/

theorem meetsPostcondition_iff_of_available (havailable : self.available call.modelId = true) :
    self.MeetsPostcondition call ↔ self.RecordFits call := by
  obtain ⟨record, hget, hrunning⟩ := available_iff.1 havailable
  have hasked : self.askedNode call = none := by
    unfold askedNode
    rw [if_pos havailable]
  unfold MeetsPostcondition deploy
  rw [if_pos havailable]
  dsimp only
  rw [hasked, hget]
  constructor
  · rintro ⟨other, hother, -, hrequested, -⟩
    cases hother
    refine ⟨fun _ other hother => ?_, fun h => ?_, fun h => ?_⟩
    · rw [hget] at hother
      cases hother
      exact hrequested
    · rw [havailable] at h
      cases h
    · rw [havailable] at h
      cases h
  · intro hfits
    exact ⟨record, rfl, .inl hrunning, hfits.serving havailable record hget,
      fun node hnode => by cases hnode⟩

/-! ## A model that is not running -/

variable {before : Scheduler}

theorem requested_loadingRecord_iff : call.Requested (before.loadingRecord call node) ↔
      ∀ record, before.deployments.get call.modelId = some record → call.Requested record := by
  unfold loadingRecord
  cases before.deployments.get call.modelId with
  | none => exact iff_of_true ⟨rfl, rfl⟩ fun record hrecord => by cases hrecord
  | some existing =>
    constructor
    · rintro hrequested record ⟨⟩
      exact hrequested
    · exact fun h => h existing rfl

theorem loadingRecord_eq_iff :
    some (before.loadingRecord call node) = before.deployments.get call.modelId ↔
      ∃ record, before.deployments.get call.modelId = some record ∧ record.status = .loading ∧
        record.assignedNode = node := by
  unfold loadingRecord
  cases before.deployments.get call.modelId with
  | none =>
    refine iff_of_false (fun h => by cases h) ?_
    rintro ⟨record, hrecord, -⟩
    cases hrecord
  | some existing =>
    constructor
    · intro h
      have heq := Option.some.inj h
      refine ⟨existing, rfl, ?_, ?_⟩
      · rw [← heq]
      · rw [← heq]
    · rintro ⟨record, hrecord, hstatus, hnode⟩
      cases hrecord
      rw [← hstatus, ← hnode]

theorem loadingRecord_congr {before before' : Scheduler}
    (h : before.deployments.get call.modelId = before'.deployments.get call.modelId) :
    before.loadingRecord call node = before'.loadingRecord call node := by
  unfold loadingRecord
  rw [h]

theorem assignedNode_loadingRecord : (before.loadingRecord call node).assignedNode = node := by
  unfold loadingRecord
  cases before.deployments.get call.modelId <;> rfl

theorem meetsPostcondition_iff_of_placed (hvalues : call.values.Perm self.deployments.rows)
    (havailable : self.available call.modelId = false)
    (hplacement : self.placement call.values call.vramMb = .ok (node, evicted)) :
    self.MeetsPostcondition call ↔
      (self.Starts call node → ∀ record, self.deployments.get call.modelId = some record →
        call.Requested record) ∧
      (¬self.Starts call node → ∃ record, self.deployments.get call.modelId = some record ∧
        record.status = .loading ∧ record.assignedNode = node) := by
  have hget := get_modelId_markStopped hvalues havailable hplacement
  have hrecord : (self.markStopped evicted).loadingRecord call node =
      self.loadingRecord call node := loadingRecord_congr hget
  have hstarts : (self.markStopped evicted).Starts call node ↔ self.Starts call node := Iff.rfl
  have hdeploy : self.deploy call = (self.markStopped evicted).load call node := by
    unfold deploy
    rw [if_neg (by simp [havailable]), hplacement]
  unfold MeetsPostcondition
  rw [hdeploy]
  rcases (self.markStopped evicted).load_cases call node with
    ⟨hstart, port, after, hload, hafter⟩ | ⟨hstart, e, after, hload, hafter⟩
  · rw [hload]
    dsimp only
    rw [hrecord] at hafter
    have hasked : self.askedNode call = some node := by
      unfold askedNode
      rw [if_neg (by simp [havailable]), hplacement]
      exact if_pos hstart.1
    rw [hafter, hasked, ← requested_loadingRecord_iff]
    constructor
    · rintro ⟨record, hsome, -, hrequested, -⟩
      cases hsome
      exact ⟨fun _ => hrequested, fun h => absurd hstart h⟩
    · rintro ⟨hrequested, -⟩
      refine ⟨_, rfl, .inl rfl, hrequested hstart, fun target htarget => ?_⟩
      cases htarget
      exact assignedNode_loadingRecord
  · rw [hload]
    dsimp only
    rw [hafter, hrecord, loadingRecord_eq_iff]
    exact ⟨fun h => ⟨fun hs => absurd hs hstart, fun _ => h⟩, fun h => h.2 hstart⟩

/-! ## Main result -/

/-- The postcondition holds exactly where a record that the model has before is the one that the
call would leave. -/
theorem meetsPostcondition_iff (hvalues : call.values.Perm self.deployments.rows) :
    self.MeetsPostcondition call ↔ self.RecordFits call := by
  cases havailable : self.available call.modelId with
  | true => exact meetsPostcondition_iff_of_available havailable
  | false =>
    have hnot : self.available call.modelId ≠ true := by simp [havailable]
    cases hplacement : self.placement call.values call.vramMb with
    | ok plan =>
      obtain ⟨node, evicted⟩ := plan
      rw [meetsPostcondition_iff_of_placed hvalues havailable hplacement]
      constructor
      · rintro ⟨hstarted, hfailed⟩
        refine ⟨fun h => absurd h hnot, fun _ target taken hplan => ?_,
          fun _ target taken hplan => ?_⟩
        · cases hplacement.symm.trans hplan
          exact hstarted
        · cases hplacement.symm.trans hplan
          exact hfailed
      · exact fun h => ⟨h.started havailable node evicted hplacement,
          h.failed havailable node evicted hplacement⟩
    | error e =>
      have hdeploy : self.deploy call = (.error e, self) := by
        unfold deploy
        rw [if_neg hnot, hplacement]
      unfold MeetsPostcondition
      rw [hdeploy]
      refine iff_of_true rfl ⟨fun h => absurd h hnot, fun _ node evicted h => ?_,
        fun _ node evicted h => ?_⟩
      · rw [hplacement] at h
        cases h
      · rw [hplacement] at h
        cases h

/-! ## A model that was evicted -/

def stoppedModel : ModelDeployment :=
  ⟨"llama", .ollama, .stopped, "node-1", 30000, 8192, 0, none, -120, 0⟩

def redeployScheduler : Scheduler := ⟨Table.empty.upsert stoppedModel, [evictionNode], ["node-1"]⟩

def otherEngine : DeployCall := ⟨"llama", .vllm, 4096, [stoppedModel], 0, .ok 30001⟩

def newCall : DeployCall := ⟨"mistral", .vllm, 4096, [stoppedModel], 0, .ok 30001⟩

theorem newCall_meetsPostcondition : redeployScheduler.MeetsPostcondition newCall := by
  have hnone : redeployScheduler.deployments.get "mistral" = none := by decide
  have hagent : "node-1" ∈ redeployScheduler.agents := by decide
  refine (meetsPostcondition_iff (by decide)).2 ⟨fun h => ?_, fun _ node evicted _ _ record h => ?_,
    fun _ node evicted hplan hstarts => ?_⟩
  · exact absurd h (by decide)
  · exact absurd (hnone.symm.trans h) (by simp)
  · have hplacement : redeployScheduler.placement newCall.values newCall.vramMb =
        .ok ("node-1", []) := by decide
    cases hplacement.symm.trans hplan
    exact absurd ⟨hagent, 30001, rfl⟩ hstarts

theorem otherEngine_not_meetsPostcondition : (redeployScheduler.deploy otherEngine).1 = .ok () ∧
      ¬redeployScheduler.MeetsPostcondition otherEngine := by
  have hdeploy : (redeployScheduler.deploy otherEngine).2.deployments.get "llama" =
      some { stoppedModel with status := .running, port := 30001 } := by decide
  refine ⟨by decide, ?_⟩
  rintro ⟨record, hrecord, -, ⟨hengine, -⟩, -⟩
  cases hdeploy.symm.trans hrecord
  exact absurd hengine (by decide)

end Scheduler

end Gadgetron.Nodes
