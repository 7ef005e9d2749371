import Mathlib.Algebra.Order.BigOperators.Group.List
import Mathlib.Algebra.Order.Group.Nat
import Gadgetron.Nodes.Deploy

/-!
# The memory of a node between two heartbeats

A node reports its free memory with its heartbeat, and `deploy` compares each requirement with that
report alone: what the deployments since then have taken is in the other map.
-/

namespace Gadgetron.Nodes

open Lib List

/-- What a deployment takes of a node's memory: its requirement, while it is loading or running
there. -/
def ModelDeployment.loadOn (node : String) (d : ModelDeployment) : ℕ :=
  if d.assignedNode = node ∧ (d.status = .loading ∨ d.status = .running) then
    d.vramRequirementMb.toNat
  else
    0

namespace Scheduler

variable (self : Scheduler)

def reserved (node : String) : ℕ :=
  (self.deployments.rows.map (ModelDeployment.loadOn node)).sum

def reservedBy (ids : List String) (node : String) : ℕ :=
  ((self.deployments.rows.filter fun d => d.id ∈ ids).map (ModelDeployment.loadOn node)).sum

def reservedBeside (ids : List String) (node : String) : ℕ :=
  ((self.deployments.rows.filter fun d => d.id ∉ ids).map (ModelDeployment.loadOn node)).sum

/-- The requirement that counts for a model: that of its record, if there is one. -/
def requirement (call : DeployCall) : UInt64 :=
  ((self.deployments.get call.modelId).map ModelDeployment.vramRequirementMb).getD call.vramMb

theorem reservedBy_add_reservedBeside (ids : List String) (node : String) :
    self.reservedBy ids node + self.reservedBeside ids node = self.reserved node := by
  have h := ((filter_append_perm (fun d : ModelDeployment => decide (d.id ∈ ids))
    self.deployments.rows).map (ModelDeployment.loadOn node)).sum_eq
  rw [map_append, sum_append] at h
  unfold reservedBy reservedBeside reserved
  rw [← h]
  simp

theorem reservedBeside_cons_le (id : String) (ids : List String) (node : String) :
    self.reservedBeside (id :: ids) node ≤ self.reservedBeside ids node := by
  refine ((monotone_filter_right _ fun d h => ?_).map _).sum_le_sum fun _ _ => Nat.zero_le _
  simp only [mem_cons, not_or, decide_eq_true_eq] at h ⊢
  exact h.2

theorem reservedBeside_markStopped (id : String) (ids : List String) (node : String) :
    (self.markStopped ids).reservedBeside [id] node = self.reservedBeside (id :: ids) node := by
  unfold reservedBeside markStopped Table.updateWhere Table.update
  dsimp only
  induction self.deployments.rows with
  | nil => rfl
  | cons d rows ih =>
    rw [map_cons]
    by_cases hid : d.id = id
    · subst hid
      by_cases hids : d.id ∈ ids <;> simpa [hids] using ih
    · by_cases hids : d.id ∈ ids
      · simpa [hids, hid, ModelDeployment.loadOn] using ih
      · simpa [hids, hid] using ih

theorem reserved_upsert (record : ModelDeployment) (node : String) :
    reserved { self with deployments := self.deployments.upsert record } node =
      record.loadOn node + self.reservedBeside [record.id] node := by
  unfold reserved reservedBeside
  rw [((self.deployments.upsert_rows_perm record).map _).sum_eq, map_cons, sum_cons]
  simp

theorem reservedBeside_upsert (record : ModelDeployment) (node : String) :
    reservedBeside { self with deployments := self.deployments.upsert record } [record.id] node =
      self.reservedBeside [record.id] node := by
  unfold reservedBeside
  rw [(((self.deployments.upsert_rows_perm record).filter _).map _).sum_eq]
  simp

/-! ## What a call does -/

theorem get_markStopped (ids : List String) (id : String) :
    ((self.markStopped ids).deployments.get id).map ModelDeployment.vramRequirementMb =
      (self.deployments.get id).map ModelDeployment.vramRequirementMb := by
  unfold markStopped Table.updateWhere Table.update Table.get
  dsimp only
  rw [find?_map, Option.map_map]
  have hkey : ((fun d : ModelDeployment => decide (d.id = id)) ∘ fun d : ModelDeployment =>
      if decide (d.id ∈ ids) = true then { d with status := .stopped } else d) =
      fun d => decide (d.id = id) := by
    funext d
    simp only [Function.comp_apply]
    split_ifs <;> rfl
  rw [hkey]
  cases self.deployments.rows.find? fun d => d.id = id with
  | none => rfl
  | some d =>
    simp only [Option.map_some, Function.comp_apply]
    split_ifs <;> rfl

section

variable (call : DeployCall)

theorem id_loadingRecord (node : String) :
    (self.loadingRecord call node).id = call.modelId := by
  unfold loadingRecord
  cases h : self.deployments.get call.modelId with
  | none => rfl
  | some existing =>
    have hid : existing.id = call.modelId := Table.key_of_get h
    exact hid

theorem loadOn_loadingRecord (target node : String) :
    (self.loadingRecord call target).loadOn node =
      if target = node then (self.requirement call).toNat else 0 := by
  unfold loadingRecord requirement ModelDeployment.loadOn
  cases self.deployments.get call.modelId with
  | none | some => simp

theorem reserved_load (target node : String) :
    (self.load call target).2.reserved node =
      (if target = node then (self.requirement call).toNat else 0) +
        self.reservedBeside [call.modelId] node := by
  set record := self.loadingRecord call target with hrecord
  have hid : record.id = call.modelId := self.id_loadingRecord call target
  have hloading := self.reserved_upsert record node
  let running : ℕ → ModelDeployment := fun port =>
    { record with status := .running, port }
  have hrunning : ∀ port, reserved
      ⟨(self.deployments.upsert record).upsert (running port), self.nodes, self.agents⟩ node =
        record.loadOn node + self.reservedBeside [record.id] node := by
    intro port
    rw [reserved_upsert { self with deployments := self.deployments.upsert record },
      show (running port).id = record.id from rfl, self.reservedBeside_upsert record]
    congr 1
    simp only [running, hrecord]
    unfold ModelDeployment.loadOn loadingRecord
    cases self.deployments.get call.modelId with
    | none | some => simp
  rw [← self.loadOn_loadingRecord call target node, ← hrecord, ← hid]
  unfold load
  dsimp only
  by_cases hagent : target ∉ self.agents
  · rw [if_pos hagent]
    exact hloading
  · rw [if_neg hagent]
    cases call.started with
    | error e => exact hloading
    | ok port => exact hrunning port

theorem reserved_deploy {target : String} {evicted : List String}
    (havailable : self.available call.modelId = false)
    (hplace : self.placement call.values call.vramMb = .ok (target, evicted)) (node : String) :
    (self.deploy call).2.reserved node =
      (if target = node then (self.requirement call).toNat else 0) +
        self.reservedBeside (call.modelId :: evicted) node := by
  unfold deploy
  rw [havailable, hplace]
  change ((self.markStopped evicted).load call target).2.reserved node = _
  rw [reserved_load, reservedBeside_markStopped]
  unfold requirement
  rw [get_markStopped]

theorem nodes_deploy : (self.deploy call).2.nodes = self.nodes := by
  unfold deploy
  split_ifs
  · rfl
  · cases self.placement call.values call.vramMb with
    | error e => rfl
    | ok plan =>
      change ((self.markStopped plan.2).load call plan.1).2.nodes = _
      unfold load
      dsimp only
      split_ifs
      · cases call.started <;> rfl
      · rfl

end

theorem undeploy_eq (modelId node : String) : (self.undeploy modelId).2.nodes = self.nodes ∧
      (self.undeploy modelId).2.reserved node = self.reservedBeside [modelId] node := by
  unfold undeploy
  cases h : self.deployments.get modelId with
  | none =>
    refine ⟨rfl, ?_⟩
    have hne := Table.get_eq_none.1 h
    unfold reserved reservedBeside
    rw [filter_eq_self.2 fun d hd => by simpa using hne d hd]
  | some d =>
    refine ⟨rfl, ?_⟩
    unfold reserved reservedBeside Table.deleteWhere
    simp

end Scheduler

/-! ## Calls since the heartbeat -/

inductive Call
  | deploy (call : Scheduler.DeployCall)
  | undeploy (modelId : String)

namespace Scheduler

variable (self : Scheduler)

def stops : Call → List String
  | .deploy call =>
    if self.available call.modelId then []
    else
      match self.placement call.values call.vramMb with
      | .ok (_, evicted) => evicted
      | .error _ => []
  | .undeploy modelId => [modelId]

def apply : Call → Scheduler
  | .deploy call => (self.deploy call).2
  | .undeploy modelId => (self.undeploy modelId).2

/-- The map of deployments is iterated in some order of its rows. -/
def Iterates : Call → Prop
  | .deploy call => call.values.Perm self.deployments.rows
  | .undeploy _ => True

instance (call : Call) : Decidable (self.Iterates call) := by
  cases call <;> unfold Iterates <;> infer_instance

end Scheduler

/-- The scheduler, and the memory of each node whose deployments were stopped since the
heartbeat. -/
structure Watch where
  scheduler : Scheduler
  stoppedMb : String → ℕ

namespace Watch

def atHeartbeat (scheduler : Scheduler) : Watch := ⟨scheduler, fun _ => 0⟩

/-- A call, made when no other is in progress. -/
def step (w : Watch) (call : Call) : Option Watch :=
  if w.scheduler.Iterates call then
    some
      { scheduler := w.scheduler.apply call
        stoppedMb := fun node =>
          w.stoppedMb node + w.scheduler.reservedBy (w.scheduler.stops call) node }
  else
    none

/-- No node has more reserved than it had free at the heartbeat and got back since. -/
def WithinCapacity (w : Watch) : Prop :=
  ∀ node ∈ w.scheduler.nodes,
    w.scheduler.reserved node.id ≤ node.availableVramMb.toNat + w.stoppedMb node.id

/-- What stays on the node and the new requirement reserve fits into what it reported free and what
was stopped since, by this call too. -/
def HasRoom (w : Watch) : Call → Prop
  | .deploy call =>
    w.scheduler.available call.modelId = false →
      ∀ target evicted, w.scheduler.placement call.values call.vramMb = .ok (target, evicted) →
        ∀ node ∈ w.scheduler.nodes, node.id = target → (w.scheduler.requirement call).toNat +
              w.scheduler.reservedBeside (call.modelId :: evicted) target ≤
            node.availableVramMb.toNat +
              (w.stoppedMb target + w.scheduler.reservedBy evicted target)
  | .undeploy _ => True

end Watch

namespace Watch

variable {w w' : Watch} {call : Call}

theorem step_eq_some (h : w.step call = some w') :
    w.scheduler.Iterates call ∧ w'.scheduler = w.scheduler.apply call ∧ ∀ node, w'.stoppedMb node =
        w.stoppedMb node + w.scheduler.reservedBy (w.scheduler.stops call) node := by
  unfold step at h
  split_ifs at h with hiter
  cases h
  exact ⟨hiter, rfl, fun node => rfl⟩

theorem nodes_step (h : w.step call = some w') : w'.scheduler.nodes = w.scheduler.nodes := by
  rw [(step_eq_some h).2.1]
  cases call with
  | deploy call => exact w.scheduler.nodes_deploy call
  | undeploy modelId => exact (w.scheduler.undeploy_eq modelId "").1

theorem reserved_step_of_not_placed (h : w.step call = some w')
    (hnot : ∀ c, call = .deploy c → w.scheduler.available c.modelId = true ∨
      ∃ e, w.scheduler.placement c.values c.vramMb = .error e) (node : String) :
    w'.scheduler.reserved node + w'.stoppedMb node =
      w.scheduler.reserved node + w.stoppedMb node := by
  obtain ⟨-, hscheduler, hstopped⟩ := step_eq_some h
  rw [hscheduler, hstopped]
  cases call with
  | deploy c =>
    have hstays : (w.scheduler.deploy c).2 = w.scheduler ∧ w.scheduler.stops (.deploy c) = [] := by
      unfold Scheduler.deploy Scheduler.stops
      rcases hnot c rfl with havailable | ⟨e, hplace⟩
      · simp [havailable]
      · simp only [hplace]
        split_ifs <;> simp
    change (w.scheduler.deploy c).2.reserved node + _ = _
    rw [hstays.1, hstays.2]
    simp [Scheduler.reservedBy]
  | undeploy modelId =>
    change (w.scheduler.undeploy modelId).2.reserved node +
      (_ + w.scheduler.reservedBy [modelId] node) = _
    have hparts := w.scheduler.reservedBy_add_reservedBeside [modelId] node
    rw [(w.scheduler.undeploy_eq modelId node).2]
    omega

theorem reserved_step_of_placed {c : Scheduler.DeployCall} (h : w.step (.deploy c) = some w')
    {target : String} {evicted : List String} (havailable : w.scheduler.available c.modelId = false)
    (hplace : w.scheduler.placement c.values c.vramMb = .ok (target, evicted)) (node : String) :
    w'.scheduler.reserved node = (if target = node then (w.scheduler.requirement c).toNat else 0) +
          w.scheduler.reservedBeside (c.modelId :: evicted) node ∧
      w'.stoppedMb node = w.stoppedMb node + w.scheduler.reservedBy evicted node := by
  obtain ⟨-, hscheduler, hstopped⟩ := step_eq_some h
  rw [hscheduler, hstopped]
  refine ⟨w.scheduler.reserved_deploy c havailable hplace node, ?_⟩
  simp [Scheduler.stops, havailable, hplace]

theorem withinCapacity_step_iff (hwithin : w.WithinCapacity) (h : w.step call = some w') :
    w'.WithinCapacity ↔ w.HasRoom call := by
  have hstays : (∀ c, call = .deploy c → w.scheduler.available c.modelId = true ∨
      ∃ e, w.scheduler.placement c.values c.vramMb = .error e) → w'.WithinCapacity := by
    intro hnot node hnode
    rw [nodes_step h] at hnode
    have hsame := reserved_step_of_not_placed h hnot node.id
    have hbefore := hwithin node hnode
    have hmore : w.stoppedMb node.id ≤ w'.stoppedMb node.id := by
      rw [(step_eq_some h).2.2]
      omega
    omega
  cases call with
  | undeploy modelId => exact iff_of_true (hstays nofun) trivial
  | deploy c =>
    cases havailable : w.scheduler.available c.modelId with
    | true =>
      refine iff_of_true (hstays fun c' hc' => ?_) fun hnot => ?_
      · cases hc'
        exact .inl havailable
      · exact absurd (havailable.symm.trans hnot) (by decide)
    | false =>
      cases hplace : w.scheduler.placement c.values c.vramMb with
      | error e =>
        refine iff_of_true (hstays fun c' hc' => ?_) fun _ target evicted hok => ?_
        · cases hc'
          exact .inr ⟨e, hplace⟩
        · exact absurd (hplace.symm.trans hok) nofun
      | ok plan =>
        obtain ⟨target, evicted⟩ := plan
        have hafter := reserved_step_of_placed h havailable hplace
        constructor
        · intro hafterwards _ target' evicted' hplace' node hnode hid
          obtain ⟨rfl, rfl⟩ := Prod.mk.inj (Except.ok.inj (hplace.symm.trans hplace'))
          have hnow := hafterwards node (by rw [nodes_step h]; exact hnode)
          rwa [(hafter node.id).1, (hafter node.id).2, if_pos hid.symm, hid] at hnow
        · intro hroom node hnode
          rw [nodes_step h] at hnode
          rw [(hafter node.id).1, (hafter node.id).2]
          by_cases hid : node.id = target
          · rw [if_pos hid.symm, hid]
            exact hroom havailable target evicted hplace node hnode hid
          · rw [if_neg (Ne.symm hid)]
            have hbefore := hwithin node hnode
            have hparts := w.scheduler.reservedBy_add_reservedBeside evicted node.id
            have hless := w.scheduler.reservedBeside_cons_le c.modelId evicted node.id
            omega

end Watch

/-! ## Runs -/

abbrev scheduling : Machine Watch Call where
  step := Watch.step

/-- The reserved memory stays within what the nodes reported and got back between two heartbeats
just when it was so at the first and every deploy is placed on a node with room. -/
theorem withinCapacity_iff_hasRoom {scheduler : Scheduler} {calls : List Call} {w : Watch}
    (hrun : scheduling.exec (.atHeartbeat scheduler) calls = some w) :
    (∀ made w', made <+: calls → scheduling.exec (.atHeartbeat scheduler) made = some w' →
        w'.WithinCapacity) ↔ (Watch.atHeartbeat scheduler).WithinCapacity ∧
        scheduling.Meets Watch.HasRoom (.atHeartbeat scheduler) calls := by
  constructor
  · intro hall
    have hfirst := hall [] _ nil_prefix rfl
    exact ⟨hfirst, (scheduling.meets_iff_forall_reached
      (fun _ _ _ hwithin h => Watch.withinCapacity_step_iff hwithin h) hfirst hrun).2 hall⟩
  · rintro ⟨hfirst, hroom⟩
    exact (scheduling.meets_iff_forall_reached
      (fun _ _ _ hwithin h => Watch.withinCapacity_step_iff hwithin h) hfirst hrun).1 hroom

/-! ## Two deploys on one node -/

def sampleNode (totalMb : UInt64) : NodeStatus := ⟨"gpu-1", true, [⟨0, totalMb, 6⟩]⟩

def sampleScheduler (totalMb : UInt64) : Scheduler := ⟨.empty, [sampleNode totalMb], ["gpu-1"]⟩

def sampleDeployment : ModelDeployment :=
  ⟨"a", .vllm, .running, "gpu-1", 30000, 10, 0, none, 1, 0⟩

def sampleCalls : List Call :=
  [.deploy ⟨"a", .vllm, 10, [], 1, .ok 30000⟩,
    .deploy ⟨"b", .vllm, 10, [sampleDeployment], 2, .ok 30001⟩]

theorem second_deploy_exceeds :
    ∃ w, scheduling.exec (.atHeartbeat (sampleScheduler 16)) sampleCalls = some w ∧
      ¬ w.WithinCapacity := by
  refine ⟨_, rfl, fun hwithin => ?_⟩
  exact absurd (hwithin (sampleNode 16) mem_cons_self) (by decide)

/-- A test that is enough for a call to have room. -/
def roomTest (w : Watch) : Call → Bool
  | .deploy call =>
    match w.scheduler.placement call.values call.vramMb with
    | .error _ => true
    | .ok (target, evicted) => w.scheduler.nodes.all fun node =>
      (w.scheduler.requirement call).toNat +
          w.scheduler.reservedBeside (call.modelId :: evicted) target ≤
        node.availableVramMb.toNat + (w.stoppedMb target + w.scheduler.reservedBy evicted target)
  | .undeploy _ => true

theorem hasRoom_of_roomTest (w : Watch) (call : Call) (h : roomTest w call = true) :
    w.HasRoom call := by
  cases call with
  | deploy call =>
    intro _ target evicted hplace node hnode _
    simp only [roomTest, hplace, List.all_eq_true, decide_eq_true_eq] at h
    exact h node hnode
  | undeploy => trivial

/-- On a node with twice the memory both models fit. -/
theorem two_deploys_within :
    ∃ w, scheduling.exec (.atHeartbeat (sampleScheduler 32)) sampleCalls = some w ∧
      w.scheduler.reserved "gpu-1" = 20 ∧
      ∀ made w', made <+: sampleCalls →
        scheduling.exec (.atHeartbeat (sampleScheduler 32)) made = some w' → w'.WithinCapacity := by
  have hfirst : (Watch.atHeartbeat (sampleScheduler 32)).WithinCapacity :=
    forall_mem_singleton.2 (by decide)
  have hroom : scheduling.Meets Watch.HasRoom (.atHeartbeat (sampleScheduler 32)) sampleCalls :=
    Machine.meets_of_meetsTest _ hasRoom_of_roomTest (by decide)
  exact ⟨_, rfl, by decide, (withinCapacity_iff_hasRoom rfl).2 ⟨hfirst, hroom⟩⟩

end Gadgetron.Nodes
