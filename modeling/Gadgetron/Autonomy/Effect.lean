import Gadgetron.Autonomy.Operations

/-!
# What a step does to autonomous goals

Every step has one of a few effects on the goals and their runs, each with what it finds in the
store.
-/

namespace Gadgetron.Autonomy

open Lib AutonomyStore Option Except

variable {parse : String → Option Uuid} {digest : List String → String} {s s' t : AutonomyStore}
  {a : AutonomyLabel}

def SameTables (s s' : AutonomyStore) : Prop :=
  s'.goals = s.goals ∧ s'.runs = s.runs ∧ s'.granted = s.granted ∧ s'.log = s.log

theorem SameTables.refl (s : AutonomyStore) : SameTables s s := ⟨rfl, rfl, rfl, rfl⟩

structure Fresh (goal : AutonomyGoalRow) : Prop where
  status : goal.status = .ready ∨ goal.status = .contextRequired
  owner : goal.leaseOwner = none
  expires : goal.leaseExpiresAt = none
  attempt : goal.attempt = 0
  budget : 1 ≤ goal.spec.maxAttempts ∧ goal.spec.maxAttempts ≤ 10

structure Owned (s : AutonomyStore) (goal : AutonomyGoalRow) (workerId : String) : Prop where
  mem : goal ∈ s.goals
  owned : goal.owned s.now workerId

variable {goal : AutonomyGoalRow}

theorem Owned.running {workerId : String} (h : Owned s goal workerId) : goal.status = .running := by
  have howned := h.owned
  simp only [AutonomyGoalRow.owned, Bool.and_eq_true, decide_eq_true_eq] at howned
  exact howned.1.1

/-- The worker has the lease of the goal, and the run is the goal's and is running. -/
structure OwnedRun (s : AutonomyStore) (goal : AutonomyGoalRow) (runId : Uuid)
    (workerId : String) : Prop extends Owned s goal workerId where
  run : ∃ run ∈ s.runs, run.goalId = goal.id ∧ run.id = runId ∧ run.status = .running

/-- The step is a valid schedule that finds the goal. -/
structure Syncs (parse : String → Option Uuid) (s : AutonomyStore) (a : AutonomyLabel)
    (input : SyncBundleSchedule) (context : ResolvedContext) (goal : AutonomyGoalRow) : Prop where
  label : ∃ service newId, a = .syncBundleSchedule input service newId ∧
    ∃ access, scheduleContext parse s input service = .ok (access, context)
  found : s.goalOfKey input.tenantId input.goalKey = some goal
  valid : validateSchedule input = .ok ()

inductive Effect (parse : String → Option Uuid) (s : AutonomyStore) (a : AutonomyLabel)
    (s' : AutonomyStore) : Prop
  | same (same : SameTables s s')
  | insert (goal : AutonomyGoalRow) (goals : Table AutonomyGoalRow.id) (fresh : Fresh goal)
      (inserted : s.goals.insert goal = some goals)
      (same : SameTables { s with goals } s')
  | sync (input : SyncBundleSchedule) (context : ResolvedContext) (goal : AutonomyGoalRow)
      (syncs : Syncs parse s a input context goal)
      (changes : goal.syncChanges (desiredStatus context.state) context.state
        (scheduleSpec input context))
      (same : SameTables
        { s with
          goals := s.goals.updateWhere (fun row => row.id = goal.id)
            (.sync s.now (desiredStatus context.state) context.state (scheduleSpec input context))
          log :=
            if goal.retargeted (scheduleSpec input context) then .reset goal.id :: s.log
            else s.log } s')
  | retire (keys : List String) (same : SameTables (s.retireMissingBundleSchedules keys) s')
  | recover (goal : AutonomyGoalRow) (mem : goal ∈ s.goals) (running : goal.status = .running)
      (same : SameTables
        { s with
          runs := s.runs.updateWhere
            (fun run => run.tenantId = goal.tenantId && run.goalId = goal.id &&
              run.status = .running) (.interrupt s.now)
          goals := s.goals.updateWhere (fun row => row.id = goal.id) (.recover s.now) } s')
  | lease (call : LeaseCall) (goal : AutonomyGoalRow) (run : AutonomyRunRow)
      (runs : Table AutonomyRunRow.id) (mem : goal ∈ s.goals) (leasable : s.leasable goal)
      (new : s.newRun (goal.lease s.now call.workerId call.leaseSeconds) call = .ok run)
      (inserted : s.runs.insert run = some runs)
      (same : SameTables (s.grant goal call run runs) s')
  | pin (lease : AutonomyLease) (workerId : String) (policyRevision : Option String)
      (contextSnapshot : Policy.Json) (goal : AutonomyGoalRow)
      (owned : OwnedRun s goal lease.run.id workerId) (id : goal.id = lease.goal.id)
      (same : SameTables
        { s with
          runs := s.runs.updateWhere (fun row => row.id = lease.run.id)
            (.pin policyRevision contextSnapshot)
          goals := s.goals.updateWhere (isGoalOfLease lease) (.pin policyRevision) } s')
  | attach (runId : Uuid) (runtimeJobId : String)
      (same : SameTables
        { s with
          runs := s.runs.updateWhere (fun row => row.id = runId) (.attach runtimeJobId) } s')
  | beat (lease : AutonomyLease) (workerId : String) (leaseSeconds : ℤ) (checkpoint : Policy.Json)
      (goal : AutonomyGoalRow) (owned : Owned s goal workerId)
      (same : SameTables
        { s with
          goals := s.goals.updateWhere (fun row => row.id = goal.id)
            (.beat s.now leaseSeconds checkpoint)
          runs := s.runs.updateWhere (isActiveRunOfLease lease) (.beat checkpoint) } s')
  | finish (workerId : String) (finish : RunFinish) (runId : Uuid) (goal : AutonomyGoalRow)
      (owned : OwnedRun s goal runId workerId)
      (same : SameTables
        { s with
          runs := s.runs.updateWhere (isActiveRun goal runId)
            (.finish s.now (finishStatuses finish.disposition goal).1 finish.outcome
              finish.verificationState finish.verificationSummary finish.evidenceRefs)
          goals := s.goals.updateWhere (fun row => row.id = goal.id)
            (.finish s.now (finishStatuses finish.disposition goal).2 finish.outcome
              finish.verificationSummary)
          log :=
            if (finishStatuses finish.disposition goal).2 = .ready then .reset goal.id :: s.log
            else s.log } s')
  | finishEvent (workerId : String) (terminal : EventRunTerminal) (summary : String)
      (evidenceRefs : List String) (runId : Uuid) (goal : AutonomyGoalRow)
      (owned : OwnedRun s goal runId workerId)
      (same : SameTables
        { s with
          runs := s.runs.updateWhere (isActiveRun goal runId)
            (.finish s.now (eventStatuses terminal goal).1 (eventStatuses terminal goal).2.2.1
              (eventStatuses terminal goal).2.2.2 summary evidenceRefs)
          goals := s.goals.updateWhere (fun row => row.id = goal.id)
            (.finishEvent s.now (eventStatuses terminal goal).2.1
              (eventStatuses terminal goal).2.2.1 summary) } s')
  | resume (actor : Spaces.SpaceActor) (expectedRevision : ℕ) (goal : AutonomyGoalRow)
      (mem : goal ∈ s.goals) (label : a = .resumeGoal actor goal.id expectedRevision)
      (stopped : goal.status = .paused ∨ goal.status = .safeStopped)
      (same : SameTables
        { s with
          goals := s.goals.updateWhere (fun row => row.id = goal.id) (.resume s.now)
          log := .reset goal.id :: s.log } s')

/-! ## Every step has one of the effects -/

theorem require_eq_ok {holds : Bool} {reason : String} :
    require holds reason = .ok () ↔ holds = true := by
  unfold require
  split_ifs with h <;> simp [h]

theorem effect_of_ok {α : Type} {result : Except AutonomyError (AutonomyStore × α)}
    (h : ∀ s' value, result = .ok (s', value) → Effect parse s a s') :
    Effect parse s a (s.after (dropValue result)) := by
  cases hresult : result with
  | error e => exact .same (.refl s)
  | ok value => exact h value.1 value.2 hresult

theorem assertOwnedLease_ok {goalId runId : Uuid} {workerId : String}
    (h : s.assertOwnedLease goalId runId workerId = .ok goal) :
    OwnedRun s goal runId workerId ∧ goal.id = goalId := by
  unfold assertOwnedLease at h
  split at h
  · cases h
  · rename_i found hfound
    obtain rfl := ok.inj h
    obtain ⟨hget, hguard⟩ := filter_eq_some_iff.1 hfound
    obtain ⟨hmem, hid⟩ := Table.get_eq_some.1 hget
    obtain ⟨howned, hrun⟩ := Bool.and_eq_true_iff.1 hguard
    obtain ⟨run, hrun, hactive⟩ := List.any_eq_true.1 hrun
    simp only [Bool.and_eq_true, decide_eq_true_eq] at hactive
    exact ⟨⟨⟨hmem, howned⟩, run, hrun, hactive.1.1, hactive.1.2, hactive.2⟩, hid⟩

theorem goalOfKey_eq_some {tenantId : Uuid} {goalKey : String}
    (h : s.goalOfKey tenantId goalKey = some goal) :
    goal ∈ s.goals ∧ goal.tenantId = tenantId ∧ goal.goalKey = goalKey := by
  have hguard := List.find?_some h
  simp only [Bool.and_eq_true, decide_eq_true_eq] at hguard
  exact ⟨List.mem_of_find?_eq_some h, hguard⟩

theorem validateSchedule_budget {input : SyncBundleSchedule}
    (h : validateSchedule input = .ok ()) : 1 ≤ input.maxAttempts ∧ input.maxAttempts ≤ 10 := by
  have hvalid := require_eq_ok.1 h
  simp only [Bool.and_eq_true, decide_eq_true_eq] at hvalid
  exact hvalid.2

theorem validateBundleEvent_budget {input : EnqueueBundleEvent}
    (h : validateBundleEvent input = .ok ()) : 1 ≤ input.maxAttempts ∧ input.maxAttempts ≤ 10 := by
  have hvalid := require_eq_ok.1 h
  simp only [Bool.and_eq_true, decide_eq_true_eq] at hvalid
  exact hvalid.1.2

theorem syncBundleSchedule_effect (input : SyncBundleSchedule) (service : ServiceAgent)
    (newId : Uuid) : Effect parse s (.syncBundleSchedule input service newId)
      (s.after (dropValue (AutonomyStore.syncBundleSchedule parse s input service newId))) := by
  refine effect_of_ok fun s' row hcall => ?_
  obtain ⟨⟨⟩, hvalid, ⟨access, context⟩, hcontext, h⟩ := bind₂_eq_ok.1 hcall
  unfold upsertSchedule at h
  dsimp only at h
  split at h
  · split at h
    · cases h
    · rename_i goals hinserted
      obtain ⟨rfl, -⟩ := Prod.mk.inj (ok.inj h)
      refine .insert _ goals ⟨?_, rfl, rfl, rfl, validateSchedule_budget hvalid⟩ hinserted
        ⟨rfl, rfl, rfl, rfl⟩
      show desiredStatus _ = _ ∨ desiredStatus _ = _
      unfold desiredStatus
      split_ifs <;> simp
  · rename_i goal hfound
    by_cases hchanges : goal.syncChanges (desiredStatus context.state) context.state
        (scheduleSpec input context)
    · rw [if_pos hchanges] at h
      split at h
      · cases h
      · obtain ⟨rfl, -⟩ := Prod.mk.inj (ok.inj h)
        exact .sync input context goal ⟨⟨service, newId, rfl, access, hcontext⟩, hfound, hvalid⟩
          hchanges ⟨rfl, rfl, rfl, rfl⟩
    · rw [if_neg hchanges] at h
      obtain ⟨rfl, -⟩ := Prod.mk.inj (ok.inj h)
      exact .same ⟨rfl, rfl, rfl, rfl⟩

theorem enqueueBundleEvent_effect (input : EnqueueBundleEvent) (newId : Uuid) :
    Effect parse s (.enqueueBundleEvent input newId)
      (s.after (dropValue (AutonomyStore.enqueueBundleEvent digest s input newId))) := by
  refine effect_of_ok fun s' row hcall => ?_
  obtain ⟨⟨⟩, hvalid, h⟩ := bind_eq_ok.1 hcall
  dsimp only at h
  split_ifs at h with hfree
  · split at h
    · cases h
    · rename_i goals hinserted
      obtain ⟨rfl, -⟩ := Prod.mk.inj (ok.inj h)
      exact .insert _ goals ⟨.inl rfl, rfl, rfl, rfl, validateBundleEvent_budget hvalid⟩ hinserted
        ⟨rfl, rfl, rfl, rfl⟩
  · split at h
    · cases h
    · obtain ⟨rfl, -⟩ := Prod.mk.inj (ok.inj h)
      exact .same (.refl s)

theorem recoverExpiredLease_effect (locked : List Uuid) :
    Effect parse s (.recoverExpiredLease locked) (s.recoverExpiredLease locked) := by
  unfold recoverExpiredLease
  split
  · exact .same (.refl s)
  · rename_i goal hfound
    obtain ⟨hmem, hguard⟩ := Table.first_eq_some hfound
    simp only [Bool.and_eq_true, decide_eq_true_eq] at hguard
    exact .recover goal hmem hguard.1.1 ⟨rfl, rfl, rfl, rfl⟩

theorem leaseNext_effect (call : LeaseCall) :
    Effect parse s (.leaseNext call) (s.after (dropValue (s.leaseNext call))) := by
  refine effect_of_ok fun s' row hcall => ?_
  obtain ⟨⟨⟩, -, h⟩ := bind_eq_ok.1 hcall
  split at h
  · obtain ⟨rfl, -⟩ := Prod.mk.inj (ok.inj h)
    exact .same (.refl s)
  · rename_i goal hfound
    obtain ⟨hmem, hguard⟩ := Table.first_eq_some hfound
    obtain ⟨run, hrun, hrest⟩ := bind_eq_ok.1 h
    split_ifs at hrest with hactive
    split at hrest
    · cases hrest
    · rename_i runs hinserted
      obtain ⟨rfl, -⟩ := Prod.mk.inj (ok.inj hrest)
      exact .lease call goal run runs hmem (Bool.and_eq_true_iff.1 hguard).1 hrun hinserted
        (.refl _)

theorem withLease_effect (lease : AutonomyLease) (operation : LeaseOperation) :
    Effect parse s (.withLease lease operation) (s.after (s.perform lease operation)) := by
  cases operation with
  | validateLeaseContext =>
    unfold perform
    cases s.validateLeaseContext lease <;> exact .same (.refl s)
  | pinRunContext workerId policyRevision contextSnapshot =>
    refine effect_of_ok fun s' row hcall => ?_
    obtain ⟨⟨⟩, -, goal, howned, h⟩ := bind₂_eq_ok.1 hcall
    obtain ⟨howned, hid⟩ := assertOwnedLease_ok howned
    split at h
    · cases h
    · rename_i run hrun
      obtain ⟨hget, -⟩ := filter_eq_some_iff.1 hrun
      obtain ⟨rfl, -⟩ := Prod.mk.inj (ok.inj h)
      refine .pin lease workerId policyRevision contextSnapshot goal howned hid ?_
      rw [Table.key_of_get hget]
      exact .refl _
  | attachRuntimeJob workerId runtimeJobId =>
    refine effect_of_ok fun s' row hcall => ?_
    obtain ⟨⟨⟩, -, h⟩ := bind_eq_ok.1 hcall
    split at h
    · obtain ⟨rfl, -⟩ := Prod.mk.inj (ok.inj h)
      exact .attach _ runtimeJobId (.refl _)
    · cases h
  | heartbeat workerId leaseSeconds checkpoint =>
    refine effect_of_ok fun s' row hcall => ?_
    obtain ⟨⟨⟩, -, ⟨⟩, -, h⟩ := bind₂_eq_ok.1 hcall
    split at h
    · cases h
    · rename_i goal hfound
      obtain ⟨hget, hguard⟩ := filter_eq_some_iff.1 hfound
      obtain ⟨rfl, -⟩ := Prod.mk.inj (ok.inj h)
      exact .beat lease workerId leaseSeconds checkpoint goal
        ⟨Table.mem_of_get hget, (Bool.and_eq_true_iff.1 hguard).2⟩ (.refl _)
  | finishRun workerId finish =>
    refine effect_of_ok fun s' row hcall => ?_
    obtain ⟨⟨⟩, -, goal, howned, h⟩ := bind₂_eq_ok.1 hcall
    obtain ⟨rfl, -⟩ := Prod.mk.inj (ok.inj h)
    exact .finish workerId finish lease.run.id goal (assertOwnedLease_ok howned).1 (.refl _)
  | finishEventRun workerId terminal summary resultHash =>
    refine effect_of_ok fun s' row hcall => ?_
    obtain ⟨⟨⟩, -, goal, howned, hrest₂⟩ := bind₂_eq_ok.1 hcall
    obtain ⟨⟨⟩, -, h⟩ := bind_eq_ok.1 hrest₂
    obtain ⟨rfl, -⟩ := Prod.mk.inj (ok.inj h)
    exact .finishEvent workerId terminal summary _ lease.run.id goal
      (assertOwnedLease_ok howned).1 (.refl _)

theorem getGoal_ok {tenantId goalId : Uuid} (h : s.getGoal tenantId goalId = .ok goal) :
    goal ∈ s.goals ∧ goal.id = goalId ∧ goal.tenantId = tenantId := by
  unfold getGoal at h
  split at h
  · cases h
  · rename_i found hfound
    obtain rfl := ok.inj h
    obtain ⟨hget, htenant⟩ := filter_eq_some_iff.1 hfound
    obtain ⟨hmem, hid⟩ := Table.get_eq_some.1 hget
    exact ⟨hmem, hid, by simpa using htenant⟩

theorem resumeGoal_effect (actor : Spaces.SpaceActor) (goalId : Uuid) (expectedRevision : ℕ) :
    Effect parse s (.resumeGoal actor goalId expectedRevision)
      (s.after (dropValue (s.resumeGoal actor goalId expectedRevision))) := by
  refine effect_of_ok fun s' row hcall => ?_
  obtain ⟨goal, hgoal, hrest⟩ := bind_eq_ok.1 hcall
  obtain ⟨hmem, rfl, -⟩ := getGoal_ok hgoal
  split at hrest
  · cases hrest
  · obtain ⟨_, -, h⟩ := bind_eq_ok.1 hrest
    split_ifs at h with hguard
    obtain ⟨rfl, -⟩ := Prod.mk.inj (ok.inj h)
    exact .resume actor expectedRevision goal hmem rfl hguard.2.2 (.refl _)

theorem step_effect (h : (autonomyMachine parse digest).step s a = some s') :
    Effect parse s a s' := by
  obtain rfl := some.inj h
  cases a with
  | access | tick => exact .same ⟨rfl, rfl, rfl, rfl⟩
  | syncBundleSchedule input service newId => exact syncBundleSchedule_effect input service newId
  | enqueueBundleEvent input newId => exact enqueueBundleEvent_effect input newId
  | retireMissingBundleSchedules keys => exact .retire keys (.refl _)
  | recoverExpiredLease locked => exact recoverExpiredLease_effect locked
  | leaseNext call => exact leaseNext_effect call
  | withLease lease operation => exact withLease_effect lease operation
  | resumeGoal actor goalId expectedRevision =>
    exact resumeGoal_effect actor goalId expectedRevision

/-! ## What becomes of a goal -/

def leasesSinceReset (goalId : Uuid) : List GoalEvent → ℕ
  | [] => 0
  | .leased id :: log =>
    if id = goalId then leasesSinceReset goalId log + 1 else leasesSinceReset goalId log
  | .reset id :: log => if id = goalId then 0 else leasesSinceReset goalId log

def AutonomyStore.leased (s : AutonomyStore) (goalId : Uuid) : ℕ := leasesSinceReset goalId s.log

theorem leased_of_log (h : s'.log = s.log) (id : Uuid) : s'.leased id = s.leased id := by
  rw [AutonomyStore.leased, h]
  rfl

theorem leased_of_lease {goalId : Uuid} (h : s'.log = .leased goalId :: s.log) :
    s'.leased goalId = s.leased goalId + 1 ∧ ∀ id, id ≠ goalId → s'.leased id = s.leased id := by
  unfold AutonomyStore.leased
  rw [h]
  exact ⟨if_pos rfl, fun _ hne => if_neg hne.symm⟩

theorem leased_of_reset {goalId : Uuid} {c : Prop} [Decidable c]
    (h : s'.log = if c then .reset goalId :: s.log else s.log) :
    (s'.leased goalId = if c then 0 else s.leased goalId) ∧
      ∀ id, id ≠ goalId → s'.leased id = s.leased id := by
  unfold AutonomyStore.leased
  rw [h]
  split_ifs
  · exact ⟨if_pos rfl, fun _ hne => if_neg hne.symm⟩
  · exact ⟨rfl, fun _ _ => rfl⟩

/-- What a step makes of a goal, and of the leases since the last reset of its attempts. -/
inductive GoalChange (parse : String → Option Uuid) (s : AutonomyStore) (a : AutonomyLabel)
    (s' : AutonomyStore) (goal : AutonomyGoalRow) : AutonomyGoalRow → Prop
  | same (leased : s'.leased goal.id = s.leased goal.id) : GoalChange parse s a s' goal goal
  | sync (input : SyncBundleSchedule) (context : ResolvedContext)
      (syncs : Syncs parse s a input context goal)
      (leased : s'.leased goal.id =
        if goal.retargeted (scheduleSpec input context) then 0 else s.leased goal.id) :
      GoalChange parse s a s' goal
        (goal.sync s.now (desiredStatus context.state) context.state (scheduleSpec input context))
  | retire (idle : goal.status ≠ .running) (leased : s'.leased goal.id = s.leased goal.id) :
      GoalChange parse s a s' goal goal.retire
  | recover (running : goal.status = .running) (leased : s'.leased goal.id = s.leased goal.id) :
      GoalChange parse s a s' goal (goal.recover s.now)
  | lease (call : LeaseCall) (leasable : s.leasable goal)
      (leased : s'.leased goal.id = s.leased goal.id + 1) :
      GoalChange parse s a s' goal (goal.lease s.now call.workerId call.leaseSeconds)
  | pin (policyRevision : Option String) (running : goal.status = .running)
      (leased : s'.leased goal.id = s.leased goal.id) :
      GoalChange parse s a s' goal (goal.pin policyRevision)
  | beat (leaseSeconds : ℤ) (checkpoint : Policy.Json) (running : goal.status = .running)
      (leased : s'.leased goal.id = s.leased goal.id) :
      GoalChange parse s a s' goal (goal.beat s.now leaseSeconds checkpoint)
  | finish (disposition : RunDisposition) (outcome verification : String)
      (running : goal.status = .running)
      (leased : s'.leased goal.id =
        if (finishStatuses disposition goal).2 = .ready then 0 else s.leased goal.id) :
      GoalChange parse s a s' goal
        (goal.finish s.now (finishStatuses disposition goal).2 outcome verification)
  | finishEvent (terminal : EventRunTerminal) (outcome summary : String)
      (running : goal.status = .running) (leased : s'.leased goal.id = s.leased goal.id) :
      GoalChange parse s a s' goal
        (goal.finishEvent s.now (eventStatuses terminal goal).2.1 outcome summary)
  | resume (actor : Spaces.SpaceActor) (expectedRevision : ℕ)
      (label : a = .resumeGoal actor goal.id expectedRevision)
      (stopped : goal.status = .paused ∨ goal.status = .safeStopped)
      (leased : s'.leased goal.id = 0) : GoalChange parse s a s' goal (goal.resume s.now)

/-- A goal is inserted, and everything else is as before. -/
structure Inserts (s s' : AutonomyStore) (goal : AutonomyGoalRow) : Prop where
  fresh : Fresh goal
  new : ∀ other ∈ s.goals, other.id ≠ goal.id
  mem : ∀ x, x ∈ s'.goals ↔ x ∈ s.goals ∨ x = goal
  runs : s'.runs = s.runs
  granted : s'.granted = s.granted
  log : s'.log = s.log

/-- The goals are those of before, each with a change, and no other goal is leased or reset. -/
def Rewrites (parse : String → Option Uuid) (s : AutonomyStore) (a : AutonomyLabel)
    (s' : AutonomyStore) : Prop :=
  ∃ f : AutonomyGoalRow → AutonomyGoalRow,
    (∀ goal ∈ s.goals, GoalChange parse s a s' goal (f goal)) ∧
      (∀ x, x ∈ s'.goals ↔ ∃ goal ∈ s.goals, f goal = x) ∧
        ∀ id, (∀ goal ∈ s.goals, goal.id ≠ id) → s'.leased id = s.leased id

theorem rewrites_of_same (hgoals : s'.goals = s.goals) (hlog : s'.log = s.log) :
    Rewrites parse s a s' := by
  have hleased : ∀ id, s'.leased id = s.leased id := leased_of_log hlog
  refine ⟨id, fun goal _ => .same (hleased _), fun x => ?_, fun id _ => hleased id⟩
  rw [hgoals]
  exact ⟨fun hx => ⟨x, hx, rfl⟩, by rintro ⟨goal, hgoal, rfl⟩; exact hgoal⟩

variable {f : AutonomyGoalRow → AutonomyGoalRow}

theorem rewrites_of_one
    {p : AutonomyGoalRow → Bool} (hgoal : goal ∈ s.goals) (hp : ∀ x ∈ s.goals, p x → x.id = goal.id)
    (hgoals : ∃ hf, s'.goals = s.goals.updateWhere p f hf)
    (hself : GoalChange parse s a s' goal (if p goal then f goal else goal))
    (hother : ∀ id, id ≠ goal.id → s'.leased id = s.leased id) : Rewrites parse s a s' := by
  refine ⟨fun x => if p x then f x else x, fun x hx => ?_, fun x => ?_,
    fun id hid => hother id (hid goal hgoal).symm⟩
  · by_cases hid : x.id = goal.id
    · obtain rfl := Table.eq_of_key hx hgoal hid
      exact hself
    · have hnot : p x = false := Bool.eq_false_iff.2 fun hpx => hid (hp x hx hpx)
      simp only [hnot, Bool.false_eq_true, if_false]
      exact .same (hother x.id hid)
  · obtain ⟨hf, hgoals⟩ := hgoals
    rw [hgoals, Table.mem_updateWhere]

theorem rewrites_of_key (hgoal : goal ∈ s.goals)
    (hgoals : ∃ hf, s'.goals = s.goals.updateWhere (fun row => row.id = goal.id) f hf)
    (hself : GoalChange parse s a s' goal (f goal))
    (hother : ∀ id, id ≠ goal.id → s'.leased id = s.leased id) : Rewrites parse s a s' :=
  rewrites_of_one hgoal (fun _ _ hx => by simpa using hx) hgoals (by simpa using hself) hother

section

variable (h : Effect parse s a s')
include h

theorem Effect.goals :
    Rewrites parse s a s' ∨ ∃ goal, Inserts s s' goal := by
  cases h with
  | same hsame | attach _ _ hsame => exact .inl (rewrites_of_same hsame.1 hsame.2.2.2)
  | insert goal goals hfresh hinserted hsame =>
    obtain ⟨hgoals, hruns, hgranted, hlog⟩ := hsame
    refine .inr ⟨goal, hfresh, ?_, fun x => ?_, hruns, hgranted, hlog⟩
    · exact Table.get_eq_none.1 (Table.insert_eq_some.1 hinserted).1
    · rw [hgoals]
      exact Table.mem_insert hinserted
  | sync input context goal hsyncs hchanges hsame =>
    obtain ⟨hgoals, -, -, hlog⟩ := hsame
    dsimp only at hgoals
    obtain ⟨hself, hother⟩ := leased_of_reset hlog
    exact .inl (rewrites_of_key (goalOfKey_eq_some hsyncs.found).1 ⟨_, hgoals⟩
      (.sync input context hsyncs hself) hother)
  | retire keys hsame =>
    obtain ⟨hgoals, -, -, hlog⟩ := hsame
    dsimp only [retireMissingBundleSchedules] at hgoals
    have hleased : ∀ id, s'.leased id = s.leased id := leased_of_log hlog
    refine .inl ⟨fun x => if retirable keys x then x.retire else x, fun x _ => ?_, fun x => ?_,
      fun id _ => hleased id⟩
    · dsimp only
      split_ifs with hretirable
      · simp only [retirable, Bool.and_eq_true, decide_eq_true_eq] at hretirable
        exact .retire hretirable.1.1.2 (hleased _)
      · exact .same (hleased _)
    · rw [hgoals]
      exact Table.mem_updateWhere
  | recover goal hgoal hrunning hsame =>
    obtain ⟨hgoals, -, -, hlog⟩ := hsame
    dsimp only at hgoals
    have hleased : ∀ id, s'.leased id = s.leased id := leased_of_log hlog
    exact .inl (rewrites_of_key hgoal ⟨_, hgoals⟩ (.recover hrunning (hleased _))
      fun id _ => hleased id)
  | lease call goal run runs hgoal hleasable hnew hinserted hsame =>
    obtain ⟨hgoals, -, -, hlog⟩ := hsame
    dsimp only [grant] at hgoals
    obtain ⟨hself, hother⟩ := leased_of_lease hlog
    exact .inl (rewrites_of_key hgoal ⟨_, hgoals⟩ (.lease call hleasable hself) hother)
  | pin lease workerId policyRevision contextSnapshot goal howned hgoalId hsame =>
    obtain ⟨hgoals, -, -, hlog⟩ := hsame
    dsimp only at hgoals
    have hleased : ∀ id, s'.leased id = s.leased id := leased_of_log hlog
    refine .inl (rewrites_of_one howned.mem ?_ ⟨_, hgoals⟩ ?_ fun id _ => hleased id)
    · intro x _ hx
      simp only [isGoalOfLease, Bool.and_eq_true, decide_eq_true_eq] at hx
      exact hx.2.trans hgoalId.symm
    · split_ifs
      · exact .pin policyRevision howned.running (hleased _)
      · exact .same (hleased _)
  | beat lease workerId leaseSeconds checkpoint goal howned hsame =>
    obtain ⟨hgoals, -, -, hlog⟩ := hsame
    dsimp only at hgoals
    have hleased : ∀ id, s'.leased id = s.leased id := leased_of_log hlog
    exact .inl (rewrites_of_key howned.mem ⟨_, hgoals⟩
      (.beat leaseSeconds checkpoint howned.running (hleased _)) fun id _ => hleased id)
  | finish workerId finish runId goal howned hsame =>
    obtain ⟨hgoals, -, -, hlog⟩ := hsame
    dsimp only at hgoals
    obtain ⟨hself, hother⟩ := leased_of_reset hlog
    exact .inl (rewrites_of_key howned.mem ⟨_, hgoals⟩
      (.finish finish.disposition _ _ howned.running hself) hother)
  | finishEvent workerId terminal summary evidenceRefs runId goal howned hsame =>
    obtain ⟨hgoals, -, -, hlog⟩ := hsame
    dsimp only at hgoals
    have hleased : ∀ id, s'.leased id = s.leased id := leased_of_log hlog
    exact .inl (rewrites_of_key howned.mem ⟨_, hgoals⟩
      (.finishEvent terminal _ _ howned.running (hleased _)) fun id _ => hleased id)
  | resume actor expectedRevision goal hgoal hlabel hstopped hsame =>
    obtain ⟨hgoals, -, -, hlog⟩ := hsame
    dsimp only at hgoals
    have hlog : s'.log = if True then .reset goal.id :: s.log else s.log := by
      rw [hlog, if_pos trivial]
    obtain ⟨hself, hother⟩ := leased_of_reset hlog
    rw [if_pos trivial] at hself
    exact .inl (rewrites_of_key hgoal ⟨_, hgoals⟩
      (.resume actor expectedRevision hlabel hstopped hself) hother)

theorem Effect.goal_stays (hgoal : goal ∈ s.goals) :
    ∃ goal' ∈ s'.goals, GoalChange parse s a s' goal goal' := by
  rcases h.goals with ⟨f, hchange, hmem, -⟩ | ⟨new, hinserts⟩
  · exact ⟨f goal, (hmem _).2 ⟨goal, hgoal, rfl⟩, hchange goal hgoal⟩
  · exact ⟨goal, (hinserts.mem _).2 (.inl hgoal), .same (leased_of_log hinserts.log _)⟩

theorem Effect.goal_origin {goal' : AutonomyGoalRow}
    (hgoal' : goal' ∈ s'.goals) :
    (∃ goal ∈ s.goals, GoalChange parse s a s' goal goal') ∨ Inserts s s' goal' := by
  rcases h.goals with ⟨f, hchange, hmem, -⟩ | ⟨new, hinserts⟩
  · obtain ⟨goal, hgoal, rfl⟩ := (hmem _).1 hgoal'
    exact .inl ⟨goal, hgoal, hchange goal hgoal⟩
  · rcases (hinserts.mem _).1 hgoal' with hgoal | rfl
    · exact .inl ⟨goal', hgoal, .same (leased_of_log hinserts.log _)⟩
    · exact .inr hinserts

theorem Effect.leased_of_unknown {id : Uuid}
    (hunknown : ∀ goal ∈ s.goals, goal.id ≠ id) : s'.leased id = s.leased id := by
  rcases h.goals with ⟨f, -, -, hleased⟩ | ⟨new, hinserts⟩
  · exact hleased id hunknown
  · exact leased_of_log hinserts.log id

end

theorem GoalChange.fixed {goal goal' : AutonomyGoalRow} (h : GoalChange parse s a s' goal goal') :
    goal'.id = goal.id ∧ goal'.tenantId = goal.tenantId ∧ goal'.goalKey = goal.goalKey := by
  cases h <;> exact ⟨rfl, rfl, rfl⟩

/-! ## What becomes of a run -/

structure RunChange (run run' : AutonomyRunRow) : Prop where
  id : run'.id = run.id
  tenantId : run'.tenantId = run.tenantId
  goalId : run'.goalId = run.goalId
  attempt : run'.attempt = run.attempt
  settled : run.status ≠ .running → run'.status = run.status

theorem RunChange.refl (run : AutonomyRunRow) : RunChange run run :=
  ⟨rfl, rfl, rfl, rfl, fun _ => rfl⟩

def RunsChange (s s' : AutonomyStore) : Prop :=
  ∃ f : AutonomyRunRow → AutonomyRunRow, (∀ run ∈ s.runs, RunChange run (f run)) ∧
    ∀ x, x ∈ s'.runs ↔ ∃ run ∈ s.runs, f run = x

structure Starts (s s' : AutonomyStore) (goal : AutonomyGoalRow) (call : LeaseCall)
    (run : AutonomyRunRow) : Prop where
  mem : goal ∈ s.goals
  leasable : s.leasable goal
  new : s.newRun (goal.lease s.now call.workerId call.leaseSeconds) call = .ok run
  runs : ∀ x, x ∈ s'.runs ↔ x ∈ s.runs ∨ x = run
  granted : s'.granted = ⟨goal.lease s.now call.workerId call.leaseSeconds, run⟩ :: s.granted

theorem runsChange_of_same (hruns : s'.runs = s.runs) : RunsChange s s' := by
  refine ⟨id, fun run _ => .refl run, fun x => ?_⟩
  rw [hruns]
  exact ⟨fun hx => ⟨x, hx, rfl⟩, by rintro ⟨run, hrun, rfl⟩; exact hrun⟩

theorem runsChange_of_updateWhere {p : AutonomyRunRow → Bool} {f : AutonomyRunRow → AutonomyRunRow}
    (hruns : ∃ hf, s'.runs = s.runs.updateWhere p f hf)
    (hf : ∀ run, p run → RunChange run (f run)) : RunsChange s s' := by
  refine ⟨fun run => if p run then f run else run, fun run _ => ?_, fun x => ?_⟩
  · dsimp only
    split_ifs with hp
    · exact hf run hp
    · exact .refl run
  · obtain ⟨hid, hruns⟩ := hruns
    rw [hruns, Table.mem_updateWhere]

variable {run : AutonomyRunRow}

theorem isActiveRun_running {runId : Uuid} (h : isActiveRun goal runId run) :
    run.tenantId = goal.tenantId ∧ run.goalId = goal.id ∧ run.id = runId ∧
      run.status = .running := by
  simpa only [isActiveRun, Bool.and_eq_true, decide_eq_true_eq, and_assoc] using h

theorem Effect.runs (h : Effect parse s a s') :
    (RunsChange s s' ∧ s'.granted = s.granted) ∨ ∃ goal call run, Starts s s' goal call run := by
  cases h with
  | same hsame | insert _ _ _ _ hsame | sync _ _ _ _ _ hsame | retire _ hsame
  | resume _ _ _ _ _ _ hsame => exact .inl ⟨runsChange_of_same hsame.2.1, hsame.2.2.1⟩
  | recover goal hgoal hrunning hsame =>
    obtain ⟨-, hruns, hgranted, -⟩ := hsame
    dsimp only at hruns
    refine .inl ⟨runsChange_of_updateWhere ⟨_, hruns⟩ fun run hp => ?_, hgranted⟩
    simp only [Bool.and_eq_true, decide_eq_true_eq] at hp
    exact ⟨rfl, rfl, rfl, rfl, fun hno => absurd hp.2 hno⟩
  | lease call goal run runs hgoal hleasable hnew hinserted hsame =>
    obtain ⟨-, hruns, hgranted, -⟩ := hsame
    refine .inr ⟨goal, call, run, hgoal, hleasable, hnew, fun x => ?_, hgranted⟩
    rw [hruns]
    exact Table.mem_insert hinserted
  | pin _ _ _ _ _ _ _ hsame | attach _ _ hsame | beat _ _ _ _ _ _ hsame =>
    obtain ⟨-, hruns, hgranted, -⟩ := hsame
    dsimp only at hruns
    refine .inl ⟨runsChange_of_updateWhere ⟨_, hruns⟩ fun _ _ => ?_, hgranted⟩
    exact ⟨rfl, rfl, rfl, rfl, fun _ => rfl⟩
  | finish _ _ _ _ _ hsame | finishEvent _ _ _ _ _ _ _ hsame =>
    obtain ⟨-, hruns, hgranted, -⟩ := hsame
    dsimp only at hruns
    exact .inl ⟨runsChange_of_updateWhere ⟨_, hruns⟩ fun run hp =>
      ⟨rfl, rfl, rfl, rfl, fun hno => absurd (isActiveRun_running hp).2.2.2 hno⟩, hgranted⟩

theorem Effect.run_stays (h : Effect parse s a s') (hrun : run ∈ s.runs) :
    ∃ run' ∈ s'.runs, RunChange run run' := by
  rcases h.runs with ⟨⟨f, hchange, hmem⟩, -⟩ | ⟨goal, call, new, hstarts⟩
  · exact ⟨f run, (hmem _).2 ⟨run, hrun, rfl⟩, hchange run hrun⟩
  · exact ⟨run, (hstarts.runs _).2 (.inl hrun), .refl run⟩

theorem Effect.run_origin (h : Effect parse s a s') {run' : AutonomyRunRow}
    (hrun' : run' ∈ s'.runs) :
    (∃ run ∈ s.runs, RunChange run run') ∨ ∃ goal call, Starts s s' goal call run' := by
  rcases h.runs with ⟨⟨f, hchange, hmem⟩, -⟩ | ⟨goal, call, new, hstarts⟩
  · obtain ⟨run, hrun, rfl⟩ := (hmem _).1 hrun'
    exact .inl ⟨run, hrun, hchange run hrun⟩
  · rcases (hstarts.runs _).1 hrun' with hrun | rfl
    · exact .inl ⟨run', hrun, .refl run'⟩
    · exact .inr ⟨goal, call, hstarts⟩

theorem newRun_ok {call : LeaseCall} (h : s.newRun goal call = .ok run) :
    run.tenantId = goal.tenantId ∧ run.goalId = goal.id ∧ run.attempt = goal.attempt ∧
      run.status = .running := by
  unfold newRun at h
  split at h
  · split at h
    · cases h
    · split_ifs at h
      obtain rfl := ok.inj h
      exact ⟨rfl, rfl, rfl, rfl⟩
  · cases h

end Gadgetron.Autonomy
