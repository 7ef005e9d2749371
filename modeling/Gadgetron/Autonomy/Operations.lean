import Gadgetron.Autonomy.Store

/-!
# The store of autonomous goals

The functions on the goals and their runs, each of which is one step; of `recover_expired_leases`,
which has a transaction for every goal, each round is a step.
-/

namespace Gadgetron.Autonomy

open Lib Policy Spaces

structure LeaseCall where
  workerId : String
  leaseSeconds : ℤ
  locked : List Uuid
  newRunId : Uuid

namespace AutonomyStore

/-- The row that the unique index on `(tenant_id, goal_key)` has. -/
def goalOfKey (s : AutonomyStore) (tenantId : Uuid) (goalKey : String) : Option AutonomyGoalRow :=
  s.goals.rows.find? fun goal => goal.tenantId = tenantId && goal.goalKey = goalKey

def scheduleSpec (input : SyncBundleSchedule) (context : ResolvedContext) : GoalSpec where
  goal := input.goal
  ownerBundleId := input.ownerBundleId
  recipeId := input.recipeId
  packageManifestSha256 := input.packageManifestSha256
  targetKind := input.targetKind
  targetId := input.targetId
  targetRevision := input.targetRevision
  targetLabel := input.targetLabel
  actingSpaceId := context.spaceId
  requestedByUserId := context.requestedBy
  serviceActorUserId := context.serviceActor
  effectiveRole := context.effectiveRole
  intervalSeconds := input.interval
  maxWallSeconds := input.maxWallTime
  maxAttempts := input.maxAttempts

def desiredStatus (state : ContextState) : GoalStatus :=
  if state = .ready then .ready else .contextRequired

/-- The context of a schedule whose goal is there already, or is not. -/
def scheduleContext (parse : String → Option Uuid) (s : AutonomyStore) (input : SyncBundleSchedule)
    (service : ServiceAgent) : Except AutonomyError (Registry × ResolvedContext) :=
  let existing := s.goalOfKey input.tenantId input.goalKey
  let allowServiceGrant := existing.all fun goal =>
    goal.spec.serviceActorUserId.isNone || goal.spec.actingSpaceId ≠ input.actingSpaceId
  let existingServiceActor := existing.bind (·.spec.serviceActorUserId)
  resolveContext parse s.access input existingServiceActor allowServiceGrant service

/-- The upsert of `sync_bundle_schedule`; an event has to stay the only one of its kind. -/
def upsertSchedule (s : AutonomyStore) (input : SyncBundleSchedule) (context : ResolvedContext)
    (newId : Uuid) : Except AutonomyError (AutonomyStore × AutonomyGoalRow) :=
  let desired := desiredStatus context.state
  let spec := scheduleSpec input context
  match s.goalOfKey input.tenantId input.goalKey with
  | none =>
    let goal := AutonomyGoalRow.ofSchedule newId s.now input desired context.state spec
    match s.goals.insert goal with
    | none => .error (.database .uniqueViolation)
    | some goals => .ok ({ s with goals }, goal)
  | some goal =>
    if goal.syncChanges desired context.state spec then
      let synced := goal.sync s.now desired context.state spec
      if synced.dedupKey.isSome && s.goals.rows.any fun other =>
          other.id ≠ goal.id && other.dedupKey = synced.dedupKey then
        .error (.database .uniqueViolation)
      else
        .ok
          ({ s with
              goals := s.goals.updateWhere (fun row => row.id = goal.id)
                (.sync s.now desired context.state spec)
              log := if goal.retargeted spec then .reset goal.id :: s.log else s.log },
            synced)
    else .ok (s, goal)

def syncBundleSchedule (parse : String → Option Uuid) (s : AutonomyStore)
    (input : SyncBundleSchedule) (service : ServiceAgent) (newId : Uuid) :
    Except AutonomyError (AutonomyStore × AutonomyGoalRow) := do
  validateSchedule input
  let (access, context) ← scheduleContext parse s input service
  { s with access }.upsertSchedule input context newId

/-- `enqueue_bundle_event_in_transaction`; `digest` is the hash of the identity in hexadecimal. -/
def enqueueBundleEvent (digest : List String → String) (s : AutonomyStore)
    (input : EnqueueBundleEvent) (newId : Uuid) :
    Except AutonomyError (AutonomyStore × AutonomyGoalRow) := do
  validateBundleEvent input
  let goalKey := "bundle-event:" ++ digest [input.eventKind, input.subjectBundleId,
    input.subjectKind, input.subjectId, input.subjectRevision, input.ownerBundleId,
    input.agentRoleId]
  let goal := AutonomyGoalRow.ofEvent newId s.now goalKey input
  let same := s.goals.rows.find? fun other => other.dedupKey = goal.dedupKey
  if (s.goalOfKey input.tenantId goalKey).isNone && same.isNone && (s.goals.get newId).isNone then
    match s.goals.insert goal with
    | none => .error (.database .uniqueViolation)
    | some goals => .ok ({ s with goals }, goal)
  else
    match same with
    | none => .error (.database .rowNotFound)
    | some goal => .ok (s, goal)

/-- The `WHERE` of `retire_missing_bundle_schedules`. -/
def retirable (visibleGoalKeys : List String) (goal : AutonomyGoalRow) : Bool :=
  goal.sourceKind = .bundleSchedule && goal.status ≠ .running && goal.status ≠ .retired &&
    !visibleGoalKeys.contains goal.goalKey

def retireMissingBundleSchedules (s : AutonomyStore) (visibleGoalKeys : List String) :
    AutonomyStore :=
  { s with goals := s.goals.updateWhere (retirable visibleGoalKeys) .retire }

/-- A round of `recover_expired_leases`; `locked` are the rows that other transactions have
locked. -/
def recoverExpiredLease (s : AutonomyStore) (locked : List Uuid) : AutonomyStore :=
  match s.goals.first AutonomyGoalRow.recoverOrder fun goal =>
      goal.status = .running && goal.expired s.now && !locked.contains goal.id with
  | none => s
  | some goal =>
    { s with
      runs := s.runs.updateWhere
        (fun run => run.tenantId = goal.tenantId && run.goalId = goal.id && run.status = .running)
        (.interrupt s.now)
      goals := s.goals.updateWhere (fun row => row.id = goal.id) (.recover s.now) }

/-- The `WHERE` of `lease_next`. -/
def leasable (s : AutonomyStore) (goal : AutonomyGoalRow) : Bool :=
  (goal.status = .ready || goal.status = .retryWait) && goal.contextState = .ready &&
    goal.nextRunAt ≤ s.now

/-- The goal that `lease_next` takes. -/
def candidate (s : AutonomyStore) (locked : List Uuid) : Option AutonomyGoalRow :=
  s.goals.first AutonomyGoalRow.leaseOrder fun goal => s.leasable goal && !locked.contains goal.id

/-- The run that `lease_next` inserts for the goal. -/
def newRun (s : AutonomyStore) (goal : AutonomyGoalRow) (call : LeaseCall) :
    Except AutonomyError AutonomyRunRow :=
  match goal.spec.actingSpaceId, goal.spec.requestedByUserId, goal.spec.serviceActorUserId,
      goal.spec.effectiveRole with
  | some spaceId, some requestedBy, some serviceActor, some role =>
    match (s.access.spaces spaceId).filter fun space => space.tenantId = goal.tenantId with
    | none => .error (.database .rowNotFound)
    | some _ =>
      if goal.attempt < 1 ∨ 10 < goal.attempt then .error (.database .attemptCheck)
      else if role = .viewer then .error (.database .effectiveRoleCheck)
      else
        .ok
          { id := call.newRunId
            tenantId := goal.tenantId
            goalId := goal.id
            attempt := goal.attempt
            status := .running
            workerId := call.workerId
            actingSpaceId := spaceId
            actingSpaceRevision := s.spaceRevisions spaceId
            requestedByUserId := requestedBy
            serviceActorUserId := serviceActor
            effectiveRole := role
            packageManifestSha256 := goal.spec.packageManifestSha256
            targetRevision := goal.spec.targetRevision
            agentProfileSnapshot := (goal.event.map (·.agentProfileSnapshot)).getD (.object [])
            policyRevision := none
            contextSnapshot := .object []
            checkpoint := .object []
            runtimeJobId := none
            outcome := none
            verificationState := none
            verificationSummary := none
            evidenceRefs := []
            startedAt := s.now
            finishedAt := none }
  | _, _, _, _ => .error (.database .rowNotFound)

def hasActiveRun (s : AutonomyStore) (goalId : Uuid) : Bool :=
  s.runs.rows.any fun run => run.goalId = goalId && run.status = .running

def grant (s : AutonomyStore) (goal : AutonomyGoalRow) (call : LeaseCall) (run : AutonomyRunRow)
    (runs : Table AutonomyRunRow.id) : AutonomyStore :=
  { s with
    goals := s.goals.updateWhere (fun row => row.id = goal.id)
      (.lease s.now call.workerId call.leaseSeconds)
    runs
    granted := ⟨goal.lease s.now call.workerId call.leaseSeconds, run⟩ :: s.granted
    log := .leased goal.id :: s.log }

def leaseNext (s : AutonomyStore) (call : LeaseCall) :
    Except AutonomyError (AutonomyStore × Option AutonomyLease) := do
  validateWorker call.workerId call.leaseSeconds
  match s.candidate call.locked with
  | none => .ok (s, none)
  | some goal =>
    let run ← s.newRun (goal.lease s.now call.workerId call.leaseSeconds) call
    if s.hasActiveRun goal.id then .error (.database .uniqueViolation)
    else
      match s.runs.insert run with
      | none => .error (.database .uniqueViolation)
      | some runs =>
        .ok (s.grant goal call run runs,
          some ⟨goal.lease s.now call.workerId call.leaseSeconds, run⟩)

/-! ## The operations on a lease -/

def getGoal (s : AutonomyStore) (tenantId goalId : Uuid) : Except AutonomyError AutonomyGoalRow :=
  match (s.goals.get goalId).filter fun goal => goal.tenantId = tenantId with
  | none => .error .notFound
  | some goal => .ok goal

def requireContributor (s : AutonomyStore) (tenantId userId spaceId : Uuid) :
    Except AutonomyError KnowledgeSpaceRow :=
  (s.access.requireRole ⟨tenantId, userId⟩ spaceId .contributor true).mapError spaceError

def validateLeaseContext (s : AutonomyStore) (lease : AutonomyLease) :
    Except AutonomyError Unit := do
  let current ← s.getGoal lease.goal.tenantId lease.goal.id
  if current.status ≠ .running ∨ current.leaseOwner ≠ lease.goal.leaseOwner ∨
      !current.unexpired s.now then
    .error .leaseLost
  else if current.contextState ≠ .ready ∨
      current.spec.actingSpaceId ≠ some lease.run.actingSpaceId ∨
      current.spec.requestedByUserId ≠ some lease.run.requestedByUserId ∨
      current.spec.serviceActorUserId ≠ some lease.run.serviceActorUserId then
    .error .contextForbidden
  else if current.spec.packageManifestSha256 ≠ lease.run.packageManifestSha256 ∨
      current.spec.targetRevision ≠ lease.run.targetRevision then
    .error .executionSnapshotChanged
  else
    let space ← s.requireContributor lease.goal.tenantId lease.run.requestedByUserId
      lease.run.actingSpaceId
    if (space.kind ≠ .project ∧ space.kind ≠ .team) ∨
        s.spaceRevisions lease.run.actingSpaceId ≠ lease.run.actingSpaceRevision then
      .error .contextForbidden
    else
      let _ ← s.requireContributor lease.goal.tenantId lease.run.serviceActorUserId
        lease.run.actingSpaceId
      .ok ()

def assertOwnedLease (s : AutonomyStore) (goalId runId : Uuid) (workerId : String) :
    Except AutonomyError AutonomyGoalRow :=
  match (s.goals.get goalId).filter fun goal =>
      goal.owned s.now workerId && s.runs.rows.any fun run =>
        run.goalId = goal.id && run.id = runId && run.status = .running with
  | none => .error .leaseLost
  | some goal => .ok goal

def runOfLease (s : AutonomyStore) (lease : AutonomyLease) : Option AutonomyRunRow :=
  (s.runs.get lease.run.id).filter fun run =>
    run.tenantId = lease.goal.tenantId && run.goalId = lease.goal.id

/-- The goal of a lease, in the `WHERE` of an `UPDATE`. -/
def isGoalOfLease (lease : AutonomyLease) (goal : AutonomyGoalRow) : Bool :=
  goal.tenantId = lease.goal.tenantId && goal.id = lease.goal.id

/-- The run of a lease while it is running, in the `WHERE` of an `UPDATE`. -/
def isActiveRunOfLease (lease : AutonomyLease) (run : AutonomyRunRow) : Bool :=
  run.tenantId = lease.goal.tenantId && run.goalId = lease.goal.id && run.id = lease.run.id &&
    run.status = .running

def pinRunContext (s : AutonomyStore) (lease : AutonomyLease) (workerId : String)
    (policyRevision : Option String) (contextSnapshot : Json) :
    Except AutonomyError (AutonomyStore × AutonomyRunRow) := do
  require (Jobs.isObject contextSnapshot &&
      policyRevision.all fun value => value.utf8ByteSize ≤ 256)
    "policy or cited context snapshot is invalid"
  let _ ← s.assertOwnedLease lease.goal.id lease.run.id workerId
  match s.runOfLease lease with
  | none => .error (.database .rowNotFound)
  | some run =>
    .ok
      ({ s with
          runs := s.runs.updateWhere (fun row => row.id = run.id)
            (.pin policyRevision contextSnapshot)
          goals := s.goals.updateWhere (isGoalOfLease lease) (.pin policyRevision) },
        run.pin policyRevision contextSnapshot)

def attachRuntimeJob (s : AutonomyStore) (lease : AutonomyLease) (workerId runtimeJobId : String) :
    Except AutonomyError (AutonomyStore × Unit) := do
  require (bounded runtimeJobId 256) "runtime job id is outside the supported bounds"
  match s.runOfLease lease, (s.goals.get lease.goal.id).filter (·.owned s.now workerId) with
  | some run, some _ =>
    .ok
      ({ s with
          runs := s.runs.updateWhere (fun row => row.id = run.id) (.attach runtimeJobId) }, ())
  | _, _ => .error .leaseLost

def heartbeat (s : AutonomyStore) (lease : AutonomyLease) (workerId : String) (leaseSeconds : ℤ)
    (checkpoint : Json) : Except AutonomyError (AutonomyStore × Unit) := do
  validateWorker workerId leaseSeconds
  require (Jobs.isObject checkpoint) "autonomy checkpoint must be an object"
  match (s.goals.get lease.goal.id).filter fun goal =>
      goal.tenantId = lease.goal.tenantId && goal.owned s.now workerId with
  | none => .error .leaseLost
  | some goal =>
    .ok
      ({ s with
          goals := s.goals.updateWhere (fun row => row.id = goal.id)
            (.beat s.now leaseSeconds checkpoint)
          runs := s.runs.updateWhere (isActiveRunOfLease lease) (.beat checkpoint) }, ())

/-- The run in the `WHERE` of `finish_run` and `finish_event_run`. -/
def isActiveRun (goal : AutonomyGoalRow) (runId : Uuid) (run : AutonomyRunRow) : Bool :=
  run.tenantId = goal.tenantId && run.goalId = goal.id && run.id = runId && run.status = .running

def finishStatuses (disposition : RunDisposition) (current : AutonomyGoalRow) :
    RunStatus × GoalStatus :=
  let (runStatus, goalStatus) :=
    match disposition with
    | .succeeded => (RunStatus.succeeded, GoalStatus.ready)
    | .retryableFailure =>
      if current.attempt < current.spec.maxAttempts then (.failed, .retryWait)
      else (.safeStopped, .safeStopped)
    | .contextRequired => (.safeStopped, .contextRequired)
    | .safeStopped => (.safeStopped, .safeStopped)
  (runStatus, if current.contextState ≠ .ready then .contextRequired else goalStatus)

def finishRun (s : AutonomyStore) (lease : AutonomyLease) (workerId : String)
    (finish : RunFinish) : Except AutonomyError (AutonomyStore × AutonomyGoalRow) := do
  validateFinish finish
  let current ← s.assertOwnedLease lease.goal.id lease.run.id workerId
  let (runStatus, goalStatus) := finishStatuses finish.disposition current
  .ok
    ({ s with
        runs := s.runs.updateWhere (isActiveRun current lease.run.id)
          (.finish s.now runStatus finish.outcome finish.verificationState
            finish.verificationSummary finish.evidenceRefs)
        goals := s.goals.updateWhere (fun row => row.id = current.id)
          (.finish s.now goalStatus finish.outcome finish.verificationSummary)
        log := if goalStatus = .ready then .reset current.id :: s.log else s.log },
      current.finish s.now goalStatus finish.outcome finish.verificationSummary)

def eventStatuses (terminal : EventRunTerminal) (current : AutonomyGoalRow) :
    RunStatus × GoalStatus × String × String :=
  match terminal with
  | .succeeded => (.succeeded, .succeeded, "succeeded", "verified")
  | .providerFailure =>
    if current.attempt < current.spec.maxAttempts then
      (.failed, .retryWait, "provider_retry", "failed")
    else (.failedProvider, .failedProvider, "failed_provider", "failed")
  | .policyFailure => (.failedPolicy, .failedPolicy, "failed_policy", "failed")
  | .staleSubject => (.staleSubject, .staleSubject, "stale_subject", "failed")

def finishEventRun (s : AutonomyStore) (lease : AutonomyLease) (workerId : String)
    (terminal : EventRunTerminal) (summary : String) (resultHash : Option String) :
    Except AutonomyError (AutonomyStore × AutonomyGoalRow) := do
  require (bounded summary 2000 && resultHash.all isSha256 &&
      decide (terminal = .succeeded) == resultHash.isSome)
    "event terminal summary or result receipt is invalid"
  let current ← s.assertOwnedLease lease.goal.id lease.run.id workerId
  require (current.sourceKind = .bundleEvent)
    "only a Bundle event goal may use event terminalization"
  let (runStatus, goalStatus, outcome, verificationState) := eventStatuses terminal current
  let evidenceRefs := resultHash.toList.map fun hash => "event-result-sha256:" ++ hash
  .ok
    ({ s with
        runs := s.runs.updateWhere (isActiveRun current lease.run.id)
          (.finish s.now runStatus outcome verificationState summary evidenceRefs)
        goals := s.goals.updateWhere (fun row => row.id = current.id)
          (.finishEvent s.now goalStatus outcome summary) },
      current.finishEvent s.now goalStatus outcome summary)

def resumeGoal (s : AutonomyStore) (actor : SpaceActor) (goalId : Uuid) (expectedRevision : ℕ) :
    Except AutonomyError (AutonomyStore × AutonomyGoalRow) := do
  let current ← s.getGoal actor.tenantId goalId
  match current.spec.actingSpaceId with
  | none => .error .contextForbidden
  | some spaceId =>
    let _ ← (s.access.requireRole actor spaceId .manager true).mapError spaceError
    if current.revision = expectedRevision ∧ current.contextState = .ready ∧
        (current.status = .paused ∨ current.status = .safeStopped) then
      .ok
        ({ s with
            goals := s.goals.updateWhere (fun row => row.id = current.id) (.resume s.now)
            log := .reset current.id :: s.log },
          current.resume s.now)
    else .error .conflict

end AutonomyStore

/-! ## The store under all its callers -/

inductive LeaseOperation
  | validateLeaseContext
  | pinRunContext (workerId : String) (policyRevision : Option String) (contextSnapshot : Json)
  | attachRuntimeJob (workerId runtimeJobId : String)
  | heartbeat (workerId : String) (leaseSeconds : ℤ) (checkpoint : Json)
  | finishRun (workerId : String) (finish : RunFinish)
  | finishEventRun (workerId : String) (terminal : EventRunTerminal) (summary : String)
      (resultHash : Option String)

inductive AutonomyLabel
  | access (registry : Registry) (spaceRevisions : Uuid → ℤ)
  | tick (elapsed : ℕ)
  | syncBundleSchedule (input : SyncBundleSchedule) (service : ServiceAgent) (newId : Uuid)
  | enqueueBundleEvent (input : EnqueueBundleEvent) (newId : Uuid)
  | retireMissingBundleSchedules (visibleGoalKeys : List String)
  | recoverExpiredLease (locked : List Uuid)
  | leaseNext (call : LeaseCall)
  | withLease (lease : AutonomyLease) (operation : LeaseOperation)
  | resumeGoal (actor : SpaceActor) (goalId : Uuid) (expectedRevision : ℕ)

namespace AutonomyStore

def dropValue {α : Type} (result : Except AutonomyError (AutonomyStore × α)) :
    Except AutonomyError AutonomyStore :=
  result.map (·.1)

def perform (s : AutonomyStore) (lease : AutonomyLease) :
    LeaseOperation → Except AutonomyError AutonomyStore
  | .validateLeaseContext => (s.validateLeaseContext lease).map fun () => s
  | .pinRunContext workerId policyRevision contextSnapshot =>
    dropValue (s.pinRunContext lease workerId policyRevision contextSnapshot)
  | .attachRuntimeJob workerId runtimeJobId =>
    dropValue (s.attachRuntimeJob lease workerId runtimeJobId)
  | .heartbeat workerId leaseSeconds checkpoint =>
    dropValue (s.heartbeat lease workerId leaseSeconds checkpoint)
  | .finishRun workerId finish => dropValue (s.finishRun lease workerId finish)
  | .finishEventRun workerId terminal summary resultHash =>
    dropValue (s.finishEventRun lease workerId terminal summary resultHash)

/-- The store after a call, which is the one before it if the call fails. -/
def after (s : AutonomyStore) (result : Except AutonomyError AutonomyStore) : AutonomyStore :=
  match result with
  | .ok s' => s'
  | .error _ => s

end AutonomyStore

section

variable (parse : String → Option Uuid) (digest : List String → String)

def AutonomyStore.call (s : AutonomyStore) : AutonomyLabel → Except AutonomyError AutonomyStore
  | .access registry spaceRevisions =>
    .ok { s with access := registry, spaceRevisions }
  | .tick elapsed => .ok { s with now := s.now + elapsed }
  | .syncBundleSchedule input service newId =>
    AutonomyStore.dropValue (AutonomyStore.syncBundleSchedule parse s input service newId)
  | .enqueueBundleEvent input newId =>
    AutonomyStore.dropValue (AutonomyStore.enqueueBundleEvent digest s input newId)
  | .retireMissingBundleSchedules visibleGoalKeys =>
    .ok (s.retireMissingBundleSchedules visibleGoalKeys)
  | .recoverExpiredLease locked => .ok (s.recoverExpiredLease locked)
  | .leaseNext call => AutonomyStore.dropValue (s.leaseNext call)
  | .withLease lease operation => s.perform lease operation
  | .resumeGoal actor goalId expectedRevision =>
    AutonomyStore.dropValue (s.resumeGoal actor goalId expectedRevision)

abbrev autonomyMachine : Machine AutonomyStore AutonomyLabel where
  step s a := some (s.after (s.call parse digest a))

end

end Gadgetron.Autonomy
