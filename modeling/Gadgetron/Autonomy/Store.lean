import Gadgetron.Jobs.Store

/-!
# Autonomous goals

The rows of `autonomy_goals` and `autonomy_goal_runs`, the checks of the inputs, the context of a
schedule, and what the statements write.  Instants are in microseconds.
-/

namespace Gadgetron.Autonomy

open Lib Policy Spaces

inductive SourceKind
  | bundleSchedule
  | bundleEvent
  | personal
  | manager
  deriving DecidableEq

inductive GoalStatus
  | contextRequired
  | ready
  | running
  | retryWait
  | paused
  | retired
  | safeStopped
  | succeeded
  | failedProvider
  | failedPolicy
  | staleSubject
  deriving DecidableEq

inductive ContextState
  | ready
  | missing
  | unsupportedSpace
  | actorForbidden
  | serviceGrantRequired
  deriving DecidableEq

inductive RunStatus
  | running
  | succeeded
  | failed
  | interrupted
  | safeStopped
  | failedProvider
  | failedPolicy
  | staleSubject
  deriving DecidableEq

/-- The columns of a goal that its schedule or event sets, the context state apart. -/
structure GoalSpec where
  (goal ownerBundleId recipeId packageManifestSha256 targetKind targetId targetRevision : String)
  targetLabel : String
  (actingSpaceId requestedByUserId serviceActorUserId : Option Uuid)
  effectiveRole : Option SpaceRole
  (intervalSeconds maxWallSeconds : ℤ)
  maxAttempts : ℕ
  deriving DecidableEq

structure EventColumns where
  (eventKind subjectBundleId subjectKind : String)
  eventPayload : Json
  (agentRoleId resultGadget : String)
  agentProfileSnapshot : Json

structure AutonomyGoalRow where
  (id tenantId : Uuid)
  goalKey : String
  sourceKind : SourceKind
  status : GoalStatus
  contextState : ContextState
  spec : GoalSpec
  event : Option EventColumns
  lastPolicyRevision : Option String
  attempt : ℕ
  nextRunAt : ℤ
  leaseOwner : Option String
  (leaseExpiresAt heartbeatAt : Option ℤ)
  checkpoint : Json
  (lastOutcome lastVerification : Option String)
  (lastStartedAt lastFinishedAt : Option ℤ)
  revision : ℕ
  createdAt : ℤ

structure AutonomyRunRow where
  (id tenantId goalId : Uuid)
  attempt : ℕ
  status : RunStatus
  workerId : String
  actingSpaceId : Uuid
  actingSpaceRevision : ℤ
  (requestedByUserId serviceActorUserId : Uuid)
  effectiveRole : SpaceRole
  (packageManifestSha256 targetRevision : String)
  agentProfileSnapshot : Json
  policyRevision : Option String
  (contextSnapshot checkpoint : Json)
  (runtimeJobId outcome verificationState verificationSummary : Option String)
  evidenceRefs : List String
  startedAt : ℤ
  finishedAt : Option ℤ

structure AutonomyLease where
  goal : AutonomyGoalRow
  run : AutonomyRunRow

inductive DatabaseError
  | uniqueViolation
  | attemptCheck
  | effectiveRoleCheck
  | rowNotFound
  | unavailable
  deriving DecidableEq

inductive AutonomyError
  | invalidInput (reason : String)
  | notFound
  | leaseLost
  | conflict
  | contextForbidden
  | executionSnapshotChanged
  | database (error : DatabaseError)
  | servicePrincipal (error : String)
  deriving DecidableEq

inductive GoalEvent
  | leased (goalId : Uuid)
  | reset (goalId : Uuid)

structure AutonomyStore where
  access : Registry
  spaceRevisions : Uuid → ℤ
  now : ℤ
  goals : Table AutonomyGoalRow.id
  runs : Table AutonomyRunRow.id
  granted : List AutonomyLease
  log : List GoalEvent

def AutonomyStore.initial (access : Registry) (spaceRevisions : Uuid → ℤ) (now : ℤ) :
    AutonomyStore where
  access := access
  spaceRevisions := spaceRevisions
  now := now
  goals := .empty
  runs := .empty
  granted := []
  log := []

/-! ## Inputs -/

/-- The fields of the same name; the durations are their `as_secs`. -/
structure SyncBundleSchedule where
  (goalKey goal : String)
  tenantId : Uuid
  (ownerBundleId recipeId packageManifestSha256 targetKind targetId targetRevision : String)
  targetLabel : String
  (actingSpaceId requestedByUserId : Option Uuid)
  (interval maxWallTime maxAttempts : ℕ)

structure EnqueueBundleEvent where
  tenantId : Uuid
  (eventKind subjectBundleId subjectKind subjectId subjectRevision : String)
  eventPayload : Json
  (ownerBundleId recipeId packageManifestSha256 agentRoleId resultGadget goal : String)
  (actingSpaceId requestedByUserId serviceActorUserId : Uuid)
  effectiveRole : String
  maxWallSeconds : ℤ
  maxAttempts : ℕ
  agentProfileSnapshot : Json

inductive RunDisposition
  | succeeded
  | retryableFailure
  | safeStopped
  | contextRequired

structure RunFinish where
  (outcome verificationState verificationSummary : String)
  evidenceRefs : List String
  disposition : RunDisposition

inductive EventRunTerminal
  | succeeded
  | providerFailure
  | policyFailure
  | staleSubject
  deriving DecidableEq

/-! ## Checks of inputs -/

def require (holds : Bool) (reason : String) : Except AutonomyError Unit :=
  if holds then .ok () else .error (.invalidInput reason)

def bounded (value : String) (max : ℕ) : Bool := Jobs.isShort max value

def isSha256 (value : String) : Bool := Jobs.isLowerSha256 value

def validateSchedule (input : SyncBundleSchedule) : Except AutonomyError Unit :=
  require (bounded input.goalKey 300 && bounded input.goal 1000 &&
      bounded input.ownerBundleId 128 && bounded input.recipeId 128 &&
      bounded input.targetKind 64 && bounded input.targetId 256 &&
      bounded input.targetRevision 256 && bounded (trim input.targetLabel) 300 &&
      isSha256 input.packageManifestSha256 &&
      (10 ≤ input.interval && input.interval ≤ 2592000) &&
      (5 ≤ input.maxWallTime && input.maxWallTime ≤ 3600) &&
      (1 ≤ input.maxAttempts && input.maxAttempts ≤ 10))
    "signed schedule identity or budget is outside the supported bounds"

def eventRole : String → Option SpaceRole
  | "contributor" => some .contributor
  | "curator" => some .curator
  | "manager" => some .manager
  | _ => none

def validateBundleEvent (input : EnqueueBundleEvent) : Except AutonomyError Unit :=
  require (bounded input.eventKind 128 && bounded input.subjectBundleId 128 &&
      bounded input.subjectKind 128 && bounded input.subjectId 256 &&
      isSha256 input.subjectRevision && Jobs.isObject input.eventPayload &&
      bounded input.ownerBundleId 128 && bounded input.recipeId 128 &&
      isSha256 input.packageManifestSha256 && bounded input.agentRoleId 128 &&
      bounded input.resultGadget 256 && bounded (trim input.goal) 1000 &&
      (eventRole input.effectiveRole).isSome &&
      (5 ≤ input.maxWallSeconds && input.maxWallSeconds ≤ 3600) &&
      (1 ≤ input.maxAttempts && input.maxAttempts ≤ 10) &&
      (match input.agentProfileSnapshot with
        | .object values => !values.isEmpty
        | _ => false))
    "signed Bundle event identity, context, profile, or budget is invalid"

def validateWorker (workerId : String) (leaseSeconds : ℤ) : Except AutonomyError Unit :=
  require (bounded workerId 128 && (5 ≤ leaseSeconds && leaseSeconds ≤ 300))
    "worker id or lease duration is outside the supported bounds"

def validateFinish (finish : RunFinish) : Except AutonomyError Unit :=
  require (bounded finish.outcome 64 && bounded finish.verificationState 64 &&
      bounded finish.verificationSummary 2000 && finish.evidenceRefs.length ≤ 128 &&
      finish.evidenceRefs.all fun reference => bounded reference 512)
    "autonomous outcome or evidence is outside the supported bounds"

/-! ## The context of a schedule -/

structure ResolvedContext where
  state : ContextState
  (spaceId requestedBy serviceActor : Option Uuid)
  effectiveRole : Option SpaceRole

def unresolved (state : ContextState) : ResolvedContext where
  state := state
  spaceId := none
  requestedBy := none
  serviceActor := none
  effectiveRole := none

/-- What `ensure_autonomy_agent` returns, and the id that a new grant would get. -/
structure ServiceAgent where
  userId : Except String Uuid
  newGrantId : Uuid

def spaceError : KnowledgeSpaceError → AutonomyError
  | .database => .database .unavailable
  | _ => .contextForbidden

def grantExists (access : Registry) (tenantId spaceId service : Uuid) : Bool :=
  access.grants.any fun g =>
    g.tenantId = tenantId && g.spaceId = spaceId && g.principalKind = .user &&
      g.principalId = Uuid.toText service && SpaceRole.contributor.weight ≤ g.role.weight &&
      g.revokedAt = none && g.expiresAt.all fun t => access.now < t

/-- `resolve_context`, which may make the service principal and its grant. -/
def resolveContext (parse : String → Option Uuid) (access : Registry) (input : SyncBundleSchedule)
    (existingServiceActor : Option Uuid) (allowServiceGrant : Bool) (service : ServiceAgent) :
    Except AutonomyError (Registry × ResolvedContext) :=
  match input.actingSpaceId, input.requestedByUserId with
  | some spaceId, some userId =>
    let actor : SpaceActor := ⟨input.tenantId, userId⟩
    let refused := fun state => (⟨state, some spaceId, some userId, existingServiceActor, none⟩ :
      ResolvedContext)
    match access.requireRole actor spaceId .contributor true with
    | .error .database => .error (.database .unavailable)
    | .error _ => .ok (access, refused .actorForbidden)
    | .ok space =>
      if space.kind ≠ .project ∧ space.kind ≠ .team then
        .ok (access, refused .unsupportedSpace)
      else
        match access.effectiveRole actor space, service.userId with
        | .error e, _ => .error (spaceError e)
        | .ok none, _ => .error .contextForbidden
        | .ok (some _), .error e => .error (.servicePrincipal e)
        | .ok (some role), .ok agent =>
          let access :=
            { access with
              users := Function.update access.users agent (some ⟨input.tenantId, .service, true⟩) }
          let resolved := fun state => (⟨state, some spaceId, some userId, some agent,
            some role⟩ : ResolvedContext)
          if grantExists access input.tenantId spaceId agent then
            .ok (access, resolved .ready)
          else if !allowServiceGrant then .ok (access, resolved .serviceGrantRequired)
          else
            match access.upsertGrant parse
                { actor
                  spaceId
                  principalKind := .user
                  principalId := Uuid.toText agent
                  role := .contributor
                  expiresAt := none
                  newId := service.newGrantId } with
            | .ok (access, _) => .ok (access, resolved .ready)
            | .error .database => .error (.database .unavailable)
            | .error _ => .ok (access, unresolved .serviceGrantRequired)
  | _, _ => .ok (access, unresolved .missing)

/-! ## What the statements write -/

/-- `make_interval(secs => n)`. -/
def seconds (n : ℤ) : ℤ := Jobs.seconds n

namespace AutonomyGoalRow

def unexpired (now : ℤ) (goal : AutonomyGoalRow) : Bool := goal.leaseExpiresAt.any fun t => now < t

def expired (now : ℤ) (goal : AutonomyGoalRow) : Bool := goal.leaseExpiresAt.any fun t => t ≤ now

def owned (now : ℤ) (workerId : String) (goal : AutonomyGoalRow) : Bool :=
  goal.status = .running && goal.leaseOwner = some workerId && goal.unexpired now

/-- The `CASE` for the status in `sync_bundle_schedule`. -/
def syncStatus (desired current : GoalStatus) : GoalStatus :=
  if current = .running then .running
  else if desired = .contextRequired then .contextRequired
  else if current = .paused ∨ current = .safeStopped then current
  else desired

def retargeted (spec : GoalSpec) (goal : AutonomyGoalRow) : Bool :=
  goal.spec.targetRevision ≠ spec.targetRevision ||
    goal.spec.packageManifestSha256 ≠ spec.packageManifestSha256

/-- The `SET` of `sync_bundle_schedule`. -/
def sync (now : ℤ) (desired : GoalStatus) (state : ContextState) (spec : GoalSpec)
    (goal : AutonomyGoalRow) : AutonomyGoalRow :=
  { goal with
    status := syncStatus desired goal.status
    contextState := state
    spec
    nextRunAt := if goal.contextState ≠ state ∨ goal.retargeted spec then now else goal.nextRunAt
    attempt := if goal.retargeted spec then 0 else goal.attempt
    revision := goal.revision + 1 }

/-- The `WHERE` of `sync_bundle_schedule`: something would change. -/
def syncChanges (desired : GoalStatus) (state : ContextState) (spec : GoalSpec)
    (goal : AutonomyGoalRow) : Bool :=
  goal.status ≠ syncStatus desired goal.status || goal.contextState ≠ state || goal.spec ≠ spec

/-- The columns of the index `autonomy_goals_bundle_event_dedup`. -/
def dedupKey (goal : AutonomyGoalRow) : Option (Uuid × List String) :=
  if goal.sourceKind = .bundleEvent then
    goal.event.map fun event =>
      (goal.tenantId, [event.subjectBundleId, event.subjectKind, goal.spec.targetId,
        goal.spec.targetRevision, goal.spec.ownerBundleId, event.agentRoleId])
  else none

/-- The `UPDATE` of `retire_missing_bundle_schedules`. -/
def retire (goal : AutonomyGoalRow) : AutonomyGoalRow :=
  { goal with
    status := .retired
    leaseOwner := none
    leaseExpiresAt := none
    heartbeatAt := none
    revision := goal.revision + 1 }

/-- The `UPDATE` of the goal in `recover_expired_leases`. -/
def recover (now : ℤ) (goal : AutonomyGoalRow) : AutonomyGoalRow :=
  { goal with
    status :=
      if goal.attempt < goal.spec.maxAttempts ∧ goal.contextState = .ready then .retryWait
      else .safeStopped
    nextRunAt := now
    leaseOwner := none
    leaseExpiresAt := none
    heartbeatAt := none
    lastOutcome := some "interrupted"
    lastVerification := some "Core worker lease expired before verification"
    lastFinishedAt := some now
    revision := goal.revision + 1 }

/-- The `UPDATE` of `lease_next`. -/
def lease (now : ℤ) (workerId : String) (leaseSeconds : ℤ) (goal : AutonomyGoalRow) :
    AutonomyGoalRow :=
  { goal with
    status := .running
    attempt := goal.attempt + 1
    leaseOwner := some workerId
    leaseExpiresAt := some (now + seconds leaseSeconds)
    heartbeatAt := some now
    lastStartedAt := some now
    revision := goal.revision + 1 }

/-- The `UPDATE` of the goal in `pin_run_context`. -/
def pin (policyRevision : Option String) (goal : AutonomyGoalRow) : AutonomyGoalRow :=
  { goal with
    lastPolicyRevision := policyRevision
    revision := goal.revision + 1 }

/-- The `UPDATE` of the goal in `heartbeat`. -/
def beat (now : ℤ) (leaseSeconds : ℤ) (checkpoint : Json) (goal : AutonomyGoalRow) :
    AutonomyGoalRow :=
  { goal with
    leaseExpiresAt := some (now + seconds leaseSeconds)
    heartbeatAt := some now
    checkpoint
    revision := goal.revision + 1 }

def retryAt (now : ℤ) (goal : AutonomyGoalRow) : ℤ :=
  now + seconds (min 60 (goal.attempt * goal.attempt))

/-- The `UPDATE` of the goal in `finish_run`. -/
def finish (now : ℤ) (status : GoalStatus) (outcome verification : String)
    (goal : AutonomyGoalRow) : AutonomyGoalRow :=
  { goal with
    status
    nextRunAt :=
      if status = .ready then now + seconds goal.spec.intervalSeconds
      else if status = .retryWait then goal.retryAt now
      else goal.nextRunAt
    attempt := if status = .ready then 0 else goal.attempt
    leaseOwner := none
    leaseExpiresAt := none
    heartbeatAt := none
    lastOutcome := some outcome
    lastVerification := some verification
    lastFinishedAt := some now
    revision := goal.revision + 1 }

/-- The `UPDATE` of the goal in `finish_event_run`. -/
def finishEvent (now : ℤ) (status : GoalStatus) (outcome verification : String)
    (goal : AutonomyGoalRow) : AutonomyGoalRow :=
  { goal with
    status
    nextRunAt := if status = .retryWait then goal.retryAt now else goal.nextRunAt
    leaseOwner := none
    leaseExpiresAt := none
    heartbeatAt := none
    lastOutcome := some outcome
    lastVerification := some verification
    lastFinishedAt := some now
    revision := goal.revision + 1 }

def resume (now : ℤ) (goal : AutonomyGoalRow) : AutonomyGoalRow :=
  { goal with
    status := .ready
    attempt := 0
    nextRunAt := now
    lastOutcome := none
    lastVerification := none
    revision := goal.revision + 1 }

def ofSchedule (id : Uuid) (now : ℤ) (input : SyncBundleSchedule) (desired : GoalStatus)
    (state : ContextState) (spec : GoalSpec) : AutonomyGoalRow where
  id := id
  tenantId := input.tenantId
  goalKey := input.goalKey
  sourceKind := .bundleSchedule
  status := desired
  contextState := state
  spec := spec
  event := none
  lastPolicyRevision := none
  attempt := 0
  nextRunAt := now
  leaseOwner := none
  leaseExpiresAt := none
  heartbeatAt := none
  checkpoint := .object []
  lastOutcome := none
  lastVerification := none
  lastStartedAt := none
  lastFinishedAt := none
  revision := 1
  createdAt := now

/-- The row that `enqueue_bundle_event_in_transaction` inserts. -/
def ofEvent (id : Uuid) (now : ℤ) (goalKey : String) (input : EnqueueBundleEvent) :
    AutonomyGoalRow where
  id := id
  tenantId := input.tenantId
  goalKey := goalKey
  sourceKind := .bundleEvent
  status := .ready
  contextState := .ready
  spec :=
    { goal := input.goal
      ownerBundleId := input.ownerBundleId
      recipeId := input.recipeId
      packageManifestSha256 := input.packageManifestSha256
      targetKind := input.subjectKind
      targetId := input.subjectId
      targetRevision := input.subjectRevision
      targetLabel := String.ofList ((input.subjectKind ++ " " ++ input.subjectId).toList.take 300)
      actingSpaceId := some input.actingSpaceId
      requestedByUserId := some input.requestedByUserId
      serviceActorUserId := some input.serviceActorUserId
      effectiveRole := eventRole input.effectiveRole
      intervalSeconds := 10
      maxWallSeconds := input.maxWallSeconds
      maxAttempts := input.maxAttempts }
  event :=
    some
      { eventKind := input.eventKind
        subjectBundleId := input.subjectBundleId
        subjectKind := input.subjectKind
        eventPayload := input.eventPayload
        agentRoleId := input.agentRoleId
        resultGadget := input.resultGadget
        agentProfileSnapshot := input.agentProfileSnapshot }
  lastPolicyRevision := none
  attempt := 0
  nextRunAt := now
  leaseOwner := none
  leaseExpiresAt := none
  heartbeatAt := none
  checkpoint := .object []
  lastOutcome := none
  lastVerification := none
  lastStartedAt := none
  lastFinishedAt := none
  revision := 1
  createdAt := now

def recoverOrder (a b : AutonomyGoalRow) : Ordering :=
  (compare (a.leaseExpiresAt.getD 0) (b.leaseExpiresAt.getD 0)).then
    (compare a.id.toNat b.id.toNat)

/-- `ORDER BY next_run_at, created_at, id`. -/
def leaseOrder (a b : AutonomyGoalRow) : Ordering :=
  (compare a.nextRunAt b.nextRunAt).then
    ((compare a.createdAt b.createdAt).then (compare a.id.toNat b.id.toNat))

end AutonomyGoalRow

namespace AutonomyRunRow

/-- The `UPDATE` of the runs in `recover_expired_leases`. -/
def interrupt (now : ℤ) (run : AutonomyRunRow) : AutonomyRunRow :=
  { run with
    status := .interrupted
    outcome := some "interrupted"
    verificationState := some "failed"
    verificationSummary := some "Core worker lease expired before the outcome was verified"
    finishedAt := some now }

def pin (policyRevision : Option String) (contextSnapshot : Json) (run : AutonomyRunRow) :
    AutonomyRunRow :=
  { run with
    policyRevision
    contextSnapshot }

def attach (runtimeJobId : String) (run : AutonomyRunRow) : AutonomyRunRow :=
  { run with runtimeJobId := some runtimeJobId }

/-- The `UPDATE` of the run in `heartbeat`. -/
def beat (checkpoint : Json) (run : AutonomyRunRow) : AutonomyRunRow :=
  { run with checkpoint }

/-- The `UPDATE` of the run in `finish_run` and `finish_event_run`. -/
def finish (now : ℤ) (status : RunStatus) (outcome verificationState summary : String)
    (evidenceRefs : List String) (run : AutonomyRunRow) : AutonomyRunRow :=
  { run with
    status
    outcome := some outcome
    verificationState := some verificationState
    verificationSummary := some summary
    evidenceRefs
    finishedAt := some now }

end AutonomyRunRow

end Gadgetron.Autonomy
