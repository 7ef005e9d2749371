import Gadgetron.Enrollment.Lifecycle
import Gadgetron.Lib.Table

/-!
# Enrollments and their triggers

The rows of `server_enrollments` and of the tables that its triggers read, and what an `UPDATE` of
an enrollment does with the triggers before and after it.
-/

namespace Gadgetron.Enrollment

open Lib

inductive IncidentStatus
  | active
  | closed
  deriving DecidableEq

inductive Severity
  | critical
  | high
  | medium
  | info
  deriving DecidableEq

inductive SourceState
  | pending
  | firing
  deriving DecidableEq

structure IncidentRow where
  incidentId : Uuid
  hostId : Option Uuid
  status : IncidentStatus
  severity : Severity

structure SignalRow where
  (signalId incidentId : Uuid)
  hostId : Option Uuid
  severity : Severity
  sourceState : SourceState
  endedAt : Option ℤ

def SignalRow.alarming (signal : SignalRow) : Bool :=
  signal.endedAt.isNone && signal.sourceState = .firing && signal.severity = .critical

inductive TargetStatus
  | reachable
  | healthy
  | degraded
  | unreachable
  deriving DecidableEq

structure TargetHealthRow where
  targetId : String
  hostId : Uuid
  status : TargetStatus
  revision : Uuid

/-- The columns of `server_clusters` that an enrollment depends on. -/
structure ClusterRow where
  clusterId : String
  revision : Uuid

/-- What detectors, probes and operators write besides. -/
structure Observations where
  incidents : Table IncidentRow.incidentId
  signals : Table SignalRow.signalId
  health : Table TargetHealthRow.targetId
  clusters : Table ClusterRow.clusterId

def Observations.empty : Observations := ⟨.empty, .empty, .empty, .empty⟩

/-- The incident is closed, the target is on its host and healthy, at a revision that satisfies the
test, and no critical signal of the host is firing. -/
def Observations.recovered (world : Observations) (incidentId : Uuid) (targetId : String)
    (revision : Uuid → Bool) : Bool :=
  world.incidents.rows.any fun incident =>
    incident.incidentId = incidentId && incident.status = .closed &&
      (world.health.rows.any fun health =>
        incident.hostId = some health.hostId && health.targetId = targetId &&
          health.status = .healthy && revision health.revision) &&
      !world.signals.rows.any fun signal =>
        incident.hostId.isSome && signal.hostId = incident.hostId && signal.alarming

/-! ## Enrollments -/

inductive HealthStatus
  | unknown
  | healthy
  | degraded
  | unreachable
  deriving DecidableEq

inductive ComplianceStatus
  | unknown
  | compliant
  | drift
  | blocked
  deriving DecidableEq

structure SetupReceipt where
  targetRevision : Uuid
  setupFeatures : List String
  deriving DecidableEq

/-- The members of `plan` that an operation reads. -/
structure Plan where
  (source status : Option String)
  setupReapplySupported : Bool
  setupFeatures : List String
  setupReceipt : Option SetupReceipt

structure Progress where
  stage : String
  transitionedBy : Option String
  rollout : Bool
  incidentId : Option Uuid
  operationId : Option StableRevision
  (isolationTargetRevision faultClearedTargetRevision : Option Uuid)

def Progress.plain (stage : String) (transitionedBy : Option String) (rollout : Bool) :
    Progress where
  stage := stage
  transitionedBy := transitionedBy
  rollout := rollout
  incidentId := none
  operationId := none
  isolationTargetRevision := none
  faultClearedTargetRevision := none

/-- What the status of the qualification gate has been computed from. -/
structure Evidence where
  required : List String
  cycleStartedAt : ℤ
  rows : List ValidationResultRow

/-- An incident for which an enrollment was quarantined, and the health revision of then. -/
structure Isolation where
  incidentId : Uuid
  targetRevision : Option Uuid

/-- A row of `server_enrollments`, with three facts of its past that are no columns. -/
structure EnrollmentRow where
  enrollmentId : Uuid
  (targetId clusterId : String)
  clusterRevision : Uuid
  (requiredCommissioning requiredQualification : List String)
  lifecycleState : LifecycleState
  healthStatus : HealthStatus
  complianceStatus : ComplianceStatus
  (commissioningStatus qualificationStatus : GateAggregate)
  plan : Plan
  progress : Progress
  lastError : Option String
  revision : StableRevision
  (validationCycleStartedAt updatedAt : ℤ)
  activatedAt : Option ℤ
  evidence : Option Evidence
  commissioned : Bool
  isolations : List Isolation

namespace EnrollmentRow

/-- The `CHECK` of the table. -/
def checked (row : EnrollmentRow) : Bool :=
  row.lifecycleState ≠ .active ||
    (row.commissioningStatus.gatePassed && row.qualificationStatus.gatePassed)

def counts (row : EnrollmentRow) (check : String) (result : ValidationResultRow) : Bool :=
  result.enrollmentId = row.enrollmentId && result.gate = .qualification &&
    result.checkId = check && result.inCycle row.validationCycleStartedAt

end EnrollmentRow

/-- A row of `server_operation_outcomes` of an enrollment. -/
structure OutcomeRow where
  id : StableRevision
  (targetId action : String)
  incidentId : Uuid

/-! ## Triggers -/

def latestCounting (results : List ValidationResultRow) (row : EnrollmentRow) (check : String) :
    Option ValidationStatus :=
  ((sortBy (fun result result' => compare result'.observedAt result.observedAt)
    (results.filter (row.counts check))).head?).map (·.status)

/-- `server_guard_incident_recovery`: the `UPDATE` goes through. -/
def guardIncidentRecovery (world : Observations) (results : List ValidationResultRow)
    (old new : EnrollmentRow) : Bool :=
  match old.progress.incidentId with
  | none => true
  | some incidentId =>
    if !(old.lifecycleState = .quarantined && new.lifecycleState = .commissioning) &&
        new.lifecycleState ≠ .active then true
    else
      (world.recovered incidentId new.targetId fun revision =>
        old.progress.isolationTargetRevision.any (· ≠ revision)) &&
      (!(old.lifecycleState = .quarantined && new.lifecycleState = .commissioning) ||
        (old.validationCycleStartedAt < new.validationCycleStartedAt &&
          (new.commissioningStatus = .pending || new.commissioningStatus = .notConfigured) &&
          (new.qualificationStatus = .pending || new.qualificationStatus = .notConfigured))) &&
      (new.lifecycleState ≠ .active ||
        new.requiredQualification.all fun check =>
          (latestCounting results new check).any (·.good))

/-- `server_track_incident_safe_stop`: nothing to record, an outcome, or an error. -/
def trackIncidentSafeStop (world : Observations) (old new : EnrollmentRow) :
    Option (Option OutcomeRow) :=
  match new.progress.incidentId, new.progress.operationId with
  | some incidentId, some operationId =>
    if new.lifecycleState ≠ .quarantined || old.lifecycleState = .quarantined then some none
    else if world.incidents.rows.any fun incident =>
        incident.incidentId = incidentId && incident.status = .active &&
          incident.severity = .critical &&
          (world.health.rows.any fun health =>
            incident.hostId = some health.hostId && health.targetId = new.targetId) &&
          world.signals.rows.any fun signal =>
            signal.incidentId = incidentId && signal.alarming then
      some (some ⟨operationId, new.targetId, "incident-safe-stop", incidentId⟩)
    else none
  | _, _ => some none

def trackIncidentRecovery (world : Observations) (old new : EnrollmentRow) :
    Option (Option OutcomeRow) :=
  match new.progress.incidentId, new.progress.operationId,
      new.progress.faultClearedTargetRevision with
  | some incidentId, some operationId, some targetRevision =>
    if new.lifecycleState ≠ .active || old.lifecycleState = .active then some none
    else if world.recovered incidentId new.targetId (· = targetRevision) &&
        (world.clusters.rows.any fun cluster =>
          cluster.clusterId = new.clusterId && cluster.revision = new.clusterRevision) &&
        new.healthStatus = .healthy && new.complianceStatus = .compliant then
      some (some ⟨operationId, new.targetId, "incident-recovery", incidentId⟩)
    else none
  | _, _, _ => some none

def insertOutcome (outcomes : Table OutcomeRow.id) :
    Option OutcomeRow → Option (Table OutcomeRow.id)
  | none => some outcomes
  | some outcome => outcomes.insert outcome

/-- The outcomes after the `UPDATE` of a row with its triggers, or nothing if it fails. -/
def updateOutcomes (world : Observations) (results : List ValidationResultRow)
    (outcomes : Table OutcomeRow.id) (fires : Bool) (old new : EnrollmentRow) :
    Option (Table OutcomeRow.id) :=
  if !new.checked then none
  else if !fires then some outcomes
  else if !guardIncidentRecovery world results old new then none
  else do
    let safeStop ← trackIncidentSafeStop world old new
    let recovery ← trackIncidentRecovery world old new
    let outcomes ← insertOutcome outcomes safeStop
    insertOutcome outcomes recovery

end Gadgetron.Enrollment
