import Gadgetron.Enrollment.Row

/-!
# Operations on enrollments

`enrollment_transition`, `enrollment_plan_record`, `enrollment_setup_record`,
`enrollment_rollout_apply`, `reconcile_posture` and `validation_record`, one step for each request
to the database.
-/

namespace Gadgetron.Enrollment

open Lib

structure HostError where
  (code message : String)

def refuse {α : Type} (code message : String) : Except HostError α := .error ⟨code, message⟩

/-! ## Inputs -/

structure EnrollmentTransitionInput where
  toState : LifecycleState
  reason : Option String
  (incidentId targetRevision : Option Uuid)

structure ValidationRecordInput where
  gate : ValidationGate
  checkId : String
  status : ValidationStatus
  summary : String

structure EnrollmentSetupRecordInput where
  expectedEnrollmentRevision : StableRevision
  targetId : String
  targetRevision : Uuid
  setupFeatures : List String

/-- What `load_desired_enrollment_profile` and `assess_rollout` have found out. -/
structure DesiredEnrollmentProfile where
  clusterRevision : Uuid
  (requiredCommissioning requiredQualification : List String)
  (rerunCommissioning reconfigure setupReapplySupported : Bool)
  setupFeatures : List String

structure EnrollmentRolloutApplyInput where
  expectedEnrollmentRevision : StableRevision
  expectedClusterRevision : Uuid

inductive PostureHealth
  | healthy
  | degraded
  | unreachable

def PostureHealth.status : PostureHealth → HealthStatus
  | healthy => .healthy
  | degraded => .degraded
  | unreachable => .unreachable

inductive Operation
  | transition (input : EnrollmentTransitionInput)
  | planRecord (plan : Plan)
  | setupRecord (input : EnrollmentSetupRecordInput)
  | rolloutApply (input : EnrollmentRolloutApplyInput) (desired : DesiredEnrollmentProfile)
  | validationRecord (input : ValidationRecordInput)
  | reconcilePosture (observedHealth : PostureHealth)

/-- What is checked of an input before the row is loaded. -/
def Operation.checkInput (requestId : String) : Operation → Except HostError Unit
  | transition input =>
    if input.reason.any (fun reason => !cleanText reason 512) then
      refuse "invalid-arguments" "enrollment id or transition reason is invalid"
    else if input.toState = .quarantined && input.reason.isNone then
      refuse "invalid-arguments" "a quarantine transition requires a reason"
    else if input.incidentId.isSome && input.toState ≠ .quarantined then
      refuse "invalid-arguments" "an incident can be linked only to a quarantine transition"
    else .ok ()
  | setupRecord input =>
    if !":ssh-setup-receipt".toList.isSuffixOf requestId.toList then
      refuse "enrollment-setup-receipt-core-required"
        "setup completion can be recorded only by the Core-owned SSH setup path"
    else if input.setupFeatures.any fun feature =>
        feature ≠ "nvidia_dcgm" && feature ≠ "system_observation" then
      refuse "invalid-arguments" "setup receipt contains invalid or unbounded fields"
    else .ok ()
  | validationRecord input =>
    if !(Bundle.validateKebabId input.checkId).isOk || !cleanText input.summary 512 then
      refuse "invalid-arguments" "validation result fields are invalid"
    else .ok ()
  | planRecord _ | rolloutApply _ _ | reconcilePosture _ => .ok ()

/-! ## Evidence of a transition -/

/-- `validate_incident_safe_stop`: the health revision of the target. -/
def validateIncidentSafeStop (world : Observations) (incidentId : Uuid) (targetId : String) :
    Except HostError Uuid :=
  match world.incidents.get incidentId with
  | none => refuse "incident-not-found" "incident is no longer visible"
  | some incident =>
    if incident.status ≠ .active || incident.severity ≠ .critical then
      refuse "incident-safe-stop-not-applicable" "safe stop requires an active critical incident"
    else if !world.signals.rows.any fun signal =>
        signal.incidentId = incidentId && signal.alarming then
      refuse "incident-safe-stop-not-applicable" "incident has no active critical firing signal"
    else
      match incident.hostId, world.health.get targetId with
      | none, _ => refuse "incident-state-invalid" "incident is not linked to a server host"
      | some _, none =>
        refuse "incident-target-not-found" "incident target has no visible server identity"
      | some hostId, some health =>
        if health.hostId ≠ hostId then
          refuse "incident-target-mismatch" "incident is no longer linked to the enrolled server"
        else .ok health.revision

/-- `validate_incident_recovery`: the incident and the health revision of the target. -/
def validateIncidentRecovery (world : Observations) (enrollment : EnrollmentRow) :
    Except HostError (Option (Uuid × Uuid)) :=
  match enrollment.progress.incidentId, enrollment.progress.isolationTargetRevision with
  | none, _ => .ok none
  | some _, none =>
    refuse "incident-recovery-state-invalid" "stored isolation health revision is invalid"
  | some incidentId, some isolationRevision =>
    match world.incidents.get incidentId with
    | none => refuse "incident-not-found" "recovery incident is no longer visible"
    | some incident =>
      if incident.status ≠ .closed then
        refuse "incident-recovery-not-ready"
          "the incident condition is still active; keep this server isolated"
      else
        match incident.hostId with
        | none =>
          refuse "incident-state-invalid" "recovery incident is not linked to a server host"
        | some hostId =>
          if world.signals.rows.any fun signal =>
              signal.hostId = some hostId && signal.alarming then
            refuse "incident-recovery-not-ready"
              "a critical server condition is still firing; keep this server isolated"
          else
            match world.health.get enrollment.targetId with
            | none =>
              refuse "incident-recovery-observation-missing"
                "collect a fresh server health snapshot before recovery"
            | some health =>
              if health.hostId ≠ hostId then
                refuse "incident-target-mismatch"
                  "the recovery incident is no longer linked to this server"
              else if health.status ≠ .healthy then
                refuse "incident-recovery-observation-unhealthy"
                  "the latest signed server health snapshot is not healthy"
              else if health.revision = isolationRevision then
                refuse "incident-recovery-observation-stale"
                  "collect a fresh signed server health snapshot after the fault clears"
              else .ok (some (incidentId, health.revision))

/-! ## Changes -/

/-- What an `UPDATE` is made from, besides the row that was loaded. -/
inductive RowChange
  | transition (input : EnrollmentTransitionInput) (targetRevision : Option Uuid)
      (recoveryObservation : Option (Uuid × Uuid)) (updatedAt : ℤ)
  | planRecord (plan : Plan) (updatedAt : ℤ)
  | setupRecord (input : EnrollmentSetupRecordInput) (updatedAt : ℤ)
  | rolloutApply (desired : DesiredEnrollmentProfile) (updatedAt : ℤ)
  | posture (healthStatus : HealthStatus) (complianceStatus : ComplianceStatus) (updatedAt : ℤ)
  | validation (input : ValidationRecordInput) (rows : List ValidationResultRow)
      (truncated : Bool) (observedAt : ℤ)

def checkTransition (input : EnrollmentTransitionInput) (row : EnrollmentRow) :
    Except HostError Unit :=
  if !transitionAllowed row.lifecycleState input.toState then
    refuse "enrollment-transition-invalid"
      ("cannot move enrollment from " ++ row.lifecycleState.asStr ++ " to " ++ input.toState.asStr)
  else if input.toState = .readyToConfigure && !row.commissioningStatus.gatePassed then
    refuse "commissioning-incomplete" "required commissioning checks have not passed"
  else if input.toState = .active && !row.qualificationStatus.gatePassed then
    refuse "qualification-incomplete" "required qualification checks have not passed"
  else .ok ()

def safeStopEvidence (world : Observations) (input : EnrollmentTransitionInput)
    (row : EnrollmentRow) : Except HostError (Option Uuid) :=
  match input.incidentId with
  | some incidentId => (validateIncidentSafeStop world incidentId row.targetId).map some
  | none => .ok none

def checkTargetRevision (input : EnrollmentTransitionInput) (targetRevision : Option Uuid) :
    Except HostError Unit :=
  if input.targetRevision.isSome && input.targetRevision ≠ targetRevision then
    refuse "target-revision-conflict"
      "server health changed after the Knowledge context was selected"
  else .ok ()

def recoveryEvidence (world : Observations) (input : EnrollmentTransitionInput)
    (row : EnrollmentRow) : Except HostError (Option (Uuid × Uuid)) :=
  if (row.lifecycleState = .quarantined && input.toState = .commissioning) ||
      input.toState = .active then validateIncidentRecovery world row
  else .ok none

/-- A server that has recovered comes back under the cluster profile that it is enrolled with. -/
def checkClusterProfile (world : Observations) (input : EnrollmentTransitionInput)
    (row : EnrollmentRow) (recoveryObservation : Option (Uuid × Uuid)) : Except HostError Unit :=
  if recoveryObservation.isNone || input.toState ≠ .active then .ok ()
  else
    match world.clusters.get row.clusterId with
    | none => refuse "cluster-not-found" "cluster was not found"
    | some cluster =>
      if cluster.revision ≠ row.clusterRevision then
        refuse "incident-recovery-profile-drift"
          "the cluster profile changed during repair; review and apply the current profile before returning this server to capacity"
      else .ok ()

/-- `enrollment_transition` from the loaded row to the `UPDATE`. -/
def prepareTransition (now : ℤ) (world : Observations) (input : EnrollmentTransitionInput)
    (row : EnrollmentRow) : Except HostError RowChange := do
  checkTransition input row
  let targetRevision ← safeStopEvidence world input row
  checkTargetRevision input targetRevision
  let recoveryObservation ← recoveryEvidence world input row
  checkClusterProfile world input row recoveryObservation
  .ok (.transition input targetRevision recoveryObservation now)

/-- `enrollment_plan_record` from the loaded row to the `UPDATE`. -/
def preparePlan (now : ℤ) (plan : Plan) (row : EnrollmentRow) : Except HostError RowChange :=
  if row.lifecycleState ≠ .readyToConfigure then
    refuse "enrollment-plan-state-invalid"
      "configuration can be planned only after commissioning passes"
  else .ok (.planRecord plan now)

/-- `validation_record` from the loaded row to its result. -/
def checkValidation (input : ValidationRecordInput) (row : EnrollmentRow) : Except HostError Unit :=
  if !validationAllowed input.gate row.lifecycleState then
    refuse "validation-gate-not-active"
      "the requested validation gate is not active for this enrollment"
  else .ok ()

def prepareSetup (now : ℤ) (input : EnrollmentSetupRecordInput) (row : EnrollmentRow) :
    Except HostError (Option RowChange) :=
  if row.targetId ≠ input.targetId || row.lifecycleState ≠ .readyToConfigure then
    refuse "enrollment-setup-state-invalid"
      "setup receipt does not match a server waiting for configuration"
  else if row.plan.source ≠ some "reviewed_profile_rollout" ||
      !row.plan.setupReapplySupported then
    refuse "enrollment-setup-plan-invalid" "enrollment has no reviewed signed setup-feature rollout"
  else if row.plan.setupFeatures ≠ input.setupFeatures then
    refuse "enrollment-setup-plan-stale"
      "applied setup features do not match the reviewed enrollment plan"
  else if row.plan.status = some "setup_applied" then
    if row.plan.setupReceipt = some ⟨input.targetRevision, input.setupFeatures⟩ then .ok none
    else
      refuse "enrollment-setup-receipt-conflict"
        "enrollment already records a different setup receipt"
  else if row.revision ≠ input.expectedEnrollmentRevision then
    refuse "enrollment-setup-plan-stale" "enrollment changed after the reviewed setup became ready"
  else .ok (some (.setupRecord input now))

/-- `enrollment_rollout_apply` from the loaded row to the `UPDATE`. -/
def prepareRollout (now : ℤ) (input : EnrollmentRolloutApplyInput)
    (desired : DesiredEnrollmentProfile) (row : EnrollmentRow) : Except HostError RowChange :=
  if row.lifecycleState ≠ .active then
    refuse "enrollment-rollout-state-invalid"
      "profile rollout can be applied only to an active server"
  else if row.revision ≠ input.expectedEnrollmentRevision then
    refuse "enrollment-rollout-plan-stale"
      "the enrollment changed after this rollout plan was reviewed"
  else if desired.requiredQualification.isEmpty then
    refuse "profile-qualification-not-configured"
      "the current cluster profile must declare required qualification checks before rollout"
  else if desired.clusterRevision ≠ input.expectedClusterRevision then
    refuse "enrollment-rollout-plan-stale"
      "the cluster profile changed after this rollout plan was reviewed"
  else if row.clusterRevision = desired.clusterRevision then
    refuse "enrollment-profile-current"
      "the server already pins the current cluster profile revision"
  else if desired.rerunCommissioning || (desired.reconfigure && !desired.setupReapplySupported) then
    refuse "profile-rollout-configuration-required"
      "this profile needs commissioning, reboot or configuration outside the signed existing-target setup feature path"
  else .ok (.rolloutApply desired now)

def derivePosture (row : EnrollmentRow) (currentClusterRevision : Uuid)
    (observedHealth : PostureHealth) : HealthStatus × ComplianceStatus :=
  (observedHealth.status,
    if row.commissioningStatus = .failed || row.qualificationStatus = .failed then .blocked
    else if row.lifecycleState = .active && row.clusterRevision ≠ currentClusterRevision then
      .drift
    else if row.lifecycleState = .active && row.commissioningStatus.gatePassed &&
        row.qualificationStatus.gatePassed then .compliant
    else .unknown)

def preparePosture (now : ℤ) (world : Observations) (observedHealth : PostureHealth)
    (row : EnrollmentRow) : Except HostError (Option RowChange) :=
  match world.clusters.get row.clusterId with
  | none => refuse "cluster-not-found" "cluster was not found"
  | some cluster =>
    let (healthStatus, complianceStatus) := derivePosture row cluster.revision observedHealth
    if row.healthStatus = healthStatus && row.complianceStatus = complianceStatus then .ok none
    else .ok (some (.posture healthStatus complianceStatus now))

def carryRecoveryProgress (row : EnrollmentRow) (progress : Progress) : Progress :=
  { progress with
    incidentId := row.progress.incidentId.or progress.incidentId
    operationId := row.progress.operationId.or progress.operationId
    isolationTargetRevision :=
      row.progress.isolationTargetRevision.or progress.isolationTargetRevision
    faultClearedTargetRevision :=
      row.progress.faultClearedTargetRevision.or progress.faultClearedTargetRevision }

def transitionProgress (requestId actorId : String) (loaded : EnrollmentRow)
    (input : EnrollmentTransitionInput) (targetRevision : Option Uuid)
    (recoveryObservation : Option (Uuid × Uuid)) : Progress :=
  let plain := Progress.plain input.toState.asStr (some actorId) false
  let operationId (kind : String) (incidentId : Uuid) : StableRevision :=
    ⟨kind, loaded.enrollmentId, [incidentId.toText], requestId⟩
  match input.incidentId with
  | some incidentId =>
    { plain with
      incidentId := some incidentId
      operationId := some (operationId "incident-safe-stop" incidentId)
      isolationTargetRevision := targetRevision }
  | none =>
    match recoveryObservation with
    | some (incidentId, revision) =>
      if input.toState = .active then
        { carryRecoveryProgress loaded plain with
          incidentId := some incidentId
          operationId := some (operationId "incident-recovery" incidentId)
          faultClearedTargetRevision := some revision }
      else
        let carried :=
          if input.toState = .quarantined || input.toState = .retired then plain
          else carryRecoveryProgress loaded plain
        { carried with
          incidentId := some incidentId
          faultClearedTargetRevision := some revision }
    | none =>
      if input.toState = .active || input.toState = .quarantined ||
          input.toState = .retired then plain
      else carryRecoveryProgress loaded plain

def setTransition (requestId actorId : String) (loaded : EnrollmentRow)
    (input : EnrollmentTransitionInput) (targetRevision : Option Uuid)
    (recoveryObservation : Option (Uuid × Uuid)) (updatedAt : ℤ) (row : EnrollmentRow) :
    EnrollmentRow :=
  let row :=
    { row with
      lifecycleState := input.toState
      progress := transitionProgress requestId actorId loaded input targetRevision
        recoveryObservation
      revision := ⟨"enrollment-transition", loaded.enrollmentId, [], requestId⟩
      updatedAt
      lastError := none }
  match input.toState with
  | .quarantined =>
    { row with
      complianceStatus := .blocked
      qualificationStatus := pendingGateStatus loaded.requiredQualification
      validationCycleStartedAt := updatedAt
      lastError := some "quarantined"
      evidence := none
      isolations := row.isolations ++
        input.incidentId.toList.map fun incidentId => ⟨incidentId, targetRevision⟩ }
  | .commissioning =>
    { row with
      complianceStatus := .unknown
      commissioningStatus := pendingGateStatus loaded.requiredCommissioning
      qualificationStatus := pendingGateStatus loaded.requiredQualification
      validationCycleStartedAt := updatedAt
      activatedAt := none
      evidence := none
      commissioned := false }
  | .qualifying =>
    { row with
      complianceStatus := .unknown
      qualificationStatus := pendingGateStatus loaded.requiredQualification
      validationCycleStartedAt := updatedAt
      evidence := none }
  | .active =>
    { row with
      activatedAt := some updatedAt
      healthStatus := if recoveryObservation.isSome then .healthy else row.healthStatus
      complianceStatus := if recoveryObservation.isSome then .compliant else row.complianceStatus
      isolations := [] }
  | _ => row

def setRollout (requestId : String) (loaded : EnrollmentRow) (desired : DesiredEnrollmentProfile)
    (updatedAt : ℤ) (row : EnrollmentRow) : EnrollmentRow :=
  let initialState : LifecycleState :=
    if desired.rerunCommissioning then .commissioning
    else if desired.reconfigure then .readyToConfigure else .qualifying
  { row with
    clusterRevision := desired.clusterRevision
    requiredCommissioning := desired.requiredCommissioning
    requiredQualification := desired.requiredQualification
    lifecycleState := initialState
    complianceStatus := .unknown
    commissioningStatus :=
      if desired.rerunCommissioning then pendingGateStatus desired.requiredCommissioning
      else loaded.commissioningStatus
    qualificationStatus := pendingGateStatus desired.requiredQualification
    plan :=
      { source := some "reviewed_profile_rollout"
        status := some "approved_for_execution"
        setupReapplySupported := desired.setupReapplySupported
        setupFeatures := desired.setupFeatures
        setupReceipt := none }
    progress := .plain initialState.asStr none true
    lastError := none
    revision := ⟨"enrollment-rollout", loaded.enrollmentId, [], requestId⟩
    validationCycleStartedAt := updatedAt
    updatedAt
    activatedAt := none
    evidence := none
    commissioned := if desired.rerunCommissioning then false else row.commissioned }

def currentCycle (loaded : EnrollmentRow) (rows : List ValidationResultRow) (truncated : Bool) :
    List ValidationResultRow × Bool :=
  (rows.filter (·.inCycle loaded.validationCycleStartedAt),
    truncated && rows.getLast?.any (·.inCycle loaded.validationCycleStartedAt))

def ValidationGate.required (gate : ValidationGate) (row : EnrollmentRow) : List String :=
  match gate with
  | commissioning => row.requiredCommissioning
  | qualification => row.requiredQualification

def gateAggregate (loaded : EnrollmentRow) (gate : ValidationGate)
    (rows : List ValidationResultRow) (truncated : Bool) : GateAggregate :=
  aggregateStatus (gate.required loaded) (currentCycle loaded rows truncated).1
    (currentCycle loaded rows truncated).2

/-- A required check of an active server has failed. -/
def regression (loaded : EnrollmentRow) (gate : ValidationGate)
    (rows : List ValidationResultRow) (truncated : Bool) : Bool :=
  loaded.lifecycleState = .active && gate = .qualification &&
    gateAggregate loaded gate rows truncated = .failed

def setGate (loaded : EnrollmentRow) (gate : ValidationGate) (rows : List ValidationResultRow)
    (truncated : Bool) (row : EnrollmentRow) : EnrollmentRow :=
  let aggregate := gateAggregate loaded gate rows truncated
  if !shouldPersistGateStatus loaded.lifecycleState aggregate then row
  else
    match gate with
    | .commissioning =>
      { row with
        commissioningStatus := aggregate
        commissioned := row.commissioned || aggregate.gatePassed }
    | .qualification =>
      { row with
        qualificationStatus := aggregate
        evidence := some
          { required := loaded.requiredQualification
            cycleStartedAt := loaded.validationCycleStartedAt
            rows } }

def setValidation (requestId : String) (loaded : EnrollmentRow) (input : ValidationRecordInput)
    (rows : List ValidationResultRow) (truncated : Bool) (observedAt : ℤ) (row : EnrollmentRow) :
    EnrollmentRow :=
  let row := setGate loaded input.gate rows truncated
    { row with
      revision := ⟨"validation-state", loaded.enrollmentId, [], requestId⟩
      updatedAt := observedAt }
  if regression loaded input.gate rows truncated then
    { row with
      lifecycleState := .quarantined
      lastError := some "qualification-regression" }
  else row

def RowChange.set (requestId actorId : String) (loaded row : EnrollmentRow) :
    RowChange → EnrollmentRow
  | transition input targetRevision recoveryObservation updatedAt =>
    setTransition requestId actorId loaded input targetRevision recoveryObservation updatedAt row
  | planRecord plan updatedAt =>
    { row with
      plan
      progress := .plain "planned" none false
      revision := ⟨"enrollment-plan", loaded.enrollmentId, [], requestId⟩
      updatedAt }
  | setupRecord input updatedAt =>
    { row with
      plan :=
        { loaded.plan with
          status := some "setup_applied"
          setupReceipt := some ⟨input.targetRevision, input.setupFeatures⟩ }
      progress := .plain "setup_applied" none true
      revision := ⟨"enrollment-setup-receipt", loaded.enrollmentId, [], requestId⟩
      updatedAt }
  | rolloutApply desired updatedAt => setRollout requestId loaded desired updatedAt row
  | posture healthStatus complianceStatus updatedAt =>
    { row with
      healthStatus
      complianceStatus
      revision := ⟨"enrollment-posture", loaded.enrollmentId, [], requestId⟩
      updatedAt }
  | validation input rows truncated observedAt =>
    setValidation requestId loaded input rows truncated observedAt row

/-- The `UPDATE` sets a column for which the triggers are declared. -/
def RowChange.fires (loaded : EnrollmentRow) : RowChange → Bool
  | transition .. | planRecord .. | setupRecord .. | rolloutApply .. => true
  | posture .. => false
  | validation input rows truncated _ => regression loaded input.gate rows truncated

/-! ## Calls -/

/-- How far a call has come; it has loaded the row. -/
inductive CallStage
  | loaded (row : EnrollmentRow) (operation : Operation)
  /-- `validation_record` has taken the time of its result. -/
  | observed (row : EnrollmentRow) (input : ValidationRecordInput) (observedAt : ℤ)
  | recorded (row : EnrollmentRow) (input : ValidationRecordInput) (observedAt : ℤ)
  /-- The `UPDATE` is next. -/
  | prepared (row : EnrollmentRow) (change : RowChange)
  | done

structure EnrollmentCall where
  id : ℕ
  (requestId actorId : String)
  stage : CallStage

structure EnrollmentStore where
  now : ℤ
  enrollments : Table EnrollmentRow.enrollmentId
  results : Table ValidationResultRow.resultId
  outcomes : Table OutcomeRow.id
  world : Observations
  calls : Table EnrollmentCall.id

structure EnrollmentPlanInput where
  (targetId clusterId : String)
  clusterRevision : Uuid
  (requiredCommissioning requiredQualification : List String)

def EnrollmentRow.new (enrollmentId : Uuid) (requestId : String) (now : ℤ)
    (input : EnrollmentPlanInput) : EnrollmentRow where
  enrollmentId := enrollmentId
  targetId := input.targetId
  clusterId := input.clusterId
  clusterRevision := input.clusterRevision
  requiredCommissioning := input.requiredCommissioning
  requiredQualification := input.requiredQualification
  lifecycleState := .discovered
  healthStatus := .unknown
  complianceStatus := .unknown
  commissioningStatus := pendingGateStatus input.requiredCommissioning
  qualificationStatus := pendingGateStatus input.requiredQualification
  plan :=
    { source := none
      status := none
      setupReapplySupported := false
      setupFeatures := []
      setupReceipt := none }
  progress := .plain "discovered" none false
  lastError := none
  revision := ⟨"enrollment-state", enrollmentId, [], requestId⟩
  validationCycleStartedAt := now
  updatedAt := now
  activatedAt := none
  evidence := none
  commissioned := false
  isolations := []

inductive EnrollmentLabel
  | enroll (enrollmentId : Uuid) (requestId : String) (input : EnrollmentPlanInput)
  | load (callId : ℕ) (requestId actorId : String) (enrollmentId : Uuid) (operation : Operation)
  /-- The checks on the loaded row, with what they read, and the time of the change. -/
  | prepare (callId : ℕ)
  /-- The `INSERT` of `validation_record`. -/
  | record (callId : ℕ)
  /-- Its `SELECT`; results of one instant come in any order. -/
  | select (callId : ℕ) (rows : List ValidationResultRow)
  | update (callId : ℕ)
  | stop (callId : ℕ)
  /-- Incidents, signals, health and clusters change. -/
  | observe (world : Observations)
  | tick (elapsed : ℕ)

namespace EnrollmentStore

def initial (now : ℤ) : EnrollmentStore where
  now := now
  enrollments := .empty
  results := .empty
  outcomes := .empty
  world := .empty
  calls := .empty

def goOn (s : EnrollmentStore) (call : EnrollmentCall) (stage : CallStage) : EnrollmentStore :=
  { s with calls := s.calls.put { call with stage } }

/-- An enrollment is inserted, unless the target has one that is not retired. -/
def enroll (s : EnrollmentStore) (enrollmentId : Uuid) (requestId : String)
    (input : EnrollmentPlanInput) : Option EnrollmentStore :=
  if s.enrollments.rows.any fun row =>
      row.targetId = input.targetId && row.lifecycleState ≠ .retired then none
  else
    (s.enrollments.insert (.new enrollmentId requestId s.now input)).map fun enrollments =>
      { s with enrollments }

def load (s : EnrollmentStore) (callId : ℕ) (requestId actorId : String) (enrollmentId : Uuid)
    (operation : Operation) : Option EnrollmentStore :=
  match operation.checkInput requestId, s.enrollments.get enrollmentId with
  | .ok (), some row =>
    (s.calls.insert ⟨callId, requestId, actorId, .loaded row operation⟩).map fun calls =>
      { s with calls }
  | _, _ => some s

def prepareStage (s : EnrollmentStore) (row : EnrollmentRow) :
    Operation → Except HostError CallStage
  | .transition input =>
    if row.lifecycleState = input.toState then .ok .done
    else (prepareTransition s.now s.world input row).map (.prepared row)
  | .planRecord plan => (preparePlan s.now plan row).map (.prepared row)
  | .setupRecord input => (prepareSetup s.now input row).map fun change =>
    change.elim .done (.prepared row)
  | .rolloutApply input desired =>
    (prepareRollout s.now input desired row).map (.prepared row)
  | .reconcilePosture observedHealth =>
    if row.lifecycleState = .retired then .ok .done
    else (preparePosture s.now s.world observedHealth row).map fun change =>
      change.elim .done (.prepared row)
  | .validationRecord input => (checkValidation input row).map fun _ =>
    .observed row input s.now

def prepare (s : EnrollmentStore) (call : EnrollmentCall) : Option EnrollmentStore :=
  match call.stage with
  | .loaded row operation =>
    match s.prepareStage row operation with
    | .error _ => some (s.goOn call .done)
    | .ok stage => some (s.goOn call stage)
  | _ => none

def resultRow (requestId : String) (row : EnrollmentRow) (input : ValidationRecordInput)
    (observedAt : ℤ) : ValidationResultRow where
  resultId := ⟨"validation-result", row.enrollmentId, [input.gate.asStr, input.checkId], requestId⟩
  enrollmentId := row.enrollmentId
  gate := input.gate
  checkId := input.checkId
  status := input.status
  required := (input.gate.required row).contains input.checkId
  summary := input.summary
  observedAt := observedAt

/-- The result is inserted, or written in place of the one with its id. -/
def upsertResult (s : EnrollmentStore) (result : ValidationResultRow) : EnrollmentStore :=
  match s.results.insert result with
  | some results => { s with results }
  | none => { s with results := s.results.put result }

def record (s : EnrollmentStore) (call : EnrollmentCall) : Option EnrollmentStore :=
  match call.stage with
  | .observed row input observedAt =>
    some ((s.upsertResult (resultRow call.requestId row input observedAt)).goOn call
      (.recorded row input observedAt))
  | _ => none

def selectLimit : ℕ := 200

def resultsOf (s : EnrollmentStore) (enrollmentId : Uuid) (gate : ValidationGate) :
    List ValidationResultRow :=
  s.results.rows.filter fun result =>
    result.enrollmentId = enrollmentId && result.gate = gate

def descending (rows : List ValidationResultRow) : Bool :=
  rows.Pairwise fun result result' => result'.observedAt ≤ result.observedAt

def select (s : EnrollmentStore) (call : EnrollmentCall) (rows : List ValidationResultRow) :
    Option EnrollmentStore :=
  match call.stage with
  | .recorded row input observedAt =>
    if rows.isPerm (s.resultsOf row.enrollmentId input.gate) && descending rows then
      some (s.goOn call (.prepared row (.validation input (rows.take selectLimit)
        (selectLimit < rows.length) observedAt)))
    else none
  | _ => none

/-- The `UPDATE` of an operation, under the revision that was loaded. -/
def update (s : EnrollmentStore) (call : EnrollmentCall) : Option EnrollmentStore :=
  match call.stage with
  | .prepared loaded change =>
    match (s.enrollments.get loaded.enrollmentId).filter fun row =>
        row.revision = loaded.revision with
    | none => some (s.goOn call .done)
    | some row =>
      let new := change.set call.requestId call.actorId loaded row
      match updateOutcomes s.world s.results.rows s.outcomes (change.fires loaded) row new with
      | none => some (s.goOn call .done)
      | some outcomes =>
        some
          { s.goOn call .done with
            enrollments := s.enrollments.put new
            outcomes }
  | _ => none

end EnrollmentStore

abbrev enrollmentMachine : Machine EnrollmentStore EnrollmentLabel where
  step s
    | .enroll enrollmentId requestId input => s.enroll enrollmentId requestId input
    | .load callId requestId actorId enrollmentId operation =>
      s.load callId requestId actorId enrollmentId operation
    | .prepare callId => (s.calls.get callId).bind s.prepare
    | .record callId => (s.calls.get callId).bind s.record
    | .select callId rows => (s.calls.get callId).bind fun call => s.select call rows
    | .update callId => (s.calls.get callId).bind s.update
    | .stop callId => (s.calls.get callId).map fun call => s.goOn call .done
    | .observe world => some { s with world }
    | .tick elapsed => some { s with now := s.now + elapsed }

end Gadgetron.Enrollment
