import Gadgetron.Alerts.Rule
import Gadgetron.Lib.Exec
import Gadgetron.Lib.Table

/-!
# Evaluation of the alert rules

One evaluation of a host: `active_conditions` of its samples, `reconcile` with the alerts that it
has, and what `reconcile_telemetry` writes.
-/

namespace Gadgetron.Alerts

open Lib

structure ActiveCondition where
  (fingerprint ruleKey incidentScope : String)
  severity : Severity
  message : String

inductive AlertState
  | pending
  | firing
  deriving DecidableEq

structure PriorAlert where
  (fingerprint ruleKey : String)
  state : AlertState
  pendingSince : ℤ
  activeSince : Option ℤ
  metric : Option String

structure AlertProjection where
  (fingerprint ruleKey incidentScope : String)
  severity : Severity
  message : String
  state : AlertState
  pendingSince : ℤ
  activeSince : Option ℤ

structure AlertRow where
  (fingerprint hostId ruleKey incidentScope : String)
  severity : Severity
  message : String
  state : AlertState
  pendingSince : ℤ
  activeSince : Option ℤ
  lastEvalAt : ℤ

section

-- The `Display` of an `f64`.
variable (display : F64 → String)

def hardwareCondition (hostId : String) (sample : MetricSample) (ruleKey summary : String) :
    ActiveCondition where
  fingerprint := hardwareFingerprint hostId sample.metric
  ruleKey := ruleKey
  incidentScope := metricIncidentScope sample.metric
  severity := .critical
  message := summary ++ " — " ++ sample.metric ++ " " ++ display sample.value ++ " " ++ sample.unit

def metricCondition (hostId : String) (sample : MetricSample) (rule : MetricRule)
    (severity : Severity) : ActiveCondition where
  fingerprint := metricFingerprint rule.ruleId hostId sample.metric
  ruleKey := rule.ruleKey
  incidentScope := metricIncidentScope sample.metric
  severity := severity
  message := rule.label ++ " — " ++ sample.metric ++ " " ++ display sample.value ++ " " ++
    sample.unit ++ " " ++ rule.direction.asStr

def startsWith (start text : String) : Bool := start.toList.isPrefixOf text.toList

def endsWith (final text : String) : Bool := final.toList.isSuffixOf text.toList

def F64.zero : F64 := .finite 0

def F64.positive (value : F64) : Bool := value.ge .zero && !F64.zero.ge value

def indexedXidActive (samples : List MetricSample) : Bool :=
  samples.any fun sample =>
    startsWith "gpu." sample.metric && endsWith ".xid" sample.metric &&
      sample.metric ≠ "gpu.xid_last" && sample.value.positive

def sampleConditions (hostId : String) (rules : List MetricRule) (indexedXidActive : Bool)
    (sample : MetricSample) : List ActiveCondition :=
  (if endsWith ".ecc_dbe" sample.metric && sample.value.positive then
    [hardwareCondition display hostId sample hardwareEccRule "Uncorrected GPU ECC errors detected"]
  else []) ++
  (if (endsWith ".xid" sample.metric || sample.metric = "gpu.xid_last") && sample.value.positive &&
      !(sample.metric = "gpu.xid_last" && indexedXidActive) then
    [hardwareCondition display hostId sample hardwareXidRule "NVIDIA XID hardware event detected"]
  else []) ++
  (rules.filter fun rule =>
      rule.enabled && metricMatches rule.metricPattern sample.metric).filterMap fun rule =>
    (thresholdSeverity rule sample.value).map (metricCondition display hostId sample rule)

/-- `active_conditions`: of the conditions with one fingerprint the first stays. -/
def activeConditions (hostId : String) (rules : List MetricRule) (samples : List MetricSample) :
    List ActiveCondition :=
  (sortBy (fun left right => compare left.fingerprint right.fingerprint)
    (samples.flatMap (sampleConditions display hostId rules (indexedXidActive samples)))).destutter
      fun left right => left.fingerprint ≠ right.fingerprint

/-- `signed_duration_since(..).num_seconds()`. -/
def secondsSince (now since : ℤ) : ℤ := (now - since).tdiv 1000

/-- How long the rule of a condition has to be broken before its alert fires. -/
def ruleWait (rules : List MetricRule) (ruleKey : String) : ℤ :=
  ((indexBy MetricRule.ruleKey rules ruleKey).map (·.forSeconds)).getD 0

def keepAlert (prior : List PriorAlert) (rules : List MetricRule) (now : ℤ)
    (condition : ActiveCondition) : AlertProjection :=
  let wait := ruleWait rules condition.ruleKey
  let prior := indexBy PriorAlert.fingerprint prior condition.fingerprint
  let pendingSince := (prior.map (·.pendingSince)).getD now
  let canFire : Bool := wait = 0 || wait ≤ secondsSince now pendingSince
  let alreadyFiring := prior.any (·.state = .firing)
  let state : AlertState := if canFire || alreadyFiring then .firing else .pending
  { fingerprint := condition.fingerprint
    ruleKey := condition.ruleKey
    incidentScope := condition.incidentScope
    severity := condition.severity
    message := condition.message
    state
    pendingSince
    activeSince := if state = .firing then (prior.bind (·.activeSince)).or (some now) else none }

def deletes (active : List ActiveCondition) (rules : List MetricRule)
    (observedMetrics : List String) (alert : PriorAlert) : Bool :=
  if active.any (·.fingerprint = alert.fingerprint) then false
  else if alert.ruleKey = hardwareEccRule || alert.ruleKey = hardwareXidRule then
    alert.metric.any observedMetrics.contains
  else
    match rules.find? (·.ruleKey = alert.ruleKey) with
    | some rule => !rule.enabled || alert.metric.any observedMetrics.contains
    | none => startsWith metricRulePrefix alert.ruleKey

/-- `reconcile`: the alerts to keep and the fingerprints of those to delete. -/
def reconcile (active : List ActiveCondition) (prior : List PriorAlert) (rules : List MetricRule)
    (observedMetrics : List String) (now : ℤ) : List AlertProjection × List String :=
  (active.map (keepAlert prior rules now),
    (prior.filter (deletes active rules observedMetrics)).map (·.fingerprint))

def isPrior (hostId : String) (row : AlertRow) : Bool :=
  row.hostId = hostId && (startsWith metricRulePrefix row.ruleKey ||
    row.ruleKey = hardwareEccRule || row.ruleKey = hardwareXidRule)

def priorAlert (hostId : String) (row : AlertRow) : PriorAlert where
  fingerprint := row.fingerprint
  ruleKey := row.ruleKey
  state := row.state
  pendingSince := row.pendingSince
  activeSince := row.activeSince
  metric := alertMetric row.fingerprint row.ruleKey hostId

def priorAlerts (hostId : String) (rows : List AlertRow) : List PriorAlert :=
  (rows.filter (isPrior hostId)).map (priorAlert hostId)

def alertRow (hostId : String) (evaluatedAt : ℤ) (alert : AlertProjection) : AlertRow where
  fingerprint := alert.fingerprint
  hostId := hostId
  ruleKey := alert.ruleKey
  incidentScope := alert.incidentScope
  severity := alert.severity
  message := alert.message
  state := alert.state
  pendingSince := alert.pendingSince
  activeSince := alert.activeSince
  lastEvalAt := evaluatedAt

structure Evaluation where
  evaluatedAt : ℤ
  samples : List MetricSample
  deriving DecidableEq

def evaluate (hostId : String) (rules : List MetricRule) (alerts : Table AlertRow.fingerprint)
    (evaluation : Evaluation) : Table AlertRow.fingerprint :=
  let active := activeConditions display hostId rules evaluation.samples
  let prior := priorAlerts hostId alerts.rows
  let (keep, resolved) := reconcile active prior rules (evaluation.samples.map (·.metric))
    evaluation.evaluatedAt
  ((keep.map (alertRow hostId evaluation.evaluatedAt)).foldl Table.upsert alerts).deleteWhere
    fun row => resolved.contains row.fingerprint

end

end Gadgetron.Alerts
