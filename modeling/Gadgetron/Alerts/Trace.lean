import Gadgetron.Alerts.Reconcile

/-!
# Alerts and their traces

The alert of a rule and a metric exists while the last evaluation that observed the metric broke the
rule, and its times are those of the current streak.
-/

namespace Gadgetron.Alerts

open Lib List Option

variable {display : F64 → String} {hostId metric : String} {rules : List MetricRule}
  {rule : MetricRule} {alerts : Table AlertRow.fingerprint} {evaluation : Evaluation}
  {history : List Evaluation}

def observes (metric : String) (evaluation : Evaluation) : Bool :=
  evaluation.samples.any (·.metric = metric)

def breaches (rule : MetricRule) (metric : String) (evaluation : Evaluation) : Bool :=
  evaluation.samples.any fun sample =>
    sample.metric = metric && (thresholdSeverity rule sample.value).isSome

def streak (rule : MetricRule) (metric : String) (history : List Evaluation) : List Evaluation :=
  (history.filter (observes metric)).rtakeWhile (breaches rule metric)

/-- An evaluation comes `for_seconds` after an instant, or later. -/
def waited (rule : MetricRule) (pendingSince : ℤ) (evaluation : Evaluation) : Bool :=
  rule.forSeconds * 1000 ≤ evaluation.evaluatedAt - pendingSince

structure AlertTimes where
  pendingSince : ℤ
  state : AlertState
  activeSince : Option ℤ

def AlertRow.times (row : AlertRow) : AlertTimes := ⟨row.pendingSince, row.state, row.activeSince⟩

def timesOf (rule : MetricRule) (pendingSince : ℤ) (streak : List Evaluation) : AlertTimes where
  pendingSince := pendingSince
  state := if streak.any (waited rule pendingSince) then .firing else .pending
  activeSince := (streak.find? (waited rule pendingSince)).map (·.evaluatedAt)

def traceAlert (rule : MetricRule) (metric : String) (history : List Evaluation) :
    Option AlertTimes :=
  (streak rule metric history).head?.map fun first =>
    timesOf rule first.evaluatedAt (streak rule metric history)

theorem observes_of_breaches (h : breaches rule metric evaluation) :
    observes metric evaluation := by
  simp only [breaches, observes, List.any_eq_true, Bool.and_eq_true] at h ⊢
  obtain ⟨sample, hsample, hmetric, -⟩ := h
  exact ⟨sample, hsample, hmetric⟩

theorem streak_append : streak rule metric (history ++ [evaluation]) =
    if breaches rule metric evaluation then streak rule metric history ++ [evaluation]
    else if observes metric evaluation then [] else streak rule metric history := by
  unfold streak
  by_cases hobserves : observes metric evaluation
  · rw [filter_append, filter_cons_of_pos hobserves, filter_nil,
      rtakeWhile_concat]
    simp [hobserves]
  · have hquiet : ¬ breaches rule metric evaluation := fun h => hobserves (observes_of_breaches h)
    rw [filter_append, filter_cons_of_neg hobserves, filter_nil, append_nil,
      if_neg hquiet, if_neg hobserves]

theorem timesOf_append (pendingSince : ℤ) (before : List Evaluation) :
    timesOf rule pendingSince (before ++ [evaluation]) = { timesOf rule pendingSince before with
        state :=
          if waited rule pendingSince evaluation ||
              (timesOf rule pendingSince before).state = .firing then .firing else .pending
        activeSince :=
          if waited rule pendingSince evaluation ||
              (timesOf rule pendingSince before).state = .firing then
            (timesOf rule pendingSince before).activeSince.or (some evaluation.evaluatedAt)
          else none } := by
  simp only [timesOf, any_append, find?_append]
  by_cases hany : before.any (waited rule pendingSince)
  · obtain ⟨first, hfirst⟩ := isSome_iff_exists.1 (find?_isSome.2
      (List.any_eq_true.1 hany))
    simp [hany, hfirst]
  · rw [Bool.not_eq_true] at hany
    have hnone : before.find? (waited rule pendingSince) = none := by
      simpa using hany
    by_cases hwaited : waited rule pendingSince evaluation
    · simp [hany, hnone, hwaited]
    · simp [hany, hnone, hwaited]

/-! ## Conditions -/

/-- Valid rules with distinct ids. -/
structure ValidRules (rules : List MetricRule) : Prop where
  valid : ∀ rule ∈ rules, rule.validate = .ok ()
  distinct : (rules.map (·.ruleId)).Nodup

/-- An enabled rule whose pattern takes the metric. -/
structure Covers (rules : List MetricRule) (rule : MetricRule) (metric : String) : Prop where
  mem : rule ∈ rules
  enabled : rule.enabled
  covers : metricMatches rule.metricPattern metric

theorem ValidRules.canonical (h : ValidRules rules) (hrule : rule ∈ rules) :
    canonicalRuleId rule.ruleId :=
  canonical_of_validate (h.valid rule hrule)

variable {rule' : MetricRule}

theorem ValidRules.eq_of_ruleId (h : ValidRules rules) (hrule : rule ∈ rules)
    (hrule' : rule' ∈ rules) (hid : rule.ruleId = rule'.ruleId) : rule = rule' :=
  inj_on_of_nodup_map h.distinct hrule hrule' hid

theorem ValidRules.eq_of_ruleKey (h : ValidRules rules) (hrule : rule ∈ rules)
    (hrule' : rule' ∈ rules) (hkey : rule.ruleKey = rule'.ruleKey) : rule = rule' := by
  have hlist := congrArg String.toList hkey
  simp only [MetricRule.ruleKey, String.toList_append] at hlist
  exact h.eq_of_ruleId hrule hrule' (String.toList_inj.1 (append_cancel_left hlist))

def KeyOf (hostId : String) (rules : List MetricRule) (fingerprint ruleKey : String) : Prop :=
  (∃ metric, fingerprint = hardwareFingerprint hostId metric ∧
    (ruleKey = hardwareEccRule ∨ ruleKey = hardwareXidRule)) ∨
  ∃ rule ∈ rules, ∃ metric, fingerprint = metricFingerprint rule.ruleId hostId metric ∧
    ruleKey = rule.ruleKey

theorem keyOf_metric (hrules : ValidRules rules) (hrule : rule ∈ rules) {ruleKey : String}
    (h : KeyOf hostId rules (metricFingerprint rule.ruleId hostId metric) ruleKey) :
    ruleKey = rule.ruleKey := by
  rcases h with ⟨_, hfingerprint, -⟩ | ⟨rule', hrule', metric', hfingerprint, hkey⟩
  · exact absurd hfingerprint.symm hardwareFingerprint_ne
  · obtain ⟨hid, -⟩ := metricFingerprint_inj (hrules.canonical hrule) (hrules.canonical hrule')
      hfingerprint
    rw [hkey, hrules.eq_of_ruleId hrule hrule' hid]

variable {condition : ActiveCondition}

theorem mem_sampleConditions {xid : Bool} {sample : MetricSample}
    (h : condition ∈ sampleConditions display hostId rules xid sample) :
    (condition.fingerprint = hardwareFingerprint hostId sample.metric ∧
      (condition.ruleKey = hardwareEccRule ∨ condition.ruleKey = hardwareXidRule)) ∨
    ∃ rule ∈ rules, ∃ severity, thresholdSeverity rule sample.value = some severity ∧
      condition = metricCondition display hostId sample rule severity := by
  simp only [sampleConditions, mem_append, mem_filterMap, List.mem_filter, map_eq_some_iff] at h
  rcases h with (h | h) | ⟨rule, ⟨hrule, -⟩, severity, hseverity, rfl⟩
  · split_ifs at h
    · rw [mem_singleton.1 h]
      exact .inl ⟨rfl, .inl rfl⟩
    · cases h
  · split_ifs at h
    · rw [mem_singleton.1 h]
      exact .inl ⟨rfl, .inr rfl⟩
    · cases h
  · exact .inr ⟨rule, hrule, severity, hseverity, rfl⟩

variable {samples : List MetricSample}

theorem mem_activeConditions (h : condition ∈ activeConditions display hostId rules samples) :
    ∃ sample ∈ samples, condition ∈
      sampleConditions display hostId rules (indexedXidActive samples) sample := by
  have hmem := mem_sortBy.1 ((destutter_sublist _ _).subset h)
  exact mem_flatMap.1 hmem

theorem keyOf_activeCondition (h : condition ∈ activeConditions display hostId rules samples) :
    KeyOf hostId rules condition.fingerprint condition.ruleKey := by
  obtain ⟨sample, -, hcondition⟩ := mem_activeConditions h
  rcases mem_sampleConditions hcondition with ⟨hfingerprint, hkey⟩ | ⟨rule, hrule, _, -, rfl⟩
  · exact .inl ⟨sample.metric, hfingerprint, hkey⟩
  · exact .inr ⟨rule, hrule, sample.metric, rfl, rfl⟩

theorem exists_activeCondition_iff (display : F64 → String) (hostId : String)
    (evaluation : Evaluation) (hrules : ValidRules rules) (hcovers : Covers rules rule metric) :
    (∃ condition ∈ activeConditions display hostId rules evaluation.samples,
        condition.fingerprint = metricFingerprint rule.ruleId hostId metric) ↔
      breaches rule metric evaluation := by
  rw [breaches, List.any_eq_true]
  constructor
  · rintro ⟨condition, hcondition, hfingerprint⟩
    obtain ⟨sample, hsample, hmem⟩ := mem_activeConditions hcondition
    rcases mem_sampleConditions hmem with ⟨hhardware, -⟩ | ⟨rule', hrule', severity, hseverity, rfl⟩
    · exact absurd (hhardware.symm.trans hfingerprint) hardwareFingerprint_ne
    · obtain ⟨hid, hmetric⟩ := metricFingerprint_inj (hrules.canonical hrule')
        (hrules.canonical hcovers.mem) hfingerprint
      obtain rfl := hrules.eq_of_ruleId hrule' hcovers.mem hid
      exact ⟨sample, hsample, by simp [hmetric, hseverity]⟩
  · rintro ⟨sample, hsample, htest⟩
    rw [Bool.and_eq_true, decide_eq_true_eq] at htest
    obtain ⟨rfl, hbreach⟩ := htest
    obtain ⟨severity, hseverity⟩ := isSome_iff_exists.1 hbreach
    have hmem : metricCondition display hostId sample rule severity ∈
        evaluation.samples.flatMap
          (sampleConditions display hostId rules (indexedXidActive evaluation.samples)) := by
      refine mem_flatMap.2 ⟨sample, hsample, mem_append_right _ ?_⟩
      refine mem_filterMap.2 ⟨rule, List.mem_filter.2 ⟨hcovers.mem, ?_⟩, ?_⟩
      · rw [hcovers.enabled, hcovers.covers]
        rfl
      · rw [hseverity]
        rfl
    exact exists_mem_destutter ActiveCondition.fingerprint (mem_sortBy.2 hmem)

/-! ## One evaluation -/

structure Owned (hostId : String) (rules : List MetricRule) (row : AlertRow) : Prop where
  host : row.hostId = hostId
  key : KeyOf hostId rules row.fingerprint row.ruleKey

theorem startsWith_append (start text : String) : startsWith start (start ++ text) := by
  simp [startsWith]

theorem Owned.isPrior {row : AlertRow} (h : Owned hostId rules row) : isPrior hostId row := by
  unfold Alerts.isPrior
  rw [h.host]
  rcases h.key with ⟨_, -, hkey | hkey⟩ | ⟨rule, -, _, -, hkey⟩
  · simp [hkey]
  · simp [hkey]
  · rw [hkey, MetricRule.ruleKey, startsWith_append]
    simp

theorem indexBy_priorAlerts (howned : ∀ row ∈ alerts, Owned hostId rules row)
    (fingerprint : String) :
    indexBy PriorAlert.fingerprint (priorAlerts hostId alerts.rows) fingerprint =
      (alerts.get fingerprint).map (priorAlert hostId) := by
  cases hget : alerts.get fingerprint with
  | none =>
    refine indexBy_eq_none.2 fun alert halert => ?_
    obtain ⟨row, hrow, rfl⟩ := List.mem_map.1 halert
    exact Table.get_eq_none.1 hget row (List.mem_filter.1 hrow).1
  | some row =>
    obtain ⟨hmem, rfl⟩ := Table.get_eq_some.1 hget
    have hprior : priorAlert hostId row ∈ priorAlerts hostId alerts.rows :=
      List.mem_map_of_mem (List.mem_filter.2 ⟨hmem, (howned row hmem).isPrior⟩)
    refine indexBy_of_unique (a := priorAlert hostId row) hprior fun other hother hsame => ?_
    obtain ⟨row', hrow', rfl⟩ := List.mem_map.1 hother
    rw [Table.eq_of_key (List.mem_filter.1 hrow').1 hmem hsame]

theorem ruleWait_ruleKey (hrules : ValidRules rules) (hrule : rule ∈ rules) :
    ruleWait rules rule.ruleKey = rule.forSeconds := by
  rw [ruleWait, indexBy_of_unique hrule fun _ hother hkey => hrules.eq_of_ruleKey hother hrule hkey]
  rfl

def nextTimes (rule : MetricRule) (now : ℤ) (prior : Option AlertTimes) : AlertTimes :=
  let pendingSince := (prior.map (·.pendingSince)).getD now
  let canFire : Bool := rule.forSeconds = 0 || rule.forSeconds ≤ secondsSince now pendingSince
  let state : AlertState := if canFire || prior.any (·.state = .firing) then .firing else .pending
  { pendingSince
    state
    activeSince := if state = .firing then (prior.bind (·.activeSince)).or (some now) else none }

theorem times_keepAlert (hrules : ValidRules rules) (hrule : rule ∈ rules)
    (howned : ∀ row ∈ alerts, Owned hostId rules row)
    (hkey : condition.ruleKey = rule.ruleKey) (now : ℤ) : (alertRow hostId now
        (keepAlert (priorAlerts hostId alerts.rows) rules now condition)).times =
      nextTimes rule now ((alerts.get condition.fingerprint).map AlertRow.times) := by
  unfold keepAlert alertRow AlertRow.times nextTimes
  dsimp only
  rw [hkey, ruleWait_ruleKey hrules hrule, indexBy_priorAlerts howned]
  cases alerts.get condition.fingerprint with
  | none | some => rfl

theorem contains_resolved (howned : ∀ row ∈ alerts, Owned hostId rules row)
    (test : PriorAlert → Bool) (fingerprint : String) :
    (((priorAlerts hostId alerts.rows).filter test).map (·.fingerprint)).contains fingerprint =
      ((alerts.get fingerprint).map (priorAlert hostId)).any test := by
  rw [Bool.eq_iff_iff, contains_iff_mem, ← indexBy_priorAlerts howned, Option.any_eq_true]
  constructor
  · intro h
    obtain ⟨alert, halert, rfl⟩ := List.mem_map.1 h
    obtain ⟨hmem, htest⟩ := List.mem_filter.1 halert
    refine ⟨alert, indexBy_of_unique hmem fun other hother hsame => ?_, htest⟩
    obtain ⟨row, hrow, rfl⟩ := List.mem_map.1 hmem
    obtain ⟨row', hrow', rfl⟩ := List.mem_map.1 hother
    rw [Table.eq_of_key (List.mem_filter.1 hrow').1 (List.mem_filter.1 hrow).1 hsame]
  · rintro ⟨alert, hfind, htest⟩
    obtain ⟨hmem, rfl⟩ := of_indexBy_eq_some hfind
    exact List.mem_map_of_mem (List.mem_filter.2 ⟨hmem, htest⟩)

theorem ruleKey_ne_hardware (rule : MetricRule) :
    rule.ruleKey ≠ hardwareEccRule ∧ rule.ruleKey ≠ hardwareXidRule := by
  constructor
  all_goals
    intro h
    have hhead := congrArg List.head? (congrArg String.toList h)
    rw [MetricRule.ruleKey, String.toList_append] at hhead
    cases hhead

theorem find_ruleKey (hrules : ValidRules rules) (hrule : rule ∈ rules) :
    rules.find? (·.ruleKey = rule.ruleKey) = some rule := by
  cases hfind : rules.find? (·.ruleKey = rule.ruleKey) with
  | none =>
    have hnone := find?_eq_none.1 hfind rule hrule
    simp at hnone
  | some other =>
    have hkey : other.ruleKey = rule.ruleKey := by simpa using find?_some hfind
    rw [hrules.eq_of_ruleKey (mem_of_find?_eq_some hfind) hrule hkey]

theorem deletes_metric (hrules : ValidRules rules) (hcovers : Covers rules rule metric)
    {active : List ActiveCondition} {row : AlertRow} (howned : Owned hostId rules row)
    (hrow : row.fingerprint = metricFingerprint rule.ruleId hostId metric)
    (hactive : ∀ condition ∈ active,
      condition.fingerprint ≠ metricFingerprint rule.ruleId hostId metric)
    (observedMetrics : List String) : deletes active rules observedMetrics (priorAlert hostId row) =
      observedMetrics.contains metric := by
  have hkey : row.ruleKey = rule.ruleKey := keyOf_metric hrules hcovers.mem (hrow ▸ howned.key)
  have hmetric : (priorAlert hostId row).metric = some metric := by
    rw [priorAlert, hrow, hkey]
    exact alertMetric_metricFingerprint rule hostId metric
  have hnone : active.any (·.fingerprint = (priorAlert hostId row).fingerprint) = false := by
    rw [List.any_eq_false]
    intro condition hcondition
    simpa [priorAlert, hrow] using hactive condition hcondition
  have hhardware := ruleKey_ne_hardware rule
  have hprior : (priorAlert hostId row).ruleKey = rule.ruleKey := hkey
  unfold deletes
  rw [hnone, hmetric, hprior, find_ruleKey hrules hcovers.mem]
  simp [hhardware.1, hhardware.2, hcovers.enabled]

theorem contains_metrics (evaluation : Evaluation) (metric : String) :
    (evaluation.samples.map (·.metric)).contains metric = observes metric evaluation := by
  rw [Bool.eq_iff_iff, contains_iff_mem, observes, List.any_eq_true, List.mem_map]
  simp

theorem times_evaluate (hrules : ValidRules rules) (hcovers : Covers rules rule metric)
    (howned : ∀ row ∈ alerts, Owned hostId rules row) :
    ((evaluate display hostId rules alerts evaluation).get
        (metricFingerprint rule.ruleId hostId metric)).map AlertRow.times =
      if breaches rule metric evaluation then some (nextTimes rule evaluation.evaluatedAt
          ((alerts.get (metricFingerprint rule.ruleId hostId metric)).map AlertRow.times))
      else if observes metric evaluation then none
      else (alerts.get (metricFingerprint rule.ruleId hostId metric)).map AlertRow.times := by
  have hactive := exists_activeCondition_iff display hostId evaluation hrules hcovers
  unfold evaluate reconcile
  dsimp only
  rw [Table.get_deleteWhere]
  rcases Table.get_foldl_upsert
      (((activeConditions display hostId rules evaluation.samples).map
        (keepAlert (priorAlerts hostId alerts.rows) rules evaluation.evaluatedAt)).map
          (alertRow hostId evaluation.evaluatedAt)) alerts
      (metricFingerprint rule.ruleId hostId metric) with
    ⟨row, hrow, hkey, hget⟩ | ⟨hnone, hget⟩
  · -- The rule is broken: the row has been written, and is not deleted.
    rw [List.map_map] at hrow
    obtain ⟨condition, hcondition, rfl⟩ := List.mem_map.1 hrow
    have hfingerprint : condition.fingerprint = metricFingerprint rule.ruleId hostId metric := hkey
    have hruleKey := keyOf_metric hrules hcovers.mem
      (hfingerprint ▸ keyOf_activeCondition hcondition)
    have htimes := times_keepAlert hrules hcovers.mem howned hruleKey evaluation.evaluatedAt
    rw [if_pos (hactive.1 ⟨condition, hcondition, hfingerprint⟩), hget, ← hfingerprint, ← htimes,
      filter_some_pos, map_some]
    · rfl
    · have hstays := contains_resolved howned (deletes
        (activeConditions display hostId rules evaluation.samples) rules
          (evaluation.samples.map (·.metric))) condition.fingerprint
      rw [Bool.not_eq_true', Function.comp_apply, alertRow, keepAlert]
      rw [hstays, Option.any_eq_false]
      intro alert halert
      obtain ⟨old, hold, rfl⟩ := map_eq_some_iff.1 halert
      rw [deletes, if_pos]
      have hsame : condition.fingerprint = old.fingerprint := (Table.key_of_get hold).symm
      exact List.any_eq_true.2 ⟨condition, hcondition, decide_eq_true hsame⟩
  · -- No condition of the alert: the row is as it was, or deleted.
    have hquiet : ∀ condition ∈ activeConditions display hostId rules evaluation.samples,
        condition.fingerprint ≠ metricFingerprint rule.ruleId hostId metric := by
      intro condition hcondition
      rw [List.map_map] at hnone
      exact hnone _ (List.mem_map_of_mem hcondition)
    rw [if_neg fun hbreach => (hactive.2 hbreach).elim fun condition h => hquiet condition h.1 h.2,
      hget]
    cases hold : alerts.get (metricFingerprint rule.ruleId hostId metric) with
    | none => split_ifs <;> rfl
    | some row =>
      obtain ⟨hmem, hrow⟩ := Table.get_eq_some.1 hold
      rw [filter_some, contains_resolved howned, hrow, hold, map_some,
        any_some, deletes_metric hrules hcovers (howned row hmem) hrow hquiet,
        contains_metrics]
      by_cases hobserves : observes metric evaluation
      · simp [hobserves]
      · simp [hobserves]

theorem owned_evaluate (howned : ∀ row ∈ alerts, Owned hostId rules row) :
    ∀ row ∈ evaluate display hostId rules alerts evaluation, Owned hostId rules row := by
  intro row hrow
  rcases Table.of_mem_foldl_upsert (Table.mem_deleteWhere.1 hrow).1 with hkept | hold
  · rw [List.map_map] at hkept
    obtain ⟨condition, hcondition, rfl⟩ := List.mem_map.1 hkept
    exact ⟨rfl, keyOf_activeCondition hcondition⟩
  · exact howned row hold

/-! ## Histories -/

theorem le_secondsSince_iff {now since seconds : ℤ} (hle : since ≤ now) :
    seconds ≤ secondsSince now since ↔ seconds * 1000 ≤ now - since := by
  rw [secondsSince, Int.tdiv_eq_ediv_of_nonneg (by omega)]
  omega

variable {pendingSince : ℤ}

theorem canFire_eq_waited (hle : pendingSince ≤ evaluation.evaluatedAt) :
    (decide (rule.forSeconds = 0) ||
      decide (rule.forSeconds ≤ secondsSince evaluation.evaluatedAt pendingSince)) =
      waited rule pendingSince evaluation := by
  rw [Bool.eq_iff_iff, Bool.or_eq_true, decide_eq_true_eq, decide_eq_true_eq,
    le_secondsSince_iff hle, waited, decide_eq_true_eq]
  omega

theorem nextTimes_eq (prior : Option AlertTimes)
    (hprior : (prior.map (·.pendingSince)).getD evaluation.evaluatedAt = pendingSince)
    (hle : pendingSince ≤ evaluation.evaluatedAt) : nextTimes rule evaluation.evaluatedAt prior =
      { pendingSince
        state :=
          if waited rule pendingSince evaluation || prior.any (·.state = .firing) then .firing
          else .pending
        activeSince :=
          if waited rule pendingSince evaluation || prior.any (·.state = .firing) then
            (prior.bind (·.activeSince)).or (some evaluation.evaluatedAt)
          else none } := by
  unfold nextTimes
  dsimp only
  rw [hprior, canFire_eq_waited hle]
  by_cases hfires : waited rule pendingSince evaluation || prior.any (·.state = .firing)
  · rw [if_pos hfires, if_pos hfires, if_pos rfl]
  · rw [if_neg hfires, if_neg hfires, if_neg (by simp)]

theorem nextTimes_traceAlert (hbreaches : breaches rule metric evaluation)
    (htimes : ∀ old ∈ history, old.evaluatedAt ≤ evaluation.evaluatedAt) :
    some (nextTimes rule evaluation.evaluatedAt (traceAlert rule metric history)) =
      traceAlert rule metric (history ++ [evaluation]) := by
  have hsuffix : streak rule metric history <:+ history.filter (observes metric) :=
    rtakeWhile_suffix _ _
  unfold traceAlert
  rw [streak_append, if_pos hbreaches]
  cases hstreak : streak rule metric history with
  | nil =>
    rw [head?_nil, map_none, nextTimes_eq none rfl le_rfl, nil_append, head?_cons, map_some]
    by_cases hwaited : waited rule evaluation.evaluatedAt evaluation
    · simp [timesOf, hwaited]
    · simp [timesOf, hwaited]
  | cons first rest =>
    have hfirst : first ∈ history := by
      rw [hstreak] at hsuffix
      exact (List.mem_filter.1 (hsuffix.subset mem_cons_self)).1
    rw [cons_append, head?_cons, head?_cons, map_some, map_some,
      ← cons_append, timesOf_append,
      nextTimes_eq (some (timesOf rule first.evaluatedAt (first :: rest))) rfl
        (htimes first hfirst)]
    rfl

structure Traced (hostId : String) (rules : List MetricRule) (history : List Evaluation)
    (alerts : Table AlertRow.fingerprint) : Prop where
  owned : ∀ row ∈ alerts, Owned hostId rules row
  times : ∀ rule metric, Covers rules rule metric →
    (alerts.get (metricFingerprint rule.ruleId hostId metric)).map AlertRow.times =
      traceAlert rule metric history

theorem Traced.append (hrules : ValidRules rules) (h : Traced hostId rules history alerts)
    (htimes : ∀ old ∈ history, old.evaluatedAt ≤ evaluation.evaluatedAt) :
    Traced hostId rules (history ++ [evaluation])
      (evaluate display hostId rules alerts evaluation) := by
  refine ⟨owned_evaluate h.owned, fun rule metric hcovers => ?_⟩
  rw [times_evaluate hrules hcovers h.owned, h.times rule metric hcovers]
  by_cases hbreaches : breaches rule metric evaluation
  · rw [if_pos hbreaches]
    exact nextTimes_traceAlert hbreaches htimes
  · rw [if_neg hbreaches, traceAlert, traceAlert, streak_append, if_neg hbreaches]
    split_ifs <;> rfl

def sampleReading (value : ℚ) : MetricSample := ⟨"gpu.0.temp", .finite value, "celsius"⟩

/-- A streak with a gap: the metric is not observed between two breaching evaluations. -/
def sampleHistory : List Evaluation :=
  [⟨0, [sampleReading 70]⟩, ⟨1000, [sampleReading 80]⟩, ⟨30000, []⟩, ⟨61000, [sampleReading 76]⟩]

end Gadgetron.Alerts
