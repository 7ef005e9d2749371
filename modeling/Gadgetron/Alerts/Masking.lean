import Gadgetron.Alerts.Reconcile

/-!
# Alerts of samples that share a metric

The samples of a telemetry snapshot, and the breaches that their alerts stand for.  Disks and
temperature inputs have one metric together, so several breaches can share an alert.
-/

namespace Gadgetron.Alerts

open Lib List Option

structure DiskStats where
  (usedBytes totalBytes usedPercent : Option F64)

structure GpuStats where
  index : Option ℕ
  (utilPercent memoryUsedMib memoryTotalMib temperatureC memoryTemperatureC powerW : Option F64)
  (powerLimitW eccDbeTotal xidLast throttleReasons : Option F64)

structure InterfaceStats where
  interface : Option String
  (rxBps txBps rxBytesTotal txBytesTotal : Option F64)

/-- What `metric_samples` reads of a snapshot: a field that is no number is `none`. -/
structure Telemetry where
  (cpuUtilPercent cpuLoad1m cpuLoad5m memoryUsedPercent memoryUsedBytes : Option F64)
  (memoryAvailableBytes memorySwapUsedBytes uptimeSeconds : Option F64)
  disks : List DiskStats
  /-- The `celsius` of each input. -/
  temperatures : List (Option F64)
  gpus : List GpuStats
  /-- The `code` of each event. -/
  xidEvents : List (Option F64)
  network : List InterfaceStats
  (psuWatts gpuWatts : Option F64)

def pushMetric (metric : String) (value : Option F64) (unit : String) : List MetricSample :=
  (value.filter F64.isFinite).toList.map fun value => ⟨metric, value, unit⟩

def diskSamples (disk : DiskStats) : List MetricSample :=
  pushMetric "disk.used_bytes" disk.usedBytes "bytes" ++
  pushMetric "disk.total_bytes" disk.totalBytes "bytes" ++
  pushMetric "disk.used_percent" disk.usedPercent "percent"

def interfaceSamples (interface : InterfaceStats) : List MetricSample :=
  let name := "nic." ++ interface.interface.getD "unknown" ++ "."
  pushMetric (name ++ "rx_bps") interface.rxBps "bytes_per_sec" ++
  pushMetric (name ++ "tx_bps") interface.txBps "bytes_per_sec" ++
  pushMetric (name ++ "rx_bytes_total") interface.rxBytesTotal "bytes" ++
  pushMetric (name ++ "tx_bytes_total") interface.txBytesTotal "bytes"

section

-- `used * 100.0 / total`.
variable (percentOf : F64 → F64 → F64)

def memUsedPercent (gpu : GpuStats) : Option F64 := do
  let used ← gpu.memoryUsedMib
  let total ← gpu.memoryTotalMib
  if total.positive then some (percentOf used total) else none

def gpuSamples (gpu : GpuStats) : List MetricSample :=
  let name := "gpu." ++ toString (gpu.index.getD 0) ++ "."
  pushMetric (name ++ "util") gpu.utilPercent "percent" ++
  pushMetric (name ++ "mem_used_mib") gpu.memoryUsedMib "mib" ++
  pushMetric (name ++ "mem_total_mib") gpu.memoryTotalMib "mib" ++
  pushMetric (name ++ "temp") gpu.temperatureC "celsius" ++
  pushMetric (name ++ "mem_temp") gpu.memoryTemperatureC "celsius" ++
  pushMetric (name ++ "power_w") gpu.powerW "watts" ++
  pushMetric (name ++ "power_limit_w") gpu.powerLimitW "watts" ++
  pushMetric (name ++ "ecc_dbe") gpu.eccDbeTotal "count" ++
  pushMetric (name ++ "xid") gpu.xidLast "code" ++
  pushMetric (name ++ "throttle_bits") gpu.throttleReasons "bitmask" ++
  pushMetric (name ++ "mem_used_percent") (memUsedPercent percentOf gpu) "percent"

def metricSamples (stats : Telemetry) : List MetricSample :=
  pushMetric "cpu.util" stats.cpuUtilPercent "percent" ++
  pushMetric "cpu.load_1m" stats.cpuLoad1m "load" ++
  pushMetric "cpu.load_5m" stats.cpuLoad5m "load" ++
  pushMetric "mem.used_percent" stats.memoryUsedPercent "percent" ++
  pushMetric "mem.used_bytes" stats.memoryUsedBytes "bytes" ++
  pushMetric "mem.available_bytes" stats.memoryAvailableBytes "bytes" ++
  pushMetric "mem.swap_used_bytes" stats.memorySwapUsedBytes "bytes" ++
  pushMetric "uptime_seconds" stats.uptimeSeconds "seconds" ++
  stats.disks.flatMap diskSamples ++
  stats.temperatures.flatMap (fun celsius => pushMetric "temp.celsius" celsius "celsius") ++
  stats.gpus.flatMap (gpuSamples percentOf) ++
  pushMetric "gpu.xid_last" (stats.xidEvents.head?.bind id) "code" ++
  stats.network.flatMap interfaceSamples ++
  pushMetric "power.psu_watts" stats.psuWatts "watts" ++
  pushMetric "power.gpu_watts" stats.gpuWatts "watts"

end

/-! ## Breaches -/

def Severity.atLeast : Severity → Severity → Bool
  | .critical, _ => true
  | .high, other => other = .high

structure Breach where
  sample : MetricSample
  rule : MetricRule
  severity : Severity

def breachesOf (rules : List MetricRule) (samples : List MetricSample) : List Breach :=
  samples.flatMap fun sample =>
    (rules.filter fun rule =>
      rule.enabled && metricMatches rule.metricPattern sample.metric).filterMap fun rule =>
        (thresholdSeverity rule sample.value).map (⟨sample, rule, ·⟩)

namespace Breach

def fingerprint (hostId : String) (breach : Breach) : String :=
  metricFingerprint breach.rule.ruleId hostId breach.sample.metric

def condition (display : F64 → String) (hostId : String) (breach : Breach) : ActiveCondition :=
  metricCondition display hostId breach.sample breach.rule breach.severity

/-- The alert is of the breach, and at least as severe. -/
def KeptBy (hostId : String) (breach : Breach) (alert : AlertProjection) : Prop :=
  alert.fingerprint = breach.fingerprint hostId ∧ alert.ruleKey = breach.rule.ruleKey ∧
    alert.severity.atLeast breach.severity

end Breach

variable {display : F64 → String} {hostId : String} {rules : List MetricRule}
  {samples : List MetricSample}

theorem mem_breachesOf {breach : Breach} : breach ∈ breachesOf rules samples ↔
    breach.sample ∈ samples ∧ breach.rule ∈ rules ∧ breach.rule.enabled ∧
      metricMatches breach.rule.metricPattern breach.sample.metric ∧
      thresholdSeverity breach.rule breach.sample.value = some breach.severity := by
  simp only [breachesOf, mem_flatMap, mem_filterMap, List.mem_filter,
    map_eq_some_iff, Bool.and_eq_true]
  constructor
  · rintro ⟨sample, hsample, rule, ⟨hrule, henabled, hmatches⟩, severity, hseverity, rfl⟩
    exact ⟨hsample, hrule, henabled, hmatches, hseverity⟩
  · rintro ⟨hsample, hrule, henabled, hmatches, hseverity⟩
    exact ⟨_, hsample, _, ⟨hrule, henabled, hmatches⟩, _, hseverity, rfl⟩

theorem filter_sampleConditions (ruleId metric : String) (xid : Bool) (sample : MetricSample) :
    (sampleConditions display hostId rules xid sample).filter
        (·.fingerprint = metricFingerprint ruleId hostId metric) =
      ((breachesOf rules [sample]).map (Breach.condition display hostId)).filter
        (·.fingerprint = metricFingerprint ruleId hostId metric) := by
  have hhardware : ∀ (b : Bool) (key summary : String),
      (if b then [hardwareCondition display hostId sample key summary] else []).filter
        (·.fingerprint = metricFingerprint ruleId hostId metric) = [] := by
    intro b key summary
    cases b
    · rfl
    · simp [hardwareCondition, hardwareFingerprint_ne]
  rw [sampleConditions, filter_append, filter_append, hhardware, hhardware, breachesOf,
    flatMap_singleton, map_filterMap]
  simp only [Option.map_map]
  rfl

theorem find?_conditions (ruleId metric : String) (xid : Bool) :
    (samples.flatMap (sampleConditions display hostId rules xid)).find?
        (·.fingerprint = metricFingerprint ruleId hostId metric) = ((breachesOf rules samples).find?
        (·.fingerprint hostId = metricFingerprint ruleId hostId metric)).map
          (Breach.condition display hostId) := by
  have hfilter : (samples.flatMap (sampleConditions display hostId rules xid)).filter
        (·.fingerprint = metricFingerprint ruleId hostId metric) =
      ((breachesOf rules samples).map (Breach.condition display hostId)).filter
        (·.fingerprint = metricFingerprint ruleId hostId metric) := by
    induction samples with
    | nil => rfl
    | cons sample samples ih =>
      have hcons : breachesOf rules (sample :: samples) =
          breachesOf rules [sample] ++ breachesOf rules samples := by
        simp [breachesOf]
      rw [flatMap_cons, filter_append, ih, filter_sampleConditions, hcons,
        map_append, filter_append]
  rw [← head?_filter, hfilter, head?_filter, find?_map]
  rfl

theorem mem_activeConditions_iff {condition : ActiveCondition} {ruleId metric : String}
    (hfingerprint : condition.fingerprint = metricFingerprint ruleId hostId metric) :
    condition ∈ activeConditions display hostId rules samples ↔
      ∃ first, (breachesOf rules samples).find?
          (·.fingerprint hostId = metricFingerprint ruleId hostId metric) = some first ∧
        condition = first.condition display hostId := by
  rw [activeConditions, mem_destutter_sortBy fun _ _ => rfl, hfingerprint, find?_conditions,
    map_eq_some_iff]
  simp only [eq_comm]

/-! ## Which breaches are kept -/

/-- Every breach has an alert that is at least as severe. -/
def NoneMasked (percentOf : F64 → F64 → F64) (display : F64 → String) (hostId : String)
    (rules : List MetricRule) (stats : Telemetry) (prior : List PriorAlert)
    (observedMetrics : List String) (now : ℤ) : Prop :=
  ∀ rule ∈ rules, rule.enabled → ∀ sample ∈ metricSamples percentOf stats,
    metricMatches rule.metricPattern sample.metric →
    ∀ severity, thresholdSeverity rule sample.value = some severity →
      ∃ alert ∈ (reconcile (activeConditions display hostId rules (metricSamples percentOf stats))
          prior rules observedMetrics now).1,
        Breach.KeptBy hostId ⟨sample, rule, severity⟩ alert

/-- The first breach of every alert is of the same rule as the others, and as severe. -/
def FirstIsWorst (hostId : String) (rules : List MetricRule) (samples : List MetricSample) : Prop :=
  ∀ breach ∈ breachesOf rules samples, ∀ first,
    (breachesOf rules samples).find? (·.fingerprint hostId = breach.fingerprint hostId) =
        some first →
      first.rule.ruleKey = breach.rule.ruleKey ∧ first.severity.atLeast breach.severity

theorem exists_keptBy_iff (prior : List PriorAlert) (observedMetrics : List String) (now : ℤ)
    {breach first : Breach}
    (hfirst : (breachesOf rules samples).find?
      (·.fingerprint hostId = breach.fingerprint hostId) = some first) :
    (∃ alert ∈ (reconcile (activeConditions display hostId rules samples) prior rules
        observedMetrics now).1, breach.KeptBy hostId alert) ↔
      first.rule.ruleKey = breach.rule.ruleKey ∧ first.severity.atLeast breach.severity := by
  have hfound := find?_some hfirst
  have hsame : first.fingerprint hostId = breach.fingerprint hostId := of_decide_eq_true hfound
  constructor
  · rintro ⟨alert, halert, hfingerprint, hkept⟩
    obtain ⟨condition, hcondition, rfl⟩ := List.mem_map.1 halert
    obtain ⟨found, hfind, rfl⟩ := (mem_activeConditions_iff hfingerprint).1 hcondition
    rw [← Breach.fingerprint, hfirst, some_inj] at hfind
    rw [hfind]
    exact hkept
  · intro h
    have hactive : first.condition display hostId ∈ activeConditions display hostId rules samples :=
      (mem_activeConditions_iff hsame).2 ⟨first, hfirst, rfl⟩
    exact ⟨_, List.mem_map_of_mem hactive, hsame, h⟩

/-- No breach is masked exactly when the first of every alert is the worst. -/
theorem noneMasked_iff (percentOf : F64 → F64 → F64) (display : F64 → String) (hostId : String)
    (rules : List MetricRule) (stats : Telemetry) (prior : List PriorAlert)
    (observedMetrics : List String) (now : ℤ) :
    NoneMasked percentOf display hostId rules stats prior observedMetrics now ↔
      FirstIsWorst hostId rules (metricSamples percentOf stats) := by
  constructor
  · intro h breach hbreach first hfirst
    obtain ⟨hsample, hrule, henabled, hmatches, hseverity⟩ := mem_breachesOf.1 hbreach
    have hkept := h breach.rule hrule henabled breach.sample hsample hmatches _ hseverity
    exact (exists_keptBy_iff prior observedMetrics now hfirst).1 hkept
  · intro h rule hrule henabled sample hsample hmatches severity hseverity
    have hbreach : ⟨sample, rule, severity⟩ ∈ breachesOf rules (metricSamples percentOf stats) :=
      mem_breachesOf.2 ⟨hsample, hrule, henabled, hmatches, hseverity⟩
    obtain ⟨first, hfirst⟩ : ∃ first, (breachesOf rules (metricSamples percentOf stats)).find?
        (·.fingerprint hostId = Breach.fingerprint hostId ⟨sample, rule, severity⟩) =
          some first := by
      rw [← isSome_iff_exists, find?_isSome]
      exact ⟨_, hbreach, decide_eq_true rfl⟩
    exact (exists_keptBy_iff prior observedMetrics now hfirst).2 (h _ hbreach first hfirst)

/-! ## A full disk behind another -/

def diskRule : MetricRule where
  ruleId := "disk-full"
  label := "Disk usage"
  metricPattern := "disk.used_percent"
  direction := .above
  highThreshold := .finite 85
  criticalThreshold := .finite 95
  forSeconds := 0
  enabled := true

def diskTelemetry (usedPercents : List ℚ) : Telemetry where
  cpuUtilPercent := none
  cpuLoad1m := none
  cpuLoad5m := none
  memoryUsedPercent := none
  memoryUsedBytes := none
  memoryAvailableBytes := none
  memorySwapUsedBytes := none
  uptimeSeconds := none
  disks := usedPercents.map fun used => ⟨none, none, some (.finite used)⟩
  temperatures := []
  gpus := []
  xidEvents := []
  network := []
  psuWatts := none
  gpuWatts := none

/-- A disk that is full at 96 percent is reported as high, after one at 86 percent. -/
theorem secondDisk_masked :
    ¬ NoneMasked (fun used _ => used) (fun _ => "") "host" [diskRule] (diskTelemetry [86, 96]) []
      ["disk.used_percent"] 0 := by
  intro h
  obtain ⟨alert, halert, -, -, hseverity⟩ := h diskRule mem_cons_self rfl
    ⟨"disk.used_percent", .finite 96, "percent"⟩ (by decide +kernel) (by decide) .critical
    (by decide +kernel)
  have hhigh : ∀ alert ∈ (reconcile (activeConditions (fun _ => "") "host" [diskRule]
      (metricSamples (fun used _ => used) (diskTelemetry [86, 96]))) [] [diskRule]
      ["disk.used_percent"] 0).1, alert.severity = .high := by decide +kernel
  rw [hhigh alert halert] at hseverity
  cases hseverity

end Gadgetron.Alerts
