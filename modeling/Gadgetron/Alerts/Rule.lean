import Gadgetron.Lib.Lines
import Gadgetron.Lib.Text
import Mathlib.Data.Rat.Defs

/-!
# Metric alert rules

Rules on the metrics of a server: their validation, the metrics that they match and the severity of
a value; and the fingerprints under which their alerts are kept.
-/

namespace Gadgetron.Alerts

open Lib

inductive F64
  | finite (value : ℚ)
  | infinity (negative : Bool)
  | nan
  deriving DecidableEq

namespace F64

def isFinite : F64 → Bool
  | finite _ => true
  | _ => false

def ge : F64 → F64 → Bool
  | nan, _ | _, nan => false
  | finite x, finite y => y ≤ x
  | _, infinity true => true
  | infinity negative, _ => !negative
  | _, _ => false

end F64

inductive Direction
  | above
  | below

def Direction.asStr : Direction → String
  | above => "above"
  | below => "below"

inductive Severity
  | critical
  | high
  deriving DecidableEq

structure MetricRule where
  (ruleId label metricPattern : String)
  direction : Direction
  (highThreshold criticalThreshold : F64)
  forSeconds : ℤ
  enabled : Bool

structure MetricSample where
  metric : String
  value : F64
  unit : String
  deriving DecidableEq

/-- `str::split` at a character. -/
def segments (c : Char) (value : String) : List (List Char) := value.toList.splitOn c

def canonicalRuleId (value : String) : Bool :=
  !value.toList.isEmpty && value.utf8ByteSize ≤ 64 &&
    (segments '-' value).all fun segment =>
      !segment.isEmpty && segment.all fun c => c.isLower || c.isDigit

def validMetricPattern (pattern : String) : Bool :=
  if pattern.toList.isEmpty || 128 < pattern.utf8ByteSize then false
  else
    (segments '.' pattern).all fun segment =>
      !segment.isEmpty && (segment = ['*'] ||
        segment.all fun c => c.isAlphanum || c = '_' || c = '-' || c = ':' || c = '@')

def metricMatches (pattern metric : String) : Bool :=
  (segments '.' pattern).length = (segments '.' metric).length &&
    ((segments '.' pattern).zip (segments '.' metric)).all fun (expected, actual) =>
      expected = ['*'] || expected = actual

def metricRulePrefix : String := "metric_threshold:"

def hardwareEccRule : String := "hardware_ecc"

def hardwareXidRule : String := "hardware_xid"

namespace MetricRule

def validate (rule : MetricRule) : Except String Unit :=
  if !canonicalRuleId rule.ruleId then
    .error "rule_id must be canonical lowercase kebab-case"
  else if (trim rule.label).isEmpty || 128 < rule.label.length then
    .error "label must contain 1-128 characters"
  else if !validMetricPattern rule.metricPattern then
    .error "metric_pattern must contain dot-separated metric segments and whole-segment wildcards"
  else if !rule.highThreshold.isFinite || !rule.criticalThreshold.isFinite then
    .error "thresholds must be finite numbers"
  else if !(match rule.direction with
      | .above => rule.criticalThreshold.ge rule.highThreshold
      | .below => rule.highThreshold.ge rule.criticalThreshold) then
    .error "critical threshold must be beyond the high threshold"
  else if !(0 ≤ rule.forSeconds && rule.forSeconds ≤ 86400) then
    .error "for_seconds must be between 0 and 86400"
  else .ok ()

def ruleKey (rule : MetricRule) : String := metricRulePrefix ++ rule.ruleId

end MetricRule

def thresholdSeverity (rule : MetricRule) (value : F64) : Option Severity :=
  match rule.direction with
  | .above =>
    if value.ge rule.criticalThreshold then some .critical
    else if value.ge rule.highThreshold then some .high else none
  | .below =>
    if rule.criticalThreshold.ge value then some .critical
    else if rule.highThreshold.ge value then some .high else none

def metricIncidentScope (metric : String) : String :=
  let text (segment : List Char) : String := String.ofList segment
  match (segments '.' metric).map text with
  | "gpu" :: index :: _ => if index.toList.all (·.isDigit) then "gpu:" ++ index else "gpu"
  | ["gpu"] => "gpu"
  | "mem" :: _ => "memory"
  | "disk" :: _ => "storage"
  | "nic" :: interface :: _ => "network:" ++ interface
  | "temp" :: _ => "thermal"
  | "power" :: _ => "power"
  | _ => "host"

/-! ## Fingerprints -/

def metricPrefix (ruleId hostId : String) : String := "metric:" ++ ruleId ++ ":" ++ hostId ++ ":"

def metricFingerprint (ruleId hostId metric : String) : String :=
  metricPrefix ruleId hostId ++ metric

def hardwarePrefix (hostId : String) : String := "hardware:" ++ hostId ++ ":"

def hardwareFingerprint (hostId metric : String) : String := hardwarePrefix hostId ++ metric

def stripPrefix (start text : String) : Option String :=
  (start.toList.isPrefixOf? text.toList).map String.ofList

def alertMetric (fingerprint ruleKey hostId : String) : Option String :=
  match stripPrefix metricRulePrefix ruleKey with
  | some ruleId => stripPrefix (metricPrefix ruleId hostId) fingerprint
  | none =>
    if ruleKey = hardwareEccRule || ruleKey = hardwareXidRule then
      stripPrefix (hardwarePrefix hostId) fingerprint
    else none

theorem stripPrefix_append (start text : String) :
    stripPrefix start (start ++ text) = some text := by
  rw [stripPrefix, String.toList_append, isPrefixOf?_eq_some_iff.2 rfl]
  simp

theorem alertMetric_metricFingerprint (rule : MetricRule) (hostId metric : String) :
    alertMetric (metricFingerprint rule.ruleId hostId metric) rule.ruleKey hostId =
      some metric := by
  rw [alertMetric, MetricRule.ruleKey, stripPrefix_append]
  exact stripPrefix_append _ _

theorem notMem_of_canonical {ruleId : String} (h : canonicalRuleId ruleId) :
    ':' ∉ ruleId.toList := by
  intro hmem
  simp only [canonicalRuleId, Bool.and_eq_true, List.all_eq_true] at h
  have hjoin : ['-'].intercalate (segments '-' ruleId) = ruleId.toList := List.intercalate_splitOn _
  rw [← hjoin] at hmem
  rcases mem_intercalate_singleton hmem with heq | ⟨segment, hsegment, hc⟩
  · cases heq
  · have hchar := (h.2 segment hsegment).2 ':' hc
    revert hchar
    decide

theorem canonical_of_validate {rule : MetricRule} (h : rule.validate = .ok ()) :
    canonicalRuleId rule.ruleId := by
  unfold MetricRule.validate at h
  by_contra hnot
  rw [Bool.not_eq_true] at hnot
  rw [hnot] at h
  cases h

theorem metricFingerprint_inj {ruleId ruleId' hostId metric metric' : String}
    (hid : canonicalRuleId ruleId) (hid' : canonicalRuleId ruleId')
    (h : metricFingerprint ruleId hostId metric = metricFingerprint ruleId' hostId metric') :
    ruleId = ruleId' ∧ metric = metric' := by
  have hlist := congrArg String.toList h
  simp only [metricFingerprint, metricPrefix, String.toList_append, List.append_assoc] at hlist
  have htail : ruleId.toList ++ ':' :: (hostId.toList ++ (":".toList ++ metric.toList)) =
      ruleId'.toList ++ ':' :: (hostId.toList ++ (":".toList ++ metric'.toList)) :=
    List.append_cancel_left hlist
  obtain ⟨hrule, hrest⟩ :=
    append_separator_inj (notMem_of_canonical hid) (notMem_of_canonical hid') htail
  have hmetric := List.append_cancel_left (List.append_cancel_left hrest)
  exact ⟨String.toList_inj.1 hrule, String.toList_inj.1 hmetric⟩

theorem hardwareFingerprint_ne {ruleId hostId hostId' metric metric' : String} :
    hardwareFingerprint hostId metric ≠ metricFingerprint ruleId hostId' metric' := by
  intro h
  have hlist := congrArg String.toList h
  simp only [hardwareFingerprint, hardwarePrefix, metricFingerprint, metricPrefix,
    String.toList_append, List.append_assoc] at hlist
  have hhead := congrArg List.head? hlist
  cases hhead

end Gadgetron.Alerts
