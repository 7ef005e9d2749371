import Gadgetron.Lib.Aggregate
import Mathlib.Algebra.Order.BigOperators.Group.List
import Mathlib.Algebra.Order.Field.Rat
import Mathlib.Order.WithBot
import Mathlib.Tactic.Linarith
import Mathlib.Tactic.Positivity

/-!
# Series of metrics in wider buckets

`rebucket` puts the points of a series into buckets of an interval: averages are weighted by their
samples, extremes are merged, instants are floored.
-/

namespace Gadgetron.Servers

open Lib List

inductive MetricInterval
  | auto
  | seconds5
  | minute1
  | minutes5
  | minutes15
  | hour1
  | hours6
  | day1
  deriving DecidableEq

def MetricInterval.seconds : MetricInterval → ℤ
  | .auto => 0
  | .seconds5 => 5
  | .minute1 => 60
  | .minutes5 => 300
  | .minutes15 => 900
  | .hour1 => 3600
  | .hours6 => 21600
  | .day1 => 86400

def maxCount : ℕ := 2 ^ 64 - 1

abbrev SampleCount := {n : ℕ // n ≤ maxCount}

def SampleCount.saturatingAdd (a b : SampleCount) : SampleCount :=
  ⟨min maxCount (a.1 + b.1), min_le_left _ _⟩

def nanosPerSecond : ℤ := 1000000000

/-- The seconds of the first and of the last `DateTime<Utc>`. -/
def minSeconds : ℤ := -8334601228800

def maxSeconds : ℤ := 8210266876799

/-- A `DateTime<Utc>`, in nanoseconds since the epoch. -/
abbrev DateTime := {t : ℤ // minSeconds ≤ t / nanosPerSecond ∧ t / nanosPerSecond ≤ maxSeconds}

def DateTime.timestamp (t : DateTime) : ℤ := t.1 / nanosPerSecond

/-- `DateTime::from_timestamp`, without nanoseconds. -/
def DateTime.fromTimestamp (seconds : ℤ) : Option DateTime :=
  if h : minSeconds ≤ seconds ∧ seconds ≤ maxSeconds then
    some ⟨seconds * nanosPerSecond, by
      rwa [Int.mul_ediv_cancel _ (by decide : nanosPerSecond ≠ 0)]⟩
  else none

structure SeriesPoint where
  timestamp : DateTime
  (average minimum maximum : ℚ)
  samples : SampleCount

/-! ## Buckets -/

structure Bucket where
  weightedSum : ℚ
  samples : SampleCount
  minimum : WithTop ℚ
  maximum : WithBot ℚ

namespace Bucket

@[ext] theorem ext {a b : Bucket} (hsum : a.weightedSum = b.weightedSum)
    (hsamples : a.samples = b.samples) (hmin : a.minimum = b.minimum)
    (hmax : a.maximum = b.maximum) : a = b := by
  cases a
  cases b
  cases hsum
  cases hsamples
  cases hmin
  cases hmax
  rfl

/-- The bucket that a new key starts with. -/
instance : Zero Bucket := ⟨⟨0, ⟨0, Nat.zero_le _⟩, ⊤, ⊥⟩⟩

instance : Add Bucket := ⟨fun a b =>
  ⟨a.weightedSum + b.weightedSum, a.samples.saturatingAdd b.samples, a.minimum ⊓ b.minimum,
    a.maximum ⊔ b.maximum⟩⟩

@[simp] theorem add_weightedSum (a b : Bucket) :
    (a + b).weightedSum = a.weightedSum + b.weightedSum := rfl

@[simp] theorem add_minimum (a b : Bucket) : (a + b).minimum = a.minimum ⊓ b.minimum := rfl

@[simp] theorem add_maximum (a b : Bucket) : (a + b).maximum = a.maximum ⊔ b.maximum := rfl

theorem add_comm' (a b : Bucket) : a + b = b + a := by
  ext
  · exact add_comm _ _
  · show min maxCount _ = min maxCount _
    rw [Nat.add_comm]
  · exact inf_comm _ _
  · exact sup_comm _ _

theorem add_assoc' (a b c : Bucket) : a + b + c = a + (b + c) := by
  ext
  · exact add_assoc _ _ _
  · show min maxCount (min maxCount (a.samples.1 + b.samples.1) + c.samples.1) =
      min maxCount (a.samples.1 + min maxCount (b.samples.1 + c.samples.1))
    omega
  · exact inf_assoc _ _ _
  · exact sup_assoc _ _ _

theorem zero_add' (a : Bucket) : 0 + a = a := by
  ext
  · exact zero_add _
  · show min maxCount (0 + a.samples.1) = a.samples.1
    have h := a.samples.2
    omega
  · exact top_inf_eq _
  · exact bot_sup_eq _

instance : AddCommMonoid Bucket where
  add_assoc := add_assoc'
  zero_add := zero_add'
  add_zero a := (add_comm' a 0).trans (zero_add' a)
  add_comm := add_comm'
  nsmul := nsmulRec

def ofPoint (point : SeriesPoint) : Bucket :=
  ⟨point.average * point.samples.1, point.samples, point.minimum, point.maximum⟩

end Bucket

def bucketAt (interval : MetricInterval) (point : SeriesPoint) : ℤ :=
  point.timestamp.timestamp / interval.seconds * interval.seconds

def bucketPoint (entry : ℤ × Bucket) : Option SeriesPoint :=
  (DateTime.fromTimestamp entry.1).bind fun timestamp =>
    if 0 < entry.2.samples.1 then
      some
        { timestamp
          average := entry.2.weightedSum / entry.2.samples.1
          minimum := entry.2.minimum.untopD 0
          maximum := entry.2.maximum.unbotD 0
          samples := entry.2.samples }
    else none

def rebucket (points : List SeriesPoint) (interval : MetricInterval) : List SeriesPoint :=
  (aggregate (bucketAt interval) Bucket.ofPoint points).entries.filterMap bucketPoint

/-! ## Sums of points -/

/-- A point of some samples whose average lies within its bounds. -/
structure SeriesPoint.Sound (point : SeriesPoint) : Prop where
  samples_pos : 0 < point.samples.1
  minimum_le : point.minimum ≤ point.average
  le_maximum : point.average ≤ point.maximum

structure Bucket.Full (bucket : Bucket) : Prop where
  samples_pos : 0 < bucket.samples.1
  minimum_ne : bucket.minimum ≠ ⊤
  maximum_ne : bucket.maximum ≠ ⊥

namespace Bucket

abbrev ofPoints (points : List SeriesPoint) : Bucket := (points.map ofPoint).sum

theorem ofPoints_cons (point : SeriesPoint) (points : List SeriesPoint) :
    ofPoints (point :: points) = ofPoint point + ofPoints points := by
  rw [ofPoints, map_cons, sum_cons]

theorem ofPoints_weightedSum (points : List SeriesPoint) : (ofPoints points).weightedSum =
      (points.map fun point => point.average * (point.samples.1 : ℚ)).sum := by
  induction points with
  | nil => rfl
  | cons point points ih =>
    rw [ofPoints_cons, add_weightedSum, ih, map_cons, sum_cons]
    rfl

theorem ofPoints_samples (points : List SeriesPoint) : ((ofPoints points).samples : ℕ) =
      min maxCount (points.map fun point => (point.samples : ℕ)).sum := by
  induction points with
  | nil => rfl
  | cons point points ih =>
    rw [ofPoints_cons, map_cons, sum_cons]
    show min maxCount ((point.samples : ℕ) + ((ofPoints points).samples : ℕ)) = _
    rw [ih]
    omega

variable {point : SeriesPoint}

theorem full_ofPoint_add (h : 0 < point.samples.1) (bucket : Bucket) :
    (ofPoint point + bucket).Full where
  samples_pos := by
    show 0 < min maxCount (point.samples.1 + bucket.samples.1)
    exact lt_min (by decide) (by omega)
  minimum_ne := ne_of_lt (lt_of_le_of_lt inf_le_left (WithTop.coe_lt_top point.minimum))
  maximum_ne := ne_of_gt (lt_of_lt_of_le (WithBot.bot_lt_coe point.maximum) le_sup_left)

variable {points : List SeriesPoint}

theorem full_ofPoints (hsound : ∀ point ∈ points, point.Sound)
    (hne : points ≠ []) : (ofPoints points).Full := by
  cases points with
  | nil => exact absurd rfl hne
  | cons point points =>
    rw [ofPoints_cons]
    exact full_ofPoint_add (hsound point mem_cons_self).samples_pos _

theorem minimum_ofPoints_le (h : point ∈ points) : (ofPoints points).minimum ≤ point.minimum := by
  induction points with
  | nil => exact absurd h not_mem_nil
  | cons first points ih =>
    rw [ofPoints_cons, add_minimum]
    rcases mem_cons.1 h with rfl | h
    · exact inf_le_left
    · exact inf_le_right.trans (ih h)

theorem le_maximum_ofPoints
    (h : point ∈ points) : (point.maximum : WithBot ℚ) ≤ (ofPoints points).maximum := by
  induction points with
  | nil => exact absurd h not_mem_nil
  | cons first points ih =>
    rw [ofPoints_cons, add_maximum]
    rcases mem_cons.1 h with rfl | h
    · exact le_sup_left
    · exact (ih h).trans le_sup_right

theorem weightedSum_le {bound : ℚ} (h : ∀ point ∈ points, point.average ≤ bound) :
    (ofPoints points).weightedSum ≤
      bound * ((points.map fun point => (point.samples : ℕ)).sum : ℕ) := by
  induction points with
  | nil => exact le_of_eq (mul_zero bound).symm
  | cons point points ih =>
    rw [ofPoints_cons, add_weightedSum, map_cons, sum_cons, Nat.cast_add, mul_add]
    exact add_le_add
      (mul_le_mul_of_nonneg_right (h point mem_cons_self) (Nat.cast_nonneg _))
      (ih fun point hpoint => h point (mem_cons_of_mem _ hpoint))

theorem le_weightedSum {bound : ℚ} (h : ∀ point ∈ points, bound ≤ point.average) :
    bound * ((points.map fun point => (point.samples : ℕ)).sum : ℕ) ≤
      (ofPoints points).weightedSum := by
  induction points with
  | nil => exact le_of_eq (mul_zero bound)
  | cons point points ih =>
    rw [ofPoints_cons, add_weightedSum, map_cons, sum_cons, Nat.cast_add, mul_add]
    exact add_le_add
      (mul_le_mul_of_nonneg_right (h point mem_cons_self) (Nat.cast_nonneg _))
      (ih fun point hpoint => h point (mem_cons_of_mem _ hpoint))

end Bucket

/-! ## Bucket boundaries -/

variable {interval : MetricInterval}

theorem MetricInterval.seconds_pos (h : interval ≠ .auto) : 0 < interval.seconds := by
  cases interval with
  | auto => exact absurd rfl h
  | _ => decide

theorem bucketAt_mem (h : interval ≠ .auto) (point : SeriesPoint) :
    minSeconds ≤ bucketAt interval point ∧ bucketAt interval point ≤ maxSeconds := by
  have hlow := point.timestamp.2.1
  have hhigh := point.timestamp.2.2
  have hbucket : bucketAt interval point =
      point.timestamp.1 / nanosPerSecond / interval.seconds * interval.seconds := rfl
  rw [hbucket]
  generalize point.timestamp.1 / nanosPerSecond = seconds at hlow hhigh
  cases interval with
  | auto => exact absurd rfl h
  | _ =>
    simp only [minSeconds, maxSeconds, MetricInterval.seconds] at hlow hhigh ⊢
    omega

theorem floor_floor {fine coarse : ℤ} (hfine : 0 < fine) (h : fine ∣ coarse) (t : ℤ) :
    t / fine * fine / coarse * coarse = t / coarse * coarse := by
  obtain ⟨times, rfl⟩ := h
  rw [mul_comm fine times, Int.mul_ediv_mul_of_pos_left _ _ hfine, mul_comm times fine,
    Int.ediv_ediv_of_nonneg hfine.le]

/-! ## The points of the buckets -/

theorem DateTime.fromTimestamp_eq {seconds : ℤ} (h : minSeconds ≤ seconds ∧ seconds ≤ maxSeconds) :
    ∃ timestamp : DateTime, DateTime.fromTimestamp seconds = some timestamp ∧
      timestamp.1 = seconds * nanosPerSecond :=
  ⟨_, dif_pos h, rfl⟩

theorem DateTime.timestamp_of_eq {timestamp : DateTime} {seconds : ℤ}
    (h : timestamp.1 = seconds * nanosPerSecond) : timestamp.timestamp = seconds := by
  rw [DateTime.timestamp, h, Int.mul_ediv_cancel _ (by decide : nanosPerSecond ≠ 0)]

theorem Bucket.ofPoint_of_full {bucket : Bucket} (h : bucket.Full) (timestamp : DateTime) :
    Bucket.ofPoint ⟨timestamp, bucket.weightedSum / bucket.samples.1, bucket.minimum.untopD 0,
      bucket.maximum.unbotD 0, bucket.samples⟩ = bucket := by
  have hne : (bucket.samples.1 : ℚ) ≠ 0 := Nat.cast_ne_zero.2 h.samples_pos.ne'
  ext
  · exact div_mul_cancel₀ _ hne
  · rfl
  · obtain ⟨value, hvalue⟩ := WithTop.ne_top_iff_exists.1 h.minimum_ne
    exact hvalue ▸ rfl
  · obtain ⟨value, hvalue⟩ := WithBot.ne_bot_iff_exists.1 h.maximum_ne
    exact hvalue ▸ rfl

section

variable {points : List SeriesPoint} {interval : MetricInterval}

abbrev bucketPoints (interval : MetricInterval) (points : List SeriesPoint) (start : ℤ) :
    List SeriesPoint :=
  points.filter fun point => bucketAt interval point = start

theorem bucketPoint_of_mem_entries (hsound : ∀ point ∈ points, point.Sound)
    (hauto : interval ≠ .auto) {entry : ℤ × Bucket}
    (hentry : entry ∈ (aggregate (bucketAt interval) Bucket.ofPoint points).entries) :
    ∃ point, bucketPoint entry = some point ∧ point.timestamp.1 = entry.1 * nanosPerSecond ∧
      Bucket.ofPoint point = entry.2 := by
  rw [entries_aggregate, List.mem_map] at hentry
  obtain ⟨start, hstart, rfl⟩ := hentry
  obtain ⟨point, hpoint, rfl⟩ := List.mem_map.1 ((mem_keys_aggregate _ _).1 hstart)
  obtain ⟨timestamp, htimestamp, hseconds⟩ := DateTime.fromTimestamp_eq (bucketAt_mem hauto point)
  have hfull : (sumOf (bucketAt interval) Bucket.ofPoint points
      (bucketAt interval point)).Full :=
    Bucket.full_ofPoints (fun p hp => hsound p (mem_of_mem_filter hp))
      (ne_nil_of_mem (List.mem_filter.2 ⟨hpoint, decide_eq_true rfl⟩))
  refine ⟨_, ?_, hseconds, Bucket.ofPoint_of_full hfull timestamp⟩
  simp only [bucketPoint, htimestamp, Option.bind_some, if_pos hfull.samples_pos]

theorem map_rebucket (hsound : ∀ point ∈ points, point.Sound) (hauto : interval ≠ .auto) :
    (rebucket points interval).map (fun point => (point.timestamp.1, Bucket.ofPoint point)) =
      (aggregate (bucketAt interval) Bucket.ofPoint points).entries.map fun entry =>
        (entry.1 * nanosPerSecond, entry.2) := by
  rw [rebucket, map_filterMap, ← filterMap_eq_map]
  refine filterMap_congr fun entry hentry => ?_
  obtain ⟨point, hpoint, htimestamp, hsums⟩ := bucketPoint_of_mem_entries hsound hauto hentry
  rw [hpoint, Option.map_some, htimestamp, hsums]
  rfl

variable {point : SeriesPoint}

theorem of_mem_rebucket (hsound : ∀ point ∈ points, point.Sound) (hauto : interval ≠ .auto)
    (h : point ∈ rebucket points interval) :
    ∃ start, point.timestamp.1 = start * nanosPerSecond ∧
      interval.seconds ∣ start ∧ bucketPoints interval points start ≠ [] ∧
      Bucket.ofPoint point = Bucket.ofPoints (bucketPoints interval points start) := by
  have hmem := List.mem_map_of_mem
    (f := fun point : SeriesPoint => (point.timestamp.1, Bucket.ofPoint point)) h
  rw [map_rebucket hsound hauto, entries_aggregate, List.map_map] at hmem
  obtain ⟨start, hstart, hentry⟩ := List.mem_map.1 hmem
  obtain ⟨first, hfirst, rfl⟩ := List.mem_map.1 ((mem_keys_aggregate _ _).1 hstart)
  obtain ⟨htimestamp, hsums⟩ := Prod.mk.inj hentry
  exact ⟨_, htimestamp.symm, Dvd.intro_left _ rfl,
    ne_nil_of_mem (List.mem_filter.2 ⟨hfirst, decide_eq_true rfl⟩), hsums.symm⟩

/-! ## Properties of the result -/

theorem pairwise_rebucket (hsound : ∀ point ∈ points, point.Sound) (hauto : interval ≠ .auto) :
    ((rebucket points interval).map fun point => point.timestamp.1).Pairwise (· < ·) := by
  have hmap : (rebucket points interval).map (fun point => point.timestamp.1) =
      (aggregate (bucketAt interval) Bucket.ofPoint points).keys.toList.map
        (· * nanosPerSecond) := by
    have h := congrArg (List.map Prod.fst) (map_rebucket hsound hauto)
    rw [List.map_map, entries_aggregate, List.map_map, List.map_map] at h
    exact h
  rw [hmap, pairwise_map]
  exact (OrdSet.sorted _).imp fun h => mul_lt_mul_of_pos_right h (by decide)

theorem ofPoints_rebucket (hsound : ∀ point ∈ points, point.Sound) (hauto : interval ≠ .auto) :
    Bucket.ofPoints (rebucket points interval) = Bucket.ofPoints points := by
  have hmap := congrArg (List.map Prod.snd) (map_rebucket hsound hauto)
  rw [List.map_map, List.map_map] at hmap
  have hall := sum_entries_aggregate (bucketAt interval) Bucket.ofPoint points fun _ => true
  rw [filter_true, filter_true] at hall
  exact (congrArg List.sum hmap).trans hall

theorem rebucket_perm {points' : List SeriesPoint} (h : points'.Perm points) :
    rebucket points' interval = rebucket points interval := by
  rw [rebucket, rebucket, aggregate_perm _ _ h]

theorem rebucket_rebucket (hsound : ∀ point ∈ points, point.Sound) {fine coarse : MetricInterval}
    (hfine : fine ≠ .auto) (hdvd : fine.seconds ∣ coarse.seconds) :
    rebucket (rebucket points fine) coarse = rebucket points coarse := by
  have hstage : aggregate (bucketAt coarse) Bucket.ofPoint (rebucket points fine) =
      aggregate (fun entry : ℤ × Bucket => entry.1 / coarse.seconds * coarse.seconds) Prod.snd
        (aggregate (bucketAt fine) Bucket.ofPoint points).entries := by
    refine aggregate_filterMap _ _ fun entry hentry => ?_
    obtain ⟨point, hpoint, htimestamp, hsums⟩ := bucketPoint_of_mem_entries hsound hfine hentry
    refine ⟨point, hpoint, ?_, hsums⟩
    rw [bucketAt, DateTime.timestamp_of_eq htimestamp]
  have hkey : (fun point => bucketAt fine point / coarse.seconds * coarse.seconds) =
      bucketAt coarse := funext fun point =>
    floor_floor (MetricInterval.seconds_pos hfine) hdvd point.timestamp.timestamp
  rw [rebucket, hstage, aggregate_aggregate (bucketAt fine) Bucket.ofPoint
    (fun start => start / coarse.seconds * coarse.seconds), hkey]
  rfl

abbrev countSamples (points : List SeriesPoint) : ℕ :=
  (points.map fun point => (point.samples : ℕ)).sum

abbrev weightedSum (points : List SeriesPoint) : ℚ :=
  (points.map fun point => point.average * (point.samples.1 : ℚ)).sum

section

variable (hsound : ∀ point ∈ points, point.Sound) (hauto : interval ≠ .auto)
include hsound hauto

theorem samples_of_mem_rebucket (h : point ∈ rebucket points interval) : (point.samples : ℕ) =
      min maxCount (countSamples (bucketPoints interval points point.timestamp.timestamp)) := by
  obtain ⟨start, htimestamp, -, -, hsums⟩ := of_mem_rebucket hsound hauto h
  rw [DateTime.timestamp_of_eq htimestamp, ← Bucket.ofPoints_samples, ← hsums]
  rfl

theorem average_of_mem_rebucket (h : point ∈ rebucket points interval)
    (hcount : countSamples (bucketPoints interval points point.timestamp.timestamp) ≤ maxCount) :
    point.minimum ≤ point.average ∧ point.average ≤ point.maximum := by
  have hsamples := samples_of_mem_rebucket hsound hauto h
  obtain ⟨start, htimestamp, -, hne, hsums⟩ := of_mem_rebucket hsound hauto h
  rw [DateTime.timestamp_of_eq htimestamp] at hsamples hcount
  rw [min_eq_right hcount] at hsamples
  have hsound' : ∀ p ∈ bucketPoints interval points start, p.Sound := fun p hp =>
    hsound p (mem_of_mem_filter hp)
  have hpos : 0 < (point.samples : ℚ) := by
    have hfull := (Bucket.full_ofPoints hsound' hne).samples_pos
    rw [← hsums] at hfull
    exact Nat.cast_pos.2 hfull
  have hweighted : (Bucket.ofPoints (bucketPoints interval points start)).weightedSum =
      point.average * (point.samples : ℚ) := by
    rw [← hsums]
    rfl
  constructor
  · have hle : point.minimum * (point.samples : ℚ) ≤ point.average * (point.samples : ℚ) := by
      rw [← hweighted, hsamples]
      refine Bucket.le_weightedSum fun p hp => ?_
      have hmin := Bucket.minimum_ofPoints_le hp
      rw [← hsums] at hmin
      exact (WithTop.coe_le_coe.1 hmin).trans (hsound' p hp).minimum_le
    exact le_of_mul_le_mul_right hle hpos
  · have hle : point.average * (point.samples : ℚ) ≤ point.maximum * (point.samples : ℚ) := by
      rw [← hweighted, hsamples]
      refine Bucket.weightedSum_le fun p hp => ?_
      have hmax := Bucket.le_maximum_ofPoints hp
      rw [← hsums] at hmax
      exact (hsound' p hp).le_maximum.trans (WithBot.coe_le_coe.1 hmax)
    exact le_of_mul_le_mul_right hle hpos

theorem weightedSum_rebucket : weightedSum (rebucket points interval) = weightedSum points := by
  rw [weightedSum, weightedSum, ← Bucket.ofPoints_weightedSum, ← Bucket.ofPoints_weightedSum,
    ofPoints_rebucket hsound hauto]

end

def Counted (interval : MetricInterval) (points : List SeriesPoint) : Prop :=
  ∀ start, countSamples (bucketPoints interval points start) ≤ maxCount

theorem countSamples_rebucket (hsound : ∀ point ∈ points, point.Sound)
    (hauto : interval ≠ .auto) (hcounted : Counted interval points) :
    countSamples (rebucket points interval) = countSamples points := by
  let buckets := aggregate (bucketAt interval) Bucket.ofPoint points
  have hmap := congrArg (List.map fun entry => (entry.2.samples : ℕ)) (map_rebucket hsound hauto)
  rw [List.map_map, List.map_map, entries_aggregate, List.map_map] at hmap
  have hcounts : (rebucket points interval).map (fun point => (point.samples : ℕ)) =
      buckets.keys.toList.map
        (sumOf (bucketAt interval) (fun point => (point.samples : ℕ)) points) := by
    refine Eq.trans hmap (map_congr_left fun start _ => ?_)
    exact (Bucket.ofPoints_samples _).trans (min_eq_right (hcounted start))
  have hall : points.filter (fun point => bucketAt interval point ∈ buckets.keys.toList) =
      points := filter_eq_self.2 fun point hpoint =>
    decide_eq_true ((mem_keys_aggregate _ _).2 (List.mem_map_of_mem hpoint))
  rw [countSamples, hcounts, sum_sumOf _ _ _ (OrdSet.nodup _), hall]

/-- One point a bucket, with the samples, bounds and sum of its points. -/
structure Rebucketed (points : List SeriesPoint) (interval : MetricInterval)
    (result : List SeriesPoint) : Prop where
  increasing : (result.map fun point => point.timestamp.1).Pairwise (· < ·)
  aligned : ∀ point ∈ result, interval.seconds * nanosPerSecond ∣ point.timestamp.1
  samples : ∀ point ∈ result, (point.samples : ℕ) =
    min maxCount (countSamples (bucketPoints interval points point.timestamp.timestamp))
  average : ∀ point ∈ result,
    countSamples (bucketPoints interval points point.timestamp.timestamp) ≤ maxCount →
      point.minimum ≤ point.average ∧ point.average ≤ point.maximum
  weighted : weightedSum result = weightedSum points
  counted : Counted interval points → countSamples result = countSamples points

theorem rebucketed (hsound : ∀ point ∈ points, point.Sound) (hauto : interval ≠ .auto) :
    Rebucketed points interval (rebucket points interval) where
  increasing := pairwise_rebucket hsound hauto
  aligned point hpoint := by
    obtain ⟨start, htimestamp, hdvd, -⟩ := of_mem_rebucket hsound hauto hpoint
    rw [htimestamp]
    exact mul_dvd_mul_right hdvd _
  samples _ hpoint := samples_of_mem_rebucket hsound hauto hpoint
  average _ hpoint := average_of_mem_rebucket hsound hauto hpoint
  weighted := weightedSum_rebucket hsound hauto
  counted := countSamples_rebucket hsound hauto

end

/-- Rebucketing composes, does not depend on the order of the points and keeps their sums; counts
are exact while those of a bucket fit into 64 bits. -/
theorem rebucket_exact {points : List SeriesPoint} (hsound : ∀ point ∈ points, point.Sound)
    {fine coarse : MetricInterval} (hfine : fine ≠ .auto) (hcoarse : coarse ≠ .auto)
    (hdvd : fine.seconds ∣ coarse.seconds) :
    rebucket (rebucket points fine) coarse = rebucket points coarse ∧
      (∀ points', points'.Perm points → rebucket points' coarse = rebucket points coarse) ∧
      Rebucketed points coarse (rebucket points coarse) :=
  ⟨rebucket_rebucket hsound hfine hdvd, fun _ => rebucket_perm, rebucketed hsound hcoarse⟩

/-! ## Samples -/

/-- A point of values that lie one above and one below their average. -/
def pointAt (timestamp : DateTime) (average : ℚ) (samples : SampleCount) : SeriesPoint :=
  ⟨timestamp, average, average - 1, average + 1, samples⟩

theorem sound_pointAt {timestamp : DateTime} {average : ℚ} {samples : SampleCount}
    (h : 0 < samples.1) : (pointAt timestamp average samples).Sound :=
  ⟨h, by simp [pointAt], by simp [pointAt]⟩

/-- Points of four buckets of five minutes, of which two lie in one bucket of fifteen. -/
def samplePoints : List SeriesPoint :=
  [pointAt ⟨1000500000000, by decide⟩ 7 ⟨2, by decide⟩,
    pointAt ⟨10000000000, by decide⟩ 1 ⟨1, by decide⟩,
    pointAt ⟨350000000000, by decide⟩ 10 ⟨1, by decide⟩,
    pointAt ⟨-1, by decide⟩ 3 ⟨5, by decide⟩,
    pointAt ⟨20000000000, by decide⟩ 4 ⟨2, by decide⟩]

theorem rebucket_exact_sample :
    rebucket (rebucket samplePoints .minutes5) .minutes15 = rebucket samplePoints .minutes15 ∧
      rebucket samplePoints.reverse .minutes15 = rebucket samplePoints .minutes15 ∧
      Rebucketed samplePoints .minutes15 (rebucket samplePoints .minutes15) ∧
      (rebucket samplePoints .minutes15).map (fun point => (point.timestamp.timestamp,
          point.average, point.minimum, point.maximum, point.samples.1)) =
        [(-900, 3, 2, 4, 5), (0, 19 / 4, 0, 11, 4), (900, 7, 6, 8, 2)] := by
  have hsound : ∀ point ∈ samplePoints, point.Sound := by
    intro point hpoint
    simp only [samplePoints, mem_cons, not_mem_nil, or_false] at hpoint
    rcases hpoint with rfl | rfl | rfl | rfl | rfl
    all_goals exact sound_pointAt (by decide)
  obtain ⟨htwice, hperm, hrebucketed⟩ := rebucket_exact hsound
    (by decide : MetricInterval.minutes5 ≠ .auto) (by decide : MetricInterval.minutes15 ≠ .auto)
    (by decide)
  exact ⟨htwice, hperm _ samplePoints.reverse_perm, hrebucketed, by decide +kernel⟩

def fullPoint : SeriesPoint := pointAt ⟨0, by decide⟩ 1 ⟨maxCount, le_refl _⟩

/-- Two points of one bucket, of which the count is too large. -/
theorem fullPoints_not_counted : ¬∀ (points : List SeriesPoint) (interval : MetricInterval),
      (∀ point ∈ points, point.Sound) → interval ≠ .auto →
        countSamples (rebucket points interval) = countSamples points := by
  intro h
  have hsound : ∀ point ∈ [fullPoint, fullPoint], point.Sound := fun point hpoint => by
    have hfull : point = fullPoint := by simpa using hpoint
    rw [hfull]
    exact sound_pointAt (by decide)
  exact absurd (h [fullPoint, fullPoint] .minute1 hsound (by decide)) (by decide +kernel)

end Gadgetron.Servers
