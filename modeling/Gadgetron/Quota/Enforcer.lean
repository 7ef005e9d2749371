import Gadgetron.Core.Context
import Gadgetron.Lib.Rollover
import Mathlib.Data.Prod.Lex
import Mathlib.Order.Bounds.Basic
import Mathlib.Algebra.Order.Group.Int

/-!
# The spend of a tenant

`PgQuotaEnforcer::record_post`. Each call is one `UPDATE` of its tenant's row, in a transaction of
its own.
-/

namespace Gadgetron.Quota

open Lib List Function

structure Date where
  year : ℤ
  (month day : ℕ)
  deriving DecidableEq

namespace Date

def key (date : Date) : ℤ ×ₗ ℕ ×ₗ ℕ :=
  toLex (date.year, toLex (date.month, date.day))

theorem key_injective : Function.Injective key := by
  rintro ⟨y, m, d⟩ ⟨y', m', d'⟩ h
  simpa [key] using h

instance : LinearOrder Date := LinearOrder.lift' key key_injective

def truncMonth (date : Date) : ℤ × ℕ := (date.year, date.month)

end Date

/-! ## The quota rows -/

/-- What `record_post` reads and writes of a row of `quota_configs`. -/
structure QuotaConfig where
  (dailyUsedCents monthlyUsedCents : ℤ)
  usageDay : Date
  deriving DecidableEq

/-- The table `quota_configs`, with `tenant_id` unique. -/
abbrev QuotaConfigs := Uuid → Option QuotaConfig

/-- A call of `record_post`, with the date of its transaction. -/
structure RecordPost where
  tenantId : Uuid
  currentDate : Date
  actualCostCents : ℤ

/-- The `SET` of the statement. -/
def QuotaConfig.charge (row : QuotaConfig) (currentDate : Date) (actualCostCents : ℤ) :
    QuotaConfig where
  dailyUsedCents :=
    if row.usageDay = currentDate then row.dailyUsedCents + actualCostCents
    else actualCostCents
  monthlyUsedCents :=
    if row.usageDay.truncMonth = currentDate.truncMonth then row.monthlyUsedCents + actualCostCents
    else actualCostCents
  usageDay := currentDate

/-- A missing row is a warning, and nothing is charged. -/
def recordPost (db : QuotaConfigs) (call : RecordPost) : QuotaConfigs :=
  match db call.tenantId with
  | none => db
  | some row =>
    Function.update db call.tenantId (some (row.charge call.currentDate call.actualCostCents))

/-- The calls in the order in which they get the lock of a row. -/
def recordPosts (db : QuotaConfigs) (calls : List RecordPost) : QuotaConfigs :=
  calls.foldl recordPost db

namespace RecordPost

def slot (call : RecordPost) : Uuid × Date := (call.tenantId, call.currentDate)

def chargesOf (tenant : Uuid) (calls : List RecordPost) : List (Date × ℤ) :=
  (calls.filter (·.tenantId = tenant)).map fun call => (call.currentDate, call.actualCostCents)

def costOn (tenant : Uuid) (p : Date → Bool) (calls : List RecordPost) : ℤ :=
  ((calls.filter fun call => call.tenantId = tenant ∧ p call.currentDate).map
    actualCostCents).sum

end RecordPost

def datesOf (tenant : Uuid) (order : List (Uuid × Date)) : List Date :=
  (order.filter (·.1 = tenant)).map Prod.snd

/-- The tenant's row has every charge of this day and of its month, once. -/
def CountsOnce (db : QuotaConfigs) (tenant : Uuid) (latest : Date) (calls : List RecordPost) :
    Prop :=
  ∃ row, db tenant = some row ∧ row.dailyUsedCents = RecordPost.costOn tenant (· = latest) calls ∧
    row.monthlyUsedCents =
      RecordPost.costOn tenant (fun d => d.truncMonth = latest.truncMonth) calls

/-! ## The two counters of a row -/

namespace QuotaConfig

variable (row : QuotaConfig) (d : Date) (cost : ℤ)

def daily : Counter Date ℤ := ⟨row.usageDay, row.dailyUsedCents⟩

def monthly : Counter Date ℤ := ⟨row.usageDay, row.monthlyUsedCents⟩

def run (charges : List (Date × ℤ)) : QuotaConfig :=
  charges.foldl (fun row c => row.charge c.1 c.2) row

variable {row} {charges : List (Date × ℤ)}

theorem daily_run : (row.run charges).daily = row.daily.run id charges := by
  induction charges generalizing row with
  | nil => rfl
  | cons c charges ih => exact ih

theorem monthly_run : (row.run charges).monthly = row.monthly.run Date.truncMonth charges := by
  induction charges generalizing row with
  | nil => rfl
  | cons c charges ih => exact ih

end QuotaConfig

/-! ## The calls of one tenant -/

section

variable {db : QuotaConfigs} {tenant : Uuid} {row : QuotaConfig} {call : RecordPost}
  {calls : List RecordPost} {order : List (Uuid × Date)}

theorem recordPost_of_ne (h : call.tenantId ≠ tenant) : recordPost db call tenant = db tenant := by
  unfold recordPost
  cases db call.tenantId with
  | none => rfl
  | some row => exact update_of_ne h.symm _ _

theorem recordPost_self (h : db call.tenantId = some row) : recordPost db call call.tenantId =
      some (row.charge call.currentDate call.actualCostCents) := by
  unfold recordPost
  rw [h]
  exact update_self _ _ _

theorem recordPosts_apply (h : db tenant = some row) :
    recordPosts db calls tenant = some (row.run (RecordPost.chargesOf tenant calls)) := by
  induction calls generalizing db row with
  | nil => exact h
  | cons call calls ih =>
    by_cases htenant : call.tenantId = tenant
    · subst htenant
      have hcharges : RecordPost.chargesOf call.tenantId (call :: calls) =
          (call.currentDate, call.actualCostCents) :: RecordPost.chargesOf call.tenantId calls := by
        simp [RecordPost.chargesOf]
      rw [hcharges]
      exact ih (recordPost_self h)
    · have hcharges : RecordPost.chargesOf tenant (call :: calls) =
          RecordPost.chargesOf tenant calls := by
        simp [RecordPost.chargesOf, htenant]
      rw [hcharges]
      exact ih ((recordPost_of_ne htenant).trans h)

theorem chargedIn_chargesOf {κ : Type*} [DecidableEq κ] (period : Date → κ) (k : κ) :
    Counter.chargedIn period k (RecordPost.chargesOf tenant calls) =
      RecordPost.costOn tenant (fun d => period d = k) calls := by
  unfold Counter.chargedIn RecordPost.chargesOf RecordPost.costOn
  rw [List.filter_map, List.filter_filter, List.map_map]
  congr 2
  apply filter_congr
  intro call _
  by_cases h : call.tenantId = tenant <;> simp [h]

theorem map_fst_chargesOf :
    (RecordPost.chargesOf tenant calls).map Prod.fst =
      datesOf tenant (calls.map RecordPost.slot) := by
  unfold RecordPost.chargesOf datesOf
  rw [List.map_map, List.filter_map, List.map_map]
  rfl

theorem exists_calls {charges : List (Date × ℤ)} (h : charges.map Prod.fst = datesOf tenant order) :
    ∃ calls, calls.map RecordPost.slot = order ∧ RecordPost.chargesOf tenant calls = charges := by
  induction order generalizing charges with
  | nil => exact ⟨[], rfl, (map_eq_nil_iff.1 h).symm⟩
  | cons slot order ih =>
    by_cases hslot : slot.1 = tenant
    · have hdates : datesOf tenant (slot :: order) = slot.2 :: datesOf tenant order := by
        simp [datesOf, hslot]
      rw [hdates] at h
      obtain ⟨c, rest, rfl, hc, hrest⟩ := map_eq_cons_iff.1 h
      obtain ⟨calls, hcalls, hcharges⟩ := ih hrest
      refine ⟨⟨slot.1, slot.2, c.2⟩ :: calls, by rw [map_cons, hcalls]; rfl, ?_⟩
      rw [← hcharges, ← hc]
      simp [RecordPost.chargesOf, hslot]
    · have hdates : datesOf tenant (slot :: order) = datesOf tenant order := by
        simp [datesOf, hslot]
      obtain ⟨calls, hcalls, hcharges⟩ := ih (h.trans hdates)
      refine ⟨⟨slot.1, slot.2, 0⟩ :: calls, by rw [map_cons, hcalls]; rfl, ?_⟩
      rw [← hcharges]
      simp [RecordPost.chargesOf, hslot]

theorem countsOnce_iff {latest : Date} (h : db tenant = some row) :
    CountsOnce (recordPosts db calls) tenant latest calls ↔
      (row.daily.run id (RecordPost.chargesOf tenant calls)).used =
          Counter.chargedIn id latest (RecordPost.chargesOf tenant calls) ∧
        (row.monthly.run Date.truncMonth (RecordPost.chargesOf tenant calls)).used =
          Counter.chargedIn Date.truncMonth latest.truncMonth
            (RecordPost.chargesOf tenant calls) := by
  unfold CountsOnce
  rw [recordPosts_apply h, chargedIn_chargesOf, chargedIn_chargesOf,
    ← QuotaConfig.daily_run, ← QuotaConfig.monthly_run]
  constructor
  · rintro ⟨_, hrow, hcounts⟩
    cases hrow
    exact hcounts
  · exact fun hcounts => ⟨_, rfl, hcounts⟩

/-! ## Every charge once -/

/-- A new row ends with the sums of the latest date and of its month exactly when, in the order of
the lock, no call of another date comes after one of the latest date and no call of another month
after one of the latest month. -/
theorem recordPosts_countsOnce_iff {latest : Date} (hrow : db tenant = some row)
    (hdaily : row.dailyUsedCents = 0) (hmonthly : row.monthlyUsedCents = 0)
    (hlatest : IsGreatest {d | (tenant, d) ∈ order} latest) :
    (∀ calls, calls.map RecordPost.slot = order →
        CountsOnce (recordPosts db calls) tenant latest calls) ↔
      Counter.Together id latest (datesOf tenant order) ∧
        Counter.Together Date.truncMonth latest.truncMonth (datesOf tenant order) := by
  have hmem : latest ∈ datesOf tenant order := by simpa [datesOf] using hlatest.1
  have hday := @Counter.forall_used_iff Date Date ℤ _ _ id latest row.daily _ 1 one_ne_zero
    ⟨latest, hmem, rfl⟩ hdaily
  have hmonth := @Counter.forall_used_iff Date (ℤ × ℕ) ℤ _ _ Date.truncMonth latest.truncMonth
    row.monthly _ 1 one_ne_zero ⟨latest, hmem, rfl⟩ hmonthly
  rw [← hday, ← hmonth, ← forall_and]
  constructor
  · intro h charges
    rw [← imp_and]
    intro hcharges
    obtain ⟨calls, hcalls, rfl⟩ := exists_calls hcharges
    exact (countsOnce_iff hrow).1 (h calls hcalls)
  · rintro h calls rfl
    have hcharges := h (RecordPost.chargesOf tenant calls)
    rw [← imp_and] at hcharges
    exact (countsOnce_iff hrow).2 (hcharges map_fst_chargesOf)

end

/-! ## A charge before midnight that comes late -/

def sampleRow : QuotaConfig := ⟨0, 0, ⟨2026, 1, 31⟩⟩

def sampleConfigs : QuotaConfigs := Function.update (fun _ => none) 7 (some sampleRow)

def sampleOrder : List (Uuid × Date) := [(7, ⟨2026, 1, 31⟩), (7, ⟨2026, 2, 1⟩), (7, ⟨2026, 2, 1⟩)]

theorem isGreatest_sampleOrder : IsGreatest {d | ((7 : Uuid), d) ∈ sampleOrder} ⟨2026, 2, 1⟩ := by
  constructor
  · simp [sampleOrder]
  · intro d hd
    have hcases : d = ⟨2026, 1, 31⟩ ∨ d = ⟨2026, 2, 1⟩ := by
      simpa [sampleOrder] using hd
    rcases hcases with rfl | rfl <;> decide

theorem recordPosts_countsOnce_iff_sample : (∀ calls, calls.map RecordPost.slot = sampleOrder →
        CountsOnce (recordPosts sampleConfigs calls) 7 ⟨2026, 2, 1⟩ calls) ↔
      Counter.Together id ⟨2026, 2, 1⟩ (datesOf 7 sampleOrder) ∧
        Counter.Together Date.truncMonth (2026, 2) (datesOf 7 sampleOrder) :=
  recordPosts_countsOnce_iff (update_self _ _ _) rfl rfl isGreatest_sampleOrder

/-- The transaction of the 31st waits for the lock of the row until one of the 1st is done: the
row forgets the five cents of the 1st. -/
theorem not_countsOnce_of_straddling :
    ¬ ∀ (db : QuotaConfigs) (tenant : Uuid) (row : QuotaConfig) (calls : List RecordPost)
        (latest : Date), db tenant = some row → row.dailyUsedCents = 0 → row.monthlyUsedCents = 0 →
        IsGreatest {d | (tenant, d) ∈ calls.map RecordPost.slot} latest →
        CountsOnce (recordPosts db calls) tenant latest calls := by
  intro h
  have hcounts := h sampleConfigs 7 sampleRow [⟨7, ⟨2026, 2, 1⟩, 5⟩, ⟨7, ⟨2026, 1, 31⟩, 3⟩]
    ⟨2026, 2, 1⟩ (update_self _ _ _) rfl rfl (by
      constructor
      · simp [RecordPost.slot]
      · intro d hd
        have hcases : d = ⟨2026, 2, 1⟩ ∨ d = ⟨2026, 1, 31⟩ := by
          simpa [RecordPost.slot] using hd
        rcases hcases with rfl | rfl <;> decide)
  obtain ⟨row, hrow, hday, -⟩ := hcounts
  have hrun : recordPosts sampleConfigs [⟨7, ⟨2026, 2, 1⟩, 5⟩, ⟨7, ⟨2026, 1, 31⟩, 3⟩] 7 =
      some ⟨3, 3, ⟨2026, 1, 31⟩⟩ := by decide
  rw [hrun] at hrow
  cases hrow
  exact absurd hday (by decide)

end Gadgetron.Quota
