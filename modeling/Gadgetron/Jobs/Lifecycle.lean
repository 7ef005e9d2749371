import Gadgetron.Jobs.Store

/-!
# The life of a knowledge job

What a step can make of a row, the invariant of the store, and what holds of the attempts, leases,
idempotency keys and cancellations of jobs in every run.
-/

namespace Gadgetron.Jobs

open Lib KnowledgeJobStore List Option

def JobLabel.subject : JobLabel → Option Uuid
  | .enqueue call => some call.newId
  | .retry _ jobId _ => some jobId
  | _ => none

/-- What the step labelled `a` can make of a row. -/
inductive RowChange (limit : Uuid → ℕ) (s : KnowledgeJobStore) (a : JobLabel)
    (job : KnowledgeJobRow) : KnowledgeJobRow → Prop
  | same : RowChange limit s a job job
  | cancel (active : job.active) : RowChange limit s a job (job.cancel s.now)
  | retry (actor : Spaces.SpaceActor) (revision : ℕ) (label : a = .retry actor job.id revision)
      (settled : job.status = .failed ∨ job.status = .cancelled)
      (budget : job.attempt < job.maxAttempts)
      (free : s.activeJob job.tenantId job.idempotencyKey = none)
      (accepted : ∃ result, s.retry actor job.id revision = .ok result) :
      RowChange limit s a job (job.requeue s.now)
  | lease (call : LeaseCall) (leasable : s.leasable limit job) :
      RowChange limit s a job (job.lease s.now call.workerId call.leaseSeconds)
  | beat (workerId : String) (update : HeartbeatUpdate) (owned : s.Owned job workerId) :
      RowChange limit s a job (job.beat s.now update)
  | finish (workerId : String) (update : TerminalUpdate) (owned : s.Owned job workerId)
      (outcome : update.status = .succeeded ∨ update.status = .failed) :
      RowChange limit s a job (job.finish s.now update)

variable {limit : Uuid → ℕ} {s s' : KnowledgeJobStore} {a : JobLabel} {job job' : KnowledgeJobRow}

namespace RowChange

theorem fixed (h : RowChange limit s a job job') : job'.id = job.id ∧ job'.tenantId = job.tenantId ∧
      job'.idempotencyKey = job.idempotencyKey ∧ job'.maxAttempts = job.maxAttempts := by
  cases h <;> exact ⟨rfl, rfl, rfl, rfl⟩

theorem active (h : RowChange limit s a job job') (hactive : job'.active) :
    job.active ∨ s.activeJob job.tenantId job.idempotencyKey = none ∧ a.subject = some job.id := by
  cases h with
  | same => exact .inl hactive
  | cancel hjob => exact .inl hjob
  | retry _ _ hlabel _ _ hfree _ => exact .inr ⟨hfree, by rw [hlabel]; rfl⟩
  | lease call hleasable =>
    left
    simp only [leasable, Bool.and_eq_true, Bool.or_eq_true, decide_eq_true_eq] at hleasable
    rcases hleasable.2 with h | h
    · simp [KnowledgeJobRow.active, h.1]
    · simp [KnowledgeJobRow.active, h.1]
  | beat _ _ howned | finish _ _ howned => simp [KnowledgeJobRow.active, howned.running]

end RowChange

namespace KnowledgeJobStore

theorem leasable_iff : s.leasable limit job ↔
    job.cancelRequestedAt = none ∧ job.attempt < job.maxAttempts ∧ job.scheduledAt ≤ s.now ∧
      (job.status = .running ∧ job.expired s.now ∨
        job.status = .queued ∧ s.activeCount job.tenantId < limit job.tenantId) := by
  simp only [leasable, Bool.and_eq_true, Bool.or_eq_true, decide_eq_true_eq, and_assoc]

theorem candidate_spec {call : LeaseCall} (h : s.candidate limit call = some job) :
    job ∈ s.jobs ∧ s.leasable limit job := by
  obtain ⟨hmem, hguard⟩ := Table.first_eq_some h
  simp only [Bool.and_eq_true] at hguard
  exact ⟨hmem, hguard.1.1⟩

def Inserted (s : KnowledgeJobStore) (a : JobLabel) (job : KnowledgeJobRow) : Prop :=
  ∃ call : EnqueueCall, a = .enqueue call ∧
    job = .new call.newId call.actor.tenantId s.now call.request ∧
    s.jobs.get job.id = none ∧ s.activeJob job.tenantId job.idempotencyKey = none

structure Rows (limit : Uuid → ℕ) (s : KnowledgeJobStore) (a : JobLabel)
    (jobs : Table KnowledgeJobRow.id) : Prop where
  origin : ∀ job' ∈ jobs, (∃ job ∈ s.jobs, RowChange limit s a job job') ∨ s.Inserted a job'
  stays : ∀ job ∈ s.jobs, ∃ job' ∈ jobs, RowChange limit s a job job'

theorem rows_self : Rows limit s a s.jobs where
  origin job hjob := .inl ⟨job, hjob, .same⟩
  stays job hjob := ⟨job, hjob, .same⟩

theorem rows_put (hjob : job ∈ s.jobs) (hchange : RowChange limit s a job job') :
    Rows limit s a (s.jobs.put job') := by
  have hput := fun x => Table.mem_put hjob hchange.fixed.1.symm (x := x)
  constructor
  · intro x hx
    rcases (hput x).1 hx with rfl | ⟨hmem, -⟩
    · exact .inl ⟨job, hjob, hchange⟩
    · exact .inl ⟨x, hmem, .same⟩
  · intro x hx
    by_cases hid : x.id = job'.id
    · obtain rfl := Table.eq_of_key hx hjob (hid.trans hchange.fixed.1)
      exact ⟨job', (hput job').2 (.inl rfl), hchange⟩
    · exact ⟨x, (hput x).2 (.inr ⟨hx, hid⟩), .same⟩

theorem Effect.rows (h : Effect limit s a s') : Rows limit s a s'.jobs := by
  cases h with
  | access | tick | unchanged => exact rows_self
  | insert call jobs hfree hinserted =>
    have hinsert := fun x => Table.mem_insert hinserted (x := x)
    constructor
    · intro job' hjob'
      rcases (hinsert job').1 hjob' with hmem | rfl
      · exact .inl ⟨job', hmem, .same⟩
      · exact .inr ⟨call, rfl, rfl, (Table.insert_eq_some.1 hinserted).1, hfree⟩
    · exact fun job hjob => ⟨job, (hinsert job).2 (.inl hjob), .same⟩
  | cancel actor revision job hmem hactive => exact rows_put hmem (.cancel hactive)
  | retry actor revision job hmem hsettled hbudget hfree haccepted =>
    exact rows_put hmem (.retry actor revision rfl hsettled hbudget hfree haccepted)
  | lease call job hvalid hfound =>
    obtain ⟨hmem, hleasable⟩ := candidate_spec hfound
    exact rows_put hmem (.lease call hleasable)
  | beat workerId update job howned => exact rows_put howned.mem (.beat workerId update howned)
  | finish _ workerId update job howned houtcome =>
    exact rows_put howned.mem (.finish workerId update howned houtcome)

/-! ## The invariant -/

structure LeasesSound (s : KnowledgeJobStore) : Prop where
  numbered : (s.leases.map fun l => (l.jobId, l.attempt)).Nodup
  known : ∀ l ∈ s.leases, ∃ job ∈ s.jobs, job.id = l.jobId ∧ l.attempt ≤ job.attempt
  counted : ∀ job ∈ s.jobs, job.attempt = s.leaseCount job.id
  held : ∀ l ∈ s.leases, s.Holds l → ∀ job ∈ s.jobs, job.id = l.jobId →
    job.status = .running ∧ job.attempt = l.attempt
  current : ∀ l ∈ s.leases, ∀ job ∈ s.jobs, job.id = l.jobId → job.attempt = l.attempt →
    job.status = .running → job.leaseOwner = some l.workerId ∧ job.leaseExpiresAt = some l.expiresAt
  last : ∀ job ∈ s.jobs, job.status = .running →
    ∃ l ∈ s.leases, l.jobId = job.id ∧ l.attempt = job.attempt ∧ l.ended = false

structure RowSound (s : KnowledgeJobStore) (job : KnowledgeJobRow) : Prop where
  budget : job.attempt ≤ job.maxAttempts
  scheduled : job.status = .running → job.scheduledAt ≤ s.now
  cancelled : job.cancelRequestedAt ≠ none → job.status = .running ∨ job.status = .cancelled

structure Sound (s : KnowledgeJobStore) : Prop where
  rows : ∀ job ∈ s.jobs, s.RowSound job
  only_active : ∀ job ∈ s.jobs, ∀ job' ∈ s.jobs, job.active → job'.active →
    job.tenantId = job'.tenantId → job.idempotencyKey = job'.idempotencyKey → job = job'
  leases : s.LeasesSound

theorem activeJob_eq_none {tenantId : Uuid} {key : String} : s.activeJob tenantId key = none ↔
      ∀ job ∈ s.jobs, job.active → job.tenantId = tenantId → job.idempotencyKey ≠ key := by
  simp only [activeJob, find?_eq_none, Bool.and_eq_true, decide_eq_true_eq, Table.mem_iff]
  exact forall₂_congr fun job _ => by tauto

theorem Effect.now_le (h : Effect limit s a s') : s.now ≤ s'.now := by
  cases h with
  | tick elapsed =>
    show s.now ≤ s.now + elapsed
    omega
  | _ => exact le_rfl

theorem finish_status_ne_running {now : ℤ} {update : TerminalUpdate}
    (houtcome : update.status = .succeeded ∨ update.status = .failed) :
    (job.finish now update).status ≠ .running := by
  unfold KnowledgeJobRow.finish
  rcases houtcome with h | h <;> dsimp only <;> split_ifs <;> simp [h]

theorem RowSound.change (h : s.RowSound job) (hchange : RowChange limit s a job job')
    (hnow : s.now ≤ s'.now) : s'.RowSound job' := by
  have hscheduled : job.status = .running → job.scheduledAt ≤ s'.now :=
    fun hrunning => (h.scheduled hrunning).trans hnow
  cases hchange with
  | same => exact ⟨h.budget, hscheduled, h.cancelled⟩
  | cancel hactive =>
    refine ⟨h.budget, fun hrunning => ?_, fun _ => ?_⟩
    · by_cases hqueued : job.status = .queued
      · simp [KnowledgeJobRow.cancel, hqueued] at hrunning
      · exact hscheduled (by simpa [KnowledgeJobRow.cancel, hqueued] using hrunning)
    · simp only [KnowledgeJobRow.active, Bool.or_eq_true, decide_eq_true_eq] at hactive
      rcases hactive with hqueued | hrunning
      · simp [KnowledgeJobRow.cancel, hqueued]
      · simp [KnowledgeJobRow.cancel, hrunning]
  | retry _ _ _ _ hbudget => exact ⟨hbudget.le, nofun, fun h => absurd rfl h⟩
  | lease call hleasable =>
    obtain ⟨hcancel, hbudget, hdue, -⟩ := leasable_iff.1 hleasable
    exact ⟨hbudget, fun _ => hdue.trans hnow, fun h => absurd hcancel h⟩
  | beat workerId update howned =>
    exact ⟨h.budget, fun _ => hscheduled howned.running, fun _ => .inl howned.running⟩
  | finish workerId update howned houtcome =>
    refine ⟨h.budget, fun hrunning => absurd hrunning (finish_status_ne_running houtcome),
      fun hcancel => .inr ?_⟩
    exact if_pos (isSome_iff_ne_none.2 hcancel)

theorem RowSound.new (call : EnqueueCall) :
    s'.RowSound (.new call.newId call.actor.tenantId s.now call.request) where
  budget := Nat.zero_le _
  scheduled := nofun
  cancelled h := absurd rfl h

variable {jobs : Table KnowledgeJobRow.id}

theorem Rows.active_origin (h : Rows limit s a jobs) (hjob : job' ∈ jobs) (hactive : job'.active) :
    (∃ job ∈ s.jobs, job.active ∧ job'.id = job.id ∧ job'.tenantId = job.tenantId ∧
      job'.idempotencyKey = job.idempotencyKey) ∨
    s.activeJob job'.tenantId job'.idempotencyKey = none ∧ a.subject = some job'.id := by
  rcases h.origin job' hjob with ⟨job, hmem, hchange⟩ | ⟨call, rfl, rfl, -, hfree⟩
  · obtain ⟨hid, htenant, hkey, -⟩ := hchange.fixed
    rcases hchange.active hactive with hjob | ⟨hfree, hsubject⟩
    · exact .inl ⟨job, hmem, hjob, hid, htenant, hkey⟩
    · rw [hid, htenant, hkey]
      exact .inr ⟨hfree, hsubject⟩
  · exact .inr ⟨hfree, rfl⟩

theorem Sound.only_active_step (h : s.Sound) (hrows : Rows limit s a s'.jobs) :
    ∀ job ∈ s'.jobs, ∀ job' ∈ s'.jobs, job.active → job'.active → job.tenantId = job'.tenantId →
      job.idempotencyKey = job'.idempotencyKey → job = job' := by
  intro x hx y hy hxa hya htenant hkey
  apply Table.eq_of_key hx hy
  rcases hrows.active_origin hx hxa with ⟨x₀, hx₀, hx₀a, hxid, hxt, hxk⟩ | ⟨hfree, hsubject⟩
  · rcases hrows.active_origin hy hya with ⟨y₀, hy₀, hy₀a, hyid, hyt, hyk⟩ | ⟨hfree, -⟩
    · have := h.only_active x₀ hx₀ y₀ hy₀ hx₀a hy₀a (by rw [← hxt, ← hyt, htenant])
        (by rw [← hxk, ← hyk, hkey])
      rw [hxid, hyid, this]
    · exact absurd (hxk.symm.trans hkey)
        (activeJob_eq_none.1 hfree x₀ hx₀ hx₀a (hxt.symm.trans htenant))
  · rcases hrows.active_origin hy hya with ⟨y₀, hy₀, hy₀a, -, hyt, hyk⟩ | ⟨-, hsubject'⟩
    · exact absurd (hyk.symm.trans hkey.symm)
        (activeJob_eq_none.1 hfree y₀ hy₀ hy₀a (hyt.symm.trans htenant.symm))
    · exact mem_unique hsubject hsubject'

/-! ## Leases -/

variable {f : Lease → Lease}

theorem mem_reviseLease {l : Lease} :
    l ∈ s.reviseLease job f ↔ (∃ l₀ ∈ s.leases, l₀.jobId = job.id ∧ l₀.attempt = job.attempt ∧
      f l₀ = l) ∨ l ∈ s.leases ∧ ¬ (l.jobId = job.id ∧ l.attempt = job.attempt) := by
  simp only [reviseLease, List.mem_map]
  constructor
  · rintro ⟨l₀, hl₀, rfl⟩
    split_ifs with h
    · exact .inl ⟨l₀, hl₀, h.1, h.2, rfl⟩
    · exact .inr ⟨hl₀, h⟩
  · rintro (⟨l₀, hl₀, hid, hattempt, rfl⟩ | ⟨hl, hne⟩)
    · exact ⟨l₀, hl₀, if_pos ⟨hid, hattempt⟩⟩
    · exact ⟨l, hl, if_neg hne⟩

theorem numbers_reviseLease (hf : ∀ l, (f l).jobId = l.jobId ∧ (f l).attempt = l.attempt) :
    (s.reviseLease job f).map (fun l => (l.jobId, l.attempt)) =
      s.leases.map fun l => (l.jobId, l.attempt) := by
  rw [reviseLease, List.map_map]
  apply map_congr_left
  intro l _
  show ((if _ then f l else l).jobId, (if _ then f l else l).attempt) = _
  split_ifs
  · rw [(hf l).1, (hf l).2]
  · rfl

theorem leaseCount_eq (jobId : Uuid) :
    s.leaseCount jobId = (s.leases.map fun l => (l.jobId, l.attempt)).countP (·.1 = jobId) := by
  rw [countP_map]
  rfl

theorem reviseLease_id : s.reviseLease job id = s.leases := by
  simp [reviseLease]

section

variable (h : s.LeasesSound)

include h

theorem LeasesSound.attempt_le {l : Lease} (hl : l ∈ s.leases)
    (hjob : job ∈ s.jobs) (hid : job.id = l.jobId) : l.attempt ≤ job.attempt := by
  obtain ⟨found, hmem, hfound, hle⟩ := h.known l hl
  obtain rfl := Table.eq_of_key hmem hjob (hfound.trans hid.symm)
  exact hle

section

variable (hjob : job ∈ s.jobs) (hid : job'.id = job.id) (hattempt : job'.attempt = job.attempt)
include hjob hid hattempt

theorem LeasesSound.rewrite (hf : ∀ l, (f l).jobId = l.jobId ∧ (f l).attempt = l.attempt)
    (hheld : ∀ l ∈ s.leases, l.jobId = job.id → l.attempt = job.attempt → s.Holds (f l) →
      job'.status = .running)
    (hcurrent : ∀ l ∈ s.leases, l.jobId = job.id → l.attempt = job.attempt →
      job'.status = .running →
      job'.leaseOwner = some (f l).workerId ∧ job'.leaseExpiresAt = some (f l).expiresAt)
    (hlast : job'.status = .running → job.status = .running ∧ ∀ l, (f l).ended = l.ended) :
    (s.rewrite job job' f).LeasesSound := by
  have hput := fun x => Table.mem_put hjob hid.symm (x := x)
  have hcount : ∀ jobId, (s.rewrite job job' f).leaseCount jobId = s.leaseCount jobId := by
    intro jobId
    rw [leaseCount_eq, leaseCount_eq]
    exact congrArg _ (numbers_reviseLease hf)
  constructor
  · show ((s.reviseLease job f).map _).Nodup
    rw [numbers_reviseLease hf]
    exact h.numbered
  · intro l hl
    obtain ⟨l₀, hl₀, hjobId, hnumber⟩ : ∃ l₀ ∈ s.leases, l.jobId = l₀.jobId ∧
        l.attempt = l₀.attempt := by
      rcases mem_reviseLease.1 hl with ⟨l₀, hl₀, -, -, rfl⟩ | ⟨hl, -⟩
      · exact ⟨l₀, hl₀, hf l₀⟩
      · exact ⟨l, hl, rfl, rfl⟩
    obtain ⟨x, hx, hxid, hle⟩ := h.known l₀ hl₀
    rw [hjobId, hnumber]
    by_cases hxjob : x.id = job'.id
    · obtain rfl := Table.eq_of_key hx hjob (hxjob.trans hid)
      exact ⟨job', (hput job').2 (.inl rfl), hid.trans hxid, hle.trans hattempt.ge⟩
    · exact ⟨x, (hput x).2 (.inr ⟨hx, hxjob⟩), hxid, hle⟩
  · intro x hx
    rw [hcount]
    rcases (hput x).1 hx with rfl | ⟨hmem, -⟩
    · rw [hattempt, hid]
      exact h.counted job hjob
    · exact h.counted x hmem
  · intro l hl hholds x hx hxid
    rcases mem_reviseLease.1 hl with ⟨l₀, hl₀, hjobId, hnumber, rfl⟩ | ⟨hold, hother⟩
    · rcases (hput x).1 hx with rfl | ⟨hmem, hne⟩
      · exact ⟨hheld l₀ hl₀ hjobId hnumber hholds,
          hattempt.trans (hnumber.symm.trans (hf l₀).2.symm)⟩
      · exact absurd (hxid.trans ((hf l₀).1.trans (hjobId.trans hid.symm))) hne
    · rcases (hput x).1 hx with rfl | ⟨hmem, -⟩
      · have hlast := (h.held l hold hholds job hjob (hid.symm.trans hxid)).2
        exact absurd ⟨hxid.symm.trans hid, hlast.symm⟩ hother
      · exact h.held l hold hholds x hmem hxid
  · intro l hl x hx hxid hxattempt hrunning
    rcases mem_reviseLease.1 hl with ⟨l₀, hl₀, hjobId, hnumber, rfl⟩ | ⟨hold, hother⟩
    · rcases (hput x).1 hx with rfl | ⟨hmem, hne⟩
      · exact hcurrent l₀ hl₀ hjobId hnumber hrunning
      · exact absurd (hxid.trans ((hf l₀).1.trans (hjobId.trans hid.symm))) hne
    · rcases (hput x).1 hx with rfl | ⟨hmem, -⟩
      · exact absurd ⟨hxid.symm.trans hid, hxattempt.symm.trans hattempt⟩ hother
      · exact h.current l hold x hmem hxid hxattempt hrunning
  · intro x hx hrunning
    rcases (hput x).1 hx with rfl | ⟨hmem, hne⟩
    · obtain ⟨hjobRunning, hended⟩ := hlast hrunning
      obtain ⟨l, hl, hjobId, hnumber, hopen⟩ := h.last job hjob hjobRunning
      exact ⟨f l, mem_reviseLease.2 (.inl ⟨l, hl, hjobId, hnumber, rfl⟩),
        (hf l).1.trans (hjobId.trans hid.symm), (hf l).2.trans (hnumber.trans hattempt.symm),
        (hended l).trans hopen⟩
    · obtain ⟨l, hl, hjobId, hnumber, hopen⟩ := h.last x hmem hrunning
      have hother : ¬ (l.jobId = job.id ∧ l.attempt = job.attempt) :=
        fun hsame => hne (hjobId.symm.trans (hsame.1.trans hid.symm))
      exact ⟨l, mem_reviseLease.2 (.inr ⟨hl, hother⟩), hjobId, hnumber, hopen⟩

theorem LeasesSound.put (hstatus : job'.status = .running ↔ job.status = .running)
    (hlease : job.status = .running →
      job'.leaseOwner = job.leaseOwner ∧ job'.leaseExpiresAt = job.leaseExpiresAt) :
    LeasesSound { s with jobs := s.jobs.put job' } := by
  have hrewrite := h.rewrite (f := id) hjob hid hattempt (fun l => ⟨rfl, rfl⟩)
    (fun l hl hjobId _ hholds => hstatus.2 (h.held l hl hholds job hjob hjobId.symm).1)
    (fun l hl hjobId hnumber hrunning => by
      obtain ⟨howner, hexpires⟩ := hlease (hstatus.1 hrunning)
      rw [howner, hexpires]
      exact h.current l hl job hjob hjobId.symm hnumber.symm (hstatus.1 hrunning))
    (fun hrunning => ⟨hstatus.1 hrunning, fun l => rfl⟩)
  rwa [KnowledgeJobStore.rewrite, reviseLease_id] at hrewrite

end

theorem LeasesSound.free_of_leasable (hjob : job ∈ s.jobs)
    (hleasable : s.leasable limit job) : ∀ l ∈ s.leases, s.Holds l → l.jobId ≠ job.id := by
  intro l hl hholds hjobId
  obtain ⟨hrunning, hlast⟩ := h.held l hl hholds job hjob hjobId.symm
  rcases (leasable_iff.1 hleasable).2.2.2 with ⟨-, hexpired⟩ | ⟨hqueued, -⟩
  · obtain ⟨t, ht, hle⟩ := KnowledgeJobRow.expired_iff.1 hexpired
    rw [(h.current l hl job hjob hjobId.symm hlast hrunning).2] at ht
    cases ht
    exact absurd hholds.2 (by omega)
  · rw [hqueued] at hrunning
    cases hrunning

theorem LeasesSound.grant (hjob : job ∈ s.jobs)
    (hleasable : s.leasable limit job) (call : LeaseCall) : (s.grant job call).LeasesSound := by
  have hput := fun x =>
    Table.mem_put hjob (r := job.lease s.now call.workerId call.leaseSeconds) rfl (x := x)
  have hfree := h.free_of_leasable hjob hleasable
  constructor
  · refine nodup_cons.2 ⟨fun hmem => ?_, h.numbered⟩
    obtain ⟨l, hl, hnumber⟩ := List.mem_map.1 hmem
    obtain ⟨hjobId, hattempt⟩ := Prod.mk.inj hnumber
    have hle := h.attempt_le hl hjob hjobId.symm
    simp only at hattempt
    omega
  · intro l hl
    rcases mem_cons.1 hl with rfl | hl
    · exact ⟨_, (hput _).2 (.inl rfl), rfl, le_rfl⟩
    · obtain ⟨x, hx, hxid, hle⟩ := h.known l hl
      by_cases hxjob : x.id = job.id
      · obtain rfl := Table.eq_of_key hx hjob hxjob
        exact ⟨_, (hput _).2 (.inl rfl), hxid, hle.trans (Nat.le_succ _)⟩
      · exact ⟨x, (hput x).2 (.inr ⟨hx, hxjob⟩), hxid, hle⟩
  · intro x hx
    rw [leaseCount, KnowledgeJobStore.grant, countP_cons]
    rcases (hput x).1 hx with rfl | ⟨hmem, hne⟩
    · rw [if_pos (by simp [KnowledgeJobRow.lease])]
      exact congrArg (· + 1) (h.counted job hjob)
    · rw [if_neg (by simpa [KnowledgeJobRow.lease, eq_comm] using hne)]
      exact h.counted x hmem
  · intro l hl hholds x hx hxid
    rcases mem_cons.1 hl with rfl | hl
    · rcases (hput x).1 hx with rfl | ⟨hmem, hne⟩
      · exact ⟨rfl, rfl⟩
      · exact absurd hxid hne
    · rcases (hput x).1 hx with rfl | ⟨hmem, -⟩
      · exact absurd hxid.symm (hfree l hl hholds)
      · exact h.held l hl hholds x hmem hxid
  · intro l hl x hx hxid hxattempt hrunning
    rcases mem_cons.1 hl with rfl | hl
    · rcases (hput x).1 hx with rfl | ⟨hmem, hne⟩
      · exact ⟨rfl, rfl⟩
      · exact absurd hxid hne
    · rcases (hput x).1 hx with rfl | ⟨hmem, -⟩
      · have hle := h.attempt_le hl hjob hxid
        simp only [KnowledgeJobRow.lease] at hxattempt
        omega
      · exact h.current l hl x hmem hxid hxattempt hrunning
  · intro x hx hrunning
    rcases (hput x).1 hx with rfl | ⟨hmem, -⟩
    · exact ⟨_, mem_cons_self, rfl, rfl, rfl⟩
    · obtain ⟨l, hl, hlast⟩ := h.last x hmem hrunning
      exact ⟨l, mem_cons_of_mem _ hl, hlast⟩

theorem LeasesSound.insert (hinserted : s.jobs.insert job = some jobs) (hattempt : job.attempt = 0)
    (hqueued : job.status = .queued) : LeasesSound { s with jobs } := by
  have hinsert := fun x => Table.mem_insert hinserted (x := x)
  have hfresh : ∀ l ∈ s.leases, l.jobId ≠ job.id := by
    intro l hl hjobId
    obtain ⟨x, hx, hxid, -⟩ := h.known l hl
    exact Table.get_eq_none.1 (Table.insert_eq_some.1 hinserted).1 x hx (hxid.trans hjobId)
  constructor
  · exact h.numbered
  · intro l hl
    obtain ⟨x, hx, hxl⟩ := h.known l hl
    exact ⟨x, (hinsert x).2 (.inl hx), hxl⟩
  · intro x hx
    rcases (hinsert x).1 hx with hmem | rfl
    · exact h.counted x hmem
    · rw [hattempt]
      exact (countP_eq_zero.2 fun l hl => by simpa using hfresh l hl).symm
  · intro l hl hholds x hx hxid
    rcases (hinsert x).1 hx with hmem | rfl
    · exact h.held l hl hholds x hmem hxid
    · exact absurd hxid.symm (hfresh l hl)
  · intro l hl x hx hxid
    rcases (hinsert x).1 hx with hmem | rfl
    · exact h.current l hl x hmem hxid
    · exact absurd hxid.symm (hfresh l hl)
  · intro x hx hrunning
    rcases (hinsert x).1 hx with hmem | rfl
    · exact h.last x hmem hrunning
    · rw [hqueued] at hrunning
      cases hrunning

theorem LeasesSound.tick (elapsed : ℕ) :
    LeasesSound { s with now := s.now + elapsed } where
  numbered := h.numbered
  known := h.known
  counted := h.counted
  held l hl hholds := h.held l hl ⟨hholds.1, lt_of_le_of_lt (by simp) hholds.2⟩
  current := h.current
  last := h.last

theorem LeasesSound.step (heffect : Effect limit s a s') : s'.LeasesSound := by
  cases heffect with
  | access => exact ⟨h.numbered, h.known, h.counted, h.held, h.current, h.last⟩
  | tick elapsed => exact h.tick elapsed
  | unchanged => exact h
  | insert call jobs hfree hinserted => exact h.insert hinserted rfl rfl
  | cancel actor revision job hmem hactive =>
    refine h.put hmem rfl rfl ?_ fun _ => ⟨rfl, rfl⟩
    cases hstatus : job.status <;> simp [KnowledgeJobRow.cancel, hstatus]
  | retry actor revision job hmem hsettled hbudget hfree haccepted =>
    have hstopped : job.status ≠ .running := by
      rcases hsettled with hstatus | hstatus <;> simp [hstatus]
    exact h.put hmem rfl rfl (iff_of_false nofun hstopped) fun hrunning =>
      absurd hrunning hstopped
  | lease call job hvalid hfound =>
    obtain ⟨hmem, hleasable⟩ := candidate_spec hfound
    exact h.grant hmem hleasable call
  | beat workerId update job howned =>
    apply h.rewrite howned.mem
    · rfl
    · rfl
    · exact fun l => ⟨rfl, rfl⟩
    · exact fun _ _ _ _ _ => howned.running
    · intro l hl hjobId hnumber _
      have hlast := h.current l hl job howned.mem hjobId.symm hnumber.symm howned.running
      exact ⟨hlast.1, rfl⟩
    · exact fun _ => ⟨howned.running, fun l => rfl⟩
  | finish _ workerId update job howned houtcome =>
    apply h.rewrite howned.mem
    · rfl
    · rfl
    · exact fun l => ⟨rfl, rfl⟩
    · intro l _ _ _ hholds
      cases hholds.1
    · intro l _ _ _ hrunning
      exact absurd hrunning (finish_status_ne_running houtcome)
    · exact fun hrunning => absurd hrunning (finish_status_ne_running houtcome)

end

theorem Sound.step (h : s.Sound) (heffect : Effect limit s a s') : s'.Sound where
  rows job' hjob' := by
    rcases heffect.rows.origin job' hjob' with ⟨job, hjob, hchange⟩ | ⟨call, -, rfl, -⟩
    · exact (h.rows job hjob).change hchange heffect.now_le
    · exact RowSound.new call
  only_active := h.only_active_step heffect.rows
  leases := h.leases.step heffect

theorem sound_initial (access : Spaces.Registry) (now : ℤ) : (initial access now).Sound where
  rows job hjob := absurd hjob (Table.not_mem_empty job)
  only_active job hjob := absurd hjob (Table.not_mem_empty job)
  leases :=
    { numbered := nodup_nil
      known := fun _ hl => absurd hl not_mem_nil
      counted := fun job hjob => absurd hjob (Table.not_mem_empty job)
      held := fun _ hl => absurd hl not_mem_nil
      current := fun _ hl => absurd hl not_mem_nil
      last := fun job hjob => absurd hjob (Table.not_mem_empty job) }

theorem Sound.exec (h : s.Sound) {as : List JobLabel} {t : KnowledgeJobStore}
    (hrun : (jobMachine limit).exec s as = some t) : t.Sound :=
  Machine.invariant _ (fun _ _ _ hs hstep => hs.step (step_effect hstep)) h hrun

theorem LeasesSound.eq_of_holds (h : s.LeasesSound) {l l' : Lease} (hl : l ∈ s.leases)
    (hl' : l' ∈ s.leases) (hholds : s.Holds l) (hholds' : s.Holds l')
    (hjobId : l.jobId = l'.jobId) : l = l' := by
  obtain ⟨job, hjob, hid, -⟩ := h.known l hl
  have hlast := (h.held l hl hholds job hjob hid).2
  have hlast' := (h.held l' hl' hholds' job hjob (hid.trans hjobId)).2
  exact inj_on_of_nodup_map h.numbered hl hl' (Prod.ext hjobId (hlast.symm.trans hlast'))

theorem LeasesSound.owned_iff (h : s.LeasesSound) (hjob : job ∈ s.jobs) {workerId : String} :
    s.Owned job workerId ↔
      ∃ l ∈ s.leases, s.Holds l ∧ l.jobId = job.id ∧ l.workerId = workerId := by
  constructor
  · intro howned
    obtain ⟨l, hl, hjobId, hnumber, hopen⟩ := h.last job hjob howned.running
    obtain ⟨howner, hexpires⟩ := h.current l hl job hjob hjobId.symm hnumber.symm howned.running
    obtain ⟨t, ht, hlt⟩ := KnowledgeJobRow.unexpired_iff.1 howned.unexpired
    obtain rfl := mem_unique hexpires ht
    exact ⟨l, hl, ⟨hopen, hlt⟩, hjobId, mem_unique howner howned.owner⟩
  · rintro ⟨l, hl, hholds, hjobId, rfl⟩
    obtain ⟨hrunning, hlast⟩ := h.held l hl hholds job hjob hjobId.symm
    obtain ⟨howner, hexpires⟩ := h.current l hl job hjob hjobId.symm hlast hrunning
    exact ⟨hjob, hrunning, howner, KnowledgeJobRow.unexpired_iff.2 ⟨_, hexpires, hholds.2⟩⟩

end KnowledgeJobStore

/-! ## Cancellation and completion -/

/-- The step is a call of `retry` that puts the job back into the queue. -/
def Retries (jobId : Uuid) (s : KnowledgeJobStore) (a : JobLabel) : Prop :=
  ∃ actor revision, a = .retry actor jobId revision ∧
    ∃ result, s.retry actor jobId revision = .ok result

theorem RowChange.eq_of_succeeded (h : RowChange limit s a job job')
    (hstatus : job.status = .succeeded) : job' = job := by
  cases h with
  | same => rfl
  | cancel hactive => simp [KnowledgeJobRow.active, hstatus] at hactive
  | retry _ _ _ hsettled => simp [hstatus] at hsettled
  | lease call hleasable => simp [leasable_iff, hstatus] at hleasable
  | beat _ _ howned | finish _ _ howned => simp [howned.running] at hstatus

variable {update : TerminalUpdate}

theorem finish_succeeded {now : ℤ}
    (h : (job.finish now update).status = .succeeded) : update.status = .succeeded := by
  simp only [KnowledgeJobRow.finish] at h
  split_ifs at h
  exact h

theorem mem_terminalTransition {jobId : Uuid} {workerId : String}
    (h : job' ∈ (s.after (s.terminalTransition jobId workerId update)).jobs) :
    job' ∈ s.jobs ∨ ∃ job ∈ s.jobs, job.id = jobId ∧ job' = job.finish s.now update := by
  cases hcall : s.terminalTransition jobId workerId update with
  | error e =>
    rw [hcall] at h
    exact .inl h
  | ok result =>
    obtain ⟨job, howned, hid, hs'⟩ := terminalTransition_ok hcall
    rw [hcall] at h
    change job' ∈ result.1.jobs at h
    rw [hs'] at h
    rcases (Table.mem_put (r := job.finish s.now update) howned.mem rfl).1 h with
      rfl | ⟨hmem, -⟩
    · exact .inr ⟨job, howned.mem, hid, rfl⟩
    · exact .inl hmem

def NoneSucceeds (s : KnowledgeJobStore) (jobs : Table KnowledgeJobRow.id) : Prop :=
  ∀ job' ∈ jobs, job'.status = .succeeded → ∃ job ∈ s.jobs, job.id = job'.id ∧
    job.status = .succeeded

theorem noneSucceeds_self : NoneSucceeds s s.jobs :=
  fun job hjob hstatus => ⟨job, hjob, rfl, hstatus⟩

theorem noneSucceeds_put (hjob : job ∈ s.jobs) (hid : job'.id = job.id)
    (hstatus : job'.status ≠ .succeeded) : NoneSucceeds s (s.jobs.put job') := by
  intro x hx hsucceeded
  rcases (Table.mem_put hjob hid.symm).1 hx with rfl | ⟨hmem, -⟩
  · exact absurd hsucceeded hstatus
  · exact ⟨x, hmem, rfl, hsucceeded⟩

theorem noneSucceeds_after {α : Type} {result : Except KnowledgeJobError (KnowledgeJobStore × α)}
    (h : ∀ r, result = .ok r → NoneSucceeds s r.1.jobs) : NoneSucceeds s (s.after result).jobs := by
  cases result with
  | error e => exact noneSucceeds_self
  | ok r => exact h r rfl

theorem noneSucceeds_terminalTransition {jobId : Uuid} {workerId : String}
    (hupdate : update.status ≠ .succeeded) {row : KnowledgeJobRow}
    (h : s.terminalTransition jobId workerId update = .ok (s', row)) : NoneSucceeds s s'.jobs := by
  obtain ⟨job, howned, -, rfl⟩ := terminalTransition_ok h
  exact noneSucceeds_put howned.mem rfl fun hstatus => hupdate (finish_succeeded hstatus)

theorem noneSucceeds_enqueue (call : EnqueueCall) :
    NoneSucceeds s (s.after (s.enqueue call)).jobs := by
  refine noneSucceeds_after fun result hcall => ?_
  obtain ⟨⟨⟩, -, ⟨⟩, -, h₂⟩ := bind₂_eq_ok.1 hcall
  obtain ⟨⟨⟩, -, h⟩ := bind_eq_ok.1 h₂
  split at h
  · cases h
    exact noneSucceeds_self
  · dsimp only at h
    split at h
    · cases h
    · rename_i jobs hjobs
      cases h
      intro x hx hsucceeded
      rcases (Table.mem_insert hjobs).1 hx with hmem | rfl
      · exact ⟨x, hmem, rfl, hsucceeded⟩
      · cases hsucceeded

theorem noneSucceeds_requestCancel (actor : Spaces.SpaceActor) (jobId : Uuid) (revision : ℕ) :
    NoneSucceeds s (s.after (s.requestCancel actor jobId revision)).jobs := by
  refine noneSucceeds_after fun result hcall => ?_
  obtain ⟨job, hjob, ⟨⟩, -, h⟩ := bind₂_eq_ok.1 hcall
  split_ifs at h with hguard
  cases h
  refine noneSucceeds_put (getJob_ok hjob).1 rfl fun hstatus => ?_
  have hactive := hguard.2
  simp only [KnowledgeJobRow.cancel] at hstatus
  split_ifs at hstatus
  simp [KnowledgeJobRow.active, hstatus] at hactive

theorem noneSucceeds_retry (actor : Spaces.SpaceActor) (jobId : Uuid) (revision : ℕ) :
    NoneSucceeds s (s.after (s.retry actor jobId revision)).jobs := by
  refine noneSucceeds_after fun result hcall => ?_
  obtain ⟨job, hjob, ⟨⟩, -, h⟩ := bind₂_eq_ok.1 hcall
  split_ifs at h
  cases h
  exact noneSucceeds_put (getJob_ok hjob).1 rfl nofun

theorem noneSucceeds_leaseNext (call : LeaseCall) :
    NoneSucceeds s (s.after (s.leaseNext limit call)).jobs := by
  refine noneSucceeds_after fun result hcall => ?_
  obtain ⟨⟨⟩, -, h⟩ := bind_eq_ok.1 hcall
  split at h
  · cases h
    exact noneSucceeds_self
  · rename_i job hjob
    cases h
    exact noneSucceeds_put (candidate_spec hjob).1 rfl nofun

theorem noneSucceeds_heartbeat (jobId : Uuid) (workerId : String) (update : HeartbeatUpdate) :
    NoneSucceeds s (s.after (s.heartbeat jobId workerId update)).jobs := by
  refine noneSucceeds_after fun result hcall => ?_
  obtain ⟨⟨⟩, -, job, hjob, h⟩ := bind₂_eq_ok.1 hcall
  obtain ⟨howned, rfl⟩ := ownedRunningJob_eq_ok.1 hjob
  split_ifs at h
  · obtain ⟨⟨s₁, row⟩, hfinish, hpair⟩ := bind_eq_ok.1 h
    cases hpair
    exact noneSucceeds_terminalTransition (by simp) hfinish
  · cases h
    refine noneSucceeds_put howned.mem rfl fun hstatus => ?_
    have hrunning := howned.running
    exact absurd (hrunning.symm.trans hstatus) (by simp)

theorem succeeded_origin (h : (jobMachine limit).step s a = some s') (hjob : job' ∈ s'.jobs)
    (hstatus : job'.status = .succeeded) :
    (∃ job ∈ s.jobs, job.id = job'.id ∧ job.status = .succeeded) ∨
      ∃ workerId usedTokens usedSources, a = .complete job'.id workerId usedTokens usedSources := by
  cases a with
  | access | tick =>
    cases h
    exact .inl ⟨job', hjob, rfl, hstatus⟩
  | enqueue call =>
    cases h
    exact .inl (noneSucceeds_enqueue call job' hjob hstatus)
  | requestCancel actor jobId revision =>
    cases h
    exact .inl (noneSucceeds_requestCancel actor jobId revision job' hjob hstatus)
  | retry actor jobId revision =>
    cases h
    exact .inl (noneSucceeds_retry actor jobId revision job' hjob hstatus)
  | leaseNext call =>
    cases h
    exact .inl (noneSucceeds_leaseNext call job' hjob hstatus)
  | heartbeat jobId workerId update =>
    cases h
    exact .inl (noneSucceeds_heartbeat jobId workerId update job' hjob hstatus)
  | complete jobId workerId usedTokens usedSources =>
    cases h
    rcases mem_terminalTransition hjob with hmem | ⟨job, -, rfl, rfl⟩
    · exact .inl ⟨job', hmem, rfl, hstatus⟩
    · exact .inr ⟨workerId, usedTokens, usedSources, rfl⟩
  | fail jobId workerId reason retryable =>
    cases h
    refine .inl (noneSucceeds_after (fun result hcall => ?_) job' hjob hstatus)
    obtain ⟨⟨⟩, -, hfinish⟩ := bind_eq_ok.1 hcall
    exact noneSucceeds_terminalTransition (by simp) hfinish

theorem RowChange.of_cancelRequested (h : RowChange limit s a job job')
    (hcancel : job.cancelRequestedAt ≠ none) (hretry : ¬ Retries job.id s a) :
    job'.cancelRequestedAt = job.cancelRequestedAt ∧ job'.attempt = job.attempt := by
  obtain ⟨requestedAt, hrequested⟩ := ne_none_iff_exists'.1 hcancel
  cases h with
  | same | beat | finish => exact ⟨rfl, rfl⟩
  | cancel hactive => simp [KnowledgeJobRow.cancel, hrequested]
  | retry actor revision hlabel _ _ _ haccepted =>
    exact absurd ⟨actor, revision, hlabel, haccepted⟩ hretry
  | lease call hleasable => exact absurd (leasable_iff.1 hleasable).1 hcancel

/-! ## Runs -/

variable {t : KnowledgeJobStore} {as : List JobLabel}

theorem succeeded_final (hrun : (jobMachine limit).exec s as = some t) (hjob : job ∈ s.jobs)
    (hstatus : job.status = .succeeded) : job ∈ t.jobs := by
  refine Machine.invariant _ (I := fun s => job ∈ s.jobs) (fun s a s' hmem hstep => ?_) hjob hrun
  obtain ⟨job', hjob', hchange⟩ := (step_effect hstep).rows.stays job hmem
  rwa [hchange.eq_of_succeeded hstatus] at hjob'

theorem cancelRequested_stays (hrun : (jobMachine limit).exec s as = some t) (hjob : job ∈ s.jobs)
    (hcancel : job.cancelRequestedAt ≠ none)
    (hretry : (jobMachine limit).Meets (fun s a => ¬ Retries job.id s a) s as) :
    ∃ job' ∈ t.jobs, job'.id = job.id ∧ job'.cancelRequestedAt = job.cancelRequestedAt ∧
      job'.attempt = job.attempt := by
  refine Machine.invariant_of_meets _
    (I := fun s => ∃ job' ∈ s.jobs, job'.id = job.id ∧
      job'.cancelRequestedAt = job.cancelRequestedAt ∧ job'.attempt = job.attempt)
    (fun s a s' hs hno hstep => ?_) ⟨job, hjob, rfl, rfl, rfl⟩ hretry hrun
  obtain ⟨job₁, hjob₁, hid, hrequested, hattempt⟩ := hs
  obtain ⟨job₂, hjob₂, hchange⟩ := (step_effect hstep).rows.stays job₁ hjob₁
  obtain ⟨hrequested', hattempt'⟩ := hchange.of_cancelRequested (hrequested ▸ hcancel) (hid ▸ hno)
  exact ⟨job₂, hjob₂, hchange.fixed.1.trans hid, hrequested'.trans hrequested,
    hattempt'.trans hattempt⟩

/-- The attempts of a job are its leases and within its budget; no two workers hold one job, and
only the holder's calls are accepted; active jobs of a tenant have different idempotency keys; after
a request to cancel, a job is not leased and does not succeed until `retry`; a success is final. -/
theorem knowledge_job_lifecycle (limit : Uuid → ℕ) (access : Spaces.Registry) (now : ℤ)
    {as : List JobLabel} {s : KnowledgeJobStore}
    (hrun : (jobMachine limit).exec (initial access now) as = some s) :
    (∀ job ∈ s.jobs, job.attempt = s.leaseCount job.id ∧ job.attempt ≤ job.maxAttempts) ∧
    (∀ l ∈ s.leases, ∀ l' ∈ s.leases, s.Holds l → s.Holds l' → l.jobId = l'.jobId → l = l') ∧
    (∀ job ∈ s.jobs, ∀ workerId, s.Owned job workerId ↔
      ∃ l ∈ s.leases, s.Holds l ∧ l.jobId = job.id ∧ l.workerId = workerId) ∧
    (∀ job ∈ s.jobs, ∀ job' ∈ s.jobs, job.active → job'.active → job.tenantId = job'.tenantId →
      job.idempotencyKey = job'.idempotencyKey → job = job') ∧
    (∀ job ∈ s.jobs, job.cancelRequestedAt ≠ none → ∀ bs t, (jobMachine limit).exec s bs = some t →
      (jobMachine limit).Meets (fun s a => ¬ Retries job.id s a) s bs →
      ∃ job' ∈ t.jobs, job'.id = job.id ∧ job'.cancelRequestedAt = job.cancelRequestedAt ∧
        job'.status ≠ .succeeded ∧ t.leaseCount job.id = s.leaseCount job.id) ∧
    (∀ job ∈ s.jobs, job.status = .succeeded → ∀ bs t, (jobMachine limit).exec s bs = some t →
      job ∈ t.jobs) := by
  have hs : s.Sound := (sound_initial access now).exec hrun
  refine ⟨fun job hjob => ⟨hs.leases.counted job hjob, (hs.rows job hjob).budget⟩,
    fun l hl l' hl' hh hh' hid => hs.leases.eq_of_holds hl hl' hh hh' hid,
    fun job hjob workerId => hs.leases.owned_iff hjob, hs.only_active, ?_,
    fun job hjob hstatus bs t hbs => succeeded_final hbs hjob hstatus⟩
  intro job hjob hcancel bs t hbs hretry
  have ht : t.Sound := hs.exec hbs
  obtain ⟨job', hjob', hid, hrequested, hattempt⟩ := cancelRequested_stays hbs hjob hcancel hretry
  refine ⟨job', hjob', hid, hrequested, ?_, ?_⟩
  · rcases (ht.rows job' hjob').cancelled (hrequested ▸ hcancel) with h | h <;> simp [h]
  · rw [← hs.leases.counted job hjob, ← hattempt, ht.leases.counted job' hjob', hid]

def sampleRuntime : RuntimeSnapshot where
  backend := "codex_exec"
  model := ""
  effort := "low"
  endpointId := none
  modelSource := "default"
  localBaseUrl := ""
  localApiKeyEnv := ""
  promptContractRevision := "1"
  toolPolicyRevision := "1"
  roleProfileSource := none
  roleProfileRef := none

def sampleJob (id : Uuid) (priority : ℤ) (maxAttempts : ℕ) : JobLabel :=
  .enqueue
    { actor := ⟨1, 2⟩
      request :=
        { spaceId := 5
          role := .researcher
          priority
          input := .object []
          idempotencyKey := toString id.toNat
          sourceIds := [3]
          runtime := sampleRuntime
          bundleRole := none
          budget := ⟨1000, 10, 60, maxAttempts⟩
          scheduledAt := none }
      pinned := .ok ()
      newId := id }

def sampleLease (workerId : String) : JobLabel := .leaseNext ⟨workerId, 60, [], []⟩

def sampleCancelledRun : List JobLabel :=
  [sampleJob 1 0 3, sampleLease "w1", .requestCancel ⟨1, 2⟩ 1 2, .complete 1 "w1" 10 1]

theorem knowledge_job_lifecycle_of_sample :
    ∃ s, (jobMachine fun _ => 4).exec (initial sampleAccess 0) sampleCancelledRun = some s ∧
      (s.jobs.rows.map fun job => (job.status, job.attempt)) = [(.cancelled, 1)] ∧
      ∀ job ∈ s.jobs, job.attempt = s.leaseCount job.id ∧ job.attempt ≤ job.maxAttempts := by
  have hrows : ((jobMachine fun _ => 4).exec (initial sampleAccess 0) sampleCancelledRun).map
      (fun s => s.jobs.rows.map fun job => (job.status, job.attempt)) =
        some [(.cancelled, 1)] := by decide +kernel
  obtain ⟨s, hs, hrows⟩ := map_eq_some_iff.1 hrows
  exact ⟨s, hs, hrows, (knowledge_job_lifecycle _ _ _ hs).1⟩

end Gadgetron.Jobs
