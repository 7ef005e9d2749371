import Gadgetron.Jobs.Lifecycle

/-!
# The slots of a tenant

`lease_next` counts the running jobs of a tenant in the snapshot of its query, and the row of the
tenant that it locks is changed by no one, so nothing is counted again when the lock is granted.
Each transaction has the time at which it began for its `NOW()`.
-/

namespace Gadgetron.Jobs

open Lib KnowledgeJobStore Option

/-- A `lease_next` whose query has its snapshot; the transaction began at `startedAt`. -/
structure LeaseQuery where
  workerId : String
  (leaseSeconds startedAt : ℤ)
  snapshot : Table KnowledgeJobRow.id

/-- The call, with the rows that other transactions have locked by the time it locks its own. -/
def LeaseQuery.call (query : LeaseQuery) (lockedJobs lockedTenants : List Uuid) : LeaseCall :=
  ⟨query.workerId, query.leaseSeconds, lockedJobs, lockedTenants⟩

/-- What the query sees of the store. -/
def LeaseQuery.view (query : LeaseQuery) (s : KnowledgeJobStore) : KnowledgeJobStore :=
  { s with jobs := query.snapshot, now := query.startedAt }

namespace KnowledgeJobStore

/-- The store for a transaction that began at the given time. -/
def asOf (s : KnowledgeJobStore) (startedAt : ℤ) : KnowledgeJobStore := { s with now := startedAt }

/-- `candidate` where it is locked: the first row of the snapshot that is leasable and not locked by
others. If it was changed since, its present version must be leasable, with the running jobs still
counted in the snapshot. -/
def lockCandidate (limit : Uuid → ℕ) (s : KnowledgeJobStore) (query : LeaseQuery)
    (lockedJobs lockedTenants : List Uuid) : Option KnowledgeJobRow :=
  (query.snapshot.first leaseOrder fun row =>
    (query.view s).leasable limit row && !lockedJobs.contains row.id &&
      !lockedTenants.contains row.tenantId &&
      (s.jobs.get row.id).any ((query.view s).leasable limit)).bind fun row => s.jobs.get row.id

/-- The rest of `lease_next`, from the locks to the commit. -/
def claim (limit : Uuid → ℕ) (s : KnowledgeJobStore) (query : LeaseQuery)
    (lockedJobs lockedTenants : List Uuid) : KnowledgeJobStore :=
  match s.lockCandidate limit query lockedJobs lockedTenants with
  | none => s
  | some job =>
    ((s.asOf query.startedAt).grant job (query.call lockedJobs lockedTenants)).asOf s.now

end KnowledgeJobStore

structure LeasingState where
  store : KnowledgeJobStore
  /-- The queries of `lease_next` that have not committed. -/
  queries : ℕ → Option LeaseQuery

inductive LeasingLabel
  | tick (elapsed : ℕ)
  /-- Any other call, in a transaction that began at `startedAt`. -/
  | call (a : JobLabel) (startedAt : ℤ)
  /-- `lease_next` up to the snapshot of its query. -/
  | query (index : ℕ) (workerId : String) (leaseSeconds startedAt : ℤ)
  | claim (index : ℕ) (lockedJobs lockedTenants : List Uuid)

def JobLabel.isCall : JobLabel → Bool
  | .tick _ | .leaseNext _ => false
  | _ => true

abbrev leasingMachine (limit : Uuid → ℕ) : Machine LeasingState LeasingLabel where
  step s
    | .tick elapsed => some { s with store := s.store.asOf (s.store.now + elapsed) }
    | .call a startedAt =>
      if startedAt ≤ s.store.now ∧ a.isCall then
        ((jobMachine limit).step (s.store.asOf startedAt) a).map fun store =>
          { s with store := store.asOf s.store.now }
      else none
    | .query index workerId leaseSeconds startedAt =>
      if startedAt ≤ s.store.now ∧ (s.queries index).isNone then
        if LeaseCall.valid ⟨workerId, leaseSeconds, [], []⟩ then
          let query : LeaseQuery := ⟨workerId, leaseSeconds, startedAt, s.store.jobs⟩
          some { s with queries := Function.update s.queries index (some query) }
        else some s
      else none
    | .claim index lockedJobs lockedTenants =>
      (s.queries index).map fun query =>
        { store := s.store.claim limit query lockedJobs lockedTenants
          queries := Function.update s.queries index none }

def LeasingState.initial (access : Spaces.Registry) (now : ℤ) : LeasingState :=
  ⟨KnowledgeJobStore.initial access now, fun _ => none⟩

/-! ## Who is counted -/

section

variable {limit : Uuid → ℕ} {s s' : KnowledgeJobStore} {a : JobLabel} {job job' : KnowledgeJobRow}
  {tenantId : Uuid} {n : ℤ}

def counts (n : ℤ) (tenantId : Uuid) (job : KnowledgeJobRow) : Bool :=
  job.tenantId = tenantId && job.status = .running && job.unexpired n

theorem counts_iff : counts n tenantId job ↔
    job.tenantId = tenantId ∧ job.status = .running ∧ job.unexpired n := by
  simp only [counts, Bool.and_eq_true, decide_eq_true_eq, and_assoc]

theorem not_counts_of_expired (h : job.expired n) : ¬ counts n tenantId job := by
  rw [counts_iff]
  rintro ⟨-, -, hunexpired⟩
  obtain ⟨t, ht, hlt⟩ := KnowledgeJobRow.unexpired_iff.1 hunexpired
  obtain ⟨t', ht', hle⟩ := KnowledgeJobRow.expired_iff.1 h
  obtain rfl := mem_unique ht ht'
  omega

theorem expired_of_le {m : ℤ} (h : job.expired m) (hle : m ≤ n) : job.expired n := by
  obtain ⟨t, ht, htm⟩ := KnowledgeJobRow.expired_iff.1 h
  exact KnowledgeJobRow.expired_iff.2 ⟨t, ht, htm.trans hle⟩

theorem not_counts_of_leasable (h : s.leasable limit job) (hn : s.now ≤ n) :
    ¬ counts n tenantId job := by
  rcases (leasable_iff.1 h).2.2.2 with ⟨-, hexpired⟩ | ⟨hqueued, -⟩
  · exact not_counts_of_expired (expired_of_le hexpired hn)
  · rw [counts_iff, hqueued]
    rintro ⟨-, h, -⟩
    cases h

theorem countP_put_le (hjob : job ∈ s.jobs) (hid : job'.id = job.id)
    (hcounts : counts n tenantId job' → counts n tenantId job) :
    (s.jobs.put job').rows.countP (counts n tenantId) ≤ s.jobs.rows.countP (counts n tenantId) := by
  have hput := Table.countP_put hjob hid.symm (counts n tenantId)
  by_cases h : counts n tenantId job'
  · rw [if_pos h, if_pos (hcounts h)] at hput
    omega
  · rw [if_neg h] at hput
    omega

theorem countP_put_new (hjob : job ∈ s.jobs) (hid : job'.id = job.id)
    (hbefore : ¬ counts n tenantId job) : (s.jobs.put job').rows.countP (counts n tenantId) =
      s.jobs.rows.countP (counts n tenantId) + if counts n tenantId job' then 1 else 0 := by
  have hput := Table.countP_put hjob hid.symm (counts n tenantId)
  rw [if_neg hbefore] at hput
  exact hput

variable {call : LeaseCall}

theorem countP_grant (hjob : job ∈ s.jobs) (hbefore : ¬ counts n tenantId job) :
    (s.grant job call).jobs.rows.countP (counts n tenantId) =
      s.jobs.rows.countP (counts n tenantId) +
        if job.tenantId = tenantId ∧ n < s.now + seconds call.leaseSeconds then 1 else 0 := by
  have hafter : counts n tenantId (job.lease s.now call.workerId call.leaseSeconds) ↔
      job.tenantId = tenantId ∧ n < s.now + seconds call.leaseSeconds := by
    rw [counts_iff, KnowledgeJobRow.unexpired_iff]
    simp [KnowledgeJobRow.lease]
  have hput := countP_put_new hjob
    (rfl : (job.lease s.now call.workerId call.leaseSeconds).id = job.id) hbefore
  simp only [hafter] at hput
  exact hput

variable {workerId : String} {update : HeartbeatUpdate}

/-- A heartbeat prolongs the lease of the job. -/
structure Beats (s : KnowledgeJobStore) (workerId : String) (update : HeartbeatUpdate)
    (job : KnowledgeJobRow) : Prop where
  owned : s.Owned job workerId
  valid : update.valid = true
  fits : job.overBudget update = false

theorem after_heartbeat (h : Beats s workerId update job) :
    (s.after (s.heartbeat job.id workerId update)).jobs = s.jobs.put (job.beat s.now update) := by
  unfold heartbeat
  rw [require_eq_ok.2 h.valid, ownedRunningJob_eq_ok.2 ⟨h.owned, rfl⟩]
  dsimp only [bind, Except.bind]
  rw [if_neg (Bool.eq_false_iff.1 h.fits)]
  rfl

theorem countP_beat (hbeat : Beats s workerId update job)
    (hbefore : ¬ counts n tenantId job) :
    (s.after (s.heartbeat job.id workerId update)).jobs.rows.countP (counts n tenantId) =
      s.jobs.rows.countP (counts n tenantId) +
        if job.tenantId = tenantId ∧ n < s.now + seconds update.leaseSeconds then 1 else 0 := by
  have hafter : counts n tenantId (job.beat s.now update) ↔
      job.tenantId = tenantId ∧ n < s.now + seconds update.leaseSeconds := by
    rw [counts_iff, KnowledgeJobRow.unexpired_iff]
    simp [KnowledgeJobRow.beat, hbeat.owned.running]
  have hput := countP_put_new hbeat.owned.mem (rfl : (job.beat s.now update).id = job.id)
    hbefore
  simp only [hafter] at hput
  rw [after_heartbeat hbeat]
  exact hput

/-- Only a heartbeat can make a call count more jobs than before. -/
theorem countP_le_of_effect (h : Effect limit s a s') (hcall : a.isCall = true)
    (hbeat : ∀ workerId update job, a = .heartbeat job.id workerId update →
      Beats s workerId update job → counts n tenantId (job.beat s.now update) →
      counts n tenantId job) :
    s'.jobs.rows.countP (counts n tenantId) ≤ s.jobs.rows.countP (counts n tenantId) := by
  cases h with
  | access | unchanged => exact le_rfl
  | tick | lease => cases hcall
  | insert call jobs hfree hinserted =>
    have hinsert := Table.countP_insert hinserted (counts n tenantId)
    rw [if_neg (by simp [counts, KnowledgeJobRow.new])] at hinsert
    exact hinsert.le
  | cancel actor revision job hmem hactive =>
    refine countP_put_le hmem rfl fun hcounts => ?_
    obtain ⟨htenant, hrunning, hunexpired⟩ := counts_iff.1 hcounts
    refine counts_iff.2 ⟨htenant, ?_, hunexpired⟩
    cases hstatus : job.status <;> simp [KnowledgeJobRow.cancel, hstatus] at hrunning ⊢
  | retry actor revision job hmem hsettled =>
    refine countP_put_le hmem rfl fun hcounts => ?_
    cases (counts_iff.1 hcounts).2.1
  | beat workerId update job howned hvalid hfits =>
    exact countP_put_le howned.mem rfl (hbeat workerId update job rfl ⟨howned, hvalid, hfits⟩)
  | finish _ workerId update job howned houtcome =>
    refine countP_put_le howned.mem rfl fun hcounts => ?_
    exact absurd (counts_iff.1 hcounts).2.1 (finish_status_ne_running houtcome)

end

/-! ## The limit -/

/-- No tenant has more unexpired leases than its limit. -/
def WithinLimit (limit : Uuid → ℕ) (s : KnowledgeJobStore) : Prop :=
  ∀ tenantId, s.activeCount tenantId ≤ limit tenantId

/-- A lease that is written where it may go beyond the limit finds a slot free: that of a job which
is taken over, that of a queued job when more jobs run than the snapshot shows, and that which a
heartbeat prolongs after it has run out. A lease that is over when it is written takes no slot. -/
def LeasesWithin (limit : Uuid → ℕ) (s : LeasingState) : LeasingLabel → Prop
  | .call (.heartbeat jobId workerId update) startedAt =>
    ∀ job, job.id = jobId → Beats (s.store.asOf startedAt) workerId update job →
      job.expired s.store.now → s.store.now < startedAt + seconds update.leaseSeconds →
      s.store.activeCount job.tenantId < limit job.tenantId
  | .claim index lockedJobs lockedTenants =>
    ∀ query job, s.queries index = some query →
      s.store.lockCandidate limit query lockedJobs lockedTenants = some job →
      job.status = .running ∨
        (query.view s.store).activeCount job.tenantId < s.store.activeCount job.tenantId →
      s.store.now < query.startedAt + seconds query.leaseSeconds →
      s.store.activeCount job.tenantId < limit job.tenantId
  | _ => True

section

variable {limit : Uuid → ℕ} {s s' : LeasingState} {a : LeasingLabel}

/-- No transaction begins in the future. -/
def LeasingState.Timely (s : LeasingState) : Prop :=
  ∀ index query, s.queries index = some query → query.startedAt ≤ s.store.now

variable {store : KnowledgeJobStore}

theorem LeasingState.Timely.update (h : s.Timely)
    (hnow : s.store.now ≤ store.now) {index : ℕ} {found : Option LeaseQuery}
    (hfound : ∀ query, found = some query → query.startedAt ≤ store.now) :
    LeasingState.Timely ⟨store, Function.update s.queries index found⟩ := by
  intro index' query hquery
  change Function.update s.queries index found index' = some query at hquery
  by_cases heq : index' = index
  · subst heq
    rw [Function.update_self] at hquery
    exact hfound query hquery
  · rw [Function.update_of_ne heq] at hquery
    exact (h index' query hquery).trans hnow

theorem claim_now (store : KnowledgeJobStore) (query : LeaseQuery)
    (lockedJobs lockedTenants : List Uuid) :
    (store.claim limit query lockedJobs lockedTenants).now = store.now := by
  unfold claim
  split
  · rfl
  · rfl

theorem LeasingState.Timely.step (h : s.Timely)
    (hstep : (leasingMachine limit).step s a = some s') : s'.Timely := by
  cases a with
  | tick elapsed =>
    cases hstep
    intro index query hquery
    exact (h index query hquery).trans (by simp [asOf])
  | call a startedAt =>
    dsimp only at hstep
    split_ifs at hstep
    obtain ⟨store, -, rfl⟩ := map_eq_some_iff.1 hstep
    exact h
  | query index workerId leaseSeconds startedAt =>
    dsimp only at hstep
    split_ifs at hstep with hguard
    · cases hstep
      refine h.update le_rfl fun query hquery => ?_
      cases hquery
      exact hguard.1
    · cases hstep
      exact h
  | claim index lockedJobs lockedTenants =>
    obtain ⟨query, -, rfl⟩ := map_eq_some_iff.1 hstep
    exact h.update (claim_now _ _ _ _).ge nofun

theorem withinLimit_iff_of_adds {store store' : KnowledgeJobStore} {job : KnowledgeJobRow}
    {p : Prop} [Decidable p] (hs : WithinLimit limit store)
    (hadds : ∀ tenantId, store'.activeCount tenantId =
      store.activeCount tenantId + if job.tenantId = tenantId ∧ p then 1 else 0) :
    WithinLimit limit store' ↔ (p → store.activeCount job.tenantId < limit job.tenantId) := by
  constructor
  · intro hs' hp
    have hle := hs' job.tenantId
    rw [hadds, if_pos ⟨rfl, hp⟩] at hle
    exact hle
  · intro hslot tenantId
    rw [hadds]
    split_ifs with h
    · obtain ⟨rfl, hp⟩ := h
      exact hslot hp
    · exact hs tenantId

theorem lockCandidate_spec {query : LeaseQuery}
    {lockedJobs lockedTenants : List Uuid} {job : KnowledgeJobRow}
    (h : store.lockCandidate limit query lockedJobs lockedTenants = some job) :
    job ∈ store.jobs ∧ (query.view store).leasable limit job := by
  obtain ⟨row, hfirst, hget⟩ := bind_eq_some_iff.1 h
  have hguard := (Bool.and_eq_true_iff.1 (Table.first_eq_some hfirst).2).2
  rw [hget, any_some] at hguard
  exact ⟨Table.mem_of_get hget, hguard⟩

/-- A query that locks its rows before anything else happens is `lease_next` in one step. -/
theorem claim_uninterrupted {call : LeaseCall}
    (hvalid : LeaseCall.valid call) :
    store.claim limit ⟨call.workerId, call.leaseSeconds, store.now, store.jobs⟩ call.lockedJobs
        call.lockedTenants = store.after (store.leaseNext limit call) := by
  have hget : ∀ row ∈ store.jobs, store.jobs.get row.id = some row :=
    fun row hrow => Table.get_eq_some.2 ⟨hrow, rfl⟩
  have hsame : store.lockCandidate limit ⟨call.workerId, call.leaseSeconds, store.now, store.jobs⟩
      call.lockedJobs call.lockedTenants = store.candidate limit call := by
    have hfilter : (store.jobs.first leaseOrder fun row =>
        store.leasable limit row && !call.lockedJobs.contains row.id &&
          !call.lockedTenants.contains row.tenantId &&
          (store.jobs.get row.id).any (store.leasable limit)) = store.candidate limit call := by
      refine congrArg (fun rows => (sortBy leaseOrder rows).head?) (List.filter_congr ?_)
      intro row hrow
      rw [hget row hrow, any_some]
      cases store.leasable limit row <;> simp
    refine (congrArg (Option.bind · fun row => store.jobs.get row.id) hfilter).trans ?_
    cases hfound : store.candidate limit call with
    | none => rfl
    | some job => exact hget job (candidate_spec hfound).1
  unfold claim leaseNext
  rw [hsame, require_eq_ok.2 hvalid]
  dsimp only [bind, Except.bind]
  cases store.candidate limit call with
  | none | some => rfl

theorem withinLimit_claim_iff (htimely : s.Timely) (hs : WithinLimit limit s.store) {index : ℕ}
    {query : LeaseQuery} (hquery : s.queries index = some query)
    (lockedJobs lockedTenants : List Uuid) :
    WithinLimit limit (s.store.claim limit query lockedJobs lockedTenants) ↔
      LeasesWithin limit s (.claim index lockedJobs lockedTenants) := by
  unfold claim
  split
  · rename_i hnone
    refine iff_of_true hs fun query' job hquery' hfound => ?_
    obtain rfl := mem_unique hquery hquery'
    rw [hnone] at hfound
    cases hfound
  · rename_i job hfound
    obtain ⟨hmem, hleasable⟩ := lockCandidate_spec hfound
    have hadds : ∀ tenantId, (((s.store.asOf query.startedAt).grant job
        (query.call lockedJobs lockedTenants)).asOf s.store.now).activeCount tenantId =
          s.store.activeCount tenantId + if job.tenantId = tenantId ∧
            s.store.now < query.startedAt + seconds query.leaseSeconds then 1 else 0 :=
      fun tenantId => countP_grant (s := s.store.asOf query.startedAt) hmem
        (not_counts_of_leasable hleasable (htimely index query hquery))
    rw [withinLimit_iff_of_adds hs hadds]
    constructor
    · intro hslot query' job' hquery' hfound' _ hlive
      obtain rfl := mem_unique hquery hquery'
      obtain rfl := mem_unique hfound hfound'
      exact hslot hlive
    · intro hwithin hlive
      by_cases hmore :
          (query.view s.store).activeCount job.tenantId < s.store.activeCount job.tenantId
      · exact hwithin query job hquery hfound (.inr hmore) hlive
      · -- A queued job is within the limit if no more jobs run than the snapshot shows.
        rcases (leasable_iff.1 hleasable).2.2.2 with ⟨hrunning, -⟩ | ⟨-, hfree⟩
        · exact hwithin query job hquery hfound (.inl hrunning) hlive
        · exact (not_lt.1 hmore).trans_lt hfree

theorem withinLimit_call_iff (hs : WithinLimit limit s.store) {label : JobLabel} {startedAt : ℤ}
    (hcall : label.isCall = true)
    (hstep : (jobMachine limit).step (s.store.asOf startedAt) label = some store) :
    WithinLimit limit (store.asOf s.store.now) ↔ LeasesWithin limit s (.call label startedAt) := by
  by_cases hbeat : ∃ workerId update job, label = .heartbeat job.id workerId update ∧
      Beats (s.store.asOf startedAt) workerId update job ∧ job.expired s.store.now
  · obtain ⟨workerId, update, job, rfl, hbeats, hexpired⟩ := hbeat
    cases hstep
    have hadds : ∀ tenantId, (((s.store.asOf startedAt).after ((s.store.asOf startedAt).heartbeat
        job.id workerId update)).asOf s.store.now).activeCount tenantId =
          s.store.activeCount tenantId + if job.tenantId = tenantId ∧
            s.store.now < startedAt + seconds update.leaseSeconds then 1 else 0 :=
      fun tenantId => countP_beat hbeats (not_counts_of_expired hexpired)
    rw [withinLimit_iff_of_adds hs hadds]
    constructor
    · intro hslot job' hid hbeats' _ hlive
      obtain rfl := Table.eq_of_key hbeats.owned.mem hbeats'.owned.mem hid.symm
      exact hslot hlive
    · exact fun hwithin hlive => hwithin job rfl hbeats hexpired hlive
  · refine iff_of_true (fun tenantId => ?_) ?_
    · refine (countP_le_of_effect (step_effect hstep) hcall ?_).trans (hs tenantId)
      intro workerId update job hlabel hbeats hafter
      obtain ⟨htenant, -, -⟩ := counts_iff.1 hafter
      refine counts_iff.2 ⟨htenant, hbeats.owned.running, ?_⟩
      obtain ⟨t, ht, -⟩ := KnowledgeJobRow.unexpired_iff.1 hbeats.owned.unexpired
      refine KnowledgeJobRow.unexpired_iff.2 ⟨t, ht, lt_of_not_ge fun hle => ?_⟩
      exact hbeat
        ⟨workerId, update, job, hlabel, hbeats, KnowledgeJobRow.expired_iff.2 ⟨t, ht, hle⟩⟩
    · cases label with
      | heartbeat jobId workerId update =>
        rintro job rfl hbeats hexpired
        exact absurd ⟨workerId, update, job, rfl, hbeats, hexpired⟩ hbeat
      | _ => trivial

theorem withinLimit_step_iff (htimely : s.Timely) (hs : WithinLimit limit s.store)
    (hstep : (leasingMachine limit).step s a = some s') :
    WithinLimit limit s'.store ↔ LeasesWithin limit s a := by
  cases a with
  | tick elapsed =>
    cases hstep
    refine iff_of_true (fun tenantId => le_trans ?_ (hs tenantId)) trivial
    refine List.countP_mono_left fun job _ hcounts => ?_
    obtain ⟨htenant, hrunning, hunexpired⟩ := counts_iff.1 hcounts
    obtain ⟨t, ht, hlt⟩ := KnowledgeJobRow.unexpired_iff.1 hunexpired
    have hnow : s.store.now + elapsed < t := hlt
    exact counts_iff.2 ⟨htenant, hrunning, KnowledgeJobRow.unexpired_iff.2 ⟨t, ht, by omega⟩⟩
  | call label startedAt =>
    dsimp only at hstep
    split_ifs at hstep with hguard
    obtain ⟨store, hstore, rfl⟩ := map_eq_some_iff.1 hstep
    exact withinLimit_call_iff hs hguard.2 hstore
  | query index workerId leaseSeconds startedAt =>
    dsimp only at hstep
    split_ifs at hstep
    · cases hstep
      exact iff_of_true hs trivial
    · cases hstep
      exact iff_of_true hs trivial
  | claim index lockedJobs lockedTenants =>
    obtain ⟨query, hquery, rfl⟩ := map_eq_some_iff.1 hstep
    exact withinLimit_claim_iff htimely hs hquery lockedJobs lockedTenants

/-- In a run of the store every tenant is within its limit all the time just when every lease that
may go beyond the limit finds a slot free. -/
theorem concurrency_ceiling_iff (limit : Uuid → ℕ) (access : Spaces.Registry) (now : ℤ)
    {as : List LeasingLabel} {s : LeasingState}
    (hrun : (leasingMachine limit).exec (.initial access now) as = some s) :
    (∀ bs t, bs <+: as → (leasingMachine limit).exec (.initial access now) bs = some t →
      WithinLimit limit t.store) ↔
    (leasingMachine limit).Meets (LeasesWithin limit) (.initial access now) as :=
  ((leasingMachine limit).meets_iff_forall_reached_of (K := fun _ => True)
    (I := LeasingState.Timely) (P := fun s => WithinLimit limit s.store)
    (fun _ _ _ htimely _ hstep => htimely.step hstep)
    (fun _ _ _ htimely hs _ hstep => withinLimit_step_iff htimely hs hstep)
    (fun _ _ hquery => by cases hquery) (fun _ => Nat.zero_le _) (fun _ _ => trivial) hrun).symm

end

/-! ## Takeovers and overlapping queries -/

section

/-- A query of `lease_next` and, right after it, its commit. -/
def sampleClaim (index : ℕ) (workerId : String) (now : ℤ) : List LeasingLabel :=
  [.query index workerId 60 now, .claim index [] []]

def leasesWithinTest (limit : Uuid → ℕ) (s : LeasingState) : LeasingLabel → Bool
  | .call (.heartbeat ..) _ => false
  | .claim index lockedJobs lockedTenants => (s.queries index).all fun query =>
    (s.store.lockCandidate limit query lockedJobs lockedTenants).all fun job =>
      s.store.activeCount job.tenantId < limit job.tenantId
  | _ => true

theorem leasesWithin_of_test {limit : Uuid → ℕ} {s : LeasingState} {a : LeasingLabel}
    (h : leasesWithinTest limit s a = true) : LeasesWithin limit s a := by
  cases a with
  | call label startedAt =>
    cases label with
    | heartbeat => cases h
    | _ => trivial
  | claim index lockedJobs lockedTenants =>
    intro query job hquery hfound _ _
    simpa [leasesWithinTest, hquery, hfound] using h
  | _ => trivial

/-- With two slots: two queries of one snapshot lease both jobs, one of the leases runs out, and the
job is taken over. -/
def takeOverRun : List LeasingLabel :=
  [.call (sampleJob 1 0 3) 0, .call (sampleJob 2 0 3) 0, .query 0 "w1" 60 0, .query 1 "w2" 300 0,
    .claim 0 [] [], .claim 1 [] [], .tick 61000000] ++ sampleClaim 2 "w3" 61000000

theorem concurrency_ceiling_of_takeOver :
    ∃ s, (leasingMachine fun _ => 2).exec (.initial sampleAccess 0) takeOverRun = some s ∧
      s.store.leases.map (·.workerId) = ["w3", "w2", "w1"] ∧
      WithinLimit (fun _ => 2) s.store := by
  have hleases : ((leasingMachine fun _ => 2).exec (.initial sampleAccess 0) takeOverRun).map
      (fun s => s.store.leases.map (·.workerId)) = some ["w3", "w2", "w1"] := by decide +kernel
  obtain ⟨s, hs, hleases⟩ := map_eq_some_iff.1 hleases
  refine ⟨s, hs, hleases, (concurrency_ceiling_iff _ _ _ hs).2 ?_ _ s List.prefix_rfl hs⟩
  exact Machine.meets_of_meetsTest _ (fun _ _ => leasesWithin_of_test) (by decide +kernel)

/-- With a limit of one job: a lease runs out, its slot goes to another job, and then the first job
is taken over; and two queries of one snapshot lease one job each. -/
theorem take_over_exceeds_limit :
    (¬ ∀ (limit : Uuid → ℕ) (access : Spaces.Registry) (now : ℤ) (as : List LeasingLabel)
      (s : LeasingState), (leasingMachine limit).exec (.initial access now) as = some s →
      ∀ tenantId, s.store.activeCount tenantId ≤ limit tenantId) ∧
    ((leasingMachine fun _ => 1).exec (.initial sampleAccess 0)
      [.call (sampleJob 1 0 3) 0, .call (sampleJob 2 0 3) 0, .query 0 "w1" 60 0,
        .query 1 "w2" 60 0, .claim 0 [] [], .claim 1 [] []]).map
          (fun s => s.store.activeCount 1) = some 2 := by
  refine ⟨fun hclaim => ?_, by decide +kernel⟩
  have hcount : ((leasingMachine fun _ => 1).exec (.initial sampleAccess 0)
      ([.call (sampleJob 1 0 3) 0] ++ sampleClaim 0 "w1" 0 ++
        [.call (sampleJob 2 1 3) 0, .tick 61000000] ++ sampleClaim 1 "w2" 61000000 ++
        sampleClaim 2 "w3" 61000000)).map (fun s => s.store.activeCount 1) = some 2 := by
    decide +kernel
  obtain ⟨s, hs, hcount⟩ := map_eq_some_iff.1 hcount
  have hle := hclaim _ _ _ _ s hs 1
  omega

end

end Gadgetron.Jobs
