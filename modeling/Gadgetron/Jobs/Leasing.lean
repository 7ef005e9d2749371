import Gadgetron.Jobs.Slots

/-!
# Jobs whose worker is gone

When a job whose lease has expired can still be settled.
-/

namespace Gadgetron.Jobs

open Lib KnowledgeJobStore

variable {limit : Uuid → ℕ} {s s' : KnowledgeJobStore} {a : JobLabel} {job job' : KnowledgeJobRow}
  {tenantId : Uuid}

variable {call : LeaseCall}

theorem activeCount_grant (hjob : job ∈ s.jobs) (hleasable : s.leasable limit job)
    (hvalid : LeaseCall.valid call) :
    (s.grant job call).activeCount tenantId =
      s.activeCount tenantId + if job.tenantId = tenantId then 1 else 0 := by
  have hgrant : (s.grant job call).jobs.rows.countP (counts s.now tenantId) = _ :=
    countP_grant hjob (not_counts_of_leasable hleasable le_rfl)
  simp only [LeaseCall.valid, Bool.and_eq_true, decide_eq_true_eq] at hvalid
  have hlater : s.now < s.now + seconds call.leaseSeconds := by
    unfold seconds
    omega
  simp only [hlater, and_true] at hgrant
  exact hgrant

/-! ## Jobs whose lease has expired -/

/-- The job is settled, and its idempotency key can be used again. -/
def Settled (s : KnowledgeJobStore) (job : KnowledgeJobRow) : Prop :=
  (∃ job' ∈ s.jobs, job'.id = job.id ∧ job'.terminal) ∧
    s.activeJob job.tenantId job.idempotencyKey = none

/-- A call that a worker makes to take jobs over and complete them. -/
def WorkerCall (workerId : String) (jobId : Uuid) (a : JobLabel) : Prop :=
  (∃ call, a = .leaseNext call ∧ call.workerId = workerId) ∨
    ∃ usedTokens usedSources, a = .complete jobId workerId usedTokens usedSources

/-- The job runs, but no lease on it is valid and none will be granted. -/
def Stuck (jobId : Uuid) (s : KnowledgeJobStore) : Prop :=
  ∃ job ∈ s.jobs, job.id = jobId ∧ job.status = .running ∧ job.expired s.now ∧
    (job.cancelRequestedAt ≠ none ∨ job.maxAttempts ≤ job.attempt)

theorem not_owned_of_expired (hexpired : job.expired s.now) (workerId : String) :
    ¬ s.Owned job workerId := by
  intro howned
  obtain ⟨t, ht, hlt⟩ := KnowledgeJobRow.unexpired_iff.1 howned.unexpired
  obtain ⟨t', ht', hle⟩ := KnowledgeJobRow.expired_iff.1 hexpired
  obtain rfl := Option.mem_unique ht ht'
  omega

theorem Stuck.step {jobId : Uuid} (h : Stuck jobId s) (heffect : Effect limit s a s') :
    Stuck jobId s' := by
  obtain ⟨job, hjob, rfl, hrunning, hexpired, hstuck⟩ := h
  obtain ⟨job', hjob', hchange⟩ := heffect.rows.stays job hjob
  obtain ⟨t, ht, hle⟩ := KnowledgeJobRow.expired_iff.1 hexpired
  have hexpired' : ∃ t, job.leaseExpiresAt = some t ∧ t ≤ s'.now :=
    ⟨t, ht, hle.trans heffect.now_le⟩
  refine ⟨job', hjob', hchange.fixed.1, ?_⟩
  cases hchange with
  | same => exact ⟨hrunning, KnowledgeJobRow.expired_iff.2 hexpired', hstuck⟩
  | cancel hactive =>
    refine ⟨?_, KnowledgeJobRow.expired_iff.2 hexpired', .inl ?_⟩
    · simp [KnowledgeJobRow.cancel, hrunning]
    · cases hrequested : job.cancelRequestedAt <;> simp [KnowledgeJobRow.cancel, hrequested]
  | retry _ _ _ hsettled => simp [hrunning] at hsettled
  | lease call hleasable =>
    obtain ⟨hcancel, hbudget, -⟩ := leasable_iff.1 hleasable
    rcases hstuck with h | h
    · exact absurd hcancel h
    · omega
  | beat workerId _ howned | finish workerId _ howned =>
    exact absurd howned (not_owned_of_expired hexpired workerId)

theorem Stuck.exec {jobId : Uuid} (h : Stuck jobId s) {as : List JobLabel} {t : KnowledgeJobStore}
    (hrun : (jobMachine limit).exec s as = some t) : Stuck jobId t :=
  Machine.invariant _ (fun _ _ _ hs hstep => hs.step (step_effect hstep)) h hrun

theorem Stuck.not_settled (h : Stuck job.id s) : ¬ Settled s job := by
  rintro ⟨⟨job', hjob', hid, hterminal⟩, -⟩
  obtain ⟨found, hfound, hfid, hrunning, -⟩ := h
  obtain rfl := Table.eq_of_key hfound hjob' (hfid.trans hid.symm)
  simp [KnowledgeJobRow.terminal, KnowledgeJobRow.active, hrunning] at hterminal

/-! ## Taking a job over -/

/-- How many jobs a worker could be given. -/
def leasableCount (limit : Uuid → ℕ) (s : KnowledgeJobStore) : ℕ :=
  s.jobs.rows.countP (s.leasable limit)

section

variable (hjob : job ∈ s.jobs) (hleasable : s.leasable limit job) (hvalid : LeaseCall.valid call)
include hjob hleasable hvalid

theorem leasable_of_grant (h : (s.grant job call).leasable limit job') : s.leasable limit job' := by
  rw [leasable_iff] at h ⊢
  refine ⟨h.1, h.2.1, h.2.2.1, h.2.2.2.imp_right fun ⟨hqueued, hslot⟩ => ⟨hqueued, ?_⟩⟩
  rw [activeCount_grant hjob hleasable hvalid] at hslot
  omega

theorem leasableCount_grant_lt :
    leasableCount limit (s.grant job call) < leasableCount limit s := by
  have hput := Table.countP_put hjob
    (r := job.lease s.now call.workerId call.leaseSeconds) rfl (s.leasable limit)
  have hleased : ¬ s.leasable limit (job.lease s.now call.workerId call.leaseSeconds) := by
    intro h
    rcases (leasable_iff.1 h).2.2.2 with ⟨-, hexpired⟩ | ⟨hqueued, -⟩
    · obtain ⟨t, ht, hle⟩ := KnowledgeJobRow.expired_iff.1 hexpired
      obtain rfl := Option.some.inj ht
      simp only [LeaseCall.valid, Bool.and_eq_true, decide_eq_true_eq] at hvalid
      unfold seconds at hle
      omega
    · cases hqueued
  rw [if_pos hleasable, if_neg hleased] at hput
  have hmono : leasableCount limit (s.grant job call) ≤
      (s.grant job call).jobs.rows.countP (s.leasable limit) :=
    List.countP_mono_left fun x _ hx => leasable_of_grant hjob hleasable hvalid hx
  have hrows : (s.grant job call).jobs.rows.countP (s.leasable limit) + 1 =
    s.jobs.rows.countP (s.leasable limit) := hput
  unfold leasableCount at hmono ⊢
  omega

end

structure Within (limit : Uuid → ℕ) (job : KnowledgeJobRow) (workerId : String)
    (s : KnowledgeJobStore) : Prop where
  sound : s.Sound
  row : ∃ row ∈ s.jobs, row.id = job.id ∧ row.tenantId = job.tenantId ∧
    row.idempotencyKey = job.idempotencyKey ∧ row.cancelRequestedAt = none ∧
    (s.leasable limit row ∧ row.status = .running ∧ row.expired s.now ∨ s.Owned row workerId)

def Taken (job : KnowledgeJobRow) (workerId : String) (s : KnowledgeJobStore) : Prop :=
  ∃ row, row.id = job.id ∧ s.Owned row workerId

theorem Within.exists_lease {workerId : String} (hworker : isShort 128 workerId)
    (h : Within limit job workerId s) (hfree : ¬ Taken job workerId s) :
    ∃ s', (jobMachine limit).step s (.leaseNext ⟨workerId, 60, [], []⟩) = some s' ∧
      Within limit job workerId s' ∧ leasableCount limit s' < leasableCount limit s := by
  obtain ⟨row, hrow, hid, htenant, hkey, hcancel, ⟨hleasable, hrunning, hexpired⟩ | howned⟩ := h.row
  · have hvalid : LeaseCall.valid ⟨workerId, 60, [], []⟩ := by
      simp [LeaseCall.valid, hworker]
    obtain ⟨x, hx⟩ : ∃ x, s.candidate limit ⟨workerId, 60, [], []⟩ = some x := by
      rw [← Option.ne_none_iff_exists']
      intro hnone
      have := Table.first_eq_none.1 hnone row hrow
      simp [hleasable] at this
    obtain ⟨hxmem, hxleasable⟩ := candidate_spec hx
    have hstep : (jobMachine limit).step s (.leaseNext ⟨workerId, 60, [], []⟩) =
        some (s.grant x ⟨workerId, 60, [], []⟩) := by
      show some (s.after (s.leaseNext limit _)) = _
      rw [leaseNext, require_eq_ok.2 hvalid]
      simp only [bind, Except.bind, hx]
      rfl
    refine ⟨_, hstep, ⟨h.sound.step (step_effect hstep), ?_⟩,
      leasableCount_grant_lt hxmem hxleasable hvalid⟩
    have hput := fun y => Table.mem_put hxmem (r := x.lease s.now workerId 60) rfl (x := y)
    by_cases hxid : row.id = x.id
    · obtain rfl := Table.eq_of_key hrow hxmem hxid
      refine ⟨_, (hput _).2 (.inl rfl), hid, htenant, hkey, hcancel, .inr ?_⟩
      refine ⟨(hput _).2 (.inl rfl), rfl, rfl, KnowledgeJobRow.unexpired_iff.2 ⟨_, rfl, ?_⟩⟩
      show s.now < s.now + seconds 60
      unfold seconds
      omega
    · refine ⟨row, (hput row).2 (.inr ⟨hrow, hxid⟩), hid, htenant, hkey, hcancel, .inl ?_⟩
      obtain ⟨-, hbudget, hdue, -⟩ := leasable_iff.1 hleasable
      exact ⟨leasable_iff.2 ⟨hcancel, hbudget, hdue, .inl ⟨hrunning, hexpired⟩⟩, hrunning, hexpired⟩
  · exact absurd ⟨row, hid, howned⟩ hfree

theorem Within.exists_complete {workerId : String} (h : Within limit job workerId s)
    (htaken : Taken job workerId s) :
    ∃ s', (jobMachine limit).step s (.complete job.id workerId 0 0) = some s' ∧ Settled s' job := by
  obtain ⟨row, hid, howned⟩ := htaken
  have hrow := howned.mem
  obtain ⟨row', hrow', hid', htenant, hkey, hcancel, -⟩ := h.row
  obtain rfl := Table.eq_of_key hrow hrow' (hid.trans hid'.symm)
  have hjob : s.ownedRunningJob job.id workerId = .ok row := ownedRunningJob_eq_ok.2 ⟨howned, hid⟩
  refine ⟨_, rfl, ?_⟩
  rw [complete, terminalTransition, hjob]
  have hput := fun y => Table.mem_put hrow (x := y)
    (r := row.finish s.now ⟨.succeeded, none, 0, 0, false⟩) rfl
  refine ⟨⟨_, (hput _).2 (.inl rfl), hid, ?_⟩, ?_⟩
  · simp [KnowledgeJobRow.terminal, KnowledgeJobRow.active, KnowledgeJobRow.finish, hcancel]
  · refine activeJob_eq_none.2 fun y hy hactive hytenant hykey => ?_
    rcases (hput y).1 hy with rfl | ⟨hmem, hne⟩
    · simp [KnowledgeJobRow.active, KnowledgeJobRow.finish, hcancel] at hactive
    · have hrowActive : row.active := by simp [KnowledgeJobRow.active, howned.running]
      obtain rfl := h.sound.only_active y hmem row hrow hactive hrowActive
        (hytenant.trans htenant.symm) (hykey.trans hkey.symm)
      exact hne rfl

/-- In every state of the store a job whose lease has expired can be settled, by any worker alone,
just when no one has asked to cancel it and it has attempts left. -/
theorem stranded_job_settles_iff (limit : Uuid → ℕ) (access : Spaces.Registry) (now : ℤ)
    {as : List JobLabel} {s : KnowledgeJobStore}
    (hrun : (jobMachine limit).exec (initial access now) as = some s) {job : KnowledgeJobRow}
    (hjob : job ∈ s.jobs) (hrunning : job.status = .running) (hexpired : job.expired s.now) :
    ((∃ bs t, (jobMachine limit).exec s bs = some t ∧ Settled t job) ↔
      job.cancelRequestedAt = none ∧ job.attempt < job.maxAttempts) ∧
    (job.cancelRequestedAt = none ∧ job.attempt < job.maxAttempts →
      ∀ workerId, isShort 128 workerId → ∃ bs t, (∀ b ∈ bs, WorkerCall workerId job.id b) ∧
        (jobMachine limit).exec s bs = some t ∧ Settled t job) := by
  have hs : s.Sound := (sound_initial access now).exec hrun
  have hsettles : job.cancelRequestedAt = none ∧ job.attempt < job.maxAttempts →
      ∀ workerId, isShort 128 workerId → ∃ bs t, (∀ b ∈ bs, WorkerCall workerId job.id b) ∧
        (jobMachine limit).exec s bs = some t ∧ Settled t job := by
    rintro ⟨hcancel, hbudget⟩ workerId hworker
    have hwithin : Within limit job workerId s :=
      { sound := hs
        row := ⟨job, hjob, rfl, rfl, rfl, hcancel, .inl ⟨leasable_iff.2 ⟨hcancel, hbudget,
          (hs.rows job hjob).scheduled hrunning, .inl ⟨hrunning, hexpired⟩⟩, hrunning, hexpired⟩⟩ }
    obtain ⟨bs, t, hown, hbs, ht, htaken⟩ := (jobMachine limit).exists_exec_of_rank
      (Within limit job workerId) (Taken job workerId) (WorkerCall workerId job.id)
      (leasableCount limit)
      (fun s₁ hs₁ hfree => by
        obtain ⟨s₂, hstep, hs₂, hlt⟩ := hs₁.exists_lease hworker hfree
        refine ⟨[.leaseNext ⟨workerId, 60, [], []⟩], s₂, ?_,
          (Machine.exec_cons_eq_some _).2 ⟨s₂, hstep, rfl⟩, hs₂, hlt⟩
        intro b hb
        rw [List.mem_singleton.1 hb]
        exact .inl ⟨_, rfl, rfl⟩) hwithin
    obtain ⟨u, hstep, hsettled⟩ := ht.exists_complete htaken
    refine ⟨bs ++ [.complete job.id workerId 0 0], u, ?_, (Machine.exec_append_eq_some _).2
      ⟨t, hbs, (Machine.exec_cons_eq_some _).2 ⟨u, hstep, rfl⟩⟩, hsettled⟩
    intro b hb
    rcases List.mem_append.1 hb with hb | hb
    · exact hown b hb
    · rw [List.mem_singleton.1 hb]
      exact .inr ⟨0, 0, rfl⟩
  refine ⟨⟨?_, fun h => ?_⟩, hsettles⟩
  · rintro ⟨bs, t, hbs, hsettled⟩
    by_contra hno
    have hstuck : Stuck job.id s := by
      refine ⟨job, hjob, rfl, hrunning, hexpired, ?_⟩
      by_cases hcancel : job.cancelRequestedAt = none
      · exact .inr (Nat.le_of_not_lt fun hlt => hno ⟨hcancel, hlt⟩)
      · exact .inl hcancel
    exact (hstuck.exec hbs).not_settled hsettled
  · obtain ⟨bs, t, -, hbs, hsettled⟩ := hsettles h "w" (by decide +kernel)
    exact ⟨bs, t, hbs, hsettled⟩

def expiredRun (maxAttempts : ℕ) : List JobLabel :=
  [sampleJob 1 0 maxAttempts, sampleLease "w1", .tick 61000000]

theorem exec_expiredRun {maxAttempts : ℕ} (h : maxAttempts = 1 ∨ maxAttempts = 3) :
    ∃ s, (jobMachine fun _ => 4).exec (initial sampleAccess 0) (expiredRun maxAttempts) = some s ∧
      ∃ job ∈ s.jobs, job.status = .running ∧ job.expired s.now ∧
        job.cancelRequestedAt = none ∧ job.attempt = 1 ∧ job.maxAttempts = maxAttempts := by
  rcases h with rfl | rfl <;> decide +kernel

theorem stranded_job_settles_of_attempts_left :
    ∃ s, (jobMachine fun _ => 4).exec (initial sampleAccess 0) (expiredRun 3) = some s ∧
      ∃ job ∈ s.jobs, ∃ bs t, (jobMachine fun _ => 4).exec s bs = some t ∧ Settled t job := by
  obtain ⟨s, hs, job, hjob, hrunning, hexpired, hcancel, hattempt, hmax⟩ :=
    exec_expiredRun (.inr rfl)
  refine ⟨s, hs, job, hjob, (stranded_job_settles_iff _ _ _ hs hjob hrunning hexpired).1.2 ?_⟩
  exact ⟨hcancel, by omega⟩

/-- The lease of a job with a single attempt runs out; nothing settles the job any more. -/
theorem stranded_job_stuck :
    ∃ s, (jobMachine fun _ => 4).exec (initial sampleAccess 0) (expiredRun 1) = some s ∧
      ∃ job ∈ s.jobs, job.status = .running ∧ job.expired s.now ∧
        ¬ ∃ bs t, (jobMachine fun _ => 4).exec s bs = some t ∧
          ∃ job' ∈ t.jobs, job'.id = job.id ∧ job'.terminal := by
  obtain ⟨s, hs, job, hjob, hrunning, hexpired, hcancel, hattempt, hmax⟩ :=
    exec_expiredRun (.inl rfl)
  refine ⟨s, hs, job, hjob, hrunning, hexpired, ?_⟩
  rintro ⟨bs, t, hbs, job', hjob', hid, hterminal⟩
  have hstuck : Stuck job.id s := ⟨job, hjob, rfl, hrunning, hexpired, .inr (by omega)⟩
  obtain ⟨found, hfound, hfid, hstill, -⟩ := hstuck.exec hbs
  obtain rfl := Table.eq_of_key hfound hjob' (hfid.trans hid.symm)
  simp [KnowledgeJobRow.terminal, KnowledgeJobRow.active, hstill] at hterminal

end Gadgetron.Jobs
