import Gadgetron.Servers.Jobs

/-!
# The ledger of jobs

The rows of `server_job_runs` against the jobs in memory. A start of a job takes a running row of
its target for left behind, and the task of a cancelled job may record over the cancellation.
-/

namespace Gadgetron.Servers.Jobs

open Lib Policy Option Function

namespace State

def Cancelling (s : State) (jobId : String) : Prop :=
  ∃ job, s.pending = some (.cancelling jobId job)

/-- The row of each running job is running or is its own outcome, and the row of each job that has
ended carries its status. -/
structure Agrees (s : State) : Prop where
  running : ∀ id job, s.jobs id = some job → job.status = .running →
    ∃ row, s.rows.get id = some row ∧ (row.status = .running ∨
      ∃ task outcome, s.tasks id = some task ∧ task.stage = .persisted outcome ∧
        row = task.run id outcome)
  ended : ∀ id job, s.jobs id = some job → job.status.isOpen = false → ¬ s.Cancelling id →
    ∃ row, s.rows.get id = some row ∧ row.status = job.status

end State

/-- No start takes the row of a job that runs in memory; and no task records its outcome when its
cancellation is recorded. -/
def NoClash (parseStr : String → Option Uuid) (s : State) : Label → Prop
  | .start request _ _ hit =>
    ∀ started, request.check parseStr = .ok started →
      ∀ id job, hit = some id → s.jobs id = some job → job.status ≠ .running
  | .persist jobId => s.aborted jobId = true → s.Cancelling jobId
  | _ => True

/-! ## The invariant -/

structure Inv (s : State) : Prop where
  dequeued : ∀ id job, s.jobs id = some job → job.status ≠ .queued
  held : ∀ id task, s.tasks id = some task →
    ∃ job, s.jobs id = some job ∧ (job.status = .running ∨ job.status = .cancelled)
  final : ∀ id task outcome, s.tasks id = some task →
    task.stage = .returned outcome ∨ task.stage = .persisted outcome →
      outcome.status.isOpen = false ∧ outcome.status ≠ .cancelled
  persisted : ∀ id task outcome job, s.tasks id = some task → task.stage = .persisted outcome →
    s.jobs id = some job → job.status = .running → s.rows.get id = some (task.run id outcome)
  reconciled : ∀ id at_ request, s.pending = some (.reconciled id at_ request) → s.jobs id = none
  recorded : ∀ id at_ request, s.pending = some (.recorded id at_ request) →
    s.jobs id = none ∧ ∃ row, s.rows.get id = some row ∧ row.status = .running
  cancelling : ∀ id job, s.pending = some (.cancelling id job) →
    s.jobs id = some job ∧ job.status = .cancelled

section

variable {parseStr : String → Option Uuid} {s s' : State} {id : String}

theorem isOpen_iff {status : JobStatus} :
    status.isOpen = true ↔ status = .queued ∨ status = .running := by
  cases status <;> decide

variable {job job' : RuntimeJobState}

theorem job_of_setJob {id' : String}
    (h : (s.setJob id job).jobs id' = some job') :
    id' = id ∧ job = job' ∨ id' ≠ id ∧ s.jobs id' = some job' := by
  change Function.update s.jobs id (some job) id' = some job' at h
  by_cases heq : id' = id
  · subst heq
    rw [update_self] at h
    exact .inl ⟨rfl, some.inj h⟩
  · rw [update_of_ne heq] at h
    exact .inr ⟨heq, h⟩

theorem task_of_setTask {id' : String} {task : Option Task} {task' : Task}
    (h : (s.setTask id task).tasks id' = some task') :
    id' = id ∧ task = some task' ∨ id' ≠ id ∧ s.tasks id' = some task' := by
  change Function.update s.tasks id task id' = some task' at h
  by_cases heq : id' = id
  · subst heq
    rw [update_self] at h
    exact .inl ⟨rfl, h⟩
  · rw [update_of_ne heq] at h
    exact .inr ⟨heq, h⟩

section

variable {rows rows' : JobRuns} {targetId now : String} {hit : Option String}

theorem get_reconcile (h : reconcileOrphanedJobRuns rows targetId now hit = some rows') :
    rows'.get id = (rows.get id).map fun row =>
      if some row.jobId = hit then row.orphaned now else row := by
  unfold reconcileOrphanedJobRuns at h
  split_ifs at h
  obtain rfl := some.inj h
  simpa only [decide_eq_true_eq] using
    Table.get_updateWhere (p := fun row : JobRun => some row.jobId = hit)

theorem get_reconcile_of_ne (h : reconcileOrphanedJobRuns rows targetId now hit = some rows')
    (hne : hit ≠ some id) : rows'.get id = rows.get id := by
  rw [get_reconcile h]
  cases hrow : rows.get id with
  | none => rfl
  | some row =>
    rw [map_some, if_neg]
    rw [Table.key_of_get hrow]
    exact Ne.symm hne

theorem get_reconcile_hit
    (h : reconcileOrphanedJobRuns rows targetId now (some id) = some rows') :
    ∃ row, rows.get id = some row ∧ row.status = .running ∧
      rows'.get id = some (row.orphaned now) := by
  have hcan : canHit rows targetId (some id) = true := by
    unfold reconcileOrphanedJobRuns at h
    split_ifs at h with hcan
    exact hcan
  obtain ⟨row, hrow, horphan⟩ := (Option.any_eq_true _ _).1 hcan
  refine ⟨row, hrow, of_decide_eq_true (Bool.and_eq_true_iff.1 horphan).2, ?_⟩
  rw [get_reconcile h, hrow, map_some, if_pos (congrArg some (Table.key_of_get hrow))]

end

inductive Effect (parseStr : String → Option Uuid) (s : State) : Label → State → Prop
  | refuse {request uuid now hit error} (h : request.check parseStr = .error error) :
      Effect parseStr s (.start request uuid now hit) s
  | start {request uuid now hit job rows} (id : String) (hidle : s.pending = none)
      (h : request.check parseStr = .ok job) (hnew : s.jobs id = none)
      (hrows : reconcileOrphanedJobRuns s.rows job.targetId now hit = some rows) :
      Effect parseStr s (.start request uuid now hit)
        { s with rows := rows, pending := some (.reconciled id now job) }
  | record {id startedAt job} (h : s.pending = some (.reconciled id startedAt job)) :
      Effect parseStr s .record
        { s with
          rows := s.rows.upsert (job.run id startedAt)
          pending := some (.recorded id startedAt job) }
  | spawn {id startedAt request} (job : RuntimeJobState) (task : Task)
      (h : s.pending = some (.recorded id startedAt request)) (hjob : job.status = .running)
      (htask : task.stage = .running) : Effect parseStr s .spawn
        { (s.setJob id job).setTask id (some task) with pending := none }
  | poll (id : String) : Effect parseStr s (.poll id) s
  | report {id reason} (h : ∀ job, s.jobs id = some job → job.status.isOpen = false) :
      Effect parseStr s (.cancel id reason) s
  | cancel {id reason job} (job' : RuntimeJobState) (hidle : s.pending = none)
      (h : s.jobs id = some job) (hopen : job.status.isOpen = true)
      (hcancelled : job'.status = .cancelled) : Effect parseStr s (.cancel id reason)
        { s.setJob id job' with pending := some (.cancelling id job') }
  | recordCancelled {now id job} (h : s.pending = some (.cancelling id job)) :
      Effect parseStr s (.recordCancelled now)
        { s with rows := s.rows.upsert (job.cancelledRun id now), pending := none }
  | finish {id result now} (task : Task) (outcome : Outcome) (h : s.tasks id = some task)
      (hstage : task.stage = .running) (hended : outcome.status.isOpen = false)
      (hkept : outcome.status ≠ .cancelled) : Effect parseStr s (.finish id result now)
        (s.setTask id (some { task with stage := .returned outcome }))
  | persist {id outcome} (task : Task) (h : s.tasks id = some task)
      (hstage : task.stage = .returned outcome) : Effect parseStr s (.persist id)
        { s.setTask id (some { task with stage := .persisted outcome }) with
          rows := s.rows.upsert (task.run id outcome) }
  | leave {id task outcome} (h : s.tasks id = some task) (hstage : task.stage = .persisted outcome)
      (hgone : ∀ job, s.jobs id = some job → job.status = .cancelled) :
      Effect parseStr s (.settle id) (s.setTask id none)
  | settle {id task outcome job} (job' : RuntimeJobState) (h : s.tasks id = some task)
      (hstage : task.stage = .persisted outcome) (hjob : s.jobs id = some job)
      (hkept : job.status ≠ .cancelled) (hstatus : job'.status = outcome.status) :
      Effect parseStr s (.settle id) ((s.setJob id job').setTask id none)
  | drop {id task job} (h : s.tasks id = some task) (hjob : s.jobs id = some job)
      (haborted : job.status = .cancelled) : Effect parseStr s (.drop id) (s.setTask id none)

variable {label : Label}

theorem effect_of_step (h : (runtime parseStr).step s label = some s') :
    Effect parseStr s label s' := by
  cases label with
  | start request uuid now hit =>
    dsimp only at h
    split_ifs at h with hidle
    split at h
    · rename_i error hcheck
      cases h
      exact .refuse hcheck
    · rename_i job hcheck
      split_ifs at h with hnew
      obtain ⟨rows, hrows, rfl⟩ := map_eq_some_iff.1 h
      rw [Bool.not_eq_true, isSome_eq_false_iff, isNone_iff_eq_none] at hidle hnew
      exact .start _ hidle hcheck hnew hrows
  | record =>
    dsimp only at h
    split at h
    · rename_i hpending
      cases h
      exact .record hpending
    · cases h
  | spawn =>
    dsimp only at h
    split at h
    · rename_i hpending
      cases h
      exact .spawn _ _ hpending rfl rfl
    · cases h
  | poll id =>
    dsimp only at h
    split_ifs at h
    cases h
    exact .poll id
  | cancel id reason =>
    dsimp only at h
    split_ifs at h with hidle
    rw [Bool.not_eq_true, isSome_eq_false_iff, isNone_iff_eq_none] at hidle
    cases h
    unfold State.cancel
    cases hjob : s.jobs id with
    | none =>
      refine .report fun job h => ?_
      rw [hjob] at h
      cases h
    | some job =>
      dsimp only
      split_ifs with hopen
      · exact .cancel _ hidle hjob hopen rfl
      · refine .report fun job' h => ?_
        rw [hjob] at h
        cases h
        exact Bool.eq_false_iff.2 hopen
  | recordCancelled now =>
    dsimp only at h
    split at h
    · rename_i hpending
      cases h
      exact .recordCancelled hpending
    · cases h
  | finish id result now =>
    dsimp only at h
    split at h
    · rename_i job startedAt htask
      cases h
      refine .finish ⟨job, startedAt, .running⟩ _ htask rfl ?_ ?_
      · cases result <;> rfl
      · cases result <;> nofun
    · cases h
  | persist id =>
    dsimp only at h
    split at h
    · rename_i job startedAt outcome htask
      cases h
      exact .persist ⟨job, startedAt, .returned outcome⟩ htask rfl
    · cases h
  | settle id =>
    dsimp only at h
    split at h
    · rename_i job startedAt outcome htask
      cases h
      unfold State.settle
      cases hjob : s.jobs id with
      | none =>
        refine .leave htask rfl fun job h => ?_
        rw [hjob] at h
        cases h
      | some job =>
        dsimp only
        split_ifs with hcancelled
        · refine .leave htask rfl fun job' h => ?_
          rw [hjob] at h
          cases h
          exact hcancelled
        · exact .settle _ htask rfl hjob hcancelled rfl
    · cases h
  | drop id =>
    dsimp only at h
    split_ifs at h with hcond
    cases h
    obtain ⟨task, htask⟩ := isSome_iff_exists.1 hcond.1
    obtain ⟨job, hjob, hcancelled⟩ := (Option.any_eq_true _ _).1 hcond.2
    exact .drop htask hjob (of_decide_eq_true hcancelled)

/-! ## What a step preserves -/

theorem inv_new (rows : JobRuns) : Inv (.new rows) where
  dequeued := fun _ _ h => by cases h
  held := fun _ _ h => by cases h
  final := fun _ _ _ h => by cases h
  persisted := fun _ _ _ _ h => by cases h
  reconciled := fun _ _ _ h => by cases h
  recorded := fun _ _ _ h => by cases h
  cancelling := fun _ _ h => by cases h

variable {now : String} {hit : Option String} {rows : JobRuns}

theorem Inv.start (hinv : Inv s) {job : JobRequest} (hnew : s.jobs id = none)
    (hrows : reconcileOrphanedJobRuns s.rows job.targetId now hit = some rows) :
    Inv { s with rows := rows, pending := some (.reconciled id now job) } where
  dequeued := hinv.dequeued
  held := hinv.held
  final := hinv.final
  persisted := by
    intro id' task outcome job' htask hstage hjob hrun
    have hown := hinv.persisted id' task outcome job' htask hstage hjob hrun
    refine (get_reconcile_of_ne hrows ?_).trans hown
    rintro rfl
    obtain ⟨row, hrow, hrunning, -⟩ := get_reconcile_hit hrows
    obtain rfl := mem_unique hown hrow
    have hended : (task.run id' outcome).status.isOpen = false :=
      (hinv.final id' task outcome htask (.inr hstage)).1
    rw [isOpen_iff.2 (.inr hrunning)] at hended
    cases hended
  reconciled := by
    intro id' at_ request heq
    cases heq
    exact hnew
  recorded := nofun
  cancelling := nofun

variable {startedAt : String}

theorem Inv.record (hinv : Inv s) {job : JobRequest} (hnew : s.jobs id = none) : Inv { s with
      rows := s.rows.upsert (job.run id startedAt)
      pending := some (.recorded id startedAt job) } where
  dequeued := hinv.dequeued
  held := hinv.held
  final := hinv.final
  persisted := by
    intro id' task outcome job' htask hstage hjob hrun
    refine (Table.get_upsert.trans (if_neg ?_)).trans
      (hinv.persisted id' task outcome job' htask hstage hjob hrun)
    rintro rfl
    exact absurd (hnew.symm.trans hjob) nofun
  reconciled := nofun
  recorded := by
    intro id' at_ request heq
    cases heq
    exact ⟨hnew, _, Table.get_upsert.trans (if_pos rfl), rfl⟩
  cancelling := nofun

variable {job : RuntimeJobState} {task : Task}

theorem Inv.spawn (hinv : Inv s) (hjob : job.status = .running) (htask : task.stage = .running) :
    Inv { (s.setJob id job).setTask id (some task) with pending := none } where
  dequeued := by
    intro id' job' h
    rcases job_of_setJob h with ⟨-, rfl⟩ | ⟨-, h⟩
    · rw [hjob]
      decide
    · exact hinv.dequeued id' job' h
  held := by
    intro id' task' h
    rcases task_of_setTask h with ⟨rfl, -⟩ | ⟨hne, h⟩
    · exact ⟨job, update_self _ _ _, .inl hjob⟩
    · obtain ⟨job', hjob', hstatus⟩ := hinv.held id' task' h
      exact ⟨job', (update_of_ne hne _ _).trans hjob', hstatus⟩
  final := by
    intro id' task' outcome h hstage
    rcases task_of_setTask h with ⟨-, heq⟩ | ⟨-, h⟩
    · cases heq
      rw [htask] at hstage
      rcases hstage with hstage | hstage <;> cases hstage
    · exact hinv.final id' task' outcome h hstage
  persisted := by
    intro id' task' outcome job' h hstage hjob' hrun
    rcases task_of_setTask h with ⟨-, heq⟩ | ⟨hne, h⟩
    · cases heq
      rw [htask] at hstage
      cases hstage
    · refine hinv.persisted id' task' outcome job' h hstage ?_ hrun
      exact (update_of_ne hne _ _).symm.trans hjob'
  reconciled := nofun
  recorded := nofun
  cancelling := nofun

theorem Inv.cancel (hinv : Inv s) (hcancelled : job.status = .cancelled) :
    Inv { s.setJob id job with pending := some (.cancelling id job) } where
  dequeued := by
    intro id' job' h
    rcases job_of_setJob h with ⟨-, rfl⟩ | ⟨-, h⟩
    · rw [hcancelled]
      decide
    · exact hinv.dequeued id' job' h
  held := by
    intro id' task h
    by_cases heq : id' = id
    · subst heq
      exact ⟨job, update_self _ _ _, .inr hcancelled⟩
    · obtain ⟨job', hjob, hstatus⟩ := hinv.held id' task h
      exact ⟨job', (update_of_ne heq _ _).trans hjob, hstatus⟩
  final := hinv.final
  persisted := by
    intro id' task outcome job' h hstage hjob hrun
    rcases job_of_setJob hjob with ⟨-, rfl⟩ | ⟨-, hjob⟩
    · rw [hcancelled] at hrun
      cases hrun
    · exact hinv.persisted id' task outcome job' h hstage hjob hrun
  reconciled := nofun
  recorded := nofun
  cancelling := by
    intro id' job' heq
    cases heq
    exact ⟨update_self _ _ _, hcancelled⟩

theorem Inv.recordCancelled (hinv : Inv s) (h : s.pending = some (.cancelling id job)) :
    Inv { s with rows := s.rows.upsert (job.cancelledRun id now), pending := none } where
  dequeued := hinv.dequeued
  held := hinv.held
  final := hinv.final
  persisted := by
    intro id' task outcome job' htask hstage hjob' hrun
    obtain ⟨hjob, hcancelled⟩ := hinv.cancelling _ _ h
    refine (Table.get_upsert.trans (if_neg ?_)).trans
      (hinv.persisted id' task outcome job' htask hstage hjob' hrun)
    rintro rfl
    obtain rfl := mem_unique hjob hjob'
    rw [hcancelled] at hrun
    cases hrun
  reconciled := nofun
  recorded := nofun
  cancelling := nofun

variable {outcome : Outcome}

theorem Inv.finish (hinv : Inv s) (h : s.tasks id = some task)
    (hended : outcome.status.isOpen = false) (hkept : outcome.status ≠ .cancelled) :
    Inv (s.setTask id (some { task with stage := .returned outcome })) where
  dequeued := hinv.dequeued
  held := by
    intro id' task' h'
    rcases task_of_setTask h' with ⟨rfl, -⟩ | ⟨-, h'⟩
    · exact hinv.held _ _ h
    · exact hinv.held id' task' h'
  final := by
    intro id' task' outcome' h' hstage
    rcases task_of_setTask h' with ⟨-, heq⟩ | ⟨-, h'⟩
    · cases heq
      rcases hstage with heq | heq
      · cases heq
        exact ⟨hended, hkept⟩
      · cases heq
    · exact hinv.final id' task' outcome' h' hstage
  persisted := by
    intro id' task' outcome' job h' hstage hjob hrun
    rcases task_of_setTask h' with ⟨-, heq⟩ | ⟨-, h'⟩
    · cases heq
      cases hstage
    · exact hinv.persisted id' task' outcome' job h' hstage hjob hrun
  reconciled := hinv.reconciled
  recorded := hinv.recorded
  cancelling := hinv.cancelling

theorem Inv.persist (hinv : Inv s) (h : s.tasks id = some task)
    (hstage : task.stage = .returned outcome) :
    Inv { s.setTask id (some { task with stage := .persisted outcome }) with
      rows := s.rows.upsert (task.run id outcome) } where
  dequeued := hinv.dequeued
  held := by
    intro id' task' h'
    rcases task_of_setTask h' with ⟨rfl, -⟩ | ⟨-, h'⟩
    · exact hinv.held _ _ h
    · exact hinv.held id' task' h'
  final := by
    intro id' task' outcome' h' hstage'
    rcases task_of_setTask h' with ⟨rfl, heq⟩ | ⟨-, h'⟩
    · cases heq
      rcases hstage' with heq | heq
      · cases heq
      · cases heq
        exact hinv.final _ _ _ h (.inl hstage)
    · exact hinv.final id' task' outcome' h' hstage'
  persisted := by
    intro id' task' outcome' job h' hstage' hjob hrun
    rcases task_of_setTask h' with ⟨rfl, heq⟩ | ⟨hne, h'⟩
    · cases heq
      cases hstage'
      exact Table.get_upsert.trans (if_pos rfl)
    · refine (Table.get_upsert.trans (if_neg ?_)).trans
        (hinv.persisted id' task' outcome' job h' hstage' hjob hrun)
      exact Ne.symm hne
  reconciled := hinv.reconciled
  recorded := by
    intro id' at_ request hp
    obtain ⟨hnew, row, hrow, hrunning⟩ := hinv.recorded id' at_ request hp
    refine ⟨hnew, row, (Table.get_upsert.trans (if_neg ?_)).trans hrow, hrunning⟩
    rintro rfl
    obtain ⟨job, hjob, -⟩ := hinv.held _ task h
    exact absurd (hnew.symm.trans hjob) nofun
  cancelling := hinv.cancelling

theorem Inv.leave (hinv : Inv s) (id : String) : Inv (s.setTask id none) where
  dequeued := hinv.dequeued
  held := by
    intro id' task h
    rcases task_of_setTask h with ⟨-, heq⟩ | ⟨-, h⟩
    · cases heq
    · exact hinv.held id' task h
  final := by
    intro id' task outcome h hstage
    rcases task_of_setTask h with ⟨-, heq⟩ | ⟨-, h⟩
    · cases heq
    · exact hinv.final id' task outcome h hstage
  persisted := by
    intro id' task outcome job h hstage hjob hrun
    rcases task_of_setTask h with ⟨-, heq⟩ | ⟨-, h⟩
    · cases heq
    · exact hinv.persisted id' task outcome job h hstage hjob hrun
  reconciled := hinv.reconciled
  recorded := hinv.recorded
  cancelling := hinv.cancelling

theorem Inv.settle (hinv : Inv s)
    (h : s.tasks id = some task) (hstage : task.stage = .persisted outcome)
    (hjob : s.jobs id = some job) (hkept : job.status ≠ .cancelled)
    (hstatus : job'.status = outcome.status) : Inv ((s.setJob id job').setTask id none) where
  dequeued := by
    intro id' job₁ h'
    rcases job_of_setJob h' with ⟨-, rfl⟩ | ⟨-, h'⟩
    · rw [hstatus]
      intro hqueued
      have hended := (hinv.final id task outcome h (.inr hstage)).1
      rw [hqueued] at hended
      cases hended
    · exact hinv.dequeued id' job₁ h'
  held := by
    intro id' task' h'
    rcases task_of_setTask h' with ⟨-, heq⟩ | ⟨hne, h'⟩
    · cases heq
    · obtain ⟨job₁, hjob₁, hstatus₁⟩ := hinv.held id' task' h'
      exact ⟨job₁, (update_of_ne hne _ _).trans hjob₁, hstatus₁⟩
  final := by
    intro id' task' outcome' h' hstage'
    rcases task_of_setTask h' with ⟨-, heq⟩ | ⟨-, h'⟩
    · cases heq
    · exact hinv.final id' task' outcome' h' hstage'
  persisted := by
    intro id' task' outcome' job₁ h' hstage' hjob₁ hrun
    rcases task_of_setTask h' with ⟨-, heq⟩ | ⟨hne, h'⟩
    · cases heq
    · refine hinv.persisted id' task' outcome' job₁ h' hstage' ?_ hrun
      exact (update_of_ne hne _ _).symm.trans hjob₁
  reconciled := by
    intro id' at_ request hp
    refine (update_of_ne ?_ _ _).trans (hinv.reconciled id' at_ request hp)
    rintro rfl
    exact absurd ((hinv.reconciled _ at_ request hp).symm.trans hjob) nofun
  recorded := by
    intro id' at_ request hp
    obtain ⟨hnew, hrow⟩ := hinv.recorded id' at_ request hp
    refine ⟨(update_of_ne ?_ _ _).trans hnew, hrow⟩
    rintro rfl
    exact absurd (hnew.symm.trans hjob) nofun
  cancelling := by
    intro id' job₁ hp
    obtain ⟨hjob₁, hcancelled⟩ := hinv.cancelling id' job₁ hp
    refine ⟨(update_of_ne ?_ _ _).trans hjob₁, hcancelled⟩
    rintro rfl
    obtain rfl := mem_unique hjob hjob₁
    exact hkept hcancelled

theorem Inv.effect (hinv : Inv s) (heffect : Effect parseStr s label s') : Inv s' := by
  cases heffect with
  | refuse | poll | report => exact hinv
  | start id _ _ hnew hrows => exact hinv.start hnew hrows
  | record h => exact hinv.record (hinv.reconciled _ _ _ h)
  | spawn job task _ hjob htask => exact hinv.spawn hjob htask
  | cancel job' _ _ _ hcancelled => exact hinv.cancel hcancelled
  | recordCancelled h => exact hinv.recordCancelled h
  | finish task outcome h _ hended hkept => exact hinv.finish h hended hkept
  | persist task h hstage => exact hinv.persist h hstage
  | leave | drop => exact hinv.leave _
  | settle job' h hstage hjob hkept hstatus => exact hinv.settle h hstage hjob hkept hstatus

/-! ## What a step does to the agreement -/

theorem agrees_new (rows : JobRuns) : (State.new rows).Agrees where
  running := fun _ _ h => by cases h
  ended := fun _ _ h => by cases h

theorem agrees_start_iff (hinv : Inv s) (hagrees : s.Agrees) {started : JobRequest}
    (hidle : s.pending = none)
    (hrows : reconcileOrphanedJobRuns s.rows started.targetId now hit = some rows) :
    State.Agrees { s with rows := rows, pending := some (.reconciled id now started) } ↔
      ∀ id job, hit = some id → s.jobs id = some job → job.status ≠ .running := by
  constructor
  · rintro hagrees' id' job rfl hjob hrun
    obtain ⟨row, hrow, hrunning, hhit⟩ := get_reconcile_hit hrows
    obtain ⟨row', hrow', hcases⟩ := hagrees'.running id' job hjob hrun
    obtain rfl := mem_unique hhit hrow'
    rcases hcases with hstill | ⟨task, outcome, htask, hstage, -⟩
    · cases hstill
    · have hown := hinv.persisted id' task outcome job htask hstage hjob hrun
      have hended : (task.run id' outcome).status.isOpen = false :=
        (hinv.final id' task outcome htask (.inr hstage)).1
      obtain rfl := mem_unique hrow hown
      rw [isOpen_iff.2 (.inr hrunning)] at hended
      cases hended
  · intro hclear
    refine ⟨fun id' job hjob hrun => ?_, fun id' job hjob hended hnot => ?_⟩
    · obtain ⟨row, hrow, hcases⟩ := hagrees.running id' job hjob hrun
      refine ⟨row, (get_reconcile_of_ne hrows fun heq => ?_).trans hrow, hcases⟩
      exact hclear id' job heq hjob hrun
    · obtain ⟨row, hrow, hstatus⟩ := hagrees.ended id' job hjob hended (by
        rintro ⟨job', hp⟩
        rw [hidle] at hp
        cases hp)
      refine ⟨row, (get_reconcile_of_ne hrows ?_).trans hrow, hstatus⟩
      rintro rfl
      obtain ⟨row', hrow', hrunning, -⟩ := get_reconcile_hit hrows
      obtain rfl := mem_unique hrow hrow'
      rw [← hstatus, isOpen_iff.2 (.inr hrunning)] at hended
      cases hended

theorem agrees_persist_iff (hinv : Inv s) (hagrees : s.Agrees)
    (h : s.tasks id = some task) (hstage : task.stage = .returned outcome) :
    State.Agrees { s.setTask id (some { task with stage := .persisted outcome }) with
        rows := s.rows.upsert (task.run id outcome) } ↔
      (s.aborted id = true → s.Cancelling id) := by
  have hget : ∀ id', (s.rows.upsert (task.run id outcome)).get id' =
      if id = id' then some (task.run id outcome) else s.rows.get id' := fun _ => Table.get_upsert
  constructor
  · intro hagrees' haborted
    obtain ⟨job, hjob, hcancelled⟩ := (Option.any_eq_true _ _).1 haborted
    rw [decide_eq_true_eq] at hcancelled
    by_contra hnot
    obtain ⟨row, hrow, hstatus⟩ := hagrees'.ended id job hjob (by rw [hcancelled]; rfl) hnot
    obtain rfl := some.inj (((hget id).trans (if_pos rfl)).symm.trans hrow)
    exact (hinv.final id task outcome h (.inl hstage)).2 (hstatus.trans hcancelled)
  · intro hcancelling
    refine ⟨fun id' job hjob hrun => ?_, fun id' job hjob hended hnot => ?_⟩
    · by_cases heq : id = id'
      · subst heq
        exact ⟨_, (hget id).trans (if_pos rfl), .inr ⟨_, outcome, update_self _ _ _, rfl, rfl⟩⟩
      · obtain ⟨row, hrow, hcases⟩ := hagrees.running id' job hjob hrun
        refine ⟨row, ((hget id').trans (if_neg heq)).trans hrow, hcases.imp_right ?_⟩
        rintro ⟨task', outcome', htask, hstage', rfl⟩
        exact ⟨task', outcome', (update_of_ne (Ne.symm heq) _ _).trans htask, hstage', rfl⟩
    · by_cases heq : id = id'
      · subst heq
        obtain ⟨job', hjob', hrun | hcancelled⟩ := hinv.held id task h
        · obtain rfl := mem_unique hjob hjob'
          rw [isOpen_iff.2 (.inr hrun)] at hended
          cases hended
        · refine absurd (hcancelling ?_) hnot
          rw [State.aborted, hjob', any_some, decide_eq_true_eq]
          exact hcancelled
      · obtain ⟨row, hrow, hstatus⟩ := hagrees.ended id' job hjob hended hnot
        exact ⟨row, ((hget id').trans (if_neg heq)).trans hrow, hstatus⟩

variable {request : JobRequest}

theorem agrees_record (hagrees : s.Agrees)
    (h : s.pending = some (.reconciled id startedAt request)) (hnew : s.jobs id = none) :
    State.Agrees { s with
      rows := s.rows.upsert (request.run id startedAt)
      pending := some (.recorded id startedAt request) } := by
  have hget : ∀ id' job row, s.jobs id' = some job → s.rows.get id' = some row →
      (s.rows.upsert (request.run id startedAt)).get id' = some row := by
    intro id' job row hjob hrow
    refine (Table.get_upsert.trans (if_neg ?_)).trans hrow
    rintro rfl
    exact absurd (hnew.symm.trans hjob) nofun
  refine ⟨fun id' job hjob hrun => ?_, fun id' job hjob hended _ => ?_⟩
  · obtain ⟨row, hrow, hcases⟩ := hagrees.running id' job hjob hrun
    exact ⟨row, hget id' job row hjob hrow, hcases⟩
  · obtain ⟨row, hrow, hstatus⟩ := hagrees.ended id' job hjob hended (by
      rintro ⟨job', hp⟩
      rw [h] at hp
      cases hp)
    exact ⟨row, hget id' job row hjob hrow, hstatus⟩

theorem agrees_spawn (hinv : Inv s) (hagrees : s.Agrees)
    (h : s.pending = some (.recorded id startedAt request)) (hjob : job.status = .running) :
    State.Agrees { (s.setJob id job).setTask id (some task) with pending := none } := by
  refine ⟨fun id' job' hjob' hrun => ?_, fun id' job' hjob' hended _ => ?_⟩
  · rcases job_of_setJob hjob' with ⟨rfl, rfl⟩ | ⟨hne, hjob'⟩
    · obtain ⟨-, row, hrow, hrunning⟩ := hinv.recorded _ _ _ h
      exact ⟨row, hrow, .inl hrunning⟩
    · obtain ⟨row, hrow, hcases⟩ := hagrees.running id' job' hjob' hrun
      refine ⟨row, hrow, hcases.imp_right ?_⟩
      rintro ⟨task', outcome, htask, hstage, rfl⟩
      exact ⟨task', outcome, (update_of_ne hne _ _).trans htask, hstage, rfl⟩
  · rcases job_of_setJob hjob' with ⟨rfl, rfl⟩ | ⟨hne, hjob'⟩
    · rw [isOpen_iff.2 (.inr hjob)] at hended
      cases hended
    · refine hagrees.ended id' job' hjob' hended ?_
      rintro ⟨job₁, hp⟩
      rw [h] at hp
      cases hp

theorem agrees_cancel (hagrees : s.Agrees) (hidle : s.pending = none)
    (hcancelled : job.status = .cancelled) :
    State.Agrees { s.setJob id job with pending := some (.cancelling id job) } := by
  refine ⟨fun id' job' hjob' hrun => ?_, fun id' job' hjob' hended hnot => ?_⟩
  · rcases job_of_setJob hjob' with ⟨rfl, rfl⟩ | ⟨-, hjob'⟩
    · rw [hcancelled] at hrun
      cases hrun
    · exact hagrees.running id' job' hjob' hrun
  · rcases job_of_setJob hjob' with ⟨rfl, rfl⟩ | ⟨-, hjob'⟩
    · exact absurd ⟨job, rfl⟩ hnot
    · refine hagrees.ended id' job' hjob' hended ?_
      rintro ⟨job₁, hp⟩
      rw [hidle] at hp
      cases hp

theorem agrees_recordCancelled (hinv : Inv s) (hagrees : s.Agrees)
    (h : s.pending = some (.cancelling id job)) :
    State.Agrees { s with rows := s.rows.upsert (job.cancelledRun id now), pending := none } := by
  obtain ⟨hjob, hcancelled⟩ := hinv.cancelling _ _ h
  have hget : ∀ id', (s.rows.upsert (job.cancelledRun id now)).get id' =
      if id = id' then some (job.cancelledRun id now) else s.rows.get id' :=
    fun _ => Table.get_upsert
  refine ⟨fun id' job' hjob' hrun => ?_, fun id' job' hjob' hended _ => ?_⟩
  · have hne : id ≠ id' := by
      rintro rfl
      obtain rfl := mem_unique hjob hjob'
      rw [hcancelled] at hrun
      cases hrun
    obtain ⟨row, hrow, hcases⟩ := hagrees.running id' job' hjob' hrun
    exact ⟨row, ((hget id').trans (if_neg hne)).trans hrow, hcases⟩
  · by_cases heq : id = id'
    · subst heq
      obtain rfl := mem_unique hjob hjob'
      exact ⟨_, (hget id).trans (if_pos rfl), hcancelled.symm⟩
    · obtain ⟨row, hrow, hstatus⟩ := hagrees.ended id' job' hjob' hended (by
        rintro ⟨job₁, hp⟩
        rw [h] at hp
        cases hp
        exact heq rfl)
      exact ⟨row, ((hget id').trans (if_neg heq)).trans hrow, hstatus⟩

theorem agrees_setTask (hagrees : s.Agrees) (h : s.tasks id = some task)
    (task' : Option Task) (hfree : (∀ outcome, task.stage ≠ .persisted outcome) ∨
      ∀ job, s.jobs id = some job → job.status = .cancelled) : (s.setTask id task').Agrees := by
  refine ⟨fun id' job hjob hrun => ?_, hagrees.ended⟩
  obtain ⟨row, hrow, hrunning | ⟨task₁, outcome, htask, hstage, rfl⟩⟩ :=
    hagrees.running id' job hjob hrun
  · exact ⟨row, hrow, .inl hrunning⟩
  · refine ⟨_, hrow, .inr ⟨task₁, outcome, (update_of_ne ?_ _ _).trans htask, hstage, rfl⟩⟩
    rintro rfl
    obtain rfl := mem_unique h htask
    rcases hfree with hnot | hcancelled
    · exact hnot outcome hstage
    · rw [hcancelled job hjob] at hrun
      cases hrun

theorem agrees_settle (hinv : Inv s) (hagrees : s.Agrees) (h : s.tasks id = some task)
    (hstage : task.stage = .persisted outcome) (hjob : s.jobs id = some job)
    (hkept : job.status ≠ .cancelled) (hstatus : job'.status = outcome.status) :
    ((s.setJob id job').setTask id none).Agrees := by
  have hended := (hinv.final id task outcome h (.inr hstage)).1
  refine ⟨fun id' job₁ hjob₁ hrun => ?_, fun id' job₁ hjob₁ hended₁ hnot => ?_⟩
  · rcases job_of_setJob hjob₁ with ⟨rfl, rfl⟩ | ⟨hne, hjob₁⟩
    · rw [← hstatus, isOpen_iff.2 (.inr hrun)] at hended
      cases hended
    · obtain ⟨row, hrow, hcases⟩ := hagrees.running id' job₁ hjob₁ hrun
      refine ⟨row, hrow, hcases.imp_right ?_⟩
      rintro ⟨task', outcome', htask, hstage', rfl⟩
      exact ⟨task', outcome', (update_of_ne hne _ _).trans htask, hstage', rfl⟩
  · rcases job_of_setJob hjob₁ with ⟨rfl, rfl⟩ | ⟨-, hjob₁⟩
    · obtain ⟨job₂, hjob₂, hopen⟩ := hinv.held _ task h
      obtain rfl := mem_unique hjob hjob₂
      exact ⟨_, hinv.persisted _ task outcome job h hstage hjob (hopen.resolve_right hkept),
        hstatus.symm⟩
    · exact hagrees.ended id' job₁ hjob₁ hended₁ hnot

theorem agrees_effect_iff (hinv : Inv s) (hagrees : s.Agrees)
    (heffect : Effect parseStr s label s') : s'.Agrees ↔ NoClash parseStr s label := by
  cases heffect with
  | refuse hrefused =>
    refine iff_of_true hagrees fun started hcheck => ?_
    rw [hrefused] at hcheck
    cases hcheck
  | start id hidle hcheck _ hrows =>
    refine (agrees_start_iff hinv hagrees hidle hrows).trans
      ⟨fun h started hstarted => ?_, fun h => ?_⟩
    · obtain rfl := Except.ok.inj (hcheck.symm.trans hstarted)
      exact h
    · exact h _ hcheck
  | record h => exact iff_of_true (agrees_record hagrees h (hinv.reconciled _ _ _ h)) trivial
  | spawn job task h hjob _ => exact iff_of_true (agrees_spawn hinv hagrees h hjob) trivial
  | poll | report => exact iff_of_true hagrees trivial
  | cancel job' hidle _ _ hcancelled =>
    exact iff_of_true (agrees_cancel hagrees hidle hcancelled) trivial
  | recordCancelled h => exact iff_of_true (agrees_recordCancelled hinv hagrees h) trivial
  | finish task outcome h hstage _ _ =>
    refine iff_of_true (agrees_setTask hagrees h _ (.inl fun outcome' h' => ?_)) trivial
    rw [hstage] at h'
    cases h'
  | persist task h hstage => exact agrees_persist_iff hinv hagrees h hstage
  | leave h _ hgone => exact iff_of_true (agrees_setTask hagrees h _ (.inr hgone)) trivial
  | settle job' h hstage hjob hkept hstatus =>
    exact iff_of_true (agrees_settle hinv hagrees h hstage hjob hkept hstatus) trivial
  | drop h hjob haborted =>
    refine iff_of_true (agrees_setTask hagrees h _ (.inr fun job' hjob' => ?_)) trivial
    obtain rfl := mem_unique hjob hjob'
    exact haborted

theorem ended_effect (hinv : Inv s)
    (hjob : s.jobs id = some job) (hended : job.status.isOpen = false)
    (heffect : Effect parseStr s label s') :
    ∃ job', s'.jobs id = some job' ∧ job'.status = job.status := by
  have hset : ∀ id' (job' : RuntimeJobState), (id = id' → job'.status = job.status) →
      ∃ job₁, (s.setJob id' job').jobs id = some job₁ ∧ job₁.status = job.status := by
    intro id' job' hsame
    by_cases heq : id = id'
    · subst heq
      exact ⟨job', update_self _ _ _, hsame rfl⟩
    · exact ⟨job, (update_of_ne heq _ _).trans hjob, rfl⟩
  cases heffect with
  | spawn job' task h hrunning _ =>
    refine hset _ job' ?_
    rintro rfl
    exact absurd ((hinv.recorded _ _ _ h).1.symm.trans hjob) nofun
  | cancel job' _ h hopen _ =>
    refine hset _ job' ?_
    rintro rfl
    obtain rfl := mem_unique h hjob
    rw [hended] at hopen
    cases hopen
  | settle job' h _ hjob' hkept _ =>
    refine hset _ job' ?_
    rintro rfl
    obtain ⟨job₁, hjob₁, hopen⟩ := hinv.held _ _ h
    obtain rfl := mem_unique hjob' hjob₁
    obtain rfl := mem_unique hjob' hjob
    rw [isOpen_iff.2 (.inr (hopen.resolve_right hkept))] at hended
    cases hended
  | _ => exact ⟨job, hjob, rfl⟩

end

/-! ## Runs -/

section

variable {parseStr : String → Option Uuid} {s s' : State} {labels labels' : List Label}

theorem inv_exec (hinv : Inv s) (hrun : (runtime parseStr).exec s labels = some s') : Inv s' :=
  (runtime parseStr).invariant_of_meets (C := fun _ _ => True)
    (fun _ _ _ hinv _ hstep => hinv.effect (effect_of_step hstep)) hinv
    ((runtime parseStr).meets_true labels s) hrun

theorem poll_exec (hinv : Inv s) {id : String} {report : JobStatus × Json × Option Json}
    (hpoll : s.poll id = .ok report) (hended : report.1.isOpen = false)
    (hrun : (runtime parseStr).exec s labels = some s') :
    ∃ report', s'.poll id = .ok report' ∧ report'.1 = report.1 := by
  have hjob : ∀ {s : State} {report}, s.poll id = .ok report →
      ∃ job, s.jobs id = some job ∧ job.status = report.1 := by
    intro s report h
    unfold State.poll at h
    split at h
    · cases h
    · rename_i job hjob
      cases h
      exact ⟨job, hjob, rfl⟩
  obtain ⟨job, hsome, hstatus⟩ := hjob hpoll
  rw [← hstatus] at hended
  have hkeeps := (runtime parseStr).invariant_of_meets (C := fun _ _ => True)
    (I := fun s => Inv s ∧ ∃ job', s.jobs id = some job' ∧ job'.status = job.status)
    (by
      rintro s₁ label s₂ ⟨hinv₁, job₁, hjob₁, hstatus₁⟩ - hstep
      have heffect := effect_of_step hstep
      obtain ⟨job₂, hjob₂, hstatus₂⟩ := ended_effect hinv₁ hjob₁ (hstatus₁ ▸ hended) heffect
      exact ⟨hinv₁.effect heffect, job₂, hjob₂, hstatus₂.trans hstatus₁⟩)
    ⟨hinv, job, hsome, rfl⟩ ((runtime parseStr).meets_true labels s) hrun
  obtain ⟨-, job', hjob', hstatus'⟩ := hkeeps
  refine ⟨(job'.status, job'.progress, job'.result), ?_, hstatus'.trans hstatus⟩
  unfold State.poll
  rw [hjob']

/-- Rows and memory agree in all states of a run just when no start takes the row of a running job
and no outcome is recorded over a cancellation; a job reported as ended is never reported
otherwise. -/
theorem ledger_agrees_iff {rows : JobRuns}
    (hrun : (runtime parseStr).exec (.new rows) labels = some s) :
    ((runtime parseStr).Meets (NoClash parseStr) (.new rows) labels ↔
        ∀ labels' s', labels' <+: labels →
          (runtime parseStr).exec (.new rows) labels' = some s' → s'.Agrees) ∧
      ∀ labels' s' id report, labels' <+: labels →
        (runtime parseStr).exec (.new rows) labels' = some s' → s'.poll id = .ok report →
          report.1.isOpen = false → ∃ report', s.poll id = .ok report' ∧ report'.1 = report.1 := by
  refine ⟨?_, ?_⟩
  · exact (runtime parseStr).meets_iff_forall_reached_of (K := fun _ => True) (I := Inv)
      (fun _ _ _ hinv _ hstep => hinv.effect (effect_of_step hstep))
      (fun _ _ _ hinv hagrees _ hstep => agrees_effect_iff hinv hagrees (effect_of_step hstep))
      (inv_new rows) (agrees_new rows) (fun _ _ => trivial) hrun
  · rintro labels' s' id report ⟨rest, rfl⟩ hrun' hpoll hended
    obtain ⟨s₁, hrun₁, hrest⟩ := (runtime parseStr).exec_append_eq_some.1 hrun
    obtain rfl := mem_unique hrun' hrun₁
    exact poll_exec (inv_exec (inv_new rows) hrun') hpoll hended hrest

end

/-! ## Two jobs for one target -/

def sampleStart (uuid : String) (hit : Option String) : List Label :=
  [.start ⟨"server-duty-cycle", .object [("target_id", .string "web-1")], "alice", some "lease"⟩
      uuid "t0" hit,
    .record, .spawn]

/-- Two rows that another process has left running. -/
def staleRows : JobRuns :=
  let request : JobRequest := ⟨.dutyCycle, "web-1", "alice"⟩
  (Table.empty.upsert (request.run "old-1" "t0")).upsert (request.run "old-2" "t0")

/-- Each start takes one of the two rows, and the first job's outcome is recorded. -/
def sampleDone : List Label :=
  sampleStart "1" (some "old-2") ++ sampleStart "2" (some "old-1") ++
    [.finish "server-duty-cycle-1" (.ok .null) "t1",
      .persist "server-duty-cycle-1", .settle "server-duty-cycle-1"]

def sampleTest (s : State) : Label → Bool
  | .start _ _ _ hit => (hit.bind s.jobs).isNone
  | .persist id => !s.aborted id
  | _ => true

theorem sample_agrees : ∃ s, (runtime fun _ => none).exec (.new staleRows) sampleDone = some s ∧
    ∀ labels' s', labels' <+: sampleDone →
      (runtime fun _ => none).exec (.new staleRows) labels' = some s' → s'.Agrees := by
  have htest : (runtime fun _ => none).meetsTest sampleTest (.new staleRows) sampleDone := by
    decide +kernel
  have hmeets : (runtime fun _ => none).Meets (NoClash fun _ => none) (.new staleRows)
      sampleDone := by
    refine Machine.meets_of_meetsTest _ (fun s label h => ?_) htest
    cases label with
    | start request uuid now hit =>
      rintro started _ id job rfl hjob _
      rw [sampleTest, bind_some, hjob] at h
      cases h
    | persist id =>
      intro haborted
      rw [sampleTest, haborted] at h
      cases h
    | _ => trivial
  obtain ⟨s, hs⟩ : ∃ s, (runtime fun _ => none).exec (.new staleRows) sampleDone = some s :=
    isSome_iff_exists.1 (by decide +kernel)
  exact ⟨s, hs, (ledger_agrees_iff hs).1.1 hmeets⟩

def TaskStage.isPersisted : TaskStage → Bool
  | .persisted _ => true
  | _ => false

/-- A second start for the target takes the row of the first job, which runs, for left behind. -/
theorem not_agrees_of_second_start : ¬ ∀ (labels : List Label) (s : State),
      (runtime fun _ => none).exec (.new .empty) labels = some s → s.Agrees := by
  intro h
  have hrun : ((runtime fun _ => none).exec (.new .empty)
      (sampleStart "1" none ++ sampleStart "2" (some "server-duty-cycle-1"))).map (fun s =>
        ((s.jobs "server-duty-cycle-1").map (·.status),
        (s.rows.get "server-duty-cycle-1").map (·.status),
        (s.tasks "server-duty-cycle-1").map (·.stage.isPersisted))) =
        some (some .running, some .failed, some false) := by
    decide +kernel
  obtain ⟨s, hs, heq⟩ := map_eq_some_iff.1 hrun
  obtain ⟨hjob, heq⟩ := Prod.mk.inj heq
  obtain ⟨hrow, htask⟩ := Prod.mk.inj heq
  obtain ⟨job, hjob, hrunning⟩ := map_eq_some_iff.1 hjob
  obtain ⟨row, hrow', hcases⟩ := (h _ s hs).running _ job hjob hrunning
  rw [hrow', map_some, some.injEq] at hrow
  rcases hcases with hstill | ⟨task, outcome, htask', hstage, -⟩
  · rw [hrow] at hstill
    cases hstill
  · rw [htask', map_some, hstage] at htask
    cases htask

end Gadgetron.Servers.Jobs
