import Gadgetron.Autonomy.Effect
import Gadgetron.Lib.Activity

/-!
# Leases of autonomous goals

A goal runs just when it has a lease, and just when one of its runs is running; no run leaves a
terminal status.
-/

namespace Gadgetron.Autonomy

open Lib AutonomyStore Option

variable {parse : String → Option Uuid} {digest : List String → String} {s s' t : AutonomyStore}
  {a : AutonomyLabel} {lease : AutonomyLease}

def AutonomyStore.activity (s : AutonomyStore) : Activity Uuid Uuid where
  busy := {id | ∃ goal ∈ s.goals, goal.id = id ∧ goal.status = .running}
  active := {p | ∃ run ∈ s.runs, run.id = p.1 ∧ run.goalId = p.2 ∧ run.status = .running}

def LeaseColumns (goal : AutonomyGoalRow) : Prop :=
  (goal.status = .running ↔ goal.leaseOwner.isSome) ∧
    (goal.status = .running ↔ goal.leaseExpiresAt.isSome)

/-- A lease that was given out is of a goal and a run of it. -/
structure Granted (s : AutonomyStore) (lease : AutonomyLease) : Prop where
  goal : ∃ goal ∈ s.goals, goal.id = lease.goal.id ∧ goal.tenantId = lease.goal.tenantId
  run : ∃ run ∈ s.runs, run.id = lease.run.id ∧ run.goalId = lease.goal.id ∧
    run.tenantId = lease.goal.tenantId

structure Sound (s : AutonomyStore) : Prop where
  matched : s.activity.Matched
  columns : ∀ goal ∈ s.goals, LeaseColumns goal
  runGoal : ∀ run ∈ s.runs, ∃ goal ∈ s.goals, goal.id = run.goalId ∧ goal.tenantId = run.tenantId
  granted : ∀ lease ∈ s.granted, Granted s lease

/-! ### The columns -/

theorem finishStatuses_ne_running (disposition : RunDisposition) (goal : AutonomyGoalRow) :
    (finishStatuses disposition goal).1 ≠ .running ∧
      (finishStatuses disposition goal).2 ≠ .running := by
  unfold finishStatuses
  cases disposition <;> dsimp only <;> split_ifs <;> simp

theorem eventStatuses_ne_running (terminal : EventRunTerminal) (goal : AutonomyGoalRow) :
    (eventStatuses terminal goal).1 ≠ .running ∧ (eventStatuses terminal goal).2.1 ≠ .running := by
  unfold eventStatuses
  cases terminal with
  | providerFailure =>
    dsimp only
    split_ifs <;> simp
  | _ => simp

theorem syncStatus_running (state : ContextState) (current : GoalStatus) :
    AutonomyGoalRow.syncStatus (desiredStatus state) current = .running ↔ current = .running := by
  unfold AutonomyGoalRow.syncStatus desiredStatus
  split_ifs with hrunning <;> simp_all

variable {goal : AutonomyGoalRow}

theorem LeaseColumns.of_stopped (hstatus : goal.status ≠ .running)
    (howner : goal.leaseOwner = none) (hexpires : goal.leaseExpiresAt = none) :
    LeaseColumns goal := by
  simp [LeaseColumns, hstatus, howner, hexpires]

theorem LeaseColumns.change {goal goal' : AutonomyGoalRow} (h : LeaseColumns goal)
    (hchange : GoalChange parse s a s' goal goal') : LeaseColumns goal' := by
  cases hchange with
  | same | pin => exact h
  | sync input context =>
    have hstatus := syncStatus_running context.state goal.status
    exact ⟨hstatus.trans h.1, hstatus.trans h.2⟩
  | retire => exact .of_stopped (by simp [AutonomyGoalRow.retire]) rfl rfl
  | recover =>
    refine .of_stopped ?_ rfl rfl
    unfold AutonomyGoalRow.recover
    dsimp only
    split_ifs <;> simp
  | lease call => simp [LeaseColumns, AutonomyGoalRow.lease]
  | beat leaseSeconds checkpoint hrunning =>
    exact ⟨h.1, by simp [AutonomyGoalRow.beat, hrunning]⟩
  | finish disposition => exact .of_stopped (finishStatuses_ne_running disposition goal).2 rfl rfl
  | finishEvent terminal => exact .of_stopped (eventStatuses_ne_running terminal goal).2 rfl rfl
  | resume actor expectedRevision hlabel hstopped =>
    have hidle : goal.status ≠ .running := by rcases hstopped with h | h <;> simp [h]
    refine .of_stopped (by simp [AutonomyGoalRow.resume]) ?_ ?_
    · exact not_isSome_iff_eq_none.1 fun hsome => hidle (h.1.2 hsome)
    · exact not_isSome_iff_eq_none.1 fun hsome => hidle (h.2.2 hsome)

theorem Fresh.not_running (h : Fresh goal) : goal.status ≠ .running := by
  rcases h.status with hstatus | hstatus <;> simp [hstatus]

/-! ### The activity -/

variable {f : AutonomyGoalRow → AutonomyGoalRow}

theorem busy_updateWhere {p : AutonomyGoalRow → Bool}
    (hgoals : ∃ hf, s'.goals = s.goals.updateWhere p f hf)
    (hstatus : ∀ goal ∈ s.goals, p goal → ((f goal).status = .running ↔ goal.status = .running)) :
    s'.activity.busy = s.activity.busy := by
  obtain ⟨hf, hgoals⟩ := hgoals
  ext id
  constructor
  · rintro ⟨goal', hgoal', hid, hrunning⟩
    rw [hgoals] at hgoal'
    obtain ⟨goal, hgoal, rfl⟩ := Table.mem_updateWhere.1 hgoal'
    refine ⟨goal, hgoal, ?_⟩
    split_ifs at hid hrunning with hp
    · exact ⟨(hf goal).symm.trans hid, (hstatus goal hgoal hp).1 hrunning⟩
    · exact ⟨hid, hrunning⟩
  · rintro ⟨goal, hgoal, hid, hrunning⟩
    refine ⟨if p goal then f goal else goal, ?_, ?_⟩
    · rw [hgoals]
      exact Table.mem_updateWhere.2 ⟨goal, hgoal, rfl⟩
    · split_ifs with hp
      · exact ⟨(hf goal).trans hid, (hstatus goal hgoal hp).2 hrunning⟩
      · exact ⟨hid, hrunning⟩

variable {p : AutonomyRunRow → Bool}

theorem active_updateWhere {f : AutonomyRunRow → AutonomyRunRow}
    (hruns : ∃ hf, s'.runs = s.runs.updateWhere p f hf)
    (hsame : ∀ run, (f run).goalId = run.goalId ∧ (f run).status = run.status) :
    s'.activity.active = s.activity.active := by
  obtain ⟨hf, hruns⟩ := hruns
  have hkeeps : ∀ run, (if p run then f run else run).id = run.id ∧
      (if p run then f run else run).goalId = run.goalId ∧
      (if p run then f run else run).status = run.status := by
    intro run
    split_ifs
    · exact ⟨hf run, hsame run⟩
    · exact ⟨rfl, rfl, rfl⟩
  ext ⟨runId, goalId⟩
  constructor
  · rintro ⟨run', hrun', hid, hgoal, hrunning⟩
    rw [hruns] at hrun'
    obtain ⟨run, hrun, rfl⟩ := Table.mem_updateWhere.1 hrun'
    obtain ⟨hid', hgoal', hstatus⟩ := hkeeps run
    exact ⟨run, hrun, hid'.symm.trans hid, hgoal'.symm.trans hgoal, hstatus.symm.trans hrunning⟩
  · rintro ⟨run, hrun, hid, hgoal, hrunning⟩
    obtain ⟨hid', hgoal', hstatus⟩ := hkeeps run
    refine ⟨if p run then f run else run, ?_, hid'.trans hid, hgoal'.trans hgoal,
      hstatus.trans hrunning⟩
    rw [hruns]
    exact Table.mem_updateWhere.2 ⟨run, hrun, rfl⟩

theorem busy_stop (hgoal : goal ∈ s.goals)
    (hgoals : ∃ hf, s'.goals = s.goals.updateWhere (fun row => row.id = goal.id) f hf)
    (hstopped : (f goal).status ≠ .running) : s'.activity.busy = s.activity.busy \ {goal.id} := by
  obtain ⟨hf, hgoals⟩ := hgoals
  ext id
  constructor
  · rintro ⟨x', hx', rfl, hrunning⟩
    rw [hgoals] at hx'
    obtain ⟨x, hx, rfl⟩ := Table.mem_updateWhere.1 hx'
    by_cases hid : x.id = goal.id
    · obtain rfl := Table.eq_of_key hx hgoal hid
      simp only [decide_true, if_true] at hrunning
      exact absurd hrunning hstopped
    · simp only [hid, decide_false, Bool.false_eq_true, if_false] at hrunning ⊢
      exact ⟨⟨x, hx, rfl, hrunning⟩, hid⟩
  · rintro ⟨⟨x, hx, rfl, hrunning⟩, hne⟩
    refine ⟨x, ?_, rfl, hrunning⟩
    rw [hgoals]
    refine Table.mem_updateWhere.2 ⟨x, hx, if_neg ?_⟩
    simpa using hne

theorem active_stop {goalId : Uuid} {f : AutonomyRunRow → AutonomyRunRow}
    (hruns : ∃ hf, s'.runs = s.runs.updateWhere p f hf)
    (hp : ∀ run ∈ s.runs, p run → run.goalId = goalId)
    (hall : ∀ run ∈ s.runs, run.goalId = goalId → run.status = .running → p run)
    (hstopped : ∀ run, (f run).status ≠ .running) :
    s'.activity.active = {x ∈ s.activity.active | x.2 ≠ goalId} := by
  obtain ⟨hf, hruns⟩ := hruns
  ext ⟨runId, id⟩
  constructor
  · rintro ⟨run', hrun', hid, hgoal, hrunning⟩
    rw [hruns] at hrun'
    obtain ⟨run, hrun, rfl⟩ := Table.mem_updateWhere.1 hrun'
    split_ifs at hid hgoal hrunning with hpr
    · exact absurd hrunning (hstopped run)
    · refine ⟨⟨run, hrun, hid, hgoal, hrunning⟩, fun hsame => hpr ?_⟩
      exact hall run hrun (hgoal.trans hsame) hrunning
  · rintro ⟨⟨run, hrun, hid, hgoal, hrunning⟩, hne⟩
    refine ⟨run, ?_, hid, hgoal, hrunning⟩
    rw [hruns]
    exact Table.mem_updateWhere.2 ⟨run, hrun, if_neg fun hpr => hne (hgoal ▸ hp run hrun hpr)⟩

theorem busy_start (hgoal : goal ∈ s.goals) (hidle : goal.status ≠ .running)
    (hgoals : ∃ hf, s'.goals = s.goals.updateWhere (fun row => row.id = goal.id) f hf)
    (hstarted : (f goal).status = .running) :
    s'.activity.busy = insert goal.id s.activity.busy := by
  obtain ⟨hf, hgoals⟩ := hgoals
  ext id
  constructor
  · rintro ⟨x', hx', rfl, hrunning⟩
    rw [hgoals] at hx'
    obtain ⟨x, hx, rfl⟩ := Table.mem_updateWhere.1 hx'
    by_cases hid : x.id = goal.id
    · simp only [hid, decide_true, if_true]
      exact .inl ((hf x).trans hid)
    · simp only [hid, decide_false, Bool.false_eq_true, if_false] at hrunning ⊢
      exact .inr ⟨x, hx, rfl, hrunning⟩
  · rintro (rfl | ⟨x, hx, rfl, hrunning⟩)
    · refine ⟨f goal, ?_, hf goal, hstarted⟩
      rw [hgoals]
      exact Table.mem_updateWhere.2 ⟨goal, hgoal, by simp⟩
    · refine ⟨x, ?_, rfl, hrunning⟩
      rw [hgoals]
      refine Table.mem_updateWhere.2 ⟨x, hx, if_neg ?_⟩
      simp only [decide_eq_true_eq]
      intro hid
      obtain rfl := Table.eq_of_key hx hgoal hid
      exact hidle hrunning

variable {run : AutonomyRunRow}

theorem active_start {goalId : Uuid} {runs : Table AutonomyRunRow.id}
    (hinserted : s.runs.insert run = some runs) (hruns : s'.runs = runs)
    (hgoal : run.goalId = goalId) (hrunning : run.status = .running) :
    s'.activity.active = insert (run.id, goalId) s.activity.active := by
  have hmem := fun x => Table.mem_insert hinserted (x := x)
  ext ⟨runId, id⟩
  constructor
  · rintro ⟨x, hx, rfl, rfl, hstatus⟩
    rw [hruns] at hx
    rcases (hmem x).1 hx with hx | rfl
    · exact .inr ⟨x, hx, rfl, rfl, hstatus⟩
    · exact .inl (Prod.ext rfl hgoal)
  · rintro (heq | ⟨x, hx, hid, hgoalId, hstatus⟩)
    · obtain ⟨rfl, rfl⟩ := Prod.mk.inj heq
      exact ⟨run, hruns ▸ (hmem run).2 (.inr rfl), rfl, hgoal, hrunning⟩
    · exact ⟨x, hruns ▸ (hmem x).2 (.inl hx), hid, hgoalId, hstatus⟩

theorem not_busy (hgoal : goal ∈ s.goals)
    (hidle : goal.status ≠ .running) : goal.id ∉ s.activity.busy := by
  rintro ⟨x, hx, hid, hrunning⟩
  obtain rfl := Table.eq_of_key hx hgoal hid
  exact hidle hrunning

theorem Sound.tenant_eq (h : Sound s)
    (hgoal : goal ∈ s.goals) (hrun : run ∈ s.runs) (hid : run.goalId = goal.id) :
    run.tenantId = goal.tenantId := by
  obtain ⟨found, hfound, hfid, htenant⟩ := h.runGoal run hrun
  obtain rfl := Table.eq_of_key hfound hgoal (hfid.trans hid)
  exact htenant.symm

theorem Sound.run_eq (h : Sound s) {run run' : AutonomyRunRow} (hrun : run ∈ s.runs)
    (hrun' : run' ∈ s.runs) (hactive : run.status = .running) (hactive' : run'.status = .running)
    (hgoal : run.goalId = run'.goalId) : run = run' := by
  have hid := h.matched.unique run.id run'.id run.goalId ⟨run, hrun, rfl, rfl, hactive⟩
    ⟨run', hrun', rfl, hgoal.symm, hactive'⟩
  exact Table.eq_of_key hrun hrun' hid

variable {workerId : String}

theorem Sound.isActiveRun (h : Sound s) {runId : Uuid} (howned : OwnedRun s goal runId workerId) :
    ∀ run ∈ s.runs, run.goalId = goal.id → run.status = .running → isActiveRun goal runId run := by
  obtain ⟨active, hactive, hgoal, hid, hstatus⟩ := howned.run
  intro run hrun hrunGoal hrunning
  obtain rfl := h.run_eq hrun hactive hrunning hstatus (hrunGoal.trans hgoal.symm)
  simp [AutonomyStore.isActiveRun, h.tenant_eq howned.mem hrun hrunGoal, hrunGoal, hid, hrunning]

theorem activity_eq {x : Activity Uuid Uuid} (hbusy : s'.activity.busy = x.busy)
    (hactive : s'.activity.active = x.active) : s'.activity = x := by
  cases x
  simp only at hbusy hactive
  rw [← hbusy, ← hactive]

theorem Effect.activity (h : Effect parse s a s') (hs : Sound s) : s.activity.Step s'.activity := by
  have hcalm : s'.activity.busy = s.activity.busy → s'.activity.active = s.activity.active →
      s.activity.Step s'.activity := by
    intro hbusy hactive
    rw [activity_eq hbusy hactive]
    exact .calm
  have hactive_of_runs : s'.runs = s.runs → s'.activity.active = s.activity.active := by
    intro hruns
    simp only [AutonomyStore.activity, hruns]
  have hstop : ∀ goal : AutonomyGoalRow, s'.activity.busy = s.activity.busy \ {goal.id} →
      s'.activity.active = {x ∈ s.activity.active | x.2 ≠ goal.id} →
      s.activity.Step s'.activity := by
    intro goal hbusy hactive
    rw [activity_eq (x := ⟨_, _⟩) hbusy hactive]
    exact .stop goal.id
  cases h with
  | same hsame =>
    refine hcalm ?_ (hactive_of_runs hsame.2.1)
    simp only [AutonomyStore.activity, hsame.1]
  | insert goal goals hfresh hinserted hsame =>
    refine hcalm ?_ (hactive_of_runs hsame.2.1)
    ext id
    constructor
    · rintro ⟨x, hx, hid, hrunning⟩
      rw [hsame.1] at hx
      rcases (Table.mem_insert hinserted).1 hx with hx | rfl
      · exact ⟨x, hx, hid, hrunning⟩
      · exact absurd hrunning hfresh.not_running
    · rintro ⟨x, hx, hid, hrunning⟩
      refine ⟨x, ?_, hid, hrunning⟩
      rw [hsame.1]
      exact (Table.mem_insert hinserted).2 (.inl hx)
  | sync input context goal hsyncs hchanges hsame =>
    obtain ⟨hgoals, hruns, -, -⟩ := hsame
    dsimp only at hgoals
    exact hcalm (busy_updateWhere ⟨_, hgoals⟩ fun x _ _ =>
      syncStatus_running context.state x.status) (hactive_of_runs hruns)
  | retire keys hsame =>
    obtain ⟨hgoals, hruns, -, -⟩ := hsame
    dsimp only [retireMissingBundleSchedules] at hgoals
    refine hcalm (busy_updateWhere ⟨_, hgoals⟩ fun x _ hx => ?_) (hactive_of_runs hruns)
    simp only [retirable, Bool.and_eq_true, decide_eq_true_eq] at hx
    exact iff_of_false (by simp [AutonomyGoalRow.retire]) hx.1.1.2
  | recover goal hgoal hrunning hsame =>
    obtain ⟨hgoals, hruns, -, -⟩ := hsame
    dsimp only at hgoals hruns
    refine hstop goal (busy_stop hgoal ⟨_, hgoals⟩ ?_) (active_stop ⟨_, hruns⟩ ?_ ?_ ?_)
    · unfold AutonomyGoalRow.recover
      dsimp only
      split_ifs <;> simp
    · intro run _ hp
      simp only [Bool.and_eq_true, decide_eq_true_eq] at hp
      exact hp.1.2
    · intro run hrun hid hactive
      simp [hs.tenant_eq hgoal hrun hid, hid, hactive]
    · simp [AutonomyRunRow.interrupt]
  | lease call goal run runs hgoal hleasable hnew hinserted hsame =>
    obtain ⟨hgoals, hruns, -, -⟩ := hsame
    dsimp only [grant] at hgoals hruns
    obtain ⟨-, hrunGoal, -, hrunning⟩ := newRun_ok hnew
    have hidle : goal.status ≠ .running := by
      intro hstatus
      simp [leasable, hstatus] at hleasable
    rw [activity_eq (x := ⟨_, _⟩) (busy_start hgoal hidle ⟨_, hgoals⟩ rfl)
      (active_start hinserted hruns hrunGoal hrunning)]
    exact .start run.id goal.id (not_busy hgoal hidle)
  | pin _ _ _ _ _ _ _ hsame | beat _ _ _ _ _ _ hsame =>
    obtain ⟨hgoals, hruns, -, -⟩ := hsame
    dsimp only at hgoals hruns
    exact hcalm (busy_updateWhere ⟨_, hgoals⟩ fun _ _ _ => Iff.rfl)
      (active_updateWhere ⟨_, hruns⟩ fun _ => ⟨rfl, rfl⟩)
  | attach runId runtimeJobId hsame =>
    obtain ⟨hgoals, hruns, -, -⟩ := hsame
    dsimp only at hruns
    refine hcalm ?_ (active_updateWhere ⟨_, hruns⟩ fun _ => ⟨rfl, rfl⟩)
    simp only [AutonomyStore.activity, hgoals]
  | finish workerId finish runId goal howned hsame =>
    obtain ⟨hgoals, hruns, -, -⟩ := hsame
    dsimp only at hgoals hruns
    have hstatuses := finishStatuses_ne_running finish.disposition goal
    exact hstop goal (busy_stop howned.mem ⟨_, hgoals⟩ hstatuses.2)
      (active_stop ⟨_, hruns⟩ (fun _ _ hp => (isActiveRun_running hp).2.1)
        (hs.isActiveRun howned) fun _ => hstatuses.1)
  | finishEvent workerId terminal summary evidenceRefs runId goal howned hsame =>
    obtain ⟨hgoals, hruns, -, -⟩ := hsame
    dsimp only at hgoals hruns
    have hstatuses := eventStatuses_ne_running terminal goal
    exact hstop goal (busy_stop howned.mem ⟨_, hgoals⟩ hstatuses.2)
      (active_stop ⟨_, hruns⟩ (fun _ _ hp => (isActiveRun_running hp).2.1)
        (hs.isActiveRun howned) fun _ => hstatuses.1)
  | resume actor expectedRevision goal hgoal hlabel hstopped hsame =>
    obtain ⟨hgoals, hruns, -, -⟩ := hsame
    dsimp only at hgoals
    refine hcalm (busy_updateWhere ⟨_, hgoals⟩ fun x hx hp => ?_) (hactive_of_runs hruns)
    obtain rfl := Table.eq_of_key hx hgoal (by simpa using hp)
    refine iff_of_false (by simp [AutonomyGoalRow.resume]) ?_
    rcases hstopped with h | h <;> simp [h]

/-! ### Every step keeps it -/

theorem Granted.step (hlease : Granted s lease) (h : Effect parse s a s') : Granted s' lease := by
  obtain ⟨goal, hgoal, hid, htenant⟩ := hlease.goal
  obtain ⟨run, hrun, hrunId, hrunGoal, hrunTenant⟩ := hlease.run
  obtain ⟨goal', hgoal', hchange⟩ := h.goal_stays hgoal
  obtain ⟨run', hrun', hrunChange⟩ := h.run_stays hrun
  obtain ⟨hid', htenant', -⟩ := hchange.fixed
  exact ⟨⟨goal', hgoal', hid'.trans hid, htenant'.trans htenant⟩,
    ⟨run', hrun', hrunChange.id.trans hrunId, hrunChange.goalId.trans hrunGoal,
      hrunChange.tenantId.trans hrunTenant⟩⟩

section

variable (hs : Sound s) (h : Effect parse s a s')
include hs h

theorem Sound.columns_step :
    ∀ goal ∈ s'.goals, LeaseColumns goal := by
  intro goal' hgoal'
  rcases h.goal_origin hgoal' with ⟨goal, hgoal, hchange⟩ | hinserts
  · exact (hs.columns goal hgoal).change hchange
  · exact .of_stopped hinserts.fresh.not_running hinserts.fresh.owner hinserts.fresh.expires

theorem Sound.runGoal_step :
    ∀ run ∈ s'.runs, ∃ goal ∈ s'.goals, goal.id = run.goalId ∧ goal.tenantId = run.tenantId := by
  intro run' hrun'
  rcases h.run_origin hrun' with ⟨run, hrun, hrunChange⟩ | ⟨goal, call, hstarts⟩
  · obtain ⟨goal, hgoal, hid, htenant⟩ := hs.runGoal run hrun
    obtain ⟨goal', hgoal', hchange⟩ := h.goal_stays hgoal
    obtain ⟨hid', htenant', -⟩ := hchange.fixed
    exact ⟨goal', hgoal', hid'.trans (hid.trans hrunChange.goalId.symm),
      htenant'.trans (htenant.trans hrunChange.tenantId.symm)⟩
  · obtain ⟨htenant, hid, -⟩ := newRun_ok hstarts.new
    obtain ⟨goal', hgoal', hchange⟩ := h.goal_stays hstarts.mem
    obtain ⟨hid', htenant', -⟩ := hchange.fixed
    exact ⟨goal', hgoal', hid'.trans hid.symm, htenant'.trans htenant.symm⟩

theorem Sound.granted_step :
    ∀ lease ∈ s'.granted, Granted s' lease := by
  intro lease hlease
  rcases h.runs with ⟨-, hgranted⟩ | ⟨goal, call, run, hstarts⟩
  · rw [hgranted] at hlease
    exact (hs.granted lease hlease).step h
  · rw [hstarts.granted] at hlease
    rcases List.mem_cons.1 hlease with rfl | hlease
    · obtain ⟨htenant, hid, -⟩ := newRun_ok hstarts.new
      obtain ⟨goal', hgoal', hchange⟩ := h.goal_stays hstarts.mem
      obtain ⟨hid', htenant', -⟩ := hchange.fixed
      exact ⟨⟨goal', hgoal', hid', htenant'⟩, run, (hstarts.runs _).2 (.inr rfl), rfl, hid, htenant⟩
    · exact (hs.granted lease hlease).step h

theorem Sound.step : Sound s' where
  matched := hs.matched.step (h.activity hs)
  columns := hs.columns_step h
  runGoal := hs.runGoal_step h
  granted := hs.granted_step h

end

theorem sound_initial (access : Spaces.Registry) (spaceRevisions : Uuid → ℤ) (now : ℤ) :
    Sound (.initial access spaceRevisions now) where
  matched := by
    rw [activity_eq (x := ⟨∅, ∅⟩) ?_ ?_]
    · exact Activity.matched_empty
    iterate 2 · exact Set.eq_empty_of_forall_notMem fun _ h => Table.not_mem_empty _ h.choose_spec.1
  columns := fun _ h => absurd h (Table.not_mem_empty _)
  runGoal := fun _ h => absurd h (Table.not_mem_empty _)
  granted := fun _ h => absurd h List.not_mem_nil

variable {access : Spaces.Registry} {as : List AutonomyLabel} {now : ℤ}

theorem sound_of_exec {spaceRevisions : Uuid → ℤ}
    (hrun : (autonomyMachine parse digest).exec (.initial access spaceRevisions now) as = some s) :
    Sound s :=
  (autonomyMachine parse digest).invariant (fun _ _ _ hs hstep => hs.step (step_effect hstep))
    (sound_initial access spaceRevisions now) hrun

/-! ## The store at every moment -/

theorem busy_of_running (hgoal : goal ∈ s.goals) :
    goal.id ∈ s.activity.busy ↔ goal.status = .running :=
  ⟨fun hbusy => by_contra fun hidle => not_busy hgoal hidle hbusy,
    fun hrunning => ⟨goal, hgoal, rfl, hrunning⟩⟩

theorem Sound.running_iff (hs : Sound s) (hgoal : goal ∈ s.goals) : goal.status = .running ↔
      ∃! run, run ∈ s.runs ∧ run.goalId = goal.id ∧ run.status = .running := by
  rw [← busy_of_running hgoal, hs.matched.busy_iff]
  constructor
  · rintro ⟨_, ⟨run, hrun, -, hid, hrunning⟩, -⟩
    refine ⟨run, ⟨hrun, hid, hrunning⟩, fun other hother => ?_⟩
    exact hs.run_eq hother.1 hrun hother.2.2 hrunning (hother.2.1.trans hid.symm)
  · rintro ⟨run, ⟨hrun, hid, hrunning⟩, honly⟩
    refine ⟨run.id, ⟨run, hrun, rfl, hid, hrunning⟩, ?_⟩
    rintro _ ⟨other, hother, rfl, hotherGoal, hactive⟩
    exact congrArg AutonomyRunRow.id (honly other ⟨hother, hotherGoal, hactive⟩)

theorem GoalChange.revision {goal goal' : AutonomyGoalRow}
    (h : GoalChange parse s a s' goal goal') : goal' = goal ∨ goal.revision < goal'.revision := by
  cases h with
  | same => exact .inl rfl
  | _ => exact .inr (Nat.lt_succ_self _)

theorem run_settled
    (hexec : (autonomyMachine parse digest).exec s as = some t) (hrun : run ∈ s.runs)
    (hsettled : run.status ≠ .running) :
    ∃ run' ∈ t.runs, run'.id = run.id ∧ run'.status = run.status := by
  refine (autonomyMachine parse digest).invariant
    (I := fun t => ∃ run' ∈ t.runs, run'.id = run.id ∧ run'.status = run.status) ?_
    ⟨run, hrun, rfl, rfl⟩ hexec
  rintro s₁ a s₂ ⟨run₁, hrun₁, hid₁, hstatus₁⟩ hstep
  obtain ⟨run₂, hrun₂, hchange⟩ := (step_effect hstep).run_stays hrun₁
  refine ⟨run₂, hrun₂, hchange.id.trans hid₁, ?_⟩
  rw [hchange.settled (by rwa [hstatus₁]), hstatus₁]

theorem syncChanges_eq_false {desired : GoalStatus} {state : ContextState} {spec : GoalSpec}
    (hsame : { goal.sync now desired state spec with revision := goal.revision } = goal) :
    goal.syncChanges desired state spec = false := by
  have hstatus := congrArg AutonomyGoalRow.status hsame
  have hstate := congrArg AutonomyGoalRow.contextState hsame
  have hspec := congrArg AutonomyGoalRow.spec hsame
  dsimp only [AutonomyGoalRow.sync] at hstatus hstate hspec
  simp [AutonomyGoalRow.syncChanges, hstatus, hstate, hspec]

variable {input : SyncBundleSchedule} {context : ResolvedContext}

theorem upsertSchedule_same {newId : Uuid}
    (hgoal : s.goalOfKey input.tenantId input.goalKey = some goal)
    (hsame : goal.syncChanges (desiredStatus context.state) context.state
      (scheduleSpec input context) = false) :
    s.upsertSchedule input context newId = .ok (s, goal) := by
  simp [upsertSchedule, hgoal, hsame]

theorem syncBundleSchedule_same {service : ServiceAgent} {newId : Uuid}
    (hcontext : scheduleContext parse s input service = .ok (access, context))
    (hgoal : s.goalOfKey input.tenantId input.goalKey = some goal)
    (hsame : goal.syncChanges (desiredStatus context.state) context.state
      (scheduleSpec input context) = false) :
    (s.after (dropValue (s.syncBundleSchedule parse input service newId))).goals = s.goals := by
  unfold AutonomyStore.syncBundleSchedule
  cases validateSchedule input with
  | error e => rfl
  | ok =>
    have hrow : ({ s with access } : AutonomyStore).goalOfKey input.tenantId
        input.goalKey = some goal := hgoal
    simp only [hcontext, bind, Except.bind, upsertSchedule_same hrow hsame]
    rfl

/-- In every state reached, a goal runs just when it has an owner and an expiry of a lease, and just
when it has exactly one running run; an ended run stays as it ended; a step that changes a goal
raises its revision, and a schedule that changes no column writes nothing. -/
theorem autonomy_store_invariant (access : Spaces.Registry) (spaceRevisions : Uuid → ℤ) (now : ℤ)
    (as : List AutonomyLabel) (s : AutonomyStore)
    (hrun : (autonomyMachine parse digest).exec (.initial access spaceRevisions now) as = some s) :
    (∀ goal ∈ s.goals, ((goal.status = .running ↔ goal.leaseOwner.isSome) ∧
        (goal.status = .running ↔ goal.leaseExpiresAt.isSome)) ∧ (goal.status = .running ↔
        ∃! run, run ∈ s.runs ∧ run.goalId = goal.id ∧ run.status = .running)) ∧
    (∀ run ∈ s.runs, run.status ≠ .running →
      ∀ bs t, (autonomyMachine parse digest).exec s bs = some t →
        ∃ run' ∈ t.runs, run'.id = run.id ∧ run'.status = run.status) ∧
    (∀ a s', (autonomyMachine parse digest).step s a = some s' → ∀ goal ∈ s.goals,
      ∃ goal' ∈ s'.goals, goal'.id = goal.id ∧ (goal' = goal ∨ goal.revision < goal'.revision)) ∧
    ∀ input service newId access' context goal s',
      scheduleContext parse s input service = .ok (access', context) →
      s.goalOfKey input.tenantId input.goalKey = some goal →
      { goal.sync s.now (desiredStatus context.state) context.state
          (scheduleSpec input context) with revision := goal.revision } = goal →
      (autonomyMachine parse digest).step s (.syncBundleSchedule input service newId) = some s' →
      s'.goals = s.goals := by
  have hs := sound_of_exec hrun
  refine ⟨fun goal hgoal => ⟨hs.columns goal hgoal, hs.running_iff hgoal⟩,
    fun run hrun hsettled bs t hexec => run_settled hexec hrun hsettled,
    fun a s' hstep goal hgoal => ?_, ?_⟩
  · obtain ⟨goal', hgoal', hchange⟩ := (step_effect hstep).goal_stays hgoal
    exact ⟨goal', hgoal', hchange.fixed.1, hchange.revision⟩
  · intro input service newId access' context goal s' hcontext hgoal hsame hstep
    obtain rfl := some.inj hstep
    exact syncBundleSchedule_same hcontext hgoal (syncChanges_eq_false hsame)

/-! ## Calls with an old lease -/

namespace LeaseOperation

/-- The arguments pass the checks that the call makes before it reads the store. -/
def WellFormed : LeaseOperation → Prop
  | .validateLeaseContext => True
  | .pinRunContext _ policyRevision contextSnapshot =>
    (Jobs.isObject contextSnapshot &&
      policyRevision.all fun value => value.utf8ByteSize ≤ 256) = true
  | .attachRuntimeJob _ runtimeJobId => bounded runtimeJobId 256 = true
  | .heartbeat workerId leaseSeconds checkpoint =>
    validateWorker workerId leaseSeconds = .ok () ∧ Jobs.isObject checkpoint = true
  | .finishRun _ finish => validateFinish finish = .ok ()
  | .finishEventRun _ terminal summary resultHash =>
    (bounded summary 2000 && resultHash.all isSha256 &&
      decide (terminal = .succeeded) == resultHash.isSome) = true

/-- The operation looks at the run as well as at the goal. -/
def ChecksRun : LeaseOperation → Prop
  | .pinRunContext .. | .finishRun .. | .finishEventRun .. => True
  | .validateLeaseContext | .attachRuntimeJob .. | .heartbeat .. => False

def holder (lease : AutonomyLease) : LeaseOperation → Option String
  | .validateLeaseContext => lease.goal.leaseOwner
  | .pinRunContext workerId .. | .attachRuntimeJob workerId _ | .heartbeat workerId ..
  | .finishRun workerId _ | .finishEventRun workerId .. => some workerId

end LeaseOperation

/-- The goal of the lease is leased, by the owner that the call asks for. -/
def HeldAgain (s : AutonomyStore) (lease : AutonomyLease) (operation : LeaseOperation) : Prop :=
  ∃ goal ∈ s.goals, goal.id = lease.goal.id ∧ goal.status = .running ∧
    goal.leaseOwner = operation.holder lease ∧ goal.unexpired s.now

/-- The call fails with `LeaseLost`, and the goals and the runs are the same after it. -/
def Refused (s : AutonomyStore) (lease : AutonomyLease) (operation : LeaseOperation) : Prop :=
  s.perform lease operation = .error .leaseLost ∧
    (s.after (s.perform lease operation)).goals = s.goals ∧
    (s.after (s.perform lease operation)).runs = s.runs

variable {operation : LeaseOperation}

theorem refused_iff :
    Refused s lease operation ↔ s.perform lease operation = .error .leaseLost := by
  refine ⟨fun h => h.1, fun h => ⟨h, ?_⟩⟩
  rw [h]
  exact ⟨rfl, rfl⟩

variable {α : Type}

theorem bind_require {holds : Bool} {reason : String} {f : Unit → Except AutonomyError α} :
    (require holds reason >>= f) = .error .leaseLost ↔
      require holds reason = .ok () ∧ f () = .error .leaseLost := by
  cases holds <;> simp [require, bind, Except.bind]

theorem dropValue_leaseLost {result : Except AutonomyError (AutonomyStore × α)} :
    dropValue result = .error .leaseLost ↔ result = .error .leaseLost := by
  cases result <;> simp [dropValue, Except.map]

theorem assertOwnedLease_of_settled {runId : Uuid}
    (hrun : run ∈ s.runs) (hid : run.id = runId) (hsettled : run.status ≠ .running)
    (goalId : Uuid) : s.assertOwnedLease goalId runId workerId = .error .leaseLost := by
  cases h : s.assertOwnedLease goalId runId workerId with
  | ok goal =>
    obtain ⟨active, hactive, -, hactiveId, hrunning⟩ := (assertOwnedLease_ok h).1.run
    obtain rfl := Table.eq_of_key hrun hactive (hid.trans hactiveId.symm)
    exact absurd hrunning hsettled
  | error e =>
    unfold assertOwnedLease at h
    split at h
    · exact h ▸ rfl
    · cases h

theorem Granted.get (h : Granted s lease) :
    ∃ goal ∈ s.goals, s.goals.get lease.goal.id = some goal ∧ goal.id = lease.goal.id ∧
      goal.tenantId = lease.goal.tenantId := by
  obtain ⟨goal, hgoal, hid, htenant⟩ := h.goal
  exact ⟨goal, hgoal, Table.get_eq_some.2 ⟨hgoal, hid⟩, hid, htenant⟩

theorem Granted.runOfLease (h : Granted s lease) : ∃ run, s.runOfLease lease = some run := by
  obtain ⟨run, hrun, hid, hgoal, htenant⟩ := h.run
  refine ⟨run, filter_eq_some_iff.2 ⟨Table.get_eq_some.2 ⟨hrun, hid⟩, ?_⟩⟩
  simp [hgoal, htenant]

theorem heldAgain_iff (hgoal : goal ∈ s.goals) (hid : goal.id = lease.goal.id) :
    HeldAgain s lease operation ↔
      goal.status = .running ∧ goal.leaseOwner = operation.holder lease ∧ goal.unexpired s.now := by
  constructor
  · rintro ⟨found, hfound, hfoundId, hheld⟩
    obtain rfl := Table.eq_of_key hfound hgoal (hfoundId.trans hid.symm)
    exact hheld
  · exact fun hheld => ⟨goal, hgoal, hid, hheld⟩

theorem owned_iff : goal.owned now workerId = true ↔
      goal.status = .running ∧ goal.leaseOwner = some workerId ∧ goal.unexpired now := by
  simp [AutonomyGoalRow.owned, and_assoc]

theorem requireContributor_errors (tenantId userId spaceId : Uuid) :
    ErrorsMeet (· ≠ .leaseLost) (s.requireContributor tenantId userId spaceId) :=
  .mapError (fun e => by cases e <;> simp [spaceError]) _

theorem ne_leaseLost {result : Except AutonomyError α}
    (h : ErrorsMeet (· ≠ .leaseLost) result) : result ≠ .error .leaseLost :=
  fun hresult => h _ hresult rfl

theorem validateLeaseContext_leaseLost (h : Granted s lease) :
    s.validateLeaseContext lease = .error .leaseLost ↔
      ¬ HeldAgain s lease .validateLeaseContext := by
  obtain ⟨goal, hgoal, hget, hid, htenant⟩ := h.get
  have hcurrent : s.getGoal lease.goal.tenantId lease.goal.id = .ok goal := by
    simp [getGoal, hget, Option.filter, htenant]
  rw [heldAgain_iff hgoal hid]
  dsimp only [LeaseOperation.holder]
  unfold validateLeaseContext
  rw [hcurrent]
  change ite _ _ _ = _ ↔ _
  by_cases hheld : goal.status = .running ∧ goal.leaseOwner = lease.goal.leaseOwner ∧
      goal.unexpired s.now
  · rw [if_neg (by simp [hheld])]
    refine iff_of_false (ne_leaseLost ?_) (not_not_intro hheld)
    split_ifs
    · exact .error (by simp)
    · exact .error (by simp)
    · refine (requireContributor_errors _ _ _).bind fun space => ?_
      split_ifs
      · exact .error (by simp)
      · exact (requireContributor_errors _ _ _).bind fun _ => .ok _ _
  · have hlost := hheld
    rw [not_and_or, not_and_or] at hlost
    rw [if_pos (by simpa using hlost)]
    exact iff_of_true rfl hheld

theorem refused_iff_of_settled (h : Granted s lease) (hrun : run ∈ s.runs)
    (hid : run.id = lease.run.id) (hsettled : run.status ≠ .running) (operation : LeaseOperation) :
    Refused s lease operation ↔
      operation.WellFormed ∧ (operation.ChecksRun ∨ ¬ HeldAgain s lease operation) := by
  have hassert : ∀ workerId,
      s.assertOwnedLease lease.goal.id lease.run.id workerId = .error .leaseLost :=
    fun _ => assertOwnedLease_of_settled hrun hid hsettled _
  obtain ⟨goal, hgoal, hget, hgoalId, htenant⟩ := h.get
  rw [refused_iff]
  cases operation with
  | validateLeaseContext =>
    have hmap : s.perform lease .validateLeaseContext = .error .leaseLost ↔
        s.validateLeaseContext lease = .error .leaseLost := by
      unfold perform
      cases s.validateLeaseContext lease <;> simp [Except.map]
    rw [hmap, validateLeaseContext_leaseLost h]
    simp [LeaseOperation.WellFormed, LeaseOperation.ChecksRun]
  | pinRunContext | finishEventRun =>
    refine dropValue_leaseLost.trans (bind_require.trans ?_)
    rw [require_eq_ok]
    refine and_congr_right fun _ => iff_of_true ?_ (.inl trivial)
    rw [hassert]
    rfl
  | attachRuntimeJob workerId runtimeJobId =>
    obtain ⟨found, hfound⟩ := h.runOfLease
    refine dropValue_leaseLost.trans (bind_require.trans ?_)
    rw [require_eq_ok, heldAgain_iff hgoal hgoalId]
    refine and_congr_right fun _ => ?_
    dsimp only [LeaseOperation.ChecksRun, LeaseOperation.holder]
    rw [false_or, ← owned_iff, hfound, hget]
    cases howned : goal.owned s.now workerId <;> simp [Option.filter, howned]
  | heartbeat workerId leaseSeconds checkpoint =>
    refine dropValue_leaseLost.trans (bind_require.trans ?_)
    dsimp only [LeaseOperation.WellFormed, LeaseOperation.ChecksRun]
    rw [and_assoc, heldAgain_iff hgoal hgoalId]
    refine and_congr_right fun _ => bind_require.trans ?_
    rw [require_eq_ok]
    refine and_congr_right fun _ => ?_
    dsimp only [LeaseOperation.holder]
    rw [false_or, ← owned_iff, hget]
    cases howned : goal.owned s.now workerId <;> simp [Option.filter, howned, htenant]
  | finishRun workerId finish =>
    refine dropValue_leaseLost.trans (bind_require.trans ?_)
    refine and_congr_right fun _ => iff_of_true ?_ (.inl trivial)
    rw [hassert]
    rfl

/-- A call with the lease of an ended run is refused just when its arguments pass their checks and
it asks for the run, or the owner it asks for does not lease the goal. -/
theorem stale_call_refused_iff (access : Spaces.Registry) (spaceRevisions : Uuid → ℤ) (now : ℤ)
    (as : List AutonomyLabel) (s : AutonomyStore)
    (hexec : (autonomyMachine parse digest).exec (.initial access spaceRevisions now) as = some s)
    (lease : AutonomyLease) (hlease : lease ∈ s.granted) (run : AutonomyRunRow)
    (hrun : run ∈ s.runs) (hid : run.id = lease.run.id) (hsettled : run.status ≠ .running)
    (operation : LeaseOperation) : Refused s lease operation ↔
      operation.WellFormed ∧ (operation.ChecksRun ∨ ¬ HeldAgain s lease operation) :=
  refused_iff_of_settled ((sound_of_exec hexec).granted lease hlease) hrun hid hsettled operation

/-! ## Runs -/

def sampleSpaces : Spaces.Registry :=
  { Jobs.sampleAccess with
    spaces := fun _ => some ⟨5, 1, .project, some 2, none, none, .active⟩ }

def sampleSchedule (actingSpaceId : Option Uuid) (maxAttempts : ℕ) : SyncBundleSchedule where
  goalKey := "key"
  goal := "goal"
  tenantId := 1
  ownerBundleId := "bundle"
  recipeId := "recipe"
  packageManifestSha256 := String.ofList (List.replicate 64 'a')
  targetKind := "kind"
  targetId := "target"
  targetRevision := "1"
  targetLabel := "label"
  actingSpaceId := actingSpaceId
  requestedByUserId := some 2
  interval := 10
  maxWallTime := 5
  maxAttempts := maxAttempts

def sampleSync (actingSpaceId : Option Uuid) (maxAttempts : ℕ) : AutonomyLabel :=
  .syncBundleSchedule (sampleSchedule actingSpaceId maxAttempts) ⟨.ok 9, 20⟩ 7

def sampleLease (newRunId : Uuid) : AutonomyLabel := .leaseNext ⟨"worker", 60, [], newRunId⟩

def sampleMachine : Machine AutonomyStore AutonomyLabel :=
  autonomyMachine (fun _ => some 9) fun _ => ""

def sampleStore : AutonomyStore := .initial sampleSpaces (fun _ => 1) 0

def sampleExpiredRun (maxAttempts : ℕ) : List AutonomyLabel :=
  [sampleSync (some 5) maxAttempts, sampleLease 11, .tick 61000000, .recoverExpiredLease []]

def sampleBeat (leaseSeconds : ℤ) : LeaseOperation := .heartbeat "worker" leaseSeconds (.object [])

theorem autonomy_store_invariant_of_expired :
    ∃ s, sampleMachine.exec sampleStore (sampleExpiredRun 3) = some s ∧
      s.runs.rows.map (·.status) = [.interrupted] ∧
      ∀ goal ∈ s.goals, goal.status = .running ↔ goal.leaseOwner.isSome := by
  have hrows : ∃ s, sampleMachine.exec sampleStore (sampleExpiredRun 3) = some s ∧
      s.runs.rows.map (·.status) = [.interrupted] := by decide +kernel
  obtain ⟨s, hs, hstatus⟩ := hrows
  refine ⟨s, hs, hstatus, fun goal hgoal => ?_⟩
  exact ((autonomy_store_invariant sampleSpaces _ 0 _ s hs).1 goal hgoal).1.1

/-- The executor of the run that was recovered beats once more. -/
theorem stale_call_refused_of_expired :
    ∃ s, sampleMachine.exec sampleStore (sampleExpiredRun 3) = some s ∧
      ∃ lease ∈ s.granted, Refused s lease (sampleBeat 60) := by
  have hrows : ∃ s, sampleMachine.exec sampleStore (sampleExpiredRun 3) = some s ∧
      (∃ lease ∈ s.granted, ∃ run ∈ s.runs, run.id = lease.run.id ∧ run.status ≠ .running) ∧
      ∀ goal ∈ s.goals, goal.status ≠ .running := by decide +kernel
  obtain ⟨s, hs, ⟨lease, hlease, run, hrun, hid, hstatus⟩, hidle⟩ := hrows
  refine ⟨s, hs, lease, hlease, ?_⟩
  refine (stale_call_refused_iff sampleSpaces _ 0 _ s hs lease hlease run hrun hid hstatus
    (sampleBeat 60)).2 ⟨⟨by decide, by decide⟩, .inr ?_⟩
  rintro ⟨goal, hgoal, -, hrunning, -⟩
  exact hidle goal hgoal hrunning

/-- The goal is leased again, by the same worker: a heartbeat with the lease of the run that was
recovered extends the new lease. -/
theorem stale_heartbeat_extends_new_lease :
    ∃ s, sampleMachine.exec sampleStore (sampleExpiredRun 3 ++ [sampleLease 12]) = some s ∧
      ∃ lease ∈ s.granted, ∃ run ∈ s.runs, run.id = lease.run.id ∧ run.status = .interrupted ∧
        (sampleBeat 300).WellFormed ∧ ¬ Refused s lease (sampleBeat 300) ∧
        s.goals.rows.map (·.leaseExpiresAt) = [some 121000000] ∧
        (s.after (s.perform lease (sampleBeat 300))).goals.rows.map (·.leaseExpiresAt) =
          [some 361000000] := by
  have hrows : ∃ s, sampleMachine.exec sampleStore (sampleExpiredRun 3 ++ [sampleLease 12]) =
        some s ∧ ∃ lease ∈ s.granted, ∃ run ∈ s.runs, run.id = lease.run.id ∧
      run.status = .interrupted ∧ s.goals.rows.map (·.leaseExpiresAt) = [some 121000000] ∧
      (s.after (s.perform lease (sampleBeat 300))).goals.rows.map (·.leaseExpiresAt) =
        [some 361000000] := by decide +kernel
  obtain ⟨s, hs, lease, hlease, run, hrun, hid, hstatus, hexpires, hextended⟩ := hrows
  refine ⟨s, hs, lease, hlease, run, hrun, hid, hstatus, ⟨by decide, by decide⟩, ?_, hexpires,
    hextended⟩
  rintro ⟨-, hgoals, -⟩
  rw [hgoals, hexpires] at hextended
  exact absurd hextended (by decide)

end Gadgetron.Autonomy
