import Gadgetron.Autonomy.Lease

/-!
# Attempts of autonomous goals

A goal is leased at most as often as its budget allows, and a safety stop holds until a manager
resumes it, unless a schedule makes ready a goal that was stopped or retired.
-/

namespace Gadgetron.Autonomy

open Lib AutonomyStore

variable {parse : String → Option Uuid} {digest : List String → String} {s s' t : AutonomyStore}
  {a : AutonomyLabel} {goal goal' : AutonomyGoalRow} {goalId : Uuid}

/-- A schedule has the budget of the goal that it finds. -/
def KeepsBudget (parse : String → Option Uuid) (s : AutonomyStore) (a : AutonomyLabel) : Prop :=
  ∀ input context goal, Syncs parse s a input context goal →
    input.maxAttempts = goal.spec.maxAttempts

/-- A schedule with a ready context finds a goal that has spent its attempts, of the same target
revision and package, and not kept from becoming ready by its status. -/
def RevivesExhausted (parse : String → Option Uuid) (s : AutonomyStore) (a : AutonomyLabel) :
    Prop :=
  ∃ input context goal, Syncs parse s a input context goal ∧ context.state = .ready ∧
    goal.retargeted (scheduleSpec input context) = false ∧ goal.spec.maxAttempts ≤ goal.attempt ∧
    goal.status ≠ .running ∧ goal.status ≠ .paused ∧ goal.status ≠ .safeStopped

/-- A schedule with a ready context finds the goal without a context or retired. -/
def RevivesStopped (parse : String → Option Uuid) (goalId : Uuid) (s : AutonomyStore)
    (a : AutonomyLabel) : Prop :=
  ∃ input context goal, Syncs parse s a input context goal ∧ goal.id = goalId ∧
    context.state = .ready ∧ (goal.status = .contextRequired ∨ goal.status = .retired)

/-- The step resumes the goal with success. -/
def Resumes (goalId : Uuid) (s : AutonomyStore) (a : AutonomyLabel) : Prop :=
  ∃ actor expectedRevision, a = .resumeGoal actor goalId expectedRevision ∧
    ∃ result, s.resumeGoal actor goalId expectedRevision = .ok result

/-! ## The budget of a goal -/

structure Budgeted (s : AutonomyStore) (goal : AutonomyGoalRow) : Prop where
  bounds : 1 ≤ goal.spec.maxAttempts ∧ goal.spec.maxAttempts ≤ 10
  attempt : goal.attempt ≤ goal.spec.maxAttempts
  waiting : goal.status = .ready ∨ goal.status = .retryWait → goal.attempt < goal.spec.maxAttempts
  leased : s.leased goal.id = goal.attempt

section

variable (h : Budgeted s goal) (hid : goal'.id = goal.id) (hspec : goal'.spec = goal.spec)
include h hid hspec

theorem Budgeted.of_idle (hattempt : goal'.attempt = goal.attempt)
    (hleased : s'.leased goal.id = s.leased goal.id)
    (hwaiting : goal'.status = .ready ∨ goal'.status = .retryWait →
      goal.attempt < goal.spec.maxAttempts) : Budgeted s' goal' where
  bounds := hspec ▸ h.bounds
  attempt := by
    rw [hattempt, hspec]
    exact h.attempt
  waiting := by
    rw [hattempt, hspec]
    exact hwaiting
  leased := by
    rw [hid, hleased, hattempt]
    exact h.leased

theorem Budgeted.of_reset (hattempt : goal'.attempt = 0)
    (hleased : s'.leased goal.id = 0) : Budgeted s' goal' where
  bounds := hspec ▸ h.bounds
  attempt := by omega
  waiting := fun _ => by
    rw [hattempt, hspec]
    exact h.bounds.1
  leased := by rw [hid, hleased, hattempt]

end

theorem leasable_waiting (h : s.leasable goal) :
    goal.status = .ready ∨ goal.status = .retryWait := by
  simp only [leasable, Bool.and_eq_true, Bool.or_eq_true, decide_eq_true_eq] at h
  exact h.1.1

variable {state : ContextState} {current : GoalStatus}

theorem syncStatus_waiting (h : AutonomyGoalRow.syncStatus (desiredStatus state) current = .ready ∨
      AutonomyGoalRow.syncStatus (desiredStatus state) current = .retryWait) :
    state = .ready ∧ current ≠ .running ∧ current ≠ .paused ∧ current ≠ .safeStopped := by
  have hready : state = .ready := by
    by_contra hno
    simp only [AutonomyGoalRow.syncStatus, desiredStatus, if_neg hno, if_true] at h
    split_ifs at h <;> simp at h
  have hdesired : desiredStatus state ≠ .contextRequired := by simp [desiredStatus, hready]
  simp only [AutonomyGoalRow.syncStatus, if_neg hdesired] at h
  split_ifs at h with hrunning hstopped
  · simp at h
  · rcases h with rfl | rfl <;> simp at hstopped
  · exact ⟨hready, hrunning, not_or.1 hstopped⟩

theorem finishStatuses_retryWait {disposition : RunDisposition}
    (h : (finishStatuses disposition goal).2 = .retryWait) :
    goal.attempt < goal.spec.maxAttempts := by
  unfold finishStatuses at h
  cases disposition with
  | retryableFailure =>
    dsimp only at h
    split_ifs at h with _ hleft
    exact hleft
  | _ =>
    dsimp only at h
    split_ifs at h

theorem eventStatuses_waiting {terminal : EventRunTerminal}
    (h : (eventStatuses terminal goal).2.1 = .ready ∨
      (eventStatuses terminal goal).2.1 = .retryWait) : goal.attempt < goal.spec.maxAttempts := by
  unfold eventStatuses at h
  cases terminal with
  | providerFailure =>
    dsimp only at h
    split_ifs at h with hleft
    · exact hleft
    · simp at h
  | _ => simp at h

variable {input : SyncBundleSchedule} {context : ResolvedContext}

section

variable (h : Budgeted s goal) (hkeeps : KeepsBudget parse s a)
  (hrevives : ¬ RevivesExhausted parse s a)
include h hkeeps hrevives

theorem Budgeted.sync (hsyncs : Syncs parse s a input context goal)
    (hleased : s'.leased goal.id =
      if goal.retargeted (scheduleSpec input context) then 0 else s.leased goal.id) : Budgeted s'
      (goal.sync s.now (desiredStatus context.state) context.state
        (scheduleSpec input context)) := by
  have hbudget : (scheduleSpec input context).maxAttempts = goal.spec.maxAttempts :=
    hkeeps input context goal hsyncs
  have hbounds := h.bounds
  have hattempt := h.attempt
  by_cases hretargeted : goal.retargeted (scheduleSpec input context)
  · rw [if_pos hretargeted] at hleased
    constructor <;> simp only [AutonomyGoalRow.sync, hretargeted, if_true, hbudget]
    · exact hbounds
    · omega
    · omega
    · exact hleased
  · rw [if_neg hretargeted] at hleased
    constructor <;> simp only [AutonomyGoalRow.sync, hretargeted, hbudget]
    · exact hbounds
    · exact hattempt
    · intro hwaiting
      obtain ⟨hready, hidle⟩ := syncStatus_waiting hwaiting
      by_contra hspent
      exact hrevives ⟨input, context, goal, hsyncs, hready, by simpa using hretargeted,
        not_lt.1 hspent, hidle⟩
    · exact hleased.trans h.leased

theorem Budgeted.change (hchange : GoalChange parse s a s' goal goal') :
    Budgeted s' goal' := by
  cases hchange with
  | same hleased | pin _ _ hleased | beat _ _ _ hleased =>
    exact h.of_idle rfl rfl rfl hleased h.waiting
  | sync input context hsyncs hleased => exact h.sync hkeeps hrevives hsyncs hleased
  | retire hidle hleased => exact h.of_idle rfl rfl rfl hleased (by simp [AutonomyGoalRow.retire])
  | recover hrunning hleased =>
    refine h.of_idle rfl rfl rfl hleased fun hwaiting => ?_
    dsimp only [AutonomyGoalRow.recover] at hwaiting
    split_ifs at hwaiting with hretry
    · exact hretry.1
    · simp at hwaiting
  | lease call hleasable hleased =>
    have hleft := h.waiting (leasable_waiting hleasable)
    refine ⟨h.bounds, hleft, by simp [AutonomyGoalRow.lease], ?_⟩
    exact hleased.trans (congrArg (· + 1) h.leased)
  | finish disposition outcome verification hrunning hleased =>
    by_cases hready : (finishStatuses disposition goal).2 = .ready
    · rw [if_pos hready] at hleased
      exact h.of_reset rfl rfl (by simp [AutonomyGoalRow.finish, hready]) hleased
    · rw [if_neg hready] at hleased
      refine h.of_idle rfl rfl (by simp [AutonomyGoalRow.finish, hready]) hleased ?_
      rintro (hstatus | hstatus)
      · exact absurd hstatus hready
      · exact finishStatuses_retryWait hstatus
  | finishEvent terminal outcome summary hrunning hleased =>
    exact h.of_idle rfl rfl rfl hleased eventStatuses_waiting
  | resume actor expectedRevision hlabel hstopped hleased => exact h.of_reset rfl rfl rfl hleased

end

/-! ## The budgets of all goals -/

structure WithinBudget (s : AutonomyStore) : Prop where
  sound : Sound s
  goals : ∀ goal ∈ s.goals, Budgeted s goal
  runs : ∀ run ∈ s.runs, ∀ goal ∈ s.goals, run.goalId = goal.id →
    run.attempt ≤ goal.spec.maxAttempts
  unknown : ∀ id, (∀ goal ∈ s.goals, goal.id ≠ id) → s.leased id = 0

theorem GoalChange.budget (hkeeps : KeepsBudget parse s a)
    (hchange : GoalChange parse s a s' goal goal') :
    goal'.spec.maxAttempts = goal.spec.maxAttempts := by
  cases hchange with
  | sync input context hsyncs => exact hkeeps input context goal hsyncs
  | _ => rfl

theorem Budgeted.of_fresh (hfresh : Fresh goal) (hleased : s.leased goal.id = 0) :
    Budgeted s goal where
  bounds := hfresh.budget
  attempt := by
    rw [hfresh.attempt]
    exact Nat.zero_le _
  waiting := fun _ => by
    rw [hfresh.attempt]
    exact hfresh.budget.1
  leased := by rw [hleased, hfresh.attempt]

theorem WithinBudget.unknown_step (hs : WithinBudget s) (h : Effect parse s a s') :
    ∀ id, (∀ goal ∈ s'.goals, goal.id ≠ id) → s'.leased id = 0 := by
  intro id hunknown
  have hunknown' : ∀ goal ∈ s.goals, goal.id ≠ id := by
    intro goal hgoal
    obtain ⟨goal', hgoal', hchange⟩ := h.goal_stays hgoal
    rw [← hchange.fixed.1]
    exact hunknown goal' hgoal'
  rw [h.leased_of_unknown hunknown']
  exact hs.unknown id hunknown'

section

variable (hs : WithinBudget s) (hkeeps : KeepsBudget parse s a)
include hs hkeeps

theorem WithinBudget.goals_step (hrevives : ¬ RevivesExhausted parse s a)
    (h : Effect parse s a s') : ∀ goal ∈ s'.goals, Budgeted s' goal := by
  intro goal' hgoal'
  rcases h.goal_origin hgoal' with ⟨goal, hgoal, hchange⟩ | hinserts
  · exact (hs.goals goal hgoal).change hkeeps hrevives hchange
  · refine .of_fresh hinserts.fresh ?_
    rw [leased_of_log hinserts.log]
    exact hs.unknown goal'.id hinserts.new

theorem WithinBudget.runs_step (h : Effect parse s a s') :
      ∀ run ∈ s'.runs, ∀ goal ∈ s'.goals, run.goalId = goal.id →
      run.attempt ≤ goal.spec.maxAttempts := by
  intro run' hrun' goal' hgoal' hid
  rcases h.goal_origin hgoal' with ⟨goal, hgoal, hchange⟩ | hinserts
  · rw [hchange.budget hkeeps]
    rw [hchange.fixed.1] at hid
    rcases h.run_origin hrun' with ⟨run, hrun, hrunChange⟩ | ⟨leased, call, hstarts⟩
    · rw [hrunChange.attempt]
      exact hs.runs run hrun goal hgoal (hrunChange.goalId.symm.trans hid)
    · obtain ⟨-, hrunGoal, hattempt, -⟩ := newRun_ok hstarts.new
      obtain rfl := Table.eq_of_key hstarts.mem hgoal (hrunGoal.symm.trans hid)
      rw [hattempt]
      exact (hs.goals leased hgoal).waiting (leasable_waiting hstarts.leasable)
  · -- no run is of a goal that is new
    rw [show s'.runs = s.runs from hinserts.runs] at hrun'
    obtain ⟨goal, hgoal, hfound, -⟩ := hs.sound.runGoal run' hrun'
    exact absurd (hfound.trans hid) (hinserts.new goal hgoal)

theorem WithinBudget.step (hrevives : ¬ RevivesExhausted parse s a) (h : Effect parse s a s') :
    WithinBudget s' where
  sound := hs.sound.step h
  goals := hs.goals_step hkeeps hrevives h
  runs := hs.runs_step hkeeps h
  unknown := hs.unknown_step h

end

theorem withinBudget_initial (access : Spaces.Registry) (spaceRevisions : Uuid → ℤ) (now : ℤ) :
    WithinBudget (.initial access spaceRevisions now) where
  sound := sound_initial access spaceRevisions now
  goals := fun _ h => absurd h (Table.not_mem_empty _)
  runs := fun _ h => absurd h (Table.not_mem_empty _)
  unknown := fun _ _ => rfl

theorem newRun_attemptCheck {call : LeaseCall}
    (h : s.newRun goal call = .error (.database .attemptCheck)) :
    goal.attempt < 1 ∨ 10 < goal.attempt := by
  unfold newRun at h
  split at h
  · split at h
    · cases h
    · by_contra hbounds
      rw [if_neg hbounds] at h
      split_ifs at h
      cases h
  · cases h

theorem WithinBudget.leaseNext_ne (hs : WithinBudget s) (call : LeaseCall) :
    s.leaseNext call ≠ .error (.database .attemptCheck) := by
  intro h
  have herrors : ErrorsMeet (· ≠ .database .attemptCheck) (s.leaseNext call) := by
    unfold leaseNext
    refine .bind (fun e he hattempt => ?_) fun _ => ?_
    · unfold validateWorker require at he
      split_ifs at he
      rw [← Except.error.inj he] at hattempt
      cases hattempt
    · split
      · exact .ok _ _
      · rename_i goal hfound
        obtain ⟨hgoal, hguard⟩ := Table.first_eq_some hfound
        refine .bind (fun e he hattempt => ?_) fun run => ?_
        · have hbounds := newRun_attemptCheck (he.trans (congrArg _ hattempt))
          have hleft := (hs.goals goal hgoal).waiting
            (leasable_waiting (Bool.and_eq_true_iff.1 hguard).1)
          have hten := (hs.goals goal hgoal).bounds.2
          simp only [AutonomyGoalRow.lease] at hbounds
          omega
        · split_ifs
          · exact .error (by simp)
          · split
            · exact .error (by simp)
            · exact .ok _ _
  exact herrors _ h rfl

/-- While every schedule keeps the budget of its goal and revives none that has spent it, no goal is
leased more often than its budget allows since its attempts were reset, no run has a higher attempt,
and no lease fails for the attempt of its run. -/
theorem attempts_within_budget (access : Spaces.Registry) (spaceRevisions : Uuid → ℤ) (now : ℤ)
    (as : List AutonomyLabel) (s : AutonomyStore)
    (hexec : (autonomyMachine parse digest).exec (.initial access spaceRevisions now) as = some s)
    (hkeeps : (autonomyMachine parse digest).Meets (KeepsBudget parse)
      (.initial access spaceRevisions now) as)
    (hrevives : (autonomyMachine parse digest).Meets (fun s a => ¬ RevivesExhausted parse s a)
      (.initial access spaceRevisions now) as) :
    (∀ goal ∈ s.goals, s.leased goal.id ≤ goal.spec.maxAttempts) ∧
      (∀ run ∈ s.runs, ∀ goal ∈ s.goals, run.goalId = goal.id →
        run.attempt ≤ goal.spec.maxAttempts) ∧
      ∀ call, s.leaseNext call ≠ .error (.database .attemptCheck) := by
  have hs : WithinBudget s :=
    (autonomyMachine parse digest).invariant_of_meets
      (fun _ _ _ hs hC hstep => hs.step hC.1 hC.2 (step_effect hstep))
      (withinBudget_initial access spaceRevisions now) (hkeeps.and _ hrevives) hexec
  refine ⟨fun goal hgoal => ?_, hs.runs, hs.leaseNext_ne⟩
  rw [(hs.goals goal hgoal).leased]
  exact (hs.goals goal hgoal).attempt

/-! ## The safety stop -/

/-- The goal has no run, and can be leased only after a schedule or a manager makes it ready. -/
def Parked (goalId : Uuid) (s : AutonomyStore) : Prop :=
  ∃ goal ∈ s.goals, goal.id = goalId ∧
    (goal.status = .safeStopped ∨ goal.status = .contextRequired ∨ goal.status = .retired)

theorem Parked.not_leasable (hs : Parked goalId s) (hgoal : goal ∈ s.goals)
    (hid : goal.id = goalId) : ¬ s.leasable goal := by
  obtain ⟨parked, hparked, hparkedId, hstatus⟩ := hs
  obtain rfl := Table.eq_of_key hparked hgoal (hparkedId.trans hid.symm)
  intro hleasable
  rcases leasable_waiting hleasable with hwaiting | hwaiting <;> simp [hwaiting] at hstatus

theorem syncStatus_parked
    (hcurrent : current = .safeStopped ∨ current = .contextRequired ∨ current = .retired)
    (hrevives : state = .ready → current = .safeStopped) :
    AutonomyGoalRow.syncStatus (desiredStatus state) current = .safeStopped ∨
      AutonomyGoalRow.syncStatus (desiredStatus state) current = .contextRequired := by
  by_cases hready : state = .ready
  · left
    simp [AutonomyGoalRow.syncStatus, desiredStatus, hready, hrevives hready]
  · right
    have hidle : current ≠ .running := by
      rintro rfl
      simp at hcurrent
    simp [AutonomyGoalRow.syncStatus, desiredStatus, hready, hidle]

theorem goals_of_not_resumes {actor : Spaces.SpaceActor} {expectedRevision : ℕ}
    (hstep : (autonomyMachine parse digest).step s (.resumeGoal actor goalId expectedRevision) =
      some s')
    (hresumes : ¬ Resumes goalId s (.resumeGoal actor goalId expectedRevision)) :
    s'.goals = s.goals := by
  obtain rfl := Option.some.inj hstep
  unfold AutonomyStore.call
  dsimp only
  cases hresult : s.resumeGoal actor goalId expectedRevision with
  | ok result => exact absurd ⟨actor, expectedRevision, rfl, result, hresult⟩ hresumes
  | error e => rfl

theorem Parked.step (hs : Parked goalId s) (hresumes : ¬ Resumes goalId s a)
    (hrevives : ¬ RevivesStopped parse goalId s a)
    (hstep : (autonomyMachine parse digest).step s a = some s') : Parked goalId s' := by
  have hparked := hs
  obtain ⟨goal, hgoal, rfl, hstatus⟩ := hs
  obtain ⟨goal', hgoal', hchange⟩ := (step_effect hstep).goal_stays hgoal
  have hidle : goal.status ≠ .running := by
    intro hrunning
    simp [hrunning] at hstatus
  refine ⟨goal', hgoal', hchange.fixed.1, ?_⟩
  cases hchange with
  | same => exact hstatus
  | sync input context hsyncs =>
    have hnot_revived : context.state = .ready → goal.status = .safeStopped := by
      intro hready
      by_contra hstopped
      exact hrevives ⟨input, context, goal, hsyncs, rfl, hready, hstatus.resolve_left hstopped⟩
    exact (syncStatus_parked hstatus hnot_revived).imp_right .inl
  | retire => exact .inr (.inr rfl)
  | recover hrunning | pin _ hrunning | beat _ _ hrunning | finish _ _ _ hrunning
  | finishEvent _ _ _ hrunning => exact absurd hrunning hidle
  | lease call hleasable => exact absurd hleasable (hparked.not_leasable hgoal rfl)
  | resume actor expectedRevision hlabel =>
    rw [hlabel] at hstep hresumes
    rw [goals_of_not_resumes hstep hresumes] at hgoal'
    have hrevision := congrArg AutonomyGoalRow.revision (Table.eq_of_key hgoal' hgoal rfl)
    simp [AutonomyGoalRow.resume] at hrevision

/-- After a safety stop, while no `resume_goal` resumes the goal and no schedule with a ready
context finds it without a context or retired, no run of the goal is leased. -/
theorem safety_stop_is_sticky (s t : AutonomyStore) (goal : AutonomyGoalRow)
    (hgoal : goal ∈ s.goals) (hstopped : goal.status = .safeStopped) (as : List AutonomyLabel)
    (hexec : (autonomyMachine parse digest).exec s as = some t)
    (hresumes : (autonomyMachine parse digest).Meets (fun s a => ¬ Resumes goal.id s a) s as)
    (hrevives : (autonomyMachine parse digest).Meets
      (fun s a => ¬ RevivesStopped parse goal.id s a) s as) :
    ∀ run ∈ t.runs, run.goalId = goal.id → ∃ old ∈ s.runs, old.id = run.id := by
  refine ((autonomyMachine parse digest).invariant_of_meets
    (I := fun t => Parked goal.id t ∧
      ∀ run ∈ t.runs, run.goalId = goal.id → ∃ old ∈ s.runs, old.id = run.id)
    ?_ ?_ (hresumes.and _ hrevives) hexec).2
  · rintro s₁ a s₂ ⟨hparked, hold⟩ ⟨hresumes, hrevives⟩ hstep
    refine ⟨hparked.step hresumes hrevives hstep, fun run hrun hid => ?_⟩
    rcases (step_effect hstep).run_origin hrun with ⟨old, hmem, hchange⟩ | ⟨leased, call, hstarts⟩
    · obtain ⟨first, hfirst, hfirstId⟩ := hold old hmem (hchange.goalId.symm.trans hid)
      exact ⟨first, hfirst, hfirstId.trans hchange.id.symm⟩
    · have hleased : leased.id = goal.id := (newRun_ok hstarts.new).2.1.symm.trans hid
      exact absurd hstarts.leasable (hparked.not_leasable hstarts.mem hleased)
  · exact ⟨⟨goal, hgoal, rfl, .inl hstopped⟩, fun run hrun _ => ⟨run, hrun, rfl⟩⟩

/-! ## Runs -/

def schedulesPass (parse : String → Option Uuid)
    (test : SyncBundleSchedule → ResolvedContext → AutonomyGoalRow → Bool) (s : AutonomyStore) :
    AutonomyLabel → Bool
  | .syncBundleSchedule input service _ =>
    match scheduleContext parse s input service, s.goalOfKey input.tenantId input.goalKey with
    | .ok (_, context), some goal => test input context goal
    | _, _ => true
  | _ => true

theorem test_of_schedulesPass {test : SyncBundleSchedule → ResolvedContext → AutonomyGoalRow → Bool}
    (h : schedulesPass parse test s a)
    (hsyncs : Syncs parse s a input context goal) : test input context goal := by
  obtain ⟨service, newId, rfl, access, hcontext⟩ := hsyncs.label
  simpa [schedulesPass, hcontext, hsyncs.found] using h

theorem keepsBudget_of_schedulesPass
    (h : schedulesPass parse (fun input _ goal => input.maxAttempts = goal.spec.maxAttempts) s a) :
    KeepsBudget parse s a :=
  fun _ _ _ hsyncs => by simpa using test_of_schedulesPass h hsyncs

def sampleRegrant (maxAttempts : ℕ) : List AutonomyLabel :=
  [sampleSync none maxAttempts, sampleSync (some 5) maxAttempts, sampleLease 12]

/-- The goal has an attempt left when it gets its context back. -/
theorem attempts_within_budget_of_regrant :
    ∃ s, sampleMachine.exec sampleStore (sampleExpiredRun 2 ++ sampleRegrant 2) = some s ∧
      s.runs.rows.map (·.attempt) = [1, 2] ∧
      ∀ goal ∈ s.goals, s.leased goal.id ≤ goal.spec.maxAttempts := by
  have hrows : ∃ s, sampleMachine.exec sampleStore (sampleExpiredRun 2 ++ sampleRegrant 2) =
      some s ∧ s.runs.rows.map (·.attempt) = [1, 2] := by decide +kernel
  obtain ⟨s, hs, hattempts⟩ := hrows
  have hkeeps : sampleMachine.meetsTest (schedulesPass (fun _ => some 9)
      fun input _ goal => input.maxAttempts = goal.spec.maxAttempts)
      sampleStore (sampleExpiredRun 2 ++ sampleRegrant 2) := by decide +kernel
  have hleft : sampleMachine.meetsTest (schedulesPass (fun _ => some 9)
      fun _ _ goal => goal.attempt < goal.spec.maxAttempts)
      sampleStore (sampleExpiredRun 2 ++ sampleRegrant 2) := by decide +kernel
  refine ⟨s, hs, hattempts, ?_⟩
  refine (attempts_within_budget sampleSpaces _ 0 _ s hs
    (Machine.meets_of_meetsTest _ (fun _ _ => keepsBudget_of_schedulesPass) hkeeps)
    (Machine.meets_of_meetsTest _ (fun s a hpass => ?_) hleft)).1
  rintro ⟨input, context, goal, hsyncs, -, -, hspent, -⟩
  have hlt := of_decide_eq_true (test_of_schedulesPass hpass hsyncs)
  omega

/-- The goal has spent its only attempt when it gets its context back, and is leased again. -/
theorem exhausted_goal_leased_again :
    ∃ s, sampleMachine.exec sampleStore (sampleExpiredRun 1 ++ sampleRegrant 1) = some s ∧
      sampleMachine.Meets (KeepsBudget fun _ => some 9) sampleStore
        (sampleExpiredRun 1 ++ sampleRegrant 1) ∧
      ∃ goal ∈ s.goals, goal.spec.maxAttempts = 1 ∧ s.leased goal.id = 2 ∧
        ∃ run ∈ s.runs, run.goalId = goal.id ∧ run.attempt = 2 := by
  have hrows : ∃ s, sampleMachine.exec sampleStore (sampleExpiredRun 1 ++ sampleRegrant 1) =
      some s ∧ ∃ goal ∈ s.goals, goal.spec.maxAttempts = 1 ∧ s.leased goal.id = 2 ∧
        ∃ run ∈ s.runs, run.goalId = goal.id ∧ run.attempt = 2 := by decide +kernel
  obtain ⟨s, hs, hgoal⟩ := hrows
  have hkeeps : sampleMachine.meetsTest (schedulesPass (fun _ => some 9)
      fun input _ goal => input.maxAttempts = goal.spec.maxAttempts)
      sampleStore (sampleExpiredRun 1 ++ sampleRegrant 1) := by decide +kernel
  exact ⟨s, hs, Machine.meets_of_meetsTest _ (fun _ _ => keepsBudget_of_schedulesPass) hkeeps,
    hgoal⟩

def resumesNothing (_ : AutonomyStore) : AutonomyLabel → Bool
  | .resumeGoal .. => false
  | _ => true

theorem not_resumes_of_resumesNothing (h : resumesNothing s a) : ¬ Resumes goalId s a := by
  rintro ⟨actor, expectedRevision, rfl, -⟩
  cases h

def sampleParkedRun : List AutonomyLabel :=
  [sampleSync (some 5) 1, sampleSync none 1, .retireMissingBundleSchedules [], sampleLease 12]

theorem safety_stop_is_sticky_of_parked :
    ∃ s t, sampleMachine.exec sampleStore (sampleExpiredRun 1) = some s ∧
      sampleMachine.exec s sampleParkedRun = some t ∧ ∃ goal ∈ s.goals, goal.status = .safeStopped ∧
        ∀ run ∈ t.runs, run.goalId = goal.id → ∃ old ∈ s.runs, old.id = run.id := by
  have hrows : ∃ s, sampleMachine.exec sampleStore (sampleExpiredRun 1) = some s ∧
      (∃ goal ∈ s.goals, goal.status = .safeStopped) ∧
      (sampleMachine.exec s sampleParkedRun).isSome ∧
      sampleMachine.meetsTest resumesNothing s sampleParkedRun ∧
      sampleMachine.meetsTest (schedulesPass (fun _ => some 9) fun _ context goal =>
        context.state ≠ .ready || goal.status = .safeStopped) s sampleParkedRun := by
    decide +kernel
  obtain ⟨s, hs, ⟨goal, hgoal, hstatus⟩, hexec, hresumes, hrevives⟩ := hrows
  obtain ⟨t, ht⟩ := Option.isSome_iff_exists.1 hexec
  refine ⟨s, t, hs, ht, goal, hgoal, hstatus, ?_⟩
  refine safety_stop_is_sticky s t goal hgoal hstatus _ ht
    (Machine.meets_of_meetsTest _ (fun _ _ => not_resumes_of_resumesNothing) hresumes)
    (Machine.meets_of_meetsTest _ (fun s a hpass => ?_) hrevives)
  rintro ⟨input, context, found, hsyncs, -, hready, hparked⟩
  have htest := test_of_schedulesPass hpass hsyncs
  rcases hparked with hparked | hparked <;> simp [hready, hparked] at htest

/-- The goal that was stopped loses its context and gets it back, and is leased although nobody
resumed it. -/
theorem stopped_goal_leased_again :
    ∃ s t, sampleMachine.exec sampleStore (sampleExpiredRun 1) = some s ∧
      sampleMachine.exec s (sampleRegrant 1) = some t ∧
      ∃ goal ∈ s.goals, goal.sourceKind = .bundleSchedule ∧ goal.status = .safeStopped ∧
        sampleMachine.Meets (fun s a => ¬ Resumes goal.id s a) s (sampleRegrant 1) ∧
        ∃ run ∈ t.runs, run.goalId = goal.id ∧ ∀ old ∈ s.runs, old.id ≠ run.id := by
  have hrows : ∃ s, sampleMachine.exec sampleStore (sampleExpiredRun 1) = some s ∧
      sampleMachine.meetsTest resumesNothing s (sampleRegrant 1) ∧
      ∃ t, sampleMachine.exec s (sampleRegrant 1) = some t ∧
        ∃ goal ∈ s.goals, goal.sourceKind = .bundleSchedule ∧ goal.status = .safeStopped ∧
          ∃ run ∈ t.runs, run.goalId = goal.id ∧ ∀ old ∈ s.runs, old.id ≠ run.id := by
    decide +kernel
  obtain ⟨s, hs, hresumes, t, ht, goal, hgoal, hkind, hstopped, hrun⟩ := hrows
  exact ⟨s, t, hs, ht, goal, hgoal, hkind, hstopped,
    Machine.meets_of_meetsTest _ (fun _ _ => not_resumes_of_resumesNothing) hresumes, hrun⟩

end Gadgetron.Autonomy
