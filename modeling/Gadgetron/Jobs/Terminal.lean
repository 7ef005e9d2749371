import Gadgetron.Autonomy.Effect
import Gadgetron.Jobs.Execution

/-!
# Ends of leases

What `run_leased_job` does with an error, and `finish_bundle_event` with its summary: both put a
text into a row, which the store takes by its bytes and the database without NUL.
-/

namespace Gadgetron.Jobs

open Lib Worker Autonomy

/-- A text that a `TEXT` column takes. -/
def isStorable (text : String) : Bool := !text.toList.contains '\x00'

/-- The end of `run_leased_job` after an error. -/
def KnowledgeJobStore.runFailed (s : KnowledgeJobStore) (jobId : Uuid) (workerId : String)
    (error : AgentExecutionError) : KnowledgeJobStore :=
  if error.alreadyTerminal then s
  else if isStorable error.detail then s.after (s.fail jobId workerId error.detail error.retryable)
  else s

/-- The text that `finish_bundle_event` passes on: 2,000 characters at most. -/
def clipSummary (summary : String) : String := String.ofList (summary.toList.take 2000)

def finishBundleEvent (s : AutonomyStore) (lease : AutonomyLease) (workerId : String)
    (terminal : EventRunTerminal) (summary : String) (resultHash : Option String) : AutonomyStore :=
  if isStorable (clipSummary summary) then
    s.after (AutonomyStore.dropValue
      (s.finishEventRun lease workerId terminal (clipSummary summary) resultHash))
  else s

def finishInvalidEvent (s : AutonomyStore) (lease : AutonomyLease) (workerId summary : String) :
    AutonomyStore :=
  finishBundleEvent s lease workerId .policyFailure summary none

/-- The receipt that the scheduler gives with a terminal. -/
def HasReceipt (terminal : EventRunTerminal) (resultHash : Option String) : Prop :=
  match resultHash with
  | some hash => terminal = .succeeded ∧ Autonomy.isSha256 hash
  | none => terminal ≠ .succeeded

section

variable {s : KnowledgeJobStore} {jobId : Uuid} {workerId : String} {job : KnowledgeJobRow}

theorem status_finish_ne_running (now : ℤ) (job : KnowledgeJobRow) {update : TerminalUpdate}
    (h : update.status = .failed) : (job.finish now update).status ≠ .running := by
  unfold KnowledgeJobRow.finish
  dsimp only
  rw [h]
  split_ifs
  · simp
  · simp
  · simp

section

variable (howned : s.ownedRunningJob jobId workerId = .ok job)

include howned

theorem get_of_owned :
    s.jobs.get jobId = some job ∧ job.status = .running := by
  obtain ⟨howned, hid⟩ := KnowledgeJobStore.ownedRunningJob_eq_ok.1 howned
  exact ⟨Table.get_eq_some.2 ⟨howned.mem, hid⟩, howned.running⟩

theorem running_of_owned :
    (s.jobs.get jobId).map (·.status) = some .running := by
  obtain ⟨hget, hrunning⟩ := get_of_owned howned
  rw [hget, Option.map_some, hrunning]

theorem runFailed_terminal_iff {error : AgentExecutionError}
    (herror : error.alreadyTerminal = false) :
    ((s.runFailed jobId workerId error).jobs.get jobId).map (·.status) ≠ some .running ↔
      isShort 1024 error.detail ∧ isStorable error.detail := by
  unfold KnowledgeJobStore.runFailed
  rw [herror, if_neg Bool.false_ne_true]
  cases hstorable : isStorable error.detail with
  | false => simp [running_of_owned howned]
  | true =>
    rw [if_pos rfl]
    cases hshort : isShort 1024 error.detail with
    | false =>
      have hfail : s.after (s.fail jobId workerId error.detail error.retryable) = s := by
        unfold KnowledgeJobStore.fail require
        rw [hshort]
        rfl
      simp [hfail, running_of_owned howned]
    | true =>
      have hfail : (s.after (s.fail jobId workerId error.detail error.retryable)).jobs =
          s.jobs.put (job.finish s.now ⟨.failed, some error.detail, 0, 0, error.retryable⟩) := by
        unfold KnowledgeJobStore.fail KnowledgeJobStore.terminalTransition require
        rw [hshort, howned]
        rfl
      have hget := (get_of_owned howned).1
      obtain rfl : job.id = jobId := Table.key_of_get hget
      have hold : s.jobs.get (job.finish s.now
          ⟨.failed, some error.detail, 0, 0, error.retryable⟩).id = some job := hget
      rw [hfail, Table.get_put hold, if_pos (by rfl)]
      simpa using status_finish_ne_running s.now job rfl

end

end

section

variable {s : AutonomyStore} {lease : AutonomyLease} {workerId : String} {goal : AutonomyGoalRow}

theorem goalStatus_ne_running (terminal : EventRunTerminal) (goal : AutonomyGoalRow) :
    (AutonomyStore.eventStatuses terminal goal).2.1 ≠ .running := by
  unfold AutonomyStore.eventStatuses
  cases terminal with
  | providerFailure =>
    dsimp only
    split_ifs
    · simp
    · simp
  | succeeded | policyFailure | staleSubject => simp

theorem finishBundleEvent_terminal_iff
    (howned : s.assertOwnedLease lease.goal.id lease.run.id workerId = .ok goal)
    (hevent : goal.sourceKind = .bundleEvent) {terminal : EventRunTerminal}
    {resultHash : Option String} (hreceipt : HasReceipt terminal resultHash) (summary : String) :
    ((finishBundleEvent s lease workerId terminal summary resultHash).goals.get
        lease.goal.id).map (·.status) ≠ some .running ↔
      isShort 2000 (clipSummary summary) ∧ isStorable (clipSummary summary) := by
  obtain ⟨⟨⟨hmem, hrunning⟩, -⟩, hid⟩ := assertOwnedLease_ok howned
  have hget : s.goals.get lease.goal.id = some goal := Table.get_eq_some.2 ⟨hmem, hid⟩
  have hstatus : goal.status = .running := by
    simp only [AutonomyGoalRow.owned, Bool.and_eq_true, decide_eq_true_eq] at hrunning
    exact hrunning.1.1
  have hrefused : (s.goals.get lease.goal.id).map (·.status) = some .running := by
    rw [hget, Option.map_some, hstatus]
  have hchecks : (resultHash.all Autonomy.isSha256 &&
      decide (terminal = .succeeded) == resultHash.isSome) = true := by
    unfold HasReceipt at hreceipt
    cases resultHash with
    | none => simpa using hreceipt
    | some hash => simpa using hreceipt.symm
  unfold finishBundleEvent
  cases hstorable : isStorable (clipSummary summary) with
  | false => simp [hrefused]
  | true =>
    rw [if_pos rfl]
    cases hshort : isShort 2000 (clipSummary summary) with
    | false =>
      have hfail : s.after (AutonomyStore.dropValue
          (s.finishEventRun lease workerId terminal (clipSummary summary) resultHash)) = s := by
        unfold AutonomyStore.finishEventRun Autonomy.require bounded
        rw [hshort]
        rfl
      simp [hfail, hrefused]
    | true =>
      have hdone : (s.after (AutonomyStore.dropValue (s.finishEventRun lease workerId terminal
          (clipSummary summary) resultHash))).goals = s.goals.updateWhere
            (fun row => row.id = goal.id)
            (.finishEvent s.now (AutonomyStore.eventStatuses terminal goal).2.1
              (AutonomyStore.eventStatuses terminal goal).2.2.1 (clipSummary summary)) := by
        unfold AutonomyStore.finishEventRun Autonomy.require bounded
        rw [hshort, howned, Bool.true_and, hchecks]
        cases goal
        dsimp only at hevent
        subst hevent
        rfl
      have hrow := (congrArg (·.get lease.goal.id) hdone).trans
        (Table.get_updateWhere.trans (congrArg _ hget))
      rw [hrow, Option.map_some, if_pos (decide_eq_true rfl)]
      simpa [AutonomyGoalRow.finishEvent] using goalStatus_ne_running terminal goal

end

/-- A held lease comes to an end just when the text is not empty, is short enough in bytes after
the cut, and has no NUL. -/
theorem lease_terminalized_iff (s : KnowledgeJobStore) (s' : AutonomyStore) (workerId : String) :
    (∀ (jobId : Uuid) (job : KnowledgeJobRow) (error : AgentExecutionError),
      s.ownedRunningJob jobId workerId = .ok job → error.alreadyTerminal = false →
      (((s.runFailed jobId workerId error).jobs.get jobId).map (·.status) ≠ some .running ↔
        isShort 1024 error.detail ∧ isStorable error.detail)) ∧
    ∀ (lease : AutonomyLease) (goal : AutonomyGoalRow) (terminal : EventRunTerminal)
      (resultHash : Option String) (summary : String),
      s'.assertOwnedLease lease.goal.id lease.run.id workerId = .ok goal →
      goal.sourceKind = .bundleEvent → HasReceipt terminal resultHash →
      (((finishBundleEvent s' lease workerId terminal summary resultHash).goals.get
          lease.goal.id).map (·.status) ≠ some .running ↔
        isShort 2000 (clipSummary summary) ∧ isStorable (clipSummary summary)) :=
  ⟨fun _ _ _ howned herror => runFailed_terminal_iff howned herror,
    fun _ _ _ _ summary howned hevent hreceipt =>
      finishBundleEvent_terminal_iff howned hevent hreceipt summary⟩

/-! ## Texts that are too long -/

def sampleRunning : KnowledgeJobStore :=
  { KnowledgeJobStore.initial sampleAccess 0 with
    jobs := ⟨[{ KnowledgeJobRow.new 1 1 0 ⟨5, .researcher, 0, .object [], "key", [3],
          ⟨"codex_exec", "", "low", none, "default", "", "", "1", "1", none, none⟩, none,
          ⟨1000, 10, 60, 3⟩, none⟩ with
        status := .running
        leaseOwner := some "worker"
        leaseExpiresAt := some 1 }], by simp⟩ }

def sampleGoal : AutonomyGoalRow :=
  { AutonomyGoalRow.ofEvent 7 0 "key" ⟨1, "kind", "bundle", "subject", "target", "revision",
      .object [], "owner", "recipe", "", "role", "gadget", "goal", 5, 2, 20, "contributor", 60, 3,
      .object []⟩ with
    status := .running
    leaseOwner := some "worker"
    leaseExpiresAt := some 1 }

def sampleGoalLease : AutonomyLease :=
  ⟨sampleGoal, ⟨11, 1, 7, 1, .running, "worker", 5, 1, 2, 20, .contributor, "", "", .object [],
    none, .object [], .object [], none, none, none, none, [], 0, none⟩⟩

def sampleLeased : AutonomyStore :=
  { AutonomyStore.initial sampleAccess (fun _ => 1) 0 with
    goals := ⟨[sampleGoal], by simp⟩
    runs := ⟨[sampleGoalLease.run], by simp⟩ }

/-- What is returned for an output with an unknown field of 1,100 characters. -/
def sampleEcho : String :=
  String.ofList ("invalid Source Scout output: unknown field \x60".toList ++
    List.replicate 1100 'x' ++
    ("\x60, expected one of \x60title\x60, \x60summary\x60, \x60coverage_summary\x60, " ++
      "\x60gaps\x60, \x60candidates\x60").toList)

def sampleSummary : String := String.ofList (List.replicate 700 '가')

theorem lease_terminalized_sample :
    ((sampleRunning.runFailed 1 "worker" ⟨"cancelled-by-user", false, false⟩).jobs.get 1).map
        (·.status) ≠ some .running ∧
      ((finishInvalidEvent sampleLeased sampleGoalLease "worker" "event kind is absent").goals.get
        7).map (·.status) ≠ some .running :=
  have hiff := lease_terminalized_iff sampleRunning sampleLeased "worker"
  ⟨(hiff.1 1 _ ⟨"cancelled-by-user", false, false⟩ rfl rfl).2 (by decide +kernel),
    (hiff.2 sampleGoalLease sampleGoal .policyFailure none "event kind is absent" rfl rfl
      (by simp [HasReceipt])).2 (by decide +kernel)⟩

theorem isShort_sampleEcho : isShort 1024 sampleEcho = false := by
  have hsize : 1024 < sampleEcho.utf8ByteSize := by
    unfold sampleEcho
    rw [String.utf8ByteSize_ofList, String.utf8Len_append, String.utf8Len_append,
      utf8Len_replicate, show 'x'.utf8Size = 1 from rfl]
    omega
  simp [isShort, hsize]

theorem isShort_sampleSummary : isShort 2000 (clipSummary sampleSummary) = false := by
  have hsize : (clipSummary sampleSummary).utf8ByteSize = 700 * 3 := by
    unfold clipSummary sampleSummary
    rw [String.toList_ofList, List.take_replicate, Nat.min_eq_right (by decide),
      String.utf8ByteSize_ofList, utf8Len_replicate]
    decide
  simp [isShort, hsize]

theorem lease_not_terminalized : (sampleRunning.ownedRunningJob 1 "worker").isOk ∧
      ((sampleRunning.runFailed 1 "worker" ⟨sampleEcho, false, false⟩).jobs.get 1).map
        (·.status) = some .running ∧ (sampleLeased.assertOwnedLease 7 11 "worker").isOk ∧
      ((finishInvalidEvent sampleLeased sampleGoalLease "worker" sampleSummary).goals.get 7).map
        (·.status) = some .running := by
  refine ⟨rfl, ?_, rfl, ?_⟩
  · by_contra hne
    let error : AgentExecutionError := ⟨sampleEcho, false, false⟩
    have hshort := ((@runFailed_terminal_iff _ _ _ _ rfl error rfl).1 hne).1
    rw [isShort_sampleEcho] at hshort
    cases hshort
  · by_contra hne
    have hreceipt : HasReceipt .policyFailure none := by simp [HasReceipt]
    have hshort := ((@finishBundleEvent_terminal_iff _ sampleGoalLease _ sampleGoal rfl rfl _ _
      hreceipt sampleSummary).1 hne).1
    rw [isShort_sampleSummary] at hshort
    cases hshort

end Gadgetron.Jobs
