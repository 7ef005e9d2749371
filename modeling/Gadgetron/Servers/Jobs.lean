import Gadgetron.Bundle.Id
import Gadgetron.Lib.Table
import Gadgetron.Policy.JsonValue

/-!
# Server jobs

`start_job`, `poll_job` and `cancel_job` of the Server Administrator runtime, and the task of a job.
-/

namespace Gadgetron.Servers.Jobs

open Lib Policy Gadgetron.Bundle

inductive ServerJobRecipe
  | dutyCycle
  | enrollment
  deriving DecidableEq

namespace ServerJobRecipe

def asStr : ServerJobRecipe → String
  | .dutyCycle => "server-duty-cycle"
  | .enrollment => "server-enrollment"

def parse (value : String) : Option ServerJobRecipe :=
  if value = "server-duty-cycle" then some .dutyCycle
  else if value = "server-enrollment" then some .enrollment
  else none

def progress (stage completed : String) : Json :=
  .object [("stage", .string stage), ("completed", .number completed), ("total", .number "6")]

def initialProgress : ServerJobRecipe → Json
  | .dutyCycle => progress "monitoring-observation" "0"
  | .enrollment => progress "commissioning" "0"

def completedProgress : ServerJobRecipe → Json
  | .dutyCycle => progress "complete" "6"
  | .enrollment => progress "active" "6"

end ServerJobRecipe

structure HostError where
  (code message : String)
  retryable : Bool

def hostError (code message : String) : HostError := ⟨code, message, false⟩

structure JobStartRequest where
  recipeId : String
  parameters : Json
  actorId : String
  brokerLease : Option String

structure JobRequest where
  recipe : ServerJobRecipe
  (targetId actorRef : String)

/-- What `start_job` checks; `Uuid::parse_str` is a parameter. -/
def JobStartRequest.check (parseStr : String → Option Uuid) (request : JobStartRequest) :
    Except HostError JobRequest :=
  match ServerJobRecipe.parse request.recipeId with
  | none => .error (hostError "job-recipe-not-found" "signed job recipe is not available")
  | some recipe =>
    match (request.parameters.textField "target_id").bind fun value =>
        (LocalId.new value).toOption with
    | none => .error (hostError "invalid-arguments" "Server job requires canonical target_id")
    | some targetId =>
      if recipe = .enrollment ∧
          ((request.parameters.textField "enrollment_id").bind parseStr).isNone then
        .error (hostError "invalid-arguments" "server-enrollment requires an enrollment_id UUID")
      else if request.brokerLease.isNone then
        .error (hostError "broker-lease-required" "Core did not attach a job-scoped broker lease")
      else .ok ⟨recipe, targetId.asStr, request.actorId⟩

/-! ## Rows -/

inductive JobStatus
  | queued
  | running
  | succeeded
  | failed
  | cancelled
  deriving DecidableEq

namespace JobStatus

def isOpen (status : JobStatus) : Bool := status = .queued || status = .running

end JobStatus

structure JobRun extends JobRequest where
  jobId : String
  status : JobStatus
  (progress result : Json)
  startedAt : String
  finishedAt : Option String

abbrev JobRuns := Table JobRun.jobId

/-- The filters of `reconcile_orphaned_job_runs`. -/
def JobRun.isOrphan (targetId : String) (row : JobRun) : Bool :=
  row.targetId = targetId && row.status = .running

def JobRun.orphaned (recoveredAt : String) (row : JobRun) : JobRun :=
  { row with
    status := .failed
    progress := .object [("stage", .string "failed"), ("reason", .string "orphaned-after-restart")]
    result := .object [("error", .object
      [("code", .string "job-orphaned-after-restart"), ("retryable", .bool true)])]
    finishedAt := some recoveredAt }

/-- The request carries the limit 1 and the statement no order, so `hit` is any one of the rows that
its filters meet, and `none` where they meet no row. -/
def canHit (rows : JobRuns) (targetId : String) : Option String → Bool
  | none => !rows.rows.any (JobRun.isOrphan targetId)
  | some jobId => (rows.get jobId).any (JobRun.isOrphan targetId)

def reconcileOrphanedJobRuns (rows : JobRuns) (targetId recoveredAt : String)
    (hit : Option String) : Option JobRuns :=
  if canHit rows targetId hit then
    some (rows.updateWhere (fun row => some row.jobId = hit) (JobRun.orphaned recoveredAt))
  else none

/-! ## Jobs in memory -/

structure RuntimeJobState extends JobRequest where
  status : JobStatus
  progress : Json
  result : Option Json
  startedAt : String

/-- What a run of the recipe comes to, as it is recorded. -/
structure Outcome where
  status : JobStatus
  (progress output : Json)
  finishedAt : String

def Outcome.of (recipe : ServerJobRecipe) (result : Except HostError Json) (finishedAt : String) :
    Outcome :=
  match result with
  | .ok output => ⟨.succeeded, recipe.completedProgress, output, finishedAt⟩
  | .error error =>
    ⟨.failed, .object [("stage", .string "failed")],
      .object [("error", .object [("code", .string error.code),
        ("message", .string error.message), ("retryable", .bool error.retryable)])], finishedAt⟩

inductive TaskStage
  | running
  | returned (outcome : Outcome)
  /-- The outcome is recorded, and the job in memory is not changed. -/
  | persisted (outcome : Outcome)

structure Task extends JobRequest where
  startedAt : String
  stage : TaskStage

def Task.run (task : Task) (jobId : String) (outcome : Outcome) : JobRun where
  toJobRequest := task.toJobRequest
  jobId := jobId
  status := outcome.status
  progress := outcome.progress
  result := outcome.output
  startedAt := task.startedAt
  finishedAt := some outcome.finishedAt

def JobRequest.run (request : JobRequest) (jobId startedAt : String) : JobRun where
  toJobRequest := request
  jobId := jobId
  status := .running
  progress := request.recipe.initialProgress
  result := .null
  startedAt := startedAt
  finishedAt := none

def RuntimeJobState.cancelledRun (job : RuntimeJobState) (jobId finishedAt : String) : JobRun where
  toJobRequest := job.toJobRequest
  jobId := jobId
  status := .cancelled
  progress := job.progress
  result := .null
  startedAt := job.startedAt
  finishedAt := some finishedAt

inductive Pending
  /-- `start_job` has reconciled the rows. -/
  | reconciled (jobId startedAt : String) (request : JobRequest)
  /-- `start_job` has recorded the row. -/
  | recorded (jobId startedAt : String) (request : JobRequest)
  /-- `cancel_job` has changed the job in memory. -/
  | cancelling (jobId : String) (job : RuntimeJobState)

structure State where
  rows : JobRuns
  jobs : String → Option RuntimeJobState
  tasks : String → Option Task
  pending : Option Pending

namespace State

/-- A runtime that has just started, with the rows that are there. -/
def new (rows : JobRuns) : State := ⟨rows, fun _ => none, fun _ => none, none⟩

def setJob (s : State) (jobId : String) (job : RuntimeJobState) : State :=
  { s with jobs := Function.update s.jobs jobId (some job) }

def setTask (s : State) (jobId : String) (task : Option Task) : State :=
  { s with tasks := Function.update s.tasks jobId task }

end State

inductive Label
  /-- `start_job` up to its first broker request, which takes the row `hit`; `uuid` is new. -/
  | start (request : JobStartRequest) (uuid now : String) (hit : Option String)
  /-- Its second one. -/
  | record
  /-- The task is spawned, the job is inserted, and the task gets its start signal. -/
  | spawn
  | poll (jobId : String)
  /-- `cancel_job` while it holds the lock on the jobs. -/
  | cancel (jobId : String) (reason : Option String)
  | recordCancelled (now : String)
  | finish (jobId : String) (result : Except HostError Json) (now : String)
  | persist (jobId : String)
  | settle (jobId : String)
  /-- A task that is aborted is dropped where it waits. -/
  | drop (jobId : String)

namespace State

def poll (s : State) (jobId : String) : Except HostError (JobStatus × Json × Option Json) :=
  match s.jobs jobId with
  | none => .error (hostError "job-not-found" "Server Administrator job does not exist")
  | some job => .ok (job.status, job.progress, job.result)

/-- `cancel_job` while it holds the lock; a job that has ended is only reported. -/
def cancel (s : State) (jobId : String) (reason : Option String) : State :=
  match s.jobs jobId with
  | none => s
  | some job =>
    if job.status.isOpen then
      let job := { job with
        status := .cancelled
        progress := .object [("stage", .string "cancelled"),
          ("reason", .string (reason.getD "cancelled by Manager"))] }
      { s.setJob jobId job with pending := some (.cancelling jobId job) }
    else s

/-- The end of a task: a job that is cancelled stays so. -/
def settle (s : State) (jobId : String) (outcome : Outcome) : State :=
  match s.jobs jobId with
  | none => s.setTask jobId none
  | some job =>
    if job.status = .cancelled then s.setTask jobId none
    else
      (s.setJob jobId { job with
        status := outcome.status
        progress := outcome.progress
        result := some outcome.output }).setTask jobId none

def aborted (s : State) (jobId : String) : Bool :=
  (s.jobs jobId).any fun job => job.status = .cancelled

end State

abbrev runtime (parseStr : String → Option Uuid) : Machine State Label where
  step s
    | .start request uuid now hit =>
      if s.pending.isSome then none
      else
        match request.check parseStr with
        | .error _ => some s
        | .ok job =>
          let jobId := job.recipe.asStr ++ "-" ++ uuid
          if (s.jobs jobId).isSome then none
          else
            (reconcileOrphanedJobRuns s.rows job.targetId now hit).map fun rows =>
              { s with rows := rows, pending := some (.reconciled jobId now job) }
    | .record =>
      match s.pending with
      | some (.reconciled jobId startedAt job) =>
        some { s with
          rows := s.rows.upsert (job.run jobId startedAt)
          pending := some (.recorded jobId startedAt job) }
      | _ => none
    | .spawn =>
      match s.pending with
      | some (.recorded jobId startedAt job) =>
        let s := s.setJob jobId ⟨job, .running, job.recipe.initialProgress, none, startedAt⟩
        some { s.setTask jobId (some ⟨job, startedAt, .running⟩) with pending := none }
      | _ => none
    | .poll _ => if s.pending.isSome then none else some s
    | .cancel jobId reason => if s.pending.isSome then none else some (s.cancel jobId reason)
    | .recordCancelled now =>
      match s.pending with
      | some (.cancelling jobId job) =>
        some { s with rows := s.rows.upsert (job.cancelledRun jobId now), pending := none }
      | _ => none
    | .finish jobId result now =>
      match s.tasks jobId with
      | some ⟨job, startedAt, .running⟩ =>
        some (s.setTask jobId (some ⟨job, startedAt, .returned (.of job.recipe result now)⟩))
      | _ => none
    | .persist jobId =>
      match s.tasks jobId with
      | some ⟨job, startedAt, .returned outcome⟩ =>
        let task : Task := ⟨job, startedAt, .persisted outcome⟩
        some { s.setTask jobId (some task) with
          rows := s.rows.upsert (task.run jobId outcome) }
      | _ => none
    | .settle jobId =>
      match s.tasks jobId with
      | some ⟨_, _, .persisted outcome⟩ => some (s.settle jobId outcome)
      | _ => none
    | .drop jobId =>
      if (s.tasks jobId).isSome ∧ s.aborted jobId then some (s.setTask jobId none) else none

end Gadgetron.Servers.Jobs
