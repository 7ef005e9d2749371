import Gadgetron.Jobs.ChangeSet

/-!
# Workers that execute jobs

`run_leased_job`: a worker leases a job, runs its agent, writes what comes of the output
(`append_artifact`, `enqueue_gardener`, `append_change_set`) and at last calls `complete` or `fail`.
-/

namespace Gadgetron.Jobs.Worker

open Lib Policy Spaces

structure ArtifactInput where
  (kind title summary : String)
  (payload citations : Json)

structure KnowledgeJobArtifactRow where
  (id tenantId jobId spaceId : Uuid)
  (kind title summary : String)
  (payload citations : Json)
  contentHash : String

structure ChangeSetInput where
  candidateArtifactId : Option Uuid
  (title summary : String)
  (operations citations : Json)
  expectedGitRevision : Option String
  materializationKey : String

/-- A row of `knowledge_change_sets` as `append_change_set` inserts it. -/
structure ProposedChangeSet where
  (id tenantId jobId spaceId : Uuid)
  input : ChangeSetInput

/-- What `append_artifact` hashes. -/
def ArtifactInput.toJson (input : ArtifactInput) : Json :=
  .object
    [("kind", .string input.kind), ("title", .string input.title),
      ("summary", .string input.summary), ("payload", input.payload),
      ("citations", input.citations)]

def validateArtifact (input : ArtifactInput) : Except KnowledgeJobError Unit :=
  require (["source_proposal", "dossier", "partial_dossier", "candidate",
      "agent_output"].contains input.kind && trim input.title ≠ "" &&
      input.title.utf8ByteSize ≤ 300 && input.summary.utf8ByteSize ≤ 4000 &&
      isObject input.payload && (Json.asArray input.citations).isSome)
    "artifact shape is invalid"

def validateChangeSet (input : ChangeSetInput) : Except KnowledgeJobError Unit := do
  validateChangeSetFields input.title input.summary input.operations input.citations
  require (isShort 200 input.materializationKey) "change-set shape is invalid"

/-! ## Output of agents -/

inductive KnowledgeEvolutionTargetKind
  | lesson
  | insight
  deriving DecidableEq

/-- A candidate: `fields` are its other fields, as they are serialised. -/
structure KnowledgeEvolutionCandidate where
  targetKind : KnowledgeEvolutionTargetKind
  verifiedOutcomeIds : List Uuid
  fields : List (String × Json)

inductive KnowledgeEvolutionReadiness
  | readyForReview
  | needsOutcomeEvidence
  deriving DecidableEq

namespace KnowledgeEvolutionCandidate

def readiness (candidate : KnowledgeEvolutionCandidate) : KnowledgeEvolutionReadiness :=
  if candidate.targetKind = .insight ∧ candidate.verifiedOutcomeIds = [] then .needsOutcomeEvidence
  else .readyForReview

def toValue (dossierArtifactId : Uuid) (candidate : KnowledgeEvolutionCandidate) : Json :=
  .object
    ([("dossier_artifact_id", .string (Uuid.toText dossierArtifactId)),
      ("target_kind", .string (if candidate.targetKind = .lesson then "lesson" else "insight")),
      ("verified_outcome_ids",
        .array (candidate.verifiedOutcomeIds.map fun id => .string (Uuid.toText id)))] ++
      candidate.fields)

end KnowledgeEvolutionCandidate

structure ValidatedResearchOutput where
  (title summary : String)
  payload : Json
  (candidateTitle candidateSummary : String)
  citations : Json
  candidate : Option KnowledgeEvolutionCandidate

namespace ValidatedResearchOutput

def dossier (output : ValidatedResearchOutput) : ArtifactInput where
  kind := "dossier"
  title := output.title
  summary := output.summary
  payload := output.payload
  citations := output.citations

def candidateArtifact (output : ValidatedResearchOutput) (dossierArtifactId : Uuid) :
    ArtifactInput where
  kind := "candidate"
  title := output.candidateTitle
  summary := output.candidateSummary
  payload :=
    match output.candidate with
    | some candidate => candidate.toValue dossierArtifactId
    | none =>
      .object
        [("schema_version", .number "0"),
          ("dossier_artifact_id", .string (Uuid.toText dossierArtifactId)),
          ("legacy", .bool true)]
  citations := output.citations

def followedUp (output : ValidatedResearchOutput) : Bool :=
  output.candidate.all fun candidate => candidate.readiness = .readyForReview

end ValidatedResearchOutput

structure GardenerOutput where
  (title summary : String)
  (operations citations : Json)
  gitRevision : String

inductive AgentOutput
  | sourceScout (proposal : ArtifactInput)
  | research (output : ValidatedResearchOutput)
  | gardener (output : GardenerOutput)

/-! ## The follow-up job -/

/-- The `followup` of a `BundleExecutionSnapshot`; `value` is its own snapshot. -/
structure BundleFollowup where
  runtime : RuntimeSnapshot
  bundleRole : BundleRoleSnapshot
  maxWallSeconds : ℤ
  value : Json

structure JobDetails where
  actor : SpaceActor
  request : EnqueueKnowledgeJob

def gardenerKey (jobId : Uuid) : String := "gardener:" ++ Uuid.toText jobId

def gardenerInput (researchJobId : Uuid) (input : Json) (dossierArtifactId : Uuid)
    (candidateArtifactId : Option Uuid) (followup : Option BundleFollowup) : Json :=
  .object
    ([("question", (Json.get "question" input).getD .null),
      ("dossier_artifact_id", .string (Uuid.toText dossierArtifactId)),
      ("candidate_artifact_id",
        (candidateArtifactId.map fun id => Json.string (Uuid.toText id)).getD .null),
      ("research_job_id", .string (Uuid.toText researchJobId))] ++
      (["collection_binding", "outcomes", "originating_subject", "lesson_revision_target"].filterMap
        fun field => (Json.get field input).map fun value => (field, value)) ++
      (followup.map fun execution => ("bundle_execution", execution.value)).toList)

def gardenerRequest (researchJobId : Uuid) (research : EnqueueKnowledgeJob) (sourceIds : List Uuid)
    (dossierArtifactId : Uuid) (candidateArtifactId : Option Uuid)
    (followup : Option BundleFollowup) : EnqueueKnowledgeJob where
  spaceId := research.spaceId
  role := .gardener
  priority := research.priority
  input := gardenerInput researchJobId research.input dossierArtifactId candidateArtifactId followup
  idempotencyKey := gardenerKey researchJobId
  sourceIds := sourceIds
  runtime :=
    match followup with
    | some execution => execution.runtime
    | none =>
      { research.runtime with
        promptContractRevision :=
          if candidateArtifactId.isSome then "gardener-v2" else "gardener-v1"
        roleProfileSource := none
        roleProfileRef := none }
  bundleRole := followup.map (·.bundleRole)
  budget :=
    { research.budget with
      maxWallSeconds := (followup.map (·.maxWallSeconds)).getD research.budget.maxWallSeconds }
  scheduledAt := none

/-! ## Executions -/

structure AgentExecutionError where
  detail : String
  (retryable alreadyTerminal : Bool)

/-- Which statement of `run_leased_job` is due. -/
inductive Phase
  /-- The agent runs, with heartbeats. -/
  | agent
  | proposal (input : ArtifactInput)
  | dossier (output : ValidatedResearchOutput)
  | candidate (output : ValidatedResearchOutput) (dossierArtifactId : Uuid)
  /-- `enqueue_gardener`. -/
  | followUp (dossierArtifactId : Uuid) (candidateArtifactId : Option Uuid)
  | changeSet (input : ChangeSetInput)
  /-- `execute_job` has returned; `complete` or `fail` is due. -/
  | ended (result : Except AgentExecutionError Unit)

/-- A call of `run_leased_job`. -/
structure Execution where
  workerId : String
  jobId : Uuid
  details : JobDetails
  phase : Phase

/-- What the statement of a step finds: the id of a new row, the pinned sources, the outcome of the
other checks, and an error's text. -/
structure Answer where
  newId : Uuid
  sourceIds : Except KnowledgeJobError (List Uuid)
  pinned : Except KnowledgeJobError Unit
  detail : String

/-- The tables and the calls of `run_leased_job` that are under way. -/
structure WorkerStore where
  jobs : KnowledgeJobStore
  details : Uuid → Option JobDetails
  artifacts : Table KnowledgeJobArtifactRow.id
  changeSets : Table ProposedChangeSet.id
  executions : List Execution

def WorkerStore.initial (access : Registry) (now : ℤ) : WorkerStore where
  jobs := .initial access now
  details := fun _ => none
  artifacts := .empty
  changeSets := .empty
  executions := []

def jobError (error : KnowledgeJobError) (detail : String) : AgentExecutionError where
  detail := detail
  retryable := error = .database
  alreadyTerminal := false

structure Env where
  followup : EnqueueKnowledgeJob → Except AgentExecutionError (Option BundleFollowup)
  parse : String → Option Uuid
  jsonHash : Json → String
  limit : Uuid → ℕ

section

variable (env : Env)

def pinnedCandidate (input : Json) : Option Uuid :=
  ((Json.get "candidate_artifact_id" input).bind Json.asStr).bind env.parse

namespace WorkerStore

/-- The sources pinned to a job, with what else `validate_citations` reads of it. -/
def jobSources (s : WorkerStore) (job : KnowledgeJobRow) : JobSources where
  tenantId := job.tenantId
  spaceId := job.spaceId
  sourceIds := ((s.details job.id).map (·.request.sourceIds)).getD []

/-- `enqueue`, which keeps the columns of a new job. -/
def enqueue (s : WorkerStore) (call : EnqueueCall) : Except KnowledgeJobError WorkerStore := do
  let (jobs, job) ← s.jobs.enqueue call
  .ok
    { s with
      jobs
      details :=
        if (s.jobs.jobs.get job.id).isSome then s.details
        else Function.update s.details job.id (some ⟨call.actor, call.request⟩) }

def appendArtifact (s : WorkerStore) (jobId : Uuid) (workerId : String) (input : ArtifactInput)
    (newId : Uuid) : Except KnowledgeJobError (WorkerStore × Uuid) := do
  validateArtifact input
  let job ← s.jobs.ownedRunningJob jobId workerId
  ChangeSetStore.validateCitations env.parse (s.jobSources job) input.citations
  let contentHash := env.jsonHash input.toJson
  match s.artifacts.rows.find? fun row =>
      row.jobId = job.id && row.kind = input.kind && row.contentHash = contentHash with
  | some row =>
    .ok ({ s with artifacts := s.artifacts.put { row with title := input.title } }, row.id)
  | none =>
    match s.artifacts.insert
        { id := newId
          tenantId := job.tenantId
          jobId := job.id
          spaceId := job.spaceId
          kind := input.kind
          title := input.title
          summary := input.summary
          payload := input.payload
          citations := input.citations
          contentHash } with
    | none => .error .database
    | some artifacts => .ok ({ s with artifacts }, newId)

def candidateMatches (s : WorkerStore) (job : KnowledgeJobRow) (candidateArtifactId : Uuid) :
    Bool :=
  (s.artifacts.rows.any fun row =>
    row.tenantId = job.tenantId && row.spaceId = job.spaceId && row.id = candidateArtifactId &&
      row.kind = "candidate") &&
  (s.details job.id).any fun details =>
    pinnedCandidate env details.request.input = some candidateArtifactId

def taken (s : WorkerStore) (tenantId : Uuid) (input : ChangeSetInput) : Bool :=
  s.changeSets.rows.any fun row =>
    row.tenantId = tenantId && (row.input.materializationKey = input.materializationKey ||
      (input.candidateArtifactId.isSome &&
        row.input.candidateArtifactId = input.candidateArtifactId))

def appendChangeSet (s : WorkerStore) (jobId : Uuid) (workerId : String) (input : ChangeSetInput)
    (newId : Uuid) : Except KnowledgeJobError WorkerStore := do
  validateChangeSet input
  let job ← s.jobs.ownedRunningJob jobId workerId
  require ((s.details job.id).any fun details => details.request.role = .gardener)
    "only a Gardener job can create a change set"
  ChangeSetStore.validateCitations env.parse (s.jobSources job) input.citations
  require (input.candidateArtifactId.all (s.candidateMatches env job))
    "Gardener change set does not match its pinned Candidate"
  if s.changeSets.rows.any fun row => row.jobId = job.id then .ok s
  else if s.taken job.tenantId input then .error .database
  else
    match s.changeSets.insert ⟨newId, job.tenantId, job.id, job.spaceId, input⟩ with
    | none => .error .database
    | some changeSets => .ok { s with changeSets }

def gardenerCall (e : Execution) (dossierArtifactId : Uuid) (candidateArtifactId : Option Uuid)
    (answer : Answer) : Except AgentExecutionError EnqueueCall := do
  let sourceIds ← answer.sourceIds.mapError fun error => jobError error answer.detail
  let followup ← env.followup e.details.request
  .ok
    { actor := e.details.actor
      request :=
        gardenerRequest e.jobId e.details.request sourceIds dossierArtifactId candidateArtifactId
          followup
      pinned := answer.pinned
      newId := answer.newId }

def enqueueGardener (s : WorkerStore) (e : Execution) (dossierArtifactId : Uuid)
    (candidateArtifactId : Option Uuid) (answer : Answer) :
    Except AgentExecutionError WorkerStore := do
  let call ← gardenerCall env e dossierArtifactId candidateArtifactId answer
  (s.enqueue call).mapError fun error => jobError error answer.detail

/-! ## Steps of an execution -/

def changeSetInput (e : Execution) (output : GardenerOutput) : ChangeSetInput where
  candidateArtifactId := pinnedCandidate env e.details.request.input
  title := output.title
  summary := output.summary
  operations := output.operations
  citations := output.citations
  expectedGitRevision := some output.gitRevision
  materializationKey := gardenerKey e.jobId

def outputPhase (e : Execution) (output : AgentOutput) : Option Phase :=
  match e.details.request.role, output with
  | .sourceScout, .sourceScout proposal => some (.proposal proposal)
  | .researcher, .research output | .insightSynthesizer, .research output =>
    if output.candidate.isNone =
        decide (e.details.request.runtime.promptContractRevision = "researcher-v1") then
      some (.dossier output)
    else none
  | .gardener, .gardener output => some (.changeSet (changeSetInput env e output))
  | _, _ => none

def write (s : WorkerStore) (e : Execution) (answer : Answer) : Option (WorkerStore × Phase) :=
  let refused (error : KnowledgeJobError) : WorkerStore × Phase :=
    (s, .ended (.error (jobError error answer.detail)))
  match e.phase with
  | .agent | .ended _ => none
  | .proposal input =>
    match s.appendArtifact env e.jobId e.workerId input answer.newId with
    | .error error => some (refused error)
    | .ok (s, _) => some (s, .ended (.ok ()))
  | .dossier output =>
    match s.appendArtifact env e.jobId e.workerId output.dossier answer.newId with
    | .error error => some (refused error)
    | .ok (s, dossierArtifactId) => some (s, .candidate output dossierArtifactId)
  | .candidate output dossierArtifactId =>
    match s.appendArtifact env e.jobId e.workerId (output.candidateArtifact dossierArtifactId)
        answer.newId with
    | .error error => some (refused error)
    | .ok (s, candidateArtifactId) =>
      if output.followedUp then
        some (s, .followUp dossierArtifactId (output.candidate.map fun _ => candidateArtifactId))
      else some (s, .ended (.ok ()))
  | .followUp dossierArtifactId candidateArtifactId =>
    match s.enqueueGardener env e dossierArtifactId candidateArtifactId answer with
    | .error error => some (s, .ended (.error error))
    | .ok s => some (s, .ended (.ok ()))
  | .changeSet input =>
    match s.appendChangeSet env e.jobId e.workerId input answer.newId with
    | .error error => some (refused error)
    | .ok s => some (s, .ended (.ok ()))

/-- `heartbeat_or_stop`: the tables and the phase after it. -/
def heartbeat (s : WorkerStore) (e : Execution) (update : HeartbeatUpdate) (detail : String) :
    WorkerStore × Phase :=
  match s.jobs.heartbeat e.jobId e.workerId update with
  | .error error => (s, .ended (.error (jobError error detail)))
  | .ok (jobs, result) =>
    let s := { s with jobs }
    if result.budgetExceeded then
      (s, .ended (.error ⟨"job-budget-exceeded", false, true⟩))
    else if result.cancelRequested then
      (s, .ended (.error ⟨"cancelled-by-user", false, false⟩))
    else (s, .agent)

def settle (s : WorkerStore) (e : Execution) (usedTokens usedSources : ℤ) :
    Except AgentExecutionError Unit → WorkerStore
  | .ok () =>
    { s with jobs := s.jobs.after (s.jobs.complete e.jobId e.workerId usedTokens usedSources) }
  | .error error =>
    if error.alreadyTerminal then s
    else
      { s with
        jobs := s.jobs.after (s.jobs.fail e.jobId e.workerId error.detail error.retryable) }

def setPhase (s : WorkerStore) (index : ℕ) (e : Execution) (phase : Phase) : WorkerStore :=
  { s with executions := s.executions.set index { e with phase } }

def remove (s : WorkerStore) (index : ℕ) : WorkerStore :=
  { s with executions := s.executions.eraseIdx index }

end WorkerStore

/-! ## All workers and clients -/

/-- `index` is the place of an execution among those under way. -/
inductive WorkerLabel
  | access (registry : Registry)
  | tick (elapsed : ℕ)
  | enqueue (call : EnqueueCall)
  | requestCancel (actor : SpaceActor) (jobId : Uuid) (expectedRevision : ℕ)
  | retry (actor : SpaceActor) (jobId : Uuid) (expectedRevision : ℕ)
  /-- A worker asks for a job and starts on it. -/
  | leaseNext (call : LeaseCall)
  | heartbeat (index : ℕ) (update : HeartbeatUpdate) (detail : String)
  | output (index : ℕ) (output : AgentOutput)
  | write (index : ℕ) (answer : Answer)
  /-- `execute_job` returns an error: a check or the agent failed, or no reply to a statement came.
  -/
  | stop (index : ℕ) (error : AgentExecutionError)
  /-- `complete` or `fail`. -/
  | settle (index : ℕ) (usedTokens usedSources : ℤ)
  | crash (index : ℕ)

namespace WorkerStore

def lease (s : WorkerStore) (call : LeaseCall) : WorkerStore :=
  match s.jobs.leaseNext env.limit call with
  | .error _ => s
  | .ok (jobs, none) => { s with jobs }
  | .ok (jobs, some job) =>
    { s with
      jobs
      executions :=
        s.executions ++ ((s.details job.id).map fun details =>
          ({ workerId := call.workerId
             jobId := job.id
             details
             phase := .agent } : Execution)).toList }

end WorkerStore

abbrev workerMachine : Machine WorkerStore WorkerLabel where
  step s
    | .access registry => some { s with jobs := { s.jobs with access := registry } }
    | .tick elapsed => some { s with jobs := { s.jobs with now := s.jobs.now + elapsed } }
    | .enqueue call =>
      match s.enqueue call with
      | .ok s' => some s'
      | .error _ => some s
    | .requestCancel actor jobId expectedRevision =>
      some { s with
        jobs := s.jobs.after (s.jobs.requestCancel actor jobId expectedRevision) }
    | .retry actor jobId expectedRevision =>
      some { s with jobs := s.jobs.after (s.jobs.retry actor jobId expectedRevision) }
    | .leaseNext call => some (s.lease env call)
    | .heartbeat index update detail =>
      (s.executions[index]?).bind fun e =>
        match e.phase with
        | .agent =>
          let (s', phase) := s.heartbeat e update detail
          some (s'.setPhase index e phase)
        | _ => none
    | .output index output =>
      (s.executions[index]?).bind fun e =>
        match e.phase with
        | .agent => (WorkerStore.outputPhase env e output).map (s.setPhase index e)
        | _ => none
    | .write index answer =>
      (s.executions[index]?).bind fun e =>
        (s.write env e answer).map fun (s', phase) => s'.setPhase index e phase
    | .stop index error =>
      (s.executions[index]?).map fun e => s.setPhase index e (.ended (.error error))
    | .settle index usedTokens usedSources =>
      (s.executions[index]?).bind fun e =>
        match e.phase with
        | .ended result => some ((s.settle e usedTokens usedSources result).remove index)
        | _ => none
    | .crash index => (s.executions[index]?).map fun _ => s.remove index

end

end Gadgetron.Jobs.Worker
