import Gadgetron.Lib.Table
import Gadgetron.Policy.Input
import Gadgetron.Spaces.Access

/-!
# The store of knowledge jobs

`enqueue`, `request_cancel`, `retry`, `lease_next`, `heartbeat`, `complete` and `fail` on the rows
of `knowledge_jobs`.
-/

namespace Gadgetron.Jobs

open Lib Policy Spaces Except

inductive JobStatus
  | queued
  | running
  | succeeded
  | failed
  | cancelled
  deriving DecidableEq

/-- `KnowledgeJobError`; what the service principal says is a text. -/
inductive KnowledgeJobError
  | database
  | space (error : KnowledgeSpaceError)
  | servicePrincipal (error : String)
  | invalidInput (reason : String)
  | notFound
  | conflict
  | leaseLost
  deriving DecidableEq

structure KnowledgeJobRow where
  (id tenantId spaceId : Uuid)
  status : JobStatus
  priority : ℤ
  idempotencyKey : String
  (maxTokens maxSources usedTokens usedSources progressPercent : ℤ)
  checkpoint : Json
  (attempt maxAttempts : ℕ)
  scheduledAt : ℤ
  leaseOwner : Option String
  (leaseExpiresAt heartbeatAt cancelRequestedAt : Option ℤ)
  terminalReason : Option String
  revision : ℕ
  createdAt : ℤ
  (startedAt finishedAt : Option ℤ)

structure Lease where
  jobId : Uuid
  attempt : ℕ
  workerId : String
  expiresAt : ℤ
  ended : Bool

structure KnowledgeJobStore where
  access : Registry
  now : ℤ
  jobs : Table KnowledgeJobRow.id
  leases : List Lease

def KnowledgeJobStore.initial (access : Registry) (now : ℤ) : KnowledgeJobStore where
  access := access
  now := now
  jobs := .empty
  leases := []

/-- `make_interval(secs => n)`. -/
def seconds (n : ℤ) : ℤ := n * 1000000

/-! ## Jobs to enqueue -/

inductive KnowledgeJobRole
  | sourceScout
  | researcher
  | insightSynthesizer
  | gardener
  deriving DecidableEq

structure RuntimeSnapshot where
  (backend model effort : String)
  endpointId : Option Uuid
  (modelSource localBaseUrl localApiKeyEnv promptContractRevision toolPolicyRevision : String)
  (roleProfileSource roleProfileRef : Option String)

structure BundleRoleSnapshot where
  (bundleId bundleRoleId packageManifestSha256 recipeAssetId recipeSha256 : String)

structure JobBudget where
  (maxTokens maxSources maxWallSeconds : ℤ)
  maxAttempts : ℕ

structure EnqueueKnowledgeJob where
  spaceId : Uuid
  role : KnowledgeJobRole
  priority : ℤ
  input : Json
  idempotencyKey : String
  sourceIds : List Uuid
  runtime : RuntimeSnapshot
  bundleRole : Option BundleRoleSnapshot
  budget : JobBudget
  scheduledAt : Option ℤ

def isObject : Json → Bool
  | .object _ => true
  | _ => false

def isLowerSha256 (value : String) : Bool :=
  value.utf8ByteSize == 64 && value.toList.all fun c => c.isDigit || ('a' ≤ c && c ≤ 'f')

/-- A text that is not empty and has at most `bound` bytes. -/
def isShort (bound : ℕ) (value : String) : Bool :=
  value ≠ "" && value.utf8ByteSize ≤ bound

def require (holds : Bool) (reason : String) : Except KnowledgeJobError Unit :=
  if holds then .ok () else .error (.invalidInput reason)

def RuntimeSnapshot.profileValid (runtime : RuntimeSnapshot) : Bool :=
  match runtime.roleProfileSource, runtime.roleProfileRef with
  | none, none => true
  | some source, some profileRef =>
    ["global", "core", "bundle"].contains source && isLowerSha256 profileRef
  | _, _ => false

def BundleRoleSnapshot.valid (snapshot : BundleRoleSnapshot) : Bool :=
  isShort 128 snapshot.bundleId && isShort 128 snapshot.bundleRoleId &&
    isShort 128 snapshot.recipeAssetId && isLowerSha256 snapshot.packageManifestSha256 &&
    isLowerSha256 snapshot.recipeSha256

def validateEnqueue (request : EnqueueKnowledgeJob) : Except KnowledgeJobError Unit := do
  let runtime := request.runtime
  require (isObject request.input) "job input must be an object"
  require (isShort 200 request.idempotencyKey) "idempotency key is empty or too long"
  require (request.sourceIds ≠ [] || request.role = .sourceScout)
    "Knowledge evolution jobs require at least one pinned source"
  require (["claude_code", "codex_exec"].contains runtime.backend &&
      ["low", "medium", "high", "xhigh", "max", "ultra"].contains runtime.effort)
    "runtime backend or effort is unsupported"
  require (["default", "local"].contains runtime.modelSource &&
      (runtime.modelSource == "local") == runtime.endpointId.isSome &&
      runtime.model.utf8ByteSize ≤ 200 && runtime.localBaseUrl.utf8ByteSize ≤ 2048 &&
      runtime.localApiKeyEnv.utf8ByteSize ≤ 128)
    "runtime model source or endpoint snapshot is invalid"
  require runtime.profileValid "role profile snapshot is incomplete or invalid"
  require (request.bundleRole.all fun snapshot => runtime.roleProfileRef.isSome && snapshot.valid)
    "Bundle AI role snapshot is invalid"
  require (runtime.roleProfileSource ≠ some "bundle" || request.bundleRole.isSome)
    "a Bundle role profile requires a signed Bundle role snapshot"
  require (isShort 64 runtime.promptContractRevision && isShort 256 runtime.toolPolicyRevision &&
      (256 ≤ request.budget.maxTokens && request.budget.maxTokens ≤ 200000) &&
      (1 ≤ request.budget.maxSources && request.budget.maxSources ≤ 100) &&
      (5 ≤ request.budget.maxWallSeconds && request.budget.maxWallSeconds ≤ 3600) &&
      (1 ≤ request.budget.maxAttempts && request.budget.maxAttempts ≤ 10) &&
      (-100 ≤ request.priority && request.priority ≤ 100))
    "runtime revision, priority or budget is outside supported bounds"

/-! ## Calls -/

/-- A call of `enqueue`: `pinned` is what comes of checking what the job refers to, and `newId` the
id that a new row would get. -/
structure EnqueueCall where
  actor : SpaceActor
  request : EnqueueKnowledgeJob
  pinned : Except KnowledgeJobError Unit
  newId : Uuid

structure LeaseCall where
  workerId : String
  leaseSeconds : ℤ
  (lockedJobs lockedTenants : List Uuid)

structure HeartbeatUpdate where
  (leaseSeconds progressPercent : ℤ)
  checkpoint : Json
  (usedTokens usedSources : ℤ)

/-- The input check of `heartbeat`. -/
def HeartbeatUpdate.valid (update : HeartbeatUpdate) : Bool :=
  isObject update.checkpoint && (0 ≤ update.progressPercent && update.progressPercent ≤ 100) &&
    0 ≤ update.usedTokens && 0 ≤ update.usedSources

structure TerminalUpdate where
  status : JobStatus
  reason : Option String
  (usedTokens usedSources : ℤ)
  retryable : Bool

structure HeartbeatResult where
  job : KnowledgeJobRow
  (cancelRequested budgetExceeded : Bool)

/-! ## What the statements write -/

namespace KnowledgeJobRow

/-- In the index `knowledge_jobs_active_idempotency`. -/
def active (job : KnowledgeJobRow) : Bool := job.status = .queued || job.status = .running

def terminal (job : KnowledgeJobRow) : Bool := !job.active

def unexpired (now : ℤ) (job : KnowledgeJobRow) : Bool := job.leaseExpiresAt.any fun t => now < t

def expired (now : ℤ) (job : KnowledgeJobRow) : Bool := job.leaseExpiresAt.any fun t => t ≤ now

variable {job : KnowledgeJobRow}

theorem unexpired_iff {now : ℤ} :
    job.unexpired now ↔ ∃ t, job.leaseExpiresAt = some t ∧ now < t := by
  simp [unexpired, Option.any_eq_true]

theorem expired_iff {now : ℤ} : job.expired now ↔ ∃ t, job.leaseExpiresAt = some t ∧ t ≤ now := by
  simp [expired, Option.any_eq_true]

def new (id tenantId : Uuid) (now : ℤ) (request : EnqueueKnowledgeJob) : KnowledgeJobRow where
  id := id
  tenantId := tenantId
  spaceId := request.spaceId
  status := .queued
  priority := request.priority
  idempotencyKey := request.idempotencyKey
  maxTokens := request.budget.maxTokens
  maxSources := request.budget.maxSources
  usedTokens := 0
  usedSources := 0
  progressPercent := 0
  checkpoint := .object []
  attempt := 0
  maxAttempts := request.budget.maxAttempts
  scheduledAt := request.scheduledAt.getD now
  leaseOwner := none
  leaseExpiresAt := none
  heartbeatAt := none
  cancelRequestedAt := none
  terminalReason := none
  revision := 1
  createdAt := now
  startedAt := none
  finishedAt := none

/-- The `UPDATE` of `request_cancel`. -/
def cancel (now : ℤ) (job : KnowledgeJobRow) : KnowledgeJobRow :=
  { job with
    cancelRequestedAt := job.cancelRequestedAt.or (some now)
    status := if job.status = .queued then .cancelled else job.status
    finishedAt := if job.status = .queued then some now else job.finishedAt
    terminalReason := if job.status = .queued then some "cancelled-by-user" else job.terminalReason
    revision := job.revision + 1 }

/-- The `UPDATE` of `retry`. -/
def requeue (now : ℤ) (job : KnowledgeJobRow) : KnowledgeJobRow :=
  { job with
    status := .queued
    scheduledAt := now
    leaseOwner := none
    leaseExpiresAt := none
    heartbeatAt := none
    cancelRequestedAt := none
    terminalReason := none
    finishedAt := none
    progressPercent := 0
    revision := job.revision + 1 }

/-- The `UPDATE` of `lease_next`. -/
def lease (now : ℤ) (workerId : String) (leaseSeconds : ℤ) (job : KnowledgeJobRow) :
    KnowledgeJobRow :=
  { job with
    status := .running
    leaseOwner := some workerId
    leaseExpiresAt := some (now + seconds leaseSeconds)
    heartbeatAt := some now
    attempt := job.attempt + 1
    startedAt := job.startedAt.or (some now)
    revision := job.revision + 1 }

def overBudget (update : HeartbeatUpdate) (job : KnowledgeJobRow) : Bool :=
  update.usedTokens > job.maxTokens || update.usedSources > job.maxSources

def beat (now : ℤ) (update : HeartbeatUpdate) (job : KnowledgeJobRow) : KnowledgeJobRow :=
  { job with
    heartbeatAt := some now
    leaseExpiresAt := some (now + seconds update.leaseSeconds)
    progressPercent := update.progressPercent
    checkpoint := update.checkpoint
    usedTokens := update.usedTokens
    usedSources := update.usedSources
    revision := job.revision + 1 }

def finish (now : ℤ) (update : TerminalUpdate) (job : KnowledgeJobRow) : KnowledgeJobRow :=
  let again : Bool := update.retryable && job.attempt < job.maxAttempts
  { job with
    status :=
      if job.cancelRequestedAt.isSome then .cancelled
      else if again then .queued
      else update.status
    scheduledAt :=
      if again then now + seconds (min 60 (job.attempt * job.attempt)) else job.scheduledAt
    terminalReason := update.reason
    usedTokens := max job.usedTokens update.usedTokens
    usedSources := max job.usedSources update.usedSources
    progressPercent := if update.status = .succeeded then 100 else job.progressPercent
    leaseOwner := none
    leaseExpiresAt := none
    heartbeatAt := none
    finishedAt := if job.cancelRequestedAt.isSome || !again then some now else none
    revision := job.revision + 1 }

end KnowledgeJobRow

/-- `ORDER BY j.priority DESC, j.scheduled_at, j.created_at, j.id`. -/
def leaseOrder (a b : KnowledgeJobRow) : Ordering :=
  (compare b.priority a.priority).then
    ((compare a.scheduledAt b.scheduledAt).then
      ((compare a.createdAt b.createdAt).then (compare a.id.toNat b.id.toNat)))

/-! ## Access to Spaces -/

def requireVisibleSpace (access : Registry) (actor : SpaceActor) (spaceId : Uuid) :
    Except KnowledgeJobError Unit :=
  match access.requireRole actor spaceId .viewer false with
  | .ok _ => .ok ()
  | .error .notFound | .error .forbidden => .error .notFound
  | .error e => .error (.space e)

/-- The role that a call which changes something asks for. -/
def requireContributor (access : Registry) (actor : SpaceActor) (spaceId : Uuid) :
    Except KnowledgeJobError Unit :=
  match access.requireRole actor spaceId .contributor true with
  | .ok _ => .ok ()
  | .error e => .error (.space e)

/-! ## The operations -/

namespace KnowledgeJobStore

def reviseLease (s : KnowledgeJobStore) (job : KnowledgeJobRow) (f : Lease → Lease) : List Lease :=
  s.leases.map fun l => if l.jobId = job.id ∧ l.attempt = job.attempt then f l else l

/-- The lease has neither ended nor expired. -/
def Holds (s : KnowledgeJobStore) (l : Lease) : Prop := l.ended = false ∧ s.now < l.expiresAt

def leaseCount (s : KnowledgeJobStore) (jobId : Uuid) : ℕ := s.leases.countP (·.jobId = jobId)

/-- How many jobs of the tenant run with a lease that has not expired. -/
def activeCount (s : KnowledgeJobStore) (tenantId : Uuid) : ℕ :=
  s.jobs.rows.countP fun job =>
    job.tenantId = tenantId && job.status = .running && job.unexpired s.now

def activeJob (s : KnowledgeJobStore) (tenantId : Uuid) (idempotencyKey : String) :
    Option KnowledgeJobRow :=
  s.jobs.rows.find? fun job =>
    job.tenantId = tenantId && job.idempotencyKey = idempotencyKey && job.active

def getJob (s : KnowledgeJobStore) (actor : SpaceActor) (jobId : Uuid) :
    Except KnowledgeJobError KnowledgeJobRow :=
  match (s.jobs.get jobId).filter fun job => job.tenantId = actor.tenantId with
  | none => .error .notFound
  | some job => do
    requireVisibleSpace s.access actor job.spaceId
    .ok job

def ownedRunningJob (s : KnowledgeJobStore) (jobId : Uuid) (workerId : String) :
    Except KnowledgeJobError KnowledgeJobRow :=
  match (s.jobs.get jobId).filter fun job =>
      job.status = .running && job.leaseOwner = some workerId && job.unexpired s.now with
  | none => .error .leaseLost
  | some job => .ok job

def enqueue (s : KnowledgeJobStore) (call : EnqueueCall) :
    Except KnowledgeJobError (KnowledgeJobStore × KnowledgeJobRow) := do
  validateEnqueue call.request
  requireContributor s.access call.actor call.request.spaceId
  call.pinned
  match s.activeJob call.actor.tenantId call.request.idempotencyKey with
  | some job => .ok (s, job)
  | none =>
    let job := KnowledgeJobRow.new call.newId call.actor.tenantId s.now call.request
    match s.jobs.insert job with
    | none => .error .database
    | some jobs => .ok ({ s with jobs }, job)

def requestCancel (s : KnowledgeJobStore) (actor : SpaceActor) (jobId : Uuid)
    (expectedRevision : ℕ) : Except KnowledgeJobError (KnowledgeJobStore × KnowledgeJobRow) := do
  let job ← s.getJob actor jobId
  requireContributor s.access actor job.spaceId
  if job.revision = expectedRevision ∧ job.active then
    .ok ({ s with jobs := s.jobs.put (job.cancel s.now) }, job.cancel s.now)
  else .error .conflict

/-- `retry`; the unique index may refuse the job. -/
def retry (s : KnowledgeJobStore) (actor : SpaceActor) (jobId : Uuid) (expectedRevision : ℕ) :
    Except KnowledgeJobError (KnowledgeJobStore × KnowledgeJobRow) := do
  let job ← s.getJob actor jobId
  requireContributor s.access actor job.spaceId
  if job.revision = expectedRevision ∧ (job.status = .failed ∨ job.status = .cancelled) ∧
      job.attempt < job.maxAttempts then
    if (s.activeJob job.tenantId job.idempotencyKey).isSome then .error .database
    else .ok ({ s with jobs := s.jobs.put (job.requeue s.now) }, job.requeue s.now)
  else .error .conflict

def terminalTransition (s : KnowledgeJobStore) (jobId : Uuid) (workerId : String)
    (update : TerminalUpdate) : Except KnowledgeJobError (KnowledgeJobStore × KnowledgeJobRow) := do
  let job ← s.ownedRunningJob jobId workerId
  .ok
    ({ s with
        jobs := s.jobs.put (job.finish s.now update)
        leases := s.reviseLease job fun l => { l with ended := true } },
      job.finish s.now update)

def heartbeat (s : KnowledgeJobStore) (jobId : Uuid) (workerId : String)
    (update : HeartbeatUpdate) :
    Except KnowledgeJobError (KnowledgeJobStore × HeartbeatResult) := do
  require (HeartbeatUpdate.valid update) "heartbeat progress, usage or checkpoint is invalid"
  let current ← s.ownedRunningJob jobId workerId
  if current.overBudget update then
    let (s, job) ← s.terminalTransition jobId workerId
      { status := .failed
        reason := some "job-budget-exceeded"
        usedTokens := update.usedTokens
        usedSources := update.usedSources
        retryable := false }
    .ok (s, { job, cancelRequested := false, budgetExceeded := true })
  else
    let job := current.beat s.now update
    .ok
      ({ s with
          jobs := s.jobs.put job
          leases := s.reviseLease current fun l =>
            { l with expiresAt := s.now + seconds update.leaseSeconds } },
        { job
          cancelRequested := job.cancelRequestedAt.isSome
          budgetExceeded := false })

def complete (s : KnowledgeJobStore) (jobId : Uuid) (workerId : String)
    (usedTokens usedSources : ℤ) : Except KnowledgeJobError (KnowledgeJobStore × KnowledgeJobRow) :=
  s.terminalTransition jobId workerId
    { status := .succeeded
      reason := none
      usedTokens
      usedSources
      retryable := false }

def fail (s : KnowledgeJobStore) (jobId : Uuid) (workerId reason : String) (retryable : Bool) :
    Except KnowledgeJobError (KnowledgeJobStore × KnowledgeJobRow) := do
  require (isShort 1024 reason) "terminal reason is empty or too long"
  s.terminalTransition jobId workerId
    { status := .failed
      reason := some reason
      usedTokens := 0
      usedSources := 0
      retryable }

section

variable (limit : Uuid → ℕ)

/-- The `WHERE` of `candidate`; `limit` is `knowledge_job_concurrency_limit`.  A job that is taken
over is not counted against it. -/
def leasable (s : KnowledgeJobStore) (job : KnowledgeJobRow) : Bool :=
  job.cancelRequestedAt = none && job.attempt < job.maxAttempts && job.scheduledAt ≤ s.now &&
    ((job.status = .running && job.expired s.now) ||
      (job.status = .queued && s.activeCount job.tenantId < limit job.tenantId))

/-- `candidate`: the first row that is leasable and not locked. -/
def candidate (s : KnowledgeJobStore) (call : LeaseCall) : Option KnowledgeJobRow :=
  s.jobs.first leaseOrder fun job =>
    s.leasable limit job && !call.lockedJobs.contains job.id &&
      !call.lockedTenants.contains job.tenantId

def grant (s : KnowledgeJobStore) (job : KnowledgeJobRow) (call : LeaseCall) : KnowledgeJobStore :=
  { s with
    jobs := s.jobs.put (job.lease s.now call.workerId call.leaseSeconds)
    leases :=
      { jobId := job.id
        attempt := job.attempt + 1
        workerId := call.workerId
        expiresAt := s.now + seconds call.leaseSeconds
        ended := false } :: s.leases }

/-- The input check of `lease_next`. -/
def LeaseCall.valid (call : LeaseCall) : Bool :=
  isShort 128 call.workerId && (5 ≤ call.leaseSeconds && call.leaseSeconds ≤ 300)

def leaseNext (s : KnowledgeJobStore) (call : LeaseCall) :
    Except KnowledgeJobError (KnowledgeJobStore × Option KnowledgeJobRow) := do
  require (LeaseCall.valid call) "worker id or lease duration is outside the supported bounds"
  match s.candidate limit call with
  | none => .ok (s, none)
  | some job =>
    .ok (s.grant job call, some (job.lease s.now call.workerId call.leaseSeconds))

end

end KnowledgeJobStore

/-! ## The store under all its callers -/

inductive JobLabel
  /-- The tables that roles are read from change. -/
  | access (registry : Registry)
  /-- Time passes. -/
  | tick (elapsed : ℕ)
  | enqueue (call : EnqueueCall)
  | requestCancel (actor : SpaceActor) (jobId : Uuid) (expectedRevision : ℕ)
  | retry (actor : SpaceActor) (jobId : Uuid) (expectedRevision : ℕ)
  | leaseNext (call : LeaseCall)
  | heartbeat (jobId : Uuid) (workerId : String) (update : HeartbeatUpdate)
  | complete (jobId : Uuid) (workerId : String) (usedTokens usedSources : ℤ)
  | fail (jobId : Uuid) (workerId reason : String) (retryable : Bool)

/-- The store after a call, which is the one before it if the call fails. -/
def KnowledgeJobStore.after {α : Type} (s : KnowledgeJobStore)
    (result : Except KnowledgeJobError (KnowledgeJobStore × α)) : KnowledgeJobStore :=
  match result with
  | .ok (s', _) => s'
  | .error _ => s

abbrev jobMachine (limit : Uuid → ℕ) : Machine KnowledgeJobStore JobLabel where
  step s
    | .access registry => some { s with access := registry }
    | .tick elapsed => some { s with now := s.now + elapsed }
    | .enqueue call => some (s.after (s.enqueue call))
    | .requestCancel actor jobId expectedRevision =>
      some (s.after (s.requestCancel actor jobId expectedRevision))
    | .retry actor jobId expectedRevision => some (s.after (s.retry actor jobId expectedRevision))
    | .leaseNext call => some (s.after (s.leaseNext limit call))
    | .heartbeat jobId workerId update => some (s.after (s.heartbeat jobId workerId update))
    | .complete jobId workerId usedTokens usedSources =>
      some (s.after (s.complete jobId workerId usedTokens usedSources))
    | .fail jobId workerId reason retryable =>
      some (s.after (s.fail jobId workerId reason retryable))

/-! ## What a step does -/

namespace KnowledgeJobStore

/-- The worker has an unexpired lease on the running job. -/
structure Owned (s : KnowledgeJobStore) (job : KnowledgeJobRow) (workerId : String) : Prop where
  mem : job ∈ s.jobs
  running : job.status = .running
  owner : job.leaseOwner = some workerId
  unexpired : job.unexpired s.now

def rewrite (s : KnowledgeJobStore) (job job' : KnowledgeJobRow) (f : Lease → Lease) :
    KnowledgeJobStore :=
  { s with jobs := s.jobs.put job', leases := s.reviseLease job f }

inductive Effect (limit : Uuid → ℕ) (s : KnowledgeJobStore) : JobLabel → KnowledgeJobStore → Prop
  | access (registry : Registry) : Effect limit s (.access registry) { s with access := registry }
  | tick (elapsed : ℕ) : Effect limit s (.tick elapsed) { s with now := s.now + elapsed }
  | unchanged (a : JobLabel)
      (idle : ∀ call, a = .leaseNext call → LeaseCall.valid call → s.candidate limit call = none) :
      Effect limit s a s
  | insert (call : EnqueueCall) (jobs : Table KnowledgeJobRow.id)
      (free : s.activeJob call.actor.tenantId call.request.idempotencyKey = none)
      (inserted : s.jobs.insert (.new call.newId call.actor.tenantId s.now call.request) =
        some jobs) : Effect limit s (.enqueue call) { s with jobs }
  | cancel (actor : SpaceActor) (revision : ℕ) (job : KnowledgeJobRow) (mem : job ∈ s.jobs)
      (active : job.active) : Effect limit s (.requestCancel actor job.id revision)
        { s with jobs := s.jobs.put (job.cancel s.now) }
  | retry (actor : SpaceActor) (revision : ℕ) (job : KnowledgeJobRow) (mem : job ∈ s.jobs)
      (settled : job.status = .failed ∨ job.status = .cancelled)
      (budget : job.attempt < job.maxAttempts)
      (free : s.activeJob job.tenantId job.idempotencyKey = none)
      (accepted : ∃ result, s.retry actor job.id revision = .ok result) :
      Effect limit s (.retry actor job.id revision)
        { s with jobs := s.jobs.put (job.requeue s.now) }
  | lease (call : LeaseCall) (job : KnowledgeJobRow) (valid : LeaseCall.valid call)
      (found : s.candidate limit call = some job) :
      Effect limit s (.leaseNext call) (s.grant job call)
  | beat (workerId : String) (update : HeartbeatUpdate) (job : KnowledgeJobRow)
      (owned : s.Owned job workerId) (valid : update.valid) (fits : job.overBudget update = false) :
      Effect limit s (.heartbeat job.id workerId update)
        (s.rewrite job (job.beat s.now update) fun l =>
          { l with expiresAt := s.now + seconds update.leaseSeconds })
  | finish (a : JobLabel) (workerId : String) (update : TerminalUpdate) (job : KnowledgeJobRow)
      (owned : s.Owned job workerId)
      (outcome : update.status = .succeeded ∨ update.status = .failed)
      (caller : ∀ call, a ≠ .leaseNext call) : Effect limit s a
        (s.rewrite job (job.finish s.now update) fun l => { l with ended := true })

variable {limit : Uuid → ℕ} {s s' : KnowledgeJobStore}

theorem require_eq_ok {holds : Bool} {reason : String} :
    require holds reason = .ok () ↔ holds = true := by
  unfold require
  split_ifs with h
  · simp [h]
  · simp [h]

variable {jobId : Uuid} {job : KnowledgeJobRow}

theorem ownedRunningJob_eq_ok {workerId : String} :
    s.ownedRunningJob jobId workerId = .ok job ↔ s.Owned job workerId ∧ job.id = jobId := by
  have hrow : s.ownedRunningJob jobId workerId = .ok job ↔ ((s.jobs.get jobId).filter fun job =>
        job.status = .running && job.leaseOwner = some workerId && job.unexpired s.now) =
        some job := by
    unfold ownedRunningJob
    split <;> rename_i h <;> simp [h]
  rw [hrow, Option.filter_eq_some_iff, Table.get_eq_some]
  constructor
  · rintro ⟨⟨hmem, hid⟩, hguard⟩
    simp only [Bool.and_eq_true, decide_eq_true_eq] at hguard
    exact ⟨⟨hmem, hguard.1.1, hguard.1.2, hguard.2⟩, hid⟩
  · rintro ⟨⟨hmem, hrunning, howner, hunexpired⟩, hid⟩
    exact ⟨⟨hmem, hid⟩, by simp [hrunning, howner, hunexpired]⟩

theorem getJob_ok {actor : SpaceActor}
    (h : s.getJob actor jobId = .ok job) : job ∈ s.jobs ∧ job.id = jobId := by
  unfold getJob at h
  split at h
  · cases h
  · rename_i found hfound
    obtain ⟨_, -, h⟩ := bind_eq_ok.1 h
    cases h
    exact Table.get_eq_some.1 (Option.filter_eq_some_iff.1 hfound).1

theorem terminalTransition_ok {workerId : String} {update : TerminalUpdate}
    {row : KnowledgeJobRow} (h : s.terminalTransition jobId workerId update = .ok (s', row)) :
    ∃ job, s.Owned job workerId ∧ job.id = jobId ∧
      s' = s.rewrite job (job.finish s.now update) fun l => { l with ended := true } := by
  obtain ⟨job, hjob, h⟩ := bind_eq_ok.1 h
  obtain ⟨howned, hid⟩ := ownedRunningJob_eq_ok.1 hjob
  cases h
  exact ⟨job, howned, hid, rfl⟩

theorem enqueue_effect (call : EnqueueCall) :
    Effect limit s (.enqueue call) (s.after (s.enqueue call)) := by
  cases hcall : s.enqueue call with
  | error e => exact .unchanged _ nofun
  | ok result =>
    obtain ⟨⟨⟩, -, ⟨⟩, -, h₂⟩ := bind₂_eq_ok.1 hcall
    obtain ⟨⟨⟩, -, h⟩ := bind_eq_ok.1 h₂
    split at h
    · obtain rfl := ok.inj h
      exact .unchanged _ nofun
    · rename_i hfree
      dsimp only at h
      split at h
      · cases h
      · rename_i jobs hjobs
        obtain rfl := ok.inj h
        exact .insert call jobs hfree hjobs

theorem requestCancel_effect (actor : SpaceActor) (jobId : Uuid) (expectedRevision : ℕ) :
    Effect limit s (.requestCancel actor jobId expectedRevision)
      (s.after (s.requestCancel actor jobId expectedRevision)) := by
  cases hcall : s.requestCancel actor jobId expectedRevision with
  | error e => exact .unchanged _ nofun
  | ok result =>
    obtain ⟨job, hjob, hrest⟩ := bind_eq_ok.1 hcall
    obtain ⟨hmem, rfl⟩ := getJob_ok hjob
    obtain ⟨⟨⟩, -, h⟩ := bind_eq_ok.1 hrest
    split_ifs at h with hguard
    obtain rfl := ok.inj h
    exact .cancel actor expectedRevision job hmem hguard.2

theorem retry_effect (actor : SpaceActor) (jobId : Uuid) (expectedRevision : ℕ) :
    Effect limit s (.retry actor jobId expectedRevision)
      (s.after (s.retry actor jobId expectedRevision)) := by
  cases hcall : s.retry actor jobId expectedRevision with
  | error e => exact .unchanged _ nofun
  | ok result =>
    obtain ⟨job, hjob, hrest⟩ := bind_eq_ok.1 hcall
    obtain ⟨hmem, rfl⟩ := getJob_ok hjob
    obtain ⟨⟨⟩, -, h⟩ := bind_eq_ok.1 hrest
    split_ifs at h with hguard hfree
    obtain rfl := ok.inj h
    exact .retry actor expectedRevision job hmem hguard.2.1 hguard.2.2 (by simpa using hfree)
      ⟨_, hcall⟩

theorem leaseNext_effect (call : LeaseCall) :
    Effect limit s (.leaseNext call) (s.after (s.leaseNext limit call)) := by
  unfold leaseNext
  by_cases hvalid : LeaseCall.valid call
  · rw [require_eq_ok.2 hvalid]
    cases hfound : s.candidate limit call with
    | none =>
      refine .unchanged _ fun call' hcall _ => ?_
      cases hcall
      exact hfound
    | some job => exact .lease call job hvalid hfound
  · rw [require, if_neg hvalid]
    refine .unchanged _ fun call' hcall hvalid' => ?_
    cases hcall
    exact absurd hvalid' hvalid

theorem heartbeat_effect (jobId : Uuid) (workerId : String) (update : HeartbeatUpdate) :
    Effect limit s (.heartbeat jobId workerId update)
      (s.after (s.heartbeat jobId workerId update)) := by
  cases hcall : s.heartbeat jobId workerId update with
  | error e => exact .unchanged _ nofun
  | ok result =>
    obtain ⟨⟨⟩, hvalid, job, hjob, h⟩ := bind₂_eq_ok.1 hcall
    obtain ⟨howned, rfl⟩ := ownedRunningJob_eq_ok.1 hjob
    split_ifs at h with hbudget
    · obtain ⟨⟨s₁, row⟩, hfinish, hpair⟩ := bind_eq_ok.1 h
      obtain ⟨job', howned', -, rfl⟩ := terminalTransition_ok hfinish
      obtain rfl := ok.inj hpair
      exact .finish _ workerId _ job' howned' (.inr rfl) nofun
    · obtain rfl := ok.inj h
      exact .beat workerId update job howned (require_eq_ok.1 hvalid) (Bool.eq_false_iff.2 hbudget)

theorem terminalTransition_effect {a : JobLabel} (hcaller : ∀ call, a ≠ .leaseNext call)
    (jobId : Uuid) (workerId : String) (update : TerminalUpdate)
    (houtcome : update.status = .succeeded ∨ update.status = .failed) :
    Effect limit s a (s.after (s.terminalTransition jobId workerId update)) := by
  cases hcall : s.terminalTransition jobId workerId update with
  | error e => exact .unchanged _ fun call hcall => absurd hcall (hcaller call)
  | ok result =>
    obtain ⟨job, howned, -, hs'⟩ := terminalTransition_ok hcall
    show Effect limit s a result.1
    rw [hs']
    exact .finish a workerId update job howned houtcome hcaller

theorem step_effect {a : JobLabel} (h : (jobMachine limit).step s a = some s') :
    Effect limit s a s' := by
  cases a with
  | access registry =>
    cases h
    exact .access registry
  | tick elapsed =>
    cases h
    exact .tick elapsed
  | enqueue call =>
    cases h
    exact enqueue_effect call
  | requestCancel actor jobId expectedRevision =>
    cases h
    exact requestCancel_effect actor jobId expectedRevision
  | retry actor jobId expectedRevision =>
    cases h
    exact retry_effect actor jobId expectedRevision
  | leaseNext call =>
    cases h
    exact leaseNext_effect call
  | heartbeat jobId workerId update =>
    cases h
    exact heartbeat_effect jobId workerId update
  | complete jobId workerId usedTokens usedSources =>
    cases h
    exact terminalTransition_effect (by simp) jobId workerId _ (.inl rfl)
  | fail jobId workerId reason retryable =>
    cases h
    unfold fail
    by_cases hreason : isShort 1024 reason
    · rw [require_eq_ok.2 hreason]
      exact terminalTransition_effect (by simp) jobId workerId _ (.inr rfl)
    · rw [require, if_neg hreason]
      exact .unchanged _ nofun

end KnowledgeJobStore

def sampleAccess : Registry :=
  { Registry.empty with
    users := fun _ => some ⟨1, .admin, true⟩
    spaces := fun _ => some ⟨5, 1, .personal, some 2, none, none, .active⟩ }

end Gadgetron.Jobs
