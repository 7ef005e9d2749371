import Gadgetron.Collections.Row
import Gadgetron.Lib.Table

/-!
# Enqueueing collection runs

`create_collection`, `update_collection`, `rebind_collection_package`, `archive_collection`,
`due_collections`, `enqueue_run` and `enqueue_scheduled_run`, one step for each database statement.
-/

namespace Gadgetron.Collections

open Lib

structure CreateKnowledgeCollection where
  profile : CollectionProfile
  (label topic : String)
  schedule : Option String
  scheduleEnabled : Bool
  nextRunAt : Option ℤ
  packageManifestSha256 : String
  locators : List CollectionLocator
  queries : List CollectionQuery

structure UpdateKnowledgeCollection where
  expectedRevision : ℤ
  (topic status : String)
  scheduleEnabled : Bool
  nextRunAt : Option ℤ
  locators : List CollectionLocator
  queries : List CollectionQuery

inductive CollectionRunTrigger
  | onDemand
  | schedule
  | retry

structure EnqueueCollectionRun where
  expectedCollectionRevision : ℤ
  trigger : CollectionRunTrigger
  (requestedByUserId onBehalfOfUserId : Uuid)
  toolPolicyRevision : String
  (scheduledAt nextScheduleAt : Option ℤ)

inductive ItemStatus
  | pending
  | fetching
  | captured
  | unchanged
  | deleted
  | failed
  | skipped
  deriving DecidableEq

structure RunItemRow where
  id : Uuid
  position : ℕ
  (locator title sourceClass : String)
  status : ItemStatus
  (previousSourceId sourceId : Option Uuid)
  updatedAt : ℤ

inductive RunStatus
  | queued
  | running
  | succeeded
  | partially
  | failed
  | cancelled
  deriving DecidableEq

structure CollectionRunRow where
  (id tenantId collectionId : Uuid)
  profile : CollectionProfile
  trigger : CollectionRunTrigger
  status : RunStatus
  (serviceActorUserId requestedByUserId onBehalfOfUserId : Uuid)
  (packageManifestSha256 toolPolicyRevision : String)
  scheduledAt : ℤ
  items : List RunItemRow

namespace CollectionRunRow

/-- The rows of the index `knowledge_collection_one_active_run_idx`. -/
def active (run : CollectionRunRow) : Bool := run.status = .queued || run.status = .running

def locators (run : CollectionRunRow) : List CollectionLocator :=
  run.items.map fun item => ⟨item.locator, item.title, item.sourceClass⟩

end CollectionRunRow

/-! ## Changes of a collection -/

def KnowledgeCollectionRow.new (id tenantId userId : Uuid) (request : CreateKnowledgeCollection) :
    KnowledgeCollectionRow where
  id := id
  tenantId := tenantId
  profile := request.profile
  label := request.label
  topic := request.topic
  status := .active
  schedule := request.schedule
  scheduleEnabled := request.scheduleEnabled
  nextRunAt := request.nextRunAt
  packageManifestSha256 := request.packageManifestSha256
  locators := request.locators
  queries := request.queries
  createdByUserId := userId
  updatedByUserId := userId
  lastEnqueuedAt := none
  revision := 1
  deletedAt := none

def CreateKnowledgeCollection.input (request : CreateKnowledgeCollection) : CollectionInput where
  topic := request.topic
  sourceClasses := request.profile.sourceClasses
  allowedDomains := request.profile.allowedDomains
  schedule := request.schedule
  scheduleEnabled := request.scheduleEnabled
  nextRunAt := request.nextRunAt
  maxSources := request.profile.maxSources
  maxBytes := request.profile.maxBytes
  maxWallSeconds := request.profile.maxWallSeconds
  locators := request.locators
  queries := request.queries

def UpdateKnowledgeCollection.input (request : UpdateKnowledgeCollection)
    (current : KnowledgeCollectionRow) : CollectionInput where
  topic := request.topic
  sourceClasses := current.profile.sourceClasses
  allowedDomains := current.profile.allowedDomains
  schedule := current.schedule
  scheduleEnabled := request.scheduleEnabled
  nextRunAt := request.nextRunAt
  maxSources := current.profile.maxSources
  maxBytes := current.profile.maxBytes
  maxWallSeconds := current.profile.maxWallSeconds
  locators := request.locators
  queries := request.queries

inductive CollectionChange
  | update (request : UpdateKnowledgeCollection)
  | rebind (expectedRevision : ℤ) (packageManifestSha256 : String)
  | archive (expectedRevision : ℤ)

namespace CollectionChange

/-- What is checked between the read of the row and the `UPDATE`. -/
def check (current : KnowledgeCollectionRow) :
    CollectionChange → Except KnowledgeCollectionError Unit
  | update request => do
    validateCollectionInput (request.input current)
    refuse (request.status ≠ "active" && request.status ≠ "paused")
      "collection status must be active or paused"
  | rebind _ packageManifestSha256 =>
    refuse (packageManifestSha256.utf8ByteSize ≠ 64 ||
        !packageManifestSha256.toList.all fun c => c.isDigit || ('a' ≤ c && c ≤ 'f'))
      "collection package digest must be lowercase SHA-256"
  | archive _ => .ok ()

/-- The `WHERE` of the `UPDATE`, but for the id and the tenant. -/
def admits (row : KnowledgeCollectionRow) : CollectionChange → Bool
  | update request =>
    row.revision = request.expectedRevision && row.deletedAt.isNone && row.status ≠ .archived
  | rebind expectedRevision _ =>
    row.revision = expectedRevision && row.deletedAt.isNone && row.status ≠ .archived
  | archive expectedRevision => row.revision = expectedRevision && row.deletedAt.isNone

def set (now : ℤ) (userId : Uuid) (row : KnowledgeCollectionRow) :
    CollectionChange → KnowledgeCollectionRow
  | update request =>
    { row with
      topic := request.topic
      status := if request.status = "active" then .active else .paused
      scheduleEnabled := request.scheduleEnabled
      nextRunAt := request.nextRunAt
      locators := request.locators
      queries := request.queries
      updatedByUserId := userId
      revision := row.revision + 1 }
  | rebind _ packageManifestSha256 =>
    { row with
      packageManifestSha256
      updatedByUserId := userId
      revision := row.revision + 1 }
  | archive _ =>
    { row with
      status := .archived
      scheduleEnabled := false
      nextRunAt := none
      deletedAt := some now
      updatedByUserId := userId
      revision := row.revision + 1 }

end CollectionChange

/-! ## Calls -/

/-- A row as a call has read it, and how many changes of the collection came before. -/
structure ReadRow where
  row : KnowledgeCollectionRow
  changes : ℕ

/-- How far the transaction of `enqueue_snapshot` has come. -/
inductive EnqueueStage
  /-- It has not begun. -/
  | checked
  /-- The run is inserted, with the items so far. -/
  | inserted (run : CollectionRunRow)
  /-- `ON CONFLICT DO NOTHING` returned no row. -/
  | conflicted
  | found (run : CollectionRunRow)
  | touched (run : CollectionRunRow) (created : Bool)

inductive CollectionJob
  /-- The row is read, and the `UPDATE` is still to be made. -/
  | change (read : ReadRow) (userId : Uuid) (change : CollectionChange)
  /-- `enqueue_snapshot`. -/
  | enqueue (read : ReadRow) (request : EnqueueCollectionRun) (stage : EnqueueStage)

/-- A call on its way; the scheduler has the rest of the rows that were due. -/
structure CollectionCall where
  id : ℕ
  due : List ReadRow
  job : Option CollectionJob

/-- The tables, the clock, the calls, and the collections of the changes made, the last one
first. -/
structure CollectionStore where
  now : ℤ
  collections : Table KnowledgeCollectionRow.id
  runs : Table CollectionRunRow.id
  calls : Table CollectionCall.id
  changes : List Uuid

namespace CollectionStore

def initial (now : ℤ) : CollectionStore where
  now := now
  collections := .empty
  runs := .empty
  calls := .empty
  changes := []

def read (s : CollectionStore) (row : KnowledgeCollectionRow) : ReadRow :=
  ⟨row, s.changes.count row.id⟩

def findCollection (s : CollectionStore) (tenantId collectionId : Uuid) :
    Option KnowledgeCollectionRow :=
  (s.collections.get collectionId).filter fun row =>
    row.tenantId = tenantId && row.deletedAt.isNone

def due (now : ℤ) (row : KnowledgeCollectionRow) : Bool :=
  row.deletedAt.isNone && row.status = .active && row.scheduleEnabled && row.nextRunAt.any (· ≤ now)

def dueOrder (row row' : KnowledgeCollectionRow) : Ordering :=
  (compare (row.nextRunAt.getD 0) (row'.nextRunAt.getD 0)).then
    ((compare row.tenantId.toNat row'.tenantId.toNat).then
      (compare row.id.toNat row'.id.toNat))

def dueCollections (s : CollectionStore) (limit : ℤ) : List KnowledgeCollectionRow :=
  (sortBy dueOrder (s.collections.rows.filter (due s.now))).take (max 1 (min limit 100)).toNat

def begin (s : CollectionStore) (call : CollectionCall) : Option CollectionStore :=
  (s.calls.insert call).map fun calls => { s with calls }

def goOn (s : CollectionStore) (call : CollectionCall) (job : Option CollectionJob) :
    CollectionStore :=
  { s with calls := s.calls.put { call with job } }

def advance (s : CollectionStore) (call : CollectionCall) (read : ReadRow)
    (request : EnqueueCollectionRun) (stage : EnqueueStage) : CollectionStore :=
  s.goOn call (some (.enqueue read request stage))

def CollectionCall.locks (collectionId : Uuid) (call : CollectionCall) : Bool :=
  match call.job with
  | some (.enqueue read _ (.touched _ _)) => read.row.id = collectionId
  | _ => false

def locked (s : CollectionStore) (collectionId : Uuid) : Bool :=
  s.calls.rows.any (CollectionCall.locks collectionId)

/-- The transaction of a call has an active run of the collection that is not committed. -/
def CollectionCall.inserts (tenantId collectionId : Uuid) (call : CollectionCall) : Bool :=
  match call.job with
  | some (.enqueue _ _ (.inserted run)) | some (.enqueue _ _ (.touched run true)) =>
    run.tenantId = tenantId && run.collectionId = collectionId
  | _ => false

def activeRun (s : CollectionStore) (tenantId collectionId : Uuid) : Option CollectionRunRow :=
  s.runs.rows.find? fun run =>
    run.tenantId = tenantId && run.collectionId = collectionId && run.active

end CollectionStore

/-! ## Statements -/

open CollectionStore

/-- The checks at the head of `enqueue_snapshot`. -/
def enqueueCheck (row : KnowledgeCollectionRow) (request : EnqueueCollectionRun) :
    Except KnowledgeCollectionError Unit :=
  if row.revision ≠ request.expectedCollectionRevision || row.status ≠ .active then
    .error .conflict
  else
    refuse (trim request.toolPolicyRevision = "" || 256 < request.toolPolicyRevision.utf8ByteSize)
      "tool policy revision is invalid"

/-- The run that `enqueue_snapshot` inserts. -/
def CollectionRunRow.new (id serviceUserId : Uuid) (now : ℤ) (row : KnowledgeCollectionRow)
    (request : EnqueueCollectionRun) : CollectionRunRow where
  id := id
  tenantId := row.tenantId
  collectionId := row.id
  profile := row.profile
  trigger := request.trigger
  status := .queued
  serviceActorUserId := serviceUserId
  requestedByUserId := request.requestedByUserId
  onBehalfOfUserId := request.onBehalfOfUserId
  packageManifestSha256 := row.packageManifestSha256
  toolPolicyRevision := request.toolPolicyRevision
  scheduledAt := request.scheduledAt.getD now
  items := []

/-- The `ORDER BY` of the items with a source. -/
def latestItem (item item' : RunItemRow) : Ordering :=
  (compare item'.updatedAt item.updatedAt).then (compare item'.id.toNat item.id.toNat)

def previousSourceId (s : CollectionStore) (tenantId collectionId : Uuid) (locator : String) :
    Option Uuid :=
  let runs := s.runs.rows.filter fun run =>
    run.tenantId = tenantId && run.collectionId = collectionId
  let items := (runs.flatMap (·.items)).filter fun item =>
    item.locator = locator && item.sourceId.isSome &&
      (item.status = .captured || item.status = .unchanged)
  (sortBy latestItem items).head?.bind (·.sourceId)

/-- One round of the loop of `insert_run_items`. -/
def CollectionRunRow.addItem (run : CollectionRunRow) (id : Uuid) (now : ℤ)
    (locator : CollectionLocator) (previousSourceId : Option Uuid) : CollectionRunRow :=
  { run with
    items := run.items ++
      [{ id
         position := min run.items.length (2 ^ 31 - 1)
         locator := locator.url
         title := locator.title
         sourceClass := locator.sourceClass
         status := .pending
         previousSourceId
         sourceId := none
         updatedAt := now }] }

/-- The `SET` of the `UPDATE` at the end of `enqueue_snapshot`. -/
def KnowledgeCollectionRow.touch (now : ℤ) (nextScheduleAt : Option ℤ)
    (row : KnowledgeCollectionRow) : KnowledgeCollectionRow :=
  { row with
    lastEnqueuedAt := some now
    nextRunAt := nextScheduleAt.or row.nextRunAt }

inductive CollectionLabel
  | create (id tenantId userId : Uuid) (request : CreateKnowledgeCollection)
  /-- `get_collection` of one of the functions that change a collection. -/
  | readForChange (callId : ℕ) (tenantId userId collectionId : Uuid) (change : CollectionChange)
  /-- Its `UPDATE`. -/
  | applyChange (callId : ℕ)
  /-- `get_collection` of `enqueue_run`. -/
  | enqueueRun (callId : ℕ) (tenantId userId collectionId : Uuid) (request : EnqueueCollectionRun)
  | dueCollections (callId : ℕ) (limit : ℤ)
  /-- The scheduler takes the next row, for which it knows a time and a policy. -/
  | enqueueScheduledRun (callId : ℕ) (serviceUserId : Uuid) (toolPolicyRevision : String)
      (nextScheduleAt : ℤ)
  /-- The scheduler passes the next row over. -/
  | skipDue (callId : ℕ)
  | insertRun (callId : ℕ) (runId serviceUserId : Uuid)
  | insertItem (callId : ℕ) (itemId : Uuid)
  | selectRun (callId : ℕ)
  | touch (callId : ℕ)
  | commit (callId : ℕ)
  /-- The job of a call ends with an error, and its transaction is rolled back. -/
  | stop (callId : ℕ)
  /-- An active run gets another status. -/
  | setRunStatus (runId : Uuid) (status : RunStatus)
  | setItem (runId : Uuid) (position : ℕ) (status : ItemStatus) (sourceId : Option Uuid)
  | tick (elapsed : ℕ)

namespace CollectionStore

/-- `update_collection`, `rebind_collection_package` or `archive_collection` up to its `UPDATE`. -/
def readForChange (s : CollectionStore) (callId : ℕ) (tenantId userId collectionId : Uuid)
    (change : CollectionChange) : Option CollectionStore :=
  match s.findCollection tenantId collectionId with
  | none => some s
  | some row =>
    match change.check row with
    | .error _ => some s
    | .ok () => s.begin ⟨callId, [], some (.change (s.read row) userId change)⟩

/-- The `UPDATE`; without a row to update it is a conflict. -/
def applyChange (s : CollectionStore) (call : CollectionCall) : Option CollectionStore :=
  match call.job with
  | some (.change read userId change) =>
    if s.locked read.row.id then none
    else
      match (s.collections.get read.row.id).filter change.admits with
      | none => some (s.goOn call none)
      | some row =>
        some
          { s.goOn call none with
            collections := s.collections.put (change.set s.now userId row)
            changes := row.id :: s.changes }
  | _ => none

/-- `enqueue_run` up to the transaction. -/
def enqueueRun (s : CollectionStore) (callId : ℕ) (tenantId userId collectionId : Uuid)
    (request : EnqueueCollectionRun) : Option CollectionStore :=
  match s.findCollection tenantId collectionId with
  | none => some s
  | some row =>
    if request.requestedByUserId ≠ userId || request.onBehalfOfUserId ≠ userId then some s
    else
      match enqueueCheck row request with
      | .error _ => some s
      | .ok () => s.begin ⟨callId, [], some (.enqueue (s.read row) request .checked)⟩

/-- `enqueue_scheduled_run` up to the transaction. -/
def enqueueScheduledRun (s : CollectionStore) (call : CollectionCall) (serviceUserId : Uuid)
    (toolPolicyRevision : String) (nextScheduleAt : ℤ) : Option CollectionStore :=
  match call.job, call.due with
  | none, read :: rest =>
    let request : EnqueueCollectionRun :=
      { expectedCollectionRevision := read.row.revision
        trigger := .schedule
        requestedByUserId := serviceUserId
        onBehalfOfUserId := read.row.createdByUserId
        toolPolicyRevision
        scheduledAt := none
        nextScheduleAt := some nextScheduleAt }
    match enqueueCheck read.row request with
    | .error _ => some (s.goOn { call with due := rest } none)
    | .ok () => some (s.advance { call with due := rest } read request .checked)
  | _, _ => none

/-- The first statement of the transaction; it waits for a run that is not committed. -/
def insertRun (s : CollectionStore) (call : CollectionCall) (runId serviceUserId : Uuid) :
    Option CollectionStore :=
  match call.job with
  | some (.enqueue read request .checked) =>
    if s.calls.rows.any (CollectionCall.inserts read.row.tenantId read.row.id) then none
    else
      match s.activeRun read.row.tenantId read.row.id with
      | some _ => some (s.advance call read request .conflicted)
      | none =>
        some (s.advance call read request
          (.inserted (.new runId serviceUserId s.now read.row request)))
  | _ => none

def insertItem (s : CollectionStore) (call : CollectionCall) (itemId : Uuid) :
    Option CollectionStore :=
  match call.job with
  | some (.enqueue read request (.inserted run)) =>
    (read.row.locators[run.items.length]?).map fun locator =>
      s.advance call read request (.inserted (run.addItem itemId s.now locator
        (previousSourceId s read.row.tenantId read.row.id locator.url)))
  | _ => none

/-- The active run that the insertion ran into; it is a conflict if that has ended since. -/
def selectRun (s : CollectionStore) (call : CollectionCall) : Option CollectionStore :=
  match call.job with
  | some (.enqueue read request .conflicted) =>
    match s.activeRun read.row.tenantId read.row.id with
    | none => some (s.goOn call none)
    | some run => some (s.advance call read request (.found run))
  | _ => none

/-- The `UPDATE` of the collection; it waits for a row that is locked. -/
def touch (s : CollectionStore) (call : CollectionCall) : Option CollectionStore :=
  match call.job with
  | some (.enqueue read request (.inserted run)) =>
    if run.items.length < read.row.locators.length || s.locked read.row.id then none
    else some (s.advance call read request (.touched run true))
  | some (.enqueue read request (.found run)) =>
    if request.nextScheduleAt.isNone || s.locked read.row.id then none
    else some (s.advance call read request (.touched run false))
  | _ => none

def touchCollection (s : CollectionStore) (read : ReadRow) (request : EnqueueCollectionRun) :
    Table KnowledgeCollectionRow.id :=
  s.collections.updateWhere
    (fun row => row.tenantId = read.row.tenantId && row.id = read.row.id)
    (·.touch s.now request.nextScheduleAt)

def commit (s : CollectionStore) (call : CollectionCall) : Option CollectionStore :=
  match call.job with
  | some (.enqueue read request (.touched run true)) =>
    (s.runs.insert run).map fun runs =>
      { s.goOn call none with
        runs
        collections := s.touchCollection read request }
  | some (.enqueue read request (.touched _ false)) =>
    some { s.goOn call none with collections := s.touchCollection read request }
  | some (.enqueue _ request (.found _)) =>
    if request.nextScheduleAt.isNone then some (s.goOn call none) else none
  | _ => none

/-- What a worker writes to a run that it has, or a user who cancels it. -/
def setRun (s : CollectionStore) (runId : Uuid) (f : CollectionRunRow → CollectionRunRow)
    (hf : ∀ run, (f run).id = run.id := by intro _; rfl) : CollectionStore :=
  { s with runs := s.runs.updateWhere (fun run => run.id = runId && run.active) f hf }

end CollectionStore

def CollectionRunRow.setItem (run : CollectionRunRow) (now : ℤ) (position : ℕ)
    (status : ItemStatus) (sourceId : Option Uuid) : CollectionRunRow :=
  { run with
    items := run.items.map fun item =>
      if item.position = position then
        { item with
          status
          sourceId
          updatedAt := now }
      else item }

/-- Collections under calls that change them, calls that enqueue their runs, and workers. -/
abbrev collectionMachine : Machine CollectionStore CollectionLabel where
  step s
    | .create id tenantId userId request =>
      match validateCollectionInput request.input with
      | .error _ => some s
      | .ok () =>
        (s.collections.insert (.new id tenantId userId request)).map fun collections =>
          { s with collections }
    | .readForChange callId tenantId userId collectionId change =>
      s.readForChange callId tenantId userId collectionId change
    | .applyChange callId => (s.calls.get callId).bind s.applyChange
    | .enqueueRun callId tenantId userId collectionId request =>
      s.enqueueRun callId tenantId userId collectionId request
    | .dueCollections callId limit =>
      s.begin ⟨callId, (s.dueCollections limit).map s.read, none⟩
    | .enqueueScheduledRun callId serviceUserId toolPolicyRevision nextScheduleAt =>
      (s.calls.get callId).bind fun call =>
        s.enqueueScheduledRun call serviceUserId toolPolicyRevision nextScheduleAt
    | .skipDue callId =>
      (s.calls.get callId).map fun call =>
        { s with calls := s.calls.put { call with due := call.due.tail } }
    | .insertRun callId runId serviceUserId =>
      (s.calls.get callId).bind fun call => s.insertRun call runId serviceUserId
    | .insertItem callId itemId => (s.calls.get callId).bind (s.insertItem · itemId)
    | .selectRun callId => (s.calls.get callId).bind s.selectRun
    | .touch callId => (s.calls.get callId).bind s.touch
    | .commit callId => (s.calls.get callId).bind s.commit
    | .stop callId => (s.calls.get callId).map fun call => s.goOn call none
    | .setRunStatus runId status => some (s.setRun runId fun run => { run with status })
    | .setItem runId position status sourceId =>
      some (s.setRun runId fun run => run.setItem s.now position status sourceId)
    | .tick elapsed => some { s with now := s.now + elapsed }

end Gadgetron.Collections
