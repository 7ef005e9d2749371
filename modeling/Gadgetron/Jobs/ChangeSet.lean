import Gadgetron.Jobs.Store

/-!
# Change sets

`edit_change_set`, `decide_change_set`, `begin_materialization`, `complete_materialization`,
`fail_materialization`, `refresh_materialization_retry` and `return_materialization_to_review`.
-/

namespace Gadgetron.Jobs

open Lib Policy Spaces

inductive ChangeSetStatus
  | proposed
  | pendingUserReview
  | accepted
  | materializing
  | applied
  | rejected
  | failedRetryable
  deriving DecidableEq

inductive ChangeSetDecision
  | accept
  | reject

def ChangeSetDecision.status : ChangeSetDecision → ChangeSetStatus
  | .accept => .accepted
  | .reject => .rejected

structure OriginatingSubject where
  (ownerBundle subjectKind subjectId subjectRevision : String)
  deriving DecidableEq

structure MaterializedObjectInput where
  id : Uuid
  (path contentHash : String)
  expectedRevision : Option ℤ
  originatingSubject : Option OriginatingSubject

inductive MaterializationReceipt
  | applied (gitRevision : String) (objects : List MaterializedObjectInput)
  | error (detail : String)
  | reviewRequired (detail : String)

structure KnowledgeChangeSetRow where
  (id tenantId : Uuid)
  jobId : Option Uuid
  (spaceId outputVaultId : Uuid)
  status : ChangeSetStatus
  (title summary : String)
  (operations citations : Json)
  decidedByUserId : Option Uuid
  decisionRationale : Option String
  decidedAt : Option ℤ
  (expectedGitRevision appliedGitRevision : Option String)
  materializedObjectId : Option Uuid
  materializationReceipt : Option MaterializationReceipt
  materializationKey : String
  appliedAt : Option ℤ
  revision : ℤ

/-- A row of `knowledge_objects`; its status is `active` or another. -/
structure KnowledgeObjectRow where
  (id tenantId vaultId : Uuid)
  path : String
  active : Bool
  contentHash : Option String
  originatingSubject : Option OriginatingSubject
  revision : ℤ

/-- What the change sets need of a job: its tenant and Space and the sources pinned to it. -/
structure JobSources where
  (tenantId spaceId : Uuid)
  sourceIds : List Uuid

/-! ## Calls -/

structure EditChangeSet where
  expectedRevision : ℤ
  (title summary : String)
  (operations citations : Json)
  expectedGitRevision : Option String

/-- What a call is to do, apart from its actor, its change set and its expected revision. -/
inductive ChangeSetAction
  | edit (input : EditChangeSet)
  | decide (decision : ChangeSetDecision) (rationale : Option String)
  | beginMaterialization
  | completeMaterialization (gitRevision : String) (objects : List MaterializedObjectInput)
  | failMaterialization (detail : String)
  | refreshMaterializationRetry (expectedGitRevision : String)
  | returnMaterializationToReview (operations : Json) (expectedGitRevision detail : String)

structure ChangeSetCall where
  actor : SpaceActor
  changeSetId : Uuid
  expectedRevision : ℤ
  action : ChangeSetAction

/-- What an Accept decision was made on, and by whom. -/
structure Acceptance where
  (changeSetId userId : Uuid)
  title : String
  (operations citations : Json)

structure ChangeSetStore where
  access : Registry
  now : ℤ
  jobs : Uuid → Option JobSources
  objects : Table KnowledgeObjectRow.id
  changeSets : Table KnowledgeChangeSetRow.id
  pending : List ChangeSetCall
  accepted : List Acceptance
  written : List (Uuid × ℤ)

def ChangeSetStore.initial (access : Registry) (now : ℤ) : ChangeSetStore where
  access := access
  now := now
  jobs := fun _ => none
  objects := .empty
  changeSets := .empty
  pending := []
  accepted := []
  written := []

/-! ## Checks of inputs -/

def Json.get (key : String) : Json → Option Json
  | .object values => (values.find? fun field => field.1 = key).map (·.2)
  | _ => none

def Json.asStr : Json → Option String
  | .string value => some value
  | _ => none

def Json.asArray : Json → Option (List Json)
  | .array values => some values
  | _ => none

def allowedOperations : List String :=
  ["create_note", "update_note", "link", "merge_notes", "split_note"]

def validateChangeSetFields (title summary : String) (operations citations : Json) :
    Except KnowledgeJobError Unit := do
  let entries := (Json.asArray operations).getD []
  require (trim title ≠ "" && title.utf8ByteSize ≤ 300 && summary.utf8ByteSize ≤ 4000 &&
      entries.length ≠ 0 && (Json.asArray citations).isSome)
    "change-set shape is invalid"
  entries.forM fun operation =>
    require (((Json.get "op" operation).bind Json.asStr).any allowedOperations.contains)
      "change-set operation is not allowed"

def isSha256 (value : String) : Bool := isLowerSha256 value

def isIdentifier (bound : ℕ) (inClass : Char → Bool) (value : String) : Bool :=
  2 ≤ value.utf8ByteSize && value.utf8ByteSize ≤ bound &&
    value.toList.head?.any Char.isLower && value.toList.getLast?.any Char.isAlphanum &&
    value.toList.all inClass

def validOriginatingSubject (subject : OriginatingSubject) : Bool :=
  isIdentifier 64 (fun c => c.isLower || c.isDigit || c = '-') subject.ownerBundle &&
    isIdentifier 128 (fun c => c.isLower || c.isDigit || c = '.' || c = '_' || c = '-')
      subject.subjectKind &&
    isShort 256 subject.subjectId && isShort 256 subject.subjectRevision &&
    (subject.subjectId.toList ++ subject.subjectRevision.toList).all fun c => !isControl c

section

variable (parse : String → Option Uuid) (isAlphanumeric : Char → Bool)

def between (start stop text : List Char) : Option (List Char) :=
  if start.isPrefixOf text && stop.isSuffixOf (text.drop start.length) then
    some ((text.drop start.length).take (text.length - start.length - stop.length))
  else none

/-- `is_materialized_note_path`; `isAlphanumeric` is `char::is_alphanumeric`. -/
def isMaterializedNotePath (path : String) (id : Uuid) : Bool :=
  let digits := (Uuid.toText id).toList.take 8
  path = "notes/" ++ Uuid.toText id ++ ".md" ||
    (between "notes/".toList ".md".toList path.toList).any fun fileName =>
      fileName ≠ [] && '/' ∉ fileName && fileName.length ≤ 96 &&
        (between [] ("--".toList ++ digits) fileName).any fun slug =>
          slug ≠ [] && slug.all fun c => isAlphanumeric c || c = '-'

/-- The check of an object in `complete_materialization`. -/
def validObject (object : MaterializedObjectInput) : Bool :=
  isMaterializedNotePath isAlphanumeric object.path object.id && isSha256 object.contentHash &&
    (object.expectedRevision.all fun revision => 1 ≤ revision) &&
    object.originatingSubject.all validOriginatingSubject

namespace ChangeSetStore

/-! ## Checks before the write -/

def getChangeSet (s : ChangeSetStore) (actor : SpaceActor) (changeSetId : Uuid) :
    Except KnowledgeJobError KnowledgeChangeSetRow :=
  match (s.changeSets.get changeSetId).filter fun row => row.tenantId = actor.tenantId with
  | none => .error .notFound
  | some row => do
    requireVisibleSpace s.access actor row.spaceId
    .ok row

/-- `validate_citations`; `parse` is `Uuid::parse_str`. -/
def validateCitations (job : JobSources) (citations : Json) : Except KnowledgeJobError Unit :=
  match Json.asArray citations with
  | none => .error (.invalidInput "citations must be an array")
  | some entries =>
    entries.forM fun entry =>
      match ((Json.get "source_id" entry).bind Json.asStr).bind parse with
      | none => .error (.invalidInput "every citation must contain a source_id UUID")
      | some sourceId =>
        require (job.sourceIds.contains sourceId)
          "citation references a source outside the pinned job set"

/-- The part of `edit_change_set` about the citations. -/
def checkCitations (s : ChangeSetStore) (actor : SpaceActor) (current : KnowledgeChangeSetRow)
    (citations : Json) : Except KnowledgeJobError Unit :=
  match current.jobId with
  | some jobId =>
    match (s.jobs jobId).filter fun job => job.tenantId = actor.tenantId with
    | none => .error .notFound
    | some job => do
      requireVisibleSpace s.access actor job.spaceId
      validateCitations parse job citations
  | none =>
    require ((Json.asArray citations).any List.isEmpty)
      "user merge change sets cannot attach job citations"

def checkInput (action : ChangeSetAction) : Except KnowledgeJobError Unit :=
  match action with
  | .edit input => do
    validateChangeSetFields input.title input.summary input.operations input.citations
    require (input.expectedGitRevision.all (isShort 128)) "expected Git revision is invalid"
  | .decide _ rationale =>
    require (rationale.all fun value => value.utf8ByteSize ≤ 2000)
      "decision rationale is too long"
  | .beginMaterialization => .ok ()
  | .completeMaterialization gitRevision objects =>
    require (isShort 128 gitRevision && objects.length ≠ 0) "materialization receipt is invalid"
  | .failMaterialization detail =>
    require (isShort 1000 detail) "materialization failure detail is invalid"
  | .refreshMaterializationRetry expectedGitRevision =>
    require (isShort 128 expectedGitRevision) "expected Git revision is invalid"
  | .returnMaterializationToReview _ expectedGitRevision detail =>
    require (isShort 128 expectedGitRevision && isShort 1000 detail)
      "change-set review recovery is invalid"

def checkCurrent (s : ChangeSetStore) (actor : SpaceActor) (current : KnowledgeChangeSetRow)
    (action : ChangeSetAction) : Except KnowledgeJobError Unit :=
  match action with
  | .edit input => s.checkCitations parse actor current input.citations
  | .completeMaterialization _ objects =>
    objects.forM fun object =>
      require (validObject isAlphanumeric object) "materialized object receipt is invalid"
  | .returnMaterializationToReview operations _ _ =>
    validateChangeSetFields current.title current.summary operations current.citations
  | _ => .ok ()

def check (s : ChangeSetStore) (call : ChangeSetCall) : Except KnowledgeJobError Unit := do
  checkInput call.action
  let current ← s.getChangeSet call.actor call.changeSetId
  requireContributor s.access call.actor current.spaceId
  s.checkCurrent parse isAlphanumeric call.actor current call.action

end ChangeSetStore

end

/-! ## What the statements write -/

namespace KnowledgeChangeSetRow

def edit (input : EditChangeSet) (row : KnowledgeChangeSetRow) : KnowledgeChangeSetRow :=
  { row with
    title := trim input.title
    summary := input.summary
    operations := input.operations
    citations := input.citations
    status := .pendingUserReview
    expectedGitRevision := input.expectedGitRevision
    materializationReceipt := none
    revision := row.revision + 1 }

def decide (now : ℤ) (userId : Uuid) (decision : ChangeSetDecision) (rationale : Option String)
    (row : KnowledgeChangeSetRow) : KnowledgeChangeSetRow :=
  { row with
    status := decision.status
    decidedByUserId := some userId
    decisionRationale := rationale.filter fun value => trim value ≠ ""
    decidedAt := some now
    revision := row.revision + 1 }

def beginMaterialization (row : KnowledgeChangeSetRow) : KnowledgeChangeSetRow :=
  { row with
    status := .materializing
    revision := row.revision + 1 }

def completeMaterialization (now : ℤ) (gitRevision : String)
    (objects : List MaterializedObjectInput) (row : KnowledgeChangeSetRow) :
    KnowledgeChangeSetRow :=
  { row with
    status := .applied
    appliedGitRevision := some gitRevision
    materializedObjectId := objects.head?.map (·.id)
    materializationReceipt := some (.applied gitRevision objects)
    appliedAt := some now
    revision := row.revision + 1 }

def failMaterialization (detail : String) (row : KnowledgeChangeSetRow) : KnowledgeChangeSetRow :=
  { row with
    status := .failedRetryable
    materializationReceipt := some (.error detail)
    revision := row.revision + 1 }

def refreshMaterializationRetry (expectedGitRevision : String) (row : KnowledgeChangeSetRow) :
    KnowledgeChangeSetRow :=
  { row with
    expectedGitRevision := some expectedGitRevision
    materializationReceipt := none
    revision := row.revision + 1 }

def returnMaterializationToReview (operations : Json) (expectedGitRevision detail : String)
    (row : KnowledgeChangeSetRow) : KnowledgeChangeSetRow :=
  { row with
    status := .pendingUserReview
    operations
    expectedGitRevision := some expectedGitRevision
    materializationReceipt := some (.reviewRequired detail)
    decidedByUserId := none
    decisionRationale := none
    decidedAt := none
    revision := row.revision + 1 }

end KnowledgeChangeSetRow

namespace ChangeSetAction

/-- The statuses in the `WHERE` of each statement. -/
def allowed : ChangeSetAction → List ChangeSetStatus
  | .edit _ => [.pendingUserReview, .failedRetryable]
  | .decide _ _ => [.pendingUserReview]
  | .beginMaterialization => [.accepted, .failedRetryable]
  | .completeMaterialization _ _ => [.materializing]
  | .failMaterialization _ => [.materializing]
  | .refreshMaterializationRetry _ => [.failedRetryable]
  | .returnMaterializationToReview _ _ _ => [.failedRetryable]

def apply (now : ℤ) (userId : Uuid) : ChangeSetAction → KnowledgeChangeSetRow →
    KnowledgeChangeSetRow
  | .edit input => .edit input
  | .decide decision rationale => .decide now userId decision rationale
  | .beginMaterialization => .beginMaterialization
  | .completeMaterialization gitRevision objects => .completeMaterialization now gitRevision objects
  | .failMaterialization detail => .failMaterialization detail
  | .refreshMaterializationRetry expectedGitRevision =>
    .refreshMaterializationRetry expectedGitRevision
  | .returnMaterializationToReview operations expectedGitRevision detail =>
    .returnMaterializationToReview operations expectedGitRevision detail

def objects : ChangeSetAction → List MaterializedObjectInput
  | .completeMaterialization _ objects => objects
  | _ => []

end ChangeSetAction

namespace ChangeSetStore

/-- An object of `complete_materialization` is updated, or inserted if it has no expected
revision. -/
def writeObject (tenantId vaultId : Uuid) (objects : Table KnowledgeObjectRow.id)
    (object : MaterializedObjectInput) : Except KnowledgeJobError (Table KnowledgeObjectRow.id) :=
  match object.expectedRevision with
  | some expectedRevision =>
    match (objects.get object.id).filter fun row =>
        row.tenantId = tenantId && row.vaultId = vaultId && row.revision = expectedRevision &&
          row.active && (object.originatingSubject.isNone || row.originatingSubject.isNone ||
            row.originatingSubject = object.originatingSubject) with
    | none => .error .conflict
    | some row =>
      .ok (objects.put
        { row with
          contentHash := some object.contentHash
          originatingSubject := row.originatingSubject.or object.originatingSubject
          revision := row.revision + 1 })
  | none =>
    if objects.rows.any fun row => row.vaultId = vaultId && row.path = object.path then
      .error .database
    else
      match objects.insert
          { id := object.id
            tenantId
            vaultId
            path := object.path
            active := true
            contentHash := some object.contentHash
            originatingSubject := object.originatingSubject
            revision := 1 } with
      | none => .error .database
      | some objects => .ok objects

def target (s : ChangeSetStore) (call : ChangeSetCall) : Option KnowledgeChangeSetRow :=
  (s.changeSets.get call.changeSetId).filter fun row =>
    row.tenantId = call.actor.tenantId && row.revision = call.expectedRevision &&
      call.action.allowed.contains row.status

def acceptance (call : ChangeSetCall) (row : KnowledgeChangeSetRow) : List Acceptance :=
  match call.action with
  | .decide .accept _ =>
    [{ changeSetId := row.id
       userId := call.actor.userId
       title := row.title
       operations := row.operations
       citations := row.citations }]
  | _ => []

def writeRow (s : ChangeSetStore) (call : ChangeSetCall) (row : KnowledgeChangeSetRow) :
    ChangeSetStore :=
  { s with
    changeSets := s.changeSets.put (call.action.apply s.now call.actor.userId row)
    accepted := acceptance call row ++ s.accepted
    written := (row.id, call.expectedRevision) :: s.written }

/-- What a call writes, all of it or nothing. -/
def write (s : ChangeSetStore) (call : ChangeSetCall) :
    Except KnowledgeJobError (ChangeSetStore × KnowledgeChangeSetRow) :=
  match s.changeSets.get call.changeSetId with
  | none => .error .conflict
  | some current => do
    let objects ← call.action.objects.foldlM
      (writeObject call.actor.tenantId current.outputVaultId) s.objects
    match s.target call with
    | none => .error .conflict
    | some row =>
      .ok ({ s.writeRow call row with objects }, call.action.apply s.now call.actor.userId row)

end ChangeSetStore

/-! ## The store under all its users -/

structure NewChangeSet where
  (id tenantId : Uuid)
  jobId : Option Uuid
  (spaceId outputVaultId : Uuid)
  (title summary : String)
  (operations citations : Json)
  expectedGitRevision : Option String
  materializationKey : String

/-- The row that `append_change_set` or `create_user_merge_change_set` inserts. -/
def KnowledgeChangeSetRow.new (input : NewChangeSet) : KnowledgeChangeSetRow where
  id := input.id
  tenantId := input.tenantId
  jobId := input.jobId
  spaceId := input.spaceId
  outputVaultId := input.outputVaultId
  status := .pendingUserReview
  title := input.title
  summary := input.summary
  operations := input.operations
  citations := input.citations
  decidedByUserId := none
  decisionRationale := none
  decidedAt := none
  expectedGitRevision := input.expectedGitRevision
  appliedGitRevision := none
  materializedObjectId := none
  materializationReceipt := none
  materializationKey := input.materializationKey
  appliedAt := none
  revision := 1

inductive ChangeSetLabel
  /-- The tables that roles are read from change. -/
  | access (registry : Registry)
  /-- Time passes. -/
  | tick (elapsed : ℕ)
  | job (id : Uuid) (sources : JobSources)
  | objects (rows : Table KnowledgeObjectRow.id)
  /-- A change set is made, unless it is there already. -/
  | create (input : NewChangeSet)
  | call (call : ChangeSetCall)
  /-- The call at this place among those that have made their checks writes. -/
  | write (index : ℕ)

namespace ChangeSetStore

/-- The `INSERT` of a new change set, which leaves a row with its job or its key alone. -/
def create (s : ChangeSetStore) (input : NewChangeSet) : Option ChangeSetStore :=
  if s.changeSets.rows.any fun row => (input.jobId.isSome && row.jobId = input.jobId) ||
      (row.tenantId = input.tenantId && row.materializationKey = input.materializationKey) then none
  else (s.changeSets.insert (.new input)).map fun changeSets => { s with changeSets }

def writeNext (s : ChangeSetStore) (index : ℕ) (call : ChangeSetCall) : ChangeSetStore :=
  let s := { s with pending := s.pending.eraseIdx index }
  match s.write call with
  | .ok (s', _) => s'
  | .error _ => s

end ChangeSetStore

abbrev changeSetMachine (parse : String → Option Uuid) (isAlphanumeric : Char → Bool) :
    Machine ChangeSetStore ChangeSetLabel where
  step s
    | .access registry => some { s with access := registry }
    | .tick elapsed => some { s with now := s.now + elapsed }
    | .job id sources => some { s with jobs := Function.update s.jobs id (some sources) }
    | .objects rows => some { s with objects := rows }
    | .create input => some ((s.create input).getD s)
    | .call call =>
      match s.check parse isAlphanumeric call with
      | .ok () => some { s with pending := s.pending ++ [call] }
      | .error _ => some s
    | .write index => (s.pending[index]?).map (s.writeNext index)

end Gadgetron.Jobs
