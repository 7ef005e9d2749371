import Gadgetron.Jobs.Prepare
import Gadgetron.Lib.Versioned

/-!
# Requests that materialize change sets

The handlers that edit, accept, reject and retry a change set, with `materialize_change_set`,
`prepare_and_write_change_set` and `retry_materialization`.
-/

namespace Gadgetron.Jobs.Materialize

open Lib Policy Spaces Knowledge

structure NotePath where
  spaceId : Uuid
  (homeBundleId relativePath : String)
  deriving DecidableEq

abbrev Files := NotePath → Option ByteArray

abbrev Vault := Versioned String Files

structure VaultNoteState where
  (path contentHash gitRevision : String)

/-- A note that was written: what its operation had read, what it replaced and what it is now. -/
structure WriteRecord where
  tenantId : Uuid
  path : NotePath
  (read replaced : Option ByteArray)
  bytes : ByteArray

def errorText : KnowledgeJobError → String
  | .database => "knowledge job persistence failed"
  | .space (.invalidInput reason) => "invalid Knowledge Space input: " ++ reason
  | .space .notFound => "Knowledge Space resource not found"
  | .space .forbidden => "Knowledge Space access denied"
  | .space .revisionConflict => "Knowledge Space revision conflict"
  | .space .database => "database error"
  | .servicePrincipal error => error
  | .invalidInput reason => "knowledge job input is invalid: " ++ reason
  | .notFound => "knowledge job or artifact was not found"
  | .conflict => "knowledge job revision or state changed"
  | .leaseLost => "knowledge job lease is not owned by this worker"

def clipError (detail : String) : String := String.ofList (detail.toList.take 1000)

section

variable {T : Type} (env : Env T)

/-- The checks of `note_path`. -/
def checkNotePath (path : String) : Except String Unit :=
  ensure (validNoteRelativePath env path) ("invalid Domain Vault note path " ++ path.quote)

/-- `read_note_reconciled`: the Vault after it, the note, and whether its hash is not the expected
one; `oid` is the head of a commit. -/
def readNoteReconciled (vault : Vault) (path : NotePath) (expectedHash : Option String)
    (oid : String) : Except String (Vault × ByteArray × Bool) := do
  checkNotePath env path.relativePath
  let bytes ← orFail (vault.value path) "filesystem error: No such file or directory (os error 2)"
  let externallyChanged : Bool := expectedHash ≠ some (env.hash bytes)
  .ok (if externallyChanged then vault.commit oid vault.value else vault, bytes, externallyChanged)

def Context.path (context : Context) (relativePath : String) : NotePath :=
  ⟨context.spaceId, context.homeBundleId, relativePath⟩

def writeAll (context : Context) (files : Files) (writes : List VaultNoteWrite) : Files :=
  writes.foldl
    (fun files write => Function.update files (context.path write.relativePath) (some write.bytes))
    files

/-- The checks of the paths in `write_notes_batch`. -/
def checkPaths (writes : List VaultNoteWrite) : Except String Unit := do
  let _ ← writes.foldlM
    (fun seen write => do
      ensure (!seen.contains write.relativePath)
        ("invalid Domain Vault note path " ++ write.relativePath.quote)
      checkNotePath env write.relativePath
      .ok (write.relativePath :: seen))
    []
  .ok ()

/-- The notes of a batch with their hashes, as it returns them. -/
def noteStates (writes : List VaultNoteWrite) (oid : String) : List VaultNoteState :=
  writes.map fun write => ⟨write.relativePath, env.hash write.bytes, oid⟩

/-- `write_notes_batch`: the Vault after it and the notes that it has written. -/
def writeNotesBatch (vault : Vault) (context : Context) (writes : List VaultNoteWrite)
    (expectedGitRevision : Option String) (oid : String) :
      Except String (Vault × List VaultNoteState) :=
  if writes = [] then .ok (vault, [])
  else do
    ensure (expectedGitRevision.all fun expected => expected = vault.version)
      ("tenant Vault Git revision changed: expected " ++ expectedGitRevision.getD "" ++
        ", found " ++ vault.version)
    checkPaths env writes
    .ok (vault.commit oid (writeAll context vault.value writes), noteStates env writes oid)

end

/-! ## Requests -/

inductive Stage
  /-- The checks of a call. -/
  | check (call : ChangeSetCall)
  | write (call : ChangeSetCall)
  /-- `retry_materialization` reads the head of the Vault. -/
  | snapshot (row : KnowledgeChangeSetRow)
  /-- `refresh_operation_revisions`. -/
  | refresh (row : KnowledgeChangeSetRow) (head : String)
  /-- `prepare_and_write_change_set` starts. -/
  | opening (row : KnowledgeChangeSetRow)
  /-- The next operation, or the end of `prepare_operations`. -/
  | prepare (row : KnowledgeChangeSetRow) (context : Context) (operations : List (Json × ℕ))
      (prepared : Prepared)
  | read (row : KnowledgeChangeSetRow) (context : Context) (target : Target)
      (operations : List (Json × ℕ)) (prepared : Prepared)
  | batch (row : KnowledgeChangeSetRow) (context : Context) (prepared : Prepared)

def Stage.commits : Stage → Bool
  | .read .. | .batch .. => true
  | _ => false

structure Request where
  actor : SpaceActor
  stage : Stage

structure World where
  store : ChangeSetStore
  vaults : Uuid → Vault
  written : List WriteRecord
  requests : List Request

/-- A world without change sets; there may be objects, and notes in the Vaults. -/
def World.initial (access : Registry) (now : ℤ) (objects : Table KnowledgeObjectRow.id)
    (vaults : Uuid → Vault) : World where
  store := { ChangeSetStore.initial access now with objects }
  vaults := vaults
  written := []
  requests := []

def callOn (actor : SpaceActor) (row : KnowledgeChangeSetRow) (action : ChangeSetAction) :
    ChangeSetCall where
  actor := actor
  changeSetId := row.id
  expectedRevision := row.revision
  action := action

/-- `fail_materialization` is due. -/
def failing (actor : SpaceActor) (row : KnowledgeChangeSetRow) (detail : String) : Stage :=
  .check (callOn actor row (.failMaterialization (clipError detail)))

def refused (call : ChangeSetCall) (detail : String) : Option Stage :=
  match call.action with
  | .completeMaterialization _ _ =>
    some (.check { call with action := .failMaterialization (clipError detail) })
  | _ => none

def following (call : ChangeSetCall) (row : KnowledgeChangeSetRow) : Option Stage :=
  match call.action with
  | .decide .accept _ | .refreshMaterializationRetry _ =>
    some (.check (callOn call.actor row .beginMaterialization))
  | .beginMaterialization => some (.opening row)
  | _ => none

section

variable {T : Type} (env : Env T)

def setField (field : String) (value : Json) : Json → Json
  | .object fields =>
    .object (fields.map fun entry => if entry.1 = field then (entry.1, value) else entry)
  | other => other

/-- `refresh_expected_revision`: the reference with the revision of its object, and whether that is
another one. -/
def refreshExpectedRevision (objects : Table KnowledgeObjectRow.id) (tenantId vaultId : Uuid)
    (field : String) (reference : Json) : Except String (Json × Bool) := do
  let objectId ← requiredUuid env reference field
  let expectedRevision ← requiredI64 reference "expected_revision"
  let current ← loadObject objects tenantId vaultId objectId
  if current.revision = expectedRevision then .ok (reference, false)
  else do
    ensure (isObject reference) "Change-set object reference is invalid"
    .ok (setField "expected_revision" (.number (toString current.revision)) reference, true)

def refreshAll {α : Type} (f : α → Except String (α × Bool)) :
  List α → Except String (List α × Bool)
  | [] => .ok ([], false)
  | a :: rest => do
    let (a, changed) ← f a
    let (rest, changed') ← refreshAll f rest
    .ok (a :: rest, changed || changed')

def refreshOperation (objects : Table KnowledgeObjectRow.id) (tenantId vaultId : Uuid)
    (operation : Json) : Except String (Json × Bool) := do
  let kind ← requiredStr operation "op"
  match kind with
  | "create_note" => .ok (operation, false)
  | "update_note" | "link" =>
    refreshExpectedRevision env objects tenantId vaultId "object_id" operation
  | "merge_notes" => do
    let sources ← orFail ((Json.get "sources" operation).bind Json.asArray)
      "Change-set field sources is required"
    let (sources, changed) ←
      refreshAll (refreshExpectedRevision env objects tenantId vaultId "object_id") sources
    .ok (setField "sources" (.array sources) operation, changed)
  | "split_note" =>
    refreshExpectedRevision env objects tenantId vaultId "source_object_id" operation
  | _ => .error ("Unsupported change-set operation " ++ kind)

def refreshOperationRevisions (objects : Table KnowledgeObjectRow.id) (tenantId vaultId : Uuid)
    (operations : Json) : Except String (Json × Bool) := do
  let operations ← orFail (Json.asArray operations) "Change-set operations are invalid"
  let (operations, changed) ← refreshAll (refreshOperation env objects tenantId vaultId) operations
  .ok (.array operations, changed)

/-- The call of `retry_materialization` after the references were refreshed. -/
def retryCall (actor : SpaceActor) (row : KnowledgeChangeSetRow) (head : String) (operations : Json)
    (targetChanged : Bool) : ChangeSetCall :=
  callOn actor row
    (if targetChanged then
      .returnMaterializationToReview operations head
        ("A target note changed after this proposal was reviewed. " ++
          "Review the refreshed diff before accepting it again.")
    else .refreshMaterializationRetry head)

def hashed (objects : List MaterializedObjectInput) (states : List VaultNoteState) :
    List MaterializedObjectInput :=
  objects.map fun object =>
    { object with
      contentHash := ((states.find? fun state => state.path = object.path).map
        (·.contentHash)).getD "" }

def records (context : Context) (files : Files) (writes : List VaultNoteWrite) : List WriteRecord :=
  writes.map fun write =>
    { tenantId := context.actor.tenantId
      path := context.path write.relativePath
      read := write.read
      replaced := files (context.path write.relativePath)
      bytes := write.bytes }

namespace World

def setVault (s : World) (tenantId : Uuid) (vault : Vault) : World :=
  { s with vaults := Function.update s.vaults tenantId vault }

/-- The step that is due: the world after it and the next stage, if the request goes on. -/
def advance (s : World) (r : Request) (oid : String) : World × Option Stage :=
  let vault := s.vaults r.actor.tenantId
  match r.stage with
  | .check call =>
    match s.store.check env.parse env.isAlphanumeric call with
    | .ok () => (s, some (.write call))
    | .error error => (s, refused call (errorText error))
  | .write call =>
    match s.store.write call with
    | .ok (store, row) => ({ s with store }, following call row)
    | .error error => (s, refused call (errorText error))
  | .snapshot row => (s, some (.refresh row vault.version))
  | .refresh row head =>
    match refreshOperationRevisions env s.store.objects r.actor.tenantId row.outputVaultId
        row.operations with
    | .ok (operations, targetChanged) =>
      (s, some (.check (retryCall r.actor row head operations targetChanged)))
    | .error _ => (s, none)
  | .opening row =>
    match openContext env r.actor row with
    | .ok (context, operations) => (s, some (.prepare row context operations.zipIdx .empty))
    | .error detail => (s, some (failing r.actor row detail))
  | .prepare row context [] prepared => (s, some (.batch row context prepared))
  | .prepare row context ((operation, position) :: operations) prepared =>
    match openOperation env s.store.objects context position operation prepared with
    | .ok (.done prepared) => (s, some (.prepare row context operations prepared))
    | .ok (.reads target) => (s, some (.read row context target operations prepared))
    | .error detail => (s, some (failing r.actor row detail))
  | .read row context target operations prepared =>
    match readNoteReconciled env vault (context.path target.object.path)
        target.object.contentHash oid with
    | .error detail => (s, some (failing r.actor row detail))
    | .ok (vault, bytes, externallyChanged) =>
      let s := s.setVault r.actor.tenantId vault
      if externallyChanged then
        (s, some (failing r.actor row "A target note changed in the Vault after review began"))
      else
        match changeTarget env s.store.objects context target bytes prepared with
        | .ok prepared => (s, some (.prepare row context operations prepared))
        | .error detail => (s, some (failing r.actor row detail))
  | .batch row context prepared =>
    match writeNotesBatch env vault context prepared.writes row.expectedGitRevision oid with
    | .error detail => (s, some (failing r.actor row detail))
    | .ok (_, []) =>
      (s, some (failing r.actor row "The change set produced no Vault writes"))
    | .ok (vault', state :: states) =>
      ({ s.setVault r.actor.tenantId vault' with
          written := records context vault.value prepared.writes ++ s.written },
        some (.check (callOn r.actor row
          (.completeMaterialization state.gitRevision
            (hashed prepared.objects (state :: states))))))

end World

/-- The next stage when the step that is due fails with a text and has no effect. -/
def faulted (r : Request) (detail : String) : Option Stage :=
  match r.stage with
  | .check call | .write call => refused call detail
  | .snapshot _ | .refresh _ _ => none
  | .opening row | .prepare row _ _ _ | .read row _ _ _ _ | .batch row _ _ =>
    some (failing r.actor row detail)

/-! ## The world under all its users -/

inductive Label
  /-- The tables that roles are read from change. -/
  | access (registry : Registry)
  /-- Time passes. -/
  | tick (elapsed : ℕ)
  | job (id : Uuid) (sources : JobSources)
  | create (input : NewChangeSet)
  | edit (actor : SpaceActor) (changeSetId : Uuid) (input : EditChangeSet)
  | accept (actor : SpaceActor) (changeSetId : Uuid) (expectedRevision : ℤ)
      (rationale : Option String)
  | reject (actor : SpaceActor) (changeSetId : Uuid) (expectedRevision : ℤ)
      (rationale : Option String)
  | retry (actor : SpaceActor) (changeSetId : Uuid) (expectedRevision : ℤ)
  /-- The due step of the request at this place; `oid` is the head that a commit would get. -/
  | step (index : ℕ) (oid : String)
  /-- The due step fails. -/
  | fault (index : ℕ) (detail : String)
  | die (index : ℕ)

namespace World

def start (s : World) (actor : SpaceActor) (stage : Stage) : World :=
  { s with requests := s.requests ++ [⟨actor, stage⟩] }

def proceed (s : World) (index : ℕ) (r : Request) : Option Stage → World
  | some stage => { s with requests := s.requests.set index { r with stage } }
  | none => { s with requests := s.requests.eraseIdx index }

section

variable (s : World) (index : ℕ) (r : Request) (next : Option Stage)

@[simp] theorem proceed_store :
    (s.proceed index r next).store = s.store := by
  cases next <;> rfl

@[simp] theorem proceed_vaults :
    (s.proceed index r next).vaults = s.vaults := by
  cases next <;> rfl

@[simp] theorem proceed_written :
    (s.proceed index r next).written = s.written := by
  cases next <;> rfl

end

/-- What the callers see to: the job is of the tenant and the Space, and the expected head was read
before. -/
def validNew (s : World) (input : NewChangeSet) : Bool :=
  (input.jobId.all fun jobId => (s.store.jobs jobId).any fun job =>
    job.tenantId = input.tenantId && job.spaceId = input.spaceId) &&
  input.expectedGitRevision.any fun head => (s.vaults input.tenantId).Knows head

def freshHead (s : World) (tenantId : Uuid) (oid : String) : Bool :=
  isShort 128 oid && !decide ((s.vaults tenantId).Knows oid)

end World

abbrev machine : Machine World Label where
  step s
    | .access registry => some { s with store := { s.store with access := registry } }
    | .tick elapsed => some { s with store := { s.store with now := s.store.now + elapsed } }
    | .job id sources =>
      if (s.store.jobs id).isNone then
        some { s with
          store := { s.store with jobs := Function.update s.store.jobs id (some sources) } }
      else none
    | .create input =>
      if s.validNew input then
        some { s with store := (s.store.create input).getD s.store }
      else none
    | .edit actor changeSetId input =>
      some (s.start actor (.check
        { actor
          changeSetId
          expectedRevision := input.expectedRevision
          action := .edit { input with
            expectedGitRevision := some (s.vaults actor.tenantId).version } }))
    | .accept actor changeSetId expectedRevision rationale =>
      some (s.start actor
        (.check ⟨actor, changeSetId, expectedRevision, .decide .accept rationale⟩))
    | .reject actor changeSetId expectedRevision rationale =>
      some (s.start actor
        (.check ⟨actor, changeSetId, expectedRevision, .decide .reject rationale⟩))
    | .retry actor changeSetId expectedRevision =>
      match s.store.getChangeSet actor changeSetId with
      | .ok row =>
        if row.revision = expectedRevision ∧ row.status = .failedRetryable then
          some (s.start actor (.snapshot row))
        else some s
      | .error _ => some s
    | .step index oid =>
      (s.requests[index]?).bind fun r =>
        if !r.stage.commits || s.freshHead r.actor.tenantId oid then
          let (s', stage) := s.advance env r oid
          some (s'.proceed index r stage)
        else none
    | .fault index detail =>
      (s.requests[index]?).map fun r => s.proceed index r (faulted r detail)
    | .die index =>
      (s.requests[index]?).map fun _ => { s with requests := s.requests.eraseIdx index }

end

/-! ## A change set that makes a note -/

def sampleLine (properties : Properties Json) (key : String) : Except String (List Char) :=
  match properties.get? key with
  | some (.string value) => .ok (key ++ ": " ++ value ++ "\n").toList
  | _ => .error "unsupported"

def sampleProperty (line : List Char) : Option (String × Json) :=
  (splitOnce ':' line).map fun (key, value) =>
    (String.ofList key, .string (String.ofList (value.drop 1)))

/-- What the encoder and the decoders do on notes whose properties are plain texts. -/
def sampleCodec : NoteCodec Json Unit where
  yamlToString properties := (properties.keys.toList.mapM (sampleLine properties)).map List.flatten
  yamlFromStr text :=
    (((text.splitOn '\n').filter (· ≠ [])).mapM sampleProperty).map (setAll .empty)
  tomlFromStr _ := none
  toValue _ := none

def sampleNote (body : String) : String :=
  "---\nchange_set: 00000000-0000-0000-0000-000000000007\n" ++
    "id: 00a92c99-7357-4965-a62c-e69db5d9b78b\ntitle: Title\n---\n" ++ body

def sampleHash (bytes : ByteArray) : String :=
  if bytes.data.toList = (sampleNote "Body").toUTF8.data.toList then
    "fb2ad69f3ac269b1ab187d2c11624023225b9c67d2f8efd9f2fba7db1af819d0"
  else if bytes.data.toList = (sampleNote "Second").toUTF8.data.toList then
    "dc03c5102a1171375a368e34b92d3632aba0bfc278df9521648f3282b9dfe90b"
  else ""

def sampleParse (text : String) : Option Uuid :=
  if text = "00a92c99-7357-4965-a62c-e69db5d9b78b" then some 0x00a92c9973574965a62ce69db5d9b78b
  else none

def sampleEnv : Env Unit where
  codec := sampleCodec
  hash := sampleHash
  objectId _ _ := 0x00a92c9973574965a62ce69db5d9b78b
  splitObjectId _ _ _ := 0x00a92c9973574965a62ce69db5d9b78b
  parse := sampleParse
  isAlphanumeric := Char.isAlphanum
  toLowercase c := [c.toLower]
  homeBundle _ _ _ := .ok "core"
  pins _ _ := .ok ⟨none, none, none⟩
  relationTargets _ _ _ := .ok ()

def sampleWorld : World := .initial sampleAccess 0 .empty fun _ => ⟨"head", [], fun _ => none⟩

def sampleCreateNote (body : String) : Json :=
  .array
    [.object [("op", .string "create_note"), ("title", .string "Title"), ("body", .string body)]]

def sampleUpdateNote (body : String) : Json :=
  .array
    [.object
      [("op", .string "update_note"),
        ("object_id", .string "00a92c99-7357-4965-a62c-e69db5d9b78b"),
        ("expected_revision", .number "1"), ("body", .string body)]]

def sampleAccepted (id : Uuid) (operations : Json) (head : String) : List Label :=
  [.create
      { id
        tenantId := 1
        jobId := none
        spaceId := 5
        outputVaultId := 6
        title := "title"
        summary := ""
        operations
        citations := .array []
        expectedGitRevision := some head
        materializationKey := Uuid.toText id },
    .accept ⟨1, 2⟩ id 1 none]

def sampleSteps (count : ℕ) (oid : String) : List Label := List.replicate count (.step 0 oid)

end Gadgetron.Jobs.Materialize
