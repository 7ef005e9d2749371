import Gadgetron.Sources.Notes

/-!
# Requests on sources

An ingest puts the content into the blob store, registers and writes the note of the source and
completes it; what goes wrong is recorded by failing the source, at some steps only.
-/

namespace Gadgetron.Sources

open Lib Spaces

def ledger (f : Ledger → Except KnowledgeSpaceError (Ledger × KnowledgeSourceRow)) :
    Request KnowledgeSourceRow :=
  Attempt.step fun w => ((f w.store.sources).mapError Failure.knowledge).map fun (sources, row) =>
    (row, { w with store := { w.store with sources } })

def blobs {α : Type} (f : Store → Except BlobError (α × Store)) : Request α :=
  Attempt.step fun w => ((f w.store).mapError Failure.blob).map fun (a, store) =>
    (a, { w with store })

section

variable (env : Env) (fate : Fate)

/-- `FilesystemBlobStore::put`. -/
def putBlob (newBlobId : Uuid) (bytes : Bytes) : Request BlobRef := do
  if bytes.length > env.maxBytes then
    Attempt.throw (.blob (.tooLarge bytes.length env.maxBytes))
  else
    match ← perform fate .blobLookUp
        (blobs fun s => (s.lookUp env.sha256 bytes).map fun found => (found, s)) with
    | some existing => pure (blobRef existing true)
    | none => do
      perform fate .blobWrite <| blobs fun s =>
        (writeContentAddressed env.sha256 s.files bytes).map fun files =>
          ((), { s with files })
      perform fate .blobUpsert <| blobs fun s =>
        if s.blobs.rows.all fun row => row.id ≠ newBlobId then
          .ok (blobRef (s.upserted env.sha256 newBlobId bytes) false,
            s.upsertBlob env.sha256 newBlobId bytes)
        else
          .error (.database "duplicate key")

/-- `persist_failure`: the source is failed, and the request ends with the error. -/
def persistFailure {α : Type} (source : KnowledgeSourceRow) (needsOcr : Bool) (e : Failure) :
    Request α :=
  match e with
  | .died step => Attempt.throw (.died step)
  | e => do
    effect fate .persistAttempt
    let _ ← perform fate .persistFailure
      (ledger (·.failSource source.id source.revision needsOcr))
    Attempt.throw e

/-- `bind_source_object`, without overwriting. -/
def bindSourceObject (w : World) (sourceId objectId : Uuid) (path : String)
    (contentHash : Digest) : Except Failure (ObjectTable × NoteObjectRow) := do
  let source ← (w.store.sources.getSource sourceId).mapError Failure.knowledge
  if source.status ≠ .pending ∨ source.blobId = none then
    .error (.knowledge .revisionConflict)
  else
    match w.objects.sourceObject source with
    | some existing => if existing.path = path then .ok (w.objects, existing) else .error .conflict
    | none =>
      w.objects.insertObject
        { id := objectId, vaultId := source.vaultId, sourceId := some sourceId, path,
          contentHash := some contentHash }

def bindObject (source : KnowledgeSourceRow) (existing : Option NoteObjectRow) (objectId : Uuid)
    (path : String) (contentHash : Digest) : Request NoteObjectRow :=
  match existing with
  | some object =>
    if object.contentHash = some contentHash then
      pure object
    else
      perform fate .bindObject (registry (·.updateNoteHash object.id object.revision contentHash))
  | none =>
    perform fate .bindObject <| Attempt.step fun w =>
      (bindSourceObject w source.id objectId path contentHash).map fun (objects, row) =>
        (row, { w with objects })

/-- The note of the source is written; if that fails, so does the source. -/
def writeSourceNote (source : KnowledgeSourceRow) (place : Uuid × String) (note : Bytes) :
    Request Unit := do
  effect fate .vaultRepository
  effect fate .ensureDomain
  (writeNote env fate place note).handle (persistFailure fate source false)

/-- What `ingest_pending` does with the extract of the source. -/
def materialize (source : KnowledgeSourceRow) (contentType : String) (contentHash : Digest)
    (extracted : Bytes) (newObjectId : Uuid) : Request Unit := do
  let existing ← perform fate .sourceObject <| query fun w => do
    let source ← (w.store.sources.getSource source.id).mapError Failure.knowledge
    .ok (w.objects.sourceObject source)
  let objectId := (existing.map (·.id)).getD newObjectId
  let path := (existing.map (·.path)).getD (env.sourcePath source.id newObjectId)
  let note ← Attempt.lift
    ((env.sourceNote objectId source.id contentType contentHash extracted).mapError Failure.invalid)
  let object ← bindObject fate source existing objectId path (env.sha256 note)
  writeSourceNote env fate source (source.vaultId, path) note
  let _ ← perform fate .complete (ledger (·.completeSource source.id source.revision object.id))
  effect fate .recordSuccess

def ingestPending (source : KnowledgeSourceRow) (bytes : Bytes) (contentType : String)
    (newBlobId newObjectId : Uuid) : Request Unit := do
  let blob ← (putBlob env fate newBlobId bytes).handle (persistFailure fate source false)
  let source ← perform fate .attach <| ledger fun t =>
    t.attachSourceBlob source.id source.revision
      ⟨blob.id, contentType, bytes.length, blob.contentHash⟩
  effect fate .recordAttempt
  match env.extract bytes contentType with
  | .error needsOcr => persistFailure fate source needsOcr .extraction
  | .ok extracted => materialize env fate source contentType blob.contentHash extracted newObjectId

/-- `ingest_uploaded_source`. -/
def uploadSource (newSourceId : Uuid) (createdAt : ℕ) (request : CreateSource) (bytes : Bytes)
    (contentType : String) (newBlobId newObjectId : Uuid) : Request Unit := do
  let source ← perform fate .createSource
    (ledger (·.createPendingSource newSourceId createdAt request))
  ingestPending env fate source bytes contentType newBlobId newObjectId

/-- The content at a URL with its type, or why there is none. -/
abbrev Fetched := Except Failure (Bytes × String)

def ingestFetched (source : KnowledgeSourceRow) (fetched : Fetched) (newBlobId newObjectId : Uuid) :
    Request Unit := do
  let response ← (perform fate .fetch (Attempt.lift fetched)).handle
    (persistFailure fate source false)
  ingestPending env fate source response.1 response.2 newBlobId newObjectId

def captureUrlSource (newSourceId : Uuid) (createdAt : ℕ) (request : CreateSource)
    (fetched : Fetched) (newBlobId newObjectId : Uuid) : Request Unit := do
  let source ← perform fate .createSource
    (ledger (·.createPendingSource newSourceId createdAt request))
  ingestFetched env fate source fetched newBlobId newObjectId

/-- `retry_source_handler`: from the blob if there is one, or from the URL. -/
def retrySource (sourceId : Uuid) (expectedRevision : ℕ) (fetched : Fetched)
    (newBlobId newObjectId : Uuid) : Request Unit := do
  let source ← perform fate .beginRetry (ledger (·.beginRetry sourceId expectedRevision))
  match source.blobId with
  | some blobId => do
    let bytes ← perform fate .blobGet
      (blobs fun s => (s.get env.sha256 blobId).map fun bytes => (bytes, s))
    match source.contentType with
    | none => Attempt.throw (.invalid "retained source blob has no content type")
    | some contentType => ingestPending env fate source bytes contentType newBlobId newObjectId
  | none =>
    match source.requestedUri with
    | none => Attempt.throw (.invalid "failed source has neither blob nor requested URL")
    | some _ => ingestFetched env fate source fetched newBlobId newObjectId

/-! ## Deletion -/

/-- `FilesystemBlobStore::delete`. -/
def deleteBlob (blobId : Uuid) : Request Unit := do
  let row ← perform fate .blobRow (blobs fun s => (s.row blobId).map fun row => (row, s))
  let references ← perform fate .blobReferences
    (blobs fun s => .ok (s.sources.liveBlobReferenceCount blobId, s))
  if references > 0 then
    Attempt.throw (.blob (stillReferenced blobId references))
  else do
    perform fate .markBlob (blobs fun s => .ok ((), s.markDeleted blobId))
    perform fate .removeBlob (blobs fun s => .ok ((), s.removeFile row.contentHash))

/-- The note of a source that is deleted, if it has one, is removed. -/
def removeSourceNote (sourceId : Uuid) : Request Unit := do
  let existing ← perform fate .sourceObject <| query fun w => do
    let source ← (w.store.sources.getSource sourceId).mapError Failure.knowledge
    .ok (w.objects.sourceObject source)
  match existing with
  | none => pure ()
  | some object => do
    let location ← perform fate .location (query (·.objects.noteLocation object.id))
    effect fate .lock
    removeNote env fate location.place object.id object.revision

/-- The row of a source is purged, and its blob with it unless others refer to it. -/
def purgeSource (sourceId : Uuid) (expectedRevision : ℕ) (blobId : Uuid) : Request Unit := do
  let _ ← perform fate .purge (ledger (·.purgePurgeableSource sourceId expectedRevision))
  let references ← perform fate .countReferences
    (blobs fun s => .ok (s.sources.liveBlobReferenceCount blobId, s))
  if references = 0 then deleteBlob fate blobId else pure ()

def deleteSource (sourceId : Uuid) (expectedRevision : ℕ) : Request Unit := do
  let current ← perform fate .getSource <| query fun w =>
    (w.store.sources.getSource sourceId).mapError Failure.knowledge
  if current.revision ≠ expectedRevision then
    Attempt.throw .conflict
  else if current.sourceKind.purgeable then do
    removeSourceNote env fate sourceId
    match current.blobId with
    | none => Attempt.throw (.invalid "purgeable source has no retained blob")
    | some blobId => purgeSource fate sourceId expectedRevision blobId
  else do
    let _ ← perform fate .deleteSource (ledger (·.deleteSource sourceId expectedRevision))

/-- The loop of `purge_chat_attachments_handler`. -/
def purgeAll : List KnowledgeSourceRow → Request Unit
  | [] => pure ()
  | source :: rest => do
    deleteSource env fate source.id source.revision
    purgeAll rest

/-- `purge_chat_attachments_handler`, for the owner of the conversation. -/
def purgeChatAttachments (conversationId : Uuid) : Request Unit := do
  let rows ← perform fate .listSources <| query fun w =>
    .ok (w.store.sources.listConversationSources conversationId)
  purgeAll env fate (rows.filter (·.sourceKind = .chatAttachment))

end

/-! ## Sequences of requests -/

inductive Call
  | createNote (vaultId newId : Uuid) (title : String) (bytes : Bytes)
  | putNote (objectId : Uuid) (expectedRevision : ℕ) (bytes : Bytes)
  | deleteNote (objectId : Uuid) (expectedRevision : ℕ)
  | upload (newSourceId : Uuid) (createdAt : ℕ) (request : CreateSource) (bytes : Bytes)
      (contentType : String) (newBlobId newObjectId : Uuid)
  | capture (newSourceId : Uuid) (createdAt : ℕ) (request : CreateSource) (fetched : Fetched)
      (newBlobId newObjectId : Uuid)
  | retry (sourceId : Uuid) (expectedRevision : ℕ) (fetched : Fetched)
      (newBlobId newObjectId : Uuid)
  | deleteSource (sourceId : Uuid) (expectedRevision : ℕ)
  | purgeChatAttachments (conversationId : Uuid)

def requestOf (env : Env) (fate : Fate) : Call → Request Unit
  | .createNote vaultId newId title bytes => createNote env fate vaultId newId title bytes
  | .putNote objectId expectedRevision bytes => putNote env fate objectId expectedRevision bytes
  | .deleteNote objectId expectedRevision => deleteNote env fate objectId expectedRevision
  | .upload newSourceId createdAt request bytes contentType newBlobId newObjectId =>
    uploadSource env fate newSourceId createdAt request bytes contentType newBlobId newObjectId
  | .capture newSourceId createdAt request fetched newBlobId newObjectId =>
    captureUrlSource env fate newSourceId createdAt request fetched newBlobId newObjectId
  | .retry sourceId expectedRevision fetched newBlobId newObjectId =>
    retrySource env fate sourceId expectedRevision fetched newBlobId newObjectId
  | .deleteSource sourceId expectedRevision => deleteSource env fate sourceId expectedRevision
  | .purgeChatAttachments conversationId => purgeChatAttachments env fate conversationId

abbrev requestMachine (env : Env) : Machine World (Call × Fate) :=
  ⟨fun w a => some (requestOf env a.2 a.1 w).2⟩

end Gadgetron.Sources
