import Gadgetron.Lib.Attempt
import Gadgetron.Sources.Blobs

/-!
# The registry and the vault of notes

A note is a row of the registry and a file of the vault, at the path on record.
-/

namespace Gadgetron.Sources

open Lib Spaces

inductive Step
  | registerNote
  | compensate
  | lock
  | location
  | readNote
  | commitExternal
  | updateHashSystem
  | vaultRepository
  | ensureDomain
  | writeNote
  | commitNote
  | updateHash
  | archive
  | archiveCommit
  | tombstone
  | createSource
  | fetch
  | blobLookUp
  | blobWrite
  | blobUpsert
  | attach
  | recordAttempt
  | sourceObject
  | bindObject
  | complete
  | recordSuccess
  | persistAttempt
  | persistFailure
  | beginRetry
  | blobGet
  | getSource
  | purge
  | countReferences
  | blobRow
  | blobReferences
  | markBlob
  | removeBlob
  | deleteSource
  | listSources
  deriving DecidableEq

/-- What happens at a step: it is made, it fails, or the request ends there for good. -/
inductive Outcome
  | runs
  | fails
  | dies
  deriving DecidableEq

abbrev Fate := Step → Outcome

def smooth : Fate := fun _ => .runs

inductive VaultError
  | invalidNotePath (path : String)
  | io
  deriving DecidableEq

inductive Failure
  | knowledge (error : KnowledgeSpaceError)
  | conflict
  | blob (error : BlobError)
  | vault (error : VaultError)
  | invalid (reason : String)
  | fetch
  | extraction
  | broken (step : Step)
  | died (step : Step)
  deriving DecidableEq

/-! ## The registry -/

inductive ObjectStatus
  | active
  | tombstone
  deriving DecidableEq

structure NoteObjectRow where
  (id vaultId : Uuid)
  sourceId : Option Uuid
  path : String
  status : ObjectStatus := .active
  contentHash : Option Digest
  revision : ℕ := 1

abbrev ObjectTable := Table NoteObjectRow.id

namespace NoteObjectRow

def place (row : NoteObjectRow) : Uuid × String := (row.vaultId, row.path)

end NoteObjectRow

namespace ObjectTable

variable (t : ObjectTable)

/-- `source_object`, once the source is found. -/
def sourceObject (source : KnowledgeSourceRow) : Option NoteObjectRow :=
  t.rows.find? fun row =>
    row.vaultId = source.vaultId && row.sourceId = some source.id && row.status ≠ .tombstone

def noteLocation (id : Uuid) : Except Failure NoteObjectRow :=
  match t.get id with
  | none => .error (.knowledge .notFound)
  | some row => if row.status = .active then .ok row else .error (.knowledge .notFound)

def insertObject (row : NoteObjectRow) : Except Failure (ObjectTable × NoteObjectRow) :=
  if t.rows.any fun other => other.place = row.place ||
      (row.sourceId.isSome && other.sourceId = row.sourceId && other.status ≠ .tombstone) then
    .error .conflict
  else
    match t.insert row with
    | some t' => .ok (t', row)
    | none => .error .conflict

/-- A change of an active note whose revision is the one seen, with `resolve_object_cas`. -/
def cas (id : Uuid) (expectedRevision : ℕ) (set : NoteObjectRow → NoteObjectRow) :
    Except Failure (ObjectTable × NoteObjectRow) := do
  let row ← t.noteLocation id
  if row.revision = expectedRevision then
    let row' :=
      { set row with
        id := row.id
        vaultId := row.vaultId
        path := row.path
        sourceId := row.sourceId
        revision := row.revision + 1 }
    .ok (t.put row', row')
  else
    .error (.knowledge .revisionConflict)

/-- `update_note_hash` and `update_note_hash_system`. -/
def updateNoteHash (id : Uuid) (expectedRevision : ℕ) (contentHash : Digest) :
    Except Failure (ObjectTable × NoteObjectRow) :=
  t.cas id expectedRevision fun row => { row with contentHash := some contentHash }

def deleteNote (id : Uuid) (expectedRevision : ℕ) : Except Failure (ObjectTable × NoteObjectRow) :=
  t.cas id expectedRevision fun row => { row with status := .tombstone }

end ObjectTable

/-! ## Requests on notes -/

/-- What requests work on: blobs and sources, the registry of notes and the files of the vaults. -/
structure World where
  store : Store := {}
  objects : ObjectTable := Table.empty
  notes : Uuid × String → Option Bytes := fun _ => none

structure Env where
  sha256 : Bytes → Digest
  maxBytes : ℕ
  /-- `extract_source`; an error says whether the source needs OCR. -/
  extract : Bytes → String → Except Bool Bytes
  /-- `build_source_note`, from the object, the source, the type, the hash and the extract. -/
  sourceNote : Uuid → Uuid → String → Digest → Bytes → Except String Bytes
  sourcePath : Uuid → Uuid → String
  notePath : String → Uuid → String
  validPath : String → Bool

abbrev Request (α : Type) := Attempt World Failure α

def perform {α : Type} (fate : Fate) (step : Step) (x : Request α) : Request α :=
  match fate step with
  | .runs => x
  | .fails => Attempt.throw (.broken step)
  | .dies => Attempt.throw (.died step)

def query {α : Type} (f : World → Except Failure α) : Request α :=
  Attempt.step fun w => (f w).map fun a => (a, w)

def registry (f : ObjectTable → Except Failure (ObjectTable × NoteObjectRow)) :
    Request NoteObjectRow :=
  Attempt.step fun w => (f w.objects).map fun (objects, row) => (row, { w with objects })

/-- A step that the model has nothing to say of but that it may fail. -/
def effect (fate : Fate) (step : Step) : Request Unit := perform fate step (pure ())

section

variable (env : Env) (fate : Fate)

/-- The file at a place, once its path is checked. -/
def readNote (place : Uuid × String) : Request Bytes :=
  query fun w =>
    if env.validPath place.2 then
      match w.notes place with
      | some bytes => .ok bytes
      | none => .error (.vault .io)
    else
      .error (.vault (.invalidNotePath place.2))

/-- The writing of `write_note_locked`, without the commit. -/
def writeFile (place : Uuid × String) (bytes : Bytes) : Request Unit :=
  Attempt.step fun w =>
    if env.validPath place.2 then
      .ok ((), { w with notes := Function.update w.notes place (some bytes) })
    else
      .error (.vault (.invalidNotePath place.2))

def writeNote (place : Uuid × String) (bytes : Bytes) : Request Unit := do
  perform fate .writeNote (writeFile env place bytes)
  effect fate .commitNote

/-- The renaming of `archive_note_locked`, which fails if the file is missing. -/
def archiveFile (place : Uuid × String) : Request Unit :=
  Attempt.step fun w =>
    if env.validPath place.2 then
      match w.notes place with
      | some _ => .ok ((), { w with notes := Function.update w.notes place none })
      | none => .error (.vault .io)
    else
      .error (.vault (.invalidNotePath place.2))

/-- `archive_note_locked`. -/
def archiveNote (place : Uuid × String) : Request Unit := do
  perform fate .archive (archiveFile env place)
  effect fate .archiveCommit

/-- `create_note_handler`: if the file cannot be written, the row is made a tombstone; that the
repository cannot be opened is returned as it is. -/
def createNote (vaultId newId : Uuid) (title : String) (bytes : Bytes) : Request Unit := do
  let object ← perform fate .registerNote <| registry fun t =>
    t.insertObject
      { id := newId, vaultId, sourceId := none, path := env.notePath title newId,
        contentHash := some (env.sha256 bytes) }
  effect fate .vaultRepository
  let write : Request Unit := do
    effect fate .ensureDomain
    writeNote env fate object.place bytes
  write.handle fun e =>
    match e with
    | .died step => Attempt.throw (.died step)
    | e =>
      -- the result of the compensation is not looked at
      (do let _ ← perform fate .compensate (registry (·.deleteNote newId object.revision))
          Attempt.throw e : Request Unit).handle fun e' =>
        match e' with
        | .died step => Attempt.throw (.died step)
        | _ => Attempt.throw e

/-- What `put_note_handler` does once the note on disk is the one on record. -/
def editNote (object : NoteObjectRow) (bytes : Bytes) : Request Unit := do
  writeNote env fate object.place bytes
  let _ ← perform fate .updateHash
    (registry (·.updateNoteHash object.id object.revision (env.sha256 bytes)))

/-- `put_note_handler`; that the vault is at the revision that the caller has seen is one of the
steps that may fail. -/
def putNote (objectId : Uuid) (expectedRevision : ℕ) (bytes : Bytes) : Request Unit := do
  effect fate .lock
  let object ← perform fate .location (query (·.objects.noteLocation objectId))
  if object.revision ≠ expectedRevision then
    Attempt.throw .conflict
  else do
    let current ← perform fate .readNote (readNote env object.place)
    if object.contentHash ≠ some (env.sha256 current) then do
      effect fate .commitExternal
      let _ ← perform fate .updateHashSystem
        (registry (·.updateNoteHash objectId object.revision (env.sha256 current)))
      Attempt.throw .conflict
    else
      editNote env fate object bytes

def removeNote (place : Uuid × String) (objectId : Uuid) (revision : ℕ) : Request Unit := do
  archiveNote env fate place
  let _ ← perform fate .tombstone (registry (·.deleteNote objectId revision))

/-- `delete_note_handler`. -/
def deleteNote (objectId : Uuid) (expectedRevision : ℕ) : Request Unit := do
  effect fate .lock
  let object ← perform fate .location (query (·.objects.noteLocation objectId))
  if object.revision ≠ expectedRevision then
    Attempt.throw .conflict
  else
    removeNote env fate object.place objectId expectedRevision

/-- The notes that `build_snapshot` reads: those of all active objects. -/
def readNotes (w : World) : Except Failure (List Bytes) :=
  (w.objects.rows.filter (·.status = .active)).mapM fun object =>
    match readNote env object.place w with
    | (.ok bytes, _) => .ok bytes
    | (.error e, _) => .error e

end

end Gadgetron.Sources
