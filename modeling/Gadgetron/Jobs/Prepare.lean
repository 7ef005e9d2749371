import Gadgetron.Jobs.ChangeSet
import Gadgetron.Knowledge.ObsidianNote

/-!
# What a change set writes

`prepare_operations`: the notes that the operations of a change set write and the objects that they
change.
-/

namespace Gadgetron.Jobs.Materialize

open Lib Policy Spaces Knowledge

structure LessonRevisionTarget where
  objectId : Uuid
  expectedRevision : ℤ
  (contentHash title : String)
  body : List Char
  sourceIds : List Uuid
  originatingSubject : Option OriginatingSubject

structure Pins where
  evolution : Option (List (String × Json))
  origin : Option OriginatingSubject
  lesson : Option LessonRevisionTarget

structure Context where
  actor : SpaceActor
  (changeSetId spaceId vaultId : Uuid)
  homeBundleId : String
  pins : Pins

/-- The codec of notes, SHA-256 in hexadecimal digits, the deterministic ids, and what the database
says of Vaults, pins and relation targets. -/
structure Env (T : Type) where
  codec : NoteCodec Json T
  hash : ByteArray → String
  objectId : Uuid → ℕ → Uuid
  splitObjectId : Uuid → ℕ → ℕ → Uuid
  parse : String → Option Uuid
  isAlphanumeric : Char → Bool
  toLowercase : Char → List Char
  homeBundle : (tenantId vaultId spaceId : Uuid) → Except String String
  pins : SpaceActor → (changeSetId : Uuid) → Except String Pins
  relationTargets : SpaceActor → (spaceId : Uuid) → Properties Json → Except String Unit

/-- `VaultNoteWrite`; `read` is what the operation has read of the note, if it has read it. -/
structure VaultNoteWrite where
  relativePath : String
  bytes : ByteArray
  read : Option ByteArray

/-- `PreparedMaterialization`, with the ids that are taken. -/
structure Prepared where
  writes : List VaultNoteWrite
  objects : List MaterializedObjectInput
  touched : List Uuid

def Prepared.empty : Prepared := ⟨[], [], []⟩

structure Target where
  operation : Json
  object : KnowledgeObjectRow
  expectedRevision : ℤ

/-- An operation before a note is read: it needs none, or this one. -/
inductive Opened
  | done (prepared : Prepared)
  | reads (target : Target)

/-! ## Fields of operations -/

def ensure (holds : Bool) (detail : String) : Except String Unit :=
  if holds then .ok () else .error detail

def orFail {α : Type} (value : Option α) (detail : String) : Except String α :=
  match value with
  | some a => .ok a
  | none => .error detail

def ofDigits (digits : List Char) : Option ℤ :=
  if digits ≠ [] && digits.all Char.isDigit then some (Nat.ofDigitChars 10 digits 0) else none

def asI64 : Json → Option ℤ
  | .number text =>
    let value :=
      match text.toList with
      | '-' :: digits => (ofDigits digits).map Neg.neg
      | digits => ofDigits digits
    value.filter fun n => -2 ^ 63 ≤ n && n < 2 ^ 63
  | _ => none

def requiredStr (value : Json) (field : String) : Except String String :=
  orFail (((Json.get field value).bind Json.asStr).filter fun text => trim text ≠ "")
    ("Change-set field " ++ field ++ " is required")

def requiredI64 (value : Json) (field : String) : Except String ℤ :=
  orFail (((Json.get field value).bind asI64).filter fun n => 0 < n)
    ("Change-set field " ++ field ++ " is invalid")

def optionalProperties (value : Json) : Except String (Properties Json) :=
  match Json.get "properties" value with
  | none => .ok .empty
  | some (.object fields) =>
    .ok (fields.foldl (fun properties field => properties.insert field.1 field.2) .empty)
  | some _ => .error "Invalid note properties"

/-- `OriginatingSubject` from JSON, which may have no other field. -/
def subjectOfJson (value : Json) : Option OriginatingSubject :=
  let field (key : String) : Option String := (Json.get key value).bind Json.asStr
  let keys := ["owner_bundle", "subject_kind", "subject_id", "subject_revision"]
  match value with
  | .object fields =>
    if fields.all fun entry => keys.contains entry.1 then do
      let ownerBundle ← field "owner_bundle"
      let subjectKind ← field "subject_kind"
      let subjectId ← field "subject_id"
      let subjectRevision ← field "subject_revision"
      some ⟨ownerBundle, subjectKind, subjectId, subjectRevision⟩
    else none
  | _ => none

def subjectToJson (subject : OriginatingSubject) : Json :=
  .object
    [("owner_bundle", .string subject.ownerBundle), ("subject_kind", .string subject.subjectKind),
      ("subject_id", .string subject.subjectId),
      ("subject_revision", .string subject.subjectRevision)]

def originatingSubject (properties : Properties Json) : Except String (Option OriginatingSubject) :=
  match properties.get? "originating_subject" with
  | none => .ok none
  | some value => (orFail (subjectOfJson value) "Invalid originating_subject metadata").map some

def applyPinnedOriginatingSubject (properties : Properties Json)
    (pinned : Option OriginatingSubject) : Except String (Properties Json) := do
  let supplied ← originatingSubject properties
  match pinned with
  | none => do
    ensure supplied.isNone "originating_subject is reserved for a Core-pinned domain event"
    .ok properties
  | some subject => do
    ensure (supplied.all fun actual => actual = subject)
      "originating_subject does not match the Core-pinned event"
    .ok (properties.insert "originating_subject" (subjectToJson subject))

def setAll (properties : Properties Json) (values : List (String × Json)) : Properties Json :=
  values.foldl (fun properties field => properties.insert field.1 field.2) properties

/-! ## Paths of notes -/

section

variable {T : Type} (env : Env T)

/-- The loop of `domain_note_relative_path`; `count` characters are in the slug. -/
def slugLoop : List Char → (slug : List Char) → (separator : Bool) → (count : ℕ) → List Char
  | [], slug, _, _ => slug
  | c :: rest, slug, separator, count =>
    let (slug, separator, count) :=
      if env.isAlphanumeric c then
        (slug ++ env.toLowercase c, false, count + (env.toLowercase c).length)
      else if separator then (slug, separator, count)
      else (slug ++ ['-'], true, count + 1)
    if 80 ≤ count then slug else slugLoop rest slug separator count

def noteRelativePath (title : String) (id : Uuid) : String :=
  let slug := (slugLoop env (trim title).toList [] true 0).rdropWhile (· = '-')
  let slug := if slug = [] then "note".toList else slug
  "notes/" ++ String.ofList slug ++ "--" ++ String.ofList ((Uuid.toText id).toList.take 8) ++ ".md"

/-- `str::rsplit_once("--")` on a text in reverse; `suffix` is what comes after. -/
def rsplitDashes : (reversed suffix : List Char) → Option (List Char × List Char)
  | '-' :: '-' :: rest, suffix => some (rest.reverse, suffix)
  | c :: rest, suffix => rsplitDashes rest (c :: suffix)
  | [], _ => none

def validNoteFileName (stem : List Char) : Bool :=
  (env.parse (String.ofList stem)).isSome ||
    (rsplitDashes stem.reverse []).any fun (slug, suffix) =>
      slug ≠ [] && stem.length ≤ 96 &&
        (slug.all fun c => env.isAlphanumeric c || c = '-') && suffix.length = 8 &&
        suffix.all fun c => c.isDigit || ('a' ≤ c && c ≤ 'f') || ('A' ≤ c && c ≤ 'F')

/-- `str::trim_end_matches(".md")` on a text in reverse. -/
def trimMd : List Char → List Char
  | 'd' :: 'm' :: '.' :: rest => trimMd rest
  | rest => rest

/-- `validate_note_relative_path`. -/
def validNoteRelativePath (path : String) : Bool :=
  match path.toList.splitOn '/' with
  | [prefixPart, fileName] =>
    prefixPart ≠ [] && prefixPart.length ≤ 63 &&
      (prefixPart.all fun c => ('a' ≤ c && c ≤ 'z') || c.isDigit || c = '-') &&
      ".md".toList.isSuffixOf fileName &&
      validNoteFileName env (trimMd fileName.reverse).reverse
  | _ => false

end

/-! ## Operations -/

section

variable {T : Type} (env : Env T)

def requiredUuid (value : Json) (field : String) : Except String Uuid := do
  let text ← requiredStr value field
  orFail (env.parse text) ("Change-set field " ++ field ++ " is not a UUID")

def serialize (properties : Properties Json) (body : List Char) : Except String ByteArray :=
  ((serializeObsidianNote env.codec properties body).mapError NoteFormatError.toString).map
    fun text => (String.ofList text).toUTF8

def touch (prepared : Prepared) (id : Uuid) : Except String Prepared := do
  ensure (!prepared.touched.contains id) "A note is changed more than once in one change set"
  .ok { prepared with touched := id :: prepared.touched }

def pushNewNote (prepared : Prepared) (id : Uuid) (body : String) (properties : Properties Json) :
    Except String Prepared := do
  let bytes ← serialize env properties body.toList
  let subject ← originatingSubject properties
  let title := ((properties.get? "title").bind Json.asStr).getD "Knowledge note"
  let path := noteRelativePath env title id
  .ok
    { prepared with
      writes := prepared.writes ++ [⟨path, bytes, none⟩]
      objects :=
        prepared.objects ++
          [{ id
             path
             contentHash := ""
             expectedRevision := none
             originatingSubject := subject }] }

def loadObject (objects : Table KnowledgeObjectRow.id) (tenantId vaultId objectId : Uuid) :
    Except String KnowledgeObjectRow :=
  orFail
    ((objects.get objectId).filter fun row =>
      row.tenantId = tenantId && row.vaultId = vaultId && row.active)
    "A target note is unavailable"

def createNote (context : Context) (prepared : Prepared) (id : Uuid) (source : Json)
    (set : List (String × Json)) : Except String Prepared := do
  let prepared ← touch prepared id
  let title ← requiredStr source "title"
  let body ← requiredStr source "body"
  let properties ← optionalProperties source
  let properties ← applyPinnedOriginatingSubject properties context.pins.origin
  env.relationTargets context.actor context.spaceId properties
  pushNewNote env prepared id body
    (setAll properties
      ([("id", .string (Uuid.toText id)), ("title", .string title),
        ("change_set", .string (Uuid.toText context.changeSetId))] ++ set))

def revisionedNoteRefs (value : Json) (field : String) : Except String (List (Uuid × ℤ)) := do
  let references ← orFail ((Json.get field value).bind Json.asArray)
    ("Change-set field " ++ field ++ " is required")
  references.mapM fun reference => do
    let id ← requiredUuid env reference "object_id"
    let revision ← requiredI64 reference "expected_revision"
    .ok (id, revision)

/-- The `merge_notes` case. -/
def mergeNotes (objects : Table KnowledgeObjectRow.id) (context : Context) (position : ℕ)
    (operation : Json) (prepared : Prepared) : Except String Prepared := do
  let sources ← revisionedNoteRefs env operation "sources"
  ensure (2 ≤ sources.length && sources.length ≤ 20)
    "A merge must contain between 2 and 20 source notes"
  let _ ← sources.foldlM
    (fun seen (id, revision) => do
      ensure (!seen.contains id) "A merge source note is repeated"
      let source ← loadObject objects context.actor.tenantId context.vaultId id
      ensure (source.revision = revision) "A merge source changed after the proposal was created"
      .ok (id :: seen))
    []
  let ids := Json.array (sources.map fun source => .string (Uuid.toText source.1))
  createNote env context prepared (env.objectId context.changeSetId position) operation
    [("canonical_change", .string "merge"), ("derived_from", ids), ("supersedes", ids),
      ("source_revisions",
        .object (sortBy (fun a b => compare a.1 b.1) (sources.map fun source =>
          (Uuid.toText source.1, .number (toString source.2)))))]

/-- The `split_note` case. -/
def splitNote (objects : Table KnowledgeObjectRow.id) (context : Context) (position : ℕ)
    (operation : Json) (prepared : Prepared) : Except String Prepared := do
  let sourceId ← requiredUuid env operation "source_object_id"
  let revision ← requiredI64 operation "expected_revision"
  let source ← loadObject objects context.actor.tenantId context.vaultId sourceId
  ensure (source.revision = revision) "The split source changed after the proposal was created"
  let outputs ← orFail
    (((Json.get "outputs" operation).bind Json.asArray).filter fun outputs =>
      2 ≤ outputs.length && outputs.length ≤ 20)
    "A split must contain between 2 and 20 output notes"
  outputs.zipIdx.foldlM
    (fun prepared (output, outputPosition) =>
      createNote env context prepared
        (env.splitObjectId context.changeSetId position outputPosition) output
        [("canonical_change", .string "split"), ("derived_from", .string (Uuid.toText sourceId)),
          ("source_revision", .number (toString revision))])
    prepared

/-- The checks of `update_note` and `link` before the note is read. -/
def openTarget (objects : Table KnowledgeObjectRow.id) (context : Context) (operation : Json)
    (kind : String) (prepared : Prepared) : Except String Target := do
  let id ← requiredUuid env operation "object_id"
  let _ ← touch prepared id
  let revision ← requiredI64 operation "expected_revision"
  let object ← loadObject objects context.actor.tenantId context.vaultId id
  ensure (object.revision = revision) "A target note changed after the proposal was created"
  ensure
    (context.pins.lesson.all fun target =>
      kind = "update_note" && id = target.objectId && revision = target.expectedRevision &&
        object.contentHash = some target.contentHash)
    "A Lesson revision must retain the Core-pinned object, revision and content hash"
  .ok ⟨operation, object, revision⟩

def openOperation (objects : Table KnowledgeObjectRow.id) (context : Context) (position : ℕ)
    (operation : Json) (prepared : Prepared) : Except String Opened := do
  let kind ← requiredStr operation "op"
  match kind with
  | "create_note" =>
    (createNote env context prepared (env.objectId context.changeSetId position) operation
      (context.pins.evolution.getD [])).map .done
  | "update_note" | "link" => (openTarget env objects context operation kind prepared).map .reads
  | "merge_notes" => (mergeNotes env objects context position operation prepared).map .done
  | "split_note" => (splitNote env objects context position operation prepared).map .done
  | _ => .error ("Unsupported change-set operation " ++ kind)

def lessonSourceIds (properties : Properties Json) : Except String (List Uuid) := do
  let values ← orFail ((properties.get? "source_ids").bind Json.asArray)
    "A pinned Lesson is missing Source provenance"
  let sourceIds ← values.mapM fun value =>
    orFail ((Json.asStr value).bind env.parse) "A pinned Lesson Source reference is invalid"
  ensure (sourceIds ≠ []) "A pinned Lesson is missing Source provenance"
  .ok (sortBy (fun a b => compare a.toNat b.toNat) sourceIds).dedup

def checkLesson (target : LessonRevisionTarget) (note : ParsedObsidianNote Json)
    (subject : Option OriginatingSubject) : Except String Unit := do
  let changed := "The pinned Lesson changed after the revision proposal was created"
  ensure
    ((((note.properties.get? "title").bind Json.asStr).getD "Knowledge note") = target.title &&
      note.body = target.body)
    changed
  let sourceIds ← lessonSourceIds env note.properties
  ensure (sourceIds = target.sourceIds && subject = target.originatingSubject) changed

def checkPinnedLesson (pinned : Option LessonRevisionTarget) (note : ParsedObsidianNote Json)
    (subject : Option OriginatingSubject) : Except String Unit :=
  match pinned with
  | none => .ok ()
  | some target => checkLesson env target note subject

def trimEnd (text : List Char) : List Char := text.rdropWhile isWhitespace

def linkedBody (relation : String) (targetId : Uuid) (body : List Char) : List Char :=
  let link := "[[".toList ++ (Uuid.toText targetId).toList ++ "]]".toList
  if body.tails.any link.isPrefixOf then body
  else trimEnd body ++ "\n\n".toList ++ relation.toList ++ ": ".toList ++ link ++ "\n".toList

/-- The properties and the body that `update_note` or `link` gives to a note. -/
def changedNote (objects : Table KnowledgeObjectRow.id) (context : Context) (operation : Json)
    (note : ParsedObsidianNote Json) : Except String (Properties Json × List Char) :=
  if (Json.get "op" operation).bind Json.asStr = some "update_note" then do
    let body ← requiredStr operation "body"
    let title := (Json.get "title" operation).bind Json.asStr
    let properties := setAll note.properties
      ((title.map fun title => ("title", Json.string title)).toList ++
        context.pins.evolution.getD [])
    .ok (properties, body.toList)
  else do
    let targetId ← requiredUuid env operation "target_object_id"
    let _ ← loadObject objects context.actor.tenantId context.vaultId targetId
    let relation := ((Json.get "relation" operation).bind Json.asStr).getD "Related"
    .ok (note.properties, linkedBody relation targetId note.body)

/-- `update_note` and `link` after the note was read. -/
def changeTarget (objects : Table KnowledgeObjectRow.id) (context : Context) (target : Target)
    (bytes : ByteArray) (prepared : Prepared) : Except String Prepared := do
  let raw ← orFail (String.fromUTF8? bytes) "A target note is not UTF-8"
  let note ← (parseObsidianNote env.codec raw.toList).mapError NoteFormatError.toString
  let subject ← originatingSubject note.properties
  ensure (subject = target.object.originatingSubject)
    "A target note originating subject does not match the Core registry"
  checkPinnedLesson env context.pins.lesson note subject
  let (properties, body) ← changedNote env objects context target.operation note
  let written ← serialize env properties body
  .ok
    { writes := prepared.writes ++ [⟨target.object.path, written, some bytes⟩]
      objects :=
        prepared.objects ++
          [{ id := target.object.id
             path := target.object.path
             contentHash := ""
             expectedRevision := some target.expectedRevision
             originatingSubject := target.object.originatingSubject }]
      touched := target.object.id :: prepared.touched }

/-- The checks at the start of `prepare_operations`. -/
def openContext (actor : SpaceActor) (row : KnowledgeChangeSetRow) :
    Except String (Context × List Json) := do
  let homeBundleId ← env.homeBundle actor.tenantId row.outputVaultId row.spaceId
  let operations ← orFail (Json.asArray row.operations) "Change-set operations are invalid"
  let pins ← env.pins actor row.id
  ensure (pins.lesson.isNone || pins.evolution.isSome)
    "A pinned Lesson revision requires a reviewed structured Candidate"
  let expected := if pins.lesson.isSome then "update_note" else "create_note"
  ensure
    (pins.evolution.isNone ||
      operations.map (fun operation => (Json.get "op" operation).bind Json.asStr) = [some expected])
    ("A structured Candidate must materialize as one " ++ expected ++ " operation")
  .ok (⟨actor, row.id, row.spaceId, row.outputVaultId, homeBundleId, pins⟩, operations)

end

end Gadgetron.Jobs.Materialize
