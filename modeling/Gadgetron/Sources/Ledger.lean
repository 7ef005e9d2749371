import Gadgetron.Lib.Table
import Gadgetron.Spaces.Access

/-!
# The source ledger

A source starts `pending`, gets a blob, and is `extracted` or fails; a failed one may be retried.
-/

namespace Gadgetron.Sources

open Lib Spaces

inductive SourceKind
  | upload
  | article
  | socialSnapshot
  | chatAttachment
  | incidentSnapshot
  deriving DecidableEq

/-- The kinds that are removed with their content: `"social_snapshot" | "chat_attachment"`. -/
def SourceKind.purgeable : SourceKind → Bool
  | .socialSnapshot | .chatAttachment => true
  | .upload | .article | .incidentSnapshot => false

inductive SourceStatus
  | pending
  | extracted
  | failed
  | needsOcr
  | deleted
  deriving DecidableEq

/-- A row of `knowledge_sources`; `deleted` says that `deleted_at` is set. -/
structure KnowledgeSourceRow where
  (id vaultId : Uuid)
  conversationId : Option Uuid
  sourceKind : SourceKind
  status : SourceStatus := .pending
  requestedUri : Option String
  contentType : Option String := none
  byteSize : Option ℕ := none
  contentHash : Option (BitVec 256) := none
  blobId : Option Uuid := none
  extractedObjectId : Option Uuid := none
  attemptCount : ℕ := 1
  revision : ℕ := 1
  createdAt : ℕ
  deleted : Bool := false

abbrev Ledger := Table KnowledgeSourceRow.id

structure CreateSource where
  vaultId : Uuid
  conversationId : Option Uuid
  sourceKind : SourceKind
  requestedUri : Option String

structure AttachSourceBlob where
  blobId : Uuid
  contentType : String
  byteSize : ℕ
  contentHash : BitVec 256

namespace Ledger

variable (t : Ledger)

/-- `get_source`, for an actor with the role. -/
def getSource (id : Uuid) : Except KnowledgeSpaceError KnowledgeSourceRow :=
  match t.get id with
  | none => .error .notFound
  | some row => if row.deleted then .error .notFound else .ok row

def createPendingSource (id : Uuid) (createdAt : ℕ) (request : CreateSource) :
    Except KnowledgeSpaceError (Ledger × KnowledgeSourceRow) :=
  if (request.sourceKind = .article ∨ request.sourceKind = .socialSnapshot) ∧
      request.requestedUri = none then
    .error (.invalidInput "URL source requires requested_uri")
  else if request.sourceKind = .chatAttachment ∧ request.conversationId = none then
    .error (.invalidInput "chat attachment requires conversation_id")
  else
    let row : KnowledgeSourceRow :=
      { id, vaultId := request.vaultId, conversationId := request.conversationId,
        sourceKind := request.sourceKind, requestedUri := request.requestedUri,
        createdAt }
    match t.insert row with
    | some t' => .ok (t', row)
    | none => .error .database

/-- `UPDATE … WHERE id = $1 AND revision = $3 AND …`, then `resolve_source_cas`. -/
def cas (id : Uuid) (expectedRevision : ℕ) (guard : KnowledgeSourceRow → Bool)
    (set : KnowledgeSourceRow → KnowledgeSourceRow) :
    Except KnowledgeSpaceError (Ledger × KnowledgeSourceRow) :=
  match t.get id with
  | none => .error .notFound
  | some row =>
    if row.revision = expectedRevision ∧ guard row then
      let row' := { set row with id := row.id, revision := row.revision + 1 }
      .ok (t.put row', row')
    else
      .error .revisionConflict

def attachSourceBlob (id : Uuid) (expectedRevision : ℕ) (blob : AttachSourceBlob) :
    Except KnowledgeSpaceError (Ledger × KnowledgeSourceRow) := do
  let current ← t.getSource id
  if current.revision ≠ expectedRevision ∨ current.status ≠ .pending then
    .error .revisionConflict
  else
    t.cas id expectedRevision (·.status = .pending) fun row =>
      { row with
        blobId := some blob.blobId
        contentType := some blob.contentType
        byteSize := some blob.byteSize
        contentHash := some blob.contentHash }

def completeSource (id : Uuid) (expectedRevision : ℕ) (objectId : Uuid) :
    Except KnowledgeSpaceError (Ledger × KnowledgeSourceRow) := do
  let current ← t.getSource id
  if current.revision ≠ expectedRevision ∨ current.blobId = none then
    .error .revisionConflict
  else
    t.cas id expectedRevision (·.status = .pending) fun row =>
      { row with status := .extracted, extractedObjectId := some objectId }

def failSource (id : Uuid) (expectedRevision : ℕ) (needsOcr : Bool) :
    Except KnowledgeSpaceError (Ledger × KnowledgeSourceRow) := do
  let _ ← t.getSource id
  t.cas id expectedRevision (·.status = .pending) fun row =>
    { row with status := if needsOcr then .needsOcr else .failed }

def beginRetry (id : Uuid) (expectedRevision : ℕ) :
    Except KnowledgeSpaceError (Ledger × KnowledgeSourceRow) := do
  let _ ← t.getSource id
  t.cas id expectedRevision (fun row => row.status = .failed ∨ row.status = .needsOcr) fun row =>
    { row with status := .pending, attemptCount := row.attemptCount + 1 }

def deleteSource (id : Uuid) (expectedRevision : ℕ) :
    Except KnowledgeSpaceError (Ledger × KnowledgeSourceRow) := do
  let _ ← t.getSource id
  t.cas id expectedRevision (fun row => !row.deleted) fun row =>
    { row with status := .deleted, deleted := true }

def purgePurgeableSource (id : Uuid) (expectedRevision : ℕ) :
    Except KnowledgeSpaceError (Ledger × KnowledgeSourceRow) := do
  let current ← t.getSource id
  if !current.sourceKind.purgeable then
    .error (.invalidInput "hard purge is limited to purgeable sources")
  else
    t.cas id expectedRevision (fun row => row.sourceKind.purgeable && !row.deleted) fun row =>
      { row with
        status := .deleted
        requestedUri := none
        contentType := none
        byteSize := none
        contentHash := none
        blobId := none
        extractedObjectId := none
        deleted := true }

def liveBlobReferenceCount (blobId : Uuid) : ℕ :=
  t.rows.countP fun row => row.blobId = some blobId && !row.deleted

def listConversationSources (conversationId : Uuid) : List KnowledgeSourceRow :=
  sortBy (fun a b => (compare a.createdAt b.createdAt).then (compare a.id.toNat b.id.toNat))
    (t.rows.filter fun row => row.conversationId = some conversationId && !row.deleted)

end Ledger

/-! ## Changes of a row -/

section

variable {t t' : Ledger} {id : Uuid} {revision : ℕ} {row row' : KnowledgeSourceRow}

theorem getSource_eq_ok : t.getSource id = .ok row ↔ t.get id = some row ∧ row.deleted = false := by
  rw [Ledger.getSource]
  cases h : t.get id with
  | none => simp
  | some found =>
    simp only
    split_ifs with hdeleted
    · constructor
      · nofun
      · rintro ⟨hfound, hrow⟩
        rw [Option.some.inj hfound, hrow] at hdeleted
        cases hdeleted
    · constructor
      · intro hok
        cases hok
        exact ⟨rfl, by simpa using hdeleted⟩
      · rintro ⟨hfound, -⟩
        rw [Option.some.inj hfound]

structure Changed (t t' : Ledger) (row row' : KnowledgeSourceRow) : Prop where
  get : t.get row.id = some row
  live : row.deleted = false
  id : row'.id = row.id
  revision : row'.revision = row.revision + 1
  put : t' = t.put row'

theorem Changed.get_eq (h : Changed t t' row row') (id : Uuid) :
    t'.get id = if row.id = id then some row' else t.get id := by
  rw [h.put, Table.get_put (r := row') (h.id ▸ h.get), h.id]

theorem Changed.mem_iff (h : Changed t t' row row') {x : KnowledgeSourceRow} :
    x ∈ t' ↔ x = row' ∨ x ∈ t ∧ x.id ≠ row.id := by
  rw [h.put, Table.mem_put (Table.mem_of_get h.get) h.id.symm, h.id]

theorem changed_of_cas {guard : KnowledgeSourceRow → Bool}
    {set : KnowledgeSourceRow → KnowledgeSourceRow} (hget : t.getSource id = .ok row)
    (h : t.cas id revision guard set = .ok (t', row')) :
    Changed t t' row row' ∧ row.id = id ∧ row.revision = revision ∧ guard row = true ∧
      row' = { set row with id := row.id, revision := row.revision + 1 } := by
  obtain ⟨hrow, hlive⟩ := getSource_eq_ok.1 hget
  rw [Ledger.cas, hrow] at h
  simp only at h
  split_ifs at h with hguard
  obtain ⟨rfl, rfl⟩ := Prod.mk.inj (Except.ok.inj h)
  have hid : row.id = id := Table.key_of_get hrow
  exact ⟨⟨hid ▸ hrow, hlive, rfl, rfl, rfl⟩, hid, hguard.1, hguard.2, rfl⟩

theorem cas_of_get (guard : KnowledgeSourceRow → Bool)
    (set : KnowledgeSourceRow → KnowledgeSourceRow) (hget : t.get id = some row)
    (hrevision : row.revision = revision) (hguard : guard row = true) :
    ∃ changed, t.cas id revision guard set = .ok changed := by
  rw [Ledger.cas, hget]
  simp only
  rw [if_pos ⟨hrevision, hguard⟩]
  exact ⟨_, rfl⟩

section

variable (hget : t.get id = some row) (hlive : row.deleted = false)
include hget hlive

theorem attachSourceBlob_of_get (hrevision : row.revision = revision)
    (hstatus : row.status = .pending)
    (blob : AttachSourceBlob) : ∃ changed, t.attachSourceBlob id revision blob = .ok changed := by
  obtain ⟨changed, hchanged⟩ := cas_of_get (t := t) (fun row => decide (row.status = .pending))
    (fun row => { row with
      blobId := some blob.blobId
      contentType := some blob.contentType
      byteSize := some blob.byteSize
      contentHash := some blob.contentHash }) hget hrevision (by simpa using hstatus)
  refine ⟨changed, bind_eq_ok.2 ⟨row, getSource_eq_ok.2 ⟨hget, hlive⟩, ?_⟩⟩
  rw [if_neg (by simp [hrevision, hstatus])]
  exact hchanged

theorem deleteSource_of_get :
    ∃ changed, t.deleteSource id row.revision = .ok changed := by
  obtain ⟨changed, hchanged⟩ := cas_of_get (t := t) (fun row => !row.deleted)
    (fun row => { row with status := .deleted, deleted := true }) hget rfl (by simpa using hlive)
  exact ⟨changed, bind_eq_ok.2 ⟨row, getSource_eq_ok.2 ⟨hget, hlive⟩, hchanged⟩⟩

theorem purgePurgeableSource_of_get (hkind : row.sourceKind.purgeable = true) :
    ∃ changed, t.purgePurgeableSource id row.revision = .ok changed := by
  obtain ⟨changed, hchanged⟩ := cas_of_get (t := t)
    (fun row => row.sourceKind.purgeable && !row.deleted)
    (fun row => { row with
      status := .deleted
      requestedUri := none
      contentType := none
      byteSize := none
      contentHash := none
      blobId := none
      extractedObjectId := none
      deleted := true }) hget rfl (by simp [hkind, hlive])
  refine ⟨changed, bind_eq_ok.2 ⟨row, getSource_eq_ok.2 ⟨hget, hlive⟩, ?_⟩⟩
  rw [if_neg (by simp [hkind])]
  exact hchanged

end

theorem changed_of_attachSourceBlob {blob : AttachSourceBlob}
    (h : t.attachSourceBlob id revision blob = .ok (t', row')) :
    ∃ row, Changed t t' row row' ∧ row.id = id ∧ row.revision = revision ∧ row.status = .pending ∧
      row' = { row with
        blobId := some blob.blobId
        contentType := some blob.contentType
        byteSize := some blob.byteSize
        contentHash := some blob.contentHash
        revision := row.revision + 1 } := by
  obtain ⟨row, hget, h⟩ := bind_eq_ok.1 h
  split_ifs at h
  obtain ⟨hchanged, hid, hrevision, hstatus, hrow'⟩ := changed_of_cas hget h
  exact ⟨row, hchanged, hid, hrevision, by simpa using hstatus, hrow'⟩

theorem changed_of_completeSource {objectId : Uuid}
    (h : t.completeSource id revision objectId = .ok (t', row')) :
    ∃ row, Changed t t' row row' ∧ row.id = id ∧ row.status = .pending ∧ row.blobId ≠ none ∧
      row' = { row with
        status := .extracted
        extractedObjectId := some objectId
        revision := row.revision + 1 } := by
  obtain ⟨row, hget, h⟩ := bind_eq_ok.1 h
  split_ifs at h with hcheck
  obtain ⟨hchanged, hid, -, hstatus, hrow'⟩ := changed_of_cas hget h
  push Not at hcheck
  exact ⟨row, hchanged, hid, by simpa using hstatus, hcheck.2, hrow'⟩

theorem changed_of_failSource {needsOcr : Bool}
    (h : t.failSource id revision needsOcr = .ok (t', row')) :
    ∃ row, Changed t t' row row' ∧ row.id = id ∧ row.status = .pending ∧ row' = { row with
        status := if needsOcr then .needsOcr else .failed
        revision := row.revision + 1 } := by
  obtain ⟨row, hget, h⟩ := bind_eq_ok.1 h
  obtain ⟨hchanged, hid, -, hstatus, hrow'⟩ := changed_of_cas hget h
  exact ⟨row, hchanged, hid, by simpa using hstatus, hrow'⟩

theorem changed_of_beginRetry (h : t.beginRetry id revision = .ok (t', row')) :
    ∃ row, Changed t t' row row' ∧ row.id = id ∧ (row.status = .failed ∨ row.status = .needsOcr) ∧
      row' = { row with
        status := .pending
        attemptCount := row.attemptCount + 1
        revision := row.revision + 1 } := by
  obtain ⟨row, hget, h⟩ := bind_eq_ok.1 h
  obtain ⟨hchanged, hid, -, hstatus, hrow'⟩ := changed_of_cas hget h
  exact ⟨row, hchanged, hid, by simpa using hstatus, hrow'⟩

theorem changed_of_deleteSource (h : t.deleteSource id revision = .ok (t', row')) :
    ∃ row, Changed t t' row row' ∧ row.id = id ∧ row.revision = revision ∧ row' = { row with
        status := .deleted
        deleted := true
        revision := row.revision + 1 } := by
  obtain ⟨row, hget, h⟩ := bind_eq_ok.1 h
  obtain ⟨hchanged, hid, hrevision, -, hrow'⟩ := changed_of_cas hget h
  exact ⟨row, hchanged, hid, hrevision, hrow'⟩

theorem changed_of_purgePurgeableSource (h : t.purgePurgeableSource id revision = .ok (t', row')) :
    ∃ row, Changed t t' row row' ∧ row.id = id ∧ row.sourceKind.purgeable = true ∧
      row'.deleted = true ∧ row'.blobId = none := by
  obtain ⟨row, hget, h⟩ := bind_eq_ok.1 h
  split_ifs at h with hkind
  obtain ⟨hchanged, hid, -, -, hrow'⟩ := changed_of_cas hget h
  exact ⟨row, hchanged, hid, by simpa using hkind, by rw [hrow'], by rw [hrow']⟩

variable {request : CreateSource}

theorem createPendingSource_eq_ok {createdAt : ℕ}
    (h : t.createPendingSource id createdAt request = .ok (t', row')) :
    t.insert row' = some t' ∧ row'.id = id ∧ row'.sourceKind = request.sourceKind ∧
      row'.status = .pending ∧ row'.blobId = none ∧ row'.deleted = false := by
  unfold Ledger.createPendingSource at h
  split_ifs at h
  dsimp only at h
  split at h
  · next t₁ hinsert =>
      obtain ⟨rfl, rfl⟩ := Prod.mk.inj (Except.ok.inj h)
      exact ⟨hinsert, rfl, rfl, rfl, rfl, rfl⟩
  · cases h

/-! ### Blobs that rows refer to -/

/-- Each row of the second ledger refers to a blob as a row of the first does, or to none. -/
def Ledger.Carries (t t' : Ledger) : Prop :=
  ∀ x ∈ t', ∀ id, x.blobId = some id → ∃ old ∈ t, old.blobId = some id ∧
    x.contentHash = old.contentHash ∧ x.byteSize = old.byteSize ∧
      (x.deleted = false → old.deleted = false)

theorem carries_of_changed (h : Changed t t' row row')
    (hblob : row'.blobId = none ∨ row'.blobId = row.blobId ∧
      row'.contentHash = row.contentHash ∧ row'.byteSize = row.byteSize) : t.Carries t' := by
  intro x hx id hid
  rcases h.mem_iff.1 hx with rfl | ⟨hold, -⟩
  · rcases hblob with hnone | ⟨hsame, hhash, hsize⟩
    · rw [hnone] at hid
      cases hid
    · exact ⟨row, Table.mem_of_get h.get, hsame ▸ hid, hhash, hsize, fun _ => h.live⟩
  · exact ⟨x, hold, hid, rfl, rfl, fun hlive => hlive⟩

theorem carries_of_createPendingSource {createdAt : ℕ}
    (h : t.createPendingSource id createdAt request = .ok (t', row')) : t.Carries t' := by
  obtain ⟨hinsert, -, -, -, hnone, -⟩ := createPendingSource_eq_ok h
  intro x hx id hid
  rcases (Table.mem_insert hinsert).1 hx with hold | rfl
  · exact ⟨x, hold, hid, rfl, rfl, fun hlive => hlive⟩
  · rw [hnone] at hid
    cases hid

theorem carries_of_completeSource {objectId : Uuid}
    (h : t.completeSource id revision objectId = .ok (t', row')) : t.Carries t' := by
  obtain ⟨row, hchanged, -, -, -, rfl⟩ := changed_of_completeSource h
  exact carries_of_changed hchanged (.inr ⟨rfl, rfl, rfl⟩)

theorem carries_of_failSource {needsOcr : Bool}
    (h : t.failSource id revision needsOcr = .ok (t', row')) : t.Carries t' := by
  obtain ⟨row, hchanged, -, -, rfl⟩ := changed_of_failSource h
  exact carries_of_changed hchanged (.inr ⟨rfl, rfl, rfl⟩)

theorem carries_of_beginRetry (h : t.beginRetry id revision = .ok (t', row')) : t.Carries t' := by
  obtain ⟨row, hchanged, -, -, rfl⟩ := changed_of_beginRetry h
  exact carries_of_changed hchanged (.inr ⟨rfl, rfl, rfl⟩)

theorem carries_of_deleteSource (h : t.deleteSource id revision = .ok (t', row')) :
    t.Carries t' := by
  obtain ⟨row, hchanged, -, -, rfl⟩ := changed_of_deleteSource h
  exact carries_of_changed hchanged (.inr ⟨rfl, rfl, rfl⟩)

theorem carries_of_purgePurgeableSource (h : t.purgePurgeableSource id revision = .ok (t', row')) :
    t.Carries t' := by
  obtain ⟨row, hchanged, -, -, -, hnone⟩ := changed_of_purgePurgeableSource h
  exact carries_of_changed hchanged (.inl hnone)

end

end Gadgetron.Sources
