import Gadgetron.Sources.Ledger

/-!
# The blob store

The original bytes of sources are kept in files that are found under their SHA-256, which also
identifies the row of a blob; `sha256` stands for the hash function.
-/

namespace Gadgetron.Sources

open Lib Option

abbrev Bytes := List UInt8

/-- The 256 bits that `content_hash` and `storage_key` spell in hexadecimal digits. -/
abbrev Digest := BitVec 256

structure BlobRow where
  id : Uuid
  contentHash : Digest
  byteSize : ℕ
  deleted : Bool

structure BlobRef where
  id : Uuid
  contentHash : Digest
  byteSize : ℕ
  existed : Bool

inductive BlobError
  | notFound (id : Uuid)
  | storageUnavailable (reason : String)
  | tooLarge (size limit : ℕ)
  | io
  | database (reason : String)
  deriving DecidableEq

abbrev Files := Digest → Option Bytes

abbrev BlobTable := Table BlobRow.contentHash

def blobRef (row : BlobRow) (existed : Bool) : BlobRef :=
  ⟨row.id, row.contentHash, row.byteSize, existed⟩

structure Store where
  blobs : BlobTable := Table.empty
  files : Files := fun _ => none
  sources : Ledger := Table.empty

section

variable (sha256 : Bytes → Digest)

def verifyBlobBytes (bytes : Bytes) (expectedHash : Digest) (expectedBytes : ℕ) :
    Except BlobError Unit :=
  if sha256 bytes ≠ expectedHash ∨ bytes.length ≠ expectedBytes then
    .error (.storageUnavailable "content-addressed blob checksum mismatch")
  else
    .ok ()

def verifyBlobFile (files : Files) (path : Digest) (expectedHash : Digest) (expectedBytes : ℕ) :
    Except BlobError Unit :=
  match files path with
  | none => .error .io
  | some bytes => verifyBlobBytes sha256 bytes expectedHash expectedBytes

def writeContentAddressed (files : Files) (bytes : Bytes) : Except BlobError Files :=
  if (files (sha256 bytes)).isSome then do
    verifyBlobFile sha256 files (sha256 bytes) (sha256 bytes) bytes.length
    .ok files
  else
    .ok (Function.update files (sha256 bytes) (some bytes))

namespace Store

variable (s : Store)

/-- `row`: the row with the id that is not deleted. -/
def row (id : Uuid) : Except BlobError BlobRow :=
  match s.blobs.rows.find? fun row => row.id = id && !row.deleted with
  | some row => .ok row
  | none => .error (.notFound id)

/-- The first step of `put`: a live row for the content, whose file is verified. -/
def lookUp (bytes : Bytes) : Except BlobError (Option BlobRow) :=
  match (s.blobs.get (sha256 bytes)).filter (!·.deleted) with
  | none => .ok none
  | some existing => do
    verifyBlobFile sha256 s.files (sha256 bytes) existing.contentHash existing.byteSize
    .ok (some existing)

/-- The row that the `INSERT … ON CONFLICT DO UPDATE SET deleted_at = NULL` returns. -/
def upserted (newId : Uuid) (bytes : Bytes) : BlobRow :=
  match s.blobs.get (sha256 bytes) with
  | some old => { old with deleted := false }
  | none => ⟨newId, sha256 bytes, bytes.length, false⟩

def upsertBlob (newId : Uuid) (bytes : Bytes) : Store :=
  { s with blobs := s.blobs.upsert (s.upserted sha256 newId bytes) }

/-- `FilesystemBlobStore::put`, run without others in between. -/
def put (maxBytes : ℕ) (newId : Uuid) (bytes : Bytes) : Except BlobError (Store × BlobRef) :=
  if bytes.length > maxBytes then
    .error (.tooLarge bytes.length maxBytes)
  else do
    match ← s.lookUp sha256 bytes with
    | some existing => .ok (s, blobRef existing true)
    | none =>
      let files ← writeContentAddressed sha256 s.files bytes
      let s : Store := { s with files }
      .ok (s.upsertBlob sha256 newId bytes, blobRef (s.upserted sha256 newId bytes) false)

def get (id : Uuid) : Except BlobError Bytes := do
  let row ← s.row id
  match s.files row.contentHash with
  | none => .error .io
  | some bytes =>
    verifyBlobBytes sha256 bytes row.contentHash row.byteSize
    .ok bytes

end Store

end

/-- `UPDATE knowledge_blobs SET deleted_at = NOW() WHERE id = $1`. -/
def Store.markDeleted (s : Store) (id : Uuid) : Store :=
  { s with blobs := s.blobs.updateWhere (·.id = id) fun row => { row with deleted := true } }

/-- `remove_file` of the file of a content, which may be missing. -/
def Store.removeFile (s : Store) (contentHash : Digest) : Store :=
  { s with files := Function.update s.files contentHash none }

/-- The error of `delete` for a blob that is still in use. -/
def stillReferenced (id : Uuid) (references : ℕ) : BlobError :=
  .database s!"blob {id.toText} still has {references} live source references"

/-! ## What references rely on -/

/-- References do not dangle: what a source that is not deleted refers to is a live row, and live
rows have their files. -/
structure Store.Kept (s : Store) : Prop where
  referenced : ∀ source ∈ s.sources, source.deleted = false → ∀ id, source.blobId = some id →
    ∃ row ∈ s.blobs, row.id = id ∧ row.deleted = false
  stored : ∀ row ∈ s.blobs, row.deleted = false → (s.files row.contentHash).isSome = true

/-- What every statement keeps, of a store that is used for contents of the set. -/
structure Store.Sound (sha256 : Bytes → Digest) (contents : Set Bytes) (s : Store) : Prop where
  ids : ∀ row ∈ s.blobs, ∀ row' ∈ s.blobs, row.id = row'.id → row = row'
  file : ∀ hash bytes, s.files hash = some bytes → bytes ∈ contents ∧ sha256 bytes = hash
  size : ∀ row ∈ s.blobs, ∃ bytes ∈ contents,
    sha256 bytes = row.contentHash ∧ bytes.length = row.byteSize
  recorded : ∀ source ∈ s.sources, ∀ id, source.blobId = some id → ∃ row ∈ s.blobs,
    row.id = id ∧ source.contentHash = some row.contentHash ∧ source.byteSize = some row.byteSize

section

variable {sha256 : Bytes → Digest} {contents : Set Bytes} {s : Store} {bytes : Bytes}

theorem verifyBlobBytes_eq_ok {hash : Digest} {size : ℕ} :
    verifyBlobBytes sha256 bytes hash size = .ok () ↔
      sha256 bytes = hash ∧ bytes.length = size := by
  unfold verifyBlobBytes
  split_ifs with h
  · refine iff_of_false nofun ?_
    tauto
  · push Not at h
    simpa using h

variable {row : BlobRow} {id : Uuid}

theorem Store.row_eq_ok (h : s.row id = .ok row) :
    row ∈ s.blobs ∧ row.id = id ∧ row.deleted = false := by
  unfold Store.row at h
  split at h
  · next found hfound =>
      cases h
      have hsome := List.find?_some hfound
      simp only [Bool.and_eq_true, decide_eq_true_eq, Bool.not_eq_true'] at hsome
      exact ⟨List.mem_of_find?_eq_some hfound, hsome⟩
  · cases h

theorem lookUp_eq_some (h : s.lookUp sha256 bytes = .ok (some row)) :
    row ∈ s.blobs ∧ row.contentHash = sha256 bytes ∧ row.deleted = false := by
  unfold Store.lookUp at h
  split at h
  · cases h
  · next existing hexisting =>
      obtain ⟨-, -, hrow⟩ := bind_eq_ok.1 h
      cases hrow
      obtain ⟨hget, hlive⟩ := filter_eq_some_iff.1 hexisting
      obtain ⟨hmem, hhash⟩ := Table.get_eq_some.1 hget
      exact ⟨hmem, hhash, by simpa using hlive⟩

theorem isSome_of_write {files files' : Files}
    (h : writeContentAddressed sha256 files bytes = .ok files') :
    (files' (sha256 bytes)).isSome = true := by
  unfold writeContentAddressed at h
  split_ifs at h with hsome
  · obtain ⟨-, -, hfiles⟩ := bind_eq_ok.1 h
    exact Except.ok.inj hfiles ▸ hsome
  · rw [← Except.ok.inj h, Function.update_self]
    rfl

theorem not_referenced_of_count {t : Ledger} (h : t.liveBlobReferenceCount id = 0) :
    ∀ source ∈ t, source.deleted = false → source.blobId ≠ some id := by
  intro source hsource hlive hid
  have hnone := List.countP_eq_zero.1 h source hsource
  simp [hid, hlive] at hnone

section

variable (h : s.Sound sha256 contents)

include h

theorem Store.Sound.row_eq (hrow : row ∈ s.blobs)
    (hlive : row.deleted = false) : s.row row.id = .ok row := by
  have hsome : (s.blobs.rows.find? fun r => r.id = row.id && !r.deleted).isSome = true :=
    List.find?_isSome.2 ⟨row, hrow, by simp [hlive]⟩
  obtain ⟨found, hfound⟩ := isSome_iff_exists.1 hsome
  have hok : s.row row.id = .ok found := by rw [Store.row, hfound]
  obtain ⟨hmem, hid, -⟩ := Store.row_eq_ok hok
  rw [hok, h.ids found hmem row hrow hid]

theorem Store.Sound.file_eq (hinj : Set.InjOn sha256 contents)
    {bytes bytes' : Bytes} (hbytes : bytes ∈ contents)
    (hfile : s.files (sha256 bytes) = some bytes') : bytes' = bytes := by
  obtain ⟨hmem, hhash⟩ := h.file _ _ hfile
  exact hinj hmem hbytes hhash

theorem Store.Sound.size_eq (hinj : Set.InjOn sha256 contents)
    (hrow : row ∈ s.blobs) (hbytes : bytes ∈ contents)
    (hhash : sha256 bytes = row.contentHash) : bytes.length = row.byteSize := by
  obtain ⟨bytes', hbytes', hhash', hsize⟩ := h.size row hrow
  rw [← hsize, hinj hbytes hbytes' (hhash.trans hhash'.symm)]

theorem Store.Sound.content (hkept : s.Kept)
    (hinj : Set.InjOn sha256 contents) (hrow : row ∈ s.blobs) (hlive : row.deleted = false) :
    ∃ bytes, s.files row.contentHash = some bytes ∧ sha256 bytes = row.contentHash ∧
      bytes.length = row.byteSize := by
  obtain ⟨bytes, hfile⟩ := isSome_iff_exists.1 (hkept.stored row hrow hlive)
  obtain ⟨hmem, hhash⟩ := h.file _ _ hfile
  exact ⟨bytes, hfile, hhash, h.size_eq hinj hrow hmem hhash⟩

theorem Store.Sound.mem_of_get (hget : s.get sha256 id = .ok bytes) : bytes ∈ contents := by
  obtain ⟨row, -, hget⟩ := bind_eq_ok.1 hget
  split at hget
  · cases hget
  · next found hfound =>
      obtain ⟨-, -, hfound'⟩ := bind_eq_ok.1 hget
      obtain rfl := Except.ok.inj hfound'
      exact (h.file _ _ hfound).1

theorem Store.Sound.get_ok (hkept : s.Kept)
    (hinj : Set.InjOn sha256 contents) {source : KnowledgeSourceRow} (hsource : source ∈ s.sources)
    (hlive : source.deleted = false) (hblob : source.blobId = some id) :
    ∃ bytes, s.get sha256 id = .ok bytes ∧ source.contentHash = some (sha256 bytes) ∧
      source.byteSize = some bytes.length := by
  obtain ⟨row, hrow, rfl, hrowLive⟩ := hkept.referenced source hsource hlive id hblob
  obtain ⟨bytes, hfile, hhash, hsize⟩ := h.content hkept hinj hrow hrowLive
  obtain ⟨row', hrow', hid, hsourceHash, hsourceSize⟩ := h.recorded source hsource _ hblob
  obtain rfl := h.ids row' hrow' row hrow hid
  refine ⟨bytes, ?_, hhash ▸ hsourceHash, hsize ▸ hsourceSize⟩
  refine bind_eq_ok.2 ⟨row', h.row_eq hrow hrowLive, ?_⟩
  rw [hfile]
  exact bind_eq_ok.2 ⟨(), verifyBlobBytes_eq_ok.2 ⟨hhash, hsize⟩, rfl⟩

theorem Store.Sound.put_ok (hkept : s.Kept)
    (hinj : Set.InjOn sha256 contents) {maxBytes : ℕ} (hbytes : bytes ∈ contents)
    (hlimit : bytes.length ≤ maxBytes) (newId : Uuid) :
    ∃ s' blob, s.put sha256 maxBytes newId bytes = .ok (s', blob) := by
  unfold Store.put
  rw [if_neg (by omega)]
  cases hrow : (s.blobs.get (sha256 bytes)).filter (!·.deleted) with
  | some row =>
    obtain ⟨hget, hlive⟩ := filter_eq_some_iff.1 hrow
    obtain ⟨hmem, hhash⟩ := Table.get_eq_some.1 hget
    obtain ⟨bytes', hfile, hhash', hsize⟩ := h.content hkept hinj hmem (by simpa using hlive)
    have hverify := verifyBlobBytes_eq_ok.2 ⟨hhash', hsize⟩
    have hlookUp : s.lookUp sha256 bytes = .ok (some row) := by
      unfold Store.lookUp verifyBlobFile
      rw [hrow, ← hhash, hfile]
      exact bind_eq_ok.2 ⟨(), hverify, rfl⟩
    exact ⟨s, blobRef row true, bind_eq_ok.2 ⟨some row, hlookUp, rfl⟩⟩
  | none =>
    have hlookUp : s.lookUp sha256 bytes = .ok none := by
      unfold Store.lookUp
      rw [hrow]
    have hwrite : ∃ files, writeContentAddressed sha256 s.files bytes = .ok files := by
      unfold writeContentAddressed verifyBlobFile
      split_ifs with hsome
      · obtain ⟨bytes', hfile⟩ := isSome_iff_exists.1 hsome
        obtain rfl := h.file_eq hinj hbytes hfile
        rw [hfile]
        exact ⟨s.files, bind_eq_ok.2 ⟨(), verifyBlobBytes_eq_ok.2 ⟨rfl, rfl⟩, rfl⟩⟩
      · exact ⟨_, rfl⟩
    obtain ⟨files, hfiles⟩ := hwrite
    exact ⟨_, _, bind_eq_ok.2 ⟨none, hlookUp, bind_eq_ok.2 ⟨files, hfiles, rfl⟩⟩⟩

end

end

end Gadgetron.Sources
