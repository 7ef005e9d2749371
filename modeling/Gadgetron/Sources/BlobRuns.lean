import Gadgetron.Sources.Blobs

/-!
# Ingest and purge of blobs

Requests work on the blob store at the same time, a statement or a file operation at a step.
-/

namespace Gadgetron.Sources

open Lib List Option Function

/-- Where an ingest stands: in its `put`, or with the blob that it is going to attach. -/
inductive IngestStage
  | lookUp
  | write
  | upsert
  | attach (blob : BlobRef)

structure Ingest where
  source : Uuid
  revision : ℕ
  contentType : String
  bytes : Bytes
  stage : IngestStage

/-- Where a `delete_source` stands; the last four stages are those of the blob store's `delete`. -/
inductive DeleteStage
  | current
  | delete
  | purge (blobId : Uuid)
  | count (blobId : Uuid)
  | row (blobId : Uuid)
  | references (row : BlobRow)
  | mark (row : BlobRow)
  | remove (row : BlobRow)

structure Delete where
  source : Uuid
  revision : ℕ
  stage : DeleteStage

inductive Op
  | ingest (call : Ingest)
  | delete (call : Delete)

def Ingest.step (sha256 : Bytes → Digest) (maxBytes : ℕ) (s : Store) (newId : Uuid)
    (call : Ingest) : Store × Option Ingest :=
  match call.stage with
  | .lookUp =>
    if call.bytes.length > maxBytes then
      (s, none)
    else
      match s.lookUp sha256 call.bytes with
      | .error _ => (s, none)
      | .ok none => (s, some { call with stage := .write })
      | .ok (some existing) => (s, some { call with stage := .attach (blobRef existing true) })
  | .write =>
    match writeContentAddressed sha256 s.files call.bytes with
    | .error _ => (s, none)
    | .ok files => ({ s with files }, some { call with stage := .upsert })
  | .upsert =>
    (s.upsertBlob sha256 newId call.bytes,
      some { call with stage := .attach (blobRef (s.upserted sha256 newId call.bytes) false) })
  | .attach blob =>
    match s.sources.attachSourceBlob call.source call.revision
        ⟨blob.id, call.contentType, call.bytes.length, blob.contentHash⟩ with
    | .error _ => (s, none)
    | .ok (sources, _) => ({ s with sources }, none)

def Delete.step (s : Store) (call : Delete) : Store × Option Delete :=
  match call.stage with
  | .current =>
    match s.sources.getSource call.source with
    | .error _ => (s, none)
    | .ok current =>
      if current.revision ≠ call.revision then
        (s, none)
      else if current.sourceKind.purgeable then
        (s, current.blobId.map fun blobId => { call with stage := .purge blobId })
      else
        (s, some { call with stage := .delete })
  | .delete =>
    match s.sources.deleteSource call.source call.revision with
    | .error _ => (s, none)
    | .ok (sources, _) => ({ s with sources }, none)
  | .purge blobId =>
    match s.sources.purgePurgeableSource call.source call.revision with
    | .error _ => (s, none)
    | .ok (sources, _) => ({ s with sources }, some { call with stage := .count blobId })
  | .count blobId =>
    if s.sources.liveBlobReferenceCount blobId = 0 then
      (s, some { call with stage := .row blobId })
    else
      (s, none)
  | .row blobId =>
    match s.row blobId with
    | .error _ => (s, none)
    | .ok row => (s, some { call with stage := .references row })
  | .references row =>
    if s.sources.liveBlobReferenceCount row.id > 0 then
      (s, none)
    else
      (s, some { call with stage := .mark row })
  | .mark row => (s.markDeleted row.id, some { call with stage := .remove row })
  | .remove row => (s.removeFile row.contentHash, none)

def Op.step (sha256 : Bytes → Digest) (maxBytes : ℕ) (s : Store) (newId : Uuid) :
    Op → Store × Option Op
  | .ingest call =>
    let (s', rest) := call.step sha256 maxBytes s newId
    (s', rest.map .ingest)
  | .delete call =>
    let (s', rest) := call.step s
    (s', rest.map .delete)

/-! ## Runs of requests -/

structure State where
  store : Store := {}
  ops : ℕ → Option Op := fun _ => none

inductive Label
  | create (id : Uuid) (createdAt : ℕ) (request : CreateSource)
  | ingest (i : ℕ) (source : Uuid) (revision : ℕ) (contentType : String) (bytes : Bytes)
  | delete (i : ℕ) (source : Uuid) (revision : ℕ)
  /-- The next step of a request; `newId` is what `gen_random_uuid` gives to a new row. -/
  | advance (i : ℕ) (newId : Uuid)
  /-- The request dies, or a step of it fails. -/
  | stop (i : ℕ)
  | complete (source : Uuid) (revision : ℕ) (objectId : Uuid)
  | fail (source : Uuid) (revision : ℕ) (needsOcr : Bool)
  | retry (source : Uuid) (revision : ℕ)

def State.begin (s : State) (i : ℕ) (op : Op) : Option State :=
  match s.ops i with
  | some _ => none
  | none => some { s with ops := Function.update s.ops i (some op) }

def State.setSources (s : State)
    (result : Except Spaces.KnowledgeSpaceError (Ledger × KnowledgeSourceRow)) : Option State :=
  result.toOption.map fun changed => { s with store := { s.store with sources := changed.1 } }

def State.step (sha256 : Bytes → Digest) (maxBytes : ℕ) (s : State) : Label → Option State
  | .create id createdAt request =>
    s.setSources (s.store.sources.createPendingSource id createdAt request)
  | .ingest i source revision contentType bytes =>
    s.begin i (.ingest ⟨source, revision, contentType, bytes, .lookUp⟩)
  | .delete i source revision => s.begin i (.delete ⟨source, revision, .current⟩)
  | .advance i newId =>
    if s.store.blobs.rows.all fun row => row.id ≠ newId then
      (s.ops i).map fun op =>
        let (store, rest) := op.step sha256 maxBytes s.store newId
        { store, ops := Function.update s.ops i rest }
    else
      none
  | .stop i => some { s with ops := Function.update s.ops i none }
  | .complete source revision objectId =>
    s.setSources (s.store.sources.completeSource source revision objectId)
  | .fail source revision needsOcr =>
    s.setSources (s.store.sources.failSource source revision needsOcr)
  | .retry source revision => s.setSources (s.store.sources.beginRetry source revision)

abbrev blobMachine (sha256 : Bytes → Digest) (maxBytes : ℕ) : Machine State Label :=
  ⟨State.step sha256 maxBytes⟩

/-! ## Steps in order -/

/-- The source is as the caller has seen it, and still waits for its content. -/
def Ledger.Awaits (t : Ledger) (source : Uuid) (revision : ℕ) : Prop :=
  ∃ row, t.get source = some row ∧ row.deleted = false ∧ row.revision = revision ∧
    row.status = .pending

/-- The next step of a request comes at a good time: a blob is attached while its row is live, a row
is revived while its file is there, marked while no source refers to it, and its file is removed
while it is marked. -/
def Op.InOrder (sha256 : Bytes → Digest) (s : Store) : Op → Prop
  | .ingest call =>
    match call.stage with
    | .lookUp | .write => True
    | .upsert => (s.files (sha256 call.bytes)).isSome = true
    | .attach blob => s.sources.Awaits call.source call.revision →
        ∃ row ∈ s.blobs, row.id = blob.id ∧ row.deleted = false
  | .delete call =>
    match call.stage with
    | .mark row => ∀ source ∈ s.sources, source.deleted = false → source.blobId ≠ some row.id
    | .remove row => ∀ row' ∈ s.blobs, row'.contentHash = row.contentHash → row'.deleted = true
    | _ => True

/-- Every step of a request comes at a good time. -/
def State.InOrder (sha256 : Bytes → Digest) (s : State) : Label → Prop
  | .advance i _ => ∀ op, s.ops i = some op → op.InOrder sha256 s.store
  | _ => True

def Label.Within (contents : Set Bytes) : Label → Prop
  | .ingest _ _ _ _ bytes => bytes ∈ contents
  | _ => True

/-- What is known of a request: the content that it has, and the row of the blob that it will
attach. -/
def Op.Sound (sha256 : Bytes → Digest) (contents : Set Bytes) (s : Store) : Op → Prop
  | .ingest call => call.bytes ∈ contents ∧ ∀ blob, call.stage = .attach blob →
      ∃ row ∈ s.blobs, row.id = blob.id ∧ row.contentHash = blob.contentHash ∧
        sha256 call.bytes = row.contentHash
  | .delete _ => True

structure State.Sound (sha256 : Bytes → Digest) (contents : Set Bytes) (s : State) : Prop where
  store : s.store.Sound sha256 contents
  ops : ∀ i op, s.ops i = some op → op.Sound sha256 contents s.store

/-! ## Single changes of the store -/

section

variable {sha256 : Bytes → Digest} {contents : Set Bytes} {s s' : Store} {P : Prop}

def Store.RowsStay (s s' : Store) : Prop :=
  ∀ row ∈ s.blobs, ∃ row' ∈ s'.blobs,
    row'.id = row.id ∧ row'.contentHash = row.contentHash ∧ row'.byteSize = row.byteSize

/-- What a change of the store does: references stay in order exactly if `P` holds. -/
structure Advanced (sha256 : Bytes → Digest) (contents : Set Bytes) (s s' : Store) (P : Prop) :
    Prop where
  sound : s'.Sound sha256 contents
  rows : s.RowsStay s'
  kept : s.Kept → (s'.Kept ↔ P)

theorem Advanced.refl (h : s.Sound sha256 contents) : Advanced sha256 contents s s True where
  sound := h
  rows := fun row hrow => ⟨row, hrow, rfl, rfl, rfl⟩
  kept := fun hkept => iff_of_true hkept trivial

theorem advanced_of_carries (h : s.Sound sha256 contents) {t' : Ledger}
    (hcarries : s.sources.Carries t') :
    Advanced sha256 contents s { s with sources := t' } True where
  sound :=
    { ids := h.ids
      file := h.file
      size := h.size
      recorded := by
        intro source hsource id hid
        obtain ⟨old, hold, holdId, hhash, hsize, -⟩ := hcarries source hsource id hid
        obtain ⟨row, hrow, hrowId, hrowHash, hrowSize⟩ := h.recorded old hold id holdId
        exact ⟨row, hrow, hrowId, hhash.trans hrowHash, hsize.trans hrowSize⟩ }
  rows := fun row hrow => ⟨row, hrow, rfl, rfl, rfl⟩
  kept := by
    intro hkept
    refine iff_of_true ⟨?_, hkept.stored⟩ trivial
    intro source hsource hlive id hid
    obtain ⟨old, hold, holdId, -, -, holdLive⟩ := hcarries source hsource id hid
    exact hkept.referenced old hold (holdLive hlive) id holdId

variable {bytes : Bytes}

theorem advanced_of_attach (h : s.Sound sha256 contents) (hinj : Set.InjOn sha256 contents)
    {source : Uuid} {revision : ℕ} {contentType : String} {blob : BlobRef}
    (hbytes : bytes ∈ contents)
    (hblob : ∃ row ∈ s.blobs, row.id = blob.id ∧ row.contentHash = blob.contentHash ∧
      sha256 bytes = row.contentHash)
    {t' : Ledger} {row' : KnowledgeSourceRow} (hattach : s.sources.attachSourceBlob source revision
      ⟨blob.id, contentType, bytes.length, blob.contentHash⟩ = .ok (t', row')) :
    Advanced sha256 contents s { s with sources := t' }
      (s.sources.Awaits source revision → ∃ row ∈ s.blobs, row.id = blob.id ∧
        row.deleted = false) where
  sound :=
    { ids := h.ids
      file := h.file
      size := h.size
      recorded := by
        obtain ⟨row, hchanged, -, -, -, rfl⟩ := changed_of_attachSourceBlob hattach
        intro x hx id hid
        rcases hchanged.mem_iff.1 hx with rfl | ⟨hold, -⟩
        · obtain ⟨blobRow, hmem, hblobId, hhash, hcontent⟩ := hblob
          refine ⟨blobRow, hmem, hblobId.trans (some.inj hid), ?_, ?_⟩
          · exact congrArg some hhash.symm
          · exact congrArg some (h.size_eq hinj hmem hbytes hcontent)
        · exact h.recorded x hold id hid }
  rows := fun row hrow => ⟨row, hrow, rfl, rfl, rfl⟩
  kept := by
    obtain ⟨row, hchanged, hid, hrevision, hstatus, rfl⟩ := changed_of_attachSourceBlob hattach
    intro hkept
    constructor
    · intro hkept' _
      exact hkept'.referenced _ (hchanged.mem_iff.2 (.inl rfl)) hchanged.live blob.id rfl
    · intro hlive
      obtain ⟨blobRow, hmem, hblobId, hblobLive⟩ :=
        hlive ⟨row, hid ▸ hchanged.get, hchanged.live, hrevision, hstatus⟩
      refine ⟨?_, hkept.stored⟩
      intro x hx hxlive id hxid
      rcases hchanged.mem_iff.1 hx with rfl | ⟨hold, -⟩
      · exact ⟨blobRow, hmem, hblobId.trans (some.inj hxid), hblobLive⟩
      · exact hkept.referenced x hold hxlive id hxid

theorem advanced_of_write (h : s.Sound sha256 contents) (hbytes : bytes ∈ contents)
    {files : Files} (hwrite : writeContentAddressed sha256 s.files bytes = .ok files) :
    Advanced sha256 contents s { s with files } True := by
  unfold writeContentAddressed at hwrite
  split_ifs at hwrite with hsome
  · obtain ⟨-, -, hfiles⟩ := bind_eq_ok.1 hwrite
    obtain rfl := Except.ok.inj hfiles
    exact .refl h
  · obtain rfl := Except.ok.inj hwrite
    refine ⟨⟨h.ids, ?_, h.size, h.recorded⟩, fun row hrow => ⟨row, hrow, rfl, rfl, rfl⟩, ?_⟩
    · intro hash bytes' hfile
      change Function.update s.files (sha256 bytes) (some bytes) hash = some bytes' at hfile
      rw [update_apply] at hfile
      split_ifs at hfile with heq
      · obtain rfl := some.inj hfile
        exact ⟨hbytes, heq.symm⟩
      · exact h.file hash bytes' hfile
    · intro hkept
      refine iff_of_true ⟨hkept.referenced, ?_⟩ trivial
      intro row hrow hlive
      change (Function.update s.files (sha256 bytes) (some bytes) row.contentHash).isSome = true
      rw [update_apply]
      split_ifs
      · rfl
      · exact hkept.stored row hrow hlive

/-! ### The row of a content -/

section

variable (sha256 : Bytes → Digest) (s : Store) (newId : Uuid) (bytes : Bytes)

theorem upserted_cases :
    (∃ old ∈ s.blobs, old.contentHash = sha256 bytes ∧
        s.upserted sha256 newId bytes = { old with deleted := false }) ∨
      (∀ row ∈ s.blobs, row.contentHash ≠ sha256 bytes) ∧
        s.upserted sha256 newId bytes = ⟨newId, sha256 bytes, bytes.length, false⟩ := by
  unfold Store.upserted
  cases hget : s.blobs.get (sha256 bytes) with
  | none => exact .inr ⟨Table.get_eq_none.1 hget, rfl⟩
  | some old =>
    obtain ⟨hold, hhash⟩ := Table.get_eq_some.1 hget
    exact .inl ⟨old, hold, hhash, rfl⟩

theorem upserted_hash :
    (s.upserted sha256 newId bytes).contentHash = sha256 bytes ∧
      (s.upserted sha256 newId bytes).deleted = false := by
  rcases upserted_cases sha256 s newId bytes with ⟨old, -, hhash, hrow⟩ | ⟨-, hrow⟩
  · rw [hrow]
    exact ⟨hhash, rfl⟩
  · rw [hrow]
    exact ⟨rfl, rfl⟩

end

variable {row : BlobRow} {newId : Uuid}

theorem mem_upsertBlob : row ∈ (s.upsertBlob sha256 newId bytes).blobs ↔
      row = s.upserted sha256 newId bytes ∨ row ∈ s.blobs ∧ row.contentHash ≠ sha256 bytes := by
  rw [← (upserted_hash sha256 s newId bytes).1]
  exact Table.mem_upsert

theorem rowsStay_upsertBlob (sha256 : Bytes → Digest) (s : Store) (newId : Uuid)
    (bytes : Bytes) : s.RowsStay (s.upsertBlob sha256 newId bytes) := by
  intro row hrow
  by_cases hsame : row.contentHash = sha256 bytes
  · rcases upserted_cases sha256 s newId bytes with
      ⟨old, hold, hhash, heq⟩ | ⟨hnone, -⟩
    · obtain rfl := Table.eq_of_key hold hrow (hhash.trans hsame.symm)
      exact ⟨_, mem_upsertBlob.2 (.inl rfl), by rw [heq], by rw [heq], by rw [heq]⟩
    · exact absurd hsame (hnone row hrow)
  · exact ⟨row, mem_upsertBlob.2 (.inr ⟨hrow, hsame⟩), rfl, rfl, rfl⟩

theorem of_mem_upsertBlob (hrow : row ∈ (s.upsertBlob sha256 newId bytes).blobs) :
    (∃ old ∈ s.blobs, old.id = row.id ∧ old.contentHash = row.contentHash ∧
      old.byteSize = row.byteSize) ∨ row = ⟨newId, sha256 bytes, bytes.length, false⟩ := by
  rcases mem_upsertBlob.1 hrow with rfl | ⟨hold, -⟩
  · rcases upserted_cases sha256 s newId bytes with ⟨old, hold, -, heq⟩ | ⟨-, heq⟩
    · exact .inl ⟨old, hold, by rw [heq], by rw [heq], by rw [heq]⟩
    · exact .inr heq
  · exact .inl ⟨row, hold, rfl, rfl, rfl⟩

theorem advanced_of_upsert (h : s.Sound sha256 contents)
    (hbytes : bytes ∈ contents) (hfresh : ∀ row ∈ s.blobs, row.id ≠ newId) :
    Advanced sha256 contents s (s.upsertBlob sha256 newId bytes)
      ((s.files (sha256 bytes)).isSome = true) where
  sound :=
    { ids := by
        intro row hrow row' hrow' hid
        refine Table.eq_of_key hrow hrow' ?_
        rcases of_mem_upsertBlob hrow with ⟨old, hold, holdId, holdHash, -⟩ | rfl
        · rcases of_mem_upsertBlob hrow' with ⟨old', hold', holdId', holdHash', -⟩ | rfl
          · have hsame := h.ids old hold old' hold' (holdId.trans (hid.trans holdId'.symm))
            rw [← holdHash, ← holdHash', hsame]
          · exact absurd (holdId.trans hid) (hfresh old hold)
        · rcases of_mem_upsertBlob hrow' with ⟨old', hold', holdId', -, -⟩ | rfl
          · exact absurd (holdId'.trans hid.symm) (hfresh old' hold')
          · rfl
      file := h.file
      size := by
        intro row hrow
        rcases of_mem_upsertBlob hrow with ⟨old, hold, -, hhash, hsize⟩ | rfl
        · exact hhash ▸ hsize ▸ h.size old hold
        · exact ⟨bytes, hbytes, rfl, rfl⟩
      recorded := by
        intro source hsource id hid
        obtain ⟨row, hrow, hrowId, hhash, hsize⟩ := h.recorded source hsource id hid
        obtain ⟨row', hrow', hid', hhash', hsize'⟩ := rowsStay_upsertBlob sha256 s newId bytes
          row hrow
        exact ⟨row', hrow', hid'.trans hrowId, hhash' ▸ hhash, hsize' ▸ hsize⟩ }
  rows := rowsStay_upsertBlob sha256 s newId bytes
  kept := by
    intro hkept
    constructor
    · intro hkept'
      have hstored := hkept'.stored _ (mem_upsertBlob.2 (.inl rfl))
        (upserted_hash sha256 s newId bytes).2
      rwa [(upserted_hash sha256 s newId bytes).1] at hstored
    · intro hfile
      constructor
      · intro source hsource hlive id hid
        obtain ⟨row, hrow, hrowId, hrowLive⟩ := hkept.referenced source hsource hlive id hid
        by_cases hsame : row.contentHash = sha256 bytes
        · rcases upserted_cases sha256 s newId bytes with
            ⟨old, hold, hhash, heq⟩ | ⟨hnone, -⟩
          · obtain rfl := Table.eq_of_key hold hrow (hhash.trans hsame.symm)
            refine ⟨_, mem_upsertBlob.2 (.inl rfl), ?_, (upserted_hash sha256 s newId bytes).2⟩
            rw [heq]
            exact hrowId
          · exact absurd hsame (hnone row hrow)
        · exact ⟨row, mem_upsertBlob.2 (.inr ⟨hrow, hsame⟩), hrowId, hrowLive⟩
      · intro row hrow hlive
        rcases mem_upsertBlob.1 hrow with rfl | ⟨hold, -⟩
        · rw [(upserted_hash sha256 s newId bytes).1]
          exact hfile
        · exact hkept.stored row hold hlive

/-! ### Removal -/

theorem mem_markDeleted {id : Uuid} : row ∈ (s.markDeleted id).blobs ↔
    ∃ old ∈ s.blobs, (if old.id = id then { old with deleted := true } else old) = row := by
  have hmem : row ∈ s.blobs.updateWhere (·.id = id) (fun row => { row with deleted := true }) ↔ _ :=
    Table.mem_updateWhere
  simp only [decide_eq_true_eq] at hmem
  exact hmem

theorem advanced_of_mark (h : s.Sound sha256 contents) (id : Uuid) :
    Advanced sha256 contents s (s.markDeleted id)
      (∀ source ∈ s.sources, source.deleted = false → source.blobId ≠ some id) := by
  have hrows : s.RowsStay (s.markDeleted id) := by
    intro row hrow
    obtain ⟨row', hrow', heq⟩ := Table.exists_mem_updateWhere (·.id = id)
      (fun row : BlobRow => { row with deleted := true }) (fun _ => rfl) hrow
    rcases heq with rfl | rfl
    · exact ⟨row', hrow', rfl, rfl, rfl⟩
    · exact ⟨_, hrow', rfl, rfl, rfl⟩
  refine ⟨⟨?_, h.file, ?_, ?_⟩, hrows, ?_⟩
  · intro row hrow row' hrow' hid
    obtain ⟨old, hold, rfl⟩ := mem_markDeleted.1 hrow
    obtain ⟨old', hold', rfl⟩ := mem_markDeleted.1 hrow'
    have hids : old.id = old'.id := by split_ifs at hid <;> exact hid
    rw [h.ids old hold old' hold' hids]
  · intro row hrow
    obtain ⟨old, hold, rfl⟩ := mem_markDeleted.1 hrow
    have hsize := h.size old hold
    split_ifs
    · exact hsize
    · exact hsize
  · intro source hsource blobId hblob
    obtain ⟨row, hrow, hrowId, hhash, hsize⟩ := h.recorded source hsource blobId hblob
    obtain ⟨row', hrow', hid', hhash', hsize'⟩ := hrows row hrow
    exact ⟨row', hrow', hid'.trans hrowId, hhash' ▸ hhash, hsize' ▸ hsize⟩
  · intro hkept
    constructor
    · intro hkept' source hsource hlive hblob
      obtain ⟨row, hrow, hrowId, hrowLive⟩ := hkept'.referenced source hsource hlive id hblob
      obtain ⟨old, -, rfl⟩ := mem_markDeleted.1 hrow
      by_cases hid : old.id = id
      · rw [if_pos hid] at hrowLive
        cases hrowLive
      · rw [if_neg hid] at hrowId
        exact hid hrowId
    · intro hnone
      constructor
      · intro source hsource hlive blobId hblob
        obtain ⟨row, hrow, hrowId, hrowLive⟩ := hkept.referenced source hsource hlive blobId hblob
        have hne : row.id ≠ id := by
          rintro rfl
          exact hnone source hsource hlive (hrowId ▸ hblob)
        exact ⟨row, mem_markDeleted.2 ⟨row, hrow, if_neg hne⟩, hrowId, hrowLive⟩
      · intro row hrow hlive
        obtain ⟨old, hold, rfl⟩ := mem_markDeleted.1 hrow
        split_ifs at hlive ⊢
        exact hkept.stored old hold hlive

theorem advanced_of_remove (h : s.Sound sha256 contents) (hash : Digest) :
    Advanced sha256 contents s (s.removeFile hash)
      (∀ row ∈ s.blobs, row.contentHash = hash → row.deleted = true) where
  sound :=
    { ids := h.ids
      file := by
        intro hash' bytes hfile
        change Function.update s.files hash none hash' = some bytes at hfile
        rw [update_apply] at hfile
        split_ifs at hfile
        exact h.file hash' bytes hfile
      size := h.size
      recorded := h.recorded }
  rows := fun row hrow => ⟨row, hrow, rfl, rfl, rfl⟩
  kept := by
    have hfiles : ∀ hash', (s.removeFile hash).files hash' =
        if hash' = hash then none else s.files hash' := fun hash' => update_apply ..
    intro hkept
    constructor
    · intro hkept' row hrow hhash
      by_contra hlive
      have hstored := hkept'.stored row hrow (by simpa using hlive)
      rw [hfiles, if_pos hhash] at hstored
      cases hstored
    · intro hdeleted
      refine ⟨hkept.referenced, ?_⟩
      intro row hrow hlive
      rw [hfiles, if_neg]
      · exact hkept.stored row hrow hlive
      · intro hhash
        rw [hdeleted row hrow hhash] at hlive
        cases hlive

end

/-! ## Steps of requests -/

section

variable {sha256 : Bytes → Digest} {contents : Set Bytes} {maxBytes : ℕ} {s : Store} {newId : Uuid}

theorem Op.Sound.of_rows {s' : Store} {op : Op} (h : op.Sound sha256 contents s)
    (hrows : s.RowsStay s') : op.Sound sha256 contents s' := by
  cases op with
  | delete call => trivial
  | ingest call =>
    refine ⟨h.1, fun blob hstage => ?_⟩
    obtain ⟨row, hrow, hid, hhash, hcontent⟩ := h.2 blob hstage
    obtain ⟨row', hrow', hid', hhash', -⟩ := hrows row hrow
    exact ⟨row', hrow', hid'.trans hid, hhash'.trans hhash, hcontent.trans hhash'.symm⟩

structure OpAdvanced (sha256 : Bytes → Digest) (contents : Set Bytes) (s : Store) (op : Op)
    (result : Store × Option Op) : Prop where
  store : Advanced sha256 contents s result.1 (op.InOrder sha256 s)
  rest : ∀ op', result.2 = some op' → op'.Sound sha256 contents result.1

section

variable (hs : s.Sound sha256 contents)

include hs

theorem OpAdvanced.of_read {op : Op} {rest : Option Op}
    (horder : op.InOrder sha256 s)
    (hrest : ∀ op', rest = some op' → op'.Sound sha256 contents s) :
    OpAdvanced sha256 contents s op (s, rest) where
  store := ⟨hs, (Advanced.refl hs).rows, fun hkept => iff_of_true hkept horder⟩
  rest := hrest

theorem ingest_step (hinj : Set.InjOn sha256 contents)
    (hfresh : ∀ row ∈ s.blobs, row.id ≠ newId) {call : Ingest}
    (hop : (Op.ingest call).Sound sha256 contents s) : OpAdvanced sha256 contents s (.ingest call)
      ((Op.ingest call).step sha256 maxBytes s newId) := by
  obtain ⟨source, revision, contentType, bytes, stage⟩ := call
  obtain ⟨hbytes, hblob⟩ := hop
  simp only [Op.step, Ingest.step]
  cases stage with
  | lookUp =>
    simp only
    split_ifs
    · exact .of_read hs trivial nofun
    · split
      · exact .of_read hs trivial nofun
      · refine .of_read hs trivial fun op' hop' => ?_
        cases hop'
        exact ⟨hbytes, nofun⟩
      · next row hrow =>
          refine .of_read hs trivial fun op' hop' => ?_
          cases hop'
          refine ⟨hbytes, fun blob hstage => ?_⟩
          cases hstage
          obtain ⟨hmem, hhash, -⟩ := lookUp_eq_some hrow
          exact ⟨row, hmem, rfl, rfl, hhash.symm⟩
  | write =>
    simp only
    split
    · exact .of_read hs trivial nofun
    · next files hwrite =>
        refine ⟨advanced_of_write hs hbytes hwrite, fun op' hop' => ?_⟩
        cases hop'
        exact ⟨hbytes, nofun⟩
  | upsert =>
    refine ⟨advanced_of_upsert hs hbytes hfresh, fun op' hop' => ?_⟩
    cases hop'
    refine ⟨hbytes, fun blob hstage => ?_⟩
    cases hstage
    exact ⟨_, mem_upsertBlob.2 (.inl rfl), rfl, rfl, (upserted_hash sha256 s newId bytes).1.symm⟩
  | attach blob =>
    simp only
    split
    · next error hattach =>
        refine .of_read hs ?_ nofun
        intro hawaits
        obtain ⟨row, hget, hlive, hrevision, hstatus⟩ := hawaits
        obtain ⟨changed, hok⟩ := attachSourceBlob_of_get hget hlive hrevision hstatus
          ⟨blob.id, contentType, bytes.length, blob.contentHash⟩
        rw [hattach] at hok
        cases hok
    · next t' row' hattach =>
        exact ⟨advanced_of_attach hs hinj hbytes (hblob blob rfl) hattach, nofun⟩

theorem delete_step (call : Delete) :
    OpAdvanced sha256 contents s (.delete call)
      ((Op.delete call).step sha256 maxBytes s newId) := by
  obtain ⟨source, revision, stage⟩ := call
  have hdelete : ∀ rest : Option Delete, ∀ op', rest.map Op.delete = some op' →
      op'.Sound sha256 contents s := by
    intro rest op' hop'
    obtain ⟨call', -, rfl⟩ := map_eq_some_iff.1 hop'
    trivial
  simp only [Op.step, Delete.step]
  cases stage with
  | current =>
    simp only
    split
    · exact .of_read hs trivial nofun
    · split_ifs
      · exact .of_read hs trivial nofun
      · exact .of_read hs trivial (hdelete _)
      · exact .of_read hs trivial (hdelete _)
  | delete =>
    simp only
    split
    · exact .of_read hs trivial nofun
    · next t' row' hdeleted =>
        exact ⟨advanced_of_carries hs (carries_of_deleteSource hdeleted), nofun⟩
  | purge blobId =>
    simp only
    split
    · exact .of_read hs trivial nofun
    · next t' row' hpurged =>
        refine ⟨advanced_of_carries hs (carries_of_purgePurgeableSource hpurged), ?_⟩
        intro op' hop'
        cases hop'
        trivial
  | count blobId =>
    simp only
    split_ifs
    · exact .of_read hs trivial (hdelete _)
    · exact .of_read hs trivial nofun
  | row blobId =>
    simp only
    split
    · exact .of_read hs trivial nofun
    · exact .of_read hs trivial (hdelete _)
  | references row =>
    simp only
    split_ifs
    · exact .of_read hs trivial nofun
    · exact .of_read hs trivial (hdelete _)
  | mark row =>
    refine ⟨advanced_of_mark hs row.id, fun op' hop' => ?_⟩
    cases hop'
    trivial
  | remove row => exact ⟨advanced_of_remove hs row.contentHash, nofun⟩

theorem op_step (hinj : Set.InjOn sha256 contents)
    (hfresh : ∀ row ∈ s.blobs, row.id ≠ newId) {op : Op} (hop : op.Sound sha256 contents s) :
    OpAdvanced sha256 contents s op (op.step sha256 maxBytes s newId) := by
  cases op with
  | ingest call => exact ingest_step hs hinj hfresh hop
  | delete call => exact delete_step hs call

end

end

/-! ## Runs -/

section

variable {sha256 : Bytes → Digest} {contents : Set Bytes} {maxBytes : ℕ} {s s' : State}

variable {result : Except Spaces.KnowledgeSpaceError (Ledger × KnowledgeSourceRow)}

theorem State.Sound.setSources (hs : s.Sound sha256 contents)
    (hcarries : ∀ t' row', result = .ok (t', row') → s.store.sources.Carries t')
    (h : s.setSources result = some s') :
    s'.Sound sha256 contents ∧ (s.store.Kept → s'.store.Kept) := by
  obtain ⟨⟨t', row'⟩, hresult, rfl⟩ := map_eq_some_iff.1 h
  have hadvanced := advanced_of_carries hs.store (hcarries t' row' (toOption_eq_some.1 hresult))
  refine ⟨⟨hadvanced.sound, ?_⟩, fun hkept => (hadvanced.kept hkept).2 trivial⟩
  exact fun i op hop => (hs.ops i op hop).of_rows hadvanced.rows

theorem State.Sound.begin (hs : s.Sound sha256 contents) {i : ℕ} {op : Op}
    (hop : op.Sound sha256 contents s.store) (h : s.begin i op = some s') :
    s'.Sound sha256 contents ∧ s'.store = s.store := by
  unfold State.begin at h
  split at h
  · cases h
  · obtain rfl := some.inj h
    refine ⟨⟨hs.store, fun j op' hop' => ?_⟩, rfl⟩
    change Function.update s.ops i (some op) j = some op' at hop'
    rw [update_apply] at hop'
    split_ifs at hop'
    · exact some.inj hop' ▸ hop
    · exact hs.ops j op' hop'

theorem sound_step (hinj : Set.InjOn sha256 contents) {a : Label} (hs : s.Sound sha256 contents)
    (ha : a.Within contents) (h : s.step sha256 maxBytes a = some s') : s'.Sound sha256 contents ∧
      (s.store.Kept → (s'.store.Kept ↔ s.InOrder sha256 a)) := by
  cases a with
  | create id createdAt request =>
    obtain ⟨hs', hkept'⟩ := hs.setSources (fun _ _ => carries_of_createPendingSource) h
    exact ⟨hs', fun hkept => iff_of_true (hkept' hkept) trivial⟩
  | ingest i source revision contentType bytes =>
    have hop : (Op.ingest ⟨source, revision, contentType, bytes, .lookUp⟩).Sound sha256 contents
        s.store := ⟨ha, fun blob hstage => by cases hstage⟩
    obtain ⟨hs', hstore⟩ := hs.begin hop h
    exact ⟨hs', fun hkept => iff_of_true (hstore ▸ hkept) trivial⟩
  | delete i source revision =>
    have hop : (Op.delete ⟨source, revision, .current⟩).Sound sha256 contents s.store := trivial
    obtain ⟨hs', hstore⟩ := hs.begin hop h
    exact ⟨hs', fun hkept => iff_of_true (hstore ▸ hkept) trivial⟩
  | stop i =>
    obtain rfl := some.inj h
    refine ⟨⟨hs.store, fun j op hop => ?_⟩, fun hkept => iff_of_true hkept trivial⟩
    change Function.update s.ops i none j = some op at hop
    rw [update_apply] at hop
    split_ifs at hop
    exact hs.ops j op hop
  | complete source revision objectId =>
    obtain ⟨hs', hkept'⟩ := hs.setSources (fun _ _ => carries_of_completeSource) h
    exact ⟨hs', fun hkept => iff_of_true (hkept' hkept) trivial⟩
  | fail source revision needsOcr =>
    obtain ⟨hs', hkept'⟩ := hs.setSources (fun _ _ => carries_of_failSource) h
    exact ⟨hs', fun hkept => iff_of_true (hkept' hkept) trivial⟩
  | retry source revision =>
    obtain ⟨hs', hkept'⟩ := hs.setSources (fun _ _ => carries_of_beginRetry) h
    exact ⟨hs', fun hkept => iff_of_true (hkept' hkept) trivial⟩
  | advance i newId =>
    simp only [State.step] at h
    split_ifs at h with hfresh
    obtain ⟨op, hop, rfl⟩ := map_eq_some_iff.1 h
    have hstep : OpAdvanced sha256 contents s.store op
        (op.step sha256 maxBytes s.store newId) :=
      op_step hs.store hinj (by simpa [Table.mem_iff] using hfresh) (hs.ops i op hop)
    refine ⟨⟨hstep.store.sound, fun j op' hop' => ?_⟩, fun hkept => ?_⟩
    · change Function.update s.ops i (op.step sha256 maxBytes s.store newId).2 j = some op' at hop'
      rw [update_apply] at hop'
      split_ifs at hop'
      · exact hstep.rest op' hop'
      · exact (hs.ops j op' hop').of_rows hstep.store.rows
    · refine (hstep.store.kept hkept).trans ⟨fun horder op' hop' => ?_, fun horder => horder op hop⟩
      obtain rfl := mem_unique hop hop'
      exact horder

theorem sound_start : ({} : State).Sound sha256 contents where
  store :=
    { ids := fun row hrow => absurd hrow (Table.not_mem_empty row)
      file := nofun
      size := fun row hrow => absurd hrow (Table.not_mem_empty row)
      recorded := fun source hsource => absurd hsource (Table.not_mem_empty source) }
  ops := nofun

theorem kept_start : ({} : Store).Kept where
  referenced := fun source hsource => absurd hsource (Table.not_mem_empty source)
  stored := fun row hrow => absurd hrow (Table.not_mem_empty row)

/-- References are in order in every state exactly if every step comes at a good time; what a source
refers to can then be read as recorded, and any content can be put. -/
theorem blobs_kept_iff (hinj : Set.InjOn sha256 contents) {run : List Label} {t : State}
    (hwithin : ∀ a ∈ run, a.Within contents)
    (hrun : (blobMachine sha256 maxBytes).exec {} run = some t) :
    ((blobMachine sha256 maxBytes).Meets (State.InOrder sha256) {} run ↔
      ∀ before s, before <+: run → (blobMachine sha256 maxBytes).exec {} before = some s →
        s.store.Kept) ∧ ((blobMachine sha256 maxBytes).Meets (State.InOrder sha256) {} run →
      (∀ source ∈ t.store.sources, source.deleted = false → ∀ id, source.blobId = some id →
        ∃ bytes, t.store.get sha256 id = .ok bytes ∧
          source.contentHash = some (sha256 bytes) ∧ source.byteSize = some bytes.length) ∧
      (∀ row ∈ t.store.blobs, row.deleted = false → ∃ bytes,
        t.store.files row.contentHash = some bytes ∧ sha256 bytes = row.contentHash ∧
          bytes.length = row.byteSize) ∧ ∀ bytes ∈ contents, bytes.length ≤ maxBytes → ∀ newId,
        ∃ s' blob, t.store.put sha256 maxBytes newId bytes = .ok (s', blob)) := by
  have hexact := (blobMachine sha256 maxBytes).meets_iff_forall_reached_of
    (C := State.InOrder sha256) (I := State.Sound sha256 contents) (P := fun s => s.store.Kept)
    (fun s a s' hs ha h => (sound_step hinj hs ha h).1)
    (fun s a s' hs hkept ha h => (sound_step hinj hs ha h).2 hkept)
    sound_start kept_start hwithin hrun
  refine ⟨hexact, fun hmeets => ?_⟩
  have hsound : t.Sound sha256 contents :=
    (blobMachine sha256 maxBytes).invariant_of_meets (I := State.Sound sha256 contents)
      (fun s a s' hs ha h => (sound_step hinj hs ha h).1) sound_start
      (Machine.meets_of_forall _ hwithin _) hrun
  have hkept : t.store.Kept := hexact.1 hmeets run t (prefix_refl run) hrun
  refine ⟨fun source hsource hlive id hid => ?_, fun row hrow hlive => ?_, ?_⟩
  · exact hsound.store.get_ok hkept hinj hsource hlive hid
  · exact hsound.store.content hkept hinj hrow hlive
  · intro bytes hbytes hlimit newId
    exact hsound.store.put_ok hkept hinj hbytes hlimit newId

def State.Idle (s : State) : Prop := ∀ i, s.ops i = none

def Label.index : Label → Option ℕ
  | .ingest i _ _ _ _ | .delete i _ _ | .advance i _ | .stop i => some i
  | .create _ _ _ | .complete _ _ _ | .fail _ _ _ | .retry _ _ => none

theorem ops_setSources (h : s.setSources result = some s') : s'.ops = s.ops := by
  obtain ⟨changed, -, rfl⟩ := map_eq_some_iff.1 h
  rfl

theorem ops_begin {i j : ℕ} {op : Op} (h : s.begin i op = some s') (hne : j ≠ i) :
    s'.ops j = s.ops j := by
  unfold State.begin at h
  split at h
  · cases h
  · obtain rfl := some.inj h
    exact update_of_ne hne _ _

theorem ops_of_index {run : List Label} {t : State} {i : ℕ}
    (hrun : (blobMachine sha256 maxBytes).exec {} run = some t)
    (hi : ∀ a ∈ run, a.index ≠ some i) : t.ops i = none := by
  refine (blobMachine sha256 maxBytes).invariant_of_meets (I := fun s => s.ops i = none)
    (C := fun _ a => a.index ≠ some i) ?_ rfl (Machine.meets_of_forall _ hi _) hrun
  intro s a s' hs ha h
  change s.step sha256 maxBytes a = some s' at h
  cases a with
  | create | complete | fail | retry => rw [ops_setSources h, hs]
  | ingest | delete =>
    rw [ops_begin h (by rintro rfl; exact ha rfl), hs]
  | stop j =>
    obtain rfl := some.inj h
    exact (update_of_ne (by rintro rfl; exact ha rfl) _ _).trans hs
  | advance j newId =>
    simp only [State.step] at h
    split_ifs at h
    obtain ⟨op, -, rfl⟩ := map_eq_some_iff.1 h
    exact (update_of_ne (by rintro rfl; exact ha rfl) _ _).trans hs

end

/-! ## Two sources of one content -/

/-- A test that is enough for a step to come at a good time. -/
def inOrderTest (sha256 : Bytes → Digest) (s : State) : Label → Bool
  | .advance i _ =>
    (s.ops i).all fun op =>
      match op with
      | .ingest call =>
        match call.stage with
        | .lookUp | .write => true
        | .upsert => (s.store.files (sha256 call.bytes)).isSome
        | .attach blob => s.store.blobs.rows.any fun row => row.id = blob.id && !row.deleted
      | .delete call =>
        match call.stage with
        | .mark row =>
          s.store.sources.rows.all fun source => source.deleted || source.blobId ≠ some row.id
        | .remove row =>
          s.store.blobs.rows.all fun row' => row'.contentHash ≠ row.contentHash || row'.deleted
        | _ => true
  | _ => true

theorem inOrder_of_test (sha256 : Bytes → Digest) (s : State) (a : Label)
    (h : inOrderTest sha256 s a = true) : s.InOrder sha256 a := by
  cases a with
  | advance i newId =>
    intro op hop
    rw [inOrderTest, hop, all_some] at h
    cases op with
    | ingest call =>
      obtain ⟨source, revision, contentType, bytes, stage⟩ := call
      cases stage with
      | lookUp | write => trivial
      | upsert => exact h
      | attach blob =>
        intro _
        simpa [Table.mem_iff] using h
    | delete call =>
      obtain ⟨source, revision, stage⟩ := call
      cases stage with
      | mark row =>
        intro source hsource hlive
        have hsource' := List.all_eq_true.1 h source hsource
        simpa [hlive] using hsource'
      | remove row =>
        intro row' hrow' hhash
        have hrow'' := List.all_eq_true.1 h row' hrow'
        simpa [hhash] using hrow''
      | _ => trivial
  | _ => trivial

def sampleSha256 (bytes : Bytes) : Digest :=
  if bytes = [97] then 0xca978112ca1bbdcafac231b39a23dc4da786eff8147c4e72b9807785afee48bb
  else 0x3e23e8160039594a33894f6564e1b1348bbd7a0088d42c4acb73eeaed59c009d

def sampleIngest : List Label :=
  [.create 1 0 ⟨9, some 7, .chatAttachment, none⟩, .create 2 1 ⟨9, some 7, .chatAttachment, none⟩,
    .ingest 0 1 1 "text/plain" [97], .advance 0 0, .advance 0 0, .advance 0 100, .advance 0 0]

def samplePurge : List Label :=
  .delete 1 1 2 :: List.replicate 7 (.advance 1 0)

theorem blobs_kept_sample : (blobMachine sampleSha256 16).Meets (State.InOrder sampleSha256) {}
      (sampleIngest ++ samplePurge) ∧
    ∃ t, (blobMachine sampleSha256 16).exec {} (sampleIngest ++ samplePurge) = some t ∧
      ∃ s' blob, t.store.put sampleSha256 16 101 [97] = .ok (s', blob) := by
  have hmeets : (blobMachine sampleSha256 16).Meets (State.InOrder sampleSha256) {}
      (sampleIngest ++ samplePurge) :=
    (blobMachine sampleSha256 16).meets_of_meetsTest (inOrder_of_test sampleSha256)
      (by decide +kernel)
  obtain ⟨t, ht⟩ :
      ∃ t, (blobMachine sampleSha256 16).exec {} (sampleIngest ++ samplePurge) = some t :=
    isSome_iff_exists.1 (by decide +kernel)
  have hinj : Set.InjOn sampleSha256 {[97], [98]} := by
    rintro bytes (rfl | rfl) bytes' (rfl | rfl) h
    · rfl
    · exact absurd h (by decide)
    · exact absurd h (by decide)
    · rfl
  have hwithin : ∀ a ∈ sampleIngest ++ samplePurge, a.Within {[97], [98]} := by
    intro a ha
    simp only [sampleIngest, samplePurge, cons_append, nil_append, mem_cons, mem_replicate] at ha
    rcases ha with rfl | rfl | rfl | rfl | rfl | rfl | rfl | rfl | ⟨-, rfl⟩ <;>
      first | exact .inl rfl | trivial
  obtain ⟨-, -, hput⟩ := (blobs_kept_iff hinj hwithin ht).2 hmeets
  exact ⟨hmeets, t, ht, hput [97] (.inl rfl) (by decide) 101⟩

/-- The second file gets the content of the first: it is found, and then the first is purged. -/
def danglingRun : List Label :=
  sampleIngest ++ [.ingest 2 2 1 "text/plain" [97], .advance 2 0] ++ samplePurge ++ [.advance 2 0]

/-- The second file is left with a blob that is deleted and has no file. -/
theorem dangling_blob : ∃ t, (blobMachine sampleSha256 16).exec {} danglingRun = some t ∧ t.Idle ∧
      ∃ source ∈ t.store.sources, source.deleted = false ∧ source.blobId = some 100 ∧
        (∀ row ∈ t.store.blobs, row.id = 100 → row.deleted = true) ∧
        t.store.files (sampleSha256 [97]) = none := by
  have hrun : ∃ t, (blobMachine sampleSha256 16).exec {} danglingRun = some t ∧
      (∀ i ∈ danglingRun.filterMap Label.index, (t.ops i).isNone) ∧
      ∃ source ∈ t.store.sources, source.deleted = false ∧ source.blobId = some 100 ∧
        (∀ row ∈ t.store.blobs, row.id = 100 → row.deleted = true) ∧
        t.store.files (sampleSha256 [97]) = none := by
    decide +kernel
  obtain ⟨t, ht, hidle, hdangling⟩ := hrun
  refine ⟨t, ht, fun i => ?_, hdangling⟩
  by_cases hi : ∀ a ∈ danglingRun, a.index ≠ some i
  · exact ops_of_index ht hi
  · push Not at hi
    obtain ⟨a, ha, hindex⟩ := hi
    exact isNone_iff_eq_none.1 (hidle i (mem_filterMap.2 ⟨a, ha, hindex⟩))

end Gadgetron.Sources
