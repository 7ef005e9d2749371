import Gadgetron.Sources.Soundness

/-!
# Deletions that succeed

A note whose file is there can be removed, and a source that may be purged can be deleted once its
blob is known and the file of its note, if it has one, is there.
-/

namespace Gadgetron.Sources

open Lib Attempt Spaces

/-- The row that `delete_note` leaves. -/
def NoteObjectRow.tombstone (o : NoteObjectRow) : NoteObjectRow :=
  { o with status := .tombstone, revision := o.revision + 1 }

def World.removed (w : World) (o : NoteObjectRow) : World :=
  { w with
    objects := w.objects.put o.tombstone
    notes := Function.update w.notes o.place none }

def World.InStep (w : World) : Prop :=
  ∀ o ∈ w.objects, o.status = .active → (w.notes o.place).isSome = true

section

variable {env : Env} {contents : Set Bytes} {fate : Fate} {w : World} {o : NoteObjectRow} {α : Type}

theorem ensures_effect {P : World → Prop} {E : Failure → World → Prop} {step : Step}
    (hstop : fate step ≠ .runs → ∀ e w, P w → E e w) :
    Ensures P (effect fate step) (fun _ => P) E :=
  Ensures.perform_of (Ensures.pure fun _ h => h) hstop

theorem deleteNote_row (ho : w.objects.get o.id = some o) (hactive : o.status = .active) :
    registry (·.deleteNote o.id o.revision) w =
      (.ok o.tombstone, { w with objects := w.objects.put o.tombstone }) := by
  have hcas : w.objects.deleteNote o.id o.revision =
      .ok (w.objects.put o.tombstone, o.tombstone) := by
    refine bind_eq_ok.2 ⟨o, noteLocation_eq_ok.2 ⟨ho, hactive⟩, ?_⟩
    rw [if_pos rfl]
    rfl
  exact step_run_ok (map_eq_ok.2 ⟨_, hcas, rfl⟩)

theorem archiveFile_run (hw : w.Sound env contents) (hfile : (w.notes o.place).isSome = true) :
    archiveFile env o.place w =
      (.ok (), { w with notes := Function.update w.notes o.place none }) := by
  obtain ⟨bytes, hbytes⟩ := Option.isSome_iff_exists.1 hfile
  refine step_run_ok ?_
  rw [if_pos (hw.valid o.place hfile), hbytes]

theorem ensures_removeNote (hw : w.Sound env contents) (ho : w.objects.get o.id = some o)
    (hactive : o.status = .active) (hfile : (w.notes o.place).isSome = true)
    (hcommit : fate .archiveCommit = .runs) (htombstone : fate .tombstone = .runs) :
    Ensures (· = w) (removeNote env fate o.place o.id o.revision) (fun _ w' => w' = w.removed o)
      (fun _ w' => w' = w ∧ fate .archive ≠ .runs) := by
  unfold removeNote archiveNote
  refine Ensures.bind (Q := fun _ w' =>
    w' = { w with notes := Function.update w.notes o.place none }) ?_ fun _ => ?_
  · refine Ensures.bind (Ensures.perform_of (Ensures.of_run (archiveFile_run hw hfile))
      fun hstop _ w' hw' => ⟨hw', hstop⟩) fun _ => ?_
    exact (ensures_effect fun hstop => absurd hcommit hstop).mono (fun _ h => h.2)
      (fun _ _ h => h) (fun _ _ h => h)
  · refine Ensures.bind (Ensures.perform_of (Ensures.of_run (deleteNote_row ho hactive))
      fun hstop => absurd htombstone hstop) fun _ => ?_
    exact Ensures.pure fun _ h => h.2

theorem mem_removed (ho : o ∈ w.objects) {x : NoteObjectRow} : x ∈ (w.removed o).objects ↔
    x = o.tombstone ∨ x ∈ w.objects ∧ x.id ≠ o.id :=
  Table.mem_put (r := o.tombstone) ho rfl

theorem World.InStep.removed (hw : w.Sound env contents) (h : w.InStep) (ho : o ∈ w.objects) :
    (w.removed o).InStep := by
  intro x hx hxactive
  rcases (mem_removed ho).1 hx with rfl | ⟨hold, hne⟩
  · cases hxactive
  · have hplace : x.place ≠ o.place := fun heq => hne (congrArg _ (hw.places x hold o ho heq))
    change (Function.update w.notes o.place none x.place).isSome = true
    rw [Function.update_of_ne hplace]
    exact h x hold hxactive

theorem ensures_deleteNote (hw : w.Sound env contents) (ho : w.objects.get o.id = some o)
    (hactive : o.status = .active) (hfile : (w.notes o.place).isSome = true)
    (hcommit : fate .archiveCommit = .runs) (htombstone : fate .tombstone = .runs) :
    Ensures (· = w) (deleteNote env fate o.id o.revision) (fun _ w' => w' = w.removed o)
      (fun _ w' => w' = w ∧ fate ≠ smooth) := by
  have hstop : ∀ step, fate step ≠ .runs → ∀ (_ : Failure) (w' : World), w' = w →
      w' = w ∧ fate ≠ smooth := by
    rintro step hstep e w' rfl
    exact ⟨rfl, fun hsmooth => hstep (hsmooth ▸ rfl)⟩
  unfold deleteNote
  refine Ensures.bind (ensures_effect (hstop .lock)) fun _ => ?_
  refine Ensures.bind (Q := fun found w' => found = o ∧ w' = w)
    (Ensures.perform_of (Ensures.query ?_ ?_) (hstop .location)) fun found => ?_
  · rintro w' found rfl hfound
    obtain ⟨hget, -⟩ := noteLocation_eq_ok.1 hfound
    exact ⟨Option.mem_unique hget ho, rfl⟩
  · rintro w' e rfl herror
    rw [noteLocation_eq_ok.2 ⟨ho, hactive⟩] at herror
    cases herror
  · rintro w' ⟨rfl, rfl⟩
    rw [if_neg (by simp)]
    exact (ensures_removeNote hw ho hactive hfile hcommit htombstone).mono (fun _ h => h)
      (fun _ _ h => h) (fun e w'' h => hstop .archive h.2 e w'' h.1) w' rfl

end

/-! ## Sources -/

/-- The source is deleted, and nothing else has changed in the ledger. -/
structure SourceGone (id : Uuid) (w w' : World) : Prop where
  gone : ∃ row, w'.store.sources.get id = some row ∧ row.deleted = true
  others : ∀ id', id' ≠ id → w'.store.sources.get id' = w.store.sources.get id'

/-- The steps after a source is purged are made. -/
structure Fate.Finishes (fate : Fate) : Prop where
  countReferences : fate .countReferences = .runs
  blobRow : fate .blobRow = .runs
  blobReferences : fate .blobReferences = .runs
  markBlob : fate .markBlob = .runs
  removeBlob : fate .removeBlob = .runs

section

variable {env : Env} {contents : Set Bytes} {fate : Fate} {w : World} {id : Uuid}
  {row : KnowledgeSourceRow}

theorem Changed.sourceGone {t' : Ledger} {row' : KnowledgeSourceRow}
    (h : Changed w.store.sources t' row row') (hdeleted : row'.deleted = true) {w' : World}
    (hsources : w'.store.sources = t') : SourceGone row.id w w' where
  gone := ⟨row', by rw [hsources, h.get_eq, if_pos rfl], hdeleted⟩
  others := fun id' hne => by rw [hsources, h.get_eq, if_neg (Ne.symm hne)]

theorem ledger_run {f : Ledger → Except KnowledgeSpaceError (Ledger × KnowledgeSourceRow)}
    {t' : Ledger} (h : f w.store.sources = .ok (t', row)) :
    ledger f w = (.ok row, { w with store := { w.store with sources := t' } }) := by
  refine step_run_ok ?_
  rw [h]
  rfl

theorem blobs_run {α : Type} {f : Store → Except BlobError (α × Store)} {a : α} {s' : Store}
    (h : f w.store = .ok (a, s')) : blobs f w = (.ok a, { w with store := s' }) := by
  refine step_run_ok ?_
  rw [h]
  rfl

theorem ensures_deleteBlob {E : Failure → World → Prop} {blobId : Uuid} {b : BlobRow}
    (hrow : w.store.row blobId = .ok b)
    (hcount : w.store.sources.liveBlobReferenceCount blobId = 0) (hfate : fate.Finishes) :
    Ensures (· = w) (deleteBlob fate blobId)
      (fun _ w' => w'.store.sources = w.store.sources ∧ w'.objects = w.objects ∧
        w'.notes = w.notes) E := by
  unfold deleteBlob
  refine Ensures.bind (Ensures.perform_of (Ensures.of_run (blobs_run (by rw [hrow]; rfl)))
    fun hstop => absurd hfate.blobRow hstop) fun found => ?_
  rintro w' ⟨rfl, rfl⟩
  refine Ensures.bind (Ensures.perform_of (Ensures.of_run (blobs_run rfl))
    fun hstop => absurd hfate.blobReferences hstop) (fun references => ?_) w rfl
  rintro w' ⟨rfl, rfl⟩
  rw [if_neg (by rw [hcount]; omega)]
  refine Ensures.bind (Ensures.perform_of (Ensures.of_run (blobs_run rfl))
    fun hstop => absurd hfate.markBlob hstop) (fun _ => ?_) w rfl
  rintro w' ⟨-, rfl⟩
  refine (Ensures.perform_of (Ensures.of_run (blobs_run rfl))
    fun hstop => absurd hfate.removeBlob hstop).mono (fun _ h => h) ?_ (fun _ _ h => h) _ rfl
  rintro a w' ⟨-, rfl⟩
  exact ⟨rfl, rfl, rfl⟩

theorem ensures_purgeSource (hw : w.Sound env contents) (hget : w.store.sources.get id = some row)
    (hlive : row.deleted = false) (hkind : row.sourceKind.purgeable = true) {blobId : Uuid}
    (hblob : row.blobId = some blobId) (hfate : fate.Finishes) :
    Ensures (· = w) (purgeSource fate id row.revision blobId)
      (fun _ w' => SourceGone id w w' ∧ w'.objects = w.objects ∧ w'.notes = w.notes)
      (fun _ w' => w' = w ∧ fate .purge ≠ .runs) := by
  obtain ⟨⟨t', row'⟩, hpurge⟩ := purgePurgeableSource_of_get hget hlive hkind
  obtain ⟨row₁, hchanged, hid, -, hdeleted, -⟩ := changed_of_purgePurgeableSource hpurge
  obtain ⟨blobRow, hmem, rfl, hblobLive⟩ :=
    hw.kept.referenced row (Table.mem_of_get hget) hlive _ hblob
  unfold purgeSource
  refine Ensures.bind (Ensures.perform_of (Ensures.of_run (ledger_run hpurge))
    fun hstop _ w' hw' => ⟨hw', hstop⟩) fun _ => ?_
  rintro w₁ ⟨-, rfl⟩
  have hgone : ∀ w' : World, w'.store.sources = t' → SourceGone id w w' := fun w' hsources =>
    hid ▸ hchanged.sourceGone hdeleted hsources
  refine Ensures.bind (Ensures.perform_of (Ensures.of_run (blobs_run rfl))
    fun hstop => absurd hfate.countReferences hstop) (fun references => ?_) _ rfl
  rintro w₁ ⟨rfl, rfl⟩
  split_ifs with hcount
  · refine (ensures_deleteBlob (b := blobRow) ?_ hcount hfate).mono (fun _ h => h) ?_
      (fun _ _ h => h) _ rfl
    · exact hw.store.row_eq hmem hblobLive
    · rintro a w' ⟨hsources, hobjects, hnotes⟩
      exact ⟨hgone w' hsources, hobjects, hnotes⟩
  · exact ⟨hgone _ rfl, rfl, rfl⟩

def World.withoutNote (w : World) (row : KnowledgeSourceRow) : World :=
  match w.objects.sourceObject row with
  | none => w
  | some o => w.removed o

theorem sourceObject_eq_some {t : ObjectTable} {o : NoteObjectRow}
    (h : t.sourceObject row = some o) :
    o ∈ t ∧ o.vaultId = row.vaultId ∧ o.sourceId = some row.id ∧ o.status = .active := by
  have hsome := List.find?_some h
  simp only [Bool.and_eq_true, decide_eq_true_eq] at hsome
  obtain ⟨⟨hvault, hsource⟩, hstatus⟩ := hsome
  refine ⟨List.mem_of_find?_eq_some h, hvault, hsource, ?_⟩
  cases hactive : o.status with
  | active => rfl
  | tombstone => exact absurd hactive hstatus

theorem World.withoutNote_sources (w : World) (row : KnowledgeSourceRow) :
    (w.withoutNote row).store = w.store := by
  unfold World.withoutNote
  split
  · rfl
  · rfl

theorem World.Sound.withoutNote (hw : w.Sound env contents) :
    (w.withoutNote row).Sound env contents := by
  unfold World.withoutNote
  split
  · exact hw
  · next o ho =>
      obtain ⟨hmem, -, -, hactive⟩ := sourceObject_eq_some ho
      have hchanged : ObjectChanged w.objects
          (w.objects.put o.tombstone) o
          o.tombstone :=
        ⟨Table.get_eq_some.2 ⟨hmem, rfl⟩, hactive, rfl, rfl, rfl, rfl, rfl⟩
      refine ⟨hw.store, hw.kept, hchanged.kept.1 hw.places, hchanged.kept.2 hw.owners, ?_⟩
      intro place hsome
      have hnotes : (w.removed o).notes place = if place = o.place then none else w.notes place :=
        Function.update_apply ..
      rw [hnotes] at hsome
      split_ifs at hsome
      · cases hsome
      · exact hw.valid place hsome

theorem World.InStep.withoutNote (hw : w.Sound env contents) (h : w.InStep) :
    (w.withoutNote row).InStep := by
  unfold World.withoutNote
  split
  · exact h
  · next o ho => exact h.removed hw (sourceObject_eq_some ho).1

theorem ensures_removeSourceNote (hw : w.Sound env contents)
    (hget : w.store.sources.get id = some row) (hlive : row.deleted = false)
    (hfile : ∀ o, w.objects.sourceObject row = some o → (w.notes o.place).isSome = true)
    (hcommit : fate .archiveCommit = .runs) (htombstone : fate .tombstone = .runs) :
    Ensures (· = w) (removeSourceNote env fate id) (fun _ w' => w' = w.withoutNote row)
      (fun _ w' => w' = w ∧ fate ≠ smooth) := by
  have hstop : ∀ step : Step, fate step ≠ .runs → ∀ (_ : Failure) (w' : World), w' = w →
      w' = w ∧ fate ≠ smooth := by
    rintro step hstep e w' rfl
    exact ⟨rfl, fun hsmooth => hstep (hsmooth ▸ rfl)⟩
  have hsource : w.store.sources.getSource id = .ok row := getSource_eq_ok.2 ⟨hget, hlive⟩
  have hquery : query (fun w => do
      let source ← (w.store.sources.getSource id).mapError Failure.knowledge
      .ok (w.objects.sourceObject source)) w = (.ok (w.objects.sourceObject row), w) :=
    query_run (bind_eq_ok.2 ⟨row, mapError_eq_ok.2 hsource, rfl⟩)
  unfold removeSourceNote
  refine Ensures.bind (Ensures.perform_of (Ensures.of_run hquery) (hstop .sourceObject))
    fun existing => ?_
  rintro w' ⟨hexisting, hw'⟩
  obtain rfl := hexisting.symm
  obtain rfl := hw'.symm
  unfold World.withoutNote
  cases ho : w.objects.sourceObject row with
  | none => rfl
  | some o =>
    obtain ⟨hmem, -, -, hactive⟩ := sourceObject_eq_some ho
    have hobject : w.objects.get o.id = some o := Table.get_eq_some.2 ⟨hmem, rfl⟩
    have hlocation : query (·.objects.noteLocation o.id) w = (.ok o, w) :=
      query_run (noteLocation_eq_ok.2 ⟨hobject, hactive⟩)
    refine Ensures.bind (Ensures.perform_of (Ensures.of_run hlocation) (hstop .location))
      (fun location => ?_) w rfl
    rintro w' ⟨hlocated, hw'⟩
    obtain rfl := hlocated.symm
    obtain rfl := hw'.symm
    refine Ensures.bind (ensures_effect (hstop .lock)) (fun _ => ?_) w rfl
    exact (ensures_removeNote hw hobject hactive (hfile _ ho) hcommit htombstone).mono
      (fun _ h => h) (fun _ _ h => h) fun e w'' h => hstop .archive h.2 e w'' h.1

/-- A source can be deleted if it is of a kind that stays, or has its blob and, if it has a note,
the file of it. -/
def Removable (w : World) (row : KnowledgeSourceRow) : Prop :=
  row.sourceKind.purgeable = true → row.blobId ≠ none ∧
      ∀ o, w.objects.sourceObject row = some o → (w.notes o.place).isSome = true

/-- What a deletion leaves of the notes: all, or all but that of the source. -/
def NotesLeft (w : World) (row : KnowledgeSourceRow) (w' : World) : Prop :=
  w'.objects = w.objects ∧ w'.notes = w.notes ∨
    w'.objects = (w.withoutNote row).objects ∧ w'.notes = (w.withoutNote row).notes

theorem ensures_deleteSource (hw : w.Sound env contents)
    (hget : w.store.sources.get id = some row) (hlive : row.deleted = false)
    (hremovable : Removable w row) (hcommit : fate .archiveCommit = .runs)
    (htombstone : fate .tombstone = .runs) (hfate : fate.Finishes) :
    Ensures (· = w) (deleteSource env fate id row.revision)
      (fun _ w' => SourceGone id w w' ∧ NotesLeft w row w')
      (fun _ w' => (w' = w ∨ w' = w.withoutNote row) ∧ fate ≠ smooth) := by
  have hne : ∀ step : Step, fate step ≠ .runs → fate ≠ smooth := by
    rintro step hstep rfl
    exact hstep rfl
  have hsource : w.store.sources.getSource id = .ok row := getSource_eq_ok.2 ⟨hget, hlive⟩
  have hquery : query (fun w => (w.store.sources.getSource id).mapError Failure.knowledge) w =
      (.ok row, w) :=
    query_run (mapError_eq_ok.2 hsource)
  unfold deleteSource
  refine Ensures.bind (Ensures.perform_of (Ensures.of_run hquery)
    fun hstop _ w' hw' => ⟨.inl hw', hne _ hstop⟩) fun current => ?_
  rintro w' ⟨hcurrent, hw'⟩
  obtain rfl := hcurrent.symm
  obtain rfl := hw'.symm
  rw [if_neg (by simp)]
  split_ifs with hkind
  · obtain ⟨hblob, hfile⟩ := hremovable hkind
    obtain ⟨blobId, hblobId⟩ := Option.ne_none_iff_exists'.1 hblob
    refine Ensures.bind ((ensures_removeSourceNote hw hget hlive hfile hcommit htombstone).mono
      (fun _ h => h) (fun _ _ h => h) fun e w'' h => ⟨.inl h.1, h.2⟩) (fun _ => ?_) w rfl
    rw [hblobId]
    have hget' : (w.withoutNote row).store.sources.get id = some row := by
      rw [World.withoutNote_sources]
      exact hget
    refine (ensures_purgeSource hw.withoutNote hget' hlive hkind hblobId hfate).mono
      (fun _ h => h) ?_ fun e w'' h => ⟨.inr h.1, hne _ h.2⟩
    rintro a w'' ⟨hgone, hobjects, hnotes⟩
    refine ⟨⟨hgone.gone, fun id' hid' => ?_⟩, .inr ⟨hobjects, hnotes⟩⟩
    rw [hgone.others id' hid', World.withoutNote_sources]
  · obtain ⟨⟨t', row'⟩, hdelete⟩ := deleteSource_of_get hget hlive
    obtain ⟨row₁, hchanged, hid, -, rfl⟩ := changed_of_deleteSource hdelete
    refine Ensures.bind (Ensures.perform_of (Ensures.of_run (ledger_run hdelete))
      fun hstop _ w'' hw'' => ⟨.inl hw'', hne _ hstop⟩) (fun _ => ?_) w rfl
    rintro w'' ⟨-, rfl⟩
    exact ⟨hid ▸ hchanged.sourceGone rfl rfl, .inl ⟨rfl, rfl⟩⟩

end

end Gadgetron.Sources
