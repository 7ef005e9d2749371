import Gadgetron.Sources.Deletion

/-!
# The registry and the vault in step

Every active object has its file as long as no deletion stops before its tombstone, and no creation
or ingest where it does not go on to write the file of its object.
-/

namespace Gadgetron.Sources

open Lib Attempt Spaces Option Function

def NotesStay {α : Type} (x : Request α) : Prop :=
  ∀ w, (x w).2.objects = w.objects ∧ (x w).2.notes = w.notes

section

variable {α β : Type} {fate : Fate}

theorem NotesStay.pure (a : α) : NotesStay (Pure.pure a) := fun _ => ⟨rfl, rfl⟩

theorem NotesStay.throw (e : Failure) : NotesStay (Attempt.throw e : Request α) :=
  fun _ => ⟨rfl, rfl⟩

variable {x : Request α}

theorem NotesStay.bind {f : α → Request β} (hx : NotesStay x)
    (hf : ∀ a, NotesStay (f a)) : NotesStay (x >>= f) := by
  intro w
  obtain ⟨hobjects, hnotes⟩ := hx w
  cases h : x w with
  | mk result w' =>
    rw [h] at hobjects hnotes
    cases result with
    | ok a =>
      rw [bind_run_ok h]
      exact ⟨(hf a w').1.trans hobjects, (hf a w').2.trans hnotes⟩
    | error e =>
      rw [bind_run_error h]
      exact ⟨hobjects, hnotes⟩

theorem NotesStay.step {f : World → Except Failure (α × World)}
    (h : ∀ w a w', f w = .ok (a, w') → w'.objects = w.objects ∧ w'.notes = w.notes) :
    NotesStay (Attempt.step f) := by
  intro w
  cases hf : f w with
  | ok result =>
    rw [step_run_ok hf]
    exact h w result.1 result.2 hf
  | error e =>
    rw [step_run_error hf]
    exact ⟨rfl, rfl⟩

theorem NotesStay.perform {step : Step} (hx : NotesStay x) : NotesStay (perform fate step x) := by
  unfold Sources.perform
  split
  · exact hx
  · exact NotesStay.throw _
  · exact NotesStay.throw _

theorem NotesStay.effect (step : Step) : NotesStay (effect fate step) :=
  NotesStay.perform (NotesStay.pure ())

theorem NotesStay.query (f : World → Except Failure α) : NotesStay (query f) :=
  NotesStay.step fun w a w' h => by
    obtain ⟨b, -, heq⟩ := map_eq_ok.1 h
    cases heq
    exact ⟨rfl, rfl⟩

theorem NotesStay.ledger (f : Ledger → Except KnowledgeSpaceError (Ledger × KnowledgeSourceRow)) :
    NotesStay (ledger f) :=
  NotesStay.step fun w a w' h => by
    obtain ⟨b, -, heq⟩ := map_eq_ok.1 h
    cases heq
    exact ⟨rfl, rfl⟩

theorem NotesStay.blobs (f : Store → Except BlobError (α × Store)) : NotesStay (blobs f) :=
  NotesStay.step fun w a w' h => by
    obtain ⟨b, -, heq⟩ := map_eq_ok.1 h
    cases heq
    exact ⟨rfl, rfl⟩

theorem notesStay_putBlob (env : Env) (newBlobId : Uuid) (bytes : Bytes) :
    NotesStay (putBlob env fate newBlobId bytes) := by
  unfold putBlob
  split
  · exact NotesStay.throw _
  · refine (NotesStay.blobs _).perform.bind fun found => ?_
    cases found with
    | some existing => exact NotesStay.pure _
    | none => exact (NotesStay.blobs _).perform.bind fun _ => (NotesStay.blobs _).perform

theorem notesStay_persistFailure (source : KnowledgeSourceRow) (needsOcr : Bool) (e : Failure) :
    NotesStay (persistFailure fate source needsOcr e : Request α) := by
  unfold persistFailure
  split
  · exact NotesStay.throw _
  · exact (NotesStay.effect _).bind fun _ => (NotesStay.ledger _).perform.bind fun _ =>
      NotesStay.throw _

theorem notesStay_purgeSource (sourceId : Uuid) (expectedRevision : ℕ) (blobId : Uuid) :
    NotesStay (purgeSource fate sourceId expectedRevision blobId) := by
  unfold purgeSource deleteBlob
  refine (NotesStay.ledger _).perform.bind fun _ => (NotesStay.blobs _).perform.bind fun _ => ?_
  split
  · refine (NotesStay.blobs _).perform.bind fun _ => (NotesStay.blobs _).perform.bind fun _ => ?_
    split
    · exact NotesStay.throw _
    · exact (NotesStay.blobs _).perform.bind fun _ => (NotesStay.blobs _).perform
  · exact NotesStay.pure _

theorem NotesStay.frame {P R : World → Prop} {Q : α → World → Prop}
    {E : Failure → World → Prop} (hstay : NotesStay x) (hx : Ensures P x Q E)
    (hR : ∀ w w' : World, w'.objects = w.objects → w'.notes = w.notes → R w → R w') :
    Ensures (fun w => P w ∧ R w) x (fun a w => Q a w ∧ R w) (fun e w => E e w ∧ R w) := by
  intro w hw
  have hrun := hx w hw.1
  obtain ⟨hobjects, hnotes⟩ := hstay w
  cases h : x w with
  | mk result w' =>
    rw [h] at hrun hobjects hnotes
    cases result with
    | ok | error => exact ⟨hrun, hR w w' hobjects hnotes hw.2⟩

end

/-! ## Requests in step -/

def World.InStepBut (place : Uuid × String) (w : World) : Prop :=
  ∀ o ∈ w.objects, o.status = .active → o.place ≠ place → (w.notes o.place).isSome = true

def World.Fit (env : Env) (contents : Set Bytes) (w : World) : Prop :=
  w.Sound env contents ∧ w.InStep

/-- Nothing dies, and the steps that make up for a failure run. -/
structure Fate.Recovers (fate : Fate) : Prop where
  lives : ∀ step, fate step ≠ .dies
  compensate : fate .compensate = .runs
  persistAttempt : fate .persistAttempt = .runs
  persistFailure : fate .persistFailure = .runs

section

variable {env : Env} {contents : Set Bytes} {fate : Fate} {α : Type}

theorem World.InStep.of_stay {w w' : World} (hobjects : w'.objects = w.objects)
    (hnotes : w'.notes = w.notes) (h : w.InStep) : w'.InStep := by
  intro o ho hactive
  rw [hnotes]
  exact h o (hobjects ▸ ho) hactive

variable {w : World}

theorem World.InStepBut.inStep {place : Uuid × String} (h : w.InStepBut place)
    (hfile : (w.notes place).isSome = true) : w.InStep := by
  intro o ho hactive
  by_cases hplace : o.place = place
  · rw [hplace]
    exact hfile
  · exact h o ho hactive hplace

variable {x : Request α}

theorem NotesStay.fit (hstay : NotesStay x) (hkeeps : Keeps env contents x) :
    Ensures (World.Fit env contents) x (fun _ => World.Fit env contents)
      (fun _ => World.Fit env contents) :=
  hstay.frame hkeeps fun _ _ hobjects hnotes h => h.of_stay hobjects hnotes

theorem ensures_writeNote (R : ObjectTable → Prop) (place : Uuid × String) (bytes : Bytes) :
    Ensures (fun w => w.Sound env contents ∧ w.InStepBut place ∧ R w.objects)
      (writeNote env fate place bytes) (fun _ w => World.Fit env contents w ∧ R w.objects)
      (fun _ w => w.Sound env contents ∧ w.InStepBut place ∧ R w.objects ∧
        ((w.notes place).isSome = true ∨ fate .writeNote ≠ .runs ∨
          env.validPath place.2 = false)) := by
  refine Ensures.bind (Q := fun _ w => w.Sound env contents ∧ w.InStepBut place ∧ R w.objects ∧
    (w.notes place).isSome = true) ?_ fun _ => ?_
  · refine Ensures.perform_of (Ensures.step (fun w a w' hw h => ?_) (fun w e hw h => ?_))
      fun hstop _ w hw => ⟨hw.1, hw.2.1, hw.2.2, .inr (.inl hstop)⟩
    · have hsound : w'.Sound env contents := by
        have hkeeps : Keeps env contents (writeFile env place bytes) := Keeps.writeFile place bytes
        have hrun := hkeeps w hw.1
        rw [writeFile, step_run_ok h] at hrun
        exact hrun
      obtain ⟨-, rfl⟩ := writeFile_eq_ok h
      refine ⟨hsound, fun o ho hactive hplace => ?_, hw.2.2, ?_⟩
      · change (Function.update w.notes place (some bytes) o.place).isSome = true
        rw [update_of_ne hplace]
        exact hw.2.1 o ho hactive hplace
      · change (Function.update w.notes place (some bytes) place).isSome = true
        rw [update_self]
        rfl
    · refine ⟨hw.1, hw.2.1, hw.2.2, .inr (.inr ?_)⟩
      split_ifs at h with hvalid
      simpa using hvalid
  · refine (ensures_effect fun _ _ w hw => ⟨hw.1, hw.2.1, hw.2.2.1, .inl hw.2.2.2⟩).mono
      (fun _ h => h) ?_ fun _ _ h => h
    rintro - w ⟨hsound, hbut, hR, hsome⟩
    exact ⟨⟨hsound, hbut.inStep hsome⟩, hR⟩

def KeepsFit (env : Env) (contents : Set Bytes) (x : Request α) : Prop :=
  Ensures (World.Fit env contents) x (fun _ => World.Fit env contents)
    (fun _ => World.Fit env contents)

theorem KeepsFit.throw (e : Failure) : KeepsFit env contents (Attempt.throw e : Request α) :=
  Ensures.throw fun _ hw => hw

theorem KeepsFit.bind {β : Type} {f : α → Request β}
    (hx : KeepsFit env contents x) (hf : ∀ a, KeepsFit env contents (f a)) :
    KeepsFit env contents (x >>= f) :=
  Ensures.bind hx hf

theorem KeepsFit.perform {step : Step} (hx : KeepsFit env contents x) :
    KeepsFit env contents (perform fate step x) :=
  Ensures.perform hx (fun _ hw => hw) (fun _ hw => hw)

theorem keepsFit_writeNote (place : Uuid × String) (bytes : Bytes) :
    KeepsFit env contents (writeNote env fate place bytes) := by
  refine KeepsFit.bind (KeepsFit.perform (Ensures.step (fun w a w' hw h => ?_) fun _ _ hw _ => hw))
    fun _ => NotesStay.fit (NotesStay.effect .commitNote) (Keeps.effect .commitNote)
  have hkeeps : Keeps env contents (writeFile env place bytes) := Keeps.writeFile place bytes
  have hrun := hkeeps w hw.1
  rw [writeFile, step_run_ok h] at hrun
  refine ⟨hrun, ?_⟩
  obtain ⟨-, rfl⟩ := writeFile_eq_ok h
  intro o ho hactive
  change (Function.update w.notes place (some bytes) o.place).isSome = true
  rw [update_apply]
  split_ifs
  · rfl
  · exact hw.2 o ho hactive

theorem keepsFit_updateNoteHash (id : Uuid) (revision : ℕ) (contentHash : Digest) :
    KeepsFit env contents (registry (·.updateNoteHash id revision contentHash)) := by
  refine Ensures.step (fun w row w' hw h => ?_) fun _ _ hw _ => hw
  obtain ⟨⟨t', row'⟩, hok, heq⟩ := map_eq_ok.1 h
  cases heq
  obtain ⟨old, hchanged, -⟩ := objectChanged_of_cas hok
  refine ⟨hw.1.setObjects hchanged.kept, fun o ho hactive => ?_⟩
  rcases hchanged.mem_iff.1 ho with rfl | ⟨hold, -⟩
  · rw [hchanged.place]
    exact hw.2 old (Table.mem_of_get hchanged.get) hchanged.active
  · exact hw.2 o hold hactive

theorem keepsFit_query {β : Type} (f : World → Except Failure β) :
    KeepsFit env contents (query f) :=
  (NotesStay.query f).fit (Keeps.query f)

theorem keepsFit_effect (step : Step) : KeepsFit env contents (effect fate step) :=
  (NotesStay.effect step).fit (Keeps.effect step)

theorem keepsFit_persistFailure (source : KnowledgeSourceRow) (needsOcr : Bool) (e : Failure)
    (Q : α → World → Prop) :
    Ensures (World.Fit env contents) (persistFailure fate source needsOcr e : Request α) Q
      (fun _ => World.Fit env contents) := by
  have hstay : NotesStay (persistFailure fate source needsOcr e : Request α) :=
    notesStay_persistFailure source needsOcr e
  have hsound : Ensures (World.Sound env contents)
      (persistFailure fate source needsOcr e : Request α) (fun _ _ => False)
      (fun _ => World.Sound env contents) := ensures_persistFailure source needsOcr e _
  have hframe := hstay.frame hsound fun _ _ hobjects hnotes (h : World.InStep _) =>
    h.of_stay hobjects hnotes
  exact hframe.mono (fun _ h => h) (fun _ _ h => h.1.elim) fun _ _ h => h

def Lives (x : Request α) : Prop :=
  Ensures (fun _ => True) x (fun _ _ => True) (fun e _ => ∀ step, e ≠ .died step)

theorem lives_perform {step : Step} (hfate : fate step ≠ .dies) (hx : Lives x) :
    Lives (perform fate step x) := by
  unfold perform
  split
  · exact hx
  · exact Ensures.throw fun _ _ => nofun
  · contradiction

theorem lives_writeNote (hfate : ∀ step, fate step ≠ .dies) (place : Uuid × String)
    (bytes : Bytes) : Lives (do
      effect fate .ensureDomain
      writeNote env fate place bytes) := by
  have heffect : ∀ step, Lives (effect fate step) := fun step =>
    lives_perform (hfate step) (Ensures.pure fun _ _ => trivial)
  refine Ensures.bind (heffect _) fun _ => Ensures.bind (lives_perform (hfate _) ?_) fun _ =>
    heffect _
  refine Ensures.step (fun _ _ _ _ _ => trivial) fun w e _ h => ?_
  split_ifs at h
  cases h
  exact nofun

/-! ### Notes -/

theorem keepsFit_putNote (objectId : Uuid) (expectedRevision : ℕ) (bytes : Bytes) :
    KeepsFit env contents (putNote env fate objectId expectedRevision bytes) := by
  unfold putNote editNote
  refine (keepsFit_effect .lock).bind fun _ => (keepsFit_query _).perform.bind fun object => ?_
  split
  · exact KeepsFit.throw _
  · refine KeepsFit.bind (KeepsFit.perform (keepsFit_query _)) fun current => ?_
    split
    · refine (keepsFit_effect .commitExternal).bind fun _ => ?_
      exact (keepsFit_updateNoteHash _ _ _).perform.bind fun _ => KeepsFit.throw _
    · refine (keepsFit_writeNote _ _).bind fun _ => ?_
      refine (keepsFit_updateNoteHash _ _ _).perform.bind fun _ => ?_
      exact (NotesStay.pure _).fit (Keeps.pure _)

theorem World.InStep.insertObject (hw : w.InStep) {t' : ObjectTable}
    {row row' : NoteObjectRow} (h : w.objects.insertObject row = .ok (t', row')) :
    ({ w with objects := t' } : World).InStepBut row.place := by
  obtain ⟨-, hinsert, -, -⟩ := insertObject_eq_ok h
  intro o ho hactive hplace
  rcases (Table.mem_insert hinsert).1 ho with hold | rfl
  · exact hw o hold hactive
  · exact absurd rfl hplace

theorem World.InStepBut.tombstone {o : NoteObjectRow} (hw : w.Sound env contents)
    (h : w.InStepBut o.place) (ho : w.objects.get o.id = some o) (hactive : o.status = .active) :
    World.Fit env contents { w with objects := w.objects.put o.tombstone } := by
  have hchanged : ObjectChanged w.objects
      (w.objects.put o.tombstone) o
      o.tombstone :=
    ⟨ho, hactive, rfl, rfl, rfl, rfl, rfl⟩
  refine ⟨hw.setObjects hchanged.kept, fun x hx hxactive => ?_⟩
  rcases hchanged.mem_iff.1 hx with rfl | ⟨hold, hne⟩
  · cases hxactive
  · refine h x hold hxactive fun hplace => hne ?_
    exact congrArg _ (hw.places x hold o (Table.mem_of_get ho) hplace)

theorem keepsFit_createNote (hfate : fate.Recovers) (hopen : fate .vaultRepository = .runs)
    (vaultId newId : Uuid) (title : String) (bytes : Bytes) :
    KeepsFit env contents (createNote env fate vaultId newId title bytes) := by
  unfold createNote
  -- the object is there and active, and only it may be without its file
  let Registered : NoteObjectRow → World → Prop := fun object w =>
    w.Sound env contents ∧ w.InStepBut object.place ∧ w.objects.get object.id = some object ∧
      object.status = .active ∧ object.id = newId
  refine Ensures.bind (Q := Registered) (Ensures.perform (Ensures.step (fun w row w' hw h => ?_)
    fun _ _ hw _ => hw) (fun _ hw => hw) (fun _ hw => hw)) fun object => ?_
  · obtain ⟨⟨t', row'⟩, hok, heq⟩ := map_eq_ok.1 h
    cases heq
    obtain ⟨rfl, hinsert, -, -⟩ := insertObject_eq_ok hok
    refine ⟨hw.1.setObjects (registryKept_of_insertObject hok), hw.2.insertObject hok, ?_, rfl, rfl⟩
    exact Table.get_eq_some.2 ⟨(Table.mem_insert hinsert).2 (.inr rfl), rfl⟩
  · refine Ensures.bind (ensures_effect fun hstop => absurd hopen hstop) fun _ => ?_
    let R : ObjectTable → Prop := fun t =>
      t.get object.id = some object ∧ object.status = .active ∧ object.id = newId
    have hwrite : Ensures (Registered object) (do
        effect fate .ensureDomain
        writeNote env fate object.place bytes) (fun _ => World.Fit env contents)
        (fun _ => Registered object) :=
      Ensures.bind (ensures_effect fun _ _ _ hw => hw) fun _ =>
        (ensures_writeNote R object.place bytes).mono (fun w hw => hw) (fun _ _ hw => hw.1)
          fun _ w hw => ⟨hw.1, hw.2.1, hw.2.2.1⟩
    have hcompensate : Ensures (Registered object)
        (perform fate .compensate (registry (·.deleteNote newId object.revision)))
        (fun _ => World.Fit env contents) (fun _ => World.Fit env contents) := by
      refine Ensures.perform_of ?_ fun hstop => absurd hfate.compensate hstop
      rintro w ⟨hsound, hbut, hget, hactive, rfl⟩
      rw [deleteNote_row hget hactive]
      exact hbut.tombstone hsound hget hactive
    have hlives : Lives (do
        effect fate .ensureDomain
        writeNote env fate object.place bytes) := lives_writeNote hfate.lives object.place bytes
    have hboth := (hwrite.and hlives).mono
      (fun w hw => ⟨hw, trivial⟩) (fun _ _ h => h.1) (fun _ _ h => h)
    refine Ensures.handle hboth fun e => ?_
    split
    · exact fun w hw => absurd rfl (hw.2 _)
    · have hthrow : Ensures (Registered object) (do
          let _ ← perform fate .compensate (registry (·.deleteNote newId object.revision))
          Attempt.throw e : Request Unit)
          (fun _ => World.Fit env contents) (fun _ => World.Fit env contents) :=
        hcompensate.bind fun _ => Ensures.throw fun _ hw => hw
      refine (Ensures.handle hthrow fun e' => ?_).mono (fun _ hw => hw.1) (fun _ _ h => h)
        (fun _ _ h => h)
      split
      · exact KeepsFit.throw _
      · exact KeepsFit.throw _

theorem keepsFit_removeNote {o : NoteObjectRow} (hw : World.Fit env contents w)
    (ho : w.objects.get o.id = some o) (hactive : o.status = .active)
    (hcommit : fate .archiveCommit = .runs) (htombstone : fate .tombstone = .runs) :
    Ensures (· = w) (removeNote env fate o.place o.id o.revision)
      (fun _ => World.Fit env contents) (fun _ => World.Fit env contents) := by
  have hmem := Table.mem_of_get ho
  have hkeeps : Ensures (· = w) (removeNote env fate o.place o.id o.revision)
      (fun _ => World.Sound env contents) (fun _ => World.Sound env contents) :=
    (keeps_removeNote o.place o.id o.revision).mono (fun w' h => h ▸ hw.1) (fun _ _ h => h)
      fun _ _ h => h
  refine ((ensures_removeNote hw.1 ho hactive (hw.2 o hmem hactive) hcommit htombstone).and
    hkeeps).mono (fun _ h => ⟨h, h⟩) ?_ ?_
  · rintro a w' ⟨rfl, hsound⟩
    exact ⟨hsound, hw.2.removed hw.1 hmem⟩
  · rintro e w' ⟨⟨rfl, -⟩, -⟩
    exact hw

theorem keepsFit_deleteNote (hcommit : fate .archiveCommit = .runs)
    (htombstone : fate .tombstone = .runs) (objectId : Uuid) (expectedRevision : ℕ) :
    KeepsFit env contents (deleteNote env fate objectId expectedRevision) := by
  unfold deleteNote
  refine (keepsFit_effect .lock).bind fun _ => ?_
  refine Ensures.bind (Q := fun o w => World.Fit env contents w ∧
    w.objects.get o.id = some o ∧ o.status = .active ∧ o.id = objectId)
    (Ensures.perform (Ensures.query (fun w o hw ho => ?_) fun _ _ hw _ => hw) (fun _ hw => hw)
      (fun _ hw => hw)) fun o => ?_
  · obtain ⟨hget, hactive⟩ := noteLocation_eq_ok.1 ho
    have hid : o.id = objectId := Table.key_of_get hget
    exact ⟨hw, hid ▸ hget, hactive, hid⟩
  · split
    · exact Ensures.throw fun _ hw => hw.1
    · next hrevision =>
        rintro w ⟨hw, hget, hactive, rfl⟩
        rw [← not_not.1 hrevision]
        exact keepsFit_removeNote hw hget hactive hcommit htombstone w rfl

/-! ### Sources -/

/-- The source has an active note. -/
def HasNote (sourceId : Uuid) (t : ObjectTable) : Prop :=
  ∃ o ∈ t, o.status = .active ∧ o.sourceId = some sourceId

/-- A note that is registered for a source at the path is written too. -/
structure WritesNote (env : Env) (fate : Fate) (path : String) : Prop where
  vaultRepository : fate .vaultRepository = .runs
  ensureDomain : fate .ensureDomain = .runs
  writeNote : fate .writeNote = .runs
  path : env.validPath path = true

theorem keepsFit_writeSourceNote (source : KnowledgeSourceRow) (place : Uuid × String)
    (note : Bytes) : Ensures (fun w => w.Sound env contents ∧
        (w.InStep ∨ w.InStepBut place ∧ WritesNote env fate place.2))
      (writeSourceNote env fate source place note) (fun _ => World.Fit env contents)
      (fun _ => World.Fit env contents) := by
  have hwrite : Ensures (fun w => w.Sound env contents ∧
        (w.InStep ∨ w.InStepBut place ∧ WritesNote env fate place.2))
      (writeNote env fate place note) (fun _ => World.Fit env contents)
      (fun _ => World.Fit env contents) := by
    rintro w ⟨hsound, hstep | ⟨hbut, hwrites⟩⟩
    · exact keepsFit_writeNote place note w ⟨hsound, hstep⟩
    · refine (ensures_writeNote (fun _ => True) place note).mono (fun _ h => h)
        (fun _ _ h => h.1) ?_ w ⟨hsound, hbut, trivial⟩
      rintro e w' ⟨hsound', hbut', -, hsome | hstop | hinvalid⟩
      · exact ⟨hsound', hbut'.inStep hsome⟩
      · exact absurd hwrites.writeNote hstop
      · rw [hwrites.path] at hinvalid
        cases hinvalid
  refine Ensures.bind (ensures_effect fun hstop _ w hw => ?_) fun _ =>
    Ensures.bind (ensures_effect fun hstop _ w hw => ?_) fun _ =>
      Ensures.handle hwrite fun e => keepsFit_persistFailure source false e _
  · obtain ⟨hsound, hstep | ⟨-, hwrites⟩⟩ := hw
    · exact ⟨hsound, hstep⟩
    · exact absurd hwrites.vaultRepository hstop
  · obtain ⟨hsound, hstep | ⟨-, hwrites⟩⟩ := hw
    · exact ⟨hsound, hstep⟩
    · exact absurd hwrites.ensureDomain hstop

theorem keepsFit_materialize (source : KnowledgeSourceRow) (contentType : String)
    (contentHash : Digest) (extracted : Bytes) (newObjectId : Uuid) :
    Ensures (fun w => World.Fit env contents w ∧ w.store.sources.get source.id = some source ∧
        (HasNote source.id w.objects ∨ WritesNote env fate (env.sourcePath source.id newObjectId)))
      (materialize env fate source contentType contentHash extracted newObjectId)
      (fun _ => World.Fit env contents) (fun _ => World.Fit env contents) := by
  unfold materialize
  refine Ensures.bind (Q := fun existing w => (World.Fit env contents w ∧
      w.store.sources.get source.id = some source ∧
      (HasNote source.id w.objects ∨ WritesNote env fate (env.sourcePath source.id newObjectId))) ∧
      existing = w.objects.sourceObject source) (Ensures.perform
    (Ensures.query (fun w existing hw h => ?_) fun _ _ hw _ => hw.1) (fun _ hw => hw.1)
      (fun _ hw => hw.1)) fun existing => ?_
  · obtain ⟨found, hfound, hexisting⟩ := bind_eq_ok.1 h
    obtain ⟨hget, -⟩ := getSource_eq_ok.1 (mapError_eq_ok.1 hfound)
    have hsame : source = found := mem_unique hw.2.1 hget
    exact ⟨hw, hsame ▸ (Except.ok.inj hexisting).symm⟩
  · refine Ensures.bind (Ensures.lift (fun _ _ _ hw => hw) fun _ _ _ hw => hw.1.1) fun note => ?_
    refine Ensures.bind (Q := fun _ w => w.Sound env contents ∧ (w.InStep ∨ w.InStepBut
      (source.vaultId, (existing.map (·.path)).getD (env.sourcePath source.id newObjectId)) ∧
      WritesNote env fate ((existing.map (·.path)).getD (env.sourcePath source.id newObjectId)))) ?_
      fun object => ?_
    · cases existing with
      | some o =>
        rintro w ⟨⟨hw, -⟩, -⟩
        have hkeeps : KeepsFit env contents (bindObject fate source (some o)
            (((some o).map (·.id)).getD newObjectId)
            (((some o).map (·.path)).getD (env.sourcePath source.id newObjectId))
            (env.sha256 note)) := by
          unfold bindObject
          dsimp only
          split
          · exact (NotesStay.pure _).fit (Keeps.pure _)
          · exact (keepsFit_updateNoteHash _ _ _).perform
        exact hkeeps.mono (fun _ h => h) (fun _ _ h => ⟨h.1, .inl h.2⟩) (fun _ _ h => h) w hw
      | none =>
        refine Ensures.perform (Ensures.step (fun w row w' hw h => ?_) fun _ _ hw _ => hw.1.1)
          (fun _ hw => hw.1.1) (fun _ hw => hw.1.1)
        obtain ⟨⟨hfit, hget, hnote⟩, hnone⟩ := hw
        obtain ⟨⟨t', row'⟩, hbind, heq⟩ := map_eq_ok.1 h
        cases heq
        obtain ⟨found, hfound, hok⟩ := bind_eq_ok.1 hbind
        obtain ⟨hget', -⟩ := getSource_eq_ok.1 (mapError_eq_ok.1 hfound)
        have hsame : found = source := mem_unique hget' hget
        rw [hsame] at hok
        split_ifs at hok
        rw [← hnone] at hok
        obtain ⟨-, -, -, howner⟩ := insertObject_eq_ok hok
        have hwrites : WritesNote env fate (env.sourcePath source.id newObjectId) := by
          rcases hnote with ⟨o, ho, hactive, hsource⟩ | hwrites
          · rw [howner o ho rfl hsource] at hactive
            cases hactive
          · exact hwrites
        exact ⟨hfit.1.setObjects (registryKept_of_insertObject hok),
          .inr ⟨hfit.2.insertObject hok, hwrites⟩⟩
    · refine Ensures.bind (keepsFit_writeSourceNote source _ note) fun _ => ?_
      refine KeepsFit.bind (KeepsFit.perform ((NotesStay.ledger _).fit (Keeps.ledger ?_)))
        fun _ => keepsFit_effect .recordSuccess
      exact fun _ _ _ h => carries_of_completeSource h

section

variable (hinj : Set.InjOn env.sha256 contents)
include hinj

theorem keepsFit_ingestPending (source : KnowledgeSourceRow) {bytes : Bytes}
    (hbytes : bytes ∈ contents) (contentType : String) (newBlobId newObjectId : Uuid) :
    Ensures (fun w => World.Fit env contents w ∧
        (HasNote source.id w.objects ∨ WritesNote env fate (env.sourcePath source.id newObjectId)))
      (ingestPending env fate source bytes contentType newBlobId newObjectId)
      (fun _ => World.Fit env contents) (fun _ => World.Fit env contents) := by
  -- what the requests on ledger and blobs leave alone
  let R : World → Prop := fun w => w.InStep ∧
    (HasNote source.id w.objects ∨ WritesNote env fate (env.sourcePath source.id newObjectId))
  have hR : ∀ w w' : World, w'.objects = w.objects → w'.notes = w.notes → R w → R w' := by
    rintro w w' hobjects hnotes ⟨hstep, hnote⟩
    exact ⟨hstep.of_stay hobjects hnotes, hobjects ▸ hnote⟩
  have hstay : NotesStay (putBlob env fate newBlobId bytes) := notesStay_putBlob env newBlobId bytes
  have hput := hstay.frame (ensures_putBlob newBlobId hbytes) hR
  unfold ingestPending
  refine Ensures.bind (Q := fun blob w => (w.Sound env contents ∧ PutDone env bytes blob w) ∧ R w)
    (Ensures.handle (hput.mono (fun _ h => ⟨h.1.1, h.1.2, h.2⟩) (fun _ _ h => h)
      fun _ _ h => ⟨h.1, h.2.1⟩) fun e => keepsFit_persistFailure source false e _) fun blob => ?_
  refine Ensures.bind (Ensures.perform ((NotesStay.ledger _).frame
    (ensures_attach hinj hbytes contentType blob) hR |>.mono (fun _ h => h) (fun _ _ h => h)
      fun _ _ h => ⟨h.1, h.2.1⟩) (fun _ hw => ⟨hw.1.1, hw.2.1⟩) (fun _ hw => ⟨hw.1.1, hw.2.1⟩))
    fun source' => ?_
  refine Ensures.bind (ensures_effect fun _ _ w hw => ⟨hw.1.1, hw.2.1⟩) fun _ => ?_
  split
  · exact (keepsFit_persistFailure _ _ _ _).mono (fun _ h => ⟨h.1.1, h.2.1⟩) (fun _ _ h => h)
      fun _ _ h => h
  · rintro w ⟨⟨hsound, hget, hid⟩, hstep, hnote⟩
    rw [← hid] at hnote
    exact keepsFit_materialize source' contentType blob.contentHash _ newObjectId w
      ⟨⟨hsound, hstep⟩, hget, hnote⟩

theorem keepsFit_ingestFetched (source : KnowledgeSourceRow)
    {fetched : Fetched} (hfetched : FetchedWithin contents fetched) (newBlobId newObjectId : Uuid) :
    Ensures (fun w => World.Fit env contents w ∧
        (HasNote source.id w.objects ∨ WritesNote env fate (env.sourcePath source.id newObjectId)))
      (ingestFetched env fate source fetched newBlobId newObjectId)
      (fun _ => World.Fit env contents) (fun _ => World.Fit env contents) := by
  unfold ingestFetched
  refine Ensures.bind (Q := fun response w => (World.Fit env contents w ∧
    (HasNote source.id w.objects ∨ WritesNote env fate (env.sourcePath source.id newObjectId))) ∧
      response.1 ∈ contents) (Ensures.handle (F := fun _ => World.Fit env contents) ?_ fun e =>
    keepsFit_persistFailure source false e _) fun response => ?_
  · exact Ensures.perform (Ensures.lift (fun response w h hw => ⟨hw, hfetched response h⟩)
      fun _ _ _ hw => hw.1) (fun _ hw => hw.1) (fun _ hw => hw.1)
  · exact fun w hw => keepsFit_ingestPending hinj source hw.2 response.2 newBlobId
      newObjectId w hw.1

theorem keepsFit_retrySource (sourceId : Uuid)
    (expectedRevision : ℕ) {fetched : Fetched} (hfetched : FetchedWithin contents fetched)
    (newBlobId newObjectId : Uuid) : Ensures (fun w => World.Fit env contents w ∧
        (HasNote sourceId w.objects ∨ WritesNote env fate (env.sourcePath sourceId newObjectId)))
      (retrySource env fate sourceId expectedRevision fetched newBlobId newObjectId)
      (fun _ => World.Fit env contents) (fun _ => World.Fit env contents) := by
  let R : World → Prop := fun w => w.InStep ∧
    (HasNote sourceId w.objects ∨ WritesNote env fate (env.sourcePath sourceId newObjectId))
  have hR : ∀ w w' : World, w'.objects = w.objects → w'.notes = w.notes → R w → R w' := by
    rintro w w' hobjects hnotes ⟨hstep, hnote⟩
    exact ⟨hstep.of_stay hobjects hnotes, hobjects ▸ hnote⟩
  have hretry : Ensures (World.Sound env contents)
      (ledger (·.beginRetry sourceId expectedRevision))
      (fun source w => w.Sound env contents ∧ source.id = sourceId)
      (fun _ => World.Sound env contents) := by
    refine Ensures.step (fun w row w' hw h => ?_) fun _ _ hw _ => hw
    obtain ⟨⟨t', row'⟩, hmap, heq⟩ := map_eq_ok.1 h
    cases heq
    have hok := mapError_eq_ok.1 hmap
    have hadvanced := advanced_of_carries hw.store (carries_of_beginRetry hok)
    obtain ⟨old, -, hid, -, rfl⟩ := changed_of_beginRetry hok
    exact ⟨hw.setStore hadvanced trivial, hid⟩
  have hget : ∀ (source : KnowledgeSourceRow) (blobId : Uuid),
      Ensures (fun w => w.Sound env contents ∧ source.id = sourceId)
        (blobs fun s => (s.get env.sha256 blobId).map fun bytes => (bytes, s))
        (fun bytes w => (w.Sound env contents ∧ source.id = sourceId) ∧ bytes ∈ contents)
        (fun _ => World.Sound env contents) := fun source blobId => by
    refine Ensures.blobs (fun w bytes s' hw h => ?_) fun _ _ hw _ => hw.1
    obtain ⟨bytes', hbytes, heq⟩ := map_eq_ok.1 h
    cases heq
    exact ⟨hw, hw.1.store.mem_of_get hbytes⟩
  unfold retrySource
  refine Ensures.bind (Q := fun source w => (w.Sound env contents ∧ source.id = sourceId) ∧ R w)
    (Ensures.perform (((NotesStay.ledger _).frame hretry hR).mono
      (fun _ h => ⟨h.1.1, h.1.2, h.2⟩) (fun _ _ h => h) fun _ _ h => ⟨h.1, h.2.1⟩)
      (fun _ hw => hw.1) (fun _ hw => hw.1)) fun source => ?_
  split
  · refine Ensures.bind
      (Q := fun bytes w => ((w.Sound env contents ∧ source.id = sourceId) ∧ bytes ∈ contents) ∧ R w)
      (Ensures.perform (((NotesStay.blobs _).frame (hget source _) hR).mono (fun _ h => h)
        (fun _ _ h => h) fun _ _ h => ⟨h.1, h.2.1⟩) (fun _ hw => ⟨hw.1.1, hw.2.1⟩)
        (fun _ hw => ⟨hw.1.1, hw.2.1⟩)) fun bytes => ?_
    split
    · exact Ensures.throw fun _ hw => ⟨hw.1.1.1, hw.2.1⟩
    · rintro w ⟨⟨⟨hsound, rfl⟩, hbytes⟩, hstep, hnote⟩
      exact keepsFit_ingestPending hinj source hbytes _ newBlobId newObjectId w
        ⟨⟨hsound, hstep⟩, hnote⟩
  · split
    · exact Ensures.throw fun _ hw => ⟨hw.1.1, hw.2.1⟩
    · rintro w ⟨⟨hsound, rfl⟩, hstep, hnote⟩
      exact keepsFit_ingestFetched hinj source hfetched newBlobId newObjectId w
        ⟨⟨hsound, hstep⟩, hnote⟩

end

theorem keepsFit_createPendingSource (sourceId newSourceId : Uuid) (createdAt : ℕ)
    (request : CreateSource) (P : Prop) :
    Ensures (fun w => World.Fit env contents w ∧ (HasNote sourceId w.objects ∨ P))
      (ledger (·.createPendingSource newSourceId createdAt request))
      (fun source w => (World.Fit env contents w ∧ (HasNote sourceId w.objects ∨ P)) ∧
        source.id = newSourceId) (fun _ => World.Fit env contents) := by
  refine Ensures.step (fun w row w' hw h => ?_) fun _ _ hw _ => hw.1
  obtain ⟨⟨t', row'⟩, hmap, heq⟩ := map_eq_ok.1 h
  cases heq
  have hok := mapError_eq_ok.1 hmap
  have hadvanced := advanced_of_carries hw.1.1.store (carries_of_createPendingSource hok)
  exact ⟨⟨⟨hw.1.1.setStore hadvanced trivial, hw.1.2.of_stay rfl rfl⟩, hw.2⟩,
    (createPendingSource_eq_ok hok).2.1⟩

theorem keepsFit_deleteSource (hcommit : fate .archiveCommit = .runs)
    (htombstone : fate .tombstone = .runs) (sourceId : Uuid) (expectedRevision : ℕ) :
    KeepsFit env contents (deleteSource env fate sourceId expectedRevision) := by
  have hnote : KeepsFit env contents (removeSourceNote env fate sourceId) := by
    unfold removeSourceNote
    refine Ensures.bind (Q := fun existing w => World.Fit env contents w ∧
      ∀ o, existing = some o → w.objects.get o.id = some o ∧ o.status = .active)
      (Ensures.perform (Ensures.query (fun w existing hw h => ?_) fun _ _ hw _ => hw)
        (fun _ hw => hw) (fun _ hw => hw)) fun existing => ?_
    · obtain ⟨found, -, hexisting⟩ := bind_eq_ok.1 h
      refine ⟨hw, fun o ho => ?_⟩
      obtain ⟨hmem, -, -, hactive⟩ := sourceObject_eq_some ((Except.ok.inj hexisting).trans ho)
      exact ⟨Table.get_eq_some.2 ⟨hmem, rfl⟩, hactive⟩
    · cases existing with
      | none => exact Ensures.pure fun _ hw => hw.1
      | some o =>
        refine Ensures.bind (Q := fun location w => (World.Fit env contents w ∧
          w.objects.get o.id = some o ∧ o.status = .active) ∧ location = o)
          (Ensures.perform (Ensures.query (fun w location hw h => ?_) fun _ _ hw _ => hw.1)
            (fun _ hw => hw.1) (fun _ hw => hw.1)) fun location => ?_
        · obtain ⟨hget, hactive⟩ := hw.2 o rfl
          obtain ⟨hlocated, -⟩ := noteLocation_eq_ok.1 h
          exact ⟨⟨hw.1, hget, hactive⟩, mem_unique hlocated hget⟩
        · refine Ensures.bind (ensures_effect fun _ _ _ hw => hw.1.1) fun _ => ?_
          rintro w ⟨⟨hw, hget, hactive⟩, rfl⟩
          exact keepsFit_removeNote hw hget hactive hcommit htombstone w rfl
  unfold deleteSource
  refine (keepsFit_query _).perform.bind fun current => ?_
  split
  · exact KeepsFit.throw _
  · split
    · refine hnote.bind fun _ => ?_
      split
      · exact KeepsFit.throw _
      · exact (notesStay_purgeSource _ _ _).fit (keeps_purgeSource _ _ _)
    · refine KeepsFit.bind (KeepsFit.perform ((NotesStay.ledger _).fit (Keeps.ledger ?_)))
        fun _ => (NotesStay.pure _).fit (Keeps.pure _)
      exact fun _ _ _ h => carries_of_deleteSource h

theorem keepsFit_purgeAll (hcommit : fate .archiveCommit = .runs)
    (htombstone : fate .tombstone = .runs) (rows : List KnowledgeSourceRow) :
    KeepsFit env contents (purgeAll env fate rows) := by
  induction rows with
  | nil => exact (NotesStay.pure _).fit (Keeps.pure _)
  | cons source rest ih => exact (keepsFit_deleteSource hcommit htombstone _ _).bind fun _ => ih

end

/-! ## Runs -/

/-- A request comes to no harm: a deletion does not stop before its tombstone, a note that is
created finds its repository, and an ingest that registers an object goes on to write its file. -/
def Call.InOrder (env : Env) (fate : Fate) (w : World) : Call → Prop
  | .createNote _ _ _ _ => fate .vaultRepository = .runs
  | .putNote _ _ _ => True
  | .deleteNote _ _ | .deleteSource _ _ | .purgeChatAttachments _ =>
    fate .archiveCommit = .runs ∧ fate .tombstone = .runs
  | .upload sourceId _ _ _ _ _ newObjectId | .capture sourceId _ _ _ _ newObjectId
  | .retry sourceId _ _ _ newObjectId =>
    HasNote sourceId w.objects ∨ WritesNote env fate (env.sourcePath sourceId newObjectId)

section

variable {env : Env} {contents : Set Bytes} {w : World} {fate : Fate}

theorem fit_request (hinj : Set.InjOn env.sha256 contents) {call : Call}
    (hfate : fate.Recovers) (hwithin : call.Within contents) (hw : World.Fit env contents w)
    (horder : call.InOrder env fate w) : World.Fit env contents (requestOf env fate call w).2 := by
  cases call with
  | createNote vaultId newId title bytes =>
    exact (keepsFit_createNote hfate horder vaultId newId title bytes).state hw
  | putNote objectId expectedRevision bytes =>
    exact (keepsFit_putNote objectId expectedRevision bytes).state hw
  | deleteNote objectId expectedRevision =>
    exact (keepsFit_deleteNote horder.1 horder.2 objectId expectedRevision).state hw
  | upload newSourceId createdAt request bytes contentType newBlobId newObjectId =>
    refine Ensures.state (Ensures.bind (Ensures.perform (keepsFit_createPendingSource newSourceId
      newSourceId createdAt request (WritesNote env fate (env.sourcePath newSourceId newObjectId)))
      (fun _ hw => hw.1) (fun _ hw => hw.1)) fun source => ?_) (s := w) ⟨hw, horder⟩
    rintro w' ⟨hw', rfl⟩
    exact keepsFit_ingestPending hinj source hwithin contentType newBlobId newObjectId w' hw'
  | capture newSourceId createdAt request fetched newBlobId newObjectId =>
    refine Ensures.state (Ensures.bind (Ensures.perform (keepsFit_createPendingSource newSourceId
      newSourceId createdAt request (WritesNote env fate (env.sourcePath newSourceId newObjectId)))
      (fun _ hw => hw.1) (fun _ hw => hw.1)) fun source => ?_) (s := w) ⟨hw, horder⟩
    rintro w' ⟨hw', rfl⟩
    exact keepsFit_ingestFetched hinj source hwithin newBlobId newObjectId w' hw'
  | retry sourceId expectedRevision fetched newBlobId newObjectId =>
    exact (keepsFit_retrySource hinj sourceId expectedRevision hwithin newBlobId
      newObjectId).state ⟨hw, horder⟩
  | deleteSource sourceId expectedRevision =>
    exact (keepsFit_deleteSource horder.1 horder.2 sourceId expectedRevision).state hw
  | purgeChatAttachments conversationId =>
    exact ((keepsFit_query _).perform.bind fun rows =>
      keepsFit_purgeAll horder.1 horder.2 _).state hw

theorem World.Fit.readNotes (hw : World.Fit env contents w) :
    ∃ notes, readNotes env w = .ok notes := by
  refine exists_mapM_of_forall fun o ho => ?_
  obtain ⟨hmem, hactive⟩ := List.mem_filter.1 ho
  have hfile := hw.2 o hmem (by simpa using hactive)
  obtain ⟨bytes, hbytes⟩ := isSome_iff_exists.1 hfile
  have hread : readNote env o.place w = (.ok bytes, w) := by
    refine query_run ?_
    rw [if_pos (hw.1.valid o.place hfile), hbytes]
  exact ⟨bytes, by rw [hread]⟩

theorem World.Fit.deleteNote_again (hw : World.Fit env contents w) {o : NoteObjectRow}
    (ho : o ∈ w.objects) (hactive : o.status = .active)
    (hcommit : fate .archiveCommit = .runs) (htombstone : fate .tombstone = .runs) {e : Failure}
    {w' : World} (h : deleteNote env fate o.id o.revision w = (.error e, w')) :
    ∃ w'', deleteNote env smooth o.id o.revision w' = (.ok (), w'') := by
  have hget : w.objects.get o.id = some o := Table.get_eq_some.2 ⟨ho, rfl⟩
  have hfile := hw.2 o ho hactive
  have hrun := ensures_deleteNote hw.1 hget hactive hfile hcommit htombstone w rfl
  rw [h] at hrun
  obtain ⟨rfl, -⟩ := hrun
  have hagain : Ensures (· = w') (deleteNote env smooth o.id o.revision)
      (fun _ w'' => w'' = w'.removed o) (fun _ _ => False) :=
    (ensures_deleteNote hw.1 hget hactive hfile rfl rfl).mono (fun _ h => h) (fun _ _ h => h)
      fun _ _ h => h.2 rfl
  obtain ⟨_, w'', hok, -⟩ := hagain.run_of_eq
  exact ⟨w'', hok⟩

theorem World.Fit.deleteSource_again (hw : World.Fit env contents w) {source : KnowledgeSourceRow}
    (hsource : source ∈ w.store.sources) (hlive : source.deleted = false)
    (hblob : source.sourceKind.purgeable = true → source.blobId ≠ none)
    (hcommit : fate .archiveCommit = .runs) (htombstone : fate .tombstone = .runs)
    (hfate : fate.Finishes) {e : Failure} {w' : World}
    (h : deleteSource env fate source.id source.revision w = (.error e, w')) :
    ∃ w'', deleteSource env smooth source.id source.revision w' = (.ok (), w'') := by
  have hget : w.store.sources.get source.id = some source := Table.get_eq_some.2 ⟨hsource, rfl⟩
  have hremovable : ∀ w₁ : World, w₁.InStep → Removable w₁ source := fun w₁ hstep hkind =>
    ⟨hblob hkind, fun o ho => hstep o (sourceObject_eq_some ho).1 (sourceObject_eq_some ho).2.2.2⟩
  have hrun := ensures_deleteSource hw.1 hget hlive (hremovable w hw.2) hcommit htombstone hfate
    w rfl
  rw [h] at hrun
  have hagain : ∀ w₁ : World, World.Fit env contents w₁ →
      w₁.store.sources.get source.id = some source →
      ∃ w'', deleteSource env smooth source.id source.revision w₁ = (.ok (), w'') := by
    intro w₁ hw₁ hget₁
    have hok : Ensures (· = w₁) (deleteSource env smooth source.id source.revision)
        (fun _ _ => True) (fun _ _ => False) :=
      (ensures_deleteSource hw₁.1 hget₁ hlive (hremovable w₁ hw₁.2) rfl rfl
        ⟨rfl, rfl, rfl, rfl, rfl⟩).mono (fun _ h => h) (fun _ _ _ => trivial) fun _ _ h => h.2 rfl
    obtain ⟨_, w'', hok, -⟩ := hok.run_of_eq
    exact ⟨w'', hok⟩
  obtain ⟨rfl | rfl, -⟩ := hrun
  · exact hagain w' hw hget
  · refine hagain _ ⟨hw.1.withoutNote, hw.2.withoutNote hw.1⟩ ?_
    rw [World.withoutNote_sources]
    exact hget

/-- Where no deletion stops between archiving a note and its tombstone, no created note before its
repository is open, and no ingest between registering an object and writing its file, every active
object has its file after every request; all notes can be read, and a failed deletion can be
repeated. -/
theorem registry_in_step (hinj : Set.InjOn env.sha256 contents) {run : List (Call × Fate)}
    (hwithin : ∀ a ∈ run, a.1.Within contents ∧ a.2.Recovers)
    (hmeets : (requestMachine env).Meets (fun w a => a.1.InOrder env a.2 w) {} run)
    (hrun : (requestMachine env).exec {} run = some w) :
    (∀ o ∈ w.objects, o.status = .active → (w.notes o.place).isSome = true) ∧
      (∃ notes, readNotes env w = .ok notes) ∧
      (∀ o ∈ w.objects, o.status = .active → ∀ fate : Fate, fate .archiveCommit = .runs →
        fate .tombstone = .runs → ∀ e w', deleteNote env fate o.id o.revision w = (.error e, w') →
          ∃ w'', deleteNote env smooth o.id o.revision w' = (.ok (), w'')) ∧
      ∀ source ∈ w.store.sources, source.deleted = false →
        (source.sourceKind.purgeable = true → source.blobId ≠ none) → ∀ fate : Fate,
          fate .archiveCommit = .runs → fate .tombstone = .runs → fate.Finishes →
          ∀ e w', deleteSource env fate source.id source.revision w = (.error e, w') →
            ∃ w'', deleteSource env smooth source.id source.revision w' = (.ok (), w'') := by
  have hfit : World.Fit env contents w := by
    refine (requestMachine env).invariant_of_meets (I := World.Fit env contents)
      (C := fun w a => a.1.InOrder env a.2 w ∧ a.1.Within contents ∧ a.2.Recovers) ?_
      ⟨world_sound_start, fun o ho => absurd ho (Table.not_mem_empty o)⟩
      (hmeets.and_forall _ hwithin) hrun
    rintro w₁ a w₂ hw₁ ⟨horder, hcontent, hfate⟩ h
    obtain rfl := some.inj h
    exact fit_request hinj hfate hcontent hw₁ horder
  exact ⟨hfit.2, hfit.readNotes,
    fun o ho hactive fate hcommit htombstone e w' h =>
      hfit.deleteNote_again ho hactive hcommit htombstone h,
    fun source hsource hlive hblob fate hcommit htombstone hfate e w' h =>
      hfit.deleteSource_again hsource hlive hblob hcommit htombstone hfate h⟩

end

/-! ## A commit that fails -/

/-- Notes and extracts are kept as they are; the paths are those of the title `a` and of a source
without a title, for ids with eight zeros at the front. -/
def sampleEnv : Env where
  sha256 := sampleSha256
  maxBytes := 16
  extract := fun bytes _ => .ok bytes
  sourceNote := fun _ _ _ _ extracted => .ok extracted
  sourcePath := fun _ _ => "notes/imported-source--00000000.md"
  notePath := fun _ _ => "notes/a--00000000.md"
  validPath := fun path => path = "notes/a--00000000.md" ∨
    path = "notes/imported-source--00000000.md"

def failing (step : Step) : Fate := fun step' => if step' = step then .fails else .runs

theorem failing_ne_dies (step step' : Step) : failing step step' ≠ .dies := by
  unfold failing
  split_ifs
  · nofun
  · nofun

def sampleRequests : List (Call × Fate) :=
  [(.createNote 9 1 "a" [97], smooth), (.deleteNote 1 1, failing .archive)]

theorem registry_in_step_sample : ∃ w, (requestMachine sampleEnv).exec {} sampleRequests = some w ∧
      ∃ notes, readNotes sampleEnv w = .ok notes := by
  have hinj : Set.InjOn sampleEnv.sha256 {[97]} := by
    rintro bytes rfl bytes' rfl -
    rfl
  have hwithin : ∀ a ∈ sampleRequests, a.1.Within {[97]} ∧ a.2.Recovers := by
    intro a ha
    rcases List.mem_cons.1 ha with rfl | ha
    · exact ⟨trivial, ⟨nofun, rfl, rfl, rfl⟩⟩
    · obtain rfl := List.mem_singleton.1 ha
      exact ⟨trivial, ⟨failing_ne_dies _, by decide, by decide, by decide⟩⟩
  have hmeets : (requestMachine sampleEnv).Meets (fun w a => a.1.InOrder sampleEnv a.2 w) {}
      sampleRequests :=
    ⟨rfl, fun _ _ => ⟨⟨by decide, by decide⟩, fun _ _ => trivial⟩⟩
  obtain ⟨w, hw⟩ : ∃ w, (requestMachine sampleEnv).exec {} sampleRequests = some w := ⟨_, rfl⟩
  exact ⟨w, hw, (registry_in_step hinj hwithin hmeets hw).2.1⟩

/-- A note is made; its file is archived by a deletion whose commit fails. -/
def strandingRequests : List (Call × Fate) :=
  [(.createNote 9 1 "a" [97], smooth), (.deleteNote 1 1, failing .archiveCommit)]

/-- The note is still active but has no file: the notes cannot be read, and the deletion cannot be
repeated. -/
theorem stranded_note : ∃ w, (requestMachine sampleEnv).exec {} strandingRequests = some w ∧
      (∃ o ∈ w.objects, o.status = .active ∧ w.notes o.place = none) ∧
      readNotes sampleEnv w = .error (.vault .io) ∧
      (deleteNote sampleEnv smooth 1 1 w).1 = .error (.vault .io) := by
  decide +kernel

end Gadgetron.Sources
