import Gadgetron.Sources.BlobRuns
import Gadgetron.Sources.Requests

/-!
# What requests keep

One after the other, requests keep the blobs, the registry and the vault sound, wherever they
stop.
-/

namespace Gadgetron.Sources

open Lib Attempt Spaces Except

/-- What holds between any two requests. -/
structure World.Sound (env : Env) (contents : Set Bytes) (w : World) : Prop where
  store : w.store.Sound env.sha256 contents
  kept : w.store.Kept
  places : ∀ o ∈ w.objects, ∀ o' ∈ w.objects, o.place = o'.place → o = o'
  owners : ∀ o ∈ w.objects, ∀ o' ∈ w.objects, o.status = .active → o'.status = .active →
    o.sourceId.isSome = true → o.sourceId = o'.sourceId → o = o'
  valid : ∀ place, (w.notes place).isSome = true → env.validPath place.2 = true

def Keeps {α : Type} (env : Env) (contents : Set Bytes) (x : Request α) : Prop :=
  Ensures (World.Sound env contents) x (fun _ => World.Sound env contents)
    (fun _ => World.Sound env contents)

section

variable {env : Env} {contents : Set Bytes} {fate : Fate} {α β : Type}

variable {E : Failure → World → Prop} {Q : α → World → Prop} {P : World → Prop}

variable {x : Request α} {step : Step}

theorem Ensures.perform (h : Ensures P x Q E)
    (hfails : ∀ w, P w → E (.broken step) w) (hdies : ∀ w, P w → E (.died step) w) :
    Ensures P (perform fate step x) Q E := by
  unfold Sources.perform
  split
  · exact h
  · exact Ensures.throw hfails
  · exact Ensures.throw hdies

theorem Ensures.perform_of (h : Ensures P x Q E) (hstop : fate step ≠ .runs → ∀ e w, P w → E e w) :
    Ensures P (Sources.perform fate step x) Q E := by
  by_cases hruns : fate step = .runs
  · unfold Sources.perform
    rw [hruns]
    exact h
  · exact Ensures.perform h (hstop hruns _) (hstop hruns _)

variable {f : World → Except Failure α} {w : World}

theorem query_run {a : α} (h : f w = .ok a) : query f w = (.ok a, w) := by
  refine step_run_ok ?_
  rw [h]
  rfl

theorem Ensures.query (hok : ∀ w a, P w → f w = .ok a → Q a w)
    (herror : ∀ w e, P w → f w = .error e → E e w) : Ensures P (query f) Q E := by
  refine Ensures.step (fun w a w' hw h => ?_) (fun w e hw h => ?_)
  · obtain ⟨b, hb, heq⟩ := map_eq_ok.1 h
    cases heq
    exact hok w a hw hb
  · exact herror w e hw (map_eq_error.1 h)

theorem Keeps.pure (a : α) : Keeps env contents (Pure.pure a) := Ensures.pure fun _ hw => hw

theorem Keeps.bind {f : α → Request β} (hx : Keeps env contents x)
    (hf : ∀ a, Keeps env contents (f a)) : Keeps env contents (x >>= f) :=
  Ensures.bind hx hf

theorem Keeps.perform (hx : Keeps env contents x) : Keeps env contents (perform fate step x) :=
  Ensures.perform hx (fun _ hw => hw) (fun _ hw => hw)

theorem Keeps.effect (step : Step) : Keeps env contents (effect fate step) :=
  Keeps.perform (Keeps.pure ())

theorem Keeps.query (f : World → Except Failure α) : Keeps env contents (query f) :=
  Ensures.query (fun _ _ hw _ => hw) (fun _ _ hw _ => hw)

/-! ### The ledger -/

theorem Keeps.ledger {f : Ledger → Except KnowledgeSpaceError (Ledger × KnowledgeSourceRow)}
    (hcarries : ∀ t t' row, f t = .ok (t', row) → t.Carries t') :
    Keeps env contents (ledger f) := by
  refine Ensures.step (fun w row w' hw h => ?_) (fun w e hw _ => hw)
  obtain ⟨⟨t', row'⟩, hok, heq⟩ := map_eq_ok.1 h
  cases heq
  have hadvanced := advanced_of_carries hw.store (hcarries _ _ _ (mapError_eq_ok.1 hok))
  exact ⟨hadvanced.sound, (hadvanced.kept hw.kept).2 trivial, hw.places, hw.owners, hw.valid⟩

/-! ### The registry -/

variable {id : Uuid}

theorem noteLocation_eq_ok {t : ObjectTable} {row : NoteObjectRow} :
    t.noteLocation id = .ok row ↔ t.get id = some row ∧ row.status = .active := by
  unfold ObjectTable.noteLocation
  split
  · next hnone => simp [hnone]
  · next found hfound =>
      rw [hfound]
      split_ifs with hactive
      · constructor
        · intro h
          cases h
          exact ⟨rfl, hactive⟩
        · rintro ⟨h, -⟩
          rw [Option.some.inj h]
      · refine iff_of_false (fun h => ?_) ?_
        · cases h
        · rintro ⟨h, hrow⟩
          exact hactive (Option.some.inj h ▸ hrow)

structure ObjectChanged (t t' : ObjectTable) (row row' : NoteObjectRow) : Prop where
  get : t.get row.id = some row
  active : row.status = .active
  id : row'.id = row.id
  place : row'.place = row.place
  sourceId : row'.sourceId = row.sourceId
  revision : row'.revision = row.revision + 1
  put : t' = t.put row'

variable {t t' : ObjectTable}

theorem ObjectChanged.mem_iff {row row' x : NoteObjectRow}
    (h : ObjectChanged t t' row row') : x ∈ t' ↔ x = row' ∨ x ∈ t ∧ x.id ≠ row.id := by
  rw [h.put, Table.mem_put (Table.mem_of_get h.get) h.id.symm, h.id]

variable {set : NoteObjectRow → NoteObjectRow} {revision : ℕ}

theorem objectChanged_of_cas {row' : NoteObjectRow} (h : t.cas id revision set = .ok (t', row')) :
    ∃ row, ObjectChanged t t' row row' ∧ row.id = id ∧ row.revision = revision ∧
      row'.status = (set row).status ∧ row'.contentHash = (set row).contentHash := by
  obtain ⟨row, hlocation, h⟩ := bind_eq_ok.1 h
  split_ifs at h with hrevision
  obtain ⟨rfl, rfl⟩ := Prod.mk.inj (ok.inj h)
  obtain ⟨hget, hactive⟩ := noteLocation_eq_ok.1 hlocation
  have hid : row.id = id := Table.key_of_get hget
  exact ⟨row, ⟨hid ▸ hget, hactive, rfl, rfl, rfl, rfl, rfl⟩, hid, hrevision, rfl, rfl⟩

def RegistryKept (t t' : ObjectTable) : Prop :=
  ((∀ o ∈ t, ∀ o' ∈ t, o.place = o'.place → o = o') →
      ∀ o ∈ t', ∀ o' ∈ t', o.place = o'.place → o = o') ∧
    ((∀ o ∈ t, ∀ o' ∈ t, o.status = .active → o'.status = .active → o.sourceId.isSome = true →
        o.sourceId = o'.sourceId → o = o') →
      ∀ o ∈ t', ∀ o' ∈ t', o.status = .active → o'.status = .active → o.sourceId.isSome = true →
        o.sourceId = o'.sourceId → o = o')

variable {row row' : NoteObjectRow}

theorem ObjectChanged.kept (h : ObjectChanged t t' row row') : RegistryKept t t' := by
  have hrow := Table.mem_of_get h.get
  constructor
  · intro hplaces o ho o' ho' hplace
    rcases h.mem_iff.1 ho with rfl | ⟨hold, hne⟩
    · rcases h.mem_iff.1 ho' with rfl | ⟨hold', hne'⟩
      · rfl
      · have hsame := hplaces row hrow o' hold' (h.place ▸ hplace)
        exact absurd (congrArg NoteObjectRow.id hsame.symm) hne'
    · rcases h.mem_iff.1 ho' with rfl | ⟨hold', -⟩
      · have hsame := hplaces o hold row hrow (h.place ▸ hplace)
        exact absurd (congrArg NoteObjectRow.id hsame) hne
      · exact hplaces o hold o' hold' hplace
  · intro howners o ho o' ho' hactive hactive' hsome hsource
    rcases h.mem_iff.1 ho with rfl | ⟨hold, hne⟩
    · rcases h.mem_iff.1 ho' with rfl | ⟨hold', hne'⟩
      · rfl
      · have hsame := howners row hrow o' hold' h.active hactive' (h.sourceId ▸ hsome)
          (h.sourceId ▸ hsource)
        exact absurd (congrArg NoteObjectRow.id hsame.symm) hne'
    · rcases h.mem_iff.1 ho' with rfl | ⟨hold', -⟩
      · have hsame := howners o hold row hrow hactive h.active hsome (h.sourceId ▸ hsource)
        exact absurd (congrArg NoteObjectRow.id hsame) hne
      · exact howners o hold o' hold' hactive hactive' hsome hsource

theorem insertObject_eq_ok (h : t.insertObject row = .ok (t', row')) :
    row' = row ∧ t.insert row = some t' ∧ (∀ o ∈ t, o.place ≠ row.place) ∧
      ∀ o ∈ t, row.sourceId.isSome = true → o.sourceId = row.sourceId → o.status = .tombstone := by
  unfold ObjectTable.insertObject at h
  split_ifs at h with htaken
  split at h
  · next t₁ hinsert =>
      obtain ⟨rfl, rfl⟩ := Prod.mk.inj (ok.inj h)
      refine ⟨rfl, hinsert, fun o ho hplace => htaken ?_, fun o ho hsome hsource => ?_⟩
      · exact List.any_eq_true.2 ⟨o, ho, by simp [hplace]⟩
      · by_contra hstatus
        exact htaken (List.any_eq_true.2 ⟨o, ho, by simp [hsome, hsource, hstatus]⟩)
  · cases h

theorem registryKept_of_insertObject
    (h : t.insertObject row = .ok (t', row')) : RegistryKept t t' := by
  obtain ⟨-, hinsert, hplace, howner⟩ := insertObject_eq_ok h
  have hmem : ∀ x, x ∈ t' ↔ x ∈ t ∨ x = row := fun x => Table.mem_insert hinsert
  constructor
  · intro hplaces o ho o' ho' heq
    rcases (hmem o).1 ho with hold | rfl
    · rcases (hmem o').1 ho' with hold' | rfl
      · exact hplaces o hold o' hold' heq
      · exact absurd heq (hplace o hold)
    · rcases (hmem o').1 ho' with hold' | rfl
      · exact absurd heq.symm (hplace o' hold')
      · rfl
  · intro howners o ho o' ho' hactive hactive' hsome hsource
    rcases (hmem o).1 ho with hold | rfl
    · rcases (hmem o').1 ho' with hold' | rfl
      · exact howners o hold o' hold' hactive hactive' hsome hsource
      · rw [howner o hold (hsource ▸ hsome) hsource] at hactive
        cases hactive
    · rcases (hmem o').1 ho' with hold' | rfl
      · rw [howner o' hold' hsome hsource.symm] at hactive'
        cases hactive'
      · rfl

theorem World.Sound.setObjects (hw : w.Sound env contents) {t' : ObjectTable}
    (hkept : RegistryKept w.objects t') : ({ w with objects := t' } : World).Sound env contents :=
  ⟨hw.store, hw.kept, hkept.1 hw.places, hkept.2 hw.owners, hw.valid⟩

theorem Keeps.registry {f : ObjectTable → Except Failure (ObjectTable × NoteObjectRow)}
    (hkept : ∀ t t' row, f t = .ok (t', row) → RegistryKept t t') :
    Keeps env contents (registry f) := by
  refine Ensures.step (fun w row w' hw h => ?_) (fun w e hw _ => hw)
  obtain ⟨⟨t', row'⟩, hok, heq⟩ := map_eq_ok.1 h
  cases heq
  exact hw.setObjects (hkept _ _ _ hok)

theorem registryKept_of_cas {row' : NoteObjectRow}
    (h : t.cas id revision set = .ok (t', row')) : RegistryKept t t' := by
  obtain ⟨row, hchanged, -⟩ := objectChanged_of_cas h
  exact hchanged.kept

/-! ### The vault -/

variable {bytes : Bytes} {place : Uuid × String}

theorem writeFile_eq_ok {w w' : World} {a : Unit} (h : (if env.validPath place.2 then
        .ok ((), { w with notes := Function.update w.notes place (some bytes) })
      else .error (.vault (.invalidNotePath place.2)) : Except Failure (Unit × World)) =
        .ok (a, w')) : env.validPath place.2 = true ∧
      w' = { w with notes := Function.update w.notes place (some bytes) } := by
  split_ifs at h with hvalid
  obtain ⟨-, rfl⟩ := Prod.mk.inj (ok.inj h)
  exact ⟨hvalid, rfl⟩

theorem Keeps.writeFile (place : Uuid × String) (bytes : Bytes) :
    Keeps env contents (writeFile env place bytes) := by
  refine Ensures.step (fun w a w' hw h => ?_) (fun w e hw _ => hw)
  obtain ⟨hvalid, rfl⟩ := writeFile_eq_ok h
  refine ⟨hw.store, hw.kept, hw.places, hw.owners, fun place' hsome => ?_⟩
  by_cases hsame : place' = place
  · rw [hsame]
    exact hvalid
  · refine hw.valid place' ?_
    rwa [show
      ({ w with notes := Function.update w.notes place (some bytes) } : World).notes place' =
        w.notes place' from Function.update_of_ne hsame _ _] at hsome

theorem archiveFile_eq_ok {w w' : World} {a : Unit} (h : (if env.validPath place.2 then
        match w.notes place with
        | some _ => .ok ((), { w with notes := Function.update w.notes place none })
        | none => .error (.vault .io)
      else .error (.vault (.invalidNotePath place.2)) : Except Failure (Unit × World)) =
        .ok (a, w')) : env.validPath place.2 = true ∧ (w.notes place).isSome = true ∧
      w' = { w with notes := Function.update w.notes place none } := by
  split_ifs at h with hvalid
  split at h
  · next bytes hbytes =>
      obtain ⟨-, rfl⟩ := Prod.mk.inj (ok.inj h)
      exact ⟨hvalid, by rw [hbytes]; rfl, rfl⟩
  · cases h

theorem Keeps.archiveFile (place : Uuid × String) : Keeps env contents (archiveFile env place) := by
  refine Ensures.step (fun w a w' hw h => ?_) (fun w e hw _ => hw)
  obtain ⟨-, -, rfl⟩ := archiveFile_eq_ok h
  refine ⟨hw.store, hw.kept, hw.places, hw.owners, fun place' hsome => ?_⟩
  have hnotes : ({ w with notes := Function.update w.notes place none } : World).notes place' =
      if place' = place then none else w.notes place' := Function.update_apply ..
  rw [hnotes] at hsome
  split_ifs at hsome
  · cases hsome
  · exact hw.valid place' hsome

theorem Keeps.archiveNote (place : Uuid × String) :
    Keeps env contents (archiveNote env fate place) :=
  (Keeps.archiveFile place).perform.bind fun _ => Keeps.effect .archiveCommit

/-! ### The blob store -/

theorem World.Sound.setStore (hw : w.Sound env contents) {s' : Store} {P : Prop}
    (h : Advanced env.sha256 contents w.store s' P) (hP : P) :
    ({ w with store := s' } : World).Sound env contents :=
  ⟨h.sound, (h.kept hw.kept).2 hP, hw.places, hw.owners, hw.valid⟩

theorem Ensures.blobs {f : Store → Except BlobError (α × Store)}
    (hok : ∀ w a s', P w → f w.store = .ok (a, s') → Q a { w with store := s' })
    (herror : ∀ w e, P w → f w.store = .error e → E (.blob e) w) : Ensures P (blobs f) Q E := by
  refine Ensures.step (fun w a w' hw h => ?_) (fun w e hw h => ?_)
  · obtain ⟨⟨b, s'⟩, hb, heq⟩ := map_eq_ok.1 h
    cases heq
    exact hok w a s' hw (mapError_eq_ok.1 hb)
  · obtain ⟨e', he', rfl⟩ := mapError_eq_error.1 (map_eq_error.1 h)
    exact herror w e' hw he'

/-- A blob that has just been put: its row is live and has the content. -/
def PutDone (env : Env) (bytes : Bytes) (blob : BlobRef) (w : World) : Prop :=
  ∃ row ∈ w.store.blobs, row.id = blob.id ∧ row.contentHash = blob.contentHash ∧
    env.sha256 bytes = row.contentHash ∧ row.deleted = false

theorem ensures_putBlob (newBlobId : Uuid) (hbytes : bytes ∈ contents) :
    Ensures (World.Sound env contents) (putBlob env fate newBlobId bytes)
      (fun blob w => w.Sound env contents ∧ PutDone env bytes blob w)
      (fun _ => World.Sound env contents) := by
  unfold putBlob
  split
  · exact Ensures.throw fun _ hw => hw
  · refine Ensures.bind
      (Q := fun found w => w.Sound env contents ∧ ∀ row, found = some row →
        row ∈ w.store.blobs ∧ row.contentHash = env.sha256 bytes ∧ row.deleted = false) ?_ ?_
    · refine Ensures.perform (Ensures.blobs (fun w found s' hw h => ?_) fun _ _ hw _ => hw)
        (fun _ hw => hw) (fun _ hw => hw)
      obtain ⟨found', hfound, heq⟩ := map_eq_ok.1 h
      cases heq
      refine ⟨hw, fun row hrow => ?_⟩
      subst hrow
      exact lookUp_eq_some hfound
    · intro found
      cases found with
      | some row =>
        refine Ensures.pure fun w ⟨hw, hfound⟩ => ⟨hw, ?_⟩
        obtain ⟨hmem, hhash, hlive⟩ := hfound row rfl
        exact ⟨row, hmem, rfl, rfl, hhash.symm, hlive⟩
      | none =>
        refine Ensures.bind
          (Q := fun _ w => w.Sound env contents ∧
            (w.store.files (env.sha256 bytes)).isSome = true) ?_ fun _ => ?_
        · refine Ensures.perform (Ensures.blobs (fun w _ s' hw h => ?_) fun _ _ hw _ => hw.1)
            (fun _ hw => hw.1) (fun _ hw => hw.1)
          obtain ⟨files, hfiles, heq⟩ := map_eq_ok.1 h
          cases heq
          exact ⟨hw.1.setStore (advanced_of_write hw.1.store hbytes hfiles) trivial,
            isSome_of_write hfiles⟩
        · refine Ensures.perform (Ensures.blobs (fun w blob s' hw h => ?_) fun _ _ hw _ => hw.1)
            (fun _ hw => hw.1) (fun _ hw => hw.1)
          split_ifs at h with hfresh
          cases h
          have hadvanced := advanced_of_upsert hw.1.store hbytes
            (show ∀ row ∈ w.store.blobs, row.id ≠ newBlobId by simpa [Table.mem_iff] using hfresh)
          have hupserted := upserted_hash env.sha256 w.store newBlobId bytes
          exact ⟨hw.1.setStore hadvanced hw.2,
            _, mem_upsertBlob.2 (.inl rfl), rfl, rfl, hupserted.1.symm, hupserted.2⟩

theorem ensures_attach (hinj : Set.InjOn env.sha256 contents) {sourceId : Uuid}
    (hbytes : bytes ∈ contents) (contentType : String) (blob : BlobRef) :
    Ensures (fun w => w.Sound env contents ∧ PutDone env bytes blob w)
      (ledger fun t => t.attachSourceBlob sourceId revision
        ⟨blob.id, contentType, bytes.length, blob.contentHash⟩)
      (fun row w => w.Sound env contents ∧ w.store.sources.get row.id = some row ∧
        row.id = sourceId) (fun _ => World.Sound env contents) := by
  refine Ensures.step (fun w row w' hw h => ?_) (fun w e hw _ => hw.1)
  obtain ⟨⟨t', row'⟩, hmap, heq⟩ := map_eq_ok.1 h
  cases heq
  have hok := mapError_eq_ok.1 hmap
  obtain ⟨hw, blobRow, hmem, hid, hhash, hcontent, hlive⟩ := hw
  refine ⟨hw.setStore (advanced_of_attach hw.store hinj hbytes
    ⟨blobRow, hmem, hid, hhash, hcontent⟩ hok) fun _ => ⟨blobRow, hmem, hid, hlive⟩, ?_⟩
  obtain ⟨old, hchanged, hold, -, -, rfl⟩ := changed_of_attachSourceBlob hok
  exact ⟨(hchanged.get_eq old.id).trans (if_pos rfl), hold⟩

theorem keeps_deleteBlob (blobId : Uuid) : Keeps env contents (deleteBlob fate blobId) := by
  unfold deleteBlob
  refine Ensures.bind (Q := fun row w => w.Sound env contents ∧ row ∈ w.store.blobs ∧
    row.id = blobId) ?_ fun row => ?_
  · refine Ensures.perform (Ensures.blobs (fun w row s' hw h => ?_) fun _ _ hw _ => hw)
      (fun _ hw => hw) (fun _ hw => hw)
    obtain ⟨row', hrow, heq⟩ := map_eq_ok.1 h
    cases heq
    obtain ⟨hmem, hid, -⟩ := Store.row_eq_ok hrow
    exact ⟨hw, hmem, hid⟩
  · refine Ensures.bind (Q := fun references w => w.Sound env contents ∧ row ∈ w.store.blobs ∧
      row.id = blobId ∧ references = w.store.sources.liveBlobReferenceCount blobId) ?_
        fun references => ?_
    · refine Ensures.perform (Ensures.blobs (fun w references s' hw h => ?_) fun _ _ hw _ => hw.1)
        (fun _ hw => hw.1) (fun _ hw => hw.1)
      cases h
      exact ⟨hw.1, hw.2.1, hw.2.2, rfl⟩
    · split
      · exact Ensures.throw fun _ hw => hw.1
      · next hzero =>
          refine Ensures.bind (Q := fun _ w => w.Sound env contents ∧
            ∀ row' ∈ w.store.blobs, row'.contentHash = row.contentHash → row'.deleted = true) ?_
              fun _ => ?_
          · refine Ensures.perform (Ensures.blobs (fun w _ s' hw h => ?_) fun _ _ hw _ => hw.1)
              (fun _ hw => hw.1) (fun _ hw => hw.1)
            cases h
            obtain ⟨hw, hmem, hid, hcount⟩ := hw
            have hnone := not_referenced_of_count (by omega : w.store.sources.liveBlobReferenceCount
              blobId = 0)
            refine ⟨hw.setStore (advanced_of_mark hw.store blobId) hnone, ?_⟩
            intro row' hrow' hhash
            obtain ⟨old, hold, rfl⟩ := mem_markDeleted.1 hrow'
            have hold' : old = row := by
              refine Table.eq_of_key hold hmem ?_
              split_ifs at hhash
              · exact hhash
              · exact hhash
            rw [if_pos (hold' ▸ hid)]
          · refine Ensures.perform (Ensures.blobs (fun w _ s' hw h => ?_) fun _ _ hw _ => hw.1)
              (fun _ hw => hw.1) (fun _ hw => hw.1)
            cases h
            exact hw.1.setStore (advanced_of_remove hw.1.store row.contentHash) hw.2

/-! ### Requests -/

theorem ensures_persistFailure (source : KnowledgeSourceRow) (needsOcr : Bool) (e : Failure)
    (Q : α → World → Prop) :
    Ensures (World.Sound env contents) (persistFailure fate source needsOcr e : Request α) Q
      (fun _ => World.Sound env contents) := by
  have hthrow : ∀ e : Failure, Ensures (World.Sound env contents) (Attempt.throw e : Request α) Q
      (fun _ => World.Sound env contents) := fun e => Ensures.throw fun _ hw => hw
  unfold persistFailure
  split
  · exact hthrow _
  · refine Ensures.bind (Keeps.effect .persistAttempt) fun _ => ?_
    refine Ensures.bind (Keeps.perform ?_) fun _ => hthrow _
    exact Keeps.ledger fun _ _ _ h => carries_of_failSource h

theorem keeps_removeNote (place : Uuid × String) (objectId : Uuid) (revision : ℕ) :
    Keeps env contents (removeNote env fate place objectId revision) :=
  (Keeps.archiveNote _).bind fun _ =>
    (Keeps.registry fun _ _ _ h => registryKept_of_cas h).perform.bind fun _ => Keeps.pure _

/-- What was fetched is one of the contents. -/
def FetchedWithin (contents : Set Bytes) (fetched : Fetched) : Prop :=
  ∀ response, fetched = .ok response → response.1 ∈ contents

theorem keeps_purgeSource (sourceId : Uuid) (expectedRevision : ℕ) (blobId : Uuid) :
    Keeps env contents (purgeSource fate sourceId expectedRevision blobId) := by
  unfold purgeSource
  refine (Keeps.ledger fun _ _ _ h => carries_of_purgePurgeableSource h).perform.bind fun _ => ?_
  refine Keeps.bind (Keeps.perform (Ensures.blobs (fun w _ s' hw h => ?_) fun _ _ hw _ => hw))
    fun references => ?_
  · cases h
    exact hw
  · split
    · exact keeps_deleteBlob blobId
    · exact Keeps.pure _

/-- The call brings in only contents of the given set. -/
def Call.Within (contents : Set Bytes) : Call → Prop
  | .upload _ _ _ bytes _ _ _ => bytes ∈ contents
  | .capture _ _ _ fetched _ _ | .retry _ _ fetched _ _ => FetchedWithin contents fetched
  | _ => True

end

/-! ## Runs -/

section

variable {env : Env} {contents : Set Bytes}

theorem world_sound_start : ({} : World).Sound env contents where
  store := sound_start.store
  kept := kept_start
  places := fun o ho => absurd ho (Table.not_mem_empty o)
  owners := fun o ho => absurd ho (Table.not_mem_empty o)
  valid := nofun

end

end Gadgetron.Sources
