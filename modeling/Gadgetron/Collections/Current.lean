import Gadgetron.Collections.Enqueue

/-!
# Runs of the current collection

A run is made of the row that its call has read, and is one of the collection as it stands just when
no change has come in between.
-/

namespace Gadgetron.Collections

open Lib CollectionStore List Option

variable {s s' : CollectionStore} {a : CollectionLabel} {row : KnowledgeCollectionRow}
  {collections collections' : Table KnowledgeCollectionRow.id} {changes : List Uuid}

/-- A row that `validate_collection_input` has let pass; what is archived is not active. -/
structure RowSound (row : KnowledgeCollectionRow) : Prop where
  locators : row.locators.length ≤ 100
  kept : row.status = .active → row.deletedAt = none

section

variable (change : CollectionChange) (now : ℤ) (userId : Uuid)

theorem CollectionChange.revision_set :
    (change.set now userId row).revision = row.revision + 1 := by
  cases change <;> rfl

theorem CollectionChange.id_set :
    (change.set now userId row).id = row.id := by
  cases change <;> rfl

theorem CollectionChange.tenantId_set :
    (change.set now userId row).tenantId = row.tenantId := by
  cases change <;> rfl

theorem CollectionChange.profile_set :
    (change.set now userId row).profile = row.profile := by
  cases change <;> rfl

end

variable {change : CollectionChange}

theorem RowSound.set {read : KnowledgeCollectionRow}
    (h : RowSound row) (hcheck : change.check read = .ok ()) (hadmits : change.admits row)
    (now : ℤ) (userId : Uuid) : RowSound (change.set now userId row) := by
  cases change with
  | update request =>
    simp only [CollectionChange.admits, Bool.and_eq_true, isNone_iff_eq_none] at hadmits
    obtain ⟨_, hinput, _⟩ := bind_eq_ok.1 hcheck
    exact ⟨locators_length_le hinput, fun _ => hadmits.1.2⟩
  | rebind expectedRevision digest => exact ⟨h.locators, h.kept⟩
  | archive expectedRevision => exact ⟨h.locators, nofun⟩

/-! ## What a call knows of a collection -/

/-- The row as it was, and the one there is now: the revision tells how many changes lie between
them, and without one they agree. -/
structure Tracks (collections : Table KnowledgeCollectionRow.id) (changes : List Uuid)
    (read : ReadRow) : Prop where
  bound : read.changes ≤ changes.count read.row.id
  current : ∃ row ∈ collections, row.id = read.row.id ∧ row.tenantId = read.row.tenantId ∧
    row.profile = read.row.profile ∧
    row.revision = read.row.revision + (changes.count read.row.id - read.changes : ℕ) ∧
    (changes.count read.row.id = read.changes → row.status = read.row.status ∧
      row.deletedAt = read.row.deletedAt ∧ row.locators = read.row.locators ∧
      row.packageManifestSha256 = read.row.packageManifestSha256)

theorem tracks_of_mem (hmem : row ∈ collections) :
    Tracks collections changes ⟨row, changes.count row.id⟩ :=
  ⟨le_rfl, row, hmem, rfl, rfl, rfl, by simp, fun _ => ⟨rfl, rfl, rfl, rfl⟩⟩

variable {read : ReadRow}

theorem Tracks.mono (h : Tracks collections changes read)
    (hmono : ∀ row ∈ collections, ∃ row' ∈ collections', row'.id = row.id ∧
      row'.tenantId = row.tenantId ∧ row'.profile = row.profile ∧ row'.revision = row.revision ∧
      row'.status = row.status ∧ row'.deletedAt = row.deletedAt ∧ row'.locators = row.locators ∧
      row'.packageManifestSha256 = row.packageManifestSha256) :
    Tracks collections' changes read := by
  obtain ⟨row, hrow, hid, htenant, hprofile, hrevision, hsame⟩ := h.current
  obtain ⟨row', hrow', hid', htenant', hprofile', hrevision', hstatus', hdeleted', hlocators',
    hdigest'⟩ := hmono row hrow
  refine ⟨h.bound, row', hrow', hid'.trans hid, htenant'.trans htenant, hprofile'.trans hprofile,
    hrevision'.trans hrevision, fun hcount => ?_⟩
  obtain ⟨hstatus, hdeleted, hlocators, hdigest⟩ := hsame hcount
  exact ⟨hstatus'.trans hstatus, hdeleted'.trans hdeleted, hlocators'.trans hlocators,
    hdigest'.trans hdigest⟩

theorem Tracks.set (h : Tracks collections changes read)
    (hmem : row ∈ collections) (change : CollectionChange) (now : ℤ) (userId : Uuid) :
    Tracks (collections.put (change.set now userId row)) (row.id :: changes) read := by
  obtain ⟨current, hcurrent, hid, htenant, hprofile, hrevision, hsame⟩ := h.current
  have hput := fun x => Table.mem_put hmem (change.id_set now userId).symm (x := x)
  by_cases hrow : row.id = read.row.id
  · obtain rfl := Table.eq_of_key hmem hcurrent (hrow.trans hid.symm)
    have hcount : (row.id :: changes).count read.row.id = changes.count read.row.id + 1 := by
      rw [hrow, count_cons_self]
    have hbound := h.bound
    refine ⟨by omega, _, (hput _).2 (.inl rfl), (change.id_set ..).trans hid,
      (change.tenantId_set ..).trans htenant, (change.profile_set ..).trans hprofile, ?_,
      fun hsame => ?_⟩
    · rw [change.revision_set, hrevision, hcount]
      omega
    · omega
  · have hcount : (row.id :: changes).count read.row.id = changes.count read.row.id :=
      count_cons_of_ne hrow
    refine ⟨by rw [hcount]; exact h.bound, current, (hput _).2 (.inr ⟨hcurrent, ?_⟩), hid, htenant,
      hprofile, by rw [hcount]; exact hrevision, by rw [hcount]; exact hsame⟩
    rw [change.id_set, hid]
    exact fun h => hrow h.symm

/-! ## How far a call has come -/

structure ItemsOf (locators : List CollectionLocator) (run : CollectionRunRow) : Prop where
  locators : run.locators = locators.take run.items.length
  positions : run.items.map (·.position) = List.range run.items.length

structure RunOf (read : ReadRow) (run : CollectionRunRow) : Prop where
  collection : run.collectionId = read.row.id
  tenant : run.tenantId = read.row.tenantId
  profile : run.profile = read.row.profile
  digest : run.packageManifestSha256 = read.row.packageManifestSha256
  items : ItemsOf read.row.locators run

variable {run : CollectionRunRow}

theorem RunOf.addItem {locator : CollectionLocator}
    (h : RunOf read run) (hrow : read.row.locators.length ≤ 100)
    (hlocator : read.row.locators[run.items.length]? = some locator) (id : Uuid) (now : ℤ)
    (previousSourceId : Option Uuid) :
    RunOf read (run.addItem id now locator previousSourceId) := by
  obtain ⟨hlt, hget⟩ := List.getElem?_eq_some_iff.1 hlocator
  have hlocators : run.items.map _ = read.row.locators.take run.items.length := h.items.locators
  refine ⟨h.collection, h.tenant, h.profile, h.digest, ?_, ?_⟩
  · rw [CollectionRunRow.locators, CollectionRunRow.addItem, map_append, hlocators,
      List.length_append, map_singleton, List.length_singleton,
      take_succ_eq_append_getElem hlt, hget]
  · rw [CollectionRunRow.addItem, map_append, h.items.positions, List.length_append,
      map_singleton, List.length_singleton, range_succ]
    have hposition : min run.items.length (2 ^ 31 - 1) = run.items.length := by omega
    rw [hposition]

def StageSound (read : ReadRow) (request : EnqueueCollectionRun) : EnqueueStage → Prop
  | .checked | .conflicted | .found _ | .touched _ false =>
    enqueueCheck read.row request = .ok ()
  | .inserted run => enqueueCheck read.row request = .ok () ∧ RunOf read run
  | .touched run true => enqueueCheck read.row request = .ok () ∧ RunOf read run ∧
      run.items.length = read.row.locators.length

def JobSound (collections : Table KnowledgeCollectionRow.id) (changes : List Uuid) :
    CollectionJob → Prop
  | .change seen _ change => change.check seen.row = .ok ()
  | .enqueue seen request stage =>
    (Tracks collections changes seen ∧ RowSound seen.row) ∧ StageSound seen request stage

structure CallSound (collections : Table KnowledgeCollectionRow.id) (changes : List Uuid)
    (call : CollectionCall) : Prop where
  due : ∀ read ∈ call.due, Tracks collections changes read ∧ RowSound read.row
  job : ∀ job ∈ call.job, JobSound collections changes job

structure Sound (s : CollectionStore) : Prop where
  rows : ∀ row ∈ s.collections, RowSound row
  calls : ∀ call ∈ s.calls, CallSound s.collections s.changes call

theorem sound_initial (now : ℤ) : Sound (.initial now) :=
  ⟨fun _ h => (Table.not_mem_empty _ h).elim, fun _ h => (Table.not_mem_empty _ h).elim⟩

/-! ## Steps -/

def CollectionLabel.commits : CollectionLabel → Option ℕ
  | .commit callId => some callId
  | _ => none

/-- The step commits the run that the call has made of what it read. -/
structure Committing (s : CollectionStore) (a : CollectionLabel) (read : ReadRow)
    (request : EnqueueCollectionRun) (run : CollectionRunRow) : Prop where
  commits : ∃ call ∈ s.calls, a.commits = some call.id ∧
    call.job = some (.enqueue read request (.touched run true))

/-- What a step does, as far as the collections, the identity of the runs and the calls go. -/
inductive Effect (s : CollectionStore) : CollectionLabel → CollectionStore → Prop
  | quiet (a : CollectionLabel) (s' : CollectionStore)
      (collections : s'.collections = s.collections)
      (changes : s'.changes = s.changes)
      (calls : Sound s → ∀ call ∈ s'.calls, CallSound s.collections s.changes call)
      (runs : ∀ run ∈ s'.runs, ∃ old ∈ s.runs, old.id = run.id)
      (notCommitting : ∀ read request run, ¬ Committing s a read request run) : Effect s a s'
  | create (id tenantId userId : Uuid) (request : CreateKnowledgeCollection)
      (collections : Table KnowledgeCollectionRow.id)
      (valid : validateCollectionInput request.input = .ok ())
      (inserted : s.collections.insert (.new id tenantId userId request) = some collections) :
      Effect s (.create id tenantId userId request) { s with collections }
  | change (call : CollectionCall) (read : ReadRow) (userId : Uuid) (change : CollectionChange)
      (row : KnowledgeCollectionRow) (mem : call ∈ s.calls) (rowMem : row ∈ s.collections)
      (job : call.job = some (.change read userId change)) (admitted : change.admits row) :
      Effect s (.applyChange call.id)
        { s.goOn call none with
          collections := s.collections.put (change.set s.now userId row)
          changes := row.id :: s.changes }
  | touch (call : CollectionCall) (read : ReadRow) (request : EnqueueCollectionRun)
      (run : CollectionRunRow) (mem : call ∈ s.calls)
      (job : call.job = some (.enqueue read request (.touched run false))) :
      Effect s (.commit call.id) { s.goOn call none with
        collections := s.touchCollection read request }
  | commit (call : CollectionCall) (read : ReadRow) (request : EnqueueCollectionRun)
      (run : CollectionRunRow) (runs : Table CollectionRunRow.id) (mem : call ∈ s.calls)
      (job : call.job = some (.enqueue read request (.touched run true)))
      (inserted : s.runs.insert run = some runs) :
      Effect s (.commit call.id) { s.goOn call none with
        runs
        collections := s.touchCollection read request }

theorem not_committing (h : a.commits = none) (read : ReadRow) (request : EnqueueCollectionRun)
    (run : CollectionRunRow) : ¬ Committing s a read request run := by
  rintro ⟨_, _, hcommits, -⟩
  rw [h] at hcommits
  cases hcommits

theorem Effect.ofCall {call call' : CollectionCall} (hmem : call ∈ s.calls)
    (hid : call'.id = call.id)
    (hsound : Sound s → CallSound s.collections s.changes call →
      CallSound s.collections s.changes call')
    (hnot : ∀ read request run, ¬ Committing s a read request run) :
    Effect s a { s with calls := s.calls.put call' } := by
  refine .quiet a _ rfl rfl (fun hs x hx => ?_) (fun run hrun => ⟨run, hrun, rfl⟩) hnot
  rcases (Table.mem_put hmem hid.symm).1 hx with rfl | ⟨hold, -⟩
  · exact hsound hs (hs.calls call hmem)
  · exact hs.calls x hold

variable {call : CollectionCall}

theorem Effect.ofBegin (hstep : s.begin call = some s')
    (hsound : Sound s → CallSound s.collections s.changes call)
    (hlabel : a.commits = none) : Effect s a s' := by
  obtain ⟨calls, hinsert, rfl⟩ := map_eq_some_iff.1 hstep
  refine .quiet a _ rfl rfl (fun hs x hx => ?_) (fun run hrun => ⟨run, hrun, rfl⟩)
    (not_committing hlabel)
  rcases (Table.mem_insert hinsert).1 hx with hold | rfl
  · exact hs.calls x hold
  · exact hsound hs

theorem Effect.ofSame (a : CollectionLabel) (hlabel : a.commits = none) : Effect s a s :=
  .quiet a s rfl rfl (fun hs => hs.calls) (fun run hrun => ⟨run, hrun, rfl⟩)
    (not_committing hlabel)

theorem CallSound.idle (h : CallSound collections changes call)
    (due : List ReadRow) (hdue : due ⊆ call.due) :
    CallSound collections changes { call with due, job := none } :=
  ⟨fun read hread => h.due read (hdue hread), by simp⟩

variable {request : EnqueueCollectionRun}

theorem CallSound.advance {stage : EnqueueStage} (h : CallSound collections changes call)
    (hread : Tracks collections changes read ∧ RowSound read.row)
    (hstage : StageSound read request stage) (due : List ReadRow) (hdue : due ⊆ call.due) :
    CallSound collections changes { call with due, job := some (.enqueue read request stage) } := by
  refine ⟨fun read hread => h.due read (hdue hread), ?_⟩
  rintro _ ⟨⟩
  exact ⟨hread, hstage⟩

theorem Effect.ofStage {stage stage' : EnqueueStage} (hmem : call ∈ s.calls)
    (hjob : call.job = some (.enqueue read request stage)) (hnot : a.commits = none)
    (hstage : RowSound read.row → StageSound read request stage → StageSound read request stage') :
    Effect s a (s.goOn call (some (.enqueue read request stage'))) := by
  refine .ofCall hmem rfl (fun _ hcall => ?_) (not_committing hnot)
  obtain ⟨hread, hsound⟩ := hcall.job _ hjob
  exact hcall.advance hread (hstage hread.2 hsound) _ fun _ h => h

variable {tenantId userId collectionId : Uuid} {callId : ℕ}

theorem Effect.ofReadForChange
    (h : s.readForChange callId tenantId userId collectionId change = some s') :
    Effect s (.readForChange callId tenantId userId collectionId change) s' := by
  unfold readForChange at h
  split at h
  · cases h
    exact .ofSame _ rfl
  · split at h
    · cases h
      exact .ofSame _ rfl
    · rename_i row _ hcheck
      refine .ofBegin h (fun _ => ⟨by simp, ?_⟩) rfl
      rintro _ ⟨⟩
      exact hcheck

theorem Effect.ofApplyChange (hmem : call ∈ s.calls)
    (h : s.applyChange call = some s') : Effect s (.applyChange call.id) s' := by
  unfold applyChange at h
  split at h
  · rename_i read userId change hjob
    split_ifs at h
    split at h
    · cases h
      exact .ofCall hmem rfl (fun _ hcall => hcall.idle _ fun _ h => h) (not_committing rfl)
    · rename_i row hrow
      cases h
      obtain ⟨hget, hadmits⟩ := filter_eq_some_iff.1 hrow
      exact .change call read userId change row hmem (Table.mem_of_get hget) hjob hadmits
  · cases h

theorem Effect.ofEnqueueRun
    (h : s.enqueueRun callId tenantId userId collectionId request = some s') :
    Effect s (.enqueueRun callId tenantId userId collectionId request) s' := by
  unfold enqueueRun at h
  split at h
  · cases h
    exact .ofSame _ rfl
  · rename_i row hrow
    split_ifs at h
    · cases h
      exact .ofSame _ rfl
    · split at h
      · cases h
        exact .ofSame _ rfl
      · rename_i hcheck
        refine .ofBegin h (fun hs => ⟨by simp, ?_⟩) rfl
        rintro _ ⟨⟩
        have hmem := Table.mem_of_get (filter_eq_some_iff.1 hrow).1
        exact ⟨⟨tracks_of_mem hmem, hs.rows row hmem⟩, hcheck⟩

theorem Effect.ofDueCollections {limit : ℤ}
    (h : s.begin ⟨callId, (s.dueCollections limit).map s.read, none⟩ = some s') :
    Effect s (.dueCollections callId limit) s' := by
  refine .ofBegin h (fun hs => ⟨fun read hread => ?_, by simp⟩) rfl
  obtain ⟨row, hrow, rfl⟩ := List.mem_map.1 hread
  have hmem : row ∈ s.collections := (List.mem_filter.1 (mem_sortBy.1 (mem_of_mem_take hrow))).1
  exact ⟨tracks_of_mem hmem, hs.rows row hmem⟩

section

variable (hmem : call ∈ s.calls)

include hmem

theorem Effect.ofEnqueueScheduledRun {serviceUserId : Uuid}
    {toolPolicyRevision : String} {nextScheduleAt : ℤ}
    (h : s.enqueueScheduledRun call serviceUserId toolPolicyRevision nextScheduleAt = some s') :
    Effect s (.enqueueScheduledRun call.id serviceUserId toolPolicyRevision nextScheduleAt) s' := by
  unfold enqueueScheduledRun at h
  split at h
  · rename_i read rest hjob hdue
    have hrest : rest ⊆ call.due := hdue ▸ subset_cons_self read rest
    dsimp only at h
    split at h
    · cases h
      exact .ofCall hmem rfl (fun _ hcall => hcall.idle _ hrest) (not_committing rfl)
    · rename_i hcheck
      cases h
      refine .ofCall hmem rfl (fun _ hcall => ?_) (not_committing rfl)
      refine hcall.advance (hcall.due read (hdue ▸ mem_cons_self)) ?_ _ hrest
      exact hcheck
  · cases h

theorem Effect.ofInsertRun {runId serviceUserId : Uuid}
    (h : s.insertRun call runId serviceUserId = some s') :
    Effect s (.insertRun call.id runId serviceUserId) s' := by
  unfold insertRun at h
  split at h
  · rename_i read request hjob
    split_ifs at h
    split at h
    · cases h
      exact .ofStage hmem hjob rfl fun _ h => h
    · cases h
      exact .ofStage hmem hjob rfl fun _ hcheck => ⟨hcheck, rfl, rfl, rfl, rfl, rfl, rfl⟩
  · cases h

theorem Effect.ofInsertItem {itemId : Uuid}
    (h : s.insertItem call itemId = some s') : Effect s (.insertItem call.id itemId) s' := by
  unfold insertItem at h
  split at h
  · rename_i read request run hjob
    obtain ⟨locator, hlocator, rfl⟩ := map_eq_some_iff.1 h
    refine .ofStage hmem hjob rfl fun hrow hstage => ?_
    exact ⟨hstage.1, hstage.2.addItem hrow.locators hlocator ..⟩
  · cases h

theorem Effect.ofSelectRun (h : s.selectRun call = some s') : Effect s (.selectRun call.id) s' := by
  unfold selectRun at h
  split at h
  · rename_i read request hjob
    split at h
    · cases h
      exact .ofCall hmem rfl (fun _ hcall => hcall.idle _ fun _ h => h) (not_committing rfl)
    · cases h
      exact .ofStage hmem hjob rfl fun _ h => h
  · cases h

theorem Effect.ofTouch (h : s.touch call = some s') : Effect s (.touch call.id) s' := by
  unfold CollectionStore.touch at h
  split at h
  · rename_i read request run hjob
    split_ifs at h with hblocked
    cases h
    refine .ofStage hmem hjob rfl fun _ hstage => ?_
    obtain ⟨hcheck, hrun⟩ := hstage
    -- No item is missing, and none is there too many.
    have hle : run.locators.length ≤ read.row.locators.length := by
      rw [hrun.items.locators, length_take]
      omega
    rw [CollectionRunRow.locators, List.length_map] at hle
    have hall : run.items.length = read.row.locators.length := by
      have : ¬ run.items.length < read.row.locators.length := by
        intro hlt
        simp [hlt] at hblocked
      omega
    exact ⟨hcheck, hrun, hall⟩
  · rename_i read request run hjob
    split_ifs at h
    cases h
    exact .ofStage hmem hjob rfl fun _ h => h
  · cases h

theorem Effect.ofCommit (h : s.commit call = some s') : Effect s (.commit call.id) s' := by
  unfold CollectionStore.commit at h
  split at h
  · rename_i read request run hjob
    obtain ⟨runs, hinsert, rfl⟩ := map_eq_some_iff.1 h
    exact .commit call read request run runs hmem hjob hinsert
  · rename_i read request run hjob
    cases h
    exact .touch call read request run hmem hjob
  · rename_i read request run hjob
    split_ifs at h
    cases h
    refine .ofCall hmem rfl (fun _ hcall => hcall.idle _ fun _ h => h) ?_
    rintro read' request' run' ⟨other, hother, hcommits, hjob'⟩
    obtain rfl := Table.eq_of_key hother hmem (some.inj hcommits).symm
    rw [hjob] at hjob'
    cases hjob'
  · cases h

end

theorem Effect.ofSetRun {runId : Uuid} {f : CollectionRunRow → CollectionRunRow}
    (hf : ∀ run, (f run).id = run.id) (hlabel : a.commits = none) :
    Effect s a (s.setRun runId f hf) := by
  refine .quiet a _ rfl rfl (fun hs => hs.calls) (fun run hrun => ?_) (not_committing hlabel)
  obtain ⟨old, hold, hrow⟩ := (@Table.mem_updateWhere _ _ _ _ _ _ hf _).1 hrun
  refine ⟨old, hold, ?_⟩
  split_ifs at hrow
  · rw [← hrow, hf]
  · rw [hrow]

theorem step_effect (h : collectionMachine.step s a = some s') : Effect s a s' := by
  cases a with
  | create id tenantId userId request =>
    dsimp only at h
    split at h
    · cases h
      exact .ofSame _ rfl
    · rename_i hvalid
      obtain ⟨collections, hinsert, rfl⟩ := map_eq_some_iff.1 h
      exact .create id tenantId userId request collections hvalid hinsert
  | readForChange callId tenantId userId collectionId change => exact .ofReadForChange h
  | applyChange callId =>
    obtain ⟨call, hmem, rfl, hcall⟩ := Table.bind_get_eq_some.1 h
    exact .ofApplyChange hmem hcall
  | enqueueRun callId tenantId userId collectionId request => exact .ofEnqueueRun h
  | dueCollections callId limit => exact .ofDueCollections h
  | enqueueScheduledRun callId serviceUserId toolPolicyRevision nextScheduleAt =>
    obtain ⟨call, hmem, rfl, hcall⟩ := Table.bind_get_eq_some.1 h
    exact .ofEnqueueScheduledRun hmem hcall
  | skipDue callId =>
    obtain ⟨call, hget, rfl⟩ := map_eq_some_iff.1 h
    refine .ofCall (Table.mem_of_get hget) rfl (fun _ hcall => ?_) (not_committing rfl)
    exact ⟨fun read hread => hcall.due read (mem_of_mem_tail hread), hcall.job⟩
  | insertRun callId runId serviceUserId =>
    obtain ⟨call, hmem, rfl, hcall⟩ := Table.bind_get_eq_some.1 h
    exact .ofInsertRun hmem hcall
  | insertItem callId itemId =>
    obtain ⟨call, hmem, rfl, hcall⟩ := Table.bind_get_eq_some.1 h
    exact .ofInsertItem hmem hcall
  | selectRun callId =>
    obtain ⟨call, hmem, rfl, hcall⟩ := Table.bind_get_eq_some.1 h
    exact .ofSelectRun hmem hcall
  | touch callId =>
    obtain ⟨call, hmem, rfl, hcall⟩ := Table.bind_get_eq_some.1 h
    exact .ofTouch hmem hcall
  | commit callId =>
    obtain ⟨call, hmem, rfl, hcall⟩ := Table.bind_get_eq_some.1 h
    exact .ofCommit hmem hcall
  | stop callId =>
    obtain ⟨call, hget, rfl⟩ := map_eq_some_iff.1 h
    exact .ofCall (Table.mem_of_get hget) rfl (fun _ hcall => hcall.idle _ fun _ h => h)
      (not_committing rfl)
  | setRunStatus | setItem =>
    cases h
    exact .ofSetRun _ rfl
  | tick elapsed =>
    cases h
    exact .quiet _ _ rfl rfl (fun hs => hs.calls) (fun run hrun => ⟨run, hrun, rfl⟩)
      (not_committing rfl)

/-! ## The invariant -/

theorem CallSound.mono {changes' : List Uuid} (h : CallSound collections changes call)
    (hmono : ∀ read, Tracks collections changes read → Tracks collections' changes' read) :
    CallSound collections' changes' call := by
  refine ⟨fun read hread => ⟨hmono read (h.due read hread).1, (h.due read hread).2⟩, ?_⟩
  intro job hjob
  have hold := h.job job hjob
  cases job with
  | change read userId change => exact hold
  | enqueue read request stage => exact ⟨⟨hmono read hold.1.1, hold.1.2⟩, hold.2⟩

theorem Sound.mem_goOn (h : Sound s) {call x : CollectionCall} (hmem : call ∈ s.calls)
    (hx : x ∈ (s.goOn call none).calls) : CallSound s.collections s.changes x := by
  rcases (Table.mem_put hmem (r := { call with job := none }) rfl).1 hx with rfl | ⟨hold, -⟩
  · exact (h.calls call hmem).idle call.due fun _ h => h
  · exact h.calls x hold

theorem Sound.touched (h : Sound s) (hmem : call ∈ s.calls)
    (read : ReadRow) (request : EnqueueCollectionRun) :
    (∀ row ∈ s.touchCollection read request, RowSound row) ∧ ∀ x ∈ (s.goOn call none).calls,
        CallSound (s.touchCollection read request) s.changes x := by
  constructor
  · intro row hrow
    obtain ⟨old, hold, rfl⟩ := Table.mem_updateWhere.1 hrow
    have hsound := h.rows old hold
    split_ifs
    · exact ⟨hsound.locators, hsound.kept⟩
    · exact hsound
  · intro x hx
    refine (h.mem_goOn hmem hx).mono fun read' htracks => htracks.mono fun row hrow => ?_
    refine ⟨_, Table.mem_updateWhere.2 ⟨row, hrow, rfl⟩, ?_⟩
    split_ifs <;> simp [KnowledgeCollectionRow.touch]

theorem Sound.step (h : Sound s) (heffect : Effect s a s') : Sound s' := by
  cases heffect with
  | quiet _ _ hcollections hchanges calls runs notCommitting =>
    refine ⟨fun row hrow => h.rows row (hcollections ▸ hrow), fun call hcall => ?_⟩
    rw [hcollections, hchanges]
    exact calls h call hcall
  | create id tenantId userId request collections valid inserted =>
    constructor
    · intro row hrow
      rcases (Table.mem_insert inserted).1 hrow with hold | rfl
      · exact h.rows row hold
      · exact ⟨locators_length_le valid, fun _ => rfl⟩
    · refine fun call hcall => (h.calls call hcall).mono fun read htracks => ?_
      refine htracks.mono fun row hrow => ⟨row, (Table.mem_insert inserted).2 (.inl hrow), ?_⟩
      simp
  | change call read userId change row mem rowMem job admitted =>
    have hcheck : change.check read.row = .ok () := (h.calls call mem).job _ job
    constructor
    · intro x hx
      rcases (Table.mem_put rowMem (change.id_set ..).symm).1 hx with rfl | ⟨hold, -⟩
      · exact (h.rows row rowMem).set hcheck admitted s.now userId
      · exact h.rows x hold
    · exact fun x hx => (h.mem_goOn mem hx).mono fun read htracks =>
        htracks.set rowMem change s.now userId
  | touch _ read request _ mem | commit _ read request _ _ mem =>
    exact ⟨(h.touched mem read request).1, (h.touched mem read request).2⟩

/-! ## Runs -/

/-- The run is one of the collection as it stands: of its revision and package, with the locators in
their order. -/
structure Reflects (s : CollectionStore) (run : CollectionRunRow) (expectedRevision : ℤ) :
    Prop where
  current : ∃ row ∈ s.collections, row.id = run.collectionId ∧ row.tenantId = run.tenantId ∧
    row.status = .active ∧ row.deletedAt = none ∧ row.revision = expectedRevision ∧
    run.packageManifestSha256 = row.packageManifestSha256 ∧ run.locators = row.locators ∧
    run.items.map (·.position) = List.range row.locators.length

/-- A committed run reflects the collection as it is now. -/
def CommitsReflect (s : CollectionStore) (a : CollectionLabel) : Prop :=
  ∀ s', collectionMachine.step s a = some s' → ∀ run ∈ s'.runs, (∀ old ∈ s.runs, old.id ≠ run.id) →
      ∃ read request, Committing s a read request run ∧
        Reflects s' run request.expectedCollectionRevision

/-- A run is committed while its collection is as it was read. -/
def ReadIsLast (s : CollectionStore) (a : CollectionLabel) : Prop :=
  ∀ read request run, Committing s a read request run → s.changes.count read.row.id = read.changes

theorem enqueueCheck_eq_ok (h : enqueueCheck row request = .ok ()) :
    row.revision = request.expectedCollectionRevision ∧ row.status = .active := by
  unfold enqueueCheck at h
  split_ifs at h with hconflict
  simp only [Bool.or_eq_true, decide_eq_true_eq, not_or, not_not] at hconflict
  exact hconflict

theorem reflects_iff (h : Sound s) (hmem : call ∈ s.calls)
    (hjob : call.job = some (.enqueue read request (.touched run true)))
    (hcollections : s'.collections = s.touchCollection read request) :
    Reflects s' run request.expectedCollectionRevision ↔
      s.changes.count read.row.id = read.changes := by
  obtain ⟨⟨htracks, hread⟩, hcheck, hrun, hall⟩ := (h.calls call hmem).job _ hjob
  obtain ⟨hrevision, hactive⟩ := enqueueCheck_eq_ok hcheck
  obtain ⟨current, hcurrent, hid, htenant, -, hcurrentRevision, hsame⟩ := htracks.current
  have hlocators : run.locators = read.row.locators := by
    rw [hrun.items.locators, hall, take_length]
  have hpositions : run.items.map (·.position) = List.range read.row.locators.length := by
    rw [hrun.items.positions, hall]
  have htouched : current.touch s.now request.nextScheduleAt ∈ s'.collections := by
    rw [hcollections]
    exact Table.mem_updateWhere.2 ⟨current, hcurrent, if_pos (by simp [hid, htenant])⟩
  have hbound := htracks.bound
  constructor
  · rintro ⟨row, hrow, hrowId, -, -, -, hrowRevision, -⟩
    have hrowEq : current.touch s.now request.nextScheduleAt = row :=
      Table.eq_of_key htouched hrow (hid.trans (hrun.collection.symm.trans hrowId.symm))
    have : row.revision = current.revision := by rw [← hrowEq]; rfl
    omega
  · intro hcount
    obtain ⟨hstatus, hdeleted, hcurrentLocators, hdigest⟩ := hsame hcount
    refine ⟨_, htouched, hid.trans hrun.collection.symm, htenant.trans hrun.tenant.symm,
      hstatus.trans hactive, hdeleted.trans (hread.kept hactive), ?_,
      hrun.digest.trans hdigest.symm, hlocators.trans hcurrentLocators.symm,
      hpositions.trans (congrArg _ (congrArg _ hcurrentLocators.symm))⟩
    change current.revision = _
    omega

theorem commitsReflect_iff (h : Sound s) (hstep : collectionMachine.step s a = some s') :
    CommitsReflect s a ↔ ReadIsLast s a := by
  have honly : ∀ s₁, collectionMachine.step s a = some s₁ → s₁ = s' := fun s₁ hs₁ =>
    mem_unique hs₁ hstep
  have heffect := step_effect hstep
  -- Without a run to commit there is none to be added.
  have hquiet : (∀ run ∈ s'.runs, ∃ old ∈ s.runs, old.id = run.id) →
      (∀ read request run, ¬ Committing s a read request run) →
      (CommitsReflect s a ↔ ReadIsLast s a) := by
    intro hruns hnot
    refine iff_of_true (fun s₁ hs₁ run hrun hnew => ?_) fun read request run hcommit =>
      (hnot read request run hcommit).elim
    obtain ⟨old, hold, hid⟩ := hruns run (honly s₁ hs₁ ▸ hrun)
    exact absurd hid (hnew old hold)
  cases heffect with
  | quiet _ _ hcollections hchanges calls runs notCommitting => exact hquiet runs notCommitting
  | create | change =>
    exact hquiet (fun run hrun => ⟨run, hrun, rfl⟩) (not_committing rfl)
  | touch call read request run mem job =>
    refine hquiet (fun run hrun => ⟨run, hrun, rfl⟩) ?_
    rintro read' request' run' ⟨other, hother, hcommits, hjob⟩
    obtain rfl := Table.eq_of_key hother mem (some.inj hcommits).symm
    rw [job] at hjob
    cases hjob
  | commit call read request run runs mem job inserted =>
    have hcommitting : ∀ read' request' run', Committing s (.commit call.id) read' request' run' →
        read' = read ∧ request' = request ∧ run' = run := by
      rintro read' request' run' ⟨other, hother, hcommits, hjob⟩
      obtain rfl := Table.eq_of_key hother mem (some.inj hcommits).symm
      rw [job] at hjob
      cases hjob
      exact ⟨rfl, rfl, rfl⟩
    have hreflects := @reflects_iff _
      { s.goOn call none with
        runs
        collections := s.touchCollection read request }
      read run call request h mem job rfl
    have hself : Committing s (.commit call.id) read request run := ⟨call, mem, rfl, job⟩
    have hfresh := Table.get_eq_none.1 (Table.insert_eq_some.1 inserted).1
    constructor
    · intro hcommits read' request' run' hcommit
      obtain ⟨rfl, rfl, rfl⟩ := hcommitting read' request' run' hcommit
      obtain ⟨read₂, request₂, hcommit₂, hreflect⟩ := hcommits _ hstep _
        ((Table.mem_insert inserted).2 (.inr rfl)) hfresh
      obtain ⟨rfl, rfl, -⟩ := hcommitting read₂ request₂ _ hcommit₂
      exact hreflects.1 hreflect
    · intro hlast s₁ hs₁ run' hrun' hnew
      obtain rfl := honly s₁ hs₁
      rcases (Table.mem_insert inserted).1 hrun' with hold | rfl
      · exact absurd rfl (hnew run' hold)
      · exact ⟨read, request, hself, hreflects.2 (hlast read request _ hself)⟩

/-- Along a run every run that is committed reflects its collection, if and only if no change of a
collection comes between the read of its row and the commit of a run of it. -/
theorem run_reflects_collection_iff (now : ℤ) {as : List CollectionLabel} {t : CollectionStore}
    (hrun : collectionMachine.exec (.initial now) as = some t) :
    collectionMachine.Meets ReadIsLast (.initial now) as ↔
      collectionMachine.Meets CommitsReflect (.initial now) as :=
  collectionMachine.meets_congr (fun _ _ _ hs hstep => hs.step (step_effect hstep))
    (fun _ _ _ hs hstep => (commitsReflect_iff hs hstep).symm) (sound_initial now) hrun

/-- Enough for the row of a run to have been read after the last change. -/
def readIsLast (s : CollectionStore) : CollectionLabel → Bool
  | .commit callId =>
    (s.calls.get callId).all fun call =>
      match call.job with
      | some (.enqueue seen _ _) => s.changes.count seen.row.id = seen.changes
      | _ => true
  | _ => true

theorem readIsLast_of_test (h : readIsLast s a) : ReadIsLast s a := by
  rintro read request run ⟨call, hmem, hcommits, hjob⟩
  cases a with
  | commit callId =>
    obtain rfl := some.inj hcommits
    rw [readIsLast, Table.get_eq_some.2 ⟨hmem, rfl⟩, all_some, hjob] at h
    simpa using h
  | _ => cases hcommits

def sampleLocators : List CollectionLocator :=
  [⟨"https://a.org/feed", "a", "web"⟩, ⟨"https://b.org/feed", "b", "web"⟩]

def sampleCollection : CreateKnowledgeCollection where
  profile :=
    { spaceId := 1
      outputVaultId := 2
      bundleId := "research"
      profileId := "feeds"
      connector := "https"
      sourceClasses := ["web"]
      allowedDomains := ["a.org", "b.org"]
      freshnessSeconds := 3600
      maxSources := 10
      maxBytes := 1000
      maxWallSeconds := 60
      recipeAssetId := "recipe"
      recipeSha256 := "0" }
  label := "feeds"
  topic := "news"
  schedule := none
  scheduleEnabled := false
  nextRunAt := none
  packageManifestSha256 := "1"
  locators := sampleLocators
  queries := []

def sampleRequest : EnqueueCollectionRun where
  expectedCollectionRevision := 1
  trigger := .onDemand
  requestedByUserId := 9
  onBehalfOfUserId := 9
  toolPolicyRevision := "p1"
  scheduledAt := none
  nextScheduleAt := none

def sampleRead : List CollectionLabel :=
  [.create 3 1 9 sampleCollection, .enqueueRun 1 1 9 3 sampleRequest]

def sampleTransaction : List CollectionLabel :=
  [.insertRun 1 7 8, .insertItem 1 20, .insertItem 1 21, .touch 1]

theorem run_reflects_collection_sample :
    ∃ t, collectionMachine.exec (.initial 0) (sampleRead ++ sampleTransaction ++ [.commit 1]) =
        some t ∧ t.runs.rows.map (·.locators) = [sampleLocators] ∧
      collectionMachine.Meets CommitsReflect (.initial 0)
        (sampleRead ++ sampleTransaction ++ [.commit 1]) := by
  have hrun : (collectionMachine.exec (.initial 0)
      (sampleRead ++ sampleTransaction ++ [.commit 1])).map
        (fun t => t.runs.rows.map (·.locators)) = some [sampleLocators] := by decide +kernel
  obtain ⟨t, ht, hlocators⟩ := map_eq_some_iff.1 hrun
  have htest : collectionMachine.meetsTest readIsLast (.initial 0)
      (sampleRead ++ sampleTransaction ++ [.commit 1]) := by decide +kernel
  refine ⟨t, ht, hlocators, (run_reflects_collection_iff 0 ht).1 ?_⟩
  exact collectionMachine.meets_of_meetsTest (fun _ _ => readIsLast_of_test) htest

/-- The collection is archived after its row is read, and the run is committed all the same. -/
def sampleArchived : List CollectionLabel :=
  sampleRead ++ [.readForChange 2 1 9 3 (.archive 1), .applyChange 2] ++ sampleTransaction

theorem run_of_archived_collection :
    ∃ s, collectionMachine.exec (.initial 0) sampleArchived = some s ∧
      ¬ CommitsReflect s (.commit 1) := by
  have hrun : ∃ s, collectionMachine.exec (.initial 0) sampleArchived = some s ∧
      ∃ s', collectionMachine.step s (.commit 1) = some s' ∧
        (∃ run ∈ s'.runs, ∀ old ∈ s.runs, old.id ≠ run.id) ∧
        ∀ row ∈ s'.collections, row.status = .archived := by
    decide +kernel
  obtain ⟨s, hs, s', hs', ⟨run, hmem, hnew⟩, harchived⟩ := hrun
  refine ⟨s, hs, fun hreflect => ?_⟩
  obtain ⟨read, request, -, row, hrow, -, -, hactive, -⟩ := hreflect s' hs' run hmem hnew
  have hstatus := harchived row hrow
  rw [hactive] at hstatus
  cases hstatus

end Gadgetron.Collections
