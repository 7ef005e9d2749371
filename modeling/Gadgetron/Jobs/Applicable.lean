import Gadgetron.Jobs.VaultWrites

/-!
# Change sets that apply

What a materialization comes to when nothing comes in between: the operations are prepared on the
registry and the notes at hand, the notes are written in one batch and the objects are registered.
-/

namespace Gadgetron.Jobs.Materialize

open Lib Policy Spaces Knowledge List

section

variable {T : Type} (env : Env T) (objects : Table KnowledgeObjectRow.id) (files : Files)

def readExact (path : NotePath) (expectedHash : Option String) : Except String ByteArray := do
  checkNotePath env path.relativePath
  let bytes ← orFail (files path) "filesystem error: No such file or directory (os error 2)"
  ensure (expectedHash = some (env.hash bytes))
    "A target note changed in the Vault after review began"
  .ok bytes

def finishOperation (context : Context) (prepared : Prepared) : Opened → Except String Prepared
  | .done prepared => .ok prepared
  | .reads target => do
    let bytes ← readExact env files (context.path target.object.path) target.object.contentHash
    changeTarget env objects context target bytes prepared

def prepareOperation (context : Context) (prepared : Prepared) (operation : Json × ℕ) :
    Except String Prepared := do
  let opened ← openOperation env objects context operation.2 operation.1 prepared
  finishOperation env objects files context prepared opened

/-- The change set has these notes to write and objects to register. -/
def Prepares (actor : SpaceActor) (row : KnowledgeChangeSetRow) (context : Context)
    (prepared : Prepared) : Prop :=
  ∃ operations, openContext env actor row = .ok (context, operations) ∧
    operations.zipIdx.foldlM (prepareOperation env objects files context) .empty = .ok prepared

def materialized (prepared : Prepared) : List MaterializedObjectInput :=
  hashed prepared.objects (noteStates env prepared.writes "")

/-- The change set is prepared, and its batch and its objects pass their checks. -/
structure Applies (actor : SpaceActor) (row : KnowledgeChangeSetRow) (context : Context)
    (prepared : Prepared) (objects' : Table KnowledgeObjectRow.id) : Prop where
  prepares : Prepares env objects files actor row context prepared
  nonempty : prepared.writes ≠ []
  paths : checkPaths env prepared.writes = .ok ()
  valid : ∀ object ∈ materialized env prepared, validObject env.isAlphanumeric object
  registers : (materialized env prepared).foldlM
    (ChangeSetStore.writeObject actor.tenantId row.outputVaultId) objects = .ok objects'

/-- Every check on the way to applying the change set passes. -/
def Applicable (actor : SpaceActor) (row : KnowledgeChangeSetRow) : Prop :=
  ∃ context prepared objects', Applies env objects files actor row context prepared objects'

end

section

variable {T : Type} {env : Env T} {objects : Table KnowledgeObjectRow.id} {files : Files}
  {context : Context} {prepared prepared' : Prepared}

/-! ## Notes and objects that are prepared -/

/-- Every note that is written belongs to an object of its own; one that is updated is registered
under the path of its note. -/
structure Balanced (objects : Table KnowledgeObjectRow.id) (prepared : Prepared) : Prop where
  paths : prepared.writes.map (·.relativePath) = prepared.objects.map (·.path)
  ids : (prepared.objects.map (·.id)).Nodup
  touched : ∀ object ∈ prepared.objects, object.id ∈ prepared.touched
  registered : ∀ object ∈ prepared.objects, object.expectedRevision.isSome →
    ∃ row ∈ objects, row.id = object.id ∧ row.path = object.path

theorem touch_ok {id : Uuid} (h : touch prepared id = .ok prepared') :
    id ∉ prepared.touched ∧ prepared' = { prepared with touched := id :: prepared.touched } := by
  obtain ⟨⟨⟩, hnew, h⟩ := bind_eq_ok.1 h
  cases h
  exact ⟨by simpa using ensure_eq_ok.1 hnew, rfl⟩

variable {object : MaterializedObjectInput} {write : VaultNoteWrite}

theorem Balanced.push (h : Balanced objects prepared) {touched : List Uuid}
    (hnew : object.id ∉ prepared.touched)
    (htouched : ∀ id, id ∈ touched ↔ id = object.id ∨ id ∈ prepared.touched)
    (hpath : write.relativePath = object.path) (hregistered : object.expectedRevision.isSome →
      ∃ row ∈ objects, row.id = object.id ∧ row.path = object.path) :
    Balanced objects ⟨prepared.writes ++ [write], prepared.objects ++ [object], touched⟩ where
  paths := by simp [h.paths, hpath]
  ids := by
    rw [map_append, map_singleton]
    refine h.ids.append (nodup_singleton _) ?_
    intro id hid hsame
    obtain ⟨old, hold, rfl⟩ := List.mem_map.1 hid
    exact hnew (mem_singleton.1 hsame ▸ h.touched old hold)
  touched := by
    intro old hold
    rcases mem_append.1 hold with hold | hold
    · exact (htouched _).2 (.inr (h.touched old hold))
    · exact (htouched _).2 (.inl (congrArg _ (mem_singleton.1 hold)))
  registered := by
    intro old hold hsome
    rcases mem_append.1 hold with hold | hold
    · exact h.registered old hold hsome
    · obtain rfl := mem_singleton.1 hold
      exact hregistered hsome

theorem Balanced.createNote (h : Balanced objects prepared) {id : Uuid} {source : Json}
    {set : List (String × Json)}
    (hcreate : createNote env context prepared id source set = .ok prepared') :
    Balanced objects prepared' := by
  obtain ⟨p₁, htouch, title, -, h₂⟩ := bind₂_eq_ok.1 hcreate
  obtain ⟨body, -, properties, -, h₄⟩ := bind₂_eq_ok.1 h₂
  obtain ⟨properties', -, ⟨⟩, -, h₆⟩ := bind₂_eq_ok.1 h₄
  obtain ⟨bytes, -, subject, -, h₈⟩ := bind₂_eq_ok.1 h₆
  obtain ⟨hnew, rfl⟩ := touch_ok htouch
  cases h₈
  exact h.push hnew (by simp) rfl (by simp)

variable {operation : Json} {target : Target}

theorem openTarget_ok {kind : String}
    (h : openTarget env objects context operation kind prepared = .ok target) :
    target.object.id ∉ prepared.touched ∧ target.object ∈ objects := by
  obtain ⟨id, -, p, htouch, h⟩ := bind₂_eq_ok.1 h
  obtain ⟨revision, -, object, hload, h⟩ := bind₂_eq_ok.1 h
  obtain ⟨⟨⟩, -, ⟨⟩, -, h⟩ := bind₂_eq_ok.1 h
  cases h
  obtain ⟨hget, -⟩ := Option.filter_eq_some_iff.1 (orFail_eq_ok.1 hload)
  obtain ⟨hmem, rfl⟩ := Table.get_eq_some.1 hget
  exact ⟨(touch_ok htouch).1, hmem⟩

theorem Balanced.changeTarget (h : Balanced objects prepared) {bytes : ByteArray}
    (hnew : target.object.id ∉ prepared.touched) (hmem : target.object ∈ objects)
    (hchange : changeTarget env objects context target bytes prepared = .ok prepared') :
    Balanced objects prepared' := by
  obtain ⟨raw, -, note, -, h₂⟩ := bind₂_eq_ok.1 hchange
  obtain ⟨subject, -, ⟨⟩, -, h₄⟩ := bind₂_eq_ok.1 h₂
  obtain ⟨⟨⟩, -, ⟨properties, body⟩, -, h₆⟩ := bind₂_eq_ok.1 h₄
  obtain ⟨written, -, h₇⟩ := bind_eq_ok.1 h₆
  cases h₇
  exact h.push hnew (by simp) rfl fun _ => ⟨_, hmem, rfl, rfl⟩

variable {position : ℕ}

theorem Balanced.openOperation (h : Balanced objects prepared)
    (hopen : openOperation env objects context position operation prepared =
      .ok (.done prepared')) : Balanced objects prepared' := by
  obtain ⟨kind, -, hopen⟩ := bind_eq_ok.1 hopen
  split at hopen
  · obtain ⟨p, hcreate, hp⟩ := map_eq_ok.1 hopen
    cases hp
    exact h.createNote hcreate
  iterate 2
    · obtain ⟨target, -, htarget⟩ := map_eq_ok.1 hopen
      cases htarget
  · obtain ⟨p, hmerge, hp⟩ := map_eq_ok.1 hopen
    cases hp
    obtain ⟨sources, -, ⟨⟩, -, h₂⟩ := bind₂_eq_ok.1 hmerge
    obtain ⟨seen, -, h₃⟩ := bind_eq_ok.1 h₂
    exact h.createNote h₃
  · obtain ⟨p, hsplit, hp⟩ := map_eq_ok.1 hopen
    cases hp
    obtain ⟨sourceId, -, revision, -, h₂⟩ := bind₂_eq_ok.1 hsplit
    obtain ⟨source, -, ⟨⟩, -, h₄⟩ := bind₂_eq_ok.1 h₂
    obtain ⟨outputs, -, h₅⟩ := bind_eq_ok.1 h₄
    exact foldlM_invariant (fun _ _ _ hp hstep => hp.createNote hstep) h h₅
  · cases hopen

theorem openOperation_reads (hopen : openOperation env objects context position operation prepared =
      .ok (.reads target)) :
    ∃ kind, (requiredStr operation "op" = .ok kind ∧ (kind = "update_note" ∨ kind = "link")) ∧
      openTarget env objects context operation kind prepared = .ok target := by
  obtain ⟨kind, hkind, hopen⟩ := bind_eq_ok.1 hopen
  split at hopen
  · obtain ⟨p, -, hp⟩ := map_eq_ok.1 hopen
    cases hp
  · obtain ⟨target', hopen, htarget⟩ := map_eq_ok.1 hopen
    cases htarget
    exact ⟨_, ⟨hkind, .inl rfl⟩, hopen⟩
  · obtain ⟨target', hopen, htarget⟩ := map_eq_ok.1 hopen
    cases htarget
    exact ⟨_, ⟨hkind, .inr rfl⟩, hopen⟩
  iterate 2
    · obtain ⟨p, -, hp⟩ := map_eq_ok.1 hopen
      cases hp
  · cases hopen

theorem Balanced.prepareOperation (h : Balanced objects prepared) {operation : Json × ℕ}
    (hprepare : prepareOperation env objects files context prepared operation = .ok prepared') :
    Balanced objects prepared' := by
  obtain ⟨opened, hopen, hfinish⟩ := bind_eq_ok.1 hprepare
  cases opened with
  | done p =>
    cases hfinish
    exact h.openOperation hopen
  | reads target =>
    obtain ⟨bytes, -, hchange⟩ := bind_eq_ok.1 hfinish
    obtain ⟨kind, -, htarget⟩ := openOperation_reads hopen
    obtain ⟨hnew, hmem⟩ := openTarget_ok htarget
    exact h.changeTarget hnew hmem hchange

variable {row : KnowledgeChangeSetRow} {actor : SpaceActor}

theorem Prepares.balanced
    (h : Prepares env objects files actor row context prepared) : Balanced objects prepared := by
  obtain ⟨operations, -, hfold⟩ := h
  refine foldlM_invariant (fun _ _ _ hp hstep => hp.prepareOperation hstep) ?_ hfold
  exact ⟨rfl, nodup_nil, by simp [Prepared.empty], by simp [Prepared.empty]⟩

/-! ## Objects that are registered -/

theorem writeAll_of_mem {writes : List VaultNoteWrite}
    (hnodup : (writes.map (·.relativePath)).Nodup) (hwrite : write ∈ writes) (files : Files) :
    writeAll context files writes (context.path write.relativePath) = some write.bytes := by
  induction writes generalizing files with
  | nil => cases hwrite
  | cons first writes ih =>
    obtain ⟨hnew, hnodup⟩ := nodup_cons.1 hnodup
    rcases mem_cons.1 hwrite with rfl | hwrite
    · exact (congrFun (writeAll_update (path_ne hnew) files) _).trans (Function.update_self ..)
    · exact ih hnodup hwrite _

theorem Balanced.hash_of_materialized (h : Balanced objects prepared)
    (hobject : object ∈ materialized env prepared) :
    (∃ write ∈ prepared.writes, write.relativePath = object.path ∧
      object.contentHash = env.hash write.bytes) ∧ (object.expectedRevision.isSome →
      ∃ row ∈ objects, row.id = object.id ∧ row.path = object.path) := by
  obtain ⟨old, hold, rfl⟩ := List.mem_map.1 hobject
  refine ⟨?_, h.registered old hold⟩
  have hpath : old.path ∈ prepared.writes.map (·.relativePath) := by
    rw [h.paths]
    exact List.mem_map_of_mem hold
  obtain ⟨write, hwrite, hsame⟩ := List.mem_map.1 hpath
  obtain ⟨state, hstate⟩ : ∃ state, (noteStates env prepared.writes "").find?
      (fun state => state.path = old.path) = some state :=
    Option.isSome_iff_exists.1 (find?_isSome.2
      ⟨_, List.mem_map_of_mem hwrite, by simpa using hsame⟩)
  obtain ⟨found, hfound, rfl⟩ := List.mem_map.1 (mem_of_find?_eq_some hstate)
  refine ⟨found, hfound, by simpa using find?_some hstate, ?_⟩
  simp only [hstate]
  rfl

theorem Balanced.materialized_ids (h : Balanced objects prepared) :
    ((materialized env prepared).map (·.id)).Nodup := by
  have hids : (materialized env prepared).map (·.id) = prepared.objects.map (·.id) := by
    unfold materialized hashed
    rw [List.map_map]
    rfl
  rw [hids]
  exact h.ids

structure RegisteredAs (objects objects' : Table KnowledgeObjectRow.id)
    (object : MaterializedObjectInput) (row : KnowledgeObjectRow) : Prop where
  mem : row ∈ objects'
  id : row.id = object.id
  hash : row.contentHash = some object.contentHash
  inserted : object.expectedRevision = none → row.path = object.path
  updated : object.expectedRevision.isSome → ∃ old ∈ objects, old.id = row.id ∧ old.path = row.path

variable {objects' : Table KnowledgeObjectRow.id} {tenantId vaultId : Uuid}

theorem writeObject_ok
    (h : ChangeSetStore.writeObject tenantId vaultId objects object = .ok objects') :
    (∃ row, RegisteredAs objects objects' object row) ∧
      ∀ x, x.id ≠ object.id → (x ∈ objects' ↔ x ∈ objects) := by
  unfold ChangeSetStore.writeObject at h
  split at h
  · rename_i expectedRevision hexpected
    split at h
    · cases h
    · rename_i row hrow
      cases h
      obtain ⟨hmem, hid⟩ := Table.get_eq_some.1 (Option.filter_eq_some_iff.1 hrow).1
      have hput := fun x => Table.mem_put hmem (r := { row with
        contentHash := some object.contentHash
        originatingSubject := row.originatingSubject.or object.originatingSubject
        revision := row.revision + 1 }) rfl (x := x)
      refine ⟨⟨_, (hput _).2 (.inl rfl), hid, rfl, ?_, fun _ => ⟨row, hmem, rfl, rfl⟩⟩, ?_⟩
      · rw [hexpected]
        exact nofun
      · intro x hne
        rw [hput]
        constructor
        · rintro (rfl | ⟨hx, -⟩)
          · exact absurd hid hne
          · exact hx
        · exact fun hx => .inr ⟨hx, fun hsame => hne (hsame.trans hid)⟩
  · rename_i hexpected
    split_ifs at h
    split at h
    · cases h
    · rename_i objects'' hinsert
      cases h
      have hmem := fun x => Table.mem_insert hinsert (x := x)
      refine ⟨⟨_, (hmem _).2 (.inr rfl), rfl, rfl, fun _ => rfl, ?_⟩, ?_⟩
      · rw [hexpected]
        exact nofun
      · intro x hne
        rw [hmem]
        exact ⟨fun hx => hx.resolve_right fun hsame => hne (hsame ▸ rfl), .inl⟩

theorem registeredAs_of_foldlM {l : List MaterializedObjectInput}
    {objects objects' : Table KnowledgeObjectRow.id} (hids : (l.map (·.id)).Nodup)
    (h : l.foldlM (ChangeSetStore.writeObject tenantId vaultId) objects = .ok objects') :
    (∀ object ∈ l, ∃ row, RegisteredAs objects objects' object row) ∧
      ∀ x : KnowledgeObjectRow, x.id ∉ l.map (·.id) → (x ∈ objects' ↔ x ∈ objects) := by
  induction l generalizing objects with
  | nil =>
    cases h
    exact ⟨by simp, fun _ _ => Iff.rfl⟩
  | cons first l ih =>
    rw [foldlM_cons] at h
    obtain ⟨objects₁, hfirst, hrest⟩ := bind_eq_ok.1 h
    obtain ⟨hnew, hids⟩ := nodup_cons.1 hids
    obtain ⟨⟨row, hrow⟩, hframe⟩ := writeObject_ok hfirst
    obtain ⟨hothers, hframe'⟩ := ih hids hrest
    constructor
    · intro object hobject
      rcases mem_cons.1 hobject with rfl | hobject
      · -- The later objects leave this one as it was written.
        refine ⟨row, (hframe' row ?_).2 hrow.mem, hrow.id, hrow.hash, hrow.inserted, hrow.updated⟩
        rw [hrow.id]
        exact hnew
      · obtain ⟨row', hrow'⟩ := hothers object hobject
        refine ⟨row', hrow'.mem, hrow'.id, hrow'.hash, hrow'.inserted, fun hsome => ?_⟩
        obtain ⟨old, hold, hid, hpath⟩ := hrow'.updated hsome
        refine ⟨old, (hframe old ?_).1 hold, hid, hpath⟩
        rintro hsame
        refine hnew (List.mem_map.2 ⟨object, hobject, ?_⟩)
        exact hrow'.id.symm.trans (hid.symm.trans hsame)
    · intro x hx
      rw [map_cons, mem_cons, not_or] at hx
      exact (hframe' x hx.2).trans (hframe x hx.1)

theorem Applies.hashes_match (h : Applies env objects files actor row context prepared objects')
    (hobject : object ∈ materialized env prepared) :
    ∃ registered ∈ objects', registered.id = object.id ∧ ∃ bytes,
      writeAll context files prepared.writes (context.path registered.path) = some bytes ∧
        registered.contentHash = some (env.hash bytes) := by
  have hbalanced := h.prepares.balanced
  obtain ⟨⟨write, hwrite, hpath, hhash⟩, hupdated⟩ := hbalanced.hash_of_materialized hobject
  obtain ⟨registered, hregistered⟩ :=
    (registeredAs_of_foldlM hbalanced.materialized_ids h.registers).1 object hobject
  have hsame : registered.path = object.path := by
    cases hexpected : object.expectedRevision with
    | none => exact hregistered.inserted hexpected
    | some revision =>
      have hsome : object.expectedRevision.isSome := by rw [hexpected]; rfl
      obtain ⟨old, hold, hid, hpath⟩ := hregistered.updated hsome
      obtain ⟨row, hrow, hid', hpath'⟩ := hupdated hsome
      obtain rfl := Table.eq_of_key hold hrow (hid.trans (hregistered.id.trans hid'.symm))
      exact hpath.symm.trans hpath'
  refine ⟨registered, hregistered.mem, hregistered.id, write.bytes, ?_, ?_⟩
  · rw [hsame, ← hpath]
    exact writeAll_of_mem (checkPaths_nodup h.paths) hwrite files
  · rw [hregistered.hash, hhash]

/-! ## References that are still current -/

theorem refreshAll_unchanged {α : Type} {f : α → Except String (α × Bool)} {l : List α}
    (h : ∀ a ∈ l, ∃ a', f a = .ok (a', false)) : ∃ l', refreshAll f l = .ok (l', false) := by
  induction l with
  | nil => exact ⟨[], rfl⟩
  | cons a l ih =>
    obtain ⟨a', ha'⟩ := h a mem_cons_self
    obtain ⟨l', hl'⟩ := ih fun b hb => h b (mem_cons_of_mem _ hb)
    exact ⟨a' :: l', bind_eq_ok.2 ⟨_, ha', bind_eq_ok.2 ⟨_, hl', rfl⟩⟩⟩

theorem refreshExpectedRevision_unchanged {tenantId vaultId id : Uuid} {field : String}
    {reference : Json} {revision : ℤ} {object : KnowledgeObjectRow}
    (hid : requiredUuid env reference field = .ok id)
    (hrevision : requiredI64 reference "expected_revision" = .ok revision)
    (hload : loadObject objects tenantId vaultId id = .ok object)
    (hcurrent : object.revision = revision) :
    refreshExpectedRevision env objects tenantId vaultId field reference =
      .ok (reference, false) := by
  refine bind_eq_ok.2 ⟨id, hid, bind_eq_ok.2 ⟨revision, hrevision,
    bind_eq_ok.2 ⟨object, hload, ?_⟩⟩⟩
  rw [if_pos hcurrent]

theorem openTarget_current {kind : String}
    (h : openTarget env objects context operation kind prepared = .ok target) :
    refreshExpectedRevision env objects context.actor.tenantId context.vaultId "object_id"
      operation = .ok (operation, false) := by
  obtain ⟨id, hid, p, -, h⟩ := bind₂_eq_ok.1 h
  obtain ⟨revision, hrevision, object, hload, h⟩ := bind₂_eq_ok.1 h
  obtain ⟨⟨⟩, hcurrent, h⟩ := bind_eq_ok.1 h
  exact refreshExpectedRevision_unchanged hid hrevision hload
    (of_decide_eq_true (ensure_eq_ok.1 hcurrent))

theorem mergeNotes_current
    (h : mergeNotes env objects context position operation prepared = .ok prepared') :
    ∃ sources, orFail ((Json.get "sources" operation).bind Json.asArray)
        "Change-set field sources is required" = .ok sources ∧
      ∀ source ∈ sources, refreshExpectedRevision env objects context.actor.tenantId
        context.vaultId "object_id" source = .ok (source, false) := by
  obtain ⟨references, hreferences, ⟨⟩, -, h⟩ := bind₂_eq_ok.1 h
  obtain ⟨seen, hseen, -⟩ := bind_eq_ok.1 h
  obtain ⟨sources, hsources, hmap⟩ := bind_eq_ok.1 hreferences
  refine ⟨sources, hsources, fun source hsource => ?_⟩
  have hread := exists_ok_of_mapM hmap hsource
  obtain ⟨⟨id, revision⟩, hmem, hsource⟩ := hread
  obtain ⟨id', hid, revision', hrevision, hsource⟩ := bind₂_eq_ok.1 hsource
  cases hsource
  obtain ⟨x, y, hstep⟩ := exists_step_of_foldlM hseen hmem
  obtain ⟨⟨⟩, -, object, hload, hstep⟩ := bind₂_eq_ok.1 hstep
  obtain ⟨⟨⟩, hcurrent, -⟩ := bind_eq_ok.1 hstep
  exact refreshExpectedRevision_unchanged hid hrevision hload
    (of_decide_eq_true (ensure_eq_ok.1 hcurrent))

theorem splitNote_current
    (h : splitNote env objects context position operation prepared = .ok prepared') :
    refreshExpectedRevision env objects context.actor.tenantId context.vaultId
      "source_object_id" operation = .ok (operation, false) := by
  obtain ⟨id, hid, revision, hrevision, h⟩ := bind₂_eq_ok.1 h
  obtain ⟨object, hload, h⟩ := bind_eq_ok.1 h
  obtain ⟨⟨⟩, hcurrent, -⟩ := bind_eq_ok.1 h
  exact refreshExpectedRevision_unchanged hid hrevision hload
    (of_decide_eq_true (ensure_eq_ok.1 hcurrent))

theorem refreshOperation_unchanged {opened : Opened}
    (h : openOperation env objects context position operation prepared = .ok opened) :
    ∃ operation', refreshOperation env objects context.actor.tenantId context.vaultId operation =
      .ok (operation', false) := by
  obtain ⟨kind, hkind, h⟩ := bind_eq_ok.1 h
  split at h
  · exact ⟨_, bind_eq_ok.2 ⟨_, hkind, rfl⟩⟩
  iterate 2
    · obtain ⟨target, htarget, -⟩ := map_eq_ok.1 h
      exact ⟨_, bind_eq_ok.2 ⟨_, hkind, openTarget_current htarget⟩⟩
  · obtain ⟨p, hmerge, -⟩ := map_eq_ok.1 h
    obtain ⟨sources, hsources, hcurrent⟩ := mergeNotes_current hmerge
    obtain ⟨sources', hsources'⟩ :=
      refreshAll_unchanged fun source hsource => ⟨source, hcurrent source hsource⟩
    exact ⟨_, bind_eq_ok.2 ⟨_, hkind, bind_eq_ok.2 ⟨_, hsources, bind_eq_ok.2 ⟨_, hsources', rfl⟩⟩⟩⟩
  · obtain ⟨p, hsplit, -⟩ := map_eq_ok.1 h
    exact ⟨_, bind_eq_ok.2 ⟨_, hkind, splitNote_current hsplit⟩⟩
  · cases h

theorem openContext_eq {operations : List Json}
    (h : openContext env actor row = .ok (context, operations)) : ∃ homeBundleId pins,
      env.homeBundle actor.tenantId row.outputVaultId row.spaceId = .ok homeBundleId ∧
      context = ⟨actor, row.id, row.spaceId, row.outputVaultId, homeBundleId, pins⟩ ∧
      Json.asArray row.operations = some operations := by
  obtain ⟨homeBundleId, hbundle, operations', hoperations, h⟩ := bind₂_eq_ok.1 h
  obtain ⟨pins, -, ⟨⟩, -, h⟩ := bind₂_eq_ok.1 h
  obtain ⟨⟨⟩, -, h⟩ := bind_eq_ok.1 h
  cases h
  exact ⟨homeBundleId, pins, hbundle, rfl, orFail_eq_ok.1 hoperations⟩

theorem Prepares.refresh_unchanged (h : Prepares env objects files actor row context prepared) :
    ∃ operations, refreshOperationRevisions env objects actor.tenantId row.outputVaultId
      row.operations = .ok (operations, false) := by
  obtain ⟨operations, hopen, hfold⟩ := h
  obtain ⟨homeBundleId, pins, -, hcontext, harray⟩ := openContext_eq hopen
  have htenant : context.actor.tenantId = actor.tenantId := by rw [hcontext]
  have hvault : context.vaultId = row.outputVaultId := by rw [hcontext]
  have hcurrent : ∀ operation ∈ operations, ∃ operation', refreshOperation env objects
      actor.tenantId row.outputVaultId operation = .ok (operation', false) := by
    intro operation hoperation
    obtain ⟨position, hmem⟩ : ∃ position, (operation, position) ∈ operations.zipIdx := by
      rw [← zipIdx_map_fst 0 operations] at hoperation
      obtain ⟨⟨operation', position⟩, hmem, rfl⟩ := List.mem_map.1 hoperation
      exact ⟨position, hmem⟩
    obtain ⟨p, p', hstep⟩ := exists_step_of_foldlM hfold hmem
    obtain ⟨opened, hopened, -⟩ := bind_eq_ok.1 hstep
    rw [← htenant, ← hvault]
    exact refreshOperation_unchanged hopened
  obtain ⟨operations', hrefresh⟩ := refreshAll_unchanged hcurrent
  refine ⟨.array operations', ?_⟩
  simp only [refreshOperationRevisions, harray, orFail, bind, Except.bind, hrefresh]

end

end Gadgetron.Jobs.Materialize
