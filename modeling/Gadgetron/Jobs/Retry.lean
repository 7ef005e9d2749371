import Gadgetron.Jobs.Attempt

/-!
# Retries of failed materializations

A retry in which nothing fails applies the change set just when the change set is applicable to what
the failed attempt has left.
-/

namespace Gadgetron.Jobs.Materialize

open Lib Policy Spaces List Option Except

section

variable {T : Type} (env : Env T)

def Faultless : Label → Prop
  | .step _ _ => True
  | _ => False

/-- The change set is applied, and the registry has the hash of the file of each of its objects. -/
def AppliedAsWritten (s : World) (changeSetId : Uuid) : Prop :=
  ∃ row ∈ s.store.changeSets, row.id = changeSetId ∧ row.status = .applied ∧
    ∃ gitRevision objects homeBundleId,
      row.materializationReceipt = some (.applied gitRevision objects) ∧
      env.homeBundle row.tenantId row.outputVaultId row.spaceId = .ok homeBundleId ∧
      ∀ object ∈ objects, ∃ registered ∈ s.store.objects, registered.id = object.id ∧ ∃ bytes,
        (s.vaults row.tenantId).value ⟨row.spaceId, homeBundleId, registered.path⟩ = some bytes ∧
        registered.contentHash = some (env.hash bytes)

/-- A retry in which nothing fails comes to an end, and then the change set is applied. -/
structure RetryApplies (s : World) (actor : SpaceActor) (changeSetId : Uuid)
    (expectedRevision : ℤ) : Prop where
  ends : ∃ as t, (∀ a ∈ as, Faultless a) ∧
    (machine env).exec s (.retry actor changeSetId expectedRevision :: as) = some t ∧
    t.requests = []
  applies : ∀ as t, (∀ a ∈ as, Faultless a) →
    (machine env).exec s (.retry actor changeSetId expectedRevision :: as) = some t →
    t.requests = [] → AppliedAsWritten env t changeSetId

structure Targets (objects : Table KnowledgeObjectRow.id) (tenantId vaultId : Uuid)
    (operation : Json) (object : KnowledgeObjectRow) : Prop where
  kind : ∃ kind, requiredStr operation "op" = .ok kind ∧ (kind = "update_note" ∨ kind = "link")
  loads : ∃ id, requiredUuid env operation "object_id" = .ok id ∧
    loadObject objects tenantId vaultId id = .ok object

end

section

variable {T : Type} {env : Env T} {objects : Table KnowledgeObjectRow.id} {files : Files}
  {context : Context} {prepared prepared' : Prepared} {actor actor' : SpaceActor}
  {row : KnowledgeChangeSetRow}

/-! ## What the batch of an attempt changes -/

variable {operation : Json}

theorem Targets.unique {tenantId vaultId : Uuid} {object object' : KnowledgeObjectRow}
    (h : Targets env objects tenantId vaultId operation object)
    (h' : Targets env objects tenantId vaultId operation object') : object = object' := by
  obtain ⟨id, hid, hload⟩ := h.loads
  obtain ⟨id', hid', hload'⟩ := h'.loads
  obtain rfl := ok.inj (hid.symm.trans hid')
  exact ok.inj (hload.symm.trans hload')

theorem openOperation_targets {position : ℕ} {target : Target}
    (h : openOperation env objects context position operation prepared = .ok (.reads target)) :
    Targets env objects context.actor.tenantId context.vaultId operation target.object := by
  obtain ⟨kind, hkind, htarget⟩ := openOperation_reads h
  obtain ⟨id, hid, p, -, h⟩ := bind₂_eq_ok.1 htarget
  obtain ⟨revision, -, object, hload, h⟩ := bind₂_eq_ok.1 h
  obtain ⟨⟨⟩, -, ⟨⟩, -, h⟩ := bind₂_eq_ok.1 h
  cases h
  exact ⟨⟨kind, hkind⟩, id, hid, hload⟩

variable {object : KnowledgeObjectRow}

theorem Targets.reads {position : ℕ} {opened : Opened}
    (h : Targets env objects context.actor.tenantId context.vaultId operation object)
    (hopen : openOperation env objects context position operation prepared = .ok opened) :
    ∃ target, opened = .reads target ∧ target.object = object := by
  have hreads : ∃ target, opened = .reads target := by
    obtain ⟨kind, hkind, hcase⟩ := h.kind
    obtain ⟨kind', hkind', hopen⟩ := bind_eq_ok.1 hopen
    obtain rfl := ok.inj (hkind.symm.trans hkind')
    rcases hcase with rfl | rfl
    all_goals
      obtain ⟨target, -, rfl⟩ := map_eq_ok.1 hopen
      exact ⟨target, rfl⟩
  obtain ⟨target, rfl⟩ := hreads
  exact ⟨target, rfl, (openOperation_targets hopen).unique h⟩

theorem readExact_ok {path : NotePath} {expectedHash : Option String} {bytes : ByteArray} :
    readExact env files path expectedHash = .ok bytes ↔
      checkNotePath env path.relativePath = .ok () ∧ files path = some bytes ∧
        expectedHash = some (env.hash bytes) := by
  constructor
  · intro h
    obtain ⟨⟨⟩, hpath, bytes', hbytes, h⟩ := bind₂_eq_ok.1 h
    obtain ⟨⟨⟩, hhash, h⟩ := bind_eq_ok.1 h
    cases h
    exact ⟨hpath, orFail_eq_ok.1 hbytes, of_decide_eq_true (ensure_eq_ok.1 hhash)⟩
  · rintro ⟨hpath, hbytes, hhash⟩
    exact bind_eq_ok.2 ⟨(), hpath, bind_eq_ok.2 ⟨bytes, orFail_eq_ok.2 hbytes,
      bind_eq_ok.2 ⟨(), ensure_eq_ok.2 (decide_eq_true hhash), rfl⟩⟩⟩

structure WriteOf (env : Env T) (objects : Table KnowledgeObjectRow.id) (files : Files)
    (context : Context) (operation : Json) (object : KnowledgeObjectRow) (bytes : ByteArray)
    (write : VaultNoteWrite) : Prop where
  targets : Targets env objects context.actor.tenantId context.vaultId operation object
  path : write.relativePath = object.path
  read : write.read = some bytes
  file : files (context.path object.path) = some bytes
  hash : object.contentHash = some (env.hash bytes)

theorem prepareOperation_writes {operation : Json × ℕ}
    (h : prepareOperation env objects files context prepared operation = .ok prepared') :
    ∃ added, prepared'.writes = prepared.writes ++ added ∧
      ∀ write ∈ added, write.read = none ∨ ∃ object bytes,
        WriteOf env objects files context operation.1 object bytes write := by
  obtain ⟨opened, hopen, hfinish⟩ := bind_eq_ok.1 h
  cases opened with
  | done p =>
    cases hfinish
    obtain ⟨added, hadded, hunread⟩ := openOperation_addsUnread hopen
    exact ⟨added, hadded, fun write hwrite => .inl (hunread write hwrite)⟩
  | reads target =>
    obtain ⟨bytes, hread, hchange⟩ := bind_eq_ok.1 hfinish
    obtain ⟨-, hbytes, hhash⟩ := readExact_ok.1 hread
    obtain ⟨written, hwrites⟩ := changeTarget_writes hchange
    refine ⟨_, hwrites, fun write hwrite => .inr ⟨target.object, bytes, ?_⟩⟩
    rw [mem_singleton.1 hwrite]
    exact ⟨openOperation_targets hopen, rfl, rfl, hbytes, hhash⟩

theorem Targets.write {operation : Json × ℕ}
    (h : Targets env objects context.actor.tenantId context.vaultId operation.1 object)
    (hprepare : prepareOperation env objects files context prepared operation = .ok prepared') :
    ∃ bytes, ∃ write ∈ prepared'.writes,
      WriteOf env objects files context operation.1 object bytes write := by
  obtain ⟨opened, hopen, hfinish⟩ := bind_eq_ok.1 hprepare
  obtain ⟨target, rfl, rfl⟩ := h.reads hopen
  obtain ⟨bytes, hread, hchange⟩ := bind_eq_ok.1 hfinish
  obtain ⟨-, hbytes, hhash⟩ := readExact_ok.1 hread
  obtain ⟨written, hwrites⟩ := changeTarget_writes hchange
  refine ⟨bytes, ⟨target.object.path, written, some bytes⟩, ?_, h, rfl, rfl, hbytes, hhash⟩
  rw [hwrites]
  exact mem_append_right _ (mem_singleton_self _)

section

variable {l : List (Json × ℕ)}
  (h : l.foldlM (prepareOperation env objects files context) prepared = .ok prepared')

include h

theorem foldlM_writes : ∃ added, prepared'.writes = prepared.writes ++ added ∧
      ∀ write ∈ added, write.read = none ∨ ∃ operation ∈ l, ∃ object bytes,
        WriteOf env objects files context operation.1 object bytes write := by
  induction l generalizing prepared with
  | nil =>
    cases h
    exact ⟨[], by simp⟩
  | cons operation l ih =>
    rw [foldlM_cons] at h
    obtain ⟨p, hfirst, hrest⟩ := bind_eq_ok.1 h
    obtain ⟨added, hadded, hwrites⟩ := prepareOperation_writes hfirst
    obtain ⟨added', hadded', hwrites'⟩ := ih hrest
    refine ⟨added ++ added', by rw [hadded', hadded, List.append_assoc], fun write hwrite => ?_⟩
    rcases mem_append.1 hwrite with hwrite | hwrite
    · exact (hwrites write hwrite).imp_right fun hof => ⟨operation, mem_cons_self, hof⟩
    · refine (hwrites' write hwrite).imp_right ?_
      rintro ⟨operation', hmem, hof⟩
      exact ⟨operation', mem_cons_of_mem _ hmem, hof⟩

theorem foldlM_write {operation : Json × ℕ} (hoperation : operation ∈ l)
    {object : KnowledgeObjectRow}
    (htargets : Targets env objects context.actor.tenantId context.vaultId operation.1 object) :
    ∃ bytes, ∃ write ∈ prepared'.writes,
      WriteOf env objects files context operation.1 object bytes write := by
  induction l generalizing prepared with
  | nil => cases hoperation
  | cons first l ih =>
    rw [foldlM_cons] at h
    obtain ⟨p, hfirst, hrest⟩ := bind_eq_ok.1 h
    rcases mem_cons.1 hoperation with rfl | hoperation
    · obtain ⟨bytes, write, hwrite, hof⟩ := htargets.write hfirst
      obtain ⟨added, hadded, -⟩ := foldlM_writes hrest
      refine ⟨bytes, write, ?_, hof⟩
      rw [hadded]
      exact mem_append_left _ hwrite
    · exact ih hrest hoperation

theorem foldlM_congr {files' : Files} (hsame : ∀ operation ∈ l, ∀ object,
      Targets env objects context.actor.tenantId context.vaultId operation.1 object →
        files' (context.path object.path) = files (context.path object.path)) :
    l.foldlM (prepareOperation env objects files' context) prepared = .ok prepared' := by
  induction l generalizing prepared with
  | nil => exact h
  | cons operation l ih =>
    rw [foldlM_cons] at h ⊢
    obtain ⟨p, hfirst, hrest⟩ := bind_eq_ok.1 h
    refine bind_eq_ok.2 ⟨p, ?_,
      ih hrest fun operation' hmem => hsame operation' (mem_cons_of_mem _ hmem)⟩
    obtain ⟨opened, hopen, hfinish⟩ := bind_eq_ok.1 hfirst
    refine bind_eq_ok.2 ⟨opened, hopen, ?_⟩
    cases opened with
    | done p' => exact hfinish
    | reads target =>
      obtain ⟨bytes, hread, hchange⟩ := bind_eq_ok.1 hfinish
      obtain ⟨hpath, hbytes, hhash⟩ := readExact_ok.1 hread
      have hfile := hsame operation mem_cons_self _ (openOperation_targets hopen)
      exact bind_eq_ok.2 ⟨bytes, readExact_ok.2 ⟨hpath, hfile.trans hbytes, hhash⟩, hchange⟩

end

variable {context' : Context}

theorem Prepares.path_eq {files' : Files} (htenant : actor'.tenantId = actor.tenantId)
    (h : Prepares env objects files actor row context prepared)
    (h' : Prepares env objects files' actor' row context' prepared') :
    (∀ path, context'.path path = context.path path) ∧
      context'.actor.tenantId = context.actor.tenantId ∧ context'.vaultId = context.vaultId := by
  obtain ⟨operations, hopen, -⟩ := h
  obtain ⟨operations', hopen', -⟩ := h'
  obtain ⟨homeBundleId, pins, hbundle, hcontext, -⟩ := openContext_eq hopen
  obtain ⟨homeBundleId', pins', hbundle', hcontext', -⟩ := openContext_eq hopen'
  rw [htenant] at hbundle'
  obtain rfl := ok.inj (hbundle.symm.trans hbundle')
  rw [hcontext, hcontext']
  exact ⟨fun _ => rfl, htenant, rfl⟩

theorem Prepares.operations {files' : Files}
    (h : Prepares env objects files actor row context prepared)
    (h' : Prepares env objects files' actor' row context' prepared') :
    ∃ operations, openContext env actor' row = .ok (context', operations) ∧
      operations.zipIdx.foldlM (prepareOperation env objects files context) .empty = .ok prepared ∧
      operations.zipIdx.foldlM (prepareOperation env objects files' context') .empty =
        .ok prepared' := by
  obtain ⟨operations, hopen, hfold⟩ := h
  obtain ⟨operations', hopen', hfold'⟩ := h'
  obtain ⟨homeBundleId, pins, -, -, harray⟩ := openContext_eq hopen
  obtain ⟨homeBundleId', pins', -, -, harray'⟩ := openContext_eq hopen'
  obtain rfl := mem_unique harray harray'
  exact ⟨operations, hopen', hfold, hfold'⟩

section

variable (htenant : actor'.tenantId = actor.tenantId)
  (hprepares : Prepares env objects files actor row context prepared)
  (hpaths : checkPaths env prepared.writes = .ok ())

include htenant hprepares hpaths

theorem Applicable.same_hashes
    (h : Applicable env objects (writeAll context files prepared.writes) actor' row) :
    ∀ write ∈ prepared.writes, ∀ bytes, write.read = some bytes →
      env.hash write.bytes = env.hash bytes := by
  obtain ⟨context', prepared', objects', happlies⟩ := h
  obtain ⟨hpath, hactor, hvault⟩ := hprepares.path_eq htenant happlies.prepares
  obtain ⟨operations, -, hfold, hfold'⟩ := hprepares.operations happlies.prepares
  intro write hwrite bytes hread
  obtain ⟨added, hadded, hof⟩ := foldlM_writes hfold
  have hmem : write ∈ added := by
    rw [hadded] at hwrite
    exact hwrite
  rcases hof write hmem with hnone | ⟨operation, hoperation, object, bytes', hof⟩
  · rw [hread] at hnone
    cases hnone
  · obtain rfl := mem_unique hread hof.read
    have htargets : Targets env objects context'.actor.tenantId context'.vaultId operation.1
        object := by
      rw [hactor, hvault]
      exact hof.targets
    obtain ⟨bytes', write', -, hof'⟩ := foldlM_write hfold' hoperation htargets
    -- The retry reads what the batch has written.
    have hfile := @writeAll_of_mem context _ _ (checkPaths_nodup hpaths) hwrite files
    rw [hof.path, ← hpath, hof'.file] at hfile
    rw [← some.inj hfile]
    exact mem_unique hof'.hash hof.hash

omit hpaths in
theorem Applicable.of_same_targets {given taken : Files}
    (h : Applicable env objects given actor' row)
    (hsame : ∀ operations : List Json, operations.zipIdx.foldlM
      (prepareOperation env objects files context) .empty = .ok prepared →
        ∀ operation ∈ operations.zipIdx, ∀ object, Targets env objects context.actor.tenantId
          context.vaultId operation.1 object →
          taken (context.path object.path) = given (context.path object.path)) :
    Applicable env objects taken actor' row := by
  obtain ⟨context', prepared', objects', happlies⟩ := h
  obtain ⟨hpath, hactor, hvault⟩ := hprepares.path_eq htenant happlies.prepares
  obtain ⟨operations, hopen, hfold, hfold'⟩ := hprepares.operations happlies.prepares
  refine ⟨context', prepared', objects', ⟨operations, hopen, foldlM_congr hfold' ?_⟩,
    happlies.nonempty, happlies.paths, happlies.valid, happlies.registers⟩
  intro operation hoperation object htargets
  rw [hactor, hvault] at htargets
  rw [hpath]
  exact hsame operations hfold operation hoperation object htargets

theorem applicable_after_batch_iff
    (hsame : ∀ write ∈ prepared.writes, ∀ bytes, write.read = some bytes → write.bytes = bytes) :
    Applicable env objects (writeAll context files prepared.writes) actor' row ↔
      Applicable env objects files actor' row := by
  have hfiles {operations : List Json} (hfold : operations.zipIdx.foldlM
      (prepareOperation env objects files context) .empty = .ok prepared) {operation : Json × ℕ}
      (hoperation : operation ∈ operations.zipIdx) {object : KnowledgeObjectRow}
      (htargets : Targets env objects context.actor.tenantId context.vaultId operation.1 object) :
      writeAll context files prepared.writes (context.path object.path) =
        files (context.path object.path) := by
    obtain ⟨bytes, write, hwrite, hof⟩ := foldlM_write hfold hoperation htargets
    have hfile := @writeAll_of_mem context _ _ (checkPaths_nodup hpaths) hwrite files
    rw [hof.path, hsame write hwrite bytes hof.read] at hfile
    rw [hfile, hof.file]
  constructor
  · exact fun h => h.of_same_targets htenant hprepares
      fun _ hfold _ hoperation _ htargets => (hfiles hfold hoperation htargets).symm
  · exact fun h => h.of_same_targets htenant hprepares
      fun _ hfold _ hoperation _ htargets => hfiles hfold hoperation htargets

end

end

section

variable {T : Type} {env : Env T} {objects objects' : Table KnowledgeObjectRow.id} {files : Files}
  {context : Context} {prepared : Prepared} {actor : SpaceActor}
  {row row' : KnowledgeChangeSetRow}

/-! ## A retry that applies the change set -/

structure SameWork (row row' : KnowledgeChangeSetRow) : Prop where
  id : row'.id = row.id
  spaceId : row'.spaceId = row.spaceId
  outputVaultId : row'.outputVaultId = row.outputVaultId
  operations : row'.operations = row.operations

section

variable (h : SameWork row row')
include h

theorem SameWork.symm : SameWork row' row :=
  ⟨h.id.symm, h.spaceId.symm, h.outputVaultId.symm, h.operations.symm⟩

theorem SameWork.openContext :
    openContext env actor row' = openContext env actor row := by
  unfold Materialize.openContext
  rw [h.id, h.spaceId, h.outputVaultId, h.operations]

theorem SameWork.applies
    (happlies : Applies env objects files actor row context prepared objects') :
    Applies env objects files actor row' context prepared objects' where
  prepares := by
    obtain ⟨operations, hopen, hfold⟩ := happlies.prepares
    exact ⟨operations, h.openContext.trans hopen, hfold⟩
  nonempty := happlies.nonempty
  paths := happlies.paths
  valid := happlies.valid
  registers := by
    rw [h.outputVaultId]
    exact happlies.registers

theorem SameWork.applicable :
    Applicable env objects files actor row' ↔ Applicable env objects files actor row := by
  constructor
  · rintro ⟨context, prepared, objects', happlies⟩
    exact ⟨context, prepared, objects', h.symm.applies happlies⟩
  · rintro ⟨context, prepared, objects', happlies⟩
    exact ⟨context, prepared, objects', h.applies happlies⟩

end

end

namespace Basis

variable {T : Type} (env : Env T) (b : Basis) (store : ChangeSetStore) (vault : Vault)

abbrev refreshed (head : String) : Basis :=
  { b with row := b.row.refreshMaterializationRetry head }

inductive Retrying : Option Stage → Prop
  | snapshot (quiet : b.Quiet store vault b.row) : Retrying (some (.snapshot b.row))
  | refresh (head : String) (quiet : b.Quiet store vault b.row) :
      Retrying (some (.refresh b.row head))
  | check (head : String) (operations : Json) (targetChanged : Bool)
      (quiet : b.Quiet store vault b.row) :
      Retrying (some (.check (retryCall b.actor b.row head operations targetChanged)))
  | write (head : String) (operations : Json) (targetChanged : Bool)
      (quiet : b.Quiet store vault b.row) :
      Retrying (some (.write (retryCall b.actor b.row head operations targetChanged)))
  | materialization (head : String) {next : Option Stage}
      (phase : (b.refreshed head).Phase env store vault next) : Retrying next
  | stopped (row : KnowledgeChangeSetRow) (mem : row ∈ store.changeSets)
      (id : row.id = b.row.id) (status : row.status ≠ .applied) : Retrying none

variable {env b} {s s' : World} {next : Option Stage}

abbrev RetryAt (env : Env T) (b : Basis) (s : World) (next : Option Stage) : Prop :=
  b.Retrying env s.store (s.vaults b.actor.tenantId) next

section

variable (actor : SpaceActor) (row : KnowledgeChangeSetRow) (head : String) (operations : Json)
  (targetChanged : Bool)
include head

theorem retryCall_objects :
    (retryCall actor row head operations targetChanged).action.objects = [] := by
  cases targetChanged <;> rfl

theorem refused_retryCall (detail : String) :
    refused (retryCall actor row head operations targetChanged) detail = none := by
  cases targetChanged <;> rfl

end

section

variable (hstatus : b.row.status ≠ .applied)
include hstatus

theorem RetryAt.advance {stage : Stage}
    (h : b.RetryAt env s (some stage)) (oid : String) :
    b.RetryAt env (s.advance env ⟨b.actor, stage⟩ oid).1
      (s.advance env ⟨b.actor, stage⟩ oid).2 := by
  cases h with
  | snapshot quiet => exact .refresh _ quiet
  | refresh head quiet =>
    unfold World.advance
    dsimp only
    split
    · exact .check _ _ _ quiet
    · exact .stopped b.row quiet.mem rfl hstatus
  | check head operations targetChanged quiet =>
    unfold World.advance
    dsimp only
    split
    · exact .write _ _ _ quiet
    · rw [refused_retryCall]
      exact .stopped b.row quiet.mem rfl hstatus
  | write head operations targetChanged quiet =>
    unfold World.advance
    dsimp only
    split
    · rename_i store row hwrite
      have hid : (retryCall b.actor b.row head operations targetChanged).changeSetId =
          b.row.id := by
        cases targetChanged <;> rfl
      obtain ⟨objects, hobjects, hresult, hmem⟩ := write_result quiet.mem hid hwrite
      rw [retryCall_objects] at hobjects
      cases hobjects
      cases hresult
      cases targetChanged with
      | true => exact .stopped _ hmem rfl nofun
      | false => exact .materialization head (.beginCheck ⟨hmem, quiet.objects, quiet.files⟩)
    · rw [refused_retryCall]
      exact .stopped b.row quiet.mem rfl hstatus
  | materialization head phase => exact .materialization head (At.advance phase oid)

theorem RetryAt.exec (h : b.RetryAt env s next)
    (halone : Alone b.actor s next) {as : List Label} (has : ∀ a ∈ as, Faultless a) {t : World}
    (hrun : (machine env).exec s as = some t) :
    ∃ next', b.RetryAt env t next' ∧ Alone b.actor t next' := by
  induction as generalizing s next with
  | nil =>
    cases hrun
    exact ⟨next, h, halone⟩
  | cons a as ih =>
    obtain ⟨s', hstep, hrest⟩ := (machine env).exec_cons_eq_some.1 hrun
    have hrest' := fun b hb => has b (mem_cons_of_mem _ hb)
    cases a with
    | step index oid =>
      obtain ⟨stage, rfl, -, hstore, hvaults, halone'⟩ := halone.step hstep
      refine ih ?_ halone' hrest' hrest
      rw [RetryAt, hstore, hvaults]
      exact h.advance hstatus oid
    | _ => exact (has _ mem_cons_self).elim

theorem RetryAt.applicable (h : b.RetryAt env s none)
    (happlied : AppliedAsWritten env s b.row.id) :
    Applicable env b.objects b.files b.actor b.row := by
  obtain ⟨row, hrow, hid, happlied, -⟩ := happlied
  have hlast : ∀ row' ∈ s.store.changeSets, row'.id = b.row.id → row'.status = .applied := by
    intro row' hrow' hid'
    obtain rfl := Table.eq_of_key hrow hrow' (hid.trans hid'.symm)
    exact happlied
  cases h with
  | stopped row' mem id status => exact absurd (hlast row' mem id) status
  | materialization head phase =>
    cases phase with
    | finished ended =>
      cases ended with
      | refused quiet => exact absurd (hlast _ quiet.mem rfl) hstatus
      | stranded failed | failed _ failed => cases hlast _ failed.mem rfl
      | applied context prepared now gitRevision applies mem files =>
        have hsame : SameWork (b.row.refreshMaterializationRetry head) b.row := ⟨rfl, rfl, rfl, rfl⟩
        exact ⟨context, prepared, _, hsame.applies applies⟩

end

/-! ## A retry of an applicable change set -/

/-- What a retry of an applicable change set will come to. -/
structure Plan (env : Env T) (b : Basis) (head : String) where
  context : Context
  operations : List Json
  prepared : Prepared
  objects : Table KnowledgeObjectRow.id
  opened : openContext env b.actor b.row = .ok (context, operations)
  prepares : operations.zipIdx.foldlM (prepareOperation env b.objects b.files context) .empty =
    .ok prepared
  applies : Applies env b.objects b.files b.actor b.row context prepared objects
  short : isShort 128 head
  failed : b.row.status = .failedRetryable

/-- Nothing is written yet, the actor may change the change set, and the head that the next commit
gets is new. -/
structure Ready (b : Basis) (store : ChangeSetStore) (vault : Vault) (head oid : String)
    (row : KnowledgeChangeSetRow) : Prop extends b.Quiet store vault row where
  authorised : Authorised store.access b.actor b.row
  head : vault.version = head
  fresh : ¬ vault.Knows oid

section

variable {head oid : String} (p : Plan env b head)

structure Landed (store : ChangeSetStore) (vault : Vault) : Prop where
  mem : (b.refreshed head).begun ∈ store.changeSets
  objects : store.objects = b.objects
  files : vault.value = writeAll p.context b.files p.prepared.writes
  authorised : Authorised store.access b.actor b.row

abbrev completion (gitRevision : String) : ChangeSetCall :=
  callOn b.actor (b.refreshed head).begun
    (.completeMaterialization gitRevision (materialized env p.prepared))

variable (oid)

/-- A retry in which nothing fails, with so many steps left at most. -/
inductive Succeeding (store : ChangeSetStore) (vault : Vault) : ℕ → Option Stage → Prop
  | snapshot (ready : b.Ready store vault head oid b.row) :
      Succeeding store vault (2 * p.operations.length + 11) (some (.snapshot b.row))
  | refresh (ready : b.Ready store vault head oid b.row) :
      Succeeding store vault (2 * p.operations.length + 10) (some (.refresh b.row head))
  | retryCheck (ready : b.Ready store vault head oid b.row) :
      Succeeding store vault (2 * p.operations.length + 9)
        (some (.check (retryCall b.actor b.row head b.row.operations false)))
  | retryWrite (ready : b.Ready store vault head oid b.row) :
      Succeeding store vault (2 * p.operations.length + 8)
        (some (.write (retryCall b.actor b.row head b.row.operations false)))
  | beginCheck (ready : b.Ready store vault head oid (b.refreshed head).row) :
      Succeeding store vault (2 * p.operations.length + 7)
        (some (.check (callOn b.actor (b.refreshed head).row .beginMaterialization)))
  | beginWrite (ready : b.Ready store vault head oid (b.refreshed head).row) :
      Succeeding store vault (2 * p.operations.length + 6)
        (some (.write (callOn b.actor (b.refreshed head).row .beginMaterialization)))
  | opening (ready : b.Ready store vault head oid (b.refreshed head).begun) :
      Succeeding store vault (2 * p.operations.length + 5)
        (some (.opening (b.refreshed head).begun))
  | prepare (ready : b.Ready store vault head oid (b.refreshed head).begun)
      {rest : List (Json × ℕ)} {prepared : Prepared}
      (left : rest.foldlM (prepareOperation env b.objects b.files p.context) prepared =
        .ok p.prepared) : Succeeding store vault (2 * rest.length + 4)
        (some (.prepare (b.refreshed head).begun p.context rest prepared))
  | read (ready : b.Ready store vault head oid (b.refreshed head).begun)
      {target : Target} {rest : List (Json × ℕ)} {prepared prepared' : Prepared}
      (finished : finishOperation env b.objects b.files p.context prepared (.reads target) =
        .ok prepared')
      (left : rest.foldlM (prepareOperation env b.objects b.files p.context) prepared' =
        .ok p.prepared) : Succeeding store vault (2 * rest.length + 5)
        (some (.read (b.refreshed head).begun p.context target rest prepared))
  | batch (ready : b.Ready store vault head oid (b.refreshed head).begun) :
      Succeeding store vault 3 (some (.batch (b.refreshed head).begun p.context p.prepared))
  | completeCheck (gitRevision : String) (short : isShort 128 gitRevision)
      (landed : Landed p store vault) :
      Succeeding store vault 2 (some (.check (completion p gitRevision)))
  | completeWrite (gitRevision : String) (landed : Landed p store vault) :
      Succeeding store vault 1 (some (.write (completion p gitRevision)))
  | finished (now : ℤ) (gitRevision : String)
      (mem : (b.refreshed head).begun.completeMaterialization now gitRevision
        (materialized env p.prepared) ∈ store.changeSets)
      (objects : store.objects = p.objects)
      (files : vault.value = writeAll p.context b.files p.prepared.writes)
      (tenant : b.row.tenantId = b.actor.tenantId) : Succeeding store vault 0 none

variable {p oid}

/-- The retry is at this stage, with so many steps left at most. -/
abbrev SucceedsAt (p : Plan env b head) (oid : String) (s : World) (n : ℕ)
    (next : Option Stage) : Prop :=
  Succeeding oid p s.store (s.vaults b.actor.tenantId) n next

variable {row : KnowledgeChangeSetRow} {store : ChangeSetStore} {vault : Vault}

theorem Ready.write (h : b.Ready store vault head oid row) {call : ChangeSetCall}
    (hactor : call.actor = b.actor)
    (hid : call.changeSetId = row.id) (hrevision : call.expectedRevision = row.revision)
    (htenant : row.tenantId = b.row.tenantId) (hstatus : row.status ∈ call.action.allowed)
    (hobjects : call.action.objects = []) : store.write call = .ok (store.writeRow call row,
        call.action.apply store.now call.actor.userId row) ∧
      b.Ready (store.writeRow call row) vault head oid
        (call.action.apply store.now call.actor.userId row) := by
  have htarget : store.target call = some row :=
    target_of_row h.mem hid hrevision (by rw [htenant, hactor]; exact h.authorised.1) hstatus
  refine ⟨write_of_target hobjects htarget, ⟨?_, h.objects, h.files⟩, h.authorised, h.head, h.fresh⟩
  exact (Table.mem_put h.mem (apply_id ..).symm).2 (.inl rfl)

theorem Ready.check (h : b.Ready store vault head oid row) {action : ChangeSetAction}
    (hsame : SameWork b.row row)
    (htenant : row.tenantId = b.row.tenantId) (hinput : ChangeSetStore.checkInput action = .ok ())
    (hcurrent : store.checkCurrent env.parse env.isAlphanumeric b.actor row action = .ok ()) :
    store.check env.parse env.isAlphanumeric (callOn b.actor row action) = .ok () :=
  check_eq_ok h.mem rfl (h.authorised.congr htenant hsame.spaceId) hinput hcurrent

theorem readNoteReconciled_of_exact {path : NotePath}
    {expectedHash : Option String} {bytes : ByteArray}
    (h : readExact env vault.value path expectedHash = .ok bytes) (oid' : String) :
    readNoteReconciled env vault path expectedHash oid' = .ok (vault, bytes, false) := by
  obtain ⟨hpath, hbytes, hhash⟩ := readExact_ok.1 h
  refine bind_eq_ok.2 ⟨(), hpath, bind_eq_ok.2 ⟨bytes, orFail_eq_ok.2 hbytes, ?_⟩⟩
  simp [hhash]

theorem writeNotesBatch_of_applies {context : Context} {prepared : Prepared}
    {objects' : Table KnowledgeObjectRow.id}
    (h : Applies env b.objects b.files b.actor row context prepared objects')
    (hfiles : vault.value = b.files) (oid' : String) : ∃ state states, state.gitRevision = oid' ∧
      state :: states = noteStates env prepared.writes oid' ∧
      writeNotesBatch env vault context prepared.writes (some vault.version) oid' =
        .ok (vault.commit oid' (writeAll context b.files prepared.writes), state :: states) := by
  obtain ⟨write, writes, hwrites⟩ := exists_cons_of_ne_nil h.nonempty
  refine ⟨⟨write.relativePath, env.hash write.bytes, oid'⟩, noteStates env writes oid', rfl,
    by rw [hwrites]; rfl, ?_⟩
  unfold writeNotesBatch
  rw [if_neg h.nonempty]
  refine bind_eq_ok.2 ⟨(), ensure_eq_ok.2 (by simp), bind_eq_ok.2 ⟨(), h.paths, ?_⟩⟩
  rw [hfiles, hwrites]
  rfl

theorem Landed.write (h : Landed p store vault)
    (gitRevision : String) : store.write (completion p gitRevision) =
      .ok ({ store.writeRow (completion p gitRevision) (b.refreshed head).begun with
          objects := p.objects },
        (b.refreshed head).begun.completeMaterialization store.now gitRevision
          (materialized env p.prepared)) := by
  have htarget : store.target (completion p gitRevision) = some (b.refreshed head).begun :=
    target_of_row h.mem rfl rfl h.authorised.1 (mem_singleton_self _)
  have hget : store.changeSets.get (completion p gitRevision).changeSetId =
      some (b.refreshed head).begun := Table.get_eq_some.2 ⟨h.mem, rfl⟩
  unfold ChangeSetStore.write
  rw [hget]
  refine bind_eq_ok.2 ⟨p.objects, ?_, ?_⟩
  · rw [h.objects]
    exact p.applies.registers
  · rw [htarget]
    rfl

theorem Landed.check (h : Landed p store vault)
    {gitRevision : String} (hshort : isShort 128 gitRevision) :
    store.check env.parse env.isAlphanumeric (completion p gitRevision) = .ok () := by
  refine check_eq_ok h.mem rfl (h.authorised.congr rfl rfl) ?_ ?_
  · have hlength : (materialized env p.prepared).length ≠ 0 := by
      have hpaths := congrArg List.length p.applies.prepares.balanced.paths
      rw [List.length_map, List.length_map] at hpaths
      unfold materialized hashed
      rw [List.length_map, ← hpaths]
      exact List.length_eq_zero_iff.not.2 p.applies.nonempty
    exact if_pos (by simpa [hshort] using hlength)
  · refine forM_eq_ok.2 fun object hobject => ?_
    exact if_pos (p.applies.valid object hobject)

variable {n : ℕ}

/-- From this stage the retry comes to one with so many steps left at most. -/
abbrev Continues (p : Plan env b head) (oid oid' : String) (s : World) (stage : Stage)
    (n : ℕ) : Prop :=
  SucceedsAt p oid (s.advance env ⟨b.actor, stage⟩ oid').1 n (s.advance env ⟨b.actor, stage⟩ oid').2

section

variable {oid' : String}

section

variable (ready : b.Ready s.store (s.vaults b.actor.tenantId) head oid b.row)

include ready

theorem continues_snapshot :
    Continues p oid oid' s (.snapshot b.row) (2 * p.operations.length + 10) := by
  unfold Continues World.advance
  dsimp only
  rw [ready.head]
  exact .refresh ready

theorem continues_refresh :
    Continues p oid oid' s (.refresh b.row head) (2 * p.operations.length + 9) := by
  obtain ⟨operations, hrefresh⟩ := p.applies.prepares.refresh_unchanged
  unfold Continues World.advance
  simp only [ready.objects, hrefresh]
  exact .retryCheck ready

theorem continues_retryCheck :
    Continues p oid oid' s (.check (retryCall b.actor b.row head b.row.operations false))
      (2 * p.operations.length + 8) := by
  have hcheck : s.store.check env.parse env.isAlphanumeric
      (retryCall b.actor b.row head b.row.operations false) = .ok () :=
    ready.check ⟨rfl, rfl, rfl, rfl⟩ rfl (if_pos p.short) rfl
  unfold Continues World.advance
  simp only [hcheck]
  exact .retryWrite ready

theorem continues_retryWrite :
    Continues p oid oid' s (.write (retryCall b.actor b.row head b.row.operations false))
      (2 * p.operations.length + 7) := by
  obtain ⟨hwrite, hready⟩ := @Ready.write _ _ _ _ _ _ ready
    (retryCall b.actor b.row head b.row.operations false) rfl rfl rfl rfl
    (mem_singleton.2 p.failed) rfl
  unfold Continues World.advance
  simp only [hwrite]
  exact .beginCheck hready

end

section

variable (ready : b.Ready s.store (s.vaults b.actor.tenantId) head oid (b.refreshed head).row)

include ready

theorem continues_beginCheck :
    Continues p oid oid' s (.check (callOn b.actor (b.refreshed head).row .beginMaterialization))
      (2 * p.operations.length + 6) := by
  have hcheck : s.store.check env.parse env.isAlphanumeric
      (callOn b.actor (b.refreshed head).row .beginMaterialization) = .ok () :=
    ready.check ⟨rfl, rfl, rfl, rfl⟩ rfl rfl rfl
  unfold Continues World.advance
  simp only [hcheck]
  exact .beginWrite ready

theorem continues_beginWrite :
    Continues p oid oid' s (.write (callOn b.actor (b.refreshed head).row .beginMaterialization))
      (2 * p.operations.length + 5) := by
  obtain ⟨hwrite, hready⟩ := @Ready.write _ _ _ _ _ _ ready
    (callOn b.actor (b.refreshed head).row .beginMaterialization) rfl rfl rfl rfl
    (mem_cons_of_mem _ (mem_singleton.2 p.failed)) rfl
  unfold Continues World.advance
  simp only [hwrite]
  exact .opening hready

end

section

variable (ready : b.Ready s.store (s.vaults b.actor.tenantId) head oid (b.refreshed head).begun)
  {rest : List (Json × ℕ)} {prepared prepared' : Prepared}

include ready

theorem continues_opening :
    Continues p oid oid' s (.opening (b.refreshed head).begun) (2 * p.operations.length + 4) := by
  have hopen : openContext env b.actor (b.refreshed head).begun =
      .ok (p.context, p.operations) := p.opened
  unfold Continues World.advance
  simp only [hopen]
  rw [← length_zipIdx]
  exact .prepare ready p.prepares

theorem continues_prepare (left : rest.foldlM (prepareOperation env b.objects b.files p.context)
    prepared = .ok p.prepared) : ∃ m < 2 * rest.length + 4,
      Continues p oid oid' s (.prepare (b.refreshed head).begun p.context rest prepared) m := by
  cases rest with
  | nil =>
    refine ⟨3, by omega, ?_⟩
    cases left
    exact .batch ready
  | cons operation rest =>
    rw [foldlM_cons] at left
    obtain ⟨prepared', hfirst, hrest⟩ := bind_eq_ok.1 left
    obtain ⟨opened, hopen, hfinish⟩ := bind_eq_ok.1 hfirst
    obtain ⟨operation, position⟩ := operation
    unfold Continues World.advance
    simp only [ready.objects, hopen]
    cases opened with
    | done prepared'' =>
      cases hfinish
      exact ⟨2 * rest.length + 4, by simp, .prepare ready hrest⟩
    | reads target =>
      exact ⟨2 * rest.length + 5, by simp; omega, .read ready hfinish hrest⟩

theorem continues_read {target : Target}
    (finished : finishOperation env b.objects b.files p.context prepared (.reads target) =
      .ok prepared')
    (left : rest.foldlM (prepareOperation env b.objects b.files p.context) prepared' =
      .ok p.prepared) :
    Continues p oid oid' s (.read (b.refreshed head).begun p.context target rest prepared)
      (2 * rest.length + 4) := by
  obtain ⟨bytes, hread, hchange⟩ := bind_eq_ok.1 finished
  rw [← ready.files] at hread
  rw [← ready.objects] at hchange
  unfold Continues World.advance
  have hvault : s.setVault b.actor.tenantId (s.vaults b.actor.tenantId) = s := by
    simp only [World.setVault, Function.update_eq_self]
  simp only [readNoteReconciled_of_exact hread oid', Bool.false_eq_true, if_false, hvault, hchange]
  exact .prepare ready left

theorem continues_batch (hshort : isShort 128 oid') :
    Continues p oid oid' s (.batch (b.refreshed head).begun p.context p.prepared) 2 := by
  obtain ⟨state, states, hrevision, hstates, hbatch⟩ :=
    writeNotesBatch_of_applies p.applies ready.files oid'
  rw [ready.head] at hbatch
  have hhead : (b.refreshed head).begun.expectedGitRevision = some head := rfl
  unfold Continues World.advance
  simp only [hhead, hbatch]
  rw [hstates, hashed_noteStates, SucceedsAt]
  simp only [World.setVault, Function.update_self]
  exact .completeCheck _ (by rw [hrevision]; exact hshort)
    ⟨ready.mem, ready.objects, rfl, ready.authorised⟩

end

section

variable (landed : Landed p s.store (s.vaults b.actor.tenantId)) {gitRevision : String}

include landed

theorem continues_completeCheck (short : isShort 128 gitRevision) :
    Continues p oid oid' s (.check (completion p gitRevision)) 1 := by
  unfold Continues World.advance
  simp only [landed.check short]
  exact .completeWrite gitRevision landed

theorem continues_completeWrite :
    Continues p oid oid' s (.write (completion p gitRevision)) 0 := by
  unfold Continues World.advance
  simp only [landed.write gitRevision]
  refine .finished s.store.now gitRevision ?_ rfl landed.files landed.authorised.1
  exact (Table.mem_put landed.mem (apply_id ..).symm).2 (.inl rfl)

end

end

theorem SucceedsAt.advance {stage : Stage} (h : SucceedsAt p oid s n (some stage))
    {oid' : String} (hshort : stage.commits → isShort 128 oid') :
    ∃ m < n, Continues p oid oid' s stage m := by
  cases h with
  | snapshot ready => exact ⟨_, by omega, continues_snapshot ready⟩
  | refresh ready => exact ⟨_, by omega, continues_refresh ready⟩
  | retryCheck ready => exact ⟨_, by omega, continues_retryCheck ready⟩
  | retryWrite ready => exact ⟨_, by omega, continues_retryWrite ready⟩
  | beginCheck ready => exact ⟨_, by omega, continues_beginCheck ready⟩
  | beginWrite ready => exact ⟨_, by omega, continues_beginWrite ready⟩
  | opening ready => exact ⟨_, by omega, continues_opening ready⟩
  | prepare ready left => exact continues_prepare ready left
  | read ready finished left => exact ⟨_, by omega, continues_read ready finished left⟩
  | batch ready => exact ⟨2, by omega, continues_batch ready (hshort rfl)⟩
  | completeCheck gitRevision short landed =>
    exact ⟨1, by omega, continues_completeCheck landed short⟩
  | completeWrite gitRevision landed => exact ⟨0, by omega, continues_completeWrite landed⟩

theorem SucceedsAt.applied (h : SucceedsAt p oid s n none) : AppliedAsWritten env s b.row.id := by
  cases h with
  | finished now gitRevision mem objects files tenant =>
    obtain ⟨homeBundleId, pins, hbundle, hcontext, -⟩ := openContext_eq p.opened
    refine ⟨_, mem, rfl, rfl, gitRevision, materialized env p.prepared, homeBundleId, rfl, ?_,
      fun object hobject => ?_⟩
    · change env.homeBundle b.row.tenantId b.row.outputVaultId b.row.spaceId = _
      rw [tenant]
      exact hbundle
    · obtain ⟨registered, hregistered, hid, bytes, hfile, hhash⟩ :=
        p.applies.hashes_match hobject
      refine ⟨registered, objects ▸ hregistered, hid, bytes, ?_, hhash⟩
      change (s.vaults b.row.tenantId).value _ = _
      rw [tenant, files]
      rw [hcontext] at hfile ⊢
      exact hfile

theorem SucceedsAt.exec (h : SucceedsAt p oid s n next) (halone : Alone b.actor s next)
    {as : List Label} (has : ∀ a ∈ as, Faultless a) {t : World}
    (hrun : (machine env).exec s as = some t) :
    ∃ m next', SucceedsAt p oid t m next' ∧ Alone b.actor t next' := by
  induction as generalizing s n next with
  | nil =>
    cases hrun
    exact ⟨n, next, h, halone⟩
  | cons a as ih =>
    obtain ⟨s', hstep, hrest⟩ := (machine env).exec_cons_eq_some.1 hrun
    have hrest' := fun b hb => has b (mem_cons_of_mem _ hb)
    cases a with
    | step index oid' =>
      obtain ⟨stage, rfl, hfresh, hstore, hvaults, halone'⟩ := halone.step hstep
      have hshort : stage.commits → isShort 128 oid' := fun hcommits =>
        (Bool.and_eq_true_iff.1 (hfresh hcommits)).1
      obtain ⟨m, -, h'⟩ := h.advance hshort
      refine ih (n := m) ?_ halone' hrest' hrest
      rw [SucceedsAt, hstore, hvaults]
      exact h'
    | _ => exact (has _ mem_cons_self).elim

theorem Succeeding.fresh {stage : Stage}
    (h : Succeeding oid p store vault n (some stage)) (hcommits : stage.commits) :
    ¬ vault.Knows oid := by
  cases h with
  | read ready | batch ready => exact ready.fresh
  | _ => cases hcommits

theorem SucceedsAt.exists_exec (h : SucceedsAt p oid s n next)
    (halone : Alone b.actor s next) (hoid : isShort 128 oid) :
    ∃ as t, (∀ a ∈ as, Faultless a) ∧ (machine env).exec s as = some t ∧ t.requests = [] := by
  induction n using Nat.strongRecOn generalizing s next with
  | ind n ih =>
    cases next with
    | none => exact ⟨[], s, by simp, rfl, halone⟩
    | some stage =>
      have hfresh : stage.commits → s.freshHead b.actor.tenantId oid := fun hcommits => by
        simp [World.freshHead, hoid, h.fresh hcommits]
      obtain ⟨s', hstep⟩ := @Alone.exists_step T env _ _ _ halone _ hfresh
      obtain ⟨stage', hstage, -, hstore, hvaults, halone'⟩ := halone.step hstep
      cases hstage
      obtain ⟨m, hm, h'⟩ := @SucceedsAt.advance _ _ _ _ _ _ _ _ _ h oid fun _ => hoid
      have hnext : SucceedsAt p oid s' m (s.advance env ⟨b.actor, stage⟩ oid).2 := by
        rw [SucceedsAt, hstore, hvaults]
        exact h'
      obtain ⟨as, t, has, hrun, hover⟩ := ih m hm hnext halone'
      refine ⟨.step 0 oid :: as, t, ?_, (machine env).exec_cons_eq_some.2 ⟨s', hstep, hrun⟩, hover⟩
      exact forall_mem_cons.2 ⟨trivial, has⟩

end

end Basis

/-! ## Runs -/

section

variable {T : Type} {env : Env T} {s s₁ : World} {actor actor₁ : SpaceActor}
  {row row₁ : KnowledgeChangeSetRow}

theorem left_of_attempt (hrow : row ∈ s.store.changeSets)
    (hrequests : s.requests = [⟨actor, .check (callOn actor row .beginMaterialization)⟩])
    {as : List Label} (has : ∀ a ∈ as, OfRequest a)
    (hrun : (machine env).exec s as = some s₁) (hover : s₁.requests = [])
    (hrow₁ : row₁ ∈ s₁.store.changeSets) (hid : row₁.id = row.id)
    (hfailed : row₁.status = .failedRetryable) :
    SameWork row row₁ ∧ row₁.tenantId = row.tenantId ∧ s₁.store.objects = s.store.objects ∧
      Basis.Leaves env ⟨s.store.objects, (s.vaults actor.tenantId).value, actor, row⟩
        (s₁.vaults actor.tenantId).value := by
  let b : Basis := ⟨s.store.objects, (s.vaults actor.tenantId).value, actor, row⟩
  have hstart : b.At env s (some (.check (callOn actor row .beginMaterialization))) :=
    .beginCheck ⟨hrow, rfl, rfl⟩
  obtain ⟨next, hend, halone⟩ := hstart.exec hrequests has hrun
  cases hend.ended halone hover with
  | refused quiet =>
    obtain rfl := Table.eq_of_key hrow₁ quiet.mem hid
    exact ⟨⟨rfl, rfl, rfl, rfl⟩, rfl, quiet.objects, quiet.files ▸ .before⟩
  | stranded failed =>
    obtain rfl := Table.eq_of_key hrow₁ failed.mem hid
    cases hfailed
  | failed detail failed =>
    obtain rfl := Table.eq_of_key hrow₁ failed.mem hid
    exact ⟨⟨rfl, rfl, rfl, rfl⟩, rfl, failed.objects, failed.leaves⟩
  | applied context prepared now gitRevision applies mem files =>
    obtain rfl := Table.eq_of_key hrow₁ mem hid
    cases hfailed

theorem exec_retry (hrow : row ∈ s.store.changeSets)
    (hauthorised : Authorised s.store.access actor row)
    (hfailed : row.status = .failedRetryable) :
    (machine env).step s (.retry actor row.id row.revision) =
      some (s.start actor (.snapshot row)) := by
  have hget : s.store.getChangeSet actor row.id = .ok row := by
    have hfound : (s.store.changeSets.get row.id).filter
        (fun row => row.tenantId = actor.tenantId) = some row := by
      rw [filter_eq_some_iff, Table.get_eq_some]
      exact ⟨⟨hrow, rfl⟩, by simpa using hauthorised.1⟩
    unfold ChangeSetStore.getChangeSet
    rw [hfound]
    exact bind_eq_ok.2 ⟨(), hauthorised.2.1, rfl⟩
  simp [hget, hfailed]

theorem retryApplies_iff (hrequests : s.requests = []) (hrow : row ∈ s.store.changeSets)
    (hauthorised : Authorised s.store.access actor row)
    (hfailed : row.status = .failedRetryable)
    (hhead : isShort 128 (s.vaults actor.tenantId).version) {oid : String}
    (hoid : s.freshHead actor.tenantId oid) : RetryApplies env s actor row.id row.revision ↔
      Applicable env s.store.objects (s.vaults actor.tenantId).value actor row := by
  let b : Basis := ⟨s.store.objects, (s.vaults actor.tenantId).value, actor, row⟩
  have hstep := @exec_retry T env _ _ _ hrow hauthorised hfailed
  have hstatus : b.row.status ≠ .applied := by
    change row.status ≠ _
    rw [hfailed]
    decide
  have halone : Alone actor (s.start actor (.snapshot row)) (some (.snapshot row)) := by
    simp [Alone, World.start, hrequests]
  obtain ⟨hshort, hfresh⟩ := Bool.and_eq_true_iff.1 hoid
  have hnew : ¬ (s.vaults actor.tenantId).Knows oid := by simpa using hfresh
  constructor
  · rintro ⟨⟨as, t, has, hrun, hover⟩, happlies⟩
    have happlied := happlies as t has hrun hover
    obtain ⟨s', hstep', hrest⟩ := (machine env).exec_cons_eq_some.1 hrun
    obtain rfl := mem_unique hstep hstep'
    have hstart : b.RetryAt env (s.start actor (.snapshot row)) (some (.snapshot row)) :=
      .snapshot ⟨hrow, rfl, rfl⟩
    obtain ⟨next, hend, halone'⟩ := hstart.exec hstatus halone has hrest
    cases next with
    | none => exact hend.applicable hstatus happlied
    | some stage =>
      rw [Alone, hover] at halone'
      cases halone'
  · rintro ⟨context, prepared, objects', happlies⟩
    obtain ⟨operations, hopen, hfold⟩ := happlies.prepares
    let p : Basis.Plan env b (s.vaults actor.tenantId).version :=
      ⟨context, operations, prepared, objects', hopen, hfold, happlies, hhead, hfailed⟩
    have hstart : Basis.SucceedsAt p oid (s.start actor (.snapshot row))
        (2 * operations.length + 11) (some (.snapshot row)) :=
      .snapshot ⟨⟨hrow, rfl, rfl⟩, hauthorised, rfl, hnew⟩
    constructor
    · obtain ⟨as, t, has, hrun, hover⟩ := hstart.exists_exec halone hshort
      exact ⟨as, t, has, (machine env).exec_cons_eq_some.2 ⟨_, hstep, hrun⟩, hover⟩
    · intro as t has hrun hover
      obtain ⟨s', hstep', hrest⟩ := (machine env).exec_cons_eq_some.1 hrun
      obtain rfl := mem_unique hstep hstep'
      obtain ⟨n, next, hend, halone'⟩ := hstart.exec halone has hrest
      cases next with
      | none => exact hend.applied
      | some stage =>
        rw [Alone, hover] at halone'
        cases halone'

/-- What a failed attempt has left: the notes as they were, or with its batch.  After the batch the
change set is applicable just when it was so at the start and no note was changed, as far as the
hash tells the notes apart. -/
inductive AttemptLeft (env : Env T) (s s₁ : World) (actor actor₁ : SpaceActor)
    (row : KnowledgeChangeSetRow) : Prop
  | before (files : (s₁.vaults actor.tenantId).value = (s.vaults actor.tenantId).value)
  | after {context : Context} {prepared : Prepared}
      (prepares : Prepares env s.store.objects (s.vaults actor.tenantId).value actor row context
        prepared)
      (files : (s₁.vaults actor.tenantId).value =
        writeAll context (s.vaults actor.tenantId).value prepared.writes)
      (changed : Applicable env s₁.store.objects (s₁.vaults actor.tenantId).value actor₁ row →
        ∀ write ∈ prepared.writes, ∀ bytes, write.read = some bytes →
          env.hash write.bytes = env.hash bytes)
      (unchanged : Applicable env s.store.objects (s.vaults actor.tenantId).value actor₁ row →
        (∀ write ∈ prepared.writes, ∀ bytes, write.read = some bytes → write.bytes = bytes) →
        Applicable env s₁.store.objects (s₁.vaults actor.tenantId).value actor₁ row)
      (exact : (∀ write ∈ prepared.writes, ∀ bytes, write.read = some bytes →
          env.hash write.bytes = env.hash bytes → write.bytes = bytes) →
        (Applicable env s₁.store.objects (s₁.vaults actor.tenantId).value actor₁ row ↔
          Applicable env s.store.objects (s.vaults actor.tenantId).value actor₁ row ∧
            ∀ write ∈ prepared.writes, ∀ bytes, write.read = some bytes → write.bytes = bytes))

/-- After a failed attempt, a retry in which nothing fails applies the change set if and only if it
is applicable to the registry and the notes left.  After a committed batch it is not when a note was
changed to another hash, and it is when no note was changed and it was before. -/
theorem retry_applies_iff (env : Env T) (hrow : row ∈ s.store.changeSets)
    (htenant : row.tenantId = actor.tenantId)
    (hrequests : s.requests = [⟨actor, .check (callOn actor row .beginMaterialization)⟩])
    {as : List Label} (has : ∀ a ∈ as, OfRequest a)
    (hrun : (machine env).exec s as = some s₁) (hover : s₁.requests = [])
    (hrow₁ : row₁ ∈ s₁.store.changeSets) (hid : row₁.id = row.id)
    (hfailed : row₁.status = .failedRetryable)
    (hauthorised : Authorised s₁.store.access actor₁ row₁)
    (hhead : isShort 128 (s₁.vaults actor.tenantId).version) {oid : String}
    (hoid : s₁.freshHead actor.tenantId oid) : (RetryApplies env s₁ actor₁ row.id row₁.revision ↔
      Applicable env s₁.store.objects (s₁.vaults actor.tenantId).value actor₁ row) ∧
    s₁.store.objects = s.store.objects ∧ AttemptLeft env s s₁ actor actor₁ row := by
  obtain ⟨hsame, hrowTenant, hobjects, hleaves⟩ :=
    left_of_attempt hrow hrequests has hrun hover hrow₁ hid hfailed
  have hactor : actor₁.tenantId = actor.tenantId :=
    hauthorised.1.symm.trans (hrowTenant.trans htenant)
  rw [← hactor] at hhead hoid
  refine ⟨?_, hobjects, ?_⟩
  · rw [← hid, retryApplies_iff hover hrow₁ hauthorised hfailed hhead hoid, hsame.applicable,
      hactor]
  · generalize hleft : (s₁.vaults actor.tenantId).value = left at hleaves
    cases hleaves with
    | before => exact .before hleft
    | @after context prepared prepares paths =>
      have hhashes := @Applicable.same_hashes _ _ _ _ _ _ _ actor₁ _ hactor prepares paths
      have hiff := @applicable_after_batch_iff _ _ _ _ _ _ _ actor₁ _ hactor prepares paths
      refine .after prepares hleft ?_ ?_ ?_
      · rw [hleft, hobjects]
        exact hhashes
      · rw [hleft, hobjects]
        exact fun happlicable hsame => (hiff hsame).2 happlicable
      · rw [hleft, hobjects]
        intro hhash
        constructor
        · intro happlicable
          have hsame write hwrite bytes hread := hhash write hwrite bytes hread
            (hhashes happlicable write hwrite bytes hread)
          exact ⟨(hiff hsame).1 happlicable, hsame⟩
        · exact fun ⟨happlicable, hsame⟩ => (hiff hsame).2 happlicable

end

def awaitsBegin (s : World) (actor : SpaceActor) (row : KnowledgeChangeSetRow) : Bool :=
  match s.requests with
  | [⟨actor', .check ⟨actor'', changeSetId, expectedRevision, .beginMaterialization⟩⟩] =>
    actor' = actor && actor'' = actor && changeSetId = row.id && expectedRevision = row.revision
  | _ => false

theorem requests_of_awaitsBegin {s : World} {actor : SpaceActor} {row : KnowledgeChangeSetRow}
    (h : awaitsBegin s actor row) :
    s.requests = [⟨actor, .check (callOn actor row .beginMaterialization)⟩] := by
  unfold awaitsBegin at h
  split at h
  · rename_i hrequests
    simp only [Bool.and_eq_true, decide_eq_true_eq] at h
    obtain ⟨⟨⟨rfl, rfl⟩, rfl⟩, rfl⟩ := h
    exact hrequests
  · cases h

def sampleMakeRun : List Label :=
  sampleAccepted 7 (sampleCreateNote "Body") "head" ++ sampleSteps 2 ""

/-- The call that completes the materialization fails, and the failure is reported. -/
def sampleAttempt (count : ℕ) (oid : String) : List Label :=
  sampleSteps count oid ++ [.fault 0 "knowledge job persistence failed"] ++ sampleSteps 2 ""

theorem retry_applies_iff_sample :
    ∃ s s₁, (machine sampleEnv).exec sampleWorld sampleMakeRun = some s ∧
      (machine sampleEnv).exec s (sampleAttempt 7 "a") = some s₁ ∧
      ∃ row ∈ s.store.changeSets, ∃ row₁ ∈ s₁.store.changeSets,
        row₁.status = .failedRetryable ∧ (RetryApplies sampleEnv s₁ ⟨1, 2⟩ row.id row₁.revision ↔
          Applicable sampleEnv s₁.store.objects (s₁.vaults 1).value ⟨1, 2⟩ row) ∧
        AttemptLeft sampleEnv s s₁ ⟨1, 2⟩ ⟨1, 2⟩ row := by
  have hrun : ∃ s, (machine sampleEnv).exec sampleWorld sampleMakeRun = some s ∧
      ∃ s₁, (machine sampleEnv).exec s (sampleAttempt 7 "a") = some s₁ ∧ s₁.requests.isEmpty ∧
        isShort 128 (s₁.vaults 1).version ∧ s₁.freshHead 1 "b" ∧
        ∃ row ∈ s.store.changeSets, ∃ row₁ ∈ s₁.store.changeSets, awaitsBegin s ⟨1, 2⟩ row ∧
          row₁.id = row.id ∧ row.tenantId = 1 ∧ row₁.status = .failedRetryable ∧
          mayChange s₁.store.access ⟨1, 2⟩ row₁ := by
    decide +kernel
  obtain ⟨s, hs, s₁, hs₁, hempty, hhead, hoid, row, hrow, row₁, hrow₁, hbegin, hid, htenant,
    hfailed, hactor⟩ := hrun
  have hover := List.isEmpty_iff.1 hempty
  have hlabels : ∀ a ∈ sampleAttempt 7 "a", OfRequest a := by
    simp [sampleAttempt, sampleSteps, OfRequest]
  obtain ⟨hiff, -, hleft⟩ := retry_applies_iff sampleEnv hrow htenant
    (requests_of_awaitsBegin hbegin) hlabels hs₁ hover hrow₁ hid hfailed
    (authorised_of_mayChange hactor) hhead hoid
  exact ⟨s, s₁, hs, hs₁, row, hrow, row₁, hrow₁, hfailed, hiff, hleft⟩

def sampleChangeRun : List Label :=
  sampleAccepted 7 (sampleCreateNote "Body") "head" ++ sampleSteps 8 "a" ++ sampleSteps 2 "b" ++
    sampleAccepted 8 (sampleUpdateNote "Second") "a" ++ sampleSteps 2 ""

/-- The call that completes the materialization fails after the changed note was committed; a retry
in which nothing fails finds the note changed and fails. -/
theorem retry_fails_on_own_write :
    ∃ s s₁ t, (machine sampleEnv).exec sampleWorld sampleChangeRun = some s ∧
      (machine sampleEnv).exec s (sampleAttempt 8 "b") = some s₁ ∧
      (s₁.store.changeSets.rows.map fun row => (row.id, row.status)) =
        [(7, .applied), (8, .failedRetryable)] ∧
      (machine sampleEnv).exec s₁ (.retry ⟨1, 2⟩ 8 4 :: sampleSteps 11 "c") = some t ∧
      t.requests = [] ∧ ¬ AppliedAsWritten sampleEnv t 8 ∧
      ¬ RetryApplies sampleEnv s₁ ⟨1, 2⟩ 8 4 := by
  have hrun : ∃ s, (machine sampleEnv).exec sampleWorld sampleChangeRun = some s ∧
      ∃ s₁, (machine sampleEnv).exec s (sampleAttempt 8 "b") = some s₁ ∧
        (s₁.store.changeSets.rows.map fun row => (row.id, row.status)) =
          [(7, .applied), (8, .failedRetryable)] ∧
        ∃ t, (machine sampleEnv).exec s₁ (.retry ⟨1, 2⟩ 8 4 :: sampleSteps 11 "c") = some t ∧
          t.requests.isEmpty ∧
          ∀ row ∈ t.store.changeSets, row.id = 8 → row.status ≠ .applied := by
    decide +kernel
  obtain ⟨s, hs, s₁, hs₁, hstatus, t, ht, hempty, hnever⟩ := hrun
  have hfails : ¬ AppliedAsWritten sampleEnv t 8 := by
    rintro ⟨row, hrow, hid, happlied, -⟩
    exact hnever row hrow hid happlied
  have hover := List.isEmpty_iff.1 hempty
  refine ⟨s, s₁, t, hs, hs₁, hstatus, ht, hover, hfails, fun h => hfails ?_⟩
  exact h.applies (sampleSteps 11 "c") t (by simp [sampleSteps, Faultless]) ht hover

end Gadgetron.Jobs.Materialize
