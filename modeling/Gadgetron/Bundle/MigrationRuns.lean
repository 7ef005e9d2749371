import Gadgetron.Bundle.MigrationLedger

/-!
# Calls of `migrate_core` and `apply_bundle`

What a call of `apply_bundle` does after its Core step, and what any sequence of calls preserves,
with packages that come and go and with failures at any operation.
-/

namespace Gadgetron.Bundle.Migration

open Lib Action List

section

variable {p : Prop} {core : Core} {fails : Op → Bool} {db db' : Database} {bundleId : String}
  {resolved pending : List ResolvedMigration} {coreReport : CoreMigrationReport}

def BundleFresh (core : Core) (bundleId : String) (resolved : List ResolvedMigration)
    (db : Database) : Prop :=
  ∀ m ∈ pendingMigrations resolved (db.rowsOf bundleId), ∀ v ∈ m.legacySqlxVersion,
    core.contains v = false

instance : Decidable (BundleFresh core bundleId resolved db) :=
  inferInstanceAs (Decidable (∀ m ∈ pendingMigrations resolved (db.rowsOf bundleId),
    ∀ v ∈ m.legacySqlxVersion, core.contains v = false))

variable {row : LedgerRow}

theorem mem_rowsOf : row ∈ db.rowsOf bundleId ↔ row ∈ db.ledger ∧ row.bundleId = bundleId := by
  unfold Database.rowsOf
  rw [List.mem_filter, mem_loadLedger, decide_eq_true_eq]

variable {m : ResolvedMigration}

theorem mem_pending_of_kept (hkept : ∀ row ∈ db.ledger, row ∈ db'.ledger)
    (hm : m ∈ pendingMigrations resolved (db'.rowsOf bundleId)) :
    m ∈ pendingMigrations resolved (db.rowsOf bundleId) := by
  unfold pendingMigrations at hm ⊢
  rw [List.mem_filter, Bool.not_eq_true', List.any_eq_false] at hm ⊢
  refine ⟨hm.1, fun row hrow => hm.2 row ?_⟩
  rw [mem_rowsOf] at hrow ⊢
  exact ⟨hkept row hrow.1, hrow.2⟩

def ResolvedMigration.execution (m : ResolvedMigration) : Execution :=
  .bundle m.bundleId m.migrationId m.revision m.legacySqlxVersion

structure Executed (p : Prop) (db : Database) (pending : List ResolvedMigration) (db' : Database) :
  Prop where
  inv : Inv p db'
  sqlx_eq : db'.sqlx = db.sqlx
  ledger_eq : db'.ledger = db.ledger ++ pending.map (·.row false none)
  log_eq : db'.log = db.log ++ pending.map ResolvedMigration.execution

theorem ne_of_admitted (howned : Owned core db) (hkept : ∀ row ∈ db.ledger, row ∈ db'.ledger)
    (hcore : ∀ v ∈ m.legacySqlxVersion, core.contains v = false)
    (hrow : (m.row false none).admitted db'.ledger = true) :
    ∀ r ∈ db.sqlx, m.legacySqlxVersion ≠ some r.version := by
  intro r hr hlegacy
  rcases howned r hr with ⟨hcontains, -⟩ | ⟨-, row, hmem, hadopts, -⟩
  · rw [hcore _ hlegacy] at hcontains
    cases hcontains
  · exact (LedgerRow.fresh_of_admitted hrow).2 row (hkept row hmem) r.version hadopts.2 hlegacy

theorem ensures_applyMigrations (h : Inv p db) (howned : Owned core db)
    (hcore : p → ∀ m ∈ pending, ∀ v ∈ m.legacySqlxVersion, core.contains v = false) :
    Ensures (forM pending (applyMigration fails bundleId)) db
      (fun _ db' => Executed p db pending db') (fun _ => True) := by
  refine ensures_forM ⟨h, rfl, (append_nil _).symm, (append_nil _).symm⟩ ?_
  intro done m rest s hsplit hdone
  unfold applyMigration
  split
  · exact ensures_fail trivial
  · refine Ensures.bind (ensures_attempt ?_ trivial)
    refine Ensures.bind (ensures_modify ?_)
    refine ensures_insertLedgerRow (fun hrow => ?_) trivial
    have hm : m ∈ pending := by
      rw [hsplit]
      exact mem_append_right _ mem_cons_self
    have hkept : ∀ row ∈ db.ledger, row ∈ s.ledger := by
      intro row hmem
      rw [hdone.ledger_eq]
      exact mem_append_left _ hmem
    have hne : p → ∀ r ∈ s.sqlx, m.legacySqlxVersion ≠ some r.version := by
      intro hp
      rw [hdone.sqlx_eq]
      exact ne_of_admitted howned hkept (hcore hp m hm) hrow
    refine ⟨hdone.inv.execute hrow hne, hdone.sqlx_eq, ?_, ?_⟩
    · dsimp only
      rw [hdone.ledger_eq, map_append, List.append_assoc]
      rfl
    · dsimp only
      rw [hdone.log_eq, map_append, List.append_assoc]
      rfl

/-- What `apply_bundle` leaves when it succeeds, after a Core step that has left `db`. -/
structure BundleDone (p : Prop) (bundleId : String) (resolved : List ResolvedMigration)
    (db db' : Database) : Prop where
  valid : validateHistory bundleId resolved (db.rowsOf bundleId) = .ok ()
  executed : Executed p db (pendingMigrations resolved (db.rowsOf bundleId)) db'

theorem ensures_applyPending (h : Inv p db) (howned : Owned core db)
    (hfresh : p → BundleFresh core bundleId resolved db) :
    Ensures (applyPending fails bundleId resolved coreReport) db
      (fun _ db' => BundleDone p bundleId resolved db db') (· = db) := by
  unfold applyPending
  refine Ensures.bind (ensures_attempt ?_ rfl)
  refine Ensures.bind (ensures_read ?_)
  refine Ensures.bind (ensures_ofExcept (fun _ hvalid => ?_) rfl)
  dsimp only
  split
  · rename_i hempty
    rw [List.isEmpty_iff] at hempty
    refine ensures_pure ⟨hvalid, ?_⟩
    rw [hempty]
    exact ⟨h, rfl, (append_nil _).symm, (append_nil _).symm⟩
  · refine Ensures.bind (Ensures.transaction ?_)
    refine Ensures.bind (ensures_attempt ?_ rfl)
    refine Ensures.bind ((ensures_applyMigrations h howned hfresh).mono (fun _ s hs => ?_)
      fun _ _ => rfl)
    refine ensures_attempt ?_ rfl
    exact ensures_pure ⟨hvalid, hs⟩

theorem applyPending_atomic :
    Ensures (applyPending fails bundleId resolved coreReport) db (fun _ _ => True) (· = db) := by
  unfold applyPending
  refine Ensures.bind (ensures_attempt ?_ rfl)
  refine Ensures.bind (ensures_read ?_)
  refine Ensures.bind (ensures_ofExcept (fun _ hvalid => ?_) rfl)
  dsimp only
  split
  · exact ensures_pure trivial
  · refine Ensures.bind (Ensures.transaction ?_)
    exact Ensures.of_forall (fun _ _ => ensures_pure trivial) fun _ => rfl

/-- The row is that of the migration, as `validate_ledger_row` compares them. -/
structure LedgerRow.Matches (row : LedgerRow) (m : ResolvedMigration) : Prop where
  records : row.Records m
  legacy_eq : row.legacySqlxVersion = m.legacySqlxVersion

theorem matches_of_validateLedgerRow
    (hid : m.migrationId = row.migrationId) (h : validateLedgerRow row m = .ok ()) :
    row.Matches m := by
  unfold validateLedgerRow at h
  dsimp only at h
  split at h
  · rename_i heq
    obtain ⟨hrevision, -, hpath, hhash, hlegacy, -⟩ := heq
    exact ⟨⟨hid.symm, hrevision, hpath, hhash⟩, hlegacy⟩
  · cases h

theorem row_matches (m : ResolvedMigration) (adopted : Bool) (checksum : Option Bytes) :
    (m.row adopted checksum).Matches m := ⟨⟨rfl, rfl, rfl, rfl⟩, rfl⟩

theorem exists_matches_of_valid
    (h : validateHistory bundleId resolved (db.rowsOf bundleId) = .ok ()) (hrow : row ∈ db.ledger)
    (hbundle : row.bundleId = bundleId) :
    ∃ m ∈ resolved, row.Matches m := by
  have hok := forM_eq_ok.1 h row (mem_rowsOf.2 ⟨hrow, hbundle⟩)
  split at hok
  · cases hok
  · rename_i m hfind
    have hid : m.migrationId = row.migrationId := by simpa using find?_some hfind
    exact ⟨m, mem_of_find?_eq_some hfind, matches_of_validateLedgerRow hid hok⟩

/-- Each row of the bundle is that of a migration of the package, and each migration has its
row. -/
structure AllMatch (bundleId : String) (resolved : List ResolvedMigration) (db : Database) :
    Prop where
  rows : ∀ row ∈ db.ledger, row.bundleId = bundleId → ∃ m ∈ resolved, row.Matches m
  migrations : ∀ m ∈ resolved, ∃ row ∈ db.ledger, row.bundleId = bundleId ∧ row.Matches m

theorem AllMatch.recorded (h : AllMatch bundleId resolved db) : Recorded bundleId resolved db := by
  refine ⟨fun row hrow hbundle => ?_, fun m hm => ?_⟩
  · obtain ⟨m, hm, hmatch⟩ := h.rows row hrow hbundle
    exact ⟨m, hm, hmatch.records⟩
  · obtain ⟨row, hrow, hbundle, hmatch⟩ := h.migrations m hm
    exact ⟨row, hrow, hbundle, hmatch.records⟩

theorem BundleDone.allMatch (h : BundleDone p bundleId resolved db db')
    (hown : ∀ m ∈ resolved, m.bundleId = bundleId)
    (hnodup : (resolved.map (·.migrationId)).Nodup) : AllMatch bundleId resolved db' := by
  constructor
  · intro row hrow hbundle
    rw [h.executed.ledger_eq, mem_append] at hrow
    rcases hrow with hrow | hrow
    · exact exists_matches_of_valid h.valid hrow hbundle
    · obtain ⟨m, hm, rfl⟩ := List.mem_map.1 hrow
      exact ⟨m, mem_of_mem_filter hm, row_matches m _ _⟩
  · intro m hm
    rw [h.executed.ledger_eq]
    by_cases hany : (db.rowsOf bundleId).any (·.migrationId = m.migrationId) = true
    · obtain ⟨row, hrow, hid⟩ := List.any_eq_true.1 hany
      obtain ⟨hmem, hbundle⟩ := mem_rowsOf.1 hrow
      obtain ⟨m', hm', hmatch⟩ := exists_matches_of_valid h.valid hmem hbundle
      have hsame : m' = m := inj_on_of_nodup_map hnodup hm' hm
        (hmatch.records.1.symm.trans (of_decide_eq_true hid))
      exact ⟨row, mem_append_left _ hmem, hbundle, hsame ▸ hmatch⟩
    · have hpending : m ∈ pendingMigrations resolved (db.rowsOf bundleId) :=
        List.mem_filter.2 ⟨hm, by simpa using hany⟩
      refine ⟨_, mem_append_right _ (List.mem_map_of_mem hpending), hown m hm, ?_⟩
      exact row_matches m _ _

theorem pendingMigrations_eq_nil (h : AllMatch bundleId resolved db) :
    pendingMigrations resolved (db.rowsOf bundleId) = [] := by
  unfold pendingMigrations
  rw [filter_eq_nil_iff]
  intro m hm hpending
  rw [Bool.not_eq_true', List.any_eq_false] at hpending
  obtain ⟨row, hrow, hbundle, hmatch⟩ := h.migrations m hm
  exact hpending row (mem_rowsOf.2 ⟨hrow, hbundle⟩) (decide_eq_true hmatch.records.1)

theorem applyPending_of_allMatch (h : AllMatch bundleId resolved db) :
    Ensures (applyPending fails bundleId resolved coreReport) db (fun _ s => s = db) (· = db) := by
  unfold applyPending
  refine Ensures.bind (ensures_attempt ?_ rfl)
  refine Ensures.bind (ensures_read ?_)
  refine Ensures.bind (ensures_ofExcept (fun _ _ => ?_) rfl)
  dsimp only
  rw [pendingMigrations_eq_nil h]
  exact ensures_pure rfl

theorem Executed.owned (h : Executed p db pending db') (howned : Owned core db) :
    Owned core db' := by
  have hadopts : ∀ row ∈ db'.ledger, ∀ v, row.Adopts v → row ∈ db.ledger := by
    intro row hrow v hadopts
    rw [h.ledger_eq, mem_append] at hrow
    rcases hrow with hrow | hrow
    · exact hrow
    · obtain ⟨m, -, rfl⟩ := List.mem_map.1 hrow
      cases hadopts.1
  intro m hm
  rcases howned m (h.sqlx_eq ▸ hm) with ⟨hcore, hnone⟩ | ⟨hcore, row, hrow, had, hchecksum, huniq⟩
  · exact .inl ⟨hcore, fun row hrow had => hnone row (hadopts row hrow _ had) had⟩
  · refine .inr ⟨hcore, row, ?_, had, hchecksum, fun row' hrow' had' => ?_⟩
    · rw [h.ledger_eq]
      exact mem_append_left _ hrow
    · exact huniq row' (hadopts row' hrow' _ had') had'

end

/-! ## A Core step that has nothing to do -/

/-- Everything of Core is applied, and everything else has its owner. -/
def Settled (core : Core) (db : Database) : Prop :=
  Owned core db ∧ ∀ m ∈ core, ∃ r ∈ db.sqlx, r.version = m.version

section

variable {sha384 : Bytes → Bytes} {core : Core} {fails : Op → Bool} {scanned : BundlesDir}
  {db : Database}

theorem Settled.missingOwners_eq_nil (h : Settled core db) :
    missingOwners core db.loadLedger db.appliedMigrations = [] := by
  unfold missingOwners
  rw [filter_eq_nil_iff]
  intro m hm hboth
  rw [Bool.and_eq_true, Bool.not_eq_true', Bool.not_eq_true', List.any_eq_false] at hboth
  rcases h.1 m (mem_appliedMigrations.1 hm) with ⟨hcore, -⟩ | ⟨-, row, hrow, hadopts, -⟩
  · rw [hboth.1] at hcore
    cases hcore
  · refine hboth.2 row (mem_loadLedger.2 hrow) ?_
    rw [Bool.and_eq_true, decide_eq_true_eq]
    exact hadopts

theorem Settled.unapplied_eq_nil (h : Settled core db) :
    core.unapplied db.appliedMigrations = [] := by
  unfold Core.unapplied
  rw [filter_eq_nil_iff]
  intro m hm hnone
  rw [Bool.not_eq_true', List.any_eq_false] at hnone
  obtain ⟨r, hr, hversion⟩ := h.2 m hm
  exact hnone r (mem_appliedMigrations.2 hr) (decide_eq_true hversion)

theorem migrateCoreLocked_of_settled (h : Settled core db) :
    Ensures (migrateCoreLocked sha384 core fails scanned) db (fun _ s => s = db) (· = db) := by
  refine Ensures.bind (ensures_planCore.mono ?_ fun _ hs => hs)
  rintro ⟨applied, adoptions⟩ s ⟨hs, hplan⟩
  subst hs
  change Planned core s applied adoptions at hplan
  obtain rfl := hplan.applied_eq
  obtain rfl : adoptions = [] := map_eq_nil_iff.1 (hplan.missing.trans h.missingOwners_eq_nil)
  refine Ensures.bind (ensures_pure ?_)
  rw [h.unapplied_eq_nil]
  exact ensures_pure rfl

end

/-! ## Packages that pass validation -/

/-- The migrations of a package of this bundle, as `resolve_migrations` orders them. -/
structure Resolved (bundleId : String) (resolved : List ResolvedMigration) : Prop where
  own : ∀ m ∈ resolved, m.bundleId = bundleId
  ids_nodup : (resolved.map (·.migrationId)).Nodup
  increasing : resolved.Pairwise fun m m' => m.revision < m'.revision

section

theorem ensureUnique_eq_ok {field : String} {seen values : List String}
    (h : ensureUnique field seen values = .ok ()) : values.Nodup ∧ ∀ v ∈ values, v ∉ seen := by
  induction values generalizing seen with
  | nil => exact ⟨.nil, nofun⟩
  | cons value values ih =>
    unfold ensureUnique at h
    split at h
    · cases h
    · rename_i hseen
      obtain ⟨hnodup, hfresh⟩ := ih h
      refine ⟨nodup_cons.2 ⟨fun hmem => ?_, hnodup⟩, ?_⟩
      · exact hfresh value hmem (mem_append_right _ (mem_singleton_self _))
      · rw [forall_mem_cons]
        exact ⟨hseen, fun v hv hmem => hfresh v hv (mem_append_left _ hmem)⟩

theorem validateMigrationsFrom_eq_ok {index : ℕ} {revisions : List ℕ} {legacyVersions : List ℤ}
    {migrations : List MigrationDescriptor}
    (h : validateMigrationsFrom index revisions legacyVersions migrations = .ok ()) :
    (migrations.map (·.revision)).Nodup ∧
      ∀ m ∈ migrations, m.revision ∉ revisions ∧ m.revision ≤ i64Max := by
  induction migrations generalizing index revisions legacyVersions with
  | nil => exact ⟨.nil, nofun⟩
  | cons migration migrations ih =>
    unfold validateMigrationsFrom at h
    dsimp only at h
    split at h
    · cases h
    · rename_i hrange
      split at h
      · cases h
      · rename_i hseen
        obtain ⟨legacyVersions', -, hrest⟩ := bind_eq_ok.1 h
        split at hrest
        · obtain ⟨hnodup, hall⟩ := ih hrest
          refine ⟨nodup_cons.2 ⟨fun hmem => ?_, hnodup⟩, ?_⟩
          · obtain ⟨m, hm, hrevision⟩ := List.mem_map.1 hmem
            refine (hall m hm).1 (mem_append_right _ ?_)
            exact mem_singleton.2 hrevision
          · rw [forall_mem_cons]
            refine ⟨⟨hseen, by omega⟩, fun m hm => ⟨fun hmem => ?_, (hall m hm).2⟩⟩
            exact (hall m hm).1 (mem_append_left _ hmem)
        · cases hrest

theorem toI64_of_le {n : ℕ} (h : n ≤ i64Max) : toI64 n = n := by
  unfold i64Max at h
  unfold toI64
  rw [BitVec.toInt_eq_toNat_cond, BitVec.toNat_ofNat]
  omega

variable {sha384 : Bytes → Bytes} {package : SignedInstalledPackage}

theorem resolveMigration_eq_ok {d : MigrationDescriptor} {r : ResolvedMigration}
    (h : resolveMigration sha384 package d = .ok r) :
    r.bundleId = package.manifest.bundleId ∧ r.migrationId = d.id ∧
      r.revision = toI64 d.revision := by
  unfold resolveMigration at h
  dsimp only at h
  split at h
  · cases h
  · split at h
    · cases h
    · split at h
      · cases h
      · split at h
        · cases h
        · cases h
          exact ⟨rfl, rfl, rfl⟩

theorem resolveAll_eq_ok {ds : List MigrationDescriptor} {rs : List ResolvedMigration}
    (h : resolveAll sha384 package ds = .ok rs) :
    (∀ r ∈ rs, r.bundleId = package.manifest.bundleId) ∧ rs.map (·.migrationId) = ds.map (·.id) ∧
      rs.map (·.revision) = ds.map fun d => toI64 d.revision := by
  induction ds generalizing rs with
  | nil =>
    cases h
    exact ⟨nofun, rfl, rfl⟩
  | cons d ds ih =>
    obtain ⟨r, hr, rest, hresolve, heq⟩ := bind₂_eq_ok.1 h
    cases heq
    obtain ⟨hbundle, hid, hrevision⟩ := resolveMigration_eq_ok hr
    obtain ⟨hbundles, hids, hrevisions⟩ := ih hresolve
    refine ⟨forall_mem_cons.2 ⟨hbundle, hbundles⟩, ?_, ?_⟩
    · rw [map_cons, map_cons, hid, hids]
    · rw [map_cons, map_cons, hrevision, hrevisions]

theorem load_eq_ok {dir : PackageDir} {id : String}
    (h : SignedInstalledPackage.load dir id = .ok package) :
    package.manifest.bundleId = id ∧ validateMigrations package.manifest.migrations = .ok () := by
  obtain ⟨⟨catalogId, catalogVersion⟩, -, h⟩ := bind_eq_ok.1 h
  dsimp only at h
  split at h
  · cases h
  · rename_i hid
    obtain ⟨package', -, h⟩ := bind_eq_ok.1 h
    split at h
    · cases h
    · rename_i hvalid
      split at h
      · cases h
      · rename_i hbundle
        split at h
        · cases h
        · cases h
          exact ⟨(not_not.1 hbundle).trans (not_not.1 hid), hvalid⟩

theorem resolved_of_load {installed : BundlesDir} {bundleId : String}
    {resolved : List ResolvedMigration} (hload : loadPackage installed bundleId = .ok package)
    (hresolve : resolveMigrations sha384 package = .ok resolved) : Resolved bundleId resolved := by
  have hpackage : package.manifest.bundleId = bundleId ∧
      validateMigrations package.manifest.migrations = .ok () := by
    unfold loadPackage at hload
    split at hload
    · cases hload
    · cases hload
    · split at hload
      · cases hload
      · rename_i dir hfind
        cases hdir : SignedInstalledPackage.load dir bundleId with
        | error error =>
          rw [hdir] at hload
          cases hload
        | ok package' =>
          rw [hdir] at hload
          cases hload
          exact load_eq_ok hdir
  obtain ⟨hbundle, hvalid⟩ := hpackage
  obtain ⟨_, hunique, hfrom⟩ := bind_eq_ok.1 hvalid
  obtain ⟨hrevisions, hall⟩ := validateMigrationsFrom_eq_ok hfrom
  unfold resolveMigrations at hresolve
  cases hrs : resolveAll sha384 package package.manifest.migrations with
  | error error =>
    rw [hrs] at hresolve
    cases hresolve
  | ok rs =>
    rw [hrs] at hresolve
    cases hresolve
    obtain ⟨hown, hids, hrev⟩ := resolveAll_eq_ok hrs
    have hperm : (sortBy compareRevision rs).Perm rs := sortBy_perm _ _
    refine ⟨fun m hm => ?_, ?_, ?_⟩
    · rw [hown m (hperm.mem_iff.1 hm), hbundle]
    · rw [(hperm.map _).nodup_iff, hids]
      exact (ensureUnique_eq_ok hunique).1
    · refine sortBy_pairwise_lt (fun _ _ => rfl) ?_
      have hcast : package.manifest.migrations.map (fun d => toI64 d.revision) =
          (package.manifest.migrations.map (·.revision)).map fun n : ℕ => (n : ℤ) := by
        rw [List.map_map]
        exact map_congr_left fun d hd => toI64_of_le (hall d hd).2
      rw [hrev, hcast]
      exact hrevisions.map fun _ _ => Int.ofNat_inj.1

end

/-! ## Calls -/

inductive Label
  | migrateCore (core : Core) (fails : Op → Bool) (scanned : BundlesDir)
  | applyBundle (core : Core) (fails : Op → Bool) (installed scanned : BundlesDir)
      (bundleId : String)

abbrev migrations (sha384 : Bytes → Bytes) : Machine Database Label where
  step db
    | .migrateCore core fails scanned => some (migrateCore sha384 core fails scanned db).2
    | .applyBundle core fails installed scanned bundleId =>
      some (applyBundle sha384 core fails installed scanned bundleId db).2

/-- `apply_bundle` up to the end of its Core step. -/
def coreStep (sha384 : Bytes → Bytes) (core : Core) (fails : Op → Bool)
    (installed scanned : BundlesDir) (bundleId : String) : Call CoreMigrationReport := do
  let _ ← Action.ofExcept ((BundleId.new bundleId).mapError fun error =>
    .config ("invalid Bundle id \"" ++ bundleId ++ "\": " ++ sdkErrorText error))
  let package ← Action.ofExcept (loadPackage installed bundleId)
  let _ ← Action.ofExcept ((resolveMigrations sha384 package).mapError ResolveError.lift)
  attempt fails .acquire
  attempt fails .lock
  migrateCoreLocked sha384 core fails scanned

/-- Core and the bundles claim no version in common, and a call that has done its work does not fail
at the unlock. -/
def Regular (sha384 : Bytes → Bytes) (db : Database) : Label → Prop
  | .migrateCore core _ _ => CoreFresh core db
  | .applyBundle core fails installed _ bundleId =>
    CoreFresh core db ∧ fails .unlock = false ∧
      ∀ package resolved, loadPackage installed bundleId = .ok package →
        resolveMigrations sha384 package = .ok resolved → BundleFresh core bundleId resolved db

/-- After a success of `migrate_core` every version has its owner; a failed `apply_bundle` leaves
the database of its Core step; and after a success the ledger has the package's migrations, and the
same call again changes nothing. -/
def Promises (sha384 : Bytes → Bytes) (db : Database) : Label → Prop
  | .migrateCore core fails scanned => ∀ report db',
      migrateCore sha384 core fails scanned db = (.ok report, db') → Owned core db'
  | .applyBundle core fails installed scanned bundleId =>
    (∀ error db', applyBundle sha384 core fails installed scanned bundleId db =
      (.error error, db') → (coreStep sha384 core fails installed scanned bundleId db).2 = db') ∧
    ∀ report db', applyBundle sha384 core fails installed scanned bundleId db = (.ok report, db') →
      Owned core db' ∧ ∃ package resolved, loadPackage installed bundleId = .ok package ∧
        resolveMigrations sha384 package = .ok resolved ∧ Recorded bundleId resolved db' ∧
        ∀ fails' scanned', (applyBundle sha384 core fails' installed scanned' bundleId db').2 = db'

section

variable {p : Prop} {sha384 : Bytes → Bytes} {core : Core} {fails : Op → Bool}
  {installed scanned : BundlesDir} {bundleId : String} {db : Database}

theorem ensures_locked {α : Type} {call : Call α} {Q : α → Database → Prop}
    {E : Database → Prop} (hcall : Ensures call db Q E) (hdb : E db) (hE : ∀ a s, Q a s → E s) :
    Ensures (locked fails call) db Q E := by
  refine Ensures.bind (ensures_attempt ?_ hdb)
  refine Ensures.bind (ensures_attempt ?_ hdb)
  refine Ensures.bind (hcall.mono (fun a s hs => ?_) fun _ hs => hs)
  refine Ensures.bind (ensures_attempt ?_ (hE a s hs))
  exact ensures_pure hs

theorem ensures_migrateCore (h : Inv p db) (hfresh : p → CoreFresh core db) :
    Ensures (migrateCore sha384 core fails scanned) db (fun _ s => CoreDone p core db s) (Inv p) :=
  ensures_locked (ensures_migrateCoreLocked h hfresh) h fun _ _ hs => hs.inv

/-- What `apply_bundle` leaves when it succeeds. -/
structure CallDone (p : Prop) (sha384 : Bytes → Bytes) (core : Core) (installed : BundlesDir)
    (bundleId : String) (db db' : Database) (resolved : List ResolvedMigration) : Prop where
  package : ∃ package, loadPackage installed bundleId = .ok package ∧
    resolveMigrations sha384 package = .ok resolved
  valid : Resolved bundleId resolved
  steps : ∃ db₁, CoreDone p core db db₁ ∧ BundleDone p bundleId resolved db₁ db'

theorem ensures_applyBundle (h : Inv p db) (hfresh : p → CoreFresh core db)
    (hbundle : p → ∀ package resolved, loadPackage installed bundleId = .ok package →
      resolveMigrations sha384 package = .ok resolved → BundleFresh core bundleId resolved db) :
    Ensures (applyBundle sha384 core fails installed scanned bundleId) db
      (fun _ s => ∃ resolved, CallDone p sha384 core installed bundleId db s resolved) (Inv p) := by
  refine Ensures.bind (ensures_ofExcept (fun _ _ => ?_) h)
  refine Ensures.bind (ensures_ofExcept (fun package hload => ?_) h)
  refine Ensures.bind (ensures_ofExcept (fun resolved hmap => ?_) h)
  have hresolve : resolveMigrations sha384 package = .ok resolved := by
    cases hr : resolveMigrations sha384 package with
    | error error =>
      rw [hr] at hmap
      cases hmap
    | ok resolved' =>
      rw [hr] at hmap
      cases hmap
      rfl
  have hlocked : Ensures (applyBundleLocked sha384 core fails scanned bundleId resolved) db
      (fun _ s => ∃ db₁, CoreDone p core db db₁ ∧ BundleDone p bundleId resolved db₁ s)
        (Inv p) := by
    refine Ensures.bind ((ensures_migrateCoreLocked h hfresh).mono (fun report db₁ hdone => ?_)
      fun _ hs => hs)
    have hpending : p → BundleFresh core bundleId resolved db₁ := fun hp m hm =>
      hbundle hp package resolved hload hresolve m (mem_pending_of_kept hdone.kept hm)
    refine (ensures_applyPending hdone.inv hdone.owned hpending).mono
      (fun _ s hs => ⟨db₁, hdone, hs⟩) ?_
    rintro _ rfl
    exact hdone.inv
  refine (ensures_locked hlocked h fun _ s hs => ?_).mono (fun _ s hs => ?_) fun _ hs => hs
  · obtain ⟨_, -, hdone⟩ := hs
    exact hdone.executed.inv
  · exact ⟨resolved, ⟨package, hload, hresolve⟩, resolved_of_load hload hresolve, hs⟩

variable {resolved : List ResolvedMigration}

theorem CallDone.settled {db' : Database}
    (h : CallDone p sha384 core installed bundleId db db' resolved) :
    Settled core db' ∧ AllMatch bundleId resolved db' := by
  obtain ⟨db₁, hcore, hbundle⟩ := h.steps
  refine ⟨⟨hbundle.executed.owned hcore.owned, fun m hm => ?_⟩,
    hbundle.allMatch h.valid.own h.valid.ids_nodup⟩
  rw [hbundle.executed.sqlx_eq]
  exact hcore.applied m hm

theorem applyBundle_of_settled {package : SignedInstalledPackage}
    (hload : loadPackage installed bundleId = .ok package)
    (hresolve : resolveMigrations sha384 package = .ok resolved) (hsettled : Settled core db)
    (hmatch : AllMatch bundleId resolved db) :
    (applyBundle sha384 core fails installed scanned bundleId db).2 = db := by
  have hlocked : Ensures (applyBundleLocked sha384 core fails scanned bundleId resolved) db
      (fun _ s => s = db) (· = db) := by
    refine Ensures.bind ((migrateCoreLocked_of_settled hsettled).mono (fun report s hs => ?_)
      fun _ hs => hs)
    subst hs
    exact applyPending_of_allMatch hmatch
  refine @Ensures.always _ _ _ _ _ (· = db) ?_
  refine Ensures.bind (ensures_ofExcept (fun _ _ => ?_) rfl)
  refine Ensures.bind (ensures_ofExcept (fun package' hload' => ?_) rfl)
  refine Ensures.bind (ensures_ofExcept (fun resolved' hresolve' => ?_) rfl)
  rw [hload] at hload'
  cases hload'
  rw [hresolve] at hresolve'
  cases hresolve'
  exact ensures_locked hlocked rfl fun _ _ hs => hs

theorem applyBundle_failsAs (hunlock : fails .unlock = false) :
    FailsAs (applyBundle sha384 core fails installed scanned bundleId)
      (coreStep sha384 core fails installed scanned bundleId) db := by
  refine FailsAs.bind_congr fun _ _ => ?_
  refine FailsAs.bind_congr fun _ _ => ?_
  refine FailsAs.bind_congr fun _ _ => ?_
  refine FailsAs.bind_congr fun _ _ => ?_
  refine FailsAs.bind_congr fun _ s => ?_
  refine FailsAs.bind_of_total (FailsAs.of_atomic fun _ _ => applyPending_atomic) fun _ s => ?_
  refine Ensures.bind ?_
  unfold attempt
  rw [hunlock]
  exact ensures_pure (ensures_pure trivial)

end

/-! ## Runs -/

section

variable {sha384 : Bytes → Bytes} {db db' : Database} {label : Label} {labels : List Label}

theorem Inv.step (h : Inv True db) (hregular : Regular sha384 db label)
    (hstep : (migrations sha384).step db label = some db') : Inv True db' := by
  cases label with
  | migrateCore core fails scanned =>
    cases hstep
    exact ((ensures_migrateCore h fun _ => hregular).mono
      (fun _ _ hs => hs.inv) fun _ hs => hs).always
  | applyBundle core fails installed scanned bundleId =>
    cases hstep
    refine ((ensures_applyBundle h (fun _ => hregular.1) fun _ => hregular.2.2).mono
      (fun _ s hs => ?_) fun _ hs => hs).always
    obtain ⟨resolved, hdone⟩ := hs
    obtain ⟨_, -, hbundle⟩ := hdone.steps
    exact hbundle.executed.inv

theorem Inv.promises (h : Inv True db) (hregular : Regular sha384 db label) :
    Promises sha384 db label := by
  cases label with
  | migrateCore core fails scanned =>
    intro report db' hcall
    exact ((ensures_migrateCore h fun _ => hregular).of_ok hcall).owned
  | applyBundle core fails installed scanned bundleId =>
    obtain ⟨hcore, hunlock, hbundle⟩ := hregular
    refine ⟨fun error db' hcall => applyBundle_failsAs hunlock error db' hcall, ?_⟩
    intro report db' hcall
    obtain ⟨resolved, hdone⟩ :=
      (ensures_applyBundle h (fun _ => hcore) fun _ => hbundle).of_ok hcall
    obtain ⟨hsettled, hmatch⟩ := hdone.settled
    obtain ⟨package, hload, hresolve⟩ := hdone.package
    exact ⟨hsettled.1, package, resolved, hload, hresolve, hmatch.recorded,
      fun _ _ => applyBundle_of_settled hload hresolve hsettled hmatch⟩

/-- In every run in which Core and the bundles claim no version in common, nothing is ever
executed twice and every call keeps its promises. -/
theorem once_and_promises (hdb : db.Historical)
    (hmeets : (migrations sha384).Meets (Regular sha384) db labels)
    (hrun : (migrations sha384).exec db labels = some db') :
    db'.Once ∧ ∀ label, Regular sha384 db' label → Promises sha384 db' label := by
  have hinv : Inv True db' := (migrations sha384).invariant_of_meets
    (fun _ _ _ hinv hregular hstep => hinv.step hregular hstep) hdb.inv hmeets hrun
  exact ⟨hinv.once trivial, fun label hregular => hinv.promises hregular⟩

end

/-! ## A version of Core that a bundle claims -/

def sampleSql : String := "CREATE TABLE notes ();"

def sampleSha256 : String := "969018e47d74d7eaa641b0457eb36ceb6ebeda6a6ae0b6e3dc60bda33ce4e9fd"

def sampleSha384 : Bytes → Bytes := fun _ =>
  [21, 53, 185, 140, 6, 137, 185, 186, 13, 92, 53, 155, 239, 180, 215, 98, 147, 237, 89, 31, 9, 61,
    237, 71, 111, 117, 73, 200, 199, 105, 133, 7, 71, 40, 204, 91, 213, 253, 239, 82, 24, 225, 110,
    135, 122, 160, 17, 93]

def sampleDir (migrations : List MigrationDescriptor) : BundlesDir :=
  .entries [{
    fileName := "notes"
    hasPackageToml := true
    catalog := .ok ("notes", "1.0.0")
    package := .ok {
      manifest := ⟨"notes", "1.0.0", migrations⟩
      verifiedAssetBytes := fun _ _ => .ok sampleSql.toUTF8.toList } }]

def sampleMigration (id : String) (revision : ℕ) (legacySqlxVersion : Option ℤ) :
    MigrationDescriptor :=
  ⟨id, revision, .schema, id ++ ".sql", sampleSha256, legacySqlxVersion⟩

def sampleHistory : Database := ⟨[⟨2, sampleSha384 [], true⟩], [], [.sqlx 2]⟩

def sampleApply (migrations : List MigrationDescriptor) : Label :=
  .applyBundle [⟨1, []⟩] (fun _ => false) (sampleDir migrations) (sampleDir migrations) "notes"

def sampleAdopter : List MigrationDescriptor :=
  [sampleMigration "tables" 1 (some 2), sampleMigration "index" 2 none]

theorem regular_sampleAdopter : Regular sampleSha384 sampleHistory (sampleApply sampleAdopter) := by
  refine ⟨?_, rfl, fun package resolved hload hresolve => ?_⟩
  · rintro m hm - row hrow
    cases hrow
  · have hpackage : loadPackage (sampleDir sampleAdopter) "notes" = .ok
        ⟨⟨"notes", "1.0.0", sampleAdopter⟩, fun _ _ => .ok sampleSql.toUTF8.toList⟩ := rfl
    rw [hpackage] at hload
    cases hload
    have hfresh : (resolveMigrations sampleSha384 ⟨⟨"notes", "1.0.0", sampleAdopter⟩,
        fun _ _ => .ok sampleSql.toUTF8.toList⟩).toOption.all fun resolved =>
          decide (BundleFresh [⟨1, []⟩] "notes" resolved sampleHistory) := by
      decide +kernel
    rw [hresolve] at hfresh
    exact of_decide_eq_true hfresh

theorem once_and_promises_sample :
    ∃ db, (migrations sampleSha384).exec sampleHistory [sampleApply sampleAdopter] = some db ∧
      db.log = [.sqlx 2, .sqlx 1, .bundle "notes" "index" 2 none] ∧ db.Once ∧
      ∀ label, Regular sampleSha384 db label → Promises sampleSha384 db label := by
  have hmeets : (migrations sampleSha384).Meets (Regular sampleSha384) sampleHistory
      [sampleApply sampleAdopter] := ⟨regular_sampleAdopter, fun _ _ => trivial⟩
  refine ⟨_, rfl, by decide +kernel, once_and_promises ⟨rfl, rfl, ?_⟩ hmeets rfl⟩
  exact nodup_singleton _

/-- Core applies version 1, and the bundle, which claims it, executes it again. -/
theorem not_once_of_shared_version :
    ¬ ∀ (sha384 : Bytes → Bytes) (db db' : Database) (labels : List Label), db.Historical →
      (migrations sha384).exec db labels = some db' → db'.Once := by
  intro h
  have hversions : (applyBundle sampleSha384 [⟨1, []⟩] (fun _ => false)
      (sampleDir [sampleMigration "tables" 1 (some 1)])
      (sampleDir [sampleMigration "tables" 1 (some 1)]) "notes" ⟨[], [], []⟩).2.versions =
        [1, 1] := by
    decide +kernel
  have honce := h sampleSha384 ⟨[], [], []⟩ _ [sampleApply [sampleMigration "tables" 1 (some 1)]]
    ⟨rfl, rfl, .nil⟩ rfl
  have hnodup := honce.2
  rw [hversions] at hnodup
  exact absurd hnodup (by decide)

end Gadgetron.Bundle.Migration
