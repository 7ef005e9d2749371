import Gadgetron.Bundle.Migration

/-!
# Every migration once

A version that SQLx has applied belongs to Core or has been adopted by one bundle, and the bundle
ledger keeps it from being executed again, unless Core and a bundle claim the same version.
-/

namespace Gadgetron.Bundle.Migration

open Lib Action List

namespace Execution

def key : Execution → Option (String × String)
  | .sqlx _ => none
  | .bundle bundleId migrationId _ _ => some (bundleId, migrationId)

def version : Execution → Option ℤ
  | .sqlx version => some version
  | .bundle _ _ _ legacySqlxVersion => legacySqlxVersion

end Execution

namespace Database

def keys (db : Database) : List (String × String) := db.log.filterMap Execution.key

def versions (db : Database) : List ℤ := db.log.filterMap Execution.version

/-- Nothing is in a ledger twice. -/
def Once (db : Database) : Prop := db.keys.Nodup ∧ db.versions.Nodup

/-- A database that only SQLx has migrated. -/
structure Historical (db : Database) : Prop where
  ledger_eq : db.ledger = []
  log_eq : db.log = db.sqlx.map fun m => .sqlx m.version
  nodup : (db.sqlx.map (·.version)).Nodup

end Database

def LedgerRow.Adopts (row : LedgerRow) (version : ℤ) : Prop :=
  row.adoptedFromSqlx = true ∧ row.legacySqlxVersion = some version

/-- Each version that SQLx has applied belongs to Core, or to one adopting row with its checksum,
and not to both. -/
def Owned (core : Core) (db : Database) : Prop :=
  ∀ m ∈ db.sqlx,
    (core.contains m.version = true ∧ ∀ row ∈ db.ledger, ¬ row.Adopts m.version) ∨
    (core.contains m.version = false ∧
      ∃ row ∈ db.ledger, row.Adopts m.version ∧ row.legacySqlxChecksum = some m.checksum ∧
        ∀ row' ∈ db.ledger, row'.Adopts m.version → row' = row)

def LedgerRow.Records (row : LedgerRow) (migration : ResolvedMigration) : Prop :=
  row.migrationId = migration.migrationId ∧ row.revision = migration.revision ∧
    row.path = migration.path ∧ row.contentSha256 = migration.contentSha256

/-- The ledger has just the migrations `resolved` of the bundle. -/
def Recorded (bundleId : String) (resolved : List ResolvedMigration) (db : Database) : Prop :=
  (∀ row ∈ db.ledger, row.bundleId = bundleId → ∃ m ∈ resolved, row.Records m) ∧
    ∀ m ∈ resolved, ∃ row ∈ db.ledger, row.bundleId = bundleId ∧ row.Records m

/-! ## The invariant -/

def LedgerRow.InLog (row : LedgerRow) (log : List Execution) : Prop :=
  (row.adoptedFromSqlx = true ∧ ∃ v, row.legacySqlxVersion = some v ∧ .sqlx v ∈ log) ∨
    .bundle row.bundleId row.migrationId row.revision row.legacySqlxVersion ∈ log

/-- What was executed is in one of the ledgers, and no legacy version is in the bundle ledger twice.
Where Core and the bundles share no version, nothing was executed twice. -/
structure Inv (p : Prop) (db : Database) : Prop where
  sqlx_nodup : (db.sqlx.map (·.version)).Nodup
  once : p → db.Once
  sqlx_log : ∀ v, .sqlx v ∈ db.log ↔ ∃ m ∈ db.sqlx, m.version = v
  log_row : ∀ b id revision legacy, .bundle b id revision legacy ∈ db.log →
    ∃ row ∈ db.ledger, row.bundleId = b ∧ row.migrationId = id ∧ row.revision = revision ∧
      row.legacySqlxVersion = legacy
  row_log : ∀ row ∈ db.ledger, row.InLog db.log
  legacy_unique : ∀ row ∈ db.ledger, ∀ row' ∈ db.ledger, ∀ v,
    row.legacySqlxVersion = some v → row'.legacySqlxVersion = some v → row = row'

theorem Database.Historical.inv {p : Prop} {db : Database} (h : db.Historical) : Inv p db := by
  have hkeys : db.keys = [] := by
    unfold Database.keys
    rw [h.log_eq, filterMap_map, filterMap_eq_nil_iff]
    exact fun _ _ => rfl
  have hversions : db.versions = db.sqlx.map (·.version) := by
    unfold Database.versions
    rw [h.log_eq, filterMap_map, ← filterMap_eq_map]
    rfl
  refine ⟨h.nodup, fun _ => ⟨?_, ?_⟩, fun v => ?_, fun b id revision legacy hmem => ?_, ?_, ?_⟩
  · rw [hkeys]
    exact .nil
  · rw [hversions]
    exact h.nodup
  · rw [h.log_eq]
    simp
  · rw [h.log_eq] at hmem
    simp at hmem
  · rw [h.ledger_eq]
    exact nofun
  · rw [h.ledger_eq]
    exact nofun

section

variable {p : Prop} {db : Database} {row : LedgerRow} {m : CoreMigration}

theorem LedgerRow.InLog.append (h : row.InLog db.log) (log : List Execution) :
    row.InLog (db.log ++ log) := by
  rcases h with ⟨hadopted, v, hv, hmem⟩ | hmem
  · exact .inl ⟨hadopted, v, hv, mem_append_left _ hmem⟩
  · exact .inr (mem_append_left _ hmem)

theorem Inv.exists_row_of_key (h : Inv p db) {k : String × String} (hk : k ∈ db.keys) :
    ∃ row ∈ db.ledger, (row.bundleId, row.migrationId) = k := by
  obtain ⟨e, he, hkey⟩ := mem_filterMap.1 hk
  cases e with
  | sqlx v => cases hkey
  | bundle b id revision legacy =>
    cases hkey
    obtain ⟨row, hrow, rfl, rfl, -⟩ := h.log_row b id revision legacy he
    exact ⟨row, hrow, rfl⟩

theorem Inv.owner_of_version (h : Inv p db) {v : ℤ} (hv : v ∈ db.versions) :
    (∃ m ∈ db.sqlx, m.version = v) ∨ ∃ row ∈ db.ledger, row.legacySqlxVersion = some v := by
  obtain ⟨e, he, hversion⟩ := mem_filterMap.1 hv
  cases e with
  | sqlx v' =>
    cases hversion
    exact .inl ((h.sqlx_log v).1 he)
  | bundle b id revision legacy =>
    obtain ⟨row, hrow, -, -, -, rfl⟩ := h.log_row b id revision legacy he
    exact .inr ⟨row, hrow, hversion⟩

theorem LedgerRow.fresh_of_admitted {ledger : List LedgerRow} : row.admitted ledger = true →
      (∀ r ∈ ledger, r.bundleId = row.bundleId → r.migrationId ≠ row.migrationId) ∧
      ∀ r ∈ ledger, ∀ v, r.legacySqlxVersion = some v → row.legacySqlxVersion ≠ some v := by
  intro h
  simp only [LedgerRow.admitted, Bool.and_eq_true, Bool.not_eq_true', List.any_eq_false,
    decide_eq_true_eq, not_and] at h
  obtain ⟨⟨⟨⟨⟨⟨hkey, -⟩, hlegacy⟩, -⟩, -⟩, -⟩, -⟩ := h
  refine ⟨hkey, fun r hr v hv hrow => hlegacy r hr ?_ ?_⟩
  · rw [hv]
    rfl
  · rw [hv, hrow]

theorem Inv.legacy_unique_append (h : Inv p db) (hrow : row.admitted db.ledger = true) :
    ∀ r ∈ db.ledger ++ [row], ∀ r' ∈ db.ledger ++ [row], ∀ v,
      r.legacySqlxVersion = some v → r'.legacySqlxVersion = some v → r = r' := by
  have hfresh := (LedgerRow.fresh_of_admitted hrow).2
  intro r hr r' hr' v hv hv'
  rcases mem_append.1 hr with hr | hr <;> rcases mem_append.1 hr' with hr' | hr'
  · exact h.legacy_unique r hr r' hr' v hv hv'
  · rw [mem_singleton.1 hr'] at hv'
    exact absurd hv' (hfresh r hr v hv)
  · rw [mem_singleton.1 hr] at hv
    exact absurd hv (hfresh r' hr' v hv')
  · rw [mem_singleton.1 hr, mem_singleton.1 hr']

theorem Inv.insert (h : Inv p db) (hrow : row.admitted db.ledger = true)
    (hlog : row.InLog db.log) : Inv p { db with ledger := db.ledger ++ [row] } := by
  refine ⟨h.sqlx_nodup, h.once, h.sqlx_log, fun b id revision legacy hmem => ?_, fun r hr => ?_,
    h.legacy_unique_append hrow⟩
  · obtain ⟨r, hr, heq⟩ := h.log_row b id revision legacy hmem
    exact ⟨r, mem_append_left _ hr, heq⟩
  · rcases mem_append.1 hr with hr | hr
    · exact h.row_log r hr
    · rw [mem_singleton.1 hr]
      exact hlog

theorem Inv.applyCore (h : Inv p db) (hsqlx : ∀ r ∈ db.sqlx, r.version ≠ m.version)
    (hledger : p → ∀ r ∈ db.ledger, r.legacySqlxVersion ≠ some m.version) : Inv p { db with
      sqlx := db.sqlx ++ [⟨m.version, m.checksum, true⟩]
      log := db.log ++ [.sqlx m.version] } := by
  have hnew : p → m.version ∉ db.versions := by
    intro hp hmem
    rcases h.owner_of_version hmem with ⟨r, hr, hv⟩ | ⟨r, hr, hv⟩
    · exact hsqlx r hr hv
    · exact hledger hp r hr hv
  refine ⟨?_, fun hp => ⟨?_, ?_⟩, fun v => ?_, fun b id revision legacy hmem => ?_,
    fun r hr => (h.row_log r hr).append _, h.legacy_unique⟩
  · rw [map_append, nodup_append]
    refine ⟨h.sqlx_nodup, nodup_singleton _, ?_⟩
    intro v hv v' hv' heq
    obtain ⟨r, hr, rfl⟩ := List.mem_map.1 hv
    rw [map_singleton, mem_singleton] at hv'
    exact hsqlx r hr (heq.trans hv')
  · simpa [Database.keys, filterMap_cons, Execution.key] using (h.once hp).1
  · have hversions : Database.versions { db with
        sqlx := db.sqlx ++ [⟨m.version, m.checksum, true⟩]
        log := db.log ++ [.sqlx m.version] } = db.versions ++ [m.version] := by
      simp [Database.versions, filterMap_append, Execution.version]
    rw [hversions, nodup_append]
    refine ⟨(h.once hp).2, nodup_singleton _, ?_⟩
    rintro v hv _ hv' rfl
    rw [mem_singleton] at hv'
    exact hnew hp (hv' ▸ hv)
  · have hcases := h.sqlx_log v
    simp only [mem_append, mem_singleton, Execution.sqlx.injEq] at hcases ⊢
    rw [hcases]
    constructor
    · rintro (⟨r, hr, hv⟩ | rfl)
      · exact ⟨r, .inl hr, hv⟩
      · exact ⟨_, .inr rfl, rfl⟩
    · rintro ⟨r, hr | rfl, hv⟩
      · exact .inl ⟨r, hr, hv⟩
      · exact .inr hv.symm
  · apply h.log_row b id revision legacy
    simpa using hmem

theorem Inv.execute (h : Inv p db) {migration : ResolvedMigration}
    (hrow : (migration.row false none).admitted db.ledger = true)
    (hsqlx : p → ∀ r ∈ db.sqlx, migration.legacySqlxVersion ≠ some r.version) : Inv p { db with
      ledger := db.ledger ++ [migration.row false none]
      log := db.log ++ [.bundle migration.bundleId migration.migrationId migration.revision
        migration.legacySqlxVersion] } := by
  obtain ⟨hkey, hlegacy⟩ := LedgerRow.fresh_of_admitted hrow
  refine ⟨h.sqlx_nodup, fun hp => ⟨?_, ?_⟩, fun v => ?_, fun b id revision legacy hmem => ?_,
    fun r hr => ?_, h.legacy_unique_append hrow⟩
  · have hkeys : (db.log ++ [Execution.bundle migration.bundleId migration.migrationId
        migration.revision migration.legacySqlxVersion]).filterMap Execution.key =
          db.keys ++ [(migration.bundleId, migration.migrationId)] := by
      simp [Database.keys, filterMap_append, Execution.key]
    unfold Database.keys
    rw [hkeys, nodup_append]
    refine ⟨(h.once hp).1, nodup_singleton _, ?_⟩
    rintro k hk _ hk' rfl
    rw [mem_singleton] at hk'
    obtain ⟨r, hr, hrk⟩ := h.exists_row_of_key hk
    obtain ⟨hbundle, hid⟩ := Prod.mk.inj (hrk.trans hk')
    exact hkey r hr hbundle hid
  · have hversions : (db.log ++ [Execution.bundle migration.bundleId migration.migrationId
        migration.revision migration.legacySqlxVersion]).filterMap Execution.version =
          db.versions ++ migration.legacySqlxVersion.toList := by
      cases hv : migration.legacySqlxVersion <;>
        simp [Database.versions, filterMap_append, Execution.version]
    unfold Database.versions
    rw [hversions, nodup_append]
    refine ⟨(h.once hp).2, ?_, ?_⟩
    · cases migration.legacySqlxVersion with
      | none => exact .nil
      | some v => exact nodup_singleton v
    · rintro v hv _ hv' rfl
      have hmigration : migration.legacySqlxVersion = some v := by simpa using hv'
      rcases h.owner_of_version hv with ⟨r, hr, hversion⟩ | ⟨r, hr, hversion⟩
      · exact hsqlx hp r hr (hversion ▸ hmigration)
      · exact hlegacy r hr v hversion hmigration
  · rw [← h.sqlx_log v]
    simp
  · rcases mem_append.1 hmem with hmem | hmem
    · obtain ⟨r, hr, heq⟩ := h.log_row b id revision legacy hmem
      exact ⟨r, mem_append_left _ hr, heq⟩
    · cases mem_singleton.1 hmem
      exact ⟨_, mem_append_right _ (mem_singleton_self _), rfl, rfl, rfl, rfl⟩
  · rcases mem_append.1 hr with hr | hr
    · exact (h.row_log r hr).append _
    · rw [mem_singleton.1 hr]
      exact .inr (mem_append_right _ (mem_singleton_self _))

end

/-! ## The Core step -/

section

variable {p : Prop} {sha384 : Bytes → Bytes} {core : Core} {fails : Op → Bool}
  {scanned : BundlesDir}
  {db db' : Database} {op : Op} {Q : Unit → Database → Prop} {E : Database → Prop}
  {applied : List AppliedMigration} {adoptions : List (ResolvedMigration × AppliedMigration)}

theorem mem_appliedMigrations {m : AppliedMigration} :
    m ∈ db.appliedMigrations ↔ m ∈ db.sqlx := mem_sortBy

variable {row : LedgerRow}

theorem mem_loadLedger : row ∈ db.loadLedger ↔ row ∈ db.ledger := mem_sortBy

theorem ensures_attempt (hQ : Q () db) (hE : E db) : Ensures (attempt fails op) db Q E := by
  unfold attempt
  split
  · exact ensures_fail hE
  · exact ensures_pure hQ

theorem ensures_insertLedgerRow {migration : ResolvedMigration} {adopted : Bool}
    {checksum : Option Bytes}
    (hQ : (migration.row adopted checksum).admitted db.ledger = true →
      Q () { db with ledger := db.ledger ++ [migration.row adopted checksum] })
    (hE : E db) : Ensures (insertLedgerRow fails op migration adopted checksum) db Q E := by
  refine Ensures.bind (ensures_attempt ?_ hE)
  unfold Ensures insertRow
  by_cases hrow : (migration.row adopted checksum).admitted db.ledger = true
  · rw [if_pos hrow]
    exact hQ hrow
  · rw [if_neg hrow]
    exact hE

structure Validated (applied : List AppliedMigration) (core : Core) (row : LedgerRow) (v : ℤ) :
    Prop where
  legacy_eq : row.legacySqlxVersion = some v
  not_core : core.contains v = false
  checksum_eq : ∃ m, applied.find? (·.version = v) = some m ∧
    row.legacySqlxChecksum = some m.checksum

theorem exists_validated (h : validateAdoption applied core row = .ok ()) :
    ∃ v, Validated applied core row v := by
  unfold validateAdoption at h
  split at h
  · cases h
  · rename_i v hv
    split at h
    · cases h
    · rename_i hcore
      split at h
      · cases h
      · rename_i m hm
        split at h
        · rename_i hchecksum
          exact ⟨v, hv, by simpa using hcore, m, hm, hchecksum⟩
        · cases h

theorem validated_of_adopts {ledger : List LedgerRow} {v : ℤ}
    (h : validateExistingAdoptions ledger applied core = .ok ()) (hrow : row ∈ ledger)
    (hadopts : row.Adopts v) : Validated applied core row v := by
  have hmem : row ∈ ledger.filter (·.adoptedFromSqlx) := List.mem_filter.2 ⟨hrow, hadopts.1⟩
  obtain ⟨v', hvalidated⟩ := exists_validated (forM_eq_ok.1 h row hmem)
  obtain rfl := Option.mem_unique hadopts.2 hvalidated.legacy_eq
  exact hvalidated

variable {candidates : List ResolvedMigration} {errors : List String}

theorem planAdoption_eq_ok {m : AppliedMigration} {adoption : ResolvedMigration × AppliedMigration}
    (h : planAdoption candidates errors m = .ok adoption) :
    adoption.2 = m ∧ adoption.1.legacySqlxVersion = some m.version := by
  unfold planAdoption at h
  dsimp only at h
  split at h
  · rename_i candidate hmatching
    cases h
    have hmem : candidate ∈ (candidates.filter (·.legacySqlxVersion = some m.version)).filter
        (·.sqlxChecksum = m.checksum) := by
      rw [hmatching]
      exact mem_singleton_self _
    rw [List.mem_filter, List.mem_filter] at hmem
    exact ⟨rfl, of_decide_eq_true hmem.1.2⟩
  · cases h
  · cases h

theorem planAdoptions_eq_ok {missing : List AppliedMigration}
    (h : planAdoptions candidates errors missing = .ok adoptions) :
    adoptions.map Prod.snd = missing ∧
      ∀ a ∈ adoptions, a.1.legacySqlxVersion = some a.2.version := by
  induction missing generalizing adoptions with
  | nil =>
    cases h
    exact ⟨rfl, nofun⟩
  | cons m missing ih =>
    obtain ⟨adoption, hadoption, rest, hplan, heq⟩ := bind₂_eq_ok.1 h
    cases heq
    obtain ⟨hsnd, hlegacy⟩ := planAdoption_eq_ok hadoption
    obtain ⟨hmap, hall⟩ := ih hplan
    refine ⟨by rw [map_cons, hsnd, hmap], ?_⟩
    rw [forall_mem_cons]
    exact ⟨hsnd ▸ hlegacy, hall⟩

/-- What `migrate_core` knows before it writes. -/
structure Planned (core : Core) (db : Database) (applied : List AppliedMigration)
    (adoptions : List (ResolvedMigration × AppliedMigration)) : Prop where
  applied_eq : applied = db.appliedMigrations
  valid : validateExistingAdoptions db.loadLedger applied core = .ok ()
  missing : adoptions.map Prod.snd = missingOwners core db.loadLedger applied
  legacy : ∀ a ∈ adoptions, a.1.legacySqlxVersion = some a.2.version

theorem Planned.mem_sqlx (h : Planned core db applied adoptions)
    {a : ResolvedMigration × AppliedMigration} (ha : a ∈ adoptions) : a.2 ∈ db.sqlx := by
  have hmissing : a.2 ∈ missingOwners core db.loadLedger applied := by
    rw [← h.missing]
    exact List.mem_map_of_mem ha
  have happlied : a.2 ∈ applied := mem_of_mem_filter hmissing
  rwa [h.applied_eq, mem_appliedMigrations] at happlied

theorem ensures_planCore : Ensures (planCore sha384 core fails scanned) db
      (fun plan db' => db' = db ∧ Planned core db plan.1 plan.2) (· = db) := by
  unfold planCore
  refine Ensures.bind (ensures_attempt ?_ rfl)
  refine Ensures.bind (ensures_attempt ?_ rfl)
  refine Ensures.bind (ensures_attempt ?_ rfl)
  refine Ensures.bind (ensures_read ?_)
  cases db.dirtyVersion with
  | some version => exact ensures_fail rfl
  | none =>
    refine Ensures.bind (ensures_attempt ?_ rfl)
    refine Ensures.bind (ensures_read ?_)
    refine Ensures.bind (ensures_ofExcept (fun _ _ => ?_) rfl)
    refine Ensures.bind (ensures_attempt ?_ rfl)
    refine Ensures.bind (ensures_read ?_)
    refine Ensures.bind (ensures_ofExcept (fun _ hvalid => ?_) rfl)
    refine Ensures.bind (ensures_ofExcept (fun adoptions hplan => ?_) rfl)
    obtain ⟨hmissing, hlegacy⟩ := planAdoptions_eq_ok hplan
    exact ensures_pure ⟨rfl, rfl, hvalid, hmissing, hlegacy⟩

structure Adopted (p : Prop) (core : Core) (db : Database) (applied : List AppliedMigration)
    (adoptions : List (ResolvedMigration × AppliedMigration)) (db' : Database) : Prop where
  inv : Inv p db'
  sqlx_eq : db'.sqlx = db.sqlx
  log_eq : db'.log = db.log
  ledger_eq : db'.ledger = db.ledger ++ adoptions.map fun a => a.1.row true (some a.2.checksum)
  valid : validateExistingAdoptions db'.loadLedger applied core = .ok ()

theorem ensures_adopt (h : Inv p db) (hplan : Planned core db applied adoptions) :
    Ensures (adopt core fails applied adoptions) db
      (fun _ db' => Adopted p core db applied adoptions db') (Inv p) := by
  unfold adopt
  by_cases hempty : adoptions.isEmpty
  · rw [if_pos hempty]
    rw [List.isEmpty_iff] at hempty
    subst hempty
    exact ensures_pure ⟨h, rfl, rfl, (append_nil _).symm, hplan.valid⟩
  · rw [if_neg hempty]
    refine Ensures.bind (Ensures.transaction ?_)
    refine Ensures.bind (ensures_attempt ?_ h)
    have hloop : Ensures (forM adoptions fun a =>
        insertLedgerRow fails (.insertAdoption a.2.version) a.1 true (some a.2.checksum)) db
        (fun _ s => Inv p s ∧ s.sqlx = db.sqlx ∧ s.log = db.log ∧ s.ledger = db.ledger ++
          adoptions.map fun a => a.1.row true (some a.2.checksum)) (fun _ => Inv p db) := by
      refine @ensures_forM _ Database (ResolvedMigration × AppliedMigration) _ _ _ _
        (fun done s => Inv p s ∧ s.sqlx = db.sqlx ∧ s.log = db.log ∧
        s.ledger = db.ledger ++ done.map fun a => a.1.row true (some a.2.checksum))
        ⟨h, rfl, rfl, (append_nil _).symm⟩ ?_
      rintro done a rest s hsplit ⟨hinv, hsqlx, hlog, hledger⟩
      have ha : a ∈ adoptions := by
        rw [hsplit]
        exact mem_append_right _ mem_cons_self
      have hexecuted : .sqlx a.2.version ∈ s.log := by
        rw [hlog]
        exact (h.sqlx_log _).2 ⟨a.2, hplan.mem_sqlx ha, rfl⟩
      refine ensures_insertLedgerRow (fun hrow => ?_) h
      refine ⟨hinv.insert hrow (.inl ⟨rfl, _, hplan.legacy a ha, hexecuted⟩), hsqlx, hlog, ?_⟩
      rw [map_append, ← List.append_assoc, ← hledger]
      rfl
    refine Ensures.bind (hloop.mono (fun _ s hs => ?_) fun _ hdb => hdb)
    obtain ⟨hinv, hsqlx, hlog, hledger⟩ := hs
    refine ensures_attempt ?_ h
    refine Ensures.bind (ensures_attempt ?_ hinv)
    refine Ensures.bind (ensures_read ?_)
    exact ensures_ofExcept (fun _ hvalid => ⟨hinv, hsqlx, hlog, hledger, hvalid⟩) hinv

theorem Adopted.owned (h : Adopted p core db applied adoptions db')
    (hplan : Planned core db applied adoptions) : Owned core db' := by
  intro m hm
  have happlied : m ∈ applied := by
    rw [hplan.applied_eq, mem_appliedMigrations, ← h.sqlx_eq]
    exact hm
  by_cases hcore : core.contains m.version = true
  · refine .inl ⟨hcore, fun row hrow hadopts => ?_⟩
    have hvalidated := validated_of_adopts h.valid (mem_loadLedger.2 hrow) hadopts
    rw [hvalidated.not_core] at hcore
    cases hcore
  · rw [Bool.not_eq_true] at hcore
    have howner : ∃ row ∈ db'.ledger, row.Adopts m.version := by
      rw [h.ledger_eq]
      by_cases hadopted : ∃ row ∈ db.ledger, row.Adopts m.version
      · obtain ⟨row, hrow, hadopts⟩ := hadopted
        exact ⟨row, mem_append_left _ hrow, hadopts⟩
      · have hmissing : m ∈ missingOwners core db.loadLedger applied := by
          unfold missingOwners
          rw [List.mem_filter, hcore, Bool.not_false, Bool.true_and, Bool.not_eq_true',
            List.any_eq_false]
          refine ⟨happlied, fun row hrow hboth => hadopted ⟨row, mem_loadLedger.1 hrow, ?_⟩⟩
          rw [Bool.and_eq_true, decide_eq_true_eq] at hboth
          exact hboth
        rw [← hplan.missing] at hmissing
        obtain ⟨a, ha, rfl⟩ := List.mem_map.1 hmissing
        refine ⟨_, mem_append_right _ (List.mem_map_of_mem ha), rfl, ?_⟩
        exact hplan.legacy a ha
    obtain ⟨row, hrow, hadopts⟩ := howner
    obtain ⟨m', hfind, hchecksum⟩ :=
      (validated_of_adopts h.valid (mem_loadLedger.2 hrow) hadopts).checksum_eq
    have hm' : m' ∈ db'.sqlx := by
      rw [h.sqlx_eq, ← mem_appliedMigrations, ← hplan.applied_eq]
      exact mem_of_find?_eq_some hfind
    have hversion : m'.version = m.version := by simpa using find?_some hfind
    obtain rfl := inj_on_of_nodup_map h.inv.sqlx_nodup hm' hm hversion
    refine .inr ⟨hcore, row, hrow, hadopts, hchecksum, fun row' hrow' hadopts' => ?_⟩
    exact h.inv.legacy_unique row' hrow' row hrow _ hadopts'.2 hadopts.2

/-- No bundle has executed a version that Core has still to apply. -/
def CoreFresh (core : Core) (db : Database) : Prop :=
  ∀ m ∈ core, (∀ r ∈ db.sqlx, r.version ≠ m.version) →
    ∀ row ∈ db.ledger, row.legacySqlxVersion ≠ some m.version

/-- What `migrate_core` leaves when it succeeds. -/
structure CoreDone (p : Prop) (core : Core) (db db' : Database) : Prop where
  inv : Inv p db'
  owned : Owned core db'
  applied : ∀ m ∈ core, ∃ r ∈ db'.sqlx, r.version = m.version
  kept : ∀ row ∈ db.ledger, row ∈ db'.ledger
  log_eq : ∃ versions : List ℤ, (∀ v ∈ versions, core.contains v = true) ∧
    db'.log = db.log ++ versions.map Execution.sqlx

theorem ensures_applyCore {unapplied : List CoreMigration} (h : Inv p db)
    (hfresh : p → ∀ m ∈ unapplied, ∀ row ∈ db.ledger, row.legacySqlxVersion ≠ some m.version) :
    Ensures (forM unapplied (applyCoreMigration fails)) db
      (fun _ s => Inv p s ∧ s.ledger = db.ledger ∧
        s.sqlx = db.sqlx ++ unapplied.map (fun m => ⟨m.version, m.checksum, true⟩) ∧
        s.log = db.log ++ (unapplied.map (·.version)).map Execution.sqlx) (Inv p) := by
  refine @ensures_forM _ Database CoreMigration _ _ _ _ (fun done s => Inv p s ∧
    s.ledger = db.ledger ∧ s.sqlx = db.sqlx ++ done.map (fun m => ⟨m.version, m.checksum, true⟩) ∧
    s.log = db.log ++ (done.map (·.version)).map Execution.sqlx)
    ⟨h, rfl, (append_nil _).symm, (append_nil _).symm⟩ ?_
  rintro done m rest s hsplit ⟨hinv, hledger, hsqlx, hlog⟩
  refine Ensures.bind (ensures_attempt ?_ hinv)
  unfold Ensures
  by_cases hany : s.sqlx.any (·.version = m.version) = true
  · dsimp only
    rw [if_pos hany]
    exact hinv
  · dsimp only
    rw [if_neg hany]
    have hne : ∀ r ∈ s.sqlx, r.version ≠ m.version := by
      rw [Bool.not_eq_true, List.any_eq_false] at hany
      exact fun r hr heq => hany r hr (decide_eq_true heq)
    have hm : m ∈ unapplied := by
      rw [hsplit]
      exact mem_append_right _ mem_cons_self
    refine ⟨hinv.applyCore hne (by rw [hledger]; exact fun hp => hfresh hp m hm), hledger, ?_, ?_⟩
    · dsimp only
      rw [hsqlx, map_append, List.append_assoc]
      rfl
    · dsimp only
      rw [hlog, map_append, map_append, List.append_assoc]
      rfl

theorem Owned.append {new : List AppliedMigration} (h : Owned core db)
    (hvalid : ∀ row ∈ db.ledger, ∀ v, row.Adopts v → core.contains v = false)
    (hnew : ∀ m ∈ new, core.contains m.version = true)
    (hledger : db'.ledger = db.ledger) (hsqlx : db'.sqlx = db.sqlx ++ new) : Owned core db' := by
  intro m hm
  rw [hsqlx, mem_append] at hm
  rw [hledger]
  rcases hm with hm | hm
  · exact h m hm
  · refine .inl ⟨hnew m hm, fun row hrow hadopts => ?_⟩
    have hcore := hvalid row hrow _ hadopts
    rw [hnew m hm] at hcore
    cases hcore

variable {m : CoreMigration}

theorem Core.contains_of_mem (h : m ∈ core) : core.contains m.version = true :=
  List.any_eq_true.2 ⟨m, h, decide_eq_true rfl⟩

section

variable (h : Adopted p core db applied adoptions db') (hplan : Planned core db applied adoptions)
include h hplan

theorem Adopted.unapplied (hm : m ∈ core.unapplied applied) :
    m ∈ core ∧ ∀ r ∈ db'.sqlx, r.version ≠ m.version := by
  unfold Core.unapplied at hm
  rw [List.mem_filter, Bool.not_eq_true', List.any_eq_false] at hm
  refine ⟨hm.1, fun r hr heq => hm.2 r ?_ (decide_eq_true heq)⟩
  rw [hplan.applied_eq, mem_appliedMigrations, ← h.sqlx_eq]
  exact hr

theorem Adopted.fresh (hfresh : CoreFresh core db)
    (hm : m ∈ core.unapplied applied) :
    ∀ row ∈ db'.ledger, row.legacySqlxVersion ≠ some m.version := by
  intro row hrow hlegacy
  obtain ⟨hcore, hne⟩ := h.unapplied hplan hm
  rw [h.ledger_eq, mem_append] at hrow
  rcases hrow with hrow | hrow
  · exact hfresh m hcore (h.sqlx_eq ▸ hne) row hrow hlegacy
  · obtain ⟨a, ha, rfl⟩ := List.mem_map.1 hrow
    have hversion : a.2.version = m.version :=
      Option.mem_unique (hplan.legacy a ha) hlegacy
    exact hne a.2 (h.sqlx_eq ▸ hplan.mem_sqlx ha) hversion

end

theorem Adopted.done {db₁ db₂ : Database} (h : Adopted p core db applied adoptions db₁)
    (hplan : Planned core db applied adoptions) (hinv : Inv p db₂)
    (hledger : db₂.ledger = db₁.ledger)
    (hsqlx : db₂.sqlx =
      db₁.sqlx ++ (core.unapplied applied).map fun m => ⟨m.version, m.checksum, true⟩)
    (hlog : db₂.log = db₁.log ++ ((core.unapplied applied).map (·.version)).map Execution.sqlx) :
    CoreDone p core db db₂ := by
  refine ⟨hinv, ?_, fun m hm => ?_, fun row hrow => ?_, ?_⟩
  · refine (h.owned hplan).append (fun row hrow v hadopts => ?_) (fun m hm => ?_) hledger hsqlx
    · exact (validated_of_adopts h.valid (mem_loadLedger.2 hrow) hadopts).not_core
    · obtain ⟨c, hc, rfl⟩ := List.mem_map.1 hm
      exact Core.contains_of_mem (h.unapplied hplan hc).1
  · rw [hsqlx]
    by_cases happlied : applied.any (·.version = m.version) = true
    · obtain ⟨r, hr, hversion⟩ := List.any_eq_true.1 happlied
      rw [hplan.applied_eq, mem_appliedMigrations, ← h.sqlx_eq] at hr
      exact ⟨r, mem_append_left _ hr, of_decide_eq_true hversion⟩
    · have hmem : m ∈ core.unapplied applied := List.mem_filter.2 ⟨hm, by simpa using happlied⟩
      exact ⟨_, mem_append_right _ (List.mem_map_of_mem hmem), rfl⟩
  · rw [hledger, h.ledger_eq]
    exact mem_append_left _ hrow
  · refine ⟨_, fun v hv => ?_, by rw [hlog, h.log_eq]⟩
    obtain ⟨c, hc, rfl⟩ := List.mem_map.1 hv
    exact Core.contains_of_mem (h.unapplied hplan hc).1

theorem ensures_migrateCoreLocked (h : Inv p db) (hfresh : p → CoreFresh core db) :
    Ensures (migrateCoreLocked sha384 core fails scanned) db (fun _ db' => CoreDone p core db db')
      (Inv p) := by
  refine Ensures.bind (ensures_planCore.mono ?_ ?_)
  · rintro ⟨applied, adoptions⟩ db' ⟨hdb, hplan⟩
    subst hdb
    refine Ensures.bind ((ensures_adopt h hplan).mono (fun _ db₁ hadopted => ?_) fun _ hinv => hinv)
    refine Ensures.bind ((ensures_applyCore hadopted.inv fun hp m hm =>
      hadopted.fresh hplan (hfresh hp) hm).mono (fun _ db₂ hdone => ?_) fun _ hinv => hinv)
    obtain ⟨hinv, hledger, hsqlx, hlog⟩ := hdone
    exact ensures_pure (hadopted.done hplan hinv hledger hsqlx hlog)
  · rintro _ rfl
    exact h

end

end Gadgetron.Bundle.Migration
