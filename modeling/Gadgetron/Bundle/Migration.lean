import Gadgetron.Bundle.Dependency
import Gadgetron.Lib.Text
import Gadgetron.Lib.Transaction

/-!
# The migrations of Core and of the bundles

`gadgetron-bundle-migrations`. Core's schema is in SQLx's ledger, and the schema of the bundles in a
ledger of their own.
-/

namespace Gadgetron.Bundle.Migration

open Lib

abbrev Bytes := List UInt8

/-! ## Packages -/

inductive MigrationKind
  | schema
  | index
  | data

structure MigrationDescriptor where
  id : String
  revision : ℕ
  kind : MigrationKind
  (path sha256 : String)
  legacySqlxVersion : Option ℤ

structure BundleManifest where
  (bundleId bundleVersion : String)
  migrations : List MigrationDescriptor

def i64Max : ℕ := 2 ^ 63 - 1

def ensureUnique (field : String) (seen : List String) : List String → Except BundleSdkError Unit
  | [] => .ok ()
  | value :: values =>
    if value ∈ seen then
      .error (.invalidManifest field ("duplicate value \"" ++ value ++ "\""))
    else ensureUnique field (seen ++ [value]) values

/-- The loop of `CapabilityManifest::validate` over the migrations. -/
def validateMigrationsFrom (index : ℕ) (revisions : List ℕ) (legacyVersions : List ℤ) :
    List MigrationDescriptor → Except BundleSdkError Unit
  | [] => .ok ()
  | migration :: migrations =>
    let item := "capabilities.migrations[" ++ toString index ++ "]"
    if migration.revision = 0 ∨ i64Max < migration.revision then
      .error (.invalidManifest (item ++ ".revision") "revision must be in 1..=i64::MAX")
    else if migration.revision ∈ revisions then
      .error (.invalidManifest "capabilities.migrations[].revision"
        ("duplicate revision " ++ toString migration.revision))
    else
      let legacy : Except BundleSdkError (List ℤ) :=
        match migration.legacySqlxVersion with
        | none => .ok legacyVersions
        | some version =>
          if version ≤ 0 then
            .error (.invalidManifest (item ++ ".legacy_sqlx_version")
              "legacy SQLx versions must be positive")
          else if version ∈ legacyVersions then
            .error (.invalidManifest "capabilities.migrations[].legacy_sqlx_version"
              ("duplicate legacy SQLx version " ++ toString version))
          else .ok (legacyVersions ++ [version])
      legacy >>= fun legacyVersions =>
        if (validateSha256 migration.sha256).isOk then
          validateMigrationsFrom (index + 1) (revisions ++ [migration.revision]) legacyVersions
            migrations
        else
          .error (.invalidManifest (item ++ ".sha256")
            "must be a 64-character lowercase hexadecimal SHA-256 digest")

/-- What `CapabilityManifest::validate` asks of the migrations. -/
def validateMigrations (migrations : List MigrationDescriptor) : Except BundleSdkError Unit :=
  ensureUnique "capabilities.migrations[].id" [] (migrations.map (·.id)) >>= fun _ =>
    validateMigrationsFrom 0 [] [] migrations

/-- `SignedInstalledPackage`, with `verified_asset_bytes` as the files below its root give it. -/
structure SignedInstalledPackage where
  manifest : BundleManifest
  verifiedAssetBytes : (path sha256 : String) → Except String Bytes

/-- An entry of the directory of installed packages, with what is readable and signed in it. -/
structure PackageDir where
  fileName : String
  hasPackageToml : Bool
  catalog : Except String (String × String)
  package : Except String SignedInstalledPackage

inductive BundlesDir
  | unconfigured
  | unreadable (root : String)
  | entries (dirs : List PackageDir)

/-! ## Errors and operations -/

inductive Op
  | acquire
  | lock
  | ensureMigrationsTable
  | ledgerDdl
  | dirtyVersion
  | listAppliedMigrations
  | loadLedger
  | beginAdoptions
  | insertAdoption (version : ℤ)
  | commitAdoptions
  | reloadLedger
  | applyCore (version : ℤ)
  | loadExisting
  | beginBundle
  | execute (migrationId : String)
  | insert (migrationId : String)
  | commitBundle
  | unlock

/-- Why a version that SQLx has applied has no owner. -/
inductive NoAdopter
  /-- `signed adopter checksum mismatch from ..`. -/
  | checksumMismatch (bundleIds : List String)
  /-- `stage the signed Bundle compatibility package before upgrade`. -/
  | stagePackage
  /-- `installed package errors: ..`. -/
  | packageErrors (errors : List String)

inductive BundleMigrationError
  | config (detail : String)
  | package (detail : String)
  /-- `Sqlx` and `Migrate`. -/
  | database (op : Op)
  | coreChecksumMismatch (version : ℤ)
  | missingLegacyAdopter (version : ℤ) (detail : NoAdopter)
  | ambiguousLegacyAdopter (version : ℤ) (owners : List String)
  | ownership (detail : String)
  | historyDrift (bundleId detail : String)
  | nonTransactional (bundleId migrationId : String)

def sdkErrorText : BundleSdkError → String
  | .invalidIdentifier kind value reason =>
    "invalid " ++ kind ++ " \"" ++ value ++ "\": " ++ reason
  | .invalidManifest field reason => "invalid package manifest at " ++ field ++ ": " ++ reason

namespace SignedInstalledPackage

def installedPackage {α : Type} (detail : String) : Except String α :=
  .error ("installed Bundle package is invalid: " ++ detail)

def load (dir : PackageDir) (expectedId : String) : Except String SignedInstalledPackage :=
  dir.catalog >>= fun (catalogId, catalogVersion) =>
    if catalogId ≠ expectedId then
      installedPackage ("directory id \"" ++ expectedId ++ "\" does not match catalog id \"" ++
        catalogId ++ "\"")
    else
      dir.package >>= fun package =>
        match validateMigrations package.manifest.migrations with
        | .error error =>
          .error ("Bundle package contract failed validation: " ++ sdkErrorText error)
        | .ok () =>
          if package.manifest.bundleId ≠ catalogId then
            installedPackage ("package id \"" ++ package.manifest.bundleId ++
              "\" does not match catalog id \"" ++ catalogId ++ "\"")
          else if package.manifest.bundleVersion ≠ catalogVersion then
            installedPackage ("package version \"" ++ package.manifest.bundleVersion ++
              "\" does not match catalog version \"" ++ catalogVersion ++ "\"")
          else .ok package

end SignedInstalledPackage

/-! ## Resolved migrations -/

structure ResolvedMigration where
  (bundleId bundleVersion migrationId : String)
  revision : ℤ
  (kind path : String)
  (contentSha256 sqlxChecksum : Bytes)
  legacySqlxVersion : Option ℤ
  sql : String

def migrationKindName : MigrationKind → String
  | .schema => "schema"
  | .index => "index"
  | .data => "data"

def toI64 (n : ℕ) : ℤ := (BitVec.ofNat 64 n).toInt

def hexDigit (c : Char) : Option UInt8 :=
  if c.isDigit then some (c.toNat - '0'.toNat).toUInt8
  else if 'a' ≤ c ∧ c ≤ 'f' then some (c.toNat - 'a'.toNat + 10).toUInt8
  else if 'A' ≤ c ∧ c ≤ 'F' then some (c.toNat - 'A'.toNat + 10).toUInt8
  else none

/-- `hex::decode`. -/
def hexDecode : List Char → Option Bytes
  | [] => some []
  | [_] => none
  | high :: low :: digits => do
    let high ← hexDigit high
    let low ← hexDigit low
    let rest ← hexDecode digits
    return (high * 16 + low) :: rest

inductive ResolveError
  | config (detail : String)
  | package (detail : String)

namespace ResolveError

def text : ResolveError → String
  | config detail => "Bundle migration configuration is invalid: " ++ detail
  | package detail => "signed Bundle package validation failed: " ++ detail

def lift : ResolveError → BundleMigrationError
  | config detail => .config detail
  | package detail => .package detail

end ResolveError

section

variable (sha384 : Bytes → Bytes)

def resolveMigration (package : SignedInstalledPackage) (descriptor : MigrationDescriptor) :
    Except ResolveError ResolvedMigration :=
  let manifest := package.manifest
  let name := "Bundle \"" ++ manifest.bundleId ++ "\" migration \"" ++ descriptor.id ++ "\""
  match package.verifiedAssetBytes descriptor.path descriptor.sha256 with
  | .error error => .error (.package error)
  | .ok bytes =>
    match String.fromUTF8? ⟨bytes.toArray⟩ with
    | none => .error (.config (name ++ " is not UTF-8 SQL"))
    | some sql =>
      if (trim sql).isEmpty then .error (.config (name ++ " is empty"))
      else
        match hexDecode descriptor.sha256.toList with
        | none => .error (.config "invalid signed SHA-256")
        | some contentSha256 =>
          .ok {
            bundleId := manifest.bundleId
            bundleVersion := manifest.bundleVersion
            migrationId := descriptor.id
            revision := toI64 descriptor.revision
            kind := migrationKindName descriptor.kind
            path := descriptor.path
            contentSha256
            sqlxChecksum := sha384 bytes
            legacySqlxVersion := descriptor.legacySqlxVersion
            sql }

def resolveAll (package : SignedInstalledPackage) :
    List MigrationDescriptor → Except ResolveError (List ResolvedMigration)
  | [] => .ok []
  | descriptor :: descriptors =>
    resolveMigration sha384 package descriptor >>= fun migration =>
      resolveAll package descriptors >>= fun migrations => .ok (migration :: migrations)

def compareRevision (a b : ResolvedMigration) : Ordering := compare a.revision b.revision

def resolveMigrations (package : SignedInstalledPackage) :
    Except ResolveError (List ResolvedMigration) :=
  (resolveAll sha384 package package.manifest.migrations).map (sortBy compareRevision)

end

/-! ## The database -/

structure AppliedMigration where
  version : ℤ
  checksum : Bytes
  success : Bool

structure CoreMigration where
  version : ℤ
  checksum : Bytes

/-- What the code reads of a row of `gadgetron_bundle_migrations`. -/
structure LedgerRow where
  (bundleId migrationId : String)
  revision : ℤ
  (kind path : String)
  contentSha256 : Bytes
  legacySqlxVersion : Option ℤ
  legacySqlxChecksum : Option Bytes
  adoptedFromSqlx : Bool

inductive Execution
  | sqlx (version : ℤ)
  | bundle (bundleId migrationId : String) (revision : ℤ) (legacySqlxVersion : Option ℤ)
  deriving DecidableEq

/-- The two ledgers, and the executions that were committed. -/
structure Database where
  sqlx : List AppliedMigration
  ledger : List LedgerRow
  log : List Execution

/-- The constraints of `LEDGER_DDL`. -/
def LedgerRow.admitted (row : LedgerRow) (ledger : List LedgerRow) : Bool :=
  !(ledger.any fun r => r.bundleId = row.bundleId && r.migrationId = row.migrationId) &&
  !(ledger.any fun r => r.bundleId = row.bundleId && r.revision = row.revision) &&
  !(ledger.any fun r => r.legacySqlxVersion.isSome && r.legacySqlxVersion = row.legacySqlxVersion)
    &&
  decide (0 < row.revision) && ["schema", "index", "data"].contains row.kind &&
  row.contentSha256.length = 32 &&
  ((row.legacySqlxVersion.isNone && row.legacySqlxChecksum.isNone && !row.adoptedFromSqlx) ||
    (row.legacySqlxVersion.isSome && row.legacySqlxChecksum.isSome))

namespace Database

def appliedMigrations (db : Database) : List AppliedMigration :=
  sortBy (fun a b => compare a.version b.version) db.sqlx

def dirtyVersion (db : Database) : Option ℤ :=
  (db.appliedMigrations.find? fun m => !m.success).map (·.version)

def loadLedger (db : Database) : List LedgerRow :=
  sortBy (fun a b => (compare a.bundleId b.bundleId).then (compare a.revision b.revision)) db.ledger

end Database

abbrev Call (α : Type) := Action BundleMigrationError Database α

def attempt (fails : Op → Bool) (op : Op) : Call Unit :=
  if fails op then .fail (.database op) else pure ()

def insertRow (op : Op) (row : LedgerRow) : Call Unit := fun db =>
  if row.admitted db.ledger then (.ok (), { db with ledger := db.ledger ++ [row] })
  else (.error (.database op), db)

/-- The row that `insert_ledger_row` inserts. -/
def ResolvedMigration.row (migration : ResolvedMigration) (adoptedFromSqlx : Bool)
    (adoptedChecksum : Option Bytes) : LedgerRow where
  bundleId := migration.bundleId
  migrationId := migration.migrationId
  revision := migration.revision
  kind := migration.kind
  path := migration.path
  contentSha256 := migration.contentSha256
  legacySqlxVersion := migration.legacySqlxVersion
  legacySqlxChecksum :=
    if migration.legacySqlxVersion.isSome then
      some (adoptedChecksum.getD migration.sqlxChecksum)
    else none
  adoptedFromSqlx := adoptedFromSqlx

def insertLedgerRow (fails : Op → Bool) (op : Op) (migration : ResolvedMigration)
    (adoptedFromSqlx : Bool) (adoptedChecksum : Option Bytes) : Call Unit :=
  attempt fails op >>= fun _ => insertRow op (migration.row adoptedFromSqlx adoptedChecksum)

/-! ## Core -/

/-- Core's part of a `BundleMigrationManager`. -/
abbrev Core := List CoreMigration

def Core.contains (core : Core) (version : ℤ) : Bool := core.any (·.version = version)

def Core.unapplied (core : Core) (applied : List AppliedMigration) : List CoreMigration :=
  core.filter fun m => !applied.any (·.version = m.version)

structure CoreMigrationReport where
  (coreApplied legacyAdopted : ℕ)

/-- The comparison of Core's checksums with those that SQLx has applied. -/
def checkCoreChecksums (core : Core) (applied : List AppliedMigration) :
    Except BundleMigrationError Unit :=
  forM core fun migration =>
    match applied.find? (·.version = migration.version) with
    | some m =>
      if migration.checksum = m.checksum then .ok ()
      else .error (.coreChecksumMismatch migration.version)
    | none => .ok ()

/-- What `validate_existing_adoptions` asks of an adopted row. -/
def validateAdoption (applied : List AppliedMigration) (core : Core) (row : LedgerRow) :
    Except BundleMigrationError Unit :=
  match row.legacySqlxVersion with
  | none =>
    .error (.ownership ("adopted row " ++ row.bundleId ++ ":" ++ row.migrationId ++
      " has no legacy SQLx version"))
  | some version =>
    if core.contains version then
      .error (.ownership ("SQLx version " ++ toString version ++
        " is owned by both Core and Bundle " ++ row.bundleId))
    else
      match applied.find? (·.version = version) with
      | none =>
        .error (.ownership ("adopted Bundle migration " ++ row.bundleId ++ ":" ++
          row.migrationId ++ " references absent SQLx version " ++ toString version))
      | some m =>
        if row.legacySqlxChecksum = some m.checksum then .ok ()
        else
          .error (.ownership ("adopted SQLx version " ++ toString version ++
            " checksum drift for Bundle " ++ row.bundleId))

def validateExistingAdoptions (ledger : List LedgerRow) (applied : List AppliedMigration)
    (core : Core) : Except BundleMigrationError Unit :=
  forM (ledger.filter (·.adoptedFromSqlx)) (validateAdoption applied core)

/-- The applied versions that neither Core has nor a bundle has adopted. -/
def missingOwners (core : Core) (ledger : List LedgerRow) (applied : List AppliedMigration) :
    List AppliedMigration :=
  applied.filter fun m => !core.contains m.version &&
    !ledger.any fun row => row.adoptedFromSqlx && row.legacySqlxVersion = some m.version

section

variable (sha384 : Bytes → Bytes)

/-- What `scan_adoption_candidates` does with an entry of the directory. -/
def scanEntry (dir : PackageDir) : List ResolvedMigration × List String :=
  let id := dir.fileName
  if ['.'].isPrefixOf id.toList || !dir.hasPackageToml then ([], [])
  else if !(BundleId.new id).isOk then ([], [])
  else
    match SignedInstalledPackage.load dir id with
    | .error error => ([], [id ++ ": " ++ error])
    | .ok package =>
      match resolveMigrations sha384 package with
      | .error error => ([], [id ++ ": " ++ error.text])
      | .ok migrations => (migrations.filter (·.legacySqlxVersion.isSome), [])

def scanAdoptionCandidates : BundlesDir → List ResolvedMigration × List String
  | .unconfigured => ([], [])
  | .unreadable root => ([], ["cannot read bundles directory \"" ++ root ++ "\""])
  | .entries dirs =>
    let scanned := dirs.map (scanEntry sha384)
    (scanned.flatMap (·.1), scanned.flatMap (·.2))

end

def planAdoption (candidates : List ResolvedMigration) (packageErrors : List String)
    (applied : AppliedMigration) :
    Except BundleMigrationError (ResolvedMigration × AppliedMigration) :=
  let claimed := candidates.filter (·.legacySqlxVersion = some applied.version)
  let matching := claimed.filter (·.sqlxChecksum = applied.checksum)
  match matching with
  | [candidate] => .ok (candidate, applied)
  | [] =>
    let detail :=
      if !claimed.isEmpty then .checksumMismatch (claimed.map (·.bundleId))
      else if packageErrors.isEmpty then .stagePackage
      else .packageErrors packageErrors
    .error (.missingLegacyAdopter applied.version detail)
  | many => .error (.ambiguousLegacyAdopter applied.version (many.map (·.bundleId)))

def planAdoptions (candidates : List ResolvedMigration) (packageErrors : List String) :
    List AppliedMigration →
      Except BundleMigrationError (List (ResolvedMigration × AppliedMigration))
  | [] => .ok []
  | applied :: missing =>
    planAdoption candidates packageErrors applied >>= fun adoption =>
      planAdoptions candidates packageErrors missing >>= fun adoptions =>
        .ok (adoption :: adoptions)

/-- `connection.apply`, which is a transaction. -/
def applyCoreMigration (fails : Op → Bool) (migration : CoreMigration) : Call Unit :=
  attempt fails (.applyCore migration.version) >>= fun _ db =>
    if db.sqlx.any (·.version = migration.version) then
      (.error (.database (.applyCore migration.version)), db)
    else
      (.ok (), { db with
        sqlx := db.sqlx ++ [⟨migration.version, migration.checksum, true⟩]
        log := db.log ++ [.sqlx migration.version] })

def adopt (core : Core) (fails : Op → Bool) (applied : List AppliedMigration)
    (adoptions : List (ResolvedMigration × AppliedMigration)) : Call Unit :=
  if adoptions.isEmpty then pure ()
  else do
    Action.transaction (do
      attempt fails .beginAdoptions
      forM adoptions fun (candidate, m) =>
        insertLedgerRow fails (.insertAdoption m.version) candidate true (some m.checksum)
      attempt fails .commitAdoptions)
    attempt fails .reloadLedger
    let ledger ← Action.read Database.loadLedger
    Action.ofExcept (validateExistingAdoptions ledger applied core)

/-- Everything that is read before `migrate_core` writes. -/
def planCore (sha384 : Bytes → Bytes) (core : Core) (fails : Op → Bool) (scanned : BundlesDir) :
    Call (List AppliedMigration × List (ResolvedMigration × AppliedMigration)) := do
  attempt fails .ensureMigrationsTable
  attempt fails .ledgerDdl
  attempt fails .dirtyVersion
  let dirty ← Action.read Database.dirtyVersion
  match dirty with
  | some version =>
    .fail (.config ("Core SQLx ledger is dirty at migration " ++ toString version))
  | none => do
    attempt fails .listAppliedMigrations
    let applied ← Action.read Database.appliedMigrations
    Action.ofExcept (checkCoreChecksums core applied)
    attempt fails .loadLedger
    let ledger ← Action.read Database.loadLedger
    Action.ofExcept (validateExistingAdoptions ledger applied core)
    let (candidates, packageErrors) := scanAdoptionCandidates sha384 scanned
    let adoptions ← Action.ofExcept
      (planAdoptions candidates packageErrors (missingOwners core ledger applied))
    pure (applied, adoptions)

def migrateCoreLocked (sha384 : Bytes → Bytes) (core : Core) (fails : Op → Bool)
    (scanned : BundlesDir) : Call CoreMigrationReport := do
  let (applied, adoptions) ← planCore sha384 core fails scanned
  adopt core fails applied adoptions
  let unapplied := core.unapplied applied
  forM unapplied (applyCoreMigration fails)
  pure ⟨unapplied.length, adoptions.length⟩

/-! ## Bundles -/

structure BundleMigrationReport where
  bundleId : String
  (alreadyApplied newlyApplied legacyAdopted : ℕ)

def validateLedgerRow (row : LedgerRow) (current : ResolvedMigration) :
    Except BundleMigrationError Unit :=
  let currentLegacyChecksum := current.legacySqlxVersion.map fun _ => current.sqlxChecksum
  if row.revision = current.revision ∧ row.kind = current.kind ∧ row.path = current.path ∧
      row.contentSha256 = current.contentSha256 ∧
      row.legacySqlxVersion = current.legacySqlxVersion ∧
      row.legacySqlxChecksum = currentLegacyChecksum then
    .ok ()
  else
    .error (.historyDrift row.bundleId ("migration \"" ++ row.migrationId ++
      "\" no longer matches its applied revision/path/hash"))

def validateHistory (bundleId : String) (resolved : List ResolvedMigration)
    (existing : List LedgerRow) : Except BundleMigrationError Unit :=
  forM existing fun row =>
    match resolved.find? (·.migrationId = row.migrationId) with
    | none =>
      .error (.historyDrift bundleId ("applied migration \"" ++ row.migrationId ++
        "\" is missing from package history"))
    | some current => validateLedgerRow row current

def noTransaction : String := "-- no-transaction"

def applyMigration (fails : Op → Bool) (bundleId : String) (migration : ResolvedMigration) :
    Call Unit :=
  if noTransaction.toList.isPrefixOf migration.sql.toList then
    .fail (.nonTransactional bundleId migration.migrationId)
  else do
    attempt fails (.execute migration.migrationId)
    Action.modify fun db => { db with
      log := db.log ++ [.bundle migration.bundleId migration.migrationId migration.revision
        migration.legacySqlxVersion] }
    insertLedgerRow fails (.insert migration.migrationId) migration false none

def Database.rowsOf (db : Database) (bundleId : String) : List LedgerRow :=
  db.loadLedger.filter (·.bundleId = bundleId)

def pendingMigrations (resolved : List ResolvedMigration) (existing : List LedgerRow) :
    List ResolvedMigration :=
  resolved.filter fun m => !existing.any (·.migrationId = m.migrationId)

/-- `apply_bundle_locked` after its Core step. -/
def applyPending (fails : Op → Bool) (bundleId : String) (resolved : List ResolvedMigration)
    (coreReport : CoreMigrationReport) : Call BundleMigrationReport := do
  attempt fails .loadExisting
  let existing ← Action.read (Database.rowsOf · bundleId)
  Action.ofExcept (validateHistory bundleId resolved existing)
  let pending := pendingMigrations resolved existing
  if pending.isEmpty then
    pure ⟨bundleId, existing.length, 0, coreReport.legacyAdopted⟩
  else do
    Action.transaction (do
      attempt fails .beginBundle
      forM pending (applyMigration fails bundleId)
      attempt fails .commitBundle)
    pure ⟨bundleId, existing.length, pending.length, coreReport.legacyAdopted⟩

def applyBundleLocked (sha384 : Bytes → Bytes) (core : Core) (fails : Op → Bool)
    (scanned : BundlesDir) (bundleId : String) (resolved : List ResolvedMigration) :
    Call BundleMigrationReport :=
  migrateCoreLocked sha384 core fails scanned >>= applyPending fails bundleId resolved

def loadPackage (installed : BundlesDir) (bundleId : String) :
    Except BundleMigrationError SignedInstalledPackage :=
  match installed with
  | .unconfigured =>
    .error (.config "Bundle migrations require [web] bundles_dir to be configured")
  | .unreadable root => .error (.package ("cannot read \"" ++ root ++ "\""))
  | .entries dirs =>
    match dirs.find? (·.fileName = bundleId) with
    | none =>
      .error (.package ("installed Bundle asset \"" ++ bundleId ++ "\" is unavailable"))
    | some dir => (SignedInstalledPackage.load dir bundleId).mapError .package

/-- A call under the advisory lock.  When the unlock fails, so does the call. -/
def locked {α : Type} (fails : Op → Bool) (call : Call α) : Call α := do
  attempt fails .acquire
  attempt fails .lock
  let result ← call
  attempt fails .unlock
  pure result

def migrateCore (sha384 : Bytes → Bytes) (core : Core) (fails : Op → Bool)
    (scanned : BundlesDir) : Call CoreMigrationReport :=
  locked fails (migrateCoreLocked sha384 core fails scanned)

def applyBundle (sha384 : Bytes → Bytes) (core : Core) (fails : Op → Bool)
    (installed scanned : BundlesDir) (bundleId : String) : Call BundleMigrationReport := do
  let _ ← Action.ofExcept ((BundleId.new bundleId).mapError fun error =>
    .config ("invalid Bundle id \"" ++ bundleId ++ "\": " ++ sdkErrorText error))
  let package ← Action.ofExcept (loadPackage installed bundleId)
  let resolved ← Action.ofExcept ((resolveMigrations sha384 package).mapError ResolveError.lift)
  locked fails (applyBundleLocked sha384 core fails scanned bundleId resolved)

end Gadgetron.Bundle.Migration
