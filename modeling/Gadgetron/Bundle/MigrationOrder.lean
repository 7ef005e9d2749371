import Gadgetron.Bundle.MigrationRuns

/-!
# The order of a bundle's migrations

One call executes what is pending in the order of the revisions, but nothing compares a revision
with those of earlier calls or with what is adopted.
-/

namespace Gadgetron.Bundle.Migration

open Lib Action List Option

namespace Database

/-- The revision that this bundle has of an execution: SQLx has executed what the bundle has
adopted. -/
def revisionOf (db : Database) (bundleId : String) : Execution → Option ℤ
  | .sqlx v =>
    (db.ledger.find? fun row => row.bundleId = bundleId && row.adoptedFromSqlx &&
      row.legacySqlxVersion = some v).map (·.revision)
  | .bundle b _ revision _ => if b = bundleId then some revision else none

/-- The revisions of the bundle's migrations, in the order in which they were executed. -/
def revisions (db : Database) (bundleId : String) : List ℤ :=
  db.log.filterMap (db.revisionOf bundleId)

/-- The revisions of the bundle were executed in increasing order. -/
def InOrder (db : Database) (bundleId : String) : Prop :=
  (db.revisions bundleId).Pairwise (· < ·)

end Database

/-- The migration of a package that an execution was; a version of Core is Core's. -/
def migrationOf (core : Core) (resolved : List ResolvedMigration) :
    Execution → Option ResolvedMigration
  | .sqlx v => if core.contains v then none else resolved.find? (·.legacySqlxVersion = some v)
  | .bundle b id _ _ => resolved.find? fun m => m.bundleId = b && m.migrationId = id

def executedBefore (core : Core) (resolved : List ResolvedMigration) (db : Database) :
    List ResolvedMigration :=
  db.log.filterMap (migrationOf core resolved)

/-- The package has what was executed in the order in which it was executed, and everything else
after it. -/
def Extends (core : Core) (resolved : List ResolvedMigration) (db : Database) : Prop :=
  (executedBefore core resolved db).Pairwise (fun m m' => m.revision < m'.revision) ∧
    ∀ m ∈ resolved, m ∉ executedBefore core resolved db →
      ∀ m' ∈ executedBefore core resolved db, m'.revision < m.revision

/-! ## One call -/

section

variable {sha384 : Bytes → Bytes} {core : Core} {installed : BundlesDir} {bundleId : String}
  {db db' : Database} {resolved : List ResolvedMigration} {m m' : ResolvedMigration}

theorem find?_eq_some_of_unique {α : Type} {l : List α} {q : α → Bool} {a : α} (ha : a ∈ l)
    (hq : q a = true) (hunique : ∀ b ∈ l, q b = true → b = a) : l.find? q = some a := by
  cases hfind : l.find? q with
  | none => exact absurd hq (find?_eq_none.1 hfind a ha)
  | some b =>
    rw [hunique b (mem_of_find?_eq_some hfind) (by simpa using find?_some hfind)]

variable {v : ℤ}

theorem migrationOf_of_core (h : core.contains v = true) :
    migrationOf core resolved (.sqlx v) = none := if_pos h

theorem migrationOf_of_not_core (h : core.contains v = false) :
    migrationOf core resolved (.sqlx v) = resolved.find? (·.legacySqlxVersion = some v) :=
  if_neg (by rw [h]; exact Bool.false_ne_true)

theorem revisionOf_eq_none (h : ∀ row ∈ db.ledger, row.bundleId = bundleId → ¬ row.Adopts v) :
    db.revisionOf bundleId (.sqlx v) = none := by
  unfold Database.revisionOf
  rw [map_eq_none_iff, find?_eq_none]
  intro row hrow hall
  simp only [Bool.and_eq_true, decide_eq_true_eq] at hall
  exact h row hrow hall.1.1 ⟨hall.1.2, hall.2⟩

/-- What a successful call leaves, as far as the order needs it. -/
structure Finished (core : Core) (bundleId : String) (resolved : List ResolvedMigration)
    (db : Database) : Prop where
  inv : Inv False db
  owned : Owned core db
  valid : Resolved bundleId resolved
  allMatch : AllMatch bundleId resolved db

theorem Resolved.eq_of_id (h : Resolved bundleId resolved) (hm : m ∈ resolved)
    (hm' : m' ∈ resolved) (hid : m.migrationId = m'.migrationId) : m = m' :=
  inj_on_of_nodup_map h.ids_nodup hm hm' hid

variable {row : LedgerRow}

section

variable (h : Finished core bundleId resolved db)

include h

theorem Finished.matches_of_id (hrow : row ∈ db.ledger) (hbundle : row.bundleId = bundleId)
    (hm : m ∈ resolved) (hid : row.migrationId = m.migrationId) : row.Matches m := by
  obtain ⟨m', hm', hmatch⟩ := h.allMatch.rows row hrow hbundle
  have hsame := h.valid.eq_of_id hm' hm (hmatch.records.1.symm.trans hid)
  exact hsame ▸ hmatch

theorem Finished.matches_of_legacy (hrow : row ∈ db.ledger) (hv : row.legacySqlxVersion = some v)
    (hm : m ∈ resolved)
    (hmv : m.legacySqlxVersion = some v) : row.bundleId = bundleId ∧ row.Matches m := by
  obtain ⟨row', hrow', hbundle, hmatch⟩ := h.allMatch.migrations m hm
  have hsame : row' = row :=
    h.inv.legacy_unique row' hrow' row hrow v (hmatch.legacy_eq.trans hmv) hv
  exact hsame ▸ ⟨hbundle, hmatch⟩

theorem Finished.eq_of_legacy (hm : m ∈ resolved) (hm' : m' ∈ resolved)
    (hv : m.legacySqlxVersion = some v) (hv' : m'.legacySqlxVersion = some v) : m = m' := by
  obtain ⟨row, hrow, -, hmatch⟩ := h.allMatch.migrations m hm
  have hmatch' := (h.matches_of_legacy hrow (hmatch.legacy_eq.trans hv) hm' hv').2
  exact h.valid.eq_of_id hm hm' (hmatch.records.1.symm.trans hmatch'.records.1)

theorem Finished.migrationOf_sqlx (hcore : core.contains v = false) (hm : m ∈ resolved)
    (hv : m.legacySqlxVersion = some v) : migrationOf core resolved (.sqlx v) = some m := by
  rw [migrationOf_of_not_core hcore]
  refine find?_eq_some_of_unique hm (decide_eq_true hv) fun m' hm' hv' => ?_
  exact h.eq_of_legacy hm' hm (of_decide_eq_true hv') hv

end

theorem Resolved.migrationOf_bundle (h : Resolved bundleId resolved) (hm : m ∈ resolved)
    (revision : ℤ) (legacy : Option ℤ) :
    migrationOf core resolved (.bundle bundleId m.migrationId revision legacy) = some m := by
  refine find?_eq_some_of_unique hm ?_ fun m' hm' heq => ?_
  · simp [h.own m hm]
  · rw [Bool.and_eq_true, decide_eq_true_eq, decide_eq_true_eq] at heq
    exact h.eq_of_id hm' hm heq.2

section

variable (h : Finished core bundleId resolved db)

include h

theorem Finished.revisionOf_sqlx (hv : .sqlx v ∈ db.log) :
    db.revisionOf bundleId (.sqlx v) = (migrationOf core resolved (.sqlx v)).map (·.revision) := by
  obtain ⟨r, hr, rfl⟩ := (h.inv.sqlx_log v).1 hv
  rcases h.owned r hr with ⟨hcore, hfree⟩ | ⟨hcore, row, hrow, hadopts, -, hunique⟩
  · rw [revisionOf_eq_none fun row hrow _ => hfree row hrow, migrationOf_of_core hcore]
    rfl
  · by_cases hbundle : row.bundleId = bundleId
    · obtain ⟨m, hm, hmatch⟩ := h.allMatch.rows row hrow hbundle
      have hrevision : db.revisionOf bundleId (.sqlx r.version) = some row.revision := by
        unfold Database.revisionOf
        rw [map_eq_some_iff]
        refine ⟨row, find?_eq_some_of_unique hrow ?_ fun row' hrow' hall => ?_, rfl⟩
        · simp [hbundle, hadopts.1, hadopts.2]
        · simp only [Bool.and_eq_true, decide_eq_true_eq] at hall
          exact hunique row' hrow' ⟨hall.1.2, hall.2⟩
      rw [hrevision, h.migrationOf_sqlx hcore hm (hmatch.legacy_eq.symm.trans hadopts.2),
        hmatch.records.2.1]
      rfl
    · have hnone : migrationOf core resolved (.sqlx r.version) = none := by
        rw [migrationOf_of_not_core hcore, find?_eq_none]
        intro m hm hv
        exact hbundle (h.matches_of_legacy hrow hadopts.2 hm (of_decide_eq_true hv)).1
      rw [hnone]
      refine revisionOf_eq_none fun row' hrow' hbundle' hadopts' => hbundle ?_
      exact hunique row' hrow' hadopts' ▸ hbundle'

theorem Finished.revisionOf_eq {e : Execution}
    (he : e ∈ db.log) :
    db.revisionOf bundleId e = (migrationOf core resolved e).map (·.revision) := by
  cases e with
  | sqlx v => exact h.revisionOf_sqlx he
  | bundle b id revision legacy =>
    obtain ⟨row, hrow, rfl, rfl, rfl, rfl⟩ := h.inv.log_row b id revision legacy he
    unfold Database.revisionOf
    dsimp only
    by_cases hbundle : row.bundleId = bundleId
    · obtain ⟨m, hm, hmatch⟩ := h.allMatch.rows row hrow hbundle
      rw [if_pos hbundle, hbundle, hmatch.records.1, h.valid.migrationOf_bundle hm,
        hmatch.records.2.1]
      rfl
    · have hno : migrationOf core resolved
          (.bundle row.bundleId row.migrationId row.revision row.legacySqlxVersion) = none := by
        unfold migrationOf
        rw [find?_eq_none]
        intro m hm heq
        rw [Bool.and_eq_true, decide_eq_true_eq, decide_eq_true_eq] at heq
        exact hbundle (heq.1.symm.trans (h.valid.own m hm))
      rw [if_neg hbundle, hno]
      rfl

theorem Finished.revisions_eq :
    db.revisions bundleId = (executedBefore core resolved db).map (·.revision) := by
  unfold Database.revisions executedBefore
  rw [map_filterMap]
  exact filterMap_congr fun e he => h.revisionOf_eq he

end

variable {db₁ : Database}

theorem exists_row_of_executedBefore (hinv : Inv False db)
    (hcoreDone : CoreDone False core db db₁)
      (hbundleDone : BundleDone False bundleId resolved db₁ db')
    (h : Finished core bundleId resolved db') (hm : m ∈ executedBefore core resolved db) :
    m ∈ resolved ∧ ∃ row ∈ db₁.ledger, row.bundleId = bundleId ∧
      row.migrationId = m.migrationId := by
  obtain ⟨e, he, hme⟩ := mem_filterMap.1 hm
  cases e with
  | sqlx v =>
    have hcore : core.contains v = false := by
      by_contra hcontains
      rw [migrationOf_of_core (by simpa using hcontains)] at hme
      cases hme
    rw [migrationOf_of_not_core hcore] at hme
    have hmem : m ∈ resolved := mem_of_find?_eq_some hme
    have hv : m.legacySqlxVersion = some v := by simpa using find?_some hme
    obtain ⟨versions, -, hlog⟩ := hcoreDone.log_eq
    have he₁ : .sqlx v ∈ db₁.log := hlog ▸ mem_append_left _ he
    obtain ⟨r, hr, rfl⟩ := (hcoreDone.inv.sqlx_log v).1 he₁
    rcases hcoreDone.owned r hr with ⟨hcontains, -⟩ | ⟨-, row, hrow, hadopts, -⟩
    · rw [hcore] at hcontains
      cases hcontains
    · have hrow' : row ∈ db'.ledger := by
        rw [hbundleDone.executed.ledger_eq]
        exact mem_append_left _ hrow
      obtain ⟨hbundle, hmatch⟩ := h.matches_of_legacy hrow' hadopts.2 hmem hv
      exact ⟨hmem, row, hrow, hbundle, hmatch.records.1⟩
  | bundle b id revision legacy =>
    have hmem : m ∈ resolved := mem_of_find?_eq_some hme
    have heq := find?_some hme
    rw [Bool.and_eq_true, decide_eq_true_eq, decide_eq_true_eq] at heq
    obtain ⟨row, hrow, hb, hid, -⟩ := hinv.log_row b id revision legacy he
    refine ⟨hmem, row, hcoreDone.kept row hrow, ?_, hid.trans heq.2.symm⟩
    rw [hb, ← heq.1, h.valid.own m hmem]

section

variable (hcoreDone : CoreDone False core db db₁)
  (hbundleDone : BundleDone False bundleId resolved db₁ db')
include hcoreDone hbundleDone

theorem mem_executedBefore_of_row (h : Finished core bundleId resolved db') (hm : m ∈ resolved)
    (hrow : row ∈ db₁.ledger) (hbundle : row.bundleId = bundleId)
    (hid : row.migrationId = m.migrationId) : m ∈ executedBefore core resolved db := by
  have hrow' : row ∈ db'.ledger := by
    rw [hbundleDone.executed.ledger_eq]
    exact mem_append_left _ hrow
  have hmatch := h.matches_of_id hrow' hbundle hm hid
  obtain ⟨versions, hversions, hlog⟩ := hcoreDone.log_eq
  rcases hcoreDone.inv.row_log row hrow with ⟨hadopted, v, hv, hmem⟩ | hmem
  · have hcore : core.contains v = false := by
      obtain ⟨r, hr, rfl⟩ := (hcoreDone.inv.sqlx_log v).1 hmem
      rcases hcoreDone.owned r hr with ⟨-, hfree⟩ | ⟨hcore, -⟩
      · exact absurd ⟨hadopted, hv⟩ (hfree row hrow)
      · exact hcore
    have he : .sqlx v ∈ db.log := by
      rw [hlog, mem_append] at hmem
      rcases hmem with hmem | hmem
      · exact hmem
      · obtain ⟨v', hv', heq⟩ := List.mem_map.1 hmem
        cases heq
        rw [hversions v hv'] at hcore
        cases hcore
    exact mem_filterMap.2 ⟨_, he, h.migrationOf_sqlx hcore hm (hmatch.legacy_eq.symm.trans hv)⟩
  · have he : .bundle row.bundleId row.migrationId row.revision row.legacySqlxVersion ∈ db.log := by
      rw [hlog, mem_append] at hmem
      rcases hmem with hmem | hmem
      · exact hmem
      · obtain ⟨v', -, heq⟩ := List.mem_map.1 hmem
        cases heq
    refine mem_filterMap.2 ⟨_, he, ?_⟩
    rw [hbundle, hid]
    exact h.valid.migrationOf_bundle hm _ _

theorem executedBefore_append (hvalid : Resolved bundleId resolved) :
    executedBefore core resolved db' = executedBefore core resolved db ++
      pendingMigrations resolved (db₁.rowsOf bundleId) := by
  obtain ⟨versions, hversions, hlog⟩ := hcoreDone.log_eq
  have hcoreNone : (versions.map Execution.sqlx).filterMap (migrationOf core resolved) = [] := by
    rw [filterMap_map, filterMap_eq_nil_iff]
    exact fun v hv => migrationOf_of_core (hversions v hv)
  have hpending : ((pendingMigrations resolved (db₁.rowsOf bundleId)).map
      ResolvedMigration.execution).filterMap (migrationOf core resolved) =
        pendingMigrations resolved (db₁.rowsOf bundleId) := by
    rw [filterMap_map]
    refine (filterMap_congr fun m hm => ?_).trans filterMap_some
    have hmem : m ∈ resolved := mem_of_mem_filter hm
    have hexecution := @Resolved.migrationOf_bundle core bundleId resolved m hvalid hmem m.revision
      m.legacySqlxVersion
    rw [← hvalid.own m hmem] at hexecution
    exact hexecution
  unfold executedBefore
  rw [hbundleDone.executed.log_eq, hlog, filterMap_append, filterMap_append, hcoreNone,
    hpending, append_nil]

end

section

variable (hinv : Inv False db) (h : CallDone False sha384 core installed bundleId db db' resolved)
include hinv h

theorem CallDone.inOrder_iff :
    db'.InOrder bundleId ↔ Extends core resolved db := by
  obtain ⟨hsettled, hmatch⟩ := h.settled
  obtain ⟨db₁, hcoreDone, hbundleDone⟩ := h.steps
  have hfinished : Finished core bundleId resolved db' :=
    ⟨hbundleDone.executed.inv, hsettled.1, h.valid, hmatch⟩
  have hpending : ∀ m, m ∈ pendingMigrations resolved (db₁.rowsOf bundleId) ↔
      m ∈ resolved ∧ m ∉ executedBefore core resolved db := by
    intro m
    unfold pendingMigrations
    rw [List.mem_filter, Bool.not_eq_true', List.any_eq_false]
    constructor
    · rintro ⟨hm, hnone⟩
      refine ⟨hm, fun hdone => ?_⟩
      obtain ⟨-, row, hrow, hbundle, hid⟩ :=
        exists_row_of_executedBefore hinv hcoreDone hbundleDone hfinished hdone
      exact hnone row (mem_rowsOf.2 ⟨hrow, hbundle⟩) (decide_eq_true hid)
    · rintro ⟨hm, hnot⟩
      refine ⟨hm, fun row hrow hid => hnot ?_⟩
      obtain ⟨hmem, hbundle⟩ := mem_rowsOf.1 hrow
      exact mem_executedBefore_of_row hcoreDone hbundleDone hfinished hm hmem hbundle
        (of_decide_eq_true hid)
  unfold Database.InOrder Extends
  rw [hfinished.revisions_eq, executedBefore_append hcoreDone hbundleDone h.valid,
    pairwise_map, pairwise_append]
  constructor
  · rintro ⟨hbefore, -, hafter⟩
    exact ⟨hbefore, fun m hm hnot m' hm' => hafter m' hm' m ((hpending m).2 ⟨hm, hnot⟩)⟩
  · rintro ⟨hbefore, hafter⟩
    refine ⟨hbefore, h.valid.increasing.filter _, fun m' hm' m hm => ?_⟩
    exact hafter m ((hpending m).1 hm).1 ((hpending m).1 hm).2 m' hm'

theorem CallDone.executed_eq (horder : db'.InOrder bundleId) :
    executedBefore core resolved db' = resolved := by
  obtain ⟨hsettled, hmatch⟩ := h.settled
  obtain ⟨db₁, hcoreDone, hbundleDone⟩ := h.steps
  have hfinished : Finished core bundleId resolved db' :=
    ⟨hbundleDone.executed.inv, hsettled.1, h.valid, hmatch⟩
  have hincreasing : (executedBefore core resolved db').Pairwise
      fun m m' => m.revision < m'.revision := by
    have hmap : ((executedBefore core resolved db').map (·.revision)).Pairwise (· < ·) := by
      rw [← hfinished.revisions_eq]
      exact horder
    exact pairwise_map.1 hmap
  have hsub : ∀ m, m ∈ executedBefore core resolved db' ↔ m ∈ resolved := by
    intro m
    rw [executedBefore_append hcoreDone hbundleDone h.valid, mem_append]
    constructor
    · rintro (hm | hm)
      · exact (exists_row_of_executedBefore hinv hcoreDone hbundleDone hfinished hm).1
      · exact mem_of_mem_filter hm
    · intro hm
      by_cases hany : (db₁.rowsOf bundleId).any (·.migrationId = m.migrationId) = true
      · obtain ⟨row, hrow, hid⟩ := List.any_eq_true.1 hany
        obtain ⟨hmem, hbundle⟩ := mem_rowsOf.1 hrow
        exact .inl (mem_executedBefore_of_row hcoreDone hbundleDone hfinished hm hmem hbundle
          (of_decide_eq_true hid))
      · exact .inr (List.mem_filter.2 ⟨hm, by simpa using hany⟩)
  have hnodup : ∀ {l : List ResolvedMigration},
      l.Pairwise (fun m m' => m.revision < m'.revision) → l.Nodup := by
    intro l hl
    refine hl.imp ?_
    rintro m m' hlt rfl
    exact lt_irrefl _ hlt
  have hperm : (executedBefore core resolved db').Perm resolved :=
    (perm_ext_iff_of_nodup (hnodup hincreasing) (hnodup h.valid.increasing)).2 hsub
  refine hperm.eq_of_pairwise (fun m m' _ _ hlt hgt => ?_) hincreasing h.valid.increasing
  exact absurd hlt (not_lt.2 hgt.le)

end

end

/-! ## Runs -/

/-- A call of `apply_bundle` for the bundle. -/
structure Upgrade where
  core : Core
  fails : Op → Bool
  (installed scanned : BundlesDir)

abbrev upgrades (sha384 : Bytes → Bytes) (bundleId : String) : Machine Database Upgrade where
  step db call :=
    match applyBundle sha384 call.core call.fails call.installed call.scanned bundleId db with
    | (.ok _, db') => some db'
    | (.error _, _) => none

/-- The installed package declares the migrations `resolved`. -/
def Upgrade.Resolves (sha384 : Bytes → Bytes) (bundleId : String) (call : Upgrade)
    (resolved : List ResolvedMigration) : Prop :=
  ∃ package, loadPackage call.installed bundleId = .ok package ∧
    resolveMigrations sha384 package = .ok resolved

/-- The package extends what the database has of the bundle. -/
def KeepsOrder (sha384 : Bytes → Bytes) (bundleId : String) (db : Database) (call : Upgrade) :
    Prop :=
  ∀ resolved, call.Resolves sha384 bundleId resolved → Extends call.core resolved db

section

variable {sha384 : Bytes → Bytes} {bundleId : String} {db db₀ db' : Database} {call : Upgrade}
  {calls : List Upgrade}

theorem Upgrade.Resolves.unique {resolved resolved' : List ResolvedMigration}
    (h : call.Resolves sha384 bundleId resolved) (h' : call.Resolves sha384 bundleId resolved') :
    resolved = resolved' := by
  obtain ⟨package, hload, hresolve⟩ := h
  obtain ⟨package', hload', hresolve'⟩ := h'
  cases Except.ok.inj (hload.symm.trans hload')
  exact Except.ok.inj (hresolve.symm.trans hresolve')

section

variable (hinv : Inv False db) (hstep : (upgrades sha384 bundleId).step db call = some db')
include hinv hstep

theorem callDone_of_step :
    ∃ resolved, call.Resolves sha384 bundleId resolved ∧
      CallDone False sha384 call.core call.installed bundleId db db' resolved := by
  dsimp only at hstep
  split at hstep
  · rename_i report db₁ hcall
    cases hstep
    obtain ⟨resolved, hdone⟩ := (ensures_applyBundle hinv nofun nofun).of_ok hcall
    exact ⟨resolved, hdone.package, hdone⟩
  · cases hstep

theorem Inv.upgrade : Inv False db' := by
  obtain ⟨resolved, -, hdone⟩ := callDone_of_step hinv hstep
  obtain ⟨_, -, hbundle⟩ := hdone.steps
  exact hbundle.executed.inv

theorem inOrder_iff_keepsOrder :
    db'.InOrder bundleId ↔ KeepsOrder sha384 bundleId db call := by
  obtain ⟨resolved, hresolves, hdone⟩ := callDone_of_step hinv hstep
  rw [hdone.inOrder_iff hinv]
  constructor
  · intro hextends resolved' hresolves'
    exact hresolves.unique hresolves' ▸ hextends
  · exact fun hkeeps => hkeeps resolved hresolves

end

theorem inOrder_of_historical (h : db.Historical) : db.InOrder bundleId := by
  have hnone : db.revisions bundleId = [] := by
    unfold Database.revisions
    rw [filterMap_eq_nil_iff]
    intro e he
    rw [h.log_eq] at he
    obtain ⟨m, -, rfl⟩ := List.mem_map.1 he
    exact revisionOf_eq_none fun row hrow => by rw [h.ledger_eq] at hrow; cases hrow
  unfold Database.InOrder
  rw [hnone]
  exact .nil

/-- Over any succession of packages the revisions increase in every history exactly when every
package has what was executed in its order, and everything else after it; the last package's
migrations were then executed as on a fresh database. -/
theorem inOrder_iff_meets (hdb : db₀.Historical)
    (hrun : (upgrades sha384 bundleId).exec db₀ calls = some db)
    (hcall : (upgrades sha384 bundleId).step db call = some db') :
    ((∀ before s, before <+: calls ++ [call] →
        (upgrades sha384 bundleId).exec db₀ before = some s → s.InOrder bundleId) ↔
      (upgrades sha384 bundleId).Meets (KeepsOrder sha384 bundleId) db₀ (calls ++ [call])) ∧
    (db'.InOrder bundleId → ∀ resolved, call.Resolves sha384 bundleId resolved →
      executedBefore call.core resolved db' = resolved) := by
  have hinv : Inv False db :=
    (upgrades sha384 bundleId).invariant (fun _ _ _ hinv hstep => hinv.upgrade hstep) hdb.inv hrun
  constructor
  · have hall : (upgrades sha384 bundleId).exec db₀ (calls ++ [call]) = some db' :=
      (Machine.exec_append_eq_some _).2
        ⟨db, hrun, (Machine.exec_cons_eq_some _).2 ⟨db', hcall, rfl⟩⟩
    have hexact := (upgrades sha384 bundleId).meets_iff_forall_reached
      (C := KeepsOrder sha384 bundleId) (P := fun s => Inv False s ∧ s.InOrder bundleId)
      (fun s a s' hs hstep => by
        rw [← inOrder_iff_keepsOrder hs.1 hstep]
        exact and_iff_right (hs.1.upgrade hstep))
      ⟨hdb.inv, inOrder_of_historical hdb⟩ hall
    rw [hexact]
    constructor
    · intro horder before s hprefix hs
      refine ⟨?_, horder before s hprefix hs⟩
      exact (upgrades sha384 bundleId).invariant (fun _ _ _ hinv hstep => hinv.upgrade hstep)
        hdb.inv hs
    · exact fun h before s hprefix hs => (h before s hprefix hs).2
  · intro horder resolved hresolves
    obtain ⟨resolved', hresolves', hdone⟩ := callDone_of_step hinv hcall
    obtain rfl := hresolves.unique hresolves'
    exact hdone.executed_eq hinv horder

end

/-! ## A migration below one that was executed -/

def sampleUpgrade (migrations : List MigrationDescriptor) : Upgrade :=
  ⟨[⟨1, []⟩], fun _ => false, sampleDir migrations, sampleDir migrations⟩

def sampleFirst : Upgrade := sampleUpgrade [sampleMigration "tables" 1 none]

def sampleSecond : Upgrade :=
  sampleUpgrade [sampleMigration "tables" 1 none, sampleMigration "index" 2 none]

theorem inOrder_iff_meets_sample :
    ∃ db db', (upgrades sampleSha384 "notes").exec ⟨[], [], []⟩ [sampleFirst] = some db ∧
      (upgrades sampleSha384 "notes").step db sampleSecond = some db' ∧
      db'.revisions "notes" = [1, 2] ∧ ((∀ before s, before <+: [sampleFirst] ++ [sampleSecond] →
          (upgrades sampleSha384 "notes").exec ⟨[], [], []⟩ before = some s → s.InOrder "notes") ↔
        (upgrades sampleSha384 "notes").Meets (KeepsOrder sampleSha384 "notes") ⟨[], [], []⟩
          ([sampleFirst] ++ [sampleSecond])) ∧
      (db'.InOrder "notes" → ∀ resolved, sampleSecond.Resolves sampleSha384 "notes" resolved →
        executedBefore sampleSecond.core resolved db' = resolved) := by
  have hrun : ((upgrades sampleSha384 "notes").exec ⟨[], [], []⟩ [sampleFirst, sampleSecond]).map
      (·.revisions "notes") = some [1, 2] := by
    decide +kernel
  obtain ⟨db', hexec, hrevisions⟩ := map_eq_some_iff.1 hrun
  obtain ⟨db, hfirst, hrest⟩ := (Machine.exec_cons_eq_some _).1 hexec
  obtain ⟨_, hsecond, hnil⟩ := (Machine.exec_cons_eq_some _).1 hrest
  cases hnil
  have hexecFirst : (upgrades sampleSha384 "notes").exec ⟨[], [], []⟩ [sampleFirst] = some db :=
    (Machine.exec_cons_eq_some _).2 ⟨db, hfirst, rfl⟩
  exact ⟨db, db', hexecFirst, hsecond, hrevisions,
    inOrder_iff_meets ⟨rfl, rfl, .nil⟩ hexecFirst hsecond⟩

/-- The second package has a new migration of revision 5 below the old one of revision 10. -/
theorem not_inOrder_of_lower_revision :
    ¬ ∀ (sha384 : Bytes → Bytes) (bundleId : String) (db db' : Database) (calls : List Upgrade),
      db.Historical → (upgrades sha384 bundleId).exec db calls = some db' →
        db'.InOrder bundleId := by
  intro h
  have hrun : ((upgrades sampleSha384 "notes").exec ⟨[], [], []⟩
      [sampleUpgrade [sampleMigration "tables" 10 none],
        sampleUpgrade [sampleMigration "tables" 10 none, sampleMigration "index" 5 none]]).map
          (·.revisions "notes") = some [10, 5] := by
    decide +kernel
  obtain ⟨db', hexec, hrevisions⟩ := map_eq_some_iff.1 hrun
  have horder := h _ _ ⟨[], [], []⟩ _ _ ⟨rfl, rfl, .nil⟩ hexec
  unfold Database.InOrder at horder
  rw [hrevisions] at horder
  exact absurd horder (by decide)

end Gadgetron.Bundle.Migration
