import Gadgetron.Lib.Exec
import Gadgetron.Core.Context
import Mathlib.Logic.Function.Basic

/-!
# Validation of API keys

`DelegatedKeyValidator` in front of `PgKeyValidator`: process-local delegated entries, then the
cache, then the table `api_keys`.
-/

namespace Gadgetron.Auth

open Lib Function

structure ValidatedKey where
  (apiKeyId tenantId : Uuid)
  scopes : List Scope
  userId : Option Uuid

/-- The columns of `api_keys` that validation reads. -/
structure KeyRow where
  (id tenantId : Uuid)
  scopes : List String
  userId : Option Uuid

def KeyRow.validated (parseScope : String → Option Scope) (row : KeyRow) : ValidatedKey where
  apiKeyId := row.id
  tenantId := row.tenantId
  scopes := row.scopes.filterMap parseScope
  userId := row.userId

/-- A row of the table; `revoked` says that `revoked_at` is set. -/
structure TableRow where
  row : KeyRow
  revoked : Bool

/-- A delegated credential; `live` says that its lease has not run out. -/
structure DelegatedKeyEntry where
  validated : ValidatedKey
  live : Bool

inductive ValidateError
  | tenantNotFound
  | database

/-- How far a `validate` call has come. -/
inductive Phase
  | started
  | notDelegated
  | missed
  | read (validated : ValidatedKey)
  | done (result : Except ValidateError ValidatedKey)

structure Call (K : Type) where
  keyHash : K
  phase : Phase

/-- The table, the cache, the delegated entries and the calls in progress or finished. -/
structure State (K : Type) where
  apiKeys : K → Option TableRow
  cache : K → Option ValidatedKey
  entries : K → Option DelegatedKeyEntry
  calls : ℕ → Option (Call K)

inductive Label (K : Type)
  /-- A `validate` call begins. -/
  | start (n : ℕ) (k : K)
  /-- It looks at the delegated entries, dropping one that has run out. -/
  | lookupEntries (n : ℕ)
  | lookupCache (n : ℕ)
  | readRow (n : ℕ)
  | failRow (n : ℕ)
  | insertCache (n : ℕ)
  /-- `UPDATE api_keys SET revoked_at = NOW()`. -/
  | revoke (k : K)
  /-- The first half of `invalidate`: drop the delegated entry. -/
  | invalidateEntry (k : K)
  /-- The second half of `invalidate`: drop the cached key. -/
  | invalidateCache (k : K)
  /-- The cache drops a key on its own, by age or capacity. -/
  | evict (k : K)
  | createRow (k : K) (row : KeyRow)
  /-- A delegated credential is issued for a new key. -/
  | issue (k : K) (validated : ValidatedKey)
  | expire (k : K)
  /-- The lease of a delegated credential is dropped. -/
  | dropLease (k : K)

namespace State

variable {K : Type} [DecidableEq K]

def setCall (s : State K) (n : ℕ) (k : K) (phase : Phase) : State K :=
  { s with calls := Function.update s.calls n (some ⟨k, phase⟩) }

/-- No calls, empty cache and no delegated entries. -/
def initial (apiKeys : K → Option TableRow) : State K where
  apiKeys := apiKeys
  cache _ := none
  entries _ := none
  calls _ := none

variable (parseScope : String → Option Scope)

/-- The row of a key that is not revoked (`WHERE key_hash = $1 AND revoked_at IS NULL`). -/
def activeRow (s : State K) (k : K) : Option KeyRow :=
  match s.apiKeys k with
  | some ⟨row, false⟩ => some row
  | _ => none

/-- One step of the system; `none` when it is not enabled. -/
def step (s : State K) : Label K → Option (State K)
  | .start n k =>
    match s.calls n with
    | none => some (s.setCall n k .started)
    | some _ => none
  | .lookupEntries n =>
    match s.calls n with
    | some ⟨k, .started⟩ =>
      match s.entries k with
      | some ⟨validated, true⟩ => some (s.setCall n k (.done (.ok validated)))
      | some ⟨_, false⟩ =>
        some { s.setCall n k .notDelegated with entries := Function.update s.entries k none }
      | none => some (s.setCall n k .notDelegated)
    | _ => none
  | .lookupCache n =>
    match s.calls n with
    | some ⟨k, .notDelegated⟩ =>
      match s.cache k with
      | some cached => some (s.setCall n k (.done (.ok cached)))
      | none => some (s.setCall n k .missed)
    | _ => none
  | .readRow n =>
    match s.calls n with
    | some ⟨k, .missed⟩ =>
      match s.activeRow k with
      | some row => some (s.setCall n k (.read (row.validated parseScope)))
      | none => some (s.setCall n k (.done (.error .tenantNotFound)))
    | _ => none
  | .failRow n =>
    match s.calls n with
    | some ⟨k, .missed⟩ => some (s.setCall n k (.done (.error .database)))
    | _ => none
  | .insertCache n =>
    match s.calls n with
    | some ⟨k, .read validated⟩ =>
      some { s.setCall n k (.done (.ok validated)) with
        cache := Function.update s.cache k (some validated) }
    | _ => none
  | .revoke k =>
    match s.apiKeys k with
    | some ⟨row, _⟩ => some { s with apiKeys := Function.update s.apiKeys k (some ⟨row, true⟩) }
    | none => none
  | .invalidateEntry k => some { s with entries := Function.update s.entries k none }
  | .invalidateCache k => some { s with cache := Function.update s.cache k none }
  | .evict k => some { s with cache := Function.update s.cache k none }
  | .createRow k row =>
    -- a new key has a random hash that neither the table nor the entries hold
    if s.apiKeys k = none ∧ s.entries k = none then
      some { s with apiKeys := Function.update s.apiKeys k (some ⟨row, false⟩) }
    else none
  | .issue k validated =>
    if s.apiKeys k = none ∧ s.entries k = none then
      some { s with entries := Function.update s.entries k (some ⟨validated, true⟩) }
    else none
  | .expire k =>
    match s.entries k with
    | some ⟨validated, _⟩ =>
      some { s with entries := Function.update s.entries k (some ⟨validated, false⟩) }
    | none => none
  | .dropLease k => some { s with entries := Function.update s.entries k none }

abbrev machine : Machine (State K) (Label K) := ⟨step parseScope⟩

/-! ## What a step can do -/

/-- The phases that a call for `k` can pass between, and what it finds in the state. -/
inductive Advance (s : State K) (k : K) : Option Phase → Phase → Prop
  | start : Advance s k none .started
  | entry {validated : ValidatedKey} (h : s.entries k = some ⟨validated, true⟩) :
      Advance s k (some .started) (.done (.ok validated))
  | notDelegated : Advance s k (some .started) .notDelegated
  | hit {cached : ValidatedKey} (h : s.cache k = some cached) :
      Advance s k (some .notDelegated) (.done (.ok cached))
  | miss : Advance s k (some .notDelegated) .missed
  | row {row : KeyRow} (h : s.activeRow k = some row) :
      Advance s k (some .missed) (.read (row.validated parseScope))
  | refuse (e : ValidateError) : Advance s k (some .missed) (.done (.error e))
  | insert (validated : ValidatedKey) : Advance s k (some (.read validated)) (.done (.ok validated))

/-- No key has both a row and a delegated entry. -/
def Apart (s : State K) : Prop := ∀ k, s.apiKeys k ≠ none → s.entries k = none

/-- A step of a call: it advances, may drop a delegated entry, and inserts into the cache what it
has read. -/
structure CallStep (s s' : State K) (n : ℕ) (k : K) (old : Option Phase) (new : Phase) : Prop where
  before : s.calls n = old.map (Call.mk k)
  advance : Advance parseScope s k old new
  calls : s'.calls = Function.update s.calls n (some ⟨k, new⟩)
  apiKeys : s'.apiKeys = s.apiKeys
  entries : ∀ k', s'.entries k' = s.entries k' ∨ s'.entries k' = none
  cache : s'.cache = s.cache ∨ ∃ validated, old = some (.read validated) ∧
      s'.cache = Function.update s.cache k (some validated)

structure OtherStep (s s' : State K) : Prop where
  calls : s'.calls = s.calls
  cache : ∀ k, s'.cache k = s.cache k ∨ s'.cache k = none
  revoked : ∀ k row, s.apiKeys k = some ⟨row, true⟩ → s'.apiKeys k = some ⟨row, true⟩
  apart : s.Apart → s'.Apart

variable {parseScope} {s s' : State K} {a : Label K} {k : K} {old : Option Phase}

theorem CallStep.of_setCall {n : ℕ} {new : Phase}
    (hadv : Advance parseScope s k old new) (h : s.calls n = old.map (Call.mk k)) :
    CallStep parseScope s (s.setCall n k new) n k old new :=
  ⟨h, hadv, rfl, rfl, fun _ => Or.inl rfl, Or.inl rfl⟩

theorem update_none_cases {β : Type} (f : K → Option β) (k k' : K) :
    Function.update f k none k' = f k' ∨ Function.update f k none k' = none := by
  by_cases hk : k' = k
  · right
    rw [hk, update_self]
  · left
    rw [update_of_ne hk]

omit [DecidableEq K] in
theorem OtherStep.of_drop {entries : K → Option DelegatedKeyEntry} {cache : K → Option ValidatedKey}
    (hentries : ∀ k, entries k = s.entries k ∨ entries k = none)
    (hcache : ∀ k, cache k = s.cache k ∨ cache k = none) :
    OtherStep s { s with entries, cache } where
  calls := rfl
  cache := hcache
  revoked _ _ h := h
  apart hs k hk := by
    rcases hentries k with he | he
    · exact he.trans (hs k hk)
    · exact he

theorem OtherStep.of_row {row : TableRow} (hentry : s.Apart → s.entries k = none)
    (hrevoked : ∀ r, s.apiKeys k = some ⟨r, true⟩ → row = ⟨r, true⟩) :
    OtherStep s { s with apiKeys := Function.update s.apiKeys k (some row) } where
  calls := rfl
  cache _ := Or.inl rfl
  revoked k' r h := by
    by_cases hk : k' = k
    · subst hk
      rw [← hrevoked r h]
      exact update_self ..
    · exact (update_of_ne hk ..).trans h
  apart hs k' hk' := by
    by_cases hk : k' = k
    · rw [hk]
      exact hentry hs
    · exact hs k' (by simpa only [update_of_ne hk] using hk')

theorem OtherStep.of_entry {entry : DelegatedKeyEntry} (hrow : s.Apart → s.apiKeys k = none) :
    OtherStep s { s with entries := Function.update s.entries k (some entry) } where
  calls := rfl
  cache _ := Or.inl rfl
  revoked _ _ h := h
  apart hs k' hk' := by
    have hk : k' ≠ k := by
      rintro rfl
      exact hk' (hrow hs)
    exact (update_of_ne hk ..).trans (hs k' hk')

theorem step_cases (h : (machine parseScope).step s a = some s') :
    (∃ n k old new, CallStep parseScope s s' n k old new) ∨ OtherStep s s' := by
  cases a with
  | start n k =>
    simp only [step] at h
    split at h
    · rename_i hcall
      cases h
      exact Or.inl ⟨n, k, none, _, CallStep.of_setCall .start hcall⟩
    · cases h
  | lookupEntries n =>
    simp only [step] at h
    split at h
    · rename_i k hcall
      split at h
      · rename_i validated hentry
        cases h
        exact Or.inl ⟨n, k, _, _, CallStep.of_setCall (.entry hentry) hcall⟩
      · cases h
        exact Or.inl ⟨n, k, some .started, _, hcall, .notDelegated, rfl, rfl,
          update_none_cases s.entries k, Or.inl rfl⟩
      · cases h
        exact Or.inl ⟨n, k, _, _, CallStep.of_setCall .notDelegated hcall⟩
    · cases h
  | lookupCache n =>
    simp only [step] at h
    split at h
    · rename_i k hcall
      split at h
      · rename_i cached hcached
        cases h
        exact Or.inl ⟨n, k, _, _, CallStep.of_setCall (.hit hcached) hcall⟩
      · cases h
        exact Or.inl ⟨n, k, _, _, CallStep.of_setCall .miss hcall⟩
    · cases h
  | readRow n =>
    simp only [step] at h
    split at h
    · rename_i k hcall
      split at h
      · rename_i row hrow
        cases h
        exact Or.inl ⟨n, k, _, _, CallStep.of_setCall (.row hrow) hcall⟩
      · cases h
        exact Or.inl ⟨n, k, _, _, CallStep.of_setCall (.refuse .tenantNotFound) hcall⟩
    · cases h
  | failRow n =>
    simp only [step] at h
    split at h
    · rename_i k hcall
      cases h
      exact Or.inl ⟨n, k, _, _, CallStep.of_setCall (.refuse .database) hcall⟩
    · cases h
  | insertCache n =>
    simp only [step] at h
    split at h
    · rename_i k validated hcall
      cases h
      exact Or.inl ⟨n, k, some (.read validated), _, hcall, .insert validated, rfl, rfl,
        fun _ => Or.inl rfl, Or.inr ⟨validated, rfl, rfl⟩⟩
    · cases h
  | revoke k =>
    simp only [step] at h
    split at h
    · rename_i row revoked hrow
      cases h
      refine Or.inr (OtherStep.of_row (fun hs => ?_) fun r hr => ?_)
      · exact hs k (by rw [hrow]; exact Option.some_ne_none _)
      · rw [hrow] at hr
        cases hr
        rfl
    · cases h
  | invalidateEntry k | dropLease k =>
    cases h
    exact Or.inr (OtherStep.of_drop (update_none_cases s.entries k) fun _ => Or.inl rfl)
  | invalidateCache k | evict k =>
    cases h
    exact Or.inr (OtherStep.of_drop (fun _ => Or.inl rfl) (update_none_cases s.cache k))
  | createRow k row =>
    simp only [step] at h
    split_ifs at h with hfree
    cases h
    refine Or.inr (OtherStep.of_row (fun _ => hfree.2) fun r hr => ?_)
    rw [hfree.1] at hr
    cases hr
  | issue k validated =>
    simp only [step] at h
    split_ifs at h with hfree
    cases h
    exact Or.inr (OtherStep.of_entry fun _ => hfree.1)
  | expire k =>
    simp only [step] at h
    split at h
    · rename_i validated live hentry
      cases h
      refine Or.inr (OtherStep.of_entry fun hs => ?_)
      by_contra hrow
      rw [hs k hrow] at hentry
      cases hentry
    · cases h

theorem Apart.step (hs : s.Apart) (h : (machine parseScope).step s a = some s') : s'.Apart := by
  rcases step_cases h with ⟨n, k, old, new, hcall⟩ | hother
  · intro k' hk'
    rw [hcall.apiKeys] at hk'
    rcases hcall.entries k' with he | he
    · exact he.trans (hs k' hk')
    · exact he
  · exact hother.apart hs

/-! ## A revoked key that nothing can bring back -/

/-- The key is revoked, is neither cached nor delegated, and no call holds its row. -/
structure Final (k : K) (s : State K) : Prop where
  revoked : ∃ row, s.apiKeys k = some ⟨row, true⟩
  uncached : s.cache k = none
  apart : s.Apart
  unread : ∀ n validated, s.calls n ≠ some ⟨k, .read validated⟩

def Refused (n : ℕ) (k : K) (s : State K) : Prop :=
  ∃ phase, s.calls n = some ⟨k, phase⟩ ∧ ∀ validated, phase ≠ .done (.ok validated)

omit [DecidableEq K] in
theorem Final.undelegated (hs : s.Final k) : s.entries k = none := by
  obtain ⟨row, hrow⟩ := hs.revoked
  exact hs.apart k (by rw [hrow]; exact Option.some_ne_none _)

omit [DecidableEq K] in
theorem Final.activeRow (hs : s.Final k) : s.activeRow k = none := by
  obtain ⟨row, hrow⟩ := hs.revoked
  unfold State.activeRow
  rw [hrow]

omit [DecidableEq K] in
theorem Final.advance (hs : s.Final k) {n : ℕ} {new : Phase}
    (hbefore : s.calls n = old.map (Call.mk k)) (hadv : Advance parseScope s k old new) :
    (∀ validated, new ≠ .read validated) ∧ ∀ validated, new ≠ .done (.ok validated) := by
  cases hadv with
  | start | notDelegated | miss | refuse e => exact ⟨nofun, nofun⟩
  | entry h =>
    rw [hs.undelegated] at h
    cases h
  | hit h =>
    rw [hs.uncached] at h
    cases h
  | row h =>
    rw [hs.activeRow] at h
    cases h
  | insert validated => exact absurd hbefore (hs.unread n validated)

theorem Final.step (hs : s.Final k) (h : (machine parseScope).step s a = some s') : s'.Final k := by
  have hapart := hs.apart.step h
  obtain ⟨row, hrow⟩ := hs.revoked
  rcases step_cases h with ⟨n, k', old, new, hcall⟩ | hother
  · refine ⟨⟨row, by rw [hcall.apiKeys, hrow]⟩, ?_, hapart, fun m validated => ?_⟩
    · rcases hcall.cache with hcache | ⟨validated, rfl, hcache⟩
      · rw [hcache, hs.uncached]
      · -- the inserted key is another one, since no call holds the row of `k`
        have hk : k ≠ k' := by
          rintro rfl
          exact hs.unread n validated hcall.before
        rw [hcache, update_of_ne hk, hs.uncached]
    · rw [hcall.calls]
      by_cases hm : m = n
      · subst hm
        rw [update_self]
        intro heq
        obtain ⟨rfl, rfl⟩ : k' = k ∧ new = .read validated := by simpa using heq
        exact (hs.advance hcall.before hcall.advance).1 validated rfl
      · rw [update_of_ne hm]
        exact hs.unread m validated
  · refine ⟨⟨row, hother.revoked k row hrow⟩, ?_, hapart, ?_⟩
    · rcases hother.cache k with hc | hc
      · rw [hc, hs.uncached]
      · exact hc
    · rw [hother.calls]
      exact hs.unread

theorem Refused.step {n : ℕ} (hn : s.Refused n k) (hs : s.Final k)
    (h : (machine parseScope).step s a = some s') : s'.Refused n k := by
  obtain ⟨phase, hphase, hno⟩ := hn
  rcases step_cases h with ⟨m, k', old, new, hcall⟩ | hother
  · by_cases hm : n = m
    · subst hm
      obtain rfl : k' = k := by
        rcases old with _ | old
        · rw [hcall.before] at hphase
          cases hphase
        · rw [hcall.before] at hphase
          exact congrArg Call.keyHash (Option.some.inj hphase)
      refine ⟨new, ?_, (hs.advance hcall.before hcall.advance).2⟩
      rw [hcall.calls, update_self]
    · exact ⟨phase, by rw [hcall.calls, update_of_ne hm, hphase], hno⟩
  · exact ⟨phase, by rw [hother.calls, hphase], hno⟩

/-- When a revoked key is dropped from the cache, no call holds its row. -/
def NoStaleRead (s : State K) : Label K → Prop
  | .invalidateCache k => (∃ row, s.apiKeys k = some ⟨row, true⟩) →
      ∀ n validated, s.calls n ≠ some ⟨k, .read validated⟩
  | _ => True

omit [DecidableEq K] in
theorem apart_initial (apiKeys : K → Option TableRow) : (initial apiKeys).Apart :=
  fun _ _ => rfl

variable {as : List (Label K)}

theorem revoked_of_exec {row : KeyRow}
    (hrow : s.apiKeys k = some ⟨row, true⟩) (h : (machine parseScope).exec s as = some s') :
    s'.apiKeys k = some ⟨row, true⟩ := by
  refine Machine.invariant (machine parseScope) (I := fun s => s.apiKeys k = some ⟨row, true⟩) ?_
    hrow h
  intro s a s' hs hstep
  rcases step_cases hstep with ⟨n, k', old, new, hcall⟩ | hother
  · rw [hcall.apiKeys, hs]
  · exact hother.revoked k row hs

theorem final_of_invalidateCache (hapart : s.Apart)
    (hrow : ∃ row, s.apiKeys k = some ⟨row, true⟩) (hread : s.NoStaleRead (.invalidateCache k))
    (h : (machine parseScope).step s (.invalidateCache k) = some s') : s'.Final k := by
  have hapart' := hapart.step h
  cases h
  exact ⟨hrow, update_self .., hapart', hread hrow⟩

theorem Apart.exec (hs : s.Apart) (h : (machine parseScope).exec s as = some s') : s'.Apart :=
  Machine.invariant _ (fun _ _ _ hs hstep => Apart.step hs hstep) hs h

theorem Final.exec (hs : s.Final k) (h : (machine parseScope).exec s as = some s') : s'.Final k :=
  Machine.invariant _ (fun _ _ _ hs hstep => Final.step hs hstep) hs h

theorem final_of_exec {before between after : List (Label K)} (hs : s.Apart)
    (hrun : (machine parseScope).exec s
      (before ++ .revoke k :: (between ++ .invalidateCache k :: after)) = some s')
    (hmeets : (machine parseScope).Meets NoStaleRead s
      (before ++ .revoke k :: (between ++ .invalidateCache k :: after))) : s'.Final k := by
  obtain ⟨s₁, hs₁, hrun⟩ := (Machine.exec_append_eq_some _).1 hrun
  have hmeets := hmeets.of_append _ hs₁
  obtain ⟨s₂, hs₂, hrun⟩ := (Machine.exec_cons_eq_some _).1 hrun
  have hmeets := hmeets.2 s₂ hs₂
  obtain ⟨s₃, hs₃, hrun⟩ := (Machine.exec_append_eq_some _).1 hrun
  have hmeets := hmeets.of_append _ hs₃
  obtain ⟨s₄, hs₄, hrun⟩ := (Machine.exec_cons_eq_some _).1 hrun
  have hrow : ∃ row, s₂.apiKeys k = some ⟨row, true⟩ := by
    simp only [step] at hs₂
    split at hs₂
    · cases hs₂
      exact ⟨_, update_self ..⟩
    · cases hs₂
  obtain ⟨row, hrow⟩ := hrow
  have hapart : s₃.Apart := ((hs.exec hs₁).step hs₂).exec hs₃
  exact (final_of_invalidateCache hapart ⟨row, revoked_of_exec hrow hs₃⟩ hmeets.1 hs₄).exec hrun

/-- No key is accepted after its revocation and invalidation, if nothing stale is read in between.
-/
theorem revoked_key_refused (apiKeys : K → Option TableRow) (k : K) (n : ℕ)
    (before between after rest : List (Label K)) (t : State K)
    (hrun : (machine parseScope).exec (initial apiKeys)
      (before ++ .revoke k :: (between ++ .invalidateCache k :: (after ++ .start n k :: rest))) =
        some t)
    (hmeets : (machine parseScope).Meets NoStaleRead (initial apiKeys)
      (before ++ .revoke k :: (between ++ .invalidateCache k :: (after ++ .start n k :: rest)))) :
    ∀ validated, t.calls n ≠ some ⟨k, .done (.ok validated)⟩ := by
  have hsplit : before ++ .revoke k :: (between ++ .invalidateCache k :: (after ++ .start n k ::
      rest)) = (before ++ .revoke k :: (between ++ .invalidateCache k :: after)) ++
      .start n k :: rest := by simp
  rw [hsplit] at hrun hmeets
  obtain ⟨s₁, hs₁, hrun⟩ := (Machine.exec_append_eq_some _).1 hrun
  obtain ⟨s₂, hs₂, hrun⟩ := (Machine.exec_cons_eq_some _).1 hrun
  have hfinal : s₁.Final k := final_of_exec (apart_initial apiKeys) hs₁ hmeets.append_left
  have hrefused : s₂.Refused n k := by
    simp only [step] at hs₂
    split at hs₂
    · cases hs₂
      exact ⟨.started, update_self .., nofun⟩
    · cases hs₂
  obtain ⟨-, phase, hphase, hno⟩ := Machine.invariant (machine parseScope)
    (I := fun s => s.Final k ∧ s.Refused n k)
    (fun _ _ _ hs hstep => ⟨hs.1.step hstep, hs.2.step hs.1 hstep⟩)
    ⟨hfinal.step hs₂, hrefused⟩ hrun
  rw [hphase]
  rintro validated ⟨⟩
  exact hno validated rfl

end State

/-! ## Two runs of one key -/

section

def sampleRow : KeyRow := ⟨7, 1, ["OpenAiCompat"], none⟩

def sampleScope : String → Option Scope
  | "OpenAiCompat" => some .openAiCompat
  | "Management" => some .management
  | "XaasAdmin" => some .xaasAdmin
  | _ => none

def sampleTable : ℕ → Option TableRow := fun k => if k = 0 then some ⟨sampleRow, false⟩ else none

/-- Call `0` reads the row, the key is revoked and invalidated, call `0` inserts what it has read,
and call `1` finds it. -/
def staleInsert : List (Label ℕ) :=
  [.start 0 0, .lookupEntries 0, .lookupCache 0, .readRow 0, .revoke 0, .invalidateEntry 0,
    .invalidateCache 0, .insertCache 0, .start 1 0, .lookupEntries 1, .lookupCache 1]

theorem stale_insert_revives_key :
    ((State.machine sampleScope).exec (State.initial sampleTable) staleInsert).map
      (fun t => t.calls 1) = some (some ⟨0, .done (.ok (sampleRow.validated sampleScope))⟩) := by
  rfl

/-- Call `0` ends before the key is revoked. -/
def earlierCall : List (Label ℕ) :=
  [.start 0 0, .lookupEntries 0, .lookupCache 0, .readRow 0, .insertCache 0]

/-- Call `0` ends before the key is revoked and invalidated, and call `1` reads the table. -/
def orderlyRevocation : List (Label ℕ) :=
  earlierCall ++ .revoke 0 :: ([.invalidateEntry 0] ++ .invalidateCache 0 :: ([] ++ .start 1 0 ::
    [.lookupEntries 1, .lookupCache 1, .readRow 1]))

theorem meets_orderlyRevocation :
    (State.machine sampleScope).Meets State.NoStaleRead (State.initial sampleTable)
      orderlyRevocation := by
  unfold orderlyRevocation earlierCall
  iterate 7 refine Machine.Meets.cons _ trivial rfl ?_
  refine Machine.Meets.cons _ ?_ rfl ?_
  · rintro - n validated
    rcases n with _ | n
    · exact nofun
    · exact nofun
  · iterate 4 refine Machine.Meets.cons _ trivial rfl ?_
    trivial

theorem revoked_key_refused_orderly :
    ∃ t, (State.machine sampleScope).exec (State.initial sampleTable) orderlyRevocation = some t ∧
      ∀ validated, t.calls 1 ≠ some ⟨0, .done (.ok validated)⟩ := by
  obtain ⟨t, ht⟩ : ∃ t, (State.machine sampleScope).exec (State.initial sampleTable)
      orderlyRevocation = some t := ⟨_, rfl⟩
  exact ⟨t, ht, State.revoked_key_refused sampleTable 0 1 earlierCall [.invalidateEntry 0] []
    [.lookupEntries 1, .lookupCache 1, .readRow 1] t ht meets_orderlyRevocation⟩

end

end Gadgetron.Auth
