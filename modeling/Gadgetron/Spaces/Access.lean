import Gadgetron.Core.Context
import Gadgetron.Lib.Best
import Gadgetron.Lib.Exec
import Mathlib.Logic.Function.Basic

/-!
# Access to knowledge spaces

`upsert_grant`, `revoke_grant` and `effective_role`, with the tables that they read.
-/

namespace Gadgetron.Spaces

open Lib Function List Option

inductive SpaceRole
  | viewer
  | contributor
  | curator
  | manager
  deriving DecidableEq

def SpaceRole.weight : SpaceRole → ℕ
  | .viewer => 1
  | .contributor => 2
  | .curator => 3
  | .manager => 4

theorem SpaceRole.weight_injective : Injective SpaceRole.weight := by
  intro a b h
  cases a <;> cases b <;> first | rfl | exact absurd h (by decide)

abbrev stronger (current : Option SpaceRole) (candidate : SpaceRole) : Option SpaceRole :=
  keepBest SpaceRole.weight current candidate

inductive PrincipalKind
  | user
  | team
  | group
  deriving DecidableEq

inductive KnowledgeSpaceError
  | invalidInput (reason : String)
  | notFound
  | forbidden
  | revisionConflict
  | database
  deriving DecidableEq

structure SpaceActor where
  (tenantId userId : Uuid)
  deriving DecidableEq

inductive UserRole
  | member
  | admin
  | service
  deriving DecidableEq

inductive TeamRole
  | member
  | lead

structure UserRow where
  tenantId : Uuid
  role : UserRole
  isActive : Bool

structure ProjectRow where
  (tenantId ownerUserId : Uuid)

inductive SpaceKind
  | personal
  | project
  | team
  | tenantShared
  deriving DecidableEq

inductive SpaceStatus
  | active
  | archived
  deriving DecidableEq

structure KnowledgeSpaceRow where
  (id tenantId : Uuid)
  kind : SpaceKind
  ownerUserId : Option Uuid
  ownerTeamId : Option String
  ownerProjectId : Option Uuid
  status : SpaceStatus

structure KnowledgeSpaceGrantRow where
  (id tenantId spaceId : Uuid)
  principalKind : PrincipalKind
  principalId : String
  role : SpaceRole
  expiresAt : Option ℕ
  createdBy : Uuid
  revision : ℤ
  revokedAt : Option ℕ

/-- The columns of `UNIQUE (space_id, principal_kind, principal_id)`. -/
def KnowledgeSpaceGrantRow.key (row : KnowledgeSpaceGrantRow) : Uuid × PrincipalKind × String :=
  (row.spaceId, row.principalKind, row.principalId)

def KnowledgeSpaceGrantRow.grant (row : KnowledgeSpaceGrantRow) : Option (SpaceRole × Option ℕ) :=
  if row.revokedAt = none then some (row.role, row.expiresAt) else none

structure GrantChange where
  spaceId : Uuid
  principalKind : PrincipalKind
  principalId : String
  grant : Option (SpaceRole × Option ℕ)

/-- The tables, by their primary keys, and the clock.  `teams` and `groups` have the tenant of each;
`changes` is what accepted calls have said, the last first. -/
structure Registry where
  users : Uuid → Option UserRow
  projects : Uuid → Option ProjectRow
  teams : String → Option Uuid
  teamMembers : String → Uuid → Option TeamRole
  groups : String → Option Uuid
  userGroups : String → Uuid → Bool
  spaces : Uuid → Option KnowledgeSpaceRow
  grants : List KnowledgeSpaceGrantRow
  now : ℕ
  changes : List GrantChange

def Registry.empty : Registry where
  users := fun _ => none
  projects := fun _ => none
  teams := fun _ => none
  teamMembers := fun _ _ => none
  groups := fun _ => none
  userGroups := fun _ _ => false
  spaces := fun _ => none
  grants := []
  now := 0
  changes := []

namespace Registry

/-! ## Roles of an actor -/

def ensureActiveActor (s : Registry) (actor : SpaceActor) : Except KnowledgeSpaceError UserRole :=
  match s.users actor.userId with
  | some user =>
    if user.tenantId = actor.tenantId ∧ user.isActive then .ok user.role else .error .forbidden
  | none => .error .forbidden

def projectOwner (s : Registry) (tenantId projectId : Uuid) : Option Uuid :=
  ((s.projects projectId).filter fun project => project.tenantId = tenantId).map (·.ownerUserId)

def teamRole (s : Registry) (actor : SpaceActor) (teamId : String) : Option TeamRole :=
  if s.teams teamId = some actor.tenantId then s.teamMembers teamId actor.userId else none

def inGroup (s : Registry) (actor : SpaceActor) (groupId : String) : Bool :=
  s.groups groupId = some actor.tenantId && s.userGroups groupId actor.userId

/-- The first part of `effective_role`: the role that needs no grant. -/
def standingRole (s : Registry) (actor : SpaceActor) (space : KnowledgeSpaceRow) :
    Option SpaceRole :=
  let best := if space.ownerUserId = some actor.userId then stronger none .manager else none
  let best :=
    match space.ownerProjectId with
    | some projectId =>
      if s.projectOwner actor.tenantId projectId = some actor.userId then
        stronger best .manager
      else best
    | none => best
  let best :=
    match space.ownerTeamId with
    | some teamId =>
      match s.teamRole actor teamId with
      | some .lead => stronger best .manager
      | some .member => stronger best .contributor
      | none => best
    | none => best
  if space.kind = .tenantShared then stronger best .viewer else best

/-- The part about the principal in the `WHERE` of the query for explicit grants. -/
def principalMatches (s : Registry) (actor : SpaceActor) (kind : PrincipalKind)
    (principalId : String) : Bool :=
  match kind with
  | .user => principalId = actor.userId.toText
  | .team => (s.teamRole actor principalId).isSome
  | .group => s.inGroup actor principalId

/-- The whole of that `WHERE`. -/
def grantApplies (s : Registry) (actor : SpaceActor) (space : KnowledgeSpaceRow)
    (g : KnowledgeSpaceGrantRow) : Bool :=
  g.tenantId = actor.tenantId ∧ g.spaceId = space.id ∧ g.revokedAt = none ∧
    (∀ t ∈ g.expiresAt, s.now < t) ∧ s.principalMatches actor g.principalKind g.principalId

def explicitRoles (s : Registry) (actor : SpaceActor) (space : KnowledgeSpaceRow) :
    List SpaceRole :=
  (s.grants.filter (s.grantApplies actor space)).map (·.role)

def effectiveRole (s : Registry) (actor : SpaceActor) (space : KnowledgeSpaceRow) :
    Except KnowledgeSpaceError (Option SpaceRole) := do
  let actorRole ← s.ensureActiveActor actor
  if actorRole = .admin then
    return some .manager
  else
    return (s.explicitRoles actor space).foldl stronger (s.standingRole actor space)

def requireRole (s : Registry) (actor : SpaceActor) (spaceId : Uuid) (required : SpaceRole)
    (requireActive : Bool) : Except KnowledgeSpaceError KnowledgeSpaceRow :=
  match (s.spaces spaceId).filter fun space => space.tenantId = actor.tenantId with
  | none => .error .notFound
  | some space =>
    if requireActive ∧ space.status ≠ .active then .error .forbidden
    else do
      match ← s.effectiveRole actor space with
      | none => .error .forbidden
      | some role => if role.weight < required.weight then .error .forbidden else .ok space

/-! ## Grants -/

/-- `validate_principal`; `parse` is `Uuid::parse_str`. -/
def validatePrincipal (parse : String → Option Uuid) (s : Registry) (tenantId : Uuid)
    (kind : PrincipalKind) (principalId : String) : Except KnowledgeSpaceError Unit := do
  let found ←
    match kind with
    | .user =>
      match parse principalId with
      | some id => .ok ((s.users id).any fun user => user.tenantId = tenantId)
      | none => .error (.invalidInput "user principal must be a UUID")
    | .team => .ok (s.teams principalId = some tenantId : Bool)
    | .group => .ok (s.groups principalId = some tenantId : Bool)
  if found then .ok () else .error .notFound

def replaceGrant (s : Registry) (row : KnowledgeSpaceGrantRow) : List KnowledgeSpaceGrantRow :=
  s.grants.map fun g => if g.id = row.id then row else g

end Registry

/-- The arguments of `upsert_grant`, and the id that a new row would get. -/
structure UpsertGrant where
  actor : SpaceActor
  spaceId : Uuid
  principalKind : PrincipalKind
  principalId : String
  role : SpaceRole
  expiresAt : Option ℕ
  newId : Uuid

def UpsertGrant.change (call : UpsertGrant) : GrantChange where
  spaceId := call.spaceId
  principalKind := call.principalKind
  principalId := call.principalId
  grant := some (call.role, call.expiresAt)

structure RevokeGrant where
  actor : SpaceActor
  (spaceId grantId : Uuid)
  expectedRevision : ℤ

namespace Registry

def upsertGrant (parse : String → Option Uuid) (s : Registry) (call : UpsertGrant) :
    Except KnowledgeSpaceError (Registry × KnowledgeSpaceGrantRow) := do
  let _ ← s.requireRole call.actor call.spaceId .manager true
  validatePrincipal parse s call.actor.tenantId call.principalKind call.principalId
  match s.grants.find? fun g => g.key = (call.spaceId, call.principalKind, call.principalId) with
  | some old =>
    let row :=
      { old with
        role := call.role
        expiresAt := call.expiresAt
        revokedAt := none
        revision := old.revision + 1
        createdBy := call.actor.userId }
    .ok ({ s with grants := s.replaceGrant row, changes := call.change :: s.changes }, row)
  | none =>
    -- The primary key is not the target of `ON CONFLICT`.
    if s.grants.any fun g => g.id = call.newId then .error .database
    else
      let row :=
        { id := call.newId
          tenantId := call.actor.tenantId
          spaceId := call.spaceId
          principalKind := call.principalKind
          principalId := call.principalId
          role := call.role
          expiresAt := call.expiresAt
          createdBy := call.actor.userId
          revision := 1
          revokedAt := none }
      .ok ({ s with grants := s.grants ++ [row], changes := call.change :: s.changes }, row)

def resolveCas (s : Registry) (grantId tenantId : Uuid) : KnowledgeSpaceError :=
  if s.grants.any fun g => g.id = grantId ∧ g.tenantId = tenantId then .revisionConflict
  else .notFound

def revokeGrant (s : Registry) (call : RevokeGrant) :
    Except KnowledgeSpaceError (Registry × KnowledgeSpaceGrantRow) := do
  let _ ← s.requireRole call.actor call.spaceId .manager true
  match s.grants.find? fun g =>
      g.id = call.grantId ∧ g.tenantId = call.actor.tenantId ∧ g.spaceId = call.spaceId ∧
        g.revision = call.expectedRevision ∧ g.revokedAt = none with
  | some old =>
    let row := { old with revokedAt := some s.now, revision := old.revision + 1 }
    let change : GrantChange :=
      { spaceId := row.spaceId
        principalKind := row.principalKind
        principalId := row.principalId
        grant := none }
    .ok ({ s with grants := s.replaceGrant row, changes := change :: s.changes }, row)
  | none => .error (s.resolveCas call.grantId call.actor.tenantId)

end Registry

inductive RegistryLabel
  | putUser (id : Uuid) (row : Option UserRow)
  | putProject (id : Uuid) (row : Option ProjectRow)
  | putTeam (id : String) (tenantId : Option Uuid)
  | putTeamMember (teamId : String) (userId : Uuid) (role : Option TeamRole)
  | putGroup (id : String) (tenantId : Option Uuid)
  | putUserGroup (groupId : String) (userId : Uuid) (isMember : Bool)
  /-- A space is made, or a column of it other than its tenant changes. -/
  | putSpace (row : KnowledgeSpaceRow)
  | clock (now : ℕ)
  | upsertGrant (call : UpsertGrant)
  | revokeGrant (call : RevokeGrant)

/-- The registry after a call, which is the one before it if the call fails. -/
def Registry.after (s : Registry)
    (result : Except KnowledgeSpaceError (Registry × KnowledgeSpaceGrantRow)) : Registry :=
  match result with
  | .ok (s', _) => s'
  | .error _ => s

abbrev registryMachine (parse : String → Option Uuid) : Machine Registry RegistryLabel where
  step s
    | .putUser id row => some { s with users := update s.users id row }
    | .putProject id row => some { s with projects := update s.projects id row }
    | .putTeam id tenantId => some { s with teams := update s.teams id tenantId }
    | .putTeamMember teamId userId role =>
      some { s with
        teamMembers := update s.teamMembers teamId (update (s.teamMembers teamId) userId role) }
    | .putGroup id tenantId => some { s with groups := update s.groups id tenantId }
    | .putUserGroup groupId userId isMember =>
      some { s with
        userGroups := update s.userGroups groupId (update (s.userGroups groupId) userId isMember) }
    | .putSpace row =>
      if (s.spaces row.id).all fun old => old.tenantId = row.tenantId then
        some { s with spaces := update s.spaces row.id (some row) }
      else none
    | .clock now => some { s with now }
    | .upsertGrant call => some (s.after (s.upsertGrant parse call))
    | .revokeGrant call => some (s.after (s.revokeGrant call))

/-! ## What an accepted call does -/

/-- No two rows share a primary key or the columns of the unique constraint, and a row has the
tenant of its space. -/
structure Registry.Tidy (s : Registry) : Prop where
  id_inj : ∀ g ∈ s.grants, ∀ g' ∈ s.grants, g.id = g'.id → g = g'
  key_inj : ∀ g ∈ s.grants, ∀ g' ∈ s.grants, g.key = g'.key → g = g'
  tenant : ∀ g ∈ s.grants, ∃ space, s.spaces g.spaceId = some space ∧ space.tenantId = g.tenantId

def KnowledgeSpaceGrantRow.change (row : KnowledgeSpaceGrantRow) : GrantChange where
  spaceId := row.spaceId
  principalKind := row.principalKind
  principalId := row.principalId
  grant := row.grant

/-- `s'` is `s` with the row in place of the one with its key, if there is one, and the change
noted. -/
structure Registry.Writes (s : Registry) (row : KnowledgeSpaceGrantRow) (s' : Registry) : Prop where
  eq : s' = { s with grants := s'.grants, changes := row.change :: s.changes }
  mem : ∀ g, g ∈ s'.grants ↔ g = row ∨ g ∈ s.grants ∧ g.key ≠ row.key
  id : ∀ g ∈ s.grants, g.id = row.id → g.key = row.key
  tenant : ∃ space, s.spaces row.spaceId = some space ∧ space.tenantId = row.tenantId

namespace Registry

variable {parse : String → Option Uuid} {s s' : Registry} {row : KnowledgeSpaceGrantRow}

theorem key_eq_iff {g : KnowledgeSpaceGrantRow} :
    row.key = g.key ↔ row.spaceId = g.spaceId ∧ row.principalKind = g.principalKind ∧
      row.principalId = g.principalId := by
  simp [KnowledgeSpaceGrantRow.key]

variable {call : UpsertGrant}

theorem change_eq_iff : row.change = call.change ↔ row.spaceId = call.spaceId ∧
      row.principalKind = call.principalKind ∧ row.principalId = call.principalId ∧
      row.grant = some (call.role, call.expiresAt) := by
  simp [KnowledgeSpaceGrantRow.change, UpsertGrant.change]

variable {actor : SpaceActor}

theorem principalMatches_user {text : String} :
    s.principalMatches actor .user text ↔ text = actor.userId.toText :=
  decide_eq_true_iff

theorem requireRole_ok {spaceId : Uuid} {required : SpaceRole}
    {requireActive : Bool} {space : KnowledgeSpaceRow}
    (h : s.requireRole actor spaceId required requireActive = .ok space) :
    s.spaces spaceId = some space ∧ space.tenantId = actor.tenantId := by
  unfold requireRole at h
  split at h
  · cases h
  · rename_i found hfound
    obtain ⟨hspace, htenant⟩ := filter_eq_some_iff.1 hfound
    split_ifs at h
    obtain ⟨best, -, h⟩ := bind_eq_ok.1 h
    split at h
    · cases h
    · split_ifs at h
      cases h
      exact ⟨hspace, by simpa using htenant⟩

section

variable (htidy : s.Tidy)
include htidy

theorem Tidy.writes_replace {old : KnowledgeSpaceGrantRow}
    (hold : old ∈ s.grants) (hid : row.id = old.id) (hkey : row.key = old.key)
    (htenant : row.tenantId = old.tenantId) :
    s.Writes row { s with grants := s.replaceGrant row, changes := row.change :: s.changes } where
  eq := rfl
  mem g := by
    -- The rows that stay are those with another id, which are those with another key.
    have hstay : ∀ g ∈ s.grants, g.id = row.id ↔ g.key = row.key := by
      intro g hg
      constructor
      · intro h
        rw [htidy.id_inj g hg old hold (h.trans hid), hkey]
      · intro h
        rw [htidy.key_inj g hg old hold (h.trans hkey), hid]
    simp only [replaceGrant, List.mem_map]
    constructor
    · rintro ⟨g', hg', rfl⟩
      split_ifs with h
      · exact .inl rfl
      · exact .inr ⟨hg', fun hk => h ((hstay g' hg').2 hk)⟩
    · rintro (rfl | ⟨hg, hk⟩)
      · exact ⟨old, hold, if_pos hid.symm⟩
      · exact ⟨g, hg, if_neg fun h => hk ((hstay g hg).1 h)⟩
  id g hg h := by rw [htidy.id_inj g hg old hold (h.trans hid), hkey]
  tenant := by
    rw [(key_eq_iff.1 hkey).1, htenant]
    exact htidy.tenant old hold

theorem upsertGrant_writes (h : s.upsertGrant parse call = .ok (s', row)) :
    (∃ space, s.requireRole call.actor call.spaceId .manager true = .ok space) ∧
      validatePrincipal parse s call.actor.tenantId call.principalKind call.principalId = .ok () ∧
      row.change = call.change ∧ s.Writes row s' := by
  obtain ⟨space, hspace, ⟨⟩, hvalid, h⟩ := bind₂_eq_ok.1 h
  refine ⟨⟨space, hspace⟩, hvalid, ?_⟩
  split at h
  · rename_i old hfind
    obtain ⟨rfl, rfl⟩ := Prod.mk.inj (Except.ok.inj h)
    have hkey : old.key = (call.spaceId, call.principalKind, call.principalId) := by
      simpa using find?_some hfind
    obtain ⟨hspaceId, hkind, hprincipal⟩ : old.spaceId = call.spaceId ∧
        old.principalKind = call.principalKind ∧ old.principalId = call.principalId := by
      simpa [KnowledgeSpaceGrantRow.key] using hkey
    have hchange : KnowledgeSpaceGrantRow.change { old with
        role := call.role
        expiresAt := call.expiresAt
        revokedAt := none
        revision := old.revision + 1
        createdBy := call.actor.userId } = call.change :=
      change_eq_iff.2 ⟨hspaceId, hkind, hprincipal, rfl⟩
    refine ⟨hchange, ?_⟩
    rw [← hchange]
    exact htidy.writes_replace (mem_of_find?_eq_some hfind) rfl rfl rfl
  · rename_i hfind
    split_ifs at h with hid
    obtain ⟨rfl, rfl⟩ := Prod.mk.inj (Except.ok.inj h)
    refine ⟨rfl, rfl, fun g => ?_, fun g hg hgid => ?_, ?_⟩
    · have hnew : ∀ g ∈ s.grants,
          g.key ≠ (call.spaceId, call.principalKind, call.principalId) := by
        simpa using hfind
      simp only [mem_append, mem_singleton]
      constructor
      · rintro (hg | rfl)
        · exact .inr ⟨hg, hnew g hg⟩
        · exact .inl rfl
      · rintro (rfl | ⟨hg, -⟩)
        · exact .inr rfl
        · exact .inl hg
    · exact absurd (List.any_eq_true.2 ⟨g, hg, by simpa using hgid⟩) hid
    · exact ⟨space, requireRole_ok hspace⟩

theorem revokeGrant_writes {call : RevokeGrant}
    (h : s.revokeGrant call = .ok (s', row)) :
    (∃ old ∈ s.grants, row.key = old.key) ∧ s.Writes row s' := by
  obtain ⟨_, -, h⟩ := bind_eq_ok.1 h
  split at h
  · rename_i old hfind
    obtain ⟨rfl, rfl⟩ := Prod.mk.inj (Except.ok.inj h)
    have hold := mem_of_find?_eq_some hfind
    exact ⟨⟨old, hold, rfl⟩, htidy.writes_replace hold rfl rfl rfl⟩
  · cases h

theorem step_cases {a : RegistryLabel}
    (h : (registryMachine parse).step s a = some s') :
    (s'.grants = s.grants ∧ s'.changes = s.changes ∧ ∀ id space, s.spaces id = some space →
      ∃ space', s'.spaces id = some space' ∧ space'.tenantId = space.tenantId) ∨
    ∃ row, s.Writes row s' ∧
      ((∃ call, a = .upsertGrant call ∧ s.upsertGrant parse call = .ok (s', row)) ∨
        ∃ old ∈ s.grants, row.key = old.key) := by
  cases a with
  | putSpace row =>
    obtain ⟨htenant, rfl⟩ : (s.spaces row.id).all (fun old => old.tenantId = row.tenantId) ∧
        { s with spaces := update s.spaces row.id (some row) } = s' := by
      simpa using h
    refine .inl ⟨rfl, rfl, fun id space hspace => ?_⟩
    by_cases hid : id = row.id
    · subst hid
      exact ⟨row, update_self .., by simpa [hspace, eq_comm] using htenant⟩
    · exact ⟨space, (update_of_ne hid ..).trans hspace, rfl⟩
  | upsertGrant call =>
    obtain rfl := some.inj h
    cases hcall : s.upsertGrant parse call with
    | error e => exact .inl ⟨rfl, rfl, fun id space hspace => ⟨space, hspace, rfl⟩⟩
    | ok result =>
      refine .inr ⟨result.2, (upsertGrant_writes htidy hcall).2.2.2, .inl ⟨call, rfl, ?_⟩⟩
      exact hcall
  | revokeGrant call =>
    obtain rfl := some.inj h
    cases hcall : s.revokeGrant call with
    | error e => exact .inl ⟨rfl, rfl, fun id space hspace => ⟨space, hspace, rfl⟩⟩
    | ok result =>
      obtain ⟨hold, hwrites⟩ := revokeGrant_writes htidy hcall
      exact .inr ⟨result.2, hwrites, .inr hold⟩
  | _ =>
    obtain rfl := some.inj h
    exact .inl ⟨rfl, rfl, fun id space hspace => ⟨space, hspace, rfl⟩⟩

theorem Tidy.writes (h : s.Writes row s') : s'.Tidy where
  id_inj g hg g' hg' hid := by
    rcases (h.mem g).1 hg with rfl | ⟨hgs, hk⟩
    · rcases (h.mem g').1 hg' with rfl | ⟨hgs', hk'⟩
      · rfl
      · exact absurd (h.id g' hgs' hid.symm) hk'
    · rcases (h.mem g').1 hg' with rfl | ⟨hgs', hk'⟩
      · exact absurd (h.id g hgs hid) hk
      · exact htidy.id_inj g hgs g' hgs' hid
  key_inj g hg g' hg' hkey := by
    rcases (h.mem g).1 hg with rfl | ⟨hgs, hk⟩
    · rcases (h.mem g').1 hg' with rfl | ⟨hgs', hk'⟩
      · rfl
      · exact absurd hkey.symm hk'
    · rcases (h.mem g').1 hg' with rfl | ⟨hgs', hk'⟩
      · exact absurd hkey hk
      · exact htidy.key_inj g hgs g' hgs' hkey
  tenant g hg := by
    rw [h.eq]
    rcases (h.mem g).1 hg with rfl | ⟨hgs, -⟩
    · exact h.tenant
    · exact htidy.tenant g hgs

theorem Tidy.step {a : RegistryLabel}
    (h : (registryMachine parse).step s a = some s') : s'.Tidy := by
  rcases step_cases htidy h with ⟨hgrants, -, hspaces⟩ | ⟨row, hwrites, -⟩
  · refine ⟨hgrants ▸ htidy.id_inj, hgrants ▸ htidy.key_inj, fun g hg => ?_⟩
    obtain ⟨space, hspace, htenant⟩ := htidy.tenant g (hgrants ▸ hg)
    obtain ⟨space', hspace', htenant'⟩ := hspaces g.spaceId space hspace
    exact ⟨space', hspace', htenant'.trans htenant⟩
  · exact htidy.writes hwrites

end

theorem tidy_empty : empty.Tidy where
  id_inj _ hg := absurd hg not_mem_nil
  key_inj _ hg := absurd hg not_mem_nil
  tenant _ hg := absurd hg not_mem_nil

theorem tidy_of_exec {as : List RegistryLabel} {s : Registry}
    (hrun : (registryMachine parse).exec empty as = some s) : s.Tidy :=
  Machine.invariant _ (fun _ _ _ hs hstep => hs.step hstep) tidy_empty hrun

end Registry

end Gadgetron.Spaces
