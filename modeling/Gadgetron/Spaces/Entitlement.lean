import Gadgetron.Spaces.Access

/-!
# Who is entitled to what

The role that a user is meant to have on a space: the strongest of those from owning it, from its
team, from its being shared and from what was last said of each principal.
-/

namespace Gadgetron.Spaces

open Lib Function Option

inductive Principal
  | user (id : Uuid)
  | team (id : String)
  | group (id : String)
  deriving DecidableEq

def Principal.kind : Principal → PrincipalKind
  | .user _ => .user
  | .team _ => .team
  | .group _ => .group

/-- The text that `effective_role` finds the principal under. -/
def Principal.text : Principal → String
  | .user id => id.toText
  | .team id => id
  | .group id => id

/-- The principal that a call names; `parse` is `Uuid::parse_str`. -/
def principalOf (parse : String → Option Uuid) (kind : PrincipalKind) (principalId : String) :
    Option Principal :=
  match kind with
  | .user => (parse principalId).map .user
  | .team => some (.team principalId)
  | .group => some (.group principalId)

def latestGrant (parse : String → Option Uuid) (spaceId : Uuid) (principal : Principal) :
    List GrantChange → Option (SpaceRole × Option ℕ)
  | [] => none
  | change :: older =>
    if change.spaceId = spaceId ∧
        principalOf parse change.principalKind change.principalId = some principal then
      change.grant
    else latestGrant parse spaceId principal older

/-- The principal is the actor or has the actor in it. -/
def Registry.Denotes (s : Registry) (actor : SpaceActor) : Principal → Prop
  | .user id => id = actor.userId
  | .team id => (s.teamRole actor id).isSome
  | .group id => s.inGroup actor id

/-- The role that an actor has by ownership or by membership in a team. -/
inductive Standing (s : Registry) (actor : SpaceActor) (space : KnowledgeSpaceRow) :
    SpaceRole → Prop
  | owner (h : space.ownerUserId = some actor.userId) : Standing s actor space .manager
  | projectOwner (projectId : Uuid) (hproject : space.ownerProjectId = some projectId)
      (howner : s.projectOwner actor.tenantId projectId = some actor.userId) :
      Standing s actor space .manager
  | teamLead (teamId : String) (hteam : space.ownerTeamId = some teamId)
      (hlead : s.teamRole actor teamId = some .lead) : Standing s actor space .manager
  | teamMember (teamId : String) (hteam : space.ownerTeamId = some teamId)
      (hmember : s.teamRole actor teamId = some .member) : Standing s actor space .contributor
  | tenantShared (h : space.kind = .tenantShared) : Standing s actor space .viewer

/-- The roles that were granted to a principal that the actor is, not revoked, and not expired. -/
def Granted (parse : String → Option Uuid) (s : Registry) (actor : SpaceActor)
    (space : KnowledgeSpaceRow) (role : SpaceRole) : Prop :=
  ∃ principal expiresAt, s.Denotes actor principal ∧
    latestGrant parse space.id principal s.changes = some (role, expiresAt) ∧
    ∀ t ∈ expiresAt, s.now < t

/-- The roles that an active user who is no admin is entitled to. -/
def Entitled (parse : String → Option Uuid) (s : Registry) (actor : SpaceActor)
    (space : KnowledgeSpaceRow) (role : SpaceRole) : Prop :=
  Standing s actor space role ∨ Granted parse s actor space role

/-! ## Roles without a grant -/

section

variable {s : Registry} {actor : SpaceActor} {space : KnowledgeSpaceRow}

variable {best : Option SpaceRole} {P : SpaceRole → Prop}

theorem isBest_project (h : IsBest SpaceRole.weight P best) : IsBest SpaceRole.weight
      (fun role => P role ∨ (∃ projectId, space.ownerProjectId = some projectId ∧
        s.projectOwner actor.tenantId projectId = some actor.userId) ∧ role = .manager)
      (match space.ownerProjectId with
      | some projectId =>
        if s.projectOwner actor.tenantId projectId = some actor.userId then stronger best .manager
        else best
      | none => best) := by
  cases space.ownerProjectId with
  | none => exact h.congr fun role => by simp
  | some projectId => exact (h.keepIf _ _).congr fun role => by simp

theorem isBest_team (h : IsBest SpaceRole.weight P best) : IsBest SpaceRole.weight
      (fun role => P role ∨ ∃ teamId, space.ownerTeamId = some teamId ∧
        (s.teamRole actor teamId = some .lead ∧ role = .manager ∨
          s.teamRole actor teamId = some .member ∧ role = .contributor))
      (match space.ownerTeamId with
      | some teamId =>
        match s.teamRole actor teamId with
        | some .lead => stronger best .manager
        | some .member => stronger best .contributor
        | none => best
      | none => best) := by
  cases space.ownerTeamId with
  | none => exact h.congr fun role => by simp
  | some teamId =>
    simp only [some.injEq, exists_eq_left']
    cases s.teamRole actor teamId with
    | none => exact h.congr fun role => by simp
    | some teamRole =>
      cases teamRole with
      | lead | member => exact (h.keep _).congr fun role => by simp

theorem isBest_standingRole :
    IsBest SpaceRole.weight (Standing s actor space) (s.standingRole actor space) := by
  have hnone : IsBest SpaceRole.weight (fun _ => False) none := fun _ => id
  have howner := hnone.keepIf (space.ownerUserId = some actor.userId) .manager
  have hteam := @isBest_team s actor space _ _ (@isBest_project s actor space _ _ howner)
  refine (hteam.keepIf (space.kind = .tenantShared) .viewer).congr fun role => ?_
  constructor
  · rintro ((((hfalse | ⟨h, rfl⟩) | ⟨⟨projectId, hproject, howner⟩, rfl⟩) |
      ⟨teamId, hteam, ⟨hrole, rfl⟩ | ⟨hrole, rfl⟩⟩) | ⟨h, rfl⟩)
    · exact hfalse.elim
    · exact .owner h
    · exact .projectOwner projectId hproject howner
    · exact .teamLead teamId hteam hrole
    · exact .teamMember teamId hteam hrole
    · exact .tenantShared h
  · rintro (h | ⟨projectId, hproject, howner⟩ | ⟨teamId, hteam, hrole⟩ | ⟨teamId, hteam, hrole⟩ | h)
    · exact .inl (.inl (.inl (.inr ⟨h, rfl⟩)))
    · exact .inl (.inl (.inr ⟨⟨projectId, hproject, howner⟩, rfl⟩))
    · exact .inl (.inr ⟨teamId, hteam, .inl ⟨hrole, rfl⟩⟩)
    · exact .inl (.inr ⟨teamId, hteam, .inr ⟨hrole, rfl⟩⟩)
    · exact .inr ⟨h, rfl⟩

theorem isBest_foldl_explicitRoles : IsBest SpaceRole.weight
      (fun role => Standing s actor space role ∨ role ∈ s.explicitRoles actor space)
      ((s.explicitRoles actor space).foldl stronger (s.standingRole actor space)) :=
  isBest_standingRole.foldl _

theorem effectiveRole_of_member {user : UserRow} (huser : s.users actor.userId = some user)
    (htenant : user.tenantId = actor.tenantId) (hactive : user.isActive)
    (hadmin : user.role ≠ .admin) : s.effectiveRole actor space =
      .ok ((s.explicitRoles actor space).foldl stronger (s.standingRole actor space)) := by
  simp [Registry.effectiveRole, Registry.ensureActiveActor, huser, htenant, hactive, hadmin, bind,
    Except.bind, pure, Except.pure]

end

/-! ## Rows and what was last said -/

def KnowledgeSpaceGrantRow.principal (parse : String → Option Uuid)
    (row : KnowledgeSpaceGrantRow) : Option Principal :=
  principalOf parse row.principalKind row.principalId

/-- The row is under the text that its principal is found under. -/
def KnowledgeSpaceGrantRow.Canonical (parse : String → Option Uuid)
    (row : KnowledgeSpaceGrantRow) : Prop :=
  ∃ principal, row.principal parse = some principal ∧ principal.text = row.principalId

/-- All rows are canonical, and there is one for whatever was last granted, which says it. -/
structure Registry.Current (parse : String → Option Uuid) (s : Registry) : Prop where
  canonical : ∀ g ∈ s.grants, g.Canonical parse
  row : ∀ g ∈ s.grants, ∀ principal, g.principal parse = some principal →
    latestGrant parse g.spaceId principal s.changes = g.grant
  covered : ∀ spaceId principal grant,
    latestGrant parse spaceId principal s.changes = some grant →
      ∃ g ∈ s.grants, g.spaceId = spaceId ∧ g.principal parse = some principal

section

variable {parse : String → Option Uuid} {s s' : Registry} {row g g' : KnowledgeSpaceGrantRow}
  {principal : Principal}

variable {principalId : String}

theorem kind_of_principalOf {kind : PrincipalKind}
    (h : principalOf parse kind principalId = some principal) : principal.kind = kind := by
  cases kind with
  | user =>
    obtain ⟨id, -, rfl⟩ := map_eq_some_iff.1 h
    rfl
  | team | group =>
    cases h
    rfl

theorem KnowledgeSpaceGrantRow.Canonical.text_eq (hg : g.Canonical parse)
    (h : g.principal parse = some principal) : g.principalId = principal.text := by
  obtain ⟨principal', h', htext⟩ := hg
  obtain rfl := mem_unique h h'
  exact htext.symm

theorem KnowledgeSpaceGrantRow.Canonical.key_eq (hg : g.Canonical parse)
    (hg' : g'.Canonical parse) (hspace : g.spaceId = g'.spaceId)
    (h : g.principal parse = some principal) (h' : g'.principal parse = some principal) :
    g.key = g'.key := by
  have hkind : g.principalKind = g'.principalKind :=
    (kind_of_principalOf h).symm.trans (kind_of_principalOf h')
  have htext : g.principalId = g'.principalId := (hg.text_eq h).trans (hg'.text_eq h').symm
  exact Registry.key_eq_iff.2 ⟨hspace, hkind, htext⟩

theorem KnowledgeSpaceGrantRow.Canonical.congr (hg : g.Canonical parse) (hkey : row.key = g.key) :
    row.Canonical parse := by
  obtain ⟨-, hkind, htext⟩ := Registry.key_eq_iff.1 hkey
  unfold KnowledgeSpaceGrantRow.Canonical KnowledgeSpaceGrantRow.principal at hg ⊢
  rwa [hkind, htext]

theorem Registry.Writes.latestGrant_eq (h : s.Writes row s') (spaceId : Uuid)
    (principal : Principal) : latestGrant parse spaceId principal s'.changes =
      if row.spaceId = spaceId ∧ row.principal parse = some principal then row.grant
      else latestGrant parse spaceId principal s.changes := by
  rw [h.eq]
  rfl

theorem Registry.Current.writes (hcurrent : s.Current parse) (h : s.Writes row s')
    (hrow : row.Canonical parse) : s'.Current parse where
  canonical g hg := by
    rcases (h.mem g).1 hg with rfl | ⟨hgs, -⟩
    · exact hrow
    · exact hcurrent.canonical g hgs
  row g hg principal hprincipal := by
    rw [h.latestGrant_eq]
    rcases (h.mem g).1 hg with rfl | ⟨hgs, hkey⟩
    · exact if_pos ⟨rfl, hprincipal⟩
    · rw [if_neg, hcurrent.row g hgs principal hprincipal]
      rintro ⟨hspace, hprincipal'⟩
      exact hkey ((hcurrent.canonical g hgs).key_eq hrow hspace.symm hprincipal hprincipal')
  covered spaceId principal grant hlatest := by
    rw [h.latestGrant_eq] at hlatest
    split_ifs at hlatest with hmatch
    · exact ⟨row, (h.mem row).2 (.inl rfl), hmatch⟩
    · obtain ⟨g, hg, hspace, hprincipal⟩ := hcurrent.covered spaceId principal grant hlatest
      refine ⟨g, (h.mem g).2 (.inr ⟨hg, fun hkey => hmatch ?_⟩), hspace, hprincipal⟩
      obtain ⟨hspace', hkind, htext⟩ := Registry.key_eq_iff.1 hkey
      refine ⟨hspace'.symm.trans hspace, ?_⟩
      rwa [KnowledgeSpaceGrantRow.principal, ← hkind, ← htext]

theorem grant_eq_some {role : SpaceRole} {expiresAt : Option ℕ} : g.grant = some (role, expiresAt) ↔
      g.revokedAt = none ∧ g.role = role ∧ g.expiresAt = expiresAt := by
  simp [KnowledgeSpaceGrantRow.grant]

variable {actor : SpaceActor}

theorem principalMatches_iff_denotes (hg : g.Canonical parse)
    (h : g.principal parse = some principal)
    (hparse : parse actor.userId.toText = some actor.userId) :
    s.principalMatches actor g.principalKind g.principalId ↔ s.Denotes actor principal := by
  have hkind := kind_of_principalOf h
  have htext := hg.text_eq h
  cases principal with
  | user id =>
    have hid : parse id.toText = some id := by
      simpa [KnowledgeSpaceGrantRow.principal, principalOf, ← hkind, htext, Principal.kind,
        Principal.text] using h
    rw [← hkind, htext]
    refine Registry.principalMatches_user.trans ⟨fun heq => ?_, fun heq => heq ▸ rfl⟩
    have heq : id.toText = actor.userId.toText := heq
    rw [heq, hparse] at hid
    exact (some.inj hid).symm
  | team | group =>
    rw [← hkind, htext]
    exact Iff.rfl

variable {space : KnowledgeSpaceRow}

theorem mem_explicitRoles_iff_granted (htidy : s.Tidy) (hcurrent : s.Current parse)
    (hparse : parse actor.userId.toText = some actor.userId)
    (hspace : s.spaces space.id = some space) (htenant : space.tenantId = actor.tenantId)
    (role : SpaceRole) : role ∈ s.explicitRoles actor space ↔ Granted parse s actor space role := by
  simp only [Registry.explicitRoles, Registry.grantApplies, List.mem_map, List.mem_filter,
    decide_eq_true_eq]
  constructor
  · rintro ⟨g, ⟨hg, -, hid, hrevoked, hexpires, hmatches⟩, rfl⟩
    have hcanonical := hcurrent.canonical g hg
    obtain ⟨principal, hprincipal, -⟩ := id hcanonical
    refine ⟨principal, g.expiresAt, ?_, ?_, hexpires⟩
    · exact (principalMatches_iff_denotes hcanonical hprincipal hparse).1 hmatches
    · rw [← hid, hcurrent.row g hg principal hprincipal]
      exact grant_eq_some.2 ⟨hrevoked, rfl, rfl⟩
  · rintro ⟨principal, expiresAt, hdenotes, hlatest, hexpires⟩
    obtain ⟨g, hg, hid, hprincipal⟩ := hcurrent.covered _ _ _ hlatest
    rw [← hid, hcurrent.row g hg principal hprincipal] at hlatest
    obtain ⟨hrevoked, rfl, rfl⟩ := grant_eq_some.1 hlatest
    obtain ⟨space', hspace', htenant'⟩ := htidy.tenant g hg
    obtain rfl : space = space' := mem_unique hspace (hid ▸ hspace')
    refine ⟨g, ⟨hg, htenant'.symm.trans htenant, hid, hrevoked, hexpires, ?_⟩, rfl⟩
    exact (principalMatches_iff_denotes (hcurrent.canonical g hg) hprincipal hparse).2 hdenotes

/-! ## Accepted calls -/

theorem parse_of_validatePrincipal {tenantId : Uuid}
    (h : Registry.validatePrincipal parse s tenantId .user principalId = .ok ()) :
    ∃ id, parse principalId = some id := by
  cases hparse : parse principalId with
  | some id => exact ⟨id, rfl⟩
  | none => simp [Registry.validatePrincipal, hparse, bind, Except.bind] at h

/-- If the call would be accepted and it grants a role to a user, it names the user by the text that
its id is printed as. -/
def SpelledCanonically (parse : String → Option Uuid) (s : Registry) (a : RegistryLabel) : Prop :=
  ∀ call, a = .upsertGrant call → call.principalKind = .user →
    (∃ space, s.requireRole call.actor call.spaceId .manager true = .ok space) →
    Registry.validatePrincipal parse s call.actor.tenantId .user call.principalId = .ok () →
    ∀ id, parse call.principalId = some id → call.principalId = id.toText

variable {call : UpsertGrant}

theorem canonical_of_upsertGrant (htidy : s.Tidy)
    (hspelled : SpelledCanonically parse s (.upsertGrant call))
    (h : s.upsertGrant parse call = .ok (s', row)) : row.Canonical parse := by
  obtain ⟨hrole, hvalid, hchange, -⟩ := Registry.upsertGrant_writes htidy h
  obtain ⟨-, hkind, htext, -⟩ := Registry.change_eq_iff.1 hchange
  unfold KnowledgeSpaceGrantRow.Canonical KnowledgeSpaceGrantRow.principal
  rw [hkind, htext]
  cases hcall : call.principalKind with
  | user =>
    rw [hcall] at hvalid
    obtain ⟨id, hid⟩ := parse_of_validatePrincipal hvalid
    refine ⟨.user id, by simp [principalOf, hid], ?_⟩
    exact (hspelled call rfl hcall hrole hvalid id hid).symm
  | team => exact ⟨.team call.principalId, rfl, rfl⟩
  | group => exact ⟨.group call.principalId, rfl, rfl⟩

theorem Registry.Current.step (htidy : s.Tidy) (hcurrent : s.Current parse) {a : RegistryLabel}
    (hspelled : SpelledCanonically parse s a)
    (h : (registryMachine parse).step s a = some s') : s'.Current parse := by
  rcases Registry.step_cases htidy h with
    ⟨hgrants, hchanges, -⟩ | ⟨row, hwrites, ⟨call, rfl, hcall⟩ | ⟨old, hold, hkey⟩⟩
  · exact ⟨hgrants ▸ hcurrent.canonical, hchanges ▸ hgrants ▸ hcurrent.row,
      hchanges ▸ hgrants ▸ hcurrent.covered⟩
  · exact hcurrent.writes hwrites (canonical_of_upsertGrant htidy hspelled hcall)
  · exact hcurrent.writes hwrites ((hcurrent.canonical old hold).congr hkey)

theorem effectiveRole_congr (hactive : s'.ensureActiveActor actor = s.ensureActiveActor actor)
    (hstanding : s'.standingRole actor space = s.standingRole actor space)
    (hexplicit : ∀ role, role ∈ s'.explicitRoles actor space ↔ role ∈ s.explicitRoles actor space) :
    s'.effectiveRole actor space = s.effectiveRole actor space := by
  have hbest : IsBest SpaceRole.weight _ _ :=
    (@isBest_standingRole s actor space).foldl (s'.explicitRoles actor space)
  have hroles : (s'.explicitRoles actor space).foldl stronger (s.standingRole actor space) =
      (s.explicitRoles actor space).foldl stronger (s.standingRole actor space) := by
    refine (hbest.congr fun role => ?_).unique SpaceRole.weight_injective isBest_foldl_explicitRoles
    rw [hexplicit]
  unfold Registry.effectiveRole
  rw [hactive, hstanding, hroles]

theorem effectiveRole_of_other_spelling (htidy : s.Tidy)
    (h : s.upsertGrant parse call = .ok (s', row)) (huser : call.principalKind = .user) {id : Uuid}
    (hid : parse call.principalId = some id) (htext : call.principalId ≠ id.toText)
    (hparse : parse actor.userId.toText = some actor.userId)
    (space : KnowledgeSpaceRow) : s'.effectiveRole actor space = s.effectiveRole actor space := by
  obtain ⟨-, -, hchange, hwrites⟩ := Registry.upsertGrant_writes htidy h
  obtain ⟨-, hkind, hprincipal, -⟩ := Registry.change_eq_iff.1 hchange
  have hno : ∀ g : KnowledgeSpaceGrantRow, g.key = row.key → ¬s.grantApplies actor space g := by
    intro g hkey happlies
    obtain ⟨-, hkind', htext'⟩ := Registry.key_eq_iff.1 hkey
    obtain ⟨-, -, -, -, hmatches⟩ := of_decide_eq_true happlies
    rw [hkind', hkind, huser, htext', hprincipal] at hmatches
    have hactor := Registry.principalMatches_user.1 hmatches
    rw [hactor] at hid htext
    obtain rfl := mem_unique hparse hid
    exact htext rfl
  have happlies : s'.grantApplies actor space = s.grantApplies actor space := by
    rw [hwrites.eq]
    rfl
  refine effectiveRole_congr (by rw [hwrites.eq]; rfl) (by rw [hwrites.eq]; rfl) fun role => ?_
  simp only [Registry.explicitRoles, happlies, List.mem_map, List.mem_filter, hwrites.mem]
  constructor
  · rintro ⟨g, ⟨rfl | ⟨hg, -⟩, hg'⟩, hrole⟩
    · exact absurd hg' (hno g rfl)
    · exact ⟨g, ⟨hg, hg'⟩, hrole⟩
  · rintro ⟨g, ⟨hg, hg'⟩, hrole⟩
    exact ⟨g, ⟨.inr ⟨hg, fun hkey => hno g hkey hg'⟩, hg'⟩, hrole⟩

end

/-! ## Runs -/

section

variable {parse : String → Option Uuid} {as : List RegistryLabel} {s : Registry}

theorem current_of_exec
    (hspelled : (registryMachine parse).Meets (SpelledCanonically parse) .empty as)
    (hrun : (registryMachine parse).exec .empty as = some s) : s.Current parse := by
  have hboth : s.Tidy ∧ s.Current parse := by
    refine Machine.invariant_of_meets _ (I := fun s => s.Tidy ∧ s.Current parse)
      (fun s a s' hs hC hstep => ⟨hs.1.step hstep, hs.2.step hs.1 hC hstep⟩) ⟨?_, ?_⟩ hspelled hrun
    · exact Registry.tidy_empty
    · refine ⟨fun _ hg => ?_, fun _ hg => ?_, nofun⟩
      · exact absurd hg List.not_mem_nil
      · exact absurd hg List.not_mem_nil
  exact hboth.2

/-- If every accepted grant to a user names the user canonically, an active user who is no admin has
on each space of its tenant the strongest role that it is entitled to.  A grant accepted under
another text changes nobody's role. -/
theorem effectiveRole_strongest (hrun : (registryMachine parse).exec .empty as = some s)
    {actor : SpaceActor} (hparse : parse actor.userId.toText = some actor.userId) :
    ((registryMachine parse).Meets (SpelledCanonically parse) .empty as →
      ∀ user space, s.users actor.userId = some user → user.tenantId = actor.tenantId →
        user.isActive → user.role ≠ .admin → s.spaces space.id = some space →
        space.tenantId = actor.tenantId → ∃ best, s.effectiveRole actor space = .ok best ∧
          IsBest SpaceRole.weight (Entitled parse s actor space) best) ∧
    ∀ call s' row id, s.upsertGrant parse call = .ok (s', row) → call.principalKind = .user →
      parse call.principalId = some id → call.principalId ≠ id.toText →
      ∀ space, s'.effectiveRole actor space = s.effectiveRole actor space := by
  have htidy := Registry.tidy_of_exec hrun
  constructor
  · intro hspelled user space huser htenant hactive hadmin hspace hspaceTenant
    have hcurrent := current_of_exec hspelled hrun
    refine ⟨_, effectiveRole_of_member huser htenant hactive hadmin, ?_⟩
    refine isBest_foldl_explicitRoles.congr fun role => ?_
    rw [mem_explicitRoles_iff_granted htidy hcurrent hparse hspace hspaceTenant]
    rfl
  · intro call s' row id hcall hkind hid htext space
    exact effectiveRole_of_other_spelling htidy hcall hkind hid htext hparse space

def sampleParse (text : String) : Option Uuid :=
  if text = "00000000-0000-0000-0000-00000000000a" ∨
      text = "00000000-0000-0000-0000-00000000000A" then some 10
  else none

def sampleSpace : KnowledgeSpaceRow where
  id := 5
  tenantId := 1
  kind := .personal
  ownerUserId := some 2
  ownerTeamId := none
  ownerProjectId := none
  status := .active

def sampleGrant (text : String) : UpsertGrant where
  actor := ⟨1, 2⟩
  spaceId := 5
  principalKind := .user
  principalId := text
  role := .contributor
  expiresAt := none
  newId := 7

def sampleSetup : List RegistryLabel :=
  [.putUser 2 (some ⟨1, .member, true⟩), .putUser 10 (some ⟨1, .member, true⟩),
    .putSpace sampleSpace]

def sampleRegistry : Registry where
  users := update (update (fun _ => none) 2 (some ⟨1, .member, true⟩)) 10
    (some ⟨1, .member, true⟩)
  projects := fun _ => none
  teams := fun _ => none
  teamMembers := fun _ _ => none
  groups := fun _ => none
  userGroups := fun _ _ => false
  spaces := update (fun _ => none) 5 (some sampleSpace)
  grants := []
  now := 0
  changes := []

def sampleRow (text : String) : KnowledgeSpaceGrantRow where
  id := 7
  tenantId := 1
  spaceId := 5
  principalKind := .user
  principalId := text
  role := .contributor
  expiresAt := none
  createdBy := 2
  revision := 1
  revokedAt := none

def sampleGranted (text : String) : Registry :=
  { sampleRegistry with grants := [sampleRow text], changes := [(sampleGrant text).change] }

theorem sample_exec_setup :
    (registryMachine sampleParse).exec .empty sampleSetup = some sampleRegistry := rfl

theorem sample_upsertGrant {text : String} (htext : sampleParse text = some 10) :
    sampleRegistry.upsertGrant sampleParse (sampleGrant text) =
      .ok (sampleGranted text, sampleRow text) := by
  have hrole : sampleRegistry.requireRole ⟨1, 2⟩ 5 .manager true = .ok sampleSpace := rfl
  have hvalid : Registry.validatePrincipal sampleParse sampleRegistry 1 .user text = .ok () := by
    simp only [Registry.validatePrincipal, htext]
    rfl
  simp only [Registry.upsertGrant, sampleGrant, hrole, hvalid]
  rfl

theorem sample_exec {text : String} (htext : sampleParse text = some 10) :
    (registryMachine sampleParse).exec .empty (sampleSetup ++ [.upsertGrant (sampleGrant text)]) =
      some (sampleGranted text) := by
  refine (Machine.exec_append_eq_some _).2 ⟨sampleRegistry, sample_exec_setup, ?_⟩
  refine (Machine.exec_cons_eq_some _).2 ⟨sampleGranted text, ?_, rfl⟩
  simp only [sample_upsertGrant htext, Registry.after]

theorem effectiveRole_strongest_of_sample : (∃ best,
      (sampleGranted (Uuid.toText 10)).effectiveRole ⟨1, 10⟩ sampleSpace = .ok best ∧
        IsBest SpaceRole.weight
          (Entitled sampleParse (sampleGranted (Uuid.toText 10)) ⟨1, 10⟩ sampleSpace) best) ∧
      (sampleGranted "00000000-0000-0000-0000-00000000000A").effectiveRole ⟨1, 10⟩ sampleSpace =
        sampleRegistry.effectiveRole ⟨1, 10⟩ sampleSpace := by
  have hparse : sampleParse (Uuid.toText 10) = some 10 := by decide +kernel
  have hupper : sampleParse "00000000-0000-0000-0000-00000000000A" = some 10 := by decide +kernel
  constructor
  · refine (@effectiveRole_strongest _ _ _ (sample_exec hparse) ⟨1, 10⟩ hparse).1 ?_
      ⟨1, .member, true⟩ sampleSpace rfl rfl rfl (by decide) rfl rfl
    refine ⟨nofun, fun _ _ => ⟨nofun, fun _ _ => ⟨nofun, fun _ _ => ⟨?_, fun _ _ => trivial⟩⟩⟩⟩
    rintro call ⟨⟩ - - - id hid
    obtain rfl := mem_unique hparse hid
    rfl
  · refine (@effectiveRole_strongest _ _ _ sample_exec_setup ⟨1, 10⟩ hparse).2
      (sampleGrant "00000000-0000-0000-0000-00000000000A") _ _ 10 (sample_upsertGrant hupper) rfl
      hupper ?_ sampleSpace
    decide +kernel

/-- The owner grants a role under the id in upper case.  The call is accepted, and the user has no
role. -/
theorem upper_case_grant_without_effect : ∃ s, (registryMachine sampleParse).exec .empty
        (sampleSetup ++ [.upsertGrant (sampleGrant "00000000-0000-0000-0000-00000000000A")]) =
          some s ∧ s.grants = [sampleRow "00000000-0000-0000-0000-00000000000A"] ∧
      s.users 10 = some ⟨1, .member, true⟩ ∧ s.spaces 5 = some sampleSpace ∧
      s.effectiveRole ⟨1, 10⟩ sampleSpace = .ok none ∧
      ¬∃ best, s.effectiveRole ⟨1, 10⟩ sampleSpace = .ok best ∧
        IsBest SpaceRole.weight (Entitled sampleParse s ⟨1, 10⟩ sampleSpace) best := by
  have hupper : sampleParse "00000000-0000-0000-0000-00000000000A" = some 10 := by decide +kernel
  have hnone : (sampleGranted "00000000-0000-0000-0000-00000000000A").effectiveRole ⟨1, 10⟩
      sampleSpace = .ok none := by decide +kernel
  refine ⟨_, sample_exec hupper, rfl, rfl, rfl, hnone, ?_⟩
  rintro ⟨best, hrole, hbest⟩
  obtain rfl : none = best := Except.ok.inj (hnone.symm.trans hrole)
  refine hbest .contributor (.inr ⟨.user 10, none, rfl, ?_, nofun⟩)
  exact if_pos ⟨rfl, congrArg (Option.map Principal.user) hupper⟩

end

end Gadgetron.Spaces
