import Gadgetron.Spaces.Entitlement

/-!
# Access of the reviewed reader

The condition on access in `visible_rows`, one relational condition, against `effective_role`, a
sequence of queries folded into the strongest role.
-/

namespace Gadgetron.Spaces

open Lib

namespace Registry

variable (s : Registry) (actor : SpaceActor)

def activeActor : Option UserRole :=
  ((s.users actor.userId).filter fun user => user.tenantId = actor.tenantId ∧ user.isActive).map
    (·.role)

def isTeamMember (teamId : String) : Bool :=
  s.teams teamId = some actor.tenantId && (s.teamMembers teamId actor.userId).isSome

def isGroupMember (groupId : String) : Bool :=
  s.groups groupId = some actor.tenantId && s.userGroups groupId actor.userId

def grantReaches (space : KnowledgeSpaceRow) (g : KnowledgeSpaceGrantRow) : Bool :=
  g.tenantId = actor.tenantId && g.spaceId = space.id && g.revokedAt.isNone &&
    (g.expiresAt.all fun t => s.now < t) &&
    (g.principalKind = .user && g.principalId = actor.userId.toText ||
      g.principalKind = .team && s.isTeamMember actor g.principalId ||
      g.principalKind = .group && s.isGroupMember actor g.principalId)

/-- The condition on access of `visible_rows`. -/
def mayRead (space : KnowledgeSpaceRow) : Bool :=
  (s.activeActor actor).any fun role =>
    role = .admin ||
    space.ownerUserId = some actor.userId ||
    (space.ownerProjectId.any fun projectId =>
      (s.projects projectId).any fun project =>
        project.tenantId = actor.tenantId && project.ownerUserId = actor.userId) ||
    space.ownerTeamId.any (s.isTeamMember actor) ||
    space.kind = .tenantShared ||
    s.grants.any (s.grantReaches actor space)

end Registry

/-! ## Some role -/

section

variable {s : Registry} {actor : SpaceActor} {space : KnowledgeSpaceRow}

theorem exists_eq_some_iff {P : SpaceRole → Prop} {best : Option SpaceRole}
    (h : IsBest SpaceRole.weight P best) : (∃ role, best = some role) ↔ ∃ role, P role := by
  cases best with
  | none =>
    constructor
    · rintro ⟨role, hrole⟩
      cases hrole
    · rintro ⟨role, hrole⟩
      exact absurd hrole (h role)
  | some role => exact ⟨fun _ => ⟨role, h.1⟩, fun _ => ⟨role, rfl⟩⟩

theorem isTeamMember_iff {teamId : String} : s.isTeamMember actor teamId = true ↔
      s.teamRole actor teamId = some .lead ∨ s.teamRole actor teamId = some .member := by
  unfold Registry.isTeamMember Registry.teamRole
  by_cases hteam : s.teams teamId = some actor.tenantId
  · rw [if_pos hteam]
    cases hrole : s.teamMembers teamId actor.userId with
    | none => simp [hteam]
    | some role => cases role <;> simp [hteam]
  · simp [hteam]

theorem teamRole_isSome {teamId : String} :
    (s.teamRole actor teamId).isSome = s.isTeamMember actor teamId := by
  unfold Registry.isTeamMember Registry.teamRole
  split_ifs with hteam <;> simp [hteam]

theorem projectOwner_iff {projectId : Uuid} :
    s.projectOwner actor.tenantId projectId = some actor.userId ↔
      ((s.projects projectId).any fun project =>
        project.tenantId = actor.tenantId && project.ownerUserId = actor.userId) = true := by
  unfold Registry.projectOwner
  cases s.projects projectId with
  | none => simp
  | some project => by_cases htenant : project.tenantId = actor.tenantId <;> simp [htenant]

theorem grantReaches_eq (g : KnowledgeSpaceGrantRow) :
    s.grantReaches actor space g = s.grantApplies actor space g := by
  have hprincipal :
      (decide (g.principalKind = .user) && decide (g.principalId = actor.userId.toText) ||
        decide (g.principalKind = .team) && s.isTeamMember actor g.principalId ||
        decide (g.principalKind = .group) && s.isGroupMember actor g.principalId) =
      s.principalMatches actor g.principalKind g.principalId := by
    unfold Registry.principalMatches
    cases g.principalKind with
    | user => simp
    | team => simp [teamRole_isSome]
    | group => simp [Registry.isGroupMember, Registry.inGroup]
  rw [Bool.eq_iff_iff, Registry.grantReaches, hprincipal, Registry.grantApplies]
  simp [Option.all_eq_true, and_assoc]

theorem exists_explicitRole_iff : (∃ role, role ∈ s.explicitRoles actor space) ↔
      s.grants.any (s.grantReaches actor space) = true := by
  rw [List.any_eq_true]
  constructor
  · rintro ⟨role, hrole⟩
    obtain ⟨g, hg, -⟩ := List.mem_map.1 hrole
    obtain ⟨hmem, happlies⟩ := List.mem_filter.1 hg
    exact ⟨g, hmem, (grantReaches_eq g).trans happlies⟩
  · rintro ⟨g, hmem, hreaches⟩
    exact ⟨g.role, List.mem_map_of_mem
      (List.mem_filter.2 ⟨hmem, (grantReaches_eq g).symm.trans hreaches⟩)⟩

theorem exists_standing_iff : (∃ role, Standing s actor space role) ↔
      space.ownerUserId = some actor.userId ∨ (∃ projectId, space.ownerProjectId = some projectId ∧
        s.projectOwner actor.tenantId projectId = some actor.userId) ∨
      (∃ teamId, space.ownerTeamId = some teamId ∧ s.isTeamMember actor teamId = true) ∨
      space.kind = .tenantShared := by
  constructor
  · rintro ⟨role, h⟩
    cases h with
    | owner h => exact .inl h
    | projectOwner projectId hproject howner => exact .inr (.inl ⟨projectId, hproject, howner⟩)
    | teamLead teamId hteam hrole =>
      exact .inr (.inr (.inl ⟨teamId, hteam, isTeamMember_iff.2 (.inl hrole)⟩))
    | teamMember teamId hteam hrole =>
      exact .inr (.inr (.inl ⟨teamId, hteam, isTeamMember_iff.2 (.inr hrole)⟩))
    | tenantShared h => exact .inr (.inr (.inr h))
  · rintro (h | ⟨projectId, hproject, howner⟩ | ⟨teamId, hteam, hmember⟩ | h)
    · exact ⟨_, .owner h⟩
    · exact ⟨_, .projectOwner projectId hproject howner⟩
    · rcases isTeamMember_iff.1 hmember with hrole | hrole
      · exact ⟨_, .teamLead teamId hteam hrole⟩
      · exact ⟨_, .teamMember teamId hteam hrole⟩
    · exact ⟨_, .tenantShared h⟩

theorem activeActor_eq_some_iff {role : UserRole} :
    s.activeActor actor = some role ↔ s.ensureActiveActor actor = .ok role := by
  unfold Registry.activeActor Registry.ensureActiveActor
  cases s.users actor.userId with
  | none => simp
  | some user =>
    by_cases hactive : user.tenantId = actor.tenantId ∧ user.isActive
    · simp [hactive]
    · simp [hactive]

theorem effectiveRole_of_active {role : UserRole} (h : s.ensureActiveActor actor = .ok role) :
    s.effectiveRole actor space = if role = .admin then .ok (some .manager)
      else .ok ((s.explicitRoles actor space).foldl stronger (s.standingRole actor space)) := by
  simp only [Registry.effectiveRole, h, bind, Except.bind, pure, Except.pure]

/-- The reviewed reader lets a user read a space exactly if the user has a role there. -/
theorem mayRead_iff_effectiveRole (s : Registry) (actor : SpaceActor) (space : KnowledgeSpaceRow) :
    s.mayRead actor space = true ↔ ∃ role, s.effectiveRole actor space = .ok (some role) := by
  cases hactor : s.ensureActiveActor actor with
  | error e =>
    have hnone : s.activeActor actor = none := by
      cases hactive : s.activeActor actor with
      | none => rfl
      | some role => rw [activeActor_eq_some_iff.1 hactive] at hactor; cases hactor
    simp [Registry.mayRead, hnone, Registry.effectiveRole, hactor, bind, Except.bind]
  | ok role =>
    rw [Registry.mayRead, activeActor_eq_some_iff.2 hactor, Option.any_some,
      effectiveRole_of_active hactor]
    by_cases hadmin : role = .admin
    · simp [hadmin]
    · have hbest := exists_eq_some_iff (@isBest_foldl_explicitRoles s actor space)
      rw [exists_or, exists_standing_iff, exists_explicitRole_iff] at hbest
      simp only [if_neg hadmin, Except.ok.injEq, hbest, projectOwner_iff]
      simp only [hadmin, decide_false, Bool.false_or, Bool.or_eq_true, decide_eq_true_eq,
        Option.any_eq_true, or_assoc]

end

end Gadgetron.Spaces
