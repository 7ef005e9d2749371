import Gadgetron.Jobs.VaultWrites

/-!
# Change sets that can still be settled

A change set that is accepted or being materialized is in the hands of one request; no user can
edit, decide or retry it.
-/

namespace Gadgetron.Jobs.Materialize

open Lib Policy Spaces List Option Function

variable {T : Type} {env : Env T} {s s' : World} {row : KnowledgeChangeSetRow} {r : Request}
  {actor : SpaceActor}

/-- The actor may still contribute to the space of the change set. -/
def Authorised (access : Registry) (actor : SpaceActor) (row : KnowledgeChangeSetRow) : Prop :=
  row.tenantId = actor.tenantId ∧ requireVisibleSpace access actor row.spaceId = .ok () ∧
    requireContributor access actor row.spaceId = .ok ()

/-- Users can neither edit, decide nor retry the change set. -/
def InProgress (row : KnowledgeChangeSetRow) : Prop :=
  row.status = .accepted ∨ row.status = .materializing

inductive CarriedCall (row : KnowledgeChangeSetRow) : ChangeSetAction → Prop
  | begins (hstatus : row.status = .accepted) : CarriedCall row .beginMaterialization
  | completes (gitRevision : String) (objects : List MaterializedObjectInput)
      (hstatus : row.status = .materializing) :
      CarriedCall row (.completeMaterialization gitRevision objects)
  | fails (detail : String) (hstatus : row.status = .materializing) (hshort : isShort 1000 detail) :
      CarriedCall row (.failMaterialization detail)

/-- The request can still finish the change set. -/
def Carries (row : KnowledgeChangeSetRow) (r : Request) : Prop :=
  match r.stage with
  | .check call | .write call =>
    call.actor = r.actor ∧ call.changeSetId = row.id ∧ call.expectedRevision = row.revision ∧
      CarriedCall row call.action
  | .opening row' | .prepare row' _ _ _ | .read row' _ _ _ _ | .batch row' _ _ =>
    row'.id = row.id ∧ row'.revision = row.revision ∧ row.status = .materializing
  | .snapshot _ | .refresh _ _ => False

/-- If the stage is due to report a failure, the store takes its text. -/
def ShortText : Stage → Prop
  | .check call =>
    match call.action with
    | .failMaterialization detail => isShort 1000 detail
    | _ => True
  | _ => True

/-- The step leaves change sets in progress to requests that can finish them: none is gone or fails
at its last call, and its actor keeps his rights. -/
def HandsOn (env : Env T) (s : World) : Label → Prop
  | .access registry =>
    ∀ r ∈ s.requests, ∀ row ∈ s.store.changeSets, Carries row r → Authorised registry r.actor row
  | .die index => ∀ r ∈ s.requests[index]?, ∀ row ∈ s.store.changeSets, ¬ Carries row r
  | .fault index detail =>
    ∀ r ∈ s.requests[index]?, ∀ row ∈ s.store.changeSets, Carries row r →
      ∃ stage ∈ faulted r detail, ShortText stage
  | .step index oid =>
    ∀ r ∈ s.requests[index]?,
      (∀ row ∈ s.store.changeSets, Carries row r →
        ∀ stage ∈ (s.advance env r oid).2, ShortText stage) ∧
      ∀ call row, r.stage = .write call → s.store.target call = some row →
        InProgress (call.action.apply s.store.now call.actor.userId row) →
        Authorised s.store.access r.actor row
  | _ => True

/-! ## What users can do -/

def Serves (actor : SpaceActor) (changeSetId : Uuid) : Label → Prop
  | .edit actor' id _ | .accept actor' id _ _ | .reject actor' id _ _ | .retry actor' id _ =>
    actor' = actor ∧ id = changeSetId
  | .step _ _ => True
  | _ => False

/-- The change set is applied or rejected. -/
def Settled (s : World) (changeSetId : Uuid) : Prop :=
  ∃ row ∈ s.store.changeSets, row.id = changeSetId ∧
    (row.status = .applied ∨ row.status = .rejected)

/-- The user can bring it about that the change set is applied or rejected. -/
def CanSettle (env : Env T) (s : World) (actor : SpaceActor) (changeSetId : Uuid) : Prop :=
  ∃ as t, (∀ a ∈ as, Serves actor changeSetId a) ∧ (machine env).exec s as = some t ∧
    Settled t changeSetId

/-- A step of a request that is under way, which may fail. -/
def OfRequest : Label → Prop
  | .step _ _ | .fault _ _ => True
  | _ => False

/-- No change set is stranded: whoever may change it can have it applied or rejected, if a request
carries it after that request is done. -/
def NoneStranded (env : Env T) (s : World) : Prop :=
  ∀ row ∈ s.store.changeSets, ∀ actor, Authorised s.store.access actor row →
    ∃ as t, (∀ a ∈ as, OfRequest a) ∧ ((∀ r ∈ s.requests, ¬ Carries row r) → as = []) ∧
      (machine env).exec s as = some t ∧ CanSettle env t actor row.id

/-! ## What a request does with the change set that it carries -/

variable {row' : KnowledgeChangeSetRow}

theorem Authorised.congr {access : Registry}
    (h : Authorised access actor row) (htenant : row'.tenantId = row.tenantId)
    (hspace : row'.spaceId = row.spaceId) : Authorised access actor row' := by
  unfold Authorised
  rw [htenant, hspace]
  exact h

section

variable (action : ChangeSetAction) (now : ℤ) (userId : Uuid) (row : KnowledgeChangeSetRow)

theorem apply_spaceId : (action.apply now userId row).spaceId = row.spaceId := by
  cases action <;> rfl

theorem apply_jobId : (action.apply now userId row).jobId = row.jobId := by
  cases action <;> rfl

end

section

variable {store : ChangeSetStore} {call : ChangeSetCall}

theorem check_eq_ok (hrow : row ∈ store.changeSets) (hid : call.changeSetId = row.id)
    (hauthorised : Authorised store.access call.actor row)
    (hinput : ChangeSetStore.checkInput call.action = .ok ())
    (hcurrent : store.checkCurrent env.parse env.isAlphanumeric call.actor row call.action =
      .ok ()) : store.check env.parse env.isAlphanumeric call = .ok () := by
  obtain ⟨htenant, hvisible, hcontributor⟩ := hauthorised
  have hget : store.getChangeSet call.actor call.changeSetId = .ok row := by
    have hfound : (store.changeSets.get call.changeSetId).filter
        (fun row => row.tenantId = call.actor.tenantId) = some row := by
      rw [filter_eq_some_iff, Table.get_eq_some]
      exact ⟨⟨hrow, hid.symm⟩, by simpa using htenant⟩
    unfold ChangeSetStore.getChangeSet
    rw [hfound]
    exact bind_eq_ok.2 ⟨(), hvisible, rfl⟩
  refine bind_eq_ok.2 ⟨(), hinput, bind_eq_ok.2 ⟨row, hget, bind_eq_ok.2 ⟨(), hcontributor, ?_⟩⟩⟩
  exact hcurrent

theorem target_of_row (hrow : row ∈ store.changeSets) (hid : call.changeSetId = row.id)
    (hrevision : call.expectedRevision = row.revision)
    (htenant : row.tenantId = call.actor.tenantId) (hstatus : row.status ∈ call.action.allowed) :
    store.target call = some row :=
  target_eq_some.2 ⟨hrow, hid.symm, htenant, hrevision.symm, hstatus⟩

end

def World.afterWrite (s : World) (call : ChangeSetCall) (row : KnowledgeChangeSetRow)
    (objects : Table KnowledgeObjectRow.id) : World :=
  { s with store := { s.store.writeRow call row with objects } }

theorem advance_store (oid : String) :
    (∃ call row objects, r.stage = .write call ∧ s.store.target call = some row ∧
      s.advance env r oid = (s.afterWrite call row objects,
        following call (call.action.apply s.store.now call.actor.userId row))) ∨
    (s.advance env r oid).1.store = s.store ∧
      ∀ call, r.stage = .write call → ∃ error, s.store.write call = .error error := by
  obtain ⟨actor, stage⟩ := r
  cases stage with
  | write call =>
    cases hwrite : s.store.write call with
    | error error =>
      refine .inr ⟨?_, ?_⟩
      · simp only [World.advance, hwrite]
      · rintro call' ⟨⟩
        exact ⟨error, hwrite⟩
    | ok result =>
      obtain ⟨row, objects, htarget, -, rfl⟩ := write_ok hwrite
      refine .inl ⟨call, row, objects, rfl, htarget, ?_⟩
      simp only [World.advance, hwrite]
      rfl
  | snapshot row => exact .inr ⟨rfl, nofun⟩
  | prepare row' context operations prepared =>
    refine .inr ⟨?_, nofun⟩
    cases operations with
    | nil => rfl
    | cons operation operations =>
      unfold World.advance
      dsimp only
      split <;> rfl
  | read row' context target operations prepared =>
    refine .inr ⟨?_, nofun⟩
    unfold World.advance
    dsimp only
    split
    · rfl
    · split_ifs
      · rfl
      · split <;> rfl
  | _ =>
    refine .inr ⟨?_, nofun⟩
    unfold World.advance
    dsimp only
    split <;> rfl

variable {detail : String}

theorem carries_failing
    (hcarried : row'.id = row.id ∧ row'.revision = row.revision ∧ row.status = .materializing)
    (hshort : ShortText (failing actor row' detail)) :
    Carries row ⟨actor, failing actor row' detail⟩ :=
  ⟨rfl, hcarried.1, hcarried.2.1, .fails _ hcarried.2.2 hshort⟩

variable {call : ChangeSetCall}

theorem carries_refused {gitRevision detail : String} {objects : List MaterializedObjectInput}
    (haction : call.action = .completeMaterialization gitRevision objects)
    (hactor : call.actor = actor) (hid : call.changeSetId = row.id)
    (hrevision : call.expectedRevision = row.revision) (hstatus : row.status = .materializing)
    (hshort : ∀ stage ∈ refused call detail, ShortText stage) :
    ∃ stage ∈ refused call detail, Carries row ⟨actor, stage⟩ := by
  have hrefused : refused call detail =
      some (.check { call with action := .failMaterialization (clipError detail) }) := by
    unfold refused
    rw [haction]
  rw [hrefused] at hshort ⊢
  exact ⟨_, rfl, hactor, hid, hrevision, .fails _ hstatus (hshort _ rfl)⟩

variable {oid : String}

theorem carries_advance (hrow : row ∈ s.store.changeSets)
    (hauthorised : Authorised s.store.access r.actor row) (hcarries : Carries row r)
    (hshort : ∀ stage ∈ (s.advance env r oid).2, ShortText stage)
    (hkept : ∀ call, r.stage = .write call → ∃ error, s.store.write call = .error error) :
    ∃ stage ∈ (s.advance env r oid).2, Carries row { r with stage } := by
  obtain ⟨actor, stage⟩ := r
  cases stage with
  | check call =>
    obtain ⟨actor', changeSetId, expectedRevision, action⟩ := call
    obtain ⟨rfl, hid, hrevision, haction⟩ := hcarries
    -- A call that begins or reports a failure passes its checks.
    have hpasses : ∀ hinput : ChangeSetStore.checkInput action = .ok (),
        ∀ hcurrent : s.store.checkCurrent env.parse env.isAlphanumeric actor' row action = .ok (),
        ∃ stage ∈ (s.advance env ⟨actor', .check ⟨actor', changeSetId, expectedRevision,
          action⟩⟩ oid).2, Carries row ⟨actor', stage⟩ := by
      intro hinput hcurrent
      have hcheck : s.store.check env.parse env.isAlphanumeric
          ⟨actor', changeSetId, expectedRevision, action⟩ = .ok () :=
        check_eq_ok hrow hid hauthorised hinput hcurrent
      simp only [World.advance, hcheck]
      exact ⟨_, rfl, rfl, hid, hrevision, haction⟩
    cases haction with
    | begins hstatus => exact hpasses rfl rfl
    | fails detail hstatus hdetail => exact hpasses (if_pos hdetail) rfl
    | completes gitRevision objects hstatus =>
      unfold World.advance at hshort ⊢
      dsimp only at hshort ⊢
      split at hshort
      · exact ⟨_, rfl, rfl, hid, hrevision, .completes gitRevision objects hstatus⟩
      · exact carries_refused rfl rfl hid hrevision hstatus hshort
  | write call =>
    obtain ⟨actor', changeSetId, expectedRevision, action⟩ := call
    obtain ⟨rfl, hid, hrevision, haction⟩ := hcarries
    obtain ⟨error, herror⟩ := hkept _ rfl
    -- A call that begins or reports a failure finds the row.
    have hfinds : ∀ hobjects : action.objects = [], ∀ hstatus : row.status ∈ action.allowed,
        False := by
      intro hobjects hstatus
      have htarget : s.store.target ⟨actor', changeSetId, expectedRevision, action⟩ = some row :=
        target_of_row hrow hid hrevision hauthorised.1 hstatus
      have hwrite := write_of_target hobjects htarget
      rw [hwrite] at herror
      cases herror
    cases haction with
    | begins hstatus | fails _ hstatus =>
      exact (hfinds rfl (by simp [ChangeSetAction.allowed, hstatus])).elim
    | completes gitRevision objects hstatus =>
      simp only [World.advance, herror] at hshort ⊢
      exact carries_refused rfl rfl hid hrevision hstatus hshort
  | snapshot | refresh => exact hcarries.elim
  | opening row' =>
    unfold World.advance at hshort ⊢
    dsimp only at hshort ⊢
    split at hshort
    · exact ⟨_, rfl, hcarries⟩
    · exact ⟨_, rfl, carries_failing hcarries (hshort _ rfl)⟩
  | prepare row' context operations prepared =>
    cases operations with
    | nil => exact ⟨_, rfl, hcarries⟩
    | cons operation operations =>
      unfold World.advance at hshort ⊢
      dsimp only at hshort ⊢
      split at hshort
      · exact ⟨_, rfl, hcarries⟩
      · exact ⟨_, rfl, hcarries⟩
      · exact ⟨_, rfl, carries_failing hcarries (hshort _ rfl)⟩
  | read row' context target operations prepared =>
    unfold World.advance at hshort ⊢
    dsimp only at hshort ⊢
    split at hshort
    · exact ⟨_, rfl, carries_failing hcarries (hshort _ rfl)⟩
    · split_ifs at hshort ⊢
      · exact ⟨_, rfl, carries_failing hcarries (hshort _ rfl)⟩
      · split at hshort
        · exact ⟨_, rfl, hcarries⟩
        · exact ⟨_, rfl, carries_failing hcarries (hshort _ rfl)⟩
  | batch row' context prepared =>
    unfold World.advance at hshort ⊢
    dsimp only at hshort ⊢
    split at hshort
    iterate 2 · exact ⟨_, rfl, carries_failing hcarries (hshort _ rfl)⟩
    · exact ⟨_, rfl, rfl, hcarries.1, hcarries.2.1, .completes _ _ hcarries.2.2⟩

theorem carries_faulted (hcarries : Carries row r)
    (hshort : ∃ stage ∈ faulted r detail, ShortText stage) :
    ∃ stage ∈ faulted r detail, Carries row { r with stage } := by
  obtain ⟨actor, stage⟩ := r
  obtain ⟨next, hnext, hshort⟩ := hshort
  cases stage with
  | check call | write call =>
    obtain ⟨actor', changeSetId, expectedRevision, action⟩ := call
    obtain ⟨rfl, hid, hrevision, haction⟩ := hcarries
    cases haction with
    | begins | fails => cases hnext
    | completes gitRevision objects hstatus =>
      refine carries_refused rfl rfl hid hrevision hstatus fun stage hstage => ?_
      rwa [mem_unique hstage hnext]
  | snapshot | refresh => exact hcarries.elim
  | opening | prepare | read | batch =>
    cases hnext
    exact ⟨_, rfl, carries_failing hcarries hshort⟩

/-! ## The invariant -/

/-- What holds in every world that no step has stranded a change set in. -/
structure Recoverable (s : World) : Prop where
  carried : ∀ row ∈ s.store.changeSets, InProgress row →
    ∃ r ∈ s.requests, Carries row r ∧ Authorised s.store.access r.actor row
  jobs : ∀ row ∈ s.store.changeSets, ∀ jobId ∈ row.jobId, ∃ job ∈ s.store.jobs jobId,
    job.tenantId = row.tenantId ∧ job.spaceId = row.spaceId
  heads : ∀ tenantId, isShort 128 (s.vaults tenantId).version
  statuses : ∀ row ∈ s.store.changeSets, row.status ≠ .proposed

theorem apply_status (action : ChangeSetAction) (now : ℤ) (userId : Uuid)
    (hallowed : row.status ∈ action.allowed) :
    (action.apply now userId row).status ≠ .proposed := by
  cases action with
  | decide decision rationale => cases decision <;> nofun
  | refreshMaterializationRetry head =>
    intro h
    cases (mem_singleton.1 hallowed).symm.trans h
  | _ => nofun

theorem carries_following {now : ℤ} {userId : Uuid} (hallowed : row.status ∈ call.action.allowed)
    (hprogress : InProgress (call.action.apply now userId row)) :
    ∃ stage ∈ following call (call.action.apply now userId row),
      Carries (call.action.apply now userId row) ⟨call.actor, stage⟩ := by
  obtain ⟨actor, changeSetId, expectedRevision, action⟩ := call
  cases action with
  | decide decision rationale =>
    cases decision with
    | accept => exact ⟨_, rfl, rfl, rfl, rfl, .begins rfl⟩
    | reject => rcases hprogress with h | h <;> cases h
  | beginMaterialization => exact ⟨_, rfl, rfl, rfl, rfl⟩
  | refreshMaterializationRetry head =>
    have hstatus := mem_singleton.1 hallowed
    rcases hprogress with h | h <;> cases hstatus.symm.trans h
  | _ => rcases hprogress with h | h <;> cases h

variable {index : ℕ} {stage : Stage} {next : Option Stage}

theorem mem_proceed_of_mem (hr : s.requests[index]? = some r) (hstage : stage ∈ next) :
    { r with stage } ∈ (s.proceed index r next).requests := by
  cases hstage
  exact mem_of_getElem? (i := index) (getElem?_set_self (List.getElem?_eq_some_iff.1 hr).1)

theorem carried_proceed (hr : s.requests[index]? = some r) (next : Option Stage)
    {P : Request → Prop} (hP : ∀ r stage, P r → P { r with stage })
    (hcarried : ∃ r ∈ s.requests, Carries row r ∧ P r)
    (hnext : Carries row r → P r → ∃ stage ∈ next, Carries row { r with stage }) :
    ∃ r' ∈ (s.proceed index r next).requests, Carries row r' ∧ P r' := by
  obtain ⟨r₀, hr₀, hcarries, hPr₀⟩ := hcarried
  by_cases hsame : r₀ = r
  · subst hsame
    obtain ⟨stage, hstage, hcarries'⟩ := hnext hcarries hPr₀
    exact ⟨_, mem_proceed_of_mem hr hstage, hcarries', hP _ _ hPr₀⟩
  · obtain ⟨j, hj⟩ := mem_iff_getElem?.1 hr₀
    have hne : j ≠ index := by
      rintro rfl
      exact hsame (mem_unique hj hr)
    refine ⟨r₀, ?_, hcarries, hPr₀⟩
    cases next with
    | none => exact mem_eraseIdx_iff_getElem?.2 ⟨j, hne, hj⟩
    | some stage =>
      refine mem_of_getElem? (i := j) ?_
      change (s.requests.set index _)[j]? = _
      rw [getElem?_set_ne hne.symm]
      exact hj

theorem Recoverable.congr (h : Recoverable s) (hstore : s'.store = s.store)
    (hheads : ∀ tenantId, isShort 128 (s'.vaults tenantId).version)
    (hcarried : ∀ row ∈ s.store.changeSets, InProgress row →
      ∃ r ∈ s'.requests, Carries row r ∧ Authorised s.store.access r.actor row) :
    Recoverable s' where
  carried := by rwa [hstore]
  jobs := by
    rw [hstore]
    exact h.jobs
  heads := hheads
  statuses := by
    rw [hstore]
    exact h.statuses

theorem advance_vaults (oid : String) : (s.advance env r oid).1.vaults = s.vaults ∨
      r.stage.commits ∧ ∃ files, (s.advance env r oid).1.vaults =
        Function.update s.vaults r.actor.tenantId
          ((s.vaults r.actor.tenantId).commit oid files) := by
  obtain ⟨actor, stage⟩ := r
  have hsame : (s.setVault actor.tenantId (s.vaults actor.tenantId)).vaults = s.vaults :=
    update_eq_self ..
  unfold World.advance
  cases stage with
  | snapshot row => exact .inl rfl
  | prepare row' context operations prepared =>
    cases operations with
    | nil => exact .inl rfl
    | cons operation operations =>
      dsimp only
      split <;> exact .inl rfl
  | read row' context target operations prepared =>
    dsimp only
    split
    · exact .inl rfl
    · rename_i vault bytes externallyChanged hread
      obtain ⟨-, -, -, rfl⟩ := readNoteReconciled_ok hread
      cases externallyChanged with
      | true => exact .inr ⟨rfl, _, rfl⟩
      | false =>
        simp only [Bool.false_eq_true, if_false]
        split <;> exact .inl hsame
  | batch row' context prepared =>
    dsimp only
    split
    · exact .inl rfl
    · exact .inl rfl
    · rename_i vault state states hbatch
      obtain ⟨-, -, rfl, -⟩ := writeNotesBatch_ok hbatch
      exact .inr ⟨rfl, _, rfl⟩
  | _ =>
    dsimp only
    split <;> exact .inl rfl

theorem advance_heads (hheads : ∀ tenantId, isShort 128 (s.vaults tenantId).version)
    (hfresh : r.stage.commits → isShort 128 oid) (tenantId : Uuid) :
    isShort 128 ((s.advance env r oid).1.vaults tenantId).version := by
  rcases @advance_vaults T env s r oid with hsame | ⟨hcommits, files, hvaults⟩
  · rw [hsame]
    exact hheads tenantId
  · rw [hvaults]
    by_cases htenant : tenantId = r.actor.tenantId
    · rw [htenant, update_self]
      exact hfresh hcommits
    · rw [update_of_ne htenant]
      exact hheads tenantId

theorem Recoverable.proceed_write (h : Recoverable s)
    {objects : Table KnowledgeObjectRow.id} (hr : s.requests[index]? = some r)
    (hstage : r.stage = .write call) (htarget : s.store.target call = some row)
    (hactor : call.actor = r.actor)
    (hauthorised : InProgress (call.action.apply s.store.now call.actor.userId row) →
      Authorised s.store.access r.actor row) :
    Recoverable ((s.afterWrite call row objects).proceed index r
      (following call (call.action.apply s.store.now call.actor.userId row))) := by
  obtain ⟨hrow, hid, htenant, hrevision, hallowed⟩ := target_eq_some.1 htarget
  have hput : ∀ x, x ∈ (s.afterWrite call row objects).store.changeSets ↔
      x = call.action.apply s.store.now call.actor.userId row ∨
        x ∈ s.store.changeSets ∧ x.id ≠ row.id := by
    intro x
    have hmem := Table.mem_put hrow (apply_id call.action s.store.now call.actor.userId).symm
      (x := x)
    rwa [apply_id] at hmem
  constructor
  · rw [World.proceed_store]
    intro x hx hprogress
    rcases (hput x).1 hx with rfl | ⟨hx, hne⟩
    · obtain ⟨stage, hstage, hcarries⟩ := carries_following hallowed hprogress
      refine ⟨⟨r.actor, stage⟩, mem_proceed_of_mem hr hstage, hactor ▸ hcarries, ?_⟩
      exact (hauthorised hprogress).congr (apply_tenantId ..) (apply_spaceId ..)
    · refine carried_proceed (s := s.afterWrite call row objects)
        (P := fun r => Authorised s.store.access r.actor x) hr _
        (fun _ _ hP => hP) (h.carried x hx hprogress) fun hcarries _ => ?_
      -- The request has written another row than the one it would carry.
      unfold Carries at hcarries
      rw [hstage] at hcarries
      exact absurd (hcarries.2.1.symm.trans hid.symm) hne
  · rw [World.proceed_store]
    intro x hx jobId hjobId
    rcases (hput x).1 hx with rfl | ⟨hx, -⟩
    · rw [apply_jobId] at hjobId
      rw [apply_tenantId, apply_spaceId]
      exact h.jobs row hrow jobId hjobId
    · exact h.jobs x hx jobId hjobId
  · rw [World.proceed_vaults]
    exact h.heads
  · rw [World.proceed_store]
    intro x hx
    rcases (hput x).1 hx with rfl | ⟨hx, -⟩
    · exact apply_status _ _ _ hallowed
    · exact h.statuses x hx

theorem Recoverable.advance (h : Recoverable s) {start : Uuid → Files}
    (hsound : WritesSound start s) (hr : s.requests[index]? = some r)
    (hhands : HandsOn env s (.step index oid)) (hfresh : r.stage.commits → isShort 128 oid) :
    Recoverable ((s.advance env r oid).1.proceed index r (s.advance env r oid).2) := by
  have hmem := mem_of_getElem? hr
  obtain ⟨hshort, hauthorised⟩ := hhands r hr
  rcases @advance_store T env s r oid with
    ⟨call, row, objects, hstage, htarget, hadvance⟩ | ⟨hstore, hkept⟩
  · have hactor : call.actor = r.actor := by
      have hreads := hsound.requests r hmem
      rw [hstage] at hreads
      exact hreads.1
    rw [hadvance]
    exact h.proceed_write hr hstage htarget hactor (hauthorised call row hstage htarget)
  · refine h.congr ?_ ?_ fun row hrow hprogress => ?_
    · rw [World.proceed_store, hstore]
    · intro tenantId
      rw [World.proceed_vaults]
      exact advance_heads h.heads hfresh tenantId
    · refine carried_proceed (P := fun r => Authorised s.store.access r.actor row)
        (by rwa [advance_requests]) _ (fun _ _ hP => hP)
        (by rw [advance_requests]; exact h.carried row hrow hprogress) fun hcarries hauth => ?_
      exact carries_advance hrow hauth hcarries (hshort row hrow hcarries) hkept

theorem Recoverable.start (h : Recoverable s) (actor : SpaceActor) (stage : Stage) :
    Recoverable (s.start actor stage) := by
  refine h.congr rfl h.heads fun row hrow hprogress => ?_
  obtain ⟨r, hr, hcarried⟩ := h.carried row hrow hprogress
  exact ⟨r, mem_append_left _ hr, hcarried⟩

theorem Recoverable.create (h : Recoverable s) {input : NewChangeSet} (hvalid : s.validNew input) :
    Recoverable { s with store := (s.store.create input).getD s.store } := by
  cases hcreate : s.store.create input with
  | none => exact h
  | some store =>
    unfold ChangeSetStore.create at hcreate
    split_ifs at hcreate with htaken
    obtain ⟨changeSets, hinsert, rfl⟩ := map_eq_some_iff.1 hcreate
    have hmem := fun x => Table.mem_insert hinsert (x := x)
    constructor
    · intro row hrow hprogress
      rcases (hmem row).1 hrow with hold | rfl
      · exact h.carried row hold hprogress
      · rcases hprogress with hstatus | hstatus <;> cases hstatus
    · intro row hrow jobId hjobId
      rcases (hmem row).1 hrow with hold | rfl
      · exact h.jobs row hold jobId hjobId
      · have hjob := Option.all_eq_true _ _ |>.1 (Bool.and_eq_true_iff.1 hvalid).1 jobId hjobId
        obtain ⟨job, hjob, hsame⟩ := (Option.any_eq_true _ _).1 hjob
        simp only [Bool.and_eq_true, decide_eq_true_eq] at hsame
        exact ⟨job, hjob, hsame⟩
    · exact h.heads
    · intro row hrow
      rcases (hmem row).1 hrow with hold | rfl
      · exact h.statuses row hold
      · nofun

variable {a : Label}

theorem Recoverable.step (h : Recoverable s) {start : Uuid → Files} (hsound : WritesSound start s)
    (hhands : HandsOn env s a) (hstep : (machine env).step s a = some s') :
    Recoverable s' := by
  cases a with
  | access registry =>
    cases hstep
    refine ⟨fun row hrow hprogress => ?_, h.jobs, h.heads, h.statuses⟩
    obtain ⟨r, hr, hcarries, -⟩ := h.carried row hrow hprogress
    exact ⟨r, hr, hcarries, hhands r hr row hrow hcarries⟩
  | tick elapsed =>
    cases hstep
    exact ⟨h.carried, h.jobs, h.heads, h.statuses⟩
  | job id sources =>
    obtain ⟨hnew, hs'⟩ := ite_none_right_eq_some.1 hstep
    cases hs'
    refine ⟨h.carried, fun row hrow jobId hjobId => ?_, h.heads, h.statuses⟩
    obtain ⟨job, hjob, hsame⟩ := h.jobs row hrow jobId hjobId
    refine ⟨job, ?_, hsame⟩
    have hne : jobId ≠ id := by
      rintro rfl
      rw [hjob] at hnew
      cases hnew
    change Function.update s.store.jobs id (some sources) jobId = some job
    rw [update_of_ne hne]
    exact hjob
  | create input =>
    obtain ⟨hvalid, hs'⟩ := ite_none_right_eq_some.1 hstep
    cases hs'
    exact h.create hvalid
  | edit | accept | reject =>
    cases hstep
    exact h.start _ _
  | retry actor changeSetId expectedRevision =>
    dsimp only at hstep
    split at hstep
    · split_ifs at hstep <;> cases hstep
      · exact h.start _ _
      · exact h
    · cases hstep
      exact h
  | step index oid =>
    obtain ⟨r, hr, hstep⟩ := bind_eq_some_iff.1 hstep
    obtain ⟨hfresh, hs'⟩ := ite_none_right_eq_some.1 hstep
    cases hs'
    refine h.advance hsound hr hhands fun hcommits => ?_
    rw [hcommits, Bool.not_true, Bool.false_or] at hfresh
    exact (Bool.and_eq_true_iff.1 hfresh).1
  | fault index detail =>
    obtain ⟨r, hr, rfl⟩ := map_eq_some_iff.1 hstep
    refine h.congr (World.proceed_store ..) (by simpa using h.heads) fun row hrow hprogress => ?_
    refine carried_proceed (P := fun r => Authorised s.store.access r.actor row) hr _
      (fun _ _ hP => hP) (h.carried row hrow hprogress) fun hcarries _ => ?_
    exact carries_faulted hcarries (hhands r hr row hrow hcarries)
  | die index =>
    obtain ⟨r, hr, rfl⟩ := map_eq_some_iff.1 hstep
    refine h.congr rfl h.heads fun row hrow hprogress => ?_
    refine carried_proceed (P := fun r => Authorised s.store.access r.actor row) hr none
      (fun _ _ hP => hP) (h.carried row hrow hprogress) fun hcarries _ => ?_
    exact absurd hcarries (hhands r hr row hrow)

/-! ## What users can bring about -/

theorem getElem?_proceed (hr : s.requests[index]? = some r) (stage : Stage) :
    (s.proceed index r (some stage)).requests[index]? = some { r with stage } :=
  getElem?_set_self (List.getElem?_eq_some_iff.1 hr).1

theorem step_request (hr : s.requests[index]? = some r)
    (hcommits : r.stage.commits = false) (oid : String) : (machine env).step s (.step index oid) =
      some ((s.advance env r oid).1.proceed index r (s.advance env r oid).2) := by
  change (s.requests[index]?).bind _ = _
  rw [hr, bind_some, hcommits]
  rfl

def World.afterCall (s : World) (index : ℕ) (r : Request) (call : ChangeSetCall)
    (row : KnowledgeChangeSetRow) : World :=
  ((s.proceed index r (some (.write call))).afterWrite call row s.store.objects).proceed index
    { r with stage := .write call }
    (following call (call.action.apply s.store.now call.actor.userId row))

theorem exec_write (hr : s.requests[index]? = some r)
    (hstage : r.stage = .write call) (hobjects : call.action.objects = [])
    (htarget : s.store.target call = some row) : (machine env).step s (.step index "") =
      some ((s.afterWrite call row s.store.objects).proceed index r
        (following call (call.action.apply s.store.now call.actor.userId row))) := by
  have hwrite := write_of_target hobjects htarget
  rw [step_request hr (by rw [hstage]; rfl)]
  unfold World.advance
  rw [hstage]
  simp only [hwrite]
  rfl

theorem exec_call (hr : s.requests[index]? = some r)
    (hstage : r.stage = .check call)
    (hcheck : s.store.check env.parse env.isAlphanumeric call = .ok ())
    (hobjects : call.action.objects = []) (htarget : s.store.target call = some row) :
    (machine env).exec s [.step index "", .step index ""] =
      some (s.afterCall index r call row) := by
  have hfirst : (machine env).step s (.step index "") =
      some (s.proceed index r (some (.write call))) := by
    rw [step_request hr (by rw [hstage]; rfl)]
    unfold World.advance
    rw [hstage]
    simp only [hcheck]
  have htarget' : (s.proceed index r (some (.write call))).store.target call = some row := by
    rwa [World.proceed_store]
  have hsecond := @exec_write T env _ _ _ _ _ (getElem?_proceed hr (.write call)) rfl hobjects
    htarget'
  rw [World.proceed_store] at hsecond
  exact (machine env).exec_cons_eq_some.2
    ⟨_, hfirst, (machine env).exec_cons_eq_some.2 ⟨_, hsecond, rfl⟩⟩

structure KeepsRow (s s' : World) (row row' : KnowledgeChangeSetRow) : Prop where
  access : s'.store.access = s.store.access
  jobs : s'.store.jobs = s.store.jobs
  vaults : s'.vaults = s.vaults
  mem : row' ∈ s'.store.changeSets
  id : row'.id = row.id
  tenantId : row'.tenantId = row.tenantId
  spaceId : row'.spaceId = row.spaceId
  jobId : row'.jobId = row.jobId

theorem KeepsRow.trans {s'' : World} {row' row'' : KnowledgeChangeSetRow}
    (h : KeepsRow s s' row row') (h' : KeepsRow s' s'' row' row'') : KeepsRow s s'' row row'' where
  access := h'.access.trans h.access
  jobs := h'.jobs.trans h.jobs
  vaults := h'.vaults.trans h.vaults
  mem := h'.mem
  id := h'.id.trans h.id
  tenantId := h'.tenantId.trans h.tenantId
  spaceId := h'.spaceId.trans h.spaceId
  jobId := h'.jobId.trans h.jobId

theorem keepsRow_proceed (hrow : row ∈ s.store.changeSets) (index : ℕ) (r : Request)
    (next : Option Stage) : KeepsRow s (s.proceed index r next) row row := by
  cases next <;> exact ⟨rfl, rfl, rfl, hrow, rfl, rfl, rfl, rfl⟩

theorem keepsRow_afterWrite (htarget : s.store.target call = some row)
    (objects : Table KnowledgeObjectRow.id) : KeepsRow s (s.afterWrite call row objects) row
      (call.action.apply s.store.now call.actor.userId row) where
  access := rfl
  jobs := rfl
  vaults := rfl
  mem := (Table.mem_put (target_eq_some.1 htarget).1 (apply_id ..).symm).2 (.inl rfl)
  id := apply_id ..
  tenantId := apply_tenantId ..
  spaceId := apply_spaceId ..
  jobId := apply_jobId ..

theorem keepsRow_afterCall
    (htarget : s.store.target call = some row) : KeepsRow s (s.afterCall index r call row) row
      (call.action.apply s.store.now call.actor.userId row) := by
  have hfirst := keepsRow_proceed (target_eq_some.1 htarget).1 index r (some (.write call))
  have hstore := World.proceed_store s index r (some (.write call))
  have hsecond := keepsRow_afterWrite (s := s.proceed index r (some (.write call)))
    (by rwa [hstore]) s.store.objects
  rw [hstore] at hsecond
  exact (hfirst.trans hsecond).trans (keepsRow_proceed hsecond.mem ..)

theorem exec_user (hstart : (machine env).step s a = some (s.start call.actor (.check call)))
    (hcheck : s.store.check env.parse env.isAlphanumeric call = .ok ())
    (hobjects : call.action.objects = []) (htarget : s.store.target call = some row) :
    ∃ t, (machine env).exec s [a, .step s.requests.length "", .step s.requests.length ""] = some t ∧
      KeepsRow s t row (call.action.apply s.store.now call.actor.userId row) := by
  have hr : (s.start call.actor (.check call)).requests[s.requests.length]? =
      some ⟨call.actor, .check call⟩ := by simp [World.start]
  have hcall := @exec_call T env _ _ _ _ _ hr rfl hcheck hobjects htarget
  refine ⟨_, (machine env).exec_cons_eq_some.2 ⟨_, hstart, hcall⟩, ?_⟩
  have hkeeps : KeepsRow s (s.start call.actor (.check call)) row row :=
    ⟨rfl, rfl, rfl, (target_eq_some.1 htarget).1, rfl, rfl, rfl, rfl⟩
  exact hkeeps.trans (keepsRow_afterCall htarget)

theorem canSettle_pending (hrow : row ∈ s.store.changeSets)
    (hauthorised : Authorised s.store.access actor row)
    (hstatus : row.status = .pendingUserReview) : CanSettle env s actor row.id := by
  let call : ChangeSetCall := ⟨actor, row.id, row.revision, .decide .reject none⟩
  have htarget : s.store.target call = some row :=
    target_of_row hrow rfl rfl hauthorised.1 (by simp [call, ChangeSetAction.allowed, hstatus])
  have hcheck : s.store.check env.parse env.isAlphanumeric call = .ok () :=
    check_eq_ok hrow rfl hauthorised rfl rfl
  obtain ⟨t, hrun, hkeeps⟩ := @exec_user T env s row call (.reject actor row.id row.revision none)
    rfl hcheck rfl htarget
  refine ⟨_, t, ?_, hrun, _, hkeeps.mem, hkeeps.id, .inr rfl⟩
  simp [Serves]

def sampleRevision (row : KnowledgeChangeSetRow) : EditChangeSet where
  expectedRevision := row.revision
  title := "title"
  summary := ""
  operations := sampleOperations
  citations := .array []
  expectedGitRevision := none

theorem canSettle_failed (hrow : row ∈ s.store.changeSets)
    (hauthorised : Authorised s.store.access actor row)
    (hjobs : ∀ jobId ∈ row.jobId, ∃ job ∈ s.store.jobs jobId,
      job.tenantId = row.tenantId ∧ job.spaceId = row.spaceId)
    (hheads : ∀ tenantId, isShort 128 (s.vaults tenantId).version)
    (hstatus : row.status = .failedRetryable) : CanSettle env s actor row.id := by
  let input : EditChangeSet :=
    { sampleRevision row with expectedGitRevision := some (s.vaults actor.tenantId).version }
  let call : ChangeSetCall := ⟨actor, row.id, row.revision, .edit input⟩
  have htarget : s.store.target call = some row :=
    target_of_row hrow rfl rfl hauthorised.1 (by simp [call, ChangeSetAction.allowed, hstatus])
  have hinput : ChangeSetStore.checkInput call.action = .ok () := by
    have hfields : validateChangeSetFields "title" "" sampleOperations (.array []) = .ok () := by
      decide +kernel
    exact bind_eq_ok.2 ⟨(), hfields, if_pos (hheads actor.tenantId)⟩
  have hcurrent : s.store.checkCurrent env.parse env.isAlphanumeric actor row call.action =
      .ok () := by
    change s.store.checkCitations env.parse actor row (.array []) = .ok ()
    unfold ChangeSetStore.checkCitations
    cases hjob : row.jobId with
    | none => rfl
    | some jobId =>
      obtain ⟨job, hfound, htenant, hspace⟩ := hjobs jobId hjob
      have hfilter : (s.store.jobs jobId).filter (fun job => job.tenantId = actor.tenantId) =
          some job := by
        rw [filter_eq_some_iff]
        exact ⟨hfound, by simpa using htenant.trans hauthorised.1⟩
      simp only [hfilter]
      exact bind_eq_ok.2 ⟨(), hspace ▸ hauthorised.2.1, rfl⟩
  have hcheck : s.store.check env.parse env.isAlphanumeric call = .ok () :=
    check_eq_ok hrow rfl hauthorised hinput hcurrent
  obtain ⟨s', hrun, hkeeps⟩ := @exec_user T env s row call (.edit actor row.id (sampleRevision row))
    rfl hcheck rfl htarget
  have hauthorised' : Authorised s'.store.access actor
      (call.action.apply s.store.now call.actor.userId row) := by
    rw [hkeeps.access]
    exact hauthorised.congr hkeeps.tenantId hkeeps.spaceId
  obtain ⟨as, t, hserves, hrest, hsettled⟩ :=
    @canSettle_pending T env _ _ _ hkeeps.mem hauthorised' rfl
  rw [hkeeps.id] at hserves hsettled
  have hfirst : ∀ a ∈ [Label.edit actor row.id (sampleRevision row),
      .step s.requests.length "", .step s.requests.length ""], Serves actor row.id a := by
    simp [Serves]
  refine ⟨_, t, ?_, (machine env).exec_append_eq_some.2 ⟨s', hrun, hrest⟩, hsettled⟩
  exact fun a ha => (mem_append.1 ha).elim (hfirst a) (hserves a)

def CanFail (env : Env T) (s : World) (row : KnowledgeChangeSetRow) : Prop :=
  ∃ as t row', (∀ a ∈ as, OfRequest a) ∧ (machine env).exec s as = some t ∧
    KeepsRow s t row row' ∧ row'.status = .failedRetryable

theorem CanFail.of_exec {as : List Label} (h : CanFail env s' row') (has : ∀ a ∈ as, OfRequest a)
    (hrun : (machine env).exec s as = some s') (hkeeps : KeepsRow s s' row row') :
    CanFail env s row := by
  obtain ⟨bs, t, row'', hbs, hrest, hkeeps', hstatus⟩ := h
  refine ⟨as ++ bs, t, row'', ?_, (machine env).exec_append_eq_some.2 ⟨s', hrun, hrest⟩,
    hkeeps.trans hkeeps', hstatus⟩
  exact fun a ha => (mem_append.1 ha).elim (has a) (hbs a)

theorem refused_eq_some (h : refused call detail = some stage) :
    ∃ call, stage = .check call ∧ call.action = .failMaterialization (clipError detail) := by
  unfold refused at h
  split at h
  · cases h
    exact ⟨_, rfl, rfl⟩
  · cases h

theorem faulted_eq_some (h : faulted r detail = some stage) :
    ∃ call, stage = .check call ∧ call.action = .failMaterialization (clipError detail) := by
  obtain ⟨actor, stage'⟩ := r
  cases stage' with
  | check call | write call => exact refused_eq_some h
  | snapshot | refresh => cases h
  | opening | prepare | read | batch =>
    cases h
    exact ⟨_, rfl, rfl⟩

section

variable {index : ℕ} (hr : s.requests[index]? = some r) (hrow : row ∈ s.store.changeSets)
  (hauthorised : Authorised s.store.access r.actor row)

include hr hrow hauthorised

variable {call : ChangeSetCall}

theorem canFail_check {detail : String} (hstage : r.stage = .check call)
    (hcarries : Carries row r) (haction : call.action = .failMaterialization detail) :
    CanFail env s row := by
  obtain ⟨actor, changeSetId, expectedRevision, action⟩ := call
  obtain ⟨actor', stage⟩ := r
  cases haction
  cases hstage
  obtain ⟨rfl, rfl, rfl, hcarried⟩ := hcarries
  cases hcarried with
  | fails _ hstatus hshort =>
    have htarget : s.store.target ⟨actor, row.id, row.revision, .failMaterialization detail⟩ =
        some row :=
      target_of_row hrow rfl rfl hauthorised.1 (by simp [ChangeSetAction.allowed, hstatus])
    have hcheck : s.store.check env.parse env.isAlphanumeric
        ⟨actor, row.id, row.revision, .failMaterialization detail⟩ = .ok () :=
      check_eq_ok hrow rfl hauthorised (if_pos hshort) rfl
    refine ⟨_, _, _, ?_, exec_call hr rfl hcheck rfl htarget, keepsRow_afterCall htarget, rfl⟩
    simp [OfRequest]

theorem canFail_fault (hcarries : Carries row r) (hfaulted : (faulted r "failure").isSome) :
    CanFail env s row := by
  obtain ⟨stage, hstage⟩ := isSome_iff_exists.1 hfaulted
  obtain ⟨call, rfl, haction⟩ := faulted_eq_some hstage
  have hshort : ∃ stage ∈ faulted r "failure", ShortText stage := by
    refine ⟨_, hstage, ?_⟩
    simp only [ShortText, haction]
    decide +kernel
  obtain ⟨stage, hstage', hcarries'⟩ := carries_faulted hcarries hshort
  obtain rfl := mem_unique hstage hstage'
  have hfault : (machine env).step s (.fault index "failure") =
      some (s.proceed index r (some (.check call))) := by
    change (s.requests[index]?).map _ = _
    rw [hr, map_some, hstage]
  have hkeeps := keepsRow_proceed hrow index r (some (.check call))
  have hrun : (machine env).exec s [.fault index "failure"] =
      some (s.proceed index r (some (.check call))) :=
    (machine env).exec_cons_eq_some.2 ⟨_, hfault, rfl⟩
  refine CanFail.of_exec ?_ (by simp [OfRequest]) hrun hkeeps
  exact canFail_check (getElem?_proceed hr _) hkeeps.mem (by rwa [hkeeps.access]) rfl hcarries'
    haction

theorem canFail_write {detail : String} (hstage : r.stage = .write call)
    (hcarries : Carries row r) (haction : call.action = .failMaterialization detail) :
    CanFail env s row := by
  obtain ⟨actor, changeSetId, expectedRevision, action⟩ := call
  obtain ⟨actor', stage⟩ := r
  cases haction
  cases hstage
  obtain ⟨rfl, rfl, rfl, hcarried⟩ := hcarries
  cases hcarried with
  | fails _ hstatus =>
    have htarget : s.store.target ⟨actor, row.id, row.revision, .failMaterialization detail⟩ =
        some row :=
      target_of_row hrow rfl rfl hauthorised.1 (by simp [ChangeSetAction.allowed, hstatus])
    have hkeeps := keepsRow_afterWrite htarget s.store.objects
    refine ⟨[.step index ""], _, _, by simp [OfRequest], (machine env).exec_cons_eq_some.2
      ⟨_, exec_write hr rfl rfl htarget, rfl⟩, hkeeps.trans (keepsRow_proceed hkeeps.mem ..), rfl⟩

theorem canFail_begin (hstage : r.stage = .check call ∨ r.stage = .write call)
    (hcarries : Carries row r)
    (haction : call.action = .beginMaterialization) : CanFail env s row := by
  obtain ⟨actor, changeSetId, expectedRevision, action⟩ := call
  obtain ⟨actor', stage⟩ := r
  cases haction
  have hcarried : actor = actor' ∧ changeSetId = row.id ∧ expectedRevision = row.revision ∧
      CarriedCall row .beginMaterialization := by
    rcases hstage with hstage | hstage <;>
      · cases hstage
        exact hcarries
  obtain ⟨rfl, rfl, rfl, hcarried⟩ := hcarried
  cases hcarried with
  | begins hstatus =>
    have htarget : s.store.target ⟨actor, row.id, row.revision, .beginMaterialization⟩ = some row :=
      target_of_row hrow rfl rfl hauthorised.1 (by simp [ChangeSetAction.allowed, hstatus])
    have hcheck : s.store.check env.parse env.isAlphanumeric
        ⟨actor, row.id, row.revision, .beginMaterialization⟩ = .ok () :=
      check_eq_ok hrow rfl hauthorised rfl rfl
    have hbegun : Authorised s.store.access actor row.beginMaterialization :=
      hauthorised.congr rfl rfl
    rcases hstage with hstage | hstage
    · cases hstage
      have hkeeps := @keepsRow_afterCall s row
        ⟨actor, .check ⟨actor, row.id, row.revision, .beginMaterialization⟩⟩ _ index htarget
      refine CanFail.of_exec ?_ ?_ (exec_call hr rfl hcheck rfl htarget) hkeeps
      · exact canFail_fault (getElem?_proceed (getElem?_proceed hr _) _) hkeeps.mem hbegun
          ⟨rfl, rfl, rfl⟩ rfl
      · simp [OfRequest]
    · cases hstage
      have hkeeps := keepsRow_afterWrite htarget s.store.objects
      have hkeeps' := hkeeps.trans (keepsRow_proceed hkeeps.mem index
        ⟨actor, .write ⟨actor, row.id, row.revision, .beginMaterialization⟩⟩
        (some (.opening row.beginMaterialization)))
      refine @CanFail.of_exec T env s _ row _ [.step index ""] ?_ (by simp [OfRequest])
        ((machine env).exec_cons_eq_some.2 ⟨_, exec_write hr rfl rfl htarget, rfl⟩) hkeeps'
      exact canFail_fault (getElem?_proceed hr _) hkeeps'.mem hbegun ⟨rfl, rfl, rfl⟩ rfl

theorem canFail_of_carries (hcarries : Carries row r) : CanFail env s row := by
  obtain ⟨actor, stage⟩ := r
  have hfault := @canFail_fault T env _ _ _ _ hr hrow hauthorised hcarries
  cases stage with
  | check call =>
    cases haction : call.action with
    | beginMaterialization => exact canFail_begin hr hrow hauthorised (.inl rfl) hcarries haction
    | failMaterialization detail => exact canFail_check hr hrow hauthorised rfl hcarries haction
    | completeMaterialization => exact hfault (by simp [faulted, refused, haction])
    | _ =>
      obtain ⟨-, -, -, hcarried⟩ := hcarries
      rw [haction] at hcarried
      cases hcarried
  | write call =>
    cases haction : call.action with
    | beginMaterialization => exact canFail_begin hr hrow hauthorised (.inr rfl) hcarries haction
    | failMaterialization detail => exact canFail_write hr hrow hauthorised rfl hcarries haction
    | completeMaterialization => exact hfault (by simp [faulted, refused, haction])
    | _ =>
      obtain ⟨-, -, -, hcarried⟩ := hcarries
      rw [haction] at hcarried
      cases hcarried
  | snapshot | refresh => exact hcarries.elim
  | opening | prepare | read | batch => exact hfault rfl

end

theorem Recoverable.noneStranded (h : Recoverable s) : NoneStranded env s := by
  intro row hrow actor hauthorised
  have hsettled : CanSettle env s actor row.id →
      ∃ as t, (∀ a ∈ as, OfRequest a) ∧ ((∀ r ∈ s.requests, ¬ Carries row r) → as = []) ∧
        (machine env).exec s as = some t ∧ CanSettle env t actor row.id :=
    fun hcan => ⟨[], s, by simp, fun _ => rfl, rfl, hcan⟩
  have hcarried : InProgress row →
      ∃ as t, (∀ a ∈ as, OfRequest a) ∧ ((∀ r ∈ s.requests, ¬ Carries row r) → as = []) ∧
        (machine env).exec s as = some t ∧ CanSettle env t actor row.id := by
    intro hprogress
    obtain ⟨r, hr, hcarries, hactor⟩ := h.carried row hrow hprogress
    obtain ⟨index, hindex⟩ := mem_iff_getElem?.1 hr
    obtain ⟨as, t, row', has, hrun, hkeeps, hstatus⟩ :=
      @canFail_of_carries T env _ _ _ _ hindex hrow hactor hcarries
    refine ⟨as, t, has, fun hnone => absurd hcarries (hnone r hr), hrun, ?_⟩
    rw [← hkeeps.id]
    refine canSettle_failed hkeeps.mem ?_ ?_ ?_ hstatus
    · rw [hkeeps.access]
      exact hauthorised.congr hkeeps.tenantId hkeeps.spaceId
    · rw [hkeeps.jobId, hkeeps.jobs, hkeeps.tenantId, hkeeps.spaceId]
      exact h.jobs row hrow
    · rw [hkeeps.vaults]
      exact h.heads
  cases hstatus : row.status with
  | proposed => exact absurd hstatus (h.statuses row hrow)
  | pendingUserReview => exact hsettled (canSettle_pending hrow hauthorised hstatus)
  | accepted => exact hcarried (.inl hstatus)
  | materializing => exact hcarried (.inr hstatus)
  | failedRetryable =>
    exact hsettled (canSettle_failed hrow hauthorised (h.jobs row hrow) h.heads hstatus)
  | applied => exact hsettled ⟨[], s, by simp, rfl, row, hrow, rfl, .inl hstatus⟩
  | rejected => exact hsettled ⟨[], s, by simp, rfl, row, hrow, rfl, .inr hstatus⟩

/-! ## Change sets that no request takes up -/

def TakesUp : ChangeSetAction → Prop
  | .beginMaterialization | .completeMaterialization _ _ | .failMaterialization _ => True
  | _ => False

/-- The request is about a change set as it is now, and may write to it while it is in progress. -/
def Takes (row : KnowledgeChangeSetRow) (r : Request) : Prop :=
  match r.stage with
  | .check call | .write call =>
    call.changeSetId = row.id ∧ call.expectedRevision = row.revision ∧ TakesUp call.action
  | .opening row' | .prepare row' _ _ _ | .read row' _ _ _ _ | .batch row' _ _ =>
    row'.id = row.id ∧ row'.revision = row.revision
  | .snapshot _ | .refresh _ _ => False

/-- The change set is in progress and no request is about it. -/
structure Abandoned (row : KnowledgeChangeSetRow) (s : World) : Prop where
  mem : row ∈ s.store.changeSets
  progress : InProgress row
  untaken : ∀ r ∈ s.requests, ¬ Takes row r

theorem not_takes_refused (detail : String) (h : ¬ Takes row ⟨actor, .check call⟩) :
    ∀ stage ∈ refused call detail, ¬ Takes row ⟨actor, stage⟩ := by
  intro stage hstage htakes
  unfold refused at hstage
  split at hstage
  · rename_i haction
    cases hstage
    refine h ⟨htakes.1, htakes.2.1, ?_⟩
    rw [haction]
    trivial
  · cases hstage

theorem not_takes_advance (h : ¬ Takes row r)
    (hkept : ∀ call, r.stage = .write call → ∃ error, s.store.write call = .error error) :
    ∀ stage ∈ (s.advance env r oid).2, ¬ Takes row { r with stage } := by
  obtain ⟨actor, stage⟩ := r
  have hone : ∀ next : Stage, ¬ Takes row ⟨actor, next⟩ →
      ∀ stage ∈ some next, ¬ Takes row ⟨actor, stage⟩ := by
    intro next hnext stage hstage
    cases hstage
    exact hnext
  have hfailing : ∀ (row' : KnowledgeChangeSetRow) (detail : String),
      ¬ (row'.id = row.id ∧ row'.revision = row.revision) →
      ¬ Takes row ⟨actor, failing actor row' detail⟩ :=
    fun row' detail hne htakes => hne ⟨htakes.1, htakes.2.1⟩
  cases stage with
  | check call =>
    unfold World.advance
    dsimp only
    split
    · exact hone _ h
    · exact not_takes_refused _ h
  | write call =>
    obtain ⟨error, herror⟩ := hkept call rfl
    simp only [World.advance, herror]
    exact not_takes_refused _ h
  | snapshot row' => exact hone _ not_false
  | refresh row' head =>
    unfold World.advance
    dsimp only
    split
    · refine hone _ fun htakes => ?_
      obtain ⟨-, -, htakes⟩ := htakes
      unfold retryCall callOn at htakes
      split_ifs at htakes <;> exact htakes
    · simp
  | opening row' =>
    unfold World.advance
    dsimp only
    split
    · exact hone _ h
    · exact hone _ (hfailing _ _ h)
  | prepare row' context operations prepared =>
    cases operations with
    | nil => exact hone _ h
    | cons operation operations =>
      unfold World.advance
      dsimp only
      split
      · exact hone _ h
      · exact hone _ h
      · exact hone _ (hfailing _ _ h)
  | read row' context target operations prepared =>
    unfold World.advance
    dsimp only
    split
    · exact hone _ (hfailing _ _ h)
    · split_ifs
      · exact hone _ (hfailing _ _ h)
      · split
        · exact hone _ h
        · exact hone _ (hfailing _ _ h)
  | batch row' context prepared =>
    unfold World.advance
    dsimp only
    split
    · exact hone _ (hfailing _ _ h)
    · exact hone _ (hfailing _ _ h)
    · exact hone _ fun htakes => h ⟨htakes.1, htakes.2.1⟩

theorem not_takes_faulted (h : ¬ Takes row r) :
    ∀ stage ∈ faulted r detail, ¬ Takes row { r with stage } := by
  obtain ⟨actor, stage⟩ := r
  cases stage with
  | check call | write call => exact not_takes_refused _ h
  | snapshot | refresh => exact fun _ hstage => by cases hstage
  | opening | prepare | read | batch =>
    intro stage hstage htakes
    cases hstage
    exact h ⟨htakes.1, htakes.2.1⟩

theorem takesUp_of_allowed {action : ChangeSetAction} (hprogress : InProgress row)
    (hallowed : row.status ∈ action.allowed) : TakesUp action := by
  cases action with
  | beginMaterialization | completeMaterialization | failMaterialization => trivial
  | _ => rcases hprogress with h | h <;> simp [ChangeSetAction.allowed, h] at hallowed

theorem not_takes_following
    (hne : row'.id ≠ row.id) : ∀ stage ∈ following call row', ¬ Takes row ⟨actor, stage⟩ := by
  intro stage hstage htakes
  unfold following at hstage
  split at hstage <;> cases hstage <;> exact hne htakes.1

section

variable (h : Abandoned row s)

include h

theorem Abandoned.proceed (hnext : ∀ stage ∈ next, ¬ Takes row { r with stage }) :
    Abandoned row (s.proceed index r next) where
  mem := by
    rw [World.proceed_store]
    exact h.mem
  progress := h.progress
  untaken := by
    intro r' hr'
    rcases mem_proceed hr' with hold | ⟨stage, hstage, rfl⟩
    · exact h.untaken r' hold
    · exact hnext stage hstage

theorem Abandoned.advance (hr : s.requests[index]? = some r) :
    Abandoned row ((s.advance env r oid).1.proceed index r (s.advance env r oid).2) := by
  have huntaken := h.untaken r (mem_of_getElem? hr)
  rcases @advance_store T env s r oid with
    ⟨call, row', objects, hstage, htarget, hadvance⟩ | ⟨hstore, hkept⟩
  · obtain ⟨hrow', hid, -, hrevision, hallowed⟩ := target_eq_some.1 htarget
    -- The request would be about the change set if it wrote to it.
    have hne : row'.id ≠ row.id := by
      intro hsame
      obtain rfl := Table.eq_of_key hrow' h.mem hsame
      refine huntaken ?_
      unfold Takes
      rw [hstage]
      exact ⟨hid.symm, hrevision.symm, takesUp_of_allowed h.progress hallowed⟩
    rw [hadvance]
    have hmem : row ∈ (s.afterWrite call row' objects).store.changeSets :=
      (Table.mem_put hrow' (apply_id ..).symm).2 (.inr ⟨h.mem, by rw [apply_id]; exact hne.symm⟩)
    have hafter : Abandoned row (s.afterWrite call row' objects) := ⟨hmem, h.progress, h.untaken⟩
    exact hafter.proceed (not_takes_following (by rwa [apply_id]))
  · have hafter : Abandoned row (s.advance env r oid).1 := by
      refine ⟨?_, h.progress, ?_⟩
      · rw [hstore]
        exact h.mem
      · rw [advance_requests]
        exact h.untaken
    exact hafter.proceed (not_takes_advance huntaken hkept)

theorem Abandoned.start (hstage : ¬ Takes row ⟨actor, stage⟩) :
    Abandoned row (s.start actor stage) := by
  refine ⟨h.mem, h.progress, fun r hr => ?_⟩
  rcases mem_append.1 hr with hold | hnew
  · exact h.untaken r hold
  · rwa [mem_singleton.1 hnew]

theorem Abandoned.step (hstep : (machine env).step s a = some s') : Abandoned row s' := by
  cases a with
  | access registry | tick elapsed =>
    cases hstep
    exact ⟨h.mem, h.progress, h.untaken⟩
  | job id sources =>
    obtain ⟨-, hs'⟩ := ite_none_right_eq_some.1 hstep
    cases hs'
    exact ⟨h.mem, h.progress, h.untaken⟩
  | create input =>
    obtain ⟨-, hs'⟩ := ite_none_right_eq_some.1 hstep
    cases hs'
    refine ⟨?_, h.progress, h.untaken⟩
    cases hcreate : s.store.create input with
    | none => exact h.mem
    | some store =>
      unfold ChangeSetStore.create at hcreate
      split_ifs at hcreate
      obtain ⟨changeSets, hinsert, rfl⟩ := map_eq_some_iff.1 hcreate
      exact (Table.mem_insert hinsert).2 (.inl h.mem)
  | edit | accept | reject =>
    cases hstep
    exact h.start fun htakes => htakes.2.2
  | retry actor changeSetId expectedRevision =>
    dsimp only at hstep
    split at hstep
    · split_ifs at hstep <;> cases hstep
      · exact h.start not_false
      · exact h
    · cases hstep
      exact h
  | step index oid =>
    obtain ⟨r, hr, hstep⟩ := bind_eq_some_iff.1 hstep
    obtain ⟨-, hs'⟩ := ite_none_right_eq_some.1 hstep
    cases hs'
    exact h.advance hr
  | fault index detail =>
    obtain ⟨r, hr, rfl⟩ := map_eq_some_iff.1 hstep
    exact h.proceed (not_takes_faulted (h.untaken r (mem_of_getElem? hr)))
  | die index =>
    obtain ⟨r, hr, rfl⟩ := map_eq_some_iff.1 hstep
    exact ⟨h.mem, h.progress, fun r' hr' => h.untaken r' (mem_of_mem_eraseIdx hr')⟩

end

/-! ## Runs -/

theorem Abandoned.not_settled (h : Abandoned row s) {as : List Label} {t : World}
    (hrun : (machine env).exec s as = some t) : ¬ Settled t row.id := by
  have hend := (machine env).invariant (fun _ _ _ hs hstep => hs.step hstep) h hrun
  rintro ⟨row', hrow', hid, hstatus⟩
  obtain rfl := Table.eq_of_key hrow' hend.mem hid
  rcases hend.progress with hprogress | hprogress <;>
    rcases hstatus with hstatus | hstatus <;> cases hprogress.symm.trans hstatus

theorem Abandoned.stranded (h : Abandoned row s)
    (hauthorised : Authorised s.store.access actor row) : ¬ NoneStranded env s := by
  intro hnone
  obtain ⟨as, s', -, -, hrun, bs, t, -, hrest, hsettled⟩ := hnone row h.mem actor hauthorised
  exact h.not_settled ((machine env).exec_append_eq_some.2 ⟨s', hrun, hrest⟩) hsettled

/-- A run whose steps all hand on what requests carry strands no change set. -/
theorem none_stranded_of_hands_on (env : Env T) (access : Registry) (now : ℤ)
    (objects : Table KnowledgeObjectRow.id) (vaults : Uuid → Vault)
    (hheads : ∀ tenantId, isShort 128 (vaults tenantId).version) {as : List Label} {s : World}
    (hrun : (machine env).exec (World.initial access now objects vaults) as = some s)
    (hhands : (machine env).Meets (HandsOn env) (World.initial access now objects vaults) as) :
    NoneStranded env s := by
  let start : Uuid → Files := fun tenantId => (vaults tenantId).value
  have hinitial : WritesSound start (World.initial access now objects vaults) ∧
      Recoverable (World.initial access now objects vaults) :=
    ⟨writesSound_initial .., ⟨fun row hrow => absurd hrow (Table.not_mem_empty row),
      fun row hrow => absurd hrow (Table.not_mem_empty row), hheads,
      fun row hrow => absurd hrow (Table.not_mem_empty row)⟩⟩
  have hend := (machine env).invariant_of_meets
    (I := fun s => WritesSound start s ∧ Recoverable s)
    (fun s a s' hs ha hstep => ⟨hs.1.step hstep, hs.2.step hs.1 ha hstep⟩) hinitial hhands hrun
  exact hend.2.noneStranded

def mayChange (access : Registry) (actor : SpaceActor) (row : KnowledgeChangeSetRow) : Bool :=
  row.tenantId = actor.tenantId && (requireVisibleSpace access actor row.spaceId).isOk &&
    (requireContributor access actor row.spaceId).isOk

theorem eq_ok_of_isOk {ε : Type} {x : Except ε Unit} (h : x.isOk) : x = .ok () := by
  cases x with
  | error => cases h
  | ok => rfl

theorem authorised_of_mayChange {access : Registry} (h : mayChange access actor row) :
    Authorised access actor row := by
  simp only [mayChange, Bool.and_eq_true, decide_eq_true_eq] at h
  exact ⟨h.1.1, eq_ok_of_isOk h.1.2, eq_ok_of_isOk h.2⟩

def shortText : Stage → Bool
  | .check call =>
    match call.action with
    | .failMaterialization detail => isShort 1000 detail
    | _ => true
  | _ => true

theorem shortText_of_test (h : shortText stage) : ShortText stage := by
  unfold shortText at h
  unfold ShortText
  split at h
  · split at h
    · exact h
    · trivial
  · trivial

def handsOn (env : Env T) (s : World) : Label → Bool
  | .access _ | .die _ => false
  | .fault index detail =>
    (s.requests[index]?).all fun r => (faulted r detail).any shortText
  | .step index oid =>
    (s.requests[index]?).all fun r =>
      ((s.advance env r oid).2.all shortText) &&
        match r.stage with
        | .write call => (s.store.target call).all (mayChange s.store.access r.actor)
        | _ => true
  | _ => true

theorem handsOn_of_test (h : handsOn env s a) : HandsOn env s a := by
  cases a with
  | access | die => cases h
  | fault index detail =>
    intro r hr row hrow hcarries
    have htest := Option.all_eq_true _ _ |>.1 h r hr
    obtain ⟨stage, hstage, hshort⟩ := (Option.any_eq_true _ _).1 htest
    exact ⟨stage, hstage, shortText_of_test hshort⟩
  | step index oid =>
    intro r hr
    obtain ⟨hshort, hactor⟩ := Bool.and_eq_true_iff.1 (Option.all_eq_true _ _ |>.1 h r hr)
    constructor
    · intro row hrow hcarries stage hstage
      exact shortText_of_test (Option.all_eq_true _ _ |>.1 hshort stage hstage)
    · intro call row hstage htarget hprogress
      rw [hstage] at hactor
      exact authorised_of_mayChange (Option.all_eq_true _ _ |>.1 hactor row htarget)
  | _ => trivial

/-- A note is committed to the Vault, the call that completes the materialization fails, and the
failure is reported. -/
def sampleReportedRun : List Label :=
  sampleAccepted 7 (sampleCreateNote "Body") "head" ++ sampleSteps 9 "a" ++
    [.fault 0 "knowledge job persistence failed"] ++ sampleSteps 2 "b"

theorem none_stranded_sample :
    ∃ s, (machine sampleEnv).exec sampleWorld sampleReportedRun = some s ∧
      (s.store.changeSets.rows.map (·.status)) = [.failedRetryable] ∧ NoneStranded sampleEnv s := by
  have hrun : ((machine sampleEnv).exec sampleWorld sampleReportedRun).map
      (fun s => s.store.changeSets.rows.map (·.status)) = some [.failedRetryable] := by
    decide +kernel
  obtain ⟨s, hs, hstatus⟩ := map_eq_some_iff.1 hrun
  have htest : (machine sampleEnv).meetsTest (handsOn sampleEnv) sampleWorld
      sampleReportedRun := by decide +kernel
  refine ⟨s, hs, hstatus, ?_⟩
  exact none_stranded_of_hands_on sampleEnv sampleAccess 0 .empty _ (fun _ => by decide) hs
    ((machine sampleEnv).meets_of_meetsTest (fun _ _ => handsOn_of_test) htest)

theorem isSome_faulted (r : Request) (detail detail' : String) :
    (faulted r detail).isSome = (faulted r detail').isSome := by
  obtain ⟨actor, stage⟩ := r
  cases stage with
  | check call | write call =>
    simp only [faulted, refused]
    split <;> rfl
  | _ => rfl

theorem exec_long_failure (hr : s.requests[index]? = some r)
    (hfaulted : (faulted r detail).isSome) (hlong : isShort 1000 (clipError detail) = false) :
    (machine env).exec s [.fault index detail, .step index ""] =
      some { s with requests := s.requests.eraseIdx index } := by
  obtain ⟨stage, hstage⟩ := isSome_iff_exists.1 hfaulted
  obtain ⟨call, rfl, haction⟩ := faulted_eq_some hstage
  have hfault : (machine env).step s (.fault index detail) =
      some (s.proceed index r (some (.check call))) := by
    change (s.requests[index]?).map _ = _
    rw [hr, map_some, hstage]
  have hrefused : ∀ store : ChangeSetStore, store.check env.parse env.isAlphanumeric call =
      .error (.invalidInput "materialization failure detail is invalid") := by
    intro store
    simp [ChangeSetStore.check, ChangeSetStore.checkInput, haction, require, hlong, bind,
      Except.bind]
  have hgone := @step_request T env _ _ _ (getElem?_proceed hr (.check call)) rfl ""
  simp only [World.advance, hrefused, refused, haction] at hgone
  refine (machine env).exec_cons_eq_some.2 ⟨_, hfault, (machine env).exec_cons_eq_some.2
    ⟨_, hgone, ?_⟩⟩
  simp [World.proceed, eraseIdx_set_eq, Machine.exec]

def sampleLongText : String := String.ofList (List.replicate 400 '가')

theorem isShort_sampleLongText : isShort 1000 (clipError sampleLongText) = false := by
  have hclip : clipError sampleLongText = String.ofList (List.replicate 400 '가') := by
    unfold clipError sampleLongText
    rw [String.toList_ofList, take_replicate, Nat.min_eq_right (by decide)]
  have hsize : (clipError sampleLongText).utf8ByteSize = 400 * 3 := by
    rw [hclip, String.utf8ByteSize_ofList, utf8Len_replicate]
    decide
  simp [isShort, hsize]

def sampleBegunRun : List Label :=
  sampleAccepted 7 (sampleCreateNote "Body") "head" ++ sampleSteps 4 ""

/-- The materialization fails with the long text, and the change set stays as it is for ever. -/
theorem stranded_by_long_text : ∃ s, (machine sampleEnv).exec sampleWorld
        (sampleBegunRun ++ [.fault 0 sampleLongText, .step 0 ""]) = some s ∧
      ¬ NoneStranded sampleEnv s := by
  have hrun : ((machine sampleEnv).exec sampleWorld sampleBegunRun).any (fun s =>
      s.requests.length = 1 && (s.requests[0]?).any (fun r => (faulted r "").isSome) &&
        s.store.changeSets.rows.any fun row =>
          row.status = .materializing && mayChange s.store.access ⟨1, 2⟩ row) := by decide +kernel
  obtain ⟨s, hs, htest⟩ := (Option.any_eq_true _ _).1 hrun
  simp only [Bool.and_eq_true, decide_eq_true_eq, List.any_eq_true, Option.any_eq_true] at htest
  obtain ⟨⟨hone, r, hr, hfaulted⟩, row, hrow, hstatus, hactor⟩ := htest
  have hfailure := @exec_long_failure _ sampleEnv _ _ sampleLongText _ hr
    ((isSome_faulted ..).trans hfaulted) isShort_sampleLongText
  have habandoned : Abandoned row { s with requests := s.requests.eraseIdx 0 } := by
    refine ⟨hrow, .inr hstatus, ?_⟩
    obtain ⟨r, hr⟩ := length_eq_one_iff.1 hone
    simp [hr]
  exact ⟨_, (machine sampleEnv).exec_append_eq_some.2 ⟨s, hs, hfailure⟩,
    habandoned.stranded (authorised_of_mayChange hactor)⟩

end Gadgetron.Jobs.Materialize
