import Gadgetron.Workbench.ActionService

/-!
# Approving a workbench action

An approver with the scopes of the requester has the gadget dispatched once with the stored
arguments, one with others has not, and whatever the approval returns, later approvals do nothing.
-/

namespace Gadgetron.Workbench

open Lib Policy Approval Option

/-- The lists have the same scopes. -/
def SameScopes (scopes scopes' : List Scope) : Prop := ∀ scope, scope ∈ scopes ↔ scope ∈ scopes'

variable {service : Service} {view : CatalogView} {database : PolicyDatabase}
  {env env' : Environment} {invocation : Invocation} {approver : Approver}
  {descriptor : WorkbenchActionDescriptor} {record : ApprovalRequest}

variable {scopes scopes' : List Scope}

theorem SameScopes.ofList_eq (h : SameScopes scopes scopes') :
    OrdSet.ofList (scopes.map Scope.asStr) = OrdSet.ofList (scopes'.map Scope.asStr) := by
  ext name
  simp only [OrdSet.mem_ofList, List.mem_map]
  constructor
  · rintro ⟨scope, hscope, hname⟩
    exact ⟨scope, (h scope).1 hscope, hname⟩
  · rintro ⟨scope, hscope, hname⟩
    exact ⟨scope, (h scope).2 hscope, hname⟩

theorem SameScopes.findAction_eq (h : SameScopes scopes scopes')
    (view : CatalogView) (actionId : String) :
    view.findAction scopes actionId = view.findAction scopes' actionId := by
  have hallow : ∀ required, scopesAllow required scopes = scopesAllow required scopes' := by
    intro required
    unfold scopesAllow
    congr 1
    funext name
    rw [Bool.eq_iff_iff, List.any_eq_true, List.any_eq_true]
    exact exists_congr fun scope => and_congr_left fun _ => h scope
  unfold CatalogView.findAction CatalogView.findDynamic
  simp only [hallow]

theorem SameScopes.of_ofList_eq
    (h : OrdSet.ofList (scopes.map Scope.asStr) = OrdSet.ofList (scopes'.map Scope.asStr)) :
    SameScopes scopes scopes' := by
  intro scope
  rw [← List.mem_map_of_injective Scope.asStr_injective, ← OrdSet.mem_ofList, h,
    OrdSet.mem_ofList, List.mem_map_of_injective Scope.asStr_injective]

/-- The catalog does not depend on the scopes, and a dynamic action is found or not. -/
theorem findAction_eq_of_some {actionId : String} {descriptor' : WorkbenchActionDescriptor}
    (h : view.findAction scopes actionId = some descriptor)
    (h' : view.findAction scopes' actionId = some descriptor') : descriptor' = descriptor := by
  unfold CatalogView.findAction CatalogView.findDynamic at h h'
  cases hstatic : view.findStatic actionId with
  | some found =>
    rw [hstatic, some_or] at h h'
    exact mem_unique h' h
  | none =>
    rw [hstatic, none_or, map_eq_some_iff] at h h'
    obtain ⟨action, haction, rfl⟩ := h
    obtain ⟨action', haction', rfl⟩ := h'
    rw [filter_eq_some_iff] at haction haction'
    obtain rfl := mem_unique haction.1 haction'.1
    rfl

/-! ## What an invocation creates -/

variable {evaluation : Option PolicyEvaluation} {approvals : ApprovalStore}

theorem act_created
    (h : .created record ∈ (act service env invocation descriptor evaluation approvals).2.2) :
    service.approvalStore = true ∧ needsApproval descriptor evaluation = true ∧
      record = reviewRequest env invocation descriptor evaluation := by
  rcases hact : act service env invocation descriptor evaluation approvals with
    ⟨result, approvals', effects⟩
  rw [hact] at h
  cases actsTo_of_act hact with
  | requested _ hstore hneeds =>
    rcases List.mem_singleton.1 h with ⟨⟩
    exact ⟨hstore, hneeds, rfl⟩
  | notStored | silent => cases h
  | dispatched | failed => cases List.mem_singleton.1 h

theorem invoke_created {cache : ReplayCache}
    (h : .created record ∈ (invoke service view database env cache approvals invocation).2.2.2) :
    ∃ descriptor evaluation, service.approvalStore = true ∧
      view.findAction invocation.scopes invocation.actionId = some descriptor ∧
      authorise service database env invocation descriptor = .ok evaluation ∧
      needsApproval descriptor evaluation = true ∧
      record = reviewRequest env invocation descriptor evaluation := by
  unfold invoke at h
  split at h
  · cases h
  · rename_i descriptor hadmit
    have hfind : view.findAction invocation.scopes invocation.actionId = some descriptor := by
      unfold admission at hadmit
      split at hadmit
      · cases hadmit
      · rename_i found hfound
        split at hadmit
        · cases hadmit
        · cases hadmit
          exact hfound
    split at h
    · cases h
    · split at h
      · cases h
      · rename_i evaluation hauthorise
        have hmem : .created record ∈
            (act service env invocation descriptor evaluation approvals).2.2 := by
          split at h
          all_goals
            rename_i hact
            rw [hact]
            exact h
        obtain ⟨hstore, hneeds, hrecord⟩ := act_created hmem
        exact ⟨descriptor, evaluation, hstore, hfind, hauthorise, hneeds, hrecord⟩

/-! ## What an approval does -/

theorem reviewRequest_fields (env : Environment) (invocation : Invocation)
    (descriptor : WorkbenchActionDescriptor) (evaluation : Option PolicyEvaluation) :
    (reviewRequest env invocation descriptor evaluation).state = .pending ∧
      (reviewRequest env invocation descriptor evaluation).tenantId = invocation.actor.tenantId ∧
      (reviewRequest env invocation descriptor evaluation).actionId = invocation.actionId ∧
      (reviewRequest env invocation descriptor evaluation).args = invocation.request.args ∧
      (reviewRequest env invocation descriptor evaluation).gadgetName = descriptor.gadgetName ∧
      (reviewRequest env invocation descriptor evaluation).resumeStrategy = .workbenchAction ∧
      (reviewRequest env invocation descriptor evaluation).policyBinding =
        evaluation.map approvalBinding := by
  cases evaluation with
  | none | some => exact ⟨rfl, rfl, rfl, rfl, rfl, rfl, rfl⟩

theorem authorise_evaluated (hpolicy : service.policyEvaluator = true)
    (h : authorise service database env invocation descriptor = .ok evaluation) :
    ∃ first, evaluation = some first ∧
      evaluateWorkbenchAction service.primitives database env.decisionEventId
        service.gadgetCatalog
        (invocation.context (invocation.request.clientInvocationId.getD env.requestId)) descriptor
        invocation.request.args ⟨.workbenchAction, none, .pending⟩ = .ok first := by
  unfold authorise at h
  rw [if_pos hpolicy] at h
  split at h
  · cases h
  · rename_i first hfirst
    split_ifs at h
    exact ⟨first, (Except.ok.inj h).symm, hfirst⟩

variable {approved : ApprovalRequest}

theorem revalidate_eq_ok (env' : Environment)
    (hauthorise : authorise service database env invocation descriptor = .ok evaluation)
    (hneeds : needsApproval descriptor evaluation = true)
    (hargs : approved.args = invocation.request.args)
    (hbinding : approved.policyBinding = evaluation.map approvalBinding)
    (htenant : approver.actor.tenantId = invocation.actor.tenantId)
    (hscopes : service.policyEvaluator = true → SameScopes approver.scopes invocation.scopes) :
    revalidate service database env' approver descriptor approved = .ok () := by
  unfold revalidate
  cases hpolicy : service.policyEvaluator with
  | false => rfl
  | true =>
    obtain ⟨first, rfl, hfirst⟩ := authorise_evaluated hpolicy hauthorise
    have hpending : first.authorization = .pendingReview := of_decide_eq_true hneeds
    have hdecision : first.trace.decision = .review := authorizationFor_eq_pendingReview
      ((evaluateWorkbenchAction_authorization hfirst).symm.trans hpending)
    have hsecond := evaluateWorkbenchAction_approved hfirst
      (dispatchContext approver.actor approver.scopes approved.id) htenant
      (hscopes hpolicy).ofList_eq .reviewResume approved.id env'.decisionEventId
    rw [hdecision] at hsecond
    rw [if_pos rfl, hbinding, hargs]
    dsimp only [map_some]
    rw [hsecond]
    simp [approvalBinding, authorizationFor]

/-- The digest does not take the inputs of callers with these scopes for one another. -/
def Service.TellsApart (service : Service) (scopes scopes' : List Scope) (args : Json) : Prop :=
  ∀ descriptor input input',
    actionInput service.primitives service.gadgetCatalog (scopes.map Scope.asStr) descriptor args =
      .ok input →
    actionInput service.primitives service.gadgetCatalog (scopes'.map Scope.asStr) descriptor args =
      .ok input' →
    service.primitives.digestInput input = service.primitives.digestInput input' → input = input'

theorem sameScopes_of_revalidate (hpolicy : service.policyEvaluator = true)
    (hauthorise : authorise service database env invocation descriptor = .ok evaluation)
    (hargs : approved.args = invocation.request.args)
    (hbinding : approved.policyBinding = evaluation.map approvalBinding)
    (hdigest : service.TellsApart approver.scopes invocation.scopes invocation.request.args)
    (h : revalidate service database env' approver descriptor approved = .ok ()) :
    SameScopes approver.scopes invocation.scopes := by
  obtain ⟨first, rfl, hfirst⟩ := authorise_evaluated hpolicy hauthorise
  obtain ⟨input, hinput, hhash⟩ := evaluateWorkbenchAction_inputHash hfirst
  unfold revalidate at h
  rw [if_pos hpolicy, hbinding, hargs] at h
  dsimp only [map_some] at h
  split at h
  · cases h
  · rename_i second hsecond
    obtain ⟨input', hinput', hhash'⟩ := evaluateWorkbenchAction_inputHash hsecond
    split_ifs at h with hbound
    have hequal : second.trace.inputHash = first.trace.inputHash := not_not.1 hbound
    obtain rfl : input' = input :=
      hdigest descriptor input' input hinput' hinput (hhash'.symm.trans (hequal.trans hhash))
    exact SameScopes.of_ofList_eq
      ((actionInput_actorScopes hinput').symm.trans (actionInput_actorScopes hinput))

def resumedResponse (env : Environment) (approval : ApprovalRequest) :
    Except GadgetError Json → Except WorkbenchHttpError WorkbenchActionResult
  | .ok content => .ok (resumedResult env approval (some content))
  | .error error => .error (.gadget error)

theorem resumedResponse_ne (env : Environment) (approval : ApprovalRequest)
    (result : Except GadgetError Json) (actionId : String) :
    resumedResponse env approval result ≠ .error (.actionNotFound actionId) := by
  cases result with
  | ok | error => exact nofun

theorem resumeApproval_eq {gadgetName : String}
    (hfind : view.findAction approver.scopes approved.actionId = some descriptor)
    (hcheck : revalidate service database env approver descriptor approved = .ok ())
    (hgadget : service.gadgetOf descriptor = some gadgetName) :
    resumeApproval service view database env approver approved = (resumedResponse env approved
          (env.dispatch (approver.approvedContext approved.id) gadgetName approved.args),
        [.dispatched (approver.approvedContext approved.id) gadgetName approved.args
          (env.dispatch (approver.approvedContext approved.id) gadgetName approved.args)]) := by
  unfold resumeApproval
  simp only [hfind, hcheck, hgadget]
  split
  · rename_i content hresult
    rw [hresult]
    rfl
  · rename_i error hresult
    rw [hresult]
    rfl

theorem resumeApproval_effects
    (h : (resumeApproval service view database env approver approved).2 ≠ []) :
    ∃ descriptor, view.findAction approver.scopes approved.actionId = some descriptor ∧
      revalidate service database env approver descriptor approved = .ok () := by
  unfold resumeApproval at h
  split at h
  · exact absurd rfl h
  · rename_i descriptor hfind
    split at h
    · exact absurd rfl h
    · rename_i hcheck
      exact ⟨descriptor, hfind, hcheck⟩

section

variable {store : ApprovalStore} {id : Uuid}

theorem approveAction_pending (view : CatalogView) (database : PolicyDatabase) (env : Environment)
    (hservice : service.approvalStore = true)
    (hrecord : store id = some record) (hstate : record.state = .pending)
    (htenant : record.tenantId = approver.actor.tenantId) :
    (approveAction service view database env store approver id).2.1 =
        Function.update store id (some (ApprovalStore.approvedBy env.now approver.actor record)) ∧
      (record.resumeStrategy = .workbenchAction → ∀ result effects,
        resumeApproval service view database env approver
          (ApprovalStore.approvedBy env.now approver.actor record) = (result, effects) →
        (approveAction service view database env store approver id).2.2 = effects ∧
        ((∀ actionId, result ≠ .error (.actionNotFound actionId)) →
          (approveAction service view database env store approver id).1 = result)) := by
  have hmark : ApprovalStore.markApproved env.now store id approver.actor =
      .ok (ApprovalStore.approvedBy env.now approver.actor record,
        Function.update store id (some (ApprovalStore.approvedBy env.now approver.actor record))) :=
    ApprovalStore.resolveWith_eq_ok.2 ⟨record, hrecord, htenant, hstate, rfl, rfl⟩
  unfold approveAction
  rw [if_pos hservice, hmark]
  dsimp only
  split_ifs with hstrategy
  · refine ⟨rfl, fun hworkbench => ?_⟩
    have hwaiting : record.resumeStrategy = .waitingCaller := hstrategy
    rw [hworkbench] at hwaiting
    cases hwaiting
  · constructor
    · split
      · rfl
      · rfl
    · rintro - result effects hresume
      rw [hresume]
      split
      · rename_i actionId effects' heq
        cases heq
        exact ⟨rfl, fun hfound => absurd rfl (hfound actionId)⟩
      · rename_i heq
        cases heq
        exact ⟨rfl, fun _ => rfl⟩

theorem approveAction_approved (hrecord : store id = some record)
    (hstate : record.state = .approved) :
    ∃ error, approveAction service view database env store approver id = (.error error, store, []) ∧
      (service.approvalStore = true → record.tenantId = approver.actor.tenantId →
        error = .approvalAlreadyResolved "approved") := by
  unfold approveAction
  split_ifs with hservice
  · by_cases htenant : record.tenantId = approver.actor.tenantId
    · have hmark : ApprovalStore.markApproved env.now store id approver.actor =
          .error (.alreadyResolved .approved) := by
        simp [ApprovalStore.markApproved, ApprovalStore.resolveWith, hrecord, htenant, hstate]
      rw [hmark]
      exact ⟨_, rfl, fun _ _ => rfl⟩
    · have hmark : ApprovalStore.markApproved env.now store id approver.actor =
          .error .crossTenant := by
        simp [ApprovalStore.markApproved, ApprovalStore.resolveWith, hrecord, htenant]
      rw [hmark]
      exact ⟨_, rfl, fun _ h => absurd h htenant⟩
  · exact ⟨_, rfl, fun h => absurd h hservice⟩

end

/-- The approval dispatches the gadget once, with the stored arguments, and returns what comes of
it. -/
def Executes (service : Service) (view : CatalogView) (database : PolicyDatabase)
    (env : Environment) (approvals : ApprovalStore) (approver : Approver) (record : ApprovalRequest)
    (gadgetName : String) (args : Json) : Prop :=
  ∃ result, result = env.dispatch (approver.approvedContext record.id) gadgetName args ∧
    (approveAction service view database env approvals approver record.id).1 =
      resumedResponse env (ApprovalStore.approvedBy env.now approver.actor record) result ∧
    (approveAction service view database env approvals approver record.id).2.2 =
      [.dispatched (approver.approvedContext record.id) gadgetName args result]

/-- The approver has the scopes of the requester, or no policy is evaluated and the action is there
for the approver too. -/
def Fits (service : Service) (view : CatalogView) (approver : Approver) (invocation : Invocation) :
    Prop :=
  SameScopes approver.scopes invocation.scopes ∨ service.policyEvaluator = false ∧
    view.findAction approver.scopes invocation.actionId =
      view.findAction invocation.scopes invocation.actionId

/-- The approval of a request that an invocation has created executes it just when the approver
fits, and the request is approved for good in any case. -/
theorem approved_action_dispatched (service : Service) (view : CatalogView)
    (database : PolicyDatabase) (env env' : Environment) (cache : ReplayCache)
    (approvals later : ApprovalStore) (invocation : Invocation) (approver : Approver)
    (record : ApprovalRequest)
    (hcreated : .created record ∈
      (invoke service view database env cache approvals invocation).2.2.2)
    (hlater : later record.id = some record)
    (htenant : approver.actor.tenantId = invocation.actor.tenantId) :
    (∀ gadgetName, record.gadgetName = some gadgetName → service.gadgetDispatcher = true →
      (Fits service view approver invocation →
        Executes service view database env' later approver record gadgetName
          invocation.request.args) ∧
      (service.TellsApart approver.scopes invocation.scopes invocation.request.args →
        Executes service view database env' later approver record gadgetName
          invocation.request.args →
        Fits service view approver invocation)) ∧ ∃ approved,
        (approveAction service view database env' later approver record.id).2.1 =
          Function.update later record.id (some approved) ∧ approved.state = .approved ∧
        ∀ (service' : Service) (view' : CatalogView) (database' : PolicyDatabase)
          (env₂ : Environment) (store : ApprovalStore) (approver' : Approver),
          store record.id = some approved →
          ∃ error, approveAction service' view' database' env₂ store approver' record.id =
              (.error error, store, []) ∧
            (service'.approvalStore = true → approved.tenantId = approver'.actor.tenantId →
              error = .approvalAlreadyResolved "approved") := by
  obtain ⟨descriptor, evaluation, hservice, hfind, hauthorise, hneeds, hrecord⟩ :=
    invoke_created hcreated
  obtain ⟨hstate, hrtenant, haction, hargs, hgadgetName, hstrategy, hbinding⟩ :=
    reviewRequest_fields env invocation descriptor evaluation
  rw [← hrecord] at hstate hrtenant haction hargs hgadgetName hstrategy hbinding
  obtain ⟨hstore, hresumes⟩ := approveAction_pending view database env' hservice hlater hstate
    (hrtenant.trans htenant.symm)
  have hargs' : (ApprovalStore.approvedBy env'.now approver.actor record).args =
      invocation.request.args := hargs
  have haction' : (ApprovalStore.approvedBy env'.now approver.actor record).actionId =
      invocation.actionId := haction
  refine ⟨fun gadgetName hgadget hdispatcher => ⟨fun hfits => ?_, fun hdigest hexec => ?_⟩, _,
    hstore, rfl, ?_⟩
  · have hfind' : view.findAction approver.scopes invocation.actionId = some descriptor := by
      rcases hfits with hsame | ⟨-, hfound⟩
      · rw [hsame.findAction_eq, hfind]
      · rw [hfound, hfind]
    have hsame : service.policyEvaluator = true → SameScopes approver.scopes invocation.scopes := by
      intro hpolicy
      rcases hfits with hsame | ⟨hnone, -⟩
      · exact hsame
      · rw [hpolicy] at hnone
        cases hnone
    have hof : service.gadgetOf descriptor = some gadgetName := by
      unfold Service.gadgetOf
      rw [if_pos hdispatcher, ← hgadgetName, hgadget]
    have hresume := resumeApproval_eq (haction' ▸ hfind')
      (revalidate_eq_ok env' hauthorise hneeds hargs' hbinding htenant hsame) hof
    rw [hargs'] at hresume
    obtain ⟨heffects, hresult⟩ := hresumes hstrategy _ _ hresume
    exact ⟨_, rfl, hresult (resumedResponse_ne _ _ _), heffects⟩
  · obtain ⟨result, -, -, heffects⟩ := hexec
    have hresumed : (resumeApproval service view database env' approver
        (ApprovalStore.approvedBy env'.now approver.actor record)).2 ≠ [] := by
      rw [← (hresumes hstrategy _ _ Prod.mk.eta.symm).1, heffects]
      exact List.cons_ne_nil _ _
    obtain ⟨descriptor', hfind', hcheck⟩ := resumeApproval_effects hresumed
    rw [haction'] at hfind'
    obtain rfl := findAction_eq_of_some hfind hfind'
    cases hpolicy : service.policyEvaluator with
    | false => exact .inr ⟨hpolicy, hfind'.trans hfind.symm⟩
    | true =>
      exact .inl (sameScopes_of_revalidate hpolicy hauthorise hargs' hbinding hdigest hcheck)
  · intro service' view' database' env₂ store approver' happroved
    exact approveAction_approved happroved rfl

/-! ## Two approvers of one request -/

section

/-- Digests that tell the inputs of callers with one scope from those of others. -/
def scopedPrimitives : Primitives :=
  { samplePrimitives with
    digestInput := fun input =>
      if input.actorScopes.length = 1 then
        "sha256:1111111111111111111111111111111111111111111111111111111111111111"
      else "sha256:3333333333333333333333333333333333333333333333333333333333333333" }

def sampleMetadata : GadgetPolicyMetadata where
  effect := .destructive
  risk := .high
  requestedScopes := OrdSet.empty
  requiresEvidence := false
  outcomeVerifiable := false
  outcomeRef := none
  rollbackAvailable := false
  rollbackRef := none

def sampleService : Service where
  primitives := scopedPrimitives
  gadgetDispatcher := true
  approvalStore := true
  policyEvaluator := true
  gadgetCatalog := some fun _ => some sampleMetadata

def sampleDescriptor : WorkbenchActionDescriptor where
  id := "page-delete"
  ownerBundle := "wiki"
  gadgetName := some "wiki.delete"
  destructive := true
  requiresApproval := false
  requiredScope := none
  disabledReason := none

def sampleView : CatalogView where
  actions := [sampleDescriptor]
  allowDirectActions := true
  dynamicActions _ := none
  schemaError _ _ := none
  dynamicSchemaError _ _ := none

def sampleEnvironment : Environment where
  now := 0
  requestId := 1
  decisionEventId := 2
  approvalId := 3
  auditEventId := 4
  dispatch _ _ _ := .ok (.string "deleted")
  captured := none

def sampleInvocation : Invocation where
  actor := ⟨10, 1, some 11⟩
  scopes := [.openAiCompat]
  actionId := "page-delete"
  request := ⟨.object [("page", .string "home")], none⟩

def sampleReview : ApprovalRequest :=
  reviewRequest sampleEnvironment sampleInvocation sampleDescriptor
    ((authorise sampleService samplePolicyDatabase sampleEnvironment sampleInvocation
      sampleDescriptor).toOption.join)

def sampleReviews : ApprovalStore := Function.update (fun _ => none) 3 (some sampleReview)

def sampleManager : Approver := ⟨⟨20, 1, some 21⟩, [.openAiCompat, .management]⟩

def samplePeer : Approver := ⟨⟨30, 1, some 31⟩, [.openAiCompat]⟩

theorem sampleInvocation_created :
    .created sampleReview ∈ (invoke sampleService sampleView samplePolicyDatabase sampleEnvironment
      (fun _ => none) (fun _ => none) sampleInvocation).2.2.2 :=
  List.mem_singleton_self _

/-- The policy does not deny the manager, and yet the approval runs nothing and cannot be
repeated. -/
theorem approver_with_more_scopes :
    .created sampleReview ∈ (invoke sampleService sampleView samplePolicyDatabase sampleEnvironment
        (fun _ => none) (fun _ => none) sampleInvocation).2.2.2 ∧
      (∃ evaluation, authorise sampleService samplePolicyDatabase sampleEnvironment
        { sampleInvocation with actor := sampleManager.actor, scopes := sampleManager.scopes }
        sampleDescriptor = .ok (some evaluation)) ∧
      ∃ store, approveAction sampleService sampleView samplePolicyDatabase sampleEnvironment
          sampleReviews sampleManager 3 = (.error .policyBindingMismatch, store, []) ∧
        approveAction sampleService sampleView samplePolicyDatabase sampleEnvironment store
          samplePeer 3 = (.error (.approvalAlreadyResolved "approved"), store, []) := by
  refine ⟨sampleInvocation_created, ⟨_, rfl⟩, _, rfl, rfl⟩

theorem approver_with_same_scopes :
    (approveAction sampleService sampleView samplePolicyDatabase sampleEnvironment sampleReviews
        samplePeer 3).2.2 =
      [.dispatched (samplePeer.approvedContext 3) "wiki.delete" (.object [("page", .string "home")])
        (.ok (.string "deleted"))] := by
  obtain ⟨result, rfl, -, heffects⟩ := ((approved_action_dispatched sampleService sampleView
    samplePolicyDatabase sampleEnvironment sampleEnvironment (fun _ => none) (fun _ => none)
    sampleReviews sampleInvocation samplePeer sampleReview sampleInvocation_created rfl rfl).1
    "wiki.delete" rfl rfl).1 (Or.inl fun _ => Iff.rfl)
  exact heffects

end

end Gadgetron.Workbench
