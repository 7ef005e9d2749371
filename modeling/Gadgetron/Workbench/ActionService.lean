import Gadgetron.Approval.Store

/-!
# The workbench action service

The steps of `invoke` (admission, replay lookup, policy evaluation, dispatch or review request,
replay insertion), `resume_approval` and `approve_action`, each as the code computes it.
-/

namespace Gadgetron.Workbench

open Lib Policy Approval

structure GadgetError where
  (code message : String)

inductive WorkbenchHttpError
  | actionNotFound (actionId : String)
  | actionInvalidArgs (detail : String)
  | directActionsDisabled
  | approvalNotFound
  | approvalAlreadyResolved (state : String)
  | approvalForbidden
  | policyInvalidInput (detail : String)
  | policyDenied (detail : String)
  | policyUnavailable (detail : String)
  | policyBindingMismatch
  /-- `Core(GadgetronError::Config(..))`. -/
  | config (detail : String)
  /-- `Core(..)` of the error of the gadget. -/
  | gadget (error : GadgetError)

def policyErrorToHttp (error : PolicyEvaluationError) : WorkbenchHttpError :=
  if error.code = "policy_input_invalid" ∨ error.code = "policy_gadget_unknown" then
    .policyInvalidInput error.detail
  else .policyUnavailable error.detail

def approvalErrorToHttp : ApprovalError → WorkbenchHttpError
  | .notFound => .approvalNotFound
  | .alreadyResolved currentState => .approvalAlreadyResolved currentState.asStr
  | .crossTenant => .approvalForbidden
  | .backend detail => .config ("approval store error: " ++ detail)

structure InvokeWorkbenchActionRequest where
  args : Json
  clientInvocationId : Option Uuid

structure WorkbenchActionResult where
  status : String
  (approvalId activityEventId auditEventId : Option Uuid)
  refreshViewIds : List String
  knowledgeCandidates : List Json
  payload : Option Json

structure Invocation where
  actor : AuthenticatedContext
  scopes : List Scope
  actionId : String
  request : InvokeWorkbenchActionRequest

structure ReplayKey where
  tenantId : Uuid
  actionId : String
  clientInvocationId : Uuid
  deriving DecidableEq

abbrev ReplayCache := ReplayKey → Option WorkbenchActionResult

def Invocation.key (invocation : Invocation) : Option ReplayKey :=
  invocation.request.clientInvocationId.map fun clientInvocationId =>
    ⟨invocation.actor.tenantId, invocation.actionId, clientInvocationId⟩

def Invocation.context (invocation : Invocation) (requestId : Uuid) : GadgetDispatchContext :=
  dispatchContext invocation.actor invocation.scopes requestId

/-! ## Admission -/

structure DynamicAction where
  requiredScopes : List String
  descriptor : WorkbenchActionDescriptor

structure CatalogView where
  actions : List WorkbenchActionDescriptor
  allowDirectActions : Bool
  dynamicActions : String → Option DynamicAction
  /-- The first error of the JSON Schema of a catalog action. -/
  schemaError : String → Json → Option String
  /-- The first error of the JSON Schema of a dynamic action. -/
  dynamicSchemaError : WorkbenchActionDescriptor → Json → Option String

def scopesAllow (required : List String) (scopes : List Scope) : Bool :=
  required.all fun required => scopes.any fun scope => scope.asStr == required

/-- `DescriptorCatalog::find_action`. -/
def CatalogView.findStatic (view : CatalogView) (actionId : String) :
    Option WorkbenchActionDescriptor :=
  view.actions.find? fun action => action.id == actionId

/-- `DynamicWorkbenchSurface::find_action`. -/
def CatalogView.findDynamic (view : CatalogView) (scopes : List Scope) (actionId : String) :
    Option WorkbenchActionDescriptor :=
  ((view.dynamicActions actionId).filter fun action =>
    scopesAllow action.requiredScopes scopes).map DynamicAction.descriptor

def CatalogView.findAction (view : CatalogView) (scopes : List Scope) (actionId : String) :
    Option WorkbenchActionDescriptor :=
  (view.findStatic actionId).or (view.findDynamic scopes actionId)

/-- Steps 3 and 4 of `invoke`. -/
def checkDescriptor (view : CatalogView) (isStatic : Bool) (descriptor : WorkbenchActionDescriptor)
    (invocation : Invocation) : Except WorkbenchHttpError Unit :=
  if descriptor.requiredScope.any fun required => required ∉ invocation.scopes then
    .error (.actionNotFound invocation.actionId)
  else if !view.allowDirectActions && isStatic then .error .directActionsDisabled
  else
    match descriptor.disabledReason with
    | some reason =>
      if "Direct actions are disabled".toList <:+: reason.toList then .error .directActionsDisabled
      else .error (.config reason)
    | none =>
      match (if isStatic then view.schemaError invocation.actionId invocation.request.args
        else view.dynamicSchemaError descriptor invocation.request.args) with
      | some detail => .error (.actionInvalidArgs detail)
      | none => .ok ()

/-- Steps 2 to 4 of `invoke`: the descriptor of an admitted invocation. -/
def admission (view : CatalogView) (invocation : Invocation) :
    Except WorkbenchHttpError WorkbenchActionDescriptor :=
  match view.findAction invocation.scopes invocation.actionId with
  | none => .error (.actionNotFound invocation.actionId)
  | some descriptor =>
    match checkDescriptor view (view.findStatic invocation.actionId).isSome descriptor
      invocation with
    | .error error => .error error
    | .ok () => .ok descriptor

/-! ## Policy, review and dispatch -/

structure Service where
  primitives : Primitives
  (gadgetDispatcher approvalStore policyEvaluator : Bool)
  gadgetCatalog : Option GadgetCatalog

structure Environment where
  now : ℕ
  (requestId decisionEventId approvalId auditEventId : Uuid)
  dispatch : GadgetDispatchContext → String → Json → Except GadgetError Json
  captured : Option (Uuid × List Json)

inductive Effect
  | dispatched (context : GadgetDispatchContext) (gadgetName : String) (args : Json)
      (result : Except GadgetError Json)
  | created (request : ApprovalRequest)

/-- The policy evaluation of `invoke`, with the refusal of a denied action. -/
def authorise (service : Service) (database : PolicyDatabase) (env : Environment)
    (invocation : Invocation) (descriptor : WorkbenchActionDescriptor) :
    Except WorkbenchHttpError (Option PolicyEvaluation) :=
  if service.policyEvaluator then
    match evaluateWorkbenchAction service.primitives database env.decisionEventId
      service.gadgetCatalog
      (invocation.context (invocation.request.clientInvocationId.getD env.requestId)) descriptor
      invocation.request.args ⟨.workbenchAction, none, .pending⟩ with
    | .error error => .error (policyErrorToHttp error)
    | .ok evaluation =>
      if evaluation.authorization = .denied then .error (.policyDenied evaluation.trace.reason)
      else .ok (some evaluation)
  else .ok none

def needsApproval (descriptor : WorkbenchActionDescriptor) : Option PolicyEvaluation → Bool
  | none => descriptor.requiresApproval || descriptor.destructive
  | some evaluation => decide (evaluation.authorization = .pendingReview)

def reviewRequest (env : Environment) (invocation : Invocation)
    (descriptor : WorkbenchActionDescriptor) (evaluation : Option PolicyEvaluation) :
    ApprovalRequest :=
  let record := ApprovalRequest.newPending env.now env.approvalId invocation.actor
    invocation.actionId descriptor.gadgetName invocation.request.args
  match evaluation with
  | some evaluation => record.withPolicyBinding (approvalBinding evaluation)
  | none => record

def pendingResult (env : Environment) : WorkbenchActionResult where
  status := "pending_approval"
  approvalId := some env.approvalId
  activityEventId := none
  auditEventId := some env.auditEventId
  refreshViewIds := []
  knowledgeCandidates := []
  payload := none

def okResult (env : Environment) (payload : Option Json) : WorkbenchActionResult where
  status := "ok"
  approvalId := none
  activityEventId := env.captured.map Prod.fst
  auditEventId := some env.auditEventId
  refreshViewIds := []
  knowledgeCandidates := (env.captured.map Prod.snd).getD []
  payload := payload

def Service.gadgetOf (service : Service) (descriptor : WorkbenchActionDescriptor) : Option String :=
  if service.gadgetDispatcher then descriptor.gadgetName else none

def Invocation.authorisedContext (invocation : Invocation) (env : Environment) :
    GadgetDispatchContext :=
  { invocation.context (invocation.request.clientInvocationId.getD env.auditEventId) with
    policyAuthorized := true }

/-- Steps 6 and 7 of `invoke`: a review request or a dispatch. -/
def act (service : Service) (env : Environment) (invocation : Invocation)
    (descriptor : WorkbenchActionDescriptor) (evaluation : Option PolicyEvaluation)
    (approvals : ApprovalStore) :
    Except WorkbenchHttpError WorkbenchActionResult × ApprovalStore × List Effect :=
  if needsApproval descriptor evaluation then
    if service.approvalStore then
      let record := reviewRequest env invocation descriptor evaluation
      match approvals.create record with
      | .error error => (.error (.config ("approval store failure: " ++ error.toString)),
          approvals, [])
      | .ok approvals => (.ok (pendingResult env), approvals, [.created record])
    else (.ok (pendingResult env), approvals, [])
  else
    match service.gadgetOf descriptor with
    | none => (.ok (okResult env none), approvals, [])
    | some gadgetName =>
      let context := invocation.authorisedContext env
      let result := env.dispatch context gadgetName invocation.request.args
      let effects := [Effect.dispatched context gadgetName invocation.request.args result]
      match result with
      | .ok content => (.ok (okResult env (some content)), approvals, effects)
      | .error error => (.error (.gadget error), approvals, effects)

def ReplayCache.put (cache : ReplayCache) (key : Option ReplayKey)
    (response : WorkbenchActionResult) : ReplayCache :=
  match key with
  | some key => Function.update cache key (some response)
  | none => cache

/-- `invoke`: the response, the cache and the review requests after it, and what it did. -/
def invoke (service : Service) (view : CatalogView) (database : PolicyDatabase) (env : Environment)
    (cache : ReplayCache) (approvals : ApprovalStore) (invocation : Invocation) :
    Except WorkbenchHttpError WorkbenchActionResult × ReplayCache × ApprovalStore × List Effect :=
  match admission view invocation with
  | .error error => (.error error, cache, approvals, [])
  | .ok descriptor =>
    match invocation.key.bind cache with
    | some cached => (.ok cached, cache, approvals, [])
    | none =>
      match authorise service database env invocation descriptor with
      | .error error => (.error error, cache, approvals, [])
      | .ok evaluation =>
        match act service env invocation descriptor evaluation approvals with
        | (.error error, approvals, effects) => (.error error, cache, approvals, effects)
        | (.ok response, approvals, effects) =>
          (.ok response, cache.put invocation.key response, approvals, effects)

/-! ## Approval -/

structure Approver where
  actor : AuthenticatedContext
  scopes : List Scope

/-- The policy check of `resume_approval`: the input of the approver must have the bound hash. -/
def revalidate (service : Service) (database : PolicyDatabase) (env : Environment)
    (approver : Approver) (descriptor : WorkbenchActionDescriptor) (approval : ApprovalRequest) :
    Except WorkbenchHttpError Unit :=
  if service.policyEvaluator then
    match approval.policyBinding with
    | none => .error .policyBindingMismatch
    | some binding =>
      match evaluateWorkbenchAction service.primitives database env.decisionEventId
        service.gadgetCatalog (dispatchContext approver.actor approver.scopes approval.id)
          descriptor
        approval.args ⟨.reviewResume, some approval.id, .approved⟩ with
      | .error error => .error (policyErrorToHttp error)
      | .ok evaluation =>
        if evaluation.trace.inputHash ≠ binding.inputHash then .error .policyBindingMismatch
        else if evaluation.authorization = .denied then
          .error (.policyDenied evaluation.trace.reason)
        else .ok ()
  else .ok ()

def resumedResult (env : Environment) (approval : ApprovalRequest) (payload : Option Json) :
    WorkbenchActionResult where
  status := "ok"
  approvalId := some approval.id
  activityEventId := none
  auditEventId := some env.auditEventId
  refreshViewIds := []
  knowledgeCandidates := []
  payload := payload

def Approver.approvedContext (approver : Approver) (approvalId : Uuid) : GadgetDispatchContext :=
  { dispatchContext approver.actor approver.scopes approvalId with
    approvalGranted := true
    policyAuthorized := true }

/-- `resume_approval`: the response and what it did. -/
def resumeApproval (service : Service) (view : CatalogView) (database : PolicyDatabase)
    (env : Environment) (approver : Approver) (approval : ApprovalRequest) :
    Except WorkbenchHttpError WorkbenchActionResult × List Effect :=
  match view.findAction approver.scopes approval.actionId with
  | none => (.error (.actionNotFound approval.actionId), [])
  | some descriptor =>
    match revalidate service database env approver descriptor approval with
    | .error error => (.error error, [])
    | .ok () =>
      match service.gadgetOf descriptor with
      | none => (.ok (resumedResult env approval none), [])
      | some gadgetName =>
        let context := approver.approvedContext approval.id
        let result := env.dispatch context gadgetName approval.args
        let effects := [Effect.dispatched context gadgetName approval.args result]
        match result with
        | .ok content => (.ok (resumedResult env approval (some content)), effects)
        | .error error => (.error (.gadget error), effects)

def resolvedResult (approval : ApprovalRequest) : WorkbenchActionResult where
  status := "ok"
  approvalId := some approval.id
  activityEventId := none
  auditEventId := none
  refreshViewIds := []
  knowledgeCandidates := []
  payload := none

/-- `approve_action`: the response, the review requests after it, and what it did.  A request whose
action is not found belongs to an external caller. -/
def approveAction (service : Service) (view : CatalogView) (database : PolicyDatabase)
    (env : Environment) (approvals : ApprovalStore) (approver : Approver) (id : Uuid) :
    Except WorkbenchHttpError WorkbenchActionResult × ApprovalStore × List Effect :=
  if service.approvalStore then
    match approvals.markApproved env.now id approver.actor with
    | .error error => (.error (approvalErrorToHttp error), approvals, [])
    | .ok (approved, approvals) =>
      if approved.resumeStrategy = .waitingCaller then
        (.ok (resolvedResult approved), approvals, [])
      else
        match resumeApproval service view database env approver approved with
        | (.error (.actionNotFound _), effects) => (.ok (resolvedResult approved), approvals,
            effects)
        | (result, effects) => (result, approvals, effects)
  else (.error (.config "approval store is not wired in this build"), approvals, [])

/-! ## What acting can do -/

/-- The ways through steps 6 and 7 of `invoke`. -/
inductive ActsTo (service : Service) (env : Environment) (invocation : Invocation)
    (descriptor : WorkbenchActionDescriptor) (evaluation : Option PolicyEvaluation)
    (approvals : ApprovalStore) :
    Except WorkbenchHttpError WorkbenchActionResult → ApprovalStore → List Effect → Prop
  | requested (approvals' : ApprovalStore) (stored : service.approvalStore = true)
      (needed : needsApproval descriptor evaluation = true) :
      ActsTo service env invocation descriptor evaluation approvals (.ok (pendingResult env))
        approvals' [.created (reviewRequest env invocation descriptor evaluation)]
  | notStored (error : WorkbenchHttpError) :
      ActsTo service env invocation descriptor evaluation approvals (.error error) approvals []
  | silent (response : WorkbenchActionResult) (payload : response.payload = none) :
      ActsTo service env invocation descriptor evaluation approvals (.ok response) approvals []
  | dispatched (gadgetName : String) (content : Json)
      (gadget : service.gadgetOf descriptor = some gadgetName) :
      ActsTo service env invocation descriptor evaluation approvals
        (.ok (okResult env (some content))) approvals
        [.dispatched (invocation.authorisedContext env) gadgetName invocation.request.args
          (.ok content)]
  | failed (gadgetName : String) (error : GadgetError) :
      ActsTo service env invocation descriptor evaluation approvals (.error (.gadget error))
        approvals
        [.dispatched (invocation.authorisedContext env) gadgetName invocation.request.args
          (.error error)]

theorem actsTo_of_act {service : Service} {env : Environment} {invocation : Invocation}
    {descriptor : WorkbenchActionDescriptor} {evaluation : Option PolicyEvaluation}
    {approvals approvals' : ApprovalStore}
    {result : Except WorkbenchHttpError WorkbenchActionResult} {effects : List Effect}
    (h : act service env invocation descriptor evaluation approvals =
      (result, approvals', effects)) :
    ActsTo service env invocation descriptor evaluation approvals result approvals' effects := by
  unfold act at h
  split_ifs at h with hneeds hstore
  · dsimp only at h
    split at h
    · cases h
      exact .notStored _
    · cases h
      exact .requested _ hstore hneeds
  · cases h
    exact .silent _ rfl
  · split at h
    · cases h
      exact .silent _ rfl
    · rename_i gadgetName hgadget
      dsimp only at h
      split at h
      · rename_i content hresult
        cases h
        rw [hresult]
        exact .dispatched gadgetName content hgadget
      · rename_i error hresult
        cases h
        rw [hresult]
        exact .failed gadgetName error

end Gadgetron.Workbench
