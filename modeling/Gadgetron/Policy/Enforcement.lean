import Gadgetron.Policy.Document

/-!
# Enforcement of a policy

An action is submitted to the active policy of its tenant, the decision is combined with the state
of the review, and the event is recorded.
-/

namespace Gadgetron.Policy

open Lib

inductive EnforcementPath
  | tool
  | workbenchAction
  | reviewResume
  | bundleBackground
  | knowledgeBackground

inductive PolicyReviewState
  | none
  | pending
  | approved
  deriving DecidableEq

inductive PolicyAuthorization
  | auto
  | denied
  | pendingReview
  | approvedReview
  deriving DecidableEq

structure PolicyEvaluationError where
  (code detail : String)

structure PolicyEvaluationRequest where
  tenantId : Uuid
  path : EnforcementPath
  input : PolicyInput
  pinnedPolicy : Option PolicyIdentity
  approvalId : Option Uuid
  reviewState : PolicyReviewState

structure PolicyEvaluation where
  eventId : Uuid
  trace : PolicyDecisionTrace
  authorization : PolicyAuthorization
  deriving DecidableEq

def PolicyEvaluation.allowsExecution (evaluation : PolicyEvaluation) : Bool :=
  match evaluation.authorization with
  | .auto | .approvedReview => true
  | .denied | .pendingReview => false

structure PolicyRevision where
  identity : PolicyIdentity
  document : PolicyDocument

structure PolicyDatabase where
  /-- The active revision of a tenant. -/
  active : Uuid → Except PolicyEvaluationError PolicyRevision
  /-- The stored revision of a tenant with a policy id and a number. -/
  revision : Uuid → Uuid → ℤ → Except PolicyEvaluationError PolicyRevision
  /-- The answer to the insertion of a decision event. -/
  insert : Except PolicyEvaluationError Unit

/-! ## The evaluator -/

def authorizationFor (decision : PolicyDecision) (reviewState : PolicyReviewState) :
    PolicyAuthorization :=
  match decision with
  | .auto => .auto
  | .deny => .denied
  | .review => if reviewState = .approved then .approvedReview else .pendingReview

def inputInvalid (error : PolicyError) : PolicyEvaluationError :=
  ⟨"policy_input_invalid", error.toString⟩

def orInputInvalid {α : Type} (result : Except PolicyError α) : Except PolicyEvaluationError α :=
  result.mapError inputInvalid

def authorizationMatches (decision : PolicyDecision) (authorization : PolicyAuthorization) : Bool :=
  match decision, authorization with
  | .auto, .auto | .deny, .denied | .review, .pendingReview | .review, .approvedReview => true
  | _, _ => false

section

variable (P : Primitives)

/-- `record_decision`: the trace must be the one that the stored revision gives. -/
def recordDecision (database : PolicyDatabase) (request : PolicyEvaluationRequest)
    (trace : PolicyDecisionTrace) (authorization : PolicyAuthorization) :
    Except PolicyEvaluationError Unit := do
  let revision ← database.revision request.tenantId trace.policy.policyId trace.policy.revision
  let expected ← orInputInvalid (revision.document.evaluate P revision.identity request.input)
  let inputHash ← orInputInvalid (request.input.digestWith P.digestInput)
  if expected ≠ trace ∨ trace.inputHash ≠ inputHash ∨
      authorizationMatches trace.decision authorization = false ∨
      authorization = .approvedReview ∧ request.approvalId = none then
    .error ⟨"policy_trace_mismatch",
      "policy decision trace does not match the stored revision and input"⟩
  else database.insert

def requestRevision (database : PolicyDatabase) (request : PolicyEvaluationRequest) :
    Except PolicyEvaluationError PolicyRevision :=
  match request.pinnedPolicy with
  | some identity => do
    let revision ← database.revision request.tenantId identity.policyId identity.revision
    if revision.identity ≠ identity then
      .error ⟨"policy_revision_mismatch",
        "Pinned policy identity no longer matches immutable storage"⟩
    else return revision
  | none => database.active request.tenantId

/-- `PgPolicyEvaluator::evaluate`; `eventId` is the fresh id of the event. -/
def evaluate (database : PolicyDatabase) (eventId : Uuid) (request : PolicyEvaluationRequest) :
    Except PolicyEvaluationError PolicyEvaluation := do
  let revision ← requestRevision database request
  let trace ← orInputInvalid (revision.document.evaluate P revision.identity request.input)
  let authorization := authorizationFor trace.decision request.reviewState
  recordDecision P database request trace authorization
  return ⟨eventId, trace, authorization⟩

end

/-! ## Gadget calls and workbench actions -/

structure GadgetDispatchContext where
  (tenantId actorId requestId : Uuid)
  scopes : List String
  (approvalGranted policyAuthorized : Bool)

def dispatchContext (actor : AuthenticatedContext) (scopes : List Scope) (requestId : Uuid) :
    GadgetDispatchContext where
  tenantId := actor.tenantId
  actorId := actor.userId
  requestId := requestId
  scopes := scopes.map Scope.asStr
  approvalGranted := false
  policyAuthorized := false

structure WorkbenchActionDescriptor where
  (id ownerBundle : String)
  gadgetName : Option String
  (destructive requiresApproval : Bool)
  requiredScope : Option Scope
  disabledReason : Option String

abbrev GadgetCatalog := String → Option GadgetPolicyMetadata

structure PolicyStage where
  path : EnforcementPath
  approvalId : Option Uuid
  reviewState : PolicyReviewState

section

variable (P : Primitives)

def publishedMetadata (catalog : GadgetCatalog) (name : String) :
    Except PolicyEvaluationError GadgetPolicyMetadata :=
  match catalog name with
  | some metadata => .ok metadata
  | none => .error ⟨"policy_gadget_unknown",
      "No policy metadata is published for Gadget " ++ P.debug name⟩

/-- `evaluate_gadget`, with no pinned policy. -/
def evaluateGadget (database : PolicyDatabase) (eventId : Uuid) (catalog : GadgetCatalog)
    (context : GadgetDispatchContext) (tenantId : Uuid) (name : String) (args : Json)
    (stage : PolicyStage) : Except PolicyEvaluationError PolicyEvaluation := do
  let metadata ← publishedMetadata P catalog name
  let input ← orInputInvalid (PolicyInput.forGadget context.scopes name metadata)
  let input ← orInputInvalid (input.withParameters P.digestJson args)
  evaluate P database eventId
    ⟨tenantId, stage.path, input, none, stage.approvalId, stage.reviewState⟩

def defaultMetadata (destructive : Bool) : GadgetPolicyMetadata where
  effect := if destructive then .destructive else .write
  risk := if destructive then .critical else .medium
  requestedScopes := OrdSet.empty
  requiresEvidence := true
  outcomeVerifiable := false
  outcomeRef := none
  rollbackAvailable := false
  rollbackRef := none

def actionMetadata (catalog : Option GadgetCatalog) (descriptor : WorkbenchActionDescriptor) :
    GadgetPolicyMetadata :=
  let metadata := (descriptor.gadgetName.bind fun name => catalog.bind fun catalog =>
    catalog name).getD (defaultMetadata descriptor.destructive)
  match descriptor.requiredScope with
  | some scope => { metadata with requestedScopes := metadata.requestedScopes.insert scope.asStr }
  | none => metadata

def actionInput (catalog : Option GadgetCatalog) (scopes : List String)
    (descriptor : WorkbenchActionDescriptor) (args : Json) :
    Except PolicyEvaluationError PolicyInput := do
  let name := descriptor.gadgetName.getD descriptor.id
  let input ← orInputInvalid (PolicyInput.forGadget scopes name (actionMetadata catalog descriptor))
  let input ← orInputInvalid (input.withParameters P.digestJson args)
  let input := { input with
    actionId := descriptor.id
    nameSpace := if descriptor.gadgetName = none then descriptor.ownerBundle else input.nameSpace }
  orInputInvalid input.validate
  return input

def evaluateWorkbenchAction (database : PolicyDatabase) (eventId : Uuid)
    (catalog : Option GadgetCatalog) (context : GadgetDispatchContext)
    (descriptor : WorkbenchActionDescriptor) (args : Json) (stage : PolicyStage) :
    Except PolicyEvaluationError PolicyEvaluation := do
  let input ← actionInput P catalog context.scopes descriptor args
  evaluate P database eventId
    ⟨context.tenantId, stage.path, input, none, stage.approvalId, stage.reviewState⟩

end

/-! ## What an evaluation yields -/

section

variable {P : Primitives} {database : PolicyDatabase} {eventId : Uuid}

theorem orInputInvalid_eq_ok {α : Type} {result : Except PolicyError α} {a : α} :
    orInputInvalid result = .ok a ↔ result = .ok a := by
  cases result with
  | error | ok => simp [orInputInvalid, Except.mapError]

theorem authorizationFor_matches (decision : PolicyDecision) (reviewState : PolicyReviewState) :
    authorizationMatches decision (authorizationFor decision reviewState) = true := by
  cases decision with
  | auto | deny => rfl
  | review => cases reviewState <;> rfl

variable {reviewState : PolicyReviewState} {decision : PolicyDecision}

theorem authorizationFor_eq_denied :
    authorizationFor decision reviewState = .denied ↔ decision = .deny := by
  cases decision with
  | auto | deny => simp [authorizationFor]
  | review => cases reviewState <;> simp [authorizationFor]

theorem authorizationFor_eq_pendingReview
    (h : authorizationFor decision reviewState = .pendingReview) :
    decision = .review := by
  cases decision with
  | auto | deny => cases h
  | review => rfl

variable {evaluation : PolicyEvaluation} {request : PolicyEvaluationRequest}

theorem evaluate_eq_ok : evaluate P database eventId request = .ok evaluation ↔
      ∃ revision trace, requestRevision database request = .ok revision ∧
        revision.document.evaluate P revision.identity request.input = .ok trace ∧
        recordDecision P database request trace
          (authorizationFor trace.decision request.reviewState) = .ok () ∧
        evaluation = ⟨eventId, trace, authorizationFor trace.decision request.reviewState⟩ := by
  unfold evaluate
  simp only [bind_eq_ok, orInputInvalid_eq_ok]
  constructor
  · rintro ⟨revision, hrevision, trace, htrace, _, hrecord, heq⟩
    cases heq
    exact ⟨revision, trace, hrevision, htrace, hrecord, rfl⟩
  · rintro ⟨revision, trace, hrevision, htrace, hrecord, rfl⟩
    exact ⟨revision, hrevision, trace, htrace, (), hrecord, rfl⟩

theorem evaluate_authorization (h : evaluate P database eventId request = .ok evaluation) :
    evaluation.authorization = authorizationFor evaluation.trace.decision request.reviewState := by
  obtain ⟨revision, trace, -, -, -, rfl⟩ := evaluate_eq_ok.1 h
  rfl

theorem recordDecision_approved {trace : PolicyDecisionTrace}
    {authorization : PolicyAuthorization} (path : EnforcementPath) (approvalId : Uuid)
    (h : recordDecision P database request trace authorization = .ok ()) : recordDecision P database
      { request with path, approvalId := some approvalId, reviewState := .approved } trace
      (authorizationFor trace.decision .approved) = .ok () := by
  unfold recordDecision at h ⊢
  simp only [bind_eq_ok, orInputInvalid_eq_ok] at h ⊢
  obtain ⟨revision, hrevision, expected, hexpected, inputHash, hhash, h⟩ := h
  refine ⟨revision, hrevision, expected, hexpected, inputHash, hhash, ?_⟩
  split at h
  · cases h
  · rename_i hok
    push Not at hok
    rw [if_neg]
    · exact h
    · simp [authorizationFor_matches, hok.1, hok.2.1]

variable {first : PolicyEvaluation}

theorem evaluate_approved (path : EnforcementPath) (approvalId resumeEventId : Uuid)
    (h : evaluate P database eventId request = .ok first) : evaluate P database resumeEventId
        { request with path, approvalId := some approvalId, reviewState := .approved } =
      .ok ⟨resumeEventId, first.trace, authorizationFor first.trace.decision .approved⟩ := by
  obtain ⟨revision, trace, hrevision, htrace, hrecord, rfl⟩ := evaluate_eq_ok.1 h
  exact evaluate_eq_ok.2 ⟨revision, trace, hrevision, htrace,
    recordDecision_approved path approvalId hrecord, rfl⟩

variable {context : GadgetDispatchContext} {stage : PolicyStage} {args : Json}

theorem evaluateGadget_approved {catalog : GadgetCatalog} {tenantId : Uuid} {name : String}
    (path : EnforcementPath) (approvalId resumeEventId : Uuid)
    (h : evaluateGadget P database eventId catalog context tenantId name args stage = .ok first) :
    evaluateGadget P database resumeEventId catalog context tenantId name args
        ⟨path, some approvalId, .approved⟩ =
      .ok ⟨resumeEventId, first.trace, authorizationFor first.trace.decision .approved⟩ := by
  unfold evaluateGadget at h ⊢
  simp only [bind_eq_ok] at h ⊢
  obtain ⟨metadata, hmetadata, input, hinput, input', hinput', h⟩ := h
  exact ⟨metadata, hmetadata, input, hinput, input', hinput',
    evaluate_approved path approvalId resumeEventId h⟩

theorem evaluateGadget_authorization {catalog : GadgetCatalog} {tenantId : Uuid} {name : String}
    (h : evaluateGadget P database eventId catalog context tenantId name args stage =
      .ok evaluation) :
    evaluation.authorization = authorizationFor evaluation.trace.decision stage.reviewState := by
  unfold evaluateGadget at h
  simp only [bind_eq_ok] at h
  obtain ⟨_, _, _, _, _, _, h⟩ := h
  exact evaluate_authorization h

variable {descriptor : WorkbenchActionDescriptor} {catalog : Option GadgetCatalog}

theorem actionInput_congr {scopes scopes' : List String}
    (hscopes : OrdSet.ofList scopes = OrdSet.ofList scopes') :
    actionInput P catalog scopes descriptor args =
      actionInput P catalog scopes' descriptor args := by
  unfold actionInput PolicyInput.forGadget
  rw [hscopes]

theorem evaluateWorkbenchAction_approved
    (h : evaluateWorkbenchAction P database eventId catalog context descriptor args stage =
      .ok first) (context' : GadgetDispatchContext) (htenant : context'.tenantId = context.tenantId)
    (hscopes : OrdSet.ofList context'.scopes = OrdSet.ofList context.scopes)
    (path : EnforcementPath) (approvalId resumeEventId : Uuid) :
    evaluateWorkbenchAction P database resumeEventId catalog context' descriptor args
        ⟨path, some approvalId, .approved⟩ =
      .ok ⟨resumeEventId, first.trace, authorizationFor first.trace.decision .approved⟩ := by
  unfold evaluateWorkbenchAction at h ⊢
  rw [actionInput_congr hscopes, htenant]
  obtain ⟨input, hinput, h⟩ := bind_eq_ok.1 h
  exact bind_eq_ok.2 ⟨input, hinput, evaluate_approved path approvalId resumeEventId h⟩

theorem actionInput_actorScopes {scopes : List String} {input : PolicyInput}
    (h : actionInput P catalog scopes descriptor args = .ok input) :
    input.actorScopes = OrdSet.ofList scopes := by
  unfold actionInput PolicyInput.forGadget PolicyInput.withParameters at h
  simp only [bind_eq_ok, orInputInvalid_eq_ok] at h
  obtain ⟨_, ⟨_, -, hgadget⟩, _, ⟨_, -, hparameters⟩, _, -, h⟩ := h
  cases hgadget
  cases hparameters
  cases h
  rfl

section

variable
  (h : evaluateWorkbenchAction P database eventId catalog context descriptor args stage =
    .ok evaluation)
include h

theorem evaluateWorkbenchAction_inputHash :
    ∃ input, actionInput P catalog context.scopes descriptor args = .ok input ∧
      evaluation.trace.inputHash = P.digestInput input := by
  unfold evaluateWorkbenchAction at h
  obtain ⟨input, hinput, h⟩ := bind_eq_ok.1 h
  obtain ⟨_, _, -, htrace, -, rfl⟩ := evaluate_eq_ok.1 h
  exact ⟨input, hinput, evaluate_inputHash P htrace⟩

theorem evaluateWorkbenchAction_authorization :
    evaluation.authorization = authorizationFor evaluation.trace.decision stage.reviewState := by
  unfold evaluateWorkbenchAction at h
  obtain ⟨_, _, h⟩ := bind_eq_ok.1 h
  exact evaluate_authorization h

end

/-- The active policy does not deny the action. -/
def Permits (P : Primitives) (database : PolicyDatabase) (catalog : Option GadgetCatalog)
    (tenantId : Uuid) (scopes : List String) (descriptor : WorkbenchActionDescriptor)
    (args : Json) : Prop :=
  ∃ revision input trace, database.active tenantId = .ok revision ∧
    actionInput P catalog scopes descriptor args = .ok input ∧
    revision.document.evaluate P revision.identity input = .ok trace ∧ trace.decision ≠ .deny

theorem permits_of_evaluateWorkbenchAction
    (h : evaluateWorkbenchAction P database eventId catalog context descriptor args stage =
      .ok evaluation) (hdenied : evaluation.authorization ≠ .denied) :
    Permits P database catalog context.tenantId context.scopes descriptor args := by
  unfold evaluateWorkbenchAction at h
  obtain ⟨input, hinput, h⟩ := bind_eq_ok.1 h
  obtain ⟨revision, trace, hrevision, htrace, -, rfl⟩ := evaluate_eq_ok.1 h
  refine ⟨revision, input, trace, hrevision, hinput, htrace, ?_⟩
  intro hdeny
  exact hdenied (authorizationFor_eq_denied.2 hdeny)

end

def samplePolicyDatabase : PolicyDatabase where
  active _ := .ok ⟨sampleIdentity, sampleDocument⟩
  revision _ _ _ := .ok ⟨sampleIdentity, sampleDocument⟩
  insert := .ok ()

end Gadgetron.Policy
