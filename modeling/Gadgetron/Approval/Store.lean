import Gadgetron.Policy.Enforcement

/-!
# Review requests and their store

A review request is created pending and is resolved at most once, by an approver or a denier of its
tenant.
-/

namespace Gadgetron.Approval

open Lib Policy

inductive ApprovalResumeStrategy
  | workbenchAction
  | waitingCaller
  deriving DecidableEq

structure ApprovalPolicyBinding where
  policy : PolicyIdentity
  inputHash : String
  decisionEventId : Uuid
  deriving DecidableEq

def approvalBinding (evaluation : PolicyEvaluation) : ApprovalPolicyBinding where
  policy := evaluation.trace.policy
  inputHash := evaluation.trace.inputHash
  decisionEventId := evaluation.eventId

inductive ApprovalState
  | pending
  | approved
  | denied
  deriving DecidableEq

def ApprovalState.asStr : ApprovalState → String
  | .pending => "pending"
  | .approved => "approved"
  | .denied => "denied"

structure ApprovalRequest where
  id : Uuid
  actionId : String
  gadgetName : Option String
  args : Json
  (requestedByUserId tenantId : Uuid)
  state : ApprovalState
  createdAt : ℕ
  resolvedAt : Option ℕ
  resolvedByUserId : Option Uuid
  denyReason : Option String
  policyBinding : Option ApprovalPolicyBinding
  resumeStrategy : ApprovalResumeStrategy

/-- `ApprovalRequest::new_pending` at the time `now`. -/
def ApprovalRequest.newPending (now : ℕ) (id : Uuid) (actor : AuthenticatedContext)
    (actionId : String) (gadgetName : Option String) (args : Json) : ApprovalRequest where
  id := id
  actionId := actionId
  gadgetName := gadgetName
  args := args
  requestedByUserId := actor.userId
  tenantId := actor.tenantId
  state := .pending
  createdAt := now
  resolvedAt := none
  resolvedByUserId := none
  denyReason := none
  policyBinding := none
  resumeStrategy := .workbenchAction

def ApprovalRequest.withPolicyBinding (request : ApprovalRequest)
    (binding : ApprovalPolicyBinding) : ApprovalRequest :=
  { request with policyBinding := some binding }

def ApprovalRequest.withResumeStrategy (request : ApprovalRequest)
    (strategy : ApprovalResumeStrategy) : ApprovalRequest :=
  { request with resumeStrategy := strategy }

inductive ApprovalError
  | notFound
  | alreadyResolved (currentState : ApprovalState)
  | crossTenant
  | backend (detail : String)

def ApprovalError.toString : ApprovalError → String
  | .notFound => "approval not found"
  | .alreadyResolved currentState =>
    "approval already resolved (state=" ++ currentState.asStr ++ ")"
  | .crossTenant => "approval belongs to a different tenant"
  | .backend detail => "approval store backend error: " ++ detail

/-! ## The operations of the store -/

abbrev ApprovalStore := Uuid → Option ApprovalRequest

namespace ApprovalStore

def create (store : ApprovalStore) (request : ApprovalRequest) :
    Except ApprovalError ApprovalStore :=
  match store request.id with
  | some _ => .error (.backend ("duplicate approval id " ++ request.id.toText))
  | none => .ok (Function.update store request.id (some request))

def get (store : ApprovalStore) (id : Uuid) : Except ApprovalError ApprovalRequest :=
  match store id with
  | some request => .ok request
  | none => .error .notFound

/-- The common part of `mark_approved` and `mark_denied`; `resolve` fills in the outcome. -/
def resolveWith (resolve : ApprovalRequest → ApprovalRequest) (store : ApprovalStore) (id : Uuid)
    (approver : AuthenticatedContext) : Except ApprovalError (ApprovalRequest × ApprovalStore) :=
  match store id with
  | none => .error .notFound
  | some entry =>
    if entry.tenantId ≠ approver.tenantId then .error .crossTenant
    else if entry.state ≠ .pending then .error (.alreadyResolved entry.state)
    else .ok (resolve entry, Function.update store id (some (resolve entry)))

/-- The outcome of an approval at the time `now`. -/
def approvedBy (now : ℕ) (approver : AuthenticatedContext) (entry : ApprovalRequest) :
    ApprovalRequest :=
  { entry with
    state := .approved
    resolvedAt := some now
    resolvedByUserId := some approver.userId }

/-- The outcome of a denial at the time `now`. -/
def deniedBy (now : ℕ) (approver : AuthenticatedContext) (reason : Option String)
    (entry : ApprovalRequest) : ApprovalRequest :=
  { entry with
    state := .denied
    resolvedAt := some now
    resolvedByUserId := some approver.userId
    denyReason := reason }

def markApproved (now : ℕ) (store : ApprovalStore) (id : Uuid) (approver : AuthenticatedContext) :
    Except ApprovalError (ApprovalRequest × ApprovalStore) :=
  resolveWith (approvedBy now approver) store id approver

def markDenied (now : ℕ) (store : ApprovalStore) (id : Uuid) (approver : AuthenticatedContext)
    (reason : Option String) : Except ApprovalError (ApprovalRequest × ApprovalStore) :=
  resolveWith (deniedBy now approver reason) store id approver

end ApprovalStore

/-! ## What an operation can do -/

def ApprovalRequest.terms (request : ApprovalRequest) : ApprovalRequest :=
  { request with
    state := .pending
    resolvedAt := none
    resolvedByUserId := none
    denyReason := none }

namespace ApprovalStore

variable {store store' : ApprovalStore} {id : Uuid} {approver : AuthenticatedContext}

variable {request : ApprovalRequest}

theorem resolveWith_eq_ok {resolve : ApprovalRequest → ApprovalRequest} :
    resolveWith resolve store id approver = .ok (request, store') ↔
      ∃ entry, store id = some entry ∧ entry.tenantId = approver.tenantId ∧
        entry.state = .pending ∧ request = resolve entry ∧
        store' = Function.update store id (some (resolve entry)) := by
  unfold resolveWith
  cases hentry : store id with
  | none => simp
  | some entry =>
    by_cases htenant : entry.tenantId = approver.tenantId
    · by_cases hstate : entry.state = .pending
      · simp [htenant, hstate, eq_comm]
      · simp [htenant, hstate]
    · simp [htenant]

theorem create_eq_ok : store.create request = .ok store' ↔
      store request.id = none ∧ store' = Function.update store request.id (some request) := by
  unfold create
  cases store request.id with
  | none => simp [eq_comm]
  | some entry => simp

end ApprovalStore

end Gadgetron.Approval
