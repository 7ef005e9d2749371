import Gadgetron.Approval.Store

/-!
# Callers that wait for a review

A tool call that needs a review creates a request and polls the store until the request is resolved
or the review window is over.
-/

namespace Gadgetron.Approval

open Lib Policy Function

structure GatewayCall where
  actor : AuthenticatedContext
  scopes : List Scope
  requestId : Uuid
  catalog : GadgetCatalog
  name : String
  args : Json
  /-- The review window, in milliseconds. -/
  timeout : ℕ

inductive Caller
  | penny (actor : AuthenticatedContext) (toolName : String) (args : Json)
  | gateway (call : GatewayCall) (first : PolicyEvaluation)

def approvalWait : ℕ := 120000

def approvalPoll : ℕ := 1000

inductive ApprovalWaitError
  | denied
  | timedOut
  | store (error : ApprovalError)

inductive CallError
  /-- An error of the gateway's loop. -/
  | wait (error : ApprovalWaitError)
  /-- `GadgetError::Denied` of Penny's loop. -/
  | denied (reason : String)
  /-- `GadgetError::Execution` of Penny's loop. -/
  | execution (detail : String)
  | policyBindingMismatch (message : String)
  | policyUnavailable (error : PolicyEvaluationError)
  | deniedByPolicy (reason : String)

inductive Phase
  | looping
  | sleeping (wakeAt : ℕ)
  /-- In `expire_pending_approval`, before its `get`. -/
  | expiring
  /-- In `expire_pending_approval`, before its `mark_denied`. -/
  | marking
  /-- Before the `get` whose record the loop returns. -/
  | fetching
  /-- The loop has returned the approved record. -/
  | released (approved : ApprovalRequest)
  | dispatched
  | refused (error : CallError)

structure Dispatch where
  id : Uuid
  name : String
  args : Json

namespace Caller

def poll : Caller → ℕ
  | .penny .. => approvalPoll
  | .gateway .. => 250

def timeout : Caller → ℕ
  | .penny .. => approvalWait
  | .gateway call _ => call.timeout

def request (now : ℕ) (id : Uuid) : Caller → ApprovalRequest
  | .penny actor toolName args =>
    (ApprovalRequest.newPending now id actor toolName (some toolName) args).withResumeStrategy
      .waitingCaller
  | .gateway call first =>
    ((ApprovalRequest.newPending now id call.actor call.name (some call.name)
      call.args).withPolicyBinding (approvalBinding first)).withResumeStrategy .waitingCaller

def timeoutActor (caller : Caller) : AuthenticatedContext :=
  let request := caller.request 0 0
  ⟨0, request.tenantId, some request.requestedByUserId⟩

def dispatch (id : Uuid) : Caller → Dispatch
  | .penny _ toolName args => ⟨id, toolName, args⟩
  | .gateway call _ => ⟨id, call.name, call.args⟩

def atDeadline : Caller → Phase
  | .penny .. =>
    .refused (.denied "approval timed out after 120s — operator did not respond in time")
  | .gateway .. => .expiring

/-- What follows the `get` of the loop. -/
def afterPoll (caller : Caller) (record : Except ApprovalError ApprovalRequest) : Phase :=
  match caller, record with
  | .penny .., .error error => .refused (.execution ("approval store get: " ++ error.toString))
  | .gateway .., .error error => .refused (.wait (.store error))
  | .penny _ toolName _, .ok current =>
    match current.state with
    | .pending => .looping
    | .approved => .released current
    | .denied => .refused (.denied ("operator denied " ++ toolName ++
        (current.denyReason.map (": " ++ ·)).getD ""))
  | .gateway .., .ok current =>
    match current.state with
    | .pending => .looping
    | .approved => .fetching
    | .denied => .refused (.wait .denied)

end Caller

/-- What follows the `get` of `expire_pending_approval`. -/
def afterExpiryGet : Except ApprovalError ApprovalRequest → Phase
  | .error error => .refused (.wait (.store error))
  | .ok current =>
    match current.state with
    | .approved => .fetching
    | .denied => .refused (.wait .denied)
    | .pending => .marking

/-- What follows a failed `mark_denied` of `expire_pending_approval`. -/
def afterMarkError : ApprovalError → Phase
  | .alreadyResolved .approved => .fetching
  | .alreadyResolved .denied => .refused (.wait .denied)
  | error => .refused (.wait (.store error))

/-- What follows the last `get`. -/
def afterFetch : Except ApprovalError ApprovalRequest → Phase
  | .ok current => .released current
  | .error error => .refused (.wait (.store error))

section

variable (P : Primitives) (database : PolicyDatabase)

def GatewayCall.evaluate (call : GatewayCall) (eventId : Uuid) (stage : PolicyStage) :
    Except PolicyEvaluationError PolicyEvaluation :=
  evaluateGadget P database eventId call.catalog
    (dispatchContext call.actor call.scopes call.requestId) call.actor.tenantId call.name call.args
    stage

/-- The caller has to wait: for the gateway, the policy has left the review pending. -/
def Caller.isHeld : Caller → Bool
  | .penny .. => true
  | .gateway call first =>
    match call.evaluate P database first.eventId ⟨.tool, none, .pending⟩ with
    | .ok evaluation => decide (evaluation = first ∧ evaluation.authorization = .pendingReview)
    | .error _ => false

/-- What a released caller does: Penny dispatches, the gateway evaluates the policy again. -/
def Caller.resume (eventId id : Uuid) (approved : ApprovalRequest) : Caller → Phase
  | .penny .. => .dispatched
  | .gateway call first =>
    if approved.policyBinding ≠ some (approvalBinding first) then
      .refused (.policyBindingMismatch "Approved tool no longer matches its policy binding")
    else
      match call.evaluate P database eventId ⟨.reviewResume, some id, .approved⟩ with
      | .error error => .refused (.policyUnavailable error)
      | .ok resumed =>
        if resumed.trace.inputHash ≠ first.trace.inputHash then
          .refused (.policyBindingMismatch
            "Approved tool input no longer matches its policy binding")
        else if resumed.allowsExecution = false then .refused (.deniedByPolicy resumed.trace.reason)
        else .dispatched

/-! ## The machine -/

structure Waiter where
  caller : Caller
  deadline : ℕ
  phase : Phase

/-- The next step of a waiter: its phase and the store after it; `none` while it sleeps and when it
has ended. -/
def Waiter.advance (waiter : Waiter) (now : ℕ) (store : ApprovalStore) (id eventId : Uuid) :
    Option (Phase × ApprovalStore) :=
  match waiter.phase with
  | .looping =>
    if waiter.deadline ≤ now then some (waiter.caller.atDeadline, store)
    else some (.sleeping (now + waiter.caller.poll), store)
  | .sleeping wakeAt =>
    if wakeAt ≤ now then some (waiter.caller.afterPoll (store.get id), store) else none
  | .expiring => some (afterExpiryGet (store.get id), store)
  | .marking =>
    match store.markDenied now id waiter.caller.timeoutActor (some "Review window expired") with
    | .ok (_, store) => some (.refused (.wait .timedOut), store)
    | .error error => some (afterMarkError error, store)
  | .fetching => some (afterFetch (store.get id), store)
  | .released approved => some (waiter.caller.resume P database eventId id approved, store)
  | .dispatched | .refused _ => none

structure State where
  now : ℕ
  store : ApprovalStore
  waiters : Uuid → Option Waiter
  dispatches : List Dispatch

inductive Label
  | tick (ms : ℕ)
  | create (id : Uuid) (caller : Caller)
  /-- The waiter of a request takes its next step; `eventId` is fresh. -/
  | advance (id eventId : Uuid)
  /-- `approve_action` for a waiting caller. -/
  | approve (id : Uuid) (approver : AuthenticatedContext)
  /-- `deny_action`. -/
  | deny (id : Uuid) (approver : AuthenticatedContext) (reason : Option String)

def Phase.calls (dispatch : Dispatch) : Phase → List Dispatch
  | .dispatched => [dispatch]
  | _ => []

namespace State

def initial (now : ℕ) (store : ApprovalStore) : State := ⟨now, store, fun _ => none, []⟩

def dispatchesOf (s : State) (id : Uuid) : List Dispatch :=
  s.dispatches.filter fun dispatch => dispatch.id = id

def advanced (s : State) (id : Uuid) (waiter : Waiter) (phase : Phase) (store : ApprovalStore) :
    State :=
  { s with
    store
    waiters := Function.update s.waiters id (some { waiter with phase })
    dispatches := s.dispatches ++ phase.calls (waiter.caller.dispatch id) }

/-- One step; `none` when it is not enabled.  A failed `create`, `approve` or `deny` changes
nothing. -/
def step (s : State) : Label → Option State
  | .tick ms => some { s with now := s.now + ms }
  | .create id caller =>
    if caller.isHeld P database then
      match s.store.create (caller.request s.now id) with
      | .ok store => some
          { s with
            store
            waiters := Function.update s.waiters id
              (some ⟨caller, s.now + caller.timeout, .looping⟩) }
      | .error _ => some s
    else none
  | .advance id eventId =>
    match s.waiters id with
    | some waiter =>
      match waiter.advance P database s.now s.store id eventId with
      | some (phase, store) => some (s.advanced id waiter phase store)
      | none => none
    | none => none
  | .approve id approver =>
    match s.store.markApproved s.now id approver with
    | .ok (_, store) => some { s with store }
    | .error _ => some s
  | .deny id approver reason =>
    match s.store.markDenied s.now id approver reason with
    | .ok (_, store) => some { s with store }
    | .error _ => some s

abbrev machine : Machine State Label := ⟨step P database⟩

end State

end

theorem Caller.request_terms (caller : Caller) (now : ℕ) (id : Uuid) :
    (caller.request now id).terms = caller.request now id := by
  cases caller with
  | penny | gateway => rfl

theorem Caller.dispatch_id (caller : Caller) (id : Uuid) : (caller.dispatch id).id = id := by
  cases caller with
  | penny | gateway => rfl

theorem Caller.poll_pos (caller : Caller) : 0 < caller.poll := by
  cases caller with
  | penny actor toolName args => exact Nat.succ_pos 999
  | gateway call first => exact Nat.succ_pos 249

/-! ## What a step does to one request -/

namespace State

/-- What a step does to the request `id`, its waiter and its calls. -/
inductive Change (P : Primitives) (database : PolicyDatabase) (id : Uuid) (s s' : State)
    (a : Label) : Prop
  | same (waiter : s'.waiters id = s.waiters id) (record : s'.store id = s.store id)
      (calls : s'.dispatchesOf id = s.dispatchesOf id)
  | resolved (waiter : s'.waiters id = s.waiters id)
      (calls : s'.dispatchesOf id = s.dispatchesOf id)
      (entry entry' : ApprovalRequest) (before : s.store id = some entry)
      (pending : entry.state = .pending) (after : s'.store id = some entry')
      (terms : entry'.terms = entry.terms)
      (approved : entry'.state = .approved →
        ∃ approver, a = .approve id approver ∧ entry.tenantId = approver.tenantId)
  | created (caller : Caller) (held : caller.isHeld P database = true) (fresh : s.store id = none)
      (waiter : s'.waiters id = some ⟨caller, s.now + caller.timeout, .looping⟩)
      (record : s'.store id = some (caller.request s.now id))
      (calls : s'.dispatchesOf id = s.dispatchesOf id)
  | advanced (waiter : Waiter) (eventId : Uuid) (phase : Phase) (store : ApprovalStore)
      (label : a = .advance id eventId) (before : s.waiters id = some waiter)
      (step : waiter.advance P database s.now s.store id eventId = some (phase, store))
      (after : s' = s.advanced id waiter phase store)

variable {P : Primitives} {database : PolicyDatabase} {s s' : State} {a : Label} {id : Uuid}

theorem dispatchesOf_advanced (waiter : Waiter) (phase : Phase) (store : ApprovalStore) :
    (s.advanced id waiter phase store).dispatchesOf id =
      s.dispatchesOf id ++ phase.calls (waiter.caller.dispatch id) := by
  unfold dispatchesOf advanced
  rw [List.filter_append]
  congr 1
  cases phase with
  | dispatched => simp [Phase.calls, Caller.dispatch_id]
  | looping | sleeping wakeAt | expiring | marking | fetching | released approved | refused error =>
    rfl

theorem dispatchesOf_advanced_of_ne {other : Uuid} (hne : id ≠ other) (waiter : Waiter)
    (phase : Phase) (store : ApprovalStore) :
    (s.advanced other waiter phase store).dispatchesOf id = s.dispatchesOf id := by
  unfold dispatchesOf advanced
  rw [List.filter_append]
  have hcalls : (phase.calls (waiter.caller.dispatch other)).filter
      (fun dispatch => dispatch.id = id) = [] := by
    cases phase with
    | dispatched => simp [Phase.calls, Caller.dispatch_id, hne.symm]
    | looping | sleeping wakeAt | expiring | marking | fetching | released approved
    | refused error => rfl
  rw [hcalls, List.append_nil]

variable {store store' : ApprovalStore}

theorem store_advance {waiter : Waiter} {now : ℕ} {eventId : Uuid}
    {phase : Phase} (h : waiter.advance P database now store id eventId = some (phase, store')) :
    store' = store ∨ ∃ request, store.markDenied now id waiter.caller.timeoutActor
      (some "Review window expired") = .ok (request, store') := by
  unfold Waiter.advance at h
  cases hphase : waiter.phase with
  | marking =>
    simp only [hphase] at h
    split at h
    · rename_i request store hmark
      cases h
      exact Or.inr ⟨request, hmark⟩
    · cases h
      exact Or.inl rfl
  | looping =>
    simp only [hphase] at h
    split_ifs at h <;> (cases h; exact Or.inl rfl)
  | sleeping wakeAt =>
    simp only [hphase] at h
    split_ifs at h
    cases h
    exact Or.inl rfl
  | expiring | fetching | released approved =>
    simp only [hphase] at h
    cases h
    exact Or.inl rfl
  | dispatched | refused error =>
    simp only [hphase] at h
    cases h

theorem store_advance_of_ne {waiter : Waiter} {now : ℕ}
    {other eventId : Uuid} {phase : Phase} (hne : id ≠ other)
    (h : waiter.advance P database now store other eventId = some (phase, store')) :
    store' id = store id := by
  rcases store_advance h with rfl | ⟨request, hmark⟩
  · rfl
  · obtain ⟨entry, -, -, -, -, rfl⟩ := ApprovalStore.resolveWith_eq_ok.1 hmark
    exact update_of_ne hne ..

theorem step_change (id : Uuid) (h : (machine P database).step s a = some s') :
    Change P database id s s' a := by
  cases a with
  | tick ms =>
    cases h
    exact .same rfl rfl rfl
  | create other caller =>
    simp only [step] at h
    split_ifs at h with hheld
    split at h
    · rename_i store hcreate
      cases h
      obtain ⟨hfresh, rfl⟩ := ApprovalStore.create_eq_ok.1 hcreate
      have hid : (caller.request s.now other).id = other := by
        cases caller with
        | penny | gateway => rfl
      rw [hid] at hfresh
      by_cases hne : id = other
      · subst hne
        refine .created caller hheld hfresh (update_self ..) ?_ rfl
        rw [hid]
        exact update_self ..
      · refine .same (update_of_ne hne ..) ?_ rfl
        rw [hid]
        exact update_of_ne hne ..
    · cases h
      exact .same rfl rfl rfl
  | advance other eventId =>
    simp only [step] at h
    split at h
    · rename_i waiter hwaiter
      split at h
      · rename_i phase store hadvance
        cases h
        by_cases hne : id = other
        · subst hne
          exact .advanced waiter eventId phase store rfl hwaiter hadvance rfl
        · exact .same (update_of_ne hne ..) (store_advance_of_ne hne hadvance)
            (dispatchesOf_advanced_of_ne hne waiter phase store)
      · cases h
    · cases h
  | approve other approver =>
    simp only [step] at h
    split at h
    · rename_i request store hmark
      cases h
      obtain ⟨entry, hentry, htenant, hstate, -, rfl⟩ := ApprovalStore.resolveWith_eq_ok.1 hmark
      by_cases hne : id = other
      · subst hne
        exact .resolved rfl rfl entry _ hentry hstate (update_self ..) rfl
          fun _ => ⟨approver, rfl, htenant⟩
      · exact .same rfl (update_of_ne hne ..) rfl
    · cases h
      exact .same rfl rfl rfl
  | deny other approver reason =>
    simp only [step] at h
    split at h
    · rename_i request store hmark
      cases h
      obtain ⟨entry, hentry, -, hstate, -, rfl⟩ := ApprovalStore.resolveWith_eq_ok.1 hmark
      by_cases hne : id = other
      · subst hne
        exact .resolved rfl rfl entry _ hentry hstate (update_self ..) rfl nofun
      · exact .same rfl (update_of_ne hne ..) rfl
    · cases h
      exact .same rfl rfl rfl

variable {request : ApprovalRequest}

theorem resolved_step (hrecord : s.store id = some request)
    (hstate : request.state ≠ .pending) (h : (machine P database).step s a = some s') :
    s'.store id = some request := by
  cases step_change id h with
  | same _ record _ => rw [record, hrecord]
  | resolved _ _ entry entry' before pending after _ _ =>
    rw [hrecord] at before
    cases before
    exact absurd pending hstate
  | created _ _ fresh _ _ _ =>
    rw [hrecord] at fresh
    cases fresh
  | advanced waiter eventId phase store _ _ hadvance after =>
    rw [after]
    rcases store_advance hadvance with rfl | ⟨denied, hmark⟩
    · exact hrecord
    · obtain ⟨entry, hentry, -, hpending, -, rfl⟩ := ApprovalStore.resolveWith_eq_ok.1 hmark
      rw [hrecord] at hentry
      cases hentry
      exact absurd hpending hstate

theorem resolved_exec {as : List Label}
    (hrecord : s.store id = some request) (hstate : request.state ≠ .pending)
    (h : (machine P database).exec s as = some s') : s'.store id = some request :=
  Machine.invariant _ (I := fun s => s.store id = some request)
    (fun _ _ _ hs hstep => resolved_step hs hstate hstep) hrecord h

end State

end Gadgetron.Approval
