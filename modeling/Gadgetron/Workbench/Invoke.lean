import Gadgetron.Workbench.ActionService
import Gadgetron.Lib.Memo

/-!
# Concurrent invocations

Calls of `invoke` interleave between the replay lookup, the policy evaluation, the dispatch or the
review request, and the replay insertion; the catalog and the policy may change between the steps.
-/

namespace Gadgetron.Workbench

open Lib Policy Approval Function

/-- Where a call of `invoke` is. -/
inductive Phase
  /-- The lookup found nothing. -/
  | missed (descriptor : WorkbenchActionDescriptor)
  | authorised (descriptor : WorkbenchActionDescriptor) (evaluation : Option PolicyEvaluation)
  /-- The response is known and not yet inserted. -/
  | acted (response : WorkbenchActionResult)
  | done (result : Except WorkbenchHttpError WorkbenchActionResult)

structure Call where
  invocation : Invocation
  phase : Phase

/-- An effect and the call of `invoke` that had it; `none` is an approval. -/
structure Entry where
  call : Option (ℕ × Invocation)
  effect : Effect

structure State where
  cache : ReplayCache
  approvals : ApprovalStore
  calls : ℕ → Option Call
  log : List Entry

inductive Label
  | lookup (n : ℕ) (invocation : Invocation) (view : CatalogView)
  | evaluate (n : ℕ) (database : PolicyDatabase) (env : Environment)
  | act (n : ℕ) (env : Environment)
  | insert (n : ℕ)
  | approve (view : CatalogView) (database : PolicyDatabase) (env : Environment)
      (approver : Approver) (id : Uuid)
  /-- An entry of the replay cache expires or is evicted. -/
  | expire (key : ReplayKey)

namespace State

def initial (approvals : ApprovalStore) : State := ⟨fun _ => none, approvals, fun _ => none, []⟩

def setCall (s : State) (n : ℕ) (invocation : Invocation) (phase : Phase) : State :=
  { s with calls := Function.update s.calls n (some ⟨invocation, phase⟩) }

def logged (s : State) (call : Option (ℕ × Invocation)) (approvals : ApprovalStore)
    (effects : List Effect) : State :=
  { s with approvals, log := s.log ++ effects.map fun effect => ⟨call, effect⟩ }

def actedPhase : Except WorkbenchHttpError WorkbenchActionResult → Phase
  | .ok response => .acted response
  | .error error => .done (.error error)

variable (service : Service)

/-- One step; `none` when it is not enabled. -/
def step (s : State) : Label → Option State
  | .lookup n invocation view =>
    match s.calls n with
    | some _ => none
    | none =>
      match admission view invocation with
      | .error error => some (s.setCall n invocation (.done (.error error)))
      | .ok descriptor =>
        match invocation.key.bind s.cache with
        | some cached => some (s.setCall n invocation (.done (.ok cached)))
        | none => some (s.setCall n invocation (.missed descriptor))
  | .evaluate n database env =>
    match s.calls n with
    | some ⟨invocation, .missed descriptor⟩ =>
      match authorise service database env invocation descriptor with
      | .error error => some (s.setCall n invocation (.done (.error error)))
      | .ok evaluation => some (s.setCall n invocation (.authorised descriptor evaluation))
    | _ => none
  | .act n env =>
    match s.calls n with
    | some ⟨invocation, .authorised descriptor evaluation⟩ =>
      match Workbench.act service env invocation descriptor evaluation s.approvals with
      | (result, approvals, effects) =>
        some ((s.logged (some (n, invocation)) approvals effects).setCall n invocation
          (actedPhase result))
    | _ => none
  | .insert n =>
    match s.calls n with
    | some ⟨invocation, .acted response⟩ =>
      some ({ s with cache := s.cache.put invocation.key response }.setCall n invocation
        (.done (.ok response)))
    | _ => none
  | .approve view database env approver id =>
    match approveAction service view database env s.approvals approver id with
    | (_, approvals, effects) => some (s.logged none approvals effects)
  | .expire key => some { s with cache := Function.update s.cache key none }

abbrev machine : Machine State Label := ⟨step service⟩

/-! ## What a step can do -/

inductive StepTo (s : State) : Label → State → Prop
  | refused (n : ℕ) (invocation : Invocation) (view : CatalogView) (error : WorkbenchHttpError)
      (fresh : s.calls n = none) :
      StepTo s (.lookup n invocation view) (s.setCall n invocation (.done (.error error)))
  | replayed (n : ℕ) (invocation : Invocation) (view : CatalogView) (key : ReplayKey)
      (cached : WorkbenchActionResult) (fresh : s.calls n = none)
      (hkey : invocation.key = some key) (found : s.cache key = some cached) :
      StepTo s (.lookup n invocation view) (s.setCall n invocation (.done (.ok cached)))
  | missed (n : ℕ) (invocation : Invocation) (view : CatalogView)
      (descriptor : WorkbenchActionDescriptor) (fresh : s.calls n = none)
      (admitted : admission view invocation = .ok descriptor)
      (nothing : ∀ key, invocation.key = some key → s.cache key = none) :
      StepTo s (.lookup n invocation view) (s.setCall n invocation (.missed descriptor))
  | denied (n : ℕ) (database : PolicyDatabase) (env : Environment) (invocation : Invocation)
      (descriptor : WorkbenchActionDescriptor) (error : WorkbenchHttpError)
      (before : s.calls n = some ⟨invocation, .missed descriptor⟩) :
      StepTo s (.evaluate n database env) (s.setCall n invocation (.done (.error error)))
  | authorised (n : ℕ) (database : PolicyDatabase) (env : Environment) (invocation : Invocation)
      (descriptor : WorkbenchActionDescriptor) (evaluation : Option PolicyEvaluation)
      (before : s.calls n = some ⟨invocation, .missed descriptor⟩)
      (permitted : authorise service database env invocation descriptor = .ok evaluation) :
      StepTo s (.evaluate n database env)
        (s.setCall n invocation (.authorised descriptor evaluation))
  | acted (n : ℕ) (env : Environment) (invocation : Invocation)
      (descriptor : WorkbenchActionDescriptor) (evaluation : Option PolicyEvaluation)
      (result : Except WorkbenchHttpError WorkbenchActionResult) (approvals : ApprovalStore)
      (effects : List Effect)
      (before : s.calls n = some ⟨invocation, .authorised descriptor evaluation⟩)
      (hact : Workbench.act service env invocation descriptor evaluation s.approvals =
        (result, approvals, effects)) :
      StepTo s (.act n env) ((s.logged (some (n, invocation)) approvals effects).setCall n
        invocation (actedPhase result))
  | inserted (n : ℕ) (invocation : Invocation) (response : WorkbenchActionResult)
      (before : s.calls n = some ⟨invocation, .acted response⟩) :
      StepTo s (.insert n) ({ s with cache := s.cache.put invocation.key response }.setCall n
        invocation (.done (.ok response)))
  | approved (view : CatalogView) (database : PolicyDatabase) (env : Environment)
      (approver : Approver) (id : Uuid) (approvals : ApprovalStore) (effects : List Effect) :
      StepTo s (.approve view database env approver id) (s.logged none approvals effects)
  | expired (key : ReplayKey) :
      StepTo s (.expire key) { s with cache := Function.update s.cache key none }

variable {service} {s s' : State} {a : Label}

theorem stepTo_of_step (h : (machine service).step s a = some s') : StepTo service s a s' := by
  cases a with
  | lookup n invocation view =>
    simp only [step] at h
    split at h
    · cases h
    · rename_i fresh
      split at h
      · cases h
        exact .refused n invocation view _ fresh
      · rename_i descriptor admitted
        split at h
        · rename_i cached hcached
          cases h
          obtain ⟨key, hkey, found⟩ := Option.bind_eq_some_iff.1 hcached
          exact .replayed n invocation view key cached fresh hkey found
        · rename_i hmiss
          cases h
          refine .missed n invocation view descriptor fresh admitted fun key hkey => ?_
          rw [hkey] at hmiss
          exact hmiss
  | evaluate n database env =>
    simp only [step] at h
    split at h
    · rename_i invocation descriptor before
      split at h
      · cases h
        exact .denied n database env invocation descriptor _ before
      · rename_i evaluation permitted
        cases h
        exact .authorised n database env invocation descriptor evaluation before permitted
    · cases h
  | act n env =>
    simp only [step] at h
    split at h
    · rename_i invocation descriptor evaluation before
      cases h
      exact .acted n env invocation descriptor evaluation _ _ _ before rfl
    · cases h
  | insert n =>
    simp only [step] at h
    split at h
    · rename_i invocation response before
      cases h
      exact .inserted n invocation response before
    · cases h
  | approve view database env approver id =>
    simp only [step] at h
    cases h
    exact .approved view database env approver id _ _
  | expire key =>
    simp only [step] at h
    cases h
    exact .expired key

@[simp] theorem setCall_calls_self (s : State) (n : ℕ) (invocation : Invocation) (phase : Phase) :
    (s.setCall n invocation phase).calls n = some ⟨invocation, phase⟩ :=
  update_self ..

theorem setCall_calls_of_ne (s : State) {n m : ℕ} (invocation : Invocation) (phase : Phase)
    (h : m ≠ n) : (s.setCall n invocation phase).calls m = s.calls m :=
  update_of_ne h ..

@[simp] theorem setCall_setCall (s : State) (n : ℕ) (invocation : Invocation)
    (phase phase' : Phase) :
    (s.setCall n invocation phase).setCall n invocation phase' = s.setCall n invocation phase' := by
  unfold setCall
  rw [update_idem]

/-! ## A call without interruption -/

section

variable {view : CatalogView} {database : PolicyDatabase} {env : Environment}
  {invocation : Invocation} {n : ℕ} {log : List Entry}
  {outcome : Except WorkbenchHttpError WorkbenchActionResult × ReplayCache × ApprovalStore ×
    List Effect}

def OfCall (n : ℕ) (invocation : Invocation) (view : CatalogView) (database : PolicyDatabase)
    (env : Environment) (a : Label) : Prop :=
  a = .lookup n invocation view ∨ a = .evaluate n database env ∨ a = .act n env ∨ a = .insert n

/-- The steps of the call `n` alone lead to the outcome, with the log starting from `log`. -/
def Completes (service : Service) (view : CatalogView) (database : PolicyDatabase)
    (env : Environment) (invocation : Invocation) (n : ℕ) (log : List Entry)
    (outcome : Except WorkbenchHttpError WorkbenchActionResult × ReplayCache × ApprovalStore ×
      List Effect) (s : State) : Prop :=
  ∃ as t, (∀ a ∈ as, OfCall n invocation view database env a) ∧
    (machine service).exec s as = some t ∧ t.calls n = some ⟨invocation, .done outcome.1⟩ ∧
    t.cache = outcome.2.1 ∧ t.approvals = outcome.2.2.1 ∧
    t.log = log ++ outcome.2.2.2.map fun effect => ⟨some (n, invocation), effect⟩

theorem Completes.of_step (hcall : OfCall n invocation view database env a)
    (hstep : (machine service).step s a = some s')
    (h : Completes service view database env invocation n log outcome s') :
    Completes service view database env invocation n log outcome s := by
  obtain ⟨as, t, hown, hrun, hend⟩ := h
  refine ⟨a :: as, t, ?_, (Machine.exec_cons_eq_some _).2 ⟨s', hstep, hrun⟩, hend⟩
  intro b hb
  rcases List.mem_cons.1 hb with rfl | hb
  · exact hcall
  · exact hown b hb

theorem Completes.of_done {result : Except WorkbenchHttpError WorkbenchActionResult}
    {cache : ReplayCache} {effects : List Effect}
    (hlog : s.log = log ++ effects.map fun effect => ⟨some (n, invocation), effect⟩) :
    Completes service view database env invocation n log (result, cache, s.approvals, effects)
      ({ s with cache }.setCall n invocation (.done result)) :=
  ⟨[], _, nofun, rfl, setCall_calls_self .., rfl, rfl, hlog⟩

theorem completes_act {descriptor : WorkbenchActionDescriptor}
    {evaluation : Option PolicyEvaluation} (s : State) :
    Completes service view database env invocation n s.log
      (match Workbench.act service env invocation descriptor evaluation s.approvals with
        | (.error error, approvals, effects) => (.error error, s.cache, approvals, effects)
        | (.ok response, approvals, effects) =>
          (.ok response, s.cache.put invocation.key response, approvals, effects))
      (s.setCall n invocation (.authorised descriptor evaluation)) := by
  rcases hact : Workbench.act service env invocation descriptor evaluation s.approvals with
    ⟨result, approvals, effects⟩
  have hstep : (machine service).step (s.setCall n invocation (.authorised descriptor evaluation))
      (.act n env) = some ((s.logged (some (n, invocation)) approvals effects).setCall n invocation
        (actedPhase result)) := by
    have happrovals : (s.setCall n invocation (.authorised descriptor evaluation)).approvals =
        s.approvals := rfl
    simp only [step, setCall_calls_self, happrovals, hact]
    simp only [setCall, logged, update_idem]
  refine Completes.of_step (Or.inr (Or.inr (Or.inl rfl))) hstep ?_
  cases result with
  | error error =>
    exact Completes.of_done (s := s.logged (some (n, invocation)) approvals effects) rfl
  | ok response =>
    refine Completes.of_step (a := .insert n) (Or.inr (Or.inr (Or.inr rfl))) ?_
      (Completes.of_done (s := s.logged (some (n, invocation)) approvals effects) rfl)
    simp only [actedPhase, step, setCall_calls_self]
    simp only [setCall, logged, update_idem]

/-- The steps of one call that runs alone come to what `invoke` computes. -/
theorem invoke_eq_exec (service : Service) (view : CatalogView) (database : PolicyDatabase)
    (env : Environment) (invocation : Invocation) (s : State) (n : ℕ) (fresh : s.calls n = none) :
    Completes service view database env invocation n s.log
      (invoke service view database env s.cache s.approvals invocation) s := by
  have hnil : s.log = s.log ++ ([] : List Effect).map fun effect =>
      (⟨some (n, invocation), effect⟩ : Entry) := (List.append_nil _).symm
  unfold invoke
  cases hadmit : admission view invocation with
  | error error =>
    refine Completes.of_step (a := .lookup n invocation view) (Or.inl rfl) ?_
      (Completes.of_done hnil)
    simp only [step, fresh, hadmit]
  | ok descriptor =>
    dsimp only
    cases hcache : invocation.key.bind s.cache with
    | some cached =>
      refine Completes.of_step (a := .lookup n invocation view) (Or.inl rfl) ?_
        (Completes.of_done hnil)
      simp only [step, fresh, hadmit, hcache]
    | none =>
      have hlookup : (machine service).step s (.lookup n invocation view) =
          some (s.setCall n invocation (.missed descriptor)) := by
        simp only [step, fresh, hadmit, hcache]
      refine Completes.of_step (Or.inl rfl) hlookup ?_
      dsimp only
      cases hauthorise : authorise service database env invocation descriptor with
      | error error =>
        refine Completes.of_step (a := .evaluate n database env) (Or.inr (Or.inl rfl)) ?_
          (Completes.of_done hnil)
        simp only [step, setCall_calls_self, hauthorise, setCall_setCall]
      | ok evaluation =>
        have hevaluate : (machine service).step (s.setCall n invocation (.missed descriptor))
            (.evaluate n database env) =
            some (s.setCall n invocation (.authorised descriptor evaluation)) := by
          simp only [step, setCall_calls_self, hauthorise, setCall_setCall]
        refine Completes.of_step (Or.inr (Or.inl rfl)) hevaluate ?_
        exact completes_act s

end

end State

end Gadgetron.Workbench
