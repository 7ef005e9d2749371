import Gadgetron.Workbench.Approve
import Gadgetron.Workbench.Invoke

/-!
# Replayed invocations

For one key, runs in which no call begins while another is under way follow the exclusive protocol
of a memo slot, so at most one of the calls acts.
-/

namespace Gadgetron.Workbench

open Lib Policy Approval List Function

/-- A review request, or a dispatch that returned a result. -/
def Effect.isSuccess : Effect → Bool
  | .dispatched _ _ _ (.ok _) => true
  | .dispatched _ _ _ (.error _) => false
  | .created _ => true

/-- The call has looked up and has not ended. -/
def Phase.isUnderWay : Phase → Bool
  | .done _ => false
  | .missed _ | .authorised _ _ | .acted _ => true

def Entry.succeeds (key : ReplayKey) (entry : Entry) : Bool :=
  (entry.call.any fun call => call.2.key = some key) && entry.effect.isSuccess

theorem ReplayCache.put_eq_some {cache : ReplayCache} {key : Option ReplayKey} {k : ReplayKey}
    {response cached : WorkbenchActionResult} (h : cache.put key response k = some cached) :
    cache k = some cached ∨ key = some k ∧ cached = response := by
  unfold ReplayCache.put at h
  cases key with
  | none => exact Or.inl h
  | some key =>
    dsimp only at h
    by_cases hk : k = key
    · subst hk
      rw [update_self] at h
      exact Or.inr ⟨rfl, (Option.some.inj h).symm⟩
    · rw [update_of_ne hk] at h
      exact Or.inl h

theorem act_successes {service : Service} {env : Environment} {invocation : Invocation}
    {descriptor : WorkbenchActionDescriptor} {evaluation : Option PolicyEvaluation}
    {approvals approvals' : ApprovalStore}
    {result : Except WorkbenchHttpError WorkbenchActionResult} {effects : List Effect}
    (h : act service env invocation descriptor evaluation approvals =
      (result, approvals', effects)) : effects.countP Effect.isSuccess ≤ 1 ∧
      ∀ error, result = .error error → effects.countP Effect.isSuccess = 0 := by
  cases actsTo_of_act h with
  | requested | dispatched => exact ⟨Nat.le_refl _, fun _ h => by cases h⟩
  | silent => exact ⟨Nat.zero_le _, fun _ h => by cases h⟩
  | notStored | failed => exact ⟨Nat.zero_le _, fun _ _ => rfl⟩

namespace State

variable {service : Service} {s s' : State} {a : Label} {key : ReplayKey}

/-! ## One key as a memo slot -/

def memoPhase : Phase → MemoPhase WorkbenchActionResult
  | .missed _ | .authorised _ _ => .pending
  | .acted response => .acted response
  | .done (.ok response) => .returned response
  | .done (.error _) => .failed

def slotCall (key : ReplayKey) (call : Call) : Option (MemoPhase WorkbenchActionResult) :=
  if call.invocation.key = some key then some (memoPhase call.phase) else none

/-- The slot of a key: its cached response, its calls and their successes. -/
def slot (key : ReplayKey) (s : State) : Memo WorkbenchActionResult where
  recorded := s.cache key
  calls n := (s.calls n).bind (slotCall key)
  successes := s.log.countP (Entry.succeeds key)

variable {invocation : Invocation} {effects : List Effect} {n : ℕ}

theorem countP_succeeds (hkey : invocation.key = some key) :
    (effects.map fun effect => (⟨some (n, invocation), effect⟩ : Entry)).countP
      (Entry.succeeds key) = effects.countP Effect.isSuccess := by
  rw [countP_map]
  congr 1
  funext effect
  simp [Entry.succeeds, hkey]

variable {call : Option (ℕ × Invocation)}

theorem countP_succeeds_of_ne (hkey : ∀ c, call = some c → c.2.key ≠ some key) :
    (effects.map fun effect => (⟨call, effect⟩ : Entry)).countP (Entry.succeeds key) = 0 := by
  rw [countP_map, countP_eq_zero]
  intro effect _
  cases call with
  | none => simp [Entry.succeeds]
  | some c => simp [Entry.succeeds, hkey c rfl]

variable {phase : Phase}

theorem slot_setCall (hkey : invocation.key = some key) :
    slot key (s.setCall n invocation phase) = (slot key s).setCall n (memoPhase phase) := by
  unfold slot Memo.setCall setCall
  congr 1
  funext m
  by_cases hm : m = n
  · subst hm
    simp [slotCall, hkey]
  · simp [update_of_ne hm]

theorem slot_setCall_of_ne (hkey : invocation.key ≠ some key)
    (hbefore : ∀ call, s.calls n = some call → call.invocation.key ≠ some key) :
    slot key (s.setCall n invocation phase) = slot key s := by
  unfold slot setCall
  congr 1
  funext m
  by_cases hm : m = n
  · subst hm
    cases hcall : s.calls m with
    | none => simp [slotCall, hkey]
    | some call => simp [slotCall, hkey, hbefore call hcall]
  · simp [update_of_ne hm]

theorem slot_logged {approvals : ApprovalStore} : slot key (s.logged call approvals effects) =
      { slot key s with
        successes := (slot key s).successes +
          (effects.map fun effect => (⟨call, effect⟩ : Entry)).countP (Entry.succeeds key) } := by
  unfold slot logged
  congr 1
  exact countP_append

theorem slot_calls_of_key
    (hcall : s.calls n = some ⟨invocation, phase⟩) (hkey : invocation.key = some key) :
    (slot key s).calls n = some (memoPhase phase) := by
  simp [slot, hcall, slotCall, hkey]

theorem slot_calls_fresh (fresh : s.calls n = none) : (slot key s).calls n = none := by
  simp [slot, fresh]

theorem isUnderWay_of_inFlight (h : (slot key s).InFlight n) :
    ∃ call, s.calls n = some call ∧ call.invocation.key = some key ∧
      call.phase.isUnderWay = true := by
  have hcases : ∃ phase, (slot key s).calls n = some phase ∧
      (phase = .pending ∨ ∃ response, phase = .acted response) := by
    rcases h with h | ⟨response, h⟩
    · exact ⟨_, h, Or.inl rfl⟩
    · exact ⟨_, h, Or.inr ⟨response, rfl⟩⟩
  obtain ⟨phase, hphase, hkind⟩ := hcases
  obtain ⟨call, hcall, hslot⟩ := Option.bind_eq_some_iff.1 hphase
  unfold slotCall at hslot
  split_ifs at hslot with hkey
  refine ⟨call, hcall, hkey, ?_⟩
  cases hdone : call.phase with
  | missed descriptor | authorised descriptor evaluation | acted response => rfl
  | done result =>
    rw [hdone] at hslot
    cases result with
    | ok response | error error =>
      cases hslot
      rcases hkind with hkind | ⟨_, hkind⟩ <;> cases hkind

/-! ## Calls that do not overlap -/

/-- No call with the key is admitted while another one is under way. -/
def NoOverlap (key : ReplayKey) (s : State) : Label → Prop
  | .lookup _ invocation view => invocation.key = some key →
      (admission view invocation).isOk = true → ∀ m call, s.calls m = some call →
        call.invocation.key = some key → call.phase.isUnderWay = false
  | _ => True

theorem slot_step_setCall (hbefore : ∀ call, s.calls n = some call → call.invocation = invocation)
    (hown : invocation.key = some key →
      (slot key s).Step ((slot key s).setCall n (memoPhase phase))) :
    (slot key s).Step (slot key (s.setCall n invocation phase)) := by
  by_cases hkey : invocation.key = some key
  · rw [slot_setCall hkey]
    exact hown hkey
  · rw [slot_setCall_of_ne hkey fun call hcall => by rwa [hbefore call hcall]]
    exact .stay

theorem slot_step (h : StepTo service s a s') (hoverlap : s.NoOverlap key a)
    (hexpire : a ≠ .expire key) : (slot key s).Step (slot key s') := by
  cases h with
  | refused n invocation view error fresh =>
    refine slot_step_setCall (by simp [fresh]) fun _ => ?_
    exact .refuse n (slot_calls_fresh fresh)
  | replayed n invocation view found cached fresh hfound hcached =>
    refine slot_step_setCall (by simp [fresh]) fun hkey => ?_
    rw [hfound] at hkey
    cases hkey
    exact .hit n cached (slot_calls_fresh fresh) hcached
  | missed n invocation view descriptor fresh admitted nothing =>
    refine slot_step_setCall (by simp [fresh]) fun hkey => ?_
    refine .miss n (slot_calls_fresh fresh) (nothing key hkey) fun m hm => ?_
    obtain ⟨call, hcall, hcallKey, hway⟩ := isUnderWay_of_inFlight hm
    have hadmit : (admission view invocation).isOk = true := by
      rw [admitted]
      rfl
    rw [hoverlap hkey hadmit m call hcall hcallKey] at hway
    cases hway
  | denied n database env invocation descriptor error before =>
    refine slot_step_setCall (by simp [before]) fun hkey => ?_
    exact .fail n (slot_calls_of_key before hkey)
  | authorised n database env invocation descriptor evaluation before _ =>
    refine slot_step_setCall (by simp [before]) fun hkey => ?_
    have hsame : (slot key s).setCall n .pending = slot key s := by
      unfold Memo.setCall
      rw [update_eq_self_iff.2 (slot_calls_of_key before hkey).symm]
    rw [memoPhase, hsame]
    exact .stay
  | acted n env invocation descriptor evaluation result approvals effects before hact =>
    obtain ⟨hone, hzero⟩ := act_successes hact
    by_cases hkey : invocation.key = some key
    · rw [slot_setCall hkey, slot_logged, countP_succeeds hkey]
      cases result with
      | ok response => exact .act n response _ (slot_calls_of_key before hkey) hone
      | error error =>
        rw [hzero error rfl]
        exact .fail n (slot_calls_of_key before hkey)
    · rw [slot_setCall_of_ne hkey (by simp [logged, before, hkey]), slot_logged,
        countP_succeeds_of_ne (by simpa using hkey)]
      exact .stay
  | inserted n invocation response before =>
    by_cases hkey : invocation.key = some key
    · rw [slot_setCall hkey]
      have hput : slot key { s with cache := s.cache.put invocation.key response } =
          { slot key s with recorded := some response } := by
        simp [slot, ReplayCache.put, hkey]
      rw [hput]
      exact .record n response (slot_calls_of_key before hkey)
    · have hput : slot key { s with cache := s.cache.put invocation.key response } =
          slot key s := by
        unfold slot ReplayCache.put
        cases hother : invocation.key with
        | none => rfl
        | some other =>
          have hne : key ≠ other := by
            rintro rfl
            exact hkey hother
          simp [update_of_ne hne]
      rw [slot_setCall_of_ne hkey (by simp [before, hkey]), hput]
      exact .stay
  | approved view database env approver id approvals effects =>
    rw [slot_logged, countP_succeeds_of_ne (fun _ h => by cases h)]
    exact .stay
  | expired other =>
    have hne : key ≠ other := by
      rintro rfl
      exact hexpire rfl
    have hsame : slot key { s with cache := Function.update s.cache other none } = slot key s := by
      simp [slot, update_of_ne hne]
    rw [hsame]
    exact .stay

/-- Without overlapping calls of a key and its expiry, one call of it succeeds, and all have its
answer. -/
theorem one_success_per_key (service : Service) (approvals : ApprovalStore) (key : ReplayKey)
    (as : List Label) (t : State)
    (hrun : (machine service).exec (initial approvals) as = some t)
    (hexpire : .expire key ∉ as)
    (hmeets : (machine service).Meets (NoOverlap key) (initial approvals) as) :
    t.log.countP (Entry.succeeds key) ≤ 1 ∧ ∀ n m invocation invocation' response response',
        t.calls n = some ⟨invocation, .done (.ok response)⟩ → invocation.key = some key →
        t.calls m = some ⟨invocation', .done (.ok response')⟩ → invocation'.key = some key →
        response = response' := by
  have honce : (slot key t).Once := by
    refine Machine.invariant_of_meets (machine service) (I := fun s => (slot key s).Once)
      (C := fun s a => s.NoOverlap key a ∧ a ≠ .expire key) ?_ Memo.once_initial
      (hmeets.and_forall _ fun a ha heq => hexpire (heq ▸ ha)) hrun
    intro s a s' hs hC hstep
    exact hs.step (slot_step (stepTo_of_step hstep) hC.1 hC.2)
  refine ⟨honce.successes_le_one, ?_⟩
  intro n m invocation invocation' response response' hn hkey hm hkey'
  exact honce.returned_eq (slot_calls_of_key hn hkey) (slot_calls_of_key hm hkey')

/-! ## Where a payload comes from -/

/-- The call was looked up and admitted with the descriptor. -/
def Admitted (as : List Label) (n : ℕ) (invocation : Invocation)
    (descriptor : WorkbenchActionDescriptor) : Prop :=
  ∃ view, .lookup n invocation view ∈ as ∧ admission view invocation = .ok descriptor

/-- The policy in force when the call was evaluated did not deny its own input. -/
def Permitted (service : Service) (as : List Label) (n : ℕ) (invocation : Invocation)
    (descriptor : WorkbenchActionDescriptor) : Prop :=
  service.policyEvaluator = true → ∃ database env, .evaluate n database env ∈ as ∧
    Permits service.primitives database service.gadgetCatalog invocation.actor.tenantId
      (invocation.scopes.map Scope.asStr) descriptor invocation.request.args

/-- The payload is what a dispatch by the call returned, with its own arguments, after it was
admitted and permitted. -/
def Vouched (service : Service) (as : List Label) (log : List Entry) (n : ℕ)
    (invocation : Invocation) (payload : Json) : Prop :=
  ∃ descriptor gadgetName context, Admitted as n invocation descriptor ∧
    Permitted service as n invocation descriptor ∧ service.gadgetOf descriptor = some gadgetName ∧
    ⟨some (n, invocation), .dispatched context gadgetName invocation.request.args (.ok payload)⟩ ∈
      log

/-- The payload is vouched for by the call itself or by a call with the same key. -/
def Served (service : Service) (as : List Label) (log : List Entry) (n : ℕ)
    (invocation : Invocation) (payload : Json) : Prop :=
  ∃ m source, (m = n ∧ source = invocation ∨
      ∃ key, invocation.key = some key ∧ source.key = some key) ∧
    Vouched service as log m source payload

def PhaseVouched (service : Service) (as : List Label) (log : List Entry) (n : ℕ)
    (invocation : Invocation) : Phase → Prop
  | .missed descriptor => Admitted as n invocation descriptor
  | .authorised descriptor _ => Admitted as n invocation descriptor ∧
      Permitted service as n invocation descriptor
  | .acted response => ∀ payload, response.payload = some payload →
      Vouched service as log n invocation payload
  | .done (.ok response) => ∀ payload, response.payload = some payload →
      Served service as log n invocation payload
  | .done (.error _) => True

/-- What is known after the steps `as`. -/
structure AllVouched (service : Service) (as : List Label) (s : State) : Prop where
  calls : ∀ n call, s.calls n = some call →
    PhaseVouched service as s.log n call.invocation call.phase
  cache : ∀ key response, s.cache key = some response → ∀ payload,
    response.payload = some payload →
    ∃ m source, source.key = some key ∧ Vouched service as s.log m source payload

section

variable {as : List Label} {log : List Entry} {n : ℕ} {invocation : Invocation}
  {descriptor : WorkbenchActionDescriptor} {payload : Json}

theorem Admitted.append (h : Admitted as n invocation descriptor) (bs : List Label) :
    Admitted (as ++ bs) n invocation descriptor := by
  obtain ⟨view, hmem, hadmit⟩ := h
  exact ⟨view, mem_append_left bs hmem, hadmit⟩

theorem Permitted.append (h : Permitted service as n invocation descriptor) (bs : List Label) :
    Permitted service (as ++ bs) n invocation descriptor := by
  intro hpolicy
  obtain ⟨database, env, hmem, hpermits⟩ := h hpolicy
  exact ⟨database, env, mem_append_left bs hmem, hpermits⟩

theorem Vouched.append (h : Vouched service as log n invocation payload) (bs : List Label)
    (entries : List Entry) : Vouched service (as ++ bs) (log ++ entries) n invocation payload := by
  obtain ⟨descriptor, gadgetName, context, hadmitted, hpermitted, hgadget, hmem⟩ := h
  exact ⟨descriptor, gadgetName, context, hadmitted.append bs, hpermitted.append bs, hgadget,
    mem_append_left entries hmem⟩

theorem Served.append (h : Served service as log n invocation payload) (bs : List Label)
    (entries : List Entry) : Served service (as ++ bs) (log ++ entries) n invocation payload := by
  obtain ⟨m, source, hsource, hvouched⟩ := h
  exact ⟨m, source, hsource, hvouched.append bs entries⟩

theorem PhaseVouched.append {phase : Phase} (h : PhaseVouched service as log n invocation phase)
    (bs : List Label) (entries : List Entry) :
    PhaseVouched service (as ++ bs) (log ++ entries) n invocation phase := by
  cases phase with
  | missed descriptor => exact Admitted.append h bs
  | authorised descriptor evaluation => exact ⟨h.1.append bs, h.2.append bs⟩
  | acted response => exact fun payload hpayload => (h payload hpayload).append bs entries
  | done result =>
    cases result with
    | ok response => exact fun payload hpayload => (h payload hpayload).append bs entries
    | error error => trivial

end

variable {descriptor : WorkbenchActionDescriptor} {evaluation : Option PolicyEvaluation}

theorem permits_of_authorise {database : PolicyDatabase} {env : Environment}
    (hpolicy : service.policyEvaluator = true)
    (h : authorise service database env invocation descriptor = .ok evaluation) :
    Permits service.primitives database service.gadgetCatalog invocation.actor.tenantId
      (invocation.scopes.map Scope.asStr) descriptor invocation.request.args := by
  unfold authorise at h
  rw [if_pos hpolicy] at h
  split at h
  · cases h
  · rename_i first hfirst
    split_ifs at h with hdenied
    exact permits_of_evaluateWorkbenchAction hfirst hdenied

theorem act_payload {env : Environment}
    {approvals approvals' : ApprovalStore} {response : WorkbenchActionResult} {payload : Json}
    (h : act service env invocation descriptor evaluation approvals =
      (.ok response, approvals', effects)) (hpayload : response.payload = some payload) :
    ∃ context gadgetName, service.gadgetOf descriptor = some gadgetName ∧
      .dispatched context gadgetName invocation.request.args (.ok payload) ∈ effects := by
  cases actsTo_of_act h with
  | requested => cases hpayload
  | silent _ hnone =>
    rw [hnone] at hpayload
    cases hpayload
  | dispatched gadgetName content hgadget =>
    cases hpayload
    exact ⟨_, gadgetName, hgadget, mem_singleton_self _⟩

theorem AllVouched.setCall {as : List Label} (hs : AllVouched service as s) (bs : List Label)
    (entries : List Entry)
    (hcalls : s'.calls = Function.update s.calls n (some ⟨invocation, phase⟩))
    (hlog : s'.log = s.log ++ entries)
    (hphase : PhaseVouched service (as ++ bs) (s.log ++ entries) n invocation phase)
    (hcache : ∀ key response, s'.cache key = some response → s.cache key = some response ∨
      ∀ payload, response.payload = some payload →
        ∃ m source, source.key = some key ∧ Vouched service as s.log m source payload) :
    AllVouched service (as ++ bs) s' := by
  refine ⟨fun m call hcall => ?_, fun key response hresponse payload hpayload => ?_⟩
  · rw [hlog]
    by_cases hm : m = n
    · subst hm
      rw [hcalls, update_self] at hcall
      cases hcall
      exact hphase
    · rw [hcalls, update_of_ne hm] at hcall
      exact (hs.calls m call hcall).append bs entries
  · rw [hlog]
    have hsource : ∃ m source, source.key = some key ∧
        Vouched service as s.log m source payload := by
      rcases hcache key response hresponse with hold | hnew
      · exact hs.cache key response hold payload hpayload
      · exact hnew payload hpayload
    obtain ⟨m, source, hkey, hvouched⟩ := hsource
    exact ⟨m, source, hkey, hvouched.append bs entries⟩

theorem allVouched_initial (approvals : ApprovalStore) :
    AllVouched service [] (initial approvals) := by
  refine ⟨fun n call hcall => ?_, fun key response hresponse => ?_⟩
  · cases hcall
  · cases hresponse

theorem AllVouched.step {as : List Label} (hs : AllVouched service as s)
    (h : StepTo service s a s') : AllVouched service (as ++ [a]) s' := by
  have hnil : s.log = s.log ++ [] := (append_nil _).symm
  have hlast : a ∈ as ++ [a] := mem_append_right as (mem_singleton_self a)
  cases h with
  | refused | denied =>
    exact hs.setCall _ [] rfl hnil trivial fun _ _ h => Or.inl h
  | replayed n invocation view key cached fresh hkey found =>
    refine hs.setCall _ [] rfl hnil ?_ fun _ _ h => Or.inl h
    intro payload hpayload
    obtain ⟨m, source, hsource, hvouched⟩ := hs.cache key cached found payload hpayload
    exact ⟨m, source, Or.inr ⟨key, hkey, hsource⟩, hvouched.append _ _⟩
  | missed n invocation view descriptor fresh admitted nothing =>
    exact hs.setCall _ [] rfl hnil ⟨view, hlast, admitted⟩ fun _ _ h => Or.inl h
  | authorised n database env invocation descriptor evaluation before permitted =>
    have hadmitted : Admitted as n invocation descriptor := hs.calls n _ before
    refine hs.setCall _ [] rfl hnil ⟨hadmitted.append _, ?_⟩ fun _ _ h => Or.inl h
    intro hpolicy
    exact ⟨database, env, hlast, permits_of_authorise hpolicy permitted⟩
  | acted n env invocation descriptor evaluation result approvals effects before hact =>
    obtain ⟨hadmitted, hpermitted⟩ := hs.calls n _ before
    refine hs.setCall _ (effects.map fun effect => ⟨some (n, invocation), effect⟩) rfl rfl ?_
      fun _ _ h => Or.inl h
    cases result with
    | error error => trivial
    | ok response =>
      intro payload hpayload
      obtain ⟨context, gadgetName, hgadget, hmem⟩ := act_payload hact hpayload
      refine ⟨descriptor, gadgetName, context, hadmitted.append _, hpermitted.append _, hgadget,
        mem_append_right _ ?_⟩
      exact List.mem_map_of_mem hmem
  | inserted n invocation response before =>
    have hvouched : ∀ payload, response.payload = some payload →
        Vouched service as s.log n invocation payload := hs.calls n _ before
    refine hs.setCall _ [] rfl hnil ?_ ?_
    · intro payload hpayload
      exact ⟨n, invocation, Or.inl ⟨rfl, rfl⟩, (hvouched payload hpayload).append _ _⟩
    · intro key cached hcached
      rcases ReplayCache.put_eq_some hcached with hold | ⟨hkey, rfl⟩
      · exact Or.inl hold
      · exact Or.inr fun payload hpayload => ⟨n, invocation, hkey, hvouched payload hpayload⟩
  | approved view database env approver id approvals effects =>
    refine ⟨fun n call hcall => (hs.calls n call hcall).append _ _, ?_⟩
    intro key response hresponse payload hpayload
    obtain ⟨m, source, hkey, hvouched⟩ := hs.cache key response hresponse payload hpayload
    exact ⟨m, source, hkey, hvouched.append _ _⟩
  | expired other =>
    refine ⟨fun n call hcall => ?_, fun key response hresponse payload hpayload => ?_⟩
    · have hphase := (hs.calls n call hcall).append [.expire other] []
      rwa [append_nil] at hphase
    · have hold : s.cache key = some response := by
        change Function.update s.cache other none key = some response at hresponse
        by_cases hkey : key = other
        · subst hkey
          rw [update_self] at hresponse
          cases hresponse
        · rwa [update_of_ne hkey] at hresponse
      obtain ⟨m, source, hsource, hvouched⟩ := hs.cache key response hold payload hpayload
      have hlater := hvouched.append [.expire other] []
      rw [append_nil] at hlater
      exact ⟨m, source, hsource, hlater⟩

/-- A payload that is returned was made for the call, or for one of its replay key, and is vouched
for. -/
theorem payload_vouched (service : Service) (approvals : ApprovalStore) (as : List Label)
    (t : State) (n : ℕ) (invocation : Invocation) (response : WorkbenchActionResult)
    (payload : Json)
    (hrun : (machine service).exec (initial approvals) as = some t)
    (hreturned : t.calls n = some ⟨invocation, .done (.ok response)⟩)
    (hpayload : response.payload = some payload) : ∃ m source, (m = n ∧ source = invocation ∨
        ∃ key, invocation.key = some key ∧ source.key = some key) ∧
      Vouched service as t.log m source payload := by
  have hall : AllVouched service as t :=
    Machine.history (machine service) (I := AllVouched service) (allVouched_initial approvals)
      (fun _ _ _ _ _ hs hstep => hs.step (stepTo_of_step hstep)) hrun
  exact hall.calls n _ hreturned payload hpayload

end State

/-! ## Runs of two calls -/

section

/-- Wiki edits, which the sample policy lets pass for callers with the scope. -/
def editService : Service :=
  { sampleService with
    gadgetCatalog := some fun _ => some { sampleMetadata with
      effect := .write
      requestedScopes := OrdSet.ofList ["management"] } }

def managerEdit : Invocation where
  actor := ⟨20, 1, some 21⟩
  scopes := [.openAiCompat, .management]
  actionId := "page-delete"
  request := ⟨.string "home", some 9⟩

/-- An edit by a user of tenant `1` without the scope, with the same client invocation id. -/
def userEdit : Invocation where
  actor := ⟨10, 1, some 11⟩
  scopes := [.openAiCompat]
  actionId := "page-delete"
  request := ⟨.string "salaries", some 9⟩

def sampleKey : ReplayKey := ⟨1, "page-delete", 9⟩

def otherEnvironment : Environment := { sampleEnvironment with auditEventId := 5 }

def editResult (env : Environment) : WorkbenchActionResult :=
  okResult env (some (.string "deleted"))

/-- Both calls look up before either has inserted. -/
def overlapping : List Label :=
  [.lookup 0 managerEdit sampleView, .lookup 1 managerEdit sampleView,
    .evaluate 0 samplePolicyDatabase sampleEnvironment,
    .evaluate 1 samplePolicyDatabase otherEnvironment, .act 0 sampleEnvironment,
    .act 1 otherEnvironment, .insert 0, .insert 1]

theorem overlapping_calls_both_dispatch :
    managerEdit.key = some sampleKey ∧ (∀ key, .expire key ∉ overlapping) ∧
      ∃ t, (State.machine editService).exec (State.initial fun _ => none) overlapping = some t ∧
        t.log.countP (Entry.succeeds sampleKey) = 2 ∧
        t.calls 0 = some ⟨managerEdit, .done (.ok (editResult sampleEnvironment))⟩ ∧
        t.calls 1 = some ⟨managerEdit, .done (.ok (editResult otherEnvironment))⟩ ∧
        editResult sampleEnvironment ≠ editResult otherEnvironment := by
  refine ⟨rfl, ?_, _, rfl, rfl, rfl, rfl, ?_⟩
  · intro key hmem
    simp [overlapping] at hmem
  · intro heq
    have hids := congrArg WorkbenchActionResult.auditEventId heq
    revert hids
    decide

def edit : List Label :=
  [.lookup 0 managerEdit sampleView, .evaluate 0 samplePolicyDatabase sampleEnvironment,
    .act 0 sampleEnvironment, .insert 0]

def editEntry : Entry :=
  ⟨some (0, managerEdit), .dispatched (managerEdit.authorisedContext sampleEnvironment)
    "wiki.delete" (.string "home") (.ok (.string "deleted"))⟩

theorem exec_edit :
    ∃ t, (State.machine editService).exec (State.initial fun _ => none) edit = some t ∧
      t.cache sampleKey = some (editResult sampleEnvironment) ∧ t.log = [editEntry] ∧
      t.calls 0 = some ⟨managerEdit, .done (.ok (editResult sampleEnvironment))⟩ ∧
      ∀ m, t.calls (m + 1) = none :=
  ⟨_, rfl, rfl, rfl, rfl, fun _ => rfl⟩

/-- The manager's call, and then a call that only looks up. -/
def editThen (invocation : Invocation) : List Label :=
  edit ++ [.lookup 1 invocation sampleView]

theorem exec_editThen (invocation : Invocation) (hkey : invocation.key = some sampleKey)
    (hadmitted : admission sampleView invocation = .ok sampleDescriptor) :
    ∃ t, (State.machine editService).exec (State.initial fun _ => none) (editThen invocation) =
        some t ∧ t.log = [editEntry] ∧
      t.calls 0 = some ⟨managerEdit, .done (.ok (editResult sampleEnvironment))⟩ ∧
      t.calls 1 = some ⟨invocation, .done (.ok (editResult sampleEnvironment))⟩ := by
  obtain ⟨s, hrun, hcache, hlog, hfirst, hrest⟩ := exec_edit
  have hstep : (State.machine editService).step s (.lookup 1 invocation sampleView) =
      some (s.setCall 1 invocation (.done (.ok (editResult sampleEnvironment)))) := by
    have hcached : invocation.key.bind s.cache = some (editResult sampleEnvironment) := by
      rw [hkey]
      exact hcache
    simp only [State.step, hrest 0, hadmitted, hcached]
  refine ⟨_, (Machine.exec_append_eq_some _).2 ⟨s, hrun,
    (Machine.exec_cons_eq_some _).2 ⟨_, hstep, rfl⟩⟩, hlog, ?_, State.setCall_calls_self ..⟩
  rw [State.setCall_calls_of_ne s _ _ Nat.zero_ne_one]
  exact hfirst

theorem meets_editThen (invocation : Invocation) :
    (State.machine editService).Meets (State.NoOverlap sampleKey) (State.initial fun _ => none)
      (editThen invocation) := by
  obtain ⟨s, hrun, -, -, hfirst, hrest⟩ := exec_edit
  refine .append _ ?_ hrun ⟨fun _ _ m call hcall _ => ?_, fun _ _ => trivial⟩
  · refine ⟨fun _ _ m call hcall => ?_, fun _ _ => ?_⟩
    · cases hcall
    · exact ⟨trivial, fun _ _ => ⟨trivial, fun _ _ => ⟨trivial, fun _ _ => trivial⟩⟩⟩
  · rcases m with _ | m
    · rw [hfirst] at hcall
      cases hcall
      rfl
    · rw [hrest m] at hcall
      cases hcall

theorem sequential_call_replayed :
    ∃ t, (State.machine editService).exec (State.initial fun _ => none) (editThen managerEdit) =
        some t ∧ t.log.countP (Entry.succeeds sampleKey) ≤ 1 ∧
      ∃ response, t.calls 1 = some ⟨managerEdit, .done (.ok response)⟩ ∧
        editResult sampleEnvironment = response := by
  obtain ⟨t, hrun, -, hfirst, hsecond⟩ := exec_editThen managerEdit rfl rfl
  obtain ⟨hone, hsame⟩ := State.one_success_per_key editService (fun _ => none) sampleKey
    (editThen managerEdit) t hrun (by simp [editThen, edit]) (meets_editThen managerEdit)
  exact ⟨t, hrun, hone, _, hsecond, hsame 0 1 _ _ _ _ hfirst rfl hsecond rfl⟩

theorem replayed_payload_of_another_call :
    ∃ t response, (State.machine editService).exec (State.initial fun _ => none)
        (editThen userEdit) = some t ∧ t.calls 1 = some ⟨userEdit, .done (.ok response)⟩ ∧
      response.payload = some (.string "deleted") ∧
      (∀ entry ∈ t.log, ∀ context gadgetName args result,
        entry.effect = .dispatched context gadgetName args result → args ≠ userEdit.request.args) ∧
      ∃ detail, authorise editService samplePolicyDatabase sampleEnvironment userEdit
        sampleDescriptor = .error (.policyDenied detail) := by
  obtain ⟨t, hrun, hlog, -, hsecond⟩ := exec_editThen userEdit rfl rfl
  refine ⟨t, _, hrun, hsecond, rfl, ?_, _, rfl⟩
  intro entry hentry context gadgetName args result heffect
  rw [hlog] at hentry
  rcases mem_singleton.1 hentry with rfl
  cases heffect
  intro hargs
  have hpage : "home" = "salaries" := Json.string.inj hargs
  revert hpage
  decide

theorem replayed_payload_from_manager :
    ∃ t, (State.machine editService).exec (State.initial fun _ => none) (editThen userEdit) =
        some t ∧ ∃ m source, (m = 1 ∧ source = userEdit ∨
          ∃ key, userEdit.key = some key ∧ source.key = some key) ∧
        State.Vouched editService (editThen userEdit) t.log m source (.string "deleted") := by
  obtain ⟨t, hrun, -, -, hsecond⟩ := exec_editThen userEdit rfl rfl
  exact ⟨t, hrun, State.payload_vouched editService (fun _ => none) (editThen userEdit) t 1 userEdit
    (editResult sampleEnvironment) (.string "deleted") hrun hsecond rfl⟩

theorem invoke_eq_exec_edit : State.Completes editService sampleView samplePolicyDatabase
    sampleEnvironment userEdit 1 [] (invoke editService sampleView samplePolicyDatabase
      sampleEnvironment (fun _ => none) (fun _ => none) userEdit) (.initial fun _ => none) :=
  State.invoke_eq_exec _ _ _ _ _ _ 1 rfl

end

end Gadgetron.Workbench
