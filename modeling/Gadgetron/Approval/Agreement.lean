import Gadgetron.Approval.Wait

/-!
# Calls agree with approvals

A waiting call is dispatched once if its request is approved and not otherwise, in every run in
which no request is approved on which Penny's loop gives up or has given up.
-/

namespace Gadgetron.Approval

open Lib Policy Function

/-- The caller whose loop gives up without resolving the request. -/
def Caller.isPenny : Caller → Bool
  | .penny .. => true
  | .gateway .. => false

def Phase.Fits (caller : Caller) (request : ApprovalRequest) : Phase → Prop
  | .looping | .sleeping _ | .expiring | .marking => True
  | .fetching | .dispatched => request.state = .approved
  | .released approved => approved = request ∧ request.state = .approved
  | .refused _ =>
    request.state ≠ .approved ∧ (caller.isPenny = false → request.state ≠ .pending)

structure Waiter.Holds (P : Primitives) (database : PolicyDatabase) (id : Uuid) (waiter : Waiter)
    (request : ApprovalRequest) : Prop where
  held : waiter.caller.isHeld P database = true
  terms : ∃ now, request.terms = waiter.caller.request now id
  fits : waiter.phase.Fits waiter.caller request

section

variable {P : Primitives} {database : PolicyDatabase} {id eventId : Uuid} {waiter : Waiter}
  {request : ApprovalRequest}

section

variable (h : waiter.Holds P database id request)
include h

theorem Waiter.Holds.tenantId_eq :
    request.tenantId = waiter.caller.timeoutActor.tenantId := by
  obtain ⟨now, hterms⟩ := h.terms
  have htenant : request.terms.tenantId = (waiter.caller.request now id).tenantId := by rw [hterms]
  apply htenant.trans
  cases waiter.caller with
  | penny | gateway => rfl

theorem Waiter.Holds.resume_eq :
    waiter.caller.resume P database eventId id request = .dispatched := by
  obtain ⟨now, hterms⟩ := h.terms
  have hheld := h.held
  cases hcaller : waiter.caller with
  | penny actor toolName args => rfl
  | gateway call first =>
    rw [hcaller] at hterms hheld
    have hbinding : request.policyBinding = some (approvalBinding first) :=
      show request.terms.policyBinding = _ by rw [hterms]; rfl
    simp only [Caller.isHeld] at hheld
    split at hheld
    · rename_i evaluation heval
      obtain ⟨rfl, hpending⟩ := of_decide_eq_true hheld
      have hdecision : evaluation.trace.decision = .review :=
        authorizationFor_eq_pendingReview ((evaluateGadget_authorization heval).symm.trans hpending)
      have hresumed : call.evaluate P database eventId ⟨.reviewResume, some id, .approved⟩ =
          .ok ⟨eventId, evaluation.trace, .approvedReview⟩ := by
        have := evaluateGadget_approved .reviewResume id eventId heval
        rw [hdecision] at this
        exact this
      simp only [Caller.resume, hbinding, hresumed, ne_eq, not_true_eq_false, if_false]
      rfl
    · cases hheld

theorem Waiter.Holds.advance {now : ℕ} {store store' : ApprovalStore} {phase : Phase}
    (hstore : store id = some request)
    (hlate : waiter.caller.isPenny = true → waiter.phase = .looping → waiter.deadline ≤ now →
      request.state ≠ .approved)
    (hstep : waiter.advance P database now store id eventId = some (phase, store')) :
    ∃ request', store' id = some request' ∧
      ({ waiter with phase } : Waiter).Holds P database id request' := by
  have hget : store.get id = .ok request := by
    unfold ApprovalStore.get
    rw [hstore]
  have keep : ∀ phase : Phase, phase.Fits waiter.caller request → store' = store →
      ∃ request', store' id = some request' ∧
        ({ waiter with phase } : Waiter).Holds P database id request' := by
    rintro phase hfits rfl
    exact ⟨request, hstore, h.held, h.terms, hfits⟩
  have hfits := h.fits
  unfold Waiter.advance at hstep
  cases hphase : waiter.phase with
  | looping =>
    simp only [hphase] at hstep
    split_ifs at hstep with hdeadline
    · cases hstep
      refine keep _ ?_ rfl
      cases hcaller : waiter.caller with
      | penny actor toolName args =>
        exact ⟨hlate (by rw [hcaller]; rfl) hphase hdeadline, nofun⟩
      | gateway call first => trivial
    · cases hstep
      exact keep _ trivial rfl
  | sleeping wakeAt =>
    simp only [hphase, hget] at hstep
    split_ifs at hstep
    cases hstep
    refine keep _ ?_ rfl
    cases hcaller : waiter.caller with
    | penny | gateway =>
      cases hstate : request.state <;> simp [Caller.afterPoll, hstate, Phase.Fits]
  | expiring =>
    simp only [hphase, hget] at hstep
    cases hstep
    refine keep _ ?_ rfl
    cases hstate : request.state <;> simp [afterExpiryGet, hstate, Phase.Fits]
  | marking =>
    simp only [hphase, ApprovalStore.markDenied, ApprovalStore.resolveWith, hstore,
      h.tenantId_eq, ne_eq, not_true_eq_false, if_false] at hstep
    cases hstate : request.state with
    | pending =>
      simp only [hstate, not_true_eq_false, if_false] at hstep
      cases hstep
      refine ⟨_, update_self .., h.held, h.terms, ?_⟩
      simp [Phase.Fits, ApprovalStore.deniedBy]
    | approved | denied =>
      simp only [hstate, reduceCtorEq, not_false_eq_true, if_true, afterMarkError] at hstep
      cases hstep
      refine keep _ ?_ rfl
      simp [Phase.Fits, hstate]
  | fetching =>
    simp only [hphase, hget] at hstep
    cases hstep
    rw [hphase] at hfits
    exact keep _ ⟨rfl, hfits⟩ rfl
  | released approved =>
    rw [hphase] at hfits
    simp only [hphase, hfits.1, h.resume_eq] at hstep
    cases hstep
    exact keep _ hfits.2 rfl
  | dispatched | refused =>
    simp only [hphase] at hstep
    cases hstep

end

end

namespace State

variable {P : Primitives} {database : PolicyDatabase} {s s' : State} {a : Label} {id : Uuid}

/-! ## Calls and approvals agree -/

/-- Penny's loop does not give up on an approved request, and no request on which it has given up is
approved. -/
def NoLateApproval (id : Uuid) (s : State) : Label → Prop
  | .advance id' _ => id' = id → ∀ waiter request, s.waiters id = some waiter →
      s.store id = some request → waiter.caller.isPenny = true → waiter.phase = .looping →
      waiter.deadline ≤ s.now → request.state ≠ .approved
  | .approve id' approver => id' = id → ∀ waiter request error, s.waiters id = some waiter →
      s.store id = some request → waiter.caller.isPenny = true → waiter.phase = .refused error →
      request.state = .pending → request.tenantId ≠ approver.tenantId
  | _ => True

structure Agrees (P : Primitives) (database : PolicyDatabase) (id : Uuid) (s : State) : Prop where
  idle : s.waiters id = none → s.dispatchesOf id = []
  waiting : ∀ waiter, s.waiters id = some waiter → ∃ request, s.store id = some request ∧
    waiter.Holds P database id request ∧
    s.dispatchesOf id = waiter.phase.calls (waiter.caller.dispatch id)

theorem agrees_initial (now : ℕ) (store : ApprovalStore) :
    (initial now store).Agrees P database id := by
  refine ⟨fun _ => rfl, fun waiter hw => ?_⟩
  cases hw

theorem calls_eq_nil_of_advance {waiter : Waiter} {now : ℕ} {store : ApprovalStore}
    {eventId : Uuid} {result : Phase × ApprovalStore} (dispatch : Dispatch)
    (h : waiter.advance P database now store id eventId = some result) :
    waiter.phase.calls dispatch = [] := by
  unfold Waiter.advance at h
  cases hphase : waiter.phase with
  | dispatched =>
    simp only [hphase] at h
    cases h
  | looping | sleeping wakeAt | expiring | marking | fetching | released approved | refused error =>
    rfl

theorem Fits.resolved {caller : Caller} {phase : Phase} {entry entry' : ApprovalRequest}
    (hfits : phase.Fits caller entry) (hpending : entry.state = .pending)
    (hlate : ∀ error, caller.isPenny = true → phase = .refused error →
      entry'.state ≠ .approved) : phase.Fits caller entry' := by
  cases phase with
  | looping | sleeping wakeAt | expiring | marking => trivial
  | fetching | dispatched =>
    have happroved : entry.state = .approved := hfits
    rw [hpending] at happroved
    cases happroved
  | released approved =>
    have happroved : entry.state = .approved := hfits.2
    rw [hpending] at happroved
    cases happroved
  | refused error =>
    cases hcaller : caller.isPenny with
    | false => exact absurd hpending (hfits.2 hcaller)
    | true => exact ⟨hlate error hcaller rfl, fun h => by rw [hcaller] at h; cases h⟩

theorem Agrees.step (hs : s.Agrees P database id) (hlate : s.NoLateApproval id a)
    (h : (machine P database).step s a = some s') : s'.Agrees P database id := by
  cases step_change id h with
  | same hwaiter hrecord hcalls =>
    refine ⟨fun hnone => ?_, fun waiter hw => ?_⟩
    · rw [hcalls]
      exact hs.idle (hwaiter.symm.trans hnone)
    · rw [hcalls, hrecord]
      exact hs.waiting waiter (hwaiter.symm.trans hw)
  | resolved hwaiter hcalls entry entry' hbefore hpending hafter hterms happroved =>
    refine ⟨fun hnone => ?_, fun waiter hw => ?_⟩
    · rw [hcalls]
      exact hs.idle (hwaiter.symm.trans hnone)
    · rw [hwaiter] at hw
      obtain ⟨request, hrequest, hholds, hlog⟩ := hs.waiting waiter hw
      rw [hbefore] at hrequest
      cases hrequest
      refine ⟨entry', hafter, ⟨hholds.held, ?_, ?_⟩, by rw [hcalls, hlog]⟩
      · obtain ⟨now, hnow⟩ := hholds.terms
        exact ⟨now, hterms.trans hnow⟩
      · refine Fits.resolved hholds.fits hpending ?_
        intro error hpenny hphase hstate
        obtain ⟨approver, rfl, htenant⟩ := happroved hstate
        exact hlate rfl waiter entry error hw hbefore hpenny hphase hpending htenant
  | created caller hheld hfresh hwaiter hrecord hcalls =>
    have hidle : s.waiters id = none := by
      cases hw : s.waiters id with
      | none => rfl
      | some waiter =>
        obtain ⟨request, hrequest, -⟩ := hs.waiting waiter hw
        rw [hfresh] at hrequest
        cases hrequest
    refine ⟨fun hnone => ?_, fun waiter hw => ?_⟩
    · rw [hwaiter] at hnone
      cases hnone
    · rw [hwaiter] at hw
      cases hw
      exact ⟨_, hrecord, ⟨hheld, ⟨s.now, caller.request_terms s.now id⟩, trivial⟩,
        hcalls.trans (hs.idle hidle)⟩
  | advanced waiter eventId phase store hlabel hbefore hadvance hafter =>
    obtain ⟨request, hrequest, hholds, hlog⟩ := hs.waiting waiter hbefore
    rw [hlabel] at hlate
    obtain ⟨request', hrequest', hholds'⟩ := hholds.advance hrequest
      (hlate rfl waiter request hbefore hrequest) hadvance
    have hw' : s'.waiters id = some { waiter with phase } := by
      rw [hafter]
      exact update_self ..
    refine ⟨fun hnone => ?_, fun waiter' hwaiter' => ?_⟩
    · rw [hw'] at hnone
      cases hnone
    · rw [hw'] at hwaiter'
      cases hwaiter'
      refine ⟨request', by rw [hafter]; exact hrequest', hholds', ?_⟩
      rw [hafter, dispatchesOf_advanced, hlog, calls_eq_nil_of_advance _ hadvance, List.nil_append]

end State

/-! ## A waiter ends -/

def Phase.isEnd : Phase → Bool
  | .dispatched | .refused _ => true
  | _ => false

def Phase.rank (deadline now : ℕ) : Phase → ℕ
  | .looping => 9 + 2 * (deadline - now)
  | .sleeping wakeAt => 10 + 2 * (deadline - wakeAt)
  | .expiring => 4
  | .marking => 3
  | .fetching => 2
  | .released _ => 1
  | .dispatched | .refused _ => 0

/-- The clock or the waiter of the approval goes on. -/
def Label.OfWaiter (id : Uuid) : Label → Prop
  | .tick _ => True
  | .advance id' _ => id' = id
  | _ => False

section

variable {P : Primitives} {database : PolicyDatabase} {id eventId : Uuid} {waiter : Waiter}
  {now deadline : ℕ} {store store' : ApprovalStore} {phase : Phase}

theorem Caller.rank_afterPoll (caller : Caller) (record : Except ApprovalError ApprovalRequest) :
    (caller.afterPoll record).rank deadline now ≤ 9 + 2 * (deadline - now) := by
  unfold Caller.afterPoll
  split
  · exact Nat.zero_le _
  · exact Nat.zero_le _
  · split <;> simp only [Phase.rank] <;> omega
  · split <;> simp only [Phase.rank] <;> omega

theorem rank_afterExpiryGet (record : Except ApprovalError ApprovalRequest) :
    (afterExpiryGet record).rank deadline now < 4 := by
  unfold afterExpiryGet
  split
  · simp [Phase.rank]
  · split <;> simp [Phase.rank]

theorem rank_afterMarkError (error : ApprovalError) :
    (afterMarkError error).rank deadline now < 3 := by
  unfold afterMarkError
  split <;> simp [Phase.rank]

theorem rank_afterFetch (record : Except ApprovalError ApprovalRequest) :
    (afterFetch record).rank deadline now < 2 := by
  unfold afterFetch
  split <;> simp [Phase.rank]

theorem Caller.rank_resume (caller : Caller) (approved : ApprovalRequest) :
    (caller.resume P database eventId id approved).rank deadline now = 0 := by
  cases caller with
  | penny actor toolName args => rfl
  | gateway call first =>
    unfold Caller.resume
    dsimp only
    split_ifs
    · rfl
    · split
      · rfl
      · split_ifs <;> rfl

theorem Waiter.rank_advance
    (h : waiter.advance P database now store id eventId = some (phase, store')) :
    phase.rank waiter.deadline now < waiter.phase.rank waiter.deadline now := by
  unfold Waiter.advance at h
  cases hphase : waiter.phase with
  | looping =>
    simp only [hphase] at h
    split_ifs at h with hdeadline
    · cases h
      cases waiter.caller <;> simp only [Caller.atDeadline, Phase.rank] <;> omega
    · cases h
      have hpoll := waiter.caller.poll_pos
      simp only [Phase.rank]
      omega
  | sleeping wakeAt =>
    simp only [hphase] at h
    split_ifs at h with hwake
    cases h
    refine Nat.lt_of_le_of_lt (Caller.rank_afterPoll ..) ?_
    simp only [Phase.rank]
    omega
  | expiring =>
    simp only [hphase] at h
    cases h
    exact rank_afterExpiryGet _
  | marking =>
    simp only [hphase] at h
    split at h
    · cases h
      exact Nat.succ_pos 2
    · cases h
      exact rank_afterMarkError _
  | fetching =>
    simp only [hphase] at h
    cases h
    exact rank_afterFetch _
  | released approved =>
    simp only [hphase] at h
    cases h
    rw [Caller.rank_resume]
    exact Nat.one_pos
  | dispatched | refused error =>
    simp only [hphase] at h
    cases h

theorem Waiter.exists_advance (P : Primitives) (database : PolicyDatabase) (store : ApprovalStore)
    (id eventId : Uuid) (hend : waiter.phase.isEnd = false)
    (hawake : ∀ wakeAt, waiter.phase = .sleeping wakeAt → wakeAt ≤ now) :
    ∃ phase store', waiter.advance P database now store id eventId = some (phase, store') := by
  unfold Waiter.advance
  cases hphase : waiter.phase with
  | looping =>
    dsimp only
    split_ifs
    · exact ⟨_, _, rfl⟩
    · exact ⟨_, _, rfl⟩
  | sleeping wakeAt =>
    dsimp only
    rw [if_pos (hawake wakeAt hphase)]
    exact ⟨_, _, rfl⟩
  | marking =>
    dsimp only
    split
    · exact ⟨_, _, rfl⟩
    · exact ⟨_, _, rfl⟩
  | expiring | fetching | released approved => exact ⟨_, _, rfl⟩
  | dispatched | refused error =>
    rw [hphase] at hend
    cases hend

end

namespace State

variable {P : Primitives} {database : PolicyDatabase} {s s' : State} {id : Uuid} {waiter : Waiter}

variable {store : ApprovalStore}

theorem step_advance {phase : Phase} {eventId : Uuid} (hwaiter : s.waiters id = some waiter)
    (h : waiter.advance P database s.now s.store id eventId = some (phase, store)) :
    (machine P database).step s (.advance id eventId) =
      some (s.advanced id waiter phase store) := by
  simp only [step, hwaiter, h]

def rank (id : Uuid) (s : State) : ℕ :=
  match s.waiters id with
  | some waiter => waiter.phase.rank waiter.deadline s.now
  | none => 0

section

variable (hwaiter : s.waiters id = some waiter)
include hwaiter

theorem rank_advanced {phase : Phase} {eventId : Uuid}
    (h : waiter.advance P database s.now s.store id eventId = some (phase, store)) :
    rank id (s.advanced id waiter phase store) < rank id s := by
  have hadvanced : (s.advanced id waiter phase store).waiters id =
      some { waiter with phase } := update_self ..
  unfold rank
  rw [hadvanced, hwaiter]
  exact Waiter.rank_advance h

theorem exists_lower_rank (hend : waiter.phase.isEnd = false) :
    ∃ as s', (∀ a ∈ as, Label.OfWaiter id a) ∧ (machine P database).exec s as = some s' ∧
      (∃ waiter', s'.waiters id = some waiter') ∧ rank id s' < rank id s := by
  -- the time until the waiter wakes
  obtain ⟨ms, hawake, hrank⟩ : ∃ ms,
      (∀ wakeAt, waiter.phase = .sleeping wakeAt → wakeAt ≤ s.now + ms) ∧
      rank id { s with now := s.now + ms } ≤ rank id s := by
    cases hphase : waiter.phase with
    | sleeping wakeAt =>
      refine ⟨wakeAt, ?_, ?_⟩
      · rintro _ ⟨⟩
        omega
      · simp only [rank, hwaiter, hphase, Phase.rank, Nat.le_refl]
    | looping | expiring | marking | fetching | released approved | dispatched | refused error =>
      exact ⟨0, nofun, Nat.le_refl _⟩
  obtain ⟨phase, store, hadvance⟩ := Waiter.exists_advance P database s.store id 0 hend hawake
  let later : State := { s with now := s.now + ms }
  refine ⟨[.tick ms, .advance id 0], later.advanced id waiter phase store, ?_, ?_, ?_, ?_⟩
  · intro a ha
    rcases List.mem_pair.1 ha with rfl | rfl
    · trivial
    · rfl
  · refine (Machine.exec_cons_eq_some _).2 ⟨later, rfl, ?_⟩
    exact (Machine.exec_cons_eq_some _).2 ⟨_, step_advance hwaiter hadvance, rfl⟩
  · exact ⟨_, update_self ..⟩
  · exact Nat.lt_of_lt_of_le (rank_advanced (s := later) hwaiter hadvance) hrank

theorem waiter_ends :
    ∃ as t waiter', (∀ a ∈ as, Label.OfWaiter id a) ∧ (machine P database).exec s as = some t ∧
      t.waiters id = some waiter' ∧ waiter'.phase.isEnd = true := by
  have hprogress : ∀ s : State, (∃ waiter, s.waiters id = some waiter) →
      (¬ ∃ waiter, s.waiters id = some waiter ∧ waiter.phase.isEnd = true) →
      ∃ as s', (∀ a ∈ as, Label.OfWaiter id a) ∧ (machine P database).exec s as = some s' ∧
        (∃ waiter', s'.waiters id = some waiter') ∧ rank id s' < rank id s := by
    rintro s ⟨waiter, hwaiter⟩ hdone
    cases hend : waiter.phase.isEnd with
    | false => exact exists_lower_rank hwaiter hend
    | true => exact absurd ⟨waiter, hwaiter, hend⟩ hdone
  obtain ⟨as, t, hown, hrun, -, waiter', hwaiter', hend⟩ :=
    Machine.exists_exec_of_rank (machine P database) _ _ _ (rank id) hprogress ⟨waiter, hwaiter⟩
  exact ⟨as, t, waiter', hown, hrun, hwaiter', hend⟩

end

def Stored (id : Uuid) (s : State) : Prop :=
  ∀ waiter, s.waiters id = some waiter → ∃ request, s.store id = some request

theorem Stored.step (hs : s.Stored id) {a : Label} (h : (machine P database).step s a = some s') :
    s'.Stored id ∧ ∀ waiter, s.waiters id = some waiter →
      ∃ waiter', s'.waiters id = some waiter' ∧ waiter'.caller = waiter.caller := by
  cases step_change id h with
  | same hwaiter hrecord _ =>
    refine ⟨fun waiter hw => ?_, fun waiter hw => ⟨waiter, hwaiter.trans hw, rfl⟩⟩
    rw [hrecord]
    exact hs waiter (hwaiter.symm.trans hw)
  | resolved hwaiter _ entry entry' _ _ hafter _ _ =>
    exact ⟨fun _ _ => ⟨entry', hafter⟩, fun waiter hw => ⟨waiter, hwaiter.trans hw, rfl⟩⟩
  | created caller _ hfresh _ hrecord _ =>
    refine ⟨fun _ _ => ⟨_, hrecord⟩, fun waiter hw => ?_⟩
    obtain ⟨request, hrequest⟩ := hs waiter hw
    rw [hfresh] at hrequest
    cases hrequest
  | advanced waiter eventId phase store _ hbefore hadvance hafter =>
    subst hafter
    refine ⟨fun _ _ => ?_, fun waiter' hw => ?_⟩
    · rcases store_advance hadvance with rfl | ⟨denied, hmark⟩
      · exact hs waiter hbefore
      · obtain ⟨entry, -, -, -, -, rfl⟩ := ApprovalStore.resolveWith_eq_ok.1 hmark
        exact ⟨_, update_self ..⟩
    · rw [hbefore] at hw
      cases hw
      exact ⟨_, update_self .., rfl⟩

theorem ended_step (hs : s.Stored id) {a : Label} (hwaiter : s.waiters id = some waiter)
    (hend : waiter.phase.isEnd = true) (h : (machine P database).step s a = some s') :
    s'.waiters id = some waiter ∧ s'.dispatchesOf id = s.dispatchesOf id := by
  cases step_change id h with
  | same hsame _ hcalls | resolved hsame hcalls => exact ⟨hsame.trans hwaiter, hcalls⟩
  | created caller _ hfresh _ _ _ =>
    obtain ⟨request, hrequest⟩ := hs waiter hwaiter
    rw [hfresh] at hrequest
    cases hrequest
  | advanced waiter' eventId phase store _ hbefore hadvance _ =>
    rw [hwaiter] at hbefore
    cases hbefore
    unfold Waiter.advance at hadvance
    cases hphase : waiter.phase with
    | dispatched | refused error =>
      simp only [hphase] at hadvance
      cases hadvance
    | looping | sleeping wakeAt | expiring | marking | fetching | released approved =>
      rw [hphase] at hend
      cases hend

variable {as : List Label}

theorem ended_exec (hs : s.Stored id) (hwaiter : s.waiters id = some waiter)
    (hend : waiter.phase.isEnd = true) (h : (machine P database).exec s as = some s') :
    s'.dispatchesOf id = s.dispatchesOf id := by
  have hstep : ∀ s₁ a s₂, (s₁.Stored id ∧ s₁.waiters id = some waiter ∧
      s₁.dispatchesOf id = s.dispatchesOf id) → (machine P database).step s₁ a = some s₂ →
      s₂.Stored id ∧ s₂.waiters id = some waiter ∧ s₂.dispatchesOf id = s.dispatchesOf id := by
    rintro s₁ a s₂ ⟨hs₁, hwaiter₁, hcalls₁⟩ h₁
    obtain ⟨hwaiter₂, hcalls₂⟩ := ended_step hs₁ hwaiter₁ hend h₁
    exact ⟨(hs₁.step h₁).1, hwaiter₂, hcalls₂.trans hcalls₁⟩
  exact (Machine.invariant (machine P database) hstep ⟨hs, hwaiter, rfl⟩ h).2.2

theorem caller_exec (hs : s.Stored id) (hwaiter : s.waiters id = some waiter)
    (h : (machine P database).exec s as = some s') :
    ∃ waiter', s'.waiters id = some waiter' ∧ waiter'.caller = waiter.caller := by
  have hinv := Machine.invariant (machine P database) (I := fun s => s.Stored id ∧
    ∃ waiter', s.waiters id = some waiter' ∧ waiter'.caller = waiter.caller) ?_
    ⟨hs, waiter, hwaiter, rfl⟩ h
  · exact hinv.2
  · rintro s a s' ⟨hs, waiter₁, hwaiter₁, hcaller₁⟩ hstep
    obtain ⟨hs', hkeep⟩ := hs.step hstep
    obtain ⟨waiter₂, hwaiter₂, hcaller₂⟩ := hkeep waiter₁ hwaiter₁
    exact ⟨hs', waiter₂, hwaiter₂, hcaller₂.trans hcaller₁⟩

theorem meets_of_not_isPenny (hs : s.Stored id) {t : State}
    (h : (machine P database).exec s as = some t) (hwaiter : t.waiters id = some waiter)
    (hcaller : waiter.caller.isPenny = false) :
    (machine P database).Meets (NoLateApproval id) s as := by
  induction as generalizing s with
  | nil => trivial
  | cons a as ih =>
    obtain ⟨s₁, hs₁, hrest⟩ := (Machine.exec_cons_eq_some _).1 h
    refine Machine.Meets.cons _ ?_ hs₁ (ih (hs.step hs₁).1 hrest)
    have hgateway : ∀ waiter₁, s.waiters id = some waiter₁ → waiter₁.caller.isPenny ≠ true := by
      intro waiter₁ hwaiter₁ hpenny
      obtain ⟨waiter₂, hwaiter₂, hcaller₂⟩ := caller_exec hs hwaiter₁ h
      rw [hwaiter] at hwaiter₂
      cases hwaiter₂
      rw [hcaller₂, hpenny] at hcaller
      cases hcaller
    cases a with
    | tick | create | deny => trivial
    | advance id' eventId =>
      intro _ waiter₁ _ hwaiter₁ _ hpenny
      exact absurd hpenny (hgateway waiter₁ hwaiter₁)
    | approve id' approver =>
      intro _ waiter₁ _ _ hwaiter₁ _ hpenny
      exact absurd hpenny (hgateway waiter₁ hwaiter₁)

/-- A call is dispatched once if it is approved, and else not, unless Penny's approval came late. -/
theorem dispatched_iff_approved (P : Primitives) (database : PolicyDatabase) (id : Uuid) (now : ℕ)
    (store : ApprovalStore) (as : List Label) (t : State) (waiter : Waiter)
    (hrun : (machine P database).exec (initial now store) as = some t)
    (hwaiter : t.waiters id = some waiter)
    (hmeets : waiter.caller.isPenny = true →
      (machine P database).Meets (NoLateApproval id) (initial now store) as) :
    ∃ request, t.store id = some request ∧ (t.dispatchesOf id = [] ∨
        t.dispatchesOf id = [waiter.caller.dispatch id] ∧ request.state = .approved) ∧
      (waiter.phase.isEnd = true → t.dispatchesOf id =
        if request.state = .approved then [waiter.caller.dispatch id] else []) ∧
      (request.state ≠ .pending → ∀ bs t', (machine P database).exec t bs = some t' →
        t'.store id = some request) ∧ ∃ bs t' waiter', (∀ b ∈ bs, Label.OfWaiter id b) ∧
        (machine P database).exec t bs = some t' ∧ t'.waiters id = some waiter' ∧
        waiter'.phase.isEnd = true := by
  have hmeets : (machine P database).Meets (NoLateApproval id) (initial now store) as := by
    cases hcaller : waiter.caller.isPenny with
    | true => exact hmeets hcaller
    | false =>
      refine meets_of_not_isPenny ?_ hrun hwaiter hcaller
      intro waiter' hwaiter'
      cases hwaiter'
  have hagrees : t.Agrees P database id :=
    Machine.invariant_of_meets (machine P database)
      (fun _ _ _ hs hlate hstep => hs.step hlate hstep)
      (agrees_initial now store) hmeets hrun
  obtain ⟨request, hrequest, hholds, hlog⟩ := hagrees.waiting waiter hwaiter
  refine ⟨request, hrequest, ?_, ?_, ?_, waiter_ends hwaiter⟩
  · rw [hlog]
    have hfits := hholds.fits
    cases hphase : waiter.phase with
    | dispatched =>
      rw [hphase] at hfits
      exact Or.inr ⟨rfl, hfits⟩
    | looping | sleeping wakeAt | expiring | marking | fetching | released approved
    | refused error => exact Or.inl rfl
  · intro hend
    rw [hlog]
    have hfits := hholds.fits
    cases hphase : waiter.phase with
    | dispatched =>
      rw [hphase] at hfits
      exact (if_pos hfits).symm
    | refused error =>
      rw [hphase] at hfits
      exact (if_neg hfits.1).symm
    | looping | sleeping wakeAt | expiring | marking | fetching | released approved =>
      rw [hphase] at hend
      cases hend
  · intro hstate bs t' hrun'
    exact resolved_exec hrequest hstate hrun'

end State

/-! ## Two runs of Penny's loop -/

section

def sampleCaller : Caller := .penny ⟨0, 1, none⟩ "wiki.write" .null

def sampleOperator : AuthenticatedContext := ⟨5, 1, some 6⟩

/-- Nobody answers for two minutes, the caller gives up, and a second later the request is
approved. -/
def lateApproval : List Label :=
  [.create 7 sampleCaller, .advance 7 0, .tick 120000, .advance 7 0, .advance 7 0, .tick 1000,
    .approve 7 sampleOperator]

theorem late_approval_not_dispatched :
    ∃ t waiter, (State.machine samplePrimitives samplePolicyDatabase).exec
        (State.initial 0 fun _ => none) lateApproval = some t ∧
      t.waiters 7 = some waiter ∧ waiter.phase.isEnd = true ∧
      ∀ bs t', (State.machine samplePrimitives samplePolicyDatabase).exec t bs = some t' →
        (t'.store 7).map ApprovalRequest.state = some .approved ∧ t'.dispatchesOf 7 = [] := by
  refine ⟨_, _, rfl, rfl, rfl, ?_⟩
  intro bs t' hrun
  refine ⟨?_, (State.ended_exec (fun _ _ => ⟨_, rfl⟩) rfl rfl hrun).trans rfl⟩
  rw [State.resolved_exec rfl (by decide) hrun]
  rfl

/-- The request is approved while the caller sleeps. -/
def timelyApproval : List Label :=
  [.create 7 sampleCaller, .advance 7 0, .approve 7 sampleOperator, .tick 1000, .advance 7 0,
    .advance 7 0]

theorem meets_timelyApproval :
    (State.machine samplePrimitives samplePolicyDatabase).Meets (State.NoLateApproval 7)
      (State.initial 0 fun _ => none) timelyApproval := by
  refine Machine.Meets.cons _ trivial rfl (Machine.Meets.cons _ ?_ rfl ?_)
  · rintro - waiter request ⟨⟩ ⟨⟩ - - -
    exact nofun
  refine Machine.Meets.cons _ ?_ rfl (Machine.Meets.cons _ trivial rfl ?_)
  · rintro - waiter request error ⟨⟩ ⟨⟩ - hphase
    cases hphase
  refine Machine.Meets.cons _ ?_ rfl (Machine.Meets.cons _ ?_ rfl trivial)
  all_goals
    rintro - waiter request ⟨⟩ ⟨⟩ - hphase
    cases hphase

theorem timely_approval_dispatched : ∃ t, (State.machine samplePrimitives samplePolicyDatabase).exec
        (State.initial 0 fun _ => none) timelyApproval = some t ∧
      t.dispatchesOf 7 = [sampleCaller.dispatch 7] := by
  refine ⟨_, rfl, ?_⟩
  obtain ⟨request, hrequest, -, hcalls, -⟩ := State.dispatched_iff_approved samplePrimitives
    samplePolicyDatabase 7 0 (fun _ => none) timelyApproval _ _ rfl rfl
    fun _ => meets_timelyApproval
  cases hrequest
  exact hcalls rfl

end

end Gadgetron.Approval
