import Gadgetron.Events.Outbox
import Mathlib.Data.Fintype.EquivFin

/-!
# Events that are delivered

Every lease of an event is an attempt, and there are three of them at most.
-/

namespace Gadgetron.Events

open Lib List Option

inductive Effect (s : EventStore) : EventLabel → EventStore → Prop
  | unchanged (a : EventLabel) (stays : ∀ workerId, a ≠ .crash workerId) : Effect s a s
  | insert (id : Uuid) (key : EventKey) (events : Table KnowledgeEventRow.id)
      (inserted : s.events.insert (.new id key s.now) = some events) :
      Effect s (.enqueue id key) { s with events }
  | lease (workerId : String) (leaseSeconds : ℤ) (locked : List Uuid) (event : KnowledgeEventRow)
      (alive : workerId ∉ s.gone) (mem : event ∈ s.events) (leasable : event.leasable s.now) :
      Effect s (.leaseNext workerId leaseSeconds locked)
        { s with
          events := s.events.put (event.lease s.now workerId leaseSeconds)
          leases := event.id :: s.leases }
  | complete (workerId : String) (sourceId knowledgeJobId : Uuid) (event : KnowledgeEventRow)
      (alive : workerId ∉ s.gone) (mem : event ∈ s.events) (owned : event.ownedBy workerId) :
      Effect s (.complete event.id workerId sourceId knowledgeJobId)
        { s with
          events := s.events.put (event.complete s.now sourceId knowledgeJobId)
          completions := event.id :: s.completions }
  | fail (workerId detail : String) (event : KnowledgeEventRow) (alive : workerId ∉ s.gone)
      (mem : event ∈ s.events) (owned : event.ownedBy workerId) :
      Effect s (.fail event.id workerId detail)
        { s with events := s.events.put (event.fail s.now detail) }
  | mark (event : KnowledgeEventRow) (mem : event ∈ s.events) (unreported : event.unreported) :
      Effect s (.markOversightRecorded event.id)
        { s with events := s.events.put (event.mark s.now) }
  | tick (elapsed : ℕ) : Effect s (.tick elapsed) { s with now := s.now + elapsed }
  | crash (workerId : String) : Effect s (.crash workerId) { s with gone := workerId :: s.gone }

variable {materialized : Uuid → Uuid → Uuid → Bool} {s s' : EventStore} {a : EventLabel}
  {event event' : KnowledgeEventRow}

variable {eventId : Uuid}

theorem find_eq_some {p : KnowledgeEventRow → Bool} :
    s.find eventId p = some event ↔ event ∈ s.events ∧ event.id = eventId ∧ p event := by
  rw [EventStore.find, filter_eq_some_iff, Table.get_eq_some, and_assoc]

theorem step_effect (h : (eventMachine materialized).step s a = some s') : Effect s a s' := by
  cases a with
  | enqueue id key =>
    change s.enqueue id key = some s' at h
    unfold EventStore.enqueue at h
    split_ifs at h
    · cases h
      exact .unchanged _ nofun
    · obtain ⟨events, hinserted, rfl⟩ := map_eq_some_iff.1 h
      exact .insert id key events hinserted
  | leaseNext workerId leaseSeconds locked =>
    obtain ⟨halive, h⟩ := ite_none_left_eq_some.1 h
    cases h
    unfold EventStore.leaseNext
    split
    · exact .unchanged _ nofun
    · rename_i event hcandidate
      obtain ⟨hmem, htest⟩ := Table.first_eq_some hcandidate
      exact .lease _ _ _ event halive hmem (Bool.and_eq_true_iff.1 htest).1
  | complete eventId workerId sourceId knowledgeJobId =>
    obtain ⟨halive, h⟩ := ite_none_left_eq_some.1 h
    split at h
    · cases h
      exact .unchanged _ nofun
    · split_ifs at h
      · cases h
        unfold EventStore.complete
        split
        · exact .unchanged _ nofun
        · rename_i event hfind
          obtain ⟨hmem, rfl, howned⟩ := find_eq_some.1 hfind
          exact .complete _ _ _ event halive hmem howned
      · cases h
        exact .unchanged _ nofun
  | fail eventId workerId detail =>
    obtain ⟨halive, h⟩ := ite_none_left_eq_some.1 h
    cases h
    unfold EventStore.fail
    split
    · exact .unchanged _ nofun
    · rename_i event hfind
      obtain ⟨hmem, rfl, howned⟩ := find_eq_some.1 hfind
      exact .fail _ _ event halive hmem howned
  | markOversightRecorded eventId =>
    cases h
    unfold EventStore.markOversightRecorded
    split
    · exact .unchanged _ nofun
    · rename_i event hfind
      obtain ⟨hmem, rfl, hunreported⟩ := find_eq_some.1 hfind
      exact .mark event hmem hunreported
  | tick elapsed =>
    cases h
    exact .tick elapsed
  | crash workerId =>
    cases h
    exact .crash workerId

/-! ## Attempts and completions -/

structure RowSound (leases completions : List Uuid) (event : KnowledgeEventRow) : Prop where
  attempts : event.attemptCount ≤ maxAttempts
  pending : event.status = .pending → event.attemptCount < maxAttempts
  processing : event.status = .processing → event.leaseOwner.isSome ∧ event.leaseExpiresAt.isSome
  leases : leases.count event.id = event.attemptCount
  completions : completions.count event.id = if event.status = .completed then 1 else 0

/-- All rows agree with what was done, which was about rows of the table. -/
structure Sound (s : EventStore) : Prop where
  rows : ∀ event ∈ s.events, RowSound s.leases s.completions event
  known : ∀ id, id ∈ s.leases ∨ id ∈ s.completions → ∃ event ∈ s.events, event.id = id

theorem RowSound.congr {leases leases' completions completions' : List Uuid}
    (h : RowSound leases completions event)
    (hleases : leases'.count event.id = leases.count event.id)
    (hcompletions : completions'.count event.id = completions.count event.id) :
    RowSound leases' completions' event :=
  ⟨h.attempts, h.pending, h.processing, hleases.trans h.leases, hcompletions.trans h.completions⟩

theorem Sound.put (h : Sound s) (hmem : event ∈ s.events) (hid : event'.id = event.id)
    {leases completions : List Uuid} (hrow : RowSound leases completions event')
    (hleases : leases = s.leases ∨ leases = event.id :: s.leases)
    (hcompletions : completions = s.completions ∨ completions = event.id :: s.completions) :
    Sound { s with
      events := s.events.put event', leases, completions } where
  rows x hx := by
    rcases (Table.mem_put hmem hid.symm).1 hx with rfl | ⟨hold, hne⟩
    · exact hrow
    · rw [hid] at hne
      refine (h.rows x hold).congr ?_ ?_
      · rcases hleases with rfl | rfl
        · rfl
        · exact count_cons_of_ne (Ne.symm hne)
      · rcases hcompletions with rfl | rfl
        · rfl
        · exact count_cons_of_ne (Ne.symm hne)
  known id hmade := by
    have hcase : id = event.id ∨ id ∈ s.leases ∨ id ∈ s.completions := by
      rcases hleases with rfl | rfl <;> rcases hcompletions with rfl | rfl <;>
        simp only [mem_cons] at hmade <;> tauto
    have hcovered : ∀ x ∈ s.events, ∃ y ∈ s.events.put event', y.id = x.id := by
      intro x hx
      by_cases hsame : x.id = event'.id
      · exact ⟨event', (Table.mem_put hmem hid.symm).2 (.inl rfl), hsame.symm⟩
      · exact ⟨x, (Table.mem_put hmem hid.symm).2 (.inr ⟨hx, hsame⟩), rfl⟩
    rcases hcase with rfl | hold
    · exact hcovered event hmem
    · obtain ⟨x, hx, rfl⟩ := h.known id hold
      exact hcovered x hx

variable {workerId : String}

theorem ownedBy_iff : event.ownedBy workerId ↔
    event.status = .processing ∧ event.leaseOwner = some workerId := by
  simp [KnowledgeEventRow.ownedBy]

theorem unreported_iff : event.unreported ↔
    event.status = .failed ∧ event.oversightRecordedAt = none := by
  simp [KnowledgeEventRow.unreported]

theorem leasable_iff {now : ℤ} : event.leasable now ↔
    event.attemptCount < maxAttempts ∧ event.nextAttemptAt ≤ now ∧ (event.status = .pending ∨
        event.status = .processing ∧ ∃ expiresAt, event.leaseExpiresAt = some expiresAt ∧
          expiresAt ≤ now) := by
  simp [KnowledgeEventRow.leasable, and_assoc, Option.any_eq_true]

theorem Sound.step (h : Sound s) (heffect : Effect s a s') : Sound s' := by
  cases heffect with
  | unchanged | tick | crash => exact ⟨h.rows, h.known⟩
  | insert id key events inserted =>
    have hmem := fun x => Table.mem_insert inserted (x := x)
    have hfree : ∀ x ∈ s.events, x.id ≠ id :=
      Table.get_eq_none.1 (Table.insert_eq_some.1 inserted).1
    refine ⟨fun x hx => ?_, fun id' hmade => ?_⟩
    · rcases (hmem x).1 hx with hold | rfl
      · exact h.rows x hold
      · have hnone : id ∉ s.leases ∧ id ∉ s.completions := by
          constructor <;> intro hmade
          · obtain ⟨x, hx, hid⟩ := h.known id (.inl hmade)
            exact hfree x hx hid
          · obtain ⟨x, hx, hid⟩ := h.known id (.inr hmade)
            exact hfree x hx hid
        exact ⟨Nat.zero_le _, fun _ => Nat.zero_lt_succ _, nofun, count_eq_zero.2 hnone.1,
          count_eq_zero.2 hnone.2⟩
    · obtain ⟨x, hx, hid⟩ := h.known id' hmade
      exact ⟨x, (hmem x).2 (.inl hx), hid⟩
  | lease workerId leaseSeconds locked event alive mem leasable =>
    have hrow := h.rows event mem
    obtain ⟨hlt, -, hstatus⟩ := leasable_iff.1 leasable
    have hid : (event.lease s.now workerId leaseSeconds).id = event.id := rfl
    refine h.put mem hid ?_ (.inr rfl) (.inl rfl)
    refine ⟨hlt, nofun, fun _ => ⟨rfl, rfl⟩, ?_, ?_⟩
    · change (event.id :: s.leases).count event.id = event.attemptCount + 1
      rw [count_cons_self, hrow.leases]
    · refine hrow.completions.trans (if_neg ?_)
      rcases hstatus with hstatus | ⟨hstatus, -⟩ <;> rw [hstatus] <;> decide
  | complete workerId sourceId knowledgeJobId event alive mem owned =>
    have hrow := h.rows event mem
    have hstatus := (ownedBy_iff.1 owned).1
    have hid : (event.complete s.now sourceId knowledgeJobId).id = event.id := rfl
    refine h.put mem hid ?_ (.inl rfl) (.inr rfl)
    refine ⟨hrow.attempts, nofun, nofun, hrow.leases, ?_⟩
    change (event.id :: s.completions).count event.id = 1
    rw [count_cons_self, hrow.completions, hstatus]
    rfl
  | fail workerId detail event alive mem owned =>
    have hrow := h.rows event mem
    have hstatus := (ownedBy_iff.1 owned).1
    have hid : (event.fail s.now detail).id = event.id := rfl
    refine h.put mem hid ?_ (.inl rfl) (.inl rfl)
    have hcompletions : s.completions.count event.id = 0 := by
      rw [hrow.completions, hstatus]
      rfl
    by_cases hlast : maxAttempts ≤ event.attemptCount
    · refine ⟨hrow.attempts, ?_, ?_, hrow.leases, hcompletions.trans ?_⟩ <;>
        simp [KnowledgeEventRow.fail, hlast]
    · refine ⟨hrow.attempts, fun _ => Nat.lt_of_not_le hlast, ?_, hrow.leases,
        hcompletions.trans ?_⟩ <;> simp [KnowledgeEventRow.fail, hlast]
  | mark event mem unreported =>
    have hrow := h.rows event mem
    have hid : (event.mark s.now).id = event.id := rfl
    refine h.put mem hid ?_ (.inl rfl) (.inl rfl)
    exact ⟨hrow.attempts, hrow.pending, hrow.processing, hrow.leases, hrow.completions⟩

theorem sound_initial (now : ℤ) : Sound (.initial now) where
  rows _ h := (Table.not_mem_empty _ h).elim
  known _ h := by rcases h with h | h <;> cases h

/-! ## Events whose last attempt is lost -/

def IsCall : EventLabel → Prop
  | .crash _ => False
  | _ => True

/-- The event is completed or has failed. -/
def Ended (s : EventStore) (eventId : Uuid) : Prop :=
  ∃ event ∈ s.events, event.id = eventId ∧ (event.status = .completed ∨ event.status = .failed)

/-- Some calls, without a crash, bring the event to an end. -/
def CanEnd (materialized : Uuid → Uuid → Uuid → Bool) (s : EventStore) (eventId : Uuid) : Prop :=
  ∃ as t, (∀ a ∈ as, IsCall a) ∧ (eventMachine materialized).exec s as = some t ∧ Ended t eventId

/-- The last attempt of the event is that of a worker which is gone. -/
structure Stranded (gone : List String) (event : KnowledgeEventRow) : Prop where
  processing : event.status = .processing
  last : maxAttempts ≤ event.attemptCount
  owner : ∃ workerId ∈ gone, event.leaseOwner = some workerId

theorem Stranded.step (hmem : event ∈ s.events) (h : Stranded s.gone event)
    (heffect : Effect s a s') : event ∈ s'.events ∧ Stranded s'.gone event := by
  have hother : ∀ x x' : KnowledgeEventRow, x ∈ s.events → x'.id = x.id → x ≠ event →
      event ∈ s.events.put x' := by
    intro x x' hx hid hne
    refine (Table.mem_put hx hid.symm).2 (.inr ⟨hmem, fun hsame => hne ?_⟩)
    exact Table.eq_of_key hx hmem (hid.symm.trans hsame.symm)
  obtain ⟨workerId, hgone, howner⟩ := h.owner
  have hheld : ∀ x : KnowledgeEventRow, ∀ workerId' ∉ s.gone, x.ownedBy workerId' → x ≠ event := by
    rintro x workerId' halive howned rfl
    have hsame := (ownedBy_iff.1 howned).2.symm.trans howner
    exact halive (some.inj hsame ▸ hgone)
  cases heffect with
  | unchanged | tick => exact ⟨hmem, h⟩
  | insert id key events inserted => exact ⟨(Table.mem_insert inserted).2 (.inl hmem), h⟩
  | lease workerId leaseSeconds locked x alive mem leasable =>
    refine ⟨hother x _ mem rfl ?_, h⟩
    rintro rfl
    have hlt := (leasable_iff.1 leasable).1
    have hlast := h.last
    omega
  | complete _ _ _ x alive mem owned | fail _ _ x alive mem owned =>
    exact ⟨hother x _ mem rfl (hheld x _ alive owned), h⟩
  | mark x mem unreported =>
    refine ⟨hother x _ mem rfl ?_, h⟩
    rintro rfl
    have hfailed := (unreported_iff.1 unreported).1
    rw [h.processing] at hfailed
    cases hfailed
  | crash workerId => exact ⟨hmem, h.processing, h.last, _, mem_cons_of_mem _ hgone, howner⟩

theorem Stranded.not_canEnd (hmem : event ∈ s.events) (h : Stranded s.gone event) :
    ¬ CanEnd materialized s event.id := by
  rintro ⟨as, t, -, hrun, x, hx, hid, hended⟩
  have hstill := (eventMachine materialized).invariant
    (I := fun s => event ∈ s.events ∧ Stranded s.gone event)
    (fun _ _ _ hs hstep => hs.2.step hs.1 (step_effect hstep)) ⟨hmem, h⟩ hrun
  obtain rfl := Table.eq_of_key hx hstill.1 hid
  rw [hstill.2.processing] at hended
  rcases hended with hended | hended <;> cases hended

/-! ## Events that can be ended -/

def held (s : EventStore) (eventId : Uuid) : Bool :=
  (s.events.get eventId).any fun event =>
    event.status = .processing && event.leaseOwner.any fun workerId => workerId ∉ s.gone

/-- How far the attempts of all events are from their end. -/
def attemptsLeft (s : EventStore) (eventId : Uuid) : ℕ :=
  2 * (s.events.rows.map fun event => maxAttempts - event.attemptCount).sum +
    if held s eventId then 1 else 0

/-- The event is there, and no worker that is gone has its last attempt. -/
structure Alive (eventId : Uuid) (workerId : String) (s : EventStore) : Prop where
  sound : Sound s
  worker : workerId ∉ s.gone
  event : ∃ event ∈ s.events, event.id = eventId ∧ ¬ Stranded s.gone event

theorem exists_notMem_gone (gone : List String) : ∃ workerId, workerId ∉ gone := by
  obtain ⟨workerId, hworker⟩ := Infinite.exists_notMem_finset gone.toFinset
  exact ⟨workerId, by simpa using hworker⟩

theorem held_of_mem (hmem : event ∈ s.events) : held s event.id =
    (event.status = .processing && event.leaseOwner.any fun workerId => workerId ∉ s.gone) := by
  rw [held, Table.get_eq_some.2 ⟨hmem, rfl⟩]
  rfl

theorem Alive.fail (h : Alive eventId workerId s) (hheld : held s eventId) : ∃ owner s',
      (eventMachine materialized).step s (.fail eventId owner "") = some s' ∧
      Alive eventId workerId s' ∧ attemptsLeft s' eventId < attemptsLeft s eventId := by
  obtain ⟨event, hmem, rfl, -⟩ := h.event
  have htest := hheld
  rw [held_of_mem hmem, Bool.and_eq_true_iff, Option.any_eq_true] at htest
  obtain ⟨hprocessing, owner, howner, halive⟩ := htest
  have hfind : s.find event.id (·.ownedBy owner) = some event :=
    find_eq_some.2 ⟨hmem, rfl, ownedBy_iff.2 ⟨of_decide_eq_true hprocessing, howner⟩⟩
  have hstep : (eventMachine materialized).step s (.fail event.id owner "") =
      some { s with events := s.events.put (event.fail s.now "") } := by
    have hcall : s.fail event.id owner "" =
        { s with events := s.events.put (event.fail s.now "") } := by
      rw [EventStore.fail, hfind]
    simpa [hcall] using halive
  have hput := fun x => Table.mem_put hmem (r := event.fail s.now "") rfl (x := x)
  have hstatus : (event.fail s.now "").status ≠ .processing := by
    unfold KnowledgeEventRow.fail
    dsimp only
    split_ifs <;> decide
  refine ⟨owner, _, hstep, ⟨h.sound.step (step_effect hstep), h.worker, _, (hput _).2 (.inl rfl),
    rfl, fun hstranded => hstatus hstranded.processing⟩, ?_⟩
  have hsum := Table.sum_put hmem (r := event.fail s.now "") rfl
    fun event => maxAttempts - event.attemptCount
  have hfree : held { s with events := s.events.put (event.fail s.now "") } event.id = false := by
    have hrow := held_of_mem (s := { s with events := s.events.put (event.fail s.now "") })
      ((hput _).2 (.inl rfl))
    exact hrow.trans (by simp [hstatus])
  have hattempts : (event.fail s.now "").attemptCount = event.attemptCount := rfl
  rw [hattempts] at hsum
  simp only [attemptsLeft, hheld, hfree, if_true, Bool.false_eq_true, if_false]
  omega

section

variable (h : Alive eventId workerId s) (hheld : held s eventId = false) (hfree : ¬ Ended s eventId)
include h hheld hfree

theorem Alive.leasable :
    ∃ event ∈ s.events, ∃ elapsed : ℕ, event.leasable (s.now + elapsed) := by
  obtain ⟨event, hmem, rfl, hstranded⟩ := h.event
  have hrow := h.sound.rows event hmem
  rw [held_of_mem hmem] at hheld
  have hstatus : event.status = .pending ∨ event.status = .processing := by
    cases hcase : event.status with
    | pending => exact .inl rfl
    | processing => exact .inr rfl
    | completed => exact absurd ⟨event, hmem, rfl, .inl hcase⟩ hfree
    | failed => exact absurd ⟨event, hmem, rfl, .inr hcase⟩ hfree
  rcases hstatus with hpending | hprocessing
  · refine ⟨event, hmem, (event.nextAttemptAt - s.now).toNat, leasable_iff.2
      ⟨hrow.pending hpending, by omega, .inl hpending⟩⟩
  · obtain ⟨howner, hexpires⟩ := hrow.processing hprocessing
    obtain ⟨owner, howner⟩ := isSome_iff_exists.1 howner
    obtain ⟨expiresAt, hexpires⟩ := isSome_iff_exists.1 hexpires
    -- The worker that has the event is gone, so that the attempt is not the last one.
    have hgone : owner ∈ s.gone := by simpa [hprocessing, howner] using hheld
    have hlt : event.attemptCount < maxAttempts :=
      Nat.lt_of_not_le fun hlast => hstranded ⟨hprocessing, hlast, owner, hgone, howner⟩
    refine ⟨event, hmem, (max event.nextAttemptAt expiresAt - s.now).toNat, leasable_iff.2
      ⟨hlt, by omega, .inr ⟨hprocessing, expiresAt, hexpires, by omega⟩⟩⟩

theorem Alive.lease : ∃ (elapsed : ℕ) (s' : EventStore),
      (eventMachine materialized).exec s [.tick elapsed, .leaseNext workerId 30 []] = some s' ∧
      Alive eventId workerId s' ∧ attemptsLeft s' eventId < attemptsLeft s eventId := by
  obtain ⟨due, hdue, elapsed, hleasable⟩ := h.leasable hheld hfree
  let s₁ : EventStore := { s with now := s.now + elapsed }
  have halive₁ : Sound s₁ := ⟨h.sound.rows, h.sound.known⟩
  obtain ⟨x, hcandidate⟩ : ∃ x, s₁.candidate [] = some x := by
    rw [← ne_none_iff_exists']
    intro hnone
    have := Table.first_eq_none.1 hnone due hdue
    simp [s₁, hleasable] at this
  obtain ⟨hx, htest⟩ := Table.first_eq_some hcandidate
  have hlt := (leasable_iff.1 (Bool.and_eq_true_iff.1 htest).1).1
  let leased := x.lease s₁.now workerId 30
  let s₂ : EventStore := { s₁ with events := s.events.put leased, leases := x.id :: s.leases }
  have hstep : (eventMachine materialized).step s₁ (.leaseNext workerId 30 []) = some s₂ := by
    have hcall : s₁.leaseNext workerId 30 [] = s₂ := by
      rw [EventStore.leaseNext, hcandidate]
    have hworker : workerId ∉ s₁.gone := h.worker
    simp [hworker, hcall]
  have hput := fun y => Table.mem_put hx (r := leased) rfl (x := y)
  refine ⟨elapsed, s₂, (eventMachine materialized).exec_cons_eq_some.2 ⟨s₁, rfl,
    (eventMachine materialized).exec_cons_eq_some.2 ⟨s₂, hstep, rfl⟩⟩,
    ⟨halive₁.step (step_effect hstep), h.worker, ?_⟩, ?_⟩
  · obtain ⟨event, hmem, hid, hstranded⟩ := h.event
    by_cases hsame : event.id = x.id
    · refine ⟨leased, (hput _).2 (.inl rfl), hsame.symm.trans hid, ?_⟩
      rintro ⟨-, -, owner, hgone, howner⟩
      obtain rfl := some.inj howner
      exact h.worker hgone
    · exact ⟨event, (hput _).2 (.inr ⟨hmem, hsame⟩), hid, hstranded⟩
  · have hsum : (s₂.events.rows.map fun event => maxAttempts - event.attemptCount).sum +
        (maxAttempts - x.attemptCount) =
        (s.events.rows.map fun event => maxAttempts - event.attemptCount).sum +
          (maxAttempts - (x.attemptCount + 1)) :=
      Table.sum_put hx (r := leased) rfl fun event => maxAttempts - event.attemptCount
    have hle : (if held s₂ eventId then 1 else 0) ≤ 1 := by split_ifs <;> omega
    simp only [attemptsLeft, hheld, Bool.false_eq_true, if_false]
    omega

end

theorem Sound.canEnd_iff (h : Sound s) (hmem : event ∈ s.events) :
    CanEnd materialized s event.id ↔ ¬ Stranded s.gone event := by
  refine ⟨fun hend hstranded => hstranded.not_canEnd hmem hend, fun hstranded => ?_⟩
  obtain ⟨workerId, hworker⟩ := exists_notMem_gone s.gone
  have halive : Alive event.id workerId s := ⟨h, hworker, event, hmem, rfl, hstranded⟩
  obtain ⟨as, t, hcalls, hrun, -, hended⟩ := (eventMachine materialized).exists_exec_of_rank
    (Alive event.id workerId) (fun s => Ended s event.id) IsCall
    (fun s => attemptsLeft s event.id) (fun s₁ hs₁ hfree => by
      cases hheld : held s₁ event.id with
      | true =>
        obtain ⟨owner, s₂, hstep, hs₂, hlt⟩ := @Alive.fail materialized _ _ _ hs₁ hheld
        exact ⟨[.fail event.id owner ""], s₂, by simp [IsCall],
          (eventMachine materialized).exec_cons_eq_some.2 ⟨s₂, hstep, rfl⟩, hs₂, hlt⟩
      | false =>
        obtain ⟨elapsed, s₂, hrun, hs₂, hlt⟩ := @Alive.lease materialized _ _ _ hs₁ hheld hfree
        exact ⟨[.tick elapsed, .leaseNext workerId 30 []], s₂, by simp [IsCall], hrun, hs₂,
          hlt⟩) halive
  exact ⟨as, t, hcalls, hrun, hended⟩

/-! ## Failures that are reported -/

theorem exists_reported (hmem : event ∈ s.events) (hunreported : event.unreported) :
    ∃ as t, (∀ a ∈ as, ∃ eventId, a = .markOversightRecorded eventId) ∧
      (eventMachine materialized).exec s as = some t ∧ t.nextUnreportedFailure = some event := by
  obtain ⟨as, t, hmarks, hrun, -, hnext⟩ := (eventMachine materialized).exists_exec_of_rank
    (fun s => event ∈ s.events) (fun s => s.nextUnreportedFailure = some event)
    (fun a => ∃ eventId, a = .markOversightRecorded eventId)
    (fun s => s.events.rows.countP (·.unreported)) (fun s₁ hs₁ hnext => by
      obtain ⟨x, hfirst⟩ : ∃ x, s₁.nextUnreportedFailure = some x := by
        rw [← ne_none_iff_exists']
        intro hnone
        have := Table.first_eq_none.1 hnone event hs₁
        simp [hunreported] at this
      obtain ⟨hx, hxtest⟩ := Table.first_eq_some hfirst
      have hne : event.id ≠ x.id := fun hid => hnext (Table.eq_of_key hs₁ hx hid ▸ hfirst)
      have hfind : s₁.find x.id (·.unreported) = some x := find_eq_some.2 ⟨hx, rfl, hxtest⟩
      have hcall : s₁.markOversightRecorded x.id =
          { s₁ with events := s₁.events.put (x.mark s₁.now) } := by
        rw [EventStore.markOversightRecorded, hfind]
      refine ⟨[.markOversightRecorded x.id], _, by simp,
        (eventMachine materialized).exec_cons_eq_some.2 ⟨_, rfl, rfl⟩, ?_, ?_⟩
      · rw [hcall]
        exact (Table.mem_put hx (r := x.mark s₁.now) rfl).2 (.inr ⟨hs₁, hne⟩)
      · have hcount := Table.countP_put hx (r := x.mark s₁.now) rfl (·.unreported)
        have hmarked : (x.mark s₁.now).unreported = false := by
          simp [KnowledgeEventRow.unreported, KnowledgeEventRow.mark]
        rw [hxtest, hmarked] at hcount
        simp only [if_true, Bool.false_eq_true, if_false] at hcount
        rw [hcall]
        change (s₁.events.put (x.mark s₁.now)).rows.countP _ < _
        omega) hmem
  exact ⟨as, t, hmarks, hrun, hnext⟩

/-! ## Runs -/

/-- Every event is completed, failed and reported, or can still be; attempts are leases, and there
is one completion of an event at most. -/
structure Delivers (materialized : Uuid → Uuid → Uuid → Bool) (s : EventStore) : Prop where
  ends : ∀ event ∈ s.events, CanEnd materialized s event.id
  reports : ∀ event ∈ s.events, event.status = .failed → event.oversightRecordedAt = none →
    ∃ as t, (∀ a ∈ as, ∃ eventId, a = .markOversightRecorded eventId) ∧
      (eventMachine materialized).exec s as = some t ∧ t.nextUnreportedFailure = some event
  attempts : ∀ event ∈ s.events, event.attemptCount ≤ maxAttempts ∧
    event.attemptCount = s.leases.count event.id
  once : ∀ eventId, s.completions.count eventId ≤ 1

/-- No worker dies in the last attempt at an event. -/
def KeepsLastAttempt (s : EventStore) (a : EventLabel) : Prop :=
  ∀ workerId, a = .crash workerId → ∀ event ∈ s.events, event.status = .processing →
    event.leaseOwner = some workerId → event.attemptCount < maxAttempts

theorem Sound.delivers_iff (h : Sound s) :
    Delivers materialized s ↔ ∀ event ∈ s.events, ¬ Stranded s.gone event := by
  constructor
  · exact fun hdelivers event hmem => (h.canEnd_iff hmem).1 (hdelivers.ends event hmem)
  · intro hstranded
    refine ⟨fun event hmem => (h.canEnd_iff hmem).2 (hstranded event hmem),
      fun event hmem hfailed hnone => exists_reported hmem (unreported_iff.2 ⟨hfailed, hnone⟩),
      fun event hmem => ⟨(h.rows event hmem).attempts, (h.rows event hmem).leases.symm⟩,
      fun eventId => ?_⟩
    by_cases hmade : eventId ∈ s.completions
    · obtain ⟨event, hmem, rfl⟩ := h.known eventId (.inr hmade)
      rw [(h.rows event hmem).completions]
      split_ifs <;> omega
    · rw [count_eq_zero.2 hmade]
      omega

theorem keepsLastAttempt_iff (hs : ∀ event ∈ s.events, ¬ Stranded s.gone event)
    (heffect : Effect s a s') :
    (∀ event ∈ s'.events, ¬ Stranded s'.gone event) ↔ KeepsLastAttempt s a := by
  have hput : ∀ x x' : KnowledgeEventRow, x ∈ s.events → x'.id = x.id →
      ¬ Stranded s.gone x' → ∀ y ∈ s.events.put x', ¬ Stranded s.gone y := by
    intro x x' hx hid hx' y hy
    rcases (Table.mem_put hx hid.symm).1 hy with rfl | ⟨hold, -⟩
    · exact hx'
    · exact hs y hold
  cases heffect with
  | unchanged _ stays => exact iff_of_true hs fun workerId h => absurd h (stays workerId)
  | tick => exact iff_of_true hs nofun
  | insert id key events inserted =>
    refine iff_of_true (fun y hy => ?_) nofun
    rcases (Table.mem_insert inserted).1 hy with hold | rfl
    · exact hs y hold
    · exact fun h => nomatch h.processing
  | lease workerId leaseSeconds locked x alive mem leasable =>
    refine iff_of_true (hput x _ mem rfl ?_) nofun
    rintro ⟨-, -, owner, hgone, howner⟩
    obtain rfl := some.inj howner
    exact alive hgone
  | complete workerId sourceId knowledgeJobId x alive mem owned =>
    exact iff_of_true (hput x _ mem rfl fun h => nomatch h.processing) nofun
  | fail workerId detail x alive mem owned =>
    refine iff_of_true (hput x _ mem rfl ?_) nofun
    rintro ⟨hprocessing, -, -⟩
    unfold KnowledgeEventRow.fail at hprocessing
    dsimp only at hprocessing
    split_ifs at hprocessing
  | mark x mem unreported =>
    exact iff_of_true (hput x _ mem rfl fun h => hs x mem ⟨h.processing, h.last, h.owner⟩) nofun
  | crash workerId =>
    constructor
    · rintro h workerId' hlabel event hmem hprocessing howner
      cases hlabel
      exact Nat.lt_of_not_le fun hlast =>
        h event hmem ⟨hprocessing, hlast, _, mem_cons_self, howner⟩
    · rintro hkeeps event hmem ⟨hprocessing, hlast, owner, hgone, howner⟩
      rcases mem_cons.1 hgone with rfl | hgone
      · have hlt := hkeeps _ rfl event hmem hprocessing howner
        omega
      · exact hs event hmem ⟨hprocessing, hlast, owner, hgone, howner⟩

/-- Along a run no event is stranded, if and only if no worker is gone while it has the last attempt
of an event. -/
theorem no_event_stranded_iff (materialized : Uuid → Uuid → Uuid → Bool) (now : ℤ)
    {as : List EventLabel} {t : EventStore}
    (hrun : (eventMachine materialized).exec (.initial now) as = some t) :
    (eventMachine materialized).Meets KeepsLastAttempt (.initial now) as ↔
      ∀ bs s, bs <+: as → (eventMachine materialized).exec (.initial now) bs = some s →
        Delivers materialized s := by
  have hstep : ∀ s a s', (Sound s ∧ ∀ event ∈ s.events, ¬ Stranded s.gone event) →
      (eventMachine materialized).step s a = some s' →
      ((Sound s' ∧ ∀ event ∈ s'.events, ¬ Stranded s'.gone event) ↔ KeepsLastAttempt s a) := by
    rintro s a s' ⟨hsound, hs⟩ hstep
    have heffect := step_effect hstep
    rw [← keepsLastAttempt_iff hs heffect]
    exact and_iff_right (hsound.step heffect)
  have hinitial : Sound (.initial now) ∧
      ∀ event ∈ (EventStore.initial now).events, ¬ Stranded (EventStore.initial now).gone event :=
    ⟨sound_initial now, fun event hmem => (Table.not_mem_empty _ hmem).elim⟩
  rw [(eventMachine materialized).meets_iff_forall_reached hstep hinitial hrun]
  refine forall_congr' fun bs => forall_congr' fun s => forall_congr' fun _ =>
    forall_congr' fun hreached => ?_
  have hsound : Sound s := (eventMachine materialized).invariant
    (fun _ _ _ hs hstep => hs.step (step_effect hstep)) (sound_initial now) hreached
  rw [hsound.delivers_iff]
  exact and_iff_right hsound

def keepsLastAttempt (s : EventStore) : EventLabel → Bool
  | .crash workerId =>
    s.events.rows.all fun event => !event.ownedBy workerId || event.attemptCount < maxAttempts
  | _ => true

theorem keepsLastAttempt_of_test (h : keepsLastAttempt s a) : KeepsLastAttempt s a := by
  rintro workerId rfl event hmem hprocessing howner
  have htest := List.all_eq_true.1 h event hmem
  simpa [ownedBy_iff.2 ⟨hprocessing, howner⟩] using htest

def sampleKey : EventKey :=
  ⟨1, "server-administrator", "incident.closed", "incident", "7", "3", "research", "researcher"⟩

def sampleLoss (workerId : String) : List EventLabel :=
  [.leaseNext workerId 30 [], .crash workerId, .tick 30000000]

def sampleDelivery : List EventLabel :=
  .enqueue 5 sampleKey :: sampleLoss "a" ++ [.leaseNext "b" 30 [], .complete 5 "b" 8 9]

theorem no_event_stranded_sample :
    ∃ t, (eventMachine fun _ _ _ => true).exec (.initial 0) sampleDelivery = some t ∧
      (t.events.rows.map (·.status)) = [.completed] ∧ ∀ bs s, bs <+: sampleDelivery →
        (eventMachine fun _ _ _ => true).exec (.initial 0) bs = some s →
        Delivers (fun _ _ _ => true) s := by
  have hrun : ((eventMachine fun _ _ _ => true).exec (.initial 0) sampleDelivery).map
      (fun t => t.events.rows.map (·.status)) = some [.completed] := by decide +kernel
  obtain ⟨t, ht, hstatus⟩ := map_eq_some_iff.1 hrun
  have htest : (eventMachine fun _ _ _ => true).meetsTest keepsLastAttempt (.initial 0)
      sampleDelivery := by decide +kernel
  refine ⟨t, ht, hstatus, (no_event_stranded_iff _ 0 ht).1 ?_⟩
  exact (eventMachine _).meets_of_meetsTest (fun _ _ => keepsLastAttempt_of_test) htest

/-- Three workers are lost one after the other, and nothing ends the event any more. -/
theorem event_stranded_by_lost_workers : ∃ t, (eventMachine fun _ _ _ => true).exec (.initial 0)
        (.enqueue 5 sampleKey :: sampleLoss "a" ++ sampleLoss "b" ++ sampleLoss "c") = some t ∧
      ∃ event ∈ t.events, ¬ CanEnd (fun _ _ _ => true) t event.id := by
  have hrun : ∃ t, (eventMachine fun _ _ _ => true).exec (.initial 0)
        (.enqueue 5 sampleKey :: sampleLoss "a" ++ sampleLoss "b" ++ sampleLoss "c") = some t ∧
      ∃ event ∈ t.events, event.status = .processing ∧ maxAttempts ≤ event.attemptCount ∧
        ∃ owner ∈ t.gone, event.leaseOwner = some owner := by decide +kernel
  obtain ⟨t, ht, event, hmem, hprocessing, hlast, hgone⟩ := hrun
  exact ⟨t, ht, event, hmem, Stranded.not_canEnd hmem ⟨hprocessing, hlast, hgone⟩⟩

end Gadgetron.Events
