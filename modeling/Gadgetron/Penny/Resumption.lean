import Gadgetron.Penny.TurnPlan

/-!
# Resumed sessions

A turn is to resume only a session that an earlier turn of its conversation has created.
-/

namespace Gadgetron.Penny.Turns

open Lib Session Option Function

namespace Entries

variable (self : Entries) {id id' : ConversationId} {entry e : SessionEntry}

def seat (id : ConversationId) : Option (AgentBackend × Uuid) :=
  (self.get id).map fun e => (e.backend, e.claudeSessionUuid)

@[simp] theorem get_put_self : (self.put id entry).get id = some entry := AList.lookup_insert _

theorem get_put_ne (h : id' ≠ id) : (self.put id entry).get id' = self.get id' :=
  AList.lookup_insert_ne h

variable {self}

theorem get_of_remove (h : (self.remove id).get id' = some e) : self.get id' = some e := by
  by_cases heq : id' = id
  · subst heq
    have hnone : (self.remove id').get id' = none := AList.lookup_erase _ _
    rw [hnone] at h
    cases h
  · exact (AList.lookup_erase_ne heq).symm.trans h

variable {visits : List ConversationId}

theorem get_of_sweepExpired {now : ℕ}
    (h : (self.sweepExpired now visits).get id = some e) : self.get id = some e := by
  have hfold : ∀ (ids : List ConversationId) (self : Entries),
      (ids.foldl remove self).get id = some e → self.get id = some e := by
    intro ids
    induction ids with
    | nil => exact fun _ h => h
    | cons id' ids ih => exact fun self h => get_of_remove (ih _ h)
  exact hfold _ _ h

theorem get_of_evict {protect : ConversationId}
    (h : (self.evictLruExcluding protect visits).get id = some e) : self.get id = some e := by
  unfold evictLruExcluding at h
  split at h
  · exact get_of_remove h
  · exact h

theorem get_evict_protected (protect : ConversationId) (visits : List ConversationId) :
    (self.evictLruExcluding protect visits).get protect = self.get protect := by
  have hfold : ∀ acc : Option (ConversationId × ℕ), (∀ key t, acc = some (key, t) → protect ≠ key) →
      ∀ key t, visits.foldl (self.older protect) acc = some (key, t) → protect ≠ key := by
    induction visits with
    | nil => exact fun acc h => h
    | cons id visits ih =>
      intro acc hacc
      refine ih _ fun key t heq => ?_
      unfold older at heq
      split_ifs at heq with hid
      · exact hacc key t heq
      · split at heq
        · exact hacc key t heq
        · cases heq
          exact Ne.symm hid
        · split_ifs at heq
          · cases heq
            exact Ne.symm hid
          · exact hacc key t heq
  unfold evictLruExcluding
  split
  · rename_i key t heq
    exact AList.lookup_erase_ne (hfold none nofun key t heq)
  · rfl

theorem seat_modify {f : SessionEntry → SessionEntry} (hbackend : ∀ e, (f e).backend = e.backend)
    (huuid : ∀ e, (f e).claudeSessionUuid = e.claudeSessionUuid) (id id' : ConversationId) :
    (self.modify id f).seat id' = self.seat id' := by
  unfold modify
  cases hget : self.get id with
  | none => rfl
  | some e =>
    by_cases heq : id' = id
    · subst heq
      simp [seat, hget, hbackend, huuid]
    · exact congrArg (Option.map _) (get_put_ne self heq)

end Entries

theorem getOrCreate_cases (parseStr : String → Option Uuid) (self : Entries) (now : ℕ)
    (request : Request) (choices : Choices) {store : Entries} {entry : SessionEntry} {first : Bool}
    (h : getOrCreate parseStr self now request choices = (store, entry, first)) :
    store.get request.id = some entry ∧
      (∀ id e, id ≠ request.id → store.get id = some e → self.get id = some e) ∧
        ((∃ e, (self.sweepExpired now choices.swept).get request.id = some e ∧
            self.get request.id = some e ∧ entry = request.store e ∧ first = false) ∨
          ((self.sweepExpired now choices.swept).get request.id = none ∧
            entry = SessionEntry.withBackendSession
              ((preferredUuid parseStr request).getD choices.newV4) request.backend
              request.backendSessionId now ∧ first = request.backendSessionId.isNone)) := by
  unfold getOrCreate at h
  dsimp only at h
  cases hget : (self.sweepExpired now choices.swept).get request.id with
  | some e =>
    rw [hget] at h
    cases h
    refine ⟨Entries.get_put_self _, fun id e' hne h => ?_, .inl ⟨e, rfl, ?_, rfl, rfl⟩⟩
    · rw [Entries.get_put_ne _ hne] at h
      exact Entries.get_of_sweepExpired h
    · exact Entries.get_of_sweepExpired hget
  | none =>
    rw [hget] at h
    cases h
    refine ⟨?_, fun id e' hne h => ?_, .inr ⟨rfl, rfl, rfl⟩⟩
    · split_ifs
      · rw [Entries.get_evict_protected, Entries.get_put_self]
      · exact Entries.get_put_self _
    · have hput : ((self.sweepExpired now choices.swept).put request.id
          (SessionEntry.withBackendSession ((preferredUuid parseStr request).getD choices.newV4)
            request.backend request.backendSessionId now)).get id = some e' := by
        split_ifs at h
        · exact Entries.get_of_evict h
        · exact h
      rw [Entries.get_put_ne _ hne] at hput
      exact Entries.get_of_sweepExpired hput

@[simp] theorem Request.store_backend (request : Request) (e : SessionEntry) :
    (request.store e).backend = e.backend := by
  unfold Request.store SessionEntry.setBackendSessionId
  split
  · rfl
  · split <;> rfl

@[simp] theorem Request.store_uuid (request : Request) (e : SessionEntry) :
    (request.store e).claudeSessionUuid = e.claudeSessionUuid := by
  unfold Request.store SessionEntry.setBackendSessionId
  split
  · rfl
  · split <;> rfl

section

variable (uuid : Uuid) (backend : AgentBackend) (sessionId : Option String) (now : ℕ)

@[simp] theorem withBackendSession_backend :
    (SessionEntry.withBackendSession uuid backend sessionId now).backend = backend := by
  cases sessionId <;> rfl

@[simp] theorem withBackendSession_uuid :
    (SessionEntry.withBackendSession uuid backend sessionId now).claudeSessionUuid = uuid := by
  cases sessionId <;> rfl

end

/-! ## Plans -/

structure BackendTurnPlan.Formed (plan : BackendTurnPlan) : Prop where
  persisted : ∀ s, plan.persistedBackendSessionId = some s →
    plan.resumes = some s ∨ plan.begins = some s
  begins : ∀ s, plan.begins = some s → plan.backend = .claudeCode ∧ plan.resumes = none
  uuid : ∀ s, plan.backend = .claudeCode → plan.resumes = some s ∨ plan.begins = some s →
    ∃ uuid : Uuid, s = uuid.toText

structure BackendTurnPlan.For (plan : BackendTurnPlan) (entry : SessionEntry) (first : Bool) :
    Prop where
  backend : plan.backend = entry.backend
  begins : plan.begins =
    if first ∧ entry.backend = .claudeCode then some entry.claudeSessionUuid.toText else none
  resumes : ∀ s, plan.resumes = some s → first = false ∧
    (entry.backend = .claudeCode ∧ s = entry.claudeSessionUuid.toText ∨
      entry.backend = .codexExec ∧ entry.backendSessionIds .codexExec = some s)
  again : first = false → entry.backend = .claudeCode →
    plan.resumes = some entry.claudeSessionUuid.toText

theorem formed_forClaude (id : ConversationId) (mode : SpawnMode) :
    (BackendTurnPlan.forClaude id mode).Formed := by
  cases mode with
  | stateless => exact ⟨nofun, nofun, fun s _ h => by rcases h with h | h <;> cases h⟩
  | firstTurn uuid =>
    refine ⟨fun s h => .inr h, fun s _ => ⟨rfl, rfl⟩, fun s _ h => ?_⟩
    have hbegins := h.resolve_left nofun
    exact ⟨uuid, (some.inj hbegins).symm⟩
  | resumeTurn uuid sessionId =>
    refine ⟨fun s h => .inl h, nofun, fun s _ h => ?_⟩
    have hresumes := h.resolve_right nofun
    exact ⟨uuid, (some.inj hresumes).symm⟩

theorem formed_forCodex (id : ConversationId) (mode : SpawnMode) {plan : BackendTurnPlan}
    (h : BackendTurnPlan.forCodex id mode = .ok plan) : plan.Formed := by
  unfold BackendTurnPlan.forCodex at h
  split at h
  · cases h
    exact ⟨nofun, nofun, nofun⟩
  · cases h
    exact ⟨nofun, nofun, nofun⟩
  · cases h
  · cases h
    exact ⟨fun s h => .inl h, nofun, nofun⟩

theorem exists_plan (entry : SessionEntry) (first : Bool) (id : ConversationId) :
    ∃ plan : BackendTurnPlan, plan.Formed ∧ plan.For entry first ∧ planBackendTurn entry.backend id
        (if first || (entry.backend = .codexExec &&
            (entry.backendSessionIds entry.backend).isNone) then
          .firstTurn entry.claudeSessionUuid
        else .resumeTurn entry.claudeSessionUuid (entry.backendSessionIds entry.backend)) =
        .ok plan := by
  cases hbackend : entry.backend with
  | claudeCode =>
    refine ⟨_, formed_forClaude id _, ⟨?_, ?_, ?_, ?_⟩, rfl⟩
    · rw [hbackend]
      cases first <;> rfl
    · rw [hbackend]
      cases first <;> rfl
    · cases first with
      | false => exact fun s h => ⟨rfl, .inl ⟨hbackend, (some.inj h).symm⟩⟩
      | true => nofun
    · rintro rfl -
      rfl
  | codexExec =>
    have hfirst : BackendTurnPlan.For ⟨.codexExec, .codex (.exec true), some id, none⟩ entry
        first := by
      refine ⟨hbackend.symm, ?_, nofun, fun _ hclaude => ?_⟩
      · rw [hbackend]
        simp [BackendTurnPlan.begins]
      · rw [hbackend] at hclaude
        cases hclaude
    cases hids : entry.backendSessionIds .codexExec with
    | none =>
      refine ⟨⟨.codexExec, .codex (.exec true), some id, none⟩,
        formed_forCodex id (.firstTurn entry.claudeSessionUuid) rfl, hfirst, ?_⟩
      cases first <;> rfl
    | some sessionId =>
      cases first with
      | true =>
        exact ⟨⟨.codexExec, .codex (.exec true), some id, none⟩,
          formed_forCodex id (.firstTurn entry.claudeSessionUuid) rfl, hfirst, rfl⟩
      | false =>
        refine ⟨⟨.codexExec, .codex (.resume sessionId), some id, some sessionId⟩,
          formed_forCodex id (.resumeTurn entry.claudeSessionUuid (some sessionId)) rfl,
          ⟨hbackend.symm, ?_, fun s h => ⟨rfl, .inr ⟨hbackend, ?_⟩⟩, fun _ hclaude => ?_⟩, rfl⟩
        · rw [hbackend]
          rfl
        · rw [hids]
          exact h
        · rw [hbackend] at hclaude
          cases hclaude

theorem resolve_cases (parseStr : String → Option Uuid) (w : World) (id : ConversationId)
    (backend : AgentBackend) (mode : SessionMode) (loaded : Bool) (choices : Choices) :
    (mode = .statelessOnly ∧ ∃ plan : BackendTurnPlan, plan.Formed ∧ plan.resumes = none ∧
        plan.begins = none ∧ w.resolve parseStr id backend mode loaded choices =
          { w with turns := Function.update w.turns id (some plan) }) ∨
      ∃ store entry first, getOrCreate parseStr w.store w.now (w.request id backend loaded)
          choices =
          (store, entry, first) ∧ (((entry.backend ≠ backend ∨ first = true ∧ mode = .nativeOnly) ∧
            w.resolve parseStr id backend mode loaded choices = { w with store }) ∨
          (entry.backend = backend ∧ ¬ (first = true ∧ mode = .nativeOnly) ∧
            ∃ plan : BackendTurnPlan, plan.Formed ∧ plan.For entry first ∧
              w.resolve parseStr id backend mode loaded choices =
                { w with store, turns := Function.update w.turns id (some plan) })) := by
  by_cases hmode : mode = .statelessOnly
  · refine .inl ⟨hmode, ?_⟩
    subst hmode
    cases backend with
    | claudeCode => exact ⟨_, formed_forClaude id .stateless, rfl, rfl, rfl⟩
    | codexExec =>
      exact ⟨⟨.codexExec, .codex (.exec false), none, none⟩,
        formed_forCodex id .stateless rfl, rfl, rfl, rfl⟩
  · obtain ⟨⟨store, entry, first⟩, hget⟩ :
        ∃ r, getOrCreate parseStr w.store w.now (w.request id backend loaded) choices = r :=
          ⟨_, rfl⟩
    refine .inr ⟨store, entry, first, hget, ?_⟩
    have hfails : ∀ e, resolveSpawnMode parseStr mode w.store w.now
        (w.request id backend loaded) choices = (store, .error e) →
        w.resolve parseStr id backend mode loaded choices = { w with store } := by
      intro e h
      simp only [World.resolve, h, Except.bind]
    have hplans : ∀ turn plan, resolveSpawnMode parseStr mode w.store w.now
        (w.request id backend loaded) choices = (store, .ok turn) →
        planBackendTurn backend id turn = .ok plan →
        w.resolve parseStr id backend mode loaded choices =
          { w with store, turns := Function.update w.turns id (some plan) } := by
      intro turn plan h hplan
      simp only [World.resolve, h, Except.bind, hplan]
    have hspawn : resolveSpawnMode parseStr mode w.store w.now (w.request id backend loaded)
        choices = if entry.backend ≠ backend then
          (store, .error (.agentBackendPinned id entry.backend backend))
        else if first && mode = .nativeOnly then (store, .error (.sessionNotFound id))
        else if first || (backend = .codexExec && (entry.backendSessionIds backend).isNone) then
          (store, .ok (.firstTurn entry.claudeSessionUuid))
        else
          (store, .ok (.resumeTurn entry.claudeSessionUuid (entry.backendSessionIds backend))) := by
      unfold resolveSpawnMode
      rw [if_neg hmode, hget]
      rfl
    by_cases hbackend : entry.backend = backend
    · subst hbackend
      rw [if_neg (not_not.2 rfl)] at hspawn
      by_cases hnative : first = true ∧ mode = .nativeOnly
      · rw [if_pos (by simp [hnative])] at hspawn
        exact .inl ⟨.inr hnative, hfails _ hspawn⟩
      · obtain ⟨plan, hformed, hfor, hplan⟩ := exists_plan entry first id
        rw [if_neg (by simpa using hnative), ← apply_ite (Prod.mk store), ← apply_ite Except.ok]
          at hspawn
        exact .inr ⟨rfl, hnative, plan, hformed, hfor, hplans _ _ hspawn hplan⟩
    · rw [if_pos hbackend] at hspawn
      exact .inl ⟨.inl hbackend, hfails _ hspawn⟩

/-! ## Stranded conversations -/

/-- The conversation's entry will make its next turn resume a session that was never created and
that no turn may still create. -/
def World.Stranded (w : World) (id : ConversationId) : Prop :=
  (∃ uuid, w.store.seat id = some (.claudeCode, uuid) ∧ ¬ w.Has id .claudeCode uuid.toText) ∧
    ∀ plan, w.turns id = some plan → plan.begins = none

/-- Every turn that resumes a session resumes one that a turn of its conversation on its backend has
created, and no conversation is stranded. -/
structure World.Sound (w : World) : Prop where
  resumes : ∀ id plan s, w.turns id = some plan → plan.resumes = some s → w.Has id plan.backend s
  unstranded : ∀ id, ¬ w.Stranded id

/-- A Claude session that is to be created in a turn is there when the turn ends, or the entry is
gone; and no turn is refused with a new entry. -/
def FirstTurnCreates (parseStr : String → Option Uuid) (w : World) : Label → Prop
  | .resolve id backend mode loaded choices =>
    backend = .claudeCode → mode = .nativeOnly →
      (w.request id backend loaded).backendSessionId = none →
        (w.store.sweepExpired w.now choices.swept).get id = none → w.Has id .claudeCode
            ((preferredUuid parseStr (w.request id backend loaded)).getD choices.newV4).toText
  | .fail id | .abandon id =>
    ∀ plan s, w.turns id = some plan → plan.begins = some s →
      w.Has id .claudeCode s ∨ w.store.get id = none
  | _ => True

/-! ## The invariant -/

structure Inv (w : World) : Prop where
  formed : ∀ id plan, w.turns id = some plan → plan.Formed
  seated : ∀ id plan s x, w.turns id = some plan → plan.resumes = some s ∨ plan.begins = some s →
    plan.backend = .claudeCode → w.store.seat id = some x → x.1 = .claudeCode ∧ x.2.toText = s
  pinned : ∀ id backend s, w.pins id backend = some s → w.Has id backend s
  pinnedUuid : ∀ id s, w.pins id .claudeCode = some s → ∃ uuid : Uuid, s = uuid.toText
  captured : ∀ id e s, w.store.get id = some e → e.backendSessionIds .codexExec = some s →
    w.Has id .codexExec s

theorem inv_new (ttl maxEntries : ℕ) : Inv (.new ttl maxEntries) :=
    ⟨nofun, nofun, nofun, nofun, nofun⟩

theorem sound_new (ttl maxEntries : ℕ) : (World.new ttl maxEntries).Sound := by
  refine ⟨nofun, fun id h => ?_⟩
  obtain ⟨⟨uuid, hseat, -⟩, -⟩ := h
  cases hseat

/-! ## The entry of a turn -/

theorem ids_of_set {e : SessionEntry} {b b' : AgentBackend} {s s' : String}
    (h : (e.setBackendSessionId b s).backendSessionIds b' = some s') :
    b' = b ∧ s = s' ∨ e.backendSessionIds b' = some s' := by
  change Function.update e.backendSessionIds b (some s) b' = some s' at h
  by_cases heq : b' = b
  · subst heq
    rw [update_self] at h
    exact .inl ⟨rfl, some.inj h⟩
  · rw [update_of_ne heq] at h
    exact .inr h

theorem ids_of_store {request : Request} {e : SessionEntry} {backend : AgentBackend} {s : String}
    (h : (request.store e).backendSessionIds backend = some s) :
    e.backendSessionIds backend = some s ∨
      request.backend = backend ∧ request.backendSessionId = some s := by
  unfold Request.store at h
  split at h
  · exact .inl h
  · rename_i sessionId hsome
    split_ifs at h
    · rcases ids_of_set h with ⟨rfl, rfl⟩ | h
      · exact .inr ⟨rfl, hsome⟩
      · exact .inl h
    · exact .inl h

theorem ids_of_withBackendSession {uuid : Uuid} {backend b : AgentBackend}
    {sessionId : Option String} {now : ℕ} {s : String}
    (h : (SessionEntry.withBackendSession uuid backend sessionId now).backendSessionIds b =
      some s) :
    backend = b ∧ sessionId = some s := by
  cases sessionId with
  | none => cases h
  | some p =>
    rcases ids_of_set h with ⟨rfl, rfl⟩ | h
    · exact ⟨rfl, rfl⟩
    · cases h

section

variable {parseStr : String → Option Uuid} {w : World} {id : ConversationId}
  {backend : AgentBackend} {mode : SessionMode} {loaded : Bool} {choices : Choices}
  {store : Entries} {entry : SessionEntry} {first : Bool}

theorem pin_of_request {s : String} (h : (w.request id backend loaded).backendSessionId = some s) :
    w.pins id backend = some s := by
  cases loaded with
  | true => exact h
  | false => cases h

theorem seat_of_get {self : Entries} {e : SessionEntry} (h : self.get id = some e) :
    self.seat id = some (e.backend, e.claudeSessionUuid) := by
  rw [Entries.seat, h]
  rfl

theorem seat_eq_none {self : Entries} : self.seat id = none ↔ self.get id = none :=
  map_eq_none_iff

theorem has_of_captured (hinv : Inv w)
    (hget : getOrCreate parseStr w.store w.now (w.request id backend loaded) choices =
      (store, entry, first)) {s : String} (h : entry.backendSessionIds .codexExec = some s) :
    w.Has id .codexExec s := by
  obtain ⟨-, -, ⟨e, -, he, rfl, -⟩ | ⟨-, rfl, -⟩⟩ := getOrCreate_cases _ _ _ _ _ hget
  · rcases ids_of_store h with h | ⟨rfl, h⟩
    · exact hinv.captured id e s he h
    · exact hinv.pinned id _ s (pin_of_request h)
  · obtain ⟨rfl, h⟩ := ids_of_withBackendSession h
    exact hinv.pinned id _ s (pin_of_request h)

theorem has_of_not_first (hparse : ∀ uuid : Uuid, parseStr uuid.toText = some uuid) (hinv : Inv w)
    (hsound : w.Sound) (hidle : w.turns id = none)
    (hget : getOrCreate parseStr w.store w.now (w.request id backend loaded) choices =
      (store, entry, first)) (hclaude : entry.backend = .claudeCode) (hfirst : first = false) :
    w.Has id .claudeCode entry.claudeSessionUuid.toText := by
  obtain ⟨-, -, ⟨e, -, he, rfl, -⟩ | ⟨-, rfl, hnone⟩⟩ := getOrCreate_cases _ _ _ _ _ hget
  · rw [Request.store_backend] at hclaude
    rw [Request.store_uuid]
    by_contra hnot
    refine hsound.unstranded id ⟨⟨e.claudeSessionUuid, ?_, hnot⟩, fun plan hplan => ?_⟩
    · exact (seat_of_get he).trans (by rw [hclaude])
    · rw [hidle] at hplan
      cases hplan
  · rw [withBackendSession_backend] at hclaude
    obtain rfl : backend = .claudeCode := hclaude
    obtain ⟨p, hp⟩ := isSome_iff_exists.1 (isNone_eq_false_iff.1 (hnone.symm.trans hfirst))
    obtain ⟨uuid, rfl⟩ := hinv.pinnedUuid id p (pin_of_request hp)
    have hprefers : preferredUuid parseStr (w.request id .claudeCode loaded) = some uuid := by
      unfold preferredUuid
      simp only [hp]
      change ((some uuid.toText).bind parseStr).or _ = some uuid
      rw [bind_some, hparse]
      rfl
    rw [withBackendSession_uuid, hprefers]
    exact hinv.pinned id _ _ (pin_of_request hp)

variable {id' : ConversationId}

theorem turn_of_update {turns : ConversationId → Option BackendTurnPlan}
    {plan plan' : BackendTurnPlan} (h : Function.update turns id (some plan) id' = some plan') :
    id' = id ∧ plan = plan' ∨ id' ≠ id ∧ turns id' = some plan' := by
  by_cases heq : id' = id
  · subst heq
    rw [update_self] at h
    exact .inl ⟨rfl, some.inj h⟩
  · rw [update_of_ne heq] at h
    exact .inr ⟨heq, h⟩

section

variable
  (hget : getOrCreate parseStr w.store w.now (w.request id backend loaded) choices =
    (store, entry, first))
include hget

theorem seat_of_other (hne : id' ≠ id)
    {x : AgentBackend × Uuid} (h : store.seat id' = some x) : w.store.seat id' = some x := by
  obtain ⟨-, hother, -⟩ := getOrCreate_cases _ _ _ _ _ hget
  obtain ⟨e, he, rfl⟩ := map_eq_some_iff.1 h
  exact seat_of_get (hother id' e hne he)

theorem seat_of_own :
    store.seat id = some (entry.backend, entry.claudeSessionUuid) :=
  seat_of_get (getOrCreate_cases _ _ _ _ _ hget).1

end

theorem Inv.withStore (hinv : Inv w) (hidle : w.turns id = none)
    (hget : getOrCreate parseStr w.store w.now (w.request id backend loaded) choices =
      (store, entry, first)) : Inv { w with store } := by
  obtain ⟨hown, hother, -⟩ := getOrCreate_cases _ _ _ _ _ hget
  refine ⟨hinv.formed, fun id' plan s x hplan hs hclaude hseat => ?_, hinv.pinned, hinv.pinnedUuid,
    fun id' e s he hs => ?_⟩
  · have hne : id' ≠ id := by
      rintro rfl
      rw [hidle] at hplan
      cases hplan
    exact hinv.seated id' plan s x hplan hs hclaude (seat_of_other hget hne hseat)
  · by_cases heq : id' = id
    · subst heq
      obtain rfl := mem_unique hown he
      exact has_of_captured hinv hget hs
    · exact hinv.captured id' e s (hother id' e heq he) hs

theorem Inv.plan (hinv : Inv w) {plan : BackendTurnPlan} (hformed : plan.Formed)
    (hseat : ∀ s x, plan.resumes = some s ∨ plan.begins = some s → plan.backend = .claudeCode →
      w.store.seat id = some x → x.1 = .claudeCode ∧ x.2.toText = s) :
    Inv { w with turns := Function.update w.turns id (some plan) } := by
  refine ⟨fun id' plan' h => ?_, fun id' plan' s x h hs hclaude hx => ?_, hinv.pinned,
    hinv.pinnedUuid, hinv.captured⟩
  · rcases turn_of_update h with ⟨-, rfl⟩ | ⟨-, h⟩
    · exact hformed
    · exact hinv.formed id' plan' h
  · rcases turn_of_update h with ⟨rfl, rfl⟩ | ⟨-, h⟩
    · exact hseat s x hs hclaude hx
    · exact hinv.seated id' plan' s x h hs hclaude hx

theorem Inv.resolve (hinv : Inv w) (hidle : w.turns id = none) :
    Inv (w.resolve parseStr id backend mode loaded choices) := by
  rcases resolve_cases parseStr w id backend mode loaded choices with
    ⟨-, plan, hformed, hresumes, hbegins, heq⟩ |
      ⟨store, entry, first, hget, ⟨-, heq⟩ | ⟨-, -, plan, hformed, hfor, heq⟩⟩
  · rw [heq]
    refine hinv.plan hformed fun s x hs => ?_
    rw [hresumes, hbegins] at hs
    rcases hs with hs | hs <;> cases hs
  · rw [heq]
    exact hinv.withStore hidle hget
  · rw [heq]
    refine (hinv.withStore hidle hget).plan hformed fun s x hs hclaude hx => ?_
    rw [hfor.backend] at hclaude
    obtain rfl := mem_unique (seat_of_own hget) hx
    refine ⟨hclaude, ?_⟩
    rcases hs with hs | hs
    · rcases (hfor.resumes s hs).2 with ⟨-, rfl⟩ | ⟨hcodex, -⟩
      · rfl
      · rw [hclaude] at hcodex
        cases hcodex
    · rw [hfor.begins] at hs
      split_ifs at hs
      exact some.inj hs

theorem sound_resolve_iff (hparse : ∀ uuid : Uuid, parseStr uuid.toText = some uuid) (hinv : Inv w)
    (hsound : w.Sound) (hidle : w.turns id = none) :
    (w.resolve parseStr id backend mode loaded choices).Sound ↔
      FirstTurnCreates parseStr w (.resolve id backend mode loaded choices) := by
  have hnone : ∀ plan, w.turns id = some plan → plan.begins = none := by
    intro plan hplan
    rw [hidle] at hplan
    cases hplan
  rcases resolve_cases parseStr w id backend mode loaded choices with
    ⟨hmode, plan, hformed, hresumes, hbegins, heq⟩ |
      ⟨store, entry, first, hget, ⟨hrefused, heq⟩ | ⟨hbackend, hnative, plan, hformed, hfor, heq⟩⟩
  · rw [heq]
    refine iff_of_true ⟨fun id' plan' s h hs => ?_, fun id' h => ?_⟩ ?_
    · rcases turn_of_update h with ⟨-, rfl⟩ | ⟨-, h⟩
      · rw [hresumes] at hs
        cases hs
      · exact hsound.resumes id' plan' s h hs
    · by_cases hid : id' = id
      · subst hid
        exact hsound.unstranded id' ⟨h.1, hnone⟩
      · refine hsound.unstranded id' ⟨h.1, fun plan' h' => h.2 plan' ?_⟩
        exact (update_of_ne hid _ _).trans h'
    · rintro - hnative
      rw [hmode] at hnative
      cases hnative
  · rw [heq]
    have hothers : ∀ id', id' ≠ id → ¬ World.Stranded { w with store } id' := by
      rintro id' hne ⟨⟨uuid, hseat, hnot⟩, hturn⟩
      exact hsound.unstranded id' ⟨⟨uuid, seat_of_other hget hne hseat, hnot⟩, hturn⟩
    obtain ⟨-, -, ⟨e, hswept, he, rfl, hfirst⟩ | ⟨hswept, rfl, hfirst⟩⟩ :=
      getOrCreate_cases _ _ _ _ _ hget
    · refine iff_of_true ⟨hsound.resumes, fun id' h => ?_⟩ ?_
      · by_cases hid : id' = id
        · subst hid
          obtain ⟨⟨uuid, hseat, hnot⟩, -⟩ := h
          rw [seat_of_own hget, Request.store_backend, Request.store_uuid] at hseat
          exact hsound.unstranded id' ⟨⟨uuid, (seat_of_get he).trans hseat, hnot⟩, hnone⟩
        · exact hothers id' hid h
      · rintro - - - hgone
        exact absurd (hgone.symm.trans hswept) nofun
    · rw [withBackendSession_backend] at hrefused
      obtain ⟨hfirst', hnative⟩ := hrefused.resolve_left (not_not.2 rfl)
      have hpin : (w.request id backend loaded).backendSessionId = none :=
        isNone_iff_eq_none.1 (hfirst.symm.trans hfirst')
      have hseat := seat_of_own hget
      rw [withBackendSession_backend, withBackendSession_uuid] at hseat
      constructor
      · rintro hsound' rfl - - -
        by_contra hnot
        exact hsound'.unstranded id ⟨⟨_, hseat, hnot⟩, hnone⟩
      · refine fun hcreates => ⟨hsound.resumes, fun id' h => ?_⟩
        by_cases hid : id' = id
        · subst hid
          obtain ⟨⟨uuid, hseat', hnot⟩, -⟩ := h
          obtain ⟨hclaude, rfl⟩ := Prod.mk.inj (mem_unique hseat hseat')
          exact hnot (hcreates hclaude hnative hpin hswept)
        · exact hothers id' hid h
  · rw [heq]
    have hhas : entry.backend = .claudeCode → first = false →
        w.Has id .claudeCode entry.claudeSessionUuid.toText :=
      has_of_not_first hparse hinv hsound hidle hget
    refine iff_of_true ⟨fun id' plan' s h hs => ?_, fun id' h => ?_⟩ ?_
    · rcases turn_of_update h with ⟨rfl, rfl⟩ | ⟨-, h⟩
      · rw [hfor.backend]
        obtain ⟨hfirst, ⟨hclaude, rfl⟩ | ⟨hcodex, hcaptured⟩⟩ := hfor.resumes s hs
        · rw [hclaude]
          exact hhas hclaude hfirst
        · rw [hcodex]
          exact has_of_captured hinv hget hcaptured
      · exact hsound.resumes id' plan' s h hs
    · obtain ⟨⟨uuid, hseat, hnot⟩, hturn⟩ := h
      by_cases hid : id' = id
      · subst hid
        obtain ⟨hclaude, rfl⟩ := Prod.mk.inj (mem_unique (seat_of_own hget) hseat)
        have hbegins := hturn plan (update_self _ _ _)
        rw [hfor.begins] at hbegins
        split_ifs at hbegins with hfirst
        have hnot' : first = false := Bool.eq_false_iff.2 fun h => hfirst ⟨h, hclaude⟩
        exact hnot (hhas hclaude hnot')
      · refine hsound.unstranded id' ⟨⟨uuid, seat_of_other hget hid hseat, hnot⟩,
          fun plan' h' => ?_⟩
        exact hturn plan' ((update_of_ne hid _ _).trans h')
    · intro hclaude hmode hpin hgone
      obtain ⟨-, -, ⟨e, hswept, -⟩ | ⟨-, -, hfirst⟩⟩ := getOrCreate_cases _ _ _ _ _ hget
      · exact absurd (hgone.symm.trans hswept) nofun
      · rw [hpin] at hfirst
        exact absurd ⟨hfirst, hmode⟩ hnative

end

/-! ## The end of a turn -/

section

variable {parseStr : String → Option Uuid} {w w' : World} {id : ConversationId}
  {plan : BackendTurnPlan}

theorem seat_touch (self : Entries) (id id' : ConversationId) (now : ℕ) :
    (self.touch id now).seat id' = self.seat id' := by
  unfold Entries.touch
  exact self.seat_modify (f := (·.bump now)) (fun _ => rfl) (fun _ => rfl) id id'

theorem seat_setBackendSessionId (self : Entries) (id id' : ConversationId)
    (backend : AgentBackend) (sessionId : String) :
    (self.setBackendSessionId id backend sessionId).seat id' = self.seat id' := by
  unfold Entries.setBackendSessionId
  exact self.seat_modify (f := (·.setBackendSessionId backend sessionId)) (fun _ => rfl)
    (fun _ => rfl) id id'

variable {id' : ConversationId}

theorem get_of_modify {self : Entries} {f : SessionEntry → SessionEntry}
    {e : SessionEntry} (h : (self.modify id f).get id' = some e) :
    (id' = id ∧ ∃ e', self.get id = some e' ∧ e = f e') ∨ self.get id' = some e := by
  unfold Entries.modify at h
  cases hget : self.get id with
  | none =>
    rw [hget] at h
    exact .inr h
  | some e' =>
    rw [hget] at h
    by_cases heq : id' = id
    · subst heq
      rw [Entries.get_put_self] at h
      exact .inl ⟨rfl, e', rfl, (some.inj h).symm⟩
    · rw [Entries.get_put_ne _ heq] at h
      exact .inr h

theorem Inv.touch (hinv : Inv w) (id : ConversationId) : Inv (w.touch id) := by
  refine ⟨hinv.formed, fun id' plan s x h hs hclaude hx => ?_, hinv.pinned, hinv.pinnedUuid,
    fun id' e s he hs => ?_⟩
  · exact hinv.seated id' plan s x h hs hclaude ((seat_touch _ _ _ _).symm.trans hx)
  · rcases get_of_modify he with ⟨rfl, e', he', rfl⟩ | he
    · exact hinv.captured id' e' s he' hs
    · exact hinv.captured id' e s he hs

theorem Inv.record (hinv : Inv w) {backend : AgentBackend} {sessionId : String}
    (hhas : w.Has id backend sessionId)
    (huuid : backend = .claudeCode → ∃ uuid : Uuid, sessionId = uuid.toText) (saved : Bool) :
    Inv (w.record id backend sessionId saved) := by
  have hpin : ∀ id' b s, (w.record id backend sessionId saved).pins id' b = some s →
      (id' = id ∧ b = backend ∧ s = sessionId) ∨ w.pins id' b = some s := by
    intro id' b s h
    unfold World.record at h
    dsimp only at h
    split_ifs at h
    · by_cases hid : id' = id
      · subst hid
        rw [update_self] at h
        by_cases hb : b = backend
        · subst hb
          rw [update_self] at h
          exact .inl ⟨rfl, rfl, (some.inj h).symm⟩
        · rw [update_of_ne hb] at h
          exact .inr h
      · rw [update_of_ne hid] at h
        exact .inr h
    · exact .inr h
  refine ⟨hinv.formed, fun id' plan s x h hs hclaude hx => ?_, fun id' b s h => ?_,
    fun id' s h => ?_, fun id' e s he hs => ?_⟩
  · exact hinv.seated id' plan s x h hs hclaude ((seat_setBackendSessionId _ _ _ _ _).symm.trans hx)
  · rcases hpin id' b s h with ⟨rfl, rfl, rfl⟩ | h
    · exact hhas
    · exact hinv.pinned id' b s h
  · rcases hpin id' _ s h with ⟨rfl, hb, rfl⟩ | h
    · exact huuid hb.symm
    · exact hinv.pinnedUuid id' s h
  · rcases get_of_modify he with ⟨rfl, e', he', rfl⟩ | he
    · rcases ids_of_set hs with ⟨rfl, rfl⟩ | hs
      · exact hhas
      · exact hinv.captured id' e' s he' hs
    · exact hinv.captured id' e s he hs

theorem turn_of_endTurn (h : (w.endTurn id).turns id' = some plan) :
    id' ≠ id ∧ w.turns id' = some plan := by
  change Function.update w.turns id none id' = some plan at h
  by_cases heq : id' = id
  · subst heq
    rw [update_self] at h
    cases h
  · exact ⟨heq, (update_of_ne heq _ _).symm.trans h⟩

theorem Inv.endTurn (hinv : Inv w) (id : ConversationId) : Inv (w.endTurn id) :=
  ⟨fun id' plan h => hinv.formed id' plan (turn_of_endTurn h).2,
    fun id' plan s x h hs hclaude hx =>
      hinv.seated id' plan s x (turn_of_endTurn h).2 hs hclaude hx,
    hinv.pinned, hinv.pinnedUuid, hinv.captured⟩

theorem World.Sound.congr (hsound : w.Sound) (hturns : w'.turns = w.turns)
    (hcreated : w'.created = w.created) (hseat : ∀ id, w'.store.seat id = w.store.seat id) :
    w'.Sound := by
  refine ⟨fun id plan s h hs => ?_, fun id h => hsound.unstranded id ?_⟩
  · rw [hturns] at h
    have hhas := hsound.resumes id plan s h hs
    rw [World.Has, ← hcreated] at hhas
    exact hhas
  · obtain ⟨⟨uuid, hx, hnot⟩, hturn⟩ := h
    rw [World.Has, hcreated] at hnot
    rw [hturns] at hturn
    exact ⟨⟨uuid, (hseat id).symm.trans hx, hnot⟩, hturn⟩

theorem sound_endTurn_iff (hinv : Inv w) (hsound : w.Sound) (hplan : w.turns id = some plan) :
    (w.endTurn id).Sound ↔
      ∀ s, plan.begins = some s → w.Has id .claudeCode s ∨ w.store.get id = none := by
  constructor
  · intro hsound' s hs
    by_contra hnot
    obtain ⟨hhas, hget⟩ := not_or.1 hnot
    obtain ⟨⟨backend, uuid⟩, hx⟩ := ne_none_iff_exists'.1 fun h => hget (seat_eq_none.1 h)
    have hclaude := ((hinv.formed id plan hplan).begins s hs).1
    obtain ⟨rfl, rfl⟩ := hinv.seated id plan s _ hplan (.inr hs) hclaude hx
    refine hsound'.unstranded id ⟨⟨uuid, hx, hhas⟩, fun plan' h => ?_⟩
    exact absurd rfl (turn_of_endTurn h).1
  · refine fun hends => ⟨fun id' plan' s h hs => ?_, fun id' h => ?_⟩
    · exact hsound.resumes id' plan' s (turn_of_endTurn h).2 hs
    · obtain ⟨⟨uuid, hx, hnot⟩, hturn⟩ := h
      by_cases hid : id' = id
      · subst hid
        cases hbegins : plan.begins with
        | none =>
          refine hsound.unstranded id' ⟨⟨uuid, hx, hnot⟩, fun plan' h => ?_⟩
          rw [hplan] at h
          cases h
          exact hbegins
        | some s =>
          have hclaude := ((hinv.formed id' plan hplan).begins s hbegins).1
          obtain ⟨-, rfl⟩ := hinv.seated id' plan s _ hplan (.inr hbegins) hclaude hx
          rcases hends _ hbegins with hhas | hgone
          · exact hnot hhas
          · exact absurd ((seat_eq_none.2 hgone).symm.trans hx) nofun
      · refine hsound.unstranded id' ⟨⟨uuid, hx, hnot⟩, fun plan' h => hturn plan' ?_⟩
        exact (update_of_ne hid _ _).trans h

theorem succeed_cases {captured : Option String} {saved : Bool} (hinv : Inv w)
    (hplan : w.turns id = some plan) (h : w.succeed id plan captured saved = some w') :
    (∀ s, plan.begins = some s → w.Has id .claudeCode s) ∧
      ∃ w₁, w' = w₁.endTurn id ∧ Inv w₁ ∧ w₁.turns = w.turns ∧ w₁.created = w.created ∧
        ∀ id, w₁.store.seat id = w.store.seat id := by
  have hformed := hinv.formed id plan hplan
  unfold World.succeed at h
  dsimp only at h
  split_ifs at h with hcond
  obtain ⟨hnamed, hcaptured, hclaude⟩ := hcond
  have hnames : ∀ s, plan.resumes = some s ∨ plan.begins = some s → w.Has id plan.backend s := by
    rintro s (hs | hs)
    · exact hnamed s (by rw [hs]; rfl)
    · exact hnamed s (by rw [(hformed.begins s hs).2, hs]; rfl)
  refine ⟨fun s hs => ?_, ?_⟩
  · have hhas := hnames s (.inr hs)
    rwa [(hformed.begins s hs).1] at hhas
  · split at h
    · rename_i sessionId _ hid
      have hhas : w.Has id plan.backend sessionId := by
        cases hc : captured with
        | some s =>
          rw [hc] at hid
          cases hid
          exact hcaptured _ hc
        | none =>
          rw [hc] at hid
          exact hnames _ (hformed.persisted _ hid)
      have huuid : plan.backend = .claudeCode → ∃ uuid : Uuid, sessionId = uuid.toText := by
        intro hb
        rw [hclaude hb] at hid
        exact hformed.uuid _ hb (hformed.persisted _ hid)
      cases h
      refine ⟨_, rfl, (hinv.record hhas huuid saved).touch id, rfl, rfl, fun id' => ?_⟩
      exact (seat_touch _ _ _ _).trans (seat_setBackendSessionId _ _ _ _ _)
    · cases h
      exact ⟨_, rfl, hinv.touch id, rfl, rfl, fun id' => seat_touch _ _ _ _⟩

end

/-! ## Runs -/

section

variable {parseStr : String → Option Uuid} {w w' : World} {label : Label} {labels : List Label}

theorem inv_step (hinv : Inv w)
    (hstep : (conversations parseStr).step w label = some w') : Inv w' := by
  cases label with
  | tick elapsed =>
    cases hstep
    exact ⟨hinv.formed, hinv.seated, hinv.pinned, hinv.pinnedUuid, hinv.captured⟩
  | resolve id backend mode loaded choices =>
    dsimp only at hstep
    split_ifs at hstep with hcond
    cases hstep
    exact hinv.resolve (isNone_iff_eq_none.1 hcond.1)
  | create id sessionId =>
    obtain ⟨plan, -, hstep⟩ := bind_eq_some_iff.1 hstep
    split_ifs at hstep
    cases hstep
    exact ⟨hinv.formed, hinv.seated, fun id b s h => List.mem_append_left _ (hinv.pinned id b s h),
      hinv.pinnedUuid, fun id e s h hs => List.mem_append_left _ (hinv.captured id e s h hs)⟩
  | succeed id captured saved =>
    obtain ⟨plan, hplan, hstep⟩ := bind_eq_some_iff.1 hstep
    obtain ⟨-, w₁, rfl, hinv₁, -⟩ := succeed_cases hinv hplan hstep
    exact hinv₁.endTurn id
  | abandon id =>
    obtain ⟨plan, -, rfl⟩ := map_eq_some_iff.1 hstep
    exact (hinv.touch id).endTurn id
  | fail id =>
    obtain ⟨plan, -, rfl⟩ := map_eq_some_iff.1 hstep
    exact hinv.endTurn id

theorem sound_step_iff (hparse : ∀ uuid : Uuid, parseStr uuid.toText = some uuid) (hinv : Inv w)
    (hsound : w.Sound) (hstep : (conversations parseStr).step w label = some w') :
    w'.Sound ↔ FirstTurnCreates parseStr w label := by
  cases label with
  | tick elapsed =>
    cases hstep
    exact iff_of_true (hsound.congr rfl rfl fun _ => rfl) trivial
  | resolve id backend mode loaded choices =>
    dsimp only at hstep
    split_ifs at hstep with hcond
    cases hstep
    exact sound_resolve_iff hparse hinv hsound (isNone_iff_eq_none.1 hcond.1)
  | create id sessionId =>
    obtain ⟨plan, -, hstep⟩ := bind_eq_some_iff.1 hstep
    split_ifs at hstep
    cases hstep
    refine iff_of_true ⟨fun id plan s h hs => ?_, fun id h => ?_⟩ trivial
    · exact List.mem_append_left _ (hsound.resumes id plan s h hs)
    · obtain ⟨⟨uuid, hx, hnot⟩, hturn⟩ := h
      exact hsound.unstranded id ⟨⟨uuid, hx, fun h => hnot (List.mem_append_left _ h)⟩, hturn⟩
  | succeed id captured saved =>
    obtain ⟨plan, hplan, hstep⟩ := bind_eq_some_iff.1 hstep
    obtain ⟨hhas, w₁, rfl, hinv₁, hturns, hcreated, hseat⟩ := succeed_cases hinv hplan hstep
    have hsound₁ : w₁.Sound := hsound.congr hturns hcreated hseat
    refine iff_of_true ((sound_endTurn_iff hinv₁ hsound₁ (hturns ▸ hplan)).2 fun s hs => .inl ?_)
      trivial
    rw [World.Has, hcreated]
    exact hhas s hs
  | abandon id =>
    obtain ⟨plan, hplan, rfl⟩ := map_eq_some_iff.1 hstep
    have hsound' : (w.touch id).Sound := hsound.congr rfl rfl fun id' => seat_touch _ _ _ _
    rw [sound_endTurn_iff (hinv.touch id) hsound' hplan]
    have hgone : (w.touch id).store.get id = none ↔ w.store.get id = none := by
      rw [← seat_eq_none, ← seat_eq_none]
      exact iff_of_eq (congrArg (· = none) (seat_touch _ _ _ _))
    constructor
    · intro h plan' s hplan' hs
      rw [hplan] at hplan'
      cases hplan'
      exact (h s hs).imp_right hgone.1
    · exact fun h s hs => (h plan s hplan hs).imp_right hgone.2
  | fail id =>
    obtain ⟨plan, hplan, rfl⟩ := map_eq_some_iff.1 hstep
    rw [sound_endTurn_iff hinv hsound hplan]
    constructor
    · intro h plan' s hplan' hs
      rw [hplan] at hplan'
      cases hplan'
      exact h s hs
    · exact fun h s hs => h plan s hplan hs

/-- Every turn that resumes a session resumes one that exists, and no conversation is stranded, just
when each session that is to be created in a turn is created or its entry is gone when the turn
ends. -/
theorem resumes_exist_iff (hparse : ∀ uuid : Uuid, parseStr uuid.toText = some uuid)
    {ttl maxEntries : ℕ} (hrun : (conversations parseStr).exec (.new ttl maxEntries) labels =
      some w) :
    (conversations parseStr).Meets (FirstTurnCreates parseStr) (.new ttl maxEntries) labels ↔
      ∀ labels' w', labels' <+: labels →
        (conversations parseStr).exec (.new ttl maxEntries) labels' = some w' → w'.Sound :=
  (conversations parseStr).meets_iff_forall_reached_of (K := fun _ => True)
    (fun _ _ _ hinv _ hstep => inv_step hinv hstep)
    (fun _ _ _ hinv hsound _ hstep => sound_step_iff hparse hinv hsound hstep) (inv_new _ _)
    (sound_new _ _) (fun _ _ => trivial) hrun

end

/-! ## A first turn that fails -/

def sampleResolve (swept : List ConversationId) : Label :=
  .resolve "a" .claudeCode .nativeWithFallback true ⟨swept, ["a"], 1⟩

def sampleResumed : List Label :=
  [sampleResolve [], .create "a" (Uuid.toText 1), .succeed "a" none true, sampleResolve ["a"]]

def sampleTest (_ : World) : Label → Bool
  | .resolve _ _ mode _ _ => mode ≠ .nativeOnly
  | .fail _ | .abandon _ => false
  | _ => true

/-- The second turn resumes the session of the first one. -/
theorem sample_resumed :
    ∃ w, (conversations Uuid.ofText).exec (.new 100 10) sampleResumed = some w ∧
      ∀ labels w', labels <+: sampleResumed →
        (conversations Uuid.ofText).exec (.new 100 10) labels = some w' → w'.Sound := by
  have hmeets : (conversations Uuid.ofText).Meets (FirstTurnCreates Uuid.ofText) (.new 100 10)
      sampleResumed := by
    have htest : (conversations Uuid.ofText).meetsTest sampleTest (.new 100 10) sampleResumed := by
      decide +kernel
    refine Machine.meets_of_meetsTest _ (fun w label h => ?_) htest
    cases label with
    | resolve id backend mode loaded choices =>
      intro _ hmode
      exact absurd hmode (of_decide_eq_true h)
    | fail | abandon => cases h
    | _ => trivial
  obtain ⟨w, hw⟩ : ∃ w, (conversations Uuid.ofText).exec (.new 100 10) sampleResumed = some w :=
    isSome_iff_exists.1 (by decide +kernel)
  exact ⟨w, hw, (resumes_exist_iff Uuid.ofText_toText hw).1 hmeets⟩

def sampleStillborn : List Label := [sampleResolve [], .fail "a", sampleResolve ["a"]]

/-- The second turn resumes a session, and none was created. -/
theorem not_sound_of_failed : ¬ ∀ (labels : List Label) (w : World),
      (conversations Uuid.ofText).exec (.new 100 10) labels = some w → w.Sound := by
  intro h
  have hrun : ((conversations Uuid.ofText).exec (.new 100 10) sampleStillborn).map
      (fun w => ((w.turns "a").map BackendTurnPlan.resumes, w.created)) =
        some (some (some (Uuid.toText 1)), []) := by
    decide +kernel
  obtain ⟨w, hw, heq⟩ := map_eq_some_iff.1 hrun
  obtain ⟨hturn, hcreated⟩ := Prod.mk.inj heq
  obtain ⟨plan, hplan, hresumes⟩ := map_eq_some_iff.1 hturn
  have hhas := (h sampleStillborn w hw).resumes "a" plan _ hplan hresumes
  rw [World.Has, hcreated] at hhas
  cases hhas

end Gadgetron.Penny.Turns
