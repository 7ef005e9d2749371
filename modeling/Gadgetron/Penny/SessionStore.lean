import Gadgetron.Core.Context
import Gadgetron.Lib.Exec
import Gadgetron.Lib.Text
import Mathlib.Data.List.AList

/-!
# Conversations and their locks

`SessionStore`. A conversation's lock is in its entry, and a driver holds it for one turn.
-/

namespace Gadgetron.Penny.Session

open Lib Option

abbrev ConversationId := String

def defaultOwnerId : String := "_self"

def parseConversationId (raw : ConversationId) : String × String :=
  match splitOnce ':' raw.toList with
  | some (owner, local') =>
    if owner.isEmpty then (defaultOwnerId, raw) else (.ofList owner, .ofList local')
  | none => (defaultOwnerId, raw)

inductive AgentBackend
  | claudeCode
  | codexExec
  deriving DecidableEq

structure SessionEntry where
  backend : AgentBackend
  claudeSessionUuid : Uuid
  backendSessionIds : AgentBackend → Option String
  lastUsed : ℕ
  turnCount : BitVec 32
  /-- The driver that holds `mutex`. -/
  holder : Option ℕ

namespace SessionEntry

def setBackendSessionId (entry : SessionEntry) (backend : AgentBackend) (sessionId : String) :
    SessionEntry :=
  { entry with
    backendSessionIds := Function.update entry.backendSessionIds backend (some sessionId) }

def withUuid (uuid : Uuid) (backend : AgentBackend) (now : ℕ) : SessionEntry where
  backend := backend
  claudeSessionUuid := uuid
  backendSessionIds := fun _ => none
  lastUsed := now
  turnCount := 0
  holder := none

def withBackendSession (uuid : Uuid) (backend : AgentBackend) (backendSessionId : Option String)
    (now : ℕ) : SessionEntry :=
  match backendSessionId with
  | some sessionId => (withUuid uuid backend now).setBackendSessionId backend sessionId
  | none => withUuid uuid backend now

def bump (entry : SessionEntry) (now : ℕ) : SessionEntry :=
  { entry with turnCount := entry.turnCount + 1, lastUsed := now }

def setHolder (entry : SessionEntry) (holder : Option ℕ) : SessionEntry :=
  { entry with holder }

end SessionEntry

/-! ## Drivers -/

/-- A call of `get_or_create_pinned`, or of `get_or_create_with_backend_session`, which does not
compare the backends. -/
structure Request where
  id : ConversationId
  backend : AgentBackend
  backendSessionId : Option String
  pinned : Bool
  deriving DecidableEq

inductive Phase
  | idle
  /-- In the loop of `sweep_expired`. -/
  | sweeping (request : Request) (now : ℕ) (expired : List ConversationId)
  /-- After it, with the ids that are still to be removed. -/
  | removing (request : Request) (expired : List ConversationId)
  | entered (request : Request) (entry : ℕ) (inserted : Bool)
  /-- In the loop of `evict_lru_excluding`. -/
  | evicting (request : Request) (entry : ℕ) (oldest : Option (ConversationId × ℕ))
  /-- `get_or_create` has returned, and the driver waits for the lock. -/
  | returned (request : Request) (entry : ℕ) (firstTurn : Bool)
  | running (request : Request) (entry : ℕ) (firstTurn : Bool)
  /-- The turn was a success and `touch` is done. -/
  | touched (request : Request) (entry : ℕ) (firstTurn : Bool)
  deriving DecidableEq

namespace Phase

def seat : Phase → Option (ConversationId × ℕ)
  | .entered request entry _ => some (request.id, entry)
  | .evicting request entry _ => some (request.id, entry)
  | .returned request entry _ => some (request.id, entry)
  | .running request entry _ => some (request.id, entry)
  | .touched request entry _ => some (request.id, entry)
  | _ => none

def lock : Phase → Option (ConversationId × ℕ)
  | .running request entry _ => some (request.id, entry)
  | .touched request entry _ => some (request.id, entry)
  | _ => none

end Phase

/-! ## The store -/

structure SessionStore where
  (ttl maxEntries : ℕ)
  entries : AList fun _ : ConversationId => ℕ

structure State where
  store : SessionStore
  heap : List SessionEntry
  now : ℕ
  drivers : ℕ → Phase

inductive Op
  /-- It calls `get_or_create`. -/
  | call (request : Request)
  | visit (id : ConversationId)
  /-- The loop of `sweep_expired` ends. -/
  | swept
  /-- `sweep_expired` removes an id that it has collected. -/
  | remove
  /-- The `entry` call, with the value of `Uuid::new_v4`. -/
  | enter (newV4 : Uuid)
  /-- The comparison of `len` with `max_entries`. `len` adds up the shards of the map one after
  another, so that `total` is whatever it has found. -/
  | checkLen (total : ℕ)
  /-- The loop of `evict_lru_excluding` ends, and what it has found is removed. -/
  | evict
  | lock
  /-- A backend session id is captured in the turn. -/
  | capture (sessionId : String)
  | touch
  /-- The guard is dropped: after `touch`, after a failed turn or with the future of the turn. -/
  | release

inductive Label
  | tick (elapsed : ℕ)
  | act (driver : ℕ) (op : Op)

def sweepScanHardCap : ℕ := 256

namespace SessionStore

def new (ttl maxEntries : ℕ) : SessionStore := ⟨ttl, maxEntries, ∅⟩

def budget (self : SessionStore) : ℕ := max 1 (min (self.maxEntries / 10) sweepScanHardCap)

def remove (self : SessionStore) (id : ConversationId) : SessionStore :=
  { self with entries := self.entries.erase id }

end SessionStore

namespace State

def new (ttl maxEntries : ℕ) : State := ⟨.new ttl maxEntries, [], 0, fun _ => .idle⟩

def put (s : State) (driver : ℕ) (phase : Phase) : State :=
  { s with drivers := Function.update s.drivers driver phase }

def modify (s : State) (entry : ℕ) (f : SessionEntry → SessionEntry) : State :=
  { s with heap := s.heap.modify entry f }

/-- A change through the store, which does nothing for an id without an entry. -/
def modifyId (s : State) (id : ConversationId) (f : SessionEntry → SessionEntry) : State :=
  match s.store.entries.lookup id with
  | some entry => s.modify entry f
  | none => s

def remove (s : State) (id : ConversationId) : State := { s with store := s.store.remove id }

def insert (s : State) (id : ConversationId) (entry : SessionEntry) : State :=
  { s with
    store := { s.store with entries := s.store.entries.insert id s.heap.length }
    heap := s.heap ++ [entry] }

def sweepVisit (s : State) (now : ℕ) (id : ConversationId) (expired : List ConversationId) :
    Option (List ConversationId) :=
  match s.store.entries.lookup id with
  | none => none
  | some entry =>
    (s.heap[entry]?).map fun e =>
      if s.store.ttl < now - e.lastUsed then expired ++ [id] else expired

def evictVisit (s : State) (protect id : ConversationId) (oldest : Option (ConversationId × ℕ)) :
    Option (Option (ConversationId × ℕ)) :=
  match s.store.entries.lookup id with
  | none => none
  | some entry =>
    if id = protect then some oldest
    else
      (s.heap[entry]?).map fun e =>
        match oldest with
        | none => some (id, e.lastUsed)
        | some (_, t) => if e.lastUsed < t then some (id, e.lastUsed) else oldest

/-- The end of `get_or_create_pinned`. -/
def conclude (s : State) (driver : ℕ) (request : Request) (entry : ℕ) (inserted : Bool) :
    Option State :=
  let firstTurn := inserted && request.backendSessionId.isNone
  (s.heap[entry]?).map fun e =>
    if request.pinned && e.backend ≠ request.backend then s.put driver .idle
    else s.put driver (.returned request entry firstTurn)

end State

def preferredUuid (parseStr : String → Option Uuid) (request : Request) : Option Uuid :=
  let (_, local') := parseConversationId request.id
  match request.backend with
  | .claudeCode => (request.backendSessionId.bind parseStr).or (parseStr local')
  | .codexExec => parseStr local'

/-- What `get_or_create` writes into the entry that it has found or inserted. -/
def Request.store (request : Request) (entry : SessionEntry) : SessionEntry :=
  match request.backendSessionId with
  | none => entry
  | some sessionId =>
    if entry.backend = request.backend then entry.setBackendSessionId request.backend sessionId
    else entry

/-- The `entry` call and what is written into its entry, which no step of the store reads. -/
def State.enter (parseStr : String → Option Uuid) (s : State) (driver : ℕ) (request : Request)
    (newV4 : Uuid) : State :=
  match s.store.entries.lookup request.id with
  | some entry => (s.modify entry request.store).put driver (.entered request entry false)
  | none =>
    let uuid := (preferredUuid parseStr request).getD newV4
    let entry := SessionEntry.withBackendSession uuid request.backend request.backendSessionId
      s.now
    (s.insert request.id entry).put driver (.entered request s.heap.length true)

def State.act (parseStr : String → Option Uuid) (s : State) (driver : ℕ) (op : Op) : Option State :=
  match op, s.drivers driver with
  | .call request, .idle => some (s.put driver (.sweeping request s.now []))
  | .visit id, .sweeping request now expired =>
    if expired.length < s.store.budget then
      (s.sweepVisit now id expired).map fun expired =>
        s.put driver (.sweeping request now expired)
    else none
  | .swept, .sweeping request _ expired => some (s.put driver (.removing request expired))
  | .remove, .removing request (id :: expired) =>
    some ((s.remove id).put driver (.removing request expired))
  | .enter newV4, .removing request [] => some (s.enter parseStr driver request newV4)
  | .checkLen total, .entered request entry inserted =>
    if inserted && s.store.maxEntries < total then
      some (s.put driver (.evicting request entry none))
    else s.conclude driver request entry inserted
  | .visit id, .evicting request entry oldest =>
    (s.evictVisit request.id id oldest).map fun oldest =>
      s.put driver (.evicting request entry oldest)
  | .evict, .evicting request entry none => s.conclude driver request entry true
  | .evict, .evicting request entry (some (id, _)) =>
    (s.remove id).conclude driver request entry true
  | .lock, .returned request entry firstTurn =>
    if (s.heap[entry]?).any (·.holder = none) then
      some ((s.modify entry (·.setHolder (some driver))).put driver
        (.running request entry firstTurn))
    else none
  | .capture sessionId, .running request _ _ =>
    some (s.modifyId request.id (·.setBackendSessionId request.backend sessionId))
  | .touch, .running request entry firstTurn =>
    some ((s.modifyId request.id (·.bump s.now)).put driver (.touched request entry firstTurn))
  | .release, .returned .. => some (s.put driver .idle)
  | .release, .running _ entry _ =>
    some ((s.modify entry (·.setHolder none)).put driver .idle)
  | .release, .touched _ entry _ =>
    some ((s.modify entry (·.setHolder none)).put driver .idle)
  | _, _ => none

/-- The store with its drivers; `Uuid::parse_str` is a parameter. -/
abbrev sessions (parseStr : String → Option Uuid) : Machine State Label where
  step s
    | .tick elapsed => some { s with now := s.now + elapsed }
    | .act driver op => s.act parseStr driver op

/-! ## Turns that exclude each other -/

namespace State

/-- Some driver is between the lookup of this conversation's entry and the release. -/
def InFlight (s : State) (id : ConversationId) : Prop :=
  ∃ d entry, (s.drivers d).seat = some (id, entry)

/-- No two drivers hold the lock of one entry. -/
def Exclusive (s : State) : Prop :=
  ∀ d d' id entry entry', (s.drivers d).lock = some (id, entry) →
    (s.drivers d').lock = some (id, entry') → d = d'

def removes (s : State) : Label → Option ConversationId
  | .act d .remove =>
    match s.drivers d with
    | .removing _ (id :: _) => some id
    | _ => none
  | .act d .evict =>
    match s.drivers d with
    | .evicting _ _ (some (id, _)) => some id
    | _ => none
  | _ => none

/-- The step is a call for this conversation that is told to be its first turn. -/
def observesFirst (s : State) (id : ConversationId) : Label → Bool
  | .act d (.enter _) =>
    match s.drivers d with
    | .removing request [] =>
      request.id = id && (s.store.entries.lookup id).isNone && request.backendSessionId.isNone
    | _ => false
  | _ => false

end State

/-- The step does not take out the id of a conversation with a driver in flight. -/
def Spares (s : State) (label : Label) : Prop :=
  ∀ id, s.removes label = some id → ¬ s.InFlight id

section

variable (parseStr : String → Option Uuid)

def firstTurns (id : ConversationId) (s : State) : List Label → ℕ
  | [] => 0
  | label :: labels =>
    (if s.observesFirst id label then 1 else 0) +
      (((sessions parseStr).step s label).elim 0 fun s' => firstTurns id s' labels)

/-- After each step of the run some driver of the conversation is in flight. -/
def Occupied (id : ConversationId) (s : State) : List Label → Prop
  | [] => True
  | label :: labels =>
    ∀ s', (sessions parseStr).step s label = some s' → s'.InFlight id ∧ Occupied id s' labels

end

/-! ## The invariant -/

theorem Phase.seat_of_lock {phase : Phase} {x : ConversationId × ℕ} (h : phase.lock = some x) :
    phase.seat = some x := by
  cases phase <;> first | exact h | cases h

/-- What a driver in flight has is what the store has, and a lock knows who holds it. -/
structure Inv (s : State) : Prop where
  seated : ∀ d id entry, (s.drivers d).seat = some (id, entry) →
    s.store.entries.lookup id = some entry
  held : ∀ d id entry, (s.drivers d).lock = some (id, entry) →
    (s.heap[entry]?).bind SessionEntry.holder = some d

theorem inv_new (ttl maxEntries : ℕ) : Inv (.new ttl maxEntries) := ⟨nofun, nofun⟩

section

variable {s s' : State} {d : ℕ} {phase : Phase} {id : ConversationId} {entry : ℕ}
  {f : SessionEntry → SessionEntry}

section

variable (h : Inv s)

include h

theorem State.not_inFlight_of_lookup (hnone : s.store.entries.lookup id = none) :
    ¬ s.InFlight id := by
  rintro ⟨d, entry, hseat⟩
  rw [h.seated d id entry hseat] at hnone
  cases hnone

theorem Inv.exclusive : s.Exclusive := by
  intro d d' id entry entry' hlock hlock'
  have hentry := h.seated d id entry (Phase.seat_of_lock hlock)
  have hentry' := h.seated d' id entry' (Phase.seat_of_lock hlock')
  have hsame : entry = entry' := mem_unique hentry hentry'
  subst hsame
  exact mem_unique (h.held d id entry hlock) (h.held d' id entry hlock')

theorem Inv.put
    (hseat : ∀ id entry, phase.seat = some (id, entry) → s.store.entries.lookup id = some entry)
    (hlock : ∀ id entry, phase.lock = some (id, entry) →
      (s.heap[entry]?).bind SessionEntry.holder = some d) : Inv (s.put d phase) := by
  constructor
  · intro d' id entry hd'
    by_cases heq : d' = d
    · subst heq
      exact hseat id entry (by simpa [State.put] using hd')
    · exact h.seated d' id entry (by simpa [State.put, heq] using hd')
  · intro d' id entry hd'
    by_cases heq : d' = d
    · subst heq
      exact hlock id entry (by simpa [State.put] using hd')
    · exact h.held d' id entry (by simpa [State.put, heq] using hd')

theorem Inv.move (hseat : ∀ x, phase.seat = some x → (s.drivers d).seat = some x)
    (hlock : ∀ x, phase.lock = some x → (s.drivers d).lock = some x) : Inv (s.put d phase) :=
  h.put (fun id entry hx => h.seated d id entry (hseat _ hx))
    (fun id entry hx => h.held d id entry (hlock _ hx))

theorem Inv.remove (hfree : ¬ s.InFlight id) : Inv (s.remove id) := by
  refine ⟨fun d id' entry hd => ?_, h.held⟩
  have hne : id' ≠ id := by
    rintro rfl
    exact hfree ⟨d, entry, hd⟩
  exact (AList.lookup_erase_ne hne).trans (h.seated d id' entry hd)

theorem Inv.modify_of_free (hfree : ∀ d id, (s.drivers d).lock ≠ some (id, entry)) :
    Inv (s.modify entry f) := by
  refine ⟨h.seated, fun d id entry' hd => ?_⟩
  have hne : entry ≠ entry' := by
    rintro rfl
    exact hfree d id hd
  have hheap : (s.heap.modify entry f)[entry']? = s.heap[entry']? := by
    simp [hne]
  exact (congrArg (Option.bind · SessionEntry.holder) hheap).trans (h.held d id entry' hd)

theorem Inv.modify (hf : ∀ e, (f e).holder = e.holder) : Inv (s.modify entry f) := by
  refine ⟨h.seated, fun d id entry' hd => ?_⟩
  have hheap : ((s.heap.modify entry f)[entry']?).bind SessionEntry.holder =
      (s.heap[entry']?).bind SessionEntry.holder := by
    rw [List.getElem?_modify]
    cases s.heap[entry']? with
    | none => rfl
    | some e =>
      by_cases heq : entry = entry'
      · simp [heq, hf]
      · simp [heq]
  exact hheap.trans (h.held d id entry' hd)

theorem Inv.modifyId (hf : ∀ e, (f e).holder = e.holder) : Inv (s.modifyId id f) := by
  unfold State.modifyId
  cases s.store.entries.lookup id with
  | none => exact h
  | some entry => exact h.modify hf

theorem Inv.insert (hnone : s.store.entries.lookup id = none) (e : SessionEntry) :
    Inv (s.insert id e) := by
  constructor
  · intro d id' entry hd
    have hne : id' ≠ id := by
      rintro rfl
      exact State.not_inFlight_of_lookup h hnone ⟨d, entry, hd⟩
    exact (AList.lookup_insert_ne hne).trans (h.seated d id' entry hd)
  · intro d id' entry hd
    have hheld := h.held d id' entry hd
    have hlt : entry < s.heap.length := by
      by_contra hle
      rw [List.getElem?_eq_none (by omega)] at hheld
      cases hheld
    exact (congrArg (Option.bind · SessionEntry.holder) (List.getElem?_append_left hlt)).trans hheld

theorem Inv.conclude {request : Request} {inserted : Bool}
    (hseat : (s.drivers d).seat = some (request.id, entry))
    (hstep : s.conclude d request entry inserted = some s') : Inv s' := by
  obtain ⟨e, -, rfl⟩ := map_eq_some_iff.1 hstep
  split
  · exact h.move nofun nofun
  · refine h.move (fun x hx => ?_) nofun
    cases hx
    exact hseat

theorem Inv.enter {parseStr : String → Option Uuid} (request : Request)
    (newV4 : Uuid) : Inv (s.enter parseStr d request newV4) := by
  unfold State.enter
  cases hlookup : s.store.entries.lookup request.id with
  | some entry =>
    have hstore : ∀ e, (request.store e).holder = e.holder := by
      intro e
      unfold Request.store SessionEntry.setBackendSessionId
      split
      · rfl
      · split <;> rfl
    refine (h.modify hstore).put (fun id entry' hx => ?_) nofun
    cases hx
    exact hlookup
  | none =>
    refine (h.insert hlookup _).put (fun id entry' hx => ?_) nofun
    cases hx
    exact AList.lookup_insert _

theorem Inv.lock {request : Request} {firstTurn : Bool}
    (hd : s.drivers d = .returned request entry firstTurn)
    (hfree : (s.heap[entry]?).any (·.holder = none)) :
    Inv ((s.modify entry (·.setHolder (some d))).put d (.running request entry firstTurn)) := by
  obtain ⟨e, he, hholder⟩ := (Option.any_eq_true _ _).1 hfree
  have hnobody : ∀ d' id, (s.drivers d').lock ≠ some (id, entry) := by
    intro d' id hlock
    have hheld := h.held d' id entry hlock
    rw [he, bind_some, of_decide_eq_true hholder] at hheld
    cases hheld
  refine (h.modify_of_free hnobody).put (fun id entry' hx => ?_) (fun id entry' hx => ?_)
  · cases hx
    exact h.seated d request.id entry (by rw [hd]; rfl)
  · cases hx
    change ((s.heap.modify entry _)[entry]?).bind SessionEntry.holder = some d
    rw [List.getElem?_modify, he]
    simp [SessionEntry.setHolder]

theorem Inv.release (hd : (s.drivers d).lock = some (id, entry)) :
    Inv ((s.modify entry (·.setHolder none)).put d .idle) := by
  have hidle : Inv (s.put d .idle) := h.move nofun nofun
  refine hidle.modify_of_free fun d' id' hlock => ?_
  have hne : d' ≠ d := by
    rintro rfl
    simp [State.put, Phase.lock] at hlock
  have hlock' : (s.drivers d').lock = some (id', entry) := by
    simpa [State.put, hne] using hlock
  have hheld := (h.held d' id' entry hlock').symm.trans (h.held d id entry hd)
  exact hne (some.inj hheld)

end

end

/-! ## Steps -/

section

variable {parseStr : String → Option Uuid} {s s' : State} {label : Label} {id : ConversationId}

section

variable (h : Inv s)

include h

theorem Inv.act {d : ℕ} {op : Op} (hspares : Spares s (.act d op))
    (hstep : s.act parseStr d op = some s') : Inv s' := by
  unfold State.act at hstep
  split at hstep
  case h_1 request hd =>
    cases hstep
    exact h.move nofun nofun
  case h_2 id request now expired hd =>
    split at hstep
    · obtain ⟨expired', -, rfl⟩ := map_eq_some_iff.1 hstep
      exact h.move nofun nofun
    · cases hstep
  case h_3 request now expired hd =>
    cases hstep
    exact h.move nofun nofun
  case h_4 request id expired hd =>
    cases hstep
    have hfree : ¬ s.InFlight id := hspares id (by simp [State.removes, hd])
    exact (h.remove hfree).move nofun nofun
  case h_5 newV4 request hd =>
    cases hstep
    exact h.enter request newV4
  case h_6 total request entry inserted hd =>
    split at hstep
    · cases hstep
      refine h.move (fun x hx => ?_) nofun
      rw [hd]
      exact hx
    · exact h.conclude (by rw [hd]; rfl) hstep
  case h_7 id request entry oldest hd =>
    obtain ⟨oldest', -, rfl⟩ := map_eq_some_iff.1 hstep
    refine h.move (fun x hx => ?_) nofun
    rw [hd]
    exact hx
  case h_8 request entry hd => exact h.conclude (by rw [hd]; rfl) hstep
  case h_9 request entry id lastUsed hd =>
    have hfree : ¬ s.InFlight id := hspares id (by simp [State.removes, hd])
    refine (h.remove hfree).conclude ?_ hstep
    exact (congrArg Phase.seat hd).trans rfl
  case h_10 request entry firstTurn hd =>
    split at hstep
    · rename_i hfree
      cases hstep
      exact h.lock hd hfree
    · cases hstep
  case h_11 sessionId request entry firstTurn hd =>
    cases hstep
    exact h.modifyId fun _ => rfl
  case h_12 request entry firstTurn hd =>
    cases hstep
    have hbump : Inv (s.modifyId request.id (·.bump s.now)) := h.modifyId fun _ => rfl
    have hdrivers : (s.modifyId request.id (·.bump s.now)).drivers d =
        .running request entry firstTurn := by
      rw [← hd]
      unfold State.modifyId
      split <;> rfl
    refine hbump.move (fun x hx => ?_) (fun x hx => ?_)
    · rw [hdrivers]
      exact hx
    · rw [hdrivers]
      exact hx
  case h_13 request entry firstTurn hd =>
    cases hstep
    exact h.move nofun nofun
  case h_14 request entry firstTurn hd =>
    cases hstep
    exact h.release (by rw [hd]; rfl)
  case h_15 request entry firstTurn hd =>
    cases hstep
    exact h.release (by rw [hd]; rfl)
  case h_16 => cases hstep

theorem Inv.step (hspares : Spares s label)
    (hstep : (sessions parseStr).step s label = some s') : Inv s' := by
  cases label with
  | tick elapsed =>
    cases hstep
    exact ⟨h.seated, h.held⟩
  | act d op => exact h.act hspares hstep

theorem observesFirst_of_inFlight (hflight : s.InFlight id) :
    s.observesFirst id label = false := by
  by_contra hobserves
  rw [Bool.not_eq_false] at hobserves
  unfold State.observesFirst at hobserves
  split at hobserves
  · split at hobserves
    · simp only [Bool.and_eq_true, decide_eq_true_eq, isNone_iff_eq_none] at hobserves
      exact State.not_inFlight_of_lookup h hobserves.1.2 hflight
    · cases hobserves
  · cases hobserves

end

end

/-! ## Runs -/

section

variable {parseStr : String → Option Uuid} {s s' : State} {labels labels' : List Label}
  {id : ConversationId}

section

variable (h : Inv s)

include h

theorem Inv.exec (hmeets : (sessions parseStr).Meets Spares s labels)
    (hrun : (sessions parseStr).exec s labels = some s') : Inv s' :=
  (sessions parseStr).invariant_of_meets (fun _ _ _ hinv hspares hstep => hinv.step hspares hstep)
    h hmeets hrun

theorem firstTurns_of_inFlight (hflight : s.InFlight id)
    (hmeets : (sessions parseStr).Meets Spares s labels) (hocc : Occupied parseStr id s labels) :
    firstTurns parseStr id s labels = 0 := by
  induction labels generalizing s with
  | nil => rfl
  | cons label labels ih =>
    unfold firstTurns
    rw [observesFirst_of_inFlight h hflight]
    cases hstep : (sessions parseStr).step s label with
    | none => rfl
    | some s' =>
      obtain ⟨hflight', hocc'⟩ := hocc s' hstep
      have hrest := ih (h.step hmeets.1 hstep) hflight' (hmeets.2 s' hstep) hocc'
      simpa using hrest

theorem firstTurns_le_one (hmeets : (sessions parseStr).Meets Spares s labels)
    (hocc : Occupied parseStr id s labels) : firstTurns parseStr id s labels ≤ 1 := by
  cases labels with
  | nil => exact Nat.zero_le 1
  | cons label labels =>
    unfold firstTurns
    cases hstep : (sessions parseStr).step s label with
    | none =>
      rw [elim_none]
      split <;> omega
    | some s' =>
      obtain ⟨hflight', hocc'⟩ := hocc s' hstep
      rw [elim_some, firstTurns_of_inFlight (h.step hmeets.1 hstep) hflight'
        (hmeets.2 s' hstep) hocc']
      split <;> omega

end

/-- If no sweep and no eviction takes out a conversation with a driver in flight, no two drivers
ever hold locks of one conversation, and of all calls of a time in which it stays in flight at most
one is told to be the first turn. -/
theorem exclusive_of_spares {ttl maxEntries : ℕ}
    (hmeets : (sessions parseStr).Meets Spares (.new ttl maxEntries) (labels ++ labels'))
    (hrun : (sessions parseStr).exec (.new ttl maxEntries) labels = some s) :
    s.Exclusive ∧ ∀ id, Occupied parseStr id s labels' → firstTurns parseStr id s labels' ≤ 1 := by
  have hinv : Inv s := (inv_new ttl maxEntries).exec hmeets.append_left hrun
  exact ⟨hinv.exclusive, fun id hocc => firstTurns_le_one hinv (hmeets.of_append _ hrun) hocc⟩

end

/-! ## A conversation that is evicted during its turn -/

def sampleRequest (id : ConversationId) : Request := ⟨id, .claudeCode, none, true⟩

def sampleWaiting : List Label :=
  [.act 0 (.call (sampleRequest "a")), .act 0 .swept, .act 0 (.enter 1), .act 0 (.checkLen 1),
    .act 0 .lock, .act 1 (.call (sampleRequest "a")), .act 1 (.visit "a"), .act 1 .swept,
    .act 1 (.enter 2), .act 1 (.checkLen 1)]

def sampleHandover : List Label :=
  [.act 0 .touch, .act 0 .release, .act 1 .lock]

theorem exclusive_of_spares_sample :
    ∃ s, (sessions fun _ => none).exec (.new 100 1) sampleWaiting = some s ∧ s.Exclusive ∧
      ∀ id, Occupied (fun _ => none) id s sampleHandover →
        firstTurns (fun _ => none) id s sampleHandover ≤ 1 := by
  have htest : (sessions fun _ => none).meetsTest (fun s label => (s.removes label).isNone)
      (.new 100 1) (sampleWaiting ++ sampleHandover) := by decide +kernel
  have hmeets : (sessions fun _ => none).Meets Spares (.new 100 1)
      (sampleWaiting ++ sampleHandover) := by
    refine Machine.meets_of_meetsTest _ (fun s label hnone id hid => ?_) htest
    rw [hid] at hnone
    cases hnone
  obtain ⟨s, hs⟩ : ∃ s, (sessions fun _ => none).exec (.new 100 1) sampleWaiting = some s :=
    isSome_iff_exists.1 (by decide +kernel)
  exact ⟨s, hs, exclusive_of_spares hmeets hs⟩

/-- Driver 0 is in a turn of `"a"` in a store of one entry. Driver 1 evicts it, and driver 2 comes
with `"a"` and gets the lock of a new entry. -/
def sampleEvicted : List Label :=
  [.act 0 (.call (sampleRequest "a")), .act 0 .swept, .act 0 (.enter 1), .act 0 (.checkLen 1),
    .act 0 .lock,
    .act 1 (.call (sampleRequest "b")), .act 1 (.visit "a"), .act 1 .swept, .act 1 (.enter 2),
    .act 1 (.checkLen 2), .act 1 (.visit "a"), .act 1 (.visit "b"), .act 1 .evict,
    .act 2 (.call (sampleRequest "a")), .act 2 (.visit "b"), .act 2 .swept, .act 2 (.enter 3),
    .act 2 (.checkLen 2), .act 2 (.visit "a"), .act 2 (.visit "b"), .act 2 .evict, .act 2 .lock]

/-- Two drivers hold locks of one conversation, and both have been told that it is the first
turn. -/
theorem not_exclusive_of_evicted :
    ¬ ∀ (parseStr : String → Option Uuid) (ttl maxEntries : ℕ) (labels : List Label) (s : State),
      (sessions parseStr).exec (.new ttl maxEntries) labels = some s → s.Exclusive := by
  intro h
  have hrun : ((sessions fun _ => none).exec (.new 100 1) sampleEvicted).map
      (fun s => (s.drivers 0, s.drivers 2)) =
        some (.running (sampleRequest "a") 0 true, .running (sampleRequest "a") 2 true) := by
    decide +kernel
  obtain ⟨s, hs, hdrivers⟩ := map_eq_some_iff.1 hrun
  obtain ⟨h0, h2⟩ := Prod.mk.inj hdrivers
  have hsame := h _ 100 1 sampleEvicted s hs 0 2 "a" 0 2 (by rw [h0]; rfl) (by rw [h2]; rfl)
  exact absurd hsame (by decide)

end Gadgetron.Penny.Session
