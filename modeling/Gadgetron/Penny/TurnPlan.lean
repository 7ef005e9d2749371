import Gadgetron.Penny.SessionStore

/-!
# The turns of conversations

`resolve_spawn_mode` and `BackendTurnPlan`. A turn is planned as the first one or as one that
resumes a session of the agent's backend, and is recorded when the agent has exited well.
-/

namespace Gadgetron.Penny.Turns

open Lib Session

structure Entries where
  (ttl maxEntries : ℕ)
  entries : AList fun _ : ConversationId => SessionEntry

namespace Entries

def new (ttl maxEntries : ℕ) : Entries := ⟨ttl, maxEntries, ∅⟩

def get (self : Entries) (id : ConversationId) : Option SessionEntry := self.entries.lookup id

def put (self : Entries) (id : ConversationId) (entry : SessionEntry) : Entries :=
  { self with entries := self.entries.insert id entry }

def remove (self : Entries) (id : ConversationId) : Entries :=
  { self with entries := self.entries.erase id }

def modify (self : Entries) (id : ConversationId) (f : SessionEntry → SessionEntry) : Entries :=
  match self.get id with
  | some entry => self.put id (f entry)
  | none => self

def touch (self : Entries) (id : ConversationId) (now : ℕ) : Entries := self.modify id (·.bump now)

def setBackendSessionId (self : Entries) (id : ConversationId) (backend : AgentBackend)
    (sessionId : String) : Entries :=
  self.modify id (·.setBackendSessionId backend sessionId)

/-- `sweep_expired`; the entries are iterated in the order `visits`. -/
def sweepExpired (self : Entries) (now : ℕ) (visits : List ConversationId) : Entries :=
  let budget := max 1 (min (self.maxEntries / 10) sweepScanHardCap)
  let expired := visits.filter fun id => (self.get id).any fun e => self.ttl < now - e.lastUsed
  (expired.take budget).foldl remove self

/-- A turn of the loop of `evict_lru_excluding`. -/
def older (self : Entries) (protect : ConversationId) (oldest : Option (ConversationId × ℕ))
    (key : ConversationId) : Option (ConversationId × ℕ) :=
  if key = protect then oldest
  else
    match self.get key, oldest with
    | none, _ => oldest
    | some entry, none => some (key, entry.lastUsed)
    | some entry, some (_, t) => if entry.lastUsed < t then some (key, entry.lastUsed) else oldest

def evictLruExcluding (self : Entries) (protect : ConversationId) (visits : List ConversationId) :
    Entries :=
  match visits.foldl (self.older protect) none with
  | some (id, _) => self.remove id
  | none => self

end Entries

/-- What is not decided by the store: the orders in which its entries are iterated, and the value of
`Uuid::new_v4`. -/
structure Choices where
  (swept visited : List ConversationId)
  newV4 : Uuid

/-- The iterations come to each entry once. -/
def Choices.Fit (choices : Choices) (self : Entries) (now : ℕ) (id : ConversationId) : Prop :=
  choices.swept.Perm self.entries.keys ∧ choices.visited.Perm
      (id :: (self.sweepExpired now choices.swept).entries.keys.filter (· ≠ id))

instance (choices : Choices) (self : Entries) (now : ℕ) (id : ConversationId) :
    Decidable (choices.Fit self now id) := inferInstanceAs (Decidable (_ ∧ _))

/-- `get_or_create_with_backend_session`: the store, the entry and `first_turn`. -/
def getOrCreate (parseStr : String → Option Uuid) (self : Entries) (now : ℕ) (request : Request)
    (choices : Choices) : Entries × SessionEntry × Bool :=
  let self := self.sweepExpired now choices.swept
  match self.get request.id with
  | some entry => (self.put request.id (request.store entry), request.store entry, false)
  | none =>
    let uuid := (preferredUuid parseStr request).getD choices.newV4
    let entry := SessionEntry.withBackendSession uuid request.backend request.backendSessionId now
    let self := self.put request.id entry
    let self :=
      if self.maxEntries < self.entries.entries.length then
        self.evictLruExcluding request.id choices.visited
      else self
    (self, entry, request.backendSessionId.isNone)

inductive SessionMode
  | nativeWithFallback
  | nativeOnly
  | statelessOnly
  deriving DecidableEq

inductive SpawnMode
  | stateless
  | firstTurn (gadgetronSessionUuid : Uuid)
  | resumeTurn (gadgetronSessionUuid : Uuid) (backendSessionId : Option String)

inductive PennyErrorKind
  | agentBackendPinned (conversationId : ConversationId) (pinned requested : AgentBackend)
  | sessionNotFound (conversationId : ConversationId)
  | sessionCorrupted (conversationId : ConversationId)

/-- `resolve_spawn_mode`, with the store that it leaves; the conversation's lock is free. -/
def resolveSpawnMode (parseStr : String → Option Uuid) (mode : SessionMode) (self : Entries)
    (now : ℕ) (request : Request) (choices : Choices) : Entries × Except PennyErrorKind SpawnMode :=
  if mode = .statelessOnly then (self, .ok .stateless)
  else
    let (self, entry, firstTurn) := getOrCreate parseStr self now request choices
    if entry.backend ≠ request.backend then
      (self, .error (.agentBackendPinned request.id entry.backend request.backend))
    else if firstTurn && mode = .nativeOnly then (self, .error (.sessionNotFound request.id))
    else
      let backendSessionId := entry.backendSessionIds request.backend
      if firstTurn || (request.backend = .codexExec && backendSessionId.isNone) then
        (self, .ok (.firstTurn entry.claudeSessionUuid))
      else (self, .ok (.resumeTurn entry.claudeSessionUuid backendSessionId))

/-! ## Plans -/

inductive ClaudeSessionMode
  | stateless
  | first (sessionUuid : Uuid)
  | resume (sessionUuid : Uuid)
  deriving DecidableEq

inductive CodexExecMode
  | exec (persistSession : Bool)
  | resume (sessionId : String)
  deriving DecidableEq

inductive BackendCommandMode
  | claude (mode : ClaudeSessionMode)
  | codex (mode : CodexExecMode)
  deriving DecidableEq

structure BackendTurnPlan where
  backend : AgentBackend
  commandMode : BackendCommandMode
  auditConversationId : Option ConversationId
  persistedBackendSessionId : Option String

def BackendTurnPlan.forClaude (id : ConversationId) : SpawnMode → BackendTurnPlan
  | .stateless => ⟨.claudeCode, .claude .stateless, none, none⟩
  | .firstTurn uuid => ⟨.claudeCode, .claude (.first uuid), some id, some uuid.toText⟩
  | .resumeTurn uuid _ => ⟨.claudeCode, .claude (.resume uuid), some id, some uuid.toText⟩

def BackendTurnPlan.forCodex (id : ConversationId) :
    SpawnMode → Except PennyErrorKind BackendTurnPlan
  | .stateless => .ok ⟨.codexExec, .codex (.exec false), none, none⟩
  | .firstTurn _ => .ok ⟨.codexExec, .codex (.exec true), some id, none⟩
  | .resumeTurn _ none => .error (.sessionCorrupted id)
  | .resumeTurn _ (some sessionId) =>
    .ok ⟨.codexExec, .codex (.resume sessionId), some id, some sessionId⟩

def planBackendTurn (backend : AgentBackend) (id : ConversationId) (mode : SpawnMode) :
    Except PennyErrorKind BackendTurnPlan :=
  match backend with
  | .claudeCode => .ok (.forClaude id mode)
  | .codexExec => BackendTurnPlan.forCodex id mode

namespace BackendTurnPlan

def resumes (plan : BackendTurnPlan) : Option String :=
  match plan.commandMode with
  | .claude (.resume uuid) => some uuid.toText
  | .codex (.resume sessionId) => some sessionId
  | _ => none

/-- The session that the agent is told to begin under a name of its caller's choice. -/
def begins (plan : BackendTurnPlan) : Option String :=
  match plan.commandMode with
  | .claude (.first uuid) => some uuid.toText
  | _ => none

/-- The sessions that a run of the agent may create: the one that it is told to begin, or any if it
names them itself. -/
def mayCreate (plan : BackendTurnPlan) (sessionId : String) : Bool :=
  plan.begins = some sessionId || plan.commandMode = .codex (.exec true)

end BackendTurnPlan

/-! ## Turns -/

/-- A session of an agent's backend, with the conversation whose turn created it. -/
structure Created where
  id : ConversationId
  backend : AgentBackend
  sessionId : String
  deriving DecidableEq

structure World where
  store : Entries
  now : ℕ
  /-- What `AgentBackendSessionPersistence` holds. -/
  pins : ConversationId → AgentBackend → Option String
  created : List Created
  /-- The conversations' turns that are going on. -/
  turns : ConversationId → Option BackendTurnPlan

namespace World

def new (ttl maxEntries : ℕ) : World := ⟨.new ttl maxEntries, 0, fun _ _ => none, [], fun _ => none⟩

/-- The backend has created the session. -/
def Has (w : World) (id : ConversationId) (backend : AgentBackend) (sessionId : String) : Prop :=
  ⟨id, backend, sessionId⟩ ∈ w.created

instance (w : World) (id : ConversationId) (backend : AgentBackend) :
    DecidablePred (w.Has id backend) :=
  fun sessionId => inferInstanceAs (Decidable (⟨id, backend, sessionId⟩ ∈ w.created))

def endTurn (w : World) (id : ConversationId) : World :=
  { w with turns := Function.update w.turns id none }

/-- The end of `drive` after a success. -/
def touch (w : World) (id : ConversationId) : World := { w with store := w.store.touch id w.now }

/-- The session id of a turn, in the store and in `AgentBackendSessionPersistence`. -/
def record (w : World) (id : ConversationId) (backend : AgentBackend) (sessionId : String)
    (saved : Bool) : World :=
  { w with
    store := w.store.setBackendSessionId id backend sessionId
    pins :=
      if saved then Function.update w.pins id (Function.update (w.pins id) backend (some sessionId))
      else w.pins }

end World

inductive Label
  | tick (elapsed : ℕ)
  /-- A turn is resolved and planned; `loaded` tells whether the persistence answers. -/
  | resolve (id : ConversationId) (backend : AgentBackend) (mode : SessionMode) (loaded : Bool)
      (choices : Choices)
  /-- The agent's subprocess runs and its backend creates a session. -/
  | create (id : ConversationId) (sessionId : String)
  /-- The subprocess exits well; `captured` is the session id that the stream has announced. -/
  | succeed (id : ConversationId) (captured : Option String) (saved : Bool)
  /-- The receiver of the chunks is gone, and the subprocess is killed. -/
  | abandon (id : ConversationId)
  /-- The turn fails, before the subprocess starts or afterwards. -/
  | fail (id : ConversationId)

def World.request (w : World) (id : ConversationId) (backend : AgentBackend) (loaded : Bool) :
    Request :=
  ⟨id, backend, if loaded then w.pins id backend else none, true⟩

/-- `resolve_spawn_mode` and `plan_backend_turn`; an error ends the turn. -/
def World.resolve (parseStr : String → Option Uuid) (w : World) (id : ConversationId)
    (backend : AgentBackend) (mode : SessionMode) (loaded : Bool) (choices : Choices) : World :=
  let (store, resolved) :=
    resolveSpawnMode parseStr mode w.store w.now (w.request id backend loaded) choices
  match resolved.bind (planBackendTurn backend id) with
  | .ok plan => { w with store, turns := Function.update w.turns id (some plan) }
  | .error _ => { w with store }

/-- The end of a turn whose subprocess exits well, which it does only in a session that exists. -/
def World.succeed (w : World) (id : ConversationId) (plan : BackendTurnPlan)
    (captured : Option String) (saved : Bool) : Option World :=
  let named := plan.resumes.or plan.begins
  if (∀ s ∈ named, w.Has id plan.backend s) ∧ (∀ s ∈ captured, w.Has id plan.backend s) ∧
      (plan.backend = .claudeCode → captured = none) then
    match plan.auditConversationId, captured.or plan.persistedBackendSessionId with
    | some _, some sessionId =>
      some (((w.record id plan.backend sessionId saved).touch id).endTurn id)
    | _, _ => some ((w.touch id).endTurn id)
  else none

/-- `Uuid::parse_str` is a parameter. -/
abbrev conversations (parseStr : String → Option Uuid) : Machine World Label where
  step w
    | .tick elapsed => some { w with now := w.now + elapsed }
    | .resolve id backend mode loaded choices =>
      if (w.turns id).isNone ∧ choices.Fit w.store w.now id then
        some (w.resolve parseStr id backend mode loaded choices)
      else none
    | .create id sessionId =>
      (w.turns id).bind fun plan =>
        if plan.mayCreate sessionId then
          some { w with created := w.created ++ [⟨id, plan.backend, sessionId⟩] }
        else none
    | .succeed id captured saved =>
      (w.turns id).bind fun plan => w.succeed id plan captured saved
    | .abandon id => (w.turns id).map fun _ => (w.touch id).endTurn id
    | .fail id => (w.turns id).map fun _ => w.endTurn id

end Gadgetron.Penny.Turns
