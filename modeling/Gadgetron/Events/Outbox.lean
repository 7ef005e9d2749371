import Gadgetron.Core.Context
import Gadgetron.Lib.Exec
import Gadgetron.Lib.Table

/-!
# The outbox of knowledge events

`enqueue_in_transaction`, `lease_next`, `complete`, `fail`, `next_unreported_failure` and
`mark_oversight_recorded` on the rows of `knowledge_event_outbox`.
-/

namespace Gadgetron.Events

open Lib

def maxAttempts : ℕ := 3

inductive EventStatus
  | pending
  | processing
  | completed
  | failed
  deriving DecidableEq

structure EventKey where
  tenantId : Uuid
  (publisherBundleId eventKind subjectKind subjectId subjectRevision researcherBundleId : String)
  researcherRoleId : String
  deriving DecidableEq

structure KnowledgeEventRow where
  id : Uuid
  key : EventKey
  status : EventStatus
  attemptCount : ℕ
  nextAttemptAt : ℤ
  leaseOwner : Option String
  leaseExpiresAt : Option ℤ
  lastError : Option String
  (sourceId knowledgeJobId : Option Uuid)
  (createdAt updatedAt : ℤ)
  (completedAt oversightRecordedAt : Option ℤ)

namespace KnowledgeEventRow

/-- `make_interval(secs => n)`. -/
def interval (secs : ℤ) : ℤ := secs * 1000000

/-- The row that `enqueue_in_transaction` inserts. -/
def new (id : Uuid) (key : EventKey) (now : ℤ) : KnowledgeEventRow where
  id := id
  key := key
  status := .pending
  attemptCount := 0
  nextAttemptAt := now
  leaseOwner := none
  leaseExpiresAt := none
  lastError := none
  sourceId := none
  knowledgeJobId := none
  createdAt := now
  updatedAt := now
  completedAt := none
  oversightRecordedAt := none

/-- The `WHERE` of `lease_next`. -/
def leasable (now : ℤ) (event : KnowledgeEventRow) : Bool :=
  event.attemptCount < maxAttempts && event.nextAttemptAt ≤ now &&
    (event.status = .pending || (event.status = .processing && event.leaseExpiresAt.any (· ≤ now)))

def leaseOrder (event event' : KnowledgeEventRow) : Ordering :=
  (compare event.nextAttemptAt event'.nextAttemptAt).then
    ((compare event.createdAt event'.createdAt).then (compare event.id.toNat event'.id.toNat))

/-- The `SET` of `lease_next`. -/
def lease (now : ℤ) (workerId : String) (leaseSeconds : ℤ) (event : KnowledgeEventRow) :
    KnowledgeEventRow :=
  { event with
    status := .processing
    attemptCount := event.attemptCount + 1
    leaseOwner := some workerId
    leaseExpiresAt := some (now + interval leaseSeconds)
    updatedAt := now }

/-- The `WHERE` of `complete` and `fail`. -/
def ownedBy (workerId : String) (event : KnowledgeEventRow) : Bool :=
  event.status = .processing && event.leaseOwner = some workerId

def complete (now : ℤ) (sourceId knowledgeJobId : Uuid) (event : KnowledgeEventRow) :
    KnowledgeEventRow :=
  { event with
    status := .completed
    sourceId := some sourceId
    knowledgeJobId := some knowledgeJobId
    completedAt := some now
    leaseOwner := none
    leaseExpiresAt := none
    lastError := none
    updatedAt := now }

def fail (now : ℤ) (detail : String) (event : KnowledgeEventRow) : KnowledgeEventRow :=
  { event with
    status := if maxAttempts ≤ event.attemptCount then .failed else .pending
    nextAttemptAt :=
      if maxAttempts ≤ event.attemptCount then event.nextAttemptAt
      else now + interval (event.attemptCount * 2)
    leaseOwner := none
    leaseExpiresAt := none
    lastError := some (String.ofList (detail.toList.take 1000))
    updatedAt := now }

/-- The `WHERE` of `next_unreported_failure` and `mark_oversight_recorded`. -/
def unreported (event : KnowledgeEventRow) : Bool :=
  event.status = .failed && event.oversightRecordedAt.isNone

/-- The `ORDER BY` of `next_unreported_failure`. -/
def reportOrder (event event' : KnowledgeEventRow) : Ordering :=
  (compare event.updatedAt event'.updatedAt).then (compare event.id.toNat event'.id.toNat)

/-- The `SET` of `mark_oversight_recorded`. -/
def mark (now : ℤ) (event : KnowledgeEventRow) : KnowledgeEventRow :=
  { event with
    oversightRecordedAt := some now
    updatedAt := now }

end KnowledgeEventRow

structure EventStore where
  now : ℤ
  events : Table KnowledgeEventRow.id
  gone : List String
  (leases completions : List Uuid)

namespace EventStore

def initial (now : ℤ) : EventStore where
  now := now
  events := .empty
  gone := []
  leases := []
  completions := []

/-- The row with an id, if it satisfies the `WHERE`. -/
def find (s : EventStore) (eventId : Uuid) (p : KnowledgeEventRow → Bool) :
    Option KnowledgeEventRow :=
  (s.events.get eventId).filter p

/-- The row that `lease_next` takes; those that other statements have locked are skipped. -/
def candidate (s : EventStore) (locked : List Uuid) : Option KnowledgeEventRow :=
  s.events.first KnowledgeEventRow.leaseOrder fun event =>
    event.leasable s.now && !locked.contains event.id

def nextUnreportedFailure (s : EventStore) : Option KnowledgeEventRow :=
  s.events.first KnowledgeEventRow.reportOrder KnowledgeEventRow.unreported

/-- `enqueue_in_transaction`, when its transaction commits; an event with the key stays as it is. -/
def enqueue (s : EventStore) (id : Uuid) (key : EventKey) : Option EventStore :=
  if s.events.rows.any (fun event => event.key = key) then some s
  else (s.events.insert (.new id key s.now)).map fun events => { s with events }

def leaseNext (s : EventStore) (workerId : String) (leaseSeconds : ℤ) (locked : List Uuid) :
    EventStore :=
  match s.candidate locked with
  | none => s
  | some event =>
    { s with
      events := s.events.put (event.lease s.now workerId leaseSeconds)
      leases := event.id :: s.leases }

def complete (s : EventStore) (eventId : Uuid) (workerId : String)
    (sourceId knowledgeJobId : Uuid) : EventStore :=
  match s.find eventId (·.ownedBy workerId) with
  | none => s
  | some event =>
    { s with
      events := s.events.put (event.complete s.now sourceId knowledgeJobId)
      completions := event.id :: s.completions }

def fail (s : EventStore) (eventId : Uuid) (workerId detail : String) : EventStore :=
  match s.find eventId (·.ownedBy workerId) with
  | none => s
  | some event => { s with events := s.events.put (event.fail s.now detail) }

def markOversightRecorded (s : EventStore) (eventId : Uuid) : EventStore :=
  match s.find eventId (·.unreported) with
  | none => s
  | some event => { s with events := s.events.put (event.mark s.now) }

end EventStore

inductive EventLabel
  | enqueue (id : Uuid) (key : EventKey)
  | leaseNext (workerId : String) (leaseSeconds : ℤ) (locked : List Uuid)
  | complete (eventId : Uuid) (workerId : String) (sourceId knowledgeJobId : Uuid)
  | fail (eventId : Uuid) (workerId detail : String)
  | markOversightRecorded (eventId : Uuid)
  | tick (elapsed : ℕ)
  | crash (workerId : String)

/-- The outbox under publishers and workers.  `materialized` says for which tenants there are a
source and a job, which `complete` refers to. -/
abbrev eventMachine (materialized : Uuid → Uuid → Uuid → Bool) : Machine EventStore EventLabel where
  step s
    | .enqueue id key => s.enqueue id key
    | .leaseNext workerId leaseSeconds locked =>
      if workerId ∈ s.gone then none else some (s.leaseNext workerId leaseSeconds locked)
    | .complete eventId workerId sourceId knowledgeJobId =>
      if workerId ∈ s.gone then none
      else
        match s.events.get eventId with
        | none => some s
        | some event =>
          if materialized event.key.tenantId sourceId knowledgeJobId then
            some (s.complete eventId workerId sourceId knowledgeJobId)
          else some s
    | .fail eventId workerId detail =>
      if workerId ∈ s.gone then none else some (s.fail eventId workerId detail)
    | .markOversightRecorded eventId => some (s.markOversightRecorded eventId)
    | .tick elapsed => some { s with now := s.now + elapsed }
    | .crash workerId => some { s with gone := workerId :: s.gone }

end Gadgetron.Events
