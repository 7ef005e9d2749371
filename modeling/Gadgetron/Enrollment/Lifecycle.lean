import Gadgetron.Bundle.Id
import Gadgetron.Core.Context
import Gadgetron.Lib.Exec
import Gadgetron.Lib.Text

/-!
# The lifecycle of an enrolled server

The states of an enrollment, the transitions between them and the two gates on the way. Instants are
in milliseconds.
-/

namespace Gadgetron.Enrollment

open Lib

inductive LifecycleState
  | discovered
  | commissioning
  | readyToConfigure
  | configuring
  | qualifying
  | active
  | draining
  | maintenance
  | quarantined
  | retired
  deriving DecidableEq

namespace LifecycleState

def asStr : LifecycleState → String
  | discovered => "discovered"
  | commissioning => "commissioning"
  | readyToConfigure => "ready_to_configure"
  | configuring => "configuring"
  | qualifying => "qualifying"
  | active => "active"
  | draining => "draining"
  | maintenance => "maintenance"
  | quarantined => "quarantined"
  | retired => "retired"

end LifecycleState

def transitionAllowed : LifecycleState → LifecycleState → Bool
  | .discovered, next => next = .commissioning || next = .retired
  | .commissioning, next => next = .readyToConfigure || next = .quarantined || next = .retired
  | .readyToConfigure, next => next = .configuring || next = .quarantined || next = .retired
  | .configuring, next => next = .qualifying || next = .quarantined || next = .retired
  | .qualifying, next => next = .active || next = .quarantined || next = .retired
  | .active, next => next = .draining || next = .quarantined || next = .retired
  | .draining, next =>
    next = .maintenance || next = .active || next = .quarantined || next = .retired
  | .maintenance, next => next = .qualifying || next = .retired
  | .quarantined, next => next = .commissioning || next = .retired
  | .retired, _ => false

inductive ValidationGate
  | commissioning
  | qualification
  deriving DecidableEq

def ValidationGate.asStr : ValidationGate → String
  | commissioning => "commissioning"
  | qualification => "qualification"

def validationAllowed : ValidationGate → LifecycleState → Bool
  | .commissioning, lifecycle => lifecycle = .commissioning || lifecycle = .quarantined
  | .qualification, lifecycle =>
    lifecycle = .qualifying || lifecycle = .active || lifecycle = .maintenance ||
      lifecycle = .quarantined

inductive ValidationStatus
  | pass
  | warning
  | fail
  | skipped
  | notApplicable
  deriving DecidableEq

/-- A result that does not keep a server from service. -/
def ValidationStatus.good : ValidationStatus → Bool
  | pass | warning | notApplicable => true
  | fail | skipped => false

/-- `GateAggregate`; the columns of the gates have the same values. -/
inductive GateAggregate
  | notConfigured
  | pending
  | running
  | passed
  | warning
  | failed
  deriving DecidableEq

def GateAggregate.gatePassed : GateAggregate → Bool
  | passed | warning => true
  | _ => false

def pendingGateStatus (required : List String) : GateAggregate :=
  if required.isEmpty then .notConfigured else .pending

/-- The UUID that `stable_revision` makes of its arguments.  It is a digest of them, and taken to be
different for different ones. -/
structure StableRevision where
  kind : String
  enrollmentId : Uuid
  parts : List String
  requestId : String
  deriving DecidableEq

structure ValidationResultRow where
  resultId : StableRevision
  enrollmentId : Uuid
  gate : ValidationGate
  checkId : String
  status : ValidationStatus
  required : Bool
  summary : String
  observedAt : ℤ
  deriving DecidableEq

def ValidationResultRow.inCycle (startedAt : ℤ) (result : ValidationResultRow) : Bool :=
  startedAt ≤ result.observedAt

/-- What `aggregate_status` keeps of a check: the first row, that is, the latest one. -/
def latestStatus (rows : List ValidationResultRow) (check : String) : Option ValidationStatus :=
  (rows.find? fun row => row.checkId = check).map (·.status)

def aggregateStatus (required : List String) (rows : List ValidationResultRow) (truncated : Bool) :
    GateAggregate :=
  if required.isEmpty then .notConfigured
  else if required.any fun check =>
      latestStatus rows check = some .fail || latestStatus rows check = some .skipped then .failed
  else if required.any fun check => (latestStatus rows check).isNone then
    if rows.isEmpty then .pending else .running
  else if truncated then .running
  else if required.any fun check => latestStatus rows check = some .warning then .warning
  else .passed

def shouldPersistGateStatus (lifecycle : LifecycleState) (aggregate : GateAggregate) : Bool :=
  lifecycle ≠ .active || (aggregate ≠ .pending && aggregate ≠ .running)

def cleanText (value : String) (maximum : ℕ) : Bool :=
  !value.toList.isEmpty && value.utf8ByteSize ≤ maximum && !value.toList.any isControl

theorem exists_good_of_aggregate {required : List String} {rows : List ValidationResultRow}
    {truncated : Bool} (h : (aggregateStatus required rows truncated).gatePassed) {check : String}
    (hcheck : check ∈ required) : ∃ status, latestStatus rows check = some status ∧
      status.good := by
  unfold aggregateStatus at h
  split_ifs at h with hempty hfailed hmissing hrows htruncated hwarning
  all_goals try cases h
  all_goals
    simp only [List.any_eq_true, Bool.or_eq_true, decide_eq_true_eq, not_exists, not_and,
      not_or, Option.isNone_iff_eq_none] at hfailed hmissing
    obtain ⟨status, hstatus⟩ := Option.ne_none_iff_exists'.1 (hmissing check hcheck)
    refine ⟨status, hstatus, ?_⟩
    have hbad := hfailed check hcheck
    cases status <;> simp_all [ValidationStatus.good]

end Gadgetron.Enrollment
