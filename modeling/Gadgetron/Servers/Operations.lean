import Gadgetron.Policy.Input
import Gadgetron.Servers.LogScan

/-!
# Operations on servers

What gadget calls and jobs record of a server, request by request: `inventory_collect`,
`topology_scan`, `log_scan`, `finding_transition`, `record_probe_success` and
`record_probe_failure`.
-/

namespace Gadgetron.Servers

open Lib Alerts Policy Option

structure AssetRow where
  (hostId targetId : String)
  (inventory topology : Json)
  observedAt : ℤ

inductive AssetPart
  | inventory
  | topology
  deriving DecidableEq

def AssetPart.other : AssetPart → AssetPart
  | .inventory => .topology
  | .topology => .inventory

def AssetRow.part (row : AssetRow) : AssetPart → Json
  | .inventory => row.inventory
  | .topology => row.topology

structure HealthRow where
  (targetId hostId status lastProbeKind : String)
  lastAttemptAt : ℤ
  lastSuccessAt : Option ℤ
  consecutiveFailures : ℕ
  (lastErrorCode lastErrorMessage : Option String)
  lastDurationMs : Option ℕ

structure Store extends LogStore where
  assets : Table AssetRow.hostId
  health : Table HealthRow.targetId

def Store.empty : Store := ⟨⟨.empty, .empty⟩, .empty, .empty⟩

/-! ## `inventory_collect` and `topology_scan` -/

def emptyObject : Json := .object []

/-- The part of the row of a host, as it is written where there is none. -/
def Store.part (db : Store) (hostId : String) (part : AssetPart) : Json :=
  ((db.assets.get hostId).map (·.part part)).getD emptyObject

/-- The next request; `kept` is the part that was read and is written back. -/
inductive CollectStage
  | read
  | write (kept : Json)

structure Collect where
  (hostId target : String)
  part : AssetPart
  value : Json
  stage : CollectStage

/-- `asset_state`, then `upsert_asset`. -/
def Collect.step (now : ℤ) (db : Store) (call : Collect) : Store × Option Collect :=
  match call.stage with
  | .read =>
    (db, some { call with stage := .write (db.part call.hostId call.part.other) })
  | .write kept =>
    let row : AssetRow :=
      match call.part with
      | .inventory => ⟨call.hostId, call.target, call.value, kept, now⟩
      | .topology => ⟨call.hostId, call.target, kept, call.value, now⟩
    ({ db with assets := db.assets.upsert row }, none)

def inventoryCollect (hostId target : String) (inventory : Json) : Collect :=
  ⟨hostId, target, .inventory, inventory, .read⟩

def topologyScan (hostId target : String) (topology : Json) : Collect :=
  ⟨hostId, target, .topology, topology, .read⟩

/-! ## Probes -/

structure HostError where
  (code message : String)

def healthAlertKey (target : String) : String := "target-health:" ++ target

inductive SuccessStage
  | write
  | alert

structure ProbeSuccess where
  (hostId target probeKind status : String)
  durationMs : Option ℕ
  stage : SuccessStage

def ProbeSuccess.step (now : ℤ) (db : Store) (call : ProbeSuccess) : Store × Option ProbeSuccess :=
  match call.stage with
  | .write =>
    let row : HealthRow :=
      { targetId := call.target
        hostId := call.hostId
        status := call.status
        lastProbeKind := call.probeKind
        lastAttemptAt := now
        lastSuccessAt := some now
        consecutiveFailures := 0
        lastErrorCode := none
        lastErrorMessage := none
        lastDurationMs := call.durationMs }
    ({ db with health := db.health.upsert row }, some { call with stage := .alert })
  | .alert =>
    ({ db with toLogStore := db.toLogStore.deleteAlertState (healthAlertKey call.target) }, none)

/-- What `record_probe_failure` reads. -/
structure PriorHealth where
  lastSuccessAt : Option ℤ
  consecutiveFailures : ℕ

inductive FailureStage
  | read
  | write (existing : Option PriorHealth)
  | alert

structure ProbeFailure where
  (hostId target probeKind : String)
  error : HostError
  stage : FailureStage

def failuresAfter (existing : Option PriorHealth) : ℕ :=
  min ((existing.map PriorHealth.consecutiveFailures).getD 0 + 1) maxInteger

def ProbeFailure.step (now : ℤ) (db : Store) (call : ProbeFailure) : Store × Option ProbeFailure :=
  match call.stage with
  | .read =>
    let existing := (db.health.get call.target).map fun row =>
      ⟨row.lastSuccessAt, row.consecutiveFailures⟩
    (db, some { call with stage := .write existing })
  | .write existing =>
    let failures := failuresAfter existing
    let row : HealthRow :=
      { targetId := call.target
        hostId := call.hostId
        status := if 3 ≤ failures then "unreachable" else "degraded"
        lastProbeKind := call.probeKind
        lastAttemptAt := now
        lastSuccessAt := existing.bind PriorHealth.lastSuccessAt
        consecutiveFailures := failures
        lastErrorCode := some call.error.code
        lastErrorMessage := some (String.ofList (call.error.message.toList.take 512))
        lastDurationMs := none }
    ({ db with health := db.health.upsert row },
      if 3 ≤ failures then some { call with stage := .alert } else none)
  | .alert =>
    let row := firingAlert (healthAlertKey call.target) call.hostId "target_unreachable"
      "connectivity" .high ("Target " ++ call.target ++ " is unreachable") now
    ({ db with toLogStore := db.toLogStore.upsertAlert row }, none)

/-! ## The machine -/

inductive Op
  | collect (call : Collect)
  | scan (call : Scan)
  | transition (call : Transition)
  | probeSuccess (call : ProbeSuccess)
  | probeFailure (call : ProbeFailure)

/-- What is started, with what was read from the server. -/
inductive Call
  | inventoryCollect (target : String) (inventory : Json)
  | topologyScan (target : String) (topology : Json)
  | logScan (target stdout : String)
  | findingTransition (findingId : String) (dismiss : Bool) (actorId : Option String)
  | recordProbeSuccess (target probeKind status : String) (durationMs : Option ℕ)
  | recordProbeFailure (target probeKind : String) (error : HostError)

section

variable (hostIdOf digest : String → String)

/-- The operation of a call, none where it has no request to make. -/
def Call.op : Call → Option Op
  | .inventoryCollect target inventory =>
    some (.collect (Servers.inventoryCollect (hostIdOf target) target inventory))
  | .topologyScan target topology =>
    some (.collect (Servers.topologyScan (hostIdOf target) target topology))
  | .logScan target stdout =>
    if (scanLines stdout).isEmpty then none
    else some (.scan ⟨hostIdOf target, scanLines stdout, .select⟩)
  | .findingTransition findingId dismiss actorId =>
    some (.transition ⟨findingId, dismiss, actorId, .select⟩)
  | .recordProbeSuccess target probeKind status durationMs =>
    some (.probeSuccess ⟨hostIdOf target, target, probeKind, status, durationMs, .write⟩)
  | .recordProbeFailure target probeKind error =>
    some (.probeFailure ⟨hostIdOf target, target, probeKind, error, .read⟩)

/-- One request of an operation, none where it fails. -/
def Op.step (now : ℤ) (newId : String) (db : Store) : Op → Option (Store × Option Op)
  | .collect call => some ((call.step now db).1, (call.step now db).2.map .collect)
  | .scan call =>
    (call.step digest now newId db.toLogStore).map fun result =>
      ({ db with toLogStore := result.1 }, result.2.map .scan)
  | .transition call =>
    (call.step now db.toLogStore).map fun result =>
      ({ db with toLogStore := result.1 }, result.2.map .transition)
  | .probeSuccess call => some ((call.step now db).1, (call.step now db).2.map .probeSuccess)
  | .probeFailure call => some ((call.step now db).1, (call.step now db).2.map .probeFailure)

/-- The tables, and the operations in progress by their number. -/
structure State where
  db : Store
  ops : ℕ → Option Op

def State.initial : State := ⟨.empty, fun _ => none⟩

def State.Idle (s : State) : Prop := ∀ i, s.ops i = none

inductive Label
  | start (i : ℕ) (call : Call)
  /-- The next request of an operation, with the time and a new id that it may use. -/
  | request (i : ℕ) (now : ℤ) (newId : String)

abbrev serverMachine : Machine State Label where
  step s
    | .start i call =>
      if (s.ops i).isNone then some { s with ops := Function.update s.ops i (call.op hostIdOf) }
      else none
    | .request i now newId =>
      (s.ops i).bind fun op =>
        (op.step digest now newId s.db).map fun result =>
          ⟨result.1, Function.update s.ops i result.2⟩

end

/-! ## Steps -/

section

variable {hostIdOf digest : String → String} {s s' : State}

inductive Effect (hostIdOf digest : String → String) (s : State) : Label → State → Prop
  | start {i : ℕ} {call : Call} : s.ops i = none → Effect hostIdOf digest s (.start i call)
        { s with ops := Function.update s.ops i (call.op hostIdOf) }
  | request {i : ℕ} {now : ℤ} {newId : String} {op : Op} {db : Store} {next : Option Op} :
      s.ops i = some op → op.step digest now newId s.db = some (db, next) →
      Effect hostIdOf digest s (.request i now newId) ⟨db, Function.update s.ops i next⟩

theorem effect_of_step {a : Label} (h : (serverMachine hostIdOf digest).step s a = some s') :
    Effect hostIdOf digest s a s' := by
  cases a with
  | start i call =>
    change (if (s.ops i).isNone then some _ else none) = some s' at h
    split at h
    · rename_i hnone
      obtain rfl := some.inj h
      exact .start (isNone_iff_eq_none.1 hnone)
    · cases h
  | request i now newId =>
    change ((s.ops i).bind fun op => (op.step digest now newId s.db).map _) = some s' at h
    obtain ⟨op, hop, h⟩ := bind_eq_some_iff.1 h
    obtain ⟨⟨db, next⟩, hstep, rfl⟩ := map_eq_some_iff.1 h
    exact .request hop hstep

def Label.index : Label → ℕ
  | .start i _ => i
  | .request i _ _ => i

theorem ops_of_index {run : List Label} {t : State}
    (hrun : (serverMachine hostIdOf digest).exec .initial run = some t) {i : ℕ}
    (hi : i ∉ run.map Label.index) : t.ops i = none := by
  refine (serverMachine hostIdOf digest).history
    (I := fun as t => i ∉ as.map Label.index → t.ops i = none) (fun _ => rfl)
    (fun as a s₁ s₂ _ hs hstep hmem => ?_) hrun hi
  rw [List.map_append, List.mem_append, not_or] at hmem
  have hne : i ≠ a.index := fun h => hmem.2 (h ▸ List.mem_singleton_self _)
  cases effect_of_step hstep with
  | start | request => exact (Function.update_of_ne hne _ _).trans (hs hmem.1)

theorem idle_of_indices {run : List Label} {t : State}
    (hrun : (serverMachine hostIdOf digest).exec .initial run = some t)
    (h : ∀ i ∈ run.map Label.index, (t.ops i).isNone) : t.Idle := by
  intro i
  by_cases hi : i ∈ run.map Label.index
  · exact Option.isNone_iff_eq_none.1 (h i hi)
  · exact ops_of_index hrun hi

end

end Gadgetron.Servers
