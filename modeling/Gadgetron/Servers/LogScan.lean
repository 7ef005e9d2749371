import Gadgetron.Alerts.Reconcile

/-!
# Log findings

`log_scan` and `finding_transition` as sequences of broker requests.  Ids and fingerprints are kept
as their texts, instants in milliseconds; `digest` is the SHA-256 of a text in hexadecimal.
-/

namespace Gadgetron.Servers

open Lib Alerts Option

inductive Severity
  | critical
  | high
  | medium
  | info
  deriving DecidableEq

def Severity.alert : Severity → Option Alerts.Severity
  | .critical => some .critical
  | .high => some .high
  | _ => none

structure Classification where
  severity : Severity
  (category summary cause solution incidentScope : String)

def toAsciiLowercase (text : String) : List Char := text.toList.map Char.toLower

/-- `str::contains`. -/
def containsText (part : String) (text : List Char) : Bool := part.toList <:+: text

def classifyLine (line : String) : Option Classification :=
  let lower := toAsciiLowercase line
  if containsText "out of memory" lower || containsText "oom-killer" lower then
    some {
      severity := .critical
      category := "resource-exhaustion"
      summary := "Memory exhaustion or OOM kill detected"
      cause := "The kernel could not satisfy a memory allocation and may have terminated a " ++
        "process."
      solution := "Check the affected process, memory pressure, swap and cgroup limits; " ++
        "stabilize the workload before restarting it."
      incidentScope := "memory" }
  else if containsText "kernel panic" lower then
    some {
      severity := .critical
      category := "kernel-failure"
      summary := "Kernel panic detected"
      cause := "The kernel entered an unrecoverable state and the host may no longer be safe " ++
        "for workloads."
      solution := "Keep the host isolated, preserve crash evidence and validate hardware or " ++
        "kernel changes before rejoining the cluster."
      incidentScope := "host" }
  else if containsText "i/o error" lower then
    some {
      severity := .high
      category := "storage-failure"
      summary := "Storage I/O failure detected"
      cause := "A storage device, path or filesystem request failed to complete successfully."
      solution := "Check the affected device and path health, preserve data, and avoid writes " ++
        "or rejoining until storage checks pass."
      incidentScope := "storage" }
  else if containsText "segfault" lower then
    some {
      severity := .high
      category := "service-failure"
      summary := "Process segmentation fault detected"
      cause := "A process accessed invalid memory; a software defect, incompatible binary or " ++
        "hardware instability may be involved."
      solution := "Identify the process and core dump, compare recent changes, and validate " ++
        "memory and hardware before restarting it."
      incidentScope := "host" }
  else if containsText "failed" lower then
    some {
      severity := .high
      category := "service-failure"
      summary := "Service or device failure detected"
      cause := "A service or device reported a failed operation; the exact unit and exit reason " ++
        "are in the log evidence."
      solution := "Inspect the affected unit or device status and nearby logs, then verify " ++
        "dependencies before retrying or restarting."
      incidentScope := "host" }
  else if containsText "denied" lower then
    some {
      severity := .medium
      category := "operational-warning"
      summary := "Access or policy denial detected"
      cause := "A permission, authentication or security policy rejected an operation."
      solution := "Confirm the actor, target resource and policy decision before changing " ++
        "credentials or permissions."
      incidentScope := "host" }
  else if containsText "warning" lower || containsText "error" lower then
    some {
      severity := .medium
      category := "operational-warning"
      summary := "Operational warning detected"
      cause := "A component reported a warning or error that needs correlation with current " ++
        "service and host state."
      solution := "Inspect the full bounded evidence and adjacent telemetry, then verify " ++
        "whether the condition persists before acting."
      incidentScope := "host" }
  else none

def findingIncidentScope (category : String) : String :=
  if category = "resource-exhaustion" then "memory"
  else if category = "storage-failure" then "storage"
  else "host"

def fingerprintText (category line : String) : String :=
  category ++ ":" ++
    String.ofList ((toAsciiLowercase line).map fun c => if c.isDigit then '#' else c)

def boundedExcerpt (line : String) : String :=
  String.ofList ((line.toList.filter fun c => !isControl c || c == '\t').take 1024)

/-- `str::lines`: without the end of a line, `\n` or `\r\n`. -/
def textLines (text : String) : List String :=
  (splitInclusive '\n' text.toList).map fun line =>
    String.ofList <|
      if line.getLast? = some '\n' then
        if line.dropLast.getLast? = some '\r' then line.dropLast.dropLast else line.dropLast
      else line

structure LogLine where
  text : String
  classification : Classification

def scanLines (stdout : String) : List LogLine :=
  (((textLines stdout).filter fun line => trim line != "").take 100).filterMap fun line =>
    (classifyLine line).map fun classification => ⟨line, classification⟩

/-! ## Tables -/

structure Finding where
  (id hostId source : String)
  severity : Severity
  (category summary cause solution excerpt : String)
  (tsFirst tsLast : ℤ)
  count : ℕ
  (classifiedBy fingerprint : String)
  dismissedAt : Option ℤ
  dismissedBy : Option String

/-- What `log_findings_open_fingerprint_idx` keeps unique. -/
def Finding.openKey (row : Finding) : Option (String × String × String) :=
  if row.dismissedAt.isNone then some (row.hostId, row.source, row.fingerprint) else none

def Finding.clashes (row other : Finding) : Bool :=
  other.id != row.id && row.openKey.isSome && other.openKey == row.openKey

structure LogStore where
  findings : Table Finding.id
  alerts : Table AlertRow.fingerprint

def maxInteger : ℕ := 2147483647

namespace LogStore

/-- An `INSERT`; it fails where a key is taken. -/
def insertFinding (db : LogStore) (row : Finding) : Option LogStore :=
  if db.findings.rows.any row.clashes then none
  else (db.findings.insert row).map fun findings => { db with findings }

/-- An `UPDATE` of the row with the id of `row`; it fails where the index is broken. -/
def updateFinding (db : LogStore) (row : Finding) : Option LogStore :=
  if db.findings.rows.any row.clashes then none
  else some { db with findings := db.findings.put row }

def openFinding (db : LogStore) (hostId fingerprint : String) : Option Finding :=
  db.findings.rows.find? fun row => row.openKey = some (hostId, "journal", fingerprint)

def upsertAlert (db : LogStore) (row : AlertRow) : LogStore :=
  { db with alerts := db.alerts.upsert row }

def deleteAlertState (db : LogStore) (fingerprint : String) : LogStore :=
  { db with alerts := db.alerts.deleteWhere fun row => row.fingerprint = fingerprint }

end LogStore

def findingAlertKey (findingId : String) : String := "finding:" ++ findingId

def firingAlert (fingerprint hostId ruleKey incidentScope : String) (severity : Alerts.Severity)
    (summary : String) (now : ℤ) : AlertRow where
  fingerprint := fingerprint
  hostId := hostId
  ruleKey := ruleKey
  incidentScope := incidentScope
  severity := severity
  message := summary
  state := .firing
  pendingSince := now
  activeSince := some now
  lastEvalAt := now

def findingAlert (findingId hostId : String) (severity : Severity) (summary incidentScope : String)
    (now : ℤ) : Option AlertRow :=
  severity.alert.map fun severity =>
    firingAlert (findingAlertKey findingId) hostId "log_finding" incidentScope severity summary now

/-! ## `log_scan` -/

structure FoundFinding where
  id : String
  count : ℕ
  classifiedBy : String
  deriving DecidableEq

inductive ScanStage
  | select
  | write (existing : Option FoundFinding)
  | alert (findingId : String)
  deriving DecidableEq

structure Scan where
  hostId : String
  todo : List LogLine
  stage : ScanStage

/-- The scan after its first line; it is over with the last. -/
def Scan.next (scan : Scan) : Option Scan :=
  if scan.todo.tail.isEmpty then none
  else some { scan with todo := scan.todo.tail, stage := .select }

def Scan.afterWrite (scan : Scan) (line : LogLine) (findingId : String) : Option Scan :=
  if line.classification.severity.alert.isSome then some { scan with stage := .alert findingId }
  else scan.next

def newFinding (digest : String → String) (hostId : String) (line : LogLine) (now : ℤ)
    (newId : String) : Finding where
  id := newId
  hostId := hostId
  source := "journal"
  severity := line.classification.severity
  category := line.classification.category
  summary := line.classification.summary
  cause := line.classification.cause
  solution := line.classification.solution
  excerpt := boundedExcerpt line.text
  tsFirst := now
  tsLast := now
  count := 1
  classifiedBy := "rule"
  fingerprint := digest (fingerprintText line.classification.category line.text)
  dismissedAt := none
  dismissedBy := none

/-- The row of a finding that a line is folded into, given the count that was read. -/
def foldFinding (line : LogLine) (found : FoundFinding) (now : ℤ) (row : Finding) : Finding :=
  let row := { row with
    count := found.count + 1, tsLast := now, excerpt := boundedExcerpt line.text }
  if found.classifiedBy = "rule" then
    { row with
      summary := line.classification.summary
      cause := line.classification.cause
      solution := line.classification.solution }
  else row

/-- One request of a scan, none where it fails; the scan is gone after its last. -/
def Scan.step (digest : String → String) (now : ℤ) (newId : String) (db : LogStore)
    (scan : Scan) : Option (LogStore × Option Scan) :=
  match scan.todo with
  | [] => none
  | line :: _ =>
    match scan.stage with
    | .select =>
      let fingerprint := digest (fingerprintText line.classification.category line.text)
      let existing := (db.openFinding scan.hostId fingerprint).map fun row =>
        ⟨row.id, row.count, row.classifiedBy⟩
      some (db, some { scan with stage := .write existing })
    | .write (some found) =>
      if maxInteger < found.count + 1 then none
      else match db.findings.get found.id with
        | some row =>
          (db.updateFinding (foldFinding line found now row)).map fun db =>
            (db, scan.afterWrite line found.id)
        | none => some (db, scan.afterWrite line found.id)
    | .write none =>
      (db.insertFinding (newFinding digest scan.hostId line now newId)).map fun db =>
        (db, scan.afterWrite line newId)
    | .alert findingId =>
      (findingAlert findingId scan.hostId line.classification.severity
        line.classification.summary line.classification.incidentScope now).map fun row =>
        (db.upsertAlert row, scan.next)

/-! ## `finding_transition` -/

/-- The next request; `before` is the row that was read. -/
inductive TransitionStage
  | select
  | update (before : Finding)
  | alert (before : Finding)

structure Transition where
  findingId : String
  dismiss : Bool
  actorId : Option String
  stage : TransitionStage

def Transition.changed (call : Transition) (now : ℤ) (row : Finding) : Finding :=
  { row with
    dismissedAt := if call.dismiss then some now else none
    dismissedBy := if call.dismiss then call.actorId else none }

def Transition.afterUpdate (call : Transition) (before : Finding) : Option Transition :=
  if call.dismiss || before.severity.alert.isSome then some { call with stage := .alert before }
  else none

/-- One request of a transition; the transition is gone after its last, or where it finds no row. -/
def Transition.step (now : ℤ) (db : LogStore) (call : Transition) :
    Option (LogStore × Option Transition) :=
  match call.stage with
  | .select =>
    some (db, (db.findings.get call.findingId).map fun row => { call with stage := .update row })
  | .update before =>
    match db.findings.get call.findingId with
    | none => some (db, none)
    | some row =>
      (db.updateFinding (call.changed now row)).map fun db => (db, call.afterUpdate before)
  | .alert before =>
    if call.dismiss then some (db.deleteAlertState (findingAlertKey call.findingId), none)
    else
      (findingAlert call.findingId before.hostId before.severity before.summary
        (findingIncidentScope before.category) now).map fun row => (db.upsertAlert row, none)

/-! ## What a request does -/

section

variable {db db' : LogStore}

theorem updateFinding_eq_some {row old : Finding} (hold : db.findings.get row.id = some old)
    (h : db.updateFinding row = some db') :
    (∀ other ∈ db.findings, row.clashes other = false) ∧ db'.alerts = db.alerts ∧
      ∀ id, db'.findings.get id = if row.id = id then some row else db.findings.get id := by
  unfold LogStore.updateFinding at h
  split at h
  · cases h
  · rename_i hclash
    obtain rfl := some.inj h
    refine ⟨fun other hother => ?_, rfl, fun id => Table.get_put hold⟩
    exact Bool.eq_false_iff.2 fun hc => hclash (List.any_eq_true.2 ⟨other, hother, hc⟩)

theorem insertFinding_eq_some {row : Finding} (h : db.insertFinding row = some db') :
    (∀ other ∈ db.findings, row.clashes other = false) ∧ db'.alerts = db.alerts ∧
      db.findings.get row.id = none ∧
      ∀ id, db'.findings.get id = if row.id = id then some row else db.findings.get id := by
  unfold LogStore.insertFinding at h
  split at h
  · cases h
  · rename_i hclash
    obtain ⟨findings, hinsert, rfl⟩ := map_eq_some_iff.1 h
    refine ⟨fun other hother => ?_, rfl, (Table.insert_eq_some.1 hinsert).1,
      fun id => Table.get_insert hinsert⟩
    exact Bool.eq_false_iff.2 fun hc => hclash (List.any_eq_true.2 ⟨other, hother, hc⟩)

section

variable {now : ℤ} (line : LogLine) (found : FoundFinding) (row : Finding)

theorem foldFinding_id : (foldFinding line found now row).id = row.id := by
  unfold foldFinding
  split <;> rfl

theorem foldFinding_severity : (foldFinding line found now row).severity = row.severity := by
  unfold foldFinding
  split <;> rfl

theorem foldFinding_dismissedAt :
    (foldFinding line found now row).dismissedAt = row.dismissedAt := by
  unfold foldFinding
  split <;> rfl

theorem foldFinding_count : (foldFinding line found now row).count = found.count + 1 := by
  unfold foldFinding
  split <;> rfl

end

inductive ScanEffect (digest : String → String) (now : ℤ) (newId : String) (db : LogStore)
    (call : Scan) : LogStore → Option Scan → Prop
  | select (existing : Option FoundFinding) : call.stage = .select →
      ScanEffect digest now newId db call db (some { call with stage := .write existing })
  | fold {line : LogLine} {found : FoundFinding} {row : Finding} {db' : LogStore} :
      call.stage = .write (some found) → found.count + 1 ≤ maxInteger →
      db.findings.get found.id = some row →
      db.updateFinding (foldFinding line found now row) = some db' →
      ScanEffect digest now newId db call db' (call.afterWrite line found.id)
  | missing {line : LogLine} {found : FoundFinding} : call.stage = .write (some found) →
      db.findings.get found.id = none →
      ScanEffect digest now newId db call db (call.afterWrite line found.id)
  | insert {line : LogLine} {db' : LogStore} : call.stage = .write none →
      db.insertFinding (newFinding digest call.hostId line now newId) = some db' →
      ScanEffect digest now newId db call db' (call.afterWrite line newId)
  | alert {findingId : String} {row : AlertRow} : call.stage = .alert findingId →
      row.fingerprint = findingAlertKey findingId →
      ScanEffect digest now newId db call (db.upsertAlert row) call.next

theorem scanEffect_of_step {digest : String → String} {now : ℤ} {newId : String} {call : Scan}
    {next : Option Scan} (h : call.step digest now newId db = some (db', next)) :
    ScanEffect digest now newId db call db' next := by
  unfold Scan.step at h
  split at h
  · cases h
  · rename_i line rest htodo
    split at h
    · rename_i hstage
      cases h
      exact .select _ hstage
    · rename_i found hstage
      split at h
      · cases h
      · rename_i hcount
        split at h
        · rename_i row hrow
          obtain ⟨_, hupdate, hresult⟩ := map_eq_some_iff.1 h
          cases hresult
          exact .fold hstage (Nat.not_lt.1 hcount) hrow hupdate
        · rename_i hrow
          cases h
          exact .missing hstage hrow
    · rename_i hstage
      obtain ⟨_, hinsert, hresult⟩ := map_eq_some_iff.1 h
      cases hresult
      exact .insert hstage hinsert
    · rename_i findingId hstage
      obtain ⟨row, hrow, hresult⟩ := map_eq_some_iff.1 h
      cases hresult
      obtain ⟨severity, -, rfl⟩ := map_eq_some_iff.1 hrow
      exact .alert hstage rfl

inductive TransitionEffect (now : ℤ) (db : LogStore) (call : Transition) :
    LogStore → Option Transition → Prop
  | missing : call.stage = .select → db.findings.get call.findingId = none →
      TransitionEffect now db call db none
  | select {row : Finding} : call.stage = .select → db.findings.get call.findingId = some row →
      TransitionEffect now db call db (some { call with stage := .update row })
  | gone {before : Finding} : call.stage = .update before →
      db.findings.get call.findingId = none → TransitionEffect now db call db none
  | update {before row : Finding} {db' : LogStore} : call.stage = .update before →
      db.findings.get call.findingId = some row →
      db.updateFinding (call.changed now row) = some db' →
      TransitionEffect now db call db' (call.afterUpdate before)
  | dismissed {before : Finding} : call.stage = .alert before → call.dismiss = true →
      TransitionEffect now db call (db.deleteAlertState (findingAlertKey call.findingId)) none
  | reopened {before : Finding} {row : AlertRow} : call.stage = .alert before →
      call.dismiss = false → row.fingerprint = findingAlertKey call.findingId →
      TransitionEffect now db call (db.upsertAlert row) none

theorem transitionEffect_of_step {now : ℤ} {call : Transition} {next : Option Transition}
    (h : call.step now db = some (db', next)) : TransitionEffect now db call db' next := by
  unfold Transition.step at h
  split at h
  · rename_i hstage
    cases h
    cases hrow : db.findings.get call.findingId with
    | none => exact .missing hstage hrow
    | some row => exact .select hstage hrow
  · rename_i before hstage
    split at h
    · rename_i hrow
      cases h
      exact .gone hstage hrow
    · rename_i row hrow
      obtain ⟨_, hupdate, hresult⟩ := map_eq_some_iff.1 h
      cases hresult
      exact .update hstage hrow hupdate
  · rename_i before hstage
    split at h
    · rename_i hdismiss
      cases h
      exact .dismissed hstage hdismiss
    · rename_i hdismiss
      obtain ⟨row, hrow, hresult⟩ := map_eq_some_iff.1 h
      cases hresult
      obtain ⟨severity, -, rfl⟩ := map_eq_some_iff.1 hrow
      exact .reopened hstage (Bool.eq_false_iff.2 hdismiss) rfl

end

end Gadgetron.Servers
