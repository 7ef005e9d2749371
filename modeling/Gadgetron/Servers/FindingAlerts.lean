import Gadgetron.Servers.Operations

/-!
# Findings and their alerts

A finding and its alert are written by two requests. Once no operation is in progress, a finding has
an alert just when it is open and critical or high, if each alert is written for it as it is.
-/

namespace Gadgetron.Servers

open Lib Alerts Policy Option Function

def Finding.alerting (row : Finding) : Bool := row.dismissedAt.isNone && row.severity.alert.isSome

namespace LogStore

def calls (db : LogStore) (id : String) : Bool := (db.findings.get id).any Finding.alerting

def hasAlert (db : LogStore) (id : String) : Bool := (db.alerts.get (findingAlertKey id)).isSome

def Settled (db : LogStore) (id : String) : Prop := db.hasAlert id = db.calls id

def Kept (db db' : LogStore) : Prop :=
  ∀ id row, db.findings.get id = some row →
    ∃ row', db'.findings.get id = some row' ∧ row'.severity = row.severity

/-- At most one finding of a host, source and fingerprint is open. -/
def OpenUnique (db : LogStore) : Prop :=
  ∀ row ∈ db.findings, ∀ other ∈ db.findings, row.dismissedAt = none → other.dismissedAt = none →
    row.hostId = other.hostId → row.source = other.source → row.fingerprint = other.fingerprint →
    row = other

end LogStore

/-- The operation is still to write or delete the alert of the finding. -/
def Op.owes (db : LogStore) (id : String) : Op → Bool
  | .scan call => call.stage = .alert id
  | .transition call =>
    call.findingId = id &&
      (db.findings.get id).any fun row => call.dismiss || row.severity.alert.isSome
  | _ => false

/-- The finding whose alert the next request writes or deletes, and whether there is one then. -/
def Op.leaves : Op → Option (String × Bool)
  | .scan call =>
    match call.stage with
    | .alert id => some (id, true)
    | _ => none
  | .transition call =>
    match call.stage with
    | .alert _ => some (call.findingId, !call.dismiss)
    | _ => none
  | _ => none

/-- Another operation is still to write or delete the alert. -/
def State.OtherOwes (s : State) (i : ℕ) (id : String) : Prop :=
  ∃ j op, j ≠ i ∧ s.ops j = some op ∧ op.owes s.db.toLogStore id = true

/-- An alert is written or deleted as its finding calls for, or is written or deleted again. -/
def AlertTimely (s : State) : Label → Prop
  | .start _ _ => True
  | .request i _ _ =>
    ∀ op id present, s.ops i = some op → op.leaves = some (id, present) →
      s.db.calls id = present ∨ s.OtherOwes i id

/-- Findings and alerts agree, operations in progress aside. -/
structure InStep (s : State) : Prop where
  openUnique : s.db.OpenUnique
  /-- A transition knows the severity of its finding. -/
  severity : ∀ i call before, s.ops i = some (.transition call) →
    call.stage = .update before ∨ call.stage = .alert before →
    ∃ row, s.db.findings.get call.findingId = some row ∧ row.severity = before.severity
  settled : ∀ id, s.db.Settled id ∨ ∃ i op, s.ops i = some op ∧ op.owes s.db.toLogStore id = true

/-! ## Findings after a request -/

section

variable {db db' : LogStore} {row old : Finding}

theorem clashes_iff {other : Finding} (hopen : row.dismissedAt = none) : row.clashes other = true ↔
      other.id ≠ row.id ∧ other.dismissedAt = none ∧ other.hostId = row.hostId ∧
        other.source = row.source ∧ other.fingerprint = row.fingerprint := by
  unfold Finding.clashes Finding.openKey
  rw [hopen]
  cases hother : other.dismissedAt with
  | none | some => simp

theorem LogStore.OpenUnique.of_get (h : db.OpenUnique)
    (hclash : ∀ other ∈ db.findings, row.clashes other = false)
    (hget : ∀ id, db'.findings.get id = if row.id = id then some row else db.findings.get id) :
    db'.OpenUnique := by
  have hmem : ∀ x ∈ db'.findings, x = row ∨ x ∈ db.findings ∧ x.id ≠ row.id := by
    intro x hx
    have hx' := hget x.id
    rw [Table.get_eq_some.2 ⟨hx, rfl⟩] at hx'
    split at hx'
    · exact .inl (some.inj hx')
    · rename_i hne
      exact .inr ⟨Table.mem_of_get hx'.symm, Ne.symm hne⟩
  have hnew : ∀ x ∈ db.findings, x.id ≠ row.id → row.dismissedAt = none → x.dismissedAt = none →
      row.hostId = x.hostId → row.source = x.source → row.fingerprint = x.fingerprint → False := by
    intro x hx hne hopen hxopen hhost hsource hfingerprint
    refine Bool.eq_false_iff.1 (hclash x hx) ?_
    exact (clashes_iff hopen).2 ⟨hne, hxopen, hhost.symm, hsource.symm, hfingerprint.symm⟩
  intro x hx y hy hxopen hyopen hhost hsource hfingerprint
  obtain rfl | ⟨hxold, hxne⟩ := hmem x hx
  · obtain rfl | ⟨hyold, hyne⟩ := hmem y hy
    · rfl
    · exact (hnew y hyold hyne hxopen hyopen hhost hsource hfingerprint).elim
  · obtain rfl | ⟨hyold, hyne⟩ := hmem y hy
    · exact (hnew x hxold hxne hyopen hxopen hhost.symm hsource.symm hfingerprint.symm).elim
    · exact h x hxold y hyold hxopen hyopen hhost hsource hfingerprint

theorem LogStore.Kept.refl (db : LogStore) : db.Kept db := fun _ row hrow => ⟨row, hrow, rfl⟩

theorem LogStore.Kept.of_get
    (hget : ∀ id, db'.findings.get id = if row.id = id then some row else db.findings.get id)
    (hold : ∀ old, db.findings.get row.id = some old → row.severity = old.severity) :
    db.Kept db' := by
  intro id other hother
  by_cases hid : row.id = id
  · subst hid
    exact ⟨row, by rw [hget, if_pos rfl], hold other hother⟩
  · exact ⟨other, by rw [hget, if_neg hid, hother], rfl⟩

variable {id : String}

theorem Op.owes_of_kept (hkept : db.Kept db') {op : Op}
    (h : op.owes db id = true) : op.owes db' id = true := by
  cases op with
  | scan call => exact h
  | transition call =>
    obtain ⟨hid, hrow⟩ := Bool.and_eq_true_iff.1 h
    cases hget : db.findings.get id with
    | none => rw [hget] at hrow; cases hrow
    | some row =>
      obtain ⟨row', hget', hseverity⟩ := hkept id row hget
      rw [hget] at hrow
      refine Bool.and_eq_true_iff.2 ⟨hid, ?_⟩
      rw [hget', any_some, hseverity]
      exact hrow
  | _ => cases h

theorem LogStore.Settled.of_eq (h : db.Settled id)
    (hcalls : db'.calls id = db.calls id) (halert : db'.hasAlert id = db.hasAlert id) :
    db'.Settled id := by
  unfold Settled at h ⊢
  rw [hcalls, halert, h]

theorem hasAlert_of_alerts (h : db'.alerts = db.alerts) (id : String) :
    db'.hasAlert id = db.hasAlert id := by
  rw [LogStore.hasAlert, LogStore.hasAlert, h]

theorem calls_of_get (h : db'.findings.get id = db.findings.get id) :
    db'.calls id = db.calls id := by
  rw [LogStore.calls, LogStore.calls, h]

theorem findingAlertKey_injective : Function.Injective findingAlertKey := by
  intro id id' h
  have hlist := congrArg String.toList h
  simp only [findingAlertKey, String.toList_append] at hlist
  exact String.toList_injective (List.append_cancel_left hlist)

theorem hasAlert_upsert {alert : AlertRow}
    (hkey : alert.fingerprint = findingAlertKey id) (id' : String) :
    (db.upsertAlert alert).hasAlert id' = (decide (id = id') || db.hasAlert id') := by
  unfold LogStore.hasAlert LogStore.upsertAlert
  rw [Table.get_upsert, hkey]
  by_cases hid : id = id'
  · rw [hid, if_pos rfl, decide_eq_true rfl]
    rfl
  · rw [if_neg fun h => hid (findingAlertKey_injective h), decide_eq_false hid, Bool.false_or]

theorem hasAlert_upsert_of_ne {alert : AlertRow} (hkey : alert.fingerprint ≠ findingAlertKey id) :
    (db.upsertAlert alert).hasAlert id = db.hasAlert id := by
  unfold LogStore.hasAlert LogStore.upsertAlert
  rw [Table.get_upsert, if_neg hkey]

theorem hasAlert_delete (key id : String) :
    (db.deleteAlertState key).hasAlert id =
      (decide (findingAlertKey id ≠ key) && db.hasAlert id) := by
  unfold LogStore.hasAlert LogStore.deleteAlertState
  rw [Table.get_deleteWhere]
  cases hget : db.alerts.get (findingAlertKey id) with
  | none => simp
  | some alert =>
    rw [filter_some, Table.key_of_get hget]
    by_cases hkey : findingAlertKey id = key
    · simp [hkey]
    · simp [hkey]

theorem healthAlertKey_ne (target id : String) : healthAlertKey target ≠ findingAlertKey id := by
  intro h
  have hhead := congrArg (fun text => text.toList.head?) h
  simp only [healthAlertKey, findingAlertKey, String.toList_append] at hhead
  exact absurd (some.inj hhead) (by decide : 't' ≠ 'f')

end

/-! ## Requests -/

section

variable {db db' : LogStore} {now : ℤ}

theorem calls_of_update {row old : Finding} (hold : db.findings.get row.id = some old)
    (hget : ∀ id, db'.findings.get id = if row.id = id then some row else db.findings.get id)
    (hrow : row.alerting = old.alerting) (id : String) : db'.calls id = db.calls id := by
  by_cases hid : row.id = id
  · subst hid
    rw [LogStore.calls, LogStore.calls, hget, if_pos rfl, hold, any_some, any_some, hrow]
  · exact calls_of_get (by rw [hget, if_neg hid])

theorem foldFinding_alerting (line : LogLine) (found : FoundFinding) (row : Finding) :
    (foldFinding line found now row).alerting = row.alerting := by
  rw [Finding.alerting, Finding.alerting, foldFinding_severity, foldFinding_dismissedAt]

theorem owes_afterWrite (call : Scan) (line : LogLine) (id : String)
    (h : line.classification.severity.alert.isSome = true) :
    ((call.afterWrite line id).map Op.scan).any (Op.owes db id) = true := by
  rw [Scan.afterWrite, if_pos h]
  exact decide_eq_true rfl

variable {digest : String → String} {others : String → Prop}

theorem scan_covered {newId : String} {call : Scan} {next : Option Scan}
    (h : call.step digest now newId db = some (db', next))
    (htimely : ∀ id, call.stage = .alert id → db.calls id = true ∨ others id) (id : String)
    (hbefore : db.Settled id ∨ (Op.scan call).owes db id = true) :
    db'.Settled id ∨ (next.map Op.scan).any (Op.owes db' id) = true ∨ others id := by
  have howes : ∀ stage, call.stage = stage → stage ≠ .alert id → db.Settled id := by
    intro stage hstage hne
    refine hbefore.resolve_right fun howes => hne ?_
    rw [← hstage]
    exact of_decide_eq_true howes
  cases scanEffect_of_step h with
  | select _ hstage | missing hstage => exact .inl (howes _ hstage nofun)
  | @fold line found row _ hstage _ hrow hupdate =>
    have hid : (foldFinding line found now row).id = found.id :=
      (foldFinding_id line found row).trans (Table.key_of_get hrow)
    have hold : db.findings.get (foldFinding line found now row).id = some row := by
      rw [hid, hrow]
    obtain ⟨-, halerts, hget⟩ := updateFinding_eq_some hold hupdate
    exact .inl ((howes _ hstage nofun).of_eq
      (calls_of_update hold hget (foldFinding_alerting line found row) id)
      (hasAlert_of_alerts halerts id))
  | @insert line _ hstage hinsert =>
    obtain ⟨-, halerts, hnone, hget⟩ := insertFinding_eq_some hinsert
    by_cases hid : newId = id
    · subst hid
      cases hsevere : line.classification.severity.alert.isSome with
      | true => exact .inr (.inl (owes_afterWrite call line newId hsevere))
      | false =>
        have hcalls : db'.calls newId = false := by
          rw [LogStore.calls, hget]
          refine (congrArg (Option.any Finding.alerting) (if_pos rfl)).trans ?_
          rw [any_some]
          exact Bool.and_eq_false_iff.2 (.inr hsevere)
        have hbefore : db.calls newId = false := by
          rw [LogStore.calls, show db.findings.get newId = none from hnone]
          rfl
        exact .inl ((howes _ hstage nofun).of_eq (hcalls.trans hbefore.symm)
          (hasAlert_of_alerts halerts newId))
    · exact .inl ((howes _ hstage nofun).of_eq (calls_of_get (by rw [hget]; exact if_neg hid))
        (hasAlert_of_alerts halerts id))
  | @alert findingId alert hstage hkey =>
    by_cases hid : findingId = id
    · subst hid
      refine (htimely _ hstage).imp (fun hcalls => ?_) .inr
      unfold LogStore.Settled
      rw [hasAlert_upsert hkey, decide_eq_true rfl, Bool.true_or]
      exact hcalls.symm
    · refine .inl ((howes _ hstage fun hstage => hid (ScanStage.alert.inj hstage)).of_eq rfl ?_)
      rw [hasAlert_upsert hkey, decide_eq_false hid, Bool.false_or]

theorem scan_kept {newId : String} {call : Scan} {next : Option Scan}
    (h : call.step digest now newId db = some (db', next)) (hunique : db.OpenUnique) :
    db.Kept db' ∧ db'.OpenUnique := by
  cases scanEffect_of_step h with
  | select | missing | alert => exact ⟨.refl db, hunique⟩
  | @fold line found row _ hstage _ hrow hupdate =>
    have hold : db.findings.get (foldFinding line found now row).id = some row := by
      rw [foldFinding_id, Table.key_of_get hrow, hrow]
    obtain ⟨hclash, -, hget⟩ := updateFinding_eq_some hold hupdate
    refine ⟨.of_get hget fun old h => ?_, hunique.of_get hclash hget⟩
    rw [foldFinding_severity, mem_unique hold h]
  | insert hstage hinsert =>
    obtain ⟨hclash, -, hnone, hget⟩ := insertFinding_eq_some hinsert
    exact ⟨.of_get hget fun old h => (by rw [hnone] at h; cases h), hunique.of_get hclash hget⟩

variable {next : Option Transition}

theorem transition_kept {call : Transition}
    (h : call.step now db = some (db', next)) (hunique : db.OpenUnique) :
    db.Kept db' ∧ db'.OpenUnique := by
  cases transitionEffect_of_step h with
  | @update before row _ _ hrow hupdate =>
    have hold : db.findings.get (call.changed now row).id = some row := by
      rw [show (call.changed now row).id = row.id from rfl, Table.key_of_get hrow, hrow]
    obtain ⟨hclash, -, hget⟩ := updateFinding_eq_some hold hupdate
    refine ⟨.of_get hget fun old h => ?_, hunique.of_get hclash hget⟩
    rw [← mem_unique hold h]
    rfl
  | _ => exact ⟨.refl db, hunique⟩

theorem transition_covered {call : Transition} (h : call.step now db = some (db', next))
    (hseverity : ∀ before, call.stage = .update before ∨ call.stage = .alert before →
      ∃ row, db.findings.get call.findingId = some row ∧ row.severity = before.severity)
    (htimely : ∀ before, call.stage = .alert before →
      db.calls call.findingId = !call.dismiss ∨ others call.findingId) (id : String)
    (hbefore : db.Settled id ∨ (Op.transition call).owes db id = true) :
    db'.Settled id ∨ (next.map Op.transition).any (Op.owes db' id) = true ∨ others id := by
  have hother : ∀ id, call.findingId ≠ id → ¬ (Op.transition call).owes db id = true := by
    intro id hne howes
    exact hne (of_decide_eq_true (Bool.and_eq_true_iff.1 howes).1)
  have hmissing : db.findings.get call.findingId = none →
      ¬ (Op.transition call).owes db id = true := by
    intro hnone howes
    obtain ⟨hid, hrow⟩ := Bool.and_eq_true_iff.1 howes
    rw [← of_decide_eq_true hid, hnone] at hrow
    cases hrow
  cases transitionEffect_of_step h with
  | missing _ hnone | gone _ hnone => exact .inl (hbefore.resolve_right (hmissing hnone))
  | select hstage hrow => exact hbefore.imp_right .inl
  | @update before row _ hstage hrow hupdate =>
    have hold : db.findings.get (call.changed now row).id = some row := by
      rw [show (call.changed now row).id = row.id from rfl, Table.key_of_get hrow, hrow]
    obtain ⟨-, halerts, hget⟩ := updateFinding_eq_some hold hupdate
    obtain ⟨row', hrow', hsame⟩ := hseverity before (.inl hstage)
    obtain rfl := mem_unique hrow hrow'
    by_cases hid : call.findingId = id
    · subst hid
      have hget' : db'.findings.get call.findingId = some (call.changed now row) := by
        rw [hget]
        exact if_pos (Table.key_of_get hrow)
      cases howes : call.dismiss || before.severity.alert.isSome with
      | true =>
        refine .inr (.inl ?_)
        rw [Transition.afterUpdate, if_pos howes]
        refine Bool.and_eq_true_iff.2 ⟨decide_eq_true rfl, ?_⟩
        rw [hget', any_some]
        exact hsame ▸ howes
      | false =>
        have hsevere : row.severity.alert.isSome = false := hsame ▸ (Bool.or_eq_false_iff.1 howes).2
        have hsettled : db.Settled call.findingId := by
          refine hbefore.resolve_right fun howed => ?_
          have hany := (Bool.and_eq_true_iff.1 howed).2
          rw [hrow, any_some, ← hsame] at *
          rw [howes] at hany
          cases hany
        refine .inl (hsettled.of_eq ?_ (hasAlert_of_alerts halerts _))
        refine calls_of_update hold hget ?_ call.findingId
        rw [Finding.alerting, Finding.alerting, hsevere,
          show (call.changed now row).severity.alert.isSome = false from hsevere,
          Bool.and_false, Bool.and_false]
    · refine .inl ((hbefore.resolve_right (hother id hid)).of_eq (calls_of_get ?_)
        (hasAlert_of_alerts halerts id))
      rw [hget]
      exact if_neg fun h => hid ((Table.key_of_get hrow).symm.trans h)
  | dismissed hstage hdismiss =>
    by_cases hid : call.findingId = id
    · subst hid
      refine (htimely _ hstage).imp (fun hcalls => ?_) .inr
      unfold LogStore.Settled
      rw [hasAlert_delete, decide_eq_false (not_not_intro rfl), Bool.false_and]
      exact (hcalls.trans (by rw [hdismiss]; rfl)).symm
    · refine .inl ((hbefore.resolve_right (hother id hid)).of_eq rfl ?_)
      have hne : findingAlertKey id ≠ findingAlertKey call.findingId :=
        fun h => hid (findingAlertKey_injective h).symm
      rw [hasAlert_delete, decide_eq_true hne, Bool.true_and]
  | reopened hstage hdismiss hkey =>
    by_cases hid : call.findingId = id
    · subst hid
      refine (htimely _ hstage).imp (fun hcalls => ?_) .inr
      unfold LogStore.Settled
      rw [hasAlert_upsert hkey, decide_eq_true rfl, Bool.true_or]
      exact (hcalls.trans (by rw [hdismiss]; rfl)).symm
    · refine .inl ((hbefore.resolve_right (hother id hid)).of_eq rfl ?_)
      rw [hasAlert_upsert hkey, decide_eq_false hid, Bool.false_or]

theorem transition_severity {call call' : Transition} {before : Finding}
    (h : call.step now db = some (db', some call'))
    (hstage : call'.stage = .update before ∨ call'.stage = .alert before) (hkept : db.Kept db')
    (hseverity : ∀ before, call.stage = .update before ∨ call.stage = .alert before →
      ∃ row, db.findings.get call.findingId = some row ∧ row.severity = before.severity) :
    ∃ row, db'.findings.get call'.findingId = some row ∧ row.severity = before.severity := by
  generalize hnext : some call' = next at h
  cases transitionEffect_of_step h with
  | @select row _ hrow =>
    obtain rfl := some.inj hnext
    obtain hstage | hstage := hstage
    · obtain rfl := TransitionStage.update.inj hstage
      exact ⟨row, hrow, rfl⟩
    · cases hstage
  | @update before' row _ hread hrow _ =>
    unfold Transition.afterUpdate at hnext
    split at hnext
    · obtain rfl := some.inj hnext
      obtain hstage | hstage := hstage
      · cases hstage
      · obtain rfl := TransitionStage.alert.inj hstage
        obtain ⟨row, hrow, hsame⟩ := hseverity before' (.inl hread)
        obtain ⟨row', hrow', hsame'⟩ := hkept _ row hrow
        exact ⟨row', hrow', hsame'.trans hsame⟩
    · cases hnext
  | _ => cases hnext

end

/-! ## Steps -/

section

variable {hostIdOf digest : String → String} {s s' : State} {now : ℤ} {id : String} {db : Store}

theorem collect_settled {call : Collect} (h : db.Settled id) : (call.step now db).1.Settled id := by
  unfold Collect.step
  split <;> exact h

theorem collect_findings (call : Collect) (now : ℤ) (db : Store) :
    (call.step now db).1.findings = db.findings := by
  unfold Collect.step
  split <;> rfl

theorem probeSuccess_findings (call : ProbeSuccess) (now : ℤ) (db : Store) :
    (call.step now db).1.findings = db.findings := by
  unfold ProbeSuccess.step
  split <;> rfl

theorem probeFailure_findings (call : ProbeFailure) (now : ℤ) (db : Store) :
    (call.step now db).1.findings = db.findings := by
  unfold ProbeFailure.step
  split <;> rfl

theorem probeSuccess_settled {call : ProbeSuccess}
    (h : db.Settled id) : (call.step now db).1.Settled id := by
  unfold ProbeSuccess.step
  split
  · exact h
  · refine h.of_eq rfl ?_
    change (db.toLogStore.deleteAlertState _).hasAlert id = _
    rw [hasAlert_delete, decide_eq_true (healthAlertKey_ne call.target id).symm, Bool.true_and]

theorem probeFailure_settled {call : ProbeFailure}
    (h : db.Settled id) : (call.step now db).1.Settled id := by
  unfold ProbeFailure.step
  split
  · exact h
  · exact h
  · exact h.of_eq rfl (hasAlert_upsert_of_ne (healthAlertKey_ne call.target id))

theorem kept_of_findings {db db' : LogStore} (h : db'.findings = db.findings)
    (hunique : db.OpenUnique) : db.Kept db' ∧ db'.OpenUnique := by
  unfold LogStore.Kept LogStore.OpenUnique at *
  rw [h]
  exact ⟨fun _ row hrow => ⟨row, hrow, rfl⟩, hunique⟩

variable {newId : String}

theorem request_kept {op : Op} {db db' : Store} {next : Option Op}
    (h : op.step digest now newId db = some (db', next)) (hunique : db.OpenUnique) :
    db.Kept db'.toLogStore ∧ db'.OpenUnique := by
  cases op with
  | collect call =>
    cases h
    exact kept_of_findings (collect_findings call now db) hunique
  | scan call =>
    obtain ⟨⟨log, next⟩, hstep, hresult⟩ := map_eq_some_iff.1 h
    cases hresult
    exact scan_kept hstep hunique
  | transition call =>
    obtain ⟨⟨log, next⟩, hstep, hresult⟩ := map_eq_some_iff.1 h
    cases hresult
    exact transition_kept hstep hunique
  | probeSuccess call =>
    cases h
    exact kept_of_findings (probeSuccess_findings call now db) hunique
  | probeFailure call =>
    cases h
    exact kept_of_findings (probeFailure_findings call now db) hunique

theorem request_covered {i : ℕ} {op : Op} {db' : Store}
    {next : Option Op} (hs : InStep s) (htimely : AlertTimely s (.request i now newId))
    (hop : s.ops i = some op) (h : op.step digest now newId s.db = some (db', next)) (id : String)
    (hbefore : s.db.Settled id ∨ op.owes s.db.toLogStore id = true) :
    db'.Settled id ∨ next.any (Op.owes db'.toLogStore id) = true ∨ s.OtherOwes i id := by
  cases op with
  | collect call =>
    cases h
    exact .inl (collect_settled (hbefore.resolve_right nofun))
  | scan call =>
    obtain ⟨⟨log, next⟩, hstep, hresult⟩ := map_eq_some_iff.1 h
    cases hresult
    refine scan_covered hstep (fun id hstage => ?_) id hbefore
    exact htimely _ id true hop (by rw [Op.leaves, hstage])
  | transition call =>
    obtain ⟨⟨log, next⟩, hstep, hresult⟩ := map_eq_some_iff.1 h
    cases hresult
    refine transition_covered hstep (fun before => hs.severity i call before hop)
      (fun before hstage => ?_) id hbefore
    exact htimely _ _ _ hop (by rw [Op.leaves, hstage])
  | probeSuccess call =>
    cases h
    exact .inl (probeSuccess_settled (hbefore.resolve_right nofun))
  | probeFailure call =>
    cases h
    exact .inl (probeFailure_settled (hbefore.resolve_right nofun))

theorem transition_of_call {call : Call} {started : Transition}
    (h : call.op hostIdOf = some (.transition started)) : started.stage = .select := by
  cases call with
  | findingTransition findingId dismiss actorId => cases h; rfl
  | logScan target stdout =>
    by_cases hempty : (scanLines stdout).isEmpty = true
    · rw [Call.op, if_pos hempty] at h
      cases h
    · rw [Call.op, if_neg hempty] at h
      cases h
  | _ => cases h

theorem transition_of_request {op : Op} {db db' : Store}
    {call' : Transition} (h : op.step digest now newId db = some (db', some (.transition call'))) :
    ∃ call, op = .transition call ∧ call.step now db.toLogStore =
      some (db'.toLogStore, some call') := by
  cases op with
  | transition call =>
    obtain ⟨⟨log, next⟩, hstep, hresult⟩ := map_eq_some_iff.1 h
    obtain ⟨rfl, hnext⟩ := Prod.mk.inj hresult
    obtain ⟨call'', rfl, hcall⟩ := map_eq_some_iff.1 hnext
    cases hcall
    exact ⟨call, rfl, hstep⟩
  | scan call =>
    obtain ⟨⟨log, next⟩, -, hresult⟩ := map_eq_some_iff.1 h
    obtain ⟨-, hnext⟩ := Prod.mk.inj hresult
    obtain ⟨_, -, hcall⟩ := map_eq_some_iff.1 hnext
    cases hcall
  | _ =>
    obtain ⟨-, hnext⟩ := Prod.mk.inj (some.inj h)
    obtain ⟨_, -, hcall⟩ := map_eq_some_iff.1 hnext
    cases hcall

theorem InStep.step {a : Label} (hs : InStep s) (htimely : AlertTimely s a)
    (h : (serverMachine hostIdOf digest).step s a = some s') : InStep s' := by
  cases effect_of_step h with
  | @start i call hfree =>
    refine ⟨hs.openUnique, fun j started before hj hstage => ?_, fun id => ?_⟩
    · change Function.update s.ops i (call.op hostIdOf) j = some (.transition started) at hj
      by_cases hji : j = i
      · subst hji
        rw [update_self] at hj
        rw [transition_of_call hj] at hstage
        obtain hstage | hstage := hstage <;> cases hstage
      · rw [update_of_ne hji] at hj
        exact hs.severity j started before hj hstage
    · refine (hs.settled id).imp_right ?_
      rintro ⟨j, op, hj, howes⟩
      refine ⟨j, op, ?_, howes⟩
      have hji : j ≠ i := by
        rintro rfl
        rw [hfree] at hj
        cases hj
      exact (update_of_ne hji _ _).trans hj
  | @request i now newId op db next hop hstep =>
    obtain ⟨hkept, hunique⟩ := request_kept hstep hs.openUnique
    have hother : ∀ id, s.OtherOwes i id → ∃ j op, Function.update s.ops i next j = some op ∧
        op.owes db.toLogStore id = true := by
      rintro id ⟨j, op', hji, hj, howes⟩
      exact ⟨j, op', (update_of_ne hji _ _).trans hj, Op.owes_of_kept hkept howes⟩
    refine ⟨hunique, fun j call before hj hstage => ?_, fun id => ?_⟩
    · change Function.update s.ops i next j = some (.transition call) at hj
      by_cases hji : j = i
      · subst hji
        rw [update_self] at hj
        subst hj
        obtain ⟨call', rfl, hcall⟩ := transition_of_request hstep
        exact transition_severity hcall hstage hkept fun before =>
          hs.severity j call' before hop
      · rw [update_of_ne hji] at hj
        obtain ⟨row, hrow, hsame⟩ := hs.severity j call before hj hstage
        obtain ⟨row', hrow', hsame'⟩ := hkept _ row hrow
        exact ⟨row', hrow', hsame'.trans hsame⟩
    · have hcovered : s.db.Settled id ∨ op.owes s.db.toLogStore id = true →
          db.Settled id ∨ ∃ j op, Function.update s.ops i next j = some op ∧
            op.owes db.toLogStore id = true := by
        intro hbefore
        obtain hsettled | hnext | howes := request_covered hs htimely hop hstep id hbefore
        · exact .inl hsettled
        · cases next with
          | none => cases hnext
          | some op' => exact .inr ⟨i, op', update_self .., hnext⟩
        · exact .inr (hother id howes)
      obtain hsettled | ⟨j, op', hj, howes⟩ := hs.settled id
      · exact hcovered (.inl hsettled)
      · by_cases hji : j = i
        · subst hji
          obtain rfl := mem_unique hop hj
          exact hcovered (.inr howes)
        · exact .inr (hother id ⟨j, op', hji, hj, howes⟩)

end

/-! ## Runs -/

theorem InStep.initial : InStep .initial where
  openUnique := fun row hrow => absurd hrow (Table.not_mem_empty row)
  severity := fun _ _ _ hop => by cases hop
  settled := fun _ => .inl rfl

theorem calls_iff {db : LogStore} {id : String} :
    db.calls id = true ↔ ∃ row ∈ db.findings, row.id = id ∧ row.dismissedAt = none ∧
      (row.severity = .critical ∨ row.severity = .high) := by
  have hsevere : ∀ severity : Severity, severity.alert.isSome = true ↔
      severity = .critical ∨ severity = .high := by
    intro severity
    cases severity <;> decide
  unfold LogStore.calls
  rw [Option.any_eq_true]
  constructor
  · rintro ⟨row, hrow, hcalls⟩
    obtain ⟨hopen, halert⟩ := Bool.and_eq_true_iff.1 hcalls
    obtain ⟨hmem, hid⟩ := Table.get_eq_some.1 hrow
    exact ⟨row, hmem, hid, isNone_iff_eq_none.1 hopen, (hsevere _).1 halert⟩
  · rintro ⟨row, hmem, hid, hopen, halert⟩
    refine ⟨row, Table.get_eq_some.2 ⟨hmem, hid⟩, Bool.and_eq_true_iff.2 ⟨?_, (hsevere _).2 halert⟩⟩
    exact isNone_iff_eq_none.2 hopen

theorem hasAlert_iff {db : LogStore} {id : String} :
    db.hasAlert id = true ↔ ∃ alert ∈ db.alerts, alert.fingerprint = findingAlertKey id := by
  unfold LogStore.hasAlert
  rw [isSome_iff_exists]
  exact ⟨fun ⟨alert, h⟩ => ⟨alert, Table.get_eq_some.1 h⟩,
    fun ⟨alert, h⟩ => ⟨alert, Table.get_eq_some.2 h⟩⟩

/-- In a run whose alerts are all timely, whenever no operation is in progress a finding has an
alert just when it is open and critical or high, and at most one finding of a host, source and
fingerprint is open. -/
theorem findings_in_step (hostIdOf digest : String → String) {run : List Label} {t : State}
    (hrun : (serverMachine hostIdOf digest).exec .initial run = some t)
    (htimely : (serverMachine hostIdOf digest).Meets AlertTimely .initial run) : t.db.OpenUnique ∧
      (t.Idle → ∀ id, (∃ alert ∈ t.db.alerts, alert.fingerprint = findingAlertKey id) ↔
        ∃ row ∈ t.db.findings, row.id = id ∧ row.dismissedAt = none ∧
          (row.severity = .critical ∨ row.severity = .high)) := by
  have ht : InStep t := (serverMachine hostIdOf digest).invariant_of_meets
    (fun s a s' hs hC h => hs.step hC h) .initial htimely hrun
  refine ⟨ht.openUnique, fun hidle id => ?_⟩
  have hsettled : t.db.Settled id := by
    refine (ht.settled id).resolve_right ?_
    rintro ⟨i, op, hop, -⟩
    rw [hidle i] at hop
    cases hop
  rw [← hasAlert_iff, ← calls_iff, show t.db.hasAlert id = t.db.calls id from hsettled]

/-! ## Samples -/

def sampleScan : List Label :=
  [.start 0 (.logScan "edge" "disk failed"), .request 0 1 "f", .request 0 2 "f", .request 0 3 "f"]

/-- The condition, as far as it does not ask for other operations. -/
def alertTimelyTest (s : State) : Label → Bool
  | .start _ _ => true
  | .request i _ _ =>
    ((s.ops i).bind Op.leaves).all fun leaves => s.db.calls leaves.1 == leaves.2

theorem alertTimely_of_test (s : State) (a : Label) (h : alertTimelyTest s a = true) :
    AlertTimely s a := by
  cases a with
  | start i call => trivial
  | request i now newId =>
    intro op id present hop hleaves
    change (((s.ops i).bind Op.leaves).all fun leaves => s.db.calls leaves.1 == leaves.2) =
      true at h
    rw [hop, bind_some, hleaves, all_some] at h
    exact .inl (eq_of_beq h)

theorem findings_in_step_sample : ∃ t,
    (serverMachine id id).exec .initial sampleScan = some t ∧ t.db.OpenUnique ∧
      (t.Idle → ∀ id, (∃ alert ∈ t.db.alerts, alert.fingerprint = findingAlertKey id) ↔
        ∃ row ∈ t.db.findings, row.id = id ∧ row.dismissedAt = none ∧
          (row.severity = .critical ∨ row.severity = .high)) := by
  obtain ⟨t, ht⟩ : ∃ t, (serverMachine id id).exec .initial sampleScan = some t :=
    isSome_iff_exists.1 (by decide +kernel)
  exact ⟨t, ht, findings_in_step id id ht
    ((serverMachine id id).meets_of_meetsTest alertTimely_of_test (by decide +kernel))⟩

/-- A second scan reads the open finding, the finding is dismissed, and the scan goes on. -/
def dismissedScan : List Label :=
  sampleScan ++
    [.start 0 (.logScan "edge" "disk failed"), .request 0 4 "", .start 1
      (.findingTransition "f" true none), .request 1 5 "", .request 1 6 "", .request 1 7 "",
      .request 0 8 "", .request 0 9 ""]

/-- The alert of a finding that was dismissed during a scan stays when both have ended. -/
theorem dismissed_finding_keeps_alert : ∃ t,
    (serverMachine id id).exec .initial dismissedScan = some t ∧ t.Idle ∧
      (∃ alert ∈ t.db.alerts, alert.fingerprint = findingAlertKey "f") ∧
      ∀ row ∈ t.db.findings, row.id = "f" → row.dismissedAt ≠ none := by
  have hrun : ∃ t, (serverMachine id id).exec .initial dismissedScan = some t ∧
      (∀ i ∈ dismissedScan.map Label.index, (t.ops i).isNone) ∧
      (∃ alert ∈ t.db.alerts, alert.fingerprint = findingAlertKey "f") ∧
      ∀ row ∈ t.db.findings, row.id = "f" → row.dismissedAt ≠ none := by
    decide +kernel
  obtain ⟨t, ht, hidle, hstored⟩ := hrun
  exact ⟨t, ht, idle_of_indices ht hidle, hstored⟩

end Gadgetron.Servers
