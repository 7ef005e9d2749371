import Gadgetron.Bundle.Id
import Gadgetron.Core.Context
import Gadgetron.Lib.Attempt
import Gadgetron.Lib.Exec
import Gadgetron.Lib.Text
import Mathlib.Logic.Function.Basic

/-!
# Cooling units

`attach`, `collect` and `detach` of a Gadgetini.  Detaching deletes the relation first and the four
safety alerts after it, and a repeated request sees from the relation alone what is left to do.
-/

namespace Gadgetron.Servers.Cooling

open Lib Gadgetron.Bundle List
open Lib.Attempt (Ensures)

inductive AttachMode
  | direct
  | usb
  deriving DecidableEq

/-- A row of `server_gadgetini_latest`. -/
structure Relation where
  parent : LocalId
  mode : AttachMode
  revision : Uuid

inductive Condition
  | leak
  | level
  | chassis
  | hostStatus
  deriving DecidableEq

def Condition.suffix : Condition → String
  | .leak => "leak"
  | .level => "level"
  | .chassis => "chassis"
  | .hostStatus => "host-status"

def conditions : List Condition := [.leak, .level, .chassis, .hostStatus]

def fingerprint (gadgetini : LocalId) (condition : Condition) : String :=
  "gadgetini:" ++ gadgetini.asStr ++ ":" ++ condition.suffix

/-- The relations by their Gadgetini, and the fingerprints in `alert_state`. -/
structure Store where
  relations : LocalId → Option Relation
  alerts : String → Bool

def Store.setAlert (s : Store) (key : String) (active : Bool) : Store :=
  { s with alerts := Function.update s.alerts key active }

inductive CoolingError
  | host (code message : String)
  | broker

inductive BrokerStep
  | parent
  | relation
  | ssh
  | latest
  | history
  | signal (condition : Condition)
  | alert (condition : Condition)
  | reread
  | delete
  deriving DecidableEq

/-- The fields of `CoolingStats` that raise alerts. -/
structure CoolingStats where
  (chassisStable coolantLeakDetected coolantLevelOk : Option Bool)
  hostStatusCode : Option ℤ

structure Answer where
  fails : Option BrokerStep
  monitored : Bool
  output : Except String CoolingStats
  revision : Uuid

structure CollectInput where
  (gadgetini parent : LocalId)
  mode : AttachMode

structure DetachInput where
  (gadgetini parent : LocalId)
  expectedRevision : Uuid

structure DetachOutput where
  detached : Bool
  alertsDeleted : ℕ

abbrev Act := Attempt Store CoolingError

section

variable (answer : Answer)

def brokerStep {α : Type} (name : BrokerStep) (f : Store → α × Store) : Act α := .step fun s =>
  if answer.fails = some name then .error .broker else .ok (f s)

def relationFor (name : BrokerStep) (gadgetini : LocalId) : Act (Option Relation) :=
  brokerStep answer name fun s => (s.relations gadgetini, s)

def validatedCollect (input : CollectInput) : Except CoolingError Unit :=
  if input.gadgetini = input.parent then
    .error (.host "invalid-arguments" "gadgetini_id must differ from parent_target_id")
  else .ok ()

def requireMonitoredParent : Act Unit := do
  let monitored ← brokerStep answer .parent fun s => (answer.monitored, s)
  if monitored then pure ()
  else .throw (.host "gadgetini-parent-not-monitored"
    "The parent target must complete a Server Administrator monitoring cycle before attach")

def requireMatchingRelation (input : CollectInput) (relation : Relation) :
    Except CoolingError Unit :=
  if relation.parent ≠ input.parent ∨ relation.mode ≠ input.mode then
    .error (.host "gadgetini-already-attached"
      "The Gadgetini is attached to a different parent or connection mode; detach it first")
  else .ok ()

/-- The row that the insert into `server_gadgetini_latest` leaves. -/
def Store.upsert (s : Store) (input : CollectInput) (revision : Uuid) : Store :=
  { s with
    relations := Function.update s.relations input.gadgetini (some
      ⟨input.parent, input.mode, ((s.relations input.gadgetini).map (·.revision)).getD revision⟩) }

def deleteAlertState (gadgetini : LocalId) (condition : Condition) : Act ℕ := do
  brokerStep answer (.signal condition) fun s => ((), s)
  brokerStep answer (.alert condition) fun s =>
    (if s.alerts (fingerprint gadgetini condition) then 1 else 0,
      s.setAlert (fingerprint gadgetini condition) false)

def reconcileCondition (gadgetini : LocalId) (condition : Condition) : Option Bool → Act Unit
  | none => pure ()
  | some true => brokerStep answer (.alert condition) fun s =>
    ((), s.setAlert (fingerprint gadgetini condition) true)
  | some false => do
    let _ ← deleteAlertState answer gadgetini condition
    pure ()

def reconcileSafety (gadgetini : LocalId) (stats : CoolingStats) : Act Unit := do
  reconcileCondition answer gadgetini .leak stats.coolantLeakDetected
  reconcileCondition answer gadgetini .level (stats.coolantLevelOk.map (!·))
  reconcileCondition answer gadgetini .chassis (stats.chassisStable.map (!·))
  reconcileCondition answer gadgetini .hostStatus (stats.hostStatusCode.map (· != 0))

def collectObservation (input : CollectInput) : Act Unit := do
  brokerStep answer .ssh fun s => ((), s)
  let stats ← .lift (answer.output.mapError fun message =>
    .host "gadgetini-output-invalid" message)
  brokerStep answer .latest fun s => ((), s.upsert input answer.revision)
  brokerStep answer .history fun s => ((), s)
  reconcileSafety answer input.gadgetini stats

def attach (input : CollectInput) : Act Uuid := do
  .lift (validatedCollect input)
  requireMonitoredParent answer
  let existing ← relationFor answer .relation input.gadgetini
  .lift (existing.forM (requireMatchingRelation input))
  collectObservation answer input
  let relation ← relationFor answer .reread input.gadgetini
  match relation with
  | some relation => pure relation.revision
  | none => .throw (.host "gadgetini-attach-incomplete"
    "Cooling observation was stored without a readable relationship")

def collect (input : CollectInput) : Act Unit := do
  .lift (validatedCollect input)
  let relation ← relationFor answer .relation input.gadgetini
  .lift (match relation with
    | some relation => requireMatchingRelation input relation
    | none => .error (.host "gadgetini-not-attached"
      "Attach the Gadgetini to its monitored parent before collecting telemetry"))
  collectObservation answer input

/-- `resolve_all_safety_alerts` from a condition on. -/
def resolveAlerts (gadgetini : LocalId) : List Condition → Act ℕ
  | [] => pure 0
  | condition :: rest => do
    let deleted ← deleteAlertState answer gadgetini condition
    let more ← resolveAlerts gadgetini rest
    pure (deleted + more)

def DetachInput.matches (input : DetachInput) (relation : Relation) : Bool :=
  relation.parent = input.parent && relation.revision = input.expectedRevision

def detach (input : DetachInput) : Act DetachOutput := do
  let relation ← relationFor answer .relation input.gadgetini
  match relation with
  | none => pure ⟨false, 0⟩
  | some relation =>
    if input.matches relation then do
      let deleted ← brokerStep answer .delete fun s =>
        ((s.relations input.gadgetini).any input.matches,
          if (s.relations input.gadgetini).any input.matches then
            { s with relations := Function.update s.relations input.gadgetini none }
          else s)
      if deleted then do
        let alertsDeleted ← resolveAlerts answer input.gadgetini conditions
        pure ⟨true, alertsDeleted⟩
      else .throw (.host "gadgetini-revision-conflict"
        "The Gadgetini relationship changed while detaching")
    else .throw (.host "gadgetini-revision-conflict"
      "The Gadgetini relationship changed; refresh before detaching")

end

inductive Request
  | attach (input : CollectInput)
  | collect (input : CollectInput)
  | detach (input : DetachInput)

def Store.empty : Store := ⟨fun _ => none, fun _ => false⟩

/-! ## Alerts and their relations -/

/-- Every safety alert belongs to a Gadgetini that is attached. -/
def Covered (s : Store) : Prop :=
  ∀ gadgetini condition, s.alerts (fingerprint gadgetini condition) = true →
    s.relations gadgetini ≠ none

/-- A detach that loses its relation and fails at an alert while it, or one that comes after it, is
there. -/
def Strands (s : Store) (a : Request × Answer) : Prop :=
  ∃ input, a.1 = .detach input ∧ (s.relations input.gadgetini).any input.matches = true ∧
    ∃ condition, (a.2.fails = some (.signal condition) ∨ a.2.fails = some (.alert condition)) ∧
      ∃ left ∈ conditions.dropWhile (· ≠ condition),
        s.alerts (fingerprint input.gadgetini left) = true

variable {answer : Answer} {gadgetini gadgetini' : LocalId} {condition condition' : Condition}
  {s : Store}

theorem fingerprint_gadgetini
    (h : fingerprint gadgetini condition = fingerprint gadgetini' condition') :
    gadgetini = gadgetini' := by
  have hsuffix : ∀ condition : Condition, ':' ∉ condition.suffix.toList := by
    intro condition
    cases condition <;> decide
  have hsplit : ∀ (gadgetini : LocalId) (condition : Condition),
      rsplitOnce ':' (fingerprint gadgetini condition).toList =
        some (("gadgetini:" ++ gadgetini.asStr).toList, condition.suffix.toList) := by
    intro gadgetini condition
    rw [← rsplitOnce_append (hsuffix condition)]
    simp [fingerprint]
  have heq := hsplit gadgetini condition
  rw [h, hsplit gadgetini' condition', Option.some_inj, Prod.mk.injEq, String.toList_inj] at heq
  have hname := congrArg String.toList heq.1
  rw [String.toList_append, String.toList_append] at hname
  exact (Subtype.ext (String.toList_inj.1 (append_cancel_left hname))).symm

theorem Covered.setAlert (h : Covered s) (hrelation : s.relations gadgetini ≠ none)
    (active : Bool) : Covered (s.setAlert (fingerprint gadgetini condition) active) := by
  intro gadgetini' condition' halert
  by_cases hkey : fingerprint gadgetini' condition' = fingerprint gadgetini condition
  · exact fingerprint_gadgetini hkey ▸ hrelation
  · exact h gadgetini' condition' (by simpa [Store.setAlert, hkey] using halert)

theorem ensures_brokerStep {α : Type} {name : BrokerStep} {f : Store → α × Store}
    {P E : Store → Prop} {Q : α → Store → Prop} (h : ∀ s, P s → Q (f s).1 (f s).2)
    (hfail : answer.fails = some name → ∀ s, P s → E s) :
    Ensures P (brokerStep answer name f) Q fun _ => E := by
  refine Ensures.step (fun s a s' hs hstep => ?_) fun s e hs hstep => ?_
  · split_ifs at hstep
    have hpair := Except.ok.inj hstep
    have hnext := h s hs
    rwa [hpair] at hnext
  · split_ifs at hstep with hname
    exact hfail hname s hs

def Attached (gadgetini : LocalId) (s : Store) : Prop :=
  Covered s ∧ s.relations gadgetini ≠ none

theorem Attached.setAlert (h : Attached gadgetini s) (active : Bool) :
    Attached gadgetini (s.setAlert (fingerprint gadgetini condition) active) :=
  ⟨h.1.setAlert h.2 active, h.2⟩

theorem ensures_reconcileCondition (active : Option Bool) :
    Ensures (Attached gadgetini) (reconcileCondition answer gadgetini condition active)
      (fun _ => Attached gadgetini) fun _ => Covered := by
  match active with
  | none =>
    unfold reconcileCondition
    exact Ensures.pure fun _ h => h
  | some true => exact ensures_brokerStep (fun _ h => h.setAlert true) fun _ _ h => h.1
  | some false =>
    refine Ensures.bind (Q := fun _ => Attached gadgetini) ?_ fun _ => Ensures.pure fun _ h => h
    refine Ensures.bind (Q := fun _ => Attached gadgetini) ?_ fun _ => ?_
    · exact ensures_brokerStep (fun _ h => h) fun _ _ h => h.1
    · exact ensures_brokerStep (fun _ h => h.setAlert false) fun _ _ h => h.1

theorem covered_upsert (h : Covered s) (input : CollectInput) (revision : Uuid) :
    Attached input.gadgetini (s.upsert input revision) := by
  refine ⟨fun gadgetini condition halert => ?_, by simp [Store.upsert]⟩
  have hold := h gadgetini condition halert
  by_cases hkey : gadgetini = input.gadgetini
  · simp [Store.upsert, hkey]
  · simpa [Store.upsert, hkey] using hold

section

variable (input : CollectInput)

theorem ensures_collectObservation :
    Ensures Covered (collectObservation answer input) (fun _ => Attached input.gadgetini)
      fun _ => Covered := by
  refine Ensures.bind (Q := fun _ => Covered) ?_ fun _ => ?_
  · exact ensures_brokerStep (fun _ h => h) fun _ _ h => h
  refine Ensures.bind (Q := fun _ => Covered) ?_ fun stats => ?_
  · exact Ensures.lift (fun _ _ _ h => h) fun _ _ _ h => h
  refine Ensures.bind (Q := fun _ => Attached input.gadgetini) ?_ fun _ => ?_
  · exact ensures_brokerStep (fun _ h => covered_upsert h input _) fun _ _ h => h
  refine Ensures.bind (Q := fun _ => Attached input.gadgetini) ?_ fun _ => ?_
  · exact ensures_brokerStep (fun _ h => h) fun _ _ h => h.1
  refine Ensures.bind (ensures_reconcileCondition _) fun _ => ?_
  refine Ensures.bind (ensures_reconcileCondition _) fun _ => ?_
  refine Ensures.bind (ensures_reconcileCondition _) fun _ => ?_
  exact ensures_reconcileCondition _

theorem ensures_validated :
    Ensures Covered (.lift (validatedCollect input) : Act Unit) (fun _ => Covered)
      fun _ => Covered :=
  Ensures.lift (fun _ _ _ h => h) fun _ _ _ h => h

theorem ensures_attach :
    Ensures Covered (attach answer input) (fun _ => Covered) fun _ => Covered := by
  refine Ensures.bind (ensures_validated input) fun _ => ?_
  refine Ensures.bind (Q := fun _ => Covered) ?_ fun _ => ?_
  · refine Ensures.bind (Q := fun _ => Covered) ?_ fun monitored => ?_
    · exact ensures_brokerStep (fun _ h => h) fun _ _ h => h
    · cases monitored with
      | false => exact Ensures.throw fun _ h => h
      | true => exact Ensures.pure fun _ h => h
  refine Ensures.bind (Q := fun _ => Covered) ?_ fun existing => ?_
  · exact ensures_brokerStep (fun _ h => h) fun _ _ h => h
  refine Ensures.bind (Q := fun _ => Covered) ?_ fun _ => ?_
  · exact Ensures.lift (fun _ _ _ h => h) fun _ _ _ h => h
  refine Ensures.bind (ensures_collectObservation input) fun _ => ?_
  refine Ensures.bind (Q := fun _ => Covered) ?_ fun relation => ?_
  · exact ensures_brokerStep (fun _ h => h.1) fun _ _ h => h.1
  cases relation with
  | none => exact Ensures.throw fun _ h => h
  | some relation => exact Ensures.pure fun _ h => h

end

/-! ## Detaching -/

/-- The alerts of a Gadgetini for `done` are gone, and nothing else has been added. -/
structure Cleared (gadgetini : LocalId) (s t : Store) (done : List Condition) : Prop where
  relations : t.relations = s.relations
  alerts : ∀ key, t.alerts key = true → s.alerts key = true
  gone : ∀ condition ∈ done, t.alerts (fingerprint gadgetini condition) = false

theorem Cleared.cons {t : Store} {done : List Condition} (h : Cleared gadgetini
    (s.setAlert (fingerprint gadgetini condition) false) t done) :
    Cleared gadgetini s t (condition :: done) where
  relations := h.relations
  alerts key hkey := by
    have hold := h.alerts key hkey
    unfold Store.setAlert at hold
    by_cases heq : key = fingerprint gadgetini condition
    · simp [heq] at hold
    · simpa [heq] using hold
  gone condition' hcondition' := by
    rcases mem_cons.1 hcondition' with rfl | hrest
    · refine Bool.eq_false_iff.2 fun hkey => ?_
      simpa [Store.setAlert] using h.alerts _ hkey
    · exact h.gone condition' hrest

/-- Neither a relation nor an alert of the Gadgetini is left. -/
def Gone (gadgetini : LocalId) (s : Store) : Prop :=
  s.relations gadgetini = none ∧ ∀ condition, s.alerts (fingerprint gadgetini condition) = false

theorem Covered.gone (h : Covered s) (hrelation : s.relations gadgetini = none) :
    Gone gadgetini s :=
  ⟨hrelation, fun condition => Bool.eq_false_iff.2 fun halert =>
    h gadgetini condition halert hrelation⟩

theorem Cleared.covered {t : Store} {s₁ : Store} (hcovered : Covered s)
    (hs₁ : s₁ = { s with relations := Function.update s.relations gadgetini none })
    (hsame : t.relations = s₁.relations) (hold : ∀ key, t.alerts key = true → s₁.alerts key = true)
    (hgone : ∀ condition, t.alerts (fingerprint gadgetini condition) = false) :
    Gone gadgetini t ∧ Covered t := by
  subst hs₁
  refine ⟨⟨by simp [hsame], hgone⟩, fun gadgetini' condition halert => ?_⟩
  have hne : gadgetini' ≠ gadgetini := by
    rintro rfl
    rw [hgone] at halert
    cases halert
  rw [hsame]
  simpa [hne] using hcovered gadgetini' condition (hold _ halert)

structure Refused (answer : Answer) (input : DetachInput) (s t : Store) : Prop where
  covered : Covered t ∨ Strands s (.detach input, answer)
  repeatable : (s.relations input.gadgetini).all input.matches = true →
    answer.fails ≠ none ∧ (t.relations input.gadgetini).all input.matches = true

def sampleAnswer (fails : Option BrokerStep) : Answer :=
  ⟨fails, true, .ok ⟨none, some true, none, none⟩, 7⟩

end Gadgetron.Servers.Cooling
