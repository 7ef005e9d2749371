import Gadgetron.Policy.JsonValue
import Gadgetron.Servers.Operations

/-!
# Observations of servers

A row that several operations maintain is read by one request and written whole by a later one.
-/

namespace Gadgetron.Servers

open Lib Alerts Policy List Option

inductive Observation
  | asset (hostId : String) (part : AssetPart) (value : Json)
  | line (findingId : String)
  | failure (target : String)
  | success (target : String)

def Op.observes (db : Store) (newId : String) : Op → List Observation
  | .collect call =>
    match call.stage with
    | .write _ => [.asset call.hostId call.part call.value]
    | .read => []
  | .scan call =>
    match call.stage with
    | .write (some found) => (db.findings.get found.id).toList.map fun row => .line row.id
    | .write none => [.line newId]
    | _ => []
  | .transition _ => []
  | .probeSuccess call =>
    match call.stage with
    | .write => [.success call.target]
    | .alert => []
  | .probeFailure call =>
    match call.stage with
    | .write _ => [.failure call.target]
    | _ => []

def State.observes (s : State) : Label → List Observation
  | .start _ _ => []
  | .request i _ newId => ((s.ops i).map (Op.observes s.db newId)).getD []

def lastAsset (hostId : String) (part : AssetPart) (observed : List Observation) : Option Json :=
  observed.foldl (fun last o =>
    match o with
    | .asset hostId' part' value => if hostId' = hostId ∧ part' = part then some value else last
    | _ => last) none

def linesOf (findingId : String) (observed : List Observation) : ℕ :=
  observed.countP fun o =>
    match o with
    | .line findingId' => findingId' = findingId
    | _ => false

def failuresSince (target : String) (observed : List Observation) : ℕ :=
  observed.foldl (fun failures o =>
    match o with
    | .failure target' => if target' = target then failures + 1 else failures
    | .success target' => if target' = target then 0 else failures
    | _ => failures) 0

/-! ## Requests that write back what is stored -/

def Store.failures (db : Store) (target : String) : ℕ :=
  ((db.health.get target).map HealthRow.consecutiveFailures).getD 0

/-- What the operation has read and will write back is what is stored. -/
def Op.Current (db : Store) : Op → Prop
  | .collect call => ∀ kept, call.stage = .write kept → db.part call.hostId call.part.other = kept
  | .scan call => ∀ found row, call.stage = .write (some found) →
      db.findings.get found.id = some row → row.count = found.count
  | .probeFailure call => ∀ existing, call.stage = .write existing →
      db.failures call.target = (existing.map PriorHealth.consecutiveFailures).getD 0 ∧
        db.failures call.target < maxInteger
  | _ => True

/-- A write comes of what the row still says. -/
def WritesCurrent (s : State) : Label → Prop
  | .start _ _ => True
  | .request i _ _ => ∀ op, s.ops i = some op → op.Current s.db

structure Recorded (observed : List Observation) (db : Store) : Prop where
  part : ∀ hostId part, (lastAsset hostId part observed).getD emptyObject = db.part hostId part
  assets : ∀ hostId part, (lastAsset hostId part observed).isSome = true →
    (db.assets.get hostId).isSome = true
  count : ∀ row ∈ db.findings, row.count = linesOf row.id observed
  lines : ∀ id, db.findings.get id = none → linesOf id observed = 0
  failures : ∀ target, db.failures target = failuresSince target observed

/-! ## One observation -/

section

variable {observed : List Observation}

theorem lastAsset_append (hostId : String) (part : AssetPart) (o : Observation) :
    lastAsset hostId part (observed ++ [o]) = match o with
      | .asset hostId' part' value =>
        if hostId' = hostId ∧ part' = part then some value else lastAsset hostId part observed
      | _ => lastAsset hostId part observed := by
  rw [lastAsset, foldl_append]
  cases o <;> rfl

theorem linesOf_append (id : String) (o : Observation) : linesOf id (observed ++ [o]) =
      linesOf id observed + match o with
        | .line id' => if id' = id then 1 else 0
        | _ => 0 := by
  rw [linesOf, countP_append, countP_singleton]
  cases o <;> simp [linesOf]

theorem failuresSince_append (target : String) (o : Observation) :
    failuresSince target (observed ++ [o]) = match o with
      | .failure target' =>
        if target' = target then failuresSince target observed + 1
        else failuresSince target observed
      | .success target' => if target' = target then 0 else failuresSince target observed
      | _ => failuresSince target observed := by
  rw [failuresSince, foldl_append]
  cases o <;> rfl

end

/-! ## Requests -/

section

variable {observed : List Observation} {db db' : Store} {now : ℤ}

theorem AssetPart.other_ne (part : AssetPart) : part.other ≠ part := by
  cases part <;> decide

theorem part_of_upsert {row : AssetRow} (h : db'.assets = db.assets.upsert row) (hostId : String)
    (part : AssetPart) :
    db'.part hostId part = if row.hostId = hostId then row.part part else db.part hostId part := by
  rw [Store.part, h, Table.get_upsert]
  split <;> rfl

theorem failures_of_upsert {row : HealthRow} (h : db'.health = db.health.upsert row)
    (target : String) : db'.failures target =
      if row.targetId = target then row.consecutiveFailures else db.failures target := by
  rw [Store.failures, h, Table.get_upsert]
  split <;> rfl

theorem AssetPart.eq_or_other (part part' : AssetPart) : part' = part ∨ part' = part.other := by
  cases part <;> cases part' <;> decide

theorem exists_collect_write {call : Collect} {kept : Json} (hstage : call.stage = .write kept) :
    ∃ row : AssetRow, row.hostId = call.hostId ∧ row.part call.part = call.value ∧
      row.part call.part.other = kept ∧
      (call.step now db).1 = { db with assets := db.assets.upsert row } := by
  unfold Collect.step
  rw [hstage]
  cases call.part with
  | inventory | topology => exact ⟨_, rfl, rfl, rfl, rfl⟩

theorem Recorded.collect (hs : Recorded observed db) {call : Collect}
    (hcurrent : (Op.collect call).Current db) (newId : String) :
    Recorded (observed ++ (Op.collect call).observes db newId) (call.step now db).1 := by
  cases hstage : call.stage with
  | read =>
    rw [Op.observes, hstage, append_nil, Collect.step, hstage]
    exact hs
  | write kept =>
    obtain ⟨row, hhost, hvalue, hkept, hdb⟩ := exists_collect_write hstage
    rw [Op.observes, hstage, hdb]
    constructor
    case part =>
      intro hostId part
      simp only [lastAsset_append]
      rw [part_of_upsert rfl, hhost]
      by_cases hsame : call.hostId = hostId
      · rw [if_pos hsame]
        obtain rfl | rfl := call.part.eq_or_other part
        · rw [if_pos ⟨hsame, rfl⟩, hvalue, getD_some]
        · rw [if_neg fun h => call.part.other_ne h.2.symm, hs.part, ← hsame, hcurrent kept hstage,
            hkept]
      · rw [if_neg hsame, if_neg fun h => hsame h.1, hs.part]
    case assets =>
      intro hostId part hsome
      simp only [lastAsset_append] at hsome
      rw [Table.get_upsert, hhost]
      by_cases hsame : call.hostId = hostId
      · rw [if_pos hsame]
        rfl
      · rw [if_neg hsame]
        rw [if_neg fun h => hsame h.1] at hsome
        exact hs.assets hostId part hsome
    case count =>
      intro row hrow
      simp only [linesOf_append]
      exact hs.count row hrow
    case lines =>
      intro id hid
      simp only [linesOf_append]
      exact hs.lines id hid
    case failures =>
      intro target
      simp only [failuresSince_append]
      exact hs.failures target

variable {log : LogStore}

section

variable (hs : Recorded observed db)

include hs

theorem Recorded.line {row : Finding}
    (hcount : row.count = linesOf row.id observed + 1)
    (hget : ∀ id, log.findings.get id = if row.id = id then some row else db.findings.get id) :
    Recorded (observed ++ [.line row.id]) { db with toLogStore := log } where
  part hostId part := by
    simp only [lastAsset_append]
    exact hs.part hostId part
  assets hostId part hsome := by
    simp only [lastAsset_append] at hsome
    exact hs.assets hostId part hsome
  count x hx := by
    have hx' := hget x.id
    rw [Table.get_eq_some.2 ⟨hx, rfl⟩] at hx'
    simp only [linesOf_append]
    by_cases hid : row.id = x.id
    · rw [if_pos hid] at hx'
      rw [some.inj hx', hcount, if_pos rfl]
    · rw [if_neg hid] at hx'
      rw [if_neg hid]
      exact hs.count x (Table.mem_of_get hx'.symm)
  lines id hid := by
    rw [hget] at hid
    simp only [linesOf_append]
    split at hid
    · cases hid
    · rename_i hne
      rw [if_neg hne]
      exact hs.lines id hid
  failures target := by
    simp only [failuresSince_append]
    exact hs.failures target

theorem Recorded.scan {digest : String → String} {newId : String} {call : Scan}
    {next : Option Scan} (hcurrent : (Op.scan call).Current db)
    (h : call.step digest now newId db.toLogStore = some (log, next)) :
    Recorded (observed ++ (Op.scan call).observes db newId) { db with toLogStore := log } := by
  cases scanEffect_of_step h with
  | select _ hstage =>
    rw [Op.observes, hstage, append_nil]
    exact hs
  | missing hstage hnone =>
    have hobserves : (Op.scan call).observes db newId = [] := by
      simp only [Op.observes, hstage, hnone, toList_none, map_nil]
    rw [hobserves, append_nil]
    exact hs
  | @fold line found row _ hstage _ hrow hupdate =>
    have hold : db.findings.get (foldFinding line found now row).id = some row := by
      rw [foldFinding_id, Table.key_of_get hrow, hrow]
    obtain ⟨-, -, hget⟩ := updateFinding_eq_some hold hupdate
    have hobserves : (Op.scan call).observes db newId =
        [.line (foldFinding line found now row).id] := by
      simp only [Op.observes, hstage, hrow, toList_some, map_cons, map_nil, foldFinding_id]
    rw [hobserves]
    refine hs.line ?_ hget
    rw [foldFinding_id, ← hs.count row (Table.mem_of_get hrow), foldFinding_count,
      hcurrent found row hstage hrow]
  | @insert line _ hstage hinsert =>
    obtain ⟨-, -, hnone, hget⟩ := insertFinding_eq_some hinsert
    rw [Op.observes, hstage]
    refine hs.line ?_ hget
    rw [hs.lines _ hnone]
    rfl
  | alert hstage _ =>
    rw [Op.observes, hstage, append_nil]
    exact ⟨hs.part, hs.assets, hs.count, hs.lines, hs.failures⟩

theorem Recorded.transition {call : Transition} {next : Option Transition}
    (h : call.step now db.toLogStore = some (log, next)) :
    Recorded observed { db with toLogStore := log } := by
  cases transitionEffect_of_step h with
  | @update before row _ _ hrow hupdate =>
    have hold : db.findings.get (call.changed now row).id = some row := by
      rw [show (call.changed now row).id = row.id from rfl, Table.key_of_get hrow, hrow]
    obtain ⟨-, -, hget⟩ := updateFinding_eq_some hold hupdate
    refine ⟨hs.part, hs.assets, fun x hx => ?_, fun id hid => ?_, hs.failures⟩
    · have hx' := hget x.id
      rw [Table.get_eq_some.2 ⟨hx, rfl⟩] at hx'
      split at hx'
      · rw [some.inj hx']
        exact hs.count row (Table.mem_of_get hrow)
      · exact hs.count x (Table.mem_of_get hx'.symm)
    · refine hs.lines id ?_
      rw [hget] at hid
      split at hid
      · cases hid
      · exact hid
  | _ => exact ⟨hs.part, hs.assets, hs.count, hs.lines, hs.failures⟩

theorem Recorded.probe {row : HealthRow} {o : Observation}
    (ho : o = .failure row.targetId ∨ o = .success row.targetId)
    (hfailures : row.consecutiveFailures = failuresSince row.targetId (observed ++ [o])) :
    Recorded (observed ++ [o]) { db with health := db.health.upsert row } where
  part hostId part := by
    simp only [lastAsset_append]
    obtain rfl | rfl := ho <;> exact hs.part hostId part
  assets hostId part hsome := by
    simp only [lastAsset_append] at hsome
    obtain rfl | rfl := ho <;> exact hs.assets hostId part hsome
  count x hx := by
    simp only [linesOf_append]
    obtain rfl | rfl := ho <;> exact hs.count x hx
  lines id hid := by
    simp only [linesOf_append]
    obtain rfl | rfl := ho <;> exact hs.lines id hid
  failures target := by
    rw [failures_of_upsert rfl]
    by_cases hsame : row.targetId = target
    · rw [if_pos hsame, hfailures, hsame]
    · rw [if_neg hsame, hs.failures]
      obtain rfl | rfl := ho
      iterate 2 · simp only [failuresSince_append, if_neg hsame]

theorem Recorded.probeSuccess (call : ProbeSuccess) (newId : String) :
    Recorded (observed ++ (Op.probeSuccess call).observes db newId) (call.step now db).1 := by
  cases hstage : call.stage with
  | write =>
    rw [Op.observes, hstage, ProbeSuccess.step, hstage]
    refine hs.probe (.inr rfl) ?_
    simp only [failuresSince_append]
    exact (if_pos trivial).symm
  | alert =>
    rw [Op.observes, hstage, append_nil, ProbeSuccess.step, hstage]
    exact ⟨hs.part, hs.assets, hs.count, hs.lines, hs.failures⟩

theorem Recorded.probeFailure {call : ProbeFailure}
    (hcurrent : (Op.probeFailure call).Current db) (newId : String) :
    Recorded (observed ++ (Op.probeFailure call).observes db newId) (call.step now db).1 := by
  cases hstage : call.stage with
  | read =>
    rw [Op.observes, hstage, append_nil, ProbeFailure.step, hstage]
    exact hs
  | write existing =>
    obtain ⟨hread, hbound⟩ := hcurrent existing hstage
    rw [Op.observes, hstage, ProbeFailure.step, hstage]
    refine hs.probe (.inl rfl) ?_
    simp only [failuresSince_append]
    refine Eq.trans ?_ (if_pos trivial).symm
    rw [failuresAfter, ← hread, ← hs.failures, Nat.min_eq_left hbound]
  | alert =>
    rw [Op.observes, hstage, append_nil, ProbeFailure.step, hstage]
    exact ⟨hs.part, hs.assets, hs.count, hs.lines, hs.failures⟩

end

end

/-! ## Runs -/

section

variable {hostIdOf digest : String → String} {observed : List Observation}

theorem Recorded.step {s s' : State} {a : Label}
    (hs : Recorded observed s.db) (hcurrent : WritesCurrent s a)
    (h : (serverMachine hostIdOf digest).step s a = some s') :
    Recorded (observed ++ s.observes a) s'.db := by
  cases effect_of_step h with
  | start _ =>
    rw [State.observes, append_nil]
    exact hs
  | @request i now newId op db next hop hstep =>
    have hobserves : s.observes (.request i now newId) = op.observes s.db newId := by
      rw [State.observes, hop, map_some, getD_some]
    rw [hobserves]
    have hcurrent := hcurrent op hop
    cases op with
    | collect call =>
      cases hstep
      exact hs.collect hcurrent newId
    | scan call =>
      obtain ⟨⟨log, next⟩, hscan, hresult⟩ := map_eq_some_iff.1 hstep
      cases hresult
      exact hs.scan hcurrent hscan
    | transition call =>
      obtain ⟨⟨log, next⟩, hcall, hresult⟩ := map_eq_some_iff.1 hstep
      cases hresult
      rw [Op.observes, append_nil]
      exact hs.transition hcall
    | probeSuccess call =>
      cases hstep
      exact hs.probeSuccess call newId
    | probeFailure call =>
      cases hstep
      exact hs.probeFailure hcurrent newId

theorem Recorded.empty : Recorded [] .empty where
  part _ _ := rfl
  assets _ _ h := by cases h
  count row hrow := absurd hrow (Table.not_mem_empty row)
  lines _ _ := rfl
  failures _ := rfl

theorem Recorded.stored {db : Store} (h : Recorded observed db)
    {hostId : String} {part : AssetPart} {value : Json}
    (hlast : lastAsset hostId part observed = some value) :
    (db.assets.get hostId).map (·.part part) = some value := by
  have hrow := h.assets hostId part (by rw [hlast]; rfl)
  have hpart := h.part hostId part
  obtain ⟨row, hget⟩ := isSome_iff_exists.1 hrow
  rw [hlast, getD_some, Store.part, hget, map_some, getD_some] at hpart
  rw [hget, map_some, hpart]

/-- In a run whose requests all write back what is stored, no observation is lost. -/
theorem observations_kept (hostIdOf digest : String → String) {run : List Label} {t : State}
    (hrun : (serverMachine hostIdOf digest).exec .initial run = some t)
    (hcurrent : (serverMachine hostIdOf digest).Meets WritesCurrent .initial run) :
    let observed := (serverMachine hostIdOf digest).record State.observes .initial run
    (∀ hostId part value, lastAsset hostId part observed = some value →
      (t.db.assets.get hostId).map (·.part part) = some value) ∧
    (∀ row ∈ t.db.findings, row.dismissedAt = none → row.count = linesOf row.id observed) ∧
    ∀ target row, t.db.health.get target = some row →
      row.consecutiveFailures = failuresSince target observed := by
  have ht := (serverMachine hostIdOf digest).record_of_meets (C := WritesCurrent)
    (I := fun observed s => Recorded observed s.db) (f := State.observes)
    (fun observed s a s' hs hC h => hs.step hC h) Recorded.empty hcurrent hrun
  rw [nil_append] at ht
  refine ⟨fun hostId part value hlast => ht.stored hlast, fun row hrow _ => ht.count row hrow,
    fun target row hrow => ?_⟩
  have hfailures := ht.failures target
  rw [Store.failures, hrow] at hfailures
  exact hfailures

end

/-! ## Samples -/

/-- The condition, for collections of servers that have no row yet. -/
def currentTest (s : State) : Label → Bool
  | .start _ _ => true
  | .request i _ _ =>
    match s.ops i with
    | some (.collect call) =>
      match call.stage with
      | .write (.object []) => (s.db.assets.get call.hostId).isNone
      | .write _ => false
      | .read => true
    | some (.scan call) =>
      match call.stage with
      | .write (some found) =>
        (s.db.findings.get found.id).all fun row => row.count = found.count
      | _ => true
    | some (.probeFailure call) =>
      match call.stage with
      | .write existing =>
        s.db.failures call.target = (existing.map PriorHealth.consecutiveFailures).getD 0 &&
          s.db.failures call.target < maxInteger
      | _ => true
    | _ => true

theorem writesCurrent_of_test (s : State) (a : Label) (h : currentTest s a = true) :
    WritesCurrent s a := by
  cases a with
  | start i call => trivial
  | request i now newId =>
    intro op hop
    unfold currentTest at h
    simp only [hop] at h
    cases op with
    | collect call =>
      intro kept hstage
      simp only [hstage] at h
      split at h
      · rename_i hkept
        obtain rfl := CollectStage.write.inj hkept
        rw [Store.part, isNone_iff_eq_none.1 h]
        rfl
      · cases h
      · rename_i hkept
        cases hkept
    | scan call =>
      intro found row hstage hrow
      simp only [hstage, hrow, all_some, decide_eq_true_eq] at h
      exact h
    | probeFailure call =>
      intro existing hstage
      simp only [hstage, Bool.and_eq_true, decide_eq_true_eq] at h
      exact h
    | _ => trivial

def sampleRun : List Label :=
  [.start 0 (.inventoryCollect "edge" (.string "i")), .request 0 1 "", .request 0 2 "",
    .start 1 (.logScan "edge" "access denied\naccess denied"), .request 1 3 "", .request 1 4 "f",
    .request 1 5 "", .request 1 6 "",
    .start 2 (.recordProbeFailure "edge" "telemetry" ⟨"timeout", "no answer"⟩),
    .request 2 7 "", .request 2 8 ""]

theorem observations_kept_sample : ∃ t, (serverMachine id id).exec .initial sampleRun = some t ∧
      let observed := (serverMachine id id).record State.observes .initial sampleRun
      (∀ hostId part value, lastAsset hostId part observed = some value →
        (t.db.assets.get hostId).map (·.part part) = some value) ∧
      (∀ row ∈ t.db.findings, row.dismissedAt = none → row.count = linesOf row.id observed) ∧
      ∀ target row, t.db.health.get target = some row →
        row.consecutiveFailures = failuresSince target observed := by
  obtain ⟨t, ht⟩ : ∃ t, (serverMachine id id).exec .initial sampleRun = some t :=
    isSome_iff_exists.1 (by decide +kernel)
  exact ⟨t, ht, observations_kept id id ht
    ((serverMachine id id).meets_of_meetsTest writesCurrent_of_test (by decide +kernel))⟩

/-- Both collections read the row of the server before either writes it. -/
def overlappingRun : List Label :=
  [.start 0 (.inventoryCollect "edge" (.string "i")), .request 0 1 "",
    .start 1 (.topologyScan "edge" (.string "t")), .request 1 2 "", .request 1 3 "",
    .request 0 4 ""]

/-- The topology that was written last is written over by an inventory collection that had read the
row before. -/
theorem topology_written_over : ∃ t,
    (serverMachine id id).exec .initial overlappingRun = some t ∧ t.Idle ∧
      lastAsset "edge" .topology
        ((serverMachine id id).record State.observes .initial overlappingRun) = some (.string "t") ∧
      (t.db.assets.get "edge").map (·.part .topology) ≠ some (.string "t") := by
  have hrun : ∃ t, (serverMachine id id).exec .initial overlappingRun = some t ∧
      (∀ i ∈ overlappingRun.map Label.index, (t.ops i).isNone) ∧
      ((t.db.assets.get "edge").bind fun row => row.topology.asStr).isNone := by
    decide +kernel
  obtain ⟨t, ht, hidle, htopology⟩ := hrun
  refine ⟨t, ht, idle_of_indices ht hidle, rfl, fun hstored => ?_⟩
  obtain ⟨row, hrow, hpart⟩ := map_eq_some_iff.1 hstored
  rw [hrow, bind_some, show row.topology = .string "t" from hpart] at htopology
  cases htopology

end Gadgetron.Servers
