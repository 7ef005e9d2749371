import Gadgetron.Enrollment.Requests
import Mathlib.Data.Finset.Max

/-!
# Activation on current evidence

The status of the qualification gate is that of the results which one call has selected.
-/

namespace Gadgetron.Enrollment

open Lib EnrollmentStore List Option

variable {s s' : EnrollmentStore} {a : EnrollmentLabel} {row loaded : EnrollmentRow}
  {results : List ValidationResultRow} {check requestId actorId : String}

/-- The last of the results that count for the check. -/
structure Latest (results : List ValidationResultRow) (row : EnrollmentRow) (check : String)
    (result : ValidationResultRow) : Prop where
  mem : result ∈ results
  counts : row.counts check result
  last : ∀ other ∈ results, row.counts check other → other.observedAt ≤ result.observedAt

/-- Every required check has a latest result, and all of these are good. -/
structure Qualified (results : List ValidationResultRow) (row : EnrollmentRow) : Prop where
  exists_latest : ∀ check ∈ row.requiredQualification, ∃ result, Latest results row check result
  good : ∀ check ∈ row.requiredQualification, ∀ result, Latest results row check result →
    result.status.good

theorem exists_latest {result : ValidationResultRow} (hmem : result ∈ results)
    (hcounts : row.counts check result) : ∃ latest, Latest results row check latest := by
  have hne : (results.filter (row.counts check)).toFinset.Nonempty :=
    ⟨result, by simpa using ⟨hmem, hcounts⟩⟩
  obtain ⟨latest, hlatest, hmax⟩ := Finset.exists_max_image _ (·.observedAt) hne
  simp only [List.mem_toFinset, List.mem_filter] at hlatest hmax
  exact ⟨latest, hlatest.1, hlatest.2, fun other hother hcounts => hmax other ⟨hother, hcounts⟩⟩

/-! ## What a status has been computed from -/

structure Selected (results : List ValidationResultRow) (enrollmentId : Uuid)
    (gate : ValidationGate) (rows : List ValidationResultRow) : Prop where
  mem : ∀ result ∈ rows, result ∈ results
  own : ∀ result ∈ rows, result.enrollmentId = enrollmentId ∧ result.gate = gate
  order : rows.Pairwise fun result result' => result'.observedAt ≤ result.observedAt

/-- A gate that has passed has done so on rows selected in the current cycle. -/
structure EvidenceOf (results : List ValidationResultRow) (row : EnrollmentRow)
    (evidence : Evidence) : Prop where
  required : evidence.required = row.requiredQualification
  cycle : evidence.cycleStartedAt = row.validationCycleStartedAt
  selected : Selected results row.enrollmentId .qualification evidence.rows
  passed : ∃ truncated, (aggregateStatus row.requiredQualification
    (evidence.rows.filter (·.inCycle row.validationCycleStartedAt)) truncated).gatePassed

structure RowSound (results : List ValidationResultRow) (row : EnrollmentRow) : Prop where
  evidence : row.qualificationStatus.gatePassed → ∃ evidence, row.evidence = some evidence ∧
    EvidenceOf results row evidence
  commissioned : row.commissioningStatus.gatePassed → row.commissioned

variable {evidence : Evidence}

theorem EvidenceOf.exists_good (h : EvidenceOf results row evidence)
    (hcheck : check ∈ row.requiredQualification) :
    ∃ result ∈ evidence.rows, row.counts check result ∧ result.status.good ∧
      ∀ other ∈ evidence.rows, row.counts check other → other.observedAt ≤ result.observedAt := by
  obtain ⟨truncated, hpassed⟩ := h.passed
  obtain ⟨status, hlatest, hgood⟩ := exists_good_of_aggregate hpassed hcheck
  obtain ⟨result, hfind, rfl⟩ := map_eq_some_iff.1 hlatest
  obtain ⟨hresult, before, after, hrows, hbefore⟩ := find?_eq_some_iff_append.1 hfind
  have hmem : result ∈ evidence.rows.filter (·.inCycle row.validationCycleStartedAt) := by
    rw [hrows]
    exact mem_append_right _ mem_cons_self
  obtain ⟨hrow, hcycle⟩ := List.mem_filter.1 hmem
  have hown := h.selected.own result hrow
  refine ⟨result, hrow, ?_, hgood, fun other hother hcounts => ?_⟩
  · simp only [EnrollmentRow.counts, hown, decide_true, Bool.true_and, hcycle, Bool.and_true]
    exact hresult
  · simp only [EnrollmentRow.counts, Bool.and_eq_true, decide_eq_true_eq] at hcounts
    have hotherMem : other ∈ evidence.rows.filter (·.inCycle row.validationCycleStartedAt) :=
      List.mem_filter.2 ⟨hother, hcounts.2⟩
    have horder := h.selected.order.filter (·.inCycle row.validationCycleStartedAt)
    rw [hrows] at hotherMem horder
    rcases mem_append.1 hotherMem with hfirst | hlast
    · have := hbefore other hfirst
      simp [hcounts.1.2] at this
    · rcases mem_cons.1 hlast with rfl | hlast
      · exact le_rfl
      · exact (pairwise_cons.1 (pairwise_append.1 horder).2.1).1 other hlast

/-! ## Conditions at the activation -/

/-- The rows that the status of the qualification gate has been computed from. -/
def EnrollmentRow.seen (row : EnrollmentRow) : List ValidationResultRow :=
  (row.evidence.map (·.rows)).getD []

/-- A failing or skipped result of a required check is followed by a later one, if the status has
not been computed from it or it bears the instant of another result. -/
def Superseded (results : List ValidationResultRow) (row : EnrollmentRow) : Prop :=
  ∀ check ∈ row.requiredQualification, ∀ result ∈ results, row.counts check result →
    result.status.good = false →
    (result ∉ row.seen ∨ ∃ other ∈ row.seen, row.counts check other ∧ other ≠ result ∧
      other.observedAt = result.observedAt) →
      ∃ other ∈ results, row.counts check other ∧ result.observedAt < other.observedAt

theorem qualified_iff (h : RowSound results row) (hpassed : row.qualificationStatus.gatePassed) :
    Qualified results row ↔ Superseded results row := by
  obtain ⟨evidence, hevidence, hof⟩ := h.evidence hpassed
  have hseen : row.seen = evidence.rows := by rw [EnrollmentRow.seen, hevidence]; rfl
  constructor
  · intro hqualified check hcheck result hmem hcounts hbad _
    by_contra hlast
    push Not at hlast
    have := hqualified.good check hcheck result ⟨hmem, hcounts, hlast⟩
    rw [hbad] at this
    cases this
  · intro hsuperseded
    constructor
    · intro check hcheck
      obtain ⟨pick, hpick, hcounts, -, -⟩ := hof.exists_good hcheck
      exact exists_latest (hof.selected.mem pick hpick) hcounts
    · intro check hcheck result hlatest
      by_contra hbad
      rw [Bool.not_eq_true] at hbad
      -- The status rests on a good result of the check, not later than this one.
      obtain ⟨pick, hpick, hcounts, hgood, hmax⟩ := hof.exists_good hcheck
      have hle := hlatest.last pick (hof.selected.mem pick hpick) hcounts
      have hne : pick ≠ result := by
        rintro rfl
        rw [hgood] at hbad
        cases hbad
      have hunseen : result ∉ row.seen ∨ ∃ other ∈ row.seen, row.counts check other ∧
          other ≠ result ∧ other.observedAt = result.observedAt := by
        by_cases hresult : result ∈ row.seen
        · have hge := hmax result (hseen ▸ hresult) hlatest.counts
          exact .inr ⟨pick, hseen.symm ▸ hpick, hcounts, hne, by omega⟩
        · exact .inl hresult
      obtain ⟨other, hother, hotherCounts, hlt⟩ :=
        hsuperseded check hcheck result hlatest.mem hlatest.counts hbad hunseen
      have := hlatest.last other hother hotherCounts
      omega

/-! ## Changes of a row -/

/-- A change made by `validation_record` comes with the rows that it has selected. -/
def ChangeSound (results : List ValidationResultRow) (loaded : EnrollmentRow) : RowChange → Prop
  | .validation input rows _ _ => Selected results loaded.enrollmentId input.gate rows
  | _ => True

@[simp] theorem gatePassed_pendingGateStatus (required : List String) :
    (pendingGateStatus required).gatePassed = false := by
  unfold pendingGateStatus
  split_ifs <;> rfl

variable {row' : EnrollmentRow}

theorem EvidenceOf.congr
    (h : EvidenceOf results row evidence) (hid : row'.enrollmentId = row.enrollmentId)
    (hrequired : row'.requiredQualification = row.requiredQualification)
    (hcycle : row'.validationCycleStartedAt = row.validationCycleStartedAt) :
    EvidenceOf results row' evidence :=
  ⟨h.required.trans hrequired.symm, h.cycle.trans hcycle.symm, hid ▸ h.selected, by
    rw [hrequired, hcycle]
    exact h.passed⟩

section

variable (h : RowSound results row)
include h

theorem RowSound.congr (hid : row'.enrollmentId = row.enrollmentId)
    (hrequired : row'.requiredQualification = row.requiredQualification)
    (hcycle : row'.validationCycleStartedAt = row.validationCycleStartedAt)
    (hevidence : row'.evidence = row.evidence)
    (hqualification : row'.qualificationStatus = row.qualificationStatus)
    (hcommissioning : row'.commissioningStatus = row.commissioningStatus)
    (hcommissioned : row'.commissioned = row.commissioned) : RowSound results row' := by
  constructor
  · intro hpassed
    obtain ⟨evidence, heq, hof⟩ := h.evidence (hqualification ▸ hpassed)
    exact ⟨evidence, hevidence.trans heq, hof.congr hid hrequired hcycle⟩
  · intro hpassed
    rw [hcommissioned]
    exact h.commissioned (hcommissioning ▸ hpassed)

theorem RowSound.restart (hqualification : row'.qualificationStatus.gatePassed = false)
    (hcommissioning : row'.commissioningStatus.gatePassed = false ∨
      row'.commissioningStatus = row.commissioningStatus ∧
        row'.commissioned = row.commissioned) : RowSound results row' := by
  constructor
  · intro hpassed
    rw [hqualification] at hpassed
    cases hpassed
  · intro hpassed
    rcases hcommissioning with hnot | ⟨hstatus, hcommissioned⟩
    · rw [hnot] at hpassed
      cases hpassed
    · rw [hcommissioned]
      exact h.commissioned (hstatus ▸ hpassed)

theorem RowSound.setTransition (input : EnrollmentTransitionInput)
    (targetRevision : Option Uuid) (recoveryObservation : Option (Uuid × Uuid)) (updatedAt : ℤ) :
    RowSound results (setTransition requestId actorId row input targetRevision recoveryObservation
      updatedAt row) := by
  unfold Enrollment.setTransition
  dsimp only
  split
  · exact h.restart (gatePassed_pendingGateStatus _) (.inr ⟨rfl, rfl⟩)
  · exact h.restart (gatePassed_pendingGateStatus _) (.inl (gatePassed_pendingGateStatus _))
  · exact h.restart (gatePassed_pendingGateStatus _) (.inr ⟨rfl, rfl⟩)
  · exact h.congr rfl rfl rfl rfl rfl rfl rfl
  · exact h.congr rfl rfl rfl rfl rfl rfl rfl

theorem RowSound.setRollout (desired : DesiredEnrollmentProfile)
    (updatedAt : ℤ) : RowSound results (setRollout requestId row desired updatedAt row) := by
  unfold Enrollment.setRollout
  refine h.restart (gatePassed_pendingGateStatus _) ?_
  dsimp only
  split_ifs
  · exact .inl (gatePassed_pendingGateStatus _)
  · exact .inr ⟨rfl, rfl⟩

end

variable {rows : List ValidationResultRow} {gate : ValidationGate}

theorem RowSound.setGate (h : RowSound results row) (hid : row.enrollmentId = loaded.enrollmentId)
    (hrequired : row.requiredQualification = loaded.requiredQualification)
    (hcycle : row.validationCycleStartedAt = loaded.validationCycleStartedAt)
    (hrows : Selected results loaded.enrollmentId gate rows) (truncated : Bool) :
    RowSound results (setGate loaded gate rows truncated row) := by
  unfold Enrollment.setGate
  dsimp only
  split_ifs
  · exact h
  · cases gate with
    | commissioning =>
      refine ⟨fun hpassed => ?_, fun hpassed => Bool.or_eq_true_iff.2 (.inr hpassed)⟩
      obtain ⟨evidence, heq, hof⟩ := h.evidence hpassed
      exact ⟨evidence, heq, hof.congr rfl rfl rfl⟩
    | qualification =>
      refine ⟨fun hpassed => ⟨_, rfl, hrequired.symm, hcycle.symm, hid ▸ hrows,
        (currentCycle loaded rows truncated).2, ?_⟩, h.commissioned⟩
      dsimp only
      rw [hrequired, hcycle]
      exact hpassed

theorem RowSound.setValidation (h : RowSound results row) {input : ValidationRecordInput}
    (hrows : Selected results row.enrollmentId input.gate rows)
    (truncated : Bool) (observedAt : ℤ) :
    RowSound results (setValidation requestId row input rows truncated observedAt row) := by
  have hgate : RowSound results (Enrollment.setGate row input.gate rows truncated
      { row with
        revision := ⟨"validation-state", row.enrollmentId, [], requestId⟩
        updatedAt := observedAt }) := by
    have hrow : RowSound results
        { row with
          revision := ⟨"validation-state", row.enrollmentId, [], requestId⟩
          updatedAt := observedAt } := h.congr rfl rfl rfl rfl rfl rfl rfl
    exact @RowSound.setGate _ row _ _ _ hrow rfl rfl rfl hrows truncated
  unfold Enrollment.setValidation
  dsimp only
  split_ifs
  · exact hgate.congr rfl rfl rfl rfl rfl rfl rfl
  · exact hgate

variable {change : RowChange}

theorem RowSound.set (h : RowSound results row) (hchange : ChangeSound results row change) :
    RowSound results (change.set requestId actorId row row) := by
  cases change with
  | transition input targetRevision recoveryObservation updatedAt =>
    exact h.setTransition input targetRevision recoveryObservation updatedAt
  | planRecord | setupRecord | posture => exact h.congr rfl rfl rfl rfl rfl rfl rfl
  | rolloutApply desired updatedAt => exact h.setRollout desired updatedAt
  | validation input rows truncated observedAt => exact h.setValidation hchange truncated observedAt

theorem rowSound_new (enrollmentId : Uuid) (now : ℤ) (input : EnrollmentPlanInput) :
    RowSound results (.new enrollmentId requestId now input) := by
  constructor
  all_goals
    intro hpassed
    simp [EnrollmentRow.new] at hpassed

/-! ## Steps -/

structure Sound (s : EnrollmentStore) : Prop where
  numbered : Numbered s
  rows : ∀ row ∈ s.enrollments, RowSound s.results.rows row
  changes : ∀ call ∈ s.calls, ∀ loaded change, call.stage = .prepared loaded change →
    ChangeSound s.results.rows loaded change

theorem sound_initial (now : ℤ) : Sound (.initial now) where
  numbered := numbered_initial now
  rows _ h := (Table.not_mem_empty _ h).elim
  changes _ h := (Table.not_mem_empty _ h).elim

variable {results' : List ValidationResultRow} {enrollmentId : Uuid}

theorem Selected.mono
    (h : Selected results enrollmentId gate rows) (hmono : ∀ result ∈ results, result ∈ results') :
    Selected results' enrollmentId gate rows :=
  ⟨fun result hresult => hmono result (h.mem result hresult), h.own, h.order⟩

theorem RowSound.mono (h : RowSound results row)
    (hmono : ∀ result ∈ results, result ∈ results') : RowSound results' row := by
  refine ⟨fun hpassed => ?_, h.commissioned⟩
  obtain ⟨evidence, heq, hof⟩ := h.evidence hpassed
  exact ⟨evidence, heq, hof.required, hof.cycle, hof.selected.mono hmono, hof.passed⟩

theorem ChangeSound.mono
    (h : ChangeSound results loaded change) (hmono : ∀ result ∈ results, result ∈ results') :
    ChangeSound results' loaded change := by
  cases change with
  | validation input rows truncated observedAt => exact Selected.mono h hmono
  | _ => trivial

variable {world : Observations} {now : ℤ}

theorem changeSound_prepareTransition {input : EnrollmentTransitionInput}
    (h : prepareTransition now world input row = .ok change) : ChangeSound results row change := by
  obtain ⟨_, _, _, _, h⟩ := bind₂_eq_ok.1 h
  obtain ⟨_, _, _, _, h⟩ := bind₂_eq_ok.1 h
  obtain ⟨_, _, h⟩ := bind_eq_ok.1 h
  cases h
  trivial

theorem changeSound_prepareSetup {input : EnrollmentSetupRecordInput}
    (h : prepareSetup now input row = .ok (some change)) : ChangeSound results row change := by
  unfold prepareSetup at h
  split_ifs at h
  all_goals cases h
  trivial

theorem changeSound_prepareRollout {input : EnrollmentRolloutApplyInput}
    {desired : DesiredEnrollmentProfile}
    (h : prepareRollout now input desired row = .ok change) : ChangeSound results row change := by
  unfold prepareRollout at h
  split_ifs at h
  all_goals cases h
  trivial

theorem changeSound_preparePosture {observedHealth : PostureHealth}
    (h : preparePosture now world observedHealth row = .ok (some change)) :
    ChangeSound results row change := by
  unfold preparePosture at h
  split at h
  · cases h
  · dsimp only at h
    split_ifs at h
    all_goals cases h
    trivial

theorem changeSound_prepareStage {operation : Operation}
    (h : s.prepareStage row operation = .ok (.prepared row change)) :
    ChangeSound results row change := by
  cases operation with
  | transition input =>
    simp only [prepareStage] at h
    split_ifs at h
    · cases h
    · obtain ⟨change, hchange, heq⟩ := map_eq_ok.1 h
      cases heq
      exact changeSound_prepareTransition hchange
  | planRecord plan =>
    obtain ⟨change, hchange, heq⟩ := map_eq_ok.1 h
    cases heq
    unfold preparePlan at hchange
    split_ifs at hchange
    all_goals cases hchange
    trivial
  | setupRecord input =>
    obtain ⟨change, hchange, heq⟩ := map_eq_ok.1 h
    cases change with
    | none => cases heq
    | some change =>
      cases heq
      exact changeSound_prepareSetup hchange
  | rolloutApply input desired =>
    obtain ⟨change, hchange, heq⟩ := map_eq_ok.1 h
    cases heq
    exact changeSound_prepareRollout hchange
  | reconcilePosture observedHealth =>
    simp only [prepareStage] at h
    split_ifs at h
    · cases h
    · obtain ⟨change, hchange, heq⟩ := map_eq_ok.1 h
      cases change with
      | none => cases heq
      | some change =>
        cases heq
        exact changeSound_preparePosture hchange
  | validationRecord input =>
    obtain ⟨_, -, heq⟩ := map_eq_ok.1 h
    cases heq

theorem selected_take (hperm : rows.isPerm (s.resultsOf enrollmentId gate))
    (horder : descending rows) (n : ℕ) :
    Selected s.results.rows enrollmentId gate (rows.take n) := by
  have hmem : ∀ result ∈ rows.take n, result ∈ s.resultsOf enrollmentId gate := fun _ hresult =>
    (isPerm_iff.1 hperm).mem_iff.1 (mem_of_mem_take hresult)
  refine ⟨fun result hresult => ?_, fun result hresult => ?_, ?_⟩
  · exact (List.mem_filter.1 (hmem result hresult)).1
  · simpa using (List.mem_filter.1 (hmem result hresult)).2
  · exact (of_decide_eq_true horder).sublist (take_sublist n rows)

theorem changeSound_advance {stage : CallStage} (h : Advance s stage (.prepared loaded change)) :
    ChangeSound s.results.rows loaded change := by
  cases h with
  | prepare row operation change ok => exact changeSound_prepareStage ok
  | select row input observedAt rows perm order => exact selected_take perm order selectLimit

theorem Sound.rows_step (h : Sound s) (heffect : Effect s a s') :
    ∀ row ∈ s'.enrollments, RowSound s.results.rows row := by
  cases heffect with
  | quiet _ _ enrollments results calls => exact enrollments.symm ▸ h.rows
  | enroll enrollmentId requestId input enrollments inserted =>
    intro row hrow
    rcases (Table.mem_insert inserted).1 hrow with hold | rfl
    · exact h.rows row hold
    · exact rowSound_new enrollmentId s.now input
  | load | advance => exact h.rows
  | record call row input observedAt mem stage =>
    intro x hx
    exact h.rows x (enrollments_upsertResult (s := s) _ ▸ hx)
  | update call loaded change row outcomes mem stage rowMem id revision updated =>
    obtain rfl := h.numbered.eq_loaded mem (stage ▸ rfl) rowMem id revision
    intro x hx
    rcases (Table.mem_put rowMem (enrollmentId_set change).symm).1 hx with rfl | ⟨hold, -⟩
    · exact (h.rows row rowMem).set (h.changes call mem row change stage)
    · exact h.rows x hold

theorem Sound.changes_goOn (h : Sound s) {call : EnrollmentCall} {stage : CallStage}
    (hmem : call ∈ s.calls)
    (hstage : ∀ loaded change, stage = .prepared loaded change →
      ChangeSound s.results.rows loaded change) :
    ∀ x ∈ (s.goOn call stage).calls, ∀ loaded change, x.stage = .prepared loaded change →
      ChangeSound s.results.rows loaded change := by
  intro x hx
  rcases (mem_calls_goOn hmem).1 hx with rfl | ⟨hold, -⟩
  · exact hstage
  · exact h.changes x hold

theorem Sound.changes_step (h : Sound s) (heffect : Effect s a s') :
    ∀ x ∈ s'.calls, ∀ loaded change, x.stage = .prepared loaded change →
      ChangeSound s.results.rows loaded change := by
  cases heffect with
  | quiet _ _ enrollments results calls => exact calls.symm ▸ h.changes
  | enroll enrollmentId requestId input enrollments inserted => exact h.changes
  | load callId requestId actorId row operation calls rowMem inserted =>
    intro x hx
    rcases (Table.mem_insert inserted).1 hx with hold | rfl
    · exact h.changes x hold
    · rintro _ _ ⟨⟩
  | advance _ call stage mem advance =>
    refine h.changes_goOn mem ?_
    rintro loaded change rfl
    exact changeSound_advance advance
  | record call row input observedAt mem stage =>
    intro x hx
    rw [goOn_upsertResult, calls_upsertResult] at hx
    exact h.changes_goOn mem (by rintro _ _ ⟨⟩) x hx
  | update call loaded change row outcomes mem stage rowMem id revision updated =>
    exact h.changes_goOn mem (by rintro _ _ ⟨⟩)

theorem Sound.step (h : Sound s) (hfresh : FreshRequest s a) (heffect : Effect s a s') :
    Sound s' := by
  have hmono : ∀ result ∈ s.results.rows, result ∈ s'.results.rows := fun _ hresult =>
    h.numbered.mem_results heffect hresult
  exact ⟨h.numbered.step hfresh heffect, fun row hrow => (h.rows_step heffect row hrow).mono hmono,
    fun x hx loaded change hstage => (h.changes_step heffect x hx loaded change hstage).mono hmono⟩

/-! ## Runs -/

/-- The step makes the enrollment active. -/
structure Activates (s s' : EnrollmentStore) (row : EnrollmentRow) : Prop where
  mem : row ∈ s'.enrollments
  active : row.lifecycleState = .active
  before : ∀ old ∈ s.enrollments, old.enrollmentId = row.enrollmentId → old.lifecycleState ≠ .active

/-- The enrollments that a step activates have `P`, with the results there are. -/
def Activating (P : List ValidationResultRow → EnrollmentRow → Prop) (s : EnrollmentStore)
    (a : EnrollmentLabel) : Prop :=
  ∀ s', enrollmentMachine.step s a = some s' → ∀ row, Activates s s' row → P s'.results.rows row

/-- Every required qualification check has a latest result, which is good, and the commissioning
gate has passed since commissioning began. -/
def OnEvidence (results : List ValidationResultRow) (row : EnrollmentRow) : Prop :=
  Qualified results row ∧ row.commissioned

theorem checked_of_updateOutcomes {outcomes outcomes' : Table OutcomeRow.id}
    {fires : Bool} {old new : EnrollmentRow}
    (h : updateOutcomes world results outcomes fires old new = some outcomes') : new.checked := by
  unfold updateOutcomes at h
  split_ifs at h with hchecked
  all_goals simpa using hchecked

theorem checked_of_activates (heffect : Effect s a s') (h : Activates s s' row) : row.checked := by
  cases heffect with
  | quiet _ _ enrollments results calls =>
    exact absurd h.active (h.before row (enrollments ▸ h.mem) rfl)
  | enroll enrollmentId requestId input enrollments inserted =>
    rcases (Table.mem_insert inserted).1 h.mem with hold | rfl
    · exact absurd h.active (h.before row hold rfl)
    · exact absurd h.active nofun
  | load | advance _ _ _ mem =>
    exact absurd h.active (h.before row h.mem rfl)
  | record call old input observedAt mem stage =>
    exact absurd h.active (h.before row (enrollments_upsertResult (s := s) _ ▸ h.mem) rfl)
  | update call loaded change old outcomes mem stage rowMem id revision updated =>
    rcases (Table.mem_put rowMem (enrollmentId_set change).symm).1 h.mem with rfl | ⟨hold, -⟩
    · exact checked_of_updateOutcomes updated
    · exact absurd h.active (h.before row hold rfl)

theorem onEvidence_iff (h : Sound s) (hfresh : FreshRequest s a)
    (hstep : enrollmentMachine.step s a = some s') :
    Activating Superseded s a ↔ Activating OnEvidence s a := by
  refine forall₂_congr fun s₁ hs₁ => forall₂_congr fun row hactivates => ?_
  obtain rfl := mem_unique hstep hs₁
  have heffect := step_effect hstep
  have hsound := (h.step hfresh heffect).rows row hactivates.mem
  have hchecked := checked_of_activates heffect hactivates
  rw [EnrollmentRow.checked, hactivates.active] at hchecked
  obtain ⟨hcommissioning, hqualification⟩ := Bool.and_eq_true_iff.1 (by simpa using hchecked)
  exact (qualified_iff hsound hqualification).symm.trans
    (and_iff_left (hsound.commissioned hcommissioning)).symm

/-- Every enrollment becomes active on current evidence if and only if, where it does, every result
against it that its status has not been computed from is followed by a later one. -/
theorem activation_on_evidence_iff (now : ℤ) {as : List EnrollmentLabel} {t : EnrollmentStore}
    (hrun : enrollmentMachine.exec (.initial now) as = some t)
    (hfresh : enrollmentMachine.Meets FreshRequest (.initial now) as) :
    enrollmentMachine.Meets (Activating Superseded) (.initial now) as ↔
      enrollmentMachine.Meets (Activating OnEvidence) (.initial now) as :=
  enrollmentMachine.meets_congr_of_meets (K := FreshRequest) (I := Sound)
    (fun _ _ _ hs hfresh hstep => hs.step hfresh (step_effect hstep))
    (fun _ _ _ hs hfresh hstep => onEvidence_iff hs hfresh hstep) (sound_initial now) hfresh hrun

def freshRequest (s : EnrollmentStore) : EnrollmentLabel → Bool
  | .load _ requestId _ _ _ => s.calls.rows.all fun call => call.requestId ≠ requestId
  | _ => true

theorem freshRequest_of_test (h : freshRequest s a) : FreshRequest s a := by
  rintro callId requestId actorId enrollmentId operation rfl call hcall
  exact of_decide_eq_true (List.all_eq_true.1 h call hcall)

/-- Enough for what a step activates to be superseded: no result speaks against it. -/
def unopposed (s : EnrollmentStore) (a : EnrollmentLabel) : Bool :=
  (enrollmentMachine.step s a).all fun s' =>
    s'.results.rows.all fun result => result.status.good

theorem superseded_of_test (h : unopposed s a) : Activating Superseded s a := by
  intro s' hs' row _ check _ result hresult _ hbad
  rw [unopposed, hs', all_some, List.all_eq_true] at h
  rw [h result hresult] at hbad
  cases hbad

def sampleChange (callId : ℕ) (requestId : String) (operation : Operation) : List EnrollmentLabel :=
  [.load callId requestId "a" 1 operation, .prepare callId, .update callId]

def sampleTransition (callId : ℕ) (requestId : String) (toState : LifecycleState) :
    List EnrollmentLabel :=
  sampleChange callId requestId (.transition ⟨toState, none, none, none⟩)

def sampleValidation (gate : ValidationGate) (checkId : String) (status : ValidationStatus) :
    Operation :=
  .validationRecord ⟨gate, checkId, status, "ok"⟩

def sampleResult (requestId : String) (gate : ValidationGate) (checkId : String)
    (status : ValidationStatus) (observedAt : ℤ) : ValidationResultRow :=
  ⟨⟨"validation-result", 1, [gate.asStr, checkId], requestId⟩, 1, gate, checkId, status, true, "ok",
    observedAt⟩

def sampleQualifying : List EnrollmentLabel :=
  [.enroll 1 "r0" ⟨"t", "c", 5, ["disk"], ["gpu"]⟩] ++ sampleTransition 1 "r1" .commissioning ++
    [.load 2 "r2" "a" 1 (sampleValidation .commissioning "disk" .pass), .prepare 2, .record 2,
      .select 2 [sampleResult "r2" .commissioning "disk" .pass 0], .update 2] ++
    sampleTransition 3 "r3" .readyToConfigure ++ sampleTransition 4 "r4" .configuring ++
    sampleTransition 5 "r5" .qualifying

def samplePass : List EnrollmentLabel :=
  [.load 6 "r6" "a" 1 (sampleValidation .qualification "gpu" .pass), .prepare 6, .record 6,
    .select 6 [sampleResult "r6" .qualification "gpu" .pass 0], .update 6]

def sampleActivation : List EnrollmentLabel :=
  sampleQualifying ++ samplePass ++ sampleTransition 8 "r8" .active

theorem activation_on_evidence_sample :
    ∃ t, enrollmentMachine.exec (.initial 0) sampleActivation = some t ∧
      t.enrollments.rows.map (·.lifecycleState) = [.active] ∧
      enrollmentMachine.Meets (Activating OnEvidence) (.initial 0) sampleActivation := by
  have hrun : (enrollmentMachine.exec (.initial 0) sampleActivation).map
      (fun t => t.enrollments.rows.map (·.lifecycleState)) = some [.active] := by decide +kernel
  obtain ⟨t, ht, hactive⟩ := map_eq_some_iff.1 hrun
  have hfresh : enrollmentMachine.meetsTest freshRequest (.initial 0) sampleActivation := by
    decide +kernel
  have hunopposed : enrollmentMachine.meetsTest unopposed (.initial 0) sampleActivation := by
    decide +kernel
  refine ⟨t, ht, hactive, (activation_on_evidence_iff 0 ht ?_).1 ?_⟩
  · exact enrollmentMachine.meets_of_meetsTest (fun _ _ => freshRequest_of_test) hfresh
  · exact enrollmentMachine.meets_of_meetsTest (fun _ _ => superseded_of_test) hunopposed

/-- A step activates an enrollment whose latest result of a required check is bad. -/
def activatesOnFailure (s : EnrollmentStore) (a : EnrollmentLabel) : Bool :=
  s.enrollments.rows.all (fun old => old.lifecycleState ≠ .active) &&
    (enrollmentMachine.step s a).any fun s' =>
      s'.enrollments.rows.any fun row => row.lifecycleState = .active &&
        row.requiredQualification.any fun check =>
          s'.results.rows.any fun result => row.counts check result && !result.status.good &&
            s'.results.rows.all fun other =>
              !row.counts check other || decide (other.observedAt ≤ result.observedAt)

theorem not_onEvidence_of_test (h : activatesOnFailure s a) : ¬ Activating OnEvidence s a := by
  intro hevidence
  simp only [activatesOnFailure, Bool.and_eq_true, List.all_eq_true, Option.any_eq_true,
    List.any_eq_true, decide_eq_true_eq, Bool.or_eq_true, Bool.not_eq_true'] at h
  obtain ⟨hbefore, s', hs', row, hrow, hactive, check, hcheck, result, hresult, ⟨hcounts, hbad⟩,
    hlast⟩ := h
  have hlatest : Latest s'.results.rows row check result := by
    refine ⟨hresult, hcounts, fun other hother hother' => ?_⟩
    rcases hlast other hother with hnot | hle
    · rw [hother'] at hnot
      cases hnot
    · exact hle
  have hgood := (hevidence s' hs' row ⟨hrow, hactive, fun old hold _ => hbefore old hold⟩).1.good
    check hcheck result hlatest
  rw [hgood] at hbad
  cases hbad

/-- Two calls record results of one check under one revision, and the failing one, which comes
later, is lost. -/
def sampleRace : List EnrollmentLabel :=
  sampleQualifying ++
    [.load 6 "r6" "a" 1 (sampleValidation .qualification "gpu" .pass),
      .load 7 "r7" "a" 1 (sampleValidation .qualification "gpu" .fail), .prepare 6, .record 6,
      .select 6 [sampleResult "r6" .qualification "gpu" .pass 0], .tick 1000, .prepare 7, .record 7,
      .update 6, .select 7 [sampleResult "r7" .qualification "gpu" .fail 1000,
        sampleResult "r6" .qualification "gpu" .pass 0], .update 7,
      .load 8 "r8" "a" 1 (.transition ⟨.active, none, none, none⟩), .prepare 8]

theorem activation_on_failed_check : enrollmentMachine.Meets FreshRequest (.initial 0) sampleRace ∧
      ¬ enrollmentMachine.Meets (Activating OnEvidence) (.initial 0)
        (sampleRace ++ [.update 8]) := by
  have hrun : (enrollmentMachine.exec (.initial 0) sampleRace).any fun s =>
      activatesOnFailure s (.update 8) := by decide +kernel
  obtain ⟨s, hs, htest⟩ := (Option.any_eq_true _ _).1 hrun
  have hfresh : enrollmentMachine.meetsTest freshRequest (.initial 0) sampleRace := by
    decide +kernel
  refine ⟨enrollmentMachine.meets_of_meetsTest (fun _ _ => freshRequest_of_test) hfresh, ?_⟩
  intro hmeets
  exact not_onEvidence_of_test htest (hmeets.of_append enrollmentMachine hs).1

end Gadgetron.Enrollment
