import Gadgetron.Enrollment.Operations

/-!
# One call for each request

Every revision and every result bears the request id of the call that has written it.
-/

namespace Gadgetron.Enrollment

open Lib EnrollmentStore Option

variable {s s' : EnrollmentStore} {a : EnrollmentLabel} {row loaded : EnrollmentRow}
  {call : EnrollmentCall} {stage : CallStage} {requestId actorId : String}

def CallStage.goesBy : CallStage → Option EnrollmentRow
  | .loaded row _ | .observed row _ _ | .recorded row _ _ | .prepared row _ => some row
  | .done => none

/-- The call has yet to write its result, if it writes one. -/
def CallStage.early : CallStage → Bool
  | .loaded .. | .observed .. => true
  | .recorded .. | .prepared .. | .done => false

/-- A call goes on without writing a result or a row. -/
inductive Advance (s : EnrollmentStore) : CallStage → CallStage → Prop
  | stop (stage : CallStage) : Advance s stage .done
  | observe (row : EnrollmentRow) (input : ValidationRecordInput) :
      Advance s (.loaded row (.validationRecord input)) (.observed row input s.now)
  | prepare (row : EnrollmentRow) (operation : Operation) (change : RowChange)
      (ok : s.prepareStage row operation = .ok (.prepared row change)) :
      Advance s (.loaded row operation) (.prepared row change)
  | select (row : EnrollmentRow) (input : ValidationRecordInput) (observedAt : ℤ)
      (rows : List ValidationResultRow)
      (perm : rows.isPerm (s.resultsOf row.enrollmentId input.gate)) (order : descending rows) :
      Advance s (.recorded row input observedAt) (.prepared row
        (.validation input (rows.take selectLimit) (selectLimit < rows.length) observedAt))

inductive Effect (s : EnrollmentStore) : EnrollmentLabel → EnrollmentStore → Prop
  | quiet (a : EnrollmentLabel) (s' : EnrollmentStore)
      (enrollments : s'.enrollments = s.enrollments) (results : s'.results = s.results)
      (calls : s'.calls = s.calls) : Effect s a s'
  | enroll (enrollmentId : Uuid) (requestId : String) (input : EnrollmentPlanInput)
      (enrollments : Table EnrollmentRow.enrollmentId)
      (inserted : s.enrollments.insert (.new enrollmentId requestId s.now input) =
        some enrollments) :
      Effect s (.enroll enrollmentId requestId input) { s with enrollments }
  | load (callId : ℕ) (requestId actorId : String) (row : EnrollmentRow) (operation : Operation)
      (calls : Table EnrollmentCall.id) (rowMem : row ∈ s.enrollments)
      (inserted : s.calls.insert ⟨callId, requestId, actorId, .loaded row operation⟩ = some calls) :
      Effect s (.load callId requestId actorId row.enrollmentId operation) { s with calls }
  | advance (a : EnrollmentLabel) (call : EnrollmentCall) (stage : CallStage)
      (mem : call ∈ s.calls) (advance : Advance s call.stage stage) : Effect s a (s.goOn call stage)
  | record (call : EnrollmentCall) (row : EnrollmentRow) (input : ValidationRecordInput)
      (observedAt : ℤ) (mem : call ∈ s.calls)
        (stage : call.stage = .observed row input observedAt) :
      Effect s (.record call.id)
        ((s.upsertResult (resultRow call.requestId row input observedAt)).goOn call
          (.recorded row input observedAt))
  | update (call : EnrollmentCall) (loaded : EnrollmentRow) (change : RowChange)
      (row : EnrollmentRow) (outcomes : Table OutcomeRow.id) (mem : call ∈ s.calls)
      (stage : call.stage = .prepared loaded change) (rowMem : row ∈ s.enrollments)
      (id : row.enrollmentId = loaded.enrollmentId) (revision : row.revision = loaded.revision)
      (updated : updateOutcomes s.world s.results.rows s.outcomes (change.fires loaded) row
        (change.set call.requestId call.actorId loaded row) = some outcomes) :
      Effect s (.update call.id) { s.goOn call .done with
        enrollments := s.enrollments.put (change.set call.requestId call.actorId loaded row)
        outcomes }

theorem advance_prepareStage {operation : Operation}
    (h : s.prepareStage row operation = .ok stage) : Advance s (.loaded row operation) stage := by
  cases operation with
  | transition input =>
    by_cases hstate : row.lifecycleState = input.toState
    · rw [prepareStage, if_pos hstate] at h
      cases h
      exact .stop _
    · have hok := h
      rw [prepareStage, if_neg hstate] at h
      obtain ⟨change, -, rfl⟩ := map_eq_ok.1 h
      exact .prepare row _ change hok
  | planRecord | rolloutApply =>
    have hok := h
    obtain ⟨change, -, rfl⟩ := map_eq_ok.1 h
    exact .prepare row _ change hok
  | setupRecord input =>
    have hok := h
    obtain ⟨change, -, rfl⟩ := map_eq_ok.1 h
    cases change with
    | none => exact .stop _
    | some change => exact .prepare row _ change hok
  | reconcilePosture observedHealth =>
    by_cases hretired : row.lifecycleState = .retired
    · rw [prepareStage, if_pos hretired] at h
      cases h
      exact .stop _
    · have hok := h
      rw [prepareStage, if_neg hretired] at h
      obtain ⟨change, -, rfl⟩ := map_eq_ok.1 h
      cases change with
      | none => exact .stop _
      | some change => exact .prepare row _ change hok
  | validationRecord input =>
    obtain ⟨_, -, rfl⟩ := map_eq_ok.1 h
    exact .observe row input

theorem effect_update (hmem : call ∈ s.calls) (h : s.update call = some s') :
    Effect s (.update call.id) s' := by
  unfold EnrollmentStore.update at h
  split at h
  · rename_i loaded change hstage
    split at h
    · cases h
      exact .advance _ call .done hmem (.stop _)
    · rename_i row hrow
      obtain ⟨hget, hrevision⟩ := filter_eq_some_iff.1 hrow
      obtain ⟨hrowMem, hid⟩ := Table.get_eq_some.1 hget
      dsimp only at h
      split at h
      · cases h
        exact .advance _ call .done hmem (.stop _)
      · rename_i outcomes hupdated
        cases h
        exact .update call loaded change row outcomes hmem hstage hrowMem hid
          (of_decide_eq_true hrevision) hupdated
  · cases h

theorem step_effect (h : enrollmentMachine.step s a = some s') : Effect s a s' := by
  cases a with
  | enroll enrollmentId requestId input =>
    change s.enroll enrollmentId requestId input = some s' at h
    unfold EnrollmentStore.enroll at h
    split_ifs at h
    obtain ⟨enrollments, hinsert, rfl⟩ := map_eq_some_iff.1 h
    exact .enroll enrollmentId requestId input enrollments hinsert
  | load callId requestId actorId enrollmentId operation =>
    change s.load callId requestId actorId enrollmentId operation = some s' at h
    unfold load at h
    split at h
    · rename_i row _ hget
      obtain ⟨calls, hinsert, rfl⟩ := map_eq_some_iff.1 h
      obtain ⟨hmem, rfl⟩ := Table.get_eq_some.1 hget
      exact .load callId requestId actorId row operation calls hmem hinsert
    · cases h
      exact .quiet _ _ rfl rfl rfl
  | prepare callId =>
    obtain ⟨call, hget, hcall⟩ := bind_eq_some_iff.1 h
    have hmem := Table.mem_of_get hget
    unfold prepare at hcall
    split at hcall
    · rename_i row operation hstage
      split at hcall
      · cases hcall
        exact .advance _ call .done hmem (.stop _)
      · rename_i stage hok
        cases hcall
        exact .advance _ call stage hmem (hstage ▸ advance_prepareStage hok)
    · cases hcall
  | record callId =>
    obtain ⟨call, hmem, rfl, hcall⟩ := Table.bind_get_eq_some.1 h
    unfold record at hcall
    split at hcall
    · rename_i row input observedAt hstage
      cases hcall
      exact .record call row input observedAt hmem hstage
    · cases hcall
  | select callId rows =>
    obtain ⟨call, hget, hcall⟩ := bind_eq_some_iff.1 h
    unfold select at hcall
    split at hcall
    · rename_i row input observedAt hstage
      split_ifs at hcall with hrows
      cases hcall
      rw [Bool.and_eq_true] at hrows
      exact .advance _ call _ (Table.mem_of_get hget)
        (hstage ▸ .select row input observedAt rows hrows.1 hrows.2)
    · cases hcall
  | update callId =>
    obtain ⟨call, hmem, rfl, hcall⟩ := Table.bind_get_eq_some.1 h
    exact effect_update hmem hcall
  | stop callId =>
    obtain ⟨call, hget, rfl⟩ := map_eq_some_iff.1 h
    exact .advance _ call .done (Table.mem_of_get hget) (.stop _)
  | observe | tick =>
    cases h
    exact .quiet _ _ rfl rfl rfl

theorem Advance.eq_done (h : Advance s .done stage) : stage = .done := by
  cases h
  rfl

variable {stage' : CallStage}

theorem Advance.goesBy (h : Advance s stage stage')
    (hrow : stage'.goesBy = some row) : stage.goesBy = some row := by
  cases h with
  | stop => cases hrow
  | observe | prepare | select => exact hrow

theorem Advance.early (h : Advance s stage stage') (hearly : stage'.early) : stage.early := by
  cases h with
  | stop | select => cases hearly
  | observe | prepare => rfl

theorem mem_calls_goOn (hmem : call ∈ s.calls) {x : EnrollmentCall} :
    x ∈ (s.goOn call stage).calls ↔ x = { call with stage } ∨ x ∈ s.calls ∧ x.id ≠ call.id :=
  Table.mem_put hmem (r := { call with stage }) rfl

/-! ## Request ids -/

/-- A call comes with a request id that no other call has. -/
def FreshRequest (s : EnrollmentStore) (a : EnrollmentLabel) : Prop :=
  ∀ callId requestId actorId enrollmentId operation,
    a = .load callId requestId actorId enrollmentId operation →
      ∀ call ∈ s.calls, call.requestId ≠ requestId

/-- A revision of before: that of a new enrollment, or one by a call that is done. -/
def Past (s : EnrollmentStore) (revision : StableRevision) : Prop :=
  revision.kind = "enrollment-state" ∨
    ∃ call ∈ s.calls, call.stage = .done ∧ call.requestId = revision.requestId

/-- A row that is as it was loaded or has another revision now. -/
structure LoadedSound (s : EnrollmentStore) (loaded : EnrollmentRow) : Prop where
  past : Past s loaded.revision
  current : ∃ row ∈ s.enrollments, row.enrollmentId = loaded.enrollmentId ∧
    (row.revision = loaded.revision → row = loaded)

structure Numbered (s : EnrollmentStore) : Prop where
  calls : ∀ call ∈ s.calls, ∀ other ∈ s.calls, call.requestId = other.requestId → call = other
  rows : ∀ row ∈ s.enrollments, Past s row.revision
  loaded : ∀ call ∈ s.calls, ∀ loaded, call.stage.goesBy = some loaded → LoadedSound s loaded
  results : ∀ result ∈ s.results, ∃ call ∈ s.calls,
    call.requestId = result.resultId.requestId ∧ call.stage.early = false

theorem numbered_initial (now : ℤ) : Numbered (.initial now) where
  calls _ h := (Table.not_mem_empty _ h).elim
  rows _ h := (Table.not_mem_empty _ h).elim
  loaded _ h := (Table.not_mem_empty _ h).elim
  results _ h := (Table.not_mem_empty _ h).elim

theorem Past.of_calls {revision : StableRevision} (h : Past s revision)
    (hcalls : ∀ call ∈ s.calls, call.stage = .done → call ∈ s'.calls) : Past s' revision := by
  rcases h with hkind | ⟨call, hcall, hdone, hid⟩
  · exact .inl hkind
  · exact .inr ⟨call, hcalls call hcall hdone, hdone, hid⟩

theorem done_goOn (hmem : call ∈ s.calls) (hdone : call.stage = .done → stage = .done)
    {x : EnrollmentCall} (hx : x ∈ s.calls) (hxdone : x.stage = .done) :
    x ∈ (s.goOn call stage).calls := by
  refine (mem_calls_goOn hmem).2 ?_
  by_cases hid : x.id = call.id
  · obtain rfl := Table.eq_of_key hx hmem hid
    have hstage := hdone hxdone
    refine .inl ?_
    rw [hstage, ← hxdone]
  · exact .inr ⟨hx, hid⟩

theorem Numbered.goOn (h : Numbered s) (hmem : call ∈ s.calls)
    (hgoes : ∀ row, stage.goesBy = some row → call.stage.goesBy = some row)
    (hdone : call.stage = .done → stage = .done) (hearly : stage.early → call.stage.early) :
    Numbered (s.goOn call stage) := by
  have hpast : ∀ {revision}, Past s revision → Past (s.goOn call stage) revision := fun hp =>
    hp.of_calls fun x hx hxdone => done_goOn hmem hdone hx hxdone
  constructor
  · intro x hx y hy hid
    rcases (mem_calls_goOn hmem).1 hx with rfl | ⟨hx, hxid⟩
    · rcases (mem_calls_goOn hmem).1 hy with rfl | ⟨hy, hyid⟩
      · rfl
      · exact absurd (congrArg EnrollmentCall.id (h.calls call hmem y hy hid)).symm hyid
    · rcases (mem_calls_goOn hmem).1 hy with rfl | ⟨hy, hyid⟩
      · exact absurd (congrArg EnrollmentCall.id (h.calls x hx call hmem hid)) hxid
      · exact h.calls x hx y hy hid
  · exact fun row hrow => hpast (h.rows row hrow)
  · intro x hx loaded hloaded
    obtain ⟨past, current⟩ : LoadedSound s loaded := by
      rcases (mem_calls_goOn hmem).1 hx with rfl | ⟨hx, -⟩
      · exact h.loaded call hmem loaded (hgoes loaded hloaded)
      · exact h.loaded x hx loaded hloaded
    exact ⟨hpast past, current⟩
  · intro result hresult
    obtain ⟨x, hx, hid, hlate⟩ := h.results result hresult
    by_cases hcall : x.id = call.id
    · obtain rfl := Table.eq_of_key hx hmem hcall
      refine ⟨_, (mem_calls_goOn hmem).2 (.inl rfl), hid, ?_⟩
      exact Bool.eq_false_iff.2 fun hstage => Bool.eq_false_iff.1 hlate (hearly hstage)
    · exact ⟨x, (mem_calls_goOn hmem).2 (.inr ⟨hx, hcall⟩), hid, hlate⟩

theorem enrollments_upsertResult (result : ValidationResultRow) :
    (s.upsertResult result).enrollments = s.enrollments := by
  unfold upsertResult
  split <;> rfl

theorem calls_upsertResult (result : ValidationResultRow) :
    (s.upsertResult result).calls = s.calls := by
  unfold upsertResult
  split <;> rfl

theorem results_upsertResult {result x : ValidationResultRow}
    (hx : x ∈ (s.upsertResult result).results) : x ∈ s.results ∨ x = result := by
  unfold upsertResult at hx
  split at hx
  · rename_i results hinsert
    exact (Table.mem_insert hinsert).1 hx
  · exact (Table.of_mem_put hx).symm

theorem Numbered.upsertResult (h : Numbered s) {result : ValidationResultRow}
    (hcall : ∃ call ∈ s.calls, call.requestId = result.resultId.requestId ∧
      call.stage.early = false) : Numbered (s.upsertResult result) := by
  have hcalls := calls_upsertResult (s := s) result
  have henrollments := enrollments_upsertResult (s := s) result
  have hpast : ∀ {revision}, Past s revision → Past (s.upsertResult result) revision := fun hp =>
    hp.of_calls fun x hx _ => hcalls ▸ hx
  refine ⟨hcalls ▸ h.calls, ?_, ?_, fun x hx => ?_⟩
  · exact fun row hrow => hpast (h.rows row (henrollments ▸ hrow))
  · intro x hx loaded hloaded
    obtain ⟨past, current⟩ := h.loaded x (hcalls ▸ hx) loaded hloaded
    exact ⟨hpast past, henrollments.symm ▸ current⟩
  · rw [hcalls]
    rcases results_upsertResult hx with hold | rfl
    · exact h.results x hold
    · exact hcall

theorem Numbered.put (h : Numbered s) {new : EnrollmentRow} (hmem : row ∈ s.enrollments)
    (hid : row.enrollmentId = new.enrollmentId) (hpast : Past s new.revision)
    (hnew : ∀ call ∈ s.calls, ∀ loaded, call.stage.goesBy = some loaded →
      new.revision ≠ loaded.revision) (outcomes : Table OutcomeRow.id) :
    Numbered { s with enrollments := s.enrollments.put new, outcomes } := by
  refine ⟨h.calls, fun x hx => ?_, fun call hcall loaded hloaded => ?_, h.results⟩
  · rcases (Table.mem_put hmem hid).1 hx with rfl | ⟨hold, -⟩
    · exact hpast
    · exact h.rows x hold
  · obtain ⟨past, x, hx, hxid, hsame⟩ := h.loaded call hcall loaded hloaded
    by_cases hrow : x.enrollmentId = new.enrollmentId
    · exact ⟨past, new, (Table.mem_put hmem hid).2 (.inl rfl), hrow.symm.trans hxid,
        fun hrevision => absurd hrevision (hnew call hcall loaded hloaded)⟩
    · exact ⟨past, x, (Table.mem_put hmem hid).2 (.inr ⟨hx, hrow⟩), hxid, hsame⟩

theorem requestId_set (change : RowChange) :
    (change.set requestId actorId loaded row).revision.requestId = requestId ∧
      (change.set requestId actorId loaded row).revision.kind ≠ "enrollment-state" := by
  cases change with
  | transition input targetRevision recoveryObservation updatedAt =>
    unfold RowChange.set setTransition
    dsimp only
    split <;> exact ⟨rfl, by simp⟩
  | planRecord | setupRecord | posture => exact ⟨rfl, by simp [RowChange.set]⟩
  | rolloutApply desired updatedAt => exact ⟨rfl, by simp [RowChange.set, setRollout]⟩
  | validation input rows truncated observedAt =>
    have hgate : ∀ r : EnrollmentRow,
        (setGate loaded input.gate rows truncated r).revision = r.revision := by
      intro r
      unfold setGate
      dsimp only
      split_ifs
      · rfl
      · cases input.gate <;> rfl
    unfold RowChange.set setValidation
    dsimp only
    split_ifs
    iterate 2 · exact ⟨congrArg (·.requestId) (hgate _), by simp [hgate]⟩

theorem enrollmentId_set (change : RowChange) :
    (change.set requestId actorId loaded row).enrollmentId = row.enrollmentId := by
  cases change with
  | transition input targetRevision recoveryObservation updatedAt =>
    unfold RowChange.set setTransition
    dsimp only
    split <;> rfl
  | planRecord | setupRecord | rolloutApply | posture => rfl
  | validation input rows truncated observedAt =>
    have hgate : ∀ r : EnrollmentRow,
        (setGate loaded input.gate rows truncated r).enrollmentId = r.enrollmentId := by
      intro r
      unfold setGate
      dsimp only
      split_ifs
      · rfl
      · cases input.gate <;> rfl
    unfold RowChange.set setValidation
    dsimp only
    split_ifs
    · exact hgate _
    · exact hgate _

theorem goOn_upsertResult (result : ValidationResultRow) :
    (s.upsertResult result).goOn call stage = (s.goOn call stage).upsertResult result := by
  unfold upsertResult EnrollmentStore.goOn
  dsimp only
  split <;> rfl

theorem Numbered.step (h : Numbered s) (hfresh : FreshRequest s a) (heffect : Effect s a s') :
    Numbered s' := by
  cases heffect with
  | quiet _ _ enrollments results calls =>
    have hpast : ∀ {revision}, Past s revision → Past s' revision := fun hp =>
      hp.of_calls fun x hx _ => calls ▸ hx
    refine ⟨calls ▸ h.calls, fun row hrow => hpast (h.rows row (enrollments ▸ hrow)),
      fun x hx loaded hloaded => ?_, fun result hresult => ?_⟩
    · obtain ⟨past, current⟩ := h.loaded x (calls ▸ hx) loaded hloaded
      exact ⟨hpast past, enrollments.symm ▸ current⟩
    · rw [calls]
      exact h.results result (results ▸ hresult)
  | enroll enrollmentId requestId input enrollments inserted =>
    refine ⟨h.calls, fun row hrow => ?_, fun x hx loaded hloaded => ?_, h.results⟩
    · rcases (Table.mem_insert inserted).1 hrow with hold | rfl
      · exact h.rows row hold
      · exact .inl rfl
    · obtain ⟨past, row, hrow, hid, hsame⟩ := h.loaded x hx loaded hloaded
      exact ⟨past, row, (Table.mem_insert inserted).2 (.inl hrow), hid, hsame⟩
  | load callId requestId actorId row operation calls rowMem inserted =>
    have hnew := hfresh callId requestId actorId row.enrollmentId operation rfl
    have hpast : ∀ {revision}, Past s revision → Past { s with calls } revision :=
      fun hp => hp.of_calls fun x hx _ => (Table.mem_insert inserted).2 (.inl hx)
    refine ⟨fun x hx y hy hid => ?_, fun row hrow => hpast (h.rows row hrow),
      fun x hx loaded hloaded => ?_, fun result hresult => ?_⟩
    · rcases (Table.mem_insert inserted).1 hx with hx | rfl
      · rcases (Table.mem_insert inserted).1 hy with hy | rfl
        · exact h.calls x hx y hy hid
        · exact absurd hid (hnew x hx)
      · rcases (Table.mem_insert inserted).1 hy with hy | rfl
        · exact absurd hid.symm (hnew y hy)
        · rfl
    · rcases (Table.mem_insert inserted).1 hx with hx | rfl
      · obtain ⟨past, current⟩ := h.loaded x hx loaded hloaded
        exact ⟨hpast past, current⟩
      · obtain rfl := some.inj hloaded
        exact ⟨hpast (h.rows row rowMem), row, rowMem, rfl, fun _ => rfl⟩
    · obtain ⟨x, hx, hid, hlate⟩ := h.results result hresult
      exact ⟨x, (Table.mem_insert inserted).2 (.inl hx), hid, hlate⟩
  | advance _ call stage mem advance =>
    exact h.goOn mem (fun _ => advance.goesBy) (fun hdone => (hdone ▸ advance).eq_done)
      advance.early
  | record call row input observedAt mem stage =>
    rw [goOn_upsertResult]
    refine (h.goOn mem ?_ ?_ ?_).upsertResult ⟨_, (mem_calls_goOn mem).2 (.inl rfl), rfl, rfl⟩
    · rw [stage]
      exact fun _ hrow => hrow
    · rw [stage]
      rintro ⟨⟩
    · rintro ⟨⟩
  | update call loaded change row outcomes mem stage rowMem id revision updated =>
    have hgoOn : Numbered (s.goOn call .done) := by
      refine h.goOn mem ?_ (fun _ => rfl) ?_
      · rintro _ ⟨⟩
      · rintro ⟨⟩
    have hpast : Past (s.goOn call .done)
        (change.set call.requestId call.actorId loaded row).revision :=
      .inr ⟨_, (mem_calls_goOn mem).2 (.inl rfl), rfl, (requestId_set change).1.symm⟩
    refine @Numbered.put _ row hgoOn _ rowMem (enrollmentId_set change).symm hpast ?_ outcomes
    intro x hx other hother heq
    -- What `x` goes by has been written before, and so under another request id.
    have hx' : x ∈ s.calls := by
      rcases (mem_calls_goOn mem).1 hx with rfl | ⟨hx, -⟩
      · cases hother
      · exact hx
    rcases (h.loaded x hx' other hother).past with hkind | ⟨y, hy, hdone, hid⟩
    · exact (requestId_set change).2 (heq ▸ hkind)
    · have hrequest : y.requestId = call.requestId := by
        rw [hid, ← heq]
        exact (requestId_set change).1
      obtain rfl := h.calls y hy call mem hrequest
      rw [stage] at hdone
      cases hdone

theorem Numbered.eq_loaded (h : Numbered s) (hcall : call ∈ s.calls)
    (hloaded : call.stage.goesBy = some loaded) (hrow : row ∈ s.enrollments)
    (hid : row.enrollmentId = loaded.enrollmentId) (hrevision : row.revision = loaded.revision) :
    row = loaded := by
  obtain ⟨-, x, hx, hxid, hsame⟩ := h.loaded call hcall loaded hloaded
  obtain rfl := Table.eq_of_key hx hrow (hxid.trans hid.symm)
  exact hsame hrevision

variable {x : ValidationResultRow}

theorem Numbered.mem_upsertResult (h : Numbered s) (hcall : call ∈ s.calls)
    (hearly : call.stage.early) {input : ValidationRecordInput} {observedAt : ℤ}
    (hx : x ∈ s.results) :
    x ∈ (s.upsertResult (resultRow call.requestId row input observedAt)).results := by
  unfold EnrollmentStore.upsertResult
  split
  · rename_i results hinsert
    exact (Table.mem_insert hinsert).2 (.inl hx)
  · refine Table.mem_put_of_ne hx fun hid => ?_
    obtain ⟨y, hy, hrequest, hlate⟩ := h.results x hx
    rw [hid] at hrequest
    obtain rfl := h.calls y hy call hcall hrequest
    rw [hearly] at hlate
    cases hlate

theorem Numbered.mem_results (h : Numbered s) (heffect : Effect s a s')
    (hx : x ∈ s.results) : x ∈ s'.results := by
  cases heffect with
  | quiet _ _ enrollments results calls => exact results.symm ▸ hx
  | enroll | load | advance | update => exact hx
  | record call row input observedAt mem stage =>
    exact h.mem_upsertResult mem (by rw [stage]; rfl) hx

end Gadgetron.Enrollment
