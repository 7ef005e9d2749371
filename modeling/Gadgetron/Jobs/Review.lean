import Gadgetron.Jobs.ChangeSet

/-!
# Review of change sets

What is materialized is what was accepted, a decision is final once it is carried out or the change
set is rejected, and of the calls with one expected revision one succeeds at most.
-/

namespace Gadgetron.Jobs

open Lib ChangeSetStore List Option

variable {parse : String → Option Uuid} {isAlphanumeric : Char → Bool} {s s' : ChangeSetStore}
  {a : ChangeSetLabel} {call : ChangeSetCall} {row row' : KnowledgeChangeSetRow}

/-- The step writes the call to the row. -/
def Writes (s : ChangeSetStore) (a : ChangeSetLabel) (call : ChangeSetCall)
    (row : KnowledgeChangeSetRow) : Prop :=
  ∃ index, a = .write index ∧ s.pending[index]? = some call ∧ s.target call = some row

/-- The step edits a change set whose materialization has failed. -/
def EditsFailed (s : ChangeSetStore) (a : ChangeSetLabel) : Prop :=
  ∃ call row, Writes s a call row ∧ (∃ input, call.action = .edit input) ∧
    row.status = .failedRetryable

def SameChangeSets (s s' : ChangeSetStore) : Prop :=
  s'.changeSets = s.changeSets ∧ s'.accepted = s.accepted ∧ s'.written = s.written

/-- A step leaves the change sets alone, inserts one or writes to one. -/
inductive ChangeSetEffect (s : ChangeSetStore) (a : ChangeSetLabel) (s' : ChangeSetStore) : Prop
  | unchanged (same : SameChangeSets s s') (idle : ¬ EditsFailed s a)
  | insert (input : NewChangeSet)
      (inserted : s.changeSets.insert (.new input) = some s'.changeSets)
      (accepted : s'.accepted = s.accepted) (written : s'.written = s.written)
      (idle : ¬ EditsFailed s a)
  | write (call : ChangeSetCall) (row : KnowledgeChangeSetRow) (writes : Writes s a call row)
      (same : SameChangeSets (s.writeRow call row) s')

theorem target_eq_some : s.target call = some row ↔
    row ∈ s.changeSets ∧ row.id = call.changeSetId ∧ row.tenantId = call.actor.tenantId ∧
      row.revision = call.expectedRevision ∧ row.status ∈ call.action.allowed := by
  rw [target, filter_eq_some_iff, Table.get_eq_some]
  simp only [Bool.and_eq_true, decide_eq_true_eq, contains_iff_mem, and_assoc]

theorem write_ok {result : ChangeSetStore × KnowledgeChangeSetRow}
    (h : s.write call = .ok result) : ∃ row objects, s.target call = some row ∧
      call.action.objects.foldlM (writeObject call.actor.tenantId row.outputVaultId) s.objects =
        .ok objects ∧ result = ({ s.writeRow call row with objects },
        call.action.apply s.now call.actor.userId row) := by
  unfold write at h
  split at h
  · cases h
  · rename_i current hcurrent
    obtain ⟨objects, hobjects, hrow⟩ := bind_eq_ok.1 h
    split at hrow
    · cases hrow
    · rename_i row htarget
      obtain ⟨hmem, hid, -⟩ := target_eq_some.1 htarget
      obtain rfl := mem_unique hcurrent (Table.get_eq_some.2 ⟨hmem, hid⟩)
      exact ⟨current, objects, htarget, hobjects, (Except.ok.inj hrow).symm⟩

theorem write_of_target (hobjects : call.action.objects = []) (htarget : s.target call = some row) :
    s.write call = .ok (s.writeRow call row, call.action.apply s.now call.actor.userId row) := by
  obtain ⟨hmem, hid, -⟩ := target_eq_some.1 htarget
  have hget : s.changeSets.get call.changeSetId = some row := Table.get_eq_some.2 ⟨hmem, hid⟩
  simp only [write, hget, hobjects, foldlM_nil, htarget]
  rfl

theorem changeSet_effect (h : (changeSetMachine parse isAlphanumeric).step s a = some s') :
    ChangeSetEffect s a s' := by
  have hsame : ∀ t : ChangeSetStore, SameChangeSets s t → (∀ index, a ≠ .write index) →
      ChangeSetEffect s a t := by
    intro t ht ha
    refine .unchanged ht ?_
    rintro ⟨call, row, ⟨index, rfl, -⟩, -⟩
    exact ha index rfl
  cases a with
  | access | tick | job | objects =>
    cases h
    exact hsame _ ⟨rfl, rfl, rfl⟩ (by simp)
  | create input =>
    cases h
    cases hcreate : s.create input with
    | none => exact hsame _ ⟨rfl, rfl, rfl⟩ (by simp)
    | some t =>
      unfold create at hcreate
      split_ifs at hcreate with htaken
      obtain ⟨changeSets, hinsert, rfl⟩ := map_eq_some_iff.1 hcreate
      refine .insert input hinsert rfl rfl ?_
      rintro ⟨call, row, ⟨index, hindex, -⟩, -⟩
      cases hindex
  | call call =>
    simp only at h
    split at h <;> cases h <;> exact hsame _ ⟨rfl, rfl, rfl⟩ (by simp)
  | write index =>
    obtain ⟨call, hcall, rfl⟩ := map_eq_some_iff.1 h
    cases hwrite : ({ s with pending := s.pending.eraseIdx index } : ChangeSetStore).write call with
    | ok result =>
      obtain ⟨row, objects, htarget, -, rfl⟩ := write_ok hwrite
      refine .write call row ⟨index, rfl, hcall, htarget⟩ ?_
      simp only [writeNext, hwrite]
      exact ⟨rfl, rfl, rfl⟩
    | error e =>
      refine .unchanged ?_ ?_
      · simp only [writeNext, hwrite]
        exact ⟨rfl, rfl, rfl⟩
      · rintro ⟨call', row, ⟨index', hindex, hcall', htarget⟩, ⟨input, hedit⟩, -⟩
        cases hindex
        obtain rfl := mem_unique hcall hcall'
        have hresult := write_of_target
          (s := { s with pending := s.pending.eraseIdx index }) (by rw [hedit]; rfl) htarget
        rw [hwrite] at hresult
        cases hresult

/-! ## What a statement makes of a row -/

/-- Content that is, or may still be, materialized. -/
def Decided (row : KnowledgeChangeSetRow) : Prop :=
  row.status = .accepted ∨ row.status = .materializing ∨ row.status = .failedRetryable ∨
    row.status = .applied

def lastAcceptance (s : ChangeSetStore) (changeSetId : Uuid) : Option Acceptance :=
  s.accepted.find? fun acceptance => acceptance.changeSetId = changeSetId

/-- The change set is as it was accepted, and names the user who did. -/
def AsAccepted (acceptance : Acceptance) (row : KnowledgeChangeSetRow) : Prop :=
  row.title = acceptance.title ∧ row.operations = acceptance.operations ∧
    row.citations = acceptance.citations ∧ row.decidedByUserId = some acceptance.userId

/-- Nothing of a decision is on record. -/
def Undecided (row : KnowledgeChangeSetRow) : Prop :=
  row.decidedByUserId = none ∧ row.decisionRationale = none ∧ row.decidedAt = none

theorem apply_id (action : ChangeSetAction) (now : ℤ) (userId : Uuid) :
    (action.apply now userId row).id = row.id := by
  cases action <;> rfl

theorem apply_revision (action : ChangeSetAction) (now : ℤ) (userId : Uuid) :
    (action.apply now userId row).revision = row.revision + 1 := by
  cases action <;> rfl

theorem decided_apply {now : ℤ} {userId : Uuid} (hallowed : row.status ∈ call.action.allowed)
    (h : Decided (call.action.apply now userId row)) :
    (∃ rationale, call.action = .decide .accept rationale) ∨
      Decided row ∧ acceptance call row = [] ∧ ∀ acceptance, AsAccepted acceptance row →
        AsAccepted acceptance (call.action.apply now userId row) := by
  unfold acceptance
  cases haction : call.action with
  | edit input =>
    rw [haction] at h
    simp [Decided, ChangeSetAction.apply, KnowledgeChangeSetRow.edit] at h
  | decide decision rationale =>
    rw [haction] at h
    cases decision with
    | accept => exact .inl ⟨rationale, rfl⟩
    | reject =>
      simp [Decided, ChangeSetAction.apply, KnowledgeChangeSetRow.decide,
        ChangeSetDecision.status] at h
  | returnMaterializationToReview operations revision detail =>
    rw [haction] at h
    simp [Decided, ChangeSetAction.apply, KnowledgeChangeSetRow.returnMaterializationToReview] at h
  | _ =>
    rw [haction] at hallowed
    refine .inr ⟨?_, rfl, fun _ hrow => hrow⟩
    simp only [ChangeSetAction.allowed, mem_cons, not_mem_nil, or_false] at hallowed
    unfold Decided
    tauto

theorem undecided_apply {now : ℤ} {userId : Uuid} (hallowed : row.status ∈ call.action.allowed)
    (hundecided : row.status = .pendingUserReview → Undecided row)
    (hpending : (call.action.apply now userId row).status = .pendingUserReview)
    (hedit : ¬ ((∃ input, call.action = .edit input) ∧ row.status = .failedRetryable)) :
    Undecided (call.action.apply now userId row) := by
  cases haction : call.action with
  | edit input =>
    rw [haction] at hallowed
    simp only [ChangeSetAction.allowed, mem_cons, not_mem_nil, or_false] at hallowed
    rcases hallowed with hstatus | hstatus
    · exact hundecided hstatus
    · exact absurd ⟨⟨input, haction⟩, hstatus⟩ hedit
  | returnMaterializationToReview operations revision detail => exact ⟨rfl, rfl, rfl⟩
  | decide decision rationale =>
    rw [haction] at hpending
    cases decision <;> cases hpending
  | refreshMaterializationRetry revision =>
    rw [haction] at hallowed hpending
    simp only [ChangeSetAction.allowed, mem_singleton] at hallowed
    cases hallowed.symm.trans hpending
  | _ =>
    rw [haction] at hpending
    cases hpending

/-! ## The invariant -/

structure ReviewSound (s : ChangeSetStore) : Prop where
  reviewed : ∀ row ∈ s.changeSets, Decided row →
    ∃ acceptance, lastAcceptance s row.id = some acceptance ∧ AsAccepted acceptance row
  once : s.written.Nodup
  spent : ∀ w ∈ s.written, ∃ row ∈ s.changeSets, row.id = w.1 ∧ w.2 < row.revision

def NoOldDecision (s : ChangeSetStore) : Prop :=
  ∀ row ∈ s.changeSets, row.status = .pendingUserReview → Undecided row

theorem ReviewSound.congr (h : ReviewSound s) (hsame : SameChangeSets s s') : ReviewSound s' := by
  obtain ⟨hrows, haccepted, hwritten⟩ := hsame
  constructor
  · unfold lastAcceptance
    rw [hrows, haccepted]
    exact h.reviewed
  · rw [hwritten]
    exact h.once
  · rw [hrows, hwritten]
    exact h.spent

theorem ReviewSound.insert (h : ReviewSound s) {input : NewChangeSet}
    (hinserted : s.changeSets.insert (.new input) = some s'.changeSets)
    (haccepted : s'.accepted = s.accepted) (hwritten : s'.written = s.written) :
    ReviewSound s' := by
  have hinsert := fun x => Table.mem_insert hinserted (x := x)
  constructor
  · intro row hrow hdecided
    unfold lastAcceptance
    rw [haccepted]
    rcases (hinsert row).1 hrow with hmem | rfl
    · exact h.reviewed row hmem hdecided
    · simp [Decided, KnowledgeChangeSetRow.new] at hdecided
  · rw [hwritten]
    exact h.once
  · rw [hwritten]
    intro w hw
    obtain ⟨row, hrow, hspent⟩ := h.spent w hw
    exact ⟨row, (hinsert row).2 (.inl hrow), hspent⟩

theorem lastAcceptance_writeRow_of_ne {changeSetId : Uuid} (hne : changeSetId ≠ row.id) :
    lastAcceptance (s.writeRow call row) changeSetId = lastAcceptance s changeSetId := by
  have hnone : (acceptance call row).find?
      (fun acceptance => acceptance.changeSetId = changeSetId) = none := by
    unfold acceptance
    split
    · simp [hne.symm]
    · rfl
  simp only [lastAcceptance, writeRow, find?_append, hnone, none_or]

theorem ReviewSound.writeRow (h : ReviewSound s) (htarget : s.target call = some row) :
    ReviewSound (s.writeRow call row) := by
  obtain ⟨hrow, -, -, hrevision, hallowed⟩ := target_eq_some.1 htarget
  have hput := fun x => Table.mem_put hrow (apply_id call.action s.now call.actor.userId).symm
    (x := x)
  have hrowId : (call.action.apply s.now call.actor.userId row).id = row.id := apply_id _ _ _
  constructor
  · intro x hx hdecided
    rcases (hput x).1 hx with rfl | ⟨hmem, hne⟩
    · rw [hrowId]
      rcases decided_apply hallowed hdecided with ⟨rationale, haction⟩ | ⟨hbefore, hnone, hkeep⟩
      · refine ⟨⟨row.id, call.actor.userId, row.title, row.operations, row.citations⟩, ?_, ?_⟩
        · simp [lastAcceptance, ChangeSetStore.writeRow, acceptance, haction]
        · rw [haction]
          exact ⟨rfl, rfl, rfl, rfl⟩
      · obtain ⟨last, hlast, haccepted⟩ := h.reviewed row hrow hbefore
        refine ⟨last, ?_, hkeep last haccepted⟩
        simpa [lastAcceptance, ChangeSetStore.writeRow, hnone] using hlast
    · rw [lastAcceptance_writeRow_of_ne fun hid => hne (hid.trans hrowId.symm)]
      exact h.reviewed x hmem hdecided
  · -- What was written before has left its revision behind.
    refine nodup_cons.2 ⟨fun hmem => ?_, h.once⟩
    obtain ⟨x, hx, hxid, hlt⟩ := h.spent _ hmem
    obtain rfl := Table.eq_of_key hx hrow hxid
    simp only at hlt
    omega
  · intro w hw
    have hnew : call.action.apply s.now call.actor.userId row ∈ (s.writeRow call row).changeSets :=
      (hput _).2 (.inl rfl)
    have hnext : (call.action.apply s.now call.actor.userId row).revision = row.revision + 1 :=
      apply_revision _ _ _
    rcases mem_cons.1 hw with rfl | hw
    · refine ⟨_, hnew, hrowId, ?_⟩
      simp only
      omega
    · obtain ⟨x, hx, hxid, hlt⟩ := h.spent w hw
      by_cases hsame : x.id = row.id
      · obtain rfl := Table.eq_of_key hx hrow hsame
        exact ⟨_, hnew, hrowId.trans hxid, by omega⟩
      · exact ⟨x, (hput x).2 (.inr ⟨hx, fun hid => hsame (hid.trans hrowId)⟩), hxid, hlt⟩

theorem ReviewSound.step (h : ReviewSound s) (heffect : ChangeSetEffect s a s') :
    ReviewSound s' := by
  cases heffect with
  | unchanged hsame => exact h.congr hsame
  | insert input hinserted haccepted hwritten => exact h.insert hinserted haccepted hwritten
  | write call row hwrites hsame =>
    obtain ⟨index, -, -, htarget⟩ := hwrites
    exact (h.writeRow htarget).congr hsame

theorem noOldDecision_iff (h : ReviewSound s) (hs : NoOldDecision s)
    (heffect : ChangeSetEffect s a s') : NoOldDecision s' ↔ ¬ EditsFailed s a := by
  cases heffect with
  | unchanged hsame hidle =>
    refine iff_of_true ?_ hidle
    unfold NoOldDecision
    rw [hsame.1]
    exact hs
  | insert input hinserted _ _ hidle =>
    refine iff_of_true (fun row hrow hpending => ?_) hidle
    rcases (Table.mem_insert hinserted).1 hrow with hmem | rfl
    · exact hs row hmem hpending
    · exact ⟨rfl, rfl, rfl⟩
  | write call row hwrites hsame =>
    obtain ⟨index, rfl, hcall, htarget⟩ := hwrites
    obtain ⟨hrow, -, -, -, hallowed⟩ := target_eq_some.1 htarget
    have hput := fun x => Table.mem_put hrow (apply_id call.action s.now call.actor.userId).symm
      (x := x)
    unfold NoOldDecision
    rw [hsame.1]
    constructor
    · rintro hno ⟨call', row', ⟨index', hindex, hcall', htarget'⟩, ⟨input, hedit⟩, hfailed⟩
      cases hindex
      obtain rfl := mem_unique hcall hcall'
      obtain rfl := mem_unique htarget htarget'
      obtain ⟨last, -, -, -, -, huser⟩ := h.reviewed row hrow (.inr (.inr (.inl hfailed)))
      have hnone := (hno _ ((hput _).2 (.inl rfl)) (by rw [hedit]; rfl)).1
      rw [hedit] at hnone
      cases huser.symm.trans hnone
    · intro hno x hx hpending
      rcases (hput x).1 hx with rfl | ⟨hmem, -⟩
      · refine undecided_apply hallowed (hs row hrow) hpending fun hedit => hno ?_
        exact ⟨call, row, ⟨index, rfl, hcall, htarget⟩, hedit⟩
      · exact hs x hmem hpending

/-! ## Runs -/

theorem reviewSound_initial (access : Spaces.Registry) (now : ℤ) :
    ReviewSound (initial access now) where
  reviewed row hrow := absurd hrow (Table.not_mem_empty row)
  once := nodup_nil
  spent _ hw := absurd hw not_mem_nil

theorem final_of_exec {as : List ChangeSetLabel} {t : ChangeSetStore}
    (hrun : (changeSetMachine parse isAlphanumeric).exec s as = some t) (hrow : row ∈ s.changeSets)
    (hfinal : row.status = .applied ∨ row.status = .rejected) : row ∈ t.changeSets := by
  refine Machine.invariant _ (I := fun s => row ∈ s.changeSets) (fun s a s' hmem hstep => ?_)
    hrow hrun
  cases changeSet_effect hstep with
  | unchanged hsame => rwa [hsame.1]
  | insert input hinserted => exact (Table.mem_insert hinserted).2 (.inl hmem)
  | write call target hwrites hsame =>
    obtain ⟨index, -, -, htarget⟩ := hwrites
    obtain ⟨htmem, -, -, -, hallowed⟩ := target_eq_some.1 htarget
    rw [hsame.1]
    refine (Table.mem_put htmem (apply_id _ _ _).symm).2 (.inr ⟨hmem, fun hid => ?_⟩)
    obtain rfl := Table.eq_of_key hmem htmem (hid.trans (apply_id _ _ _))
    cases haction : call.action <;> rw [haction] at hallowed <;>
      rcases hfinal with h | h <;> simp [ChangeSetAction.allowed, h] at hallowed

/-- What review is to guarantee: what is materialized was accepted last, and names who accepted it;
a change set that waits carries no decision; applied and rejected are final; of the calls with one
expected revision one succeeds at most. -/
structure ReviewGuarantee (parse : String → Option Uuid) (isAlphanumeric : Char → Bool)
    (s : ChangeSetStore) : Prop where
  reviewed : ∀ row ∈ s.changeSets, Decided row →
    ∃ acceptance, lastAcceptance s row.id = some acceptance ∧ AsAccepted acceptance row
  undecided : ∀ row ∈ s.changeSets, row.status = .pendingUserReview → Undecided row
  final : ∀ row ∈ s.changeSets, row.status = .applied ∨ row.status = .rejected →
    ∀ as t, (changeSetMachine parse isAlphanumeric).exec s as = some t → row ∈ t.changeSets
  once : s.written.Nodup

theorem ReviewSound.guarantee_iff (h : ReviewSound s) :
    ReviewGuarantee parse isAlphanumeric s ↔ NoOldDecision s :=
  ⟨fun hs => hs.undecided, fun hs => ⟨h.reviewed, hs,
    fun _ hrow hfinal _ _ hrun => final_of_exec hrun hrow hfinal, h.once⟩⟩

/-- In a run the guarantee holds all the time just when no edit writes to a change set whose
materialization has failed. -/
theorem only_reviewed_content_iff (parse : String → Option Uuid) (isAlphanumeric : Char → Bool)
    (access : Spaces.Registry) (now : ℤ) {as : List ChangeSetLabel} {s : ChangeSetStore}
    (hrun : (changeSetMachine parse isAlphanumeric).exec (initial access now) as = some s) :
    (∀ bs t, bs <+: as →
      (changeSetMachine parse isAlphanumeric).exec (initial access now) bs = some t →
      ReviewGuarantee parse isAlphanumeric t) ↔
    (changeSetMachine parse isAlphanumeric).Meets (fun s a => ¬ EditsFailed s a)
      (initial access now) as := by
  have hsound : ∀ bs t,
      (changeSetMachine parse isAlphanumeric).exec (initial access now) bs = some t →
      ReviewSound t := fun bs t hbs =>
    Machine.invariant _ (fun _ _ _ hs hstep => hs.step (changeSet_effect hstep))
      (reviewSound_initial access now) hbs
  have hinitial : ReviewSound (initial access now) ∧ NoOldDecision (initial access now) :=
    ⟨reviewSound_initial access now, fun row hrow => absurd hrow (Table.not_mem_empty row)⟩
  have hstep : ∀ s a s', ReviewSound s ∧ NoOldDecision s →
      (changeSetMachine parse isAlphanumeric).step s a = some s' →
      (ReviewSound s' ∧ NoOldDecision s' ↔ ¬ EditsFailed s a) := by
    intro s a s' hs h
    have heffect := changeSet_effect h
    rw [and_iff_right (hs.1.step heffect), noOldDecision_iff hs.1 hs.2 heffect]
  rw [(changeSetMachine parse isAlphanumeric).meets_iff_forall_reached hstep hinitial hrun]
  refine forall₂_congr fun bs t => forall₂_congr fun _ hbs => ?_
  rw [(hsound bs t hbs).guarantee_iff, and_iff_right (hsound bs t hbs)]

def sampleCall (expectedRevision : ℤ) (action : ChangeSetAction) : List ChangeSetLabel :=
  [.call ⟨⟨1, 2⟩, 7, expectedRevision, action⟩, .write 0]

def sampleOperations : Policy.Json := .array [.object [("op", .string "create_note")]]

def sampleEdit : ChangeSetAction :=
  .edit
    { expectedRevision := 0
      title := "edited"
      summary := ""
      operations := sampleOperations
      citations := .array []
      expectedGitRevision := none }

def sampleFailedRun : List ChangeSetLabel :=
  .create
      { id := 7
        tenantId := 1
        jobId := none
        spaceId := 5
        outputVaultId := 6
        title := "title"
        summary := ""
        operations := sampleOperations
        citations := .array []
        expectedGitRevision := none
        materializationKey := "key" } ::
    sampleCall 1 (.decide .accept none) ++ sampleCall 2 .beginMaterialization ++
    sampleCall 3 (.failMaterialization "failure")

def sampleReturnedRun : List ChangeSetLabel :=
  sampleFailedRun ++
    sampleCall 4 (.returnMaterializationToReview sampleOperations "git" "detail") ++
    sampleCall 5 sampleEdit

/-- Enough for a step not to edit a change set whose materialization has failed. -/
def sparesFailed (s : ChangeSetStore) : ChangeSetLabel → Bool
  | .write index =>
    (s.pending[index]?).all fun call =>
      (s.target call).all fun row =>
        match call.action with
        | .edit _ => row.status ≠ .failedRetryable
        | _ => true
  | _ => true

theorem not_editsFailed_of_sparesFailed (h : sparesFailed s a) : ¬ EditsFailed s a := by
  rintro ⟨call, row, ⟨index, rfl, hcall, htarget⟩, ⟨input, hedit⟩, hfailed⟩
  simp [sparesFailed, hcall, htarget, hedit, hfailed] at h

theorem only_reviewed_content_of_return :
    ∃ s, (changeSetMachine (fun _ => none) Char.isAlphanum).exec (initial sampleAccess 0)
        sampleReturnedRun = some s ∧ (s.changeSets.rows.map fun row => (row.title, row.status)) =
        [("edited", .pendingUserReview)] ∧ ReviewGuarantee (fun _ => none) Char.isAlphanum s := by
  have hrows : ((changeSetMachine (fun _ => none) Char.isAlphanum).exec (initial sampleAccess 0)
      sampleReturnedRun).map (fun s => s.changeSets.rows.map fun row => (row.title, row.status)) =
        some [("edited", .pendingUserReview)] := by decide +kernel
  obtain ⟨s, hs, hrows⟩ := map_eq_some_iff.1 hrows
  have hspares : (changeSetMachine (fun _ => none) Char.isAlphanum).meetsTest sparesFailed
      (initial sampleAccess 0) sampleReturnedRun := by decide +kernel
  refine ⟨s, hs, hrows, (only_reviewed_content_iff _ _ _ _ hs).2 ?_ _ s prefix_rfl hs⟩
  exact Machine.meets_of_meetsTest _ (fun _ _ => not_editsFailed_of_sparesFailed) hspares

theorem old_decision_on_edited_change_set :
    ∃ s, (changeSetMachine (fun _ => none) Char.isAlphanum).exec (initial sampleAccess 0)
        (sampleFailedRun ++ sampleCall 4 sampleEdit) = some s ∧
      (∃ row ∈ s.changeSets, row.status = .pendingUserReview ∧ row.title = "edited" ∧
        row.decidedByUserId = some 2 ∧ row.decidedAt = some 0) ∧
      ¬ ReviewGuarantee (fun _ => none) Char.isAlphanum s := by
  have hrows : ∃ s, (changeSetMachine (fun _ => none) Char.isAlphanum).exec
        (initial sampleAccess 0) (sampleFailedRun ++ sampleCall 4 sampleEdit) = some s ∧
      ∃ row ∈ s.changeSets, row.status = .pendingUserReview ∧ row.title = "edited" ∧
        row.decidedByUserId = some 2 ∧ row.decidedAt = some 0 := by decide +kernel
  obtain ⟨s, hs, row, hrow, hstatus, htitle, huser, hat⟩ := hrows
  refine ⟨s, hs, ⟨row, hrow, hstatus, htitle, huser, hat⟩, fun hs => ?_⟩
  have hnone := (hs.undecided row hrow hstatus).1
  rw [huser] at hnone
  cases hnone

end Gadgetron.Jobs
