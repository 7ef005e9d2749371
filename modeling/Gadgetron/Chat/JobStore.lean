import Gadgetron.Core.Context
import Gadgetron.Lib.Exec
import Mathlib.Logic.Function.Basic

/-!
# The store of chat jobs

`JobStore::create_exclusive`, the `mark_*` functions of a producer and `cleanup_expired`, with the
rows of `chat_completion_jobs` under its partial unique index.
-/

namespace Gadgetron.Chat

open Lib List Option Function

inductive JobStatus
  | streaming
  | complete
  | error
  | cancelled
  deriving DecidableEq

/-- What a `mark_*` call marks a job as. -/
inductive Terminal
  | complete
  | error (message : String)
  | cancelled
  deriving DecidableEq

def Terminal.status : Terminal → JobStatus
  | .complete => .complete
  | .error _ => .error
  | .cancelled => .cancelled

def Terminal.errorMessage : Terminal → Option String
  | .error message => some message
  | _ => none

/-- How far the `mark_*` call of a producer has come. -/
inductive MarkPhase
  | unmarked
  | flipped
  | stamped
  | returned
  deriving DecidableEq

/-- `JobState`; of the buffer only its length. -/
structure JobState where
  conversationId : Uuid
  status : JobStatus
  chunkCount : ℕ
  errorMessage : Option String
  isFinished : Bool
  completedAt : Option ℕ
  phase : MarkPhase

def JobState.new (conversationId : Uuid) : JobState where
  conversationId := conversationId
  status := .streaming
  chunkCount := 0
  errorMessage := none
  isFinished := false
  completedAt := none
  phase := .unmarked

structure ChatCompletionJobRow where
  (jobId conversationId : Uuid)
  status : JobStatus
  chunkCount : ℕ
  errorMessage : Option String

/-- The part of a conversation in `chat_completion_jobs_one_streaming_per_conversation`. -/
def hasStreamingRow (rows : List ChatCompletionJobRow) (conversationId : Uuid) : Bool :=
  rows.any fun row => row.conversationId == conversationId && row.status == .streaming

/-- The `UPDATE` of `finish_with_assistant_message`. -/
def finishRow (jobId : Uuid) (job : JobState) (row : ChatCompletionJobRow) : ChatCompletionJobRow :=
  if row.jobId = jobId ∧ row.status = .streaming then
    { row with
      status := job.status
      chunkCount := min job.chunkCount (2 ^ 31 - 1)
      errorMessage := job.errorMessage.map fun message => String.ofList (message.toList.take 2048) }
  else row

/-! ## The store -/

/-- The arguments of `create_exclusive` that it looks at. -/
structure CreateCall where
  conversationId : Uuid
  userId : Option Uuid
  deriving DecidableEq

inductive CreateJobError
  | active (jobId : Uuid)
  | persistence
  deriving DecidableEq

/-- Where the call of `create_exclusive` that holds `create_guard` is. -/
inductive CreatePhase
  /-- Before the read of `by_conv`. -/
  | lookup
  /-- Before the read of `by_id`. -/
  | get (jobId : Uuid)
  | snapshot (jobId : Uuid)
  | start
  /-- Before the write of `by_id`. -/
  | register (jobId : Uuid)
  /-- Before the write of `by_conv`. -/
  | index (jobId : Uuid)

/-- A call of `cleanup_expired` that holds both indexes. -/
structure Cleanup where
  (now ttl : ℕ)
  (visited toRemove : List Uuid)

/-- The store, its database, and the returned calls of `create_exclusive`; `by_id` maps an id in
`byId` to its job in `jobs`. -/
structure JobStore where
  jobs : Uuid → Option JobState
  byId : List Uuid
  byConv : Uuid → Option Uuid
  creating : Option (CreateCall × CreatePhase)
  cleanup : Option Cleanup
  rows : List ChatCompletionJobRow
  results : List (CreateCall × Except CreateJobError Uuid)

inductive JobLabel
  | enter (call : CreateCall)
  /-- The call with the guard takes its next step other than `start`. -/
  | advance
  /-- It makes the id of the new job and inserts its row; `accepted` is what the database says to
  it apart from the partial index. -/
  | start (jobId : Uuid) (accepted : Bool)
  | push (jobId : Uuid)
  /-- A `mark_*` call takes the lock of the job. -/
  | mark (jobId : Uuid) (terminal : Terminal)
  /-- It sets `completed_at`. -/
  | stamp (jobId : Uuid) (now : ℕ)
  | persist (jobId : Uuid) (succeeds : Bool)
  /-- `cleanup_expired` takes both indexes. -/
  | sweep (now ttl : ℕ)
  | visit (jobId : Uuid)
  /-- It removes the jobs it has found. -/
  | reap

namespace JobStore

def initial (rows : List ChatCompletionJobRow) : JobStore where
  jobs _ := none
  byId := []
  byConv _ := none
  creating := none
  cleanup := none
  rows := rows
  results := []

def activeForConversation (s : JobStore) (conversationId : Uuid) : Option Uuid :=
  (s.byConv conversationId).bind fun jobId => if jobId ∈ s.byId then some jobId else none

def settle (s : JobStore) (call : CreateCall) (result : Except CreateJobError Uuid) : JobStore :=
  { s with creating := none, results := s.results ++ [(call, result)] }

def setJob (s : JobStore) (jobId : Uuid) (job : JobState) : JobStore :=
  { s with jobs := Function.update s.jobs jobId (some job) }

/-- The steps of `create_exclusive` other than `start`; the indexes are not to be had during a
cleanup. -/
def advance (s : JobStore) (call : CreateCall) : CreatePhase → Option JobStore
  | .lookup =>
    if s.cleanup.isSome then none
    else
      match s.byConv call.conversationId with
      | none => some { s with creating := some (call, .start) }
      | some jobId => some { s with creating := some (call, .get jobId) }
  | .get jobId =>
    if s.cleanup.isSome then none
    else if jobId ∈ s.byId then some { s with creating := some (call, .snapshot jobId) }
    else some { s with creating := some (call, .start) }
  | .snapshot jobId =>
    (s.jobs jobId).map fun job =>
      if job.isFinished then { s with creating := some (call, .start) }
      else s.settle call (.error (.active jobId))
  | .start => none
  | .register jobId =>
    if s.cleanup.isSome then none
    else
      some { s.setJob jobId (.new call.conversationId) with
        byId := jobId :: s.byId
        creating := some (call, .index jobId) }
  | .index jobId =>
    if s.cleanup.isSome then none
    else
      some ({ s with byConv := Function.update s.byConv call.conversationId (some jobId) }.settle
        call (.ok jobId))

/-- A job that is removed leaves `by_conv` only if it is still the one of its conversation. -/
def remove (s : JobStore) (jobId : Uuid) : JobStore :=
  match s.jobs jobId with
  | none => s
  | some job =>
    { s with
      byId := s.byId.filter (· ≠ jobId)
      byConv :=
        if s.byConv job.conversationId = some jobId then
          Function.update s.byConv job.conversationId none
        else s.byConv }

/-- What `cleanup_expired` finds out about a job. -/
def visit (s : JobStore) (cleanup : Cleanup) (jobId : Uuid) : Cleanup :=
  { cleanup with
    visited := jobId :: cleanup.visited
    toRemove :=
      match (s.jobs jobId).bind (·.completedAt) with
      | some doneAt =>
        if cleanup.ttl ≤ cleanup.now - doneAt then cleanup.toRemove ++ [jobId]
        else cleanup.toRemove
      | none => cleanup.toRemove }

section

variable (persistence : Bool)

/-- The call of a known user, with a conversation that is stored. -/
def Persisted (call : CreateCall) : Prop :=
  persistence = true ∧ call.userId.isSome ∧ call.conversationId ≠ 0

instance (call : CreateCall) : Decidable (Persisted persistence call) :=
  inferInstanceAs (Decidable (_ ∧ _))

/-- The `INSERT` of `start`, which the partial index may refuse. -/
def start (s : JobStore) (call : CreateCall) (jobId : Uuid) (accepted : Bool) : JobStore :=
  if Persisted persistence call then
    if accepted ∧ hasStreamingRow s.rows call.conversationId = false then
      { s with
        rows := s.rows ++ [⟨jobId, call.conversationId, .streaming, 0, none⟩]
        creating := some (call, .register jobId) }
    else s.settle call (.error .persistence)
  else { s with creating := some (call, .register jobId) }

def produce (s : JobStore) (jobId : Uuid) (job : JobState) : JobLabel → Option JobStore
  | .push _ =>
    if job.phase = .unmarked then
      some (s.setJob jobId { job with chunkCount := job.chunkCount + 1 })
    else none
  | .mark _ terminal =>
    if job.phase = .unmarked then
      some (s.setJob jobId { job with
        status := terminal.status
        errorMessage := terminal.errorMessage.or job.errorMessage
        isFinished := true
        phase := .flipped })
    else none
  | .stamp _ now =>
    if job.phase = .flipped then
      some (s.setJob jobId { job with completedAt := some now, phase := .stamped })
    else none
  | .persist _ succeeds =>
    if job.phase = .stamped then
      some { s.setJob jobId { job with phase := .returned } with
        rows := if persistence && succeeds then s.rows.map (finishRow jobId job) else s.rows }
    else none
  | _ => none

def step (s : JobStore) (label : JobLabel) : Option JobStore :=
  match label with
  | .enter call =>
    if s.creating.isSome then none else some { s with creating := some (call, .lookup) }
  | .advance => s.creating.bind fun creating => s.advance creating.1 creating.2
  | .start jobId accepted =>
    match s.creating with
    | some (call, .start) =>
      -- `Uuid::new_v4` makes an id that is not in use
      if s.jobs jobId = none ∧ ∀ row ∈ s.rows, row.jobId ≠ jobId then
        some (s.start persistence call jobId accepted)
      else none
    | _ => none
  | .push jobId | .mark jobId _ | .stamp jobId _ | .persist jobId _ =>
    (s.jobs jobId).bind fun job => s.produce persistence jobId job label
  | .sweep now ttl =>
    if s.cleanup.isSome then none else some { s with cleanup := some ⟨now, ttl, [], []⟩ }
  | .visit jobId =>
    s.cleanup.bind fun cleanup =>
      if jobId ∈ s.byId ∧ jobId ∉ cleanup.visited then
        some { s with cleanup := some (s.visit cleanup jobId) }
      else none
  | .reap =>
    s.cleanup.bind fun cleanup =>
      if ∀ jobId ∈ s.byId, jobId ∈ cleanup.visited then
        some { cleanup.toRemove.foldl remove s with cleanup := none }
      else none

abbrev machine : Machine JobStore JobLabel := ⟨step persistence⟩

end

/-! ## What holds in every state -/

/-- No job of the conversation is unfinished, but for `except`. -/
def OnlyLive (s : JobStore) (conversationId : Uuid) (except : Option Uuid) : Prop :=
  ∀ jobId job, s.jobs jobId = some job → job.conversationId = conversationId →
    job.isFinished = false → except = some jobId

def Owns (s : JobStore) (conversationId jobId : Uuid) : Prop :=
  ∃ job, s.jobs jobId = some job ∧ job.conversationId = conversationId

def Found (s : JobStore) (call : CreateCall) : CreatePhase → Prop
  | .lookup => True
  | .get jobId | .snapshot jobId | .index jobId =>
    s.Owns call.conversationId jobId ∧ s.OnlyLive call.conversationId (some jobId)
  | .start => s.OnlyLive call.conversationId none
  | .register jobId => s.jobs jobId = none ∧ s.OnlyLive call.conversationId none

def Sound (job : JobState) : Prop :=
  (job.completedAt.isSome ∨ job.phase ≠ .unmarked) → job.isFinished = true

structure Consistent (s : JobStore) : Prop where
  indexed : ∀ c jobId, s.byConv c = some jobId → s.Owns c jobId
  live : ∀ jobId job, s.jobs jobId = some job → job.isFinished = false →
    jobId ∈ s.byId ∧ (s.byConv job.conversationId = some jobId ∨
      ∃ call, s.creating = some (call, .index jobId) ∧ call.conversationId = job.conversationId)
  sound : ∀ jobId job, s.jobs jobId = some job → Sound job
  removable : ∀ cleanup, s.cleanup = some cleanup → ∀ jobId ∈ cleanup.toRemove,
    ∃ job, s.jobs jobId = some job ∧ job.isFinished = true
  found : ∀ call phase, s.creating = some (call, phase) → s.Found call phase

theorem consistent_initial (rows : List ChatCompletionJobRow) : (initial rows).Consistent where
  indexed _ _ h := by cases h
  live _ _ h := by cases h
  sound _ _ h := by cases h
  removable _ h := by cases h
  found _ _ h := by cases h

/-- The jobs of one state are those of another, none moved or revived. -/
structure Continues (s s' : JobStore) : Prop where
  from_ : ∀ i job', s'.jobs i = some job' → ∃ job, s.jobs i = some job ∧
    job'.conversationId = job.conversationId ∧ (job'.isFinished = false → job.isFinished = false)
  to_ : ∀ i job, s.jobs i = some job → ∃ job', s'.jobs i = some job' ∧
    job'.conversationId = job.conversationId

section

variable {s s' : JobStore}

theorem continues_of_jobs_eq (h : s'.jobs = s.jobs) : Continues s s' :=
  ⟨fun _ job hi => ⟨job, h ▸ hi, rfl, id⟩, fun _ job hi => ⟨job, h ▸ hi, rfl⟩⟩

theorem Continues.owns (h : Continues s s') {c jobId : Uuid} (howns : s.Owns c jobId) :
    s'.Owns c jobId := by
  obtain ⟨job, hjob, hc⟩ := howns
  obtain ⟨job', hjob', hconv⟩ := h.to_ jobId job hjob
  exact ⟨job', hjob', hconv.trans hc⟩

theorem Continues.onlyLive (h : Continues s s') {c : Uuid} {except : Option Uuid}
    (honly : s.OnlyLive c except) : s'.OnlyLive c except := by
  intro i job' hjob' hc hlive
  obtain ⟨job, hjob, hconv, hfin⟩ := h.from_ i job' hjob'
  exact honly i job hjob (hconv.symm.trans hc) (hfin hlive)

theorem Continues.found (h : Continues s s') {call : CreateCall} {phase : CreatePhase}
    (hfound : s.Found call phase) : s'.Found call phase := by
  cases phase with
  | lookup => trivial
  | start => exact h.onlyLive hfound
  | register jobId =>
    refine ⟨?_, h.onlyLive hfound.2⟩
    by_contra hne
    obtain ⟨job', hjob'⟩ := ne_none_iff_exists'.1 hne
    obtain ⟨job, hjob, -⟩ := h.from_ jobId job' hjob'
    rw [hfound.1] at hjob
    cases hjob
  | get | snapshot | index => exact ⟨h.owns hfound.1, h.onlyLive hfound.2⟩

end

section

variable {s : JobStore} {call : CreateCall} {phase : CreatePhase}

theorem Consistent.onlyLive (h : s.Consistent)
    (hphase : s.creating = some (call, phase)) (hne : ∀ jobId, phase ≠ .index jobId) (c : Uuid) :
    s.OnlyLive c (s.byConv c) := by
  intro i job hjob hc hlive
  obtain ⟨-, hindex | ⟨call', hindex, -⟩⟩ := h.live i job hjob hlive
  · rw [hc] at hindex
    exact hindex
  · rw [hphase, some.injEq, Prod.mk.injEq] at hindex
    exact absurd hindex.2 (hne i)

theorem OnlyLive.none_of {c jobId : Uuid} (h : s.OnlyLive c (some jobId))
    (hjob : ∀ job, s.jobs jobId = some job → job.isFinished = true) : s.OnlyLive c none := by
  intro i job hi hc hlive
  obtain rfl := some.inj (h i job hi hc hlive)
  rw [hjob job hi] at hlive
  cases hlive

variable {jobId : Uuid}

theorem Consistent.isFinished_of_notMem (h : s.Consistent) (hmem : jobId ∉ s.byId)
    (job : JobState) (hjob : s.jobs jobId = some job) : job.isFinished = true := by
  by_contra hlive
  rw [Bool.not_eq_true] at hlive
  exact hmem (h.live jobId job hjob hlive).1

variable {job : JobState}

theorem setJob_jobs_self : (s.setJob jobId job).jobs jobId = some job :=
  update_self ..

theorem setJob_jobs_of_ne {jobId i : Uuid} (hne : i ≠ jobId) :
    (s.setJob jobId job).jobs i = s.jobs i :=
  update_of_ne hne ..

theorem continues_setJob {job job' : JobState} (hjob : s.jobs jobId = some job)
    (hconv : job'.conversationId = job.conversationId)
    (hlive : job'.isFinished = false → job.isFinished = false) :
    Continues s (s.setJob jobId job') := by
  constructor
  · intro i job₂ hi
    by_cases heq : i = jobId
    · rw [heq] at hi ⊢
      obtain rfl := mem_unique setJob_jobs_self hi
      exact ⟨job, hjob, hconv, hlive⟩
    · exact ⟨job₂, (setJob_jobs_of_ne heq).symm.trans hi, rfl, id⟩
  · intro i job₁ hi
    by_cases heq : i = jobId
    · rw [heq] at hi ⊢
      obtain rfl := mem_unique hjob hi
      exact ⟨job', setJob_jobs_self, hconv⟩
    · exact ⟨job₁, (setJob_jobs_of_ne heq).trans hi, rfl⟩

theorem Consistent.setJob (h : s.Consistent) {job job' : JobState}
    (hjob : s.jobs jobId = some job) (hconv : job'.conversationId = job.conversationId)
    (hlive : job'.isFinished = false → job.isFinished = false) (hsound : Sound job')
    (rows : List ChatCompletionJobRow) : Consistent { s.setJob jobId job' with rows } := by
  have hcont := continues_setJob hjob hconv hlive
  refine ⟨fun c i hi => hcont.owns (h.indexed c i hi), ?_, ?_, ?_, ?_⟩
  · intro i job₂ hi hunfinished
    obtain ⟨job₁, hjob₁, hconv₁, hlive₁⟩ := hcont.from_ i job₂ hi
    rw [hconv₁]
    exact h.live i job₁ hjob₁ (hlive₁ hunfinished)
  · intro i job₂ hi
    by_cases heq : i = jobId
    · rw [heq] at hi
      obtain rfl := mem_unique setJob_jobs_self hi
      exact hsound
    · exact h.sound i job₂ ((setJob_jobs_of_ne heq).symm.trans hi)
  · intro cleanup hcleanup i hi
    obtain ⟨job₁, hjob₁, hfin⟩ := h.removable cleanup hcleanup i hi
    obtain ⟨job₂, hjob₂, -⟩ := hcont.to_ i job₁ hjob₁
    refine ⟨job₂, hjob₂, ?_⟩
    by_contra hunfinished
    rw [Bool.not_eq_true] at hunfinished
    obtain ⟨job₃, hjob₃, -, hlive₃⟩ := hcont.from_ i job₂ hjob₂
    obtain rfl := mem_unique hjob₃ hjob₁
    rw [hlive₃ hunfinished] at hfin
    cases hfin
  · intro call phase hphase
    exact hcont.found (h.found call phase hphase)

/-! ### Each step -/

variable {persistence : Bool} {s' : JobStore} {label : JobLabel}

theorem Consistent.produce (h : s.Consistent) (hjob : s.jobs jobId = some job)
    (hstep : s.produce persistence jobId job label = some s') : s'.Consistent := by
  have hsound := h.sound jobId job hjob
  unfold JobStore.produce at hstep
  split at hstep
  · obtain ⟨hphase, hstep⟩ := ite_none_right_eq_some.1 hstep
    cases hstep
    apply h.setJob hjob
    · rfl
    · exact id
    · exact fun hor => hsound hor
  · obtain ⟨hphase, hstep⟩ := ite_none_right_eq_some.1 hstep
    cases hstep
    apply h.setJob hjob
    · rfl
    · exact fun hlive => nomatch hlive
    · exact fun _ => rfl
  iterate 2
    · obtain ⟨hphase, hstep⟩ := ite_none_right_eq_some.1 hstep
      cases hstep
      apply h.setJob hjob
      · rfl
      · exact id
      · exact fun _ => hsound (.inr (by simp [hphase]))
  · cases hstep

theorem byConv_remove {jobId c i : Uuid} (hjob : s.jobs jobId = some job) :
    (s.remove jobId).byConv c = some i ↔
      s.byConv c = some i ∧ ¬(i = jobId ∧ c = job.conversationId) := by
  simp only [JobStore.remove, hjob]
  split_ifs with hconv
  · by_cases hc : c = job.conversationId
    · rw [hc, update_self, hconv]
      simp [eq_comm]
    · rw [update_of_ne hc]
      simp [hc]
  · refine ⟨fun hi => ⟨hi, ?_⟩, And.left⟩
    rintro ⟨rfl, rfl⟩
    exact hconv hi

section

variable (h : s.Consistent)
include h

theorem Consistent.remove (hfin : ∃ job, s.jobs jobId = some job ∧ job.isFinished = true) :
    (s.remove jobId).Consistent ∧ (s.remove jobId).jobs = s.jobs := by
  obtain ⟨job, hjob, hfin⟩ := hfin
  have hjobs : (s.remove jobId).jobs = s.jobs := by simp only [JobStore.remove, hjob]
  have hcreating : (s.remove jobId).creating = s.creating := by simp only [JobStore.remove, hjob]
  have hcleanup : (s.remove jobId).cleanup = s.cleanup := by simp only [JobStore.remove, hjob]
  have hcont := continues_of_jobs_eq hjobs
  refine ⟨⟨fun c i hi => ?_, ?_, hjobs ▸ h.sound, ?_, ?_⟩, hjobs⟩
  · exact hcont.owns (h.indexed c i ((byConv_remove hjob).1 hi).1)
  · intro i job' hi hlive
    rw [hjobs] at hi
    obtain ⟨hmem, hindex⟩ := h.live i job' hi hlive
    have hne : i ≠ jobId := by
      rintro rfl
      obtain rfl := mem_unique hjob hi
      rw [hfin] at hlive
      cases hlive
    rw [hcreating]
    refine ⟨?_, hindex.imp_left fun hconv => ?_⟩
    · simp only [JobStore.remove, hjob]
      exact List.mem_filter.2 ⟨hmem, by simpa using hne⟩
    · exact (byConv_remove hjob).2 ⟨hconv, fun heq => hne heq.1⟩
  · rw [hjobs, hcleanup]
    exact h.removable
  · rw [hcreating]
    exact fun call phase hphase => hcont.found (h.found call phase hphase)

theorem Consistent.foldl_remove {toRemove : List Uuid}
    (hfin : ∀ jobId ∈ toRemove, ∃ job, s.jobs jobId = some job ∧ job.isFinished = true) :
    (toRemove.foldl JobStore.remove s).Consistent := by
  induction toRemove generalizing s with
  | nil => exact h
  | cons jobId toRemove ih =>
    obtain ⟨hnext, hjobs⟩ := h.remove (hfin jobId mem_cons_self)
    apply ih hnext
    rw [hjobs]
    exact fun i hi => hfin i (mem_cons_of_mem jobId hi)

theorem Consistent.setCreating {creating : Option (CreateCall × CreatePhase)}
    (results : List (CreateCall × Except CreateJobError Uuid))
    (hindex : ∀ call jobId, s.creating ≠ some (call, .index jobId))
    (hfound : ∀ call phase, creating = some (call, phase) → s.Found call phase) :
    Consistent { s with creating, results } := by
  refine ⟨h.indexed, ?_, h.sound, h.removable, fun call phase hphase => ?_⟩
  · intro i job hi hlive
    obtain ⟨hmem, hconv | ⟨call, hphase, -⟩⟩ := h.live i job hi hlive
    · exact ⟨hmem, .inl hconv⟩
    · exact absurd hphase (hindex call i)
  · have hcont : Continues s { s with creating, results } :=
      continues_of_jobs_eq rfl
    exact hcont.found (hfound call phase hphase)

theorem Consistent.register (hphase : s.creating = some (call, .register jobId)) :
    Consistent { s.setJob jobId (.new call.conversationId) with
      byId := jobId :: s.byId
      creating := some (call, .index jobId) } := by
  obtain ⟨hnone, honly⟩ := h.found call _ hphase
  have hself : (s.setJob jobId (.new call.conversationId)).jobs jobId =
      some (.new call.conversationId) := setJob_jobs_self
  have hother : ∀ i, i ≠ jobId → (s.setJob jobId (.new call.conversationId)).jobs i = s.jobs i :=
    fun i hne => setJob_jobs_of_ne hne
  have hold : ∀ i job, s.jobs i = some job →
      (s.setJob jobId (.new call.conversationId)).jobs i = some job := by
    intro i job hi
    rw [hother i]
    · exact hi
    · rintro rfl
      rw [hnone] at hi
      cases hi
  refine ⟨?_, ?_, ?_, ?_, ?_⟩
  · intro c i hi
    obtain ⟨job, hjob, hc⟩ := h.indexed c i hi
    exact ⟨job, hold i job hjob, hc⟩
  · intro i job hi hlive
    by_cases heq : i = jobId
    · rw [heq] at hi ⊢
      obtain rfl := mem_unique hself hi
      exact ⟨mem_cons_self, .inr ⟨call, rfl, rfl⟩⟩
    · obtain ⟨hmem, hconv | ⟨call', hindex, -⟩⟩ := h.live i job ((hother i heq).symm.trans hi) hlive
      · exact ⟨mem_cons_of_mem jobId hmem, .inl hconv⟩
      · rw [hphase] at hindex
        cases hindex
  · intro i job hi
    by_cases heq : i = jobId
    · rw [heq] at hi
      obtain rfl := mem_unique hself hi
      simp [Sound, JobState.new]
    · exact h.sound i job ((hother i heq).symm.trans hi)
  · intro cleanup hcleanup i hi
    obtain ⟨job, hjob, hfin⟩ := h.removable cleanup hcleanup i hi
    exact ⟨job, hold i job hjob, hfin⟩
  · rintro _ _ ⟨⟩
    refine ⟨⟨_, hself, rfl⟩, fun i job hi hc hlive => ?_⟩
    by_cases heq : i = jobId
    · rw [heq]
    · exact absurd (honly i job ((hother i heq).symm.trans hi) hc hlive) (by simp)

theorem Consistent.index (hphase : s.creating = some (call, .index jobId)) :
    Consistent
      ({ s with byConv := Function.update s.byConv call.conversationId (some jobId) }.settle call
        (.ok jobId)) := by
  obtain ⟨howns, honly⟩ := h.found call _ hphase
  refine ⟨?_, ?_, h.sound, h.removable, fun _ _ hnone => (by cases hnone)⟩
  · intro c i hi
    change Function.update s.byConv call.conversationId (some jobId) c = some i at hi
    by_cases heq : c = call.conversationId
    · rw [heq, update_self, some.injEq] at hi
      rw [heq, ← hi]
      exact howns
    · rw [update_of_ne heq] at hi
      exact h.indexed c i hi
  · intro i job hi hlive
    obtain ⟨hmem, hindex⟩ := h.live i job hi hlive
    refine ⟨hmem, .inl ?_⟩
    show Function.update s.byConv call.conversationId (some jobId) job.conversationId = some i
    by_cases heq : job.conversationId = call.conversationId
    · rw [heq, update_self]
      exact honly i job hi heq hlive
    · rw [update_of_ne heq]
      rcases hindex with hconv | ⟨call', hindex, hc⟩
      · exact hconv
      · rw [hphase, some.injEq, Prod.mk.injEq] at hindex
        rw [← hindex.1] at hc
        exact absurd hc.symm heq

theorem Consistent.advance (hphase : s.creating = some (call, phase))
    (hstep : s.advance call phase = some s') : s'.Consistent := by
  have hfound := h.found call phase hphase
  have hindex : (∀ jobId, phase ≠ .index jobId) →
      ∀ call jobId, s.creating ≠ some (call, .index jobId) := by
    intro hne call' jobId heq
    rw [hphase, some.injEq, Prod.mk.injEq] at heq
    exact hne jobId heq.2
  cases phase with
  | lookup =>
    simp only [JobStore.advance] at hstep
    split_ifs at hstep
    split at hstep
    · rename_i hconv
      cases hstep
      apply h.setCreating s.results (hindex nofun)
      rintro _ _ ⟨⟩
      have honly := h.onlyLive hphase nofun call.conversationId
      rw [hconv] at honly
      exact honly
    · rename_i jobId hconv
      cases hstep
      apply h.setCreating s.results (hindex nofun)
      rintro _ _ ⟨⟩
      have honly := h.onlyLive hphase nofun call.conversationId
      rw [hconv] at honly
      exact ⟨h.indexed _ _ hconv, honly⟩
  | get jobId =>
    simp only [JobStore.advance] at hstep
    split_ifs at hstep with hcleanup hmem
    · cases hstep
      apply h.setCreating s.results (hindex nofun)
      rintro _ _ ⟨⟩
      exact hfound
    · cases hstep
      apply h.setCreating s.results (hindex nofun)
      rintro _ _ ⟨⟩
      exact hfound.2.none_of (h.isFinished_of_notMem hmem)
  | snapshot jobId =>
    obtain ⟨job, hjob, rfl⟩ := map_eq_some_iff.1 hstep
    split_ifs with hfin
    · apply h.setCreating s.results (hindex nofun)
      rintro _ _ ⟨⟩
      refine hfound.2.none_of fun job' hjob' => ?_
      rw [← mem_unique hjob hjob']
      exact hfin
    · apply h.setCreating _ (hindex nofun)
      exact fun _ _ hnone => by cases hnone
  | start => cases hstep
  | register jobId =>
    simp only [JobStore.advance] at hstep
    split_ifs at hstep
    cases hstep
    exact h.register hphase
  | index jobId =>
    simp only [JobStore.advance] at hstep
    split_ifs at hstep
    cases hstep
    exact h.index hphase

theorem Consistent.start (hphase : s.creating = some (call, .start)) (hnew : s.jobs jobId = none)
    (persistence accepted : Bool) : (s.start persistence call jobId accepted).Consistent := by
  have hindex : ∀ call jobId, s.creating ≠ some (call, .index jobId) := by
    intro call' i heq
    rw [hphase] at heq
    cases heq
  have hregister : ∀ call' phase', some (call, CreatePhase.register jobId) = some (call', phase') →
      s.Found call' phase' := by
    rintro _ _ ⟨⟩
    exact ⟨hnew, h.found call _ hphase⟩
  unfold JobStore.start
  split_ifs with hpersisted haccepted
  · obtain ⟨h₁, h₂, h₃, h₄, h₅⟩ := h.setCreating s.results hindex hregister
    exact ⟨h₁, h₂, h₃, h₄, h₅⟩
  · exact h.setCreating _ hindex fun _ _ hnone => by cases hnone
  · exact h.setCreating s.results hindex hregister

theorem Consistent.setCleanup (cleanup : Option Cleanup)
    (hremovable : ∀ c, cleanup = some c → ∀ jobId ∈ c.toRemove,
      ∃ job, s.jobs jobId = some job ∧ job.isFinished = true) :
    Consistent { s with cleanup } := by
  refine ⟨h.indexed, h.live, h.sound, hremovable, fun call phase hphase => ?_⟩
  have hcont : Continues s { s with cleanup } := continues_of_jobs_eq rfl
  exact hcont.found (h.found call phase hphase)

theorem Consistent.visit {cleanup : Cleanup}
    (hcleanup : s.cleanup = some cleanup) (jobId : Uuid) :
    Consistent { s with cleanup := some (s.visit cleanup jobId) } := by
  apply h.setCleanup
  rintro _ ⟨⟩ i hi
  unfold JobStore.visit at hi
  dsimp only at hi
  split at hi
  · rename_i doneAt hdone
    split_ifs at hi
    · rcases mem_append.1 hi with hi | hi
      · exact h.removable cleanup hcleanup i hi
      · rw [mem_singleton.1 hi]
        obtain ⟨job, hjob, hcompleted⟩ := bind_eq_some_iff.1 hdone
        exact ⟨job, hjob, h.sound jobId job hjob (.inl (by simp [hcompleted]))⟩
    · exact h.removable cleanup hcleanup i hi
  · exact h.removable cleanup hcleanup i hi

theorem Consistent.step (hstep : s.step persistence label = some s') : s'.Consistent := by
  cases label with
  | enter call =>
    simp only [JobStore.step] at hstep
    split_ifs at hstep with hguard
    cases hstep
    apply h.setCreating s.results
    · intro call' i heq
      simp [heq] at hguard
    · rintro _ _ ⟨⟩
      trivial
  | advance =>
    obtain ⟨⟨call, phase⟩, hphase, hadvance⟩ := bind_eq_some_iff.1 hstep
    exact h.advance hphase hadvance
  | start jobId accepted =>
    simp only [JobStore.step] at hstep
    split at hstep
    · rename_i call hphase
      obtain ⟨hnew, hstep⟩ := ite_none_right_eq_some.1 hstep
      cases hstep
      exact h.start hphase hnew.1 persistence accepted
    · cases hstep
  | push jobId | mark jobId _ | stamp jobId _ | persist jobId _ =>
    obtain ⟨job, hjob, hproduce⟩ := bind_eq_some_iff.1 hstep
    exact h.produce hjob hproduce
  | sweep now ttl =>
    simp only [JobStore.step] at hstep
    split_ifs at hstep
    cases hstep
    apply h.setCleanup
    rintro _ ⟨⟩ i hi
    cases hi
  | visit jobId =>
    obtain ⟨cleanup, hcleanup, hvisit⟩ := bind_eq_some_iff.1 hstep
    obtain ⟨-, hvisit⟩ := ite_none_right_eq_some.1 hvisit
    cases hvisit
    exact h.visit hcleanup jobId
  | reap =>
    obtain ⟨cleanup, hcleanup, hreap⟩ := bind_eq_some_iff.1 hstep
    obtain ⟨-, hreap⟩ := ite_none_right_eq_some.1 hreap
    cases hreap
    apply (h.foldl_remove (h.removable cleanup hcleanup)).setCleanup
    exact fun _ hnone => by cases hnone

end

/-! ## Calls that return -/

inductive Return (s : JobStore) (persistence : Bool) (call : CreateCall) :
    JobLabel → Except CreateJobError Uuid → Prop
  | ok (jobId : Uuid) : Return s persistence call .advance (.ok jobId)
  | active (jobId : Uuid) (job : JobState) (phase : s.creating = some (call, .snapshot jobId))
      (found : s.jobs jobId = some job) (live : job.isFinished = false) :
      Return s persistence call .advance (.error (.active jobId))
  | persistence (jobId : Uuid) (accepted : Bool) (phase : s.creating = some (call, .start))
      (persisted : Persisted persistence call)
      (refused : ¬(accepted = true ∧ hasStreamingRow s.rows call.conversationId = false)) :
      Return s persistence call (.start jobId accepted) (.error .persistence)

theorem results_foldl_remove (toRemove : List Uuid) :
    (toRemove.foldl JobStore.remove s).results = s.results := by
  induction toRemove generalizing s with
  | nil => rfl
  | cons jobId toRemove ih =>
    rw [foldl_cons, ih]
    unfold JobStore.remove
    split
    · rfl
    · rfl

theorem results_produce (hstep : s.produce persistence jobId job label = some s') :
    s'.results = s.results := by
  unfold JobStore.produce at hstep
  split at hstep
  all_goals
    first
    | obtain ⟨-, hstep⟩ := ite_none_right_eq_some.1 hstep
      cases hstep
      rfl
    | cases hstep

theorem results_advance (hphase : s.creating = some (call, phase))
    (hstep : s.advance call phase = some s') :
    s'.results = s.results ∨ ∃ result, s'.results = s.results ++ [(call, result)] ∧
      Return s persistence call .advance result := by
  cases phase with
  | lookup =>
    simp only [JobStore.advance] at hstep
    split_ifs at hstep
    split at hstep
    · cases hstep
      exact .inl rfl
    · cases hstep
      exact .inl rfl
  | get jobId =>
    simp only [JobStore.advance] at hstep
    split_ifs at hstep
    · cases hstep
      exact .inl rfl
    · cases hstep
      exact .inl rfl
  | snapshot jobId =>
    obtain ⟨job, hjob, rfl⟩ := map_eq_some_iff.1 hstep
    split_ifs with hfin
    · exact .inl rfl
    · rw [Bool.not_eq_true] at hfin
      exact .inr ⟨_, rfl, .active jobId job hphase hjob hfin⟩
  | start => cases hstep
  | register jobId =>
    simp only [JobStore.advance] at hstep
    split_ifs at hstep
    cases hstep
    exact .inl rfl
  | index jobId =>
    simp only [JobStore.advance] at hstep
    split_ifs at hstep
    cases hstep
    exact .inr ⟨_, rfl, .ok jobId⟩

theorem results_step (hstep : s.step persistence label = some s') :
    s'.results = s.results ∨ ∃ call result, s'.results = s.results ++ [(call, result)] ∧
      Return s persistence call label result := by
  cases label with
  | enter | sweep =>
    simp only [JobStore.step] at hstep
    split_ifs at hstep
    cases hstep
    exact .inl rfl
  | advance =>
    obtain ⟨⟨call, phase⟩, hphase, hadvance⟩ := bind_eq_some_iff.1 hstep
    rcases results_advance hphase hadvance with hsame | ⟨result, hresult⟩
    · exact .inl hsame
    · exact .inr ⟨call, result, hresult⟩
  | start jobId accepted =>
    simp only [JobStore.step] at hstep
    split at hstep
    · rename_i call hphase
      obtain ⟨-, hstep⟩ := ite_none_right_eq_some.1 hstep
      obtain rfl := some.inj hstep
      unfold JobStore.start
      split_ifs with hpersisted hrefused
      · exact .inl rfl
      · exact .inr ⟨call, _, rfl, .persistence jobId accepted hphase hpersisted hrefused⟩
      · exact .inl rfl
    · cases hstep
  | push jobId | mark jobId _ | stamp jobId _ | persist jobId _ =>
    obtain ⟨job, -, hproduce⟩ := bind_eq_some_iff.1 hstep
    exact .inl (results_produce hproduce)
  | visit jobId =>
    obtain ⟨cleanup, -, hvisit⟩ := bind_eq_some_iff.1 hstep
    obtain ⟨-, hvisit⟩ := ite_none_right_eq_some.1 hvisit
    cases hvisit
    exact .inl rfl
  | reap =>
    obtain ⟨cleanup, -, hreap⟩ := bind_eq_some_iff.1 hstep
    obtain ⟨-, hreap⟩ := ite_none_right_eq_some.1 hreap
    cases hreap
    exact .inl (results_foldl_remove _)

/-! ## A call by itself -/

/-- The step is one of the call, which gets the id `jobId`. -/
def OfCall (call : CreateCall) (jobId : Uuid) : JobLabel → Prop
  | .enter call' => call' = call
  | .advance => True
  | .start jobId' accepted => jobId' = jobId ∧ accepted = true
  | _ => False

theorem Consistent.exists_start (h : s.Consistent) (persistence : Bool)
    (jobId : Uuid) (hfree : s.creating = none) (hcleanup : s.cleanup = none)
    (hidle : s.OnlyLive call.conversationId none) :
    ∃ labels, (∀ label ∈ labels, OfCall call jobId label) ∧
      (machine persistence).exec s labels = some { s with creating := some (call, .start) } := by
  let M := machine persistence
  have henter : M.step s (.enter call) = some { s with creating := some (call, .lookup) } := by
    simp [M, JobStore.step, hfree]
  cases hconv : s.byConv call.conversationId with
  | none =>
    refine ⟨[.enter call, .advance], by simp [OfCall], M.exec_cons_eq_some.2 ⟨_, henter,
      M.exec_cons_eq_some.2 ⟨_, ?_, rfl⟩⟩⟩
    simp [M, JobStore.step, JobStore.advance, hcleanup, hconv]
  | some found =>
    have hlookup : M.step { s with creating := some (call, .lookup) } .advance =
        some { s with creating := some (call, .get found) } := by
      simp [M, JobStore.step, JobStore.advance, hcleanup, hconv]
    by_cases hmem : found ∈ s.byId
    · obtain ⟨job, hjob, hc⟩ := h.indexed _ _ hconv
      have hfin : job.isFinished = true := by
        by_contra hlive
        rw [Bool.not_eq_true] at hlive
        cases hidle found job hjob hc hlive
      refine ⟨[.enter call, .advance, .advance, .advance], by simp [OfCall],
        M.exec_cons_eq_some.2 ⟨_, henter, M.exec_cons_eq_some.2 ⟨_, hlookup,
          M.exec_cons_eq_some.2 ⟨{ s with creating := some (call, .snapshot found) }, ?_,
            M.exec_cons_eq_some.2 ⟨_, ?_, rfl⟩⟩⟩⟩⟩
      · simp [M, JobStore.step, JobStore.advance, hcleanup, hmem]
      · simp [M, JobStore.step, JobStore.advance, hjob, hfin]
    · refine ⟨[.enter call, .advance, .advance], by simp [OfCall],
        M.exec_cons_eq_some.2 ⟨_, henter, M.exec_cons_eq_some.2 ⟨_, hlookup,
          M.exec_cons_eq_some.2 ⟨_, ?_, rfl⟩⟩⟩⟩
      simp [M, JobStore.step, JobStore.advance, hcleanup, hmem]

theorem exists_finish (persistence : Bool)
    (hphase : s.creating = some (call, .register jobId)) (hcleanup : s.cleanup = none) :
    ∃ t, (machine persistence).exec s [.advance, .advance] = some t ∧
      t.results = s.results ++ [(call, .ok jobId)] := by
  let M := machine persistence
  let s₁ : JobStore := { s.setJob jobId (.new call.conversationId) with
    byId := jobId :: s.byId
    creating := some (call, .index jobId) }
  have hregister : M.step s .advance = some s₁ := by
    simp [M, s₁, JobStore.step, JobStore.advance, hphase, hcleanup]
  have hindex : M.step s₁ .advance =
      some ({ s₁ with byConv := Function.update s₁.byConv call.conversationId (some jobId) }.settle
        call (.ok jobId)) := by
    simp [M, s₁, JobStore.step, JobStore.advance, JobStore.setJob, hcleanup]
  exact ⟨_, M.exec_cons_eq_some.2 ⟨_, hregister, M.exec_cons_eq_some.2 ⟨_, hindex, rfl⟩⟩, rfl⟩

/-- A call by itself for a conversation without an unfinished job returns; it succeeds exactly when
no streaming row of the conversation stands in its way. -/
theorem Consistent.exists_return (h : s.Consistent) (persistence : Bool) (hfree : s.creating = none)
    (hcleanup : s.cleanup = none)
    (hidle : s.OnlyLive call.conversationId none)
    (hnew : s.jobs jobId = none ∧ ∀ row ∈ s.rows, row.jobId ≠ jobId) :
    ∃ labels t result, (∀ label ∈ labels, OfCall call jobId label) ∧
      (machine persistence).exec s labels = some t ∧ t.results = s.results ++ [(call, result)] ∧
      (result = .ok jobId ↔ ¬(Persisted persistence call ∧
        hasStreamingRow s.rows call.conversationId = true)) := by
  let M := machine persistence
  obtain ⟨labels, hown, hrun⟩ := h.exists_start persistence jobId hfree hcleanup hidle
  have hstart : M.step { s with creating := some (call, .start) } (.start jobId true) =
      some ({ s with creating := some (call, .start) }.start persistence call jobId true) :=
    if_pos hnew
  have hown' : ∀ label ∈ labels ++ [.start jobId true], OfCall call jobId label := by
    intro label hmem
    rcases mem_append.1 hmem with hmem | hmem
    · exact hown label hmem
    · rw [mem_singleton.1 hmem]
      exact ⟨rfl, rfl⟩
  have hrun' := M.exec_append_eq_some.2 ⟨_, hrun, M.exec_cons_eq_some.2 ⟨_, hstart, M.exec_nil _⟩⟩
  by_cases hrefused : Persisted persistence call ∧ hasStreamingRow s.rows call.conversationId = true
  · refine ⟨_, _, .error .persistence, hown', hrun', ?_, by simp [hrefused]⟩
    simp [JobStore.start, JobStore.settle, hrefused]
  · have hphase : ({ s with creating := some (call, .start) }.start persistence call jobId
        true).creating = some (call, .register jobId) ∧
        ({ s with creating := some (call, .start) }.start persistence call jobId
          true).cleanup = none ∧
        ({ s with creating := some (call, .start) }.start persistence call jobId
          true).results = s.results := by
      unfold JobStore.start
      by_cases hpersisted : Persisted persistence call
      · have hfree : hasStreamingRow s.rows call.conversationId = false := by
          rw [← Bool.not_eq_true]
          exact fun hstreaming => hrefused ⟨hpersisted, hstreaming⟩
        rw [if_pos hpersisted, if_pos ⟨rfl, hfree⟩]
        exact ⟨rfl, hcleanup, rfl⟩
      · rw [if_neg hpersisted]
        exact ⟨rfl, hcleanup, rfl⟩
    obtain ⟨t, ht, hresults⟩ := exists_finish persistence hphase.1 hphase.2.1
    refine ⟨_, t, .ok jobId, ?_, M.exec_append_eq_some.2 ⟨_, hrun', ht⟩, ?_, by simp [hrefused]⟩
    · intro label hmem
      rcases mem_append.1 hmem with hmem | hmem
      · exact hown' label hmem
      · obtain rfl : label = .advance := by simpa using hmem
        trivial
    · rw [hresults, hphase.2.2]

end

/-! ## Runs -/

/-- A call is started while no row of its conversation is streaming. -/
def RowFree (persistence : Bool) (s : JobStore) : JobLabel → Prop
  | .start _ accepted => ∀ call, s.creating = some (call, .start) → Persisted persistence call →
      accepted = true ∧ hasStreamingRow s.rows call.conversationId = false
  | _ => True

variable {s : JobStore} {persistence : Bool}

theorem Consistent.live_unique (h : s.Consistent) {i j : Uuid} {job job' : JobState}
    (hi : s.jobs i = some job) (hj : s.jobs j = some job') (hlive : job.isFinished = false)
    (hlive' : job'.isFinished = false) (hc : job.conversationId = job'.conversationId) : i = j := by
  obtain ⟨-, hi' | ⟨call, hcreating, hconv⟩⟩ := h.live i job hi hlive
  · obtain ⟨-, hj' | ⟨call, hcreating, hconv⟩⟩ := h.live j job' hj hlive'
    · rw [hc, hj', some.injEq] at hi'
      exact hi'.symm
    · have honly := (h.found _ _ hcreating).2
      rw [hconv, ← hc] at honly
      exact (some.inj (honly i job hi rfl hlive)).symm
  · have honly := (h.found _ _ hcreating).2
    rw [hconv, hc] at honly
    exact some.inj (honly j job' hj rfl hlive')

theorem Consistent.activeForConversation_eq (h : s.Consistent) {i : Uuid}
    {job : JobState} (hi : s.jobs i = some job) (hlive : job.isFinished = false)
    (hindex : ∀ call, s.creating ≠ some (call, .index i)) :
    s.activeForConversation job.conversationId = some i := by
  obtain ⟨hmem, hconv | ⟨call, hcreating, -⟩⟩ := h.live i job hi hlive
  · simp [activeForConversation, hconv, hmem]
  · exact absurd hcreating (hindex call)

theorem Consistent.error_iff {s s' : JobStore} (h : s.Consistent)
    {label : JobLabel} {call : CreateCall} {e : CreateJobError}
    (hstep : s.step persistence label = some s')
    (hresults : s'.results = s.results ++ [(call, .error e)]) :
    (∃ j job, e = .active j ∧ s.jobs j = some job ∧ job.conversationId = call.conversationId ∧
      job.isFinished = false) ↔ RowFree persistence s label := by
  rcases results_step hstep with hsame | ⟨call', result, hresults', hreturn⟩
  · rw [hsame] at hresults
    simp at hresults
  · rw [hresults', append_cancel_left_eq, cons.injEq, Prod.mk.injEq] at hresults
    obtain ⟨⟨rfl, rfl⟩, -⟩ := hresults
    cases hreturn with
    | active jobId job hphase hfound hlive =>
      obtain ⟨job', hjob', hc⟩ := (h.found _ _ hphase).1
      obtain rfl := mem_unique hfound hjob'
      exact iff_of_true ⟨jobId, job, rfl, hfound, hc, hlive⟩ trivial
    | persistence jobId accepted hphase hpersisted hrefused =>
      refine iff_of_false ?_ fun hfree => hrefused (hfree _ hphase hpersisted)
      rintro ⟨j, job, he, -⟩
      cases he

/-- In every run a conversation has at most one unfinished job, and each one returned is the active
one.  A call fails for an unfinished job exactly when its row was not refused; by itself, without an
unfinished job, it succeeds exactly when no row stands in its way. -/
theorem create_exclusive_fails_iff (persistence : Bool) (rows : List ChatCompletionJobRow)
    {labels : List JobLabel} {s : JobStore}
    (hrun : (machine persistence).exec (initial rows) labels = some s) :
    (∀ i j job job', s.jobs i = some job → s.jobs j = some job' → job.isFinished = false →
        job'.isFinished = false → job.conversationId = job'.conversationId → i = j) ∧
      (∀ i job, s.jobs i = some job → job.isFinished = false →
        (∀ call, s.creating ≠ some (call, .index i)) →
          s.activeForConversation job.conversationId = some i) ∧
      (∀ label s' call e, s.step persistence label = some s' →
        s'.results = s.results ++ [(call, .error e)] →
          ((∃ j job, e = .active j ∧ s.jobs j = some job ∧
              job.conversationId = call.conversationId ∧ job.isFinished = false) ↔
            RowFree persistence s label)) ∧
      ∀ call jobId, s.creating = none → s.cleanup = none → s.OnlyLive call.conversationId none →
        (s.jobs jobId = none ∧ ∀ row ∈ s.rows, row.jobId ≠ jobId) →
          ∃ own t result, (∀ label ∈ own, OfCall call jobId label) ∧
            (machine persistence).exec s own = some t ∧ t.results = s.results ++ [(call, result)] ∧
            (result = .ok jobId ↔ ¬(Persisted persistence call ∧
              hasStreamingRow s.rows call.conversationId = true)) := by
  have h := (machine persistence).invariant (fun _ _ _ h hstep => h.step hstep)
    (consistent_initial rows) hrun
  refine ⟨?_, ?_, ?_, fun call jobId => h.exists_return persistence⟩
  · exact fun i j job job' hi hj hlive hlive' hc => h.live_unique hi hj hlive hlive' hc
  · exact fun i job hi hlive hindex => h.activeForConversation_eq hi hlive hindex
  · exact fun label s' call e hstep hresults => h.error_iff hstep hresults

def sampleCall : CreateCall := ⟨7, some 3⟩

def sampleRun (succeeds : Bool) : List JobLabel :=
  [.enter sampleCall, .advance, .start 1 true, .advance, .advance, .push 1, .mark 1 .complete,
    .stamp 1 5, .persist 1 succeeds]

theorem exec_sampleRun (succeeds : Bool) :
    ∃ s, (machine true).exec (initial []) (sampleRun succeeds) = some s ∧ s.creating = none ∧
      s.cleanup = none ∧ (∀ i, i ≠ 1 → s.jobs i = none) ∧ s.OnlyLive 7 none ∧
      s.rows = if succeeds then [⟨1, 7, .complete, 1, none⟩]
        else [⟨1, 7, .streaming, 0, none⟩] := by
  have hother : ∀ s, (machine true).exec (initial []) (sampleRun succeeds) = some s →
      ∀ i, i ≠ 1 → s.jobs i = none := by
    rintro _ ⟨⟩ i hi
    show Function.update (Function.update (Function.update (Function.update (Function.update
      (fun _ => none) 1 _) 1 _) 1 _) 1 _) 1 _ i = none
    simp only [update_of_ne hi]
  refine ⟨_, rfl, rfl, rfl, hother _ rfl, ?_, ?_⟩
  · intro i job hi _ hlive
    by_cases heq : i = 1
    · rw [heq] at hi
      obtain rfl := some.inj hi
      cases hlive
    · rw [hother _ rfl i heq] at hi
      cases hi
  · cases succeeds with
    | true | false => rfl

theorem create_exclusive_after_persist :
    ∃ s, (machine true).exec (initial []) (sampleRun true) = some s ∧
      ∃ own t, (machine true).exec s own = some t ∧
        t.results = s.results ++ [(sampleCall, .ok 2)] := by
  obtain ⟨s, hs, hfree, hcleanup, hother, honly, hrows⟩ := exec_sampleRun true
  obtain ⟨own, t, result, -, ht, hresults, hok⟩ := (create_exclusive_fails_iff true [] hs).2.2.2
    sampleCall 2 hfree hcleanup honly ⟨hother 2 (by decide), by simp [hrows]⟩
  rw [hok.2 (by simp [hrows, hasStreamingRow])] at hresults
  exact ⟨s, hs, own, t, ht, hresults⟩

/-- The update of the row fails, and the next call for the conversation, which has no unfinished
job, fails on the row. -/
theorem create_exclusive_fails_on_row :
    (∃ s, (machine true).exec (initial []) (sampleRun false) = some s ∧ s.OnlyLive 7 none) ∧
      ((machine true).exec (initial [])
          (sampleRun false ++ [.enter sampleCall, .advance, .advance, .advance,
            .start 2 true])).map (·.results) =
        some [(sampleCall, .ok 1), (sampleCall, .error .persistence)] := by
  obtain ⟨s, hs, -, -, -, honly, -⟩ := exec_sampleRun false
  exact ⟨⟨s, hs, honly⟩, by decide +kernel⟩

end JobStore

end Gadgetron.Chat
