import Gadgetron.Jobs.Execution
import Gadgetron.Jobs.Lifecycle

/-!
# The follow-up of a research job

A Researcher enqueues its Gardener before it completes its own job, under a key that keeps other
Gardeners out only while the first one is active.
-/

namespace Gadgetron.Jobs.Worker

open Lib Policy Spaces List Option

def WorkerStore.pinned (env : Env) (s : WorkerStore) (jobId : Uuid) : Option Uuid :=
  (s.details jobId).bind fun details => pinnedCandidate env details.request.input

def HasKey (tenantId : Uuid) (key : String) (job : KnowledgeJobRow) : Prop :=
  job.tenantId = tenantId ∧ job.idempotencyKey = key

def Proposes (s : WorkerStore) (tenantId : Uuid) (key : String) (row : ProposedChangeSet) : Prop :=
  ∃ job ∈ s.jobs.jobs, job.id = row.jobId ∧ HasKey tenantId key job

def IsGardener (s : WorkerStore) (jobId : Uuid) : Prop :=
  ∃ details, s.details jobId = some details ∧ details.request.role = .gardener

/-- At most one Gardener of the research job has succeeded, and at most one change set is
proposed. -/
structure OneFollowUp (s : WorkerStore) (tenantId researchJobId : Uuid) : Prop where
  succeeded : ∀ job ∈ s.jobs.jobs, ∀ job' ∈ s.jobs.jobs,
    HasKey tenantId (gardenerKey researchJobId) job →
    HasKey tenantId (gardenerKey researchJobId) job' → IsGardener s job.id → IsGardener s job'.id →
    job.status = .succeeded → job'.status = .succeeded → job = job'
  proposed : ∀ row ∈ s.changeSets, ∀ row' ∈ s.changeSets,
    Proposes s tenantId (gardenerKey researchJobId) row →
    Proposes s tenantId (gardenerKey researchJobId) row' → row = row'

/-- No other job with the key has proposed a change set, unless it is for the candidate that this
job is pinned to as well. -/
def Spared (s : WorkerStore) (tenantId : Uuid) (key : String) (jobId : Uuid)
    (pinned : Option Uuid) : Prop :=
  ∀ row ∈ s.changeSets, Proposes s tenantId key row → row.jobId = jobId ∨
    ∃ candidateArtifactId, row.input.candidateArtifactId = some candidateArtifactId ∧
      pinned = some candidateArtifactId

/-- The call of `enqueue` that a client or `enqueue_gardener` makes. -/
def startedCall (env : Env) (s : WorkerStore) : WorkerLabel → Option EnqueueCall
  | .enqueue call => some call
  | .write index answer =>
    (s.executions[index]?).bind fun e =>
      match e.phase with
      | .followUp dossierArtifactId candidateArtifactId =>
        (WorkerStore.gardenerCall env e dossierArtifactId candidateArtifactId answer).toOption
      | _ => none
  | _ => none

/-- The step puts a job with the key into the queue, pinned to the candidate. -/
inductive Starts (env : Env) (s : WorkerStore) (tenantId : Uuid) (key : String) :
    WorkerLabel → Uuid → Option Uuid → Prop
  | enqueue (a : WorkerLabel) (call : EnqueueCall) (made : startedCall env s a = some call)
      (tenant : call.actor.tenantId = tenantId) (named : call.request.idempotencyKey = key)
      (free : s.jobs.activeJob tenantId key = none) (accepted : ∃ s', s.enqueue call = .ok s') :
      Starts env s tenantId key a call.newId (pinnedCandidate env call.request.input)
  | retry (actor : SpaceActor) (revision : ℕ) (job : KnowledgeJobRow) (mem : job ∈ s.jobs.jobs)
      (hasKey : HasKey tenantId key job)
      (accepted : ∃ result, s.jobs.retry actor job.id revision = .ok result) :
      Starts env s tenantId key (.retry actor job.id revision) job.id (s.pinned env job.id)

/-- No job with the key is put into the queue after another one with it has proposed its change
set, unless both are pinned to one candidate. -/
def SparesProposed (env : Env) (tenantId : Uuid) (key : String) (s : WorkerStore)
    (a : WorkerLabel) : Prop :=
  ∀ jobId pinned, Starts env s tenantId key a jobId pinned → Spared s tenantId key jobId pinned

/-! ## The invariant -/

def PhaseSound (env : Env) (s : WorkerStore) (e : Execution) : Phase → Prop
  | .agent | .ended (.error _) => True
  | .ended (.ok ()) =>
    e.details.request.role = .gardener → ∃ row ∈ s.changeSets, row.jobId = e.jobId
  | .changeSet input =>
    input.candidateArtifactId = pinnedCandidate env e.details.request.input
  | .proposal _ | .dossier _ | .candidate _ _ | .followUp _ _ =>
    e.details.request.role ≠ .gardener

structure ExecutionSound (env : Env) (s : WorkerStore) (e : Execution) : Prop where
  known : ∃ job ∈ s.jobs.jobs, job.id = e.jobId
  details : s.details e.jobId = some e.details
  phase : PhaseSound env s e e.phase

structure Inv (env : Env) (tenantId : Uuid) (key : String) (s : WorkerStore) : Prop where
  jobs : s.jobs.Sound
  executions : ∀ e ∈ s.executions, ExecutionSound env s e
  owners : ∀ row ∈ s.changeSets, ∃ job ∈ s.jobs.jobs,
    job.id = row.jobId ∧ job.tenantId = row.tenantId
  succeeded : ∀ job ∈ s.jobs.jobs, job.status = .succeeded → IsGardener s job.id →
    ∃ row ∈ s.changeSets, row.jobId = job.id
  spared : ∀ job ∈ s.jobs.jobs, job.active → HasKey tenantId key job →
    Spared s tenantId key job.id (s.pinned env job.id)
  single : ∀ row ∈ s.changeSets, ∀ row' ∈ s.changeSets, Proposes s tenantId key row →
    Proposes s tenantId key row' → row = row'

variable {env : Env} {s s' : WorkerStore} {tenantId : Uuid} {key : String}

theorem inv_initial (access : Registry) (now : ℤ) : Inv env tenantId key (.initial access now) where
  jobs := KnowledgeJobStore.sound_initial access now
  executions _ he := absurd he not_mem_nil
  owners row hrow := absurd hrow (Table.not_mem_empty row)
  succeeded job hjob := absurd hjob (Table.not_mem_empty job)
  spared job hjob := absurd hjob (Table.not_mem_empty job)
  single row hrow := absurd hrow (Table.not_mem_empty row)

variable {researchJobId : Uuid}

theorem Inv.oneFollowUp (h : Inv env tenantId (gardenerKey researchJobId) s) :
    OneFollowUp s tenantId researchJobId where
  succeeded := by
    intro job hjob job' hjob' hkey hkey' hgardener hgardener' hstatus hstatus'
    obtain ⟨row, hrow, hid⟩ := h.succeeded job hjob hstatus hgardener
    obtain ⟨row', hrow', hid'⟩ := h.succeeded job' hjob' hstatus' hgardener'
    have hsame : row = row' :=
      h.single row hrow row' hrow' ⟨job, hjob, hid.symm, hkey⟩ ⟨job', hjob', hid'.symm, hkey'⟩
    apply Table.eq_of_key hjob hjob'
    rw [← hid, ← hid', hsame]
  proposed := h.single

/-! ## What keeps the invariant -/

variable {e : Execution} {phase : Phase}

theorem PhaseSound.mono (h : PhaseSound env s e phase)
    (hrows : ∀ row ∈ s.changeSets, row ∈ s'.changeSets) : PhaseSound env s' e phase := by
  cases phase with
  | ended result =>
    cases result with
    | error e => trivial
    | ok =>
      intro hrole
      obtain ⟨row, hrow, hid⟩ := h hrole
      exact ⟨row, hrows row hrow, hid⟩
  | _ => exact h

theorem ExecutionSound.mono (h : ExecutionSound env s e)
    (hjobs : ∀ job ∈ s.jobs.jobs, ∃ job' ∈ s'.jobs.jobs, job'.id = job.id)
    (hdetails : ∀ job ∈ s.jobs.jobs, s'.details job.id = s.details job.id)
    (hrows : ∀ row ∈ s.changeSets, row ∈ s'.changeSets) : ExecutionSound env s' e := by
  obtain ⟨job, hjob, hid⟩ := h.known
  obtain ⟨job', hjob', hid'⟩ := hjobs job hjob
  refine ⟨⟨job', hjob', hid'.trans hid⟩, ?_, h.phase.mono hrows⟩
  rw [← hid, hdetails job hjob, hid, h.details]

theorem Inv.setExecutions (h : Inv env tenantId key s) {executions : List Execution}
    (hsound : ∀ e ∈ executions, ExecutionSound env s e) :
    Inv env tenantId key { s with executions } where
  jobs := h.jobs
  executions e he := (hsound e he).mono (fun job hjob => ⟨job, hjob, rfl⟩) (fun _ _ => rfl)
    fun _ hrow => hrow
  owners := h.owners
  succeeded := h.succeeded
  spared := h.spared
  single := h.single

theorem Inv.setPhase (h : Inv env tenantId key s) {index : ℕ}
    (he : s.executions[index]? = some e) (hphase : PhaseSound env s e phase) :
    Inv env tenantId key (s.setPhase index e phase) := by
  apply h.setExecutions
  intro e' he'
  rcases mem_or_eq_of_mem_set he' with hmem | rfl
  · exact h.executions e' hmem
  · have hsound := h.executions e (mem_of_getElem? he)
    exact ⟨hsound.known, hsound.details, hphase⟩

theorem Inv.remove (h : Inv env tenantId key s) (index : ℕ) :
    Inv env tenantId key (s.remove index) :=
  h.setExecutions fun e he => h.executions e (mem_of_mem_eraseIdx he)

variable {jobs : KnowledgeJobStore}

theorem Inv.advance (h : Inv env tenantId key s) {b : JobLabel} {details : Uuid → Option JobDetails}
    (hstep : (jobMachine env.limit).step s.jobs b = some jobs)
    (hdetails : ∀ job ∈ s.jobs.jobs, details job.id = s.details job.id)
    (hstart : ∀ job ∈ jobs.jobs, job.active → HasKey tenantId key job → b.subject = some job.id →
      s.jobs.activeJob tenantId key = none → Spared s tenantId key job.id
        ((details job.id).bind fun details => pinnedCandidate env details.request.input))
    (hcomplete : ∀ jobId workerId usedTokens usedSources,
      b = .complete jobId workerId usedTokens usedSources → IsGardener s jobId →
      ∃ row ∈ s.changeSets, row.jobId = jobId) :
    Inv env tenantId key { s with jobs, details } := by
  have hrows := (KnowledgeJobStore.step_effect hstep).rows
  have hstays : ∀ job ∈ s.jobs.jobs, ∃ job' ∈ jobs.jobs, job'.id = job.id ∧
      job'.tenantId = job.tenantId ∧ job'.idempotencyKey = job.idempotencyKey := by
    intro job hjob
    obtain ⟨job', hjob', hchange⟩ := hrows.stays job hjob
    exact ⟨job', hjob', hchange.fixed.1, hchange.fixed.2.1, hchange.fixed.2.2.1⟩
  -- a change set that a job with the key has proposed was proposed by one before
  have hproposes : ∀ row ∈ s.changeSets,
      Proposes { s with jobs, details } tenantId key row →
      Proposes s tenantId key row := by
    rintro row hrow ⟨job', hjob', hid', hkey'⟩
    obtain ⟨job, hjob, hid, -⟩ := h.owners row hrow
    obtain ⟨job'', hjob'', hid'', htenant, hname⟩ := hstays job hjob
    have hsame : job'' = job' := Table.eq_of_key hjob'' hjob' (by rw [hid'', hid, hid'])
    subst hsame
    exact ⟨job, hjob, hid, htenant.symm.trans hkey'.1, hname.symm.trans hkey'.2⟩
  have hspared : ∀ {jobId : Uuid} {pinned : Option Uuid}, Spared s tenantId key jobId pinned →
      Spared { s with jobs, details } tenantId key jobId pinned :=
    fun h row hrow hrow' => h row hrow (hproposes row hrow hrow')
  constructor
  · exact h.jobs.step (KnowledgeJobStore.step_effect hstep)
  · intro e he
    refine (h.executions e he).mono (fun job hjob => ?_) hdetails fun row hrow => hrow
    obtain ⟨job', hjob', hid, -⟩ := hstays job hjob
    exact ⟨job', hjob', hid⟩
  · intro row hrow
    obtain ⟨job, hjob, hid, htenant⟩ := h.owners row hrow
    obtain ⟨job', hjob', hid', htenant', -⟩ := hstays job hjob
    exact ⟨job', hjob', hid'.trans hid, htenant'.trans htenant⟩
  · rintro job' hjob' hstatus ⟨d, hd, hrole⟩
    obtain ⟨job, hjob, hid⟩ : ∃ job ∈ s.jobs.jobs, job.id = job'.id := by
      rcases hrows.origin job' hjob' with ⟨job, hjob, hchange⟩ | ⟨call, -, rfl, -⟩
      · exact ⟨job, hjob, hchange.fixed.1.symm⟩
      · cases hstatus
    have hgardener : IsGardener s job.id := ⟨d, by rw [← hdetails job hjob, hid]; exact hd, hrole⟩
    rcases succeeded_origin hstep hjob' hstatus with ⟨job₁, hjob₁, hid₁, hsucceeded⟩ | hlabel
    · rw [← hid₁]
      refine h.succeeded job₁ hjob₁ hsucceeded ?_
      rwa [hid₁, ← hid]
    · obtain ⟨workerId, usedTokens, usedSources, hlabel⟩ := hlabel
      exact hcomplete job'.id workerId usedTokens usedSources hlabel (hid ▸ hgardener)
  · intro job' hjob' hactive hkey
    rcases hrows.active_origin hjob' hactive with
      ⟨job, hjob, hjobActive, hid, htenant, hname⟩ | ⟨hfree, hsubject⟩
    · have hold := h.spared job hjob hjobActive
        ⟨htenant.symm.trans hkey.1, hname.symm.trans hkey.2⟩
      rw [WorkerStore.pinned, ← hdetails job hjob, ← hid] at hold
      exact hspared hold
    · rw [hkey.1, hkey.2] at hfree
      exact hspared (hstart job' hjob' hactive hkey hsubject hfree)
  · intro row hrow row' hrow' hp hp'
    exact h.single row hrow row' hrow' (hproposes row hrow hp) (hproposes row' hrow' hp')

theorem Inv.advance_of_subject (h : Inv env tenantId key s) {b : JobLabel}
    (hstep : (jobMachine env.limit).step s.jobs b = some jobs)
    (hsubject : b.subject = none) (hcomplete : ∀ jobId workerId usedTokens usedSources,
      b = .complete jobId workerId usedTokens usedSources → IsGardener s jobId →
      ∃ row ∈ s.changeSets, row.jobId = jobId) : Inv env tenantId key { s with jobs } := by
  refine @Inv.advance _ _ _ _ _ h _ s.details hstep (fun _ _ => rfl) ?_ hcomplete
  intro job _ _ _ hjob
  rw [hsubject] at hjob
  cases hjob

theorem Inv.retry (h : Inv env tenantId key s) (actor : SpaceActor) (jobId : Uuid) (revision : ℕ)
    (hspares : SparesProposed env tenantId key s (.retry actor jobId revision)) :
    Inv env tenantId key { s with jobs := s.jobs.after (s.jobs.retry actor jobId revision) } := by
  cases hcall : s.jobs.retry actor jobId revision with
  | error e => exact h
  | ok result =>
    rw [← hcall]
    refine @Inv.advance _ _ _ _ _ h (.retry actor jobId revision) s.details rfl
      (fun _ _ => rfl) ?_ (by simp)
    intro job hjob hactive hkey hsubject hfree
    obtain rfl : jobId = job.id := some.inj hsubject
    have heffect := @KnowledgeJobStore.retry_effect env.limit s.jobs actor job.id revision
    rcases heffect.rows.origin job hjob with ⟨job₀, hjob₀, hchange⟩ | ⟨call, hlabel, -⟩
    · obtain ⟨hid, htenant, hname, -⟩ := hchange.fixed
      rw [hid] at hcall hspares ⊢
      exact hspares job₀.id _ (.retry actor revision job₀ hjob₀
        ⟨htenant.symm.trans hkey.1, hname.symm.trans hkey.2⟩ ⟨result, hcall⟩)
    · cases hlabel

variable {call : EnqueueCall}

theorem enqueue_ok (h : s.enqueue call = .ok s') :
    s' = s ∨ ∃ jobs, s.jobs.enqueue call = .ok (jobs, .new call.newId call.actor.tenantId
        s.jobs.now call.request) ∧
      s.jobs.activeJob call.actor.tenantId call.request.idempotencyKey = none ∧
      s.jobs.jobs.get call.newId = none ∧ s' = { s with
        jobs
        details :=
          Function.update s.details call.newId (some ⟨call.actor, call.request⟩) } := by
  obtain ⟨⟨jobs, job⟩, hcall, hs'⟩ := bind_eq_ok.1 h
  obtain rfl := Except.ok.inj hs'
  obtain ⟨⟨⟩, -, ⟨⟩, -, h₂⟩ := bind₂_eq_ok.1 hcall
  obtain ⟨⟨⟩, -, h₃⟩ := bind_eq_ok.1 h₂
  split at h₃
  · rename_i found hfound
    have hmem : found ∈ s.jobs.jobs := mem_of_find?_eq_some hfound
    have hget : s.jobs.jobs.get found.id = some found := Table.get_eq_some.2 ⟨hmem, rfl⟩
    cases h₃
    left
    simp [hget]
  · rename_i hfree
    dsimp only at h₃
    split at h₃
    · cases h₃
    · rename_i table htable
      cases h₃
      have hget : s.jobs.jobs.get call.newId = none := (Table.insert_eq_some.1 htable).1
      refine .inr ⟨_, hcall, hfree, hget, ?_⟩
      simp [KnowledgeJobRow.new, hget]

variable {a : WorkerLabel}

theorem Inv.enqueue (h : Inv env tenantId key s)
    (hmade : startedCall env s a = some call) (hspares : SparesProposed env tenantId key s a)
    (hcall : s.enqueue call = .ok s') : Inv env tenantId key s' := by
  rcases enqueue_ok hcall with rfl | ⟨jobs, hjobs, hfree, hget, hs'⟩
  · exact h
  · have hne : ∀ job ∈ s.jobs.jobs, job.id ≠ call.newId := Table.get_eq_none.1 hget
    have hstep : (jobMachine env.limit).step s.jobs (.enqueue call) = some jobs := by
      show some (s.jobs.after (s.jobs.enqueue call)) = some jobs
      rw [hjobs]
      rfl
    rw [hs']
    refine h.advance hstep (fun job hjob => Function.update_of_ne (hne job hjob) _ _) ?_ (by simp)
    intro job hjob hactive hkey hsubject hkeyFree
    obtain hid : call.newId = job.id := some.inj hsubject
    rw [← hid, Function.update_self]
    rcases (KnowledgeJobStore.step_effect hstep).rows.origin job hjob with
      ⟨job₀, hjob₀, hchange⟩ | ⟨call', hlabel, hrow, -⟩
    · exact absurd (hchange.fixed.1.symm.trans hid.symm) (hne job₀ hjob₀)
    · cases hlabel
      subst hrow
      exact hspares call.newId _ (.enqueue a call hmade hkey.1 hkey.2 hkeyFree ⟨s', hcall⟩)

variable {workerId : String}

theorem appendArtifact_ok {jobId newId artifactId : Uuid} {input : ArtifactInput}
    (h : s.appendArtifact env jobId workerId input newId = .ok (s', artifactId)) :
    ∃ artifacts, s' = { s with artifacts } := by
  obtain ⟨⟨⟩, -, job, -, h₂⟩ := bind₂_eq_ok.1 h
  obtain ⟨⟨⟩, -, h₃⟩ := bind_eq_ok.1 h₂
  dsimp only at h₃
  split at h₃
  · cases h₃
    exact ⟨_, rfl⟩
  · split at h₃
    · cases h₃
    · cases h₃
      exact ⟨_, rfl⟩

theorem Inv.artifacts (h : Inv env tenantId key s) (artifacts : Table KnowledgeJobArtifactRow.id) :
    Inv env tenantId key { s with artifacts } where
  jobs := h.jobs
  executions e he := (h.executions e he).mono (fun job hjob => ⟨job, hjob, rfl⟩)
    (fun _ _ => rfl) fun _ hrow => hrow
  owners := h.owners
  succeeded := h.succeeded
  spared := h.spared
  single := h.single

variable {input : ChangeSetInput} {jobId newId : Uuid}

theorem appendChangeSet_ok (h : s.appendChangeSet env jobId workerId input newId = .ok s') :
    ∃ job, s.jobs.Owned job workerId ∧ job.id = jobId ∧
      ((s' = s ∧ ∃ row ∈ s.changeSets, row.jobId = job.id) ∨
        (∀ row ∈ s.changeSets, row.jobId ≠ job.id) ∧ s.taken job.tenantId input = false ∧
          ∃ changeSets, s.changeSets.insert
              ⟨newId, job.tenantId, job.id, job.spaceId, input⟩ = some changeSets ∧
            s' = { s with changeSets }) := by
  obtain ⟨⟨⟩, -, job, hjob, h₂⟩ := bind₂_eq_ok.1 h
  obtain ⟨⟨⟩, -, ⟨⟩, -, h₄⟩ := bind₂_eq_ok.1 h₂
  obtain ⟨⟨⟩, -, h₅⟩ := bind_eq_ok.1 h₄
  obtain ⟨howned, hid⟩ := KnowledgeJobStore.ownedRunningJob_eq_ok.1 hjob
  refine ⟨job, howned, hid, ?_⟩
  split_ifs at h₅ with hown htaken
  · cases h₅
    exact .inl ⟨rfl, by simpa [Table.mem_iff] using hown⟩
  · split at h₅
    · cases h₅
    · rename_i changeSets hinsert
      cases h₅
      exact .inr ⟨by simpa [Table.mem_iff] using hown, by simpa using htaken, changeSets, hinsert,
        rfl⟩

theorem candidate_ne_of_not_taken
    (h : s.taken tenantId input = false) {row : ProposedChangeSet} (hrow : row ∈ s.changeSets)
    (htenant : row.tenantId = tenantId) {candidateArtifactId : Uuid}
    (hcandidate : row.input.candidateArtifactId = some candidateArtifactId) :
    input.candidateArtifactId ≠ some candidateArtifactId := by
  intro hinput
  have hfree := List.any_eq_false.1 h row hrow
  simp [htenant, hcandidate, hinput] at hfree

theorem Inv.propose (h : Inv env tenantId key s)
    (hcall : s.appendChangeSet env jobId workerId input newId = .ok s')
    (hinput : input.candidateArtifactId = s.pinned env jobId) :
    Inv env tenantId key s' ∧ ∃ row ∈ s'.changeSets, row.jobId = jobId := by
  obtain ⟨job, howned, rfl, ⟨rfl, hrow⟩ | ⟨hnone, hfree, changeSets, hinsert, rfl⟩⟩ :=
    appendChangeSet_ok hcall
  · exact ⟨h, hrow⟩
  · have hmem := fun row => Table.mem_insert hinsert (x := row)
    have hactive : job.active := by simp [KnowledgeJobRow.active, howned.running]
    -- no change set of a job with the key is there yet
    have hfirst : HasKey tenantId key job → ∀ row ∈ s.changeSets,
        ¬ Proposes s tenantId key row := by
      intro hkey row hrow hproposes
      rcases h.spared job howned.mem hactive hkey row hrow hproposes with
        hid | ⟨candidateArtifactId, hcandidate, hpinned⟩
      · exact hnone row hrow hid
      · obtain ⟨owner, howner, hownerId, htenant⟩ := h.owners row hrow
        obtain ⟨owner', howner', hownerId', hkey', -⟩ := hproposes
        have hsame : owner' = owner :=
          Table.eq_of_key howner' howner (hownerId'.trans hownerId.symm)
        subst hsame
        refine candidate_ne_of_not_taken hfree hrow ?_ hcandidate (hinput.trans hpinned)
        rw [← htenant, hkey', hkey.1]
    have hown : ∀ {row : ProposedChangeSet}, row.jobId = job.id →
        Proposes { s with changeSets } tenantId key row → HasKey tenantId key job := by
      rintro row hid ⟨owner, howner, hownerId, hkey⟩
      obtain rfl := Table.eq_of_key howner howned.mem (hownerId.trans hid)
      exact hkey
    refine ⟨⟨h.jobs, fun e he => ?_, fun row hrow => ?_, fun job' hjob' hstatus hgardener => ?_,
      fun job' hjob' hactive' hkey row hrow hproposes => ?_,
      fun row hrow row' hrow' hp hp' => ?_⟩, _, (hmem _).2 (.inr rfl), rfl⟩
    · exact (h.executions e he).mono (fun job hjob => ⟨job, hjob, rfl⟩) (fun _ _ => rfl)
        fun row hrow => (hmem row).2 (.inl hrow)
    · rcases (hmem row).1 hrow with hold | rfl
      · exact h.owners row hold
      · exact ⟨job, howned.mem, rfl, rfl⟩
    · obtain ⟨row, hrow, hid⟩ := h.succeeded job' hjob' hstatus hgardener
      exact ⟨row, (hmem row).2 (.inl hrow), hid⟩
    · rcases (hmem row).1 hrow with hold | rfl
      · exact h.spared job' hjob' hactive' hkey row hold hproposes
      · left
        have hkey' := hown rfl hproposes
        rw [h.jobs.only_active job howned.mem job' hjob' hactive hactive'
          (hkey'.1.trans hkey.1.symm) (hkey'.2.trans hkey.2.symm)]
    · rcases (hmem row).1 hrow with hold | rfl
      · rcases (hmem row').1 hrow' with hold' | rfl
        · exact h.single row hold row' hold' hp hp'
        · exact absurd hp (hfirst (hown rfl hp') row hold)
      · rcases (hmem row').1 hrow' with hold' | rfl
        · exact absurd hp' (hfirst (hown rfl hp) row' hold')
        · rfl

/-! ## Steps -/

theorem Inv.write (h : Inv env tenantId key s) {index : ℕ} {answer : Answer}
    (he : s.executions[index]? = some e)
    (hspares : SparesProposed env tenantId key s (.write index answer))
    (hwrite : s.write env e answer = some (s', phase)) :
    Inv env tenantId key s' ∧ s'.executions = s.executions ∧ PhaseSound env s' e phase := by
  have hsound := h.executions e (mem_of_getElem? he)
  have hphase := hsound.phase
  unfold WorkerStore.write at hwrite
  cases hdue : e.phase with
  | agent | ended => simp [hdue] at hwrite
  | proposal input =>
    simp only [hdue] at hwrite hphase
    split at hwrite
    · cases hwrite
      exact ⟨h, rfl, trivial⟩
    · rename_i happend
      cases hwrite
      obtain ⟨artifacts, rfl⟩ := appendArtifact_ok happend
      exact ⟨h.artifacts artifacts, rfl, fun hrole => absurd hrole hphase⟩
  | dossier output =>
    simp only [hdue] at hwrite hphase
    split at hwrite
    · cases hwrite
      exact ⟨h, rfl, trivial⟩
    · rename_i happend
      cases hwrite
      obtain ⟨artifacts, rfl⟩ := appendArtifact_ok happend
      exact ⟨h.artifacts artifacts, rfl, hphase⟩
  | candidate output dossierArtifactId =>
    simp only [hdue] at hwrite hphase
    split at hwrite
    · cases hwrite
      exact ⟨h, rfl, trivial⟩
    · rename_i happend
      obtain ⟨artifacts, rfl⟩ := appendArtifact_ok happend
      split_ifs at hwrite
      · cases hwrite
        exact ⟨h.artifacts artifacts, rfl, hphase⟩
      · cases hwrite
        exact ⟨h.artifacts artifacts, rfl, fun hrole => absurd hrole hphase⟩
  | followUp dossierArtifactId candidateArtifactId =>
    simp only [hdue] at hwrite hphase
    split at hwrite
    · cases hwrite
      exact ⟨h, rfl, trivial⟩
    · rename_i s₁ henqueue
      cases hwrite
      obtain ⟨call, hmade, hcall⟩ := bind_eq_ok.1 henqueue
      have hstarted : startedCall env s (.write index answer) = some call := by
        simp [startedCall, he, hdue, hmade, Except.toOption]
      cases hresult : s.enqueue call with
      | error error => simp [hresult, Except.mapError] at hcall
      | ok s₁ =>
        obtain rfl : s₁ = s' := by simpa [hresult, Except.mapError] using hcall
        refine ⟨h.enqueue hstarted hspares hresult, ?_, fun hrole => absurd hrole hphase⟩
        rcases enqueue_ok hresult with rfl | ⟨jobs, -, -, -, rfl⟩ <;> rfl
  | changeSet input =>
    simp only [hdue] at hwrite hphase
    split at hwrite
    · cases hwrite
      exact ⟨h, rfl, trivial⟩
    · rename_i happend
      cases hwrite
      have hpinned : input.candidateArtifactId = s.pinned env e.jobId := by
        rw [WorkerStore.pinned, hsound.details, hphase]
        rfl
      obtain ⟨hinv, hrow⟩ := h.propose happend hpinned
      refine ⟨hinv, ?_, fun _ => hrow⟩
      obtain ⟨job, -, -, ⟨rfl, -⟩ | ⟨-, -, changeSets, -, rfl⟩⟩ := appendChangeSet_ok happend <;>
        rfl

theorem outputPhase_sound {output : AgentOutput}
    (h : WorkerStore.outputPhase env e output = some phase) : PhaseSound env s e phase := by
  unfold WorkerStore.outputPhase at h
  split at h
  · rename_i _ hrole
    cases h
    simp [PhaseSound, hrole]
  iterate 2
    · rename_i _ hrole
      split_ifs at h
      cases h
      simp [PhaseSound, hrole]
  · cases h
    rfl
  · cases h

theorem Inv.heartbeat (h : Inv env tenantId key s) (e : Execution) (update : HeartbeatUpdate)
    (detail : String) : Inv env tenantId key (s.heartbeat e update detail).1 ∧
      (s.heartbeat e update detail).1.executions = s.executions ∧
      PhaseSound env (s.heartbeat e update detail).1 e (s.heartbeat e update detail).2 := by
  unfold WorkerStore.heartbeat
  split
  · exact ⟨h, rfl, trivial⟩
  · rename_i jobs result hcall
    have hstep : (jobMachine env.limit).step s.jobs (.heartbeat e.jobId e.workerId update) =
        some jobs := by
      show some (s.jobs.after (s.jobs.heartbeat e.jobId e.workerId update)) = some jobs
      rw [hcall]
      rfl
    have hinv := h.advance_of_subject hstep rfl (by simp)
    dsimp only
    split_ifs <;> exact ⟨hinv, rfl, trivial⟩

theorem Inv.settle (h : Inv env tenantId key s) (he : e ∈ s.executions)
    {result : Except AgentExecutionError Unit} (hphase : e.phase = .ended result)
    (usedTokens usedSources : ℤ) :
      Inv env tenantId key (s.settle e usedTokens usedSources result) := by
  have hsound := h.executions e he
  cases result with
  | ok value =>
    refine h.advance_of_subject (b := .complete e.jobId e.workerId usedTokens usedSources) rfl rfl
      fun jobId _ _ _ hlabel hgardener => ?_
    obtain ⟨details, hdetails, hrole⟩ := hgardener
    cases hlabel
    have hdue := hsound.phase
    rw [hphase] at hdue
    obtain rfl := mem_unique hsound.details hdetails
    exact hdue hrole
  | error error =>
    simp only [WorkerStore.settle]
    split_ifs
    · exact h
    · exact h.advance_of_subject
        (b := .fail e.jobId e.workerId error.detail error.retryable) rfl rfl (by simp)

theorem mem_of_leaseNext {store store' : KnowledgeJobStore} {limit : Uuid → ℕ} {call : LeaseCall}
    {job : KnowledgeJobRow} (h : store.leaseNext limit call = .ok (store', some job)) :
    job ∈ store'.jobs := by
  obtain ⟨⟨⟩, -, hrest⟩ := bind_eq_ok.1 h
  split at hrest
  · cases hrest
  · rename_i found hfound
    cases hrest
    exact (Table.mem_put (r := found.lease store.now call.workerId call.leaseSeconds)
      (KnowledgeJobStore.candidate_spec hfound).1 rfl).2 (.inl rfl)

theorem Inv.lease (h : Inv env tenantId key s) (call : LeaseCall) :
    Inv env tenantId key (s.lease env call) := by
  unfold WorkerStore.lease
  have hstep : (jobMachine env.limit).step s.jobs (.leaseNext call) =
      some (s.jobs.after (s.jobs.leaseNext env.limit call)) := rfl
  have hinv := h.advance_of_subject hstep rfl (by simp)
  split
  · exact h
  · rename_i jobs hcall
    rw [hcall] at hinv
    exact hinv
  · rename_i jobs job hcall
    rw [hcall] at hinv
    apply hinv.setExecutions
    intro e he
    rcases mem_append.1 he with hold | hnew
    · exact hinv.executions e hold
    · obtain ⟨details, hdetails, rfl⟩ := map_eq_some_iff.1 (Option.mem_toList.1 hnew)
      exact ⟨⟨job, mem_of_leaseNext hcall, rfl⟩, hdetails, trivial⟩

theorem Inv.step (h : Inv env tenantId key s) (hspares : SparesProposed env tenantId key s a)
    (hstep : (workerMachine env).step s a = some s') : Inv env tenantId key s' := by
  cases a with
  | access registry =>
    cases hstep
    exact h.advance_of_subject (b := .access registry) rfl rfl (by simp)
  | tick elapsed =>
    cases hstep
    exact h.advance_of_subject (b := .tick elapsed) rfl rfl (by simp)
  | enqueue call =>
    dsimp only at hstep
    split at hstep
    · rename_i hcall
      cases hstep
      exact h.enqueue rfl hspares hcall
    · cases hstep
      exact h
  | requestCancel actor jobId revision =>
    cases hstep
    exact h.advance_of_subject (b := .requestCancel actor jobId revision) rfl rfl (by simp)
  | retry actor jobId revision =>
    cases hstep
    exact h.retry actor jobId revision hspares
  | leaseNext call =>
    cases hstep
    exact h.lease call
  | heartbeat index update detail =>
    obtain ⟨e, he, hrest⟩ := bind_eq_some_iff.1 hstep
    split at hrest
    · cases hrest
      obtain ⟨hinv, hsame, hphase⟩ := h.heartbeat e update detail
      exact hinv.setPhase (by rw [hsame, he]) hphase
    · cases hrest
  | output index output =>
    obtain ⟨e, he, hrest⟩ := bind_eq_some_iff.1 hstep
    split at hrest
    · obtain ⟨phase, hphase, rfl⟩ := map_eq_some_iff.1 hrest
      exact h.setPhase he (outputPhase_sound hphase)
    · cases hrest
  | write index answer =>
    obtain ⟨e, he, hrest⟩ := bind_eq_some_iff.1 hstep
    obtain ⟨⟨s₁, phase⟩, hwrite, rfl⟩ := map_eq_some_iff.1 hrest
    obtain ⟨hinv, hsame, hphase⟩ := h.write he hspares hwrite
    exact hinv.setPhase (by rw [hsame, he]) hphase
  | stop index error =>
    obtain ⟨e, he, rfl⟩ := map_eq_some_iff.1 hstep
    exact h.setPhase he trivial
  | settle index usedTokens usedSources =>
    obtain ⟨e, he, hrest⟩ := bind_eq_some_iff.1 hstep
    split at hrest
    · rename_i result hphase
      cases hrest
      exact (h.settle (mem_of_getElem? he) hphase usedTokens usedSources).remove index
    · cases hrest
  | crash index =>
    obtain ⟨e, -, rfl⟩ := map_eq_some_iff.1 hstep
    exact h.remove index

/-! ## Runs -/

/-- While no job with the key of its follow-up is enqueued after another has proposed its change
set, a research job has one Gardener that succeeds and one change set. -/
theorem one_follow_up_of_spares (env : Env) (access : Registry) (now : ℤ)
    (tenantId researchJobId : Uuid) {as : List WorkerLabel}
    (hrun : (workerMachine env).exec (.initial access now) as = some s)
    (hspares : (workerMachine env).Meets
      (SparesProposed env tenantId (gardenerKey researchJobId)) (.initial access now) as) :
    OneFollowUp s tenantId researchJobId := by
  have hinv : Inv env tenantId (gardenerKey researchJobId) s :=
    Machine.invariant_of_meets _ (fun s a s' h hC hstep => h.step hC hstep)
      (inv_initial access now) hspares hrun
  exact hinv.oneFollowUp

/-- The step puts no job into the queue, or nothing has been proposed yet. -/
def sparesProposed (s : WorkerStore) : WorkerLabel → Bool
  | .enqueue _ | .write _ _ | .retry _ _ _ => s.changeSets.rows.isEmpty
  | _ => true

theorem sparesProposed_of_test (h : sparesProposed s a) : SparesProposed env tenantId key s a := by
  intro jobId pinned hstarts row hrow
  have hempty : s.changeSets.rows = [] := by
    cases hstarts with
    | enqueue _ call hmade =>
      cases a with
      | enqueue | write => simpa [sparesProposed] using h
      | _ => cases hmade
    | retry => simpa [sparesProposed] using h
  rw [Table.mem_iff, hempty] at hrow
  cases hrow

/-- Ids are read back, and artifacts with different titles have different hashes. -/
def sampleEnv : Env where
  followup := fun _ => .ok none
  parse := fun text => [3, 21, 22].find? fun id => Uuid.toText id = text
  jsonHash := fun value => ((Json.get "title" value).bind Json.asStr).getD ""
  limit := fun _ => 4

def sampleResearch (title : String) : AgentOutput :=
  .research
    { title
      summary := ""
      payload := .object []
      candidateTitle := title
      candidateSummary := ""
      citations := .array [.object [("source_id", .string (Uuid.toText 3))]]
      candidate := some ⟨.lesson, [], []⟩ }

def sampleGardener : AgentOutput :=
  .gardener
    { title := "A note"
      summary := ""
      operations := .array [.object [("op", .string "create_note")]]
      citations := .array []
      gitRevision := "head" }

def sampleAnswer (newId : Uuid) : Answer where
  newId := newId
  sourceIds := .ok [3]
  pinned := .ok ()
  detail := "refused"

def sampleResearchRun (workerId title : String) (dossier candidate gardener : Uuid) :
    List WorkerLabel :=
  [.leaseNext ⟨workerId, 60, [], []⟩, .output 0 (sampleResearch title),
    .write 0 (sampleAnswer dossier), .write 0 (sampleAnswer candidate),
    .write 0 (sampleAnswer gardener)]

/-- A worker takes the Gardener's job, proposes a change set and completes the job. -/
def sampleGardenerRun (workerId : String) (index : ℕ) (changeSet : Uuid) : List WorkerLabel :=
  [.leaseNext ⟨workerId, 60, [], []⟩, .output index sampleGardener,
    .write index (sampleAnswer changeSet), .settle index 10 1]

def sampleEnqueue : WorkerLabel :=
  .enqueue
    { actor := ⟨1, 2⟩
      request :=
        { spaceId := 5
          role := .researcher
          priority := 0
          input := .object [("question", .string "why")]
          idempotencyKey := "question"
          sourceIds := [3]
          runtime := { sampleRuntime with promptContractRevision := "researcher-v2" }
          bundleRole := none
          budget := ⟨1000, 10, 60, 3⟩
          scheduledAt := none }
      pinned := .ok ()
      newId := 1 }

def sampleRun : List WorkerLabel :=
  sampleEnqueue :: sampleResearchRun "w1" "first" 11 21 101 ++ [.settle 0 10 1] ++
    sampleGardenerRun "w2" 0 201

theorem one_follow_up_sample :
    ∃ s, (workerMachine sampleEnv).exec (.initial sampleAccess 0) sampleRun = some s ∧
      (s.jobs.jobs.rows.map fun job => (job.id, job.status)) =
        [(1, .succeeded), (101, .succeeded)] ∧
      s.changeSets.rows.map (·.jobId) = [101] ∧ OneFollowUp s 1 1 := by
  have hrows : ((workerMachine sampleEnv).exec (.initial sampleAccess 0) sampleRun).map
      (fun s => (s.jobs.jobs.rows.map fun job => (job.id, job.status),
        s.changeSets.rows.map (·.jobId))) =
        some ([(1, .succeeded), (101, .succeeded)], [101]) := by decide +kernel
  have hmeets : (workerMachine sampleEnv).Meets (SparesProposed sampleEnv 1 (gardenerKey 1))
      (.initial sampleAccess 0) sampleRun :=
    Machine.meets_of_meetsTest _ (fun _ _ => sparesProposed_of_test) (by decide +kernel)
  obtain ⟨s, hs, hrows⟩ := map_eq_some_iff.1 hrows
  exact ⟨s, hs, congrArg Prod.fst hrows, congrArg Prod.snd hrows,
    one_follow_up_of_spares _ _ _ _ _ hs hmeets⟩

/-- The Researcher's worker is gone after its Gardener has succeeded; the next one enqueues a second
Gardener for another dossier. -/
def sampleRerun : List WorkerLabel :=
  sampleEnqueue :: sampleResearchRun "w1" "first" 11 21 101 ++ sampleGardenerRun "w2" 1 201 ++
    [.crash 0, .tick 60000000] ++ sampleResearchRun "w3" "second" 12 22 102 ++
    [.settle 0 10 1] ++ sampleGardenerRun "w4" 0 202

def succeededFollowUps (s : WorkerStore) (tenantId researchJobId : Uuid) : List Uuid :=
  (s.jobs.jobs.rows.filter fun job =>
    job.tenantId = tenantId && job.idempotencyKey = gardenerKey researchJobId &&
      (s.details job.id).any (fun details => details.request.role = .gardener) &&
      job.status = .succeeded).map (·.id)

theorem OneFollowUp.eq_of_mem (h : OneFollowUp s tenantId researchJobId)
    {id id' : Uuid} (hid : id ∈ succeededFollowUps s tenantId researchJobId)
    (hid' : id' ∈ succeededFollowUps s tenantId researchJobId) : id = id' := by
  have hjob : ∀ {id : Uuid}, id ∈ succeededFollowUps s tenantId researchJobId →
      ∃ job ∈ s.jobs.jobs, job.id = id ∧ HasKey tenantId (gardenerKey researchJobId) job ∧
        IsGardener s job.id ∧ job.status = .succeeded := by
    intro id hid
    obtain ⟨job, hmem, rfl⟩ := List.mem_map.1 hid
    obtain ⟨hjob, hguard⟩ := List.mem_filter.1 hmem
    simp only [Bool.and_eq_true, decide_eq_true_eq, Option.any_eq_true] at hguard
    exact ⟨job, hjob, rfl, ⟨hguard.1.1.1, hguard.1.1.2⟩, hguard.1.2, hguard.2⟩
  obtain ⟨job, hmem, rfl, hkey, hgardener, hstatus⟩ := hjob hid
  obtain ⟨job', hmem', rfl, hkey', hgardener', hstatus'⟩ := hjob hid'
  rw [h.succeeded job hmem job' hmem' hkey hkey' hgardener hgardener' hstatus hstatus']

theorem not_one_follow_up_of_rerun :
    ∃ s, (workerMachine sampleEnv).exec (.initial sampleAccess 0) sampleRerun = some s ∧
      s.changeSets.rows.map (·.jobId) = [101, 102] ∧ ¬ OneFollowUp s 1 1 := by
  have hrows : ((workerMachine sampleEnv).exec (.initial sampleAccess 0) sampleRerun).map
      (fun s => (s.changeSets.rows.map (·.jobId), succeededFollowUps s 1 1)) =
        some ([101, 102], [101, 102]) := by decide +kernel
  obtain ⟨s, hs, hrows⟩ := map_eq_some_iff.1 hrows
  have hsucceeded : succeededFollowUps s 1 1 = [101, 102] := congrArg Prod.snd hrows
  refine ⟨s, hs, congrArg Prod.fst hrows, fun h => ?_⟩
  have hsame : (101 : Uuid) = 102 :=
    h.eq_of_mem (hsucceeded ▸ mem_cons_self) (hsucceeded ▸ mem_cons_of_mem _ mem_cons_self)
  revert hsame
  decide

end Gadgetron.Jobs.Worker
