import Gadgetron.Core.Context
import Gadgetron.Core.Pricing
import Gadgetron.Lib.Exec
import Mathlib.Algebra.BigOperators.Group.List.Basic

/-!
# The cost of chat requests

What `handle_non_streaming` and `handle_streaming` pass to `record_post`, and the audit entries that
they and the `StreamEndGuard` emit.
-/

namespace Gadgetron.Chat

open Lib List

structure ChatRequest where
  (tenantId requestId : Uuid)
  model : String

structure Usage where
  (promptTokens completionTokens : UInt32)

inductive AuditStatus
  | ok
  | error

structure AuditEntry where
  (tenantId requestId : Uuid)
  model : String
  status : AuditStatus
  (inputTokens outputTokens : Int32)
  costCents : ℤ

def AuditEntry.free (request : ChatRequest) (status : AuditStatus) : AuditEntry :=
  ⟨request.tenantId, request.requestId, request.model, status, 0, 0, 0⟩

structure RecordPost where
  tenantId : Uuid
  actualCostCents : ℤ

/-! ## Streams -/

inductive StreamPoll
  | chunk (contents : List (Option String))
  | error

structure StreamEndState where
  completionTokensObserved : UInt32
  sawError : Bool

def StreamEndState.recordChunk (state : StreamEndState) (contents : List (Option String)) :
    StreamEndState :=
  match contents.head? with
  | some (some content) =>
    if content = "" ∨ state.completionTokensObserved = UInt32.ofNat (2 ^ 32 - 1) then state
    else { state with completionTokensObserved := state.completionTokensObserved + 1 }
  | _ => state

def StreamEndState.recordTerminalError (state : StreamEndState) : StreamEndState :=
  { state with sawError := true }

/-- What `GuardedStream::poll_next` records. -/
def StreamEndState.poll (state : StreamEndState) : StreamPoll → StreamEndState
  | .chunk contents => state.recordChunk contents
  | .error => state.recordTerminalError

structure GuardedStream where
  request : ChatRequest
  state : StreamEndState
  (accounted alreadyAmended : Bool)

/-- The entry of `StreamEndGuard::drop`. -/
def GuardedStream.amendment (stream : GuardedStream) : AuditEntry where
  tenantId := stream.request.tenantId
  requestId := stream.request.requestId
  model := stream.request.model
  status := if stream.state.sawError then .error else .ok
  inputTokens := 0
  outputTokens := stream.state.completionTokensObserved.toInt32
  costCents := computeCostCents stream.request.model 0
    stream.state.completionTokensObserved.toNat defaultPricingTable

/-! ## The accounts -/

inductive PlainOutcome
  /-- The handler is dropped before it comes to `record_post`. -/
  | dropped
  | failed
  /-- The provider answers; the handler may be dropped while it waits for `record_post`. -/
  | answered (usage : Usage) (interrupted : Bool)

/-- The calls of `record_post`, the emitted audit entries, and the streamed requests. -/
structure Spend where
  posts : List RecordPost
  entries : List AuditEntry
  streams : List GuardedStream

inductive SpendLabel
  /-- A plain request, through `handle_non_streaming`. -/
  | plain (request : ChatRequest) (outcome : PlainOutcome)
  /-- A streamed request gets its job and its guard. -/
  | dispatch (request : ChatRequest)
  /-- The task of a streamed request for the quota and the dispatch entry. -/
  | account (index : ℕ)
  | poll (index : ℕ) (poll : StreamPoll)
  /-- The stream is dropped, at its end or before. -/
  | drop (index : ℕ)

namespace Spend

def initial : Spend := ⟨[], [], []⟩

def plainCost (request : ChatRequest) (usage : Usage) : ℤ :=
  computeCostCents request.model usage.promptTokens.toNat usage.completionTokens.toNat
    defaultPricingTable

def handleNonStreaming (s : Spend) (request : ChatRequest) : PlainOutcome → Spend
  | .dropped => s
  | .failed => { s with entries := s.entries ++ [.free request .error] }
  | .answered usage interrupted =>
    let costCents := plainCost request usage
    let s := { s with posts := s.posts ++ [⟨request.tenantId, costCents⟩] }
    if interrupted then s
    else
      { s with entries := s.entries ++ [⟨request.tenantId, request.requestId, request.model, .ok,
          usage.promptTokens.toInt32, usage.completionTokens.toInt32, costCents⟩] }

def setStream (s : Spend) (index : ℕ) (stream : GuardedStream) : Spend :=
  { s with streams := s.streams.set index stream }

def step (s : Spend) : SpendLabel → Option Spend
  | .plain request outcome => some (s.handleNonStreaming request outcome)
  | .dispatch request =>
    some { s with streams := s.streams ++ [⟨request, ⟨0, false⟩, false, false⟩] }
  | .account index =>
    s.streams[index]?.bind fun stream =>
      if stream.accounted then none
      else
        some { s.setStream index { stream with accounted := true } with
          posts := s.posts ++ [⟨stream.request.tenantId, 0⟩]
          entries := s.entries ++ [.free stream.request .ok] }
  | .poll index poll =>
    s.streams[index]?.bind fun stream =>
      if stream.alreadyAmended then none
      else some (s.setStream index { stream with state := stream.state.poll poll })
  | .drop index =>
    s.streams[index]?.bind fun stream =>
      if stream.alreadyAmended then none
      else
        some { s.setStream index { stream with alreadyAmended := true } with
          entries := s.entries ++ [stream.amendment] }

abbrev machine : Machine Spend SpendLabel := ⟨step⟩

/-- The sum of the costs passed to `record_post` for a tenant. -/
def recorded (s : Spend) (tenantId : Uuid) : ℤ :=
  ((s.posts.filter (·.tenantId = tenantId)).map (·.actualCostCents)).sum

def audited (s : Spend) (tenantId : Uuid) : ℤ :=
  ((s.entries.filter (·.tenantId = tenantId)).map (·.costCents)).sum

/-! ## What a step does to the accounts -/

/-- By how much a step raises the audited costs of a tenant above the recorded ones. -/
def excess (s : Spend) (tenantId : Uuid) : SpendLabel → ℤ
  | .plain request (.answered usage true) =>
    if request.tenantId = tenantId then -plainCost request usage else 0
  | .drop index =>
    match s.streams[index]? with
    | some stream =>
      if stream.request.tenantId = tenantId then stream.amendment.costCents else 0
    | none => 0
  | _ => 0

def difference (s : Spend) (tenantId : Uuid) : ℤ := s.audited tenantId - s.recorded tenantId

section

variable {s s' : Spend} (tenantId : Uuid)

theorem audited_append (entry : AuditEntry) :
    audited { s with entries := s.entries ++ [entry] } tenantId =
      s.audited tenantId + if entry.tenantId = tenantId then entry.costCents else 0 := by
  unfold audited
  rw [filter_append, map_append, sum_append]
  congr 1
  by_cases h : entry.tenantId = tenantId
  · simp [h]
  · simp [h]

theorem recorded_append (post : RecordPost) :
    recorded { s with posts := s.posts ++ [post] } tenantId =
      s.recorded tenantId + if post.tenantId = tenantId then post.actualCostCents else 0 := by
  unfold recorded
  rw [filter_append, map_append, sum_append]
  congr 1
  by_cases h : post.tenantId = tenantId
  · simp [h]
  · simp [h]

theorem audited_append_free (request : ChatRequest) (status : AuditStatus) :
    audited { s with entries := s.entries ++ [.free request status] } tenantId =
      s.audited tenantId := by
  rw [audited_append]
  split_ifs
  · exact add_zero _
  · exact add_zero _

theorem recorded_append_zero (request : ChatRequest) :
    recorded { s with posts := s.posts ++ [⟨request.tenantId, 0⟩] } tenantId =
      s.recorded tenantId := by
  rw [recorded_append]
  simp

theorem difference_handleNonStreaming (request : ChatRequest) (outcome : PlainOutcome) :
    (s.handleNonStreaming request outcome).difference tenantId =
      s.difference tenantId + s.excess tenantId (.plain request outcome) := by
  unfold difference
  cases outcome with
  | dropped => simp [handleNonStreaming, excess]
  | failed =>
    show audited { s with entries := s.entries ++ [.free request .error] } tenantId -
      s.recorded tenantId = _
    rw [audited_append_free]
    exact (add_zero _).symm
  | answered usage interrupted =>
    have hpost := @recorded_append s tenantId ⟨request.tenantId, plainCost request usage⟩
    cases interrupted with
    | true =>
      show s.audited tenantId - recorded { s with
        posts := s.posts ++ [⟨request.tenantId, plainCost request usage⟩] } tenantId = _
      rw [hpost]
      simp only [excess]
      split_ifs
      all_goals omega
    | false =>
      have hentry := @audited_append s tenantId ⟨request.tenantId, request.requestId,
        request.model, .ok, usage.promptTokens.toInt32, usage.completionTokens.toInt32,
        plainCost request usage⟩
      show audited { s with entries := s.entries ++ [_] } tenantId - recorded { s with
        posts := s.posts ++ [⟨request.tenantId, plainCost request usage⟩] } tenantId = _
      rw [hpost, hentry]
      simp only [excess]
      omega

theorem difference_step {label : SpendLabel} (hstep : s.step label = some s') :
    s'.difference tenantId = s.difference tenantId + s.excess tenantId label := by
  cases label with
  | plain request outcome =>
    cases hstep
    exact difference_handleNonStreaming tenantId request outcome
  | dispatch request =>
    cases hstep
    exact (add_zero _).symm
  | account index =>
    obtain ⟨stream, -, hstep⟩ := Option.bind_eq_some_iff.1 hstep
    split_ifs at hstep
    cases hstep
    show audited { s with entries := s.entries ++ [.free stream.request .ok] } tenantId -
      recorded { s with posts := s.posts ++ [⟨stream.request.tenantId, 0⟩] } tenantId = _
    rw [audited_append_free, recorded_append_zero]
    exact (add_zero _).symm
  | poll index poll =>
    obtain ⟨stream, -, hstep⟩ := Option.bind_eq_some_iff.1 hstep
    split_ifs at hstep
    cases hstep
    exact (add_zero _).symm
  | drop index =>
    obtain ⟨stream, hstream, hstep⟩ := Option.bind_eq_some_iff.1 hstep
    split_ifs at hstep
    cases hstep
    have hentry := @audited_append s tenantId stream.amendment
    show audited { s with entries := s.entries ++ [stream.amendment] } tenantId -
      s.recorded tenantId = _
    rw [hentry]
    simp only [excess, hstream, difference]
    have htenant : stream.amendment.tenantId = stream.request.tenantId := rfl
    rw [htenant]
    omega

end

/-! ## Runs -/

/-- A step that costs the tenant nothing where the accounts go apart: a stream with too few counted
chunks for a cent, or a plain request dropped with too few tokens. -/
def Free (tenantId : Uuid) (s : Spend) : SpendLabel → Prop
  | .plain request (.answered usage true) => request.tenantId = tenantId →
    usage.promptTokens.toNat *
        (rateForModel defaultPricingTable request.model).inputCentsPerMillion +
      usage.completionTokens.toNat *
        (rateForModel defaultPricingTable request.model).outputCentsPerMillion < 1000000
  | .drop index => ∀ stream, s.streams[index]? = some stream →
    stream.request.tenantId = tenantId → stream.state.completionTokensObserved.toNat *
      (rateForModel defaultPricingTable stream.request.model).outputCentsPerMillion < 1000000
  | _ => True

theorem excess_eq_zero_iff {s : Spend} {tenantId : Uuid} {label : SpendLabel} :
    s.excess tenantId label = 0 ↔ Free tenantId s label := by
  unfold excess Free
  split
  · rename_i request usage
    by_cases htenant : request.tenantId = tenantId
    · rw [if_pos htenant, neg_eq_zero]
      unfold plainCost
      rw [computeCostCents_eq_zero]
      simp [htenant]
    · simp [htenant]
  · rename_i index
    cases hstream : s.streams[index]? with
    | none => simp
    | some stream =>
      by_cases htenant : stream.request.tenantId = tenantId
      · have hcost := computeCostCents_eq_zero stream.request.model 0
          stream.state.completionTokensObserved
        rw [UInt32.toNat_zero, Nat.zero_mul, Nat.zero_add] at hcost
        simp [htenant, GuardedStream.amendment, hcost]
      · simp [htenant]
  · rename_i hplain hdrop
    cases label with
    | plain request outcome =>
      cases outcome with
      | answered usage interrupted =>
        cases interrupted with
        | true => exact absurd rfl (hplain request usage)
        | false => simp
      | dropped | failed => simp
    | drop index => exact absurd rfl (hdrop index)
    | dispatch | account | poll => simp

/-- In every run, the recorded and the audited costs of a tenant are the same in every state just
when every step is free where the accounts go apart. -/
theorem recorded_eq_audited_iff {labels : List SpendLabel} {t : Spend}
    (hrun : machine.exec initial labels = some t) (tenantId : Uuid) :
    (∀ earlier s, earlier <+: labels → machine.exec initial earlier = some s →
        s.recorded tenantId = s.audited tenantId) ↔
      machine.Meets (Free tenantId) initial labels := by
  rw [machine.meets_iff_forall_reached (P := fun s => s.recorded tenantId = s.audited tenantId)
    (fun s label s' hs hstep => ?_) rfl hrun]
  have hdifference := difference_step tenantId hstep
  unfold difference at hdifference
  rw [← excess_eq_zero_iff]
  omega

/-- A request for a model at 7500 cents for a million output tokens. -/
def opusRequest : ChatRequest := ⟨1, 2, "claude-opus-4-7"⟩

def freeRun : List SpendLabel :=
  [.plain opusRequest (.answered ⟨1000, 1000⟩ false), .dispatch opusRequest, .account 0,
    .poll 0 (.chunk [some "a"]), .drop 0]

theorem freeRun_recorded : ∃ t, machine.exec initial freeRun = some t ∧
    t.recorded 1 = t.audited 1 ∧ t.recorded 1 = 9 := by
  obtain ⟨t, ht, hnine⟩ : ∃ t, machine.exec initial freeRun = some t ∧ t.recorded 1 = 9 :=
    ⟨_, rfl, by decide +kernel⟩
  have hmeets : machine.Meets (Free 1) initial freeRun := by
    refine .cons _ trivial rfl (.cons _ trivial rfl (.cons _ trivial rfl (.cons _ trivial rfl ?_)))
    refine ⟨?_, fun _ _ => trivial⟩
    rintro stream ⟨⟩ _
    decide +kernel
  exact ⟨t, ht, (recorded_eq_audited_iff ht 1).2 hmeets freeRun t prefix_rfl ht, hnine⟩

/-- A streamed request with 134 chunks is audited at a cent and recorded at none; a plain one with
as many output tokens is recorded at a cent. -/
theorem stream_audited_not_recorded : (machine.exec initial (.dispatch opusRequest :: .account 0 ::
        List.replicate 134 (.poll 0 (.chunk [some "a"])) ++ [.drop 0])).map
      (fun s => (s.recorded 1, s.audited 1)) = some (0, 1) ∧
    (machine.exec initial [.plain opusRequest (.answered ⟨0, 134⟩ false)]).map
      (fun s => (s.recorded 1, s.audited 1)) = some (1, 1) := by
  decide +kernel

end Spend

end Gadgetron.Chat
