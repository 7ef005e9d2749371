import Gadgetron.Host.BrokerClient
import Gadgetron.Lib.Window

/-!
# Broker channels

`serve_broker_channel`: the loop that answers the requests of one bundle. A window over the message
ids of the accepted requests guards against repetitions.
-/

namespace Gadgetron.Host

open Lib List Option

structure SubjectRevisionRef where
  (ownerBundle kind stableId revision : String)
  deriving DecidableEq

/-- `BrokerRequest`, with the fields that its response has to repeat; `D` is the other data. -/
inductive BrokerRequest (D : Type)
  | probe (permissionId resource : String)
  | databaseSelect (data : D)
  | databaseInsert (data : D)
  | databaseUpdate (data : D)
  | databaseDelete (data : D)
  | sshExecute (targetId operationId : String) (data : D)
  | intelligenceContext (queryId : String) (subject : SubjectRevisionRef) (data : D)
  | outcomeFeedback (feedbackId : String) (data : D)
  | knowledgeCollection (data : D)
  deriving DecidableEq

/-- `BrokerResponse`, with the fields that repeat those of its request. -/
inductive BrokerResponse (D : Type)
  | probe (permissionId resource : String) (data : D)
  | databaseRows (data : D)
  | databaseMutation (data : D)
  | sshExecution (targetId operationId : String) (data : D)
  | knowledgeContext (queryId : String) (subject : SubjectRevisionRef) (data : D)
  | outcomeFeedbackAccepted (feedbackId : String) (data : D)
  | knowledgeCollection (data : D)
  | error (data : D)

section

variable {D : Type}

def responseName : BrokerResponse D → String
  | .probe .. => "probe"
  | .databaseRows _ => "database_rows"
  | .databaseMutation _ => "database_mutation"
  | .sshExecution .. => "ssh_execution"
  | .knowledgeContext .. => "knowledge_context"
  | .outcomeFeedbackAccepted .. => "outcome_feedback_accepted"
  | .knowledgeCollection _ => "knowledge_collection"
  | .error _ => "error"

/-- The response that a request requires, in the words of `UnexpectedResponse`. -/
def expectedResponse : BrokerRequest D → String
  | .probe .. => "probe"
  | .databaseSelect _ => "database_rows"
  | .databaseInsert _ | .databaseUpdate _ | .databaseDelete _ => "database_mutation"
  | .sshExecute .. => "ssh_execution"
  | .intelligenceContext .. => "correlated knowledge_context"
  | .outcomeFeedback .. => "correlated outcome_feedback_accepted"
  | .knowledgeCollection _ => "knowledge_collection"

def validateResponseForRequest (request : BrokerRequest D) (response : BrokerResponse D) :
    Except BrokerHostError Unit :=
  let unexpected := .error (.unexpectedResponse (expectedResponse request) (responseName response))
  match request, response with
  | _, .error _ => .ok ()
  | .probe permissionId resource, .probe permissionId' resource' _ =>
    if permissionId ≠ permissionId' ∨ resource ≠ resource' then .error .probeCorrelationMismatch
    else .ok ()
  | .databaseSelect _, .databaseRows _ => .ok ()
  | .databaseInsert _, .databaseMutation _ => .ok ()
  | .databaseUpdate _, .databaseMutation _ => .ok ()
  | .databaseDelete _, .databaseMutation _ => .ok ()
  | .sshExecute targetId operationId _, .sshExecution targetId' operationId' _ =>
    if targetId ≠ targetId' ∨ operationId ≠ operationId' then .error .sshCorrelationMismatch
    else .ok ()
  | .intelligenceContext queryId subject _, .knowledgeContext queryId' subject' _ =>
    if queryId = queryId' ∧ subject = subject' then .ok () else unexpected
  | .outcomeFeedback feedbackId _, .outcomeFeedbackAccepted feedbackId' _ =>
    if feedbackId = feedbackId' then .ok () else unexpected
  | .knowledgeCollection _, .knowledgeCollection _ => .ok ()
  | _, _ => unexpected

end

/-! ## The loop -/

/-- The limits of a channel; the time limit of a request is left to how its handler ends. -/
structure BrokerChannelLimits where
  (maxFrameBytes messageIdWindow : UInt64)
  window_pos : 0 < messageIdWindow.toNat

def BrokerChannelLimits.new (maxFrameBytes messageIdWindow : UInt64) : BrokerChannelLimits where
  maxFrameBytes := max maxFrameBytes 1
  messageIdWindow := max messageIdWindow 1
  window_pos := by
    show 0 < (if messageIdWindow ≤ 1 then 1 else messageIdWindow).toNat
    split_ifs with h
    · decide
    · exact Nat.lt_trans Nat.one_pos (UInt64.lt_iff_toNat_lt.1 (UInt64.not_le.1 h))

/-- The parts of a broker channel that are not under `serve_broker_channel` itself. -/
structure BrokerConfig (D : Type) where
  identity : BundleRuntimeIdentity
  limits : BrokerChannelLimits
  /-- `BrokerRequest::validate`. -/
  validateRequest : BrokerRequest D → Except BundleSdkError Unit
  /-- `BrokerResponse::validate`. -/
  validateResponse : BrokerResponse D → Except BundleSdkError Unit
  /-- `serde_json::from_slice`. -/
  fromSlice : List UInt8 → Except String (Envelope (BrokerRequest D))
  /-- `serde_json::to_vec`. -/
  toVec : Envelope (BrokerResponse D) → Except String (List UInt8)

/-- The state of the loop.  `accepted` and `responses` record what it has done. -/
structure Serving (D : Type) where
  reader : BufReader UInt8
  seenMessageIds : OrdSet String
  messageIdOrder : List String
  written : List UInt8
  accepted : List String
  responses : List (Envelope (BrokerResponse D))
  ended : Option (Except BrokerHostError Unit)

inductive Pass (D : Type)
  /-- The channel fails before a frame is read. -/
  | readFails (error : String)
  /-- The handler returns, or does not in time; the channel takes the reply, or fails after some of
  its bytes. -/
  | serve (handled : Option (BrokerResponse D)) (failure : Option (ℕ × String))

section

variable {D : Type} (config : BrokerConfig D)

def Serving.initial (reader : BufReader UInt8) : Serving D :=
  ⟨reader, .empty, [], [], [], [], none⟩

def decodeRequest (frame : List UInt8) : Except BrokerHostError (Envelope (BrokerRequest D)) := do
  let request ← (config.fromSlice frame).mapError .json
  (request.validateBrokerRouting config.identity).mapError .contract
  (config.validateRequest request.payload).mapError .contract
  .ok request

def reply (request : Envelope (BrokerRequest D)) (handled : Option (BrokerResponse D)) :
    Except BrokerHostError (Envelope (BrokerResponse D) × List UInt8) := do
  let payload ← handled.elim (.error .handlerTimeout) .ok
  (config.validateResponse payload).mapError .contract
  validateResponseForRequest request.payload payload
  let response := Envelope.newBroker request.messageId config.identity payload
  (response.validateBrokerRouting config.identity).mapError .contract
  let encoded ← (config.toVec response).mapError .json
  let frame ← brokerReply config.limits.maxFrameBytes encoded
  .ok (response, frame)

def answer (s : Serving D) (request : Envelope (BrokerRequest D))
    (handled : Option (BrokerResponse D)) (failure : Option (ℕ × String)) : Serving D :=
  match reply config request handled, failure with
  | .error e, _ => { s with ended := some (.error e) }
  | .ok (response, frame), none =>
    { s with written := s.written ++ frame, responses := s.responses ++ [response] }
  | .ok (_, frame), some (taken, e) =>
    { s with written := s.written ++ frame.take taken, ended := some (.error (.io e)) }

/-- The middle of a pass: the duplicate check and the window. -/
def receive (s : Serving D) (request : Envelope (BrokerRequest D))
    (handled : Option (BrokerResponse D)) (failure : Option (ℕ × String)) : Serving D :=
  if request.messageId ∈ s.seenMessageIds then
    { s with ended := some (.error (.duplicateMessageId request.messageId)) }
  else
    let window := windowPush config.limits.messageIdWindow.toNat request.messageId
      s.seenMessageIds s.messageIdOrder
    answer config { s with
      seenMessageIds := window.1
      messageIdOrder := window.2
      accepted := s.accepted ++ [request.messageId] } request handled failure

def pass (s : Serving D) : Pass D → Serving D
  | .readFails e => { s with ended := some (.error (.io e)) }
  | .serve handled failure =>
    let read := readBrokerFrame config.limits.maxFrameBytes s.reader
    let s := { s with reader := read.2 }
    match read.1 with
    | .error e => { s with ended := some (.error e) }
    | .ok none => { s with ended := some (.ok ()) }
    | .ok (some frame) =>
      match decodeRequest config frame with
      | .error e => { s with ended := some (.error e) }
      | .ok request => receive config s request handled failure

/-- `serve_broker_channel`, a pass at a time. -/
abbrev channel : Machine (Serving D) (Pass D) where
  step s p := if s.ended.isSome then none else some (pass config s p)

/-! ## One pass -/

/-- A request is on the wire: its frame fits into the limit and passes the checks. -/
inductive Carries : List UInt8 → List (Envelope (BrokerRequest D)) → Prop
  | nil : Carries [] []
  | cons {payload rest : List UInt8} {request : Envelope (BrokerRequest D)}
      {requests : List (Envelope (BrokerRequest D))} (line : newline ∉ payload)
      (readable : Readable config.limits.maxFrameBytes payload)
      (decoded : decodeRequest config payload = .ok request) (tail : Carries rest requests) :
      Carries (payload ++ [newline] ++ rest) (request :: requests)

def IsReplyFrame (response : Envelope (BrokerResponse D)) (frame : List UInt8) : Prop :=
  ∃ encoded, config.toVec response = .ok encoded ∧
    brokerReply config.limits.maxFrameBytes encoded = .ok frame

def Serving.stop (s : Serving D) (reader : BufReader UInt8)
    (result : Except BrokerHostError Unit) : Serving D :=
  { s with reader, ended := some result }

/-- The state once a request is accepted. -/
def Serving.accept (s : Serving D) (reader : BufReader UInt8) (id : String) : Serving D :=
  let window := windowPush config.limits.messageIdWindow.toNat id s.seenMessageIds s.messageIdOrder
  { s with
    reader
    seenMessageIds := window.1
    messageIdOrder := window.2
    accepted := s.accepted ++ [id] }

variable {config} {s s' : Serving D}

theorem running_of_step {p : Pass D} (h : (channel config).step s p = some s') :
    s.ended = none ∧ s' = pass config s p := by
  cases hended : s.ended with
  | none => exact ⟨rfl, by simpa [hended] using h.symm⟩
  | some result => simp [hended] at h

theorem reply_eq_ok {request : Envelope (BrokerRequest D)} {handled : Option (BrokerResponse D)}
    {response : Envelope (BrokerResponse D)} {frame : List UInt8}
    (h : reply config request handled = .ok (response, frame)) :
    response.messageId = request.messageId ∧ IsReplyFrame config response frame := by
  unfold reply at h
  obtain ⟨payload, -, -, -, h⟩ := bind₂_eq_ok.1 h
  obtain ⟨-, -, -, -, h⟩ := bind₂_eq_ok.1 h
  obtain ⟨encoded, hencoded, frame', hframe, h⟩ := bind₂_eq_ok.1 h
  obtain ⟨rfl, rfl⟩ := Prod.mk.inj (Except.ok.inj h)
  refine ⟨rfl, encoded, ?_, hframe⟩
  revert hencoded
  cases config.toVec _ with
  | error e => exact fun h => (by cases h)
  | ok encoded' => exact fun h => congrArg Except.ok (Except.ok.inj h)

def NoRepetition (e : BrokerHostError) : Prop := ∀ id, e ≠ .duplicateMessageId id

theorem errorsMeet_validateResponseForRequest (request : BrokerRequest D)
    (response : BrokerResponse D) :
    ErrorsMeet NoRepetition (validateResponseForRequest request response) := by
  unfold validateResponseForRequest
  split
  all_goals try split
  all_goals first
    | exact .ok _ _
    | exact .error fun _ => nofun

theorem errorsMeet_reply (request : Envelope (BrokerRequest D))
    (handled : Option (BrokerResponse D)) :
    ErrorsMeet NoRepetition (reply config request handled) := by
  refine .bind ?_ fun payload => .bind (.mapError (fun _ _ => nofun) _) fun _ =>
    .bind (errorsMeet_validateResponseForRequest _ _) fun _ =>
      .bind (.mapError (fun _ _ => nofun) _) fun _ => .bind (.mapError (fun _ _ => nofun) _)
        fun encoded => .bind ?_ fun _ => .ok _ _
  · cases handled with
    | none => exact .error fun _ => nofun
    | some payload => exact .ok _ _
  · unfold brokerReply frameOf
    split
    · exact .ok _ _
    · exact .error fun _ => nofun

theorem answer_cases (s : Serving D) (request : Envelope (BrokerRequest D))
    (handled : Option (BrokerResponse D)) (failure : Option (ℕ × String)) :
    (∃ response frame, response.messageId = request.messageId ∧
        IsReplyFrame config response frame ∧ answer config s request handled failure =
          { s with written := s.written ++ frame, responses := s.responses ++ [response] }) ∨
      ∃ e remainder, NoRepetition e ∧ answer config s request handled failure =
          { s with written := s.written ++ remainder, ended := some (.error e) } := by
  unfold answer
  cases hreply : reply config request handled with
  | error e => exact .inr ⟨e, [], errorsMeet_reply request handled e hreply, by simp⟩
  | ok result =>
    obtain ⟨response, frame⟩ := result
    obtain ⟨hid, hframe⟩ := reply_eq_ok hreply
    cases failure with
    | none => exact .inl ⟨response, frame, hid, hframe, rfl⟩
    | some failure => exact .inr ⟨.io failure.2, frame.take failure.1, fun _ => nofun, rfl⟩

variable {requests : List (Envelope (BrokerRequest D))}

theorem read_carries {reader : BufReader UInt8} (h : Carries config reader.bytes requests) :
    (requests = [] ∧ (readBrokerFrame config.limits.maxFrameBytes reader).1 = .ok none) ∨
      ∃ request rest payload, requests = request :: rest ∧
        (readBrokerFrame config.limits.maxFrameBytes reader).1 = .ok (some payload) ∧
        decodeRequest config payload = .ok request ∧
        Carries config (readBrokerFrame config.limits.maxFrameBytes reader).2.bytes rest := by
  generalize hbytes : reader.bytes = bytes at h
  cases h with
  | nil =>
    refine .inl ⟨rfl, ?_⟩
    show (finishFrame _ (readUntil newline _ reader).1).orNone _ _ = .ok none
    rw [readUntil_nil hbytes]
    rfl
  | @cons payload rest request requests line readable decoded tail =>
    obtain ⟨hframe, hrest⟩ := (readLimited_eq_frame_iff line hbytes).2 readable
    refine .inr ⟨request, requests, payload, rfl, ?_, decoded, ?_⟩
    · exact (orNone_eq_some_iff _).2 hframe
    · show Carries config (readLimited config.limits.maxFrameBytes reader).2.bytes requests
      rw [hrest]
      exact tail

theorem pass_cases (h : Carries config s.reader.bytes requests) (p : Pass D) :
    (∃ e, p = .readFails e ∧ pass config s p = s.stop s.reader (.error (.io e))) ∨
      (∃ reader, requests = [] ∧ pass config s p = s.stop reader (.ok ())) ∨
      ∃ request rest reader, requests = request :: rest ∧ Carries config reader.bytes rest ∧
        ((request.messageId ∈ s.seenMessageIds ∧
            pass config s p = s.stop reader (.error (.duplicateMessageId request.messageId))) ∨
          request.messageId ∉ s.seenMessageIds ∧ ∃ handled failure, pass config s p =
            answer config (s.accept config reader request.messageId) request handled failure) := by
  cases p with
  | readFails e => exact .inl ⟨e, rfl, rfl⟩
  | serve handled failure =>
    refine .inr ?_
    rcases read_carries h with ⟨hnil, hread⟩ | ⟨request, rest, payload, hcons, hread, hdecode, ht⟩
    · refine .inl ⟨(readBrokerFrame config.limits.maxFrameBytes s.reader).2, hnil, ?_⟩
      simp only [pass, hread]
      rfl
    · refine .inr ⟨request, rest, _, hcons, ht, ?_⟩
      simp only [pass, hread, hdecode, receive]
      by_cases hseen : request.messageId ∈ s.seenMessageIds
      · exact .inl ⟨hseen, if_pos hseen⟩
      · exact .inr ⟨hseen, handled, failure, if_neg hseen⟩

/-! ## Runs -/

/-- The replies are written one after the other, the last one perhaps in part. -/
def Written (config : BrokerConfig D) (s : Serving D) : Prop :=
  ∃ frames remainder, List.Forall₂ (IsReplyFrame config) s.responses frames ∧
    s.written = frames.flatten ++ remainder ∧ (s.ended = none → remainder = [])

/-- Every accepted request is answered, unless the loop failed at the last of them. -/
def Replied (s : Serving D) : Prop :=
  s.responses.map (·.messageId) = s.accepted ∨ ∃ e last, s.ended = some (.error e) ∧
    NoRepetition e ∧ s.accepted = s.responses.map (·.messageId) ++ [last]

/-- How far the loop has come with the requests on the wire. -/
structure Answered (config : BrokerConfig D) (requests : List (Envelope (BrokerRequest D)))
    (s : Serving D) : Prop where
  window : IsWindow config.limits.messageIdWindow.toNat s.accepted s.seenMessageIds s.messageIdOrder
  upcoming : s.ended = none → ∃ rest, Carries config s.reader.bytes rest ∧
    requests.map (·.messageId) = s.accepted ++ rest.map (·.messageId)
  accepted : s.accepted <+: requests.map (·.messageId)
  replied : Replied s
  finished : s.ended = some (.ok ()) → s.responses.map (·.messageId) = requests.map (·.messageId)
  written : Written config s

section

variable {requests : List (Envelope (BrokerRequest D))} {reader : BufReader UInt8}

theorem answered_initial (h : Carries config reader.bytes requests) :
    Answered config requests (.initial reader : Serving D) where
  window := isWindow_nil _
  upcoming _ := ⟨requests, h, rfl⟩
  accepted := nil_prefix
  replied := .inl rfl
  finished h := by cases h
  written := ⟨[], [], .nil, rfl, fun _ => rfl⟩

theorem Answered.replied_of_running (h : Answered config requests s) (hended : s.ended = none) :
    s.responses.map (·.messageId) = s.accepted := by
  rcases h.replied with hreplied | ⟨e, last, herror, -⟩
  · exact hreplied
  · rw [hended] at herror
    cases herror

theorem Answered.stop (h : Answered config requests s) (hended : s.ended = none)
    (reader : BufReader UInt8) {result : Except BrokerHostError Unit}
    (hresult : result = .ok () → s.accepted = requests.map (·.messageId)) :
    Answered config requests (s.stop reader result) where
  window := h.window
  upcoming hnone := by cases hnone
  accepted := h.accepted
  replied := .inl (h.replied_of_running hended)
  finished hok := by
    rw [← hresult (some.inj hok)]
    exact h.replied_of_running hended
  written := by
    obtain ⟨frames, remainder, hframes, hwritten, -⟩ := h.written
    exact ⟨frames, remainder, hframes, hwritten, fun hnone => (by cases hnone)⟩

variable {request : Envelope (BrokerRequest D)}

theorem Answered.answer (h : Answered config requests s) (hended : s.ended = none)
    {rest : List (Envelope (BrokerRequest D))} (htail : Carries config reader.bytes rest)
    (hrest : requests.map (·.messageId) = s.accepted ++ (request :: rest).map (·.messageId))
    (hnew : request.messageId ∉ s.seenMessageIds) (handled : Option (BrokerResponse D))
    (failure : Option (ℕ × String)) : Answered config requests
      (answer config (s.accept config reader request.messageId) request handled failure) := by
  have hwindow := h.window.push config.limits.window_pos hnew
  have hids : requests.map (·.messageId) =
      (s.accepted ++ [request.messageId]) ++ rest.map (·.messageId) := by
    rw [hrest, map_cons, List.append_assoc, singleton_append]
  have hreplied := h.replied_of_running hended
  obtain ⟨frames, remainder, hframes, hwritten, hremainder⟩ := h.written
  rw [hremainder hended, append_nil] at hwritten
  rcases answer_cases (s.accept config reader request.messageId) request handled failure with
    ⟨response, frame, hid, hframe, heq⟩ | ⟨e, remainder, hnorep, heq⟩
  · rw [heq]
    exact {
      window := hwindow
      upcoming := fun _ => ⟨rest, htail, hids⟩
      accepted := ⟨_, hids.symm⟩
      replied := by
        left
        show (s.responses ++ [response]).map (·.messageId) = s.accepted ++ [request.messageId]
        rw [map_append, hreplied, map_singleton, hid]
      finished := fun hok => by
        rw [show s.ended = some (.ok ()) from hok] at hended
        cases hended
      written := by
        refine ⟨frames ++ [frame], [], rel_append hframes (.cons hframe .nil), ?_, fun _ => rfl⟩
        show s.written ++ frame = _
        rw [hwritten, flatten_append, flatten_singleton, append_nil] }
  · rw [heq]
    exact {
      window := hwindow
      upcoming := fun hnone => by cases hnone
      accepted := ⟨_, hids.symm⟩
      replied := .inr ⟨e, request.messageId, rfl, hnorep, congrArg (· ++ [_]) hreplied.symm⟩
      finished := fun hok => by cases hok
      written := ⟨frames, remainder, hframes, congrArg (· ++ remainder) hwritten,
        fun hnone => (by cases hnone)⟩ }

theorem Answered.pass (h : Answered config requests s) (hended : s.ended = none) (p : Pass D) :
    Answered config requests (pass config s p) := by
  obtain ⟨rest, hwire, hrest⟩ := h.upcoming hended
  rcases pass_cases hwire p with ⟨e, -, heq⟩ | ⟨reader, rfl, heq⟩ |
    ⟨request, rest, reader, rfl, htail, ⟨hseen, heq⟩ | ⟨hnew, handled, failure, heq⟩⟩
  · rw [heq]
    exact h.stop hended _ fun hok => by cases hok
  · rw [heq]
    exact h.stop hended _ fun _ => by simpa using hrest.symm
  · rw [heq]
    exact h.stop hended _ fun hok => by cases hok
  · rw [heq]
    exact h.answer hended htail hrest hnew handled failure

theorem answered_of_exec (hwire : Carries config reader.bytes requests)
    {passes : List (Pass D)} (h : (channel config).exec (.initial reader) passes = some s) :
    Answered config requests s := by
  refine (channel config).invariant (fun s p s' hs hstep => ?_) (answered_initial hwire) h
  obtain ⟨hended, rfl⟩ := running_of_step hstep
  exact hs.pass hended p

theorem Answered.next_request (h : Answered config requests s)
    (hnext : requests[s.accepted.length]? = some request)
    {handled : Option (BrokerResponse D)} {failure : Option (ℕ × String)}
    (hstep : (channel config).step s (.serve handled failure) = some s') :
    (s'.ended = some (.error (.duplicateMessageId request.messageId)) ↔
        request.messageId ∈ s.seenMessageIds) ∧ (s'.accepted = s.accepted ++ [request.messageId] ↔
        request.messageId ∉ s.seenMessageIds) := by
  obtain ⟨hended, rfl⟩ := running_of_step hstep
  obtain ⟨rest, hwire, hrest⟩ := h.upcoming hended
  have hid : (rest.map (·.messageId))[0]? = some request.messageId := by
    have hmap : (requests.map (·.messageId))[s.accepted.length]? = some request.messageId := by
      rw [getElem?_map, hnext, map_some]
    rwa [hrest, getElem?_append_right (Nat.le_refl _), Nat.sub_self] at hmap
  rcases pass_cases hwire (.serve handled failure) with ⟨e, hp, -⟩ | ⟨reader, rfl, -⟩ |
    ⟨first, rest, reader, rfl, -, hfirst⟩
  · cases hp
  · cases hid
  · obtain hid : first.messageId = request.messageId := some.inj hid
    rw [hid] at hfirst
    rcases hfirst with ⟨hseen, heq⟩ | ⟨hnew, handled', failure', heq⟩
    · rw [heq]
      exact ⟨iff_of_true rfl hseen, iff_of_false (by simp [Serving.stop]) (fun hnew => hnew hseen)⟩
    · rw [heq]
      rcases answer_cases (s.accept config reader request.messageId) first handled' failure' with
        ⟨response, frame, -, -, heq⟩ | ⟨e, remainder, hnorep, heq⟩
      · rw [heq]
        refine ⟨iff_of_false (fun hdup => ?_) hnew, iff_of_true rfl hnew⟩
        have hdup : s.ended = some (.error (.duplicateMessageId request.messageId)) := hdup
        rw [hdup] at hended
        cases hended
      · rw [heq]
        refine ⟨iff_of_false (fun hdup => ?_) hnew, iff_of_true rfl hnew⟩
        exact hnorep _ (Except.error.inj (some.inj hdup))

end

end

/-- The queue and the set hold the last ids accepted, a request is refused as a repetition exactly
when its id is among them, and every accepted request gets one response with its id, in order,
unless the loop fails at the last of them. -/
theorem broker_window_and_replies {D : Type} (config : BrokerConfig D) {reader : BufReader UInt8}
    {requests : List (Envelope (BrokerRequest D))} (hwire : Carries config reader.bytes requests)
    {passes : List (Pass D)} {s : Serving D}
    (hrun : (channel config).exec (.initial reader) passes = some s) :
    let window := recent config.limits.messageIdWindow.toNat s.accepted
    (∀ id, id ∈ s.seenMessageIds ↔ id ∈ window) ∧ s.messageIdOrder = window ∧ window.Nodup ∧
      window.length = min s.accepted.length config.limits.messageIdWindow.toNat ∧
      s.accepted <+: requests.map (·.messageId) ∧
      (∀ request handled failure s', requests[s.accepted.length]? = some request →
        (channel config).step s (.serve handled failure) = some s' →
          (s'.ended = some (.error (.duplicateMessageId request.messageId)) ↔
              request.messageId ∈ window) ∧
            (s'.accepted = s.accepted ++ [request.messageId] ↔ request.messageId ∉ window)) ∧
      Replied s ∧ (s.ended = some (.ok ()) →
        s.responses.map (·.messageId) = requests.map (·.messageId)) ∧ Written config s := by
  intro window
  have h := answered_of_exec hwire hrun
  have horder : s.messageIdOrder = window := h.window.order_eq
  have hmem : ∀ id, id ∈ s.seenMessageIds ↔ id ∈ window := by
    intro id
    rw [h.window.mem_seen, horder]
  refine ⟨hmem, horder, horder ▸ h.window.nodup, length_recent _ _, h.accepted, ?_, h.replied,
    h.finished, h.written⟩
  intro request handled failure s' hnext hstep
  rw [← hmem]
  exact h.next_request hnext hstep

/-- The digits of probes and their message ids. -/
def probeIds : List (UInt8 × String) := [(49, "demo:1"), (50, "demo:2"), (51, "demo:3")]

def probeLine (digit : UInt8) : List UInt8 := probeHead ++ digit :: probeRequestTail

def probeRequest (id : String) : Envelope (BrokerRequest Unit) :=
  .newBroker id demoIdentity (.probe "read" "postgres:table:hosts")

def probeBroker : BrokerConfig Unit where
  identity := demoIdentity
  limits := .new 1048576 2
  validateRequest _ := .ok ()
  validateResponse _ := .ok ()
  fromSlice payload :=
    match probeIds.find? fun id => payload = probeLine id.1 with
    | some id => .ok (probeRequest id.2)
    | none => .error "expected value at line 1 column 1"
  toVec response :=
    match probeIds.find? fun id => response.messageId = id.2 with
    | some id => .ok (probeAnswer id.1)
    | none => .error "unknown probe"

def probeReader (ids : List (UInt8 × String)) : BufReader UInt8 :=
  ⟨ids.flatMap fun id => probeLine id.1 ++ [newline], [], by simp⟩

theorem carries_probes {ids : List (UInt8 × String)} (h : ∀ id ∈ ids, id ∈ probeIds) :
    Carries probeBroker (probeReader ids).bytes (ids.map (probeRequest ·.2)) := by
  have hline : ∀ id ∈ probeIds, newline ∉ probeLine id.1 := by decide +kernel
  have hreadable : ∀ id ∈ probeIds,
      Readable probeBroker.limits.maxFrameBytes (probeLine id.1) := by
    decide +kernel
  have hdecoded : ∀ id ∈ probeIds,
      decodeRequest probeBroker (probeLine id.1) = .ok (probeRequest id.2) := by
    decide +kernel
  simp only [probeReader, BufReader.bytes, flatten_nil, append_nil]
  induction ids with
  | nil => exact .nil
  | cons id ids ih =>
    obtain ⟨hid, hids⟩ := forall_mem_cons.1 h
    exact .cons (hline id hid) (hreadable id hid) (hdecoded id hid) (ih hids)

/-- The first probe comes again when it has left the window, and then at once. -/
def probeTwice : List (UInt8 × String) := probeIds ++ [(49, "demo:1"), (49, "demo:1")]

def probeReply : Pass Unit := .serve (some (.probe "read" "postgres:table:hosts" ())) none

theorem probe_window_and_replies : ∃ s s',
    (channel probeBroker).exec (.initial (probeReader probeTwice)) (.replicate 4 probeReply) =
        some s ∧
      s.accepted = ["demo:1", "demo:2", "demo:3", "demo:1"] ∧
      s.messageIdOrder = ["demo:3", "demo:1"] ∧
      s.messageIdOrder = recent probeBroker.limits.messageIdWindow.toNat s.accepted ∧ Replied s ∧
      (channel probeBroker).step s probeReply = some s' ∧
      s'.ended = some (.error (.duplicateMessageId "demo:1")) := by
  have hrun : ((channel probeBroker).exec (.initial (probeReader probeTwice))
      (.replicate 4 probeReply)).map
        (fun s =>
          (s.accepted, s.messageIdOrder, ((channel probeBroker).step s probeReply).isSome)) =
      some (["demo:1", "demo:2", "demo:3", "demo:1"], ["demo:3", "demo:1"], true) := by
    decide +kernel
  obtain ⟨s, hs, heq⟩ := map_eq_some_iff.1 hrun
  simp only [Prod.mk.injEq] at heq
  obtain ⟨haccepted, horder, hstep⟩ := heq
  obtain ⟨s', hs'⟩ := isSome_iff_exists.1 hstep
  obtain ⟨-, hwindow, -, -, -, hnext, hreplied, -⟩ :=
    broker_window_and_replies probeBroker (carries_probes (by decide)) hs
  refine ⟨s, s', hs, haccepted, horder, hwindow, hreplied, hs', ?_⟩
  refine ((hnext (probeRequest "demo:1") _ _ s' ?_ hs').1).2 ?_
  · rw [haccepted]
    rfl
  · rw [← hwindow, horder]
    exact mem_cons_of_mem _ (mem_singleton_self _)

/-- A request whose handler is out of time, or returns rows for a probe, gets no response. -/
theorem probe_without_response :
    Carries probeBroker (probeReader [(49, "demo:1")]).bytes [probeRequest "demo:1"] ∧
      ((channel probeBroker).exec (.initial (probeReader [(49, "demo:1")])) [.serve none none]).map
          (fun s => (s.accepted, s.written, s.ended)) =
        some (["demo:1"], [], some (.error .handlerTimeout)) ∧
      ((channel probeBroker).exec (.initial (probeReader [(49, "demo:1")]))
          [.serve (some (.databaseRows ())) none]).map (fun s => (s.accepted, s.written, s.ended)) =
        some (["demo:1"], [], some (.error (.unexpectedResponse "probe" "database_rows"))) :=
  ⟨carries_probes (by decide), by decide +kernel, by decide +kernel⟩

end Gadgetron.Host
