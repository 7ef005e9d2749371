import Gadgetron.Host.Session

/-!
# Broker clients

`BundleBrokerClient::exchange`: the sibling of a host session on the side of the bundle.
-/

namespace Gadgetron.Host

open Lib Lib.Exchange List

/-- The parts of a broker client that are not under `exchange` itself. -/
structure ClientConfig (Req Resp : Type) where
  identity : BundleRuntimeIdentity
  maxFrameBytes : UInt64
  /-- `BrokerRequest::validate`. -/
  validateRequest : Req → Except BundleSdkError Unit
  /-- `BrokerResponse::validate`. -/
  validateResponse : Resp → Except BundleSdkError Unit
  /-- `serde_json::to_vec`. -/
  toVec : Envelope Req → Except String (List UInt8)
  /-- `serde_json::from_slice`. -/
  fromSlice : List UInt8 → Except String (Envelope Resp)

section

variable {Req Resp : Type} (config : ClientConfig Req Resp)

def clientMessageId (sequence : ℕ) : String := config.identity.id ++ ":" ++ toString sequence

/-- `exchange` up to the write of the request. -/
def prepareClientRequest (nextMessageId : ℕ) (payload : Req) :
    Except BrokerClientError (List UInt8) × ℕ :=
  match config.validateRequest payload with
  | .error e => (.error (.sdk e), nextMessageId)
  | .ok () =>
    let request := Envelope.newBroker (clientMessageId config nextMessageId) config.identity payload
    let written : Except BrokerClientError (List UInt8) := do
      (request.validateBrokerRouting config.identity).mapError .sdk
      let encoded ← (config.toVec request).mapError .json
      clientFrame config.maxFrameBytes encoded
    (written, saturatingSucc nextMessageId)

/-- The end of `read_frame`, and the checks of the response in front of that of its id. -/
def decodeReply (frame : List UInt8) : Except BrokerClientError (String × Resp) := do
  let payload ← (finishFrame config.maxFrameBytes frame).orFail .endOfStream
    (fun actual => .frameTooLarge actual config.maxFrameBytes.toNat) .unterminatedFrame
  let response ← (config.fromSlice payload).mapError .json
  (response.validateBrokerRouting config.identity).mapError .sdk
  .ok (response.messageId, response.payload)

/-- What `exchange` makes of a response. -/
def judgeReply (sequence _stale : ℕ) (messageId : String) (payload : Resp) :
    Option (Except BrokerClientError Resp) :=
  if messageId ≠ clientMessageId config sequence then
    some (.error (.messageIdMismatch (clientMessageId config sequence) messageId))
  else
    match config.validateResponse payload with
    | .error e => some (.error (.sdk e))
    | .ok () => some (.ok payload)

def brokerClient : Client UInt8 Req String Resp BrokerClientError where
  delim := newline
  limit := (config.maxFrameBytes + 1).toNat
  prepare := prepareClientRequest config
  messageId := clientMessageId config
  decode := decodeReply config
  judge := judgeReply config

abbrev ClientState (Resp : Type) := Channel UInt8 Resp BrokerClientError

theorem judgeReply_own {payload : Resp} (hvalid : config.validateResponse payload = .ok ())
    (sequence stale : ℕ) :
    judgeReply config sequence stale (clientMessageId config sequence) payload =
      some (.ok payload) := by
  unfold judgeReply
  rw [if_neg (by simp), hvalid]

theorem judgeReply_other {sequence other : ℕ} (h : other ≠ sequence) (stale : ℕ) (payload : Resp) :
    judgeReply config sequence stale (clientMessageId config other) payload =
      some (.error (.messageIdMismatch (clientMessageId config sequence)
        (clientMessageId config other))) :=
  if_pos fun heq => h (append_toString_injective _ heq)

theorem prepareClientRequest_next (n : ℕ) (payload : Req) :
    (prepareClientRequest config n payload).2 = n ∨
      (prepareClientRequest config n payload).2 = saturatingSucc n := by
  unfold prepareClientRequest
  cases config.validateRequest payload with
  | error e => exact .inl rfl
  | ok u => exact .inr rfl

theorem prepareClientRequest_written {n : ℕ} {payload : Req} {written : List UInt8}
    (h : (prepareClientRequest config n payload).1 = .ok written) :
    (prepareClientRequest config n payload).2 = saturatingSucc n := by
  unfold prepareClientRequest at h ⊢
  cases hvalid : config.validateRequest payload with
  | error e =>
    rw [hvalid] at h
    cases h
  | ok u => rfl

/-! ## Clients behind their answers -/

/-- No part at the end of an answer is an answer itself. -/
def Compact (text : List UInt8) : Prop :=
  ∀ tail ∈ text.tails, tail ≠ text → (decodeReply config (tail ++ [newline])).isOk = false

/-- The broker answers every written request with a valid response in one compact JSON text, and
the message counter has not run out. -/
def WellAnswered (s : ClientState Resp) : Event UInt8 Req Resp → Prop
  | .start request response text =>
    ∀ written, (prepareClientRequest config s.next request).1 = .ok written → s.next < maxU64 ∧
        IsAnswer (brokerClient config) (⟨s.next, response, text⟩ : Answer UInt8 Resp) ∧
        config.validateResponse response = .ok () ∧ Compact config text
  | _ => True

def Clear (s : ClientState Resp) : Prop := ∀ j, (j, Outcome.abandoned) ∉ s.ended

def Behind (s : ClientState Resp) (r : Reading UInt8) : Prop :=
  ∃ earlier own, s.unread = earlier ++ [own] ∧ s.sent.getLast? = some own ∧ own.seq = r.seq ∧
    (∀ a ∈ earlier, a.seq < r.seq) ∧ (earlier = [] ↔ Clear s) ∧ s.sent.length = s.ended.length + 1

structure Lagging (lost : List UInt8) (s : ClientState Resp) : Prop where
  framed : Framed (brokerClient config) lost s
  next_le : s.next ≤ maxU64
  lost_eq : Clear s → lost = []
  proper : ∀ a ∈ s.unread, config.validateResponse a.response = .ok () ∧ Compact config a.text ∧
    a.seq < s.next
  idle : s.reading = none → (s.unread = [] ↔ Clear s) ∧ s.sent.length = s.ended.length
  behind : ∀ r, s.reading = some r → Behind s r
  bounded : ∀ k outcome, (k, outcome) ∈ s.ended → k < s.ended.length
  ended : ∀ k result, (k, .returned result) ∈ s.ended →
    ((∃ own, s.sent[k]? = some own ∧ result = .ok own.response) ↔
      ∀ j < k, (j, Outcome.abandoned) ∉ s.ended)

variable {config}

theorem lagging_initial : Lagging config [] (Channel.initial 1 : ClientState Resp) where
  framed := framed_initial 1
  next_le := show 1 ≤ maxU64 by decide
  lost_eq := fun _ => rfl
  proper := fun a ha => by cases ha
  idle := fun _ => ⟨⟨fun _ _ h => (by cases h), fun _ => rfl⟩, rfl⟩
  behind := fun _ hr => by cases hr
  bounded := fun _ _ h => by cases h
  ended := fun _ _ h => by cases h

section

variable {lost : List UInt8} {s s' : ClientState Resp} {result : Except BrokerClientError Resp}

theorem abandoned_mem_append_iff {ended : List (ℕ × Outcome BrokerClientError Resp)} {j k : ℕ} :
    (j, Outcome.abandoned) ∈ ended ++ [(k, .returned result)] ↔ (j, Outcome.abandoned) ∈ ended := by
  simp

section

variable (h : Lagging config lost s)

include h

theorem Lagging.bounded_append {last : ℕ × Outcome BrokerClientError Resp}
    (hlast : last.1 = s.ended.length) {k : ℕ}
    {outcome : Outcome BrokerClientError Resp} (hk : (k, outcome) ∈ s.ended ++ [last]) :
    k < (s.ended ++ [last]).length := by
  rw [List.length_append, List.length_singleton]
  rcases mem_append.1 hk with hk | hk
  · exact Nat.lt_succ_of_lt (h.bounded k outcome hk)
  · rw [← mem_singleton.1 hk] at hlast
    omega

theorem Lagging.ended_append {sent : List (Answer UInt8 Resp)}
    (hsent : ∀ k < s.ended.length, sent[k]? = s.sent[k]?)
    (last : ℕ × Outcome BrokerClientError Resp) (hlast : last.1 = s.ended.length) {k : ℕ}
    (hk : (k, .returned result) ∈ s.ended) :
    (∃ own, sent[k]? = some own ∧ result = .ok own.response) ↔
      ∀ j < k, (j, Outcome.abandoned) ∉ s.ended ++ [last] := by
  have hlt := h.bounded k _ hk
  rw [hsent k hlt, h.ended k result hk]
  refine forall₂_congr fun j hj => not_congr ?_
  rw [mem_append, mem_singleton]
  constructor
  · exact .inl
  · rintro (hmem | rfl)
    · exact hmem
    · omega

theorem Lagging.start {request : Req} {response : Resp}
    {text : List UInt8} (hcond : WellAnswered config s (.start request response text))
    (hstep : step (brokerClient config) s (.start request response text) = some s') :
    Lagging config lost s' := by
  have hframed := h.framed.start (fun written hw => (hcond written hw).2.1) hstep
  obtain ⟨hidle, ⟨e, next, hprep, rfl⟩ | ⟨written, next, hprep, rfl⟩⟩ := start_cases _ hstep
  · replace hprep : prepareClientRequest config s.next request = (.error e, next) := hprep
    have hnext : s.next ≤ next ∧ next ≤ maxU64 := by
      have hcases := prepareClientRequest_next config s.next request
      rw [hprep] at hcases
      have hle := h.next_le
      unfold saturatingSucc at hcases
      omega
    refine ⟨hframed, hnext.2, h.lost_eq, fun a ha => ?_, h.idle, h.behind, h.bounded, h.ended⟩
    obtain ⟨hvalid, hcompact, hlt⟩ := h.proper a ha
    exact ⟨hvalid, hcompact, lt_of_lt_of_le hlt hnext.1⟩
  · replace hprep : prepareClientRequest config s.next request = (.ok written, next) := hprep
    obtain ⟨hmax, -, hvalid, hcompact⟩ := hcond written (by rw [hprep])
    have hnext : next = s.next + 1 := by
      have hsucc := @prepareClientRequest_written _ _ config _ _ written (by rw [hprep])
      rw [hprep] at hsucc
      unfold saturatingSucc at hsucc
      omega
    obtain ⟨hclear, hlen⟩ := h.idle hidle
    refine ⟨hframed, show next ≤ maxU64 by omega, h.lost_eq, fun a ha => ?_,
      fun hnone => (by cases hnone), fun r hr => ?_, h.bounded, fun k result hk => ?_⟩
    · rcases mem_append.1 ha with ha | ha
      · obtain ⟨hvalid, hcompact, hlt⟩ := h.proper a ha
        exact ⟨hvalid, hcompact, show a.seq < next by omega⟩
      · rw [mem_singleton.1 ha]
        exact ⟨hvalid, hcompact, show s.next < next by omega⟩
    · cases hr
      refine ⟨s.unread, _, rfl, getLast?_concat, rfl, fun a ha => (h.proper a ha).2.2, hclear, ?_⟩
      show (s.sent ++ [_]).length = s.ended.length + 1
      rw [List.length_append, hlen]
      rfl
    · have hlt := h.bounded k _ hk
      show (∃ own, (s.sent ++ [_])[k]? = some own ∧ _) ↔ _
      rw [getElem?_append_left (by omega)]
      exact h.ended k result hk

theorem Lagging.arrive {count : ℕ}
    (hstep : step (brokerClient config) s (.arrive count) = some s') : Lagging config lost s' := by
  have hframed := h.framed.arrive hstep
  obtain rfl := Option.some.inj hstep
  exact ⟨hframed, h.next_le, h.lost_eq, h.proper, h.idle, h.behind, h.bounded, h.ended⟩

theorem Lagging.abandon (hstep : step (brokerClient config) s .abandon = some s') :
    Lagging config (lost ++ s.frame) s' := by
  have hframed := h.framed.abandon hstep
  obtain ⟨⟨r, hr⟩, rfl⟩ := abandon_cases _ hstep
  obtain ⟨earlier, own, hunread, -, -, -, -, hlen⟩ := h.behind r hr
  have hindex : s.sent.length - 1 = s.ended.length := by omega
  have hlate : ¬Clear (Channel.finish s .abandoned) := fun hclear =>
    hclear (s.sent.length - 1) (mem_append_right _ (mem_singleton_self _))
  refine ⟨hframed, h.next_le, fun hclear => absurd hclear hlate, h.proper, fun _ => ⟨?_, ?_⟩,
    fun r hr => (by cases hr), fun k outcome hk => ?_, fun k result hk => ?_⟩
  · refine ⟨fun hnil => ?_, fun hclear => absurd hclear hlate⟩
    replace hnil : s.unread = [] := hnil
    simp [hunread] at hnil
  · show s.sent.length = (s.ended ++ [_]).length
    rw [List.length_append, hlen]
    rfl
  · exact h.bounded_append hindex hk
  · rcases mem_append.1 hk with hk | hk
    · exact h.ended_append (fun _ _ => rfl) _ hindex hk
    · cases mem_singleton.1 hk

theorem Lagging.exists_verdict {r : Reading UInt8}
    (hr : s.reading = some r) {a : Answer UInt8 Resp} {unread : List (Answer UInt8 Resp)}
    (hunread : s.unread = a :: unread) {text : List UInt8} (htext : lost ++ text = a.text) :
    ∃ result, verdict (brokerClient config) r (text ++ [(brokerClient config).delim]) =
        some result ∧ ((∃ own, s.sent.getLast? = some own ∧ result = .ok own.response) ↔ Clear s) ∧
        (unread = [] ↔ Clear s) := by
  obtain ⟨earlier, own, hsplit, hlast, hseq, hlow, hclear, -⟩ := h.behind r hr
  obtain ⟨hvalid, hcompact, -⟩ := h.proper a (by simp [hunread])
  have hdecodes : decodeReply config (a.text ++ [newline]) =
      .ok (clientMessageId config a.seq, a.response) :=
    (h.framed.answers a (by simp [hunread])).decodes
  rw [hunread] at hsplit
  cases earlier with
  | nil =>
    -- nothing was abandoned, and the frame is the answer of the exchange
    obtain ⟨rfl, rfl⟩ := cons.inj hsplit
    have hok := hclear.1 rfl
    obtain rfl : text = a.text := by rw [← htext, h.lost_eq hok, nil_append]
    refine ⟨.ok a.response, ?_, ⟨fun _ => hok, fun _ => ⟨a, hlast, rfl⟩⟩,
      ⟨fun _ => hok, fun _ => rfl⟩⟩
    refine (verdict_of_ok hdecodes r).trans ?_
    rw [← hseq]
    exact judgeReply_own config hvalid a.seq r.stale
  | cons b earlier =>
    obtain ⟨rfl, rfl⟩ := cons.inj hsplit
    have hlate : ¬Clear s := fun hok => by cases hclear.2 hok
    suffices herror : ∃ e, verdict (brokerClient config) r
        (text ++ [(brokerClient config).delim]) = some (.error e) by
      obtain ⟨e, he⟩ := herror
      refine ⟨.error e, he, ⟨?_, fun hok => absurd hok hlate⟩, ⟨?_, fun hok => absurd hok hlate⟩⟩
      · rintro ⟨_, -, hresult⟩
        cases hresult
      · intro hnil
        simp at hnil
    by_cases hlost : lost = []
    · -- the whole answer of an earlier exchange
      obtain rfl : text = a.text := by rw [← htext, hlost, nil_append]
      have hne : a.seq ≠ r.seq := ne_of_lt (hlow a mem_cons_self)
      exact ⟨_, (verdict_of_ok hdecodes r).trans (judgeReply_other config hne r.stale a.response)⟩
    · -- what is left of an answer that an abandoned exchange had begun to read
      have hmem : text ∈ a.text.tails := (mem_tails _ _).2 ⟨lost, htext⟩
      have hne : text ≠ a.text := by
        intro heq
        rw [← heq] at htext
        exact hlost (append_left_eq_self.1 htext)
      have hfail := hcompact text hmem hne
      cases hdecode : decodeReply config (text ++ [newline]) with
      | error e => exact ⟨e, verdict_of_error hdecode r⟩
      | ok found =>
        rw [hdecode] at hfail
        cases hfail

theorem Lagging.read (hstep : step (brokerClient config) s .read = some s') :
    ∃ lost', Lagging config lost' s' := by
  obtain ⟨r, hr, -⟩ := read_cases _ hstep
  have hbehind := h.behind r hr
  obtain ⟨earlier, own, hsplit, hlast, -, -, -, hlen⟩ := hbehind
  obtain ⟨a, unread, hunread⟩ := exists_cons_of_ne_nil (l := s.unread) (by simp [hsplit])
  obtain ⟨r', hr', ⟨rfl, hframed⟩ | ⟨text, rest, htext, rfl, hframed⟩⟩ :=
    h.framed.read hunread hstep
  · rw [hr] at hr'
    cases hr'
    refine ⟨lost, hframed, h.next_le, h.lost_eq, h.proper, fun hnone => (by cases hnone),
      fun r' hr' => ?_, h.bounded, h.ended⟩
    cases hr'
    exact h.behind r hr
  · rw [hr] at hr'
    cases hr'
    obtain ⟨result, hverdict, hown, hnil⟩ := h.exists_verdict hr hunread htext
    rw [settle_of_some hverdict, hunread] at hframed ⊢
    have hindex : s.sent.length - 1 = s.ended.length := by omega
    refine ⟨[], hframed, h.next_le, fun _ => rfl, fun b hb => ?_, fun _ => ⟨?_, ?_⟩,
      fun r' hr' => (by cases hr'), fun k outcome hk => ?_, fun k result' hk => ?_⟩
    · exact h.proper b (by rw [hunread]; exact mem_cons_of_mem a hb)
    · show unread = [] ↔ _
      rw [hnil]
      exact forall_congr' fun j => not_congr abandoned_mem_append_iff.symm
    · show s.sent.length = (s.ended ++ [_]).length
      rw [List.length_append, hlen]
      rfl
    · exact h.bounded_append hindex hk
    · rcases mem_append.1 hk with hk | hk
      · exact h.ended_append (fun _ _ => rfl) _ hindex hk
      · cases mem_singleton.1 hk
        show (∃ own, s.sent[s.sent.length - 1]? = some own ∧ _) ↔
          ∀ j < s.sent.length - 1, _ ∉ s.ended ++ [_]
        rw [← getLast?_eq_getElem?, hown]
        constructor
        · intro hclear j _
          rw [abandoned_mem_append_iff]
          exact hclear j
        · intro hno j hj
          have hlt := h.bounded j _ hj
          exact hno j (by omega) (abandoned_mem_append_iff.2 hj)

theorem Lagging.step {event : Event UInt8 Req Resp}
    (hcond : WellAnswered config s event)
    (hstep : Exchange.step (brokerClient config) s event = some s') :
    ∃ lost', Lagging config lost' s' := by
  cases event with
  | start request response text => exact ⟨lost, h.start hcond hstep⟩
  | arrive count => exact ⟨lost, h.arrive hstep⟩
  | read => exact h.read hstep
  | abandon => exact ⟨_, h.abandon hstep⟩

end

end

/-! ## Runs -/

/-- An exchange whose answer is read returns it exactly when no earlier exchange was abandoned after
its request was written; and once all answers have arrived, the exchange under way reads one. -/
theorem client_returns_own_answer_iff (config : ClientConfig Req Resp)
    {events : List (Event UInt8 Req Resp)} {s : ClientState Resp}
    (hcond : (machine (brokerClient config)).Meets (WellAnswered config) (.initial 1) events)
    (hrun : (machine (brokerClient config)).exec (.initial 1) events = some s) :
    (∀ k result, (k, .returned result) ∈ s.ended →
      ((∃ own, s.sent[k]? = some own ∧ result = .ok own.response) ↔
        ∀ j < k, (j, Outcome.abandoned) ∉ s.ended)) ∧ (s.reading.isSome → s.coming = [] →
        ∃ s' result, (machine (brokerClient config)).step s .read = some s' ∧
          s'.ended = s.ended ++ [(s.sent.length - 1, .returned result)]) := by
  have hinitial : ∃ lost, Lagging config lost (.initial 1) := ⟨[], lagging_initial⟩
  obtain ⟨lost, hlagging⟩ := (machine (brokerClient config)).invariant_of_meets
    (I := fun s => ∃ lost, Lagging config lost s)
    (fun _ _ _ ⟨_, h⟩ hcond hstep => h.step hcond hstep) hinitial hcond hrun
  refine ⟨hlagging.ended, fun hreading hcoming => ?_⟩
  obtain ⟨r, hr⟩ := Option.isSome_iff_exists.1 hreading
  obtain ⟨earlier, own, hsplit, -⟩ := hlagging.behind r hr
  obtain ⟨a, unread, hunread⟩ := exists_cons_of_ne_nil (l := s.unread) (by simp [hsplit])
  obtain ⟨text, rest, htext, hstep⟩ := hlagging.framed.exists_settle hr hunread hcoming
  obtain ⟨result, hverdict, -, -⟩ := hlagging.exists_verdict hr hunread htext
  rw [settle_of_some hverdict] at hstep
  exact ⟨_, result, hstep, rfl⟩

end

/-! ## Two exchanges of a client -/

/-- The text `{"protocol_version":1,"message_id":"demo:`. -/
def probeHead : List UInt8 :=
  [123, 34, 112, 114, 111, 116, 111, 99, 111, 108, 95, 118, 101, 114, 115, 105, 111, 110, 34,
   58, 49, 44, 34, 109, 101, 115, 115, 97, 103, 101, 95, 105, 100, 34, 58, 34, 100, 101, 109,
   111, 58]

/-- The text after the message id of `probeRequest`. -/
def probeRequestTail : List UInt8 :=
  [34, 44, 34, 98, 117, 110, 100, 108, 101, 34, 58, 123, 34, 105, 100, 34, 58, 34, 100, 101,
   109, 111, 34, 44, 34, 118, 101, 114, 115, 105, 111, 110, 34, 58, 34, 49, 46, 48, 46, 48, 34,
   125, 44, 34, 112, 97, 121, 108, 111, 97, 100, 34, 58, 123, 34, 111, 112, 101, 114, 97, 116,
   105, 111, 110, 34, 58, 34, 112, 114, 111, 98, 101, 34, 44, 34, 112, 97, 114, 97, 109, 115,
   34, 58, 123, 34, 112, 101, 114, 109, 105, 115, 115, 105, 111, 110, 95, 105, 100, 34, 58, 34,
   114, 101, 97, 100, 34, 44, 34, 114, 101, 115, 111, 117, 114, 99, 101, 34, 58, 34, 112, 111,
   115, 116, 103, 114, 101, 115, 58, 116, 97, 98, 108, 101, 58, 104, 111, 115, 116, 115, 34,
   125, 125, 125]

/-- The text after the message id of `probeAnswer`. -/
def probeAnswerTail : List UInt8 :=
  [34, 44, 34, 98, 117, 110, 100, 108, 101, 34, 58, 123, 34, 105, 100, 34, 58, 34, 100, 101,
   109, 111, 34, 44, 34, 118, 101, 114, 115, 105, 111, 110, 34, 58, 34, 49, 46, 48, 46, 48, 34,
   125, 44, 34, 112, 97, 121, 108, 111, 97, 100, 34, 58, 123, 34, 114, 101, 115, 117, 108, 116,
   34, 58, 34, 112, 114, 111, 98, 101, 34, 44, 34, 100, 97, 116, 97, 34, 58, 123, 34, 112, 101,
   114, 109, 105, 115, 115, 105, 111, 110, 95, 105, 100, 34, 58, 34, 114, 101, 97, 100, 34, 44,
   34, 114, 101, 115, 111, 117, 114, 99, 101, 34, 58, 34, 112, 111, 115, 116, 103, 114, 101,
   115, 58, 116, 97, 98, 108, 101, 58, 104, 111, 115, 116, 115, 34, 44, 34, 114, 101, 97, 100,
   105, 110, 101, 115, 115, 34, 58, 34, 114, 101, 97, 100, 121, 34, 125, 125, 125]

def probeAnswer (digit : UInt8) : List UInt8 := probeHead ++ digit :: probeAnswerTail

def probeClient : ClientConfig Unit String where
  identity := demoIdentity
  maxFrameBytes := 1048576
  validateRequest _ := .ok ()
  validateResponse _ := .ok ()
  toVec envelope :=
    let digit := if envelope.messageId = "demo:1" then 49 else 50
    .ok (probeHead ++ digit :: probeRequestTail)
  fromSlice payload :=
    if payload = probeAnswer 49 then .ok (.newBroker "demo:1" demoIdentity "ready")
    else if payload = probeAnswer 50 then .ok (.newBroker "demo:2" demoIdentity "ready")
    else .error "expected value at line 1 column 1"

/-- The probes 1 and 2, with the digits of their message ids. -/
def probeDigits : List (ℕ × UInt8) := [(1, 49), (2, 50)]

theorem isAnswer_probe : ∀ probe ∈ probeDigits,
    IsAnswer (brokerClient probeClient) ⟨probe.1, "ready", probeAnswer probe.2⟩ :=
  forall_mem_cons.2 ⟨⟨by decide +kernel, by decide +kernel, by decide +kernel⟩,
    forall_mem_singleton.2 ⟨by decide +kernel, by decide +kernel, by decide +kernel⟩⟩

theorem compact_probe : ∀ probe ∈ probeDigits, Compact probeClient (probeAnswer probe.2) := by
  unfold Compact
  decide +kernel

/-- A test that is enough for a probe to be well answered. -/
def probeTest (s : ClientState String) : Event UInt8 Unit String → Bool
  | .start _ response text =>
    probeDigits.any fun probe =>
      s.next = probe.1 && text = probeAnswer probe.2 && response = "ready"
  | _ => true

theorem wellAnswered_of_probeTest (s : ClientState String) (event : Event UInt8 Unit String)
    (h : probeTest s event = true) : WellAnswered probeClient s event := by
  cases event with
  | start request response text =>
    obtain ⟨probe, hprobe, htest⟩ := List.any_eq_true.1 h
    simp only [Bool.and_eq_true, decide_eq_true_eq] at htest
    obtain ⟨⟨hnext, rfl⟩, rfl⟩ := htest
    have hsmall : ∀ probe ∈ probeDigits, probe.1 < maxU64 := by decide
    intro written _
    rw [hnext]
    exact ⟨hsmall probe hprobe, isAnswer_probe probe hprobe, rfl, compact_probe probe hprobe⟩
  | _ => trivial

def probeRun : List (Event UInt8 Unit String) :=
  [.start () "ready" (probeAnswer 49), .arrive 400, .read, .start () "ready" (probeAnswer 50),
    .arrive 400]

theorem probe_answered :
    ∃ s s' result, (machine (brokerClient probeClient)).exec (.initial 1) probeRun = some s ∧
      (machine (brokerClient probeClient)).step s .read = some s' ∧
      s'.ended = [(0, .returned (.ok "ready")), (1, .returned result)] ∧
      ∀ k result, (k, .returned result) ∈ s'.ended →
        ∃ own, s'.sent[k]? = some own ∧ result = .ok own.response := by
  have hmeets : (machine (brokerClient probeClient)).Meets (WellAnswered probeClient) (.initial 1)
      (probeRun ++ [.read]) :=
    Machine.meets_of_meetsTest _ wellAnswered_of_probeTest (by decide +kernel)
  have htest : ((machine (brokerClient probeClient)).exec (.initial 1) probeRun).map
      (fun s => (s.ended, s.sent.length, s.reading.isSome, s.coming)) =
        some ([(0, .returned (.ok "ready"))], 2, true, []) := by
    decide +kernel
  obtain ⟨s, hrun, heq⟩ := Option.map_eq_some_iff.1 htest
  simp only [Prod.mk.injEq] at heq
  obtain ⟨hended, hsent, hreading, hcoming⟩ := heq
  obtain ⟨s', result, hstep, hended'⟩ :=
    (client_returns_own_answer_iff probeClient hmeets.append_left hrun).2 hreading hcoming
  rw [hended, hsent] at hended'
  have hrun' : (machine (brokerClient probeClient)).exec (.initial 1) (probeRun ++ [.read]) =
      some s' :=
    (Machine.exec_append_eq_some _).2 ⟨s, hrun, (Machine.exec_cons_eq_some _).2 ⟨s', hstep, rfl⟩⟩
  refine ⟨s, s', result, hrun, hstep, hended', fun k result hreturned => ?_⟩
  refine ((client_returns_own_answer_iff probeClient hmeets hrun').1 k result hreturned).2 ?_
  simp [hended']

/-- The first exchange is abandoned, and both answers arrive in time for the second one. -/
def lateProbe : List (Event UInt8 Unit String) :=
  [.start () "ready" (probeAnswer 49), .abandon, .start () "ready" (probeAnswer 50), .arrive 400,
    .read]

theorem late_probe_breaks_client :
    IsAnswer (brokerClient probeClient) ⟨1, "ready", probeAnswer 49⟩ ∧
      IsAnswer (brokerClient probeClient) ⟨2, "ready", probeAnswer 50⟩ ∧
      ((machine (brokerClient probeClient)).exec (.initial 1) lateProbe).map (·.ended) =
        some [(0, .abandoned), (1, .returned (.error (.messageIdMismatch "demo:2" "demo:1")))] :=
  ⟨isAnswer_probe (1, 49) (by decide), isAnswer_probe (2, 50) (by decide), by decide +kernel⟩

end Gadgetron.Host
