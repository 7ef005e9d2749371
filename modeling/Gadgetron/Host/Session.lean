import Gadgetron.Host.Frame
import Gadgetron.Lib.Exchange
import Gadgetron.Lib.Lines
import Gadgetron.Lib.Text

/-!
# Host sessions

`BundleHostSession::exchange` writes a request with the next sequence number and passes over answers
to earlier ones, at most `MAX_STALE_RESPONSE_FRAMES` of them.
-/

namespace Gadgetron.Host

open Lib Lib.Exchange List

def maxU64 : ℕ := 2 ^ 64 - 1

/-- `u64::saturating_add` of one. -/
def saturatingSucc (n : ℕ) : ℕ := min (n + 1) maxU64

/-- `str::parse::<u64>`: digits, after a plus sign if there is one, of a number in range. -/
def parseU64 (text : List Char) : Option ℕ :=
  let digits := (['+'].isPrefixOf? text).getD text
  if digits = [] then none
  else if digits.all Char.isDigit then
    let value := Nat.ofDigitChars 10 digits 0
    if value ≤ maxU64 then some value else none
  else none

def coreMessageId (sequence : ℕ) : String := "core:" ++ toString sequence

def hostResponseSequence (messageId : String) : Option ℕ := do
  let digits ← ("core:".toList).isPrefixOf? messageId.toList
  let sequence ← parseU64 digits
  if messageId = coreMessageId sequence then some sequence else none

theorem parseU64_toDigits {n : ℕ} (h : n ≤ maxU64) : parseU64 (Nat.toDigits 10 n) = some n := by
  have hdigits : ∀ c ∈ Nat.toDigits 10 n, c.isDigit = true := fun c hc =>
    Nat.isDigit_of_mem_toDigits (by decide) (by decide) hc
  have hplus : ['+'].isPrefixOf? (Nat.toDigits 10 n) = none := by
    cases htext : Nat.toDigits 10 n with
    | nil => rfl
    | cons c text =>
      have hc := hdigits c (by simp [htext])
      have hne : ('+' == c) = false := by
        rw [beq_eq_false_iff_ne]
        rintro rfl
        exact absurd hc (by decide)
      simp [List.isPrefixOf?, hne]
  unfold parseU64
  rw [hplus, Option.getD_none, if_neg Nat.toDigits_ne_nil, if_pos (List.all_eq_true.2 hdigits),
    Nat.ofDigitChars_ten_toDigits, if_pos h]

theorem toList_coreMessageId (n : ℕ) :
    (coreMessageId n).toList = "core:".toList ++ Nat.toDigits 10 n := by
  unfold coreMessageId
  rw [String.toList_append]
  congr 1
  exact Nat.toList_repr

theorem hostResponseSequence_coreMessageId {n : ℕ} (h : n ≤ maxU64) :
    hostResponseSequence (coreMessageId n) = some n := by
  have hcore : ("core:".toList).isPrefixOf? (coreMessageId n).toList =
      some (Nat.toDigits 10 n) := isPrefixOf?_eq_some_iff.2 (toList_coreMessageId n)
  unfold hostResponseSequence
  rw [hcore]
  simp [parseU64_toDigits h]

/-! ## The session as a client -/

/-- The parts of a session that are not under `exchange` itself. -/
structure SessionConfig (Req Resp : Type) where
  identity : BundleRuntimeIdentity
  maxFrameBytes : UInt64
  /-- `HostRequest::validate`. -/
  validateRequest : Req → Except BundleSdkError Unit
  /-- `HostResponse::validate`. -/
  validateResponse : Resp → Except BundleSdkError Unit
  /-- `serde_json::to_vec`. -/
  toVec : Envelope Req → Except String (List UInt8)
  /-- `serde_json::from_slice`. -/
  fromSlice : List UInt8 → Except String (Envelope Resp)

def maxStaleResponseFrames : ℕ := 64

section

variable {Req Resp : Type} (config : SessionConfig Req Resp)

/-- `exchange` up to the write of the request. -/
def prepareRequest (nextMessageId : ℕ) (payload : Req) : Except BundleHostError (List UInt8) × ℕ :=
  match config.validateRequest payload with
  | .error e => (.error (.package e), nextMessageId)
  | .ok () =>
    let envelope := Envelope.new (coreMessageId nextMessageId) config.identity payload
    let written : Except BundleHostError (List UInt8) := do
      (envelope.validateRouting config.identity bundleHostProtocolVersion).mapError .package
      let encoded ← (config.toVec envelope).mapError .json
      sessionFrame config.maxFrameBytes encoded
    (written, saturatingSucc nextMessageId)

/-- The end of `read_frame`, and the checks of the response that was read. -/
def decodeResponse (frame : List UInt8) : Except BundleHostError (String × Resp) := do
  let payload ← (finishFrame config.maxFrameBytes frame).orFail .endOfStream
    (fun actual => .frameTooLarge actual config.maxFrameBytes.toNat) .unterminatedFrame
  let response ← (config.fromSlice payload).mapError .json
  (response.validateRouting config.identity bundleHostProtocolVersion).mapError .package
  (config.validateResponse response.payload).mapError .package
  .ok (response.messageId, response.payload)

/-- What `exchange` makes of a response. -/
def judgeResponse (expectedSequence staleCount : ℕ) (messageId : String) (payload : Resp) :
    Option (Except BundleHostError Resp) :=
  if messageId = coreMessageId expectedSequence then some (.ok payload)
  else
    let stale := (hostResponseSequence messageId).any (· < expectedSequence)
    if stale && staleCount < maxStaleResponseFrames then none
    else some (.error (.messageIdMismatch (coreMessageId expectedSequence) messageId))

def session : Client UInt8 Req String Resp BundleHostError where
  delim := newline
  limit := (config.maxFrameBytes + 1).toNat
  prepare := prepareRequest config
  messageId := coreMessageId
  decode := decodeResponse config
  judge := judgeResponse

abbrev SessionState (Resp : Type) := Channel UInt8 Resp BundleHostError

theorem judgeResponse_stale {sequence earlier stale : ℕ} (hearlier : earlier < sequence)
    (hsequence : sequence ≤ maxU64) (hstale : stale < maxStaleResponseFrames) (payload : Resp) :
    judgeResponse sequence stale (coreMessageId earlier) payload = none := by
  have hne : coreMessageId earlier ≠ coreMessageId sequence := fun h =>
    absurd (append_toString_injective _ h) (by omega)
  unfold judgeResponse
  rw [if_neg hne, hostResponseSequence_coreMessageId (by omega)]
  simp [hearlier, hstale]

theorem prepareRequest_next_le {n : ℕ} (h : n ≤ maxU64) (payload : Req) :
    (prepareRequest config n payload).2 ≤ maxU64 := by
  unfold prepareRequest
  cases config.validateRequest payload with
  | error e => exact h
  | ok u => exact Nat.min_le_right _ _

/-! ## Sessions that stay in step -/

/-- The peer answers a written request as it should, and the session keeps in step: few enough
answers, all to earlier requests, are unread at a start, and a timeout falls between two frames. -/
def InStep (s : SessionState Resp) : Event UInt8 Req Resp → Prop
  | .start request response text =>
    ∀ written, (prepareRequest config s.next request).1 = .ok written →
      IsAnswer (session config) (⟨s.next, response, text⟩ : Answer UInt8 Resp) ∧
        s.unread.length ≤ maxStaleResponseFrames ∧ ∀ a ∈ s.unread, a.seq < s.next
  | .abandon => s.frame = []
  | _ => True

def Ahead (s : SessionState Resp) (r : Reading UInt8) : Prop :=
  ∃ earlier own, s.unread = earlier ++ [own] ∧ s.sent.getLast? = some own ∧ own.seq = r.seq ∧
    (∀ a ∈ earlier, a.seq < r.seq) ∧ r.seq ≤ maxU64 ∧
      r.stale + earlier.length ≤ maxStaleResponseFrames

structure Synced (s : SessionState Resp) : Prop where
  framed : Framed (session config) [] s
  next_le : s.next ≤ maxU64
  ahead : ∀ r, s.reading = some r → Ahead s r
  ended : ∀ k outcome, (k, outcome) ∈ s.ended →
    outcome = .abandoned ∨ ∃ a, s.sent[k]? = some a ∧ outcome = .returned (.ok a.response)

variable {config}

theorem synced_initial : Synced config (Channel.initial 1 : SessionState Resp) where
  framed := framed_initial 1
  next_le := show 1 ≤ maxU64 by decide
  ahead := fun _ hr => by cases hr
  ended := fun _ _ h => by cases h

theorem verdict_answer {a : Answer UInt8 Resp} (h : IsAnswer (session config) a)
    (r : Reading UInt8) : verdict (session config) r (a.text ++ [newline]) =
      judgeResponse r.seq r.stale (coreMessageId a.seq) a.response :=
  verdict_of_ok h.decodes r

section

variable {s s' : SessionState Resp}

theorem Synced.start (h : Synced config s) {request : Req} {response : Resp} {text : List UInt8}
    (hcond : InStep config s (.start request response text))
    (hstep : step (session config) s (.start request response text) = some s') :
    Synced config s' := by
  have hframed := h.framed.start (fun written hw => (hcond written hw).1) hstep
  have hnext := prepareRequest_next_le config h.next_le request
  obtain ⟨hidle, ⟨e, next, hprep, rfl⟩ | ⟨written, next, hprep, rfl⟩⟩ := start_cases _ hstep
  · replace hprep : prepareRequest config s.next request = (.error e, next) := hprep
    rw [hprep] at hnext
    refine ⟨hframed, hnext, fun r hr => ?_, h.ended⟩
    rw [hidle] at hr
    cases hr
  · replace hprep : prepareRequest config s.next request = (.ok written, next) := hprep
    rw [hprep] at hnext
    obtain ⟨-, hcount, hlow⟩ := hcond written (by rw [hprep])
    refine ⟨hframed, hnext, fun r hr => ?_, fun k outcome hk => ?_⟩
    · cases hr
      exact ⟨s.unread, _, rfl, getLast?_concat, rfl, hlow, h.next_le, by simpa using hcount⟩
    · rcases h.ended k outcome hk with habandoned | ⟨a, ha, hreturned⟩
      · exact .inl habandoned
      · have hlt := (List.getElem?_eq_some_iff.1 ha).1
        exact .inr ⟨a, by rw [getElem?_append_left hlt, ha], hreturned⟩

theorem Synced.arrive (h : Synced config s) {count : ℕ}
    (hstep : step (session config) s (.arrive count) = some s') : Synced config s' := by
  have hframed := h.framed.arrive hstep
  obtain rfl := Option.some.inj hstep
  exact ⟨hframed, h.next_le, h.ahead, h.ended⟩

theorem Synced.abandon (h : Synced config s) (hcond : InStep config s .abandon)
    (hstep : step (session config) s .abandon = some s') : Synced config s' := by
  have hframed := h.framed.abandon hstep
  have hempty : s.frame = [] := hcond
  rw [hempty] at hframed
  obtain ⟨-, rfl⟩ := abandon_cases _ hstep
  refine ⟨hframed, h.next_le, fun r hr => (by cases hr), fun k outcome hk => ?_⟩
  rcases mem_append.1 hk with hk | hk
  · exact h.ended k outcome hk
  · cases mem_singleton.1 hk
    exact .inl rfl

variable {unread : List (Answer UInt8 Resp)} {a : Answer UInt8 Resp}

theorem Ahead.settle (h : Synced config s) {r : Reading UInt8} (hr : s.reading = some r)
    (hunread : s.unread = a :: unread)
    (rest : List UInt8) : (s.sent.getLast? = some a ∧ unread = [] ∧
        settle (session config) s r (a.text ++ [newline]) rest = { s with
            buffer := rest
            unread := []
            reading := none
            ended := s.ended ++ [(s.sent.length - 1, .returned (.ok a.response))] }) ∨
      settle (session config) s r (a.text ++ [newline]) rest =
          { s with buffer := rest, unread, reading := some ⟨r.seq, r.stale + 1, []⟩ } ∧
        ∃ earlier own, unread = earlier ++ [own] ∧ s.sent.getLast? = some own ∧ own.seq = r.seq ∧
          (∀ a ∈ earlier, a.seq < r.seq) ∧ r.seq ≤ maxU64 ∧
            r.stale + 1 + earlier.length ≤ maxStaleResponseFrames := by
  have hverdict := verdict_answer (h.framed.answers a (by simp [hunread])) r
  obtain ⟨earlier, own, hsplit, hlast, hseq, hlow, hmax, hcount⟩ := h.ahead r hr
  rw [hunread] at hsplit
  cases earlier with
  | nil =>
    obtain ⟨rfl, rfl⟩ := cons.inj hsplit
    rw [hseq, judgeResponse, if_pos rfl] at hverdict
    refine .inl ⟨hlast, rfl, ?_⟩
    rw [settle_of_some hverdict, hunread]
    rfl
  | cons b earlier =>
    obtain ⟨rfl, rfl⟩ := cons.inj hsplit
    rw [length_cons] at hcount
    rw [judgeResponse_stale (hlow a mem_cons_self) hmax (by omega)] at hverdict
    refine .inr ⟨?_, earlier, own, rfl, hlast, hseq,
      fun b hb => hlow b (mem_cons_of_mem a hb), hmax, by omega⟩
    rw [settle_of_none hverdict, hunread]
    rfl

theorem Synced.read (h : Synced config s) (hstep : step (session config) s .read = some s') :
    Synced config s' := by
  obtain ⟨r, hr, -⟩ := read_cases _ hstep
  obtain ⟨earlier, own, hsplit, hrest⟩ := h.ahead r hr
  obtain ⟨a, unread, hunread⟩ := exists_cons_of_ne_nil (l := s.unread) (by simp [hsplit])
  obtain ⟨r', hr', ⟨rfl, hframed⟩ | ⟨text, rest, htext, rfl, hframed⟩⟩ :=
    h.framed.read hunread hstep
  · rw [hr] at hr'
    cases hr'
    refine ⟨hframed, h.next_le, fun r' hr' => ?_, h.ended⟩
    cases hr'
    exact ⟨earlier, own, hsplit, hrest⟩
  · rw [hr] at hr'
    cases hr'
    obtain rfl : text = a.text := htext
    rcases Ahead.settle h hr hunread rest with ⟨hlast, -, heq⟩ | ⟨heq, hahead⟩
    · replace hframed := heq ▸ hframed
      rw [show settle (session config) s r (a.text ++ [(session config).delim]) rest = _ from heq]
      refine ⟨hframed, h.next_le, fun r' hr' => (by cases hr'), fun k outcome hk => ?_⟩
      rcases mem_append.1 hk with hk | hk
      · exact h.ended k outcome hk
      · cases mem_singleton.1 hk
        refine .inr ⟨a, ?_, rfl⟩
        rw [← getLast?_eq_getElem?]
        exact hlast
    · replace hframed := heq ▸ hframed
      rw [show settle (session config) s r (a.text ++ [(session config).delim]) rest = _ from heq]
      refine ⟨hframed, h.next_le, fun r' hr' => ?_, h.ended⟩
      cases hr'
      exact hahead

theorem Synced.exists_reads (h : Synced config s) {r : Reading UInt8} (hr : s.reading = some r)
    (hunread : s.unread = a :: unread)
    (hcoming : s.coming = []) : ∃ reads s' own, (∀ e ∈ reads, e = Event.read) ∧
      (machine (session config)).exec s reads = some s' ∧ s.sent.getLast? = some own ∧
        s'.ended = s.ended ++ [(s.sent.length - 1, .returned (.ok own.response))] := by
  induction unread generalizing s r a with
  | nil =>
    obtain ⟨text, rest, htext, hstep⟩ := h.framed.exists_settle hr hunread hcoming
    obtain rfl : text = a.text := htext
    rcases Ahead.settle h hr hunread rest with ⟨hlast, -, heq⟩ | ⟨-, earlier, own, hnil, -⟩
    · rw [show settle (session config) s r (a.text ++ [(session config).delim]) rest = _ from heq]
        at hstep
      have hexec : (machine (session config)).exec s [.read] = some _ :=
        (machine (session config)).exec_cons_eq_some.2 ⟨_, hstep, rfl⟩
      exact ⟨[.read], _, a, by simp, hexec, hlast, rfl⟩
    · simp at hnil
  | cons b unread ih =>
    obtain ⟨text, rest, htext, hstep⟩ := h.framed.exists_settle hr hunread hcoming
    obtain rfl : text = a.text := htext
    rcases Ahead.settle h hr hunread rest with ⟨-, hnil, -⟩ | ⟨heq, -⟩
    · cases hnil
    · rw [show settle (session config) s r (a.text ++ [(session config).delim]) rest = _ from heq]
        at hstep
      obtain ⟨reads, s', own, hreads, hexec, hlast, hended⟩ := ih (h.read hstep) rfl rfl hcoming
      refine ⟨.read :: reads, s', own, ?_, ?_, hlast, hended⟩
      · intro e he
        rcases mem_cons.1 he with rfl | he
        · rfl
        · exact hreads e he
      · exact (machine (session config)).exec_cons_eq_some.2 ⟨_, hstep, hexec⟩

theorem Synced.step (h : Synced config s) {event : Event UInt8 Req Resp}
    (hcond : InStep config s event) (hstep : Exchange.step (session config) s event = some s') :
    Synced config s' := by
  cases event with
  | start request response text => exact h.start hcond hstep
  | arrive count => exact h.arrive hstep
  | read => exact h.read hstep
  | abandon => exact h.abandon hcond hstep

end

/-! ## Runs -/

/-- Every exchange of a session in step ends in a timeout or with its own answer; and once all
outstanding answers have arrived, the exchange under way reads its own. -/
theorem session_correlates (config : SessionConfig Req Resp)
    {events : List (Event UInt8 Req Resp)} {s : SessionState Resp}
    (hcond : (machine (session config)).Meets (InStep config) (.initial 1) events)
    (hrun : (machine (session config)).exec (.initial 1) events = some s) :
    (∀ k outcome, (k, outcome) ∈ s.ended → outcome = .abandoned ∨ ∃ own, s.sent[k]? = some own ∧
        outcome = .returned (.ok own.response)) ∧ (s.reading.isSome → s.coming = [] →
        ∃ reads s' own, (∀ e ∈ reads, e = Event.read) ∧
          (machine (session config)).exec s reads = some s' ∧ s.sent.getLast? = some own ∧
            s'.ended = s.ended ++ [(s.sent.length - 1, .returned (.ok own.response))]) := by
  have hsynced : Synced config s := (machine (session config)).invariant_of_meets
    (fun _ _ _ h hcond hstep => h.step hcond hstep) synced_initial hcond hrun
  refine ⟨hsynced.ended, fun hreading hcoming => ?_⟩
  obtain ⟨r, hr⟩ := Option.isSome_iff_exists.1 hreading
  obtain ⟨earlier, own, hsplit, -⟩ := hsynced.ahead r hr
  obtain ⟨a, unread, hunread⟩ := exists_cons_of_ne_nil (l := s.unread) (by simp [hsplit])
  exact hsynced.exists_reads hr hunread hcoming

end

/-! ## Two exchanges of a session -/

/-- The text `{"protocol_version":1,"message_id":"core:`. -/
def envelopeHead : List UInt8 :=
  [123, 34, 112, 114, 111, 116, 111, 99, 111, 108, 95, 118, 101, 114, 115, 105, 111, 110, 34,
   58, 49, 44, 34, 109, 101, 115, 115, 97, 103, 101, 95, 105, 100, 34, 58, 34, 99, 111, 114,
   101, 58]

/-- The text
`","bundle":{"id":"demo","version":"1.0.0"},"payload":{"method":"health","params":{}}}`. -/
def healthRequestTail : List UInt8 :=
  [34, 44, 34, 98, 117, 110, 100, 108, 101, 34, 58, 123, 34, 105, 100, 34, 58, 34, 100, 101,
   109, 111, 34, 44, 34, 118, 101, 114, 115, 105, 111, 110, 34, 58, 34, 49, 46, 48, 46, 48, 34,
   125, 44, 34, 112, 97, 121, 108, 111, 97, 100, 34, 58, 123, 34, 109, 101, 116, 104, 111, 100,
   34, 58, 34, 104, 101, 97, 108, 116, 104, 34, 44, 34, 112, 97, 114, 97, 109, 115, 34, 58, 123,
   125, 125, 125]

/-- The text after the message id of `healthAnswer`. -/
def healthAnswerTail : List UInt8 :=
  [34, 44, 34, 98, 117, 110, 100, 108, 101, 34, 58, 123, 34, 105, 100, 34, 58, 34, 100, 101,
   109, 111, 34, 44, 34, 118, 101, 114, 115, 105, 111, 110, 34, 58, 34, 49, 46, 48, 46, 48, 34,
   125, 44, 34, 112, 97, 121, 108, 111, 97, 100, 34, 58, 123, 34, 114, 101, 115, 117, 108, 116,
   34, 58, 34, 104, 101, 97, 108, 116, 104, 34, 44, 34, 100, 97, 116, 97, 34, 58, 123, 34, 115,
   116, 97, 116, 117, 115, 34, 58, 34, 104, 101, 97, 108, 116, 104, 121, 34, 125, 125, 125]

def healthAnswer (digit : UInt8) : List UInt8 := envelopeHead ++ digit :: healthAnswerTail

def demoIdentity : BundleRuntimeIdentity := ⟨"demo", "1.0.0"⟩

/-- A session that asks a bundle for its health; a response is its status. -/
def healthSession : SessionConfig Unit String where
  identity := demoIdentity
  maxFrameBytes := 1048576
  validateRequest _ := .ok ()
  validateResponse _ := .ok ()
  toVec envelope :=
    let digit := if envelope.messageId = "core:1" then 49 else 50
    .ok (envelopeHead ++ digit :: healthRequestTail)
  fromSlice payload :=
    if payload = healthAnswer 49 then .ok (.new "core:1" demoIdentity "healthy")
    else if payload = healthAnswer 50 then .ok (.new "core:2" demoIdentity "healthy")
    else .error "expected value at line 1 column 1"

theorem isAnswer_first : IsAnswer (session healthSession) ⟨1, "healthy", healthAnswer 49⟩ :=
  ⟨by decide +kernel, by decide +kernel, by decide +kernel⟩

theorem isAnswer_second : IsAnswer (session healthSession) ⟨2, "healthy", healthAnswer 50⟩ :=
  ⟨by decide +kernel, by decide +kernel, by decide +kernel⟩

/-- The first exchange times out before its answer arrives; both answers come in the second. -/
def lateAnswer : List (Event UInt8 Unit String) :=
  [.start () "healthy" (healthAnswer 49), .abandon,
    .start () "healthy" (healthAnswer 50), .arrive 400]

theorem prepare_first : (session healthSession).prepare 1 () =
    (.ok (envelopeHead ++ 49 :: healthRequestTail ++ [newline]), 2) := by
  decide +kernel

theorem prepare_second : (session healthSession).prepare 2 () =
    (.ok (envelopeHead ++ 50 :: healthRequestTail ++ [newline]), 3) := by
  decide +kernel

def afterTimeout : SessionState String :=
  ⟨2, [⟨1, "healthy", healthAnswer 49⟩], [⟨1, "healthy", healthAnswer 49⟩],
    healthAnswer 49 ++ [newline], [], none, [(0, .abandoned)]⟩

theorem lateAnswer_run :
    (machine (session healthSession)).Meets (InStep healthSession) (.initial 1) lateAnswer ∧
      ∃ s, (machine (session healthSession)).exec (.initial 1) lateAnswer = some s ∧
        s.reading.isSome ∧ s.coming = [] := by
  have hone := start_eq (session healthSession) (s := .initial 1) rfl prepare_first "healthy"
    (healthAnswer 49)
  have htwo := start_eq (session healthSession) (s := afterTimeout) rfl prepare_second "healthy"
    (healthAnswer 50)
  refine ⟨?_, ?_⟩
  · refine .cons _ (fun _ _ => ⟨isAnswer_first, by decide, by decide⟩) hone ?_
    refine .cons _ (show Channel.frame _ = [] from rfl) rfl ?_
    refine .cons _ (fun _ _ => ⟨isAnswer_second, by decide, by decide⟩) htwo ?_
    exact .cons _ trivial rfl trivial
  · let M := machine (session healthSession)
    refine ⟨_, M.exec_cons_eq_some.2 ⟨_, hone, M.exec_cons_eq_some.2 ⟨afterTimeout, rfl,
      M.exec_cons_eq_some.2 ⟨_, htwo, M.exec_cons_eq_some.2 ⟨_, rfl, rfl⟩⟩⟩⟩, rfl, ?_⟩
    decide +kernel

theorem late_answer_passed_over :
    ∃ s, (machine (session healthSession)).exec (.initial 1) lateAnswer = some s ∧
      ∃ reads s' own, (∀ e ∈ reads, e = Event.read) ∧
        (machine (session healthSession)).exec s reads = some s' ∧ s.sent.getLast? = some own ∧
          s'.ended = s.ended ++ [(s.sent.length - 1, .returned (.ok own.response))] := by
  obtain ⟨hmeets, s, hrun, hreading, hcoming⟩ := lateAnswer_run
  exact ⟨s, hrun, (session_correlates healthSession hmeets hrun).2 hreading hcoming⟩

/-- The first exchange times out with a part of its answer read. -/
def halfReadAnswer : List (Event UInt8 Unit String) :=
  [.start () "healthy" (healthAnswer 49), .arrive 40, .read, .abandon,
    .start () "healthy" (healthAnswer 50), .arrive 400, .read]

theorem half_read_answer_breaks_session :
    IsAnswer (session healthSession) ⟨1, "healthy", healthAnswer 49⟩ ∧
      IsAnswer (session healthSession) ⟨2, "healthy", healthAnswer 50⟩ ∧
      ((machine (session healthSession)).exec (.initial 1) halfReadAnswer).map (·.ended) =
        some [(0, .abandoned),
          (1, .returned (.error (.json "expected value at line 1 column 1")))] :=
  ⟨isAnswer_first, isAnswer_second, by decide +kernel⟩

end Gadgetron.Host
