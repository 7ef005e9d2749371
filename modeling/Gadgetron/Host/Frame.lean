import Gadgetron.Host.Envelope
import Gadgetron.Lib.Wire

/-!
# Frames of the bundle channels

The newline terminated frames between Core and the bundle runtimes, and between a runtime and its
broker.
-/

namespace Gadgetron.Host

open Lib List

/-- The byte `\n`. -/
def newline : UInt8 := 10

/-- The byte `\r`. -/
def carriageReturn : UInt8 := 13

/-! ## Readers -/

inductive FrameRead
  | endOfStream
  | tooLarge (actual : ℕ)
  | unterminated
  | frame (payload : List UInt8)

def finishFrame (maximum : UInt64) (frame : List UInt8) : FrameRead :=
  if frame.length = 0 then .endOfStream
  else if maximum.toNat < frame.length then .tooLarge frame.length
  else if frame.getLast? ≠ some newline then .unterminated
  else
    let payload := frame.dropLast
    if payload.getLast? = some carriageReturn then .frame payload.dropLast else .frame payload

def readLimited (maximum : UInt64) (reader : BufReader UInt8) : FrameRead × BufReader UInt8 :=
  let result := readUntil newline (maximum + 1).toNat reader
  (finishFrame maximum result.1, result.2)

variable {ε : Type}

/-- A reader that returns `None` at the end of the stream. -/
def FrameRead.orNone (tooLarge : ℕ → ε) (unterminated : ε) :
    FrameRead → Except ε (Option (List UInt8))
  | .endOfStream => .ok none
  | .tooLarge actual => .error (tooLarge actual)
  | .unterminated => .error unterminated
  | .frame payload => .ok (some payload)

def FrameRead.orFail (endOfStream : ε) (tooLarge : ℕ → ε) (unterminated : ε) :
    FrameRead → Except ε (List UInt8)
  | .endOfStream => .error endOfStream
  | .tooLarge actual => .error (tooLarge actual)
  | .unterminated => .error unterminated
  | .frame payload => .ok payload

/-! ### The errors of each side -/

/-- The errors of a session of Core with a runtime; an error of the JSON decoder is its text. -/
inductive BundleHostError
  | package (error : BundleSdkError)
  | json (error : String)
  | frameTooLarge (actual maximum : ℕ)
  | endOfStream
  | unterminatedFrame
  | timeout
  | messageIdMismatch (expected actual : String)
  deriving DecidableEq

inductive ManifestRuntimeError
  | frameTooLarge
  | unterminatedFrame

inductive GadgetRuntimeError
  | frameTooLarge
  | unterminatedFrame
  deriving DecidableEq

inductive RuntimeError
  | frameTooLarge (maximum : ℕ)
  | unterminatedFrame

inductive BrokerClientError
  | json (error : String)
  | sdk (error : BundleSdkError)
  | frameTooLarge (actual maximum : ℕ)
  | endOfStream
  | unterminatedFrame
  | timeout
  | messageIdMismatch (expected actual : String)
  deriving DecidableEq

inductive BrokerHostError
  | io (error : String)
  | json (error : String)
  | contract (error : BundleSdkError)
  | frameTooLarge (actual maximum : ℕ)
  | unterminatedFrame
  | duplicateMessageId (id : String)
  | handlerTimeout
  | unexpectedResponse (expected actual : String)
  | probeCorrelationMismatch
  | sshCorrelationMismatch
  deriving DecidableEq

/-! ### The readers -/

section

variable (maximum : UInt64) (reader : BufReader UInt8)

def readManifestFrame : Except ManifestRuntimeError (Option (List UInt8)) × BufReader UInt8 :=
  (readLimited maximum reader).map
    (FrameRead.orNone (fun _ => .frameTooLarge) .unterminatedFrame) id

def readGadgetFrame : Except GadgetRuntimeError (Option (List UInt8)) × BufReader UInt8 :=
  (readLimited maximum reader).map
    (FrameRead.orNone (fun _ => .frameTooLarge) .unterminatedFrame) id

def readAdministratorFrame : Except RuntimeError (Option (List UInt8)) × BufReader UInt8 :=
  (readLimited maximum reader).map
    (FrameRead.orNone (fun _ => .frameTooLarge maximum.toNat) .unterminatedFrame) id

/-- `read_frame` of the broker side of a channel. -/
def readBrokerFrame : Except BrokerHostError (Option (List UInt8)) × BufReader UInt8 :=
  (readLimited maximum reader).map
    (FrameRead.orNone (fun actual => .frameTooLarge actual maximum.toNat) .unterminatedFrame) id

/-- `BundleHostSession::read_frame`. -/
def readSessionFrame : Except BundleHostError (List UInt8) × BufReader UInt8 :=
  (readLimited maximum reader).map
    (FrameRead.orFail .endOfStream (fun actual => .frameTooLarge actual maximum.toNat)
      .unterminatedFrame) id

def readClientFrame : Except BrokerClientError (List UInt8) × BufReader UInt8 :=
  (readLimited maximum reader).map
    (FrameRead.orFail .endOfStream (fun actual => .frameTooLarge actual maximum.toNat)
      .unterminatedFrame) id

end

/-! ## Senders -/

def frameOf (fits : Prop) [Decidable fits] (error : ε) (payload : List UInt8) :
    Except ε (List UInt8) :=
  if fits then .ok (payload ++ [newline]) else .error error

section

variable (maximum : UInt64) (payload : List UInt8)

/-- The request frame of `BundleHostSession::exchange`. -/
def sessionFrame : Except BundleHostError (List UInt8) :=
  frameOf (payload.length ≤ maximum.toNat) (.frameTooLarge payload.length maximum.toNat) payload

def manifestReply : Except ManifestRuntimeError (List UInt8) :=
  frameOf (payload.length < maximum.toNat) .frameTooLarge payload

def gadgetReply : Except GadgetRuntimeError (List UInt8) :=
  frameOf (payload.length < maximum.toNat) .frameTooLarge payload

def administratorReply : Except RuntimeError (List UInt8) :=
  frameOf (payload.length ≤ maximum.toNat) (.frameTooLarge maximum.toNat) payload

/-- The request frame of `BundleBrokerClient::exchange`. -/
def clientFrame : Except BrokerClientError (List UInt8) :=
  frameOf (payload.length < maximum.toNat) (.frameTooLarge payload.length maximum.toNat) payload

/-- The reply frame of `serve_broker_channel`. -/
def brokerReply : Except BrokerHostError (List UInt8) :=
  frameOf (payload.length < maximum.toNat) (.frameTooLarge payload.length maximum.toNat) payload

end

/-! ## Agreement -/

variable {maximum : UInt64}

theorem toNat_add_one (h : maximum + 1 ≠ 0) : (maximum + 1).toNat = maximum.toNat + 1 := by
  have hne : (maximum + 1).toNat ≠ 0 := fun hzero => h (UInt64.toNat_inj.1 hzero)
  have hlt := maximum.toNat_lt
  rw [UInt64.toNat_add] at hne ⊢
  simp only [UInt64.reduceToNat] at hne ⊢
  omega

theorem finishFrame_of_lt {frame : List UInt8}
    (h : maximum.toNat < frame.length) : finishFrame maximum frame = .tooLarge frame.length := by
  unfold finishFrame
  rw [if_neg (by omega), if_pos h]

variable {payload : List UInt8}

theorem finishFrame_line (h : payload.length < maximum.toNat) :
    finishFrame maximum (payload ++ [newline]) =
      if payload.getLast? = some carriageReturn then .frame payload.dropLast
      else .frame payload := by
  have hlen : (payload ++ [newline]).length = payload.length + 1 := by simp
  unfold finishFrame
  rw [hlen, if_neg (by omega), if_neg (by omega), getLast?_concat, dropLast_concat]
  simp

variable {reader : BufReader UInt8}

theorem readLimited_line {payload rest : List UInt8}
    (hmax : maximum + 1 ≠ 0) (hline : newline ∉ payload)
    (hbytes : reader.bytes = payload ++ [newline] ++ rest) : (payload.length < maximum.toNat ∧
        (readLimited maximum reader).1 = finishFrame maximum (payload ++ [newline]) ∧
        (readLimited maximum reader).2.bytes = rest) ∨ (maximum.toNat ≤ payload.length ∧
        (readLimited maximum reader).1 = .tooLarge (maximum.toNat + 1)) := by
  have hcut := @readUntil_eq_cut _ _ newline (maximum + 1).toNat
    (by rw [toNat_add_one hmax]; omega) reader
  rw [hbytes, toNat_add_one hmax, List.append_assoc, singleton_append] at hcut
  simp only [readLimited, toNat_add_one hmax]
  by_cases hlong : payload.length ≤ maximum.toNat
  · rw [cut_of_lt hline (by omega), Prod.mk.injEq] at hcut
    rw [hcut.1, hcut.2]
    by_cases hlt : payload.length < maximum.toNat
    · exact .inl ⟨hlt, rfl, rfl⟩
    · refine .inr ⟨by omega, ?_⟩
      rw [finishFrame_of_lt (by simp; omega)]
      simp
      omega
  · have hlen : (payload.take (maximum.toNat + 1)).length = maximum.toNat + 1 := by
      rw [length_take]
      omega
    rw [← take_append_drop (maximum.toNat + 1) payload, List.append_assoc,
      cut_of_length_eq (fun h => hline (mem_of_mem_take h)) hlen, Prod.mk.injEq] at hcut
    refine .inr ⟨by omega, ?_⟩
    rw [hcut.1, finishFrame_of_lt (by omega), hlen]

/-- What a frame that is read back needs: room for the newline, a limit that can be counted one
past, and no carriage return at its end. -/
def Readable (maximum : UInt64) (payload : List UInt8) : Prop :=
  payload.length < maximum.toNat ∧ maximum + 1 ≠ 0 ∧ payload.getLast? ≠ some carriageReturn

instance (maximum : UInt64) (payload : List UInt8) : Decidable (Readable maximum payload) :=
  inferInstanceAs (Decidable (_ ∧ _))

theorem readLimited_eq_frame_iff {payload rest : List UInt8} (hline : newline ∉ payload)
    (hbytes : reader.bytes = payload ++ [newline] ++ rest) :
    ((readLimited maximum reader).1 = .frame payload ∧
        (readLimited maximum reader).2.bytes = rest) ↔ Readable maximum payload := by
  unfold Readable
  by_cases hmax : maximum + 1 = 0
  · have hzero : (readLimited maximum reader).1 = .endOfStream := by
      unfold readLimited
      rw [hmax]
      show finishFrame maximum (readUntil newline 0 reader).1 = .endOfStream
      rw [readUntil_zero]
      rfl
    simp [hzero, hmax]
  · rcases readLimited_line hmax hline hbytes with ⟨hlt, hread, hrest⟩ | ⟨hle, hread⟩
    · rw [hread, hrest, finishFrame_line hlt]
      by_cases hcr : payload.getLast? = some carriageReturn
      · have hne : payload.dropLast ≠ payload := by
          intro heq
          have hlen := congrArg List.length heq
          rw [length_dropLast] at hlen
          have hpos : payload ≠ [] := by
            rintro rfl
            cases hcr
          have := length_pos_iff.2 hpos
          omega
        simp [hcr, hne]
      · simp [hcr, hlt, hmax]
    · rw [hread]
      simp only [reduceCtorEq, false_and, false_iff]
      omega

/-- Whatever the sender frames under the limit, the reader reads back as the same payload, however
the bytes are split into reads and whatever follows them. -/
def Agree {ε ε' α : Type} (send : UInt64 → List UInt8 → Except ε (List UInt8))
    (read : UInt64 → BufReader UInt8 → Except ε' α × BufReader UInt8) (found : List UInt8 → α)
    (maximum : UInt64) (payload : List UInt8) : Prop :=
  ∀ frame, send maximum payload = .ok frame → ∀ reader rest, reader.bytes = frame ++ rest →
    (read maximum reader).1 = .ok (found payload) ∧ (read maximum reader).2.bytes = rest

theorem agree_iff {ε ε' α : Type} {send : UInt64 → List UInt8 → Except ε (List UInt8)}
    {read : UInt64 → BufReader UInt8 → Except ε' α × BufReader UInt8} {found : List UInt8 → α}
    {fits : Prop} [Decidable fits] {error : ε}
    {result : FrameRead → Except ε' α} (hsend : send maximum payload = frameOf fits error payload)
    (hread : ∀ reader, read maximum reader = (readLimited maximum reader).map result id)
    (hfound : ∀ r, result r = .ok (found payload) ↔ r = .frame payload)
    (hline : newline ∉ payload) :
    Agree send read found maximum payload ↔ (fits → Readable maximum payload) := by
  unfold Agree
  simp only [hsend, hread, Prod.map_fst, Prod.map_snd, id_eq, hfound]
  constructor
  · intro h hfits
    have hframe : frameOf fits error payload = .ok (payload ++ [newline]) := if_pos hfits
    have hreader := h _ hframe ⟨payload ++ [newline], [], by simp⟩ [] (by simp [BufReader.bytes])
    exact (readLimited_eq_frame_iff hline (by simp [BufReader.bytes])).1 hreader
  · intro h frame hframe reader rest hbytes
    unfold frameOf at hframe
    split at hframe
    · obtain rfl := Except.ok.inj hframe
      exact (readLimited_eq_frame_iff hline hbytes).2 (h (by assumption))
    · cases hframe

theorem orNone_eq_some_iff {tooLarge : ℕ → ε} {unterminated : ε} (r : FrameRead) :
    r.orNone tooLarge unterminated = .ok (some payload) ↔ r = .frame payload := by
  cases r <;> simp [FrameRead.orNone]

theorem orFail_eq_ok_iff {endOfStream : ε} {tooLarge : ℕ → ε} {unterminated : ε}
    (r : FrameRead) :
    r.orFail endOfStream tooLarge unterminated = .ok payload ↔ r = .frame payload := by
  cases r <;> simp [FrameRead.orFail]

/-- Each sender agrees with the reader it talks to exactly when every payload the sender takes is
readable. -/
theorem frame_limit_agreement (maximum : UInt64) (payload : List UInt8)
    (hline : newline ∉ payload) : (Agree sessionFrame readManifestFrame some maximum payload ↔
        (payload.length ≤ maximum.toNat → Readable maximum payload)) ∧
      (Agree sessionFrame readGadgetFrame some maximum payload ↔
        (payload.length ≤ maximum.toNat → Readable maximum payload)) ∧
      (Agree sessionFrame readAdministratorFrame some maximum payload ↔
        (payload.length ≤ maximum.toNat → Readable maximum payload)) ∧
      (Agree manifestReply readSessionFrame id maximum payload ↔
        (payload.length < maximum.toNat → Readable maximum payload)) ∧
      (Agree gadgetReply readSessionFrame id maximum payload ↔
        (payload.length < maximum.toNat → Readable maximum payload)) ∧
      (Agree administratorReply readSessionFrame id maximum payload ↔
        (payload.length ≤ maximum.toNat → Readable maximum payload)) ∧
      (Agree clientFrame readBrokerFrame some maximum payload ↔
        (payload.length < maximum.toNat → Readable maximum payload)) ∧
      (Agree brokerReply readClientFrame id maximum payload ↔
        (payload.length < maximum.toNat → Readable maximum payload)) := by
  refine ⟨?_, ?_, ?_, ?_, ?_, ?_, ?_, ?_⟩
  iterate 3 · exact agree_iff rfl (fun _ => rfl) orNone_eq_some_iff hline
  iterate 3 · exact agree_iff rfl (fun _ => rfl) orFail_eq_ok_iff hline
  · exact agree_iff rfl (fun _ => rfl) orNone_eq_some_iff hline
  · exact agree_iff rfl (fun _ => rfl) orFail_eq_ok_iff hline

theorem frame_limit_agreement_at_four : Agree sessionFrame readGadgetFrame some 4 [123, 125] :=
  ((frame_limit_agreement 4 [123, 125] (by decide)).2.1).2 fun _ => by decide

theorem frame_at_limit_refused : sessionFrame 2 [123, 125] = .ok [123, 125, 10] ∧
      ¬Agree sessionFrame readGadgetFrame some 2 [123, 125] := by
  refine ⟨rfl, fun h => ?_⟩
  have hread := (h [123, 125, 10] rfl ⟨[123, 125, 10], [], by simp⟩ [] rfl).1
  exact absurd hread (by decide)

end Gadgetron.Host
