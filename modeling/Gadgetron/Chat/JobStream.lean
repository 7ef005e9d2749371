import Gadgetron.Chat.JobStore

/-!
# The stream of a chat job

`run_chat_job` fills the buffer of a job, and each response of `build_job_response` drains it from
an index on.
-/

namespace Gadgetron.Chat

open Lib List Option

abbrev Bytes := List UInt8

/-- The text `data: [DONE]` and an empty line. -/
def doneFrame : Bytes := [100, 97, 116, 97, 58, 32, 91, 68, 79, 78, 69, 93, 10, 10]

/-! ## The buffer -/

structure JobInner where
  status : JobStatus
  chunks : List Bytes
  errorMessage : Option String
  isFinished : Bool

/-- What `wait_for_chunk_after` returns. -/
inductive WaitResult
  | chunks (chunks : List Bytes) (finished : Bool)
  | finished

namespace JobInner

def new : JobInner := ⟨.streaming, [], none, false⟩

/-- `push_chunk` under the lock. -/
def push (inner : JobInner) (chunk : Bytes) : JobInner :=
  { inner with chunks := inner.chunks ++ [chunk] }

/-- The `mark_*` functions under the lock. -/
def mark (inner : JobInner) (terminal : Terminal) : JobInner :=
  { inner with
    status := terminal.status
    errorMessage := terminal.errorMessage.or inner.errorMessage
    isFinished := true }

/-- `wait_for_chunk_after` under the lock; without a result it goes on to wait. -/
def check (inner : JobInner) (current : ℕ) : Option WaitResult :=
  if current < inner.chunks.length then
    some (.chunks (inner.chunks.drop current) inner.isFinished)
  else if inner.isFinished then some .finished
  else none

variable {inner : JobInner} {current : ℕ}

theorem check_eq_chunks {chunks : List Bytes} {finished : Bool} :
    inner.check current = some (.chunks chunks finished) ↔
      current < inner.chunks.length ∧ inner.chunks.drop current = chunks ∧
        inner.isFinished = finished := by
  unfold check
  split_ifs with hlt hfin
  · simp [hlt]
  · simp [hlt]
  · simp [hlt]

theorem check_eq_finished : inner.check current = some .finished ↔
      inner.chunks.length ≤ current ∧ inner.isFinished = true := by
  unfold check
  split_ifs with hlt hfin
  · simp
    omega
  · simp [hfin]
    omega
  · simp [hfin]

theorem check_eq_none :
    inner.check current = none ↔ inner.chunks.length ≤ current ∧ inner.isFinished = false := by
  unfold check
  split_ifs with hlt hfin
  · simp
    omega
  · simp [hfin]
  · simp [hfin]
    omega

end JobInner

/-! ## The producer -/

inductive StreamItem (Chunk Error : Type)
  | chunk (chunk : Chunk)
  | error (error : Error)
  | finished

/-- The parts of the producer that are not under `run_chat_job` itself. -/
structure ProducerConfig (Chunk Error : Type) where
  /-- `chunk_to_sse_bytes`. -/
  chunkToSseBytes : Chunk → Bytes
  /-- `error_to_sse_bytes`. -/
  errorToSseBytes : Error → Bytes
  /-- `GadgetronError::error_message`. -/
  errorMessage : Error → String

/-- Where `run_chat_job` is. -/
inductive Producer
  | pulling
  /-- Before `push_chunk` takes the lock; then it goes on to pull, or to mark the job. -/
  | pushing (chunk : Bytes) (next : Option Terminal)
  /-- Before the notification of `push_chunk`. -/
  | pushed (next : Option Terminal)
  | marking (terminal : Terminal)
  /-- Before the notification of a `mark_*` function. -/
  | marked
  | returned
  deriving DecidableEq

def Producer.notifies : Producer → Bool
  | .pushed _ | .marked => true
  | _ => false

section

variable {Chunk Error : Type} (config : ProducerConfig Chunk Error)

def Producer.ofItem : StreamItem Chunk Error → Producer
  | .chunk chunk => .pushing (config.chunkToSseBytes chunk) none
  | .error error =>
    .pushing (config.errorToSseBytes error) (some (.error (config.errorMessage error)))
  | .finished => .pushing doneFrame (some .complete)

end

def Producer.ofCancellation : Producer := .pushing doneFrame (some .cancelled)

/-! ## A response -/

inductive TailPhase
  /-- Before it registers for the notification. -/
  | waiting
  | registered
  /-- At `notified.await`. -/
  | parked
  /-- In the loop over a batch of `count` chunks, with `rest` still to be sent. -/
  | sending (count : ℕ) (rest : List Bytes) (finished : Bool)
  | ended

/-- A response of `build_job_response` that starts at `since`: its task, the messages on the way,
and what the body has delivered. -/
structure Tail where
  (since cursor : ℕ)
  phase : TailPhase
  /-- The wait that it is registered for has been notified. -/
  woken : Bool
  (queue delivered : List Bytes)
  /-- The client is still there. -/
  connected : Bool

def channelCapacity : ℕ := 32

namespace Tail

/-- `build_job_response`. -/
def new (since : ℕ) : Tail where
  since := since
  cursor := since
  phase := .waiting
  woken := false
  queue := []
  delivered := []
  connected := true

def run (inner : JobInner) (tail : Tail) : Option Tail :=
  match tail.phase with
  | .waiting => some { tail with phase := .registered, woken := false }
  | .registered =>
    match inner.check tail.cursor with
    | some (.chunks chunks finished) =>
      some { tail with phase := .sending chunks.length chunks finished }
    | some .finished => some { tail with phase := .ended }
    | none => some { tail with phase := .parked }
  | .parked => if tail.woken then some { tail with phase := .waiting } else none
  | .sending count [] finished =>
    some { tail with
      cursor := tail.cursor + count
      phase := if finished then .ended else .waiting }
  | .sending count (chunk :: rest) finished =>
    if tail.connected = false then some { tail with phase := .ended }
    else if tail.queue.length < channelCapacity then
      some { tail with queue := tail.queue ++ [chunk], phase := .sending count rest finished }
    else none
  | .ended => none

def receive (tail : Tail) : Option Tail :=
  match tail.queue with
  | [] => none
  | chunk :: queue => some { tail with queue, delivered := tail.delivered ++ [chunk] }

def disconnect (tail : Tail) : Tail := { tail with queue := [], connected := false }

/-- `notify_waiters` on one that may be registered. -/
def wake (tail : Tail) : Tail :=
  match tail.phase with
  | .registered | .parked => { tail with woken := true }
  | _ => tail

end Tail

/-! ## The job -/

structure JobStream where
  inner : JobInner
  cancelRequested : Bool
  producer : Producer
  tails : List Tail

inductive StreamLabel (Chunk Error : Type)
  | pull (item : StreamItem Chunk Error)
  | requestCancel
  | cancel
  /-- The producer takes its next step after an item. -/
  | produce
  | subscribe (since : ℕ)
  | run (index : ℕ)
  | receive (index : ℕ)
  | disconnect (index : ℕ)

namespace JobStream

def initial : JobStream := ⟨.new, false, .pulling, []⟩

def notifyWaiters (s : JobStream) : JobStream := { s with tails := s.tails.map Tail.wake }

/-- The steps of `push_chunk` and the `mark_*` functions. -/
def produce (s : JobStream) : Option JobStream :=
  match s.producer with
  | .pushing chunk next => some { s with inner := s.inner.push chunk, producer := .pushed next }
  | .pushed none => some { s.notifyWaiters with producer := .pulling }
  | .pushed (some terminal) => some { s.notifyWaiters with producer := .marking terminal }
  | .marking terminal => some { s with inner := s.inner.mark terminal, producer := .marked }
  | .marked => some { s.notifyWaiters with producer := .returned }
  | .pulling | .returned => none

def updateTail (s : JobStream) (index : ℕ) (f : Tail → Option Tail) : Option JobStream :=
  s.tails[index]?.bind fun tail => (f tail).map fun tail' =>
    { s with tails := s.tails.set index tail' }

section

variable {Chunk Error : Type} (config : ProducerConfig Chunk Error)

def step (s : JobStream) : StreamLabel Chunk Error → Option JobStream
  | .pull item =>
    if s.producer = .pulling then some { s with producer := .ofItem config item } else none
  | .requestCancel => some { s with cancelRequested := true }
  | .cancel =>
    if s.producer = .pulling ∧ s.cancelRequested then some { s with producer := .ofCancellation }
    else none
  | .produce => s.produce
  | .subscribe since => some { s with tails := s.tails ++ [.new since] }
  | .run index => s.updateTail index (Tail.run s.inner)
  | .receive index => s.updateTail index Tail.receive
  | .disconnect index => s.updateTail index fun tail => some tail.disconnect

/-- A job under its producer, its responses and their clients. -/
abbrev machine : Machine JobStream (StreamLabel Chunk Error) := ⟨step config⟩

end

end JobStream

/-! ## What a response has sent -/

namespace Tail

def sent (tail : Tail) : List Bytes := tail.delivered ++ tail.queue

def batch (tail : Tail) : ℕ × List Bytes × Bool :=
  match tail.phase with
  | .sending count rest finished => (count, rest, finished)
  | .ended => (0, [], true)
  | _ => (0, [], false)

/-- How far a connected response will have come in the buffer with its batch: up to the place where
it looks next. -/
structure Sent (inner : JobInner) (tail : Tail) : Prop where
  since_le : tail.since ≤ tail.cursor
  within : tail.cursor + tail.batch.1 ≤ inner.chunks.length ∨
    tail.cursor + tail.batch.1 = tail.since
  sent_eq : tail.sent ++ tail.batch.2.1 =
    (inner.chunks.take (tail.cursor + tail.batch.1)).drop tail.since
  closing : tail.batch.2.2 = true →
    inner.isFinished = true ∧ inner.chunks.length ≤ tail.cursor + tail.batch.1

/-- A response that nothing will wake has nothing to do. -/
def Watched (inner : JobInner) (notifies : Bool) (tail : Tail) : Prop :=
  tail.phase = .parked → tail.woken = false → notifies = true ∨ inner.check tail.cursor = none

structure Fits (inner : JobInner) (notifies : Bool) (tail : Tail) : Prop where
  sent : tail.connected = true → tail.Sent inner
  watched : tail.Watched inner notifies

/-! ### The parts of a buffer -/

section

variable {α : Type} {l : List α} {since current stop : ℕ}

theorem slice_append (h : stop ≤ l.length ∨ stop = since) (a : α) :
    ((l ++ [a]).take stop).drop since = (l.take stop).drop since := by
  rcases h with hle | rfl
  · rw [take_append_of_le_length hle]
  · rw [drop_eq_nil_of_le (by simp), drop_eq_nil_of_le (by simp)]

theorem slice_append_drop (hsince : since ≤ current) :
    (l.take current).drop since ++ l.drop current = l.drop since := by
  conv_rhs => rw [← take_append_drop current l]
  by_cases hle : current ≤ l.length
  · rw [drop_append_of_le_length (by rw [length_take]; omega)]
  · rw [drop_eq_nil_of_le (by omega : l.length ≤ current), append_nil, append_nil]

theorem slice_prefix_drop : (l.take stop).drop since <+: l.drop since := by
  rw [drop_take]
  exact take_prefix _ _

end

/-! ### Steps of the producer -/

section

variable {inner : JobInner} {notifies : Bool} {tail : Tail} {tail' : Tail}

theorem Sent.congr (h : tail.Sent inner) (hsince : tail'.since = tail.since)
    (hle : tail.cursor ≤ tail'.cursor)
    (hreach : tail'.cursor + tail'.batch.1 = tail.cursor + tail.batch.1)
    (hsent : tail'.sent ++ tail'.batch.2.1 = tail.sent ++ tail.batch.2.1)
    (hclosing : tail'.batch.2.2 = tail.batch.2.2) : tail'.Sent inner where
  since_le := by
    rw [hsince]
    exact h.since_le.trans hle
  within := by
    rw [hreach, hsince]
    exact h.within
  sent_eq := by
    rw [hsent, hreach, hsince]
    exact h.sent_eq
  closing := by
    rw [hclosing, hreach]
    exact h.closing

theorem Sent.push (h : tail.Sent inner) (hopen : inner.isFinished = false) (chunk : Bytes) :
    tail.Sent (inner.push chunk) where
  since_le := h.since_le
  within := by
    have hlen : (inner.push chunk).chunks.length = inner.chunks.length + 1 := by
      simp [JobInner.push]
    have hwithin := h.within
    omega
  sent_eq := by
    rw [h.sent_eq]
    exact (slice_append h.within chunk).symm
  closing hclosing := by
    rw [(h.closing hclosing).1] at hopen
    cases hopen

theorem Sent.mark (h : tail.Sent inner) (terminal : Terminal) :
    tail.Sent (inner.mark terminal) where
  since_le := h.since_le
  within := h.within
  sent_eq := h.sent_eq
  closing hclosing := ⟨rfl, (h.closing hclosing).2⟩

section

variable (h : tail.Fits inner notifies)

include h

theorem Fits.push (hopen : inner.isFinished = false)
    (chunk : Bytes) : tail.Fits (inner.push chunk) true where
  sent hconn := (h.sent hconn).push hopen chunk
  watched _ _ := .inl rfl

theorem Fits.mark (terminal : Terminal) :
    tail.Fits (inner.mark terminal) true where
  sent hconn := (h.sent hconn).mark terminal
  watched _ _ := .inl rfl

theorem Fits.wake : tail.wake.Fits inner false := by
  obtain ⟨since, cursor, phase, woken, queue, delivered, connected⟩ := tail
  cases phase with
  | waiting | sending | ended => exact ⟨h.sent, nofun⟩
  | registered => exact ⟨fun hconn => (h.sent hconn).congr rfl le_rfl rfl rfl rfl, nofun⟩
  | parked =>
    exact ⟨fun hconn => (h.sent hconn).congr rfl le_rfl rfl rfl rfl,
      fun _ hwoken => by cases hwoken⟩

end

theorem fits_new (inner : JobInner) (notifies : Bool) (since : ℕ) :
    (Tail.new since).Fits inner notifies where
  sent _ := by
    refine ⟨Nat.le_refl since, .inr rfl, ?_, fun hclosing => nomatch hclosing⟩
    show [] = (inner.chunks.take (since + 0)).drop since
    rw [drop_eq_nil_of_le (by simp)]
  watched := nofun

/-! ### Steps of a response -/

section

variable (h : tail.Fits inner notifies)

include h

theorem Fits.check (hphase : tail.phase = .registered)
    {chunks : List Bytes} {finished : Bool}
    (hcheck : inner.check tail.cursor = some (.chunks chunks finished)) :
    Fits inner notifies { tail with phase := .sending chunks.length chunks finished } := by
  obtain ⟨hlt, rfl, rfl⟩ := JobInner.check_eq_chunks.1 hcheck
  refine ⟨fun hconn => ?_, nofun⟩
  have hsent := h.sent hconn
  have hbatch : tail.batch = (0, [], false) := by simp [batch, hphase]
  have hreach : tail.cursor + (inner.chunks.drop tail.cursor).length = inner.chunks.length := by
    rw [length_drop]
    omega
  constructor
  · exact hsent.since_le
  · exact .inl hreach.le
  · show tail.sent ++ inner.chunks.drop tail.cursor =
      (inner.chunks.take (tail.cursor + (inner.chunks.drop tail.cursor).length)).drop tail.since
    have heq := hsent.sent_eq
    rw [hbatch, append_nil, Nat.add_zero] at heq
    rw [hreach, take_length, heq, slice_append_drop hsent.since_le]
  · exact fun hfinished => ⟨hfinished, hreach.ge⟩

theorem Fits.run (hstep : tail.run inner = some tail') : tail'.Fits inner notifies := by
  cases hphase : tail.phase with
  | waiting =>
    simp only [Tail.run, hphase] at hstep
    cases hstep
    refine ⟨fun hconn => (h.sent hconn).congr rfl le_rfl ?_ ?_ ?_, nofun⟩
    all_goals simp [batch, hphase, Tail.sent]
  | registered =>
    simp only [Tail.run, hphase] at hstep
    split at hstep
    · rename_i chunks finished hcheck
      cases hstep
      exact h.check hphase hcheck
    · rename_i hcheck
      cases hstep
      obtain ⟨hle, hfin⟩ := JobInner.check_eq_finished.1 hcheck
      refine ⟨fun hconn => ?_, nofun⟩
      have hsent := h.sent hconn
      have hbatch : tail.batch = (0, [], false) := by simp [batch, hphase]
      have heq := hsent.sent_eq
      have hwithin := hsent.within
      rw [hbatch] at heq hwithin
      exact ⟨hsent.since_le, hwithin, heq, fun _ => ⟨hfin, hle⟩⟩
    · rename_i hcheck
      cases hstep
      refine ⟨fun hconn => (h.sent hconn).congr rfl le_rfl ?_ ?_ ?_, fun _ _ => .inr hcheck⟩
      all_goals simp [batch, hphase, Tail.sent]
  | parked =>
    simp only [Tail.run, hphase] at hstep
    split_ifs at hstep
    cases hstep
    refine ⟨fun hconn => (h.sent hconn).congr rfl le_rfl ?_ ?_ ?_, nofun⟩
    all_goals simp [batch, hphase, Tail.sent]
  | sending count rest finished =>
    cases rest with
    | nil =>
      simp only [Tail.run, hphase] at hstep
      cases hstep
      refine ⟨fun hconn => (h.sent hconn).congr rfl (Nat.le_add_right _ _) ?_ ?_ ?_, ?_⟩
      · cases finished <;> simp [batch, hphase]
      · cases finished <;> simp [batch, hphase, Tail.sent]
      · cases finished <;> simp [batch, hphase]
      · cases finished <;> exact nofun
    | cons chunk rest =>
      simp only [Tail.run, hphase] at hstep
      split_ifs at hstep with hgone hroom
      · cases hstep
        refine ⟨fun hconn => ?_, nofun⟩
        rw [show tail.connected = true from hconn] at hgone
        cases hgone
      · cases hstep
        refine ⟨fun hconn => (h.sent hconn).congr rfl le_rfl ?_ ?_ ?_, nofun⟩
        all_goals simp [batch, hphase, Tail.sent]
  | ended =>
    simp only [Tail.run, hphase] at hstep
    cases hstep

theorem Fits.receive (hstep : tail.receive = some tail') : tail'.Fits inner notifies := by
  cases hqueue : tail.queue with
  | nil =>
    simp only [Tail.receive, hqueue] at hstep
    cases hstep
  | cons chunk queue =>
    simp only [Tail.receive, hqueue] at hstep
    cases hstep
    refine ⟨fun hconn => (h.sent hconn).congr rfl le_rfl rfl ?_ rfl, h.watched⟩
    show tail.delivered ++ [chunk] ++ queue ++ _ = _
    simp [Tail.sent, hqueue, batch]

theorem Fits.disconnect : tail.disconnect.Fits inner notifies :=
  ⟨nofun, h.watched⟩

end

end

end Tail

/-! ## What holds in every state -/

namespace JobStream

/-- Nothing is pushed into a finished job, and every response fits the buffer. -/
structure Sound (s : JobStream) : Prop where
  finished : s.inner.isFinished = true → s.producer = .marked ∨ s.producer = .returned
  fits : ∀ tail ∈ s.tails, tail.Fits s.inner s.producer.notifies

theorem sound_initial : initial.Sound :=
  ⟨nofun, nofun⟩

section

variable {s s' : JobStream}

theorem sound_of_open (hopen : s.inner.isFinished = false)
    (hfits : ∀ tail ∈ s.tails, tail.Fits s.inner s.producer.notifies) : s.Sound := by
  refine ⟨fun hfin => ?_, hfits⟩
  rw [hfin] at hopen
  cases hopen

theorem Sound.setProducer (h : s.Sound) {producer : Producer} (hopen : s.inner.isFinished = false)
    (hnotifies : s.producer.notifies = producer.notifies) :
    Sound { s with producer } := by
  refine sound_of_open (s := { s with producer }) hopen fun tail htail => ?_
  rw [← hnotifies]
  exact h.fits tail htail

theorem Sound.notifyWaiters (h : s.Sound) :
    ∀ tail ∈ s.notifyWaiters.tails, tail.Fits s.inner false := by
  intro tail htail
  obtain ⟨before, hbefore, rfl⟩ := List.mem_map.1 htail
  exact (h.fits before hbefore).wake

theorem Sound.open_of (h : s.Sound) (hmarked : s.producer ≠ .marked)
    (hreturned : s.producer ≠ .returned) : s.inner.isFinished = false := by
  by_contra hfin
  rw [Bool.not_eq_false] at hfin
  rcases h.finished hfin with heq | heq
  · exact hmarked heq
  · exact hreturned heq

theorem Sound.produce (h : s.Sound) (hstep : s.produce = some s') : s'.Sound := by
  cases hproducer : s.producer with
  | pulling | returned =>
    simp only [JobStream.produce, hproducer] at hstep
    cases hstep
  | pushing chunk next =>
    simp only [JobStream.produce, hproducer] at hstep
    cases hstep
    have hopen := h.open_of (by simp [hproducer]) (by simp [hproducer])
    exact sound_of_open hopen fun tail htail => (h.fits tail htail).push hopen chunk
  | pushed next =>
    have hopen := h.open_of (by simp [hproducer]) (by simp [hproducer])
    cases next with
    | none | some =>
      simp only [JobStream.produce, hproducer] at hstep
      cases hstep
      exact sound_of_open hopen h.notifyWaiters
  | marking terminal =>
    simp only [JobStream.produce, hproducer] at hstep
    cases hstep
    exact ⟨fun _ => .inl rfl, fun tail htail => (h.fits tail htail).mark terminal⟩
  | marked =>
    simp only [JobStream.produce, hproducer] at hstep
    cases hstep
    exact ⟨fun _ => .inr rfl, h.notifyWaiters⟩

variable {f : Tail → Option Tail}

theorem updateTail_eq_some {index : ℕ} :
    s.updateTail index f = some s' ↔ ∃ tail tail', s.tails[index]? = some tail ∧
      f tail = some tail' ∧ s' = { s with tails := s.tails.set index tail' } := by
  unfold updateTail
  constructor
  · intro h
    obtain ⟨tail, htail, h⟩ := bind_eq_some_iff.1 h
    obtain ⟨tail', htail', rfl⟩ := map_eq_some_iff.1 h
    exact ⟨tail, tail', htail, htail', rfl⟩
  · rintro ⟨tail, tail', htail, htail', rfl⟩
    rw [htail, bind_some, htail', map_some]

theorem Sound.updateTail (h : s.Sound) {index : ℕ}
    (hf : ∀ tail tail', tail.Fits s.inner s.producer.notifies → f tail = some tail' →
      tail'.Fits s.inner s.producer.notifies) (hstep : s.updateTail index f = some s') :
    s'.Sound := by
  obtain ⟨tail, tail', htail, htail', rfl⟩ := updateTail_eq_some.1 hstep
  refine ⟨h.finished, fun other hother => ?_⟩
  rcases mem_or_eq_of_mem_set hother with hmem | rfl
  · exact h.fits other hmem
  · exact hf tail other (h.fits tail (mem_of_getElem? htail)) htail'

variable {Chunk Error : Type} {config : ProducerConfig Chunk Error}

theorem Sound.step (h : s.Sound) {label : StreamLabel Chunk Error}
    (hstep : s.step config label = some s') : s'.Sound := by
  cases label with
  | pull item =>
    obtain ⟨hpulling, hstep⟩ := ite_none_right_eq_some.1 hstep
    cases hstep
    apply h.setProducer (h.open_of (by simp [hpulling]) (by simp [hpulling]))
    rw [hpulling]
    cases item with
    | chunk | error | finished => rfl
  | requestCancel =>
    cases hstep
    exact ⟨h.finished, h.fits⟩
  | cancel =>
    obtain ⟨⟨hpulling, -⟩, hstep⟩ := ite_none_right_eq_some.1 hstep
    cases hstep
    apply h.setProducer (h.open_of (by simp [hpulling]) (by simp [hpulling]))
    rw [hpulling]
    rfl
  | produce => exact h.produce hstep
  | subscribe since =>
    cases hstep
    refine ⟨h.finished, fun tail htail => ?_⟩
    rcases mem_append.1 htail with hmem | hmem
    · exact h.fits tail hmem
    · rw [mem_singleton.1 hmem]
      exact Tail.fits_new _ _ since
  | run index => exact h.updateTail (fun _ _ hfits htail => hfits.run htail) hstep
  | receive index => exact h.updateTail (fun _ _ hfits htail => hfits.receive htail) hstep
  | disconnect index =>
    apply h.updateTail (fun tail tail' hfits htail => ?_) hstep
    rw [← some.inj htail]
    exact hfits.disconnect

end

/-! ## The way of a response to the end of the buffer -/

/-- The step is one of the tail. -/
def OfTail {Chunk Error : Type} (index : ℕ) (label : StreamLabel Chunk Error) : Prop :=
  label = .run index ∨ label = .receive index

end JobStream

namespace Tail

/-- A bound for the steps of a response that are still possible. -/
def rank (inner : JobInner) (tail : Tail) : ℕ :=
  6 * ((inner.chunks.drop tail.since).length - tail.sent.length) + tail.queue.length +
    match tail.phase with
    | .parked => if tail.woken then 5 else 0
    | .waiting => 3
    | .registered => if tail.woken then 6 else 2
    | .sending _ [] _ => 4
    | .sending _ (_ :: _) _ => 1
    | .ended => 0

def Resting (tail : Tail) : Prop :=
  tail.queue = [] ∧ (tail.phase = .ended ∨ tail.phase = .parked ∧ tail.woken = false)

section

variable {inner : JobInner} {notifies : Bool} {tail : Tail}

theorem Sent.length_lt (h : tail.Sent inner) {count : ℕ} {chunk : Bytes} {rest : List Bytes}
    {finished : Bool} (hphase : tail.phase = .sending count (chunk :: rest) finished) :
    tail.sent.length < (inner.chunks.drop tail.since).length := by
  have heq := h.sent_eq
  have hle := (@slice_prefix_drop _ inner.chunks tail.since (tail.cursor + tail.batch.1)).length_le
  rw [← heq, List.length_append] at hle
  simp only [batch, hphase, length_cons] at hle
  omega

structure Lowers (inner : JobInner) (tail tail' : Tail) : Prop where
  step : tail.run inner = some tail' ∨ tail.receive = some tail'
  connected : tail'.connected = true
  since : tail'.since = tail.since
  rank : tail'.rank inner < tail.rank inner

section

variable (hconn : tail.connected = true)

include hconn

theorem exists_lowers_of_queue {chunk : Bytes}
    {queue : List Bytes} (hqueue : tail.queue = chunk :: queue) :
    ∃ tail', Lowers inner tail tail' := by
  refine ⟨{ tail with queue, delivered := tail.delivered ++ [chunk] }, .inr ?_, hconn, rfl, ?_⟩
  · simp [Tail.receive, hqueue]
  · simp only [Tail.rank, Tail.sent, hqueue, List.length_append, length_cons,
      length_nil]
    omega

theorem exists_lowers_of_registered (hphase : tail.phase = .registered) :
    ∃ tail', Lowers inner tail tail' := by
  cases hcheck : inner.check tail.cursor with
  | none =>
    refine ⟨{ tail with phase := .parked }, .inl ?_, hconn, rfl, ?_⟩
    · simp [Tail.run, hphase, hcheck]
    · simp only [Tail.rank, Tail.sent, hphase]
      split_ifs
      all_goals omega
  | some result =>
    cases result with
    | finished =>
      refine ⟨{ tail with phase := .ended }, .inl ?_, hconn, rfl, ?_⟩
      · simp [Tail.run, hphase, hcheck]
      · simp only [Tail.rank, Tail.sent, hphase]
        split_ifs
        all_goals omega
    | chunks chunks finished =>
      refine ⟨{ tail with phase := .sending chunks.length chunks finished }, .inl ?_, hconn,
        rfl, ?_⟩
      · simp [Tail.run, hphase, hcheck]
      · obtain ⟨hlt, hdrop, -⟩ := JobInner.check_eq_chunks.1 hcheck
        obtain ⟨chunk, rest, rfl⟩ := exists_cons_of_ne_nil (l := chunks)
          (by rw [← hdrop, Ne, drop_eq_nil_iff]; omega)
        simp only [Tail.rank, Tail.sent, hphase]
        split_ifs
        all_goals omega

theorem exists_lowers_of_sending (hsent : tail.Sent inner)
    (hqueue : tail.queue = []) {count : ℕ} {rest : List Bytes} {finished : Bool}
    (hphase : tail.phase = .sending count rest finished) : ∃ tail', Lowers inner tail tail' := by
  cases rest with
  | nil =>
    refine ⟨{ tail with
      cursor := tail.cursor + count
      phase := if finished then .ended else .waiting }, .inl ?_, hconn, rfl, ?_⟩
    · simp [Tail.run, hphase]
    · simp only [Tail.rank, Tail.sent, hphase]
      cases finished with
      | true | false => simp
  | cons chunk rest =>
    have hlt := hsent.length_lt hphase
    refine ⟨{ tail with
      queue := tail.queue ++ [chunk]
      phase := .sending count rest finished }, .inl ?_, hconn, rfl, ?_⟩
    · simp [Tail.run, hphase, hconn, hqueue, channelCapacity]
    · simp only [Tail.rank, Tail.sent, hphase, hqueue, append_nil, nil_append,
        List.length_append, List.length_singleton, length_nil] at hlt ⊢
      cases rest with
      | nil | cons =>
        simp only
        omega

theorem exists_lowers_of_not_resting (hsent : tail.Sent inner)
    (hrest : ¬tail.Resting) : ∃ tail', Lowers inner tail tail' := by
  cases hqueue : tail.queue with
  | cons chunk queue => exact exists_lowers_of_queue hconn hqueue
  | nil =>
    cases hphase : tail.phase with
    | waiting =>
      refine ⟨{ tail with phase := .registered, woken := false }, .inl ?_, hconn, rfl, ?_⟩
      · simp [Tail.run, hphase]
      · simp only [Tail.rank, Tail.sent, hphase]
        simp
    | registered => exact exists_lowers_of_registered hconn hphase
    | parked =>
      have hwoken : tail.woken = true := by
        by_contra hnot
        rw [Bool.not_eq_true] at hnot
        exact hrest ⟨hqueue, .inr ⟨hphase, hnot⟩⟩
      refine ⟨{ tail with phase := .waiting }, .inl ?_, hconn, rfl, ?_⟩
      · simp [Tail.run, hphase, hwoken]
      · simp only [Tail.rank, Tail.sent, hphase, hwoken]
        simp
    | sending count rest finished => exact exists_lowers_of_sending hconn hsent hqueue hphase
    | ended => exact absurd ⟨hqueue, .inl hphase⟩ hrest

end

section

variable (h : tail.Fits inner notifies)

include h

theorem Fits.delivered_initial (hconn : tail.connected = true) :
    tail.delivered <+: inner.chunks.drop tail.since := by
  have hinitial : tail.delivered <+: tail.sent ++ tail.batch.2.1 :=
    (prefix_append _ _).trans (prefix_append _ _)
  rw [(h.sent hconn).sent_eq] at hinitial
  exact hinitial.trans slice_prefix_drop

theorem Fits.sent_of_ended (hconn : tail.connected = true)
    (hended : tail.phase = .ended) :
    inner.isFinished = true ∧ tail.delivered ++ tail.queue = inner.chunks.drop tail.since := by
  obtain ⟨hfin, hle⟩ := (h.sent hconn).closing (by simp [batch, hended])
  have heq := (h.sent hconn).sent_eq
  rw [take_of_length_le hle] at heq
  simp only [batch, hended, append_nil] at heq
  exact ⟨hfin, heq⟩

theorem Fits.woken_of_work (hparked : tail.phase = .parked)
    (hwork : inner.isFinished = true ∨ tail.cursor < inner.chunks.length) :
    tail.woken = true ∨ notifies = true := by
  cases hwoken : tail.woken with
  | true => exact .inl rfl
  | false =>
    refine .inr ?_
    rcases h.watched hparked hwoken with hnotifies | hcheck
    · exact hnotifies
    · obtain ⟨hle, hopen⟩ := JobInner.check_eq_none.1 hcheck
      rcases hwork with hfin | hlt
      · rw [hopen] at hfin
        cases hfin
      · omega

end

theorem Fits.delivered_of_resting (h : tail.Fits inner false) (hconn : tail.connected = true)
    (hrest : tail.Resting) : tail.delivered = inner.chunks.drop tail.since ∧
      (inner.isFinished = true ↔ tail.phase = .ended) := by
  obtain ⟨hqueue, hended | ⟨hparked, hwoken⟩⟩ := hrest
  · obtain ⟨hfin, heq⟩ := h.sent_of_ended hconn hended
    rw [hqueue, append_nil] at heq
    exact ⟨heq, iff_of_true hfin hended⟩
  · have heq := (h.sent hconn).sent_eq
    rcases h.watched hparked hwoken with hnotifies | hcheck
    · cases hnotifies
    · obtain ⟨hle, hopen⟩ := JobInner.check_eq_none.1 hcheck
      rw [take_of_length_le (hle.trans (Nat.le_add_right _ _))] at heq
      simp only [batch, hparked, Tail.sent, hqueue, append_nil] at heq
      exact ⟨heq, iff_of_false (by simp [hopen]) (by simp [hparked])⟩

end

end Tail

namespace JobStream

section

variable {Chunk Error : Type} {s : JobStream}

theorem Sound.exists_resting (h : s.Sound) (config : ProducerConfig Chunk Error) {index : ℕ}
    {tail : Tail} (htail : s.tails[index]? = some tail) (hconn : tail.connected = true) :
    ∃ own t tail', (∀ label ∈ own, OfTail index label) ∧
      (machine config).exec s own = some t ∧ t.Sound ∧ t.inner = s.inner ∧
      t.producer = s.producer ∧ t.tails[index]? = some tail' ∧ tail'.connected = true ∧
      tail'.since = tail.since ∧ tail'.Resting := by
  let I (t : JobStream) : Prop := t.Sound ∧ t.inner = s.inner ∧ t.producer = s.producer ∧
    ∃ tail', t.tails[index]? = some tail' ∧ tail'.connected = true ∧ tail'.since = tail.since
  let done (t : JobStream) : Prop := ∀ tail', t.tails[index]? = some tail' → tail'.Resting
  let rank (t : JobStream) : ℕ := (t.tails[index]?.map (Tail.rank s.inner)).getD 0
  have hprogress : ∀ t, I t → ¬done t → ∃ own t', (∀ label ∈ own, OfTail index label) ∧
      (machine config).exec t own = some t' ∧ I t' ∧ rank t' < rank t := by
    rintro t ⟨ht, hinner, hproducer, now, hnow, hnowconn, hsince⟩ hdone
    have hrest : ¬now.Resting := fun hrest => hdone fun tail' htail' => by
      rw [← mem_unique hnow htail']
      exact hrest
    have hfits := ht.fits now (mem_of_getElem? hnow)
    rw [hinner] at hfits
    obtain ⟨next, hstep, hnextconn, hnextsince, hrank⟩ :=
      Tail.exists_lowers_of_not_resting hnowconn (hfits.sent hnowconn) hrest
    obtain ⟨label, hlabel, hlabelstep⟩ : ∃ label, OfTail index label ∧
        t.step config label = some { t with tails := t.tails.set index next } := by
      rcases hstep with hrun | hreceive
      · refine ⟨.run index, .inl rfl, updateTail_eq_some.2 ⟨now, next, hnow, ?_, rfl⟩⟩
        rw [hinner]
        exact hrun
      · exact ⟨.receive index, .inr rfl, updateTail_eq_some.2 ⟨now, next, hnow, hreceive, rfl⟩⟩
    obtain ⟨hlt, -⟩ := List.getElem?_eq_some_iff.1 hnow
    have hset : (t.tails.set index next)[index]? = some next := getElem?_set_self hlt
    refine ⟨[label], _, by simpa using hlabel,
      (machine config).exec_cons_eq_some.2 ⟨_, hlabelstep, rfl⟩, ⟨ht.step hlabelstep, hinner,
        hproducer, next, hset, hnextconn, hnextsince.trans hsince⟩, ?_⟩
    simpa [rank, hset, hnow] using hrank
  obtain ⟨own, t, hown, hrun, ⟨ht, hinner, hproducer, tail', htail', hconn', hsince'⟩, hdone⟩ :=
    (machine config).exists_exec_of_rank I done (OfTail index) rank hprogress
      ⟨h, rfl, rfl, tail, htail, hconn, rfl⟩
  exact ⟨own, t, tail', hown, hrun, ht, hinner, hproducer, htail', hconn', hsince',
    hdone tail' htail'⟩

end

/-! ## Runs -/

theorem sound_of_exec {Chunk Error : Type} {config : ProducerConfig Chunk Error}
    {labels : List (StreamLabel Chunk Error)} {s : JobStream}
    (hrun : (machine config).exec initial labels = some s) : s.Sound :=
  (machine config).invariant (fun _ _ _ h hstep => h.step hstep) sound_initial hrun

/-- A response delivers the buffer from its start on, in order and once each; it ends only when the
job is finished and everything is sent; parked, it has nothing to do unless it has been woken or
will be; and left to itself after a notification it delivers all there is, and ends if the job is
finished. -/
theorem response_delivers_buffer {Chunk Error : Type} (config : ProducerConfig Chunk Error)
    {labels : List (StreamLabel Chunk Error)} {s : JobStream}
    (hrun : (machine config).exec initial labels = some s) {index : ℕ} {tail : Tail}
    (htail : s.tails[index]? = some tail) :
    (tail.connected = true → tail.delivered <+: s.inner.chunks.drop tail.since) ∧
      (tail.connected = true → tail.phase = .ended → s.inner.isFinished = true ∧
        tail.delivered ++ tail.queue = s.inner.chunks.drop tail.since) ∧ (tail.phase = .parked →
        (s.inner.isFinished = true ∨ tail.cursor < s.inner.chunks.length) →
          tail.woken = true ∨ s.producer.notifies = true) ∧
      (tail.connected = true → s.producer.notifies = false →
        ∃ own t tail', (∀ label ∈ own, OfTail index label) ∧
          (machine config).exec s own = some t ∧ t.inner = s.inner ∧
          t.tails[index]? = some tail' ∧ tail'.delivered = s.inner.chunks.drop tail.since ∧
          tail'.queue = [] ∧ (s.inner.isFinished = true ↔ tail'.phase = .ended)) := by
  have h := sound_of_exec hrun
  have hfits := h.fits tail (mem_of_getElem? htail)
  refine ⟨hfits.delivered_initial, hfits.sent_of_ended, hfits.woken_of_work, fun hconn hquiet => ?_⟩
  obtain ⟨own, t, tail', hown, hexec, ht, hinner, hproducer, htail', hconn', hsince, hrest⟩ :=
    h.exists_resting config htail hconn
  have hfits' := ht.fits tail' (mem_of_getElem? htail')
  rw [hproducer, hquiet] at hfits'
  obtain ⟨hdelivered, hended⟩ := hfits'.delivered_of_resting hconn' hrest
  rw [hinner, hsince] at hdelivered
  rw [hinner] at hended
  exact ⟨own, t, tail', hown, hexec, hinner, htail', hdelivered, hrest.1, hended⟩

def sampleProducer : ProducerConfig Bytes Unit where
  chunkToSseBytes := id
  errorToSseBytes _ := [101, 114, 114, 111, 114, 10, 10]
  errorMessage _ := "error"

/-- A response parks, a chunk is pushed, and the stream and the job come to their end. -/
def sampleStream : List (StreamLabel Bytes Unit) :=
  [.subscribe 0, .run 0, .run 0, .pull (.chunk [100, 97, 116, 97, 58, 32, 97, 10, 10]), .produce,
    .produce, .pull .finished, .produce, .produce, .produce, .produce]

theorem sampleStream_delivered : ∃ s, (machine sampleProducer).exec initial sampleStream = some s ∧
      s.inner.chunks = [[100, 97, 116, 97, 58, 32, 97, 10, 10], doneFrame] ∧
      ∃ own t tail, (machine sampleProducer).exec s own = some t ∧ t.tails[0]? = some tail ∧
        tail.delivered = s.inner.chunks ∧ tail.phase = .ended := by
  obtain ⟨s, hs, hinner, htail, hquiet⟩ : ∃ s, (machine sampleProducer).exec initial sampleStream =
      some s ∧ s.inner = ⟨.complete, [[100, 97, 116, 97, 58, 32, 97, 10, 10], doneFrame], none,
        true⟩ ∧ s.tails[0]? = some { Tail.new 0 with phase := .parked, woken := true } ∧
      s.producer.notifies = false :=
    ⟨_, rfl, rfl, rfl, rfl⟩
  obtain ⟨own, t, tail, -, ht, -, htail', hdelivered, -, hended⟩ :=
    (response_delivers_buffer sampleProducer hs htail).2.2.2 rfl hquiet
  refine ⟨s, hs, by rw [hinner], own, t, tail, ht, htail', hdelivered, hended.1 (by rw [hinner])⟩

end JobStream

end Gadgetron.Chat
