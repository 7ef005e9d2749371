import Gadgetron.Lib.Exec
import Gadgetron.Lib.Wire

/-!
# Exchanges over a stream of delimited answers

A client writes one request after another to a peer that answers each of them, in order, on one
stream of bytes.
-/

namespace Lib.Exchange

open List Option

variable {β Req Id Resp ε : Type}

structure Client (β Req Id Resp ε : Type) where
  delim : β
  /-- The most bytes one read takes. -/
  limit : ℕ
  /-- From the message counter and a request: the bytes written, if any, and the next counter. -/
  prepare : ℕ → Req → Except ε (List β) × ℕ
  messageId : ℕ → Id
  decode : List β → Except ε (Id × Resp)
  /-- From the sequence number of the exchange, the number of answers it has passed over, and an
  answer: the result of the exchange, or nothing when it reads on. -/
  judge : ℕ → ℕ → Id → Resp → Option (Except ε Resp)

structure Answer (β Resp : Type) where
  seq : ℕ
  response : Resp
  text : List β

structure Reading (β : Type) where
  (seq stale : ℕ)
  frame : List β

inductive Outcome (ε Resp : Type)
  | abandoned
  | returned (result : Except ε Resp)
  deriving DecidableEq

/-- A client, its peer, and the stream between them.  Exchange `k` is the one whose answer is the
`k`-th of `sent`. -/
structure Channel (β Resp ε : Type) where
  next : ℕ
  sent : List (Answer β Resp)
  /-- The answers whose delimiter has not been read. -/
  unread : List (Answer β Resp)
  /-- Bytes that have not arrived. -/
  coming : List β
  /-- Bytes that have arrived and have not been read. -/
  buffer : List β
  reading : Option (Reading β)
  ended : List (ℕ × Outcome ε Resp)

inductive Event (β Req Resp : Type)
  | start (request : Req) (response : Resp) (text : List β)
  | arrive (count : ℕ)
  | read
  | abandon

namespace Channel

def initial (next : ℕ) : Channel β Resp ε := ⟨next, [], [], [], [], none, []⟩

def frame (s : Channel β Resp ε) : List β := (s.reading.map Reading.frame).getD []

/-- End the exchange that is under way. -/
def finish (s : Channel β Resp ε) (outcome : Outcome ε Resp) : Channel β Resp ε :=
  { s with reading := none, ended := s.ended ++ [(s.sent.length - 1, outcome)] }

end Channel

variable (C : Client β Req Id Resp ε)

/-- What a frame means for the exchange: its result, or nothing when it reads on. -/
def verdict (r : Reading β) (frame : List β) : Option (Except ε Resp) :=
  match C.decode frame with
  | .error e => some (.error e)
  | .ok (id, response) => C.judge r.seq r.stale id response

theorem verdict_of_ok {C : Client β Req Id Resp ε} {frame : List β} {id : Id} {response : Resp}
    (h : C.decode frame = .ok (id, response)) (r : Reading β) :
    verdict C r frame = C.judge r.seq r.stale id response := by
  unfold verdict
  rw [h]

theorem verdict_of_error {C : Client β Req Id Resp ε} {frame : List β} {e : ε}
    (h : C.decode frame = .error e) (r : Reading β) : verdict C r frame = some (.error e) := by
  unfold verdict
  rw [h]

def settle (s : Channel β Resp ε) (r : Reading β) (frame rest : List β) : Channel β Resp ε :=
  let s' := { s with buffer := rest, unread := s.unread.tail }
  match verdict C r frame with
  | some result => s'.finish (.returned result)
  | none => { s' with reading := some ⟨r.seq, r.stale + 1, []⟩ }

variable [DecidableEq β]

def step (s : Channel β Resp ε) : Event β Req Resp → Option (Channel β Resp ε)
  | .start request response text =>
    match s.reading with
    | some _ => none
    | none =>
      match C.prepare s.next request with
      | (.error _, next) => some { s with next }
      | (.ok _, next) =>
        let answer := ⟨s.next, response, text⟩
        some { s with
          next
          sent := s.sent ++ [answer]
          unread := s.unread ++ [answer]
          coming := s.coming ++ (text ++ [C.delim])
          reading := some ⟨s.next, 0, []⟩ }
  | .arrive count =>
    some { s with buffer := s.buffer ++ s.coming.take count, coming := s.coming.drop count }
  | .read =>
    s.reading.bind fun r =>
      match feed C.delim C.limit r.frame s.buffer with
      | .more frame => some { s with buffer := [], reading := some { r with frame } }
      | .done frame rest => some (settle C s r frame rest)
  | .abandon => s.reading.map fun _ => s.finish .abandoned

abbrev machine : Machine (Channel β Resp ε) (Event β Req Resp) := ⟨step C⟩

/-! ## What a step does -/

theorem start_eq {s : Channel β Resp ε} {request : Req} {written : List β} {next : ℕ}
    (hidle : s.reading = none) (hprep : C.prepare s.next request = (.ok written, next))
    (response : Resp) (text : List β) : (machine C).step s (.start request response text) =
      some { s with
        next
        sent := s.sent ++ [⟨s.next, response, text⟩]
        unread := s.unread ++ [⟨s.next, response, text⟩]
        coming := s.coming ++ (text ++ [C.delim])
        reading := some ⟨s.next, 0, []⟩ } := by
  show step C s (.start request response text) = _
  unfold step
  simp only [hidle, hprep]

variable {s s' : Channel β Resp ε}

theorem start_cases {request : Req} {response : Resp} {text : List β}
    (h : step C s (.start request response text) = some s') : s.reading = none ∧
      ((∃ e next, C.prepare s.next request = (.error e, next) ∧ s' = { s with next }) ∨
        ∃ written next, C.prepare s.next request = (.ok written, next) ∧ s' = { s with
            next
            sent := s.sent ++ [⟨s.next, response, text⟩]
            unread := s.unread ++ [⟨s.next, response, text⟩]
            coming := s.coming ++ (text ++ [C.delim])
            reading := some ⟨s.next, 0, []⟩ }) := by
  unfold step at h
  cases hreading : s.reading with
  | some r =>
    rw [hreading] at h
    cases h
  | none =>
    simp only [hreading] at h
    refine ⟨rfl, ?_⟩
    rcases hprep : C.prepare s.next request with ⟨e | written, next⟩
    · rw [hprep] at h
      exact .inl ⟨e, next, rfl, (some.inj h).symm⟩
    · rw [hprep] at h
      exact .inr ⟨written, next, rfl, (some.inj h).symm⟩

theorem read_cases (h : step C s .read = some s') : ∃ r, s.reading = some r ∧
      ((∃ frame, feed C.delim C.limit r.frame s.buffer = .more frame ∧
          s' = { s with buffer := [], reading := some { r with frame } }) ∨
        ∃ frame rest, feed C.delim C.limit r.frame s.buffer = .done frame rest ∧
          s' = settle C s r frame rest) := by
  unfold step at h
  cases hreading : s.reading with
  | none =>
    rw [hreading] at h
    cases h
  | some r =>
    simp only [hreading, bind_some] at h
    refine ⟨r, rfl, ?_⟩
    cases hfeed : feed C.delim C.limit r.frame s.buffer with
    | more frame =>
      rw [hfeed] at h
      exact .inl ⟨frame, rfl, (some.inj h).symm⟩
    | done frame rest =>
      rw [hfeed] at h
      exact .inr ⟨frame, rest, rfl, (some.inj h).symm⟩

theorem abandon_cases (h : step C s .abandon = some s') :
    (∃ r, s.reading = some r) ∧ s' = s.finish .abandoned := by
  obtain ⟨r, hr, hs'⟩ := map_eq_some_iff.1 h
  exact ⟨⟨r, hr⟩, hs'.symm⟩

/-! ## The stream and the unread answers -/

def texts (answers : List (Answer β Resp)) : List β :=
  answers.flatMap fun a => a.text ++ [C.delim]

/-- A proper answer: one frame within the limit that decodes to the message id of its request. -/
structure IsAnswer (a : Answer β Resp) : Prop where
  clean : C.delim ∉ a.text
  short : a.text.length < C.limit
  decodes : C.decode (a.text ++ [C.delim]) = .ok (C.messageId a.seq, a.response)

/-- The stream holds the unread answers, up to a part of the first one that is lost. -/
structure Framed (lost : List β) (s : Channel β Resp ε) : Prop where
  bytes : lost ++ s.frame ++ s.buffer ++ s.coming = texts C s.unread
  clean : C.delim ∉ lost ++ s.frame
  answers : ∀ a ∈ s.unread, IsAnswer C a

variable {C}

omit [DecidableEq β] in
theorem framed_initial (next : ℕ) : Framed C [] (Channel.initial next : Channel β Resp ε) :=
  ⟨rfl, by simp [Channel.initial, Channel.frame], by simp [Channel.initial]⟩

section

variable {lost : List β} {s s' : Channel β Resp ε}

theorem Framed.start {request : Req} {response : Resp} {text : List β} (h : Framed C lost s)
    (hanswer : ∀ written, (C.prepare s.next request).1 = .ok written →
      IsAnswer C (⟨s.next, response, text⟩ : Answer β Resp))
    (hstep : step C s (.start request response text) = some s') : Framed C lost s' := by
  obtain ⟨hidle, ⟨_, _, _, rfl⟩ | ⟨written, _, hprep, rfl⟩⟩ := start_cases C hstep
  · exact ⟨h.bytes, h.clean, h.answers⟩
  · have hbytes := h.bytes
    have hclean := h.clean
    simp only [Channel.frame, hidle, map_none, getD_none, append_nil]
      at hbytes hclean
    refine ⟨?_, ?_, ?_⟩
    · simp only [Channel.frame, map_some, getD_some, append_nil, texts,
        flatMap_append, flatMap_cons, flatMap_nil, ← List.append_assoc]
      rw [hbytes]
      rfl
    · simpa [Channel.frame] using hclean
    · intro a ha
      rcases mem_append.1 ha with ha | ha
      · exact h.answers a ha
      · rw [mem_singleton.1 ha]
        exact hanswer written (by rw [hprep])

theorem Framed.arrive {count : ℕ} (h : Framed C lost s)
    (hstep : step C s (.arrive count) = some s') : Framed C lost s' := by
  obtain rfl := some.inj hstep
  refine ⟨?_, h.clean, h.answers⟩
  show lost ++ s.frame ++ (s.buffer ++ s.coming.take count) ++ s.coming.drop count = _
  rw [← h.bytes, List.append_assoc _ _ (s.coming.drop count), List.append_assoc s.buffer,
    take_append_drop, ← List.append_assoc]

theorem Framed.abandon (h : Framed C lost s) (hstep : step C s .abandon = some s') :
    Framed C (lost ++ s.frame) s' := by
  obtain ⟨-, rfl⟩ := abandon_cases C hstep
  refine ⟨?_, ?_, h.answers⟩
  · show lost ++ s.frame ++ [] ++ s.buffer ++ s.coming = texts C s.unread
    rw [append_nil, h.bytes]
  · have hclean := h.clean
    simpa [Channel.finish, Channel.frame] using hclean

variable {unread : List (Answer β Resp)} {r : Reading β} {a : Answer β Resp}

/-- A pass of the read takes all that has arrived, or ends with the rest of the first unread
answer and leaves the others. -/
theorem Framed.feed (h : Framed C lost s) (hr : s.reading = some r)
    (hunread : s.unread = a :: unread) :
    (Lib.feed C.delim C.limit r.frame s.buffer = .more (r.frame ++ s.buffer) ∧
        C.delim ∉ lost ++ (r.frame ++ s.buffer)) ∨
      ∃ text rest, Lib.feed C.delim C.limit r.frame s.buffer = .done (text ++ [C.delim]) rest ∧
        lost ++ text = a.text ∧ rest ++ s.coming = texts C unread := by
  have hanswer := h.answers a (by simp [hunread])
  have hbytes := h.bytes
  have hclean := h.clean
  simp only [Channel.frame, hr, map_some, getD_some, hunread, texts,
    flatMap_cons, List.append_assoc, singleton_append] at hbytes hclean
  -- what was lost and what the exchange has of the frame are a beginning of the first answer
  obtain ⟨tail, htext, htail⟩ : ∃ tail, a.text = lost ++ r.frame ++ tail ∧
      s.buffer ++ s.coming = tail ++ C.delim :: texts C unread := by
    rw [← List.append_assoc] at hbytes
    rcases append_eq_append_iff.1 hbytes with ⟨tail, htext, htail⟩ | ⟨extra, hlost, htail⟩
    · exact ⟨tail, htext, htail⟩
    · cases extra with
      | nil =>
        refine ⟨[], by simpa using hlost.symm, ?_⟩
        simpa [texts] using htail.symm
      | cons b extra =>
        rw [cons_append, cons.injEq] at htail
        exact absurd (by simp [hlost, htail.1]) hclean
  have hframe : C.delim ∉ r.frame := fun hmem => hclean (mem_append_right _ hmem)
  have hshort : (r.frame ++ tail).length < C.limit := by
    refine Nat.lt_of_le_of_lt ?_ hanswer.short
    rw [htext]
    simp only [List.length_append]
    omega
  rcases feed_spec hframe (Nat.lt_of_le_of_lt (by simp) hshort) with
    ⟨taken, rest, hfeed, hcut⟩ | ⟨hfeed, hmem, -⟩
  · refine .inr ⟨r.frame ++ tail, rest, ?_, by rw [htext, List.append_assoc], ?_⟩
    all_goals
      have hdelim : C.delim ∉ r.frame ++ tail := by
        intro hmem
        refine hanswer.clean ?_
        rw [htext, List.append_assoc]
        exact mem_append_right _ hmem
      have hall := hcut s.coming
      rw [List.append_assoc, htail, ← List.append_assoc, cut_of_lt hdelim hshort,
        Prod.mk.injEq] at hall
    · rw [hfeed, ← hall.1]
    · exact hall.2.symm
  · refine .inl ⟨hfeed, fun h => ?_⟩
    rcases mem_append.1 h with h | h
    · exact hclean (mem_append_left _ h)
    · exact hmem h

variable {frame rest : List β}

omit [DecidableEq β] in
theorem settle_of_some {result : Except ε Resp} (h : verdict C r frame = some result) :
    settle C s r frame rest = { s with
        buffer := rest
        unread := s.unread.tail
        reading := none
        ended := s.ended ++ [(s.sent.length - 1, .returned result)] } := by
  unfold settle
  rw [h]
  rfl

omit [DecidableEq β] in
theorem settle_of_none (h : verdict C r frame = none) : settle C s r frame rest = { s with
        buffer := rest
        unread := s.unread.tail
        reading := some ⟨r.seq, r.stale + 1, []⟩ } := by
  unfold settle
  rw [h]

theorem Framed.read (h : Framed C lost s)
    (hunread : s.unread = a :: unread) (hstep : step C s .read = some s') :
    ∃ r, s.reading = some r ∧
      ((s' = { s with buffer := [], reading := some { r with frame := r.frame ++ s.buffer } } ∧
          Framed C lost s') ∨
        ∃ text rest, lost ++ text = a.text ∧ s' = settle C s r (text ++ [C.delim]) rest ∧
          Framed C [] s') := by
  obtain ⟨r, hr, hcase⟩ := read_cases C hstep
  refine ⟨r, hr, ?_⟩
  rcases h.feed hr hunread with ⟨hmore, hclean⟩ | ⟨text, rest, hdone, htext, hrest⟩
  · rw [hmore] at hcase
    obtain ⟨frame, hframe, rfl⟩ | ⟨_, _, hframe, -⟩ := hcase
    · cases hframe
      refine .inl ⟨rfl, ?_, hclean, h.answers⟩
      have hbytes := h.bytes
      simp only [Channel.frame, hr, map_some, getD_some] at hbytes
      simpa [Channel.frame] using hbytes
    · cases hframe
  · rw [hdone] at hcase
    obtain ⟨_, hframe, -⟩ | ⟨_, _, hframe, rfl⟩ := hcase
    · cases hframe
    · cases hframe
      refine .inr ⟨text, rest, htext, rfl, ?_⟩
      have hanswers : ∀ a ∈ s.unread.tail, IsAnswer C a :=
        fun a ha => h.answers a (mem_of_mem_tail ha)
      cases hverdict : verdict C r (text ++ [C.delim]) with
      | some result =>
        rw [settle_of_some hverdict]
        exact ⟨by simpa [Channel.frame, hunread] using hrest, by simp [Channel.frame], hanswers⟩
      | none =>
        rw [settle_of_none hverdict]
        exact ⟨by simpa [Channel.frame, hunread] using hrest, by simp [Channel.frame], hanswers⟩

theorem Framed.exists_settle (h : Framed C lost s) (hr : s.reading = some r)
    (hunread : s.unread = a :: unread) (hcoming : s.coming = []) :
    ∃ text rest, lost ++ text = a.text ∧
      step C s .read = some (settle C s r (text ++ [C.delim]) rest) := by
  rcases h.feed hr hunread with ⟨-, hclean⟩ | ⟨text, rest, hdone, htext, -⟩
  · have hbytes := h.bytes
    simp only [Channel.frame, hr, map_some, getD_some, hcoming, hunread, texts,
      flatMap_cons, append_nil, List.append_assoc] at hbytes
    rw [hbytes] at hclean
    simp at hclean
  · refine ⟨text, rest, htext, ?_⟩
    simp [step, hr, hdone]

end

end Lib.Exchange
