import Gadgetron.Lib.Lines
import Gadgetron.Provider.Stream

/-!
# Events of the providers

The events of a response as text, in whatever network chunks its bytes come.
-/

namespace Gadgetron.Provider

open Lib Policy List Option

inductive LineEnd
  | lf
  | crlf
  | cr
  deriving DecidableEq

def LineEnd.chars : LineEnd → List Char
  | .lf => ['\n']
  | .crlf => ['\r', '\n']
  | .cr => ['\r']

def OneLine (text : List Char) : Prop := '\n' ∉ text ∧ '\r' ∉ text

@[ext]
structure DataText where
  text : List Char
  oneLine : OneLine text
  notEmpty : text ≠ []
  first : ∀ c ∈ text.head?, isWhitespace c = false
  last : ∀ c ∈ text.getLast?, isWhitespace c = false
  json : text ≠ "[DONE]".toList

def DataText.string (data : DataText) : String := String.ofList data.text

@[ext]
structure SseEvent where
  /-- The name on its `event:` line. -/
  name : Option {name : List Char // OneLine name}
  /-- Whether a blank follows `data:`. -/
  spaced : Bool
  data : DataText

namespace SseEvent

def plain (e : SseEvent) : Bool := e.name.isNone && e.spaced

def nameLines (e : SseEvent) : List (List Char) :=
  match e.name with
  | some name => ["event: ".toList ++ name.1]
  | none => []

def dataLine (e : SseEvent) : List Char :=
  (if e.spaced then "data: " else "data:").toList ++ e.data.text

def lines (e : SseEvent) : List (List Char) := e.nameLines ++ [e.dataLine, []]

end SseEvent

def joinLines (eol : LineEnd) (lines : List (List Char)) : List Char :=
  lines.flatMap (· ++ eol.chars)

def doneLines (done : Bool) : List (List Char) :=
  if done then ["data: [DONE]".toList, []] else []

def streamText (eol : LineEnd) (events : List SseEvent) (done : Bool) : List Char :=
  joinLines eol (events.flatMap SseEvent.lines ++ doneLines done)

/-! ## Faithful streams -/

section

variable (events : List SseEvent) (chunks : List (List UInt8))

/-- The stream yields the values of all data lines, however JSON is read. -/
def OpenAiFaithful (label : String) : Prop :=
  ∀ (parse : String → Except String ChatChunk) (value : String → ChatChunk),
    (∀ e ∈ events, parse e.data.string = .ok (value e.data.string)) →
      (openAiStyle label parse).chatStream [] (chunks.map .ok) =
        (events.map fun e => value e.data.string).map .ok

/-- The stream yields a chunk for every candidate; `candidates` is how many a data line has. -/
def GeminiFaithful (candidates : String → ℕ) (model : String) : Prop :=
  ∀ (parse : String → Except String GeminiStreamChunk) (value : String → GeminiStreamChunk),
    (∀ e ∈ events, parse e.data.string = .ok (value e.data.string)) →
    (∀ e ∈ events, (value e.data.string).candidates.length = candidates e.data.string) →
      (gemini model parse).chatStream [] (chunks.map .ok) =
        (events.flatMap fun e => (value e.data.string).candidates.map fun candidate =>
          geminiChunk model candidate.text candidate.finishReason).map .ok

/-- The stream yields the chunks of all events; `[DONE]` is no JSON. -/
def AnthropicFaithful (chatId : String) (created : UInt64) : Prop :=
  ∀ (parse : String → Option Json) (value : String → Json), parse "[DONE]" = none →
    (∀ e ∈ events, parse e.data.string = some (value e.data.string)) →
      (anthropic chatId created parse).chatStream [] (chunks.map .ok) =
        (events.flatMap fun e => anthropicItems chatId created (value e.data.string)).map .ok

/-- Each decoder turns the events of its provider into its chunks. -/
structure Faithful (candidates : String → ℕ) : Prop where
  openAi : OpenAiFaithful events chunks "OpenAI"
  vllm : OpenAiFaithful events chunks "vLLM"
  sglang : OpenAiFaithful events chunks "SGLang"
  ollama : OpenAiFaithful events chunks "Ollama"
  gemini : ∀ model, GeminiFaithful events chunks candidates model
  anthropic : ∀ chatId created, AnthropicFaithful events chunks chatId created

/-- Every event is one that frames keep, and every network chunk is a text by itself. -/
def Intact (eol : LineEnd) : Prop :=
  events = [] ∨ eol = .lf ∧ (∀ e ∈ events, e.plain = true) ∧
    ∀ chunk ∈ chunks, ∃ text, chunk = encodeText text

end

/-! ## Lines -/

theorem joinLines_append (eol : LineEnd) (lines more : List (List Char)) :
    joinLines eol (lines ++ more) = joinLines eol lines ++ joinLines eol more :=
  flatMap_append

theorem joinLines_cons (eol : LineEnd) (line : List Char) (lines : List (List Char)) :
    joinLines eol (line :: lines) = line ++ eol.chars ++ joinLines eol lines := flatMap_cons

theorem streamText_cons (eol : LineEnd) (e : SseEvent) (events : List SseEvent) (done : Bool) :
    streamText eol (e :: events) done = joinLines eol e.lines ++ streamText eol events done := by
  rw [streamText, flatMap_cons, List.append_assoc, joinLines_append]
  rfl

theorem dataPrefix_ascii (spaced : Bool) :
    ∀ c ∈ (if spaced then "data: " else "data:").toList, c.toNat < 0x80 := by
  cases spaced <;> exact forall_mem_of_all (by decide)

theorem OneLine.append {text text' : List Char} (h : OneLine text) (h' : OneLine text') :
    OneLine (text ++ text') :=
  ⟨fun hmem => (mem_append.1 hmem).elim h.1 h'.1, fun hmem => (mem_append.1 hmem).elim h.2 h'.2⟩

theorem SseEvent.dataLine_oneLine (e : SseEvent) : OneLine e.dataLine := by
  refine OneLine.append ?_ e.data.oneLine
  cases e.spaced <;> exact ⟨by decide, by decide⟩

theorem SseEvent.lines_oneLine (e : SseEvent) : ∀ line ∈ e.lines, OneLine line := by
  intro line hline
  obtain hline | hline := mem_append.1 hline
  · unfold nameLines at hline
    split at hline
    · rename_i name _
      rw [mem_singleton.1 hline]
      exact OneLine.append ⟨by decide, by decide⟩ name.2
    · exact absurd hline not_mem_nil
  · obtain rfl | hline := mem_cons.1 hline
    · exact e.dataLine_oneLine
    · rw [mem_singleton.1 hline]
      exact ⟨not_mem_nil, not_mem_nil⟩

theorem streamLines_oneLine (events : List SseEvent) (done : Bool) :
    ∀ line ∈ events.flatMap SseEvent.lines ++ doneLines done, OneLine line := by
  intro line hline
  obtain hline | hline := mem_append.1 hline
  · obtain ⟨e, _, hline⟩ := mem_flatMap.1 hline
    exact e.lines_oneLine line hline
  · have hdone : ∀ line ∈ ["data: [DONE]".toList, []], OneLine line := by
      simp only [OneLine]
      decide
    unfold doneLines at hline
    split at hline
    · exact hdone line hline
    · exact absurd hline not_mem_nil

/-! ## Frames of lines -/

theorem takeFrames_char {c : Char} (hc : c ≠ '\n') (text : List Char) :
    takeFrames (c :: text) = pushChar c (takeFrames text) := by
  rw [takeFrames]
  exact fun _ h => absurd h hc

theorem takeFrames_newline {text : List Char} (h : text.head? ≠ some '\n') :
    takeFrames ('\n' :: text) = pushChar '\n' (takeFrames text) := by
  rw [takeFrames]
  rintro rest - rfl
  exact h rfl

theorem takeFrames_line {line text frame left : List Char} {frames : List (List Char)}
    (hline : '\n' ∉ line) (h : takeFrames text = (frame :: frames, left)) :
    takeFrames (line ++ text) = ((line ++ frame) :: frames, left) := by
  induction line with
  | nil => exact h
  | cons c line ih =>
    rw [cons_append, takeFrames_char fun hc => hline (hc ▸ mem_cons_self),
      ih fun hmem => hline (mem_cons_of_mem c hmem)]
    rfl

theorem pushChar_none (c : Char) {taken : List (List Char) × List Char} (h : taken.1 = []) :
    (pushChar c taken).1 = [] := by
  obtain ⟨frames, left⟩ := taken
  obtain rfl : frames = [] := h
  rfl

theorem takeFrames_line_none {line text : List Char} (hline : '\n' ∉ line)
    (h : (takeFrames text).1 = []) : (takeFrames (line ++ text)).1 = [] := by
  induction line with
  | nil => exact h
  | cons c line ih =>
    rw [cons_append, takeFrames_char fun hc => hline (hc ▸ mem_cons_self)]
    exact pushChar_none c (ih fun hmem => hline (mem_cons_of_mem c hmem))

theorem takeFrames_joinLines {eol : LineEnd} (heol : eol ≠ .lf) {lines : List (List Char)}
    (hlines : ∀ line ∈ lines, OneLine line) : (takeFrames (joinLines eol lines)).1 = [] := by
  induction lines with
  | nil => rfl
  | cons line lines ih =>
    obtain ⟨hline, hlines⟩ := forall_mem_cons.1 hlines
    rw [joinLines_cons, List.append_assoc]
    refine takeFrames_line_none hline.1 ?_
    cases eol with
    | lf => exact absurd rfl heol
    | cr => exact takeFrames_line_none (by decide : '\n' ∉ ['\r']) (ih hlines)
    | crlf =>
      have hhead : (joinLines .crlf lines).head? ≠ some '\n' := by
        cases lines with
        | nil => exact nofun
        | cons line lines =>
          obtain ⟨hline, -⟩ := forall_mem_cons.1 hlines
          rw [joinLines_cons, List.append_assoc]
          cases line with
          | nil => exact (by decide : some '\r' ≠ some '\n')
          | cons c line =>
            exact fun hc => hline.1 (some.inj hc ▸ mem_cons_self)
      change (takeFrames ('\r' :: '\n' :: joinLines .crlf lines)).1 = []
      rw [takeFrames_char (by decide), takeFrames_newline hhead]
      exact pushChar_none _ (pushChar_none _ (ih hlines))

def SseEvent.frame (e : SseEvent) : List Char :=
  match e.name with
  | some name => "event: ".toList ++ name.1 ++ '\n' :: e.dataLine
  | none => e.dataLine

def doneFrames (done : Bool) : List (List Char) := if done then ["data: [DONE]".toList] else []

theorem takeFrames_event (e : SseEvent) (text : List Char) :
    takeFrames (joinLines .lf e.lines ++ text) =
      (e.frame :: (takeFrames text).1, (takeFrames text).2) := by
  have hdata : takeFrames (e.dataLine ++ '\n' :: '\n' :: text) =
      (e.dataLine :: (takeFrames text).1, (takeFrames text).2) := by
    have h := takeFrames_line e.dataLine_oneLine.1
      (show takeFrames ('\n' :: '\n' :: text) = ([] :: _, _) from rfl)
    rwa [append_nil] at h
  have hlast : joinLines .lf [e.dataLine, []] ++ text = e.dataLine ++ '\n' :: '\n' :: text := by
    simp [joinLines, LineEnd.chars]
  rw [SseEvent.lines, joinLines_append, List.append_assoc, hlast, SseEvent.nameLines,
    SseEvent.frame]
  cases e.name with
  | none => exact hdata
  | some name =>
    have hname : OneLine ("event: ".toList ++ name.1) :=
      OneLine.append ⟨by decide, by decide⟩ name.2
    have hhead : (e.dataLine ++ '\n' :: '\n' :: text).head? ≠ some '\n' := by
      unfold SseEvent.dataLine
      cases e.spaced <;> exact (by decide : some 'd' ≠ some '\n')
    have hnewline := takeFrames_newline hhead
    rw [hdata] at hnewline
    have hframes := takeFrames_line hname.1 hnewline
    rw [← hframes]
    simp [joinLines, LineEnd.chars]

theorem takeFrames_streamText (events : List SseEvent) (done : Bool) :
    takeFrames (streamText .lf events done) =
      (events.map SseEvent.frame ++ doneFrames done, []) := by
  induction events with
  | nil => cases done <;> decide
  | cons e events ih => rw [streamText_cons, takeFrames_event, ih]; rfl

/-! ## What a frame yields -/

theorem SseEvent.dataLine_head (e : SseEvent) : e.dataLine.head? = some 'd' := by
  unfold dataLine
  cases e.spaced <;> rfl

theorem SseEvent.dataLine_last (e : SseEvent) : e.dataLine.getLast? = e.data.text.getLast? := by
  rw [dataLine, getLast?_append_of_ne_nil _ e.data.notEmpty]

theorem SseEvent.frame_head (e : SseEvent) :
    e.frame.head? = some (if e.name.isNone then 'd' else 'e') := by
  unfold frame
  cases e.name with
  | none => exact e.dataLine_head
  | some name => rfl

theorem SseEvent.frame_last (e : SseEvent) : e.frame.getLast? = e.data.text.getLast? := by
  have hdata : e.dataLine ≠ [] := by
    intro h
    have hhead := e.dataLine_head
    rw [h] at hhead
    cases hhead
  unfold frame
  cases e.name with
  | none => exact e.dataLine_last
  | some name =>
    rw [getLast?_append_of_ne_nil _ (cons_ne_nil _ _),
      ← singleton_append, getLast?_append_of_ne_nil _ hdata, e.dataLine_last]

theorem trim_frame (e : SseEvent) : trim (String.ofList e.frame) = String.ofList e.frame := by
  refine trim_ofList ?_ ?_
  · rw [e.frame_head]
    cases e.name.isNone <;> exact forall_mem_of_optionAll (by decide)
  · rw [e.frame_last]
    exact e.data.last

theorem dataOf_ofList_none {text : List Char} (h : ∀ rest, text ≠ "data: ".toList ++ rest) :
    dataOf (String.ofList text) = none := by
  have hline : (String.ofList text).toList = text := String.toList_ofList
  rw [dataOf, hline]
  cases hprefix : "data: ".toList.isPrefixOf? text with
  | none => rfl
  | some rest => exact absurd (isPrefixOf?_eq_some_iff.1 hprefix) (h rest)

theorem dataOf_ofList (text : List Char) :
    dataOf (String.ofList ("data: ".toList ++ text)) = some (String.ofList text) := by
  have hline : (String.ofList ("data: ".toList ++ text)).toList = "data: ".toList ++ text :=
    String.toList_ofList
  rw [dataOf, hline, isPrefixOf?_eq_some_iff.2 rfl]
  rfl

theorem frame_of_not_plain {e : SseEvent} (h : e.plain = false) (rest : List Char) :
    e.frame ≠ "data: ".toList ++ rest := by
  intro hframe
  have hhead : e.frame.head? = some 'd' := by rw [hframe]; rfl
  rw [e.frame_head] at hhead
  cases hname : e.name with
  | some name =>
    rw [hname] at hhead
    exact absurd (some.inj hhead) (by decide : 'e' ≠ 'd')
  | none =>
    have hspaced : e.spaced = false := by
      rw [SseEvent.plain, hname] at h
      exact h
    rw [SseEvent.frame, hname, SseEvent.dataLine, hspaced] at hframe
    have htext : e.data.text = ' ' :: rest :=
      append_cancel_left (show "data:".toList ++ e.data.text = "data:".toList ++ _ from hframe)
    have hblank := e.data.first ' ' (by rw [htext]; rfl)
    exact absurd hblank (by decide)

theorem frame_of_plain {e : SseEvent} (h : e.plain = true) :
    e.frame = "data: ".toList ++ e.data.text := by
  obtain ⟨hname, hspaced⟩ := (Bool.and_eq_true_iff).1 h
  rw [SseEvent.frame, isNone_iff_eq_none.1 hname, SseEvent.dataLine, hspaced]
  rfl

variable {α : Type}

theorem readFrame_event (p : StreamProvider α) (e : SseEvent) :
    p.readFrame e.frame = if e.plain then p.decode e.data.string else .ok [] := by
  have hdone : String.ofList e.frame ≠ "data: [DONE]" := by
    intro hframe
    have hframe : e.frame = "data: ".toList ++ "[DONE]".toList := String.ofList_injective hframe
    cases hplain : e.plain with
    | false => exact frame_of_not_plain hplain _ hframe
    | true =>
      rw [frame_of_plain hplain] at hframe
      exact e.data.json (append_cancel_left hframe)
  have hempty : String.ofList e.frame ≠ "" := by
    intro hframe
    have hhead := e.frame_head
    rw [show e.frame = [] from String.ofList_injective hframe] at hhead
    cases hhead
  rw [StreamProvider.readFrame, trim_frame, if_neg fun h => h.elim hempty fun h => hdone h.2]
  cases hplain : e.plain with
  | false => rw [dataOf_ofList_none (frame_of_not_plain hplain)]; rfl
  | true => rw [frame_of_plain hplain, dataOf_ofList]; rfl

theorem readFrame_done (p : StreamProvider α)
    (hdone : p.skipsDone = true ∨ p.decode "[DONE]" = .ok []) :
    p.readFrame "data: [DONE]".toList = .ok [] := by
  have hline : trim (String.ofList "data: [DONE]".toList) = "data: [DONE]" := by decide
  rw [StreamProvider.readFrame, hline]
  cases hskips : p.skipsDone with
  | true => rfl
  | false =>
    have hdecode := hdone.resolve_left (by rw [hskips]; exact Bool.false_ne_true)
    rw [if_neg (by decide), show dataOf "data: [DONE]" = some "[DONE]" by decide]
    exact hdecode

theorem readFrames_events (p : StreamProvider α) (events : List SseEvent)
    (done : Bool) (items : SseEvent → List α)
    (hdone : p.skipsDone = true ∨ p.decode "[DONE]" = .ok [])
    (hdecode : ∀ e ∈ events, e.plain = true → p.decode e.data.string = .ok (items e)) :
    (p.readFrames (events.map SseEvent.frame ++ doneFrames done)).1 =
      ((events.filter SseEvent.plain).flatMap items).map .ok := by
  induction events with
  | nil =>
    cases done with
    | false => rfl
    | true =>
      simp only [doneFrames, if_true, map_nil, nil_append,
        StreamProvider.readFrames, readFrame_done p hdone]
      rfl
  | cons e events ih =>
    have ih := ih fun e he => hdecode e (mem_cons_of_mem _ he)
    rw [map_cons, cons_append, StreamProvider.readFrames, readFrame_event]
    cases hplain : e.plain with
    | false =>
      rw [filter_cons_of_neg (by rw [hplain]; exact Bool.false_ne_true), ← ih]
      rfl
    | true =>
      rw [filter_cons_of_pos hplain, if_pos rfl,
        hdecode e mem_cons_self hplain, flatMap_cons, map_append, ← ih]

/-! ## Garbled events -/

structure GarbledEvent (e read : SseEvent) : Prop where
  name : read.name = none ↔ e.name = none
  spaced : read.spaced = e.spaced
  data : Garbled e.data.text read.data.text

theorem garbled_oneLine {text read : List Char} (h : Garbled text read) (htext : OneLine text) :
    OneLine read := by
  constructor
  · intro hmem
    exact (h.mem hmem).elim htext.1 (by decide)
  · intro hmem
    exact (h.mem hmem).elim htext.2 (by decide)

variable {read : List Char}

theorem garbled_data (data : DataText) (h : Garbled data.text read) :
    ∃ data' : DataText, data'.text = read := by
  refine ⟨⟨read, garbled_oneLine h data.oneLine, ?_, ?_, ?_, ?_⟩, rfl⟩
  · intro hnil
    have hlength := h.length_le
    rw [hnil] at hlength
    exact data.notEmpty (eq_nil_of_length_eq_zero (Nat.le_zero.1 hlength))
  · intro c hc
    obtain hc | rfl := h.head c hc
    · exact data.first c hc
    · decide
  · intro c hc
    obtain hc | rfl := h.last c hc
    · exact data.last c hc
    · decide
  · intro hjson
    refine data.json (Eq.trans (h.eq_of_notMem ?_).symm hjson)
    rw [hjson]
    decide

theorem garbled_event (eol : LineEnd) (e : SseEvent) (h : Garbled (joinLines eol e.lines) read) :
    ∃ e', read = joinLines eol e'.lines ∧ GarbledEvent e e' := by
  rw [SseEvent.lines, joinLines_append] at h
  obtain ⟨readName, readData, rfl, hname, hdata⟩ := h.of_append
  rw [joinLines_cons, SseEvent.dataLine, List.append_assoc, List.append_assoc] at hdata
  obtain ⟨rest, rfl, hrest⟩ := hdata.of_ascii_append (dataPrefix_ascii e.spaced)
  obtain ⟨text, rfl, htext⟩ := hrest.of_append_ascii (by
    rw [joinLines_cons]
    cases eol <;> exact forall_mem_of_all (by decide))
  obtain ⟨data, rfl⟩ := garbled_data e.data htext
  cases hevent : e.name with
  | none =>
    rw [SseEvent.nameLines, hevent] at hname
    cases hname
    refine ⟨⟨none, e.spaced, data⟩, ?_, ⟨iff_of_true rfl hevent, rfl, htext⟩⟩
    simp only [SseEvent.lines, SseEvent.nameLines, SseEvent.dataLine, joinLines_append,
      joinLines_cons, List.append_assoc]
    rfl
  | some name =>
    rw [SseEvent.nameLines, hevent] at hname
    simp only [joinLines_cons, List.append_assoc] at hname
    obtain ⟨line, rfl, hline⟩ := hname.of_ascii_append (forall_mem_of_all (by decide))
    obtain ⟨name', rfl, hname'⟩ := hline.of_append_ascii (by
      cases eol <;> exact forall_mem_of_all (by decide))
    refine ⟨⟨some ⟨name', garbled_oneLine hname' name.2⟩, e.spaced, data⟩, ?_,
      ⟨iff_of_false (some_ne_none _) (hevent ▸ some_ne_none _), rfl, htext⟩⟩
    simp only [SseEvent.lines, SseEvent.nameLines, SseEvent.dataLine, joinLines_append,
      joinLines_cons, List.append_assoc]

theorem garbled_stream (eol : LineEnd) (events : List SseEvent) (done : Bool)
    (h : Garbled (streamText eol events done) read) :
    ∃ events', read = streamText eol events' done ∧ List.Forall₂ GarbledEvent events events' := by
  induction events generalizing read with
  | nil =>
    refine ⟨[], h.eq_of_ascii ?_, .nil⟩
    cases eol <;> cases done <;> exact forall_mem_of_all (by decide)
  | cons e events ih =>
    rw [streamText_cons] at h
    obtain ⟨readEvent, rest, rfl, hevent, hrest⟩ := h.of_append
    obtain ⟨e', rfl, he⟩ := garbled_event eol e hevent
    obtain ⟨events', rfl, hevents⟩ := ih hrest
    exact ⟨e' :: events', (streamText_cons eol e' events' done).symm, .cons he hevents⟩

/-! ## What a stream yields -/

section

variable {eol : LineEnd} {events : List SseEvent} {done : Bool} {chunks : List (List UInt8)}
variable {α : Type} (p : StreamProvider α)

theorem chatStream_lf (hread : readPieces chunks = streamText .lf events done)
    (items : SseEvent → List α) (hdone : p.skipsDone = true ∨ p.decode "[DONE]" = .ok [])
    (hdecode : ∀ e ∈ events, e.plain = true → p.decode e.data.string = .ok (items e)) :
    p.chatStream [] (chunks.map .ok) = ((events.filter SseEvent.plain).flatMap items).map .ok := by
  rw [chatStream_eq p rfl, nil_append, hread, takeFrames_streamText]
  exact readFrames_events p events done items hdone hdecode

theorem chatStream_not_lf (heol : eol ≠ .lf)
    (hread : readPieces chunks = streamText eol events done) :
    p.chatStream [] (chunks.map .ok) = [] := by
  rw [chatStream_eq p rfl, nil_append, hread, streamText,
    takeFrames_joinLines heol (streamLines_oneLine events done)]
  rfl

theorem chatStream_intact (h : chunks.flatten = encodeText (streamText eol events done))
    (hintact : Intact events chunks eol) (items : SseEvent → List α)
    (hdone : p.skipsDone = true ∨ p.decode "[DONE]" = .ok [])
    (hdecode : ∀ e ∈ events, p.decode e.data.string = .ok (items e)) :
    p.chatStream [] (chunks.map .ok) = (events.flatMap items).map .ok := by
  obtain rfl | ⟨rfl, hplain, hchunks⟩ := hintact
  · have hread : readPieces chunks = streamText eol [] done := by
      refine (garbled_readPieces _ _ h).1.eq_of_ascii ?_
      cases eol <;> cases done <;> exact forall_mem_of_all (by decide)
    by_cases heol : eol = .lf
    · subst heol
      exact chatStream_lf p hread items hdone fun e he => absurd he not_mem_nil
    · exact chatStream_not_lf p heol hread
  · rw [chatStream_lf p (readPieces_of_texts _ _ h hchunks) items hdone
      fun e he _ => hdecode e he, filter_eq_self.2 hplain]

theorem read_eq_events {read : List SseEvent} (hevents : List.Forall₂ GarbledEvent events read)
    (hdata : ((read.filter SseEvent.plain).map fun e => e.data.text) =
      events.map fun e => e.data.text) : read = events ∧ ∀ e ∈ read, e.plain = true := by
  have hplain : ∀ e ∈ read, e.plain = true := by
    refine length_filter_eq_length_iff.1 ?_
    have hlength := congrArg List.length hdata
    rw [List.length_map, List.length_map] at hlength
    rw [hlength, hevents.length_eq]
  refine ⟨?_, hplain⟩
  rw [filter_eq_self.2 hplain] at hdata
  induction hevents with
  | nil => rfl
  | @cons e e' events read he _ ih =>
    obtain ⟨hhead, hdata⟩ := cons.inj hdata
    obtain ⟨hplain', hplain⟩ := forall_mem_cons.1 hplain
    obtain ⟨hname, -⟩ := Bool.and_eq_true_iff.1 hplain'
    have hname : e'.name = none := isNone_iff_eq_none.1 hname
    rw [ih hdata hplain,
      SseEvent.ext (hname.trans (he.name.1 hname).symm) he.spaced (DataText.ext hhead)]

theorem intact_of_chatStream (h : chunks.flatten = encodeText (streamText eol events done))
    (item : List Char → α) (hitem : Function.Injective item)
    (hdone : p.skipsDone = true ∨ p.decode "[DONE]" = .ok [])
    (hdecode : ∀ data : DataText, p.decode data.string = .ok [item data.text])
    (hyields : p.chatStream [] (chunks.map .ok) =
      (events.map fun e => item e.data.text).map .ok) : Intact events chunks eol := by
  obtain ⟨hgarbled, hwhole⟩ := garbled_readPieces _ _ h
  obtain ⟨read, hread, hevents⟩ := garbled_stream eol events done hgarbled
  by_cases heol : eol = .lf
  · subst heol
    rw [chatStream_lf p hread (fun e => [item e.data.text]) hdone fun e _ _ => hdecode e.data,
      ← map_eq_flatMap] at hyields
    have hitems := map_injective_iff.2 (fun _ _ => Except.ok.inj) hyields
    have hdata : ((read.filter SseEvent.plain).map fun e => e.data.text) =
        events.map fun e => e.data.text := by
      refine map_injective_iff.2 hitem ?_
      rw [List.map_map, List.map_map]
      exact hitems
    obtain ⟨rfl, hplain⟩ := read_eq_events hevents hdata
    exact .inr ⟨rfl, hplain, hwhole hread⟩
  · rw [chatStream_not_lf p heol hread] at hyields
    exact .inl (map_eq_nil_iff.1 (map_eq_nil_iff.1 hyields.symm))

/-! ## The providers -/

theorem openAi_faithful_iff (h : chunks.flatten = encodeText (streamText eol events done))
    (label : String) : OpenAiFaithful events chunks label ↔ Intact events chunks eol := by
  constructor
  · intro hfaithful
    let chunk : String → ChatChunk := fun data => ⟨data, "", 0, "", []⟩
    refine intact_of_chatStream (openAiStyle label fun data => .ok (chunk data)) h
      (fun data => chunk (String.ofList data)) ?_ (.inl rfl) (fun _ => rfl)
      (hfaithful _ chunk fun _ _ => rfl)
    intro data data' heq
    exact String.ofList_injective (congrArg ChatChunk.id heq)
  · intro hintact parse value hparse
    rw [chatStream_intact _ h hintact (fun e => [value e.data.string]) (.inl rfl), ← map_eq_flatMap]
    intro e he
    simp only [openAiStyle, hparse e he]

def textEvent (data : String) : Json :=
  .object [("type", .string "content_block_delta"), ("delta", .object [("text", .string data)])]

theorem anthropic_faithful_iff (h : chunks.flatten = encodeText (streamText eol events done))
    (chatId : String) (created : UInt64) :
    AnthropicFaithful events chunks chatId created ↔ Intact events chunks eol := by
  constructor
  · intro hfaithful
    let parse : String → Option Json :=
      fun data => if data = "[DONE]" then none else some (textEvent data)
    have hparse : ∀ data : DataText, parse data.string = some (textEvent data.string) := by
      intro data
      exact if_neg fun hdone => data.json (String.ofList_injective hdone)
    have hdecode : ∀ data : DataText, (anthropic chatId created parse).decode data.string =
        .ok [anthropicChunk chatId created { content := some data.string } none] := by
      intro data
      simp only [anthropic, hparse]
      rfl
    refine intact_of_chatStream (anthropic chatId created parse) h
      (fun data => anthropicChunk chatId created { content := some (String.ofList data) } none)
      ?_ (.inr rfl) hdecode ?_
    · intro data data' heq
      have hchoices := congrArg (fun chunk : ChatChunk =>
        chunk.choices.map fun choice => choice.delta.content) heq
      exact String.ofList_injective (some.inj (cons.inj hchoices).1)
    · rw [hfaithful parse textEvent rfl fun e _ => hparse e.data]
      exact congrArg _ map_eq_flatMap.symm
  · intro hintact parse value hdone hparse
    refine chatStream_intact _ h hintact _ (.inr ?_) ?_
    · simp only [anthropic, hdone]
    · intro e he
      simp only [anthropic, hparse e he]

theorem forall_eq_one {β : Type} {l : List β} {count : β → ℕ} (hle : ∀ x ∈ l, count x ≤ 1)
    (hsum : (l.map count).sum = l.length) : ∀ x ∈ l, count x = 1 := by
  have hbound : ∀ l : List β, (∀ x ∈ l, count x ≤ 1) → (l.map count).sum ≤ l.length := by
    intro l hle
    induction l with
    | nil => exact Nat.le_refl _
    | cons x l ih =>
      obtain ⟨hx, hl⟩ := forall_mem_cons.1 hle
      have := ih hl
      rw [map_cons, sum_cons, length_cons]
      omega
  induction l with
  | nil => exact fun x hx => absurd hx not_mem_nil
  | cons x l ih =>
    obtain ⟨hx, hl⟩ := forall_mem_cons.1 hle
    have := hbound l hl
    rw [map_cons, sum_cons, length_cons] at hsum
    exact forall_mem_cons.2 ⟨by omega, ih hl (by omega)⟩

def sampleCandidates : ℕ → List GeminiCandidate
  | 0 => []
  | n + 1 => ⟨⟨"model", []⟩, none⟩ :: List.replicate n ⟨⟨"model", [⟨"text"⟩]⟩, none⟩

theorem length_sampleCandidates (n : ℕ) : (sampleCandidates n).length = n := by
  cases n with
  | zero => rfl
  | succ n => rw [sampleCandidates, length_cons, List.length_replicate]

theorem gemini_faithful_iff (h : chunks.flatten = encodeText (streamText eol events done))
    (hintact : Intact events chunks eol) (candidates : String → ℕ) (model : String) :
    GeminiFaithful events chunks candidates model ↔ ∀ e ∈ events, candidates e.data.string = 1 := by
  constructor
  · intro hfaithful
    let value : String → GeminiStreamChunk := fun data => ⟨sampleCandidates (candidates data)⟩
    have hyields := hfaithful (fun data => .ok (value data)) value (fun _ _ => rfl)
      fun e _ => length_sampleCandidates _
    rw [chatStream_intact _ h hintact (fun _ => [geminiChunk model "" none]) (.inl rfl)] at hyields
    · have hitems := map_injective_iff.2 (fun _ _ => Except.ok.inj) hyields
      have hle : ∀ e ∈ events, candidates e.data.string ≤ 1 := by
        intro e he
        by_contra hmore
        obtain ⟨n, hn⟩ : ∃ n, candidates e.data.string = n + 2 :=
          ⟨candidates e.data.string - 2, by omega⟩
        have hmem : geminiChunk model "text" none ∈
            events.flatMap fun _ => [geminiChunk model "" none] := by
          rw [hitems]
          refine mem_flatMap.2 ⟨e, he, List.mem_map.2 ⟨⟨⟨"model", [⟨"text"⟩]⟩, none⟩, ?_, rfl⟩⟩
          change _ ∈ sampleCandidates (candidates e.data.string)
          rw [hn]
          exact mem_cons_of_mem _ mem_cons_self
        obtain ⟨_, _, heq⟩ := mem_flatMap.1 hmem
        have hcontents := congrFun (mem_singleton.1 heq) ""
        have hdelta := congrArg (fun chunk : ChatChunk =>
          chunk.choices.map fun choice => choice.delta.content) hcontents
        exact absurd hdelta (by decide : [some "text"] ≠ [some ""])
      refine forall_eq_one hle ?_
      have hlength := congrArg List.length hitems
      rw [← map_eq_flatMap, List.length_map, length_flatMap] at hlength
      simp only [List.length_map, value, length_sampleCandidates] at hlength
      exact hlength.symm
    · intro e _
      change Except.ok _ = _
      cases hcount : candidates e.data.string with
      | zero | succ => simp only [value, hcount, sampleCandidates]; rfl
  · intro hone parse value hparse hcandidates
    refine chatStream_intact _ h hintact _ (.inl rfl) fun e he => ?_
    obtain ⟨candidate, hcandidate⟩ := length_eq_one_iff.1 ((hcandidates e he).trans (hone e he))
    simp only [gemini, hparse e he, hcandidate]
    rfl

/-- The streams of all providers are the chunks of the events exactly where all is intact and
Gemini answers with one candidate at a time. -/
theorem chatStream_faithful_iff (h : chunks.flatten = encodeText (streamText eol events done))
    (candidates : String → ℕ) : Faithful events chunks candidates ↔
      Intact events chunks eol ∧ ∀ e ∈ events, candidates e.data.string = 1 := by
  constructor
  · intro hfaithful
    have hintact := (openAi_faithful_iff h "OpenAI").1 hfaithful.openAi
    exact ⟨hintact, (gemini_faithful_iff h hintact candidates "").1 (hfaithful.gemini "")⟩
  · rintro ⟨hintact, hone⟩
    exact {
      openAi := (openAi_faithful_iff h _).2 hintact
      vllm := (openAi_faithful_iff h _).2 hintact
      sglang := (openAi_faithful_iff h _).2 hintact
      ollama := (openAi_faithful_iff h _).2 hintact
      gemini := fun model => (gemini_faithful_iff h hintact candidates model).2 hone
      anthropic := fun chatId created => (anthropic_faithful_iff h chatId created).2 hintact }

end

/-! ## Samples -/

def sampleData : DataText where
  text := "{}".toList
  oneLine := ⟨by decide, by decide⟩
  notEmpty := by decide
  first := forall_mem_of_optionAll (by decide)
  last := forall_mem_of_optionAll (by decide)
  json := by decide

/-- A chunk whose text has a character of two bytes. -/
def accentData : DataText where
  text := ['"', 'é', '"']
  oneLine := ⟨by decide, by decide⟩
  notEmpty := by decide
  first := forall_mem_of_optionAll (by decide)
  last := forall_mem_of_optionAll (by decide)
  json := by decide

def sampleEvent : SseEvent := ⟨none, true, sampleData⟩

def namedEvent : SseEvent :=
  ⟨some ⟨"content_block_delta".toList, by decide, by decide⟩, true, sampleData⟩

def accentEvent : SseEvent := ⟨none, true, accentData⟩

def sampleChunk (id : String) : ChatChunk := ⟨id, "", 0, "", []⟩

theorem chatStream_faithful_sample : Faithful [sampleEvent, accentEvent]
      [encodeText (streamText .lf [sampleEvent, accentEvent] true)] fun _ => 1 :=
  (@chatStream_faithful_iff .lf [sampleEvent, accentEvent] true _ (append_nil _) _).2
    ⟨.inr ⟨rfl, by decide, fun _ hchunk => ⟨_, mem_singleton.1 hchunk⟩⟩, fun _ _ => rfl⟩

/-- An event with an `event:` line is lost, and so is a character that two network chunks share. -/
theorem events_lost_or_altered :
    ¬ Faithful [namedEvent] [encodeText (streamText .lf [namedEvent] false)] (fun _ => 1) ∧
      ¬ Faithful [accentEvent] [(encodeText (streamText .lf [accentEvent] false)).take 8,
          (encodeText (streamText .lf [accentEvent] false)).drop 8] fun _ => 1 := by
  constructor
  all_goals
    intro hfaithful
    have hyields := hfaithful.openAi (fun data => .ok (sampleChunk data)) sampleChunk
      fun _ _ => rfl
    exact absurd hyields (by decide +kernel)

end Gadgetron.Provider
