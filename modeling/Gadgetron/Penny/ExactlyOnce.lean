import Gadgetron.Lib.Scan
import Gadgetron.Penny.TurnStream

/-!
# Delivery of a turn's text

A turn is built from messages, each of which is either streamed as deltas and repeated whole or sent
whole only, with tool calls between them.
-/

namespace Gadgetron.Penny

open Lib Policy List Except

inductive Channel
  | answer
  | thinking
  deriving DecidableEq

abbrev Marked := List (Channel × Char)

def mark (channel : Channel) (text : String) : Marked := text.toList.map (channel, ·)

namespace Marked

def only (channel : Channel) (text : Marked) : Marked := text.filter fun c => c.1 = channel

theorem only_eq_nil {channel : Channel} {text : Marked} :
    text.only channel = [] ↔ text.countP (fun c => c.1 = channel) = 0 := by
  rw [only, countP_eq_length_filter, List.length_eq_zero_iff]

theorem countP_only (channel channel' : Channel) (text : Marked) :
    (text.only channel).countP (fun c => c.1 = channel') =
      if channel = channel' then text.countP (fun c => c.1 = channel') else 0 := by
  unfold only
  rw [countP_filter]
  split_ifs with h
  · subst h
    simp
  · rw [countP_eq_zero]
    intro c _ hboth
    simp only [Bool.and_eq_true, decide_eq_true_eq] at hboth
    exact h (hboth.2.symm.trans hboth.1)

theorem only_thinking_eq_self (text : Marked) (h : text.only .answer = []) :
    text.only .thinking = text := by
  refine filter_eq_self.2 fun c hc => ?_
  have hnot := filter_eq_nil_iff.1 h c hc
  rcases c with ⟨_ | _, c⟩
  · exact absurd rfl hnot
  · rfl

end Marked

def Piece.marked : Piece → Marked
  | .answer text => mark .answer text
  | .thinking text => mark .thinking text
  | .toolCall _ _ => []
  | .toolResult _ _ => []

def ChatChunk.marked (chunk : ChatChunk) : Marked := (chunk.content.map Piece.marked).getD []

def delivered (chunks : List ChatChunk) : Marked := chunks.flatMap ChatChunk.marked

theorem delivered_append (chunks chunks' : List ChatChunk) :
    delivered (chunks ++ chunks') = delivered chunks ++ delivered chunks' :=
  flatMap_append

theorem delivered_textChunk (text : String) (piece : String → Piece) :
    delivered (textChunk text piece) = if text = "" then [] else (piece text).marked := by
  unfold textChunk
  split_ifs
  · rfl
  · exact append_nil _

theorem delivered_answer (text : String) :
    delivered (textChunk text .answer) = mark .answer text := by
  rw [delivered_textChunk]
  split_ifs with h
  · rw [h]; rfl
  · rfl

theorem delivered_thinking (text : String) :
    delivered (textChunk text .thinking) = mark .thinking text := by
  rw [delivered_textChunk]
  split_ifs with h
  · rw [h]; rfl
  · rfl

theorem only_mark (channel channel' : Channel) (text : String) :
    (mark channel text).only channel' = if channel = channel' then mark channel text else [] := by
  unfold mark Marked.only
  rw [List.filter_map]
  split_ifs with h <;> simp [Function.comp_def, h]

theorem filter_mark (flag : Channel → Bool) (channel : Channel) (text : String) :
    (mark channel text).filter (fun c => !flag c.1) =
      if flag channel then [] else mark channel text := by
  unfold mark
  rw [List.filter_map]
  split_ifs with h <;> simp [Function.comp_def, h]

/-! ## Claude -/

section

variable (json : JsonText) (redactStderr : String → String)

def RawStreamEvent.marked : RawStreamEvent → Marked
  | .contentBlockDelta (.textDelta text) => mark .answer text
  | .contentBlockDelta (.thinkingDelta thinking) => mark .thinking thinking
  | _ => []

def ContentBlock.marked : ContentBlock → Marked
  | .text answer => mark .answer answer
  | .thinking thought => mark .thinking thought
  | _ => []

/-- A message: the stream events it came in, if it was streamed, and the whole, which repeats
them. -/
structure ClaudeMessage where
  deltas : Option (List RawStreamEvent)
  content : List ContentBlock
  repeats : ∀ events ∈ deltas,
    events.flatMap RawStreamEvent.marked = content.flatMap ContentBlock.marked

namespace ClaudeMessage

def events (m : ClaudeMessage) : List StreamJsonEvent :=
  (m.deltas.getD []).map .streamEvent ++ [.assistant m.content]

def marked (m : ClaudeMessage) : Marked := m.content.flatMap ContentBlock.marked

end ClaudeMessage

def StreamJsonEvent.Between : StreamJsonEvent → Prop
  | .user _ | .toolUse _ _ _ | .toolResult _ _ _ | .messageStop _ | .messageUsage _ _ => True
  | .result _ isError => isError = false
  | .assistant _ | .messageDelta _ | .streamEvent _ => False

inductive ClaudeItem
  | message (m : ClaudeMessage)
  | between (event : StreamJsonEvent) (h : event.Between)

namespace ClaudeItem

def events : ClaudeItem → List StreamJsonEvent
  | .message m => m.events
  | .between event _ => [event]

def marked : ClaudeItem → Marked
  | .message m => m.marked
  | .between _ _ => []

def streams (item : ClaudeItem) : Bool := item.events.any StreamJsonEvent.isStreamEvent

/-- Of an item, thinking is delivered with the deltas and again whole; whole answer text is left out
once anything was streamed. -/
def given (hasStreamedDeltas : Bool) : ClaudeItem → Marked
  | .message m =>
    if m.deltas.isSome then m.marked ++ m.marked.only .thinking
    else if hasStreamedDeltas then m.marked.only .thinking
    else m.marked
  | .between _ _ => []

end ClaudeItem

theorem delivered_assistant (content : List ContentBlock) (skip : Bool) :
    delivered (assistantMessageToChunks json content skip) =
      if skip then Marked.only .thinking (content.flatMap ContentBlock.marked)
      else content.flatMap ContentBlock.marked := by
  unfold assistantMessageToChunks delivered Marked.only
  rw [flatMap_assoc, filter_flatMap]
  have hblock : ∀ block : ContentBlock,
      (contentBlockToChunks json skip block).flatMap ChatChunk.marked =
        if skip then block.marked.only .thinking else block.marked := by
    intro block
    cases block with
    | text answer =>
      unfold contentBlockToChunks ContentBlock.marked
      cases skip with
      | true => simp [only_mark]
      | false => exact delivered_answer answer
    | thinking thought =>
      unfold contentBlockToChunks ContentBlock.marked
      rw [only_mark, if_pos rfl, ite_self]
      exact delivered_thinking thought
    | toolUse id name input =>
      have hnone : (contentBlockToChunks json skip (.toolUse id name input)).flatMap
          ChatChunk.marked = [] := by
        unfold contentBlockToChunks
        dsimp only
        split_ifs <;> rfl
      rw [hnone]
      cases skip <;> rfl
    | unknown => cases skip <;> rfl
  simp only [hblock]
  cases skip <;> rfl

theorem delivered_streamEvents (events : List RawStreamEvent) :
    delivered (events.flatMap streamEventToChunks) = events.flatMap RawStreamEvent.marked := by
  unfold delivered
  rw [flatMap_assoc]
  refine congrArg (fun f => events.flatMap f) (funext fun event => ?_)
  rcases event with ⟨text | thinking | _⟩ | _
  · exact delivered_answer text
  · exact delivered_thinking thinking
  · rfl
  · rfl

theorem claudeChunks_append {flag : Bool} {events : List StreamJsonEvent} {chunks : List ChatChunk}
    (h : claudeChunks json redactStderr flag events = .ok chunks) (rest : List StreamJsonEvent) :
    claudeChunks json redactStderr flag (events ++ rest) =
      (claudeChunks json redactStderr (flag || events.any StreamJsonEvent.isStreamEvent) rest).map
        (chunks ++ ·) := by
  induction events generalizing flag chunks with
  | nil =>
    cases h
    rw [nil_append, any_nil, Bool.or_false]
    cases claudeChunks json redactStderr flag rest <;> rfl
  | cons event events ih =>
    obtain ⟨⟨flag', first⟩, hfirst, later, hlater, h⟩ := bind₂_eq_ok.1 h
    cases h
    have hflag : flag' = (flag || event.isStreamEvent) := by
      unfold handleClaudeLine at hfirst
      dsimp only at hfirst
      split at hfirst
      · cases hfirst
      · cases hfirst
        rfl
    rw [cons_append, claudeChunks, hfirst, any_cons, ← Bool.or_assoc, ← hflag]
    change (claudeChunks json redactStderr flag' (events ++ rest) >>= _) = _
    rw [ih hlater]
    cases claudeChunks json redactStderr (flag' || events.any StreamJsonEvent.isStreamEvent)
      rest with
    | error e => rfl
    | ok later' => exact congrArg Except.ok (List.append_assoc _ _ _).symm

theorem claudeChunks_streamEvents (flag : Bool) (events : List RawStreamEvent) :
    claudeChunks json redactStderr flag (events.map .streamEvent) =
      .ok (events.flatMap streamEventToChunks) := by
  induction events generalizing flag with
  | nil => rfl
  | cons event events ih =>
    rw [map_cons, claudeChunks]
    change (claudeChunks json redactStderr _ (events.map .streamEvent) >>= _) = _
    rw [ih]
    rfl

namespace ClaudeMessage

theorem delivered_events (m : ClaudeMessage) (flag : Bool) :
    ∃ chunks, claudeChunks json redactStderr flag m.events = .ok chunks ∧
      delivered chunks = (ClaudeItem.message m).given flag := by
  have hevents := claudeChunks_append json redactStderr
    (claudeChunks_streamEvents json redactStderr flag (m.deltas.getD [])) [.assistant m.content]
  refine ⟨_, hevents, ?_⟩
  rw [delivered_append, delivered_streamEvents, append_nil (eventToChatChunksEx _ _ _)]
  change _ ++ delivered (assistantMessageToChunks json m.content _) = _
  rw [delivered_assistant]
  unfold ClaudeItem.given marked
  dsimp only
  cases hdeltas : m.deltas with
  | none => simp [StreamJsonEvent.isStreamEvent]
  | some events =>
    have hrepeats := m.repeats events hdeltas
    rw [Option.getD_some, hrepeats]
    cases events with
    | nil =>
      rw [flatMap_nil] at hrepeats
      rw [← hrepeats]
      simp [Marked.only]
    | cons event events => simp [StreamJsonEvent.isStreamEvent]

end ClaudeMessage

theorem delivered_between (event : StreamJsonEvent) (h : event.Between) (flag : Bool) :
    ∃ chunks, claudeChunks json redactStderr flag [event] = .ok chunks ∧ delivered chunks = [] := by
  have hresults : ∀ content : List UserContentBlock,
      delivered (content.flatMap (userContentBlockToChunks json)) = [] := by
    intro content
    unfold delivered
    rw [flatMap_assoc, flatMap_eq_nil_iff]
    intro block _
    cases block with
    | toolResult id content isError =>
      unfold userContentBlockToChunks
      dsimp only
      split_ifs <;> rfl
    | unknown => rfl
  cases event with
  | user content =>
    refine ⟨_, rfl, ?_⟩
    rw [append_nil]
    exact hresults content
  | result result isError =>
    cases h
    exact ⟨_, rfl, rfl⟩
  | toolUse | toolResult | messageStop | messageUsage => exact ⟨_, rfl, rfl⟩
  | assistant | messageDelta | streamEvent => exact h.elim

/-- The items of a turn, each with the flag that is set when it begins. -/
abbrev claudeScan (items : List ClaudeItem) : List (Bool × ClaudeItem) :=
  scan (fun flag item => flag || item.streams) false items

theorem delivered_claude (items : List ClaudeItem) :
    (claudeChunks json redactStderr false (items.flatMap ClaudeItem.events)).map delivered =
      .ok ((claudeScan items).flatMap fun entry => entry.2.given entry.1) := by
  unfold claudeScan
  generalize false = flag
  induction items generalizing flag with
  | nil => rfl
  | cons item items ih =>
    obtain ⟨chunks, hchunks, hgiven⟩ : ∃ chunks,
        claudeChunks json redactStderr flag item.events = .ok chunks ∧
          delivered chunks = item.given flag := by
      cases item with
      | message m => exact m.delivered_events json redactStderr flag
      | between event h => exact delivered_between json redactStderr event h flag
    rw [flatMap_cons, claudeChunks_append json redactStderr hchunks, scan, flatMap_cons, ← hgiven]
    have hrest := ih (flag || item.streams)
    cases h : claudeChunks json redactStderr (flag || item.streams)
        (items.flatMap ClaudeItem.events) with
    | error e =>
      rw [h] at hrest
      cases hrest
    | ok rest =>
      rw [h] at hrest
      rw [show (flag || item.events.any StreamJsonEvent.isStreamEvent) =
        (flag || item.streams) from rfl, h]
      change Except.ok (delivered (chunks ++ rest)) = _
      rw [delivered_append, ok.inj hrest]

/-- No thinking is streamed, and no answer text of a message that is sent whole only comes after a
stream event. -/
def ClaudeClean (items : List ClaudeItem) : Prop :=
  ∀ before m after, items = before ++ .message m :: after →
    (m.deltas.isSome → m.marked.only .thinking = []) ∧
      (m.deltas = none → (∃ item ∈ before, item.streams) → m.marked.only .answer = [])

theorem foldl_or_eq_true {ι : Type*} {p : ι → Bool} {l : List ι} :
    l.foldl (fun flag i => flag || p i) false = true ↔ ∃ i ∈ l, p i = true := by
  have hfold : ∀ flag : Bool, l.foldl (fun flag i => flag || p i) flag = (flag || l.any p) := by
    induction l with
    | nil => simp
    | cons i l ih => intro flag; rw [foldl_cons, ih, any_cons, Bool.or_assoc]
  rw [hfold, Bool.false_or, List.any_eq_true]

theorem ClaudeItem.countP_given (flag : Bool) (item : ClaudeItem) :
    (item.given flag).countP (fun c => c.1 = .answer) ≤
        item.marked.countP (fun c => c.1 = .answer) ∧
      item.marked.countP (fun c => c.1 = .thinking) ≤
        (item.given flag).countP (fun c => c.1 = .thinking) := by
  cases item with
  | between event h => exact ⟨le_rfl, le_rfl⟩
  | message m =>
    unfold given marked
    dsimp only
    split_ifs <;> simp [countP_append, Marked.countP_only]

theorem claude_delivers_iff (items : List ClaudeItem) :
    (claudeChunks json redactStderr false (items.flatMap ClaudeItem.events)).map delivered =
      .ok (items.flatMap ClaudeItem.marked) ↔ ClaudeClean items := by
  rw [delivered_claude, flatMap_scan (fun flag (item : ClaudeItem) => flag || item.streams) false]
  constructor
  · intro h before m after hitems
    have h := ok.inj h
    set flag := before.foldl (fun flag (item : ClaudeItem) => flag || item.streams) false with hflag
    have hmem : (flag, ClaudeItem.message m) ∈ claudeScan items :=
      mem_scan.2 ⟨before, after, hitems, rfl⟩
    have hanswer := countP_eq_of_flatMap_eq
      (fun entry _ => (entry.2.countP_given entry.1).1) h _ hmem
    have hthinking := countP_eq_of_flatMap_eq
      (fun entry _ => (entry.2.countP_given entry.1).2) h.symm _ hmem
    dsimp only [ClaudeItem.given, ClaudeItem.marked] at hanswer hthinking
    rw [Marked.only_eq_nil, Marked.only_eq_nil]
    constructor
    · intro hstreamed
      rw [if_pos hstreamed, countP_append, Marked.countP_only, if_pos rfl] at hthinking
      omega
    · intro hwhole hearlier
      rw [hwhole, if_neg (by decide), if_pos (foldl_or_eq_true.2 hearlier), Marked.countP_only,
        if_neg (by decide)] at hanswer
      exact hanswer.symm
  · intro hclean
    refine congrArg Except.ok (flatMap_congr fun entry hentry => ?_)
    obtain ⟨flag, item⟩ := entry
    obtain ⟨before, after, hitems, rfl⟩ := mem_scan.1 hentry
    cases item with
    | between event h => rfl
    | message m =>
      obtain ⟨hstreamed, hwhole⟩ := hclean before m after hitems
      dsimp only [ClaudeItem.given, ClaudeItem.marked]
      split_ifs with hdeltas hflag
      · rw [hstreamed hdeltas, append_nil]
      · have hnone : m.deltas = none := Option.not_isSome_iff_eq_none.1 hdeltas
        exact m.marked.only_thinking_eq_self (hwhole hnone (foldl_or_eq_true.1 hflag))
      · rfl

end

/-! ## Codex -/

section

variable (json : JsonText)

inductive CodexDelta
  | text (delta : String)
  | reasoning (delta : String)

inductive CodexWhole
  | reasoning (whole : String)
  | message (whole : String)

namespace CodexDelta

def channel : CodexDelta → Channel
  | .text _ => .answer
  | .reasoning _ => .thinking

def event : CodexDelta → CodexExecEvent
  | .text delta => .textDelta delta
  | .reasoning delta => .reasoningDelta delta

def marked : CodexDelta → Marked
  | .text delta => mark .answer delta
  | .reasoning delta => mark .thinking delta

end CodexDelta

namespace CodexWhole

def event : CodexWhole → CodexExecEvent
  | .reasoning whole => .reasoning whole
  | .message whole => .finalMessage whole

def marked : CodexWhole → Marked
  | .reasoning whole => mark .thinking whole
  | .message whole => mark .answer whole

end CodexWhole

/-- A message: the deltas it came in, if it was streamed, and the whole, which repeats them. -/
structure CodexMessage where
  deltas : Option (List CodexDelta)
  wholes : List CodexWhole
  repeats : ∀ events ∈ deltas, events.flatMap CodexDelta.marked = wholes.flatMap CodexWhole.marked

namespace CodexMessage

def events (m : CodexMessage) : List CodexExecEvent :=
  (m.deltas.getD []).map CodexDelta.event ++ m.wholes.map CodexWhole.event

def marked (m : CodexMessage) : Marked := m.wholes.flatMap CodexWhole.marked

end CodexMessage

def CodexExecEvent.Between : CodexExecEvent → Prop
  | .threadStarted _ | .mcpToolCall _ _ _ _ | .finished _ _ => True
  | .textDelta _ | .reasoningDelta _ | .reasoning _ | .finalMessage _ | .error _ => False

inductive CodexItem
  | message (m : CodexMessage)
  | between (event : CodexExecEvent) (h : event.Between)

namespace CodexItem

def events : CodexItem → List CodexExecEvent
  | .message m => m.events
  | .between event _ => [event]

def marked : CodexItem → Marked
  | .message m => m.marked
  | .between _ _ => []

def streams (channel : Channel) : CodexItem → Bool
  | .message m => (m.deltas.getD []).any fun delta => delta.channel = channel
  | .between _ _ => false

/-- What is delivered of an item: of a whole message, what belongs to a channel without deltas. -/
def given (flag : Channel → Bool) : CodexItem → Marked
  | .message m => if m.deltas.isSome then m.marked else m.marked.filter fun c => !flag c.1
  | .between _ _ => []

end CodexItem

def CodexHandler.flag (handler : CodexHandler) : Channel → Bool
  | .answer => handler.hasStreamedDeltas
  | .thinking => handler.hasStreamedReasoning

def CodexRuns (handler : CodexHandler) (events : List CodexExecEvent) (handler' : CodexHandler)
    (chunks : List ChatChunk) : Prop :=
  ∀ rest, codexChunks json handler (events ++ rest) =
    (codexChunks json handler' rest).map (chunks ++ ·)

section

variable {json}

theorem CodexRuns.nil (handler : CodexHandler) : CodexRuns json handler [] handler [] := by
  intro rest
  rw [nil_append]
  cases codexChunks json handler rest <;> rfl

theorem CodexRuns.append {handler handler' handler'' : CodexHandler}
    {events events' : List CodexExecEvent} {chunks chunks' : List ChatChunk}
    (h : CodexRuns json handler events handler' chunks)
    (h' : CodexRuns json handler' events' handler'' chunks') :
    CodexRuns json handler (events ++ events') handler'' (chunks ++ chunks') := by
  intro rest
  rw [List.append_assoc, h, h']
  cases codexChunks json handler'' rest with
  | error e => rfl
  | ok later => exact congrArg Except.ok (List.append_assoc _ _ _).symm

theorem CodexRuns.of_handle {handler handler' : CodexHandler} {event : CodexExecEvent}
    {chunks : List ChatChunk} (h : handleCodexLine json handler event = .ok (handler', chunks)) :
    CodexRuns json handler [event] handler' chunks := by
  intro rest
  rw [singleton_append, codexChunks, h]
  change (codexChunks json handler' rest >>= _) = _
  cases codexChunks json handler' rest <;> rfl

end

theorem codexRuns_deltas (deltas : List CodexDelta) (handler : CodexHandler) :
    ∃ handler' chunks, CodexRuns json handler (deltas.map CodexDelta.event) handler' chunks ∧
      delivered chunks = deltas.flatMap CodexDelta.marked ∧ ∀ channel, handler'.flag channel =
        (handler.flag channel || deltas.any fun delta => delta.channel = channel) := by
  induction deltas generalizing handler with
  | nil => exact ⟨handler, [], .nil handler, rfl, fun channel => by simp⟩
  | cons delta deltas ih =>
    obtain ⟨handler₁, chunks, hhandle, hdelivered, hflag⟩ : ∃ handler₁ chunks,
        handleCodexLine json handler delta.event = .ok (handler₁, chunks) ∧
          delivered chunks = delta.marked ∧ ∀ channel, handler₁.flag channel =
            (handler.flag channel || decide (delta.channel = channel)) := by
      cases delta with
      | text text =>
        refine ⟨_, _, rfl, delivered_answer text, fun channel => ?_⟩
        cases channel <;> simp [CodexHandler.flag, CodexHandler.note, CodexDelta.event,
          CodexDelta.channel]
      | reasoning text =>
        refine ⟨_, _, rfl, delivered_thinking text, fun channel => ?_⟩
        cases channel <;> simp [CodexHandler.flag, CodexHandler.note, CodexDelta.event,
          CodexDelta.channel]
    obtain ⟨handler₂, rest, hruns, hrest, hflags⟩ := ih handler₁
    refine ⟨handler₂, chunks ++ rest, (CodexRuns.of_handle hhandle).append hruns, ?_, ?_⟩
    · rw [delivered_append, hdelivered, hrest, flatMap_cons]
    · intro channel
      rw [hflags, hflag, any_cons, Bool.or_assoc]

theorem codexRuns_wholes (wholes : List CodexWhole) (handler : CodexHandler) :
    ∃ chunks, CodexRuns json handler (wholes.map CodexWhole.event) handler chunks ∧
      delivered chunks = (wholes.flatMap CodexWhole.marked).filter fun c => !handler.flag c.1 := by
  induction wholes with
  | nil => exact ⟨[], .nil handler, rfl⟩
  | cons whole wholes ih =>
    obtain ⟨rest, hruns, hrest⟩ := ih
    obtain ⟨chunks, hhandle, hdelivered⟩ : ∃ chunks,
        handleCodexLine json handler whole.event = .ok (handler, chunks) ∧
          delivered chunks = whole.marked.filter fun c => !handler.flag c.1 := by
      cases whole with
      | reasoning text =>
        refine ⟨_, rfl, ?_⟩
        rw [CodexWhole.marked, filter_mark]
        change delivered (if handler.flag .thinking then [] else _) = _
        split_ifs
        · rfl
        · exact delivered_thinking text
      | message text =>
        refine ⟨_, rfl, ?_⟩
        rw [CodexWhole.marked, filter_mark]
        change delivered (if handler.flag .answer then [] else _) = _
        split_ifs
        · rfl
        · exact delivered_answer text
    refine ⟨chunks ++ rest, (CodexRuns.of_handle hhandle).append hruns, ?_⟩
    rw [delivered_append, hdelivered, hrest, flatMap_cons, filter_append]

theorem mem_marked_delta {delta : CodexDelta} {c : Channel × Char} (h : c ∈ delta.marked) :
    delta.channel = c.1 := by
  cases delta with
  | text | reasoning =>
    obtain ⟨d, -, rfl⟩ := List.mem_map.1 h
    rfl

theorem codexRuns_message (m : CodexMessage) (handler : CodexHandler) :
    ∃ handler' chunks, CodexRuns json handler m.events handler' chunks ∧
      delivered chunks = (CodexItem.message m).given handler.flag ∧
      ∀ channel, handler'.flag channel =
        (handler.flag channel || (CodexItem.message m).streams channel) := by
  obtain ⟨handler', chunks, hruns, hchunks, hflag⟩ :=
    codexRuns_deltas json (m.deltas.getD []) handler
  obtain ⟨rest, hwholes, hrest⟩ := codexRuns_wholes json m.wholes handler'
  refine ⟨handler', chunks ++ rest, hruns.append hwholes, ?_, hflag⟩
  rw [delivered_append, hchunks, hrest]
  unfold CodexItem.given CodexMessage.marked
  dsimp only
  cases hdeltas : m.deltas with
  | none =>
    rw [hdeltas] at hflag
    simp [hflag]
  | some deltas =>
    have hrepeats := m.repeats deltas hdeltas
    have hnone :
        (m.wholes.flatMap CodexWhole.marked).filter (fun c => !handler'.flag c.1) = [] := by
      rw [filter_eq_nil_iff, ← hrepeats]
      intro c hc
      obtain ⟨delta, hdelta, hc⟩ := mem_flatMap.1 hc
      have hany : ((m.deltas.getD []).any fun delta => delta.channel = c.1) = true := by
        rw [hdeltas]
        exact List.any_eq_true.2 ⟨delta, hdelta, decide_eq_true (mem_marked_delta hc)⟩
      rw [hflag, hany, Bool.or_true]
      decide
    rw [hnone, append_nil]
    exact hrepeats

theorem codexRuns_between (event : CodexExecEvent) (h : event.Between) (handler : CodexHandler) :
    ∃ handler' chunks, CodexRuns json handler [event] handler' chunks ∧ delivered chunks = [] ∧
      handler'.flag = handler.flag := by
  cases event with
  | threadStarted | finished => exact ⟨_, _, .of_handle rfl, rfl, rfl⟩
  | mcpToolCall callId name input result =>
    refine ⟨_, _, .of_handle rfl, ?_, rfl⟩
    unfold codexToolCallToChatChunks
    cases result <;> split_ifs <;> rfl
  | textDelta | reasoningDelta | reasoning | finalMessage | error => exact h.elim

abbrev codexScan (flag : Channel → Bool) (items : List CodexItem) :
    List ((Channel → Bool) × CodexItem) :=
  scan (fun flag item channel => flag channel || item.streams channel) flag items

theorem delivered_codex (items : List CodexItem) (handler : CodexHandler) :
    (codexChunks json handler (items.flatMap CodexItem.events)).map delivered =
      .ok ((codexScan handler.flag items).flatMap fun entry => entry.2.given entry.1) := by
  induction items generalizing handler with
  | nil => rfl
  | cons item items ih =>
    obtain ⟨handler', chunks, hruns, hgiven, hflag⟩ : ∃ handler' chunks,
        CodexRuns json handler item.events handler' chunks ∧
          delivered chunks = item.given handler.flag ∧
          handler'.flag = fun channel => handler.flag channel || item.streams channel := by
      cases item with
      | message m =>
        obtain ⟨handler', chunks, hruns, hgiven, hflag⟩ := codexRuns_message json m handler
        exact ⟨handler', chunks, hruns, hgiven, funext hflag⟩
      | between event h =>
        obtain ⟨handler', chunks, hruns, hgiven, hflag⟩ := codexRuns_between json event h handler
        refine ⟨handler', chunks, hruns, hgiven, ?_⟩
        rw [hflag]
        funext channel
        exact (Bool.or_false _).symm
    have hrest := ih handler'
    rw [flatMap_cons, hruns, codexScan, scan, flatMap_cons, ← hgiven, ← hflag]
    cases h : codexChunks json handler' (items.flatMap CodexItem.events) with
    | error e =>
      rw [h] at hrest
      cases hrest
    | ok rest =>
      rw [h] at hrest
      change Except.ok (delivered (chunks ++ rest)) = _
      rw [delivered_append, ok.inj hrest]

/-- No text of a message that is sent whole only comes after a delta for its channel. -/
def CodexClean (items : List CodexItem) : Prop :=
  ∀ before m after, items = before ++ .message m :: after → m.deltas = none →
    ∀ channel, (∃ item ∈ before, item.streams channel) → m.marked.only channel = []

theorem foldl_flag {before : List CodexItem} {channel : Channel} :
    before.foldl (fun flag item channel => flag channel || item.streams channel)
        CodexHandler.new.flag channel = true ↔ ∃ item ∈ before, item.streams channel = true := by
  have hfold : ∀ flag : Channel → Bool,
      before.foldl (fun flag item channel => flag channel || item.streams channel) flag channel =
        before.foldl (fun flag item => flag || item.streams channel) (flag channel) := by
    induction before with
    | nil => exact fun _ => rfl
    | cons item before ih => exact fun flag => ih _
  rw [hfold, ← foldl_or_eq_true]
  cases channel <;> rfl

theorem CodexItem.countP_given (flag : Channel → Bool) (item : CodexItem) (channel : Channel) :
    (item.given flag).countP (fun c => c.1 = channel) ≤
      item.marked.countP (fun c => c.1 = channel) := by
  cases item with
  | between event h => exact le_rfl
  | message m =>
    unfold given marked
    dsimp only
    split_ifs
    · exact le_rfl
    · exact filter_sublist.countP_le

theorem codex_delivers_iff (items : List CodexItem) :
    (codexChunks json .new (items.flatMap CodexItem.events)).map delivered =
      .ok (items.flatMap CodexItem.marked) ↔ CodexClean items := by
  rw [delivered_codex, flatMap_scan
    (fun flag (item : CodexItem) channel => flag channel || item.streams channel)
    CodexHandler.new.flag]
  constructor
  · intro h before m after hitems hwhole channel hearlier
    have hmem : (_, CodexItem.message m) ∈ codexScan CodexHandler.new.flag items :=
      mem_scan.2 ⟨before, after, hitems, rfl⟩
    have hcount := countP_eq_of_flatMap_eq
      (fun entry _ => entry.2.countP_given entry.1 channel) (ok.inj h) _ hmem
    dsimp only [CodexItem.given, CodexItem.marked] at hcount
    rw [hwhole, if_neg (by decide), countP_filter] at hcount
    rw [Marked.only_eq_nil, ← hcount, countP_eq_zero]
    intro c _ hboth
    simp only [Bool.and_eq_true, decide_eq_true_eq, Bool.not_eq_true'] at hboth
    obtain ⟨rfl, hflag⟩ := hboth
    exact absurd (foldl_flag.2 hearlier) (by rw [hflag]; decide)
  · intro hclean
    refine congrArg Except.ok (flatMap_congr fun entry hentry => ?_)
    obtain ⟨flag, item⟩ := entry
    obtain ⟨before, after, hitems, rfl⟩ := mem_scan.1 hentry
    cases item with
    | between event h => rfl
    | message m =>
      dsimp only [CodexItem.given, CodexItem.marked]
      split_ifs with hdeltas
      · rfl
      · have hnone : m.deltas = none := Option.not_isSome_iff_eq_none.1 hdeltas
        refine filter_eq_self.2 fun c hc => ?_
        rw [Bool.not_eq_true', Bool.eq_false_iff]
        intro hflag
        have honly := hclean before m after hitems hnone c.1 (foldl_flag.1 hflag)
        exact filter_eq_nil_iff.1 honly c hc (decide_eq_true rfl)

end

/-! ## Turns of either backend -/

/-- Either agent's text is delivered once, in order, exactly when its events are clean. -/
theorem text_delivered_once_iff (json : JsonText) (redactStderr : String → String)
    (claude : List ClaudeItem) (codex : List CodexItem) :
    ((claudeChunks json redactStderr false (claude.flatMap ClaudeItem.events)).map delivered =
        .ok (claude.flatMap ClaudeItem.marked) ↔ ClaudeClean claude) ∧
      ((codexChunks json .new (codex.flatMap CodexItem.events)).map delivered =
        .ok (codex.flatMap CodexItem.marked) ↔ CodexClean codex) :=
  ⟨claude_delivers_iff json redactStderr claude, codex_delivers_iff json codex⟩

def thinkingTurn : List ClaudeItem :=
  [.message
    { deltas := some
        [.contentBlockDelta (.thinkingDelta "hm"), .other, .contentBlockDelta (.textDelta "Hi")]
      content := [.thinking "hm", .text "Hi"]
      repeats := by decide }]

def wholeAfterDeltas : List CodexItem :=
  [.message ⟨some [.text "Hi"], [.message "Hi"], by decide⟩,
    .message ⟨none, [.message "Bye"], nofun⟩]

def sampleJsonText : JsonText := ⟨fun _ => none, fun _ => "null"⟩

theorem thinking_twice_and_whole_lost :
    (claudeChunks sampleJsonText id false (thinkingTurn.flatMap ClaudeItem.events)).map delivered ≠
        .ok (thinkingTurn.flatMap ClaudeItem.marked) ∧
      (codexChunks sampleJsonText .new (wholeAfterDeltas.flatMap CodexItem.events)).map delivered ≠
        .ok (wholeAfterDeltas.flatMap CodexItem.marked) := by
  constructor
  · intro h
    exact absurd (ok.inj h) (by decide)
  · intro h
    exact absurd (ok.inj h) (by decide)

end Gadgetron.Penny
