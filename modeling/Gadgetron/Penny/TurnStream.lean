import Gadgetron.Penny.Content

/-!
# The events of a turn

The backends report a turn as a sequence of events, and `BackendStreamHandler` turns each into chat
chunks.
-/

namespace Gadgetron.Penny

open Lib Policy

/-- The error of a turn: `PennyErrorKind::AgentError` with its message. -/
structure AgentError where
  message : String

/-! ## Claude -/

inductive ContentBlock
  | text (text : String)
  | thinking (thinking : String)
  | toolUse (id name : String) (input : Json)
  | unknown

inductive UserContentBlock
  | toolResult (toolUseId : String) (content : Json) (isError : Bool)
  | unknown

inductive ContentBlockDeltaPayload
  | textDelta (text : String)
  | thinkingDelta (thinking : String)
  | other

inductive RawStreamEvent
  | contentBlockDelta (delta : ContentBlockDeltaPayload)
  | other

inductive StreamJsonEvent
  | assistant (content : List ContentBlock)
  | user (content : List UserContentBlock)
  | result (result : String) (isError : Bool)
  | messageDelta (text : Option String)
  | toolUse (id name : String) (input : Json)
  | toolResult (toolUseId : String) (content : Json) (isError : Bool)
  | messageStop (stopReason : String)
  | messageUsage (inputTokens outputTokens : ℕ)
  | streamEvent (event : RawStreamEvent)

def textChunk (text : String) (piece : String → Piece) : List ChatChunk :=
  if text = "" then [] else [buildChunk (some (piece text)) none]

section

variable (json : JsonText) (redactStderr : String → String)

def streamEventToChunks : RawStreamEvent → List ChatChunk
  | .contentBlockDelta (.textDelta text) => textChunk text .answer
  | .contentBlockDelta (.thinkingDelta thinking) => textChunk thinking .thinking
  | _ => []

/-- One turn of the loop of `assistant_message_to_chunks`. -/
def contentBlockToChunks (skipAssistantText : Bool) : ContentBlock → List ChatChunk
  | .text text => if skipAssistantText then [] else textChunk text .answer
  | .thinking thinking => textChunk thinking .thinking
  | .toolUse _ name input =>
    if isInternalTool name then []
    else [buildChunk (some (.toolCall name (json.print input))) none]
  | .unknown => []

def assistantMessageToChunks (content : List ContentBlock) (skipAssistantText : Bool) :
    List ChatChunk :=
  content.flatMap (contentBlockToChunks json skipAssistantText)

/-- One turn of the loop of `user_message_to_chunks`. -/
def userContentBlockToChunks : UserContentBlock → List ChatChunk
  | .toolResult _ content isError =>
    let text := toolResultToText json content
    if text = "" ∨ looksLikeInternalToolResult text then []
    else [buildChunk (some (.toolResult isError text)) none]
  | .unknown => []

def eventToChatChunksEx (event : StreamJsonEvent) (skipAssistantText : Bool) : List ChatChunk :=
  match event with
  | .streamEvent event => streamEventToChunks event
  | .assistant content => assistantMessageToChunks json content skipAssistantText
  | .user content => content.flatMap (userContentBlockToChunks json)
  | .result _ isError => if isError then [] else stopChunk
  | .messageDelta (some text) => textChunk text .answer
  | .messageDelta none => []
  | .toolUse _ _ _ => []
  | .toolResult _ _ _ => []
  | .messageStop _ => stopChunk
  | .messageUsage _ _ => []

def StreamJsonEvent.isStreamEvent : StreamJsonEvent → Bool
  | .streamEvent _ => true
  | _ => false

def claudeResultErrorMessage (result : String) : String :=
  let redacted := redactStderr (trim result)
  if redacted = "" then "claude stream-json result reported an error" else redacted

/-- `handle_claude_line`, from the parsed event on: the flag `has_streamed_deltas` and the chunks.
-/
def handleClaudeLine (hasStreamedDeltas : Bool) (event : StreamJsonEvent) :
    Except AgentError (Bool × List ChatChunk) :=
  let hasStreamedDeltas := hasStreamedDeltas || event.isStreamEvent
  match event with
  | .result result true => .error ⟨claudeResultErrorMessage redactStderr result⟩
  | event => .ok (hasStreamedDeltas, eventToChatChunksEx json event hasStreamedDeltas)

def claudeChunks (hasStreamedDeltas : Bool) : List StreamJsonEvent →
    Except AgentError (List ChatChunk)
  | [] => .ok []
  | event :: events => do
    let (hasStreamedDeltas, chunks) ← handleClaudeLine json redactStderr hasStreamedDeltas event
    let rest ← claudeChunks hasStreamedDeltas events
    return chunks ++ rest

end

/-! ## Codex -/

structure CodexToolCallResult where
  isError : Bool
  output : String

inductive CodexExecEvent
  | threadStarted (id : String)
  | textDelta (text : String)
  | reasoningDelta (text : String)
  | reasoning (text : String)
  | finalMessage (text : String)
  | mcpToolCall (callId : Option String) (name : String) (input : Json)
      (result : Option CodexToolCallResult)
  | finished (inputTokens outputTokens : Option ℕ)
  | error (message : String)

structure CodexHandler where
  (hasStreamedDeltas hasStreamedReasoning : Bool)
  capturedSessionId : Option String
  startedToolCalls : List String

def CodexHandler.new : CodexHandler := ⟨false, false, none, []⟩

section

variable (json : JsonText)

def codexToolCallToChatChunks (name : String) (input : Json) (result : Option CodexToolCallResult)
    (includeStart : Bool) : List ChatChunk :=
  (if includeStart then [buildChunk (some (.toolCall name (json.print input))) none] else []) ++
    match result with
    | none => []
    | some result =>
      let output := if trim result.output = "" then "completed" else trim result.output
      [buildChunk (some (.toolResult result.isError output)) none]

def codexEventToChatChunksEx (event : CodexExecEvent) (skipFinalText skipFullReasoning : Bool) :
    List ChatChunk :=
  match event with
  | .textDelta text => textChunk text .answer
  | .reasoningDelta text => textChunk text .thinking
  | .reasoning text => if skipFullReasoning then [] else textChunk text .thinking
  | .finalMessage text => if skipFinalText then [] else textChunk text .answer
  | .finished _ _ => stopChunk
  | .threadStarted _ => []
  | .mcpToolCall _ name input result =>
    codexToolCallToChatChunks json name input result result.isNone
  | .error _ => []

def shouldEmitCodexToolStart (callId : Option String) (isResultEvent : Bool)
    (startedToolCalls : List String) : Bool × List String :=
  match callId.filter (· ≠ "") with
  | none => (true, startedToolCalls)
  | some callId =>
    if isResultEvent then (callId ∉ startedToolCalls, startedToolCalls.filter (· ≠ callId))
    else (callId ∉ startedToolCalls, startedToolCalls.insert callId)

/-- What `handle_codex_line` notes of an event. -/
def CodexHandler.note (handler : CodexHandler) : CodexExecEvent → CodexHandler
  | .threadStarted id => { handler with capturedSessionId := some id }
  | .textDelta _ => { handler with hasStreamedDeltas := true }
  | .reasoningDelta _ => { handler with hasStreamedReasoning := true }
  | _ => handler

def handleCodexLine (handler : CodexHandler) (event : CodexExecEvent) :
    Except AgentError (CodexHandler × List ChatChunk) :=
  let handler := handler.note event
  match event with
  | .mcpToolCall callId name input result =>
    let (includeStart, started) :=
      shouldEmitCodexToolStart callId result.isSome handler.startedToolCalls
    .ok ({ handler with startedToolCalls := started },
      codexToolCallToChatChunks json name input result includeStart)
  | .error message => .error ⟨message⟩
  | event =>
    .ok (handler, codexEventToChatChunksEx json event handler.hasStreamedDeltas
      handler.hasStreamedReasoning)

def codexChunks (handler : CodexHandler) : List CodexExecEvent → Except AgentError (List ChatChunk)
  | [] => .ok []
  | event :: events => do
    let (handler, chunks) ← handleCodexLine json handler event
    let rest ← codexChunks handler events
    return chunks ++ rest

end

end Gadgetron.Penny
