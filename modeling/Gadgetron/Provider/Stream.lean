import Gadgetron.Lib.Utf8
import Gadgetron.Policy.JsonValue

/-!
# Streams of the providers

`chat_stream` of the six providers: network chunks are decoded to text one by one, the text is cut
into frames at blank lines, and a frame that begins with `data: ` is read as JSON.
-/

namespace Gadgetron.Provider

open Lib Policy List

def pushChar (c : Char) : List (List Char) × List Char → List (List Char) × List Char
  | ([], left) => ([], c :: left)
  | (frame :: frames, left) => ((c :: frame) :: frames, left)

/-- `while let Some(pos) = buffer.find("\n\n")`: the frames of a buffer and what is left in it. -/
def takeFrames : List Char → List (List Char) × List Char
  | [] => ([], [])
  | '\n' :: '\n' :: text => ([] :: (takeFrames text).1, (takeFrames text).2)
  | c :: text => pushChar c (takeFrames text)

/-! ## The loop -/

/-- What differs between the providers; `α` is what a stream yields. -/
structure StreamProvider (α : Type) where
  /-- The provider in the texts of errors. -/
  label : String
  /-- Whether a frame `data: [DONE]` is skipped. -/
  skipsDone : Bool
  /-- The items of a data line, or the error that ends the stream. -/
  decode : String → Except String (List α)

variable {α : Type}

def dataOf (line : String) : Option String :=
  ("data: ".toList.isPrefixOf? line.toList).map String.ofList

def StreamProvider.readFrame (p : StreamProvider α) (frame : List Char) : Except String (List α) :=
  let line := trim (String.ofList frame)
  if line = "" ∨ p.skipsDone ∧ line = "data: [DONE]" then .ok []
  else match dataOf line with
    | some data => p.decode data
    | none => .ok []

def StreamProvider.readFrames (p : StreamProvider α) :
    List (List Char) → List (Except String α) × Bool
  | [] => ([], false)
  | frame :: frames =>
    match p.readFrame frame with
    | .ok items => (items.map .ok ++ (p.readFrames frames).1, (p.readFrames frames).2)
    | .error error => ([.error error], true)

/-- The stream of a response, given the buffer and the network chunks, or errors in their place. -/
def StreamProvider.chatStream (p : StreamProvider α) (buffer : List Char) :
    List (Except String (List UInt8)) → List (Except String α)
  | [] => []
  | .error error :: _ => [.error (p.label ++ " stream read error: " ++ error)]
  | .ok bytes :: chunks =>
    let (frames, left) := takeFrames (buffer ++ fromUtf8Lossy bytes)
    let (items, stopped) := p.readFrames frames
    if stopped then items else items ++ p.chatStream left chunks

/-! ## Chunks -/

structure FunctionChunk where
  (name arguments : Option String)
  deriving DecidableEq

structure ToolCallChunk where
  index : UInt32
  (id toolType : Option String)
  function : Option FunctionChunk
  deriving DecidableEq

structure ChunkDelta where
  role : Option String := none
  content : Option String := none
  toolCalls : Option (List ToolCallChunk) := none
  reasoningContent : Option String := none
  deriving DecidableEq

structure ChunkChoice where
  index : UInt32
  delta : ChunkDelta
  finishReason : Option String
  deriving DecidableEq

structure ChatChunk where
  (id object : String)
  created : UInt64
  model : String
  choices : List ChunkChoice
  deriving DecidableEq

/-! ## OpenAI and its like -/

def openAiStyle (label : String) (parse : String → Except String ChatChunk) :
    StreamProvider ChatChunk where
  label := label
  skipsDone := true
  decode data :=
    match parse data with
    | .ok chunk => .ok [chunk]
    | .error error => .error (label ++ " chunk parse error: " ++ error)

/-! ## Gemini -/

structure GeminiPart where
  text : String

structure GeminiContent where
  role : String
  parts : List GeminiPart

structure GeminiCandidate where
  content : GeminiContent
  finishReason : Option String

structure GeminiStreamChunk where
  candidates : List GeminiCandidate

/-- A chunk with the given content; `id` is random. -/
def geminiChunk (model text : String) (finishReason : Option String) (id : String) : ChatChunk where
  id := "gemini-chunk-" ++ id
  object := "chat.completion.chunk"
  created := 0
  model := model
  choices := [⟨0, { content := some text }, finishReason⟩]

def GeminiCandidate.text (candidate : GeminiCandidate) : String :=
  (candidate.content.parts.head?.map GeminiPart.text).getD ""

/-- An item of the stream is a chunk that waits for its random id. -/
def gemini (model : String) (parse : String → Except String GeminiStreamChunk) :
    StreamProvider (String → ChatChunk) where
  label := "Gemini"
  skipsDone := true
  decode data :=
    match parse data with
    | .ok chunk =>
      let text := ((chunk.candidates.head?.bind fun c => c.content.parts.head?).map
        GeminiPart.text).getD ""
      .ok [geminiChunk model text (chunk.candidates.head?.bind GeminiCandidate.finishReason)]
    | .error error => .error ("Gemini chunk parse error: " ++ error)

/-! ## Anthropic -/

def anthropicChunk (chatId : String) (created : UInt64) (delta : ChunkDelta)
    (finishReason : Option String) : ChatChunk where
  id := chatId
  object := "chat.completion.chunk"
  created := created
  model := chatId
  choices := [⟨0, delta, finishReason⟩]

/-- The chunks of an event: the text of a `content_block_delta`, and the last one. -/
def anthropicItems (chatId : String) (created : UInt64) (event : Json) : List ChatChunk :=
  match (event.textField "type").getD "" with
  | "content_block_delta" =>
    match event.get "delta" with
    | some delta =>
      [anthropicChunk chatId created { content := some ((delta.textField "text").getD "") } none]
    | none => []
  | "message_stop" => [anthropicChunk chatId created {} (some "stop")]
  | _ => []

/-- A data line that is no JSON is passed over. -/
def anthropic (chatId : String) (created : UInt64) (parse : String → Option Json) :
    StreamProvider ChatChunk where
  label := "Anthropic"
  skipsDone := false
  decode data :=
    match parse data with
    | some event => .ok (anthropicItems chatId created event)
    | none => .ok []

/-! ## The text that is read -/

theorem takeFrames_left {text : List Char} (h : (takeFrames text).1 = []) :
    (takeFrames text).2 = text := by
  fun_induction takeFrames text with
  | case1 => rfl
  | case2 => cases h
  | case3 c text _ ih =>
    cases hframes : takeFrames text with
    | mk frames left =>
      rw [hframes] at h ih
      cases frames with
      | nil => exact congrArg (c :: ·) (ih rfl)
      | cons => cases h

theorem takeFrames_left_frames (text : List Char) : (takeFrames (takeFrames text).2).1 = [] := by
  fun_induction takeFrames text with
  | case1 => rfl
  | case2 text ih => exact ih
  | case3 c text hblank ih =>
    cases hframes : takeFrames text with
    | mk frames left =>
      rw [hframes] at ih
      cases frames with
      | cons => exact ih
      | nil =>
        obtain rfl : left = text := by
          have := takeFrames_left (congrArg Prod.fst hframes)
          rwa [hframes] at this
        change (takeFrames (c :: left)).1 = []
        rw [takeFrames, hframes]
        · rfl
        · exact hblank

theorem takeFrames_append (text more : List Char) : takeFrames (text ++ more) =
      ((takeFrames text).1 ++ (takeFrames ((takeFrames text).2 ++ more)).1,
        (takeFrames ((takeFrames text).2 ++ more)).2) := by
  fun_induction takeFrames text with
  | case1 => rfl
  | case2 text ih =>
    rw [cons_append, cons_append, takeFrames, ih]
    rfl
  | case3 c text hblank ih =>
    by_cases hnone : (takeFrames text).1 = []
    · rw [show takeFrames text = ([], text) from Prod.ext hnone (takeFrames_left hnone)]
      rfl
    have hpush : takeFrames (c :: text ++ more) = pushChar c (takeFrames (text ++ more)) := by
      rw [cons_append, takeFrames]
      intro rest hc htext
      cases text with
      | nil => exact hnone rfl
      | cons c' text => exact hblank text hc (congrArg (· :: text) (cons.inj htext).1)
    rw [hpush, ih]
    cases hframes : takeFrames text with
    | mk frames left =>
      cases frames with
      | nil => exact absurd (congrArg Prod.fst hframes) hnone
      | cons => rfl

theorem readFrames_append (p : StreamProvider α) (frames more : List (List Char)) :
    p.readFrames (frames ++ more) = if (p.readFrames frames).2 then p.readFrames frames
      else ((p.readFrames frames).1 ++ (p.readFrames more).1, (p.readFrames more).2) := by
  induction frames with
  | nil => rfl
  | cons frame frames ih =>
    rw [cons_append, StreamProvider.readFrames, StreamProvider.readFrames]
    cases p.readFrame frame with
    | error error => rfl
    | ok items =>
      simp only [ih]
      split
      · rfl
      · rw [List.append_assoc]

theorem chatStream_eq (p : StreamProvider α) {buffer : List Char}
    (hbuffer : (takeFrames buffer).1 = []) (chunks : List (List UInt8)) :
    p.chatStream buffer (chunks.map .ok) =
      (p.readFrames (takeFrames (buffer ++ readPieces chunks)).1).1 := by
  induction chunks generalizing buffer with
  | nil =>
    rw [show readPieces [] = [] from rfl, append_nil, hbuffer]
    rfl
  | cons bytes chunks ih =>
    rw [show readPieces (bytes :: chunks) = fromUtf8Lossy bytes ++ readPieces chunks from
      flatMap_cons, ← List.append_assoc, takeFrames_append, readFrames_append, map_cons,
      StreamProvider.chatStream]
    have hleft := takeFrames_left_frames (buffer ++ fromUtf8Lossy bytes)
    simp only [ih hleft]
    split
    · rfl
    · rfl

end Gadgetron.Provider
