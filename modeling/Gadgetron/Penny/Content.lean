import Gadgetron.Penny.ResponsesBridge

/-!
# The content of chat chunks

What an agent says, thinks and does in a turn reaches the client in chat chunks: answer text as it
is; thinking, tool calls and tool results set in markdown.
-/

namespace Gadgetron.Penny

open Lib Policy

/-- What one chunk carries. -/
inductive Piece
  | answer (text : String)
  | thinking (text : String)
  | toolCall (name input : String)
  | toolResult (isError : Bool) (output : String)

/-- `str::replace` of a character. -/
def replaceChar (c : Char) (new : List Char) (text : String) : String :=
  String.ofList (text.toList.flatMap fun d => if d = c then new else [d])

def truncateChars (text : String) (maxChars : ℕ) : String :=
  if text.toList.length ≤ maxChars then text
  else String.ofList (text.toList.take maxChars) ++ "..."

def formatThinkingBlock (thinking : String) : String :=
  "> 💭 _" ++ replaceChar '\n' ['\n', '>', ' '] thinking ++ "_\n\n"

def formatToolCall (name input : String) : String :=
  "\n\n🔧 **" ++ name ++ "** `" ++ truncateChars input 120 ++ "`\n\n"

def formatToolResult (isError : Bool) (output : String) : String :=
  (if isError then "❌" else "✓") ++ " _" ++ replaceChar '\n' [' '] (truncateChars output 300) ++
    "_ \n\n"

def Piece.render : Piece → String
  | .answer text => text
  | .thinking text => formatThinkingBlock text
  | .toolCall name input => formatToolCall name input
  | .toolResult isError output => formatToolResult isError output

/-- `ChatChunk`, up to its id, its time and its model. -/
structure ChatChunk where
  content : Option Piece
  finishReason : Option String

def buildChunk (content : Option Piece) (finishReason : Option String) : ChatChunk :=
  ⟨content, finishReason⟩

def stopChunk : List ChatChunk := [buildChunk none (some "stop")]

def contentOf (chunks : List ChatChunk) : String :=
  String.join (chunks.filterMap fun chunk => chunk.content.map Piece.render)

/-! ## Tools -/

def isInternalTool (name : String) : Bool := !"mcp__".toList.isPrefixOf name.toList

def looksLikeInternalToolResult (text : String) : Bool :=
  let t := (trim text).toList
  let startsWith : String → Bool := fun head => head.toList.isPrefixOf t
  startsWith "Tool loaded." || startsWith "<function>" || startsWith "Todos have been modified" ||
    startsWith "Todos are being tracked" || t = "Not connected".toList ||
    startsWith "No matching deferred tools" || startsWith "No matching tools"

def toolResultToText (json : JsonText) (content : Json) : String :=
  match content.asStr with
  | some text => text
  | none =>
    match content.asArray with
    | some values => " ".intercalate (values.filterMap (Json.textField "text"))
    | none => json.print content

end Gadgetron.Penny
