import Gadgetron.Policy.JsonValue

/-!
# The Responses bridge

`rewrite_request` flattens the functions of namespaces into plain function tools, `rewrite_response`
gives the calls of an answer their namespaces back.
-/

namespace Gadgetron.Penny

open Lib Policy

/-- `serde_json`: reading a value and writing one. -/
structure JsonText where
  parse : String → Option Json
  print : Json → String

/-! ## Namespaces -/

/-- The tools by the name that they have upstream, each as its namespace and its name there. -/
abbrev NamespaceMap := List (String × String × String)

namespace NamespaceMap

def get (namespaces : NamespaceMap) (name : String) : Option (String × String) :=
  namespaces.lookup name

def insert (namespaces : NamespaceMap) (name : String) (pair : String × String) : NamespaceMap :=
  (name, pair) :: namespaces.filter fun entry => entry.1 != name

theorem get_insert (namespaces : NamespaceMap) (name name' : String) (pair : String × String) :
    (namespaces.insert name pair).get name' =
      if name' = name then some pair else namespaces.get name' := by
  unfold insert get
  split_ifs with h
  · rw [h, List.lookup_cons_self]
  · rw [lookup_cons_of_ne _ _ h, lookup_filter_of_ne _ h]

end NamespaceMap

/-- Whether the `type` of a value is the given one. -/
def isKind (kind : String) (value : Json) : Bool := value.textField "type" = some kind

/-- The `name` of a value, empty where it has none. -/
def nameOf (value : Json) : String := (value.textField "name").getD ""

def flatName (space name : String) : String := space ++ "__" ++ name

/-! ## The request -/

def flattenChildren (space : String) : List Json → NamespaceMap → List Json × NamespaceMap
  | [], namespaces => ([], namespaces)
  | child :: children, namespaces =>
    if isKind "function" child then
      let flat := flatName space (nameOf child)
      let (rewritten, namespaces) :=
        flattenChildren space children (namespaces.insert flat (space, nameOf child))
      (child.set "name" (.string flat) :: rewritten, namespaces)
    else flattenChildren space children namespaces

def elements (key : String) (value : Json) : List Json :=
  ((value.get key).bind Json.asArray).getD []

def flattenTools : List Json → NamespaceMap → List Json × NamespaceMap
  | [], namespaces => ([], namespaces)
  | tool :: tools, namespaces =>
    if isKind "namespace" tool then
      let (children, namespaces) := flattenChildren (nameOf tool) (elements "tools" tool) namespaces
      let (rewritten, namespaces) := flattenTools tools namespaces
      (children ++ rewritten, namespaces)
    else
      let (rewritten, namespaces) := flattenTools tools namespaces
      (tool :: rewritten, namespaces)

def flattenItem (item : Json) : Json :=
  if isKind "function_call" item then
    match item.textField "namespace" with
    | none => item
    | some space => (item.set "name" (.string (flatName space (nameOf item)))).remove "namespace"
  else item

def rewriteTools (request : Json) : Json × NamespaceMap :=
  match (request.get "tools").bind Json.asArray with
  | none => (request, [])
  | some tools =>
    let (rewritten, namespaces) := flattenTools tools []
    (request.set "tools" (.array rewritten), namespaces)

def rewriteInput (request : Json) : Json :=
  match (request.get "input").bind Json.asArray with
  | none => request
  | some input => request.set "input" (.array (input.map flattenItem))

def rewriteRequest (json : JsonText) (body : ByteArray) : Option (ByteArray × NamespaceMap) :=
  ((String.fromUTF8? body).bind json.parse).map fun request =>
    let (request, namespaces) := rewriteTools request
    ((json.print (rewriteInput request)).toUTF8, namespaces)

/-! ## The answer -/

def calleeName (fields : List (String × Json)) : Option String :=
  if isKind "function_call" (.object fields) then Json.textField "name" (.object fields) else none

def setCallee (space name : String) (fields : List (String × Json)) : List (String × Json) :=
  insertKey "namespace" (.string space) (insertKey "name" (.string name) fields)

mutual

def restoreNamespaces (namespaces : NamespaceMap) : Json → Json
  | .object fields =>
    -- the texts put in are not looked at again, so they may as well be put in last
    match (calleeName fields).bind namespaces.get with
    | some (space, name) => .object (setCallee space name (restoreFields namespaces fields))
    | none => .object (restoreFields namespaces fields)
  | .array values => .array (restoreValues namespaces values)
  | .null => .null
  | .bool value => .bool value
  | .number text => .number text
  | .string text => .string text

/-- `restore_namespaces` on the elements of an array. -/
def restoreValues (namespaces : NamespaceMap) : List Json → List Json
  | [] => []
  | value :: values => restoreNamespaces namespaces value :: restoreValues namespaces values

/-- `restore_namespaces` on the values of an object. -/
def restoreFields (namespaces : NamespaceMap) : List (String × Json) → List (String × Json)
  | [] => []
  | (key, value) :: fields =>
    (key, restoreNamespaces namespaces value) :: restoreFields namespaces fields

end

def dataOf (line : List Char) : Option String :=
  ("data:".toList.isPrefixOf? line).map fun rest => String.ofList (rest.dropWhile isWhitespace)

def rewriteSseLine (json : JsonText) (namespaces : NamespaceMap) (line : List Char) : List Char :=
  match dataOf line with
  | none => line
  | some data =>
    if data = "[DONE]" then line
    else
      match json.parse data with
      | none => line
      | some value =>
        "data: ".toList ++ (json.print (restoreNamespaces namespaces value)).toList

def isStream (text : String) : Bool := (text.toList.splitOn '\n').any fun line =>
  (dataOf line).isSome

def rewriteText (json : JsonText) (namespaces : NamespaceMap) (text : String) : String :=
  if isStream text then
    String.ofList
      (['\n'].intercalate ((text.toList.splitOn '\n').map (rewriteSseLine json namespaces)))
  else
    match json.parse text with
    | none => text
    | some value => json.print (restoreNamespaces namespaces value)

def rewriteResponse (json : JsonText) (body : ByteArray) (namespaces : NamespaceMap) : ByteArray :=
  if namespaces.isEmpty then body
  else
    match String.fromUTF8? body with
    | none => body
    | some text => (rewriteText json namespaces text).toUTF8

end Gadgetron.Penny
