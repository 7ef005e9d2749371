import Gadgetron.Lib.Lines
import Gadgetron.Penny.ToolNames

/-!
# Calls of flattened tools

On separate tools, a call of a flattened name comes back as a call of the tool with that name and
all else as it was, and is sent again under the name that it had.
-/

namespace Gadgetron.Penny

open Lib Policy List Option

/-- What `restore_namespaces` does to the fields of one object. -/
def restoreCall (namespaces : NamespaceMap) (fields : List (String × Json)) :
    List (String × Json) :=
  match (calleeName fields).bind namespaces.get with
  | some (space, name) => setCallee space name fields
  | none => fields

section

variable {namespaces : NamespaceMap} {fields : List (String × Json)} {space name : String}

theorem restoreCall_of_get (h : (calleeName fields).bind namespaces.get = some (space, name)) :
    restoreCall namespaces fields = setCallee space name fields := by
  rw [restoreCall, h]

theorem restoreCall_of_none (h : (calleeName fields).bind namespaces.get = none) :
    restoreCall namespaces fields = fields := by
  rw [restoreCall, h]

theorem textField_setCallee {key space name : String} (hname : key ≠ "name")
    (hspace : key ≠ "namespace") : Json.textField key (.object (setCallee space name fields)) =
      Json.textField key (.object fields) := by
  simp only [Json.textField, Json.get, setCallee, lookup_insertKey_of_ne _ _ hspace,
    lookup_insertKey_of_ne _ _ hname]

theorem textField_namespace_setCallee :
    Json.textField "namespace" (.object (setCallee space name fields)) = some space := by
  simp only [Json.textField, Json.get, setCallee, lookup_insertKey_self, bind_some, Json.asStr]

theorem textField_name_setCallee :
    Json.textField "name" (.object (setCallee space name fields)) = some name := by
  simp only [Json.textField, Json.get, setCallee,
    lookup_insertKey_of_ne _ _ (show "name" ≠ "namespace" by decide), lookup_insertKey_self,
    bind_some, Json.asStr]

theorem isKind_of_calleeName {name : String} (h : calleeName fields = some name) :
    isKind "function_call" (.object fields) = true := by
  unfold calleeName at h
  split_ifs at h with hkind
  exact hkind

theorem calleeName_everywhereFields {f : List (String × Json) → List (String × Json)} :
    calleeName (Json.everywhereFields f fields) = calleeName fields := by
  unfold calleeName isKind
  rw [Json.textField_everywhereFields, Json.textField_everywhereFields]

theorem flattenItem_setCallee {space name callee : String} (h : calleeName fields = some callee) :
    let item := flattenItem (.object (setCallee space name fields))
    isKind "function_call" item = true ∧ item.textField "name" = some (flatName space name) ∧
      item.get "namespace" = none := by
  have hkind : isKind "function_call" (.object (setCallee space name fields)) = true := by
    rw [isKind, textField_setCallee (by decide) (by decide)]
    exact isKind_of_calleeName h
  simp only [flattenItem, if_pos hkind, textField_namespace_setCallee]
  refine ⟨?_, ?_, Json.get_remove_self _ _⟩
  · rw [isKind, Json.textField_remove_of_ne _ (by decide), ← isKind, isKind_set]
    exact hkind
  · rw [Json.textField_remove_of_ne _ (by decide),
      Json.textField_set_self (of_decide_eq_true hkind), nameOf, textField_name_setCallee]
    rfl

end

/-! ## All calls of a value -/

mutual

theorem restoreNamespaces_eq (namespaces : NamespaceMap) : ∀ value : Json,
    restoreNamespaces namespaces value = value.everywhere (restoreCall namespaces)
  | .object fields => by
    rw [restoreNamespaces, Json.everywhere, ← restoreFields_eq namespaces fields, restoreCall,
      restoreFields_eq namespaces fields, calleeName_everywhereFields]
    cases (calleeName fields).bind namespaces.get <;> rfl
  | .array values => by
    rw [restoreNamespaces, Json.everywhere, restoreValues_eq namespaces values]
  | .null | .bool _ | .number _ | .string _ => by simp only [restoreNamespaces, Json.everywhere]

theorem restoreValues_eq (namespaces : NamespaceMap) : ∀ values : List Json,
    restoreValues namespaces values = Json.everywhereValues (restoreCall namespaces) values
  | [] => by rw [restoreValues, Json.everywhereValues]
  | value :: values => by
    rw [restoreValues, Json.everywhereValues, restoreNamespaces_eq namespaces value,
      restoreValues_eq namespaces values]

theorem restoreFields_eq (namespaces : NamespaceMap) : ∀ fields : List (String × Json),
    restoreFields namespaces fields = Json.everywhereFields (restoreCall namespaces) fields
  | [] => by rw [restoreFields, Json.everywhereFields]
  | (key, value) :: fields => by
    rw [restoreFields, Json.everywhereFields, restoreNamespaces_eq namespaces value,
      restoreFields_eq namespaces fields]

end

mutual

theorem everywhere_id : ∀ value : Json, value.everywhere (restoreCall []) = value
  | .object fields => by
    rw [Json.everywhere, everywhereFields_id fields]
    exact congrArg _ (restoreCall_of_none (by cases calleeName fields <;> rfl))
  | .array values => by rw [Json.everywhere, everywhereValues_id values]
  | .null | .bool _ | .number _ | .string _ => by simp only [Json.everywhere]

theorem everywhereValues_id : ∀ values : List Json,
    Json.everywhereValues (restoreCall []) values = values
  | [] => by rw [Json.everywhereValues]
  | value :: values => by
    rw [Json.everywhereValues, everywhere_id value, everywhereValues_id values]

theorem everywhereFields_id : ∀ fields : List (String × Json),
    Json.everywhereFields (restoreCall []) fields = fields
  | [] => by rw [Json.everywhereFields]
  | (key, value) :: fields => by
    rw [Json.everywhereFields, everywhere_id value, everywhereFields_id fields]

end

/-! ## A whole answer -/

def Shows (json : JsonText) (text : String) (value : Json) : Prop :=
  json.parse text = some value ∨ text = json.print value

def valueOf (json : JsonText) (line : List Char) : Option Json :=
  (dataOf line).bind fun data => if data = "[DONE]" then none else json.parse data

/-- A line of a stream with `f` on the objects of its value, if it has one. -/
def LineRestored (json : JsonText) (f : List (String × Json) → List (String × Json))
    (line line' : List Char) : Prop :=
  match valueOf json line with
  | none => line' = line
  | some value =>
    line' = "data: ".toList ++ (json.print (value.everywhere f)).toList ∨
      line' = line ∧ value.everywhere f = value

/-- An answer with `f` on the objects of its values: of the events of a stream, or of the one value
that it is. -/
structure AnswerRestored (json : JsonText) (f : List (String × Json) → List (String × Json))
    (body body' : ByteArray) : Prop where
  noText : String.fromUTF8? body = none → body' = body
  noValue : ∀ text, String.fromUTF8? body = some text → isStream text = false →
    json.parse text = none → body' = body
  value : ∀ text value, String.fromUTF8? body = some text → isStream text = false →
    json.parse text = some value →
    ∃ text' : String, body' = text'.toUTF8 ∧ Shows json text' (value.everywhere f)
  events : ∀ text, String.fromUTF8? body = some text → isStream text = true →
    ∃ text' : String, body' = text'.toUTF8 ∧
      List.Forall₂ (LineRestored json f) (text.toList.splitOn '\n') (text'.toList.splitOn '\n')

section

variable {json : JsonText} {namespaces : NamespaceMap}

theorem lineRestored_rewriteSseLine (line : List Char) :
    LineRestored json (restoreCall namespaces) line (rewriteSseLine json namespaces line) := by
  unfold LineRestored
  fun_cases rewriteSseLine json namespaces line with
  | case1 hdata => rw [valueOf, hdata, bind_none]
  | case2 hdata => rw [valueOf, hdata, bind_some, if_pos rfl]
  | case3 data hdata hdone hvalue => rw [valueOf, hdata, bind_some, if_neg hdone, hvalue]
  | case4 data hdata hdone value hvalue =>
    rw [valueOf, hdata, bind_some, if_neg hdone, hvalue]
    exact .inl (by rw [restoreNamespaces_eq])

theorem lineRestored_self (line : List Char) : LineRestored json (restoreCall []) line line := by
  unfold LineRestored
  split
  · rfl
  · exact .inr ⟨rfl, everywhere_id _⟩

theorem splitOn_rewritten (hprint : ∀ value, '\n' ∉ (json.print value).toList) (text : List Char) :
    (['\n'].intercalate ((text.splitOn '\n').map (rewriteSseLine json namespaces))).splitOn '\n' =
      (text.splitOn '\n').map (rewriteSseLine json namespaces) := by
  apply splitOn_intercalate
  · intro line' hline'
    obtain ⟨line, hline, rfl⟩ := List.mem_map.1 hline'
    have hold := notMem_of_mem_splitOn hline
    fun_cases rewriteSseLine json namespaces line with
    | case1 | case2 | case3 => exact hold
    | case4 data hdata hdone value hvalue =>
      rw [mem_append]
      rintro (hmem | hmem)
      · exact absurd hmem (by decide)
      · exact hprint _ hmem
  · simp

theorem answerRestored_rewriteResponse (hprint : ∀ value, '\n' ∉ (json.print value).toList)
    (body : ByteArray) :
    AnswerRestored json (restoreCall namespaces) body (rewriteResponse json body namespaces) := by
  cases namespaces with
  | nil =>
    refine ⟨fun _ => rfl, fun _ _ _ _ => rfl, fun text value htext _ hvalue => ?_,
      fun text htext _ => ⟨text, eq_toUTF8 htext, ?_⟩⟩
    · exact ⟨text, eq_toUTF8 htext, .inl (by rw [everywhere_id]; exact hvalue)⟩
    · exact forall₂_same.2 fun line _ => lineRestored_self line
  | cons entry entries =>
    have hrewritten {text : String} (htext : String.fromUTF8? body = some text) :
        rewriteResponse json body (entry :: entries) =
          (rewriteText json (entry :: entries) text).toUTF8 := by
      rw [rewriteResponse, htext]
      rfl
    constructor
    · intro htext
      rw [rewriteResponse, htext]
      rfl
    · intro text htext hstream hvalue
      rw [hrewritten htext, rewriteText, hstream, hvalue]
      exact (eq_toUTF8 htext).symm
    · intro text value htext hstream hvalue
      refine ⟨_, hrewritten htext, .inr ?_⟩
      rw [rewriteText, hstream, hvalue, ← restoreNamespaces_eq]
      rfl
    · intro text htext hstream
      refine ⟨_, hrewritten htext, ?_⟩
      rw [rewriteText, hstream, if_pos rfl, String.toList_ofList, splitOn_rewritten hprint]
      exact forall₂_map_right_iff.2 (forall₂_same.2 fun line _ => lineRestored_rewriteSseLine line)

end

/-! ## The bridge -/

/-- The bridge is faithful on the tools of a request, of which `sent` goes upstream: no two share a
name there, and calls are turned back and forth between a tool and its name. -/
structure Faithful (json : JsonText) (tools : List ToolName) (sent : Json)
    (namespaces : NamespaceMap) : Prop where
  names : (functionNames (elements "tools" sent)).Nodup
  calls : ∀ tool ∈ tools, ∀ fields, calleeName fields = some tool.upstream →
    restoreCall namespaces fields = tool.call fields
  others : ∀ fields, (∀ tool ∈ tools, calleeName fields ≠ some tool.upstream) →
    restoreCall namespaces fields = fields
  answers : ∀ body, AnswerRestored json (restoreCall namespaces) body
    (rewriteResponse json body namespaces)
  history : ∀ tool ∈ tools, ∀ fields, calleeName fields = some tool.upstream →
    (tool.space = none → (Json.object fields).get "namespace" = none) → ∀ (request : Json) (i : ℕ),
      (elements "input" request)[i]? = some (.object (restoreCall namespaces fields)) →
      ∃ item, (elements "input" (rewriteInput (rewriteTools request).1))[i]? = some item ∧
        isKind "function_call" item = true ∧ item.textField "name" = some tool.upstream ∧
        item.get "namespace" = none

section

variable {json : JsonText} {tools : List ToolName}

theorem elements_input_rewritten (request : Json) :
    elements "input" (rewriteInput (rewriteTools request).1) =
      (elements "input" request).map flattenItem := by
  have htools : elements "input" (rewriteTools request).1 = elements "input" request := by
    unfold rewriteTools
    cases (request.get "tools").bind Json.asArray with
    | none => rfl
    | some tools => exact elements_set_of_ne _ _ (by decide)
  rw [← htools]
  generalize (rewriteTools request).1 = sent
  unfold rewriteInput
  split
  · rename_i h
    rw [elements, h]
    rfl
  · rename_i input h
    obtain ⟨found, hfound, -⟩ := bind_eq_some_iff.1 h
    obtain ⟨fields, rfl⟩ := get_eq_some hfound
    rw [elements_set, elements, h, getD_some]

variable {tool : ToolName}

theorem get_registered (hseparate : Separate tools) (hmem : tool ∈ tools) :
    NamespaceMap.get (tools.foldl NamespaceMap.register []) tool.upstream =
      tool.space.map fun space => (space, tool.name) := by
  cases hget : NamespaceMap.get (tools.foldl NamespaceMap.register []) tool.upstream with
  | none =>
    cases hspace : tool.space with
    | none => rfl
    | some space =>
      have hsome := @get_foldl_isSome tools [] tool.upstream
        (.inr ⟨tool, hmem, by rw [hspace]; rfl, rfl⟩)
      rw [hget] at hsome
      cases hsome
  | some pair =>
    rcases exists_of_get_foldl hget with hempty | ⟨hpair, hname⟩
    · cases hempty
    · obtain rfl := hseparate.eq_of_upstream hmem hpair hname
      rfl

variable {fields : List (String × Json)}

theorem restoreCall_registered (hseparate : Separate tools) (hmem : tool ∈ tools)
    (hcall : calleeName fields = some tool.upstream) :
    restoreCall (tools.foldl NamespaceMap.register []) fields = tool.call fields := by
  have hget := get_registered hseparate hmem
  unfold ToolName.call
  cases hspace : tool.space with
  | none =>
    rw [hspace] at hget
    exact restoreCall_of_none (by rw [hcall]; exact hget)
  | some space =>
    rw [hspace] at hget
    exact restoreCall_of_get (by rw [hcall]; exact hget)

theorem restoreCall_other (h : ∀ tool ∈ tools, calleeName fields ≠ some tool.upstream) :
    restoreCall (tools.foldl NamespaceMap.register []) fields = fields := by
  apply restoreCall_of_none
  cases hcall : calleeName fields with
  | none => rfl
  | some name =>
    cases hget : NamespaceMap.get (tools.foldl NamespaceMap.register []) name with
    | none => exact hget
    | some pair =>
      rcases exists_of_get_foldl hget with hempty | ⟨hpair, rfl⟩
      · cases hempty
      · exact absurd hcall (h _ hpair)

theorem flattenItem_call (hcall : calleeName fields = some tool.upstream)
    (hplain : tool.space = none → (Json.object fields).get "namespace" = none) :
    let item := flattenItem (.object (tool.call fields))
    isKind "function_call" item = true ∧ item.textField "name" = some tool.upstream ∧
      item.get "namespace" = none := by
  obtain ⟨_ | space, name⟩ := tool
  · have hnone := hplain rfl
    have hkind := isKind_of_calleeName hcall
    have hitem : flattenItem (.object fields) = .object fields := by
      simp only [flattenItem, if_pos hkind, Json.textField, hnone, bind_none]
    simp only [ToolName.call, hitem]
    refine ⟨hkind, ?_, hnone⟩
    rw [calleeName, if_pos hkind] at hcall
    exact hcall
  · exact flattenItem_setCallee hcall

/-- Among distinct tools, the bridge is faithful exactly if the tools are separate. -/
theorem bridge_faithful_iff (hprint : ∀ value, '\n' ∉ (json.print value).toList)
    {body : ByteArray} {text : String} {request : Json} (htext : String.fromUTF8? body = some text)
    (hrequest : json.parse text = some request) (hdistinct : (declaredTools request).Nodup) :
    ∃ sent namespaces, rewriteRequest json body = some ((json.print sent).toUTF8, namespaces) ∧
        (Faithful json (declaredTools request) sent namespaces ↔
          Separate (declaredTools request)) := by
  refine ⟨rewriteInput (rewriteTools request).1, registered request, ?_, ?_⟩
  · rw [rewriteRequest, htext, bind_some, hrequest, map_some, ← rewriteTools_map]
  have hnames : functionNames (elements "tools" (rewriteInput (rewriteTools request).1)) =
      (declaredTools request).map ToolName.upstream := by
    rw [elements_rewriteInput, functionNames_rewriteTools]
  constructor
  · intro h
    rw [← nodup_upstream_iff hdistinct, ← hnames]
    exact h.names
  · intro h
    refine ⟨by rw [hnames]; exact (nodup_upstream_iff hdistinct).2 h,
      fun tool hmem fields hcall => restoreCall_registered h hmem hcall,
      fun fields hother => restoreCall_other hother, answerRestored_rewriteResponse hprint, ?_⟩
    intro tool hmem fields hcall hplain request' i hitem
    rw [registered, restoreCall_registered h hmem hcall] at hitem
    refine ⟨flattenItem (.object (tool.call fields)), ?_, flattenItem_call hcall hplain⟩
    rw [elements_input_rewritten, getElem?_map, hitem, map_some]

end

/-! ## Samples -/

def functionTool (name : String) : Json :=
  .object [("name", .string name), ("type", .string "function")]

def namespaceTool (name : String) (children : List Json) : Json :=
  .object [("name", .string name), ("tools", .array children), ("type", .string "namespace")]

def requestOf (tools : List Json) : Json := .object [("tools", .array tools)]

/-- A plain function and those of two namespaces, both of which have one that is called `read`. -/
def sampleRequest : Json :=
  requestOf [functionTool "list", namespaceTool "wiki" [functionTool "read", functionTool "write"],
    namespaceTool "mail" [functionTool "read"]]

def functionText (name : String) : String :=
  "\x7b\"name\":\"" ++ name ++ "\",\"type\":\"function\"\x7d"

def namespaceText (name : String) (children : List String) : String :=
  "\x7b\"name\":\"" ++ name ++ "\",\"tools\":[" ++ ",".intercalate children ++
    "],\"type\":\"namespace\"\x7d"

def requestText (tools : List String) : String :=
  "\x7b\"tools\":[" ++ ",".intercalate tools ++ "]\x7d"

def sampleText : String :=
  requestText [functionText "list",
    namespaceText "wiki" [functionText "read", functionText "write"],
    namespaceText "mail" [functionText "read"]]

/-- Reading and writing, as far as the request goes. -/
def sampleJson : JsonText where
  parse text := if text = sampleText then some sampleRequest else none
  print _ := requestText (["list", "wiki__read", "wiki__write", "mail__read"].map functionText)

def sampleTools : List ToolName :=
  [⟨none, "list"⟩, ⟨some "wiki", "read"⟩, ⟨some "wiki", "write"⟩, ⟨some "mail", "read"⟩]

theorem bridge_faithful_sample : ∃ sent namespaces,
    rewriteRequest sampleJson sampleText.toUTF8 =
        some ((sampleJson.print sent).toUTF8, namespaces) ∧
      Faithful sampleJson sampleTools sent namespaces := by
  have htools : declaredTools sampleRequest = sampleTools := by decide
  have hprint (value : Json) : '\n' ∉ (sampleJson.print value).toList := by
    change '\n' ∉ String.toList (requestText _)
    decide +kernel
  have hdistinct : (declaredTools sampleRequest).Nodup := by decide
  have hparse : sampleJson.parse sampleText = some sampleRequest :=
    by simp only [sampleJson, if_true]
  obtain ⟨sent, namespaces, hrewrite, hfaithful⟩ := bridge_faithful_iff hprint
    (dif_pos sampleText.isValidUTF8) hparse hdistinct
  have hseparate : Separate (declaredTools sampleRequest) :=
    (nodup_upstream_iff hdistinct).1 (by decide)
  rw [htools] at hfaithful hseparate
  exact ⟨sent, namespaces, hrewrite, hfaithful.2 hseparate⟩

/-- The functions `b__c` of `a` and `c` of `a__b` are distinct and go upstream under one name. -/
theorem tools_share_name :
    let request :=
      requestOf [namespaceTool "a" [functionTool "b__c"], namespaceTool "a__b" [functionTool "c"]]
    (declaredTools request).Nodup ∧
      functionNames (elements "tools" (rewriteInput (rewriteTools request).1)) =
        ["a__b__c", "a__b__c"] := by
  decide

end Gadgetron.Penny
