import Gadgetron.Penny.ResponsesBridge
import Mathlib.Data.List.Nodup

/-!
# Names of flattened tools

Two tools have one name upstream exactly if a namespace goes on where another one ends, or if a
plain function is called like a flattened one.  On all other requests the bridge is faithful.
-/

namespace Gadgetron.Penny

open Lib Policy List Option

structure ToolName where
  space : Option String
  name : String
  deriving DecidableEq

namespace ToolName

def upstream (tool : ToolName) : String :=
  match tool.space with
  | none => tool.name
  | some space => flatName space tool.name

def call (tool : ToolName) (fields : List (String × Json)) : List (String × Json) :=
  match tool.space with
  | none => fields
  | some space => setCallee space tool.name fields

end ToolName

def declares (tool : Json) : List ToolName :=
  if isKind "namespace" tool then
    ((elements "tools" tool).filter (isKind "function")).map fun child =>
      ⟨some (nameOf tool), nameOf child⟩
  else if isKind "function" tool then [⟨none, nameOf tool⟩]
  else []

def declaredTools (request : Json) : List ToolName := (elements "tools" request).flatMap declares

def functionNames (tools : List Json) : List String :=
  (tools.filter (isKind "function")).map nameOf

/-! ## What is sent upstream -/

section

theorem isKind_set {kind : String} {value new : Json} :
    isKind kind (value.set "name" new) = isKind kind value := by
  rw [isKind, isKind, Json.textField_set_of_ne _ _ (by decide)]

theorem nameOf_set {kind name : String} {value : Json} (h : isKind kind value = true) :
    nameOf (value.set "name" (.string name)) = name := by
  rw [nameOf, Json.textField_set_self (of_decide_eq_true h)]
  rfl

def NamespaceMap.register (namespaces : NamespaceMap) (tool : ToolName) : NamespaceMap :=
  match tool.space with
  | none => namespaces
  | some space => namespaces.insert tool.upstream (space, tool.name)

section

variable (space : String) (children : List Json) (namespaces : NamespaceMap)

theorem flattenChildren_names :
    functionNames (flattenChildren space children namespaces).1 =
      ((children.filter (isKind "function")).map fun child =>
        (⟨some space, nameOf child⟩ : ToolName)).map ToolName.upstream := by
  fun_induction flattenChildren space children namespaces with
  | case1 => rfl
  | case2 child children namespaces hkind flat rewritten namespaces' heq ih =>
    rw [heq] at ih
    rw [functionNames, filter_cons_of_pos (isKind_set.trans hkind), map_cons,
      nameOf_set hkind, filter_cons_of_pos hkind, map_cons, map_cons]
    exact congrArg _ ih
  | case3 child children namespaces hkind ih =>
    rw [filter_cons_of_neg hkind]
    exact ih

theorem flattenChildren_map :
    (flattenChildren space children namespaces).2 =
      ((children.filter (isKind "function")).map fun child =>
        (⟨some space, nameOf child⟩ : ToolName)).foldl NamespaceMap.register namespaces := by
  fun_induction flattenChildren space children namespaces with
  | case1 => rfl
  | case2 child children namespaces hkind flat rewritten namespaces' heq ih =>
    rw [heq] at ih
    rw [filter_cons_of_pos hkind, map_cons, foldl_cons]
    exact ih
  | case3 child children namespaces hkind ih =>
    rw [filter_cons_of_neg hkind]
    exact ih

end

theorem functionNames_append (tools tools' : List Json) :
    functionNames (tools ++ tools') = functionNames tools ++ functionNames tools' := by
  rw [functionNames, filter_append, map_append]
  rfl

theorem flattenTools_names (tools : List Json) (namespaces : NamespaceMap) :
    functionNames (flattenTools tools namespaces).1 =
      (tools.flatMap declares).map ToolName.upstream := by
  fun_induction flattenTools tools namespaces with
  | case1 => rfl
  | case2 tool tools namespaces hkind children namespaces' hchildren rewritten namespaces''
      heq ih =>
    have hnames := flattenChildren_names (nameOf tool) (elements "tools" tool) namespaces
    rw [hchildren] at hnames
    rw [heq] at ih
    rw [functionNames_append, ih, hnames, flatMap_cons, map_append, declares, if_pos hkind]
  | case3 tool tools namespaces hkind rewritten namespaces' heq ih =>
    rw [heq] at ih
    rw [flatMap_cons, map_append, ← ih, declares, if_neg hkind]
    by_cases hfunction : isKind "function" tool = true
    · rw [functionNames, filter_cons_of_pos hfunction, if_pos hfunction]
      rfl
    · rw [functionNames, filter_cons_of_neg hfunction, if_neg hfunction]
      rfl

theorem flattenTools_map (tools : List Json) (namespaces : NamespaceMap) :
    (flattenTools tools namespaces).2 =
      (tools.flatMap declares).foldl NamespaceMap.register namespaces := by
  fun_induction flattenTools tools namespaces with
  | case1 => rfl
  | case2 tool tools namespaces hkind children namespaces' hchildren rewritten namespaces''
      heq ih =>
    have hmap := flattenChildren_map (nameOf tool) (elements "tools" tool) namespaces
    rw [hchildren] at hmap
    rw [heq] at ih
    rw [flatMap_cons, foldl_append, declares, if_pos hkind, ← hmap]
    exact ih
  | case3 tool tools namespaces hkind rewritten namespaces' heq ih =>
    rw [heq] at ih
    rw [flatMap_cons, foldl_append, declares, if_neg hkind]
    by_cases hfunction : isKind "function" tool = true
    · rw [if_pos hfunction]
      exact ih
    · rw [if_neg hfunction]
      exact ih

def registered (request : Json) : NamespaceMap :=
  (declaredTools request).foldl NamespaceMap.register []

theorem rewriteTools_map (request : Json) : (rewriteTools request).2 = registered request := by
  rw [registered, declaredTools, elements]
  unfold rewriteTools
  cases (request.get "tools").bind Json.asArray with
  | none => rfl
  | some tools => exact flattenTools_map tools []

theorem elements_set {key : String} {fields : List (String × Json)} (values : List Json) :
    elements key (Json.set key (.object fields) (.array values)) = values := by
  simp only [elements, Json.set, Json.get, lookup_insertKey_self, bind_some, Json.asArray,
    getD_some]

theorem elements_set_of_ne {key key' : String} (value new : Json) (h : key' ≠ key) :
    elements key' (value.set key new) = elements key' value := by
  cases value with
  | object fields => simp only [elements, Json.set, Json.get, lookup_insertKey_of_ne new fields h]
  | _ => rfl

theorem elements_rewriteInput (request : Json) :
    elements "tools" (rewriteInput request) = elements "tools" request := by
  unfold rewriteInput
  cases (request.get "input").bind Json.asArray with
  | none => rfl
  | some input => exact elements_set_of_ne _ _ (by decide)

theorem get_eq_some {value found : Json} {key : String} (h : value.get key = some found) :
    ∃ fields, value = .object fields := by
  cases value with
  | object fields => exact ⟨fields, rfl⟩
  | _ => cases h

theorem functionNames_rewriteTools (request : Json) :
    functionNames (elements "tools" (rewriteTools request).1) =
      (declaredTools request).map ToolName.upstream := by
  unfold rewriteTools
  split
  · rename_i h
    rw [declaredTools, elements, h]
    rfl
  · rename_i tools h
    obtain ⟨found, hfound, -⟩ := bind_eq_some_iff.1 h
    obtain ⟨fields, rfl⟩ := get_eq_some hfound
    have htools : elements "tools" (.object fields) = tools := by rw [elements, h, getD_some]
    rw [declaredTools, htools, ← flattenTools_names tools []]
    exact congrArg functionNames (elements_set _)

end

/-! ## What is on the map -/

section

variable {tools : List ToolName} {namespaces : NamespaceMap} {name : String}

theorem get_register (tool : ToolName) : (namespaces.register tool).get name = match tool.space with
      | none => namespaces.get name
      | some space =>
        if name = tool.upstream then some (space, tool.name) else namespaces.get name := by
  unfold NamespaceMap.register
  cases tool.space with
  | none => rfl
  | some space => exact NamespaceMap.get_insert _ _ _ _

theorem exists_of_get_foldl {pair : String × String}
    (h : (tools.foldl NamespaceMap.register namespaces).get name = some pair) :
    namespaces.get name = some pair ∨
      (⟨some pair.1, pair.2⟩ : ToolName) ∈ tools ∧ name = flatName pair.1 pair.2 := by
  induction tools generalizing namespaces with
  | nil => exact .inl h
  | cons tool tools ih =>
    rcases ih h with h | ⟨hmem, hname⟩
    · rw [get_register] at h
      obtain ⟨_ | space, toolName⟩ := tool
      · exact .inl h
      · by_cases hname : name = flatName space toolName
        · obtain rfl := mem_unique (if_pos hname) h
          exact .inr ⟨mem_cons_self, hname⟩
        · exact .inl ((if_neg hname).symm.trans h)
    · exact .inr ⟨mem_cons_of_mem _ hmem, hname⟩

theorem get_foldl_isSome (h : (namespaces.get name).isSome ∨
    ∃ tool ∈ tools, tool.space.isSome ∧ name = tool.upstream) :
    ((tools.foldl NamespaceMap.register namespaces).get name).isSome := by
  induction tools generalizing namespaces with
  | nil => exact h.elim id fun ⟨tool, hmem, _⟩ => absurd hmem not_mem_nil
  | cons tool tools ih =>
    refine ih ?_
    rw [get_register]
    obtain ⟨_ | space, toolName⟩ := tool
    · rcases h with h | ⟨tool, hmem, hspace, hname⟩
      · exact .inl h
      · rcases mem_cons.1 hmem with rfl | hmem
        · cases hspace
        · exact .inr ⟨tool, hmem, hspace, hname⟩
    · by_cases hname : name = flatName space toolName
      · exact .inl (by simp [ToolName.upstream, hname])
      · rcases h with h | ⟨tool, hmem, hspace, hname'⟩
        · exact .inl (by simpa [ToolName.upstream, hname] using h)
        · rcases mem_cons.1 hmem with rfl | hmem
          · exact absurd hname' hname
          · exact .inr ⟨tool, hmem, hspace, hname'⟩

end

/-! ## Tools with one name -/

/-- The namespace of the first tool ends inside the second one, at one of its separators or in the
middle of one. -/
def Overlap (space name space' name' : String) : Prop :=
  (space' = space ++ "_" ∧ name = "_" ++ name') ∨
    ∃ middle, space' = space ++ "__" ++ middle ∧ name = middle ++ "__" ++ name'

/-- No function is called like one in a namespace, and no namespaces overlap. -/
structure Separate (tools : List ToolName) : Prop where
  plain : ∀ space name, ⟨some space, name⟩ ∈ tools → ⟨none, flatName space name⟩ ∉ tools
  spaces : ∀ space name space' name', ⟨some space, name⟩ ∈ tools → ⟨some space', name'⟩ ∈ tools →
    ¬Overlap space name space' name'

section

theorem not_overlap_self {space name name' : String} : ¬Overlap space name space name' := by
  rintro (⟨hspace, -⟩ | ⟨middle, hspace, -⟩)
  · have hlength := congrArg String.length hspace
    rw [String.length_append, show "_".length = 1 by decide] at hlength
    omega
  · have hlength := congrArg String.length hspace
    rw [String.length_append, String.length_append, show "__".length = 2 by decide] at hlength
    omega

variable {space name space' name' : String}

theorem flatName_of_overlap
    (h : Overlap space name space' name') : flatName space name = flatName space' name' := by
  rcases h with ⟨rfl, rfl⟩ | ⟨middle, rfl, rfl⟩
  · apply String.toList_injective
    simp [flatName]
  · apply String.toList_injective
    simp [flatName]

theorem overlap_of_append {more : List Char} (hspace : space'.toList = space.toList ++ more)
    (hname : '_' :: '_' :: name.toList = more ++ '_' :: '_' :: name'.toList) :
    (space = space' ∧ name = name') ∨ Overlap space name space' name' := by
  match more with
  | [] =>
    refine .inl ⟨String.toList_injective ?_, String.toList_injective ?_⟩
    · simpa using hspace.symm
    · simpa using hname
  | [c] =>
    obtain ⟨rfl, hname⟩ := cons.inj hname
    refine .inr (.inl ⟨String.toList_injective ?_, String.toList_injective ?_⟩)
    · simpa using hspace
    · simpa using hname
  | c :: d :: middle =>
    simp only [cons_append, cons.injEq] at hname
    obtain ⟨rfl, rfl, hname⟩ := hname
    refine .inr (.inr ⟨String.ofList middle, String.toList_injective ?_,
      String.toList_injective ?_⟩)
    · simpa using hspace
    · simpa using hname

theorem overlap_of_flatName (h : flatName space name = flatName space' name') :
    (space = space' ∧ name = name') ∨ Overlap space name space' name' ∨
      Overlap space' name' space name := by
  have hlist : space.toList ++ '_' :: '_' :: name.toList =
      space'.toList ++ '_' :: '_' :: name'.toList := by
    simpa [flatName] using congrArg String.toList h
  rcases append_eq_append_iff.1 hlist with ⟨more, hspace, hname⟩ | ⟨more, hspace, hname⟩
  · rcases overlap_of_append hspace hname with heq | hoverlap
    · exact .inl heq
    · exact .inr (.inl hoverlap)
  · rcases overlap_of_append hspace hname with heq | hoverlap
    · exact .inl ⟨heq.1.symm, heq.2.symm⟩
    · exact .inr (.inr hoverlap)

variable {tools : List ToolName}

theorem Separate.eq_of_upstream (h : Separate tools) {tool tool' : ToolName}
    (hmem : tool ∈ tools) (hmem' : tool' ∈ tools) (heq : tool.upstream = tool'.upstream) :
    tool = tool' := by
  obtain ⟨_ | space, name⟩ := tool <;> obtain ⟨_ | space', name'⟩ := tool'
  · exact congrArg _ heq
  · have hname : name = flatName space' name' := heq
    exact absurd (hname ▸ hmem) (h.plain space' name' hmem')
  · have hname : flatName space name = name' := heq
    exact absurd (hname ▸ hmem') (h.plain space name hmem)
  · rcases overlap_of_flatName heq with ⟨rfl, rfl⟩ | hoverlap | hoverlap
    · rfl
    · exact absurd hoverlap (h.spaces _ _ _ _ hmem hmem')
    · exact absurd hoverlap (h.spaces _ _ _ _ hmem' hmem)

theorem nodup_upstream_iff (hdistinct : tools.Nodup) :
    (tools.map ToolName.upstream).Nodup ↔ Separate tools := by
  constructor
  · intro h
    have hinj := inj_on_of_nodup_map h
    constructor
    · intro space name hmem hplain
      cases hinj hmem hplain rfl
    · intro space name space' name' hmem hmem' hoverlap
      cases hinj hmem hmem' (flatName_of_overlap hoverlap)
      exact not_overlap_self hoverlap
  · intro h
    exact hdistinct.map_on fun tool hmem tool' hmem' heq => h.eq_of_upstream hmem hmem' heq

end

end Gadgetron.Penny
